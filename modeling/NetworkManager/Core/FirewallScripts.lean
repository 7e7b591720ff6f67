import NetworkManager.Core.FirewallNft
import NetworkManager.GlibAux.InetAddr
import NetworkManager.Platform.IpObject
import NetworkManager.Lib.Base64
import NetworkManager.Settings.RoutingRule

/-!
# The scripts for nft

A script is written line by line from names of interfaces. In the table and chain names that are
made of them, and behind `device`, nft takes only what its scanner reads as one string. Elsewhere
names are in quotes. A line is the list of its pieces here, so that it is known which is which.
-/

namespace NetworkManager.Core

open Lib GlibAux Platform Settings
open List hiding set

/-! ## Names of interfaces -/

/-- An interface name that the kernel admits. -/
structure Ifname where
  bytes : Bytes
  nulFree : NulFree bytes
  valid : ifnameValidKernel bytes

namespace Ifname

variable (ifname : Ifname)

theorem bytes_injective : Function.Injective bytes := by
  intro a b h
  cases a
  cases b
  simpa using h

instance : DecidableEq Ifname := bytes_injective.decidableEq

theorem length_lt : ifname.bytes.length < ifnamsiz := by
  have hvalid := ifname.valid
  simp only [ifnameValidKernel, Bool.decide_and, Bool.and_eq_true, decide_eq_true_eq] at hvalid
  exact hvalid.2.2.2.2

end Ifname

def nftStringChar (b : UInt8) : Bool := nftIfnameFirst b || isDigit b || b = '/' || b = '-'

/-- What the scanner of nft reads as one string:
`({letter}|[_.])({letter}|{digit}|[/\-_\.])*`. -/
def isNftString (s : Bytes) : Bool := s.head?.any nftIfnameFirst && s.all nftStringChar

variable {s : Bytes}

theorem isNftString_of_nftIfnameValid (h : nftIfnameValid s) : isNftString s := by
  simp only [nftIfnameValid, Bool.and_eq_true] at h
  have hall : s.all nftStringChar := h.1.2
  rw [isNftString, h.1.1, hall, Bool.and_self]

def isBenign (b : UInt8) : Bool := isAlnum b ∨ b = '.' ∨ b = '_' ∨ b = '-' ∨ b = '+'

def shareIptablesGetName (start ipIface : Bytes) : Bytes :=
  start ++
    if ipIface.all isBenign then ('-' : UInt8) :: ipIface
    else base64Encode (ipIface.take (ifnamsiz - 1))

def shareIptablesSubnetToStr (addr : BitVec 32) (plen : UInt8) : Bytes :=
  inet4Ntop (ip4AddrClearHostAddress addr plen.toNat) ++
    ('/' : UInt8) :: formatUnsigned plen.toNat

/-! ## Lines -/

inductive NftPiece
  | text (s : Bytes)
  /-- The name of a table, of a chain or of a set. -/
  | name (s : Bytes)
  /-- The name of an interface without quotes. -/
  | device (s : Bytes)
  /-- The name of an interface between quotes. -/
  | quoted (s : Bytes)
  deriving DecidableEq

abbrev NftLine := List NftPiece

/-- A piece that nft reads as what it is meant to be. -/
def NftPiece.WellFormed : NftPiece → Prop
  | text _ => True
  | name s | device s => isNftString s
  | quoted s => ('"' : UInt8) ∉ s

def NftHook.text : NftHook → String
  | ingress => "ingress"
  | egress => "egress"

def lit (s : String) : NftPiece := .text (ascii s)

/-- How a command in a table is written. -/
def NftTableCmd.line (family : String) (table : Bytes) : NftTableCmd → NftLine
  | flush => [lit ("flush table " ++ family ++ " "), .name table]
  | addChain chain hook device =>
    [lit ("add chain " ++ family ++ " "), .name table, lit " ", .name chain,
      lit (" \x7b type filter hook " ++ hook.text ++ " device "), .device device,
      lit " priority filter; \x7d"]
  | deleteChain chain =>
    [lit ("delete chain " ++ family ++ " "), .name table, lit " ", .name chain]
  | addSet set type =>
    [lit ("add set " ++ family ++ " "), .name table, lit " ", .name set,
      lit (" \x7b typeof " ++ type ++ "; flags dynamic,timeout; \x7d")]
  | addRule chain rule =>
    [lit ("add rule " ++ family ++ " "), .name table, lit " ", .name chain, lit (" " ++ rule)]

def NftCmd.line (family : String) : NftCmd → NftLine
  | addTable table => [lit ("add table " ++ family ++ " "), .name table]
  | deleteTable table => [lit ("delete table " ++ family ++ " "), .name table]
  | inTable table cmd => cmd.line family table

/-- `nm_firewall_nft_stdio_mlag()`, with what it writes. -/
def nftStdioMlagLines (up : Bool) (bondIfname : Bytes)
    (bondIfnamesDown activeMembers previousMembers : List Bytes) (withCounters : Bool) :
    List NftLine :=
  (nftStdioMlag up bondIfname bondIfnamesDown activeMembers previousMembers withCounters).map
    (NftCmd.line "netdev")

def sharedTableName (ipIface : Bytes) : Bytes := shareIptablesGetName (ascii "nm-shared") ipIface

def natPostrouting : Bytes := ascii "nat_postrouting"

def filterForward : Bytes := ascii "filter_forward"

/-- The lines that `_fw_nft_set_shared_construct()` writes for an interface that goes up. -/
def sharedUpLines (ipIface : Bytes) (addr : BitVec 32) (plen : UInt8) : List NftLine :=
  let table : NftPiece := .name (sharedTableName ipIface)
  let subnet : NftPiece := .text (shareIptablesSubnetToStr addr plen)
  let ifname : NftPiece := .quoted ipIface
  [[lit "add chain ip ", table, lit " ", .name natPostrouting,
      lit " \x7b type nat hook postrouting priority 100; policy accept; \x7d;"],
    [lit "add rule ip ", table, lit " ", .name natPostrouting, lit " ip saddr ", subnet,
      lit " ip daddr != ", subnet, lit " masquerade;"],
    [lit "add chain ip ", table, lit " ", .name filterForward,
      lit " \x7b type filter hook forward priority 0; policy accept; \x7d;"],
    [lit "add rule ip ", table, lit " ", .name filterForward, lit " ip daddr ", subnet,
      lit " oifname ", ifname, lit "  ct state \x7b established, related \x7d accept;"],
    [lit "add rule ip ", table, lit " ", .name filterForward, lit " ip saddr ", subnet,
      lit " iifname ", ifname, lit " accept;"],
    [lit "add rule ip ", table, lit " ", .name filterForward, lit " iifname ", ifname,
      lit " oifname ", ifname, lit " accept;"],
    [lit "add rule ip ", table, lit " ", .name filterForward, lit " iifname ", ifname,
      lit " reject;"],
    [lit "add rule ip ", table, lit " ", .name filterForward, lit " oifname ", ifname,
      lit " reject;"]]

def fwNftSetSharedConstruct (up : Bool) (ipIface : Bytes) (addr : BitVec 32) (plen : UInt8) :
    List NftLine :=
  (appendCmdTable (sharedTableName ipIface) up).map (NftCmd.line "ip") ++
    if up then sharedUpLines ipIface addr plen else []

/-! ## Tokens -/

theorem isNftString_append {t : Bytes} (hs : isNftString s) :
    isNftString (s ++ t) ↔ ∀ b ∈ t, nftStringChar b := by
  cases s with
  | nil => simp [isNftString] at hs
  | cons c s =>
    simp only [isNftString, List.head?_cons, Option.any_some, Bool.and_eq_true] at hs
    have hhead : (c :: s ++ t).head? = some c := rfl
    simp only [isNftString, hhead, Option.any_some, all_append, hs.1, hs.2, Bool.true_and,
      all_eq_true]

theorem isNftString_setSanitized {start : Bytes} (hstart : isNftString start) (s : Bytes) :
    isNftString (setSanitized start s) := by
  have hhex : ∀ c : UInt8, nftStringChar (hexchar c false) := by decide
  rw [setSanitized, isNftString_append hstart]
  intro b hb
  obtain ⟨c, -, hbc⟩ := mem_flatMap.mp hb
  unfold sanitizedChar at hbc
  split_ifs at hbc with hc
  · obtain rfl := mem_singleton.mp hbc
    rcases hc with hc | hc
    · simp [nftStringChar, nftIfnameFirst, hc]
    · simp [nftStringChar, hc]
  · simp only [mem_cons, not_mem_nil, or_false] at hbc
    rcases hbc with rfl | rfl | rfl
    · decide
    · exact hhex _
    · exact hhex _

theorem isNftString_mlagTableName (bondIfname : Bytes) : isNftString (mlagTableName bondIfname) :=
  isNftString_setSanitized (by decide) bondIfname

theorem isNftString_rxDropBcMc (member : Bytes) : isNftString (rxDropBcMc member) :=
  isNftString_setSanitized (by decide) member

theorem nftStringChar_of_isBenign : ∀ b : UInt8, isBenign b → (nftStringChar b ↔ b ≠ '+') := by
  decide

/-- When the table of an interface that shares its connection has a name that nft can read: a
benign name has no plus sign in it, and what is encoded needs no padding and no plus sign. -/
def SharedTableExpressible (ipIface : Bytes) : Prop :=
  if ipIface.all isBenign then ('+' : UInt8) ∉ ipIface
  else ipIface.length % 3 = 0 ∧ 62 ∉ sextets ipIface

theorem base64Encode_nftString :
    (∀ b ∈ base64Encode s, nftStringChar b) ↔ s.length % 3 = 0 ∧ 62 ∉ sextets s := by
  have halnum : ∀ b : UInt8, isAlnum b → nftStringChar b := by decide
  constructor
  · intro h
    constructor
    · by_contra hlen
      exact absurd (h _ (padding_mem_base64Encode.mpr hlen)) (by decide)
    · intro hmem
      have hplus : base64Digit 62 ∈ base64Encode s :=
        mem_append_left _ (mem_map_of_mem hmem)
      exact absurd (h _ hplus) (by decide)
  · rintro ⟨hlen, hno⟩ b hb
    rw [base64Encode, base64Padding, hlen, mem_append, mem_map] at hb
    rcases hb with ⟨v, hv, rfl⟩ | hb
    · rcases base64Digit_cases (sextets_lt s v hv) with ⟨hdigit, -⟩ | ⟨-, rfl⟩ | ⟨hdigit, -⟩
      · exact halnum _ hdigit
      · exact absurd hv hno
      · rw [hdigit]
        decide
    · simp at hb

theorem Ifname.take_bytes (ifname : Ifname) : ifname.bytes.take (ifnamsiz - 1) = ifname.bytes :=
  take_of_length_le (Nat.le_pred_of_lt ifname.length_lt)

theorem isNftString_sharedTableName (ipIface : Ifname) :
    isNftString (sharedTableName ipIface.bytes) ↔ SharedTableExpressible ipIface.bytes := by
  rw [sharedTableName, shareIptablesGetName, isNftString_append (by decide),
    SharedTableExpressible, ipIface.take_bytes]
  by_cases hbenign : ipIface.bytes.all isBenign
  · rw [if_pos hbenign, if_pos hbenign, forall_mem_cons]
    rw [all_eq_true] at hbenign
    constructor
    · rintro ⟨-, h⟩ hplus
      exact (nftStringChar_of_isBenign _ (hbenign _ hplus)).mp (h _ hplus) rfl
    · intro hplus
      refine ⟨by decide, fun b hb => (nftStringChar_of_isBenign b (hbenign b hb)).mpr ?_⟩
      rintro rfl
      exact hplus hb
  · rw [if_neg hbenign, if_neg hbenign, base64Encode_nftString]

/-! ## What nft reads -/

theorem appendCmdTable_wellFormed {family : String} {table : Bytes} {up : Bool} :
    (∀ line ∈ (appendCmdTable table up).map (NftCmd.line family), ∀ piece ∈ line,
      piece.WellFormed) ↔ isNftString table := by
  cases up <;>
    simp [appendCmdTable, NftCmd.line, NftTableCmd.line, NftPiece.WellFormed, lit]

/-- Which names of chains and of sets, and which devices, a command in a table has in it. -/
def NftTableCmd.WellFormed : NftTableCmd → Prop
  | flush => True
  | addChain chain _ device => isNftString chain ∧ isNftString device
  | deleteChain chain | addRule chain _ => isNftString chain
  | addSet set _ => isNftString set

theorem NftTableCmd.WellFormed.line {family : String} {table : Bytes} {cmd : NftTableCmd}
    (htable : isNftString table) (h : cmd.WellFormed) :
    ∀ piece ∈ cmd.line family table, piece.WellFormed := by
  cases cmd with
  | addChain chain hook device =>
    simp [NftTableCmd.line, NftPiece.WellFormed, lit, htable, h.1, h.2]
  | flush | deleteChain | addSet | addRule =>
    simp_all [NftTableCmd.line, NftTableCmd.WellFormed, NftPiece.WellFormed, lit]

theorem dropMemberCmds_wellFormed (member : Bytes) :
    ∀ cmd ∈ dropMemberCmds member, cmd.WellFormed := by
  by_cases hvalid : nftIfnameValid member
  · simp [dropMemberCmds, hvalid, NftTableCmd.WellFormed, isNftString_rxDropBcMc,
      isNftString_of_nftIfnameValid hvalid]
  · simp [dropMemberCmds, hvalid]

theorem addMemberCmds_wellFormed (counter : String) (member : Bytes) :
    ∀ cmd ∈ addMemberCmds counter member, cmd.WellFormed := by
  by_cases hvalid : nftIfnameValid member
  · simp [addMemberCmds, hvalid, NftTableCmd.WellFormed, isNftString_rxDropBcMc,
      isNftString_of_nftIfnameValid hvalid]
  · simp [addMemberCmds, hvalid]

theorem activeMembersCmds_wellFormed (counter : String) (activeMembers : List Bytes) :
    ∀ cmd ∈ activeMembersCmds counter activeMembers, cmd.WellFormed := by
  cases activeMembers with
  | nil => simp [activeMembersCmds]
  | cons primary others =>
    rw [activeMembersCmds, forall_mem_append]
    refine ⟨dropMemberCmds_wellFormed primary, fun cmd hcmd => ?_⟩
    obtain ⟨member, -, hmember⟩ := mem_flatMap.mp hcmd
    exact addMemberCmds_wellFormed counter member cmd hmember

variable {bondIfname : Bytes}

theorem learnedMacsCmds_wellFormed (counter : String) (hvalid : nftIfnameValid bondIfname) :
    ∀ cmd ∈ learnedMacsCmds counter bondIfname, cmd.WellFormed := by
  have hdevice := isNftString_of_nftIfnameValid hvalid
  have hnames : isNftString macsetTagged ∧ isNftString macsetUntagged ∧
      isNftString txSnoopSourceMac ∧ isNftString rxDropLoopedPackets := by decide
  simp [learnedMacsCmds, txSnoopRules, rxDropRules, NftTableCmd.WellFormed, hdevice, hnames]

theorem nftStdioMlagLines_wellFormed (up : Bool) (bondIfname : Bytes)
    (bondIfnamesDown activeMembers previousMembers : List Bytes) (withCounters : Bool) :
    ∀ line ∈ nftStdioMlagLines up bondIfname bondIfnamesDown activeMembers previousMembers
      withCounters, ∀ piece ∈ line, piece.WellFormed := by
  intro line hline
  simp only [nftStdioMlagLines, nftStdioMlag, map_append, mem_append, or_assoc] at hline
  rcases hline with hdown | hself | hup
  · obtain ⟨cmd, hcmd, rfl⟩ := mem_map.mp hdown
    obtain ⟨down, -, hcmd⟩ := mem_flatMap.mp hcmd
    exact appendCmdTable_wellFormed.mpr (isNftString_mlagTableName down) _
      (mem_map_of_mem hcmd)
  · exact appendCmdTable_wellFormed.mpr (isNftString_mlagTableName bondIfname) _ hself
  · split_ifs at hup with hvalid
    · rw [← map_append, ← map_append, map_map] at hup
      obtain ⟨cmd, hcmd, rfl⟩ := mem_map.mp hup
      refine NftTableCmd.WellFormed.line (isNftString_mlagTableName bondIfname) ?_
      rw [mem_append, mem_append, or_assoc] at hcmd
      rcases hcmd with hprevious | hactive | hlearned
      · obtain ⟨member, -, hmember⟩ := mem_flatMap.mp hprevious
        exact dropMemberCmds_wellFormed member cmd hmember
      · exact activeMembersCmds_wellFormed _ activeMembers cmd hactive
      · exact learnedMacsCmds_wellFormed _ hvalid.2 cmd hlearned
    · cases hup

theorem sharedUpLines_wellFormed {ipIface : Bytes} {addr : BitVec 32} {plen : UInt8} :
    (∀ line ∈ sharedUpLines ipIface addr plen, ∀ piece ∈ line, piece.WellFormed) ↔
      isNftString (sharedTableName ipIface) ∧ ('"' : UInt8) ∉ ipIface := by
  have hchains : isNftString natPostrouting ∧ isNftString filterForward := by decide
  simp only [sharedUpLines, forall_mem_cons, NftPiece.WellFormed, lit, hchains.1, hchains.2]
  tauto

/-- When nft can read the script for an interface that shares its connection. -/
def SharedExpressible (up : Bool) (ipIface : Bytes) : Prop :=
  SharedTableExpressible ipIface ∧ (up → ('"' : UInt8) ∉ ipIface)

theorem fwNftSetSharedConstruct_wellFormed {up : Bool} {ipIface : Ifname} {addr : BitVec 32}
    {plen : UInt8} :
    (∀ line ∈ fwNftSetSharedConstruct up ipIface.bytes addr plen, ∀ piece ∈ line,
      piece.WellFormed) ↔ SharedExpressible up ipIface.bytes := by
  rw [fwNftSetSharedConstruct, forall_mem_append, appendCmdTable_wellFormed,
    SharedExpressible, ← isNftString_sharedTableName]
  cases up with
  | true =>
    simp only [if_true, sharedUpLines_wellFormed, forall_const]
    tauto
  | false => simp

/-! ## Names of different interfaces -/

theorem shareIptablesGetName_inj {start start' : Bytes} (hlength : start.length = start'.length)
    {a b : Ifname}
    (h : shareIptablesGetName start a.bytes = shareIptablesGetName start' b.bytes) : a = b := by
  have hminus (s t : Bytes) : ('-' : UInt8) :: s ≠ base64Encode t := by
    intro heq
    have hmem : ('-' : UInt8) ∈ base64Encode t := by simp [← heq]
    rw [base64Encode, base64Padding, mem_append, mem_map, mem_replicate] at hmem
    rcases hmem with ⟨v, hv, hdigit⟩ | ⟨-, hpad⟩
    · have hall : ∀ v : Fin 64, base64Digit v ≠ '-' := by decide +kernel
      exact hall ⟨v, sextets_lt t v hv⟩ hdigit
    · exact absurd hpad (by decide)
  have hrest := (append_inj h hlength).2
  rw [a.take_bytes, b.take_bytes] at hrest
  split_ifs at hrest with ha hb hb
  · exact Ifname.bytes_injective (List.cons.inj hrest).2
  · exact absurd hrest (hminus _ _)
  · exact absurd hrest.symm (hminus _ _)
  · exact Ifname.bytes_injective (base64Encode_injective hrest)

def shareIptablesChains : List Bytes := [ascii "nm-sh-in", ascii "nm-sh-fw"]

theorem shareIptablesGetName_length (start : Bytes) (ipIface : Ifname) :
    (shareIptablesGetName start ipIface.bytes).length ≤ start.length + 20 := by
  have hlength := ipIface.length_lt
  rw [shareIptablesGetName, length_append, ipIface.take_bytes]
  unfold ifnamsiz at hlength
  split_ifs
  · rw [length_cons]
    omega
  · rw [base64Encode_length]
    omega

/-! ## The tables that scripts leave -/

/-- A ruleset after scripts for a bond, with the members of the last one. Each script has the
members of the one before in its active or previous ones, and whatever else happens leaves the
table of the bond alone or removes it. -/
inductive MlagRuns (bondIfname : Bytes) : NftRuleset → List Bytes → Prop
  | removed {nft} (hnone : nft (mlagTableName bondIfname) = none) : MlagRuns bondIfname nft []
  | other {nft nft' earlier} (runs : MlagRuns bondIfname nft earlier)
      (hsame : nft' (mlagTableName bondIfname) = nft (mlagTableName bondIfname)) :
      MlagRuns bondIfname nft' earlier
  | up {nft nft' earlier bondIfnamesDown active previous counters}
      (runs : MlagRuns bondIfname nft earlier) (hnodup : active.Nodup)
      (hearlier : ∀ m ∈ earlier, m ∈ active ∨ m ∈ previous)
      (hrun : nft.run (nftStdioMlag true bondIfname bondIfnamesDown active previous counters) =
        some nft') : MlagRuns bondIfname nft' active

theorem MlagRuns.table {nft : NftRuleset} {earlier : List Bytes}
    (runs : MlagRuns bondIfname nft earlier) :
    nft (mlagTableName bondIfname) = none ∨
      ∃ counters, nft (mlagTableName bondIfname) = some (mlagTable bondIfname earlier counters) := by
  induction runs with
  | removed hnone => exact .inl hnone
  | other _ hsame ih => rwa [hsame]
  | @up nft nft' earlier down active previous counters _ hnodup hearlier hrun ih =>
    have hknown : ∀ t, nft (mlagTableName bondIfname) = some t →
        t.Known bondIfname fun m => m ∈ previous ∨ m ∈ active := by
      intro t ht
      rcases ih with hnone | ⟨counters', hsome⟩
      · rw [hnone] at ht
        cases ht
      · obtain rfl := Option.some.inj (hsome.symm.trans ht)
        exact mlagTable_known fun m hm => (hearlier m hm).symm
    rw [run_nftStdioMlag_up hknown hnodup] at hrun
    obtain rfl := Option.some.inj hrun
    exact .inr ⟨counters, if_pos rfl⟩

theorem MlagRuns.next {nft : NftRuleset} {earlier : List Bytes}
    (runs : MlagRuns bondIfname nft earlier) {bondIfnamesDown active previous : List Bytes}
    {counters : Bool} (hnodup : active.Nodup) (hearlier : ∀ m ∈ earlier, m ∈ active ∨ m ∈ previous) :
    ∃ nft', nft.run (nftStdioMlag true bondIfname bondIfnamesDown active previous counters) =
        some nft' ∧
      nft' (mlagTableName bondIfname) = some (mlagTable bondIfname active counters) := by
  have hknown : ∀ t, nft (mlagTableName bondIfname) = some t →
      t.Known bondIfname fun m => m ∈ previous ∨ m ∈ active := by
    intro t ht
    rcases runs.table with hnone | ⟨counters', hsome⟩
    · rw [hnone] at ht
      cases ht
    · obtain rfl := Option.some.inj (hsome.symm.trans ht)
      exact mlagTable_known fun m hm => (hearlier m hm).symm
  exact ⟨_, run_nftStdioMlag_up hknown hnodup, if_pos rfl⟩

/-! ## The whole of it -/

/-- The scripts are well-formed, names are told apart, and scripts for bonds converge. -/
structure NftScriptsRight (up : Bool) (ipIface : Ifname) (addr : BitVec 32) (plen : UInt8) :
    Prop where
  shared : ∀ line ∈ fwNftSetSharedConstruct up ipIface.bytes addr plen, ∀ piece ∈ line,
    piece.WellFormed
  mlag : ∀ (up : Bool) (bondIfnamesDown activeMembers previousMembers : List Bytes)
    (withCounters : Bool),
    ∀ line ∈ nftStdioMlagLines up ipIface.bytes bondIfnamesDown activeMembers previousMembers
      withCounters, ∀ piece ∈ line, piece.WellFormed
  tables : ∀ other : Ifname, other ≠ ipIface →
    sharedTableName other.bytes ≠ sharedTableName ipIface.bytes ∧
      mlagTableName other.bytes ≠ mlagTableName ipIface.bytes
  chains : ∀ other : Ifname, other ≠ ipIface → rxDropBcMc other.bytes ≠ rxDropBcMc ipIface.bytes ∧
    ∀ start ∈ shareIptablesChains, ∀ start' ∈ shareIptablesChains,
      shareIptablesGetName start other.bytes ≠ shareIptablesGetName start' ipIface.bytes
  chainLength : ∀ start ∈ shareIptablesChains,
    (shareIptablesGetName start ipIface.bytes).length < 29
  converge : ∀ (nft : NftRuleset) (earlier bondIfnamesDown active previous : List Bytes)
    (withCounters : Bool), MlagRuns ipIface.bytes nft earlier → active.Nodup →
    (∀ m ∈ earlier, m ∈ active ∨ m ∈ previous) →
    ∃ nft', nft.run (nftStdioMlag true ipIface.bytes bondIfnamesDown active previous
        withCounters) = some nft' ∧
      nft' (mlagTableName ipIface.bytes) = some (mlagTable ipIface.bytes active withCounters)

/-- All of this holds if and only if nft can read the script for sharing the connection. -/
theorem nftScriptsRight_iff (up : Bool) (ipIface : Ifname) (addr : BitVec 32) (plen : UInt8) :
    NftScriptsRight up ipIface addr plen ↔ SharedExpressible up ipIface.bytes := by
  constructor
  · intro h
    exact fwNftSetSharedConstruct_wellFormed.mp h.shared
  · intro h
    have hstart : ∀ start ∈ shareIptablesChains, start.length = 8 := by decide
    have hdifferent {other : Ifname} (hne : other ≠ ipIface) {start start' : Bytes}
        (hlength : start.length = start'.length) :
        shareIptablesGetName start other.bytes ≠ shareIptablesGetName start' ipIface.bytes :=
      fun heq => hne (shareIptablesGetName_inj hlength heq)
    exact {
      shared := fwNftSetSharedConstruct_wellFormed.mpr h
      mlag := fun up => nftStdioMlagLines_wellFormed up ipIface.bytes
      tables := fun other hne => ⟨hdifferent hne rfl, fun heq =>
        hne (Ifname.bytes_injective (mlagTableName_injective heq))⟩
      chains := fun other hne => ⟨fun heq =>
        hne (Ifname.bytes_injective (rxDropBcMc_injective heq)), fun start hs start' hs' =>
          hdifferent hne ((hstart start hs).trans (hstart start' hs').symm)⟩
      chainLength := fun start hs => by
        have hlength := shareIptablesGetName_length start ipIface
        rw [hstart start hs] at hlength
        omega
      converge := fun nft earlier down active previous counters runs => runs.next }

/-- A plus sign is taken over into the name of the table. -/
theorem nftScriptsRight_counterexample :
    ¬ ∀ (up : Bool) (ipIface : Ifname) (addr : BitVec 32) (plen : UInt8),
      NftScriptsRight up ipIface addr plen := by
  intro h
  have hname : isNftString (sharedTableName (ascii "a+b")) :=
    (h false ⟨ascii "a+b", by decide, by decide⟩ 0 24).shared _ mem_cons_self _
      (mem_cons_of_mem _ mem_cons_self)
  exact absurd hname (by decide)

end NetworkManager.Core
