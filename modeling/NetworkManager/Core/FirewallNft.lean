import NetworkManager.Lib.Bytes
import Mathlib.Data.List.Nodup

/-!
# The nftables configuration of a balance-slb bond

`nm_firewall_nft_stdio_mlag()` writes the input of `nft -f -` that configures a bond, or removes
what was configured for it. Of nftables there are the tables of the family netdev and what the
commands of that input do to them. All commands take effect together: when one of them fails,
there is no result.
-/

namespace NetworkManager.Core

open Lib List

/-! ## Rulesets -/

inductive NftHook
  | ingress
  | egress
  deriving DecidableEq

/-- A base chain of type filter with the priority filter. -/
structure NftChain where
  hook : NftHook
  device : Bytes
  rules : List String
  deriving DecidableEq

/-- The chains of a table, and what its sets are a set of. -/
structure NftTable where
  chains : Bytes → Option NftChain
  sets : Bytes → Option String

/-- The tables of the family netdev. -/
abbrev NftRuleset := Bytes → Option NftTable

inductive NftTableCmd
  | flush
  | addChain (chain : Bytes) (hook : NftHook) (device : Bytes)
  | deleteChain (chain : Bytes)
  | addSet (set : Bytes) (type : String)
  | addRule (chain : Bytes) (rule : String)
  deriving DecidableEq

inductive NftCmd
  | addTable (table : Bytes)
  | deleteTable (table : Bytes)
  | inTable (table : Bytes) (cmd : NftTableCmd)
  deriving DecidableEq

/-- To add what is there already is no error, as long as it is the same. -/
def NftTable.exec (t : NftTable) : NftTableCmd → Option NftTable
  | .flush => some { t with chains := fun c => (t.chains c).map fun ch => { ch with rules := [] } }
  | .addChain c hook device =>
    match t.chains c with
    | none => some { t with chains := Function.update t.chains c (some ⟨hook, device, []⟩) }
    | some ch => if ch.hook = hook ∧ ch.device = device then some t else none
  | .deleteChain c =>
    if (t.chains c).isSome then some { t with chains := Function.update t.chains c none } else none
  | .addSet s type =>
    match t.sets s with
    | none => some { t with sets := Function.update t.sets s (some type) }
    | some type' => if type' = type then some t else none
  | .addRule c rule =>
    (t.chains c).map fun ch =>
      { t with chains := Function.update t.chains c (some { ch with rules := ch.rules ++ [rule] }) }

def NftTable.empty : NftTable where
  chains _ := none
  sets _ := none

def NftRuleset.exec (nft : NftRuleset) : NftCmd → Option NftRuleset
  | .addTable n => some (Function.update nft n (some ((nft n).getD .empty)))
  | .deleteTable n => if (nft n).isSome then some (Function.update nft n none) else none
  | .inTable n cmd =>
    (nft n).bind fun t => (t.exec cmd).map fun t' => Function.update nft n (some t')

def NftRuleset.run (nft : NftRuleset) (stdin : List NftCmd) : Option NftRuleset :=
  stdin.foldlM NftRuleset.exec nft

/-! ## Names -/

def ifnamsiz : ℕ := 16

def nftIfnameFirst (b : UInt8) : Bool := isAlpha b ∨ b = '_' ∨ b = '.'

def nftIfnameValid (s : Bytes) : Bool :=
  s.head?.any nftIfnameFirst &&
    s.all (fun b => nftIfnameFirst b || isDigit b || b = '/' || b = '-') && s.length < ifnamsiz

def sanitizedChar (b : UInt8) : Bytes :=
  if isAlpha b ∨ isDigit b then [b]
  else ['_', hexchar (b >>> (4 : UInt8)) false, hexchar b false]

def setSanitized (start s : Bytes) : Bytes := start ++ s.flatMap sanitizedChar

def mlagTableName (bondIfname : Bytes) : Bytes := setSanitized (ascii "nm-mlag-") bondIfname

def rxDropBcMc (member : Bytes) : Bytes := setSanitized (ascii "rx-drop-bc-mc-") member

def txSnoopSourceMac : Bytes := ascii "tx-snoop-source-mac"

def rxDropLoopedPackets : Bytes := ascii "rx-drop-looped-packets"

def macsetTagged : Bytes := ascii "macset-tagged"

def macsetUntagged : Bytes := ascii "macset-untagged"

/-! ## The input for nft -/

def appendCmdTable (table : Bytes) (up : Bool) : List NftCmd :=
  [.addTable table, if up then .inTable table .flush else .deleteTable table]

def dropMemberCmds (member : Bytes) : List NftTableCmd :=
  if nftIfnameValid member then
    [.addChain (rxDropBcMc member) .ingress member, .deleteChain (rxDropBcMc member)]
  else []

def dropBcMcRule (counter : String) : String :=
  "pkttype \x7b broadcast, multicast \x7d" ++ counter ++ " drop"

def addMemberCmds (counter : String) (member : Bytes) : List NftTableCmd :=
  if nftIfnameValid member then
    [.addChain (rxDropBcMc member) .ingress member,
      .addRule (rxDropBcMc member) (dropBcMcRule counter)]
  else []

def activeMembersCmds (counter : String) : List Bytes → List NftTableCmd
  | [] => []
  | primary :: others => dropMemberCmds primary ++ others.flatMap (addMemberCmds counter)

def taggedType : String := "ether saddr . vlan id"

def untaggedType : String := "ether saddr"

def txSnoopRules (counter : String) : List String :=
  ["set update ether saddr . vlan id timeout 5s @macset-tagged" ++ counter ++ " return",
    "set update ether saddr timeout 5s @macset-untagged" ++ counter]

def rxDropRules (counter : String) : List String :=
  ["ether saddr . vlan id @macset-tagged" ++ counter ++ " drop",
    "ether type vlan" ++ counter ++ " return",
    "ether saddr @macset-untagged" ++ counter ++ " drop"]

def learnedMacsCmds (counter : String) (bondIfname : Bytes) : List NftTableCmd :=
  [.addSet macsetTagged taggedType, .addSet macsetUntagged untaggedType,
    .addChain txSnoopSourceMac .egress bondIfname] ++
    (txSnoopRules counter).map (.addRule txSnoopSourceMac) ++
    [.addChain rxDropLoopedPackets .ingress bondIfname] ++
    (rxDropRules counter).map (.addRule rxDropLoopedPackets)

def counterText (withCounters : Bool) : String := if withCounters then " counter" else ""

def nftStdioMlag (up : Bool) (bondIfname : Bytes)
    (bondIfnamesDown activeMembers previousMembers : List Bytes) (withCounters : Bool) :
    List NftCmd :=
  (bondIfnamesDown.filter (· ≠ bondIfname)).flatMap
      (fun down => appendCmdTable (mlagTableName down) false) ++
    appendCmdTable (mlagTableName bondIfname) up ++
    if up ∧ nftIfnameValid bondIfname then
      (previousMembers.flatMap dropMemberCmds ++
        activeMembersCmds (counterText withCounters) activeMembers ++
        learnedMacsCmds (counterText withCounters) bondIfname).map
          (.inTable (mlagTableName bondIfname))
    else []

/-! ## Names are told apart -/

theorem sanitizedChar_ne_nil (b : UInt8) : sanitizedChar b ≠ [] := by
  unfold sanitizedChar
  split_ifs <;> exact cons_ne_nil _ _

theorem sanitizedChar_append_inj (a b : UInt8) (r r' : Bytes)
    (h : sanitizedChar a ++ r = sanitizedChar b ++ r') : a = b ∧ r = r' := by
  have hescape : ∀ c, isAlpha c ∨ isDigit c → c ≠ '_' := by decide
  unfold sanitizedChar at h
  split_ifs at h with ha hb hb
  · simpa using h
  · exact absurd (List.cons.inj h).1 (hescape a ha)
  · exact absurd (List.cons.inj h).1.symm (hescape b hb)
  · simp only [cons_append, nil_append, List.cons.injEq, true_and] at h
    obtain ⟨hhigh, hlow, hrest⟩ := h
    have hab := xdigitValue_hexchar a false
    rw [hhigh, hlow, xdigitValue_hexchar b] at hab
    exact ⟨hab.symm, hrest⟩

theorem setSanitized_injective (start : Bytes) : Function.Injective (setSanitized start) := by
  intro s t h
  have hflat := append_cancel_left h
  exact flatMap_injective sanitizedChar_ne_nil sanitizedChar_append_inj hflat

theorem mlagTableName_injective : Function.Injective mlagTableName := setSanitized_injective _

theorem rxDropBcMc_injective : Function.Injective rxDropBcMc := setSanitized_injective _

theorem take_rxDropBcMc (member : Bytes) : (rxDropBcMc member).take 9 = ascii "rx-drop-b" := by
  rw [rxDropBcMc, setSanitized, take_append_of_le_length (by decide)]
  decide

theorem rxDropBcMc_ne_tx (member : Bytes) : rxDropBcMc member ≠ txSnoopSourceMac := by
  intro h
  have htake := take_rxDropBcMc member
  rw [h] at htake
  exact absurd htake (by decide)

theorem rxDropBcMc_ne_rx (member : Bytes) : rxDropBcMc member ≠ rxDropLoopedPackets := by
  intro h
  have htake := take_rxDropBcMc member
  rw [h] at htake
  exact absurd htake (by decide)

theorem tx_ne_rx : txSnoopSourceMac ≠ rxDropLoopedPackets := by decide

/-! ## What shall be configured -/

/-- The table of a bond. A name that cannot be written in the input gets an empty one. -/
def mlagTable (bondIfname : Bytes) (activeMembers : List Bytes) (withCounters : Bool) : NftTable :=
  if nftIfnameValid bondIfname then
    { chains := fun c =>
        if c = txSnoopSourceMac then
          some ⟨.egress, bondIfname, txSnoopRules (counterText withCounters)⟩
        else if c = rxDropLoopedPackets then
          some ⟨.ingress, bondIfname, rxDropRules (counterText withCounters)⟩
        else (activeMembers.tail.find? fun m => nftIfnameValid m ∧ rxDropBcMc m = c).map fun m =>
          ⟨.ingress, m, [dropBcMcRule (counterText withCounters)]⟩
      sets := fun s =>
        if s = macsetTagged then some taggedType
        else if s = macsetUntagged then some untaggedType else none }
  else .empty

/-! ## Commands in one table -/

theorem NftRuleset.run_append (nft : NftRuleset) (a b : List NftCmd) :
    nft.run (a ++ b) = (nft.run a).bind fun nft' => nft'.run b := foldlM_append

theorem NftRuleset.run_inTable {nft : NftRuleset} {n : Bytes} {t : NftTable}
    (ht : nft n = some t) (cmds : List NftTableCmd) :
    nft.run (cmds.map (.inTable n)) =
      (cmds.foldlM NftTable.exec t).map fun t' => Function.update nft n (some t') := by
  induction cmds generalizing nft t with
  | nil =>
    have hsame : Function.update nft n (some t) = nft := by rw [← ht, Function.update_eq_self]
    exact congrArg some hsame.symm
  | cons cmd cmds ih =>
    have hexec : nft.exec (.inTable n cmd) =
        (t.exec cmd).map fun t' => Function.update nft n (some t') := by
      rw [NftRuleset.exec, ht, Option.bind_some]
    rw [map_cons, NftRuleset.run, foldlM_cons, foldlM_cons, hexec]
    cases t.exec cmd with
    | none => rfl
    | some t' =>
      have htail := @ih (Function.update nft n (some t')) t' (by simp)
      simp only [Function.update_idem] at htail
      exact htail

theorem NftRuleset.run_delete (nft : NftRuleset) (n : Bytes) :
    nft.run (appendCmdTable n false) = some (Function.update nft n none) := by
  simp [NftRuleset.run, appendCmdTable, NftRuleset.exec]

theorem NftRuleset.run_flush (nft : NftRuleset) (n : Bytes) :
    ∃ t, ((nft n).getD .empty).exec .flush = some t ∧
      nft.run (appendCmdTable n true) = some (Function.update nft n (some t)) := by
  refine ⟨_, rfl, ?_⟩
  simp [NftRuleset.run, appendCmdTable, NftRuleset.exec, NftTable.exec]

theorem NftRuleset.run_deleteAll (nft : NftRuleset) (names : List Bytes) :
    nft.run (names.flatMap fun n => appendCmdTable n false) =
      some fun n => if n ∈ names then none else nft n := by
  induction names generalizing nft with
  | nil => rfl
  | cons n names ih =>
    rw [flatMap_cons, NftRuleset.run_append, NftRuleset.run_delete, Option.bind_some, ih]
    congr 1
    funext m
    by_cases hmem : m ∈ names
    · simp [hmem]
    · by_cases hn : m = n <;> simp [hn, hmem]

/-- The chains of a table that commands for this bond and these members can have left. -/
def NftTable.ChainKnown (bondIfname : Bytes) (members : Bytes → Prop) (c : Bytes) (ch : NftChain) :
    Prop :=
  (c = txSnoopSourceMac ∧ ch.hook = .egress ∧ ch.device = bondIfname) ∨
  (c = rxDropLoopedPackets ∧ ch.hook = .ingress ∧ ch.device = bondIfname) ∨
  ∃ m, members m ∧ nftIfnameValid m ∧ c = rxDropBcMc m ∧ ch.hook = .ingress ∧ ch.device = m

/-- What commands for this bond and these members can have left of its table. -/
structure NftTable.Known (bondIfname : Bytes) (members : Bytes → Prop) (t : NftTable) : Prop where
  chains : ∀ c ch, t.chains c = some ch → ChainKnown bondIfname members c ch
  sets : ∀ s type, t.sets s = some type →
    (s = macsetTagged ∧ type = taggedType) ∨ (s = macsetUntagged ∧ type = untaggedType)
  valid : ¬ nftIfnameValid bondIfname → t = .empty

/-- Such a table with no rules in it. -/
structure NftTable.Flushed (bondIfname : Bytes) (members : Bytes → Prop) (t : NftTable) : Prop
    extends t.Known bondIfname members where
  rules : ∀ c ch, t.chains c = some ch → ch.rules = []

namespace NftTable

variable {bondIfname : Bytes} {members : Bytes → Prop} {t : NftTable}

theorem known_empty : NftTable.empty.Known bondIfname members :=
  ⟨fun _ _ h => (by cases h), fun _ _ h => (by cases h), fun _ => rfl⟩

theorem Known.mono {members' : Bytes → Prop} (h : t.Known bondIfname members)
    (hsub : ∀ m, members m → members' m) : t.Known bondIfname members' := by
  refine ⟨fun c ch hc => ?_, h.sets, h.valid⟩
  rcases h.chains c ch hc with htx | hrx | ⟨m, hm, hmember⟩
  · exact .inl htx
  · exact .inr (.inl hrx)
  · exact .inr (.inr ⟨m, hsub m hm, hmember⟩)

theorem Known.flush (h : t.Known bondIfname members) :
    ∃ t', t.exec .flush = some t' ∧ t'.Flushed bondIfname members := by
  refine ⟨_, rfl, ⟨fun c ch hc => ?_, h.sets, fun hvalid => ?_⟩, fun c ch hc => ?_⟩
  · obtain ⟨ch', hc', rfl⟩ := Option.map_eq_some_iff.mp hc
    exact h.chains c ch' hc'
  · rw [h.valid hvalid]
    rfl
  · obtain ⟨ch', -, rfl⟩ := Option.map_eq_some_iff.mp hc
    rfl

variable {chains : Bytes → Option NftChain} {sets : Bytes → Option String}

theorem exec_addChain {c : Bytes} {hook : NftHook} {device : Bytes}
    (h : ∀ ch ∈ chains c, ch = ⟨hook, device, []⟩) :
    exec ⟨chains, sets⟩ (.addChain c hook device) =
      some ⟨Function.update chains c (some ⟨hook, device, []⟩), sets⟩ := by
  cases hc : chains c with
  | none => simp only [exec, hc]
  | some ch =>
    obtain rfl := h ch hc
    have hsame : Function.update chains c (some ⟨hook, device, []⟩) = chains := by
      rw [← hc, Function.update_eq_self]
    simp only [exec, hc, and_self, if_true, hsame]

theorem exec_addSet {s : Bytes} {type : String} (h : ∀ type' ∈ sets s, type' = type) :
    exec ⟨chains, sets⟩ (.addSet s type) =
      some ⟨chains, Function.update sets s (some type)⟩ := by
  cases hs : sets s with
  | none => simp only [exec, hs]
  | some type' =>
    obtain rfl := h type' hs
    have hsame : Function.update sets s (some type') = sets := by rw [← hs, Function.update_eq_self]
    simp only [exec, hs, if_true, hsame]

theorem exec_addRules {c : Bytes} {ch : NftChain} (hc : chains c = some ch)
    (rules : List String) :
    (rules.map (.addRule c)).foldlM exec ⟨chains, sets⟩ =
      some ⟨Function.update chains c (some { ch with rules := ch.rules ++ rules }), sets⟩ := by
  induction rules generalizing chains ch with
  | nil => simp [← hc]
  | cons rule rules ih =>
    have hexec : exec ⟨chains, sets⟩ (.addRule c rule) =
        some ⟨Function.update chains c (some { ch with rules := ch.rules ++ [rule] }), sets⟩ := by
      simp [exec, hc]
    rw [map_cons, foldlM_cons, hexec, Option.bind_eq_bind, Option.bind_some,
      ih (Function.update_self ..)]
    simp

theorem Flushed.member_eq (h : t.Flushed bondIfname members) {m : Bytes} :
    ∀ ch ∈ t.chains (rxDropBcMc m), ch = ⟨.ingress, m, []⟩ := by
  intro ch hc
  have hrules := h.rules _ ch hc
  rcases h.chains _ ch hc with ⟨htx, -⟩ | ⟨hrx, -⟩ | ⟨m', -, -, hm, hhook, hdevice⟩
  · exact absurd htx (rxDropBcMc_ne_tx m)
  · exact absurd hrx (rxDropBcMc_ne_rx m)
  · obtain rfl := rxDropBcMc_injective hm
    cases ch
    simp_all

theorem Flushed.dropMember (h : t.Flushed bondIfname members)
    (hvalid : nftIfnameValid bondIfname) (m : Bytes) :
    ∃ t', (dropMemberCmds m).foldlM exec t = some t' ∧
      t'.Flushed bondIfname fun x => members x ∧ x ≠ m := by
  by_cases hm : nftIfnameValid m
  · refine ⟨{ t with chains := Function.update t.chains (rxDropBcMc m) none }, ?_, ?_⟩
    · simp only [dropMemberCmds, hm, if_true, foldlM_cons, foldlM_nil,
        exec_addChain h.member_eq]
      simp [exec]
    · have hold {c ch} (hc : Function.update t.chains (rxDropBcMc m) none c = some ch) :
          c ≠ rxDropBcMc m ∧ t.chains c = some ch := by
        by_cases hcm : c = rxDropBcMc m
        · simp [hcm] at hc
        · exact ⟨hcm, by rwa [Function.update_of_ne hcm] at hc⟩
      refine ⟨⟨fun c ch hc => ?_, h.sets, fun hno => absurd hvalid hno⟩, fun c ch hc =>
        h.rules c ch (hold hc).2⟩
      obtain ⟨hne, hc⟩ := hold hc
      rcases h.chains c ch hc with htx | hrx | ⟨x, hx, hmember⟩
      · exact .inl htx
      · exact .inr (.inl hrx)
      · refine .inr (.inr ⟨x, ⟨hx, fun hxm => hne ?_⟩, hmember⟩)
        rw [hmember.2.1, hxm]
  · refine ⟨t, by simp [dropMemberCmds, hm], ⟨fun c ch hc => ?_, h.sets, h.valid⟩, h.rules⟩
    rcases h.chains c ch hc with htx | hrx | ⟨x, hx, hmember⟩
    · exact .inl htx
    · exact .inr (.inl hrx)
    · refine .inr (.inr ⟨x, ⟨hx, fun hxm => hm ?_⟩, hmember⟩)
      rw [← hxm]
      exact hmember.1

theorem Flushed.dropMembers (h : t.Flushed bondIfname members)
    (hvalid : nftIfnameValid bondIfname) (previous : List Bytes) :
    ∃ t', (previous.flatMap dropMemberCmds).foldlM exec t = some t' ∧
      t'.Flushed bondIfname fun x => members x ∧ x ∉ previous := by
  induction previous generalizing t members with
  | nil => exact ⟨t, rfl, by simpa using h⟩
  | cons m previous ih =>
    obtain ⟨t₁, hdrop, h₁⟩ := h.dropMember hvalid m
    obtain ⟨t₂, hrest, h₂⟩ := ih h₁
    refine ⟨t₂, ?_, by simpa [and_assoc] using h₂⟩
    rw [flatMap_cons, foldlM_append, hdrop]
    exact hrest

/-- Each member that is not the first one gets its chain with the rule. -/
theorem exec_addMembers {counter : String} {others : List Bytes} (hnodup : others.Nodup)
    (h : ∀ m ∈ others, ∀ ch ∈ t.chains (rxDropBcMc m), ch = ⟨.ingress, m, []⟩) :
    (others.flatMap (addMemberCmds counter)).foldlM exec t = some { t with
      chains := fun c =>
        ((others.find? fun m => nftIfnameValid m ∧ rxDropBcMc m = c).map fun m =>
          ⟨.ingress, m, [dropBcMcRule counter]⟩).or (t.chains c) } := by
  induction others generalizing t with
  | nil => rfl
  | cons m others ih =>
    rw [nodup_cons] at hnodup
    rw [forall_mem_cons] at h
    rw [flatMap_cons, foldlM_append]
    by_cases hm : nftIfnameValid m
    · have hexec : (addMemberCmds counter m).foldlM exec t = some { t with
          chains := Function.update t.chains (rxDropBcMc m)
            (some ⟨.ingress, m, [dropBcMcRule counter]⟩) } := by
        simp only [addMemberCmds, hm, if_true, foldlM_cons, foldlM_nil,
          exec_addChain h.1]
        simp [exec]
      have hne {x : Bytes} (hx : x ∈ others) : rxDropBcMc x ≠ rxDropBcMc m := fun heq =>
        hnodup.1 (rxDropBcMc_injective heq ▸ hx)
      rw [hexec, Option.bind_eq_bind, Option.bind_some, ih hnodup.2 fun x hx => by
        simpa only [Function.update_of_ne (hne hx)] using h.2 x hx]
      congr 2
      funext c
      by_cases hc : rxDropBcMc m = c
      · have hnone : others.find? (fun x => nftIfnameValid x ∧ rxDropBcMc x = c) = none := by
          rw [List.find?_eq_none]
          intro x hx
          simp only [← hc, hne hx, and_false, decide_false, Bool.false_eq_true, not_false_eq_true]
        have hsome : (m :: others).find? (fun x => nftIfnameValid x ∧ rxDropBcMc x = c) =
            some m := List.find?_cons_of_pos (by simp [hm, hc])
        simp only [hnone, hsome, Option.map_none, Option.none_or, Option.map_some, Option.some_or]
        rw [← hc, Function.update_self]
      · have hskip : (m :: others).find? (fun x => nftIfnameValid x ∧ rxDropBcMc x = c) =
            others.find? (fun x => nftIfnameValid x ∧ rxDropBcMc x = c) :=
          List.find?_cons_of_neg (by simp [hc])
        simp only [hskip, Function.update_of_ne (Ne.symm hc)]
    · have hskip (c : Bytes) :
          (m :: others).find? (fun x => nftIfnameValid x ∧ rxDropBcMc x = c) =
            others.find? (fun x => nftIfnameValid x ∧ rxDropBcMc x = c) :=
        List.find?_cons_of_neg (by simp [hm])
      have hexec : (addMemberCmds counter m).foldlM exec t = some t := by
        simp [addMemberCmds, hm]
      rw [hexec, Option.bind_eq_bind, Option.bind_some, ih hnodup.2 h.2]
      simp only [hskip]

/-- The sets, and the chains that work on the addresses in them. -/
theorem exec_learnedMacs {counter : String}
    (hsets : ∀ s type, sets s = some type →
      (s = macsetTagged ∧ type = taggedType) ∨ (s = macsetUntagged ∧ type = untaggedType))
    (htx : ∀ ch ∈ chains txSnoopSourceMac, ch = ⟨.egress, bondIfname, []⟩)
    (hrx : ∀ ch ∈ chains rxDropLoopedPackets, ch = ⟨.ingress, bondIfname, []⟩) :
    (learnedMacsCmds counter bondIfname).foldlM exec ⟨chains, sets⟩ = some {
      chains := fun c =>
        if c = txSnoopSourceMac then some ⟨.egress, bondIfname, txSnoopRules counter⟩
        else if c = rxDropLoopedPackets then some ⟨.ingress, bondIfname, rxDropRules counter⟩
        else chains c
      sets := fun s =>
        if s = macsetTagged then some taggedType
        else if s = macsetUntagged then some untaggedType else none } := by
  have hother : macsetUntagged ≠ macsetTagged := by decide
  have htagged : ∀ type ∈ sets macsetTagged, type = taggedType := by
    intro type h
    rcases hsets _ _ h with ⟨-, htype⟩ | ⟨hs, -⟩
    · exact htype
    · exact absurd hs.symm hother
  have huntagged : ∀ type ∈ sets macsetUntagged, type = untaggedType := by
    intro type h
    rcases hsets _ _ h with ⟨hs, -⟩ | ⟨-, htype⟩
    · exact absurd hs hother
    · exact htype
  have hrest {s : Bytes} (h₁ : s ≠ macsetTagged) (h₂ : s ≠ macsetUntagged) : sets s = none := by
    rw [Option.eq_none_iff_forall_ne_some]
    intro type h
    rcases hsets _ _ h with ⟨hs, -⟩ | ⟨hs, -⟩
    · exact h₁ hs
    · exact h₂ hs
  rw [← Function.update_of_ne hother (some taggedType) sets] at huntagged
  rw [← Function.update_of_ne tx_ne_rx.symm (some ⟨.egress, bondIfname, txSnoopRules counter⟩)
    chains] at hrx
  rw [learnedMacsCmds, foldlM_append, foldlM_append, foldlM_append]
  simp only [foldlM_cons, foldlM_nil, Option.bind_eq_bind, Option.pure_def,
    exec_addSet htagged, exec_addSet huntagged, exec_addChain htx, Option.bind_some,
    exec_addRules (Function.update_self ..), Function.update_idem, nil_append,
    exec_addChain hrx]
  congr 2
  · funext c
    by_cases h₁ : c = txSnoopSourceMac
    · simp [h₁, tx_ne_rx]
    · by_cases h₂ : c = rxDropLoopedPackets
      · simp [h₂, tx_ne_rx.symm]
      · simp [h₁, h₂]
  · funext s
    by_cases h₁ : s = macsetTagged
    · simp [h₁, hother.symm]
    · by_cases h₂ : s = macsetUntagged
      · simp [h₂, hother]
      · simp [h₁, h₂, hrest h₁ h₂]

/-- Whatever was known of the table before, it ends up as the table of the bond. -/
theorem Flushed.up {previous active : List Bytes} {counters : Bool}
    (h : t.Flushed bondIfname fun m => m ∈ previous ∨ m ∈ active)
    (hvalid : nftIfnameValid bondIfname) (hnodup : active.Nodup) :
    (previous.flatMap dropMemberCmds ++ activeMembersCmds (counterText counters) active ++
      learnedMacsCmds (counterText counters) bondIfname).foldlM exec t =
        some (mlagTable bondIfname active counters) := by
  obtain ⟨t₁, hdrop, h₁⟩ := h.dropMembers hvalid previous
  have hprimary : ∃ t₂, t₂.Flushed bondIfname (· ∈ active.tail) ∧
      (activeMembersCmds (counterText counters) active).foldlM exec t₁ =
        (active.tail.flatMap (addMemberCmds (counterText counters))).foldlM exec t₂ := by
    cases active with
    | nil =>
      exact ⟨t₁, ⟨h₁.toKnown.mono fun m hm => by simp_all, h₁.rules⟩, rfl⟩
    | cons primary others =>
      obtain ⟨t₂, hexec, h₂⟩ := h₁.dropMember hvalid primary
      refine ⟨t₂, ⟨h₂.toKnown.mono fun m hm => ?_, h₂.rules⟩, ?_⟩
      · simp only [mem_cons, tail_cons] at hm ⊢
        tauto
      · rw [activeMembersCmds, foldlM_append, hexec]
        rfl
  obtain ⟨t₂, h₂, hactive⟩ := hprimary
  have hfixed {hook : NftHook} {c : Bytes} {ch : NftChain}
      (hknown : ch.hook = hook ∧ ch.device = bondIfname) (hc : t₂.chains c = some ch) :
      ch = ⟨hook, bondIfname, []⟩ := by
    have hrules := h₂.rules c ch hc
    cases ch
    simp_all
  have hmember {c : Bytes} (hc : ∀ m, rxDropBcMc m ≠ c) :
      active.tail.find? (fun m => nftIfnameValid m ∧ rxDropBcMc m = c) = none := by
    rw [List.find?_eq_none]
    intro m _
    simp [hc m]
  rw [foldlM_append, foldlM_append, hdrop, Option.bind_eq_bind, Option.bind_some,
    hactive, exec_addMembers (hnodup.sublist (tail_sublist _)) fun m _ => h₂.member_eq,
    Option.bind_some, exec_learnedMacs h₂.sets]
  · rw [mlagTable, if_pos hvalid]
    congr 2
    funext c
    by_cases htx : c = txSnoopSourceMac
    · rw [if_pos htx, if_pos htx]
    by_cases hrx : c = rxDropLoopedPackets
    · rw [if_neg htx, if_neg htx, if_pos hrx, if_pos hrx]
    rw [if_neg htx, if_neg htx, if_neg hrx, if_neg hrx]
    cases hc : t₂.chains c with
    | none => rw [Option.or_none]
    | some ch =>
      rcases h₂.chains c ch hc with ⟨hctx, -⟩ | ⟨hcrx, -⟩ | ⟨m, hm, hmvalid, hcm, -⟩
      · exact absurd hctx htx
      · exact absurd hcrx hrx
      · refine Option.or_of_isSome ?_
        rw [Option.isSome_map, List.find?_isSome]
        exact ⟨m, hm, by simp [hmvalid, hcm]⟩
  · simp only [hmember rxDropBcMc_ne_tx, Option.map_none, Option.none_or]
    intro ch hc
    rcases h₂.chains _ ch hc with htx | ⟨hrx, -⟩ | ⟨m, -, -, hm, -⟩
    · exact hfixed htx.2 hc
    · exact absurd hrx tx_ne_rx
    · exact absurd hm.symm (rxDropBcMc_ne_tx m)
  · simp only [hmember rxDropBcMc_ne_rx, Option.map_none, Option.none_or]
    intro ch hc
    rcases h₂.chains _ ch hc with ⟨htx, -⟩ | hrx | ⟨m, -, -, hm, -⟩
    · exact absurd htx.symm tx_ne_rx
    · exact hfixed hrx.2 hc
    · exact absurd hm.symm (rxDropBcMc_ne_rx m)

end NftTable

/-! ## The whole input -/

def downTables (bondIfname : Bytes) (bondIfnamesDown : List Bytes) : List Bytes :=
  (bondIfnamesDown.filter (· ≠ bondIfname)).map mlagTableName

variable {nft : NftRuleset} {bondIfname : Bytes} {bondIfnamesDown active previous : List Bytes}
  {counters : Bool}

theorem mlagTableName_notMem_downTables :
    mlagTableName bondIfname ∉ downTables bondIfname bondIfnamesDown := by
  intro h
  obtain ⟨d, hd, hname⟩ := mem_map.mp h
  have hne := (mem_filter.mp hd).2
  simp [mlagTableName_injective hname] at hne

theorem run_downTables :
    nft.run ((bondIfnamesDown.filter (· ≠ bondIfname)).flatMap fun down =>
      appendCmdTable (mlagTableName down) false) =
        some fun n => if n ∈ downTables bondIfname bondIfnamesDown then none else nft n := by
  rw [downTables, ← NftRuleset.run_deleteAll, flatMap_map]

theorem run_nftStdioMlag_down :
    nft.run (nftStdioMlag false bondIfname [] active previous counters) =
      some (Function.update nft (mlagTableName bondIfname) none) := by
  simp only [nftStdioMlag, filter_nil, flatMap_nil, nil_append,
    Bool.false_eq_true, false_and, if_false, append_nil, NftRuleset.run_delete]

section

variable
  (hknown : ∀ t, nft (mlagTableName bondIfname) = some t → t.Known bondIfname fun m => m ∈ previous ∨ m ∈ active)
  (hnodup : active.Nodup)

include hknown hnodup

theorem run_upTable :
    nft.run (nftStdioMlag true bondIfname [] active previous counters) =
      some (Function.update nft (mlagTableName bondIfname)
        (some (mlagTable bondIfname active counters))) := by
  have hself : NftTable.Known bondIfname (fun m => m ∈ previous ∨ m ∈ active)
      ((nft (mlagTableName bondIfname)).getD .empty) := by
    cases ht : nft (mlagTableName bondIfname) with
    | none => exact NftTable.known_empty
    | some t => exact hknown t ht
  obtain ⟨t, hflush, hrun⟩ := nft.run_flush (mlagTableName bondIfname)
  obtain ⟨t', hflush', hflushed⟩ := hself.flush
  obtain rfl : t = t' := Option.some.inj (hflush.symm.trans hflush')
  rw [nftStdioMlag, filter_nil, flatMap_nil, nil_append, NftRuleset.run_append,
    hrun, Option.bind_some]
  by_cases hvalid : nftIfnameValid bondIfname
  · rw [if_pos ⟨rfl, hvalid⟩, NftRuleset.run_inTable (Function.update_self ..),
      hflushed.up hvalid hnodup, Option.map_some, Function.update_idem]
  · rw [if_neg fun h => hvalid h.2, hflushed.valid hvalid, mlagTable, if_neg hvalid]
    rfl

theorem run_nftStdioMlag_up :
    nft.run (nftStdioMlag true bondIfname bondIfnamesDown active previous counters) =
      some fun n =>
        if n = mlagTableName bondIfname then some (mlagTable bondIfname active counters)
        else if n ∈ downTables bondIfname bondIfnamesDown then none else nft n := by
  have hsplit : nftStdioMlag true bondIfname bondIfnamesDown active previous counters =
      ((bondIfnamesDown.filter (· ≠ bondIfname)).flatMap fun down =>
        appendCmdTable (mlagTableName down) false) ++
        nftStdioMlag true bondIfname [] active previous counters := by
    simp only [nftStdioMlag, filter_nil, flatMap_nil, nil_append, append_assoc]
  rw [hsplit, NftRuleset.run_append, run_downTables, Option.bind_some, run_upTable ?_ hnodup]
  · congr 1
    funext n
    rw [Function.update_apply]
  · simp only [if_neg mlagTableName_notMem_downTables]
    exact hknown

end

theorem mlagTable_known {members : Bytes → Prop} (hmembers : ∀ m ∈ active, members m) :
    (mlagTable bondIfname active counters).Known bondIfname members := by
  by_cases hvalid : nftIfnameValid bondIfname
  · rw [mlagTable, if_pos hvalid]
    refine ⟨fun c ch hc => ?_, fun s type hs => ?_, fun hno => absurd hvalid hno⟩
    · dsimp only at hc
      split_ifs at hc with htx hrx
      · obtain rfl := Option.some.inj hc
        exact .inl ⟨htx, rfl, rfl⟩
      · obtain rfl := Option.some.inj hc
        exact .inr (.inl ⟨hrx, rfl, rfl⟩)
      · obtain ⟨m, hfind, rfl⟩ := Option.map_eq_some_iff.mp hc
        have hm := mem_of_mem_tail (mem_of_find?_eq_some hfind)
        have hfound := List.find?_some hfind
        simp only [decide_eq_true_eq] at hfound
        exact .inr (.inr ⟨m, hmembers m hm, hfound.1, hfound.2.symm, rfl, rfl⟩)
    · dsimp only at hs
      split_ifs at hs with htagged huntagged
      · exact .inl ⟨htagged, (Option.some.inj hs).symm⟩
      · exact .inr ⟨huntagged, (Option.some.inj hs).symm⟩
  · rw [mlagTable, if_neg hvalid]
    exact NftTable.known_empty

end NetworkManager.Core
