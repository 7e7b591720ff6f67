import NetworkManager.GlibAux.Hwaddr
import NetworkManager.GlibAux.AsciiStrToUint64
import NetworkManager.Lib.Checks
import NetworkManager.Settings.RoutingRule
import Mathlib.Data.List.Sort

/-!
# Options of a bond

The options of a bond setting are a table of texts. `verify()` checks every entry and how they go
together, and the normalized value of an option is what is applied to the bond: it depends on the
mode and on other options.
-/

namespace NetworkManager.Settings

open Lib GlibAux List

/-! ## The options -/

inductive BondOptionType where
  | int | ip | ip6 | mac | ifname | both
deriving DecidableEq

structure OptionMeta where
  val : Option Bytes
  optType : BondOptionType
  min : ℕ := 0
  max : ℕ := 0
  list : List Bytes := []

def gMaxint : ℕ := 2147483647

/-- A meta data entry of type `NM_BOND_OPTION_TYPE_INT` -/
def intMeta (val : String) (min max : ℕ) : OptionMeta :=
  { val := some (ascii val), optType := .int, min := min, max := max }

/-- A meta data entry of type `NM_BOND_OPTION_TYPE_BOTH`; the range is that of the list. -/
def bothMeta (val : String) (list : List String) : OptionMeta :=
  { val := some (ascii val), optType := .both, max := list.length - 1, list := list.map ascii }

/-- The table of `_get_option_meta()` -/
def optionMetaTable : List (String × OptionMeta) :=
  [("active_slave", { val := none, optType := .ifname }),
    ("ad_actor_sys_prio", intMeta "65535" 1 65535),
    ("ad_actor_system", { val := none, optType := .mac }),
    ("ad_select", bothMeta "stable" ["stable", "bandwidth", "count"]),
    ("ad_user_port_key", intMeta "0" 0 1023),
    ("all_slaves_active", intMeta "0" 0 1),
    ("arp_all_targets", bothMeta "any" ["any", "all"]),
    ("arp_interval", intMeta "0" 0 gMaxint),
    ("arp_ip_target", { val := some [], optType := .ip }),
    ("arp_missed_max", intMeta "0" 0 255),
    ("arp_validate", bothMeta "none"
      ["none", "active", "backup", "all", "filter", "filter_active", "filter_backup"]),
    ("balance-slb", intMeta "0" 0 1),
    ("downdelay", intMeta "0" 0 gMaxint),
    ("fail_over_mac", bothMeta "none" ["none", "active", "follow"]),
    ("lacp_active", bothMeta "on" ["off", "on"]),
    ("lacp_rate", bothMeta "slow" ["slow", "fast"]),
    ("lp_interval", intMeta "1" 1 gMaxint),
    ("miimon", intMeta "100" 0 gMaxint),
    ("min_links", intMeta "0" 0 gMaxint),
    ("mode", bothMeta "balance-rr"
      ["balance-rr", "active-backup", "balance-xor", "broadcast", "802.3ad", "balance-tlb",
        "balance-alb"]),
    ("ns_ip6_target", { val := some [], optType := .ip6 }),
    ("num_grat_arp", intMeta "1" 0 255),
    ("num_unsol_na", intMeta "1" 0 255),
    ("packets_per_slave", intMeta "1" 0 65535),
    ("peer_notif_delay", intMeta "0" 0 gMaxint),
    ("primary", { val := some [], optType := .ifname }),
    ("primary_reselect", bothMeta "always" ["always", "better", "failure"]),
    ("resend_igmp", intMeta "1" 0 255),
    ("tlb_dynamic_lb", intMeta "1" 0 1),
    ("updelay", intMeta "0" 0 gMaxint),
    ("use_carrier", intMeta "1" 0 1),
    ("xmit_hash_policy", bothMeta "layer2"
      ["layer2", "layer3+4", "layer2+3", "encap2+3", "encap3+4", "vlan+srcmac"])]

def getOptionMeta (name : String) : Option OptionMeta := optionMetaTable.lookup name

/-- `NMBondMode`, in the numbering of the kernel -/
inductive BondMode where
  | roundRobin | activeBackup | xor | broadcast | ad | tlb | alb
deriving DecidableEq

/-- `_nm_setting_bond_mode_from_string()`, without a value for `NM_BOND_MODE_UNKNOWN` -/
def bondModeFromString (name : Bytes) : Option BondMode :=
  match name with
  | [c] =>
    if 48 ≤ c then
      [BondMode.roundRobin, .activeBackup, .xor, .broadcast, .ad, .tlb, .alb][c.toNat - 48]?
    else none
  | _ =>
    [(ascii "802.3ad", BondMode.ad), (ascii "active-backup", .activeBackup),
      (ascii "balance-alb", .alb), (ascii "balance-rr", .roundRobin),
      (ascii "balance-tlb", .tlb), (ascii "balance-xor", .xor),
      (ascii "broadcast", .broadcast)].lookup name

/-- `_nm_setting_bond_option_supported()` with the table `_bond_option_unsupp_mode()` -/
def optionSupported (option : String) (mode : BondMode) : Bool :=
  if option ∈ ["active_slave", "primary"] then mode ∈ [BondMode.activeBackup, .tlb, .alb]
  else if option ∈ ["ad_actor_sys_prio", "ad_actor_system", "ad_user_port_key", "lacp_rate"] then
    mode = .ad
  else if option ∈ ["arp_interval", "arp_ip_target", "arp_validate"] then
    mode ∉ [BondMode.ad, .tlb, .alb]
  else if option = "packets_per_slave" then mode = .roundRobin
  else if option = "tlb_dynamic_lb" then mode ∈ [BondMode.tlb, .alb]
  else true

/-! ## The values -/

/-- The table of options of an `NMSettingBond` -/
abbrev BondOptions := List (String × Bytes)

namespace BondOptions

def get (self : BondOptions) (option : String) : Option Bytes := self.lookup option

/-- `_bond_get_option_default()` -/
def getDefault (option : String) : Option Bytes := (getOptionMeta option).bind (·.val)

/-- `_bond_get_option_or_default()` -/
def getOrDefault (self : BondOptions) (option : String) : Option Bytes :=
  (self.get option).or (getDefault option)

/-- The mode in `_bond_get_option_normalized()` -/
def mode (self : BondOptions) : Option BondMode :=
  (self.getOrDefault "mode").bind bondModeFromString

/-- `_nm_utils_ascii_str_to_int64()` of an option, with its fallback -/
def int (value : Option Bytes) (max : ℕ) (fallback : ℤ) : ℤ :=
  (value.bind fun s => asciiStrToInt64 s 10 0 max).getD fallback

/-- The custom policies of `_bond_get_option_normalized()`. A value that is returned early is not
`NULL`, as one that is returned after them. -/
def customPolicy (self : BondOptions) (option : String) : Option Bytes :=
  if option = "arp_interval" ∨ option = "arp_ip_target" then
    if int (self.get "miimon") gMaxint 0 ≠ 0 then
      some (if option = "arp_interval" then ascii "0" else [])
    else self.get option
  else if option = "num_grat_arp" ∨ option = "num_unsol_na" then
    (self.get "num_grat_arp").or (self.get "num_unsol_na")
  else if option = "active_slave" then none
  else if option = "primary" then (self.get "primary").or (self.get "active_slave")
  else if option = "xmit_hash_policy" then
    if int (self.get "balance-slb") 1 (-1) = 1 then some (ascii "5") else none
  else self.get option

def adActorSystemDefault : Bytes := ascii "00:00:00:00:00:00"

/-- The end of `_bond_get_option_normalized()` -/
def sharedTail (self : BondOptions) (option : String) (mode : BondMode) : Option Bytes :=
  if option = "ad_actor_system" then some (if mode = .ad then adActorSystemDefault else [])
  else self.getOrDefault option

/-- `_bond_get_option_normalized()` -/
def getNormalizedFull (self : BondOptions) (option : String) (getDefaultOnly : Bool) :
    Option Bytes :=
  match self.mode with
  | none => none
  | some mode =>
    if optionSupported option mode then
      (if getDefaultOnly then none else self.customPolicy option).or (self.sharedTail option mode)
    else none

def getOptionDefault (self : BondOptions) (name : String) : Option Bytes :=
  self.getNormalizedFull name true

def getOptionNormalized (self : BondOptions) (name : String) : Option Bytes :=
  self.getNormalizedFull name false

end BondOptions

/-! ## Validating -/

/-- `nm_utils_bond_option_ip_split()`, empty for `NULL`, and `nm_inet_parse_bin()` for the
address family -/
structure BondEnv where
  optionIpSplit : Bytes → List Bytes
  inetParseBin : (v6 : Bool) → Bytes → Bool

def validateInt (value : Bytes) (optionMeta : OptionMeta) : Bool :=
  value.all isDigit && (asciiStrToUint64 value 10 optionMeta.min optionMeta.max).isSome

def validateIp (env : BondEnv) (v6 : Bool) (name : String) (value : Bytes) :
    Except Bytes Unit := do
  failWith (env.optionIpSplit value = []) (ascii ("'" ++ name ++ "' option is empty"))
  (env.optionIpSplit value).forM fun addr =>
    failWith (env.inetParseBin v6 addr = false)
      (ascii "'" ++ addr ++ ascii ("' is not a valid " ++ (if v6 then "IPv6" else "IPv4") ++
        " address for '" ++ name ++ "' option"))

/-- `nm_utils_hwaddr_valid()` for `ETH_ALEN` -/
def hwaddrValidEth (value : Bytes) : Bool := (hwaddrAton value).any (·.length = 6)

def validateOption (env : BondEnv) (name : String) (value : Option Bytes) : Except Bytes Unit :=
  match getOptionMeta name with
  | none => .error (ascii ("invalid option '" ++ name ++ "'"))
  | some optionMeta =>
    match value with
    | none => .ok ()
    | some value =>
      let check (success : Bool) : Except Bytes Unit :=
        failWith (success = false)
          (ascii "invalid value '" ++ value ++ ascii ("' for option '" ++ name ++ "'"))
      match optionMeta.optType with
      | .int => check (validateInt value optionMeta)
      | .both => check (validateInt value optionMeta || optionMeta.list.contains value)
      | .ip => validateIp env false name value
      | .ip6 => validateIp env true name value
      | .mac => check (hwaddrValidEth value)
      | .ifname => check (ifnameValidKernel value)

/-- What `verify()` reads of the `NMConnection` -/
structure BondConnection where
  infiniband : Bool
  interfaceName : Option Bytes

/-- The result of `verify()`, with the message that comes after the path -/
inductive BondVerify where
  | success
  | error (text : Bytes)
  | normalizable (text : Bytes)
deriving DecidableEq

namespace BondOptions

def optionSort (a b : String × Bytes) : Prop := a.1 = "mode" ∨ (b.1 ≠ "mode" ∧ a.1 ≤ b.1)

instance : DecidableRel optionSort := fun a b => by
  unfold optionSort
  infer_instance

def idxCache (self : BondOptions) : List (String × Bytes) := self.insertionSort optionSort

/-- `_atoi()` of the option or its default -/
def atoi (self : BondOptions) (option : String) : ℤ := int (self.getOrDefault option) gMaxint (-1)

def incompatible (mode : Bytes) (option : String) : Bytes :=
  ascii "'mode=" ++ mode ++ ascii ("' is incompatible with '" ++ option ++ " > 0'")

def requires (option other how : String) : Bytes :=
  ascii ("'" ++ option ++ "' option requires '" ++ other ++ "' option to be " ++ how)

/-- `verify()` up to the normalizable errors: the text of the mode and the mode -/
def verifyErrors (env : BondEnv) (connection : Option BondConnection) (self : BondOptions) :
    Except Bytes (Bytes × BondMode) := do
  self.idxCache.forM fun n => validateOption env n.1 (some n.2)
  let miimon := self.atoi "miimon"
  let arpInterval := self.atoi "arp_interval"
  let peerNotifDelay := self.atoi "peer_notif_delay"
  let modeStr ← match self.get "mode" with
    | none => .error (ascii "mandatory option 'mode' is missing")
    | some modeStr => .ok modeStr
  let bondMode ← match bondModeFromString modeStr with
    | none => .error (ascii "'" ++ modeStr ++ ascii "' is not a valid value for 'mode'")
    | some bondMode => .ok bondMode
  failWith ((bondMode = .tlb ∨ bondMode = .alb) ∧ arpInterval > 0)
    (incompatible modeStr "arp_interval")
  failWith ((bondMode = .tlb ∨ bondMode = .alb) ∧ self.atoi "arp_missed_max" > 0)
    (incompatible modeStr "arp_missed_max")
  -- the message of the name check is left out: the entry was validated the same way
  failWith ((bondMode = .activeBackup ∨ bondMode = .tlb ∨ bondMode = .alb) ∧
      ∃ primary ∈ self.get "primary", ifnameValidKernel primary = false)
    (ascii "'" ++ (self.get "primary").getD [] ++
      ascii "' is not valid for the 'primary' option")
  failWith (¬(bondMode = .activeBackup ∨ bondMode = .tlb ∨ bondMode = .alb) ∧
      self.get "primary" ≠ none)
    (ascii "'primary' option is only valid for 'mode=active-backup'")
  failWith ((∃ c ∈ connection, c.infiniband = true) ∧ bondMode ≠ .activeBackup)
    (ascii "'mode=" ++ modeStr ++ ascii "' is not a valid configuration for 'infiniband'")
  failWith (miimon = 0 ∧ self.atoi "updelay" ≠ 0) (requires "updelay" "miimon" "enabled")
  failWith (miimon = 0 ∧ self.atoi "downdelay" ≠ 0) (requires "downdelay" "miimon" "enabled")
  failWith (peerNotifDelay ≠ 0 ∧ miimon = 0) (requires "peer_notif_delay" "miimon" "enabled")
  failWith (peerNotifDelay ≠ 0 ∧ peerNotifDelay % miimon ≠ 0 ∧ arpInterval = 0)
    (ascii "'peer_notif_delay' option needs to be a value multiple of 'miimon' value")
  failWith (arpInterval > 0 ∧ self.get "arp_ip_target" = none ∧ self.get "ns_ip6_target" = none)
    (ascii "'arp_interval' option requires 'arp_ip_target' or 'ns_ip6_target'option to be set")
  failWith (¬arpInterval > 0 ∧ self.get "arp_ip_target" ≠ none)
    (requires "arp_ip_target" "arp_interval" "set")
  failWith (¬arpInterval > 0 ∧ self.get "ns_ip6_target" ≠ none)
    (requires "ns_ip6_target" "arp_interval" "set")
  failWith (bondMode ≠ .ad ∧ ∃ rate ∈ self.get "lacp_rate",
      rate ≠ ascii "0" ∧ rate ≠ ascii "slow")
    (ascii "'lacp_rate' option is only valid with mode '802.3ad'")
  -- the message names the other option
  failWith (self.get "lacp_active" ≠ none ∧ bondMode ≠ .ad)
    (ascii "'lacp_rate' option is only valid with mode '802.3ad'")
  failWith (self.get "num_grat_arp" ≠ none ∧ self.get "num_unsol_na" ≠ none ∧
      self.atoi "num_grat_arp" ≠ self.atoi "num_unsol_na")
    (ascii "'num_grat_arp' and 'num_unsol_na' cannot have different values")
  failWith (int (self.get "balance-slb") gMaxint (-1) > 0 ∧ bondMode ≠ .xor)
    (ascii "balance-slb requires bond mode \"balance-xor\"")
  failWith (int (self.get "balance-slb") gMaxint (-1) > 0 ∧
      ∃ policy ∈ self.get "xmit_hash_policy",
        policy ≠ ascii "5" ∧ policy ≠ ascii "vlan+srcmac")
    (ascii "balance-slb requires xmit_hash_policy \"vlan+srcmac\"")
  -- `_nm_connection_verify_required_interface_name()`
  failWith (∃ c ∈ connection, c.interfaceName = none) (ascii "property is missing")
  pure (modeStr, bondMode)

def verify (env : BondEnv) (connection : Option BondConnection) (self : BondOptions) :
    BondVerify :=
  match self.verifyErrors env connection with
  | .error text => .error text
  | .ok (modeStr, bondMode) =>
    if modeStr ∉ ["802.3ad", "active-backup", "balance-rr", "balance-alb", "balance-tlb",
        "balance-xor", "broadcast"].map ascii then
      .normalizable (ascii "'mode' option should be string")
    else
      match self.idxCache.find? fun n => !optionSupported n.1 bondMode with
      | some n =>
        .normalizable (ascii ("'" ++ n.1 ++ "' option is not valid with mode '") ++ modeStr ++
          ascii "'")
      | none => .success

/-- The result of `verify()` is not `NM_SETTING_VERIFY_ERROR`. -/
def Verifies (env : BondEnv) (connection : Option BondConnection) (self : BondOptions) : Prop :=
  ∀ text, self.verify env connection ≠ .error text

/-! ## Coherent options -/

/-- The text is a number other than zero. -/
def NonZero (value : Bytes) : Prop := int (some value) gMaxint 0 ≠ 0

instance (value : Bytes) : Decidable (NonZero value) := by
  unfold NonZero
  infer_instance

def without (self : BondOptions) (name : String) : BondOptions := self.filter (·.1 ≠ name)

/-- The normalized and the default values go together. -/
structure Coherent (env : BondEnv) (options : BondOptions) : Prop where
  neverTogether : ∀ m a, options.getOptionNormalized "miimon" = some m →
    options.getOptionNormalized "arp_interval" = some a → ¬(NonZero m ∧ NonZero a)
  activeSlave : options.getOptionNormalized "active_slave" = none
  primary : ∀ v, (options.get "primary").or (options.get "active_slave") = some v →
    options.getOptionNormalized "primary" = some v
  gratUnsol : options.getOptionNormalized "num_grat_arp" = options.getOptionNormalized "num_unsol_na"
  accepted : ∀ name v, options.getOptionNormalized name = some v → v ≠ [] →
    validateOption env name (some v) = .ok ()
  defaults : ∀ name, name ≠ "mode" →
    options.getOptionDefault name = (options.without name).getOptionDefault name

/-- The conditions of the parts that do not always hold -/
structure PlainDefaults (options : BondOptions) : Prop where
  miimonSet : options.get "miimon" = none → ∀ mode, options.mode = some mode →
    optionSupported "arp_interval" mode → ∀ a, options.get "arp_interval" = some a → ¬NonZero a
  noActiveSlave : options.get "active_slave" = none
  onlyDefaults : ∀ name v mode, name ≠ "mode" → name ≠ "ad_actor_system" →
    options.mode = some mode → optionSupported name mode → options.get name = some v →
    getDefault name = some v

/-! ## What `verify()` makes sure of -/

variable {env : BondEnv} {connection : Option BondConnection} {self : BondOptions} {name : String}

theorem verifies_iff : self.Verifies env connection ↔
    ∃ r, self.verifyErrors env connection = .ok r := by
  unfold Verifies verify
  cases h : self.verifyErrors env connection with
  | error text => simp
  | ok r =>
    simp only [Except.ok.injEq, exists_eq', iff_true]
    intro text
    split
    · simp
    · split <;> simp

theorem mem_of_lookup {β : Type} {xs : List (String × β)} {b : β} (h : xs.lookup name = some b)
    : (name, b) ∈ xs := by
  obtain ⟨xs₁, xs₂, rfl, -⟩ := lookup_eq_some_iff.mp h
  simp

theorem Verifies.spec (h : self.Verifies env connection) :
    (∀ name v, self.get name = some v → validateOption env name (some v) = .ok ()) ∧
      ∃ mode, self.mode = some mode ∧
        (self.get "primary" ≠ none → optionSupported "primary" mode) := by
  obtain ⟨r, hr⟩ := verifies_iff.mp h
  simp only [verifyErrors, bind_unit_ok_iff] at hr
  obtain ⟨hentries, hrest⟩ := hr
  rw [forM_ok_iff] at hentries
  constructor
  · intro name v hv
    exact hentries (name, v) ((mem_insertionSort _).mpr (mem_of_lookup hv))
  · cases hmode : self.get "mode" with
    | none => simp [hmode, bind, Except.bind] at hrest
    | some modeStr =>
      cases hb : bondModeFromString modeStr with
      | none => simp [hmode, hb, bind, Except.bind] at hrest
      | some mode =>
        refine ⟨mode, by simp [BondOptions.mode, getOrDefault, hmode, hb], ?_⟩
        simp only [hmode, hb, ok_bind, bind_unit_ok_iff, failWith_ok_iff] at hrest
        obtain ⟨-, -, -, hprimary, -⟩ := hrest
        intro hne
        have hin : mode = .activeBackup ∨ mode = .tlb ∨ mode = .alb := by
          by_contra hout
          exact hprimary ⟨hout, hne⟩
        rcases hin with rfl | rfl | rfl <;> rfl

/-! ## The parts -/

section Parts

variable {mode : BondMode} {optionMeta : OptionMeta} {v : Bytes}

section

variable (hm : self.mode = some mode)

include hm

theorem getOptionNormalized_eq (name : String) :
    self.getOptionNormalized name =
      if optionSupported name mode then
        (self.customPolicy name).or (self.sharedTail name mode)
      else none := by
  simp [getOptionNormalized, getNormalizedFull, hm]

theorem getOptionDefault_eq (name : String) :
    self.getOptionDefault name =
      if optionSupported name mode then self.sharedTail name mode else none := by
  simp [getOptionDefault, getNormalizedFull, hm]

/-- The monitors exclude each other only when `miimon` is set or there is no interval. -/
theorem neverTogether_iff :
    (∀ m a, self.getOptionNormalized "miimon" = some m →
      self.getOptionNormalized "arp_interval" = some a → ¬(NonZero m ∧ NonZero a)) ↔
    (self.get "miimon" = none → optionSupported "arp_interval" mode →
      ∀ a, self.get "arp_interval" = some a → ¬NonZero a) := by
  have hmiimon : self.getOptionNormalized "miimon" =
      (self.get "miimon").or (some (ascii "100")) := by
    rw [getOptionNormalized_eq hm]
    cases h : self.get "miimon" with
    | none =>
      simp [optionSupported, customPolicy, sharedTail, getOrDefault, h]
      rfl
    | some v => simp [optionSupported, customPolicy, h]
  have harp : self.getOptionNormalized "arp_interval" =
      if optionSupported "arp_interval" mode then
        if int (self.get "miimon") gMaxint 0 ≠ 0 then some (ascii "0")
        else (self.get "arp_interval").or (some (ascii "0"))
      else none := by
    rw [getOptionNormalized_eq hm]
    have hdefault : getDefault "arp_interval" = some (ascii "0") := by rfl
    by_cases h : int (self.get "miimon") gMaxint 0 ≠ 0
    · simp [customPolicy, h]
    · cases ha : self.get "arp_interval" <;>
        simp [customPolicy, h, sharedTail, getOrDefault, hdefault, ha]
  have hzero : ¬NonZero (ascii "0") := by decide +kernel
  have hhundred : NonZero (ascii "100") := by decide +kernel
  rw [hmiimon, harp]
  cases hs : optionSupported "arp_interval" mode with
  | false => simp
  | true =>
    cases hset : self.get "miimon" with
    | none =>
      have hint : int none gMaxint 0 = 0 := by rfl
      cases ha : self.get "arp_interval" <;> simp [hint, hzero, hhundred]
    | some m =>
      simp only [Option.some_or, reduceCtorEq, false_implies, iff_true, if_true]
      intro m' a hm' ha ⟨hm₁, ha₁⟩
      cases hm'
      have hne : int (some m) gMaxint 0 ≠ 0 := hm₁
      rw [if_pos hne, Option.some.injEq] at ha
      exact hzero (ha ▸ ha₁)

theorem aliases_iff (hp : self.get "primary" ≠ none → optionSupported "primary" mode) :
    (self.getOptionNormalized "active_slave" = none ∧
      ∀ v, (self.get "primary").or (self.get "active_slave") = some v →
        self.getOptionNormalized "primary" = some v) ↔ self.get "active_slave" = none := by
  have hsame : optionSupported "active_slave" mode = optionSupported "primary" mode := by rfl
  have hdefault : getDefault "active_slave" = none := by rfl
  have hslave : self.getOptionNormalized "active_slave" =
      if optionSupported "primary" mode then self.get "active_slave" else none := by
    rw [getOptionNormalized_eq hm, hsame]
    simp [customPolicy, sharedTail, getOrDefault, hdefault]
  have hprimary : ∀ v, (self.get "primary").or (self.get "active_slave") = some v →
      self.getOptionNormalized "primary" =
        if optionSupported "primary" mode then some v else none := by
    intro v hv
    rw [getOptionNormalized_eq hm]
    simp [customPolicy, hv]
  rw [hslave]
  cases hs : optionSupported "primary" mode with
  | false =>
    have hnone : self.get "primary" = none := by
      by_contra hne
      simp [hp hne] at hs
    simp only [hs, Bool.false_eq_true, if_false, hnone, Option.none_or, true_and] at hprimary ⊢
    constructor
    · intro h
      by_contra hne
      obtain ⟨v, hv⟩ := Option.ne_none_iff_exists'.mp hne
      have hcontra := h v hv
      rw [hprimary v hv] at hcontra
      cases hcontra
    · intro h v hv
      simp [h] at hv
  | true =>
    simp only [hs, if_true] at hprimary ⊢
    exact and_iff_left hprimary

theorem gratUnsol :
    self.getOptionNormalized "num_grat_arp" = self.getOptionNormalized "num_unsol_na" := by
  rw [getOptionNormalized_eq hm, getOptionNormalized_eq hm]
  have hdefault : getDefault "num_grat_arp" = getDefault "num_unsol_na" := by rfl
  cases hg : self.get "num_grat_arp" <;> cases hu : self.get "num_unsol_na" <;>
    simp [optionSupported, customPolicy, sharedTail, getOrDefault, hg, hu, hdefault]

end

/-! ### Accepted values -/

/-- What `validateOption` checks of a value that is no list of addresses -/
def passes (optionMeta : OptionMeta) (value : Bytes) : Bool :=
  match optionMeta.optType with
  | .int => validateInt value optionMeta
  | .both => validateInt value optionMeta || optionMeta.list.contains value
  | .ip | .ip6 => false
  | .mac => hwaddrValidEth value
  | .ifname => ifnameValidKernel value

theorem validateOption_ok_iff (hm : getOptionMeta name = some optionMeta)
    (hip : optionMeta.optType ≠ .ip) (hip6 : optionMeta.optType ≠ .ip6) :
    validateOption env name (some v) = .ok () ↔ passes optionMeta v = true := by
  simp only [validateOption, hm, passes]
  cases ht : optionMeta.optType with
  | ip => exact absurd ht hip
  | ip6 => exact absurd ht hip6
  | int => simp
  | both =>
    simp only [failWith_ok_iff]
    simp only [Bool.not_eq_false]
  | mac => simp
  | ifname => simp

theorem default_passes (hm : getOptionMeta name = some optionMeta) (hv : optionMeta.val = some v)
    (hne : v ≠ []) : passes optionMeta v = true := by
  have hall : (optionMetaTable.all fun e => e.2.val.all fun v => v = [] || passes e.2 v) = true := by
    decide +kernel
  have hmem := all_eq_true.mp hall _ (mem_of_lookup hm)
  simpa [hv, hne] using hmem

theorem getDefault_valid (h : getDefault name = some v) (hne : v ≠ [])
    : validateOption env name (some v) = .ok () := by
  obtain ⟨optionMeta, hm, hv⟩ := Option.bind_eq_some_iff.mp h
  have hpass := default_passes hm hv hne
  have hip : optionMeta.optType ≠ .ip := fun ht => by simp [passes, ht] at hpass
  have hip6 : optionMeta.optType ≠ .ip6 := fun ht => by simp [passes, ht] at hpass
  exact (validateOption_ok_iff hm hip hip6).mpr hpass

theorem validateOption_congr {name' : String} {m m' : OptionMeta} (hm : getOptionMeta name = some m)
    (hm' : getOptionMeta name' = some m') (hip : m.optType ≠ .ip ∧ m.optType ≠ .ip6)
    (ht : m'.optType = m.optType) (hmin : m'.min = m.min) (hmax : m'.max = m.max)
    (hlist : m'.list = m.list) (h : validateOption env name (some v) = .ok ()) :
    validateOption env name' (some v) = .ok () := by
  have hpass := (validateOption_ok_iff hm hip.1 hip.2).mp h
  rw [validateOption_ok_iff hm' (ht ▸ hip.1) (ht ▸ hip.2)]
  simpa [passes, validateInt, ht, hmin, hmax, hlist] using hpass

theorem sharedTail_valid
    (hv : ∀ name v, self.get name = some v → validateOption env name (some v) = .ok ())
    (h : self.sharedTail name mode = some v) (hne : v ≠ []) :
    validateOption env name (some v) = .ok () := by
  unfold sharedTail at h
  split at h
  case isTrue hname =>
    subst hname
    split at h <;> cases h
    · rfl
    · exact absurd rfl hne
  case isFalse =>
    rcases Option.or_eq_some_iff.mp h with hget | ⟨-, hdef⟩
    · exact hv name v hget
    · exact getDefault_valid hdef hne

theorem customPolicy_valid
    (hv : ∀ name v, self.get name = some v → validateOption env name (some v) = .ok ())
    (h : self.customPolicy name = some v) (hne : v ≠ []) :
    validateOption env name (some v) = .ok () := by
  unfold customPolicy at h
  split at h
  case isTrue hname =>
    split at h
    · split at h <;> cases h
      · rename_i hname'
        subst hname'
        rfl
      · exact absurd rfl hne
    · exact hv name v h
  split at h
  case isTrue hname =>
    rcases Option.or_eq_some_iff.mp h with hget | ⟨-, hget⟩ <;> rcases hname with rfl | rfl
    · exact hv _ v hget
    · exact validateOption_congr rfl rfl (by decide) rfl rfl rfl rfl (hv _ v hget)
    · exact validateOption_congr rfl rfl (by decide) rfl rfl rfl rfl (hv _ v hget)
    · exact hv _ v hget
  split at h
  case isTrue => cases h
  split at h
  case isTrue hname =>
    subst hname
    have hslave : getOptionMeta "active_slave" = some { val := none, optType := .ifname } := rfl
    rcases Option.or_eq_some_iff.mp h with hget | ⟨-, hget⟩
    · exact hv _ v hget
    · exact validateOption_congr hslave rfl (by decide) rfl rfl rfl rfl (hv _ v hget)
  split at h
  case isTrue hname =>
    subst hname
    split at h <;> cases h
    rfl
  case isFalse => exact hv name v h

theorem accepted (hm : self.mode = some mode)
    (hv : ∀ name v, self.get name = some v → validateOption env name (some v) = .ok ())
    (h : self.getOptionNormalized name = some v) (hne : v ≠ []) :
    validateOption env name (some v) = .ok () := by
  rw [getOptionNormalized_eq hm] at h
  split at h
  case isFalse => cases h
  case isTrue =>
    rcases Option.or_eq_some_iff.mp h with hpolicy | ⟨-, htail⟩
    · exact customPolicy_valid hv hpolicy hne
    · exact sharedTail_valid hv htail hne

/-! ### Defaults -/

theorem get_without_self (name : String) : (self.without name).get name = none := by
  simp only [get, without, List.lookup_eq_none_iff, mem_filter, decide_eq_true_eq, and_imp]
  intro e _ he
  simpa using Ne.symm he

theorem get_without_of_ne {other : String} (h : other ≠ name) :
    (self.without name).get other = self.get other := by
  unfold get without
  induction self with
  | nil => rfl
  | cons e self ih =>
    by_cases he : e.1 = name
    · have hne : (other == e.1) = false := by
        rw [he]
        simpa using h
      rw [filter_cons_of_neg (by simp [he]), ih, List.lookup_cons, hne]
    · rw [filter_cons_of_pos (by simp [he]), List.lookup_cons, List.lookup_cons, ih]

theorem defaults_iff (hm : self.mode = some mode) :
    (∀ name, name ≠ "mode" →
      self.getOptionDefault name = (self.without name).getOptionDefault name) ↔
    ∀ name v, name ≠ "mode" → name ≠ "ad_actor_system" → optionSupported name mode →
      self.get name = some v → getDefault name = some v := by
  have hwithout : ∀ name, name ≠ "mode" → (self.without name).mode = some mode := by
    intro name hname
    rw [← hm, BondOptions.mode, getOrDefault, get_without_of_ne (Ne.symm hname)]
    rfl
  constructor
  · intro h name v hname had hs hget
    have heq := h name hname
    rw [getOptionDefault_eq hm, getOptionDefault_eq (hwithout name hname), if_pos hs,
      if_pos hs] at heq
    simp only [sharedTail, had, if_false, getOrDefault, hget, get_without_self, Option.some_or,
      Option.none_or] at heq
    exact heq.symm
  · intro h name hname
    rw [getOptionDefault_eq hm, getOptionDefault_eq (hwithout name hname)]
    by_cases hs : optionSupported name mode = true
    · rw [if_pos hs, if_pos hs]
      by_cases had : name = "ad_actor_system"
      · simp [sharedTail, had]
      · simp only [sharedTail, had, if_false, getOrDefault, get_without_self, Option.none_or]
        cases hget : self.get name with
        | none => rfl
        | some v => rw [h name v hname had hs hget, Option.some_or]
    · rw [if_neg hs, if_neg hs]

end Parts

/-- Verified options are coherent exactly when `miimon` goes with an interval, the alias is not
set, and what is set does not differ from its default. -/
theorem coherent_iff (h : self.Verifies env connection) :
    self.Coherent env ↔ self.PlainDefaults := by
  obtain ⟨hv, mode, hm, hp⟩ := h.spec
  have hmode : ∀ mode', self.mode = some mode' ↔ mode = mode' := by simp [hm]
  constructor
  · intro hc
    constructor
    · intro hmiimon mode' hmode'
      cases (hmode mode').mp hmode'
      exact (neverTogether_iff hm).mp hc.neverTogether hmiimon
    · exact (aliases_iff hm hp).mp ⟨hc.activeSlave, hc.primary⟩
    · intro name v mode' hname had hmode'
      cases (hmode mode').mp hmode'
      exact (defaults_iff hm).mp hc.defaults name v hname had
  · intro hplain
    have haliases := (aliases_iff hm hp).mpr hplain.noActiveSlave
    constructor
    · exact (neverTogether_iff hm).mpr fun hmiimon => hplain.miimonSet hmiimon mode hm
    · exact haliases.1
    · exact haliases.2
    · exact gratUnsol hm
    · exact fun name v hget hne => accepted hm hv hget hne
    · exact (defaults_iff hm).mpr fun name v hname had =>
        hplain.onlyDefaults name v mode hname had hm

def anyBondEnv : BondEnv where
  optionIpSplit := fun s => if s = [] then [] else [s]
  inetParseBin := fun v6 s => !v6 && s = ascii "10.0.0.1"

/-- Setting the default of `miimon` changes nothing. -/
theorem coherent_iff_active_backup :
    Coherent anyBondEnv [("mode", ascii "active-backup"), ("miimon", ascii "100")] := by
  have h : Verifies anyBondEnv none [("mode", ascii "active-backup"), ("miimon", ascii "100")] :=
    verifies_iff.mpr ⟨_, rfl⟩
  rw [coherent_iff h]
  constructor
  · intro hnone
    cases hnone
  · rfl
  · intro name v mode hname _ _ _ hget
    have hmem := mem_of_lookup hget
    simp only [mem_cons, Prod.mk.injEq, not_mem_nil, or_false] at hmem
    rcases hmem with ⟨heq, -⟩ | ⟨rfl, rfl⟩
    · exact absurd heq hname
    · rfl

/-- An interval alone leaves the default of `miimon` on. -/
theorem coherent_fails_arp_interval :
    let options : BondOptions := [("mode", ascii "active-backup"), ("arp_interval", ascii "100"),
      ("arp_ip_target", ascii "10.0.0.1")]
    options.Verifies anyBondEnv none ∧ ¬options.Coherent anyBondEnv := by
  intro options
  constructor
  · exact verifies_iff.mpr ⟨_, rfl⟩
  · intro hc
    exact hc.neverTogether (ascii "100") (ascii "100") rfl rfl (by decide +kernel)

end BondOptions

end NetworkManager.Settings
