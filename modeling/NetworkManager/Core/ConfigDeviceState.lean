import NetworkManager.Core.ConfigKeyfile
import NetworkManager.GlibAux.Hwaddr

/-!
# The device state files

NetworkManager keeps a key file for each device, whose name is the number of the interface. The
directory has each name once, and some of its files may be no key files.
-/

namespace NetworkManager.Core

open Lib GlibAux
open List hiding lookup_cons

inductive DeviceStateManagedType
  | unknown
  | unmanaged
  | managed
  deriving DecidableEq

/-- `NMConfigDeviceStateData`. The ternary `nm_owned` has no value where it is the default. -/
structure DeviceStateData where
  ifindex : ℕ
  managed : DeviceStateManagedType
  routeMetricDefaultAspired : UInt32
  routeMetricDefaultEffective : UInt32
  connectionUuid : Option Bytes
  permHwAddrFake : Option Bytes
  nmOwned : Option Bool
  genericSw : Bool
  deriving DecidableEq

/-- The options of the lease of a `NMDhcpConfig`. -/
abbrev DhcpConfig := List (String × Bytes)

def DhcpConfig.getOption (self : DhcpConfig) (name : String) : Option Bytes :=
  (lookup Prod.fst name self).map Prod.snd

/-! ## Reading -/

/-- `_config_device_state_data_new()`. Both metrics are read from the key of the effective one. -/
def configDeviceStateDataNew (ifindex : ℕ) (kf : ConfigKeyfile) : DeviceStateData :=
  let managed := keyfileGetBoolean kf "device" "managed"
  let effective :=
    keyfileGetInt64 kf "device" "route-metric-default-effective" 10 1 (2 ^ 32 - 1) 0
  let aspired :=
    if effective ≠ 0 then
      keyfileGetInt64 kf "device" "route-metric-default-effective" 10 1 effective effective
    else 0
  { ifindex
    managed := match managed with
      | some true => .managed
      | some false => .unmanaged
      | none => .unknown
    routeMetricDefaultAspired := .ofNat aspired.toNat
    routeMetricDefaultEffective := .ofNat effective.toNat
    connectionUuid :=
      if managed = some true then keyfileGetValue kf "device" "connection-uuid" false true true
      else none
    permHwAddrFake :=
      (keyfileGetValue kf "device" "perm-hw-addr-fake" false true true).bind hwaddrCanonical
    nmOwned := keyfileGetBoolean kf "device" "nm-owned"
    genericSw := (keyfileGetBoolean kf "device" "generic-software").getD false }

/-- The files of the directory, each with its key file unless it is none. -/
structure DeviceStateDir where
  files : List (Bytes × Option ConfigKeyfile)
  unique : KeyUnique Prod.fst files

def DeviceStateDir.loadFromFile (dir : DeviceStateDir) (name : Bytes) : Option ConfigKeyfile :=
  (lookup Prod.fst name dir.files).bind Prod.snd

def DeviceStateDir.saveToFile (dir : DeviceStateDir) (name : Bytes) (kf : ConfigKeyfile) :
    DeviceStateDir :=
  ⟨put Prod.fst (name, some kf) dir.files, dir.unique.put⟩

def deviceStateLoad (dir : DeviceStateDir) (ifindex : ℕ) : Option DeviceStateData :=
  (dir.loadFromFile (formatUnsigned ifindex)).map (configDeviceStateDataNew ifindex)

def maxInt : ℤ := 2 ^ 31 - 1

def deviceStateParseFilename (filename : Bytes) : ℕ :=
  if filename = [] then 0
  else if ¬ filename.all isDigit then 0
  else ((asciiStrToInt64 filename 10 1 maxInt).getD 0).toNat

/-- The body of the loop of `nm_config_device_state_load_all()`, with the states that are in the
hash table. There is no result if the state of the interface was inserted before. -/
def deviceStateLoadNext (dir : DeviceStateDir) (states : List DeviceStateData) (fn : Bytes) :
    Option (List DeviceStateData) :=
  let ifindex := deviceStateParseFilename fn
  if ifindex = 0 then some states
  else match deviceStateLoad dir ifindex with
    | none => some states
    | some state =>
      if (lookup DeviceStateData.ifindex ifindex states).isSome then none
      else some (states ++ [state])

def deviceStateLoadAll (dir : DeviceStateDir) : Option (List DeviceStateData) :=
  (dir.files.map Prod.fst).foldlM (deviceStateLoadNext dir) []

def deviceStateFilenameLenMax : ℕ := 60

/-- The body of the loop of `nm_config_device_state_prune_stale()`, with the names that were
unlinked. There is no result where an assertion fails. -/
def deviceStatePruneNext (preserveIfindexes preserveInPlatform : ℕ → Bool) (unlinked : List Bytes)
    (fn : Bytes) : Option (List Bytes) :=
  let ifindex := deviceStateParseFilename fn
  if ifindex = 0 then some unlinked
  else if preserveIfindexes ifindex then some unlinked
  else if preserveInPlatform ifindex then some unlinked
  else if fn.length < deviceStateFilenameLenMax + 1 ∧ formatUnsigned ifindex = fn then
    some (unlinked ++ [fn])
  else none

def deviceStatePruneStale (dir : DeviceStateDir) (preserveIfindexes preserveInPlatform : ℕ → Bool) :
    Option (List Bytes) :=
  (dir.files.map Prod.fst).foldlM (deviceStatePruneNext preserveIfindexes preserveInPlatform) []

/-! ## Writing -/

/-- The keys of group "device" that `nm_config_device_state_write()` sets. -/
def deviceStateFields (state : DeviceStateData) (dhcp4Config : Option DhcpConfig) :
    List (String × Option Bytes) :=
  let boolText (value : Bool) : Bytes := ascii (if value then "true" else "false")
  let option (name : String) : Option Bytes := dhcp4Config.bind fun config => config.getOption name
  let aspired := state.routeMetricDefaultAspired
  let effective := state.routeMetricDefaultEffective
  [("managed", match state.managed with
      | .unknown => none
      | .unmanaged => some (boolText false)
      | .managed => some (boolText true)),
    ("perm-hw-addr-fake", state.permHwAddrFake.map keyFileSetString),
    ("connection-uuid", state.connectionUuid.map keyFileSetString),
    ("nm-owned", state.nmOwned.map boolText),
    ("route-metric-default-effective",
      if effective ≠ 0 then some (formatUnsigned effective.toNat) else none),
    ("route-metric-default-aspired",
      if effective ≠ 0 ∧ aspired ≠ effective then some (formatUnsigned aspired.toNat) else none),
    ("next-server", (option "next_server").map keyFileSetString),
    ("root-path", (option "root_path").map keyFileSetString),
    ("dhcp-bootfile", ((option "filename").or (option "bootfile_name")).map keyFileSetString),
    ("generic-software", if state.genericSw then some (boolText true) else none)]

def deviceStateDhcpFields (group : String) (config : DhcpConfig) : List (String × Option Bytes) :=
  (config.filter fun value => !"requested_".isPrefixOf value.1).map fun value =>
    (group ++ "." ++ value.1, some (keyFileSetString value.2))

def keyfileSetFields (group : String) (fields : List (String × Option Bytes))
    (kf : ConfigKeyfile) : ConfigKeyfile :=
  fields.foldl (fun kf field => kf.setOption group field.1 field.2) kf

/-- The key file of `nm_config_device_state_write()`. -/
def deviceStateKeyfile (state : DeviceStateData) (dhcp4Config dhcp6Config : Option DhcpConfig) :
    ConfigKeyfile :=
  keyfileSetFields "dhcp6" (deviceStateDhcpFields "dhcp6" (dhcp6Config.getD []))
    (keyfileSetFields "dhcp4" (deviceStateDhcpFields "dhcp4" (dhcp4Config.getD []))
      (keyfileSetFields "device" (deviceStateFields state dhcp4Config) .empty))

/-- `nm_config_device_state_write()`, where the file can be written. The state is the arguments,
and there is no result if a check fails. -/
def deviceStateWrite (dir : DeviceStateDir) (state : DeviceStateData)
    (dhcp4Config dhcp6Config : Option DhcpConfig) : Option DeviceStateDir :=
  if state.ifindex = 0 then none
  else if state.connectionUuid = some [] then none
  else if ¬ (state.managed = .managed ∨ state.connectionUuid = none) then none
  else some (dir.saveToFile (formatUnsigned state.ifindex)
    (deviceStateKeyfile state dhcp4Config dhcp6Config))

/-!
## What the device state files remember

The state that was written is loaded again, except for the aspired metric, for which the effective
one is loaded, and for a connection UUID that is no text or has blanks around it. The names of the
files are read as numbers, and a name with leading zeros is the number of another file.
-/

variable {state : DeviceStateData} {dhcp4Config dhcp6Config : Option DhcpConfig}
  {kf : ConfigKeyfile} {dir : DeviceStateDir} {fn : Bytes} {i : ℕ}

/-! ## One file -/

theorem getValue_keyfileSetFields_of_ne {group group' : String}
    {fields : List (String × Option Bytes)} (h : group' ≠ group) (key : String) :
    (keyfileSetFields group fields kf).getValue group' key = kf.getValue group' key := by
  unfold keyfileSetFields
  induction fields generalizing kf with
  | nil => rfl
  | cons field fields ih =>
    rw [foldl_cons, ih, KeyFile.getValue_setOption, if_neg fun hand => h hand.1]

variable (state dhcp4Config dhcp6Config) in
theorem getValue_deviceStateKeyfile (key : String) :
    (deviceStateKeyfile state dhcp4Config dhcp6Config).getValue "device" key =
      (lookup Prod.fst key (deviceStateFields state dhcp4Config)).bind Prod.snd := by
  have hunique : KeyUnique Prod.fst (deviceStateFields state dhcp4Config) := by
    simp [KeyUnique, deviceStateFields]
  rw [deviceStateKeyfile, getValue_keyfileSetFields_of_ne (by decide),
    getValue_keyfileSetFields_of_ne (by decide), keyfileSetFields,
    KeyFile.getValue_foldl_setOption hunique, if_pos rfl, KeyFile.getValue_empty, Option.or_none]

theorem keyfileGetBoolean_of_bool {key : String} (value : Option Bool)
    (h : kf.getValue "device" key =
      value.map fun value => ascii (if value then "true" else "false")) :
    keyfileGetBoolean kf "device" key = value := by
  rw [keyfileGetBoolean, h]
  cases value with
  | none => rfl
  | some value => exact asciiStrToBool_of_bool value

theorem keyfileGetValue_of_string {key : String} (value : Option Bytes)
    (h : kf.getValue "device" key = value.map keyFileSetString) :
    keyfileGetValue kf "device" key false true true =
      ((value.filter fun v => isUtf8 v).map strstrip).filter fun v => v ≠ [] := by
  rw [keyfileGetValue]
  simp only [Bool.false_eq_true, if_false, keyfileGetString, h, if_true, Bool.not_true,
    Bool.false_or]
  cases value with
  | none => rfl
  | some value =>
    rw [Option.map_some, Option.bind_some, keyFileGetString_setString]
    by_cases htext : isUtf8 value <;> simp [htext, Option.filter]

theorem keyfileGetInt64_of_unsigned {key : String} {n : ℕ} (min max fallback : ℤ)
    (h : kf.getValue "device" key = some (formatUnsigned n)) (hmin : min ≤ n) (hn : (n : ℤ) ≤ max)
    (hmax : max < 2 ^ 63) : keyfileGetInt64 kf "device" key 10 min max fallback = n := by
  have hread := asciiStrToInt64_formatUnsigned (.inr rfl) hmax hn
  rw [keyfileGetInt64, h]
  simp only [asciiStrToInt64_of_range min max hread hmin hn, Option.getD_some]

theorem strstrip_plain {s : Bytes} (h : ∀ c ∈ s, isPlain c) : strstrip s = s := by
  have hspace : ∀ c : UInt8, isPlain c → ¬ isSpace c := by decide +kernel
  apply strstrip_of_ends
  · intro c hc
    exact hspace c (h c (mem_of_mem_head? hc))
  · intro c hc
    exact hspace c (h c (mem_of_getLast? hc))

/-- The checks of `nm_config_device_state_write()`, and what its callers keep. -/
structure DeviceStateData.Writable (state : DeviceStateData) : Prop where
  ifindex : state.ifindex ≠ 0
  connectionUuid : state.connectionUuid ≠ some []
  managed : state.managed = .managed ∨ state.connectionUuid = none
  permHwAddrFake : ∀ mac ∈ state.permHwAddrFake, hwaddrCanonical mac = some mac
  metrics : state.routeMetricDefaultAspired ≤ state.routeMetricDefaultEffective
  unset : state.routeMetricDefaultAspired = 0 ↔ state.routeMetricDefaultEffective = 0

variable (dhcp4Config dhcp6Config) in
theorem deviceState_permHwAddrFake (h : state.Writable) :
    (keyfileGetValue (deviceStateKeyfile state dhcp4Config dhcp6Config) "device"
      "perm-hw-addr-fake" false true true).bind hwaddrCanonical = state.permHwAddrFake := by
  have hvalue := getValue_deviceStateKeyfile state dhcp4Config dhcp6Config "perm-hw-addr-fake"
  rw [keyfileGetValue_of_string _ hvalue]
  cases hmac : state.permHwAddrFake with
  | none => rfl
  | some mac =>
    have hcanonical := h.permHwAddrFake mac hmac
    have hplain := isPlain_hwaddrCanonical hcanonical
    have hne : mac ≠ [] := by
      rintro rfl
      cases hcanonical
    simp [Option.filter, isUtf8_of_plain hplain, strstrip_plain hplain, hne, hcanonical]

variable (state i dhcp4Config dhcp6Config) in
theorem deviceState_metrics :
    (configDeviceStateDataNew i (deviceStateKeyfile state dhcp4Config dhcp6Config)
      ).routeMetricDefaultEffective = state.routeMetricDefaultEffective ∧
    (configDeviceStateDataNew i (deviceStateKeyfile state dhcp4Config dhcp6Config)
      ).routeMetricDefaultAspired = state.routeMetricDefaultEffective := by
  have hvalue := getValue_deviceStateKeyfile state dhcp4Config dhcp6Config "route-metric-default-effective"
  have hlookup : (lookup Prod.fst "route-metric-default-effective"
      (deviceStateFields state dhcp4Config)).bind Prod.snd =
        if state.routeMetricDefaultEffective ≠ 0 then
          some (formatUnsigned state.routeMetricDefaultEffective.toNat)
        else none := rfl
  rw [hlookup] at hvalue
  have hback : UInt32.ofNat ((state.routeMetricDefaultEffective.toNat : ℤ)).toNat =
      state.routeMetricDefaultEffective := by simp
  by_cases hzero : state.routeMetricDefaultEffective = 0
  · rw [if_neg (not_not_intro hzero)] at hvalue
    simp [configDeviceStateDataNew, keyfileGetInt64, hvalue, hzero]
  · rw [if_pos hzero] at hvalue
    have hpos : state.routeMetricDefaultEffective.toNat ≠ 0 := fun h0 =>
      hzero (UInt32.toNat_inj.mp h0)
    have hlt := state.routeMetricDefaultEffective.toNat_lt
    have heffective := keyfileGetInt64_of_unsigned 1 (2 ^ 32 - 1) 0 hvalue (by omega) (by omega) (by decide)
    have haspired := keyfileGetInt64_of_unsigned 1 state.routeMetricDefaultEffective.toNat
      state.routeMetricDefaultEffective.toNat hvalue (by omega) (by omega) (by omega)
    have hne : (state.routeMetricDefaultEffective.toNat : ℤ) ≠ 0 := by omega
    simp only [configDeviceStateDataNew, heffective, haspired, hne, ne_eq, not_false_eq_true,
      if_true, hback, and_self]

theorem configDeviceStateDataNew_keyfile (h : state.Writable) :
    configDeviceStateDataNew state.ifindex (deviceStateKeyfile state dhcp4Config dhcp6Config) =
      { state with
        routeMetricDefaultAspired := state.routeMetricDefaultEffective
        connectionUuid :=
          ((state.connectionUuid.filter fun v => isUtf8 v).map strstrip).filter fun v => v ≠ [] } := by
  have hvalue := getValue_deviceStateKeyfile state dhcp4Config dhcp6Config
  obtain ⟨heffective, haspired⟩ := deviceState_metrics state dhcp4Config dhcp6Config
    state.ifindex
  have hmac := deviceState_permHwAddrFake dhcp4Config dhcp6Config h
  have howned := keyfileGetBoolean_of_bool state.nmOwned (hvalue "nm-owned")
  have huuid := keyfileGetValue_of_string state.connectionUuid (hvalue "connection-uuid")
  have hmanaged : keyfileGetBoolean (deviceStateKeyfile state dhcp4Config dhcp6Config) "device"
      "managed" = match state.managed with
        | .unknown => none
        | .unmanaged => some false
        | .managed => some true := by
    apply keyfileGetBoolean_of_bool
    rw [hvalue]
    cases hm : state.managed <;> simp [deviceStateFields, lookup_cons, hm]
  have hgeneric : keyfileGetBoolean (deviceStateKeyfile state dhcp4Config dhcp6Config) "device"
      "generic-software" = if state.genericSw then some true else none := by
    apply keyfileGetBoolean_of_bool
    rw [hvalue]
    cases hg : state.genericSw <;> simp [deviceStateFields, lookup_cons, hg]
  simp only [configDeviceStateDataNew] at heffective haspired ⊢
  rw [heffective, haspired, hmac, howned, hmanaged, hgeneric, huuid]
  cases state with
  | mk ifindex type aspired effective uuid mac owned generic =>
    cases type with
    | managed => cases generic <;> rfl
    | unmanaged =>
      obtain rfl : uuid = none := by simpa using h.managed
      cases generic <;> rfl
    | unknown =>
      obtain rfl : uuid = none := by simpa using h.managed
      cases generic <;> rfl

theorem connectionUuid_kept {uuid : Option Bytes} (hne : uuid ≠ some []) :
    (((uuid.filter fun v => isUtf8 v).map strstrip).filter fun v => v ≠ []) = uuid ↔
      ∀ v ∈ uuid, isUtf8 v ∧ strstrip v = v := by
  cases uuid with
  | none => simp
  | some v =>
    have hv : v ≠ [] := fun h => hne (h ▸ rfl)
    by_cases htext : isUtf8 v
    · by_cases hstrip : strstrip v = v
      · simp [Option.filter, htext, hstrip, hv]
      · have hout : ∀ w, (if w ≠ [] then some w else none) = some v → w = v := by
          intro w hw
          split_ifs at hw
          exact Option.some.inj hw
        simp only [Option.filter, htext, if_true, Option.map_some, Option.mem_def,
          Option.some.injEq, forall_eq', true_and, hstrip, iff_false, decide_eq_true_eq]
        exact fun h => hstrip (hout _ h)
    · simp [Option.filter, htext]

theorem loadFromFile_saveToFile (name : Bytes) :
    (dir.saveToFile name kf).loadFromFile name = some kf := by
  simp [DeviceStateDir.loadFromFile, DeviceStateDir.saveToFile]

theorem deviceStateLoad_write (h : state.Writable) :
    (∃ dir', deviceStateWrite dir state dhcp4Config dhcp6Config = some dir' ∧
      deviceStateLoad dir' state.ifindex = some state) ↔
    state.routeMetricDefaultAspired = state.routeMetricDefaultEffective ∧
      ∀ uuid ∈ state.connectionUuid, isUtf8 uuid ∧ strstrip uuid = uuid := by
  have hwrite : deviceStateWrite dir state dhcp4Config dhcp6Config =
      some (dir.saveToFile (formatUnsigned state.ifindex)
        (deviceStateKeyfile state dhcp4Config dhcp6Config)) := by
    rw [deviceStateWrite, if_neg h.ifindex, if_neg h.connectionUuid,
      if_neg (not_not_intro h.managed)]
  rw [← connectionUuid_kept h.connectionUuid]
  simp only [hwrite, Option.some.injEq, exists_eq_left', deviceStateLoad, loadFromFile_saveToFile,
    Option.map_some, configDeviceStateDataNew_keyfile h]
  cases state with
  | mk ifindex type aspired effective uuid mac owned generic => simp [eq_comm]

theorem aspired_le_effective :
    (configDeviceStateDataNew i kf).routeMetricDefaultAspired ≤
      (configDeviceStateDataNew i kf).routeMetricDefaultEffective := by
  have hrange : ∀ lo hi fallback : ℤ,
      keyfileGetInt64 kf "device" "route-metric-default-effective" 10 lo hi fallback ≤ hi ∨
        keyfileGetInt64 kf "device" "route-metric-default-effective" 10 lo hi fallback =
          fallback := by
    intro lo hi fallback
    unfold keyfileGetInt64
    split
    · exact .inr rfl
    · next str _ =>
      cases hread : asciiStrToInt64 str 10 lo hi with
      | none => exact .inr rfl
      | some n => exact .inl (asciiStrToInt64_range hread).2
  have heffective := hrange 1 (2 ^ 32 - 1) 0
  simp only [configDeviceStateDataNew]
  generalize keyfileGetInt64 kf "device" "route-metric-default-effective" 10 1 (2 ^ 32 - 1) 0 =
    effective at heffective
  split_ifs with hzero
  · have haspired := hrange 1 effective effective
    generalize keyfileGetInt64 kf "device" "route-metric-default-effective" 10 1 effective
      effective = aspired at haspired
    rw [UInt32.le_iff_toNat_le, UInt32.toNat_ofNat', UInt32.toNat_ofNat']
    omega
  · simp

/-! ## The directory -/

theorem parseFilename_le : (deviceStateParseFilename fn : ℤ) ≤ maxInt := by
  unfold deviceStateParseFilename
  split_ifs
  · decide
  · cases hread : asciiStrToInt64 fn 10 1 maxInt with
    | none => decide
    | some n =>
      have hrange := asciiStrToInt64_range hread
      rw [Option.getD_some]
      omega
  · decide

theorem parseFilename_formatUnsigned (hi : i ≠ 0) (hle : (i : ℤ) ≤ maxInt) :
    deviceStateParseFilename (formatUnsigned i) = i := by
  have hall : (formatUnsigned i).all isDigit :=
    all_eq_true.mpr fun _ => isDigit_of_mem_formatUnsigned
  have hread := asciiStrToInt64_of_range 1 maxInt
    (asciiStrToInt64_formatUnsigned (.inr rfl) (by decide) hle) (by omega) hle
  have hne : formatUnsigned i ≠ [] := digitsText_ne_nil i
  rw [deviceStateParseFilename, if_neg hne, if_neg (not_not_intro hall), hread]
  simp

def loadedIfindex (dir : DeviceStateDir) (fn : Bytes) : Option ℕ :=
  let ifindex := deviceStateParseFilename fn
  if ifindex ≠ 0 ∧ (dir.loadFromFile (formatUnsigned ifindex)).isSome then some ifindex else none

variable (dir fn) in
theorem loadNext_eq (states : List DeviceStateData) :
    (deviceStateLoadNext dir states fn = some states ∧ loadedIfindex dir fn = none) ∨
    ∃ state, loadedIfindex dir fn = some state.ifindex ∧
      deviceStateLoadNext dir states fn =
        if (lookup DeviceStateData.ifindex state.ifindex states).isSome then none
        else some (states ++ [state]) := by
  by_cases hzero : deviceStateParseFilename fn = 0
  · left
    simp [deviceStateLoadNext, loadedIfindex, hzero]
  · cases hload : dir.loadFromFile (formatUnsigned (deviceStateParseFilename fn)) with
    | none =>
      left
      simp [deviceStateLoadNext, loadedIfindex, hzero, deviceStateLoad, hload]
    | some kf =>
      right
      refine ⟨configDeviceStateDataNew (deviceStateParseFilename fn) kf, ?_, ?_⟩
      · simp [loadedIfindex, hzero, hload, configDeviceStateDataNew]
      · simp [deviceStateLoadNext, hzero, deviceStateLoad, hload, configDeviceStateDataNew]

theorem foldlM_loadNext_isSome {names : List Bytes} {states : List DeviceStateData}
    (hstates : KeyUnique DeviceStateData.ifindex states) :
    (names.foldlM (deviceStateLoadNext dir) states).isSome ↔
      (states.map DeviceStateData.ifindex ++ names.filterMap (loadedIfindex dir)).Nodup := by
  induction names generalizing states with
  | nil => simpa [KeyUnique] using hstates
  | cons fn names ih =>
    rw [foldlM_cons]
    rcases loadNext_eq dir fn states with ⟨hnext, hloaded⟩ | ⟨state, hloaded, hnext⟩
    · simp only [hnext, Option.bind_eq_bind, Option.bind_some, filterMap_cons, hloaded]
      exact ih hstates
    · simp only [hnext, filterMap_cons, hloaded]
      split_ifs with hmem
      · obtain ⟨x, hx, hxi⟩ := lookup_isSome_iff.mp hmem
        refine iff_of_false (by simp) fun hnodup => ?_
        have hdisjoint := (nodup_append.mp hnodup).2.2
        exact hdisjoint _ (mem_map_of_mem hx) _ mem_cons_self hxi
      · have hnew : ∀ x ∈ states, x.ifindex ≠ state.ifindex := by
          intro x hx hxi
          exact hmem (lookup_isSome_iff.mpr ⟨x, hx, hxi⟩)
        simp only [Option.bind_eq_bind, Option.bind_some]
        rw [ih (hstates.append_singleton hnew)]
        simp

/-- A name that is a number is the decimal form of the number. -/
def CanonicalName (fn : Bytes) : Prop := fn = formatUnsigned (deviceStateParseFilename fn)

theorem loadedIfindex_eq_some :
    loadedIfindex dir fn = some i ↔
      deviceStateParseFilename fn = i ∧ i ≠ 0 ∧ (dir.loadFromFile (formatUnsigned i)).isSome := by
  simp only [loadedIfindex]
  split_ifs with h
  · constructor
    · intro hi
      cases hi
      exact ⟨rfl, h⟩
    · rintro ⟨rfl, -⟩
      rfl
  · refine iff_of_false (by simp) ?_
    rintro ⟨rfl, hi⟩
    exact h hi

theorem deviceStateLoadAll_isSome :
    (deviceStateLoadAll dir).isSome ↔
      ∀ fn ∈ dir.files.map Prod.fst, deviceStateParseFilename fn ≠ 0 →
        (dir.loadFromFile (formatUnsigned (deviceStateParseFilename fn))).isSome →
          CanonicalName fn := by
  have hempty : KeyUnique DeviceStateData.ifindex [] := unique_nil
  rw [deviceStateLoadAll, foldlM_loadNext_isSome hempty, map_nil, nil_append,
    List.Nodup, pairwise_filterMap]
  constructor
  · intro hpairwise fn hfn hzero hload
    by_contra hcanonical
    have hself : formatUnsigned (deviceStateParseFilename fn) ∈ dir.files.map Prod.fst := by
      obtain ⟨kf, hkf⟩ := Option.isSome_iff_exists.mp hload
      obtain ⟨f, hf, -⟩ := Option.bind_eq_some_iff.mp hkf
      exact mem_map.mpr ⟨f, mem_of_lookup hf, key_of_lookup hf⟩
    have hsymm : Std.Symm fun a b => ∀ i, loadedIfindex dir a = some i →
        ∀ j, loadedIfindex dir b = some j → i ≠ j :=
      ⟨fun a b hab i hi j hj hij => hab j hj i hi hij.symm⟩
    have hne := hpairwise.forall hfn hself hcanonical
    apply hne (deviceStateParseFilename fn) (loadedIfindex_eq_some.mpr ⟨rfl, hzero, hload⟩) _ _ rfl
    exact loadedIfindex_eq_some.mpr
      ⟨parseFilename_formatUnsigned hzero parseFilename_le, hzero, hload⟩
  · intro hcanonical
    apply List.Pairwise.imp_of_mem _ dir.unique
    intro a b ha hb hab i hi j hj hij
    obtain ⟨hpa, hia, hla⟩ := loadedIfindex_eq_some.mp hi
    obtain ⟨hpb, hib, hlb⟩ := loadedIfindex_eq_some.mp hj
    subst hpa hpb
    have hca := hcanonical a ha hia hla
    have hcb := hcanonical b hb hib hlb
    rw [CanonicalName] at hca hcb
    exact hab (by rw [hca, hcb, hij])

theorem length_formatUnsigned_lt (hle : (i : ℤ) ≤ maxInt) :
    (formatUnsigned i).length < deviceStateFilenameLenMax + 1 := by
  have hlt : i < 10 ^ 10 := by
    simp only [maxInt] at hle
    omega
  have hlength : (formatUnsigned i).length ≤ 10 := by
    rw [formatUnsigned, digitsText, length_map]
    exact (Nat.length_toDigits_le_iff (by decide) (by decide)).mpr hlt
  simp only [deviceStateFilenameLenMax]
  omega

variable {preserveIfindexes preserveInPlatform : ℕ → Bool}

theorem deviceStatePruneStale_isSome :
    (deviceStatePruneStale dir preserveIfindexes preserveInPlatform).isSome ↔
      ∀ fn ∈ dir.files.map Prod.fst, deviceStateParseFilename fn ≠ 0 →
        preserveIfindexes (deviceStateParseFilename fn) = false →
        preserveInPlatform (deviceStateParseFilename fn) = false → CanonicalName fn := by
  have hnext : ∀ unlinked fn,
      (deviceStatePruneNext preserveIfindexes preserveInPlatform unlinked fn).isSome ↔
        (deviceStateParseFilename fn ≠ 0 →
          preserveIfindexes (deviceStateParseFilename fn) = false →
          preserveInPlatform (deviceStateParseFilename fn) = false → CanonicalName fn) := by
    intro unlinked fn
    simp only [deviceStatePruneNext]
    split_ifs with hzero hpreserve hplatform hname
    · simp [hzero]
    · simp [hpreserve]
    · simp [hplatform]
    · exact iff_of_true rfl fun _ _ _ => hname.2.symm
    · refine iff_of_false (by simp) fun h => hname ?_
      have hcanonical := h hzero (by simpa using hpreserve) (by simpa using hplatform)
      refine ⟨?_, hcanonical.symm⟩
      rw [hcanonical]
      exact length_formatUnsigned_lt parseFilename_le
  unfold deviceStatePruneStale
  generalize dir.files.map Prod.fst = names
  generalize ([] : List Bytes) = unlinked
  induction names generalizing unlinked with
  | nil => simp
  | cons fn names ih =>
    rw [foldlM_cons, forall_mem_cons, ← hnext unlinked fn]
    cases h : deviceStatePruneNext preserveIfindexes preserveInPlatform unlinked fn with
    | none => simp
    | some unlinked' => simpa using ih unlinked'

/-! ## What is remembered -/

/-- The device state files remember all that is written, and the names in the directory pass the
assertions, exactly if the aspired metric is the effective one, the connection UUID is text
without blanks around it, and no name with leading zeros is met. -/
theorem deviceState_remembered_iff (h : state.Writable) (dhcp4Config dhcp6Config : Option DhcpConfig)
    (dir : DeviceStateDir) (preserveIfindexes preserveInPlatform : ℕ → Bool) :
    ((∃ dir', deviceStateWrite dir state dhcp4Config dhcp6Config = some dir' ∧
        deviceStateLoad dir' state.ifindex = some state) ∧
      (∀ i kf, (configDeviceStateDataNew i kf).routeMetricDefaultAspired ≤
        (configDeviceStateDataNew i kf).routeMetricDefaultEffective) ∧
      (deviceStateLoadAll dir).isSome ∧
      (deviceStatePruneStale dir preserveIfindexes preserveInPlatform).isSome) ↔
    state.routeMetricDefaultAspired = state.routeMetricDefaultEffective ∧
      (∀ uuid ∈ state.connectionUuid, isUtf8 uuid ∧ strstrip uuid = uuid) ∧
      ∀ fn ∈ dir.files.map Prod.fst, deviceStateParseFilename fn ≠ 0 →
        ((dir.loadFromFile (formatUnsigned (deviceStateParseFilename fn))).isSome ∨
          (preserveIfindexes (deviceStateParseFilename fn) = false ∧
            preserveInPlatform (deviceStateParseFilename fn) = false)) →
        CanonicalName fn := by
  rw [deviceStateLoad_write h, deviceStateLoadAll_isSome, deviceStatePruneStale_isSome]
  constructor
  · rintro ⟨⟨hmetrics, huuid⟩, -, hload, hprune⟩
    refine ⟨hmetrics, huuid, fun fn hfn hzero hused => ?_⟩
    rcases hused with hread | ⟨hpreserve, hplatform⟩
    · exact hload fn hfn hzero hread
    · exact hprune fn hfn hzero hpreserve hplatform
  · rintro ⟨hmetrics, huuid, hnames⟩
    refine ⟨⟨hmetrics, huuid⟩, fun _ _ => aspired_le_effective, ?_, ?_⟩
    · exact fun fn hfn hzero hread => hnames fn hfn hzero (.inl hread)
    · exact fun fn hfn hzero hpreserve hplatform =>
        hnames fn hfn hzero (.inr ⟨hpreserve, hplatform⟩)

/-- A managed device whose metrics are the same. -/
theorem deviceState_remembered_same_metric :
    ∃ dir', deviceStateWrite ⟨[], unique_nil⟩
        ⟨7, .managed, 100, 100, some (ascii "uuid-1"), some (ascii "00:11:22:AA:BB:CC"), some true,
          true⟩ none none = some dir' ∧
      deviceStateLoad dir' 7 = some
        ⟨7, .managed, 100, 100, some (ascii "uuid-1"), some (ascii "00:11:22:AA:BB:CC"), some true,
          true⟩ :=
  ((deviceState_remembered_iff
    ⟨by decide, by decide, by decide, by decide, by decide, by decide⟩ none none ⟨[], unique_nil⟩
    (fun _ => false) (fun _ => false)).mpr
      ⟨rfl, fun uuid h => by
        obtain rfl := Option.some.inj h
        exact ⟨isUtf8_of_plain (by decide), strstrip_plain (by decide)⟩, by simp⟩).1

/-- An aspired metric below the effective one is not loaded again. -/
theorem deviceState_forgets_aspired :
    ¬ ∀ (state : DeviceStateData) (dir : DeviceStateDir), state.Writable →
      ∃ dir', deviceStateWrite dir state none none = some dir' ∧
        deviceStateLoad dir' state.ifindex = some state := by
  intro h
  have hwritable : (⟨7, .managed, 50, 100, none, none, none, false⟩ : DeviceStateData).Writable :=
    ⟨by decide, by decide, by decide, by decide, by decide, by decide⟩
  have hload := (deviceStateLoad_write hwritable).mp (h _ ⟨[], unique_nil⟩ hwritable)
  exact absurd hload.1 (by decide)

end NetworkManager.Core
