import NetworkManager.Core.ConfigKeyfile
import NetworkManager.GlibAux.Hwaddr

/-!
# Devices that match a list of specifications

`nm_match_spec_device()` evaluates a list of specifications on a device. What is parsed of the
device is kept from the first specification that needs it. A specification names a property of the
device by its tag; what it says is stated apart from how the code compares.
-/

namespace NetworkManager.Core

open Lib GlibAux

/-! ## Device data -/

structure MatchSpecDeviceData where
  interfaceName : Option Bytes
  deviceType : Option Bytes
  driver : Option Bytes
  driverVersion : Option Bytes
  dhcpPlugin : Option Bytes
  hwaddr : Option Bytes
  s390Subchannels : Option Bytes
deriving DecidableEq

inductive MatchSpecMatchType
  | noMatch
  | «match»
  | negMatch
deriving DecidableEq

/-- The hardware address of the device, which is parsed where it is needed first. -/
structure HwaddrMatchData where
  isParsed : Bool
  bin : Bytes
deriving DecidableEq

/-- The subchannels of the device, which are parsed where they are needed first. -/
structure S390MatchData where
  isParsed : Bool
  isGood : Bool
  abc : ℤ × ℤ × ℤ
deriving DecidableEq

/-- The data of the device with what was parsed of it. -/
structure MatchData where
  data : MatchSpecDeviceData
  deviceType : Option Bytes
  driver : Option Bytes
  driverVersion : Option Bytes
  dhcpPlugin : Option Bytes
  hwaddr : HwaddrMatchData
  s390Subchannels : S390MatchData
deriving DecidableEq

def strNotEmpty (str : Option Bytes) : Option Bytes := str.filter (· ≠ [])

/-! ## Evaluation of one specification -/

def strchrCut (c : UInt8) (s : Bytes) : Option (Bytes × Bytes) :=
  if c ∈ s then some (s.takeWhile (· ≠ c), (s.dropWhile (· ≠ c)).tail) else none

def subchannelNumber (str : Bytes) : Option ℤ := asciiStrToInt64 str 16 0 (2 ^ 32 - 1)

/-- `match_device_s390_subchannels_parse()`, where only the first channel counts. -/
def s390SubchannelsParse (s390Subchannels : Bytes) : Option (ℤ × ℤ × ℤ) :=
  if ¬ isXdigit (s390Subchannels.headD 0) then none
  else
    let buf := s390Subchannels.takeWhile (· ≠ (',' : UInt8))
    if ¬ (∀ ch ∈ buf, isXdigit ch ∨ ch = '.') ∨ 30 < buf.length then none
    else
      match strchrCut '.' buf with
      | none => none
      | some (pa, rest) =>
        match strchrCut '.' rest with
        | none => none
        | some (pb, pc) =>
          match subchannelNumber pa, subchannelNumber pb, subchannelNumber pc with
          | some a, some b, some c => some (a, b, c)
          | _, _, _ => none

def infinibandAlen : ℕ := 20

/-- `nm_utils_hwaddr_matches()` of a text and an address. -/
def hwaddrMatches (hwaddr1 : Bytes) (hwaddr2 : Bytes) : Bool :=
  match hwaddrAton hwaddr1 with
  | none => false
  | some hwaddr1 =>
    if hwaddr2.length ≠ hwaddr1.length then false
    else if hwaddr1.length = infinibandAlen then
      hwaddr1.drop (infinibandAlen - 8) = hwaddr2.drop (infinibandAlen - 8)
    else hwaddr1 = hwaddr2

def s390SubchannelsEval (specStr : Bytes) (m : MatchData) : Bool × MatchData :=
  let compare (m : MatchData) : Bool :=
    match s390SubchannelsParse specStr with
    | none => false
    | some abc => m.s390Subchannels.abc = abc
  if m.s390Subchannels.isParsed = false then
    match m.data.s390Subchannels.bind s390SubchannelsParse with
    | none => (false, { m with s390Subchannels := { m.s390Subchannels with isParsed := true } })
    | some abc =>
      let m := { m with s390Subchannels := ⟨true, true, abc⟩ }
      (compare m, m)
  else if m.s390Subchannels.isGood = false then (false, m)
  else (compare m, m)

def hwaddrEval (specStr : Bytes) (m : MatchData) : Bool × MatchData :=
  if m.hwaddr.isParsed = false then
    match m.data.hwaddr.bind hwaddrAton with
    | none => (false, { m with hwaddr := { m.hwaddr with isParsed := true } })
    | some bin => (hwaddrMatches specStr bin, { m with hwaddr := ⟨true, bin⟩ })
  else if m.hwaddr.bin = [] then (false, m)
  else (hwaddrMatches specStr m.hwaddr.bin, m)

/-- `_MATCH_CHECK()`: what is behind the tag, whose letters may be in upper case. -/
def matchCheck (specStr tag : Bytes) : Option Bytes :=
  if (specStr.take tag.length).map asciiToLower = tag then some (specStr.drop tag.length) else none

/-- `match_except()`: the specification without the tag, and whether it had the tag. -/
def matchExcept (specStr : Bytes) : Bytes × Bool :=
  match matchCheck specStr (ascii "except:") with
  | some specStr => (specStr, true)
  | none => (specStr, false)

section Eval

variable (patternMatchSimple : Bytes → Bytes → Bool)

/-- The comparison of a name of an interface. -/
def interfaceNameEval (specStr : Bytes) (m : MatchData) : Bool :=
  let (specStr, usePattern) : Bytes × Bool :=
    if specStr.head? = some ('=' : UInt8) then (specStr.tail, false)
    else if specStr.head? = some ('~' : UInt8) then (specStr.tail, true)
    else (specStr, true)
  match m.data.interfaceName with
  | some name => specStr = name || usePattern && patternMatchSimple specStr name
  | none => false

/-- The comparison of a driver, where `strncmp()` compares what is before the last slash. -/
def driverEval (specStr : Bytes) (m : MatchData) : Bool :=
  match m.driver with
  | none => false
  | some driver =>
    match splitLast '/' specStr with
    | none => specStr = driver
    | some (d, v) => driver.take d.length = d && patternMatchSimple v (m.driverVersion.getD [])

def matchDeviceEval (specStr : Bytes) (allowFuzzy : Bool) (m : MatchData) : Bool × MatchData :=
  if specStr = ascii "*" then (true, m)
  else if let some s := matchCheck specStr (ascii "type:") then (m.deviceType = some s, m)
  else if let some s := matchCheck specStr (ascii "mac:") then hwaddrEval s m
  else if let some s := matchCheck specStr (ascii "interface-name:") then
    (interfaceNameEval patternMatchSimple s m, m)
  else if let some s := matchCheck specStr (ascii "driver:") then
    (driverEval patternMatchSimple s m, m)
  else if let some s := matchCheck specStr (ascii "s390-subchannels:") then s390SubchannelsEval s m
  else if let some s := matchCheck specStr (ascii "dhcp-plugin:") then (m.dhcpPlugin = some s, m)
  else if allowFuzzy then
    match hwaddrEval specStr m with
    | (true, m) => (true, m)
    | (false, m) => (m.data.interfaceName = some specStr, m)
  else (false, m)

/-! ## The list -/

def matchResult (hasExcept hasNotExcept hasMatch hasMatchExcept : Bool) : MatchSpecMatchType :=
  if hasExcept && !hasNotExcept then if hasMatchExcept then .negMatch else .match
  else if hasMatchExcept then .negMatch
  else if hasMatch then .match
  else .noMatch

/-- The variables of the loop of `nm_match_spec_device()`. -/
structure MatchLoop where
  hasMatch : Bool
  hasMatchExcept : Bool
  hasExcept : Bool
  hasNotExcept : Bool
  matchData : MatchData
deriving DecidableEq

/-- A round of the loop of `nm_match_spec_device()`. -/
def matchSpecDeviceStep (l : MatchLoop) (specStr : Bytes) : MatchLoop :=
  if specStr = [] then l
  else
    let (specStr, except) := matchExcept specStr
    let l := if except then { l with hasExcept := true } else { l with hasNotExcept := true }
    if except && l.hasMatchExcept || !except && l.hasMatch then l
    else
      match matchDeviceEval patternMatchSimple specStr (!except) l.matchData with
      | (false, m) => { l with matchData := m }
      | (true, m) =>
        if except then { l with hasMatchExcept := true, matchData := m }
        else { l with hasMatch := true, matchData := m }

/-- What is known of the device before the loop. -/
def matchDataInit (data : MatchSpecDeviceData) : MatchData where
  data := data
  deviceType := strNotEmpty data.deviceType
  driver := strNotEmpty data.driver
  driverVersion := strNotEmpty data.driverVersion
  dhcpPlugin := strNotEmpty data.dhcpPlugin
  hwaddr := ⟨false, []⟩
  s390Subchannels := ⟨false, false, 0, 0, 0⟩

def matchSpecDevice (specs : List Bytes) (data : MatchSpecDeviceData) : MatchSpecMatchType :=
  if specs = [] then .noMatch
  else
    let l := specs.foldl (matchSpecDeviceStep patternMatchSimple)
      ⟨false, false, false, false, matchDataInit data⟩
    matchResult l.hasExcept l.hasNotExcept l.hasMatch l.hasMatchExcept

end Eval

/-! ## What was parsed of the device -/

/-- What is kept of the device is what is parsed of its data. -/
structure MatchData.Agrees (device : MatchSpecDeviceData) (m : MatchData) : Prop where
  data : m.data = device
  deviceType : m.deviceType = strNotEmpty device.deviceType
  driver : m.driver = strNotEmpty device.driver
  driverVersion : m.driverVersion = strNotEmpty device.driverVersion
  dhcpPlugin : m.dhcpPlugin = strNotEmpty device.dhcpPlugin
  hwaddr : m.hwaddr = ⟨false, []⟩ ∨ m.hwaddr = ⟨true, (device.hwaddr.bind hwaddrAton).getD []⟩
  s390Subchannels :
    m.s390Subchannels.isParsed = false ∧ m.s390Subchannels.isGood = false ∨
      m.s390Subchannels.isParsed = true ∧ device.s390Subchannels.bind s390SubchannelsParse =
        if m.s390Subchannels.isGood then some m.s390Subchannels.abc else none

theorem agrees_matchDataInit (device : MatchSpecDeviceData) :
    (matchDataInit device).Agrees device :=
  ⟨rfl, rfl, rfl, rfl, rfl, .inl rfl, .inl ⟨rfl, rfl⟩⟩

theorem hexstr2binLoop_ne_nil {delimiter : Option UInt8} {room : ℕ} {s : Bytes} :
    hexstr2binLoop delimiter room s ≠ some [] := by
  intro h
  cases room with
  | zero => cases h
  | succ room =>
    rw [hexstr2binLoop] at h
    split at h
    · cases h
    · cases h
    · split_ifs at h
      obtain ⟨t, -, ht⟩ := Option.map_eq_some_iff.mp h
      cases ht

def hwaddrHolds (device : MatchSpecDeviceData) (specStr : Bytes) : Bool :=
  (device.hwaddr.bind hwaddrAton).any (hwaddrMatches specStr)

def s390SubchannelsHolds (device : MatchSpecDeviceData) (specStr : Bytes) : Bool :=
  (device.s390Subchannels.bind s390SubchannelsParse).any fun abc =>
    s390SubchannelsParse specStr = some abc

section Agrees

variable {device : MatchSpecDeviceData} {m : MatchData}

theorem hwaddrEval_agrees (specStr : Bytes) (h : m.Agrees device) :
    (hwaddrEval specStr m).1 = hwaddrHolds device specStr ∧
      (hwaddrEval specStr m).2.Agrees device := by
  have hne : ∀ bin, device.hwaddr.bind hwaddrAton = some bin → bin ≠ [] := by
    rintro bin hbin rfl
    obtain ⟨asc, -, hasc⟩ := Option.bind_eq_some_iff.mp hbin
    exact hexstr2binLoop_ne_nil hasc
  unfold hwaddrEval hwaddrHolds
  obtain rfl := h.data
  rcases h.hwaddr with hfresh | hparsed
  · rw [hfresh, if_pos rfl]
    cases hbin : m.data.hwaddr.bind hwaddrAton with
    | none => exact ⟨rfl, { h with hwaddr := .inr (by rw [hbin]; rfl) }⟩
    | some bin => exact ⟨rfl, { h with hwaddr := .inr (by rw [hbin]; rfl) }⟩
  · rw [hparsed]
    cases hbin : m.data.hwaddr.bind hwaddrAton with
    | none => exact ⟨rfl, h⟩
    | some bin =>
      simp only [Bool.true_eq_false, if_false, Option.getD_some, hne bin hbin]
      exact ⟨rfl, h⟩

theorem s390SubchannelsEval_agrees (specStr : Bytes) (h : m.Agrees device) :
    (s390SubchannelsEval specStr m).1 = s390SubchannelsHolds device specStr ∧
      (s390SubchannelsEval specStr m).2.Agrees device := by
  unfold s390SubchannelsEval s390SubchannelsHolds
  obtain rfl := h.data
  rcases h.s390Subchannels with ⟨hfresh, hgood⟩ | ⟨hparsed, hgood⟩
  · rw [if_pos hfresh]
    cases habc : m.data.s390Subchannels.bind s390SubchannelsParse with
    | none =>
      refine ⟨rfl, { h with s390Subchannels := .inr ⟨rfl, ?_⟩ }⟩
      rw [habc, hgood]
      rfl
    | some abc =>
      refine ⟨?_, { h with s390Subchannels := .inr ⟨rfl, by rw [habc]; rfl⟩ }⟩
      cases s390SubchannelsParse specStr with
      | none => rfl
      | some spec => simp [eq_comm]
  · rw [hparsed, if_neg (by decide), hgood]
    cases hisGood : m.s390Subchannels.isGood with
    | false => exact ⟨rfl, h⟩
    | true =>
      refine ⟨?_, h⟩
      cases s390SubchannelsParse specStr with
      | none => rfl
      | some spec => simp [eq_comm]

end Agrees

/-! ## What a specification says -/

/-- A specification of devices by its kind. -/
inductive DeviceSpec
  | any
  | deviceType (s : Bytes)
  | mac (s : Bytes)
  | interfaceName (usePattern : Bool) (s : Bytes)
  | driver (d : Bytes)
  | driverVersion (d v : Bytes)
  | s390Subchannels (s : Bytes)
  | dhcpPlugin (s : Bytes)
  | plain (s : Bytes)
deriving DecidableEq

def DeviceSpec.ofInterfaceName (s : Bytes) : DeviceSpec :=
  if s.head? = some ('=' : UInt8) then .interfaceName false s.tail
  else if s.head? = some ('~' : UInt8) then .interfaceName true s.tail
  else .interfaceName true s

def DeviceSpec.ofDriver (s : Bytes) : DeviceSpec :=
  match splitLast '/' s with
  | none => .driver s
  | some (d, v) => .driverVersion d v

/-- The specification that a text is, which may not be an exception. -/
def DeviceSpec.ofText (specStr : Bytes) : DeviceSpec :=
  if specStr = ascii "*" then .any
  else if let some s := matchCheck specStr (ascii "type:") then .deviceType s
  else if let some s := matchCheck specStr (ascii "mac:") then .mac s
  else if let some s := matchCheck specStr (ascii "interface-name:") then .ofInterfaceName s
  else if let some s := matchCheck specStr (ascii "driver:") then .ofDriver s
  else if let some s := matchCheck specStr (ascii "s390-subchannels:") then .s390Subchannels s
  else if let some s := matchCheck specStr (ascii "dhcp-plugin:") then .dhcpPlugin s
  else .plain specStr

section Meaning

variable (patternMatchSimple : Bytes → Bytes → Bool) (device : MatchSpecDeviceData)

def versionMatches (v : Bytes) : Bool :=
  patternMatchSimple v ((strNotEmpty device.driverVersion).getD [])

/-- The device has the property: a driver is compared literally, also where its version is a
pattern. A text without a tag may be a hardware address or a name where that is allowed. -/
def DeviceSpec.Holds (allowFuzzy : Bool) : DeviceSpec → Prop
  | .any => True
  | .deviceType s => strNotEmpty device.deviceType = some s
  | .mac s => hwaddrHolds device s
  | .interfaceName usePattern s =>
    ∃ name ∈ device.interfaceName, s = name ∨ usePattern ∧ patternMatchSimple s name
  | .driver d => strNotEmpty device.driver = some d
  | .driverVersion d v =>
    strNotEmpty device.driver = some d ∧ versionMatches patternMatchSimple device v
  | .s390Subchannels s => s390SubchannelsHolds device s
  | .dhcpPlugin s => strNotEmpty device.dhcpPlugin = some s
  | .plain s => allowFuzzy ∧ (hwaddrHolds device s ∨ device.interfaceName = some s)

/-- The version is like the pattern, and the driver of the device is longer than the one that is
asked for. -/
def DeviceSpec.Extends : DeviceSpec → Prop
  | .driverVersion d v =>
    (∃ driver ∈ strNotEmpty device.driver, d <+: driver ∧ d ≠ driver) ∧
      versionMatches patternMatchSimple device v
  | _ => False

variable {patternMatchSimple} {device} {m : MatchData}

theorem interfaceNameEval_iff (s : Bytes) (allowFuzzy : Bool) (h : m.Agrees device) :
    interfaceNameEval patternMatchSimple s m ↔
      (DeviceSpec.ofInterfaceName s).Holds patternMatchSimple device allowFuzzy ∨
        (DeviceSpec.ofInterfaceName s).Extends patternMatchSimple device := by
  unfold interfaceNameEval DeviceSpec.ofInterfaceName
  rw [h.data]
  split_ifs
  all_goals
    simp only [DeviceSpec.Holds, DeviceSpec.Extends, or_false]
    cases device.interfaceName with
    | none => simp
    | some name => simp

theorem driverEval_iff (s : Bytes) (allowFuzzy : Bool) (h : m.Agrees device) :
    driverEval patternMatchSimple s m ↔
      (DeviceSpec.ofDriver s).Holds patternMatchSimple device allowFuzzy ∨
        (DeviceSpec.ofDriver s).Extends patternMatchSimple device := by
  have hcut (d driver : Bytes) :
      driver.take d.length = d ↔ driver = d ∨ d <+: driver ∧ d ≠ driver := by
    rw [eq_comm, ← List.prefix_iff_eq_take]
    by_cases hd : driver = d
    · simp [hd]
    · simp [hd, Ne.symm hd]
  unfold driverEval DeviceSpec.ofDriver
  rw [h.driver, h.driverVersion]
  cases splitLast '/' s with
  | none =>
    simp only [DeviceSpec.Holds, DeviceSpec.Extends, or_false]
    cases strNotEmpty device.driver with
    | none => simp
    | some driver => simp [eq_comm]
  | some dv =>
    obtain ⟨d, v⟩ := dv
    simp only [DeviceSpec.Holds, DeviceSpec.Extends, ← or_and_right]
    cases strNotEmpty device.driver with
    | none => simp
    | some driver => simp [hcut, versionMatches]

theorem plainEval_iff (specStr : Bytes) (allowFuzzy : Bool) (h : m.Agrees device) :
    let result :=
      if allowFuzzy then
        match hwaddrEval specStr m with
        | (true, m) => (true, m)
        | (false, m) => (decide (m.data.interfaceName = some specStr), m)
      else (false, m)
    (result.1 ↔ (DeviceSpec.plain specStr).Holds patternMatchSimple device allowFuzzy ∨
        (DeviceSpec.plain specStr).Extends patternMatchSimple device) ∧
      result.2.Agrees device := by
  simp only [DeviceSpec.Holds, DeviceSpec.Extends, or_false]
  cases allowFuzzy with
  | false => exact ⟨by simp, h⟩
  | true =>
    obtain ⟨heval, hagrees⟩ := hwaddrEval_agrees specStr h
    rw [← heval]
    generalize hwaddrEval specStr m = r at hagrees
    rcases r with ⟨_ | _, m⟩
    · have hdata : m.data = device := hagrees.data
      exact ⟨by simp [hdata], hagrees⟩
    · exact ⟨by simp, hagrees⟩

theorem matchDeviceEval_iff (specStr : Bytes) (allowFuzzy : Bool) (h : m.Agrees device) :
    ((matchDeviceEval patternMatchSimple specStr allowFuzzy m).1 ↔
        (DeviceSpec.ofText specStr).Holds patternMatchSimple device allowFuzzy ∨
          (DeviceSpec.ofText specStr).Extends patternMatchSimple device) ∧
      (matchDeviceEval patternMatchSimple specStr allowFuzzy m).2.Agrees device := by
  unfold matchDeviceEval DeviceSpec.ofText
  by_cases hany : specStr = ascii "*"
  · rw [if_pos hany, if_pos hany]
    exact ⟨by simp [DeviceSpec.Holds], h⟩
  · rw [if_neg hany, if_neg hany]
    cases matchCheck specStr (ascii "type:") with
    | some s => exact ⟨by simp [DeviceSpec.Holds, DeviceSpec.Extends, h.deviceType], h⟩
    | none =>
      cases matchCheck specStr (ascii "mac:") with
      | some s =>
        obtain ⟨heval, hagrees⟩ := hwaddrEval_agrees s h
        exact ⟨by simp [DeviceSpec.Holds, DeviceSpec.Extends, heval], hagrees⟩
      | none =>
        cases matchCheck specStr (ascii "interface-name:") with
        | some s => exact ⟨interfaceNameEval_iff s allowFuzzy h, h⟩
        | none =>
          cases matchCheck specStr (ascii "driver:") with
          | some s => exact ⟨driverEval_iff s allowFuzzy h, h⟩
          | none =>
            cases matchCheck specStr (ascii "s390-subchannels:") with
            | some s =>
              obtain ⟨heval, hagrees⟩ := s390SubchannelsEval_agrees s h
              exact ⟨by simp [DeviceSpec.Holds, DeviceSpec.Extends, heval], hagrees⟩
            | none =>
              cases matchCheck specStr (ascii "dhcp-plugin:") with
              | some s => exact ⟨by simp [DeviceSpec.Holds, DeviceSpec.Extends, h.dhcpPlugin], h⟩
              | none => exact plainEval_iff specStr allowFuzzy h

/-! ## The list of specifications -/

variable (patternMatchSimple) (device)

/-- A specification of the list, an exception or none, of which something is true. -/
def SomeSpec (specs : List Bytes) (except : Bool) (p : DeviceSpec → Prop) : Prop :=
  ∃ spec ∈ specs, spec ≠ [] ∧ (matchExcept spec).2 = except ∧
    p (DeviceSpec.ofText (matchExcept spec).1)

/-- The documented meaning of a list for a device. An exception never matches fuzzily. -/
def MatchMeaning (specs : List Bytes) : MatchSpecMatchType → Prop
  | .negMatch => SomeSpec specs true (·.Holds patternMatchSimple device false)
  | .match =>
    ¬ SomeSpec specs true (·.Holds patternMatchSimple device false) ∧
      (SomeSpec specs false (·.Holds patternMatchSimple device true) ∨
        SomeSpec specs true (fun _ => True) ∧ ¬ SomeSpec specs false fun _ => True)
  | .noMatch =>
    ¬ SomeSpec specs true (·.Holds patternMatchSimple device false) ∧
      ¬ (SomeSpec specs false (·.Holds patternMatchSimple device true) ∨
        SomeSpec specs true (fun _ => True) ∧ ¬ SomeSpec specs false fun _ => True)

/-- The flags of the loop say what was found so far. -/
structure MatchLoop.Found (l : MatchLoop) (specs : List Bytes) : Prop where
  hasMatch : l.hasMatch ↔ SomeSpec specs false fun spec =>
    spec.Holds patternMatchSimple device true ∨ spec.Extends patternMatchSimple device
  hasMatchExcept : l.hasMatchExcept ↔ SomeSpec specs true fun spec =>
    spec.Holds patternMatchSimple device false ∨ spec.Extends patternMatchSimple device
  hasExcept : l.hasExcept ↔ SomeSpec specs true fun _ => True
  hasNotExcept : l.hasNotExcept ↔ SomeSpec specs false fun _ => True
  matchData : l.matchData.Agrees device

variable {patternMatchSimple} {device} {specs specs' : List Bytes} {except : Bool}
  {p q : DeviceSpec → Prop}

theorem someSpec_concat {spec : Bytes} :
    SomeSpec (specs ++ [spec]) except p ↔ SomeSpec specs except p ∨
      (spec ≠ [] ∧ (matchExcept spec).2 = except ∧ p (DeviceSpec.ofText (matchExcept spec).1)) := by
  simp only [SomeSpec, List.mem_append, List.mem_singleton, or_and_right, exists_or,
    exists_eq_left]

theorem MatchLoop.Found.step {l : MatchLoop} (h : l.Found patternMatchSimple device specs)
    (spec : Bytes) :
    (matchSpecDeviceStep patternMatchSimple l spec).Found patternMatchSimple device
      (specs ++ [spec]) := by
  by_cases hempty : spec = []
  · have hsame (except : Bool) (p : DeviceSpec → Prop) :
        SomeSpec (specs ++ [spec]) except p ↔ SomeSpec specs except p := by
      simp [someSpec_concat, hempty]
    rw [matchSpecDeviceStep, if_pos hempty]
    exact ⟨h.hasMatch.trans (hsame _ _).symm, h.hasMatchExcept.trans (hsame _ _).symm,
      h.hasExcept.trans (hsame _ _).symm, h.hasNotExcept.trans (hsame _ _).symm, h.matchData⟩
  · rw [matchSpecDeviceStep, if_neg hempty]
    rcases hspec : matchExcept spec with ⟨s, _ | _⟩
    · have hother (p : DeviceSpec → Prop) :
          SomeSpec (specs ++ [spec]) true p ↔ SomeSpec specs true p := by
        simp [someSpec_concat, hspec]
      have hnew (p : DeviceSpec → Prop) : SomeSpec (specs ++ [spec]) false p ↔
          SomeSpec specs false p ∨ p (DeviceSpec.ofText s) := by
        simp [someSpec_concat, hempty, hspec]
      have hexcept := h.hasExcept.trans (hother _).symm
      have hmatchExcept := h.hasMatchExcept.trans (hother _).symm
      obtain ⟨heval, hagrees⟩ := matchDeviceEval_iff s true h.matchData
      by_cases hmatch : l.hasMatch
      · simp only [Bool.false_eq_true, if_false, Bool.false_and, Bool.not_false, Bool.true_and,
          Bool.false_or, hmatch, if_true]
        exact ⟨by simp [hnew, ← h.hasMatch, hmatch], hmatchExcept, hexcept, by simp [hnew],
          h.matchData⟩
      · simp only [Bool.false_eq_true, if_false, Bool.false_and, Bool.not_false, Bool.true_and,
          Bool.false_or, hmatch]
        generalize matchDeviceEval patternMatchSimple s true l.matchData = r at heval hagrees
        rcases r with ⟨_ | _, m⟩
        · exact ⟨by simp [hnew, ← h.hasMatch, hmatch, ← heval], hmatchExcept, hexcept,
            by simp [hnew], hagrees⟩
        · exact ⟨by simp [hnew, ← heval], hmatchExcept, hexcept, by simp [hnew], hagrees⟩
    · have hother (p : DeviceSpec → Prop) :
          SomeSpec (specs ++ [spec]) false p ↔ SomeSpec specs false p := by
        simp [someSpec_concat, hspec]
      have hnew (p : DeviceSpec → Prop) : SomeSpec (specs ++ [spec]) true p ↔
          SomeSpec specs true p ∨ p (DeviceSpec.ofText s) := by
        simp [someSpec_concat, hempty, hspec]
      have hnotExcept := h.hasNotExcept.trans (hother _).symm
      have hmatchOther := h.hasMatch.trans (hother _).symm
      obtain ⟨heval, hagrees⟩ :=
        @matchDeviceEval_iff patternMatchSimple device _ s false h.matchData
      by_cases hmatch : l.hasMatchExcept
      · simp only [if_true, Bool.not_true, Bool.false_and, Bool.true_and, Bool.or_false, hmatch]
        exact ⟨hmatchOther, by simp [hnew, ← h.hasMatchExcept, hmatch], by simp [hnew], hnotExcept,
          h.matchData⟩
      · simp only [if_true, Bool.not_true, Bool.false_and, Bool.true_and, Bool.or_false, hmatch,
          Bool.false_eq_true, if_false]
        generalize matchDeviceEval patternMatchSimple s false l.matchData = r at heval hagrees
        rcases r with ⟨_ | _, m⟩
        · exact ⟨hmatchOther, by simp [hnew, ← h.hasMatchExcept, hmatch, ← heval], by simp [hnew],
            hnotExcept, hagrees⟩
        · exact ⟨hmatchOther, by simp [hnew, ← heval], by simp [hnew], hnotExcept, hagrees⟩

theorem found_foldl (specs : List Bytes) :
    (specs.foldl (matchSpecDeviceStep patternMatchSimple)
      ⟨false, false, false, false, matchDataInit device⟩).Found patternMatchSimple device
        specs := by
  induction specs using List.reverseRecOn with
  | nil => exact ⟨by simp [SomeSpec], by simp [SomeSpec], by simp [SomeSpec], by simp [SomeSpec],
      agrees_matchDataInit device⟩
  | append_singleton specs spec ih =>
    rw [List.foldl_append]
    exact ih.step spec

theorem matchSpecDevice_eq (specs : List Bytes) :
    ∃ l : MatchLoop, l.Found patternMatchSimple device specs ∧
      matchSpecDevice patternMatchSimple specs device =
        matchResult l.hasExcept l.hasNotExcept l.hasMatch l.hasMatchExcept := by
  refine ⟨_, found_foldl specs, ?_⟩
  rw [matchSpecDevice]
  split_ifs with hempty
  · rw [hempty]
    rfl
  · rfl

theorem SomeSpec.mono (h : SomeSpec specs except p) (hpq : ∀ spec, p spec → q spec)
    : SomeSpec specs except q := by
  obtain ⟨spec, hmem, hne, hexcept, hp⟩ := h
  exact ⟨spec, hmem, hne, hexcept, hpq _ hp⟩

theorem someSpec_or :
    (SomeSpec specs except fun spec => p spec ∨ q spec) ↔
      SomeSpec specs except p ∨ SomeSpec specs except q := by
  simp only [SomeSpec, and_or_left, exists_or]

theorem someSpec_perm (h : specs.Perm specs') (except : Bool) (p : DeviceSpec → Prop)
    : SomeSpec specs except p ↔ SomeSpec specs' except p := by
  simp only [SomeSpec, h.mem_iff]

theorem matchSpecDevice_perm (h : specs.Perm specs') :
    matchSpecDevice patternMatchSimple specs device =
      matchSpecDevice patternMatchSimple specs' device := by
  obtain ⟨l, hl, heq⟩ := @matchSpecDevice_eq patternMatchSimple device specs
  obtain ⟨l', hl', heq'⟩ := @matchSpecDevice_eq patternMatchSimple device specs'
  have hexcept : l.hasExcept = l'.hasExcept := Bool.eq_iff_iff.mpr
    ((hl.hasExcept.trans (someSpec_perm h _ _)).trans hl'.hasExcept.symm)
  have hnotExcept : l.hasNotExcept = l'.hasNotExcept := Bool.eq_iff_iff.mpr
    ((hl.hasNotExcept.trans (someSpec_perm h _ _)).trans hl'.hasNotExcept.symm)
  have hmatch : l.hasMatch = l'.hasMatch := Bool.eq_iff_iff.mpr
    ((hl.hasMatch.trans (someSpec_perm h _ _)).trans hl'.hasMatch.symm)
  have hmatchExcept : l.hasMatchExcept = l'.hasMatchExcept := Bool.eq_iff_iff.mpr
    ((hl.hasMatchExcept.trans (someSpec_perm h _ _)).trans hl'.hasMatchExcept.symm)
  rw [heq, heq', hexcept, hnotExcept, hmatch, hmatchExcept]

variable (patternMatchSimple device)

/-- Where an exception asks for a driver that the driver of the device extends, another exception
holds. Where another specification does, one holds that is no exception, or an exception does. -/
def DriverMakesNoDifference (specs : List Bytes) : Prop :=
  (SomeSpec specs true (·.Extends patternMatchSimple device) →
      SomeSpec specs true (·.Holds patternMatchSimple device false)) ∧
    (SomeSpec specs false (·.Extends patternMatchSimple device) →
      SomeSpec specs false (·.Holds patternMatchSimple device true) ∨
        SomeSpec specs true (·.Holds patternMatchSimple device false))

/-- The result has the documented meaning exactly if it makes no difference that a driver is only
compared up to the length of the one that is asked for. The order of the list never matters. -/
theorem matchSpecDevice_meaning (specs : List Bytes) :
    (MatchMeaning patternMatchSimple device specs
          (matchSpecDevice patternMatchSimple specs device) ↔
        DriverMakesNoDifference patternMatchSimple device specs) ∧
      ∀ specs', specs.Perm specs' → matchSpecDevice patternMatchSimple specs device =
        matchSpecDevice patternMatchSimple specs' device := by
  refine ⟨?_, fun specs' h => matchSpecDevice_perm h⟩
  obtain ⟨l, hl, heq⟩ := @matchSpecDevice_eq patternMatchSimple device specs
  have hmatch := hl.hasMatch.trans someSpec_or
  have hmatchExcept := hl.hasMatchExcept.trans someSpec_or
  have hextends : SomeSpec specs false (·.Extends patternMatchSimple device) →
      SomeSpec specs false fun _ => True := fun h => h.mono fun _ _ => trivial
  have hholds : SomeSpec specs false (·.Holds patternMatchSimple device true) →
      SomeSpec specs false fun _ => True := fun h => h.mono fun _ _ => trivial
  have hexcept := hl.hasExcept
  have hnotExcept := hl.hasNotExcept
  rw [heq, matchResult, DriverMakesNoDifference]
  cases hE : l.hasMatchExcept with
  | true =>
    rw [hE] at hmatchExcept
    have hor := hmatchExcept.mp rfl
    simp only [if_true, ite_self, MatchMeaning]
    exact ⟨fun h => ⟨fun _ => h, fun _ => .inr h⟩, fun h => hor.elim id h.1⟩
  | false =>
    rw [hE] at hmatchExcept
    obtain ⟨hnot, hnotExtends⟩ := not_or.mp (mt hmatchExcept.mpr Bool.false_ne_true)
    simp only [Bool.false_eq_true, if_false, hnot, hnotExtends, false_imp_iff, true_and, or_false]
    cases hM : l.hasMatch <;> cases hX : l.hasExcept <;> cases hN : l.hasNotExcept
    all_goals
      simp only [hM, hX, hN, Bool.false_eq_true, false_iff, true_iff] at hmatch hexcept hnotExcept
      simp [MatchMeaning, hnot, hexcept, hnotExcept]
      try tauto

end Meaning

def starMatchSimple (pattern str : Bytes) : Bool := pattern = ascii "*" || pattern = str

/-- A device with a driver. -/
def e1000eDevice : MatchSpecDeviceData where
  interfaceName := some (ascii "eth0")
  deviceType := some (ascii "ethernet")
  driver := some (ascii "e1000e")
  driverVersion := some (ascii "3.2")
  dhcpPlugin := none
  hwaddr := none
  s390Subchannels := none

theorem matchSpecDevice_meaning_driver :
    MatchMeaning starMatchSimple e1000eDevice [ascii "driver:e1000e/*", ascii "except:eth0"]
        (matchSpecDevice starMatchSimple [ascii "driver:e1000e/*", ascii "except:eth0"]
          e1000eDevice) ∧
      matchSpecDevice starMatchSimple [ascii "driver:e1000e/*", ascii "except:eth0"]
          e1000eDevice =
        matchSpecDevice starMatchSimple [ascii "except:eth0", ascii "driver:e1000e/*"]
          e1000eDevice := by
  have hdriver : (matchExcept (ascii "driver:e1000e/*")) = (ascii "driver:e1000e/*", false) := by
    decide
  have hexcept : (matchExcept (ascii "except:eth0")) = (ascii "eth0", true) := by decide
  have hdriverText : DeviceSpec.ofText (ascii "driver:e1000e/*") =
      .driverVersion (ascii "e1000e") (ascii "*") := by decide
  have hexceptText : DeviceSpec.ofText (ascii "eth0") = .plain (ascii "eth0") := by decide
  have hsame : strNotEmpty e1000eDevice.driver = some (ascii "e1000e") := by decide
  have hextends : ∀ except, ¬ SomeSpec [ascii "driver:e1000e/*", ascii "except:eth0"] except
      (·.Extends starMatchSimple e1000eDevice) := by
    rintro except ⟨spec, hmem, -, -, hspec⟩
    simp only [List.mem_cons, List.not_mem_nil, or_false] at hmem
    rcases hmem with rfl | rfl
    · rw [hdriver, hdriverText] at hspec
      obtain ⟨⟨driver, hmem, -, hne⟩, -⟩ := hspec
      exact hne (Option.some.inj (hsame.symm.trans hmem))
    · rw [hexcept, hexceptText] at hspec
      exact hspec
  have h := matchSpecDevice_meaning starMatchSimple e1000eDevice
    [ascii "driver:e1000e/*", ascii "except:eth0"]
  exact ⟨h.1.mpr ⟨fun he => absurd he (hextends true), fun he => absurd he (hextends false)⟩,
    h.2 _ (List.Perm.swap _ _ [])⟩

/-- A device with the driver `e1000e` matches where the driver `e1000` is asked for. -/
theorem matchSpecDevice_not_meaning :
    matchSpecDevice starMatchSimple [ascii "driver:e1000/*"] e1000eDevice = .match ∧
      ¬ MatchMeaning starMatchSimple e1000eDevice [ascii "driver:e1000/*"]
        (matchSpecDevice starMatchSimple [ascii "driver:e1000/*"] e1000eDevice) := by
  have hresult : matchSpecDevice starMatchSimple [ascii "driver:e1000/*"] e1000eDevice =
      .match := by decide
  have hdriver : (matchExcept (ascii "driver:e1000/*")) = (ascii "driver:e1000/*", false) := by
    decide
  have hdriverText : DeviceSpec.ofText (ascii "driver:e1000/*") =
      .driverVersion (ascii "e1000") (ascii "*") := by decide
  refine ⟨hresult, ?_⟩
  rw [hresult]
  rintro ⟨-, ⟨spec, hmem, -, -, hspec⟩ | ⟨⟨spec, hmem, -, hexcept, -⟩, -⟩⟩
  · rw [List.mem_singleton.mp hmem, hdriver, hdriverText] at hspec
    have hne : strNotEmpty e1000eDevice.driver ≠ some (ascii "e1000") := by decide
    exact hne hspec.1
  · rw [List.mem_singleton.mp hmem, hdriver] at hexcept
    cases hexcept

end NetworkManager.Core
