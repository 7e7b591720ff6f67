import NetworkManager.Lib.Checks

/-!
# Completing a Wi-Fi profile

`nm_wifi_utils_complete_connection()` fills in what a profile leaves out for an access point. A
check that fails returns the error code, the property path that prefixes the message, and the
message.
-/

namespace NetworkManager.Core

open Lib

/-! ## Errors -/

/-- `NMConnectionError`, the codes that are used here -/
inductive WifiErrorCode where
  | failed | invalidSetting | missingSetting | invalidProperty | missingProperty
deriving DecidableEq

/-- `GError` after `g_prefix_error()` -/
structure WifiError where
  code : WifiErrorCode
  path : String
  text : String
deriving DecidableEq

/-- `NM_SETTING_WIRELESS_SECURITY_SETTING_NAME` -/
def wsecName : String := "802-11-wireless-security"

/-- `NM_SETTING_802_1X_SETTING_NAME` -/
def s8021xName : String := "802-1x"

/-- `g_set_error()` with `g_prefix_error()` when the check fails -/
def failIf (c : Prop) [Decidable c] (code : WifiErrorCode) (path text : String) :
    Except WifiError Unit :=
  failWith c ⟨code, path, text⟩

@[simp] theorem failIf_ok_iff {c : Prop} [Decidable c] {code : WifiErrorCode}
    {path text : String} : failIf c code path text = .ok () ↔ ¬c :=
  failWith_ok_iff

/-! ## Settings and access points -/

/-- `NMSettingWireless`, what the completion reads and writes -/
structure Wireless where
  ssid : Option (List UInt8) := none
  bssid : Option String := none
  mode : Option String := none
  band : Option String := none
  channel : ℕ := 0
deriving DecidableEq

/-- `NMSettingWirelessSecurity`, what the completion reads and writes -/
structure WirelessSecurity where
  keyMgmt : Option String := none
  authAlg : Option String := none
  leapUsername : Option String := none
  psk : Option String := none
  wepKey0 : Option String := none
  wepKey1 : Option String := none
  wepKey2 : Option String := none
  wepKey3 : Option String := none
  wepTxKeyidx : ℕ := 0
  wepKeyType : ℕ := 0
  proto : List String := []
  pairwise : List String := []
  group : List String := []
deriving DecidableEq

/-- The settings of an `NMConnection`; the 802.1X setting is only passed on to its check. -/
structure WifiProfile (X : Type) where
  wifi : Wireless
  wsec : Option WirelessSecurity := none
  s8021x : Option X := none
deriving DecidableEq

/-- `_NM80211Mode` -/
inductive ApMode where
  | unknown | adhoc | infra | ap | mesh
deriving DecidableEq

structure AccessPoint where
  ssid : Option (List UInt8)
  bssid : Option String
  mode : ApMode
  freq : ℕ
  flags : UInt32
  wpaFlags : UInt32
  rsnFlags : UInt32
deriving DecidableEq

/-- The functions that are only called: `nm_utils_wifi_freq_to_channel()`,
`nm_utils_wifi_freq_to_band()` and `nm_setting_verify()` of the 802.1X setting -/
structure WifiEnv (X : Type) where
  freqToChannel : ℕ → ℕ
  freqToBand : ℕ → Option String
  verify8021x : X → Except WifiError Unit

namespace AccessPoint

def privacy (ap : AccessPoint) : Bool := ap.flags &&& 0x1 != 0

def noWpa (ap : AccessPoint) : Bool := ap.wpaFlags == 0 && ap.rsnFlags == 0

/-- `NM_802_11_AP_SEC_KEY_MGMT_PSK` -/
def hasPsk (ap : AccessPoint) : Bool :=
  ap.wpaFlags &&& 0x100 != 0 || ap.rsnFlags &&& 0x100 != 0

/-- `NM_802_11_AP_SEC_KEY_MGMT_802_1X` -/
def hasEap (ap : AccessPoint) : Bool :=
  ap.wpaFlags &&& 0x200 != 0 || ap.rsnFlags &&& 0x200 != 0

/-- `NM_802_11_AP_SEC_KEY_MGMT_SAE` -/
def hasSae (ap : AccessPoint) : Bool := ap.rsnFlags &&& 0x400 != 0

/-- `NM_802_11_AP_SEC_KEY_MGMT_OWE | NM_802_11_AP_SEC_KEY_MGMT_OWE_TM` -/
def hasOwe (ap : AccessPoint) : Bool := ap.rsnFlags &&& 0x1800 != 0

/-- `NM_802_11_AP_SEC_KEY_MGMT_EAP_SUITE_B_192` -/
def hasSuiteB (ap : AccessPoint) : Bool := ap.rsnFlags &&& 0x2000 != 0

end AccessPoint

/-! ## The checks of the security setting -/

namespace WirelessSecurity

variable {X : Type}

/-- A WEP key, a key index or a key type is set. -/
def HasWep (s : WirelessSecurity) : Prop :=
  s.wepKey0.isSome ∨ s.wepKey1.isSome ∨ s.wepKey2.isSome ∨ s.wepKey3.isSome ∨
    s.wepTxKeyidx ≠ 0 ∨ s.wepKeyType ≠ 0

instance (s : WirelessSecurity) : Decidable s.HasWep := by
  unfold HasWep
  infer_instance

def verifyNoWep (s : WirelessSecurity) (tag : String) : Except WifiError Unit :=
  failIf s.HasWep .invalidSetting wsecName (tag ++ " is incompatible with static WEP keys")

def verifyLeap (s : WirelessSecurity) (s8021x : Option X) (adhoc : Bool) :
    Except WifiError Unit := do
  failIf (s.authAlg = some "leap" ∧ s.leapUsername = none) .missingProperty
    (wsecName ++ ".leap-username") "LEAP authentication requires a LEAP username"
  failIf (s.authAlg ≠ none ∧ s.authAlg ≠ some "leap" ∧ s.leapUsername ≠ none) .invalidProperty
    (wsecName ++ ".leap-username") "LEAP username requires 'leap' authentication"
  failIf (s.leapUsername ≠ none ∧ s.keyMgmt ≠ none ∧ s.keyMgmt ≠ some "ieee8021x")
    .invalidProperty (wsecName ++ ".key-mgmt")
    "LEAP authentication requires IEEE 802.1x key management"
  if s.leapUsername ≠ none then do
    failIf (adhoc = true) .invalidSetting wsecName
      "LEAP authentication is incompatible with Ad-Hoc mode"
    s.verifyNoWep "LEAP"
    failIf (s8021x.isSome = true) .invalidSetting s8021xName
      "LEAP authentication is incompatible with 802.1x setting"
  else pure ()

def verifyNoWpa (s : WirelessSecurity) (tag : String) : Except WifiError Unit := do
  failIf (∃ k ∈ s.keyMgmt, "wpa".toList.isPrefixOf k.toList) .invalidProperty
    (wsecName ++ ".key-mgmt")
    ("a connection using '" ++ tag ++ "' authentication cannot use WPA key management")
  failIf (s.proto ≠ []) .invalidProperty (wsecName ++ ".proto")
    ("a connection using '" ++ tag ++ "' authentication cannot specify WPA protocols")
  failIf (∃ pw ∈ s.pairwise, pw = "tkip" ∨ pw = "ccmp") .invalidProperty
    (wsecName ++ ".pairwise")
    ("a connection using '" ++ tag ++ "' authentication cannot specify WPA ciphers")
  failIf (∃ gr ∈ s.group, gr ≠ "wep40" ∧ gr ≠ "wep104") .invalidProperty (wsecName ++ ".group")
    ("a connection using '" ++ tag ++ "' authentication cannot specify WPA ciphers")
  failIf (s.psk ≠ none) .invalidProperty (wsecName ++ ".psk")
    ("a connection using '" ++ tag ++ "' authentication cannot specify a WPA password")

def verifyDynamicWep (s : WirelessSecurity) (s8021x : Option X) : Except WifiError Unit :=
  if s.leapUsername ≠ none then pure ()
  else if s.keyMgmt = some "ieee8021x" then do
    failIf (s8021x.isNone = true) .missingSetting s8021xName
      "Dynamic WEP requires an 802.1x setting"
    failIf (s.authAlg ≠ none ∧ s.authAlg ≠ some "open") .invalidProperty
      (wsecName ++ ".auth-alg") "Dynamic WEP requires 'open' authentication"
    s.verifyNoWep "Dynamic WEP"
  else if s.keyMgmt = some "none" then
    failIf (s8021x.isSome = true) .invalidProperty (wsecName ++ ".key-mgmt")
      "Dynamic WEP requires 'ieee8021x' key management"
  else if s.keyMgmt = none ∧ s8021x.isSome = true then do
    failIf (s.authAlg ≠ none ∧ s.authAlg ≠ some "open") .invalidProperty
      (wsecName ++ ".auth-alg") "Dynamic WEP requires 'open' authentication"
    s.verifyNoWep "Dynamic WEP"
  else pure ()

def verifyWpaPsk (s : WirelessSecurity) (s8021x : Option X) (adhoc : Bool) (ap : AccessPoint) :
    Except WifiError Unit :=
  if s.keyMgmt ≠ some "wpa-psk" then pure ()
  else do
    failIf (s8021x.isSome = true) .invalidSetting s8021xName
      "WPA-PSK authentication is incompatible with 802.1x"
    failIf (s.authAlg ≠ none ∧ s.authAlg ≠ some "open") .invalidProperty
      (wsecName ++ ".auth-alg") "WPA-PSK requires 'open' authentication"
    failIf (ap.hasPsk = false) .invalidProperty (wsecName ++ ".key-mgmt")
      "Access point does not support PSK but setting requires it"
    if adhoc then do
      failIf (s.proto ≠ ["rsn"]) .invalidProperty (wsecName ++ ".proto")
        "WPA Ad-Hoc authentication requires 'rsn' protocol"
      failIf (s.pairwise ≠ ["ccmp"]) .invalidProperty (wsecName ++ ".pairwise")
        "WPA Ad-Hoc authentication requires 'ccmp' pairwise cipher"
      failIf (s.group ≠ ["ccmp"]) .invalidProperty (wsecName ++ ".group")
        "WPA Ad-Hoc requires 'ccmp' group cipher"
    else pure ()

def verifyWpaEap (s : WirelessSecurity) (s8021x : Option X) (ap : AccessPoint) :
    Except WifiError Unit := do
  let isWpaEap := s.keyMgmt = some "wpa-eap" ∨ s.keyMgmt = some "wpa-eap-suite-b-192"
  failIf (isWpaEap ∧ s8021x.isNone = true) .missingSetting s8021xName
    "WPA-EAP authentication requires an 802.1x setting"
  failIf (isWpaEap ∧ s.authAlg ≠ none ∧ s.authAlg ≠ some "open") .invalidProperty
    (wsecName ++ ".auth-alg") "WPA-EAP requires 'open' authentication"
  failIf (s.keyMgmt ≠ none ∧ ¬isWpaEap ∧ s8021x.isSome = true) .invalidSetting s8021xName
    "802.1x setting requires 'wpa-eap' key management"
  failIf ((isWpaEap ∨ s8021x.isSome = true) ∧ ap.hasEap = false ∧ ap.hasSuiteB = false)
    .invalidSetting s8021xName "Access point does not support 802.1x but setting requires it"

/-- `verify_adhoc()`, with the setting there -/
def verifyAdhoc (s : WirelessSecurity) (s8021x : Option X) (adhoc : Bool) :
    Except WifiError Unit :=
  if adhoc then do
    failIf (s.keyMgmt ≠ none ∧ s.keyMgmt ≠ some "none" ∧ s.keyMgmt ≠ some "wpa-psk")
      .invalidProperty (wsecName ++ ".key-mgmt")
      "Ad-Hoc mode requires 'none' or 'wpa-psk' key management"
    failIf (s8021x.isSome = true) .invalidSetting s8021xName
      "Ad-Hoc mode is incompatible with 802.1x security"
    failIf (s.leapUsername ≠ none) .invalidProperty (wsecName ++ ".auth-alg")
      "Ad-Hoc mode is incompatible with LEAP security"
    failIf (s.authAlg ≠ none ∧ s.authAlg ≠ some "open") .invalidProperty
      (wsecName ++ ".auth-alg") "Ad-Hoc mode requires 'open' authentication"
  else pure ()

/-! ## Completing the security setting -/

/-- `g_ascii_strcasecmp() == 0` -/
def sameIgnoringCase (x y : String) : Bool :=
  x.toList.map Char.toLower == y.toList.map Char.toLower

/-- `nm_setting_wireless_security_add_proto()`, `..._add_pairwise()` and `..._add_group()` -/
def addItem (xs : List String) (x : String) : List String :=
  if xs.any (sameIgnoringCase x) then xs else xs ++ [String.ofList (x.toList.map Char.toLower)]

/-- The part of `nm_wifi_utils_complete_connection()` for static WEP, dynamic WEP and LEAP -/
def completeWep (env : WifiEnv X) (adhoc : Bool) (s8021x : Option X) (s : WirelessSecurity) :
    Except WifiError WirelessSecurity := do
  s.verifyLeap s8021x adhoc
  if s.leapUsername = none then s.verifyDynamicWep s8021x else pure ()
  let isDynamicWep := s8021x.isSome = true ∨ s.keyMgmt = some "ieee8021x"
  s.verifyNoWpa (if s.leapUsername ≠ none then "LEAP"
    else if isDynamicWep then "Dynamic WEP" else "WEP")
  if s.leapUsername ≠ none then
    pure { s with keyMgmt := some "ieee8021x", authAlg := some "leap" }
  else if isDynamicWep then do
    match s8021x with
    | some x => env.verify8021x x
    | none => pure ()
    pure { s with keyMgmt := some "ieee8021x", authAlg := some "open" }
  else pure { s with keyMgmt := some "none" }

/-- The last cascade of `nm_wifi_utils_complete_connection()` -/
def completeWpaKeyMgmt (ap : AccessPoint) (adhoc : Bool) (s8021x : Option X)
    (s : WirelessSecurity) : Except WifiError WirelessSecurity :=
  if adhoc then
    pure { s with
      keyMgmt := some "wpa-psk", authAlg := some "open", proto := addItem s.proto "rsn",
      pairwise := addItem s.pairwise "ccmp", group := addItem s.group "ccmp" }
  else if s8021x.isSome then
    pure { s with keyMgmt := some "wpa-eap", authAlg := some "open" }
  else if ap.hasSae ∧ ap.hasPsk then
    pure { s with
      keyMgmt := some (if s.keyMgmt = some "sae" then "sae" else "wpa-psk")
      authAlg := some "open" }
  else if s.keyMgmt = some "sae" ∨ ap.hasSae then
    pure { s with keyMgmt := some "sae" }
  else if s.keyMgmt = some "owe" ∨ ap.hasOwe then
    pure { s with keyMgmt := some "owe" }
  else if s.keyMgmt = some "wpa-psk" ∨ ap.hasPsk then
    pure { s with keyMgmt := some "wpa-psk", authAlg := some "open" }
  else if s.keyMgmt = some "wpa-eap-suite-b-192" ∨ ap.hasSuiteB then
    pure { s with keyMgmt := some "wpa-eap-suite-b-192" }
  else .error ⟨.failed, "", "Failed to determine AP security information"⟩

/-- The part of `nm_wifi_utils_complete_connection()` for WPA and RSN -/
def completeWpa (ap : AccessPoint) (adhoc : Bool) (s8021x : Option X) (s : WirelessSecurity) :
    Except WifiError WirelessSecurity := do
  failIf (s.keyMgmt = some "ieee8021x" ∨ s.leapUsername ≠ none) .invalidProperty
    (wsecName ++ ".key-mgmt")
    "WPA authentication is incompatible with non-EAP (original) LEAP or Dynamic WEP"
  failIf (s.authAlg ≠ none ∧ s.authAlg ≠ some "open") .invalidProperty
    (wsecName ++ ".auth-alg")
    "WPA authentication is incompatible with Shared Key authentication"
  s.verifyNoWep "WPA"
  s.verifyWpaPsk s8021x adhoc ap
  if adhoc then pure () else s.verifyWpaEap s8021x ap
  s.completeWpaKeyMgmt ap adhoc s8021x

/-- The part of `nm_wifi_utils_complete_connection()` for an access point that is not open -/
def completeSecurity (env : WifiEnv X) (ap : AccessPoint) (adhoc : Bool) (s8021x : Option X)
    (s : WirelessSecurity) : Except WifiError WirelessSecurity := do
  s.verifyAdhoc s8021x adhoc
  if ap.privacy ∧ ap.noWpa then s.completeWep env adhoc s8021x
  else s.completeWpa ap adhoc s8021x

end WirelessSecurity

/-! ## Completing the wireless setting -/

namespace Wireless

def path (property : String) : String := "802-11-wireless." ++ property

/-- The SSID and the BSSID in `nm_wifi_utils_complete_connection()` -/
def completeSsid (ap : AccessPoint) (lockBssid : Bool) (w : Wireless) :
    Except WifiError Wireless := do
  failIf (w.ssid ≠ none ∧ w.ssid ≠ ap.ssid) .invalidProperty (path "ssid")
    "connection does not match access point"
  pure { w with
    ssid := w.ssid <|> ap.ssid
    bssid := if lockBssid then w.bssid <|> ap.bssid else w.bssid }

/-- The supplied mode matches the mode of the access point. -/
def ModeValid (mode : String) (ap : AccessPoint) : Prop :=
  if mode = "infrastructure" ∨ mode = "ap" then ap.mode = .infra
  else if mode = "adhoc" then ap.mode = .adhoc
  else mode = "mesh" ∧ ap.mode = .mesh

instance (mode : String) (ap : AccessPoint) : Decidable (ModeValid mode ap) := by
  unfold ModeValid
  infer_instance

def apModeName (ap : AccessPoint) : String :=
  if ap.mode = .adhoc then "adhoc" else if ap.mode = .mesh then "mesh" else "infrastructure"

/-- The mode in `nm_wifi_utils_complete_connection()` -/
def completeMode (ap : AccessPoint) (w : Wireless) : Except WifiError Wireless :=
  match w.mode with
  | some mode => do
    failIf (¬ModeValid mode ap) .invalidProperty (path "mode")
      "connection does not match access point"
    pure w
  | none => pure { w with mode := some (apModeName ap) }

/-- The band and the channel in `nm_wifi_utils_complete_connection()` -/
def completeMesh {X : Type} (env : WifiEnv X) (ap : AccessPoint) (w : Wireless) :
    Except WifiError Wireless :=
  if w.band = none ∧ w.channel = 0 then do
    failIf (env.freqToChannel ap.freq = 0 ∨ env.freqToBand ap.freq = none) .invalidProperty
      (path "mode") "connection does not match mesh point"
    pure { w with channel := env.freqToChannel ap.freq, band := env.freqToBand ap.freq }
  else do
    failIf (w.band = none ∨ w.channel = 0) .invalidProperty (path "mode")
      "connection does not match mesh point"
    pure w

/-- The wireless setting in `nm_wifi_utils_complete_connection()`. The flag `mesh` is set when the
mode, given or filled in, is `mesh`. -/
def complete {X : Type} (env : WifiEnv X) (ap : AccessPoint) (lockBssid : Bool) (w : Wireless) :
    Except WifiError Wireless := do
  let w ← w.completeSsid ap lockBssid
  let w ← w.completeMode ap
  if w.mode = some "mesh" then w.completeMesh env ap else pure w

end Wireless

/-- `nm_wifi_utils_complete_connection()`. The flag `adhoc` is set when the mode, given or filled
in, is `adhoc`. -/
def wifiUtilsCompleteConnection {X : Type} (env : WifiEnv X) (ap : AccessPoint)
    (lockBssid : Bool) (p : WifiProfile X) : Except WifiError (WifiProfile X) := do
  let wifi ← p.wifi.complete env ap lockBssid
  if !ap.privacy ∧ ap.noWpa then do
    failIf (p.wsec.isSome ∨ p.s8021x.isSome) .invalidSetting
      (if p.wsec.isSome then wsecName else s8021xName)
      "Access point is unencrypted but setting specifies security"
    pure { p with wifi := wifi }
  else do
    let wsec ← (p.wsec.getD {}).completeSecurity env ap (wifi.mode = some "adhoc") p.s8021x
    pure { p with wifi := wifi, wsec := some wsec }

/-! ## What a right completion is -/

/-- What is set in `o` is kept. -/
def Kept {α : Type} (o o' : Option α) : Prop := ∀ v, o = some v → o' = some v

@[simp] theorem Kept.none {α : Type} (o : Option α) : Kept none o := by
  simp [Kept]

@[simp] theorem Kept.refl {α : Type} (o : Option α) : Kept o o := by
  simp [Kept]

@[simp] theorem kept_or {α : Type} (o o' : Option α) : Kept o (o.or o') := by
  cases o <;> simp [Kept]

theorem kept_some_iff {α : Type} {o : Option α} {v : α} :
    Kept o (some v) ↔ o = Option.none ∨ o = some v := by
  cases o <;> simp [Kept, eq_comm]

/-- Every property of the wireless setting that is set keeps its value. -/
structure Wireless.Keeps (w w' : Wireless) : Prop where
  ssid : Kept w.ssid w'.ssid
  bssid : Kept w.bssid w'.bssid
  mode : Kept w.mode w'.mode
  band : Kept w.band w'.band
  channel : w.channel ≠ 0 → w'.channel = w.channel

/-- Every property of the security setting that is set keeps its value, and the lists keep their
elements. -/
structure WirelessSecurity.Keeps (s s' : WirelessSecurity) : Prop where
  keyMgmt : Kept s.keyMgmt s'.keyMgmt
  authAlg : Kept s.authAlg s'.authAlg
  leapUsername : Kept s.leapUsername s'.leapUsername
  psk : Kept s.psk s'.psk
  wepKey0 : Kept s.wepKey0 s'.wepKey0
  wepKey1 : Kept s.wepKey1 s'.wepKey1
  wepKey2 : Kept s.wepKey2 s'.wepKey2
  wepKey3 : Kept s.wepKey3 s'.wepKey3
  wepTxKeyidx : s.wepTxKeyidx ≠ 0 → s'.wepTxKeyidx = s.wepTxKeyidx
  wepKeyType : s.wepKeyType ≠ 0 → s'.wepKeyType = s.wepKeyType
  proto : s.proto ⊆ s'.proto
  pairwise : s.pairwise ⊆ s'.pairwise
  group : s.group ⊆ s'.group

/-- The flags of the access point offer the key management. -/
def AccessPoint.Offers (ap : AccessPoint) (keyMgmt : String) : Prop :=
  if ap.noWpa then keyMgmt = "none" ∨ keyMgmt = "ieee8021x"
  else (keyMgmt = "wpa-psk" ∧ ap.hasPsk) ∨ (keyMgmt = "wpa-eap" ∧ ap.hasEap) ∨
    (keyMgmt = "sae" ∧ ap.hasSae) ∨ (keyMgmt = "owe" ∧ ap.hasOwe) ∨
    (keyMgmt = "wpa-eap-suite-b-192" ∧ ap.hasSuiteB)

/-- The completed profile keeps what was set, its key management is offered, and completing it
again changes nothing. -/
structure WifiProfile.Completed {X : Type} (env : WifiEnv X) (ap : AccessPoint)
    (lockBssid : Bool) (p p' : WifiProfile X) : Prop where
  wifi : p.wifi.Keeps p'.wifi
  wsec : ∀ s, p.wsec = some s → ∃ s', p'.wsec = some s' ∧ s.Keeps s'
  offered : ∀ s', p'.wsec = some s' → ∃ k, s'.keyMgmt = some k ∧ ap.Offers k
  again : wifiUtilsCompleteConnection env ap lockBssid p' = .ok p'

/-! ## When the completion is right -/

/-- The key managements that the cascade leaves alone without an 802.1X setting -/
def AccessPoint.pskChoices (ap : AccessPoint) : List String :=
  if ap.hasSae ∧ ap.hasPsk then ["sae", "wpa-psk"]
  else if ap.hasSae then ["sae"]
  else if ap.hasOwe then ["owe"]
  else if ap.hasPsk then ["wpa-psk"]
  else []

/-- The security setting asks for what the cascade chooses for the access point. -/
def WirelessSecurity.Fits {X : Type} (s : WirelessSecurity) (ap : AccessPoint) (adhoc : Bool)
    (s8021x : Option X) : Prop :=
  if ap.noWpa then
    s.keyMgmt = none ∨ s.keyMgmt = some "none" ∨ s.keyMgmt = some "ieee8021x"
  else if adhoc then
    s.keyMgmt = some "wpa-psk" ∨
      (s.keyMgmt = none ∧ ap.hasPsk ∧ (s.proto = [] ∨ s.proto = ["rsn"]) ∧
        (s.pairwise = [] ∨ s.pairwise = ["ccmp"]) ∧ (s.group = [] ∨ s.group = ["ccmp"]))
  else if s8021x.isSome then
    (s.keyMgmt = none ∨ s.keyMgmt = some "wpa-eap") ∧ ap.hasEap
  else ap.pskChoices ≠ [] ∧ ∀ k, s.keyMgmt = some k → k ∈ ap.pskChoices

/-- The mode is set or can be read off the access point. -/
def Wireless.ModeKnown (w : Wireless) (ap : AccessPoint) : Prop :=
  w.mode ≠ none ∨ ap.mode = .infra ∨ ap.mode = .adhoc ∨ ap.mode = .mesh

/-- The mode is known, and an access point that is not open fits the security setting. -/
def WifiProfile.Fits {X : Type} (p : WifiProfile X) (ap : AccessPoint) : Prop :=
  p.wifi.ModeKnown ap ∧ ((!ap.privacy ∧ ap.noWpa) ∨
    (p.wsec.getD {}).Fits ap (p.wifi.mode.getD (Wireless.apModeName ap) = "adhoc") p.s8021x)

/-! ## The wireless setting -/

namespace Wireless

variable {X : Type} {env : WifiEnv X} {ap : AccessPoint} {lockBssid : Bool} {w w' : Wireless}

theorem completeSsid_eq_self_iff : w.completeSsid ap lockBssid = .ok w ↔
    w.ssid = ap.ssid ∧ (lockBssid → w.bssid = none → ap.bssid = none) := by
  obtain ⟨ssid, bssid, mode, band, channel⟩ := w
  cases ssid <;> cases lockBssid <;> cases bssid <;> cases hs : ap.ssid <;>
    simp [completeSsid, hs, pure, Except.pure]

theorem completeSsid_spec (h : w.completeSsid ap lockBssid = .ok w') :
    w.Keeps w' ∧ w'.mode = w.mode ∧ w'.completeSsid ap lockBssid = .ok w' := by
  simp only [completeSsid, bind_unit_ok_iff, failIf_ok_iff, pure, Except.pure,
    Except.ok.injEq] at h
  obtain ⟨hs, rfl⟩ := h
  have hssid : (w.ssid <|> ap.ssid) = ap.ssid := by
    cases hw : w.ssid with
    | none => rfl
    | some x =>
      simp only [hw, ne_eq, reduceCtorEq, not_false_eq_true, true_and, not_not] at hs
      exact hs
  have hkeep : Kept w.bssid (if lockBssid then w.bssid <|> ap.bssid else w.bssid) := by
    cases lockBssid <;> simp
  constructor
  · exact ⟨by simp, hkeep, by simp, by simp, fun _ => rfl⟩
  constructor
  · rfl
  · rw [completeSsid_eq_self_iff]
    exact ⟨hssid, by cases lockBssid <;> simp⟩

theorem modeValid_apModeName_iff :
    ModeValid (apModeName ap) ap ↔ ap.mode = .infra ∨ ap.mode = .adhoc ∨ ap.mode = .mesh := by
  cases h : ap.mode <;> simp [ModeValid, apModeName, h]

theorem completeMode_of_some {mode : String} (hm : w.mode = some mode) :
    w.completeMode ap = .ok w' ↔ ModeValid mode ap ∧ w = w' := by
  simp [completeMode, hm, pure, Except.pure]

theorem completeMode_spec (h : w.completeMode ap = .ok w') :
    w' = { w with mode := some (w.mode.getD (apModeName ap)) } ∧
      (ModeValid (w.mode.getD (apModeName ap)) ap ↔ w.ModeKnown ap) := by
  cases hm : w.mode with
  | none =>
    simp only [completeMode, hm, pure, Except.pure, Except.ok.injEq] at h
    exact ⟨h.symm, by simp [ModeKnown, hm, modeValid_apModeName_iff]⟩
  | some mode =>
    obtain ⟨hv, rfl⟩ := (completeMode_of_some hm).mp h
    constructor
    · change w = { w with mode := some mode }
      rw [← hm]
    · simp [ModeKnown, hm, hv]

theorem completeMesh_spec (h : w.completeMesh env ap = .ok w') :
    w.Keeps w' ∧ w'.ssid = w.ssid ∧ w'.bssid = w.bssid ∧ w'.mode = w.mode ∧
      w'.completeMesh env ap = .ok w' := by
  unfold completeMesh at h
  split at h
  case isTrue hn =>
    simp only [bind_unit_ok_iff, failIf_ok_iff, not_or, pure, Except.pure,
      Except.ok.injEq] at h
    obtain ⟨⟨hc, hb⟩, rfl⟩ := h
    constructor
    · exact ⟨by simp, by simp, by simp, by simp [hn.1], fun h => absurd hn.2 h⟩
    · simp [completeMesh, hc, hb, pure, Except.pure]
  case isFalse hn =>
    simp only [bind_unit_ok_iff, failIf_ok_iff, pure, Except.pure, Except.ok.injEq] at h
    obtain ⟨hv, rfl⟩ := h
    constructor
    · exact ⟨by simp, by simp, by simp, by simp, fun _ => rfl⟩
    · simp [completeMesh, hn, hv, pure, Except.pure]

theorem meshStep_spec
    (h : (if w.mode = some "mesh" then w.completeMesh env ap else pure w) = .ok w') :
    w.Keeps w' ∧ w'.ssid = w.ssid ∧ w'.bssid = w.bssid ∧ w'.mode = w.mode ∧
      (if w'.mode = some "mesh" then w'.completeMesh env ap else pure w') = .ok w' := by
  split at h
  case isTrue hm =>
    obtain ⟨hkeep, hs, hb, hmode, hagain⟩ := completeMesh_spec h
    rw [if_pos (hmode.trans hm)]
    exact ⟨hkeep, hs, hb, hmode, hagain⟩
  case isFalse hm =>
    cases h
    rw [if_neg hm]
    exact ⟨⟨by simp, by simp, by simp, by simp, fun _ => rfl⟩, rfl, rfl, rfl, rfl⟩

theorem complete_spec (h : w.complete env ap lockBssid = .ok w') :
    w.Keeps w' ∧ w'.mode = some (w.mode.getD (apModeName ap)) ∧
      (w'.complete env ap lockBssid = .ok w' ↔ w.ModeKnown ap) := by
  simp only [complete, bind_ok_iff] at h
  obtain ⟨w₁, h₁, w₂, h₂, h₃⟩ := h
  obtain ⟨hkeep₁, hmode₁, hagain₁⟩ := completeSsid_spec h₁
  obtain ⟨rfl, hvalid⟩ := completeMode_spec h₂
  obtain ⟨hkeep₃, hssid, hbssid, hmode₃, hagain₃⟩ := meshStep_spec h₃
  simp only [hmode₁, ModeKnown] at hmode₃ hvalid
  have hself : w'.completeSsid ap lockBssid = .ok w' := by
    rw [completeSsid_eq_self_iff] at hagain₁ ⊢
    rw [hssid, hbssid]
    exact hagain₁
  have hmode : Kept w.mode w'.mode := by
    rw [hmode₃]
    cases w.mode <;> simp
  constructor
  · exact
      { ssid := fun v hv => hkeep₃.ssid v (hkeep₁.ssid v hv)
        bssid := fun v hv => hkeep₃.bssid v (hkeep₁.bssid v hv)
        mode := hmode
        band := fun v hv => hkeep₃.band v (hkeep₁.band v hv)
        channel := fun hc => by
          have hc₁ := hkeep₁.channel hc
          rw [← hc₁] at hc
          exact (hkeep₃.channel hc).trans hc₁ }
  constructor
  · exact hmode₃
  · rw [ModeKnown, ← hvalid]
    constructor
    · intro h
      simp only [complete, hself, bind_ok_iff, Except.ok.injEq, exists_eq_left'] at h
      obtain ⟨x, hx, -⟩ := h
      exact ((completeMode_of_some hmode₃).mp hx).1
    · intro hv
      have hstay : w'.completeMode ap = .ok w' := (completeMode_of_some hmode₃).mpr ⟨hv, rfl⟩
      simp only [complete, bind_ok_iff]
      exact ⟨w', hself, w', hstay, hagain₃⟩

end Wireless

/-! ## The security setting -/

namespace WirelessSecurity

variable {X : Type} {env : WifiEnv X} {ap : AccessPoint} {adhoc : Bool} {s8021x : Option X}
  {s s' : WirelessSecurity} {tag : String}

@[simp] theorem verifyNoWep_ok_iff : s.verifyNoWep tag = .ok () ↔ ¬s.HasWep := by
  simp [verifyNoWep]

theorem verifyLeap_ok_iff : s.verifyLeap s8021x adhoc = .ok () ↔
    (s.authAlg = some "leap" → s.leapUsername ≠ none) ∧
      (s.leapUsername ≠ none → (s.authAlg = none ∨ s.authAlg = some "leap") ∧
        (s.keyMgmt = none ∨ s.keyMgmt = some "ieee8021x") ∧ adhoc = false ∧ ¬s.HasWep ∧
        s8021x = none) := by
  simp only [verifyLeap, bind_unit_ok_iff, failIf_ok_iff]
  by_cases hl : s.leapUsername = none
  · simp [hl, pure, Except.pure]
  · simp [hl]
    grind

/-- No WPA property is set, apart from the key management. -/
def NoWpa (s : WirelessSecurity) : Prop :=
  s.proto = [] ∧ (∀ pw ∈ s.pairwise, ¬(pw = "tkip" ∨ pw = "ccmp")) ∧
    (∀ gr ∈ s.group, ¬(gr ≠ "wep40" ∧ gr ≠ "wep104")) ∧ s.psk = none

theorem verifyNoWpa_ok_iff : s.verifyNoWpa tag = .ok () ↔
    (∀ k, s.keyMgmt = some k → ¬"wpa".toList.isPrefixOf k.toList) ∧ s.NoWpa := by
  simp [verifyNoWpa, NoWpa]

theorem verifyDynamicWep_ok_iff (hl : s.leapUsername = none) :
    s.verifyDynamicWep s8021x = .ok () ↔
      (s.keyMgmt = some "ieee8021x" → s8021x ≠ none) ∧
      (s.keyMgmt = some "none" → s8021x = none) ∧
      (s.keyMgmt = some "ieee8021x" ∨ (s.keyMgmt = none ∧ s8021x ≠ none) →
        (s.authAlg = none ∨ s.authAlg = some "open") ∧ ¬s.HasWep) := by
  unfold verifyDynamicWep
  by_cases h₁ : s.keyMgmt = some "ieee8021x"
  · simp [hl, h₁]
    grind
  by_cases h₂ : s.keyMgmt = some "none"
  · simp [hl, h₂]
  by_cases h₃ : s.keyMgmt = none ∧ s8021x.isSome = true
  · simp [hl, h₃, Option.isSome_iff_ne_none.mp h₃.2]
    grind
  · simp only [hl, h₁, h₂, h₃, ne_eq, not_true_eq_false, if_false, pure, Except.pure, true_iff]
    cases s8021x <;> simp_all

theorem verifyAdhoc_ok_iff : s.verifyAdhoc s8021x adhoc = .ok () ↔
    (adhoc → (s.keyMgmt = none ∨ s.keyMgmt = some "none" ∨ s.keyMgmt = some "wpa-psk") ∧
      s8021x = none ∧ s.leapUsername = none ∧ (s.authAlg = none ∨ s.authAlg = some "open")) := by
  cases adhoc <;> simp [verifyAdhoc, pure, Except.pure]
  grind

/-! ### Static WEP, dynamic WEP and LEAP -/

theorem completeWep_leap_iff (hl : s.leapUsername ≠ none) :
    s.completeWep env adhoc s8021x = .ok s' ↔
      s.verifyLeap s8021x adhoc = .ok () ∧ s.verifyNoWpa "LEAP" = .ok () ∧
        { s with keyMgmt := some "ieee8021x", authAlg := some "leap" } = s' := by
  simp [completeWep, hl, pure, Except.pure]

theorem completeWep_dynamic_iff (hl : s.leapUsername = none)
    (hd : s8021x.isSome = true ∨ s.keyMgmt = some "ieee8021x") :
    s.completeWep env adhoc s8021x = .ok s' ↔
      s.verifyLeap s8021x adhoc = .ok () ∧ s.verifyDynamicWep s8021x = .ok () ∧
        s.verifyNoWpa "Dynamic WEP" = .ok () ∧
        (∀ x, s8021x = some x → env.verify8021x x = .ok ()) ∧
        { s with keyMgmt := some "ieee8021x", authAlg := some "open" } = s' := by
  cases s8021x <;> simp_all [completeWep, pure, Except.pure]

theorem completeWep_static_iff (hl : s.leapUsername = none)
    (hd : ¬(s8021x.isSome = true ∨ s.keyMgmt = some "ieee8021x")) :
    s.completeWep env adhoc s8021x = .ok s' ↔
      s.verifyLeap s8021x adhoc = .ok () ∧ s.verifyDynamicWep s8021x = .ok () ∧
        s.verifyNoWpa "WEP" = .ok () ∧ { s with keyMgmt := some "none" } = s' := by
  simp [completeWep, hl, hd, pure, Except.pure]

/-- The completed security setting keeps what was set, and completing it again changes nothing. -/
structure Completed (env : WifiEnv X) (ap : AccessPoint) (adhoc : Bool) (s8021x : Option X)
    (s s' : WirelessSecurity) : Prop where
  keeps : s.Keeps s'
  offered : ∃ k, s'.keyMgmt = some k ∧ ap.Offers k
  again : s'.completeSecurity env ap adhoc s8021x = .ok s'

theorem keeps_of (hk : Kept s.keyMgmt s'.keyMgmt) (ha : Kept s.authAlg s'.authAlg)
    (hp : s.proto ⊆ s'.proto) (hw : s.pairwise ⊆ s'.pairwise) (hg : s.group ⊆ s'.group)
    (hs : s' = { s with
      keyMgmt := s'.keyMgmt, authAlg := s'.authAlg, proto := s'.proto, pairwise := s'.pairwise,
      group := s'.group }) : s.Keeps s' := by
  rw [hs]
  exact ⟨hk, ha, by simp, by simp, by simp, by simp, by simp, by simp, fun _ => rfl, fun _ => rfl,
    hp, hw, hg⟩

@[simp] theorem hasWep_update {k a : Option String} {ps ws gs : List String} :
    HasWep { s with keyMgmt := k, authAlg := a, proto := ps, pairwise := ws, group := gs } ↔
      s.HasWep :=
  Iff.rfl

theorem completeSecurity_wep_iff (hp : ap.privacy = true) (hn : ap.noWpa = true) :
    s.completeSecurity env ap adhoc s8021x = .ok s' ↔
      s.verifyAdhoc s8021x adhoc = .ok () ∧ s.completeWep env adhoc s8021x = .ok s' := by
  simp [completeSecurity, hp, hn]

theorem completeWep_completed_iff (hp : ap.privacy = true) (hn : ap.noWpa = true)
    (h : s.completeSecurity env ap adhoc s8021x = .ok s') :
    s.Completed env ap adhoc s8021x s' ↔
      s.keyMgmt = none ∨ s.keyMgmt = some "none" ∨ s.keyMgmt = some "ieee8021x" := by
  obtain ⟨ha, hc⟩ := (completeSecurity_wep_iff hp hn).mp h
  have hoff : ∀ k : String, k = "none" ∨ k = "ieee8021x" → ap.Offers k := by
    intro k hk
    simpa [AccessPoint.Offers, hn] using hk
  rw [verifyAdhoc_ok_iff] at ha
  by_cases hl : s.leapUsername = none
  · by_cases hd : s8021x.isSome = true ∨ s.keyMgmt = some "ieee8021x"
    · -- dynamic WEP
      obtain ⟨hv, hdyn, hw, hx, rfl⟩ := (completeWep_dynamic_iff hl hd).mp hc
      rw [verifyDynamicWep_ok_iff hl] at hdyn
      rw [verifyNoWpa_ok_iff] at hw
      rw [verifyLeap_ok_iff] at hv
      have hx8021x : s8021x.isSome = true := by
        rcases hd with hd | hd
        · exact hd
        · exact Option.isSome_iff_ne_none.mpr (hdyn.1 hd)
      have hne := Option.isSome_iff_ne_none.mp hx8021x
      constructor
      · intro hcomp
        rcases kept_some_iff.mp hcomp.keeps.keyMgmt with hkey | hkey <;> simp [hkey]
      · intro hfits
        have hkey : s.keyMgmt = none ∨ s.keyMgmt = some "ieee8021x" := by
          rcases hfits with hkey | hkey | hkey
          · exact .inl hkey
          · exact absurd (hdyn.2.1 hkey) hne
          · exact .inr hkey
        have hopen := hdyn.2.2 (by rcases hkey with hkey | hkey <;> simp [hkey, hne])
        constructor
        · exact keeps_of (kept_some_iff.mpr hkey) (kept_some_iff.mpr hopen.1)
            (List.Subset.refl _) (List.Subset.refl _) (List.Subset.refl _) rfl
        · exact ⟨"ieee8021x", rfl, hoff _ (.inr rfl)⟩
        · apply (completeSecurity_wep_iff hp hn).mpr
          constructor
          · rw [verifyAdhoc_ok_iff]
            exact fun hadhoc => absurd (ha hadhoc).2.1 hne
          · refine Iff.mpr (completeWep_dynamic_iff hl (.inr rfl)) ⟨verifyLeap_ok_iff.mpr ?_,
              Iff.mpr (verifyDynamicWep_ok_iff hl) ?_, verifyNoWpa_ok_iff.mpr ⟨?_, hw.2⟩, hx, rfl⟩
            · simp [hl]
            · simp [hne, hopen.2]
            · simp
    · -- static WEP
      obtain ⟨hv, hdyn, hw, rfl⟩ := (completeWep_static_iff hl hd).mp hc
      rw [verifyNoWpa_ok_iff] at hw
      rw [verifyLeap_ok_iff] at hv
      have hno : s8021x = none := by
        cases s8021x with
        | none => rfl
        | some x => simp at hd
      constructor
      · intro hcomp
        rcases kept_some_iff.mp hcomp.keeps.keyMgmt with hkey | hkey <;> simp [hkey]
      · intro hfits
        have hkey : s.keyMgmt = none ∨ s.keyMgmt = some "none" := by
          rcases hfits with hkey | hkey | hkey
          · exact .inl hkey
          · exact .inr hkey
          · exact absurd (.inr hkey) hd
        constructor
        · exact keeps_of (kept_some_iff.mpr hkey) (by simp)
            (List.Subset.refl _) (List.Subset.refl _) (List.Subset.refl _) rfl
        · exact ⟨"none", rfl, hoff _ (.inl rfl)⟩
        · apply (completeSecurity_wep_iff hp hn).mpr
          constructor
          · rw [verifyAdhoc_ok_iff]
            exact fun hadhoc => ⟨.inr (.inl rfl), (ha hadhoc).2⟩
          · refine Iff.mpr (completeWep_static_iff hl (by simp [hno])) ⟨verifyLeap_ok_iff.mpr ?_,
              Iff.mpr (verifyDynamicWep_ok_iff hl) ?_, verifyNoWpa_ok_iff.mpr ⟨?_, hw.2⟩, rfl⟩
            · exact ⟨hv.1, by simp [hl]⟩
            · simp [hno]
            · simp
  · -- LEAP
    obtain ⟨hv, hw, rfl⟩ := (completeWep_leap_iff hl).mp hc
    rw [verifyLeap_ok_iff] at hv
    rw [verifyNoWpa_ok_iff] at hw
    obtain ⟨halg, hkey, hadhoc, hwep, hno⟩ := hv.2 hl
    have hfits : s.keyMgmt = none ∨ s.keyMgmt = some "none" ∨ s.keyMgmt = some "ieee8021x" := by
      rcases hkey with hkey | hkey <;> simp [hkey]
    refine iff_of_true ?_ hfits
    constructor
    · exact keeps_of (kept_some_iff.mpr hkey) (kept_some_iff.mpr halg)
        (List.Subset.refl _) (List.Subset.refl _) (List.Subset.refl _) rfl
    · exact ⟨"ieee8021x", rfl, hoff _ (.inr rfl)⟩
    · apply (completeSecurity_wep_iff hp hn).mpr
      constructor
      · simp [verifyAdhoc_ok_iff, hadhoc]
      · refine Iff.mpr (completeWep_leap_iff hl) ⟨verifyLeap_ok_iff.mpr ?_,
          verifyNoWpa_ok_iff.mpr ⟨?_, hw.2⟩, rfl⟩
        · simp [hl, hadhoc, hwep, hno]
        · simp

/-! ### WPA and RSN -/

theorem verifyWpaPsk_ok_iff : s.verifyWpaPsk s8021x adhoc ap = .ok () ↔
    (s.keyMgmt = some "wpa-psk" → s8021x = none ∧ (s.authAlg = none ∨ s.authAlg = some "open") ∧
      ap.hasPsk = true ∧
      (adhoc → s.proto = ["rsn"] ∧ s.pairwise = ["ccmp"] ∧ s.group = ["ccmp"])) := by
  by_cases hk : s.keyMgmt = some "wpa-psk"
  · cases adhoc <;> simp [verifyWpaPsk, hk, pure, Except.pure] <;> grind
  · simp [verifyWpaPsk, hk, pure, Except.pure]

theorem verifyWpaEap_ok_iff : s.verifyWpaEap s8021x ap = .ok () ↔
    (s.keyMgmt = some "wpa-eap" ∨ s.keyMgmt = some "wpa-eap-suite-b-192" →
      s8021x ≠ none ∧ (s.authAlg = none ∨ s.authAlg = some "open")) ∧
    (s8021x ≠ none → (s.keyMgmt = none ∨ s.keyMgmt = some "wpa-eap" ∨
        s.keyMgmt = some "wpa-eap-suite-b-192") ∧
      (ap.hasEap = true ∨ ap.hasSuiteB = true)) := by
  cases s8021x <;> simp [verifyWpaEap] <;> grind

theorem completeSecurity_wpa_iff (hn : ap.noWpa = false) :
    s.completeSecurity env ap adhoc s8021x = .ok s' ↔
      s.verifyAdhoc s8021x adhoc = .ok () ∧ s.keyMgmt ≠ some "ieee8021x" ∧
        s.leapUsername = none ∧ (s.authAlg = none ∨ s.authAlg = some "open") ∧ ¬s.HasWep ∧
        s.verifyWpaPsk s8021x adhoc ap = .ok () ∧
        (adhoc = false → s.verifyWpaEap s8021x ap = .ok ()) ∧
        s.completeWpaKeyMgmt ap adhoc s8021x = .ok s' := by
  cases adhoc <;> simp [completeSecurity, completeWpa, hn] <;> grind

@[simp] theorem sameIgnoringCase_refl (x : String) : sameIgnoringCase x x = true := by
  simp [sameIgnoringCase]

theorem addItem_eq_singleton_iff {xs : List String} {x : String}
    (hx : String.ofList (x.toList.map Char.toLower) = x) :
    addItem xs x = [x] ↔ xs = [] ∨ xs = [x] := by
  unfold addItem
  split
  case isTrue h =>
    constructor
    · exact .inr
    · rintro (rfl | rfl)
      · simp at h
      · rfl
  case isFalse h =>
    rw [hx]
    constructor
    · intro heq
      exact .inl (by simpa using congrArg List.length heq)
    · rintro (rfl | rfl)
      · rfl
      · simp at h

theorem subset_addItem (xs : List String) (x : String) : xs ⊆ addItem xs x := by
  unfold addItem
  split
  · exact List.Subset.refl _
  · exact List.subset_append_left _ _

theorem completeWpa_adhoc_iff (hn : ap.noWpa = false)
    (h : s.completeSecurity env ap true s8021x = .ok s') :
    s.Completed env ap true s8021x s' ↔ s.Fits ap true s8021x := by
  obtain ⟨ha, -, hl, halg, hwep, hpsk, -, hc⟩ := (completeSecurity_wpa_iff hn).mp h
  obtain ⟨-, hno, -, -⟩ := verifyAdhoc_ok_iff.mp ha rfl
  rw [verifyWpaPsk_ok_iff] at hpsk
  simp only [completeWpaKeyMgmt, if_true, pure, Except.pure, Except.ok.injEq] at hc
  have hrsn : ∀ xs, addItem xs "rsn" = ["rsn"] ↔ xs = [] ∨ xs = ["rsn"] := fun xs =>
    addItem_eq_singleton_iff (by decide)
  have hccmp : ∀ xs, addItem xs "ccmp" = ["ccmp"] ↔ xs = [] ∨ xs = ["ccmp"] := fun xs =>
    addItem_eq_singleton_iff (by decide)
  have hkeys : s'.keyMgmt = some "wpa-psk" := by rw [← hc]
  have hproto : s'.proto = addItem s.proto "rsn" := by rw [← hc]
  have hpairwise : s'.pairwise = addItem s.pairwise "ccmp" := by rw [← hc]
  have hgroup : s'.group = addItem s.group "ccmp" := by rw [← hc]
  have hfits_iff : s.Fits ap true s8021x ↔
      (s.keyMgmt = none ∨ s.keyMgmt = some "wpa-psk") ∧ ap.hasPsk = true ∧
        s'.proto = ["rsn"] ∧ s'.pairwise = ["ccmp"] ∧ s'.group = ["ccmp"] := by
    rw [hproto, hpairwise, hgroup, hrsn, hccmp, hccmp]
    simp only [Fits, hn, Bool.false_eq_true, if_false, if_true]
    constructor
    · rintro (hk | ⟨hk, hrest⟩)
      · obtain ⟨-, -, hp, hlists⟩ := hpsk hk
        obtain ⟨h₁, h₂, h₃⟩ := hlists rfl
        exact ⟨.inr hk, hp, .inr h₁, .inr h₂, .inr h₃⟩
      · exact ⟨.inl hk, hrest⟩
    · rintro ⟨hk | hk, hrest⟩
      · exact .inr ⟨hk, hrest⟩
      · exact .inl hk
  rw [hfits_iff]
  constructor
  · intro hcomp
    obtain ⟨-, -, -, -, -, hpsk', -, -⟩ := (completeSecurity_wpa_iff hn).mp hcomp.again
    obtain ⟨-, -, hp, hlists⟩ := verifyWpaPsk_ok_iff.mp hpsk' hkeys
    have hkept := hcomp.keeps.keyMgmt
    rw [hkeys, kept_some_iff] at hkept
    exact ⟨hkept, hp, hlists rfl⟩
  · rintro ⟨hk, hp, h₁, h₂, h₃⟩
    subst hc
    constructor
    · exact keeps_of (kept_some_iff.mpr hk) (kept_some_iff.mpr halg)
        (subset_addItem _ _) (subset_addItem _ _) (subset_addItem _ _) rfl
    · exact ⟨"wpa-psk", rfl, by simp [AccessPoint.Offers, hn, hp]⟩
    · refine Iff.mpr (completeSecurity_wpa_iff hn) ⟨verifyAdhoc_ok_iff.mpr ?_, ?_, hl, .inr rfl,
        hwep, verifyWpaPsk_ok_iff.mpr ?_, ?_, ?_⟩
      · exact fun _ => ⟨.inr (.inr rfl), hno, hl, .inr rfl⟩
      · simp
      · exact fun _ => ⟨hno, .inr rfl, hp, fun _ => ⟨h₁, h₂, h₃⟩⟩
      · simp
      · simp only at h₁ h₂ h₃
        simp only [completeWpaKeyMgmt, if_true, h₁, h₂, h₃, pure, Except.pure]
        rw [(hrsn _).mpr (.inr rfl), (hccmp _).mpr (.inr rfl)]

theorem completeWpa_8021x_iff (hn : ap.noWpa = false) (hx : s8021x ≠ none)
    (h : s.completeSecurity env ap false s8021x = .ok s') :
    s.Completed env ap false s8021x s' ↔ s.Fits ap false s8021x := by
  obtain ⟨-, -, hl, halg, hwep, -, heap, hc⟩ := (completeSecurity_wpa_iff hn).mp h
  obtain ⟨-, hoffer⟩ := (verifyWpaEap_ok_iff.mp (heap rfl)).2 hx
  have hsome : s8021x.isSome = true := Option.isSome_iff_ne_none.mpr hx
  have hfits_iff : s.Fits ap false s8021x ↔
      (s.keyMgmt = none ∨ s.keyMgmt = some "wpa-eap") ∧ ap.hasEap = true := by
    simp [Fits, hn, hsome]
  simp only [completeWpaKeyMgmt, Bool.false_eq_true, if_false, hsome, if_true, pure, Except.pure,
    Except.ok.injEq] at hc
  subst hc
  rw [hfits_iff]
  constructor
  · intro hcomp
    obtain ⟨k, hk, hoff⟩ := hcomp.offered
    cases hk
    exact ⟨kept_some_iff.mp hcomp.keeps.keyMgmt, by simpa [AccessPoint.Offers, hn] using hoff⟩
  · rintro ⟨hk, heap⟩
    constructor
    · exact keeps_of (kept_some_iff.mpr hk) (kept_some_iff.mpr halg)
        (List.Subset.refl _) (List.Subset.refl _) (List.Subset.refl _) rfl
    · exact ⟨"wpa-eap", rfl, by simp [AccessPoint.Offers, hn, heap]⟩
    · refine Iff.mpr (completeSecurity_wpa_iff hn) ⟨verifyAdhoc_ok_iff.mpr ?_, ?_, hl, .inr rfl,
        hwep, verifyWpaPsk_ok_iff.mpr ?_, fun _ => verifyWpaEap_ok_iff.mpr ?_, ?_⟩
      · simp
      · simp
      · simp
      · exact ⟨fun _ => ⟨hx, .inr rfl⟩, fun _ => ⟨.inr (.inl rfl), hoffer⟩⟩
      · simp [completeWpaKeyMgmt, hsome, pure, Except.pure]

theorem completed_of_choice {k : String} {a : Option String} (hn : ap.noWpa = false)
    (h : s.completeSecurity env ap false none = .ok s')
    (hs : { s with keyMgmt := some k, authAlg := a } = s')
    (hk : s.keyMgmt = none ∨ s.keyMgmt = some k) (ha : a = s.authAlg ∨ a = some "open")
    (hoff : ap.Offers k) (hmem : k = "sae" ∨ k = "wpa-psk" ∨ k = "owe")
    (hagain : s'.completeWpaKeyMgmt ap false (none : Option X) = .ok s') :
    s.Completed env ap false none s' := by
  obtain ⟨-, -, hl, halg, hwep, -, heap, -⟩ := (completeSecurity_wpa_iff hn).mp h
  have hkept : Kept s.authAlg a ∧ (a = none ∨ a = some "open") := by
    rcases ha with rfl | rfl
    · exact ⟨Kept.refl _, halg⟩
    · exact ⟨kept_some_iff.mpr halg, .inr rfl⟩
  subst hs
  constructor
  · exact keeps_of (kept_some_iff.mpr hk) hkept.1
      (List.Subset.refl _) (List.Subset.refl _) (List.Subset.refl _) rfl
  · exact ⟨k, rfl, hoff⟩
  · refine Iff.mpr (completeSecurity_wpa_iff hn) ⟨verifyAdhoc_ok_iff.mpr ?_, ?_, hl, hkept.2,
      hwep, verifyWpaPsk_ok_iff.mpr ?_, fun _ => verifyWpaEap_ok_iff.mpr ?_, hagain⟩
    · simp
    · rcases hmem with rfl | rfl | rfl <;> simp
    · intro hpsk
      cases hpsk
      exact ⟨rfl, hkept.2, by simpa [AccessPoint.Offers, hn] using hoff, by simp⟩
    · rcases hmem with rfl | rfl | rfl <;> simp

theorem choices_singleton_iff {k : String} (h : ap.pskChoices = [k]) :
    (ap.pskChoices ≠ [] ∧ ∀ j, s.keyMgmt = some j → j ∈ ap.pskChoices) ↔
      s.keyMgmt = none ∨ s.keyMgmt = some k := by
  cases s.keyMgmt <;> simp [h]

theorem not_mem_pskChoices : (ap.hasSae = false → "sae" ∉ ap.pskChoices) ∧
    (ap.hasOwe = false → "owe" ∉ ap.pskChoices) := by
  cases hs : ap.hasSae <;> cases ho : ap.hasOwe <;> cases hp : ap.hasPsk <;>
    simp [AccessPoint.pskChoices, hs, ho, hp]

theorem completeWpa_choice_iff (hn : ap.noWpa = false)
    (h : s.completeSecurity env ap false (none : Option X) = .ok s') :
    s.Completed env ap false none s' ↔ s.Fits ap false (none : Option X) := by
  obtain ⟨-, -, hl, halg, hwep, hpsk, heap, hc⟩ := (completeSecurity_wpa_iff hn).mp h
  have heap' := (verifyWpaEap_ok_iff.mp (heap rfl)).1
  have hfits_iff : s.Fits ap false (none : Option X) ↔
      ap.pskChoices ≠ [] ∧ ∀ k, s.keyMgmt = some k → k ∈ ap.pskChoices := by
    simp [Fits, hn]
  have hkeep : ∀ k, s.Completed env ap false none s' → s'.keyMgmt = some k →
      s.keyMgmt = none ∨ s.keyMgmt = some k := fun k hcomp hk => by
    have hkept := hcomp.keeps.keyMgmt
    rw [hk] at hkept
    exact kept_some_iff.mp hkept
  have hoffers : ∀ k, s.Completed env ap false none s' → s'.keyMgmt = some k → ap.Offers k :=
    fun k hcomp hk => by
      obtain ⟨k', hk', hoff⟩ := hcomp.offered
      rw [hk] at hk'
      cases hk'
      exact hoff
  rw [hfits_iff]
  simp only [completeWpaKeyMgmt, Bool.false_eq_true, if_false, Option.isSome_none] at hc
  split at hc
  case isTrue h₁ =>
    -- SAE and PSK
    have hch : ap.pskChoices = ["sae", "wpa-psk"] := by simp [AccessPoint.pskChoices, h₁]
    cases hc
    constructor
    · intro hcomp
      constructor
      · simp [hch]
      · intro k hk
        rcases hkeep _ hcomp rfl with hkey | hkey
        · simp [hkey] at hk
        · rw [hkey] at hk
          cases hk
          rw [hch]
          split <;> simp
    · rintro ⟨-, hfit⟩
      have hkey : s.keyMgmt = none ∨ s.keyMgmt = some "sae" ∨ s.keyMgmt = some "wpa-psk" := by
        cases hk : s.keyMgmt with
        | none => exact .inl rfl
        | some k => simpa [hch] using hfit k hk
      apply completed_of_choice hn h rfl
      · rcases hkey with hk | hk | hk <;> simp [hk]
      · exact .inr rfl
      · split <;> simp [AccessPoint.Offers, hn, h₁]
      · split <;> simp
      · rcases hkey with hk | hk | hk <;> simp [completeWpaKeyMgmt, h₁, hk, pure, Except.pure]
  split at hc
  case isTrue h₁ h₂ =>
    -- SAE
    cases hc
    cases hsae : ap.hasSae with
    | false =>
      have hk : s.keyMgmt = some "sae" := by simpa [hsae] using h₂
      constructor
      · intro hcomp
        have hoff := hoffers _ hcomp rfl
        simp [AccessPoint.Offers, hn, hsae] at hoff
      · rintro ⟨-, hfit⟩
        exact absurd (hfit _ hk) (not_mem_pskChoices.1 hsae)
    | true =>
      have hpsk : ap.hasPsk = false := by simpa [hsae] using h₁
      rw [choices_singleton_iff (k := "sae") (by simp [AccessPoint.pskChoices, hsae, hpsk])]
      constructor
      · exact fun hcomp => hkeep _ hcomp rfl
      · intro hk
        apply completed_of_choice hn h rfl hk (.inl rfl)
        · simp [AccessPoint.Offers, hn, hsae]
        · simp
        · simp [completeWpaKeyMgmt, hpsk, pure, Except.pure]
  split at hc
  case isTrue h₁ h₂ h₃ =>
    -- OWE
    cases hc
    have hsae : ap.hasSae = false := by
      simp only [not_or, Bool.not_eq_true] at h₂
      exact h₂.2
    cases howe : ap.hasOwe with
    | false =>
      have hk : s.keyMgmt = some "owe" := by simpa [howe] using h₃
      constructor
      · intro hcomp
        have hoff := hoffers _ hcomp rfl
        simp [AccessPoint.Offers, hn, howe] at hoff
      · rintro ⟨-, hfit⟩
        exact absurd (hfit _ hk) (not_mem_pskChoices.2 howe)
    | true =>
      rw [choices_singleton_iff (k := "owe") (by simp [AccessPoint.pskChoices, hsae, howe])]
      constructor
      · exact fun hcomp => hkeep _ hcomp rfl
      · intro hk
        apply completed_of_choice hn h rfl hk (.inl rfl)
        · simp [AccessPoint.Offers, hn, howe]
        · simp
        · simp [completeWpaKeyMgmt, hsae, pure, Except.pure]
  split at hc
  case isTrue h₁ h₂ h₃ h₄ =>
    -- PSK
    cases hc
    simp only [not_or, Bool.not_eq_true] at h₂ h₃
    have hp : ap.hasPsk = true := by
      rcases h₄ with hk | hp
      · exact ((verifyWpaPsk_ok_iff.mp hpsk) hk).2.2.1
      · exact hp
    rw [choices_singleton_iff (k := "wpa-psk")
      (by simp [AccessPoint.pskChoices, h₂.2, h₃.2, hp])]
    constructor
    · exact fun hcomp => hkeep _ hcomp rfl
    · intro hk
      apply completed_of_choice hn h rfl hk (.inr rfl)
      · simp [AccessPoint.Offers, hn, hp]
      · simp
      · simp [completeWpaKeyMgmt, h₂.2, h₃.2, pure, Except.pure]
  split at hc
  case isTrue h₁ h₂ h₃ h₄ h₅ =>
    -- suite B needs an 802.1X setting when it is completed again
    cases hc
    simp only [not_or, Bool.not_eq_true] at h₂ h₃ h₄
    constructor
    · intro hcomp
      obtain ⟨-, -, -, -, -, -, heap₂, -⟩ := (completeSecurity_wpa_iff hn).mp hcomp.again
      exact absurd rfl ((verifyWpaEap_ok_iff.mp (heap₂ rfl)).1 (.inr rfl)).1
    · rintro ⟨hne, -⟩
      simp [AccessPoint.pskChoices, h₂.2, h₃.2, h₄.2] at hne
  case isFalse => cases hc

theorem completed_iff_fits (hopen : ¬(!ap.privacy ∧ ap.noWpa))
    (h : s.completeSecurity env ap adhoc s8021x = .ok s') :
    s.Completed env ap adhoc s8021x s' ↔ s.Fits ap adhoc s8021x := by
  cases hn : ap.noWpa with
  | true =>
    have hp : ap.privacy = true := by simpa [hn] using hopen
    rw [completeWep_completed_iff hp hn h]
    simp [Fits, hn]
  | false =>
    cases adhoc with
    | true => exact completeWpa_adhoc_iff hn h
    | false =>
      cases s8021x with
      | none => exact completeWpa_choice_iff hn h
      | some x => exact completeWpa_8021x_iff hn (by simp) h

end WirelessSecurity

/-! ## The whole profile -/

/-- The completion is right exactly for a profile whose mode is known and whose security setting
fits the access point. -/
theorem wifiUtilsCompleteConnection_completed_iff {X : Type} {env : WifiEnv X}
    {ap : AccessPoint} {lockBssid : Bool} {p p' : WifiProfile X}
    (h : wifiUtilsCompleteConnection env ap lockBssid p = .ok p') :
    p.Completed env ap lockBssid p' ↔ p.Fits ap := by
  simp only [wifiUtilsCompleteConnection, bind_ok_iff] at h
  obtain ⟨w, hw, h⟩ := h
  obtain ⟨hkeep, hmode, hagain⟩ := Wireless.complete_spec hw
  split at h
  case isTrue hopen =>
    simp only [bind_unit_ok_iff, failIf_ok_iff, pure, Except.pure, Except.ok.injEq] at h
    obtain ⟨hno, rfl⟩ := h
    have hwsec : p.wsec = none := by
      cases hs : p.wsec with
      | none => rfl
      | some s => simp [hs] at hno
    have hfits : p.Fits ap ↔ p.wifi.ModeKnown ap := by
      simp [WifiProfile.Fits, hopen]
    rw [hfits, ← hagain]
    constructor
    · intro hcomp
      have h := hcomp.again
      simp only [wifiUtilsCompleteConnection, bind_ok_iff, if_pos hopen] at h
      obtain ⟨w', hw', -, -, heq⟩ := h
      cases heq
      exact hw'
    · intro hw'
      constructor
      · exact hkeep
      · simp [hwsec]
      · simp [hwsec]
      · simp only [wifiUtilsCompleteConnection, bind_ok_iff, if_pos hopen]
        exact ⟨w, hw', (), failIf_ok_iff.mpr hno, rfl⟩
  case isFalse hopen =>
    rw [bind_ok_iff] at h
    obtain ⟨s, hs, heq⟩ := h
    cases heq
    simp only [hmode, Option.some.injEq] at hs
    have hsec := WirelessSecurity.completed_iff_fits hopen hs
    have hfits : p.Fits ap ↔ p.wifi.ModeKnown ap ∧ (p.wsec.getD {}).Completed env ap
        (p.wifi.mode.getD (Wireless.apModeName ap) = "adhoc") p.s8021x s := by
      rw [hsec, WifiProfile.Fits, or_iff_right hopen]
    rw [hfits, ← hagain]
    constructor
    · intro hcomp
      have h := hcomp.again
      simp only [wifiUtilsCompleteConnection, bind_ok_iff, if_neg hopen] at h
      obtain ⟨w', hw', s', hs', heq⟩ := h
      cases heq
      simp only [hmode, Option.some.injEq, Option.getD_some] at hs'
      have hkept : (p.wsec.getD {}).Keeps s := by
        cases hp : p.wsec with
        | none =>
          exact ⟨by simp, by simp, by simp, by simp, by simp, by simp, by simp, by simp, by simp,
            by simp, by simp, by simp, by simp⟩
        | some s₀ =>
          obtain ⟨s₁, hs₁, hk⟩ := hcomp.wsec s₀ hp
          cases hs₁
          exact hk
      exact ⟨hw', hkept, hcomp.offered s rfl, hs'⟩
    · rintro ⟨hw', hk, hoff, hs'⟩
      constructor
      · exact hkeep
      · intro s₀ hs₀
        simp only [hs₀, Option.getD_some] at hk
        exact ⟨s, rfl, hk⟩
      · intro s' hs'
        cases hs'
        exact hoff
      · simp only [wifiUtilsCompleteConnection, bind_ok_iff, if_neg hopen]
        refine ⟨w, hw', s, ?_, rfl⟩
        simpa [hmode] using hs'

/-- An access point with the suite B key management alone -/
def suiteBAccessPoint : AccessPoint where
  ssid := some [0x61]
  bssid := some "00:11:22:33:44:55"
  mode := .infra
  freq := 2412
  flags := 0x1
  wpaFlags := 0
  rsnFlags := 0x2000

def enterpriseProfile (keyMgmt : String) : WifiProfile Unit where
  wifi := { ssid := some [0x61], mode := some "infrastructure" }
  wsec := some { keyMgmt := some keyMgmt, authAlg := some "open" }
  s8021x := some ()

def anyWifiEnv : WifiEnv Unit where
  freqToChannel := fun freq => if freq = 2412 then 1 else 0
  freqToBand := fun freq => if freq = 2412 then some "bg" else none
  verify8021x := fun _ => .ok ()

/-- An enterprise profile stays as it is when the access point offers 802.1X. -/
theorem wifiUtilsCompleteConnection_completed_iff_enterprise :
    (enterpriseProfile "wpa-eap").Completed anyWifiEnv
      { suiteBAccessPoint with rsnFlags := 0x200 } false (enterpriseProfile "wpa-eap") := by
  have h : wifiUtilsCompleteConnection anyWifiEnv { suiteBAccessPoint with rsnFlags := 0x200 }
      false (enterpriseProfile "wpa-eap") = .ok (enterpriseProfile "wpa-eap") := by rfl
  rw [wifiUtilsCompleteConnection_completed_iff h]
  constructor
  · exact .inl (by simp [enterpriseProfile])
  · right
    simp [WirelessSecurity.Fits, enterpriseProfile, suiteBAccessPoint, AccessPoint.noWpa,
      AccessPoint.hasEap]

/-- The suite B key management that was asked for and is offered becomes `wpa-eap`. -/
theorem wifiUtilsCompleteConnection_replaces_suiteB :
    wifiUtilsCompleteConnection anyWifiEnv suiteBAccessPoint false
        (enterpriseProfile "wpa-eap-suite-b-192") = .ok (enterpriseProfile "wpa-eap") ∧
      ¬(enterpriseProfile "wpa-eap-suite-b-192").Completed anyWifiEnv suiteBAccessPoint false
        (enterpriseProfile "wpa-eap") := by
  constructor
  · rfl
  · intro hcomp
    obtain ⟨s', hs', hk⟩ := hcomp.wsec _ rfl
    cases hs'
    have hkey := hk.keyMgmt _ rfl
    simp at hkey

end NetworkManager.Core
