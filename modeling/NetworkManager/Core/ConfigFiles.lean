import NetworkManager.Core.ConfigKeyfile
import NetworkManager.Core.MatchSpec
import Mathlib.Data.List.Sort

/-!
# Reading the configuration files

The files are read one after the other into one key file. The values of a later file replace those
of an earlier one, or extend them where the key ends with "+" or "-". The order of the sections
[connection*] and [device*] is reversed in each file.
-/

namespace NetworkManager.Core

open Lib GlibAux

/-! ## Names -/

def afterPrefix (pre s : String) : Option String :=
  if pre.toList <+: s.toList then some (String.ofList (s.toList.drop pre.length)) else none

def strHasPrefix (s pre : String) : Bool := (afterPrefix pre s).isSome

def afterPrefixWithMore (pre s : String) : Option String :=
  (afterPrefix pre s).filter fun rest => rest ≠ ""

def strHasPrefixWithMore (s pre : String) : Bool := (afterPrefixWithMore pre s).isSome

def groupPrefixConnection : String := "connection"
def groupPrefixDevice : String := "device"
def groupPrefixIntern : String := ".intern."
def groupPrefixTestAppendStringlist : String := ".test-append-stringlist"
def groupConfig : String := "config"
def keyPrefixWas : String := ".was."
def keyPrefixSet : String := ".set."
def keyAtomicSectionWas : String := ".was"
def keyStopMatch : String := "stop-match"
def keyMatchDevice : String := "match-device"
def keyAllowedConnections : String := "allowed-connections"

def settingIsDeviceSpec (group key : String) : Bool :=
  (group = "main" && key = "no-auto-default") ||
  (group = "main" && key = "ignore-carrier") ||
  (group = "main" && key = "assume-ipv6ll-only") ||
  (group = "keyfile" && key = "unmanaged-devices") ||
  (strHasPrefix group groupPrefixConnection && key = keyMatchDevice) ||
  (strHasPrefix group groupPrefixDevice && key = keyMatchDevice)

def settingIsConnectionSpec (group key : String) : Bool :=
  strHasPrefix group groupPrefixDevice && key = keyAllowedConnections

def settingIsStringList (group key : String) : Bool :=
  (group = "main" && key = "plugins") ||
  (group = "main" && key = "debug") ||
  (group = "logging" && key = "domains") ||
  strHasPrefix group groupPrefixTestAppendStringlist

/-! ## The order of the sections -/

/-- `_sort_groups_cmp()` of two groups with their original positions. -/
def sortGroupsCmp (a b : String × ℕ) : Ordering :=
  let aIsConnection := strHasPrefix a.1 groupPrefixConnection
  let bIsConnection := strHasPrefix b.1 groupPrefixConnection
  let aIsDevice := strHasPrefix a.1 groupPrefixDevice
  let bIsDevice := strHasPrefix b.1 groupPrefixDevice
  if aIsConnection ≠ bIsConnection then (if aIsConnection then .gt else .lt)
  else if aIsConnection then (if a.2 > b.2 then .lt else .gt)
  else if aIsDevice ≠ bIsDevice then (if aIsDevice then .gt else .lt)
  else if aIsDevice then (if a.2 > b.2 then .lt else .gt)
  else .eq

/-- `_nm_config_sort_groups()`, with a sort that is stable. -/
def sortGroups (groups : List String) : List String :=
  (groups.zipIdx.insertionSort fun a b => sortGroupsCmp b a ≠ .lt).map Prod.fst

/-! ## Reading a file -/

def listSeparator : UInt8 := ','

def keyfileSetStringList (keyfile : ConfigKeyfile) (group key : String) (strv : List Bytes) :
    ConfigKeyfile :=
  let value := keyFileSetStringList listSeparator strv
  keyfile.setValue group key
    (if value.getLast? = some listSeparator then value.dropLast else value)

def keyfileGetStringList (keyfile : ConfigKeyfile) (group key : String) : Option (List Bytes) :=
  (keyfile.getValue group key).bind (keyFileGetStringList listSeparator)

/-- What was built in, and the version and environment that a snippet can ask for. -/
structure ConfigBuild where
  defaultMainPlugins : Bytes
  matchSpecConfig : List Bytes → Bool

variable (build : ConfigBuild)

def ignoreConfigSnippet (keyfile : ConfigKeyfile) (isBaseConfig : Bool) : Bool :=
  if isBaseConfig then false
  else if keyfile.hasKey groupConfig "enable" ≠ some true then false
  else match keyfileGetBoolean keyfile groupConfig "enable" with
    | some asBool => !asBool
    | none => !build.matchSpecConfig (matchSpecSplit (keyfile.getValue groupConfig "enable"))

def isProtectedKey (key : String) : Bool :=
  strHasPrefixWithMore key keyPrefixWas || strHasPrefixWithMore key keyPrefixSet ||
    key = keyAtomicSectionWas

/-- The key that is extended by a key that ends with "+" or "-", and whether it ends with "+". -/
def extendedKey (key : String) : Option (String × Bool) :=
  if key.length ≤ 1 then none
  else match key.toList.getLast? with
    | some '+' => some (String.ofList key.toList.dropLast, true)
    | some '-' => some (String.ofList key.toList.dropLast, false)
    | _ => none

def mergeStrv (oldVal newVal : List Bytes) (plus : Bool) : List Bytes :=
  (oldVal.filter fun v => plus || v ∉ newVal) ++ (newVal.filter fun v => plus && v ∉ oldVal)

def isMainPlugins (group baseKey : String) : Bool := group = "main" && baseKey = "plugins"

def fillMainPlugins (keyfile : ConfigKeyfile) (group baseKey : String) : ConfigKeyfile :=
  if isMainPlugins group baseKey ∧ keyfile.getValue group baseKey = none then
    keyfile.setValue group baseKey build.defaultMainPlugins
  else keyfile

/-- The string list without the items that are taken away and with those that are added. -/
def storeStringList (kf keyfile : ConfigKeyfile) (group key baseKey : String) (plus : Bool) :
    ConfigKeyfile :=
  let new := mergeStrv ((keyfileGetStringList keyfile group baseKey).getD [])
    ((keyfileGetStringList kf group key).getD []) plus
  if new ≠ [] then keyfileSetStringList keyfile group baseKey new
  else if isMainPlugins group baseKey then keyfile.setValue group baseKey []
  else keyfile.removeKey group baseKey

def extendStringList (kf keyfile : ConfigKeyfile) (group key baseKey : String) (plus : Bool) :
    ConfigKeyfile :=
  storeStringList kf (fillMainPlugins build keyfile group baseKey) group key baseKey plus

/-- A key of a list of specifications that ends with "+" or "-". -/
def extendSpec (kf keyfile : ConfigKeyfile) (group key baseKey : String) (plus : Bool) :
    ConfigKeyfile :=
  let new := mergeStrv (matchSpecSplit (keyfile.getValue group baseKey))
    (matchSpecSplit (kf.getValue group key)) plus
  keyfile.setValue group baseKey (if new ≠ [] then matchSpecJoin new else [])

/-- The body of the loop of `read_config()` over the keys of a group. -/
def readConfigKey (kf : ConfigKeyfile) (group : String) (keyfile : ConfigKeyfile) (key : String) :
    ConfigKeyfile :=
  if isProtectedKey key then keyfile
  else match extendedKey key with
    | some (baseKey, plus) =>
      if settingIsStringList group baseKey then
        extendStringList build kf keyfile group key baseKey plus
      else if settingIsDeviceSpec group baseKey || settingIsConnectionSpec group baseKey then
        extendSpec kf keyfile group key baseKey plus
      else keyfile
    | none => keyfile.setOption group key (kf.getValue group key)

/-- The body of the loop of `read_config()` over the groups. -/
def readConfigGroup (kf keyfile : ConfigKeyfile) (group : String) : ConfigKeyfile :=
  if strHasPrefix group groupPrefixIntern then keyfile
  else (kf.getKeys group).foldl (readConfigKey build kf group) keyfile

/-- `read_config()` of a file that could be loaded. -/
def readConfig (keyfile kf : ConfigKeyfile) (isBaseConfig : Bool) : ConfigKeyfile :=
  if ignoreConfigSnippet build kf isBaseConfig then keyfile
  else (sortGroups (kf.removeGroup groupConfig).getGroups).foldl
    (readConfigGroup build (kf.removeGroup groupConfig)) keyfile

/-!
## The user and the internal configuration

The internal configuration is laid over that of the user. In its groups, a key with prefix ".was."
removes the key that it names unless that is set, and a key ".was" replaces the whole group.
-/

open Lib

def keyfileCopy (dst src : ConfigKeyfile) : ConfigKeyfile :=
  src.getGroups.foldl (fun dst group =>
    (src.getKeys group).foldl (fun dst key =>
      match src.getValue group key with
      | some value => dst.setValue group key value
      | none => dst.removeKey group key) dst) dst

/-- The body of the loop of `_merge_keyfiles()` over the keys of a group. -/
def mergeKey (intern : ConfigKeyfile) (group : String) (isIntern isAtomic : Bool)
    (keyfile : ConfigKeyfile) (key : String) : ConfigKeyfile :=
  if isAtomic && key = keyAtomicSectionWas then keyfile
  else if !isIntern && !isAtomic && strHasPrefixWithMore key keyPrefixWas then
    let keyBase := (afterPrefix keyPrefixWas key).getD ""
    if intern.hasKey group keyBase ≠ some true then keyfile.removeKey group keyBase else keyfile
  else if !isIntern && !isAtomic && strHasPrefixWithMore key keyPrefixSet then keyfile
  else keyfile.setOption group key (intern.getValue group key)

/-- The body of the loop of `_merge_keyfiles()` over the groups. -/
def mergeGroup (intern keyfile : ConfigKeyfile) (group : String) : ConfigKeyfile :=
  let isIntern := strHasPrefix group groupPrefixIntern
  let isAtomic := !isIntern && intern.hasKey group keyAtomicSectionWas = some true
  let keyfile := if isAtomic then keyfile.removeGroup group else keyfile
  (intern.getKeys group).foldl (mergeKey intern group isIntern isAtomic) keyfile

def mergeKeyfiles (user intern : Option ConfigKeyfile) : ConfigKeyfile :=
  let keyfile := user.elim .empty (keyfileCopy .empty)
  match intern with
  | none => keyfile
  | some intern => (sortGroups intern.getGroups).foldl (mergeGroup intern) keyfile

end NetworkManager.Core
