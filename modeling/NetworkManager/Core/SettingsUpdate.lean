import NetworkManager.Core.SettingsStorage
import Mathlib.Data.Finset.Basic

/-!
# Updating a profile

`nm_settings_update_connection()` checks a profile, decides which storage it goes to and which one
is dropped, and writes it. Only when that succeeded, or when failures are ignored, the entry of the
UUID takes over the changes. Connections are pointers to objects that do not change.
-/

namespace NetworkManager.Core

open Lib

/-! ## Flags and modes -/

/-- `NMSettingsConnectionIntFlags` -/
inductive SettFlag where
  | unsaved
  | nmGenerated
  | volatile
  | external
  | visible
deriving DecidableEq

def persistentMask : Finset SettFlag := {.nmGenerated, .volatile, .external}

/-- `NMSettingsConnectionPersistMode` -/
inductive SettPersistMode where
  | keep
  | toDisk
  | inMemory
  | inMemoryDetached
  | inMemoryOnly
  | noPersist
deriving DecidableEq

/-- The bits of `NMSettingsConnectionUpdateReason` that the update looks at. -/
inductive SettUpdateReason where
  | ignorePersistFailure
  | forceRename
  | blockAutoconnect
deriving DecidableEq

/-! ## The state -/

/-- `NMSettingsConnection` -/
structure SettConn where
  storage : ℕ
  connection : Option ℕ
  flags : Finset SettFlag
  defaultWiredDevice : Option ℕ
  autoconnectBlocked : Bool

structure SettConnEntry where
  settConn : Option ℕ
  storage : Option ℕ
  lists : StorageLists

/-- `NMSettings`, with the storages of the plugins, the `NMSettingsConnection` objects, and the
connection that is attached to a device as its default-wired one. -/
structure SettingsState where
  storages : Storages
  nextStorage : ℕ
  sceIdx : Bytes → Option SettConnEntry
  sceDirtyLst : List Bytes
  settConns : ℕ → SettConn
  nextSettConn : ℕ
  connectionsLst : List ℕ
  defaultWiredConnection : ℕ → Option ℕ

/-- The arguments of `nms_keyfile_writer_connection()` that differ between its callers. -/
structure KeyfileWrite where
  connection : ℕ
  isNmGenerated : Bool
  isVolatile : Bool
  isExternal : Bool
  shadowedStorage : Option Bytes
  shadowedOwned : Bool
  storageType : ℕ
  existingPath : Option Bytes
  forceRename : Option Bool

/-- What it returns, and the time of the written file. -/
structure KeyfileWritten where
  fullFilename : Bytes
  reread : ℕ
  rereadSame : Bool
  mtime : Timespec

/-- The plugins, the profiles and the file system. -/
structure SettingsEnv where
  /-- `priv->plugins` and their names -/
  plugins : List ℕ
  pluginName : ℕ → String
  keyfilePlugin : ℕ
  /-- `nm_connection_get_uuid()` -/
  connectionUuid : ℕ → Bytes
  /-- `nm_connection_compare()` -/
  connectionCompare : ℕ → ℕ → Bool
  /-- `_nm_connection_ensure_normalized()`: the connection or a clone of it -/
  ensureNormalized : ℕ → Bytes → Except String ℕ
  /-- `_connection_changed_normalize_connection()` of the second connection, with the agent-owned
  secrets of the first one -/
  normalizeConnection : ℕ → ℕ → Option ℕ
  /-- `nm_settings_connection_check_visibility()` -/
  checkVisibility : ℕ → Bool
  /-- whether the keyfile plugin has a directory in `/etc` -/
  dirnameEtc : Bool
  /-- `[keyfile].rename` -/
  keyfileRename : Bool
  keyfileWriterConnection : KeyfileWrite → Except String KeyfileWritten
  /-- `nms_keyfile_nmmeta_filename()` -/
  nmmetaFilename : Bool → Bytes → Bytes
  /-- whether `nms_keyfile_nmmeta_write()` succeeds -/
  nmmetaWrite : Bool → Bool
  /-- `add_connection()` of another plugin: the storage and the connection -/
  addConnection : ℕ → ℕ → Except String (SettingsStorage × ℕ)
  /-- `update_connection()` of another plugin: the class of the storage and the connection -/
  updateConnection : ℕ → ℕ → Except String (StorageClass × ℕ)
  /-- whether `delete_connection()` of the storage's plugin succeeds -/
  deleteConnection : ℕ → Bool

/-! ## The keyfile plugin -/

section

variable (env : SettingsEnv)

def keyfileStorageNewConnection (connection : ℕ) (filename : Bytes) (storageType : ℕ)
    (isNmGenerated isVolatile isExternal : Bool) (shadowedStorage : Option Bytes)
    (shadowedOwned : Bool) (statMtime : Timespec) : SettingsStorage where
  plugin := env.keyfilePlugin
  uuid := env.connectionUuid connection
  filename := some filename
  linked := true
  klass :=
    let run : Bool := storageType = storageTypeRun
    .keyfile storageType (.connData {
      shadowedStorage
      statMtime
      isNmGenerated := run && isNmGenerated
      isVolatile := run && isVolatile
      isExternal := run && isExternal
      shadowedOwned := run && shadowedStorage.isSome && shadowedOwned })

def keyfilePluginAddConnection (connection : ℕ)
    (inMemory isNmGenerated isVolatile isExternal : Bool) (shadowedStorage : Option Bytes)
    (shadowedOwned : Bool) : Except String (SettingsStorage × ℕ) := do
  let storageType := if !inMemory && env.dirnameEtc then storageTypeEtc else storageTypeRun
  let written ← env.keyfileWriterConnection {
    connection, isNmGenerated, isVolatile, isExternal, shadowedStorage, shadowedOwned, storageType
    existingPath := none
    forceRename := some false }
  let reread := if written.rereadSame then connection else written.reread
  return (keyfileStorageNewConnection env reread written.fullFilename storageType isNmGenerated
    isVolatile isExternal shadowedStorage shadowedOwned written.mtime, reread)

/-- What becomes of the storages when a storage is updated: it changes, or another one takes its
place. -/
inductive StorageUpdate where
  | changed (klass : StorageClass)
  | replaced (storage : SettingsStorage)

def keyfilePluginUpdateConnection (storage : SettingsStorage) (connection : ℕ)
    (isNmGenerated isVolatile isExternal : Bool) (shadowedStorage : Option Bytes)
    (shadowedOwned forceRename : Bool) : Except String (StorageUpdate × ℕ) := do
  let previousFilename := storage.filename.getD []
  let storageType :=
    match storage.klass with
    | .keyfile storageType _ => storageType
    | _ => storageTypeRun
  let written ← env.keyfileWriterConnection {
    connection, isNmGenerated, isVolatile, isExternal, shadowedStorage, shadowedOwned, storageType
    existingPath := some previousFilename
    forceRename :=
      if forceRename then some true else if env.keyfileRename then none else some false }
  let reread := if written.rereadSame then connection else written.reread
  let previousShadowed :=
    match storage.klass with
    | .keyfile _ (.connData d) => d.shadowedStorage
    | _ => none
  if written.fullFilename = previousFilename then
    return (.changed (.keyfile storageType (.connData {
      shadowedStorage := previousShadowed
      statMtime := written.mtime
      isNmGenerated, isVolatile, isExternal, shadowedOwned })), reread)
  else
    return (.replaced (keyfileStorageNewConnection env reread written.fullFilename storageType
      isNmGenerated isVolatile isExternal previousShadowed shadowedOwned written.mtime), reread)

end

/-! ## Choosing a storage -/

def SettingsStorage.isKeyfileLib (s : SettingsStorage) : Bool :=
  match s.klass with
  | .keyfile storageType _ => storageTypeLibBase ≤ storageType
  | _ => false

def SettingsStorage.getShadowedStorage (s : SettingsStorage) : Option Bytes × Bool :=
  match s.klass with
  | .keyfile storageType content =>
    if storageType = storageTypeRun then
      match content with
      | .connData d => if d.shadowedStorage.isSome then (d.shadowedStorage, d.shadowedOwned)
        else (none, false)
      | .metaData d => (d.shadowedStorage, false)
    else (none, false)
  | _ => (none, false)

def SettingsStorage.getFilenameForShadowedStorage (s : SettingsStorage) : Option Bytes :=
  match s.klass with
  | .keyfile storageType content =>
    if content.isMetaData ∨ storageType ≠ storageTypeEtc then none else s.filename
  | _ => s.filename

section

variable (env : SettingsEnv) (storages : Storages)

/-- `_sett_conn_entry_storage_find_conflicting_storage()` without a storage to include -/
def findConflictingStorage (targetPlugin : ℕ) (storageCheckIgnore : Option ℕ) :
    List StorageData → Option ℕ
  | [] => none
  | sd :: sds =>
    if sd.connection.isNone ∨ storageCheckIgnore = some sd.storage then
      findConflictingStorage targetPlugin storageCheckIgnore sds
    else if settingsPluginCmpByPriority (storages sd.storage).plugin targetPlugin env.plugins ≠ .gt
    then none
    else some sd.storage

def findShadowedStorage (sds : List StorageData) (shadowedStorageFilename : Option Bytes)
    (blacklistedStorage : ℕ) : Option ℕ :=
  match shadowedStorageFilename with
  | none => none
  | some filename =>
    (sds.find? fun sd => sd.connection.isSome ∧ sd.storage ≠ blacklistedStorage ∧
      (storages sd.storage).getFilenameForShadowedStorage = some filename).map StorageData.storage

/-- What is to be written. -/
structure ProfileWrite where
  connection : ℕ
  inMemory : Bool
  settFlags : Finset SettFlag
  shadowedStorage : Option Bytes
  shadowedOwned : Bool

/-- The error of `_add_connection_to_first_plugin()` -/
def addConnectionError (pluginName firstError : Option String) : String :=
  firstError.getD
    ("a plugin by the name of '" ++ pluginName.getD "(null)" ++ "' is not available")

/-- `_add_connection_to_first_plugin()` from the given plugins on, with the first error so far -/
def addConnectionToFirstPlugin (pluginName : Option String) (sds : List StorageData)
    (write : ProfileWrite) (dropStorage : Option ℕ) :
    List ℕ → Option String → Except String (SettingsStorage × ℕ)
  | [], firstError => .error (addConnectionError pluginName firstError)
  | plugin :: plugins, firstError =>
    if pluginName.any fun name => name ≠ env.pluginName plugin then
      addConnectionToFirstPlugin pluginName sds write dropStorage plugins firstError
    else if ¬ write.inMemory ∧ (findConflictingStorage env storages plugin dropStorage sds).isSome
    then .error (addConnectionError pluginName firstError)
    else if plugin ≠ env.keyfilePlugin ∧ write.inMemory then
      addConnectionToFirstPlugin pluginName sds write dropStorage plugins firstError
    else
      let added :=
        if plugin = env.keyfilePlugin then
          keyfilePluginAddConnection env write.connection write.inMemory
            (.nmGenerated ∈ write.settFlags) (.volatile ∈ write.settFlags)
            (.external ∈ write.settFlags) write.shadowedStorage write.shadowedOwned
        else env.addConnection plugin write.connection
      match added with
      | .ok r => .ok r
      | .error e =>
        addConnectionToFirstPlugin pluginName sds write dropStorage plugins (firstError.or (some e))

def updateConnectionToPlugin (storage : ℕ) (write : ProfileWrite) (forceRename : Bool) :
    Except String (StorageUpdate × ℕ) :=
  if (storages storage).plugin = env.keyfilePlugin then
    keyfilePluginUpdateConnection env (storages storage) write.connection
      (.nmGenerated ∈ write.settFlags) (.volatile ∈ write.settFlags) (.external ∈ write.settFlags)
      write.shadowedStorage write.shadowedOwned forceRename
  else
    (env.updateConnection storage write.connection).map fun (klass, connection) =>
      (.changed klass, connection)

end

/-- Which storage is updated and which one is dropped, and what the written storage shadows. -/
structure UpdatePlan where
  updateStorage : Option ℕ
  dropStorage : Option ℕ
  shadowedStorage : Option Bytes
  shadowedOwned : Bool

/-- The choice of storages in `nm_settings_update_connection()` -/
def updatePlan (env : SettingsEnv) (storages : Storages) (sds : List StorageData) (curStorage : ℕ)
    (persistMode : SettPersistMode) (newInMemory : Bool) (pluginName : Option String) :
    UpdatePlan :=
  let cur := storages curStorage
  let curInMemory := cur.isKeyfileRun
  let shadowedStorage := findShadowedStorage storages sds cur.getShadowedStorage.1 curStorage
  let curShadowedStorageFilename :=
    if shadowedStorage.isNone then none else cur.getShadowedStorage.1
  let (dropStorage, updateStorage) : Option ℕ × Option ℕ :=
    if newInMemory ∧ persistMode = .inMemoryOnly then
      if curInMemory then (shadowedStorage, some curStorage) else (some curStorage, none)
    else if ¬ newInMemory ∧ curInMemory ∧ shadowedStorage.isSome then
      (some curStorage, shadowedStorage)
    else if newInMemory ≠ curInMemory then
      if ¬ newInMemory ∨ persistMode = .inMemoryOnly then (some curStorage, none)
      else (none, none)
    else if cur.isKeyfileLib then (none, none)
    else (none, some curStorage)
  let (newShadowedStorage, newShadowedOwned) : Option Bytes × Bool :=
    if ¬ newInMemory ∨ persistMode = .inMemoryOnly then (none, false)
    else if ¬ curInMemory then
      (cur.getFilenameForShadowedStorage,
        cur.getFilenameForShadowedStorage.isSome && persistMode ≠ .inMemoryDetached)
    else
      (curShadowedStorageFilename,
        curShadowedStorageFilename.isSome && persistMode = .inMemory)
  -- A profile of another plugin than the given one is dropped and added anew.
  let migrate := updateStorage.any fun storage =>
    pluginName.any fun name => name ≠ env.pluginName (storages storage).plugin
  { updateStorage := if migrate then none else updateStorage
    dropStorage := if migrate then updateStorage else dropStorage
    shadowedStorage := newShadowedStorage
    shadowedOwned := newShadowedOwned }

/-! ## Bookkeeping -/

namespace SettingsState

variable (env : SettingsEnv) (st : SettingsState)

def setStorage (storage : ℕ) (s : SettingsStorage) : SettingsState :=
  { st with storages := Function.update st.storages storage s }

def setSettConn (settConn : ℕ) (s : SettConn) : SettingsState :=
  { st with settConns := Function.update st.settConns settConn s }

def setEntry (uuid : Bytes) (e : Option SettConnEntry) : SettingsState :=
  { st with sceIdx := Function.update st.sceIdx uuid e }

/-- `default_wired_clear_tag()`, without `add_to_no_auto_default` -/
def defaultWiredClearTag (device settConn : ℕ) : SettingsState :=
  { st.setSettConn settConn { st.settConns settConn with defaultWiredDevice := none } with
    defaultWiredConnection := Function.update st.defaultWiredConnection device none }

/-- `_connection_changed_track()` in the entry of the storage's UUID -/
def track (storage : ℕ) (connection : Option ℕ) (prioritize : Bool) : SettingsState :=
  let uuid := (st.storages storage).uuid
  let e := (st.sceIdx uuid).getD
    { settConn := none, storage := none, lists := { sdLst := [], dirtySdLst := [] } }
  { st.setEntry uuid
      (some { e with lists := connectionChangedTrack storage connection prioritize e.lists }) with
    sceDirtyLst := st.sceDirtyLst.erase uuid ++ [uuid] }

/-- `nm_sett_util_storages_lookup_by_filename()` of the keyfile plugin -/
def lookupByFilename (filename : Bytes) : Option ℕ :=
  (List.range st.nextStorage).find? fun storage =>
    (st.storages storage).linked ∧ (st.storages storage).plugin = env.keyfilePlugin ∧
      (st.storages storage).filename = some filename

def newStorage (s : SettingsStorage) : SettingsState × ℕ :=
  ({ st.setStorage st.nextStorage s with nextStorage := st.nextStorage + 1 }, st.nextStorage)

/-- `nms_keyfile_plugin_set_nmmeta_tombstone()` to set a tombstone. Without a directory in `/etc`
nothing happens. -/
def setNmmetaTombstone (simulate : Bool) (uuid : Bytes) (inMemory : Bool)
    (shadowedStorage : Option Bytes) : Bool × SettingsState × Option ℕ :=
  if ¬ inMemory ∧ ¬ env.dirnameEtc then (true, st, none)
  else if ¬ simulate ∧ ¬ env.nmmetaWrite inMemory then (false, st, none)
  else
    let storageType := if inMemory then storageTypeRun else storageTypeEtc
    let filename := env.nmmetaFilename inMemory uuid
    match st.lookupByFilename env filename with
    | none =>
      let (st, storage) := st.newStorage {
        plugin := env.keyfilePlugin
        uuid
        filename := some filename
        linked := true
        klass := .keyfile storageType (.metaData {
          shadowedStorage := if inMemory then shadowedStorage else none
          isTombstone := true }) }
      (true, st, some storage)
    | some storage =>
      let klass :=
        match (st.storages storage).klass with
        | .keyfile storageType (.metaData d) =>
          .keyfile storageType (.metaData { d with shadowedStorage })
        | klass => klass
      (true, st.setStorage storage { st.storages storage with klass }, some storage)

/-- `_set_nmmeta_tombstone()` -/
def setTombstones (uuid : Bytes) (tombstoneOnDisk tombstoneInMemory : Bool)
    (shadowedStorage : Option Bytes) : SettingsState :=
  let (st, tombstoneInMemory) :=
    if tombstoneOnDisk then
      let (success, st, tombstone) := st.setNmmetaTombstone env false uuid false none
      (tombstone.elim st fun storage => st.track storage none false,
        !success || tombstoneInMemory)
    else (st, tombstoneInMemory)
  if tombstoneInMemory then
    let (success, st', tombstone) := st.setNmmetaTombstone env false uuid true shadowedStorage
    let (_, st', tombstone) :=
      if success then (true, st', tombstone)
      else st.setNmmetaTombstone env true uuid true shadowedStorage
    tombstone.elim st' fun storage => st'.track storage none false
  else st

def setFlagsFull (settConn : ℕ) (mask value : Finset SettFlag) : SettingsState :=
  st.setSettConn settConn { st.settConns settConn with
    flags := (st.settConns settConn).flags \ mask ∪ value }

def connectionChangedUpdate (settConn storage connection : ℕ) (settFlags settMask : Finset SettFlag)
    (updateReason : Finset SettUpdateReason) : SettingsState :=
  let old := st.settConns settConn
  let connection :=
    match old.connection with
    | some oldConnection =>
      if env.connectionCompare oldConnection connection then oldConnection else connection
    | none => connection
  let st := st.setSettConn settConn { old with
    storage
    connection := some connection
    autoconnectBlocked := decide (.blockAutoconnect ∈ updateReason) || old.autoconnectBlocked }
  let st :=
    if settConn ∈ st.connectionsLst then st
    else { st with connectionsLst := st.connectionsLst ++ [settConn] }
  let settFlags := if env.checkVisibility connection then insert .visible settFlags else settFlags
  let settMask := insert .visible (insert .unsaved settMask)
  if (st.storages storage).isKeyfileRun then
    st.setFlagsFull settConn settMask (insert .unsaved settFlags)
  else
    st.setFlagsFull settConn (settMask ∪ persistentMask) (settFlags \ persistentMask)

def connectionChangedDelete (settConn : ℕ) : SettingsState :=
  let st :=
    match (st.settConns settConn).defaultWiredDevice with
    | none => st
    | some device => st.defaultWiredClearTag device settConn
  let st := { st with connectionsLst := st.connectionsLst.erase settConn }
  st.setFlagsFull settConn {.visible, .volatile, .external} ∅

/-- `_connection_changed_process_one()`, without `override_sett_flags` -/
def connectionChangedProcessOne (settFlags settMask : Finset SettFlag)
    (updateReason : Finset SettUpdateReason) (uuid : Bytes) : SettingsState :=
  let st := { st with sceDirtyLst := st.sceDirtyLst.erase uuid }
  match st.sceIdx uuid with
  | none => st
  | some e =>
    let e := { e with lists := sdsUpdate st.storages env.plugins e.lists }
    match e.lists.sdLst.head? with
    | none =>
      let st := st.setEntry uuid none
      e.settConn.elim st st.connectionChangedDelete
    | some { storage, connection := none, .. } =>
      let st := st.setEntry uuid (some { e with settConn := none, storage := some storage })
      e.settConn.elim st st.connectionChangedDelete
    | some { storage, connection := some connection, .. } =>
      let (st, settConn) :=
        match e.settConn with
        | some settConn => (st, settConn)
        | none => ({ st with nextSettConn := st.nextSettConn + 1 }, st.nextSettConn)
      let st := st.setEntry uuid (some { e with settConn := some settConn, storage := some storage })
      st.connectionChangedUpdate env settConn storage connection settFlags settMask updateReason

def connectionChangedProcessAllDirty (settFlags settMask : Finset SettFlag)
    (updateReason : Finset SettUpdateReason) : SettingsState :=
  st.sceDirtyLst.foldl
    (fun st uuid => st.connectionChangedProcessOne env settFlags settMask updateReason uuid) st

end SettingsState

/-! ## The update -/

/-- The arguments of `nm_settings_update_connection()` -/
structure UpdateArgs where
  settConn : ℕ
  pluginName : Option String
  connection : Option ℕ
  persistMode : SettPersistMode
  settFlags : Finset SettFlag
  settMask : Finset SettFlag
  updateReason : Finset SettUpdateReason

namespace SettingsState

variable (env : SettingsEnv) (st : SettingsState) (args : UpdateArgs)

def updateUuid : Bytes := (st.storages (st.settConns args.settConn).storage).uuid

/-- The profile to write: the given one if it is valid, or the one that there is. -/
def updateConnectionChecked : Except String ℕ :=
  match args.connection with
  | some connection =>
    match env.ensureNormalized connection (st.updateUuid args) with
    | .ok connection => .ok connection
    | .error e => .error ("connection is invalid: " ++ e)
  | none => .ok ((st.settConns args.settConn).connection.getD 0)

/-- The request makes a generated profile one of the user. -/
def UserProfile : Prop := .nmGenerated ∈ args.settMask ∧ .nmGenerated ∉ args.settFlags

instance : Decidable (UserProfile args) := inferInstanceAs (Decidable (_ ∧ _))

/-- The default-wired connection of a device, that the user changes, is one no longer. -/
def updateForgetDefaultWired (persistMode : SettPersistMode) : SettingsState × SettPersistMode :=
  if UserProfile args then
    match (st.settConns args.settConn).defaultWiredDevice with
    | some device =>
      (st.defaultWiredClearTag device args.settConn,
        if persistMode = .noPersist then .toDisk else persistMode)
    | none => (st, persistMode)
  else (st, persistMode)

/-- Take over what was written: the storage and the connection, with what the written storage
replaces and what is dropped for it. -/
def updateCommit (curStorage newStorage connection : ℕ) (prevUpdateStorage dropStorage : Option ℕ)
    (settFlags settMask : Finset SettFlag) : SettingsState :=
  let uuid := (st.storages curStorage).uuid
  let curInMemory := (st.storages curStorage).isKeyfileRun
  let st := st.track newStorage (some connection) true
  let st := prevUpdateStorage.elim st fun storage => st.track storage none false
  let (st, deleteFailed) :=
    match dropStorage with
    | none => (st, false)
    | some storage =>
      if storage = newStorage then (st, false)
      else if env.deleteConnection storage then
        let st := st.setStorage storage { st.storages storage with linked := false }
        (st.track storage none false, false)
      else (st, true)
  let st := st.setTombstones env uuid (deleteFailed && !curInMemory) (deleteFailed && curInMemory)
    none
  st.connectionChangedProcessAllDirty env settFlags settMask args.updateReason

/-- Write the profile to the storage of the plan: the storages after it, the written storage and
the connection. -/
def updateWrite (plan : UpdatePlan) (write : ProfileWrite) :
    Except String (SettingsState × ℕ × ℕ × Option ℕ) :=
  let uuid := st.updateUuid args
  let sds := (st.sceIdx uuid).elim [] fun e => e.lists.sdLst
  match plan.updateStorage with
  | none =>
    (addConnectionToFirstPlugin env st.storages args.pluginName sds write plan.dropStorage
      env.plugins none).map fun (s, connection) =>
        let (st, storage) := st.newStorage s
        (st, storage, connection, none)
  | some updateStorage =>
    (updateConnectionToPlugin env st.storages updateStorage write
      (.forceRename ∈ args.updateReason)).map fun (update, connection) =>
        match update with
        | .changed klass =>
          (st.setStorage updateStorage { st.storages updateStorage with klass }, updateStorage,
            connection, none)
        | .replaced s =>
          let (st, storage) := st.newStorage s
          (st, storage, connection, some updateStorage)

/-- Changes of the flags of in-memory profiles are stored, even if the caller does not want to
persist the profile. -/
def updatePersistMode (persistMode : SettPersistMode) : SettPersistMode :=
  let changed := symmDiff args.settFlags (st.settConns args.settConn).flags ∩ args.settMask
  if persistMode = .noPersist ∧ (args.settMask ∩ persistentMask).Nonempty ∧
      (changed ∩ persistentMask).Nonempty then .inMemory
  else persistMode

/-- `nm_settings_update_connection()` from where the default-wired connection is forgotten -/
def updatePersist (connection : ℕ) (persistMode : SettPersistMode) :
    Except String Unit × SettingsState :=
  let curStorage := (st.settConns args.settConn).storage
  let curInMemory := (st.storages curStorage).isKeyfileRun
  let flags := (st.settConns args.settConn).flags
  let persistMode := st.updatePersistMode args persistMode
  let newInMemory : Bool :=
    match persistMode with
    | .toDisk => false
    | .noPersist => curInMemory
    | _ => true
  let settMask := if newInMemory then args.settMask else args.settMask ∪ persistentMask
  let settFlags := if newInMemory then args.settFlags else args.settFlags \ persistentMask
  if persistMode = .noPersist then
    (.ok (), st.updateCommit env args curStorage curStorage connection none none settFlags
      settMask)
  else
    let sds := (st.sceIdx (st.updateUuid args)).elim [] fun e => e.lists.sdLst
    let plan := updatePlan env st.storages sds curStorage persistMode newInMemory args.pluginName
    let write : ProfileWrite := {
      connection
      inMemory := newInMemory
      settFlags := flags \ settMask ∪ settFlags ∩ settMask
      shadowedStorage := plan.shadowedStorage
      shadowedOwned := plan.shadowedOwned }
    match st.updateWrite env args plan write with
    | .error e =>
      if .ignorePersistFailure ∈ args.updateReason then
        (.ok (), st.updateCommit env args curStorage curStorage connection none plan.dropStorage
          settFlags settMask)
      else
        (.error ("failed to " ++ (if plan.updateStorage.isSome then "update" else "write") ++
          " connection: " ++ e), st)
    | .ok (st, storage, newConnection, prevUpdateStorage) =>
      let newConnection := (env.normalizeConnection connection newConnection).getD newConnection
      (.ok (), st.updateCommit env args curStorage storage newConnection prevUpdateStorage
        plan.dropStorage settFlags settMask)

/-- `nm_settings_update_connection()`. The error is a `NM_SETTINGS_ERROR_INVALID_CONNECTION` with
this text. -/
def updateConnection : Except String Unit × SettingsState :=
  match st.updateConnectionChecked env args with
  | .error e => (.error e, st)
  | .ok connection =>
    let curInMemory := (st.storages (st.settConns args.settConn).storage).isKeyfileRun
    let persistMode :=
      if args.persistMode = .keep then if curInMemory then .inMemory else .toDisk
      else args.persistMode
    let (st, persistMode) := st.updateForgetDefaultWired args persistMode
    st.updatePersist env args connection persistMode

end SettingsState

/-!
## A failed update

An update that fails leaves the storages, the entries and the profile as they were. But that the
profile is the default-wired connection of a device is forgotten before the profile is written.
-/

namespace SettingsState

variable {env : SettingsEnv} {st : SettingsState} {args : UpdateArgs} {e : String}

/-! ## What a failed update does -/

theorem updateForgetDefaultWired_fst (persistMode : SettPersistMode) :
    (st.updateForgetDefaultWired args persistMode).1 =
      if UserProfile args then
        (st.settConns args.settConn).defaultWiredDevice.elim st fun device =>
          st.defaultWiredClearTag device args.settConn
      else st := by
  unfold updateForgetDefaultWired
  by_cases h : UserProfile args
  · rw [if_pos h, if_pos h]
    cases (st.settConns args.settConn).defaultWiredDevice <;> rfl
  · rw [if_neg h, if_neg h]

theorem updatePersist_error {connection : ℕ} {persistMode : SettPersistMode}
    (h : (st.updatePersist env args connection persistMode).1 = .error e) :
    (st.updatePersist env args connection persistMode).2 = st := by
  unfold updatePersist at h ⊢
  dsimp only at h ⊢
  generalize st.updatePersistMode args persistMode = persistMode at h ⊢
  by_cases hno : persistMode = .noPersist
  · rw [if_pos hno] at h
    cases h
  · rw [if_neg hno] at h ⊢
    generalize st.updateWrite env args _ _ = written at h ⊢
    cases written with
    | error e' =>
      dsimp only at h ⊢
      by_cases hignore : SettUpdateReason.ignorePersistFailure ∈ args.updateReason
      · rw [if_pos hignore] at h
        cases h
      · rw [if_neg hignore]
    | ok r => cases h

theorem updateConnection_error (h : (st.updateConnection env args).1 = .error e) :
    (st.updateConnection env args).2 =
      match st.updateConnectionChecked env args with
      | .error _ => st
      | .ok _ =>
        if UserProfile args then
          (st.settConns args.settConn).defaultWiredDevice.elim st fun device =>
            st.defaultWiredClearTag device args.settConn
        else st := by
  unfold updateConnection at h ⊢
  cases hchecked : st.updateConnectionChecked env args with
  | error e' => rfl
  | ok connection =>
    simp only [hchecked] at h ⊢
    rw [updatePersist_error h, updateForgetDefaultWired_fst]

/-- The profile is none that the update rejects. -/
def ValidProfile (env : SettingsEnv) (st : SettingsState) (args : UpdateArgs) : Prop :=
  ∀ connection ∈ args.connection, (env.ensureNormalized connection (st.updateUuid args)).isOk

/-- The profile is the default-wired connection of a device. -/
def DefaultWired (st : SettingsState) (args : UpdateArgs) : Prop :=
  (st.settConns args.settConn).defaultWiredDevice ≠ none

instance (st : SettingsState) (args : UpdateArgs) : Decidable (DefaultWired st args) :=
  inferInstanceAs (Decidable (_ ≠ _))

theorem isOk_updateConnectionChecked :
    (st.updateConnectionChecked env args).isOk ↔ ValidProfile env st args := by
  unfold updateConnectionChecked ValidProfile
  cases args.connection with
  | none => simp [Except.isOk, Except.toBool]
  | some connection =>
    cases hcheck : env.ensureNormalized connection (st.updateUuid args) with
    | error e => simp [Except.isOk, Except.toBool, hcheck]
    | ok c => simp [Except.isOk, Except.toBool, hcheck]

theorem updateConnection_error_cases (h : (st.updateConnection env args).1 = .error e) :
    (st.updateConnection env args).2 = st ∧
        ¬ (ValidProfile env st args ∧ UserProfile args ∧ DefaultWired st args) ∨
      ValidProfile env st args ∧ UserProfile args ∧
        ∃ device, (st.settConns args.settConn).defaultWiredDevice = some device ∧
          (st.updateConnection env args).2 = st.defaultWiredClearTag device args.settConn := by
  rw [updateConnection_error h, ← isOk_updateConnectionChecked]
  cases hchecked : st.updateConnectionChecked env args with
  | error e' => exact .inl ⟨rfl, fun hall => absurd hall.1 Bool.false_ne_true⟩
  | ok connection =>
    dsimp only
    by_cases huser : UserProfile args
    · rw [if_pos huser]
      cases hdevice : (st.settConns args.settConn).defaultWiredDevice with
      | none => exact .inl ⟨rfl, fun hall => hall.2.2 hdevice⟩
      | some device => exact .inr ⟨rfl, huser, device, rfl, rfl⟩
    · rw [if_neg huser]
      exact .inl ⟨rfl, fun hall => huser hall.2.1⟩

/-! ## What it keeps -/

/-- A failed update changes nothing, unless a valid profile was to become one of the user that is
the default-wired connection of a device. -/
theorem failed_update_unchanged_iff (h : (st.updateConnection env args).1 = .error e) :
    (st.updateConnection env args).2 = st ↔
      ¬ (ValidProfile env st args ∧ UserProfile args ∧ DefaultWired st args) := by
  rcases updateConnection_error_cases h with
    ⟨hsame, hnot⟩ | ⟨hvalid, huser, device, hdevice, hforget⟩
  · exact iff_of_true hsame hnot
  · have hwired : DefaultWired st args := by
      unfold DefaultWired
      rw [hdevice]
      exact Option.some_ne_none device
    apply iff_of_false
    · intro hsame
      rw [hforget] at hsame
      have hfield := congrArg (fun st => (st.settConns args.settConn).defaultWiredDevice) hsame
      simp [defaultWiredClearTag, setSettConn, hdevice] at hfield
    · exact not_not_intro ⟨hvalid, huser, hwired⟩

/-! ## A profile that cannot be written -/

/-- There is no space left for profiles. -/
def fullDisk : SettingsEnv where
  plugins := [0]
  pluginName _ := "keyfile"
  keyfilePlugin := 0
  connectionUuid _ := ascii "4f9a1b1c-6d3e-4c0a-9d5a-0a1b2c3d4e5f"
  connectionCompare := (· == ·)
  ensureNormalized connection _ := .ok connection
  normalizeConnection _ connection := some connection
  checkVisibility _ := true
  dirnameEtc := true
  keyfileRename := false
  keyfileWriterConnection _ := .error "error writing to file: No space left on device"
  nmmetaFilename _ uuid := uuid ++ ascii ".nmmeta"
  nmmetaWrite _ := false
  addConnection _ _ := .error "settings plugin does not support adding connections"
  updateConnection _ _ := .error "settings plugin does not support modifying connections"
  deleteConnection _ := true

/-- Device 5 has a generated default-wired connection in `/run`. -/
def wiredDevice : SettingsState where
  storages _ := {
    plugin := 0
    uuid := ascii "4f9a1b1c-6d3e-4c0a-9d5a-0a1b2c3d4e5f"
    filename := some (ascii "/run/NetworkManager/system-connections/Wired.nmconnection")
    linked := true
    klass := .keyfile storageTypeRun (.connData {
      shadowedStorage := none
      statMtime := ⟨0, 0⟩
      isNmGenerated := true
      isVolatile := false
      isExternal := false
      shadowedOwned := false }) }
  nextStorage := 1
  sceIdx _ := some {
    settConn := some 0
    storage := some 0
    lists := { sdLst := [⟨0, some 0, false⟩], dirtySdLst := [] } }
  sceDirtyLst := []
  settConns _ := {
    storage := 0
    connection := some 0
    flags := {.unsaved, .nmGenerated, .visible}
    defaultWiredDevice := some 5
    autoconnectBlocked := false }
  nextSettConn := 1
  connectionsLst := [0]
  defaultWiredConnection device := if device = 5 then some 0 else none

/-- The user saves the profile, or only changes it in memory. -/
def saveProfile (settMask : Finset SettFlag) : UpdateArgs where
  settConn := 0
  pluginName := none
  connection := some 1
  persistMode := .keep
  settFlags := ∅
  settMask
  updateReason := ∅

/-- Without a change of the flag, the update fails and changes nothing. -/
theorem failed_update_unchanged_kept :
    (wiredDevice.updateConnection fullDisk (saveProfile ∅)).2 = wiredDevice :=
  (failed_update_unchanged_iff rfl).mpr fun h => absurd h.2.1 (by decide)

theorem failed_update_forgets_device : ¬ ∀ env st args e,
    (updateConnection env st args).1 = .error e → (updateConnection env st args).2 = st := by
  intro h
  have hsame := h fullDisk wiredDevice (saveProfile {.nmGenerated}) _ rfl
  have hfield := congrArg (fun st => (st.settConns 0).defaultWiredDevice) hsame
  cases hfield

end SettingsState

end NetworkManager.Core
