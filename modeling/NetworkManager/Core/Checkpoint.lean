import Mathlib.Data.List.Dedup
import NetworkManager.Lib.Keyed
import NetworkManager.Lib.Runs

/-!
# Checkpoints

`NMCheckpointManager` keeps the live checkpoints from the oldest to the youngest. Devices are
numbered; a device is exported once, when it is added, under a path of its number. Restoring a
device runs other code, so that devices may come and go while a checkpoint is rolled back.
-/

namespace NetworkManager.Core

open Lib

/-- An `NMDevice` of the manager. -/
structure CheckpointNMDevice where
  id : ℕ
  iface : ℕ
  deviceType : ℕ
  real : Bool
  exported : Bool
  deriving DecidableEq

structure DeviceCheckpoint where
  device : ℕ
  originalDevPath : ℕ
  originalDevName : ℕ
  devType : ℕ
  deriving DecidableEq

structure CheckpointCreateFlags where
  destroyAll : Bool
  disconnectNewDevices : Bool
  allowOverlapping : Bool
  deriving DecidableEq

/-- `NMCheckpoint`, with the paths of the devices that it was created with. -/
structure Checkpoint where
  id : ℕ
  flags : CheckpointCreateFlags
  devices : List DeviceCheckpoint
  /-- The modifications of the hash table. -/
  version : ℕ
  removedDevices : List DeviceCheckpoint
  /-- The timeout is scheduled. -/
  timeout : Bool
  createdWith : List ℕ
  deriving DecidableEq

/-- What happens to a checkpoint. -/
inductive CheckpointEnd
  | rolledBack (checkpoint : ℕ)
  | destroyed (checkpoint : ℕ)
  deriving DecidableEq

inductive RollbackResult
  | ok
  | failed
  deriving DecidableEq

inductive CheckpointCreateError
  | disconnectNewDevices
  | doesNotExist (path : ℕ)
  | notRealized (path : ℕ)
  | noDevice
  | alreadyIncluded (device checkpoint : ℕ)
  deriving DecidableEq

/-- A device comes or goes. -/
inductive CheckpointDeviceEvent
  | added (iface deviceType : ℕ) (real : Bool)
  | removed (device : ℕ)
  | exportedChanged (device : ℕ) (exported : Bool)
  | realChanged (device : ℕ) (real : Bool)
  deriving DecidableEq

/-- How one device is restored, and what else happens before that returns. -/
structure RestoreReaction where
  result : RollbackResult
  events : List CheckpointDeviceEvent
  deriving DecidableEq

namespace DeviceCheckpoint

def create (d : CheckpointNMDevice) : DeviceCheckpoint where
  device := d.id
  originalDevPath := d.id
  originalDevName := d.iface
  devType := d.deviceType

end DeviceCheckpoint

namespace Checkpoint

def includesDevices (c : Checkpoint) (devices : List CheckpointNMDevice) : Option ℕ :=
  (devices.find? fun d => c.devices.any (·.device = d.id)).map (·.id)

def includesDevicesOf (c cpForDevices : Checkpoint) : Option ℕ :=
  (cpForDevices.devices.find? fun x => c.devices.any (·.device = x.device)).map (·.device)

def moveDevToRemovedDevices (c : Checkpoint) (device : ℕ) : Checkpoint :=
  match lookup (·.device) device c.devices with
  | none => c
  | some x =>
    { c with
      devices := eraseKey (·.device) device c.devices
      version := c.version + 1
      removedDevices := c.removedDevices ++ [x] }

/-- `nm_checkpoint_new()`, whose hash table has one entry for a device that is listed twice. -/
def new (id : ℕ) (devices : List CheckpointNMDevice) (rollbackTimeoutS : ℕ)
    (flags : CheckpointCreateFlags) : Checkpoint :=
  let table := devices.foldl (fun table d => upsert (·.device) (DeviceCheckpoint.create d) table) []
  { id := id
    flags := flags
    devices := table
    version := 0
    removedDevices := []
    timeout := rollbackTimeoutS ≠ 0
    createdWith := (devices.map (·.id)).dedup }

end Checkpoint

/-- One rollback, for the record. -/
structure RollbackRecord where
  checkpoint : Checkpoint
  younger : List Checkpoint
  destroyed : List ℕ
  results : List (ℕ × RollbackResult)
  deriving DecidableEq

/-- The daemon. The last two fields are only a record. -/
structure CheckpointSystem where
  devices : List CheckpointNMDevice
  nextDevice : ℕ
  /-- The oldest first. -/
  checkpoints : List Checkpoint
  nextCheckpoint : ℕ
  history : List CheckpointEnd
  rollbacks : List RollbackRecord
  deriving DecidableEq

namespace CheckpointSystem

def start : CheckpointSystem := ⟨[], 0, [], 0, [], []⟩

/-! ## Devices -/

def moveDevice (s : CheckpointSystem) (device : ℕ) : CheckpointSystem :=
  { s with checkpoints := s.checkpoints.map (·.moveDevToRemovedDevices device) }

/-- `nm_manager_get_device()`, which identifies a device by its interface name and type. -/
def getDevice (s : CheckpointSystem) (iface deviceType : ℕ) : Option CheckpointNMDevice :=
  s.devices.find? fun d => d.deviceType = deviceType ∧ d.iface = iface

def deviceEvent (s : CheckpointSystem) : CheckpointDeviceEvent → CheckpointSystem
  | .added iface deviceType real =>
    if (s.getDevice iface deviceType).isSome then s
    else { s with
      devices := s.devices ++ [⟨s.nextDevice, iface, deviceType, real, true⟩]
      nextDevice := s.nextDevice + 1 }
  | .removed device => { s.moveDevice device with devices := eraseKey (·.id) device s.devices }
  | .exportedChanged device exported =>
    { s.moveDevice device with
      devices := modifyKey (·.id) device (fun d => { d with exported := exported }) s.devices }
  | .realChanged device real =>
    { (if real then s else s.moveDevice device) with
      devices := modifyKey (·.id) device (fun d => { d with real := real }) s.devices }

def deviceEvents (s : CheckpointSystem) (events : List CheckpointDeviceEvent) : CheckpointSystem :=
  events.foldl deviceEvent s

/-! ## The end of a checkpoint -/

def destroyCheckpoint (s : CheckpointSystem) (checkpoint : ℕ) : CheckpointSystem :=
  { s with
    checkpoints := eraseKey (·.id) checkpoint s.checkpoints
    history := s.history ++ [.destroyed checkpoint] }

def destroyAll (s : CheckpointSystem) : CheckpointSystem :=
  s.checkpoints.foldl (fun s c => s.destroyCheckpoint c.id) s

/-- The first loop of `rollback_checkpoint()`, with the checkpoints that it destroyed. -/
def destroyYounger (c : Checkpoint) :
    List Checkpoint → CheckpointSystem → CheckpointSystem × List ℕ
  | [], s => (s, [])
  | cp :: younger, s =>
    if (cp.includesDevicesOf c).isSome then
      let (s, destroyed) := destroyYounger c younger (s.destroyCheckpoint cp.id)
      (s, cp.id :: destroyed)
    else destroyYounger c younger s

def lookupCheckpoint (s : CheckpointSystem) (checkpoint : ℕ) : Option Checkpoint :=
  lookup (·.id) checkpoint s.checkpoints

def removedDevicesOf (s : CheckpointSystem) (checkpoint : ℕ) : List DeviceCheckpoint :=
  match s.lookupCheckpoint checkpoint with
  | none => []
  | some c => c.removedDevices

def devicesOf (s : CheckpointSystem) (checkpoint : ℕ) : List DeviceCheckpoint :=
  match s.lookupCheckpoint checkpoint with
  | none => []
  | some c => c.devices

def versionOf (s : CheckpointSystem) (checkpoint : ℕ) : ℕ :=
  match s.lookupCheckpoint checkpoint with
  | none => 0
  | some c => c.version

/-- The loop of `nm_checkpoint_rollback()` over the removed devices from an index. Devices that are
removed meanwhile are added to them. -/
def rollbackRemoved (checkpoint : ℕ) :
    ℕ → List RestoreReaction → CheckpointSystem → CheckpointSystem × List (ℕ × RollbackResult)
  | i, [], s =>
    (s, ((s.removedDevicesOf checkpoint).drop i).map fun x => (x.originalDevPath, .ok))
  | i, r :: reactions, s =>
    match (s.removedDevicesOf checkpoint)[i]? with
    | none => (s, [])
    | some x =>
      let (s, results) := rollbackRemoved checkpoint (i + 1) reactions (s.deviceEvents r.events)
      (s, (x.originalDevPath, r.result) :: results)

/-- The loop of `nm_checkpoint_rollback()` over the rest of the hash table. The iterator finds
nothing any more once the table was modified. -/
def rollbackDevices (checkpoint version : ℕ) :
    List DeviceCheckpoint → List RestoreReaction → CheckpointSystem →
      CheckpointSystem × List (ℕ × RollbackResult)
  | [], _, s => (s, [])
  | x :: rest, reactions, s =>
    let r := reactions.head?.getD ⟨.ok, []⟩
    let s := s.deviceEvents r.events
    if s.versionOf checkpoint = version then
      let (s, results) := rollbackDevices checkpoint version rest reactions.tail s
      (s, (x.originalDevPath, r.result) :: results)
    else (s, [(x.originalDevPath, r.result)])

/-- `nm_checkpoint_rollback()`. What it does to new connections and new devices afterwards are
events of their own. -/
def rollback (s : CheckpointSystem) (checkpoint : ℕ) (removed table : List RestoreReaction) :
    CheckpointSystem × List (ℕ × RollbackResult) :=
  let s := { s with history := s.history ++ [.rolledBack checkpoint] }
  let (s, results) := rollbackRemoved checkpoint 0 removed s
  let (s, results') :=
    rollbackDevices checkpoint (s.versionOf checkpoint) (s.devicesOf checkpoint) table s
  (s, results ++ results')

def youngerThan (s : CheckpointSystem) (checkpoint : ℕ) : List Checkpoint :=
  (s.checkpoints.dropWhile (·.id ≠ checkpoint)).tail

def rollbackCheckpoint (s : CheckpointSystem) (c : Checkpoint)
    (removed table : List RestoreReaction) : CheckpointSystem :=
  let younger := s.youngerThan c.id
  let (s, destroyed) := destroyYounger c younger s
  let (s, results) := s.rollback c.id removed table
  { s.destroyCheckpoint c.id with
    rollbacks := s.rollbacks ++ [⟨c, younger, destroyed, results⟩] }

/-! ## The manager -/

/-- The devices of the paths, as `nm_checkpoint_manager_create()` finds them. -/
def devicesByPath (s : CheckpointSystem) :
    List ℕ → Except CheckpointCreateError (List CheckpointNMDevice)
  | [] => .ok []
  | path :: paths =>
    match s.devices.find? fun d => d.exported ∧ d.id = path with
    | none => .error (.doesNotExist path)
    | some d =>
      if d.real then
        match s.devicesByPath paths with
        | .error e => .error e
        | .ok devices => .ok (d :: devices)
      else .error (.notRealized path)

/-- The devices of a new checkpoint. -/
def devicesToCreate (s : CheckpointSystem) (paths : List ℕ) (flags : CheckpointCreateFlags) :
    Except CheckpointCreateError (List CheckpointNMDevice) :=
  if paths = [] then .ok (s.devices.filter (·.real))
  else if flags.disconnectNewDevices then .error .disconnectNewDevices
  else s.devicesByPath paths

def findIncluding (s : CheckpointSystem) (devices : List CheckpointNMDevice) : Option (ℕ × ℕ) :=
  s.checkpoints.findSome? fun c => (c.includesDevices devices).map fun d => (d, c.id)

def addCheckpoint (s : CheckpointSystem) (devices : List CheckpointNMDevice) (rollbackTimeout : ℕ)
    (flags : CheckpointCreateFlags) : CheckpointSystem :=
  { s with
    checkpoints := s.checkpoints ++ [.new s.nextCheckpoint devices rollbackTimeout flags]
    nextCheckpoint := s.nextCheckpoint + 1 }

def create (s : CheckpointSystem) (paths : List ℕ) (rollbackTimeout : ℕ)
    (flags : CheckpointCreateFlags) : CheckpointSystem × Except CheckpointCreateError ℕ :=
  match s.devicesToCreate paths flags with
  | .error e => (s, .error e)
  | .ok [] => (s, .error .noDevice)
  | .ok devices =>
    if flags.destroyAll then
      (s.destroyAll.addCheckpoint devices rollbackTimeout flags, .ok s.destroyAll.nextCheckpoint)
    else
      match if flags.allowOverlapping then none else s.findIncluding devices with
      | some (device, checkpoint) => (s, .error (.alreadyIncluded device checkpoint))
      | none => (s.addCheckpoint devices rollbackTimeout flags, .ok s.nextCheckpoint)

/-- `nm_checkpoint_manager_destroy()` of a path that is not `/`. -/
def destroy (s : CheckpointSystem) (checkpoint : ℕ) : CheckpointSystem :=
  match s.lookupCheckpoint checkpoint with
  | none => s
  | some c => s.destroyCheckpoint c.id

/-- `nm_checkpoint_manager_rollback()` -/
def rollbackByPath (s : CheckpointSystem) (checkpoint : ℕ) (removed table : List RestoreReaction) :
    CheckpointSystem :=
  match s.lookupCheckpoint checkpoint with
  | none => s
  | some c => s.rollbackCheckpoint c removed table

def setTimeout (s : CheckpointSystem) (checkpoint : ℕ) (timeout : Bool) : CheckpointSystem :=
  { s with checkpoints :=
      modifyKey (·.id) checkpoint (fun c => { c with timeout := timeout }) s.checkpoints }

/-- `_timeout_cb()` of a checkpoint whose timeout is scheduled. -/
def timeoutCb (s : CheckpointSystem) (checkpoint : ℕ) (removed table : List RestoreReaction) :
    CheckpointSystem :=
  match s.lookupCheckpoint checkpoint with
  | none => s
  | some c =>
    if c.timeout then
      (s.setTimeout checkpoint false).rollbackCheckpoint { c with timeout := false } removed table
    else s

end CheckpointSystem

/-! ## Runs -/

inductive CheckpointSystemEvent
  | device (event : CheckpointDeviceEvent)
  | create (paths : List ℕ) (rollbackTimeout : ℕ) (flags : CheckpointCreateFlags)
  | destroy (checkpoint : ℕ)
  | destroyAll
  | rollback (checkpoint : ℕ) (removed table : List RestoreReaction)
  | timeout (checkpoint : ℕ) (removed table : List RestoreReaction)
  | adjustRollbackTimeout (checkpoint addTimeout : ℕ)
  deriving DecidableEq

namespace CheckpointSystem

def step (s : CheckpointSystem) : CheckpointSystemEvent → CheckpointSystem
  | .device event => s.deviceEvent event
  | .create paths rollbackTimeout flags => (s.create paths rollbackTimeout flags).1
  | .destroy checkpoint => s.destroy checkpoint
  | .destroyAll => s.destroyAll
  | .rollback checkpoint removed table => s.rollbackByPath checkpoint removed table
  | .timeout checkpoint removed table => s.timeoutCb checkpoint removed table
  | .adjustRollbackTimeout checkpoint addTimeout => s.setTimeout checkpoint (addTimeout ≠ 0)

end CheckpointSystem
end NetworkManager.Core
