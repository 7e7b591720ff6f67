import NetworkManager.Core.Types
import NetworkManager.Lib.Keyed
import NetworkManager.Lib.Runs

/-!
# Secondary connections

`NMPolicy` activates the secondary connections of a device that reaches `SECONDARIES` and waits for
them. Devices, active connections and the entries of `pending_secondaries` are numbered. A call of
`nm_device_state_changed()` runs other code before it returns: the calls that did not return yet are
a stack, and every event may happen on top of it.
-/

namespace NetworkManager.Core

open Lib

inductive NMActiveConnectionState
  | unknown
  | activating
  | activated
  | deactivating
  | deactivated
  deriving DecidableEq

/-- An `NMActiveConnection` that was started as a secondary. -/
structure SecondaryActive where
  id : ℕ
  device : ℕ
  /-- The act request of the device, which is the specific object. -/
  request : ℕ
  settConn : ℕ
  state : NMActiveConnectionState
  /-- It waits for its authorization. -/
  authorizing : Bool
  /-- `active_connection_add()` was called, and the policy listens to its state. -/
  added : Bool
  deriving DecidableEq

/-- An `NMDevice` with a number for its act request. -/
structure SecondariesDevice where
  id : ℕ
  state : NMDeviceState
  actRequest : ℕ
  /-- The subject of the act request is internal. -/
  internalSubject : Bool
  /-- `nm_device_sys_iface_state_is_external_or_assume()` -/
  externalOrAssume : Bool
  /-- What `activate_secondary_connections()` started for the act request. No function of the daemon
  reads it. -/
  started : List ℕ
  deriving DecidableEq

/-- `PendingSecondaryData`, with the act request that it was made for. -/
structure PendingSecondaryData where
  id : ℕ
  device : ℕ
  secondaries : List ℕ
  request : ℕ
  deriving DecidableEq

/-- The state of `process_secondaries()` while it waits for `nm_device_state_changed()`. -/
structure SecondariesWalk where
  active : ℕ
  connected : Bool
  next : Option ℕ
  deriving DecidableEq

/-- A call of `nm_device_state_changed()` that did not return yet. -/
structure StateChangeCall where
  device : ℕ
  /-- `process_secondaries()` made the call. -/
  walk : Option SecondariesWalk
  deriving DecidableEq

/-- A state change that `process_secondaries()` made. -/
structure SecondariesMove where
  device : ℕ
  active : ℕ
  connected : Bool
  /-- What was started for the activation of the device. -/
  started : List ℕ
  /-- What had become `ACTIVATED`. -/
  activated : List ℕ
  /-- What had become `DEACTIVATED`. -/
  deactivated : List ℕ
  deriving DecidableEq

/-- A secondary of the profile. -/
inductive SecondaryProfile
  | missing
  | notVpn
  /-- `nm_manager_activate_connection()` fails. -/
  | refused
  | vpn (settConn : ℕ)
  deriving DecidableEq

/-- The daemon. The last four fields are only a record. -/
structure SecondariesSystem where
  devices : List SecondariesDevice
  actives : List SecondaryActive
  nextActive : ℕ
  pendingSecondaries : List PendingSecondaryData
  nextData : ℕ
  /-- Innermost first. -/
  calls : List StateChangeCall
  activated : List ℕ
  deactivated : List ℕ
  moves : List SecondariesMove
  freed : List ℕ
  usedAfterFree : Bool
  deriving DecidableEq

namespace PendingSecondaryData

/-- The inner loop of `process_secondaries()` at the rest of the secondaries, or `none` where it
removes the data. -/
def walk (active : ℕ) (connected : Bool) : List ℕ → List ℕ → Option (List ℕ)
  | [], secondaries => some secondaries
  | secondaryActive :: rest, secondaries =>
    if active ≠ secondaryActive then walk active connected rest secondaries
    else if connected then
      let secondaries := secondaries.erase secondaryActive
      if secondaries = [] then none else walk active connected rest secondaries
    else none

end PendingSecondaryData

namespace SecondariesSystem

def start : SecondariesSystem where
  devices := []
  actives := []
  nextActive := 0
  pendingSecondaries := []
  nextData := 0
  calls := []
  activated := []
  deactivated := []
  moves := []
  freed := []
  usedAfterFree := false

/-! ## Devices -/

def InStateChanged (s : SecondariesSystem) (device : ℕ) : Prop := ∃ c ∈ s.calls, c.device = device

instance (s : SecondariesSystem) (device : ℕ) : Decidable (s.InStateChanged device) :=
  inferInstanceAs (Decidable (∃ c ∈ s.calls, c.device = device))

def lookupDevice (s : SecondariesSystem) (device : ℕ) : Option SecondariesDevice :=
  lookup (·.id) device s.devices

def updateDevice (s : SecondariesSystem) (device : ℕ) (f : SecondariesDevice → SecondariesDevice) :
    SecondariesSystem :=
  { s with devices := modifyKey (·.id) device f s.devices }

/-- `nm_device_state_changed()` up to its callbacks, or `none` where it returns at once. -/
def stateChanged (s : SecondariesSystem) (device : ℕ) (state : NMDeviceState)
    (walk : Option SecondariesWalk) : Option SecondariesSystem :=
  match s.lookupDevice device with
  | none => none
  | some d =>
    let state := if state = .failed ∧ d.externalOrAssume = true then .activated else state
    if s.InStateChanged device ∨ d.state = state then none
    else some { s.updateDevice device fun d => { d with state := state } with
      calls := ⟨device, walk⟩ :: s.calls }

/-! ## Walks -/

def setSecondaries (s : SecondariesSystem) (data : ℕ) (secondaries : List ℕ) : SecondariesSystem :=
  { s with pendingSecondaries :=
      modifyKey (·.id) data (fun e => { e with secondaries := secondaries }) s.pendingSecondaries }

/-- `pending_secondary_data_free()` after `g_slist_remove()` -/
def freeData (s : SecondariesSystem) (data : ℕ) : SecondariesSystem :=
  { s with
    pendingSecondaries := eraseKey (·.id) data s.pendingSecondaries
    freed := s.freed ++ [data] }

/-- The state change of a device whose data was removed, or `none` where there is none. -/
def moveDevice (s : SecondariesSystem) (device : ℕ) (walk : SecondariesWalk) :
    Option SecondariesSystem :=
  match s.lookupDevice device with
  | none => none
  | some d =>
    if d.state = .secondaries ∨ walk.connected = false ∧ d.state = .activated then
      (s.stateChanged device (if walk.connected then .activated else .failed) (some walk)).map
        fun s' => { s' with moves := s.moves ++
          [⟨device, walk.active, walk.connected, d.started, s.activated, s.deactivated⟩] }
    else none

/-- The outer loop of `process_secondaries()` at the rest of the list, up to the first call of
`nm_device_state_changed()` that runs other code. -/
def processSecondaries (active : ℕ) (connected : Bool) :
    List PendingSecondaryData → SecondariesSystem → SecondariesSystem
  | [], s => s
  | data :: rest, s =>
    match PendingSecondaryData.walk active connected data.secondaries data.secondaries with
    | some secondaries => processSecondaries active connected rest (s.setSecondaries data.id secondaries)
    | none =>
      let s := s.freeData data.id
      match s.moveDevice data.device ⟨active, connected, rest.head?.map (·.id)⟩ with
      | some s' => s'
      | none => processSecondaries active connected rest s

/-- `process_secondaries()` after `nm_device_state_changed()` returned. -/
def resume (s : SecondariesSystem) (walk : SecondariesWalk) : SecondariesSystem :=
  match walk.next with
  | none => s
  | some data =>
    match s.pendingSecondaries.dropWhile (·.id ≠ data) with
    | [] => { s with usedAfterFree := true }
    | rest => processSecondaries walk.active walk.connected rest s

/-- The innermost call of `nm_device_state_changed()` returns. -/
def returnCall (s : SecondariesSystem) : SecondariesSystem :=
  match s.calls with
  | [] => s
  | c :: calls =>
    let s := { s with calls := calls }
    match c.walk with
    | none => s
    | some walk => s.resume walk

/-! ## Secondaries -/

/-- `nm_manager_activate_connection()`, which finds an active connection that still waits for its
authorization. -/
def activateConnection (s : SecondariesSystem) (d : SecondariesDevice) (settConn : ℕ) :
    SecondariesSystem × ℕ :=
  match s.actives.find? fun ac => ac.authorizing && d.internalSubject && (ac.settConn == settConn &&
      ac.device == d.id && ac.request == d.actRequest) with
  | some ac => (s, ac.id)
  | none =>
    ({ s with
        actives := s.actives ++ [⟨s.nextActive, d.id, d.actRequest, settConn, .unknown, true, false⟩]
        nextActive := s.nextActive + 1 }, s.nextActive)

/-- The loop of `activate_secondary_connections()`, or `none` where a secondary cannot be started. -/
def activateSecondaries (d : SecondariesDevice) :
    List SecondaryProfile → List ℕ → SecondariesSystem → SecondariesSystem × Option (List ℕ)
  | [], started, s => (s, some started)
  | .vpn settConn :: rest, started, s =>
    let (s, active) := s.activateConnection d settConn
    activateSecondaries d rest (started ++ [active]) s
  | _ :: _, _, s => (s, none)

def activateSecondaryConnections (s : SecondariesSystem) (d : SecondariesDevice)
    (secondaries : List SecondaryProfile) : SecondariesSystem :=
  match activateSecondaries d secondaries [] s with
  | (s, some (active :: actives)) =>
    { s.updateDevice d.id fun d => { d with started := active :: actives } with
      pendingSecondaries := s.pendingSecondaries ++
        [⟨s.nextData, d.id, active :: actives, d.actRequest⟩]
      nextData := s.nextData + 1 }
  | (s, _) => s.updateDevice d.id fun d => { d with started := [] }

/-- Another part of the daemon calls `nm_device_state_changed()`. -/
def deviceState (s : SecondariesSystem) (device : ℕ) (state : NMDeviceState)
    (secondaries : List SecondaryProfile) : SecondariesSystem :=
  match s.stateChanged device state none with
  | none => s
  | some s =>
    match s.lookupDevice device with
    | none => s
    | some d => if d.state = .secondaries then s.activateSecondaryConnections d secondaries else s

/-! ## Active connections -/

def updateActive (s : SecondariesSystem) (active : ℕ) (f : SecondaryActive → SecondaryActive) :
    SecondariesSystem :=
  { s with actives := modifyKey (·.id) active f s.actives }

/-- `_internal_activation_auth_done()`, which fails without telling the policy: it does not listen
yet. -/
def authorized (s : SecondariesSystem) (active : ℕ) (success : Bool) : SecondariesSystem :=
  s.updateActive active fun ac =>
    if ac.authorizing then
      if success then { ac with authorizing := false, added := true }
      else { ac with authorizing := false, state := .deactivated }
    else ac

/-- An active connection takes a state. `DEACTIVATED` is a terminal state, and nothing becomes
`ACTIVATED` before it was added. -/
def TakesState (ac : SecondaryActive) (state : NMActiveConnectionState) : Prop :=
  ac.state ≠ .deactivated ∧ ac.state ≠ state ∧ (state = .activated → ac.added = true)

instance (ac : SecondaryActive) (state : NMActiveConnectionState) : Decidable (TakesState ac state) :=
  inferInstanceAs (Decidable (_ ∧ _ ∧ (_ → _)))

/-- The new state, before the policy hears of it. -/
def setActiveState (s : SecondariesSystem) (active : ℕ) (state : NMActiveConnectionState) :
    SecondariesSystem :=
  { s.updateActive active fun ac =>
      { ac with state := state, authorizing := ac.authorizing && state ≠ .deactivated } with
    activated := if state = .activated then s.activated ++ [active] else s.activated
    deactivated := if state = .deactivated then s.deactivated ++ [active] else s.deactivated }

def activeConnectionStateChanged (s : SecondariesSystem) (active : ℕ)
    (state : NMActiveConnectionState) : SecondariesSystem :=
  if state = .activated then processSecondaries active true s.pendingSecondaries s
  else if state = .deactivated then processSecondaries active false s.pendingSecondaries s
  else s

/-- `nm_active_connection_set_state()` -/
def activeState (s : SecondariesSystem) (active : ℕ) (state : NMActiveConnectionState) :
    SecondariesSystem :=
  match lookup (·.id) active s.actives with
  | none => s
  | some ac =>
    if TakesState ac state then
      let s := s.setActiveState active state
      if ac.added then s.activeConnectionStateChanged active state else s
    else s

end SecondariesSystem

/-! ## Runs -/

inductive SecondariesEvent
  | deviceAdded (device : ℕ)
  | sysIfaceState (device : ℕ) (externalOrAssume : Bool)
  /-- A device gets a new act request. -/
  | activate (device : ℕ) (internalSubject : Bool)
  | deviceState (device : ℕ) (state : NMDeviceState) (secondaries : List SecondaryProfile)
  /-- `nm_device_state_changed()` returns. -/
  | returnCall
  | authorized (active : ℕ) (success : Bool)
  | activeState (active : ℕ) (state : NMActiveConnectionState)
  deriving DecidableEq

namespace SecondariesSystem

def step (s : SecondariesSystem) : SecondariesEvent → SecondariesSystem
  | .deviceAdded device =>
    if (s.lookupDevice device).isSome then s
    else { s with devices := s.devices ++ [⟨device, .unmanaged, 0, false, false, []⟩] }
  | .sysIfaceState device externalOrAssume =>
    s.updateDevice device fun d => { d with externalOrAssume := externalOrAssume }
  | .activate device internalSubject =>
    s.updateDevice device fun d =>
      { d with actRequest := d.actRequest + 1, internalSubject := internalSubject, started := [] }
  | .deviceState device state secondaries => s.deviceState device state secondaries
  | .returnCall => s.returnCall
  | .authorized active success => s.authorized active success
  | .activeState active state => s.activeState active state

end SecondariesSystem
end NetworkManager.Core
