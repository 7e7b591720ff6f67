import NetworkManager.Core.ConfigKeyfile
import NetworkManager.Lib.Runs

/-!
# Connectivity checks

`NMConnectivity` has a list of checks that run and one of checks whose result waits for its
callback. The HTTP library delivers the lines of the header and the chunks of the body of a check
to two callbacks, until one does not take all that it gets, and reports at most once that the
transfer is done. A callback of a check runs other code: the loop that completes checks makes one
step at a time.
-/

namespace NetworkManager.Core

open Lib

inductive NMConnectivityState
  | unknown
  | none
  | portal
  | limited
  | full
  | error
  | fake
  | cancelled
  | disposing
  deriving DecidableEq

/-- A text of the configuration. -/
abbrev ConResponse := { s : Bytes // NulFree s }

def configDefaultConnectivityResponse : ConResponse :=
  ⟨ascii "NetworkManager is online", by decide⟩

def headerStatusOnline : Bytes := ascii "X-NetworkManager-Status: online\r\n"

/-- What the HTTP library delivers. -/
inductive Delivery
  | header (line : Bytes)
  | body (chunk : Bytes)
  deriving DecidableEq

/-- The end of a transfer. -/
structure TransferDone where
  /-- The result is `CURLE_OK`. -/
  ok : Bool
  /-- `CURLINFO_RESPONSE_CODE` -/
  responseCode : Option ℕ
  deriving DecidableEq

/-- What a check waits for. -/
inductive CheckPhase
  | idle
  | resolvingSystemd
  | resolvingSystem
  | transfer
  deriving DecidableEq

/-- `NMConnectivityCheckHandle`. The last four fields are only a record: what was delivered, whether
a callback did not take all of it, and how the transfer ended. -/
structure CheckHandle where
  id : ℕ
  response : ConResponse
  phase : CheckPhase
  completedState : NMConnectivityState
  responseGoodCnt : ℕ
  received : List Delivery
  stopped : Bool
  done : Option TransferDone
  assertionFailed : Bool
  deriving DecidableEq

/-- How a check completed. -/
inductive CheckEnd
  | idle
  | resolved
  | queued
  | timeout
  | cancelled
  | disposed
  deriving DecidableEq

/-- A callback that was invoked. -/
structure CheckResult where
  handle : CheckHandle
  how : CheckEnd
  state : NMConnectivityState
  deriving DecidableEq

/-- What a lookup of the host gives. -/
inductive ResolveOutcome
  /-- There are usable addresses. -/
  | hosts (curlError : Bool)
  | noHosts
  /-- systemd-resolved has no name servers. -/
  | noNameServers
  | failed
  deriving DecidableEq

/-- What `nm_connectivity_check_start()` gets and finds. -/
structure CheckStart where
  iface : Bool
  ifindexPositive : Bool
  /-- The result of `check_platform_config()` unless it is `UNKNOWN`. -/
  platformState : Option NMConnectivityState
  systemdResolved : Bool
  dbusConnection : Bool
  deriving DecidableEq

/-- The loop that invokes callbacks. -/
inductive CheckLoop
  | completeQueued
  | dispose
  deriving DecidableEq

/-- `NMConnectivity` -/
structure ConnectivitySystem where
  handles : List CheckHandle
  completedHandles : List CheckHandle
  nextHandle : ℕ
  enabled : Bool
  uriValid : Bool
  response : Option ConResponse
  loop : Option CheckLoop
  results : List CheckResult
  deriving DecidableEq

/-! ## Callbacks of the HTTP library -/

namespace Delivery

def isStatusOnline (line : Bytes) : Bool :=
  headerStatusOnline.length ≤ line.length ∧
    asciiStrCaseEq (line.take headerStatusOnline.length) headerStatusOnline = true

def length : Delivery → ℕ
  | header line => line.length
  | body chunk => chunk.length

end Delivery

namespace CheckHandle

/-- `cb_data_queue_completed()` as far as the handle goes. -/
def queueCompleted (h : CheckHandle) (state : NMConnectivityState) : CheckHandle :=
  { h with completedState := state }

/-- `easy_header_cb()`, with the number of bytes that it takes. -/
def easyHeaderCb (h : CheckHandle) (line : Bytes) : CheckHandle × ℕ :=
  if h.completedState ≠ .unknown then (h, 0)
  else if Delivery.isStatusOnline line then (h.queueCompleted .full, 0)
  else (h, line.length)

/-- `easy_write_cb()`, with the number of bytes that it takes. The response has no NUL byte, so that
`strncmp()` compares all bytes. -/
def easyWriteCb (h : CheckHandle) (chunk : Bytes) : CheckHandle × ℕ :=
  if h.completedState ≠ .unknown then (h, 0)
  else if chunk.length = 0 then (h, chunk.length)
  else if h.response.val = [] then
    let h := { h with responseGoodCnt := h.responseGoodCnt + chunk.length }
    if 100 * 1024 < h.responseGoodCnt then (h.queueCompleted .portal, 0) else (h, chunk.length)
  else
    let h := { h with assertionFailed :=
      h.assertionFailed || ¬ h.responseGoodCnt < h.response.val.length }
    let checkLen := min chunk.length (h.response.val.length - h.responseGoodCnt)
    if (h.response.val.drop h.responseGoodCnt).take checkLen ≠ chunk.take checkLen then
      (h.queueCompleted .portal, 0)
    else
      let h := { h with responseGoodCnt := h.responseGoodCnt + chunk.length }
      if h.response.val.length ≤ h.responseGoodCnt then (h.queueCompleted .full, 0)
      else (h, chunk.length)

def callback (h : CheckHandle) : Delivery → CheckHandle × ℕ
  | .header line => h.easyHeaderCb line
  | .body chunk => h.easyWriteCb chunk

/-- The library delivers until a callback does not take all. -/
def deliver (h : CheckHandle) : List Delivery → CheckHandle
  | [] => h
  | d :: deliveries =>
    let (h', taken) := h.callback d
    let h' := { h' with received := h.received ++ [d] }
    if taken = d.length then h'.deliver deliveries else { h' with stopped := true }

/-- `_con_curl_check_connectivity()` for a transfer that is done. -/
def transferDone (h : CheckHandle) (done : TransferDone) : CheckHandle :=
  let h := { h with done := some done }
  if h.completedState ≠ .unknown then h
  else if ¬ done.ok then h.queueCompleted .limited
  else if h.response.val = [] ∧ (done.responseCode = some 204 ∨
      done.responseCode = some 200 ∧ h.responseGoodCnt = 0) then h.queueCompleted .full
  else h.queueCompleted .portal

def checkConnectivity (h : CheckHandle) (deliveries : List Delivery) (done : Option TransferDone) :
    CheckHandle :=
  match done with
  | none => h.deliver deliveries
  | some done => (h.deliver deliveries).transferDone done

end CheckHandle

namespace ConnectivitySystem

def start : ConnectivitySystem := ⟨[], [], 0, false, false, none, none, []⟩

/-! ## The end of a check -/

/-- `cb_data_complete()` up to the callback. -/
def complete (s : ConnectivitySystem) (h : CheckHandle) (how : CheckEnd)
    (state : NMConnectivityState) : ConnectivitySystem :=
  { s with
    handles := eraseKey (·.id) h.id s.handles
    completedHandles := eraseKey (·.id) h.id s.completedHandles
    results := s.results ++ [⟨h, how, state⟩] }

/-- One step of `_complete_queued()` or of the loop of `dispose()`. -/
def loopNext (s : ConnectivitySystem) : ConnectivitySystem :=
  match s.loop with
  | none => s
  | some .completeQueued =>
    match s.completedHandles with
    | [] => { s with loop := none }
    | h :: _ => s.complete h .queued h.completedState
  | some .dispose =>
    match s.handles with
    | [] => { s with loop := none }
    | h :: _ => s.complete h .disposed .disposing

/-! ## Checks -/

def setHandle (s : ConnectivitySystem) (h : CheckHandle) : ConnectivitySystem :=
  { s with handles := modifyKey (·.id) h.id (fun _ => h) s.handles }

def checkStart (s : ConnectivitySystem) (p : CheckStart) : ConnectivitySystem :=
  let add (phase : CheckPhase) (state : NMConnectivityState) : ConnectivitySystem :=
    { s with
      handles := s.handles ++ [⟨s.nextHandle, s.response.getD configDefaultConnectivityResponse, phase,
        state, 0, [], false, none, false⟩]
      nextHandle := s.nextHandle + 1 }
  if p.iface ∧ p.ifindexPositive ∧ s.enabled ∧ s.uriValid then
    match p.platformState with
    | some .none => add .idle .none
    | some _ => add .idle .limited
    | none =>
      if p.systemdResolved then
        if p.dbusConnection then add .resolvingSystemd .unknown else add .idle .error
      else add .resolvingSystem .unknown
  else if p.iface then add .idle .fake
  else add .idle .error

def doCurlRequest (s : ConnectivitySystem) (h : CheckHandle) (curlError : Bool) :
    ConnectivitySystem :=
  if curlError then s.complete h .resolved .error else s.setHandle { h with phase := .transfer }

/-- `systemd_resolved_resolve_cb()` and `system_resolver_resolve_cb()` -/
def resolved (s : ConnectivitySystem) (h : CheckHandle) (outcome : ResolveOutcome) :
    ConnectivitySystem :=
  match h.phase, outcome with
  | .resolvingSystemd, .hosts curlError => s.doCurlRequest h curlError
  | .resolvingSystemd, .noHosts => s.complete h .resolved .limited
  | .resolvingSystemd, .noNameServers => s.complete h .resolved .limited
  | .resolvingSystemd, .failed => s.setHandle { h with phase := .resolvingSystem }
  | .resolvingSystem, .hosts curlError => s.doCurlRequest h curlError
  | .resolvingSystem, _ => s.complete h .resolved .limited
  | _, _ => s

/-- `_con_curl_socketevent_cb()` and `_con_curl_timeout_cb()` up to `_complete_queued()` -/
def socketEvent (s : ConnectivitySystem) (h : CheckHandle) (deliveries : List Delivery)
    (done : Option TransferDone) : ConnectivitySystem :=
  if h.phase = .transfer then
    let h := h.checkConnectivity deliveries done
    if h.completedState = .unknown then { s.setHandle h with loop := some .completeQueued }
    else
      { s with
        handles := eraseKey (·.id) h.id s.handles
        completedHandles := s.completedHandles ++ [h]
        loop := some .completeQueued }
  else s

/-- A source of the main loop is dispatched for a check, which it is not from within a callback. -/
def dispatch (s : ConnectivitySystem) (handle : ℕ)
    (f : ConnectivitySystem → CheckHandle → ConnectivitySystem) : ConnectivitySystem :=
  match s.loop, lookup (·.id) handle s.handles with
  | none, some h => f s h
  | _, _ => s

def checkCancel (s : ConnectivitySystem) (handle : ℕ) : ConnectivitySystem :=
  match lookup (·.id) handle (s.handles ++ s.completedHandles) with
  | none => s
  | some h => s.complete h .cancelled .cancelled

end ConnectivitySystem

/-! ## Runs -/

inductive ConnectivityEvent
  | config (enabled uriValid : Bool) (response : Option ConResponse)
  | checkStart (p : CheckStart)
  | checkCancel (handle : ℕ)
  | dispose
  /-- The loop that invokes callbacks goes on. -/
  | loopNext
  | idle (handle : ℕ)
  | resolved (handle : ℕ) (outcome : ResolveOutcome)
  | socketEvent (handle : ℕ) (deliveries : List Delivery) (done : Option TransferDone)
  | timeout (handle : ℕ)
  deriving DecidableEq

namespace ConnectivitySystem

def step (s : ConnectivitySystem) : ConnectivityEvent → ConnectivitySystem
  | .config enabled uriValid response =>
    { s with enabled := enabled, uriValid := uriValid, response := response }
  | .checkStart p => s.checkStart p
  | .checkCancel handle => s.checkCancel handle
  | .dispose => if s.loop = none then { s with loop := some .dispose } else s
  | .loopNext => s.loopNext
  | .idle handle =>
    s.dispatch handle fun s h => if h.phase = .idle then s.complete h .idle h.completedState else s
  | .resolved handle outcome => s.dispatch handle fun s h => s.resolved h outcome
  | .socketEvent handle deliveries done =>
    s.dispatch handle fun s h => s.socketEvent h deliveries done
  | .timeout handle =>
    s.dispatch handle fun s h => if h.phase = .transfer then s.complete h .timeout .limited else s

end ConnectivitySystem
end NetworkManager.Core
