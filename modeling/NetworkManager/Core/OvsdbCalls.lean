import NetworkManager.Core.OvsdbTables
import NetworkManager.Lib.Framing
import NetworkManager.Lib.Runs

/-!
# The calls of the OVSDB

`NMOvsdb` queues calls, and sends the first of them when it is connected. Callbacks and handlers of
signals run other code, which may queue more calls while a function of `NMOvsdb` is not done. The
functions that are not done are a stack, whose top goes on.
-/

namespace NetworkManager.Core

open Lib

/-- `OvsdbCommand`, with the part of `OvsdbMethodPayload` that matters. -/
inductive OvsdbCommand
  | monitor
  | addInterface
  | delInterface
  | setInterfaceMtu
  | setReapply
  deriving DecidableEq

/-- `OvsdbMethodCallback`. For `_transact_cb()` it is the callback of the user, or
`cleanup_del_iface_cb()`. -/
inductive OvsdbMethodCallback
  | monitorBridges
  | user
  | cleanupDelIface
  | none
  deriving DecidableEq

/-- `OvsdbMethodCall`, where no call id is `CALL_ID_UNSPEC`. -/
structure OvsdbMethodCall where
  id : ℕ
  callId : Option ℕ
  command : OvsdbCommand
  callback : OvsdbMethodCallback
  deriving DecidableEq

/-- What a call is completed with. -/
inductive OvsdbCallResult
  | response (id : ℕ) (result : Option Json) (error : Bool)
  | error (isDisposing : Bool)

/-- A call that was completed. -/
structure OvsdbCompletion where
  call : OvsdbMethodCall
  result : OvsdbCallResult

/-- A connection. The requests that were sent, the bytes that were received and the messages that
were processed are only a record. -/
structure OvsdbConn where
  outSource : Bool
  sent : List OvsdbMethodCall
  received : Bytes
  processed : List Json

/-- What `write()` does with the output buffer. -/
inductive WriteOutcome
  | done
  | again
  | failed
  deriving DecidableEq

/-- The user data of a source. -/
inductive OvsdbUserData
  | null
  | self
  deriving DecidableEq

/-- A function that is not done. -/
inductive OvsdbFrame
  /-- Code of a callback or of the handler of a signal. -/
  | user
  /-- `ovsdb_disconnect()` without retry -/
  | disconnect (isDisposing : Bool)
  /-- `ovsdb_got_msg()` after `_call_complete()` -/
  | gotResponse
  /-- `_monitor_bridges_cb()` after `ovsdb_got_update()` -/
  | monitorBridges
  /-- The loop of `ovsdb_cleanup_initial_interfaces()` -/
  | cleanup (ifnames : List Bytes)
  /-- `ovsdb_read()` from `again` on -/
  | read
  /-- `ovsdb_read()` before a message is parsed -/
  | readMsg
  /-- `ovsdb_read()` after a message was processed -/
  | readMsgDone
  /-- `ovsdb_read()` after the messages -/
  | readEnd
  /-- `_ovsdb_connect_complete_with_fd()` after `ovsdb_read()` -/
  | connectComplete
  deriving DecidableEq

/-- `NMOvsdb`, the names of the Open vSwitch links of the platform, and a record of what it did. -/
structure OvsdbCalls where
  conn : Option OvsdbConn
  /-- There is a `conn_cancellable`. -/
  connecting : Bool
  inputBuf : Bytes
  inputTimeout : Option OvsdbUserData
  callIdCounter : ℕ
  calls : List OvsdbMethodCall
  tables : OvsdbTables
  numFailures : ℕ
  ready : Bool
  cleanupInterfaces : Option (List Bytes)
  /-- The timeout and the handler for changes of links are registered. -/
  cleanupTimeout : Bool
  cleanupNumPendingDel : ℕ
  links : List Bytes
  stack : List OvsdbFrame
  nextCall : ℕ
  completed : List OvsdbCompletion
  closed : List OvsdbConn
  numReady : ℕ
  assertionFailed : Bool
  crashed : Bool
  disposed : Bool

namespace OvsdbCalls

def ovsdbMaxFailures : ℕ := 3

def maxInput : ℕ := 50 * 1024 * 1024

def push (s : OvsdbCalls) (frame : OvsdbFrame) : OvsdbCalls := { s with stack := frame :: s.stack }

def pop (s : OvsdbCalls) : OvsdbCalls := { s with stack := s.stack.tail }

/-! ## Connecting and disconnecting -/

/-- A call is linked to the queue. -/
def linkCall (s : OvsdbCalls) (addFirst : Bool) (command : OvsdbCommand)
    (callback : OvsdbMethodCallback) : OvsdbCalls :=
  let call : OvsdbMethodCall := ⟨s.nextCall, none, command, callback⟩
  { s with
    calls := if addFirst then call :: s.calls else s.calls ++ [call]
    nextCall := s.nextCall + 1 }

/-- `ovsdb_try_connect()`. The monitor call is not sent before there is a connection. -/
def tryConnect (s : OvsdbCalls) : OvsdbCalls :=
  if s.conn.isSome ∨ s.connecting = true then s
  else { s with connecting := true }.linkCall true .monitor .monitorBridges

/-- The end of `ovsdb_disconnect()` up to the retry. -/
def reset (s : OvsdbCalls) : OvsdbCalls :=
  { s with
    inputBuf := []
    conn := none
    closed := s.closed ++ s.conn.toList
    inputTimeout := none
    tables := { s.tables with dbUuid := none }
    connecting := false }

def unspecFirst : List OvsdbMethodCall → List OvsdbMethodCall
  | [] => []
  | call :: calls => { call with callId := none } :: calls

/-- `ovsdb_disconnect()`. Without retry the calls are completed one by one. -/
def disconnect (s : OvsdbCalls) (retry isDisposing : Bool) : OvsdbCalls :=
  if s.conn.isNone ∧ s.connecting = false then s
  else if retry then { s with calls := unspecFirst s.calls }.reset.tryConnect
  else s.push (.disconnect isDisposing)

def fail (s : OvsdbCalls) : OvsdbCalls :=
  { s with numFailures := s.numFailures + 1 }.disconnect
    (s.numFailures + 1 ≤ ovsdbMaxFailures) false

/-! ## Sending -/

def write (s : OvsdbCalls) : WriteOutcome → OvsdbCalls
  | .done => { s with conn := s.conn.map fun c => { c with outSource := false } }
  | .again => { s with conn := s.conn.map fun c => { c with outSource := true } }
  | .failed => s.fail

def writeTry (s : OvsdbCalls) (w : WriteOutcome) : OvsdbCalls :=
  match s.conn with
  | some c => if c.outSource then s else s.write w
  | none => s

def nextCommand (s : OvsdbCalls) (w : WriteOutcome) : OvsdbCalls :=
  match s.conn, s.calls with
  | some c, call :: calls =>
    if call.callId.isSome then s
    else
      let call := { call with callId := some (s.callIdCounter + 1) }
      { s with
        callIdCounter := s.callIdCounter + 1
        calls := call :: calls
        conn := some { c with sent := c.sent ++ [call] } }.writeTry w
  | _, _ => s

def callMethod (s : OvsdbCalls) (command : OvsdbCommand) (callback : OvsdbMethodCallback)
    (w : WriteOutcome) : OvsdbCalls :=
  (s.tryConnect.linkCall false command callback).nextCommand w

/-! ## The interfaces that are cleaned up -/

def cleanupEmitReady (s : OvsdbCalls) : OvsdbCalls :=
  { s with
    cleanupInterfaces := none
    cleanupTimeout := false
    ready := true
    numReady := s.numReady + 1 }.push .user

def cleanupCheckReady (s : OvsdbCalls) : OvsdbCalls :=
  let s := { s with assertionFailed := s.assertionFailed || s.ready }
  if 0 < s.cleanupNumPendingDel then s
  else
    let s : OvsdbCalls := { s with
      cleanupInterfaces := s.cleanupInterfaces.map fun ifnames => ifnames.filter (· ∈ s.links) }
    if s.cleanupInterfaces.getD [] = [] then s.cleanupEmitReady
    else { s with cleanupTimeout := true }

def cleanupDelIfaceCb (s : OvsdbCalls) : OvsdbCallResult → OvsdbCalls
  | .error true => s
  | _ => { s with cleanupNumPendingDel := s.cleanupNumPendingDel - 1 }.cleanupCheckReady

/-- `ovsdb_cleanup_initial_interfaces()` up to its loop -/
def cleanupInitialInterfaces (s : OvsdbCalls) : OvsdbCalls :=
  if s.ready = true ∨ 0 < s.cleanupNumPendingDel ∨ s.cleanupInterfaces.isSome then s
  else s.push (.cleanup ((s.tables.interfaces.filter (·.connectionUuid.isSome)).map (·.name)))

/-- One round of the loop of `ovsdb_cleanup_initial_interfaces()` -/
def cleanupNext (s : OvsdbCalls) (ifname : Bytes) (w : WriteOutcome) : OvsdbCalls :=
  { s with
    cleanupInterfaces := some (s.cleanupInterfaces.getD [] ++ [ifname])
    cleanupNumPendingDel := s.cleanupNumPendingDel + 1 }.callMethod .delInterface .cleanupDelIface w

/-! ## Completions -/

/-- `_monitor_bridges_cb()` up to the handlers of the signals -/
def monitorBridgesCb (s : OvsdbCalls) : OvsdbCallResult → OvsdbCalls
  | .error isDisposing => if isDisposing then s else s.disconnect false false
  | .response _ result error =>
    if error then s.disconnect false false
    else ({ s with tables := s.tables.gotUpdate (result.getD .null) }.push .monitorBridges).push .user

/-- `_call_complete()`, with the callback. -/
def callComplete (s : OvsdbCalls) (call : OvsdbMethodCall) (result : OvsdbCallResult) : OvsdbCalls :=
  let s := { s with
    calls := s.calls.filter (·.id ≠ call.id)
    completed := s.completed ++ [⟨call, result⟩] }
  match call.callback with
  | .monitorBridges => s.monitorBridgesCb result
  | .user => s.push .user
  | .cleanupDelIface => s.cleanupDelIfaceCb result
  | .none => s

/-- The loop of `ovsdb_disconnect()`, and what comes after it. -/
def disconnectNext (s : OvsdbCalls) (isDisposing : Bool) : OvsdbCalls :=
  match s.calls.getLast? with
  | some call => s.callComplete call (.error isDisposing)
  | none => s.pop.reset

/-! ## Receiving -/

/-- What `ovsdb_got_msg()` makes of a message. -/
inductive OvsdbMsg
  | malformed
  | method (method : Bytes) (params : Option Json)
  | response (id : ℕ) (result : Option Json) (error : Bool)
  | unknown

/-- The id of a message. -/
def jsonId (msg : Json) : ℤ :=
  match msg.objectGet (ascii "id") with
  | some (.integer n) => n
  | some (.real _) => 0
  | _ => -1

def isError (msg : Json) : Bool :=
  match msg.objectGet (ascii "error") with
  | some .null => false
  | _ => true

def unpackMsg (msg : Json) : OvsdbMsg :=
  if ¬ msg.isObject then .malformed
  else
    match msg.objectGet (ascii "method") with
    | some (.string method) => .method method (msg.objectGet (ascii "params"))
    | some _ => .malformed
    | none =>
      if 0 ≤ jsonId msg then
        .response (jsonId msg).toNat (msg.objectGet (ascii "result")) (isError msg)
      else .unknown

def gotMsg (s : OvsdbCalls) (msg : Json) (w : WriteOutcome) : OvsdbCalls :=
  match unpackMsg msg with
  | .malformed => s.disconnect false false
  | .method _ none => s.disconnect false false
  | .method method (some params) =>
    if method = ascii "update" then
      { s with tables := s.tables.gotUpdate ((params.arrayGet 1).getD .null) }.push .user
    else if method = ascii "echo" then s.writeTry w
    else s
  | .response id result error =>
    match s.calls with
    | [] => s.disconnect false false
    | call :: _ =>
      if call.callId = some id then
        (s.push .gotResponse).callComplete call (.response id result error)
      else s.disconnect false false
  | .unknown => s

/-- `ovsdb_got_msg()` after `_call_complete()` -/
def gotResponseDone (s : OvsdbCalls) (w : WriteOutcome) : OvsdbCalls :=
  let s := { s with numFailures := 0 }
  if s.conn.isNone then s else s.nextCommand w

/-- `ovsdb_read()` where data was read -/
def readChunk (s : OvsdbCalls) (chunk : Bytes) : OvsdbCalls :=
  let s : OvsdbCalls := { s.pop with
    inputBuf := s.inputBuf ++ chunk
    conn := s.conn.map fun c => { c with received := c.received ++ chunk } }
  s.push .readMsg

/-- `ovsdb_read()` where there is nothing more to read. The source has no user data. -/
def readAgain (s : OvsdbCalls) : OvsdbCalls :=
  let s := s.pop
  { s with
    inputTimeout := if s.inputBuf = [] then none else s.inputTimeout <|> some .null }

/-- `ovsdb_read()` where a message may be in the buffer -/
def readMsg (F : Framing Json) (s : OvsdbCalls) (w : WriteOutcome) : OvsdbCalls :=
  let s := s.pop
  match F.parse s.inputBuf with
  | none => s.push .readEnd
  | some (msg, rest) =>
    let s : OvsdbCalls := { s with
      inputBuf := rest
      inputTimeout := none
      conn := s.conn.map fun c => { c with processed := c.processed ++ [msg] } }
    (s.push .readMsgDone).gotMsg msg w

/-- `ovsdb_read()` after a message was processed -/
def readMsgDone (s : OvsdbCalls) : OvsdbCalls :=
  s.pop.push (if s.inputBuf = [] then .readEnd else .readMsg)

/-- The end of `ovsdb_read()` -/
def readEnd (s : OvsdbCalls) : OvsdbCalls :=
  let s := s.pop
  if s.inputBuf = [] then { s with inputTimeout := none }
  else if maxInput < s.inputBuf.length then s.fail
  else s.push .read

def readInputTimeoutCb (s : OvsdbCalls) : OvsdbUserData → OvsdbCalls
  | .null => { s with crashed := true }
  | .self => s.fail

/-- `_ovsdb_connect_complete_with_fd()` up to `ovsdb_read()` -/
def connectCompleteWithFd (s : OvsdbCalls) : OvsdbCalls :=
  ({ s with connecting := false, conn := some ⟨false, [], [], []⟩ }.push .connectComplete).push .read

/-! ## Runs -/

/-- `nm_ovsdb_init()` -/
def start : OvsdbCalls :=
  tryConnect ⟨none, false, [], none, 0, [], .start, 0, false, none, false, 0, [], [], 0, [], [], 0,
    false, false, false⟩

/-- The function on the top of the stack goes on. -/
def resume (F : Framing Json) (s : OvsdbCalls) (w : WriteOutcome) : OvsdbCalls :=
  match s.stack with
  | .user :: _ => s.pop
  | .disconnect isDisposing :: _ => s.disconnectNext isDisposing
  | .gotResponse :: _ => s.pop.gotResponseDone w
  | .monitorBridges :: _ => s.pop.cleanupInitialInterfaces
  | .cleanup [] :: _ => s.pop.cleanupCheckReady
  | .cleanup (ifname :: ifnames) :: _ => (s.pop.push (.cleanup ifnames)).cleanupNext ifname w
  | .readMsg :: _ => s.readMsg F w
  | .readMsgDone :: _ => s.readMsgDone
  | .readEnd :: _ => s.readEnd
  | .connectComplete :: _ => s.pop.nextCommand w
  | .read :: _ => s
  | [] => s

end OvsdbCalls

/-- The calls that other code may queue. -/
inductive OvsdbUserCall
  | addInterface
  | delInterface
  | setInterfaceMtu
  | setReapply
  deriving DecidableEq

inductive OvsdbEvent
  /-- Other code calls one of the public functions. -/
  | call (call : OvsdbUserCall) (w : WriteOutcome)
  /-- The function on the top of the stack goes on, or the other code is done. -/
  | resume (w : WriteOutcome)
  | readChunk (chunk : Bytes)
  | readAgain
  | readFailed
  | connected
  | connectFailed
  | readable
  | writable (w : WriteOutcome)
  | inputTimeout
  /-- The links change, and a link was removed or not. -/
  | links (links : List Bytes) (removed : Bool)
  | cleanupTimeout
  | dispose
  deriving DecidableEq

namespace OvsdbCalls

/-- `nm_ovsdb_add_interface()`, `nm_ovsdb_del_interface()`, `nm_ovsdb_set_interface_mtu()` and
`nm_ovsdb_set_reapply()` -/
def userCall (s : OvsdbCalls) (w : WriteOutcome) : OvsdbUserCall → OvsdbCalls
  | .addInterface => s.callMethod .addInterface .user w
  | .delInterface => s.callMethod .delInterface .user w
  | .setInterfaceMtu => s.callMethod .setInterfaceMtu .user w
  | .setReapply => s.callMethod .setReapply .none w

/-- An event of the main loop. -/
def mainLoop (s : OvsdbCalls) : OvsdbEvent → OvsdbCalls
  | .connected => if s.connecting then s.connectCompleteWithFd else s
  | .connectFailed => if s.connecting then s.disconnect false false else s
  | .readable => if s.conn.isSome then s.push .read else s
  | .writable w => if s.conn.any (·.outSource) then s.write w else s
  | .inputTimeout =>
    match s.inputTimeout with
    | some userData => s.readInputTimeoutCb userData
    | none => s
  | .links links removed =>
    if removed = true ∧ s.cleanupTimeout = true then { s with links := links }.cleanupCheckReady
    else { s with links := links }
  | .cleanupTimeout => if s.cleanupTimeout then s.cleanupEmitReady else s
  | .dispose => { s with disposed := true }.disconnect false true
  | _ => s

def step (F : Framing Json) (s : OvsdbCalls) (e : OvsdbEvent) : OvsdbCalls :=
  if s.crashed then s
  else
    match s.stack, e with
    | .user :: _, .call call w => s.userCall w call
    | [], .call call w => if s.disposed then s else s.userCall w call
    | _, .resume w => s.resume F w
    -- without a connection nothing is read
    | .read :: _, .readChunk chunk => if chunk = [] ∨ s.conn.isNone then s else s.readChunk chunk
    | .read :: _, .readAgain => s.readAgain
    | .read :: _, .readFailed => s.pop.fail
    | [], e => if s.disposed then s else s.mainLoop e
    | _, _ => s

def run (F : Framing Json) (events : List OvsdbEvent) : OvsdbCalls := events.foldl (step F) start

end OvsdbCalls
end NetworkManager.Core
