import NetworkManager.Core.OvsdbCallsSteps

/-!
# The queue of the OVSDB calls loses and duplicates nothing

Where no input timeout fires, no monitor call is tried again and the loop that cleans up interfaces is
not interrupted, every call is completed once, each connection has one monitor call, which comes first,
and `READY` is emitted once.
-/

namespace NetworkManager.Core

open Lib List

namespace OvsdbCalls

/-- The first call is sent, or will be. -/
def Pending (s : OvsdbCalls) : Prop :=
  s.conn.isSome → (∃ frame ∈ s.stack, frame.sends = true) ∨ ∀ call ∈ s.calls.head?, call.callId.isSome

variable {F : Framing Json} {s s' : OvsdbCalls} {rest stack : List OvsdbFrame}

/-! ## The first call is sent -/

theorem pending_of_sends (h : ∃ frame ∈ s.stack, frame.sends = true) : s.Pending := fun _ => .inl h

theorem pending_of_none (h : s.conn = none) : s.Pending := by
  intro hc
  rw [h] at hc
  cases hc

section

variable (h : s.Pending)

include h

theorem Pending.mono (hconn : s'.conn.isSome → s.conn.isSome) (hcalls : s'.calls = s.calls)
    (hstack : s.stack <:+ s'.stack) : s'.Pending := by
  intro hc
  rcases h (hconn hc) with ⟨frame, hframe, hsends⟩ | hfirst
  · exact .inl ⟨frame, hstack.subset hframe, hsends⟩
  · exact .inr (hcalls ▸ hfirst)

theorem Pending.push (frame : OvsdbFrame) : (s.push frame).Pending :=
  h.mono id rfl (suffix_cons _ _)

theorem Pending.pop {frame : OvsdbFrame} (hstack : s.stack = frame :: rest)
    (hsends : frame.sends = false) : s.pop.Pending := by
  intro hc
  rcases h hc with ⟨frame', hframe', hsends'⟩ | hfirst
  · rw [hstack] at hframe'
    rcases mem_cons.mp hframe' with rfl | hframe'
    · simp [hsends] at hsends'
    · exact .inl ⟨frame', by simpa [OvsdbCalls.pop, hstack] using hframe', hsends'⟩
  · exact .inr hfirst

theorem Pending.disconnect (retry isDisposing : Bool) :
    (s.disconnect retry isDisposing).Pending := by
  unfold OvsdbCalls.disconnect
  split_ifs
  · exact h
  · apply pending_of_none
    unfold OvsdbCalls.tryConnect
    split_ifs <;> rfl
  · exact h.push _

theorem Pending.fail : s.fail.Pending := by
  apply Pending.disconnect
  exact h.mono id rfl suffix_rfl

theorem Pending.write (w : WriteOutcome) : (s.write w).Pending := by
  cases w with
  | done => exact h.mono (by simp [OvsdbCalls.write]) rfl suffix_rfl
  | again => exact h.mono (by simp [OvsdbCalls.write]) rfl suffix_rfl
  | failed => exact h.fail

theorem Pending.writeTry (w : WriteOutcome) : (s.writeTry w).Pending := by
  unfold OvsdbCalls.writeTry
  split
  · split_ifs
    · exact h
    · exact h.write w
  · exact h

end

theorem pending_nextCommand (s : OvsdbCalls) (w : WriteOutcome) : (s.nextCommand w).Pending := by
  unfold OvsdbCalls.nextCommand
  split
  · rename_i c call calls hconn hcalls
    split_ifs with hid
    · intro _
      refine .inr fun call' hcall' => ?_
      obtain rfl : call = call' := by simpa [hcalls] using hcall'
      exact hid
    · apply Pending.writeTry
      intro _
      refine .inr fun call' hcall' => ?_
      obtain rfl := Option.some.inj hcall'
      rfl
  · rename_i hnone
    intro hc
    refine .inr fun call hcall => ?_
    obtain ⟨c, hconn⟩ := Option.isSome_iff_exists.mp hc
    cases hcalls : s.calls with
    | nil => simp [hcalls] at hcall
    | cons first rest => exact (hnone c first rest hconn hcalls).elim

/-! A callback is called over the functions that are not done. -/

theorem stack_cleanupCheckReady (h : stack <:+ s.stack) : stack <:+ s.cleanupCheckReady.stack := by
  unfold OvsdbCalls.cleanupCheckReady
  dsimp only
  split_ifs
  · exact h
  · exact h.trans (suffix_cons _ _)
  · exact h

theorem stack_disconnect (h : stack <:+ s.stack) {isDisposing : Bool} :
    stack <:+ (s.disconnect false isDisposing).stack := by
  unfold OvsdbCalls.disconnect
  rw [if_neg Bool.false_ne_true]
  split_ifs
  · exact h
  · exact h.trans (suffix_cons _ _)

theorem stack_callComplete (h : stack <:+ s.stack) {call : OvsdbMethodCall}
    {result : OvsdbCallResult} : stack <:+ (s.callComplete call result).stack := by
  unfold OvsdbCalls.callComplete
  dsimp only
  split
  · unfold OvsdbCalls.monitorBridgesCb
    split
    · split_ifs
      · exact h
      · apply stack_disconnect
        exact h
    · split_ifs
      · apply stack_disconnect
        exact h
      · exact h.trans ⟨[.user, .monitorBridges], rfl⟩
  · exact h.trans (suffix_cons _ _)
  · unfold OvsdbCalls.cleanupDelIfaceCb
    split
    · exact h
    · apply stack_cleanupCheckReady
      exact h
  · exact h

theorem Pending.cleanupCheckReady (h : s.Pending) : s.cleanupCheckReady.Pending := by
  apply h.mono _ _ (stack_cleanupCheckReady suffix_rfl)
  all_goals
    unfold OvsdbCalls.cleanupCheckReady
    dsimp only
    split_ifs
  · exact id
  · exact id
  · exact id
  · rfl
  · rfl
  · rfl

theorem Pending.gotMsg (h : s.Pending) (msg : Json) (w : WriteOutcome) : (s.gotMsg msg w).Pending := by
  unfold OvsdbCalls.gotMsg
  split
  · exact h.disconnect _ _
  · exact h.disconnect _ _
  · split_ifs
    · exact h.mono id rfl (suffix_cons _ _)
    · exact h.writeTry w
    · exact h
  · split
    · exact h.disconnect _ _
    · split_ifs
      · exact pending_of_sends ⟨.gotResponse, (stack_callComplete suffix_rfl).subset mem_cons_self,
          rfl⟩
      · exact h.disconnect _ _
  · exact h

theorem Pending.readMsg (h : s.Pending) (w : WriteOutcome) (hstack : s.stack = .readMsg :: rest)
    : (s.readMsg F w).Pending := by
  have hpop := h.pop hstack rfl
  unfold OvsdbCalls.readMsg
  dsimp only
  split
  · exact hpop.push _
  · apply Pending.gotMsg
    apply Pending.push
    exact hpop.mono (by simp) rfl suffix_rfl

theorem Pending.resume (h : s.Pending) (w : WriteOutcome) : (s.resume F w).Pending := by
  unfold OvsdbCalls.resume
  split
  · rename_i hstack
    exact h.pop hstack rfl
  · rename_i isDisposing rest hstack
    unfold OvsdbCalls.disconnectNext
    split
    · exact pending_of_sends ⟨.disconnect isDisposing,
        (stack_callComplete suffix_rfl).subset (by simp [hstack]), rfl⟩
    · exact pending_of_none rfl
  · unfold OvsdbCalls.gotResponseDone
    dsimp only
    split_ifs with hnone
    · exact pending_of_none (by simpa using hnone)
    · exact pending_nextCommand _ w
  · rename_i hstack
    have hpop := h.pop hstack rfl
    unfold OvsdbCalls.cleanupInitialInterfaces
    split_ifs
    · exact hpop
    · exact hpop.push _
  · rename_i hstack
    exact (h.pop hstack rfl).cleanupCheckReady
  · exact pending_nextCommand _ w
  · rename_i hstack
    exact h.readMsg w hstack
  · rename_i hstack
    exact (h.pop hstack rfl).push _
  · rename_i hstack
    have hpop := h.pop hstack rfl
    unfold OvsdbCalls.readEnd
    dsimp only
    split_ifs
    · exact hpop.mono id rfl suffix_rfl
    · exact hpop.fail
    · exact hpop.push _
  · exact pending_nextCommand _ w
  · exact h
  · exact h

theorem Pending.userCall (w : WriteOutcome) (call : OvsdbUserCall) : (s.userCall w call).Pending := by
  cases call with
  | addInterface => exact pending_nextCommand _ w
  | delInterface => exact pending_nextCommand _ w
  | setInterfaceMtu => exact pending_nextCommand _ w
  | setReapply => exact pending_nextCommand _ w

theorem Pending.mainLoop (h : s.Pending) (e : OvsdbEvent) : (s.mainLoop e).Pending := by
  cases e with
  | call => exact h
  | resume => exact h
  | readChunk => exact h
  | readAgain => exact h
  | readFailed => exact h
  | connected =>
    unfold OvsdbCalls.mainLoop
    dsimp only
    split_ifs
    · exact pending_of_sends ⟨.connectComplete, by simp [connectCompleteWithFd, OvsdbCalls.push], rfl⟩
    · exact h
  | connectFailed =>
    unfold OvsdbCalls.mainLoop
    dsimp only
    split_ifs
    · exact h.disconnect _ _
    · exact h
  | readable =>
    unfold OvsdbCalls.mainLoop
    dsimp only
    split_ifs
    · exact h.push _
    · exact h
  | writable w =>
    unfold OvsdbCalls.mainLoop
    dsimp only
    split_ifs
    · exact h.write w
    · exact h
  | inputTimeout =>
    unfold OvsdbCalls.mainLoop
    dsimp only
    split
    · unfold OvsdbCalls.readInputTimeoutCb
      split
      · exact h.mono id rfl suffix_rfl
      · exact h.fail
    · exact h
  | links links removed =>
    have hlinks : Pending { s with links := links } := h.mono id rfl suffix_rfl
    unfold OvsdbCalls.mainLoop
    dsimp only
    split_ifs
    · exact hlinks.cleanupCheckReady
    · exact hlinks
  | cleanupTimeout =>
    unfold OvsdbCalls.mainLoop
    dsimp only
    split_ifs
    · exact h.mono id rfl (suffix_cons _ _)
    · exact h
  | dispose =>
    apply Pending.disconnect
    exact h.mono id rfl suffix_rfl

theorem Pending.step (h : s.Pending) (e : OvsdbEvent) : (s.step F e).Pending := by
  unfold OvsdbCalls.step
  by_cases hcrashed : s.crashed = true
  · rw [if_pos hcrashed]
    exact h
  rw [if_neg hcrashed]
  split
  · exact Pending.userCall _ _
  · split_ifs
    · exact h
    · exact Pending.userCall _ _
  · exact h.resume _
  · rename_i hstack
    split_ifs
    · exact h
    · apply Pending.push
      exact (h.pop hstack rfl).mono (by simp [OvsdbCalls.pop]) rfl suffix_rfl
  · rename_i hstack
    exact (h.pop hstack rfl).mono id rfl suffix_rfl
  · rename_i hstack
    exact (h.pop hstack rfl).fail
  · split_ifs
    · exact h
    · exact h.mainLoop _
  · exact h

/-! ## Runs -/

theorem start_inv : Inv F start := by
  have hcleanup : Cleanup ⟨none, false, [], none, 0, [], .start, 0, false, none, false, 0, [], [], 0,
      [], [], 0, false, false, false⟩ := by
    constructor <;> simp
  have hinput : Input F ⟨none, false, [], none, 0, [], .start, 0, false, none, false, 0, [], [], 0,
      [], [], 0, false, false, false⟩ := by
    constructor <;> simp [Inv.parse_nil]
  apply Inv.startConnect (s := ⟨none, false, [], none, 0, [], .start, 0, false, none, false, 0, [],
    [], 0, [], [], 0, false, false, false⟩) rfl _ _ _ _ hcleanup hinput _ _ rfl
  · simp
  · constructor <;> simp
  · simp [conns]
  · simp [conns]
  · simp
  · simp

/-- What is promised of the calls, in every state. -/
structure Sound (F : Framing Json) (s : OvsdbCalls) : Prop where
  /-- Every call that was queued is still in the queue, or was completed once. -/
  once : (s.completed.map (·.call.id) ++ s.calls.map (·.id)).Perm (List.range s.nextCall)
  answered : ∀ x ∈ s.completed, ∀ id result error, x.result = .response id result error →
    x.call.callId = some id
  disposed : s.disposed = true → s.stack = [] → s.calls = []
  firstOnly : ∀ call ∈ s.calls.tail, call.callId = none
  firstSent : s.stack = [] → ∀ c, s.conn = some c → ∀ call ∈ s.calls.head?,
    call.callId.isSome ∧ call ∈ c.sent
  monitorFirst : ∀ c ∈ s.conns, c.sent ≠ [] → c.MonitorFirst
  oneMonitor : ∀ c ∈ s.conns, c.sent.countP (·.isMonitor) ≤ 1
  /-- No timeout acts on an instance that is not there. -/
  notCrashed : s.crashed = false
  split : ∀ c ∈ s.conns, c.processed <+: (F.decode c.received).1
  allProcessed : s.stack = [] → ∀ c, s.conn = some c → c.processed = (F.decode c.received).1
  readyOnce : s.numReady ≤ 1
  checkedBefore : s.assertionFailed = false

theorem Inv.sound (h : s.Inv F) (hpending : s.Pending) : s.Sound F where
  once := h.once.ids
  answered := h.once.answered
  disposed := h.disposing.done
  firstOnly := h.queue.tail
  firstSent := by
    intro hstack c hc call hcall
    have hid : call.callId.isSome := by
      rcases hpending (by simp [hc]) with ⟨frame, hframe, _⟩ | hfirst
      · simp [hstack] at hframe
      · exact hfirst call hcall
    exact ⟨hid, h.queue.sent c hc call (mem_of_mem_head? hcall) hid⟩
  monitorFirst := conns_first h.queue
  oneMonitor := h.monitors.one
  notCrashed := h.notCrashed
  split := conns_decoded h.input
  allProcessed := by
    intro hstack c hc
    have hnone := h.input.parsed (by simp [hstack])
    rw [h.input.decoded c hc, Framing.decode_of_none hnone, append_nil]
  readyOnce := by
    rw [h.cleanup.numReady]
    split_ifs <;> omega
  checkedBefore := h.cleanup.assertionOk

/-- Where no input timeout fires, no monitor call is tried again and the cleaning of interfaces is not
interrupted, every call is completed once, each connection has one monitor call, which is the first,
and `READY` is emitted once. -/
theorem queue_sound (F : Framing Json) (events : List OvsdbEvent)
    (h : Along (step F) (InReach F) start events) : (run F events).Sound F := by
  have hinv : (run F events).Inv F := h.foldl (fun _ e hs hreach => hs.step e hreach) start_inv
  have hpending : (run F events).Pending :=
    foldl_invariant (fun _ e hs => hs.step e) (pending_of_none rfl) events
  exact hinv.sound hpending

instance (F : Framing Json) (s : OvsdbCalls) (e : OvsdbEvent) : Decidable (s.InReach F e) :=
  decidable_of_iff
    ((e = .inputTimeout → s.stack = [] → s.inputTimeout = none) ∧
      (s.connFails F e = true → s.failuresBefore + 1 ≤ ovsdbMaxFailures →
        ∀ call ∈ s.calls, call.isMonitor = false) ∧
      (s.connFails F e = true → ¬ s.failuresBefore + 1 ≤ ovsdbMaxFailures →
        ∀ frame ∈ s.stack.head?, frame.isCleanup = false))
    ⟨fun h => ⟨h.1, h.2.1, h.2.2⟩, fun h => ⟨h.timeout, h.monitors, h.loop⟩⟩

def exampleText : Bytes := ascii "\x7b\"id\":1,\"result\":\x7b\x7d,\"error\":null\x7d"

def exampleFraming : Framing Json :=
  .copies exampleText (.object [(ascii "id", .integer 1), (ascii "result", .object []),
    (ascii "error", .null)]) (by decide)

/-- The monitor call is answered in two chunks, and a call of other code is sent after it. -/
def answeredRun : List OvsdbEvent :=
  [.connected, .readAgain, .resume .done, .call .addInterface .done, .readable,
    .readChunk (exampleText.take 5), .resume .done, .resume .done, .readChunk (exampleText.drop 5),
    .resume .done, .resume .done, .resume .done, .resume .done, .resume .done, .resume .done,
    .resume .done, .resume .done]

theorem answeredRun_sound : (run exampleFraming answeredRun).Sound exampleFraming ∧
    (run exampleFraming answeredRun).numReady = 1 ∧
    (run exampleFraming answeredRun).completed.map (·.call.command) = [.monitor] :=
  ⟨queue_sound exampleFraming answeredRun (by decide), by decide⟩

def timeoutRun : List OvsdbEvent :=
  [.connected, .readAgain, .resume .done, .readable, .readChunk (exampleText.take 5), .resume .done,
    .resume .done, .readAgain, .inputTimeout]

def retriedRun : List OvsdbEvent :=
  [.connected, .readFailed, .resume .done, .connected, .readAgain, .resume .done, .readable,
    .readChunk exampleText, .resume .done, .resume .done, .resume .done, .resume .done, .resume .done,
    .resume .done]

def interfaceText : Bytes :=
  ascii ("\x7b\"id\":1,\"result\":\x7b\"Interface\":\x7b\"u\":\x7b\"new\":\x7b\"name\":\"i\"," ++
    "\"type\":\"internal\",\"external_ids\":[\"map\",[[\"NM.connection.uuid\",\"c\"]]]," ++
    "\"other_config\":[\"map\",[]]\x7d\x7d\x7d\x7d,\"error\":null\x7d")

def interfaceFraming : Framing Json :=
  .copies interfaceText
    (.object
      [(ascii "id", .integer 1),
        (ascii "result", .object [(ascii "Interface", .object [(ascii "u", .object [(ascii "new", .object
          [(ascii "name", .string (ascii "i")),
            (ascii "type", .string (ascii "internal")),
            (ascii "external_ids", .array [.string (ascii "map"),
              .array [.array [.string ovsExternalIdNMConnectionUuid, .string (ascii "c")]]]),
            (ascii "other_config", .array [.string (ascii "map"), .array []])])])])]),
        (ascii "error", .null)])
    (by
      rw [interfaceText, ascii, String.toList_append, String.toList_append, String.toList_ofList]
      exact cons_ne_nil _ _)

/-- The fourth failure is that of the request that deletes the interface. -/
def drainedRun : List OvsdbEvent :=
  [.connected, .readFailed, .resume .done, .connected, .readFailed, .resume .done, .connected,
    .readFailed, .resume .done, .connected, .readAgain, .resume .done, .readable,
    .readChunk interfaceText, .resume .done, .resume .done, .resume .done, .resume .failed] ++
    List.replicate 12 (.resume .done)

theorem defectiveRuns_not_sound : ¬ (run exampleFraming timeoutRun).Sound exampleFraming ∧
    ¬ (run exampleFraming retriedRun).Sound exampleFraming ∧
    ¬ (run interfaceFraming drainedRun).Sound interfaceFraming := by
  refine ⟨fun h => ?_, fun h => ?_, fun h => ?_⟩
  · have hcrashed := h.notCrashed
    revert hcrashed
    decide +kernel
  · have hone := h.oneMonitor
    revert hone
    decide +kernel
  · have hready (hcopy : interfaceText ≠ []) :=
      show (run (.copies interfaceText _ hcopy) drainedRun).numReady ≤ 1 from h.readyOnce
    revert hready
    rw [drainedRun, interfaceText, ascii, String.toList_append, String.toList_append,
      String.toList_ofList, String.toList_ofList, String.toList_ofList]
    decide +kernel

end OvsdbCalls

end NetworkManager.Core
