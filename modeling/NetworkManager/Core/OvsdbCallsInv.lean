import NetworkManager.Core.OvsdbCalls

/-!
# What holds of the OVSDB calls

A call is in the queue or was completed, and only the first of the queue has a call id. The invariant
is a conjunction over the parts of the state. The functions that connect, disconnect and send keep it
where no monitor call is tried again.
-/

namespace NetworkManager.Core

open Lib List

namespace OvsdbFrame

def isDisconnect : OvsdbFrame → Bool
  | disconnect _ => true
  | _ => false

def isCleanup : OvsdbFrame → Bool
  | cleanup _ => true
  | _ => false

/-- The function sends the first call, or closes the connection. -/
def sends : OvsdbFrame → Bool
  | gotResponse => true
  | connectComplete => true
  | disconnect _ => true
  | _ => false

def parses : OvsdbFrame → Bool
  | readMsg => true
  | readMsgDone => true
  | _ => false

end OvsdbFrame

def OvsdbMethodCall.isMonitor (call : OvsdbMethodCall) : Bool := call.command = .monitor

/-- The first request is the monitor call. -/
def OvsdbConn.MonitorFirst (c : OvsdbConn) : Prop := ∃ call ∈ c.sent.head?, call.isMonitor = true

namespace OvsdbCalls

def conns (s : OvsdbCalls) : List OvsdbConn := s.closed ++ s.conn.toList

/-! ## Properties -/

/-- Calls are completed once, and responses are those to the call. -/
structure Once (s : OvsdbCalls) : Prop where
  ids : (s.completed.map (·.call.id) ++ s.calls.map (·.id)).Perm (List.range s.nextCall)
  answered : ∀ x ∈ s.completed, ∀ id result error, x.result = .response id result error →
    x.call.callId = some id

/-- The next request is the monitor call, or the connection is about to be closed. -/
def MonitorNext (s : OvsdbCalls) : Prop :=
  (∃ call ∈ s.calls.head?, call.isMonitor = true) ∨
    s.calls = [] ∧ ∃ frame ∈ s.stack.head?, frame.isDisconnect = true

/-- The next request has to be the monitor call. -/
def NeedsMonitor (s : OvsdbCalls) : Prop :=
  s.connecting = true ∨ ∃ c, s.conn = some c ∧ c.sent = []

/-- The order of the calls. -/
structure Queue (s : OvsdbCalls) : Prop where
  callback : ∀ call ∈ s.calls, call.isMonitor = true → call.callback = .monitorBridges
  tail : ∀ call ∈ s.calls.tail, call.callId = none
  unsent : s.conn = none → ∀ call ∈ s.calls, call.callId = none
  sent : ∀ c, s.conn = some c → ∀ call ∈ s.calls, call.callId.isSome → call ∈ c.sent
  idle : s.conn = none → s.connecting = false → s.calls = []
  connecting : s.connecting = true → s.conn = none ∧ s.MonitorNext
  first : ∀ c, s.conn = some c → c.sent = [] ∧ s.MonitorNext ∨ c.MonitorFirst
  closed : ∀ c ∈ s.closed, c.sent ≠ [] → c.MonitorFirst

/-- No connection has two monitor calls. -/
structure Monitors (s : OvsdbCalls) : Prop where
  tail : ∀ call ∈ s.calls.tail, call.isMonitor = false
  one : ∀ c ∈ s.conns, c.sent.countP (·.isMonitor) ≤ 1
  sent : ∀ c, s.conn = some c → c.sent ≠ [] → ∀ call ∈ s.calls.head?, call.isMonitor = true →
    call.callId.isSome

/-- The deletions that are pending, and what is known while they are. -/
structure Cleanup (s : OvsdbCalls) : Prop where
  pending : s.calls.countP (·.callback = .cleanupDelIface) ≤ s.cleanupNumPendingDel
  ready : s.ready = true → s.cleanupNumPendingDel = 0
  numReady : s.numReady = if s.ready then 1 else 0
  timeout : s.cleanupTimeout = true →
    s.ready = false ∧ s.cleanupNumPendingDel = 0 ∧ s.cleanupInterfaces.isSome
  top : ∀ frame ∈ s.stack.tail, frame.isCleanup = false
  loop : ∀ frame ∈ s.stack.head?, frame.isCleanup = true → s.ready = false ∧ s.cleanupTimeout = false
  assertionOk : s.assertionFailed = false

/-- The messages are those of the bytes. -/
structure Input (F : Framing Json) (s : OvsdbCalls) : Prop where
  decoded : ∀ c, s.conn = some c →
    F.decode c.received = (c.processed ++ (F.decode s.inputBuf).1, (F.decode s.inputBuf).2)
  empty : s.conn = none → s.inputBuf = []
  parsed : (∀ frame ∈ s.stack, frame.parses = false) → F.parse s.inputBuf = none
  closed : ∀ c ∈ s.closed, c.processed <+: (F.decode c.received).1

/-- A disposal completes all calls. -/
structure Disposing (s : OvsdbCalls) : Prop where
  bottom : s.disposed = true → s.stack ≠ [] → s.stack.getLast? = some (.disconnect true)
  done : s.disposed = true → s.stack = [] → s.calls = []

/-- The invariant of the runs. -/
structure Inv (F : Framing Json) (s : OvsdbCalls) : Prop where
  once : s.Once
  queue : s.Queue
  monitors : s.Monitors
  cleanup : s.Cleanup
  input : s.Input F
  disposing : s.Disposing
  notCrashed : s.crashed = false

/-- What is known where the connection may fail: no monitor call is tried again, and no loop that
cleans up interfaces is running. -/
structure MayFail (s : OvsdbCalls) : Prop where
  monitors : s.numFailures + 1 ≤ ovsdbMaxFailures → ∀ call ∈ s.calls, call.isMonitor = false
  top : ¬ s.numFailures + 1 ≤ ovsdbMaxFailures → ∀ frame ∈ s.stack.head?, frame.isCleanup = false

/-- The output buffer is written and `write()` fails. -/
def writeFails (s : OvsdbCalls) (w : WriteOutcome) : Bool :=
  w = .failed && s.conn.any fun c => !c.outSource

/-- The first call is sent and `write()` fails. -/
def sendFails (s : OvsdbCalls) (w : WriteOutcome) : Bool :=
  s.writeFails w && s.calls.head?.all fun call => call.callId.isNone

def isEcho (msg : Json) : Bool :=
  match unpackMsg msg with
  | .method method (some _) => method = ascii "echo"
  | _ => false

end OvsdbCalls

namespace OvsdbCalls.Inv

variable {F : Framing Json} {s : OvsdbCalls} {frame : OvsdbFrame} {rest : List OvsdbFrame}
  {isDisposing : Bool} {calls : List OvsdbMethodCall} {call : OvsdbMethodCall}
  {command : OvsdbCommand} {callback : OvsdbMethodCallback} {c : OvsdbConn}

/-! ## Atoms -/

theorem numFailures (h : s.Inv F) (n : ℕ) : Inv F { s with numFailures := n } where
  once := { h.once with }
  queue := { h.queue with }
  monitors := { h.monitors with }
  cleanup := { h.cleanup with }
  input := { h.input with }
  disposing := { h.disposing with }
  notCrashed := h.notCrashed

theorem tables (h : s.Inv F) (t : OvsdbTables) : Inv F { s with tables := t } where
  once := { h.once with }
  queue := { h.queue with }
  monitors := { h.monitors with }
  cleanup := { h.cleanup with }
  input := { h.input with }
  disposing := { h.disposing with }
  notCrashed := h.notCrashed

theorem inputTimeout (h : s.Inv F) (t : Option OvsdbUserData) : Inv F { s with inputTimeout := t } where
  once := { h.once with }
  queue := { h.queue with }
  monitors := { h.monitors with }
  cleanup := { h.cleanup with }
  input := { h.input with }
  disposing := { h.disposing with }
  notCrashed := h.notCrashed

theorem links (h : s.Inv F) (links : List Bytes) : Inv F { s with links := links } where
  once := { h.once with }
  queue := { h.queue with }
  monitors := { h.monitors with }
  cleanup := { h.cleanup with }
  input := { h.input with }
  disposing := { h.disposing with }
  notCrashed := h.notCrashed

/-! ### The stack -/

theorem setStack (h : s.Inv F) {stack : List OvsdbFrame}
    (hnext : s.NeedsMonitor → s.MonitorNext → MonitorNext { s with stack := stack })
    (htop : ∀ frame ∈ stack.tail, frame.isCleanup = false)
    (hloop : ∀ frame ∈ stack.head?, frame.isCleanup = true → s.ready = false ∧ s.cleanupTimeout = false)
    (hparsed : (∀ frame ∈ stack, frame.parses = false) → F.parse s.inputBuf = none)
    (hbottom : s.disposed = true → stack ≠ [] → stack.getLast? = some (.disconnect true))
    (hdone : s.disposed = true → stack = [] → s.calls = []) : Inv F { s with stack := stack } where
  once := { h.once with }
  queue := { h.queue with
    connecting := fun hc => ⟨(h.queue.connecting hc).1, hnext (.inl hc) (h.queue.connecting hc).2⟩
    first := fun c hc => (h.queue.first c hc).imp_left fun hf =>
      ⟨hf.1, hnext (.inr ⟨c, hc, hf.1⟩) hf.2⟩ }
  monitors := { h.monitors with }
  cleanup := { h.cleanup with top := htop, loop := hloop }
  input := { h.input with parsed := hparsed }
  disposing := ⟨hbottom, hdone⟩
  notCrashed := h.notCrashed

theorem push (h : s.Inv F) (frame : OvsdbFrame) (hcleanup : frame.isCleanup = false)
    (htop : ∀ frame ∈ s.stack.head?, frame.isCleanup = false)
    (hnext : s.NeedsMonitor → frame.isDisconnect = true ∨ ∃ call ∈ s.calls.head?, call.isMonitor = true)
    (hstack : s.disposed = true → s.stack ≠ []) : (s.push frame).Inv F := by
  apply h.setStack
  · rintro hneeds hmonitor
    rcases hnext hneeds with hframe | hcall
    · rcases hmonitor with hcall | ⟨hempty, _⟩
      · exact .inl hcall
      · exact .inr ⟨hempty, frame, rfl, hframe⟩
    · exact .inl hcall
  · intro frame' hframe'
    cases hs : s.stack with
    | nil => simp [hs] at hframe'
    | cons top rest =>
      rw [tail_cons, hs] at hframe'
      rcases mem_cons.mp hframe' with rfl | hframe'
      · exact htop _ (by simp [hs])
      · exact h.cleanup.top _ (by simpa [hs] using hframe')
  · rintro frame' hframe' hcleanup'
    obtain rfl : frame = frame' := by simpa using hframe'
    simp [hcleanup] at hcleanup'
  · intro hparses
    exact h.input.parsed fun frame' hframe' => hparses frame' (mem_cons_of_mem _ hframe')
  · intro hdisposed _
    have hne := hstack hdisposed
    rw [List.getLast?_cons_of_ne_nil hne]
    exact h.disposing.bottom hdisposed hne
  · intro _ hnil
    cases hnil

theorem pop (h : s.Inv F) (hstack : s.stack = frame :: rest)
    (hdisconnect : frame.isDisconnect = false) (hparses : frame.parses = false) : s.pop.Inv F := by
  have htail : s.stack.tail = rest := by rw [hstack, tail_cons]
  apply h.setStack
  · rintro - (hcall | ⟨_, frame', hframe', hdisconnect'⟩)
    · exact .inl hcall
    · obtain rfl : frame = frame' := by simpa [hstack] using hframe'
      simp [hdisconnect] at hdisconnect'
  · intro frame' hframe'
    exact h.cleanup.top _ (mem_of_mem_tail hframe')
  · intro frame' hframe' hcleanup'
    have hfalse := h.cleanup.top frame' (mem_of_mem_head? hframe')
    simp [hfalse] at hcleanup'
  · intro hrest
    apply h.input.parsed
    intro frame' hframe'
    rw [hstack] at hframe'
    rcases mem_cons.mp hframe' with rfl | hframe'
    · exact hparses
    · exact hrest frame' (by rwa [htail])
  · intro hdisposed hne
    rw [htail] at hne ⊢
    rw [← h.disposing.bottom hdisposed (by simp [hstack]), hstack,
      List.getLast?_cons_of_ne_nil hne]
  · intro hdisposed hnil
    rw [htail] at hnil
    have hbottom := h.disposing.bottom hdisposed (by simp [hstack])
    rw [hstack, hnil] at hbottom
    obtain rfl : frame = .disconnect true := by simpa using hbottom
    simp [OvsdbFrame.isDisconnect] at hdisconnect

theorem swap (h : s.Inv F) (frame' : OvsdbFrame) (hstack : s.stack = frame :: rest)
    (hdisconnect : frame.isDisconnect = false)
    (hcleanup : frame'.isCleanup = true → s.ready = false ∧ s.cleanupTimeout = false)
    (hparsed : frame.parses = true → frame'.parses = false → F.parse s.inputBuf = none) :
    (s.pop.push frame').Inv F := by
  have htail : s.stack.tail = rest := by rw [hstack, tail_cons]
  apply h.setStack (s := s)
  · rintro - (hcall | ⟨_, top, htop, hdisconnect'⟩)
    · exact .inl hcall
    · obtain rfl : frame = top := by simpa [hstack] using htop
      simp [hdisconnect] at hdisconnect'
  · intro top htop
    exact h.cleanup.top top htop
  · intro top htop hcleanup'
    obtain rfl : frame' = top := by simpa using htop
    exact hcleanup hcleanup'
  · intro hparses
    by_cases hframe : frame.parses = true
    · exact hparsed hframe (hparses frame' mem_cons_self)
    · apply h.input.parsed
      intro top htop
      rw [hstack] at htop
      rcases mem_cons.mp htop with rfl | htop
      · simpa using hframe
      · exact hparses top (mem_cons_of_mem _ (show top ∈ s.stack.tail from htail.symm ▸ htop))
  · intro hdisposed _
    have hbottom := h.disposing.bottom hdisposed (by simp [hstack])
    have hne : s.pop.stack ≠ [] := by
      intro hnil
      rw [hstack, show rest = [] from htail ▸ hnil] at hbottom
      obtain rfl : frame = .disconnect true := by simpa using hbottom
      simp [OvsdbFrame.isDisconnect] at hdisconnect
    rw [List.getLast?_cons_of_ne_nil hne, ← hbottom, hstack]
    have hrest : rest ≠ [] := htail ▸ hne
    rw [List.getLast?_cons_of_ne_nil hrest]
    exact congrArg List.getLast? htail
  · intro _ hnil
    cases hnil

/-! ### The connection -/

theorem conns_reset : s.reset.conns = s.conns := by
  cases hc : s.conn <;> simp [conns, reset, hc]

theorem conns_first (h : s.Queue) : ∀ c ∈ s.conns, c.sent ≠ [] → c.MonitorFirst := by
  intro c hc hsent
  rcases mem_append.mp hc with hc | hc
  · exact h.closed c hc hsent
  · rcases h.first c (by simpa using hc) with hempty | hfirst
    · exact absurd hempty.1 hsent
    · exact hfirst

theorem conns_decoded (h : s.Input F) : ∀ c ∈ s.conns, c.processed <+: (F.decode c.received).1 := by
  intro c hc
  rcases mem_append.mp hc with hc | hc
  · exact h.closed c hc
  · rw [h.decoded c (by simpa using hc)]
    exact prefix_append _ _

theorem parse_nil : F.parse [] = none := by
  cases hparse : F.parse [] with
  | none => rfl
  | some found => exact absurd (F.parse_shorter hparse) (by simp)

/-- All calls were completed and the connection is closed. -/
theorem finish (h : s.Inv F) (hstack : s.stack = .disconnect isDisposing :: rest)
    (hcalls : s.calls = []) : s.pop.reset.Inv F := by
  have htail : s.stack.tail = rest := by rw [hstack, tail_cons]
  refine ⟨{ h.once with }, ⟨?_, ?_, ?_, ?_, ?_, ?_, ?_, conns_first (s := s) h.queue⟩, ⟨?_, ?_, ?_⟩,
    { h.cleanup with top := ?_, loop := ?_ }, ⟨?_, ?_, ?_, conns_decoded (s := s) h.input⟩, ⟨?_, ?_⟩,
    h.notCrashed⟩
  · exact h.queue.callback
  · exact h.queue.tail
  · intro _ call hcall
    simp [reset, OvsdbCalls.pop, hcalls] at hcall
  · rintro c hc
    cases hc
  · intro _ _
    exact hcalls
  · intro hc
    cases hc
  · rintro c hc
    cases hc
  · exact h.monitors.tail
  · intro c hc
    have hconns : s.pop.reset.conns = s.conns := conns_reset (s := s.pop)
    rw [hconns] at hc
    exact h.monitors.one c hc
  · rintro c hc
    cases hc
  · intro frame hframe
    exact h.cleanup.top frame (mem_of_mem_tail hframe)
  · intro frame hframe hcleanup
    have hfalse := h.cleanup.top frame (mem_of_mem_head? hframe)
    simp [hfalse] at hcleanup
  · rintro c hc
    cases hc
  · intro _
    rfl
  · intro _
    exact parse_nil
  · intro hdisposed hne
    change s.stack.tail ≠ [] at hne
    change s.stack.tail.getLast? = _
    rw [htail] at hne ⊢
    rw [← h.disposing.bottom hdisposed (by simp [hstack]), hstack, List.getLast?_cons_of_ne_nil hne]
  · intro _ _
    exact hcalls

theorem map_id_unspecFirst (calls : List OvsdbMethodCall) :
    (unspecFirst calls).map (·.id) = calls.map (·.id) := by cases calls <;> rfl

theorem mem_unspecFirst (htail : ∀ call ∈ calls.tail, call.callId = none)
    (hcall : call ∈ unspecFirst calls) :
    call.callId = none ∧
      ∃ call' ∈ calls, call.isMonitor = call'.isMonitor ∧ call.callback = call'.callback := by
  cases calls with
  | nil => simp [unspecFirst] at hcall
  | cons first rest =>
    rcases mem_cons.mp hcall with rfl | hcall
    · exact ⟨rfl, first, mem_cons_self, rfl, rfl⟩
    · exact ⟨htail call hcall, call, mem_cons_of_mem _ hcall, rfl, rfl⟩

theorem countP_unspecFirst :
    (unspecFirst calls).countP (·.callback = .cleanupDelIface) =
      calls.countP (·.callback = .cleanupDelIface) := by
  cases calls <;> simp [unspecFirst, countP_cons]

theorem perm_insertFirst {ids ids' : List ℕ} {n : ℕ} (h : (ids ++ ids').Perm (List.range n)) :
    (ids ++ n :: ids').Perm (List.range (n + 1)) := by
  rw [range_succ]
  exact perm_middle.trans ((h.cons n).trans (perm_append_singleton n _).symm)

/-- A monitor call is queued for a new connection. -/
theorem startConnect (hconn : s.conn = none)
    (hcalls : ∀ call ∈ s.calls, call.isMonitor = false ∧ call.callId = none) (honce : s.Once)
    (hfirst : ∀ c ∈ s.conns, c.sent ≠ [] → c.MonitorFirst)
    (hone : ∀ c ∈ s.conns, c.sent.countP (·.isMonitor) ≤ 1) (hcleanup : s.Cleanup)
    (hinput : s.Input F) (hstack : s.disposed = true → s.stack ≠ [])
    (hbottom : s.disposed = true → s.stack ≠ [] → s.stack.getLast? = some (.disconnect true))
    (hcrashed : s.crashed = false) :
    ({ s with connecting := true }.linkCall true .monitor .monitorBridges).Inv F := by
  have hconns : s.conns = s.closed := by simp [conns, hconn]
  rw [hconns] at hfirst hone
  refine ⟨{ honce with ids := ?_ }, ⟨?_, ?_, ?_, ?_, ?_, ?_, ?_, hfirst⟩, ⟨?_, ?_, ?_⟩,
    { hcleanup with pending := ?_ }, { hinput with }, ⟨hbottom, ?_⟩, hcrashed⟩
  · exact perm_insertFirst honce.ids
  · intro call hcall hmonitor
    rcases mem_cons.mp hcall with rfl | hcall
    · rfl
    · simp [(hcalls call hcall).1] at hmonitor
  · intro call hcall
    exact (hcalls call hcall).2
  · intro _ call hcall
    rcases mem_cons.mp hcall with rfl | hcall
    · rfl
    · exact (hcalls call hcall).2
  · intro c hc
    rw [show _ = none from hconn] at hc
    cases hc
  · intro _ hc
    cases hc
  · intro _
    exact ⟨hconn, .inl ⟨_, rfl, rfl⟩⟩
  · intro c hc
    rw [show _ = none from hconn] at hc
    cases hc
  · intro call hcall
    exact (hcalls call hcall).1
  · intro c hc
    exact hone c (hconns ▸ hc)
  · intro c hc
    rw [show _ = none from hconn] at hc
    cases hc
  · have hcount : ((⟨s.nextCall, none, .monitor, .monitorBridges⟩ : OvsdbMethodCall) :: s.calls).countP
        (·.callback = .cleanupDelIface) = s.calls.countP (·.callback = .cleanupDelIface) := by
      simp
    exact hcount.trans_le hcleanup.pending
  · intro hdisposed hnil
    exact absurd hnil (hstack hdisposed)

theorem tryConnect (h : s.Inv F) (hstack : s.disposed = true → s.stack ≠ []) : s.tryConnect.Inv F := by
  unfold OvsdbCalls.tryConnect
  split_ifs with hcond
  · exact h
  · obtain ⟨hconn, hconnecting⟩ : s.conn = none ∧ s.connecting = false := by simpa using hcond
    have hempty := h.queue.idle hconn hconnecting
    apply startConnect hconn _ h.once (conns_first h.queue) h.monitors.one h.cleanup h.input hstack
      h.disposing.bottom h.notCrashed
    intro call hcall
    simp [hempty] at hcall

theorem retry (h : s.Inv F) (hmonitor : ∀ call ∈ s.calls, call.isMonitor = false)
    (hstack : s.disposed = true → s.stack ≠ []) :
    ({ s with calls := unspecFirst s.calls }.reset.tryConnect).Inv F := by
  have hconns : ({ s with calls := unspecFirst s.calls }.reset).conns = s.conns := conns_reset
  have htry : ({ s with calls := unspecFirst s.calls }.reset.tryConnect) =
      { { s with calls := unspecFirst s.calls }.reset with connecting := true }.linkCall true .monitor
        .monitorBridges := if_neg (by simp [reset])
  rw [htry]
  apply startConnect
  · rfl
  · intro call hcall
    obtain ⟨hnone, call', hcall', hsame, -⟩ := mem_unspecFirst h.queue.tail hcall
    exact ⟨hsame.trans (hmonitor call' hcall'), hnone⟩
  · exact { h.once with ids := map_id_unspecFirst s.calls ▸ h.once.ids }
  · rw [hconns]
    exact conns_first h.queue
  · rw [hconns]
    exact h.monitors.one
  · exact { h.cleanup with pending := countP_unspecFirst.trans_le h.cleanup.pending }
  · refine ⟨?_, ?_, ?_, conns_decoded (s := s) h.input⟩
    · intro c hc
      cases hc
    · intro _
      rfl
    · intro _
      exact parse_nil
  · exact hstack
  · exact h.disposing.bottom
  · exact h.notCrashed

theorem disconnect (h : s.Inv F) {retry : Bool}
    (hmonitor : retry = true → ∀ call ∈ s.calls, call.isMonitor = false)
    (htop : retry = false → ∀ frame ∈ s.stack.head?, frame.isCleanup = false)
    (hstack : s.disposed = true → s.stack ≠ []) : (s.disconnect retry isDisposing).Inv F := by
  unfold OvsdbCalls.disconnect
  split_ifs with hidle hretry
  · exact h
  · exact h.retry (hmonitor hretry) hstack
  · exact h.push _ rfl (htop (by simpa using hretry)) (fun _ => .inl rfl) hstack

theorem fail (h : s.Inv F) (hfail : s.MayFail) (hstack : s.disposed = true → s.stack ≠ []) :
    s.fail.Inv F := by
  apply (h.numFailures _).disconnect
  · intro hretry
    exact hfail.monitors (by simpa using hretry)
  · intro hretry
    exact hfail.top (by simpa using hretry)
  · exact hstack

/-! ### Calls -/

section

variable (h : s.Inv F)

include h

/-- A call is queued. -/
theorem linkCall (hcommand : command ≠ .monitor) (hconn : s.conn.isSome ∨ s.connecting = true)
    (htop : ∀ frame ∈ s.stack.head?, frame.isDisconnect = false)
    (hpending : (s.linkCall false command callback).calls.countP (·.callback = .cleanupDelIface) ≤ s.cleanupNumPendingDel)
    (hstack : s.disposed = true → s.stack ≠ []) : (s.linkCall false command callback).Inv F := by
  have hmonitor : (⟨s.nextCall, none, command, callback⟩ : OvsdbMethodCall).isMonitor = false := by
    simpa [OvsdbMethodCall.isMonitor] using hcommand
  have hmem {call : OvsdbMethodCall} (hcall : call ∈ (s.linkCall false command callback).calls) :
      call ∈ s.calls ∨ call = ⟨s.nextCall, none, command, callback⟩ := by
    simpa [OvsdbCalls.linkCall] using hcall
  have htail {call : OvsdbMethodCall} (hcall : call ∈ (s.linkCall false command callback).calls.tail) :
      call ∈ s.calls.tail ∨ call = ⟨s.nextCall, none, command, callback⟩ := by
    cases hcalls : s.calls with
    | nil => simp [OvsdbCalls.linkCall, hcalls] at hcall
    | cons first rest => simpa [OvsdbCalls.linkCall, hcalls] using hcall
  have hnext (hmonitorNext : s.MonitorNext) : (s.linkCall false command callback).MonitorNext := by
    rcases hmonitorNext with ⟨call, hcall, hm⟩ | ⟨_, frame, hframe, hdisconnect⟩
    · left
      cases hcalls : s.calls with
      | nil => simp [hcalls] at hcall
      | cons first rest =>
        refine ⟨call, ?_, hm⟩
        simpa [OvsdbCalls.linkCall, hcalls] using hcall
    · simp [htop frame hframe] at hdisconnect
  refine ⟨{ h.once with ids := ?_ }, { h.queue with
    callback := ?_, tail := ?_, unsent := ?_, sent := ?_, idle := ?_, connecting := ?_, first := ?_ },
    { h.monitors with tail := ?_, sent := ?_ }, { h.cleanup with pending := hpending },
    { h.input with }, { h.disposing with done := ?_ }, h.notCrashed⟩
  · have hids := h.once.ids.append_right [s.nextCall]
    rw [← range_succ, append_assoc] at hids
    simpa [OvsdbCalls.linkCall] using hids
  · intro call hcall hm
    rcases hmem hcall with hcall | rfl
    · exact h.queue.callback call hcall hm
    · simp [hmonitor] at hm
  · intro call hcall
    rcases htail hcall with hcall | rfl
    · exact h.queue.tail call hcall
    · rfl
  · intro hc call hcall
    rcases hmem hcall with hcall | rfl
    · exact h.queue.unsent hc call hcall
    · rfl
  · intro c hc call hcall hid
    rcases hmem hcall with hcall | rfl
    · exact h.queue.sent c hc call hcall hid
    · cases hid
  · intro hc hconnecting
    rcases hconn with hconn | hconn
    · rw [show s.conn = none from hc] at hconn
      cases hconn
    · rw [show s.connecting = false from hconnecting] at hconn
      cases hconn
  · intro hc
    obtain ⟨hnone, hmonitorNext⟩ := h.queue.connecting hc
    exact ⟨hnone, hnext hmonitorNext⟩
  · intro c hc
    rcases h.queue.first c hc with ⟨hempty, hmonitorNext⟩ | hfirst
    · exact .inl ⟨hempty, hnext hmonitorNext⟩
    · exact .inr hfirst
  · intro call hcall
    rcases htail hcall with hcall | rfl
    · exact h.monitors.tail call hcall
    · exact hmonitor
  · intro c hc hsent call hcall hm
    cases hcalls : s.calls with
    | nil =>
      obtain rfl : ⟨s.nextCall, none, command, callback⟩ = call := by
        simpa [OvsdbCalls.linkCall, hcalls] using hcall
      simp [hmonitor] at hm
    | cons first rest =>
      apply h.monitors.sent c hc hsent call _ hm
      simpa [OvsdbCalls.linkCall, hcalls] using hcall
  · intro hdisposed hnil
    exact absurd hnil (hstack hdisposed)

/-- The first call is sent. -/
theorem send (hconn : s.conn = some c) (hcalls : s.calls = call :: calls) (hid : call.callId = none)
    (n : ℕ) :
    Inv F { s with
      callIdCounter := n
      calls := { call with callId := some n } :: calls
      conn := some { c with sent := c.sent ++ [{ call with callId := some n }] } } := by
  have hmem : call ∈ s.calls := by simp [hcalls]
  have htail : ∀ call' ∈ calls, call'.callId = none := by
    intro call' hcall'
    exact h.queue.tail call' (by simpa [hcalls] using hcall')
  have hnotConnecting : s.connecting = false := by
    by_contra hc
    have hnone := (h.queue.connecting (by simpa using hc)).1
    rw [hconn] at hnone
    cases hnone
  have hfirst : OvsdbConn.MonitorFirst { c with sent := c.sent ++ [{ call with callId := some n }] } := by
    rcases h.queue.first c hconn with ⟨hempty, hmonitorNext⟩ | ⟨first, hfirst, hm⟩
    · rcases hmonitorNext with ⟨call', hcall', hm⟩ | ⟨hnil, _⟩
      · obtain rfl : call = call' := by simpa [hcalls] using hcall'
        exact ⟨{ call with callId := some n }, by simp [hempty], hm⟩
      · simp [hcalls] at hnil
    · refine ⟨first, ?_, hm⟩
      simp only [Option.mem_def] at hfirst ⊢
      rw [List.head?_append, hfirst]
      rfl
  refine ⟨{ h.once with ids := ?_ }, ⟨?_, ?_, ?_, ?_, ?_, ?_, ?_, h.queue.closed⟩, ⟨?_, ?_, ?_⟩,
    { h.cleanup with pending := ?_ }, { h.input with decoded := ?_, empty := ?_ },
    { h.disposing with done := ?_ }, h.notCrashed⟩
  · have hids := h.once.ids
    rw [hcalls] at hids
    exact hids
  · intro call' hcall' hm
    rcases mem_cons.mp hcall' with rfl | hcall'
    · exact h.queue.callback call hmem hm
    · exact h.queue.callback call' (by simp [hcalls, hcall']) hm
  · exact htail
  · intro hc
    cases hc
  · intro c' hc' call' hcall' hid'
    obtain rfl := Option.some.inj hc'
    rcases mem_cons.mp hcall' with rfl | hcall'
    · exact mem_append_right _ (mem_singleton_self _)
    · simp [htail call' hcall'] at hid'
  · intro hc
    cases hc
  · intro hc
    rw [show s.connecting = true from hc] at hnotConnecting
    cases hnotConnecting
  · intro c' hc'
    obtain rfl := Option.some.inj hc'
    exact .inr hfirst
  · intro call' hcall'
    exact h.monitors.tail call' (by simpa [hcalls] using hcall')
  · intro c' hc'
    have hone (c'' : OvsdbConn) (hc'' : c'' ∈ s.conns) := h.monitors.one c'' hc''
    rcases mem_append.mp hc' with hc' | hc'
    · exact hone c' (mem_append_left _ hc')
    · obtain rfl := mem_singleton.mp hc'
      have hcount := hone c (mem_append_right _ (by simp [hconn]))
      rw [countP_append]
      by_cases hm : call.isMonitor = true
      · have hempty : c.sent = [] := by
          by_contra hne
          have hsome := h.monitors.sent c hconn hne call (by simp [hcalls]) hm
          simp [hid] at hsome
        rw [hempty, countP_nil, Nat.zero_add]
        exact countP_le_length
      · have hzero : List.countP (·.isMonitor) [{ call with callId := some n }] = 0 := by
          simpa [countP_cons, OvsdbMethodCall.isMonitor] using hm
        omega
  · intro c' hc' _ call' hcall' _
    obtain rfl : _ = call' := by simpa using hcall'
    rfl
  · have hpending := h.cleanup.pending
    rw [hcalls] at hpending
    exact hpending
  · intro c' hc'
    obtain rfl := Option.some.inj hc'
    exact h.input.decoded c hconn
  · intro hc
    cases hc
  · intro hdisposed hnil
    have hempty := h.disposing.done hdisposed hnil
    simp [hcalls] at hempty

theorem setConn {c' : OvsdbConn} {input : Bytes} (hconn : s.conn = some c)
    (hsent : c'.sent = c.sent)
    (hdecoded : F.decode c'.received = (c'.processed ++ (F.decode input).1, (F.decode input).2))
    (hparsed : (∀ frame ∈ s.stack, frame.parses = false) → F.parse input = none) :
    Inv F { s with conn := some c', inputBuf := input } := by
  refine ⟨{ h.once with }, { h.queue with
    unsent := ?_, sent := ?_, idle := ?_, connecting := ?_, first := ?_ }, { h.monitors with
    one := ?_, sent := ?_ }, { h.cleanup with }, { h.input with
    decoded := ?_, empty := ?_, parsed := hparsed }, { h.disposing with }, h.notCrashed⟩
  · intro hc
    cases hc
  · rintro _ ⟨⟩
    rw [hsent]
    exact h.queue.sent c hconn
  · intro hc
    cases hc
  · intro hc
    have hnone := (h.queue.connecting hc).1
    rw [hconn] at hnone
    cases hnone
  · rintro _ ⟨⟩
    unfold OvsdbConn.MonitorFirst
    rw [hsent]
    exact h.queue.first c hconn
  · intro c'' hc''
    rcases mem_append.mp hc'' with hc'' | hc''
    · exact h.monitors.one c'' (mem_append_left _ hc'')
    · obtain rfl := mem_singleton.mp hc''
      rw [hsent]
      exact h.monitors.one c (mem_append_right _ (by simp [hconn]))
  · rintro _ ⟨⟩
    rw [hsent]
    exact h.monitors.sent c hconn
  · rintro _ ⟨⟩
    exact hdecoded
  · intro hc
    cases hc

theorem outSource (b : Bool) :
    Inv F { s with conn := s.conn.map fun c => { c with outSource := b } } := by
  cases hconn : s.conn with
  | none =>
    have hsame : { s with conn := none } = s := by rw [← hconn]
    exact hsame.symm ▸ h
  | some c => exact h.setConn hconn rfl (h.input.decoded c hconn) h.input.parsed

theorem write (w : WriteOutcome) (hfail : w = .failed → s.MayFail)
    (hstack : s.disposed = true → s.stack ≠ []) : (s.write w).Inv F := by
  cases w with
  | done => exact h.outSource false
  | again => exact h.outSource true
  | failed => exact h.fail (hfail rfl) hstack

theorem writeTry (w : WriteOutcome) (hfail : s.writeFails w = true → s.MayFail)
    (hstack : s.disposed = true → s.stack ≠ []) : (s.writeTry w).Inv F := by
  unfold OvsdbCalls.writeTry
  split
  · rename_i c hconn
    split_ifs with hsource
    · exact h
    · apply h.write w _ hstack
      intro hw
      exact hfail (by simp [writeFails, hconn, hw, hsource])
  · exact h

theorem nextCommand (w : WriteOutcome) (hfail : s.sendFails w = true → s.MayFail)
    (hstack : s.disposed = true → s.stack ≠ []) : (s.nextCommand w).Inv F := by
  unfold OvsdbCalls.nextCommand
  split
  · rename_i c call calls hconn hcalls
    split_ifs with hid
    · exact h
    · have hnone : call.callId = none := by simpa using hid
      have hsend := h.send hconn hcalls hnone (s.callIdCounter + 1)
      apply hsend.writeTry w _ hstack
      intro hw
      have hmay := hfail (by simpa [sendFails, writeFails, hconn, hcalls, hnone] using hw)
      refine ⟨fun hle call' hcall' => ?_, hmay.top⟩
      rcases mem_cons.mp hcall' with rfl | hcall'
      · exact hmay.monitors hle call (by simp [hcalls])
      · exact hmay.monitors hle call' (by simp [hcalls, hcall'])
  · exact h

end

theorem tryConnect_conn : s.tryConnect.conn.isSome ∨ s.tryConnect.connecting = true := by
  unfold OvsdbCalls.tryConnect
  split_ifs with hcond
  · exact hcond
  · exact .inr rfl

theorem tryConnect_of_conn (h : s.tryConnect.conn.isSome) : s.tryConnect = s := by
  have hconn : s.tryConnect.conn = s.conn := by
    unfold OvsdbCalls.tryConnect
    split_ifs <;> rfl
  rw [hconn] at h
  exact if_pos (.inl h)

theorem stack_tryConnect : s.tryConnect.stack = s.stack := by
  unfold OvsdbCalls.tryConnect
  split_ifs <;> rfl

theorem disposed_tryConnect : s.tryConnect.disposed = s.disposed := by
  unfold OvsdbCalls.tryConnect
  split_ifs <;> rfl

theorem pending_tryConnect : s.tryConnect.cleanupNumPendingDel = s.cleanupNumPendingDel := by
  unfold OvsdbCalls.tryConnect
  split_ifs <;> rfl

theorem countP_tryConnect :
    s.tryConnect.calls.countP (·.callback = .cleanupDelIface) =
      s.calls.countP (·.callback = .cleanupDelIface) := by
  unfold OvsdbCalls.tryConnect
  split_ifs
  · rfl
  · simp [OvsdbCalls.linkCall]

theorem callMethod (h : s.Inv F) (hcommand : command ≠ .monitor)
    (htop : ∀ frame ∈ s.stack.head?, frame.isDisconnect = false)
    (hpending : s.calls.countP (·.callback = .cleanupDelIface) + (if callback = .cleanupDelIface then 1 else 0) ≤ s.cleanupNumPendingDel)
    (w : WriteOutcome) (hfail : s.sendFails w = true → s.MayFail)
    (hstack : s.disposed = true → s.stack ≠ []) : (s.callMethod command callback w).Inv F := by
  have hstack' : s.tryConnect.disposed = true → s.tryConnect.stack ≠ [] := by
    rw [stack_tryConnect, disposed_tryConnect]
    exact hstack
  have hcalls : (s.tryConnect.linkCall false command callback).calls =
      s.tryConnect.calls ++ [⟨s.tryConnect.nextCall, none, command, callback⟩] := rfl
  have hlink : (s.tryConnect.linkCall false command callback).Inv F := by
    apply (h.tryConnect hstack).linkCall hcommand tryConnect_conn
    · rw [stack_tryConnect]
      exact htop
    · rw [hcalls, countP_append, countP_tryConnect, pending_tryConnect]
      simpa [countP_cons] using hpending
    · exact hstack'
  apply hlink.nextCommand w _ hstack'
  intro hsends
  have hconn : s.tryConnect.conn.isSome := by
    cases hc : s.tryConnect.conn with
    | none => simp [sendFails, writeFails, OvsdbCalls.linkCall, hc] at hsends
    | some c => rfl
  have hsame : s.tryConnect = s := tryConnect_of_conn hconn
  rw [hsame] at hsends ⊢
  have hmay := hfail (by
    cases hcalls : s.calls with
    | nil => simpa [sendFails, writeFails, OvsdbCalls.linkCall, hcalls] using hsends
    | cons first others => simpa [sendFails, writeFails, OvsdbCalls.linkCall, hcalls] using hsends)
  refine ⟨fun hle call hcall => ?_, hmay.top⟩
  rcases mem_append.mp hcall with hcall | hcall
  · exact hmay.monitors hle call hcall
  · rw [mem_singleton.mp hcall]
    simpa [OvsdbMethodCall.isMonitor] using hcommand

end OvsdbCalls.Inv

end NetworkManager.Core
