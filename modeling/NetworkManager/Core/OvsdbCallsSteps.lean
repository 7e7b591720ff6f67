import NetworkManager.Core.OvsdbCallsInv

/-!
# The steps of the OVSDB calls

Three things go wrong: the input timeout has no user data, a monitor call that a retry interrupts is
sent twice, and the loop that cleans up interfaces may find them deleted while it is running. Every
other step keeps the invariant.
-/

namespace NetworkManager.Core

open Lib List

namespace OvsdbCalls

/-- The connection fails. -/
def connFails (F : Framing Json) (s : OvsdbCalls) : OvsdbEvent → Bool
  | .call _ w => (s.stack = [] || s.stack.head? = some .user) && s.sendFails w
  | .resume w =>
    match s.stack with
    | .gotResponse :: _ => s.sendFails w
    | .connectComplete :: _ => s.sendFails w
    | .cleanup (_ :: _) :: _ => s.sendFails w
    | .readMsg :: _ => (F.parse s.inputBuf).any (fun found => isEcho found.1) && s.writeFails w
    | .readEnd :: _ => maxInput < s.inputBuf.length
    | _ => false
  | .readFailed => s.stack.head? = some .read
  | .writable w => w = .failed && s.stack = [] && s.conn.any (·.outSource)
  | _ => false

def failuresBefore (s : OvsdbCalls) : ℕ :=
  match s.stack with
  | .gotResponse :: _ => 0
  | _ => s.numFailures

/-- No input timeout fires, a failure that is tried again finds no monitor call in the queue, and one
that is not is not in the loop that cleans up interfaces. -/
structure InReach (F : Framing Json) (s : OvsdbCalls) (e : OvsdbEvent) : Prop where
  timeout : e = .inputTimeout → s.stack = [] → s.inputTimeout = none
  monitors : s.connFails F e = true → s.failuresBefore + 1 ≤ ovsdbMaxFailures →
    ∀ call ∈ s.calls, call.isMonitor = false
  loop : s.connFails F e = true → ¬ s.failuresBefore + 1 ≤ ovsdbMaxFailures →
    ∀ frame ∈ s.stack.head?, frame.isCleanup = false

end OvsdbCalls

namespace OvsdbCalls.Inv

variable {F : Framing Json} {s : OvsdbCalls} {rest : List OvsdbFrame} {call : OvsdbMethodCall}
  {calls : List OvsdbMethodCall} {result : OvsdbCallResult}

/-! ## Interfaces that are cleaned up -/

theorem cleanupEmitReady (h : s.Inv F) (hready : s.ready = false) (hpending : s.cleanupNumPendingDel = 0)
    (htop : ∀ frame ∈ s.stack.head?, frame.isCleanup = false)
    (hnext : s.NeedsMonitor → ∃ call ∈ s.calls.head?, call.isMonitor = true)
    (hstack : s.disposed = true → s.stack ≠ []) : s.cleanupEmitReady.Inv F := by
  have hpush := h.push .user rfl htop (fun hn => .inr (hnext hn)) hstack
  refine ⟨{ hpush.once with }, { hpush.queue with }, { hpush.monitors with }, ?_,
    { hpush.input with }, { hpush.disposing with }, hpush.notCrashed⟩
  refine ⟨hpush.cleanup.pending, fun _ => hpending, ?_, ?_, hpush.cleanup.top, ?_,
    hpush.cleanup.assertionOk⟩
  · have hzero : s.numReady = 0 := by simp [h.cleanup.numReady, hready]
    simp [OvsdbCalls.cleanupEmitReady, OvsdbCalls.push, hzero]
  · intro hc
    cases hc
  · intro frame hframe hcleanup
    obtain rfl : OvsdbFrame.user = frame := Option.some.inj hframe
    cases hcleanup

theorem assertionFailed (h : s.Inv F) (hready : s.ready = false) :
    Inv F { s with assertionFailed := s.assertionFailed || s.ready } where
  once := { h.once with }
  queue := { h.queue with }
  monitors := { h.monitors with }
  cleanup := { h.cleanup with assertionOk := by simp [h.cleanup.assertionOk, hready] }
  input := { h.input with }
  disposing := { h.disposing with }
  notCrashed := h.notCrashed

theorem cleanupCheckReady (h : s.Inv F) (hready : s.ready = false)
    (htop : ∀ frame ∈ s.stack.head?, frame.isCleanup = false)
    (hnext : s.NeedsMonitor → ∃ call ∈ s.calls.head?, call.isMonitor = true)
    (hstack : s.disposed = true → s.stack ≠ []) : s.cleanupCheckReady.Inv F := by
  unfold OvsdbCalls.cleanupCheckReady
  have hassert := h.assertionFailed hready
  dsimp only
  split_ifs with hpending hempty
  · exact hassert
  all_goals
    have hzero : s.cleanupNumPendingDel = 0 := by simpa using hpending
    have hfilter : Inv F { s with
        assertionFailed := s.assertionFailed || s.ready
        cleanupInterfaces := s.cleanupInterfaces.map fun ifnames => ifnames.filter (· ∈ s.links) } :=
      ⟨{ hassert.once with }, { hassert.queue with }, { hassert.monitors with },
        { hassert.cleanup with timeout := fun ht => by simpa using hassert.cleanup.timeout ht },
        { hassert.input with }, { hassert.disposing with }, hassert.notCrashed⟩
  · exact hfilter.cleanupEmitReady hready hzero htop hnext hstack
  · refine ⟨{ hfilter.once with }, { hfilter.queue with }, { hfilter.monitors with },
      { hfilter.cleanup with timeout := fun _ => ⟨hready, hzero, ?_⟩, loop := ?_ },
      { hfilter.input with }, { hfilter.disposing with }, hfilter.notCrashed⟩
    · cases hinterfaces : s.cleanupInterfaces with
      | none => simp [hinterfaces] at hempty
      | some ifnames => rfl
    · intro frame hframe hcleanup
      simp [htop frame hframe] at hcleanup

theorem cleanupDelIfaceCb (h : s.Inv F) (result : OvsdbCallResult)
    (hpending : s.calls.countP (·.callback = .cleanupDelIface) < s.cleanupNumPendingDel)
    (htop : ∀ frame ∈ s.stack.head?, frame.isCleanup = false)
    (hnext : s.NeedsMonitor → ∃ call ∈ s.calls.head?, call.isMonitor = true)
    (hstack : s.disposed = true → s.stack ≠ []) : (s.cleanupDelIfaceCb result).Inv F := by
  have hready : s.ready = false := by
    by_contra hready
    have hzero := h.cleanup.ready (by simpa using hready)
    omega
  have htimeout : s.cleanupTimeout = false := by
    by_contra htimeout
    have hzero := (h.cleanup.timeout (by simpa using htimeout)).2.1
    omega
  have hless : Inv F { s with cleanupNumPendingDel := s.cleanupNumPendingDel - 1 } := by
    refine ⟨{ h.once with }, { h.queue with }, { h.monitors with }, { h.cleanup with
      pending := ?_, ready := ?_, timeout := ?_ }, { h.input with }, { h.disposing with },
      h.notCrashed⟩
    · change _ ≤ s.cleanupNumPendingDel - 1
      exact Nat.le_sub_one_of_lt hpending
    · intro hc
      rw [show s.ready = true from hc] at hready
      cases hready
    · intro hc
      rw [show s.cleanupTimeout = true from hc] at htimeout
      cases htimeout
  unfold OvsdbCalls.cleanupDelIfaceCb
  split
  · exact h
  · exact hless.cleanupCheckReady hready htop hnext hstack

theorem cleanupInitialInterfaces (h : s.Inv F) (hstack : s.stack = .monitorBridges :: rest)
    : s.pop.cleanupInitialInterfaces.Inv F := by
  unfold OvsdbCalls.cleanupInitialInterfaces
  split_ifs with hguard
  · exact h.pop hstack rfl rfl
  · obtain ⟨hready, -, hnone⟩ : s.ready = false ∧ s.cleanupNumPendingDel = 0 ∧
        s.cleanupInterfaces = none := by simpa [OvsdbCalls.pop] using hguard
    have htimeout : s.cleanupTimeout = false := by
      by_contra htimeout
      have hsome := (h.cleanup.timeout (by simpa using htimeout)).2.2
      simp [hnone] at hsome
    exact h.swap _ hstack rfl (fun _ => ⟨hready, htimeout⟩) (fun hc => by cases hc)

theorem cleanupNext (h : s.Inv F) {ifnames : List Bytes}
    (hstack : s.stack = .cleanup ifnames :: rest) (ifname : Bytes) (w : WriteOutcome)
    (hfail : s.sendFails w = true → s.MayFail) : (s.cleanupNext ifname w).Inv F := by
  obtain ⟨hready, htimeout⟩ := h.cleanup.loop (.cleanup ifnames) (by simp [hstack]) rfl
  have hmore : Inv F { s with
      cleanupInterfaces := some (s.cleanupInterfaces.getD [] ++ [ifname])
      cleanupNumPendingDel := s.cleanupNumPendingDel + 1 } := by
    refine ⟨{ h.once with }, { h.queue with }, { h.monitors with }, { h.cleanup with
      pending := ?_, ready := ?_, timeout := ?_ }, { h.input with }, { h.disposing with },
      h.notCrashed⟩
    · exact h.cleanup.pending.trans (Nat.le_succ _)
    · intro hc
      rw [show s.ready = true from hc] at hready
      cases hready
    · intro hc
      rw [show s.cleanupTimeout = true from hc] at htimeout
      cases htimeout
  apply hmore.callMethod (by decide) _ _ w _ _
  · intro frame hframe
    obtain rfl : OvsdbFrame.cleanup ifnames = frame := by simpa [hstack] using hframe
    rfl
  · rw [if_pos rfl]
    exact Nat.add_le_add_right h.cleanup.pending 1
  · intro hw
    exact ⟨(hfail hw).monitors, (hfail hw).top⟩
  · intro _
    simp [hstack]

/-! ## Completions -/

theorem unique (h : s.Inv F) : KeyUnique OvsdbMethodCall.id s.calls :=
  (nodup_append.mp (h.once.ids.nodup_iff.mpr nodup_range)).2.1

theorem filter_first (h : KeyUnique OvsdbMethodCall.id (call :: calls)) :
    (call :: calls).filter (·.id ≠ call.id) = calls := by
  rw [filter_cons_of_neg (by simp), filter_eq_self]
  intro other hother
  simpa using (unique_cons.mp h).1 other hother

theorem filter_last (h : KeyUnique OvsdbMethodCall.id (calls ++ [call])) :
    (calls ++ [call]).filter (·.id ≠ call.id) = calls := by
  have hsame : [call].filter (·.id ≠ call.id) = [] := by simp
  rw [filter_append, hsame, append_nil, filter_eq_self]
  intro other hother
  have hdisjoint := (nodup_append.mp (by simpa [KeyUnique] using h)).2.2
  simpa using hdisjoint other.id (mem_map_of_mem hother) call.id (by simp)

/-- The first call with its response, or the last one where the connection is closed. -/
inductive Completes (s : OvsdbCalls) (call : OvsdbMethodCall) (result : OvsdbCallResult) : Prop
  | first (calls : List OvsdbMethodCall) (hcalls : s.calls = call :: calls)
      (hid : ∃ id r e, call.callId = some id ∧ result = .response id r e)
  | last (calls : List OvsdbMethodCall) (hcalls : s.calls = calls ++ [call])
      (htop : ∃ frame ∈ s.stack.head?, frame.isDisconnect = true)
      (hresult : ∃ isDisposing, result = .error isDisposing)

/-- A call leaves the queue. -/
theorem unlink (h : s.Inv F) (hcompletes : Completes s call result) :
    Inv F { s with
      calls := s.calls.filter (·.id ≠ call.id)
      completed := s.completed ++ [⟨call, result⟩] } := by
  have hsub : (s.calls.filter (·.id ≠ call.id)).Sublist s.calls := filter_sublist
  have hmem : call ∈ s.calls := by
    cases hcompletes with
    | first calls hcalls => simp [hcalls]
    | last calls hcalls => simp [hcalls]
  have hnext (hneeds : s.NeedsMonitor) (hmonitor : s.MonitorNext) :
      MonitorNext { s with
        calls := s.calls.filter (·.id ≠ call.id)
        completed := s.completed ++ [⟨call, result⟩] } := by
    cases hcompletes with
    | first calls hcalls hid =>
      obtain ⟨id, _, _, hid, _⟩ := hid
      rcases hneeds with hc | ⟨c, hc, hempty⟩
      · have hnone := h.queue.unsent (h.queue.connecting hc).1 call hmem
        simp [hid] at hnone
      · have hsent := h.queue.sent c hc call hmem (by simp [hid])
        simp [hempty] at hsent
    | last calls hcalls htop =>
      have hfilter := filter_last (hcalls ▸ h.unique)
      rw [← hcalls] at hfilter
      cases calls with
      | nil => exact .inr ⟨hfilter, htop⟩
      | cons first rest =>
        rcases hmonitor with ⟨call', hcall', hm⟩ | ⟨hempty, _⟩
        · refine .inl ⟨call', ?_, hm⟩
          change call' ∈ (s.calls.filter (·.id ≠ call.id)).head?
          rw [hfilter]
          simpa [hcalls] using hcall'
        · simp [hcalls] at hempty
  refine ⟨⟨?_, ?_⟩, { h.queue with
    callback := ?_, tail := ?_, unsent := ?_, sent := ?_, idle := ?_, connecting := ?_, first := ?_ },
    { h.monitors with tail := ?_, sent := ?_ }, { h.cleanup with pending := ?_ }, { h.input with },
    { h.disposing with done := ?_ }, h.notCrashed⟩
  · have hperm := ((perm_cons_eraseKey h.unique hmem).map OvsdbMethodCall.id).append_left
      (s.completed.map (·.call.id))
    refine List.Perm.trans ?_ (hperm.symm.trans h.once.ids)
    simp [eraseKey]
  · intro x hx id r e hresult
    rcases mem_append.mp hx with hx | hx
    · exact h.once.answered x hx id r e hresult
    · obtain rfl := mem_singleton.mp hx
      cases hcompletes with
      | first calls hcalls hid =>
        obtain ⟨id', r', e', hid, hresult'⟩ := hid
        rw [show result = _ from hresult] at hresult'
        cases hresult'
        exact hid
      | last calls hcalls htop hresult' =>
        obtain ⟨d, hresult'⟩ := hresult'
        rw [show result = _ from hresult] at hresult'
        cases hresult'
  · exact fun call' hcall' => h.queue.callback call' (hsub.subset hcall')
  · exact fun call' hcall' => h.queue.tail call' (hsub.tail.subset hcall')
  · exact fun hc call' hcall' => h.queue.unsent hc call' (hsub.subset hcall')
  · exact fun c hc call' hcall' => h.queue.sent c hc call' (hsub.subset hcall')
  · intro hc hconnecting
    rw [h.queue.idle hc hconnecting]
    rfl
  · intro hc
    obtain ⟨hnone, hmonitor⟩ := h.queue.connecting hc
    exact ⟨hnone, hnext (.inl hc) hmonitor⟩
  · intro c hc
    exact (h.queue.first c hc).imp_left fun hf => ⟨hf.1, hnext (.inr ⟨c, hc, hf.1⟩) hf.2⟩
  · exact fun call' hcall' => h.monitors.tail call' (hsub.tail.subset hcall')
  · intro c hc hsent call' hcall' hm
    change call' ∈ (s.calls.filter (·.id ≠ call.id)).head? at hcall'
    cases hcompletes with
    | first calls hcalls =>
      have hfilter := filter_first (hcalls ▸ h.unique)
      rw [← hcalls] at hfilter
      rw [hfilter] at hcall'
      have hfalse := h.monitors.tail call' (by simpa [hcalls] using mem_of_mem_head? hcall')
      simp [hfalse] at hm
    | last calls hcalls =>
      have hfilter := filter_last (hcalls ▸ h.unique)
      rw [← hcalls] at hfilter
      rw [hfilter] at hcall'
      apply h.monitors.sent c hc hsent call' _ hm
      cases calls with
      | nil => simp at hcall'
      | cons first rest => simpa [hcalls] using hcall'
  · exact (hsub.countP_le).trans h.cleanup.pending
  · intro hdisposed hnil
    rw [h.disposing.done hdisposed hnil]
    rfl

theorem monitorNext (h : s.Inv F) (hneeds : s.NeedsMonitor) : s.MonitorNext := by
  rcases hneeds with hc | ⟨c, hc, hempty⟩
  · exact (h.queue.connecting hc).2
  · rcases h.queue.first c hc with hfirst | ⟨call, hcall, _⟩
    · exact hfirst.2
    · simp [hempty] at hcall

theorem headMonitor (h : s.Inv F) (htop : ∀ frame ∈ s.stack.head?, frame.isDisconnect = false)
    (hneeds : s.NeedsMonitor) : ∃ call ∈ s.calls.head?, call.isMonitor = true := by
  rcases h.monitorNext hneeds with hcall | ⟨_, frame, hframe, hdisconnect⟩
  · exact hcall
  · simp [htop frame hframe] at hdisconnect

theorem not_needsMonitor (h : s.Inv F) (hmem : call ∈ s.calls) (hid : call.callId.isSome)
    : ¬ s.NeedsMonitor := by
  rintro (hc | ⟨c, hc, hempty⟩)
  · have hnone := h.queue.unsent (h.queue.connecting hc).1 call hmem
    simp [hnone] at hid
  · have hsent := h.queue.sent c hc call hmem hid
    simp [hempty] at hsent

theorem monitorBridgesCb (h : s.Inv F)
    (hneeds : (∃ id r e, result = .response id r e) → ¬ s.NeedsMonitor)
    (htop : ∀ frame ∈ s.stack.head?, frame.isCleanup = false)
    (hstack : s.disposed = true → s.stack ≠ []) : (s.monitorBridgesCb result).Inv F := by
  have hdisconnect : (s.disconnect false false).Inv F :=
    h.disconnect (fun hc => by cases hc) (fun _ => htop) hstack
  unfold OvsdbCalls.monitorBridgesCb
  split
  · split_ifs
    · exact h
    · exact hdisconnect
  · rename_i id r error
    split_ifs
    · exact hdisconnect
    · have hsent : ¬ s.NeedsMonitor := hneeds ⟨id, r, error, rfl⟩
      have hpush := (h.tables (s.tables.gotUpdate (r.getD .null))).push .monitorBridges rfl htop
        (fun hn => absurd hn hsent) hstack
      apply hpush.push .user rfl
      · intro frame hframe
        obtain rfl : OvsdbFrame.monitorBridges = frame := Option.some.inj hframe
        rfl
      · intro hn
        exact absurd hn hsent
      · intro _ hnil
        cases hnil

/-- A call is completed, and its callback is called. -/
theorem callComplete (h : s.Inv F) (hcompletes : Completes s call result)
    (htop : ∀ frame ∈ s.stack.head?, frame.isCleanup = false)
    (hstack : s.disposed = true → s.stack ≠ []) : (s.callComplete call result).Inv F := by
  have hunlink := h.unlink hcompletes
  have hmem : call ∈ s.calls := by
    cases hcompletes with
    | first calls hcalls => simp [hcalls]
    | last calls hcalls => simp [hcalls]
  -- the next request is still the monitor call, or `call` was
  have hnext (hcallback : call.callback ≠ .monitorBridges) (hneeds : s.NeedsMonitor) :
      ∃ call' ∈ (s.calls.filter (·.id ≠ call.id)).head?, call'.isMonitor = true := by
    cases hcompletes with
    | first calls hcalls hid =>
      obtain ⟨id, _, _, hid, _⟩ := hid
      exact absurd hneeds (h.not_needsMonitor hmem (by simp [hid]))
    | last calls hcalls hdisconnect =>
      have hfilter := filter_last (hcalls ▸ h.unique)
      rw [← hcalls] at hfilter
      rw [hfilter]
      rcases h.monitorNext hneeds with ⟨call', hcall', hm⟩ | ⟨hempty, _⟩
      · cases calls with
        | nil =>
          obtain rfl : call = call' := by simpa [hcalls] using hcall'
          exact absurd (h.queue.callback call hmem hm) hcallback
        | cons first others => exact ⟨call', by simpa [hcalls] using hcall', hm⟩
      · simp [hempty] at hmem
  unfold OvsdbCalls.callComplete
  dsimp only
  split
  · apply hunlink.monitorBridgesCb _ htop hstack
    rintro ⟨id, r, e, rfl⟩
    cases hcompletes with
    | first calls hcalls hid =>
      obtain ⟨id, _, _, hid, _⟩ := hid
      exact h.not_needsMonitor hmem (by simp [hid])
    | last calls hcalls hdisconnect hresult =>
      obtain ⟨_, hresult⟩ := hresult
      cases hresult
  · rename_i hcallback
    exact hunlink.push .user rfl htop (fun hn => .inr (hnext (by simp [hcallback]) hn)) hstack
  · rename_i hcallback
    apply hunlink.cleanupDelIfaceCb result _ htop (hnext (by simp [hcallback])) hstack
    have hless : (s.calls.filter (·.id ≠ call.id)).countP (·.callback = .cleanupDelIface) <
        s.calls.countP (·.callback = .cleanupDelIface) := by
      have hcount := (perm_cons_eraseKey h.unique hmem).countP_eq (·.callback = .cleanupDelIface)
      rw [countP_cons_of_pos (by simpa using hcallback)] at hcount
      exact hcount ▸ Nat.lt_succ_self _
    exact hless.trans_le h.cleanup.pending
  · exact hunlink

theorem disconnectNext (h : s.Inv F) {isDisposing : Bool}
    (hstack : s.stack = .disconnect isDisposing :: rest)
    : (s.disconnectNext isDisposing).Inv F := by
  unfold OvsdbCalls.disconnectNext
  split
  · rename_i call hlast
    obtain ⟨calls, hcalls⟩ := List.getLast?_eq_some_iff.mp hlast
    apply h.callComplete (.last calls hcalls ⟨_, by rw [hstack]; rfl, rfl⟩ ⟨_, rfl⟩)
    · intro frame hframe
      obtain rfl : OvsdbFrame.disconnect isDisposing = frame := by simpa [hstack] using hframe
      rfl
    · intro _
      simp [hstack]
  · rename_i hlast
    exact h.finish hstack (List.getLast?_eq_none_iff.mp hlast)

/-! ## Messages -/

theorem gotMsg (h : s.Inv F) (msg : Json) (w : WriteOutcome)
    (hstack : s.stack = .readMsgDone :: rest)
    (hfail : isEcho msg = true → s.writeFails w = true → s.MayFail) : (s.gotMsg msg w).Inv F := by
  have htop {frame : OvsdbFrame} (hframe : frame ∈ s.stack.head?) : frame = .readMsgDone := by
    simpa [hstack, eq_comm] using hframe
  have hcleanup : ∀ frame ∈ s.stack.head?, frame.isCleanup = false := by
    intro frame hframe
    rw [htop hframe]
    rfl
  have hmonitor (hneeds : s.NeedsMonitor) : ∃ call ∈ s.calls.head?, call.isMonitor = true := by
    apply h.headMonitor _ hneeds
    intro frame hframe
    rw [htop hframe]
    rfl
  have hne : s.disposed = true → s.stack ≠ [] := by simp [hstack]
  have hdisconnect : (s.disconnect false false).Inv F :=
    h.disconnect (fun hc => by cases hc) (fun _ => hcleanup) hne
  unfold OvsdbCalls.gotMsg
  split
  · exact hdisconnect
  · exact hdisconnect
  · rename_i method params hmsg
    split_ifs with hupdate hecho
    · exact (h.tables _).push .user rfl hcleanup (fun hn => .inr (hmonitor hn)) hne
    · apply h.writeTry w _ hne
      exact hfail (by simp [isEcho, hmsg, hecho])
    · exact h
  · rename_i id result error hmsg
    split
    · exact hdisconnect
    · rename_i call calls hcalls
      split_ifs with hid
      · have hpush := h.push .gotResponse rfl hcleanup (fun hn => .inr (hmonitor hn)) hne
        apply hpush.callComplete (.first calls hcalls ⟨id, result, error, hid, rfl⟩)
        · intro frame hframe
          obtain rfl : OvsdbFrame.gotResponse = frame := Option.some.inj hframe
          rfl
        · intro _ hnil
          cases hnil
      · exact hdisconnect
  · exact h

/-! ## Functions that go on -/

section

variable (h : s.Inv F)

include h

theorem top_pop : ∀ frame ∈ s.pop.stack.head?, frame.isCleanup = false := by
  intro frame hframe
  exact h.cleanup.top frame (mem_of_mem_head? hframe)

theorem pop_ne_nil {frame : OvsdbFrame} (hstack : s.stack = frame :: rest)
    (hdisconnect : frame.isDisconnect = false) : s.pop.disposed = true → s.pop.stack ≠ [] := by
  intro hdisposed hnil
  have hbottom := h.disposing.bottom hdisposed (by simp [hstack])
  rw [hstack, show rest = [] by simpa [OvsdbCalls.pop, hstack] using hnil] at hbottom
  obtain rfl : frame = .disconnect true := by simpa using hbottom
  cases hdisconnect

theorem gotResponseDone (w : WriteOutcome) (hstack : s.stack = .gotResponse :: rest)
    (hfail : s.sendFails w = true → 0 + 1 ≤ ovsdbMaxFailures → ∀ call ∈ s.calls, call.isMonitor = false)
    : (s.pop.gotResponseDone w).Inv F := by
  have hpop := (h.pop hstack rfl rfl).numFailures 0
  unfold OvsdbCalls.gotResponseDone
  dsimp only
  split_ifs
  · exact hpop
  · apply hpop.nextCommand w _ (h.pop_ne_nil hstack rfl)
    intro hsends
    exact ⟨hfail hsends, fun _ => h.top_pop⟩

theorem readChunk (chunk : Bytes) (hstack : s.stack = .read :: rest) (hconn : s.conn.isSome)
    : (s.readChunk chunk).Inv F := by
  obtain ⟨c, hconn⟩ := Option.isSome_iff_exists.mp hconn
  have hswap := h.swap .readMsg hstack rfl (fun hc => by cases hc) (fun hc => by cases hc)
  have hchunk : s.readChunk chunk = { s.pop.push .readMsg with
      conn := some { c with received := c.received ++ chunk }, inputBuf := s.inputBuf ++ chunk } := by
    simp [OvsdbCalls.readChunk, OvsdbCalls.push, OvsdbCalls.pop, hconn]
  rw [hchunk]
  refine hswap.setConn hconn ?_ ?_ ?_
  · rfl
  · have hdecoded := h.input.decoded c hconn
    rw [Framing.decode_append c.received, Framing.decode_append s.inputBuf, hdecoded,
      append_assoc]
  · intro hparses
    cases hparses .readMsg mem_cons_self

theorem readAgain (hstack : s.stack = .read :: rest) : s.readAgain.Inv F :=
  (h.pop hstack rfl rfl).inputTimeout _

theorem readMsg (w : WriteOutcome) (hstack : s.stack = .readMsg :: rest)
    (hfail : (F.parse s.inputBuf).any (fun found => isEcho found.1) = true → s.writeFails w = true → s.numFailures + 1 ≤ ovsdbMaxFailures → ∀ call ∈ s.calls, call.isMonitor = false) :
    (s.readMsg F w).Inv F := by
  unfold OvsdbCalls.readMsg
  dsimp only
  split
  · rename_i hparse
    exact h.swap _ hstack rfl (fun hc => by cases hc) (fun _ _ => hparse)
  · rename_i msg input hparse
    change F.parse s.inputBuf = some (msg, input) at hparse
    cases hconn : s.conn with
    | none =>
      rw [h.input.empty hconn, parse_nil] at hparse
      cases hparse
    | some c =>
      have hswap := h.swap .readMsgDone hstack rfl (fun hc => by cases hc)
        (fun _ hc => by cases hc)
      have hmsg : Inv F { s.pop.push .readMsgDone with
          conn := some { c with processed := c.processed ++ [msg] }, inputBuf := input } := by
        refine hswap.setConn hconn ?_ ?_ ?_
        · rfl
        · rw [h.input.decoded c hconn, Framing.decode_of_some hparse, append_assoc]
          rfl
        · intro hparses
          cases hparses .readMsgDone mem_cons_self
      have hdone := (hmsg.inputTimeout none).gotMsg msg w rfl (by
        intro hecho hwrite
        refine ⟨hfail (by simp [hparse, hecho]) ?_, ?_⟩
        · simpa [writeFails, hconn] using hwrite
        · intro _ frame hframe
          obtain rfl : OvsdbFrame.readMsgDone = frame := Option.some.inj hframe
          rfl)
      simpa [OvsdbCalls.push, OvsdbCalls.pop, hconn] using hdone

theorem readMsgDone (hstack : s.stack = .readMsgDone :: rest) : s.readMsgDone.Inv F := by
  apply h.swap _ hstack rfl
  · intro hc
    split_ifs at hc
    · cases hc
    · cases hc
  · intro _ hparses
    split_ifs at hparses with hempty
    · exact hempty ▸ parse_nil
    · cases hparses

theorem readEnd (hstack : s.stack = .readEnd :: rest)
    (hfail : maxInput < s.inputBuf.length → s.numFailures + 1 ≤ ovsdbMaxFailures → ∀ call ∈ s.calls, call.isMonitor = false)
    : s.readEnd.Inv F := by
  have hpop := h.pop hstack rfl rfl
  unfold OvsdbCalls.readEnd
  dsimp only
  split_ifs with hempty hlong
  · exact hpop.inputTimeout none
  · exact hpop.fail ⟨hfail hlong, fun _ => h.top_pop⟩ (h.pop_ne_nil hstack rfl)
  · exact h.swap _ hstack rfl (fun hc => by cases hc) (fun hc => by cases hc)

theorem resume (w : WriteOutcome) (hreach : s.InReach F (.resume w)) : (s.resume F w).Inv F := by
  have hmonitors := hreach.monitors
  have hloop := hreach.loop
  unfold OvsdbCalls.resume
  split <;> rename_i hstack <;> try simp only [connFails, failuresBefore, hstack] at hmonitors hloop
  · exact h.pop hstack rfl rfl
  · exact h.disconnectNext hstack
  · exact h.gotResponseDone w hstack hmonitors
  · exact h.cleanupInitialInterfaces hstack
  · rename_i rest
    have hready := (h.cleanup.loop (.cleanup []) (by simp [hstack]) rfl).1
    have hpop := h.pop hstack rfl rfl
    apply hpop.cleanupCheckReady hready h.top_pop _ (h.pop_ne_nil hstack rfl)
    intro hneeds
    apply h.headMonitor _ hneeds
    intro frame hframe
    obtain rfl : OvsdbFrame.cleanup [] = frame := by simpa [hstack] using hframe
    rfl
  · rename_i ifname ifnames rest
    have hswap := h.swap (.cleanup ifnames) hstack rfl
      (fun _ => h.cleanup.loop (.cleanup (ifname :: ifnames)) (by simp [hstack]) rfl)
      (fun hc => by cases hc)
    apply hswap.cleanupNext rfl ifname w
    intro hsends
    refine ⟨hmonitors hsends, fun hretry => ?_⟩
    have hframe := hloop hsends hretry (.cleanup (ifname :: ifnames)) rfl
    cases hframe
  · exact h.readMsg w hstack (fun hecho hwrite => hmonitors (by simp [hecho, hwrite]))
  · exact h.readMsgDone hstack
  · exact h.readEnd hstack (fun hlong => hmonitors (by simpa using hlong))
  · apply (h.pop hstack rfl rfl).nextCommand w _ (h.pop_ne_nil hstack rfl)
    intro hsends
    exact ⟨hmonitors hsends, fun _ => h.top_pop⟩
  · exact h
  · exact h

end

/-! ## Events -/

theorem userCall (h : s.Inv F) (w : WriteOutcome) (call : OvsdbUserCall)
    (htop : ∀ frame ∈ s.stack.head?, frame.isDisconnect = false)
    (hfail : s.sendFails w = true → s.MayFail) (hstack : s.disposed = true → s.stack ≠ []) :
    (s.userCall w call).Inv F := by
  have hpending {callback : OvsdbMethodCallback} (hcallback : callback ≠ .cleanupDelIface) :
      s.calls.countP (·.callback = .cleanupDelIface) +
        (if callback = .cleanupDelIface then 1 else 0) ≤ s.cleanupNumPendingDel := by
    rw [if_neg hcallback]
    exact h.cleanup.pending
  cases call with
  | addInterface => exact h.callMethod (by decide) htop (hpending (by decide)) w hfail hstack
  | delInterface => exact h.callMethod (by decide) htop (hpending (by decide)) w hfail hstack
  | setInterfaceMtu => exact h.callMethod (by decide) htop (hpending (by decide)) w hfail hstack
  | setReapply => exact h.callMethod (by decide) htop (hpending (by decide)) w hfail hstack

theorem connectCompleteWithFd (h : s.Inv F) (hconnecting : s.connecting = true)
    (hstack : s.stack = []) (hdisposed : s.disposed = false) : s.connectCompleteWithFd.Inv F := by
  obtain ⟨hconn, hnext⟩ := h.queue.connecting hconnecting
  have hconnected : Inv F { s with connecting := false, conn := some ⟨false, [], [], []⟩ } := by
    refine ⟨{ h.once with }, { h.queue with
      unsent := ?_, sent := ?_, idle := ?_, connecting := ?_, first := ?_ }, { h.monitors with
      one := ?_, sent := ?_ }, { h.cleanup with }, { h.input with decoded := ?_, empty := ?_ },
      { h.disposing with }, h.notCrashed⟩
    · intro hc
      cases hc
    · intro c _ call hcall hid
      have hnone := h.queue.unsent hconn call hcall
      simp [hnone] at hid
    · intro hc
      cases hc
    · intro hc
      cases hc
    · rintro _ ⟨⟩
      exact .inl ⟨rfl, hnext⟩
    · intro c hc
      rcases mem_append.mp hc with hc | hc
      · exact h.monitors.one c (mem_append_left _ hc)
      · obtain rfl := mem_singleton.mp hc
        exact Nat.zero_le _
    · rintro _ ⟨⟩ hsent
      exact absurd rfl hsent
    · rintro _ ⟨⟩
      change F.decode [] = ([] ++ (F.decode s.inputBuf).1, (F.decode s.inputBuf).2)
      rw [h.input.empty hconn, nil_append]
    · intro hc
      cases hc
  have hmonitor := h.headMonitor (by simp [hstack]) (.inl hconnecting)
  have hpush := hconnected.push .connectComplete rfl (by simp [hstack]) (fun _ => .inr hmonitor)
    (by simp [hdisposed])
  apply hpush.push .read rfl
  · intro frame hframe
    obtain rfl : OvsdbFrame.connectComplete = frame := Option.some.inj hframe
    rfl
  · exact fun _ => .inr hmonitor
  · intro _ hnil
    cases hnil

theorem dispose (h : s.Inv F) (hstack : s.stack = []) (hdisposed : s.disposed = false) :
    ({ s with disposed := true }.disconnect false true).Inv F := by
  unfold OvsdbCalls.disconnect
  dsimp only
  split_ifs with hidle hretry
  · have hempty := h.queue.idle (by simpa using hidle.1) hidle.2
    exact ⟨{ h.once with }, { h.queue with }, { h.monitors with }, { h.cleanup with },
      { h.input with }, ⟨fun _ hne => absurd hstack hne, fun _ _ => hempty⟩, h.notCrashed⟩
  · exact hretry.elim
  · have hpush := h.push (.disconnect true) rfl (by simp [hstack]) (fun _ => .inl rfl)
      (by simp [hdisposed])
    refine ⟨{ hpush.once with }, { hpush.queue with }, { hpush.monitors with },
      { hpush.cleanup with }, { hpush.input with }, ⟨fun _ _ => ?_, fun _ hnil => ?_⟩,
      hpush.notCrashed⟩
    · change (OvsdbFrame.disconnect true :: s.stack).getLast? = _
      rw [hstack]
      rfl
    · cases hnil

theorem mainLoop (h : s.Inv F) (e : OvsdbEvent) (hstack : s.stack = []) (hdisposed : s.disposed = false)
    (hreach : s.InReach F e) : (s.mainLoop e).Inv F := by
  have htop {p : OvsdbFrame → Bool} : ∀ frame ∈ s.stack.head?, p frame = false := by simp [hstack]
  have hne : s.disposed = true → s.stack ≠ [] := by simp [hdisposed]
  have hnext (hneeds : s.NeedsMonitor) : ∃ call ∈ s.calls.head?, call.isMonitor = true :=
    h.headMonitor htop hneeds
  have hmonitors := hreach.monitors
  cases e with
  | call => exact h
  | resume => exact h
  | readChunk => exact h
  | readAgain => exact h
  | readFailed => exact h
  | connected =>
    unfold OvsdbCalls.mainLoop
    dsimp only
    split_ifs with hconnecting
    · exact h.connectCompleteWithFd hconnecting hstack hdisposed
    · exact h
  | connectFailed =>
    unfold OvsdbCalls.mainLoop
    dsimp only
    split_ifs
    · exact h.disconnect (fun hc => by cases hc) (fun _ => htop) hne
    · exact h
  | readable =>
    unfold OvsdbCalls.mainLoop
    dsimp only
    split_ifs
    · exact h.push .read rfl htop (fun hn => .inr (hnext hn)) hne
    · exact h
  | writable w =>
    unfold OvsdbCalls.mainLoop
    dsimp only
    split_ifs with hsource
    · apply h.write w _ hne
      intro hw
      refine ⟨fun hretry => hmonitors (by simp [connFails, hw, hstack, hsource]) ?_, fun _ => htop⟩
      simpa [failuresBefore, hstack] using hretry
    · exact h
  | inputTimeout =>
    unfold OvsdbCalls.mainLoop
    rw [hreach.timeout rfl hstack]
    exact h
  | links links removed =>
    have hlinks := h.links links
    unfold OvsdbCalls.mainLoop
    dsimp only
    split_ifs with hremoved
    · exact hlinks.cleanupCheckReady (h.cleanup.timeout hremoved.2).1 htop hnext hne
    · exact hlinks
  | cleanupTimeout =>
    unfold OvsdbCalls.mainLoop
    dsimp only
    split_ifs with htimeout
    · obtain ⟨hready, hpending, -⟩ := h.cleanup.timeout htimeout
      exact h.cleanupEmitReady hready hpending htop hnext hne
    · exact h
  | dispose => exact h.dispose hstack hdisposed

theorem step (h : s.Inv F) (e : OvsdbEvent) (hreach : s.InReach F e) : (s.step F e).Inv F := by
  unfold OvsdbCalls.step
  rw [if_neg (by simp [h.notCrashed])]
  split
  · rename_i rest call w hstack
    apply h.userCall w call
    · simp [hstack, OvsdbFrame.isDisconnect]
    · intro hsends
      have hfails : s.connFails F (.call call w) = true := by simp [connFails, hstack, hsends]
      refine ⟨fun hretry => hreach.monitors hfails ?_, fun hretry => hreach.loop hfails ?_⟩
      · simpa [failuresBefore, hstack] using hretry
      · simpa [failuresBefore, hstack] using hretry
    · simp [hstack]
  · rename_i call w hstack
    split_ifs with hdisposed
    · exact h
    · apply h.userCall w call
      · simp [hstack]
      · intro hsends
        have hfails : s.connFails F (.call call w) = true := by simp [connFails, hstack, hsends]
        refine ⟨fun hretry => hreach.monitors hfails ?_, fun hretry => hreach.loop hfails ?_⟩
        · simpa [failuresBefore, hstack] using hretry
        · simpa [failuresBefore, hstack] using hretry
      · exact fun hc => absurd hc hdisposed
  · exact h.resume _ hreach
  · rename_i rest chunk hstack
    split_ifs with hnone
    · exact h
    · apply h.readChunk chunk hstack
      simpa [Option.isSome_iff_ne_none] using (not_or.mp hnone).2
  · rename_i hstack
    exact h.readAgain hstack
  · rename_i rest hstack
    apply (h.pop hstack rfl rfl).fail ⟨fun hretry => ?_, fun _ => h.top_pop⟩ (h.pop_ne_nil hstack rfl)
    apply hreach.monitors
    · simp [connFails, hstack]
    · simpa [failuresBefore, hstack, OvsdbCalls.pop] using hretry
  · rename_i hstack _ _
    split_ifs with hdisposed
    · exact h
    · exact h.mainLoop _ hstack (by simpa using hdisposed) hreach
  · exact h

end OvsdbCalls.Inv

end NetworkManager.Core
