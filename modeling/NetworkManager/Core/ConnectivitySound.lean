import NetworkManager.Core.Connectivity

/-!
# A connectivity check has one result

What is delivered is a stream of header lines and bytes. The callbacks decide at the first item that
settles the check, however the bytes are split into chunks.
-/

namespace NetworkManager.Core

open Lib List

/-- An item of what is delivered, where a chunk of the body is split into its bytes. -/
inductive StreamItem
  | header (line : Bytes)
  | byte (b : UInt8)
  deriving DecidableEq

namespace StreamItem

def byte? : StreamItem → Option UInt8
  | header _ => none
  | byte b => some b

end StreamItem

def Delivery.items : Delivery → List StreamItem
  | header line => [.header line]
  | body chunk => chunk.map .byte

def streamOf (deliveries : List Delivery) : List StreamItem := deliveries.flatMap Delivery.items

def bodyOf (stream : List StreamItem) : Bytes := stream.filterMap StreamItem.byte?

/-- The status header was received. -/
def StatusReceived (stream : List StreamItem) : Prop :=
  ∃ line, .header line ∈ stream ∧ Delivery.isStatusOnline line

/-- The status header or the expected response was received. -/
def Accepted (response : Bytes) (stream : List StreamItem) : Prop :=
  StatusReceived stream ∨ response ≠ [] ∧ response <+: bodyOf stream

/-- Nothing in the stream settles the check. -/
structure Undecided (response : Bytes) (stream : List StreamItem) : Prop where
  noStatus : ¬ StatusReceived stream
  short : response ≠ [] → bodyOf stream <+: response ∧ (bodyOf stream).length < response.length
  little : response = [] → (bodyOf stream).length ≤ 100 * 1024

/-! ## Streams -/

section Stream

variable {response : Bytes} {stream stream' : List StreamItem} {received : List Delivery}
  {d : Delivery} {line chunk : Bytes}

@[simp] theorem streamOf_nil : streamOf [] = [] := rfl

@[simp] theorem streamOf_append {received' : List Delivery} :
    streamOf (received ++ received') = streamOf received ++ streamOf received' :=
  flatMap_append

@[simp] theorem streamOf_singleton : streamOf [d] = d.items := by simp [streamOf]

@[simp] theorem bodyOf_nil : bodyOf [] = [] := rfl

@[simp] theorem bodyOf_append : bodyOf (stream ++ stream') = bodyOf stream ++ bodyOf stream' :=
  filterMap_append

@[simp] theorem bodyOf_header : bodyOf [.header line] = [] := rfl

@[simp] theorem bodyOf_bytes : bodyOf (chunk.map .byte) = chunk := by
  induction chunk with
  | nil => rfl
  | cons b chunk ih => exact congrArg (b :: ·) ih

theorem bodyOf_mono (h : stream <+: stream') : bodyOf stream <+: bodyOf stream' := by
  obtain ⟨rest, rfl⟩ := h
  rw [bodyOf_append]
  exact prefix_append _ _

@[simp] theorem not_statusReceived_nil : ¬ StatusReceived [] := by simp [StatusReceived]

theorem statusReceived_append :
    StatusReceived (stream ++ stream') ↔ StatusReceived stream ∨ StatusReceived stream' := by
  simp only [StatusReceived, mem_append, or_and_right, exists_or]

@[simp] theorem statusReceived_header :
    StatusReceived [.header line] ↔ Delivery.isStatusOnline line := by simp [StatusReceived]

@[simp] theorem not_statusReceived_bytes :
    ¬ StatusReceived (chunk.map .byte) := by simp [StatusReceived]

theorem StatusReceived.mono (h : StatusReceived stream) (hp : stream <+: stream') :
    StatusReceived stream' := by
  obtain ⟨line, hline, honline⟩ := h
  exact ⟨line, hp.subset hline, honline⟩

theorem Accepted.mono (h : Accepted response stream) (hp : stream <+: stream') :
    Accepted response stream' := by
  rcases h with h | ⟨hne, h⟩
  · exact .inl (h.mono hp)
  · exact .inr ⟨hne, h.trans (bodyOf_mono hp)⟩

theorem undecided_nil : Undecided response [] where
  noStatus := not_statusReceived_nil
  short hne := ⟨ nil_prefix, length_pos_iff.mpr hne⟩
  little _ := Nat.zero_le _

namespace Undecided

theorem mono (h : Undecided response stream') (hp : stream <+: stream') :
    Undecided response stream where
  noStatus hstatus := h.noStatus (hstatus.mono hp)
  short hne := by
    obtain ⟨hbegin, hlength⟩ := h.short hne
    have hbody := bodyOf_mono hp
    exact ⟨hbody.trans hbegin, hbody.length_le.trans_lt hlength⟩
  little he := (bodyOf_mono hp).length_le.trans (h.little he)

theorem not_accepted (h : Undecided response stream) : ¬ Accepted response stream := by
  rintro (hstatus | ⟨hne, hbegin⟩)
  · exact h.noStatus hstatus
  · have hlength := (h.short hne).2
    have hle := hbegin.length_le
    omega

end Undecided

theorem accepted_of_prefix (hpre : Undecided response (streamOf received))
    (haccepted : Accepted response (streamOf received ++ d.items))
    (hp : stream <+: streamOf received ++ d.items) (hdecided : ¬ Undecided response stream) :
    Accepted response stream := by
  by_contra hnot
  obtain ⟨rest, rfl⟩ : streamOf received <+: stream := by
    rcases prefix_or_prefix_of_prefix hp (prefix_append _ _) with h | h
    · exact absurd (hpre.mono h) hdecided
    · exact h
  have hrest : rest <+: d.items := (prefix_append_right_inj _).mp hp
  cases d with
  | header line =>
    rcases prefix_cons_iff.mp hrest with rfl | ⟨_, rfl, hnil⟩
    · exact hdecided (by simpa using hpre)
    · rw [prefix_nil.mp hnil] at hnot
      exact hnot haccepted
  | body chunk =>
    have hnoStatus : ¬ StatusReceived (streamOf received ++ Delivery.items (.body chunk)) := by
      simp [statusReceived_append, hpre.noStatus, Delivery.items]
    obtain ⟨hne, hresponse⟩ := haccepted.resolve_left hnoStatus
    have hshort : ¬ response <+: bodyOf (streamOf received ++ rest) :=
      fun h => hnot (.inr ⟨hne, h⟩)
    have hbody : bodyOf (streamOf received ++ rest) <+: response :=
      ( prefix_or_prefix_of_prefix (bodyOf_mono hp) hresponse).resolve_right hshort
    refine hdecided ⟨fun h => hnoStatus (h.mono hp), fun _ => ⟨hbody, ?_⟩,
      fun he => absurd he hne⟩
    apply lt_of_le_of_ne hbody.length_le
    intro hlength
    rw [hbody.eq_of_length hlength] at hshort
    exact hshort prefix_rfl

end Stream

theorem take_min_eq_iff {text text' : Bytes} :
    text.take (min text'.length text.length) = text'.take (min text'.length text.length) ↔
      text' <+: text ∨ text <+: text' := by
  rcases le_total text'.length text.length with hle | hle
  · rw [min_eq_left hle, take_length]
    constructor
    · exact fun h => .inl (prefix_iff_eq_take.mpr h.symm)
    · rintro (h | h)
      · exact (prefix_iff_eq_take.mp h).symm
      · rw [h.eq_of_length_le hle, take_length]
  · rw [min_eq_right hle, take_length]
    constructor
    · exact fun h => .inr (prefix_iff_eq_take.mpr h)
    · rintro (h | h)
      · rw [h.eq_of_length_le hle, take_length]
      · exact prefix_iff_eq_take.mp h

theorem compare_iff {response body : Bytes} (h : body <+: response) (chunk : Bytes) :
    (response.drop body.length).take (min chunk.length (response.length - body.length)) =
        chunk.take (min chunk.length (response.length - body.length)) ↔
      body ++ chunk <+: response ∨ response <+: body ++ chunk := by
  obtain ⟨rest, rfl⟩ := h
  have hlength : (body ++ rest).length - body.length = rest.length := by simp
  rw [hlength, drop_left, take_min_eq_iff, prefix_append_right_inj,
    prefix_append_right_inj]

/-! ## Handles -/

namespace CheckHandle

def stream (h : CheckHandle) : List StreamItem := streamOf h.received

/-- A check that is not settled. -/
structure Waiting (h : CheckHandle) : Prop where
  assertionOk : h.assertionFailed = false
  notStopped : h.stopped = false
  notDone : h.done = none
  undecided : Undecided h.response h.stream
  counted : h.responseGoodCnt = (bodyOf h.stream).length

/-- A check that a callback settled with the last delivery. -/
structure SettledByCallback (h : CheckHandle) : Prop where
  stopped : h.stopped = true
  last : ∃ received d, h.received = received ++ [d] ∧ Undecided h.response (streamOf received)
  decided : ¬ Undecided h.response h.stream
  full : h.completedState = .full ↔ Accepted h.response h.stream
  state : h.completedState = .full ∨ h.completedState = .portal

/-- The state of a check that nothing had settled before the transfer was done. -/
def doneState (response body : Bytes) (done : TransferDone) : NMConnectivityState :=
  if ¬ done.ok then .limited
  else if response = [] ∧ (done.responseCode = some 204 ∨ done.responseCode = some 200 ∧ body = [])
    then .full
  else .portal

/-- A check that was settled by the end of the transfer. -/
structure SettledByDone (h : CheckHandle) : Prop where
  notStopped : h.stopped = false
  undecided : Undecided h.response h.stream
  state : ∃ done, h.done = some done ∧
    h.completedState = doneState h.response (bodyOf h.stream) done

/-- A check whose result waits for its callback. -/
structure Settled (h : CheckHandle) : Prop where
  assertionOk : h.assertionFailed = false
  how : h.SettledByCallback ∨ h.SettledByDone

/-- What a delivery makes of a check that waits. -/
inductive Delivered (h : CheckHandle) (d : Delivery) (h' : CheckHandle) (taken : ℕ) : Prop
  | waits (state : h'.completedState = .unknown) (counted : h'.responseGoodCnt =
      (bodyOf (h.stream ++ d.items)).length) (undecided : Undecided h.response (h.stream ++ d.items))
      (all : taken = d.length)
  | accepted (state : h'.completedState = .full) (accepted : Accepted h.response (h.stream ++ d.items))
      (notAll : taken ≠ d.length)
  | rejected (state : h'.completedState = .portal)
      (notAccepted : ¬ Accepted h.response (h.stream ++ d.items))
      (decided : ¬ Undecided h.response (h.stream ++ d.items)) (notAll : taken ≠ d.length)

/-- What the callbacks leave alone. -/
structure Kept (h h' : CheckHandle) : Prop where
  id : h'.id = h.id
  response : h'.response = h.response
  phase : h'.phase = h.phase
  received : h'.received = h.received
  stopped : h'.stopped = h.stopped
  done : h'.done = h.done
  assertionFailed : h'.assertionFailed = h.assertionFailed

end CheckHandle

namespace CheckHandle.Waiting

variable {h : CheckHandle}

section

variable (hw : h.Waiting) (hstate : h.completedState = .unknown)

include hw hstate

theorem header (line : Bytes) :
    h.Kept (h.easyHeaderCb line).1 ∧
      h.Delivered (.header line) (h.easyHeaderCb line).1 (h.easyHeaderCb line).2 := by
  unfold easyHeaderCb
  rw [if_neg (by simp [hstate])]
  split_ifs with honline
  · refine ⟨⟨rfl, rfl, rfl, rfl, rfl, rfl, rfl⟩, .accepted rfl ?_ ?_⟩
    · exact .inl (statusReceived_append.mpr (.inr (statusReceived_header.mpr honline)))
    · have hlength : headerStatusOnline.length ≤ line.length := by
        simp only [Delivery.isStatusOnline, decide_eq_true_eq] at honline
        exact honline.1
      have hpos : 0 < headerStatusOnline.length := by decide
      simp only [Delivery.length]
      omega
  · refine ⟨⟨rfl, rfl, rfl, rfl, rfl, rfl, rfl⟩, .waits hstate ?_ ?_ rfl⟩
    · simpa [Delivery.items] using hw.counted
    · refine ⟨?_, ?_, ?_⟩
      · simp [statusReceived_append, Delivery.items, honline, hw.undecided.noStatus]
      · simpa [Delivery.items] using hw.undecided.short
      · simpa [Delivery.items] using hw.undecided.little

theorem body_empty (hresponse : h.response.val = []) (chunk : Bytes) (hchunk : chunk.length ≠ 0) :
    h.Kept (h.easyWriteCb chunk).1 ∧
      h.Delivered (.body chunk) (h.easyWriteCb chunk).1 (h.easyWriteCb chunk).2 := by
  unfold easyWriteCb
  rw [if_neg (by simp [hstate]), if_neg hchunk, if_pos hresponse]
  have hlength : (bodyOf (h.stream ++ Delivery.items (.body chunk))).length =
      h.responseGoodCnt + chunk.length := by simp [Delivery.items, hw.counted]
  have hnoStatus : ¬ StatusReceived (h.stream ++ Delivery.items (.body chunk)) := by
    simp [statusReceived_append, Delivery.items, hw.undecided.noStatus]
  dsimp only
  split_ifs with hmuch
  · refine ⟨⟨rfl, rfl, rfl, rfl, rfl, rfl, rfl⟩, .rejected rfl ?_ ?_ hchunk.symm⟩
    · rintro (hstatus | ⟨hne, _⟩)
      · exact hnoStatus hstatus
      · exact hne hresponse
    · intro hundecided
      have hlittle := hundecided.little hresponse
      omega
  · refine ⟨⟨rfl, rfl, rfl, rfl, rfl, rfl, rfl⟩, .waits hstate hlength.symm ?_ rfl⟩
    exact ⟨hnoStatus, fun hne => absurd hresponse hne, fun _ => by omega⟩

theorem body_expected (hresponse : h.response.val ≠ []) (chunk : Bytes) (hchunk : chunk.length ≠ 0) :
    h.Kept (h.easyWriteCb chunk).1 ∧
      h.Delivered (.body chunk) (h.easyWriteCb chunk).1 (h.easyWriteCb chunk).2 := by
  obtain ⟨hbegin, hshort⟩ := hw.undecided.short hresponse
  rw [← hw.counted] at hshort
  have hbody : bodyOf (h.stream ++ Delivery.items (.body chunk)) = bodyOf h.stream ++ chunk := by
    simp [Delivery.items]
  have hlength : (bodyOf (h.stream ++ Delivery.items (.body chunk))).length =
      h.responseGoodCnt + chunk.length := by simp [hbody, hw.counted]
  have hnoStatus : ¬ StatusReceived (h.stream ++ Delivery.items (.body chunk)) := by
    simp [statusReceived_append, Delivery.items, hw.undecided.noStatus]
  have hcompare := compare_iff hbegin chunk
  rw [← hw.counted, ← hbody] at hcompare
  have hkept (h' : CheckHandle) (heq : h' = { h with
      assertionFailed := h.assertionFailed || ¬ h.responseGoodCnt < h.response.val.length
      responseGoodCnt := h'.responseGoodCnt
      completedState := h'.completedState }) : h.Kept h' := by
    rw [heq]
    exact ⟨rfl, rfl, rfl, rfl, rfl, rfl, by simp [hshort]⟩
  unfold easyWriteCb
  rw [if_neg (by simp [hstate]), if_neg hchunk, if_neg hresponse]
  dsimp only
  split_ifs with hdiffer henough
  · refine ⟨hkept _ rfl, .rejected rfl ?_ ?_ hchunk.symm⟩
    · rintro (hstatus | ⟨_, hexpected⟩)
      · exact hnoStatus hstatus
      · exact hdiffer (hcompare.mpr (.inr hexpected))
    · intro hundecided
      exact hdiffer (hcompare.mpr (.inl (hundecided.short hresponse).1))
  · refine ⟨hkept _ rfl, .accepted rfl (.inr ⟨hresponse, ?_⟩) hchunk.symm⟩
    rcases hcompare.mp (not_not.mp hdiffer) with hle | hge
    · have heq := hle.eq_of_length_le (by omega)
      exact heq ▸ prefix_rfl
    · exact hge
  · refine ⟨hkept _ rfl, .waits hstate hlength.symm ?_ rfl⟩
    refine ⟨hnoStatus, fun _ => ⟨?_, by omega⟩, fun he => absurd he hresponse⟩
    rcases hcompare.mp (not_not.mp hdiffer) with hle | hge
    · exact hle
    · have hle := hge.length_le
      omega

theorem callback (d : Delivery) :
    h.Kept (h.callback d).1 ∧ h.Delivered d (h.callback d).1 (h.callback d).2 := by
  cases d with
  | header line => exact hw.header hstate line
  | body chunk =>
    by_cases hchunk : chunk.length = 0
    · rw [length_eq_zero_iff] at hchunk
      subst hchunk
      have heq : h.easyWriteCb [] = (h, 0) := by simp [easyWriteCb, hstate]
      refine ⟨⟨?_, ?_, ?_, ?_, ?_, ?_, ?_⟩, .waits ?_ ?_ ?_ ?_⟩ <;>
        simp [CheckHandle.callback, heq, hstate, Delivery.items, hw.counted, hw.undecided,
          Delivery.length]
    · by_cases hresponse : h.response.val = []
      · exact hw.body_empty hstate hresponse chunk hchunk
      · exact hw.body_expected hstate hresponse chunk hchunk

/-- The deliveries up to the one that settles the check. -/
theorem deliver (deliveries : List Delivery) :
    let h' := h.deliver deliveries
    (h'.id = h.id ∧ h'.response = h.response ∧ h'.phase = h.phase) ∧ h'.assertionFailed = false ∧
      (h'.completedState = .unknown ∧ h'.Waiting ∨ h'.SettledByCallback) := by
  induction deliveries generalizing h with
  | nil => exact ⟨⟨rfl, rfl, rfl⟩, hw.assertionOk, .inl ⟨hstate, hw⟩⟩
  | cons d deliveries ih =>
    obtain ⟨hkept, hdelivered⟩ := hw.callback hstate d
    rw [CheckHandle.deliver]
    generalize h.callback d = result at hkept hdelivered
    obtain ⟨h', taken⟩ := result
    dsimp only at hkept hdelivered ⊢
    have hstream : streamOf (h.received ++ [d]) = h.stream ++ d.items := by
      simp [CheckHandle.stream]
    have hlast (hresponse : h'.response = h.response) : ∃ received d', h.received ++ [d] =
        received ++ [d'] ∧ Undecided h'.response (streamOf received) := by
      rw [hresponse]
      exact ⟨h.received, d, rfl, hw.undecided⟩
    cases hdelivered with
    | waits hunknown hcounted hundecided hall =>
      rw [if_pos hall]
      have hwaits : CheckHandle.Waiting { h' with received := h.received ++ [d] } := by
        refine ⟨?_, ?_, ?_, ?_, ?_⟩
        · exact hkept.assertionFailed.trans hw.assertionOk
        · exact hkept.stopped.trans hw.notStopped
        · exact hkept.done.trans hw.notDone
        · simpa [CheckHandle.stream, hkept.response] using hundecided
        · simpa [CheckHandle.stream] using hcounted
      obtain ⟨⟨hid, hresponse, hphase⟩, hrest⟩ := ih hwaits hunknown
      exact ⟨⟨hid.trans hkept.id, hresponse.trans hkept.response, hphase.trans hkept.phase⟩, hrest⟩
    | accepted hfull haccepted hnotAll =>
      rw [if_neg hnotAll]
      refine ⟨⟨hkept.id, hkept.response, hkept.phase⟩, hkept.assertionFailed.trans hw.assertionOk,
        .inr ⟨rfl, hlast hkept.response, ?_, ?_, .inl hfull⟩⟩
      · change ¬ Undecided h'.response (streamOf (h.received ++ [d]))
        rw [hstream, hkept.response]
        exact fun hundecided => hundecided.not_accepted haccepted
      · change h'.completedState = .full ↔ Accepted h'.response (streamOf (h.received ++ [d]))
        rw [hstream, hkept.response]
        exact iff_of_true hfull haccepted
    | rejected hportal hnotAccepted hdecided hnotAll =>
      rw [if_neg hnotAll]
      refine ⟨⟨hkept.id, hkept.response, hkept.phase⟩, hkept.assertionFailed.trans hw.assertionOk,
        .inr ⟨rfl, hlast hkept.response, ?_, ?_, .inr hportal⟩⟩
      · change ¬ Undecided h'.response (streamOf (h.received ++ [d]))
        rw [hstream, hkept.response]
        exact hdecided
      · change h'.completedState = .full ↔ Accepted h'.response (streamOf (h.received ++ [d]))
        rw [hstream, hkept.response, hportal]
        exact iff_of_false (by decide) hnotAccepted

end

end CheckHandle.Waiting

variable {h' : CheckHandle}

namespace CheckHandle

variable {h : CheckHandle} {done : TransferDone} {stream : List StreamItem}

theorem Waiting.transferDone (hw : h.Waiting) (hstate : h.completedState = .unknown)
    (done : TransferDone) : (h.transferDone done).SettledByDone := by
  have hempty : h.responseGoodCnt = 0 ↔ bodyOf h.stream = [] := by
    rw [hw.counted, length_eq_zero_iff]
  unfold CheckHandle.transferDone
  dsimp only
  rw [if_neg (by simp [hstate])]
  split_ifs with hok hgood
  · refine ⟨hw.notStopped, hw.undecided, done, rfl, ?_⟩
    change NMConnectivityState.full = doneState h.response (bodyOf h.stream) done
    rw [hempty] at hgood
    rw [doneState, if_neg (not_not.mpr hok), if_pos hgood]
  · refine ⟨hw.notStopped, hw.undecided, done, rfl, ?_⟩
    change NMConnectivityState.portal = doneState h.response (bodyOf h.stream) done
    rw [hempty] at hgood
    rw [doneState, if_neg (not_not.mpr hok), if_neg hgood]
  · refine ⟨hw.notStopped, hw.undecided, done, rfl, ?_⟩
    exact (if_pos hok).symm

theorem SettledByCallback.transferDone (hs : h.SettledByCallback) (done : TransferDone) :
    h.transferDone done = { h with done := some done } := by
  have hstate : h.completedState ≠ .unknown := by
    intro hunknown
    rcases hs.state with hfull | hportal
    · rw [hunknown] at hfull
      cases hfull
    · rw [hunknown] at hportal
      cases hportal
  exact if_pos hstate

theorem transferDone_fields (done : TransferDone) :
    (h.transferDone done).id = h.id ∧ (h.transferDone done).response = h.response ∧
      (h.transferDone done).phase = h.phase ∧
        (h.transferDone done).assertionFailed = h.assertionFailed := by
  unfold CheckHandle.transferDone
  dsimp only
  split_ifs <;> exact ⟨rfl, rfl, rfl, rfl⟩

theorem SettledByDone.settled_state (hs : h.SettledByDone) : h.completedState ≠ .unknown := by
  obtain ⟨done, _, hstate⟩ := hs.state
  rw [hstate]
  unfold doneState
  split_ifs <;> decide

theorem Waiting.checkConnectivity (hw : h.Waiting) (hstate : h.completedState = .unknown)
    (deliveries : List Delivery) (done : Option TransferDone) :
    let h' := h.checkConnectivity deliveries done
    (h'.id = h.id ∧ h'.response = h.response ∧ h'.phase = h.phase) ∧
      (h'.completedState = .unknown ∧ h'.Waiting ∨ h'.completedState ≠ .unknown ∧ h'.Settled) := by
  obtain ⟨hfields, hassertion, hdelivered⟩ := hw.deliver hstate deliveries
  have hdecided (hs : (h.deliver deliveries).SettledByCallback) :
      (h.deliver deliveries).completedState ≠ .unknown := by
    intro hunknown
    simpa [hunknown] using hs.state
  cases done with
  | none =>
    refine ⟨hfields, ?_⟩
    rcases hdelivered with hwaits | hs
    · exact .inl hwaits
    · exact .inr ⟨hdecided hs, hassertion, .inl hs⟩
  | some done =>
    obtain ⟨hid, hresponse, hphase, hassertion'⟩ := transferDone_fields (h := h.deliver deliveries) done
    refine ⟨⟨hid.trans hfields.1, hresponse.trans hfields.2.1, hphase.trans hfields.2.2⟩, .inr ?_⟩
    rcases hdelivered with ⟨hunknown, hwaits⟩ | hs
    · have hsettled := hwaits.transferDone hunknown done
      exact ⟨hsettled.settled_state, hassertion'.trans hassertion, .inr hsettled⟩
    · simp only [CheckHandle.checkConnectivity, hs.transferDone]
      refine ⟨hdecided hs, hassertion, .inl ⟨hs.stopped, hs.last, hs.decided, hs.full, hs.state⟩⟩

/-! ## Results -/

/-- The check is online: the status header or the expected response was received, or no response was
expected, the transfer ended without an error, and its status is as expected. -/
def Online (h : CheckHandle) : Prop :=
  Accepted h.response h.stream ∨
    h.response.val = [] ∧ (bodyOf h.stream).length ≤ 100 * 1024 ∧
      ∃ done, h.done = some done ∧ done.ok = true ∧
        (done.responseCode = some 204 ∨ done.responseCode = some 200 ∧ bodyOf h.stream = [])

theorem Waiting.not_online (hw : h.Waiting) : ¬ h.Online := by
  rintro (haccepted | ⟨_, _, done, hdone, _⟩)
  · exact hw.undecided.not_accepted haccepted
  · simp [hw.notDone] at hdone

theorem doneState_full {response body : Bytes} :
    doneState response body done = .full ↔ done.ok = true ∧ response = [] ∧
      (done.responseCode = some 204 ∨ done.responseCode = some 200 ∧ body = []) := by
  unfold doneState
  split_ifs with hok hgood
  · exact iff_of_true rfl ⟨hok, hgood⟩
  · exact iff_of_false (by decide) fun h => hgood h.2
  · exact iff_of_false (by decide) fun h => hok h.1

theorem Settled.full_iff (hs : h.Settled) : h.completedState = .full ↔ h.Online := by
  rcases hs.how with hs | hs
  · rw [hs.full]
    constructor
    · exact .inl
    · rintro (haccepted | ⟨hempty, hlittle, _⟩)
      · exact haccepted
      · by_contra hnot
        exact hs.decided ⟨fun hstatus => hnot (.inl hstatus), fun hne => absurd hempty hne,
          fun _ => hlittle⟩
  · obtain ⟨done, hdone, hstate⟩ := hs.state
    rw [hstate, doneState_full]
    constructor
    · rintro ⟨hok, hempty, hcode⟩
      exact .inr ⟨hempty, hs.undecided.little hempty, done, hdone, hok, hcode⟩
    · rintro (haccepted | ⟨hempty, _, done', hdone', hok, hcode⟩)
      · exact absurd haccepted hs.undecided.not_accepted
      · obtain rfl : done = done' := by simpa [hdone] using hdone'
        exact ⟨hok, hempty, hcode⟩

/-- What the library has to deliver to the check. It stops after a callback that does not take all. -/
def Gets (h : CheckHandle) (stream : List StreamItem) (done : TransferDone) : Prop :=
  h.stream <+: stream ∧ (h.stopped = false → h.stream = stream ∧ h.done = some done)

theorem SettledByCallback.accepted (hs : h.SettledByCallback) (hstream : h.stream <+: stream)
    (haccepted : Accepted h.response h.stream) (hs' : ¬ Undecided h.response h'.stream)
    (hstream' : h'.stream <+: stream) : Accepted h.response h'.stream := by
  rcases prefix_or_prefix_of_prefix hstream hstream' with hle | hge
  · exact haccepted.mono hle
  · obtain ⟨received, d, hreceived, hundecided⟩ := hs.last
    have hlast : h.stream = streamOf received ++ d.items := by simp [CheckHandle.stream, hreceived]
    rw [hlast] at haccepted hge
    exact accepted_of_prefix hundecided haccepted hge hs'

theorem Settled.state_congr (hs : h.Settled) (hs' : h'.Settled)
    (hresponse : h.response = h'.response) (hgets : h.Gets stream done)
    (hgets' : h'.Gets stream done) : h.completedState = h'.completedState := by
  rcases hs.how with hs | hs <;> rcases hs'.how with hs' | hs'
  · have hiff : h.completedState = .full ↔ h'.completedState = .full := by
      rw [hs.full, hs'.full]
      constructor
      · intro haccepted
        rw [← hresponse]
        exact hs.accepted hgets.1 haccepted (hresponse ▸ hs'.decided) hgets'.1
      · intro haccepted
        rw [hresponse]
        exact hs'.accepted hgets'.1 haccepted (hresponse ▸ hs.decided) hgets.1
    rcases hs.state with hstate | hstate <;> rcases hs'.state with hstate' | hstate'
    · rw [hstate, hstate']
    · simp [hstate, hstate'] at hiff
    · simp [hstate, hstate'] at hiff
    · rw [hstate, hstate']
  · have hall := (hgets'.2 hs'.notStopped).1
    have hundecided := hs'.undecided
    rw [hall, ← hresponse] at hundecided
    exact absurd (hundecided.mono hgets.1) hs.decided
  · have hall := (hgets.2 hs.notStopped).1
    have hundecided := hs.undecided
    rw [hall, hresponse] at hundecided
    exact absurd (hundecided.mono hgets'.1) hs'.decided
  · obtain ⟨done₁, hdone₁, hstate₁⟩ := hs.state
    obtain ⟨done₂, hdone₂, hstate₂⟩ := hs'.state
    obtain ⟨hall₁, hdone⟩ := hgets.2 hs.notStopped
    obtain ⟨hall₂, hdone'⟩ := hgets'.2 hs'.notStopped
    obtain rfl : done = done₁ := by simpa [hdone] using hdone₁
    obtain rfl : done = done₂ := by simpa [hdone'] using hdone₂
    rw [hstate₁, hstate₂, hall₁, hall₂, hresponse]

end CheckHandle

/-- What is known of a callback that was invoked. -/
structure CheckResult.Sound (x : CheckResult) : Prop where
  assertionOk : x.handle.assertionFailed = false
  full : x.how ≠ .cancelled → x.how ≠ .timeout → (x.state = .full ↔ x.handle.Online)
  settled : x.how = .queued → x.handle.Settled ∧ x.state = x.handle.completedState

namespace ConnectivitySystem

def pending (s : ConnectivitySystem) : List CheckHandle := s.handles ++ s.completedHandles

/-- The invariant of all runs. -/
structure Inv (s : ConnectivitySystem) : Prop where
  once : (s.results.map (·.handle.id) ++ s.pending.map (·.id)).Perm (List.range s.nextHandle)
  results : ∀ x ∈ s.results, x.Sound
  waiting : ∀ h ∈ s.handles, h.Waiting
  idle : ∀ h ∈ s.handles, h.phase = .idle → h.completedState ≠ .full
  running : ∀ h ∈ s.handles, h.phase ≠ .idle → h.completedState = .unknown
  settled : ∀ h ∈ s.completedHandles, h.Settled
  queue : s.loop ≠ some .completeQueued → s.completedHandles = []

theorem start_inv : start.Inv := by
  constructor <;> simp [start, pending]

namespace Inv

variable {s : ConnectivitySystem} {h : CheckHandle} {how : CheckEnd} {state : NMConnectivityState}

theorem keyUnique (hs : s.Inv) : KeyUnique CheckHandle.id s.pending :=
  (nodup_append.mp (hs.once.nodup_iff.mpr nodup_range)).2.1

theorem complete (hs : s.Inv) (hmem : h ∈ s.pending) (hresult : CheckResult.Sound ⟨h, how, state⟩)
    : (s.complete h how state).Inv := by
  have herase {l : List CheckHandle} {x : CheckHandle} (hx : x ∈ eraseKey CheckHandle.id h.id l) :
      x ∈ l := (mem_eraseKey.mp hx).1
  refine ⟨?_, ?_, ?_, ?_, ?_, ?_, ?_⟩
  · have hpending : (s.complete h how state).pending = eraseKey CheckHandle.id h.id s.pending := by
      simp [pending, ConnectivitySystem.complete, eraseKey]
    have hperm := ((perm_cons_eraseKey hs.keyUnique hmem).map CheckHandle.id).append_left
      (s.results.map (·.handle.id))
    refine List.Perm.trans ?_ (hperm.symm.trans hs.once)
    rw [hpending]
    simp [ConnectivitySystem.complete]
  · intro x hx
    rcases mem_append.mp hx with hx | hx
    · exact hs.results x hx
    · rw [mem_singleton.mp hx]
      exact hresult
  · exact fun x hx => hs.waiting x (herase hx)
  · exact fun x hx => hs.idle x (herase hx)
  · exact fun x hx => hs.running x (herase hx)
  · exact fun x hx => hs.settled x (herase hx)
  · intro hloop
    have hnil := hs.queue hloop
    simp [ConnectivitySystem.complete, hnil]

theorem setHandle (hs : s.Inv) (hid : h'.id = h.id) (hw : h'.Waiting) (hphase : h'.phase ≠ .idle)
    (hstate : h'.completedState = .unknown) : (s.setHandle h').Inv := by
  have hmem {x : CheckHandle} (hx : x ∈ (s.setHandle h').handles) : x ∈ s.handles ∨ x = h' := by
    rcases mem_modifyKey hx with ⟨hx, _⟩ | ⟨_, _, _, rfl⟩
    · exact .inl hx
    · exact .inr rfl
  refine { hs with once := ?_, waiting := ?_, idle := ?_, running := ?_ }
  · have hkeys : (s.setHandle h').handles.map (·.id) = s.handles.map (·.id) :=
      map_key_modifyKey_of_key fun _ _ => rfl
    have hpending : (s.setHandle h').pending.map (·.id) = s.pending.map (·.id) := by
      simp only [pending, map_append, hkeys]
      rfl
    rw [hpending]
    exact hs.once
  · intro x hx
    rcases hmem hx with hx | rfl
    · exact hs.waiting x hx
    · exact hw
  · intro x hx hidle
    rcases hmem hx with hx | rfl
    · exact hs.idle x hx hidle
    · exact absurd hidle hphase
  · intro x hx hidle
    rcases hmem hx with hx | rfl
    · exact hs.running x hx hidle
    · exact hstate

theorem checkStart (hs : s.Inv) (p : CheckStart) : (s.checkStart p).Inv := by
  have hadd (response : ConResponse) (phase : CheckPhase) (state : NMConnectivityState)
      (hidle : phase = .idle → state ≠ .full) (hrunning : phase ≠ .idle → state = .unknown) :
      ConnectivitySystem.Inv { s with
        handles := s.handles ++ [⟨s.nextHandle, response, phase, state, 0, [], false, none, false⟩]
        nextHandle := s.nextHandle + 1 } := by
    have hmem {x : CheckHandle}
        (hx : x ∈ s.handles ++ [⟨s.nextHandle, response, phase, state, 0, [], false, none, false⟩]) :
        x ∈ s.handles ∨ x = ⟨s.nextHandle, response, phase, state, 0, [], false, none, false⟩ := by
      simpa using hx
    refine { hs with once := ?_, waiting := ?_, idle := ?_, running := ?_ }
    · have hperm := (hs.once.append_right [s.nextHandle])
      rw [← range_succ] at hperm
      refine List.Perm.trans ?_ hperm
      simp only [pending, map_append, map_cons, map_nil, append_assoc]
      exact ((perm_append_comm).append_left _).append_left _
    · intro x hx
      rcases hmem hx with hx | rfl
      · exact hs.waiting x hx
      · exact ⟨rfl, rfl, rfl, undecided_nil, rfl⟩
    · intro x hx
      rcases hmem hx with hx | rfl
      · exact hs.idle x hx
      · exact hidle
    · intro x hx
      rcases hmem hx with hx | rfl
      · exact hs.running x hx
      · exact hrunning
  unfold ConnectivitySystem.checkStart
  dsimp only
  split
  · split
    · exact hadd _ _ _ (by decide) (by decide)
    · exact hadd _ _ _ (by decide) (by decide)
    · split
      · split
        · exact hadd _ _ _ (by decide) (by decide)
        · exact hadd _ _ _ (by decide) (by decide)
      · exact hadd _ _ _ (by decide) (by decide)
  · split
    · exact hadd _ _ _ (by decide) (by decide)
    · exact hadd _ _ _ (by decide) (by decide)

theorem mem_pending (hmem : h ∈ s.handles) : h ∈ s.pending := mem_append_left _ hmem

theorem completeWaiting (hs : s.Inv) (hmem : h ∈ s.handles) (hhow : how ≠ .queued)
    (hstate : state ≠ .full) : (s.complete h how state).Inv := by
  have hw := hs.waiting h hmem
  refine hs.complete (mem_pending hmem) ⟨hw.assertionOk, fun _ _ => ?_, fun hq => absurd hq hhow⟩
  exact iff_of_false hstate hw.not_online

theorem doCurlRequest (hs : s.Inv) (hmem : h ∈ s.handles) (hphase : h.phase ≠ .idle)
    (curlError : Bool) : (s.doCurlRequest h curlError).Inv := by
  unfold ConnectivitySystem.doCurlRequest
  have hw := hs.waiting h hmem
  split_ifs
  · exact hs.completeWaiting hmem (by decide) (by decide)
  · exact hs.setHandle rfl ⟨hw.assertionOk, hw.notStopped, hw.notDone, hw.undecided, hw.counted⟩
      (by simp) (hs.running h hmem hphase)

theorem resolved (hs : s.Inv) (hmem : h ∈ s.handles) (outcome : ResolveOutcome) :
    (s.resolved h outcome).Inv := by
  have hw := hs.waiting h hmem
  unfold ConnectivitySystem.resolved
  split <;> rename_i hphase
  · exact hs.doCurlRequest hmem (by simp [hphase]) _
  · exact hs.completeWaiting hmem (by decide) (by decide)
  · exact hs.completeWaiting hmem (by decide) (by decide)
  · exact hs.setHandle rfl ⟨hw.assertionOk, hw.notStopped, hw.notDone, hw.undecided, hw.counted⟩
      (by simp) (hs.running h hmem (by simp [hphase]))
  · exact hs.doCurlRequest hmem (by simp [hphase]) _
  · exact hs.completeWaiting hmem (by decide) (by decide)
  · exact hs

theorem socketEvent (hs : s.Inv) (hmem : h ∈ s.handles) (hloop : s.loop = none)
    (deliveries : List Delivery) (done : Option TransferDone) :
    (s.socketEvent h deliveries done).Inv := by
  unfold ConnectivitySystem.socketEvent
  split_ifs with hphase
  swap
  · exact hs
  have hunknown := hs.running h hmem (by simp [hphase])
  obtain ⟨⟨hid, -, hphase'⟩, hafter⟩ :=
    (hs.waiting h hmem).checkConnectivity hunknown deliveries done
  generalize h.checkConnectivity deliveries done = h' at hid hphase' hafter
  have hempty : s.completedHandles = [] := hs.queue (by simp [hloop])
  dsimp only
  rcases hafter with ⟨hstate, hw⟩ | ⟨hstate, hsettled⟩
  · rw [if_pos hstate]
    have hset := hs.setHandle hid hw (by simp [hphase', hphase]) hstate
    exact { hset with queue := fun hne => absurd rfl hne }
  · rw [if_neg hstate]
    have herase {x : CheckHandle} (hx : x ∈ eraseKey CheckHandle.id h'.id s.handles) :
        x ∈ s.handles := (mem_eraseKey.mp hx).1
    refine { hs with
      once := ?_
      waiting := fun x hx => hs.waiting x (herase hx)
      idle := fun x hx => hs.idle x (herase hx)
      running := fun x hx => hs.running x (herase hx)
      settled := ?_
      queue := fun hne => absurd rfl hne }
    · have hunique : KeyUnique CheckHandle.id s.handles := by
        simpa [pending, hempty] using hs.keyUnique
      have hperm := ((perm_cons_eraseKey hunique hmem).map CheckHandle.id).append_left
        (s.results.map (·.handle.id))
      have honce := hs.once
      simp only [pending, hempty, append_nil] at honce
      refine List.Perm.trans ?_ (hperm.symm.trans honce)
      simp only [pending, hempty, hid, nil_append, map_append, map_cons, map_nil]
      exact perm_append_singleton _ _ |>.append_left _
    · simp only [hempty, nil_append, mem_singleton]
      rintro x rfl
      exact hsettled

theorem dispatch (hs : s.Inv) {handle : ℕ}
    {f : ConnectivitySystem → CheckHandle → ConnectivitySystem}
    (hf : ∀ h ∈ s.handles, s.loop = none → (f s h).Inv) : (s.dispatch handle f).Inv := by
  unfold ConnectivitySystem.dispatch
  split
  · rename_i h hloop hlookup
    exact hf h (mem_of_lookup hlookup) hloop
  · exact hs

theorem loopNext (hs : s.Inv) : s.loopNext.Inv := by
  unfold ConnectivitySystem.loopNext
  split
  · exact hs
  · split
    · rename_i hempty
      exact { hs with queue := fun _ => hempty }
    · rename_i h rest hcompleted
      have hmem : h ∈ s.completedHandles := by simp [hcompleted]
      have hsettled := hs.settled h hmem
      exact hs.complete (mem_append_right _ hmem)
        ⟨hsettled.assertionOk, fun _ _ => hsettled.full_iff, fun _ => ⟨hsettled, rfl⟩⟩
  · rename_i hloop
    split
    · exact { hs with queue := fun _ => hs.queue (by simp [hloop]) }
    · rename_i h rest hhandles
      exact hs.completeWaiting (by simp [hhandles]) (by decide) (by decide)

theorem checkCancel (hs : s.Inv) (handle : ℕ) : (s.checkCancel handle).Inv := by
  unfold ConnectivitySystem.checkCancel
  split
  · exact hs
  · rename_i h hlookup
    have hmem : h ∈ s.pending := mem_of_lookup hlookup
    refine hs.complete hmem ⟨?_, fun hne => absurd rfl hne, fun hq => by cases hq⟩
    rcases mem_append.mp hmem with hmem | hmem
    · exact (hs.waiting h hmem).assertionOk
    · exact (hs.settled h hmem).assertionOk

theorem step (hs : s.Inv) (e : ConnectivityEvent) : (s.step e).Inv := by
  cases e with
  | config enabled uriValid response => exact { hs with }
  | checkStart p => exact hs.checkStart p
  | checkCancel handle => exact hs.checkCancel handle
  | dispose =>
    simp only [ConnectivitySystem.step]
    split_ifs with hloop
    · exact { hs with queue := fun _ => hs.queue (by simp [hloop]) }
    · exact hs
  | loopNext => exact hs.loopNext
  | idle handle =>
    simp only [ConnectivitySystem.step]
    apply hs.dispatch
    intro h hmem _
    split_ifs with hphase
    · exact hs.completeWaiting hmem (by decide) (hs.idle h hmem hphase)
    · exact hs
  | resolved handle outcome =>
    simp only [ConnectivitySystem.step]
    exact hs.dispatch fun h hmem _ => hs.resolved hmem outcome
  | socketEvent handle deliveries done =>
    simp only [ConnectivitySystem.step]
    exact hs.dispatch fun h hmem hloop => hs.socketEvent hmem hloop deliveries done
  | timeout handle =>
    simp only [ConnectivitySystem.step]
    apply hs.dispatch
    intro h hmem _
    split_ifs
    · exact hs.completeWaiting hmem (by decide) (by decide)
    · exact hs

end Inv

/-! ## Runs -/

def run (events : List ConnectivityEvent) : ConnectivitySystem := events.foldl step start

theorem run_inv (events : List ConnectivityEvent) : (run events).Inv :=
  foldl_invariant (fun _ e hs => hs.step e) start_inv events

section Ends

variable {s : ConnectivitySystem}

theorem length_pending_complete {h : CheckHandle} (how : CheckEnd) (state : NMConnectivityState)
    (hmem : h ∈ s.pending) : (s.complete h how state).pending.length < s.pending.length := by
  have hpending : (s.complete h how state).pending = eraseKey CheckHandle.id h.id s.pending := by
    simp [pending, complete, eraseKey]
  rw [hpending, eraseKey, length_filter_lt_length_iff_exists]
  exact ⟨h, hmem, by simp⟩

theorem loop_ends (n : ℕ) (hlength : s.pending.length < n) :
    ∃ k, ((List.replicate k .loopNext).foldl step s).loop = none ∧
      (s.loop = some .dispose → ((List.replicate k .loopNext).foldl step s).handles = []) := by
  induction n generalizing s with
  | zero => omega
  | succ n ih =>
    have hgoOn {h : CheckHandle} {how : CheckEnd} {state : NMConnectivityState}
        (hnext : s.loopNext = s.complete h how state) (hmem : h ∈ s.pending) :
        ∃ k, ((List.replicate k .loopNext).foldl step s).loop = none ∧
          (s.loop = some .dispose → ((List.replicate k .loopNext).foldl step s).handles = []) := by
      have hless := length_pending_complete how state hmem
      obtain ⟨k, hnone, hhandles⟩ := ih (s := s.loopNext) (by rw [hnext]; omega)
      refine ⟨k + 1, ?_, ?_⟩
      · simpa [replicate_succ, step] using hnone
      · intro hloop
        simpa [replicate_succ, step] using hhandles (by rw [hnext]; exact hloop)
    cases hloop : s.loop with
    | none => exact ⟨0, hloop, by simp⟩
    | some kind =>
      cases kind with
      | completeQueued =>
        cases hcompleted : s.completedHandles with
        | nil => exact ⟨1, by simp [step, loopNext, hloop, hcompleted], by simp⟩
        | cons h rest =>
          have hmem : h ∈ s.pending := by simp [pending, hcompleted]
          have hnext : s.loopNext = s.complete h .queued h.completedState := by
            simp [loopNext, hloop, hcompleted]
          simpa [hloop] using hgoOn hnext hmem
      | dispose =>
        cases hhandles : s.handles with
        | nil => exact ⟨1, by simp [step, loopNext, hloop, hhandles], by
            simp [step, loopNext, hloop, hhandles]⟩
        | cons h rest =>
          have hmem : h ∈ s.pending := by simp [pending, hhandles]
          have hnext : s.loopNext = s.complete h .disposed .disposing := by
            simp [loopNext, hloop, hhandles]
          simpa [hloop] using hgoOn hnext hmem

theorem disposal_ends (events : List ConnectivityEvent) :
    ∃ events', (∀ e ∈ events', e = .loopNext ∨ e = .dispose) ∧ (run (events ++ events')).pending = [] := by
  obtain ⟨k, hnone, -⟩ := loop_ends (s := run events) _ (Nat.lt_succ_self _)
  set s := (List.replicate k .loopNext).foldl step (run events) with hs
  have hdispose : (s.step .dispose).loop = some .dispose := by simp [step, hnone]
  obtain ⟨k', hnone', hhandles⟩ := loop_ends (s := s.step .dispose) _ (Nat.lt_succ_self _)
  refine ⟨List.replicate k .loopNext ++ .dispose :: List.replicate k' .loopNext, ?_, ?_⟩
  · intro e he
    simp only [mem_append, mem_cons, mem_replicate] at he
    tauto
  · have hrun : run (events ++ (List.replicate k .loopNext ++ .dispose :: List.replicate k' .loopNext)) =
        (List.replicate k' .loopNext).foldl step (s.step .dispose) := by
      simp [run, hs]
    have hinv := run_inv (events ++ (List.replicate k .loopNext ++ .dispose ::
      List.replicate k' .loopNext))
    rw [hrun] at hinv ⊢
    rw [pending, hhandles hdispose, hinv.queue (by simp [hnone'])]
    rfl

end Ends

/-! ## One result -/

/-- The callback of each check is invoked at most once, and by a disposal if not before. The check
is online under a condition on what was received, whatever the chunks. -/
structure OneResult (online : CheckHandle → Prop) (events : List ConnectivityEvent) : Prop where
  once : ((run events).results.map (·.handle.id) ++ (run events).pending.map (·.id)).Perm
    (List.range (run events).nextHandle)
  disposal : ∃ events', (∀ e ∈ events', e = .loopNext ∨ e = .dispose) ∧
    (run (events ++ events')).pending = []
  assertionOk : ∀ h ∈ (run events).pending ++ (run events).results.map (·.handle),
    h.assertionFailed = false
  full : ∀ x ∈ (run events).results, x.how ≠ .cancelled → x.how ≠ .timeout →
    (x.state = .full ↔ online x.handle)
  chunks : ∀ events', ∀ x ∈ (run events).results, ∀ x' ∈ (run events').results,
    x.how = .queued → x'.how = .queued → x.handle.response = x'.handle.response →
      ∀ stream done, x.handle.Gets stream done → x'.handle.Gets stream done → x.state = x'.state

theorem one_result (events : List ConnectivityEvent) : OneResult CheckHandle.Online events := by
  have hs := run_inv events
  refine ⟨hs.once, disposal_ends events, ?_, fun x hx => (hs.results x hx).full, ?_⟩
  · intro h hmem
    rcases mem_append.mp hmem with hmem | hmem
    · rcases mem_append.mp hmem with hmem | hmem
      · exact (hs.waiting h hmem).assertionOk
      · exact (hs.settled h hmem).assertionOk
    · obtain ⟨x, hx, rfl⟩ := mem_map.mp hmem
      exact (hs.results x hx).assertionOk
  · intro events' x hx x' hx' hqueued hqueued' hresponse stream done hgets hgets'
    obtain ⟨hsettled, hstate⟩ := (hs.results x hx).settled hqueued
    obtain ⟨hsettled', hstate'⟩ := ((run_inv events').results x' hx').settled hqueued'
    rw [hstate, hstate']
    exact hsettled.state_congr hsettled' hresponse hgets hgets'

/-- The check is online however the transfer ended and however long the body is. -/
def AsExpected (h : CheckHandle) : Prop :=
  Accepted h.response h.stream ∨
    h.response.val = [] ∧ ∃ done, h.done = some done ∧
      (done.responseCode = some 204 ∨ done.responseCode = some 200 ∧ bodyOf h.stream = [])

def emptyResponseRun (deliveries : List Delivery) (done : TransferDone) : List ConnectivityEvent :=
  [.config true true (some ⟨[], by decide⟩), .checkStart ⟨true, true, none, false, false⟩,
    .resolved 0 (.hosts false), .socketEvent 0 deliveries (some done), .loopNext]

def emptyResponseHandle : CheckHandle :=
  ⟨0, ⟨[], by decide⟩, .transfer, .unknown, 0, [], false, none, false⟩

theorem emptyResponseHandle_waiting : emptyResponseHandle.Waiting :=
  ⟨rfl, rfl, rfl, undecided_nil, rfl⟩

theorem emptyResponseRun_results (deliveries : List Delivery) (done : TransferDone)
    (hsettled : (emptyResponseHandle.checkConnectivity deliveries (some done)).completedState ≠
      .unknown) :
    (run (emptyResponseRun deliveries done)).results =
      [⟨emptyResponseHandle.checkConnectivity deliveries (some done), .queued,
        (emptyResponseHandle.checkConnectivity deliveries (some done)).completedState⟩] := by
  have hup : run [.config true true (some ⟨[], by decide⟩),
      .checkStart ⟨true, true, none, false, false⟩, .resolved 0 (.hosts false)] =
      ⟨[emptyResponseHandle], [], 1, true, true, some ⟨[], by decide⟩, none, []⟩ := rfl
  have hid := (emptyResponseHandle_waiting.checkConnectivity rfl deliveries (some done)).1.1
  rw [show emptyResponseRun deliveries done = [.config true true (some ⟨[], by decide⟩),
      .checkStart ⟨true, true, none, false, false⟩, .resolved 0 (.hosts false)] ++
      [.socketEvent 0 deliveries (some done), .loopNext] from rfl, run, foldl_append]
  change ([.socketEvent 0 deliveries (some done), .loopNext].foldl step (run _)).results = _
  rw [hup]
  have hlookup : lookup (fun h => h.id) 0 [emptyResponseHandle] = some emptyResponseHandle := rfl
  have hphase : emptyResponseHandle.phase = .transfer := rfl
  simp only [foldl_cons, foldl_nil, step, dispatch, hlookup, socketEvent, if_pos hphase,
    if_neg hsettled]
  rfl

/-- A transfer that ends in an error after the expected status, and one whose body is too long. -/
theorem emptyResponseRun_not_asExpected :
    ¬ OneResult AsExpected (emptyResponseRun [] ⟨false, some 200⟩) ∧
      ¬ OneResult AsExpected
        (emptyResponseRun [.body (List.replicate (100 * 1024 + 1) 0)] ⟨false, some 204⟩) := by
  have hnot (deliveries : List Delivery) (done : TransferDone) (state : NMConnectivityState)
      (hhandle : (emptyResponseHandle.checkConnectivity deliveries (some done)).completedState = state)
      (hstate : state ≠ .unknown ∧ state ≠ .full)
      (hexpected : AsExpected (emptyResponseHandle.checkConnectivity deliveries (some done))) :
      ¬ OneResult AsExpected (emptyResponseRun deliveries done) := by
    intro h
    have hresults := emptyResponseRun_results deliveries done (by rw [hhandle]; exact hstate.1)
    have hfull := h.full _ (by rw [hresults]; exact mem_singleton_self _) (by simp) (by simp)
    rw [hhandle] at hfull
    exact hstate.2 (hfull.mpr hexpected)
  constructor
  · refine hnot _ _ .limited rfl (by decide) (.inr ⟨rfl, _, rfl, .inr ⟨rfl, rfl⟩⟩)
  · have hdeliver (chunk : Bytes) (hlong : 100 * 1024 < chunk.length) :
        emptyResponseHandle.checkConnectivity [.body chunk] (some ⟨false, some 204⟩) =
          { emptyResponseHandle with
            responseGoodCnt := chunk.length, completedState := .portal, received := [.body chunk]
            stopped := true, done := some ⟨false, some 204⟩ } := by
      have hne : chunk.length ≠ 0 := by omega
      simp [emptyResponseHandle, CheckHandle.checkConnectivity, CheckHandle.deliver,
        CheckHandle.callback, CheckHandle.easyWriteCb, CheckHandle.queueCompleted,
        CheckHandle.transferDone, Delivery.length, hlong, hne, hne.symm]
    have hlong : 100 * 1024 < (List.replicate (100 * 1024 + 1) (0 : UInt8)).length := by
      rw [length_replicate]
      omega
    have hhandle := hdeliver _ hlong
    refine hnot _ _ .portal (by rw [hhandle]) (by decide) ?_
    rw [hhandle]
    exact .inr ⟨rfl, _, rfl, .inl rfl⟩

end ConnectivitySystem
end NetworkManager.Core
