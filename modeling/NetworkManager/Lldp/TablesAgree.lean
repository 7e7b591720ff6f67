import Mathlib.Data.List.Sort
import NetworkManager.Lldp.RxTables
import NetworkManager.Lib.Runs

/-!
# The LLDP listener

The listener has a table of its own, which it keeps only by what the receiver calls back. It
notifies of a change after some time, and what it exposes is built once for each notification.
-/

namespace NetworkManager.Lldp

open Lib GlibAux
open List hiding lookup

variable {ν : Type*}

/-- `LldpNeighbor` of the listener, with the variant that was built for it. -/
structure LldpNeighbor (ν : Type*) where
  neighborNm : NMLldpNeighbor
  variant : Option ν

/-- The source of a notification that is pending. -/
inductive RatelimitSource
  | idle
  | timeout (msec : ℤ)
  deriving DecidableEq

structure NMLldpListener (ν : Type*) where
  lldpNeighbors : List (LldpNeighbor ν)
  variant : Option (List ν)
  ratelimitSource : Option RatelimitSource
  ratelimitNextNsec : ℤ

def lldpNeighborNew (neighborNm : NMLldpNeighbor) : LldpNeighbor ν := ⟨neighborNm, none⟩

/-- `lldp_neighbor_id_hash()` and `lldp_neighbor_id_equal()` look at the id. -/
def LldpNeighbor.id (neigh : LldpNeighbor ν) : NMLldpNeighborID := neigh.neighborNm.id

def lldpNeighborEqual (a b : LldpNeighbor ν) : Prop := a.neighborNm.raw = b.neighborNm.raw

instance (a b : LldpNeighbor ν) : Decidable (lldpNeighborEqual a b) :=
  inferInstanceAs (Decidable (_ = _))

def nsecToMsecCeil (nsec : ℤ) : ℤ := (nsec + 999999).tdiv 1000000

def dataChangedSchedule (self : NMLldpListener ν) (nowNsec : ℤ) : NMLldpListener ν :=
  if self.ratelimitSource.isSome then self
  else if nowNsec < self.ratelimitNextNsec then
    { self with
      ratelimitSource := some (.timeout (nsecToMsecCeil (self.ratelimitNextNsec - nowNsec))) }
  else { self with ratelimitSource := some .idle }

def processLldpNeighbor (self : NMLldpListener ν) (neighborNm : NMLldpNeighbor) (remove : Bool)
    (nowNsec : ℤ) : NMLldpListener ν :=
  let neigh : LldpNeighbor ν := lldpNeighborNew neighborNm
  let neighOld := lookup LldpNeighbor.id neigh.id self.lldpNeighbors
  if remove then
    match neighOld with
    | some old =>
      dataChangedSchedule { self with
        lldpNeighbors := eraseKey LldpNeighbor.id old.id self.lldpNeighbors } nowNsec
    | none => self
  else if ∃ old ∈ neighOld, lldpNeighborEqual old neigh then self
  else
    dataChangedSchedule
      { self with lldpNeighbors := put LldpNeighbor.id neigh self.lldpNeighbors } nowNsec

def lldpEventHandler (nowNsec : ℤ) (self : NMLldpListener ν)
    (call : NMLldpRXEvent × NMLldpNeighbor) : NMLldpListener ν :=
  processLldpNeighbor self call.2 (call.1 ∉ [.added, .updated, .refreshed]) nowNsec

def minUpdateIntervalNsec : ℤ := 2 * 1000000000

/-- `data_changed_timeout()` up to the notification. -/
def dataChangedTimeout (self : NMLldpListener ν) (nowNsec : ℤ) : NMLldpListener ν :=
  { self with
    ratelimitSource := none
    ratelimitNextNsec := nowNsec + minUpdateIntervalNsec
    variant := none }

/-- `lldp_neighbor_id_cmp()` is not greater. -/
def lldpNeighborIdLe (a b : LldpNeighbor ν) : Prop := (lldpNeighborIdCmp a.id b.id).isLE

instance : DecidableRel (lldpNeighborIdLe (ν := ν)) := fun _ _ =>
  inferInstanceAs (Decidable (_ = true))

variable (toVariant : Bytes → ν)

/-- `lldp_neighbor_to_variant()` keeps what it built; what it builds is a function of the frame. -/
def lldpNeighborToVariant (neigh : LldpNeighbor ν) : LldpNeighbor ν :=
  { neigh with variant := some (neigh.variant.getD (toVariant neigh.neighborNm.raw)) }

def lldpListenerGetNeighbors (self : NMLldpListener ν) : List ν × NMLldpListener ν :=
  match self.variant with
  | some variant => (variant, self)
  | none =>
    let neighbors := self.lldpNeighbors.map (lldpNeighborToVariant toVariant)
    let variant := (neighbors.insertionSort lldpNeighborIdLe).filterMap LldpNeighbor.variant
    (variant, { self with lldpNeighbors := neighbors, variant := some variant })

def lldpListenerNew : NMLldpListener ν := ⟨[], none, none, 0⟩

/-! ## The receiver with its listener -/

/-- A receiver whose callback is the listener, and the table of the listener at the time of its
last notification. -/
structure LldpSystem (ν : Type*) where
  rx : NMLldpRX
  listener : NMLldpListener ν
  notified : List (NMLldpNeighborID × Bytes)

def lldpFrames (neighbors : List (LldpNeighbor ν)) : List (NMLldpNeighborID × Bytes) :=
  neighbors.map fun neigh => (neigh.id, neigh.neighborNm.raw)

/-- What can happen, with what the clocks say then. -/
inductive LldpEvent
  | receive (raw : Bytes) (timestampUsec : ℤ) (clock : Clock) (nowNsec : ℤ)
  | timer (clock : Clock) (nowNsec : ℤ)
  | ratelimit (nowNsec : ℤ)
  | getNeighbors
  deriving Inhabited

def LldpSystem.called (self : LldpSystem ν) (res : NMLldpRX × Callbacks) (nowNsec : ℤ) :
    LldpSystem ν :=
  { self with rx := res.1, listener := res.2.foldl (lldpEventHandler nowNsec) self.listener }

/-- Timers expire only while they are pending. -/
def LldpSystem.step (self : LldpSystem ν) : LldpEvent → LldpSystem ν
  | .receive raw timestampUsec clock nowNsec =>
    self.called (lldpRxReceiveDatagram self.rx raw timestampUsec clock) nowNsec
  | .timer clock nowNsec =>
    if self.rx.timerEventSource.isNone then self
    else self.called (onTimerEvent self.rx clock) nowNsec
  | .ratelimit nowNsec =>
    if self.listener.ratelimitSource.isNone then self
    else
      { self with
        listener := dataChangedTimeout self.listener nowNsec
        notified := lldpFrames self.listener.lldpNeighbors }
  | .getNeighbors =>
    { self with listener := (lldpListenerGetNeighbors toVariant self.listener).2 }

def LldpSystem.init (config : NMLldpRXConfig) (objects : ℕ → NMLldpNeighbor) : LldpSystem ν :=
  ⟨lldpRxNew config objects, lldpListenerNew, []⟩

/-!
## The LLDP tables agree

The listener has the frames of the receiver in every reachable state, and what it exposes once no
notification is pending is its table.
-/

variable {ν : Type*} {toVariant : Bytes → ν} {self : NMLldpListener ν}

def NMLldpListener.frame (self : NMLldpListener ν) (id : NMLldpNeighborID) : Option Bytes :=
  (lookup LldpNeighbor.id id self.lldpNeighbors).map fun neigh => neigh.neighborNm.raw

def exposedNeighbors (toVariant : Bytes → ν) (neighbors : List (LldpNeighbor ν)) : List ν :=
  (neighbors.insertionSort lldpNeighborIdLe).map fun neigh => toVariant neigh.neighborNm.raw

/-- The table has no id twice, the variants in it are those of the frames, and without a pending
notification nothing has changed since the last one. -/
structure ListenerSound (toVariant : Bytes → ν) (l : NMLldpListener ν)
    (notified : List (NMLldpNeighborID × Bytes)) : Prop where
  unique : KeyUnique LldpNeighbor.id l.lldpNeighbors
  built : ∀ neigh ∈ l.lldpNeighbors, ∀ v ∈ neigh.variant, v = toVariant neigh.neighborNm.raw
  frames : l.ratelimitSource = none → lldpFrames l.lldpNeighbors = notified
  exposed : l.ratelimitSource = none →
    ∀ v ∈ l.variant, v = exposedNeighbors toVariant l.lldpNeighbors

variable {notified : List (NMLldpNeighborID × Bytes)} {neighbors : List (LldpNeighbor ν)}

/-! ## Handling a callback -/

@[simp] theorem lldpNeighbors_dataChangedSchedule (nowNsec : ℤ) :
    (dataChangedSchedule self nowNsec).lldpNeighbors = self.lldpNeighbors := by
  unfold dataChangedSchedule
  split_ifs <;> rfl

theorem ratelimitSource_dataChangedSchedule (nowNsec : ℤ) :
    (dataChangedSchedule self nowNsec).ratelimitSource ≠ none := by
  unfold dataChangedSchedule
  split_ifs with hpending
  · exact Option.isSome_iff_ne_none.mp hpending
  · exact Option.some_ne_none _
  · exact Option.some_ne_none _

theorem ListenerSound.schedule (nowNsec : ℤ) (hunique : KeyUnique LldpNeighbor.id neighbors)
    (hbuilt : ∀ neigh ∈ neighbors, ∀ v ∈ neigh.variant, v = toVariant neigh.neighborNm.raw) :
    ListenerSound toVariant
      (dataChangedSchedule { self with lldpNeighbors := neighbors } nowNsec) notified := by
  refine ⟨?_, ?_, fun hnone => ?_, fun hnone => ?_⟩
  · rw [lldpNeighbors_dataChangedSchedule]
    exact hunique
  · rw [lldpNeighbors_dataChangedSchedule]
    exact hbuilt
  · exact absurd hnone (ratelimitSource_dataChangedSchedule nowNsec)
  · exact absurd hnone (ratelimitSource_dataChangedSchedule nowNsec)

/-- The listener does what the callback says. -/
theorem process_spec (h : ListenerSound toVariant self notified) (nowNsec : ℤ)
    (call : NMLldpRXEvent × NMLldpNeighbor) :
    ListenerSound toVariant (lldpEventHandler nowNsec self call) notified ∧
      (lldpEventHandler nowNsec self call).frame = callbackEffect self.frame call := by
  obtain ⟨event, n⟩ := call
  by_cases hremove : event = .removed
  · subst hremove
    have hremoved : lldpEventHandler nowNsec self (.removed, n) =
        processLldpNeighbor self n true nowNsec := rfl
    rw [hremoved, processLldpNeighbor, if_pos rfl]
    cases hold : lookup LldpNeighbor.id (lldpNeighborNew n : LldpNeighbor ν).id
        self.lldpNeighbors with
    | none =>
      refine ⟨h, (Function.update_eq_self_iff.mpr ?_).symm⟩
      have hlookup : lookup LldpNeighbor.id n.id self.lldpNeighbors = none := hold
      rw [NMLldpListener.frame, hlookup, Option.map_none]
    | some old =>
      have hid : old.id = n.id := key_of_lookup hold
      refine ⟨.schedule nowNsec h.unique.eraseKey fun neigh hneigh =>
        h.built neigh (mem_eraseKey.mp hneigh).1, ?_⟩
      funext id
      rw [NMLldpListener.frame, lldpNeighbors_dataChangedSchedule, lookup_eraseKey, hid,
        callbackEffect, Function.update_apply]
      split_ifs <;> rfl
  · have hadded : lldpEventHandler nowNsec self (event, n) =
        processLldpNeighbor self n false nowNsec := by
      cases event with
      | removed => exact absurd rfl hremove
      | added => rfl
      | updated => rfl
      | refreshed => rfl
    rw [hadded, callbackEffect_new hremove, processLldpNeighbor, if_neg Bool.false_ne_true]
    split_ifs with hequal
    · obtain ⟨old, hold, hraw⟩ := hequal
      refine ⟨h, (Function.update_eq_self_iff.mpr ?_).symm⟩
      have hlookup : lookup LldpNeighbor.id n.id self.lldpNeighbors = some old := hold
      rw [NMLldpListener.frame, hlookup, Option.map_some]
      exact congrArg some hraw.symm
    · refine ⟨.schedule nowNsec h.unique.put fun neigh hneigh v hv => ?_, ?_⟩
      · rcases mem_put.mp hneigh with rfl | ⟨hmem, -⟩
        · cases hv
        · exact h.built neigh hmem v hv
      · funext id
        rw [NMLldpListener.frame, lldpNeighbors_dataChangedSchedule, lookup_put,
          Function.update_apply]
        split_ifs with hid hid'
        · rfl
        · exact absurd hid hid'
        · exact absurd ‹_› hid
        · rfl

theorem foldl_process_spec (h : ListenerSound toVariant self notified) (nowNsec : ℤ)
    (calls : Callbacks) :
    ListenerSound toVariant (calls.foldl (lldpEventHandler nowNsec) self) notified ∧
      (calls.foldl (lldpEventHandler nowNsec) self).frame =
        calls.foldl callbackEffect self.frame := by
  induction calls generalizing self with
  | nil => exact ⟨h, rfl⟩
  | cons call calls ih =>
    have hcall := process_spec h nowNsec call
    have hcalls := ih hcall.1
    rw [hcall.2] at hcalls
    exact hcalls

/-! ## What is exposed -/

theorem exposed_lldpNeighborToVariant (neighbors : List (LldpNeighbor ν)) :
    exposedNeighbors toVariant (neighbors.map (lldpNeighborToVariant toVariant)) =
      exposedNeighbors toVariant neighbors := by
  rw [exposedNeighbors, ← map_insertionSort lldpNeighborIdLe, map_map]
  · rfl
  · exact fun _ _ _ _ => Iff.rfl

theorem filterMap_variant
    (hbuilt : ∀ neigh ∈ neighbors, ∀ v ∈ neigh.variant, v = toVariant neigh.neighborNm.raw) :
    ((neighbors.map (lldpNeighborToVariant toVariant)).insertionSort lldpNeighborIdLe).filterMap
      LldpNeighbor.variant = exposedNeighbors toVariant neighbors := by
  rw [← exposed_lldpNeighborToVariant, exposedNeighbors]
  apply Eq.trans _ (congrFun filterMap_eq_map _)
  apply filterMap_congr
  intro neigh hneigh
  obtain ⟨old, hold, rfl⟩ := mem_map.mp ((mem_insertionSort _).mp hneigh)
  cases hv : old.variant with
  | none => simp [lldpNeighborToVariant, hv]
  | some v => simp [lldpNeighborToVariant, hv, hbuilt old hold v hv]

theorem getNeighbors_fst (h : ListenerSound toVariant self notified) :
    (lldpListenerGetNeighbors toVariant self).1 =
      self.variant.getD (exposedNeighbors toVariant self.lldpNeighbors) := by
  unfold lldpListenerGetNeighbors
  cases hvariant : self.variant with
  | some variant => rfl
  | none => exact filterMap_variant h.built

theorem getNeighbors_sound (h : ListenerSound toVariant self notified) :
    ListenerSound toVariant (lldpListenerGetNeighbors toVariant self).2 notified ∧
      (lldpListenerGetNeighbors toVariant self).2.frame = self.frame := by
  unfold lldpListenerGetNeighbors
  cases hvariant : self.variant with
  | some variant => exact ⟨h, rfl⟩
  | none =>
    have hframes : lldpFrames (self.lldpNeighbors.map (lldpNeighborToVariant toVariant)) =
        lldpFrames self.lldpNeighbors := by
      rw [lldpFrames, map_map]
      rfl
    refine ⟨⟨?_, ?_, fun hnone => ?_, ?_⟩, ?_⟩
    · change (List.map _ (List.map _ _)).Nodup
      rw [map_map]
      exact h.unique
    · intro neigh hneigh v hv
      obtain ⟨old, hold, rfl⟩ := mem_map.mp hneigh
      cases hold' : old.variant with
      | none => simpa [lldpNeighborToVariant, hold', eq_comm] using hv
      | some v' =>
        have hv' : v = v' := by simpa [lldpNeighborToVariant, hold', eq_comm] using hv
        rw [hv']
        exact h.built old hold v' hold'
    · exact hframes.trans (h.frames hnone)
    · intro _ v hv
      obtain rfl := Option.some.inj hv
      dsimp only
      rw [exposed_lldpNeighborToVariant]
      exact filterMap_variant h.built
    · funext id
      dsimp only [NMLldpListener.frame]
      rw [lookup, List.find?_map, Option.map_map]
      rfl

/-! ## Runs -/

/-- The receiver and the listener have the same frames. -/
structure SystemSound (toVariant : Bytes → ν) (s : LldpSystem ν) : Prop where
  rx : RxSound s.rx
  listener : ListenerSound toVariant s.listener s.notified
  frame : s.rx.frame = s.listener.frame

variable {s : LldpSystem ν}

theorem SystemSound.called (h : SystemSound toVariant s) {res : NMLldpRX × Callbacks}
    (hres : RxSound res.1 ∧ res.1.frame = res.2.foldl callbackEffect s.rx.frame) (nowNsec : ℤ) :
    SystemSound toVariant (s.called res nowNsec) := by
  have hlistener := foldl_process_spec h.listener nowNsec res.2
  refine ⟨hres.1, hlistener.1, ?_⟩
  exact hres.2.trans (by rw [h.frame]; exact hlistener.2.symm)

theorem SystemSound.step (h : SystemSound toVariant s) (event : LldpEvent) :
    SystemSound toVariant (s.step toVariant event) := by
  cases event with
  | receive raw timestampUsec clock nowNsec =>
    exact h.called (receiveDatagram_spec h.rx raw timestampUsec clock) nowNsec
  | timer clock nowNsec =>
    change SystemSound toVariant (if s.rx.timerEventSource.isNone then s
      else s.called (onTimerEvent s.rx clock) nowNsec)
    split_ifs
    · exact h
    · exact h.called (onTimerEvent_spec h.rx clock) nowNsec
  | ratelimit nowNsec =>
    change SystemSound toVariant (if s.listener.ratelimitSource.isNone then s else
      { s with
        listener := dataChangedTimeout s.listener nowNsec
        notified := lldpFrames s.listener.lldpNeighbors })
    split_ifs
    · exact h
    · exact ⟨h.rx, ⟨h.listener.unique, h.listener.built, fun _ => rfl, fun _ _ hv => by cases hv⟩,
        h.frame⟩
  | getNeighbors =>
    have hget := getNeighbors_sound h.listener
    exact ⟨h.rx, hget.1, h.frame.trans hget.2.symm⟩

theorem systemSound_init (toVariant : Bytes → ν) (config : NMLldpRXConfig)
    (objects : ℕ → NMLldpNeighbor) :
    SystemSound toVariant (LldpSystem.init config objects : LldpSystem ν) := by
  have hrx := lldpRxNew_spec config objects
  refine ⟨hrx.1, ⟨nodup_nil, ?_, fun _ => rfl, ?_⟩, hrx.2⟩
  · intro neigh hneigh
    cases hneigh
  · intro _ v hv
    cases hv

def rxFrames (rx : NMLldpRX) : List (NMLldpNeighborID × Bytes) :=
  rx.neighborById.map fun n => ((rx.objects n).id, (rx.objects n).raw)

theorem SystemSound.frames_perm (h : SystemSound toVariant s) :
    (rxFrames s.rx).Perm (lldpFrames s.listener.lldpNeighbors) := by
  have hrx : (rxFrames s.rx).Nodup := by
    apply List.Nodup.of_map Prod.fst
    rw [rxFrames, map_map]
    exact h.rx.tables.unique
  have hlistener : (lldpFrames s.listener.lldpNeighbors).Nodup := by
    apply List.Nodup.of_map Prod.fst
    rw [lldpFrames, map_map]
    exact h.listener.unique
  apply (perm_ext_iff_of_nodup hrx hlistener).mpr
  rintro ⟨id, raw⟩
  have hframe := congrFun h.frame id
  have hmem : (id, raw) ∈ rxFrames s.rx ↔ s.rx.frame id = some raw := by
    rw [NMLldpRX.frame, Option.map_eq_some_iff, rxFrames, mem_map]
    constructor
    · rintro ⟨n, hn, heq⟩
      obtain ⟨hid, hraw⟩ := Prod.mk.inj heq
      exact ⟨n, h.rx.tables.lookupId_iff.mpr ⟨hn, hid⟩, hraw⟩
    · rintro ⟨n, hn, hraw⟩
      obtain ⟨hn, hid⟩ := h.rx.tables.lookupId_iff.mp hn
      exact ⟨n, hn, Prod.ext hid hraw⟩
  have hmem' : (id, raw) ∈ lldpFrames s.listener.lldpNeighbors ↔
      s.listener.frame id = some raw := by
    rw [NMLldpListener.frame, Option.map_eq_some_iff, lldpFrames, mem_map]
    constructor
    · rintro ⟨neigh, hneigh, heq⟩
      obtain ⟨hid, hraw⟩ := Prod.mk.inj heq
      exact ⟨neigh, (lookup_eq_some_iff h.listener.unique).mpr ⟨hneigh, hid⟩, hraw⟩
    · rintro ⟨neigh, hneigh, hraw⟩
      obtain ⟨hneigh, hid⟩ := (lookup_eq_some_iff h.listener.unique).mp hneigh
      exact ⟨neigh, hneigh, Prod.ext hid hraw⟩
  rw [hmem, hmem', hframe]

/-- In every reachable state the two tables of the receiver hold the same neighbors, the queue has
the one that expires first at its head and a timer is pending for it, the listener has the same
frames, and what it exposes is current once no notification is pending, as it is after one. -/
theorem lldpTables_agree (toVariant : Bytes → ν) (config : NMLldpRXConfig)
    (objects : ℕ → NMLldpNeighbor) (events : List LldpEvent) :
    let s := events.foldl (LldpSystem.step toVariant) (.init config objects)
    (s.rx.neighborByExpiry.items.toList.map PrioqItem.data).Perm s.rx.neighborById ∧
      KeyUnique s.rx.neighborId s.rx.neighborById ∧
      s.rx.neighborById.length ≤ s.rx.config.neighborsMax ∧
      (∀ n, prioqPeek s.rx.neighborByExpiry = some n →
        ∀ m ∈ s.rx.neighborById, (s.rx.objects n).untilUsec ≤ (s.rx.objects m).untilUsec) ∧
      (s.rx.neighborById ≠ [] → s.rx.timerEventSource.isSome) ∧
      (∀ n ∈ s.rx.neighborById, (s.rx.objects n).ttl ≠ 0) ∧
      (rxFrames s.rx).Perm (lldpFrames s.listener.lldpNeighbors) ∧
      (lldpFrames s.listener.lldpNeighbors ≠ s.notified → s.listener.ratelimitSource.isSome) ∧
      (s.listener.ratelimitSource = none →
        (lldpListenerGetNeighbors toVariant s.listener).1 =
          exposedNeighbors toVariant s.listener.lldpNeighbors) ∧
      ∀ nowNsec, s.listener.ratelimitSource.isSome →
        (lldpListenerGetNeighbors toVariant (s.step toVariant (.ratelimit nowNsec)).listener).1 =
          exposedNeighbors toVariant s.listener.lldpNeighbors := by
  intro s
  have h : SystemSound toVariant s :=
    foldl_invariant (fun _ event h => h.step event) (systemSound_init toVariant config objects)
      events
  clear_value s
  refine ⟨h.rx.tables.perm, h.rx.tables.unique, h.rx.length_le, ?_, h.rx.timer, ?_, h.frames_perm,
    ?_, ?_, ?_⟩
  · exact fun n hn => (h.rx.tables.head_until hn).2
  · intro n hn hzero
    have httl := h.rx.tables.ttl n hn
    rw [hzero] at httl
    exact absurd httl (UInt16.lt_irrefl _)
  · intro hne
    by_contra hnone
    exact hne (h.listener.frames (Option.not_isSome_iff_eq_none.mp hnone))
  · intro hnone
    rw [getNeighbors_fst h.listener]
    cases hvariant : s.listener.variant with
    | none => rfl
    | some v => exact h.listener.exposed hnone v hvariant
  · intro nowNsec hpending
    rw [getNeighbors_fst (h.step _).listener]
    have hstep : s.step toVariant (.ratelimit nowNsec) =
        { s with
          listener := dataChangedTimeout s.listener nowNsec
          notified := lldpFrames s.listener.lldpNeighbors } := by
      apply if_neg
      rw [Option.isNone_iff_eq_none]
      exact Option.isSome_iff_ne_none.mp hpending
    rw [hstep]
    rfl

end NetworkManager.Lldp
