import Mathlib.Data.List.Find
import NetworkManager.Lldp.Rx

/-!
# The tables of the LLDP receiver

The hash table and the queue hold the same neighbors, and the calls of the callback say how the
frames that are kept change.
-/

namespace NetworkManager.Lldp

open Lib GlibAux
open List hiding lookup_append lookup_cons lookup_nil

instance (objects : ℕ → NMLldpNeighbor) : Std.TransCmp (lldpNeighborPrioqCompare objects) :=
  inferInstanceAs (Std.TransCmp (compareOn fun n => (objects n).untilUsec))

instance (rx : NMLldpRX) : Std.TransCmp rx.compare :=
  inferInstanceAs (Std.TransCmp (lldpNeighborPrioqCompare rx.objects))

def NMLldpRX.frame (rx : NMLldpRX) (id : NMLldpNeighborID) : Option Bytes :=
  (rx.lookupId id).map fun n => (rx.objects n).raw

def callbackEffect (frames : NMLldpNeighborID → Option Bytes) :
    NMLldpRXEvent × NMLldpNeighbor → NMLldpNeighborID → Option Bytes
  | (.removed, n) => Function.update frames n.id none
  | (_, n) => Function.update frames n.id (some n.raw)

/-- The hash table and the queue agree. -/
structure RxTables (rx : NMLldpRX) : Prop where
  queue : rx.neighborByExpiry.WellFormed rx.compare
  idx : ∀ item ∈ rx.neighborByExpiry.items, item.idx = some item.data
  perm : (rx.neighborByExpiry.items.toList.map PrioqItem.data).Perm rx.neighborById
  unique : KeyUnique rx.neighborId rx.neighborById
  linked : ∀ n, (rx.objects n).linked ↔ n ∈ rx.neighborById
  alloc : ∀ n ∈ rx.neighborById, n < rx.nextPtr
  ttl : ∀ n ∈ rx.neighborById, 0 < (rx.objects n).ttl

variable {rx rx' : NMLldpRX} {n : ℕ} {id : NMLldpNeighborID}

namespace RxTables

theorem nodup (h : RxTables rx) : rx.neighborById.Nodup := h.unique.of_map

theorem size_eq (h : RxTables rx) :
    rx.neighborByExpiry.items.size = rx.neighborById.length := by
  rw [← h.perm.length_eq, length_map, Array.length_toList]

theorem mem_items (h : RxTables rx) :
    (⟨n, some n⟩ : PrioqItem ℕ ℕ) ∈ rx.neighborByExpiry.items ↔ n ∈ rx.neighborById := by
  rw [← h.perm.mem_iff, mem_map]
  constructor
  · intro hmem
    exact ⟨_, Array.mem_toList_iff.mpr hmem, rfl⟩
  · rintro ⟨item, hitem, rfl⟩
    have hmem := Array.mem_toList_iff.mp hitem
    have hidx := h.idx item hmem
    cases item with
    | mk data idx =>
      obtain rfl : idx = some data := hidx
      exact hmem

theorem lookupId_of_mem (h : RxTables rx) (hn : n ∈ rx.neighborById) :
    rx.lookupId (rx.neighborId n) = some n := lookup_of_mem h.unique hn

theorem lookupId_iff (h : RxTables rx) :
    rx.lookupId id = some n ↔ n ∈ rx.neighborById ∧ rx.neighborId n = id :=
  lookup_eq_some_iff h.unique

end RxTables

/-- An object that keeps all but the time when it expires, and where it is linked. -/
structure SameNeighbor (a b : NMLldpNeighbor) : Prop where
  id : b.id = a.id
  raw : b.raw = a.raw
  ttl : b.ttl = a.ttl

theorem SameNeighbor.refl (a : NMLldpNeighbor) : SameNeighbor a a := ⟨rfl, rfl, rfl⟩

/-- What stays while the tables change: nothing but the tables does. -/
structure SameObjects (rx rx' : NMLldpRX) : Prop where
  config : rx'.config = rx.config
  nextPtr : rx'.nextPtr = rx.nextPtr
  objects : ∀ n, SameNeighbor (rx.objects n) (rx'.objects n)

theorem SameObjects.refl (rx : NMLldpRX) : SameObjects rx rx := ⟨rfl, rfl, fun _ => .refl _⟩

theorem SameObjects.trans {rx'' : NMLldpRX} (h : SameObjects rx rx') (h' : SameObjects rx' rx'') :
    SameObjects rx rx'' :=
  ⟨h'.config.trans h.config, h'.nextPtr.trans h.nextPtr, fun n =>
    ⟨(h'.objects n).id.trans (h.objects n).id, (h'.objects n).raw.trans (h.objects n).raw,
      (h'.objects n).ttl.trans (h.objects n).ttl⟩⟩

theorem SameObjects.neighborId (h : SameObjects rx rx') : rx'.neighborId = rx.neighborId :=
  funext fun n => (h.objects n).id

theorem frame_congr (hbyId : rx'.neighborById = rx.neighborById)
    (hsame : ∀ m ∈ rx.neighborById, SameNeighbor (rx.objects m) (rx'.objects m)) :
    rx'.frame = rx.frame := by
  funext id
  have hlookup : rx'.lookupId id = rx.lookupId id := by
    rw [NMLldpRX.lookupId, NMLldpRX.lookupId, hbyId]
    apply List.find?_congr
    intro m hm
    rw [NMLldpRX.neighborId, NMLldpRX.neighborId, (hsame m hm).id]
  rw [NMLldpRX.frame, NMLldpRX.frame, hlookup]
  apply Option.map_congr
  intro m hm
  exact (hsame m (mem_of_lookup hm)).raw

theorem SameObjects.frame (h : SameObjects rx rx')
    (hbyId : rx'.neighborById = rx.neighborById) : rx'.frame = rx.frame :=
  frame_congr hbyId fun m _ => h.objects m

/-! ## Unlinking -/

theorem erase_eq_eraseKey (h : RxTables rx) (hn : n ∈ rx.neighborById) :
    rx.neighborById.erase n = eraseKey rx.neighborId (rx.neighborId n) rx.neighborById := by
  rw [h.nodup.erase_eq_filter]
  apply filter_congr
  intro m hm
  have hiff : m = n ↔ rx.neighborId m = rx.neighborId n :=
    ⟨fun heq => heq ▸ rfl, fun heq => eq_of_key_eq h.unique hm hn heq⟩
  by_cases hmn : m = n
  · simp [hmn]
  · simp [hmn, mt hiff.mpr hmn]

/-- Unlinking removes a neighbor from both tables. -/
theorem unlink_spec (h : RxTables rx) (hn : n ∈ rx.neighborById) :
    RxTables (lldpNeighborUnlink rx n) ∧ SameObjects rx (lldpNeighborUnlink rx n) ∧
      (lldpNeighborUnlink rx n).neighborById = rx.neighborById.erase n ∧
      (lldpNeighborUnlink rx n).timerEventSource = rx.timerEventSource ∧
      ∀ m, ((lldpNeighborUnlink rx n).objects m).untilUsec = (rx.objects m).untilUsec := by
  have hlinked := (h.linked n).mpr hn
  have hremove := prioqRemove_spec h.queue (h.mem_items.mpr hn)
  unfold lldpNeighborUnlink
  rw [if_neg (not_not_intro hlinked), h.lookupId_of_mem hn]
  dsimp only
  rw [if_neg (not_not_intro rfl)]
  have hobjects : ∀ m, Function.update rx.objects n { rx.objects n with linked := false } m =
      if m = n then { rx.objects n with linked := false } else rx.objects m := fun m => by
    rw [Function.update_apply]
  have hsame : ∀ m, SameNeighbor (rx.objects m)
      (Function.update rx.objects n { rx.objects n with linked := false } m) := by
    intro m
    rw [hobjects]
    split_ifs with hm
    · subst hm
      exact ⟨rfl, rfl, rfl⟩
    · exact .refl _
  have huntil : ∀ m, (Function.update rx.objects n { rx.objects n with linked := false } m
      ).untilUsec = (rx.objects m).untilUsec := by
    intro m
    rw [hobjects]
    split_ifs with hm
    · rw [hm]
    · rfl
  have hcompare : lldpNeighborPrioqCompare
      (Function.update rx.objects n { rx.objects n with linked := false }) = rx.compare := by
    funext x y
    rw [lldpNeighborPrioqCompare, huntil, huntil]
    rfl
  have hsub : ∀ m ∈ rx.neighborById.erase n, m ∈ rx.neighborById := fun m hm =>
    mem_of_mem_erase hm
  refine ⟨⟨?_, ?_, ?_, ?_, ?_, ?_, ?_⟩, ⟨rfl, rfl, hsame⟩, rfl, rfl, huntil⟩
  · rw [NMLldpRX.compare, NMLldpRX.setObject, hcompare]
    exact hremove.1
  · intro item hitem
    apply h.idx item
    exact hremove.2.mem_iff.mpr (Array.mem_push.mpr (.inl hitem))
  · have hperm := (hremove.2.toList.map PrioqItem.data).symm.trans h.perm
    rw [Array.toList_push, map_append, map_singleton] at hperm
    have hcons := ((perm_append_singleton _ _).symm.trans hperm).trans (perm_cons_erase hn)
    exact hcons.cons_inv
  · have hid : ∀ m, NMLldpNeighbor.id
        (Function.update rx.objects n { rx.objects n with linked := false } m) =
          rx.neighborId m := fun m => (hsame m).id
    change ((rx.neighborById.erase n).map fun m => NMLldpNeighbor.id
      (Function.update rx.objects n { rx.objects n with linked := false } m)).Nodup
    simp only [hid]
    exact h.unique.sublist erase_sublist
  · intro m
    change (Function.update rx.objects n { rx.objects n with linked := false } m).linked = true ↔
      m ∈ rx.neighborById.erase n
    rw [hobjects, h.nodup.mem_erase_iff]
    split_ifs with hm
    · simp [hm]
    · simp [hm, h.linked m]
  · exact fun m hm => h.alloc m (hsub m hm)
  · intro m hm
    change 0 < NMLldpNeighbor.ttl
      (Function.update rx.objects n { rx.objects n with linked := false } m)
    rw [(hsame m).ttl]
    exact h.ttl m (hsub m hm)

theorem frame_unlink (h : RxTables rx) (hn : n ∈ rx.neighborById) :
    (lldpNeighborUnlink rx n).frame = Function.update rx.frame (rx.neighborId n) none := by
  obtain ⟨-, hsame, hbyId, -, -⟩ := unlink_spec h hn
  funext id
  rw [NMLldpRX.frame, NMLldpRX.lookupId, hsame.neighborId, hbyId, erase_eq_eraseKey h hn,
    lookup_eraseKey, Function.update_apply]
  split_ifs with hid
  · rfl
  · apply Option.map_congr
    intro m _
    exact (hsame.objects m).raw

/-! ## Making space -/

/-- The outcome of making space: neighbors are gone, and the callback was told. -/
structure SpaceMade (max : ℕ) (rx : NMLldpRX) (res : NMLldpRX × Callbacks) : Prop where
  tables : RxTables res.1
  same : SameObjects rx res.1
  frame : res.1.frame = res.2.foldl callbackEffect rx.frame
  subset : ∀ n ∈ res.1.neighborById, n ∈ rx.neighborById
  length_le : res.1.neighborById.length ≤ max
  timer : res.1.timerEventSource = rx.timerEventSource

theorem makeSpaceLoop_spec {max room : ℕ} {now : ℤ} (h : RxTables rx)
    (hroom : rx.neighborById.length ≤ room) :
    SpaceMade max rx (lldpRxMakeSpaceLoop false max now room rx) := by
  induction room generalizing rx with
  | zero => exact ⟨h, .refl rx, rfl, fun _ hn => hn, by simp only [lldpRxMakeSpaceLoop]; omega, rfl⟩
  | succ room ih =>
    unfold lldpRxMakeSpaceLoop
    cases hpeek : prioqPeek rx.neighborByExpiry with
    | none =>
      have hsize := prioqPeek_eq_none.mp hpeek
      rw [h.size_eq] at hsize
      exact ⟨h, .refl rx, rfl, fun _ hn => hn, by dsimp only; omega, rfl⟩
    | some n =>
      dsimp only
      rw [if_neg Bool.false_ne_true]
      by_cases hkeep : rx.neighborByExpiry.items.size ≤ max ∧ (rx.objects n).untilUsec > now
      · rw [if_pos hkeep]
        rw [h.size_eq] at hkeep
        exact ⟨h, .refl rx, rfl, fun _ hn => hn, hkeep.1, rfl⟩
      · rw [if_neg hkeep]
        have hn : n ∈ rx.neighborById := by
          obtain ⟨item, hitem, hdata⟩ := (prioqPeek_spec h.queue.ordered hpeek).1
          rw [← h.perm.mem_iff, ← hdata]
          exact mem_map_of_mem (Array.mem_toList_iff.mpr hitem)
        obtain ⟨htables, hsame, hbyId, htimer, -⟩ := unlink_spec h hn
        have hlength := length_erase_of_mem hn
        have hpos := length_pos_of_mem hn
        have hnext := ih htables (by rw [hbyId, hlength]; omega)
        refine ⟨hnext.tables, hsame.trans hnext.same, ?_, fun m hm => ?_, hnext.length_le,
          hnext.timer.trans htimer⟩
        · dsimp only
          rw [hnext.frame, frame_unlink h hn, foldl_cons, callbackEffect,
            (hsame.objects n).id]
          rfl
        · have hmem := hnext.subset m hm
          rw [hbyId] at hmem
          exact mem_of_mem_erase hmem

theorem makeSpace_spec (extra : ℕ) (now : ℤ) (h : RxTables rx) :
    SpaceMade (rx.config.neighborsMax - extra) rx (lldpRxMakeSpace rx false extra now) := by
  have hmax : (if ¬ false = true ∧ rx.config.neighborsMax > extra then
      rx.config.neighborsMax - extra else 0) = rx.config.neighborsMax - extra := by
    rw [ite_eq_left_iff, not_and]
    intro hle
    have := hle Bool.false_ne_true
    omega
  unfold lldpRxMakeSpace
  dsimp only
  rw [hmax]
  exact makeSpaceLoop_spec h h.size_eq.ge

/-! ## Starting the timer -/

theorem startTtl_same (n : NMLldpNeighbor) (now : ℤ) :
    SameNeighbor n (n.startTtl now) ∧ (n.startTtl now).linked = n.linked := by
  unfold NMLldpNeighbor.startTtl
  split_ifs <;> exact ⟨⟨rfl, rfl, rfl⟩, rfl⟩

theorem RxTables.congr (h : RxTables rx)
    (hqueue : rx'.neighborByExpiry.WellFormed rx'.compare)
    (hitems : rx'.neighborByExpiry.items.Perm rx.neighborByExpiry.items)
    (hbyId : rx'.neighborById = rx.neighborById) (hnext : rx.nextPtr ≤ rx'.nextPtr)
    (hsame : ∀ m ∈ rx.neighborById, SameNeighbor (rx.objects m) (rx'.objects m))
    (hlinked : ∀ m, (rx'.objects m).linked = (rx.objects m).linked) : RxTables rx' := by
  refine ⟨hqueue, fun item hitem => h.idx item (hitems.mem_iff.mp hitem), ?_, ?_, ?_, ?_, ?_⟩
  · rw [hbyId]
    exact (hitems.toList.map PrioqItem.data).trans h.perm
  · have hids : rx.neighborById.map rx'.neighborId = rx.neighborById.map rx.neighborId :=
      map_congr_left fun m hm => (hsame m hm).id
    rw [KeyUnique, hbyId, hids]
    exact h.unique
  · intro m
    rw [hlinked, hbyId]
    exact h.linked m
  · intro m hm
    rw [hbyId] at hm
    exact (h.alloc m hm).trans_le hnext
  · intro m hm
    rw [hbyId] at hm
    rw [(hsame m hm).ttl]
    exact h.ttl m hm

theorem startTtl_spec (h : RxTables rx) (hn : n ∈ rx.neighborById) (now : ℤ) :
    RxTables (lldpNeighborStartTtl rx n now) ∧ SameObjects rx (lldpNeighborStartTtl rx n now) ∧
      (lldpNeighborStartTtl rx n now).neighborById = rx.neighborById := by
  have hobject := startTtl_same (rx.objects n) now
  have hlinked := (h.linked n).mpr hn
  unfold lldpNeighborStartTtl
  dsimp only
  rw [hobject.2, if_pos hlinked]
  generalize hobj : (rx.objects n).startTtl now = object at hobject
  have hat : ∀ m, Function.update rx.objects n object m =
      if m = n then object else rx.objects m := fun m => Function.update_apply _ _ _ _
  have hsame : ∀ m, SameNeighbor (rx.objects m) (Function.update rx.objects n object m) := by
    intro m
    rw [hat]
    split_ifs with hm
    · exact hm ▸ hobject.1
    · exact .refl _
  have hcompare : ∀ x y, x ≠ n → y ≠ n →
      (rx.setObject n object).compare x y = rx.compare x y := by
    intro x y hx hy
    simp only [NMLldpRX.compare, lldpNeighborPrioqCompare, NMLldpRX.setObject, hat, hx, hy, if_false]
  have hdistinct : (rx.neighborByExpiry.items.toList.map PrioqItem.data).Nodup :=
    h.perm.nodup_iff.mpr h.nodup
  have hspec := prioqReshuffle_spec h.queue hdistinct (h.mem_items.mpr hn) hcompare
  refine ⟨h.congr hspec.1 hspec.2 rfl le_rfl (fun m _ => hsame m) ?_, ⟨rfl, rfl, hsame⟩, rfl⟩
  intro m
  change (Function.update rx.objects n object m).linked = _
  rw [hat]
  split_ifs with hm
  · rw [hm, hobject.2]
  · rfl

/-- A timer is pending if there are neighbors. -/
def TimerPending (rx : NMLldpRX) : Prop := rx.neighborById ≠ [] → rx.timerEventSource.isSome

theorem startTimer_spec (h : RxTables rx) (neighbor : Option ℕ)
    (hn : ∀ n ∈ neighbor, n ∈ rx.neighborById) (clock : Clock) :
    RxTables (lldpRxStartTimer rx neighbor clock) ∧
      SameObjects rx (lldpRxStartTimer rx neighbor clock) ∧
      (lldpRxStartTimer rx neighbor clock).neighborById = rx.neighborById ∧
      TimerPending (lldpRxStartTimer rx neighbor clock) := by
  obtain ⟨rx₁, hrx, htables, hsame, hbyId⟩ : ∃ rx₁, (neighbor.elim rx fun n =>
      lldpNeighborStartTtl rx n clock.ttlUsec) = rx₁ ∧ RxTables rx₁ ∧ SameObjects rx rx₁ ∧
      rx₁.neighborById = rx.neighborById := by
    cases neighbor with
    | none => exact ⟨rx, rfl, h, .refl rx, rfl⟩
    | some n => exact ⟨_, rfl, startTtl_spec h (hn n rfl) _⟩
  have htimer : ∀ t, RxTables { rx₁ with timerEventSource := t } ∧
      SameObjects rx { rx₁ with timerEventSource := t } := fun t =>
    ⟨⟨htables.queue, htables.idx, htables.perm, htables.unique, htables.linked, htables.alloc,
      htables.ttl⟩, ⟨hsame.config, hsame.nextPtr, hsame.objects⟩⟩
  unfold lldpRxStartTimer
  dsimp only
  rw [hrx]
  cases hpeek : prioqPeek rx₁.neighborByExpiry with
  | none =>
    have hsize := prioqPeek_eq_none.mp hpeek
    rw [htables.size_eq] at hsize
    refine ⟨(htimer _).1, (htimer _).2, hbyId, fun hne => ?_⟩
    exact absurd (length_eq_zero_iff.mp hsize) hne
  | some n => exact ⟨(htimer _).1, (htimer _).2, hbyId, fun _ => rfl⟩

/-! ## Adding a neighbor -/

theorem lookupId_eq_none_iff : rx.lookupId id = none ↔ ∀ m ∈ rx.neighborById, rx.neighborId m ≠ id :=
  lookup_eq_none_iff

/-- A neighbor with a new id is put into both tables. -/
theorem link_spec (h : RxTables rx) (hnone : rx.lookupId (rx.neighborId n) = none)
    (halloc : n < rx.nextPtr) (httl : 0 < (rx.objects n).ttl) {rx' : NMLldpRX}
    (hrx' : rx' = NMLldpRX.setObject { rx with
      neighborById := put rx.neighborId n rx.neighborById
      neighborByExpiry := prioqPut rx.compare rx.neighborByExpiry n (some n) } n
        { rx.objects n with linked := true }) :
    RxTables rx' ∧ SameObjects rx rx' ∧ rx'.neighborById = rx.neighborById ++ [n] := by
  have hnew := lookupId_eq_none_iff.mp hnone
  have hn : n ∉ rx.neighborById := fun hn => hnew n hn rfl
  have hput : put rx.neighborId n rx.neighborById = rx.neighborById ++ [n] := by
    rw [put, eraseKey, filter_eq_self.mpr]
    intro m hm
    exact decide_eq_true (hnew m hm)
  have hcell : rx.neighborByExpiry.cells n = none := by
    apply cells_eq_none h.queue.indexed
    intro item hitem hidx
    rw [h.idx item hitem, Option.some.injEq] at hidx
    apply hn
    rw [← h.perm.mem_iff, ← hidx]
    exact mem_map_of_mem (Array.mem_toList_iff.mpr hitem)
  have hspec := prioqPut_spec h.queue n (some n) (by simp [hcell])
  have hat : ∀ m, rx'.objects m =
      if m = n then { rx.objects n with linked := true } else rx.objects m := fun m => by
    rw [hrx']
    exact Function.update_apply _ _ _ _
  have hsame : ∀ m, SameNeighbor (rx.objects m) (rx'.objects m) := by
    intro m
    rw [hat]
    split_ifs with hm
    · subst hm
      exact ⟨rfl, rfl, rfl⟩
    · exact .refl _
  have hbyId : rx'.neighborById = rx.neighborById ++ [n] := by rw [← hput, hrx']; rfl
  have hqueue : rx'.neighborByExpiry = prioqPut rx.compare rx.neighborByExpiry n (some n) := by
    rw [hrx']
    rfl
  have hcompare : rx'.compare = rx.compare := by
    funext x y
    simp only [NMLldpRX.compare, lldpNeighborPrioqCompare, hat]
    split_ifs with hx hy hy <;> simp [*]
  have hids : rx'.neighborId = rx.neighborId := funext fun m => (hsame m).id
  refine ⟨⟨?_, ?_, ?_, ?_, ?_, ?_, ?_⟩, ⟨by rw [hrx']; rfl, by rw [hrx']; rfl, hsame⟩, hbyId⟩
  · rw [hqueue, hcompare]
    exact hspec.1
  · intro item hitem
    rw [hqueue] at hitem
    rcases Array.mem_push.mp (hspec.2.mem_iff.mp hitem) with hold | rfl
    · exact h.idx item hold
    · rfl
  · rw [hqueue, hbyId]
    have hperm := hspec.2.toList.map PrioqItem.data
    rw [Array.toList_push, map_append, map_singleton] at hperm
    exact hperm.trans (h.perm.append_right _)
  · rw [hids, hbyId]
    exact h.unique.append_singleton hnew
  · intro m
    rw [hat, hbyId, mem_append, mem_singleton]
    split_ifs with hm
    · simp [hm]
    · simp [hm, h.linked m]
  · intro m hm
    rw [hbyId, mem_append, mem_singleton] at hm
    have hnext : rx'.nextPtr = rx.nextPtr := by rw [hrx']; rfl
    rw [hnext]
    rcases hm with hm | rfl
    · exact h.alloc m hm
    · exact halloc
  · intro m hm
    rw [hbyId, mem_append, mem_singleton] at hm
    rw [(hsame m).ttl]
    rcases hm with hm | rfl
    · exact h.ttl m hm
    · exact httl

theorem frame_append {bs : NMLldpRX} (hsame : SameObjects rx bs)
    (hbyId : bs.neighborById = rx.neighborById ++ [n])
    (hnone : rx.lookupId (rx.neighborId n) = none) :
    bs.frame = Function.update rx.frame (rx.neighborId n) (some (rx.objects n).raw) := by
  funext id
  rw [NMLldpRX.frame, NMLldpRX.lookupId, hsame.neighborId, hbyId, lookup_append, Function.update_apply]
  split_ifs with hid
  · subst hid
    have hlookup : lookup rx.neighborId (rx.neighborId n) rx.neighborById = none := hnone
    rw [hlookup, Option.none_or, lookup_cons, if_pos rfl, Option.map_some, (hsame.objects n).raw]
  · rw [lookup_cons, if_neg (Ne.symm hid), lookup_nil, Option.or_none]
    apply Option.map_congr
    intro m _
    exact (hsame.objects m).raw

/-- The outcome of adding a neighbor with a new id, before the callback for it. -/
structure AddedNew (rx : NMLldpRX) (n : ℕ) (res : NMLldpRX × Callbacks) : Prop where
  tables : RxTables res.1
  same : SameObjects rx res.1
  frame : res.1.frame = Function.update (res.2.foldl callbackEffect rx.frame) (rx.neighborId n)
    (some (rx.objects n).raw)
  length_le : res.1.neighborById.length ≤ rx.config.neighborsMax
  timer : TimerPending res.1

theorem addNew_spec (h : RxTables rx) (hmax : 0 < rx.config.neighborsMax)
    (hnone : rx.lookupId (rx.neighborId n) = none) (halloc : n < rx.nextPtr)
    (httl : 0 < (rx.objects n).ttl) (clock : Clock) :
    AddedNew rx n (lldpRxAddNew rx n clock) := by
  have hspace := makeSpace_spec 1 clock.spaceUsec h
  unfold lldpRxAddNew
  generalize lldpRxMakeSpace rx false 1 clock.spaceUsec = res at hspace
  obtain ⟨rx₁, calls⟩ := res
  have hnone₁ : rx₁.lookupId (rx₁.neighborId n) = none := by
    rw [hspace.same.neighborId]
    apply lookupId_eq_none_iff.mpr
    intro m hm
    rw [hspace.same.neighborId]
    exact lookupId_eq_none_iff.mp hnone m (hspace.subset m hm)
  obtain ⟨htables, hsame, hbyId⟩ := link_spec hspace.tables hnone₁
    (by rw [hspace.same.nextPtr]; exact halloc) (by rw [(hspace.same.objects n).ttl]; exact httl) rfl
  have hframe := frame_append hsame hbyId hnone₁
  obtain ⟨htables', hsame', hbyId', htimer⟩ := startTimer_spec htables (some n)
    (fun m hm => by rw [← Option.some.inj hm, hbyId]; simp) clock
  refine ⟨htables', (hspace.same.trans hsame).trans hsame', ?_, ?_, htimer⟩
  · exact (hsame'.frame hbyId').trans (by
      rw [hframe, hspace.frame, hspace.same.neighborId, (hspace.same.objects n).raw])
  · have hle : rx₁.neighborById.length ≤ rx.config.neighborsMax - 1 := hspace.length_le
    have hlength := congrArg List.length (hbyId'.trans hbyId)
    rw [length_append, length_singleton] at hlength
    change List.length _ = rx₁.neighborById.length + 1 at hlength
    exact hlength.trans_le (by omega)

/-- The receiver between two events. -/
structure RxSound (rx : NMLldpRX) : Prop where
  tables : RxTables rx
  length_le : rx.neighborById.length ≤ rx.config.neighborsMax
  timer : TimerPending rx
  max_pos : 0 < rx.config.neighborsMax

theorem ttl_of_keep {object : NMLldpNeighbor} (h : lldpRxKeepNeighbor rx object = true) :
    0 < object.ttl := by
  unfold lldpRxKeepNeighbor at h
  by_cases httl : object.ttl ≤ 0
  · rw [if_pos httl] at h
    cases h
  · exact UInt16.not_le.mp httl

theorem foldl_callbackEffect_congr (calls : Callbacks) {v w : NMLldpNeighborID → Option Bytes}
    (h : v id = w id) : calls.foldl callbackEffect v id = calls.foldl callbackEffect w id := by
  induction calls generalizing v w with
  | nil => exact h
  | cons call calls ih =>
    apply ih
    obtain ⟨event, n⟩ := call
    cases event <;> simp only [callbackEffect, Function.update_apply, h]

theorem callbackEffect_new {frames : NMLldpNeighborID → Option Bytes} {object : NMLldpNeighbor}
    {event : NMLldpRXEvent} (hevent : event ≠ .removed) :
    callbackEffect frames (event, object) = Function.update frames object.id (some object.raw) := by
  cases event with
  | removed => exact absurd rfl hevent
  | added => rfl
  | updated => rfl
  | refreshed => rfl

/-- A frame that was received again starts the TTL again and nothing else. -/
theorem refreshed_spec (h : RxSound rx) {old : ℕ} (hold : old ∈ rx.neighborById)
    {timestampUsec : ℤ} (clock : Clock) {rx' : NMLldpRX}
    (hrx' : rx' = lldpRxStartTimer (rx.setObject old
      { rx.objects old with timestampUsec := timestampUsec }) (some old) clock) :
    RxSound rx' ∧
      rx'.frame = [(NMLldpRXEvent.refreshed, rx'.objects old)].foldl callbackEffect rx.frame := by
  generalize hrx₁ : rx.setObject old { rx.objects old with timestampUsec := timestampUsec } = rx₁
    at hrx'
  have hat : ∀ m, rx₁.objects m = if m = old then
      { rx.objects old with timestampUsec := timestampUsec } else rx.objects m := fun m => by
    rw [← hrx₁]
    exact Function.update_apply _ _ _ _
  have hobjects : ∀ m, SameNeighbor (rx.objects m) (rx₁.objects m) ∧
      (rx₁.objects m).linked = (rx.objects m).linked ∧
      (rx₁.objects m).untilUsec = (rx.objects m).untilUsec := by
    intro m
    rw [hat]
    split_ifs with hm
    · subst hm
      exact ⟨⟨rfl, rfl, rfl⟩, rfl, rfl⟩
    · exact ⟨.refl _, rfl, rfl⟩
  have hsame₁ : SameObjects rx rx₁ :=
    ⟨by rw [← hrx₁]; rfl, by rw [← hrx₁]; rfl, fun m => (hobjects m).1⟩
  have hcompare : rx₁.compare = rx.compare := by
    funext x y
    simp only [NMLldpRX.compare, lldpNeighborPrioqCompare, hobjects]
  have hqueue : rx₁.neighborByExpiry = rx.neighborByExpiry := by rw [← hrx₁]; rfl
  have hbyId₁ : rx₁.neighborById = rx.neighborById := by rw [← hrx₁]; rfl
  have htables₁ : RxTables rx₁ := by
    apply h.tables.congr _ _ hbyId₁ hsame₁.nextPtr.ge (fun m _ => (hobjects m).1)
      fun m => (hobjects m).2.1
    · rw [hqueue, hcompare]
      exact h.tables.queue
    · rw [hqueue]
  obtain ⟨htables, hsame, hbyId, htimer⟩ := startTimer_spec htables₁ (some old)
    (fun m hm => by rw [← Option.some.inj hm, hbyId₁]; exact hold) clock
  rw [← hrx'] at htables hsame hbyId htimer
  have hsame' := hsame₁.trans hsame
  have hbyId' := hbyId.trans hbyId₁
  refine ⟨⟨htables, ?_, htimer, ?_⟩, ?_⟩
  · rw [hbyId', hsame'.config]
    exact h.length_le
  · rw [hsame'.config]
    exact h.max_pos
  · rw [hsame'.frame hbyId', foldl_cons, foldl_nil, callbackEffect_new (by decide),
      (hsame'.objects old).id, (hsame'.objects old).raw]
    symm
    apply Function.update_eq_self_iff.mpr
    have hlookup := h.tables.lookupId_of_mem hold
    rw [NMLldpRX.neighborId] at hlookup
    rw [NMLldpRX.frame, hlookup, Option.map_some]

/-- Adding a neighbor keeps the tables, and the callbacks say how the frames change. -/
theorem addNeighbor_spec (h : RxSound rx) (halloc : n < rx.nextPtr)
    (clock : Clock) :
    RxSound (lldpRxAddNeighbor rx n clock).1 ∧
      (lldpRxAddNeighbor rx n clock).1.frame =
        (lldpRxAddNeighbor rx n clock).2.foldl callbackEffect rx.frame := by
  unfold lldpRxAddNeighbor
  cases hlookup : rx.lookupId (rx.neighborId n) with
  | none =>
    dsimp only
    cases hkeep : lldpRxKeepNeighbor rx (rx.objects n) with
    | false => exact ⟨h, rfl⟩
    | true =>
      have hadded := addNew_spec h.tables h.max_pos hlookup halloc (ttl_of_keep hkeep) clock
      rw [if_neg (by simp)]
      generalize lldpRxAddNew rx n clock = res at hadded
      obtain ⟨rx', calls⟩ := res
      refine ⟨⟨hadded.tables, ?_, hadded.timer, ?_⟩, ?_⟩
      · exact hadded.length_le.trans_eq (by rw [hadded.same.config])
      · exact h.max_pos.trans_eq (by rw [hadded.same.config])
      · dsimp only
        rw [foldl_append, hadded.frame, foldl_cons, foldl_nil,
          callbackEffect_new (by decide), (hadded.same.objects n).id, (hadded.same.objects n).raw]
        rfl
  | some old =>
    obtain ⟨hold, hid⟩ := h.tables.lookupId_iff.mp hlookup
    obtain ⟨htables, hsame, hbyId, htimer, -⟩ := unlink_spec h.tables hold
    dsimp only
    cases hkeep : lldpRxKeepNeighbor rx (rx.objects n) with
    | false =>
      rw [if_pos (by simp)]
      have hlength := length_erase_of_mem hold
      refine ⟨⟨htables, ?_, fun hne => ?_, ?_⟩, ?_⟩
      · rw [hbyId, hsame.config, hlength]
        have := h.length_le
        omega
      · rw [htimer]
        exact h.timer (ne_nil_of_mem hold)
      · exact h.max_pos.trans_eq (by rw [hsame.config])
      · rw [frame_unlink h.tables hold, foldl_cons, foldl_nil, callbackEffect,
          (hsame.objects old).id]
        rfl
    | true =>
      rw [if_neg (by simp)]
      by_cases hraw : (rx.objects n).raw = (rx.objects old).raw
      · rw [if_pos hraw]
        exact refreshed_spec h hold clock rfl
      · rw [if_neg hraw]
        have hnone : (lldpNeighborUnlink rx old).lookupId
            ((lldpNeighborUnlink rx old).neighborId n) = none := by
          rw [NMLldpRX.lookupId, hsame.neighborId, hbyId, erase_eq_eraseKey h.tables hold, hid,
            lookup_eraseKey_self]
        have hadded := addNew_spec htables (h.max_pos.trans_eq (by rw [hsame.config])) hnone
          (halloc.trans_eq hsame.nextPtr.symm)
          (by rw [(hsame.objects n).ttl]; exact ttl_of_keep hkeep) clock
        have hframe := frame_unlink h.tables hold
        generalize lldpNeighborUnlink rx old = rx₁ at hadded hframe hsame
        generalize lldpRxAddNew rx₁ n clock = res at hadded
        obtain ⟨rx', calls⟩ := res
        have hsame' := hsame.trans hadded.same
        refine ⟨⟨hadded.tables, ?_, hadded.timer, ?_⟩, ?_⟩
        · exact hadded.length_le.trans_eq (by rw [hadded.same.config])
        · exact h.max_pos.trans_eq (by rw [hsame'.config])
        · dsimp only
          rw [foldl_append, hadded.frame, foldl_cons, foldl_nil,
            callbackEffect_new (by decide), (hsame'.objects n).id, (hsame'.objects n).raw,
            hsame.neighborId, (hsame.objects n).raw]
          -- the frame of the old neighbor is overwritten whether it was unlinked before or not
          funext id
          change Function.update _ (rx.neighborId n) _ id = Function.update _ (rx.neighborId n) _ id
          rw [Function.update_apply, Function.update_apply]
          split_ifs with hid'
          · rfl
          · apply foldl_callbackEffect_congr
            rw [hframe, hid, Function.update_apply, if_neg hid']

/-! ## The events -/

/-- A frame is received. -/
theorem receiveDatagram_spec (h : RxSound rx) (raw : Bytes) (timestampUsec : ℤ) (clock : Clock) :
    RxSound (lldpRxReceiveDatagram rx raw timestampUsec clock).1 ∧
      (lldpRxReceiveDatagram rx raw timestampUsec clock).1.frame =
        (lldpRxReceiveDatagram rx raw timestampUsec clock).2.foldl callbackEffect rx.frame := by
  unfold lldpRxReceiveDatagram
  cases hparse : lldpNeighborParse raw timestampUsec with
  | none => exact ⟨h, rfl⟩
  | some object =>
    have hfresh : rx.nextPtr ∉ rx.neighborById := fun hmem =>
      absurd (h.tables.alloc _ hmem) (lt_irrefl _)
    have hlinked := (lldpNeighborParse_spec hparse).2
    have hat : ∀ m ∈ rx.neighborById,
        Function.update rx.objects rx.nextPtr object m = rx.objects m := by
      intro m hm
      rw [Function.update_of_ne]
      rintro rfl
      exact hfresh hm
    dsimp only
    generalize hrx₁ : { rx.setObject rx.nextPtr object with nextPtr := rx.nextPtr + 1 } = rx₁
    have hobjects : rx₁.objects = Function.update rx.objects rx.nextPtr object := by rw [← hrx₁]; rfl
    have hbyId : rx₁.neighborById = rx.neighborById := by rw [← hrx₁]; rfl
    have hnext : rx₁.nextPtr = rx.nextPtr + 1 := by rw [← hrx₁]
    have hqueue : rx₁.neighborByExpiry = rx.neighborByExpiry := by rw [← hrx₁]; rfl
    have hconfig : rx₁.config = rx.config := by rw [← hrx₁]; rfl
    have hmem : ∀ x ∈ rx.neighborByExpiry.items, x.data ∈ rx.neighborById := fun x hx =>
      h.tables.perm.mem_iff.mp (mem_map_of_mem (Array.mem_toList_iff.mpr hx))
    have htables : RxTables rx₁ := by
      apply h.tables.congr _ _ hbyId (by omega)
      · intro m hm
        rw [hobjects, hat m hm]
        exact .refl _
      · intro m
        rw [hobjects, Function.update_apply]
        split_ifs with hm
        · rw [hlinked, hm]
          exact (Bool.eq_false_iff.mpr fun htrue => hfresh ((h.tables.linked _).mp htrue)).symm
        · rfl
      · rw [hqueue]
        apply h.tables.queue.congr
        intro x hx y hy
        simp only [NMLldpRX.compare, lldpNeighborPrioqCompare, hobjects, hat _ (hmem x hx),
          hat _ (hmem y hy)]
      · rw [hqueue]
    have hsound : RxSound rx₁ := by
      refine ⟨htables, ?_, fun hne => ?_, ?_⟩
      · rw [hbyId, hconfig]
        exact h.length_le
      · have htimer : rx₁.timerEventSource = rx.timerEventSource := by rw [← hrx₁]; rfl
        rw [htimer]
        exact h.timer (hbyId ▸ hne)
      · rw [hconfig]
        exact h.max_pos
    have hframe : rx₁.frame = rx.frame := by
      apply frame_congr hbyId
      intro m hm
      rw [hobjects, hat m hm]
      exact .refl _
    have hspec := addNeighbor_spec hsound
      (by rw [hnext]; exact Nat.lt_succ_self _) clock
    rw [hframe] at hspec
    exact hspec

theorem onTimerEvent_spec (h : RxSound rx) (clock : Clock) :
    RxSound (onTimerEvent rx clock).1 ∧
      (onTimerEvent rx clock).1.frame =
        (onTimerEvent rx clock).2.foldl callbackEffect rx.frame := by
  have hspace := makeSpace_spec 0 clock.spaceUsec h.tables
  unfold onTimerEvent
  generalize lldpRxMakeSpace rx false 0 clock.spaceUsec = res at hspace
  obtain ⟨rx₁, calls⟩ := res
  obtain ⟨htables, hsame, hbyId, htimer⟩ := startTimer_spec hspace.tables none (by simp) clock
  have hsame' := hspace.same.trans hsame
  refine ⟨⟨htables, ?_, htimer, ?_⟩, (hsame.frame hbyId).trans hspace.frame⟩
  · rw [hsame'.config]
    exact (congrArg List.length hbyId).trans_le hspace.length_le
  · exact h.max_pos.trans_eq (by rw [hsame'.config])

theorem lldpRxNew_spec (config : NMLldpRXConfig) (objects : ℕ → NMLldpNeighbor) :
    RxSound (lldpRxNew config objects) ∧ (lldpRxNew config objects).frame = fun _ => none := by
  refine ⟨⟨⟨⟨?_, ?_⟩, ?_, ?_, ?_, ?_, ?_, ?_⟩, ?_, ?_, ?_⟩, rfl⟩
  · intro c _ x hx
    cases hx
  · intro c i
    simp [lldpRxNew, NMPrioq.idxAt]
  · intro item hitem
    exact absurd hitem (Array.not_mem_empty item)
  · exact .nil
  · exact nodup_nil
  · intro n
    simp [lldpRxNew]
  · intro n hn
    cases hn
  · intro n hn
    cases hn
  · exact Nat.zero_le _
  · exact fun hne => absurd rfl hne
  · simp only [lldpRxNew, lldpDefaultNeighborsMax]
    split_ifs <;> omega

theorem RxTables.head_until (h : RxTables rx) {n : ℕ} (hn : prioqPeek rx.neighborByExpiry = some n) :
    n ∈ rx.neighborById ∧
      ∀ m ∈ rx.neighborById, (rx.objects n).untilUsec ≤ (rx.objects m).untilUsec := by
  obtain ⟨⟨item, hitem, hdata⟩, hmin⟩ := prioqPeek_spec h.queue.ordered hn
  refine ⟨?_, fun m hm => ?_⟩
  · rw [← h.perm.mem_iff, ← hdata]
    exact mem_map_of_mem (Array.mem_toList_iff.mpr hitem)
  · have hle := hmin _ (h.mem_items.mpr hm)
    exact Int.isLE_compare.mp hle

end NetworkManager.Lldp
