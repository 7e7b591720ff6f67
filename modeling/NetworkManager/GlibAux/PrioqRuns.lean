import NetworkManager.GlibAux.Prioq
import NetworkManager.Lib.Runs

/-!
# Runs of a priority queue

The callers put, remove, update and take out elements in any order and change the priority of one
element at a time. What they put and have not removed is kept beside the queue, to compare the
queue with.
-/

namespace NetworkManager.GlibAux

open Lib List

/-- A call, with the priority that the caller has set for the element. -/
inductive PrioqOp (δ ι π : Type*) where
  | put (data : δ) (idx : Option ι) (prio : π)
  | remove (data : δ) (idx : Option ι)
  | update (data : δ) (idx : Option ι) (queued : Bool) (prio : π)
  | reshuffle (data : δ) (idx : Option ι) (prio : π)
  | pop
  deriving DecidableEq

/-- A queue with the priorities of all elements, and what was put and not yet removed. -/
structure PrioqState (δ ι π : Type*) where
  q : NMPrioq δ ι
  prio : δ → π
  live : List (PrioqItem δ ι)

variable {δ ι π : Type*}

def comparePrio (cmp : π → π → Ordering) (prio : δ → π) (x y : δ) : Ordering :=
  cmp (prio x) (prio y)

instance (cmp : π → π → Ordering) [Std.TransCmp cmp] (prio : δ → π) :
    Std.TransCmp (comparePrio cmp prio) where
  eq_swap {x y} := by
    unfold comparePrio
    exact Std.OrientedCmp.eq_swap
  isLE_trans {x y z} := by
    unfold comparePrio
    exact Std.TransCmp.isLE_trans

/-- What `nm_prioq_pop()` returns, so many times or until there is nothing left. -/
def prioqPopAll [DecidableEq ι] (cmp : δ → δ → Ordering) : ℕ → NMPrioq δ ι → List δ
  | 0, _ => []
  | n + 1, q =>
    match prioqPop cmp q with
    | (_, none) => []
    | (q, some d) => d :: prioqPopAll cmp n q

theorem prioqPopAll_spec [DecidableEq ι] {cmp : δ → δ → Ordering} [Std.TransCmp cmp]
    {q : NMPrioq δ ι} (h : q.WellFormed cmp) :
    (prioqPopAll cmp q.items.size q).Pairwise (fun x y => (cmp x y).isLE) ∧
      (prioqPopAll cmp q.items.size q).Perm (q.items.toList.map PrioqItem.data) := by
  generalize hn : q.items.size = n
  induction n generalizing q with
  | zero => simp [prioqPopAll, eq_nil_of_length_eq_zero (l := q.items.toList) hn]
  | succ n ih =>
    obtain ⟨item, hitem⟩ : ∃ item, q.items[0]? = some item :=
      ⟨_, Array.getElem?_eq_getElem (hn ▸ n.succ_pos)⟩
    obtain ⟨hrest, hperm⟩ := removeItem_spec h hitem
    have hsize : (removeItem cmp q 0).items.size = n := by simpa [hn] using hperm.size_eq.symm
    have hlist := hperm.toList
    rw [Array.toList_push] at hlist
    obtain ⟨hsorted, hpopped⟩ := ih hrest hsize
    have hall := (hpopped.cons item.data).trans
      ((hlist.trans (perm_append_singleton _ _)).map PrioqItem.data).symm
    simp only [prioqPopAll, prioqPop, hitem]
    refine ⟨pairwise_cons.mpr ⟨fun d hd => ?_, hsorted⟩, hall⟩
    have hpeek : prioqPeek q = some item.data := by rw [prioqPeek, hitem, Option.map_some]
    obtain ⟨item', hitem', rfl⟩ := mem_map.mp (hall.mem_iff.mp (mem_cons_of_mem _ hd))
    exact (prioqPeek_spec h.ordered hpeek).2 item' (Array.mem_toList_iff.mp hitem')

namespace PrioqState

/-- `nm_prioq_init()`: nothing is queued, and every index is `NM_PRIOQ_IDX_NULL`. -/
def init (prio : δ → π) : PrioqState δ ι π := ⟨⟨#[], fun _ => none⟩, prio, []⟩

def IsLive (s : PrioqState δ ι π) (d : δ) : Prop := ∃ item ∈ s.live, item.data = d

/-- An index pointer that no element has which was put and not yet removed. -/
def IdxFree (s : PrioqState δ ι π) (c : ι) : Prop := ∀ item ∈ s.live, item.idx ≠ some c

/-- An index pointer, where there is one, is that of the element, or of no other one while the
element is not queued. -/
def IdxOf (s : PrioqState δ ι π) (d : δ) (idx : Option ι) : Prop :=
  ∀ c ∈ idx, ⟨d, some c⟩ ∈ s.live ∨ ¬ s.IsLive d ∧ s.IdxFree c

/-- What a caller takes care of. -/
def Legal (s : PrioqState δ ι π) : PrioqOp δ ι π → Prop
  | .put d idx _ => ¬ s.IsLive d ∧ ∀ c ∈ idx, s.IdxFree c
  | .remove d idx | .update d idx _ _ | .reshuffle d idx _ => s.IdxOf d idx
  | .pop => True

variable [DecidableEq δ] [DecidableEq ι]

def without (live : List (PrioqItem δ ι)) (d : δ) : List (PrioqItem δ ι) :=
  live.filter fun item => item.data ≠ d

instance (s : PrioqState δ ι π) (d : δ) : Decidable (s.IsLive d) :=
  inferInstanceAs (Decidable (∃ item ∈ s.live, item.data = d))

/-- One call. -/
def step (cmp : π → π → Ordering) (s : PrioqState δ ι π) : PrioqOp δ ι π → PrioqState δ ι π
  | .put d idx p =>
    let prio := Function.update s.prio d p
    ⟨prioqPut (comparePrio cmp prio) s.q d idx, prio, ⟨d, idx⟩ :: s.live⟩
  | .remove d idx =>
    ⟨prioqRemove (comparePrio cmp s.prio) s.q d idx, s.prio, without s.live d⟩
  | .update d idx queued p =>
    let prio := Function.update s.prio d p
    ⟨prioqUpdate (comparePrio cmp prio) s.q d idx queued, prio,
      if !queued then without s.live d else if s.IsLive d then s.live else ⟨d, idx⟩ :: s.live⟩
  | .reshuffle d idx p =>
    let prio := Function.update s.prio d p
    ⟨prioqReshuffle (comparePrio cmp prio) s.q d idx, prio, s.live⟩
  | .pop =>
    let (q, d) := prioqPop (comparePrio cmp s.prio) s.q
    ⟨q, s.prio, d.elim s.live (without s.live)⟩

omit [DecidableEq δ] in
/-- What a queue promises. -/
structure Sound (cmp : π → π → Ordering) (s : PrioqState δ ι π) : Prop where
  heap : ∀ c, 0 < c → ∀ x ∈ s.q.items[heapParent c]?, ∀ y ∈ s.q.items[c]?,
    (cmp (s.prio x.data) (s.prio y.data)).isLE
  items : s.q.items.toList.Perm s.live
  distinct : (s.live.map PrioqItem.data).Nodup
  queuedIdx : ∀ i, ∀ item ∈ s.q.items[i]?, ∀ c ∈ item.idx, s.q.cells c = some i
  unqueuedIdx : ∀ c, s.IdxFree c → s.q.cells c = none
  peek : ∀ d ∈ prioqPeek s.q,
    s.IsLive d ∧ ∀ item ∈ s.live, (cmp (s.prio d) (s.prio item.data)).isLE
  peekNone : prioqPeek s.q = none ↔ s.live = []
  pop : (prioqPop (comparePrio cmp s.prio) s.q).2 = prioqPeek s.q

/-! ## What the calls keep -/

omit [DecidableEq δ] [DecidableEq ι] in
structure Inv (cmp : π → π → Ordering) (s : PrioqState δ ι π) : Prop where
  wellFormed : s.q.WellFormed (comparePrio cmp s.prio)
  items : s.q.items.toList.Perm s.live
  distinct : (s.live.map PrioqItem.data).Nodup

variable {cmp : π → π → Ordering} [Std.TransCmp cmp] {s : PrioqState δ ι π} {d : δ} {idx : Option ι}
  {item : PrioqItem δ ι} {i : ℕ}

omit [DecidableEq δ] [DecidableEq ι] [Std.TransCmp cmp] in
theorem Inv.mem_iff (h : s.Inv cmp) : item ∈ s.q.items ↔ item ∈ s.live := by
  rw [← Array.mem_toList_iff]
  exact h.items.mem_iff

omit [DecidableEq δ] [DecidableEq ι] [Std.TransCmp cmp] in
theorem Inv.cells_eq_none (h : s.Inv cmp) {c : ι} (hc : s.IdxFree c) : s.q.cells c = none :=
  GlibAux.cells_eq_none h.wellFormed.indexed fun item hitem => hc item (h.mem_iff.mp hitem)

omit [DecidableEq δ] [DecidableEq ι] [Std.TransCmp cmp] in
theorem Inv.nodup_items (h : s.Inv cmp) : (s.q.items.toList.map PrioqItem.data).Nodup :=
  (h.items.map _).nodup_iff.mpr h.distinct

omit [DecidableEq ι] [Std.TransCmp cmp] in
theorem Inv.findItem_cases (h : s.Inv cmp) (hidx : s.IdxOf d idx) :
    (∃ i item, s.q.items[i]? = some item ∧ item.data = d ∧ findItem s.q d idx = some i) ∨
      (¬ s.IsLive d ∧ findItem s.q d idx = none) := by
  cases idx with
  | none =>
    cases hfind : findItem s.q d none with
    | some i =>
      obtain ⟨hsize, hd, -⟩ := Array.findIdx?_eq_some_iff_getElem.mp hfind
      exact .inl ⟨i, _, Array.getElem?_eq_getElem hsize, by simpa using hd, rfl⟩
    | none =>
      right
      refine ⟨?_, rfl⟩
      rintro ⟨item, hitem, hd⟩
      have hno := Array.findIdx?_eq_none_iff.mp hfind item (h.mem_iff.mpr hitem)
      simp [hd] at hno
  | some c =>
    rcases hidx c rfl with hmem | ⟨hlive, hfree⟩
    · obtain ⟨i, hi, hfind⟩ := findItem_of_mem h.wellFormed.indexed (h.mem_iff.mpr hmem)
      exact .inl ⟨i, _, hi, rfl, hfind⟩
    · right
      refine ⟨hlive, ?_⟩
      rw [findItem, h.cells_eq_none hfree, Option.bind_none]

omit [DecidableEq ι] in
theorem perm_without {l l' : List (PrioqItem δ ι)} (hperm : l.Perm (item :: l'))
    (hnodup : (l.map PrioqItem.data).Nodup) : l'.Perm (without l item.data) := by
  have hne := (hperm.map PrioqItem.data).nodup_iff.mp hnodup
  rw [map_cons, nodup_cons] at hne
  have hfilter := hperm.filter fun x => x.data ≠ item.data
  have hkeep : l'.filter (fun x => x.data ≠ item.data) = l' := by
    rw [filter_eq_self]
    intro x hx
    have hxd : x.data ≠ item.data := fun heq => hne.1 (heq ▸ mem_map_of_mem hx)
    simpa using hxd
  rw [filter_cons_of_neg (by simp), hkeep] at hfilter
  exact hfilter.symm

omit [DecidableEq ι] in
theorem without_of_not_live (h : ¬ s.IsLive d) : without s.live d = s.live := by
  rw [without, filter_eq_self]
  intro item hitem
  have hne : item.data ≠ d := fun heq => h ⟨item, hitem, heq⟩
  simpa using hne

omit [DecidableEq ι] [Std.TransCmp cmp] in
theorem Inv.set_prio (h : s.Inv cmp) (hd : ¬ s.IsLive d) (p : π) :
    Inv cmp { s with prio := Function.update s.prio d p } := by
  refine ⟨h.wellFormed.congr ?_, h.items, h.distinct⟩
  have hne : ∀ x ∈ s.q.items, x.data ≠ d := fun x hx heq => hd ⟨x, h.mem_iff.mp hx, heq⟩
  intro x hx y hy
  simp [comparePrio, hne x hx, hne y hy]

omit [DecidableEq ι] in
theorem Inv.heapExcept (h : s.Inv cmp) (hi : s.q.items[i]? = some item) (p : π) :
    HeapExcept (itemLE (comparePrio cmp (Function.update s.prio item.data p))) s.q.items i := by
  apply h.wellFormed.changed h.nodup_items hi
  intro x y hx hy
  simp [comparePrio, hx, hy]

/-! ## The calls -/

section

variable (h : s.Inv cmp)

include h

theorem Inv.put (hd : ¬ s.IsLive d) (hidx : ∀ c ∈ idx, s.IdxFree c) (p : π) :
    (s.step cmp (.put d idx p)).Inv cmp := by
  have hprio := h.set_prio hd p
  have hspec := prioqPut_spec hprio.wellFormed d idx fun c hc => h.cells_eq_none (hidx c hc)
  refine ⟨hspec.1, ?_, ?_⟩
  · have hperm := hspec.2.toList
    rw [Array.toList_push] at hperm
    exact (hperm.trans (perm_append_singleton _ _)).trans (h.items.cons _)
  · change ((⟨d, idx⟩ :: s.live).map PrioqItem.data).Nodup
    rw [map_cons, nodup_cons]
    refine ⟨fun hmem => hd ?_, h.distinct⟩
    obtain ⟨item, hitem, heq⟩ := mem_map.mp hmem
    exact ⟨item, hitem, heq⟩

theorem Inv.removeItem {prio : δ → π} (hi : s.q.items[i]? = some item)
    (hexcept : HeapExcept (itemLE (comparePrio cmp prio)) s.q.items i) :
    Inv cmp ⟨removeItem (comparePrio cmp prio) s.q i, prio, without s.live item.data⟩ := by
  have hspec := removeItem_of_except hexcept h.wellFormed.indexed hi
  have hperm := hspec.2.toList
  rw [Array.toList_push] at hperm
  have hlive := h.items.symm.trans (hperm.trans (perm_append_singleton _ _))
  exact ⟨hspec.1, perm_without hlive h.distinct, h.distinct.sublist (filter_sublist.map _)⟩

theorem Inv.reshuffleItem (hi : s.q.items[i]? = some item) (p : π) :
    Inv cmp ⟨reshuffleItem (comparePrio cmp (Function.update s.prio item.data p)) s.q i,
      Function.update s.prio item.data p, s.live⟩ := by
  have hsize := (Array.getElem?_eq_some_iff.mp hi).1
  have hspec := reshuffleItem_spec hsize (h.heapExcept hi p) h.wellFormed.indexed
  exact ⟨hspec.1, hspec.2.toList.trans h.items, h.distinct⟩

theorem Inv.remove (hidx : s.IdxOf d idx) : (s.step cmp (.remove d idx)).Inv cmp := by
  rcases h.findItem_cases hidx with ⟨i, item, hi, rfl, hfind⟩ | ⟨hlive, hfind⟩
  · have hexcept := h.wellFormed.heapExcept (Array.getElem?_eq_some_iff.mp hi).1
    have hremove := h.removeItem hi hexcept
    simpa only [step, prioqRemove, hfind, Option.elim_some] using hremove
  · simpa only [step, prioqRemove, hfind, Option.elim_none, without_of_not_live hlive] using h

omit [DecidableEq δ] [DecidableEq ι] [Std.TransCmp cmp] in
theorem Inv.isLive (hi : s.q.items[i]? = some item) : s.IsLive item.data :=
  ⟨item, h.mem_iff.mp (Array.mem_of_getElem? hi), rfl⟩

theorem Inv.update (hidx : s.IdxOf d idx) (queued : Bool) (p : π) :
    (s.step cmp (.update d idx queued p)).Inv cmp := by
  rcases h.findItem_cases hidx with ⟨i, item, hi, rfl, hfind⟩ | ⟨hlive, hfind⟩
  · cases queued with
    | true =>
      have hreshuffle := h.reshuffleItem hi p
      simpa [step, prioqUpdate, hfind, h.isLive hi] using hreshuffle
    | false =>
      have hremove := h.removeItem hi (h.heapExcept hi p)
      simpa [step, prioqUpdate, hfind] using hremove
  · cases queued with
    | true =>
      have hfree : ∀ c ∈ idx, s.IdxFree c := by
        intro c hc
        rcases hidx c hc with hmem | ⟨-, hfree⟩
        · exact absurd ⟨_, hmem, rfl⟩ hlive
        · exact hfree
      have hput := h.put hlive hfree p
      simpa [step, prioqUpdate, hfind, hlive] using hput
    | false =>
      have hprio := h.set_prio hlive p
      simpa [step, prioqUpdate, hfind, without_of_not_live hlive] using hprio

theorem Inv.reshuffle (hidx : s.IdxOf d idx) (p : π) :
    (s.step cmp (.reshuffle d idx p)).Inv cmp := by
  rcases h.findItem_cases hidx with ⟨i, item, hi, rfl, hfind⟩ | ⟨hlive, hfind⟩
  · have hreshuffle := h.reshuffleItem hi p
    simpa only [step, prioqReshuffle, hfind, Option.elim_some] using hreshuffle
  · have hprio := h.set_prio hlive p
    simpa only [step, prioqReshuffle, hfind, Option.elim_none] using hprio

theorem Inv.pop : (s.step cmp .pop).Inv cmp := by
  cases hfirst : s.q.items[0]? with
  | none => simpa only [step, prioqPop, hfirst, Option.elim_none] using h
  | some item =>
    have hexcept := h.wellFormed.heapExcept (Array.getElem?_eq_some_iff.mp hfirst).1
    have hremove := h.removeItem hfirst hexcept
    simpa only [step, prioqPop, hfirst, Option.elim_some] using hremove

theorem Inv.step (op : PrioqOp δ ι π) (hop : s.Legal op) : (s.step cmp op).Inv cmp := by
  cases op with
  | put d idx p => exact h.put hop.1 hop.2 p
  | remove d idx => exact h.remove hop
  | update d idx queued p => exact h.update hop queued p
  | reshuffle d idx p => exact h.reshuffle hop p
  | pop => exact h.pop

end

omit [DecidableEq δ] [DecidableEq ι] [Std.TransCmp cmp] in
theorem inv_init (prio : δ → π) : Inv cmp (init prio : PrioqState δ ι π) := by
  refine ⟨⟨?_, ?_⟩, .rfl, nodup_nil⟩
  · intro c _ x hx
    simp [init] at hx
  · intro c i
    simp [init, NMPrioq.idxAt]

omit [DecidableEq δ] in
theorem Inv.sound (h : s.Inv cmp) : s.Sound cmp where
  heap := h.wellFormed.ordered
  items := h.items
  distinct := h.distinct
  queuedIdx := by
    intro i item hi c hc
    rw [h.wellFormed.indexed, NMPrioq.idxAt, hi, Option.bind_some, hc]
  unqueuedIdx c hc := h.cells_eq_none hc
  peek := by
    intro d hd
    obtain ⟨⟨item, hitem, rfl⟩, hmin⟩ := prioqPeek_spec h.wellFormed.ordered hd
    exact ⟨⟨item, h.mem_iff.mp hitem, rfl⟩, fun item' hitem' => hmin item' (h.mem_iff.mpr hitem')⟩
  peekNone := by
    rw [prioqPeek_eq_none, ← Array.length_toList, h.items.length_eq, length_eq_zero_iff]
  pop := by
    unfold prioqPop prioqPeek
    cases s.q.items[0]? <;> rfl

/-- Whatever the callers do, the queue holds what was put and not removed, every index is right,
and the first element is a smallest one. -/
theorem prioq_run_sound (cmp : π → π → Ordering) [Std.TransCmp cmp] (prio : δ → π)
    (ops : List (PrioqOp δ ι π)) (hops : Along (step cmp) Legal (init prio) ops) :
    (ops.foldl (step cmp) (init prio)).Sound cmp :=
  Inv.sound (hops.foldl (fun _ op h hop => Inv.step h op hop) (inv_init prio))

/-- The runs include those that change priorities and take elements out of the middle. -/
theorem three_run_sound :
    ([.put 0 (some 0) 5, .put 1 none 3, .put 2 (some 1) 4, .reshuffle 2 (some 1) 1,
      .update 1 none false 9, .pop, .remove 0 none].foldl (step compare)
      (init fun _ => 0 : PrioqState ℕ ℕ ℕ)).Sound compare := by
  apply prioq_run_sound
  simp [step, init, Legal, IsLive, IdxFree, IdxOf]

/-- Popping until nothing is left returns what was put and not removed, ordered by the priorities
of now. -/
def PopsInOrder (cmp : π → π → Ordering) (s : PrioqState δ ι π) : Prop :=
  let popped := prioqPopAll (comparePrio cmp s.prio) s.q.items.size s.q
  popped.Pairwise (fun x y => (cmp (s.prio x) (s.prio y)).isLE) ∧
    popped.Perm (s.live.map PrioqItem.data)

theorem prioq_run_popsInOrder (cmp : π → π → Ordering) [Std.TransCmp cmp] (prio : δ → π)
    (ops : List (PrioqOp δ ι π)) (hops : Along (step cmp) Legal (init prio) ops) :
    (ops.foldl (step cmp) (init prio)).PopsInOrder cmp := by
  have h : Inv cmp _ := hops.foldl (fun _ op h hop => Inv.step h op hop) (inv_init prio)
  obtain ⟨hsorted, hperm⟩ := prioqPopAll_spec h.wellFormed
  exact ⟨hsorted, hperm.trans (h.items.map _)⟩

theorem updated_run_popsInOrder :
    ([.put 0 (some 0) 5, .put 1 none 3, .put 2 (some 1) 4, .update 1 none false 9,
      .remove 0 none].foldl (step compare)
      (init fun _ => 0 : PrioqState ℕ ℕ ℕ)).PopsInOrder compare := by
  apply prioq_run_popsInOrder
  simp [step, init, Legal, IsLive, IdxFree, IdxOf]

end PrioqState

end NetworkManager.GlibAux
