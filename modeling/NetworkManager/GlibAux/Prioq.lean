import Mathlib.Data.List.Basic
import NetworkManager.Lib.HeapOrder

/-!
# NMPrioq

A heap of items with an index into the heap that the caller may keep next to an item.
-/

namespace NetworkManager.GlibAux

open Lib

structure PrioqItem (δ ι : Type*) where
  data : δ
  idx : Option ι
  deriving DecidableEq

/-- `NMPrioq`, and what the callers' index pointers point to: `none` is `NM_PRIOQ_IDX_NULL`. -/
structure NMPrioq (δ ι : Type*) where
  items : Array (PrioqItem δ ι)
  cells : ι → Option ℕ

variable {δ ι : Type*} [DecidableEq ι]

namespace NMPrioq

def setIdx (q : NMPrioq δ ι) (idx : Option ι) (value : Option ℕ) : NMPrioq δ ι :=
  match idx with
  | none => q
  | some c => { q with cells := Function.update q.cells c value }

omit [DecidableEq ι] in
def idxAt (q : NMPrioq δ ι) (k : ℕ) : Option ι := q.items[k]?.bind PrioqItem.idx

end NMPrioq

open NMPrioq

def prioqSwap (q : NMPrioq δ ι) (j k : ℕ) : NMPrioq δ ι :=
  let q := { q with items := q.items.swapIfInBounds j k }
  let q := q.setIdx (q.idxAt j) (some j)
  q.setIdx (q.idxAt k) (some k)

@[simp] theorem NMPrioq.items_setIdx (q : NMPrioq δ ι) (idx : Option ι) (value : Option ℕ) :
    (q.setIdx idx value).items = q.items := by
  cases idx <;> rfl

@[simp] theorem items_prioqSwap (q : NMPrioq δ ι) (j k : ℕ) :
    (prioqSwap q j k).items = q.items.swapIfInBounds j k := by
  simp [prioqSwap]

variable (cmp : δ → δ → Ordering)

def prioqCompare (q : NMPrioq δ ι) (a b : ℕ) : Ordering :=
  match q.items[a]?, q.items[b]? with
  | some x, some y => cmp x.data y.data
  | _, _ => .eq

def shuffleUp (q : NMPrioq δ ι) (idx : ℕ) : NMPrioq δ ι × ℕ :=
  if _h : idx = 0 then (q, 0)
  else
    let k := (idx - 1) / 2
    if (prioqCompare cmp q k idx).isLE then (q, idx)
    else shuffleUp (prioqSwap q idx k) k
  termination_by idx
  decreasing_by omega

/-- The smallest of an item and its children, the first of several. -/
def smallest (q : NMPrioq δ ι) (idx : ℕ) : ℕ :=
  let k := (idx + 1) * 2
  let j := k - 1
  let s := if prioqCompare cmp q j idx = .lt then j else idx
  if k < q.items.size ∧ prioqCompare cmp q k s = .lt then k else s

omit [DecidableEq ι] in
theorem smallest_cases (q : NMPrioq δ ι) (idx : ℕ) :
    smallest cmp q idx = idx ∨ smallest cmp q idx = 2 * idx + 1 ∨
      (smallest cmp q idx = 2 * idx + 2 ∧ 2 * idx + 2 < q.items.size) := by
  unfold smallest
  dsimp only
  split_ifs <;> omega

def shuffleDown (q : NMPrioq δ ι) (idx : ℕ) : NMPrioq δ ι × ℕ :=
  if _hchild : (idx + 1) * 2 - 1 ≥ q.items.size then (q, idx)
  else
    let s := smallest cmp q idx
    if _hs : s = idx then (q, idx) else shuffleDown (prioqSwap q idx s) s
  termination_by q.items.size - idx
  decreasing_by
    rw [items_prioqSwap, Array.size_swapIfInBounds]
    have := smallest_cases cmp q idx
    omega

def prioqPut (q : NMPrioq δ ι) (data : δ) (idx : Option ι) : NMPrioq δ ι :=
  let k := q.items.size
  let q := { q with items := q.items.push ⟨data, idx⟩ }
  let q := q.setIdx idx (some k)
  (shuffleUp cmp q k).1

def reshuffleItem (q : NMPrioq δ ι) (k : ℕ) : NMPrioq δ ι :=
  let (q, k) := shuffleDown cmp q k
  (shuffleUp cmp q k).1

def removeItem (q : NMPrioq δ ι) (k : ℕ) : NMPrioq δ ι :=
  let q := q.setIdx (q.idxAt k) none
  match q.items.back? with
  | none => q
  | some l =>
    let q := { q with items := q.items.pop }
    if k = q.items.size then q
    else
      let q := { q with items := q.items.setIfInBounds k l }
      reshuffleItem cmp (q.setIdx l.idx (some k)) k

variable [DecidableEq δ]

omit [DecidableEq ι] in
def findItem (q : NMPrioq δ ι) (data : δ) : Option ι → Option ℕ
  | none => q.items.findIdx? fun i => i.data = data
  | some c =>
    (q.cells c).bind fun k => (q.items[k]?.filter fun i => i.data = data).map fun _ => k

def prioqRemove (q : NMPrioq δ ι) (data : δ) (idx : Option ι) : NMPrioq δ ι :=
  (findItem q data idx).elim q (removeItem cmp q)

def prioqReshuffle (q : NMPrioq δ ι) (data : δ) (idx : Option ι) : NMPrioq δ ι :=
  (findItem q data idx).elim q (reshuffleItem cmp q)

def prioqUpdate (q : NMPrioq δ ι) (data : δ) (idx : Option ι) (queued : Bool) : NMPrioq δ ι :=
  match findItem q data idx with
  | none => if queued then prioqPut cmp q data idx else q
  | some i => if queued then reshuffleItem cmp q i else removeItem cmp q i

omit [DecidableEq ι] [DecidableEq δ] in
def prioqPeek (q : NMPrioq δ ι) : Option δ := q.items[0]?.map PrioqItem.data

omit [DecidableEq δ] in
/-- `nm_prioq_pop()`, and what it returns. -/
def prioqPop (q : NMPrioq δ ι) : NMPrioq δ ι × Option δ :=
  match q.items[0]? with
  | none => (q, none)
  | some item => (removeItem cmp q 0, some item.data)

/-!
## The heap of a priority queue

Every operation keeps the order of the heap, loses no item and keeps the indices of the items in
step with their positions.
-/

variable {δ ι : Type*} {cmp : δ → δ → Ordering} {q q' : NMPrioq δ ι} {i j k : ℕ} {c : ι}

/-- Every index that is not null is the position of the item that points to it. -/
def NMPrioq.Indexed (q : NMPrioq δ ι) : Prop := ∀ c i, q.cells c = some i ↔ q.idxAt i = some c

def itemLE (cmp : δ → δ → Ordering) (x y : PrioqItem δ ι) : Prop := (cmp x.data y.data).isLE

/-- A queue whose heap is ordered and whose indices are right. -/
structure NMPrioq.WellFormed (cmp : δ → δ → Ordering) (q : NMPrioq δ ι) : Prop where
  ordered : HeapOrdered (itemLE cmp) q.items
  indexed : q.Indexed

theorem lt_size_of_idxAt (h : q.idxAt i = some c) : i < q.items.size := by
  obtain ⟨item, hitem, -⟩ := Option.bind_eq_some_iff.mp h
  exact (Array.getElem?_eq_some_iff.mp hitem).1

section Compare

variable [Std.TransCmp cmp]

theorem itemLE_refl (x : PrioqItem δ ι) : itemLE cmp x x := by
  have heq : cmp x.data x.data = .eq := Std.ReflCmp.compare_self
  rw [itemLE, heq]
  rfl

theorem itemLE_trans (x y z : PrioqItem δ ι) (hxy : itemLE cmp x y) (hyz : itemLE cmp y z) :
    itemLE cmp x z := Std.TransCmp.isLE_trans hxy hyz

theorem itemLE_of_not {x y : PrioqItem δ ι} (h : ¬ itemLE cmp x y) : itemLE cmp y x := by
  have hlt := Std.OrientedCmp.lt_of_not_isLE h
  rw [itemLE, hlt]
  rfl

end Compare

theorem isLE_prioqCompare (hi : i < q.items.size) (hj : j < q.items.size) :
    (prioqCompare cmp q i j).isLE ↔ Below (itemLE cmp) q.items i j := by
  simp [prioqCompare, Below, itemLE, hi, hj]

variable [DecidableEq ι]

/-! ## Indices -/

theorem cells_setIdx (q : NMPrioq δ ι) (idx : Option ι) (value : Option ℕ) (c : ι) :
    (q.setIdx idx value).cells c = if idx = some c then value else q.cells c := by
  cases idx with
  | none => rfl
  | some c' => simp [NMPrioq.setIdx, Function.update_apply, eq_comm]

@[simp] theorem idxAt_setIdx (q : NMPrioq δ ι) (idx : Option ι) (value : Option ℕ) :
    (q.setIdx idx value).idxAt = q.idxAt := by
  funext k
  simp [NMPrioq.idxAt]

theorem idxAt_swap (hj : j < q.items.size) (hk : k < q.items.size) :
    (prioqSwap q j k).idxAt i =
      if i = j then q.idxAt k else if i = k then q.idxAt j else q.idxAt i := by
  unfold NMPrioq.idxAt
  rw [items_prioqSwap, getElem?_swapIfInBounds hj hk]
  split_ifs <;> rfl

theorem cells_swap (q : NMPrioq δ ι) (j k : ℕ) (c : ι) :
    (prioqSwap q j k).cells c =
      if (prioqSwap q j k).idxAt k = some c then some k
      else if (prioqSwap q j k).idxAt j = some c then some j else q.cells c := by
  have hcells : (prioqSwap q j k).cells c = if (prioqSwap q j k).idxAt k = some c then some k
      else (NMPrioq.setIdx { q with items := q.items.swapIfInBounds j k }
        ((prioqSwap q j k).idxAt j) (some j)).cells c := by
    have hidx : ∀ i, (prioqSwap q j k).idxAt i =
        NMPrioq.idxAt { q with items := q.items.swapIfInBounds j k } i := by
      intro i
      simp [NMPrioq.idxAt]
    rw [hidx, hidx, prioqSwap, cells_setIdx, idxAt_setIdx]
  rw [hcells, cells_setIdx]

theorem Indexed.swap (h : q.Indexed) (hne : j ≠ k) (hj : j < q.items.size)
    (hk : k < q.items.size) : (prioqSwap q j k).Indexed := by
  intro c i
  have hc := h c
  rw [cells_swap, idxAt_swap hj hk, idxAt_swap hj hk, idxAt_swap hj hk]
  grind

/-! ## Shuffling -/

/-- A queue with the same items in another order. -/
structure Shuffled (q q' : NMPrioq δ ι) : Prop where
  perm : q'.items.Perm q.items
  indexed : q.Indexed → q'.Indexed

omit [DecidableEq ι] in
theorem Shuffled.refl (q : NMPrioq δ ι) : Shuffled q q := ⟨.rfl, id⟩

omit [DecidableEq ι] in
theorem Shuffled.trans {q'' : NMPrioq δ ι} (h : Shuffled q q') (h' : Shuffled q' q'') :
    Shuffled q q'' := ⟨h'.perm.trans h.perm, fun hq => h'.indexed (h.indexed hq)⟩

theorem shuffled_swap (hne : j ≠ k) (hj : j < q.items.size) (hk : k < q.items.size) :
    Shuffled q (prioqSwap q j k) := by
  refine ⟨?_, fun h => Indexed.swap h hne hj hk⟩
  rw [items_prioqSwap]
  exact swapIfInBounds_perm _ _ _

variable [Std.TransCmp cmp] {item : PrioqItem δ ι} {cmp' : δ → δ → Ordering}

theorem shuffleUp_spec (hidx : i < q.items.size) (h : HeapUp (itemLE cmp) q.items i) :
    Shuffled q (shuffleUp cmp q i).1 ∧ HeapOrdered (itemLE cmp) (shuffleUp cmp q i).1.items := by
  induction i using Nat.strongRecOn generalizing q with
  | ind i ih =>
    rw [shuffleUp]
    by_cases hzero : i = 0
    · rw [dif_pos hzero]
      exact ⟨.refl q, h.finish fun hpos => absurd hzero hpos.ne'⟩
    · rw [dif_neg hzero]
      have hlt : heapParent i < i := heapParent_lt (Nat.pos_of_ne_zero hzero)
      have hsize := hlt.trans hidx
      change (Shuffled q (if (prioqCompare cmp q (heapParent i) i).isLE then (q, i)
        else shuffleUp cmp (prioqSwap q i (heapParent i)) (heapParent i)).1) ∧
        HeapOrdered (itemLE cmp) (if (prioqCompare cmp q (heapParent i) i).isLE then (q, i)
        else shuffleUp cmp (prioqSwap q i (heapParent i)) (heapParent i)).1.items
      split_ifs with hle
      · exact ⟨.refl q, h.finish fun _ => (isLE_prioqCompare hsize hidx).mp hle⟩
      · have hbelow : Below (itemLE cmp) q.items i (heapParent i) := by
          rw [isLE_prioqCompare hsize hidx] at hle
          simp only [Below, not_forall] at hle
          obtain ⟨x, hx, y, hy, hxy⟩ := hle
          intro y' hy' x' hx'
          rw [Option.mem_unique hx' hx, Option.mem_unique hy' hy]
          exact itemLE_of_not hxy
        have hup := h.swap itemLE_trans (Nat.pos_of_ne_zero hzero) hidx hbelow
        rw [← items_prioqSwap] at hup
        have hnext := ih _ hlt (by rw [items_prioqSwap, Array.size_swapIfInBounds]; exact hsize) hup
        exact ⟨(shuffled_swap hlt.ne' hidx hsize).trans hnext.1, hnext.2⟩

variable (cmp) in
omit [DecidableEq ι] in
/-- The smallest item is not above the others. -/
theorem below_smallest (hi : i < q.items.size) (hchild : (i + 1) * 2 - 1 < q.items.size) :
    smallest cmp q i < q.items.size ∧ Below (itemLE cmp) q.items (smallest cmp q i) i ∧
      ∀ c, 0 < c → heapParent c = i → Below (itemLE cmp) q.items (smallest cmp q i) c := by
  have hle : ∀ a b, a < q.items.size → b < q.items.size →
      prioqCompare cmp q a b = .lt → Below (itemLE cmp) q.items a b := by
    intro a b ha hb hlt
    rw [← isLE_prioqCompare ha hb, hlt]
    rfl
  have hge : ∀ a b, a < q.items.size → b < q.items.size →
      prioqCompare cmp q a b ≠ .lt → Below (itemLE cmp) q.items b a := by
    intro a b ha hb hlt x hx y hy
    by_contra hno
    have hyx := Std.OrientedCmp.lt_of_not_isLE hno
    rw [Option.mem_def] at hx hy
    simp [prioqCompare, hx, hy, hyx] at hlt
  have hself : ∀ a, Below (itemLE cmp) q.items a a := by
    intro a x hx y hy
    rw [Option.mem_unique hx hy]
    exact itemLE_refl y
  have hchildren : ∀ s, (Below (itemLE cmp) q.items s (2 * i + 1)) →
      (Below (itemLE cmp) q.items s (2 * i + 2)) →
      ∀ c, 0 < c → heapParent c = i → Below (itemLE cmp) q.items s c := by
    intro s hs hs' c hc hp
    rcases (heapParent_eq_iff hc).mp hp with rfl | rfl
    · exact hs
    · exact hs'
  have hj : (i + 1) * 2 - 1 = 2 * i + 1 := by omega
  have hk : (i + 1) * 2 = 2 * i + 2 := by omega
  rw [hj] at hchild
  unfold smallest
  dsimp only
  rw [hj, hk]
  -- the smaller one of the item and its left child
  have hs : ∃ s, (if prioqCompare cmp q (2 * i + 1) i = .lt then 2 * i + 1 else i) = s ∧
      s < q.items.size ∧ Below (itemLE cmp) q.items s i ∧
      Below (itemLE cmp) q.items s (2 * i + 1) := by
    split_ifs with hlt
    · exact ⟨_, rfl, hchild, hle _ _ hchild hi hlt, hself _⟩
    · exact ⟨_, rfl, hi, hself _, hge _ _ hchild hi hlt⟩
  obtain ⟨s, hs, hsize, hsi, hsj⟩ := hs
  rw [hs]
  split_ifs with hright
  · have hks := hle _ _ hright.1 hsize hright.2
    refine ⟨hright.1, below_trans itemLE_trans hsize hks hsi, ?_⟩
    exact hchildren _ (below_trans itemLE_trans hsize hks hsj) (hself _)
  · refine ⟨hsize, hsi, hchildren s hsj ?_⟩
    by_cases hin : 2 * i + 2 < q.items.size
    · exact hge _ _ hin hsize fun hlt => hright ⟨hin, hlt⟩
    · exact below_of_size_le (Nat.le_of_not_lt hin)

theorem shuffleDown_spec (hidx : i < q.items.size) (h : HeapExcept (itemLE cmp) q.items i) :
    Shuffled q (shuffleDown cmp q i).1 ∧
      (shuffleDown cmp q i).2 < (shuffleDown cmp q i).1.items.size ∧
      HeapUp (itemLE cmp) (shuffleDown cmp q i).1.items (shuffleDown cmp q i).2 := by
  generalize hn : q.items.size - i = n
  induction n using Nat.strongRecOn generalizing q i with
  | ind n ih =>
    rw [shuffleDown]
    by_cases hchild : (i + 1) * 2 - 1 ≥ q.items.size
    · rw [dif_pos hchild]
      refine ⟨.refl q, hidx, h.up fun c hc hp => below_of_size_le ?_⟩
      have := (heapParent_eq_iff hc).mp hp
      omega
    · rw [dif_neg hchild]
      obtain ⟨hsize, hsi, hmin⟩ := below_smallest cmp hidx (Nat.lt_of_not_le hchild)
      have hcases := smallest_cases cmp q i
      dsimp only
      generalize smallest cmp q i = s at hsize hsi hmin hcases
      by_cases hs : s = i
      · subst hs
        rw [dif_pos rfl]
        exact ⟨.refl q, hidx, h.up hmin⟩
      · rw [dif_neg hs]
        have hspos : 0 < s := by omega
        have hparent : heapParent s = i := (heapParent_eq_iff hspos).mpr (by omega)
        have hexcept := h.swap hspos hparent hsize hmin
        rw [← items_prioqSwap] at hexcept
        have hsame : (prioqSwap q i s).items.size = q.items.size := by
          rw [items_prioqSwap, Array.size_swapIfInBounds]
        have hnext := ih _ (by omega) (hsame ▸ hsize) hexcept rfl
        exact ⟨(shuffled_swap (Ne.symm hs) hidx hsize).trans hnext.1, hnext.2⟩

/-! ## The operations -/

theorem prioqPut_spec (h : q.WellFormed cmp) (data : δ) (idx : Option ι)
    (hidx : ∀ c ∈ idx, q.cells c = none) :
    (prioqPut cmp q data idx).WellFormed cmp ∧
      (prioqPut cmp q data idx).items.Perm (q.items.push ⟨data, idx⟩) := by
  let q₁ : NMPrioq δ ι :=
    NMPrioq.setIdx { q with items := q.items.push ⟨data, idx⟩ } idx (some q.items.size)
  have hitems : q₁.items = q.items.push ⟨data, idx⟩ := NMPrioq.items_setIdx _ _ _
  have hindexed : q₁.Indexed := by
    intro c i
    have hat : q₁.idxAt i = if i = q.items.size then idx else q.idxAt i := by
      unfold NMPrioq.idxAt
      rw [hitems, Array.getElem?_push]
      split_ifs <;> rfl
    have hcell : q₁.cells c = if idx = some c then some q.items.size else q.cells c :=
      cells_setIdx _ _ _ _
    rw [hcell, hat]
    by_cases hc : idx = some c
    · rw [if_pos hc, Option.some.injEq]
      constructor
      · rintro rfl
        rw [if_pos rfl, hc]
      · intro hi
        split_ifs at hi with hsize
        · exact hsize.symm
        · have hcell := (h.indexed c i).mpr hi
          rw [hidx c hc] at hcell
          cases hcell
    · rw [if_neg hc, h.indexed c i]
      split_ifs with hsize
      · subst hsize
        refine iff_of_false (fun hi => ?_) hc
        exact absurd (lt_size_of_idxAt hi) (lt_irrefl _)
      · rfl
  have hup : HeapUp (itemLE cmp) q₁.items q.items.size := hitems ▸ h.ordered.push _
  have hspec := shuffleUp_spec (by rw [hitems, Array.size_push]; omega) hup
  exact ⟨⟨hspec.2, hspec.1.indexed hindexed⟩, hitems ▸ hspec.1.perm⟩

theorem reshuffleItem_spec (hi : i < q.items.size) (h : HeapExcept (itemLE cmp) q.items i)
    (hindexed : q.Indexed) :
    (reshuffleItem cmp q i).WellFormed cmp ∧ (reshuffleItem cmp q i).items.Perm q.items := by
  obtain ⟨hshuffled, hsize, hup⟩ := shuffleDown_spec hi h
  have hspec := shuffleUp_spec hsize hup
  have htrans := hshuffled.trans hspec.1
  exact ⟨⟨hspec.2, htrans.indexed hindexed⟩, htrans.perm⟩

omit [Std.TransCmp cmp] in
theorem removeItem_eq {a : Array (PrioqItem δ ι)} {l : PrioqItem δ ι} (ha : q.items = a.push l) :
    removeItem cmp q i =
      if i = a.size then { q.setIdx (q.idxAt i) none with items := a }
      else reshuffleItem cmp (NMPrioq.setIdx
        { q.setIdx (q.idxAt i) none with items := a.setIfInBounds i l } l.idx (some i)) i := by
  simp [removeItem, ha]

/-- The items after removing the one at a position, where the order may fail. -/
theorem removeItem_of_except (hexcept : HeapExcept (itemLE cmp) q.items i) (hindexed : q.Indexed)
    (hitem : q.items[i]? = some item) :
    (removeItem cmp q i).WellFormed cmp ∧
      q.items.Perm ((removeItem cmp q i).items.push item) := by
  have hi := (Array.getElem?_eq_some_iff.mp hitem).1
  obtain ⟨a, l, ha⟩ := Array.eq_push_of_size_ne_zero (Nat.ne_zero_of_lt hi)
  have hat : q.idxAt i = item.idx := by rw [NMPrioq.idxAt, hitem, Option.bind_some]
  have hlast : q.idxAt a.size = l.idx := by
    rw [NMPrioq.idxAt, ha, Array.getElem?_push_size, Option.bind_some]
  have hbefore : ∀ k, k ≠ a.size → (a[k]?.bind PrioqItem.idx) = q.idxAt k := by
    intro k hk
    rw [NMPrioq.idxAt, ha, Array.getElem?_push, if_neg hk]
  rw [removeItem_eq ha, hat, ha]
  split_ifs with hend
  · have heq : item = l := by
      rw [ha, hend, Array.getElem?_push_size] at hitem
      exact (Option.some.inj hitem).symm
    subst heq
    rw [ha, hend] at hexcept
    refine ⟨⟨hexcept.init, fun c k => ?_⟩, .rfl⟩
    have hk : NMPrioq.idxAt { q.setIdx item.idx none with items := a } k =
        if k = a.size then none else q.idxAt k := by
      split_ifs with hk
      · simp [NMPrioq.idxAt, hk]
      · exact hbefore k hk
    rw [hk]
    change (q.setIdx item.idx none).cells c = some k ↔ _
    rw [cells_setIdx]
    have hck := hindexed c k
    have hcend := hindexed c a.size
    grind
  · have hlt : i < a.size := by
      rw [ha, Array.size_push] at hi
      omega
    have hitem' : a[i]? = some item := by
      rwa [ha, Array.getElem?_push, if_neg hend] at hitem
    generalize hq' : NMPrioq.setIdx { q.setIdx item.idx none with
      items := a.setIfInBounds i l } l.idx (some i) = q'
    have hitems : q'.items = a.setIfInBounds i l := by rw [← hq', NMPrioq.items_setIdx]
    have hexcept' : HeapExcept (itemLE cmp) q'.items i := by
      have hget : ∀ k, k ≠ i → ∀ x ∈ q'.items[k]?, x ∈ q.items[k]? := by
        intro k hk x hx
        rw [hitems, Array.getElem?_setIfInBounds_ne (Ne.symm hk)] at hx
        have hsize := (Array.getElem?_eq_some_iff.mp hx).1
        rwa [ha, Array.getElem?_push, if_neg hsize.ne]
      apply hexcept.change
      intro k k' hk hk' hbelow x hx y hy
      exact hbelow x (hget k hk x hx) y (hget k' hk' y hy)
    have hindexed' : q'.Indexed := by
      intro c k
      have hk : q'.idxAt k = if k = i then l.idx else if k = a.size then none else q.idxAt k := by
        rw [NMPrioq.idxAt, hitems]
        split_ifs with hki hend'
        · rw [hki, Array.getElem?_setIfInBounds_self_of_lt hlt, Option.bind_some]
        · rw [Array.getElem?_setIfInBounds_ne (Ne.symm hki), hend',
            Array.getElem?_eq_none (le_refl _), Option.bind_none]
        · rw [Array.getElem?_setIfInBounds_ne (Ne.symm hki)]
          exact hbefore k hend'
      have hcell : q'.cells c = if l.idx = some c then some i
          else if item.idx = some c then none else q.cells c := by
        rw [← hq', cells_setIdx]
        split_ifs with hc hc'
        · rfl
        · exact (cells_setIdx q item.idx none c).trans (if_pos hc')
        · exact (cells_setIdx q item.idx none c).trans (if_neg hc')
      rw [hk, hcell]
      have hck := hindexed c k
      have hci := hindexed c i
      have hcend := hindexed c a.size
      grind
    have hsize : i < q'.items.size := by
      rw [hitems, Array.size_setIfInBounds]
      exact hlt
    have hspec := reshuffleItem_spec hsize hexcept' hindexed'
    refine ⟨hspec.1, ?_⟩
    have hperm := (hitems ▸ hspec.2).push item
    exact ((hperm).trans (push_setIfInBounds_perm hitem' l)).symm

omit [DecidableEq ι] in
theorem NMPrioq.WellFormed.heapExcept (h : q.WellFormed cmp) (hi : i < q.items.size) :
    HeapExcept (itemLE cmp) q.items i :=
  h.ordered.change itemLE_trans hi fun _ _ _ _ hbelow => hbelow

theorem removeItem_spec (h : q.WellFormed cmp) (hitem : q.items[i]? = some item) :
    (removeItem cmp q i).WellFormed cmp ∧
      q.items.Perm ((removeItem cmp q i).items.push item) :=
  removeItem_of_except (h.heapExcept (Array.getElem?_eq_some_iff.mp hitem).1) h.indexed hitem

omit [DecidableEq ι] [Std.TransCmp cmp] in
theorem NMPrioq.WellFormed.congr (h : q.WellFormed cmp)
    (hsame : ∀ x ∈ q.items, ∀ y ∈ q.items, cmp' x.data y.data = cmp x.data y.data) :
    q.WellFormed cmp' := by
  refine ⟨fun c hc x hx y hy => ?_, h.indexed⟩
  rw [itemLE, hsame x (Array.mem_of_getElem? hx) y (Array.mem_of_getElem? hy)]
  exact h.ordered c hc x hx y hy

/-! ## Items with their index -/

omit [DecidableEq ι] [Std.TransCmp cmp] in
theorem cells_eq_none (h : q.Indexed) (hc : ∀ item ∈ q.items, item.idx ≠ some c) :
    q.cells c = none := by
  cases hcell : q.cells c with
  | none => rfl
  | some i =>
    obtain ⟨item, hitem, hidx⟩ := Option.bind_eq_some_iff.mp ((h c i).mp hcell)
    exact absurd hidx (hc item (Array.mem_of_getElem? hitem))

variable [DecidableEq δ] {d : δ}

omit [DecidableEq ι] [Std.TransCmp cmp] in
theorem findItem_of_mem (h : q.Indexed) (hmem : ⟨d, some c⟩ ∈ q.items) :
    ∃ i, q.items[i]? = some ⟨d, some c⟩ ∧ findItem q d (some c) = some i := by
  obtain ⟨i, hi⟩ := Array.mem_iff_getElem?.mp hmem
  have hcell : q.cells c = some i := by
    rw [h, NMPrioq.idxAt, hi, Option.bind_some]
  refine ⟨i, hi, ?_⟩
  rw [findItem, hcell, Option.bind_some, hi]
  simp

theorem prioqRemove_spec (h : q.WellFormed cmp) (hmem : ⟨d, some c⟩ ∈ q.items) :
    (prioqRemove cmp q d (some c)).WellFormed cmp ∧
      q.items.Perm ((prioqRemove cmp q d (some c)).items.push ⟨d, some c⟩) := by
  obtain ⟨i, hi, hfind⟩ := findItem_of_mem h.indexed hmem
  rw [prioqRemove, hfind, Option.elim_some]
  exact removeItem_spec h hi

omit [DecidableEq ι] [DecidableEq δ] in
theorem NMPrioq.WellFormed.changed (h : q.WellFormed cmp)
    (hdistinct : (q.items.toList.map PrioqItem.data).Nodup) (hi : q.items[i]? = some item)
    (hsame : ∀ x y, x ≠ item.data → y ≠ item.data → cmp' x y = cmp x y) :
    HeapExcept (itemLE cmp') q.items i := by
  have hsize := (Array.getElem?_eq_some_iff.mp hi).1
  have hother : ∀ k, k ≠ i → ∀ x ∈ q.items[k]?, x.data ≠ item.data := by
    intro k hk x hx heq
    rw [Option.mem_def, ← Array.getElem?_toList] at hx
    rw [← Array.getElem?_toList] at hi
    have hxd : (q.items.toList.map PrioqItem.data)[k]? = some item.data := by
      rw [List.getElem?_map, hx, Option.map_some, heq]
    have hid : (q.items.toList.map PrioqItem.data)[i]? = some item.data := by
      rw [List.getElem?_map, hi, Option.map_some]
    apply hk
    exact (List.getElem?_inj (by simpa using (List.getElem?_eq_some_iff.mp hx).1) hdistinct).mp
      (hxd.trans hid.symm)
  apply h.ordered.change itemLE_trans hsize
  intro k k' hk hk' hbelow x hx y hy
  rw [itemLE, hsame _ _ (hother k hk x hx) (hother k' hk' y hy)]
  exact hbelow x hx y hy

theorem prioqReshuffle_spec [Std.TransCmp cmp'] (h : q.WellFormed cmp)
    (hdistinct : (q.items.toList.map PrioqItem.data).Nodup) (hmem : ⟨d, some c⟩ ∈ q.items)
    (hsame : ∀ x y, x ≠ d → y ≠ d → cmp' x y = cmp x y) :
    (prioqReshuffle cmp' q d (some c)).WellFormed cmp' ∧
      (prioqReshuffle cmp' q d (some c)).items.Perm q.items := by
  obtain ⟨i, hi, hfind⟩ := findItem_of_mem h.indexed hmem
  have hsize := (Array.getElem?_eq_some_iff.mp hi).1
  rw [prioqReshuffle, hfind, Option.elim_some]
  exact reshuffleItem_spec hsize (h.changed hdistinct hi hsame) h.indexed

omit [DecidableEq ι] [DecidableEq δ] in
theorem prioqPeek_spec (h : HeapOrdered (itemLE cmp) q.items) (hd : prioqPeek q = some d) :
    (∃ item ∈ q.items, item.data = d) ∧ ∀ item ∈ q.items, (cmp d item.data).isLE := by
  obtain ⟨item, hitem, rfl⟩ := Option.map_eq_some_iff.mp hd
  refine ⟨⟨item, Array.mem_of_getElem? hitem, rfl⟩, fun item' hmem => ?_⟩
  obtain ⟨i, hi⟩ := Array.mem_iff_getElem?.mp hmem
  exact h.root itemLE_refl itemLE_trans i item hitem item' hi

omit [DecidableEq ι] [DecidableEq δ] [Std.TransCmp cmp] in
theorem prioqPeek_eq_none : prioqPeek q = none ↔ q.items.size = 0 := by
  rw [prioqPeek, Option.map_eq_none_iff, Array.getElem?_eq_none_iff, Nat.le_zero]

end NetworkManager.GlibAux
