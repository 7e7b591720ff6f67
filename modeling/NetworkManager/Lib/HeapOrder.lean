import Mathlib.Order.Nat
import Mathlib.Tactic.Common

/-!
# Heap order on arrays

An array is the level order of a binary tree. Items move along a path of the tree by swaps with
the parent, and the order may fail around the item that moves.
-/

namespace NetworkManager.Lib

variable {α : Type*} (le : α → α → Prop)

def heapParent (i : ℕ) : ℕ := (i - 1) / 2

/-- The items at two indices, where there are any, are in order. -/
def Below (a : Array α) (p c : ℕ) : Prop := ∀ x ∈ a[p]?, ∀ y ∈ a[c]?, le x y

def HeapOrdered (a : Array α) : Prop := ∀ c, 0 < c → Below le a (heapParent c) c

/-- The order fails at most around the item at an index, with its parent or its children. -/
structure HeapExcept (a : Array α) (i : ℕ) : Prop where
  except : ∀ c, 0 < c → c ≠ i → heapParent c ≠ i → Below le a (heapParent c) c
  grand : 0 < i → ∀ c, 0 < c → heapParent c = i → Below le a (heapParent i) c

/-- The order fails at most between the item at an index and its parent. -/
structure HeapUp (a : Array α) (i : ℕ) : Prop where
  except : ∀ c, 0 < c → c ≠ i → Below le a (heapParent c) c
  grand : 0 < i → ∀ c, 0 < c → heapParent c = i → Below le a (heapParent i) c

variable {le} {a : Array α} {i j : ℕ} {x : α} {le' : α → α → Prop} {a' : Array α}

theorem heapParent_lt (h : 0 < i) : heapParent i < i := by
  unfold heapParent
  omega

theorem heapParent_eq_iff (h : 0 < j) : heapParent j = i ↔ j = 2 * i + 1 ∨ j = 2 * i + 2 := by
  unfold heapParent
  omega

theorem getElem?_swapIfInBounds (hi : i < a.size) (hj : j < a.size) (k : ℕ) :
    (a.swapIfInBounds i j)[k]? = if k = i then a[j]? else if k = j then a[i]? else a[k]? := by
  rw [Array.swapIfInBounds_def, dif_pos hi, dif_pos hj, Array.getElem?_swap]
  by_cases hki : k = i
  · subst hki
    by_cases hjk : j = k
    · subst hjk
      simp [hj]
    · simp [hjk, hj]
  · by_cases hkj : k = j
    · subst hkj
      simp [hki, hi]
    · simp [hki, hkj, Ne.symm hki, Ne.symm hkj]

theorem swapIfInBounds_perm (a : Array α) (i j : ℕ) : (a.swapIfInBounds i j).Perm a := by
  rw [Array.swapIfInBounds_def]
  split_ifs with hi hj
  · exact Array.swap_perm hi hj
  · exact .rfl
  · exact .rfl

theorem push_setIfInBounds_perm (hi : a[i]? = some x) (y : α) :
    ((a.setIfInBounds i y).push x).Perm (a.push y) := by
  have hsize := (Array.getElem?_eq_some_iff.mp hi).1
  have hswap : (a.setIfInBounds i y).push x = (a.push y).swapIfInBounds i a.size := by
    apply Array.ext_getElem?
    intro k
    rw [getElem?_swapIfInBounds (by rw [Array.size_push]; omega) (by rw [Array.size_push]; omega)]
    simp only [Array.getElem?_push, Array.size_setIfInBounds, Array.getElem?_setIfInBounds]
    by_cases hki : k = i
    · subst hki
      simp [hsize, hsize.ne]
    · simp only [hki, Ne.symm hki, if_false]
      by_cases hk : k = a.size
      · simp [hk, hi, hsize.ne]
      · simp [hk]
  rw [hswap]
  exact swapIfInBounds_perm _ _ _

theorem below_trans (htrans : ∀ x y z, le x y → le y z → le x z) {k : ℕ} (hj : j < a.size)
    (h : Below le a i j) (h' : Below le a j k) : Below le a i k := by
  intro x hx z hz
  have hy : a[j]? = some a[j] := Array.getElem?_eq_getElem hj
  exact htrans x a[j] z (h x hx _ hy) (h' _ hy z hz)

theorem below_of_size_le (h : a.size ≤ j) : Below le a i j := by
  intro _ _ y hy
  rw [Array.getElem?_eq_none h] at hy
  cases hy

/-! ## Moving up -/

theorem HeapUp.finish (h : HeapUp le a i) (hi : 0 < i → Below le a (heapParent i) i) :
    HeapOrdered le a := by
  intro c hc
  by_cases hci : c = i
  · subst hci
    exact hi hc
  · exact h.except c hc hci

/-- An item that is not above its parent is swapped with it. -/
theorem HeapUp.swap (htrans : ∀ x y z, le x y → le y z → le x z) (h : HeapUp le a i)
    (hpos : 0 < i) (hi : i < a.size) (hbelow : Below le a i (heapParent i)) :
    HeapUp le (a.swapIfInBounds i (heapParent i)) (heapParent i) := by
  have hlt := heapParent_lt hpos
  have hget := getElem?_swapIfInBounds hi (hlt.trans hi)
  generalize hp : heapParent i = p at *
  have hup : ∀ c, 0 < c → heapParent c = p → c ≠ i → Below le a i c := fun c hc hcp hci =>
    below_trans htrans (hlt.trans hi) hbelow (hcp ▸ h.except c hc hci)
  constructor
  · intro c hc hcp
    have hclt := heapParent_lt hc
    unfold Below
    rw [hget, hget]
    by_cases hci : c = i
    · subst hci
      rw [hp, if_pos rfl, if_neg hlt.ne, if_pos rfl]
      exact hbelow
    · rw [if_neg hci, if_neg hcp]
      by_cases hpi : heapParent c = i
      · rw [if_pos hpi]
        have hgrand := h.grand hpos c hc hpi
        rw [hp] at hgrand
        exact hgrand
      · rw [if_neg hpi]
        by_cases hpp : heapParent c = p
        · rw [if_pos hpp]
          exact hup c hc hpp hci
        · rw [if_neg hpp]
          exact h.except c hc hci
  · intro hp0 c hc hcp
    have hplt := heapParent_lt hp0
    have hgrand : Below le a (heapParent p) p := h.except p hp0 hlt.ne
    unfold Below
    rw [hget, hget, if_neg (hplt.trans hlt).ne, if_neg hplt.ne]
    by_cases hci : c = i
    · rw [if_pos hci]
      exact hgrand
    · have hcne : c ≠ p := by
        have := heapParent_lt hc
        omega
      rw [if_neg hci, if_neg hcne]
      exact below_trans htrans (hlt.trans hi) hgrand (hcp ▸ h.except c hc hci)

/-! ## Moving down -/

theorem HeapExcept.up (h : HeapExcept le a i)
    (hchild : ∀ c, 0 < c → heapParent c = i → Below le a i c) : HeapUp le a i := by
  refine ⟨fun c hc hci => ?_, h.grand⟩
  by_cases hpi : heapParent c = i
  · rw [hpi]
    exact hchild c hc hpi
  · exact h.except c hc hci hpi

theorem HeapExcept.swap (h : HeapExcept le a i) (hpos : 0 < j) (hp : heapParent j = i)
    (hj : j < a.size) (hmin : ∀ c, 0 < c → heapParent c = i → Below le a j c) :
    HeapExcept le (a.swapIfInBounds i j) j := by
  have hlt := heapParent_lt hpos
  rw [hp] at hlt
  have hget := getElem?_swapIfInBounds (hlt.trans hj) hj
  constructor
  · intro c hc hcj hpj
    have hclt := heapParent_lt hc
    unfold Below
    rw [hget, hget, if_neg hcj, if_neg hpj]
    by_cases hci : c = i
    · subst hci
      rw [if_neg hclt.ne, if_pos rfl]
      exact h.grand hc j hpos hp
    · rw [if_neg hci]
      by_cases hpi : heapParent c = i
      · rw [if_pos hpi]
        exact hmin c hc hpi
      · rw [if_neg hpi]
        exact h.except c hc hci hpi
  · intro _ c hc hcp
    have hclt := heapParent_lt hc
    have hne : c ≠ i := by omega
    unfold Below
    rw [hget, hget, hp, if_pos rfl, if_neg hne, if_neg (by omega)]
    have hexcept := h.except c hc hne (by omega)
    rw [hcp] at hexcept
    exact hexcept

/-! ## Changes of a heap -/

theorem HeapOrdered.root (hrefl : ∀ x, le x x) (htrans : ∀ x y z, le x y → le y z → le x z)
    (h : HeapOrdered le a) (i : ℕ) : Below le a 0 i := by
  induction i using Nat.strongRecOn with
  | ind i ih =>
    rcases Nat.eq_zero_or_pos i with rfl | hi
    · intro x hx y hy
      rw [Option.mem_unique hx hy]
      exact hrefl y
    · rcases Nat.lt_or_ge i a.size with hsize | hsize
      · have hlt := heapParent_lt hi
        exact below_trans htrans (hlt.trans hsize) (ih _ hlt) (h i hi)
      · exact below_of_size_le hsize

theorem HeapOrdered.push (h : HeapOrdered le a) (x : α) : HeapUp le (a.push x) a.size := by
  constructor
  · intro c hc hne
    rcases Nat.lt_or_ge c a.size with hlt | hge
    · have hp := (heapParent_lt hc).trans hlt
      unfold Below
      rw [Array.getElem?_push, Array.getElem?_push, if_neg hne, if_neg hp.ne]
      exact h c hc
    · apply below_of_size_le
      rw [Array.size_push]
      omega
  · intro _ c hc hcp
    apply below_of_size_le
    have := heapParent_lt hc
    rw [Array.size_push]
    omega

theorem HeapExcept.change (h : HeapExcept le a i)
    (hsame : ∀ k k', k ≠ i → k' ≠ i → Below le a k k' → Below le' a' k k') :
    HeapExcept le' a' i := by
  constructor
  · intro c hc hci hpi
    exact hsame _ _ hpi hci (h.except c hc hci hpi)
  · intro hpos c hc hcp
    have hlt := heapParent_lt hc
    have hlt' := heapParent_lt hpos
    exact hsame _ _ hlt'.ne (by omega) (h.grand hpos c hc hcp)

theorem HeapExcept.init (h : HeapExcept le (a.push x) a.size) : HeapOrdered le a := by
  intro c hc y hy z hz
  have hlt := heapParent_lt hc
  have hsize := (Array.getElem?_eq_some_iff.mp hz).1
  have hget : ∀ k < a.size, (a.push x)[k]? = a[k]? := by
    intro k hk
    rw [Array.getElem?_push, if_neg hk.ne]
  apply h.except c hc hsize.ne (by omega)
  · rwa [hget _ (by omega)]
  · rwa [hget _ hsize]

theorem HeapOrdered.change (htrans : ∀ x y z, le x y → le y z → le x z) (h : HeapOrdered le a)
    (hi : i < a.size) (hsame : ∀ k k', k ≠ i → k' ≠ i → Below le a k k' → Below le' a' k k') :
    HeapExcept le' a' i := by
  constructor
  · intro c hc hci hpi
    exact hsame _ _ hpi hci (h c hc)
  · intro hpos c hc hcp
    have hlt := heapParent_lt hc
    have hlt' := heapParent_lt hpos
    have hpi : Below le a i c := by
      have := h c hc
      rwa [hcp] at this
    exact hsame _ _ hlt'.ne (by omega) (below_trans htrans hi (h i hpos) hpi)

end NetworkManager.Lib
