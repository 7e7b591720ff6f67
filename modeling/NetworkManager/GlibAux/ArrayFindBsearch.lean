import Mathlib.Data.Int.Notation
import Mathlib.Order.Basic
import Mathlib.Tactic.Common

/-!
# Binary search in a sorted array

`nm_array_find_bsearch()` returns the index of an element that compares equal to the needle, or
the bitwise inverse of the index where the needle belongs.
-/

namespace NetworkManager.GlibAux

variable {α : Type*} (cmp : α → Ordering) (list : List α)

/-- The loop over the indices from `imin` to before `iend`, which is `imax + 1`. -/
def arrayFindBsearchLoop (imin iend : ℕ) : ℤ :=
  if h : imin < iend then
    let imid := imin + (iend - 1 - imin) / 2
    match list[imid]?.map cmp with
    | some .eq => imid
    | some .lt => arrayFindBsearchLoop (imid + 1) iend
    | _ => arrayFindBsearchLoop imin imid
  else -imin - 1
termination_by iend - imin

/-- `nm_array_find_bsearch()`; the elements are compared with the needle. -/
def arrayFindBsearch : ℤ := arrayFindBsearchLoop cmp list 0 list.length

variable {cmp list}

/-- Elements before one that is too small are too small, and those after one that is too large are
too large. -/
def SortedFor (cmp : α → Ordering) (list : List α) : Prop :=
  list.Pairwise fun a b => (cmp b = .lt → cmp a = .lt) ∧ (cmp a = .gt → cmp b = .gt)

/-- Either an equal element is found, or the index where all elements before are smaller, and all
others larger. -/
theorem arrayFindBsearchLoop_spec (hsorted : SortedFor cmp list) {imin iend : ℕ}
    (hle : imin ≤ iend) (hend : iend ≤ list.length)
    (hlow : ∀ i a, i < imin → list[i]? = some a → cmp a = .lt)
    (hhigh : ∀ i a, iend ≤ i → list[i]? = some a → cmp a = .gt) :
    (∃ i a, arrayFindBsearchLoop cmp list imin iend = Int.ofNat i ∧ list[i]? = some a ∧
      cmp a = .eq) ∨
    ∃ p : ℕ, arrayFindBsearchLoop cmp list imin iend = -(p : ℤ) - 1 ∧ p ≤ list.length ∧
      (∀ i a, i < p → list[i]? = some a → cmp a = .lt) ∧
      (∀ i a, p ≤ i → list[i]? = some a → cmp a = .gt) := by
  have hpair : ∀ (i j : ℕ) (a b : α), i < j → list[i]? = some a → list[j]? = some b →
      (cmp b = .lt → cmp a = .lt) ∧ (cmp a = .gt → cmp b = .gt) := by
    intro i j a b hij ha hb
    obtain ⟨hi, rfl⟩ := List.getElem?_eq_some_iff.mp ha
    obtain ⟨hj, rfl⟩ := List.getElem?_eq_some_iff.mp hb
    exact List.pairwise_iff_getElem.mp hsorted i j hi hj hij
  induction hn : iend - imin using Nat.strongRecOn generalizing imin iend with
  | _ n ih =>
    unfold arrayFindBsearchLoop
    by_cases h : imin < iend
    · obtain ⟨imid, hmid⟩ : ∃ imid, imid = imin + (iend - 1 - imin) / 2 := ⟨_, rfl⟩
      have hbounds : imin ≤ imid ∧ imid < iend := by omega
      have hget : list[imid]? = some list[imid] := List.getElem?_eq_getElem (by omega)
      simp only [h, dif_pos, ← hmid, hget, Option.map_some]
      cases hcmp : cmp list[imid] with
      | eq => exact .inl ⟨imid, _, rfl, hget, hcmp⟩
      | lt =>
        apply ih (iend - (imid + 1)) (by omega) (by omega) hend _ hhigh rfl
        intro i a hi ha
        by_cases heq : i = imid
        · subst heq
          rw [hget] at ha
          exact Option.some.inj ha ▸ hcmp
        · exact (hpair i imid a _ (by omega) ha hget).1 hcmp
      | gt =>
        apply ih (imid - imin) (by omega) (by omega) (by omega) hlow _ rfl
        intro i a hi ha
        by_cases heq : i = imid
        · subst heq
          rw [hget] at ha
          exact Option.some.inj ha ▸ hcmp
        · exact (hpair imid i _ a (by omega) hget ha).2 hcmp
    · have heq : imin = iend := by omega
      subst heq
      simp only [h, dif_neg, not_false_eq_true]
      exact .inr ⟨imin, rfl, hend, hlow, hhigh⟩

theorem arrayFindBsearch_spec (hsorted : SortedFor cmp list) :
    (∃ i a, arrayFindBsearch cmp list = Int.ofNat i ∧ list[i]? = some a ∧ cmp a = .eq) ∨
    ∃ p : ℕ, arrayFindBsearch cmp list = -(p : ℤ) - 1 ∧ p ≤ list.length ∧
      (∀ i a, i < p → list[i]? = some a → cmp a = .lt) ∧
      (∀ i a, p ≤ i → list[i]? = some a → cmp a = .gt) := by
  apply arrayFindBsearchLoop_spec hsorted (Nat.zero_le _) (Nat.le_refl _)
  · intro i a hi
    omega
  · intro i a hi ha
    obtain ⟨hlt, -⟩ := List.getElem?_eq_some_iff.mp ha
    omega

end NetworkManager.GlibAux
