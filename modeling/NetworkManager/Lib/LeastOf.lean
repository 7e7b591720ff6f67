import NetworkManager.Lib.Compare

/-!
# The least candidate of a set

A set of objects some of which are candidates, and the least of these, which is kept up to
date while objects come and go. A new object only has to be compared with the least
candidate, and an object that goes only matters if it was that.
-/

namespace NetworkManager.Lib

open Std (TransCmp OrientedCmp ReflCmp)

variable {α : Type*}

/-- Of the current best candidate and another object, the better one. -/
def pickLeast (cand : α → Bool) (cmp : α → α → Ordering) (cur : Option α) (a : α) : Option α :=
  if cand a then
    match cur with
    | none => some a
    | some b => if cmp b a = .gt then some a else some b
  else cur

/-- `best` is the least candidate in the set, if there is a candidate at all. -/
structure LeastOf (cand : α → Bool) (cmp : α → α → Ordering) (s : Set α) (best : Option α) :
    Prop where
  of_none : best = none → ∀ a ∈ s, cand a = false
  of_some : ∀ b, best = some b → b ∈ s ∧ cand b ∧ ∀ a ∈ s, cand a → (cmp b a).isLE

variable {cand : α → Bool} {cmp : α → α → Ordering} {s t : Set α} {best best' : Option α} {a : α}

theorem leastOf_empty : LeastOf cand cmp (∅ : Set α) none where
  of_none _ _ h := absurd h (Set.notMem_empty _)
  of_some _ h := nomatch h

theorem LeastOf.subset (h : LeastOf cand cmp s best) (hts : t ⊆ s) (hbest : ∀ b ∈ best, b ∈ t) :
    LeastOf cand cmp t best where
  of_none hnone a ha := h.of_none hnone a (hts ha)
  of_some b hb := by
    obtain ⟨-, hcand, hleast⟩ := h.of_some b hb
    exact ⟨hbest b hb, hcand, fun a ha => hleast a (hts ha)⟩

/-- An object that comes is compared with the least candidate only. -/
theorem LeastOf.insert (hcmp : TransCmp cmp) (h : LeastOf cand cmp s best) (a : α) :
    LeastOf cand cmp (insert a s) (pickLeast cand cmp best a) := by
  have hself (b : α) : (cmp b b).isLE := ReflCmp.isLE_rfl
  unfold pickLeast
  split_ifs with ha
  · cases best with
    | none =>
      constructor
      · intro hnone
        cases hnone
      · intro b hb
        cases hb
        refine ⟨Set.mem_insert a s, ha, ?_⟩
        rintro c (rfl | hc) hcand
        · exact hself _
        · rw [h.of_none rfl c hc] at hcand
          cases hcand
    | some b =>
      obtain ⟨hmem, hcand, hleast⟩ := h.of_some b rfl
      dsimp only
      split_ifs with hgt
      · constructor
        · intro hnone
          cases hnone
        · intro b' hb'
          cases hb'
          have hab : (cmp a b).isLE := Ordering.isLE_of_eq_lt (OrientedCmp.gt_iff_lt.mp hgt)
          refine ⟨Set.mem_insert a s, ha, ?_⟩
          rintro c (rfl | hc) hc'
          · exact hself _
          · exact hcmp.isLE_trans hab (hleast c hc hc')
      · constructor
        · intro hnone
          cases hnone
        · intro b' hb'
          cases hb'
          refine ⟨Set.mem_insert_of_mem a hmem, hcand, ?_⟩
          rintro c (rfl | hc) hc'
          · exact Ordering.ne_gt_iff_isLE.mp hgt
          · exact hleast c hc hc'
  · constructor
    · rintro hnone c (rfl | hc)
      · exact Bool.eq_false_iff.mpr ha
      · exact h.of_none hnone c hc
    · intro b hb
      obtain ⟨hmem, hcand, hleast⟩ := h.of_some b hb
      refine ⟨Set.mem_insert_of_mem a hmem, hcand, ?_⟩
      rintro c (rfl | hc) hc'
      · exact absurd hc' ha
      · exact hleast c hc hc'

theorem LeastOf.unique (hcmp : TransCmp cmp) (heq : ∀ a b, cmp a b = .eq → a = b)
    (h : LeastOf cand cmp s best) (h' : LeastOf cand cmp s best') : best = best' := by
  cases best with
  | none =>
    cases best' with
    | none => rfl
    | some b =>
      obtain ⟨hmem, hcand, -⟩ := h'.of_some b rfl
      rw [h.of_none rfl b hmem] at hcand
      cases hcand
  | some b =>
    obtain ⟨hmem, hcand, hleast⟩ := h.of_some b rfl
    cases best' with
    | none =>
      rw [h'.of_none rfl b hmem] at hcand
      cases hcand
    | some b' =>
      obtain ⟨hmem', hcand', hleast'⟩ := h'.of_some b' rfl
      exact congrArg some (heq b b'
        (OrientedCmp.isLE_antisymm (hleast b' hmem' hcand') (hleast' b hmem hcand)))

end NetworkManager.Lib
