import Mathlib.Data.List.Sort

/-!
# The insertion sort is stable

Elements that the relation orders both ways stay in the order in which they were.
-/

namespace NetworkManager.Lib

open List

variable {α : Type*} {r : α → α → Prop} [DecidableRel r]

theorem filter_insertionSort [Std.Total r] [IsTrans α r] {p : α → Bool} {l : List α}
    (h : ∀ a b, p a → p b → r a b) : (l.insertionSort r).filter p = l.filter p := by
  have hpair : (l.filter p).Pairwise r := by
    refine pairwise_of_forall_mem_list fun a ha b hb => ?_
    exact h a b (mem_filter.mp ha).2 (mem_filter.mp hb).2
  have hsub : (l.filter p).Sublist (l.insertionSort r) :=
    sublist_insertionSort hpair filter_sublist
  have hsub' := hsub.filter p
  rw [filter_filter] at hsub'
  simp only [Bool.and_self] at hsub'
  have hlen : (l.filter p).length = ((l.insertionSort r).filter p).length :=
    ((perm_insertionSort r l).filter p).length_eq.symm
  exact (hsub'.eq_of_length hlen).symm

theorem pair_sublist {l : List α} {i j : ℕ} (hij : i < j) (hj : j < l.length) :
    [l[i], l[j]].Sublist l := by
  have hfirst : l[i] ∈ l.take j := mem_take_iff_getElem.mpr ⟨i, by omega, rfl⟩
  have hsecond : l[j] ∈ l.drop j := by
    rw [drop_eq_getElem_cons hj]
    exact mem_cons_self
  calc
    [l[i], l[j]].Sublist (l.take j ++ l.drop j) :=
      (singleton_sublist.mpr hfirst).append (singleton_sublist.mpr hsecond)
    _ = l := take_append_drop j l

/-- Of two elements, the first one is in front of the second, also in the list that was sorted if
the relation orders them both ways. -/
theorem pairwise_insertionSort_stable [Std.Total r] [IsTrans α r] (l : List α) :
    (l.insertionSort r).Pairwise fun a b => r a b ∧ (r b a → [a, b].Sublist l) := by
  have hinsert (c : α) (l₀ : List α) (s : List α) (hs : ∀ a ∈ s, a ∈ l₀)
      (h : s.Pairwise fun a b => r a b ∧ (r b a → [a, b].Sublist l₀)) :
      (s.orderedInsert r c).Pairwise fun a b => r a b ∧ (r b a → [a, b].Sublist (c :: l₀)) := by
    have hkeep {a b : α} (h : r a b ∧ (r b a → [a, b].Sublist l₀)) :
        r a b ∧ (r b a → [a, b].Sublist (c :: l₀)) := ⟨h.1, fun hba => (h.2 hba).cons c⟩
    induction s with
    | nil => simp
    | cons b s ih =>
      obtain ⟨hb, hpair⟩ := pairwise_cons.mp h
      obtain ⟨hbl, hsl⟩ := forall_mem_cons.mp hs
      by_cases hcb : r c b
      · rw [orderedInsert_cons_of_le _ _ hcb]
        refine pairwise_cons.mpr ⟨fun a ha => ⟨?_, fun _ => ?_⟩, h.imp hkeep⟩
        · rcases mem_cons.mp ha with rfl | ha
          · exact hcb
          · exact IsTrans.trans _ _ _ hcb (hb a ha).1
        · exact (singleton_sublist.mpr (hs a ha)).cons_cons c
      · rw [orderedInsert_of_not_le _ _ hcb]
        refine pairwise_cons.mpr ⟨fun a ha => ?_, ih hsl hpair⟩
        rcases (mem_orderedInsert r).mp ha with rfl | ha
        · exact ⟨(Std.Total.total a b).resolve_left hcb, fun h => absurd h hcb⟩
        · exact hkeep (hb a ha)
  induction l with
  | nil => exact .nil
  | cons c l ih => exact hinsert c l _ (fun a ha => (mem_insertionSort r).mp ha) ih

/-- A list of the same elements in which they stand so is the sorted one. -/
theorem eq_insertionSort_of_stable [Std.Total r] [IsTrans α r] {l l' : List α} (hnodup : l.Nodup)
    (hperm : l'.Perm l) (h : l'.Pairwise fun a b => r a b ∧ (r b a → [a, b].Sublist l)) :
    l' = l.insertionSort r := by
  refine List.Perm.eq_of_pairwise ?_ h (pairwise_insertionSort_stable l)
    (hperm.trans (perm_insertionSort r l).symm)
  rintro a b - - ⟨hab, hsub⟩ ⟨hba, hsub'⟩
  obtain ⟨r₁, r₂, hr, ha, hb⟩ := cons_sublist_iff.mp (hsub hba)
  obtain ⟨t₁, t₂, ht, hb', ha'⟩ := cons_sublist_iff.mp (hsub' hab)
  rw [singleton_sublist] at hb ha'
  have hdisjoint := nodup_append.mp (hr ▸ hnodup)
  have hdisjoint' := nodup_append.mp (ht ▸ hnodup)
  rcases append_eq_append_iff.mp (hr.symm.trans ht) with ⟨m, rfl, -⟩ | ⟨m, rfl, -⟩
  · exact absurd rfl (hdisjoint'.2.2 a (mem_append_left m ha) a ha')
  · exact absurd rfl (hdisjoint.2.2 b (mem_append_left m hb') b hb)

end NetworkManager.Lib
