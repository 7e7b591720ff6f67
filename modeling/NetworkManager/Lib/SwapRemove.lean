import Mathlib.Data.List.Perm.Basic
import Mathlib.Data.List.Count
import Mathlib.Order.Basic

/-!
# Sweeping an unordered array

An element is taken out of an unordered array by moving the last one into its place. A loop over
the indexes that does so never looks at the element that was moved. `sweepFast` is that loop; it
drops just the elements that it should if none of those that it moves is one of them.
-/

namespace NetworkManager.Lib

open List

variable {α : Type*}

def removeIndexFast (i : ℕ) (l : List α) : List α :=
  match l.getLast? with
  | none => l
  | some x => (l.set i x).dropLast

/-- The loop from index `i` on, for `n` more indexes: what is left, and what was removed. -/
def sweepFrom (p : α → Bool) : ℕ → ℕ → List α → List α × List α
  | 0, _, l => (l, [])
  | n + 1, i, l =>
    match l[i]? with
    | none => (l, [])
    | some x =>
      if p x then
        let rest := sweepFrom p n (i + 1) (removeIndexFast i l)
        (rest.1, x :: rest.2)
      else sweepFrom p n (i + 1) l

/-- Remove the elements with `p` while the loop goes on to the next index. -/
def sweepFast (p : α → Bool) (l : List α) : List α × List α := sweepFrom p l.length 0 l

variable {p e : α → Bool} {x y : α} {l done rest : List α} {n : ℕ}

/-! ## The loop over what is still to come -/

theorem removeIndexFast_last :
    removeIndexFast done.length (done ++ [x]) = done := by
  simp [removeIndexFast]

theorem removeIndexFast_append :
    removeIndexFast done.length (done ++ x :: (rest ++ [y])) = (done ++ [y]) ++ rest := by
  have hlast : (done ++ x :: (rest ++ [y])).getLast? = some y := by
    rw [← cons_append, ← append_assoc, List.getLast?_concat]
  have hset : (done ++ x :: (rest ++ [y])).set done.length y = ((done ++ [y]) ++ rest) ++ [y] := by
    simp
  simp only [removeIndexFast, hlast, hset, dropLast_concat]

theorem sweepFrom_nil : sweepFrom p n done.length done = (done, []) := by
  cases n with
  | zero => rfl
  | succ n => simp [sweepFrom]

theorem sweepFrom_keep (hx : ¬ p x) :
    sweepFrom p (n + 1) done.length (done ++ x :: rest) =
      sweepFrom p n (done ++ [x]).length ((done ++ [x]) ++ rest) := by
  simp [sweepFrom, hx]

theorem sweepFrom_last (hx : p x) :
    sweepFrom p (n + 1) done.length (done ++ [x]) = (done, [x]) := by
  have hget : (done ++ [x])[done.length]? = some x := by simp
  have hrest : sweepFrom p n (done.length + 1) done = (done, []) := by
    cases n with
    | zero => rfl
    | succ n => simp [sweepFrom]
  simp only [sweepFrom, hget, if_pos hx, removeIndexFast_last, hrest]

theorem sweepFrom_remove (hx : p x) :
    sweepFrom p (n + 1) done.length (done ++ x :: (rest ++ [y])) =
      ((sweepFrom p n (done ++ [y]).length ((done ++ [y]) ++ rest)).1,
        x :: (sweepFrom p n (done ++ [y]).length ((done ++ [y]) ++ rest)).2) := by
  have hget : (done ++ x :: (rest ++ [y]))[done.length]? = some x := by simp
  simp only [sweepFrom, hget, if_pos hx, removeIndexFast_append, length_append,
    length_singleton]

/-! ## What a sweep does -/

theorem sweepFrom_spec (done : List α) (hn : rest.length ≤ n) :
    ∃ kept, (sweepFrom p n done.length (done ++ rest)).1 = done ++ kept ∧
      (kept ++ (sweepFrom p n done.length (done ++ rest)).2).Perm rest ∧
      ∀ x ∈ (sweepFrom p n done.length (done ++ rest)).2, p x := by
  induction n generalizing done rest with
  | zero =>
    obtain rfl := eq_nil_of_length_eq_zero (Nat.le_zero.mp hn)
    exact ⟨[], by simp [sweepFrom]⟩
  | succ n ih =>
    cases rest with
    | nil => exact ⟨[], by simp [sweepFrom_nil]⟩
    | cons x r =>
      have hr : r.length ≤ n := by simpa using hn
      by_cases hx : p x
      · rcases eq_nil_or_concat r with rfl | ⟨r, y, rfl⟩
        · exact ⟨[], by simp [sweepFrom_last hx, hx]⟩
        · rw [concat_eq_append] at hr ⊢
          have hlen : r.length ≤ n := by
            rw [length_append] at hr
            omega
          obtain ⟨kept, hkept, hperm, hall⟩ := ih (done ++ [y]) hlen
          rw [sweepFrom_remove hx]
          refine ⟨y :: kept, ?_, ?_, forall_mem_cons.mpr ⟨hx, hall⟩⟩
          · rw [hkept, append_assoc, singleton_append]
          · have hmoved := (hperm.cons y).trans (perm_append_singleton y r).symm
            exact perm_middle.trans (hmoved.cons x)
      · have happend : done ++ x :: r = (done ++ [x]) ++ r := by simp
        obtain ⟨kept, hkept, hperm, hall⟩ := ih (done ++ [x]) hr
        rw [sweepFrom_keep hx]
        refine ⟨x :: kept, ?_, hperm.cons x, hall⟩
        rw [hkept, append_assoc, singleton_append]

theorem sweepFast_perm : ((sweepFast p l).1 ++ (sweepFast p l).2).Perm l := by
  obtain ⟨kept, hkept, hperm, _⟩ := sweepFrom_spec (p := p) [] (Nat.le_refl l.length)
  have hfst : (sweepFast p l).1 = kept := hkept
  rw [hfst]
  exact hperm

/-- Where the elements to drop may lie. With `m` of them, a sweep for `p` must not take out any
other element in front of the last `m`, and the last `m - 1` must not be among them. -/
def SweepExact (p e : α → Bool) (l : List α) : Prop :=
  (∀ x ∈ l.take (l.length - l.countP e), p x → e x) ∧
    ∀ x ∈ l.drop (l.length - (l.countP e - 1)), ¬ e x

instance : Decidable (SweepExact p e l) := inferInstanceAs (Decidable (_ ∧ _))

theorem sweepExact_keep (hx : ¬ p x) (he : ¬ e x) :
    SweepExact p e (x :: rest) ↔ SweepExact p e rest := by
  have hle := countP_le_length (p := e) (l := rest)
  have htake : rest.length + 1 - rest.countP e = (rest.length - rest.countP e) + 1 := by omega
  have hdrop : rest.length + 1 - (rest.countP e - 1) = (rest.length - (rest.countP e - 1)) + 1 := by
    omega
  simp only [SweepExact, countP_cons_of_neg he, length_cons, htake, hdrop,
    take_succ_cons, drop_succ_cons, forall_mem_cons, hx]
  simp

theorem sweepExact_last (he : e x) : SweepExact p e [x] := by
  simp [SweepExact, he]

theorem sweepExact_remove (hx : e x) (hy : ¬ e y) :
    SweepExact p e (x :: (rest ++ [y])) ↔ SweepExact p e rest := by
  have hle := countP_le_length (p := e) (l := rest)
  have hcount : (x :: (rest ++ [y])).countP e = rest.countP e + 1 := by
    simp [countP_cons_of_pos hx, countP_append, hy]
  have hlen : (x :: (rest ++ [y])).length = rest.length + 2 := by simp
  have htake : rest.length + 2 - (rest.countP e + 1) = (rest.length - rest.countP e) + 1 := by omega
  have htail : (rest ++ [y]).take (rest.length - rest.countP e) =
      rest.take (rest.length - rest.countP e) := take_append_of_le_length (by omega)
  unfold SweepExact
  rw [hcount, hlen, htake, take_succ_cons, htail, Nat.add_sub_cancel]
  simp only [forall_mem_cons, hx, imp_true_iff, true_and]
  apply and_congr_right
  intro _
  rcases Nat.eq_zero_or_pos (rest.countP e) with hzero | hpos
  · simp [hzero]
  · have hdrop : rest.length + 2 - rest.countP e =
        (rest.length - (rest.countP e - 1)) + 1 := by omega
    rw [hdrop, drop_succ_cons, drop_append_of_le_length (by omega)]
    rw [forall_mem_append, forall_mem_singleton, and_iff_left hy]

theorem not_sweepExact_of_moved (hx : e x) (hy : e y) : ¬ SweepExact p e (x :: (rest ++ [y])) := by
  intro h
  have hle := countP_le_length (p := e) (l := rest)
  have hcount : (x :: (rest ++ [y])).countP e = rest.countP e + 2 := by
    simp [countP_cons_of_pos hx, countP_append, hy]
  have hdrop : (x :: (rest ++ [y])).length - ((x :: (rest ++ [y])).countP e - 1) =
      (rest.length - rest.countP e) + 1 := by
    rw [hcount]
    simp only [length_cons, length_append, length_nil]
    omega
  refine h.2 y ?_ hy
  rw [hdrop, drop_succ_cons, drop_append_of_le_length (by omega)]
  simp

theorem not_sweepExact_of_wrong (hx : p x) (he : ¬ e x) : ¬ SweepExact p e (x :: rest) := by
  intro h
  have hle := countP_le_length (p := e) (l := rest)
  have htake : (x :: rest).length - (x :: rest).countP e =
      (rest.length - rest.countP e) + 1 := by
    rw [countP_cons_of_neg he, length_cons]
    omega
  refine he (h.1 x ?_ hx)
  rw [htake, take_succ_cons]
  exact mem_cons_self

/-- The elements that are removed are those with `e` if and only if these lie as they should. -/
theorem sweepFrom_perm_iff (done : List α) (hn : rest.length ≤ n) (himp : ∀ x ∈ rest, e x → p x) :
    (sweepFrom p n done.length (done ++ rest)).2.Perm (rest.filter e) ↔ SweepExact p e rest := by
  induction n generalizing done rest with
  | zero =>
    obtain rfl := eq_nil_of_length_eq_zero (Nat.le_zero.mp hn)
    simp [sweepFrom, SweepExact]
  | succ n ih =>
    cases rest with
    | nil => simp [sweepFrom_nil, SweepExact]
    | cons x r =>
      obtain ⟨himpx, himpr⟩ := forall_mem_cons.mp himp
      have hr : r.length ≤ n := by simpa using hn
      by_cases hx : p x
      · by_cases he : e x
        · rw [filter_cons_of_pos he]
          rcases eq_nil_or_concat r with rfl | ⟨r, y, rfl⟩
          · simp [sweepFrom_last hx, sweepExact_last he]
          · rw [concat_eq_append] at *
            have hlen : r.length ≤ n := by
              rw [length_append] at hr
              omega
            have himp' : ∀ x ∈ r, e x → p x := fun x hmem => himpr x (mem_append_left _ hmem)
            rw [sweepFrom_remove hx, perm_cons, filter_append]
            by_cases hy : e y
            · -- The moved element is one of those to drop, but the loop has passed it.
              simp only [not_sweepExact_of_moved he hy, iff_false]
              intro hperm
              obtain ⟨kept, -, hrest, -⟩ := sweepFrom_spec (p := p) (done ++ [y]) hlen
              have hcount := hperm.countP_eq e
              have hrest := hrest.countP_eq e
              simp only [countP_append, countP_filter, Bool.and_self,
                countP_singleton, hy] at hcount hrest
              grind
            · have hfilter : [y].filter e = [] := by simp [hy]
              rw [hfilter, append_nil, sweepExact_remove he hy]
              exact ih (done ++ [y]) hlen himp'
        · simp only [not_sweepExact_of_wrong hx he, iff_false]
          intro hperm
          have hmem : x ∈ (sweepFrom p (n + 1) done.length (done ++ x :: r)).2 := by
            rcases eq_nil_or_concat r with rfl | ⟨r, y, rfl⟩
            · simp [sweepFrom_last hx]
            · rw [concat_eq_append, sweepFrom_remove hx]
              exact mem_cons_self
          exact he (mem_filter.mp (hperm.mem_iff.mp hmem)).2
      · have he : ¬ e x := fun he => hx (himpx he)
        have happend : done ++ x :: r = (done ++ [x]) ++ r := by simp
        rw [filter_cons_of_neg he, sweepExact_keep hx he, sweepFrom_keep hx]
        exact ih (done ++ [x]) hr himpr

theorem sweepFast_perm_filter_iff (himp : ∀ x ∈ l, e x → p x) :
    (sweepFast p l).1.Perm (l.filter fun x => !e x) ↔ SweepExact p e l := by
  have hiff := sweepFrom_perm_iff (p := p) [] (Nat.le_refl l.length) himp
  have hall : ((sweepFast p l).1 ++ (sweepFast p l).2).Perm
      (l.filter (fun x => !e x) ++ l.filter e) :=
    sweepFast_perm.trans ((filter_append_perm e l).symm.trans perm_append_comm)
  rw [← hiff]
  constructor
  · exact fun h => (perm_append_left_iff _).mp ((h.append_right _).symm.trans hall)
  · exact fun h => (perm_append_right_iff _).mp ((h.append_left _).symm.trans hall)

theorem sweepFast_clears_iff : (∀ x ∈ (sweepFast p l).1, ¬ p x) ↔ SweepExact p p l := by
  rw [← sweepFast_perm_filter_iff fun _ _ h => h]
  constructor
  · intro h
    obtain ⟨kept, hkept, hperm, hall⟩ :=
      sweepFrom_spec (p := p) [] (Nat.le_refl l.length)
    have hfst : (sweepFast p l).1 = kept := hkept
    have hfilter := hperm.filter fun x => !p x
    have hremoved : (sweepFrom p l.length 0 l).2.filter (fun x => !p x) = [] := by
      simpa using hall
    have hself : kept.filter (fun x => !p x) = kept := by
      rw [hfst] at h
      simpa using h
    rw [hfst]
    simpa [filter_append, hremoved, hself] using hfilter
  · intro h x hx
    simpa using (mem_filter.mp (h.mem_iff.mp hx)).2

end NetworkManager.Lib
