import Mathlib.Algebra.BigOperators.Group.List.Basic
import Mathlib.Data.List.Nodup
import Mathlib.Algebra.Order.Ring.Int

/-!
# Linking and moving the elements of a list

An intrusive list of pointers without duplicates. An element is linked at an end or next
to another element, and moving it means to unlink it first. Moving only permutes the
list, and linking permutes the list with the element in front.
-/

namespace NetworkManager.Lib

open List

variable {α : Type*} [DecidableEq α] {x y : α} {l : List α}

def linkBefore (y x : α) (l : List α) : List α := l.flatMap fun z => if z = y then [x, z] else [z]

def linkAfter (y x : α) (l : List α) : List α := l.flatMap fun z => if z = y then [z, x] else [z]

def moveFront (x : α) (l : List α) : List α := x :: l.erase x

def moveTail (x : α) (l : List α) : List α := l.erase x ++ [x]

def moveBefore (y x : α) (l : List α) : List α := if y = x then l else linkBefore y x (l.erase x)

def moveAfter (y x : α) (l : List α) : List α := if y = x then l else linkAfter y x (l.erase x)

theorem flatMap_ite_of_notMem {f : α → List α} (h : y ∉ l) :
    (l.flatMap fun z => if z = y then f z else [z]) = l := by
  induction l with
  | nil => rfl
  | cons z l ih =>
    rw [mem_cons, not_or] at h
    rw [flatMap_cons, if_neg (Ne.symm h.1), ih h.2, singleton_append]

theorem linkBefore_perm (hl : l.Nodup) (hy : y ∈ l) : (linkBefore y x l).Perm (x :: l) := by
  induction l with
  | nil => simp at hy
  | cons z l ih =>
    obtain ⟨hz, hl⟩ := nodup_cons.mp hl
    by_cases h : z = y
    · rw [← h, linkBefore, flatMap_cons, if_pos rfl, flatMap_ite_of_notMem hz]
      exact List.Perm.refl _
    · have hy : y ∈ l := (mem_cons.mp hy).resolve_left (Ne.symm h)
      rw [linkBefore, flatMap_cons, if_neg h]
      exact ((ih hl hy).cons z).trans (List.Perm.swap x z l)

theorem linkAfter_perm (hl : l.Nodup) (hy : y ∈ l) : (linkAfter y x l).Perm (x :: l) := by
  induction l with
  | nil => simp at hy
  | cons z l ih =>
    obtain ⟨hz, hl⟩ := nodup_cons.mp hl
    by_cases h : z = y
    · rw [← h, linkAfter, flatMap_cons, if_pos rfl, flatMap_ite_of_notMem hz]
      exact List.Perm.swap x z l
    · have hy : y ∈ l := (mem_cons.mp hy).resolve_left (Ne.symm h)
      rw [linkAfter, flatMap_cons, if_neg h]
      exact ((ih hl hy).cons z).trans (List.Perm.swap x z l)

theorem moveFront_perm (hx : x ∈ l) : (moveFront x l).Perm l := (perm_cons_erase hx).symm

theorem moveTail_perm (hx : x ∈ l) : (moveTail x l).Perm l :=
  (perm_append_singleton x _).trans (perm_cons_erase hx).symm

theorem moveBefore_perm (hl : l.Nodup) (hx : x ∈ l) (hy : y ∈ l) : (moveBefore y x l).Perm l := by
  unfold moveBefore
  split_ifs with h
  · exact List.Perm.refl l
  · have hmem : y ∈ l.erase x := (mem_erase_of_ne h).mpr hy
    exact (linkBefore_perm (hl.erase x) hmem).trans (perm_cons_erase hx).symm

theorem moveAfter_perm (hl : l.Nodup) (hx : x ∈ l) (hy : y ∈ l) : (moveAfter y x l).Perm l := by
  unfold moveAfter
  split_ifs with h
  · exact List.Perm.refl l
  · have hmem : y ∈ l.erase x := (mem_erase_of_ne h).mpr hy
    exact (linkAfter_perm (hl.erase x) hmem).trans (perm_cons_erase hx).symm

theorem sum_map_update {f g : α → ℕ} (hl : l.Nodup) (hx : x ∈ l)
    (hf : ∀ y ∈ l, y ≠ x → g y = f y) :
    (l.map g).sum + f x = (l.map f).sum + g x := by
  have hperm := perm_cons_erase hx
  have hsame : (l.erase x).map g = (l.erase x).map f := by
    apply map_congr_left
    intro y hy
    obtain ⟨hne, hmem⟩ := hl.mem_erase_iff.mp hy
    exact hf y hmem hne
  rw [(hperm.map g).sum_eq, (hperm.map f).sum_eq, map_cons, map_cons, hsame,
    sum_cons, sum_cons]
  omega

end NetworkManager.Lib
