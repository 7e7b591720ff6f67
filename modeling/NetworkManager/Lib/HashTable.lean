import Mathlib.Data.List.Nodup
import Mathlib.Data.List.Perm.Basic

/-!
# Hash tables of pointers

A hash table holds pointers next to the hash that the target had when it was added. Its
hash and equality functions look through a pointer, at whatever `view` finds there, so
that a later write to the target can put it out of reach. A table is `Faithful` to a set
of pointers if it holds just these, each under the hash of what it points to now.
-/

namespace NetworkManager.Lib

open List

variable {κ υ : Type*} (view : κ → Option υ) (hash : υ → ℕ) (equal : υ → υ → Bool)

/-- The node has the hash of `u` and compares equal to it. -/
def nodeMatches (u : υ) (n : ℕ × κ) : Bool :=
  n.1 == hash u && (view n.2).any fun v => equal v u

def tableLookup (u : υ) (tbl : List (ℕ × κ)) : Option κ :=
  (tbl.find? (nodeMatches view hash equal u)).map Prod.snd

def tableAdd (k : κ) (tbl : List (ℕ × κ)) : List (ℕ × κ) :=
  match view k with
  | none => tbl
  | some u => tbl.eraseP (nodeMatches view hash equal u) ++ [(hash u, k)]

def tableRemove (k : κ) (tbl : List (ℕ × κ)) : List (ℕ × κ) :=
  match view k with
  | none => tbl
  | some u => tbl.eraseP (nodeMatches view hash equal u)

structure Faithful (keys : κ → Prop) (tbl : List (ℕ × κ)) : Prop where
  nodup : (tbl.map Prod.snd).Nodup
  mem_iff : ∀ k, k ∈ tbl.map Prod.snd ↔ keys k
  hashed : ∀ n ∈ tbl, ∃ u, view n.2 = some u ∧ n.1 = hash u

/-- At most one of the pointers has a target that compares equal to `u`. -/
def UniqueFor (keys : κ → Prop) (u : υ) : Prop :=
  ∀ k k' v v', keys k → keys k' → view k = some v → view k' = some v' → equal v u → equal v' u →
    k = k'

variable {view hash equal} {keys : κ → Prop} {tbl : List (ℕ × κ)} {u : υ} {k : κ}

theorem nodeMatches_iff (hequal : ∀ u v, equal u v → hash u = hash v)
    (htbl : Faithful view hash keys tbl) {n : ℕ × κ} (hn : n ∈ tbl) :
    nodeMatches view hash equal u n ↔ ∃ v, view n.2 = some v ∧ equal v u := by
  obtain ⟨v, hv, hhash⟩ := htbl.hashed n hn
  simp only [nodeMatches, hv, Option.any_some, Bool.and_eq_true, beq_iff_eq, Option.some.injEq,
    exists_eq_left']
  constructor
  · exact fun h => h.2
  · exact fun h => ⟨hhash.trans (hequal v u h), h⟩

theorem tableLookup_eq_some_iff (hequal : ∀ u v, equal u v → hash u = hash v)
    (htbl : Faithful view hash keys tbl) (hunique : UniqueFor view equal keys u) :
    tableLookup view hash equal u tbl = some k ↔
      keys k ∧ ∃ v, view k = some v ∧ equal v u := by
  constructor
  · intro h
    obtain ⟨n, hn, rfl⟩ := Option.map_eq_some_iff.mp h
    have hmem := mem_of_find?_eq_some hn
    refine ⟨(htbl.mem_iff n.2).mp (mem_map_of_mem hmem), ?_⟩
    exact (nodeMatches_iff hequal htbl hmem).mp (List.find?_some hn)
  · rintro ⟨hk, v, hv, heq⟩
    obtain ⟨n, hn, rfl⟩ := mem_map.mp ((htbl.mem_iff k).mpr hk)
    have hmatch := (nodeMatches_iff hequal htbl hn).mpr ⟨v, hv, heq⟩
    cases hfind : tbl.find? (nodeMatches view hash equal u) with
    | none => exact absurd hmatch (List.find?_eq_none.mp hfind n hn)
    | some n' =>
      have hmem := mem_of_find?_eq_some hfind
      obtain ⟨v', hv', heq'⟩ := (nodeMatches_iff hequal htbl hmem).mp (List.find?_some hfind)
      have hsame : n'.2 = n.2 :=
        hunique _ _ v' v ((htbl.mem_iff _).mp (mem_map_of_mem hmem)) hk hv' hv heq' heq
      rw [tableLookup, hfind, Option.map_some, hsame]

theorem Faithful.congr {view' : κ → Option υ} {keys' : κ → Prop}
    (htbl : Faithful view hash keys tbl) (hkeys : ∀ k, keys k ↔ keys' k)
    (hview : ∀ k u, keys k → view k = some u → ∃ u', view' k = some u' ∧ hash u' = hash u) :
    Faithful view' hash keys' tbl := by
  refine ⟨htbl.nodup, fun k => (htbl.mem_iff k).trans (hkeys k), fun n hn => ?_⟩
  obtain ⟨u, hu, hhash⟩ := htbl.hashed n hn
  obtain ⟨u', hu', hsame⟩ :=
    hview n.2 u ((htbl.mem_iff n.2).mp (mem_map_of_mem hn)) hu
  exact ⟨u', hu', hhash.trans hsame.symm⟩

theorem Faithful.add (hequal : ∀ u v, equal u v → hash u = hash v)
    (htbl : Faithful view hash keys tbl) (hu : view k = some u)
    (hfresh : ∀ k' v, keys k' → view k' = some v → ¬ equal v u) (hk : ¬ keys k) :
    Faithful view hash (fun k' => keys k' ∨ k' = k) (tableAdd view hash equal k tbl) := by
  have hadd : tableAdd view hash equal k tbl = tbl ++ [(hash u, k)] := by
    simp only [tableAdd, hu]
    rw [eraseP_of_forall_not]
    intro n hn hmatch
    obtain ⟨v, hv, heq⟩ := (nodeMatches_iff hequal htbl hn).mp hmatch
    exact hfresh n.2 v ((htbl.mem_iff n.2).mp (mem_map_of_mem hn)) hv heq
  rw [hadd]
  refine ⟨?_, ?_, ?_⟩
  · rw [map_append, map_singleton, nodup_append]
    refine ⟨htbl.nodup, nodup_singleton k, ?_⟩
    rintro k' hk' k'' hk'' rfl
    rw [mem_singleton.mp hk''] at hk'
    exact hk ((htbl.mem_iff k).mp hk')
  · intro k'
    rw [map_append, mem_append, htbl.mem_iff]
    simp
  · intro n hn
    rcases mem_append.mp hn with hn | hn
    · exact htbl.hashed n hn
    · rw [mem_singleton.mp hn]
      exact ⟨u, hu, rfl⟩

theorem map_eraseP_key [DecidableEq κ] {p : ℕ × κ → Bool} {l : List (ℕ × κ)}
    (h : ∀ n ∈ l, p n ↔ n.2 = k) : (l.eraseP p).map Prod.snd = (l.map Prod.snd).erase k := by
  induction l with
  | nil => rfl
  | cons n l ih =>
    have htail := ih fun m hm => h m (mem_cons_of_mem n hm)
    by_cases hn : n.2 = k
    · have hp : p n := (h n mem_cons_self).mpr hn
      rw [eraseP_cons_of_pos hp, map_cons, hn, erase_cons_head]
    · have hp : ¬ p n := fun hp => hn ((h n mem_cons_self).mp hp)
      rw [eraseP_cons_of_neg hp, map_cons, map_cons, htail,
        erase_cons_tail (by simpa using hn)]

theorem Faithful.remove (hequal : ∀ u v, equal u v → hash u = hash v)
    (htbl : Faithful view hash keys tbl) (hk : keys k) (hu : view k = some u)
    (hself : equal u u) (hunique : UniqueFor view equal keys u) :
    Faithful view hash (fun k' => keys k' ∧ k' ≠ k) (tableRemove view hash equal k tbl) := by
  classical
  have hmatch (n : ℕ × κ) (hn : n ∈ tbl) : nodeMatches view hash equal u n ↔ n.2 = k := by
    rw [nodeMatches_iff hequal htbl hn]
    constructor
    · rintro ⟨v, hv, heq⟩
      exact hunique _ _ v u ((htbl.mem_iff n.2).mp (mem_map_of_mem hn)) hk hv hu heq hself
    · rintro rfl
      exact ⟨u, hu, hself⟩
  have hkeys := map_eraseP_key hmatch
  have hremove : tableRemove view hash equal k tbl =
      tbl.eraseP (nodeMatches view hash equal u) := by
    simp only [tableRemove, hu]
  rw [hremove]
  refine ⟨?_, ?_, ?_⟩
  · rw [hkeys]
    exact htbl.nodup.erase k
  · intro k'
    rw [hkeys, htbl.nodup.mem_erase_iff, htbl.mem_iff, and_comm]
  · intro n hn
    exact htbl.hashed n (mem_of_mem_eraseP hn)

end NetworkManager.Lib
