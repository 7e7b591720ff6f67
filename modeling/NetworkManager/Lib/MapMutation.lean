import Mathlib.Data.List.Basic

/-!
# Mutations of a map

A column of a database may hold a map from keys to values. It is changed by deleting keys and by
inserting pairs, of which those with a key that is in the map already are left out.
-/

namespace NetworkManager.Lib

variable {κ β : Type*} [DecidableEq κ]

def pairValue (pairs : List (κ × β)) (k : κ) : Option β := (pairs.find? (·.1 = k)).map (·.2)

inductive MapMutation (κ β : Type*)
  | delete (keys : List κ)
  | insert (pairs : List (κ × β))

def MapMutation.apply (m : κ → Option β) : MapMutation κ β → κ → Option β
  | .delete keys => fun k => if k ∈ keys then none else m k
  | .insert pairs => fun k => (m k).or (pairValue pairs k)

def applyMutations (mutations : List (MapMutation κ β)) (m : κ → Option β) : κ → Option β :=
  mutations.foldl MapMutation.apply m

section PairValue

variable {pairs : List (κ × β)} {k : κ}

@[simp] theorem pairValue_nil : pairValue ([] : List (κ × β)) k = none := rfl

theorem pairValue_cons {pair : κ × β} :
    pairValue (pair :: pairs) k = if pair.1 = k then some pair.2 else pairValue pairs k := by
  by_cases h : pair.1 = k <;> simp [pairValue, h]

theorem pairValue_isSome_iff : (pairValue pairs k).isSome ↔ k ∈ pairs.map (·.1) := by
  induction pairs with
  | nil => simp
  | cons pair pairs ih =>
    by_cases h : pair.1 = k
    · simp [pairValue_cons, h]
    · simp [pairValue_cons, h, ih, Ne.symm h]

theorem pairValue_filter (p : κ → Bool) :
    pairValue (pairs.filter fun pair => p pair.1) k = if p k then pairValue pairs k else none := by
  induction pairs with
  | nil => simp
  | cons pair pairs ih =>
    simp only [List.filter_cons, pairValue_cons]
    by_cases hp : p pair.1
    · rw [if_pos hp, pairValue_cons, ih]
      grind
    · rw [if_neg hp, ih]
      grind

end PairValue

theorem applyMutations_delete_insert (keys : List κ) (pairs : List (κ × β)) (m : κ → Option β)
    (k : κ) :
    applyMutations [.delete keys, .insert pairs] m k =
      if k ∈ keys then pairValue pairs k else (m k).or (pairValue pairs k) := by
  by_cases h : k ∈ keys <;> simp [applyMutations, MapMutation.apply, h]

theorem applyMutations_delete_nil (pairs : List (κ × β)) (m : κ → Option β) :
    applyMutations [.delete [], .insert pairs] m = applyMutations [.insert pairs] m := by
  simp [applyMutations, MapMutation.apply]

end NetworkManager.Lib
