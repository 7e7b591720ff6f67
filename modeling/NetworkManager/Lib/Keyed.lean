import Mathlib.Data.List.Nodup
import Mathlib.Data.List.Pairwise

/-!
# Lists with a key

A hash table, or a cache that holds at most one object per identity, read as a
list whose elements have pairwise distinct keys. `lookup` finds by key,
`eraseKey` drops a key, `put` replaces the element with the same key, `modifyKey` rewrites it in
place, `upsert` rewrites it in place or appends, and `missing` are the elements that another list has
more.
-/

namespace NetworkManager.Lib

open List

variable {α κ : Type*}

/-- No two elements share a key. -/
def KeyUnique (key : α → κ) (l : List α) : Prop := (l.map key).Nodup

section KeyUnique

variable {key : α → κ} {x y : α} {l l' : List α}

@[simp] theorem unique_nil : KeyUnique key ([] : List α) := nodup_nil

theorem unique_cons : KeyUnique key (x :: l) ↔ (∀ y ∈ l, key y ≠ key x) ∧ KeyUnique key l := by
  simp [KeyUnique]

theorem KeyUnique.sublist (hl : KeyUnique key l) (h : l'.Sublist l) : KeyUnique key l' :=
  List.Nodup.sublist (h.map key) hl

theorem KeyUnique.filter (hl : KeyUnique key l) (p : α → Bool) : KeyUnique key (l.filter p) :=
  hl.sublist filter_sublist

theorem KeyUnique.append_singleton (hl : KeyUnique key l) (h : ∀ y ∈ l, key y ≠ key x) :
    KeyUnique key (l ++ [x]) := by
  simp only [KeyUnique, map_append, map_cons, map_nil]
  rw [nodup_append]
  refine ⟨hl, by simp, ?_⟩
  intro a ha b hb
  obtain ⟨y, hy, rfl⟩ := mem_map.mp ha
  rw [mem_singleton.mp hb]
  exact h y hy

variable {β : Type*} {m : List β} {f : β → List α}

end KeyUnique

variable [DecidableEq κ] (key : α → κ)

def lookup (k : κ) (l : List α) : Option α := l.find? fun x => key x = k

def eraseKey (k : κ) (l : List α) : List α := l.filter fun x => key x ≠ k

def put (x : α) (l : List α) : List α := eraseKey key (key x) l ++ [x]

def modifyKey (k : κ) (f : α → α) (l : List α) : List α :=
  l.map fun x => if key x = k then f x else x

variable {key} {k k' : κ} {x y : α} {l : List α}

@[simp] theorem lookup_nil : lookup key k [] = none := rfl

theorem lookup_cons : lookup key k (x :: l) = if key x = k then some x else lookup key k l := by
  by_cases h : key x = k <;> simp [lookup, h]

theorem lookup_append {l' : List α} :
    lookup key k (l ++ l') = (lookup key k l).or (lookup key k l') := by
  simp [lookup, List.find?_append]

theorem key_of_lookup (h : lookup key k l = some x) : key x = k := by
  simpa using List.find?_some h

theorem mem_of_lookup (h : lookup key k l = some x) : x ∈ l := mem_of_find?_eq_some h

theorem lookup_eq_none_iff : lookup key k l = none ↔ ∀ x ∈ l, key x ≠ k := by
  simp [lookup]

theorem lookup_isSome_iff : (lookup key k l).isSome ↔ ∃ x ∈ l, key x = k := by
  simp [lookup]

theorem lookup_of_mem (hl : KeyUnique key l) (h : x ∈ l) : lookup key (key x) l = some x := by
  induction l with
  | nil => simp at h
  | cons y l ih =>
    rw [unique_cons] at hl
    rw [lookup_cons]
    rcases mem_cons.mp h with rfl | hx
    · simp
    · rw [if_neg (fun he => hl.1 x hx he.symm)]
      exact ih hl.2 hx

theorem lookup_eq_some_iff (hl : KeyUnique key l) :
    lookup key k l = some x ↔ x ∈ l ∧ key x = k := by
  constructor
  · exact fun h => ⟨mem_of_lookup h, key_of_lookup h⟩
  · rintro ⟨hx, rfl⟩
    exact lookup_of_mem hl hx

theorem eq_of_key_eq (hl : KeyUnique key l) (hx : x ∈ l) (hy : y ∈ l) (h : key x = key y) : x = y := by
  have hx' := lookup_of_mem hl hx
  rw [h, lookup_of_mem hl hy] at hx'
  exact (Option.some.inj hx').symm

theorem perm_of_lookup_eq {l' : List α} (hl : KeyUnique key l) (hl' : KeyUnique key l')
    (h : ∀ k, lookup key k l = lookup key k l') : l.Perm l' := by
  apply (perm_ext_iff_of_nodup hl.of_map hl'.of_map).mpr
  intro x
  have hmem {m : List α} (hm : KeyUnique key m) : x ∈ m ↔ lookup key (key x) m = some x := by
    simp [lookup_eq_some_iff hm]
  rw [hmem hl, hmem hl', h]

@[simp] theorem eraseKey_nil : eraseKey key k [] = [] := rfl

theorem eraseKey_cons :
    eraseKey key k (x :: l) = if key x = k then eraseKey key k l else x :: eraseKey key k l := by
  by_cases h : key x = k <;> simp [eraseKey, h]

theorem mem_eraseKey : x ∈ eraseKey key k l ↔ x ∈ l ∧ key x ≠ k := by
  simp [eraseKey]

theorem perm_cons_eraseKey (hl : KeyUnique key l) (h : x ∈ l) :
    l.Perm (x :: eraseKey key (key x) l) := by
  induction l with
  | nil => simp at h
  | cons y l ih =>
    obtain ⟨hfresh, hl⟩ := unique_cons.mp hl
    rw [eraseKey_cons]
    rcases mem_cons.mp h with rfl | h
    · have hrest : eraseKey key (key x) l = l := by
        rw [eraseKey, filter_eq_self]
        intro z hz
        simpa using hfresh z hz
      rw [if_pos rfl, hrest]
    · rw [if_neg fun heq => hfresh x h heq.symm]
      exact ((ih hl h).cons y).trans (List.Perm.swap x y _)

theorem KeyUnique.eraseKey (hl : KeyUnique key l) : KeyUnique key (eraseKey key k l) := hl.filter _

theorem lookup_eraseKey_self : lookup key k (eraseKey key k l) = none :=
  lookup_eq_none_iff.mpr fun _ hx => (mem_eraseKey.mp hx).2

theorem lookup_eraseKey_of_ne (h : k ≠ k') :
    lookup key k (eraseKey key k' l) = lookup key k l := by
  induction l with
  | nil => rfl
  | cons x l ih =>
    rw [eraseKey_cons, lookup_cons]
    by_cases hx : key x = k'
    · rw [if_pos hx, if_neg (hx ▸ h.symm), ih]
    · rw [if_neg hx, lookup_cons, ih]

@[simp] theorem lookup_eraseKey :
    lookup key k (eraseKey key k' l) = if k = k' then none else lookup key k l := by
  by_cases h : k = k'
  · rw [if_pos h, h, lookup_eraseKey_self]
  · rw [if_neg h, lookup_eraseKey_of_ne h]

@[simp] theorem lookup_put :
    lookup key k (put key x l) = if k = key x then some x else lookup key k l := by
  rw [put, lookup_append, lookup_eraseKey, lookup_cons, lookup_nil]
  by_cases h : k = key x
  · simp [h]
  · simp [h, Ne.symm h]

theorem mem_put : y ∈ put key x l ↔ y = x ∨ (y ∈ l ∧ key y ≠ key x) := by
  simp [put, mem_eraseKey, or_comm]

theorem KeyUnique.put (hl : KeyUnique key l) : KeyUnique key (put key x l) :=
  hl.eraseKey.append_singleton fun _ hy => (mem_eraseKey.mp hy).2

@[simp] theorem modifyKey_nil {f : α → α} : modifyKey key k f [] = [] := rfl

theorem modifyKey_cons {f : α → α} :
    modifyKey key k f (x :: l) = (if key x = k then f x else x) :: modifyKey key k f l := rfl

theorem lookup_modifyKey_of_key {f : α → α} (hf : ∀ x, key x = k' → key (f x) = k') :
    lookup key k (modifyKey key k' f l) =
      if k = k' then (lookup key k l).map f else lookup key k l := by
  induction l with
  | nil => simp
  | cons x l ih =>
    rw [modifyKey_cons, lookup_cons, lookup_cons, ih]
    by_cases hx : key x = k'
    · by_cases hk : k = k'
      · simp [hx, hf x hx, hk]
      · simp [hx, hf x hx, hk, Ne.symm hk]
    · by_cases hxk : key x = k
      · simp [hxk, hxk ▸ hx]
      · simp [hx, hxk]

theorem lookup_modifyKey {f : α → α} (hf : ∀ x, key (f x) = key x) :
    lookup key k (modifyKey key k' f l) =
      if k = k' then (lookup key k l).map f else lookup key k l :=
  lookup_modifyKey_of_key fun x hx => (hf x).trans hx

theorem map_key_modifyKey_of_key {f : α → α} (hf : ∀ x, key x = k → key (f x) = k) :
    (modifyKey key k f l).map key = l.map key := by
  rw [modifyKey, map_map]
  apply map_congr_left
  intro x _
  by_cases h : key x = k <;> simp [h, hf x]

theorem map_key_modifyKey {f : α → α} (hf : ∀ x, key (f x) = key x) :
    (modifyKey key k f l).map key = l.map key :=
  map_key_modifyKey_of_key fun x hx => (hf x).trans hx

theorem modifyKey_congr {f g : α → α} (h : ∀ x ∈ l, key x = k → f x = g x) :
    modifyKey key k f l = modifyKey key k g l := by
  apply map_congr_left
  intro x hx
  by_cases hk : key x = k
  · simp [hk, h x hx hk]
  · simp [hk]

theorem modifyKey_eq_self {f : α → α} (h : ∀ x ∈ l, key x = k → f x = x) :
    modifyKey key k f l = l := by
  rw [modifyKey_congr (g := id) h]
  simp [modifyKey]

theorem mem_modifyKey {f : α → α} (h : y ∈ modifyKey key k f l) :
    (y ∈ l ∧ key y ≠ k) ∨ ∃ x ∈ l, key x = k ∧ y = f x := by
  obtain ⟨x, hx, rfl⟩ := mem_map.mp h
  by_cases hk : key x = k
  · exact .inr ⟨x, hx, hk, by simp [hk]⟩
  · exact .inl (by simpa [hk] using hx)

theorem KeyUnique.modifyKey {f : α → α} (hf : ∀ x, key (f x) = key x) (hl : KeyUnique key l) :
    KeyUnique key (modifyKey key k f l) := by
  unfold KeyUnique
  rw [map_key_modifyKey hf]
  exact hl

theorem lookup_isSome_congr {l' : List α} (h : l.map key = l'.map key) :
    (lookup key k l).isSome = (lookup key k l').isSome := by
  rw [Bool.eq_iff_iff, lookup_isSome_iff, lookup_isSome_iff]
  have hmem : k ∈ l.map key ↔ k ∈ l'.map key := by rw [h]
  simpa using hmem

def upsert (key : α → κ) (x : α) (l : List α) : List α :=
  if (lookup key (key x) l).isSome then modifyKey key (key x) (fun _ => x) l else l ++ [x]

section Upsert

@[simp] theorem lookup_upsert :
    lookup key k (upsert key x l) = if k = key x then some x else lookup key k l := by
  unfold upsert
  split_ifs with hs hk hk
  · obtain ⟨y, hy⟩ := Option.isSome_iff_exists.mp hs
    rw [lookup_modifyKey_of_key fun _ _ => rfl, if_pos hk, hk, hy, Option.map_some]
  · rw [lookup_modifyKey_of_key fun _ _ => rfl, if_neg hk]
  · have hnone : lookup key k l = none := by simpa [hk] using hs
    rw [lookup_append, hnone, Option.none_or, lookup_cons, if_pos hk.symm]
  · rw [lookup_append, lookup_cons, if_neg (Ne.symm hk), lookup_nil, Option.or_none]

theorem map_key_upsert :
    (upsert key x l).map key =
      if (lookup key (key x) l).isSome then l.map key else l.map key ++ [key x] := by
  unfold upsert
  split_ifs
  · exact map_key_modifyKey_of_key fun _ _ => rfl
  · simp

theorem mem_upsert (h : y ∈ upsert key x l) : y = x ∨ y ∈ l := by
  unfold upsert at h
  split_ifs at h
  · obtain ⟨z, hz, rfl⟩ := mem_map.mp h
    split_ifs
    · exact .inl rfl
    · exact .inr hz
  · rcases mem_append.mp h with h | h
    · exact .inr h
    · exact .inl (mem_singleton.mp h)

theorem KeyUnique.upsert (hl : KeyUnique key l) : KeyUnique key (upsert key x l) := by
  unfold KeyUnique
  rw [map_key_upsert]
  split_ifs with hs
  · exact hl
  · have hnone : ∀ y ∈ l, key y ≠ key x := by
      simpa [lookup_isSome_iff] using hs
    have happend := hl.append_singleton hnone
    simpa [KeyUnique] using happend

theorem upsert_of_lookup_none (hk : key x = k) (h : lookup key k l = none) :
    upsert key x l = l ++ [x] := by
  simp [upsert, hk, h]

theorem modifyKey_append {l' : List α} {f : α → α} :
    modifyKey key k f (l ++ l') = modifyKey key k f l ++ modifyKey key k f l' := map_append

theorem modifyKey_of_lookup_none {f : α → α} (h : lookup key k l = none) :
    modifyKey key k f l = l := by
  rw [lookup_eq_none_iff] at h
  have hid : ∀ y ∈ l, (if key y = k then f y else y) = y := fun y hy => if_neg (h y hy)
  exact (map_congr_left hid).trans (map_id' l)

end Upsert

theorem map_filterMap_sublist {α β κ : Type*} {f : α → Option β} {g : β → κ} {g' : α → κ}
    (h : ∀ x, ∀ y ∈ f x, g y = g' x) (l : List α) : ((l.filterMap f).map g).Sublist (l.map g') := by
  induction l with
  | nil => exact List.Sublist.slnil
  | cons x l ih =>
    cases hx : f x with
    | none =>
      rw [filterMap_cons_none hx]
      exact ih.cons _
    | some y =>
      rw [filterMap_cons_some hx, map_cons, map_cons, h x y hx]
      exact ih.cons_cons _

omit [DecidableEq κ] in
theorem KeyUnique.filterMap {f : α → Option α} (hf : ∀ x, ∀ y ∈ f x, key y = key x)
    (hl : KeyUnique key l) : KeyUnique key (l.filterMap f) :=
  List.Nodup.sublist (map_filterMap_sublist hf l) hl

theorem lookup_filterMap {f : α → Option α} (hf : ∀ x, ∀ y ∈ f x, key y = key x)
    (hl : KeyUnique key l) : lookup key k (l.filterMap f) = (lookup key k l).bind f := by
  induction l with
  | nil => rfl
  | cons x l ih =>
    rw [unique_cons] at hl
    rw [lookup_cons]
    cases h : f x with
    | none =>
      rw [filterMap_cons_none h, ih hl.2]
      by_cases hk : key x = k
      · have hnone : lookup key k l = none := lookup_eq_none_iff.mpr fun y hy => hk ▸ hl.1 y hy
        rw [if_pos hk, hnone, Option.bind_none, Option.bind_some, h]
      · rw [if_neg hk]
    | some y =>
      rw [filterMap_cons_some h, lookup_cons, hf x y h, ih hl.2]
      by_cases hk : key x = k
      · rw [if_pos hk, if_pos hk, Option.bind_some, h]
      · rw [if_neg hk, if_neg hk]

/-- The elements of a second list whose keys were not yet met, one for each key. -/
def missing (key : α → κ) (l : List α) : List α → List α
  | [] => []
  | x :: xs =>
    if (lookup key (key x) l).isSome then missing key l xs
    else x :: missing key (l ++ [x]) xs

section Missing

variable {xs : List α}

theorem missing_sublist : (missing key l xs).Sublist xs := by
  induction xs generalizing l with
  | nil => exact List.Sublist.slnil
  | cons x xs ih =>
    unfold missing
    split_ifs
    · exact ih.cons x
    · exact ih.cons_cons x

theorem lookup_append_missing :
    lookup key k (l ++ missing key l xs) = (lookup key k l).or (lookup key k xs) := by
  induction xs generalizing l with
  | nil => simp [missing]
  | cons x xs ih =>
    unfold missing
    split_ifs with hx
    · rw [ih, lookup_cons]
      split_ifs with hk
      · subst hk
        obtain ⟨y, hy⟩ := Option.isSome_iff_exists.mp hx
        simp [hy]
      · rfl
    · have happend : l ++ x :: missing key (l ++ [x]) xs =
          (l ++ [x]) ++ missing key (l ++ [x]) xs := by simp
      rw [happend, ih, lookup_append, Option.or_assoc, ← lookup_append]
      rfl

theorem unique_missing : KeyUnique key (missing key l xs) ∧
    ∀ y ∈ missing key l xs, ∀ z ∈ l, key z ≠ key y := by
  induction xs generalizing l with
  | nil => simp [missing]
  | cons x xs ih =>
    unfold missing
    split_ifs with hx
    · exact ih
    · obtain ⟨hunique, hfresh⟩ := ih (l := l ++ [x])
      have hnone : ∀ z ∈ l, key z ≠ key x := by
        rw [lookup_isSome_iff] at hx
        intro z hz hzx
        exact hx ⟨z, hz, hzx⟩
      refine ⟨unique_cons.mpr ⟨fun y hy => (hfresh y hy x (by simp)).symm, hunique⟩, ?_⟩
      intro y hy z hz
      rcases mem_cons.mp hy with rfl | hy
      · exact hnone z hz
      · exact hfresh y hy z (mem_append_left _ hz)

theorem countP_append_missing (hx : x ∈ xs) (hl : ∀ y ∈ l, key y ≠ key x) :
    (l ++ missing key l xs).countP (fun y => key y = key x) = 1 := by
  have hzero : l.countP (fun y => key y = key x) = 0 := by
    simpa [countP_eq_zero] using hl
  have hsome : (lookup key (key x) (l ++ missing key l xs)).isSome := by
    have hxs : (lookup key (key x) xs).isSome := lookup_isSome_iff.mpr ⟨x, hx, rfl⟩
    rw [lookup_append_missing, Option.isSome_or, hxs, Bool.or_true]
  obtain ⟨y, hy, hyx⟩ := lookup_isSome_iff.mp hsome
  have hy' : y ∈ missing key l xs := by
    rcases mem_append.mp hy with hy | hy
    · exact absurd hyx (hl y hy)
    · exact hy
  have hcount : ((missing key l xs).map key).count (key x) = 1 :=
    count_eq_one_of_mem unique_missing.1 (hyx ▸ mem_map_of_mem hy')
  rw [countP_append, hzero, Nat.zero_add, ← hcount, count_eq_countP, countP_map]
  rfl

theorem missing_eq_nil (h : ∀ x ∈ xs, (lookup key (key x) l).isSome) : missing key l xs = [] := by
  induction xs with
  | nil => rfl
  | cons x xs ih =>
    rw [missing, if_pos (h x mem_cons_self)]
    exact ih fun y hy => h y (mem_cons_of_mem x hy)

theorem missing_append_missing : missing key (l ++ missing key l xs) xs = [] := by
  apply missing_eq_nil
  intro x hx
  have hxs : (lookup key (key x) xs).isSome := lookup_isSome_iff.mpr ⟨x, hx, rfl⟩
  rw [lookup_append_missing, Option.isSome_or, hxs, Bool.or_true]

end Missing

end NetworkManager.Lib
