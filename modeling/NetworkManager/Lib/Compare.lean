import Mathlib.Data.List.Forall2
import Mathlib.Order.Nat
import Mathlib.Algebra.Order.Ring.Int

/-!
# Comparison chains

A three-way comparison function goes through a sequence of comparisons and returns the
first one that finds a difference. Some steps of such a sequence may dereference a null
pointer, which is `none` here: the sequence only gets stuck there if no earlier
comparison found a difference.
-/

namespace NetworkManager.Lib

open List

variable {α : Type*} {os : List (Option Ordering)}

def cmpSeq : List Ordering → Ordering
  | [] => .eq
  | o :: os => o.then (cmpSeq os)

@[simp] theorem cmpSeq_eq_eq {os : List Ordering} : cmpSeq os = .eq ↔ ∀ o ∈ os, o = .eq := by
  induction os with
  | nil => simp [cmpSeq]
  | cons o os ih => simp [cmpSeq, Ordering.then_eq_eq, ih]

def cmpSeq? : List (Option Ordering) → Option Ordering
  | [] => some .eq
  | some .eq :: os => cmpSeq? os
  | o :: _ => o

@[simp] theorem cmpSeq?_eq_eq : cmpSeq? os = some .eq ↔ ∀ o ∈ os, o = some .eq := by
  induction os with
  | nil => simp [cmpSeq?]
  | cons o os ih =>
    cases o with
    | none => simp [cmpSeq?]
    | some o => cases o <;> simp [cmpSeq?, ih]

/-- Comparison of two pointers, where a null pointer sorts first. -/
def cmpPtr (cmp : α → α → Ordering) : Option α → Option α → Ordering
  | none, none => .eq
  | none, some _ => .lt
  | some _, none => .gt
  | some a, some b => cmp a b

theorem cmpPtr_self {cmp : α → α → Ordering} (h : ∀ a, cmp a a = .eq) (o : Option α) :
    cmpPtr cmp o o = .eq := by
  cases o with
  | none => rfl
  | some a => exact h a

def cmpList (cmp : α → α → Ordering) (as bs : List α) : Ordering :=
  (compare as.length bs.length).then (cmpSeq (as.zipWith cmp bs))

theorem cmpList_self {cmp : α → α → Ordering} (h : ∀ a, cmp a a = .eq) (as : List α) :
    cmpList cmp as as = .eq := by
  simp [cmpList, h, zipWith_self]

theorem eq_of_cmpList {cmp : α → α → Ordering} (h : ∀ a b, cmp a b = .eq → a = b)
    {as bs : List α} (hcmp : cmpList cmp as bs = .eq) : as = bs := by
  simp only [cmpList, Ordering.then_eq_eq, cmpSeq_eq_eq, Std.LawfulEqOrd.compare_eq_iff_eq] at hcmp
  obtain ⟨hlength, hzip⟩ := hcmp
  apply ext_getElem hlength
  intro i ha hb
  apply h
  have hi : i < (as.zipWith cmp bs).length := by simp only [length_zipWith]; omega
  have hmem := getElem_mem hi
  simpa using hzip _ hmem

theorem eq_of_cmpPtr {cmp : α → α → Ordering} (h : ∀ a b, cmp a b = .eq → a = b)
    {a b : Option α} (hcmp : cmpPtr cmp a b = .eq) : a = b := by
  cases a with
  | none =>
    cases b with
    | none => rfl
    | some b => simp [cmpPtr] at hcmp
  | some a =>
    cases b with
    | none => simp [cmpPtr] at hcmp
    | some b => rw [h a b hcmp]

theorem cmpList_map_eq {cmp : α → α → Ordering} {f : α → α} {as : List α}
    (h : ∀ a ∈ as, cmp a (f a) = .eq) : cmpList cmp as (as.map f) = .eq := by
  simp only [cmpList, length_map, Std.compare_self, Ordering.then_eq_eq, cmpSeq_eq_eq,
    true_and]
  intro o ho
  rw [zipWith_map_right, zipWith_self] at ho
  obtain ⟨a, ha, rfl⟩ := mem_map.mp ho
  exact h a ha

/-!
## Orders that comparison chains make

A comparison chain is oriented and transitive if each of its steps is. A step may also
depend on what an earlier step found to be equal, as for prefixes, which are compared at
the shorter of two lengths before the lengths themselves.
-/

open Std (TransCmp TransOrd LawfulEqOrd)

variable {α β γ : Type*} {c d : α → α → Ordering} {l : α → α → List Ordering} {le : α → α → Bool}
  {w q p : Nat}

/-! ## Chains -/

theorem cmpSeq_cons (o : Ordering) (os : List Ordering) : cmpSeq (o :: os) = o.then (cmpSeq os) := rfl

theorem cmpSeq_append (os os' : List Ordering) :
    cmpSeq (os ++ os') = (cmpSeq os).then (cmpSeq os') := by
  induction os with
  | nil => rfl
  | cons o os ih => rw [cons_append, cmpSeq_cons, cmpSeq_cons, ih, Ordering.then_assoc]

theorem transCmp_nil : TransCmp fun _ _ : α => cmpSeq [] where
  eq_swap := rfl
  isLE_trans _ _ := rfl

theorem transCmp_on [Ord β] [TransOrd β] (f : α → β) : TransCmp fun a b => compare (f a) (f b) :=
  inferInstanceAs (TransCmp (compareOn f))

theorem transOrd_of_values [Ord α] (f : α → Nat) (h : ∀ a b, compare a b = compare (f a) (f b)) :
    TransOrd α where
  eq_swap {a b} := by
    rw [h, h, Nat.compare_swap]
  isLE_trans {a b c} hab hbc := by
    rw [h] at hab hbc ⊢
    exact TransOrd.isLE_trans hab hbc

theorem transCmp_comp (f : α → β) {c : β → β → Ordering} (hc : TransCmp c) :
    TransCmp fun a b => c (f a) (f b) where
  eq_swap := hc.eq_swap
  isLE_trans := hc.isLE_trans

theorem transCmp_then (hc : TransCmp c) (hd : TransCmp d) :
    TransCmp fun a b => (c a b).then (d a b) :=
  inferInstanceAs (TransCmp (compareLex c d))

theorem transCmp_cons (hc : TransCmp c) (hl : TransCmp fun a b => cmpSeq (l a b))
    : TransCmp fun a b => cmpSeq (c a b :: l a b) :=
  transCmp_then hc hl

theorem transCmp_cons₂ (hcd : TransCmp fun a b => (c a b).then (d a b))
    (hl : TransCmp fun a b => cmpSeq (l a b)) :
    TransCmp fun a b => cmpSeq (c a b :: d a b :: l a b) := by
  have heq (a b : α) : cmpSeq (c a b :: d a b :: l a b) =
      ((c a b).then (d a b)).then (cmpSeq (l a b)) := by
    rw [cmpSeq_cons, cmpSeq_cons, Ordering.then_assoc]
  simp only [heq]
  exact transCmp_then hcd hl

theorem transCmp_append {m : α → α → List Ordering} (hl : TransCmp fun a b => cmpSeq (l a b))
    (hm : TransCmp fun a b => cmpSeq (m a b)) : TransCmp fun a b => cmpSeq (l a b ++ m a b) := by
  simp only [cmpSeq_append]
  exact transCmp_then hl hm

theorem then_congr {o : Ordering} {c d : Ordering} (h : o = .eq → c = d) : o.then c = o.then d := by
  cases o with
  | lt => rfl
  | eq => exact h rfl
  | gt => rfl

theorem transCmp_dep [Ord β] [TransOrd β] [LawfulEqOrd β] [Ord γ] [TransOrd γ] (f : α → β)
    (g : β → α → γ) :
    TransCmp fun a b => (compare (f a) (f b)).then (compare (g (f a) a) (g (f a) b)) := by
  have heq : (fun a b => (compare (f a) (f b)).then (compare (g (f a) a) (g (f a) b))) =
      fun a b => (compare (f a) (f b)).then (compare (g (f a) a) (g (f b) b)) := by
    funext a b
    apply then_congr
    intro h
    rw [LawfulEqOrd.eq_of_compare h]
  rw [heq]
  exact transCmp_then (transCmp_on f) (transCmp_on fun a => g (f a) a)

theorem cmpSeq?_map_some (os : List Ordering) : cmpSeq? (some .eq :: os.map some) = some (cmpSeq os) := by
  induction os with
  | nil => rfl
  | cons o os ih =>
    cases o with
    | lt => rfl
    | eq => exact ih
    | gt => rfl

theorem cmpSeq?_cons_eq_none {o : Option Ordering} :
    cmpSeq? (o :: os) = none ↔ o = none ∨ (o = some .eq ∧ cmpSeq? os = none) := by
  cases o with
  | none => simp [cmpSeq?]
  | some o => cases o <;> simp [cmpSeq?]

theorem map_swap_cmpSeq? (os : List (Option Ordering)) :
    (cmpSeq? os).map Ordering.swap = cmpSeq? (os.map (Option.map Ordering.swap)) := by
  induction os with
  | nil => rfl
  | cons o os ih =>
    cases o with
    | none => rfl
    | some o =>
      cases o with
      | lt => rfl
      | eq => exact ih
      | gt => rfl

theorem transCmp_if [Ord β] [TransOrd β] (p : α → Bool) (f : α → β) :
    TransCmp fun a b => (compare (p a) (p b)).then (if p a then compare (f a) (f b) else .eq) := by
  have heq : (fun a b => (compare (p a) (p b)).then (if p a then compare (f a) (f b) else .eq)) =
      fun a b => (compare (p a) (p b)).then
        (compare (if p a then some (f a) else none) (if p b then some (f b) else none)) := by
    funext a b
    apply then_congr
    intro h
    rw [← LawfulEqOrd.eq_of_compare h]
    split_ifs <;> rfl
  rw [heq]
  exact transCmp_then (transCmp_on p) (transCmp_on fun a => if p a then some (f a) else none)

/-! ## Pointers and lists -/

theorem transCmp_cmpPtr {cmp : α → α → Ordering} (h : TransCmp cmp) : TransCmp (cmpPtr cmp) where
  eq_swap {a b} := by
    cases a <;> cases b <;> first | rfl | exact h.eq_swap
  isLE_trans {a b c} hab hbc := by
    cases a <;> cases b <;> cases c <;>
      first | rfl | contradiction | exact h.isLE_trans hab hbc

theorem cmpSeq_zipWith {cmp : α → α → Ordering} {as bs : List α} (h : as.length = bs.length) :
    cmpSeq (as.zipWith cmp bs) = List.compareLex cmp as bs := by
  induction as generalizing bs with
  | nil =>
    rw [eq_nil_of_length_eq_zero h.symm]
    rfl
  | cons a as ih =>
    cases bs with
    | nil => simp at h
    | cons b bs =>
      rw [List.zipWith_cons_cons, cmpSeq_cons, ih (Nat.succ.inj h), List.compareLex_cons_cons]

theorem cmpList_eq_compareLex (cmp : α → α → Ordering) (as bs : List α) :
    cmpList cmp as bs = (compare as.length bs.length).then (List.compareLex cmp as bs) :=
  then_congr fun h => cmpSeq_zipWith (LawfulEqOrd.eq_of_compare h)

theorem cmpList_cons_cons_eq {cmp : α → α → Ordering} {a b : α} {as bs : List α} :
    cmpList cmp (a :: as) (b :: bs) = .eq ↔ cmp a b = .eq ∧ cmpList cmp as bs = .eq := by
  simp only [cmpList, length_cons, zipWith_cons_cons, cmpSeq_cons, Ordering.then_eq_eq,
    LawfulEqOrd.compare_eq_iff_eq, Nat.add_right_cancel_iff]
  exact ⟨fun ⟨hl, hab, hs⟩ => ⟨hab, hl, hs⟩, fun ⟨hab, hl, hs⟩ => ⟨hl, hab, hs⟩⟩

theorem cmpList_eq_iff_forall₂ {cmp : α → α → Ordering} {as bs : List α} :
    cmpList cmp as bs = .eq ↔ List.Forall₂ (fun a b => cmp a b = .eq) as bs := by
  induction as generalizing bs with
  | nil => cases bs <;> simp [cmpList, cmpSeq]
  | cons a as ih =>
    cases bs with
    | nil => simp [cmpList]
    | cons b bs => rw [cmpList_cons_cons_eq, ih, forall₂_cons]

theorem transCmp_cmpList {cmp : α → α → Ordering} (h : TransCmp cmp) : TransCmp (cmpList cmp) := by
  have heq : cmpList cmp = fun as bs =>
      (compare as.length bs.length).then (List.compareLex cmp as bs) := by
    funext as bs
    exact cmpList_eq_compareLex cmp as bs
  rw [heq]
  exact transCmp_then (transCmp_on List.length) inferInstance

/-! ## Cycles -/

theorem isLE_trans_iff_no_cycle {cmp : α → α → Ordering}
    (hswap : ∀ a b, cmp a b = (cmp b a).swap) (heq : ∀ a b, cmp a b = .eq → a = b) (a b c : α) :
    ((cmp a b).isLE → (cmp b c).isLE → (cmp a c).isLE) ↔
      ¬ (cmp a b = .lt ∧ cmp b c = .lt ∧ cmp c a = .lt) := by
  constructor
  · rintro h ⟨hab, hbc, hca⟩
    have hac := h (by rw [hab]; rfl) (by rw [hbc]; rfl)
    rw [hswap, hca] at hac
    cases hac
  · intro h hab hbc
    have hlt : ∀ x y, (cmp x y).isLE → x ≠ y → cmp x y = .lt := by
      intro x y hle hne
      cases hxy : cmp x y with
      | lt => rfl
      | eq => exact absurd (heq x y hxy) hne
      | gt => rw [hxy] at hle; cases hle
    by_cases hab' : a = b
    · rwa [hab']
    · by_cases hbc' : b = c
      · rwa [← hbc']
      · by_contra hac
        have hgt : cmp a c = .gt := by
          cases hac' : cmp a c with
          | lt => rw [hac'] at hac; exact absurd rfl hac
          | eq => rw [hac'] at hac; exact absurd rfl hac
          | gt => rfl
        refine h ⟨hlt a b hab hab', hlt b c hbc hbc', ?_⟩
        rw [hswap, hgt]
        rfl

/-! ## Sorting -/

theorem pairwise_mergeSort_of_mem {l : List α}
    (htrans : ∀ a ∈ l, ∀ b ∈ l, ∀ c ∈ l, le a b → le b c → le a c)
    (htotal : ∀ a ∈ l, ∀ b ∈ l, le a b || le b a)
    : (l.mergeSort le).Pairwise fun a b => le a b := by
  have hmap : (l.attach.mergeSort fun a b => le a.1 b.1).map Subtype.val = l.mergeSort le := by
    rw [map_mergeSort (s := le) fun _ _ _ _ => rfl, attach_map_subtype_val]
  rw [← hmap, pairwise_map]
  apply pairwise_mergeSort
  · intro a b c
    exact htrans a a.2 b b.2 c c.2
  · intro a b
    exact htotal a a.2 b b.2

theorem mergeSort_eq_of_perm {l l' : List α}
    (htrans : ∀ a ∈ l, ∀ b ∈ l, ∀ c ∈ l, le a b → le b c → le a c)
    (htotal : ∀ a ∈ l, ∀ b ∈ l, le a b || le b a)
    (hanti : ∀ a ∈ l, ∀ b ∈ l, le a b → le b a → a = b) (h : l.Perm l') :
    l.mergeSort le = l'.mergeSort le := by
  have hmem : ∀ {a}, a ∈ l' → a ∈ l := fun ha => h.mem_iff.mpr ha
  have hsorted := pairwise_mergeSort_of_mem htrans htotal
  have hsorted' : (l'.mergeSort le).Pairwise fun a b => le a b := by
    apply pairwise_mergeSort_of_mem
    · intro a ha b hb c hc
      exact htrans a (hmem ha) b (hmem hb) c (hmem hc)
    · intro a ha b hb
      exact htotal a (hmem ha) b (hmem hb)
  have hperm : (l.mergeSort le).Perm (l'.mergeSort le) :=
    ((mergeSort_perm l le).trans h).trans (mergeSort_perm l' le).symm
  apply hperm.eq_of_pairwise _ hsorted hsorted'
  intro a b ha hb
  exact hanti a (mem_mergeSort.mp ha) b (hmem (mem_mergeSort.mp hb))

/-! ## Prefixes -/

/-- The number without its last `w - p` of `w` binary digits. -/
def prefixOf (w p x : Nat) : Nat := x / 2 ^ (w - p) * 2 ^ (w - p)

theorem prefixOf_le (w p x : Nat) : prefixOf w p x ≤ x := Nat.div_mul_le_self _ _

theorem lt_prefixOf_add (w p x : Nat) : x < prefixOf w p x + 2 ^ (w - p) := by
  have hpos : 0 < 2 ^ (w - p) := Nat.two_pow_pos _
  have h := Nat.div_add_mod' x (2 ^ (w - p))
  have hmod := Nat.mod_lt x hpos
  unfold prefixOf
  omega

theorem prefixOf_mono (h : p ≤ q) (x : Nat) : prefixOf w p x ≤ prefixOf w q x := by
  have hdvd : 2 ^ (w - q) ∣ prefixOf w p x :=
    Nat.dvd_trans (Nat.pow_dvd_pow 2 (by omega)) (Nat.dvd_mul_left _ _)
  obtain ⟨k, hk⟩ := hdvd
  have hle : k ≤ x / 2 ^ (w - q) := by
    rw [Nat.le_div_iff_mul_le (Nat.two_pow_pos _), Nat.mul_comm, ← hk]
    exact prefixOf_le w p x
  rw [hk, Nat.mul_comm]
  exact Nat.mul_le_mul_right _ hle

theorem compare_prefixOf_of_le (h : p ≤ q) (x y : Nat) :
    (compare (prefixOf w p x) (prefixOf w p y)).then (compare p q) =
      (compare (prefixOf w p x) (prefixOf w q y)).then (compare p q) := by
  have hlow := prefixOf_mono (w := w) h y
  have hhigh := (prefixOf_le w q y).trans_lt (lt_prefixOf_add w p y)
  rcases Nat.lt_trichotomy (prefixOf w p x) (prefixOf w p y) with hlt | heq | hgt
  · rw [Nat.compare_eq_lt.mpr hlt, Nat.compare_eq_lt.mpr (hlt.trans_le hlow)]
  · rcases h.eq_or_lt with rfl | hpq
    · rfl
    · rw [Nat.compare_eq_lt.mpr hpq, heq]
      rcases hlow.eq_or_lt with he | hl
      · rw [he]
      · rw [Nat.compare_eq_lt.mpr hl, Std.compare_self]
        rfl
  · -- Prefixes of one length differ by a multiple of the distance between two of them.
    have hstep : prefixOf w p y + 2 ^ (w - p) ≤ prefixOf w p x := by
      unfold prefixOf at hgt ⊢
      have hq := Nat.lt_of_mul_lt_mul_right hgt
      have hsucc := Nat.mul_le_mul_right (2 ^ (w - p)) (Nat.succ_le_of_lt hq)
      rw [Nat.succ_mul] at hsucc
      exact hsucc
    rw [Nat.compare_eq_gt.mpr hgt, Nat.compare_eq_gt.mpr (hhigh.trans_le hstep)]

theorem compare_prefixOf_min (w p q x y : Nat) :
    (compare (prefixOf w (min p q) x) (prefixOf w (min p q) y)).then (compare p q) =
      (compare (prefixOf w p x) (prefixOf w q y)).then (compare p q) := by
  rcases Nat.le_total p q with h | h
  · rw [Nat.min_eq_left h]
    exact compare_prefixOf_of_le h x y
  · have hswap := congrArg Ordering.swap (compare_prefixOf_of_le (w := w) h y x)
    rw [Nat.min_eq_right h]
    rw [Ordering.swap_then, Ordering.swap_then, Nat.compare_swap, Nat.compare_swap,
      Nat.compare_swap] at hswap
    exact hswap

theorem compare_div_mul {k : Nat} (hk : 0 < k) (x y : Nat) :
    compare (x / k * k) (y / k * k) = compare (x / k) (y / k) := by
  rcases Nat.lt_trichotomy (x / k) (y / k) with h | h | h
  · rw [Nat.compare_eq_lt.mpr h, Nat.compare_eq_lt.mpr (Nat.mul_lt_mul_of_pos_right h hk)]
  · rw [h, Std.compare_self, Std.compare_self]
  · rw [Nat.compare_eq_gt.mpr h, Nat.compare_eq_gt.mpr (Nat.mul_lt_mul_of_pos_right h hk)]

theorem compare_div_mod (x y : Nat) {m : Nat} (hm : 0 < m) :
    (compare (x / m) (y / m)).then (compare (x % m) (y % m)) = compare x y := by
  have hx := Nat.div_add_mod x m
  have hy := Nat.div_add_mod y m
  have hxm := Nat.mod_lt x hm
  have hym := Nat.mod_lt y hm
  rcases Nat.lt_trichotomy (x / m) (y / m) with h | h | h
  · have hle := Nat.mul_le_mul_left m (Nat.succ_le_of_lt h)
    rw [Nat.mul_succ] at hle
    rw [Nat.compare_eq_lt.mpr h, Nat.compare_eq_lt.mpr (show x < y by omega)]
    rfl
  · rw [h] at hx
    rw [h, Std.compare_self, Ordering.eq_then]
    rcases Nat.lt_trichotomy (x % m) (y % m) with hr | hr | hr
    · rw [Nat.compare_eq_lt.mpr hr, Nat.compare_eq_lt.mpr (show x < y by omega)]
    · rw [hr, show x = y by omega, Std.compare_self, Std.compare_self]
    · rw [Nat.compare_eq_gt.mpr hr, Nat.compare_eq_gt.mpr (show y < x by omega)]
  · have hle := Nat.mul_le_mul_left m (Nat.succ_le_of_lt h)
    rw [Nat.mul_succ] at hle
    rw [Nat.compare_eq_gt.mpr h, Nat.compare_eq_gt.mpr (show y < x by omega)]
    rfl

end NetworkManager.Lib
