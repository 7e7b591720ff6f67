import NetworkManager.Lib.Bytes
import NetworkManager.Lib.Compare
import Mathlib.Tactic.Ring

/-!
# Names whose labels are digits

A number of `w * m` bits has `m` digits of `w` bits. The name of a list of digits has a label for
each of them, the last one in front, and a name is below another one if labels are added in front
of it. The numbers with a prefix of bits in common are those below the names of a range of digits.
-/

namespace NetworkManager.Lib

/-! ## Digits -/

open List

section Digits

variable {w m n p x y : ℕ}

/-- A digit, counted from the first of `m` digits. -/
def digitAt (w m x j : ℕ) : ℕ := x / 2 ^ (w * (m - (j + 1))) % 2 ^ w

/-- The first `n` digits. -/
def firstDigits (w m n x : ℕ) : List ℕ := (List.range n).map (digitAt w m x)

@[simp] theorem length_firstDigits : (firstDigits w m n x).length = n := by
  simp [firstDigits]

theorem firstDigits_eq_iff (hn : n ≤ m) (hx : x < 2 ^ (w * m)) (hy : y < 2 ^ (w * m)) :
    firstDigits w m n x = firstDigits w m n y ↔
      x / 2 ^ (w * (m - n)) = y / 2 ^ (w * (m - n)) := by
  induction n with
  | zero => simp [firstDigits, Nat.div_eq_of_lt hx, Nat.div_eq_of_lt hy]
  | succ n ih =>
    have hsplit : w * (m - n) = w * (m - (n + 1)) + w := by
      rw [← Nat.mul_succ]
      congr 1
      omega
    have hdiv (x : ℕ) : x / 2 ^ (w * (m - (n + 1))) =
        2 ^ w * (x / 2 ^ (w * (m - n))) + digitAt w m x n := by
      rw [hsplit, Nat.pow_add, ← Nat.div_div_eq_div_mul, digitAt, Nat.div_add_mod]
    have hlt (x : ℕ) : digitAt w m x n < 2 ^ w := Nat.mod_lt _ (Nat.two_pow_pos w)
    have hconcat (x : ℕ) : firstDigits w m (n + 1) x = firstDigits w m n x ++ [digitAt w m x n] := by
      simp [firstDigits, range_succ]
    rw [hconcat, hconcat, hdiv, hdiv]
    constructor
    · intro h
      obtain ⟨hfirst, hlast⟩ := append_inj' h rfl
      rw [(ih (by omega)).mp hfirst, (List.cons.inj hlast).1]
    · intro h
      have hquot := congrArg (· / 2 ^ w) h
      have hrem := congrArg (· % 2 ^ w) h
      simp only [Nat.mul_add_div (Nat.two_pow_pos w), Nat.div_eq_of_lt (hlt _), Nat.add_zero,
        Nat.mul_add_mod, Nat.mod_eq_of_lt (hlt _)] at hquot hrem
      rw [(ih (by omega)).mpr hquot, hrem]

theorem firstDigits_prefix_iff (hn : n ≤ m) (hx : x < 2 ^ (w * m)) (hy : y < 2 ^ (w * m)) :
    firstDigits w m n y <+: firstDigits w m m x ↔
      x / 2 ^ (w * (m - n)) = y / 2 ^ (w * (m - n)) := by
  have htake : (firstDigits w m m x).take n = firstDigits w m n x := by
    rw [firstDigits, ← map_take, take_range, Nat.min_eq_left hn, firstDigits]
  rw [prefix_iff_eq_take, length_firstDigits, htake, firstDigits_eq_iff hn hy hx, eq_comm]

/-! ## Digits of a prefix of bits -/

def prefixDigits (w m n base count : ℕ) : List (List ℕ) :=
  (List.range count).map fun k => firstDigits w m n (base + k * 2 ^ (w * (m - n)))

section

variable (hn : n ≤ m) (hp : p ≤ w * n)

include hn hp

theorem prefix_add (hx : x < 2 ^ (w * m)) {k : ℕ} (hk : k < 2 ^ (w * n - p)) :
    prefixOf (w * m) p x + k * 2 ^ (w * (m - n)) < 2 ^ (w * m) ∧
      (prefixOf (w * m) p x + k * 2 ^ (w * (m - n))) / 2 ^ (w * (m - n)) =
        2 ^ (w * n - p) * (x / 2 ^ (w * m - p)) + k := by
  have hle := Nat.mul_le_mul_left w hn
  have hpow : 2 ^ (w * m - p) = 2 ^ (w * n - p) * 2 ^ (w * (m - n)) := by
    rw [← Nat.pow_add, Nat.mul_sub]
    congr 1
    omega
  have hsum : prefixOf (w * m) p x + k * 2 ^ (w * (m - n)) =
      (2 ^ (w * n - p) * (x / 2 ^ (w * m - p)) + k) * 2 ^ (w * (m - n)) := by
    rw [prefixOf, hpow]
    ring
  rw [hsum, Nat.mul_div_cancel _ (Nat.two_pow_pos _)]
  refine ⟨?_, rfl⟩
  have hquot : x / 2 ^ (w * m - p) < 2 ^ p := by
    rw [Nat.div_lt_iff_lt_mul (Nat.two_pow_pos _), ← Nat.pow_add]
    rwa [show p + (w * m - p) = w * m by omega]
  calc (2 ^ (w * n - p) * (x / 2 ^ (w * m - p)) + k) * 2 ^ (w * (m - n))
      < 2 ^ (w * n - p) * (x / 2 ^ (w * m - p) + 1) * 2 ^ (w * (m - n)) := by
        rw [Nat.mul_lt_mul_right (Nat.two_pow_pos _), Nat.mul_add, Nat.mul_one]
        omega
    _ = (x / 2 ^ (w * m - p) + 1) * 2 ^ (w * m - p) := by
        rw [hpow]
        ring
    _ ≤ 2 ^ p * 2 ^ (w * m - p) := Nat.mul_le_mul_right _ hquot
    _ = 2 ^ (w * m) := by
        rw [← Nat.pow_add]
        congr 1
        omega

theorem div_bits (y : ℕ) : y / 2 ^ (w * m - p) = y / 2 ^ (w * (m - n)) / 2 ^ (w * n - p) := by
  have hle := Nat.mul_le_mul_left w hn
  rw [Nat.div_div_eq_div_mul, ← Nat.pow_add, Nat.mul_sub]
  congr 2
  omega

theorem prefix_add_div (hx : x < 2 ^ (w * m)) {k : ℕ} (hk : k < 2 ^ (w * n - p)) :
    (prefixOf (w * m) p x + k * 2 ^ (w * (m - n))) / 2 ^ (w * m - p) = x / 2 ^ (w * m - p) := by
  rw [div_bits hn hp, (prefix_add hn hp hx hk).2, Nat.mul_add_div (Nat.two_pow_pos _),
    Nat.div_eq_of_lt hk, Nat.add_zero]

theorem exists_prefixDigits_iff (hx : x < 2 ^ (w * m)) (hy : y < 2 ^ (w * m)) :
    (∃ zone ∈ prefixDigits w m n (prefixOf (w * m) p x) (2 ^ (w * n - p)),
        zone <+: firstDigits w m m y) ↔ y / 2 ^ (w * m - p) = x / 2 ^ (w * m - p) := by
  have hpos := Nat.two_pow_pos (w * n - p)
  simp only [prefixDigits, mem_map, mem_range, exists_exists_and_eq_and]
  rw [div_bits hn hp y]
  constructor
  · rintro ⟨k, hk, hpre⟩
    obtain ⟨hlt, hdiv⟩ := prefix_add hn hp hx hk
    rw [firstDigits_prefix_iff hn hy hlt, hdiv] at hpre
    rw [hpre, Nat.mul_add_div hpos, Nat.div_eq_of_lt hk, Nat.add_zero]
  · intro h
    have hk := Nat.mod_lt (y / 2 ^ (w * (m - n))) hpos
    obtain ⟨hlt, hdiv⟩ := prefix_add hn hp hx hk
    refine ⟨_, hk, ?_⟩
    rw [firstDigits_prefix_iff hn hy hlt, hdiv, ← h, Nat.div_add_mod]

theorem pairwise_prefixDigits (hx : x < 2 ^ (w * m)) :
    (prefixDigits w m n (prefixOf (w * m) p x) (2 ^ (w * n - p))).Pairwise
      fun a b => ¬ a <+: b ∧ ¬ b <+: a := by
  rw [prefixDigits, pairwise_map]
  refine pairwise_lt_range.imp_of_mem fun {k l} hk hl hkl => ?_
  obtain ⟨hklt, hkdiv⟩ := prefix_add hn hp hx (mem_range.mp hk)
  obtain ⟨hllt, hldiv⟩ := prefix_add hn hp hx (mem_range.mp hl)
  have hne : firstDigits w m n (prefixOf (w * m) p x + k * 2 ^ (w * (m - n))) ≠
      firstDigits w m n (prefixOf (w * m) p x + l * 2 ^ (w * (m - n))) := by
    rw [Ne, firstDigits_eq_iff hn hklt hllt, hkdiv, hldiv]
    omega
  exact ⟨fun h => hne (h.eq_of_length (by simp)), fun h => hne (h.eq_of_length (by simp)).symm⟩

end

end Digits

/-! ## Names -/

/-- The name is the other one, or has labels in front of it. -/
def BelowName (name zone : Bytes) : Prop := name = zone ∨ ∃ s, name = s ++ ('.' : UInt8) :: zone

section Names

variable {label : ℕ → Bytes} {suffix : Bytes}

def digitLabels (label : ℕ → Bytes) (digits : List ℕ) : Bytes :=
  digits.reverse.flatMap fun d => label d ++ ascii "."

def digitName (label : ℕ → Bytes) (suffix : Bytes) (digits : List ℕ) : Bytes :=
  digitLabels label digits ++ suffix

theorem closed_digitLabels (digits : List ℕ) : Closed '.' (digitLabels label digits) := by
  unfold digitLabels
  induction digits.reverse with
  | nil => exact closed_nil _
  | cons d l ih => exact (closed_concat '.' (label d)).append ih

theorem digitLabels_append (l k : List ℕ) :
    digitLabels label (l ++ k) = digitLabels label k ++ digitLabels label l := by
  simp [digitLabels]

theorem digitLabels_eq_append_iff (hinj : Function.Injective label)
    (hdot : ∀ d, ('.' : UInt8) ∉ label d) {s : Bytes} (hs : Closed '.' s)
    {zone digits : List ℕ} :
    digitLabels label digits = s ++ digitLabels label zone ↔
      ∃ rest, digits = zone ++ rest ∧ s = digitLabels label rest := by
  have hcons (d : ℕ) (l : List ℕ) :
      digitLabels label (d :: l) = digitLabels label l ++ label d ++ ascii "." := by
    simp [digitLabels]
  constructor
  · intro h
    induction zone generalizing digits with
    | nil => exact ⟨digits, rfl, by rw [h]; exact (append_nil s).symm⟩
    | cons a zone ih =>
      cases digits with
      | nil =>
        rw [hcons, ← append_assoc] at h
        exact absurd h.symm (append_ne_nil_of_right_ne_nil _ (by decide))
      | cons b digits =>
        rw [hcons, hcons, ← append_assoc, ← append_assoc] at h
        obtain ⟨hlabels, hlabel⟩ := (closed_digitLabels digits).append_inj
          (hs.append (closed_digitLabels zone)) (hdot b) (hdot a) (append_cancel_right h)
        obtain ⟨rest, rfl, hrest⟩ := ih hlabels
        exact ⟨rest, by rw [hinj hlabel, cons_append], hrest⟩
  · rintro ⟨rest, rfl, rfl⟩
    exact digitLabels_append zone rest

theorem belowName_digitName_iff (hinj : Function.Injective label)
    (hdot : ∀ d, ('.' : UInt8) ∉ label d) {digits zone : List ℕ} :
    BelowName (digitName label suffix digits) (digitName label suffix zone) ↔ zone <+: digits := by
  constructor
  · rintro (h | ⟨s, h⟩)
    · obtain ⟨rest, hrest, -⟩ := (digitLabels_eq_append_iff hinj hdot (closed_nil _)).mp
        (append_cancel_right h)
      exact ⟨rest, hrest.symm⟩
    · have hlabels : digitLabels label digits = s ++ ascii "." ++ digitLabels label zone := by
        refine append_cancel_right (h.trans ?_)
        simp [digitName, ascii]
      obtain ⟨rest, hrest, -⟩ :=
        (digitLabels_eq_append_iff hinj hdot (closed_concat '.' s)).mp hlabels
      exact ⟨rest, hrest.symm⟩
  · rintro ⟨rest, rfl⟩
    rw [digitName, digitLabels_append, append_assoc]
    rcases @closed_digitLabels label rest with hrest | ⟨s, hrest⟩
    · exact .inl (by rw [hrest]; rfl)
    · exact .inr ⟨s, by rw [hrest, append_assoc]; rfl⟩

/-- Zones of which none is below another one, with the names that are inside below them. -/
structure CoversNames {α : Type*} (zones : List Bytes) (name : α → Bytes) (inside : α → Prop) :
    Prop where
  apart : zones.Pairwise fun a b => ¬ BelowName a b ∧ ¬ BelowName b a
  below_iff : ∀ a, (∃ zone ∈ zones, BelowName (name a) zone) ↔ inside a

theorem coversNames_prefixDigits {α : Type*} {toNat : α → ℕ} {w m n p x : ℕ}
    (hinj : Function.Injective label) (hdot : ∀ d, ('.' : UInt8) ∉ label d) (hn : n ≤ m)
    (hp : p ≤ w * n) (hx : x < 2 ^ (w * m)) (hlt : ∀ a, toNat a < 2 ^ (w * m)) :
    CoversNames
      ((prefixDigits w m n (prefixOf (w * m) p x) (2 ^ (w * n - p))).map (digitName label suffix))
      (fun a => digitName label suffix (firstDigits w m m (toNat a)))
      fun a => toNat a / 2 ^ (w * m - p) = x / 2 ^ (w * m - p) where
  apart := by
    rw [pairwise_map]
    refine (pairwise_prefixDigits hn hp hx).imp fun {a b} hab => ?_
    rw [belowName_digitName_iff hinj hdot, belowName_digitName_iff hinj hdot]
    exact hab.symm
  below_iff a := by
    simp only [mem_map, exists_exists_and_eq_and, belowName_digitName_iff hinj hdot]
    exact exists_prefixDigits_iff hn hp hx (hlt a)

end Names

end NetworkManager.Lib
