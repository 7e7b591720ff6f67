import NetworkManager.GlibAux.AsciiStrToInt64
import NetworkManager.Lib.Compare

/-!
# Texts of decimal digits

Texts of one length compare like their numbers, and without leading zeros the shorter of two texts
is that of the smaller number.
-/

namespace NetworkManager.GlibAux

open Lib List
open Std (TransOrd LawfulEqOrd)

variable {s t : Bytes}

theorem compare_append (h : s.length = t.length) (u v : Bytes) :
    compare (s ++ u) (t ++ v) = (compare s t).then (compare u v) := by
  induction s generalizing t with
  | nil =>
    rw [eq_nil_of_length_eq_zero h.symm]
    rfl
  | cons a s ih =>
    cases t with
    | nil => simp at h
    | cons b t =>
      rw [List.cons_append, List.cons_append, List.compare_cons_cons, List.compare_cons_cons,
        ih (Nat.succ.inj h), Ordering.then_assoc]

/-! ## Digits -/

def digitValue (c : UInt8) : ℕ := c.toNat - 48

theorem asciiDigitValue_of_isDigit : ∀ c, isDigit c →
    asciiDigitValue c = some (digitValue c) ∧ isAsciiDigitOf 10 c ∧ digitValue c < 10 := by
  decide

theorem compare_digitValue {c d : UInt8} (hc : isDigit c) (hd : isDigit d) :
    compare (digitValue c) (digitValue d) = compare c d := by
  have hc' : 48 ≤ c.toNat := by
    simp only [isDigit, decide_eq_true_eq, UInt8.le_iff_toNat_le] at hc
    exact hc.1
  have hd' : 48 ≤ d.toNat := by
    simp only [isDigit, decide_eq_true_eq, UInt8.le_iff_toNat_le] at hd
    exact hd.1
  change compareOfLessAndEq _ _ = compareOfLessAndEq c d
  unfold compareOfLessAndEq digitValue
  simp only [UInt8.lt_iff_toNat_lt, ← UInt8.toNat_inj]
  split_ifs <;> first | rfl | omega

def decimalValue (s : Bytes) : ℕ := asciiDigitsValue 10 s

theorem decimalValue_cons {c : UInt8} (hc : isDigit c) (s : Bytes) :
    decimalValue (c :: s) = digitValue c * 10 ^ s.length + decimalValue s := by
  have hfold : ∀ v, s.foldl (fun v c => v * 10 + (asciiDigitValue c).getD 0) v =
      v * 10 ^ s.length + s.foldl (fun v c => v * 10 + (asciiDigitValue c).getD 0) 0 := by
    intro v
    induction s using List.reverseRecOn generalizing v with
    | nil => simp
    | append_singleton s d ih =>
      rw [foldl_append, foldl_append, ih v, length_append, length_singleton,
        Nat.pow_succ]
      simp only [foldl_cons, foldl_nil]
      rw [Nat.add_mul, Nat.mul_assoc, Nat.add_assoc]
  unfold decimalValue asciiDigitsValue
  rw [foldl_cons, hfold, (asciiDigitValue_of_isDigit c hc).1, Option.getD_some,
    Nat.zero_mul, Nat.zero_add]

theorem decimalValue_lt (hs : ∀ c ∈ s, isDigit c) : decimalValue s < 10 ^ s.length := by
  induction s with
  | nil => exact Nat.one_pos
  | cons c s ih =>
    rw [forall_mem_cons] at hs
    have hrest := ih hs.2
    have hdigit := Nat.mul_le_mul_right (10 ^ s.length)
      (Nat.le_of_lt_succ (asciiDigitValue_of_isDigit c hs.1).2.2)
    rw [decimalValue_cons hs.1, length_cons, Nat.pow_succ]
    omega

theorem compare_decimalValue (hs : ∀ c ∈ s, isDigit c) (ht : ∀ c ∈ t, isDigit c)
    (hlen : s.length = t.length) : compare (decimalValue s) (decimalValue t) = compare s t := by
  induction s generalizing t with
  | nil =>
    rw [eq_nil_of_length_eq_zero hlen.symm]
    rfl
  | cons c s ih =>
    cases t with
    | nil => simp at hlen
    | cons d t =>
      have hlen' : s.length = t.length := Nat.succ.inj hlen
      rw [forall_mem_cons] at hs ht
      have hpos : 0 < 10 ^ s.length := Nat.pow_pos (by decide)
      have hvs := decimalValue_lt hs.2
      have hvt := decimalValue_lt ht.2
      rw [← hlen'] at hvt
      have hdiv : ∀ x v, v < 10 ^ s.length → (x * 10 ^ s.length + v) / 10 ^ s.length = x := by
        intro x v hv
        rw [Nat.mul_comm, Nat.mul_add_div hpos, Nat.div_eq_of_lt hv, Nat.add_zero]
      rw [decimalValue_cons hs.1, decimalValue_cons ht.1, ← hlen', List.compare_cons_cons,
        ← compare_div_mod _ _ hpos, hdiv _ _ hvs, hdiv _ _ hvt, Nat.mul_add_mod_of_lt hvs,
        Nat.mul_add_mod_of_lt hvt, compare_digitValue hs.1 ht.1, ih hs.2 ht.2 hlen']

/-! ## Canonical texts -/

/-- A number without leading zeros. -/
def IsCanonical (s : Bytes) : Prop :=
  s = [48] ∨ (s.head?.any fun c => 49 ≤ c ∧ c ≤ 57) ∧ s.tail.all isDigit

instance (s : Bytes) : Decidable (IsCanonical s) := inferInstanceAs (Decidable (_ ∨ _))

theorem IsCanonical.digits (h : IsCanonical s) : s ≠ [] ∧ ∀ c ∈ s, isDigit c := by
  have hfirst : ∀ c : UInt8, 49 ≤ c ∧ c ≤ 57 → isDigit c := by decide
  rcases h with rfl | ⟨hhead, htail⟩
  · exact ⟨by simp, by decide⟩
  · cases s with
    | nil => simp at hhead
    | cons c s =>
      refine ⟨cons_ne_nil _ _, ?_⟩
      rw [forall_mem_cons]
      exact ⟨hfirst c (by simpa using hhead), by simpa using htail⟩

theorem IsCanonical.lt_of_length (hs : ∀ c ∈ s, isDigit c) (hs0 : s ≠ []) (ht : IsCanonical t)
    (hlen : s.length < t.length) : decimalValue s < decimalValue t := by
  have hpos : 0 < s.length := length_pos_iff.mpr hs0
  rcases ht with rfl | ⟨hhead, htail⟩
  · rw [length_singleton] at hlen
    omega
  · cases t with
    | nil => simp at hhead
    | cons c t =>
      have hfirst : ∀ c : UInt8, 49 ≤ c ∧ c ≤ 57 → isDigit c ∧ 1 ≤ digitValue c := by decide
      have hc := hfirst c (by simpa using hhead)
      have hlt := decimalValue_lt hs
      have hpow : 10 ^ s.length ≤ 10 ^ t.length :=
        Nat.pow_le_pow_right (by decide) (Nat.le_of_lt_succ hlen)
      have hone := Nat.mul_le_mul_right (10 ^ t.length) hc.2
      rw [decimalValue_cons hc.1]
      omega

theorem IsCanonical.inj (hs : IsCanonical s) (ht : IsCanonical t)
    (h : decimalValue s = decimalValue t) : s = t := by
  obtain ⟨hs0, hsd⟩ := hs.digits
  obtain ⟨ht0, htd⟩ := ht.digits
  rcases Nat.lt_trichotomy s.length t.length with hlt | heq | hgt
  · have := ht.lt_of_length hsd hs0 hlt
    omega
  · have hcompare := compare_decimalValue hsd htd heq
    rw [h, Std.compare_self] at hcompare
    exact LawfulEqOrd.eq_of_compare hcompare.symm
  · have := hs.lt_of_length htd ht0 hgt
    omega

end NetworkManager.GlibAux
