import NetworkManager.GlibAux.AsciiStrToInt64

/-!
# Unsigned and negative numbers as text

`_nm_utils_ascii_str_to_uint64()` rejects a minus sign that `g_ascii_strtoull()` accepts. It reads
back all numbers of 64 bits, and `_nm_utils_ascii_str_to_int64()` reads back negative ones.
-/

namespace NetworkManager.GlibAux

open Lib

/-- `g_ascii_strtoull()`, as `asciiStrtoll`; a number with a minus sign wraps. -/
def asciiStrtoull (base : ℕ) (s : Bytes) : Option (ℕ × Bytes) :=
  match parseLongLong base s with
  | none => none
  | some (negative, v, rest) =>
    if 2 ^ 64 ≤ v then none else some (if negative then (2 ^ 64 - v) % 2 ^ 64 else v, rest)

/-- `_nm_utils_ascii_str_to_uint64()`, without a value where the fallback is returned and `errno`
is set. -/
def asciiStrToUint64 (str : Bytes) (base min max : ℕ) : Option ℕ :=
  let str := skipSpaces str
  match asciiStrtoull base str with
  | none => none
  | some (v, rest) =>
    if skipSpaces rest ≠ [] ∨ v > max ∨ v < min then none
    else if v ≠ 0 ∧ str.head? = some ('-' : UInt8) then none
    else some v

theorem asciiStrToUint64_formatUnsigned {n max : ℕ} (hn : n < 2 ^ 64) (hmax : n ≤ max) :
    asciiStrToUint64 (formatUnsigned n) 10 0 max = some n := by
  have hsign : ¬ (formatUnsigned n).head? = some ('-' : UInt8) := fun h =>
    (head_formatUnsigned n _ h).2.2.1 rfl
  rw [asciiStrToUint64, skipSpaces_of_head fun c hc => (head_formatUnsigned n c hc).1, asciiStrtoull,
    parseLongLong_formatUnsigned]
  simp only [Nat.not_le.mpr hn, if_false, Bool.false_eq_true, hsign, and_false]
  exact if_neg (by simp [skipSpaces]; omega)

theorem asciiStrtoll_minus {n : ℕ} (hn : n ≤ 2 ^ 63) :
    asciiStrtoll 10 (ascii "-" ++ formatUnsigned n) = some (-(n : ℤ), []) := by
  obtain ⟨hall, hvalue⟩ := asciiDigits_digitsText (by decide : 1 < 10) (by decide) n
  have hskip : ((ascii "-" ++ formatUnsigned n).dropWhile fun c => isSpace c || c = 11) =
      ('-' : UInt8) :: digitsText 10 n :=
    List.dropWhile_cons_of_neg (by decide)
  simp only [asciiStrtoll, parseLongLong, hskip, List.head?_cons, List.tail_cons, decide_true,
    true_or, if_true, strtollBase_ten, List.takeWhile_eq_self_iff.mpr hall,
    List.dropWhile_eq_nil_iff.mpr hall, hvalue, digitsText_ne_nil, if_false, hn]

theorem asciiStrToInt64_formatSigned {n min max : ℤ} (hlow : -2 ^ 63 ≤ n) (hhigh : n < 2 ^ 63)
    (hmin : min ≤ n) (hmax : n ≤ max) :
    asciiStrToInt64 (formatSigned n) 10 min max = some n := by
  by_cases hneg : n < 0
  · have habs : ((n.natAbs : ℕ) : ℤ) = -n := by omega
    have hread := asciiStrtoll_minus (n := n.natAbs) (by omega)
    have hskip : skipSpaces (ascii "-" ++ formatUnsigned n.natAbs) =
        ascii "-" ++ formatUnsigned n.natAbs :=
      List.dropWhile_cons_of_neg (by decide)
    rw [habs, Int.neg_neg] at hread
    rw [formatSigned, if_pos hneg, ← formatUnsigned, asciiStrToInt64, hskip, hread]
    exact if_neg (by simp [skipSpaces]; omega)
  · have habs : ((n.natAbs : ℕ) : ℤ) = n := by omega
    have hread : asciiStrToInt64 (formatUnsigned n.natAbs) 10 0 n = some (n.natAbs : ℤ) :=
      asciiStrToInt64_formatUnsigned (.inr rfl) (by omega) (by omega)
    rw [habs] at hread
    rw [formatSigned, if_neg hneg, ← formatUnsigned]
    exact asciiStrToInt64_of_range min max hread hmin hmax

end NetworkManager.GlibAux
