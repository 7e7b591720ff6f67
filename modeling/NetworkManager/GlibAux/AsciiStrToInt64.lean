import NetworkManager.Lib.Bytes

/-!
# Numbers as text

`_nm_utils_ascii_str_to_int64()` wants the whole text to be one number that is in range, with
blanks around it. It reads back what the formats `"%u"` and `"0x%x"` print.
-/

namespace NetworkManager.GlibAux

open Lib

/-! ## Reading a number -/

/-- The digits of `g_ascii_strtoll()`. -/
def asciiDigitValue (c : UInt8) : Option ℕ :=
  if isDigit c then some (c.toNat - 48)
  else if 97 ≤ c ∧ c ≤ 122 then some (c.toNat - 87)
  else if 65 ≤ c ∧ c ≤ 90 then some (c.toNat - 55)
  else none

def isAsciiDigitOf (base : ℕ) (c : UInt8) : Bool :=
  match asciiDigitValue c with
  | none => false
  | some v => v < base

def asciiDigitsValue (base : ℕ) (s : Bytes) : ℕ :=
  s.foldl (fun v c => v * base + (asciiDigitValue c).getD 0) 0

/-- The base, and what comes after the characters that only tell the base. -/
def strtollBase (base : ℕ) (s : Bytes) : ℕ × Bytes :=
  if s.head? = some ('0' : UInt8) then
    if (base = 0 ∨ base = 16) ∧ ∃ x ∈ s.tail.head?, x = 'x' ∨ x = 'X' then (16, s.tail.tail)
    else (if base = 0 then 8 else base, s)
  else (if base = 0 then 10 else base, s)

/-- `g_parse_long_long()`, which `g_ascii_strtoll()` and `g_ascii_strtoull()` call: whether the
number is negative, its digits, and the text after it, unless there is no number. -/
def parseLongLong (base : ℕ) (s : Bytes) : Option (Bool × ℕ × Bytes) :=
  let s := s.dropWhile fun c => isSpace c || c = 11
  let negative : Bool := s.head? = some ('-' : UInt8)
  let s := if negative ∨ s.head? = some ('+' : UInt8) then s.tail else s
  let (base, s) := strtollBase base s
  let digits := s.takeWhile (isAsciiDigitOf base)
  if digits = [] then none
  else some (negative, asciiDigitsValue base digits, s.dropWhile (isAsciiDigitOf base))

/-- `g_ascii_strtoll()`: the number and the text after it, unless there is no number or it is
out of range. -/
def asciiStrtoll (base : ℕ) (s : Bytes) : Option (ℤ × Bytes) :=
  match parseLongLong base s with
  | none => none
  | some (true, v, rest) => if v ≤ 2 ^ 63 then some (-v, rest) else none
  | some (false, v, rest) => if v < 2 ^ 63 then some (v, rest) else none

/-- `_nm_utils_ascii_str_to_int64()`, without a value where the fallback is returned and `errno`
is set. -/
def asciiStrToInt64 (str : Bytes) (base : ℕ) (min max : ℤ) : Option ℤ :=
  match asciiStrtoll base (skipSpaces str) with
  | none => none
  | some (v, rest) => if skipSpaces rest ≠ [] ∨ v > max ∨ v < min then none else some v

/-! ## Printing a number -/

def digitsText (base n : ℕ) : Bytes := (Nat.toDigits base n).map Char.toUInt8

/-- The format `"%u"`. -/
def formatUnsigned (n : ℕ) : Bytes := digitsText 10 n

/-- The format `"%d"`. -/
def formatSigned (n : ℤ) : Bytes :=
  if n < 0 then ascii "-" ++ digitsText 10 n.natAbs else digitsText 10 n.natAbs

/-- The format `"0x%x"`. -/
def formatHex (n : ℕ) : Bytes := ascii "0x" ++ digitsText 16 n

/-- The format `"0x%02x"`. -/
def formatHex2 (n : ℕ) : Bytes :=
  ascii "0x" ++ (if n < 16 then ascii "0" else []) ++ digitsText 16 n

/-! ## What is printed is read back -/

variable {n : ℕ} {c : UInt8}

section Digits

variable {base : ℕ} {d : ℕ}

theorem asciiDigitValue_digitChar :
    ∀ d < 16, asciiDigitValue (Nat.digitChar d).toUInt8 = some d := by
  decide

theorem asciiDigitsValue_concat (s : Bytes) (c : UInt8) :
    asciiDigitsValue base (s ++ [c]) =
      asciiDigitsValue base s * base + (asciiDigitValue c).getD 0 := by
  simp [asciiDigitsValue]

theorem digitsText_of_lt (hd : d < base) : digitsText base d = [(Nat.digitChar d).toUInt8] := by
  rw [digitsText, Nat.toDigits_of_lt_base hd]
  rfl

theorem digitsText_concat (hbase : 1 < base) {m : ℕ} (hm : 0 < m) (hd : d < base) :
    digitsText base (base * m + d) = digitsText base m ++ [(Nat.digitChar d).toUInt8] := by
  rw [← digitsText_of_lt hd, digitsText, ← Nat.toDigits_append_toDigits hbase hm hd,
    List.map_append]
  rfl

theorem asciiDigits_digitsText (hbase : 1 < base) (hle : base ≤ 16) (n : ℕ) :
    (∀ c ∈ digitsText base n, isAsciiDigitOf base c) ∧
      asciiDigitsValue base (digitsText base n) = n := by
  have hdigit : ∀ d < base, asciiDigitValue (Nat.digitChar d).toUInt8 = some d :=
    fun d hd => asciiDigitValue_digitChar d (by omega)
  have hof : ∀ d < base, isAsciiDigitOf base (Nat.digitChar d).toUInt8 := by
    intro d hd
    simp [isAsciiDigitOf, hdigit d hd, hd]
  induction n using Nat.base_induction base hbase with
  | single m hm =>
    rw [digitsText_of_lt hm]
    simp [asciiDigitsValue, hdigit m hm, hof m hm]
  | digit m k hk hm ih =>
    obtain ⟨hall, hvalue⟩ := ih
    rw [digitsText_concat hbase hm hk]
    constructor
    · intro c hc
      rcases List.mem_append.mp hc with hc | hc
      · exact hall c hc
      · exact List.mem_singleton.mp hc ▸ hof k hk
    · rw [asciiDigitsValue_concat, hvalue, hdigit k hk, Option.getD_some, Nat.mul_comm]

theorem digitsText_ne_nil (n : ℕ) : digitsText base n ≠ [] := by
  simp [digitsText]

theorem head_digitsText (hbase : 1 < base) (hle : base ≤ 16) (hn : n ≠ 0) :
    (digitsText base n).head? ≠ some ('0' : UInt8) := by
  have hzero : ∀ d < 16, d ≠ 0 → (Nat.digitChar d).toUInt8 ≠ ('0' : UInt8) := by decide
  induction n using Nat.base_induction base hbase with
  | single m hm =>
    rw [digitsText_of_lt hm]
    simpa using hzero m (by omega) hn
  | digit m k hk hm ih =>
    rw [digitsText_concat hbase hm hk, List.head?_append_of_ne_nil _ (digitsText_ne_nil m)]
    exact ih (by omega)

theorem asciiDigit_no_sign : ∀ c : UInt8, isAsciiDigitOf 16 c →
    ¬ isSpace c ∧ c ≠ 11 ∧ c ≠ '-' ∧ c ≠ '+' ∧ c ≠ 'x' ∧ c ≠ 'X' := by
  decide

theorem isAsciiDigitOf_mono {base' : ℕ} (hle : base ≤ base') (h : isAsciiDigitOf base c)
    : isAsciiDigitOf base' c := by
  unfold isAsciiDigitOf at *
  split at h
  · cases h
  · simp only [decide_eq_true_eq] at *
    omega

theorem notMem_digitsText {base : ℕ} (hbase : 1 < base) (hle : base ≤ 16) (n : ℕ)
    (hc : isAsciiDigitOf 16 c = false) : c ∉ digitsText base n := by
  intro hmem
  have hdigit := isAsciiDigitOf_mono hle ((asciiDigits_digitsText hbase hle n).1 c hmem)
  simp [hc] at hdigit

end Digits

theorem strtollBase_ten (s : Bytes) : strtollBase 10 s = (10, s) := by
  simp [strtollBase]

variable {s : Bytes}

theorem parseLongLong_unsigned {base : ℕ}
    (h : ∀ c ∈ s.head?, ¬ isSpace c ∧ c ≠ 11 ∧ c ≠ '-' ∧ c ≠ '+') :
    parseLongLong base s =
      let (base, s) := strtollBase base s
      if s.takeWhile (isAsciiDigitOf base) = [] then none
      else some (false, asciiDigitsValue base (s.takeWhile (isAsciiDigitOf base)),
        s.dropWhile (isAsciiDigitOf base)) := by
  cases s with
  | nil => rfl
  | cons c s =>
    obtain ⟨hspace, htab, hminus, hplus⟩ := h c rfl
    have hskip : ((c :: s).dropWhile fun c => isSpace c || c = 11) = c :: s :=
      List.dropWhile_cons_of_neg (by simp [hspace, htab])
    have hnegative : ¬ some c = some ('-' : UInt8) := fun h => hminus (Option.some.inj h)
    have hpositive : ¬ some c = some ('+' : UInt8) := fun h => hplus (Option.some.inj h)
    simp only [parseLongLong, hskip, List.head?_cons, hnegative, hpositive, decide_false,
      Bool.false_eq_true, or_self, if_false]

theorem parseLongLong_digits {base b : ℕ} {digits : Bytes}
    (hsign : ∀ c ∈ s.head?, ¬ isSpace c ∧ c ≠ 11 ∧ c ≠ '-' ∧ c ≠ '+')
    (hstart : strtollBase base s = (b, digits)) (hne : digits ≠ [])
    (hall : ∀ c ∈ digits, isAsciiDigitOf b c) :
    parseLongLong base s = some (false, asciiDigitsValue b digits, []) := by
  rw [parseLongLong_unsigned hsign, hstart]
  simp only [List.takeWhile_eq_self_iff.mpr hall, List.dropWhile_eq_nil_iff.mpr hall, hne, if_false]

variable {max : ℤ}

theorem asciiStrToInt64_digits {base b : ℕ}
    (hsign : ∀ c ∈ s.head?, ¬ isSpace c ∧ c ≠ 11 ∧ c ≠ '-' ∧ c ≠ '+') (hbase : 1 < b) (hle : b ≤ 16)
    (hstart : strtollBase base s = (b, digitsText b n)) (hmax : max < 2 ^ 63) (hn : (n : ℤ) ≤ max) :
    asciiStrToInt64 s base 0 max = some (n : ℤ) := by
  obtain ⟨hall, hvalue⟩ := asciiDigits_digitsText hbase hle n
  have hlt : n < 2 ^ 63 := by omega
  have hrange : ¬ (skipSpaces [] ≠ [] ∨ (n : ℤ) > max ∨ (n : ℤ) < 0) := by
    simp [skipSpaces]
    omega
  rw [asciiStrToInt64, skipSpaces_of_head fun c hc => (hsign c hc).1, asciiStrtoll,
    parseLongLong_digits hsign hstart (digitsText_ne_nil n) hall, hvalue]
  simp only [if_pos hlt]
  exact if_neg hrange

theorem asciiStrToInt64_of_range {base : ℕ} {min n : ℤ} (min' max' : ℤ)
    (h : asciiStrToInt64 s base min max = some n) (hmin : min' ≤ n) (hmax : n ≤ max') :
    asciiStrToInt64 s base min' max' = some n := by
  unfold asciiStrToInt64 at h ⊢
  cases hread : asciiStrtoll base (skipSpaces s) with
  | none => simp [hread] at h
  | some r =>
    obtain ⟨v, rest⟩ := r
    simp only [hread] at h ⊢
    split_ifs at h with hrange
    cases h
    have hrest : ¬ skipSpaces rest ≠ [] := fun hrest => hrange (.inl hrest)
    rw [if_neg]
    rintro (hne | hlt | hlt)
    · exact hrest hne
    · omega
    · omega

theorem asciiStrToInt64_range {base : ℕ} {min n : ℤ} (h : asciiStrToInt64 s base min max = some n)
    : min ≤ n ∧ n ≤ max := by
  unfold asciiStrToInt64 at h
  cases hread : asciiStrtoll base (skipSpaces s) with
  | none => simp [hread] at h
  | some r =>
    obtain ⟨v, rest⟩ := r
    simp only [hread] at h
    split_ifs at h with hrange
    cases h
    omega

theorem isDigit_of_mem_formatUnsigned (hc : c ∈ formatUnsigned n) : isDigit c := by
  have hdigit : ∀ c : UInt8, isAsciiDigitOf 10 c → isDigit c := by decide
  exact hdigit c ((asciiDigits_digitsText (by decide) (by decide) n).1 c hc)

theorem notMem_formatUnsigned (n : ℕ) (hc : isDigit c = false) : c ∉ formatUnsigned n :=
  fun h => Bool.false_ne_true (hc.symm.trans (isDigit_of_mem_formatUnsigned h))

theorem head_formatUnsigned (n : ℕ) :
    ∀ c ∈ (formatUnsigned n).head?, ¬ isSpace c ∧ c ≠ 11 ∧ c ≠ '-' ∧ c ≠ '+' := by
  intro c hc
  obtain ⟨hall, -⟩ := asciiDigits_digitsText (by decide : 1 < 10) (by decide) n
  obtain ⟨hspace, htab, hminus, hplus, -⟩ := asciiDigit_no_sign c
    (isAsciiDigitOf_mono (by decide) (hall c (List.mem_of_mem_head? hc)))
  exact ⟨hspace, htab, hminus, hplus⟩

theorem parseLongLong_formatUnsigned (n : ℕ) :
    parseLongLong 10 (formatUnsigned n) = some (false, n, []) := by
  obtain ⟨hall, hvalue⟩ := asciiDigits_digitsText (by decide : 1 < 10) (by decide) n
  have hread := parseLongLong_digits (head_formatUnsigned n) (strtollBase_ten _)
    (digitsText_ne_nil n) hall
  rwa [formatUnsigned, hvalue] at hread

theorem asciiStrToInt64_formatUnsigned {base : ℕ} (hbase : base = 0 ∨ base = 10)
    (hmax : max < 2 ^ 63) (hn : (n : ℤ) ≤ max) :
    asciiStrToInt64 (formatUnsigned n) base 0 max = some (n : ℤ) := by
  by_cases hzero : n = 0
  · subst hzero
    rcases hbase with rfl | rfl
    · exact asciiStrToInt64_digits (b := 8) (head_formatUnsigned 0) (by decide) (by decide)
        (by decide) hmax hn
    · exact asciiStrToInt64_digits (b := 10) (head_formatUnsigned 0) (by decide) (by decide)
        (by decide) hmax hn
  · have hfirst := head_digitsText (by decide : 1 < 10) (by decide) hzero
    apply asciiStrToInt64_digits (b := 10) (head_formatUnsigned n) (by decide) (by decide) _ hmax hn
    rw [strtollBase, formatUnsigned, if_neg hfirst]
    rcases hbase with rfl | rfl <;> rfl

theorem strtollBase_hex {base : ℕ} (hbase : base = 0 ∨ base = 16) (s : Bytes) :
    strtollBase base (ascii "0x" ++ s) = (16, s) := by
  rcases hbase with rfl | rfl <;> simp [strtollBase, ascii]

theorem asciiStrToInt64_formatHex {base : ℕ} (hbase : base = 0 ∨ base = 16) (hmax : max < 2 ^ 63)
    (hn : (n : ℤ) ≤ max) : asciiStrToInt64 (formatHex n) base 0 max = some (n : ℤ) := by
  refine asciiStrToInt64_digits (b := 16) (fun c hc => ?_) (by decide) (by decide)
    (strtollBase_hex hbase _) hmax hn
  obtain rfl : ('0' : UInt8) = c := Option.some.inj hc
  decide

theorem asciiStrToInt64_formatHex2 :
    ∀ b : UInt8, asciiStrToInt64 (formatHex2 b.toNat) 16 0 255 = some (b.toNat : ℤ) := by
  decide +kernel

end NetworkManager.GlibAux
