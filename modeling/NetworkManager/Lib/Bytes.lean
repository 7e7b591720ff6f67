import Mathlib.Data.List.DropRight
import Mathlib.Algebra.Order.Ring.Int

/-!
# Byte strings

A C string is the list of its bytes before the terminating NUL byte, so reading the byte
after the last one means to find an empty list. The classes of ASCII characters are those of
the C locale, and an octal escape sequence is read greedily, up to three digits.
-/

namespace NetworkManager.Lib

abbrev Bytes := List UInt8

instance coeCharUInt8 : Coe Char UInt8 := ⟨Char.toUInt8⟩

instance lawfulBEqBytes : @LawfulBEq Bytes (@List.instBEq UInt8 instBEqOfDecidableEq) :=
  List.instLawfulBEq

open List

def ascii (s : String) : Bytes := s.toList.map Char.toUInt8

/-- A property of all bytes is checked for each of them. -/
instance decidableForallUInt8 (p : UInt8 → Prop) [DecidablePred p] : Decidable (∀ b, p b) :=
  decidable_of_iff (∀ v : BitVec 8, p (UInt8.ofBitVec v))
    ⟨fun h b => h b.toBitVec, fun h v => h (UInt8.ofBitVec v)⟩

instance (p : UInt8 → Prop) [DecidablePred p] (s : Bytes) : Decidable (∀ b ∈ s, p b) :=
  List.decidableBAll p s

/-- A C string has no NUL byte. -/
def NulFree (s : Bytes) : Prop := 0 ∉ s

instance (s : Bytes) : Decidable (NulFree s) := inferInstanceAs (Decidable (0 ∉ s))

theorem nulFree_nil : NulFree [] := not_mem_nil

variable {s : Bytes}

theorem nulFree_cons {b : UInt8} : NulFree (b :: s) ↔ b ≠ 0 ∧ NulFree s := by
  simp [NulFree, eq_comm]

variable {t : Bytes}

theorem nulFree_append : NulFree (s ++ t) ↔ NulFree s ∧ NulFree t := by
  simp [NulFree]

theorem flatMap_injective {α β : Type*} {f : α → List β} (hne : ∀ a, f a ≠ [])
    (h : ∀ a b r r', f a ++ r = f b ++ r' → a = b ∧ r = r') :
    Function.Injective (fun s : List α => s.flatMap f) := by
  intro s
  induction s with
  | nil =>
    intro t ht
    cases t with
    | nil => rfl
    | cons b t => exact absurd (append_eq_nil_iff.mp ht.symm).1 (hne b)
  | cons a s ih =>
    intro t ht
    cases t with
    | nil => exact absurd (append_eq_nil_iff.mp ht).1 (hne a)
    | cons b t =>
      obtain ⟨rfl, hrest⟩ := h a b _ _ ht
      exact congrArg (a :: ·) (ih hrest)

/-! ## ASCII characters -/

/-- `g_ascii_isspace()`, for which a vertical tab is no space. -/
def isSpace (b : UInt8) : Bool := b = 9 ∨ b = 10 ∨ b = 12 ∨ b = 13 ∨ b = 32

variable {c : UInt8}

theorem ne_backslash_of_isSpace (h : isSpace c) : c ≠ '\\' := by
  rintro rfl
  exact absurd h (by decide)

def isPrint (b : UInt8) : Bool := 32 ≤ b ∧ b < 127

def isDigit (b : UInt8) : Bool := 48 ≤ b ∧ b ≤ 57

def isAlpha (b : UInt8) : Bool := (65 ≤ b ∧ b ≤ 90) ∨ (97 ≤ b ∧ b ≤ 122)

def isAlnum (b : UInt8) : Bool := isAlpha b ∨ isDigit b

def isXdigit (b : UInt8) : Bool := isDigit b ∨ (65 ≤ b ∧ b ≤ 70) ∨ (97 ≤ b ∧ b ≤ 102)

/-- `g_ascii_xdigit_value()` of a digit -/
def xdigitValue (b : UInt8) : UInt8 :=
  if 65 ≤ b ∧ b ≤ 70 then b - 65 + 10 else if 97 ≤ b ∧ b ≤ 102 then b - 97 + 10 else b - 48

/-- `nm_utils_hexchar_to_int()` -/
def hexcharToInt (c : UInt8) : Option UInt8 := if isXdigit c then some (xdigitValue c) else none

/-- `nm_hexchar()` -/
def hexchar (b : UInt8) (upperCase : Bool) : UInt8 :=
  if b &&& (15 : UInt8) < 10 then '0' + (b &&& (15 : UInt8))
  else if upperCase then 'A' + ((b &&& (15 : UInt8)) - 10)
  else 'a' + ((b &&& (15 : UInt8)) - 10)

theorem isXdigit_hexchar : ∀ b upperCase, isXdigit (hexchar b upperCase) := by decide +kernel

theorem xdigitValue_hexchar : ∀ (b : UInt8) upperCase,
    (xdigitValue (hexchar (b >>> (4 : UInt8)) upperCase) <<< 4) +
      xdigitValue (hexchar b upperCase) = b := by decide +kernel

def isCtrlOrDel (b : UInt8) : Bool := b < 32 ∨ b = 127

def isNonAscii (b : UInt8) : Bool := 127 < b

def isRegular (b : UInt8) : Bool := 32 ≤ b ∧ b < 127

/-- `nm_str_skip_leading_spaces()` -/
def skipSpaces (s : Bytes) : Bytes := s.dropWhile isSpace

theorem skipSpaces_of_head (h : ∀ c ∈ s.head?, ¬ isSpace c) : skipSpaces s = s := by
  cases s with
  | nil => rfl
  | cons c s => exact dropWhile_cons_of_neg (h c rfl)

def chomp (s : Bytes) : Bytes := s.rdropWhile isSpace

theorem chomp_length_le (s : Bytes) : (chomp s).length ≤ s.length :=
  List.IsPrefix.length_le ( rdropWhile_prefix isSpace s)

/-! ## The last byte of a kind -/

/-- `strrchr()`: what is before the last such byte, and what is behind it. -/
def splitLast (c : UInt8) : Bytes → Option (Bytes × Bytes)
  | [] => none
  | b :: s =>
    match splitLast c s with
    | some t => some (b :: t.1, t.2)
    | none => if b = c then some ([], s) else none

theorem splitLast_eq_none : splitLast c s = none ↔ c ∉ s := by
  induction s with
  | nil => simp [splitLast]
  | cons b s ih =>
    rw [splitLast, mem_cons, not_or]
    cases hs : splitLast c s with
    | none => simp [ih.mp hs, eq_comm]
    | some t =>
      have hmem : c ∈ s := by
        by_contra hno
        rw [ih.mpr hno] at hs
        cases hs
      simp [hmem]

variable {y x : Bytes}

theorem splitLast_append (hy : c ∉ y) : splitLast c (x ++ c :: y) = some (x, y) := by
  induction x with
  | nil =>
    rw [nil_append, splitLast, splitLast_eq_none.mpr hy]
    exact if_pos rfl
  | cons b x ih =>
    rw [cons_append, splitLast, ih]

theorem splitLast_eq_some : splitLast c s = some (x, y) ↔ s = x ++ c :: y ∧ c ∉ y := by
  constructor
  · intro h
    induction s generalizing x with
    | nil => simp [splitLast] at h
    | cons b s ih =>
      rw [splitLast] at h
      cases hs : splitLast c s with
      | none =>
        rw [hs] at h
        split_ifs at h with hb
        obtain ⟨rfl, rfl⟩ := Prod.mk.inj (Option.some.inj h)
        exact ⟨by rw [hb, nil_append], splitLast_eq_none.mp hs⟩
      | some t =>
        rw [hs] at h
        obtain ⟨rfl, rfl⟩ := Prod.mk.inj (Option.some.inj h)
        obtain ⟨hst, hy⟩ := ih hs
        exact ⟨by rw [hst, cons_append], hy⟩
  · rintro ⟨rfl, hy⟩
    exact splitLast_append hy

/-- The text is empty or ends with the character. -/
def Closed (c : UInt8) (s : Bytes) : Prop := s = [] ∨ ∃ w, s = w ++ [c]

theorem closed_nil (c : UInt8) : Closed c [] := .inl rfl

theorem closed_concat (c : UInt8) (s : Bytes) : Closed c (s ++ [c]) := .inr ⟨s, rfl⟩

theorem Closed.append (hs : Closed c s) (ht : Closed c t) : Closed c (s ++ t) := by
  rcases ht with rfl | ⟨w, rfl⟩
  · rwa [append_nil]
  · exact .inr ⟨s ++ w, (append_assoc _ _ _).symm⟩

theorem Closed.append_inj (hx : Closed c x) (hy : Closed c y) (hs : c ∉ s) (ht : c ∉ t)
    (h : x ++ s = y ++ t) : x = y ∧ s = t := by
  rcases hx with rfl | ⟨w, rfl⟩
  · rcases hy with rfl | ⟨w', rfl⟩
    · exact ⟨rfl, h⟩
    · rw [nil_append] at h
      exact absurd (by rw [h]; simp) hs
  · rcases hy with rfl | ⟨w', rfl⟩
    · rw [nil_append] at h
      exact absurd (by rw [← h]; simp) ht
    · rw [append_assoc, append_assoc] at h
      have hsplit := congrArg (splitLast c) h
      rw [singleton_append, singleton_append, splitLast_append hs,
        splitLast_append ht] at hsplit
      obtain ⟨rfl, rfl⟩ := Prod.mk.inj (Option.some.inj hsplit)
      exact ⟨rfl, rfl⟩

/-! ## Octal escape sequences -/

def isOctal (b : UInt8) : Bool := 48 ≤ b ∧ b ≤ 55

def octalDigit (b : UInt8) : UInt8 := '0' + (b &&& (7 : UInt8))

def octalDigits (b : UInt8) : Bytes :=
  [octalDigit (b >>> (6 : UInt8)), octalDigit (b >>> (3 : UInt8)), octalDigit b]

def octalValue (d : UInt8) : ℕ := d.toNat - 48

/-- Read at most `n` more octal digits. What does not fit into a byte is clipped. -/
def readOctal : ℕ → ℕ → Bytes → UInt8 × Bytes
  | 0, v, s => (UInt8.ofNat v, s)
  | _ + 1, v, [] => (UInt8.ofNat v, [])
  | n + 1, v, c :: s =>
    if isOctal c then readOctal n (v * 8 + octalValue c) s else (UInt8.ofNat v, c :: s)

theorem readOctal_length_le (n v : ℕ) (s : Bytes) : (readOctal n v s).2.length ≤ s.length := by
  induction n generalizing v s with
  | zero => simp [readOctal]
  | succ n ih =>
    cases s with
    | nil => simp [readOctal]
    | cons c s =>
      unfold readOctal
      split_ifs
      · exact Nat.le_succ_of_le (ih _ s)
      · exact Nat.le_refl _

theorem isOctal_octalDigit : ∀ b, isOctal (octalDigit b) := by decide

theorem readOctal_two {a b : UInt8} (hb : isOctal b) (hc : isOctal c) (s : Bytes) :
    readOctal 2 (octalValue a) (b :: c :: s) =
      (UInt8.ofNat ((octalValue a * 8 + octalValue b) * 8 + octalValue c), s) := by
  simp [readOctal, hb, hc]

theorem octalValue_octalDigits : ∀ b : UInt8,
    UInt8.ofNat ((octalValue (octalDigit (b >>> (6 : UInt8))) * 8 +
      octalValue (octalDigit (b >>> (3 : UInt8)))) * 8 + octalValue (octalDigit b)) = b := by
  decide

theorem readOctal_octalDigits (b : UInt8) (s : Bytes) :
    readOctal 2 (octalValue (octalDigit (b >>> (6 : UInt8))))
      (octalDigit (b >>> (3 : UInt8)) :: octalDigit b :: s) = (b, s) := by
  rw [readOctal_two (isOctal_octalDigit _) (isOctal_octalDigit b), octalValue_octalDigits]

end NetworkManager.Lib
