import NetworkManager.Lib.Bytes

/-!
# UTF-8

Text is the encoding of a list of characters. Validation goes from character to character,
and stops at the first byte that starts none, or at a NUL byte.
-/

namespace NetworkManager.Lib

open List

/-- The bytes are the encoding of some characters. -/
def Utf8 (s : Bytes) : Prop := ∃ cs : List Char, s = cs.flatMap String.utf8EncodeChar

theorem utf8_nil : Utf8 [] := ⟨[], rfl⟩

theorem utf8_encodeChar (c : Char) : Utf8 (String.utf8EncodeChar c) := ⟨[c], by simp⟩

variable {s : Bytes}

theorem Utf8.append {t : Bytes} (hs : Utf8 s) (ht : Utf8 t) : Utf8 (s ++ t) := by
  obtain ⟨cs, rfl⟩ := hs
  obtain ⟨ds, rfl⟩ := ht
  exact ⟨cs ++ ds, by simp⟩

theorem utf8_flatMap {α : Type*} {f : α → Bytes} {l : List α} (h : ∀ a ∈ l, Utf8 (f a)) :
    Utf8 (l.flatMap f) := by
  induction l with
  | nil => exact utf8_nil
  | cons a as ih =>
    rw [flatMap_cons]
    exact (h a mem_cons_self).append (ih fun b hb => h b (mem_cons_of_mem a hb))

/-! ## ASCII -/

theorem encodeChar_ofNat : ∀ b : UInt8, isNonAscii b = false →
    String.utf8EncodeChar (Char.ofNat b.toNat) = [b] := by
  decide

theorem utf8_singleton {b : UInt8} (h : isNonAscii b = false) : Utf8 [b] := by
  have henc := utf8_encodeChar (Char.ofNat b.toNat)
  rwa [encodeChar_ofNat b h] at henc

theorem utf8_of_ascii (h : ∀ b ∈ s, isNonAscii b = false) : Utf8 s := by
  have hflat := utf8_flatMap (f := fun b => [b]) fun b hb => utf8_singleton (h b hb)
  simpa using hflat

theorem encodeChar_cases (c : Char) :
    (∃ b, String.utf8EncodeChar c = [b] ∧ isNonAscii b = false) ∨
      ∀ b ∈ String.utf8EncodeChar c, isNonAscii b := by
  fun_cases String.utf8EncodeChar c with
  | case1 v h =>
    refine .inl ⟨_, rfl, ?_⟩
    simp [isNonAscii, UInt8.le_iff_toNat_le]
    omega
  | case2 | case3 | case4 =>
    right
    simp [isNonAscii, UInt8.lt_iff_toNat_lt]
    omega

variable {c : Char}

theorem nulFree_encodeChar : NulFree (String.utf8EncodeChar c) ↔ c.val ≠ 0 := by
  have hval : c.val ≠ 0 ↔ c.toNat ≠ 0 := not_congr UInt32.toNat_inj.symm
  rw [NulFree, hval]
  fun_cases String.utf8EncodeChar c with
  | case1 v | case2 v | case3 v | case4 v =>
    have hv : v = c.toNat := rfl
    clear_value v
    simp [← UInt8.toNat_inj]
    omega

/-! ## Validation -/

def decodeChar? (s : Bytes) : Option Char := s.toByteArray.utf8DecodeChar? 0

theorem decodeChar?_encodeChar_append (c : Char) (s : Bytes) :
    decodeChar? (String.utf8EncodeChar c ++ s) = some c := by
  rw [decodeChar?, toByteArray_append]
  exact ByteArray.utf8DecodeChar?_utf8EncodeChar_append

theorem encodeChar_append_inj {d : Char} {t : Bytes}
    (h : String.utf8EncodeChar c ++ s = String.utf8EncodeChar d ++ t) : c = d ∧ s = t := by
  have hchar := (decodeChar?_encodeChar_append c s).symm.trans
    (h ▸ decodeChar?_encodeChar_append d t)
  cases hchar
  exact ⟨rfl, append_cancel_left h⟩

theorem eq_append_of_decodeChar? (h : decodeChar? s = some c) :
    ∃ t, s = String.utf8EncodeChar c ++ t := by
  obtain ⟨t, ht⟩ := ByteArray.exists_of_utf8DecodeChar?_eq_some h
  refine ⟨t.data.toList, ?_⟩
  have hdata := congrArg (fun a => a.data.toList) ht
  simpa using hdata

def firstChar? (s : Bytes) : Option Char := (decodeChar? s).filter fun c => c.val ≠ 0

theorem firstChar?_eq_some :
    firstChar? s = some c ↔ c.val ≠ 0 ∧ ∃ t, s = String.utf8EncodeChar c ++ t := by
  simp only [firstChar?, Option.filter_eq_some_iff, decide_eq_true_eq]
  constructor
  · rintro ⟨hc, hne⟩
    exact ⟨hne, eq_append_of_decodeChar? hc⟩
  · rintro ⟨hne, t, rfl⟩
    exact ⟨decodeChar?_encodeChar_append c t, hne⟩

/-- How `g_utf8_validate()` divides the bytes: into characters, and the rest from the first
byte on that is not valid. -/
def utf8Validate (s : Bytes) : Bytes × Bytes :=
  match _h : firstChar? s with
  | none => ([], s)
  | some c =>
    let r := utf8Validate (s.drop c.utf8Size)
    (s.take c.utf8Size ++ r.1, r.2)
termination_by s.length
decreasing_by
  obtain ⟨-, t, rfl⟩ := firstChar?_eq_some.mp _h
  have hpos := c.utf8Size_pos
  rw [length_drop, length_append, String.length_utf8EncodeChar]
  omega

theorem utf8Validate_of_none (h : firstChar? s = none) : utf8Validate s = ([], s) := by
  rw [utf8Validate]
  split
  · rfl
  · simp_all

theorem utf8Validate_encodeChar_append (hc : c.val ≠ 0) (t : Bytes) :
    utf8Validate (String.utf8EncodeChar c ++ t) =
      (String.utf8EncodeChar c ++ (utf8Validate t).1, (utf8Validate t).2) := by
  have hfirst := firstChar?_eq_some.mpr ⟨hc, t, rfl⟩
  rw [utf8Validate]
  split
  · simp_all
  · rename_i d hd
    obtain rfl : c = d := Option.some.inj (hfirst.symm.trans hd)
    rw [← String.length_utf8EncodeChar, drop_left, take_left]

theorem utf8_induction {P : Bytes → Prop} (invalid : ∀ s, firstChar? s = none → P s)
    (char : ∀ c t, c.val ≠ 0 → P t → P (String.utf8EncodeChar c ++ t)) (s : Bytes) : P s := by
  induction h : s.length using Nat.strong_induction_on generalizing s with
  | _ n ih =>
    cases hfirst : firstChar? s with
    | none => exact invalid s hfirst
    | some c =>
      obtain ⟨hc, t, rfl⟩ := firstChar?_eq_some.mp hfirst
      have hpos := c.utf8Size_pos
      rw [length_append, String.length_utf8EncodeChar] at h
      exact char c t hc (ih t.length (by omega) t rfl)

theorem utf8Validate_append (s : Bytes) : (utf8Validate s).1 ++ (utf8Validate s).2 = s := by
  induction s using utf8_induction with
  | invalid s h => rw [utf8Validate_of_none h]; rfl
  | char c t hc ih => rw [utf8Validate_encodeChar_append hc, append_assoc, ih]

theorem utf8Validate_fst (s : Bytes) :
    ∃ cs : List Char, (utf8Validate s).1 = cs.flatMap String.utf8EncodeChar ∧
      ∀ c ∈ cs, c.val ≠ 0 := by
  induction s using utf8_induction with
  | invalid s h => exact ⟨[], by rw [utf8Validate_of_none h]; rfl, by simp⟩
  | char c t hc ih =>
    obtain ⟨cs, hcs, hne⟩ := ih
    refine ⟨c :: cs, ?_, forall_mem_cons.mpr ⟨hc, hne⟩⟩
    rw [utf8Validate_encodeChar_append hc, hcs, flatMap_cons]

theorem utf8Validate_snd_eq_nil : (utf8Validate s).2 = [] ↔ Utf8 s ∧ NulFree s := by
  constructor
  · intro h
    obtain ⟨cs, hcs, hne⟩ := utf8Validate_fst s
    have hs := utf8Validate_append s
    rw [h, append_nil, hcs] at hs
    subst hs
    refine ⟨⟨cs, rfl⟩, ?_⟩
    simpa [NulFree] using fun c hc => nulFree_encodeChar.mpr (hne c hc)
  · rintro ⟨⟨cs, rfl⟩, hnul⟩
    induction cs with
    | nil =>
      have hnone : firstChar? [] = none := by decide
      rw [flatMap_nil, utf8Validate_of_none hnone]
    | cons c cs ih =>
      rw [flatMap_cons, nulFree_append, nulFree_encodeChar] at hnul
      rw [flatMap_cons, utf8Validate_encodeChar_append hnul.1]
      exact ih hnul.2

/-- `g_utf8_validate()` -/
def isUtf8 (s : Bytes) : Bool := (utf8Validate s).2 = []

theorem isUtf8_iff : isUtf8 s ↔ Utf8 s ∧ NulFree s := by
  rw [isUtf8, decide_eq_true_eq, utf8Validate_snd_eq_nil]

theorem isUtf8_of_ascii (h : ∀ c ∈ s, isNonAscii c = false ∧ c ≠ 0) : isUtf8 s :=
  isUtf8_iff.mpr ⟨utf8_of_ascii fun c hc => (h c hc).1, fun hzero => (h 0 hzero).2 rfl⟩

end NetworkManager.Lib
