import NetworkManager.Lib.Bytes

/-!
# Base64

Three bytes are four digits of six bits each. What is left over at the end is written with fewer
digits, and padded to four characters. The padding is no digit, so the digits tell the bytes.
-/

namespace NetworkManager.Lib

open List

/-- The values of the digits for a byte string. -/
def sextets : Bytes → List ℕ
  | [] => []
  | [a] => [a.toNat / 4, a.toNat % 4 * 16]
  | [a, b] => [a.toNat / 4, a.toNat % 4 * 16 + b.toNat / 16, b.toNat % 16 * 4]
  | a :: b :: c :: s =>
    a.toNat / 4 :: (a.toNat % 4 * 16 + b.toNat / 16) :: (b.toNat % 16 * 4 + c.toNat / 64) ::
      c.toNat % 64 :: sextets s

def base64Alphabet : Bytes :=
  ascii "ABCDEFGHIJKLMNOPQRSTUVWXYZabcdefghijklmnopqrstuvwxyz0123456789+/"

def base64Digit (v : ℕ) : UInt8 := base64Alphabet.getD v 0

def base64Padding (s : Bytes) : Bytes := List.replicate ((3 - s.length % 3) % 3) '='

def base64Encode (s : Bytes) : Bytes := (sextets s).map base64Digit ++ base64Padding s

/-! ## The digits -/

theorem sextets_lt (s : Bytes) : ∀ v ∈ sextets s, v < 64 := by
  induction s using sextets.induct with
  | case1 => simp [sextets]
  | case2 a =>
    have ha := a.toNat_lt
    simp only [sextets, mem_cons, not_mem_nil, or_false]
    omega
  | case3 a b =>
    have ha := a.toNat_lt
    have hb := b.toNat_lt
    simp only [sextets, mem_cons, not_mem_nil, or_false]
    omega
  | case4 a b c s ih =>
    have ha := a.toNat_lt
    have hb := b.toNat_lt
    have hc := c.toNat_lt
    simp only [sextets, mem_cons]
    rintro v (rfl | rfl | rfl | rfl | hv)
    · omega
    · omega
    · omega
    · omega
    · exact ih v hv

theorem sextets_injective : Function.Injective sextets := by
  intro s
  induction s using sextets.induct with
  | case1 =>
    intro t h
    match t with
    | [] => rfl
    | [_] | [_, _] | _ :: _ :: _ :: _ => simp [sextets] at h
  | case2 a =>
    intro t h
    match t with
    | [a'] =>
      simp only [sextets, List.cons.injEq, and_true] at h
      have ha : a = a' := UInt8.toNat_inj.mp (by omega)
      rw [ha]
    | [] | [_, _] | _ :: _ :: _ :: _ => simp [sextets] at h
  | case3 a b =>
    intro t h
    match t with
    | [a', b'] =>
      simp only [sextets, List.cons.injEq, and_true] at h
      have hb := b.toNat_lt
      have hb' := b'.toNat_lt
      have ha : a = a' := UInt8.toNat_inj.mp (by omega)
      have hbb : b = b' := UInt8.toNat_inj.mp (by omega)
      rw [ha, hbb]
    | [] | [_] | _ :: _ :: _ :: _ => simp [sextets] at h
  | case4 a b c s ih =>
    intro t h
    match t with
    | a' :: b' :: c' :: t =>
      simp only [sextets, List.cons.injEq] at h
      obtain ⟨h₁, h₂, h₃, h₄, hrest⟩ := h
      have hb := b.toNat_lt
      have hb' := b'.toNat_lt
      have hc := c.toNat_lt
      have hc' := c'.toNat_lt
      have ha : a = a' := UInt8.toNat_inj.mp (by omega)
      have hbb : b = b' := UInt8.toNat_inj.mp (by omega)
      have hcc : c = c' := UInt8.toNat_inj.mp (by omega)
      rw [ha, hbb, hcc, ih hrest]
    | [] | [_] | [_, _] => simp [sextets] at h

theorem base64Digit_table : ∀ v : Fin 64, base64Alphabet.idxOf (base64Digit v) = v.val ∧
    base64Digit v ≠ '=' ∧ ((isAlnum (base64Digit v) ∧ v.val < 62) ∨
      (base64Digit v = '+' ∧ v.val = 62) ∨ (base64Digit v = '/' ∧ v.val = 63)) := by
  unfold base64Digit base64Alphabet ascii
  rw [String.toList_ofList]
  decide +kernel

theorem idxOf_base64Digit {v : ℕ} (hv : v < 64) : base64Alphabet.idxOf (base64Digit v) = v :=
  (base64Digit_table ⟨v, hv⟩).1

theorem base64Digit_ne_padding {v : ℕ} (hv : v < 64) : base64Digit v ≠ '=' :=
  (base64Digit_table ⟨v, hv⟩).2.1

theorem base64Digit_cases {v : ℕ} (hv : v < 64) :
    (isAlnum (base64Digit v) ∧ v < 62) ∨ (base64Digit v = '+' ∧ v = 62) ∨
      (base64Digit v = '/' ∧ v = 63) :=
  (base64Digit_table ⟨v, hv⟩).2.2

/-! ## The encoding -/

theorem map_idxOf_sextets (s : Bytes) :
    ((sextets s).map base64Digit).map base64Alphabet.idxOf = sextets s := by
  have hvalues : ∀ v ∈ sextets s, (base64Alphabet.idxOf ∘ base64Digit) v = id v := fun v hv =>
    idxOf_base64Digit (sextets_lt s v hv)
  rw [map_map, map_congr_left hvalues, map_id]

theorem takeWhile_base64Encode (s : Bytes) :
    (base64Encode s).takeWhile (fun b : UInt8 => b ≠ '=') = (sextets s).map base64Digit := by
  have hdigits : ∀ b ∈ (sextets s).map base64Digit, decide (b ≠ '=') = true := by
    intro b hb
    obtain ⟨v, hv, rfl⟩ := mem_map.mp hb
    simpa using base64Digit_ne_padding (sextets_lt s v hv)
  have hpadding : (base64Padding s).takeWhile (fun b : UInt8 => b ≠ '=') = [] := by
    simp [base64Padding]
  rw [base64Encode, takeWhile_append_of_pos hdigits, hpadding, append_nil]

theorem base64Encode_injective : Function.Injective base64Encode := by
  intro s t h
  have hdigits : (sextets s).map base64Digit = (sextets t).map base64Digit := by
    rw [← takeWhile_base64Encode, h, takeWhile_base64Encode]
  have hsextets : sextets s = sextets t := by
    rw [← map_idxOf_sextets s, hdigits, map_idxOf_sextets]
  exact sextets_injective hsextets

theorem sextets_length (s : Bytes) :
    (sextets s).length + (3 - s.length % 3) % 3 = 4 * ((s.length + 2) / 3) := by
  induction s using sextets.induct with
  | case1 => simp [sextets]
  | case2 | case3 => simp [sextets]
  | case4 a b c s ih =>
    simp only [sextets, length_cons]
    omega

theorem base64Encode_length (s : Bytes) : (base64Encode s).length = 4 * ((s.length + 2) / 3) := by
  rw [base64Encode, base64Padding, length_append, length_map, length_replicate,
    sextets_length]

theorem padding_mem_base64Encode {s : Bytes} :
    (('=' : Char) : UInt8) ∈ base64Encode s ↔ s.length % 3 ≠ 0 := by
  have hdigits : (('=' : Char) : UInt8) ∉ (sextets s).map base64Digit := by
    intro h
    obtain ⟨v, hv, heq⟩ := mem_map.mp h
    exact base64Digit_ne_padding (sextets_lt s v hv) heq
  rw [base64Encode, mem_append, base64Padding, mem_replicate]
  simp only [hdigits, false_or, and_true]
  omega

end NetworkManager.Lib
