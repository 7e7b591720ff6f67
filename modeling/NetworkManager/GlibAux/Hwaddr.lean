import NetworkManager.Lib.Utf8

/-!
# Hardware addresses as text

A hardware address is read with one or two digits for each byte, and always the same delimiter,
and printed with two upper case digits and colons.
-/

namespace NetworkManager.GlibAux

open Lib

/-- The byte at the start, with a leading zero if there is one digit only. -/
def readHexByte : Bytes → Option (UInt8 × Bytes)
  | [] => none
  | [d₁] => (hexcharToInt d₁).map fun i₁ => (i₁, [])
  | d₁ :: d₂ :: s =>
    match hexcharToInt d₁, hexcharToInt d₂ with
    | none, _ => none
    | some i₁, some i₂ => some ((i₁ <<< 4) + i₂, s)
    | some i₁, none => some (i₁, d₂ :: s)

/-- The loop of `nm_utils_hexstr2bin_full()` with a required delimiter, into a buffer that has
room for so many more bytes. -/
def hexstr2binLoop (delimiter : Option UInt8) : ℕ → Bytes → Option Bytes
  | 0, _ => none
  | room + 1, s =>
    match readHexByte s with
    | none => none
    | some (b, []) => some [b]
    | some (b, d :: s) =>
      if delimiter = some d ∨ (delimiter = none ∧ (d = ':' ∨ d = '-')) then
        (hexstr2binLoop (some d) room s).map (b :: ·)
      else none

def hwaddrLenMax : ℕ := 20

/-- `_nm_utils_hwaddr_aton()` into a buffer of that length. -/
def hwaddrAton (asc : Bytes) : Option Bytes := hexstr2binLoop none hwaddrLenMax asc

/-- `nm_utils_bin2hexstr_fuller()` in upper case. -/
def hwaddrNtoa : Bytes → Bytes
  | [] => []
  | [v] => [hexchar (v >>> (4 : UInt8)) true, hexchar v true]
  | v :: w :: addr =>
    hexchar (v >>> (4 : UInt8)) true :: hexchar v true :: (':' : UInt8) :: hwaddrNtoa (w :: addr)

/-- `nm_utils_hwaddr_canonical()` for any length. -/
def hwaddrCanonical (asc : Bytes) : Option Bytes := (hwaddrAton asc).map hwaddrNtoa

/-! ## The text -/

def isPlain (c : UInt8) : Bool := !isNonAscii c && !isSpace c && c ≠ 0

theorem isPlain_hexchar : ∀ v : UInt8, isPlain (hexchar v true) := by decide +kernel

theorem isPlain_hwaddrNtoa (addr : Bytes) : ∀ c ∈ hwaddrNtoa addr, isPlain c := by
  induction addr with
  | nil => simp [hwaddrNtoa]
  | cons v addr ih =>
    have hhi := isPlain_hexchar (v >>> (4 : UInt8))
    have hlo := isPlain_hexchar v
    cases addr with
    | nil => simp [hwaddrNtoa, hhi, hlo]
    | cons w addr =>
      have hcolon : isPlain ':' := by decide
      intro c hc
      rw [hwaddrNtoa] at hc
      rcases List.mem_cons.mp hc with rfl | hc
      · exact hhi
      rcases List.mem_cons.mp hc with rfl | hc
      · exact hlo
      rcases List.mem_cons.mp hc with rfl | hc
      · exact hcolon
      · exact ih c hc

theorem isPlain_hwaddrCanonical {asc canonical : Bytes} (h : hwaddrCanonical asc = some canonical) :
    ∀ c ∈ canonical, isPlain c := by
  obtain ⟨addr, -, rfl⟩ := Option.map_eq_some_iff.mp h
  exact isPlain_hwaddrNtoa addr

theorem isUtf8_of_plain {s : Bytes} (h : ∀ c ∈ s, isPlain c) : isUtf8 s := by
  have hc : ∀ c ∈ s, isNonAscii c = false ∧ c ≠ 0 := by
    intro c hc
    have hplain := h c hc
    simp only [isPlain, Bool.and_eq_true, Bool.not_eq_true', decide_eq_true_eq] at hplain
    exact ⟨hplain.1.1, hplain.2⟩
  exact isUtf8_of_ascii hc

end NetworkManager.GlibAux
