import NetworkManager.GlibAux.AsciiStrToInt64

/-!
# Names of environment variables

`nm_utils_env_var_encode_name()` writes a key with upper case letters, digits and underscores.
What a byte from 128 on is printed as depends on whether the type `char` has a sign.
`nm_utils_env_var_decode_name()` reads such a name.
-/

namespace NetworkManager.GlibAux

open Lib List

/-! ## Encoding -/

def isUpper (ch : UInt8) : Bool := 65 ≤ ch ∧ ch ≤ 90

def isLower (ch : UInt8) : Bool := 97 ≤ ch ∧ ch ≤ 122

/-- The conversion of a `char` to `unsigned`, which extends its sign if it has one. -/
def charToUnsigned (charSigned : Bool) (ch : UInt8) : ℕ :=
  if charSigned ∧ 128 ≤ ch then 2 ^ 32 - 2 ^ 8 + ch.toNat else ch.toNat

/-- The format `"%03o"`. -/
def formatOctal3 (n : ℕ) : Bytes :=
  List.replicate (3 - (digitsText 8 n).length) ('0' : UInt8) ++ digitsText 8 n

/-- What is written for a character. -/
def encodeNameChar (charSigned : Bool) (ch : UInt8) : Bytes :=
  if isDigit ch then [ch]
  else if isLower ch then [ch - 97 + 65]
  else if ch = '.' then ascii "__"
  else if isUpper ch then ['_', ch]
  else ('_' : UInt8) :: formatOctal3 (charToUnsigned charSigned ch)

/-- `nm_utils_env_var_encode_name()`, what is appended to the buffer. -/
def envVarEncodeName (charSigned : Bool) (key : Bytes) : Bytes :=
  key.flatMap (encodeNameChar charSigned)

/-! ## Decoding -/

/-- The character of three octal digits, unless it is one that is written in another way. -/
def decodeOctal (ch ch2 ch3 : UInt8) : Option UInt8 :=
  let v := octalValue ch * 2 ^ 6 + octalValue ch2 * 2 ^ 3 + octalValue ch3
  if v > 255 ∨ v = 0 then none
  else
    let ch := UInt8.ofNat v
    if isUpper ch ∨ isDigit ch ∨ ch = '.' ∨ isLower ch then none else some ch

/-- A round of the loop of `nm_utils_env_var_decode_name()`: the character that is appended, and
what is left of the name. -/
def envVarDecodeChar : Bytes → Option (UInt8 × Bytes)
  | [] => none
  | ch :: name =>
    if isDigit ch then some (ch, name)
    else if isUpper ch then some (ch - 65 + 97, name)
    else if ch = '_' then
      match name with
      | [] => none
      | ch :: name =>
        if ch = '_' then some ('.', name)
        else if isUpper ch then some (ch, name)
        else if isOctal ch then
          match name with
          | ch2 :: ch3 :: name =>
            if isOctal ch2 ∧ isOctal ch3 then (decodeOctal ch ch2 ch3).map fun ch => (ch, name)
            else none
          | _ => none
        else none
    else none

variable {name rest : Bytes} {ch : UInt8}

theorem envVarDecodeChar_length (h : envVarDecodeChar name = some (ch, rest))
    : rest.length < name.length := by
  unfold envVarDecodeChar at h
  repeat' split at h
  all_goals simp only [reduceCtorEq, Option.some.injEq, Prod.mk.injEq, Option.map_eq_some_iff] at h
  · simp [← h.2]
  · simp [← h.2]
  · simp only [← h.2, length_cons]
    omega
  · simp only [← h.2, length_cons]
    omega
  · obtain ⟨-, -, -, rfl⟩ := h
    simp only [length_cons]
    omega

/-- The loop of `nm_utils_env_var_decode_name()`. -/
def envVarDecodeLoop (name : Bytes) : Option Bytes :=
  if name = [] then some []
  else
    match h : envVarDecodeChar name with
    | none => none
    | some (ch, rest) =>
      have := envVarDecodeChar_length h
      (envVarDecodeLoop rest).map (ch :: ·)
  termination_by name.length

/-- `nm_utils_env_var_decode_name()`, what is appended to the buffer. -/
def envVarDecodeName (name : Bytes) : Option Bytes :=
  if name = [] then none else envVarDecodeLoop name

theorem envVarDecodeLoop_nil : envVarDecodeLoop [] = some [] := by
  rw [envVarDecodeLoop, if_pos rfl]

theorem envVarDecodeLoop_of_char (h : envVarDecodeChar name = some (ch, rest)) :
    envVarDecodeLoop name = (envVarDecodeLoop rest).map (ch :: ·) := by
  have hne : name ≠ [] := by
    rintro rfl
    cases h
  rw [envVarDecodeLoop, if_neg hne]
  split
  · next hnone => cases hnone.symm.trans h
  · next hsome =>
    obtain ⟨rfl, rfl⟩ := Prod.mk.inj (Option.some.inj (hsome.symm.trans h))
    rfl

/-! ## What a character is printed as -/

/-- The byte keeps its value where it is converted to `unsigned`. -/
def KeepsValue (charSigned : Bool) (ch : UInt8) : Prop := charSigned → ch < 128

instance (charSigned : Bool) : DecidablePred (KeepsValue charSigned) :=
  fun ch => inferInstanceAs (Decidable (charSigned → ch < 128))

def signedOctalDigits (b : UInt8) : Bytes :=
  ascii "37777777" ++ [octalDigit (b >>> (6 : UInt8)) + 4, octalDigit (b >>> (3 : UInt8)),
    octalDigit b]

theorem octalDigit_toNat : ∀ ch : UInt8, (formatOctal3 ch.toNat = octalDigits ch ∧
    octalValue (octalDigit (ch >>> (6 : UInt8))) * 2 ^ 6 +
      octalValue (octalDigit (ch >>> (3 : UInt8))) * 2 ^ 3 + octalValue (octalDigit ch) =
        ch.toNat) ∧
    ((Nat.digitChar (ch.toNat / 64 + 4)).toUInt8 = octalDigit (ch >>> (6 : UInt8)) + 4 ∧
      isOctal (octalDigit (ch >>> (6 : UInt8)) + 4)) ∧
      (Nat.digitChar (ch.toNat / 8 % 8)).toUInt8 = octalDigit (ch >>> (3 : UInt8)) ∧
      (Nat.digitChar (ch.toNat % 8)).toUInt8 = octalDigit ch := by
  decide +kernel

theorem formatOctal3_signed (h : 128 ≤ ch) :
    formatOctal3 (2 ^ 32 - 2 ^ 8 + ch.toNat) = signedOctalDigits ch := by
  have hge : 128 ≤ ch.toNat := h
  have hlt := ch.toNat_lt
  have hsplit : 2 ^ 32 - 2 ^ 8 + ch.toNat =
      8 * (8 * (8 * (2 ^ 23 - 1) + (ch.toNat / 64 + 4)) + ch.toNat / 8 % 8) + ch.toNat % 8 := by
    omega
  have hones : digitsText 8 (2 ^ 23 - 1) = ascii "37777777" := by
    have hdigits : (2 ^ 23 - 1 : ℕ) = 8 * (8 * (8 * (8 * (8 * (8 * (8 * 3 + 7) + 7) + 7) + 7) + 7)
        + 7) + 7 := by decide
    rw [hdigits]
    repeat rw [digitsText_concat (by decide) (by decide) (by decide)]
    rw [digitsText_of_lt (by decide)]
    rfl
  obtain ⟨⟨hfirst, -⟩, hsecond, hthird⟩ := (octalDigit_toNat ch).2
  rw [hsplit, formatOctal3, digitsText_concat (by decide) (by omega) (by omega),
    digitsText_concat (by decide) (by omega) (by omega),
    digitsText_concat (by decide) (by omega) (by omega), hones, hfirst, hsecond, hthird]
  rfl

theorem formatOctal3_charToUnsigned (charSigned : Bool) (ch : UInt8) :
    formatOctal3 (charToUnsigned charSigned ch) =
      if KeepsValue charSigned ch then octalDigits ch else signedOctalDigits ch := by
  have hkeeps : KeepsValue charSigned ch ↔ ¬ (charSigned ∧ 128 ≤ ch) := by
    rw [KeepsValue, not_and, UInt8.not_le]
  by_cases h : (charSigned : Prop) ∧ 128 ≤ ch
  · rw [charToUnsigned, if_pos h, if_neg (fun hk => hkeeps.mp hk h), formatOctal3_signed h.2]
  · rw [charToUnsigned, if_neg h, if_pos (hkeeps.mpr h), (octalDigit_toNat ch).1.1]

/-! ## The decoder reads what is written without a sign -/

theorem octalValue_lt (h : isOctal ch) : octalValue ch < 8 ∧
    ch.toNat = octalValue ch + 48 := by
  simp only [isOctal, decide_eq_true_eq, UInt8.le_iff_toNat_le, UInt8.reduceToNat] at h
  unfold octalValue
  omega

variable {ch3 ch2 : UInt8}

theorem octalDigits_unique {b : UInt8} (hch : isOctal ch) (hch2 : isOctal ch2) (hch3 : isOctal ch3)
    (h : octalValue ch * 2 ^ 6 + octalValue ch2 * 2 ^ 3 + octalValue ch3 = b.toNat) :
    octalDigits b = [ch, ch2, ch3] := by
  have hsum := (octalDigit_toNat b).1.2
  have hone := octalValue_lt (isOctal_octalDigit (b >>> (6 : UInt8)))
  have htwo := octalValue_lt (isOctal_octalDigit (b >>> (3 : UInt8)))
  have hthree := octalValue_lt (isOctal_octalDigit b)
  have hfirst := octalValue_lt hch
  have hsecond := octalValue_lt hch2
  have hthird := octalValue_lt hch3
  have hone : octalDigit (b >>> (6 : UInt8)) = ch := UInt8.toNat_inj.mp (by omega)
  have htwo : octalDigit (b >>> (3 : UInt8)) = ch2 := UInt8.toNat_inj.mp (by omega)
  have hthree : octalDigit b = ch3 := UInt8.toNat_inj.mp (by omega)
  rw [octalDigits, hone, htwo, hthree]

/-- A character that is written with its octal digits. -/
structure IsEscaped (ch : UInt8) : Prop where
  digit : isDigit ch = false
  lower : isLower ch = false
  dot : ch ≠ '.'
  upper : isUpper ch = false

theorem encodeNameChar_escaped (charSigned : Bool) (h : IsEscaped ch) :
    encodeNameChar charSigned ch = ('_' : UInt8) ::
      if KeepsValue charSigned ch then octalDigits ch else signedOctalDigits ch := by
  simp only [encodeNameChar, h.digit, h.lower, h.dot, h.upper, Bool.false_eq_true, if_false,
    formatOctal3_charToUnsigned]

theorem keepsValue_false (ch : UInt8) : KeepsValue false ch := nofun

theorem encodeNameChar_escaped_false (h : IsEscaped ch) :
    encodeNameChar false ch = ('_' : UInt8) :: octalDigits ch := by
  rw [encodeNameChar_escaped false h, if_pos (keepsValue_false ch)]

theorem decodeOctal_eq_some {b : UInt8} (hch : isOctal ch) (hch2 : isOctal ch2) (hch3 : isOctal ch3) :
    decodeOctal ch ch2 ch3 = some b ↔ b ≠ 0 ∧ IsEscaped b ∧ octalDigits b = [ch, ch2, ch3] := by
  unfold decodeOctal
  constructor
  · intro h
    simp only at h
    split_ifs at h with hrange hplain
    have hb := Option.some.inj h
    simp only [not_or, Bool.not_eq_true] at hplain
    rw [hb] at hplain
    obtain ⟨hupper, hdigit, hdot, hlower⟩ := hplain
    have hvalue : octalValue ch * 2 ^ 6 + octalValue ch2 * 2 ^ 3 + octalValue ch3 = b.toNat := by
      rw [← hb, UInt8.toNat_ofNat']
      omega
    refine ⟨?_, ⟨hdigit, hlower, hdot, hupper⟩, octalDigits_unique hch hch2 hch3 hvalue⟩
    rintro rfl
    exact hrange (.inr hvalue)
  · rintro ⟨hne, hescaped, hdigits⟩
    simp only [octalDigits, List.cons.injEq, and_true] at hdigits
    obtain ⟨rfl, rfl, rfl⟩ := hdigits
    have hlt := b.toNat_lt
    have hpos : b.toNat ≠ 0 := fun h => hne (UInt8.toNat_inj.mp h)
    have hrange : ¬ (b.toNat > 255 ∨ b.toNat = 0) := by omega
    simp only [(octalDigit_toNat b).1.2, if_neg hrange, UInt8.ofNat_toNat, hescaped.digit, hescaped.lower,
      hescaped.dot, hescaped.upper, Bool.false_eq_true, or_self, if_false]

theorem charClasses : ∀ c : UInt8, (isDigit c → c ≠ 0) ∧
    (isOctal c → c ≠ '_' ∧ isUpper c = false) ∧
    (isLower c → isDigit (c - 97 + 65) = false ∧ isUpper (c - 97 + 65)) ∧
    (isUpper c → (c - 65 + 97 ≠ 0 ∧ isDigit (c - 65 + 97) = false ∧ isLower (c - 65 + 97) ∧
      c - 65 + 97 - 97 + 65 = c) ∧
      c ≠ '_' ∧ c ≠ 0 ∧ isDigit c = false ∧ isLower c = false ∧ c ≠ '.') ∧
    (128 ≤ c → isDigit c = false ∧ isLower c = false ∧ c ≠ '.' ∧ isUpper c = false) := by
  decide +kernel

theorem envVarDecodeChar_octal (hch : isOctal ch) (hch2 : isOctal ch2) (hch3 : isOctal ch3)
    (name : Bytes) :
    envVarDecodeChar (('_' : UInt8) :: ch :: ch2 :: ch3 :: name) =
      (decodeOctal ch ch2 ch3).map fun ch => (ch, name) := by
  have hunder : isDigit '_' = false ∧ isUpper '_' = false := by decide
  obtain ⟨hne, hupper⟩ := (charClasses ch).2.1 hch
  simp [envVarDecodeChar, hunder, hne, hupper, hch, hch2, hch3]

theorem envVarDecodeChar_encodeNameChar (hne : ch ≠ 0) (rest : Bytes) :
    envVarDecodeChar (encodeNameChar false ch ++ rest) = some (ch, rest) := by
  have hunder : isDigit '_' = false ∧ isUpper '_' = false := by decide
  by_cases hescaped : IsEscaped ch
  · have hoctal := (decodeOctal_eq_some (isOctal_octalDigit _) (isOctal_octalDigit _)
      (isOctal_octalDigit _)).mpr ⟨hne, hescaped, rfl⟩
    rw [encodeNameChar_escaped_false hescaped]
    exact (envVarDecodeChar_octal (isOctal_octalDigit _) (isOctal_octalDigit _)
      (isOctal_octalDigit _) rest).trans (congrArg (Option.map _) hoctal)
  · rw [encodeNameChar]
    split_ifs with hdigit hlower hdot hupper
    · exact if_pos hdigit
    · obtain ⟨hnot, hup⟩ := (charClasses ch).2.2.1 hlower
      simp [envVarDecodeChar, hnot, hup]
    · rw [hdot]
      rfl
    · simp [envVarDecodeChar, hunder, ((charClasses ch).2.2.2.1 hupper).2.1, hupper]
    · exact absurd ⟨eq_false_of_ne_true hdigit, eq_false_of_ne_true hlower, hdot,
        eq_false_of_ne_true hupper⟩ hescaped

theorem envVarDecodeChar_eq_some :
    envVarDecodeChar name = some (ch, rest) ↔ ch ≠ 0 ∧ name = encodeNameChar false ch ++ rest := by
  constructor
  · intro h
    unfold envVarDecodeChar at h
    repeat' split at h
    all_goals
      simp only [reduceCtorEq, Option.some.injEq, Prod.mk.injEq, Option.map_eq_some_iff] at h
    · next hch =>
      obtain ⟨rfl, rfl⟩ := h
      exact ⟨(charClasses _).1 hch, by rw [encodeNameChar, if_pos hch]; rfl⟩
    · next hch =>
      obtain ⟨rfl, rfl⟩ := h
      obtain ⟨hne, hlower⟩ := ((charClasses _).2.2.2.1 hch).1
      exact ⟨hne, by simp [encodeNameChar, hlower]⟩
    · next hunder _ _ _ hdot =>
      obtain ⟨rfl, rfl⟩ := h
      exact ⟨by decide, by rw [hunder, hdot]; rfl⟩
    · next hunder _ _ _ _ hch =>
      obtain ⟨rfl, rfl⟩ := h
      obtain ⟨-, hne, hplain⟩ := ((charClasses _).2.2.2.1 hch).2
      exact ⟨hne, by simp [encodeNameChar, hunder, hch, hplain]⟩
    · next hunder _ _ _ _ hch _ _ _ _ hoctal =>
      obtain ⟨b, hb, rfl, rfl⟩ := h
      obtain ⟨hne, hescaped, hdigits⟩ := (decodeOctal_eq_some hch hoctal.1 hoctal.2).mp hb
      exact ⟨hne, by rw [encodeNameChar_escaped_false hescaped, hdigits, hunder]; rfl⟩
  · rintro ⟨hne, rfl⟩
    exact envVarDecodeChar_encodeNameChar hne rest

variable {key : Bytes}

theorem envVarDecodeLoop_eq_some :
    envVarDecodeLoop name = some key ↔ NulFree key ∧ name = envVarEncodeName false key := by
  constructor
  · intro h
    induction name using envVarDecodeLoop.induct generalizing key with
    | case1 =>
      rw [envVarDecodeLoop_nil, Option.some.injEq] at h
      exact h ▸ ⟨nulFree_nil, rfl⟩
    | case2 name hne hnone =>
      have hloop : envVarDecodeLoop name = none := by
        rw [envVarDecodeLoop, if_neg hne]
        split
        · rfl
        · next hsome => cases hsome.symm.trans hnone
      cases hloop.symm.trans h
    | case3 name hne ch rest hchar _ ih =>
      rw [envVarDecodeLoop_of_char hchar] at h
      obtain ⟨key, hkey, rfl⟩ := Option.map_eq_some_iff.mp h
      obtain ⟨hnul, rfl⟩ := ih hkey
      obtain ⟨hch, rfl⟩ := envVarDecodeChar_eq_some.mp hchar
      exact ⟨nulFree_cons.mpr ⟨hch, hnul⟩, rfl⟩
  · rintro ⟨hnul, rfl⟩
    induction key with
    | nil => exact envVarDecodeLoop_nil
    | cons ch key ih =>
      obtain ⟨hne, hnul⟩ := nulFree_cons.mp hnul
      have hchar := envVarDecodeChar_encodeNameChar hne (envVarEncodeName false key)
      rw [envVarEncodeName, flatMap_cons]
      exact (envVarDecodeLoop_of_char hchar).trans (congrArg (Option.map (ch :: ·)) (ih hnul))

theorem encodeNameChar_ne_nil (charSigned : Bool) (ch : UInt8) :
    encodeNameChar charSigned ch ≠ [] := by
  unfold encodeNameChar
  split_ifs <;> exact cons_ne_nil _ _

theorem envVarDecodeName_eq_some :
    envVarDecodeName name = some key ↔
      key ≠ [] ∧ NulFree key ∧ name = envVarEncodeName false key := by
  have hempty : ∀ key, envVarEncodeName false key = [] ↔ key = [] := by
    intro key
    rw [envVarEncodeName, flatMap_eq_nil_iff, eq_nil_iff_forall_not_mem]
    exact forall₂_congr fun c _ => iff_of_false (encodeNameChar_ne_nil false c) id
  rw [envVarDecodeName]
  split_ifs with hname
  · refine iff_of_false nofun ?_
    rintro ⟨hne, -, hkey⟩
    exact hne ((hempty key).mp (hkey.symm.trans hname))
  · rw [envVarDecodeLoop_eq_some]
    refine iff_and_self.mpr ?_
    rintro ⟨-, hkey⟩ rfl
    exact hname hkey

/-! ## Both ways to convert a character -/

variable {charSigned : Bool}

theorem isEscaped_of_not_keepsValue (h : ¬ KeepsValue charSigned ch)
    : charSigned ∧ IsEscaped ch := by
  simp only [KeepsValue, not_forall, UInt8.not_lt] at h
  obtain ⟨hsigned, hge⟩ := h
  obtain ⟨hdigit, hlower, hdot, hupper⟩ := (charClasses ch).2.2.2.2 hge
  exact ⟨hsigned, hdigit, hlower, hdot, hupper⟩

theorem encodeNameChar_of_not_keepsValue (h : ¬ KeepsValue charSigned ch) :
    encodeNameChar charSigned ch = ('_' : UInt8) :: signedOctalDigits ch := by
  rw [encodeNameChar_escaped charSigned (isEscaped_of_not_keepsValue h).2, if_neg h]

theorem encodeNameChar_of_keepsValue (h : KeepsValue charSigned ch)
    : encodeNameChar charSigned ch = encodeNameChar false ch := by
  have hchar : charToUnsigned charSigned ch = charToUnsigned false ch := by
    rw [charToUnsigned, if_neg fun hc => UInt8.not_le.mpr (h hc.1) hc.2]
    rfl
  rw [encodeNameChar, hchar]
  rfl

theorem length_encodeNameChar (charSigned : Bool) (ch : UInt8) :
    (encodeNameChar charSigned ch).length =
      (encodeNameChar false ch).length + if KeepsValue charSigned ch then 0 else 8 := by
  by_cases hkeeps : KeepsValue charSigned ch
  · rw [if_pos hkeeps, encodeNameChar_of_keepsValue hkeeps, Nat.add_zero]
  · rw [encodeNameChar_of_not_keepsValue hkeeps,
      encodeNameChar_escaped_false (isEscaped_of_not_keepsValue hkeeps).2, if_neg hkeeps]
    rfl

theorem encodeNameChar_eq_iff (charSigned : Bool) (ch : UInt8) :
    encodeNameChar charSigned ch = encodeNameChar false ch ↔ KeepsValue charSigned ch := by
  constructor
  · intro h
    by_contra hnot
    have hlength := length_encodeNameChar charSigned ch
    rw [h, if_neg hnot] at hlength
    omega
  · exact encodeNameChar_of_keepsValue

theorem envVarEncodeName_eq_iff (charSigned : Bool) (key : Bytes) :
    envVarEncodeName charSigned key = envVarEncodeName false key ↔
      ∀ ch ∈ key, KeepsValue charSigned ch := by
  have hle : ∀ key, (envVarEncodeName false key).length ≤
      (envVarEncodeName charSigned key).length := by
    intro key
    induction key with
    | nil => exact Nat.le_refl _
    | cons ch key ih =>
      have hchar := length_encodeNameChar charSigned ch
      simp only [envVarEncodeName, flatMap_cons, length_append] at ih ⊢
      omega
  induction key with
  | nil => simp [envVarEncodeName]
  | cons ch key ih =>
    refine Iff.trans ?_ ((and_congr (encodeNameChar_eq_iff charSigned ch) ih).trans
      forall_mem_cons.symm)
    constructor
    · intro h
      have hlength := congrArg List.length h
      have hrest := hle key
      have hchar := length_encodeNameChar charSigned ch
      simp only [envVarEncodeName, flatMap_cons, length_append] at h hlength hrest
      exact append_inj h (by omega)
    · rintro ⟨hch, hkey⟩
      simp only [envVarEncodeName, flatMap_cons] at hkey ⊢
      rw [hch, hkey]

theorem not_keepsValue_ones (h : ¬ KeepsValue charSigned ch) :
    ¬ KeepsValue charSigned 255 ∧ ch ≠ 0 := by
  have hones : ¬ (255 : UInt8) < 128 := by decide
  refine ⟨fun hkeeps => hones (hkeeps (isEscaped_of_not_keepsValue h).1), ?_⟩
  rintro rfl
  exact h fun _ => by decide

theorem envVarDecodeChar_signed (charSigned : Bool) (ch : UInt8) (rest : Bytes) :
    (envVarDecodeChar (encodeNameChar charSigned ch ++ rest)).map Prod.fst =
      if ch = 0 then none else some (if KeepsValue charSigned ch then ch else 255) := by
  by_cases hkeeps : KeepsValue charSigned ch
  · rw [(encodeNameChar_eq_iff charSigned ch).mpr hkeeps, if_pos hkeeps]
    split_ifs with hzero
    · rw [hzero]
      rfl
    · rw [envVarDecodeChar_encodeNameChar hzero]
      rfl
  · obtain ⟨-, hne⟩ := not_keepsValue_ones hkeeps
    have hbyte : decodeOctal '3' '7' '7' = some 255 := by decide
    rw [encodeNameChar_of_not_keepsValue hkeeps, if_neg hne, if_neg hkeeps]
    exact congrArg (Option.map Prod.fst) ((envVarDecodeChar_octal (by decide) (by decide)
      (by decide) _).trans (congrArg (Option.map _) hbyte))

theorem octalDigits_injective : Function.Injective octalDigits := by
  intro a b h
  simp only [octalDigits, List.cons.injEq, and_true] at h
  have hsum := (octalDigit_toNat a).1.2
  rw [h.1, h.2.1, h.2.2, (octalDigit_toNat b).1.2] at hsum
  exact UInt8.toNat_inj.mp hsum.symm

theorem signedOctalDigits_injective : Function.Injective signedOctalDigits := by
  intro a b h
  have hdigits := append_cancel_left h
  simp only [List.cons.injEq, and_true, UInt8.add_left_inj] at hdigits
  apply octalDigits_injective
  rw [octalDigits, octalDigits, hdigits.1, hdigits.2.1, hdigits.2.2]

theorem encodeNameChar_append_inj (charSigned : Bool) (a b : UInt8) (r r' : Bytes)
    (h : encodeNameChar charSigned a ++ r = encodeNameChar charSigned b ++ r') :
    a = b ∧ r = r' := by
  have hab : a = b := by
    have hread := congrArg (fun name => (envVarDecodeChar name).map Prod.fst) h
    simp only [envVarDecodeChar_signed] at hread
    by_cases ha : KeepsValue charSigned a <;> by_cases hb : KeepsValue charSigned b
    · simp only [if_pos ha, if_pos hb] at hread
      split_ifs at hread with hazero hbzero hbzero
      · rw [hazero, hbzero]
      · exact Option.some.inj hread
    · obtain ⟨hones, hbzero⟩ := not_keepsValue_ones hb
      simp only [if_pos ha, if_neg hb, if_neg hbzero] at hread
      split_ifs at hread
      exact absurd (Option.some.inj hread ▸ ha) hones
    · obtain ⟨hones, hazero⟩ := not_keepsValue_ones ha
      simp only [if_neg ha, if_pos hb, if_neg hazero] at hread
      split_ifs at hread
      exact absurd ((Option.some.inj hread).symm ▸ hb) hones
    · rw [encodeNameChar_of_not_keepsValue ha, encodeNameChar_of_not_keepsValue hb] at h
      exact signedOctalDigits_injective (append_inj (List.cons.inj h).2 rfl).1
  subst hab
  exact ⟨rfl, append_cancel_left h⟩

theorem envVarEncodeName_injective (charSigned : Bool) :
    Function.Injective (envVarEncodeName charSigned) :=
  flatMap_injective (encodeNameChar_ne_nil charSigned)
    (encodeNameChar_append_inj charSigned)

def isNameChar (c : UInt8) : Bool := isUpper c || isDigit c || c = '_'

theorem isNameChar_envVarEncodeName : ∀ c ∈ envVarEncodeName charSigned key, isNameChar c := by
  have hplain {c : UInt8} (h : isOctal c) : isNameChar c := by
    obtain ⟨hge, hle⟩ := of_decide_eq_true h
    have hdigit : isDigit c := decide_eq_true ⟨hge, UInt8.le_trans hle (by decide)⟩
    rw [isNameChar, hdigit, Bool.or_true, Bool.true_or]
  have hdigit : ∀ b : UInt8, isNameChar (octalDigit b) := fun b => hplain (isOctal_octalDigit b)
  have hfirst : ∀ b : UInt8, isNameChar (octalDigit (b >>> (6 : UInt8)) + 4) :=
    fun b => hplain (octalDigit_toNat b).2.1.2
  have hoctal : ∀ ch : UInt8, ∀ c ∈ octalDigits ch, isNameChar c := by
    intro ch
    simp only [octalDigits, forall_mem_cons, hdigit, not_mem_nil, false_implies,
      implies_true, and_true]
  have hsigned : ∀ ch : UInt8, ∀ c ∈ signedOctalDigits ch, isNameChar c := by
    intro ch
    have hones : ∀ c ∈ ascii "37777777", isNameChar c := by decide
    simp only [signedOctalDigits, forall_mem_append, forall_mem_cons, hdigit, hfirst,
      not_mem_nil, false_implies, implies_true, and_true]
    exact hones
  intro c hc
  obtain ⟨ch, -, hc⟩ := mem_flatMap.mp hc
  unfold encodeNameChar at hc
  split_ifs at hc with hdigit hlower hdot hupper
  · rw [mem_singleton.mp hc, isNameChar, hdigit]
    simp
  · rw [mem_singleton.mp hc, isNameChar, ((charClasses ch).2.2.1 hlower).2]
    rfl
  · have hunder : ∀ c ∈ ascii "__", isNameChar c := by decide
    exact hunder c hc
  · simp only [mem_cons, not_mem_nil, or_false] at hc
    rcases hc with rfl | rfl
    · decide
    · rw [isNameChar, hupper]
      rfl
  · rw [formatOctal3_charToUnsigned] at hc
    rcases mem_cons.mp hc with rfl | hc
    · decide
    · split_ifs at hc
      · exact hoctal ch c hc
      · exact hsigned ch c hc

/-- The name of a key has only letters, digits and underscores, and it is read back exactly if no
character changes its value where it is converted. Then an accepted name is the one that is
written for its key. Names of different keys are different in any case. -/
theorem envVarName_readBack (charSigned : Bool) :
    (∀ key, key ≠ [] → NulFree key →
      (∀ c ∈ envVarEncodeName charSigned key, isNameChar c) ∧
        (envVarDecodeName (envVarEncodeName charSigned key) = some key ↔
          ∀ ch ∈ key, KeepsValue charSigned ch)) ∧
      (∀ name key, envVarDecodeName name = some key →
        (envVarEncodeName charSigned key = name ↔ ∀ ch ∈ key, KeepsValue charSigned ch)) ∧
      Function.Injective (envVarEncodeName charSigned) := by
  refine ⟨fun key hne hnul => ⟨isNameChar_envVarEncodeName, ?_⟩, fun name key h => ?_,
    envVarEncodeName_injective charSigned⟩
  · rw [envVarDecodeName_eq_some, envVarEncodeName_eq_iff]
    exact ⟨fun h => h.2.2, fun h => ⟨hne, hnul, h⟩⟩
  · obtain ⟨-, -, rfl⟩ := envVarDecodeName_eq_some.mp h
    exact envVarEncodeName_eq_iff charSigned key

theorem envVarName_readBack_plain :
    envVarDecodeName (envVarEncodeName true (ascii "my.Key-1")) = some (ascii "my.Key-1") ∧
      envVarEncodeName true (ascii "my.Key-1") = ascii "MY___KEY_0551" :=
  ⟨(((envVarName_readBack true).1 (ascii "my.Key-1") (by decide) (by decide)).2).mpr (by decide),
    by decide⟩

/-- Where `char` has a sign, the name of a byte from 128 on is not read back. -/
theorem envVarName_not_readBack :
    envVarEncodeName true [0x80] = ascii "_37777777600" ∧
      envVarDecodeName (envVarEncodeName true [0x80]) ≠ some [0x80] ∧
      envVarEncodeName true [0x80] ≠ envVarEncodeName false [0x80] := by
  have hnot : ¬ ∀ ch ∈ [(0x80 : UInt8)], KeepsValue true ch := by decide
  refine ⟨?_, ?_, fun h => hnot ((envVarEncodeName_eq_iff true [0x80]).mp h)⟩
  · rw [envVarEncodeName, flatMap_singleton, encodeNameChar_of_not_keepsValue (by decide)]
    decide
  · rw [Ne, envVarDecodeName_eq_some, envVarEncodeName_eq_iff]
    exact fun h => hnot h.2.2

end NetworkManager.GlibAux
