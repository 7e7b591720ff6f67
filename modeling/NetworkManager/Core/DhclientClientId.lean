import NetworkManager.GlibAux.Hwaddr

/-!
# The client identifier of dhclient

`read_client_id()` takes the client identifier from a line of the configuration, where it is a
string literal or a hexadecimal sequence, and `add_ip4_config()` writes such a line. The literal is
decoded in place, with one cursor for what is read and one for what is written.
-/

namespace NetworkManager.Core

open Lib GlibAux List

def clientIdTag : Bytes := ascii "send dhcp-client-identifier"

/-! ## Hexadecimal sequences -/

/-- What is known of the delimiter between the bytes. -/
inductive HexDelimiter
  | unknown
  | chosen
  | absent
  deriving DecidableEq

/-- The loop of `nm_utils_hexstr2bin_full()` with an optional colon as the delimiter. -/
def hexstr2binColon (delimiter : HexDelimiter) : ℕ → Bytes → Option Bytes
  | 0, _ => none
  | room + 1, s =>
    match readHexByte s with
    | none => none
    | some (b, []) =>
      -- without a delimiter, the digits must be pairs
      if delimiter = .absent ∧ s.length = 1 then none else some [b]
    | some (b, d :: s) =>
      if room = 0 then none
      else
        match delimiter with
        | .absent => (hexstr2binColon .absent room (d :: s)).map (b :: ·)
        | .chosen =>
          if d = ':' then (hexstr2binColon .chosen room s).map (b :: ·) else none
        | .unknown =>
          if d = ':' then (hexstr2binColon .chosen room s).map (b :: ·)
          else (hexstr2binColon .absent room (d :: s)).map (b :: ·)

def hexstr2bin (hex : Bytes) : Option Bytes :=
  let hex := if (ascii "0x").isPrefixOf hex then hex.drop 2 else hex
  if hex = [] then none else hexstr2binColon .unknown (hex.length / 2 + 3) hex

/-! ## String literals -/

def charAt (s : Bytes) (k : ℕ) : UInt8 := s.getD k 0

/-- A `char` is `'0'` or more, on a platform where it has a sign or has none. -/
def charGe0 (charSigned : Bool) (c : UInt8) : Bool := 48 ≤ c ∧ ¬ (charSigned ∧ 128 ≤ c)

/-- A `char` is `'7'` or less. -/
def charLe7 (charSigned : Bool) (c : UInt8) : Bool := c ≤ 55 ∨ (charSigned ∧ 128 ≤ c)

def isHexEscape (s : Bytes) (i : ℕ) : Bool :=
  charAt s i = '\\' && charAt s (i + 1) = 'x' && isXdigit (charAt s (i + 2)) &&
    isXdigit (charAt s (i + 3))

/-- An escape sequence with three octal digits. The lower bound of the second and of the third one
is asked of the bytes `1 + 2` and `1 + 3` of the buffer. -/
def isOctalEscape (charSigned : Bool) (s : Bytes) (i : ℕ) : Bool :=
  charAt s i = '\\' && charGe0 charSigned (charAt s (i + 1)) &&
    charLe7 charSigned (charAt s (i + 1)) && charGe0 charSigned (charAt s (1 + 2)) &&
    charLe7 charSigned (charAt s (i + 2)) && charGe0 charSigned (charAt s (1 + 3)) &&
    charLe7 charSigned (charAt s (i + 3))

theorem lt_length_of_charAt {s : Bytes} {i : ℕ} (h : charAt s i ≠ 0) : i < s.length := by
  by_contra hlen
  apply h
  rw [charAt, getD_eq_getElem?_getD, List.getElem?_eq_none (Nat.le_of_not_lt hlen)]
  rfl

/-- The loop of `read_client_id()`: the bytes at `i` and behind are not yet read, and `j` bytes are
written. -/
def decodeLiteral (charSigned : Bool) (s : Bytes) (i j : ℕ) : Bytes :=
  if _hend : charAt s i = 0 then s.take j
  else if isHexEscape s i then
    let v := (xdigitValue (charAt s (i + 2)) <<< 4) + xdigitValue (charAt s (i + 3))
    decodeLiteral charSigned (s.set j v) (i + 4) (j + 1)
  else if isOctalEscape charSigned s i then
    let v := ((charAt s (i + 1) - 48) <<< 6) + ((charAt s (i + 2) - 48) <<< 3) +
      (charAt s (i + 3) - 48)
    decodeLiteral charSigned (s.set j v) (i + 4) (j + 1)
  else decodeLiteral charSigned (s.set j (charAt s i)) (i + 1) (j + 1)
  termination_by s.length - i
  decreasing_by
    all_goals
      have := lt_length_of_charAt _hend
      rw [length_set]
      omega

/-- `read_client_id()` of a line with the tag. -/
def readClientId (charSigned : Bool) (str : Bytes) : Option Bytes :=
  let str := str.drop clientIdTag.length
  if ¬ str.head?.any isSpace then none
  else
    let str := skipSpaces str
    if str.head? = some '"' then
      match splitLast '"' str.tail with
      | none => none
      | some (literal, rest) =>
        let s := literal ++ 0 :: rest
        if charAt s 0 = 0 then none else some (decodeLiteral charSigned s 0 0)
    else
      let s := chomp str
      hexstr2bin (if s.getLast? = some ';' then s.dropLast else s)

/-! ## Writing the line -/

def isLiteralChar (b : UInt8) : Bool := isPrint b && b ≠ '\\' && b ≠ '"'

/-- `%02x` -/
def hexPair (b : UInt8) : Bytes :=
  let digit (v : UInt8) : UInt8 := if v < 10 then '0' + v else 'a' + (v - 10)
  [digit (b >>> (4 : UInt8)), digit (b &&& (15 : UInt8))]

/-- The bytes that the loop of `add_ip4_config()` goes through: all of them if the type is zero and
the rest is printable. -/
def printableLength : Bytes → ℕ
  | [] => 1
  | p :: s => 1 + if p = 0 then (s.takeWhile isLiteralChar).length else 0

/-- The line for the client identifier that `add_ip4_config()` writes. -/
def clientIdLine (clientId : Bytes) : Bytes :=
  let value :=
    if clientId = [] then ascii "\"\""
    else if printableLength clientId < clientId.length then
      ((clientId.map hexPair).intersperse (ascii ":")).flatten
    else ascii "\"\\x00" ++ clientId.drop 1 ++ ascii "\""
  clientIdTag ++ ascii " " ++ value ++ ascii "; # added by NetworkManager"

/-!
## Reading client identifiers back

A string literal of dhclient is read as the bytes that it stands for, as long as every octal
escape sequence finds two digits, or characters above them, at a fixed place of the buffer.
-/

/-! ## Literals -/

/-- What a byte of an identifier can be written as. -/
inductive LiteralItem
  | raw (b : UInt8) (h : isLiteralChar b)
  | hex (d₁ d₂ : UInt8) (h₁ : isXdigit d₁) (h₂ : isXdigit d₂)
  | octal (d₁ d₂ d₃ : UInt8) (h₁ : 48 ≤ d₁ ∧ d₁ ≤ 51) (h₂ : isOctal d₂) (h₃ : isOctal d₃)
  deriving DecidableEq

namespace LiteralItem

def text : LiteralItem → Bytes
  | raw b _ => [b]
  | hex d₁ d₂ _ _ => ['\\', 'x', d₁, d₂]
  | octal d₁ d₂ d₃ _ _ _ => ['\\', d₁, d₂, d₃]

/-- The byte itself. -/
def value : LiteralItem → UInt8
  | raw b _ => b
  | hex d₁ d₂ _ _ => xdigitValue d₁ * 16 + xdigitValue d₂
  | octal d₁ d₂ d₃ _ _ _ =>
    UInt8.ofNat (octalValue d₁ * 64 + octalValue d₂ * 8 + octalValue d₃)

def isOctalItem : LiteralItem → Bool
  | octal .. => true
  | _ => false

end LiteralItem

open LiteralItem

def literalText (items : List LiteralItem) : Bytes := items.flatMap text

/-- `send dhcp-client-identifier "<literal>"`, and what follows. -/
def literalLine (items : List LiteralItem) (rest : Bytes) : Bytes :=
  clientIdTag ++ ascii " \"" ++ literalText items ++ ascii "\"" ++ rest

def literalBuffer (items : List LiteralItem) (j : ℕ) : Bytes :=
  (items.take j).map value ++ (literalText items).drop j

/-- An octal escape sequence for the byte at a position is decoded, as what is then at the third
and the fourth place of the buffer is no less than a digit. -/
def OctalReadable (charSigned : Bool) (items : List LiteralItem) (j : ℕ) : Prop :=
  ∀ item ∈ items[j]?, item.isOctalItem →
    charGe0 charSigned (charAt (literalBuffer items j) 3) ∧
      charGe0 charSigned (charAt (literalBuffer items j) 4)

/-! ## Buffers -/

variable {k : ℕ}

theorem charAt_append_right {s t : Bytes} (h : s.length ≤ k) :
    charAt (s ++ t) k = charAt t (k - s.length) := by
  simp only [charAt, getD_eq_getElem?_getD, List.getElem?_append_right h]

theorem charAt_append_left {s t : Bytes} (h : k < s.length) : charAt (s ++ t) k = charAt s k := by
  simp only [charAt, getD_eq_getElem?_getD, List.getElem?_append_left h]

theorem charAt_drop (s : Bytes) (n k : ℕ) : charAt (s.drop n) k = charAt s (n + k) := by
  simp only [charAt, getD_eq_getElem?_getD, List.getElem?_drop]

theorem charAt_set_ne {s : Bytes} {j : ℕ} (h : j ≠ k) (v : UInt8) :
    charAt (s.set j v) k = charAt s k := by
  simp only [charAt, getD_eq_getElem?_getD, List.getElem?_set_ne h]

/-- What is not yet read of a buffer. -/
def Reads (s : Bytes) (i : ℕ) (t : Bytes) : Prop := ∀ k, charAt s (i + k) = charAt t k

theorem Reads.set {s u t : Bytes} {i j : ℕ} (h : Reads s i (u ++ t)) (hj : j < i + u.length)
    (v : UInt8) : Reads (s.set j v) (i + u.length) t := by
  intro k
  have hk := h (u.length + k)
  rw [charAt_append_right (by omega), Nat.add_sub_cancel_left] at hk
  rw [charAt_set_ne (by omega), Nat.add_assoc, hk]

/-! ## Steps -/

variable {charSigned : Bool} {s t : Bytes} {i j : ℕ} {d₁ d₂ d₃ : UInt8} {rest : Bytes}
  {items todo done : List LiteralItem}

theorem decodeLiteral_copy {b : UInt8} (hb : b ≠ 0) (hback : b ≠ '\\') (h : charAt s i = b) :
    decodeLiteral charSigned s i j = decodeLiteral charSigned (s.set j b) (i + 1) (j + 1) := by
  have hhex : isHexEscape s i = false := by simp [isHexEscape, h, hback]
  have hoctal : isOctalEscape charSigned s i = false := by simp [isOctalEscape, h, hback]
  rw [decodeLiteral, dif_neg (by rwa [h]), hhex, hoctal, h]
  simp

theorem decodeLiteral_hex (h₁ : isXdigit d₁) (h₂ : isXdigit d₂)
    (h : Reads s i ('\\' :: 'x' :: d₁ :: d₂ :: t)) :
    decodeLiteral charSigned s i j =
      decodeLiteral charSigned (s.set j ((xdigitValue d₁ <<< 4) + xdigitValue d₂)) (i + 4)
        (j + 1) := by
  have h0 : charAt s i = '\\' := h 0
  have h1 : charAt s (i + 1) = 'x' := h 1
  have h2 : charAt s (i + 2) = d₁ := h 2
  have h3 : charAt s (i + 3) = d₂ := h 3
  have hhex : isHexEscape s i = true := by simp [isHexEscape, h0, h1, h2, h3, h₁, h₂]
  rw [decodeLiteral, dif_neg (by rw [h0]; decide), if_pos hhex, h2, h3]

theorem charLe7_of_isOctal : ∀ d, isOctal d → ∀ charSigned,
    charLe7 charSigned d ∧ charGe0 charSigned d ∧ d ≠ 0 ∧ d ≠ '\\' ∧ d ≠ 'x' := by decide +kernel

theorem isOctalEscape_eq (h₁ : isOctal d₁) (h₂ : isOctal d₂) (h₃ : isOctal d₃)
    (h : Reads s i ('\\' :: d₁ :: d₂ :: d₃ :: t)) :
    isOctalEscape charSigned s i =
      (charGe0 charSigned (charAt s 3) && charGe0 charSigned (charAt s 4)) := by
  have h0 : charAt s i = '\\' := h 0
  have hd₁ := charLe7_of_isOctal d₁ h₁ charSigned
  have hd₂ := charLe7_of_isOctal d₂ h₂ charSigned
  have hd₃ := charLe7_of_isOctal d₃ h₃ charSigned
  have h1 : charAt s (i + 1) = d₁ := h 1
  have h2 : charAt s (i + 2) = d₂ := h 2
  have h3 : charAt s (i + 3) = d₃ := h 3
  simp [isOctalEscape, h0, h1, h2, h3, hd₁, hd₂, hd₃]

theorem isHexEscape_of_octal (h₁ : isOctal d₁) (h : Reads s i ('\\' :: d₁ :: t)) :
    isHexEscape s i = false := by
  have h1 : charAt s (i + 1) = d₁ := h 1
  have hne := (charLe7_of_isOctal d₁ h₁ true).2.2.2.2
  simp [isHexEscape, h1, hne]

theorem decodeLiteral_octal (h₁ : isOctal d₁) (h₂ : isOctal d₂) (h₃ : isOctal d₃)
    (h : Reads s i ('\\' :: d₁ :: d₂ :: d₃ :: t))
    (hread : charGe0 charSigned (charAt s 3) ∧ charGe0 charSigned (charAt s 4)) :
    decodeLiteral charSigned s i j =
      decodeLiteral charSigned
        (s.set j (((d₁ - 48) <<< 6) + ((d₂ - 48) <<< 3) + (d₃ - 48))) (i + 4) (j + 1) := by
  have h0 : charAt s i = '\\' := h 0
  have h1 : charAt s (i + 1) = d₁ := h 1
  have h2 : charAt s (i + 2) = d₂ := h 2
  have h3 : charAt s (i + 3) = d₃ := h 3
  have hhex := isHexEscape_of_octal h₁ h
  have hoctal : isOctalEscape charSigned s i = true := by
    rw [isOctalEscape_eq h₁ h₂ h₃ h, hread.1, hread.2]
    rfl
  rw [decodeLiteral, dif_neg (by rw [h0]; decide), hhex, hoctal, h1, h2, h3]
  rfl

theorem decodeLiteral_octal_copied (h₁ : isOctal d₁) (h₂ : isOctal d₂) (h₃ : isOctal d₃)
    (hj : j ≤ i) (h : Reads s i ('\\' :: d₁ :: d₂ :: d₃ :: t))
    (hread : ¬ (charGe0 charSigned (charAt s 3) ∧ charGe0 charSigned (charAt s 4))) :
    ∃ s', s'.length = s.length ∧ Reads s' (i + 4) t ∧
      decodeLiteral charSigned s i j = decodeLiteral charSigned s' (i + 4) (j + 4) := by
  have h0 : charAt s i = '\\' := h 0
  have hhex := isHexEscape_of_octal h₁ h
  have hoctal : isOctalEscape charSigned s i = false := by
    rw [isOctalEscape_eq h₁ h₂ h₃ h, Bool.eq_false_iff]
    simpa using hread
  have hd₁ := (charLe7_of_isOctal d₁ h₁ charSigned).2.2
  have hd₂ := (charLe7_of_isOctal d₂ h₂ charSigned).2.2
  have hd₃ := (charLe7_of_isOctal d₃ h₃ charSigned).2.2
  have hr₁ : Reads (s.set j '\\') (i + 1) (d₁ :: d₂ :: d₃ :: t) :=
    Reads.set (u := ['\\']) h (by simp; omega) _
  have hr₂ : Reads ((s.set j '\\').set (j + 1) d₁) (i + 1 + 1) (d₂ :: d₃ :: t) :=
    Reads.set (u := [d₁]) hr₁ (by simp; omega) _
  have hr₃ : Reads (((s.set j '\\').set (j + 1) d₁).set (j + 1 + 1) d₂) (i + 1 + 1 + 1)
      (d₃ :: t) := Reads.set (u := [d₂]) hr₂ (by simp; omega) _
  refine ⟨(((s.set j '\\').set (j + 1) d₁).set (j + 1 + 1) d₂).set (j + 1 + 1 + 1) d₃,
    by simp, Reads.set (u := [d₃]) hr₃ (by simp; omega) _, ?_⟩
  rw [decodeLiteral, dif_neg (by rw [h0]; decide), hhex, hoctal, h0]
  simp only [Bool.false_eq_true, if_false]
  rw [decodeLiteral_copy hd₁.1 hd₁.2.1 (hr₁ 0), decodeLiteral_copy hd₂.1 hd₂.2.1 (hr₂ 0),
    decodeLiteral_copy hd₃.1 hd₃.2.1 (hr₃ 0)]

/-! ## One item -/

theorem isLiteralChar_ne (b : UInt8) (h : isLiteralChar b) : b ≠ 0 ∧ b ≠ '\\' ∧ b ≠ '"' := by
  refine ⟨?_, ?_, ?_⟩
  all_goals
    rintro rfl
    exact absurd h (by decide)

theorem shift_digit : ∀ d : UInt8, xdigitValue d <<< 4 = xdigitValue d * 16 ∧
    d <<< 6 = d * 64 ∧ d <<< 3 = d * 8 ∧ (48 ≤ d → UInt8.ofNat (octalValue d) = d - 48) := by
  decide +kernel

theorem octal_value (h₁ : isOctal d₁) (h₂ : isOctal d₂) (h₃ : isOctal d₃) :
    ((d₁ - 48) <<< 6) + ((d₂ - 48) <<< 3) + (d₃ - 48) =
      UInt8.ofNat (octalValue d₁ * 64 + octalValue d₂ * 8 + octalValue d₃) := by
  rw [UInt8.ofNat_add, UInt8.ofNat_add, UInt8.ofNat_mul, UInt8.ofNat_mul,
    (shift_digit d₁).2.2.2 (of_decide_eq_true h₁).1,
    (shift_digit d₂).2.2.2 (of_decide_eq_true h₂).1,
    (shift_digit d₃).2.2.2 (of_decide_eq_true h₃).1,
    (shift_digit _).2.1, (shift_digit (d₂ - 48)).2.2.1]
  rfl

theorem isOctal_of_first (d : UInt8) (h : 48 ≤ d ∧ d ≤ 51) : isOctal d :=
  decide_eq_true ⟨h.1, UInt8.le_trans h.2 (by decide)⟩

theorem decodeLiteral_item (item : LiteralItem) (h : Reads s i (item.text ++ t))
    (hread : item.isOctalItem →
      charGe0 charSigned (charAt s 3) ∧ charGe0 charSigned (charAt s 4)) :
    decodeLiteral charSigned s i j =
      decodeLiteral charSigned (s.set j item.value) (i + item.text.length) (j + 1) := by
  cases item with
  | raw b hb =>
    obtain ⟨hzero, hback, -⟩ := isLiteralChar_ne b hb
    exact decodeLiteral_copy hzero hback (h 0)
  | hex d₁ d₂ h₁ h₂ =>
    rw [decodeLiteral_hex h₁ h₂ h, (shift_digit _).1]
    rfl
  | octal d₁ d₂ d₃ h₁ h₂ h₃ =>
    have ho₁ := isOctal_of_first d₁ h₁
    rw [decodeLiteral_octal ho₁ h₂ h₃ h (hread rfl), octal_value ho₁ h₂ h₃]
    rfl

theorem text_ne_zero (item : LiteralItem) (h : Reads s i (item.text ++ t)) : charAt s i ≠ 0 := by
  have h0 := h 0
  rw [Nat.add_zero] at h0
  rw [h0]
  cases item with
  | raw b hb => exact (isLiteralChar_ne b hb).1
  | hex => exact fun heq => absurd heq (by decide : ('\\' : UInt8) ≠ 0)
  | octal => exact fun heq => absurd heq (by decide : ('\\' : UInt8) ≠ 0)

theorem le_length_decodeLiteral (items : List LiteralItem)
    (h : Reads s i (literalText items ++ 0 :: rest)) (hj : j ≤ i) (hlen : j ≤ s.length) :
    j + items.length ≤ (decodeLiteral charSigned s i j).length := by
  induction items generalizing s i j with
  | nil =>
    have hend : charAt s i = 0 := h 0
    rw [decodeLiteral, dif_pos hend, length_take, length_nil, Nat.add_zero]
    exact le_min (Nat.le_refl j) hlen
  | cons item items ih =>
    rw [literalText, flatMap_cons, append_assoc] at h
    have hlt := lt_length_of_charAt (text_ne_zero item h)
    have htext : 0 < item.text.length := by cases item <;> simp [text]
    rw [length_cons]
    by_cases hread : item.isOctalItem →
        charGe0 charSigned (charAt s 3) ∧ charGe0 charSigned (charAt s 4)
    · have hnext := h.set (j := j) (by omega) item.value
      have hrest := ih hnext (j := j + 1) (by omega) (by rw [length_set]; omega)
      rw [decodeLiteral_item item h hread]
      omega
    · cases item with
      | raw b hb => exact absurd (fun ho => by simp [isOctalItem] at ho) hread
      | hex d₁ d₂ h₁ h₂ => exact absurd (fun ho => by simp [isOctalItem] at ho) hread
      | octal d₁ d₂ d₃ h₁ h₂ h₃ =>
        have hno : ¬ (charGe0 charSigned (charAt s 3) ∧ charGe0 charSigned (charAt s 4)) :=
          fun hyes => hread fun _ => hyes
        obtain ⟨s', hs', hnext, heq⟩ :=
          decodeLiteral_octal_copied (isOctal_of_first d₁ h₁) h₂ h₃ hj h hno
        rw [heq]
        have hrest := ih hnext (j := j + 4) (by omega) (by
          have h3 : charAt s (i + 3) ≠ 0 := by
            rw [show charAt s (i + 3) = d₃ from h 3]
            exact (charLe7_of_isOctal d₃ h₃ true).2.2.1
          have := lt_length_of_charAt h3
          omega)
        omega

/-! ## All items -/

theorem charAt_append_zero (h : k ≤ t.length) (rest : Bytes) :
    charAt (t ++ 0 :: rest) k = charAt t k := by
  rcases Nat.lt_or_eq_of_le h with hlt | rfl
  · exact charAt_append_left hlt
  · rw [charAt_append_right (Nat.le_refl _), Nat.sub_self, charAt, charAt,
      getD_eq_getElem?_getD, getD_eq_getElem?_getD,
      List.getElem?_eq_none (Nat.le_refl _)]
    rfl

theorem set_append_drop {a b : Bytes} (hb : a.length < b.length) (v : UInt8) :
    (a ++ b.drop a.length).set a.length v = (a ++ [v]) ++ b.drop (a.length + 1) := by
  rw [set_append_right _ _ (Nat.le_refl _), Nat.sub_self, drop_eq_getElem_cons hb,
    set_cons_zero, append_assoc]
  rfl

theorem length_le_literalText (items : List LiteralItem) :
    items.length ≤ (literalText items).length := by
  induction items with
  | nil => exact Nat.zero_le _
  | cons item items ih =>
    have htext : 0 < item.text.length := by cases item <;> simp [text]
    rw [literalText, flatMap_cons, length_append, length_cons]
    unfold literalText at ih
    omega

theorem reads_of_decoded (hitems : items = done ++ todo)
    (hs : s = done.map value ++ (literalText items ++ 0 :: rest).drop done.length) :
    Reads s (literalText done).length (literalText todo ++ 0 :: rest) := by
  intro k
  have hle := length_le_literalText done
  have htext : literalText items ++ 0 :: rest =
      literalText done ++ (literalText todo ++ 0 :: rest) := by
    rw [hitems, literalText, flatMap_append, append_assoc]
    rfl
  rw [hs, charAt_append_right (by rw [length_map]; omega), length_map, charAt_drop,
    htext, charAt_append_right (by omega)]
  congr 1
  omega

theorem charAt_literalBuffer {item : LiteralItem} (hitems : items = done ++ item :: todo)
    (hitem : item.isOctalItem)
    (hs : s = done.map value ++ (literalText items ++ 0 :: rest).drop done.length) (hk : k ≤ 4)
    : charAt (literalBuffer items done.length) k = charAt s k := by
  have hlen : 4 ≤ (literalText items).length := by
    have htext : item.text.length = 4 := by
      cases item with
      | raw => simp [isOctalItem] at hitem
      | hex => simp [isOctalItem] at hitem
      | octal => rfl
    rw [hitems, literalText, flatMap_append, flatMap_cons, length_append,
      length_append]
    omega
  have htake : items.take done.length = done := by
    rw [hitems, take_left]
  rw [literalBuffer, htake, hs]
  rcases Nat.lt_or_ge k (done.map value).length with hlt | hge
  · rw [charAt_append_left hlt, charAt_append_left hlt]
  · rw [charAt_append_right hge, charAt_append_right hge, charAt_drop, charAt_drop,
      charAt_append_zero]
    rw [length_map] at hge ⊢
    omega

/-- A literal is read as its bytes exactly if every octal escape sequence is decoded. The induction
is on what is not yet read; the buffer is known as long as everything before was decoded. -/
theorem decodeLiteral_iff (items done todo : List LiteralItem) (hitems : items = done ++ todo)
    (hs : s = done.map value ++ (literalText items ++ 0 :: rest).drop done.length) :
    decodeLiteral charSigned s (literalText done).length done.length = items.map value ↔
      ∀ j, done.length ≤ j → OctalReadable charSigned items j := by
  have hreads := reads_of_decoded hitems hs
  have hle := length_le_literalText done
  induction todo generalizing done s with
  | nil =>
    have hend : charAt s (literalText done).length = 0 := hreads 0
    rw [append_nil] at hitems
    subst hitems
    rw [decodeLiteral, dif_pos hend, hs]
    refine iff_of_true ?_ fun j hj item hitem => ?_
    · rw [take_left' (length_map _)]
    · rw [List.getElem?_eq_none hj] at hitem
      cases hitem
  | cons item todo ih =>
    have hreads' : Reads s (literalText done).length
        (item.text ++ (literalText todo ++ 0 :: rest)) := by
      rw [← append_assoc]
      exact hreads
    have hsize : done.length < (literalText items ++ 0 :: rest).length := by
      have hlen := length_le_literalText items
      rw [hitems, length_append, length_cons] at hlen
      rw [hitems, length_append]
      omega
    have hat : items[done.length]? = some item := by
      rw [hitems, List.getElem?_append_right (Nat.le_refl _), Nat.sub_self]
      rfl
    have hplaces : OctalReadable charSigned items done.length ↔ (item.isOctalItem →
        charGe0 charSigned (charAt s 3) ∧ charGe0 charSigned (charAt s 4)) := by
      unfold OctalReadable
      rw [hat]
      simp only [Option.mem_some_iff, forall_eq']
      refine forall_congr' fun hoctal => ?_
      rw [charAt_literalBuffer hitems hoctal hs (by decide),
        charAt_literalBuffer hitems hoctal hs (by decide)]
    by_cases hread : OctalReadable charSigned items done.length
    · have hset : s.set done.length item.value = (done ++ [item]).map value ++
          (literalText items ++ 0 :: rest).drop (done ++ [item]).length := by
        have happend := set_append_drop (a := done.map value)
          (b := literalText items ++ 0 :: rest) (by rwa [length_map]) item.value
        rw [length_map] at happend
        rw [hs, happend]
        simp
      have htext : (literalText (done ++ [item])).length =
          (literalText done).length + item.text.length := by
        simp [literalText]
      have hitems' : items = (done ++ [item]) ++ todo := by
        rw [hitems, append_assoc]
        rfl
      have hnext := ih (done ++ [item]) hitems' hset (reads_of_decoded hitems' hset)
        (length_le_literalText _)
      rw [htext, length_append, length_singleton] at hnext
      rw [decodeLiteral_item item hreads' (hplaces.mp hread)]
      refine hnext.trans ⟨fun h j hj => ?_, fun h j hj => h j (by omega)⟩
      rcases Nat.lt_or_eq_of_le hj with hlt | rfl
      · exact h j hlt
      · exact hread
    · refine iff_of_false ?_ fun h => hread (h _ (Nat.le_refl _))
      rw [hplaces, Classical.not_imp] at hread
      obtain ⟨hoctal, hno⟩ := hread
      cases item with
      | raw => simp [isOctalItem] at hoctal
      | hex => simp [isOctalItem] at hoctal
      | octal d₁ d₂ d₃ h₁ h₂ h₃ =>
        obtain ⟨s', hs', hnext, heq⟩ :=
          decodeLiteral_octal_copied (isOctal_of_first d₁ h₁) h₂ h₃ hle hreads' hno
        have h3 : charAt s ((literalText done).length + 3) ≠ 0 := by
          rw [show charAt s ((literalText done).length + 3) = d₃ from hreads' 3]
          exact (charLe7_of_isOctal d₃ h₃ true).2.2.1
        have hlt := lt_length_of_charAt h3
        have hlong : done.length + 4 + todo.length ≤ (decodeLiteral charSigned s'
            ((literalText done).length + 4) (done.length + 4)).length :=
          le_length_decodeLiteral todo hnext (by omega) (by omega)
        intro hsame
        rw [← heq, hsame, hitems, length_map, length_append, length_cons] at hlong
        omega

/-! ## Lines -/

theorem charAt_literalText_zero (item : LiteralItem) (items : List LiteralItem) (t : Bytes) :
    charAt (literalText (item :: items) ++ t) 0 ≠ 0 := by
  apply text_ne_zero item
  rw [literalText, flatMap_cons, append_assoc]
  intro k
  rw [Nat.zero_add]

theorem readClientId_literalLine (item : LiteralItem) (items : List LiteralItem)
    (hrest : ('"' : UInt8) ∉ rest) :
    readClientId charSigned (literalLine (item :: items) rest) =
      some (decodeLiteral charSigned (literalText (item :: items) ++ 0 :: rest) 0 0) := by
  have hdrop : (literalLine (item :: items) rest).drop clientIdTag.length =
      32 :: 34 :: (literalText (item :: items) ++ 34 :: rest) := by
    rw [literalLine, append_assoc, append_assoc, append_assoc, drop_left]
    rfl
  have hskip : skipSpaces (32 :: 34 :: (literalText (item :: items) ++ 34 :: rest)) =
      34 :: (literalText (item :: items) ++ 34 :: rest) := rfl
  have hsplit := splitLast_append (x := literalText (item :: items)) hrest
  have hfirst := charAt_literalText_zero item items (0 :: rest)
  unfold readClientId
  rw [hdrop]
  simp only [hskip]
  rw [if_neg (by simp; decide), List.head?_cons, if_pos (by decide), tail_cons]
  rw [show splitLast '"' (literalText (item :: items) ++ 34 :: rest) =
    some (literalText (item :: items), rest) from hsplit]
  exact if_neg hfirst

theorem clientIdLine_eq {chars : Bytes} (hchars : ∀ b ∈ chars, isLiteralChar b) :
    ∃ items : List LiteralItem, items.map value = chars ∧ (∀ item ∈ items, ¬ item.isOctalItem) ∧
      clientIdLine (0 :: chars) =
        literalLine (.hex '0' '0' (by decide) (by decide) :: items)
          (ascii "; # added by NetworkManager") := by
  have htext : ∃ items : List LiteralItem, items.map value = chars ∧
      (∀ item ∈ items, ¬ item.isOctalItem) ∧ literalText items = chars := by
    induction chars with
    | nil => exact ⟨[], rfl, forall_mem_nil _, rfl⟩
    | cons b chars ih =>
      rw [forall_mem_cons] at hchars
      obtain ⟨items, hvalue, hoctal, htext⟩ := ih hchars.2
      refine ⟨.raw b hchars.1 :: items, ?_, ?_, ?_⟩
      · rw [map_cons, hvalue]
        rfl
      · rw [forall_mem_cons]
        exact ⟨by simp [isOctalItem], hoctal⟩
      · rw [literalText, flatMap_cons]
        exact congrArg (b :: ·) htext
  obtain ⟨items, hvalue, hoctal, htext⟩ := htext
  refine ⟨items, hvalue, hoctal, ?_⟩
  have hall : chars.takeWhile isLiteralChar = chars :=
    takeWhile_eq_self_iff.mpr hchars
  have hlength : ¬ printableLength (0 :: chars) < (0 :: chars).length := by
    rw [printableLength, if_pos rfl, hall, length_cons]
    omega
  have hliteral : literalText (.hex '0' '0' (by decide) (by decide) :: items) =
      ascii "\\x00" ++ chars := by
    rw [literalText, flatMap_cons, ← htext]
    rfl
  unfold clientIdLine
  rw [if_neg (cons_ne_nil _ _), if_neg hlength, literalLine, hliteral]
  simp [ascii]

theorem decodeLiteral_literal_iff (charSigned : Bool) (items : List LiteralItem) (rest : Bytes) :
    decodeLiteral charSigned (literalText items ++ 0 :: rest) 0 0 = items.map value ↔
      ∀ j, OctalReadable charSigned items j := by
  have hiff : decodeLiteral charSigned (literalText items ++ 0 :: rest) 0 0 = items.map value ↔
      ∀ j, 0 ≤ j → OctalReadable charSigned items j := decodeLiteral_iff items [] items rfl rfl
  exact hiff.trans ⟨fun h j => h j (Nat.zero_le j), fun h j _ => h j⟩

/-- A literal is read as the bytes that it stands for exactly if all its octal escape sequences
are decoded, and the lines that are written for printable identifiers always are. -/
theorem readClientId_literal_iff (charSigned : Bool) (item : LiteralItem)
    (items : List LiteralItem) :
    (readClientId charSigned (literalLine (item :: items) (ascii ";")) =
        some ((item :: items).map value) ↔
      ∀ j, OctalReadable charSigned (item :: items) j) ∧
      ∀ chars : Bytes, (∀ b ∈ chars, isLiteralChar b) →
        readClientId charSigned (clientIdLine (0 :: chars)) = some (0 :: chars) := by
  constructor
  · rw [readClientId_literalLine item items (by decide), Option.some.injEq]
    exact decodeLiteral_literal_iff charSigned (item :: items) (ascii ";")
  · intro chars hchars
    obtain ⟨items, hvalue, hoctal, hline⟩ := clientIdLine_eq hchars
    generalize hfirst : LiteralItem.hex '0' '0' (by decide) (by decide) = first at hline
    have hvalues : (first :: items).map value = 0 :: chars := by
      rw [map_cons, hvalue, ← hfirst]
      rfl
    rw [hline, readClientId_literalLine first items (by decide), Option.some.injEq, ← hvalues]
    refine (decodeLiteral_literal_iff charSigned (first :: items) _).mpr fun j x hx hxo => ?_
    rcases mem_cons.mp (mem_of_getElem? hx) with rfl | hmem
    · rw [← hfirst] at hxo
      cases hxo
    · exact absurd hxo (hoctal x hmem)

/-- The letter `A` as an octal escape sequence, which is the whole literal. -/
def octalLetter : LiteralItem := .octal '1' '0' '1' (by decide) (by decide) (by decide)

/-- It is not decoded: behind its digits, the buffer ends. -/
theorem octalLetter_not_read :
    ¬ ∀ (item : LiteralItem) (items : List LiteralItem),
      readClientId true (literalLine (item :: items) (ascii ";")) =
        some ((item :: items).map value) := by
  intro h
  have hread := h octalLetter []
  rw [readClientId_literalLine octalLetter [] (by decide), Option.some.injEq,
    decodeLiteral_literal_iff] at hread
  exact absurd (hread 0 octalLetter rfl rfl).2 (by decide)

end NetworkManager.Core
