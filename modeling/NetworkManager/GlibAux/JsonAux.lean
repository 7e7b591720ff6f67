import NetworkManager.Lib.Utf8

/-!
# JSON string literals

`nm_json_gstr_append_string_len()` writes bytes as a string literal of JSON. After some valid
characters it steps backwards to go on, and bytes above 127 are escaped as negative numbers.
-/

namespace NetworkManager.GlibAux

open Lib List

/-! ## Reading string literals -/

/-- A hexadecimal digit of RFC 8259. -/
def hexDigit? (c : UInt8) : Option ℕ := (hexcharToInt c).map UInt8.toNat

/-- The four digits after `\u`. -/
def codeUnit? (a b c d : UInt8) : Option ℕ := do
  return (((← hexDigit? a) * 16 + (← hexDigit? b)) * 16 + (← hexDigit? c)) * 16 + (← hexDigit? d)

/-- The character after a backslash. -/
def shortEscape? (c : UInt8) : Option UInt8 :=
  if c = 34 ∨ c = 92 ∨ c = 47 then some c
  else if c = 98 then some 8
  else if c = 102 then some 12
  else if c = 110 then some 10
  else if c = 114 then some 13
  else if c = 116 then some 9
  else none

/-- The characters up to the closing quotation mark, as the string that they denote. A surrogate
without the other one denotes nothing. -/
def jsonChars? : Bytes → Option Bytes
  | [] => none
  | [c] => if c = 34 then some [] else none
  | 92 :: 117 :: a :: b :: c :: d :: s =>
    match codeUnit? a b c d with
    | none => none
    | some u =>
      if u < 0xd800 ∨ 0xe000 ≤ u then
        (jsonChars? s).map (String.utf8EncodeChar (Char.ofNat u) ++ ·)
      else
        match s with
        | 92 :: 117 :: a' :: b' :: c' :: d' :: s =>
          match codeUnit? a' b' c' d' with
          | none => none
          | some l =>
            if u < 0xdc00 ∧ 0xdc00 ≤ l ∧ l < 0xe000 then
              (jsonChars? s).map
                (String.utf8EncodeChar (Char.ofNat (0x10000 + (u - 0xd800) * 0x400 + (l - 0xdc00))) ++ ·)
            else none
        | _ => none
  | c :: e :: s =>
    if c = 92 then
      match shortEscape? e with
      | none => none
      | some b => (jsonChars? s).map (b :: ·)
    else if c < 32 ∨ c = 34 then none
    else (jsonChars? (e :: s)).map (c :: ·)

def jsonString? : Bytes → Option Bytes
  | [] => none
  | c :: s => if c = 34 ∧ isUtf8 s then jsonChars? s else none

/-! ## Writing string literals -/

/-- A digit of `%X`. -/
def upperHex (v : ℕ) : UInt8 := hexchar v.toUInt8 true

/-- `%04X` -/
def formatX4 (v : ℕ) : Bytes :=
  let digits := [7, 6, 5, 4, 3, 2, 1, 0].map fun i => upperHex (v / 16 ^ i % 16)
  (digits.take 4).dropWhile (· = 48) ++ digits.drop 4

/-- What is written for a valid `s[0]`, which is a signed `char`. -/
def appendChar (b : UInt8) : Bytes :=
  if b.toInt8 < 0x20 then
    if b = 8 then ascii "\\b"
    else if b = 12 then ascii "\\f"
    else if b = 10 then ascii "\\n"
    else if b = 13 then ascii "\\r"
    else if b = 9 then ascii "\\t"
    else ascii "\\u" ++ formatX4 (b.toInt8.toInt % 2 ^ 32).toNat
  else if b = 92 ∨ b = 34 then [92, b]
  else [b]

def appendInvalid (b : UInt8) : Bytes := if b = 0 then ascii "\\u0000" else ascii "_"

/-- Reading `len` bytes at an offset; `none` if they are not all given. -/
def readBytes (input : Bytes) (str len : ℤ) : Option Bytes :=
  if 0 ≤ str ∧ str + len ≤ input.length then some ((input.drop str.toNat).take len.toNat) else none

/-- The loop of `_gstr_append_string_len()`, with `str` as offset. It fails if it does not end in
that number of turns or if it reads other bytes. -/
def appendLoop (input : Bytes) : ℕ → Bytes → ℤ → ℤ → Option Bytes
  | 0, _, _, _ => none
  | fuel + 1, gstr, str, len =>
    if len ≤ 0 then some gstr
    else
      match readBytes input str len with
      | none => none
      | some s =>
        let (valid, rest) := utf8Validate s
        let gstr := gstr ++ valid.flatMap appendChar
        match rest with
        | [] => some gstr
        | b :: _ =>
          -- `str - end` wraps around, and so does adding it to `str`: that steps back
          let n : ℤ := -valid.length + 1
          appendLoop input fuel (gstr ++ appendInvalid b) (str + n) (len - n)

def jsonGstrAppendStringLen (fuel : ℕ) (gstr str : Bytes) : Option Bytes :=
  (appendLoop str fuel (gstr ++ [34]) 0 str.length).map (· ++ [34])

/-! ## What is to be denoted -/

/-- The bytes with every one at which validation stops replaced, other than NUL. -/
def replaceInvalid (s : Bytes) : Bytes :=
  match _h : (utf8Validate s).2 with
  | [] => s
  | b :: rest => (utf8Validate s).1 ++ (if b = 0 then b else 95) :: replaceInvalid rest
termination_by s.length
decreasing_by
  have hlen := congrArg List.length (utf8Validate_append s)
  rw [length_append, _h, length_cons] at hlen
  omega

/-- Validation stops at once at some bytes, one after the other, and the others are ASCII without
NUL. -/
def StopsThenAscii : Bytes → Prop
  | [] => True
  | b :: s =>
    (∀ c ∈ b :: s, isNonAscii c = false ∧ c ≠ 0) ∨
      (utf8Validate (b :: s)).1 = [] ∧ StopsThenAscii s

/-! ## What is written, read again -/

section Reading

variable {a b c d e : UInt8} {u : ℕ} {s : Bytes}

theorem jsonChars?_plain (h92 : c ≠ 92) (h32 : ¬c < 32) (h34 : c ≠ 34) :
    jsonChars? (c :: s) = (jsonChars? s).map (c :: ·) := by
  cases s with
  | nil => simp [jsonChars?, h34]
  | cons e s =>
    rw [jsonChars?]
    · simp [h92, h32, h34]
    · intro a b c d s hc
      exact absurd hc h92

theorem jsonChars?_shortEscape (he : e ≠ 117) (h : shortEscape? e = some b) :
    jsonChars? (92 :: e :: s) = (jsonChars? s).map (b :: ·) := by
  rw [jsonChars?]
  · simp [h]
  · intro a b c d s _ hu
    exact absurd hu he

theorem jsonChars?_codeUnit (h : codeUnit? a b c d = some u) (hu : u < 0xd800 ∨ 0xe000 ≤ u) :
    jsonChars? (92 :: 117 :: a :: b :: c :: d :: s) =
      (jsonChars? s).map (String.utf8EncodeChar (Char.ofNat u) ++ ·) := by
  rw [jsonChars?.eq_def]
  simp only [h, hu, if_true]

def unescaped (b : UInt8) : Bytes :=
  if isNonAscii b then
    [0xef, 0xbf, 0xbf, 70, 70, upperHex (b.toNat / 16), upperHex (b.toNat % 16)]
  else [b]

def IsPlain (c : UInt8) : Prop := c ≠ 92 ∧ ¬c < 32 ∧ c ≠ 34

instance : DecidablePred IsPlain := fun _ => inferInstanceAs (Decidable (_ ∧ _))

theorem appendChar_cases : ∀ b : UInt8, b ≠ 0 →
    (isNonAscii b ∧
      appendChar b = [92, 117, 70, 70, 70, 70, 70, 70, upperHex (b.toNat / 16),
        upperHex (b.toNat % 16)] ∧
      IsPlain (upperHex (b.toNat / 16)) ∧ IsPlain (upperHex (b.toNat % 16))) ∨
    isNonAscii b = false ∧
      (appendChar b = [b] ∧ IsPlain b ∨
      appendChar b = [92, (appendChar b).getD 1 0] ∧ (appendChar b).getD 1 0 ≠ 117 ∧
        shortEscape? ((appendChar b).getD 1 0) = some b ∨
      appendChar b = [92, 117, 48, 48, upperHex (b.toNat / 16), upperHex (b.toNat % 16)] ∧
        codeUnit? 48 48 (upperHex (b.toNat / 16)) (upperHex (b.toNat % 16)) = some b.toNat) := by
  decide +kernel

theorem jsonChars?_appendChar (hb : b ≠ 0) :
    jsonChars? (appendChar b ++ s) = (jsonChars? s).map (unescaped b ++ ·) := by
  rcases appendChar_cases b hb with ⟨hhigh, htext, ⟨hx, hx', hx''⟩, hy, hy', hy''⟩ |
    ⟨hlow, ⟨htext, h92, h32, h34⟩ | ⟨htext, hne, hshort⟩ | ⟨htext, hunit⟩⟩
  · have hunit : codeUnit? 70 70 70 70 = some 0xffff := by decide
    have henc : String.utf8EncodeChar (Char.ofNat 0xffff) = [0xef, 0xbf, 0xbf] := by decide
    rw [htext]
    simp only [cons_append, nil_append]
    rw [jsonChars?_codeUnit hunit (.inr (by decide)),
      jsonChars?_plain (by decide) (by decide) (by decide),
      jsonChars?_plain (by decide) (by decide) (by decide), jsonChars?_plain hx hx' hx'',
      jsonChars?_plain hy hy' hy'']
    simp [unescaped, hhigh, henc, Function.comp_def]
  · rw [htext, cons_append, nil_append, jsonChars?_plain h92 h32 h34]
    simp [unescaped, hlow]
  · rw [htext, cons_append, cons_append, nil_append,
      jsonChars?_shortEscape hne hshort]
    simp [unescaped, hlow]
  · rw [htext]
    simp only [cons_append, nil_append]
    rw [jsonChars?_codeUnit hunit (.inl (Nat.lt_trans b.toNat_lt (by decide))),
      encodeChar_ofNat b hlow]
    simp [unescaped, hlow]

theorem jsonChars?_flatMap_appendChar {v : Bytes} (hv : NulFree v) :
    jsonChars? (v.flatMap appendChar ++ s) = (jsonChars? s).map (v.flatMap unescaped ++ ·) := by
  induction v with
  | nil => simp
  | cons b v ih =>
    have hb : b ≠ 0 := fun h => hv (h ▸ mem_cons_self)
    have htail : NulFree v := fun h => hv (mem_cons_of_mem b h)
    rw [flatMap_cons, append_assoc, jsonChars?_appendChar hb, ih htail]
    simp [Function.comp_def]

theorem jsonChars?_appendInvalid :
    jsonChars? (appendInvalid b ++ s) =
      (jsonChars? s).map ((if b = 0 then b else 95) :: ·) := by
  by_cases hb : b = 0
  · subst hb
    exact jsonChars?_codeUnit (a := 48) (b := 48) (c := 48) (d := 48) (u := 0) (by decide)
      (.inl (by decide))
  · simp only [appendInvalid, if_neg hb]
    exact jsonChars?_plain (c := 95) (by decide) (by decide) (by decide)

theorem ascii_upperHex : ∀ n < 16, isNonAscii (upperHex n) = false ∧ upperHex n ≠ 0 := by
  decide

theorem ascii_shortEscape {e b : UInt8} (h : shortEscape? e = some b) :
    isNonAscii e = false ∧ e ≠ 0 := by
  unfold shortEscape? at h
  split_ifs at h with hself
  · rcases hself with rfl | rfl | rfl <;> decide
  all_goals subst e; decide

theorem ascii_appendChar (b : UInt8) (hb : b ≠ 0) :
    ∀ c ∈ appendChar b, isNonAscii c = false ∧ c ≠ 0 := by
  have hhigh := ascii_upperHex (b.toNat / 16) (by have := b.toNat_lt; omega)
  have hlow := ascii_upperHex (b.toNat % 16) (Nat.mod_lt _ (by decide))
  have hbackslash : isNonAscii 92 = false ∧ (92 : UInt8) ≠ 0 := by decide
  have hu : isNonAscii 117 = false ∧ (117 : UInt8) ≠ 0 := by decide
  have hF : isNonAscii 70 = false ∧ (70 : UInt8) ≠ 0 := by decide
  have hzero : isNonAscii 48 = false ∧ (48 : UInt8) ≠ 0 := by decide
  rcases appendChar_cases b hb with ⟨-, htext, -⟩ |
    ⟨hascii, ⟨htext, -⟩ | ⟨htext, -, hshort⟩ | ⟨htext, -⟩⟩
  · rw [htext]
    simp only [forall_mem_cons]
    exact ⟨hbackslash, hu, hF, hF, hF, hF, hF, hF, hhigh, hlow, forall_mem_nil _⟩
  · rw [htext]
    simp only [forall_mem_cons]
    exact ⟨⟨hascii, hb⟩, forall_mem_nil _⟩
  · rw [htext]
    simp only [forall_mem_cons]
    exact ⟨hbackslash, ascii_shortEscape hshort, forall_mem_nil _⟩
  · rw [htext]
    simp only [forall_mem_cons]
    exact ⟨hbackslash, hu, hzero, hzero, hhigh, hlow, forall_mem_nil _⟩

theorem ascii_appendInvalid (b : UInt8) : ∀ c ∈ appendInvalid b, isNonAscii c = false ∧ c ≠ 0 := by
  unfold appendInvalid
  split <;> decide

theorem length_unescaped (b : UInt8) :
    1 ≤ (unescaped b).length ∧ ((unescaped b).length = 1 → isNonAscii b = false) := by
  unfold unescaped
  split <;> simp_all

theorem flatMap_unescaped_eq_iff {v : Bytes} :
    v.flatMap unescaped = v ↔ ∀ c ∈ v, isNonAscii c = false := by
  constructor
  · intro h
    have hlen : ∀ w : Bytes, w.length ≤ (w.flatMap unescaped).length ∧
        ((w.flatMap unescaped).length = w.length → ∀ c ∈ w, isNonAscii c = false) := by
      intro w
      induction w with
      | nil => simp
      | cons c w ih =>
        obtain ⟨hone, hascii⟩ := length_unescaped c
        simp only [flatMap_cons, length_append, length_cons, forall_mem_cons]
        exact ⟨by omega, fun heq => ⟨hascii (by omega), ih.2 (by omega)⟩⟩
    exact (hlen v).2 (congrArg List.length h)
  · intro h
    induction v with
    | nil => rfl
    | cons c v ih =>
      obtain ⟨hc, hv⟩ := forall_mem_cons.mp h
      rw [flatMap_cons, ih hv]
      simp [unescaped, hc]

end Reading

/-! ## The loop -/

/-- Validation stops at once at some bytes, one after the other, and the others are valid. -/
def StopsThenUtf8 : Bytes → Prop
  | [] => True
  | b :: s => isUtf8 (b :: s) ∨ (utf8Validate (b :: s)).1 = [] ∧ StopsThenUtf8 s

def writtenText : Bytes → Bytes
  | [] => []
  | b :: s =>
    if isUtf8 (b :: s) then (b :: s).flatMap appendChar else appendInvalid b ++ writtenText s

/-- What that denotes. -/
def writtenDenotes : Bytes → Bytes
  | [] => []
  | b :: s =>
    if isUtf8 (b :: s) then (b :: s).flatMap unescaped
    else (if b = 0 then b else 95) :: writtenDenotes s

section Loop

variable {pre s gstr : Bytes} {b : UInt8} {fuel : ℕ}

theorem utf8Validate_of_isUtf8 (h : isUtf8 s) : utf8Validate s = (s, []) := by
  have hrest : (utf8Validate s).2 = [] := of_decide_eq_true h
  have happend := utf8Validate_append s
  rw [hrest, append_nil] at happend
  exact Prod.ext happend hrest

theorem utf8Validate_of_stop (h : (utf8Validate s).1 = []) : utf8Validate s = ([], s) := by
  have happend := utf8Validate_append s
  rw [h, nil_append] at happend
  exact Prod.ext h happend

theorem readBytes_append : readBytes (pre ++ s) pre.length s.length = some s := by
  simp [readBytes]

theorem appendLoop_of_stop (hstop : (utf8Validate (b :: s)).1 = []) :
    appendLoop (pre ++ b :: s) (fuel + 1) gstr pre.length (b :: s).length =
      appendLoop (pre ++ b :: s) fuel (gstr ++ appendInvalid b) (pre ++ [b]).length s.length := by
  have hpos : ¬((b :: s).length : ℤ) ≤ 0 := by simp
  rw [appendLoop, if_neg hpos]
  simp only [readBytes_append, utf8Validate_of_stop hstop]
  simp

theorem appendLoop_of_stopsThenUtf8 (h : StopsThenUtf8 s) (hfuel : s.length < fuel) :
    appendLoop (pre ++ s) fuel gstr pre.length s.length = some (gstr ++ writtenText s) := by
  induction s generalizing pre gstr fuel with
  | nil =>
    obtain ⟨fuel, rfl⟩ := Nat.exists_eq_add_of_lt hfuel
    simp [appendLoop, writtenText]
  | cons b s ih =>
    cases fuel with
    | zero => simp at hfuel
    | succ fuel =>
      by_cases hvalid : isUtf8 (b :: s)
      · have hpos : ¬((b :: s).length : ℤ) ≤ 0 := by simp
        rw [appendLoop, if_neg hpos]
        simp only [readBytes_append, utf8Validate_of_isUtf8 hvalid]
        simp [writtenText, hvalid]
      · obtain ⟨hstop, htail⟩ := h.resolve_left hvalid
        have happend : pre ++ b :: s = (pre ++ [b]) ++ s := by simp
        have hlt : s.length < fuel := by simpa using hfuel
        rw [appendLoop_of_stop hstop, happend, ih htail hlt]
        simp [writtenText, hvalid]

/-- After some valid characters the loop goes back and gets to the same place again, or out of the
given bytes. -/
theorem appendLoop_stuck {input : Bytes} {p : ℕ} (hp : p < input.length)
    (hbefore : ∀ q < p, (utf8Validate (input.drop q)).1 = [])
    (hvalid : (utf8Validate (input.drop p)).1 ≠ []) (hrest : (utf8Validate (input.drop p)).2 ≠ [])
    (gstr : Bytes) (q : ℤ) (hq : q ≤ p) :
    appendLoop input fuel gstr q (input.length - q) = none := by
  induction fuel generalizing gstr q with
  | zero => rfl
  | succ fuel ih =>
    have hpos : ¬(input.length : ℤ) - q ≤ 0 := by omega
    rw [appendLoop, if_neg hpos]
    by_cases hneg : 0 ≤ q
    · obtain ⟨n, rfl⟩ := Int.eq_ofNat_of_zero_le hneg
      have hread : readBytes input n (input.length - n) = some (input.drop n) := by
        have hlen : ((input.length : ℤ) - n).toNat = (input.drop n).length := by
          rw [length_drop]
          omega
        rw [readBytes, if_pos ⟨by omega, by omega⟩, Int.toNat_natCast, hlen, take_length]
      have hstep (m : ℤ) : (input.length : ℤ) - n - m = input.length - (n + m) := by omega
      simp only [hread]
      by_cases hlt : n < p
      · rw [utf8Validate_of_stop (hbefore n hlt)]
        cases hdrop : input.drop n with
        | nil =>
          have hnil := congrArg List.length hdrop
          simp only [length_drop, length_nil] at hnil
          omega
        | cons b s =>
          simp only [hstep]
          exact ih _ _ (by simp; omega)
      · obtain rfl : n = p := by omega
        have hlength : 1 ≤ (utf8Validate (input.drop n)).1.length :=
          length_pos_iff.mpr hvalid
        generalize utf8Validate (input.drop n) = r at hrest hlength
        obtain ⟨valid, rest⟩ := r
        cases rest with
        | nil => exact absurd rfl hrest
        | cons b rest =>
          simp only [hstep]
          exact ih _ _ (by dsimp only at hlength; omega)
    · have hread : readBytes input q (input.length - q) = none := if_neg fun h => hneg h.1
      simp only [hread]

theorem appendLoop_eq_none (h : ¬StopsThenUtf8 s)
    (hbefore : ∀ q < pre.length, (utf8Validate ((pre ++ s).drop q)).1 = []) :
    appendLoop (pre ++ s) fuel gstr pre.length s.length = none := by
  induction s generalizing pre gstr fuel with
  | nil => exact absurd trivial h
  | cons b s ih =>
    obtain ⟨hinvalid, htail⟩ := not_or.mp h
    by_cases hstop : (utf8Validate (b :: s)).1 = []
    · cases fuel with
      | zero => rfl
      | succ fuel =>
        have happend : pre ++ b :: s = (pre ++ [b]) ++ s := by simp
        rw [appendLoop_of_stop hstop, happend]
        apply ih fun hs => htail ⟨hstop, hs⟩
        intro q hq
        rw [← happend]
        rcases Nat.lt_or_eq_of_le (Nat.lt_succ_iff.mp (by simpa using hq)) with hlt | rfl
        · exact hbefore q hlt
        · rwa [drop_left]
    · have hrest : (utf8Validate (b :: s)).2 ≠ [] := fun hnil => hinvalid (decide_eq_true hnil)
      have hstuck := @appendLoop_stuck fuel (pre ++ b :: s) pre.length
        (by simp) hbefore (by rwa [drop_left]) (by rwa [drop_left]) gstr pre.length
        (Int.le_refl _)
      have hlen : ((pre ++ b :: s).length : ℤ) - pre.length = (b :: s).length := by
        rw [length_append]
        omega
      rwa [hlen] at hstuck

theorem jsonChars?_writtenText : jsonChars? (writtenText s ++ [34]) = some (writtenDenotes s) := by
  induction s with
  | nil => rfl
  | cons b s ih =>
    unfold writtenText writtenDenotes
    split
    case isTrue h =>
      rw [jsonChars?_flatMap_appendChar (isUtf8_iff.mp h).2]
      simp [jsonChars?]
    case isFalse =>
      rw [append_assoc, jsonChars?_appendInvalid, ih]
      rfl

theorem ascii_writtenText : ∀ c ∈ writtenText s, isNonAscii c = false ∧ c ≠ 0 := by
  induction s with
  | nil => simp [writtenText]
  | cons b s ih =>
    unfold writtenText
    split
    case isTrue h =>
      intro c hc
      obtain ⟨d, hd, hc⟩ := mem_flatMap.mp hc
      exact ascii_appendChar d (fun hzero => (isUtf8_iff.mp h).2 (hzero ▸ hd)) c hc
    case isFalse =>
      intro c hc
      exact (mem_append.mp hc).elim (ascii_appendInvalid b c) (ih c)

theorem replaceInvalid_of_isUtf8 (h : isUtf8 s) : replaceInvalid s = s := by
  rw [replaceInvalid]
  split
  · rfl
  · rename_i hrest
    simp [utf8Validate_of_isUtf8 h] at hrest

theorem replaceInvalid_of_stop (h : (utf8Validate (b :: s)).1 = []) :
    replaceInvalid (b :: s) = (if b = 0 then b else 95) :: replaceInvalid s := by
  rw [replaceInvalid]
  split
  case h_1 hrest => simp [utf8Validate_of_stop h] at hrest
  case h_2 c rest hrest =>
    rw [utf8Validate_of_stop h] at hrest
    obtain ⟨rfl, rfl⟩ := List.cons.inj hrest
    rw [h, nil_append]

theorem writtenDenotes_eq_iff (h : StopsThenUtf8 s) :
    writtenDenotes s = replaceInvalid s ↔ StopsThenAscii s := by
  induction s with
  | nil =>
    apply iff_of_true _ trivial
    rw [replaceInvalid_of_isUtf8 (isUtf8_of_ascii (by simp))]
    rfl
  | cons b s ih =>
    by_cases hvalid : isUtf8 (b :: s)
    · have hnul := (isUtf8_iff.mp hvalid).2
      have hnotStop : ¬(utf8Validate (b :: s)).1 = [] := by
        simp [utf8Validate_of_isUtf8 hvalid]
      simp only [writtenDenotes, hvalid, if_true, replaceInvalid_of_isUtf8 hvalid, StopsThenAscii,
        hnotStop, false_and, or_false, flatMap_unescaped_eq_iff]
      refine forall₂_congr fun c hc => (and_iff_left ?_).symm
      rintro rfl
      exact hnul hc
    · obtain ⟨hstop, htail⟩ := h.resolve_left hvalid
      have hnotAscii : ¬∀ c ∈ b :: s, isNonAscii c = false ∧ c ≠ 0 :=
        fun hascii => hvalid (isUtf8_of_ascii hascii)
      simp only [writtenDenotes, hvalid, replaceInvalid_of_stop hstop, StopsThenAscii, hstop,
        hnotAscii, false_or, true_and, ← ih htail]
      simp

theorem StopsThenAscii.stopsThenUtf8 (h : StopsThenAscii s) : StopsThenUtf8 s := by
  induction s with
  | nil => trivial
  | cons b s ih => exact h.imp isUtf8_of_ascii fun ⟨hstop, htail⟩ => ⟨hstop, ih htail⟩

/-- The function ends, reads the given bytes only and appends a string literal that denotes what it
should, if and only if validation stops at once at some bytes and the others are ASCII. -/
theorem jsonGstrAppendStringLen_right_iff (gstr str : Bytes) :
    (∃ turns text, ∀ fuel ≥ turns, jsonGstrAppendStringLen fuel gstr str = some (gstr ++ text) ∧
      jsonString? text = some (replaceInvalid str)) ↔ StopsThenAscii str := by
  have hrun (fuel : ℕ) (hfuel : str.length < fuel) (h : StopsThenUtf8 str) :
      jsonGstrAppendStringLen fuel gstr str = some (gstr ++ 34 :: (writtenText str ++ [34])) := by
    have hloop := @appendLoop_of_stopsThenUtf8 [] _ (gstr ++ [34]) _ h hfuel
    simp only [nil_append, length_nil, Int.natCast_zero] at hloop
    simp [jsonGstrAppendStringLen, hloop]
  have hread : jsonString? (34 :: (writtenText str ++ [34])) = some (writtenDenotes str) := by
    have hutf8 : isUtf8 (writtenText str ++ [34]) := by
      apply isUtf8_of_ascii
      intro c hc
      rcases mem_append.mp hc with hc | hc
      · exact ascii_writtenText c hc
      · rw [mem_singleton.mp hc]
        decide
    simp [jsonString?, hutf8, jsonChars?_writtenText]
  constructor
  · rintro ⟨turns, text, h⟩
    obtain ⟨hend, hdenotes⟩ := h (max turns (str.length + 1)) (Nat.le_max_left _ _)
    have hstops : StopsThenUtf8 str := by
      by_contra hnot
      have hnone := @appendLoop_eq_none [] _ (gstr ++ [34])
        (max turns (str.length + 1)) hnot (by simp)
      simp only [nil_append, length_nil, Int.natCast_zero] at hnone
      simp [jsonGstrAppendStringLen, hnone] at hend
    rw [hrun _ (Nat.le_max_right _ _) hstops] at hend
    have htext := append_cancel_left (Option.some.inj hend)
    rw [← htext, hread] at hdenotes
    exact (writtenDenotes_eq_iff hstops).mp (Option.some.inj hdenotes)
  · intro h
    have hstops := h.stopsThenUtf8
    refine ⟨str.length + 1, _, fun fuel hfuel => ⟨hrun fuel hfuel hstops, ?_⟩⟩
    rw [hread, (writtenDenotes_eq_iff hstops).mpr h]

/-- The loop does not get past a byte that is not valid after a letter. -/
theorem jsonGstrAppendStringLen_wrong :
    ¬∀ gstr str, ∃ turns text, ∀ fuel ≥ turns,
      jsonGstrAppendStringLen fuel gstr str = some (gstr ++ text) ∧
        jsonString? text = some (replaceInvalid str) := by
  intro h
  obtain ⟨turns, text, hend⟩ := h [] [0x61, 0xff]
  have hvalidate : utf8Validate [0x61, 0xff] = ([0x61], [0xff]) := by
    have hchar := utf8Validate_encodeChar_append (c := 'a') (by decide) [0xff]
    rwa [utf8Validate_of_none (s := [0xff]) (by decide)] at hchar
  have hnot : ¬StopsThenUtf8 [0x61, 0xff] := by
    simp [StopsThenUtf8, isUtf8, hvalidate]
  have hnone := @appendLoop_eq_none [] _ [34] turns hnot (by simp)
  simp only [nil_append, length_nil, Int.natCast_zero] at hnone
  have hrun : jsonGstrAppendStringLen turns [] [0x61, 0xff] = none :=
    congrArg (Option.map (· ++ [34])) hnone
  exact absurd (hrun.symm.trans (hend turns (Nat.le_refl _)).1) (by simp)

end Loop

end NetworkManager.GlibAux
