import NetworkManager.Lib.Utf8

/-!
# Escaping bytes as text

`nm_utils_buf_utf8safe_escape()` turns any bytes into UTF-8 without NUL, and
`nm_utils_buf_utf8safe_unescape()` reverts that. The escaped text goes from one valid run to
the next, with an octal escape sequence for every byte in between.
-/

namespace NetworkManager.GlibAux

open Lib List

/-- The flags of `NMUtilsStrUtf8SafeFlags` for escaping. -/
structure Utf8SafeFlags where
  escapeCtrl : Bool
  escapeNonAscii : Bool
  escapeDoubleQuote : Bool
  deriving DecidableEq

def Utf8SafeFlags.escapes (flags : Utf8SafeFlags) (ch : UInt8) : Bool :=
  (flags.escapeCtrl ∧ isCtrlOrDel ch) ∨ (flags.escapeNonAscii ∧ isNonAscii ch) ∨
    (flags.escapeDoubleQuote ∧ ch = '"')

/-! ## Escaping -/

def escapeOctal (ch : UInt8) : Bytes := '\\' :: octalDigits ch

def escapeChar (flags : Utf8SafeFlags) (ch : UInt8) : Bytes :=
  if ch = '\\' then ['\\', '\\'] else if flags.escapes ch then escapeOctal ch else [ch]

theorem utf8Validate_snd_length_le (s : Bytes) : (utf8Validate s).2.length ≤ s.length := by
  have happend := congrArg List.length (utf8Validate_append s)
  rw [length_append] at happend
  omega

/-- The loop of `nm_utils_buf_utf8safe_escape()`. -/
def escapeLoop (flags : Utf8SafeFlags) (s : Bytes) : Bytes :=
  (utf8Validate s).1.flatMap (escapeChar flags) ++
    match _h : (utf8Validate s).2 with
    | [] => []
    | b :: rest => escapeOctal b ++ escapeLoop flags rest
termination_by s.length
decreasing_by
  have hle := utf8Validate_snd_length_le s
  rw [_h, length_cons] at hle
  omega

/-- The arguments `buf` and `buflen`: bytes and their number, or a C string and a negative
number. -/
inductive EscapeInput
  | buf (s : Bytes)
  | str (s : Option Bytes)
  deriving DecidableEq

/-- The returned string, which is the input itself or a copy. -/
inductive Escaped
  | input (s : Bytes)
  | copy (s : Bytes)
  deriving DecidableEq

def Escaped.val : Escaped → Bytes
  | input s => s
  | copy s => s

def bufUtf8safeEscape (flags : Utf8SafeFlags) : EscapeInput → Option Escaped
  | .buf [] => none
  | .buf (b :: s) => some (.copy (escapeLoop flags (b :: s)))
  | .str none => none
  | .str (some []) => some (.input [])
  | .str (some (b :: s)) =>
    if isUtf8 (b :: s) ∧ ∀ ch ∈ b :: s, ch ≠ '\\' ∧ ¬ flags.escapes ch then some (.input (b :: s))
    else some (.copy (escapeLoop flags (b :: s)))

/-! ## Unescaping -/

/-- What a letter after the backslash stands for. Other characters are taken literally. -/
def unescapeLetter (ch : UInt8) : UInt8 :=
  if ch = 'b' then 8
  else if ch = 'f' then 12
  else if ch = 'n' then 10
  else if ch = 'r' then 13
  else if ch = 't' then 9
  else if ch = 'v' then 11
  else ch

/-- The escape sequence that begins with `ch`, and what follows it. -/
def unescapeSequence (ch : UInt8) (s : Bytes) : UInt8 × Bytes :=
  if isDigit ch then readOctal 2 (octalValue ch) s else (unescapeLetter ch, s)

theorem unescapeSequence_length_le (ch : UInt8) (s : Bytes) :
    (unescapeSequence ch s).2.length ≤ s.length := by
  unfold unescapeSequence
  split_ifs
  · exact readOctal_length_le 2 _ s
  · exact Nat.le_refl _

def isNoBackslash (ch : UInt8) : Bool := ch ≠ '\\'

/-- The loop of `nm_utils_buf_utf8safe_unescape()`: copy up to the next backslash, and then
take the escape sequence. -/
def unescapeLoop (stripSpaces : Bool) (s : Bytes) : Bytes :=
  let chunk := s.takeWhile isNoBackslash
  match _h : s.dropWhile isNoBackslash with
  | [] => if stripSpaces then chomp chunk else chunk
  | [_] => chunk
  | _ :: ch :: rest =>
    let r := unescapeSequence ch rest
    chunk ++ r.1 :: unescapeLoop stripSpaces r.2
termination_by s.length
decreasing_by
  have hle := unescapeSequence_length_le ch rest
  have hsuffix := (dropWhile_suffix (l := s) isNoBackslash).length_le
  rw [_h] at hsuffix
  simp only [length_cons] at hsuffix
  omega

/-- `nm_utils_buf_utf8safe_unescape()`, which has the flag
`NM_UTILS_STR_UTF8_SAFE_UNESCAPE_STRIP_SPACES` only. -/
def bufUtf8safeUnescape (stripSpaces : Bool) (s : Bytes) : Bytes :=
  unescapeLoop stripSpaces (if stripSpaces then skipSpaces s else s)

/-! ## Unescaping one step -/

theorem unescapeLoop_nil (strip : Bool) : unescapeLoop strip [] = [] := by
  unfold unescapeLoop
  cases strip <;> rfl

theorem unescapeLoop_cons {b : UInt8} (hb : b ≠ '\\') (s : Bytes) :
    unescapeLoop false (b :: s) = b :: unescapeLoop false s := by
  have hb' : isNoBackslash b := by simpa [isNoBackslash] using hb
  have htake := takeWhile_cons_of_pos (l := s) hb'
  have hdrop := dropWhile_cons_of_pos (l := s) hb'
  rw [unescapeLoop, unescapeLoop, htake, hdrop]
  split <;> simp

theorem unescapeLoop_backslash (strip : Bool) (ch : UInt8) (s : Bytes) :
    unescapeLoop strip ('\\' :: ch :: s) =
      (unescapeSequence ch s).1 :: unescapeLoop strip (unescapeSequence ch s).2 := by
  rw [unescapeLoop]
  rfl

theorem unescapeLoop_escapeOctal (strip : Bool) (b : UInt8) (s : Bytes) :
    unescapeLoop strip (escapeOctal b ++ s) = b :: unescapeLoop strip s := by
  have hdigit : ∀ d, isDigit (octalDigit d) := by decide
  have hread : unescapeSequence (octalDigit (b >>> (6 : UInt8)))
      (octalDigit (b >>> (3 : UInt8)) :: octalDigit b :: s) = (b, s) := by
    rw [unescapeSequence, if_pos (hdigit _), readOctal_octalDigits]
  have hstep := unescapeLoop_backslash strip (octalDigit (b >>> (6 : UInt8)))
    (octalDigit (b >>> (3 : UInt8)) :: octalDigit b :: s)
  rw [hread] at hstep
  exact hstep

theorem unescapeLoop_escapeChar (flags : Utf8SafeFlags) (b : UInt8) (s : Bytes) :
    unescapeLoop false (escapeChar flags b ++ s) = b :: unescapeLoop false s := by
  unfold escapeChar
  split_ifs with hb hflags
  · subst hb
    exact unescapeLoop_backslash false '\\' s
  · exact unescapeLoop_escapeOctal false b s
  · exact unescapeLoop_cons hb s

theorem unescapeLoop_run (flags : Utf8SafeFlags) (run s : Bytes) :
    unescapeLoop false (run.flatMap (escapeChar flags) ++ s) = run ++ unescapeLoop false s := by
  induction run with
  | nil => rfl
  | cons b run ih =>
    rw [flatMap_cons, append_assoc, unescapeLoop_escapeChar, ih, cons_append]

/-! ## The escaped text -/

theorem escapeLoop_induction (flags : Utf8SafeFlags) {P : Bytes → Bytes → Prop}
    (valid : ∀ s, (utf8Validate s).2 = [] →
      P s ((utf8Validate s).1.flatMap (escapeChar flags)))
    (invalid : ∀ s b rest, (utf8Validate s).2 = b :: rest → P rest (escapeLoop flags rest) →
      P s ((utf8Validate s).1.flatMap (escapeChar flags) ++
        (escapeOctal b ++ escapeLoop flags rest)))
    (s : Bytes) : P s (escapeLoop flags s) := by
  fun_induction escapeLoop flags s with
  | case1 s ih =>
    split
    · rename_i hrest
      rw [append_nil]
      exact valid s hrest
    · rename_i b rest hrest
      exact invalid s b rest hrest (ih b rest hrest)

theorem unescapeLoop_escapeLoop (flags : Utf8SafeFlags) (s : Bytes) :
    unescapeLoop false (escapeLoop flags s) = s := by
  induction s using escapeLoop_induction flags with
  | valid s hrest =>
    have happend := utf8Validate_append s
    have hrun := unescapeLoop_run flags (utf8Validate s).1 []
    rw [hrest, append_nil] at happend
    rw [append_nil, unescapeLoop_nil, append_nil] at hrun
    exact hrun.trans happend
  | invalid s b rest hrest ih =>
    have happend := utf8Validate_append s
    rw [hrest] at happend
    rw [unescapeLoop_run, unescapeLoop_escapeOctal, ih, happend]

/-- What the flags promise: text without NUL and without a character that is to be escaped. -/
structure Utf8SafeFlags.Safe (flags : Utf8SafeFlags) (t : Bytes) : Prop where
  utf8 : Utf8 t
  nulFree : NulFree t
  not_escapes : ∀ ch ∈ t, ¬ flags.escapes ch

namespace Utf8SafeFlags.Safe

variable {flags : Utf8SafeFlags}

theorem append {s t : Bytes} (hs : flags.Safe s) (ht : flags.Safe t) : flags.Safe (s ++ t) := by
  refine ⟨hs.utf8.append ht.utf8, nulFree_append.mpr ⟨hs.nulFree, ht.nulFree⟩, ?_⟩
  exact forall_mem_append.mpr ⟨hs.not_escapes, ht.not_escapes⟩

theorem flatMap {α : Type} {f : α → Bytes} {l : List α} (h : ∀ a ∈ l, flags.Safe (f a)) :
    flags.Safe (l.flatMap f) := by
  refine ⟨utf8_flatMap fun a ha => (h a ha).utf8, ?_, ?_⟩
  · simp only [NulFree, mem_flatMap, not_exists, not_and]
    exact fun a ha => (h a ha).nulFree
  · intro ch hch
    obtain ⟨a, ha, hch⟩ := mem_flatMap.mp hch
    exact (h a ha).not_escapes ch hch

theorem of_regular {t : Bytes} (h : ∀ ch ∈ t, isRegular ch ∧ ch ≠ '"') : flags.Safe t := by
  have hregular : ∀ ch, isRegular ch → isNonAscii ch = false ∧ isCtrlOrDel ch = false ∧ ch ≠ 0 := by
    decide
  refine ⟨utf8_of_ascii fun ch hch => (hregular ch (h ch hch).1).1, ?_, fun ch hch => ?_⟩
  · exact fun h0 => (hregular 0 (h 0 h0).1).2.2 rfl
  · have hch' := hregular ch (h ch hch).1
    simp [escapes, hch', (h ch hch).2]

theorem escapeOctal (ch : UInt8) : flags.Safe (escapeOctal ch) := by
  have hdigit : ∀ d, isRegular (octalDigit d) ∧ octalDigit d ≠ '"' := by decide
  apply of_regular
  simp only [GlibAux.escapeOctal, octalDigits, forall_mem_cons]
  exact ⟨by decide, hdigit _, hdigit _, hdigit _, by simp⟩

theorem escapeChar_of_ascii {b : UInt8} (hb : isNonAscii b = false) (h0 : b ≠ 0) :
    flags.Safe (escapeChar flags b) := by
  unfold escapeChar
  split_ifs with hbackslash hescapes
  · exact of_regular (by decide)
  · exact escapeOctal b
  · refine ⟨utf8_singleton hb, nulFree_cons.mpr ⟨h0, nulFree_nil⟩, ?_⟩
    simpa using hescapes

theorem escapeChar_of_nonAscii {c : Char} (hc : ∀ b ∈ String.utf8EncodeChar c, isNonAscii b) :
    flags.Safe ((String.utf8EncodeChar c).flatMap (escapeChar flags)) := by
  have hne : ∀ b, isNonAscii b → b ≠ '\\' ∧ b ≠ '"' ∧ b ≠ 0 ∧ isCtrlOrDel b = false := by decide
  by_cases hflag : flags.escapeNonAscii
  · have hescape : ∀ b ∈ String.utf8EncodeChar c, escapeChar flags b = GlibAux.escapeOctal b := by
      intro b hb
      simp [escapeChar, escapes, hflag, hc b hb, (hne b (hc b hb)).1]
    apply flatMap
    intro b hb
    rw [hescape b hb]
    exact escapeOctal b
  · have hescape : ∀ b ∈ String.utf8EncodeChar c, ¬ flags.escapes b ∧ escapeChar flags b = [b] := by
      intro b hb
      simp [escapeChar, escapes, hflag, hne b (hc b hb)]
    rw [flatMap_congr fun b hb => (hescape b hb).2, flatMap_singleton']
    refine ⟨utf8_encodeChar c, fun h0 => ?_, fun b hb => (hescape b hb).1⟩
    exact (hne 0 (hc 0 h0)).2.2.1 rfl

theorem run (s : Bytes) : flags.Safe ((utf8Validate s).1.flatMap (escapeChar flags)) := by
  obtain ⟨cs, hcs, hnul⟩ := utf8Validate_fst s
  rw [hcs, flatMap_assoc]
  apply flatMap
  intro c hc
  rcases encodeChar_cases c with ⟨b, hb, hascii⟩ | hnonAscii
  · have hnulFree := nulFree_encodeChar.mpr (hnul c hc)
    rw [hb, nulFree_cons] at hnulFree
    rw [hb, flatMap_singleton]
    exact escapeChar_of_ascii hascii hnulFree.1
  · exact escapeChar_of_nonAscii hnonAscii

theorem escapeLoop (s : Bytes) : flags.Safe (escapeLoop flags s) := by
  induction s using escapeLoop_induction flags with
  | valid s _ => exact run s
  | invalid s b rest _ ih => exact (run s).append ((escapeOctal b).append ih)

end Utf8SafeFlags.Safe

/-! ## The functions -/

theorem unescapeLoop_length_le (strip : Bool) (s : Bytes) :
    (unescapeLoop strip s).length ≤ s.length := by
  have hsplit (s : Bytes) :
      (s.takeWhile isNoBackslash).length + (s.dropWhile isNoBackslash).length = s.length := by
    rw [← length_append, takeWhile_append_dropWhile]
  fun_induction unescapeLoop strip s with
  | case1 s chunk =>
    have hchomp := chomp_length_le chunk
    exact Nat.le_trans hchomp ( takeWhile_prefix isNoBackslash).length_le
  | case2 s chunk | case3 s chunk => exact ( takeWhile_prefix isNoBackslash).length_le
  | case4 s chunk b ch rest hrest r ih =>
    have hseq : r.2.length ≤ rest.length := unescapeSequence_length_le ch rest
    have hlen : chunk.length + (s.dropWhile isNoBackslash).length = s.length := hsplit s
    rw [hrest] at hlen
    simp only [length_append, length_cons] at hlen ⊢
    omega

theorem bufUtf8safeUnescape_length_le (strip : Bool) (s : Bytes) :
    (bufUtf8safeUnescape strip s).length ≤ s.length := by
  have hskip : (if strip then skipSpaces s else s).length ≤ s.length := by
    split_ifs
    · exact (dropWhile_suffix isSpace).length_le
    · exact Nat.le_refl _
  exact Nat.le_trans (unescapeLoop_length_le strip _) hskip

/-- Text in which nothing is to be escaped. -/
def Utf8SafeFlags.Plain (flags : Utf8SafeFlags) (s : Bytes) : Prop :=
  Utf8 s ∧ NulFree s ∧ ∀ ch ∈ s, ch ≠ '\\' ∧ ¬ flags.escapes ch

theorem escapeLoop_of_plain {flags : Utf8SafeFlags} {s : Bytes} (h : flags.Plain s) :
    escapeLoop flags s = s := by
  obtain ⟨hutf8, hnul, hplain⟩ := h
  have hrest := utf8Validate_snd_eq_nil.mpr ⟨hutf8, hnul⟩
  have happend := utf8Validate_append s
  rw [hrest, append_nil] at happend
  have hescape : ∀ ch ∈ s, escapeChar flags ch = [ch] := by
    intro ch hch
    simp [escapeChar, hplain ch hch]
  rw [escapeLoop, happend, flatMap_congr hescape, flatMap_singleton']
  split
  · rw [append_nil]
  · simp_all

def EscapeInput.bytes : EscapeInput → Bytes
  | buf s => s
  | str s => s.getD []

theorem bufUtf8safeEscape_val {flags : Utf8SafeFlags} {i : EscapeInput} (hi : i.bytes ≠ []) :
    ∃ e, bufUtf8safeEscape flags i = some e ∧ e.val = escapeLoop flags i.bytes := by
  match i with
  | .buf (b :: s) => exact ⟨_, rfl, rfl⟩
  | .str (some (b :: s)) =>
    by_cases h : isUtf8 (b :: s) ∧ ∀ ch ∈ b :: s, ch ≠ '\\' ∧ ¬ flags.escapes ch
    · refine ⟨_, if_pos h, ?_⟩
      have hutf8 := isUtf8_iff.mp h.1
      exact (escapeLoop_of_plain ⟨hutf8.1, hutf8.2, h.2⟩).symm
    · exact ⟨_, if_neg h, rfl⟩

theorem bufUtf8safeEscape_of_plain {flags : Utf8SafeFlags} {s : Bytes} (h : flags.Plain s) :
    bufUtf8safeEscape flags (.str (some s)) = some (.input s) := by
  cases s with
  | nil => rfl
  | cons b s => exact if_pos ⟨isUtf8_iff.mpr ⟨h.1, h.2.1⟩, h.2.2⟩

/-- Any bytes are carried by text that the flags allow, and come back from it. A string in
which nothing is to be escaped is returned itself, and unescaping never adds bytes. -/
theorem bufUtf8safeEscape_lossless (flags : Utf8SafeFlags) (i : EscapeInput) (hi : i.bytes ≠ []) :
    (∃ e, bufUtf8safeEscape flags i = some e ∧ flags.Safe e.val ∧
      bufUtf8safeUnescape false e.val = i.bytes) ∧
    (∀ s, flags.Plain s → bufUtf8safeEscape flags (.str (some s)) = some (.input s)) ∧
    ∀ strip t, (bufUtf8safeUnescape strip t).length ≤ t.length := by
  refine ⟨?_, fun s => bufUtf8safeEscape_of_plain, bufUtf8safeUnescape_length_le⟩
  obtain ⟨e, he, hval⟩ := @bufUtf8safeEscape_val flags _ hi
  refine ⟨e, he, ?_, ?_⟩
  · rw [hval]
    exact Utf8SafeFlags.Safe.escapeLoop i.bytes
  · rw [hval]
    exact unescapeLoop_escapeLoop flags i.bytes

/-- A NUL byte before a digit, and a character that is cut off. -/
theorem bufUtf8safeEscape_lossless_truncated :
    ∃ e, bufUtf8safeEscape ⟨true, false, true⟩ (.buf [0, 49, 0xc3, 0xa4, 0xc3]) = some e ∧
      bufUtf8safeUnescape false e.val = [0, 49, 0xc3, 0xa4, 0xc3] := by
  have hlossless := bufUtf8safeEscape_lossless ⟨true, false, true⟩
    (.buf [0, 49, 0xc3, 0xa4, 0xc3]) (by decide)
  obtain ⟨e, he, -, hunescape⟩ := hlossless.1
  exact ⟨e, he, hunescape⟩

end NetworkManager.GlibAux
