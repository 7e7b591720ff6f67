import NetworkManager.Lib.Utf8

/-!
# Quoting the values of an ifcfg-rh file

`svEscape()` writes a value as it is, in double quotes, or in the ANSI-C quoting of the shell,
and `svUnescape()` reads what follows the `=` in a line of a shell script. What follows the value
may be blanks, one semicolon, and a comment.
-/

namespace NetworkManager.Settings

open Lib List

/-! ## Writing a value -/

/-- The letter for a control character after a backslash. -/
def ansicLetter (b : UInt8) : Option UInt8 :=
  if b = 8 then some 'b'
  else if b = 12 then some 'f'
  else if b = 10 then some 'n'
  else if b = 13 then some 'r'
  else if b = 9 then some 't'
  else if b = 11 then some 'v'
  else none

def signedOctalDigits (b : UInt8) : Bytes :=
  [octalDigit (b >>> (6 : UInt8) ||| if b < 128 then 0 else 4), octalDigit (b >>> (3 : UInt8)),
    octalDigit b]

def escapeAnsicChar (b : UInt8) : Bytes :=
  match ansicLetter b with
  | some l => [('\\' : UInt8), l]
  | none =>
    if b ∈ ascii "\\\"'" then [('\\' : UInt8), b]
    else if ¬ isRegular b then ('\\' : UInt8) :: signedOctalDigits b
    else [b]

def escapeAnsic (source : Bytes) : Bytes :=
  ascii "$'" ++ source.flatMap escapeAnsicChar ++ ascii "'"

def charReqEscape (c : UInt8) : Bool := c ∈ ascii "\"\\$`"

def charReqEscapeOld (c : UInt8) : Bool := c ∈ ascii "\"\\$`'~"

def charReqQuotes (c : UInt8) : Bool := c ∈ ascii " '~\t|&;()<>"

def charReqAnsic (c : UInt8) : Bool :=
  ¬ charReqEscape c ∧ ¬ charReqQuotes c ∧ ¬ isRegular c ∧ isCtrlOrDel c

def escapeDoubleChar (c : UInt8) : Bytes := if charReqEscape c then [('\\' : UInt8), c] else [c]

def svEscape (s : Bytes) : Bytes :=
  let allAscii : Bool := ∀ c ∈ s, charReqEscape c ∨ charReqQuotes c ∨ isRegular c
  if ∃ c ∈ s, charReqAnsic c then escapeAnsic s
  else if ¬ allAscii ∧ ¬ isUtf8 s then escapeAnsic s
  else if allAscii ∧ ∀ c ∈ s, ¬ charReqEscape c ∧ ¬ charReqQuotes c then s
  else ascii "\"" ++ s.flatMap escapeDoubleChar ++ ascii "\""

/-! ## Reading a value -/

/-- `_looks_like_old_svescaped()`, after the opening quote. -/
def looksLikeOldSvescapedLoop : Bytes → Bool
  | [] => false
  | c :: s =>
    if ¬ charReqEscapeOld c then looksLikeOldSvescapedLoop s
    else if c = '"' then s = []
    else if c = '\\' then
      match s with
      | [] => false
      | d :: s => if charReqEscapeOld d then looksLikeOldSvescapedLoop s else false
    else false

def looksLikeOldSvescaped (value : Bytes) : Bool :=
  match value with
  | [] => false
  | c :: s => if c = '"' then looksLikeOldSvescapedLoop s else false

/-- What was read, and the rest of the value. -/
abbrev Unescaped := Option (Bytes × Bytes)

def prepend (t : Bytes) (r : Unescaped) : Unescaped := r.map fun r => (t ++ r.1, r.2)

def unescapeSingle : Bytes → Unescaped
  | [] => none
  | c :: s => if c = '\'' then some ([], s) else prepend [c] (unescapeSingle s)

/-- Double quotes, after the opening one. A backslash before `'` or `~` is removed only if the
value was written by an old `svEscape()`. -/
def unescapeDouble (looksOld : Bool) : Bytes → Unescaped
  | [] => none
  | c :: s =>
    if c = '"' then some ([], s)
    else if c ∈ ascii "`$" then none
    else if c = '\\' then
      match s with
      | [] => none
      | d :: s =>
        if d ∈ ascii "$`\"\\" ∨ (d ∈ ascii "'~" ∧ looksOld) then
          prepend [d] (unescapeDouble looksOld s)
        else prepend [c, d] (unescapeDouble looksOld s)
    else prepend [c] (unescapeDouble looksOld s)

/-- What a letter or a quote stands for after a backslash. -/
def ansicChar (c : UInt8) : Option UInt8 :=
  if c = 'a' then some 7
  else if c = 'b' then some 8
  else if c = 'e' ∨ c = 'E' then some 27
  else if c = 'f' then some 12
  else if c = 'n' then some 10
  else if c = 'r' then some 13
  else if c = 't' then some 9
  else if c = 'v' then some 11
  else if c ∈ ascii "?\"\\'" then some c
  else none

/-- `_ch_hex_is()` -/
def isHex (c : UInt8) : Bool := isDigit c ∨ (65 ≤ c ∧ c ≤ 70) ∨ (97 ≤ c ∧ c ≤ 102)

/-- `_ch_hex_get()` -/
def hexValue (c : UInt8) : ℕ :=
  if c ≤ '9' then c.toNat - 48 else (c &&& (0x4F : UInt8)).toNat - 65 + 10

/-- Read at most `n` more hex digits. -/
def readHex : ℕ → ℕ → Bytes → ℕ × Bytes
  | 0, v, s => (v, s)
  | _ + 1, v, [] => (v, [])
  | n + 1, v, c :: s => if isHex c then readHex n (v * 16 + hexValue c) s else (v, c :: s)

theorem readHex_length_le (n v : ℕ) (s : Bytes) : (readHex n v s).2.length ≤ s.length := by
  induction n generalizing v s with
  | zero => simp [readHex]
  | succ n ih =>
    cases s with
    | nil => simp [readHex]
    | cons c s =>
      unfold readHex
      split_ifs
      · exact Nat.le_succ_of_le (ih _ s)
      · exact Nat.le_refl _

/-- The last `n` bytes of the encoding, with six bits each. -/
def unicharTail : ℕ → ℕ → Bytes
  | 0, _ => []
  | n + 1, c => unicharTail n (c / 64) ++ [UInt8.ofNat (c % 64 + 128)]

/-- `g_unichar_to_utf8()`, which also encodes numbers that are no characters. -/
def unicharToUtf8 (c : ℕ) : Bytes :=
  let encode (first n : ℕ) : Bytes := UInt8.ofNat (c / 64 ^ n ||| first) :: unicharTail n c
  if c < 0x80 then encode 0 0
  else if c < 0x800 then encode 0xC0 1
  else if c < 0x10000 then encode 0xE0 2
  else if c < 0x200000 then encode 0xF0 3
  else if c < 0x4000000 then encode 0xF8 4
  else encode 0xFC 5

/-- The most digits after `\x`, `\u` and `\U`. -/
def maxHexDigits (escapeType : UInt8) : ℕ :=
  if escapeType = 'x' then 2 else if escapeType = 'u' then 4 else 8

def hexEscape (escapeType : UInt8) (v : ℕ) : Bytes :=
  if escapeType = 'x' then [UInt8.ofNat v] else unicharToUtf8 v

/-- ANSI-C quoting, after the opening quote. -/
def unescapeAnsic : Bytes → Unescaped
  | [] => none
  | c :: s =>
    if c = '\'' then some ([], s)
    else if c = '\\' then
      match s with
      | [] => none
      | d :: s =>
        match ansicChar d with
        | some b => prepend [b] (unescapeAnsic s)
        | none =>
          if isOctal d then
            prepend [(readOctal 2 (octalValue d) s).1]
              (unescapeAnsic (readOctal 2 (octalValue d) s).2)
          else if d ∈ ascii "xuU" then
            if ∃ h ∈ s.head?, isHex h then
              prepend (hexEscape d (readHex (maxHexDigits d) 0 s).1)
                (unescapeAnsic (readHex (maxHexDigits d) 0 s).2)
            else prepend [c, d] (unescapeAnsic s)
          else prepend [c, d] (unescapeAnsic s)
    else prepend [c] (unescapeAnsic s)
  termination_by s => s.length
  decreasing_by
    all_goals simp only [length_cons]
    all_goals first
      | omega
      | exact Nat.lt_of_le_of_lt (readOctal_length_le _ _ _) (by omega)
      | exact Nat.lt_of_le_of_lt (readHex_length_le _ _ _) (by omega)

/-- Whether nothing but blanks, one semicolon and a comment follow. -/
def endsValue (hasSemicolon : Bool) : Bytes → Bool
  | [] => true
  | c :: s =>
    if isSpace c then endsValue hasSemicolon s
    else if ¬ hasSemicolon ∧ c = ';' then endsValue true s
    else c = '#'

theorem prepend_eq_some {t : Bytes} {r : Unescaped} {u : Bytes × Bytes} :
    prepend t r = some u ↔ ∃ v, r = some (v, u.2) ∧ t ++ v = u.1 := by
  simp only [prepend, Option.map_eq_some_iff, Prod.exists]
  constructor
  · rintro ⟨v, rest, hr, rfl⟩
    exact ⟨v, hr, rfl⟩
  · rintro ⟨v, hr, hv⟩
    exact ⟨v, u.2, hr, by rw [hv]⟩

theorem unescapeSingle_length {s : Bytes} {u : Bytes × Bytes} (h : unescapeSingle s = some u) :
    u.2.length < s.length := by
  fun_induction unescapeSingle s generalizing u with
  | case1 => simp at h
  | case2 s =>
    obtain rfl := Option.some.inj h
    exact Nat.lt_succ_self _
  | case3 c s hc ih =>
    obtain ⟨t, hv, -⟩ := prepend_eq_some.mp h
    have hlt := ih hv
    exact Nat.lt_succ_of_lt hlt

theorem unescapeDouble_length {looksOld : Bool} {s : Bytes} {u : Bytes × Bytes}
    (h : unescapeDouble looksOld s = some u) : u.2.length < s.length := by
  fun_induction unescapeDouble looksOld s generalizing u with
  | case1 | case3 | case4 => simp at h
  | case2 s =>
    obtain rfl := Option.some.inj h
    exact Nat.lt_succ_self _
  | case5 _ _ _ _ _ ih | case6 _ _ _ _ _ ih | case7 _ _ _ _ _ ih =>
    obtain ⟨t, hv, -⟩ := prepend_eq_some.mp h
    have hlt := ih hv
    dsimp only at hlt
    simp only [length_cons]
    omega

theorem unescapeAnsic_length {s : Bytes} {u : Bytes × Bytes} (h : unescapeAnsic s = some u) :
    u.2.length < s.length := by
  fun_induction unescapeAnsic s generalizing u with
  | case1 | case3 => simp at h
  | case2 s =>
    obtain rfl := Option.some.inj h
    exact Nat.lt_succ_self _
  | case5 d s _ _ _ ih =>
    obtain ⟨t, hv, -⟩ := prepend_eq_some.mp h
    have hlt := ih hv
    dsimp only at hlt
    have hle := readOctal_length_le 2 (octalValue d) s
    simp only [length_cons]
    omega
  | case6 d s _ _ _ _ _ ih =>
    obtain ⟨t, hv, -⟩ := prepend_eq_some.mp h
    have hlt := ih hv
    have hle := readHex_length_le (maxHexDigits d) 0 s
    dsimp only at hlt
    simp only [length_cons]
    omega
  | case4 _ _ _ _ _ ih | case7 _ _ _ _ _ _ _ ih | case8 _ _ _ _ _ _ ih | case9 _ _ _ _ ih =>
    obtain ⟨t, hv, -⟩ := prepend_eq_some.mp h
    have hlt := ih hv
    dsimp only at hlt
    simp only [length_cons]
    omega

/-- The loop of `svUnescape_full()`, for the rest of the value. -/
def svUnescapeLoop (value : Bytes) : Bytes → Option Bytes
  | [] => some []
  | c :: s =>
    if isSpace c ∨ c = ';' then if endsValue (c = ';') s then some [] else none
    else if c = '\\' then
      match s with
      | [] => none
      | d :: s => (svUnescapeLoop value s).map (d :: ·)
    else if c = '\'' then
      match _h : unescapeSingle s with
      | none => none
      | some u => (svUnescapeLoop value u.2).map (u.1 ++ ·)
    else if c = '"' then
      match _h : unescapeDouble (looksLikeOldSvescaped value) s with
      | none => none
      | some u => (svUnescapeLoop value u.2).map (u.1 ++ ·)
    else if c = '$' ∧ s.head? = some ('\'' : UInt8) then
      match _h : unescapeAnsic s.tail with
      | none => none
      | some u => (svUnescapeLoop value u.2).map (u.1 ++ ·)
    else if c ∈ ascii "|&()<>" then none
    else (svUnescapeLoop value s).map (c :: ·)
  termination_by s => s.length
  decreasing_by
    · simp only [length_cons]
      omega
    · exact Nat.lt_succ_of_lt (unescapeSingle_length _h)
    · exact Nat.lt_succ_of_lt (unescapeDouble_length _h)
    · have hlt := unescapeAnsic_length _h
      rw [length_tail] at hlt
      simp only [length_cons]
      omega
    · simp

/-- `svUnescape_full()`. What was read ends at a NUL byte. -/
def svUnescapeFull (value : Bytes) (checkUtf8 : Bool) : Option Bytes :=
  match svUnescapeLoop value value with
  | none => none
  | some str => if checkUtf8 ∧ ¬ isUtf8 str then none else some (str.takeWhile fun c => c ≠ 0)

def svUnescape (value : Bytes) : Option Bytes := svUnescapeFull value true

/-!
## A quoted value is read back

Each of the three ways to write a value is undone by the part of the reader for it. None leaves
anything outside of quotes that means something to a shell.
-/

/-! ## The quoting of a shell -/

/-- What a shell has read of a word. -/
inductive ShellState
  | unquoted
  | backslash
  | dollar
  | single
  | double
  | doubleBackslash
  | ansic
  | ansicBackslash
  deriving DecidableEq

def isShellSpecial (c : UInt8) : Bool := c ∈ ascii "|&;()<>`~" ∨ isSpace c

/-- A shell reads a character of a word that needs no expansion, unless it ends the word. -/
def shellStep (q : ShellState) (c : UInt8) : Option ShellState :=
  match q with
  | .unquoted =>
    if c = '\\' then some .backslash
    else if c = '\'' then some .single
    else if c = '"' then some .double
    else if c = '$' then some .dollar
    else if isShellSpecial c then none
    else some .unquoted
  | .backslash => if c = '\n' then none else some .unquoted
  | .dollar => if c = '\'' then some .ansic else none
  | .single => if c = '\'' then some .unquoted else some .single
  | .double =>
    if c = '"' then some .unquoted
    else if c = '\\' then some .doubleBackslash
    else if c ∈ ascii "$`" then none
    else some .double
  | .doubleBackslash => if c = '\n' then none else some .double
  | .ansic =>
    if c = '\'' then some .unquoted
    else if c = '\\' then some .ansicBackslash
    else some .ansic
  | .ansicBackslash => some .ansic

/-- All of the text is one word, without anything special outside of quotes. -/
def IsShellWord (s : Bytes) : Prop := s.foldlM shellStep .unquoted = some .unquoted

instance (s : Bytes) : Decidable (IsShellWord s) :=
  inferInstanceAs (Decidable (_ = some ShellState.unquoted))

theorem foldlM_flatMap_of_forall {q : ShellState} {f : UInt8 → Bytes} {s : Bytes}
    (h : ∀ c ∈ s, (f c).foldlM shellStep q = some q) : (s.flatMap f).foldlM shellStep q = some q := by
  induction s with
  | nil => rfl
  | cons c s ih =>
    rw [forall_mem_cons] at h
    rw [flatMap_cons, foldlM_append, h.1, Option.bind_eq_bind, Option.bind_some]
    exact ih h.2

/-! ## The three ways to write a value -/

theorem svEscape_cases {s : Bytes} (P : Bytes → Prop) (hansic : P (escapeAnsic s))
    (hbare : (∀ c ∈ s, isRegular c ∧ ¬ charReqEscape c ∧ ¬ charReqQuotes c) → P s)
    (hdouble : (∀ c ∈ s, ¬ charReqAnsic c) →
      P (ascii "\"" ++ s.flatMap escapeDoubleChar ++ ascii "\"")) : P (svEscape s) := by
  unfold svEscape
  dsimp only
  split_ifs with hctrl hutf8 hplain
  · exact hansic
  · exact hansic
  · refine hbare fun c hc => ?_
    simp only [decide_eq_true_eq] at hplain
    obtain ⟨hall, hnone⟩ := hplain
    have hc' := hnone c hc
    exact ⟨((hall c hc).resolve_left hc'.1).resolve_left hc'.2, hc'⟩
  · exact hdouble fun c hc hreq => hctrl ⟨c, hc, hreq⟩

theorem ansicChar_ansicLetter {b l : UInt8} (h : ansicLetter b = some l) :
    ansicChar l = some b := by
  unfold ansicLetter at h
  split_ifs at h with h₁ h₂ h₃ h₄ h₅ h₆
  all_goals
    obtain rfl := Option.some.inj h
    subst b
    rfl

theorem octalValue_signedOctalDigits : ∀ b : UInt8, UInt8.ofNat
    ((octalValue (octalDigit (b >>> (6 : UInt8) ||| if b < 128 then 0 else 4)) * 8 +
      octalValue (octalDigit (b >>> (3 : UInt8)))) * 8 + octalValue (octalDigit b)) = b := by
  decide +kernel

theorem unescapeAnsic_escapeAnsicChar (b : UInt8) (r : Bytes) :
    unescapeAnsic (escapeAnsicChar b ++ r) = prepend [b] (unescapeAnsic r) := by
  have hquote : ∀ b ∈ ascii "\\\"'", ansicChar b = some b := by decide
  have hoctal : ∀ b, ansicChar (octalDigit b) = none := by decide +kernel
  have hbackslash : ('\\' : UInt8) ≠ '\'' := by decide
  have hstep {d : UInt8} {b : UInt8} (hd : ansicChar d = some b) (r : Bytes) :
      unescapeAnsic (('\\' : UInt8) :: d :: r) = prepend [b] (unescapeAnsic r) := by
    rw [unescapeAnsic.eq_def]
    simp [hbackslash, hd]
  unfold escapeAnsicChar
  split
  · next l hl => exact hstep (ansicChar_ansicLetter hl) r
  · split_ifs with hb hregular
    · exact hstep (hquote b hb) r
    · have hne : b ≠ '\'' ∧ b ≠ '\\' :=
        ⟨fun h => hb (by rw [h]; decide), fun h => hb (by rw [h]; decide)⟩
      rw [singleton_append, unescapeAnsic.eq_def]
      simp [hne.1, hne.2]
    · have hchar := hoctal (b >>> (6 : UInt8) ||| if b < 128 then 0 else 4)
      have hdigit := isOctal_octalDigit (b >>> (6 : UInt8) ||| if b < 128 then 0 else 4)
      have hread := readOctal_two (a := octalDigit (b >>> (6 : UInt8) ||| if b < 128 then 0 else 4))
        (isOctal_octalDigit (b >>> (3 : UInt8))) (isOctal_octalDigit b) r
      rw [octalValue_signedOctalDigits] at hread
      simp only [signedOctalDigits, cons_append, nil_append]
      rw [unescapeAnsic.eq_def]
      simp [hbackslash, hchar, hdigit, hread]

theorem unescapeAnsic_flatMap (s r : Bytes) :
    unescapeAnsic (s.flatMap escapeAnsicChar ++ ('\'' : UInt8) :: r) = some (s, r) := by
  induction s with
  | nil =>
    rw [flatMap_nil, nil_append, unescapeAnsic.eq_def]
    simp
  | cons b s ih =>
    rw [flatMap_cons, append_assoc, unescapeAnsic_escapeAnsicChar, ih]
    rfl

theorem unescapeDouble_escapeDoubleChar (looksOld : Bool) (c : UInt8) (r : Bytes) :
    unescapeDouble looksOld (escapeDoubleChar c ++ r) =
      prepend [c] (unescapeDouble looksOld r) := by
  have hescaped : ∀ c ∈ ascii "\"\\$`", c ∈ ascii "$`\"\\" := by decide
  have hspecial : ∀ c ∈ ascii "`$", charReqEscape c := by decide
  have hbackslash : ('\\' : UInt8) ≠ '"' ∧ ('\\' : UInt8) ∉ ascii "`$" := by decide
  unfold escapeDoubleChar
  split_ifs with hc
  · rw [cons_append, singleton_append, unescapeDouble.eq_def]
    simp [hbackslash, hescaped c (of_decide_eq_true hc)]
  · have hquote : c ≠ '"' := by
      rintro rfl
      exact hc rfl
    have hne : c ≠ '\\' := by
      rintro rfl
      exact hc rfl
    have hexpand : c ∉ ascii "`$" := fun hmem => hc (hspecial c hmem)
    rw [singleton_append, unescapeDouble.eq_def]
    simp [hquote, hexpand, hne]

theorem unescapeDouble_flatMap (looksOld : Bool) (s r : Bytes) :
    unescapeDouble looksOld (s.flatMap escapeDoubleChar ++ ('"' : UInt8) :: r) = some (s, r) := by
  induction s with
  | nil =>
    rw [flatMap_nil, nil_append, unescapeDouble.eq_def]
    simp
  | cons c s ih =>
    rw [flatMap_cons, append_assoc, unescapeDouble_escapeDoubleChar, ih]
    rfl

theorem svUnescapeLoop_bare (value : Bytes) {s : Bytes}
    (hs : ∀ c ∈ s, isRegular c ∧ ¬ charReqEscape c ∧ ¬ charReqQuotes c) :
    svUnescapeLoop value s = some s := by
  have hplain : ∀ c, isRegular c ∧ ¬ charReqEscape c ∧ ¬ charReqQuotes c →
      ¬ (isSpace c ∨ c = ';') ∧ c ≠ '\\' ∧ c ≠ '\'' ∧ c ≠ '"' ∧ c ≠ '$' ∧ c ∉ ascii "|&()<>" := by
    decide +kernel
  induction s with
  | nil => rw [svUnescapeLoop]
  | cons c s ih =>
    rw [forall_mem_cons] at hs
    obtain ⟨hspace, hbackslash, hsingle, hdouble, hdollar, hmeta⟩ := hplain c hs.1
    rw [svUnescapeLoop.eq_def]
    simp [hspace, hbackslash, hsingle, hdouble, hdollar, hmeta, ih hs.2]

theorem svUnescapeLoop_nil (value : Bytes) : svUnescapeLoop value [] = some [] := by
  rw [svUnescapeLoop]

theorem svUnescapeLoop_ansic {value s : Bytes} {u : Bytes × Bytes}
    (h : unescapeAnsic s = some u) :
    svUnescapeLoop value (ascii "$'" ++ s) = (svUnescapeLoop value u.2).map (u.1 ++ ·) := by
  have hdollar : ¬ (isSpace '$' ∨ ('$' : UInt8) = ';') ∧ ('$' : UInt8) ≠ '\\' ∧
      ('$' : UInt8) ≠ '\'' ∧ ('$' : UInt8) ≠ '"' := by decide
  have htext : ascii "$'" ++ s = ('$' : UInt8) :: ('\'' : UInt8) :: s := rfl
  rw [htext, svUnescapeLoop.eq_def]
  simp only [if_neg hdollar.1, if_neg hdollar.2.1, if_neg hdollar.2.2.1, if_neg hdollar.2.2.2,
    List.head?_cons, and_self, if_true, tail_cons]
  split
  · simp_all
  · next v hv =>
    obtain rfl : u = v := Option.some.inj (h.symm.trans hv)
    rfl

theorem svUnescapeLoop_double {value s : Bytes} {u : Bytes × Bytes}
    (h : unescapeDouble (looksLikeOldSvescaped value) s = some u) :
    svUnescapeLoop value (ascii "\"" ++ s) = (svUnescapeLoop value u.2).map (u.1 ++ ·) := by
  have hquote : ¬ (isSpace '"' ∨ ('"' : UInt8) = ';') ∧ ('"' : UInt8) ≠ '\\' ∧
      ('"' : UInt8) ≠ '\'' := by decide
  have htext : ascii "\"" ++ s = ('"' : UInt8) :: s := rfl
  rw [htext, svUnescapeLoop.eq_def]
  simp only [if_neg hquote.1, if_neg hquote.2.1, if_neg hquote.2.2, if_true]
  split
  · simp_all
  · next v hv =>
    obtain rfl : u = v := Option.some.inj (h.symm.trans hv)
    rfl

theorem svUnescapeLoop_svEscape (s : Bytes) :
    svUnescapeLoop (svEscape s) (svEscape s) = some s := by
  apply svEscape_cases (fun e => svUnescapeLoop e e = some s)
  · generalize hvalue : escapeAnsic s = value
    have hread := @svUnescapeLoop_ansic value _ _ (unescapeAnsic_flatMap s [])
    rw [svUnescapeLoop_nil, ← append_assoc] at hread
    rw [← hvalue] at hread ⊢
    exact hread.trans (by simp)
  · exact svUnescapeLoop_bare s
  · intro _
    generalize hvalue : ascii "\"" ++ s.flatMap escapeDoubleChar ++ ascii "\"" = value
    have hread := @svUnescapeLoop_double value _ _ (unescapeDouble_flatMap _ s [])
    rw [svUnescapeLoop_nil, ← append_assoc] at hread
    rw [← hvalue] at hread ⊢
    exact hread.trans (by simp)

theorem svUnescapeFull_svEscape {s : Bytes} (hs : NulFree s) :
    svUnescapeFull (svEscape s) false = some s := by
  have htake : s.takeWhile (fun c => decide (c ≠ 0)) = s := by
    rw [takeWhile_eq_self_iff]
    intro c hc
    rw [decide_eq_true_eq]
    rintro rfl
    exact hs hc
  rw [svUnescapeFull, svUnescapeLoop_svEscape]
  simpa using htake

theorem svUnescape_svEscape {s : Bytes} (hs : NulFree s) :
    svUnescape (svEscape s) = if isUtf8 s then some s else none := by
  have hfull := svUnescapeFull_svEscape hs
  rw [svUnescapeFull, svUnescapeLoop_svEscape] at hfull
  rw [svUnescape, svUnescapeFull, svUnescapeLoop_svEscape]
  by_cases hutf8 : isUtf8 s
  · simpa [hutf8] using hfull
  · simp [hutf8]

theorem escapeChar_quoted (c : UInt8) :
    (('\n' : UInt8) ∉ escapeAnsicChar c ∧
      (escapeAnsicChar c).foldlM shellStep .ansic = some .ansic) ∧
    (¬ charReqAnsic c → ('\n' : UInt8) ∉ escapeDoubleChar c ∧
      (escapeDoubleChar c).foldlM shellStep .double = some .double) := by
  have hback : ('\n' : UInt8) ≠ '\\' := by decide
  constructor
  · have hplain {c : UInt8} (hc : c ∉ ascii "\\\"'") : shellStep .ansic c = some .ansic := by
      simp_all [shellStep, ascii]
    have hstep : shellStep .ansic '\\' = some .ansicBackslash := rfl
    have hany (c : UInt8) : shellStep .ansicBackslash c = some .ansic := rfl
    have hspecial : ¬ isOctal '\n' ∧ ∀ d ∈ ascii "\\\"'", ¬ isOctal d := by decide
    have hdigit (b : UInt8) : '\n' ≠ octalDigit b ∧ shellStep .ansic (octalDigit b) = some .ansic :=
      ⟨fun h => hspecial.1 (h ▸ isOctal_octalDigit b),
        hplain fun h => hspecial.2 _ h (isOctal_octalDigit b)⟩
    unfold escapeAnsicChar
    split
    · next l hl =>
      have hl : '\n' ≠ l := by
        rintro rfl
        exact Option.some_ne_none c ((ansicChar_ansicLetter hl).symm.trans (by decide))
      simp [hstep, hany, hback, hl]
    · split_ifs with hb hregular
      · have hne : '\n' ≠ c := by
          rintro rfl
          exact absurd hb (by decide)
        simp [hstep, hany, hback, hne]
      · have hne : '\n' ≠ c := by
          rintro rfl
          exact absurd hregular (by decide)
        simp [hplain hb, hne]
      · simp [hstep, hany, hback, signedOctalDigits, hdigit]
  · intro h
    have hne : '\n' ≠ c := by
      rintro rfl
      exact h (by decide)
    unfold escapeDoubleChar
    split_ifs with hc
    · have hstep : shellStep .double '\\' = some .doubleBackslash := rfl
      have hnext : shellStep .doubleBackslash c = some .double := if_neg hne.symm
      simp [hstep, hnext, hback, hne]
    · have hplain : shellStep .double c = some .double := by
        simp_all [shellStep, charReqEscape, ascii]
      simp [hplain, hne]

theorem newline_notMem_svEscape (s : Bytes) : ('\n' : UInt8) ∉ svEscape s := by
  have hquotes : ('\n' : UInt8) ∉ ascii "$'" ∧ ('\n' : UInt8) ∉ ascii "'" ∧
      ('\n' : UInt8) ∉ ascii "\"" := by decide
  apply svEscape_cases fun e => ('\n' : UInt8) ∉ e
  · simp only [escapeAnsic, mem_append, mem_flatMap, not_or, not_exists, not_and]
    exact ⟨⟨hquotes.1, fun c _ => (escapeChar_quoted c).1.1⟩, hquotes.2.1⟩
  · intro hbare hnewline
    exact absurd (hbare _ hnewline).1 (by decide)
  · intro hall
    simp only [mem_append, mem_flatMap, not_or, not_exists, not_and]
    exact ⟨⟨hquotes.2.2, fun c hc => ((escapeChar_quoted c).2 (hall c hc)).1⟩, hquotes.2.2⟩

theorem isShellWord_svEscape (s : Bytes) : IsShellWord (svEscape s) := by
  have hbare : ∀ c, isRegular c ∧ ¬ charReqEscape c ∧ ¬ charReqQuotes c →
      [c].foldlM shellStep .unquoted = some .unquoted := by decide +kernel
  have hquotes : (ascii "$'").foldlM shellStep .unquoted = some .ansic ∧
      (ascii "'").foldlM shellStep .ansic = some .unquoted ∧
      (ascii "\"").foldlM shellStep .unquoted = some .double ∧
      (ascii "\"").foldlM shellStep .double = some .unquoted := by decide
  apply svEscape_cases IsShellWord
  · have hall := foldlM_flatMap_of_forall (s := s) fun c _ => (escapeChar_quoted c).1.2
    rw [IsShellWord, escapeAnsic, foldlM_append, foldlM_append, hquotes.1]
    simp [hall, hquotes.2.1]
  · intro hs
    have hall := foldlM_flatMap_of_forall (f := fun c => [c]) fun c hc => hbare c (hs c hc)
    rwa [flatMap_singleton'] at hall
  · intro hs
    have hall := foldlM_flatMap_of_forall fun c hc => ((escapeChar_quoted c).2 (hs c hc)).2
    rw [IsShellWord, foldlM_append, foldlM_append, hquotes.2.2.1]
    simp [hall, hquotes.2.2.2]

end NetworkManager.Settings
