import NetworkManager.Lib.Utf8

/-!
# Strings in key files

A string is stored with escape sequences for line breaks, backslashes and leading blanks, and for
the separator where it is an item of a list. What is stored is read back, and it is text exactly
if the string is.
-/

namespace NetworkManager.Lib

open List

/-- A character of `g_key_file_parse_string_as_value()`. -/
def escapeKeyFileChar (separator : Option UInt8) (leading : Bool) (c : UInt8) : Bytes :=
  if c = ' ' then (if leading then ascii "\\s" else [c])
  else if c = '\t' then (if leading then ascii "\\t" else [c])
  else if c = '\n' then ascii "\\n"
  else if c = '\r' then ascii "\\r"
  else if c = '\\' then ascii "\\\\"
  else if separator = some c then ['\\', c]
  else [c]

def leadingAfter (separator : Option UInt8) (leading : Bool) (c : UInt8) : Bool :=
  if c = ' ' ∨ c = '\t' ∨ c = '\n' ∨ c = '\r' then leading
  else if c = '\\' then false
  else separator = some c

/-- `g_key_file_parse_string_as_value()` -/
def escapeKeyFileString (separator : Option UInt8) : Bool → Bytes → Bytes
  | _, [] => []
  | leading, c :: s =>
    escapeKeyFileChar separator leading c ++
      escapeKeyFileString separator (leadingAfter separator leading c) s

/-- The character that an escape sequence stands for. -/
def unescapeKeyFileChar (c : UInt8) : Option UInt8 :=
  if c = 's' then some ' '
  else if c = 'n' then some '\n'
  else if c = 't' then some '\t'
  else if c = 'r' then some '\r'
  else if c = '\\' then some '\\'
  else none

/-- `g_key_file_parse_value_as_string()` without pieces. A sequence that is none stays. -/
def unescapeKeyFileString : Bytes → Bytes
  | [] => []
  | [c] => if c = '\\' then [] else [c]
  | c :: d :: s =>
    if c = '\\' then
      match unescapeKeyFileChar d with
      | some b => b :: unescapeKeyFileString s
      | none => c :: d :: unescapeKeyFileString s
    else c :: unescapeKeyFileString (d :: s)

/-- `g_key_file_set_string()`, the raw value. -/
def keyFileSetString (s : Bytes) : Bytes := escapeKeyFileString none true s

/-- `g_key_file_get_string()` of a raw value. -/
def keyFileGetString (value : Bytes) : Option Bytes :=
  if isUtf8 value then some (unescapeKeyFileString value) else none

/-! ## Lists of strings -/

/-- `g_key_file_set_string_list()`, the raw value. -/
def keyFileSetStringList (separator : UInt8) (list : List Bytes) : Bytes :=
  list.flatMap fun s => escapeKeyFileString (some separator) true s ++ [separator]

/-- The pieces of `g_key_file_parse_value_as_string()`, with the one that is being read. There is
no result if an escape sequence is none. -/
def keyFileSplitPieces (separator : UInt8) (piece : Bytes) : Bytes → Option (List Bytes)
  | [] => some (if piece = [] then [] else [piece])
  | [c] =>
    if c = '\\' then none
    else if c = separator then some [piece]
    else some [piece ++ [c]]
  | c :: d :: s =>
    if c = '\\' then
      match unescapeKeyFileChar d with
      | some b => keyFileSplitPieces separator (piece ++ [b]) s
      | none =>
        if d = separator then keyFileSplitPieces separator (piece ++ [d]) s else none
    else if c = separator then (keyFileSplitPieces separator [] (d :: s)).map (piece :: ·)
    else keyFileSplitPieces separator (piece ++ [c]) (d :: s)

/-- `g_key_file_get_string_list()` of a raw value. -/
def keyFileGetStringList (separator : UInt8) (value : Bytes) : Option (List Bytes) :=
  if isUtf8 value then keyFileSplitPieces separator [] value else none

/-! ## What is stored is read back -/

variable {c : UInt8}

theorem unescapeKeyFileString_cons (hc : c ≠ '\\') (s : Bytes) :
    unescapeKeyFileString (c :: s) = c :: unescapeKeyFileString s := by
  cases s with
  | nil => simp [unescapeKeyFileString, hc]
  | cons d s => rw [unescapeKeyFileString, if_neg hc]

theorem unescapeKeyFileString_escape {d b : UInt8} (h : unescapeKeyFileChar d = some b) (s : Bytes) :
    unescapeKeyFileString ('\\' :: d :: s) = b :: unescapeKeyFileString s := by
  rw [unescapeKeyFileString, if_pos rfl, h]

theorem unescape_escapeKeyFileChar (leading : Bool) (c : UInt8) (s : Bytes) :
    unescapeKeyFileString (escapeKeyFileChar none leading c ++ s) =
      c :: unescapeKeyFileString s := by
  have hblank : ∀ c : UInt8, c = ' ' ∨ c = '\t' → c ≠ '\\' := by decide
  unfold escapeKeyFileChar
  split_ifs with h₁ h₂ h₃ h₄ h₅ h₆ h₇ h₈
  · subst h₁
    exact unescapeKeyFileString_escape rfl s
  · exact unescapeKeyFileString_cons (hblank c (.inl h₁)) s
  · subst h₃
    exact unescapeKeyFileString_escape rfl s
  · exact unescapeKeyFileString_cons (hblank c (.inr h₃)) s
  · subst h₅
    exact unescapeKeyFileString_escape rfl s
  · subst h₆
    exact unescapeKeyFileString_escape rfl s
  · subst h₇
    exact unescapeKeyFileString_escape rfl s
  · exact absurd h₈ (by simp)
  · exact unescapeKeyFileString_cons h₇ s

theorem unescape_escapeKeyFileString (leading : Bool) (s : Bytes) :
    unescapeKeyFileString (escapeKeyFileString none leading s) = s := by
  induction s generalizing leading with
  | nil => rfl
  | cons c s ih => rw [escapeKeyFileString, unescape_escapeKeyFileChar, ih]

/-! ## Text -/

theorem escapeKeyFileChar_nonAscii {separator : Option UInt8} (leading : Bool)
    (hsep : ∀ b ∈ separator, isNonAscii b = false) (h : isNonAscii c) :
    escapeKeyFileChar separator leading c = [c] ∧ leadingAfter separator leading c = false := by
  have hplain : ∀ c : UInt8, isNonAscii c →
      c ≠ ' ' ∧ c ≠ '\t' ∧ c ≠ '\n' ∧ c ≠ '\r' ∧ c ≠ '\\' := by decide
  obtain ⟨h₁, h₂, h₃, h₄, h₅⟩ := hplain c h
  have hne : separator ≠ some c := by
    intro hc
    simp [hsep c hc] at h
  simp [escapeKeyFileChar, leadingAfter, h₁, h₂, h₃, h₄, h₅, hne]

variable {leading : Bool}

theorem escapeKeyFileString_nonAscii {separator : Option UInt8} {u s : Bytes}
    (hsep : ∀ b ∈ separator, isNonAscii b = false) (hu : ∀ b ∈ u, isNonAscii b) (hne : u ≠ []) :
    escapeKeyFileString separator leading (u ++ s) =
      u ++ escapeKeyFileString separator false s := by
  induction u generalizing leading with
  | nil => exact absurd rfl hne
  | cons c u ih =>
    obtain ⟨hc, hleading⟩ := escapeKeyFileChar_nonAscii leading hsep
      (hu c mem_cons_self)
    rw [cons_append, escapeKeyFileString, hc, hleading]
    by_cases hnil : u = []
    · subst hnil
      rfl
    · rw [ih (fun b hb => hu b (mem_cons_of_mem c hb)) hnil]
      rfl

theorem isNonAscii_escapeKeyFileChar {separator : Option UInt8} (h : isNonAscii c = false) :
    ∀ b ∈ escapeKeyFileChar separator leading c, isNonAscii b = false := by
  unfold escapeKeyFileChar
  split_ifs
  all_goals first | decide | simp [h, show isNonAscii '\\' = false by decide]

theorem utf8_escapeKeyFileString {separator : Option UInt8} {s : Bytes}
    (hsep : ∀ b ∈ separator, isNonAscii b = false) (h : Utf8 s) :
    Utf8 (escapeKeyFileString separator leading s) := by
  obtain ⟨cs, rfl⟩ := h
  induction cs generalizing leading with
  | nil => exact utf8_nil
  | cons c cs ih =>
    rw [flatMap_cons]
    rcases encodeChar_cases c with ⟨b, hb, hascii⟩ | hnon
    · rw [hb, singleton_append, escapeKeyFileString]
      exact (utf8_of_ascii (isNonAscii_escapeKeyFileChar hascii)).append ih
    · rw [escapeKeyFileString_nonAscii hsep hnon String.utf8EncodeChar_ne_nil]
      exact (utf8_encodeChar c).append ih

theorem nulFree_escapeKeyFileString {separator : Option UInt8} {s : Bytes} (h : NulFree s)
    : NulFree (escapeKeyFileString separator leading s) := by
  induction s generalizing leading with
  | nil => exact nulFree_nil
  | cons c s ih =>
    obtain ⟨hc, hs⟩ := nulFree_cons.mp h
    rw [escapeKeyFileString, nulFree_append]
    refine ⟨?_, ih hs⟩
    unfold escapeKeyFileChar
    split_ifs
    all_goals first
    | decide
    | simpa [NulFree, eq_comm, show ¬ ('\\' : UInt8) = 0 by decide] using hc

theorem isUtf8_escapeKeyFileString {separator : Option UInt8} (leading : Bool) {s : Bytes}
    (hsep : ∀ b ∈ separator, isNonAscii b = false) (h : isUtf8 s) :
    isUtf8 (escapeKeyFileString separator leading s) := by
  obtain ⟨htext, hnul⟩ := isUtf8_iff.mp h
  exact isUtf8_iff.mpr ⟨utf8_escapeKeyFileString hsep htext, nulFree_escapeKeyFileString hnul⟩

theorem unescapeKeyFileString_nonAscii {u s : Bytes} (hu : ∀ b ∈ u, isNonAscii b) :
    unescapeKeyFileString (u ++ s) = u ++ unescapeKeyFileString s := by
  have hplain : ∀ c : UInt8, isNonAscii c → c ≠ '\\' := by decide
  induction u with
  | nil => rfl
  | cons c u ih =>
    rw [cons_append, unescapeKeyFileString_cons (hplain c (hu c mem_cons_self)),
      ih fun b hb => hu b (mem_cons_of_mem c hb)]
    rfl

theorem unescapeKeyFileChar_ascii : ∀ c : UInt8, ∀ b ∈ unescapeKeyFileChar c,
    isNonAscii b = false ∧ b ≠ 0 := by
  intro c b hb
  unfold unescapeKeyFileChar at hb
  split_ifs at hb
  case neg => cases hb
  all_goals
    obtain rfl := Option.some.inj hb
    decide

theorem utf8_unescapeKeyFileString {s : Bytes} (h : Utf8 s) : Utf8 (unescapeKeyFileString s) := by
  obtain ⟨cs, rfl⟩ := h
  induction hn : cs.length using Nat.strong_induction_on generalizing cs with
  | _ n ih =>
    cases cs with
    | nil => exact utf8_nil
    | cons c cs =>
      have hrest := ih cs.length (by simp [← hn]) cs rfl
      rw [flatMap_cons]
      rcases encodeChar_cases c with ⟨b, hb, hascii⟩ | hnon
      · rw [hb, singleton_append]
        by_cases hslash : b = '\\'
        · subst hslash
          cases cs with
          | nil => exact utf8_nil
          | cons d ds =>
            have hrest' := ih ds.length (by rw [← hn, length_cons, length_cons]; omega) ds rfl
            rw [flatMap_cons]
            rcases encodeChar_cases d with ⟨e, he, heascii⟩ | hnon'
            · rw [he, singleton_append, unescapeKeyFileString, if_pos rfl]
              cases hd : unescapeKeyFileChar e with
              | some b =>
                exact (utf8_singleton (unescapeKeyFileChar_ascii e b hd).1).append hrest'
              | none =>
                exact (utf8_singleton hascii).append ((utf8_singleton heascii).append hrest')
            · obtain ⟨e, u, hu⟩ := exists_cons_of_ne_nil
                (String.utf8EncodeChar_ne_nil (c := d))
              have he : unescapeKeyFileChar e = none := by
                have hnone : ∀ e : UInt8, isNonAscii e → unescapeKeyFileChar e = none := by decide
                exact hnone e (hnon' e (by rw [hu]; exact mem_cons_self))
              have hskip := unescapeKeyFileString_nonAscii (s := ds.flatMap String.utf8EncodeChar)
                (u := u) fun b hb => hnon' b (by rw [hu]; exact mem_cons_of_mem e hb)
              rw [hu, cons_append, unescapeKeyFileString, if_pos rfl, he, hskip]
              have henc := utf8_encodeChar d
              rw [hu] at henc
              exact (utf8_singleton hascii).append (henc.append hrest')
        · rw [unescapeKeyFileString_cons hslash]
          exact (utf8_singleton hascii).append hrest
      · rw [unescapeKeyFileString_nonAscii hnon]
        exact (utf8_encodeChar c).append hrest

theorem nulFree_unescapeKeyFileString {s : Bytes} (h : NulFree s) :
    NulFree (unescapeKeyFileString s) := by
  induction s using unescapeKeyFileString.induct with
  | case1 => exact nulFree_nil
  | case2 => simpa [unescapeKeyFileString] using nulFree_nil
  | case3 c hc => simpa [unescapeKeyFileString, hc] using h
  | case4 d s b hb ih =>
    rw [unescapeKeyFileString_escape hb]
    obtain ⟨-, h⟩ := nulFree_cons.mp h
    exact nulFree_cons.mpr ⟨(unescapeKeyFileChar_ascii d b hb).2, ih (nulFree_cons.mp h).2⟩
  | case5 d s hd ih =>
    rw [unescapeKeyFileString, if_pos rfl, hd]
    obtain ⟨hc, h⟩ := nulFree_cons.mp h
    obtain ⟨hd, h⟩ := nulFree_cons.mp h
    exact nulFree_cons.mpr ⟨hc, nulFree_cons.mpr ⟨hd, ih h⟩⟩
  | case6 c d s hc ih =>
    rw [unescapeKeyFileString_cons hc]
    obtain ⟨hc, h⟩ := nulFree_cons.mp h
    exact nulFree_cons.mpr ⟨hc, ih h⟩

theorem keyFileGetString_setString (s : Bytes) :
    keyFileGetString (keyFileSetString s) = if isUtf8 s then some s else none := by
  unfold keyFileGetString keyFileSetString
  rw [unescape_escapeKeyFileString]
  by_cases h : isUtf8 s
  · rw [if_pos h, if_pos (isUtf8_escapeKeyFileString _ (by simp) h)]
  · rw [if_neg h, if_neg]
    intro hescaped
    obtain ⟨htext, hnul⟩ := isUtf8_iff.mp hescaped
    have htext' := utf8_unescapeKeyFileString htext
    have hnul' := nulFree_unescapeKeyFileString hnul
    rw [unescape_escapeKeyFileString] at htext' hnul'
    exact h (isUtf8_iff.mpr ⟨htext', hnul'⟩)

/-! ## Lists that are stored are read back -/

/-- An ASCII character that is not escaped otherwise. -/
structure IsListSeparator (c : UInt8) : Prop where
  plain : c ≠ ' ' ∧ c ≠ '\t' ∧ c ≠ '\n' ∧ c ≠ '\r' ∧ c ≠ '\\'
  escape : unescapeKeyFileChar c = none
  ascii : isNonAscii c = false
  ne_zero : c ≠ 0

section StringList

variable {separator : UInt8} {piece s : Bytes} {item : Bytes} {items : List Bytes}

theorem splitPieces_plain (hc : c ≠ '\\') (hsep : c ≠ separator) :
    keyFileSplitPieces separator piece (c :: s) =
      keyFileSplitPieces separator (piece ++ [c]) s := by
  cases s with
  | nil => simp [keyFileSplitPieces, hc, hsep]
  | cons d s => rw [keyFileSplitPieces, if_neg hc, if_neg hsep]

theorem splitPieces_escape {d b : UInt8} (h : unescapeKeyFileChar d = some b) :
    keyFileSplitPieces separator piece ('\\' :: d :: s) =
      keyFileSplitPieces separator (piece ++ [b]) s := by
  rw [keyFileSplitPieces, if_pos rfl, h]

theorem splitPieces_escapeKeyFileChar (h : IsListSeparator separator) (leading : Bool) (c : UInt8) :
    keyFileSplitPieces separator piece (escapeKeyFileChar (some separator) leading c ++ s) =
      keyFileSplitPieces separator (piece ++ [c]) s := by
  have hblank : ∀ c : UInt8, c = ' ' ∨ c = '\t' → c ≠ '\\' := by decide
  unfold escapeKeyFileChar
  split_ifs with h₁ h₂ h₃ h₄ h₅ h₆ h₇ h₈
  · subst h₁
    exact splitPieces_escape rfl
  · exact splitPieces_plain (hblank c (.inl h₁)) (by rintro rfl; exact h.plain.1 h₁)
  · subst h₃
    exact splitPieces_escape rfl
  · exact splitPieces_plain (hblank c (.inr h₃)) (by rintro rfl; exact h.plain.2.1 h₃)
  · subst h₅
    exact splitPieces_escape rfl
  · subst h₆
    exact splitPieces_escape rfl
  · subst h₇
    exact splitPieces_escape rfl
  · obtain rfl := Option.some.inj h₈
    rw [cons_append, cons_append, nil_append, keyFileSplitPieces, if_pos rfl,
      h.escape]
    exact if_pos rfl
  · exact splitPieces_plain h₇ (by rintro rfl; exact h₈ rfl)

theorem splitPieces_escapeKeyFileString (h : IsListSeparator separator) (piece s : Bytes)
    (leading : Bool) (item : Bytes) :
    keyFileSplitPieces separator piece (escapeKeyFileString (some separator) leading item ++ s) =
      keyFileSplitPieces separator (piece ++ item) s := by
  induction item generalizing leading piece with
  | nil => simp [escapeKeyFileString]
  | cons c item ih =>
    rw [escapeKeyFileString, append_assoc, splitPieces_escapeKeyFileChar h, ih]
    simp

theorem splitPieces_separator (h : IsListSeparator separator) (hs : s ≠ []) :
    keyFileSplitPieces separator piece (separator :: s) =
      (keyFileSplitPieces separator [] s).map (piece :: ·) := by
  obtain ⟨d, s, rfl⟩ := exists_cons_of_ne_nil hs
  rw [keyFileSplitPieces, if_neg h.plain.2.2.2.2, if_pos rfl]

theorem escapeKeyFileString_ne_nil (h : item ≠ []) :
    escapeKeyFileString (some separator) leading item ≠ [] := by
  obtain ⟨c, item, rfl⟩ := exists_cons_of_ne_nil h
  rw [escapeKeyFileString]
  unfold escapeKeyFileChar
  split_ifs <;> simp [ascii]

theorem setStringList_cons (item : Bytes) (items : List Bytes) :
    keyFileSetStringList separator (item :: items) =
      escapeKeyFileString (some separator) true item ++
        separator :: keyFileSetStringList separator items := by
  simp [keyFileSetStringList]

theorem dropLast_setStringList (items : List Bytes) (item : Bytes) :
    (keyFileSetStringList separator (items ++ [item])).dropLast =
      keyFileSetStringList separator items ++ escapeKeyFileString (some separator) true item := by
  simp [keyFileSetStringList, ← append_assoc]

theorem splitPieces_setStringList (h : IsListSeparator separator) (hitem : item ≠ []) :
    keyFileSplitPieces separator [] (keyFileSetStringList separator items ++
      escapeKeyFileString (some separator) true item) = some (items ++ [item]) := by
  induction items with
  | nil =>
    have hread := splitPieces_escapeKeyFileString h [] [] true item
    rw [append_nil, nil_append, keyFileSplitPieces, if_neg hitem] at hread
    exact hread
  | cons i items ih =>
    have hrest : keyFileSetStringList separator items ++
        escapeKeyFileString (some separator) true item ≠ [] :=
      append_ne_nil_of_right_ne_nil _ (escapeKeyFileString_ne_nil hitem)
    rw [setStringList_cons, append_assoc, splitPieces_escapeKeyFileString h [],
      nil_append, cons_append, splitPieces_separator h hrest, ih]
    rfl

theorem isUtf8_setStringList (h : IsListSeparator separator) (hitems : ∀ item ∈ items, isUtf8 item)
    : isUtf8 (keyFileSetStringList separator items) := by
  have hsep : ∀ b ∈ some separator, isNonAscii b = false := by
    intro b hb
    obtain rfl := Option.some.inj hb
    exact h.ascii
  induction items with
  | nil => exact isUtf8_iff.mpr ⟨utf8_nil, nulFree_nil⟩
  | cons item items ih =>
    have hrest := ih fun i hi => hitems i (mem_cons_of_mem item hi)
    have hitem := isUtf8_escapeKeyFileString true hsep
      (hitems item mem_cons_self)
    rw [isUtf8_iff] at hrest hitem ⊢
    rw [setStringList_cons]
    refine ⟨hitem.1.append ((utf8_singleton h.ascii).append hrest.1), ?_⟩
    exact nulFree_append.mpr ⟨hitem.2, nulFree_cons.mpr ⟨h.ne_zero, hrest.2⟩⟩

end StringList

end NetworkManager.Lib
