import NetworkManager.GlibAux.StrsplitSet

/-!
# Escaped tokens

`nm_utils_escaped_tokens_escape_full()` puts backslashes into a string so that it can be found
again with `nm_strsplit_set_full()`, or with `nm_utils_escaped_tokens_options_split()` if it is
the key or the value of an option. Both remove blanks around what they find.
-/

namespace NetworkManager.GlibAux

open Lib List

/-! ## Escaping a string -/

structure EscapedTokensEscapeFlags where
  escapeSpaces : Bool
  escapeLeadingSpace : Bool
  escapeTrailingSpace : Bool
  escapeBackslashAsNeeded : Bool
  escapeBackslashAlways : Bool
  deriving DecidableEq

def asciiSpaces : Bytes := ascii " \n\t\r\x0c"

/-- The lookup tables, and the flags as far as they are left. -/
structure EscapeTables where
  lookup : Bytes
  lookupAsNeeded : Bytes
  backslashAsNeeded : Bool
  leadingSpace : Bool
  trailingSpace : Bool
  deriving DecidableEq

def EscapeTables.init (delimiters delimitersAsNeeded : Option Bytes)
    (flags : EscapedTokensEscapeFlags) : EscapeTables :=
  let spaces : Bool := delimiters = none ∨ flags.escapeSpaces
  let leadingSpace := flags.escapeLeadingSpace && !spaces
  let trailingSpace := flags.escapeTrailingSpace && !spaces
  let lookup := delimiters.getD [] ++ (if spaces then asciiSpaces else []) ++
    if flags.escapeBackslashAlways then ascii "\\" else []
  let backslashAsNeeded : Bool := ('\\' : UInt8) ∉ lookup ∧ flags.escapeBackslashAsNeeded
  let lookupAsNeeded :=
    (if (leadingSpace ∨ trailingSpace) ∧ ¬ asciiSpaces ⊆ lookup then asciiSpaces else []) ++
      match delimitersAsNeeded with
      | none => []
      | some delimiters => if delimiters ⊆ lookup then [] else delimiters
  ⟨lookup, if backslashAsNeeded then lookupAsNeeded else [], backslashAsNeeded, leadingSpace,
    trailingSpace⟩

namespace EscapeTables

variable (t : EscapeTables)

def needsEscape (c : UInt8) (next : Option UInt8) : Bool :=
  c ∈ t.lookup ∨ (c = '\\' ∧ t.backslashAsNeeded ∧
    ∀ d ∈ next, d ∈ t.lookup ∨ d = '\\' ∨ d ∈ t.lookupAsNeeded)

def escapeChar (c : UInt8) (next : Option UInt8) : Bytes :=
  if t.needsEscape c next then [('\\' : UInt8), c] else [c]

def escapeChars (next : Option UInt8) : Bytes → Bytes
  | [] => []
  | c :: s => t.escapeChar c (s.head?.or next) ++ escapeChars next s

def escape (str : Bytes) : Bytes :=
  match str with
  | [] => []
  | c :: s =>
    let escapeLeadingSpace : Bool := t.leadingSpace ∧ isSpace c ∧ c ∉ t.lookup
    let escapeTrailingSpace : Bool := s ≠ [] ∧ t.trailingSpace ∧
      ∃ d ∈ (c :: s).getLast?, isSpace d ∧ d ∉ t.lookup
    let ret :=
      if escapeLeadingSpace then ('\\' : UInt8) :: c :: t.escapeChars none s
      else t.escapeChars none (c :: s)
    if escapeTrailingSpace then ret.dropLast ++ ('\\' : UInt8) :: ret.getLast?.toList else ret

end EscapeTables

def escapedTokensEscapeFull (str : Bytes) (delimiters delimitersAsNeeded : Option Bytes)
    (flags : EscapedTokensEscapeFlags) : Bytes :=
  (EscapeTables.init delimiters delimitersAsNeeded flags).escape str

def escapedTokensSplit (str delimiters : Bytes) : Option (List Bytes) :=
  strsplitSetFull delimiters ⟨false, false, true, true⟩ (some str)

/-! ## Options -/

def optionsEscapeKey (key : Bytes) : Bytes :=
  escapedTokensEscapeFull key (some (ascii ",=")) none ⟨false, true, true, true, false⟩

def optionsEscapeVal (val : Bytes) : Bytes :=
  escapedTokensEscapeFull val (some (ascii ",")) (some (ascii "=")) ⟨false, true, true, true, false⟩

def optionsSplitList (str : Bytes) : Option (List Bytes) :=
  strsplitSetFull (ascii ",") ⟨false, true, true, false⟩ (some str)

def isOptionEscaped (c : UInt8) : Bool := c ∈ ascii "\\,=" ∨ isSpace c

def cutSpaces (s : Bytes) (lastSpace : Option ℕ) : Bytes :=
  match lastSpace with
  | none => s
  | some n => s.take n

/-- The loop of `nm_utils_escaped_tokens_options_split()`, with the key once it is complete, and
what was found of the key or the value since. -/
def optionsSplitLoop (key : Option Bytes) (found : Bytes) (lastSpace : Option ℕ) :
    Bytes → Bytes × Option Bytes
  | [] =>
    match key with
    | none => (cutSpaces found lastSpace, none)
    | some key => (key, some (cutSpaces found lastSpace))
  | c :: s =>
    if isSpace c then optionsSplitLoop key (found ++ [c]) (lastSpace.or (some found.length)) s
    else if c = '\\' then
      match s with
      | [] => optionsSplitLoop key (found ++ [c]) none []
      | d :: s =>
        if isOptionEscaped d then optionsSplitLoop key (found ++ [d]) none s
        else optionsSplitLoop key (found ++ [c]) none (d :: s)
    else if c = '=' ∧ key = none then
      optionsSplitLoop (some (cutSpaces found lastSpace)) [] none (skipSpaces s)
    else optionsSplitLoop key (found ++ [c]) none s
  termination_by s => s.length
  decreasing_by
    all_goals simp_all [skipSpaces]
    all_goals have hlength := (dropWhile_sublist isSpace (l := s)).length_le
    all_goals omega

/-- `nm_utils_escaped_tokens_options_split()`: the key, and the value if there is one. -/
def optionsSplit (str : Bytes) : Bytes × Option Bytes :=
  optionsSplitLoop none [] none (skipSpaces str)

/-!
## Escaped tokens are found again

A string in which every backslash belongs to a pair is divided nowhere inside, and blanks are
stripped from it neither at the front nor at the end, unless they are not escaped there. So a
list is found again between the delimiters and blanks around its escaped tokens, and a key and
its value are found again before and after the first `=` that is not escaped.
-/

/-! ## Strings of pairs -/

/-- A string is escaped as another one: special characters have a backslash, and a backslash
without one comes before a character that is not special. -/
inductive EscapedToken (delimiters : Bytes) (special : UInt8 → Bool) : Bytes → Bytes → Prop
  | nil : EscapedToken delimiters special [] []
  | char {c : UInt8} {r s : Bytes} (hc : c ∉ delimiters) (hbackslash : c ≠ '\\')
      (hr : EscapedToken delimiters special r s) : EscapedToken delimiters special (c :: r) (c :: s)
  | pair {d : UInt8} {r s : Bytes} (hd : special d) (hr : EscapedToken delimiters special r s) :
      EscapedToken delimiters special ('\\' :: d :: r) (d :: s)
  | raw {d : UInt8} {r s : Bytes} (hd : ¬ special d) (hr : EscapedToken delimiters special r s) :
      EscapedToken delimiters special ('\\' :: d :: r) ('\\' :: d :: s)

/-- The last character is not a blank that could be stripped. -/
def EndsSolid (r : Bytes) : Prop := ∃ x c, r = x ++ [c] ∧ (isSpace c → charIsEscaped x.reverse)

theorem charIsEscaped_append {before : Bytes} (h : charIsEscaped before = false) (r : Bytes) :
    charIsEscaped (r ++ before) = charIsEscaped r := by
  induction r with
  | nil => exact h
  | cons c r ih =>
    by_cases hc : c = '\\'
    · rw [hc, cons_append, charIsEscaped_backslash, charIsEscaped_backslash, ih]
    · rw [cons_append, charIsEscaped_cons_of_ne hc, charIsEscaped_cons_of_ne hc]

theorem EndsSolid.append {r : Bytes} (h : EndsSolid r) {q : Bytes}
    (hq : charIsEscaped q.reverse = false) : EndsSolid (q ++ r) := by
  obtain ⟨x, c, rfl, hc⟩ := h
  refine ⟨q ++ x, c, (append_assoc q x [c]).symm, fun hspace => ?_⟩
  rw [reverse_append, charIsEscaped_append hq]
  exact hc hspace

theorem EndsSolid.of_append {q r : Bytes} (h : EndsSolid (q ++ r)) (hr : r ≠ [])
    (hq : charIsEscaped q.reverse = false) : EndsSolid r := by
  obtain ⟨x, c, hx, hc⟩ := h
  rcases r.eq_nil_or_concat with rfl | ⟨y, d, rfl⟩
  · exact absurd rfl hr
  · rw [concat_eq_append, ← append_assoc] at hx
    obtain ⟨rfl, hd⟩ := append_inj' hx rfl
    obtain rfl := singleton_inj.mp hd
    rw [reverse_append, charIsEscaped_append hq] at hc
    exact ⟨y, d, concat_eq_append, hc⟩

theorem EndsSolid.ne_nil {r : Bytes} (h : EndsSolid r) : r ≠ [] := by
  obtain ⟨x, c, rfl, -⟩ := h
  exact concat_ne_nil c x

theorem endsSolid_pair (d : UInt8) : EndsSolid ['\\', d] :=
  ⟨['\\'], d, rfl, fun _ => rfl⟩

namespace EscapedToken

variable {delimiters : Bytes} {special : UInt8 → Bool} {r s : Bytes} {flags : StrsplitSetFlags}

section

variable (h : EscapedToken delimiters special r s)

include h

theorem append {r' s' : Bytes} (h' : EscapedToken delimiters special r' s') :
    EscapedToken delimiters special (r ++ r') (s ++ s') := by
  induction h with
  | nil => exact h'
  | char hc hbackslash _ ih => exact .char hc hbackslash ih
  | pair hd _ ih => exact .pair hd ih
  | raw hd _ ih => exact .raw hd ih

theorem mono {delimiters' : Bytes} (hsub : delimiters' ⊆ delimiters)
    : EscapedToken delimiters' special r s := by
  induction h with
  | nil => exact .nil
  | char hc hbackslash _ ih => exact .char (fun hmem => hc (hsub hmem)) hbackslash ih
  | pair hd _ ih => exact .pair hd ih
  | raw hd _ ih => exact .raw hd ih

theorem closed : charIsEscaped r.reverse = false := by
  have hafter : ∀ before, charIsEscaped before = false →
      charIsEscaped (r.reverse ++ before) = false := by
    induction h with
    | nil => exact fun _ hbefore => hbefore
    | char hc hbackslash _ ih =>
      intro before _
      rw [reverse_cons, append_assoc]
      exact ih _ (charIsEscaped_cons_of_ne hbackslash before)
    | pair hd _ ih | raw hd _ ih =>
      intro before hbefore
      rw [reverse_cons, reverse_cons, append_assoc, append_assoc]
      exact ih _ (charIsEscaped_pair hbefore _)
  simpa using hafter [] charIsEscaped_nil

theorem unbroken (hescape : flags.escaping) (hdelim : ('\\' : UInt8) ∉ delimiters)
    : Unbroken delimiters flags r := by
  induction h with
  | nil => exact .nil
  | char hc hbackslash _ ih => exact .char hc (fun h => hbackslash h.1) ih
  | pair hd _ ih | raw hd _ ih => exact .pair hdelim hescape ih

end

theorem unescape (h : EscapedToken delimiters (isUnescaped delimiters flags) r s) :
    unescapeToken delimiters flags r = s := by
  have hchar {c : UInt8} (hc : c ≠ '\\') (r : Bytes) :
      unescapeToken delimiters flags (c :: r) = c :: unescapeToken delimiters flags r := by
    cases r with
    | nil => rfl
    | cons d r => simp [unescapeToken, hc]
  induction h with
  | nil => rfl
  | char hc hbackslash _ ih => rw [hchar hbackslash, ih]
  | pair hd _ ih => simp [unescapeToken, hd, ih]
  | @raw d r s hd _ ih =>
    have hne : d ≠ '\\' := by
      rintro rfl
      simp [isUnescaped] at hd
    have hstep : unescapeToken delimiters flags (('\\' : UInt8) :: d :: r) =
        ('\\' : UInt8) :: unescapeToken delimiters flags (d :: r) := by
      simp [unescapeToken, hd]
    rw [hstep, hchar hne, ih]

end EscapedToken

/-! ## Tokens between gaps -/

variable {d : UInt8}

section Tokens

variable (delimiters : Bytes) (flags : StrsplitSetFlags)

/-- A string that is a token as it is. -/
structure TrimmedToken (r : Bytes) : Prop where
  unbroken : Unbroken delimiters flags r
  closed : charIsEscaped r.reverse = false
  head : ∀ c ∈ r.head?, ¬ isSpace c
  solid : EndsSolid r

/-- Delimiters and blanks. -/
def IsGap (gap : Bytes) : Prop := ∀ c ∈ gap, c ∈ delimiters ∨ isSpace c

/-- A text that consists of tokens, with gaps around them and a delimiter between two tokens. -/
inductive JoinedTokens : List Bytes → Bytes → Prop
  | nil {gap : Bytes} (hgap : IsGap delimiters gap) : JoinedTokens [] gap
  | single {before r after : Bytes} (hbefore : IsGap delimiters before)
      (hafter : IsGap delimiters after) : JoinedTokens [r] (before ++ r ++ after)
  | cons {before r after : Bytes} {d : UInt8} {rs : List Bytes} {s : Bytes}
      (hbefore : IsGap delimiters before) (hafter : IsGap delimiters after) (hd : d ∈ delimiters)
      (hs : JoinedTokens rs s) : JoinedTokens (r :: rs) (before ++ r ++ after ++ d :: s)

def strippedTokens (skip : Bool) (s : Bytes) : List Bytes :=
  ((splitTokens delimiters flags skip s).map (stripToken flags)).filter (· ≠ [])

variable {delimiters flags} {blanks : Bytes}

theorem TrimmedToken.ne_nil {r : Bytes} (h : TrimmedToken delimiters flags r) : r ≠ [] :=
  h.solid.ne_nil

theorem TrimmedToken.strip (hescape : flags.escaping) {r : Bytes}
    (h : TrimmedToken delimiters flags r) (hblanks : ∀ c ∈ blanks, isSpace c) :
    stripToken flags (r ++ blanks) = r := by
  have htrail (blanks : Bytes) (hblanks : ∀ c ∈ blanks, isSpace c) :
      stripTrailing flags (blanks ++ r.reverse) = r.reverse := by
    induction blanks with
    | nil =>
      obtain ⟨x, c, rfl, hc⟩ := h.solid
      rw [nil_append, reverse_append, reverse_singleton, singleton_append,
        stripTrailing]
      simp only [hescape, true_and]
      split_ifs with hstrip
      · exact absurd (hc hstrip.2.1) hstrip.2.2
      · rfl
    | cons c blanks ih =>
      rw [forall_mem_cons] at hblanks
      have hopen : charIsEscaped (blanks ++ r.reverse) = false := by
        cases blanks with
        | nil => exact h.closed
        | cons d blanks =>
          exact charIsEscaped_cons_of_ne (ne_backslash_of_isSpace (hblanks.2 d mem_cons_self)) _
      have hne : blanks ++ r.reverse ≠ [] := by simp [h.ne_nil]
      rw [cons_append, stripTrailing]
      simp only [hne, hblanks.1, hopen, ne_eq, not_false_eq_true, Bool.false_eq_true, and_false,
        and_self, if_true]
      exact ih hblanks.2
  have hskip : skipSpaces (r ++ blanks) = r ++ blanks := by
    cases r with
    | nil => exact absurd rfl h.ne_nil
    | cons c r => exact dropWhile_cons_of_neg (h.head c rfl)
  have hreverse := htrail blanks.reverse fun c hc => hblanks c (mem_reverse.mp hc)
  rw [stripToken, hskip, reverse_append, hreverse, reverse_reverse]

theorem TrimmedToken.unbroken_blanks {r : Bytes} (h : TrimmedToken delimiters flags r)
    (hblanks : ∀ c ∈ blanks, isSpace c ∧ c ∉ delimiters) :
    Unbroken delimiters flags (r ++ blanks) := by
  have hend : Unbroken delimiters flags blanks := by
    induction blanks with
    | nil => exact .nil
    | cons c blanks ih =>
      rw [forall_mem_cons] at hblanks
      exact .char hblanks.1.2 (fun h => ne_backslash_of_isSpace hblanks.1.1 h.1) (ih hblanks.2)
  exact h.unbroken.append hend

theorem stripToken_blank {c : UInt8} (hc : isSpace c) (s : Bytes) :
    stripToken flags (c :: s) = stripToken flags s := by
  have hskip : skipSpaces (c :: s) = skipSpaces s := dropWhile_cons_of_pos hc
  rw [stripToken, stripToken, hskip]

theorem stripToken_nil : stripToken flags [] = [] := rfl

theorem strippedTokens_cons_nil (tokens : List Bytes) :
    (([] :: tokens).map (stripToken flags)).filter (· ≠ []) =
      (tokens.map (stripToken flags)).filter (· ≠ []) := by
  rw [map_cons, stripToken_nil, filter_cons_of_neg (by simp)]

theorem strippedTokens_skip (hempty : flags.preserveEmpty = false) (s : Bytes) :
    strippedTokens delimiters flags true s = strippedTokens delimiters flags false s := by
  unfold strippedTokens
  cases s with
  | nil => rfl
  | cons c s =>
    by_cases hc : c ∈ delimiters
    · rw [splitTokens_skip hc, splitTokens_delimiter hc, strippedTokens_cons_nil, hempty,
        Bool.not_false]
    · rw [splitTokens.eq_def, splitTokens.eq_def]
      simp only [if_neg hc]

theorem strippedTokens_gap (hempty : flags.preserveEmpty = false) {gap : Bytes}
    (hgap : IsGap delimiters gap) (s : Bytes) :
    strippedTokens delimiters flags false (gap ++ s) = strippedTokens delimiters flags false s := by
  induction gap with
  | nil => rfl
  | cons c gap ih =>
    have hrest := ih fun d hd => hgap d (mem_cons_of_mem c hd)
    rw [cons_append, ← hrest]
    by_cases hc : c ∈ delimiters
    · rw [← strippedTokens_skip hempty (gap ++ s)]
      unfold strippedTokens
      rw [splitTokens_delimiter hc, strippedTokens_cons_nil, hempty, Bool.not_false]
    · have hblank : isSpace c := (hgap c mem_cons_self).resolve_left hc
      unfold strippedTokens
      rw [splitTokens_char hc fun h => ne_backslash_of_isSpace hblank h.1]
      cases splitTokens delimiters flags false (gap ++ s) with
      | nil => rfl
      | cons token tokens =>
        rw [modifyHead_cons, map_cons, map_cons, stripToken_blank hblank]

theorem TrimmedToken.split_delimiter (hescape : flags.escaping)
    (hempty : flags.preserveEmpty = false) {r : Bytes} (h : TrimmedToken delimiters flags r)
    (hblanks : ∀ c ∈ blanks, isSpace c ∧ c ∉ delimiters) (hd : d ∈ delimiters) (s : Bytes) :
    strippedTokens delimiters flags false (r ++ blanks ++ d :: s) =
      r :: strippedTokens delimiters flags false s := by
  have hunbroken := h.unbroken_blanks hblanks
  have hstrip := h.strip hescape fun c hc => (hblanks c hc).1
  rw [← strippedTokens_skip hempty s]
  unfold strippedTokens
  rw [hunbroken.split_delimiter hd, map_cons, hstrip, hempty, Bool.not_false,
    filter_cons_of_pos (by simp [h.ne_nil])]

theorem TrimmedToken.split_blanks (hescape : flags.escaping) {r : Bytes}
    (h : TrimmedToken delimiters flags r) (hblanks : ∀ c ∈ blanks, isSpace c ∧ c ∉ delimiters) :
    strippedTokens delimiters flags false (r ++ blanks) = [r] := by
  have hunbroken := h.unbroken_blanks hblanks
  have hstrip := h.strip hescape fun c hc => (hblanks c hc).1
  unfold strippedTokens
  rw [hunbroken.split, map_singleton, hstrip, filter_cons_of_pos (by simp [h.ne_nil]),
    filter_nil]

theorem IsGap.cases {gap : Bytes} (h : IsGap delimiters gap) :
    (∀ c ∈ gap, isSpace c ∧ c ∉ delimiters) ∨
      ∃ blanks d rest, gap = blanks ++ d :: rest ∧ (∀ c ∈ blanks, isSpace c ∧ c ∉ delimiters) ∧
        d ∈ delimiters ∧ IsGap delimiters rest := by
  induction gap with
  | nil => exact .inl fun c hc => absurd hc not_mem_nil
  | cons c gap ih =>
    have hrest : IsGap delimiters gap := fun d hd => h d (mem_cons_of_mem c hd)
    by_cases hc : c ∈ delimiters
    · exact .inr ⟨[], c, gap, rfl, fun c hc => absurd hc not_mem_nil, hc, hrest⟩
    · have hspace : isSpace c := (h c mem_cons_self).resolve_left hc
      rcases ih hrest with hall | ⟨blanks, d, rest, rfl, hblanks, hd, hgap⟩
      · exact .inl (forall_mem_cons.mpr ⟨⟨hspace, hc⟩, hall⟩)
      · exact .inr ⟨c :: blanks, d, rest, rfl,
          forall_mem_cons.mpr ⟨⟨hspace, hc⟩, hblanks⟩, hd, hgap⟩

theorem JoinedTokens.stripped (hescape : flags.escaping) (hempty : flags.preserveEmpty = false)
    {rs : List Bytes} {text : Bytes} (h : JoinedTokens delimiters rs text)
    (hrs : ∀ r ∈ rs, TrimmedToken delimiters flags r) :
    strippedTokens delimiters flags false text = rs := by
  have hnil : strippedTokens delimiters flags false [] = [] := rfl
  induction h with
  | @nil gap hgap =>
    have hstripped := @strippedTokens_gap _ flags hempty _ hgap []
    rwa [append_nil, hnil] at hstripped
  | @single before r after hbefore hafter =>
    have hr := hrs r mem_cons_self
    rw [append_assoc, strippedTokens_gap hempty hbefore]
    rcases hafter.cases with hblanks | ⟨blanks, d, rest, rfl, hblanks, hd, hgap⟩
    · exact hr.split_blanks hescape hblanks
    · have hstripped := @strippedTokens_gap _ flags hempty _ hgap []
      rw [append_nil, hnil] at hstripped
      rw [← append_assoc, hr.split_delimiter hescape hempty hblanks hd, hstripped]
  | @cons before r after d rs s hbefore hafter hd _ ih =>
    rw [forall_mem_cons] at hrs
    have hs := ih hrs.2
    rw [append_assoc, append_assoc, strippedTokens_gap hempty hbefore]
    rcases hafter.cases with hblanks | ⟨blanks, d', rest, rfl, hblanks, hd', hgap⟩
    · rw [← append_assoc, hrs.1.split_delimiter hescape hempty hblanks hd, hs]
    · have hgap' : IsGap delimiters (rest ++ [d]) := by
        intro c hc
        rcases mem_append.mp hc with hc | hc
        · exact hgap c hc
        · exact .inl (mem_singleton.mp hc ▸ hd)
      have hstripped := @strippedTokens_gap _ flags hempty _ hgap' s
      rw [append_assoc, singleton_append, hs] at hstripped
      rw [append_assoc, cons_append, ← append_assoc,
        hrs.1.split_delimiter hescape hempty hblanks hd', hstripped]

theorem strsplitSetFull_eq (hstrip : flags.strstrip) (hempty : flags.preserveEmpty = false)
    (s : Bytes) :
    (strsplitSetFull delimiters flags (some s)).getD [] =
      if flags.escaped then
        (strippedTokens delimiters flags false s).map (unescapeToken delimiters flags)
      else strippedTokens delimiters flags false s := by
  have hskipped : strippedTokens delimiters flags false (s.dropWhile (· ∈ delimiters)) =
      strippedTokens delimiters flags false s := by
    have hgap : IsGap delimiters (s.takeWhile (· ∈ delimiters)) := fun c hc =>
      .inl (by simpa using mem_takeWhile_imp hc)
    have hstripped := @strippedTokens_gap _ flags hempty _ hgap
      (s.dropWhile (· ∈ delimiters))
    rw [takeWhile_append_dropWhile] at hstripped
    exact hstripped.symm
  simp only [strsplitSetFull, hempty, hstrip, Bool.false_eq_true, if_false, if_true, false_or]
  rw [← hskipped]
  generalize s.dropWhile (· ∈ delimiters) = rest
  by_cases hrest : rest = []
  · subst hrest
    simp [strippedTokens, splitTokens, stripToken_nil]
  · rw [if_neg hrest]
    change Option.getD (if strippedTokens delimiters flags false rest = [] then none else _) [] = _
    split_ifs with hnil hescaped <;> simp_all [strippedTokens]

end Tokens

/-! ## What is written -/

/-- The tables fit what is looked for later: the delimiters, and the special characters, before
which a backslash is removed. -/
structure EscapeTables.Fits (t : EscapeTables) (delimiters : Bytes) (special : UInt8 → Bool) :
    Prop where
  delimiters : delimiters ⊆ t.lookup
  lookup : ∀ c ∈ t.lookup, special c
  backslash : special '\\'
  space : ∀ c, isSpace c → special c
  blank : ∀ c, isSpace c → c ∈ t.lookup ∨ t.leadingSpace ∧ t.trailingSpace
  asNeeded : ('\\' : UInt8) ∈ t.lookup ∨ t.backslashAsNeeded ∧
    ∀ c, special c → c ∈ t.lookup ∨ c = '\\' ∨ c ∈ t.lookupAsNeeded

namespace EscapeTables.Fits

variable {t : EscapeTables} {delimiters : Bytes} {special : UInt8 → Bool}

theorem escapeChar_cases (h : t.Fits delimiters special) (c : UInt8) (next : Option UInt8) :
    (t.escapeChar c next = [('\\' : UInt8), c] ∧ special c) ∨
      (t.escapeChar c next = [c] ∧ c ∉ t.lookup ∧
        (c = '\\' → ∃ d ∈ next, ¬ special d ∧ d ∉ t.lookup)) := by
  unfold escapeChar
  split_ifs with hneeds
  · refine .inl ⟨rfl, ?_⟩
    simp only [needsEscape, decide_eq_true_eq] at hneeds
    rcases hneeds with hc | ⟨rfl, -⟩
    · exact h.lookup c hc
    · exact h.backslash
  · simp only [needsEscape, decide_eq_true_eq, not_or] at hneeds
    obtain ⟨hc, hnext⟩ := hneeds
    refine .inr ⟨rfl, hc, fun hbackslash => ?_⟩
    obtain ⟨hasNeeded, hspecial⟩ := h.asNeeded.resolve_left (hbackslash ▸ hc)
    simp only [hbackslash, hasNeeded, true_and, not_forall, not_or] at hnext
    obtain ⟨d, hd, hlookup, hne, hneeded⟩ := hnext
    exact ⟨d, hd, fun hd => by simpa [hlookup, hne, hneeded] using hspecial d hd, hlookup⟩

theorem escaped_chars (h : t.Fits delimiters special) (next : Option UInt8)
    (hnext : ∀ d ∈ next, special d) (s : Bytes) :
    EscapedToken delimiters special (t.escapeChars next s) s := by
  have hchar {c : UInt8} {next : Option UInt8} {r s : Bytes}
      (hr : EscapedToken delimiters special r s) (hopen : c = '\\' → ∀ d ∈ next, special d) :
      EscapedToken delimiters special (t.escapeChar c next ++ r) (c :: s) := by
    rcases h.escapeChar_cases c next with ⟨hescape, hc⟩ | ⟨hescape, hc, hraw⟩
    · rw [hescape]
      exact .pair hc hr
    · rw [hescape]
      refine .char (fun hmem => hc (h.delimiters hmem)) (fun hbackslash => ?_) hr
      obtain ⟨d, hd, hspecial, -⟩ := hraw hbackslash
      exact hspecial (hopen hbackslash d hd)
  induction s using List.twoStepInduction with
  | nil => exact .nil
  | singleton c => exact hchar .nil fun _ d hd => hnext d hd
  | cons_cons c d s ih ih' =>
    rcases h.escapeChar_cases c (some d) with ⟨hescape, hc⟩ | ⟨hescape, hc, hraw⟩
    · rw [escapeChars, List.head?_cons, Option.some_or, hescape]
      exact .pair hc (ih' d)
    · by_cases hbackslash : c = '\\'
      · -- the next character is none that would be escaped
        obtain ⟨d', hd, hspecial, hlookup⟩ := hraw hbackslash
        obtain rfl : d = d' := Option.some.inj hd
        have hd : t.escapeChar d (s.head?.or next) = [d] := by
          rcases h.escapeChar_cases d (s.head?.or next) with ⟨-, hd⟩ | ⟨hd, -⟩
          · exact absurd hd hspecial
          · exact hd
        rw [escapeChars, List.head?_cons, Option.some_or, hescape, escapeChars, hd, hbackslash]
        exact .raw hspecial ih
      · rw [escapeChars, List.head?_cons, Option.some_or]
        exact hchar (ih' d) fun h => absurd h hbackslash

theorem escapeChars_concat (next : Option UInt8) (s : Bytes) (c : UInt8) :
    t.escapeChars next (s ++ [c]) = t.escapeChars (some c) s ++ t.escapeChar c next := by
  induction s with
  | nil => simp [escapeChars]
  | cons d s ih =>
    rw [cons_append, escapeChars, ih, escapeChars, append_assoc]
    cases s <;> rfl

theorem head_escapeChar (h : t.Fits delimiters special) {c : UInt8}
    (hc : isSpace c → c ∈ t.lookup) (next : Option UInt8) (r : Bytes) :
    ∀ d ∈ (t.escapeChar c next ++ r).head?, ¬ isSpace d := by
  intro d hd
  rcases h.escapeChar_cases c next with ⟨hescape, -⟩ | ⟨hescape, hlookup, -⟩
  · rw [hescape] at hd
    obtain rfl : ('\\' : UInt8) = d := Option.some.inj hd
    decide
  · rw [hescape] at hd
    obtain rfl : c = d := Option.some.inj hd
    exact fun hspace => hlookup (hc hspace)

/-- What is done for the last character. -/
theorem escaped_end (h : t.Fits delimiters special) (r s : Bytes) (c : UInt8) :
    ∃ e, (if t.trailingSpace ∧ isSpace c ∧ c ∉ t.lookup then
        (r ++ t.escapeChars none (s ++ [c])).dropLast ++
          ('\\' : UInt8) :: (r ++ t.escapeChars none (s ++ [c])).getLast?.toList
      else r ++ t.escapeChars none (s ++ [c])) = r ++ e ∧
      EscapedToken delimiters special e (s ++ [c]) ∧ EndsSolid e ∧
      ((∀ d ∈ (s ++ [c]).head?, isSpace d → d ∈ t.lookup) → ∀ d ∈ e.head?, ¬ isSpace d) := by
  have hhead (e : Bytes) (he : s = [] → ∀ d ∈ e.head?, ¬ isSpace d)
      (hs : ∀ d ∈ (s ++ [c]).head?, isSpace d → d ∈ t.lookup) :
      ∀ d ∈ (t.escapeChars (some c) s ++ e).head?, ¬ isSpace d := by
    cases s with
    | nil => exact he rfl
    | cons d s =>
      rw [escapeChars, append_assoc]
      exact h.head_escapeChar (hs d rfl) _ _
  have hconcat := escapeChars_concat (t := t) none s c
  by_cases hspace : isSpace c
  · -- the backslash before the blank is that of the lookup table, or the one that is added
    have hbefore := h.escaped_chars (some c) (fun d hd => by
      obtain rfl : c = d := Option.some.inj hd
      exact h.space c hspace) s
    refine ⟨t.escapeChars (some c) s ++ [('\\' : UInt8), c], ?_,
      hbefore.append (.pair (h.space c hspace) .nil), (endsSolid_pair c).append hbefore.closed,
      hhead _ fun _ d hd => ?_⟩
    · by_cases hlookup : c ∈ t.lookup
      · have hescape : t.escapeChar c none = [('\\' : UInt8), c] := by
          simp [escapeChar, needsEscape, hlookup]
        rw [if_neg fun hif => hif.2.2 hlookup, hconcat, hescape]
      · have htrailing := (h.blank c hspace).resolve_left hlookup
        have hescape : t.escapeChar c none = [c] := by
          simp [escapeChar, needsEscape, hlookup, ne_backslash_of_isSpace hspace]
        rw [if_pos ⟨htrailing.2, hspace, hlookup⟩, hconcat, hescape, ← append_assoc,
          dropLast_concat, List.getLast?_concat, append_assoc]
        rfl
    · obtain rfl : ('\\' : UInt8) = d := Option.some.inj hd
      decide
  · have hall := h.escaped_chars none (fun d hd => by simp at hd) (s ++ [c])
    refine ⟨t.escapeChars none (s ++ [c]), if_neg fun hif => hspace hif.2.1, hall, ?_, ?_⟩
    · rw [hconcat]
      rcases h.escapeChar_cases c none with ⟨hescape, -⟩ | ⟨hescape, -⟩
      · rw [hescape]
        exact ⟨t.escapeChars (some c) s ++ [('\\' : UInt8)], c, by simp,
          fun hc => absurd hc hspace⟩
      · rw [hescape]
        exact ⟨_, c, rfl, fun hc => absurd hc hspace⟩
    · rw [hconcat]
      refine hhead _ fun _ => ?_
      have hlast := h.head_escapeChar (fun hc => absurd hc hspace) none [] (c := c)
      rwa [append_nil] at hlast

theorem escape_cons {c : UInt8} {s r : Bytes} (hlast : (c :: s).getLast? = some d)
    (hr : (if t.leadingSpace ∧ isSpace c ∧ c ∉ t.lookup then ('\\' : UInt8) :: c :: t.escapeChars none s else t.escapeChars none (c :: s)) = r) :
    t.escape (c :: s) =
      if s ≠ [] ∧ t.trailingSpace ∧ isSpace d ∧ d ∉ t.lookup then
        r.dropLast ++ ('\\' : UInt8) :: r.getLast?.toList
      else r := by
  subst hr
  simp only [escape, hlast, decide_eq_true_eq, Option.mem_some_iff, exists_eq_left']

/-- The escaped string stands for the string, and there is nothing to strip from it. -/
theorem escaped_escape (h : t.Fits delimiters special) (str : Bytes) :
    EscapedToken delimiters special (t.escape str) str ∧
      (str ≠ [] → EndsSolid (t.escape str)) ∧ ∀ c ∈ (t.escape str).head?, ¬ isSpace c := by
  cases str with
  | nil => exact ⟨.nil, fun hne => absurd rfl hne, fun c hc => by simp [escape] at hc⟩
  | cons c s =>
    by_cases hleading : t.leadingSpace ∧ isSpace c ∧ c ∉ t.lookup
    · have hhead : ∀ r : Bytes, ∀ d ∈ (('\\' : UInt8) :: c :: r).head?, ¬ isSpace d := by
        intro r d hd
        obtain rfl : ('\\' : UInt8) = d := Option.some.inj hd
        decide
      have hspecial := h.space c hleading.2.1
      rcases s.eq_nil_or_concat with rfl | ⟨s, d, rfl⟩
      · have hescape : t.escape [c] = [('\\' : UInt8), c] := by
          simp [escape, hleading, escapeChars]
        rw [hescape]
        exact ⟨.pair hspecial .nil, fun _ => endsSolid_pair c, hhead []⟩
      · obtain ⟨e, he, hescaped, hsolid, -⟩ := h.escaped_end [('\\' : UInt8), c] s d
        have hlast : (c :: (s ++ [d])).getLast? = some d := by
          rw [← cons_append, List.getLast?_concat]
        have hne : s ++ [d] ≠ [] := concat_ne_nil d s
        have hescape : t.escape (c :: (s ++ [d])) = [('\\' : UInt8), c] ++ e := by
          rw [← he, escape_cons hlast (if_pos hleading)]
          simp only [hne, ne_eq, not_false_eq_true, true_and]
          rfl
        rw [concat_eq_append, hescape]
        exact ⟨.pair hspecial hescaped,
          fun _ => hsolid.append (charIsEscaped_pair charIsEscaped_nil c), hhead e⟩
    · have hlookup : isSpace c → c ∈ t.lookup := by
        intro hspace
        by_contra hnot
        have hblank := (h.blank c hspace).resolve_left hnot
        exact hleading ⟨hblank.1, hspace, hnot⟩
      obtain ⟨u, d, hu⟩ : ∃ u d, c :: s = u ++ [d] := by
        rcases (c :: s).eq_nil_or_concat with hnil | ⟨u, d, hu⟩
        · exact absurd hnil (cons_ne_nil c s)
        · exact ⟨u, d, by rw [hu, concat_eq_append]⟩
      obtain ⟨e, he, hescaped, hsolid, hhead⟩ := h.escaped_end [] u d
      have hescape : t.escape (c :: s) = e := by
        rw [nil_append, nil_append, ← hu] at he
        rw [← he]
        have hlast : (c :: s).getLast? = some d := by rw [hu, List.getLast?_concat]
        -- a single blank is in the lookup table
        have hsingle : s = [] → isSpace d → d ∈ t.lookup := by
          rintro rfl
          rw [List.getLast?_singleton] at hlast
          obtain rfl := Option.some.inj hlast
          exact hlookup
        have hlonger : (t.trailingSpace ∧ isSpace d ∧ d ∉ t.lookup) ↔
            s ≠ [] ∧ t.trailingSpace ∧ isSpace d ∧ d ∉ t.lookup :=
          ⟨fun htrailing => ⟨fun hs => htrailing.2.2 (hsingle hs htrailing.2.1), htrailing⟩,
            fun htrailing => htrailing.2⟩
        rw [escape_cons hlast (if_neg hleading)]
        simp only [← hlonger]
      rw [hescape]
      rw [← hu] at hescaped hhead
      refine ⟨hescaped, fun _ => hsolid, hhead fun d hd => ?_⟩
      obtain rfl : c = d := Option.some.inj hd
      exact hlookup

end EscapeTables.Fits

theorem escapeChars_leadingSpace (t : EscapeTables) (b : Bool) (next : Option UInt8) (s : Bytes) :
    { t with leadingSpace := b }.escapeChars next s = t.escapeChars next s := by
  induction s with
  | nil => rfl
  | cons c s ih =>
    rw [EscapeTables.escapeChars, EscapeTables.escapeChars, ih]
    rfl

theorem escape_leadingSpace (t : EscapeTables) (b : Bool) {s : Bytes}
    (hhead : ∀ c ∈ s.head?, ¬ isSpace c) :
    { t with leadingSpace := b }.escape s = t.escape s := by
  cases s with
  | nil => rfl
  | cons c s =>
    have hc := hhead c rfl
    simp only [EscapeTables.escape, hc, Bool.false_eq_true, false_and, and_false, decide_false,
      if_false, escapeChars_leadingSpace]

/-! ## The tables -/

theorem mem_asciiSpaces (c : UInt8) : c ∈ asciiSpaces ↔ isSpace c := by
  simp [asciiSpaces, ascii, isSpace]
  tauto

variable {delimitersAsNeeded : Option Bytes}

theorem mem_lookup_init {delimiters : Bytes} {flags : EscapedTokensEscapeFlags} {c : UInt8} :
    c ∈ (EscapeTables.init (some delimiters) delimitersAsNeeded flags).lookup ↔
      c ∈ delimiters ∨ (flags.escapeSpaces ∧ isSpace c) ∨
        (flags.escapeBackslashAlways ∧ c = '\\') := by
  cases hspaces : flags.escapeSpaces <;> cases halways : flags.escapeBackslashAlways <;>
    simp [EscapeTables.init, hspaces, halways, mem_asciiSpaces, ascii]

theorem backslashAsNeeded_init {delimiters : Bytes} {flags : EscapedTokensEscapeFlags} :
    (EscapeTables.init (some delimiters) delimitersAsNeeded flags).backslashAsNeeded ↔
      ('\\' : UInt8) ∉ (EscapeTables.init (some delimiters) delimitersAsNeeded flags).lookup ∧
        flags.escapeBackslashAsNeeded := by
  simp only [EscapeTables.init, decide_eq_true_eq]

theorem mem_lookupAsNeeded_init {delimiters : Bytes} {flags : EscapedTokensEscapeFlags}
    (hneeded : (EscapeTables.init (some delimiters) delimitersAsNeeded flags).backslashAsNeeded)
    (hleading : flags.escapeLeadingSpace) (hspaces : flags.escapeSpaces = false) {c : UInt8}
    (hc : isSpace c) :
    c ∈ (EscapeTables.init (some delimiters) delimitersAsNeeded flags).lookup ∨
      c ∈ (EscapeTables.init (some delimiters) delimitersAsNeeded flags).lookupAsNeeded := by
  have hspace := (mem_asciiSpaces c).mpr hc
  by_cases hall : asciiSpaces ⊆
      (EscapeTables.init (some delimiters) delimitersAsNeeded flags).lookup
  · exact .inl (hall hspace)
  · refine .inr ?_
    simp only [EscapeTables.init] at hneeded hall ⊢
    rw [if_pos hneeded, if_pos ⟨.inl (by simp [hleading, hspaces]), hall⟩]
    exact mem_append_left _ hspace

/-- The tables fit in both modes for backslashes. -/
theorem fits_init {delimiters : Bytes} (delimitersAsNeeded : Option Bytes)
    {flags : EscapedTokensEscapeFlags}
    (hmode : flags.escapeBackslashAlways ∨ flags.escapeBackslashAsNeeded)
    (hleading : flags.escapeLeadingSpace) (htrailing : flags.escapeTrailingSpace)
    {splitFlags : StrsplitSetFlags} (hstrip : splitFlags.strstrip) :
    (EscapeTables.init (some delimiters) delimitersAsNeeded flags).Fits delimiters
      (isUnescaped delimiters splitFlags) where
  delimiters := fun _ hc => mem_lookup_init.mpr (.inl hc)
  lookup := by
    intro c hc
    simp only [isUnescaped, decide_eq_true_eq, hstrip, true_and]
    rcases mem_lookup_init.mp hc with hc | ⟨-, hc⟩ | ⟨-, hc⟩
    · exact .inl hc
    · exact .inr (.inr hc)
    · exact .inr (.inl hc)
  backslash := by simp [isUnescaped]
  space := by
    intro c hc
    simp [isUnescaped, hstrip, hc]
  blank := by
    intro c hc
    cases hspaces : flags.escapeSpaces
    · exact .inr (by simp [EscapeTables.init, hspaces, hleading, htrailing])
    · exact .inl (mem_lookup_init.mpr (.inr (.inl ⟨hspaces, hc⟩)))
  asNeeded := by
    by_cases hlookup : ('\\' : UInt8) ∈
        (EscapeTables.init (some delimiters) delimitersAsNeeded flags).lookup
    · exact .inl hlookup
    · have halways : ¬ flags.escapeBackslashAlways := fun halways =>
        hlookup (mem_lookup_init.mpr (.inr (.inr ⟨halways, rfl⟩)))
      have hneeded := backslashAsNeeded_init.mpr ⟨hlookup, hmode.resolve_left halways⟩
      refine .inr ⟨hneeded, fun c hc => ?_⟩
      simp only [isUnescaped, decide_eq_true_eq, hstrip, true_and] at hc
      rcases hc with hc | hc | hc
      · exact .inl (mem_lookup_init.mpr (.inl hc))
      · exact .inr (.inl hc)
      · cases hspaces : flags.escapeSpaces
        · rcases mem_lookupAsNeeded_init hneeded hleading hspaces hc with hmem | hmem
          · exact .inl hmem
          · exact .inr (.inr hmem)
        · exact .inl (mem_lookup_init.mpr (.inr (.inl ⟨hspaces, hc⟩)))

theorem forall_isSpace {p : UInt8 → Prop} (h : ∀ c ∈ asciiSpaces, p c) (c : UInt8)
    (hc : isSpace c) : p c := h c ((mem_asciiSpaces c).mpr hc)

theorem forall_isOptionEscaped {p : UInt8 → Prop} (h : ∀ c ∈ ascii "\\,=" ++ asciiSpaces, p c)
    (c : UInt8) (hc : isOptionEscaped c) : p c := by
  simp only [isOptionEscaped, decide_eq_true_eq, ← mem_asciiSpaces, ← mem_append] at hc
  exact h c hc

theorem fits_key : (EscapeTables.init (some (ascii ",=")) none ⟨false, true, true, true, false⟩).Fits
    (ascii ",=") isOptionEscaped :=
  ⟨by decide, by decide, by decide, forall_isSpace (by decide), forall_isSpace (by decide),
    .inr ⟨by decide, forall_isOptionEscaped (by decide)⟩⟩

theorem fits_val : (EscapeTables.init (some (ascii ",")) (some (ascii "="))
    ⟨false, true, true, true, false⟩).Fits (ascii ",") isOptionEscaped :=
  ⟨by decide, by decide, by decide, forall_isSpace (by decide), forall_isSpace (by decide),
    .inr ⟨by decide, forall_isOptionEscaped (by decide)⟩⟩

/-! ## Options -/

theorem optionsSplitLoop_space {key : Option Bytes} {found : Bytes} {lastSpace : Option ℕ}
    {c : UInt8} (hc : isSpace c) (s : Bytes) :
    optionsSplitLoop key found lastSpace (c :: s) =
      optionsSplitLoop key (found ++ [c]) (lastSpace.or (some found.length)) s := by
  rw [optionsSplitLoop.eq_def]
  simp [hc]

theorem optionsSplitLoop_char {key : Option Bytes} {found : Bytes} {lastSpace : Option ℕ}
    {c : UInt8} (hc : isSpace c = false) (hbackslash : c ≠ '\\') (hkey : ¬ (c = '=' ∧ key = none))
    (s : Bytes) :
    optionsSplitLoop key found lastSpace (c :: s) =
      optionsSplitLoop key (found ++ [c]) none s := by
  rw [optionsSplitLoop.eq_def]
  simp only [hc, hbackslash, hkey, Bool.false_eq_true, if_false]

theorem optionsSplitLoop_pair {key : Option Bytes} {found : Bytes} {lastSpace : Option ℕ}
    (hd : isOptionEscaped d) (s : Bytes) :
    optionsSplitLoop key found lastSpace ('\\' :: d :: s) =
      optionsSplitLoop key (found ++ [d]) none s := by
  have hbackslash : isSpace '\\' = false := by decide
  rw [optionsSplitLoop.eq_def]
  simp [hbackslash, hd]

theorem optionsSplitLoop_raw {key : Option Bytes} {found : Bytes} {lastSpace : Option ℕ}
    (hd : ¬ isOptionEscaped d) (s : Bytes) :
    optionsSplitLoop key found lastSpace ('\\' :: d :: s) =
      optionsSplitLoop key (found ++ [('\\' : UInt8), d]) none s := by
  have hbackslash : isSpace '\\' = false := by decide
  obtain ⟨hspecial, hspace⟩ : d ∉ ascii "\\,=" ∧ isSpace d = false := by
    simpa [isOptionEscaped] using hd
  have hne : d ≠ '\\' := fun h => hspecial (by rw [h]; decide)
  have heq : d ≠ '=' := fun h => hspecial (by rw [h]; decide)
  have hnext := @optionsSplitLoop_char key (found ++ [('\\' : UInt8)]) none _ hspace hne (fun h => heq h.1) s
  rw [append_assoc] at hnext
  refine Eq.trans ?_ hnext
  rw [optionsSplitLoop.eq_def]
  simp [hbackslash, hd]

/-- An escaped string is found up to blanks at its end. -/
theorem optionsSplitLoop_escaped {delimiters : Bytes} {key : Option Bytes}
    (hkey : key = none → ('=' : UInt8) ∈ delimiters) {r s : Bytes}
    (h : EscapedToken delimiters isOptionEscaped r s) (found : Bytes) (lastSpace : Option ℕ)
    (rest : Bytes) :
    ∃ lastSpace', optionsSplitLoop key found lastSpace (r ++ rest) =
        optionsSplitLoop key (found ++ s) lastSpace' rest ∧
      (r = [] → lastSpace' = lastSpace) ∧ (EndsSolid r → lastSpace' = none) := by
  induction h generalizing found lastSpace with
  | nil =>
    exact ⟨lastSpace, by simp, fun _ => rfl, fun h => absurd rfl h.ne_nil⟩
  | @char c r s hc hbackslash _ ih =>
    have hclosed := charIsEscaped_cons_of_ne hbackslash []
    cases hspace : isSpace c with
    | true =>
      obtain ⟨lastSpace', hloop, hnil, hsolid⟩ :=
        ih (found ++ [c]) (lastSpace.or (some found.length))
      refine ⟨lastSpace', ?_, by simp, fun h => ?_⟩
      · rw [cons_append, optionsSplitLoop_space hspace, hloop, append_assoc]
        rfl
      · by_cases hr : r = []
        · -- a blank alone is not escaped
          subst hr
          obtain ⟨x, d, hx, hd⟩ := h
          obtain ⟨rfl, hx⟩ := @append_inj' _ [] _ _ _ hx rfl
          obtain rfl := singleton_inj.mp hx
          exact absurd (hd hspace) (by simp [charIsEscaped_nil])
        · exact hsolid (EndsSolid.of_append (q := [c]) h hr hclosed)
    | false =>
      obtain ⟨lastSpace', hloop, hnil, hsolid⟩ := ih (found ++ [c]) none
      have hnokey : ¬ (c = '=' ∧ key = none) := fun h => hc (h.1 ▸ hkey h.2)
      refine ⟨lastSpace', ?_, by simp, fun h => ?_⟩
      · rw [cons_append, optionsSplitLoop_char hspace hbackslash hnokey, hloop,
          append_assoc]
        rfl
      · by_cases hr : r = []
        · exact hnil hr
        · exact hsolid (EndsSolid.of_append (q := [c]) h hr hclosed)
  | @pair d r s hd _ ih =>
    obtain ⟨lastSpace', hloop, hnil, hsolid⟩ := ih (found ++ [d]) none
    refine ⟨lastSpace', ?_, by simp, fun h => ?_⟩
    · rw [cons_append, cons_append, optionsSplitLoop_pair hd, hloop, append_assoc]
      rfl
    · by_cases hr : r = []
      · exact hnil hr
      · exact hsolid (EndsSolid.of_append (q := [('\\' : UInt8), d]) h hr
          (charIsEscaped_pair charIsEscaped_nil d))
  | @raw d r s hd _ ih =>
    obtain ⟨lastSpace', hloop, hnil, hsolid⟩ := ih (found ++ [('\\' : UInt8), d]) none
    refine ⟨lastSpace', ?_, by simp, fun h => ?_⟩
    · rw [cons_append, cons_append, optionsSplitLoop_raw hd, hloop, append_assoc]
      rfl
    · by_cases hr : r = []
      · exact hnil hr
      · exact hsolid (EndsSolid.of_append (q := [('\\' : UInt8), d]) h hr
          (charIsEscaped_pair charIsEscaped_nil d))

theorem optionsSplitLoop_separator (found : Bytes) (lastSpace : Option ℕ) (s : Bytes) :
    optionsSplitLoop none found lastSpace ('=' :: s) =
      optionsSplitLoop (some (cutSpaces found lastSpace)) [] none (skipSpaces s) := by
  have hspace : isSpace '=' = false := by decide
  have hbackslash : ('=' : UInt8) ≠ '\\' := by decide
  rw [optionsSplitLoop.eq_def]
  simp [hspace, hbackslash]

def optionText (option : Bytes × Bytes) : Bytes :=
  optionsEscapeKey option.1 ++ ascii "=" ++ optionsEscapeVal option.2

theorem head_optionText (option : Bytes × Bytes) :
    ∀ c ∈ (optionText option).head?, ¬ isSpace c := by
  obtain ⟨key, val⟩ := option
  obtain ⟨-, hsolid, hhead⟩ := fits_key.escaped_escape key
  intro c hc
  rw [optionText, append_assoc] at hc
  by_cases hempty : key = []
  · subst hempty
    obtain rfl : ('=' : UInt8) = c := Option.some.inj hc
    decide
  · have hne : optionsEscapeKey key ≠ [] := (hsolid hempty).ne_nil
    rw [List.head?_append_of_ne_nil _ hne] at hc
    exact hhead c hc

theorem optionsSplit_optionText (option : Bytes × Bytes) :
    optionsSplit (optionText option) = (option.1, some option.2) := by
  have hskip := skipSpaces_of_head (head_optionText option)
  obtain ⟨key, val⟩ := option
  obtain ⟨hkey, hkeySolid, -⟩ := fits_key.escaped_escape key
  obtain ⟨hval, hvalSolid, hvalHead⟩ := fits_val.escaped_escape val
  obtain ⟨lastSpace, hloop, hnil, hsolid⟩ :=
    @optionsSplitLoop_escaped _ none (fun _ => by decide) _ _ hkey [] none
      ('=' :: optionsEscapeVal val)
  have hlast : lastSpace = none := by
    by_cases hempty : key = []
    · subst hempty
      exact hnil rfl
    · exact hsolid (hkeySolid hempty)
  obtain ⟨lastSpace', hloop', hnil', hsolid'⟩ :=
    @optionsSplitLoop_escaped _ (some key) (by simp) _ _ hval [] none []
  have hlast' : lastSpace' = none := by
    by_cases hempty : val = []
    · subst hempty
      exact hnil' rfl
    · exact hsolid' (hvalSolid hempty)
  rw [hlast] at hloop
  rw [hlast', append_nil] at hloop'
  rw [optionsSplit, hskip, optionText, append_assoc]
  refine hloop.trans ?_
  rw [optionsSplitLoop_separator, optionsEscapeVal, escapedTokensEscapeFull,
    skipSpaces_of_head hvalHead]
  exact hloop'.trans (by simp [optionsSplitLoop, cutSpaces])

theorem trimmed_optionText (option : Bytes × Bytes) :
    TrimmedToken (ascii ",") ⟨false, true, true, false⟩ (optionText option) := by
  have hhead := head_optionText option
  obtain ⟨key, val⟩ := option
  obtain ⟨hkey, -, -⟩ := fits_key.escaped_escape key
  obtain ⟨hval, hvalSolid, -⟩ := fits_val.escaped_escape val
  have hstart : EscapedToken (ascii ",") isOptionEscaped (optionsEscapeKey key ++ ascii "=")
      (key ++ ascii "=") :=
    (hkey.mono (by decide)).append (.char (by decide) (by decide) .nil)
  have hall : EscapedToken (ascii ",") isOptionEscaped (optionText (key, val)) (key ++ ascii "=" ++ val) :=
    hstart.append hval
  refine ⟨hall.unbroken rfl (by decide), hall.closed, hhead, ?_⟩
  by_cases hempty : val = []
  · subst hempty
    exact ⟨optionsEscapeKey key, '=', append_nil _, fun h => absurd h (by decide)⟩
  · exact (hvalSolid hempty).append hstart.closed

/-! ## The lists -/

theorem escapedTokensSplit_joined {delimiters text : Bytes} {tokens : List (Bytes × Bytes)}
    (hdelim : ('\\' : UInt8) ∉ delimiters)
    (htokens : ∀ token ∈ tokens,
      EscapedToken delimiters (isUnescaped delimiters ⟨false, false, true, true⟩) token.1 token.2 ∧
        EndsSolid token.1 ∧ ∀ c ∈ token.1.head?, ¬ isSpace c)
    (h : JoinedTokens delimiters (tokens.map Prod.fst) text) :
    (escapedTokensSplit text delimiters).getD [] = tokens.map Prod.snd := by
  have htrimmed : ∀ r ∈ tokens.map Prod.fst,
      TrimmedToken delimiters ⟨false, false, true, true⟩ r := by
    intro r hr
    obtain ⟨token, htoken, rfl⟩ := mem_map.mp hr
    obtain ⟨hescaped, hsolid, hhead⟩ := htokens token htoken
    exact ⟨hescaped.unbroken rfl hdelim, hescaped.closed, hhead, hsolid⟩
  have hunescape : ∀ token ∈ tokens,
      unescapeToken delimiters ⟨false, false, true, true⟩ token.1 = token.2 :=
    fun token htoken => (htokens token htoken).1.unescape
  rw [escapedTokensSplit, strsplitSetFull_eq rfl rfl, h.stripped rfl rfl htrimmed, if_pos rfl,
    map_map]
  exact map_congr_left hunescape

/-- Tokens are found again when they were escaped, in both modes for backslashes and with any
blanks and delimiters around them. So are the keys and values of options, each alone and in a
list of them. -/
theorem escapedTokens_roundTrip :
    (∀ (delimiters : Bytes) (delimitersAsNeeded : Option Bytes) (flags : EscapedTokensEscapeFlags)
      (tokens : List Bytes) (text : Bytes), ('\\' : UInt8) ∉ delimiters →
      flags.escapeBackslashAlways ∨ flags.escapeBackslashAsNeeded →
      flags.escapeLeadingSpace → flags.escapeTrailingSpace → [] ∉ tokens →
      JoinedTokens delimiters
        (tokens.map (escapedTokensEscapeFull · (some delimiters) delimitersAsNeeded flags)) text →
      (escapedTokensSplit text delimiters).getD [] = tokens) ∧
    (∀ key val : Bytes, optionsSplit (optionText (key, val)) = (key, some val)) ∧
    ∀ (options : List (Bytes × Bytes)) (text : Bytes),
      JoinedTokens (ascii ",") (options.map optionText) text →
      ((optionsSplitList text).getD []).map optionsSplit =
        options.map fun option => (option.1, some option.2) := by
  refine ⟨?_, fun key val => optionsSplit_optionText (key, val), ?_⟩
  · intro delimiters delimitersAsNeeded flags tokens text hdelim hmode hleading htrailing hne h
    have hfits := @fits_init delimiters delimitersAsNeeded _ hmode hleading htrailing
      ⟨false, false, true, true⟩ rfl
    have htokens : ∀ token ∈ tokens.map fun token =>
        (escapedTokensEscapeFull token (some delimiters) delimitersAsNeeded flags, token),
        EscapedToken delimiters (isUnescaped delimiters ⟨false, false, true, true⟩) token.1
          token.2 ∧ EndsSolid token.1 ∧ ∀ c ∈ token.1.head?, ¬ isSpace c := by
      intro token htoken
      obtain ⟨str, hstr, rfl⟩ := mem_map.mp htoken
      obtain ⟨hescaped, hsolid, hhead⟩ := hfits.escaped_escape str
      exact ⟨hescaped, hsolid fun hnil => hne (hnil ▸ hstr), hhead⟩
    have hsplit := escapedTokensSplit_joined hdelim htokens (by rwa [map_map])
    rw [hsplit, map_map]
    exact map_id tokens
  · intro options text h
    have htrimmed : ∀ r ∈ options.map optionText,
        TrimmedToken (ascii ",") ⟨false, true, true, false⟩ r := by
      intro r hr
      obtain ⟨option, -, rfl⟩ := mem_map.mp hr
      exact trimmed_optionText option
    have hsplit : optionsSplit ∘ optionText = fun option => (option.1, some option.2) :=
      funext optionsSplit_optionText
    rw [optionsSplitList, strsplitSetFull_eq rfl rfl, h.stripped rfl rfl htrimmed,
      if_neg Bool.false_ne_true, map_map, hsplit]

theorem escapedTokens_roundTrip_blanks :
    (escapedTokensSplit (ascii " a\\\\ ,; \\ \\,;") (ascii ",;")).getD [] = [ascii "a\\", ascii " ,"] ∧
      ((optionsSplitList (ascii "k\\==v= , =")).getD []).map optionsSplit =
        [(ascii "k=", some (ascii "v=")), ([], some [])] := by
  have hgap : ∀ gap ∈ [[], ascii " ", ascii "; ", ascii ";"], IsGap (ascii ",;") gap := by
    unfold IsGap
    decide
  have hblank : ∀ gap ∈ [[], ascii " "], IsGap (ascii ",") gap := by
    unfold IsGap
    decide
  constructor
  · apply escapedTokens_roundTrip.1 (ascii ",;") none ⟨false, true, true, true, false⟩
      [ascii "a\\", ascii " ,"] _ (by decide) (.inr rfl) rfl rfl (by decide)
    exact @JoinedTokens.cons _ (ascii " ") (ascii "a\\\\") (ascii " ") ',' [ascii "\\ \\,"]
      (ascii "; \\ \\,;") (hgap _ (by decide)) (hgap _ (by decide)) (by decide)
      (@JoinedTokens.single _ (ascii "; ") (ascii "\\ \\,") (ascii ";") (hgap _ (by decide))
        (hgap _ (by decide)))
  · apply escapedTokens_roundTrip.2.2 [(ascii "k=", ascii "v="), ([], [])]
    exact @JoinedTokens.cons _ [] (ascii "k\\==v=") (ascii " ") ',' [ascii "="] (ascii " =")
      (hblank _ (by decide)) (hblank _ (by decide)) (by decide)
      (@JoinedTokens.single _ (ascii " ") (ascii "=") [] (hblank _ (by decide))
        (hblank _ (by decide)))

end NetworkManager.GlibAux
