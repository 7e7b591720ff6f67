import NetworkManager.Settings.ShvarEscape
import NetworkManager.Lib.Keyed
import Mathlib.Data.List.Dedup

/-!
# ifcfg-rh files

A file is a list of lines, of which some assign a value to a key. The last line with a key is in
an index, and leads to the earlier ones that it shadows. A line whose value was unset stays where
it is without a value.
-/

namespace NetworkManager.Settings

open Lib
open List hiding lookup_nil

/-! ## Lines -/

def isNameStart (c : UInt8) : Bool := isAlpha c ∨ c = '_'

def isNameChar (c : UInt8) : Bool := isAlnum c ∨ c = '_'

def shellIsName (key : Bytes) : Bool :=
  match key with
  | [] => false
  | c :: s => isNameStart c ∧ ∀ d ∈ s, isNameChar d

/-- `shvarLine`, with the blanks that `key_with_prefix` has before the key. The identifier stands
for the address of the line. -/
structure ShvarLine where
  id : ℕ
  indent : Bytes
  key : Option Bytes
  line : Option Bytes
  dirty : Bool
  prevShadowed : Option ℕ
  deriving DecidableEq

/-- The key and what follows the `=`, if the text is an assignment. -/
def parseAssignment (value : Bytes) : Option (Bytes × Bytes) :=
  match skipSpaces value with
  | [] => none
  | c :: s =>
    if isNameStart c then
      match s.dropWhile isNameChar with
      | [] => none
      | d :: v => if d = '=' then some (c :: s.takeWhile isNameChar, v) else none
    else none

def lineNewParse (id : ℕ) (value : Bytes) : ShvarLine :=
  match parseAssignment value with
  | none => ⟨id, [], none, some value, true, none⟩
  | some (key, v) => ⟨id, value.takeWhile isSpace, some key, some v, true, none⟩

def lineNewBuild (id : ℕ) (key value : Bytes) : ShvarLine :=
  ⟨id, [], some key, some (svEscape value), false, none⟩

/-- `line_set()`, and whether the line changed. -/
def lineSet (line : ShvarLine) (value : Bytes) : ShvarLine × Bool :=
  let value := svEscape value
  let changed : Bool := line.indent ≠ []
  if line.line = some value then ({ line with indent := [], dirty := false }, changed)
  else ({ line with indent := [], dirty := false, line := some value }, true)

/-! ## Files -/

/-- `shvarFile`, without the name of the file and its descriptor. -/
structure ShvarFile where
  lines : List ShvarLine
  lstIdx : List (Bytes × ℕ)
  nextId : ℕ
  modified : Bool
  deriving DecidableEq

def lineLinkParse (s : ShvarFile) (value : Bytes) : ShvarFile :=
  let line := lineNewParse s.nextId value
  match line.key with
  | none => { s with lines := s.lines ++ [line], nextId := s.nextId + 1 }
  | some key =>
    let existing := (lookup Prod.fst key s.lstIdx).map Prod.snd
    { s with
      lines := s.lines ++ [{ line with prevShadowed := existing }]
      lstIdx := put Prod.fst (key, line.id) s.lstIdx
      nextId := s.nextId + 1 }

/-- The parts of a text that newlines end, and a last part without one unless it is empty. -/
def textLines : Bytes → List Bytes
  | [] => []
  | c :: s =>
    if c = '\n' then [] :: textLines s
    else
      match textLines s with
      | [] => [[c]]
      | l :: ls => (c :: l) :: ls

def svFileNew (content : Bytes) : ShvarFile := (textLines content).foldl lineLinkParse ⟨[], [], 0, false⟩

def ShvarFile.findLine (s : ShvarFile) (key : Bytes) : Option ShvarLine :=
  (lookup Prod.fst key s.lstIdx).bind fun e => lookup ShvarLine.id e.2 s.lines

def readValue (line : Bytes) : Bytes := (svUnescape line).getD []

def svGetValue (s : ShvarFile) (key : Bytes) : Option Bytes :=
  (s.findLine key).bind fun line => line.line.map readValue

/-- `svGetKeys()`, for a type of keys. -/
def svGetKeys (s : ShvarFile) (keyMatchesType : Bytes → Bool) : List Bytes :=
  (s.lines.filterMap fun line =>
    if line.line ≠ none then line.key.filter keyMatchesType else none).dedup

/-- Free the lines that shadow each other. -/
def freeShadowed (lines : List ShvarLine) : Option ℕ → List ShvarLine
  | none => lines
  | some id =>
    match _h : lookup ShvarLine.id id lines with
    | none => lines
    | some l => freeShadowed (eraseKey ShvarLine.id id lines) l.prevShadowed
  termination_by lines.length
  decreasing_by
    have hmem := mem_of_lookup _h
    have hkey := key_of_lookup _h
    exact length_filter_lt_length_iff_exists.mpr ⟨l, hmem, by simp [hkey]⟩

/-- `svSetValue()`, and whether the file changed. -/
def svSetValue (s : ShvarFile) (key : Bytes) (value : Option Bytes) : ShvarFile × Bool :=
  match s.findLine key with
  | none =>
    match value with
    | none => (s, false)
    | some value =>
      ({ lines := s.lines ++ [lineNewBuild s.nextId key value]
         lstIdx := s.lstIdx ++ [(key, s.nextId)]
         nextId := s.nextId + 1
         modified := true }, true)
  | some line =>
    let lines := freeShadowed
      (modifyKey ShvarLine.id line.id (fun l => { l with prevShadowed := none }) s.lines)
      line.prevShadowed
    let line' : ShvarLine × Bool :=
      match value with
      | none => ({ line with line := none }, line.line ≠ none)
      | some value => lineSet line value
    let changed : Bool := line.prevShadowed ≠ none ∨ line'.2
    ({ s with
       lines := modifyKey ShvarLine.id line.id (fun _ => { line'.1 with prevShadowed := none }) lines
       modified := s.modified ∨ changed }, changed)

def svUnsetValue (s : ShvarFile) (key : Bytes) : ShvarFile × Bool := svSetValue s key none

def svUnsetAll (s : ShvarFile) (keyMatchesType : Bytes → Bool) : ShvarFile × Bool :=
  let matched (line : ShvarLine) : Bool := line.key.any keyMatchesType
  let changed : Bool := ∃ line ∈ s.lines, matched line ∧ line.line ≠ none
  ({ s with
     lines := s.lines.map fun line => if matched line then { line with line := none } else line
     modified := s.modified ∨ changed }, changed)

/-- `svUnsetDirtyWellknown()`. A key is `clearable` if it is well-known, unless its value is kept
when it is dirty. -/
def svUnsetDirtyWellknown (s : ShvarFile) (clearable : Bytes → Bool)
    (newDirtyValue : Option Bool) : ShvarFile × Bool :=
  let matched (line : ShvarLine) : Bool := line.dirty ∧ line.key.any clearable
  let changed : Bool := ∃ line ∈ s.lines, matched line ∧ line.line ≠ none
  ({ s with
     lines := s.lines.map fun line =>
       { line with
         line := if matched line then none else line.line
         dirty := newDirtyValue.getD line.dirty }
     modified := s.modified ∨ changed }, changed)

/-- What `svWriteFile()` writes for a line. -/
def writeLine (line : ShvarLine) : Bytes :=
  match line.key with
  | none =>
    let str := line.line.getD []
    (if (skipSpaces str).head?.all (· = ('#' : UInt8)) then [] else ascii "#NM: ") ++ str ++
      ascii "\n"
  | some key =>
    match line.line with
    | none => []
    | some value =>
      let assignment := line.indent ++ key ++ ascii "=" ++ value ++ ascii "\n"
      if svUnescape value ≠ none then assignment
      else key ++ ascii "=\n" ++ ascii "#NM: " ++ assignment

/-- The file that `svWriteFile()` writes. -/
def writeFile (s : ShvarFile) : Bytes := s.lines.flatMap writeLine

/-! ## Lines are read back -/

theorem textLines_append {l : Bytes} (hl : ('\n' : UInt8) ∉ l) (s : Bytes) :
    textLines (l ++ ascii "\n" ++ s) = l :: textLines s := by
  induction l with
  | nil => rfl
  | cons c l ih =>
    rw [mem_cons, not_or] at hl
    have hc : c ≠ '\n' := fun h => hl.1 h.symm
    have htail := ih hl.2
    rw [cons_append, cons_append, textLines, if_neg hc, htail]

theorem newline_notMem_textLines {s l : Bytes} (hl : l ∈ textLines s) : ('\n' : UInt8) ∉ l := by
  induction s generalizing l with
  | nil => exact absurd hl not_mem_nil
  | cons c s ih =>
    unfold textLines at hl
    split_ifs at hl with hc
    · rcases mem_cons.mp hl with rfl | hl
      · exact not_mem_nil
      · exact ih hl
    · have hcons (t : Bytes) (ht : ('\n' : UInt8) ∉ t) : ('\n' : UInt8) ∉ c :: t := fun h =>
        (mem_cons.mp h).elim (fun h => hc h.symm) ht
      cases hs : textLines s with
      | nil =>
        rw [hs] at hl
        obtain rfl := mem_singleton.mp hl
        exact hcons [] not_mem_nil
      | cons t ts =>
        rw [hs] at hl
        rw [hs] at ih
        rcases mem_cons.mp hl with rfl | hl
        · exact hcons t (ih mem_cons_self)
        · exact ih (mem_cons_of_mem t hl)

theorem parseAssignment_eq_some {value key v : Bytes} (h : parseAssignment value = some (key, v)) :
    value = value.takeWhile isSpace ++ key ++ ascii "=" ++ v ∧ shellIsName key := by
  have hsplit : value.takeWhile isSpace ++ skipSpaces value = value :=
    takeWhile_append_dropWhile
  unfold parseAssignment at h
  cases hskip : skipSpaces value with
  | nil => simp [hskip] at h
  | cons c s =>
    rw [hskip] at h hsplit
    dsimp only at h
    split_ifs at h with hstart
    have hname : s.takeWhile isNameChar ++ s.dropWhile isNameChar = s :=
      takeWhile_append_dropWhile
    cases hdrop : s.dropWhile isNameChar with
    | nil => simp [hdrop] at h
    | cons d t =>
      rw [hdrop] at h hname
      dsimp only at h
      split_ifs at h with hd
      obtain ⟨rfl, rfl⟩ := Prod.mk.inj (Option.some.inj h)
      constructor
      · conv_lhs => rw [← hsplit, ← hname, hd]
        simp [ascii]
      · simp only [shellIsName, decide_eq_true_eq]
        exact ⟨hstart, fun d hd => mem_takeWhile_imp hd⟩

theorem parseAssignment_assignment {indent key : Bytes} (hindent : ∀ c ∈ indent, isSpace c)
    (hkey : shellIsName key) (v : Bytes) :
    parseAssignment (indent ++ key ++ ascii "=" ++ v) = some (key, v) ∧
      (indent ++ key ++ ascii "=" ++ v).takeWhile isSpace = indent := by
  have hletter : ∀ c, isNameStart c → isSpace c = false := by decide
  have hequals : isNameChar '=' = false := by decide
  cases key with
  | nil => exact absurd hkey Bool.false_ne_true
  | cons c key =>
    simp only [shellIsName, decide_eq_true_eq] at hkey
    have hspace := hletter c hkey.1
    have htext : indent ++ c :: key ++ ascii "=" ++ v =
        indent ++ c :: (key ++ ('=' : UInt8) :: v) := by simp [ascii]
    have hskip : skipSpaces (indent ++ c :: (key ++ ('=' : UInt8) :: v)) =
        c :: (key ++ ('=' : UInt8) :: v) := by
      rw [skipSpaces, dropWhile_append_of_pos hindent, dropWhile_cons, hspace]
      rfl
    have hdrop : (key ++ ('=' : UInt8) :: v).dropWhile isNameChar = ('=' : UInt8) :: v := by
      rw [dropWhile_append_of_pos hkey.2, dropWhile_cons, hequals]
      rfl
    have htake : (key ++ ('=' : UInt8) :: v).takeWhile isNameChar = key := by
      rw [takeWhile_append_of_pos hkey.2, takeWhile_cons, hequals]
      exact append_nil key
    rw [htext]
    constructor
    · simp only [parseAssignment, hskip, hkey.1, hdrop, htake, if_true]
    · rw [takeWhile_append_of_pos hindent, takeWhile_cons, hspace]
      exact append_nil indent

theorem lineNewParse_assignment (id : ℕ) {indent key : Bytes} (hindent : ∀ c ∈ indent, isSpace c)
    (hkey : shellIsName key) (v : Bytes) :
    lineNewParse id (indent ++ key ++ ascii "=" ++ v) =
      ⟨id, indent, some key, some v, true, none⟩ := by
  have hparse := parseAssignment_assignment hindent hkey v
  simp only [lineNewParse, hparse.1, hparse.2]

theorem parseAssignment_comment {value : Bytes}
    (h : (skipSpaces value).head?.all (· = ('#' : UInt8))) : parseAssignment value = none := by
  have hsharp : isNameStart '#' = false := by decide
  unfold parseAssignment
  cases hskip : skipSpaces value with
  | nil => rfl
  | cons c s =>
    rw [hskip] at h
    have hc : c = '#' := by simpa using h
    simp [hc, hsharp]

theorem newline_notMem_key {key : Bytes} (hkey : shellIsName key) : ('\n' : UInt8) ∉ key := by
  have hstart : isNameStart '\n' = false := by decide
  have hchar : isNameChar '\n' = false := by decide
  cases key with
  | nil => exact not_mem_nil
  | cons c key =>
    simp only [shellIsName, decide_eq_true_eq] at hkey
    intro hmem
    rcases mem_cons.mp hmem with rfl | hmem
    · simp [hstart] at hkey
    · exact absurd (hkey.2 _ hmem) (by simp [hchar])

/-- A value is read back after it was quoted, and a line with it is read as that line. -/
theorem svEscape_roundTrip {s : Bytes} (hs : NulFree s) :
    (Utf8 s → svUnescape (svEscape s) = some s) ∧
    svUnescapeFull (svEscape s) false = some s ∧
    ('\n' : UInt8) ∉ svEscape s ∧ IsShellWord (svEscape s) ∧
    ∀ key, shellIsName key →
      (svFileNew (key ++ ascii "=" ++ svEscape s ++ ascii "\n")).lines =
        [⟨0, [], some key, some (svEscape s), true, none⟩] := by
  refine ⟨fun hutf8 => ?_, svUnescapeFull_svEscape hs, newline_notMem_svEscape s,
    isShellWord_svEscape s, fun key hkey => ?_⟩
  · rw [svUnescape_svEscape hs, if_pos (isUtf8_iff.mpr ⟨hutf8, hs⟩)]
  · have hkeyLine := newline_notMem_key hkey
    have hline : ('\n' : UInt8) ∉ key ++ ascii "=" ++ svEscape s := by
      simp only [mem_append, not_or]
      exact ⟨⟨hkeyLine, by decide⟩, newline_notMem_svEscape s⟩
    have htext := textLines_append hline []
    have hparse := lineNewParse_assignment 0 (forall_mem_nil _) hkey (svEscape s)
    rw [append_nil, textLines] at htext
    rw [nil_append] at hparse
    simp only [svFileNew, htext, foldl_cons, foldl_nil, lineLinkParse, hparse,
      lookup_nil, Option.map_none, nil_append]

theorem svEscape_roundTrip_quotes :
    svUnescape (svEscape (ascii "it's `$x`;\t\\")) = some (ascii "it's `$x`;\t\\") :=
  (svEscape_roundTrip (s := ascii "it's `$x`;\t\\") (by decide)).1
    (utf8_of_ascii (by decide))

end NetworkManager.Settings
