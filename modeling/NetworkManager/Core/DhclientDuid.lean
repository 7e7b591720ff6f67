import NetworkManager.GlibAux.StrsplitSet

/-!
# The DUID in the lease file of dhclient

`nm_dhcp_dhclient_save_duid()` writes the DUID to the first line of a lease file and keeps the
other lines, and `nm_dhcp_dhclient_read_duid()` reads it back. A line is taken apart into its
indentation, its text, and the carriage return at its end.
-/

namespace NetworkManager.Core

open Lib GlibAux List

/-! ## Escaping -/

def escapeDuidChar (b : UInt8) : Bytes :=
  if ¬ isPrint b then '\\' :: octalDigits b
  else if b ∈ ascii "\"'$`\\|&" then ['\\', b]
  else [b]

def escapeDuid (duid : Bytes) : Bytes := duid.flatMap escapeDuidChar

def isOctalSequence (a b c : UInt8) : Bool :=
  (48 ≤ a ∧ a ≤ 51) ∧ (48 ≤ b ∧ b ≤ 55) ∧ 48 ≤ c ∧ c ≤ 55

/-- `nm_dhcp_dhclient_unescape_duid()`. After a backslash at the end, the terminating NUL is
appended. -/
def unescapeDuid : Bytes → Option Bytes
  | [] => some []
  | p :: s =>
    if p = '\\' then
      match s with
      | [] => some [0]
      | a :: s =>
        if isDigit a then
          match s with
          | b :: c :: s =>
            if isOctalSequence a b c then
              (unescapeDuid s).map (((a - 48) <<< 6 + (b - 48) <<< 3 + (c - 48)) :: ·)
            else none
          | _ => none
        else (unescapeDuid s).map (a :: ·)
    else (unescapeDuid s).map (p :: ·)

/-- `%x` -/
def byteHex (v : UInt8) : Bytes :=
  (if v >>> (4 : UInt8) ≠ 0 then [hexchar (v >>> (4 : UInt8)) false] else []) ++ [hexchar v false]

def escapeDuidAsHex : Bytes → Bytes
  | [] => []
  | [v] => byteHex v
  | v :: s => byteHex v ++ ascii ":" ++ escapeDuidAsHex s

/-! ## Lines -/

def defaultDuid : Bytes := ascii "default-duid \""

def clientId : Bytes := ascii "option dhcp6.client-id "

def fileText (contents : Bytes) : Bytes := contents.takeWhile fun c => c ≠ 0

structure LeaseLine where
  indent : Bytes
  body : Bytes
  endsWithR : Bool
  deriving DecidableEq

def LeaseLine.parse (str : Bytes) : LeaseLine :=
  let l := skipSpaces str
  let endsWithR : Bool := l.getLast? = some ('\r' : UInt8)
  ⟨str.takeWhile isSpace, if endsWithR then l.dropLast else l, endsWithR⟩

def conflictingDuidLine (duid : Bytes) : Bytes := clientId ++ escapeDuidAsHex duid ++ ascii ";"

/-- What `nm_dhcp_dhclient_save_duid()` writes for a line, and whether others follow. -/
def saveLine (duid : Bytes) (enforceDuid more : Bool) (str : Bytes) : Bytes :=
  let line := LeaseLine.parse str
  if defaultDuid.isPrefixOf line.body then []
  else
    let l :=
      if enforceDuid ∧ clientId.isPrefixOf line.body then conflictingDuidLine duid else line.body
    line.indent ++ l ++
      if line.endsWithR then ascii "\r\n" else if more then ascii "\n" else []

def saveLines (duid : Bytes) (enforceDuid : Bool) : List Bytes → Bytes
  | [] => []
  | str :: lines =>
    saveLine duid enforceDuid (lines ≠ []) str ++ saveLines duid enforceDuid lines

/-! ## The file -/

def leaseLines (file : Option Bytes) : List Bytes :=
  match file with
  | none => []
  | some contents => (strsplitSetWithEmpty (fileText contents) (ascii "\n")).getD []

def duidLine (duid : Bytes) : Bytes := defaultDuid ++ escapeDuid duid ++ ascii "\";"

/-- `nm_dhcp_dhclient_save_duid()`, with the contents of the file and whether it is written. -/
def saveDuid (enforceDuid : Bool) (duid : Bytes) (file : Option Bytes) : Bytes × Bool :=
  let s := duidLine duid ++ ascii "\n" ++ saveLines duid enforceDuid (leaseLines file)
  match file with
  | none => (s, true)
  | some contents => if NulFree contents ∧ contents = s then (contents, false) else (s, true)

/-- The DUID in one line of the file. -/
def readDuidLine (line : Bytes) : Option Bytes :=
  let p := skipSpaces line
  if ¬ defaultDuid.isPrefixOf p then none
  else
    let p := chomp (p.drop defaultDuid.length)
    if ¬ (ascii "\";").isSuffixOf p then none
    else unescapeDuid (p.take (p.length - 2))

def readDuid (file : Option Bytes) : Option Bytes :=
  match file with
  | none => none
  | some contents =>
    ((strsplitSet (fileText contents) (ascii "\n\r")).getD []).findSome? readDuidLine

/-! ## The DUID comes back -/

theorem octalDigits_sequence : ∀ b : UInt8, isDigit (octalDigit (b >>> (6 : UInt8))) ∧
    isOctalSequence (octalDigit (b >>> (6 : UInt8))) (octalDigit (b >>> (3 : UInt8)))
      (octalDigit b) ∧
    (octalDigit (b >>> (6 : UInt8)) - 48) <<< (6 : UInt8) +
      (octalDigit (b >>> (3 : UInt8)) - 48) <<< (3 : UInt8) + (octalDigit b - 48) = b := by
  decide +kernel

theorem unescapeDuid_octal (b : UInt8) (s : Bytes) :
    unescapeDuid (('\\' : UInt8) :: octalDigits b ++ s) = (unescapeDuid s).map (b :: ·) := by
  obtain ⟨hdigit, hoctal, hvalue⟩ := octalDigits_sequence b
  simp only [octalDigits, cons_append, nil_append]
  rw [unescapeDuid.eq_def]
  simp [hdigit, hoctal, hvalue]

theorem unescapeDuid_backslash {a : UInt8} (ha : isDigit a = false) (s : Bytes) :
    unescapeDuid ('\\' :: a :: s) = (unescapeDuid s).map (a :: ·) := by
  rw [unescapeDuid.eq_def]
  simp [ha]

theorem unescapeDuid_char {a : UInt8} (ha : a ≠ '\\') (s : Bytes) :
    unescapeDuid (a :: s) = (unescapeDuid s).map (a :: ·) := by
  rw [unescapeDuid.eq_def]
  simp [ha]

theorem unescapeDuid_escapeDuidChar (b : UInt8) (s : Bytes) :
    unescapeDuid (escapeDuidChar b ++ s) = (unescapeDuid s).map (b :: ·) := by
  have hspecial : ∀ b ∈ ascii "\"'$`\\|&", isDigit b = false := by decide
  unfold escapeDuidChar
  split_ifs with hprint hb
  · exact unescapeDuid_backslash (hspecial b hb) s
  · refine unescapeDuid_char (fun h => hb ?_) s
    rw [h]
    decide
  · exact unescapeDuid_octal b s

theorem unescapeDuid_escapeDuid (duid : Bytes) : unescapeDuid (escapeDuid duid) = some duid := by
  induction duid with
  | nil => rfl
  | cons b duid ih =>
    have hchar := unescapeDuid_escapeDuidChar b (escapeDuid duid)
    rw [ih] at hchar
    exact hchar

variable {c : UInt8}

theorem mem_escapeDuid {duid : Bytes} (hc : c ∈ escapeDuid duid) : isPrint c := by
  have hdigit (d : UInt8) : isPrint (octalDigit d) := by
    obtain ⟨hge, hle⟩ := of_decide_eq_true (isOctal_octalDigit d)
    exact decide_eq_true ⟨UInt8.le_trans (by decide) hge, UInt8.lt_of_le_of_lt hle (by decide)⟩
  have hchar (b c : UInt8) (hc : c ∈ escapeDuidChar b) : isPrint c := by
    unfold escapeDuidChar at hc
    split_ifs at hc with hprint hb
    · rcases mem_pair.mp hc with rfl | rfl
      · decide
      · exact hprint
    · exact (mem_singleton.mp hc) ▸ hprint
    · simp only [octalDigits, mem_cons, not_mem_nil, or_false] at hc
      rcases hc with rfl | rfl | rfl | rfl
      · decide
      all_goals exact hdigit _
  obtain ⟨b, -, hb⟩ := mem_flatMap.mp hc
  exact hchar b c hb

/-! ## Taking a line apart -/

/-- A line that is taken apart as it was put together. -/
structure LeaseLine.WellFormed (line : LeaseLine) : Prop where
  indent_spaces : ∀ c ∈ line.indent, isSpace c
  body_head : ∀ c ∈ line.body.head?, ¬ isSpace c
  endsWithR_of_body : line.endsWithR → line.body ≠ []
  body_last : ¬ line.endsWithR → line.body.getLast? ≠ some ('\r' : UInt8)

def LeaseLine.text (line : LeaseLine) : Bytes :=
  line.indent ++ line.body ++ if line.endsWithR then ascii "\r" else []

variable {s : Bytes}

namespace LeaseLine

variable {line : LeaseLine}

theorem takeWhile_isSpace_of_head (h : ∀ c ∈ s.head?, ¬ isSpace c) : s.takeWhile isSpace = [] := by
  cases s with
  | nil => rfl
  | cons c s => exact takeWhile_cons_of_neg (h c rfl)

theorem WellFormed.parse_text (h : line.WellFormed) : parse line.text = line := by
  obtain ⟨indent, body, endsWithR⟩ := line
  obtain ⟨hindent, hhead, hbody, hlast⟩ := h
  have hrest : ∀ c ∈ (body ++ if endsWithR then ascii "\r" else []).head?, ¬ isSpace c := by
    cases body with
    | nil => cases endsWithR <;> simp_all
    | cons c body => simpa using hhead
  have htake := takeWhile_isSpace_of_head hrest
  have hskip := skipSpaces_of_head hrest
  have hindent' : (indent ++ (body ++ if endsWithR then ascii "\r" else [])).takeWhile isSpace =
      indent := by
    rw [takeWhile_append_of_pos hindent, htake, append_nil]
  have hskip' : (indent ++ (body ++ if endsWithR then ascii "\r" else [])).dropWhile isSpace =
      (body ++ if endsWithR then ascii "\r" else []).dropWhile isSpace :=
    dropWhile_append_of_pos hindent
  have hl := hskip'.trans hskip
  rw [parse, text, append_assoc, hindent', skipSpaces, hl]
  cases endsWithR with
  | true => simp [ascii]
  | false => simp_all

theorem parse_cases (str : Bytes) :
    (∃ l, skipSpaces str = l ++ ascii "\r" ∧ parse str = ⟨str.takeWhile isSpace, l, true⟩) ∨
      ((skipSpaces str).getLast? ≠ some ('\r' : UInt8) ∧
        parse str = ⟨str.takeWhile isSpace, skipSpaces str, false⟩) := by
  by_cases hlast : (skipSpaces str).getLast? = some ('\r' : UInt8)
  · obtain ⟨l, hl⟩ := List.getLast?_eq_some_iff.mp hlast
    refine .inl ⟨l, hl, ?_⟩
    simp [parse, hl]
  · refine .inr ⟨hlast, ?_⟩
    simp [parse, hlast]

theorem parse_wellFormed (str : Bytes) : (parse str).WellFormed := by
  have hindent : ∀ c ∈ str.takeWhile isSpace, isSpace c := fun c => mem_takeWhile_imp
  have hhead : ∀ c ∈ (skipSpaces str).head?, ¬ isSpace c := by
    intro c hc
    have hnot := List.head?_dropWhile_not isSpace str
    rw [skipSpaces] at hc
    rw [hc] at hnot
    simpa using hnot
  rcases parse_cases str with ⟨l, hl, hparse⟩ | ⟨hlast, hparse⟩
  · rw [hparse]
    rw [hl] at hhead
    -- the carriage return is a space, and so it is not all there is
    have hne : l ≠ [] := by
      rintro rfl
      exact hhead _ rfl (by decide)
    refine ⟨hindent, ?_, fun _ => hne, fun h => absurd rfl h⟩
    obtain ⟨c, l, rfl⟩ := exists_cons_of_ne_nil hne
    exact hhead
  · rw [hparse]
    exact ⟨hindent, hhead, fun h => absurd h Bool.false_ne_true, fun _ => hlast⟩

theorem text_parse (str : Bytes) : (parse str).text = str := by
  have hsplit : str.takeWhile isSpace ++ skipSpaces str = str := takeWhile_append_dropWhile
  rcases parse_cases str with ⟨l, hl, hparse⟩ | ⟨-, hparse⟩
  · rw [hl] at hsplit
    rw [hparse, text, append_assoc]
    exact hsplit
  · rw [hparse, text, append_assoc]
    simpa using hsplit

end LeaseLine

/-! ## The lines that are written -/

/-- What is kept of a line: nothing of one for the default DUID, and the indentation of one for
the client identifier. -/
def keptLine (duid : Bytes) (enforceDuid : Bool) (str : Bytes) : Option LeaseLine :=
  let line := LeaseLine.parse str
  if defaultDuid.isPrefixOf line.body then none
  else if enforceDuid ∧ clientId.isPrefixOf line.body then
    some { line with body := conflictingDuidLine duid }
  else some line

theorem saveLine_eq (duid : Bytes) (enforceDuid more : Bool) (str : Bytes) :
    saveLine duid enforceDuid more str =
      match keptLine duid enforceDuid str with
      | none => []
      | some line => line.text ++ if line.endsWithR ∨ more then ascii "\n" else [] := by
  have hend (line : LeaseLine) :
      (line.indent ++ line.body ++
        if line.endsWithR then ascii "\r\n" else if more then ascii "\n" else []) =
      line.text ++ if line.endsWithR ∨ more then ascii "\n" else [] := by
    cases hr : line.endsWithR <;> simp [LeaseLine.text, hr, ascii]
  unfold saveLine keptLine
  by_cases hdefault : defaultDuid.isPrefixOf (LeaseLine.parse str).body
  · simp only [hdefault, if_true]
  · by_cases henforce : enforceDuid ∧ clientId.isPrefixOf (LeaseLine.parse str).body
    · simp only [if_neg hdefault, if_pos henforce]
      exact hend { LeaseLine.parse str with body := conflictingDuidLine duid }
    · simp only [if_neg hdefault, if_neg henforce]
      exact hend (LeaseLine.parse str)

variable {str : Bytes}

theorem keptLine_cases {duid : Bytes} {enforceDuid : Bool} {line : LeaseLine}
    (h : keptLine duid enforceDuid str = some line) :
    ¬ defaultDuid.isPrefixOf (LeaseLine.parse str).body ∧
      ((enforceDuid ∧ clientId.isPrefixOf (LeaseLine.parse str).body ∧
          line = { LeaseLine.parse str with body := conflictingDuidLine duid }) ∨
        ¬ (enforceDuid ∧ clientId.isPrefixOf (LeaseLine.parse str).body) ∧
          line = LeaseLine.parse str) := by
  simp only [keptLine] at h
  split_ifs at h with hdefault henforce
  · exact ⟨hdefault, .inl ⟨henforce.1, henforce.2, (Option.some.inj h).symm⟩⟩
  · exact ⟨hdefault, .inr ⟨henforce, (Option.some.inj h).symm⟩⟩

theorem keptLine_wellFormed {duid : Bytes} {enforceDuid : Bool} {line : LeaseLine}
    (h : keptLine duid enforceDuid str = some line) : line.WellFormed := by
  have hparse := LeaseLine.parse_wellFormed str
  obtain ⟨-, ⟨-, -, rfl⟩ | ⟨-, rfl⟩⟩ := keptLine_cases h
  · refine ⟨hparse.indent_spaces, fun c hc => ?_, fun _ => by simp [conflictingDuidLine, ascii],
      fun _ => ?_⟩
    · obtain rfl : ('o' : UInt8) = c := Option.some.inj hc
      decide
    · simp only [conflictingDuidLine, ascii, List.getLast?_append]
      exact fun h => absurd (Option.some.inj h) (by decide)
  · exact hparse

theorem keptLine_text {duid : Bytes} {enforceDuid : Bool} {line : LeaseLine}
    (h : keptLine duid enforceDuid str = some line) :
    keptLine duid enforceDuid line.text = some line := by
  have hparse := (keptLine_wellFormed h).parse_text
  have hdefault : ¬ defaultDuid.isPrefixOf (conflictingDuidLine duid) := Bool.false_ne_true
  have hclient : clientId.isPrefixOf (conflictingDuidLine duid) := by
    simp [conflictingDuidLine, append_assoc]
  unfold keptLine
  obtain ⟨hnot, ⟨henforce, -, hline⟩ | ⟨henforce, rfl⟩⟩ := keptLine_cases h
  · have hbody : line.body = conflictingDuidLine duid := by rw [hline]
    simp only [hparse, hbody, if_neg hdefault, henforce, hclient, and_self, if_true]
    rw [← hbody]
  · simp only [hparse, if_neg hnot, if_neg henforce]

/-! ## Dividing what is written -/

def splitLines (s : Bytes) : List Bytes := splitTokens (ascii "\n") ⟨true, false, false, false⟩ false s

theorem unbroken_line {line : Bytes} (hline : ('\n' : UInt8) ∉ line) :
    Unbroken (ascii "\n") ⟨true, false, false, false⟩ line := by
  apply unbroken_of_not_mem rfl
  rintro c hc hmem
  obtain rfl : c = ('\n' : UInt8) := mem_singleton.mp hmem
  exact hline hc

theorem splitLines_append {line : Bytes} (hline : ('\n' : UInt8) ∉ line) (s : Bytes) :
    splitLines (line ++ ascii "\n" ++ s) = line :: splitLines s := by
  rw [append_assoc]
  exact (unbroken_line hline).split_delimiter (mem_singleton.mpr rfl) s

theorem splitLines_single {line : Bytes} (hline : ('\n' : UInt8) ∉ line) :
    splitLines line = [line] :=
  (unbroken_line hline).split

/-- A line of text has no line end, and no NUL. -/
def TextLine (str : Bytes) : Prop := ('\n' : UInt8) ∉ str ∧ NulFree str

theorem textLine_of_mem_splitLines {line : Bytes} (hs : NulFree s) (h : line ∈ splitLines s) :
    TextLine line := by
  have hmem := mem_of_mem_splitTokens rfl h
  exact ⟨fun hc => (hmem _ hc).2 (mem_singleton.mpr rfl), fun hc => hs (hmem 0 hc).1⟩

theorem leaseLines_some {contents : Bytes} (h : fileText contents ≠ []) :
    leaseLines (some contents) = splitLines (fileText contents) := by
  simp [leaseLines, strsplitSetWithEmpty, strsplitSetFull, h, splitLines, splitTokens_ne_nil]

theorem nulFree_fileText (contents : Bytes) : NulFree (fileText contents) := by
  intro h0
  simpa using mem_takeWhile_imp h0

theorem fileText_of_nulFree {contents : Bytes} (h : NulFree contents) :
    fileText contents = contents := by
  rw [fileText, takeWhile_eq_self_iff]
  intro c hc
  simpa using fun h0 : c = 0 => h (h0 ▸ hc)

theorem textLine_of_mem_leaseLines {file : Option Bytes} {line : Bytes}
    (h : line ∈ leaseLines file) : TextLine line := by
  cases file with
  | none => simp [leaseLines] at h
  | some contents =>
    by_cases htext : fileText contents = []
    · simp [leaseLines, strsplitSetWithEmpty, strsplitSetFull, htext] at h
    · rw [leaseLines_some htext] at h
      exact textLine_of_mem_splitLines (nulFree_fileText contents) h

theorem mem_byteHex : ∀ v, ∀ c ∈ byteHex v, isPrint c := by
  have hhex : ∀ v : UInt8, isPrint (hexchar v false) := by decide +kernel
  intro v c hc
  unfold byteHex at hc
  split_ifs at hc
  · rcases mem_pair.mp hc with rfl | rfl
    · exact hhex (v >>> (4 : UInt8))
    · exact hhex v
  · obtain rfl := mem_singleton.mp hc
    exact hhex v

theorem mem_escapeDuidAsHex {duid : Bytes} (hc : c ∈ escapeDuidAsHex duid) : isPrint c := by
  fun_induction escapeDuidAsHex duid with
  | case1 => simp at hc
  | case2 v => exact mem_byteHex v c hc
  | case3 v s hs ih =>
    simp only [mem_append] at hc
    rcases hc with (hc | hc) | hc
    · exact mem_byteHex v c hc
    · obtain rfl := mem_singleton.mp hc
      decide
    · exact ih hc

theorem mem_conflictingDuidLine {duid : Bytes} (hc : c ∈ conflictingDuidLine duid) : isPrint c := by
  have hclient : ∀ c ∈ clientId, isPrint c := by decide
  simp only [conflictingDuidLine, mem_append] at hc
  rcases hc with (hc | hc) | hc
  · exact hclient c hc
  · exact mem_escapeDuidAsHex hc
  · obtain rfl := mem_singleton.mp hc
    decide

theorem textLine_keptLine {duid : Bytes} {enforceDuid : Bool} {line : LeaseLine}
    (hstr : TextLine str) (h : keptLine duid enforceDuid str = some line) : TextLine line.text := by
  obtain ⟨-, ⟨-, -, hline⟩ | ⟨-, rfl⟩⟩ := keptLine_cases h
  · have htext : ∀ c ∈ line.text, c ∈ str ∨ isPrint c := by
      intro c hc
      have hsub : ∀ c ∈ (LeaseLine.parse str).text, c ∈ str := fun c hc => by
        rwa [LeaseLine.text_parse] at hc
      simp only [LeaseLine.text, hline, mem_append] at hc hsub
      rcases hc with (hc | hc) | hc
      · exact .inl (hsub c (.inl (.inl hc)))
      · exact .inr (mem_conflictingDuidLine hc)
      · exact .inl (hsub c (.inr hc))
    exact ⟨fun hc => (htext _ hc).elim hstr.1 (by decide),
      fun hc => (htext _ hc).elim hstr.2 (by decide)⟩
  · rwa [LeaseLine.text_parse]

/-! ## Saving once more -/

section Save

variable (duid : Bytes) (enforceDuid : Bool) {lines : List Bytes}

theorem saveLine_nil : saveLine duid enforceDuid false [] = [] := by
  cases enforceDuid <;> rfl

theorem splitLines_ne_nil (s : Bytes) : splitLines s ≠ [] := splitTokens_ne_nil s

theorem saveLines_splitLines (hlines : ∀ str ∈ lines, TextLine str) :
    saveLines duid enforceDuid (splitLines (saveLines duid enforceDuid lines)) =
      saveLines duid enforceDuid lines := by
  induction lines with
  | nil =>
    rw [saveLines, splitLines_single not_mem_nil, saveLines, saveLines, append_nil]
    exact saveLine_nil duid enforceDuid
  | cons str lines ih =>
    rw [forall_mem_cons] at hlines
    have hrest := ih hlines.2
    have hsave := saveLine_eq duid enforceDuid (lines ≠ []) str
    cases hkept : keptLine duid enforceDuid str with
    | none =>
      rw [hkept] at hsave
      rw [saveLines, hsave, nil_append]
      exact hrest
    | some line =>
      have hagain := keptLine_text hkept
      have htext := (textLine_keptLine hlines.1 hkept).1
      rw [hkept] at hsave
      by_cases hend : line.endsWithR ∨ lines ≠ []
      · have hend' : (line.endsWithR ∨ decide (lines ≠ []) = true) := by simpa using hend
        simp only [hend', if_true] at hsave
        have hmore := saveLine_eq duid enforceDuid true line.text
        simp only [hagain, or_true, if_true] at hmore
        rw [saveLines, hsave, splitLines_append htext, saveLines, hrest]
        simp only [ne_eq, splitLines_ne_nil, not_false_eq_true, decide_true, hmore]
      · -- the last line, which is written without a line end
        rw [not_or, not_not] at hend
        obtain ⟨hr, rfl⟩ := hend
        simp only [hr, ne_eq, not_true, decide_false, or_self, if_false, append_nil,
          Bool.false_eq_true] at hsave
        have hlast := saveLine_eq duid enforceDuid false line.text
        simp only [hagain, hr, Bool.false_eq_true, or_self, if_false, append_nil] at hlast
        have hsaved : saveLines duid enforceDuid [str] = line.text := by
          simp [saveLines, hsave]
        rw [hsaved, splitLines_single htext]
        simp [saveLines, hlast]

theorem nulFree_saveLines (hlines : ∀ str ∈ lines, TextLine str) :
    NulFree (saveLines duid enforceDuid lines) := by
  induction lines with
  | nil => exact nulFree_nil
  | cons str lines ih =>
    rw [forall_mem_cons] at hlines
    rw [saveLines, saveLine_eq, nulFree_append]
    refine ⟨?_, ih hlines.2⟩
    cases hkept : keptLine duid enforceDuid str with
    | none => exact nulFree_nil
    | some line =>
      refine nulFree_append.mpr ⟨(textLine_keptLine hlines.1 hkept).2, ?_⟩
      split_ifs <;> decide

/-! ## The other lines -/

def isOtherLine (str : Bytes) : Bool :=
  ¬ defaultDuid <+: skipSpaces str ∧ ¬ (enforceDuid ∧ clientId <+: skipSpaces str)

variable {duid enforceDuid}

theorem isPrefixOf_body {p : Bytes} (hp : ('\r' : UInt8) ∉ p) (str : Bytes) :
    p.isPrefixOf (LeaseLine.parse str).body ↔ p <+: skipSpaces str := by
  rw [ isPrefixOf_iff_prefix]
  rcases LeaseLine.parse_cases str with ⟨l, hl, hparse⟩ | ⟨-, hparse⟩
  · rw [hparse, hl]
    constructor
    · exact fun h => h.trans (prefix_append l _)
    · intro h
      rcases prefix_concat_iff.mp h with rfl | h
      · exact absurd (mem_append_right l (mem_singleton.mpr rfl)) hp
      · exact h
  · rw [hparse]

theorem isOtherLine_eq (str : Bytes) :
    isOtherLine enforceDuid str = (!defaultDuid.isPrefixOf (LeaseLine.parse str).body &&
      !(enforceDuid && clientId.isPrefixOf (LeaseLine.parse str).body)) := by
  have hdefault := isPrefixOf_body (p := defaultDuid) (by decide) str
  have hclient := isPrefixOf_body (p := clientId) (by decide) str
  rw [Bool.eq_iff_iff]
  simp only [isOtherLine, decide_eq_true_eq, ← hdefault, ← hclient]
  generalize defaultDuid.isPrefixOf _ = a, clientId.isPrefixOf _ = b
  cases a <;> cases b <;> simp

theorem isOtherLine_of_none (h : keptLine duid enforceDuid str = none) :
    isOtherLine enforceDuid str = false := by
  simp only [keptLine] at h
  split_ifs at h with hdefault
  simp [isOtherLine_eq, hdefault]

theorem isOtherLine_of_some {line : LeaseLine} (h : keptLine duid enforceDuid str = some line) :
    isOtherLine enforceDuid line.text = isOtherLine enforceDuid str ∧
      (isOtherLine enforceDuid str → line.text = str) := by
  have hparse := (keptLine_wellFormed h).parse_text
  have hclient : clientId.isPrefixOf (conflictingDuidLine duid) := by
    simp [conflictingDuidLine, append_assoc]
  obtain ⟨-, ⟨henforce, hstr, hline⟩ | ⟨-, rfl⟩⟩ := keptLine_cases h
  · have hbody : line.body = conflictingDuidLine duid := by rw [hline]
    rw [isOtherLine_eq, isOtherLine_eq, hparse, hbody]
    simp [henforce, hstr, hclient]
  · rw [LeaseLine.text_parse]
    exact ⟨rfl, fun _ => rfl⟩

variable (duid enforceDuid) in
theorem filter_splitLines_saveLines (hlines : ∀ str ∈ lines, TextLine str) :
    ∃ last : List Bytes, (last = [] ∨ last = [[]]) ∧
      (splitLines (saveLines duid enforceDuid lines)).filter (isOtherLine enforceDuid) =
        lines.filter (isOtherLine enforceDuid) ++ last := by
  induction lines with
  | nil =>
    refine ⟨[[]], .inr rfl, ?_⟩
    rw [saveLines, splitLines_single not_mem_nil]
    cases enforceDuid <;> rfl
  | cons str lines ih =>
    rw [forall_mem_cons] at hlines
    obtain ⟨last, hlast, hfilter⟩ := ih hlines.2
    cases hkept : keptLine duid enforceDuid str with
    | none =>
      have hother := isOtherLine_of_none hkept
      refine ⟨last, hlast, ?_⟩
      rw [saveLines, saveLine_eq, hkept, nil_append, hfilter,
        filter_cons_of_neg (by simp [hother])]
    | some line =>
      have htext := (textLine_keptLine hlines.1 hkept).1
      obtain ⟨hother, hsame⟩ := isOtherLine_of_some hkept
      have hcons (rest : List Bytes) : (line.text :: rest).filter (isOtherLine enforceDuid) =
          (str :: rest).filter (isOtherLine enforceDuid) := by
        by_cases hstr : isOtherLine enforceDuid str
        · rw [hsame hstr]
        · rw [filter_cons_of_neg hstr, filter_cons_of_neg (by rwa [hother])]
      rw [saveLines, saveLine_eq, hkept]
      by_cases hend : line.endsWithR ∨ decide (lines ≠ []) = true
      · refine ⟨last, hlast, ?_⟩
        simp only [hend, if_true]
        rw [splitLines_append htext, hcons, filter_cons, hfilter, filter_cons]
        split_ifs <;> rfl
      · rw [not_or, decide_eq_true_eq, not_not] at hend
        obtain ⟨hr, rfl⟩ := hend
        refine ⟨[], .inl rfl, ?_⟩
        have hlast : ¬ (line.endsWithR = true ∨ decide (([] : List Bytes) ≠ []) = true) := by
          simp [hr]
        simp only [if_neg hlast, append_nil, saveLines]
        rw [splitLines_single htext, hcons]

end Save

/-! ## The file that was saved -/

theorem mem_duidLine {duid : Bytes} (hc : c ∈ duidLine duid) : isPrint c := by
  have hdefault : ∀ c ∈ defaultDuid, isPrint c := by decide
  have hend : ∀ c ∈ ascii "\";", isPrint c := by decide
  simp only [duidLine, mem_append] at hc
  rcases hc with (hc | hc) | hc
  · exact hdefault c hc
  · exact mem_escapeDuid hc
  · exact hend c hc

theorem textLine_duidLine (duid : Bytes) : TextLine (duidLine duid) :=
  ⟨fun hc => absurd (mem_duidLine hc) (by decide), fun hc => absurd (mem_duidLine hc) (by decide)⟩

theorem readDuidLine_duidLine (duid : Bytes) : readDuidLine (duidLine duid) = some duid := by
  have hskip : skipSpaces (duidLine duid) = duidLine duid := by
    rw [duidLine, append_assoc]
    rfl
  have hstart : defaultDuid.isPrefixOf (duidLine duid) := by
    rw [ isPrefixOf_iff_prefix, duidLine, append_assoc]
    exact prefix_append _ _
  have hdrop : (duidLine duid).drop defaultDuid.length = escapeDuid duid ++ ascii "\";" := by
    rw [duidLine, append_assoc, drop_left]
  have hchomp : chomp (escapeDuid duid ++ ascii "\";") = escapeDuid duid ++ ascii "\";" := by
    have hlast := rdropWhile_concat_neg isSpace (escapeDuid duid ++ ascii "\"") (';' : UInt8)
      (by decide)
    rwa [append_assoc] at hlast
  have hsuffix : (ascii "\";").isSuffixOf (escapeDuid duid ++ ascii "\";") := by
    rw [isSuffixOf_iff_suffix]
    exact suffix_append _ _
  have htake : (escapeDuid duid ++ ascii "\";").take
      ((escapeDuid duid ++ ascii "\";").length - 2) = escapeDuid duid := by
    rw [length_append]
    exact take_left
  simp only [readDuidLine, hskip, hstart, hdrop, hchomp, hsuffix, htake, not_true, if_false]
  exact unescapeDuid_escapeDuid duid

theorem readDuid_duidLine (duid s : Bytes) :
    readDuid (some (duidLine duid ++ ascii "\n" ++ s)) = some duid := by
  have hline := textLine_duidLine duid
  have hr : ('\r' : UInt8) ∉ duidLine duid := fun hc =>
    absurd (mem_duidLine hc) (by decide)
  have hunbroken : Unbroken (ascii "\n\r") ⟨false, false, false, false⟩ (duidLine duid) := by
    apply unbroken_of_not_mem rfl
    rintro c hc hmem
    rcases mem_pair.mp hmem with rfl | rfl
    · exact hline.1 hc
    · exact hr hc
  have htext : fileText (duidLine duid ++ ascii "\n" ++ s) =
      duidLine duid ++ ('\n' : UInt8) :: fileText s := by
    have hnul : ∀ c ∈ duidLine duid ++ ascii "\n", (decide (c ≠ 0)) = true := by
      intro c hc
      rw [decide_eq_true_eq]
      rintro rfl
      rcases mem_append.mp hc with hc | hc
      · exact hline.2 hc
      · exact absurd hc (by decide)
    rw [fileText, takeWhile_append_of_pos hnul, append_assoc]
    rfl
  have hhead : (duidLine duid ++ ('\n' : UInt8) :: fileText s).dropWhile
      (· ∈ ascii "\n\r") = duidLine duid ++ ('\n' : UInt8) :: fileText s := by
    rw [duidLine, append_assoc, append_assoc]
    rfl
  have hsplit := hunbroken.split_delimiter (c := ('\n' : UInt8)) (by decide) (fileText s)
  have hne : duidLine duid ++ ('\n' : UInt8) :: fileText s ≠ [] := by simp
  have htokens : strsplitSet (duidLine duid ++ ('\n' : UInt8) :: fileText s) (ascii "\n\r") =
      some (duidLine duid :: splitTokens (ascii "\n\r") ⟨false, false, false, false⟩ true
        (fileText s)) := by
    simp only [strsplitSet, strsplitSetFull, Bool.false_eq_true, if_false, hhead, hne, hsplit,
      Bool.not_false, reduceCtorEq]
  simp only [readDuid, htext, htokens, Option.getD_some, List.findSome?_cons,
    readDuidLine_duidLine]

theorem leaseLines_duidLine (duid : Bytes) (hs : NulFree s) :
    leaseLines (some (duidLine duid ++ ascii "\n" ++ s)) = duidLine duid :: splitLines s := by
  have hline := textLine_duidLine duid
  have hnul : NulFree (duidLine duid ++ ascii "\n" ++ s) :=
    nulFree_append.mpr ⟨nulFree_append.mpr ⟨hline.2, by decide⟩, hs⟩
  have htext := fileText_of_nulFree hnul
  rw [leaseLines_some (by rw [htext]; simp [ascii]), htext, splitLines_append hline.1]

theorem keptLine_duidLine (duid : Bytes) (enforceDuid : Bool) :
    keptLine duid enforceDuid (duidLine duid) = none := by
  have hskip : skipSpaces (duidLine duid) = duidLine duid := by
    rw [duidLine, append_assoc]
    rfl
  have hstart := (isPrefixOf_body (p := defaultDuid) (by decide) (duidLine duid)).mpr (by
    rw [hskip, duidLine, append_assoc]
    exact prefix_append _ _)
  simp only [keptLine, hstart, if_true]

theorem saveDuid_fst (enforceDuid : Bool) (duid : Bytes) (file : Option Bytes) :
    (saveDuid enforceDuid duid file).1 =
      duidLine duid ++ ascii "\n" ++ saveLines duid enforceDuid (leaseLines file) := by
  unfold saveDuid
  cases file with
  | none => rfl
  | some contents =>
    dsimp only
    split_ifs with h
    · exact h.2
    · rfl

/-- The DUID that was saved is read back, and saving it again does not write the file. The other
lines are kept in their order, and unescaping reverts escaping. -/
theorem saveDuid_readDuid (enforceDuid : Bool) (duid : Bytes) (file : Option Bytes) :
    readDuid (some (saveDuid enforceDuid duid file).1) = some duid ∧
    saveDuid enforceDuid duid (some (saveDuid enforceDuid duid file).1) =
      ((saveDuid enforceDuid duid file).1, false) ∧
    (∃ last : List Bytes, (last = [] ∨ last = [[]]) ∧
      (leaseLines (some (saveDuid enforceDuid duid file).1)).filter (isOtherLine enforceDuid) =
        (leaseLines file).filter (isOtherLine enforceDuid) ++ last) ∧
    unescapeDuid (escapeDuid duid) = some duid := by
  have hlines : ∀ str ∈ leaseLines file, TextLine str := fun str => textLine_of_mem_leaseLines
  have hnul := nulFree_saveLines duid enforceDuid hlines
  have hkept := keptLine_duidLine duid enforceDuid
  have hagain := leaseLines_duidLine duid hnul
  rw [saveDuid_fst]
  refine ⟨readDuid_duidLine duid _, ?_, ?_, unescapeDuid_escapeDuid duid⟩
  · have hsaved := saveLines_splitLines duid enforceDuid hlines
    have hline := textLine_duidLine duid
    have hnul' : NulFree
        (duidLine duid ++ ascii "\n" ++ saveLines duid enforceDuid (leaseLines file)) :=
      nulFree_append.mpr ⟨nulFree_append.mpr ⟨hline.2, by decide⟩, hnul⟩
    have htop : saveLines duid enforceDuid (duidLine duid :: splitLines
        (saveLines duid enforceDuid (leaseLines file))) =
        saveLines duid enforceDuid (leaseLines file) := by
      rw [saveLines, saveLine_eq, hkept, nil_append, hsaved]
    simp only [saveDuid, hagain, htop, hnul', and_self, if_true]
  · obtain ⟨last, hlast, hfilter⟩ := filter_splitLines_saveLines duid enforceDuid hlines
    refine ⟨last, hlast, ?_⟩
    rw [hagain, filter_cons_of_neg (by simp [isOtherLine_of_none hkept]), hfilter]

end NetworkManager.Core
