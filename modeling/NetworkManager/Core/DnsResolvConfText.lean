import NetworkManager.Lib.Words
import Mathlib.Data.List.Basic

/-!
# The text of `resolv.conf`

`create_resolv_conf()` writes the search list in one line. A resolver that keeps only so many
characters of the line would see the last one cut off, so that the line is filled with
blanks where an entry crosses the boundary. A string is the list of its characters here.
-/

namespace NetworkManager.Core

open Lib List

/-- `NM_IN_SET(ch, ' ', '\t', '\n')` -/
def isSearchSeparator (ch : Char) : Bool := ch ∈ [' ', '\t', '\n']

/-- The buffer, and the offset of the characters behind `search`. Zero stands for none. -/
structure ResolvConfBuf where
  str : List Char
  searchBaseIdx : ℕ
  deriving DecidableEq

/-- The loop that fills the line with blanks. -/
def fillWithBlanks (str : List Char) (searchBaseIdx : ℕ) : List Char :=
  if str.length - searchBaseIdx < 257 then fillWithBlanks (str ++ [' ']) searchBaseIdx else str
termination_by searchBaseIdx + 257 - str.length
decreasing_by
  rw [length_append, length_singleton]
  omega

/-- One entry of the search list. -/
def appendSearch (buf : ResolvConfBuf) (s : List Char) : ResolvConfBuf :=
  if s.length = 0 ∨ s.any isSearchSeparator then buf
  else
    let buf : ResolvConfBuf :=
      if buf.searchBaseIdx > 0 ∧ buf.str.length - buf.searchBaseIdx + 1 + s.length > 254 then
        ⟨fillWithBlanks buf.str buf.searchBaseIdx, 0⟩
      else buf
    { buf with str := buf.str ++ ' ' :: s }

/-- The loop over the nameservers, from the one with a number. -/
def appendNameservers (i : ℕ) (str : List Char) : List (List Char) → List Char
  | [] => str
  | nameserver :: nameservers =>
    let str := if i = 3 then
        str ++ "# NOTE: the libc resolver may not support more than 3 nameservers.\n".toList ++
          "# The nameservers listed below may not be recognized.\n".toList
      else str
    appendNameservers (i + 1) (str ++ "nameserver ".toList ++ nameserver ++ ['\n']) nameservers

/-- `create_resolv_conf()`. A null pointer is the empty list. -/
def createResolvConf (searches nameservers options : List (List Char)) : List Char :=
  let str := "# Generated by NetworkManager\n".toList
  let str := if searches = [] then str
    else
      let str := str ++ "search".toList
      (searches.foldl appendSearch ⟨str, str.length⟩).str ++ ['\n']
  let str := if nameservers = [] then str else appendNameservers 0 str nameservers
  if options = [] then str
  else options.foldl (fun str option => str ++ ' ' :: option) (str ++ "options".toList) ++ ['\n']

/-! ## How a resolver reads it -/

def isBlank (ch : Char) : Bool := ch ∈ [' ', '\t']

def searchArgument (line : List Char) : Option (List Char) :=
  if "search".toList <+: line ∧ (line.drop "search".toList.length).head?.any isBlank then
    some (line.drop "search".toList.length)
  else none

def readSearch (keep : List Char → List Char) (text : List Char) : List (List Char) :=
  (text.splitOn '\n').foldl (fun search line =>
    (searchArgument line).elim search fun argument => words isBlank (keep argument)) []

def keepFirst255 (argument : List Char) : List Char := (argument.dropWhile isBlank).take 255

def searchEntries (searches : List (List Char)) : List (List Char) :=
  searches.filter fun s => s ≠ [] ∧ ¬ s.any isSearchSeparator

/-! ## Filling the line -/

theorem fillWithBlanks_eq (str : List Char) (searchBaseIdx : ℕ) (hle : searchBaseIdx ≤ str.length) :
    fillWithBlanks str searchBaseIdx =
      str ++ List.replicate (257 - (str.length - searchBaseIdx)) ' ' := by
  fun_induction fillWithBlanks str searchBaseIdx with
  | case1 str hlt ih =>
    have hlen : (str ++ [' ']).length = str.length + 1 := by simp
    rw [ih (by omega), hlen, append_assoc, singleton_append, ← replicate_succ]
    congr 2
    omega
  | case2 str hge => simp [Nat.sub_eq_zero_of_le (Nat.not_lt.mp hge)]

theorem isBlank_of_separator {ch : Char} (h : isBlank ch) : isSearchSeparator ch := by
  simp only [isBlank, isSearchSeparator, mem_cons, decide_eq_true_eq] at h ⊢
  rcases h with h | h | h
  · exact .inl h
  · exact .inr (.inl h)
  · cases h

/-- An entry that is kept. -/
structure SearchEntry (s : List Char) : Prop where
  ne_nil : s ≠ []
  clean : ∀ ch ∈ s, ¬ isSearchSeparator ch
  length_le : s.length ≤ 253

def written (entries : List (List Char)) : List Char := entries.flatMap (' ' :: ·)

theorem words_append_written (text : List Char) {entries : List (List Char)}
    (h : ∀ s ∈ entries, SearchEntry s) :
    words isBlank (text ++ written entries) = words isBlank text ++ entries :=
  words_append_flatMap_cons (by decide) text (fun s hs => (h s hs).ne_nil)
    fun s hs ch hch hblank => (h s hs).clean ch hch (isBlank_of_separator hblank)

/-- What the loop wrote behind the keyword for some entries: those that fit before the boundary, and
then those after it. -/
structure SearchTail (base : ℕ) (entries : List (List Char)) (buf : ResolvConfBuf)
    (head : List Char) (before after : List (List Char)) (blanks : ℕ) : Prop where
  entries_eq : entries = before ++ after
  str_eq : buf.str = head ++ (written before ++ List.replicate blanks ' ' ++ written after)
  fits : (written before).length ≤ 254
  /-- No entry is behind the boundary, as long as it is not crossed. -/
  searching : buf.searchBaseIdx = base ∧ blanks = 0 ∧ after = [] ∨
    buf.searchBaseIdx = 0 ∧ before ≠ [] ∧ 257 ≤ (written before).length + blanks

theorem SearchTail.append {base : ℕ} {entries : List (List Char)} {buf : ResolvConfBuf}
    {head : List Char} {before after : List (List Char)} {blanks : ℕ} {s : List Char}
    (h : SearchTail base entries buf head before after blanks) (hbase : base = head.length)
    (hpos : 0 < base) (hs : SearchEntry s) :
    ∃ before' after' blanks',
      SearchTail base (entries ++ [s]) (appendSearch buf s) head before' after' blanks' := by
  have hskip : ¬ (s.length = 0 ∨ s.any isSearchSeparator) := by
    rw [length_eq_zero_iff, any_eq_true]
    rintro (hnil | ⟨ch, hch, hsep⟩)
    · exact hs.ne_nil hnil
    · exact hs.clean ch hch hsep
  have hone : written [s] = ' ' :: s := by simp [written]
  have hsnoc (entries : List (List Char)) :
      written (entries ++ [s]) = written entries ++ ' ' :: s := by
    simp [written]
  unfold appendSearch
  rw [if_neg hskip]
  rcases h.searching with ⟨hidx, rfl, rfl⟩ | ⟨hidx, hne, hcrossed⟩
  · have hstr : buf.str = head ++ written before := by simpa [written] using h.str_eq
    have hlen : buf.str.length - buf.searchBaseIdx = (written before).length := by
      rw [hstr, hidx, hbase, length_append]
      omega
    have hfits := h.fits
    by_cases hcross : (written before).length + 1 + s.length > 254
    · -- The entry crosses the boundary, and is written behind it.
      have hne : before ≠ [] := by
        rintro rfl
        have := hs.length_le
        simp only [written, flatMap_nil, length_nil] at hcross
        omega
      rw [if_pos ⟨by omega, by omega⟩,
        fillWithBlanks_eq _ _ (by rw [hstr, hidx, hbase, length_append]; omega), hlen]
      refine ⟨before, [s], 257 - (written before).length, ?_, ?_, hfits, .inr ⟨rfl, hne, by omega⟩⟩
      · rw [h.entries_eq, append_nil]
      · simp [hstr, hone]
    · rw [if_neg (by omega)]
      refine ⟨before ++ [s], [], 0, ?_, ?_, ?_, .inl ⟨hidx, rfl, rfl⟩⟩
      · rw [h.entries_eq, append_nil, append_nil]
      · rw [hsnoc]
        simp [hstr, written]
      · rw [hsnoc, length_append, length_cons]
        omega
  · rw [if_neg (by omega)]
    refine ⟨before, after ++ [s], blanks, ?_, ?_, h.fits, .inr ⟨hidx, hne, hcrossed⟩⟩
    · rw [h.entries_eq, append_assoc]
    · rw [hsnoc]
      simp [h.str_eq]

variable {searches : List (List Char)}

theorem foldl_appendSearch (hlen : ∀ s ∈ searches, s.length ≤ 253) (head : List Char)
    (hpos : 0 < head.length) :
    ∃ before after blanks, SearchTail head.length (searchEntries searches)
      (searches.foldl appendSearch ⟨head, head.length⟩) head before after blanks := by
  induction searches using List.reverseRecOn with
  | nil => exact ⟨[], [], 0, rfl, by simp [written], by simp [written], .inl ⟨rfl, rfl, rfl⟩⟩
  | append_singleton searches s ih =>
    obtain ⟨before, after, blanks, h⟩ := ih fun s hs => hlen s (mem_append_left _ hs)
    rw [foldl_append, foldl_cons, foldl_nil, searchEntries, filter_append]
    by_cases hs : s ≠ [] ∧ ∀ ch ∈ s, ¬ isSearchSeparator ch
    · rw [filter_cons_of_pos (by simpa using hs)]
      have hle := hlen s (mem_append_right _ (mem_singleton_self s))
      exact h.append rfl hpos ⟨hs.1, hs.2, hle⟩
    · have hskip : s.length = 0 ∨ s.any isSearchSeparator := by
        rw [length_eq_zero_iff, any_eq_true]
        by_contra hcon
        push Not at hcon
        exact hs ⟨hcon.1, fun ch hch => by simpa using hcon.2 ch hch⟩
      rw [filter_cons_of_neg (by simpa using hs), filter_nil, append_nil,
        appendSearch, if_pos hskip]
      exact ⟨before, after, blanks, h⟩

theorem searchEntries_entry (hlen : ∀ s ∈ searches, s.length ≤ 253) :
    ∀ s ∈ searchEntries searches, SearchEntry s := by
  intro s hs
  obtain ⟨hmem, hkept⟩ := mem_filter.mp hs
  have hkept : s ≠ [] ∧ ∀ ch ∈ s, ¬ isSearchSeparator ch := by simpa using hkept
  exact ⟨hkept.1, hkept.2, hlen s hmem⟩

/-! ## Reading the line -/

section Read

variable {base : ℕ} {entries : List (List Char)} {buf : ResolvConfBuf} {head : List Char}
  {before after : List (List Char)} {blanks : ℕ}

theorem SearchTail.words_eq (h : SearchTail base entries buf head before after blanks)
    (hentries : ∀ s ∈ entries, SearchEntry s) :
    words isBlank (written before ++ List.replicate blanks ' ' ++ written after) = entries := by
  rw [h.entries_eq] at hentries ⊢
  have hbefore : ∀ s ∈ before, SearchEntry s := fun s hs => hentries s (mem_append_left _ hs)
  have hafter : ∀ s ∈ after, SearchEntry s := fun s hs => hentries s (mem_append_right _ hs)
  have hwords := words_append_written [] hbefore
  rw [nil_append, words_nil, nil_append] at hwords
  rw [words_append_written _ hafter, words_append_replicate (by decide), hwords]

theorem take_append_replicate {text rest : List Char} {n : ℕ} (hfits : text.length ≤ 255)
    (h : rest = [] ∨ 255 ≤ text.length + n) :
    ∃ m, (text ++ List.replicate n ' ' ++ rest).take 255 = text ++ List.replicate m ' ' := by
  refine ⟨min (255 - text.length) n, ?_⟩
  have htext : text.take 255 = text := take_of_length_le hfits
  rw [append_assoc, take_append, htext, take_append, take_replicate]
  rcases h with rfl | hlong
  · simp
  · rw [length_replicate, Nat.sub_eq_zero_of_le (by omega : 255 - text.length ≤ n)]
    simp

theorem SearchTail.words_keepFirst255 (h : SearchTail base entries buf head before after blanks)
    (hentries : ∀ s ∈ entries, SearchEntry s) :
    words isBlank
      (keepFirst255 (written before ++ List.replicate blanks ' ' ++ written after)) = before := by
  have hbefore : ∀ s ∈ before, SearchEntry s := fun s hs =>
    hentries s (h.entries_eq ▸ mem_append_left _ hs)
  cases before with
  | nil =>
    obtain ⟨-, rfl, rfl⟩ : _ ∧ blanks = 0 ∧ after = [] := by simpa using h.searching
    rfl
  | cons e more =>
    obtain ⟨c, e', rfl⟩ := exists_cons_of_ne_nil (hbefore e mem_cons_self).ne_nil
    have hclean : isBlank c = false := by
      have hc := (hbefore (c :: e') mem_cons_self).clean c mem_cons_self
      by_contra hblank
      exact hc (isBlank_of_separator (by simpa using hblank))
    have hwritten : written ((c :: e') :: more) = ' ' :: (c :: e' ++ written more) := by
      simp [written]
    have hwords := words_append_written [] hbefore
    rw [nil_append, words_nil, nil_append, hwritten, words_cons (by decide)] at hwords
    have hfits := h.fits
    rw [hwritten, length_cons] at hfits
    have hdrop : (written ((c :: e') :: more) ++ List.replicate blanks ' ' ++
        written after).dropWhile isBlank =
          c :: e' ++ written more ++ List.replicate blanks ' ' ++ written after := by
      have hspace : isBlank ' ' = true := by decide
      rw [hwritten]
      simp [hspace, hclean]
    obtain ⟨m, htake⟩ : ∃ m, (c :: e' ++ written more ++ List.replicate blanks ' ' ++
        written after).take 255 = c :: e' ++ written more ++ List.replicate m ' ' := by
      apply take_append_replicate (by omega)
      rcases h.searching with ⟨-, -, rfl⟩ | ⟨-, -, hcrossed⟩
      · exact .inl rfl
      · rw [hwritten, length_cons] at hcrossed
        exact .inr (by omega)
    rw [keepFirst255, hdrop, htake, words_append_replicate (by decide), hwords]

end Read

/-! ## The other lines -/

/-- Lines that a resolver finds no search list in. -/
def NoSearchLines (text : List Char) : Prop :=
  ∃ lines, text = unlines '\n' lines ∧ ∀ line ∈ lines, '\n' ∉ line ∧ searchArgument line = none

theorem noSearchLines_nil : NoSearchLines [] := ⟨[], rfl, by simp⟩

theorem NoSearchLines.append {a b : List Char} (ha : NoSearchLines a) (hb : NoSearchLines b) :
    NoSearchLines (a ++ b) := by
  obtain ⟨la, rfl, ha⟩ := ha
  obtain ⟨lb, rfl, hb⟩ := hb
  exact ⟨la ++ lb, (unlines_append _ _ _).symm, forall_mem_append.mpr ⟨ha, hb⟩⟩

theorem noSearchLines_line {c : Char} {l : List Char} (hhead : l.head? = some c) (hc : c ≠ 's')
    (hline : '\n' ∉ l) : NoSearchLines (l ++ ['\n']) := by
  refine ⟨[l], by simp [unlines], ?_⟩
  intro line hmem
  obtain rfl := mem_singleton.mp hmem
  refine ⟨hline, if_neg ?_⟩
  rintro ⟨⟨rest, rfl⟩, -⟩
  exact hc (Option.some.inj hhead).symm

theorem noSearchLines_text {c : Char} {s : List Char} (hhead : s.dropLast.head? = some c)
    (hc : c ≠ 's') (hline : '\n' ∉ s.dropLast) (hlast : '\n' ∈ s.getLast?) :
    NoSearchLines (String.ofList s).toList := by
  rw [String.toList_ofList, ← dropLast_append_getLast? '\n' hlast]
  exact noSearchLines_line hhead hc hline

variable {nameservers : List (List Char)}

theorem appendNameservers_eq (h : ∀ n ∈ nameservers, '\n' ∉ n) (i : ℕ) (str : List Char) :
    ∃ rest, appendNameservers i str nameservers = str ++ rest ∧ NoSearchLines rest := by
  induction nameservers generalizing i str with
  | nil => exact ⟨[], (append_nil str).symm, noSearchLines_nil⟩
  | cons n ns ih =>
    have hn : NoSearchLines ("nameserver ".toList ++ n ++ ['\n']) :=
      noSearchLines_line (c := 'n') rfl (by decide)
        (not_mem_append (by decide) (h n mem_cons_self))
    have hns : ∀ n ∈ ns, '\n' ∉ n := fun n hn => h n (mem_cons_of_mem _ hn)
    rw [appendNameservers]
    split_ifs with hthird
    · obtain ⟨rest, heq, hrest⟩ := ih hns (i + 1) (str ++
        "# NOTE: the libc resolver may not support more than 3 nameservers.\n".toList ++
        "# The nameservers listed below may not be recognized.\n".toList ++ "nameserver ".toList ++
        n ++ ['\n'])
      have hnote : NoSearchLines
          "# NOTE: the libc resolver may not support more than 3 nameservers.\n".toList :=
        noSearchLines_text (c := '#') rfl (by decide) (by decide) rfl
      have hlisted : NoSearchLines
          "# The nameservers listed below may not be recognized.\n".toList :=
        noSearchLines_text (c := '#') rfl (by decide) (by decide) rfl
      exact ⟨_, heq.trans (by simp only [append_assoc]),
        hnote.append (hlisted.append (hn.append hrest))⟩
    · obtain ⟨rest, heq, hrest⟩ := ih hns (i + 1) (str ++ "nameserver ".toList ++ n ++ ['\n'])
      exact ⟨_, heq.trans (by simp only [append_assoc]), hn.append hrest⟩

theorem foldl_options (options : List (List Char)) (str : List Char) :
    options.foldl (fun str option => str ++ ' ' :: option) str = str ++ written options := by
  induction options generalizing str with
  | nil => simp [written]
  | cons option options ih =>
    rw [foldl_cons, ih]
    simp [written]

theorem createResolvConf_eq (searches : List (List Char)) {options : List (List Char)}
    (hnameservers : ∀ n ∈ nameservers, '\n' ∉ n) (hoptions : ∀ o ∈ options, '\n' ∉ o) :
    ∃ rest, NoSearchLines rest ∧ createResolvConf searches nameservers options =
      (if searches = [] then "# Generated by NetworkManager\n".toList
      else
        let str := "# Generated by NetworkManager\n".toList ++ "search".toList
        (searches.foldl appendSearch ⟨str, str.length⟩).str ++ ['\n']) ++ rest := by
  unfold createResolvConf
  dsimp only
  generalize (if searches = [] then _ else _ : List Char) = str
  obtain ⟨ns, hns, hrest⟩ : ∃ ns, (if nameservers = [] then str
      else appendNameservers 0 str nameservers) = str ++ ns ∧ NoSearchLines ns := by
    split_ifs
    · exact ⟨[], (append_nil str).symm, noSearchLines_nil⟩
    · exact appendNameservers_eq hnameservers 0 str
  rw [hns]
  split_ifs
  · exact ⟨ns, hrest, rfl⟩
  · have hline : NoSearchLines ("options".toList ++ written options ++ ['\n']) := by
      apply noSearchLines_line (c := 'o') rfl (by decide) (not_mem_append (by decide) ?_)
      simpa [written] using hoptions
    refine ⟨ns ++ ("options".toList ++ written options ++ ['\n']), hrest.append hline, ?_⟩
    rw [foldl_options]
    simp only [append_assoc]

def readLine (keep : List Char → List Char) (search : List (List Char)) (line : List Char) :
    List (List Char) :=
  (searchArgument line).elim search fun argument => words isBlank (keep argument)

theorem foldl_readLine {lines : List (List Char)} (keep : List Char → List Char)
    (search : List (List Char)) (h : ∀ line ∈ lines, searchArgument line = none) :
    lines.foldl (readLine keep) search = search := by
  induction lines with
  | nil => rfl
  | cons line lines ih =>
    rw [foldl_cons, readLine, h line mem_cons_self]
    exact ih fun line hline => h line (mem_cons_of_mem _ hline)

theorem readSearch_unlines (keep : List Char → List Char) {lines : List (List Char)}
    (h : ∀ line ∈ lines, '\n' ∉ line) :
    readSearch keep (unlines '\n' lines) = lines.foldl (readLine keep) [] := by
  rw [readSearch, splitOn_unlines h, foldl_append]
  rfl

theorem NoSearchLines.readSearch_eq_nil {text : List Char} (h : NoSearchLines text)
    (keep : List Char → List Char) : readSearch keep text = [] := by
  obtain ⟨lines, rfl, hlines⟩ := h
  rw [readSearch_unlines keep fun line hline => (hlines line hline).1]
  exact foldl_readLine keep [] fun line hline => (hlines line hline).2

theorem readSearch_eq (keep : List Char → List Char) {head tail rest : List Char}
    (hhead : NoSearchLines head) (hrest : NoSearchLines rest) (hnewline : '\n' ∉ tail)
    (htail : tail = [] ∨ tail.head? = some ' ') (hkeep : keep [] = []) :
    readSearch keep (head ++ ("search".toList ++ tail ++ ['\n']) ++ rest) =
      words isBlank (keep tail) := by
  obtain ⟨before, rfl, hbefore⟩ := hhead
  obtain ⟨after, rfl, hafter⟩ := hrest
  have htext : unlines '\n' before ++ ("search".toList ++ tail ++ ['\n']) ++ unlines '\n' after =
      unlines '\n' (before ++ ["search".toList ++ tail] ++ after) := by
    simp [unlines]
  have hline : '\n' ∉ "search".toList ++ tail := not_mem_append (by decide) hnewline
  have hclean : ∀ line ∈ before ++ ["search".toList ++ tail] ++ after, '\n' ∉ line := by
    intro line hmem
    simp only [mem_append, mem_singleton] at hmem
    rcases hmem with (hmem | rfl) | hmem
    · exact (hbefore line hmem).1
    · exact not_mem_append (by decide) hnewline
    · exact (hafter line hmem).1
  rw [htext, readSearch_unlines keep hclean, foldl_append, foldl_append,
    foldl_readLine keep _ fun line hmem => (hbefore line hmem).2, foldl_cons, foldl_nil,
    foldl_readLine keep _ fun line hmem => (hafter line hmem).2, readLine]
  rcases htail with rfl | hblank
  · have hnone : searchArgument ("search".toList ++ []) = none := by decide
    rw [hnone, Option.elim_none, hkeep, words_nil]
  · have hsome : searchArgument ("search".toList ++ tail) = some tail := by
      rw [searchArgument, drop_left, hblank, if_pos ⟨prefix_append _ _, rfl⟩]
    rw [hsome, Option.elim_some]

theorem newline_not_mem_written {entries : List (List Char)} (h : ∀ s ∈ entries, SearchEntry s) :
    '\n' ∉ written entries := by
  intro hmem
  obtain ⟨s, hs, hmem⟩ := mem_flatMap.mp hmem
  rcases mem_cons.mp hmem with heq | hmem
  · exact absurd heq (by decide)
  · exact (h s hs).clean _ hmem (by decide)

theorem readSearch_createResolvConf {options : List (List Char)}
    (hlen : ∀ s ∈ searches, s.length ≤ 253) (hnameservers : ∀ n ∈ nameservers, '\n' ∉ n)
    (hoptions : ∀ o ∈ options, '\n' ∉ o) :
    ∃ base buf head before after blanks,
      SearchTail base (searchEntries searches) buf head before after blanks ∧
      ∀ keep : List Char → List Char, keep [] = [] →
        readSearch keep (createResolvConf searches nameservers options) = words isBlank
          (keep (written before ++ List.replicate blanks ' ' ++ written after)) := by
  have hgenerated : NoSearchLines "# Generated by NetworkManager\n".toList :=
    noSearchLines_text (c := '#') rfl (by decide) (by decide) rfl
  obtain ⟨rest, hrest, htext⟩ := createResolvConf_eq searches hnameservers hoptions
  obtain ⟨before, after, blanks, h⟩ := foldl_appendSearch hlen
    ("# Generated by NetworkManager\n".toList ++ "search".toList) (by decide)
  refine ⟨_, _, _, before, after, blanks, h, fun keep hkeep => ?_⟩
  rw [htext]
  split_ifs with hnil
  · subst hnil
    obtain ⟨rfl, rfl⟩ : before = [] ∧ after = [] := append_eq_nil_iff.mp h.entries_eq.symm
    obtain rfl : blanks = 0 := by simpa using h.searching
    rw [(hgenerated.append hrest).readSearch_eq_nil keep]
    simp [written, hkeep]
  · have hentries := searchEntries_entry hlen
    rw [h.entries_eq] at hentries
    have hbefore := newline_not_mem_written fun s hs => hentries s (mem_append_left _ hs)
    have hafter := newline_not_mem_written fun s hs => hentries s (mem_append_right _ hs)
    have hblanks : '\n' ∉ List.replicate blanks ' ' := fun hmem =>
      absurd (eq_of_mem_replicate hmem) (by decide)
    have hfirst : written before ++ List.replicate blanks ' ' ++ written after = [] ∨
        (written before ++ List.replicate blanks ' ' ++ written after).head? = some ' ' := by
      cases before with
      | nil =>
        obtain ⟨-, rfl, rfl⟩ : _ ∧ blanks = 0 ∧ after = [] := by simpa using h.searching
        exact .inl rfl
      | cons e more => exact .inr rfl
    have hread := readSearch_eq keep hgenerated hrest
      (not_mem_append (not_mem_append hbefore hblanks) hafter) hfirst hkeep
    dsimp only
    rw [h.str_eq, ← hread]
    simp only [append_assoc]

/-- A resolver that keeps the whole search line reads exactly the entries, and an old one reads the
first ones of them, each in full. -/
theorem search_line_survives {searches nameservers options : List (List Char)}
    (hlen : ∀ s ∈ searches, s.length ≤ 253) (hnameservers : ∀ n ∈ nameservers, '\n' ∉ n)
    (hoptions : ∀ o ∈ options, '\n' ∉ o) :
    readSearch id (createResolvConf searches nameservers options) = searchEntries searches ∧
      readSearch keepFirst255 (createResolvConf searches nameservers options) <+:
        searchEntries searches := by
  obtain ⟨base, buf, head, before, after, blanks, h, hread⟩ :=
    readSearch_createResolvConf hlen hnameservers hoptions
  have hentries := searchEntries_entry hlen
  constructor
  · rw [hread id rfl]
    exact h.words_eq hentries
  · rw [hread keepFirst255 rfl, h.words_keepFirst255 hentries, h.entries_eq]
    exact prefix_append _ _

/-- The second entry crosses the boundary. -/
theorem search_line_survives_long :
    readSearch id (createResolvConf [List.replicate 253 'a', ['b']] [['1']] []) =
        searchEntries [List.replicate 253 'a', ['b']] ∧
      readSearch keepFirst255 (createResolvConf [List.replicate 253 'a', ['b']] [['1']] []) <+:
        searchEntries [List.replicate 253 'a', ['b']] := by
  refine search_line_survives ?_ (by decide) (by decide)
  intro s hs
  rcases mem_cons.mp hs with rfl | hs
  · exact Nat.le_of_eq length_replicate
  · obtain rfl := mem_singleton.mp hs
    decide

end NetworkManager.Core
