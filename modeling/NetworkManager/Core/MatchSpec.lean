import NetworkManager.Lib.Bytes

/-!
# Lists of match specifications

A list of specifications is one text. It is split at commas and semicolons, with escape sequences
and without the blanks around the pieces. The count of trailing blanks is not reset by a character
that is no blank, so a blank inside of a specification takes characters from its end.
-/

namespace NetworkManager.Core

open Lib List

/-- The characters of an escape sequence of `nm_match_spec_split()`. -/
def matchSpecUnescape (c : UInt8) : Bytes :=
  if c = 's' then [' ']
  else if c = 'n' then ['\n']
  else if c = 't' then ['\t']
  else if c = 'r' then ['\r']
  else if c = '\\' then ['\\']
  else if c = ',' ∨ c = ';' then [c]
  else ['\\', c]

def matchSpecPiece (piece : Bytes) (trailingWs : ℕ) : List Bytes :=
  if trailingWs < piece.length then [piece.take (piece.length - trailingWs)] else []

/-- The loop of `nm_match_spec_split()`; `skip` says that blanks are skipped. The count of trailing
blanks starts again at an escape sequence and at a separator. -/
def matchSpecSplitLoop (skip : Bool) (piece : Bytes) (trailingWs : ℕ) : Bytes → List Bytes
  | [] => matchSpecPiece piece trailingWs
  | [c] =>
    if skip && isSpace c then matchSpecPiece piece trailingWs
    else if c = '\\' then matchSpecPiece piece trailingWs
    else if isSpace c then matchSpecPiece (piece ++ [c]) (trailingWs + 1)
    else if c = ',' ∨ c = ';' then matchSpecPiece piece trailingWs ++ matchSpecPiece [] 0
    else matchSpecPiece (piece ++ [c]) trailingWs
  | c :: d :: s =>
    if skip && isSpace c then matchSpecSplitLoop true piece trailingWs (d :: s)
    else if c = '\\' then matchSpecSplitLoop false (piece ++ matchSpecUnescape d) 0 s
    else if isSpace c then matchSpecSplitLoop false (piece ++ [c]) (trailingWs + 1) (d :: s)
    else if c = ',' ∨ c = ';' then
      matchSpecPiece piece trailingWs ++ matchSpecSplitLoop true [] 0 (d :: s)
    else matchSpecSplitLoop false (piece ++ [c]) trailingWs (d :: s)

def matchSpecSplit (value : Option Bytes) : List Bytes :=
  matchSpecSplitLoop true [] 0 (value.getD [])

/-- A character of `nm_match_spec_join()`. -/
def matchSpecEscape (c : UInt8) : Bytes :=
  if c = '\n' then ascii "\\n"
  else if c = '\r' then ascii "\\r"
  else if c = '\\' then ascii "\\\\"
  else if c = ',' then ascii "\\,"
  else if c = ';' then ascii "\\;"
  else [c]

/-- Leading blanks are escaped, which is the first character only. -/
def matchSpecEscapeLeading : Bytes → Bytes
  | [] => []
  | c :: p =>
    if c = ' ' then ascii "\\s" ++ p.flatMap matchSpecEscape
    else if c = '\t' then ascii "\\t" ++ p.flatMap matchSpecEscape
    else (c :: p).flatMap matchSpecEscape

def matchSpecEscapeTrailing (str : Bytes) : Bytes :=
  if str.getLast? = some ' ' then str.dropLast ++ ascii "\\s"
  else if str.getLast? = some '\t' then str.dropLast ++ ascii "\\t"
  else str

def matchSpecJoin (specs : List Bytes) : Bytes :=
  specs.foldl (fun str p =>
    if p = [] then str
    else matchSpecEscapeTrailing
      ((if str = [] then [] else str ++ ascii ",") ++ matchSpecEscapeLeading p)) []

/-! ## Rounds of the loop that splits -/

section Rounds

variable {skip : Bool} {piece : Bytes} {trailingWs : ℕ} {c : UInt8} (s : Bytes)

theorem matchSpecSplitLoop_cons (hslash : c ≠ '\\') :
    matchSpecSplitLoop skip piece trailingWs (c :: s) =
      if skip && isSpace c then matchSpecSplitLoop true piece trailingWs s
      else if isSpace c then matchSpecSplitLoop false (piece ++ [c]) (trailingWs + 1) s
      else if c = ',' ∨ c = ';' then
        matchSpecPiece piece trailingWs ++ matchSpecSplitLoop true [] 0 s
      else matchSpecSplitLoop false (piece ++ [c]) trailingWs s := by
  cases s <;> simp [matchSpecSplitLoop, hslash]

theorem matchSpecSplitLoop_skip (h : isSpace c) :
    matchSpecSplitLoop true piece trailingWs (c :: s) =
      matchSpecSplitLoop true piece trailingWs s := by
  simp [matchSpecSplitLoop_cons s (ne_backslash_of_isSpace h), h]

theorem matchSpecSplitLoop_skip_irrelevant (h : isSpace c = false) :
    matchSpecSplitLoop skip piece trailingWs (c :: s) =
      matchSpecSplitLoop false piece trailingWs (c :: s) := by
  cases s <;> simp [matchSpecSplitLoop, h]

theorem matchSpecSplitLoop_escape (d : UInt8) :
    matchSpecSplitLoop skip piece trailingWs (('\\' : UInt8) :: d :: s) =
      matchSpecSplitLoop false (piece ++ matchSpecUnescape d) 0 s := by
  have hslash : isSpace '\\' = false := by decide
  simp [matchSpecSplitLoop, hslash]

theorem matchSpecSplitLoop_blank (h : isSpace c) :
    matchSpecSplitLoop false piece trailingWs (c :: s) =
      matchSpecSplitLoop false (piece ++ [c]) (trailingWs + 1) s := by
  simp [matchSpecSplitLoop_cons s (ne_backslash_of_isSpace h), h]

theorem matchSpecSplitLoop_separator (h : c = ',' ∨ c = ';') :
    matchSpecSplitLoop skip piece trailingWs (c :: s) =
      matchSpecPiece piece trailingWs ++ matchSpecSplitLoop true [] 0 s := by
  obtain ⟨hspace, hslash⟩ : isSpace c = false ∧ c ≠ '\\' := by
    rcases h with rfl | rfl <;> decide
  simp [matchSpecSplitLoop_cons s hslash, h, hspace]

theorem matchSpecSplitLoop_char (hspace : isSpace c = false) (hslash : c ≠ '\\')
    (hseparator : ¬ (c = ',' ∨ c = ';')) :
    matchSpecSplitLoop skip piece trailingWs (c :: s) =
      matchSpecSplitLoop false (piece ++ [c]) trailingWs s := by
  simp [matchSpecSplitLoop_cons s hslash, hseparator, hspace]

end Rounds

/-! ## What is written -/

/-- The characters that the loop of `nm_match_spec_split()` writes to its buffer, without the
terminator. -/
def matchSpecSplitWritten (skip : Bool) : Bytes → Bytes
  | [] => []
  | [c] => if skip && isSpace c || c = '\\' then [] else [c]
  | c :: d :: s =>
    if skip && isSpace c then matchSpecSplitWritten true (d :: s)
    else if c = '\\' then matchSpecUnescape d ++ matchSpecSplitWritten false s
    else c :: matchSpecSplitWritten (c = ',' ∨ c = ';') (d :: s)

theorem length_matchSpecUnescape_le (c : UInt8) : (matchSpecUnescape c).length ≤ 2 := by
  unfold matchSpecUnescape
  split_ifs <;> simp

theorem length_matchSpecSplitWritten_le (skip : Bool) (s : Bytes) :
    (matchSpecSplitWritten skip s).length ≤ s.length := by
  fun_induction matchSpecSplitWritten skip s with
  | case1 => exact Nat.le_refl _
  | case2 => exact Nat.zero_le _
  | case3 => exact Nat.le_refl _
  | case4 skip c d s _ ih => exact Nat.le_succ_of_le ih
  | case5 skip d s _ ih =>
    have hescape := length_matchSpecUnescape_le d
    simp only [length_append, length_cons]
    omega
  | case6 skip c d s _ _ ih => exact Nat.succ_le_succ ih

theorem matchSpecPiece_sublist (piece : Bytes) (trailingWs : ℕ) :
    (matchSpecPiece piece trailingWs).flatten.Sublist piece := by
  unfold matchSpecPiece
  split_ifs
  · simpa using take_sublist _ piece
  · exact nil_sublist piece

theorem matchSpecSplitLoop_sublist (skip : Bool) (piece : Bytes) (trailingWs : ℕ) (s : Bytes) :
    (matchSpecSplitLoop skip piece trailingWs s).flatten.Sublist
      (piece ++ matchSpecSplitWritten skip s) := by
  have hleft (piece written : Bytes) (n : ℕ) :
      (matchSpecPiece piece n).flatten.Sublist (piece ++ written) :=
    (matchSpecPiece_sublist piece n).trans (sublist_append_left piece written)
  fun_induction matchSpecSplitLoop skip piece trailingWs s with
  | case1 => exact hleft _ _ _
  | case2 => exact hleft _ _ _
  | case3 => exact hleft _ _ _
  | case4 skip piece _ c hskip hslash =>
    simpa [matchSpecSplitWritten, hskip, hslash] using matchSpecPiece_sublist (piece ++ [c]) _
  | case5 => simpa [matchSpecPiece] using hleft _ _ _
  | case6 skip piece _ c hskip hslash =>
    simpa [matchSpecSplitWritten, hskip, hslash] using matchSpecPiece_sublist (piece ++ [c]) _
  | case7 skip piece _ c d s hskip ih =>
    rw [matchSpecSplitWritten, if_pos hskip]
    exact ih
  | case8 skip piece _ d s hskip ih =>
    rw [matchSpecSplitWritten, if_neg hskip, if_pos rfl, ← append_assoc]
    exact ih
  | case9 skip piece _ c d s hskip hslash hspace ih =>
    have hplain : ¬ (c = ',' ∨ c = ';') := by
      rintro (rfl | rfl) <;> exact absurd hspace (by decide)
    rw [matchSpecSplitWritten, if_neg hskip, if_neg hslash, decide_eq_false hplain]
    simpa using ih
  | case10 skip piece _ c d s hskip hslash _ hseparator ih =>
    rw [matchSpecSplitWritten, if_neg hskip, if_neg hslash, decide_eq_true hseparator,
      flatten_append]
    exact (matchSpecPiece_sublist piece _).append (ih.trans (sublist_cons_self c _))
  | case11 skip piece _ c d s hskip hslash _ hseparator ih =>
    rw [matchSpecSplitWritten, if_neg hskip, if_neg hslash, decide_eq_false hseparator]
    simpa using ih

/-! ## One specification is split from the list -/

def isMatchSpecSpecial (c : UInt8) : Bool :=
  c = '\n' || c = '\r' || c = '\\' || c = ',' || c = ';'

def trailingWsStep (trailingWs : ℕ) (c : UInt8) : ℕ :=
  if isMatchSpecSpecial c then 0 else if isSpace c then trailingWs + 1 else trailingWs

def blanksFollowed : Bytes → Bool
  | [] => true
  | c :: p => (!isSpace c || isMatchSpecSpecial c || p.any isMatchSpecSpecial) && blanksFollowed p

theorem foldl_trailingWsStep (p : Bytes) (n : ℕ) :
    p.foldl trailingWsStep n = 0 ↔
      (n = 0 ∨ p.any isMatchSpecSpecial) ∧ blanksFollowed p := by
  induction p generalizing n with
  | nil => simp [blanksFollowed]
  | cons c p ih =>
    rw [foldl_cons, ih, blanksFollowed, any_cons, trailingWsStep]
    cases isMatchSpecSpecial c with
    | true => simp
    | false =>
      cases isSpace c with
      | true =>
        simp
        tauto
      | false => simp

theorem matchSpecSplitLoop_matchSpecEscape (piece : Bytes) (trailingWs : ℕ) (c : UInt8)
    (s : Bytes) :
    matchSpecSplitLoop false piece trailingWs (matchSpecEscape c ++ s) =
      matchSpecSplitLoop false (piece ++ [c]) (trailingWsStep trailingWs c) s := by
  unfold matchSpecEscape
  split_ifs with hn hr hslash hcomma hsemicolon
  · rw [hn]
    exact matchSpecSplitLoop_escape s 'n'
  · rw [hr]
    exact matchSpecSplitLoop_escape s 'r'
  · rw [hslash]
    exact matchSpecSplitLoop_escape s '\\'
  · rw [hcomma]
    exact matchSpecSplitLoop_escape s ','
  · rw [hsemicolon]
    exact matchSpecSplitLoop_escape s ';'
  · have hspecial : isMatchSpecSpecial c = false := by
      simp [isMatchSpecSpecial, hn, hr, hslash, hcomma, hsemicolon]
    rw [singleton_append, trailingWsStep, hspecial, if_neg Bool.false_ne_true]
    split_ifs with hspace
    · exact matchSpecSplitLoop_blank s hspace
    · exact matchSpecSplitLoop_char s (eq_false_of_ne_true hspace) hslash
        (not_or.mpr ⟨hcomma, hsemicolon⟩)

def matchSpecEscapeRest (p : Bytes) : Bytes := matchSpecEscapeTrailing (p.flatMap matchSpecEscape)

variable {p : Bytes}

theorem matchSpecEscapeTrailing_append (str : Bytes) (h : p ≠ []) :
    matchSpecEscapeTrailing (str ++ p) = str ++ matchSpecEscapeTrailing p := by
  simp only [matchSpecEscapeTrailing, List.getLast?_append_of_ne_nil _ h,
    dropLast_append_of_ne_nil h, append_assoc]
  split_ifs <;> rfl

theorem matchSpecEscape_ne_nil (c : UInt8) : matchSpecEscape c ≠ [] := by
  unfold matchSpecEscape
  split_ifs <;> exact cons_ne_nil _ _

theorem matchSpecEscapeRest_cons (c : UInt8) (h : p ≠ []) :
    matchSpecEscapeRest (c :: p) = matchSpecEscape c ++ matchSpecEscapeRest p := by
  have hne : p.flatMap matchSpecEscape ≠ [] := by
    obtain ⟨d, q, rfl⟩ := exists_cons_of_ne_nil h
    exact append_ne_nil_of_left_ne_nil (matchSpecEscape_ne_nil d) _
  rw [matchSpecEscapeRest, flatMap_cons, matchSpecEscapeTrailing_append _ hne]
  rfl

/-- The last character is a blank that is escaped. -/
def EndsEscaped (p : Bytes) : Prop :=
  p.getLast? = some (' ' : UInt8) ∨ p.getLast? = some ('\t' : UInt8)

instance (p : Bytes) : Decidable (EndsEscaped p) := inferInstanceAs (Decidable (_ ∨ _))

theorem endsEscaped_cons (c : UInt8) (h : p ≠ []) : EndsEscaped (c :: p) ↔ EndsEscaped p := by
  rw [EndsEscaped, EndsEscaped, List.getLast?_cons_of_ne_nil h]

theorem matchSpecEscape_plain {c : UInt8} (h : isMatchSpecSpecial c = false) :
    matchSpecEscape c = [c] := by
  simp only [isMatchSpecSpecial, Bool.or_eq_false_iff, decide_eq_false_iff_not] at h
  simp [matchSpecEscape, h]

theorem matchSpecEscapeRest_singleton (c : UInt8) (h : ¬ EndsEscaped [c]) :
    matchSpecEscapeRest [c] = matchSpecEscape c := by
  cases hspecial : isMatchSpecSpecial c with
  | false =>
    rw [matchSpecEscapeRest, flatMap_singleton, matchSpecEscape_plain hspecial]
    exact (if_neg fun hc => h (.inl hc)).trans (if_neg fun hc => h (.inr hc))
  | true =>
    simp only [isMatchSpecSpecial, Bool.or_eq_true, decide_eq_true_eq] at hspecial
    rcases hspecial with (((rfl | rfl) | rfl) | rfl) | rfl <;> rfl

theorem matchSpecSplitLoop_escapeRest (p piece : Bytes) (trailingWs : ℕ) (s : Bytes) :
    matchSpecSplitLoop false piece trailingWs (matchSpecEscapeRest p ++ s) =
      matchSpecSplitLoop false (piece ++ p)
        (if EndsEscaped p then 0 else p.foldl trailingWsStep trailingWs) s := by
  induction p generalizing piece trailingWs with
  | nil =>
    have hnot : ¬ EndsEscaped [] := by decide
    rw [if_neg hnot, append_nil]
    rfl
  | cons c p ih =>
    by_cases hp : p = []
    · subst hp
      by_cases hend : EndsEscaped [c]
      · rw [if_pos hend]
        rcases hend with hc | hc
        · obtain rfl : c = ' ' := Option.some.inj hc
          exact matchSpecSplitLoop_escape s 's'
        · obtain rfl : c = '\t' := Option.some.inj hc
          exact matchSpecSplitLoop_escape s 't'
      · rw [if_neg hend, matchSpecEscapeRest_singleton c hend]
        exact matchSpecSplitLoop_matchSpecEscape piece trailingWs c s
    · rw [matchSpecEscapeRest_cons c hp, append_assoc, matchSpecSplitLoop_matchSpecEscape, ih,
        append_assoc, singleton_append, foldl_cons]
      simp only [endsEscaped_cons c hp]

theorem length_of_mem_matchSpecPiece {piece x : Bytes} {trailingWs : ℕ}
    (h : x ∈ matchSpecPiece piece trailingWs) : x.length ≤ piece.length := by
  unfold matchSpecPiece at h
  split_ifs at h
  · rw [mem_singleton.mp h]
    exact length_take_le' _ piece
  · cases h

theorem matchSpecPiece_eq_self {piece : Bytes} {trailingWs : ℕ} (h : piece ≠ []) :
    matchSpecPiece piece trailingWs = [piece] ↔ trailingWs = 0 := by
  have hlength := length_pos_iff.mpr h
  unfold matchSpecPiece
  split_ifs with hlt
  · constructor
    · intro htake
      have hle := congrArg List.length (List.cons.inj htake).1
      rw [length_take] at hle
      omega
    · rintro rfl
      rw [Nat.sub_zero, take_length]
  · refine iff_of_false id ?_
    omega

/-- The first of the last characters is written as a blank. -/
def BeginsBlank (c : UInt8) (p : Bytes) : Prop :=
  isSpace c ∧ isMatchSpecSpecial c = false ∧ ¬ (p = [] ∧ EndsEscaped [c])

theorem matchSpecEscapeRest_blank {c : UInt8} (h : BeginsBlank c p) :
    matchSpecEscapeRest (c :: p) = c :: matchSpecEscapeRest p := by
  obtain ⟨-, hspecial, hend⟩ := h
  by_cases hp : p = []
  · subst hp
    rw [matchSpecEscapeRest_singleton c fun hc => hend ⟨rfl, hc⟩, matchSpecEscape_plain hspecial]
    rfl
  · rw [matchSpecEscapeRest_cons c hp, matchSpecEscape_plain hspecial]
    rfl

theorem matchSpecEscapeRest_head {c : UInt8} (h : ¬ BeginsBlank c p) :
    ∃ d s, matchSpecEscapeRest (c :: p) = d :: s ∧ isSpace d = false := by
  have hsingle : EndsEscaped [c] → matchSpecEscapeRest [c] =
      ('\\' : UInt8) :: (matchSpecEscapeRest [c]).tail := by
    rintro (h | h) <;> obtain rfl := Option.some.inj h <;> rfl
  have hslash : isSpace '\\' = false := by decide
  by_cases hend : p = [] ∧ EndsEscaped [c]
  · exact ⟨_, _, hend.1 ▸ hsingle hend.2, hslash⟩
  · have hc : isSpace c = false ∨ isMatchSpecSpecial c := by
      by_contra hnot
      rw [not_or, Bool.not_eq_false, Bool.not_eq_true] at hnot
      exact h ⟨hnot.1, hnot.2, hend⟩
    have hhead : isSpace ((matchSpecEscape c).headD 0) = false := by
      cases hspecial : isMatchSpecSpecial c with
      | false =>
        rw [matchSpecEscape_plain hspecial]
        exact hc.resolve_right (by rw [hspecial]; exact Bool.false_ne_true)
      | true =>
        simp only [isMatchSpecSpecial, Bool.or_eq_true, decide_eq_true_eq] at hspecial
        rcases hspecial with (((rfl | rfl) | rfl) | rfl) | rfl <;> rfl
    obtain ⟨d, s, hd⟩ := exists_cons_of_ne_nil (matchSpecEscape_ne_nil c)
    rw [hd] at hhead
    by_cases hp : p = []
    · subst hp
      exact ⟨d, s, (matchSpecEscapeRest_singleton c fun he => hend ⟨rfl, he⟩).trans hd, hhead⟩
    · exact ⟨d, s ++ matchSpecEscapeRest p,
        by rw [matchSpecEscapeRest_cons c hp, hd, cons_append], hhead⟩

theorem matchSpecSplitLoop_escapeRest_skip {c : UInt8} (h : ¬ BeginsBlank c p) (s : Bytes) :
    matchSpecSplitLoop true [] 0 (matchSpecEscapeRest (c :: p) ++ s) =
      matchSpecSplitLoop false (c :: p)
        (if EndsEscaped (c :: p) then 0 else (c :: p).foldl trailingWsStep 0) s := by
  have hloop := matchSpecSplitLoop_escapeRest (c :: p) [] 0 s
  obtain ⟨d, t, htext, hd⟩ := matchSpecEscapeRest_head h
  rw [htext, cons_append] at hloop ⊢
  exact (matchSpecSplitLoop_skip_irrelevant _ hd).trans hloop

theorem exists_piece_of_skip (p : Bytes) :
    ∃ skip piece trailingWs, piece.length ≤ p.length ∧ ∀ s,
      matchSpecSplitLoop true [] 0 (matchSpecEscapeRest p ++ s) =
        matchSpecSplitLoop skip piece trailingWs s := by
  induction p with
  | nil => exact ⟨true, [], 0, Nat.le_refl _, fun _ => rfl⟩
  | cons c p ih =>
    by_cases h : BeginsBlank c p
    · obtain ⟨skip, piece, trailingWs, hlength, hloop⟩ := ih
      refine ⟨skip, piece, trailingWs, Nat.le_succ_of_le hlength, fun s => ?_⟩
      rw [matchSpecEscapeRest_blank h, cons_append, matchSpecSplitLoop_skip _ h.1, hloop s]
    · exact ⟨false, c :: p, _, Nat.le_refl _, matchSpecSplitLoop_escapeRest_skip h⟩

/-- A specification is split off as it is: it does not begin with a form feed, and either its last
character is a blank that is escaped, or each blank after the first character has an escaped
character behind it. -/
structure SplitsBack (spec : Bytes) : Prop where
  head : spec.head? ≠ some 12
  blanks : EndsEscaped spec ∨ blanksFollowed spec.tail

instance (spec : Bytes) : Decidable (SplitsBack spec) :=
  decidable_of_iff (spec.head? ≠ some 12 ∧ (EndsEscaped spec ∨ blanksFollowed spec.tail))
    ⟨fun h => ⟨h.1, h.2⟩, fun h => ⟨h.head, h.blanks⟩⟩

def matchSpecText (spec : Bytes) : Bytes := matchSpecEscapeTrailing (matchSpecEscapeLeading spec)

theorem trailingWs_eq_zero (c : UInt8) (p : Bytes) :
    (if EndsEscaped p then 0 else p.foldl trailingWsStep 0) = 0 ↔
      EndsEscaped (c :: p) ∨ blanksFollowed p := by
  by_cases hp : p = []
  · subst hp
    simp [blanksFollowed]
  · rw [endsEscaped_cons c hp]
    split_ifs with hend
    · simp [hend]
    · simp [hend, foldl_trailingWsStep]

theorem matchSpecSplitLoop_leading {c e : UInt8} (hunescape : matchSpecUnescape e = [c])
    (he : matchSpecEscapeTrailing [('\\' : UInt8), e] = [('\\' : UInt8), e]) (p s : Bytes) :
    matchSpecSplitLoop true [] 0
        (matchSpecEscapeTrailing ([('\\' : UInt8), e] ++ p.flatMap matchSpecEscape) ++ s) =
      matchSpecSplitLoop false (c :: p)
        (if EndsEscaped p then 0 else p.foldl trailingWsStep 0) s := by
  have htext : matchSpecEscapeTrailing ([('\\' : UInt8), e] ++ p.flatMap matchSpecEscape) =
      [('\\' : UInt8), e] ++ matchSpecEscapeRest p := by
    by_cases hp : p = []
    · subst hp
      exact he
    · refine matchSpecEscapeTrailing_append _ ?_
      obtain ⟨d, q, rfl⟩ := exists_cons_of_ne_nil hp
      exact append_ne_nil_of_left_ne_nil (matchSpecEscape_ne_nil d) _
  rw [htext, append_assoc]
  refine (matchSpecSplitLoop_escape _ e).trans ?_
  rw [hunescape]
  exact matchSpecSplitLoop_escapeRest p [c] 0 s

variable {spec : Bytes}

/-- A specification is split off its text, whatever comes behind. -/
theorem exists_piece (hne : spec ≠ []) :
    ∃ skip piece trailingWs,
      (matchSpecPiece piece trailingWs = [spec] ↔ SplitsBack spec) ∧ ∀ s,
        matchSpecSplitLoop true [] 0 (matchSpecText spec ++ s) =
          matchSpecSplitLoop skip piece trailingWs s := by
  obtain ⟨c, p, rfl⟩ := exists_cons_of_ne_nil hne
  have hsplits (h : c ≠ 12) : SplitsBack (c :: p) ↔ EndsEscaped (c :: p) ∨ blanksFollowed p :=
    ⟨fun hs => hs.blanks, fun hb => ⟨fun hc => h (Option.some.inj hc), hb⟩⟩
  have hpiece (h : c ≠ 12) : matchSpecPiece (c :: p)
      (if EndsEscaped p then 0 else p.foldl trailingWsStep 0) = [c :: p] ↔
        SplitsBack (c :: p) := by
    rw [matchSpecPiece_eq_self hne, trailingWs_eq_zero c, hsplits h]
  by_cases hspace : c = ' '
  · subst hspace
    exact ⟨false, _, _, hpiece (by decide), matchSpecSplitLoop_leading rfl rfl p⟩
  · by_cases htab : c = '\t'
    · subst htab
      exact ⟨false, _, _, hpiece (by decide), matchSpecSplitLoop_leading rfl rfl p⟩
    · have htext : matchSpecText (c :: p) = matchSpecEscapeRest (c :: p) := by
        rw [matchSpecText, matchSpecEscapeLeading, if_neg hspace, if_neg htab]
        rfl
      by_cases hfeed : c = 12
      · subst hfeed
        have hblank : BeginsBlank 12 p := ⟨by decide, by decide, fun h => absurd h.2 (by decide)⟩
        obtain ⟨skip, piece, trailingWs, hlength, hloop⟩ := exists_piece_of_skip p
        refine ⟨skip, piece, trailingWs, iff_of_false (fun h => ?_) fun h => h.head rfl,
          fun s => ?_⟩
        · have hle := length_of_mem_matchSpecPiece (h ▸ mem_singleton_self (12 :: p))
          rw [length_cons] at hle
          omega
        · rw [htext, matchSpecEscapeRest_blank hblank, cons_append,
            matchSpecSplitLoop_skip _ hblank.1, hloop s]
      · have hcases : isSpace c = false ∨ isMatchSpecSpecial c := by
          by_cases hline : c = '\n' ∨ c = '\r'
          · rcases hline with rfl | rfl <;> exact .inr rfl
          · refine .inl (decide_eq_false ?_)
            rintro (rfl | rfl | rfl | rfl | rfl)
            exacts [htab rfl, hline (.inl rfl), hfeed rfl, hline (.inr rfl), hspace rfl]
        have hblank : ¬ BeginsBlank c p := fun h => by simp [h.1, h.2.1] at hcases
        have hstep : trailingWsStep 0 c = 0 := by
          rcases hcases with h | h <;> simp [trailingWsStep, h]
        refine ⟨false, c :: p, _, ?_, fun s => htext ▸ matchSpecSplitLoop_escapeRest_skip hblank s⟩
        rw [matchSpecPiece_eq_self hne, hsplits hfeed, foldl_cons, hstep]
        split_ifs with hend
        · simp [hend]
        · simp [hend, foldl_trailingWsStep]

/-! ## The list is joined and split -/

theorem matchSpecEscapeLeading_ne_nil (h : p ≠ []) : matchSpecEscapeLeading p ≠ [] := by
  obtain ⟨c, p, rfl⟩ := exists_cons_of_ne_nil h
  rw [matchSpecEscapeLeading]
  split_ifs
  · exact cons_ne_nil _ _
  · exact cons_ne_nil _ _
  · exact append_ne_nil_of_left_ne_nil (matchSpecEscape_ne_nil c) _

theorem matchSpecText_ne_nil (h : p ≠ []) : matchSpecText p ≠ [] := by
  have hne := matchSpecEscapeLeading_ne_nil h
  unfold matchSpecText matchSpecEscapeTrailing
  split_ifs
  · exact append_ne_nil_of_right_ne_nil _ (cons_ne_nil _ _)
  · exact append_ne_nil_of_right_ne_nil _ (cons_ne_nil _ _)
  · exact hne

/-- A round of `nm_match_spec_join()`. -/
def matchSpecJoinStep (str p : Bytes) : Bytes :=
  if p = [] then str
  else matchSpecEscapeTrailing
    ((if str = [] then [] else str ++ ascii ",") ++ matchSpecEscapeLeading p)

variable {specs : List Bytes}

theorem foldl_matchSpecJoinStep (hne : ∀ s ∈ specs, s ≠ []) {str : Bytes} (hstr : str ≠ []) :
    specs.foldl matchSpecJoinStep str =
      str ++ specs.flatMap fun s => (',' : UInt8) :: matchSpecText s := by
  induction specs generalizing str with
  | nil => exact (append_nil str).symm
  | cons s specs ih =>
    obtain ⟨hs, hspecs⟩ := forall_mem_cons.mp hne
    have hstep : matchSpecJoinStep str s = str ++ (',' : UInt8) :: matchSpecText s := by
      rw [matchSpecJoinStep, if_neg hs, if_neg hstr,
        matchSpecEscapeTrailing_append _ (matchSpecEscapeLeading_ne_nil hs), append_assoc]
      rfl
    rw [foldl_cons, hstep, ih hspecs (append_ne_nil_of_left_ne_nil hstr _),
      flatMap_cons, append_assoc]

theorem matchSpecJoin_cons {s : Bytes} (hs : s ≠ []) (hne : ∀ s ∈ specs, s ≠ []) :
    matchSpecJoin (s :: specs) =
      matchSpecText s ++ specs.flatMap fun s => (',' : UInt8) :: matchSpecText s := by
  have hstep : matchSpecJoinStep [] s = matchSpecText s := by
    rw [matchSpecJoinStep, if_neg hs]
    rfl
  have hfoldl : matchSpecJoin (s :: specs) = specs.foldl matchSpecJoinStep (matchSpecText s) := by
    rw [← hstep]
    rfl
  rw [hfoldl, foldl_matchSpecJoinStep hne (matchSpecText_ne_nil hs)]

theorem matchSpecSplitLoop_text_end (hne : spec ≠ []) :
    (matchSpecSplitLoop true [] 0 (matchSpecText spec)).length ≤ 1 ∧
      (matchSpecSplitLoop true [] 0 (matchSpecText spec) = [spec] ↔ SplitsBack spec) := by
  obtain ⟨skip, piece, trailingWs, hpiece, hloop⟩ := exists_piece hne
  have hend : matchSpecSplitLoop true [] 0 (matchSpecText spec) =
      matchSpecPiece piece trailingWs := by
    rw [← append_nil (matchSpecText spec), hloop, matchSpecSplitLoop]
  rw [hend]
  refine ⟨?_, hpiece⟩
  unfold matchSpecPiece
  split_ifs
  · exact Nat.le_refl 1
  · exact Nat.zero_le 1

theorem matchSpecSplitLoop_text_separator (hne : spec ≠ []) (s : Bytes) :
    matchSpecSplitLoop true [] 0 (matchSpecText spec ++ (',' : UInt8) :: s) =
      matchSpecSplitLoop true [] 0 (matchSpecText spec) ++ matchSpecSplitLoop true [] 0 s := by
  obtain ⟨skip, piece, trailingWs, -, hloop⟩ := exists_piece hne
  have hend := hloop []
  rw [append_nil, matchSpecSplitLoop] at hend
  rw [hloop, hend, matchSpecSplitLoop_separator s (.inl rfl)]

theorem matchSpecSplitLoop_texts {s : Bytes} (hs : s ≠ []) (hne : ∀ s ∈ specs, s ≠ []) :
    matchSpecSplitLoop true [] 0
        (matchSpecText s ++ specs.flatMap fun s => (',' : UInt8) :: matchSpecText s) =
      (s :: specs).flatMap fun s => matchSpecSplitLoop true [] 0 (matchSpecText s) := by
  induction specs generalizing s with
  | nil => simp
  | cons t specs ih =>
    obtain ⟨ht, hspecs⟩ := forall_mem_cons.mp hne
    rw [flatMap_cons, cons_append, matchSpecSplitLoop_text_separator hs, ih ht hspecs]
    rfl

theorem flatMap_eq_self_iff {α : Type*} {f : α → List α} {l : List α}
    (h : ∀ a ∈ l, (f a).length ≤ 1) : l.flatMap f = l ↔ ∀ a ∈ l, f a = [a] := by
  have hle : ∀ l : List α, (∀ a ∈ l, (f a).length ≤ 1) → (l.flatMap f).length ≤ l.length := by
    intro l hl
    induction l with
    | nil => exact Nat.le_refl _
    | cons a l ih =>
      obtain ⟨ha, hl⟩ := forall_mem_cons.mp hl
      have hrest := ih hl
      rw [flatMap_cons, length_append, length_cons]
      omega
  induction l with
  | nil => simp
  | cons a l ih =>
    obtain ⟨ha, hl⟩ := forall_mem_cons.mp h
    refine Iff.trans ?_ ((and_congr_right' (ih hl)).trans forall_mem_cons.symm)
    rw [flatMap_cons]
    constructor
    · intro heq
      have hlength := congrArg List.length heq
      have hrest := hle l hl
      rw [length_append, length_cons] at hlength
      exact append_inj heq (by rw [length_singleton]; omega)
    · rintro ⟨hfa, hfl⟩
      rw [hfa, hfl, singleton_append]

theorem matchSpecSplit_matchSpecJoin (hne : ∀ s ∈ specs, s ≠ []) :
    matchSpecSplit (some (matchSpecJoin specs)) = specs ↔ ∀ s ∈ specs, SplitsBack s := by
  have hsplit : matchSpecSplit (some (matchSpecJoin specs)) =
      specs.flatMap fun s => matchSpecSplitLoop true [] 0 (matchSpecText s) := by
    cases specs with
    | nil => rfl
    | cons s specs =>
      obtain ⟨hs, hspecs⟩ := forall_mem_cons.mp hne
      rw [matchSpecSplit, matchSpecJoin_cons hs hspecs, Option.getD_some,
        matchSpecSplitLoop_texts hs hspecs]
  rw [hsplit, flatMap_eq_self_iff fun s hs => (matchSpecSplitLoop_text_end (hne s hs)).1]
  exact forall₂_congr fun s hs => (matchSpecSplitLoop_text_end (hne s hs)).2

/-- A list of specifications is split off its text exactly if none of them begins with a form feed
or has a blank that is not followed by an escaped character. Splitting writes no more characters
than it reads. -/
theorem matchSpecJoin_splitsBack (specs : List Bytes) (value : Bytes) :
    ((∀ s ∈ specs, s ≠ []) →
      (matchSpecSplit (some (matchSpecJoin specs)) = specs ↔ ∀ s ∈ specs, SplitsBack s)) ∧
      (matchSpecSplitWritten true value).length ≤ value.length ∧
        (matchSpecSplit (some value)).flatten.Sublist (matchSpecSplitWritten true value) :=
  ⟨fun hne => matchSpecSplit_matchSpecJoin hne,
    length_matchSpecSplitWritten_le true value, matchSpecSplitLoop_sublist true [] 0 value⟩

theorem matchSpecJoin_splitsBack_trailing :
    matchSpecSplit (some (matchSpecJoin [ascii " a,b ", ascii "c\\"])) =
      [ascii " a,b ", ascii "c\\"] :=
  ((matchSpecJoin_splitsBack _ []).1 (by decide)).mpr (by decide)

/-- A blank inside of a specification takes its last character away. -/
theorem matchSpecJoin_not_splitsBack :
    matchSpecSplit (some (matchSpecJoin [ascii "a b"])) ≠ [ascii "a b"] ∧
      matchSpecSplit (some (matchSpecJoin [ascii "a b"])) = [ascii "a "] := by
  decide

end NetworkManager.Core
