import NetworkManager.GlibAux.StrsplitSet
import NetworkManager.Core.ConfigKeyfile
import NetworkManager.Lib.Words
import Mathlib.Data.List.Sort

/-!
# Arrays of strings

Arrays of strings are sorted by `strcmp()`, compared without regard to their order, and cleaned up
of empty and repeated strings. The tokens that `nm_strsplit_set_full()` strips are the parts
between the delimiters that are not blank.
-/

namespace NetworkManager.GlibAux

open Lib NetworkManager.Core List

/-! ## The program -/

/-- `strcmp()` is not positive. -/
def strcmpLe (s t : Bytes) : Bool := (compare s t).isLE

def strvSort (strv : List Bytes) : List Bytes := strv.insertionSort fun s t => strcmpLe s t

def strvIsSameUnordered (strv1 strv2 : List Bytes) : Bool :=
  strv1.length = strv2.length ∧ strvSort strv1 = strvSort strv2

/-- The loop of `nm_strv_cleanup_const()`, behind the strings that are kept. -/
def strvCleanupLoop (noEmpty noDuplicates : Bool) : List Bytes → List Bytes → List Bytes
  | kept, [] => kept
  | kept, s :: strv =>
    if (noEmpty ∧ s = []) ∨ (noDuplicates ∧ s ∈ kept) then
      strvCleanupLoop noEmpty noDuplicates kept strv
    else strvCleanupLoop noEmpty noDuplicates (kept ++ [s]) strv

def strvCleanupConst (strv : List Bytes) (noEmpty noDuplicates : Bool) : List Bytes :=
  strvCleanupLoop noEmpty noDuplicates [] strv

/-! ## Order and repetitions -/

theorem strvSort_perm (strv : List Bytes) : (strvSort strv).Perm strv := perm_insertionSort _ _

theorem strvSort_pairwise (strv : List Bytes) : (strvSort strv).Pairwise fun s t => strcmpLe s t := by
  have htotal : Std.Total fun s t : Bytes => strcmpLe s t := by
    refine ⟨fun s t => ?_⟩
    rw [strcmpLe, strcmpLe, @Std.OrientedCmp.eq_swap _ compare _ t]
    cases compare s t <;> simp
  have htrans : IsTrans Bytes fun s t => strcmpLe s t :=
    ⟨fun _ _ _ h h' => Std.TransCmp.isLE_trans h h'⟩
  exact pairwise_insertionSort _ strv

theorem strvSort_eq_of_perm {strv1 strv2 : List Bytes} (h : strv1.Perm strv2) :
    strvSort strv1 = strvSort strv2 := by
  have hperm : (strvSort strv1).Perm (strvSort strv2) :=
    (strvSort_perm strv1).trans (h.trans (strvSort_perm strv2).symm)
  refine hperm.eq_of_pairwise (fun s t _ _ hst hts => ?_) (strvSort_pairwise _) (strvSort_pairwise _)
  exact Std.LawfulEqCmp.eq_of_compare (Std.OrientedCmp.isLE_antisymm hst hts)

theorem strvIsSameUnordered_iff {strv1 strv2 : List Bytes} :
    strvIsSameUnordered strv1 strv2 ↔ strv1.Perm strv2 := by
  simp only [strvIsSameUnordered, decide_eq_true_eq]
  constructor
  · rintro ⟨-, heq⟩
    calc
      strv1.Perm (strvSort strv1) := (strvSort_perm strv1).symm
      _ = strvSort strv2 := heq
      List.Perm _ strv2 := strvSort_perm strv2
  · intro h
    exact ⟨h.length_eq, strvSort_eq_of_perm h⟩

variable {s : Bytes}

section Cleanup

variable {noEmpty : Bool} {kept strv : List Bytes}

theorem mem_strvCleanupLoop :
    s ∈ strvCleanupLoop noEmpty true kept strv ↔ s ∈ kept ∨ (s ∈ strv ∧ ¬ (noEmpty ∧ s = [])) := by
  induction strv generalizing kept with
  | nil => simp [strvCleanupLoop]
  | cons t strv ih =>
    rw [strvCleanupLoop]
    split_ifs with h
    · rw [ih]
      grind
    · rw [ih]
      grind

theorem nodup_strvCleanupLoop (h : kept.Nodup) : (strvCleanupLoop noEmpty true kept strv).Nodup := by
  induction strv generalizing kept with
  | nil => exact h
  | cons t strv ih =>
    rw [strvCleanupLoop]
    split_ifs with ht
    · exact ih h
    · apply ih
      have hnew : t ∉ kept := by grind
      exact nodup_append.mpr ⟨h, nodup_singleton t, by grind⟩

theorem mem_strvCleanupConst : s ∈ strvCleanupConst strv true true ↔ s ∈ strv ∧ s ≠ [] := by
  simp [strvCleanupConst, mem_strvCleanupLoop]

theorem nodup_strvCleanupConst : (strvCleanupConst strv noEmpty true).Nodup :=
  nodup_strvCleanupLoop nodup_nil

end Cleanup

/-! ## Stripped tokens -/

def strippedParts (delimiter : UInt8) (s : Bytes) : List Bytes :=
  ((s.splitOn delimiter).map strstrip).filter fun t => t ≠ []

section Parts

variable {delimiter : UInt8} {flags : StrsplitSetFlags} {c : UInt8}

theorem stripTrailing_eq (hescape : flags.escaping = false) (h : ∀ c ∈ s.getLast?, ¬ isSpace c)
    : stripTrailing flags s = s.dropWhile isSpace := by
  induction s with
  | nil => rfl
  | cons c s ih =>
    by_cases hs : s = []
    · subst hs
      have hc : ¬ isSpace c := h c rfl
      simp [stripTrailing, hc]
    · have hlast : ∀ c ∈ s.getLast?, ¬ isSpace c := by
        intro d hd
        exact h d (by rwa [List.getLast?_cons_of_ne_nil hs])
      by_cases hc : isSpace c <;> simp [stripTrailing, hs, hc, hescape, ih hlast]

theorem stripToken_eq (hescape : flags.escaping = false) (s : Bytes) :
    stripToken flags s = strstrip s := by
  rw [stripToken, stripTrailing_eq hescape]
  · rfl
  · intro c hc
    rw [List.getLast?_reverse] at hc
    have hhead := List.head?_dropWhile_not isSpace s
    rw [skipSpaces, Option.mem_def] at hc
    simpa [hc] using hhead

theorem splitOn_cons (c : UInt8) (s : Bytes) :
    (c :: s).splitOn delimiter =
      if c = delimiter then [] :: s.splitOn delimiter
      else (s.splitOn delimiter).modifyHead (c :: ·) := by
  rw [List.splitOn, splitOnP_cons_eq_if_modifyHead]
  simp [List.splitOn]

theorem splitTokens_parts (hescape : flags.escaping = false) (hempty : flags.preserveEmpty = false)
    (s : Bytes) :
    (∃ token l r, splitTokens [delimiter] flags false s = token :: l ∧
        s.splitOn delimiter = token :: r ∧ l.filter (· ≠ []) = r.filter (· ≠ [])) ∧
      (splitTokens [delimiter] flags true s).filter (· ≠ []) =
        (s.splitOn delimiter).filter (· ≠ []) := by
  induction s with
  | nil => exact ⟨⟨[], [], [], rfl, rfl, rfl⟩, rfl⟩
  | cons c s ih =>
    obtain ⟨⟨token, l, r, hl, hr, heq⟩, htrue⟩ := ih
    rw [splitOn_cons]
    by_cases hc : c = delimiter
    · subst hc
      simpa [splitTokens_cons, hempty] using htrue
    · simpa [splitTokens_cons, hc, hescape, hl, hr] using heq

theorem strippedParts_eq (hescape : flags.escaping = false) (hempty : flags.preserveEmpty = false)
    (s : Bytes) :
    ((splitTokens [delimiter] flags false s).map (stripToken flags)).filter (· ≠ []) =
      strippedParts delimiter s := by
  have hmap : stripToken flags = strstrip := funext (stripToken_eq hescape)
  obtain ⟨⟨token, l, r, hl, hr, heq⟩, -⟩ := @splitTokens_parts delimiter _ hescape hempty s
  have hstrip (l : List Bytes) :
      (l.map strstrip).filter (· ≠ []) = ((l.filter (· ≠ [])).map strstrip).filter (· ≠ []) := by
    induction l with
    | nil => rfl
    | cons t l ih =>
      by_cases ht : t = []
      · subst ht
        simpa [strstrip, skipSpaces, chomp] using ih
      · by_cases hs : strstrip t = [] <;> simpa [ht, hs] using ih
  rw [strippedParts, hmap, hl, hr, map_cons, map_cons, filter_cons, filter_cons,
    hstrip l, hstrip r, heq]

theorem strstrip_cons (hc : isSpace c) (s : Bytes) : strstrip (c :: s) = strstrip s := by
  simp [strstrip, skipSpaces, hc]

theorem strstrip_concat (hc : isSpace c) (s : Bytes) : strstrip (s ++ [c]) = strstrip s := by
  induction s with
  | nil => simp [strstrip, skipSpaces, chomp, hc]
  | cons d s ih =>
    by_cases hd : isSpace d
    · rw [cons_append, strstrip_cons hd, strstrip_cons hd, ih]
    · have hskip (t : Bytes) : skipSpaces (d :: t) = d :: t := by simp [skipSpaces, hd]
      rw [cons_append, strstrip, strstrip, hskip, hskip, ← cons_append, chomp,
        rdropWhile_concat_pos isSpace (d :: s) c hc]
      rfl

theorem strippedParts_cons_space (hc : isSpace c) (hne : c ≠ delimiter) (s : Bytes) :
    strippedParts delimiter (c :: s) = strippedParts delimiter s := by
  obtain ⟨part, rest, hsplit⟩ :=
    exists_cons_of_ne_nil (splitOnP_ne_nil (· == delimiter) s)
  have hs : s.splitOn delimiter = part :: rest := hsplit
  simp [strippedParts, splitOn_cons, hne, hs, strstrip_cons hc]

theorem splitOn_concat (hne : c ≠ delimiter) (s : Bytes) :
    ∃ parts last, s.splitOn delimiter = parts ++ [last] ∧
      (s ++ [c]).splitOn delimiter = parts ++ [last ++ [c]] := by
  induction s with
  | nil => exact ⟨[], [], rfl, by simp [splitOn_cons, hne]⟩
  | cons d s ih =>
    obtain ⟨parts, last, hs, hc⟩ := ih
    by_cases hd : d = delimiter
    · exact ⟨[] :: parts, last, by simp [splitOn_cons, hd, hs], by simp [splitOn_cons, hd, hc]⟩
    · cases parts with
      | nil =>
        exact ⟨[], d :: last, by simp [splitOn_cons, hd, hs], by simp [splitOn_cons, hd, hc]⟩
      | cons part parts =>
        exact ⟨(d :: part) :: parts, last, by simp [splitOn_cons, hd, hs],
          by simp [splitOn_cons, hd, hc]⟩

theorem strippedParts_concat_space (hc : isSpace c) (hne : c ≠ delimiter) (s : Bytes) :
    strippedParts delimiter (s ++ [c]) = strippedParts delimiter s := by
  obtain ⟨parts, last, hs, happend⟩ := splitOn_concat hne s
  simp [strippedParts, hs, happend, strstrip_concat hc]

theorem strippedParts_strstrip (hdelimiter : ¬ isSpace delimiter) (s : Bytes) :
    strippedParts delimiter (strstrip s) = strippedParts delimiter s := by
  have hne {c : UInt8} (hc : isSpace c) : c ≠ delimiter := fun h => hdelimiter (h ▸ hc)
  have hchomp (s : Bytes) : strippedParts delimiter (chomp s) = strippedParts delimiter s := by
    induction s using List.reverseRecOn with
    | nil => rfl
    | append_singleton s c ih =>
      by_cases hc : isSpace c
      · simpa [chomp, rdropWhile_concat, hc, strippedParts_concat_space hc (hne hc)] using ih
      · simp [chomp, hc]
  rw [strstrip, hchomp]
  induction s with
  | nil => rfl
  | cons c s ih =>
    by_cases hc : isSpace c
    · simpa [skipSpaces, hc, strippedParts_cons_space hc (hne hc)] using ih
    · simp [skipSpaces, hc]

theorem strippedParts_cons_delimiter (s : Bytes) :
    strippedParts delimiter (delimiter :: s) = strippedParts delimiter s := by
  simp [strippedParts, splitOn_cons, strstrip, skipSpaces, chomp]

theorem strippedParts_of_not_mem (h : delimiter ∉ s) :
    strippedParts delimiter s = if strstrip s = [] then [] else [strstrip s] := by
  have hclean : ∀ c ∈ s, (c == delimiter) = false := fun c hc => by
    simpa using fun heq : c = delimiter => h (heq ▸ hc)
  rw [strippedParts, List.splitOn, splitOnP_eq_singleton hclean]
  by_cases hs : strstrip s = [] <;> simp [hs]

theorem strsplitSetFull_strstrip (s : Bytes) :
    strsplitSetFull [delimiter] ⟨false, false, true, false⟩ (some s) =
      if strippedParts delimiter s = [] then none else some (strippedParts delimiter s) := by
  have hdrop : strippedParts delimiter (s.dropWhile (· ∈ [delimiter])) = strippedParts delimiter s := by
    induction s with
    | nil => rfl
    | cons c s ih =>
      by_cases hc : c = delimiter
      · subst hc
        simpa [strippedParts_cons_delimiter] using ih
      · simp [hc]
  have hparts := @strippedParts_eq delimiter ⟨false, false, true, false⟩
    rfl rfl (s.dropWhile (· ∈ [delimiter]))
  rw [hdrop] at hparts
  simp only [strsplitSetFull, Bool.false_eq_true, if_false, if_true, false_or, hparts]
  split_ifs with hnil hempty hempty
  · rfl
  · refine absurd ?_ hempty
    rw [← hdrop, hnil]
    rfl
  · rfl
  · rfl

theorem not_mem_of_mem_strippedParts {part : Bytes} (h : part ∈ strippedParts delimiter s) :
    delimiter ∉ part := by
  obtain ⟨raw, hraw, rfl⟩ := mem_map.mp (mem_of_mem_filter h)
  intro hmem
  have hsub : delimiter ∈ raw :=
    (dropWhile_sublist isSpace).subset (( rdropWhile_prefix isSpace _).subset hmem)
  simpa using (mem_of_mem_splitOnP hraw delimiter hsub).2

end Parts

end NetworkManager.GlibAux
