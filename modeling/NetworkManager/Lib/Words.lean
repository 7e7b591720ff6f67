import Mathlib.Data.List.Induction

/-!
# Words and lines

A word of a text is a maximal part without separators. Separators at the ends of a text, and more
than one between two words, make no difference.
-/

namespace NetworkManager.Lib

open List

variable {α : Type*} {p : α → Bool} {word : List α} {sep : α}

theorem mem_of_mem_splitOnP {text : List α} (h : word ∈ text.splitOnP p) :
    ∀ c ∈ word, c ∈ text ∧ p c = false := by
  induction text generalizing word with
  | nil =>
    obtain rfl := mem_singleton.mp (splitOnP_nil (p := p) ▸ h)
    simp
  | cons x text ih =>
    intro c hc
    rw [splitOnP_cons_eq_if_modifyHead] at h
    split_ifs at h with hsep
    · rcases mem_cons.mp h with rfl | h
      · cases hc
      · exact ⟨mem_cons_of_mem _ (ih h c hc).1, (ih h c hc).2⟩
    · obtain ⟨first, rest, hsplit⟩ := exists_cons_of_ne_nil (splitOnP_ne_nil p text)
      rw [hsplit] at h ih
      rcases mem_cons.mp h with rfl | h
      · rcases mem_cons.mp hc with rfl | hc
        · exact ⟨mem_cons_self, by simpa using hsep⟩
        · have hfirst := ih mem_cons_self c hc
          exact ⟨mem_cons_of_mem _ hfirst.1, hfirst.2⟩
      · have hrest := ih (mem_cons_of_mem _ h) c hc
        exact ⟨mem_cons_of_mem _ hrest.1, hrest.2⟩

def words (p : α → Bool) (text : List α) : List (List α) :=
  (text.splitOnP p).filter fun word => ¬ word.isEmpty

@[simp] theorem words_nil : words p [] = [] := rfl

theorem words_append_cons (hsep : p sep) (a b : List α) :
    words p (a ++ sep :: b) = words p a ++ words p b := by
  rw [words, splitOnP_append_cons a b hsep, filter_append]
  rfl

@[simp] theorem words_cons (hsep : p sep) (text : List α) : words p (sep :: text) = words p text :=
  words_append_cons hsep [] text

theorem words_singleton (hne : word ≠ []) (hclean : ∀ c ∈ word, ¬ p c) : words p word = [word] := by
  have hclean : ∀ c ∈ word, p c = false := fun c hc => by simpa using hclean c hc
  rw [words, splitOnP_eq_singleton hclean]
  simp [hne]

theorem words_append_replicate (hsep : p sep) (text : List α) (n : ℕ) :
    words p (text ++ List.replicate n sep) = words p text := by
  induction n with
  | zero => simp
  | succ n ih => rw [replicate_succ', ← append_assoc, words_append_cons hsep, ih]; simp

theorem words_append_flatMap_cons (hsep : p sep) (text : List α) {entries : List (List α)}
    (hne : ∀ e ∈ entries, e ≠ []) (hclean : ∀ e ∈ entries, ∀ c ∈ e, ¬ p c) :
    words p (text ++ entries.flatMap (sep :: ·)) = words p text ++ entries := by
  induction entries using List.reverseRecOn with
  | nil => simp
  | append_singleton entries e ih =>
    have hmem : e ∈ entries ++ [e] := mem_append_right _ (mem_singleton_self e)
    have hinit := ih (fun e he => hne e (mem_append_left _ he))
      fun e he => hclean e (mem_append_left _ he)
    rw [flatMap_append, flatMap_singleton, ← append_assoc, words_append_cons hsep,
      hinit, words_singleton (hne e hmem) (hclean e hmem), append_assoc]

def unlines (newline : α) (lines : List (List α)) : List α := lines.flatMap (· ++ [newline])

@[simp] theorem unlines_append (newline : α) (a b : List (List α)) :
    unlines newline (a ++ b) = unlines newline a ++ unlines newline b :=
  flatMap_append

theorem splitOn_unlines [DecidableEq α] {newline : α} {lines : List (List α)}
    (hclean : ∀ line ∈ lines, newline ∉ line) :
    (unlines newline lines).splitOn newline = lines ++ [[]] := by
  induction lines with
  | nil => rfl
  | cons line lines ih =>
    have hline : ∀ c ∈ line, (c == newline) = false := by
      intro c hc
      have hne : c ≠ newline := fun h => hclean line mem_cons_self (h ▸ hc)
      simpa using hne
    have htail := ih fun line hline => hclean line (mem_cons_of_mem _ hline)
    rw [unlines, flatMap_cons, append_assoc, singleton_append, List.splitOn,
      splitOnP_append_cons_of_forall_mem hline _ (by simp)]
    rw [unlines, List.splitOn] at htail
    rw [htail, cons_append]

end NetworkManager.Lib
