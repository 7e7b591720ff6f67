import NetworkManager.Lib.Bytes

/-!
# Splitting a string at delimiters

`nm_strsplit_set_full()` scans the string twice. The first scan counts the tokens, and looks
back from every delimiter for whether it is escaped. The second scan divides the string, and
skips what comes after a backslash. They have to agree, as only as many tokens are allocated
as were counted.
-/

namespace NetworkManager.GlibAux

open Lib List

structure StrsplitSetFlags where
  preserveEmpty : Bool
  allowEscaping : Bool
  strstrip : Bool
  escaped : Bool
  deriving DecidableEq

def StrsplitSetFlags.escaping (flags : StrsplitSetFlags) : Bool :=
  flags.escaped ∨ flags.allowEscaping

/-- `_char_is_escaped()`, for the bytes before the character from the last to the first. -/
def charIsEscaped (before : Bytes) : Bool :=
  (before.takeWhile fun c : UInt8 => c = '\\').length % 2 ≠ 0

section Scans

variable (delimiters : Bytes) (flags : StrsplitSetFlags)

/-- The second scan. -/
def splitTokens (skip : Bool) : Bytes → List Bytes
  | [] => if skip then [] else [[]]
  | c :: s =>
    if c ∈ delimiters then
      if skip then splitTokens true s else [] :: splitTokens (!flags.preserveEmpty) s
    else if c = '\\' ∧ flags.escaping then
      match s with
      | [] => [[c]]
      | d :: s => (splitTokens false s).modifyHead ([c, d] ++ ·)
    else (splitTokens false s).modifyHead (c :: ·)

/-- Strip spaces from the end of a token, which is reversed. -/
def stripTrailing : Bytes → Bytes
  | [] => []
  | c :: before =>
    if before ≠ [] ∧ isSpace c ∧ ¬ (flags.escaping ∧ charIsEscaped before) then stripTrailing before
    else c :: before

def stripToken (s : Bytes) : Bytes := (stripTrailing flags (skipSpaces s).reverse).reverse

def isUnescaped (c : UInt8) : Bool := c ∈ delimiters ∨ c = '\\' ∨ (flags.strstrip ∧ isSpace c)

def unescapeToken : Bytes → Bytes
  | [] => []
  | [c] => [c]
  | c :: d :: s =>
    if c = '\\' ∧ isUnescaped delimiters flags d then d :: unescapeToken s
    else c :: unescapeToken (d :: s)

def strsplitSetFull (str : Option Bytes) : Option (List Bytes) :=
  match str with
  | none => none
  | some str =>
    let str := if flags.preserveEmpty then str else str.dropWhile (· ∈ delimiters)
    if str = [] then none
    else
      let tokens := splitTokens delimiters flags false str
      let tokens :=
        if flags.strstrip then
          (tokens.map (stripToken flags)).filter fun t => flags.preserveEmpty ∨ t ≠ []
        else tokens
      if tokens = [] then none
      else some (if flags.escaped then tokens.map (unescapeToken delimiters flags) else tokens)

end Scans

def strsplitSet (str delimiters : Bytes) : Option (List Bytes) :=
  strsplitSetFull delimiters ⟨false, false, false, false⟩ (some str)

def strsplitSetWithEmpty (str delimiters : Bytes) : Option (List Bytes) :=
  strsplitSetFull delimiters ⟨true, false, false, false⟩ (some str)

/-! ## Both scans agree -/

variable {c : UInt8}

section Agreement

variable {delimiters : Bytes} {flags : StrsplitSetFlags}

theorem charIsEscaped_nil : charIsEscaped [] = false := rfl

theorem charIsEscaped_cons_of_ne (hc : c ≠ '\\') (before : Bytes) :
    charIsEscaped (c :: before) = false := by
  simp [charIsEscaped, hc]

theorem charIsEscaped_backslash (before : Bytes) :
    charIsEscaped ('\\' :: before) = !charIsEscaped before := by
  have hparity (n : ℕ) : decide ((n + 1) % 2 ≠ 0) = !decide (n % 2 ≠ 0) := by
    rcases Nat.mod_two_eq_zero_or_one n with h | h <;> simp [h, Nat.add_mod]
  simp only [charIsEscaped, takeWhile_cons, decide_true, if_true, length_cons]
  exact hparity _

theorem charIsEscaped_pair {before : Bytes} (h : charIsEscaped before = false) (d : UInt8) :
    charIsEscaped (d :: '\\' :: before) = false := by
  by_cases hd : d = '\\'
  · subst hd
    rw [charIsEscaped_backslash, charIsEscaped_backslash, h]
    rfl
  · exact charIsEscaped_cons_of_ne hd _

end Agreement

/-! ## Dividing a string -/

section Division

variable (delimiters : Bytes) (flags : StrsplitSetFlags)

/-- The second scan goes through the bytes without stopping. -/
inductive Unbroken : Bytes → Prop
  | nil : Unbroken []
  | char {c : UInt8} {s : Bytes} (hc : c ∉ delimiters) (hescape : ¬ (c = '\\' ∧ flags.escaping))
      (hs : Unbroken s) : Unbroken (c :: s)
  | pair {d : UInt8} {s : Bytes} (hc : ('\\' : UInt8) ∉ delimiters) (hescape : flags.escaping)
      (hs : Unbroken s) : Unbroken ('\\' :: d :: s)

variable {delimiters flags} {r s t : Bytes}

theorem splitTokens_cons (skip : Bool) (c : UInt8) (s : Bytes) :
    splitTokens delimiters flags skip (c :: s) =
      if c ∈ delimiters then
        if skip then splitTokens delimiters flags true s
        else [] :: splitTokens delimiters flags (!flags.preserveEmpty) s
      else if c = '\\' ∧ flags.escaping then
        match s with
        | [] => [[c]]
        | d :: s => (splitTokens delimiters flags false s).modifyHead ([c, d] ++ ·)
      else (splitTokens delimiters flags false s).modifyHead (c :: ·) :=
  splitTokens.eq_def delimiters flags skip (c :: s)

theorem splitTokens_delimiter (hc : c ∈ delimiters) (s : Bytes) :
    splitTokens delimiters flags false (c :: s) =
      [] :: splitTokens delimiters flags (!flags.preserveEmpty) s := by
  rw [splitTokens_cons, if_pos hc, if_neg Bool.false_ne_true]

theorem splitTokens_skip (hc : c ∈ delimiters) (s : Bytes) :
    splitTokens delimiters flags true (c :: s) = splitTokens delimiters flags true s := by
  rw [splitTokens_cons, if_pos hc, if_pos rfl]

theorem splitTokens_char (hc : c ∉ delimiters) (hescape : ¬ (c = '\\' ∧ flags.escaping))
    (skip : Bool) (s : Bytes) :
    splitTokens delimiters flags skip (c :: s) =
      (splitTokens delimiters flags false s).modifyHead (c :: ·) := by
  rw [splitTokens_cons, if_neg hc, if_neg hescape]

theorem splitTokens_pair (hc : ('\\' : UInt8) ∉ delimiters) (hescape : flags.escaping)
    (skip : Bool) (d : UInt8) (s : Bytes) :
    splitTokens delimiters flags skip ('\\' :: d :: s) =
      (splitTokens delimiters flags false s).modifyHead (([('\\' : UInt8), d]) ++ ·) := by
  rw [splitTokens_cons, if_neg hc, if_pos ⟨rfl, hescape⟩]

section

variable (hr : Unbroken delimiters flags r)

include hr

theorem Unbroken.split_append (s : Bytes) :
    splitTokens delimiters flags false (r ++ s) =
      (splitTokens delimiters flags false s).modifyHead (r ++ ·) := by
  induction hr with
  | nil => exact (congrFun modifyHead_id _).symm
  | char hc hescape _ ih =>
    rw [cons_append, splitTokens_char hc hescape, ih, modifyHead_modifyHead]
    rfl
  | pair hc hescape _ ih =>
    rw [cons_append, cons_append, splitTokens_pair hc hescape, ih,
      modifyHead_modifyHead]
    rfl

theorem Unbroken.append (hs : Unbroken delimiters flags s)
    : Unbroken delimiters flags (r ++ s) := by
  induction hr with
  | nil => exact hs
  | char hc hescape _ ih => exact .char hc hescape ih
  | pair hc hescape _ ih => exact .pair hc hescape ih

theorem Unbroken.split : splitTokens delimiters flags false r = [r] := by
  have happend := hr.split_append []
  rw [append_nil] at happend
  simpa [splitTokens] using happend

theorem Unbroken.split_delimiter (hc : c ∈ delimiters) (s : Bytes) :
    splitTokens delimiters flags false (r ++ c :: s) =
      r :: splitTokens delimiters flags (!flags.preserveEmpty) s := by
  rw [hr.split_append, splitTokens_delimiter hc, modifyHead_cons, append_nil]

end

theorem splitTokens_ne_nil (s : Bytes) : splitTokens delimiters flags false s ≠ [] := by
  generalize hskip : false = skip
  fun_induction splitTokens delimiters flags skip s <;> simp_all

theorem unbroken_of_not_mem (hescape : flags.escaping = false) (hr : ∀ c ∈ r, c ∉ delimiters)
    : Unbroken delimiters flags r := by
  induction r with
  | nil => exact .nil
  | cons c r ih =>
    rw [forall_mem_cons] at hr
    exact .char hr.1 (by simp [hescape]) (ih hr.2)

theorem mem_modifyHead {f : Bytes → Bytes} {l : List Bytes} (ht : t ∈ l.modifyHead f) :
    (∃ u ∈ l, t = f u) ∨ t ∈ l := by
  cases l with
  | nil => simp at ht
  | cons u l =>
    rcases mem_cons.mp ht with rfl | ht
    · exact .inl ⟨u, mem_cons_self, rfl⟩
    · exact .inr (mem_cons_of_mem u ht)

theorem mem_of_mem_splitTokens (hescape : flags.escaping = false) {skip : Bool}
    (ht : t ∈ splitTokens delimiters flags skip s) : ∀ c ∈ t, c ∈ s ∧ c ∉ delimiters := by
  fun_induction splitTokens delimiters flags skip s generalizing t with
  | case1 => simp at ht
  | case2 => simp_all
  | case3 c s hc ih =>
    intro d hd
    exact ⟨mem_cons_of_mem c (ih ht d hd).1, (ih ht d hd).2⟩
  | case4 skip c s hc hskip ih =>
    rcases mem_cons.mp ht with rfl | ht
    · simp
    · intro d hd
      exact ⟨mem_cons_of_mem c (ih ht d hd).1, (ih ht d hd).2⟩
  | case5 | case6 => simp_all
  | case7 skip c s hc hnot ih =>
    rcases mem_modifyHead ht with ⟨u, hu, rfl⟩ | ht
    · refine forall_mem_cons.mpr ⟨⟨mem_cons_self, hc⟩, fun d hd => ?_⟩
      exact ⟨mem_cons_of_mem c (ih hu d hd).1, (ih hu d hd).2⟩
    · intro d hd
      exact ⟨mem_cons_of_mem c (ih ht d hd).1, (ih ht d hd).2⟩

end Division

end NetworkManager.GlibAux
