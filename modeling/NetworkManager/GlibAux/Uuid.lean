import NetworkManager.Lib.Bytes
import Mathlib.Data.List.ReduceOption

/-!
# UUIDs of lists of strings

`nm_uuid_generate_from_strings_strv()` writes a list of strings as one text, of which the hash is a
UUID. The list may have elements that are `NULL` where its length is given.
-/

namespace NetworkManager.GlibAux

open Lib List

/-! ## The text that is hashed -/

/-- A string of C. -/
structure CString where
  bytes : Bytes
  nulFree : NulFree bytes
deriving DecidableEq

def CString.terminated (s : CString) : Bytes := s.bytes ++ [0]

/-- The arguments `strv` and `len`. -/
inductive StrvArg
  | null
  | nullTerminated (strv : List CString)
  | ofLength (strv : List (Option CString))
deriving DecidableEq

def appendElement : Option CString → Bytes
  | some s => s.terminated
  | none => []

def bitmapChar : Option CString → UInt8
  | some _ => '1'
  | none => '_'

/-- The suffix for a list that has elements that are `NULL`. -/
def nullsBitmap (strv : List (Option CString)) : Bytes :=
  if none ∈ strv then strv.map bitmapChar ++ ascii "n" else []

/-- The string of `nm_uuid_generate_from_strings_strv()`. -/
def strvText : StrvArg → Bytes
  | .ofLength strv => strv.flatMap appendElement ++ nullsBitmap strv
  | .null => ascii "x"
  | .nullTerminated [] => []
  | .nullTerminated [s] => s.terminated
  | .nullTerminated strv => strv.flatMap CString.terminated

inductive UuidType
  | legacy
  | version3
  | version5
deriving DecidableEq

def uuidNsZero : Bytes := List.replicate 16 0

/-- What the checksum is updated with before the string. -/
def uuidNamespace (uuidType : UuidType) (typeArgs : Option Bytes) : Bytes :=
  match uuidType with
  | .legacy => []
  | .version3 => typeArgs.getD uuidNsZero
  | .version5 => typeArgs.getD uuidNsZero

/-- What is hashed by `nm_uuid_generate_from_string()`. -/
def uuidHashed (uuidType : UuidType) (typeArgs : Option Bytes) (s : Bytes) : Bytes :=
  uuidNamespace uuidType typeArgs ++ s

/-! ## Lists of terminated strings -/

theorem terminated_append_inj {s t : CString} {x y : Bytes}
    (h : s.terminated ++ x = t.terminated ++ y) : s = t ∧ x = y := by
  obtain ⟨s, hs⟩ := s
  obtain ⟨t, ht⟩ := t
  simp only [CString.terminated, append_assoc, singleton_append] at h
  have hstop (s z : Bytes) (hs : NulFree s) : (s ++ 0 :: z).takeWhile (· ≠ 0) = s := by
    have hne : ∀ c ∈ s, decide (c ≠ 0) = true := by
      rintro c hc
      refine decide_eq_true ?_
      rintro rfl
      exact hs hc
    rw [takeWhile_append_of_pos hne]
    simp
  have hst : s = t := by
    rw [← hstop s x hs, h, hstop t y ht]
  subst hst
  exact ⟨rfl, (List.cons.inj (append_cancel_left h)).2⟩

theorem flatMap_terminated_injective :
    Function.Injective fun l : List CString => l.flatMap CString.terminated := by
  have hne (s : CString) (x : Bytes) : s.terminated ++ x ≠ [] := by
    simp [CString.terminated]
  intro l
  induction l with
  | nil =>
    intro l' h
    cases l' with
    | nil => rfl
    | cons t l' => exact absurd h.symm (hne t _)
  | cons s l ih =>
    intro l' h
    cases l' with
    | nil => exact absurd h (hne s _)
    | cons t l' =>
      obtain ⟨rfl, hrest⟩ := terminated_append_inj h
      exact congrArg (s :: ·) (ih hrest)

theorem closed_flatMap_terminated (l : List CString) :
    Closed 0 (l.flatMap CString.terminated) := by
  induction l with
  | nil => exact closed_nil 0
  | cons s l ih => exact (closed_concat 0 s.bytes).append ih

theorem flatMap_terminated_append_inj {l l' : List CString} {x y : Bytes} (hx : NulFree x)
    (hy : NulFree y)
    (h : l.flatMap CString.terminated ++ x = l'.flatMap CString.terminated ++ y) :
    l = l' ∧ x = y := by
  obtain ⟨hl, hxy⟩ :=
    (closed_flatMap_terminated l).append_inj (closed_flatMap_terminated l') hx hy h
  exact ⟨flatMap_terminated_injective hl, hxy⟩

/-! ## The text of a list -/

/-- The list that an argument stands for, whose elements may be `NULL`. The argument `NULL` is no
list. -/
def StrvArg.elements : StrvArg → Option (List (Option CString))
  | .null => none
  | .nullTerminated strv => some (strv.map some)
  | .ofLength strv => some strv

def listText (strv : List (Option CString)) : Bytes :=
  strv.flatMap appendElement ++ nullsBitmap strv

theorem flatMap_appendElement (strv : List (Option CString)) :
    strv.flatMap appendElement = strv.reduceOption.flatMap CString.terminated := by
  induction strv with
  | nil => rfl
  | cons s strv ih =>
    cases s with
    | none => simpa [appendElement] using ih
    | some s => simp [appendElement, ih]

theorem strvText_nullTerminated (strv : List CString) :
    strvText (.nullTerminated strv) = listText (strv.map some) := by
  have hbitmap : nullsBitmap (strv.map some) = [] := if_neg (by simp)
  have hsome : (strv.map some).flatMap appendElement = strv.flatMap CString.terminated := by
    rw [flatMap_map]
    rfl
  rw [listText, hbitmap, hsome, append_nil]
  rcases strv with _ | ⟨s, _ | ⟨t, strv⟩⟩
  · rfl
  · exact (flatMap_singleton CString.terminated s).symm
  · rfl

theorem nulFree_nullsBitmap (strv : List (Option CString)) : NulFree (nullsBitmap strv) := by
  have hchar (s : Option CString) : bitmapChar s ≠ 0 := by
    cases s
    · exact (by decide : ('_' : UInt8) ≠ 0)
    · exact (by decide : ('1' : UInt8) ≠ 0)
  unfold nullsBitmap
  split_ifs
  · rw [nulFree_append]
    refine ⟨fun h => ?_, by decide⟩
    obtain ⟨s, -, hs⟩ := mem_map.mp h
    exact hchar s hs
  · exact nulFree_nil

theorem map_bitmapChar_inj {strv strv' : List (Option CString)}
    (hsome : strv.reduceOption = strv'.reduceOption)
    (h : strv.map bitmapChar = strv'.map bitmapChar) : strv = strv' := by
  have hne : ('1' : UInt8) ≠ '_' := by decide
  induction strv generalizing strv' with
  | nil => exact (map_eq_nil_iff.mp h.symm).symm
  | cons s strv ih =>
    obtain ⟨s', strv', rfl⟩ : ∃ s' l, strv' = s' :: l := by
      cases strv' with
      | nil => cases h
      | cons s' l => exact ⟨s', l, rfl⟩
    obtain ⟨hchar, hrest⟩ := List.cons.inj h
    cases s with
    | none =>
      cases s' with
      | none => rw [ih (by simpa using hsome) hrest]
      | some t => exact absurd hchar hne.symm
    | some s =>
      cases s' with
      | none => exact absurd hchar hne
      | some t =>
        simp only [reduceOption_cons_of_some, List.cons.injEq] at hsome
        rw [hsome.1, ih hsome.2 hrest]

theorem map_some_reduceOption {strv : List (Option CString)} (h : none ∉ strv) :
    strv.reduceOption.map some = strv := by
  induction strv with
  | nil => rfl
  | cons s strv ih =>
    obtain ⟨hs, hstrv⟩ := not_or.mp (mt mem_cons.mpr h)
    obtain ⟨t, rfl⟩ := Option.ne_none_iff_exists'.mp (Ne.symm hs)
    rw [reduceOption_cons_of_some, map_cons, ih hstrv]

theorem nullsBitmap_inj {strv strv' : List (Option CString)}
    (hsome : strv.reduceOption = strv'.reduceOption)
    (h : nullsBitmap strv = nullsBitmap strv') : strv = strv' := by
  have hne (l : Bytes) : l ++ ascii "n" ≠ [] := by simp [ascii]
  unfold nullsBitmap at h
  split_ifs at h with hnone hnone' hnone'
  · exact map_bitmapChar_inj hsome (append_cancel_right h)
  · exact absurd h (hne _)
  · exact absurd h.symm (hne _)
  · rw [← map_some_reduceOption hnone, hsome, map_some_reduceOption hnone']

theorem listText_injective : Function.Injective listText := by
  intro strv strv' h
  rw [listText, listText, flatMap_appendElement, flatMap_appendElement] at h
  obtain ⟨hsome, hbitmap⟩ := flatMap_terminated_append_inj (nulFree_nullsBitmap strv)
    (nulFree_nullsBitmap strv') h
  exact nullsBitmap_inj hsome hbitmap

theorem listText_ne_null (strv : List (Option CString)) : listText strv ≠ ascii "x" := by
  intro h
  rw [listText, flatMap_appendElement] at h
  have hlast := congrArg List.getLast? h
  unfold nullsBitmap at hlast
  split_ifs at hlast
  · rw [← append_assoc, List.getLast?_append_of_ne_nil _ (by decide)] at hlast
    exact absurd hlast (by decide)
  · rw [append_nil] at hlast
    rcases closed_flatMap_terminated strv.reduceOption with hw | ⟨w, hw⟩
    · rw [hw] at hlast
      exact absurd hlast (by decide)
    · rw [hw, List.getLast?_concat] at hlast
      exact absurd hlast (by decide)

/-- The same bytes are hashed of two arguments exactly if they are the same list of strings, or if
both are `NULL`. -/
theorem uuidHashed_strvText_inj (uuidType : UuidType) (typeArgs : Option Bytes) (a b : StrvArg) :
    uuidHashed uuidType typeArgs (strvText a) = uuidHashed uuidType typeArgs (strvText b) ↔
      a.elements = b.elements := by
  have htext (a : StrvArg) : strvText a = a.elements.elim (ascii "x") listText := by
    cases a with
    | null => rfl
    | nullTerminated strv => exact strvText_nullTerminated strv
    | ofLength strv => rfl
  rw [uuidHashed, uuidHashed, append_cancel_left_eq, htext, htext]
  cases a.elements with
  | none =>
    cases b.elements with
    | none => simp
    | some strv => simpa using (listText_ne_null strv).symm
  | some strv =>
    cases b.elements with
    | none => simpa using listText_ne_null strv
    | some strv' => simpa using listText_injective.eq_iff

end NetworkManager.GlibAux
