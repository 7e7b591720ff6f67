import NetworkManager.GlibAux.AsciiStrToInt64
import NetworkManager.Lib.KeyFile
import NetworkManager.Lib.KeyFileString

/-!
# Reading values of a configuration key file

The accessors of `nm-config.c` for key files: booleans, numbers and strings, each with the value
for a key that is missing or that cannot be read.
-/

namespace NetworkManager.Core

open Lib GlibAux

/-- A key file of the configuration, with raw values. -/
abbrev ConfigKeyfile := KeyFile String String Bytes

def asciiToLower (c : UInt8) : UInt8 := if 65 ≤ c ∧ c ≤ 90 then c + 32 else c

/-- `!g_ascii_strcasecmp()` -/
def asciiStrCaseEq (s t : Bytes) : Bool := s.map asciiToLower = t.map asciiToLower

def strstrip (s : Bytes) : Bytes := chomp (skipSpaces s)

/-- `_nm_utils_ascii_str_to_bool()`, without a value where the default is returned. -/
def asciiStrToBool (str : Option Bytes) : Option Bool :=
  match str with
  | none => none
  | some str =>
    let str := strstrip str
    if ["true", "yes", "on", "1"].any fun s => asciiStrCaseEq str (ascii s) then some true
    else if ["false", "no", "off", "0"].any fun s => asciiStrCaseEq str (ascii s) then some false
    else none

section Accessors

variable (keyfile : ConfigKeyfile) (section_ key : String)

/-- `nm_config_keyfile_get_boolean()`, without a value where the default is returned. -/
def keyfileGetBoolean : Option Bool := asciiStrToBool (keyfile.getValue section_ key)

def keyfileGetInt64 (base : ℕ) (min max fallback : ℤ) : ℤ :=
  match keyfile.getValue section_ key with
  | none => fallback
  | some str => (asciiStrToInt64 str base min max).getD fallback

def keyfileGetString : Option Bytes := (keyfile.getValue section_ key).bind keyFileGetString

/-- `nm_config_keyfile_get_value()`; the flags are RAW, STRIP and NO_EMPTY. -/
def keyfileGetValue (raw strip noEmpty : Bool) : Option Bytes :=
  let value := if raw then keyfile.getValue section_ key else keyfileGetString keyfile section_ key
  (value.map fun v => if strip then strstrip v else v).filter fun v => !noEmpty || v ≠ []

end Accessors

/-! ## What is stored is read back -/

theorem asciiStrToBool_of_bool (value : Bool) :
    asciiStrToBool (some (ascii (if value then "true" else "false"))) = some value := by
  cases value <;> decide

theorem strstrip_of_ends {s : Bytes} (hhead : ∀ c ∈ s.head?, ¬ isSpace c)
    (hlast : ∀ c ∈ s.getLast?, ¬ isSpace c) : strstrip s = s := by
  rw [strstrip, skipSpaces_of_head hhead, chomp]
  cases h : s.getLast? with
  | none =>
    rw [List.getLast?_eq_none_iff.mp h]
    rfl
  | some c =>
    obtain ⟨t, rfl⟩ := List.getLast?_eq_some_iff.mp h
    exact List.rdropWhile_concat_neg isSpace t c (by simpa using hlast c h)

theorem strstrip_strstrip (s : Bytes) : strstrip (strstrip s) = strstrip s := by
  apply strstrip_of_ends
  · intro c hc hspace
    have hhead := List.head?_dropWhile_not isSpace s
    obtain ⟨t, ht⟩ := List.rdropWhile_prefix isSpace (skipSpaces s)
    obtain ⟨u, hu⟩ := List.head?_eq_some_iff.mp hc
    rw [strstrip, chomp] at hu
    rw [← skipSpaces, ← ht, hu, List.cons_append, List.head?_cons] at hhead
    dsimp only at hhead
    rw [hspace] at hhead
    cases hhead
  · intro c hc
    obtain ⟨hne, hlast⟩ := List.mem_getLast?_eq_getLast hc
    rw [hlast]
    exact List.rdropWhile_last_not isSpace (skipSpaces s) hne

end NetworkManager.Core
