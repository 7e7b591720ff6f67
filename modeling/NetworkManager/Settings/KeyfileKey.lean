import NetworkManager.Lib.Bytes

/-!
# Names as keys of a keyfile

A name becomes a key by escaping what a key must not contain. A backslash stands for itself
unless two hexadecimal digits follow, and there is one more key for the empty name.
-/

namespace NetworkManager.Settings

open Lib List

/-! ## The source -/

def startsXdigits : Bytes → Bool
  | a :: b :: _ => isXdigit a && isXdigit b
  | _ => false

def mustEscape (ch : UInt8) (rest : Bytes) : Bool :=
  !isRegular ch || (ch = '=' || ch = '[' || ch = ']') || (ch = '\\' && startsXdigits rest) ||
    (ch = ' ' && rest = [])

def isEscape (ch : UInt8) (rest : Bytes) : Bool := ch = '\\' && startsXdigits rest

/-- The part of a string before the first character that a loop is looking for, and the rest;
nothing if the end is reached. -/
def splitFirst (p : UInt8 → Bytes → Bool) : Bytes → Option (Bytes × Bytes)
  | [] => none
  | ch :: rest =>
    if p ch rest then some ([], ch :: rest)
    else (splitFirst p rest).map fun s => (ch :: s.1, s.2)

def escapeChar (ch : UInt8) : Bytes := ['\\', hexchar (ch >>> (4 : UInt8)) true, hexchar ch true]

/-- The loop of `_keyfile_key_encode()`. -/
def encodeLoop : Bytes → Bytes
  | [] => []
  | ch :: rest => (if mustEscape ch rest then escapeChar ch else [ch]) ++ encodeLoop rest

def keyfileKeyEncode (name : Bytes) : Bytes :=
  match name with
  | [] => ascii "\\00"
  | ch :: rest =>
    if ch ≠ ' ' then
      match splitFirst mustEscape name with
      | none => name
      | some s => s.1 ++ encodeLoop s.2
    else if rest = [] then ascii "\\20"
    else ascii "\\20" ++ encodeLoop rest

/-- The loop of `_keyfile_key_decode()`. An escape sequence of a NUL byte is kept as it is. -/
def decodeLoop : Bytes → Bytes
  | [] => []
  | [ch] => [ch]
  | [ch, ch1] => [ch, ch1]
  | ch :: ch1 :: ch2 :: rest =>
    let v := (xdigitValue ch1 <<< 4) + xdigitValue ch2
    if isEscape ch (ch1 :: ch2 :: rest) && v ≠ 0 then v :: decodeLoop rest
    else ch :: decodeLoop (ch1 :: ch2 :: rest)

def keyfileKeyDecode (key : Bytes) : Bytes :=
  match splitFirst isEscape key with
  | none => key
  | some s => if key = ascii "\\00" then [] else s.1 ++ decodeLoop s.2

/-! ## The loops -/

theorem splitFirst_loop {p : UInt8 → Bytes → Bool} {loop : Bytes → Bytes} (hnil : loop [] = [])
    (hcopy : ∀ ch rest, ¬ p ch rest → loop (ch :: rest) = ch :: loop rest) (s : Bytes) :
    (match splitFirst p s with
      | none => s
      | some t => t.1 ++ loop t.2) = loop s := by
  induction s with
  | nil => exact hnil.symm
  | cons ch rest ih =>
    unfold splitFirst
    by_cases hp : p ch rest
    · rw [if_pos hp]
      rfl
    · rw [if_neg hp, hcopy ch rest hp, ← ih]
      cases splitFirst p rest <;> rfl

variable {ch : UInt8} {rest : Bytes}

theorem encodeLoop_of_escape (h : mustEscape ch rest) :
    encodeLoop (ch :: rest) = escapeChar ch ++ encodeLoop rest := by
  rw [encodeLoop, if_pos h]

theorem encodeLoop_of_copy (h : ¬ mustEscape ch rest) :
    encodeLoop (ch :: rest) = ch :: encodeLoop rest := by
  rw [encodeLoop, if_neg h]
  rfl

theorem decodeLoop_of_copy (h : ¬ isEscape ch rest) :
    decodeLoop (ch :: rest) = ch :: decodeLoop rest := by
  match rest with
  | [] => rfl
  | [ch1] => rfl
  | ch1 :: ch2 :: rest =>
    rw [decodeLoop]
    simp [h]

theorem keyfileKeyEncode_eq (rest : Bytes) :
    keyfileKeyEncode (ch :: rest) =
      if ch = ' ' then ascii "\\20" ++ encodeLoop rest else encodeLoop (ch :: rest) := by
  have hscan := splitFirst_loop (p := mustEscape) rfl
    (fun _ _ h => encodeLoop_of_copy h) (ch :: rest)
  unfold keyfileKeyEncode
  dsimp only
  by_cases hspace : ch = ' '
  · rw [if_neg (not_not_intro hspace), if_pos hspace]
    split_ifs with hrest
    · rw [hrest]
      rfl
    · rfl
  · rw [if_pos hspace, if_neg hspace]
    exact hscan

/-! ## Escape sequences -/

theorem not_isXdigit_of_mustEscape (h : mustEscape ch rest) : ¬ isXdigit ch := by
  have hdigit : ∀ ch, isXdigit ch → isRegular ch ∧ ch ≠ '=' ∧ ch ≠ '[' ∧ ch ≠ ']' ∧ ch ≠ '\\' ∧
      ch ≠ ' ' := by decide
  intro hx
  obtain ⟨hreg, heq, hopen, hclose, hback, hspace⟩ := hdigit ch hx
  simp [mustEscape, hreg, heq, hopen, hclose, hback, hspace] at h

theorem startsXdigits_encodeLoop (s : Bytes) :
    startsXdigits (encodeLoop s) = startsXdigits s := by
  have hback : isXdigit '\\' = false := by decide
  match s with
  | [] => rfl
  | [a] =>
    by_cases ha : mustEscape a []
    · rw [encodeLoop_of_escape ha]
      simp [escapeChar, startsXdigits, hback]
    · rw [encodeLoop_of_copy ha]
      rfl
  | a :: b :: rest =>
    by_cases ha : mustEscape a (b :: rest)
    · have hdigit := not_isXdigit_of_mustEscape ha
      rw [encodeLoop_of_escape ha]
      simp [escapeChar, startsXdigits, hback, hdigit]
    · rw [encodeLoop_of_copy ha]
      by_cases hb : mustEscape b rest
      · have hdigit := not_isXdigit_of_mustEscape hb
        rw [encodeLoop_of_escape hb]
        simp [escapeChar, startsXdigits, hback, hdigit]
      · rw [encodeLoop_of_copy hb]
        rfl

theorem decodeLoop_escapeChar (h : ch ≠ 0) (s : Bytes) :
    decodeLoop (escapeChar ch ++ s) = ch :: decodeLoop s := by
  have hescape : isEscape '\\' (hexchar (ch >>> (4 : UInt8)) true :: hexchar ch true :: s) := by
    simp [isEscape, startsXdigits, isXdigit_hexchar]
  simp only [escapeChar, cons_append, nil_append]
  rw [decodeLoop, xdigitValue_hexchar]
  simp [hescape, h]

theorem decodeLoop_encodeLoop {s : Bytes} (h : NulFree s) : decodeLoop (encodeLoop s) = s := by
  induction s with
  | nil => rfl
  | cons ch rest ih =>
    obtain ⟨hch, hrest⟩ := nulFree_cons.mp h
    by_cases hescape : mustEscape ch rest
    · rw [encodeLoop_of_escape hescape, decodeLoop_escapeChar hch, ih hrest]
    · have hraw : ¬ isEscape ch (encodeLoop rest) := by
        intro hraw
        apply hescape
        unfold isEscape at hraw
        rw [startsXdigits_encodeLoop] at hraw
        simp [mustEscape, hraw]
      rw [encodeLoop_of_copy hescape, decodeLoop_of_copy hraw, ih hrest]

theorem keyfileKeyDecode_eq {key : Bytes} (h : key ≠ ascii "\\00") :
    keyfileKeyDecode key = decodeLoop key := by
  unfold keyfileKeyDecode
  rw [← splitFirst_loop (p := isEscape) rfl (fun _ _ h => decodeLoop_of_copy h) key]
  cases splitFirst isEscape key with
  | none => rfl
  | some s => exact if_neg h

/-! ## Keys -/

/-- What `g_key_file_is_key_name()` asks for, and no characters but printable ASCII ones. -/
structure ValidKeyName (key : Bytes) : Prop where
  nonempty : key ≠ []
  chars : ∀ b ∈ key, isRegular b ∧ b ≠ '=' ∧ b ≠ '[' ∧ b ≠ ']'
  leading : key.head? ≠ some ' '
  trailing : key.getLast? ≠ some ' '

theorem keyfileKeyDecode_encode {name : Bytes} (h : NulFree name) :
    keyfileKeyDecode (keyfileKeyEncode name) = name := by
  cases name with
  | nil => decide
  | cons ch rest =>
    obtain ⟨hch, hrest⟩ := nulFree_cons.mp h
    rw [keyfileKeyEncode_eq]
    split_ifs with hspace
    · have hkey : ascii "\\20" = escapeChar ' ' := by decide
      have hne : ascii "\\20" ++ encodeLoop rest ≠ ascii "\\00" := by
        intro heq
        have hsecond : some '2'.toUInt8 = some '0'.toUInt8 := congrArg (fun s => s[1]?) heq
        exact absurd hsecond (by decide)
      rw [keyfileKeyDecode_eq hne, hkey, hspace, decodeLoop_escapeChar (by decide),
        decodeLoop_encodeLoop hrest]
    · have hne : encodeLoop (ch :: rest) ≠ ascii "\\00" := by
        intro heq
        have hname := decodeLoop_encodeLoop h
        rw [heq] at hname
        rw [← hname] at heq
        exact absurd heq (by decide)
      rw [keyfileKeyDecode_eq hne, decodeLoop_encodeLoop h]

theorem encodeLoop_chars (s : Bytes) :
    ∀ b ∈ encodeLoop s, isRegular b ∧ b ≠ '=' ∧ b ≠ '[' ∧ b ≠ ']' := by
  have hhex : ∀ b, isRegular (hexchar b true) ∧ hexchar b true ≠ '=' ∧ hexchar b true ≠ '[' ∧
      hexchar b true ≠ ']' := by decide
  induction s with
  | nil => exact forall_mem_nil _
  | cons ch rest ih =>
    by_cases hescape : mustEscape ch rest
    · rw [encodeLoop_of_escape hescape, escapeChar]
      simp only [cons_append, nil_append, forall_mem_cons]
      exact ⟨by decide, hhex _, hhex _, ih⟩
    · rw [encodeLoop_of_copy hescape, forall_mem_cons]
      simp only [mustEscape, Bool.or_eq_true, not_or] at hescape
      have hregular : isRegular ch := by simpa using hescape.1.1.1
      exact ⟨⟨hregular, by simpa using hescape.1.1.2.1.1, by simpa using hescape.1.1.2.1.2,
        by simpa using hescape.1.1.2.2⟩, ih⟩

theorem encodeLoop_trailing (s : Bytes) : (encodeLoop s).getLast? ≠ some ' ' := by
  have hhex : ∀ b, hexchar b true ≠ ' ' := by decide
  induction s with
  | nil => simp [encodeLoop]
  | cons ch rest ih =>
    have hlast : ∀ b : UInt8, b ≠ ' ' → (b :: encodeLoop rest).getLast? ≠ some ' ' := by
      intro b hb
      rw [List.getLast?_cons]
      cases hrest : (encodeLoop rest).getLast? with
      | none => simpa using hb
      | some c => simpa [hrest] using ih
    by_cases hescape : mustEscape ch rest
    · rw [encodeLoop_of_escape hescape]
      simp only [escapeChar, cons_append, nil_append, List.getLast?_cons_cons]
      exact hlast _ (hhex ch)
    · rw [encodeLoop_of_copy hescape]
      cases rest with
      | nil =>
        simp only [mustEscape, Bool.or_eq_true, not_or] at hescape
        simpa [encodeLoop] using hescape.2
      | cons ch' rest' =>
        cases hrest : encodeLoop (ch' :: rest') with
        | nil =>
          rw [encodeLoop] at hrest
          split_ifs at hrest <;> simp [escapeChar] at hrest
        | cons b s =>
          rw [List.getLast?_cons_cons, ← hrest]
          exact ih

theorem validKeyName_encode (name : Bytes) : ValidKeyName (keyfileKeyEncode name) := by
  cases name with
  | nil => exact ⟨by decide, by decide, by decide, by decide⟩
  | cons ch rest =>
    rw [keyfileKeyEncode_eq]
    split_ifs with hspace
    · have hkey : ascii "\\20" = [92, 50, 48] := by decide
      rw [hkey]
      refine ⟨by simp, ?_, by simp; decide, ?_⟩
      · simp only [cons_append, nil_append, forall_mem_cons]
        exact ⟨by decide, by decide, by decide, encodeLoop_chars rest⟩
      · simp only [cons_append, nil_append, List.getLast?_cons_cons]
        rw [List.getLast?_cons]
        have htrailing := encodeLoop_trailing rest
        cases hrest : (encodeLoop rest).getLast? with
        | none => decide
        | some c => simpa [hrest] using htrailing
    · refine ⟨?_, encodeLoop_chars _, ?_, encodeLoop_trailing _⟩
      · rw [encodeLoop]
        split_ifs <;> simp [escapeChar]
      · by_cases hescape : mustEscape ch rest
        · rw [encodeLoop_of_escape hescape, escapeChar]
          simp only [cons_append, List.head?_cons]
          decide
        · rw [encodeLoop_of_copy hescape]
          simpa using hspace

/-- Every name is read back from its key, which is one that a keyfile can have, so that no two
names have one key. -/
theorem keyfileKey_roundTrip (name : Bytes) (h : NulFree name) :
    keyfileKeyDecode (keyfileKeyEncode name) = name ∧ ValidKeyName (keyfileKeyEncode name) ∧
      ∀ name', NulFree name' → keyfileKeyEncode name' = keyfileKeyEncode name → name' = name := by
  refine ⟨keyfileKeyDecode_encode h, validKeyName_encode name, fun name' h' heq => ?_⟩
  rw [← keyfileKeyDecode_encode h', heq, keyfileKeyDecode_encode h]

/-- A name with spaces around, which is no UTF-8 and looks like an escape sequence. -/
theorem spaced_name_roundTrip :
    keyfileKeyEncode [32, 255, 92, 48, 48, 92, 61, 32] = ascii "\\20\\FF\\5C00\\\\3D\\20" ∧
      keyfileKeyDecode (keyfileKeyEncode [32, 255, 92, 48, 48, 92, 61, 32]) =
        [32, 255, 92, 48, 48, 92, 61, 32] :=
  ⟨by decide, (keyfileKey_roundTrip _ (by decide)).1⟩

end NetworkManager.Settings
