import NetworkManager.Lib.Checks
import NetworkManager.Settings.VariantAttributes
import Mathlib.Data.List.Find
import Mathlib.Data.List.Perm.Basic

/-!
# Known and unknown attributes

The pairs of a text are read in order. A pair whose name is unknown hides all pairs behind it, as
the scan does not start again there, and a name that has the key-value separator is cut at it.
Elsewhere, the known pairs are read with their values, and what is formatted is read back.
-/

namespace NetworkManager.Settings

open Lib GlibAux List

/-! ## One byte more -/

theorem attributeUnescape_escaped (n : ℕ) (c : UInt8) (s : Bytes) :
    attributeUnescape (n + 2) (('\\' : UInt8) :: c :: s) = c :: attributeUnescape n s :=
  rfl

variable {b : UInt8}

theorem attributeUnescape_plain (hb : b ≠ '\\') (n : ℕ) (s : Bytes) :
    attributeUnescape (n + 1) (b :: s) = b :: attributeUnescape n s := by
  rw [attributeUnescape.eq_def]
  exact if_neg hb

section Separator

variable {keyValue : UInt8}

theorem findKeyValueSeparator_self (hkv : keyValue ≠ '\\') (s : Bytes) :
    findKeyValueSeparator keyValue (keyValue :: s) = .ok 0 := by
  cases s <;> simp [findKeyValueSeparator, hkv]

theorem findKeyValueSeparator_escaped_self (s : Bytes) :
    findKeyValueSeparator keyValue (('\\' : UInt8) :: keyValue :: s) = .ok 1 := by
  simp [findKeyValueSeparator]

theorem findKeyValueSeparator_escaped {c : UInt8} (hc : c ≠ keyValue) (s : Bytes) :
    findKeyValueSeparator keyValue (('\\' : UInt8) :: c :: s) =
      (findKeyValueSeparator keyValue s).map (· + 2) := by
  simp [findKeyValueSeparator, hc]

theorem findKeyValueSeparator_plain (hb : b ≠ '\\') (hne : b ≠ keyValue) (s : Bytes) :
    findKeyValueSeparator keyValue (b :: s) =
      (findKeyValueSeparator keyValue s).map (· + 1) := by
  cases s <;> simp [findKeyValueSeparator, hb, hne]

end Separator

/-! ## Escaped texts -/

namespace AttributeSeparators

variable (seps : AttributeSeparators)

/-- No separator that stands in the text of the pairs is the character that escapes. -/
structure NoEscape {α : Type*} (pairs : List α) : Prop where
  keyValue : pairs ≠ [] → seps.keyValue ≠ '\\'
  attr : 2 ≤ pairs.length → seps.attr ≠ '\\'

def escape (s : Bytes) : Bytes := attributeEscape s seps.attr seps.keyValue

def pairText (pair : Bytes × Bytes) : Bytes :=
  seps.escape pair.1 ++ seps.keyValue :: seps.escape pair.2

variable {seps}

@[simp] theorem escape_nil : seps.escape [] = [] := rfl

theorem escape_cons_of_special (h : b = seps.attr ∨ b = seps.keyValue ∨ b = '\\') (s : Bytes)
    : seps.escape (b :: s) = ('\\' : UInt8) :: b :: seps.escape s := by
  simp [escape, attributeEscape, h]

theorem escape_cons_of_plain (h : ¬ (b = seps.attr ∨ b = seps.keyValue ∨ b = '\\')) (s : Bytes)
    : seps.escape (b :: s) = b :: seps.escape s := by
  simp [escape, attributeEscape, h]

theorem escape_append (s t : Bytes) : seps.escape (s ++ t) = seps.escape s ++ seps.escape t :=
  flatMap_append

theorem attributeUnescape_escape (s : Bytes) (n : ℕ) (rest : Bytes) :
    attributeUnescape (n + (seps.escape s).length) (seps.escape s ++ rest) =
      s ++ attributeUnescape n rest := by
  induction s with
  | nil => rfl
  | cons b s ih =>
    by_cases hb : b = seps.attr ∨ b = seps.keyValue ∨ b = '\\'
    · rw [escape_cons_of_special hb, length_cons, length_cons, cons_append,
        cons_append, ← Nat.add_assoc, ← Nat.add_assoc, attributeUnescape_escaped, ih]
      rfl
    · have hne : b ≠ '\\' := fun h => hb (.inr (.inr h))
      rw [escape_cons_of_plain hb, length_cons, cons_append, ← Nat.add_assoc,
        attributeUnescape_plain hne, ih]
      rfl

theorem attributeUnescape_escape_all (s rest : Bytes) :
    attributeUnescape (seps.escape s).length (seps.escape s ++ rest) = s := by
  simpa [attributeUnescape] using @attributeUnescape_escape seps s 0 rest

theorem findKeyValueSeparator_escape {s : Bytes} (hs : seps.keyValue ∉ s) {rest : Bytes} {n : ℕ}
    (hrest : findKeyValueSeparator seps.keyValue rest = .ok n) :
    findKeyValueSeparator seps.keyValue (seps.escape s ++ rest) =
      .ok (n + (seps.escape s).length) := by
  induction s with
  | nil => exact hrest
  | cons b s ih =>
    have hne : b ≠ seps.keyValue := fun h => hs (h ▸ mem_cons_self)
    have ih := ih fun h => hs (mem_cons_of_mem b h)
    by_cases hb : b = seps.attr ∨ b = seps.keyValue ∨ b = '\\'
    · rw [escape_cons_of_special hb, cons_append, cons_append,
        findKeyValueSeparator_escaped hne, ih]
      rfl
    · have hescape : b ≠ '\\' := fun h => hb (.inr (.inr h))
      rw [escape_cons_of_plain hb, cons_append, findKeyValueSeparator_plain hescape hne, ih]
      rfl

end AttributeSeparators

/-! ## Pairs as they are read -/

/-- A pair as it is read: a name that has the separator ends behind the first one. -/
def cutName (keyValue : UInt8) (pair : Bytes × Bytes) : Bytes × Bytes :=
  if keyValue ∈ pair.1 then
    (pair.1.takeWhile (· ≠ keyValue) ++ [keyValue],
      (pair.1.dropWhile (· ≠ keyValue)).tail ++ keyValue :: pair.2)
  else pair

variable {pair : Bytes × Bytes}

theorem cutName_of_notMem {keyValue : UInt8} (h : keyValue ∉ pair.1) :
    cutName keyValue pair = pair :=
  if_neg h

theorem cutName_append {keyValue : UInt8} {a : Bytes} (ha : keyValue ∉ a) (b value : Bytes) :
    cutName keyValue (a ++ keyValue :: b, value) =
      (a ++ [keyValue], b ++ keyValue :: value) := by
  have hall : ∀ c ∈ a, decide (c ≠ keyValue) = true := by
    intro c hc
    simp only [decide_eq_true_eq]
    rintro rfl
    exact ha hc
  rw [cutName, if_pos (by simp), takeWhile_append_of_pos hall,
    dropWhile_append_of_pos hall]
  simp

theorem AttributeSeparators.pairText_cut {seps : AttributeSeparators} (hkv : seps.keyValue ≠ '\\')
    (pair : Bytes × Bytes) :
    ∃ head tail, seps.pairText pair = head ++ seps.keyValue :: tail ∧ ∀ more,
      findKeyValueSeparator seps.keyValue (head ++ seps.keyValue :: tail ++ more) =
          .ok head.length ∧
        attributeUnescape head.length (head ++ seps.keyValue :: tail ++ more) =
          (cutName seps.keyValue pair).1 ∧
        attributeUnescape tail.length (tail ++ more) = (cutName seps.keyValue pair).2 := by
  obtain ⟨name, value⟩ := pair
  by_cases hmem : seps.keyValue ∈ name
  · obtain ⟨a, b, rfl, ha⟩ := eq_append_cons_of_mem hmem
    refine ⟨seps.escape a ++ [('\\' : UInt8)],
      seps.escape b ++ seps.keyValue :: seps.escape value, ?_, fun more => ⟨?_, ?_, ?_⟩⟩
    · simp [pairText, escape_append, escape_cons_of_special]
    · rw [append_assoc, append_assoc]
      have hfind := findKeyValueSeparator_escape ha
        (@findKeyValueSeparator_escaped_self seps.keyValue
          (seps.escape b ++ seps.keyValue :: seps.escape value ++ more))
      simpa [Nat.add_comm] using hfind
    · have hname := @attributeUnescape_escape seps a 1
        (('\\' : UInt8) :: seps.keyValue :: (seps.escape b ++ seps.keyValue :: seps.escape value ++
          more))
      have hlast (r : Bytes) : attributeUnescape 1 (('\\' : UInt8) :: seps.keyValue :: r) =
          [seps.keyValue] := by
        simp [attributeUnescape]
      rw [hlast] at hname
      simpa [cutName_append ha, Nat.add_comm] using hname
    · have hvalue := @attributeUnescape_escape seps b ((seps.escape value).length + 1)
        (seps.keyValue :: (seps.escape value ++ more))
      rw [attributeUnescape_plain hkv, attributeUnescape_escape_all] at hvalue
      simpa [cutName_append ha, Nat.add_comm, Nat.add_assoc, Nat.add_left_comm] using hvalue
  · refine ⟨seps.escape name, seps.escape value, rfl, fun more => ⟨?_, ?_, ?_⟩⟩
    · rw [append_assoc]
      have hfind := findKeyValueSeparator_escape hmem
        (findKeyValueSeparator_self hkv (seps.escape value ++ more))
      simpa using hfind
    · rw [cutName_of_notMem hmem, append_assoc, attributeUnescape_escape_all]
    · rw [cutName_of_notMem hmem, attributeUnescape_escape_all]

/-- Pairs with one or more separators between them. -/
inductive AttributeSeparators.JoinedPairs (seps : AttributeSeparators) :
    List (Bytes × Bytes) → Bytes → Prop
  | nil : JoinedPairs seps [] []
  | single (pair : Bytes × Bytes) : JoinedPairs seps [pair] (seps.pairText pair)
  | cons (pair : Bytes × Bytes) (n : ℕ) {next : Bytes × Bytes} {pairs : List (Bytes × Bytes)}
      {text : Bytes} (rest : JoinedPairs seps (next :: pairs) text) :
      JoinedPairs seps (pair :: next :: pairs)
        (seps.pairText pair ++ (List.replicate (n + 1) seps.attr ++ text))

/-- What reading the pairs one after the other comes to. -/
def readPairs (spec : List VariantAttributeSpec) (ignoreUnknown : Bool) (ht : AttributeTable) :
    List (Bytes × Bytes) → Except AttributeError AttributeTable
  | [] => .ok ht
  | pair :: pairs =>
    match findSpec spec ht pair.1 with
    | none => if ignoreUnknown then .ok ht else .error (.unknownAttribute pair.1)
    | some s =>
      match parseValue s pair.2 with
      | .error e => .error e
      | .ok variant => readPairs spec ignoreUnknown (ht ++ [(s.name, variant)]) pairs

/-! ## The scan -/

variable {ht : AttributeTable} {pairs : List (Bytes × Bytes)} {text : Bytes}

section Scan

variable {spec : List VariantAttributeSpec} {seps : AttributeSeparators} {ignoreUnknown : Bool}

theorem parseAttributesLoop_plain (hb : b ≠ '\\') (hne : b ≠ seps.attr) (ht : AttributeTable)
    (found rest : Bytes) :
    parseAttributesLoop spec seps ignoreUnknown ht found (b :: rest) =
      parseAttributesLoop spec seps ignoreUnknown ht (found ++ [b]) rest := by
  cases rest <;> simp [parseAttributesLoop, hb, hne]

theorem parseAttributesLoop_escape (ht : AttributeTable) (found s rest : Bytes) :
    parseAttributesLoop spec seps ignoreUnknown ht found (seps.escape s ++ rest) =
      parseAttributesLoop spec seps ignoreUnknown ht (found ++ seps.escape s) rest := by
  induction s generalizing found with
  | nil => simp
  | cons b s ih =>
    by_cases hb : b = seps.attr ∨ b = seps.keyValue ∨ b = '\\'
    · rw [AttributeSeparators.escape_cons_of_special hb, cons_append, cons_append,
        parseAttributesLoop, if_pos rfl, ih, append_assoc]
      rfl
    · have hescape : b ≠ '\\' := fun h => hb (.inr (.inr h))
      have hattr : b ≠ seps.attr := fun h => hb (.inl h)
      rw [AttributeSeparators.escape_cons_of_plain hb, cons_append,
        parseAttributesLoop_plain hescape hattr, ih, append_assoc]
      rfl

theorem parseAttributesLoop_pairText (hkv : seps.keyValue ≠ '\\') (hne : seps.attr ≠ seps.keyValue)
    (ht : AttributeTable) (found : Bytes) (pair : Bytes × Bytes) (rest : Bytes) :
    parseAttributesLoop spec seps ignoreUnknown ht found (seps.pairText pair ++ rest) =
      parseAttributesLoop spec seps ignoreUnknown ht (found ++ seps.pairText pair) rest := by
  rw [AttributeSeparators.pairText, append_assoc, parseAttributesLoop_escape,
    cons_append, parseAttributesLoop_plain hkv hne.symm, parseAttributesLoop_escape]
  simp

theorem endAttribute_unknown (hkv : seps.keyValue ≠ '\\')
    (hfind : findSpec spec ht (cutName seps.keyValue pair).1 = none) (more rest : Bytes) :
    endAttribute spec seps ignoreUnknown ht (seps.pairText pair ++ more) rest =
      if ignoreUnknown then .ok (ht, .keep)
      else .error (.unknownAttribute (cutName seps.keyValue pair).1) := by
  obtain ⟨head, tail, htext, hread⟩ := seps.pairText_cut hkv pair
  obtain ⟨hsep, -, -⟩ := hread more
  obtain ⟨-, hname, -⟩ := hread (more ++ rest)
  rw [← append_assoc] at hname
  have hne : head ++ seps.keyValue :: tail ++ more ≠ [] := by simp
  rw [htext, endAttribute, if_neg hne, hsep]
  simp only [bind, Except.bind, hname, hfind]

theorem endAttribute_alone (hkv : seps.keyValue ≠ '\\')
    (hfind : findSpec spec ht (cutName seps.keyValue pair).1 = none) (rest : Bytes) :
    endAttribute spec seps ignoreUnknown ht (seps.pairText pair) rest =
      if ignoreUnknown then .ok (ht, .keep)
      else .error (.unknownAttribute (cutName seps.keyValue pair).1) := by
  simpa using endAttribute_unknown hkv hfind [] rest

theorem endAttribute_known (hkv : seps.keyValue ≠ '\\') {s : VariantAttributeSpec}
    (hfind : findSpec spec ht (cutName seps.keyValue pair).1 = some s) (hvalue : s.noValue = false)
    (rest : Bytes) :
    endAttribute spec seps ignoreUnknown ht (seps.pairText pair) rest =
      (parseValue s (cutName seps.keyValue pair).2).map fun variant =>
        (ht ++ [(s.name, variant)], .restart) := by
  obtain ⟨head, tail, htext, hread⟩ := seps.pairText_cut hkv pair
  obtain ⟨hsep, -, -⟩ := hread []
  obtain ⟨-, hname, hval⟩ := hread rest
  have hne : head ++ seps.keyValue :: tail ≠ [] := by simp
  have hlength : (head ++ seps.keyValue :: tail).length - (head.length + 1) = tail.length := by
    simp
    omega
  have hat : (head ++ seps.keyValue :: tail ++ rest)[head.length]? = some seps.keyValue := by simp
  have hdrop : (head ++ seps.keyValue :: tail ++ rest).drop (head.length + 1) = tail ++ rest := by
    simp [append_assoc]
  have hbefore : head.length ≠ (head ++ seps.keyValue :: tail).length := by simp
  rw [append_nil] at hsep
  rw [htext, endAttribute, if_neg hne, hsep]
  simp only [bind, Except.bind, hname, hfind, hvalue, hat, hdrop, hlength, hval, hbefore,
    Bool.false_eq_true, if_false, ne_eq, not_true]
  cases parseValue s (cutName seps.keyValue pair).2 <;> rfl

theorem parseAttributesLoop_separators (hattr : seps.attr ≠ '\\') (ht : AttributeTable) (n : ℕ)
    (rest : Bytes) :
    parseAttributesLoop spec seps ignoreUnknown ht [] (List.replicate n seps.attr ++ rest) =
      parseAttributesLoop spec seps ignoreUnknown ht [] rest := by
  induction n with
  | zero => rfl
  | succ n ih =>
    rw [replicate_succ, cons_append, ← ih]
    rw [parseAttributesLoop.eq_def]
    simp [hattr, endAttribute]

theorem parseAttributesLoop_keep (hkv : seps.keyValue ≠ '\\') (hattr : seps.attr ≠ '\\')
    (hfind : findSpec spec ht (cutName seps.keyValue pair).1 = none) (n : ℕ) (more rest : Bytes) :
    parseAttributesLoop spec seps true ht (seps.pairText pair ++ more)
        (List.replicate n seps.attr ++ rest) =
      parseAttributesLoop spec seps true ht
        (seps.pairText pair ++ (more ++ List.replicate n seps.attr)) rest := by
  induction n generalizing more with
  | zero => simp
  | succ n ih =>
    have hend : endAttribute spec seps true ht (seps.pairText pair ++ more)
        (seps.attr :: (List.replicate n seps.attr ++ rest)) = .ok (ht, .keep) :=
      endAttribute_unknown hkv hfind more _
    rw [replicate_succ, cons_append, parseAttributesLoop.eq_def]
    simp only [hattr, if_false, if_true, hend]
    rw [append_assoc, ih]
    simp

theorem parseAttributesLoop_hidden (hkv : seps.keyValue ≠ '\\') (hattr : seps.attr ≠ '\\')
    (hne : seps.attr ≠ seps.keyValue)
    (hfind : findSpec spec ht (cutName seps.keyValue pair).1 = none)
    (htext : seps.JoinedPairs pairs text) (more : Bytes) :
    parseAttributesLoop spec seps true ht (seps.pairText pair ++ more) text = .ok ht := by
  have hend (more : Bytes) :
      parseAttributesLoop spec seps true ht (seps.pairText pair ++ more) [] = .ok ht := by
    rw [parseAttributesLoop, endAttribute_unknown hkv hfind]
    rfl
  induction htext generalizing more with
  | nil => exact hend more
  | single next =>
    rw [← append_nil (seps.pairText next), parseAttributesLoop_pairText hkv hne,
      append_assoc]
    exact hend _
  | cons next n _ ih =>
    rw [parseAttributesLoop_pairText hkv hne, append_assoc,
      parseAttributesLoop_keep hkv hattr hfind]
    exact ih _

theorem parseAttributesLoop_joined (hvalue : ∀ s ∈ spec, s.noValue = false)
    (hne : seps.attr ≠ seps.keyValue) (htext : seps.JoinedPairs pairs text)
    (hseps : seps.NoEscape pairs) (ht : AttributeTable) :
    parseAttributesLoop spec seps ignoreUnknown ht [] text =
      readPairs spec ignoreUnknown ht (pairs.map (cutName seps.keyValue)) := by
  induction htext generalizing ht with
  | nil => rfl
  | single pair =>
    have hkv := hseps.keyValue (cons_ne_nil _ _)
    rw [← append_nil (seps.pairText pair), parseAttributesLoop_pairText hkv hne,
      nil_append, parseAttributesLoop, map_singleton, readPairs]
    cases hfind : findSpec spec ht (cutName seps.keyValue pair).1 with
    | none =>
      rw [endAttribute_alone hkv hfind]
      cases ignoreUnknown <;> rfl
    | some s =>
      rw [endAttribute_known hkv hfind (hvalue s (mem_of_find?_eq_some hfind))]
      dsimp only
      cases parseValue s (cutName seps.keyValue pair).2 <;> rfl
  | cons pair n htext ih =>
    have hkv := hseps.keyValue (cons_ne_nil _ _)
    have hattr := hseps.attr (by simp)
    rw [parseAttributesLoop_pairText hkv hne, nil_append, map_cons, readPairs,
      replicate_succ, cons_append, parseAttributesLoop.eq_def]
    simp only [hattr, if_false, if_true]
    cases hfind : findSpec spec ht (cutName seps.keyValue pair).1 with
    | none =>
      rw [endAttribute_alone hkv hfind]
      cases ignoreUnknown with
      | false => rfl
      | true =>
        have hkeep := parseAttributesLoop_keep hkv hattr hfind n [seps.attr]
        simp only [if_true, hkeep]
        exact parseAttributesLoop_hidden hkv hattr hne hfind htext _
    | some s =>
      rw [endAttribute_known hkv hfind (hvalue s (mem_of_find?_eq_some hfind))]
      dsimp only
      cases hread : parseValue s (cutName seps.keyValue pair).2 with
      | error e => rfl
      | ok variant =>
        simp only [Except.map, parseAttributesLoop_separators hattr]
        exact ih ⟨fun _ => hkv, fun _ => hattr⟩ _

end Scan

/-! ## Known pairs -/

def specOf (spec : List VariantAttributeSpec) (name : Bytes) : Option VariantAttributeSpec :=
  spec.find? fun s => s.name = name

/-- A name that the specification has. -/
def IsKnown (spec : List VariantAttributeSpec) (name : Bytes) : Prop := (specOf spec name).isSome

instance (spec : List VariantAttributeSpec) : DecidablePred (IsKnown spec) :=
  fun name => inferInstanceAs (Decidable ((specOf spec name).isSome))

/-- Pairs with distinct names. The values of those that are known are valid. -/
structure AttributePairs (spec : List VariantAttributeSpec) where
  pairs : List (Bytes × Bytes)
  distinct : (pairs.map Prod.fst).Nodup
  valid : ∀ pair ∈ pairs, ∀ s ∈ specOf spec pair.1,
    ∃ variant ≠ .null, parseValue s pair.2 = .ok variant

/-- The value of a known pair. -/
def knownEntry (spec : List VariantAttributeSpec) (pair : Bytes × Bytes) :
    Option (Bytes × AttributeVariant) :=
  (specOf spec pair.1).bind fun s =>
    match parseValue s pair.2 with
    | .error _ => none
    | .ok variant => some (pair.1, variant)

def knownTable (spec : List VariantAttributeSpec) (pairs : List (Bytes × Bytes)) :
    AttributeTable :=
  pairs.filterMap (knownEntry spec)

/-- The known pairs are read, and only they are. Where unknown ones are not ignored, there must be
none of them. -/
structure KeepsKnown (spec : List VariantAttributeSpec) (seps : AttributeSeparators)
    (pairs : List (Bytes × Bytes)) (text : Bytes) : Prop where
  ignoring : ∃ ht, parseVariantAttributes spec seps true text = .ok ht ∧
    ht.Perm (knownTable spec pairs)
  strict : (∀ pair ∈ pairs, IsKnown spec pair.1) →
    ∃ ht, parseVariantAttributes spec seps false text = .ok ht ∧ ht.Perm (knownTable spec pairs)
  failing : (¬ ∀ pair ∈ pairs, IsKnown spec pair.1) →
    ∃ e, parseVariantAttributes spec seps false text = .error e

/-- No known pair comes behind an unknown one. -/
def KnownFirst (spec : List VariantAttributeSpec) (pairs : List (Bytes × Bytes)) : Prop :=
  pairs.Pairwise fun pair next => IsKnown spec next.1 → IsKnown spec pair.1

instance (spec : List VariantAttributeSpec) (pairs : List (Bytes × Bytes)) :
    Decidable (KnownFirst spec pairs) :=
  inferInstanceAs (Decidable (pairs.Pairwise _))

/-- The pairs that are read: those before the first that is unknown, or known for the second
time. -/
def readableFrom (spec : List VariantAttributeSpec) (seen : List Bytes) :
    List (Bytes × Bytes) → List (Bytes × Bytes)
  | [] => []
  | pair :: pairs =>
    if IsKnown spec pair.1 ∧ pair.1 ∉ seen then
      pair :: readableFrom spec (seen ++ [pair.1]) pairs
    else []

/-- With their names cut, the pairs that are read have values that are valid and are the known
pairs, and they are all pairs exactly if all are known. -/
structure CutKnown (spec : List VariantAttributeSpec) (keyValue : UInt8)
    (pairs : List (Bytes × Bytes)) : Prop where
  valid : ∀ pair ∈ readableFrom spec [] (pairs.map (cutName keyValue)),
    ∃ entry, knownEntry spec pair = some entry
  table : (knownTable spec (readableFrom spec [] (pairs.map (cutName keyValue)))).Perm
    (knownTable spec pairs)
  all : readableFrom spec [] (pairs.map (cutName keyValue)) = pairs.map (cutName keyValue) ↔
    ∀ pair ∈ pairs, IsKnown spec pair.1

/-- A name that is cut is unknown, and so is what is left of it. -/
def CutUnknown (spec : List VariantAttributeSpec) (keyValue : UInt8)
    (pairs : List (Bytes × Bytes)) : Prop :=
  ∀ pair ∈ pairs, keyValue ∈ pair.1 →
    ¬ IsKnown spec pair.1 ∧ ¬ IsKnown spec (cutName keyValue pair).1

instance (spec : List VariantAttributeSpec) (keyValue : UInt8) (pairs : List (Bytes × Bytes)) :
    Decidable (CutUnknown spec keyValue pairs) :=
  inferInstanceAs (Decidable (∀ pair ∈ pairs, _))

variable {ht' : AttributeTable}

section Known

variable {spec : List VariantAttributeSpec} {seps : AttributeSeparators} {ignoreUnknown : Bool}
  {known rest : List (Bytes × Bytes)}

theorem findSpec_eq (hvalue : ∀ s ∈ spec, s.noValue = false) (ht : AttributeTable) (name : Bytes) :
    findSpec spec ht name = if ht.contains name then none else specOf spec name := by
  have hcongr : findSpec spec ht name =
      spec.find? fun s => !ht.contains name && decide (s.name = name) := by
    apply List.find?_congr
    intro s hs
    by_cases hname : s.name = name
    · simp [hname]
    · simp [hname, hvalue s hs]
  rw [hcongr, specOf]
  cases ht.contains name <;> simp

theorem knownTable_append (pairs rest : List (Bytes × Bytes)) :
    knownTable spec (pairs ++ rest) = knownTable spec pairs ++ knownTable spec rest :=
  filterMap_append

theorem knownTable_eq_nil (h : ∀ pair ∈ pairs, ¬ IsKnown spec pair.1)
    : knownTable spec pairs = [] := by
  apply filterMap_eq_nil_iff.mpr
  intro pair hpair
  have hnone : specOf spec pair.1 = none := by simpa [IsKnown] using h pair hpair
  rw [knownEntry, hnone]
  rfl

/-- A pair that the specification reads. -/
def ReadsAs (spec : List VariantAttributeSpec) (pair : Bytes × Bytes)
    (variant : AttributeVariant) : Prop :=
  ∃ s, specOf spec pair.1 = some s ∧ parseValue s pair.2 = .ok variant

theorem AttributePairs.readsAs (attributes : AttributePairs spec) (hpair : pair ∈ attributes.pairs)
    (hknown : IsKnown spec pair.1) : ∃ variant, ReadsAs spec pair variant := by
  obtain ⟨s, hs⟩ := Option.isSome_iff_exists.mp hknown
  obtain ⟨variant, -, hvariant⟩ := attributes.valid pair hpair s hs
  exact ⟨variant, s, hs, hvariant⟩

theorem ReadsAs.knownEntry {variant : AttributeVariant} (h : ReadsAs spec pair variant)
    : knownEntry spec pair = some (pair.1, variant) := by
  obtain ⟨s, hs, hvariant⟩ := h
  simp [NetworkManager.Settings.knownEntry, hs, hvariant]

theorem readPairs_of_unread (hvalue : ∀ s ∈ spec, s.noValue = false)
    (h : ¬ (IsKnown spec pair.1 ∧ pair.1 ∉ ht.map Prod.fst)) (pairs : List (Bytes × Bytes)) :
    readPairs spec ignoreUnknown ht (pair :: pairs) =
      if ignoreUnknown then .ok ht else .error (.unknownAttribute pair.1) := by
  have hfind : findSpec spec ht pair.1 = none := by
    rw [findSpec_eq hvalue]
    split_ifs with hcontains
    · rfl
    · rw [not_and_not_right] at h
      refine Option.not_isSome_iff_eq_none.mp fun hknown => hcontains ?_
      exact decide_eq_true (h hknown)
  rw [readPairs, hfind]

/-- What is read of pairs whose names are not cut. -/
theorem readPairs_eq_ok_iff (hvalue : ∀ s ∈ spec, s.noValue = false) :
    readPairs spec ignoreUnknown ht pairs = .ok ht' ↔
      (∀ pair ∈ readableFrom spec (ht.map Prod.fst) pairs,
          ∃ entry, knownEntry spec pair = some entry) ∧
        (ignoreUnknown = true ∨ readableFrom spec (ht.map Prod.fst) pairs = pairs) ∧
        ht ++ knownTable spec (readableFrom spec (ht.map Prod.fst) pairs) = ht' := by
  induction pairs generalizing ht with
  | nil => simp [readPairs, readableFrom, knownTable]
  | cons pair pairs ih =>
    rw [readableFrom]
    split_ifs with hread
    · obtain ⟨s, hs⟩ := Option.isSome_iff_exists.mp hread.1
      have hname : s.name = pair.1 := by simpa using List.find?_some hs
      have hfind : findSpec spec ht pair.1 = some s := by
        rw [findSpec_eq hvalue, AttributeTable.contains, decide_eq_false hread.2]
        exact hs
      cases hvariant : parseValue s pair.2 with
      | error e =>
        have hnone : knownEntry spec pair = none := by simp [knownEntry, hs, hvariant]
        simp [readPairs, hfind, hvariant, hnone]
      | ok variant =>
        have hentry : knownEntry spec pair = some (pair.1, variant) := by
          simp [knownEntry, hs, hvariant]
        simp [readPairs, hfind, hvariant, hname, ih, hentry, knownTable]
    · rw [readPairs_of_unread hvalue hread]
      cases ignoreUnknown <;> simp [knownTable]

theorem exists_known_append (pairs : List (Bytes × Bytes)) :
    ∃ known rest, pairs = known ++ rest ∧ (∀ pair ∈ known, IsKnown spec pair.1) ∧
      ∀ pair ∈ rest.head?, ¬ IsKnown spec pair.1 := by
  refine ⟨pairs.takeWhile fun pair => IsKnown spec pair.1,
    pairs.dropWhile fun pair => IsKnown spec pair.1, takeWhile_append_dropWhile.symm, ?_, ?_⟩
  · intro pair hpair
    simpa using mem_takeWhile_imp hpair
  · intro pair hpair
    have hhead := List.head?_dropWhile_not (fun pair => decide (IsKnown spec pair.1)) pairs
    simp only [Option.mem_def.mp hpair] at hhead
    simpa using hhead

theorem knownFirst_append_iff (hknown : ∀ pair ∈ known, IsKnown spec pair.1)
    (hrest : ∀ pair ∈ rest.head?, ¬ IsKnown spec pair.1) :
    KnownFirst spec (known ++ rest) ↔ ∀ pair ∈ rest, ¬ IsKnown spec pair.1 := by
  rw [KnownFirst, pairwise_append]
  constructor
  · rintro ⟨-, hpairwise, -⟩
    cases rest with
    | nil => simp
    | cons first rest =>
      have hfirst := hrest first rfl
      intro pair hpair
      rcases mem_cons.mp hpair with rfl | hpair
      · exact hfirst
      · exact fun h => hfirst ((pairwise_cons.mp hpairwise).1 pair hpair h)
  · intro hunknown
    refine ⟨?_, ?_, ?_⟩
    · exact pairwise_of_forall_mem_list fun pair hpair _ _ _ => hknown pair hpair
    · exact pairwise_of_forall_mem_list fun _ _ next hnext h =>
        absurd h (hunknown next hnext)
    · exact fun pair hpair _ _ _ => hknown pair hpair

theorem knownTable_eq_nil_iff (attributes : AttributePairs spec)
    (hpairs : ∀ pair ∈ pairs, pair ∈ attributes.pairs) :
    knownTable spec pairs = [] ↔ ∀ pair ∈ pairs, ¬ IsKnown spec pair.1 := by
  constructor
  · intro hnil pair hpair hknown
    obtain ⟨variant, hread⟩ := attributes.readsAs (hpairs pair hpair) hknown
    have hnone := filterMap_eq_nil_iff.mp hnil pair hpair
    rw [hread.knownEntry] at hnone
    cases hnone
  · exact knownTable_eq_nil

theorem keepsKnown_iff (hvalue : ∀ s ∈ spec, s.noValue = false) (hne : seps.attr ≠ seps.keyValue)
    (hseps : seps.NoEscape pairs) (htext : seps.JoinedPairs pairs text) :
    KeepsKnown spec seps pairs text ↔ CutKnown spec seps.keyValue pairs := by
  have hparse (ignoreUnknown : Bool) (ht : AttributeTable) :
      parseVariantAttributes spec seps ignoreUnknown text = .ok ht ↔
        (∀ pair ∈ readableFrom spec [] (pairs.map (cutName seps.keyValue)),
            ∃ entry, knownEntry spec pair = some entry) ∧
          (ignoreUnknown = true ∨ readableFrom spec [] (pairs.map (cutName seps.keyValue)) =
            pairs.map (cutName seps.keyValue)) ∧
          knownTable spec (readableFrom spec [] (pairs.map (cutName seps.keyValue))) = ht := by
    rw [parseVariantAttributes, parseAttributesLoop_joined hvalue hne htext hseps]
    exact readPairs_eq_ok_iff hvalue
  constructor
  · rintro ⟨⟨ht, hok, hperm⟩, hstrict, hfailing⟩
    obtain ⟨hvalid, -, rfl⟩ := (hparse true ht).mp hok
    refine ⟨hvalid, hperm, fun hall => ?_, fun hknown => ?_⟩
    · by_contra hunknown
      obtain ⟨e, he⟩ := hfailing hunknown
      cases he.symm.trans ((hparse false _).mpr ⟨hvalid, .inr hall, rfl⟩)
    · obtain ⟨ht, hok, -⟩ := hstrict hknown
      exact ((hparse false ht).mp hok).2.1.resolve_left Bool.false_ne_true
  · rintro ⟨hvalid, hperm, hall⟩
    refine ⟨⟨_, (hparse true _).mpr ⟨hvalid, .inl rfl, rfl⟩, hperm⟩, fun hknown => ?_,
      fun hunknown => ?_⟩
    · exact ⟨_, (hparse false _).mpr ⟨hvalid, .inr (hall.mpr hknown), rfl⟩, hperm⟩
    · cases hok : parseVariantAttributes spec seps false text with
      | error e => exact ⟨e, rfl⟩
      | ok ht =>
        have hread := ((hparse false ht).mp hok).2.1.resolve_left Bool.false_ne_true
        exact absurd (hall.mp hread) hunknown

/-! ## Names that are not cut -/

theorem readableFrom_append {keyValue : UInt8} (hknown : ∀ pair ∈ known, IsKnown spec pair.1)
    (hwhole : ∀ pair ∈ known, keyValue ∉ pair.1)
    (hrest : ∀ pair ∈ rest.head?, ¬ IsKnown spec (cutName keyValue pair).1) {seen : List Bytes}
    (hnodup : (seen ++ known.map Prod.fst).Nodup) :
    readableFrom spec seen ((known ++ rest).map (cutName keyValue)) = known := by
  induction known generalizing seen with
  | nil =>
    cases rest with
    | nil => rfl
    | cons pair rest => exact if_neg fun h => hrest pair rfl h.1
  | cons pair known ih =>
    have hfresh : pair.1 ∉ seen := fun hmem =>
      (nodup_append.mp hnodup).2.2 _ hmem _ mem_cons_self rfl
    have hnodup' : ((seen ++ [pair.1]) ++ known.map Prod.fst).Nodup := by simpa using hnodup
    have htail := ih (fun p hp => hknown p (mem_cons_of_mem pair hp))
      (fun p hp => hwhole p (mem_cons_of_mem pair hp)) hnodup'
    rw [cons_append, map_cons, cutName_of_notMem (hwhole pair mem_cons_self),
      readableFrom, if_pos ⟨hknown pair mem_cons_self, hfresh⟩, htail]

/-- Where no cut name is taken for a known one, the order decides. -/
theorem cutKnown_iff_knownFirst (attributes : AttributePairs spec) {keyValue : UInt8}
    (hcut : CutUnknown spec keyValue attributes.pairs) :
    CutKnown spec keyValue attributes.pairs ↔ KnownFirst spec attributes.pairs := by
  obtain ⟨known, rest, hpairs, hknown, hrest⟩ := @exists_known_append spec attributes.pairs
  have hmem : ∀ pair ∈ known, pair ∈ attributes.pairs := by
    rw [hpairs]
    exact fun pair hpair => mem_append_left _ hpair
  have hmem' : ∀ pair ∈ rest, pair ∈ attributes.pairs := by
    rw [hpairs]
    exact fun pair hpair => mem_append_right _ hpair
  have hwhole : ∀ pair ∈ known, keyValue ∉ pair.1 :=
    fun pair hpair h => (hcut pair (hmem pair hpair) h).1 (hknown pair hpair)
  have hunread : ∀ pair ∈ rest.head?, ¬ IsKnown spec (cutName keyValue pair).1 := by
    intro pair hpair
    by_cases hin : keyValue ∈ pair.1
    · exact (hcut pair (hmem' pair (mem_of_mem_head? hpair)) hin).2
    · rw [cutName_of_notMem hin]
      exact hrest pair hpair
  have hdistinct := attributes.distinct
  rw [hpairs, map_append] at hdistinct
  have hnodup : ([] ++ known.map Prod.fst).Nodup := (nodup_append.mp hdistinct).1
  have hread := readableFrom_append hknown hwhole hunread hnodup
  have hall : (∀ pair ∈ known ++ rest, IsKnown spec pair.1) ↔ rest = [] := by
    constructor
    · intro hall
      cases rest with
      | nil => rfl
      | cons first rest => exact absurd (hall first (by simp)) (hrest first rfl)
    · rintro rfl
      simpa using hknown
  rw [hpairs, knownFirst_append_iff hknown hrest, ← knownTable_eq_nil_iff attributes hmem']
  constructor
  · intro h
    have hlength := h.table.length_eq
    rw [hread, knownTable_append, length_append] at hlength
    exact eq_nil_of_length_eq_zero (by omega)
  · intro hnil
    refine ⟨?_, ?_, ?_⟩
    · rw [hread]
      intro pair hpair
      obtain ⟨variant, hvariant⟩ := attributes.readsAs (hmem pair hpair) (hknown pair hpair)
      exact ⟨_, hvariant.knownEntry⟩
    · rw [hread, knownTable_append, hnil, append_nil]
    · rw [hread, hall]
      constructor
      · intro h
        have hlength := congrArg List.length h
        simp only [length_map, length_append] at hlength
        exact eq_nil_of_length_eq_zero (by omega)
      · rintro rfl
        rw [append_nil]
        conv_lhs => rw [← map_id known]
        exact map_congr_left fun pair hpair => (cutName_of_notMem (hwhole pair hpair)).symm

end Known

/-! ## Separators that escape -/

section Escape

variable {spec : List VariantAttributeSpec} {seps : AttributeSeparators} {ignoreUnknown : Bool}
  {found : Bytes}

/-- With a backslash as the separator, the name ends at an escaped one. -/
theorem attributeUnescape_findKeyValueSeparator {sep : ℕ}
    (h : findKeyValueSeparator '\\' found = .ok sep) (rest : Bytes) :
    sep = found.length ∨
      (attributeUnescape sep (found ++ rest)).getLast? = some ('\\' : UInt8) := by
  have hskip {n k : ℕ} {s : Bytes} (b : UInt8)
      (hs : n = s.length ∨ (attributeUnescape n (s ++ rest)).getLast? = some ('\\' : UInt8)) :
      n + k = s.length + k ∨
        (b :: attributeUnescape n (s ++ rest)).getLast? = some ('\\' : UInt8) := by
    refine hs.imp (congrArg (· + k)) fun hs => ?_
    rw [List.getLast?_cons, hs]
    rfl
  have hmap {f : ℕ → ℕ} {m : Except AttributeError ℕ} {k : ℕ} (hm : m.map f = .ok k) :
      ∃ n, m = .ok n ∧ f n = k := by
    cases m with
    | error e => cases hm
    | ok n => exact ⟨n, rfl, Except.ok.inj hm⟩
  fun_induction findKeyValueSeparator '\\' found generalizing sep with
  | case1 =>
    cases h
    exact .inl rfl
  | case2 => cases h
  | case3 s =>
    cases h
    exact .inr (by simp [attributeUnescape])
  | case4 c s hc ih =>
    obtain ⟨n, hn, rfl⟩ := hmap h
    exact hskip c (ih hn)
  | case5 s hs =>
    exact absurd rfl hs
  | case6 b s hb _ ih =>
    obtain ⟨n, hn, rfl⟩ := hmap h
    rw [cons_append, attributeUnescape_plain hb]
    exact hskip b (ih hn)

theorem endAttribute_ok (hvalue : ∀ s ∈ spec, s.noValue = false) {rest : Bytes}
    {scan : AttributeScan}
    (h : endAttribute spec seps ignoreUnknown ht found rest = .ok (ht', scan)) :
    ht' = ht ∨ ∃ entry, ht' = ht ++ [entry] ∧
      (seps.keyValue = '\\' → entry.1.getLast? = some ('\\' : UInt8)) := by
  by_cases hnil : found = []
  · rw [endAttribute, if_pos hnil] at h
    cases h
    exact .inl rfl
  rw [endAttribute, if_neg hnil] at h
  obtain ⟨sep, hsep, h⟩ := bind_ok_iff.mp h
  cases hfind : findSpec spec ht (attributeUnescape sep (found ++ rest)) with
  | none =>
    simp only [hfind] at h
    split_ifs at h
    cases h
    exact .inl rfl
  | some s =>
    have hno := hvalue s (mem_of_find?_eq_some hfind)
    have hname : s.name = attributeUnescape sep (found ++ rest) := by
      have hmem := List.find?_some hfind
      simp only [hno, Bool.false_and, Bool.or_false, Bool.and_eq_true, decide_eq_true_eq] at hmem
      exact hmem.2
    simp only [hfind, hno, Bool.false_eq_true, if_false] at h
    split_ifs at h with hmissing hsame
    · cases h
      exact .inl rfl
    · obtain ⟨variant, -, h⟩ := bind_ok_iff.mp h
      cases h
      refine .inr ⟨(s.name, variant), rfl, fun hkv => ?_⟩
      rw [hkv] at hsep
      rw [hname]
      exact (attributeUnescape_findKeyValueSeparator hsep rest).resolve_left hsame

/-- With a backslash as the key-value separator, only names that end with it are read. With one
between the attributes, all of them are one. -/
theorem parseAttributesLoop_ok (hvalue : ∀ s ∈ spec, s.noValue = false)
    (h : parseAttributesLoop spec seps ignoreUnknown ht found text = .ok ht') :
    ∃ entries, ht' = ht ++ entries ∧
      (seps.keyValue = '\\' → ∀ entry ∈ entries, entry.1.getLast? = some ('\\' : UInt8)) ∧
      (seps.attr = '\\' → entries.length ≤ 1) := by
  have hend {ht₁ ht₂ : AttributeTable} {found rest : Bytes} {scan : AttributeScan}
      (h : endAttribute spec seps ignoreUnknown ht₁ found rest = .ok (ht₂, scan)) :
      ∃ entries, ht₂ = ht₁ ++ entries ∧ entries.length ≤ 1 ∧
        (seps.keyValue = '\\' → ∀ entry ∈ entries, entry.1.getLast? = some ('\\' : UInt8)) := by
    rcases endAttribute_ok hvalue h with rfl | ⟨entry, rfl, hlast⟩
    · exact ⟨[], by simp⟩
    · exact ⟨[entry], rfl, Nat.le_refl 1, fun hkv => by simpa using hlast hkv⟩
  fun_induction parseAttributesLoop spec seps ignoreUnknown ht found text with
  | case1 ht found =>
    cases hfound : endAttribute spec seps ignoreUnknown ht found [] with
    | error e =>
      rw [hfound] at h
      cases h
    | ok r =>
      rw [hfound] at h
      cases h
      obtain ⟨entries, hr, hone, hlast⟩ := hend hfound
      exact ⟨entries, hr, hlast, fun _ => hone⟩
  | case2 => cases h
  | case3 ht found c rest ih => exact ih h
  | case4 ht found rest e he => cases h
  | case5 ht found rest ht₁ hb hfound ih
  | case6 ht found rest ht₁ hb hfound ih =>
    obtain ⟨entries, rfl, -, hlast⟩ := hend hfound
    obtain ⟨more, rfl, hmore, -⟩ := ih h
    refine ⟨entries ++ more, append_assoc .., fun hkv entry hentry => ?_,
      fun hattr => absurd hattr hb⟩
    exact (mem_append.mp hentry).elim (hlast hkv entry) (hmore hkv entry)
  | case7 ht found rest ht₁ hb hfound =>
    cases h
    obtain ⟨entries, rfl, hone, hlast⟩ := hend hfound
    exact ⟨entries, rfl, hlast, fun _ => hone⟩
  | case8 ht found b rest hb hne ih => exact ih h

/-- Known pairs that are lost with a backslash as a separator. -/
theorem not_keepsKnown (hvalue : ∀ s ∈ spec, s.noValue = false) (attributes : AttributePairs spec)
    (text : Bytes)
    (h : seps.keyValue = '\\' ∧ (∃ pair ∈ attributes.pairs, IsKnown spec pair.1 ∧
        pair.1.getLast? ≠ some ('\\' : UInt8)) ∨
      seps.attr = '\\' ∧ 2 ≤ (knownTable spec attributes.pairs).length) :
    ¬ KeepsKnown spec seps attributes.pairs text := by
  rintro ⟨⟨ht, hok, hperm⟩, -, -⟩
  obtain ⟨entries, rfl, hlast, hone⟩ := parseAttributesLoop_ok hvalue hok
  rcases h with ⟨hkv, pair, hpair, hknown, hend⟩ | ⟨hattr, htwo⟩
  · obtain ⟨variant, hread⟩ := attributes.readsAs hpair hknown
    have hmem : (pair.1, variant) ∈ knownTable spec attributes.pairs :=
      mem_filterMap.mpr ⟨pair, hpair, hread.knownEntry⟩
    exact hend (hlast hkv _ (hperm.mem_iff.mpr hmem))
  · have hlength := hperm.length_eq
    have hle := hone hattr
    omega

end Escape

/-! ## Formatted attributes -/

/-- Attributes of supported types that the specification has with their types. -/
structure KnownAttributes (spec : List VariantAttributeSpec) where
  entries : AttributeTable
  distinct : (entries.map Prod.fst).Nodup
  typed : ∀ entry ∈ entries, ∃ s ∈ specOf spec entry.1, s.type = entry.2.type
  supported : ∀ entry ∈ entries, entry.2.text.isSome

/-- What is formatted is read as the same attributes, and only without attributes there is
nothing to read. -/
def ReadsBack (formatSpec : Option (List VariantAttributeSpec)) (spec : List VariantAttributeSpec)
    (seps : AttributeSeparators) (entries : AttributeTable) : Prop :=
  match formatVariantAttributes formatSpec seps (some entries) with
  | none => entries = []
  | some text => ∀ ignoreUnknown, ∃ ht,
    parseVariantAttributes spec seps ignoreUnknown text = .ok ht ∧ ht.Perm entries

section Formatted

variable {spec : List VariantAttributeSpec} {seps : AttributeSeparators}
  {formatSpec : Option (List VariantAttributeSpec)} {entry : Bytes × AttributeVariant}

/-- The text of a value is read as the value. -/
theorem parseValue_text {s : VariantAttributeSpec} (hvalue : s.noValue = false)
    {variant : AttributeVariant} (htype : s.type = variant.type) {value : Bytes}
    (htext : variant.text = some value) : parseValue s value = .ok variant := by
  cases variant with
  | uint32 v =>
    cases htext
    have hread := asciiStrToInt64_formatUnsigned (.inr rfl) (by decide : (2 ^ 32 - 1 : ℤ) < 2 ^ 63)
      (by have := v.toNat_lt; omega : (v.toNat : ℤ) ≤ 2 ^ 32 - 1)
    simp only [parseValue, htype, AttributeVariant.type, hread, Option.map_some]
    simp
  | int32 v =>
    cases htext
    have hlow := v.le_toInt
    have hhigh := v.toInt_lt
    have hread : asciiStrToInt64 (formatSigned v.toInt) 10 (-2 ^ 31) (2 ^ 31 - 1) = some v.toInt :=
      asciiStrToInt64_formatSigned (by omega) (by omega) (by omega) (by omega)
    simp only [parseValue, htype, AttributeVariant.type, hread, Option.map_some]
    simp
  | uint64 v =>
    cases htext
    have hlt := v.toNat_lt
    have hread : asciiStrToUint64 (formatUnsigned v.toNat) 10 0 (2 ^ 64 - 1) = some v.toNat :=
      asciiStrToUint64_formatUnsigned hlt (by omega)
    simp only [parseValue, htype, AttributeVariant.type, hread, Option.map_some]
    simp
  | byte v =>
    cases htext
    have hread := asciiStrToInt64_formatUnsigned (.inr rfl) (by decide : (2 ^ 8 - 1 : ℤ) < 2 ^ 63)
      (by have := v.toNat_lt; omega : (v.toNat : ℤ) ≤ 2 ^ 8 - 1)
    simp only [parseValue, htype, AttributeVariant.type, hread, Option.map_some]
    simp
  | boolean v =>
    cases htext
    have hread : ∀ v : Bool,
        Core.asciiStrToBool (some (if v then ascii "true" else ascii "false")) = some v := by
      decide
    simp [parseValue, htype, AttributeVariant.type, hvalue, hread]
  | string v utf8 =>
    cases htext
    simp [parseValue, htype, AttributeVariant.type, utf8]
  | bytestring v =>
    cases htext
    simp [parseValue, htype, AttributeVariant.type]
  | other signature => cases htext
  | null => cases htext

theorem joinedPairs_intercalate (pairs : List (Bytes × Bytes)) :
    seps.JoinedPairs pairs ([seps.attr].intercalate (pairs.map seps.pairText)) := by
  induction pairs with
  | nil => exact .nil
  | cons pair pairs ih =>
    cases pairs with
    | nil =>
      rw [map_singleton, intercalate_singleton]
      exact .single pair
    | cons next pairs =>
      rw [map_cons, map_cons, intercalate_cons_cons, append_assoc]
      exact .cons pair 0 ih

def entryPair (entry : Bytes × AttributeVariant) : Bytes × Bytes :=
  (entry.1, entry.2.text.getD [])

theorem formatAttribute_eq (hvalue : ∀ s ∈ spec, s.noValue = false)
    (hformat : formatSpec = none ∨ formatSpec = some spec) (hknown : IsKnown spec entry.1)
    (htext : entry.2.text.isSome) :
    formatAttribute formatSpec seps entry = some (seps.pairText (entryPair entry)) := by
  obtain ⟨value, hvalue'⟩ := Option.isSome_iff_exists.mp htext
  obtain ⟨s, hs⟩ := Option.isSome_iff_exists.mp hknown
  have hno : s.noValue = false := hvalue s (mem_of_find?_eq_some hs)
  rw [specOf] at hs
  rcases hformat with rfl | rfl
  · simp [formatAttribute, hvalue', entryPair, AttributeSeparators.pairText,
      AttributeSeparators.escape]
  · simp [formatAttribute, hvalue', hs, hno, entryPair, AttributeSeparators.pairText,
      AttributeSeparators.escape]

namespace KnownAttributes

variable (attributes : KnownAttributes spec)

def sorted : AttributeTable := namedValuesFromStrdict attributes.entries

theorem sorted_perm : attributes.sorted.Perm attributes.entries := mergeSort_perm _ _

theorem readsAs (hvalue : ∀ s ∈ spec, s.noValue = false) (hentry : entry ∈ attributes.entries)
    : ReadsAs spec (entryPair entry) entry.2 := by
  obtain ⟨s, hs, htype⟩ := attributes.typed entry hentry
  obtain ⟨value, htext⟩ := Option.isSome_iff_exists.mp (attributes.supported entry hentry)
  refine ⟨s, hs, ?_⟩
  have hno : s.noValue = false := hvalue s (mem_of_find?_eq_some hs)
  rw [entryPair, htext]
  exact parseValue_text hno htype htext

/-- The pairs that are formatted. -/
def toPairs (hvalue : ∀ s ∈ spec, s.noValue = false) : AttributePairs spec where
  pairs := attributes.sorted.map entryPair
  distinct := by
    have hmap : (attributes.sorted.map entryPair).map Prod.fst =
        attributes.sorted.map Prod.fst := by
      rw [map_map]
      rfl
    rw [hmap]
    exact (attributes.sorted_perm.map Prod.fst).nodup_iff.mpr attributes.distinct
  valid := by
    intro pair hpair s hs
    obtain ⟨entry, hentry, rfl⟩ := mem_map.mp hpair
    obtain ⟨s', hs', hread⟩ := attributes.readsAs hvalue (attributes.sorted_perm.mem_iff.mp hentry)
    cases hs.symm.trans hs'
    have hsupported := attributes.supported entry (attributes.sorted_perm.mem_iff.mp hentry)
    refine ⟨entry.2, fun hnull => ?_, hread⟩
    rw [hnull] at hsupported
    exact absurd hsupported Bool.false_ne_true

section

variable (hvalue : ∀ s ∈ spec, s.noValue = false)

include hvalue

theorem isKnown_of_mem_toPairs :
    ∀ pair ∈ (attributes.toPairs hvalue).pairs, IsKnown spec pair.1 := by
  intro pair hpair
  obtain ⟨entry, hentry, rfl⟩ := mem_map.mp hpair
  obtain ⟨s, hs, -⟩ := attributes.typed entry (attributes.sorted_perm.mem_iff.mp hentry)
  exact Option.isSome_iff_exists.mpr ⟨s, hs⟩

theorem knownTable_toPairs :
    knownTable spec (attributes.toPairs hvalue).pairs = attributes.sorted := by
  rw [knownTable, toPairs, filterMap_map]
  have hsome : ∀ entry ∈ attributes.sorted,
      (knownEntry spec ∘ entryPair) entry = some entry := by
    intro entry hentry
    exact (attributes.readsAs hvalue (attributes.sorted_perm.mem_iff.mp hentry)).knownEntry
  rw [filterMap_congr hsome, filterMap_some]

/-- All attributes are read back exactly if they are the same with their names cut. -/
theorem readsBack_iff (hne : seps.attr ≠ seps.keyValue) (hseps : seps.NoEscape attributes.entries)
    (hformat : formatSpec = none ∨ formatSpec = some spec) :
    ReadsBack formatSpec spec seps attributes.entries ↔
      CutKnown spec seps.keyValue (attributes.toPairs hvalue).pairs := by
  have hmem : ∀ entry ∈ attributes.sorted, entry ∈ attributes.entries :=
    fun entry hentry => attributes.sorted_perm.mem_iff.mp hentry
  have hknown := attributes.isKnown_of_mem_toPairs hvalue
  have htexts : attributes.sorted.filterMap (formatAttribute formatSpec seps) =
      (attributes.toPairs hvalue).pairs.map seps.pairText := by
    rw [toPairs, map_map, ← filterMap_eq_map]
    apply filterMap_congr
    intro entry hentry
    exact formatAttribute_eq hvalue hformat (hknown _ (mem_map_of_mem hentry))
      (attributes.supported entry (hmem entry hentry))
  have hlength : (attributes.toPairs hvalue).pairs.length = attributes.entries.length := by
    rw [toPairs, length_map, attributes.sorted_perm.length_eq]
  have hseps' : seps.NoEscape (attributes.toPairs hvalue).pairs := by
    refine ⟨fun h => hseps.keyValue ?_, fun h => hseps.attr (hlength ▸ h)⟩
    rw [← length_pos_iff] at h ⊢
    exact hlength ▸ h
  rw [← keepsKnown_iff hvalue hne hseps' (joinedPairs_intercalate _)]
  have hsorted : namedValuesFromStrdict attributes.entries = attributes.sorted := rfl
  simp only [ReadsBack, formatVariantAttributes, hsorted]
  by_cases hnil : attributes.sorted = []
  · have hentries := attributes.sorted_perm
    have hpairs : (attributes.toPairs hvalue).pairs = [] := by simp [toPairs, hnil]
    rw [hnil] at hentries
    simp only [hnil, if_true, hpairs]
    exact iff_of_true hentries.symm.eq_nil
      ⟨⟨[], rfl, .refl _⟩, fun _ => ⟨[], rfl, .refl _⟩, fun h => absurd (by simp) h⟩
  · simp only [if_neg hnil, formatVariantAttributesFull, htexts]
    have hperm {ht : AttributeTable} : ht.Perm attributes.entries ↔
        ht.Perm (knownTable spec (attributes.toPairs hvalue).pairs) := by
      rw [attributes.knownTable_toPairs]
      exact attributes.sorted_perm.congr_right ht |>.symm
    simp only [hperm]
    constructor
    · exact fun h => ⟨h true, fun _ => h false, fun hunknown => absurd hknown hunknown⟩
    · intro h ignoreUnknown
      cases ignoreUnknown with
      | true => exact h.ignoring
      | false => exact h.strict hknown

theorem cutKnown {keyValue : UInt8} (hwhole : ∀ entry ∈ attributes.entries, keyValue ∉ entry.1) :
    CutKnown spec keyValue (attributes.toPairs hvalue).pairs := by
  refine (cutKnown_iff_knownFirst _ fun pair hpair hcut => ?_).mpr ?_
  · obtain ⟨entry, hentry, rfl⟩ := mem_map.mp hpair
    exact absurd hcut (hwhole entry (attributes.sorted_perm.mem_iff.mp hentry))
  · exact pairwise_of_forall_mem_list fun pair hpair _ _ _ =>
      attributes.isKnown_of_mem_toPairs hvalue pair hpair

end

end KnownAttributes

end Formatted

/-- Where no separator in the text is a backslash, the known pairs are kept exactly when the pairs
that are read with their names cut are the known ones. If no name with a separator in it is taken
for a known one, then that is when no known pair comes behind an unknown one. With a backslash as a
separator in the text, known pairs are lost. What is formatted is read back. -/
theorem keepsKnown_iff_knownFirst {spec : List VariantAttributeSpec} {seps : AttributeSeparators}
    (hvalue : ∀ s ∈ spec, s.noValue = false) (hne : seps.attr ≠ seps.keyValue) :
    (∀ (attributes : AttributePairs spec) (text : Bytes),
      seps.JoinedPairs attributes.pairs text → seps.NoEscape attributes.pairs →
        (KeepsKnown spec seps attributes.pairs text ↔
          CutKnown spec seps.keyValue attributes.pairs) ∧
        (CutUnknown spec seps.keyValue attributes.pairs →
          (KeepsKnown spec seps attributes.pairs text ↔ KnownFirst spec attributes.pairs))) ∧
    (∀ (attributes : AttributePairs spec) (text : Bytes),
      seps.keyValue = '\\' ∧ (∃ pair ∈ attributes.pairs, IsKnown spec pair.1 ∧
          pair.1.getLast? ≠ some ('\\' : UInt8)) ∨
        seps.attr = '\\' ∧ 2 ≤ (knownTable spec attributes.pairs).length →
          ¬ KeepsKnown spec seps attributes.pairs text) ∧
    ∀ (attributes : KnownAttributes spec), seps.NoEscape attributes.entries →
      (∀ formatSpec ∈ [none, some spec], ReadsBack formatSpec spec seps attributes.entries ↔
        CutKnown spec seps.keyValue (attributes.toPairs hvalue).pairs) ∧
      ((∀ entry ∈ attributes.entries, seps.keyValue ∉ entry.1) →
        ReadsBack none spec seps attributes.entries ∧
          ReadsBack (some spec) spec seps attributes.entries) := by
  refine ⟨fun attributes text htext hseps => ?_, not_keepsKnown hvalue,
    fun attributes hseps => ?_⟩
  · have hkept := keepsKnown_iff hvalue hne hseps htext
    exact ⟨hkept, fun hcut => hkept.trans (cutKnown_iff_knownFirst attributes hcut)⟩
  · refine ⟨fun formatSpec hformat => attributes.readsBack_iff hvalue hne hseps ?_,
      fun hwhole => ⟨?_, ?_⟩⟩
    · simpa using hformat
    · exact (attributes.readsBack_iff hvalue hne hseps (.inl rfl)).mpr
        (attributes.cutKnown hvalue hwhole)
    · exact (attributes.readsBack_iff hvalue hne hseps (.inr rfl)).mpr
        (attributes.cutKnown hvalue hwhole)

def mtuSpec : List VariantAttributeSpec := [⟨ascii "mtu", .uint32, false, false⟩]

def commaSeparators : AttributeSeparators := ⟨',', '=', by decide, by decide⟩

theorem mtuSpec_valid (pair : Bytes × Bytes)
    (hpair : pair = (ascii "mtu", ascii "5") ∨ pair = (ascii "unknown", ascii "x")) :
    ∀ s ∈ specOf mtuSpec pair.1, ∃ variant ≠ .null, parseValue s pair.2 = .ok variant := by
  intro s hs
  rcases hpair with rfl | rfl
  · cases hs
    exact ⟨.uint32 5, by decide, by decide +kernel⟩
  · cases hs

def mtuThenUnknown : AttributePairs mtuSpec where
  pairs := [(ascii "mtu", ascii "5"), (ascii "unknown", ascii "x")]
  distinct := by decide
  valid pair hpair := mtuSpec_valid pair (by simpa using hpair)

def unknownThenMtu : AttributePairs mtuSpec where
  pairs := [(ascii "unknown", ascii "x"), (ascii "mtu", ascii "5")]
  distinct := by decide
  valid pair hpair := mtuSpec_valid pair (by simpa using Or.symm (mem_pair.mp hpair))

theorem keepsKnown_mtuThenUnknown :
    KeepsKnown mtuSpec commaSeparators mtuThenUnknown.pairs (ascii "mtu=5,,unknown=x") :=
  (((keepsKnown_iff_knownFirst (by decide) (by decide)).1 mtuThenUnknown _
    (.cons _ 1 (.single _)) ⟨fun _ => by decide, fun _ => by decide⟩).2 (by decide)).mpr (by decide)

theorem unknownThenMtu_not_kept :
    ¬ ∀ (spec : List VariantAttributeSpec) (seps : AttributeSeparators)
        (attributes : AttributePairs spec) (text : Bytes),
      (∀ s ∈ spec, s.noValue = false) → seps.attr ≠ seps.keyValue →
        seps.JoinedPairs attributes.pairs text → KeepsKnown spec seps attributes.pairs text := by
  intro h
  have hkept := h mtuSpec commaSeparators unknownThenMtu (ascii "unknown=x,mtu=5") (by decide)
    (by decide) (.cons _ 0 (.single _))
  obtain ⟨ht, hok, hperm⟩ := hkept.ignoring
  have hempty : parseVariantAttributes mtuSpec commaSeparators true (ascii "unknown=x,mtu=5") =
      .ok [] := by
    decide +kernel
  cases hempty.symm.trans hok
  exact absurd hperm.length_eq (by decide)

end NetworkManager.Settings
