import NetworkManager.GlibAux.AsciiStrToUint64
import NetworkManager.Core.ConfigKeyfile
import NetworkManager.Settings.RoutingRule

/-!
# Attributes of a text

`nm_utils_parse_variant_attributes()` finds the attributes of a text with one scan, and looks for
the separator between name and value with a second one over what it scanned. Both skip what is
escaped, each in its own way. `_nm_utils_format_variant_attributes()` writes such a text.
-/

namespace NetworkManager.Settings

open Lib GlibAux

/-- The types that attributes can have, or another one with its signature. -/
inductive AttributeType
  | uint32
  | int32
  | uint64
  | byte
  | boolean
  | string
  | bytestring
  | other (signature : Bytes)
  deriving DecidableEq

/-- The value of an attribute, of one of these types, or the `NULL` that
`g_variant_new_take_string()` returns for a text that is not UTF-8. -/
inductive AttributeVariant
  | uint32 (v : UInt32)
  | int32 (v : Int32)
  | uint64 (v : UInt64)
  | byte (v : UInt8)
  | boolean (v : Bool)
  | string (v : Bytes) (utf8 : isUtf8 v)
  | bytestring (v : Bytes)
  | other (signature : Bytes)
  | null
  deriving DecidableEq

def AttributeVariant.type : AttributeVariant → AttributeType
  | uint32 _ => .uint32
  | int32 _ => .int32
  | uint64 _ => .uint64
  | byte _ => .byte
  | boolean _ => .boolean
  | string _ _ => .string
  | bytestring _ => .bytestring
  | other signature => .other signature
  | null => .other []

/-- `NMVariantAttributeSpec`, as far as texts depend on it. -/
structure VariantAttributeSpec where
  name : Bytes
  type : AttributeType
  noValue : Bool
  consumesRest : Bool
  deriving DecidableEq

/-- The two separators of a text; no NUL byte is accepted as one. -/
structure AttributeSeparators where
  attr : UInt8
  keyValue : UInt8
  attr_ne_zero : attr ≠ 0
  keyValue_ne_zero : keyValue ≠ 0

/-- The table of attributes, in the order in which they are inserted. -/
abbrev AttributeTable := List (Bytes × AttributeVariant)

def AttributeTable.contains (ht : AttributeTable) (name : Bytes) : Bool :=
  name ∈ ht.map Prod.fst

/-- The errors of the parser, which all are `NM_CONNECTION_ERROR_FAILED`. -/
inductive AttributeError
  | unterminatedEscape
  | unknownAttribute (name : Bytes)
  | missingSeparator (separator : UInt8) (name : Bytes)
  | invalidValue (typename value name : Bytes)
  | unsupportedAttribute (name signature : Bytes)
  deriving DecidableEq

/-! ## Parsing -/

/-- `attribute_unescape()` of `n` bytes. A backslash that is the last of them takes one more. -/
def attributeUnescape : ℕ → Bytes → Bytes
  | 0, _ => []
  | _ + 1, [] => []
  | n + 1, b :: s =>
    if b = '\\' then
      match s with
      | [] => []
      | c :: s => c :: attributeUnescape (n - 1) s
    else b :: attributeUnescape n s

/-- The search for the key-value separator: how many bytes are before it, or all of them. An
escaped byte is skipped unless it is the separator, where the search ends too. -/
def findKeyValueSeparator (keyValue : UInt8) : Bytes → Except AttributeError ℕ
  | [] => .ok 0
  | b :: s =>
    if b = '\\' then
      match s with
      | [] => .error .unterminatedEscape
      | c :: s =>
        if c = keyValue then .ok 1 else (findKeyValueSeparator keyValue s).map (· + 2)
    else if b = keyValue then .ok 0
    else (findKeyValueSeparator keyValue s).map (· + 1)

def findSpec (spec : List VariantAttributeSpec) (ht : AttributeTable) (name : Bytes) :
    Option VariantAttributeSpec :=
  spec.find? fun s => !ht.contains s.name && (s.name = name || s.noValue && s.type = .string)

/-- The conversion of a value to its type. -/
def parseValue (s : VariantAttributeSpec) (value : Bytes) :
    Except AttributeError AttributeVariant :=
  let number (typename : String) (num : Option AttributeVariant) :=
    match num with
    | none => .error (.invalidValue (ascii typename) value s.name)
    | some variant => .ok variant
  match s.type with
  | .uint32 =>
    number "uint32" ((asciiStrToInt64 value 10 0 (2 ^ 32 - 1)).map fun num =>
      .uint32 (UInt32.ofNat num.toNat))
  | .int32 =>
    number "int32" ((asciiStrToInt64 value 10 (-2 ^ 31) (2 ^ 31 - 1)).map fun num =>
      .int32 (Int32.ofInt num))
  | .uint64 =>
    number "uint64" ((asciiStrToUint64 value 10 0 (2 ^ 64 - 1)).map fun num =>
      .uint64 (UInt64.ofNat num))
  | .byte =>
    number "uint8" ((asciiStrToInt64 value 10 0 (2 ^ 8 - 1)).map fun num =>
      .byte (UInt8.ofNat num.toNat))
  | .boolean =>
    number "boolean" ((if s.noValue then some true else Core.asciiStrToBool (some value)).map
      AttributeVariant.boolean)
  | .string => .ok (if h : isUtf8 value then .string value h else .null)
  | .bytestring => .ok (.bytestring value)
  | .other signature => .error (.unsupportedAttribute s.name signature)

/-- Where the scan goes on after the end of an attribute: with `start` reset, with `start` as it
is, or nowhere because the rest of the text is consumed. -/
inductive AttributeScan
  | restart
  | keep
  | consumed
  deriving DecidableEq

section Parse

variable (spec : List VariantAttributeSpec) (seps : AttributeSeparators) (ignoreUnknown : Bool)

/-- What is done at a separator, or at the end of the text: `found` is what is between `start` and
`ptr`, and `rest` is the text from `ptr` on. -/
def endAttribute (ht : AttributeTable) (found rest : Bytes) :
    Except AttributeError (AttributeTable × AttributeScan) :=
  -- multiple separators
  if found = [] then .ok (ht, .restart)
  else do
    let sep ← findKeyValueSeparator seps.keyValue found
    let name := attributeUnescape sep (found ++ rest)
    match findSpec spec ht name with
    | none => if ignoreUnknown then .ok (ht, .keep) else .error (.unknownAttribute name)
    | some s =>
      if s.noValue then
        if s.consumesRest then do
          let variant ← parseValue s (found ++ rest)
          .ok (ht ++ [(s.name, variant)], .consumed)
        else do
          let variant ← parseValue s name
          .ok (ht ++ [(s.name, variant)], .restart)
      else if (found ++ rest)[sep]? ≠ some seps.keyValue then
        .error (.missingSeparator seps.keyValue name)
      -- the attribute and key/value separators are the same
      else if sep = found.length then .ok (ht, .keep)
      else do
        let value := attributeUnescape (found.length - (sep + 1)) ((found ++ rest).drop (sep + 1))
        let variant ← parseValue s value
        .ok (ht ++ [(s.name, variant)], .restart)

/-- The loop over the text, where `found` is what is between `start` and `ptr`. -/
def parseAttributesLoop (ht : AttributeTable) (found : Bytes) :
    Bytes → Except AttributeError AttributeTable
  | [] => (endAttribute spec seps ignoreUnknown ht found []).map Prod.fst
  | b :: rest =>
    if b = '\\' then
      match rest with
      | [] => .error .unterminatedEscape
      | c :: rest => parseAttributesLoop ht (found ++ [b, c]) rest
    else if b = seps.attr then
      match endAttribute spec seps ignoreUnknown ht found (b :: rest) with
      | .error e => .error e
      | .ok (ht, .restart) => parseAttributesLoop ht [] rest
      | .ok (ht, .keep) => parseAttributesLoop ht (found ++ [b]) rest
      | .ok (ht, .consumed) => .ok ht
    else parseAttributesLoop ht (found ++ [b]) rest

def parseVariantAttributes (text : Bytes) : Except AttributeError AttributeTable :=
  parseAttributesLoop spec seps ignoreUnknown [] [] text

end Parse

/-! ## Formatting -/

def attributeEscape (src : Bytes) (c1 c2 : UInt8) : Bytes :=
  src.flatMap fun b => if b = c1 ∨ b = c2 ∨ b = '\\' then ['\\', b] else [b]

/-- The text of a value, unless its type is none that has a text. -/
def AttributeVariant.text : AttributeVariant → Option Bytes
  | uint32 v => some (formatUnsigned v.toNat)
  | int32 v => some (formatSigned v.toInt)
  | uint64 v => some (formatUnsigned v.toNat)
  | byte v => some (formatUnsigned v.toNat)
  | boolean v => some (if v then ascii "true" else ascii "false")
  | string v _ => some v
  | bytestring v => some v
  | other _ => none
  | null => none

section Format

variable (spec : Option (List VariantAttributeSpec)) (seps : AttributeSeparators)

/-- An attribute with its name and its value. One that the specification does not have is left
out, and one that needs no value has none. -/
def formatAttribute (entry : Bytes × AttributeVariant) : Option Bytes :=
  let (name, variant) := entry
  let escape (s : Bytes) := attributeEscape s seps.attr seps.keyValue
  match spec, spec.bind fun spec => spec.find? fun s => s.name = name with
  | some _, none => none
  | _, s =>
    variant.text.map fun value =>
      escape name ++ if s.any (·.noValue) then [] else seps.keyValue :: escape value

/-- `_nm_utils_format_variant_attributes_full()`: what is appended to the string. -/
def formatVariantAttributesFull (values : AttributeTable) : Bytes :=
  [seps.attr].intercalate (values.filterMap (formatAttribute spec seps))

def namedValuesFromStrdict (ht : AttributeTable) : AttributeTable :=
  ht.mergeSort fun a b => strcmp a.1 b.1 ≠ .gt

def formatVariantAttributes (attributes : Option AttributeTable) : Option Bytes :=
  match attributes with
  | none => none
  | some attributes =>
    let values := namedValuesFromStrdict attributes
    if values = [] then none else some (formatVariantAttributesFull spec seps values)

end Format

end NetworkManager.Settings
