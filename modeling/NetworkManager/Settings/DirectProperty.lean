import NetworkManager.Settings.RoutingRule

/-!
# Direct properties

A property of a setting is direct if its value is a field of the private data of the setting,
which is read and written according to the type of the property alone. A setting is the list of
its properties in the order in which they are sorted, each with its value.
-/

namespace NetworkManager.Settings

open Lib

/-! ## Types of properties -/

structure GEnumClass where
  values : List Int32
  minimum : Int32
  maximum : Int32

/-- `g_enum_get_value()` finds a value. -/
def GEnumClass.HasValue (c : GEnumClass) (v : Int32) : Prop := v ∈ c.values

instance (c : GEnumClass) (v : Int32) : Decidable (c.HasValue v) :=
  inferInstanceAs (Decidable (v ∈ c.values))

/-- `GParamSpecInt` and the other specifications of a number, of which GLib accepts only those
whose default is in range. -/
structure GParamSpecNum (α : Type) [LE α] where
  minimum : α
  maximum : α
  defaultValue : α
  minimum_le : minimum ≤ defaultValue
  le_maximum : defaultValue ≤ maximum

/-- The specification of a property with the values of an enum: `GParamSpecInt` over all numbers,
or `GParamSpecEnum`, which has a value of the enum as default. -/
inductive GParamSpecForEnum (c : GEnumClass)
  | int (defaultValue : Int32)
  | realEnum (defaultValue : Int32) (hdefault : c.HasValue defaultValue)

/-- `GParamSpecFlags`, of which the default has no bit outside of the mask. -/
structure GParamSpecFlags where
  mask : UInt32
  defaultValue : UInt32
  and_mask : defaultValue &&& mask = defaultValue

/-- What a string is turned into when it is set, by `direct_data.set_string` or one of the fields
`direct_set_string_*`. What such a function has set stays when it is set again. Without a family,
an IP address is of either. -/
inductive DirectSetString
  | asIs
  | setString (f : Option Bytes → Option Bytes) (hset : ∀ s, f (f s) = f s)
  | asciiStrdown
  | strip
  | macAddress (len : ℕ)
  | ipAddress (family : Option AddrFamily) (mapZeroToNull : Bool)

/-- `NMValueType`, as far as a property can have it, with what else there is in its
`NMSettInfoProperty` and `GParamSpec`. The property type "mac-address" is a string too. -/
inductive NMValueType
  | none
  | bool (defaultValue : Bool)
  | int32 (spec : GParamSpecNum Int32)
  | uint32 (spec : GParamSpecNum UInt32)
  | int64 (spec : GParamSpecNum Int64)
  | uint64 (spec : GParamSpecNum UInt64)
  | enum (enumClass : GEnumClass) (spec : GParamSpecForEnum enumClass)
  | flags (spec : GParamSpecFlags)
  | string (allowEmpty : Bool) (set : DirectSetString)
  | macAddress (allowEmpty : Bool) (len : ℕ)
  | bytes
  | strv (preserveEmpty : Bool)

/-- The field of the private data. -/
@[reducible] def NMValueType.Value : NMValueType → Type
  | .none => Unit
  | .bool _ => Bool
  | .int32 _ => Int32
  | .uint32 _ => UInt32
  | .int64 _ => Int64
  | .uint64 _ => UInt64
  | .enum _ _ => Int32
  | .flags _ => UInt32
  | .string _ _ => Option Bytes
  | .macAddress _ _ => Option Bytes
  | .bytes => Option Bytes
  | .strv _ => Option (List Bytes)

structure NMSettInfoProperty where
  name : Bytes
  directType : NMValueType
  toDbusIncludingDefault : Bool := false

/-- A property with the value that it has in a setting. -/
structure DirectField where
  propertyInfo : NMSettInfoProperty
  value : propertyInfo.directType.Value

end NetworkManager.Settings
