import NetworkManager.Settings.DirectProperty
import NetworkManager.GlibAux.AsciiStrToInt64

/-!
# Validation of the properties of a setting

After its own validation, every setting has the values of its direct properties checked: enums by
the values that the enum has, strings for being empty.
-/

namespace NetworkManager.Settings

open Lib GlibAux

/-! ## The program -/

inductive NMSettingVerifyResult
  | success
  | error
  | normalizable
  | normalizableError
  deriving DecidableEq

/-- `NMSettingClass` with the virtual function "verify", which a class need not have. -/
structure NMSettingClass where
  settingName : Bytes
  verify : Option (List DirectField → NMSettingVerifyResult × Option Bytes)

/-- How the loop over the properties goes on after one of them. -/
inductive VerifyStep
  | next
  | returnTrue
  | returnFalse (message : Bytes)
  deriving DecidableEq

/-- One round of the loop: only an enum and a string are looked at, and an enum returns either
way. -/
def verifyProperty : (t : NMValueType) → t.Value → VerifyStep
  | .enum c _, v =>
    if c.HasValue v then .returnTrue
    else
      .returnFalse (ascii "invalid value " ++ formatSigned v.toInt ++ ascii ", expected " ++
        formatSigned c.minimum.toInt ++ ascii "-" ++ formatSigned c.maximum.toInt)
  | .string allowEmpty _, v | .macAddress allowEmpty _, v =>
    if allowEmpty = false ∧ v = some [] then .returnFalse (ascii "cannot be empty") else .next
  | _, _ => .next

def propertyError (klass : NMSettingClass) (info : NMSettInfoProperty) (message : Bytes) : Bytes :=
  klass.settingName ++ ascii "." ++ info.name ++ ascii ": " ++ message

def verifyProperties (klass : NMSettingClass) : List DirectField → Except Bytes Unit
  | [] => .ok ()
  | f :: fields =>
    match verifyProperty f.propertyInfo.directType f.value with
    | .next => verifyProperties klass fields
    | .returnTrue => .ok ()
    | .returnFalse message => .error (propertyError klass f.propertyInfo message)

def settingVerify (klass : NMSettingClass) (setting : List DirectField) :
    NMSettingVerifyResult × Option Bytes :=
  match klass.verify with
  | none => (.success, none)
  | some verify =>
    let r := verify setting
    if r.1 ≠ .error then
      match verifyProperties klass setting with
      | .ok () => r
      | .error message => (.error, some message)
    else r

/-! ## What is validated -/

/-- What the validation asks of an enum or a string, wherever it is. -/
def NMValueType.Good : (t : NMValueType) → t.Value → Prop
  | .enum c _, v => c.HasValue v
  | .string allowEmpty _, v | .macAddress allowEmpty _, v => allowEmpty = true ∨ v ≠ some []
  | _, _ => True

instance : (t : NMValueType) → (v : t.Value) → Decidable (t.Good v)
  | .enum c _, v => inferInstanceAs (Decidable (c.HasValue v))
  | .string allowEmpty _, v => inferInstanceAs (Decidable (allowEmpty = true ∨ v ≠ some []))
  | .macAddress allowEmpty _, v => inferInstanceAs (Decidable (allowEmpty = true ∨ v ≠ some []))
  | .none, _ | .bool _, _ | .int32 _, _ | .uint32 _, _ | .int64 _, _ | .uint64 _, _ | .flags _, _
  | .bytes, _ | .strv _, _ => isTrue trivial

def NMValueType.isEnum : NMValueType → Bool
  | .enum _ _ => true
  | _ => false

def DirectField.Good (f : DirectField) : Prop := f.propertyInfo.directType.Good f.value

instance (f : DirectField) : Decidable f.Good :=
  inferInstanceAs (Decidable (f.propertyInfo.directType.Good f.value))

def examined : List DirectField → List DirectField
  | [] => []
  | f :: fields => if f.propertyInfo.directType.isEnum then [f] else f :: examined fields

def unexamined : List DirectField → List DirectField
  | [] => []
  | f :: fields => if f.propertyInfo.directType.isEnum then fields else unexamined fields

theorem examined_append_unexamined (fields : List DirectField) :
    examined fields ++ unexamined fields = fields := by
  induction fields with
  | nil => rfl
  | cons f fields ih =>
    by_cases h : f.propertyInfo.directType.isEnum <;> simp [examined, unexamined, h, ih]

theorem verifyProperty_spec (t : NMValueType) (v : t.Value) :
    (t.Good v ∧ verifyProperty t v = if t.isEnum then .returnTrue else .next) ∨
      (¬ t.Good v ∧ ∃ message, verifyProperty t v = .returnFalse message) := by
  cases t with
  | enum c spec =>
    by_cases h : c.HasValue v <;> simp [NMValueType.Good, verifyProperty, NMValueType.isEnum, h]
  | string allowEmpty set =>
    by_cases h : allowEmpty = false ∧ v = some []
    · simp [NMValueType.Good, verifyProperty, h]
    · simp only [NMValueType.Good, verifyProperty, h, NMValueType.isEnum]
      grind
  | macAddress allowEmpty len =>
    by_cases h : allowEmpty = false ∧ v = some []
    · simp [NMValueType.Good, verifyProperty, h]
    · simp only [NMValueType.Good, verifyProperty, h, NMValueType.isEnum]
      grind
  | _ => simp [NMValueType.Good, verifyProperty, NMValueType.isEnum]

theorem verifyProperties_ok_iff (klass : NMSettingClass) (fields : List DirectField) :
    verifyProperties klass fields = .ok () ↔ ∀ f ∈ examined fields, f.Good := by
  induction fields with
  | nil => simp [verifyProperties, examined]
  | cons f fields ih =>
    rcases verifyProperty_spec f.propertyInfo.directType f.value with ⟨hgood, heq⟩ | ⟨hbad, m, heq⟩
    · have hgood : f.Good := hgood
      by_cases h : f.propertyInfo.directType.isEnum <;>
        simp [verifyProperties, examined, heq, h, ih, hgood]
    · have hbad : ¬ f.Good := hbad
      by_cases h : f.propertyInfo.directType.isEnum <;>
        simp [verifyProperties, examined, heq, h, hbad]

theorem settingVerify_ne_error_iff (klass : NMSettingClass) (setting : List DirectField) :
    (settingVerify klass setting).1 ≠ .error ↔
      ∀ verify ∈ klass.verify, (verify setting).1 ≠ .error ∧ ∀ f ∈ examined setting, f.Good := by
  rw [settingVerify]
  cases klass.verify with
  | none => simp
  | some verify =>
    by_cases hr : (verify setting).1 = .error
    · simp [hr]
    · cases hp : verifyProperties klass setting with
      | ok u =>
        have hall := (verifyProperties_ok_iff klass setting).mp hp
        simpa [hr] using hall
      | error e =>
        have hnot : ¬ ∀ f ∈ examined setting, f.Good := by
          rw [← verifyProperties_ok_iff klass setting, hp]
          simp
        simpa [hr] using hnot

def overlooked (klass : NMSettingClass) (setting : List DirectField) : List DirectField :=
  if klass.verify.isSome then unexamined setting else setting

/-- What is accepted has good values only exactly if the overlooked ones are good, or another of
the checks rejects the setting anyway. -/
theorem settingVerify_covers_iff (klass : NMSettingClass) (setting : List DirectField) :
    ((settingVerify klass setting).1 ≠ .error → ∀ f ∈ setting, f.Good) ↔
      (∀ f ∈ overlooked klass setting, f.Good) ∨
        ∃ verify ∈ klass.verify, (verify setting).1 = .error ∨ ∃ f ∈ examined setting, ¬ f.Good := by
  have hsplit : (∀ f ∈ setting, f.Good) ↔
      (∀ f ∈ examined setting, f.Good) ∧ ∀ f ∈ unexamined setting, f.Good := by
    conv_lhs => rw [← examined_append_unexamined setting]
    exact List.forall_mem_append
  rw [settingVerify_ne_error_iff]
  cases hv : klass.verify with
  | none => simp [overlooked, hv]
  | some verify =>
    simp only [overlooked, hv, hsplit, Option.mem_some, Option.isSome_some, if_true]
    grind

/-! ## A setting that is accepted -/

/-- `NMTernary` and `NMSriovEswitchMode` -/
def threeValues : GEnumClass := ⟨[-1, 0, 1], -1, 1⟩

/-- `NMSettingSriov`, of which the own validation only looks at the VFs. -/
def sriovClass : NMSettingClass := ⟨ascii "sriov", some fun _ => (.success, none)⟩

def sriovSetting (autoprobeDrivers eswitchMode : Int32) : List DirectField :=
  [⟨⟨ascii "autoprobe-drivers", .enum threeValues (.realEnum (-1) (by decide)), false⟩,
      autoprobeDrivers⟩,
    ⟨⟨ascii "eswitch-mode", .enum threeValues (.int (-1)), false⟩, eswitchMode⟩]

/-- The mode sorts behind "autoprobe-drivers", so that the loop never gets to it. -/
theorem settingVerify_accepts_bad_eswitch_mode :
    ¬ ∀ klass setting, (settingVerify klass setting).1 ≠ .error → ∀ f ∈ setting, f.Good := by
  intro h
  have hbad := h sriovClass (sriovSetting (-1) 77) (by decide)
  exact absurd hbad (by decide)

end NetworkManager.Settings
