import NetworkManager.Settings.RoutingRule
import NetworkManager.Lib.Keyed
import Mathlib.Data.List.Sort

/-!
# The options of a setting

A setting that supports options has them in a hash table, with two lists that are built when they
are asked for: the sorted names, and the values in that order. Changing the options has to drop
these lists. Setting an equal value replaces the instance without dropping the list of values.
-/

namespace NetworkManager.Settings

open Lib

/-- The type and value of a variant; that of a type other than the two is in `α`. -/
inductive VariantContent (α : Type*)
  | boolean (value : Bool)
  | uint32 (value : UInt32)
  | other (value : α)
  deriving DecidableEq

/-- A variant with the identity of its instance. -/
structure VariantInstance (α : Type*) where
  id : ℕ
  content : VariantContent α
  deriving DecidableEq

variable {α : Type*}

/-- `GenData`; the hash table has every name once. -/
structure GenData (α : Type*) where
  hash : List (Bytes × VariantInstance α)
  unique : KeyUnique Prod.fst hash
  names : Option (List Bytes) := none
  values : Option (List (Option (VariantInstance α))) := none

namespace GenData

def empty : GenData α := ⟨[], List.nodup_nil, none, none⟩

variable (g : GenData α)

/-- `g_hash_table_lookup()` -/
def find (optname : Bytes) : Option (VariantInstance α) :=
  (lookup Prod.fst optname g.hash).map Prod.snd

def insert (optname : Bytes) (variant : VariantInstance α) : GenData α :=
  { g with hash := put Prod.fst (optname, variant) g.hash, unique := g.unique.put }

def removeIf (predicate : Bytes → Bool) : GenData α :=
  { g with hash := g.hash.filter fun o => !predicate o.1, unique := g.unique.filter _ }

def notify (namesChanged : Bool) : GenData α :=
  { g with values := none, names := if namesChanged then none else g.names }

/-- `nm_strdict_get_keys()`, sorted. -/
def sortedKeys : List Bytes := (g.hash.map Prod.fst).mergeSort fun a b => (strcmp a b).isLE

/-- The mutators replace the value always, and notify if `same` does not hold of the old one. -/
def set (same : VariantContent α → Bool) (optname : Bytes) (variant : VariantInstance α) :
    GenData α :=
  let oldVariant := g.find optname
  let changedName := oldVariant.isNone
  let changedValue := changedName || !oldVariant.any fun old => same old.content
  if changedValue then (g.insert optname variant).notify changedName else g.insert optname variant

end GenData

/-- `NMSettingPrivate`, as far as it is about options. -/
structure OptionSetting (α : Type*) where
  gendata : Option (GenData α) := none

namespace OptionSetting

variable (setting : OptionSetting α)

/-- `_gendata_hash()` with `create_if_necessary`. -/
def gendataHash : GenData α := setting.gendata.getD .empty

def optionSet [DecidableEq α] (optname : Bytes) : Option (VariantInstance α) → OptionSetting α
  | none =>
    match setting.gendata with
    | none => setting
    | some g =>
      if (g.find optname).isSome then ⟨some ((g.removeIf (· = optname)).notify true)⟩ else setting
  | some variant => ⟨some (setting.gendataHash.set (· = variant.content) optname variant)⟩

/-- `nm_setting_option_set_boolean()`, of which the new variant is the instance `id`. -/
def optionSetBoolean (optname : Bytes) (value : Bool) (id : ℕ) : OptionSetting α :=
  let same : VariantContent α → Bool
    | .boolean old => old = value
    | _ => false
  ⟨some (setting.gendataHash.set same optname ⟨id, .boolean value⟩)⟩

/-- `nm_setting_option_set_uint32()`, of which the new variant is the instance `id`. -/
def optionSetUint32 (optname : Bytes) (value : UInt32) (id : ℕ) : OptionSetting α :=
  let same : VariantContent α → Bool
    | .uint32 old => old = value
    | _ => false
  ⟨some (setting.gendataHash.set same optname ⟨id, .uint32 value⟩)⟩

def optionClearByName (predicate : Option (Bytes → Bool)) : OptionSetting α :=
  match setting.gendata with
  | none => setting
  | some g =>
    let predicate := predicate.getD fun _ => true
    if g.hash.any (predicate ·.1) then ⟨some ((g.removeIf predicate).notify true)⟩ else setting

def optionGetAll (wantNames wantValues : Bool) :
    OptionSetting α × ℕ × Option (List Bytes) × Option (List (Option (VariantInstance α))) :=
  match setting.gendata with
  | none => (setting, 0, none, none)
  | some g =>
    if g.hash.length = 0 then (setting, 0, none, none)
    else if !wantNames && !wantValues then (setting, g.hash.length, none, none)
    else
      let names := g.names.getD g.sortedKeys
      let g := { g with names := some names }
      if wantValues then
        let values := g.values.getD (names.map g.find)
        (⟨some { g with values := some values }⟩, g.hash.length,
          if wantNames then some names else none, some values)
      else (⟨some g⟩, g.hash.length, some names, none)

end OptionSetting

/-- A call of one of the functions. -/
inductive OptionCall (α : Type*)
  | set (optname : Bytes) (variant : Option (VariantInstance α))
  | setBoolean (optname : Bytes) (value : Bool) (id : ℕ)
  | setUint32 (optname : Bytes) (value : UInt32) (id : ℕ)
  | clearByName (predicate : Option (Bytes → Bool))
  | getAll (wantNames wantValues : Bool)

namespace OptionSetting

def call [DecidableEq α] (setting : OptionSetting α) : OptionCall α → OptionSetting α
  | .set optname variant => setting.optionSet optname variant
  | .setBoolean optname value id => setting.optionSetBoolean optname value id
  | .setUint32 optname value id => setting.optionSetUint32 optname value id
  | .clearByName predicate => setting.optionClearByName predicate
  | .getAll wantNames wantValues => (setting.optionGetAll wantNames wantValues).1

end OptionSetting

/-! ## The lists -/

/-- The lists that there are have the names of the options in order, and their very values. -/
structure GenData.Fresh (g : GenData α) : Prop where
  sorted : ∀ names, g.names = some names → names.Pairwise fun a b => (strcmp a b).isLE
  keys : ∀ names, g.names = some names → names.Perm (g.hash.map Prod.fst)
  values : ∀ values, g.values = some values →
    ∃ names, g.names = some names ∧ values = names.map g.find

def OptionSetting.Fresh (setting : OptionSetting α) : Prop :=
  ∀ g, setting.gendata = some g → g.Fresh

namespace GenData

variable {g : GenData α} {optname k : Bytes} {variant : VariantInstance α}

theorem find_insert : (g.insert optname variant).find k =
    if k = optname then some variant else g.find k := by
  simp only [find, insert, lookup_put]
  split <;> rfl

theorem find_isSome_iff : (g.find k).isSome ↔ k ∈ g.hash.map Prod.fst := by
  simp [find, lookup_isSome_iff]

theorem keys_insert_perm (h : (g.find optname).isSome) :
    (g.insert optname variant).hash.map Prod.fst |>.Perm (g.hash.map Prod.fst) := by
  obtain ⟨⟨name, old⟩, hmem, rfl⟩ := List.mem_map.mp (find_isSome_iff.mp h)
  have hold := (perm_cons_eraseKey g.unique hmem).map Prod.fst
  simp only [insert, put, List.map_append, List.map_cons, List.map_nil]
  exact List.perm_append_comm.trans hold.symm

theorem sortedKeys_pairwise : g.sortedKeys.Pairwise fun a b => (strcmp a b).isLE := by
  have hord : Std.TransCmp strcmp :=
    inferInstanceAs (Std.TransCmp (compare : Bytes → Bytes → Ordering))
  apply List.pairwise_mergeSort
  · intro a b c hab hbc
    exact Std.TransCmp.isLE_trans hab hbc
  · intro a b
    cases hab : strcmp a b with
    | gt => simp [Std.OrientedCmp.lt_of_gt hab]
    | _ => rfl

theorem fresh_of_none (hvalues : g.values = none) (hnames : g.names = none) : g.Fresh :=
  ⟨by simp [hnames], by simp [hnames], by simp [hvalues]⟩

section Set

variable {same : VariantContent α → Bool} {old : VariantInstance α}

theorem set_of_none (h : g.find optname = none) :
    g.set same optname variant = (g.insert optname variant).notify true := by
  simp [set, h]

theorem set_of_changed (h : g.find optname = some old) (hchange : same old.content = false) :
    g.set same optname variant = (g.insert optname variant).notify false := by
  simp [set, h, hchange]

theorem set_of_same (h : g.find optname = some old) (hkeep : same old.content) :
    g.set same optname variant = g.insert optname variant := by
  simp [set, h, hkeep]

theorem Fresh.insert_iff (hg : g.Fresh) (hfind : g.find optname = some old) :
    (g.insert optname variant).Fresh ↔ (g.values.isSome → old = variant) := by
  have hkeys : ((g.insert optname variant).hash.map Prod.fst).Perm (g.hash.map Prod.fst) :=
    keys_insert_perm (by simp [hfind])
  constructor
  · intro hfresh hcached
    obtain ⟨values, hvalues⟩ := Option.isSome_iff_exists.mp hcached
    obtain ⟨names, hnames, hold⟩ := hg.values values hvalues
    obtain ⟨names', hnames', hnew⟩ := hfresh.values values hvalues
    obtain rfl : names = names' := Option.some.inj (hnames.symm.trans hnames')
    have hmem : optname ∈ names :=
      (hg.keys names hnames).mem_iff.mpr (find_isSome_iff.mp (by simp [hfind]))
    have hat := List.map_inj_left.mp (hold.symm.trans hnew) optname hmem
    simpa [find_insert, hfind] using hat
  · intro h
    refine ⟨hg.sorted, fun names hn => (hg.keys names hn).trans hkeys.symm, ?_⟩
    intro values hvalues
    obtain ⟨names, hnames, hold⟩ := hg.values values hvalues
    refine ⟨names, hnames, hold.trans (List.map_congr_left fun k _ => ?_)⟩
    rw [find_insert]
    split
    case isTrue hk => rw [hk, hfind, h (Option.isSome_of_eq_some hvalues)]
    case isFalse => rfl

theorem Fresh.set_iff (hg : g.Fresh) (hsame : ∀ c, same c ↔ c = variant.content) :
    (g.set same optname variant).Fresh ↔
      (g.values.isSome → ∀ old, g.find optname = some old → old.content = variant.content →
        old = variant) := by
  cases hfind : g.find optname with
  | none =>
    rw [set_of_none hfind]
    exact iff_of_true (fresh_of_none rfl rfl) (by simp)
  | some old =>
    by_cases heq : old.content = variant.content
    · rw [set_of_same hfind ((hsame _).mpr heq), hg.insert_iff hfind]
      simp [heq]
    · have hchange : same old.content = false := by
        rw [← Bool.not_eq_true, hsame]
        exact heq
      have hkeys : ((g.insert optname variant).hash.map Prod.fst).Perm (g.hash.map Prod.fst) :=
        keys_insert_perm (by simp [hfind])
      rw [set_of_changed hfind hchange]
      apply iff_of_true
      · exact ⟨hg.sorted, fun names hn => (hg.keys names hn).trans hkeys.symm, by simp [notify]⟩
      · simp [heq]

end Set

theorem Fresh.getNames (hg : g.Fresh) :
    ({ g with names := some (g.names.getD g.sortedKeys) } : GenData α).Fresh := by
  have hperm : (g.names.getD g.sortedKeys).Perm (g.hash.map Prod.fst) := by
    cases h : g.names with
    | none => exact List.mergeSort_perm _ _
    | some names => exact hg.keys names h
  have hsorted : (g.names.getD g.sortedKeys).Pairwise fun a b => (strcmp a b).isLE := by
    cases h : g.names with
    | none => exact sortedKeys_pairwise
    | some names => exact hg.sorted names h
  refine ⟨?_, ?_, ?_⟩
  · rintro names ⟨⟩
    exact hsorted
  · rintro names ⟨⟩
    exact hperm
  · intro values hvalues
    obtain ⟨names, hnames, hold⟩ := hg.values values hvalues
    exact ⟨names, by simp [hnames], hold⟩

theorem Fresh.getValues (hg : g.Fresh) {names : List Bytes} (hnames : g.names = some names) :
    ({ g with values := some (g.values.getD (names.map g.find)) } : GenData α).Fresh := by
  refine ⟨hg.sorted, hg.keys, ?_⟩
  rintro values ⟨⟩
  cases hvalues : g.values with
  | none => exact ⟨names, hnames, rfl⟩
  | some values => exact hg.values values hvalues

end GenData

namespace OptionSetting

variable [DecidableEq α] {setting : OptionSetting α}

omit [DecidableEq α] in
theorem Fresh.gendataHash (h : setting.Fresh) : setting.gendataHash.Fresh := by
  cases hg : setting.gendata with
  | none => simpa [OptionSetting.gendataHash, hg] using GenData.fresh_of_none rfl rfl
  | some g => simpa [OptionSetting.gendataHash, hg] using h g hg

omit [DecidableEq α] in
theorem fresh_some {g : GenData α} : Fresh ⟨some g⟩ ↔ g.Fresh := by
  simp [Fresh]

/-- Setting the option to this variant does not replace an equal value by another instance while
there is a list of values. -/
def KeepsInstance (setting : OptionSetting α) (optname : Bytes) (variant : VariantInstance α) :
    Prop :=
  setting.gendataHash.values.isSome → ∀ old, setting.gendataHash.find optname = some old →
    old.content = variant.content → old = variant

/-- The condition for a call. -/
def Keeps (setting : OptionSetting α) : OptionCall α → Prop
  | .set optname (some variant) => setting.KeepsInstance optname variant
  | .setBoolean optname value id => setting.KeepsInstance optname ⟨id, .boolean value⟩
  | .setUint32 optname value id => setting.KeepsInstance optname ⟨id, .uint32 value⟩
  | _ => True

omit [DecidableEq α] in
theorem Fresh.optionGetAll (h : setting.Fresh) (wantNames wantValues : Bool) :
    (setting.optionGetAll wantNames wantValues).1.Fresh := by
  unfold OptionSetting.optionGetAll
  cases hg : setting.gendata with
  | none => exact h
  | some g =>
    have hnames := (h g hg).getNames
    dsimp only
    split
    · exact h
    · split
      · exact h
      · cases wantValues with
        | false => exact fresh_some.mpr hnames
        | true => exact fresh_some.mpr (hnames.getValues rfl)

theorem Fresh.call_iff (h : setting.Fresh) (c : OptionCall α) :
    setting.Keeps c ↔ (setting.call c).Fresh := by
  have hset := fun optname variant same hsame =>
    (@GenData.Fresh.set_iff _ _ optname variant same h.gendataHash hsame).symm.trans fresh_some.symm
  cases c with
  | set optname variant =>
    cases variant with
    | some variant => exact hset optname variant _ (by simp)
    | none =>
      apply iff_of_true trivial
      unfold call optionSet
      cases hg : setting.gendata with
      | none => exact h
      | some g =>
        dsimp only
        split
        · exact fresh_some.mpr (GenData.fresh_of_none rfl rfl)
        · exact h
  | setBoolean optname value id =>
    exact hset optname ⟨id, .boolean value⟩ _ (by rintro (_ | _ | _) <;> simp)
  | setUint32 optname value id =>
    exact hset optname ⟨id, .uint32 value⟩ _ (by rintro (_ | _ | _) <;> simp)
  | clearByName predicate =>
    apply iff_of_true trivial
    unfold call optionClearByName
    cases hg : setting.gendata with
    | none => exact h
    | some g =>
      dsimp only
      split
      · exact fresh_some.mpr (GenData.fresh_of_none rfl rfl)
      · exact h
  | getAll wantNames wantValues => exact iff_of_true trivial (h.optionGetAll wantNames wantValues)

/-- In a run from a new setting, all calls meet the condition if and only if the lists are right
after every number of calls. -/
theorem fresh_states_iff (calls : List (OptionCall α)) :
    Along call Keeps {} calls ↔ ∀ before, before <+: calls → (before.foldl call {}).Fresh :=
  along_iff_states (fun _ c h => h.call_iff c) (by simp [Fresh])

/-- An option is set, the values are read, and the option is set to the same value. -/
theorem fresh_states_fail : ¬∀ calls : List (OptionCall Unit), (calls.foldl call {}).Fresh := by
  intro h
  have hfresh := h [.setUint32 (ascii "ring-rx") 256 0, .getAll true true,
    .setUint32 (ascii "ring-rx") 256 1]
  obtain ⟨names, hnames, hvalues⟩ := (hfresh _ rfl).values _ rfl
  obtain rfl := Option.some.inj hnames
  revert hvalues
  decide +kernel

end OptionSetting

end NetworkManager.Settings
