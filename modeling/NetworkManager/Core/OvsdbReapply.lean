import NetworkManager.Core.OvsdbTables
import NetworkManager.Lib.MapMutation

/-!
# Reapplying the dictionaries of an OVS device

On reapply, the maps of the row are changed by mutations. As an insertion leaves keys alone that are
in the map, every key with a new value has to be deleted first.
-/

namespace NetworkManager.Core

open Lib

/-! ## The program -/

/-- `StrictdictType`, with the UUID that is given for the external ids only. -/
inductive StrictdictType
  | externalIds (connectionUuid : Bytes)
  | otherConfig

def ovsExternalIdNMPrefix : Bytes := ascii "NM."

def otherConfigHwaddr : Bytes := ascii "hwaddr"

/-- A key of this hash table, which is none where it is `NULL`. -/
def hashContains (hash : Option Strdict) (key : Bytes) : Bool :=
  key ∈ (hash.getD []).map (·.1)

def StrictdictType.isHwaddr : StrictdictType → Bytes → Bool
  | .externalIds _, _ => false
  | .otherConfig, key => key = otherConfigHwaddr

/-- The keys that `_j_create_strv_array_update()` deletes. -/
def strvArrayDelete (type : StrictdictType) (hashOld hashNew : Option Strdict) : List Bytes :=
  let keysOld := (hashOld.getD []).map (·.1)
  let keysNew := (hashNew.getD []).map (·.1)
  (keysOld.filter fun key => ¬ type.isHwaddr key) ++
    (keysNew.filter fun key => ¬ type.isHwaddr key ∧ ¬ hashContains hashOld key) ++
    match type with
    | .externalIds _ =>
      if ¬ hashContains hashOld ovsExternalIdNMPrefix ∧
          ¬ hashContains hashNew ovsExternalIdNMPrefix then [ovsExternalIdNMPrefix]
      else []
    | .otherConfig => []

/-- The pairs that `_j_create_strv_array_update()` inserts. -/
def strvArrayInsert (type : StrictdictType) (hashNew : Option Strdict) : List (Bytes × Bytes) :=
  match type with
  | .externalIds connectionUuid =>
    (ovsExternalIdNMConnectionUuid, connectionUuid) ::
      (hashNew.getD []).filter fun pair => ¬ ovsExternalIdNMPrefix <+: pair.1
  | .otherConfig => (hashNew.getD []).filter fun pair => ¬ type.isHwaddr pair.1

def strvArrayUpdate (type : StrictdictType) (hashOld hashNew : Option Strdict) :
    List (MapMutation Bytes Bytes) :=
  (if strvArrayDelete type hashOld hashNew = [] then []
    else [.delete (strvArrayDelete type hashOld hashNew)]) ++
  [.insert (strvArrayInsert type hashNew)]

/-- The payload of `OVSDB_SET_REAPPLY`. -/
structure SetReapply where
  connectionUuid : Bytes
  externalIdsOld : Option Strdict
  externalIdsNew : Option Strdict
  otherConfigOld : Option Strdict
  otherConfigNew : Option Strdict

/-- The columns "external_ids" and "other_config" of a row. -/
structure StrdictColumns where
  externalIds : Bytes → Option Bytes
  otherConfig : Bytes → Option Bytes

/-- What the mutations that `ovsdb_next_command()` sends for `OVSDB_SET_REAPPLY` make of the row. -/
def SetReapply.apply (payload : SetReapply) (row : StrdictColumns) : StrdictColumns where
  externalIds :=
    applyMutations (strvArrayUpdate (.externalIds payload.connectionUuid) payload.externalIdsOld
      payload.externalIdsNew) row.externalIds
  otherConfig :=
    applyMutations (strvArrayUpdate .otherConfig payload.otherConfigOld payload.otherConfigNew)
      row.otherConfig

/-! ## The row after the mutations -/

variable {hash : Option Strdict} {key : Bytes}

section Update

variable (hashOld hashNew : Option Strdict)

def hashLookup (hash : Option Strdict) (key : Bytes) : Option Bytes := pairValue (hash.getD []) key

theorem hashLookup_isSome_iff : (hashLookup hash key).isSome ↔ hashContains hash key := by
  simp [hashLookup, pairValue_isSome_iff, hashContains]

theorem applyMutations_strvArrayUpdate (type : StrictdictType) (m : Bytes → Option Bytes)
    (key : Bytes) :
    applyMutations (strvArrayUpdate type hashOld hashNew) m key =
      if key ∈ strvArrayDelete type hashOld hashNew then pairValue (strvArrayInsert type hashNew) key
      else (m key).or (pairValue (strvArrayInsert type hashNew) key) := by
  have hboth := applyMutations_delete_insert (strvArrayDelete type hashOld hashNew)
    (strvArrayInsert type hashNew) m key
  rw [strvArrayUpdate]
  split_ifs with hnil hkey hkey
  · simp [hnil] at hkey
  · rw [hnil, applyMutations_delete_nil] at hboth
    simpa using hboth
  · simpa [hkey] using hboth
  · simpa [hkey] using hboth

theorem mem_strvArrayDelete_externalIds (connectionUuid key : Bytes) :
    key ∈ strvArrayDelete (.externalIds connectionUuid) hashOld hashNew ↔
      hashContains hashOld key ∨ hashContains hashNew key ∨ key = ovsExternalIdNMPrefix := by
  simp only [strvArrayDelete, StrictdictType.isHwaddr, hashContains]
  by_cases hkey : key = ovsExternalIdNMPrefix
  · subst hkey
    split_ifs <;> simp_all
    grind
  · split_ifs <;> simp_all <;> grind

theorem mem_strvArrayDelete_otherConfig (key : Bytes) :
    key ∈ strvArrayDelete .otherConfig hashOld hashNew ↔
      key ≠ otherConfigHwaddr ∧ (hashContains hashOld key ∨ hashContains hashNew key) := by
  simp only [strvArrayDelete, StrictdictType.isHwaddr, hashContains]
  simp
  grind

theorem pairValue_strvArrayInsert_externalIds (connectionUuid key : Bytes) :
    pairValue (strvArrayInsert (.externalIds connectionUuid) hashNew) key =
      if key = ovsExternalIdNMConnectionUuid then some connectionUuid
      else if ovsExternalIdNMPrefix <+: key then none
      else hashLookup hashNew key := by
  rw [strvArrayInsert, pairValue_cons]
  have hfilter := @pairValue_filter _ _ _ (hashNew.getD []) key
    fun k => ¬ ovsExternalIdNMPrefix <+: k
  rw [hfilter]
  by_cases hkey : key = ovsExternalIdNMConnectionUuid
  · simp [hkey]
  · simp [hkey, Ne.symm hkey, hashLookup]

theorem pairValue_strvArrayInsert_otherConfig (key : Bytes) :
    pairValue (strvArrayInsert .otherConfig hashNew) key =
      if key = otherConfigHwaddr then none else hashLookup hashNew key := by
  have hfilter := @pairValue_filter _ _ _ (hashNew.getD []) key
    fun k => ¬ StrictdictType.otherConfig.isHwaddr k
  rw [strvArrayInsert, hfilter]
  by_cases hkey : key = otherConfigHwaddr <;> simp [hkey, StrictdictType.isHwaddr, hashLookup]

end Update

/-! ## The state that is asked for -/

/-- What the row is to be after the dictionaries are reapplied. -/
structure SetReapply.Reached (payload : SetReapply) (row row' : StrdictColumns) : Prop where
  externalIds_new : ∀ key, ¬ ovsExternalIdNMPrefix <+: key →
    ∀ val ∈ hashLookup payload.externalIdsNew key, row'.externalIds key = some val
  externalIds_old : ∀ key ≠ ovsExternalIdNMConnectionUuid,
    hashContains payload.externalIdsOld key → ¬ hashContains payload.externalIdsNew key →
    row'.externalIds key = none
  connectionUuid : row'.externalIds ovsExternalIdNMConnectionUuid = some payload.connectionUuid
  externalIds_other : ∀ key ≠ ovsExternalIdNMConnectionUuid,
    (hashContains payload.externalIdsNew key → ovsExternalIdNMPrefix <+: key) →
    (hashContains payload.externalIdsOld key → hashContains payload.externalIdsNew key) →
    row'.externalIds key = row.externalIds key
  otherConfig_new : ∀ key ≠ otherConfigHwaddr,
    ∀ val ∈ hashLookup payload.otherConfigNew key, row'.otherConfig key = some val
  otherConfig_old : ∀ key ≠ otherConfigHwaddr,
    hashContains payload.otherConfigOld key → ¬ hashContains payload.otherConfigNew key →
    row'.otherConfig key = none
  hwaddr : row'.otherConfig otherConfigHwaddr = row.otherConfig otherConfigHwaddr
  otherConfig_other : ∀ key, ¬ hashContains payload.otherConfigNew key →
    ¬ hashContains payload.otherConfigOld key → row'.otherConfig key = row.otherConfig key

/-- The row has no key for which it matters that "NM." is deleted in the place of
"NM.connection.uuid", and no protected key that is deleted for the new dictionary. -/
structure SetReapply.Unprotected (payload : SetReapply) (row : StrdictColumns) : Prop where
  connectionUuid : ∀ uuid ∈ row.externalIds ovsExternalIdNMConnectionUuid,
    uuid = payload.connectionUuid ∨
      hashContains payload.externalIdsOld ovsExternalIdNMConnectionUuid ∨
      hashContains payload.externalIdsNew ovsExternalIdNMConnectionUuid
  others : ∀ key ≠ ovsExternalIdNMConnectionUuid, ovsExternalIdNMPrefix <+: key →
    (row.externalIds key).isSome → ¬ hashContains payload.externalIdsNew key ∧
      (key = ovsExternalIdNMPrefix → hashContains payload.externalIdsOld key)

section Reached

variable (payload : SetReapply) (row : StrdictColumns)

theorem SetReapply.externalIds_apply (key : Bytes) :
    (payload.apply row).externalIds key =
      let val :=
        if key = ovsExternalIdNMConnectionUuid then some payload.connectionUuid
        else if ovsExternalIdNMPrefix <+: key then none
        else hashLookup payload.externalIdsNew key
      if hashContains payload.externalIdsOld key ∨ hashContains payload.externalIdsNew key ∨
        key = ovsExternalIdNMPrefix then val
      else (row.externalIds key).or val := by
  simp only [SetReapply.apply, applyMutations_strvArrayUpdate, mem_strvArrayDelete_externalIds,
    pairValue_strvArrayInsert_externalIds]

theorem SetReapply.otherConfig_apply (key : Bytes) :
    (payload.apply row).otherConfig key =
      if key = otherConfigHwaddr then row.otherConfig key
      else if hashContains payload.otherConfigOld key ∨ hashContains payload.otherConfigNew key then
        hashLookup payload.otherConfigNew key
      else row.otherConfig key := by
  have hnone : ¬ hashContains payload.otherConfigNew key →
      hashLookup payload.otherConfigNew key = none := by
    rw [← hashLookup_isSome_iff]
    simp
  simp only [SetReapply.apply, applyMutations_strvArrayUpdate, mem_strvArrayDelete_otherConfig,
    pairValue_strvArrayInsert_otherConfig]
  by_cases hkey : key = otherConfigHwaddr
  · simp [hkey]
  · by_cases hnew : hashContains payload.otherConfigNew key
    · simp [hkey, hnew]
    · by_cases hold : hashContains payload.otherConfigOld key <;> simp [hkey, hnew, hold, hnone hnew]

theorem prefix_connectionUuid : ovsExternalIdNMPrefix <+: ovsExternalIdNMConnectionUuid := by decide

theorem prefix_ne_connectionUuid : ovsExternalIdNMPrefix ≠ ovsExternalIdNMConnectionUuid := by decide

theorem hashLookup_of_not_contains (h : ¬ hashContains hash key) : hashLookup hash key = none := by
  rwa [← hashLookup_isSome_iff, Option.not_isSome_iff_eq_none] at h

theorem hashContains_of_lookup {val : Bytes} (h : val ∈ hashLookup hash key)
    : hashContains hash key := by
  rw [← hashLookup_isSome_iff, Option.mem_def.mp h]
  rfl

theorem SetReapply.connectionUuid_iff :
    (payload.apply row).externalIds ovsExternalIdNMConnectionUuid = some payload.connectionUuid ↔
      ∀ uuid ∈ row.externalIds ovsExternalIdNMConnectionUuid,
        uuid = payload.connectionUuid ∨
          hashContains payload.externalIdsOld ovsExternalIdNMConnectionUuid ∨
          hashContains payload.externalIdsNew ovsExternalIdNMConnectionUuid := by
  have hne := prefix_ne_connectionUuid.symm
  rw [SetReapply.externalIds_apply]
  cases hrow : row.externalIds ovsExternalIdNMConnectionUuid with
  | none => simp
  | some uuid =>
    by_cases hdelete : hashContains payload.externalIdsOld ovsExternalIdNMConnectionUuid ∨
        hashContains payload.externalIdsNew ovsExternalIdNMConnectionUuid
    · simp only [hdelete, ← or_assoc, true_or, if_true]
      simp
    · simp only [not_or] at hdelete
      simp [hdelete, hne]

theorem SetReapply.externalIds_other_iff (hkey : key ≠ ovsExternalIdNMConnectionUuid)
    (hnew : hashContains payload.externalIdsNew key → ovsExternalIdNMPrefix <+: key)
    (hold : hashContains payload.externalIdsOld key → hashContains payload.externalIdsNew key) :
    (payload.apply row).externalIds key = row.externalIds key ↔
      ((row.externalIds key).isSome → ¬ hashContains payload.externalIdsNew key ∧
        key ≠ ovsExternalIdNMPrefix) := by
  rw [SetReapply.externalIds_apply]
  by_cases hn : hashContains payload.externalIdsNew key
  · simp only [if_neg hkey, if_pos (hnew hn), hn, or_true, true_or, if_true, not_true, false_and]
    cases row.externalIds key <;> simp
  · have ho : ¬ hashContains payload.externalIdsOld key := fun h => hn (hold h)
    have hval : hashLookup payload.externalIdsNew key = none := hashLookup_of_not_contains hn
    by_cases hnm : key = ovsExternalIdNMPrefix
    · simp only [if_neg hkey, hval, ite_self, if_pos (Or.inr (Or.inr hnm))]
      cases row.externalIds key <;> simp [hnm]
    · simp [hkey, hn, ho, hval, hnm]

/-- The row is as it is to be exactly if no wrongly protected key of it is in the way. -/
theorem SetReapply.reached_iff : payload.Reached row (payload.apply row) ↔ payload.Unprotected row := by
  constructor
  · intro h
    refine ⟨(payload.connectionUuid_iff row).mp h.connectionUuid, fun key hkey hprefix hsome => ?_⟩
    by_cases hold : hashContains payload.externalIdsOld key →
        hashContains payload.externalIdsNew key
    · have hother := h.externalIds_other key hkey (fun _ => hprefix) hold
      have hkeep := (payload.externalIds_other_iff row hkey (fun _ => hprefix) hold).mp hother hsome
      exact ⟨hkeep.1, fun heq => absurd heq hkeep.2⟩
    · rw [Classical.not_imp] at hold
      exact ⟨hold.2, fun _ => hold.1⟩
  · intro h
    constructor
    · intro key hprefix val hval
      have hkey : key ≠ ovsExternalIdNMConnectionUuid := fun heq =>
        hprefix (heq ▸ prefix_connectionUuid)
      have hnew := hashContains_of_lookup hval
      rw [SetReapply.externalIds_apply]
      simpa [hkey, hprefix, hnew] using hval
    · intro key hkey hold hnew
      rw [SetReapply.externalIds_apply]
      simp [hkey, hold, hashLookup_of_not_contains hnew]
    · exact (payload.connectionUuid_iff row).mpr h.connectionUuid
    · intro key hkey hnew hold
      refine (payload.externalIds_other_iff row hkey hnew hold).mpr fun hsome => ?_
      by_cases hprefix : ovsExternalIdNMPrefix <+: key
      · obtain ⟨hn, hliteral⟩ := h.others key hkey hprefix hsome
        exact ⟨hn, fun heq => hn (hold (hliteral heq))⟩
      · exact ⟨fun hn => hprefix (hnew hn), fun heq => hprefix (heq ▸ List.prefix_refl _)⟩
    · intro key hkey val hval
      rw [SetReapply.otherConfig_apply]
      simpa [hkey, hashContains_of_lookup hval] using hval
    · intro key hkey hold hnew
      rw [SetReapply.otherConfig_apply]
      simp [hkey, hold, hashLookup_of_not_contains hnew]
    · simp [SetReapply.otherConfig_apply]
    · intro key hnew hold
      simp [SetReapply.otherConfig_apply, hnew, hold]

end Reached

/-! ## A row that is not reached -/

def activatedRow : StrdictColumns :=
  ⟨fun key => if key = ovsExternalIdNMConnectionUuid then some (ascii "a") else none, fun _ => none⟩

/-- The uuid of another connection stays, as it is not deleted before it is inserted. -/
theorem setReapply_keeps_other_uuid :
    ¬ ∀ (payload : SetReapply) (row : StrdictColumns),
      (∀ key, ∀ val ∈ hashLookup payload.externalIdsOld key, row.externalIds key = some val) →
      (∀ key, ∀ val ∈ hashLookup payload.otherConfigOld key, row.otherConfig key = some val) →
      payload.Reached row (payload.apply row) := by
  intro h
  have hreached := h ⟨ascii "b", none, none, none, none⟩ activatedRow (by simp [hashLookup])
    (by simp [hashLookup])
  have huuid := hreached.connectionUuid
  revert huuid
  decide

end NetworkManager.Core
