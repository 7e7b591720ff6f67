import NetworkManager.Core.OvsdbReplica

/-!
# The view of the OVSDB is a replica

Every notification takes the view of one content of the database to that of the next. The reply to
the monitor call does not say which rows are gone: where none of those that are known is, the view
has the rows of the database.
-/

namespace NetworkManager.Core

open Lib

/-! ## Patches of a table -/

section Patch

variable {ρ : Type} {uuid : ρ → Bytes} {label : ρ → OvsLabel} {update : ρ → ρ → ρ}
  {deviceType : OvsDeviceType} {key k : Bytes} {change : RowChange ρ} {table : List ρ}

/-- What a change makes of the row that is in the table. -/
def RowChange.apply (change : RowChange ρ) (row : Option ρ) : Option ρ :=
  match change with
  | .new row' => some row'
  | .old => none
  | .neither => row

theorem modifyKey_update {row new : ρ} (h : KeyUnique uuid table)
    (hupdate : ∀ row new, uuid row = uuid new → label row = label new → update row new = new)
    (hlookup : lookup uuid key table = some row) (hnew : uuid new = key)
    (hlabel : label row = label new) :
    modifyKey uuid key (update · new) table = modifyKey uuid key (fun _ => new) table := by
  apply modifyKey_congr
  intro x hx hxk
  have hxrow : some x = some row := by rw [← hlookup, ← hxk, lookup_of_mem h hx]
  obtain rfl := Option.some.inj hxrow
  exact hupdate x new (hxk.trans hnew.symm) hlabel

section

variable (h : KeyUnique uuid table) (hkey : ∀ new, change = .new new → uuid new = key)
  (hupdate : ∀ row new, uuid row = uuid new → label row = label new → update row new = new)

include h hkey hupdate

theorem unique_patchRow :
    KeyUnique uuid (patchRow uuid label update deviceType key change table).1 := by
  unfold patchRow
  split
  · exact h
  · exact h
  · exact h.eraseKey
  · exact h.put
  · rename_i new row hlookup
    have hnew : uuid new = key := hkey new rfl
    split_ifs with hlabel
    · exact h.eraseKey.put
    · rw [modifyKey_update h hupdate hlookup hnew (not_not.mp hlabel)]
      unfold KeyUnique
      rw [map_key_modifyKey_of_key fun _ _ => hnew]
      exact h

theorem lookup_patchRow :
    lookup uuid k (patchRow uuid label update deviceType key change table).1 =
      if k = key then change.apply (lookup uuid key table) else lookup uuid k table := by
  unfold patchRow
  split
  · split_ifs with hk
    · rw [hk]
      rfl
    · rfl
  · rename_i hlookup
    split_ifs with hk
    · rw [hk, hlookup]
      rfl
    · rfl
  · exact lookup_eraseKey
  · rename_i new hlookup
    have hnew : uuid new = key := hkey new rfl
    rw [lookup_put, hnew]
    rfl
  · rename_i new row hlookup
    have hnew : uuid new = key := hkey new rfl
    by_cases hlabel : label row = label new
    · rw [if_neg (not_not.mpr hlabel), modifyKey_update h hupdate hlookup hnew hlabel,
        lookup_modifyKey_of_key fun _ _ => hnew]
      split_ifs with hk
      · rw [hk, hlookup]
        rfl
      · rfl
    · rw [if_pos hlabel, lookup_put, hnew]
      split_ifs with hk
      · rfl
      · rw [lookup_eraseKey, if_neg hk]

end

end Patch

/-! ## Signals -/

namespace OvsdbSignal

/-- What a row is announced with after one more signal. A signal that does not alternate gives
nothing. -/
def announce (deviceType : OvsDeviceType) (uuid : Bytes) (current : Option (Option OvsLabel)) :
    OvsdbSignal → Option (Option OvsLabel)
  | deviceAdded deviceType' uuid' label =>
    if deviceType' = deviceType ∧ uuid' = uuid then
      if current = some none then some (some label) else none
    else current
  | deviceRemoved deviceType' uuid' label =>
    if deviceType' = deviceType ∧ uuid' = uuid then
      if current = some (some label) then some none else none
    else current
  | interfaceFailed _ _ _ => current

end OvsdbSignal

def announced (deviceType : OvsDeviceType) (uuid : Bytes) (signals : List OvsdbSignal) :
    Option (Option OvsLabel) :=
  signals.foldl (OvsdbSignal.announce deviceType uuid) (some none)

section Announced

variable {ρ : Type} {uuid : ρ → Bytes} {label : ρ → OvsLabel} {update : ρ → ρ → ρ}
  {deviceType : OvsDeviceType} {key k : Bytes} {change : RowChange ρ} {table : List ρ}

/-- The signals of one patch announce what the table then has, and nothing of another row. -/
theorem announce_patchRow (h : KeyUnique uuid table)
    (hkey : ∀ new, change = .new new → uuid new = key)
    (hupdate : ∀ row new, uuid row = uuid new → label row = label new → update row new = new)
    (deviceType' : OvsDeviceType) (current : Option OvsLabel)
    (hcurrent : deviceType' = deviceType → current = (lookup uuid k table).map label) :
    (patchRow uuid label update deviceType key change table).2.foldl
        (OvsdbSignal.announce deviceType' k) (some current) =
      some (if deviceType' = deviceType then
        (lookup uuid k (patchRow uuid label update deviceType key change table).1).map label
      else current) := by
  rw [lookup_patchRow h hkey hupdate]
  by_cases htype : deviceType' = deviceType
  · rw [if_pos htype, hcurrent htype]
    subst htype
    by_cases hk : k = key
    · subst hk
      rw [if_pos rfl]
      unfold patchRow
      split
      · rfl
      · rename_i hlookup
        simp [hlookup, RowChange.apply]
      · rename_i row hlookup
        simp [hlookup, RowChange.apply, OvsdbSignal.announce]
      · rename_i new hlookup
        simp [hlookup, RowChange.apply, OvsdbSignal.announce]
      · rename_i new row hlookup
        split_ifs with hlabel
        · simp [hlookup, RowChange.apply, OvsdbSignal.announce]
        · simpa [hlookup, RowChange.apply] using hlabel
    · rw [if_neg hk]
      have hne : key ≠ k := Ne.symm hk
      unfold patchRow
      split
      · rfl
      · rfl
      · simp [OvsdbSignal.announce, hne]
      · simp [OvsdbSignal.announce, hne]
      · split_ifs <;> simp [OvsdbSignal.announce, hne]
  · have hne : deviceType ≠ deviceType' := Ne.symm htype
    rw [if_neg htype]
    unfold patchRow
    split
    · rfl
    · rfl
    · simp [OvsdbSignal.announce, hne]
    · simp [OvsdbSignal.announce, hne]
    · split_ifs <;> simp [OvsdbSignal.announce, hne]

end Announced

/-! ## Tables -/

/-- A table: what its rows are and how they unpack. -/
structure OvsTable (ρ : Type) where
  uuid : ρ → Bytes
  label : ρ → OvsLabel
  update : ρ → ρ → ρ
  deviceType : OvsDeviceType
  unpack : Bytes → Json → RowChange ρ
  uuid_unpack : ∀ key value new, unpack key value = .new new → uuid new = key
  update_eq : ∀ row new, uuid row = uuid new → label row = label new → update row new = new

theorem unpackRow_eq_new {ρ : Type} {row : Option ρ} {value : Json} {new : ρ} :
    unpackRow row value = .new new ↔ row = some new := by
  cases row with
  | some row => simp [unpackRow]
  | none =>
    simp only [unpackRow, unpackOld, reduceCtorEq, iff_false]
    split
    · split_ifs <;> simp
    · simp

def interfaceTable : OvsTable OpenvswitchInterface where
  uuid := OpenvswitchInterface.interfaceUuid
  label := OpenvswitchInterface.label
  update := OpenvswitchInterface.update
  deviceType := .interface
  unpack := unpackInterface
  uuid_unpack key value new h := by
    have hnew : unpackNewInterface key value = some new := unpackRow_eq_new.mp h
    simp only [unpackNewInterface, Option.bind_eq_bind, Option.pure_def, Option.bind_eq_some_iff] at hnew
    obtain ⟨_, _, _, _, _, _, _, _, hrow⟩ := hnew
    obtain rfl := Option.some.inj hrow
    rfl
  update_eq := by
    rintro ⟨_, _, _, _, _, _⟩ ⟨_, _, _, _, _, _⟩ huuid hlabel
    simp_all [OpenvswitchInterface.label, OpenvswitchInterface.update]

def portTable : OvsTable OpenvswitchPort where
  uuid := OpenvswitchPort.portUuid
  label := OpenvswitchPort.label
  update := OpenvswitchPort.update
  deviceType := .port
  unpack := unpackPort
  uuid_unpack key value new h := by
    have hnew : unpackNewPort key value = some new := unpackRow_eq_new.mp h
    simp only [unpackNewPort, Option.bind_eq_bind, Option.pure_def, Option.bind_eq_some_iff] at hnew
    obtain ⟨_, _, _, _, _, _, hrow⟩ := hnew
    obtain rfl := Option.some.inj hrow
    rfl
  update_eq := by
    rintro ⟨_, _, _, _, _, _⟩ ⟨_, _, _, _, _, _⟩ huuid hlabel
    simp_all [OpenvswitchPort.label, OpenvswitchPort.update]

def bridgeTable : OvsTable OpenvswitchBridge where
  uuid := OpenvswitchBridge.bridgeUuid
  label := OpenvswitchBridge.label
  update := OpenvswitchBridge.update
  deviceType := .bridge
  unpack := unpackBridge
  uuid_unpack key value new h := by
    have hnew : unpackNewBridge key value = some new := unpackRow_eq_new.mp h
    simp only [unpackNewBridge, Option.bind_eq_bind, Option.pure_def, Option.bind_eq_some_iff] at hnew
    obtain ⟨_, _, _, _, _, _, hrow⟩ := hnew
    obtain rfl := Option.some.inj hrow
    rfl
  update_eq := by
    rintro ⟨_, _, _, _, _, _⟩ ⟨_, _, _, _, _, _⟩ huuid hlabel
    simp_all [OpenvswitchBridge.label, OpenvswitchBridge.update]

namespace OvsTable

variable {ρ : Type} (T : OvsTable ρ) {table : List ρ} {members : List (Bytes × Json)} {k : Bytes}

def patch (table : List ρ) (member : Bytes × Json) : List ρ × List OvsdbSignal :=
  patchRow T.uuid T.label T.update T.deviceType member.1 (T.unpack member.1 member.2) table

theorem unique_patch (h : KeyUnique T.uuid table) (member : Bytes × Json) :
    KeyUnique T.uuid (T.patch table member).1 :=
  unique_patchRow h (T.uuid_unpack _ _) T.update_eq

theorem lookup_patch (h : KeyUnique T.uuid table) (member : Bytes × Json) :
    lookup T.uuid k (T.patch table member).1 =
      if k = member.1 then (T.unpack member.1 member.2).apply (lookup T.uuid member.1 table)
      else lookup T.uuid k table :=
  lookup_patchRow h (T.uuid_unpack _ _) T.update_eq

theorem announce_patch (h : KeyUnique T.uuid table) (member : Bytes × Json) (deviceType : OvsDeviceType)
    (current : Option OvsLabel)
    (hcurrent : deviceType = T.deviceType → current = (lookup T.uuid k table).map T.label) :
    (T.patch table member).2.foldl (OvsdbSignal.announce deviceType k) (some current) =
      some (if deviceType = T.deviceType then (lookup T.uuid k (T.patch table member).1).map T.label
        else current) :=
  announce_patchRow h (T.uuid_unpack _ _) T.update_eq deviceType current hcurrent

def patchAll (table : List ρ) (members : List (Bytes × Json)) : List ρ :=
  members.foldl (fun table member => (T.patch table member).1) table

theorem lookup_patchAll (h : KeyUnique T.uuid table) (hmembers : KeyUnique Prod.fst members) :
    lookup T.uuid k (T.patchAll table members) =
      match lookup Prod.fst k members with
      | some member => (T.unpack member.1 member.2).apply (lookup T.uuid k table)
      | none => lookup T.uuid k table := by
  induction members generalizing table with
  | nil => rfl
  | cons member members ih =>
    obtain ⟨hfresh, hmembers⟩ := unique_cons.mp hmembers
    change lookup T.uuid k (T.patchAll (T.patch table member).1 members) = _
    rw [ih (T.unique_patch h member) hmembers, lookup_cons, T.lookup_patch h]
    by_cases hk : member.1 = k
    · subst hk
      have hnone : lookup Prod.fst member.1 members = none := lookup_eq_none_iff.mpr hfresh
      rw [hnone, if_pos rfl, if_pos rfl]
    · rw [if_neg hk, if_neg (Ne.symm hk)]

end OvsTable

/-! ## The whole view -/

namespace OvsdbTables

/-- What the table of a device type has a row announced with. -/
def label (s : OvsdbTables) (uuid : Bytes) : OvsDeviceType → Option OvsLabel
  | .interface => (lookup OpenvswitchInterface.interfaceUuid uuid s.interfaces).map
      OpenvswitchInterface.label
  | .port => (lookup OpenvswitchPort.portUuid uuid s.ports).map OpenvswitchPort.label
  | .bridge => (lookup OpenvswitchBridge.bridgeUuid uuid s.bridges).map OpenvswitchBridge.label

/-- What holds of the hash tables after any message. -/
structure WellFormed (s : OvsdbTables) : Prop where
  interfaces : KeyUnique OpenvswitchInterface.interfaceUuid s.interfaces
  ports : KeyUnique OpenvswitchPort.portUuid s.ports
  bridges : KeyUnique OpenvswitchBridge.bridgeUuid s.bridges
  announced : ∀ deviceType uuid,
    announced deviceType uuid s.signals = some (s.label uuid deviceType)

theorem announced_append {deviceType : OvsDeviceType} {uuid : Bytes}
    {signals signals' : List OvsdbSignal} :
    Core.announced deviceType uuid (signals ++ signals') =
      signals'.foldl (OvsdbSignal.announce deviceType uuid)
        (Core.announced deviceType uuid signals) := List.foldl_append

theorem foldl_failedSignals {deviceType : OvsDeviceType} {uuid : Bytes}
    {change : RowChange OpenvswitchInterface} {error : Option Bytes}
    {current : Option (Option OvsLabel)} :
    (failedSignals change error).foldl (OvsdbSignal.announce deviceType uuid) current = current := by
  unfold failedSignals
  split <;> rfl

namespace WellFormed

variable {s : OvsdbTables}

theorem start : WellFormed .start where
  interfaces := unique_nil
  ports := unique_nil
  bridges := unique_nil
  announced deviceType _ := by cases deviceType <;> rfl

theorem patchInterface (h : s.WellFormed) (member : Bytes × Json) :
    (s.patchInterface member).WellFormed where
  interfaces := interfaceTable.unique_patch h.interfaces member
  ports := h.ports
  bridges := h.bridges
  announced deviceType uuid := by
    have hpatch := interfaceTable.announce_patch (k := uuid) h.interfaces member deviceType
      (s.label uuid deviceType) (by rintro rfl; rfl)
    simp only [OvsdbTables.patchInterface]
    rw [announced_append, announced_append, h.announced]
    rw [foldl_failedSignals]
    refine hpatch.trans ?_
    cases deviceType <;> rfl

theorem patchPort (h : s.WellFormed) (member : Bytes × Json) : (s.patchPort member).WellFormed where
  interfaces := h.interfaces
  ports := portTable.unique_patch h.ports member
  bridges := h.bridges
  announced deviceType uuid := by
    have hpatch := portTable.announce_patch (k := uuid) h.ports member deviceType
      (s.label uuid deviceType) (by rintro rfl; rfl)
    simp only [OvsdbTables.patchPort]
    rw [announced_append, h.announced]
    refine hpatch.trans ?_
    cases deviceType <;> rfl

theorem patchBridge (h : s.WellFormed) (member : Bytes × Json) : (s.patchBridge member).WellFormed where
  interfaces := h.interfaces
  ports := h.ports
  bridges := bridgeTable.unique_patch h.bridges member
  announced deviceType uuid := by
    have hpatch := bridgeTable.announce_patch (k := uuid) h.bridges member deviceType
      (s.label uuid deviceType) (by rintro rfl; rfl)
    simp only [OvsdbTables.patchBridge]
    rw [announced_append, h.announced]
    refine hpatch.trans ?_
    cases deviceType <;> rfl

theorem gotUpdate (h : s.WellFormed) (msg : Json) : (s.gotUpdate msg).WellFormed := by
  unfold OvsdbTables.gotUpdate
  have hstart : WellFormed { s with
      dbUuid := ((tableMembers msg "Open_vSwitch").head?.map (·.1)).or s.dbUuid } :=
    ⟨h.interfaces, h.ports, h.bridges, fun deviceType uuid => by
      rw [h.announced]
      cases deviceType <;> rfl⟩
  have hinterfaces := List.foldlRecOn (tableMembers msg "Interface") OvsdbTables.patchInterface hstart
    fun _ h member _ => h.patchInterface member
  have hports := List.foldlRecOn (tableMembers msg "Port") OvsdbTables.patchPort hinterfaces
    fun _ h member _ => h.patchPort member
  exact List.foldlRecOn (tableMembers msg "Bridge") OvsdbTables.patchBridge hports
    fun _ h member _ => h.patchBridge member

end WellFormed

/-! ### What one message makes of each table -/

section Fields

variable {s : OvsdbTables} {members : List (Bytes × Json)}

theorem foldl_patchInterface :
    (members.foldl patchInterface s).interfaces = interfaceTable.patchAll s.interfaces members ∧
      (members.foldl patchInterface s).ports = s.ports ∧
        (members.foldl patchInterface s).bridges = s.bridges := by
  induction members generalizing s with
  | nil => exact ⟨rfl, rfl, rfl⟩
  | cons member members ih => exact ih (s := s.patchInterface member)

theorem foldl_patchPort :
    (members.foldl patchPort s).interfaces = s.interfaces ∧
      (members.foldl patchPort s).ports = portTable.patchAll s.ports members ∧
        (members.foldl patchPort s).bridges = s.bridges := by
  induction members generalizing s with
  | nil => exact ⟨rfl, rfl, rfl⟩
  | cons member members ih => exact ih (s := s.patchPort member)

theorem foldl_patchBridge :
    (members.foldl patchBridge s).interfaces = s.interfaces ∧
      (members.foldl patchBridge s).ports = s.ports ∧
        (members.foldl patchBridge s).bridges = bridgeTable.patchAll s.bridges members := by
  induction members generalizing s with
  | nil => exact ⟨rfl, rfl, rfl⟩
  | cons member members ih => exact ih (s := s.patchBridge member)

variable (msg : Json)

theorem gotUpdate_interfaces : (s.gotUpdate msg).interfaces =
    interfaceTable.patchAll s.interfaces (tableMembers msg "Interface") := by
  simp only [gotUpdate, foldl_patchBridge.1, foldl_patchPort.1, foldl_patchInterface.1]

theorem gotUpdate_ports : (s.gotUpdate msg).ports =
    portTable.patchAll s.ports (tableMembers msg "Port") := by
  simp only [gotUpdate, foldl_patchBridge.2.1, foldl_patchPort.2.1, foldl_patchInterface.2.1]

theorem gotUpdate_bridges : (s.gotUpdate msg).bridges =
    bridgeTable.patchAll s.bridges (tableMembers msg "Bridge") := by
  simp only [gotUpdate, foldl_patchBridge.2.2, foldl_patchPort.2.2, foldl_patchInterface.2.2]

end Fields

end OvsdbTables

/-! ## What is unpacked -/

theorem strdictExtract_jsonOfMap (map : Strdict) : strdictExtract (jsonOfMap map) = map := by
  have hitems : (map.map fun item => Json.array [.string item.1, .string item.2]).filterMap
      strdictItem = map := by
    induction map with
    | nil => rfl
    | cons item map ih => exact congrArg (item :: ·) ih
  simpa [strdictExtract, jsonOfMap] using hitems

theorem uuidsToArray_jsonOfUuid (uuid : Bytes) : uuidsToArray (jsonOfUuid uuid) = [uuid] := by
  simp [jsonOfUuid, uuidsToArray, uuidsOfItems]

theorem uuidsOfSet_map (uuids : List Bytes) : uuidsOfSet (uuids.map jsonOfUuid) = uuids := by
  induction uuids with
  | nil => rfl
  | cons uuid uuids ih => rw [List.map_cons, uuidsOfSet, uuidsToArray_jsonOfUuid, ih,
      List.singleton_append]

theorem uuidsToArray_jsonOfUuids (uuids : List Bytes) : uuidsToArray (jsonOfUuids uuids) = uuids := by
  have hset : uuidsToArray (.array [.string (ascii "set"), .array (uuids.map jsonOfUuid)]) = uuids := by
    have hne : ascii "set" ≠ ascii "uuid" := by decide
    simp [uuidsToArray, uuidsOfItems, hne, uuidsOfSet_map]
  unfold jsonOfUuids
  split
  · exact uuidsToArray_jsonOfUuid _
  · exact hset

section Unpack

variable {key : Bytes}

theorem unpackColumns_interface (row : DbInterface) :
    unpackColumns (RowUpdate.jsonOfRow interfaceColumns row) =
      some ⟨row.name, row.externalIds, row.otherConfig⟩ := by
  have h : unpackColumns (RowUpdate.jsonOfRow interfaceColumns row) =
      some ⟨row.name, strdictExtract (jsonOfMap row.externalIds),
        strdictExtract (jsonOfMap row.otherConfig)⟩ := rfl
  rw [h, strdictExtract_jsonOfMap, strdictExtract_jsonOfMap]

theorem unpackColumns_row (refs : String) (row : DbRow) (hrefs : refs = "ports" ∨ refs = "interfaces") :
    unpackColumns (RowUpdate.jsonOfRow (rowColumns refs) row) =
      some ⟨row.name, row.externalIds, row.otherConfig⟩ := by
  have h : unpackColumns (RowUpdate.jsonOfRow (rowColumns refs) row) =
      some ⟨row.name, strdictExtract (jsonOfMap row.externalIds),
        strdictExtract (jsonOfMap row.otherConfig)⟩ := by
    rcases hrefs with rfl | rfl
    · rfl
    · rfl
  rw [h, strdictExtract_jsonOfMap, strdictExtract_jsonOfMap]

def RowUpdate.change {ρ α : Type} (object : ρ → α) : RowUpdate ρ → RowChange α
  | insert row => .new (object row)
  | modify _ new => .new (object new)
  | delete _ => .old

theorem unpackInterface_json (update : RowUpdate DbInterface) :
    unpackInterface update.row.uuid (update.json interfaceColumns) =
      update.change DbInterface.object := by
  have hnew (row : DbInterface) (value : Json)
      (hvalue : value.objectGet (ascii "new") = some (RowUpdate.jsonOfRow interfaceColumns row)) :
      unpackInterface row.uuid value = .new row.object := by
    apply unpackRow_eq_new.mpr
    have htype : (RowUpdate.jsonOfRow interfaceColumns row).objectGet (ascii "type") =
        some (.string row.type) := rfl
    simp only [unpackNewInterface, hvalue, Option.bind_eq_bind, Option.bind_some,
      unpackColumns_interface, htype, Json.stringValue_string]
    rfl
  cases update with
  | insert row => exact hnew row _ rfl
  | modify old new => exact hnew new _ rfl
  | delete row => rfl

theorem unpackPort_json (update : RowUpdate DbRow) :
    unpackPort update.row.uuid (update.json (rowColumns "interfaces")) =
      update.change DbRow.portObject := by
  have hnew (row : DbRow) (value : Json) (hvalue : value.objectGet (ascii "new") =
      some (RowUpdate.jsonOfRow (rowColumns "interfaces") row)) :
      unpackPort row.uuid value = .new row.portObject := by
    apply unpackRow_eq_new.mpr
    have hrefs : (RowUpdate.jsonOfRow (rowColumns "interfaces") row).objectGet (ascii "interfaces") =
        some (jsonOfUuids row.refs) := rfl
    simp only [unpackNewPort, hvalue, Option.bind_eq_bind, Option.bind_some,
      unpackColumns_row "interfaces" row (.inr rfl), hrefs, uuidsToArray_jsonOfUuids]
    rfl
  cases update with
  | insert row => exact hnew row _ rfl
  | modify old new => exact hnew new _ rfl
  | delete row => rfl

theorem unpackBridge_json (update : RowUpdate DbRow) :
    unpackBridge update.row.uuid (update.json (rowColumns "ports")) =
      update.change DbRow.bridgeObject := by
  have hnew (row : DbRow) (value : Json) (hvalue : value.objectGet (ascii "new") =
      some (RowUpdate.jsonOfRow (rowColumns "ports") row)) :
      unpackBridge row.uuid value = .new row.bridgeObject := by
    apply unpackRow_eq_new.mpr
    have hrefs : (RowUpdate.jsonOfRow (rowColumns "ports") row).objectGet (ascii "ports") =
        some (jsonOfUuids row.refs) := rfl
    simp only [unpackNewBridge, hvalue, Option.bind_eq_bind, Option.bind_some,
      unpackColumns_row "ports" row (.inl rfl), hrefs, uuidsToArray_jsonOfUuids]
    rfl
  cases update with
  | insert row => exact hnew row _ rfl
  | modify old new => exact hnew new _ rfl
  | delete row => rfl

end Unpack

/-! ## What is changed -/

section RowUpdates

variable {ρ : Type} {uuid : ρ → Bytes} {old new : List ρ} {k : Bytes}

/-- An update is that of a row between two contents of a table. -/
def RowUpdate.Fits (uuid : ρ → Bytes) (old new : List ρ) : RowUpdate ρ → Prop
  | insert row => lookup uuid (uuid row) old = none ∧ lookup uuid (uuid row) new = some row
  | modify row row' => uuid row = uuid row' ∧ lookup uuid (uuid row') old = some row ∧
      lookup uuid (uuid row') new = some row'
  | delete row => lookup uuid (uuid row) old = some row ∧ lookup uuid (uuid row) new = none

variable [DecidableEq ρ]

theorem mem_rowUpdates {update : RowUpdate ρ} (hold : KeyUnique uuid old) (hnew : KeyUnique uuid new)
    (h : update ∈ rowUpdates uuid old new) : update.Fits uuid old new := by
  rcases List.mem_append.mp h with h | h
  · obtain ⟨row, hrow, hupdate⟩ := List.mem_filterMap.mp h
    have hlookup := lookup_of_mem hold hrow
    unfold rowUpdate at hupdate
    split at hupdate
    · rename_i hnone
      obtain rfl := Option.some.inj hupdate
      exact ⟨hlookup, hnone⟩
    · rename_i row' hsome
      split_ifs at hupdate
      obtain rfl := Option.some.inj hupdate
      have huuid : uuid row' = uuid row := key_of_lookup hsome
      exact ⟨huuid.symm, by rw [huuid, hlookup], by rw [huuid, hsome]⟩
  · obtain ⟨row, hrow, rfl⟩ := List.mem_map.mp h
    obtain ⟨hrow, hnone⟩ := List.mem_filter.mp hrow
    exact ⟨Option.isNone_iff_eq_none.mp hnone, lookup_of_mem hnew hrow⟩

theorem lookup_eq_of_rowUpdates
    (h : ∀ update ∈ rowUpdates uuid old new, uuid update.row ≠ k) :
    lookup uuid k old = lookup uuid k new := by
  cases hlookup : lookup uuid k old with
  | none =>
    symm
    apply lookup_eq_none_iff.mpr
    rintro row hrow rfl
    refine h (.insert row) (List.mem_append_right _ ?_) rfl
    apply List.mem_map_of_mem
    exact List.mem_filter.mpr ⟨hrow, by simp [hlookup]⟩
  | some row =>
    have hrow := mem_of_lookup hlookup
    obtain rfl := key_of_lookup hlookup
    have hmem (update : RowUpdate ρ) (hupdate : rowUpdate uuid new row = some update) :
        update ∈ rowUpdates uuid old new :=
      List.mem_append_left _ (List.mem_filterMap.mpr ⟨row, hrow, hupdate⟩)
    cases hnone : lookup uuid (uuid row) new with
    | none => exact absurd rfl (h (.delete row) (hmem _ (by rw [rowUpdate, hnone])))
    | some row' =>
      by_cases heq : row = row'
      · rw [heq]
      · have huuid : uuid row' = uuid row := key_of_lookup hnone
        exact absurd huuid (h (.modify row row') (hmem _ (by simp [rowUpdate, hnone, heq])))

theorem unique_rowUpdates (hold : KeyUnique uuid old) (hnew : KeyUnique uuid new) :
    KeyUnique (fun update => uuid (RowUpdate.row update)) (rowUpdates uuid old new) := by
  have hkey (row : ρ) (update : RowUpdate ρ) (hupdate : rowUpdate uuid new row = some update) :
      uuid update.row = uuid row := by
    unfold rowUpdate at hupdate
    split at hupdate
    · obtain rfl := Option.some.inj hupdate
      rfl
    · rename_i row' hsome
      split_ifs at hupdate
      obtain rfl := Option.some.inj hupdate
      exact key_of_lookup hsome
  unfold KeyUnique rowUpdates
  rw [List.map_append, List.nodup_append]
  refine ⟨List.Nodup.sublist (map_filterMap_sublist hkey old) hold, ?_, ?_⟩
  · rw [List.map_map]
    exact hnew.filter _
  · intro k hk k' hk' heq
    subst heq
    obtain ⟨update, hupdate, rfl⟩ := List.mem_map.mp hk
    obtain ⟨row, hrow, hupdate⟩ := List.mem_filterMap.mp hupdate
    obtain ⟨inserted, hinserted, hk'⟩ := List.mem_map.mp hk'
    obtain ⟨row', hrow', rfl⟩ := List.mem_map.mp hinserted
    obtain ⟨-, hnone⟩ := List.mem_filter.mp hrow'
    rw [Option.isNone_iff_eq_none] at hnone
    exact lookup_eq_none_iff.mp hnone row hrow ((hkey row update hupdate).symm.trans hk'.symm)

end RowUpdates

/-! ## What a message makes of the view -/

section Messages

theorem OvsTable.lookup_updates {ρ α : Type} (T : OvsTable α) {uuid : ρ → Bytes} {object : ρ → α}
    {columns : List (DbColumn ρ)} {old new : List ρ} {updates : List (RowUpdate ρ)} {table : List α}
    (hjson : ∀ update : RowUpdate ρ,
      T.unpack (uuid update.row) (update.json columns) = update.change object)
    (htable : KeyUnique T.uuid table)
    (hunique : KeyUnique (fun update => uuid (RowUpdate.row update)) updates)
    (hfits : ∀ update ∈ updates, update.Fits uuid old new)
    (hrest : ∀ k, (∀ update ∈ updates, uuid update.row ≠ k) →
      lookup T.uuid k table = (lookup uuid k new).map object) (k : Bytes) :
    lookup T.uuid k (T.patchAll table
        (updates.map fun update => (uuid update.row, update.json columns))) =
      (lookup uuid k new).map object := by
  have hmembers : KeyUnique Prod.fst
      (updates.map fun update => (uuid update.row, update.json columns)) := by
    simpa [KeyUnique, Function.comp_def] using hunique
  rw [T.lookup_patchAll htable hmembers]
  split
  · rename_i member hmember
    obtain ⟨update, hupdate, rfl⟩ := List.mem_map.mp (mem_of_lookup hmember)
    have hk := key_of_lookup hmember
    dsimp only at hk
    subst hk
    have hfit := hfits update hupdate
    rw [hjson]
    cases update with
    | insert row => exact (congrArg (Option.map object) hfit.2).symm
    | modify row row' => exact (congrArg (Option.map object) hfit.2.2).symm
    | delete row => exact (congrArg (Option.map object) hfit.2).symm
  · rename_i hnone
    apply hrest
    intro update hupdate
    exact lookup_eq_none_iff.mp hnone _ (List.mem_map_of_mem hupdate)

variable (u : DbUpdate) (dbUuid : Option Bytes)

theorem lookup_jsonOfTable {ρ : Type} (table : String) {key : Bytes} {uuid : ρ → Bytes}
    {columns : List (DbColumn ρ)} {updates : List (RowUpdate ρ)} (h : ascii table ≠ key) :
    lookup Prod.fst key (DbUpdate.jsonOfTable table uuid columns updates) = none := by
  unfold DbUpdate.jsonOfTable
  split_ifs
  · rfl
  · rw [lookup_cons, if_neg h, lookup_nil]

theorem members_jsonOfTable {ρ : Type} {table : String} {uuid : ρ → Bytes}
    {columns : List (DbColumn ρ)} {updates : List (RowUpdate ρ)} :
    (((lookup Prod.fst (ascii table) (DbUpdate.jsonOfTable table uuid columns updates)).map
      Prod.snd).map Json.members).getD [] =
      updates.map fun update => (uuid update.row, update.json columns) := by
  unfold DbUpdate.jsonOfTable
  split_ifs with hempty
  · rw [List.isEmpty_iff.mp hempty]
    rfl
  · rw [lookup_cons, if_pos rfl]
    rfl

theorem lookup_jsonOfOpenVSwitch {key : Bytes} (h : ascii "Open_vSwitch" ≠ key) :
    lookup Prod.fst key (DbUpdate.jsonOfOpenVSwitch dbUuid) = none := by
  cases dbUuid with
  | some uuid => rw [DbUpdate.jsonOfOpenVSwitch, lookup_cons, if_neg h, lookup_nil]
  | none => rfl

theorem tableMembers_bridge : OvsdbTables.tableMembers (u.json dbUuid) "Bridge" =
    u.bridges.map fun update => (update.row.uuid, update.json (rowColumns "ports")) := by
  unfold OvsdbTables.tableMembers Json.objectGet DbUpdate.json
  rw [Json.members_object, lookup_append, lookup_append, lookup_append,
    lookup_jsonOfOpenVSwitch _ (by decide), lookup_jsonOfTable "Port" (by decide),
    lookup_jsonOfTable "Interface" (by decide), Option.none_or, Option.or_none, Option.or_none]
  exact members_jsonOfTable

theorem tableMembers_port : OvsdbTables.tableMembers (u.json dbUuid) "Port" =
    u.ports.map fun update => (update.row.uuid, update.json (rowColumns "interfaces")) := by
  unfold OvsdbTables.tableMembers Json.objectGet DbUpdate.json
  rw [Json.members_object, lookup_append, lookup_append, lookup_append,
    lookup_jsonOfOpenVSwitch _ (by decide), lookup_jsonOfTable "Bridge" (by decide),
    lookup_jsonOfTable "Interface" (by decide), Option.none_or, Option.none_or, Option.or_none]
  exact members_jsonOfTable

theorem tableMembers_interface : OvsdbTables.tableMembers (u.json dbUuid) "Interface" =
    u.interfaces.map fun update => (update.row.uuid, update.json interfaceColumns) := by
  unfold OvsdbTables.tableMembers Json.objectGet DbUpdate.json
  rw [Json.members_object, lookup_append, lookup_append, lookup_append,
    lookup_jsonOfOpenVSwitch _ (by decide), lookup_jsonOfTable "Bridge" (by decide),
    lookup_jsonOfTable "Port" (by decide), Option.none_or, Option.none_or, Option.none_or]
  exact members_jsonOfTable

theorem OvsTable.lookup_describes {ρ α : Type} [DecidableEq ρ] (T : OvsTable α) {uuid : ρ → Bytes}
    {object : ρ → α} {columns : List (DbColumn ρ)} {old new : List ρ} {updates : List (RowUpdate ρ)}
    {table : List α}
    (hjson : ∀ update : RowUpdate ρ,
      T.unpack (uuid update.row) (update.json columns) = update.change object)
    (htable : KeyUnique T.uuid table) (hold : KeyUnique uuid old) (hnew : KeyUnique uuid new)
    (hperm : updates.Perm (rowUpdates uuid old new))
    (hsame : ∀ k, lookup uuid k old = lookup uuid k new →
      lookup T.uuid k table = (lookup uuid k new).map object) (k : Bytes) :
    lookup T.uuid k (T.patchAll table
        (updates.map fun update => (uuid update.row, update.json columns))) =
      (lookup uuid k new).map object := by
  have hunique : KeyUnique (fun update => uuid (RowUpdate.row update)) updates :=
    (hperm.map _).nodup_iff.mpr (unique_rowUpdates hold hnew)
  have hfits : ∀ update ∈ updates, update.Fits uuid old new :=
    fun update hupdate => mem_rowUpdates hold hnew (hperm.mem_iff.mp hupdate)
  apply T.lookup_updates hjson htable hunique hfits
  intro k hk
  apply hsame
  exact lookup_eq_of_rowUpdates fun update hupdate => hk update (hperm.mem_iff.mpr hupdate)

namespace OvsdbTables

/-- The hash tables have the rows of the database. -/
structure Agrees (s : OvsdbTables) (db : OvsDatabase) : Prop where
  interfaces : ∀ uuid, lookup OpenvswitchInterface.interfaceUuid uuid s.interfaces =
    (lookup DbInterface.uuid uuid db.interfaces).map DbInterface.object
  ports : ∀ uuid, lookup OpenvswitchPort.portUuid uuid s.ports =
    (lookup DbRow.uuid uuid db.ports).map DbRow.portObject
  bridges : ∀ uuid, lookup OpenvswitchBridge.bridgeUuid uuid s.bridges =
    (lookup DbRow.uuid uuid db.bridges).map DbRow.bridgeObject

/-- No row that the hash tables have is gone from the database. -/
structure NothingGone (s : OvsdbTables) (db : OvsDatabase) : Prop where
  interfaces : ∀ row ∈ s.interfaces, (lookup DbInterface.uuid row.interfaceUuid db.interfaces).isSome
  ports : ∀ row ∈ s.ports, (lookup DbRow.uuid row.portUuid db.ports).isSome
  bridges : ∀ row ∈ s.bridges, (lookup DbRow.uuid row.bridgeUuid db.bridges).isSome

variable {s : OvsdbTables} {db db' : OvsDatabase} {u : DbUpdate} {dbUuid : Option Bytes}

theorem Agrees.gotUpdate (h : s.Agrees db) (hs : s.WellFormed) (hu : u.Describes db db') :
    (s.gotUpdate (u.json dbUuid)).Agrees db' := by
  refine ⟨fun uuid => ?_, fun uuid => ?_, fun uuid => ?_⟩
  · rw [gotUpdate_interfaces, tableMembers_interface]
    refine interfaceTable.lookup_describes unpackInterface_json hs.interfaces db.uniqueInterfaces
      db'.uniqueInterfaces hu.1 (fun k hk => ?_) uuid
    rw [← hk]
    exact h.interfaces k
  · rw [gotUpdate_ports, tableMembers_port]
    refine portTable.lookup_describes unpackPort_json hs.ports db.uniquePorts db'.uniquePorts hu.2.1
      (fun k hk => ?_) uuid
    rw [← hk]
    exact h.ports k
  · rw [gotUpdate_bridges, tableMembers_bridge]
    refine bridgeTable.lookup_describes unpackBridge_json hs.bridges db.uniqueBridges
      db'.uniqueBridges hu.2.2 (fun k hk => ?_) uuid
    rw [← hk]
    exact h.bridges k

theorem lookup_none_of_gone {ρ α : Type} {uuid : ρ → Bytes} {uuid' : α → Bytes} {new : List ρ}
    {table : List α} {k : Bytes} (h : ∀ row ∈ table, (lookup uuid (uuid' row) new).isSome)
    (hnone : lookup uuid k [] = lookup uuid k new) : lookup uuid' k table = none := by
  apply lookup_eq_none_iff.mpr
  rintro row hrow rfl
  have hsome := h row hrow
  rw [← hnone] at hsome
  cases hsome

theorem NothingGone.gotUpdate (h : s.NothingGone db) (hs : s.WellFormed)
    (hu : u.Describes .empty db) : (s.gotUpdate (u.json dbUuid)).Agrees db := by
  refine ⟨fun uuid => ?_, fun uuid => ?_, fun uuid => ?_⟩
  · rw [gotUpdate_interfaces, tableMembers_interface]
    refine interfaceTable.lookup_describes unpackInterface_json hs.interfaces unique_nil
      db.uniqueInterfaces hu.1 (fun k hk => ?_) uuid
    rw [← hk]
    exact lookup_none_of_gone h.interfaces hk
  · rw [gotUpdate_ports, tableMembers_port]
    refine portTable.lookup_describes unpackPort_json hs.ports unique_nil db.uniquePorts hu.2.1
      (fun k hk => ?_) uuid
    rw [← hk]
    exact lookup_none_of_gone h.ports hk
  · rw [gotUpdate_bridges, tableMembers_bridge]
    refine bridgeTable.lookup_describes unpackBridge_json hs.bridges unique_nil db.uniqueBridges
      hu.2.2 (fun k hk => ?_) uuid
    rw [← hk]
    exact lookup_none_of_gone h.bridges hk

/-- The hash tables have exactly the rows of the database. -/
structure Mirrors (s : OvsdbTables) (db : OvsDatabase) : Prop where
  interfaces : s.interfaces.Perm (db.interfaces.map DbInterface.object)
  ports : s.ports.Perm (db.ports.map DbRow.portObject)
  bridges : s.bridges.Perm (db.bridges.map DbRow.bridgeObject)

theorem perm_map_of_lookup {ρ α : Type} {uuid : ρ → Bytes} {uuid' : α → Bytes} {object : ρ → α}
    {rows : List ρ} {table : List α} (hobject : ∀ row, uuid' (object row) = uuid row)
    (htable : KeyUnique uuid' table) (hrows : KeyUnique uuid rows)
    (h : ∀ k, lookup uuid' k table = (lookup uuid k rows).map object) :
    table.Perm (rows.map object) := by
  have hmap : KeyUnique uuid' (rows.map object) := by
    simpa [KeyUnique, Function.comp_def, hobject] using hrows
  refine perm_of_lookup_eq htable hmap fun k => ?_
  rw [h]
  symm
  have hkey : (fun object => decide (uuid' object = k)) ∘ object = fun row => uuid row = k :=
    funext fun row => by rw [Function.comp_apply, hobject]
  rw [lookup, lookup, List.find?_map, hkey]

theorem Agrees.mirrors (h : s.Agrees db) (hs : s.WellFormed) : s.Mirrors db where
  interfaces := perm_map_of_lookup (fun _ => rfl) hs.interfaces db.uniqueInterfaces h.interfaces
  ports := perm_map_of_lookup (fun _ => rfl) hs.ports db.uniquePorts h.ports
  bridges := perm_map_of_lookup (fun _ => rfl) hs.bridges db.uniqueBridges h.bridges

instance (s : OvsdbTables) (db : OvsDatabase) : Decidable (s.NothingGone db) :=
  decidable_of_iff (_ ∧ _ ∧ _) ⟨fun h => ⟨h.1, h.2.1, h.2.2⟩, fun h => ⟨h.1, h.2, h.3⟩⟩

end OvsdbTables

end Messages

/-! ## Runs -/

namespace OvsdbReplica

/-- When all of a connection was processed the view is the database. The signals of each row
alternate, and announce what the view has. -/
structure Sound (s : OvsdbReplica) : Prop where
  replica : ∀ c, s.conn = some c → c.monitored = true → c.inFlight = [] → s.tables.Mirrors s.db
  signals : ∀ deviceType uuid,
    announced deviceType uuid s.tables.signals = some (s.tables.label uuid deviceType)

/-- When the server replies to the monitor call, no row that the view has is gone. -/
def InReach (s : OvsdbReplica) (e : OvsdbReplicaEvent) : Prop :=
  match e, s.conn with
  | .monitor _ _, some ⟨false, _⟩ => s.tables.NothingGone s.db
  | _, _ => True

/-- The messages that are not delivered take the view to the database. -/
structure Inv (s : OvsdbReplica) : Prop where
  tables : s.tables.WellFormed
  pending : ∀ c, s.conn = some c → c.monitored = true →
    (c.inFlight.foldl OvsdbTables.gotUpdate s.tables).Agrees s.db
  silent : ∀ c, s.conn = some c → c.monitored = false → c.inFlight = []

theorem start_inv (db : OvsDatabase) : (start db).Inv where
  tables := .start
  pending _ h := by cases h
  silent _ h := by cases h

theorem wellFormed_foldl {s : OvsdbTables} (h : s.WellFormed) (messages : List Json) :
    (messages.foldl OvsdbTables.gotUpdate s).WellFormed :=
  List.foldlRecOn messages _ h fun _ h msg _ => h.gotUpdate msg

namespace Inv

variable {s : OvsdbReplica}

theorem sound (h : s.Inv) : s.Sound where
  replica c hc hmonitored hempty := by
    have hagrees := h.pending c hc hmonitored
    rw [hempty] at hagrees
    exact hagrees.mirrors h.tables
  signals := h.tables.announced

theorem transact (h : s.Inv) (db : OvsDatabase) (update : DbUpdate) :
    (s.step (.transact db update)).Inv := by
  simp only [OvsdbReplica.step]
  split_ifs with hu
  swap
  · exact h
  refine ⟨h.tables, ?_, ?_⟩
  · intro c hc hmonitored
    obtain ⟨c', hc', rfl⟩ := Option.map_eq_some_iff.mp hc
    split_ifs at hmonitored ⊢ with hm
    · rw [List.foldl_append]
      exact (h.pending c' hc' hm).gotUpdate (wellFormed_foldl h.tables _) hu
    · exact absurd hmonitored hm
  · intro c hc hmonitored
    obtain ⟨c', hc', rfl⟩ := Option.map_eq_some_iff.mp hc
    split_ifs at hmonitored ⊢ with hm
    · simp [hm] at hmonitored
    · exact h.silent c' hc' hmonitored

theorem connect (h : s.Inv) : (s.step .connect).Inv := by
  refine ⟨h.tables, ?_, ?_⟩
  · intro c hc hmonitored
    cases hconn : s.conn with
    | none =>
      obtain rfl : ⟨false, []⟩ = c := by simpa [OvsdbReplica.step, hconn] using hc
      cases hmonitored
    | some c' =>
      obtain rfl : c' = c := by simpa [OvsdbReplica.step, hconn] using hc
      exact h.pending c' hconn hmonitored
  · intro c hc hmonitored
    cases hconn : s.conn with
    | none =>
      obtain rfl : ⟨false, []⟩ = c := by simpa [OvsdbReplica.step, hconn] using hc
      rfl
    | some c' =>
      obtain rfl : c' = c := by simpa [OvsdbReplica.step, hconn] using hc
      exact h.silent c' hconn hmonitored

theorem monitor (h : s.Inv) (dbUuid : Bytes) (update : DbUpdate)
    (hreach : s.InReach (.monitor dbUuid update)) : (s.step (.monitor dbUuid update)).Inv := by
  simp only [OvsdbReplica.step]
  split
  · rename_i inFlight hconn
    have hgone : s.tables.NothingGone s.db := by simpa [InReach, hconn] using hreach
    obtain rfl : inFlight = [] := h.silent _ hconn rfl
    split_ifs with hu
    · refine ⟨h.tables, ?_, ?_⟩
      · rintro c hc -
        obtain rfl := Option.some.inj hc
        exact hgone.gotUpdate h.tables hu
      · intro c hc hmonitored
        obtain rfl := Option.some.inj hc
        cases hmonitored
    · exact h
  · exact h

theorem deliver (h : s.Inv) : (s.step .deliver).Inv := by
  simp only [OvsdbReplica.step]
  split
  · rename_i monitored msg inFlight hconn
    refine ⟨h.tables.gotUpdate msg, ?_, ?_⟩
    · intro c hc hmonitored
      obtain rfl := Option.some.inj hc
      exact h.pending _ hconn hmonitored
    · intro c hc hmonitored
      obtain rfl := Option.some.inj hc
      exact absurd (h.silent _ hconn hmonitored) (by simp)
  · exact h

theorem step (h : s.Inv) (e : OvsdbReplicaEvent) (hreach : s.InReach e) : (s.step e).Inv := by
  cases e with
  | transact db update => exact h.transact db update
  | connect => exact h.connect
  | monitor dbUuid update => exact h.monitor dbUuid update hreach
  | deliver => exact h.deliver
  | disconnect =>
    exact { tables := h.tables, pending := fun _ hc => (by cases hc), silent := fun _ hc => (by cases hc) }

end Inv

theorem replica_sound (db : OvsDatabase) (events : List OvsdbReplicaEvent)
    (h : Along step InReach (start db) events) : (run db events).Sound :=
  (h.foldl (fun _ e hs hreach => hs.step e hreach) (start_inv db)).sound

instance (s : OvsdbReplica) (e : OvsdbReplicaEvent) : Decidable (s.InReach e) := by
  unfold InReach
  split <;> infer_instance

def exampleBridge : DbRow := ⟨ascii "b", ascii "br0", [], [], []⟩

def exampleDatabase : OvsDatabase := ⟨[], [], [exampleBridge], unique_nil, unique_nil, List.nodup_singleton _⟩

def renamedRun : List OvsdbReplicaEvent :=
  [.connect, .monitor (ascii "u") ⟨[], [], [.insert exampleBridge]⟩, .deliver,
    .transact ⟨[], [], [{ exampleBridge with name := ascii "br1" }], unique_nil, unique_nil,
      List.nodup_singleton _⟩ ⟨[], [], [.modify exampleBridge { exampleBridge with name := ascii "br1" }]⟩, .deliver]

theorem renamedRun_sound : (run exampleDatabase renamedRun).Sound ∧
    (run exampleDatabase renamedRun).tables.bridges.map (·.name) = [ascii "br1"] :=
  ⟨replica_sound exampleDatabase renamedRun (by decide), by decide⟩

def removedRun : List OvsdbReplicaEvent :=
  [.connect, .monitor (ascii "u") ⟨[], [], [.insert exampleBridge]⟩, .deliver, .disconnect,
    .transact .empty ⟨[], [], [.delete exampleBridge]⟩, .connect, .monitor (ascii "u") ⟨[], [], []⟩,
    .deliver]

theorem removedRun_not_sound : ¬ (run exampleDatabase removedRun).Sound := by
  intro h
  have hmirrors := h.replica ⟨true, []⟩ rfl rfl rfl
  have hlength := hmirrors.bridges.length_eq
  revert hlength
  decide

end OvsdbReplica
end NetworkManager.Core
