import NetworkManager.Lib.Json
import NetworkManager.Core.Types

/-!
# The view of the OVSDB

`NMOvsdb` keeps a hash table for the rows of each of the tables `Interface`, `Port` and `Bridge`.
The reply to its monitor call and every update notification patch them.
-/

namespace NetworkManager.Core

open Lib

/-- An array of `NMUtilsNamedValue`, which is `NULL` where there is none. -/
abbrev Strdict := List (Bytes × Bytes)

structure OpenvswitchInterface where
  interfaceUuid : Bytes
  name : Bytes
  type : Bytes
  connectionUuid : Option Bytes
  externalIds : Strdict
  otherConfig : Strdict
  deriving DecidableEq

structure OpenvswitchPort where
  portUuid : Bytes
  name : Bytes
  connectionUuid : Option Bytes
  interfaces : List Bytes
  externalIds : Strdict
  otherConfig : Strdict
  deriving DecidableEq

structure OpenvswitchBridge where
  bridgeUuid : Bytes
  name : Bytes
  connectionUuid : Option Bytes
  ports : List Bytes
  externalIds : Strdict
  otherConfig : Strdict
  deriving DecidableEq

/-- The device types of the tables. -/
inductive OvsDeviceType
  | interface
  | port
  | bridge
  deriving DecidableEq

/-- What a device is announced with: its name, and the type of an interface. -/
structure OvsLabel where
  name : Bytes
  subtype : Option Bytes
  deriving DecidableEq

/-- A signal of `NMOvsdb`. The uuid of the row is only a record. -/
inductive OvsdbSignal
  | deviceAdded (deviceType : OvsDeviceType) (uuid : Bytes) (label : OvsLabel)
  | deviceRemoved (deviceType : OvsDeviceType) (uuid : Bytes) (label : OvsLabel)
  | interfaceFailed (name : Bytes) (connectionUuid : Option Bytes) (error : Bytes)
  deriving DecidableEq

/-- The hash tables, and the signals that were emitted. -/
structure OvsdbTables where
  interfaces : List OpenvswitchInterface
  ports : List OpenvswitchPort
  bridges : List OpenvswitchBridge
  dbUuid : Option Bytes
  signals : List OvsdbSignal
  deriving DecidableEq

/-! ## Values of columns -/

mutual

def uuidsToArray : Json → List Bytes
  | .array items => uuidsOfItems items
  | _ => []

/-- The loop of `_uuids_to_array_inplace()`, which ends where no key and value are left. -/
def uuidsOfItems : List Json → List Bytes
  | .string key :: value :: rest =>
    (if key = ascii "uuid" then
      match value with
      | .string s => [s]
      | _ => []
    else if key = ascii "set" then
      match value with
      | .array values => uuidsOfSet values
      | _ => []
    else []) ++ uuidsOfItems rest
  | _ => []

def uuidsOfSet : List Json → List Bytes
  | [] => []
  | value :: values => uuidsToArray value ++ uuidsOfSet values

end

def strdictItem (value : Json) : Option (Bytes × Bytes) :=
  match (value.arrayGet 0).bind Json.stringValue, (value.arrayGet 1).bind Json.stringValue with
  | some key, some val => some (key, val)
  | _, _ => none

def strdictExtract (strdict : Json) : Strdict :=
  if (strdict.arrayGet 0).bind Json.stringValue = some (ascii "map") then
    (((strdict.arrayGet 1).map Json.items).getD []).filterMap strdictItem
  else []

def strdictFindKey (array : Strdict) (key : Bytes) : Option Bytes :=
  (array.find? (·.1 = key)).map (·.2)

def ovsExternalIdNMConnectionUuid : Bytes := ascii "NM.connection.uuid"

/-! ## Changes of rows -/

/-- What the members of a value that unpack say. -/
inductive RowChange (ρ : Type)
  /-- There is a new row. -/
  | new (row : ρ)
  /-- There is only an old row. -/
  | old
  | neither
  deriving DecidableEq

def unpackOld {ρ : Type} (value : Json) : RowChange ρ :=
  match value.objectGet (ascii "old") with
  | some old => if old.isObject then .old else .neither
  | none => .neither

def unpackRow {ρ : Type} (new : Option ρ) (value : Json) : RowChange ρ :=
  match new with
  | some row => .new row
  | none => unpackOld value

/-- The columns that all tables have. -/
structure OvsColumns where
  name : Bytes
  externalIds : Strdict
  otherConfig : Strdict

def unpackColumns (new : Json) : Option OvsColumns := do
  let name ← (← new.objectGet (ascii "name")).stringValue
  let externalIds ← new.objectGet (ascii "external_ids")
  let otherConfig ← new.objectGet (ascii "other_config")
  return ⟨name, strdictExtract externalIds, strdictExtract otherConfig⟩

def OvsColumns.connectionUuid (columns : OvsColumns) : Option Bytes :=
  strdictFindKey columns.externalIds ovsExternalIdNMConnectionUuid

def unpackNewInterface (key : Bytes) (value : Json) : Option OpenvswitchInterface := do
  let new ← value.objectGet (ascii "new")
  let columns ← unpackColumns new
  let type ← (← new.objectGet (ascii "type")).stringValue
  return ⟨key, columns.name, type, columns.connectionUuid, columns.externalIds, columns.otherConfig⟩

def unpackInterface (key : Bytes) (value : Json) : RowChange OpenvswitchInterface :=
  unpackRow (unpackNewInterface key value) value

def unpackError (value : Json) : Option Bytes := do
  (← (← value.objectGet (ascii "new")).objectGet (ascii "error")).stringValue

def unpackNewPort (key : Bytes) (value : Json) : Option OpenvswitchPort := do
  let new ← value.objectGet (ascii "new")
  let columns ← unpackColumns new
  let items ← new.objectGet (ascii "interfaces")
  return ⟨key, columns.name, columns.connectionUuid, uuidsToArray items, columns.externalIds,
    columns.otherConfig⟩

def unpackPort (key : Bytes) (value : Json) : RowChange OpenvswitchPort :=
  unpackRow (unpackNewPort key value) value

def unpackNewBridge (key : Bytes) (value : Json) : Option OpenvswitchBridge := do
  let new ← value.objectGet (ascii "new")
  let columns ← unpackColumns new
  let items ← new.objectGet (ascii "ports")
  return ⟨key, columns.name, columns.connectionUuid, uuidsToArray items, columns.externalIds,
    columns.otherConfig⟩

def unpackBridge (key : Bytes) (value : Json) : RowChange OpenvswitchBridge :=
  unpackRow (unpackNewBridge key value) value

/-! ## Patches -/

namespace OpenvswitchInterface

def label (row : OpenvswitchInterface) : OvsLabel := ⟨row.name, some row.type⟩

/-- An object that is kept takes over what changed. -/
def update (row new : OpenvswitchInterface) : OpenvswitchInterface :=
  { row with
    type := new.type
    connectionUuid := new.connectionUuid
    externalIds := if row.externalIds = new.externalIds then row.externalIds else new.externalIds
    otherConfig := if row.otherConfig = new.otherConfig then row.otherConfig else new.otherConfig }

end OpenvswitchInterface

namespace OpenvswitchPort

def label (row : OpenvswitchPort) : OvsLabel := ⟨row.name, none⟩

def update (row new : OpenvswitchPort) : OpenvswitchPort :=
  { row with
    name := new.name
    connectionUuid := new.connectionUuid
    interfaces := if row.interfaces = new.interfaces then row.interfaces else new.interfaces
    externalIds := if row.externalIds = new.externalIds then row.externalIds else new.externalIds
    otherConfig := if row.otherConfig = new.otherConfig then row.otherConfig else new.otherConfig }

end OpenvswitchPort

namespace OpenvswitchBridge

def label (row : OpenvswitchBridge) : OvsLabel := ⟨row.name, none⟩

def update (row new : OpenvswitchBridge) : OpenvswitchBridge :=
  { row with
    name := new.name
    connectionUuid := new.connectionUuid
    ports := if row.ports = new.ports then row.ports else new.ports
    externalIds := if row.externalIds = new.externalIds then row.externalIds else new.externalIds
    otherConfig := if row.otherConfig = new.otherConfig then row.otherConfig else new.otherConfig }

end OpenvswitchBridge

section Patch

variable {ρ : Type} (uuid : ρ → Bytes) (label : ρ → OvsLabel) (update : ρ → ρ → ρ)
  (deviceType : OvsDeviceType)

/-- One round of a loop of `ovsdb_got_update()`: the table, and the signals. An object whose name or
type differs is replaced. -/
def patchRow (key : Bytes) (change : RowChange ρ) (table : List ρ) : List ρ × List OvsdbSignal :=
  match change, lookup uuid key table with
  | .neither, _ => (table, [])
  | .old, none => (table, [])
  | .old, some row => (eraseKey uuid key table, [.deviceRemoved deviceType key (label row)])
  | .new new, none => (put uuid new table, [.deviceAdded deviceType key (label new)])
  | .new new, some row =>
    if label row ≠ label new then
      (put uuid new (eraseKey uuid key table),
        [.deviceRemoved deviceType key (label row), .deviceAdded deviceType key (label new)])
    else (modifyKey uuid key (update · new) table, [])

end Patch

namespace OvsdbTables

def start : OvsdbTables := ⟨[], [], [], none, []⟩

/-- An interface that has an error is reported. -/
def failedSignals (change : RowChange OpenvswitchInterface) (error : Option Bytes) :
    List OvsdbSignal :=
  match change, error with
  | .new row, some error => [.interfaceFailed row.name row.connectionUuid error]
  | _, _ => []

/-- The first loop of `ovsdb_got_update()` -/
def patchInterface (s : OvsdbTables) (member : Bytes × Json) : OvsdbTables :=
  let change := unpackInterface member.1 member.2
  let (table, signals) := patchRow OpenvswitchInterface.interfaceUuid OpenvswitchInterface.label
    OpenvswitchInterface.update .interface member.1 change s.interfaces
  { s with
    interfaces := table
    signals := s.signals ++ signals ++ failedSignals change (unpackError member.2) }

/-- The second loop of `ovsdb_got_update()` -/
def patchPort (s : OvsdbTables) (member : Bytes × Json) : OvsdbTables :=
  let (table, signals) := patchRow OpenvswitchPort.portUuid OpenvswitchPort.label
    OpenvswitchPort.update .port member.1 (unpackPort member.1 member.2) s.ports
  { s with ports := table, signals := s.signals ++ signals }

/-- The third loop of `ovsdb_got_update()` -/
def patchBridge (s : OvsdbTables) (member : Bytes × Json) : OvsdbTables :=
  let (table, signals) := patchRow OpenvswitchBridge.bridgeUuid OpenvswitchBridge.label
    OpenvswitchBridge.update .bridge member.1 (unpackBridge member.1 member.2) s.bridges
  { s with bridges := table, signals := s.signals ++ signals }

def tableMembers (msg : Json) (table : String) : List (Bytes × Json) :=
  ((msg.objectGet (ascii table)).map Json.members).getD []

def gotUpdate (s : OvsdbTables) (msg : Json) : OvsdbTables :=
  let s := { s with
    dbUuid := ((tableMembers msg "Open_vSwitch").head?.map (·.1)).or s.dbUuid }
  let s := (tableMembers msg "Interface").foldl patchInterface s
  let s := (tableMembers msg "Port").foldl patchPort s
  (tableMembers msg "Bridge").foldl patchBridge s

end OvsdbTables
end NetworkManager.Core
