import NetworkManager.Core.OvsdbTables
import NetworkManager.Lib.Runs

/-!
# The database that is monitored

The database changes by transactions of anybody. A connection that is monitored gets the reply to
the monitor call with all rows, and a notification for every transaction that changes a row.
Messages are delivered in order until the connection is lost.
-/

namespace NetworkManager.Core

open Lib

/-! ## Rows -/

structure DbInterface where
  uuid : Bytes
  name : Bytes
  type : Bytes
  error : Option Bytes
  externalIds : Strdict
  otherConfig : Strdict
  deriving DecidableEq

/-- A row of the table `Port` or `Bridge`, with the uuids that it refers to. -/
structure DbRow where
  uuid : Bytes
  name : Bytes
  refs : List Bytes
  externalIds : Strdict
  otherConfig : Strdict
  deriving DecidableEq

/-- What the database holds. -/
structure OvsDatabase where
  interfaces : List DbInterface
  ports : List DbRow
  bridges : List DbRow
  uniqueInterfaces : KeyUnique DbInterface.uuid interfaces
  uniquePorts : KeyUnique DbRow.uuid ports
  uniqueBridges : KeyUnique DbRow.uuid bridges

def OvsDatabase.empty : OvsDatabase := ⟨[], [], [], unique_nil, unique_nil, unique_nil⟩

def DbInterface.object (row : DbInterface) : OpenvswitchInterface :=
  ⟨row.uuid, row.name, row.type, strdictFindKey row.externalIds ovsExternalIdNMConnectionUuid,
    row.externalIds, row.otherConfig⟩

def DbRow.portObject (row : DbRow) : OpenvswitchPort :=
  ⟨row.uuid, row.name, strdictFindKey row.externalIds ovsExternalIdNMConnectionUuid, row.refs,
    row.externalIds, row.otherConfig⟩

def DbRow.bridgeObject (row : DbRow) : OpenvswitchBridge :=
  ⟨row.uuid, row.name, strdictFindKey row.externalIds ovsExternalIdNMConnectionUuid, row.refs,
    row.externalIds, row.otherConfig⟩

/-! ## Their encoding -/

def jsonOfMap (map : Strdict) : Json :=
  .array [.string (ascii "map"),
    .array (map.map fun item => .array [.string item.1, .string item.2])]

def jsonOfUuid (uuid : Bytes) : Json := .array [.string (ascii "uuid"), .string uuid]

def jsonOfUuids : List Bytes → Json
  | [uuid] => jsonOfUuid uuid
  | uuids => .array [.string (ascii "set"), .array (uuids.map jsonOfUuid)]

def jsonOfOptional : Option Bytes → Json
  | some s => .string s
  | none => .array [.string (ascii "set"), .array []]

/-- A column of a table. -/
structure DbColumn (ρ : Type) where
  name : Bytes
  json : ρ → Json
  same : ρ → ρ → Bool

def interfaceColumns : List (DbColumn DbInterface) :=
  [⟨ascii "name", fun r => .string r.name, fun r r' => r.name = r'.name⟩,
    ⟨ascii "type", fun r => .string r.type, fun r r' => r.type = r'.type⟩,
    ⟨ascii "external_ids", fun r => jsonOfMap r.externalIds, fun r r' => r.externalIds = r'.externalIds⟩,
    ⟨ascii "other_config", fun r => jsonOfMap r.otherConfig, fun r r' => r.otherConfig = r'.otherConfig⟩,
    ⟨ascii "error", fun r => jsonOfOptional r.error, fun r r' => r.error = r'.error⟩]

/-- The columns of the tables `Port` and `Bridge`, where `refs` is the name of the uuids. -/
def rowColumns (refs : String) : List (DbColumn DbRow) :=
  [⟨ascii "name", fun r => .string r.name, fun r r' => r.name = r'.name⟩,
    ⟨ascii refs, fun r => jsonOfUuids r.refs, fun r r' => r.refs = r'.refs⟩,
    ⟨ascii "external_ids", fun r => jsonOfMap r.externalIds, fun r r' => r.externalIds = r'.externalIds⟩,
    ⟨ascii "other_config", fun r => jsonOfMap r.otherConfig, fun r r' => r.otherConfig = r'.otherConfig⟩]

/-- How a row changed. -/
inductive RowUpdate (ρ : Type)
  | insert (row : ρ)
  | modify (old new : ρ)
  | delete (row : ρ)
  deriving DecidableEq

namespace RowUpdate

variable {ρ : Type}

def jsonOfRow (columns : List (DbColumn ρ)) (row : ρ) : Json :=
  .object (columns.map fun c => (c.name, c.json row))

def jsonOfChanged (columns : List (DbColumn ρ)) (old new : ρ) : Json :=
  jsonOfRow (columns.filter fun c => !c.same old new) old

def json (columns : List (DbColumn ρ)) : RowUpdate ρ → Json
  | insert row => .object [(ascii "new", jsonOfRow columns row)]
  | modify old new => .object [(ascii "old", jsonOfChanged columns old new),
      (ascii "new", jsonOfRow columns new)]
  | delete row => .object [(ascii "old", jsonOfRow columns row)]

def row : RowUpdate ρ → ρ
  | insert row => row
  | modify _ new => new
  | delete row => row

end RowUpdate

def rowUpdate {ρ : Type} [DecidableEq ρ] (uuid : ρ → Bytes) (new : List ρ) (row : ρ) :
    Option (RowUpdate ρ) :=
  match lookup uuid (uuid row) new with
  | none => some (.delete row)
  | some row' => if row = row' then none else some (.modify row row')

/-- The rows that differ between two contents of a table. -/
def rowUpdates {ρ : Type} [DecidableEq ρ] (uuid : ρ → Bytes) (old new : List ρ) :
    List (RowUpdate ρ) :=
  old.filterMap (rowUpdate uuid new) ++
  (new.filter fun row => (lookup uuid (uuid row) old).isNone).map .insert

/-- The changes of a transaction, in the order in which a message has them. -/
structure DbUpdate where
  interfaces : List (RowUpdate DbInterface)
  ports : List (RowUpdate DbRow)
  bridges : List (RowUpdate DbRow)
  deriving DecidableEq

namespace DbUpdate

/-- The changes are those between two contents of the database. -/
def Describes (u : DbUpdate) (old new : OvsDatabase) : Prop :=
  u.interfaces.Perm (rowUpdates DbInterface.uuid old.interfaces new.interfaces) ∧
    u.ports.Perm (rowUpdates DbRow.uuid old.ports new.ports) ∧
      u.bridges.Perm (rowUpdates DbRow.uuid old.bridges new.bridges)

instance (u : DbUpdate) (old new : OvsDatabase) : Decidable (u.Describes old new) :=
  inferInstanceAs (Decidable (_ ∧ _ ∧ _))

def jsonOfTable {ρ : Type} (table : String) (uuid : ρ → Bytes) (columns : List (DbColumn ρ))
    (updates : List (RowUpdate ρ)) : List (Bytes × Json) :=
  if updates.isEmpty then []
  else [(ascii table, .object (updates.map fun update => (uuid update.row, update.json columns)))]

/-- The row of the table `Open_vSwitch`, of which no columns are monitored. -/
def jsonOfOpenVSwitch : Option Bytes → List (Bytes × Json)
  | some uuid => [(ascii "Open_vSwitch", .object [(uuid, .object [(ascii "new", .object [])])])]
  | none => []

/-- The object `<table-updates>`. The reply has the row of the table `Open_vSwitch`. -/
def json (u : DbUpdate) (dbUuid : Option Bytes) : Json :=
  .object (jsonOfOpenVSwitch dbUuid ++
    jsonOfTable "Bridge" DbRow.uuid (rowColumns "ports") u.bridges ++
    jsonOfTable "Port" DbRow.uuid (rowColumns "interfaces") u.ports ++
    jsonOfTable "Interface" DbInterface.uuid interfaceColumns u.interfaces)

end DbUpdate

/-! ## Connections -/

/-- A connection of `NMOvsdb` to the server, with the messages that are not delivered. -/
structure OvsConnection where
  monitored : Bool
  inFlight : List Json

/-- The database and the view of it. -/
structure OvsdbReplica where
  db : OvsDatabase
  conn : Option OvsConnection
  tables : OvsdbTables

inductive OvsdbReplicaEvent
  /-- A transaction of anybody. -/
  | transact (db : OvsDatabase) (update : DbUpdate)
  | connect
  /-- The server replies to the monitor call. -/
  | monitor (dbUuid : Bytes) (update : DbUpdate)
  /-- The next message is delivered. -/
  | deliver
  /-- `ovsdb_disconnect()`, with or without retry, which leaves the tables alone. -/
  | disconnect

namespace OvsdbReplica

def start (db : OvsDatabase) : OvsdbReplica := ⟨db, none, .start⟩

def step (s : OvsdbReplica) : OvsdbReplicaEvent → OvsdbReplica
  | .transact db update =>
    if update.Describes s.db db then
      { s with
        db := db
        conn := s.conn.map fun c =>
          if c.monitored then { c with inFlight := c.inFlight ++ [update.json none] } else c }
    else s
  | .connect => { s with conn := s.conn <|> some ⟨false, []⟩ }
  | .monitor dbUuid update =>
    match s.conn with
    | some ⟨false, inFlight⟩ =>
      if update.Describes .empty s.db then
        { s with conn := some ⟨true, inFlight ++ [update.json (some dbUuid)]⟩ }
      else s
    | _ => s
  | .deliver =>
    match s.conn with
    | some ⟨monitored, msg :: inFlight⟩ =>
      { s with conn := some ⟨monitored, inFlight⟩, tables := s.tables.gotUpdate msg }
    | _ => s
  | .disconnect => { s with conn := none }

def run (db : OvsDatabase) (events : List OvsdbReplicaEvent) : OvsdbReplica :=
  events.foldl step (start db)

end OvsdbReplica
end NetworkManager.Core
