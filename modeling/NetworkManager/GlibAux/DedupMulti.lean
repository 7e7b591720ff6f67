import NetworkManager.Lib.HashTable
import NetworkManager.Lib.LinkedList

/-!
# The multi-index of deduplicated objects

`NMDedupMultiIndex`: every index type splits its objects into partitions, each the linked
list of a head entry, and has at most one object of each identity in a partition. One hash
table finds both entries and heads, where a head is hashed through its first entry.

An object stands for all objects that are fully equal to it, which the multi-index interns
as one instance. A pointer to an entry or to a head is an address of its own memory.
-/

namespace NetworkManager.GlibAux

open Lib

/-- `idx_obj_partition_hash_update()` and `idx_obj_partition_equal()` -/
structure PartitionClass (O : Type) where
  hash : O → ℕ
  equal : O → O → Bool

/-- `NMDedupMultiIdxTypeClass`, where a class that does not partition has no functions for
that. -/
structure IdxTypeClass (O : Type) where
  idHash : O → ℕ
  idEqual : O → O → Bool
  partitionable : O → Bool
  partition : Option (PartitionClass O)

namespace IdxTypeClass

variable {O : Type} [DecidableEq O] (c : IdxTypeClass O)

def typeIdEqual (a b : O) : Bool := a = b ∨ c.idEqual a b

def typePartitionEqual (a b : O) : Bool :=
  match c.partition with
  | none => true
  | some p => a = b ∨ p.equal a b

def partitionHash (a : O) : List ℕ :=
  match c.partition with
  | none => []
  | some p => [p.hash a]

/-- The functions are equivalences, and the hashes respect them. -/
structure Lawful : Prop where
  id_symm : ∀ {a b : O}, c.typeIdEqual a b → c.typeIdEqual b a
  id_trans : ∀ {a b d : O}, c.typeIdEqual a b → c.typeIdEqual b d → c.typeIdEqual a d
  id_hash : ∀ {a b : O}, c.typeIdEqual a b → c.idHash a = c.idHash b
  partition_symm : ∀ {a b : O}, c.typePartitionEqual a b → c.typePartitionEqual b a
  partition_trans : ∀ {a b d : O},
    c.typePartitionEqual a b → c.typePartitionEqual b d → c.typePartitionEqual a d
  partition_hash : ∀ {a b : O}, c.typePartitionEqual a b → c.partitionHash a = c.partitionHash b

theorem typeIdEqual_self (a : O) : c.typeIdEqual a a := by
  simp [typeIdEqual]

theorem typePartitionEqual_self (a : O) : c.typePartitionEqual a a := by
  unfold typePartitionEqual
  cases c.partition <;> simp

end IdxTypeClass

/-! ## The data -/

structure DedupMultiEntry (O : Type) where
  obj : O
  dirty : Bool
  head : ℕ
  deriving DecidableEq

structure DedupMultiHeadEntry (I : Type) where
  idxType : I
  len : ℕ
  lstEntries : List ℕ
  deriving DecidableEq

structure DedupMultiIdxType where
  lstIdx : List ℕ
  len : ℕ
  deriving DecidableEq

/-- A pointer in the hash table, which is to an entry or to a head. -/
inductive EntryPtr
  | entry (a : ℕ)
  | head (p : ℕ)
  deriving DecidableEq

/-- What `_entry_unpack()` says of an entry, of a head, or of a `LookupEntry`. -/
structure UnpackedEntry (I O : Type) where
  idxType : I
  obj : O
  lookupHead : Bool
  deriving DecidableEq

/-- `NMDedupMultiIndex` with the memory of its entries and its heads. -/
structure DedupMultiIndex (I O : Type) where
  entries : ℕ → Option (DedupMultiEntry O)
  heads : ℕ → Option (DedupMultiHeadEntry I)
  idxTypes : I → DedupMultiIdxType
  idxEntries : List (ℕ × EntryPtr)
  /-- The address of the next allocation. -/
  next : ℕ

inductive DedupMultiIdxMode
  | prepend
  | prependForce
  | append
  | appendForce
  deriving DecidableEq

/-- The classes of the index types, the addresses of these, and `nm_hash_complete()`. -/
structure IdxTypes (I O : Type) where
  klass : I → IdxTypeClass O
  address : I → ℕ
  hashComplete : List ℕ → ℕ

/-- The class of every index type consists of consistent equivalences. -/
def IdxTypes.Lawful {I O : Type} [DecidableEq O] (C : IdxTypes I O) : Prop :=
  ∀ t, (C.klass t).Lawful

namespace DedupMultiIndex

variable {I O : Type}

/-- `nm_dedup_multi_index_new()`, and `nm_dedup_multi_idx_type_init()` for all types -/
def new : DedupMultiIndex I O where
  entries _ := none
  heads _ := none
  idxTypes _ := ⟨[], 0⟩
  idxEntries := []
  next := 0

/-- `_entry_unpack()` of a pointer that is not stack-allocated. -/
def entryUnpack (s : DedupMultiIndex I O) : EntryPtr → Option (UnpackedEntry I O)
  | .entry a =>
    (s.entries a).bind fun e => (s.heads e.head).map fun h => ⟨h.idxType, e.obj, false⟩
  | .head p =>
    (s.heads p).bind fun h =>
      h.lstEntries.head?.bind fun a => (s.entries a).map fun e => ⟨h.idxType, e.obj, true⟩

variable [DecidableEq I] [DecidableEq O] (C : IdxTypes I O)

def dictIdxEntriesHash (u : UnpackedEntry I O) : ℕ :=
  C.hashComplete ((C.klass u.idxType).partitionHash u.obj ++
    (if u.lookupHead then [] else [(C.klass u.idxType).idHash u.obj]) ++ [C.address u.idxType])

def dictIdxEntriesEqual (u v : UnpackedEntry I O) : Bool :=
  u.idxType = v.idxType ∧ u.lookupHead = v.lookupHead ∧
    (C.klass u.idxType).typePartitionEqual u.obj v.obj ∧
      (u.lookupHead ∨ (C.klass u.idxType).typeIdEqual u.obj v.obj)

/-- `g_hash_table_lookup()` -/
def tableFind (s : DedupMultiIndex I O) (u : UnpackedEntry I O) : Option EntryPtr :=
  tableLookup s.entryUnpack (dictIdxEntriesHash C) (dictIdxEntriesEqual C) u s.idxEntries

/-- `g_hash_table_add()` -/
def tableInsert (s : DedupMultiIndex I O) (k : EntryPtr) : DedupMultiIndex I O :=
  { s with
    idxEntries :=
      tableAdd s.entryUnpack (dictIdxEntriesHash C) (dictIdxEntriesEqual C) k s.idxEntries }

/-- `g_hash_table_remove()` -/
def tableDelete (s : DedupMultiIndex I O) (k : EntryPtr) : DedupMultiIndex I O :=
  { s with
    idxEntries :=
      tableRemove s.entryUnpack (dictIdxEntriesHash C) (dictIdxEntriesEqual C) k s.idxEntries }

def entryLookupObj (s : DedupMultiIndex I O) (t : I) (obj : O) : Option ℕ :=
  match s.tableFind C ⟨t, obj, false⟩ with
  | some (.entry a) => some a
  | _ => none

/-- `_entry_lookup_head()`, which needs no hash table if there is only one partition. -/
def entryLookupHead (s : DedupMultiIndex I O) (t : I) (obj : O) : Option ℕ :=
  match (C.klass t).partition with
  | none => (s.idxTypes t).lstIdx.head?
  | some _ =>
    match s.tableFind C ⟨t, obj, true⟩ with
    | some (.head p) => some p
    | _ => none

/-! ## Writing to the memory -/

def modifyEntry (s : DedupMultiIndex I O) (a : ℕ) (f : DedupMultiEntry O → DedupMultiEntry O) :
    DedupMultiIndex I O :=
  { s with entries := Function.update s.entries a ((s.entries a).map f) }

def modifyHead (s : DedupMultiIndex I O) (p : ℕ)
    (f : DedupMultiHeadEntry I → DedupMultiHeadEntry I) : DedupMultiIndex I O :=
  { s with heads := Function.update s.heads p ((s.heads p).map f) }

def modifyIdxType (s : DedupMultiIndex I O) (t : I) (f : DedupMultiIdxType → DedupMultiIdxType) :
    DedupMultiIndex I O :=
  { s with idxTypes := Function.update s.idxTypes t (f (s.idxTypes t)) }

def modifyList (s : DedupMultiIndex I O) (a : ℕ) (f : List ℕ → List ℕ) : DedupMultiIndex I O :=
  match s.entries a with
  | none => s
  | some e => s.modifyHead e.head fun h => { h with lstEntries := f h.lstEntries }

def entrySetDirty (s : DedupMultiIndex I O) (a : ℕ) (dirty : Bool) : DedupMultiIndex I O :=
  s.modifyEntry a fun e => { e with dirty := dirty }

def entryReorder (s : DedupMultiIndex I O) (a : ℕ) (order : Option ℕ) (orderAfter : Bool) :
    DedupMultiIndex I O :=
  s.modifyList a fun l =>
    match order, orderAfter with
    | none, true => moveTail a l
    | none, false => moveFront a l
    | some b, true => moveAfter b a l
    | some b, false => moveBefore b a l

/-! ## Adding -/

/-- Where `_add()` moves an entry that exists. -/
def moveEntry (mode : DedupMultiIdxMode) (order : Option ℕ) (a : ℕ) (l : List ℕ) : List ℕ :=
  match mode, order with
  | .prependForce, some b => moveBefore b a l
  | .prependForce, none => moveFront a l
  | .appendForce, some b => moveAfter b a l
  | .appendForce, none => moveTail a l
  | .prepend, _ => l
  | .append, _ => l

/-- Where `_add()` links a new entry. -/
def linkEntry (mode : DedupMultiIdxMode) (order : Option ℕ) (a : ℕ) (l : List ℕ) : List ℕ :=
  match mode, order with
  | .prepend, some b => linkBefore b a l
  | .prependForce, some b => linkBefore b a l
  | .prepend, none => a :: l
  | .prependForce, none => a :: l
  | .append, some b => linkAfter b a l
  | .appendForce, some b => linkAfter b a l
  | .append, none => l ++ [a]
  | .appendForce, none => l ++ [a]

/-- `_add()` for an entry that exists: move it if that is forced, and replace its object. -/
def addExisting (s : DedupMultiIndex I O) (a : ℕ) (obj : O) (mode : DedupMultiIdxMode)
    (order : Option ℕ) : DedupMultiIndex I O :=
  ((s.entrySetDirty a false).modifyList a (moveEntry mode order a)).modifyEntry a
    fun e => { e with obj := obj }

/-- Allocate a head entry without entries, and link it. -/
def newHead (s : DedupMultiIndex I O) (t : I) : DedupMultiIndex I O :=
  { s with
    heads := Function.update s.heads s.next (some ⟨t, 0, []⟩)
    idxTypes :=
      Function.update s.idxTypes t
        { s.idxTypes t with lstIdx := (s.idxTypes t).lstIdx ++ [s.next] }
    next := s.next + 1 }

/-- Allocate an entry of the head `p`, link it, and count it. -/
def linkNewEntry (s : DedupMultiIndex I O) (t : I) (p : ℕ) (obj : O) (mode : DedupMultiIdxMode)
    (order : Option ℕ) : DedupMultiIndex I O :=
  let a := s.next
  { ((s.modifyHead p fun h =>
        { h with len := h.len + 1, lstEntries := linkEntry mode order a h.lstEntries }).modifyIdxType
      t fun i => { i with len := i.len + 1 }) with
    entries := Function.update s.entries a (some ⟨obj, false, p⟩)
    next := s.next + 1 }

/-- `_add()` for an object that has no entry yet. -/
def addNew (s : DedupMultiIndex I O) (t : I) (obj : O) (mode : DedupMultiIdxMode)
    (order : Option ℕ) : DedupMultiIndex I O :=
  match s.entryLookupHead C t obj with
  | some p => ((s.linkNewEntry t p obj mode order).tableInsert C) (.entry s.next)
  | none =>
    let p := s.next
    let s := s.newHead t
    let a := s.next
    (((s.linkNewEntry t p obj mode order).tableInsert C) (.head p)).tableInsert C (.entry a)

/-- `nm_dedup_multi_index_add_full()`, which looks up the existing entry and its head, and
returns the entry of the object. -/
def addFull (s : DedupMultiIndex I O) (t : I) (obj : O) (mode : DedupMultiIdxMode)
    (order : Option ℕ) : DedupMultiIndex I O :=
  match s.entryLookupObj C t obj with
  | some a => s.addExisting a obj mode order
  | none => if (C.klass t).partitionable obj then s.addNew C t obj mode order else s

/-! ## Removing -/

def freeEntry (s : DedupMultiIndex I O) (a p : ℕ) : DedupMultiIndex I O :=
  { s.modifyHead p fun h => { h with lstEntries := h.lstEntries.erase a } with
    entries := Function.update s.entries a none }

def freeHead (s : DedupMultiIndex I O) (t : I) (p : ℕ) : DedupMultiIndex I O :=
  { s.modifyIdxType t fun i => { i with lstIdx := i.lstIdx.erase p } with
    heads := Function.update s.heads p none }

/-- `_remove_entry()`, and `out_head_entry_removed`. The length of the index type is only
counted down if the head stays. -/
def removeEntry (s : DedupMultiIndex I O) (a : ℕ) : DedupMultiIndex I O × Bool :=
  match s.entries a with
  | none => (s, false)
  | some e =>
    match s.heads e.head with
    | none => (s, false)
    | some h =>
      let s := s.modifyHead e.head fun h => { h with len := h.len - 1 }
      if h.len - 1 > 0 then
        let s := s.modifyIdxType h.idxType fun i => { i with len := i.len - 1 }
        ((s.tableDelete C (.entry a)).freeEntry a e.head, false)
      else
        let s := (s.tableDelete C (.entry a)).tableDelete C (.head e.head)
        ((s.freeEntry a e.head).freeHead h.idxType e.head, true)

/-- Whether `_remove_head()` removes the entry. -/
def doomed (s : DedupMultiIndex I O) (removeAll : Bool) (a : ℕ) : Bool :=
  removeAll || (s.entries a).any fun e => e.dirty

/-- The loop of `_remove_head()` over the entries, which ends when the head is gone. -/
def removeHeadLoop (removeAll markSurvivorsDirty : Bool) :
    List ℕ → DedupMultiIndex I O → DedupMultiIndex I O
  | [], s => s
  | a :: as, s =>
    if s.doomed removeAll a then
      let r := s.removeEntry C a
      if r.2 then r.1 else removeHeadLoop removeAll markSurvivorsDirty as r.1
    else
      removeHeadLoop removeAll markSurvivorsDirty as
        (if markSurvivorsDirty then s.entrySetDirty a true else s)

def removeHeadEntry (s : DedupMultiIndex I O) (p : ℕ) (removeAll markSurvivorsDirty : Bool) :
    DedupMultiIndex I O :=
  match s.heads p with
  | none => s
  | some h => removeHeadLoop C removeAll markSurvivorsDirty h.lstEntries s

def removeIdxEntry (s : DedupMultiIndex I O) (t : I) (removeAll markSurvivorsDirty : Bool) :
    DedupMultiIndex I O :=
  (s.idxTypes t).lstIdx.foldl (fun s p => s.removeHeadEntry C p removeAll markSurvivorsDirty) s

def dirtySetHeadEntry (s : DedupMultiIndex I O) (p : ℕ) : DedupMultiIndex I O :=
  match s.heads p with
  | none => s
  | some h => h.lstEntries.foldl (fun s a => s.entrySetDirty a true) s

/-! ## The operations -/

/-- The public operations that change a multi-index. -/
inductive Op (I O : Type)
  /-- `nm_dedup_multi_index_add()` and `nm_dedup_multi_index_add_full()` -/
  | addFull (t : I) (obj : O) (mode : DedupMultiIdxMode) (order : Option ℕ)
  /-- `nm_dedup_multi_index_remove_entry()` of an entry -/
  | removeEntry (a : ℕ)
  /-- `nm_dedup_multi_index_remove_entry()` of a head -/
  | removeHeadEntry (p : ℕ)
  | removeObj (t : I) (obj : O)
  | removeHead (t : I) (obj : O)
  | removeIdx (t : I)
  | dirtySetHead (t : I) (obj : O)
  | dirtySetIdx (t : I)
  | dirtyRemoveIdx (t : I) (markSurvivorsDirty : Bool)
  | entrySetDirty (a : ℕ) (dirty : Bool)
  | entryReorder (a : ℕ) (order : Option ℕ) (orderAfter : Bool)

def step (s : DedupMultiIndex I O) : Op I O → DedupMultiIndex I O
  | .addFull t obj mode order => s.addFull C t obj mode order
  | .removeEntry a => (s.removeEntry C a).1
  | .removeHeadEntry p => s.removeHeadEntry C p true false
  | .removeObj t obj =>
    match s.entryLookupObj C t obj with
    | none => s
    | some a => (s.removeEntry C a).1
  | .removeHead t obj =>
    match s.entryLookupHead C t obj with
    | none => s
    | some p => s.removeHeadEntry C p true false
  | .removeIdx t => s.removeIdxEntry C t true false
  | .dirtySetHead t obj =>
    match s.entryLookupHead C t obj with
    | none => s
    | some p => s.dirtySetHeadEntry p
  | .dirtySetIdx t => (s.idxTypes t).lstIdx.foldl (fun s p => s.dirtySetHeadEntry p) s
  | .dirtyRemoveIdx t markSurvivorsDirty => s.removeIdxEntry C t false markSurvivorsDirty
  | .entrySetDirty a dirty => s.entrySetDirty a dirty
  | .entryReorder a order orderAfter => s.entryReorder a order orderAfter

/-- What the callers promise: an entry to order next to is in the same list. -/
def OpValid (s : DedupMultiIndex I O) : Op I O → Prop
  | .addFull t obj _ order =>
    ∀ b ∈ order, ∃ e h, s.entries b = some e ∧ s.heads e.head = some h ∧ h.idxType = t ∧
      (C.klass t).typePartitionEqual e.obj obj
  | .entryReorder a order _ =>
    ∀ b ∈ order, ∃ e e', s.entries a = some e ∧ s.entries b = some e' ∧ e'.head = e.head
  | _ => True

end DedupMultiIndex

end NetworkManager.GlibAux
