import NetworkManager.Lib.Bytes
import NetworkManager.Lib.Compare

/-!
# Storages of the settings plugins

A UUID may have several storages: profiles and tombstones, in `/run`, `/etc` and `/usr/lib`, of
several plugins. `NMSettings` keeps a sorted list of them for each UUID and exposes the first one.
The storages themselves belong to the plugins and change in place, so that the lists only refer to
them.
-/

namespace NetworkManager.Core

open Lib

/-! ## Storages -/

/-- `struct timespec` -/
structure Timespec where
  tvSec : ℤ
  tvNsec : ℤ
deriving DecidableEq

/-- `conn_data` of a keyfile storage -/
structure ConnData where
  shadowedStorage : Option Bytes
  statMtime : Timespec
  isNmGenerated : Bool
  isVolatile : Bool
  isExternal : Bool
  shadowedOwned : Bool
deriving DecidableEq

structure MetaData where
  shadowedStorage : Option Bytes
  isTombstone : Bool
deriving DecidableEq

/-- The union of a keyfile storage, told apart by `is_meta_data`. -/
inductive KeyfileContent where
  | connData (d : ConnData)
  | metaData (d : MetaData)
deriving DecidableEq

def KeyfileContent.isMetaData : KeyfileContent → Bool
  | .connData _ => false
  | .metaData _ => true

/-- The class of a storage, with what it adds to `NMSettingsStorage`. The storages of ifupdown are
of the base class. -/
inductive StorageClass where
  | keyfile (storageType : ℕ) (content : KeyfileContent)
  | ifcfgRh (statMtime : Timespec)
  | base
deriving DecidableEq

/-- `G_OBJECT_GET_CLASS()` -/
def StorageClass.type : StorageClass → ℕ
  | .keyfile .. => 0
  | .ifcfgRh .. => 1
  | .base => 2

/-- `NMSettingsStorage`. The plugin tracks the storage as long as `linked` is set. -/
structure SettingsStorage where
  plugin : ℕ
  uuid : Bytes
  filename : Option Bytes
  linked : Bool
  klass : StorageClass
deriving DecidableEq

def storageTypeRun : ℕ := 1

def storageTypeEtc : ℕ := 2

def storageTypeLibBase : ℕ := 3

def SettingsStorage.isKeyfileRun (s : SettingsStorage) : Bool :=
  match s.klass with
  | .keyfile storageType _ => storageType = storageTypeRun
  | _ => false

def SettingsStorage.isMetaData (s : SettingsStorage) : Option MetaData :=
  match s.klass with
  | .keyfile _ (.metaData d) => some d
  | _ => none

def SettingsStorage.isMetaDataAlive (s : SettingsStorage) : Option MetaData :=
  if s.linked then s.isMetaData else none

/-! ## Their order -/

def gSlistIndex (l : List ℕ) (a : ℕ) : ℤ := if a ∈ l then l.idxOf a else -1

def settingsPluginCmpByPriority (a b : ℕ) (pluginList : List ℕ) : Ordering :=
  if a ≠ b then compare (gSlistIndex pluginList b) (gSlistIndex pluginList a) else .eq

/-- `cmp_fcn()` of the class. Storages of different classes are not compared. -/
def storageCmpFcn (a b : SettingsStorage) : Ordering :=
  match a.klass, b.klass with
  | .keyfile ta ca, .keyfile tb cb =>
    cmpSeq [compare tb ta, compare ca.isMetaData cb.isMetaData,
      match ca, cb with
      | .metaData da, .metaData db => compare da.isTombstone db.isTombstone
      | .connData da, .connData db =>
        cmpSeq [compare da.statMtime.tvSec db.statMtime.tvSec,
          compare da.statMtime.tvNsec db.statMtime.tvNsec, compare a.filename b.filename]
      | _, _ => .eq]
  | .ifcfgRh ma, .ifcfgRh mb =>
    cmpSeq [compare ma.tvSec mb.tvSec, compare ma.tvNsec mb.tvNsec,
      compare a.filename b.filename]
  | _, _ => .eq

def settingsStorageCmp (a b : SettingsStorage) (pluginList : List ℕ) : Ordering :=
  cmpSeq [compare a.isKeyfileRun b.isKeyfileRun,
    settingsPluginCmpByPriority a.plugin b.plugin pluginList, storageCmpFcn a b]

/-! ## The storages of a UUID -/

/-- `StorageData`. The storage is a pointer, and so is the connection. -/
structure StorageData where
  storage : ℕ
  connection : Option ℕ
  prioritize : Bool
deriving DecidableEq

/-- The storage pointers, dereferenced. -/
abbrev Storages := ℕ → SettingsStorage

section

variable (storages : Storages) (plugins : List ℕ)

def StorageData.isAlive (sd : StorageData) : Bool :=
  sd.connection.isSome || (storages sd.storage).isMetaDataAlive.isSome

def sdsUpdateCmpAscending (a b : StorageData) : Ordering :=
  let metaDataA := (storages a.storage).isMetaData
  let metaDataB := (storages b.storage).isMetaData
  let isKeyfileRunA := (storages a.storage).isKeyfileRun
  let isKeyfileRunB := (storages b.storage).isKeyfileRun
  cmpSeq [
    if isKeyfileRunA ≠ isKeyfileRunB then
      cmpSeq [
        if metaDataA.isNone ∧ metaDataB.isNone then compare a.prioritize b.prioritize else .eq,
        compare isKeyfileRunA isKeyfileRunB]
    else .eq,
    compare (metaDataA.any MetaData.isTombstone) (metaDataB.any MetaData.isTombstone),
    compare a.prioritize b.prioritize,
    settingsStorageCmp (storages a.storage) (storages b.storage) plugins]

/-- `_sett_conn_entry_sds_update_cmp()`: the most important storage comes first. -/
def sdsUpdateCmp (a b : StorageData) : Ordering := sdsUpdateCmpAscending storages plugins b a

/-- The storages of a `SettConnEntry`. -/
structure StorageLists where
  sdLst : List StorageData
  dirtySdLst : List StorageData

/-- `c_list_sort()`, a stable merge sort that splits lists in the middle -/
def cListSort {α : Type*} (cmp : α → α → Ordering) (lst : List α) : List α :=
  lst.mergeSort fun a b => (cmp a b).isLE

/-- Take over the updates of the tracked storages. What is left of the dirty list is new. -/
def mergeDirty (reprioritize : Bool) :
    List StorageData → List StorageData → List StorageData × List StorageData
  | [], dirty => ([], dirty)
  | sd :: sds, dirty =>
    match dirty.find? fun sdDirty => sdDirty.storage = sd.storage with
    | none =>
      let rest := mergeDirty reprioritize sds dirty
      ((if reprioritize then { sd with prioritize := false } else sd) :: rest.1, rest.2)
    | some sdDirty =>
      let rest := mergeDirty reprioritize sds
        (dirty.eraseP fun sdDirty => sdDirty.storage = sd.storage)
      ({ sd with
          connection := sdDirty.connection
          prioritize := sdDirty.prioritize } :: rest.1, rest.2)

def sdsUpdate (e : StorageLists) : StorageLists :=
  let reprioritize := e.dirtySdLst.any StorageData.prioritize
  let merged := mergeDirty reprioritize e.sdLst e.dirtySdLst
  let alive := (merged.1 ++ merged.2).filter fun sd => sd.isAlive storages
  { sdLst := cListSort (sdsUpdateCmp storages plugins) alive
    dirtySdLst := [] }

def connectionChangedTrack (storage : ℕ) (connection : Option ℕ) (prioritize : Bool)
    (e : StorageLists) : StorageLists :=
  let dirty :=
    if e.dirtySdLst.any fun sd => sd.storage = storage then
      e.dirtySdLst.map fun sd => if sd.storage = storage then { sd with connection } else sd
    else e.dirtySdLst ++ [{ storage, connection, prioritize := false }]
  { e with
    dirtySdLst :=
      if prioritize then dirty.map fun sd => { sd with prioritize := sd.storage = storage }
      else dirty }

end

/-!
## Which storage of a UUID wins

Storages are ordered by three flags first: whether they are in `/run`, whether they are tombstones,
and whether they are prioritized. Three kinds of storages are ordered in a circle. Storages without
them are ordered, and which of them wins does not depend on the events that brought them.
-/

open Std (TransCmp LawfulEqOrd)

/-! ## Storages of equal flags -/

section

variable {a b : SettingsStorage} {pluginList : List ℕ}

def StorageClass.storageType : StorageClass → ℕ
  | .keyfile storageType _ => storageType
  | _ => 0

def StorageClass.mtime : StorageClass → Timespec
  | .keyfile _ (.connData d) => d.statMtime
  | .ifcfgRh statMtime => statMtime
  | _ => ⟨0, 0⟩

/-- The name of a profile's file. -/
def SettingsStorage.profileName (s : SettingsStorage) : Option Bytes :=
  match s.klass with
  | .keyfile _ (.connData _) => s.filename
  | .ifcfgRh _ => s.filename
  | _ => none

def SettingsStorage.isTombstone (s : SettingsStorage) : Bool :=
  s.isMetaData.any MetaData.isTombstone

theorem storageCmpFcn_of_type (a b : SettingsStorage) :
    (compare a.klass.type b.klass.type).then (storageCmpFcn a b) =
      cmpSeq [compare a.klass.type b.klass.type, compare b.klass.storageType a.klass.storageType,
        compare a.isMetaData.isSome b.isMetaData.isSome, compare a.isTombstone b.isTombstone,
        compare a.klass.mtime.tvSec b.klass.mtime.tvSec,
        compare a.klass.mtime.tvNsec b.klass.mtime.tvNsec,
        compare a.profileName b.profileName] := by
  obtain ⟨pa, ua, fa, la, ka⟩ := a
  obtain ⟨pb, ub, fb, lb, kb⟩ := b
  cases ka with
  | keyfile ta ca =>
    cases kb with
    | keyfile tb cb =>
      have hlt (o : Ordering) : (compare false true).then o = compare false true := rfl
      have hgt (o : Ordering) : (compare true false).then o = compare true false := rfl
      cases ca <;> cases cb <;>
        simp [storageCmpFcn, StorageClass.type, StorageClass.storageType, StorageClass.mtime,
          SettingsStorage.isMetaData, SettingsStorage.isTombstone, SettingsStorage.profileName,
          KeyfileContent.isMetaData, cmpSeq, Std.compare_self, hlt, hgt]
    | ifcfgRh mb => rfl
    | base => rfl
  | ifcfgRh ma =>
    cases kb with
    | keyfile tb cb => rfl
    | ifcfgRh mb =>
      simp [storageCmpFcn, StorageClass.type, StorageClass.storageType, StorageClass.mtime,
        SettingsStorage.isMetaData, SettingsStorage.isTombstone, SettingsStorage.profileName,
        cmpSeq, Std.compare_self]
    | base => rfl
  | base => cases kb <;> rfl

/-- The comparison of `nm_settings_storage_cmp()` for storages of listed plugins, where the class
is that of the plugin. -/
def storageOrder (pluginList : List ℕ) (a b : SettingsStorage) : Ordering :=
  (compare a.isKeyfileRun b.isKeyfileRun).then
    ((compare (gSlistIndex pluginList b.plugin) (gSlistIndex pluginList a.plugin)).then
      ((compare a.klass.type b.klass.type).then (storageCmpFcn a b)))

theorem transCmp_storageOrder (pluginList : List ℕ) : TransCmp (storageOrder pluginList) := by
  have hrev {f : SettingsStorage → ℤ} : TransCmp fun a b => compare (f b) (f a) :=
    have := transCmp_on f
    TransCmp.opposite
  have hrev' {f : SettingsStorage → ℕ} : TransCmp fun a b => compare (f b) (f a) :=
    have := transCmp_on f
    TransCmp.opposite
  apply transCmp_then (transCmp_on SettingsStorage.isKeyfileRun)
  apply transCmp_then hrev
  simp only [storageCmpFcn_of_type]
  apply transCmp_cons (transCmp_on fun s : SettingsStorage => s.klass.type)
  apply transCmp_cons hrev'
  apply transCmp_cons (transCmp_on fun s : SettingsStorage => s.isMetaData.isSome)
  apply transCmp_cons (transCmp_on SettingsStorage.isTombstone)
  apply transCmp_cons (transCmp_on fun s : SettingsStorage => s.klass.mtime.tvSec)
  apply transCmp_cons (transCmp_on fun s : SettingsStorage => s.klass.mtime.tvNsec)
  exact transCmp_cons (transCmp_on SettingsStorage.profileName) transCmp_nil

theorem settingsPluginCmpByPriority_eq (p q : ℕ) :
    settingsPluginCmpByPriority p q pluginList =
      compare (gSlistIndex pluginList q) (gSlistIndex pluginList p) := by
  unfold settingsPluginCmpByPriority
  split_ifs with h
  · rfl
  · rw [not_not.mp h, Std.compare_self]

theorem eq_of_gSlistIndex {p q : ℕ} (hp : p ∈ pluginList) (hq : q ∈ pluginList)
    (h : gSlistIndex pluginList p = gSlistIndex pluginList q) : p = q := by
  rw [gSlistIndex, gSlistIndex, if_pos hp, if_pos hq] at h
  exact (List.idxOf_inj hp).mp (Int.ofNat_inj.mp h)

theorem settingsStorageCmp_eq (ha : a.plugin ∈ pluginList) (hb : b.plugin ∈ pluginList)
    (hclass : a.plugin = b.plugin → a.klass.type = b.klass.type) :
    settingsStorageCmp a b pluginList = storageOrder pluginList a b := by
  unfold settingsStorageCmp storageOrder
  rw [cmpSeq_cons, cmpSeq_cons, cmpSeq_cons, settingsPluginCmpByPriority_eq]
  apply congrArg
  apply then_congr
  intro hindex
  have hplugin := eq_of_gSlistIndex hb ha (LawfulEqOrd.eq_of_compare hindex)
  rw [hclass hplugin.symm, Std.compare_self, Ordering.eq_then]
  exact Ordering.then_eq

/-- Two storages of one plugin that are of the same file. There is one file of meta-data in a
directory, and one storage of a plugin without files. -/
def SameFile (a b : SettingsStorage) : Prop :=
  match a.klass, b.klass with
  | .keyfile _ (.connData _), .keyfile _ (.connData _) => a.filename = b.filename
  | .keyfile ta (.metaData _), .keyfile tb (.metaData _) => ta = tb
  | .ifcfgRh _, .ifcfgRh _ => a.filename = b.filename
  | .base, .base => True
  | _, _ => False

instance (a b : SettingsStorage) : Decidable (SameFile a b) := by
  unfold SameFile
  split <;> infer_instance

theorem sameFile_of_storageOrder (ha : a.plugin ∈ pluginList) (hb : b.plugin ∈ pluginList)
    (h : storageOrder pluginList a b = .eq) : a.plugin = b.plugin ∧ SameFile a b := by
  unfold storageOrder at h
  rw [storageCmpFcn_of_type, Ordering.then_eq_eq, Ordering.then_eq_eq, cmpSeq_eq_eq] at h
  obtain ⟨-, hindex, hvalues⟩ := h
  simp only [List.mem_cons, List.not_mem_nil, or_false, forall_eq_or_imp, forall_eq,
    LawfulEqOrd.compare_eq_iff_eq] at hvalues
  obtain ⟨htype, hstorageType, hmeta, -, -, -, hname⟩ := hvalues
  refine ⟨(eq_of_gSlistIndex hb ha (LawfulEqOrd.eq_of_compare hindex)).symm, ?_⟩
  obtain ⟨pa, ua, fa, la, ka⟩ := a
  obtain ⟨pb, ub, fb, lb, kb⟩ := b
  cases ka with
  | keyfile ta ca =>
    cases kb with
    | keyfile tb cb =>
      cases ca <;> cases cb <;> simp_all [SameFile, SettingsStorage.isMetaData,
        SettingsStorage.profileName, StorageClass.storageType]
    | ifcfgRh mb => cases htype
    | base => cases htype
  | ifcfgRh ma =>
    cases kb with
    | ifcfgRh mb => exact hname
    | keyfile tb cb => cases htype
    | base => cases htype
  | base =>
    cases kb with
    | base => trivial
    | keyfile tb cb => cases htype
    | ifcfgRh mb => cases htype

end

/-! ## The flags -/

/-- What is compared before the storages themselves. -/
structure SdRank where
  run : Bool
  tombstone : Bool
  prioritize : Bool
deriving DecidableEq

def rankCmp (x y : SdRank) : Ordering :=
  cmpSeq [
    if x.run ≠ y.run then
      cmpSeq [
        if ¬ x.tombstone ∧ ¬ y.tombstone then compare x.prioritize y.prioritize else .eq,
        compare x.run y.run]
    else .eq,
    compare x.tombstone y.tombstone, compare x.prioritize y.prioritize]

theorem rankCmp_swap : ∀ x y, rankCmp x y = (rankCmp y x).swap := by
  rintro ⟨r, t, p⟩ ⟨r', t', p'⟩
  revert r t p r' t' p'
  decide

theorem rankCmp_eq_iff : ∀ x y, rankCmp x y = .eq ↔ x = y := by
  rintro ⟨r, t, p⟩ ⟨r', t', p'⟩
  revert r t p r' t' p'
  decide

/-- A profile in `/run` without priority, one outside with priority, and a tombstone outside. -/
def SdRank.Cyclic (x y z : SdRank) : Prop :=
  x = ⟨true, false, false⟩ ∧ y = ⟨false, false, true⟩ ∧ z.run = false ∧ z.tombstone = true

instance (x y z : SdRank) : Decidable (x.Cyclic y z) := inferInstanceAs (Decidable (_ ∧ _))

theorem rankCmp_cycle : ∀ x y z, rankCmp x y ≠ .lt → rankCmp y z ≠ .lt → rankCmp z x ≠ .lt →
    (x = y ∧ y = z) ∨ x.Cyclic z y ∨ y.Cyclic x z ∨ z.Cyclic y x := by
  rintro ⟨r, t, p⟩ ⟨r', t', p'⟩ ⟨r'', t'', p''⟩
  revert r t p r' t' p' r'' t'' p''
  decide

theorem SdRank.Cyclic.cmp : ∀ x y z : SdRank, x.Cyclic y z →
    rankCmp y x = .gt ∧ rankCmp x z = .gt ∧ rankCmp z y = .gt := by
  rintro ⟨r, t, p⟩ ⟨r', t', p'⟩ ⟨r'', t'', p''⟩
  revert r t p r' t' p' r'' t'' p''
  decide

/-! ## The storages of one UUID -/

/-- Storages as the plugins have them: each plugin is listed and has storages of one class, what is
meta-data is a tombstone, and no two storages are of one file. -/
structure StorageSet where
  storages : Storages
  plugins : List ℕ
  sds : List StorageData
  plugin_mem : ∀ sd ∈ sds, (storages sd.storage).plugin ∈ plugins
  same_class : ∀ sd ∈ sds, ∀ sd' ∈ sds,
    (storages sd.storage).plugin = (storages sd'.storage).plugin →
      (storages sd.storage).klass.type = (storages sd'.storage).klass.type
  tombstone : ∀ sd ∈ sds, ∀ d ∈ (storages sd.storage).isMetaData, d.isTombstone
  distinct : ∀ sd ∈ sds, ∀ sd' ∈ sds,
    (storages sd.storage).plugin = (storages sd'.storage).plugin →
      SameFile (storages sd.storage) (storages sd'.storage) → sd = sd'

/-- What happens to the storages of a UUID. The changes are processed while the storages are as
given. -/
inductive StorageEvent where
  | track (storage : ℕ) (connection : Option ℕ) (prioritize : Bool)
  | process (storages : Storages)

def storageStep (plugins : List ℕ) (e : StorageLists) : StorageEvent → StorageLists
  | .track storage connection prioritize => connectionChangedTrack storage connection prioritize e
  | .process storages => sdsUpdate storages plugins e

def storageRun (plugins : List ℕ) (evs : List StorageEvent) : StorageLists :=
  evs.foldl (storageStep plugins) { sdLst := [], dirtySdLst := [] }

namespace StorageSet

variable (set : StorageSet) {a b c : StorageData}

def cmp (a b : StorageData) : Ordering := sdsUpdateCmpAscending set.storages set.plugins a b

/-- The priority is a strict order. -/
structure IsPriority : Prop where
  swap : ∀ a ∈ set.sds, ∀ b ∈ set.sds, set.cmp a b = (set.cmp b a).swap
  trans : ∀ a ∈ set.sds, ∀ b ∈ set.sds, ∀ c ∈ set.sds,
    set.cmp a b = .gt → set.cmp b c = .gt → set.cmp a c = .gt
  tie : ∀ a ∈ set.sds, ∀ b ∈ set.sds, set.cmp a b = .eq → a = b

/-- After any two runs that end with these storages, the same one wins. -/
def DecidesWinner : Prop :=
  ∀ evs evs' : List StorageEvent,
    let e := sdsUpdate set.storages set.plugins (storageRun set.plugins evs)
    let e' := sdsUpdate set.storages set.plugins (storageRun set.plugins evs')
    e.sdLst.Perm set.sds → e'.sdLst.Perm set.sds → e.sdLst.head? = e'.sdLst.head?

/-- There are a profile in `/run` without priority, a prioritized profile outside of `/run`, and a
tombstone outside of `/run`. -/
def Overruled : Prop :=
  ∃ a ∈ set.sds, ∃ b ∈ set.sds, ∃ t ∈ set.sds,
    ((set.storages a.storage).isKeyfileRun ∧ ¬ (set.storages a.storage).isTombstone ∧
      ¬ a.prioritize) ∧
    (¬ (set.storages b.storage).isKeyfileRun ∧ ¬ (set.storages b.storage).isTombstone ∧
      b.prioritize) ∧
    ¬ (set.storages t.storage).isKeyfileRun ∧ (set.storages t.storage).isTombstone

def rank (sd : StorageData) : SdRank where
  run := (set.storages sd.storage).isKeyfileRun
  tombstone := (set.storages sd.storage).isTombstone
  prioritize := sd.prioritize

theorem overruled_iff : set.Overruled ↔
    ∃ a ∈ set.sds, ∃ b ∈ set.sds, ∃ t ∈ set.sds, (set.rank a).Cyclic (set.rank b) (set.rank t) := by
  simp [Overruled, SdRank.Cyclic, rank, and_assoc]

theorem isNone_isMetaData (ha : a ∈ set.sds) :
    (set.storages a.storage).isMetaData.isNone ↔ ¬ (set.storages a.storage).isTombstone := by
  unfold SettingsStorage.isTombstone
  cases hmeta : (set.storages a.storage).isMetaData with
  | none => simp
  | some d => simp [set.tombstone a ha d hmeta]

section

variable (ha : a ∈ set.sds) (hb : b ∈ set.sds)

include ha hb

theorem cmp_eq :
    set.cmp a b = (rankCmp (set.rank a) (set.rank b)).then
      (storageOrder set.plugins (set.storages a.storage) (set.storages b.storage)) := by
  rw [← settingsStorageCmp_eq (set.plugin_mem a ha) (set.plugin_mem b hb)
    (set.same_class a ha b hb)]
  have hnil : cmpSeq [] = .eq := rfl
  unfold cmp sdsUpdateCmpAscending rankCmp
  simp only [set.isNone_isMetaData ha, set.isNone_isMetaData hb, cmpSeq_cons, hnil, rank,
    Ordering.then_assoc, Ordering.then_eq]
  rfl

theorem cmp_swap : set.cmp a b = (set.cmp b a).swap := by
  have := transCmp_storageOrder set.plugins
  rw [set.cmp_eq ha hb, set.cmp_eq hb ha, Ordering.swap_then, ← rankCmp_swap]
  congr 1
  exact Std.OrientedCmp.eq_swap

theorem eq_of_cmp (h : set.cmp a b = .eq) : a = b := by
  rw [set.cmp_eq ha hb, Ordering.then_eq_eq] at h
  obtain ⟨hplugin, hfile⟩ :=
    sameFile_of_storageOrder (set.plugin_mem a ha) (set.plugin_mem b hb) h.2
  exact set.distinct a ha b hb hplugin hfile

theorem overruled_of_cycle (hc : c ∈ set.sds) (hab : set.cmp a b = .gt) (hbc : set.cmp b c = .gt)
    (hca : set.cmp c a ≠ .lt) : set.Overruled := by
  rw [set.cmp_eq ha hb] at hab
  rw [set.cmp_eq hb hc] at hbc
  rw [set.cmp_eq hc ha] at hca
  have hne {o o' : Ordering} (h : o.then o' ≠ .lt) : o ≠ .lt := by
    rintro rfl
    exact h rfl
  have hcycle := rankCmp_cycle _ _ _ (hne (hab.trans_ne (by decide)))
    (hne (hbc.trans_ne (by decide))) (hne hca)
  rw [set.overruled_iff]
  rcases hcycle with ⟨hrank, hrank'⟩ | h | h | h
  · -- of equal flags, so that the storages themselves are compared
    have hself := (rankCmp_eq_iff _ _).mpr (rfl : set.rank c = set.rank c)
    rw [hrank, hrank', hself, Ordering.eq_then] at hab hca
    rw [hrank', hself, Ordering.eq_then] at hbc
    have := transCmp_storageOrder set.plugins
    have hac := Std.TransCmp.gt_trans hab hbc
    rw [Std.OrientedCmp.gt_iff_lt] at hac
    exact absurd hac hca
  · exact ⟨a, ha, c, hc, b, hb, h⟩
  · exact ⟨b, hb, a, ha, c, hc, h⟩
  · exact ⟨c, hc, b, hb, a, ha, h⟩

end

theorem isPriority_iff : set.IsPriority ↔ ¬ set.Overruled := by
  constructor
  · intro h hover
    obtain ⟨a, ha, b, hb, t, ht, hcyclic⟩ := set.overruled_iff.mp hover
    obtain ⟨hba, hat, htb⟩ := hcyclic.cmp
    have hbt := h.trans b hb a ha t ht (by rw [set.cmp_eq hb ha, hba]; rfl)
      (by rw [set.cmp_eq ha ht, hat]; rfl)
    rw [h.swap b hb t ht, set.cmp_eq ht hb, htb] at hbt
    cases hbt
  · intro hover
    refine ⟨fun a ha b hb => set.cmp_swap ha hb, ?_, fun a ha b hb => set.eq_of_cmp ha hb⟩
    intro a ha b hb c hc hab hbc
    by_contra hac
    apply hover
    apply set.overruled_of_cycle ha hb hc hab hbc
    intro hca
    rw [set.cmp_swap ha hc, hca] at hac
    exact hac rfl

theorem cListSort_eq_of_perm (h : set.IsPriority) {l l' : List StorageData}
    (hl : l.Perm set.sds) (hl' : l'.Perm set.sds) :
    cListSort (sdsUpdateCmp set.storages set.plugins) l =
      cListSort (sdsUpdateCmp set.storages set.plugins) l' := by
  have hle : ∀ {a b}, (sdsUpdateCmp set.storages set.plugins a b).isLE ↔ set.cmp b a ≠ .gt :=
    Ordering.ne_gt_iff_isLE.symm
  have hgt : ∀ {a b}, a ∈ set.sds → b ∈ set.sds → set.cmp b a ≠ .gt → a ≠ b →
      set.cmp a b = .gt := by
    intro a b ha hb hba hab
    cases hcmp : set.cmp a b with
    | lt =>
      rw [h.swap b hb a ha, hcmp] at hba
      exact absurd rfl hba
    | eq => exact absurd (h.tie a ha b hb hcmp) hab
    | gt => rfl
  have hnotgt : ∀ {a b}, a ∈ set.sds → b ∈ set.sds → set.cmp a b = .gt → set.cmp b a ≠ .gt := by
    intro a b ha hb hab
    rw [h.swap b hb a ha, hab]
    decide
  apply mergeSort_eq_of_perm _ _ _ (hl.trans hl'.symm)
  · intro a ha b hb c hc hab hbc
    rw [hl.mem_iff] at ha hb hc
    rw [hle] at hab hbc ⊢
    by_cases heq : a = b
    · rwa [heq]
    · by_cases heq' : b = c
      · rwa [← heq']
      · exact hnotgt ha hc (h.trans a ha b hb c hc (hgt ha hb hab heq) (hgt hb hc hbc heq'))
  · intro a ha b hb
    rw [hl.mem_iff] at ha hb
    rw [Bool.or_eq_true, hle, hle, or_iff_not_imp_left, not_not]
    exact hnotgt hb ha
  · intro a ha b hb hab hba
    rw [hl.mem_iff] at ha hb
    rw [hle] at hab hba
    by_contra heq
    exact hba (hgt ha hb hab heq)

theorem decidesWinner_of_isPriority (h : set.IsPriority) : set.DecidesWinner := by
  intro evs evs' e e' he he'
  have hsort := set.cListSort_eq_of_perm h ((List.mergeSort_perm _ _).symm.trans he)
    ((List.mergeSort_perm _ _).symm.trans he')
  exact congrArg List.head? hsort

/-- The storages of a UUID are ordered by their priority, and decide which of them wins, unless
there are an unprioritized profile in `/run`, and a prioritized one and a tombstone outside. -/
theorem isPriority_and_decidesWinner_iff :
    set.IsPriority ∧ set.DecidesWinner ↔ ¬ set.Overruled := by
  rw [← isPriority_iff]
  constructor
  · exact And.left
  · intro h
    exact ⟨h, set.decidesWinner_of_isPriority h⟩

/-- A profile was written to `/etc` while `/run` has another one and `/etc` a tombstone. -/
def savedProfile : StorageSet where
  storages
    | 0 => {
      plugin := 0
      uuid := ascii "4f9a1b1c-6d3e-4c0a-9d5a-0a1b2c3d4e5f"
      filename := some (ascii "/run/NetworkManager/system-connections/a.nmconnection")
      linked := true
      klass := .keyfile storageTypeRun (.connData {
        shadowedStorage := none
        statMtime := ⟨10, 0⟩
        isNmGenerated := false
        isVolatile := false
        isExternal := false
        shadowedOwned := false }) }
    | 1 => {
      plugin := 0
      uuid := ascii "4f9a1b1c-6d3e-4c0a-9d5a-0a1b2c3d4e5f"
      filename := some (ascii "/etc/NetworkManager/system-connections/a.nmconnection")
      linked := true
      klass := .keyfile storageTypeEtc (.connData {
        shadowedStorage := none
        statMtime := ⟨20, 0⟩
        isNmGenerated := false
        isVolatile := false
        isExternal := false
        shadowedOwned := false }) }
    | _ => {
      plugin := 0
      uuid := ascii "4f9a1b1c-6d3e-4c0a-9d5a-0a1b2c3d4e5f"
      filename := some (ascii ("/etc/NetworkManager/system-connections/" ++
        "4f9a1b1c-6d3e-4c0a-9d5a-0a1b2c3d4e5f.nmmeta"))
      linked := true
      klass := .keyfile storageTypeEtc (.metaData {
        shadowedStorage := none
        isTombstone := true }) }
  plugins := [0]
  sds := [⟨0, some 0, false⟩, ⟨1, some 1, true⟩, ⟨2, none, false⟩]
  plugin_mem := by decide
  same_class := by decide
  tombstone := by decide
  distinct := by decide

theorem savedProfile_not_ordered : ¬ ∀ set : StorageSet, set.IsPriority ∧ set.DecidesWinner := by
  intro h
  have htrans := (h savedProfile).1.trans ⟨1, some 1, true⟩ (by decide)
    ⟨0, some 0, false⟩ (by decide) ⟨2, none, false⟩ (by decide)
  exact absurd (htrans (by decide) (by decide)) (by decide)

end StorageSet

end NetworkManager.Core
