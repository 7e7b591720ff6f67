import NetworkManager.Platform.GlobalTrackerSync
import Mathlib.Data.List.Sort

/-!
# The sync of MPTCP endpoints

`nmp_global_tracker_sync_mptcp_addrs()` selects at most `MPTCP_PM_ADDR_MAX` of the
tracked addresses, deletes the endpoints of the handled interfaces that it does not
want any more, and adds those that are missing. The kernel is a list of endpoints.
-/

namespace NetworkManager.Platform

open Lib NmpObjectClass
open List hiding lookup_eq_none_iff

/-- An address with its family. -/
inductive NMIPAddr
  | unspec
  | inet (addr : BitVec 32)
  | inet6 (addr : BitVec 128)
  deriving DecidableEq

structure MptcpAddr where
  ifindex : ℤ
  id : ℕ
  flags : ℕ
  port : ℕ
  addr : NMIPAddr
  deriving DecidableEq

/-- The primary key of an MPTCP endpoint is only the address:port@ifindex. -/
structure MptcpAddrId where
  ifindex : ℤ
  port : ℕ
  addr : NMIPAddr
  deriving DecidableEq

instance : NmpObjectClass MptcpAddr MptcpAddrId where
  objId a := ⟨a.ifindex, a.port, a.addr⟩
  objType _ := .mptcpAddr
  ifindex a := a.ifindex
  semanticallyEqual a b := a = b
  objType_congr _ _ _ := rfl
  ifindex_congr _ _ h := congrArg MptcpAddrId.ifindex h

/-- What may be tracked: the addresses of an interface without port and id, and the
dummy instance that marks the interface as handled. -/
def MptcpAddr.Trackable (a : MptcpAddr) : Prop := 0 < a.ifindex ∧ a.port = 0 ∧ a.id = 0

instance (a : MptcpAddr) : Decidable a.Trackable := inferInstanceAs (Decidable (_ ∧ _ ∧ _))

def mptcpPmAddrMax : ℕ := 8

structure MptcpSyncData (Tag : Type) where
  objData : TrackObjData MptcpAddr
  tdBest : TrackData MptcpAddr Tag
  deriving DecidableEq

/-- What the iteration over the tracked objects constructs. -/
structure MptcpCollected (Tag : Type) where
  byObj : List (TrackObjData MptcpAddr)
  handledIfindexes : List ℤ
  entries : List (MptcpSyncData Tag)
  entriesToDelete : List MptcpAddr
  deriving DecidableEq

variable {Tag : Type}

def MptcpSyncData.addr (d : MptcpSyncData Tag) : NMIPAddr := d.objData.obj.addr

namespace GlobalTracker

/-- The iteration over the tracked objects. An entry without `TrackData` is a tombstone:
it is dropped, and its endpoint is to be deleted. -/
def mptcpCollect (byData : List (TrackData MptcpAddr Tag)) (reapply : Bool) :
    List (TrackObjData MptcpAddr) → MptcpCollected Tag
  | [] => ⟨[], [], [], []⟩
  | objData :: objDatas =>
    let next := mptcpCollect byData reapply objDatas
    let next := { next with handledIfindexes := objData.obj.ifindex :: next.handledIfindexes }
    match getBestData byData objData with
    | (none, objData) =>
      if objData.obj.addr ≠ .unspec ∧ ¬ reapply then
        { next with entriesToDelete := objData.obj :: next.entriesToDelete }
      else next
    | (some tdBest, objData) =>
      if objData.obj.addr = .unspec then
        { next with byObj := { objData with configState := .addedByUs } :: next.byObj }
      else
        { next with
          byObj := objData :: next.byObj
          entries := ⟨objData, tdBest⟩ :: next.entries }

/-- `_mptcp_entries_cmp()` does not order `b` before `a`: the highest priority is sorted
first. -/
def MptcpEntriesCmp (a b : MptcpSyncData Tag) : Prop :=
  b.tdBest.trackPriorityVal ≤ a.tdBest.trackPriorityVal

instance : DecidableRel (MptcpEntriesCmp : MptcpSyncData Tag → MptcpSyncData Tag → Prop) :=
  fun _ _ => inferInstanceAs (Decidable (_ ≤ _))

def mptcpSort (entries : List (MptcpSyncData Tag)) : List (MptcpSyncData Tag) :=
  entries.insertionSort MptcpEntriesCmp

def configState (byObj : List (TrackObjData MptcpAddr)) (i : MptcpAddrId) : ConfigState :=
  ((lookup TrackObjData.id i byObj).map TrackObjData.configState).getD .none

def setConfigState (i : MptcpAddrId) (c : ConfigState) (byObj : List (TrackObjData MptcpAddr)) :
    List (TrackObjData MptcpAddr) :=
  modifyKey TrackObjData.id i (fun d => { d with configState := c }) byObj

/-- The loop that drops all duplicate addresses and truncates the entries. -/
def mptcpSelect : List (MptcpSyncData Tag) → List (TrackObjData MptcpAddr) →
    List (MptcpSyncData Tag) → List (TrackObjData MptcpAddr) × List (MptcpSyncData Tag)
  | [], byObj, selected => (byObj, selected)
  | d :: ds, byObj, selected =>
    match selected.find? fun d' => d'.addr = d.addr with
    | some d' =>
      -- the entry is shadowed, but what it added is taken over
      if configState byObj d.objData.id = .addedByUs then
        mptcpSelect ds (setConfigState d.objData.id .none
          (setConfigState d'.objData.id .addedByUs byObj)) selected
      else mptcpSelect ds byObj selected
    | none =>
      if mptcpPmAddrMax ≤ selected.length + 1 then (byObj, selected ++ [d])
      else mptcpSelect ds byObj (selected ++ [d])

/-- What happens to an endpoint of the kernel: whether it is deleted, and otherwise
whether it is added to `kaddrs_idx`. -/
def mptcpKaddr (c : MptcpCollected Tag) (selected : List (MptcpSyncData Tag)) (reapply : Bool)
    (kaddr : MptcpAddr) : Bool × Bool :=
  if kaddr.port ≠ 0 ∨ kaddr.ifindex ≤ 0 then (false, false)
  else if kaddr.ifindex ∉ c.handledIfindexes then (false, false)
  else
    match selected.find? fun d => d.addr = kaddr.addr with
    | some d =>
      if kaddr.flags = d.objData.obj.flags ∧ kaddr.ifindex = d.objData.obj.ifindex then
        (false, true)
      else (true, false)
    | none =>
      if reapply then (true, false)
      else (decide (objId kaddr ∈ c.entriesToDelete.map objId), false)

def mptcpMissing (kaddrsIdx : List MptcpAddr) (d : MptcpSyncData Tag) : Bool :=
  match lookup objId (objId d.objData.obj) kaddrsIdx with
  | some kobj => kobj.flags ≠ d.objData.obj.flags
  | none => true

def mptcpSelected (c : MptcpCollected Tag) :
    List (TrackObjData MptcpAddr) × List (MptcpSyncData Tag) :=
  mptcpSelect (mptcpSort c.entries) c.byObj []

/-- `nmp_global_tracker_sync_mptcp_addrs()`: the tracker and the requests made to the
kernel. -/
def syncMptcpAddrs (self : GlobalTracker MptcpAddr Tag) (kaddrs : List MptcpAddr)
    (reapply : Bool) : GlobalTracker MptcpAddr Tag × List (PlatformOp MptcpAddr) :=
  let c := mptcpCollect self.byData reapply self.byObj
  let selected := (mptcpSelected c).2
  let deletes := kaddrs.filter fun kaddr => (mptcpKaddr c selected reapply kaddr).1
  let kaddrsIdx := kaddrs.filter fun kaddr => (mptcpKaddr c selected reapply kaddr).2
  let adds := selected.filter (mptcpMissing kaddrsIdx)
  let byObj := selected.foldl (fun byObj d => setConfigState d.objData.id .addedByUs byObj)
    (mptcpSelected c).1
  ({ self with byObj := byObj },
    deletes.map PlatformOp.delete ++ adds.map fun d => .add d.objData.obj)

end GlobalTracker

/-!
## One sync of MPTCP endpoints

What the three parts of `nmp_global_tracker_sync_mptcp_addrs()` compute: the entries
collected from the tracked objects, the selection, and the requests to the kernel.
-/

variable {Tag : Type}

namespace GlobalTracker

/-! ## Collecting the entries -/

variable {i : MptcpAddrId} {td : TrackData MptcpAddr Tag} {d : TrackObjData MptcpAddr}
  {x : MptcpSyncData Tag} {a : MptcpAddr}

section Collect

variable {byData : List (TrackData MptcpAddr Tag)} {reapply : Bool}
  {byObj : List (TrackObjData MptcpAddr)}

/-- The entry of a tracked object once its best `TrackData` is known. -/
def collectEntry (d : TrackObjData MptcpAddr) (td : TrackData MptcpAddr Tag) :
    TrackObjData MptcpAddr :=
  ⟨td.obj, if td.obj.addr = .unspec then .addedByUs else d.configState⟩

theorem addr_of_winner (h : winner byData i = some td) : td.obj.addr = i.addr :=
  congrArg MptcpAddrId.addr (winner_mem h).2

theorem collectEntry_id (h : winner byData d.id = some td)
    : (collectEntry d td).id = d.id := (winner_mem h).2

theorem handledIfindexes_mptcpCollect :
    (mptcpCollect byData reapply byObj).handledIfindexes = byObj.map fun d => d.obj.ifindex := by
  induction byObj with
  | nil => rfl
  | cons d ds ih =>
    unfold mptcpCollect
    rw [map_cons, ← ih]
    split
    · split_ifs <;> rfl
    · split_ifs <;> rfl

theorem mem_entries_mptcpCollect :
    x ∈ (mptcpCollect byData reapply byObj).entries ↔
      ∃ d ∈ byObj, ∃ td, winner byData d.id = some td ∧ td.obj.addr ≠ .unspec ∧
        x = ⟨collectEntry d td, td⟩ := by
  induction byObj with
  | nil => simp [mptcpCollect]
  | cons d ds ih =>
    rw [mptcpCollect]
    cases h : winner byData d.id with
    | none =>
      rw [getBestData_of_none h]
      dsimp only
      have hskip : (∃ d' ∈ d :: ds, ∃ td, winner byData d'.id = some td ∧
          td.obj.addr ≠ .unspec ∧ x = ⟨collectEntry d' td, td⟩) ↔
          ∃ d' ∈ ds, ∃ td, winner byData d'.id = some td ∧
            td.obj.addr ≠ .unspec ∧ x = ⟨collectEntry d' td, td⟩ := by
        simp [h]
      rw [hskip, ← ih]
      split_ifs <;> rfl
    | some td =>
      rw [getBestData_of_some h]
      dsimp only
      by_cases hun : td.obj.addr = .unspec
      · rw [if_pos hun, ih]
        simp [h, hun]
      · rw [if_neg hun]
        simp only [mem_cons, ih, exists_eq_or_imp, h, Option.some.injEq]
        apply or_congr _ Iff.rfl
        simp [hun, collectEntry]

theorem mem_entriesToDelete_mptcpCollect :
    a ∈ (mptcpCollect byData reapply byObj).entriesToDelete ↔
      reapply = false ∧ ∃ d ∈ byObj, winner byData d.id = none ∧ d.obj.addr ≠ .unspec ∧
        a = d.obj := by
  induction byObj with
  | nil => simp [mptcpCollect]
  | cons d ds ih =>
    rw [mptcpCollect]
    cases h : winner byData d.id with
    | none =>
      rw [getBestData_of_none h]
      dsimp only
      split_ifs with hc
      · simp only [mem_cons, ih, exists_eq_or_imp, h, true_and]
        have hre : reapply = false := by simpa using hc.2
        simp [hre, hc.1]
      · rw [ih]
        simp only [mem_cons, exists_eq_or_imp, h, true_and]
        constructor
        · rintro ⟨hre, hd⟩
          exact ⟨hre, Or.inr hd⟩
        · rintro ⟨hre, ⟨hun, -⟩ | hd⟩
          · exact absurd ⟨hun, by simp [hre]⟩ hc
          · exact ⟨hre, hd⟩
    | some td =>
      rw [getBestData_of_some h]
      dsimp only
      split_ifs <;> simp [ih, h]

theorem byObj_mptcpCollect : (mptcpCollect byData reapply byObj).byObj =
    byObj.filterMap fun d => (winner byData d.id).map (collectEntry d) := by
  induction byObj with
  | nil => rfl
  | cons d ds ih =>
    rw [mptcpCollect]
    cases h : winner byData d.id with
    | none =>
      rw [getBestData_of_none h, filterMap_cons_none (by rw [h]; rfl), ← ih]
      dsimp only
      split_ifs <;> rfl
    | some td =>
      rw [getBestData_of_some h, filterMap_cons_some (by rw [h]; rfl), ← ih]
      dsimp only [collectEntry]
      split_ifs <;> rfl

theorem collectEntry_id_of_mem (d : TrackObjData MptcpAddr) :
    ∀ d' ∈ (winner byData d.id).map (collectEntry d), d'.id = d.id := by
  intro d' h
  obtain ⟨td, htd, rfl⟩ := Option.map_eq_some_iff.mp h
  exact collectEntry_id htd

theorem unique_byObj_mptcpCollect (hu : KeyUnique TrackObjData.id byObj) :
    KeyUnique TrackObjData.id (mptcpCollect byData reapply byObj).byObj := by
  rw [byObj_mptcpCollect]
  exact hu.filterMap collectEntry_id_of_mem

theorem lookup_byObj_mptcpCollect (hu : KeyUnique TrackObjData.id byObj) (i : MptcpAddrId) :
    lookup TrackObjData.id i (mptcpCollect byData reapply byObj).byObj =
      (lookup TrackObjData.id i byObj).bind fun d => (winner byData i).map (collectEntry d) := by
  rw [byObj_mptcpCollect, lookup_filterMap collectEntry_id_of_mem hu]
  cases h : lookup TrackObjData.id i byObj with
  | none => rfl
  | some d =>
    have hid : d.id = i := key_of_lookup h
    rw [Option.bind_some, Option.bind_some, hid]

end Collect

/-! ## Selecting -/

section Select

instance : Std.Total (MptcpEntriesCmp : MptcpSyncData Tag → MptcpSyncData Tag → Prop) :=
  ⟨fun a b => le_total b.tdBest.trackPriorityVal a.tdBest.trackPriorityVal⟩

instance : IsTrans (MptcpSyncData Tag) MptcpEntriesCmp := ⟨fun _ _ _ hab hbc => le_trans hbc hab⟩

theorem mem_mptcpSort {entries : List (MptcpSyncData Tag)} :
    x ∈ mptcpSort entries ↔ x ∈ entries := (perm_insertionSort _ _).mem_iff

theorem pairwise_mptcpSort (entries : List (MptcpSyncData Tag)) :
    (mptcpSort entries).Pairwise MptcpEntriesCmp := pairwise_insertionSort _ _

theorem lookup_setConfigState {j : MptcpAddrId} {c : ConfigState}
    {byObj : List (TrackObjData MptcpAddr)} :
    lookup TrackObjData.id i (setConfigState j c byObj) =
      if i = j then (lookup TrackObjData.id i byObj).map fun d => { d with configState := c }
      else lookup TrackObjData.id i byObj := lookup_modifyKey fun _ => rfl

theorem map_id_setConfigState (j : MptcpAddrId) (c : ConfigState)
    (byObj : List (TrackObjData MptcpAddr)) :
    (setConfigState j c byObj).map TrackObjData.id = byObj.map TrackObjData.id :=
  map_key_modifyKey fun _ => rfl

theorem mptcpSelect_cons (ds : List (MptcpSyncData Tag)) (byObj : List (TrackObjData MptcpAddr))
    (selected : List (MptcpSyncData Tag)) (d : MptcpSyncData Tag) :
    (∃ d' ∈ selected, d'.addr = d.addr ∧
      ∃ byObj', (byObj' = byObj ∨ byObj' = setConfigState d.objData.id .none
        (setConfigState d'.objData.id .addedByUs byObj)) ∧
        mptcpSelect (d :: ds) byObj selected = mptcpSelect ds byObj' selected) ∨
    (d.addr ∉ selected.map MptcpSyncData.addr ∧
      mptcpSelect (d :: ds) byObj selected =
        if mptcpPmAddrMax ≤ selected.length + 1 then (byObj, selected ++ [d])
        else mptcpSelect ds byObj (selected ++ [d])) := by
  rw [mptcpSelect]
  cases h : selected.find? fun d' => d'.addr = d.addr with
  | some d' =>
    left
    refine ⟨d', mem_of_find?_eq_some h, by simpa using List.find?_some h, ?_⟩
    dsimp only
    split_ifs
    · exact ⟨_, Or.inr rfl, rfl⟩
    · exact ⟨_, Or.inl rfl, rfl⟩
  | none =>
    right
    refine ⟨?_, rfl⟩
    simpa using h

variable {ds selected : List (MptcpSyncData Tag)} {byObj : List (TrackObjData MptcpAddr)}

theorem selected_subset_mptcpSelect (h : x ∈ selected) : x ∈ (mptcpSelect ds byObj selected).2 := by
  induction ds generalizing byObj selected with
  | nil => exact h
  | cons d ds ih =>
    rcases mptcpSelect_cons ds byObj selected d with
      ⟨_, -, -, byObj', -, he⟩ | ⟨-, he⟩
    · rw [he]
      exact ih h
    · rw [he]
      split_ifs
      · exact mem_append_left _ h
      · exact ih (mem_append_left _ h)

theorem mem_of_mem_mptcpSelect (h : x ∈ (mptcpSelect ds byObj selected).2)
    : x ∈ selected ∨ x ∈ ds := by
  induction ds generalizing byObj selected with
  | nil => exact Or.inl h
  | cons d ds ih =>
    rcases mptcpSelect_cons ds byObj selected d with
      ⟨_, -, -, byObj', -, he⟩ | ⟨-, he⟩
    · rw [he] at h
      exact (ih h).imp_right (mem_cons_of_mem _)
    · rw [he] at h
      split_ifs at h
      · rcases mem_append.mp h with h | h
        · exact Or.inl h
        · exact Or.inr (by simp_all)
      · rcases ih h with h | h
        · rcases mem_append.mp h with h | h
          · exact Or.inl h
          · exact Or.inr (by simp_all)
        · exact Or.inr (mem_cons_of_mem _ h)

theorem nodup_mptcpSelect (h : (selected.map MptcpSyncData.addr).Nodup) :
    ((mptcpSelect ds byObj selected).2.map MptcpSyncData.addr).Nodup := by
  induction ds generalizing byObj selected with
  | nil => exact h
  | cons d ds ih =>
    rcases mptcpSelect_cons ds byObj selected d with
      ⟨_, -, -, byObj', -, he⟩ | ⟨hnew, he⟩
    · rw [he]
      exact ih h
    · have happ : ((selected ++ [d]).map MptcpSyncData.addr).Nodup := by
        rw [map_append, map_singleton]
        exact nodup_append.mpr ⟨h, nodup_singleton _, by
          rintro a ha b hb rfl
          exact hnew (mem_singleton.mp hb ▸ ha)⟩
      rw [he]
      split_ifs
      · exact happ
      · exact ih happ

theorem length_mptcpSelect (h : selected.length < mptcpPmAddrMax) :
    (mptcpSelect ds byObj selected).2.length ≤ mptcpPmAddrMax := by
  induction ds generalizing byObj selected with
  | nil => exact h.le
  | cons d ds ih =>
    rcases mptcpSelect_cons ds byObj selected d with
      ⟨_, -, -, byObj', -, he⟩ | ⟨-, he⟩
    · rw [he]
      exact ih h
    · rw [he]
      split_ifs with hmax
      · rw [length_append, length_singleton]
        omega
      · exact ih (by simpa using hmax)

theorem addrs_mptcpSelect (h : selected.length < mptcpPmAddrMax) :
    (mptcpSelect ds byObj selected).2.map MptcpSyncData.addr =
      selected.map MptcpSyncData.addr ++
        (((ds.map MptcpSyncData.addr).filter fun a =>
          a ∉ selected.map MptcpSyncData.addr).eraseDups).take
            (mptcpPmAddrMax - selected.length) := by
  induction ds generalizing byObj selected with
  | nil => simp [mptcpSelect]
  | cons d ds ih =>
    rcases mptcpSelect_cons ds byObj selected d with
      ⟨d', hd', haddr, byObj', -, he⟩ | ⟨hnew, he⟩
    · have hmem : d.addr ∈ selected.map MptcpSyncData.addr :=
        haddr ▸ mem_map_of_mem hd'
      rw [he, ih h, map_cons, filter_cons_of_neg (by simpa using hmem)]
    · rw [he, map_cons, filter_cons_of_pos (by simpa using hnew), eraseDups_cons]
      split_ifs with hmax
      · have hone : mptcpPmAddrMax - selected.length = 0 + 1 := by omega
        rw [hone, take_succ_cons, take_zero]
        simp
      · have hsucc : mptcpPmAddrMax - selected.length =
            mptcpPmAddrMax - (selected ++ [d]).length + 1 := by
          rw [length_append, length_singleton]
          omega
        have hfilter : ((ds.map MptcpSyncData.addr).filter fun a =>
            a ∉ selected.map MptcpSyncData.addr).filter (fun b => !b == d.addr) =
            (ds.map MptcpSyncData.addr).filter fun a =>
              a ∉ (selected ++ [d]).map MptcpSyncData.addr := by
          rw [filter_filter]
          apply filter_congr
          intro a _
          by_cases ha : a = d.addr
          · simp [ha]
          · simp [ha, beq_eq_false_iff_ne.mpr ha]
        rw [ih (by simpa using hmax), hsucc, take_succ_cons, hfilter, map_append,
          append_assoc]
        rfl

variable (ds byObj) in
theorem addrs_mptcpSelect_nil : (mptcpSelect ds byObj []).2.map MptcpSyncData.addr =
    ((ds.map MptcpSyncData.addr).eraseDups).take mptcpPmAddrMax := by
  have h : ([] : List (MptcpSyncData Tag)).length < mptcpPmAddrMax := Nat.succ_pos 7
  rw [addrs_mptcpSelect h]
  simp

variable (byObj) in
theorem exists_ge_of_mem_mptcpSelect (hsort : ds.Pairwise MptcpEntriesCmp)
    (hsel : ∀ x ∈ selected, ∀ y ∈ ds, MptcpEntriesCmp x y) {y : MptcpSyncData Tag} (hy : y ∈ ds)
    (haddr : y.addr ∈ (mptcpSelect ds byObj selected).2.map MptcpSyncData.addr) :
    ∃ x ∈ (mptcpSelect ds byObj selected).2, x.addr = y.addr ∧ MptcpEntriesCmp x y := by
  induction ds generalizing byObj selected with
  | nil => cases hy
  | cons d ds ih =>
    rw [pairwise_cons] at hsort
    have htail : ∀ x ∈ selected, ∀ y ∈ ds, MptcpEntriesCmp x y :=
      fun x hx y hy => hsel x hx y (mem_cons_of_mem _ hy)
    rcases mptcpSelect_cons ds byObj selected d with
      ⟨d', hd', hd'addr, byObj', -, he⟩ | ⟨-, he⟩
    · rw [he] at haddr ⊢
      rcases mem_cons.mp hy with rfl | hy
      · exact ⟨d', selected_subset_mptcpSelect hd', hd'addr, hsel d' hd' y mem_cons_self⟩
      · exact ih _ hsort.2 htail hy haddr
    · have happ : ∀ x ∈ selected ++ [d], ∀ y ∈ ds, MptcpEntriesCmp x y := by
        intro x hx y hy
        rcases mem_append.mp hx with hx | hx
        · exact htail x hx y hy
        · rw [mem_singleton.mp hx]
          exact hsort.1 y hy
      have hd : d ∈ selected ++ [d] := by simp
      rw [he] at haddr ⊢
      rcases mem_cons.mp hy with rfl | hy
      · refine ⟨y, ?_, rfl, le_refl _⟩
        split_ifs
        · exact hd
        · exact selected_subset_mptcpSelect hd
      · split_ifs at haddr ⊢
        · obtain ⟨x, hx, hxy⟩ := mem_map.mp haddr
          exact ⟨x, hx, hxy, happ x hx y hy⟩
        · exact ih _ hsort.2 happ hy haddr

theorem lookup_mptcpSelect (ds selected : List (MptcpSyncData Tag))
    (h : lookup TrackObjData.id i byObj = some d) :
    ∃ c, lookup TrackObjData.id i (mptcpSelect ds byObj selected).1 =
        some { d with configState := c } ∧
      (c = d.configState ∨ i.addr ∈ (mptcpSelect ds byObj selected).2.map MptcpSyncData.addr) := by
  induction ds generalizing byObj selected d with
  | nil => exact ⟨d.configState, h, Or.inl rfl⟩
  | cons x ds ih =>
    rcases mptcpSelect_cons ds byObj selected x with
      ⟨x', hx', haddr, byObj', hbyObj', he⟩ | ⟨-, he⟩
    · have hstep : ∃ c, lookup TrackObjData.id i byObj' = some { d with configState := c } ∧
          (c = d.configState ∨ i.addr = x'.addr) := by
        rcases hbyObj' with rfl | rfl
        · exact ⟨d.configState, h, Or.inl rfl⟩
        · rw [lookup_setConfigState, lookup_setConfigState, h]
          split_ifs with h1 h2 h2
          · exact ⟨_, rfl, Or.inr (h2 ▸ rfl)⟩
          · exact ⟨_, rfl, Or.inr (h1 ▸ haddr.symm)⟩
          · exact ⟨_, rfl, Or.inr (h2 ▸ rfl)⟩
          · exact ⟨_, rfl, Or.inl rfl⟩
      obtain ⟨c, hc, hwhy⟩ := hstep
      rw [he]
      obtain ⟨c', hc', hwhy'⟩ := ih selected hc
      refine ⟨c', hc', ?_⟩
      rcases hwhy' with rfl | hsel
      · rcases hwhy with rfl | hx
        · exact Or.inl rfl
        · rw [hx]
          exact Or.inr (mem_map_of_mem (selected_subset_mptcpSelect hx'))
      · exact Or.inr hsel
    · rw [he]
      split_ifs
      · exact ⟨d.configState, h, Or.inl rfl⟩
      · exact ih _ h

theorem map_id_mptcpSelect :
    (mptcpSelect ds byObj selected).1.map TrackObjData.id = byObj.map TrackObjData.id := by
  induction ds generalizing byObj selected with
  | nil => rfl
  | cons d ds ih =>
    rcases mptcpSelect_cons ds byObj selected d with
      ⟨_, -, -, byObj', hbyObj', he⟩ | ⟨-, he⟩
    · rw [he, ih]
      rcases hbyObj' with rfl | rfl
      · rfl
      · rw [map_id_setConfigState, map_id_setConfigState]
    · rw [he]
      split_ifs
      · rfl
      · exact ih

end Select

/-! ## The requests to the kernel -/

section Sync

variable (t : GlobalTracker MptcpAddr Tag) (kaddrs : List MptcpAddr) (reapply : Bool)

def mptcpSelection : List (MptcpSyncData Tag) :=
  (mptcpSelected (mptcpCollect t.byData reapply t.byObj)).2

def mptcpDeletes (kaddr : MptcpAddr) : Bool :=
  (mptcpKaddr (mptcpCollect t.byData reapply t.byObj) (t.mptcpSelection reapply) reapply kaddr).1

def mptcpAdded : List MptcpAddr :=
  ((t.mptcpSelection reapply).filter (mptcpMissing (kaddrs.filter fun kaddr =>
    (mptcpKaddr (mptcpCollect t.byData reapply t.byObj) (t.mptcpSelection reapply) reapply
      kaddr).2))).map fun d => d.objData.obj

theorem syncMptcpAddrs_snd : (t.syncMptcpAddrs kaddrs reapply).2 =
    (kaddrs.filter (t.mptcpDeletes reapply)).map PlatformOp.delete ++
      (t.mptcpAdded kaddrs reapply).map PlatformOp.add := by
  unfold syncMptcpAddrs mptcpAdded mptcpSelection
  rw [map_map]
  rfl

variable {t kaddrs reapply}

theorem mem_mptcpSelection (h : x ∈ t.mptcpSelection reapply) :
    ∃ d ∈ t.byObj, winner t.byData d.id = some x.tdBest ∧ x.objData = collectEntry d x.tdBest ∧
      x.addr ≠ .unspec := by
  rcases mem_of_mem_mptcpSelect h with h | h
  · cases h
  · obtain ⟨d, hd, td, htd, hun, rfl⟩ := mem_entries_mptcpCollect.mp (mem_mptcpSort.mp h)
    exact ⟨d, hd, htd, rfl, hun⟩

theorem id_of_mem_mptcpSelection (h : x ∈ t.mptcpSelection reapply) :
    ∃ d ∈ t.byObj, x.objData.id = d.id ∧ winner t.byData d.id = some x.tdBest := by
  obtain ⟨d, hd, htd, hobj, -⟩ := mem_mptcpSelection h
  refine ⟨d, hd, ?_, htd⟩
  rw [hobj, collectEntry_id htd]

theorem nodup_mptcpSelection : ((t.mptcpSelection reapply).map MptcpSyncData.addr).Nodup :=
  nodup_mptcpSelect nodup_nil

theorem length_mptcpSelection : (t.mptcpSelection reapply).length ≤ mptcpPmAddrMax :=
  length_mptcpSelect (Nat.succ_pos 7)

theorem mem_mptcpAdded (h : a ∈ t.mptcpAdded kaddrs reapply) :
    ∃ x ∈ t.mptcpSelection reapply, x.objData.obj = a := by
  obtain ⟨x, hx, rfl⟩ := mem_map.mp h
  exact ⟨x, (mem_filter.mp hx).1, rfl⟩

theorem unique_mptcpAdded : KeyUnique objId (t.mptcpAdded kaddrs reapply) := by
  have haddr : ((t.mptcpAdded kaddrs reapply).map fun a => a.addr).Nodup := by
    unfold mptcpAdded
    rw [map_map]
    exact (List.Sublist.map _ filter_sublist).nodup nodup_mptcpSelection
  have hmap : (t.mptcpAdded kaddrs reapply).map (fun a => a.addr) =
      ((t.mptcpAdded kaddrs reapply).map objId).map MptcpAddrId.addr := by
    rw [map_map]
    rfl
  rw [hmap] at haddr
  exact haddr.of_map _

theorem lookup_syncMptcpAddrs (i : MptcpAddrId) :
    lookup objId i ((t.syncMptcpAddrs kaddrs reapply).2.foldl PlatformOp.apply kaddrs) =
      (lookup objId i (t.mptcpAdded kaddrs reapply)).or
        (if ∃ a ∈ kaddrs.filter (t.mptcpDeletes reapply), objId a = i
          then none else lookup objId i kaddrs) := by
  rw [syncMptcpAddrs_snd, foldl_append, lookup_foldl_add unique_mptcpAdded,
    lookup_foldl_delete]

theorem lookup_of_not_deletes (hk : KeyUnique objId kaddrs) (ha : a ∈ kaddrs)
    (hdel : ¬ t.mptcpDeletes reapply a)
    (hsel : ∀ x ∈ t.mptcpSelection reapply, x.objData.id ≠ objId a) :
    lookup objId (objId a) ((t.syncMptcpAddrs kaddrs reapply).2.foldl PlatformOp.apply kaddrs) =
      some a := by
  have hadd : lookup objId (objId a) (t.mptcpAdded kaddrs reapply) = none := by
    rw [lookup_eq_none_iff]
    intro a' ha'
    obtain ⟨x, hx, rfl⟩ := mem_mptcpAdded ha'
    exact hsel x hx
  have hkeep : ¬ ∃ a' ∈ kaddrs.filter (t.mptcpDeletes reapply),
      objId a' = objId a := by
    rintro ⟨a', ha', hid⟩
    obtain ⟨hmem, hdel'⟩ := mem_filter.mp ha'
    have heq : a' = a := eq_of_key_eq hk hmem ha hid
    exact hdel (heq ▸ hdel')
  rw [lookup_syncMptcpAddrs, hadd, if_neg hkeep, lookup_of_mem hk ha, Option.none_or]

theorem lookup_of_deletes (ha : a ∈ kaddrs) (hdel : t.mptcpDeletes reapply a)
    (hsel : ∀ x ∈ t.mptcpSelection reapply, x.objData.id ≠ objId a) :
    lookup objId (objId a) ((t.syncMptcpAddrs kaddrs reapply).2.foldl PlatformOp.apply kaddrs) =
      none := by
  have hadd : lookup objId (objId a) (t.mptcpAdded kaddrs reapply) = none := by
    rw [lookup_eq_none_iff]
    intro a' ha'
    obtain ⟨x, hx, rfl⟩ := mem_mptcpAdded ha'
    exact hsel x hx
  have hgone : ∃ a' ∈ kaddrs.filter (t.mptcpDeletes reapply),
      objId a' = objId a := ⟨a, mem_filter.mpr ⟨ha, hdel⟩, rfl⟩
  rw [lookup_syncMptcpAddrs, hadd, if_pos hgone, Option.none_or]

theorem not_deletes_of_ignored
    (h : a.port ≠ 0 ∨ a.ifindex ≤ 0 ∨ a.ifindex ∉ (mptcpCollect t.byData reapply t.byObj).handledIfindexes) :
    ¬ t.mptcpDeletes reapply a := by
  unfold mptcpDeletes mptcpKaddr
  by_cases h1 : a.port ≠ 0 ∨ a.ifindex ≤ 0
  · rw [if_pos h1]
    simp
  · rw [if_neg h1, if_pos (by tauto)]
    simp

theorem deletes_of_conflict (hport : a.port = 0) (hifindex : 0 < a.ifindex)
    (hhandled : a.ifindex ∈ (mptcpCollect t.byData reapply t.byObj).handledIfindexes)
    (hx : x ∈ t.mptcpSelection reapply) (haddr : x.addr = a.addr)
    (hne : x.objData.obj.ifindex ≠ a.ifindex) : t.mptcpDeletes reapply a := by
  unfold mptcpDeletes mptcpKaddr
  rw [if_neg (by simp [hport, hifindex]), if_neg (by simpa using hhandled)]
  cases hfind : (t.mptcpSelection reapply).find? fun d => d.addr = a.addr with
  | none => exact absurd haddr (by simpa using List.find?_eq_none.mp hfind x hx)
  | some y =>
    have hyaddr : y.addr = a.addr := by simpa using List.find?_some hfind
    have hxy : y = x := by
      apply inj_on_of_nodup_map nodup_mptcpSelection (mem_of_find?_eq_some hfind) hx
      rw [hyaddr, haddr]
    simp [hxy, Ne.symm hne]

theorem deletes_iff_of_not_selected (hport : a.port = 0) (hifindex : 0 < a.ifindex)
    (hhandled : a.ifindex ∈ (mptcpCollect t.byData reapply t.byObj).handledIfindexes)
    (haddr : a.addr ∉ (t.mptcpSelection reapply).map MptcpSyncData.addr) :
    t.mptcpDeletes reapply a ↔ reapply = true ∨
      objId a ∈ (mptcpCollect t.byData reapply t.byObj).entriesToDelete.map objId := by
  unfold mptcpDeletes mptcpKaddr
  rw [if_neg (by simp [hport, hifindex]), if_neg (by simpa using hhandled)]
  have hfind : ((t.mptcpSelection reapply).find? fun d => d.addr = a.addr) = none := by
    rw [List.find?_eq_none]
    intro x hx hxa
    exact haddr (mem_map.mpr ⟨x, hx, by simpa using hxa⟩)
  rw [hfind]
  cases reapply with
  | true => simp
  | false => simp

/-! ## The table after the sync -/

theorem lookup_foldl_setConfigState {xs : List (MptcpSyncData Tag)}
    {byObj : List (TrackObjData MptcpAddr)} :
    lookup TrackObjData.id i
        (xs.foldl (fun byObj d => setConfigState d.objData.id .addedByUs byObj) byObj) =
      (lookup TrackObjData.id i byObj).map fun d =>
        if ∃ x ∈ xs, x.objData.id = i then { d with configState := .addedByUs } else d := by
  induction xs generalizing byObj with
  | nil => simp
  | cons x xs ih =>
    rw [foldl_cons, ih, lookup_setConfigState]
    cases lookup TrackObjData.id i byObj with
    | none => simp
    | some d =>
      by_cases hx : x.objData.id = i
      · by_cases hxs : ∃ x' ∈ xs, x'.objData.id = i <;> simp [hx]
      · simp [hx, Ne.symm hx]

theorem map_id_foldl_setConfigState (xs : List (MptcpSyncData Tag))
    (byObj : List (TrackObjData MptcpAddr)) :
    (xs.foldl (fun byObj d => setConfigState d.objData.id .addedByUs byObj) byObj).map
      TrackObjData.id = byObj.map TrackObjData.id := by
  induction xs generalizing byObj with
  | nil => rfl
  | cons x xs ih => rw [foldl_cons, ih, map_id_setConfigState]

theorem map_id_syncMptcpAddrs : (t.syncMptcpAddrs kaddrs reapply).1.byObj.map TrackObjData.id =
    (mptcpCollect t.byData reapply t.byObj).byObj.map TrackObjData.id :=
  (map_id_foldl_setConfigState _ _).trans map_id_mptcpSelect

variable (kaddrs) in
theorem unique_syncMptcpAddrs (hu : KeyUnique TrackObjData.id t.byObj) :
    KeyUnique TrackObjData.id (t.syncMptcpAddrs kaddrs reapply).1.byObj := by
  unfold KeyUnique
  rw [map_id_syncMptcpAddrs]
  exact unique_byObj_mptcpCollect hu

theorem lookup_byObj_syncMptcpAddrs (kaddrs : List MptcpAddr) (reapply : Bool)
    (hu : KeyUnique TrackObjData.id t.byObj) (hd : lookup TrackObjData.id i t.byObj = some d)
    (htd : winner t.byData i = some td) :
    ∃ c, lookup TrackObjData.id i (t.syncMptcpAddrs kaddrs reapply).1.byObj = some ⟨td.obj, c⟩ ∧
      ((∃ x ∈ t.mptcpSelection reapply, x.objData.id = i) → c = .addedByUs) ∧
      (i.addr ∉ (t.mptcpSelection reapply).map MptcpSyncData.addr → td.obj.addr ≠ .unspec →
        c = d.configState) := by
  have hcollect : lookup TrackObjData.id i (mptcpCollect t.byData reapply t.byObj).byObj =
      some (collectEntry d td) := by
    rw [lookup_byObj_mptcpCollect hu, hd, htd]
    rfl
  obtain ⟨c, hc, hwhy⟩ := lookup_mptcpSelect
    (mptcpSort (mptcpCollect t.byData reapply t.byObj).entries) [] hcollect
  have hfinal : lookup TrackObjData.id i (t.syncMptcpAddrs kaddrs reapply).1.byObj =
      some (if ∃ x ∈ t.mptcpSelection reapply, x.objData.id = i
        then ⟨td.obj, .addedByUs⟩ else ⟨td.obj, c⟩) := by
    unfold syncMptcpAddrs
    dsimp only
    rw [lookup_foldl_setConfigState]
    unfold mptcpSelected
    rw [hc]
    rfl
  by_cases hsel : ∃ x ∈ t.mptcpSelection reapply, x.objData.id = i
  · rw [if_pos hsel] at hfinal
    refine ⟨_, hfinal, fun _ => rfl, fun haddr => ?_⟩
    obtain ⟨x, hx, rfl⟩ := hsel
    exact absurd (mem_map_of_mem hx) haddr
  · rw [if_neg hsel] at hfinal
    refine ⟨c, hfinal, fun h => absurd h hsel, fun haddr hun => ?_⟩
    rcases hwhy with rfl | h
    · simp [collectEntry, hun]
    · exact absurd h haddr

variable (kaddrs) in
theorem exists_of_lookup_syncMptcpAddrs (hu : KeyUnique TrackObjData.id t.byObj)
    {d' : TrackObjData MptcpAddr}
    (h : lookup TrackObjData.id i (t.syncMptcpAddrs kaddrs reapply).1.byObj = some d') :
    ∃ d td, lookup TrackObjData.id i t.byObj = some d ∧ winner t.byData i = some td ∧
      d'.obj = td.obj := by
  have hsome : (lookup TrackObjData.id i
      (mptcpCollect t.byData reapply t.byObj).byObj).isSome = true := by
    rw [← lookup_isSome_congr map_id_syncMptcpAddrs, h]
    rfl
  obtain ⟨d₁, hd₁⟩ := Option.isSome_iff_exists.mp hsome
  rw [lookup_byObj_mptcpCollect hu] at hd₁
  obtain ⟨d, hd, hmap⟩ := Option.bind_eq_some_iff.mp hd₁
  obtain ⟨td, htd, -⟩ := Option.map_eq_some_iff.mp hmap
  obtain ⟨c, hc, -⟩ := lookup_byObj_syncMptcpAddrs kaddrs reapply hu hd htd
  rw [h] at hc
  exact ⟨d, td, hd, htd, congrArg TrackObjData.obj (Option.some.inj hc)⟩

end Sync

end GlobalTracker
end NetworkManager.Platform
