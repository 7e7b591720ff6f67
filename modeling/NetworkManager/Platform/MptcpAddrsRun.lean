import NetworkManager.Platform.GlobalTrackerOwnership
import NetworkManager.Platform.MptcpAddrs

/-!
# What syncs of MPTCP endpoints leave in the kernel

The tracker of MPTCP addresses together with the endpoints of the kernel, which
others change as well. As for the other objects, `ours` lists the identities whose
endpoint in the kernel was put there by a sync.

A sync deletes the endpoints of tombstones, and of them only.
-/

namespace NetworkManager.Platform

open Lib NmpObjectClass
open List hiding lookup_eq_none_iff

variable {Tag : Type} [DecidableEq Tag]

/-- The tracker of MPTCP addresses and the endpoints of the kernel. -/
abbrev MptcpSystem (Tag : Type) := TrackerSystem MptcpAddr MptcpAddrId Tag

inductive MptcpEvent (Tag : Type)
  | track (addr : { a : MptcpAddr // a.Trackable }) (trackPriority : ℤ) (userTag : Tag)
  | untrack (addr : { a : MptcpAddr // a.Trackable }) (userTag : Tag)
  | untrackAll (userTag : Tag) (all makeSurvivorsDirty : Bool)
  | setDirty (userTag : Tag)
  | sync (reapply : Bool)
  | externalAdd (addr : MptcpAddr)
  | externalDelete (i : MptcpAddrId)
  deriving DecidableEq

namespace MptcpSystem

def step (s : MptcpSystem Tag) : MptcpEvent Tag → MptcpSystem Tag
  | .track addr trackPriority userTag => TrackerSystem.step s (.track addr trackPriority userTag none)
  | .untrack addr userTag => TrackerSystem.step s (.untrack addr userTag)
  | .untrackAll userTag all makeSurvivorsDirty =>
    TrackerSystem.step s (.untrackAll userTag all makeSurvivorsDirty)
  | .setDirty userTag => TrackerSystem.step s (.setDirty userTag)
  | .sync reapply =>
    let r := s.tracker.syncMptcpAddrs s.platform reapply
    { tracker := r.1
      platform := r.2.foldl PlatformOp.apply s.platform
      ours := r.2.foldl PlatformOp.applyOurs s.ours }
  | .externalAdd addr => TrackerSystem.step s (.externalAdd addr)
  | .externalDelete i => TrackerSystem.step s (.externalDelete i)

/-- Only trackable addresses have entries, and what a sync has added is remembered as
long as it is in the kernel. -/
structure WellFormed (s : MptcpSystem Tag) : Prop where
  system : TrackerSystem.WellFormed s
  data : ∀ td ∈ s.tracker.byData, td.obj.Trackable
  entry : ∀ i d, lookup TrackObjData.id i s.tracker.byObj = some d → d.obj.Trackable
  ours : ∀ a ∈ s.platform, objId a ∈ s.ours → a.addr ≠ .unspec ∧
    ∃ d, lookup TrackObjData.id (objId a) s.tracker.byObj = some d ∧ d.configState = .addedByUs

omit [DecidableEq Tag] in
theorem wellFormed_init : WellFormed (TrackerSystem.init : MptcpSystem Tag) where
  system := TrackerSystem.wellFormed_init
  data := by simp [TrackerSystem.init, GlobalTracker.empty]
  entry := by simp [TrackerSystem.init, GlobalTracker.empty]
  ours := by simp [TrackerSystem.init]

/-! ## The invariant -/

theorem WellFormed.track {s : MptcpSystem Tag} (hs : WellFormed s)
    (addr : { a : MptcpAddr // a.Trackable }) (trackPriority : ℤ) (userTag : Tag) :
    WellFormed (step s (.track addr trackPriority userTag)) := by
  have htrack : s.tracker.track addr.val trackPriority userTag none =
      s.tracker.trackSet addr.val trackPriority userTag := rfl
  have hlook := GlobalTracker.lookup_trackSet hs.system.tracker addr.val trackPriority userTag
  exact
    { system := hs.system.step (.track addr.val trackPriority userTag none)
      data := by
        intro td htd
        rcases GlobalTracker.mem_trackSet htd with h | ⟨h, -⟩
        · exact hs.data td h
        · exact h ▸ addr.property
      entry := by
        intro i d hd
        have hd' : lookup TrackObjData.id i
            (s.tracker.trackSet addr.val trackPriority userTag).1.byObj = some d := hd
        rw [hlook] at hd'
        split_ifs at hd'
        · cases hold : lookup TrackObjData.id i s.tracker.byObj with
          | none =>
            rw [hold] at hd'
            cases hd'
            exact addr.property
          | some d₀ =>
            rw [hold] at hd'
            cases hd'
            exact hs.entry i d hold
        · exact hs.entry i d hd'
      ours := by
        intro a ha hours
        obtain ⟨hun, d, hd, hc⟩ := hs.ours a ha hours
        refine ⟨hun, d, ?_, hc⟩
        have hgoal : lookup TrackObjData.id (objId a)
            (s.tracker.trackSet addr.val trackPriority userTag).1.byObj = some d := by
          rw [hlook, hd]
          split_ifs <;> rfl
        exact hgoal }

omit [DecidableEq Tag] in
theorem WellFormed.untracked {s : MptcpSystem Tag} (hs : WellFormed s)
    {t' : GlobalTracker MptcpAddr Tag} (hu : GlobalTracker.Untracked s.tracker t') :
    WellFormed { s with tracker := t' } where
  system := ⟨hu.wellFormed, hs.system.platform⟩
  data := by
    intro td' htd'
    obtain ⟨td, htd, hkey, -⟩ := hu.data td' htd'
    have hobj : td.obj = td'.obj := (Prod.mk.inj hkey).1
    exact hobj ▸ hs.data td htd
  entry := fun i d hd => hs.entry i d (hu.origin i d hd)
  ours := by
    intro a ha hours
    obtain ⟨hun, d, hd, hc⟩ := hs.ours a ha hours
    exact ⟨hun, d, hu.touched _ d hd (by simp [hc]), hc⟩

variable {a : MptcpAddr}

section Sync

variable {s : MptcpSystem Tag} {reapply : Bool} {d : TrackObjData MptcpAddr}

omit [DecidableEq Tag] in
theorem exists_entry_of_winner (hs : WellFormed s) {i : MptcpAddrId}
    {td : TrackData MptcpAddr Tag} (h : GlobalTracker.winner s.tracker.byData i = some td) :
    ∃ d, lookup TrackObjData.id i s.tracker.byObj = some d := by
  obtain ⟨htd, rfl⟩ := GlobalTracker.winner_mem h
  exact Option.isSome_iff_exists.mp (hs.system.tracker.tracked td htd)

omit [DecidableEq Tag] in
theorem handled_of_entry (hs : WellFormed s) (reapply : Bool)
    (hd : lookup TrackObjData.id (objId a) s.tracker.byObj = some d) :
    a.port = 0 ∧ 0 < a.ifindex ∧ a.ifindex ∈ (GlobalTracker.mptcpCollect s.tracker.byData reapply
      s.tracker.byObj).handledIfindexes := by
  have hid : d.id = objId a := key_of_lookup hd
  have hport : d.obj.port = a.port := congrArg MptcpAddrId.port hid
  have hifindex : d.obj.ifindex = a.ifindex := congrArg MptcpAddrId.ifindex hid
  obtain ⟨hpos, hzero, -⟩ := hs.entry _ d hd
  refine ⟨hport ▸ hzero, hifindex ▸ hpos, ?_⟩
  rw [GlobalTracker.handledIfindexes_mptcpCollect]
  exact mem_map.mpr ⟨d, mem_of_lookup hd, hifindex⟩

omit [DecidableEq Tag] in
theorem id_eq_of_addr_eq (hs : WellFormed s) {x : MptcpSyncData Tag}
    (hx : x ∈ s.tracker.mptcpSelection reapply) (haddr : x.addr = a.addr)
    (hifindex : x.objData.obj.ifindex = a.ifindex) (hport : a.port = 0) :
    x.objData.id = objId a := by
  obtain ⟨d, hd, hid, -⟩ := GlobalTracker.id_of_mem_mptcpSelection hx
  have hd' := hs.entry _ d (lookup_of_mem hs.system.tracker.unique hd)
  have hxport : x.objData.obj.port = d.obj.port := congrArg MptcpAddrId.port hid
  have hzero : x.objData.obj.port = a.port := by rw [hxport, hd'.2.1, hport]
  show (⟨x.objData.obj.ifindex, x.objData.obj.port, x.objData.obj.addr⟩ : MptcpAddrId) =
    ⟨a.ifindex, a.port, a.addr⟩
  rw [hifindex, hzero]
  exact congrArg (MptcpAddrId.mk a.ifindex a.port) haddr

omit [DecidableEq Tag] in
theorem toDelete_of_tombstone (hd : lookup TrackObjData.id (objId a) s.tracker.byObj = some d)
    (hun : a.addr ≠ .unspec) (hwin : GlobalTracker.winner s.tracker.byData (objId a) = none) :
    reapply = true ∨ objId a ∈ (GlobalTracker.mptcpCollect s.tracker.byData reapply
      s.tracker.byObj).entriesToDelete.map objId := by
  have hid : d.id = objId a := key_of_lookup hd
  have haddr : d.obj.addr = a.addr := congrArg MptcpAddrId.addr hid
  cases hre : reapply with
  | true => exact Or.inl rfl
  | false =>
    refine Or.inr (mem_map.mpr ⟨d.obj, ?_, hid⟩)
    rw [GlobalTracker.mem_entriesToDelete_mptcpCollect]
    exact ⟨rfl, d, mem_of_lookup hd, hid ▸ hwin, haddr ▸ hun, rfl⟩

omit [DecidableEq Tag] in
theorem tracked_of_not_deletes (hs : WellFormed s)
    (hd : lookup TrackObjData.id (objId a) s.tracker.byObj = some d) (hun : a.addr ≠ .unspec)
    (hdel : s.tracker.mptcpDeletes reapply a = false) :
    (∃ td, GlobalTracker.winner s.tracker.byData (objId a) = some td) ∧
      ((∃ x ∈ s.tracker.mptcpSelection reapply, x.objData.id = objId a) ∨
        a.addr ∉ (s.tracker.mptcpSelection reapply).map MptcpSyncData.addr) := by
  obtain ⟨hport, hifindex, hhandled⟩ := handled_of_entry hs reapply hd
  by_cases haddr : a.addr ∈ (s.tracker.mptcpSelection reapply).map MptcpSyncData.addr
  · obtain ⟨x, hx, hxa⟩ := mem_map.mp haddr
    by_cases hif : x.objData.obj.ifindex = a.ifindex
    · have hid := id_eq_of_addr_eq hs hx hxa hif hport
      obtain ⟨d', -, hd', htd⟩ := GlobalTracker.id_of_mem_mptcpSelection hx
      rw [← hd', hid] at htd
      exact ⟨⟨x.tdBest, htd⟩, Or.inl ⟨x, hx, hid⟩⟩
    · have hconflict := GlobalTracker.deletes_of_conflict hport hifindex hhandled hx hxa hif
      rw [hdel] at hconflict
      cases hconflict
  · refine ⟨?_, Or.inr haddr⟩
    have hiff := GlobalTracker.deletes_iff_of_not_selected hport hifindex hhandled haddr
    cases hwin : GlobalTracker.winner s.tracker.byData (objId a) with
    | some td => exact ⟨td, rfl⟩
    | none =>
      have hdelete : s.tracker.mptcpDeletes reapply a = true :=
        hiff.mpr (toDelete_of_tombstone hd hun hwin)
      rw [hdel] at hdelete
      cases hdelete

theorem mem_ours_sync (hs : WellFormed s) (ha : a ∈ (step s (.sync reapply)).platform)
    (hours : objId a ∈ (step s (.sync reapply)).ours) :
    (∃ x ∈ s.tracker.mptcpSelection reapply, x.objData.id = objId a) ∨
      (a ∈ s.platform ∧ objId a ∈ s.ours ∧ s.tracker.mptcpDeletes reapply a = false) := by
  have hours' : objId a ∈
      (s.tracker.syncMptcpAddrs s.platform reapply).2.foldl PlatformOp.applyOurs s.ours := hours
  have hu : KeyUnique objId (step s (.sync reapply)).platform :=
    GlobalTracker.unique_foldl_apply hs.system.platform
  have hlook := lookup_of_mem hu ha
  have hplat : lookup objId (objId a) (step s (.sync reapply)).platform = _ :=
    GlobalTracker.lookup_syncMptcpAddrs (objId a)
  rw [GlobalTracker.syncMptcpAddrs_snd, foldl_append, mem_foldl_applyOurs_add,
    mem_foldl_applyOurs_delete] at hours'
  cases hadd : lookup objId (objId a) (s.tracker.mptcpAdded s.platform reapply) with
  | some a' =>
    obtain ⟨x, hx, rfl⟩ := GlobalTracker.mem_mptcpAdded (mem_of_lookup hadd)
    have hid : objId x.objData.obj = objId a := key_of_lookup hadd
    exact Or.inl ⟨x, hx, hid⟩
  | none =>
    right
    rw [lookup_eq_none_iff] at hadd
    rcases hours' with h | ⟨h, hkeep⟩
    · obtain ⟨a', ha', hid⟩ := mem_map.mp h
      exact absurd hid (hadd a' ha')
    · have hnone : lookup objId (objId a) (s.tracker.mptcpAdded s.platform reapply) = none :=
        lookup_eq_none_iff.mpr hadd
      have hkeep' : ¬ ∃ a' ∈ s.platform.filter (s.tracker.mptcpDeletes reapply),
          objId a' = objId a := by
        rintro ⟨a', ha', hid⟩
        exact hkeep a' ha' hid
      rw [hlook, hnone, if_neg hkeep', Option.none_or] at hplat
      have hmem := mem_of_lookup hplat.symm
      refine ⟨hmem, h, ?_⟩
      rw [Bool.eq_false_iff]
      intro hdel
      exact hkeep a (mem_filter.mpr ⟨hmem, hdel⟩) rfl

theorem WellFormed.sync (hs : WellFormed s) (reapply : Bool) :
    WellFormed (step s (.sync reapply)) where
  system :=
    { tracker :=
        { unique := GlobalTracker.unique_syncMptcpAddrs s.platform hs.system.tracker.unique
          keys := hs.system.tracker.keys
          tracked := by
            intro td htd
            have hsome := hs.system.tracker.tracked td htd
            obtain ⟨d, hd⟩ := Option.isSome_iff_exists.mp hsome
            cases hwin : GlobalTracker.winner s.tracker.byData (objId td.obj) with
            | none => exact absurd rfl (GlobalTracker.winner_eq_none_iff.mp hwin td htd)
            | some best =>
              obtain ⟨c, hc, -⟩ := GlobalTracker.lookup_byObj_syncMptcpAddrs s.platform reapply
                hs.system.tracker.unique hd hwin
              exact Option.isSome_iff_exists.mpr ⟨_, hc⟩
          trackable := hs.system.tracker.trackable
          weak := hs.system.tracker.weak }
      platform := GlobalTracker.unique_foldl_apply hs.system.platform }
  data := hs.data
  entry := by
    intro i d' hd'
    obtain ⟨d, td, -, htd, hobj⟩ :=
      GlobalTracker.exists_of_lookup_syncMptcpAddrs s.platform hs.system.tracker.unique hd'
    exact hobj ▸ hs.data td (GlobalTracker.winner_mem htd).1
  ours := by
    intro a ha hours
    rcases mem_ours_sync hs ha hours with ⟨x, hx, hid⟩ | ⟨hmem, hold, hdel⟩
    · obtain ⟨d, hd, hxd, htd⟩ := GlobalTracker.id_of_mem_mptcpSelection hx
      obtain ⟨-, -, -, -, hun⟩ := GlobalTracker.mem_mptcpSelection hx
      have hlook := lookup_of_mem hs.system.tracker.unique hd
      obtain ⟨c, hc, hadded, -⟩ := GlobalTracker.lookup_byObj_syncMptcpAddrs s.platform reapply
        hs.system.tracker.unique hlook htd
      rw [← hxd, hid] at hc
      have haddr : x.addr = a.addr := congrArg MptcpAddrId.addr hid
      exact ⟨haddr ▸ hun, _, hc, hadded ⟨x, hx, hxd⟩⟩
    · obtain ⟨hun, d, hd, hc⟩ := hs.ours a hmem hold
      obtain ⟨⟨td, htd⟩, hsel⟩ := tracked_of_not_deletes hs hd hun hdel
      obtain ⟨c, hc', hadded, hkept⟩ := GlobalTracker.lookup_byObj_syncMptcpAddrs s.platform
        reapply hs.system.tracker.unique hd htd
      refine ⟨hun, _, hc', ?_⟩
      rcases hsel with hsel | hsel
      · exact hadded hsel
      · have htdun : td.obj.addr ≠ .unspec := (GlobalTracker.addr_of_winner htd).symm ▸ hun
        exact (hkept hsel htdun).trans hc

end Sync

theorem WellFormed.step {s : MptcpSystem Tag} (hs : WellFormed s) (e : MptcpEvent Tag) :
    WellFormed (step s e) := by
  cases e with
  | track addr trackPriority userTag => exact hs.track addr trackPriority userTag
  | untrack addr userTag => exact hs.untracked (hs.system.tracker.untrack addr.val userTag)
  | untrackAll userTag all makeSurvivorsDirty =>
    exact hs.untracked (hs.system.tracker.untrackAll userTag all makeSurvivorsDirty)
  | setDirty userTag => exact hs.untracked (hs.system.tracker.setDirty userTag)
  | sync reapply => exact hs.sync reapply
  | externalAdd addr =>
    exact
      { system := hs.system.step (.externalAdd addr)
        data := hs.data
        entry := hs.entry
        ours := by
          intro a ha hours
          obtain ⟨hold, hne⟩ := mem_filter.mp hours
          rcases mem_put.mp ha with rfl | ⟨hmem, -⟩
          · simp at hne
          · exact hs.ours a hmem hold }
  | externalDelete i =>
    exact
      { system := hs.system.step (.externalDelete i)
        data := hs.data
        entry := hs.entry
        ours := by
          intro a ha hours
          exact hs.ours a (mem_eraseKey.mp ha).1 (mem_filter.mp hours).1 }

/-! ## What a sync releases -/

def ranking (s : MptcpSystem Tag) : List NMIPAddr :=
  ((GlobalTracker.mptcpSort (GlobalTracker.mptcpCollect s.tracker.byData false
    s.tracker.byObj).entries).map MptcpSyncData.addr).eraseDups

/-- The interfaces with a tracked address, or with one that is still remembered. -/
def Handled (s : MptcpSystem Tag) (ifindex : ℤ) : Prop :=
  ∃ d ∈ s.tracker.byObj, d.obj.ifindex = ifindex

/-- A sync without reapply releases what it added and does not select, selects the
tracked addresses of the highest priority once each, and leaves foreign endpoints alone. -/
structure SyncReleases (s : MptcpSystem Tag) : Prop where
  /-- Endpoints that an earlier sync added and that are not selected are gone. -/
  released : ∀ a ∈ s.platform, a.port = 0 → Handled s a.ifindex → objId a ∈ s.ours →
    (∀ x ∈ s.tracker.mptcpSelection false, x.objData.id ≠ objId a) →
      lookup objId (objId a) (step s (.sync false)).platform = none
  /-- No address is selected twice, nor are there too many. -/
  distinct : ((s.tracker.mptcpSelection false).map MptcpSyncData.addr).Nodup ∧
    (s.tracker.mptcpSelection false).length ≤ mptcpPmAddrMax
  /-- Who tracks a selected address has at most the priority of the selected entry. -/
  maximal : ∀ x ∈ s.tracker.mptcpSelection false, ∀ td ∈ s.tracker.byData,
    td.obj.addr = x.addr → td.trackPriorityVal ≤ x.tdBest.trackPriorityVal
  /-- Endpoints with a port, without an interface, on another interface, or not added by
  a sync and not in conflict with a selected address are left alone. -/
  leftAlone : ∀ a ∈ s.platform, a.port ≠ 0 ∨ a.ifindex ≤ 0 ∨ ¬ Handled s a.ifindex ∨
    (objId a ∉ s.ours ∧ ∀ x ∈ s.tracker.mptcpSelection false, x.addr ≠ a.addr) →
      lookup objId (objId a) (step s (.sync false)).platform = some a

/-- An endpoint whose address is not among the preferred ones is ours exactly if its
identity is remembered and not tracked any more. -/
def OwnsTombstones (s : MptcpSystem Tag) : Prop :=
  ∀ a ∈ s.platform, a.addr ≠ .unspec → a.addr ∉ (ranking s).take mptcpPmAddrMax →
    (objId a ∈ s.ours → s.NotTracked (objId a)) ∧
    ((lookup TrackObjData.id (objId a) s.tracker.byObj).isSome → s.NotTracked (objId a) →
      objId a ∈ s.ours)

omit [DecidableEq Tag] in
theorem handled_iff {s : MptcpSystem Tag} {ifindex : ℤ} : Handled s ifindex ↔
    ifindex ∈ (GlobalTracker.mptcpCollect s.tracker.byData false
      s.tracker.byObj).handledIfindexes := by
  rw [GlobalTracker.handledIfindexes_mptcpCollect, mem_map]
  rfl

omit [DecidableEq Tag] in
theorem addrs_mptcpSelection (s : MptcpSystem Tag) :
    (s.tracker.mptcpSelection false).map MptcpSyncData.addr =
      (ranking s).take mptcpPmAddrMax := by
  unfold GlobalTracker.mptcpSelection GlobalTracker.mptcpSelected ranking
  exact GlobalTracker.addrs_mptcpSelect_nil _ _

omit [DecidableEq Tag] in
theorem le_of_mem_mptcpSelection {s : MptcpSystem Tag} (hs : WellFormed s)
    {x : MptcpSyncData Tag} (hx : x ∈ s.tracker.mptcpSelection false)
    {td : TrackData MptcpAddr Tag} (htd : td ∈ s.tracker.byData) (haddr : td.obj.addr = x.addr) :
    td.trackPriorityVal ≤ x.tdBest.trackPriorityVal := by
  obtain ⟨-, -, -, -, hun⟩ := GlobalTracker.mem_mptcpSelection hx
  cases hwin : GlobalTracker.winner s.tracker.byData (objId td.obj) with
  | none => exact absurd rfl (GlobalTracker.winner_eq_none_iff.mp hwin td htd)
  | some best =>
    obtain ⟨d, hd⟩ := exists_entry_of_winner hs hwin
    have hid : d.id = objId td.obj := key_of_lookup hd
    have hbest : best.obj.addr = x.addr := by
      rw [GlobalTracker.addr_of_winner hwin]
      exact haddr
    have hentry : (⟨GlobalTracker.collectEntry d best, best⟩ : MptcpSyncData Tag) ∈
        (GlobalTracker.mptcpCollect s.tracker.byData false s.tracker.byObj).entries :=
      GlobalTracker.mem_entries_mptcpCollect.mpr
        ⟨d, mem_of_lookup hd, best, hid ▸ hwin, hbest ▸ hun, rfl⟩
    obtain ⟨x', hx', hx'addr, hle⟩ := GlobalTracker.exists_ge_of_mem_mptcpSelect
      (GlobalTracker.mptcpCollect s.tracker.byData false s.tracker.byObj).byObj
      (GlobalTracker.pairwise_mptcpSort _) (fun x hx => absurd hx not_mem_nil)
      (GlobalTracker.mem_mptcpSort.mpr hentry)
      (mem_map.mpr ⟨x, hx, hbest.symm⟩)
    have hxx : x' = x := by
      apply inj_on_of_nodup_map GlobalTracker.nodup_mptcpSelection hx' hx
      rw [hx'addr]
      exact hbest
    have hmax : td.trackPriorityVal ≤ best.trackPriorityVal :=
      GlobalTracker.le_winner hwin htd rfl
    exact hmax.trans (hxx ▸ hle)

theorem released_of_ownsTombstones {s : MptcpSystem Tag} (hs : WellFormed s) (h : OwnsTombstones s)
    (ha : a ∈ s.platform) (hours : objId a ∈ s.ours)
    (hsel : ∀ x ∈ s.tracker.mptcpSelection false, x.objData.id ≠ objId a) :
    lookup objId (objId a) (step s (.sync false)).platform = none := by
  obtain ⟨hun, d, hd, -⟩ := hs.ours a ha hours
  apply GlobalTracker.lookup_of_deletes ha _ hsel
  by_contra hdel
  obtain ⟨⟨td, htd⟩, hwhy⟩ := tracked_of_not_deletes hs hd hun (Bool.eq_false_iff.mpr hdel)
  have haddr : a.addr ∉ (s.tracker.mptcpSelection false).map MptcpSyncData.addr := by
    rcases hwhy with ⟨x, hx, hid⟩ | haddr
    · exact absurd hid (hsel x hx)
    · exact haddr
  rw [addrs_mptcpSelection] at haddr
  have hnot := (h a ha hun haddr).1 hours
  exact hnot td (GlobalTracker.winner_mem htd).1 (GlobalTracker.winner_mem htd).2

omit [DecidableEq Tag] in
theorem tombstone_of_toDelete {s : MptcpSystem Tag} (hs : WellFormed s)
    (h : objId a ∈ (GlobalTracker.mptcpCollect s.tracker.byData false s.tracker.byObj).entriesToDelete.map objId) :
    a.addr ≠ .unspec ∧ (lookup TrackObjData.id (objId a) s.tracker.byObj).isSome ∧
      s.NotTracked (objId a) := by
  obtain ⟨a', ha', hid⟩ := mem_map.mp h
  obtain ⟨-, d, hd, hwin, hun, rfl⟩ := GlobalTracker.mem_entriesToDelete_mptcpCollect.mp ha'
  have hid' : d.id = objId a := hid
  have hlook := lookup_of_mem hs.system.tracker.unique hd
  rw [hid'] at hwin hlook
  have haddr : d.obj.addr = a.addr := congrArg MptcpAddrId.addr hid
  exact ⟨haddr ▸ hun, by rw [hlook]; rfl, GlobalTracker.winner_eq_none_iff.mp hwin⟩

omit [DecidableEq Tag] in
theorem not_mem_ranking_of_forall {s : MptcpSystem Tag}
    (h : ∀ x ∈ s.tracker.mptcpSelection false, x.addr ≠ a.addr) :
    a.addr ∉ (s.tracker.mptcpSelection false).map MptcpSyncData.addr := by
  intro haddr
  obtain ⟨x, hx, hxa⟩ := mem_map.mp haddr
  exact h x hx hxa

theorem leftAlone_of_ownsTombstones {s : MptcpSystem Tag} (hs : WellFormed s) (h : OwnsTombstones s)
    (ha : a ∈ s.platform)
    (hwhy : a.port ≠ 0 ∨ a.ifindex ≤ 0 ∨ ¬ Handled s a.ifindex ∨ (objId a ∉ s.ours ∧ ∀ x ∈ s.tracker.mptcpSelection false, x.addr ≠ a.addr)) :
    lookup objId (objId a) (step s (.sync false)).platform = some a := by
  have hsel : ∀ x ∈ s.tracker.mptcpSelection false, x.objData.id ≠ objId a := by
    intro x hx hid
    obtain ⟨d, hd, hxd, -⟩ := GlobalTracker.id_of_mem_mptcpSelection hx
    have hlook := lookup_of_mem hs.system.tracker.unique hd
    rw [← hxd, hid] at hlook
    obtain ⟨hport, hifindex, hhandled⟩ := handled_of_entry hs false hlook
    rcases hwhy with h1 | h2 | h3 | ⟨-, haddr⟩
    · exact h1 hport
    · omega
    · exact h3 (handled_iff.mpr hhandled)
    · exact haddr x hx (congrArg MptcpAddrId.addr hid)
  apply GlobalTracker.lookup_of_not_deletes hs.system.platform ha _ hsel
  intro hdel
  have hattended : ¬ (a.port ≠ 0 ∨ a.ifindex ≤ 0 ∨ a.ifindex ∉ (GlobalTracker.mptcpCollect
      s.tracker.byData false s.tracker.byObj).handledIfindexes) :=
    fun hignored => GlobalTracker.not_deletes_of_ignored hignored hdel
  rw [← handled_iff] at hattended
  have hport : a.port = 0 := by tauto
  have hifindex : 0 < a.ifindex := by
    by_contra hle
    exact hattended (Or.inr (Or.inl (by omega)))
  have hhandled : Handled s a.ifindex := by tauto
  obtain ⟨hours, hconflict⟩ : objId a ∉ s.ours ∧
      ∀ x ∈ s.tracker.mptcpSelection false, x.addr ≠ a.addr := by
    rcases hwhy with h1 | h2 | h3 | h4
    · exact absurd hport h1
    · omega
    · exact absurd hhandled h3
    · exact h4
  have haddr := not_mem_ranking_of_forall hconflict
  rw [GlobalTracker.deletes_iff_of_not_selected hport hifindex (handled_iff.mp hhandled)
    haddr] at hdel
  rcases hdel with hre | hdel
  · cases hre
  · obtain ⟨hun, hentry, hnot⟩ := tombstone_of_toDelete hs hdel
    rw [addrs_mptcpSelection] at haddr
    exact hours ((h a ha hun haddr).2 hentry hnot)

theorem syncReleases_iff {s : MptcpSystem Tag} (hs : WellFormed s) :
    SyncReleases s ↔ OwnsTombstones s := by
  constructor
  · intro h a ha hun haddr
    rw [← addrs_mptcpSelection] at haddr
    have hsel : ∀ x ∈ s.tracker.mptcpSelection false, x.objData.id ≠ objId a := by
      intro x hx hid
      have hxa : x.addr = a.addr := congrArg MptcpAddrId.addr hid
      exact haddr (mem_map.mpr ⟨x, hx, hxa⟩)
    constructor
    · intro hours td htd hid
      obtain ⟨-, d, hd, -⟩ := hs.ours a ha hours
      obtain ⟨hport, hifindex, hhandled⟩ := handled_of_entry hs false hd
      have hgone := h.released a ha hport (handled_iff.mpr hhandled) hours hsel
      have hkeep : ¬ s.tracker.mptcpDeletes false a = true := by
        rw [GlobalTracker.deletes_iff_of_not_selected hport hifindex hhandled haddr]
        rintro (hre | hdel)
        · cases hre
        · exact (tombstone_of_toDelete hs hdel).2.2 td htd hid
      have hstays := GlobalTracker.lookup_of_not_deletes hs.system.platform ha hkeep hsel
      exact absurd (hgone.symm.trans hstays) (by simp)
    · intro hentry hnot
      by_contra hours
      obtain ⟨d, hd⟩ := Option.isSome_iff_exists.mp hentry
      obtain ⟨hport, hifindex, hhandled⟩ := handled_of_entry hs false hd
      have hstays := h.leftAlone a ha (Or.inr (Or.inr (Or.inr ⟨hours, fun x hx hxa =>
        haddr (mem_map.mpr ⟨x, hx, hxa⟩)⟩)))
      have hdel : s.tracker.mptcpDeletes false a = true := by
        rw [GlobalTracker.deletes_iff_of_not_selected hport hifindex hhandled haddr]
        exact toDelete_of_tombstone hd hun (GlobalTracker.winner_eq_none_iff.mpr hnot)
      have hgone := GlobalTracker.lookup_of_deletes ha hdel hsel
      exact absurd (hgone.symm.trans hstays) (by simp)
  · intro h
    exact
      { released := fun a ha _ _ hours hsel => released_of_ownsTombstones hs h ha hours hsel
        distinct := ⟨GlobalTracker.nodup_mptcpSelection, GlobalTracker.length_mptcpSelection⟩
        maximal := fun x hx td htd haddr => le_of_mem_mptcpSelection hs hx htd haddr
        leftAlone := fun a ha hwhy => leftAlone_of_ownsTombstones hs h ha hwhy }

/-- The syncs without reapply release what they no longer select. -/
def ReleasesAtSync (s : MptcpSystem Tag) : MptcpEvent Tag → Prop
  | .sync false => SyncReleases s
  | _ => True

def OwnsTombstonesAtSync (s : MptcpSystem Tag) : MptcpEvent Tag → Prop
  | .sync false => OwnsTombstones s
  | _ => True

/-- A run releases what its syncs no longer select and nothing else, exactly if at every
sync the endpoints outside of the selection that are ours are those that are remembered
and not tracked any more. -/
theorem mptcp_sync_releases_iff (es : List (MptcpEvent Tag)) :
    Along step ReleasesAtSync TrackerSystem.init es ↔
      Along step OwnsTombstonesAtSync TrackerSystem.init es := by
  have hstep : ∀ (s : MptcpSystem Tag) e, WellFormed s → WellFormed (step s e) :=
    fun _ e hs => hs.step e
  refine along_congr hstep wellFormed_init fun s e hs => ?_
  unfold ReleasesAtSync OwnsTombstonesAtSync
  split
  · exact syncReleases_iff hs
  · exact Iff.rfl

/-! ## An endpoint that is pushed out -/

omit [DecidableEq Tag] in
theorem wellFormed_foldl [DecidableEq Tag] (es : List (MptcpEvent Tag)) :
    WellFormed (es.foldl step (TrackerSystem.init : MptcpSystem Tag)) := by
  have hstep : ∀ (s : MptcpSystem Tag) e, WellFormed s → WellFormed (step s e) :=
    fun _ e hs => hs.step e
  exact foldl_invariant hstep wellFormed_init es

instance (s : MptcpSystem Tag) : Decidable (OwnsTombstones s) :=
  inferInstanceAs (Decidable (∀ a ∈ s.platform, _ → _ → (_ → _) ∧ (_ → _ → _)))

def sampleAddr (n : ℕ) : { a : MptcpAddr // a.Trackable } :=
  ⟨⟨1, 0, 0, 0, .inet (BitVec.ofNat 32 n)⟩, by simp [MptcpAddr.Trackable]⟩

def pushedOutRun : List (MptcpEvent ℕ) :=
  (List.range mptcpPmAddrMax).map (fun n => .track (sampleAddr n) 1 1) ++
    [.sync false, .track (sampleAddr mptcpPmAddrMax) 2 2]

theorem mptcp_sync_keeps_pushed_out_endpoint :
    ¬ ∀ es : List (MptcpEvent ℕ), Along step ReleasesAtSync TrackerSystem.init es := by
  intro h
  have hlast : SyncReleases (pushedOutRun.foldl step TrackerSystem.init) :=
    (along_append.mp (h (pushedOutRun ++ [MptcpEvent.sync false]))).2.1
  rw [syncReleases_iff (wellFormed_foldl _)] at hlast
  revert hlast
  decide +kernel

end MptcpSystem
end NetworkManager.Platform
