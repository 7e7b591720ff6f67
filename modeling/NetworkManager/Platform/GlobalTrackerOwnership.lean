import NetworkManager.Platform.GlobalTrackerSync
import NetworkManager.Lib.Runs

/-!
# The global tracker keeps its tables in step

Every operation of `NMPGlobalTracker` keeps the entries of `by_data` and `by_obj`
consistent with each other. Operations that only untrack leave the `TrackObjData`
of what is still tracked as it is.
-/

namespace NetworkManager.Platform

open Lib NmpObjectClass

variable {Obj Id Tag : Type} [DecidableEq Obj] [DecidableEq Id] [DecidableEq Tag]
  [NmpObjectClass Obj Id]

namespace GlobalTracker

/-! ## What untracking does to the entry of an identity -/

def untrackEntry (makeOwnedByUs single : Bool) (d : TrackObjData Obj) :
    Option (TrackObjData Obj) :=
  let d := if makeOwnedByUs ∧ d.configState = .none then { d with configState := .ownedByUs } else d
  if d.configState = .none ∧ single then none else some d

theorem lookup_trackDataUntrack (self : GlobalTracker Obj Tag) (td : TrackData Obj Tag)
    (makeOwnedByUs : Bool) (i : Id) :
    lookup TrackObjData.id i (self.trackDataUntrack td makeOwnedByUs).byObj =
      if i = objId td.obj then (lookup TrackObjData.id i self.byObj).bind
        (untrackEntry makeOwnedByUs ((self.objLst i).length ≤ 1))
      else lookup TrackObjData.id i self.byObj := by
  have hid : ∀ d : TrackObjData Obj, (if d.configState = .none then
      { d with configState := .ownedByUs } else d).id = d.id := by
    intro d
    split_ifs <;> rfl
  cases makeOwnedByUs with
  | false =>
    cases h : lookup TrackObjData.id (objId td.obj) self.byObj with
    | none =>
      by_cases hi : i = objId td.obj
      · simp [trackDataUntrack, h, hi]
      · simp [trackDataUntrack, h, hi]
    | some d =>
      by_cases hi : i = objId td.obj
      · subst hi
        by_cases hc : d.configState = .none ∧ (self.objLst (objId td.obj)).length ≤ 1
        · simp [trackDataUntrack, h, hc, untrackEntry]
        · simp only [trackDataUntrack, h, untrackEntry, Bool.false_eq_true, ↓reduceIte,
            false_and, Option.bind_some, decide_eq_true_eq]
          rw [if_neg hc, if_neg hc, h]
      · simp only [trackDataUntrack, h, Bool.false_eq_true, ↓reduceIte, hi]
        split_ifs
        · rw [lookup_eraseKey, if_neg hi]
        · rfl
  | true =>
    have hmod := @lookup_modifyKey _ _ _ _ (objId td.obj) (objId td.obj) self.byObj _ hid
    rw [if_pos rfl] at hmod
    cases h : lookup TrackObjData.id (objId td.obj) self.byObj with
    | none =>
      rw [h, Option.map_none] at hmod
      by_cases hi : i = objId td.obj
      · subst hi
        simp [trackDataUntrack, hmod, h]
      · simp [trackDataUntrack, hmod, hi, lookup_modifyKey hid]
    | some d =>
      rw [h, Option.map_some] at hmod
      by_cases hi : i = objId td.obj
      · subst hi
        have hc : ¬ ((if d.configState = .none then { d with configState := .ownedByUs }
            else d).configState = .none ∧ (self.objLst (objId td.obj)).length ≤ 1) := by
          split_ifs with hn <;> simp [hn]
        simp only [trackDataUntrack, ↓reduceIte, hmod, untrackEntry, h, true_and,
          Option.bind_some, decide_eq_true_eq]
        rw [if_neg hc, if_neg hc, hmod]
      · simp only [trackDataUntrack, ↓reduceIte, hmod, hi]
        split_ifs
        · rw [lookup_eraseKey, if_neg hi, lookup_modifyKey hid, if_neg hi]
        · rw [lookup_modifyKey hid, if_neg hi]
        · rw [lookup_eraseKey, if_neg hi, lookup_modifyKey hid, if_neg hi]
        · rw [lookup_modifyKey hid, if_neg hi]

/-- Every tracked object has its `TrackObjData`, one per identity, and weakly tracked
entries count as present. -/
structure WellFormed (t : GlobalTracker Obj Tag) : Prop where
  unique : KeyUnique TrackObjData.id t.byObj
  keys : KeyUnique TrackData.key t.byData
  tracked : ∀ td ∈ t.byData, (lookup TrackObjData.id (objId td.obj) t.byObj).isSome
  trackable : ∀ td ∈ t.byData, trackable td.obj = true
  weak : ∀ td ∈ t.byData, td.trackPriorityVal = 0 → td.trackPriorityPresent = true

omit [DecidableEq Obj] [DecidableEq Tag] in
theorem wellFormed_empty : (empty : GlobalTracker Obj Tag).WellFormed where
  unique := unique_nil
  keys := unique_nil
  tracked := by simp [empty]
  trackable := by simp [empty]
  weak := by simp [empty]

variable {self : GlobalTracker Obj Tag} {obj : Obj} {td : TrackData Obj Tag}

theorem mem_of_trackDataLookup {userTag : Tag} (h : self.trackDataLookup obj userTag = some td) :
    td ∈ self.byData ∧ td.obj = obj ∧ td.userTag = userTag := by
  have hk : td.key = (obj, userTag) := @key_of_lookup _ _ _ TrackData.key _ _ _ h
  exact ⟨mem_of_lookup h, (Prod.mk.inj hk).1, (Prod.mk.inj hk).2⟩

/-! ## Untracking -/

/-- Entries were untracked or got another dirty flag. What is still tracked has the
`TrackObjData` that it had, and so has what a sync has touched. -/
structure Untracked (t t' : GlobalTracker Obj Tag) : Prop where
  wellFormed : t'.WellFormed
  data : ∀ td' ∈ t'.byData, ∃ td ∈ t.byData, td.key = td'.key ∧
    td.trackPriorityVal = td'.trackPriorityVal ∧
    td.trackPriorityPresent = td'.trackPriorityPresent
  entry : ∀ td' ∈ t'.byData, lookup TrackObjData.id (objId td'.obj) t'.byObj =
    lookup TrackObjData.id (objId td'.obj) t.byObj
  touched : ∀ i d, lookup TrackObjData.id i t.byObj = some d → d.configState ≠ .none →
    lookup TrackObjData.id i t'.byObj = some d
  origin : ∀ i d, lookup TrackObjData.id i t'.byObj = some d →
    lookup TrackObjData.id i t.byObj = some d

omit [DecidableEq Obj] [DecidableEq Tag] in
theorem WellFormed.untracked_refl {t : GlobalTracker Obj Tag} (hw : t.WellFormed) :
    Untracked t t :=
  ⟨hw, fun td h => ⟨td, h, rfl, rfl, rfl⟩, fun _ _ => rfl, fun _ _ h _ => h, fun _ _ h => h⟩

omit [DecidableEq Obj] [DecidableEq Tag] in
theorem Untracked.trans {t t' t'' : GlobalTracker Obj Tag} (h : Untracked t t')
    (h' : Untracked t' t'') : Untracked t t'' where
  wellFormed := h'.wellFormed
  data := by
    intro td'' htd''
    obtain ⟨td', htd', hk', hv', hp'⟩ := h'.data td'' htd''
    obtain ⟨td, htd, hk, hv, hp⟩ := h.data td' htd'
    exact ⟨td, htd, hk.trans hk', hv.trans hv', hp.trans hp'⟩
  entry := by
    intro td'' htd''
    obtain ⟨td', htd', hk', -⟩ := h'.data td'' htd''
    have hobj : td'.obj = td''.obj := (Prod.mk.inj hk').1
    rw [h'.entry td'' htd'', ← hobj, h.entry td' htd']
  touched := fun i d hd hc => h'.touched i d (h.touched i d hd hc) hc
  origin := fun i d hd => h.origin i d (h'.origin i d hd)

variable {td' : TrackData Obj Tag}

theorem not_single_of_mem {m : Bool} (htd : ∃ a ∈ self.byData, a.key = td.key)
    (h : td' ∈ (self.trackDataUntrack td m).byData) (hid : objId td'.obj = objId td.obj) :
    ¬ (self.objLst (objId td.obj)).length ≤ 1 := by
  obtain ⟨hmem', hkey⟩ := mem_eraseKey.mp h
  obtain ⟨a, ha, hak⟩ := htd
  have hobj : a.obj = td.obj := (Prod.mk.inj hak).1
  have hin : a ∈ self.objLst (objId td.obj) := by simp [objLst, ha, hobj]
  have hin' : td' ∈ self.objLst (objId td.obj) := by simp [objLst, hmem', hid]
  intro hlen
  match hl : self.objLst (objId td.obj), hlen with
  | [], _ => simp [hl] at hin
  | [b], _ =>
    rw [hl, List.mem_singleton] at hin hin'
    exact hkey (by rw [hin', ← hin, hak])

theorem lookup_trackDataUntrack_of_mem {m : Bool} (htd : ∃ a ∈ self.byData, a.key = td.key)
    (h : td' ∈ (self.trackDataUntrack td m).byData) :
    lookup TrackObjData.id (objId td'.obj) (self.trackDataUntrack td m).byObj =
      (lookup TrackObjData.id (objId td'.obj) self.byObj).map fun d =>
        if objId td'.obj = objId td.obj ∧ m ∧ d.configState = .none then
          { d with configState := .ownedByUs } else d := by
  rw [lookup_trackDataUntrack]
  by_cases hid : objId td'.obj = objId td.obj
  · have hs := not_single_of_mem htd h hid
    rw [if_pos hid]
    simp only [hid, hs, decide_false, true_and]
    cases lookup TrackObjData.id (objId td.obj) self.byObj with
    | none => rfl
    | some d => simp [untrackEntry]
  · rw [if_neg hid]
    simp [hid]

section

variable (hw : self.WellFormed)

include hw

theorem WellFormed.trackDataUntrack (htd : ∃ a ∈ self.byData, a.key = td.key) (m : Bool) :
    (self.trackDataUntrack td m).WellFormed where
  unique := by
    have hid : ∀ d : TrackObjData Obj, (if d.configState = .none then
        { d with configState := .ownedByUs } else d).id = d.id := by
      intro d
      split_ifs <;> rfl
    have hmod : KeyUnique TrackObjData.id (if m then modifyKey TrackObjData.id (objId td.obj)
        (fun d => if d.configState = .none then { d with configState := .ownedByUs } else d)
        self.byObj else self.byObj) := by
      split_ifs
      · exact hw.unique.modifyKey hid
      · exact hw.unique
    unfold GlobalTracker.trackDataUntrack
    dsimp only
    generalize (if m then _ else self.byObj) = byObj at hmod ⊢
    split
    · split_ifs
      · exact hmod.eraseKey
      · exact hmod
    · exact hmod
  keys := hw.keys.eraseKey
  tracked := by
    intro td' h
    rw [lookup_trackDataUntrack_of_mem htd h]
    simpa using hw.tracked td' (mem_eraseKey.mp h).1
  trackable := fun td' h => hw.trackable td' (mem_eraseKey.mp h).1
  weak := fun td' h => hw.weak td' (mem_eraseKey.mp h).1

theorem WellFormed.untracked (htd : ∃ a ∈ self.byData, a.key = td.key) :
    Untracked self (self.trackDataUntrack td false) where
  wellFormed := hw.trackDataUntrack htd false
  data := fun td' h => ⟨td', (mem_eraseKey.mp h).1, rfl, rfl, rfl⟩
  entry := by
    intro td' h
    rw [lookup_trackDataUntrack_of_mem htd h]
    simp
  touched := by
    intro i d hd hc
    rw [lookup_trackDataUntrack]
    split_ifs
    · rw [hd, Option.bind_some]
      simp [untrackEntry, hc]
    · exact hd
  origin := by
    intro i d hd
    rw [lookup_trackDataUntrack] at hd
    split_ifs at hd
    · obtain ⟨d', hd', he⟩ := Option.bind_eq_some_iff.mp hd
      have heq : d' = d := by
        simp only [untrackEntry, Bool.false_eq_true, false_and, ↓reduceIte] at he
        split_ifs at he
        exact Option.some.inj he
      exact heq ▸ hd'
    · exact hd

theorem WellFormed.untrack (obj : Obj) (userTag : Tag)
    : Untracked self (self.untrack obj userTag).1 := by
  unfold GlobalTracker.untrack
  split
  · exact hw.untracked_refl
  · rename_i td htd
    exact hw.untracked ⟨td, (mem_of_trackDataLookup htd).1, rfl⟩

omit [DecidableEq Obj] [DecidableEq Tag] in
theorem WellFormed.mapDirty {f : TrackData Obj Tag → TrackData Obj Tag}
    (hkey : ∀ td, (f td).key = td.key) (hval : ∀ td, (f td).trackPriorityVal = td.trackPriorityVal)
    (hpresent : ∀ td, (f td).trackPriorityPresent = td.trackPriorityPresent) :
    Untracked self { self with byData := self.byData.map f } where
  wellFormed :=
    { unique := hw.unique
      keys := by
        have hmap : (self.byData.map f).map TrackData.key = self.byData.map TrackData.key := by
          rw [List.map_map]
          exact List.map_congr_left fun td _ => hkey td
        unfold KeyUnique
        rw [hmap]
        exact hw.keys
      tracked := by
        intro td h
        obtain ⟨td', htd', rfl⟩ := List.mem_map.mp h
        rw [(Prod.mk.inj (hkey td')).1]
        exact hw.tracked td' htd'
      trackable := by
        intro td h
        obtain ⟨td', htd', rfl⟩ := List.mem_map.mp h
        rw [(Prod.mk.inj (hkey td')).1]
        exact hw.trackable td' htd'
      weak := by
        intro td h
        obtain ⟨td', htd', rfl⟩ := List.mem_map.mp h
        rw [hval, hpresent]
        exact hw.weak td' htd' }
  data := by
    intro td h
    obtain ⟨td', htd', rfl⟩ := List.mem_map.mp h
    exact ⟨td', htd', (hkey td').symm, (hval td').symm, (hpresent td').symm⟩
  entry := fun _ _ => rfl
  touched := fun _ _ h _ => h
  origin := fun _ _ h => h

omit [DecidableEq Obj] in
theorem WellFormed.setDirty (userTag : Tag) : Untracked self (self.setDirty userTag) := by
  apply hw.mapDirty <;> intro td <;> split_ifs <;> rfl

end

theorem WellFormed.untrackAllOne {acc : GlobalTracker Obj Tag × Bool} (hw : acc.1.WellFormed)
    (all makeSurvivorsDirty : Bool) (htd : ∃ a ∈ acc.1.byData, a.key = td.key) :
    Untracked acc.1 (GlobalTracker.untrackAllOne all makeSurvivorsDirty acc td).1 := by
  unfold GlobalTracker.untrackAllOne
  split_ifs
  · exact hw.untracked htd
  · apply hw.mapDirty <;> intro td' <;> split_ifs <;> rfl
  · exact hw.untracked_refl

theorem exists_key_untrackAllOne {acc : GlobalTracker Obj Tag × Bool}
    {all makeSurvivorsDirty : Bool} (hne : td'.key ≠ td.key)
    (h : ∃ a ∈ acc.1.byData, a.key = td'.key) :
    ∃ a ∈ (untrackAllOne all makeSurvivorsDirty acc td).1.byData, a.key = td'.key := by
  obtain ⟨a, ha, hak⟩ := h
  unfold untrackAllOne
  split_ifs
  · exact ⟨a, mem_eraseKey.mpr ⟨ha, hak ▸ hne⟩, hak⟩
  · refine ⟨a, List.mem_map.mpr ⟨a, ha, ?_⟩, hak⟩
    rw [if_neg (hak ▸ hne)]
  · exact ⟨a, ha, hak⟩

theorem WellFormed.foldl_untrackAllOne (all makeSurvivorsDirty : Bool)
    (tds : List (TrackData Obj Tag)) (acc : GlobalTracker Obj Tag × Bool) (hw : acc.1.WellFormed)
    (hu : KeyUnique TrackData.key tds) (htds : ∀ td ∈ tds, ∃ a ∈ acc.1.byData, a.key = td.key) :
    Untracked acc.1 (tds.foldl (GlobalTracker.untrackAllOne all makeSurvivorsDirty) acc).1 := by
  induction tds generalizing acc with
  | nil => exact hw.untracked_refl
  | cons td tds ih =>
    rw [unique_cons] at hu
    have hone := hw.untrackAllOne all makeSurvivorsDirty (htds td List.mem_cons_self)
    apply hone.trans
    apply ih _ hone.wellFormed hu.2
    intro td' htd'
    exact exists_key_untrackAllOne (hu.1 td' htd') (htds td' (List.mem_cons_of_mem _ htd'))

theorem WellFormed.untrackAll (hw : self.WellFormed) (userTag : Tag) (all makeSurvivorsDirty : Bool) :
    Untracked self (self.untrackAll userTag all makeSurvivorsDirty).1 := by
  unfold GlobalTracker.untrackAll
  refine WellFormed.foldl_untrackAllOne all makeSurvivorsDirty _ (self, false) hw
    (hw.keys.filter _) ?_
  intro td htd
  exact ⟨td, (List.mem_filter.mp htd).1, rfl⟩

/-! ## Tracking -/

def newEntry (obj : Obj) (d : Option (TrackObjData Obj)) : Option (TrackObjData Obj) :=
  d.or (some ⟨obj, .none⟩)

theorem lookup_trackSet (hw : self.WellFormed) (obj : Obj) (trackPriority : ℤ) (userTag : Tag)
    (i : Id) :
    lookup TrackObjData.id i (self.trackSet obj trackPriority userTag).1.byObj =
      if i = objId obj then newEntry obj (lookup TrackObjData.id i self.byObj)
      else lookup TrackObjData.id i self.byObj := by
  unfold trackSet
  cases htd : self.trackDataLookup obj userTag with
  | none =>
    cases hd : lookup TrackObjData.id (objId obj) self.byObj with
    | none =>
      simp only [lookup_append, lookup_cons, lookup_nil]
      by_cases hi : i = objId obj
      · subst hi
        simp [hd, newEntry, TrackObjData.id]
      · have hne : (⟨obj, .none⟩ : TrackObjData Obj).id ≠ i := Ne.symm hi
        simp [hi, hne]
    | some d =>
      by_cases hi : i = objId obj
      · subst hi
        simp [hd, newEntry]
      · simp [hi]
  | some td =>
    obtain ⟨hmem, hobj, -⟩ := mem_of_trackDataLookup htd
    have hs := hw.tracked td hmem
    rw [hobj] at hs
    by_cases hi : i = objId obj
    · subst hi
      obtain ⟨d, hd⟩ := Option.isSome_iff_exists.mp hs
      simp [hd, newEntry]
    · simp [hi]

theorem mem_trackSet {trackPriority : ℤ} {userTag : Tag}
    (h : td ∈ (self.trackSet obj trackPriority userTag).1.byData) :
    td ∈ self.byData ∨ (td.obj = obj ∧ td.userTag = userTag ∧
      td.trackPriorityVal = trackPriority.natAbs ∧
      td.trackPriorityPresent = decide (0 ≤ trackPriority)) := by
  unfold trackSet at h
  split at h
  · rcases List.mem_append.mp h with h | h
    · exact Or.inl h
    · rw [List.mem_singleton] at h
      subst h
      exact Or.inr ⟨rfl, rfl, rfl, rfl⟩
  · rename_i a ha
    obtain ⟨td', htd', he⟩ := List.mem_map.mp h
    split_ifs at he with hk
    · obtain ⟨-, hobj, htag⟩ := mem_of_trackDataLookup ha
      subst he
      exact Or.inr ⟨(Prod.mk.inj hk).1.trans hobj, (Prod.mk.inj hk).2.trans htag, rfl, rfl⟩
    · exact Or.inl (he ▸ htd')

theorem WellFormed.trackSet (hw : self.WellFormed) (hobj : Platform.trackable obj = true)
    (trackPriority : ℤ) (userTag : Tag) :
    (self.trackSet obj trackPriority userTag).1.WellFormed where
  unique := by
    unfold GlobalTracker.trackSet
    split
    · dsimp only
      split
      · rename_i h
        exact hw.unique.append_singleton (lookup_eq_none_iff.mp h)
      · exact hw.unique
    · exact hw.unique
  keys := by
    unfold GlobalTracker.trackSet
    split
    · rename_i h
      exact hw.keys.append_singleton (lookup_eq_none_iff.mp h)
    · exact hw.keys.modifyKey fun _ => rfl
  tracked := by
    intro td h
    rw [lookup_trackSet hw]
    rcases mem_trackSet h with h | ⟨h, -⟩
    · have hs := hw.tracked td h
      split_ifs
      · simp [newEntry]
      · exact hs
    · rw [h, if_pos rfl]
      simp [newEntry]
  trackable := by
    intro td h
    rcases mem_trackSet h with h | ⟨h, -⟩
    · exact hw.trackable td h
    · exact h ▸ hobj
  weak := by
    intro td h hval
    rcases mem_trackSet h with h | ⟨-, -, hv, hp⟩
    · exact hw.weak td h hval
    · rw [hp]
      rw [hv] at hval
      have hzero : trackPriority = 0 := Int.natAbs_eq_zero.mp hval
      simp [hzero]

theorem WellFormed.track (hw : self.WellFormed) (obj : Obj) (trackPriority : ℤ) (userTag : Tag)
    (userTagUntrack : Option Tag) :
    (self.track obj trackPriority userTag userTagUntrack).1.WellFormed := by
  unfold GlobalTracker.track
  split_ifs with hobj
  · have hset := hw.trackSet hobj trackPriority userTag
    dsimp only
    split
    · exact hset
    · split_ifs
      · exact hset
      · split
        · exact hset
        · rename_i td htd
          exact hset.trackDataUntrack ⟨td, (mem_of_trackDataLookup htd).1, rfl⟩ true
  · exact hw

/-! ## Syncing -/

omit [DecidableEq Obj] [DecidableEq Tag] in
theorem WellFormed.sync (hw : self.WellFormed) {platform : List Obj} (hp : KeyUnique objId platform)
    (type : NmpObjectType) (keepDeleted : Bool) :
    (self.sync platform type keepDeleted).1.WellFormed := by
  by_cases htype : type = .mptcpAddr
  · unfold GlobalTracker.sync
    rw [if_pos htype]
    exact hw
  · have hdata : (self.sync platform type keepDeleted).1.byData = self.byData := by
      unfold GlobalTracker.sync
      rw [if_neg htype]
    exact
      { unique := by
          unfold GlobalTracker.sync
          rw [if_neg htype]
          exact (unique_syncObjDatas (unique_syncPlobjs _ _ _ hw.unique) _).1
        keys := hdata ▸ hw.keys
        tracked := by
          intro td htd
          rw [hdata] at htd
          obtain ⟨d, hd⟩ := Option.isSome_iff_exists.mp (hw.tracked td htd)
          rw [lookup_sync hp hw.unique htype, hd]
          have hafter : ∃ d', afterFirst self.byData keepDeleted
              (lookup objId (objId td.obj) (syncSelect type platform)) (some d) = some d' ∧
              d'.id = objId td.obj := by
            have hid : d.id = objId td.obj := key_of_lookup hd
            unfold afterFirst
            split_ifs
            · exact ⟨_, rfl, (syncPlobjEntry_id _ _ _).trans hid⟩
            · exact ⟨d, rfl, hid⟩
          obtain ⟨d', hd', hid⟩ := hafter
          rw [hd', Option.bind_some]
          split_ifs
          · apply syncObjData_isSome
            rw [Option.isSome_iff_ne_none, hid, Ne, winner_eq_none_iff]
            intro hnone
            exact hnone td htd rfl
          · rfl
        trackable := hdata ▸ hw.trackable
        weak := hdata ▸ hw.weak }

end GlobalTracker

/-!
## What a sync may take away

The tracker together with the platform cache, which its syncs change and which
others change as well. `ours` is history, not state of the program: the identities
whose object on the platform was put there by a sync, or of which ownership was
taken by tracking them with `user_tag_untrack`.

A sync deletes objects that are not tracked at all as soon as the tracker still
remembers their identity.
-/

structure TrackerSystem (Obj Id Tag : Type) where
  tracker : GlobalTracker Obj Tag
  platform : List Obj
  ours : List Id
  deriving DecidableEq

inductive TrackerEvent (Obj Id Tag : Type)
  | track (obj : Obj) (trackPriority : ℤ) (userTag : Tag) (userTagUntrack : Option Tag)
  | untrack (obj : Obj) (userTag : Tag)
  | untrackAll (userTag : Tag) (all makeSurvivorsDirty : Bool)
  | setDirty (userTag : Tag)
  | sync (type : NmpObjectType)
  | externalAdd (obj : Obj)
  | externalDelete (i : Id)
  deriving DecidableEq

variable {Obj Id Tag : Type} [DecidableEq Obj] [DecidableEq Id] [DecidableEq Tag]
  [NmpObjectClass Obj Id] {os : List Obj} {ours : List Id} {i : Id}

/-- The call to `nmp_global_tracker_track()` finds an entry to untrack in exchange. -/
def GlobalTracker.takesOwnership (self : GlobalTracker Obj Tag) (obj : Obj) (userTag : Tag)
    (userTagUntrack : Option Tag) : Bool :=
  match userTagUntrack with
  | none => false
  | some tag => trackable obj && userTag ≠ tag && (self.trackDataLookup obj tag).isSome

def PlatformOp.applyOurs (ours : List Id) : PlatformOp Obj → List Id
  | .delete o => ours.filter (· ≠ objId o)
  | .add o => objId o :: ours

omit [DecidableEq Obj] in
theorem mem_foldl_applyOurs_delete :
    i ∈ (os.map PlatformOp.delete).foldl PlatformOp.applyOurs ours ↔
      i ∈ ours ∧ ∀ o ∈ os, objId o ≠ i := by
  induction os generalizing ours with
  | nil => simp
  | cons o os ih =>
    rw [List.map_cons, List.foldl_cons, ih]
    simp only [PlatformOp.applyOurs, List.mem_filter, List.forall_mem_cons, decide_eq_true_eq]
    constructor
    · rintro ⟨⟨hi, hne⟩, hos⟩
      exact ⟨hi, Ne.symm hne, hos⟩
    · rintro ⟨hi, hne, hos⟩
      exact ⟨⟨hi, Ne.symm hne⟩, hos⟩

omit [DecidableEq Obj] in
theorem mem_foldl_applyOurs_add :
    i ∈ (os.map PlatformOp.add).foldl PlatformOp.applyOurs ours ↔
      i ∈ os.map objId ∨ i ∈ ours := by
  induction os generalizing ours with
  | nil => simp
  | cons o os ih =>
    rw [List.map_cons, List.foldl_cons, ih]
    simp only [PlatformOp.applyOurs, List.map_cons, List.mem_cons]
    tauto

namespace TrackerSystem

def init : TrackerSystem Obj Id Tag := ⟨.empty, [], []⟩

/-- The syncs are those with `keep_deleted` unset. -/
def step (s : TrackerSystem Obj Id Tag) : TrackerEvent Obj Id Tag → TrackerSystem Obj Id Tag
  | .track obj trackPriority userTag userTagUntrack =>
    { s with
      tracker := (s.tracker.track obj trackPriority userTag userTagUntrack).1
      ours := if s.tracker.takesOwnership obj userTag userTagUntrack then objId obj :: s.ours
        else s.ours }
  | .untrack obj userTag => { s with tracker := (s.tracker.untrack obj userTag).1 }
  | .untrackAll userTag all makeSurvivorsDirty =>
    { s with tracker := (s.tracker.untrackAll userTag all makeSurvivorsDirty).1 }
  | .setDirty userTag => { s with tracker := s.tracker.setDirty userTag }
  | .sync type =>
    let r := s.tracker.sync s.platform type false
    { tracker := r.1
      platform := r.2.foldl PlatformOp.apply s.platform
      ours := r.2.foldl PlatformOp.applyOurs s.ours }
  | .externalAdd obj =>
    { s with
      platform := put objId obj s.platform
      ours := s.ours.filter (· ≠ objId obj) }
  | .externalDelete i =>
    { s with
      platform := eraseKey objId i s.platform
      ours := s.ours.filter (· ≠ i) }

structure WellFormed (s : TrackerSystem Obj Id Tag) : Prop where
  tracker : s.tracker.WellFormed
  platform : KeyUnique objId s.platform

omit [DecidableEq Obj] [DecidableEq Tag] in
theorem wellFormed_init : (init : TrackerSystem Obj Id Tag).WellFormed :=
  ⟨GlobalTracker.wellFormed_empty, unique_nil⟩

variable {s : TrackerSystem Obj Id Tag}

theorem WellFormed.step (hs : s.WellFormed) (e : TrackerEvent Obj Id Tag)
    : (s.step e).WellFormed := by
  cases e with
  | track obj trackPriority userTag userTagUntrack =>
    exact ⟨hs.tracker.track obj trackPriority userTag userTagUntrack, hs.platform⟩
  | untrack obj userTag => exact ⟨(hs.tracker.untrack obj userTag).wellFormed, hs.platform⟩
  | untrackAll userTag all makeSurvivorsDirty =>
    exact ⟨(hs.tracker.untrackAll userTag all makeSurvivorsDirty).wellFormed, hs.platform⟩
  | setDirty userTag => exact ⟨(hs.tracker.setDirty userTag).wellFormed, hs.platform⟩
  | sync type => exact ⟨hs.tracker.sync hs.platform type false,
      GlobalTracker.unique_foldl_apply hs.platform⟩
  | externalAdd obj => exact ⟨hs.tracker, hs.platform.put⟩
  | externalDelete i => exact ⟨hs.tracker, hs.platform.eraseKey⟩

theorem wellFormed_foldl (es : List (TrackerEvent Obj Id Tag)) :
    (es.foldl step (init : TrackerSystem Obj Id Tag)).WellFormed := by
  have hstep : ∀ (s : TrackerSystem Obj Id Tag) e, s.WellFormed → (s.step e).WellFormed :=
    fun _ e hs => hs.step e
  exact foldl_invariant hstep wellFormed_init es

/-! ## Deletions and their reasons -/

/-- A sync in state `s` that makes the requests `ops` has a reason to delete `o`:
the winning entry asks for the absence of the object, or it is ours and nobody wants
it present, or another object of the same identity takes its place. -/
def MayDelete (s : TrackerSystem Obj Id Tag) (ops : List (PlatformOp Obj)) (o : Obj) : Prop :=
  (∃ td, GlobalTracker.winner s.tracker.byData (objId o) = some td ∧
    td.trackPriorityPresent = false) ∨
  (objId o ∈ s.ours ∧ ∀ td ∈ s.tracker.byData, objId td.obj = objId o →
    td.trackPriorityPresent = false) ∨
  ∃ td ∈ s.tracker.byData, objId td.obj = objId o ∧ semanticallyEqual td.obj o = false ∧
    PlatformOp.add td.obj ∈ ops

/-- No entry of any user tag tracks the identity. -/
def NotTracked (s : TrackerSystem Obj Id Tag) (i : Id) : Prop :=
  ∀ td ∈ s.tracker.byData, objId td.obj ≠ i

instance (s : TrackerSystem Obj Id Tag) (i : Id) : Decidable (s.NotTracked i) :=
  inferInstanceAs (Decidable (∀ td ∈ s.tracker.byData, objId td.obj ≠ i))

/-- A sync deletes objects for a reason only, and leaves alone what others added and
nobody tracks. -/
def SyncRespectsOwnership (s : TrackerSystem Obj Id Tag) : TrackerEvent Obj Id Tag → Prop
  | .sync type =>
    (∀ o, PlatformOp.delete o ∈ (s.tracker.sync s.platform type false).2 →
      s.MayDelete (s.tracker.sync s.platform type false).2 o) ∧
    ∀ o ∈ s.platform, objId o ∉ s.ours → s.NotTracked (objId o) →
      lookup objId (objId o) (s.step (.sync type)).platform = some o
  | _ => True

/-- Whatever the sync finds on the platform that nobody tracks, but whose identity the
tracker remembers, is ours. -/
def NoForeignTombstone (s : TrackerSystem Obj Id Tag) : TrackerEvent Obj Id Tag → Prop
  | .sync type =>
    type ≠ .mptcpAddr → ∀ o ∈ GlobalTracker.syncSelect type s.platform,
      (lookup TrackObjData.id (objId o) s.tracker.byObj).isSome → s.NotTracked (objId o) →
        objId o ∈ s.ours
  | _ => True

instance (s : TrackerSystem Obj Id Tag) : ∀ e, Decidable (s.NoForeignTombstone e)
  | .sync type => inferInstanceAs (Decidable (type ≠ .mptcpAddr → ∀ o ∈ _, _ → _ → _))
  | .track .. | .untrack .. | .untrackAll .. | .setDirty .. | .externalAdd .. |
    .externalDelete .. => inferInstanceAs (Decidable True)

theorem survives_of_noForeignTombstone (hs : s.WellFormed) {type : NmpObjectType}
    (h : s.NoForeignTombstone (.sync type)) {o : Obj} (ho : o ∈ s.platform)
    (hours : objId o ∉ s.ours) (hnot : s.NotTracked (objId o)) :
    lookup objId (objId o) (s.step (.sync type)).platform = some o := by
  rw [← lookup_of_mem hs.platform ho]
  apply GlobalTracker.lookup_foldl_apply_of_ne
  intro op hop hid
  have hwin : GlobalTracker.winner s.tracker.byData (objId o) = none :=
    GlobalTracker.winner_eq_none_iff.mpr hnot
  obtain ⟨-, hdel⟩ :=
    GlobalTracker.lookup_isSome_of_mem_sync hs.platform hs.tracker.unique hop
  obtain ⟨o', rfl⟩ := hdel (hid ▸ hwin)
  have hid' : objId o' = objId o := hid
  rcases GlobalTracker.delete_mem_sync hs.platform hs.tracker.unique hop with
    ⟨htype, hsel, hentry, -⟩ | ⟨td, htd, htdid, -⟩
  · rw [hid'] at hentry
    have heq : o' = o := eq_of_key_eq hs.platform (List.mem_filter.mp hsel).1 ho hid'
    subst heq
    exact hours (h htype o' hsel hentry hnot)
  · exact hnot td htd (htdid.trans hid')

theorem syncRespectsOwnership_iff (hs : s.WellFormed) (e : TrackerEvent Obj Id Tag)
    : s.SyncRespectsOwnership e ↔ s.NoForeignTombstone e := by
  cases e with
  | sync type =>
    constructor
    · rintro ⟨hdel, -⟩ htype o ho hentry hnot
      have hwin : GlobalTracker.winner s.tracker.byData (objId o) = none :=
        GlobalTracker.winner_eq_none_iff.mpr hnot
      have hmem := GlobalTracker.delete_mem_sync_of_winner_none hs.platform hs.tracker.unique
        htype ho hentry hwin
      rcases hdel o hmem with ⟨td, htd, -⟩ | ⟨hours, -⟩ | ⟨td, htd, hid, -⟩
      · rw [hwin] at htd
        cases htd
      · exact hours
      · exact absurd hid (hnot td htd)
    · intro h
      refine ⟨?_, fun o ho hours hnot => survives_of_noForeignTombstone hs h ho hours hnot⟩
      intro o hop
      rcases GlobalTracker.delete_mem_sync hs.platform hs.tracker.unique hop with
        ⟨htype, hsel, hentry, hwin⟩ | hreplaced
      · cases hbest : GlobalTracker.winner s.tracker.byData (objId o) with
        | none =>
          have hnot := GlobalTracker.winner_eq_none_iff.mp hbest
          refine Or.inr (Or.inl ⟨h htype o hsel hentry hnot, ?_⟩)
          intro td htd hid
          exact absurd hid (hnot td htd)
        | some td => exact Or.inl ⟨td, hbest, hwin td hbest⟩
      · exact Or.inr (Or.inr hreplaced)
  | track | untrack | untrackAll | setDirty | externalAdd | externalDelete => exact Iff.rfl

/-- A run deletes objects only for a reason, exactly if its syncs never meet a foreign
object under an identity that the tracker remembers and nobody tracks. -/
theorem sync_respects_ownership_iff (es : List (TrackerEvent Obj Id Tag)) :
    Along step SyncRespectsOwnership init es ↔ Along step NoForeignTombstone init es := by
  have hstep : ∀ (s : TrackerSystem Obj Id Tag) e, s.WellFormed → (s.step e).WellFormed :=
    fun _ e hs => hs.step e
  exact along_congr hstep wellFormed_init fun _ e hs => syncRespectsOwnership_iff hs e

end TrackerSystem

/-! ## A foreign rule that is taken away -/

/-- Routing rules that differ in their priority and their table only. -/
structure SampleRule where
  priority : ℕ
  table : ℕ
  deriving DecidableEq

instance : NmpObjectClass SampleRule SampleRule where
  objId r := r
  objType _ := .routingRule
  ifindex _ := 0
  semanticallyEqual r r' := r = r'
  objType_congr _ _ _ := rfl
  ifindex_congr _ _ _ := rfl

namespace TrackerSystem

def readdedRun : List (TrackerEvent SampleRule SampleRule ℕ) :=
  let rule : SampleRule := ⟨100, 254⟩
  [.externalAdd rule, .track rule (-10) 1 none, .sync .routingRule, .untrack rule 1,
    .externalAdd rule, .sync .routingRule]

theorem sync_takes_foreign_rule :
    ¬ ∀ es : List (TrackerEvent SampleRule SampleRule ℕ),
      Along step SyncRespectsOwnership init es := by
  intro h
  have hlast : SyncRespectsOwnership ((readdedRun.take 5).foldl step init)
      (.sync .routingRule) := (along_append.mp (h (readdedRun.take 5 ++ [.sync .routingRule]))).2.1
  rw [syncRespectsOwnership_iff (wellFormed_foldl _)] at hlast
  revert hlast
  decide

end TrackerSystem
end NetworkManager.Platform
