import NetworkManager.Platform.GlobalTrackerOwnership

/-!
# Weak tracking as an undo log

An entry of priority zero asks the syncs to restore what they removed and to leave
the object alone otherwise. The restoring half works: a sync that ends with weak
entries only puts the object back if it was removed. The other half does not, since
the first loop of `nmp_global_tracker_sync()` finds a weak entry `present` before it
asks whether it is weak: what a sync added on behalf of a stronger entry stays.
-/

namespace NetworkManager.Platform

open Lib NmpObjectClass

variable {Obj Id Tag : Type} [DecidableEq Id] [NmpObjectClass Obj Id] {i : Id} {o : Obj}
  {d : TrackObjData Obj} {td : TrackData Obj Tag} {t : GlobalTracker Obj Tag}

def ConfigState.restores (c : ConfigState) : Prop := c = .removedByUs ∨ c = .ownedByUs

instance (c : ConfigState) : Decidable c.restores :=
  inferInstanceAs (Decidable (_ ∨ _))

namespace GlobalTracker

/-! ## A sync of one tracked identity -/

/-- What is on the platform for `i` and what the tracker would do to restore it. -/
structure SyncOutcome (td : TrackData Obj Tag) (present present' : Bool) (c c' : ConfigState) :
    Prop where
  absent : td.trackPriorityPresent = false → present' = false ∧
    (c'.restores ↔ present = true ∨ c.restores)
  positive : td.trackPriorityPresent = true → td.trackPriorityVal ≠ 0 → present' = true
  weak : td.trackPriorityPresent = true → td.trackPriorityVal = 0 →
    (present' = true ↔ present = true ∨ c.restores) ∧ (present' = false → ¬ c'.restores)

def platformAfter (i : Id) (ops : List (PlatformOp Obj)) (plobj : Option Obj) : Option Obj :=
  lookup objId i (ops.foldl PlatformOp.apply plobj.toList)

variable {plobj : Option Obj}

theorem platformAfter_add {ops : List (PlatformOp Obj)} (ho : objId o = i)
    : platformAfter i (ops ++ [.add o]) plobj = some o := by
  simp [platformAfter, PlatformOp.apply, ho]

theorem platformAfter_nil (hp : ∀ o ∈ plobj, objId o = i) : platformAfter i [] plobj = plobj := by
  cases plobj with
  | none => rfl
  | some o => simp [platformAfter, lookup_cons, hp o rfl]

theorem syncConfigure_isSome (hd : d.id = i) (hp : ∀ o ∈ plobj, objId o = i) (c : ConfigState) :
    ∃ d', (syncConfigure { d with configState := c } plobj).1 = some d' ∧
      (platformAfter i (syncConfigure { d with configState := c } plobj).2 plobj).isSome := by
  rcases syncConfigure_cases { d with configState := c } plobj with ⟨hsome, h⟩ | ⟨-, h⟩
  · rw [h]
    exact ⟨_, rfl, by rwa [platformAfter_nil hp]⟩
  · rw [h]
    exact ⟨_, rfl, by simp [platformAfter_add hd]⟩

theorem syncObjData_some (td : TrackData Obj Tag) (hd : d.id = i) (hp : ∀ o ∈ plobj, objId o = i) :
    ∃ d', (syncObjData (some td) d plobj).1 = some d' ∧
      let after := platformAfter i (syncObjData (some td) d plobj).2 plobj
      if td.trackPriorityPresent = false then
        after = plobj ∧ (d'.configState.restores ↔ d.configState.restores)
      else if td.trackPriorityVal = 0 ∧ ¬ d.configState.restores then
        after = plobj ∧ d'.configState = .none
      else after.isSome := by
  have hnil := platformAfter_nil hp
  cases hpresent : td.trackPriorityPresent with
  | false =>
    unfold syncObjData
    by_cases hc : d.configState = .ownedByUs
    · simp [hpresent, hc, hnil, ConfigState.restores]
    · simp [hpresent, hc, hnil]
  | true =>
    by_cases hweak : td.trackPriorityVal = 0 ∧ ¬ d.configState.restores
    · have hc : d.configState ≠ .removedByUs ∧ d.configState ≠ .ownedByUs := by
        simpa [ConfigState.restores] using hweak.2
      simp [syncObjData, hpresent, hweak, hc, hnil]
    · have hconf : ∃ c, syncObjData (some td) d plobj =
          syncConfigure { d with configState := c } plobj := by
        by_cases hval : td.trackPriorityVal = 0
        · have hc : ¬ (d.configState ≠ .removedByUs ∧ d.configState ≠ .ownedByUs) := by
            intro h
            exact hweak ⟨hval, by simpa [ConfigState.restores] using h⟩
          refine ⟨.none, ?_⟩
          unfold syncObjData
          simp only [hpresent, hval, not_true_eq_false, ↓reduceIte]
          rw [if_neg hc]
        · refine ⟨d.configState, ?_⟩
          simp [syncObjData, hpresent, hval]
      obtain ⟨c, hconf⟩ := hconf
      rw [hconf]
      simp only [Bool.true_eq_false, ↓reduceIte, if_neg hweak]
      exact syncConfigure_isSome hd hp c

variable {platform : List Obj}

theorem lookup_syncSelect (hp : KeyUnique objId platform) (ho : trackable o = true)
    (htype : objType o ≠ .mptcpAddr) :
    lookup objId (objId o) (syncSelect (objType o) platform) = lookup objId (objId o) platform := by
  cases h : lookup objId (objId o) platform with
  | none =>
    rw [lookup_eq_none_iff] at h ⊢
    exact fun o' ho' => h o' (List.mem_filter.mp ho').1
  | some o' =>
    have hid : objId o' = objId o := key_of_lookup h
    have ht : objType o' = objType o := NmpObjectClass.objType_congr o' o hid
    have hi : ifindex o' = ifindex o := NmpObjectClass.ifindex_congr o' o hid
    have hsel : objType o = .routingRule ∨ ifindex o = 0 := by
      unfold trackable at ho
      cases hc : objType o with
      | ip4Route | ip6Route => exact Or.inr (by simpa [hc] using ho)
      | routingRule => exact Or.inl rfl
      | mptcpAddr => exact absurd hc htype
    rw [lookup_eq_some_iff (unique_syncSelect _ hp)]
    refine ⟨List.mem_filter.mpr ⟨mem_of_lookup h, ?_⟩, hid⟩
    simp [ht, hi, hsel]

theorem afterFirst_some (byData : List (TrackData Obj Tag)) (plobj : Option Obj)
    (d : TrackObjData Obj) : ∃ d', afterFirst byData false plobj (some d) = some d' ∧
      d'.id = d.id ∧ d'.configState = if plobj.isSome
        then (syncPlobj false (winner byData d.id) d.configState).1 else d.configState := by
  unfold afterFirst
  split_ifs
  · exact ⟨_, rfl, syncPlobjEntry_id _ _ _, rfl⟩
  · exact ⟨d, rfl, rfl, rfl⟩

/-- Both loops on a tracked identity. -/
theorem outcome_of_loops {c : ConfigState}
    (hweak : td.trackPriorityVal = 0 → td.trackPriorityPresent = true) (hd : d.id = i)
    (hp : ∀ o ∈ plobj, objId o = i)
    (hc : d.configState = if plobj.isSome then (syncPlobj false (some td) c).1 else c) :
    let plobj₁ := if plobj.isSome && (syncPlobj false (some td) c).2 then none else plobj
    ∃ d', (syncObjData (some td) d plobj₁).1 = some d' ∧
      SyncOutcome td plobj.isSome
        (platformAfter i (syncObjData (some td) d plobj₁).2 plobj₁).isSome c d'.configState := by
  intro plobj₁
  have hp₁ : ∀ o ∈ plobj₁, objId o = i := by
    intro o ho
    unfold plobj₁ at ho
    split_ifs at ho
    · cases ho
    · exact hp o ho
  obtain ⟨d', hd', hout⟩ := syncObjData_some td hd hp₁
  refine ⟨d', hd', ?_⟩
  dsimp only at hout
  cases hpresent : td.trackPriorityPresent with
  | false =>
    have hval : td.trackPriorityVal ≠ 0 := by
      intro h
      simp [hweak h] at hpresent
    have hfirst : syncPlobj false (some td) c = (.removedByUs, true) := by
      simp [syncPlobj, hpresent, hval]
    rw [if_pos hpresent] at hout
    obtain ⟨hafter, hrestores⟩ := hout
    constructor
    · intro _
      rw [hafter, hrestores, hc, hfirst]
      cases plobj with
      | none => simp [plobj₁]
      | some o => simp [plobj₁, hfirst, ConfigState.restores]
    · simp [hpresent]
    · simp [hpresent]
  | true =>
    have hfirst : syncPlobj false (some td) c =
        (if c = .ownedByUs then .addedByUs else c, false) := by
      simp [syncPlobj, hpresent]
    have hplobj₁ : plobj₁ = plobj := by simp [plobj₁, hfirst]
    rw [if_neg (by simp [hpresent])] at hout
    rw [hplobj₁] at hout ⊢
    constructor
    · simp [hpresent]
    · intro _ hval
      rw [if_neg (fun h => hval h.1)] at hout
      exact hout
    · intro _ hval
      by_cases hdr : d.configState.restores
      · rw [if_neg (fun h => h.2 hdr)] at hout
        have hcr : plobj.isSome = true ∨ c.restores := by
          cases plobj with
          | none =>
            have hdc : d.configState = c := hc
            exact Or.inr (hdc ▸ hdr)
          | some o => exact Or.inl rfl
        simp [hout, hcr]
      · rw [if_pos ⟨hval, hdr⟩] at hout
        obtain ⟨hafter, hnone⟩ := hout
        rw [hafter, hnone]
        refine ⟨⟨Or.inl, ?_⟩, fun _ => by simp [ConfigState.restores]⟩
        rintro (h | h)
        · exact h
        · cases plobj with
          | none =>
            have hdc : d.configState = c := hc
            exact absurd (hdc.symm ▸ h) hdr
          | some o => rfl

/-- A sync of the type of a tracked identity does with it what the winning entry asks
for, and a winning weak entry restores it. -/
theorem sync_outcome (hw : t.WellFormed) (hp : KeyUnique objId platform)
    (htype : objType o ≠ .mptcpAddr) (hwin : winner t.byData (objId o) = some td) :
    ∃ d d', lookup TrackObjData.id (objId o) t.byObj = some d ∧
      lookup TrackObjData.id (objId o) (t.sync platform (objType o) false).1.byObj = some d' ∧
      SyncOutcome td (lookup objId (objId o) platform).isSome
        (lookup objId (objId o) ((t.sync platform (objType o) false).2.foldl
          PlatformOp.apply platform)).isSome d.configState d'.configState := by
  obtain ⟨htd, htdid⟩ := winner_mem hwin
  obtain ⟨d, hd⟩ := Option.isSome_iff_exists.mp (hw.tracked td htd)
  rw [htdid] at hd
  have hdid : d.id = objId o := key_of_lookup hd
  have htrack : trackable o = true := by
    have h := hw.trackable td htd
    have ht : objType td.obj = objType o := NmpObjectClass.objType_congr _ _ htdid
    have hi : ifindex td.obj = ifindex o := NmpObjectClass.ifindex_congr _ _ htdid
    unfold trackable at h ⊢
    rwa [ht, hi] at h
  obtain ⟨d₁, hd₁, hd₁id, hd₁c⟩ := afterFirst_some t.byData (lookup objId (objId o) platform) d
  have ht₁ : objType d₁.obj = objType o :=
    NmpObjectClass.objType_congr _ _ (hd₁id.trans hdid)
  have hplobj : ∀ o' ∈ lookup objId (objId o) platform, objId o' = objId o :=
    fun o' ho' => key_of_lookup ho'
  have hbest₁ : (getBestData t.byData d₁).2.configState = d₁.configState :=
    getBestData_configState t.byData d₁
  have hid₁ : d₁.id = objId o := hd₁id.trans hdid
  rw [hdid, hwin] at hd₁c
  obtain ⟨d', hd', hout⟩ := outcome_of_loops (hw.weak td htd)
    ((getBestData_id t.byData d₁).trans hid₁) hplobj (hbest₁.trans hd₁c)
  have hfirst : plobjAfterFirst t platform (objType o) false (objId o) =
      if (lookup objId (objId o) platform).isSome && (syncPlobj false (some td) d.configState).2
      then none else lookup objId (objId o) platform := by
    unfold plobjAfterFirst firstDeletes
    rw [lookup_syncSelect hp htrack htype, hd, hwin, Option.any_some]
  refine ⟨d, d', hd, ?_, ?_⟩
  · rw [lookup_sync hp hw.unique htype, lookup_syncSelect hp htrack htype, hd, hd₁,
      Option.bind_some, if_pos ht₁, syncEntry, hid₁, hwin, hfirst]
    exact hd'
  · rw [lookup_platform_sync hp hw.unique htype, lookup_syncSelect hp htrack htype, hd, hd₁]
    dsimp only
    rw [if_pos ht₁, syncEntry, hid₁, hwin, hfirst]
    exact hout

theorem sync_other (hw : t.WellFormed) (hp : KeyUnique objId platform) {type : NmpObjectType}
    (htype : objType o ≠ type) :
    lookup TrackObjData.id (objId o) (t.sync platform type false).1.byObj =
        lookup TrackObjData.id (objId o) t.byObj ∧
      lookup objId (objId o) ((t.sync platform type false).2.foldl PlatformOp.apply platform) =
        lookup objId (objId o) platform := by
  by_cases hm : type = .mptcpAddr
  · unfold sync
    simp [if_pos hm]
  · have hsel : lookup objId (objId o) (syncSelect type platform) = none := by
      rw [lookup_eq_none_iff]
      intro o' ho' hid
      have ht : objType o' = type := (of_decide_eq_true (List.mem_filter.mp ho').2).1
      exact htype ((NmpObjectClass.objType_congr o' o hid).symm.trans ht)
    have hfirst : plobjAfterFirst t platform type false (objId o) =
        lookup objId (objId o) platform := by
      unfold plobjAfterFirst firstDeletes
      rw [hsel]
      simp
    have hother : ∀ d, lookup TrackObjData.id (objId o) t.byObj = some d → objType d.obj ≠ type := by
      intro d hd ht
      have hid : d.id = objId o := key_of_lookup hd
      exact htype ((NmpObjectClass.objType_congr _ _ hid).symm.trans ht)
    rw [lookup_sync hp hw.unique hm, lookup_platform_sync hp hw.unique hm, hsel, hfirst]
    cases hd : lookup TrackObjData.id (objId o) t.byObj with
    | none => exact ⟨rfl, rfl⟩
    | some d => simp [afterFirst, hother d hd]

end GlobalTracker

/-! ## Runs with a weak entry -/

namespace TrackerSystem

def Present (s : TrackerSystem Obj Id Tag) (i : Id) : Prop := (lookup objId i s.platform).isSome

/-- Some tag tracks the identity with priority zero. -/
def WeaklyTracked (s : TrackerSystem Obj Id Tag) (i : Id) : Prop :=
  ∃ td ∈ s.tracker.byData, objId td.obj = i ∧ td.trackPriorityVal = 0

/-- No tag tracks the identity with another priority. -/
def OnlyWeaklyTracked (s : TrackerSystem Obj Id Tag) (i : Id) : Prop :=
  ∀ td ∈ s.tracker.byData, objId td.obj = i → td.trackPriorityVal = 0

/-- The identity is weakly tracked, ownership of it is not taken explicitly, and only
syncs change it on the platform. -/
def Undisturbed (i : Id) (s : TrackerSystem Obj Id Tag) (e : TrackerEvent Obj Id Tag) : Prop :=
  s.WeaklyTracked i ∧ match e with
    | .track obj _ _ userTagUntrack => objId obj = i → userTagUntrack = none
    | .externalAdd obj => objId obj ≠ i
    | .externalDelete j => j ≠ i
    | _ => True

instance (s : TrackerSystem Obj Id Tag) (i : Id) : Decidable (s.Present i) :=
  inferInstanceAs (Decidable (_ = true))

instance (s : TrackerSystem Obj Id Tag) (i : Id) : Decidable (s.WeaklyTracked i) :=
  inferInstanceAs (Decidable (∃ td ∈ s.tracker.byData, _ ∧ _))

instance (s : TrackerSystem Obj Id Tag) (i : Id) : Decidable (s.OnlyWeaklyTracked i) :=
  inferInstanceAs (Decidable (∀ td ∈ s.tracker.byData, _ → _))

instance (i : Id) (s : TrackerSystem Obj Id Tag) :
    ∀ e, Decidable (Undisturbed i s e)
  | .track obj _ _ userTagUntrack =>
    inferInstanceAs (Decidable (_ ∧ (objId obj = i → userTagUntrack = none)))
  | .externalAdd .. | .externalDelete .. => inferInstanceAs (Decidable (_ ∧ _ ≠ _))
  | .untrack .. | .untrackAll .. | .setDirty .. | .sync .. =>
    inferInstanceAs (Decidable (_ ∧ True))

/-- A sync has removed the object, or owns it. -/
def DueForRestore (s : TrackerSystem Obj Id Tag) (i : Id) : Prop :=
  ∃ d, lookup TrackObjData.id i s.tracker.byObj = some d ∧ d.configState.restores

/-- No sync of the type of `o` runs while a positive entry wins for the identity of `o`. -/
def NoPositiveSync (o : Obj) (s : TrackerSystem Obj Id Tag) : TrackerEvent Obj Id Tag → Prop
  | .sync type => type = objType o →
    ∀ td, GlobalTracker.winner s.tracker.byData (objId o) = some td →
      td.trackPriorityPresent = true → td.trackPriorityVal = 0
  | _ => True

def Restorable (s : TrackerSystem Obj Id Tag) (i : Id) : Prop := s.Present i ∨ s.DueForRestore i

variable {s : TrackerSystem Obj Id Tag}

theorem restorable_congr {s' : TrackerSystem Obj Id Tag}
    (hplat : lookup objId i s'.platform = lookup objId i s.platform)
    (hentry : lookup TrackObjData.id i s'.tracker.byObj = lookup TrackObjData.id i s.tracker.byObj)
    : s'.Restorable i ↔ s.Restorable i := by
  unfold Restorable Present DueForRestore
  rw [hplat, hentry]

theorem winner_of_weaklyTracked (h : s.WeaklyTracked i)
    : ∃ td, GlobalTracker.winner s.tracker.byData i = some td := by
  obtain ⟨td, htd, hid, -⟩ := h
  cases hwin : GlobalTracker.winner s.tracker.byData i with
  | none => exact absurd hid (GlobalTracker.winner_eq_none_iff.mp hwin td htd)
  | some best => exact ⟨best, rfl⟩

theorem restorable_of_untracked {t' : GlobalTracker Obj Tag}
    (hu : GlobalTracker.Untracked s.tracker t')
    (hweak : ∃ td ∈ t'.byData, objId td.obj = i ∧ td.trackPriorityVal = 0) :
    Restorable { s with tracker := t' } i ↔ s.Restorable i := by
  obtain ⟨td, htd, hid, -⟩ := hweak
  have hentry := hu.entry td htd
  rw [hid] at hentry
  exact restorable_congr rfl hentry

theorem dueForRestore_iff (hd : lookup TrackObjData.id i s.tracker.byObj = some d) :
    s.DueForRestore i ↔ d.configState.restores := by
  unfold DueForRestore
  simp [hd]

theorem noPositiveSync_iff (hwin : GlobalTracker.winner s.tracker.byData (objId o) = some td) :
    NoPositiveSync o s (.sync (objType o)) ↔
      (td.trackPriorityPresent = true → td.trackPriorityVal = 0) := by
  simp [NoPositiveSync, hwin]

variable [DecidableEq Obj] [DecidableEq Tag] {es : List (TrackerEvent Obj Id Tag)}

theorem restorable_sync (hs : s.WellFormed) (htype : objType o ≠ .mptcpAddr)
    (hwin : GlobalTracker.winner s.tracker.byData (objId o) = some td) :
    (s.step (.sync (objType o))).Restorable (objId o) ↔
      s.Restorable (objId o) ∨ ¬ NoPositiveSync o s (.sync (objType o)) := by
  obtain ⟨d, d', hd, hd', hout⟩ := GlobalTracker.sync_outcome hs.tracker hs.platform htype hwin
  have hdue' : (s.step (.sync (objType o))).DueForRestore (objId o) ↔ d'.configState.restores :=
    dueForRestore_iff hd'
  unfold Restorable
  rw [hdue', dueForRestore_iff hd, noPositiveSync_iff hwin]
  unfold Present
  cases hpresent : td.trackPriorityPresent with
  | false =>
    obtain ⟨hgone, hrestores⟩ := hout.absent hpresent
    have hgone' : (lookup objId (objId o) (s.step (.sync (objType o))).platform).isSome = false :=
      hgone
    simp [hgone', hrestores]
  | true =>
    by_cases hval : td.trackPriorityVal = 0
    · obtain ⟨hback, hrest⟩ := hout.weak hpresent hval
      have hback' : (lookup objId (objId o) (s.step (.sync (objType o))).platform).isSome = true ↔
          (lookup objId (objId o) s.platform).isSome = true ∨ d.configState.restores := hback
      have hrest' : (lookup objId (objId o) (s.step (.sync (objType o))).platform).isSome = false →
          ¬ d'.configState.restores := hrest
      rw [← hback']
      simp only [hval, implies_true, not_true_eq_false, or_false]
      refine ⟨?_, Or.inl⟩
      rintro (h | h)
      · exact h
      · by_contra hn
        exact hrest' (Bool.eq_false_iff.mpr hn) h
    · have hput : (lookup objId (objId o) (s.step (.sync (objType o))).platform).isSome = true :=
        hout.positive hpresent hval
      simp [hput, hval]

theorem lookup_track (hw : t.WellFormed) {obj : Obj} {trackPriority : ℤ} {userTag : Tag}
    {userTagUntrack : Option Tag} (hnone : objId obj = i → userTagUntrack = none)
    (hi : (lookup TrackObjData.id i t.byObj).isSome) :
    lookup TrackObjData.id i (t.track obj trackPriority userTag userTagUntrack).1.byObj =
      lookup TrackObjData.id i t.byObj := by
  have hset : lookup TrackObjData.id i (t.trackSet obj trackPriority userTag).1.byObj =
      lookup TrackObjData.id i t.byObj := by
    rw [GlobalTracker.lookup_trackSet hw]
    split_ifs
    · obtain ⟨d, hd⟩ := Option.isSome_iff_exists.mp hi
      rw [hd]
      rfl
    · rfl
  unfold GlobalTracker.track
  split_ifs
  · dsimp only
    split
    · exact hset
    · rename_i tag
      split_ifs
      · exact hset
      · split
        · exact hset
        · rename_i td htd
          have hne : i ≠ objId td.obj := by
            rw [(GlobalTracker.mem_of_trackDataLookup htd).2.1]
            intro h
            cases hnone h.symm
          rw [GlobalTracker.lookup_trackDataUntrack, if_neg hne]
          exact hset
  · rfl

theorem restorable_step (hs : s.WellFormed) (htype : objType o ≠ .mptcpAddr)
    {e : TrackerEvent Obj Id Tag} (he : Undisturbed (objId o) s e)
    (hafter : (s.step e).WeaklyTracked (objId o)) :
    (s.step e).Restorable (objId o) ↔ s.Restorable (objId o) ∨ ¬ NoPositiveSync o s e := by
  obtain ⟨hweak, hquiet⟩ := he
  cases e with
  | sync type =>
    by_cases ht : objType o = type
    · subst ht
      obtain ⟨td, hwin⟩ := winner_of_weaklyTracked hweak
      exact restorable_sync hs htype hwin
    · obtain ⟨hentry, hplat⟩ := GlobalTracker.sync_other hs.tracker hs.platform ht
      have hsame : (s.step (.sync type)).Restorable (objId o) ↔ s.Restorable (objId o) :=
        restorable_congr hplat hentry
      simp [hsame, NoPositiveSync, Ne.symm ht]
  | track obj trackPriority userTag userTagUntrack =>
    obtain ⟨td, htd, hid, -⟩ := hweak
    have hsome := hs.tracker.tracked td htd
    rw [hid] at hsome
    have hsame : (s.step (.track obj trackPriority userTag userTagUntrack)).Restorable (objId o) ↔
        s.Restorable (objId o) :=
      restorable_congr rfl (lookup_track hs.tracker hquiet hsome)
    simp [hsame, NoPositiveSync]
  | untrack obj userTag =>
    have hsame := restorable_of_untracked (hs.tracker.untrack obj userTag) hafter
    simp [step, hsame, NoPositiveSync]
  | untrackAll userTag all makeSurvivorsDirty =>
    have hsame := restorable_of_untracked (hs.tracker.untrackAll userTag all makeSurvivorsDirty) hafter
    simp [step, hsame, NoPositiveSync]
  | setDirty userTag =>
    have hsame := restorable_of_untracked (hs.tracker.setDirty userTag) hafter
    simp [step, hsame, NoPositiveSync]
  | externalAdd obj =>
    have hne : objId o ≠ objId obj := Ne.symm hquiet
    have hsame : (s.step (.externalAdd obj)).Restorable (objId o) ↔ s.Restorable (objId o) :=
      restorable_congr (by simp [step, hne]) rfl
    simp [hsame, NoPositiveSync]
  | externalDelete i =>
    have hne : objId o ≠ i := Ne.symm hquiet
    have hsame : (s.step (.externalDelete i)).Restorable (objId o) ↔ s.Restorable (objId o) :=
      restorable_congr (by simp [step, hne]) rfl
    simp [hsame, NoPositiveSync]

theorem weaklyTracked_of_run (hrun : Along step (Undisturbed i) s es)
    (hend : (es.foldl step s).WeaklyTracked i) : s.WeaklyTracked i := by
  cases es with
  | nil => exact hend
  | cons e es => exact hrun.1.1

theorem restorable_foldl (hs : s.WellFormed) (htype : objType o ≠ .mptcpAddr)
    (hrun : Along step (Undisturbed (objId o)) s es)
    (hend : (es.foldl step s).WeaklyTracked (objId o)) :
    (es.foldl step s).Restorable (objId o) ↔
      s.Restorable (objId o) ∨ ¬ Along step (NoPositiveSync o) s es := by
  induction es generalizing s with
  | nil => simp
  | cons e es ih =>
    have hafter := weaklyTracked_of_run hrun.2 hend
    have hone := restorable_step hs htype hrun.1 hafter
    have hrest := ih (hs.step e) hrun.2 hend
    rw [List.foldl_cons, hrest, hone, along_cons]
    tauto

theorem present_sync_of_onlyWeaklyTracked (hs : s.WellFormed) (htype : objType o ≠ .mptcpAddr)
    (hweak : s.WeaklyTracked (objId o)) (honly : s.OnlyWeaklyTracked (objId o)) :
    (s.step (.sync (objType o))).Present (objId o) ↔ s.Restorable (objId o) := by
  obtain ⟨td, hwin⟩ := winner_of_weaklyTracked hweak
  obtain ⟨htd, hid⟩ := GlobalTracker.winner_mem hwin
  have hval := honly td htd hid
  have hpresent := hs.tracker.weak td htd hval
  obtain ⟨d, d', hd, -, hout⟩ := GlobalTracker.sync_outcome hs.tracker hs.platform htype hwin
  unfold Restorable
  rw [dueForRestore_iff hd]
  exact (hout.weak hpresent hval).1

/-- A weak entry that wins when the run ends with a sync leaves the object as it was
before the run, exactly if it was present then, or if it was not due to be restored
and no sync of the run has added it for a positive entry. -/
theorem weak_tracking_undoes_iff (start es : List (TrackerEvent Obj Id Tag)) (o : Obj)
    (htype : objType o ≠ .mptcpAddr)
    (hrun : Along step (Undisturbed (objId o)) (start.foldl step init) es)
    (hweak : ((start ++ es).foldl step init).WeaklyTracked (objId o))
    (honly : ((start ++ es).foldl step init).OnlyWeaklyTracked (objId o)) :
    (((start ++ es ++ [TrackerEvent.sync (objType o)]).foldl step init).Present (objId o) ↔
        (start.foldl step init).Present (objId o)) ↔
      (start.foldl step init).Present (objId o) ∨
        (¬ (start.foldl step init).DueForRestore (objId o) ∧
          Along step (NoPositiveSync o) (start.foldl step init) es) := by
  have hs : (start.foldl step (init : TrackerSystem Obj Id Tag)).WellFormed :=
    wellFormed_foldl start
  have hend : ((start ++ es).foldl step (init : TrackerSystem Obj Id Tag)).WellFormed :=
    wellFormed_foldl (start ++ es)
  have hfinal := present_sync_of_onlyWeaklyTracked hend htype hweak honly
  rw [List.foldl_append] at hweak
  have hruns := restorable_foldl hs htype hrun hweak
  rw [List.foldl_append, List.foldl_cons, List.foldl_nil, hfinal, List.foldl_append, hruns]
  unfold Restorable
  tauto

def removedRun : List (TrackerEvent SampleRule SampleRule ℕ) :=
  [.track ⟨100, 254⟩ (-10) 2 none, .sync .routingRule, .untrack ⟨100, 254⟩ 2]

theorem weak_tracking_restores_removed_rule :
    let start : List (TrackerEvent SampleRule SampleRule ℕ) :=
      [.externalAdd ⟨100, 254⟩, .track ⟨100, 254⟩ 0 1 none]
    ((start ++ removedRun ++ [TrackerEvent.sync .routingRule]).foldl step init).Present
        ⟨100, 254⟩ ↔ (start.foldl step init).Present ⟨100, 254⟩ := by
  intro start
  exact (weak_tracking_undoes_iff start removedRun ⟨100, 254⟩ (by decide) (by decide) (by decide)
    (by decide)).mpr (Or.inl (by decide))

def addedRun : List (TrackerEvent SampleRule SampleRule ℕ) :=
  [.track ⟨100, 254⟩ 10 2 none, .sync .routingRule, .untrack ⟨100, 254⟩ 2]

theorem weak_tracking_keeps_added_rule :
    ¬ ∀ (start es : List (TrackerEvent SampleRule SampleRule ℕ)) (o : SampleRule),
      objType o ≠ .mptcpAddr →
      Along step (Undisturbed (objId o)) (start.foldl step init) es →
      ((start ++ es).foldl step init).WeaklyTracked (objId o) →
      ((start ++ es).foldl step init).OnlyWeaklyTracked (objId o) →
        (((start ++ es ++ [TrackerEvent.sync (objType o)]).foldl step init).Present (objId o) ↔
          (start.foldl step init).Present (objId o)) := by
  intro h
  have hadded := h [.track ⟨100, 254⟩ 0 1 none] addedRun ⟨100, 254⟩ (by decide) (by decide)
    (by decide) (by decide)
  revert hadded
  decide

end TrackerSystem
end NetworkManager.Platform
