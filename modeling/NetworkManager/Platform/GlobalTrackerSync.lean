import NetworkManager.Platform.GlobalTracker

/-!
# The sync of the global tracker, one object at a time

Both loops of `nmp_global_tracker_sync()` treat every identity on its own. This
module states what a sync does to the `TrackObjData` and to the platform object
of one identity, so that later arguments never look into the loops.
-/

namespace NetworkManager.Platform

open Lib NmpObjectClass
open List hiding lookup_append lookup_cons lookup_eq_none_iff

variable {Obj Id Tag : Type} [DecidableEq Id] [NmpObjectClass Obj Id]

namespace GlobalTracker

/-! ## The winning entry -/

theorem betterData_some (best : Option (TrackData Obj Tag)) (td : TrackData Obj Tag) :
    betterData best td = best ∨ betterData best td = some td := by
  cases best with
  | none => exact Or.inr rfl
  | some b =>
    dsimp only [betterData]
    split_ifs
    · exact Or.inl rfl
    · exact Or.inl rfl
    · exact Or.inr rfl

variable {best : Option (TrackData Obj Tag)}

theorem foldl_betterData_isSome (l : List (TrackData Obj Tag)) (h : best.isSome)
    : (l.foldl betterData best).isSome := by
  induction l generalizing best with
  | nil => exact h
  | cons td l ih =>
    apply ih
    rcases betterData_some best td with he | he <;> simp [he, h]

variable {td : TrackData Obj Tag}

theorem foldl_betterData_mem (l : List (TrackData Obj Tag)) (h : l.foldl betterData best = some td) :
    best = some td ∨ td ∈ l := by
  induction l generalizing best with
  | nil => exact Or.inl h
  | cons a l ih =>
    rcases ih h with he | he
    · rcases betterData_some best a with hb | hb
      · exact Or.inl (hb ▸ he)
      · rw [hb] at he
        simp [Option.some.inj he]
    · exact Or.inr (mem_cons_of_mem _ he)

theorem bestData_mem {l : List (TrackData Obj Tag)} (h : bestData l = some td) : td ∈ l := by
  rcases foldl_betterData_mem l h with he | he
  · cases he
  · exact he

theorem bestData_eq_none_iff {l : List (TrackData Obj Tag)} : bestData l = none ↔ l = [] := by
  cases l with
  | nil => simp [bestData]
  | cons td l =>
    have h : (bestData (td :: l)).isSome := foldl_betterData_isSome l (by simp [betterData])
    cases hb : bestData (td :: l) with
    | none => simp [hb] at h
    | some b => simp

theorem le_betterData {b : TrackData Obj Tag} (h : betterData best td = some b)
    : td.trackPriorityVal ≤ b.trackPriorityVal ∧
      ∀ b' ∈ best, b'.trackPriorityVal ≤ b.trackPriorityVal := by
  cases best with
  | none =>
    cases h
    exact ⟨Nat.le_refl _, by simp⟩
  | some b' =>
    dsimp only [betterData] at h
    split_ifs at h with h1 h2 <;> cases h <;> simp <;> omega

theorem le_foldl_betterData (l : List (TrackData Obj Tag)) {b : TrackData Obj Tag}
    (h : l.foldl betterData best = some b) :
    (∀ td ∈ l, td.trackPriorityVal ≤ b.trackPriorityVal) ∧
      ∀ b' ∈ best, b'.trackPriorityVal ≤ b.trackPriorityVal := by
  induction l generalizing best with
  | nil =>
    rw [foldl_nil] at h
    exact ⟨by simp, by simp [h]⟩
  | cons td l ih =>
    obtain ⟨hl, hbest⟩ := ih h
    cases hb : betterData best td with
    | none => cases best <;> simp [betterData] at hb; split_ifs at hb
    | some a =>
      obtain ⟨htd, hold⟩ := le_betterData hb
      have ha := hbest a hb
      refine ⟨fun td' htd' => ?_, fun b' hb' => Nat.le_trans (hold b' hb') ha⟩
      rcases mem_cons.mp htd' with rfl | h'
      · exact Nat.le_trans htd ha
      · exact hl td' h'

variable (byData : List (TrackData Obj Tag)) (kd : Bool) {i : Id} {d : TrackObjData Obj}

def winner (i : Id) : Option (TrackData Obj Tag) :=
  bestData (byData.filter fun td => objId td.obj = i)

variable {byData} in
theorem winner_mem (h : winner byData i = some td) : td ∈ byData ∧ objId td.obj = i := by
  simpa using bestData_mem h

variable {byData} in
theorem winner_eq_none_iff : winner byData i = none ↔ ∀ td ∈ byData, objId td.obj ≠ i := by
  simp [winner, bestData_eq_none_iff]

variable {byData} in
theorem le_winner {td' : TrackData Obj Tag} (h : winner byData i = some td) (hmem : td' ∈ byData)
    (hid : objId td'.obj = i) : td'.trackPriorityVal ≤ td.trackPriorityVal :=
  (le_foldl_betterData _ h).1 td' (mem_filter.mpr ⟨hmem, by simpa using hid⟩)

theorem getBestData_fst (d : TrackObjData Obj) :
    (getBestData byData d).1 = winner byData d.id := by
  unfold getBestData winner
  split <;> simp_all

variable {byData} in
theorem getBestData_of_none (h : winner byData d.id = none) : getBestData byData d = (none, d) := by
  unfold winner at h
  unfold getBestData
  rw [h]

variable {byData} in
theorem getBestData_of_some (h : winner byData d.id = some td) :
    getBestData byData d = (some td, { d with obj := td.obj }) := by
  unfold winner at h
  unfold getBestData
  rw [h]

@[simp] theorem getBestData_configState (d : TrackObjData Obj) :
    (getBestData byData d).2.configState = d.configState := by
  unfold getBestData
  split <;> rfl

@[simp] theorem getBestData_id (d : TrackObjData Obj) : (getBestData byData d).2.id = d.id := by
  unfold getBestData
  split
  · rfl
  · rename_i td h
    exact (winner_mem h).2

theorem getBestData_obj (h : winner byData d.id = some td)
    : (getBestData byData d).2.obj = td.obj := by
  unfold getBestData
  rw [winner] at h
  rw [h]

/-! ## The first loop -/

def syncPlobjEntry (d : TrackObjData Obj) : TrackObjData Obj :=
  { (getBestData byData d).2 with
    configState := (syncPlobj kd (winner byData d.id) d.configState).1 }

@[simp] theorem syncPlobjEntry_id (d : TrackObjData Obj) : (syncPlobjEntry byData kd d).id = d.id :=
  getBestData_id byData d

/-- What the first loop leaves of the entry of `i`, given its platform object. -/
def afterFirst (plobj : Option Obj) (d : Option (TrackObjData Obj)) : Option (TrackObjData Obj) :=
  if plobj.isSome then d.map (syncPlobjEntry byData kd) else d

variable {byData kd} {plobjs os : List Obj} {byObj ds : List (TrackObjData Obj)} {o : Obj}
  {op : PlatformOp Obj} {ops : List (PlatformOp Obj)} {d' : TrackObjData Obj} {plobj : Option Obj}

theorem syncPlobjs_cons_none {plobj : Obj} (h : lookup TrackObjData.id (objId plobj) byObj = none) :
    syncPlobjs kd byData (plobj :: plobjs) byObj = syncPlobjs kd byData plobjs byObj := by
  rw [syncPlobjs, h]

theorem syncPlobjs_cons_some {plobj : Obj} (hu : KeyUnique TrackObjData.id byObj)
    (h : lookup TrackObjData.id (objId plobj) byObj = some d) :
    let next := syncPlobjs kd byData plobjs
      (modifyKey TrackObjData.id (objId plobj) (syncPlobjEntry byData kd) byObj)
    syncPlobjs kd byData (plobj :: plobjs) byObj =
      (next.1, if (syncPlobj kd (winner byData (objId plobj)) d.configState).2
        then plobj :: next.2 else next.2) := by
  have hd : d.id = objId plobj := key_of_lookup h
  have hmod : modifyKey TrackObjData.id (objId plobj)
      (fun _ => { (getBestData byData d).2 with
        configState := (syncPlobj kd (winner byData (objId plobj)) d.configState).1 }) byObj =
      modifyKey TrackObjData.id (objId plobj) (syncPlobjEntry byData kd) byObj := by
    apply map_congr_left
    intro d' hd'
    by_cases hk : d'.id = objId plobj
    · have hdd : d' = d := by
        have := lookup_of_mem hu hd'
        rw [hk, h] at this
        exact (Option.some.inj this).symm
      rw [if_pos hk, if_pos hk, hdd, syncPlobjEntry, hd]
    · rw [if_neg hk, if_neg hk]
  rw [syncPlobjs, h]
  simp only [getBestData_fst, hd]
  rw [hmod]

variable (byData kd) in
theorem lookup_syncPlobjs (hp : KeyUnique objId plobjs) (hu : KeyUnique TrackObjData.id byObj)
    (i : Id) :
    lookup TrackObjData.id i (syncPlobjs kd byData plobjs byObj).1 =
      afterFirst byData kd (lookup objId i plobjs) (lookup TrackObjData.id i byObj) := by
  induction plobjs generalizing byObj with
  | nil => simp [syncPlobjs, afterFirst]
  | cons plobj plobjs ih =>
    rw [unique_cons] at hp
    have hrest : ∀ j, objId plobj = j → lookup objId j plobjs = none := by
      intro j hj
      exact lookup_eq_none_iff.mpr fun o ho h => hp.1 o ho (h.trans hj.symm)
    cases h : lookup TrackObjData.id (objId plobj) byObj with
    | none =>
      rw [syncPlobjs_cons_none h, ih hp.2 hu, lookup_cons]
      by_cases hi : objId plobj = i
      · subst hi
        simp [afterFirst, h, hrest _ rfl]
      · rw [if_neg hi]
    | some d =>
      rw [syncPlobjs_cons_some hu h]
      rw [ih hp.2 (hu.modifyKey (syncPlobjEntry_id byData kd)), lookup_cons,
        lookup_modifyKey (syncPlobjEntry_id byData kd)]
      by_cases hi : objId plobj = i
      · subst hi
        simp [afterFirst, h, hrest _ rfl]
      · rw [if_neg hi, if_neg (Ne.symm hi)]

variable (byData kd) in
theorem unique_syncPlobjs (plobjs : List Obj) (hu : KeyUnique TrackObjData.id byObj) :
    KeyUnique TrackObjData.id (syncPlobjs kd byData plobjs byObj).1 := by
  induction plobjs generalizing byObj with
  | nil => exact hu
  | cons plobj plobjs ih =>
    cases h : lookup TrackObjData.id (objId plobj) byObj with
    | none =>
      rw [syncPlobjs_cons_none h]
      exact ih hu
    | some d =>
      rw [syncPlobjs_cons_some hu h]
      exact ih (hu.modifyKey (syncPlobjEntry_id byData kd))

/-- The objects that the first loop puts on `objs_to_delete`. -/
theorem mem_syncPlobjs (hp : KeyUnique objId plobjs) (hu : KeyUnique TrackObjData.id byObj) :
    o ∈ (syncPlobjs kd byData plobjs byObj).2 ↔ o ∈ plobjs ∧
      ∃ d, lookup TrackObjData.id (objId o) byObj = some d ∧
        (syncPlobj kd (winner byData (objId o)) d.configState).2 = true := by
  induction plobjs generalizing byObj with
  | nil => simp [syncPlobjs]
  | cons plobj plobjs ih =>
    rw [unique_cons] at hp
    cases h : lookup TrackObjData.id (objId plobj) byObj with
    | none =>
      rw [syncPlobjs_cons_none h, ih hp.2 hu, mem_cons]
      constructor
      · rintro ⟨ho, hd⟩
        exact ⟨Or.inr ho, hd⟩
      · rintro ⟨rfl | ho, d, hd, hdel⟩
        · simp [h] at hd
        · exact ⟨ho, d, hd, hdel⟩
    | some d =>
      rw [syncPlobjs_cons_some hu h]
      have hu' := hu.modifyKey (k := objId plobj) (syncPlobjEntry_id byData kd)
      have hother : ∀ o ∈ plobjs, lookup TrackObjData.id (objId o)
          (modifyKey TrackObjData.id (objId plobj) (syncPlobjEntry byData kd) byObj) =
          lookup TrackObjData.id (objId o) byObj := by
        intro o ho
        rw [lookup_modifyKey (syncPlobjEntry_id byData kd), if_neg (hp.1 o ho)]
      have htail : o ∈ (syncPlobjs kd byData plobjs
          (modifyKey TrackObjData.id (objId plobj) (syncPlobjEntry byData kd) byObj)).2 ↔
          o ∈ plobjs ∧ ∃ d, lookup TrackObjData.id (objId o) byObj = some d ∧
            (syncPlobj kd (winner byData (objId o)) d.configState).2 = true := by
        rw [ih hp.2 hu']
        constructor
        · rintro ⟨ho, d', hd', hdel⟩
          exact ⟨ho, d', (hother o ho).symm.trans hd', hdel⟩
        · rintro ⟨ho, d', hd', hdel⟩
          exact ⟨ho, d', (hother o ho).trans hd', hdel⟩
      by_cases hdel : (syncPlobj kd (winner byData (objId plobj)) d.configState).2 = true
      · simp only [hdel, ↓reduceIte, mem_cons, htail]
        constructor
        · rintro (rfl | ⟨ho, hd⟩)
          · exact ⟨Or.inl rfl, d, h, hdel⟩
          · exact ⟨Or.inr ho, hd⟩
        · rintro ⟨rfl | ho, hd⟩
          · exact Or.inl rfl
          · exact Or.inr ⟨ho, hd⟩
      · simp only [hdel, Bool.false_eq_true, ↓reduceIte, mem_cons, htail]
        constructor
        · rintro ⟨ho, hd⟩
          exact ⟨Or.inr ho, hd⟩
        · rintro ⟨rfl | ho, d', hd', hdel'⟩
          · rw [h] at hd'
            cases hd'
            exact absurd hdel' hdel
          · exact ⟨ho, d', hd', hdel'⟩

/-! ## Requests to the platform -/

def opId : PlatformOp Obj → Id
  | .delete o => objId o
  | .add o => objId o

theorem lookup_apply_of_ne {platform : List Obj} (h : opId op ≠ i) :
    lookup objId i (op.apply platform) = lookup objId i platform := by
  cases op with
  | delete o =>
    have ho : i ≠ objId o := Ne.symm h
    rw [PlatformOp.apply, lookup_eraseKey, if_neg ho]
  | add o =>
    have ho : i ≠ objId o := Ne.symm h
    rw [PlatformOp.apply, lookup_put, if_neg ho]

theorem unique_apply {platform : List Obj} (h : KeyUnique objId platform) :
    KeyUnique objId (op.apply platform) := by
  cases op with
  | delete o => exact h.eraseKey
  | add o => exact h.put

theorem unique_foldl_apply {platform : List Obj} (h : KeyUnique objId platform)
    : KeyUnique objId (ops.foldl PlatformOp.apply platform) := by
  induction ops generalizing platform with
  | nil => exact h
  | cons op ops ih => exact ih (unique_apply h)

theorem lookup_foldl_apply_of_ne {platform : List Obj} (h : ∀ op ∈ ops, opId op ≠ i) :
    lookup objId i (ops.foldl PlatformOp.apply platform) = lookup objId i platform := by
  induction ops generalizing platform with
  | nil => rfl
  | cons op ops ih =>
    rw [foldl_cons, ih fun op' h' => h op' (mem_cons_of_mem _ h')]
    exact lookup_apply_of_ne (h op mem_cons_self)

theorem lookup_foldl_apply_congr {p q : List Obj} (h : lookup objId i p = lookup objId i q) :
    lookup objId i (ops.foldl PlatformOp.apply p) =
      lookup objId i (ops.foldl PlatformOp.apply q) := by
  induction ops generalizing p q with
  | nil => exact h
  | cons op ops ih =>
    apply ih
    cases op <;> simp [PlatformOp.apply, h]

theorem lookup_foldl_delete {platform : List Obj} :
    lookup objId i ((os.map PlatformOp.delete).foldl PlatformOp.apply platform) =
      if ∃ o ∈ os, objId o = i then none else lookup objId i platform := by
  induction os generalizing platform with
  | nil => simp
  | cons o os ih =>
    rw [map_cons, foldl_cons, ih, PlatformOp.apply, lookup_eraseKey]
    by_cases ho : objId o = i
    · simp [ho]
    · by_cases hos : ∃ o' ∈ os, objId o' = i
      · simp [hos, ho]
      · simp [hos, ho, Ne.symm ho]

theorem lookup_foldl_add {platform : List Obj} (hu : KeyUnique objId os) :
    lookup objId i ((os.map PlatformOp.add).foldl PlatformOp.apply platform) =
      (lookup objId i os).or (lookup objId i platform) := by
  induction os generalizing platform with
  | nil => simp
  | cons o os ih =>
    rw [unique_cons] at hu
    rw [map_cons, foldl_cons, ih hu.2, PlatformOp.apply, lookup_put, lookup_cons]
    by_cases ho : objId o = i
    · have hnone : lookup objId i os = none := lookup_eq_none_iff.mpr fun o' h => ho ▸ hu.1 o' h
      simp [ho, hnone]
    · simp [ho, Ne.symm ho]

/-! ## The second loop -/

def syncEntry (byData : List (TrackData Obj Tag)) (d : TrackObjData Obj) (plobj : Option Obj) :
    Option (TrackObjData Obj) × List (PlatformOp Obj) :=
  syncObjData (winner byData d.id) (getBestData byData d).2 plobj

omit [DecidableEq Id] in
theorem syncConfigure_cases (d : TrackObjData Obj) (plobj : Option Obj) :
    plobj.isSome ∧ syncConfigure d plobj = (some d, []) ∨
      (∀ o ∈ plobj, semanticallyEqual d.obj o = false) ∧
        syncConfigure d plobj = (some { d with configState := .addedByUs },
          plobj.toList.map PlatformOp.delete ++ [.add d.obj]) := by
  unfold syncConfigure
  cases plobj with
  | none => exact Or.inr ⟨by simp, rfl⟩
  | some o =>
    cases h : semanticallyEqual d.obj o with
    | true => exact Or.inl ⟨rfl, by simp [h]⟩
    | false => exact Or.inr ⟨by simp [h], by simp [h]⟩

omit [DecidableEq Id] in
theorem syncObjData_cases (td : TrackData Obj Tag) (d : TrackObjData Obj) (plobj : Option Obj) :
    ∃ c, syncObjData (some td) d plobj = (some { d with configState := c }, []) ∨
      (∀ o ∈ plobj, semanticallyEqual d.obj o = false) ∧
        syncObjData (some td) d plobj = (some { d with configState := c },
          plobj.toList.map PlatformOp.delete ++ [.add d.obj]) := by
  have hconf : ∀ c, ∃ c', syncConfigure { d with configState := c } plobj =
      (some { d with configState := c' }, []) ∨
      (∀ o ∈ plobj, semanticallyEqual d.obj o = false) ∧
        syncConfigure { d with configState := c } plobj = (some { d with configState := c' },
          plobj.toList.map PlatformOp.delete ++ [.add d.obj]) := by
    intro c
    rcases syncConfigure_cases { d with configState := c } plobj with ⟨-, h⟩ | h
    · exact ⟨c, Or.inl h⟩
    · exact ⟨.addedByUs, Or.inr h⟩
  unfold syncObjData
  dsimp only
  split_ifs
  · exact ⟨.none, Or.inl rfl⟩
  · exact hconf .none
  · exact hconf d.configState
  · exact ⟨.removedByUs, Or.inl rfl⟩
  · exact ⟨d.configState, Or.inl rfl⟩

omit [DecidableEq Id] in
theorem syncObjData_id (h : (syncObjData best d plobj).1 = some d') : d'.id = d.id := by
  cases best with
  | none => cases h
  | some td =>
    obtain ⟨c, he | ⟨-, he⟩⟩ := syncObjData_cases td d plobj
    all_goals
      rw [he] at h
      cases h
      rfl

omit [DecidableEq Id] in
theorem opId_of_mem_syncObjData (hp : ∀ o ∈ plobj, objId o = d.id)
    (h : op ∈ (syncObjData best d plobj).2) : opId op = d.id := by
  cases best with
  | none => simp [syncObjData] at h
  | some td =>
    obtain ⟨c, he | ⟨-, he⟩⟩ := syncObjData_cases td d plobj
    · simp [he] at h
    · rw [he] at h
      rcases mem_append.mp h with h | h
      · obtain ⟨o, ho, rfl⟩ := mem_map.mp h
        exact hp o (Option.mem_toList.mp ho)
      · rw [mem_singleton.mp h]
        rfl

theorem syncEntry_id (h : (syncEntry byData d plobj).1 = some d') : d'.id = d.id :=
  (syncObjData_id h).trans (getBestData_id byData d)

theorem opId_of_mem_syncEntry {platform : List Obj}
    (h : op ∈ (syncEntry byData d (lookup objId d.id platform)).2) : opId op = d.id := by
  rw [← getBestData_id byData d]
  refine opId_of_mem_syncObjData (fun o ho => ?_) h
  rw [getBestData_id]
  exact key_of_lookup ho

theorem syncObjDatas_cons_type {type : NmpObjectType} {platform : List Obj}
    (h : objType d.obj = type) :
    let r := syncEntry byData d (lookup objId d.id platform)
    let next := syncObjDatas type byData ds (r.2.foldl PlatformOp.apply platform)
    syncObjDatas type byData (d :: ds) platform = (r.1.toList ++ next.1, r.2 ++ next.2) := by
  simp only [syncObjDatas, h, ↓reduceIte, getBestData_fst, syncEntry]

theorem syncObjDatas_cons_other {type : NmpObjectType} {platform : List Obj}
    (h : objType d.obj ≠ type) :
    let next := syncObjDatas type byData ds platform
    syncObjDatas type byData (d :: ds) platform = (d :: next.1, next.2) := by
  simp only [syncObjDatas, h, ↓reduceIte]

section

variable (hu : KeyUnique TrackObjData.id ds)

include hu

theorem mem_syncObjDatas {type : NmpObjectType} {platform : List Obj} :
    op ∈ (syncObjDatas type byData ds platform).2 ↔ ∃ d ∈ ds, objType d.obj = type ∧
      op ∈ (syncEntry byData d (lookup objId d.id platform)).2 := by
  induction ds generalizing platform with
  | nil => simp [syncObjDatas]
  | cons d ds ih =>
    rw [unique_cons] at hu
    by_cases ht : objType d.obj = type
    · have hother : ∀ d' ∈ ds, lookup objId d'.id
          ((syncEntry byData d (lookup objId d.id platform)).2.foldl PlatformOp.apply platform) =
          lookup objId d'.id platform := by
        intro d' hd'
        apply lookup_foldl_apply_of_ne
        intro op' h'
        rw [opId_of_mem_syncEntry h']
        exact (hu.1 d' hd').symm
      rw [syncObjDatas_cons_type ht]
      simp only [mem_append, exists_mem_cons_iff, ht, true_and]
      rw [ih hu.2]
      apply or_congr Iff.rfl
      constructor
      · rintro ⟨d', hd', ht', hop⟩
        exact ⟨d', hd', ht', hother d' hd' ▸ hop⟩
      · rintro ⟨d', hd', ht', hop⟩
        exact ⟨d', hd', ht', (hother d' hd').symm ▸ hop⟩
    · rw [syncObjDatas_cons_other ht]
      simp only [exists_mem_cons_iff, ht, false_and, false_or]
      exact ih hu.2

theorem lookup_platform_syncObjDatas_of_none {type : NmpObjectType} {platform : List Obj}
    (h : lookup TrackObjData.id i ds = none) :
    lookup objId i ((syncObjDatas type byData ds platform).2.foldl PlatformOp.apply platform) =
      lookup objId i platform := by
  apply lookup_foldl_apply_of_ne
  intro op hop
  obtain ⟨d, hd, -, hop⟩ := (mem_syncObjDatas hu).mp hop
  rw [opId_of_mem_syncEntry hop]
  exact lookup_eq_none_iff.mp h d hd

theorem lookup_platform_syncObjDatas {type : NmpObjectType} {platform : List Obj}
    (h : lookup TrackObjData.id i ds = some d) :
    lookup objId i ((syncObjDatas type byData ds platform).2.foldl PlatformOp.apply platform) =
      if objType d.obj = type then
        lookup objId i ((syncEntry byData d (lookup objId i platform)).2.foldl
          PlatformOp.apply platform)
      else lookup objId i platform := by
  induction ds generalizing platform with
  | nil => simp at h
  | cons a ds ih =>
    rw [unique_cons] at hu
    rw [lookup_cons] at h
    by_cases hi : a.id = i
    · rw [if_pos hi] at h
      obtain rfl : a = d := Option.some.inj h
      have hnone : lookup TrackObjData.id i ds = none :=
        lookup_eq_none_iff.mpr fun d' hd' => hi ▸ hu.1 d' hd'
      by_cases ht : objType a.obj = type
      · rw [syncObjDatas_cons_type ht, foldl_append,
          lookup_platform_syncObjDatas_of_none hu.2 hnone, if_pos ht, hi]
      · rw [syncObjDatas_cons_other ht, lookup_platform_syncObjDatas_of_none hu.2 hnone, if_neg ht]
    · rw [if_neg hi] at h
      by_cases ht : objType a.obj = type
      · have hsame : ∀ op ∈ (syncEntry byData a (lookup objId a.id platform)).2, opId op ≠ i := by
          intro op hop
          rw [opId_of_mem_syncEntry hop]
          exact hi
        rw [syncObjDatas_cons_type ht, foldl_append, ih hu.2 h,
          lookup_foldl_apply_of_ne hsame]
        rw [lookup_foldl_apply_congr (lookup_foldl_apply_of_ne hsame)]
      · rw [syncObjDatas_cons_other ht, ih hu.2 h]

/-- The second loop on the entry of `i`: the entry itself. -/
theorem lookup_syncObjDatas {type : NmpObjectType} {platform : List Obj} :
    lookup TrackObjData.id i (syncObjDatas type byData ds platform).1 =
      (lookup TrackObjData.id i ds).bind fun d =>
        if objType d.obj = type then (syncEntry byData d (lookup objId i platform)).1
        else some d := by
  induction ds generalizing platform with
  | nil => simp [syncObjDatas]
  | cons a ds ih =>
    rw [unique_cons] at hu
    rw [lookup_cons]
    by_cases ht : objType a.obj = type
    · have hplat : ∀ j, a.id ≠ j → lookup objId j
          ((syncEntry byData a (lookup objId a.id platform)).2.foldl PlatformOp.apply platform) =
          lookup objId j platform := by
        intro j hj
        apply lookup_foldl_apply_of_ne
        intro op hop
        rw [opId_of_mem_syncEntry hop]
        exact hj
      rw [syncObjDatas_cons_type ht, lookup_append, ih hu.2]
      by_cases hi : a.id = i
      · subst hi
        have hnone : lookup TrackObjData.id a.id ds = none :=
          lookup_eq_none_iff.mpr fun d' hd' => hu.1 d' hd'
        rw [if_pos rfl, hnone]
        simp only [Option.bind_none, Option.or_none, Option.bind_some, ht, ↓reduceIte]
        cases hr : (syncEntry byData a (lookup objId a.id platform)).1 with
        | none => rfl
        | some d' => simp [lookup_cons, syncEntry_id hr]
      · rw [if_neg hi, hplat i hi]
        have hskip : lookup TrackObjData.id i
            (syncEntry byData a (lookup objId a.id platform)).1.toList = none := by
          apply lookup_eq_none_iff.mpr
          intro d' hd'
          rw [Option.mem_toList] at hd'
          rw [syncEntry_id hd']
          exact hi
        rw [hskip, Option.none_or]
    · rw [syncObjDatas_cons_other ht, lookup_cons, ih hu.2]
      by_cases hi : a.id = i
      · rw [if_pos hi, if_pos hi, Option.bind_some, if_neg ht]
      · rw [if_neg hi, if_neg hi]

theorem unique_syncObjDatas {type : NmpObjectType} (platform : List Obj) :
    KeyUnique TrackObjData.id (syncObjDatas type byData ds platform).1 ∧
      ∀ d ∈ (syncObjDatas type byData ds platform).1, ∃ d' ∈ ds, d'.id = d.id := by
  induction ds generalizing platform with
  | nil => simp [syncObjDatas]
  | cons a ds ih =>
    rw [unique_cons] at hu
    by_cases ht : objType a.obj = type
    · rw [syncObjDatas_cons_type ht]
      obtain ⟨hu', hsub⟩ := ih hu.2 ((syncEntry byData a
        (lookup objId a.id platform)).2.foldl PlatformOp.apply platform)
      cases hr : (syncEntry byData a (lookup objId a.id platform)).1 with
      | none =>
        simp only [Option.toList_none, nil_append]
        refine ⟨hu', fun d hd => ?_⟩
        obtain ⟨d', hd', he⟩ := hsub d hd
        exact ⟨d', mem_cons_of_mem _ hd', he⟩
      | some b =>
        have hb := syncEntry_id hr
        simp only [Option.toList_some, cons_append, nil_append]
        refine ⟨unique_cons.mpr ⟨fun d hd => ?_, hu'⟩, fun d hd => ?_⟩
        · obtain ⟨d', hd', he⟩ := hsub d hd
          rw [← he, hb]
          exact hu.1 d' hd'
        · rcases mem_cons.mp hd with rfl | hd
          · exact ⟨a, mem_cons_self, hb.symm⟩
          · obtain ⟨d', hd', he⟩ := hsub d hd
            exact ⟨d', mem_cons_of_mem _ hd', he⟩
    · rw [syncObjDatas_cons_other ht]
      obtain ⟨hu', hsub⟩ := ih hu.2 platform
      refine ⟨unique_cons.mpr ⟨fun d hd => ?_, hu'⟩, fun d hd => ?_⟩
      · obtain ⟨d', hd', he⟩ := hsub d hd
        rw [← he]
        exact hu.1 d' hd'
      · rcases mem_cons.mp hd with rfl | hd
        · exact ⟨d, mem_cons_self, rfl⟩
        · obtain ⟨d', hd', he⟩ := hsub d hd
          exact ⟨d', mem_cons_of_mem _ hd', he⟩

end

/-! ## A whole sync -/

omit [DecidableEq Id] in
theorem syncObjData_isSome (h : best.isSome) : (syncObjData best d plobj).1.isSome := by
  obtain ⟨td, rfl⟩ := Option.isSome_iff_exists.mp h
  obtain ⟨c, he | ⟨-, he⟩⟩ := syncObjData_cases td d plobj
  · rw [he]
    rfl
  · rw [he]
    rfl

omit [DecidableEq Id] in
theorem unique_syncSelect (type : NmpObjectType) {platform : List Obj}
    (hp : KeyUnique objId platform) : KeyUnique objId (syncSelect type platform) := hp.filter _

variable {self : GlobalTracker Obj Tag} {platform : List Obj} {type : NmpObjectType}

/-- Whether the first loop deletes the platform object of `i`. -/
def firstDeletes (byData : List (TrackData Obj Tag)) (kd : Bool) (i : Id) (plobj : Option Obj)
    (d : Option (TrackObjData Obj)) : Bool :=
  plobj.isSome && d.any fun d => (syncPlobj kd (winner byData i) d.configState).2

theorem exists_mem_syncPlobjs (hp : KeyUnique objId plobjs) (hu : KeyUnique TrackObjData.id byObj) :
    (∃ o ∈ (syncPlobjs kd byData plobjs byObj).2, objId o = i) ↔
      firstDeletes byData kd i (lookup objId i plobjs) (lookup TrackObjData.id i byObj) = true := by
  unfold firstDeletes
  constructor
  · rintro ⟨o, ho, rfl⟩
    obtain ⟨hmem, d, hd, hdel⟩ := (mem_syncPlobjs hp hu).mp ho
    simp [lookup_of_mem hp hmem, hd, hdel]
  · intro h
    rw [Bool.and_eq_true, Option.any_eq_true] at h
    obtain ⟨hsome, d, hd, hdel⟩ := h
    obtain ⟨o, ho⟩ := Option.isSome_iff_exists.mp hsome
    have hi : objId o = i := key_of_lookup ho
    refine ⟨o, (mem_syncPlobjs hp hu).mpr ⟨mem_of_lookup ho, d, ?_, ?_⟩, hi⟩
    · rw [hi, hd]
    · rw [hi, hdel]

/-- The platform object of `i` after `objs_to_delete` were deleted. -/
def plobjAfterFirst (self : GlobalTracker Obj Tag) (platform : List Obj) (type : NmpObjectType)
    (kd : Bool) (i : Id) : Option Obj :=
  if firstDeletes self.byData kd i (lookup objId i (syncSelect type platform))
    (lookup TrackObjData.id i self.byObj) then none else lookup objId i platform

section

variable (hp : KeyUnique objId platform) (hu : KeyUnique TrackObjData.id self.byObj)

include hp hu

variable (kd type) in
theorem lookup_foldl_objsToDelete (i : Id) :
    lookup objId i (((syncPlobjs kd self.byData (syncSelect type platform) self.byObj).2.map
      PlatformOp.delete).foldl PlatformOp.apply platform) =
      plobjAfterFirst self platform type kd i := by
  rw [lookup_foldl_delete, plobjAfterFirst]
  simp only [exists_mem_syncPlobjs (unique_syncSelect _ hp) hu]

theorem lookup_sync (htype : type ≠ .mptcpAddr) (i : Id) :
    lookup TrackObjData.id i (self.sync platform type kd).1.byObj =
      (afterFirst self.byData kd (lookup objId i (syncSelect type platform))
        (lookup TrackObjData.id i self.byObj)).bind fun d =>
          if objType d.obj = type
          then (syncEntry self.byData d (plobjAfterFirst self platform type kd i)).1
          else some d := by
  unfold sync
  rw [if_neg htype]
  dsimp only
  rw [lookup_syncObjDatas (unique_syncPlobjs _ _ _ hu), lookup_syncPlobjs _ _ (unique_syncSelect _ hp) hu,
    lookup_foldl_objsToDelete _ _ hp hu]

theorem lookup_platform_sync (htype : type ≠ .mptcpAddr) (i : Id) :
    lookup objId i ((self.sync platform type kd).2.foldl PlatformOp.apply platform) =
      match afterFirst self.byData kd (lookup objId i (syncSelect type platform))
        (lookup TrackObjData.id i self.byObj) with
      | none => plobjAfterFirst self platform type kd i
      | some d =>
        if objType d.obj = type then lookup objId i
          ((syncEntry self.byData d (plobjAfterFirst self platform type kd i)).2.foldl
            PlatformOp.apply (plobjAfterFirst self platform type kd i).toList)
        else plobjAfterFirst self platform type kd i := by
  have hfirst := lookup_syncPlobjs self.byData kd (unique_syncSelect type hp) hu i
  have hu' := unique_syncPlobjs self.byData kd (syncSelect type platform) hu
  have hdel := lookup_foldl_objsToDelete kd type hp hu i
  unfold sync
  rw [if_neg htype]
  dsimp only
  rw [foldl_append]
  cases hd : afterFirst self.byData kd (lookup objId i (syncSelect type platform))
      (lookup TrackObjData.id i self.byObj) with
  | none =>
    rw [hd] at hfirst
    rw [lookup_platform_syncObjDatas_of_none hu' hfirst, hdel]
  | some d =>
    rw [hd] at hfirst
    rw [lookup_platform_syncObjDatas hu' hfirst, hdel]
    dsimp only
    split_ifs
    · apply lookup_foldl_apply_congr
      rw [hdel]
      cases ho : plobjAfterFirst self platform type kd i with
      | none => rfl
      | some o =>
        have hi : objId o = i := by
          unfold plobjAfterFirst at ho
          split_ifs at ho
          exact key_of_lookup ho
        simp [lookup_cons, hi]
    · rfl

end

/-! ## The requests of a sync -/

omit [DecidableEq Id] in
theorem not_present_of_syncPlobj {c : ConfigState} (h : (syncPlobj kd best c).2 = true)
    : ∀ td ∈ best, td.trackPriorityPresent = false := by
  rintro td rfl
  cases hpresent : td.trackPriorityPresent with
  | false => rfl
  | true =>
    simp only [syncPlobj, hpresent] at h
    cases h

omit [DecidableEq Id] in
theorem replaced_of_delete_mem (h : PlatformOp.delete o ∈ (syncObjData best d plobj).2) :
    best.isSome ∧ plobj = some o ∧ semanticallyEqual d.obj o = false ∧
      PlatformOp.add d.obj ∈ (syncObjData best d plobj).2 := by
  cases best with
  | none => simp [syncObjData] at h
  | some td =>
    obtain ⟨c, he | ⟨hne, he⟩⟩ := syncObjData_cases td d plobj
    · simp [he] at h
    · have ho : plobj = some o := by
        rw [he] at h
        simpa using h
      refine ⟨rfl, ho, hne o ho, ?_⟩
      rw [he]
      simp

section

variable (hp : KeyUnique objId platform) (hu : KeyUnique TrackObjData.id self.byObj)

include hp hu

theorem delete_mem_sync (h : PlatformOp.delete o ∈ (self.sync platform type kd).2) :
    (type ≠ .mptcpAddr ∧ o ∈ syncSelect type platform ∧
        (lookup TrackObjData.id (objId o) self.byObj).isSome ∧
        ∀ td ∈ winner self.byData (objId o), td.trackPriorityPresent = false) ∨
      ∃ td ∈ self.byData, objId td.obj = objId o ∧ semanticallyEqual td.obj o = false ∧
        PlatformOp.add td.obj ∈ (self.sync platform type kd).2 := by
  unfold sync at h ⊢
  by_cases htype : type = .mptcpAddr
  · rw [if_pos htype] at h
    simp at h
  · rw [if_neg htype] at h
    simp only [if_neg htype, mem_append] at h ⊢
    rcases h with h | h
    · left
      obtain ⟨o', ho', he⟩ := mem_map.mp h
      cases he
      obtain ⟨hmem, d, hd, hdel⟩ := (mem_syncPlobjs (unique_syncSelect _ hp) hu).mp ho'
      exact ⟨htype, hmem, by simp [hd], not_present_of_syncPlobj hdel⟩
    · right
      obtain ⟨d, hd, ht, hop⟩ := (mem_syncObjDatas (unique_syncPlobjs _ _ _ hu)).mp h
      obtain ⟨hbest, hplobj, hne, hadd⟩ := replaced_of_delete_mem hop
      obtain ⟨td, htd⟩ := Option.isSome_iff_exists.mp hbest
      have hobj := getBestData_obj self.byData htd
      have hid : d.id = objId o := (key_of_lookup hplobj).symm
      refine ⟨td, (winner_mem htd).1, (winner_mem htd).2.trans hid, hobj ▸ hne, Or.inr ?_⟩
      exact (mem_syncObjDatas (unique_syncPlobjs _ _ _ hu)).mpr ⟨d, hd, ht, hobj ▸ hadd⟩

theorem delete_mem_sync_of_winner_none (htype : type ≠ .mptcpAddr)
    (ho : o ∈ syncSelect type platform) (hd : (lookup TrackObjData.id (objId o) self.byObj).isSome)
    (hwin : winner self.byData (objId o) = none) :
    PlatformOp.delete o ∈ (self.sync platform type false).2 := by
  obtain ⟨d, hd⟩ := Option.isSome_iff_exists.mp hd
  have hmem : o ∈ (syncPlobjs false self.byData (syncSelect type platform) self.byObj).2 :=
    (mem_syncPlobjs (unique_syncSelect _ hp) hu).mpr ⟨ho, d, hd, by rw [hwin]; rfl⟩
  unfold sync
  rw [if_neg htype]
  exact mem_append_left _ (mem_map_of_mem hmem)

theorem lookup_isSome_of_mem_sync (h : op ∈ (self.sync platform type kd).2) :
    (lookup TrackObjData.id (opId op) self.byObj).isSome ∧
      (winner self.byData (opId op) = none → ∃ o, op = .delete o) := by
  unfold sync at h
  by_cases htype : type = .mptcpAddr
  · rw [if_pos htype] at h
    simp at h
  · rw [if_neg htype] at h
    rcases mem_append.mp h with h | h
    · obtain ⟨o, ho, rfl⟩ := mem_map.mp h
      obtain ⟨-, d, hd, -⟩ := (mem_syncPlobjs (unique_syncSelect _ hp) hu).mp ho
      exact ⟨by simp [opId, hd], fun _ => ⟨o, rfl⟩⟩
    · obtain ⟨d, hd, -, hop⟩ := (mem_syncObjDatas (unique_syncPlobjs _ _ _ hu)).mp h
      have hid := opId_of_mem_syncEntry hop
      have hlook := lookup_of_mem (unique_syncPlobjs _ _ _ hu) hd
      rw [lookup_syncPlobjs _ _ (unique_syncSelect _ hp) hu] at hlook
      constructor
      · rw [hid]
        cases hnone : lookup TrackObjData.id d.id self.byObj with
        | none =>
          rw [hnone] at hlook
          unfold afterFirst at hlook
          split_ifs at hlook
          all_goals cases hlook
        | some d' => rfl
      · intro hwin
        rw [hid] at hwin
        rw [syncEntry, hwin] at hop
        simp [syncObjData] at hop

end

end GlobalTracker
end NetworkManager.Platform
