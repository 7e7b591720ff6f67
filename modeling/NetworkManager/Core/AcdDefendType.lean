import NetworkManager.Core.AcdTracked

/-!
# The configured defend type takes effect

The trackers of an address say how it is to be defended, and the strongest of them is meant to
take effect with the next commit. `acd_defend_type_desired` follows the trackers where a state
change collects them; it does not where an address that is found on the link is taken for good
at once.
-/

namespace NetworkManager.Core

open Lib

variable {K : Type*}

/-! ## The strongest defend type -/

def AcdData.defendTypes (d : AcdData K) : Set NML3AcdDefendType :=
  {t | ∃ track ∈ d.trackInfos, track.defendType = t}

theorem bestDefendType_spec (tracks : List (AcdTrackInfo K)) :
    (bestDefendType tracks = .none ∨ ∃ track ∈ tracks, track.defendType = bestDefendType tracks) ∧
      ∀ track ∈ tracks, track.defendType ≤ bestDefendType tracks := by
  have hfold : ∀ (l : List (AcdTrackInfo K)) (best : NML3AcdDefendType),
      let result := l.foldl (fun best t => if best < t.defendType then t.defendType else best) best
      (result = best ∨ ∃ track ∈ l, track.defendType = result) ∧ best ≤ result ∧
        ∀ track ∈ l, track.defendType ≤ result := by
    intro l
    induction l with
    | nil => exact fun best => ⟨.inl rfl, le_rfl, by simp⟩
    | cons t l ih =>
      intro best
      dsimp only [List.foldl_cons]
      by_cases hlt : best < t.defendType
      · rw [if_pos hlt]
        obtain ⟨hmem, hle, hall⟩ := ih t.defendType
        refine ⟨.inr ?_, hlt.le.trans hle, List.forall_mem_cons.mpr ⟨hle, hall⟩⟩
        rcases hmem with hmem | ⟨track, htrack, heq⟩
        · exact ⟨t, List.mem_cons_self, hmem.symm⟩
        · exact ⟨track, List.mem_cons_of_mem _ htrack, heq⟩
      · rw [if_neg hlt]
        obtain ⟨hmem, hle, hall⟩ := ih best
        refine ⟨hmem.imp_right ?_, hle, List.forall_mem_cons.mpr ⟨(not_lt.mp hlt).trans hle, hall⟩⟩
        exact fun ⟨track, htrack, heq⟩ => ⟨track, List.mem_cons_of_mem _ htrack, heq⟩
  obtain ⟨hmem, -, hall⟩ := hfold tracks .none
  exact ⟨hmem, hall⟩

theorem AcdData.bestDefendType_isGreatest {d : AcdData K} (hne : d.trackInfos ≠ []) :
    IsGreatest d.defendTypes (bestDefendType d.trackInfos) ∧
      bestDefendType d.trackInfos ≠ .none := by
  obtain ⟨hmem, hall⟩ := bestDefendType_spec d.trackInfos
  have hnone : bestDefendType d.trackInfos ≠ .none := by
    obtain ⟨track, htrack⟩ := List.exists_mem_of_ne_nil _ hne
    intro hbest
    have hle := hall track htrack
    rw [hbest] at hle
    exact track.defendType_ne (le_antisymm hle (NML3AcdDefendType.none_le _))
  refine ⟨⟨hmem.resolve_left hnone, ?_⟩, hnone⟩
  rintro t ⟨track, htrack, rfl⟩
  exact hall track htrack

namespace AcdData

variable {env : AcdEnv} {mode : AcdStateChangeMode} {d : AcdData K} {best : NML3AcdDefendType}

/-! ## State changes -/

/-- An address is defended in the best way, and it will be if its probe reports ready. -/
structure Defends (best : NML3AcdDefendType) (d : AcdData K) : Prop where
  current : d.state = .defending → d.defendTypeCurrent = best
  desired : d.state = .defending → d.defendTypeDesired = best
  probing : d.state = .probing → d.nacdProbe.isSome → d.defendTypeDesired = best

/-- A state change that keeps this, and announces no other type. -/
structure OutcomeDefends (best : NML3AcdDefendType) (o : AcdOutcome K) : Prop where
  data : o.data.Defends best
  announced : ∀ t ∈ o.announced, t = best

theorem OutcomeDefends.assert {o : AcdOutcome K} {cond : Bool} (h : OutcomeDefends best o) :
    OutcomeDefends best (o.assert cond) :=
  ⟨h.data, h.announced⟩

theorem defends_of_state (hstate : d.state ≠ .defending) (hprobing : d.state ≠ .probing) :
    d.Defends best :=
  ⟨fun h => absurd h hstate, fun h => absurd h hstate, fun h => absurd h hprobing⟩

theorem defends_of_probing (hstate : d.state = .probing)
    (h : d.nacdProbe.isSome → d.defendTypeDesired = best) : d.Defends best :=
  ⟨by simp [hstate], by simp [hstate], fun _ => h⟩

@[simp] theorem stateSet_defendTypeDesired {state : NML3AcdAddrState} :
    (d.stateSet state).defendTypeDesired = d.defendTypeDesired := by
  unfold stateSet
  split_ifs <;> rfl

theorem updateDefendType_desired : d.updateDefendType.defendTypeDesired = d.defendTypeDesired := by
  unfold updateDefendType
  split_ifs <;> rfl

theorem updateDefendType_current : d.updateDefendType.defendTypeCurrent = d.defendTypeDesired := by
  unfold updateDefendType
  split_ifs with h
  · rfl
  · exact (not_not.mp h).symm

variable (env d) in
theorem announce_defendTypes : (d.announce env).data.defendTypeDesired = d.defendTypeDesired ∧
    (d.announce env).data.defendTypeCurrent = d.defendTypeCurrent := by
  unfold announce
  split
  · split_ifs <;> exact ⟨rfl, rfl⟩
  · split_ifs <;> exact ⟨rfl, rfl⟩

theorem announce_announced : ∀ t ∈ (d.announce env).announced, t = d.defendTypeCurrent := by
  intro t ht
  unfold announce at ht
  split at ht
  · split_ifs at ht <;> simp [timeoutSchedule] at ht
  · split_ifs at ht
    · simp at ht
    · exact (Option.some.inj ht).symm

theorem handleStartDefending_defends (h : env.onLink → d.defendTypeDesired = best) :
    OutcomeDefends best (d.handleStartDefending env) := by
  unfold handleStartDefending
  split_ifs with honLink
  · have hdesired : (d.stateSet .defending).updateDefendType.defendTypeDesired = best := by
      rw [updateDefendType_desired, stateSet_defendTypeDesired, h honLink]
    have hcurrent : (d.stateSet .defending).updateDefendType.defendTypeCurrent = best := by
      rw [updateDefendType_current, stateSet_defendTypeDesired, h honLink]
    obtain ⟨hd, hc⟩ := announce_defendTypes env (d.stateSet .defending).updateDefendType
    refine ⟨⟨fun _ => hc.trans hcurrent, fun _ => hd.trans hdesired, by simp⟩, ?_⟩
    exact fun t ht => (announce_announced t ht).trans hcurrent
  · exact ⟨defends_of_state (by simp) (by simp), by simp⟩

theorem handleProbingDone_defends
    (h : env.onLink → d.state ≠ .conflict → d.defendTypeDesired = best) :
    OutcomeDefends best (d.handleProbingDone env mode) := by
  unfold handleProbingDone
  cases hstate : d.state with
  | conflict => exact ⟨defends_of_state (by simp [hstate]) (by simp [hstate]), by simp⟩
  | probing =>
    dsimp only
    split_ifs
    · exact handleStartDefending_defends fun honLink => h honLink (by simp [hstate])
    · exact handleStartDefending_defends fun honLink => h honLink (by simp [hstate])
  | init | used | ready | defending | externalRemoved =>
    exact handleStartDefending_defends fun honLink => h honLink (by simp [hstate])

theorem handleStartProbing_defends (h : d.defendTypeDesired = best) :
    OutcomeDefends best (d.handleStartProbing env) := by
  have hstart : OutcomeDefends best (d.startProbe env) := by
    unfold startProbe
    cases env.createProbe with
    | notSupported => exact handleStartDefending_defends fun _ => h
    | failed =>
      refine ⟨defends_of_probing (by simp [timeoutScheduleProbingRestart]) ?_, ?_⟩
      · simp [timeoutScheduleProbingRestart, timeoutSchedule]
      · simp [timeoutScheduleProbingRestart, timeoutSchedule]
    | created => exact ⟨defends_of_probing (by simp) fun _ => by simpa using h, by simp⟩
  exact ⟨hstart.data, hstart.announced⟩

theorem postCommitOffLink_defends {timeoutMsec : ℕ} (h : d.defendTypeDesired = best) :
    OutcomeDefends best (d.postCommitOffLink env timeoutMsec) := by
  have hprobing : OutcomeDefends best ((d.setProbing env timeoutMsec).handleStartProbing env) :=
    handleStartProbing_defends h
  unfold postCommitOffLink
  split_ifs
  · exact handleProbingDone_defends fun _ _ => h
  · cases hstate : d.state with
    | init => exact hprobing.assert
    | probing =>
      dsimp only [postCommitProbing]
      split_ifs
      · exact ⟨defends_of_probing hstate fun _ => h, by simp⟩
      · exact ⟨defends_of_probing hstate fun _ => h, by simp [timeoutSchedule]⟩
      · exact hprobing
    | used | conflict | externalRemoved =>
      exact ⟨defends_of_state (by simp [notReached, hstate]) (by simp [notReached, hstate]),
        by simp [notReached]⟩
    | ready | defending => exact handleStartDefending_defends fun _ => h

theorem setDesired_desired {dirtySelector : Option Bool} {loopback : Bool}
    (hselect : d.selectTracks dirtySelector = d.trackInfos) :
    (d.setDesired (d.collectTracksData loopback dirtySelector)).defendTypeDesired =
      bestDefendType d.trackInfos := by
  simp [setDesired, collectTracksData, hselect]

theorem changePostCommit_defends (hselect : d.selectTracks (some true) = d.trackInfos)
    (h : env.onLink → d.state ≠ .conflict → d.defendTypeDesired = bestDefendType d.trackInfos) :
    OutcomeDefends (bestDefendType d.trackInfos) (d.changePostCommit env) := by
  unfold changePostCommit
  dsimp only
  split_ifs with honLink hremoved
  · exact handleProbingDone_defends h
  · exact ⟨defends_of_state (by simp [hremoved]) (by simp [hremoved]), by simp⟩
  · apply OutcomeDefends.assert
    apply postCommitOffLink_defends
    exact setDesired_desired (d := d.clearTrackInfosChanged) hselect

theorem timeoutNoProbe_defends (hselect : d.selectTracks (some true) = d.trackInfos) :
    OutcomeDefends (bestDefendType d.trackInfos) (d.timeoutNoProbe env) := by
  have h : (d.setDesired (d.collectTracksData env.loopback (some true))).defendTypeDesired =
      bestDefendType d.trackInfos := setDesired_desired hselect
  unfold timeoutNoProbe timeoutRestart
  apply OutcomeDefends.assert
  split_ifs
  · exact handleProbingDone_defends fun _ _ => h
  · exact handleProbingDone_defends fun _ _ => h
  · exact handleStartDefending_defends fun _ => h
  · exact handleStartProbing_defends h
  · exact handleStartProbing_defends h

theorem changeTimeout_defends (hd : d.Defends (bestDefendType d.trackInfos))
    (hselect : d.selectTracks (some true) = d.trackInfos) :
    OutcomeDefends (bestDefendType d.trackInfos) (d.changeTimeout env) := by
  unfold changeTimeout
  cases hstate : d.state with
  | init | ready | externalRemoved => exact ⟨hd, by simp [notReached]⟩
  | probing =>
    dsimp only
    split_ifs
    · exact ⟨hd, by simp⟩
    · exact timeoutNoProbe_defends hselect
  | used | conflict => exact timeoutNoProbe_defends hselect
  | defending =>
    apply OutcomeDefends.assert
    exact handleStartDefending_defends fun _ => hd.desired hstate

theorem changeLink_defends (hd : d.Defends best) : OutcomeDefends best (d.changeLink env) := by
  unfold changeLink
  cases hstate : d.state with
  | probing =>
    dsimp only
    split_ifs with hprobe hrecent
    · exact ⟨hd, by simp⟩
    · exact ⟨hd, by simp⟩
    · have hsome : d.nacdProbe.isSome := by simpa [Option.isSome_iff_ne_none] using hprobe
      exact handleStartProbing_defends (hd.probing hstate hsome)
  | init | ready | defending | used | conflict | externalRemoved => exact ⟨hd, by simp [notReached]⟩

theorem changeNacdReady_defends (hd : d.Defends best) (hprobe : d.nacdProbe.isSome) :
    OutcomeDefends best (d.changeNacdReady env) := by
  unfold changeNacdReady
  cases hstate : d.state with
  | probing =>
    apply OutcomeDefends.assert
    exact handleProbingDone_defends fun _ _ => hd.probing hstate hprobe
  | defending =>
    refine ⟨⟨hd.current, hd.desired, ?_⟩, ?_⟩
    · simp [announceProbe, hstate]
    · intro t ht
      obtain rfl := Option.some.inj ht
      exact hd.current hstate
  | init | used | ready | conflict | externalRemoved => exact ⟨hd, by simp [notReached]⟩

theorem changeExternalAdded_defends (hd : d.Defends best)
    (h : ¬ env.commitReentrant → env.onLink → d.state ≠ .conflict → d.defendTypeDesired = best) :
    OutcomeDefends best (d.changeExternalAdded env) := by
  unfold changeExternalAdded
  split_ifs with hreentrant
  · exact ⟨hd, by simp⟩
  · cases hstate : d.state with
    | init => exact ⟨hd, by simp [notReached]⟩
    | ready | defending =>
      exact handleStartDefending_defends fun honLink => h hreentrant honLink (by simp [hstate])
    | probing | used | conflict | externalRemoved =>
      exact handleProbingDone_defends fun honLink => h hreentrant honLink

theorem changeExternalRemoved_defends (hd : d.Defends best) :
    OutcomeDefends best (d.changeExternalRemoved env) := by
  unfold changeExternalRemoved
  split_ifs
  · exact ⟨hd, by simp⟩
  · exact ⟨hd, by simp⟩
  · exact ⟨defends_of_state (by simp) (by simp), by simp⟩

@[simp] theorem ensureTimeout_announced {timeoutMsec : ℕ} :
    (d.ensureTimeout timeoutMsec).announced = none := by
  unfold ensureTimeout
  split_ifs <;> rfl

theorem changeNacdUsed_defends : OutcomeDefends best d.changeNacdUsed :=
  ⟨defends_of_state (by simp [changeNacdUsed]) (by simp [changeNacdUsed]),
    by simp [changeNacdUsed]⟩

theorem changeNacdConflict_defends : OutcomeDefends best d.changeNacdConflict :=
  ⟨defends_of_state (by simp [changeNacdConflict]) (by simp [changeNacdConflict]),
    by simp [changeNacdConflict]⟩

theorem changeInstanceReset_defends : OutcomeDefends best (d.changeInstanceReset env) := by
  refine ⟨defends_of_probing (by simp [changeInstanceReset]) ?_, ?_⟩
  · simp [changeInstanceReset, timeoutSchedule]
  · simp [changeInstanceReset, timeoutSchedule]

theorem changeInit_announced : (d.changeInit env mode).announced = none := by
  rcases changeInit_eq env mode d with heq | heq
  · rw [heq]
    rfl
  · rw [heq]
    unfold handleInit
    dsimp only
    split_ifs <;> rfl

theorem stateChange_init_announced (hmode : mode = .init ∨ mode = .initReapply) :
    (d.stateChange env mode).announced = none := by
  rcases stateChange_eq env mode d with ⟨-, heq⟩ | heq
  · rw [heq]
    rfl
  · rw [heq]
    rcases hmode with rfl | rfl
    · exact changeInit_announced
    · exact changeInit_announced

/-- The desired type is up to date where an address on the link is taken for good at once. -/
def Refreshed (env : AcdEnv) (mode : AcdStateChangeMode) (d : AcdData K) : Prop :=
  mode = .postCommit ∨ mode = .externalAdded ∧ ¬ env.commitReentrant →
    env.onLink → d.state ≠ .conflict → d.defendTypeDesired = bestDefendType d.trackInfos

theorem stateChange_defends (h : OutcomeDefends best (d.switchMode env mode)) :
    OutcomeDefends best (d.stateChange env mode) := by
  rcases stateChange_eq env mode d with ⟨hremoved, heq⟩ | heq
  · rw [heq]
    exact ⟨defends_of_state (by simp [hremoved]) (by simp [hremoved]), by simp⟩
  · rw [heq]
    exact h

end AcdData

namespace AcdSystem

variable [DecidableEq K] {loopback : Bool} {s : AcdSystem K} {e : AcdEvent K} {c : Call K}

/-! ## Steps -/

/-- What has to hold of a step, in the state before it. -/
def RefreshesDefendType (loopback : Bool) (s : AcdSystem K) (e : AcdEvent K) : Prop :=
  ∀ c ∈ s.call e, c.data.Refreshed (c.system.env loopback c.createProbe) c.mode

/-- The defend type that the trackers of an address ask for most strongly is in effect. -/
def DefendsAsConfigured (s : AcdSystem K) : Prop :=
  ¬ s.inCommit → ∀ d ∈ s.acdData, d.state = .defending →
    d.defendTypeDesired = d.defendTypeCurrent ∧ IsGreatest d.defendTypes d.defendTypeDesired ∧
      d.defendTypeDesired ≠ .none

/-- No probe is announced with another type. -/
def AnnouncesAsConfigured (loopback : Bool) (s : AcdSystem K) (e : AcdEvent K) : Prop :=
  ∀ c ∈ s.call e, ∀ t ∈ (c.outcome loopback).announced, IsGreatest c.data.defendTypes t ∧ t ≠ .none

/-- The invariant: between commits every address is defended in the best way. -/
structure Configured (s : AcdSystem K) : Prop where
  kept : s.Kept
  defends : ¬ s.inCommit → ∀ d ∈ s.acdData, d.Defends (bestDefendType d.trackInfos)

omit [DecidableEq K] in
theorem start_configured : (AcdSystem.start K).Configured where
  kept := start_kept
  defends := by simp [AcdSystem.start]

/-- A call announces the best type only, and outside of commits it leaves the address defended
in the best way. -/
structure CallDefends (loopback : Bool) (e : AcdEvent K) (c : Call K) : Prop where
  announced : ∀ t ∈ (c.outcome loopback).announced, t = bestDefendType c.data.trackInfos
  defends : ¬ ((c.run loopback).finish e).inCommit →
    (c.outcome loopback).data.Defends (bestDefendType c.data.trackInfos)

omit [DecidableEq K] in
theorem CallDefends.of_outcome {best : NML3AcdDefendType}
    (hbest : best = bestDefendType c.data.trackInfos)
    (h : AcdData.OutcomeDefends best (c.outcome loopback)) : CallDefends loopback e c :=
  ⟨hbest ▸ h.announced, fun _ => hbest ▸ h.data⟩

omit [DecidableEq K] in
theorem CallDefends.of_done (hdone : c.outcome loopback = c.data.done)
    (hcommit : ((c.run loopback).finish e).inCommit) : CallDefends loopback e c :=
  ⟨by simp [hdone], fun h => absurd hcommit h⟩

theorem CallOf.callDefends (hs : s.Configured) (hc : CallOf s e c)
    (hrefreshed : c.data.Refreshed (c.system.env loopback c.createProbe) c.mode) :
    CallDefends loopback e c := by
  have hselect := hc.selectTracks hs.kept
  cases hc with
  | @commitBegin u d hcommit hd =>
    have hnone : (Call.outcome loopback ⟨d, u.mode, .failed, s.beginCommit (some u)⟩).announced =
        none := by
      apply AcdData.stateChange_init_announced
      cases hreapply : u.reapply <;> simp [AcdUpdate.mode, hreapply]
    exact ⟨by simp [hnone], fun h => absurd rfl h⟩
  | @commitEnd createProbe d hcommit hd =>
    have hpost : AcdData.OutcomeDefends (bestDefendType d.trackInfos)
        (d.changePostCommit (s.prune.env loopback createProbe)) :=
      AcdData.changePostCommit_defends (hselect (.inl rfl)) (hrefreshed (.inl rfl))
    exact .of_outcome rfl (AcdData.stateChange_defends hpost)
  | @externalAdded createProbe d hd =>
    by_cases hcommit : s.inCommit
    · exact .of_done (AcdData.stateChange_external_reentrant hcommit (.inl rfl)) hcommit
    · have hdefends := hs.defends hcommit d hd
      have hadded : AcdData.OutcomeDefends (bestDefendType d.trackInfos)
          (d.changeExternalAdded (env loopback createProbe { s with onLink := true })) :=
        AcdData.changeExternalAdded_defends hdefends fun h => hrefreshed (.inr ⟨rfl, h⟩)
      exact .of_outcome rfl (AcdData.stateChange_defends hadded)
  | @externalRemoved stillOnLink d hd =>
    by_cases hcommit : s.inCommit
    · exact .of_done (AcdData.stateChange_external_reentrant hcommit (.inr rfl)) hcommit
    · have hdefends := hs.defends hcommit d hd
      exact .of_outcome rfl (AcdData.stateChange_defends
        (AcdData.changeExternalRemoved_defends hdefends))
  | @nacdPopEvent createProbe d probe event hcommit hd hprobe hevent =>
    have hdefends := hs.defends hcommit d hd
    have hpop : (d.popEvent probe).Defends (bestDefendType d.trackInfos) :=
      ⟨hdefends.current, hdefends.desired, fun h _ => hdefends.probing h (by simp [hprobe])⟩
    have hswitch : AcdData.OutcomeDefends (bestDefendType d.trackInfos)
        ((d.popEvent probe).switchMode (s.env loopback createProbe) event.mode) := by
      cases event with
      | ready => exact AcdData.changeNacdReady_defends hpop rfl
      | used => exact AcdData.changeNacdUsed_defends
      | defended => exact AcdData.OutcomeDefends.assert ⟨hpop, by simp⟩
      | conflict => exact AcdData.changeNacdConflict_defends
    exact .of_outcome rfl (AcdData.stateChange_defends hswitch)
  | @timeout createProbe d hcommit hd htimer =>
    have hdefends := hs.defends hcommit d hd
    have hclear : d.clearTimeout.Defends (bestDefendType d.clearTimeout.trackInfos) :=
      ⟨hdefends.current, hdefends.desired, hdefends.probing⟩
    have hswitch : AcdData.OutcomeDefends (bestDefendType d.clearTimeout.trackInfos)
        (d.clearTimeout.changeTimeout (s.env loopback createProbe)) :=
      AcdData.changeTimeout_defends hclear (hselect (.inr rfl))
    exact .of_outcome rfl (AcdData.stateChange_defends hswitch)
  | @nacdDown createProbe d hcommit hd | @linkNowUp createProbe d hcommit hd =>
    have hdefends := hs.defends hcommit d hd
    exact .of_outcome rfl
      (AcdData.stateChange_defends (AcdData.changeLink_defends hdefends))
  | @instanceReset d hcommit hd =>
    exact .of_outcome rfl (AcdData.stateChange_defends
      AcdData.changeInstanceReset_defends)

theorem not_inCommit_of_rest (hcall : s.call e = none) {d : AcdData K}
    (hd : d ∈ ((s.rest e).finish e).acdData) (hidle : ¬ ((s.rest e).finish e).inCommit) :
    ¬ s.inCommit := by
  intro hcommit
  cases e with
  | commitEnd createProbe =>
    have hnone : s.prune.acdData = none := by simpa [call, hcommit] using hcall
    simp [rest, finish, hcommit, hnone] at hd
  | nacdTimer | nacdPacket packet => simp [rest, finish, modifyProbe, hcommit] at hidle
  | commitBegin update => simp [rest, finish, hcommit] at hidle
  | externalAdded createProbe | externalRemoved stillOnLink | elapse msec
  | nacdPopEvent createProbe | timeout createProbe | nacdDown createProbe
  | linkNowUp createProbe | instanceReset => exact hidle hcommit

theorem step_configured (hs : s.Configured) (hrefreshes : RefreshesDefendType loopback s e) :
    (s.step loopback e).Configured where
  kept := step_kept hs.kept
  defends hidle d hd := by
    cases hcall : s.call e with
    | some c =>
      obtain rfl := Option.some.inj ((step_acdData hcall).symm.trans hd)
      have hidle' : ¬ ((c.run loopback).finish e).inCommit := by
        simpa [step, hcall] using hidle
      have hdefends := ((callOf hcall).callDefends hs (hrefreshes c hcall)).defends hidle'
      simpa [Call.outcome] using hdefends
    | none =>
      have hrest : s.step loopback e = (s.rest e).finish e := by simp [step, hcall]
      rw [hrest] at hd hidle
      have hidle₀ : ¬ s.inCommit := not_inCommit_of_rest hcall hd hidle
      rcases mem_rest hcall hd with hmem | ⟨d₀, hd₀, f, -, rfl⟩
      · exact hs.defends hidle₀ d hmem
      · have hdefends := hs.defends hidle₀ d₀ hd₀
        refine ⟨hdefends.current, hdefends.desired, ?_⟩
        intro hprobing hsome
        exact hdefends.probing hprobing (by simpa using hsome)

omit [DecidableEq K] in
theorem asConfigured_of_configured (hs : s.Configured) : s.DefendsAsConfigured := by
  intro hidle d hd hstate
  have hdefends := hs.defends hidle d hd
  obtain ⟨hgreatest, hnone⟩ := AcdData.bestDefendType_isGreatest (hs.kept.tracked d hd)
  rw [hdefends.desired hstate, hdefends.current hstate]
  exact ⟨rfl, hgreatest, hnone⟩

theorem announces_of_configured (hs : s.Configured)
    (hrefreshes : RefreshesDefendType loopback s e) : AnnouncesAsConfigured loopback s e := by
  intro c hcall t ht
  have hc := callOf hcall
  rw [(hc.callDefends hs (hrefreshes c hcall)).announced t ht]
  exact AcdData.bestDefendType_isGreatest (hc.tracked hs.kept).1

/-- In a run in which the desired type is always up to date where it is needed, the configured
defend type takes effect with every commit. -/
theorem run_defendsAsConfigured (loopback : Bool) (es : List (AcdEvent K))
    (h : Along (step loopback) (RefreshesDefendType loopback) (AcdSystem.start K) es) :
    DefendsAsConfigured (es.foldl (step loopback) (AcdSystem.start K)) ∧
      Along (step loopback) (AnnouncesAsConfigured loopback) (AcdSystem.start K) es :=
  ⟨asConfigured_of_configured (Along.foldl (fun _ _ => step_configured) start_configured h),
    Along.imp (fun _ _ => step_configured) start_configured
      (fun _ _ => announces_of_configured) h⟩

instance AcdData.Refreshed.decidable (env : AcdEnv) (mode : AcdStateChangeMode) (d : AcdData K) :
    Decidable (d.Refreshed env mode) :=
  inferInstanceAs (Decidable (mode = .postCommit ∨ mode = .externalAdded ∧ ¬ env.commitReentrant →
    env.onLink → d.state ≠ .conflict → d.defendTypeDesired = bestDefendType d.trackInfos))

instance RefreshesDefendType.decidable (loopback : Bool) (s : AcdSystem K) (e : AcdEvent K) :
    Decidable (RefreshesDefendType loopback s e) :=
  inferInstanceAs (Decidable (∀ c ∈ s.call e,
    c.data.Refreshed (c.system.env loopback c.createProbe) c.mode))

def defendedRun : List (AcdEvent ℕ) :=
  [.commitBegin (some (.single 200 .once NML3AcdDefendType.once_ne_none)), .commitEnd .created, .nacdTimer,
    .nacdPopEvent .created, .commitBegin none, .externalAdded .failed, .commitEnd .created,
    .nacdTimer]

theorem defendedRun_defendsAsConfigured :
    DefendsAsConfigured (defendedRun.foldl (step false) (AcdSystem.start ℕ)) ∧
      Along (step false) (AnnouncesAsConfigured false) (AcdSystem.start ℕ) defendedRun := by
  apply run_defendsAsConfigured
  decide +kernel

def changedRun : List (AcdEvent ℕ) :=
  defendedRun ++ [.nacdPopEvent .created,
    .commitBegin (some (.single 200 .always (by decide))), .commitEnd .created]

/-- The commit leaves the address defended in the old way. -/
theorem changedRun_not_defendsAsConfigured :
    ¬ DefendsAsConfigured (changedRun.foldl (step false) (AcdSystem.start ℕ)) := by
  intro h
  obtain ⟨-, hgreatest, -⟩ := h (by decide) _ rfl (by decide)
  have hle := hgreatest.2 ⟨_, List.mem_cons_self, rfl⟩
  revert hle
  decide

end AcdSystem

end NetworkManager.Core
