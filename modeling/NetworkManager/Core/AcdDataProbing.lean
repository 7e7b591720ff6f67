import NetworkManager.Core.AcdDataFrame

/-!
# How an address gets past probing

Two facts about every state change: what it leaves an address with that is (still) probed, and
for which reason an address that conflict detection is enabled for is declared usable.
-/

namespace NetworkManager.Core

variable {K : Type*}

/-! ## Timeouts of trackers -/

/-- All trackers want the address to be probed, and the interface lets them. -/
def AcdData.WantsProbing (loopback : Bool) (d : AcdData K) : Prop :=
  ¬ loopback ∧ ∀ t ∈ d.trackInfos, t.timeoutMsec ≠ 0

instance AcdData.WantsProbing.decidable (loopback : Bool) (d : AcdData K) :
    Decidable (d.WantsProbing loopback) :=
  inferInstanceAs (Decidable (¬ loopback ∧ ∀ t ∈ d.trackInfos, t.timeoutMsec ≠ 0))

theorem bestTimeoutMsec_ne_zero (tracks : List (AcdTrackInfo K))
    (h : ∀ t ∈ tracks, t.timeoutMsec ≠ 0) : bestTimeoutMsec tracks ≠ 0 := by
  have hfold : ∀ (l : List (AcdTrackInfo K)) (best : ℕ), best ≠ 0 →
      (∀ t ∈ l, t.timeoutMsec ≠ 0) →
        l.foldl (fun best t => if best > t.timeoutMsec then t.timeoutMsec else best) best ≠ 0 := by
    intro l
    induction l with
    | nil => exact fun best hbest _ => hbest
    | cons t l ih =>
      intro best hbest hl
      refine ih _ ?_ fun t' ht' => hl t' (List.mem_cons_of_mem _ ht')
      have ht := hl t List.mem_cons_self
      dsimp only
      split_ifs
      · exact ht
      · exact hbest
  exact hfold tracks maxUint32 (by decide) h

theorem AcdData.WantsProbing.timeoutMsec_ne {loopback : Bool} {d : AcdData K}
    (h : d.WantsProbing loopback) (dirtySelector : Option Bool)
    (hne : d.selectTracks dirtySelector ≠ []) :
    (d.collectTracksData loopback dirtySelector).bestAcdTimeoutMsec ≠ 0 := by
  have hpos : (d.selectTracks dirtySelector).length > 0 := List.length_pos_iff.mpr hne
  have hbest := bestTimeoutMsec_ne_zero (d.selectTracks dirtySelector)
    fun t ht => h.2 t (List.mem_filter.mp ht).1
  simp only [collectTracksData]
  rw [if_pos hpos, if_neg h.1]
  exact hbest

namespace AcdData

variable {env : AcdEnv} {mode : AcdStateChangeMode} {d : AcdData K} {o : AcdOutcome K}
  {d' : AcdData K} {state : NML3AcdAddrState} {timeoutMsec : ℕ}

/-! ## Where probing stands -/

/-- A timeout would probe the address again. -/
structure Retries (env : AcdEnv) (d : AcdData K) : Prop where
  state : d.state = .probing
  probe : d.nacdProbe = none
  offLink : ¬ env.onLink
  timeout : (d.collectTracksData env.loopback (some true)).bestAcdTimeoutMsec ≠ 0

instance Retries.decidable (env : AcdEnv) (d : AcdData K) : Decidable (d.Retries env) :=
  decidable_of_iff (d.state = .probing ∧ d.nacdProbe = none ∧ ¬ env.onLink ∧
      (d.collectTracksData env.loopback (some true)).bestAcdTimeoutMsec ≠ 0)
    ⟨fun ⟨h₁, h₂, h₃, h₄⟩ => ⟨h₁, h₂, h₃, h₄⟩, fun ⟨h₁, h₂, h₃, h₄⟩ => ⟨h₁, h₂, h₃, h₄⟩⟩

/-- A link event restarts a probe that has been running for too long. -/
structure Restarted (env : AcdEnv) (d : AcdData K) : Prop where
  state : d.state = .probing
  probe : d.nacdProbe ≠ none
  late : d.probingTimestampMsec + d.probingTimeoutMsec + waitProbingExtraTimeMsec +
    waitProbingExtraTime2Msec < env.nowMsec

instance Restarted.decidable (env : AcdEnv) (d : AcdData K) : Decidable (d.Restarted env) :=
  decidable_of_iff (d.state = .probing ∧ d.nacdProbe ≠ none ∧ d.probingTimestampMsec +
      d.probingTimeoutMsec + waitProbingExtraTimeMsec + waitProbingExtraTime2Msec < env.nowMsec)
    ⟨fun ⟨h₁, h₂, h₃⟩ => ⟨h₁, h₂, h₃⟩, fun ⟨h₁, h₂, h₃⟩ => ⟨h₁, h₂, h₃⟩⟩

/-- The times of the last probe are kept by a timeout and by a link event. -/
def KeepsTimes (env : AcdEnv) (mode : AcdStateChangeMode) (d : AcdData K) : Prop :=
  mode = .timeout ∧ d.Retries env ∨ (mode = .nacdDown ∨ mode = .linkNowUp) ∧ d.Restarted env

/-- What a state change that ends in probing did to the probe and to the times: nothing, it took
over another timeout, it was reset, or it asked for a probe, with new times or the old ones. -/
inductive ProbingStands (env : AcdEnv) (mode : AcdStateChangeMode) (d : AcdData K)
    (o : AcdOutcome K) : Prop
  | same (hstate : d.state = .probing) (hprobe : o.data.nacdProbe = d.nacdProbe)
      (hrequest : o.probeRequest = none)
      (htimestamp : o.data.probingTimestampMsec = d.probingTimestampMsec)
      (htimeout : o.data.probingTimeoutMsec = d.probingTimeoutMsec)
  | newTimes (hprobe : o.data.nacdProbe = none) (hrequest : o.probeRequest = none)
      (htimestamp : o.data.probingTimestampMsec = env.nowMsec)
  | request (hprobe : o.data.nacdProbe = if env.createProbe = .created then
        some (nAcdProbeNew o.data.probingTimeoutMsec) else none)
      (hrequest : o.probeRequest = some (o.data.probingTimeoutMsec, env.createProbe))
      (htimestamp : o.data.probingTimestampMsec = env.nowMsec ∨
        d.KeepsTimes env mode ∧ o.data.probingTimestampMsec = d.probingTimestampMsec)

theorem ProbingStands.assert {cond : Bool} (h : ProbingStands env mode d o) :
    ProbingStands env mode d (o.assert cond) := by
  cases h with
  | same hstate hprobe hrequest htimestamp htimeout =>
    exact .same hstate hprobe hrequest htimestamp htimeout
  | newTimes hprobe hrequest htimestamp => exact .newTimes hprobe hrequest htimestamp
  | request hprobe hrequest htimestamp => exact .request hprobe hrequest htimestamp

theorem ProbingStands.of_times (h : ProbingStands env .postCommit d' o)
    (hstate : d'.state = d.state) (hprobe : d'.nacdProbe = d.nacdProbe)
    (htimestamp : d'.probingTimestampMsec = d.probingTimestampMsec)
    (htimeout : d'.probingTimeoutMsec = d.probingTimeoutMsec) :
    ProbingStands env .postCommit d o := by
  cases h with
  | same h₁ h₂ h₃ h₄ h₅ =>
    exact .same (hstate ▸ h₁) (h₂.trans hprobe) h₃ (h₄.trans htimestamp) (h₅.trans htimeout)
  | newTimes h₁ h₂ h₃ => exact .newTimes h₁ h₂ h₃
  | request h₁ h₂ h₃ =>
    refine .request h₁ h₂ (h₃.imp_right fun hkeeps => ?_)
    simp [KeepsTimes] at hkeeps

@[simp] theorem stateSet_probingTimestampMsec :
    (d.stateSet state).probingTimestampMsec = d.probingTimestampMsec := by
  unfold stateSet
  split_ifs <;> rfl

@[simp] theorem stateSet_probingTimeoutMsec :
    (d.stateSet state).probingTimeoutMsec = d.probingTimeoutMsec := by
  unfold stateSet
  split_ifs <;> rfl

@[simp] theorem goodState_ne_probing {onLink : Bool} : goodState onLink ≠ .probing := by
  unfold goodState
  split_ifs <;> simp

theorem handleStartProbing_stands (h : (d.handleStartProbing env).data.state = .probing) :
    (d.handleStartProbing env).data.nacdProbe =
        (if env.createProbe = .created then some (nAcdProbeNew d.probingTimeoutMsec) else none) ∧
      (d.handleStartProbing env).data.probingTimestampMsec = d.probingTimestampMsec ∧
        (d.handleStartProbing env).data.probingTimeoutMsec = d.probingTimeoutMsec := by
  rw [handleStartProbing_state] at h
  unfold handleStartProbing startProbe
  cases hcreate : env.createProbe with
  | created => simp
  | failed => simp [timeoutScheduleProbingRestart, timeoutSchedule, freeProbe]
  | notSupported => simp [hcreate] at h

theorem handleStartProbing_request :
    (d.handleStartProbing env).probeRequest = some (d.probingTimeoutMsec, env.createProbe) := rfl

theorem ProbingStands.of_old (hkeeps : d.KeepsTimes env mode)
    (htimestamp : d'.probingTimestampMsec = d.probingTimestampMsec)
    (h : (d'.handleStartProbing env).data.state = .probing) :
    ProbingStands env mode d (d'.handleStartProbing env) := by
  obtain ⟨hprobe, hts, hto⟩ := handleStartProbing_stands h
  refine .request ?_ ?_ (.inr ⟨hkeeps, hts.trans htimestamp⟩)
  · rw [hprobe, hto]
  · rw [handleStartProbing_request, hto]

theorem ProbingStands.of_new
    (h : ((d'.setProbing env timeoutMsec).handleStartProbing env).data.state = .probing) :
    ProbingStands env mode d ((d'.setProbing env timeoutMsec).handleStartProbing env) := by
  obtain ⟨hprobe, hts, hto⟩ := handleStartProbing_stands h
  refine .request ?_ ?_ (.inl hts)
  · rw [hprobe, hto]
  · rw [handleStartProbing_request, hto]

theorem handleProbingDone_ne_probing :
    (d.handleProbingDone env mode).data.state ≠ .probing := by
  rw [handleProbingDone_state]
  split_ifs <;> simp

theorem postCommitOffLink_stands (h : (d.postCommitOffLink env timeoutMsec).data.state = .probing) :
    ProbingStands env .postCommit d (d.postCommitOffLink env timeoutMsec) := by
  unfold postCommitOffLink at h ⊢
  split_ifs at h ⊢ with htimeout
  · exact absurd h handleProbingDone_ne_probing
  · cases hstate : d.state with
    | init =>
      simp only [hstate] at h
      exact (ProbingStands.of_new h).assert
    | probing =>
      simp only [hstate, postCommitProbing] at h ⊢
      split_ifs at h ⊢ with hexpiry hprobe
      · exact .same hstate rfl rfl rfl rfl
      · exact .newTimes (Option.isNone_iff_eq_none.mp hprobe) rfl rfl
      · exact .of_new h
    | used | conflict | externalRemoved => simp [hstate, notReached] at h
    | ready | defending => simp [hstate] at h

theorem timeoutNoProbe_stands (hprobe : d.state = .probing → d.nacdProbe = none)
    (h : (d.timeoutNoProbe env).data.state = .probing) :
    ProbingStands env .timeout d (d.timeoutNoProbe env) := by
  unfold timeoutNoProbe timeoutRestart at h ⊢
  dsimp only [AcdOutcome.assert_data] at h ⊢
  apply ProbingStands.assert
  split_ifs at h ⊢ with htimeout honLink hstate hlate
  · exact absurd h handleProbingDone_ne_probing
  · exact absurd h handleProbingDone_ne_probing
  · simp at h
  · have hretries : d.Retries env := ⟨hstate, hprobe hstate, honLink, htimeout⟩
    exact .of_old (d := d) (.inl ⟨rfl, hretries⟩) rfl h
  · exact .of_new h

theorem changeInit_stands (h : (d.changeInit env mode).data.state = .probing) :
    ProbingStands env mode d (d.changeInit env mode) := by
  rcases changeInit_eq env mode d with heq | heq
  · rw [heq] at h ⊢
    exact .same h rfl rfl rfl rfl
  · rw [heq] at h ⊢
    unfold handleInit at h ⊢
    dsimp only at h ⊢
    split_ifs at h ⊢
    · exact .same h rfl rfl rfl rfl
    · simp at h
    · simp at h
    · exact .same h rfl rfl rfl rfl

theorem changePostCommit_stands (h : (d.changePostCommit env).data.state = .probing) :
    ProbingStands env .postCommit d (d.changePostCommit env) := by
  unfold changePostCommit at h ⊢
  dsimp only at h ⊢
  split_ifs at h ⊢ with honLink hremoved
  · exact absurd h handleProbingDone_ne_probing
  · exact absurd (hremoved.symm.trans h) (by simp)
  · apply ProbingStands.assert
    exact (postCommitOffLink_stands h).of_times rfl rfl rfl rfl

theorem changeTimeout_stands (h : (d.changeTimeout env).data.state = .probing) :
    ProbingStands env .timeout d (d.changeTimeout env) := by
  unfold changeTimeout at h ⊢
  cases hstate : d.state with
  | init | ready | externalRemoved => simp [hstate, notReached] at h
  | probing =>
    simp only [hstate] at h ⊢
    split_ifs at h ⊢ with hprobe
    · exact .same hstate rfl rfl rfl rfl
    · exact timeoutNoProbe_stands (fun _ => by simpa using hprobe) h
  | used | conflict =>
    simp only [hstate] at h ⊢
    exact timeoutNoProbe_stands (by simp [hstate]) h
  | defending => simp [hstate] at h

theorem changeLink_stands (hmode : mode = .nacdDown ∨ mode = .linkNowUp)
    (h : (d.changeLink env).data.state = .probing) :
    ProbingStands env mode d (d.changeLink env) := by
  unfold changeLink at h ⊢
  cases hstate : d.state with
  | probing =>
    simp only [hstate] at h ⊢
    split_ifs at h ⊢ with hprobe hrecent
    · exact .same hstate rfl rfl rfl rfl
    · exact .same hstate rfl rfl rfl rfl
    · have hrestarted : d.Restarted env :=
        ⟨hstate, by simpa using hprobe, not_le.mp hrecent⟩
      exact .of_old (d := d) (.inr ⟨hmode, hrestarted⟩) rfl h
  | init | ready | defending | used | conflict | externalRemoved => simp [hstate, notReached] at h

/-- Where an address stands that is probed after a state change. -/
theorem stateChange_stands (h : (d.stateChange env mode).data.state = .probing) :
    ProbingStands env mode d (d.stateChange env mode) := by
  rcases stateChange_eq env mode d with ⟨hremoved, heq⟩ | heq
  · simp [heq, hremoved] at h
  · rw [heq] at h ⊢
    cases mode with
    | init | initReapply => exact changeInit_stands h
    | postCommit => exact changePostCommit_stands h
    | timeout => exact changeTimeout_stands h
    | nacdUsed => simp [switchMode, changeNacdUsed] at h
    | nacdConflict => simp [switchMode, changeNacdConflict] at h
    | nacdDefended => exact .same h rfl rfl rfl rfl
    | nacdReady =>
      simp only [switchMode, changeNacdReady] at h
      cases hstate : d.state with
      | probing =>
        simp only [hstate] at h
        exact absurd h handleProbingDone_ne_probing
      | defending => simp [hstate, announceProbe] at h
      | init | used | ready | conflict | externalRemoved => simp [hstate, notReached] at h
    | externalAdded =>
      simp only [switchMode, changeExternalAdded] at h ⊢
      split_ifs at h ⊢
      · exact .same h rfl rfl rfl rfl
      · cases hstate : d.state with
        | init => simp [hstate, notReached] at h
        | ready | defending => simp [hstate] at h
        | probing | used | conflict | externalRemoved =>
          simp only [hstate] at h
          exact absurd h handleProbingDone_ne_probing
    | externalRemoved =>
      simp only [switchMode, changeExternalRemoved] at h ⊢
      split_ifs at h ⊢
      · exact .same h rfl rfl rfl rfl
      · exact .same h rfl rfl rfl rfl
      · simp at h
    | nacdDown => exact changeLink_stands (.inl rfl) h
    | linkNowUp => exact changeLink_stands (.inr rfl) h
    | instanceReset =>
      refine .newTimes ?_ rfl ?_
      · simp [switchMode, changeInstanceReset, timeoutSchedule]
      · simp [switchMode, changeInstanceReset, timeoutSchedule]

/-! ## Timeouts of probes -/

/-- The probe of an address that is probed has a timeout, as the address has. -/
def HasTimeout (d : AcdData K) : Prop :=
  d.state = .probing → ∀ probe ∈ d.nacdProbe, probe.timeoutMsec ≠ 0 ∧ d.probingTimeoutMsec ≠ 0

@[simp] theorem timeoutSchedule_probeRequest :
    (d.timeoutSchedule timeoutMsec).probeRequest = none := rfl

@[simp] theorem announce_probeRequest : (d.announce env).probeRequest = none := by
  unfold announce
  split
  · split_ifs <;> rfl
  · split_ifs <;> rfl

@[simp] theorem handleStartDefending_probeRequest :
    (d.handleStartDefending env).probeRequest = none := by
  unfold handleStartDefending
  split_ifs <;> simp

@[simp] theorem ensureTimeout_probeRequest : (d.ensureTimeout timeoutMsec).probeRequest = none := by
  unfold ensureTimeout
  split_ifs <;> rfl

@[simp] theorem handleProbingDone_probeRequest :
    (d.handleProbingDone env mode).probeRequest = none := by
  unfold handleProbingDone
  cases d.state <;> simp

@[simp] theorem notReached_probeRequest : d.notReached.probeRequest = none := rfl

theorem changeInit_probeRequest : (d.changeInit env mode).probeRequest = none := by
  rcases changeInit_eq env mode d with heq | heq
  · rw [heq]
    rfl
  · rw [heq]
    unfold handleInit
    dsimp only
    split_ifs <;> rfl

theorem postCommitOffLink_probeRequest :
    ∀ request ∈ (d.postCommitOffLink env timeoutMsec).probeRequest, request.1 ≠ 0 := by
  intro request hrequest
  have hnew (d' : AcdData K) (htimeout : timeoutMsec ≠ 0)
      (h : request ∈ ((d'.setProbing env timeoutMsec).handleStartProbing env).probeRequest) :
      request.1 ≠ 0 := by
    obtain rfl := Option.some.inj h
    exact htimeout
  unfold postCommitOffLink at hrequest
  split_ifs at hrequest with htimeout
  · simp at hrequest
  · cases hstate : d.state with
    | init =>
      simp only [hstate] at hrequest
      exact hnew d htimeout hrequest
    | probing =>
      simp only [hstate, postCommitProbing] at hrequest
      split_ifs at hrequest
      · simp at hrequest
      · simp at hrequest
      · exact hnew d htimeout hrequest
    | used | conflict | ready | defending | externalRemoved => simp [hstate] at hrequest

theorem timeoutNoProbe_probeRequest (hprobe : d.state = .probing → d.nacdProbe = none)
    (hretry : d.Retries env → d.probingTimeoutMsec ≠ 0) :
    ∀ request ∈ (d.timeoutNoProbe env).probeRequest, request.1 ≠ 0 := by
  intro request hrequest
  unfold timeoutNoProbe timeoutRestart at hrequest
  simp only [AcdOutcome.assert_probeRequest] at hrequest
  split_ifs at hrequest with htimeout honLink hstate hlate
  · simp at hrequest
  · simp at hrequest
  · simp at hrequest
  · obtain rfl := Option.some.inj hrequest
    exact hretry ⟨hstate, hprobe hstate, honLink, htimeout⟩
  · obtain rfl := Option.some.inj hrequest
    exact htimeout

/-- Whatever probe a state change asks for, it is one with a timeout. -/
theorem stateChange_probeRequest (hd : d.HasTimeout)
    (hretry : mode = .timeout → d.Retries env → d.probingTimeoutMsec ≠ 0) :
    ∀ request ∈ (d.stateChange env mode).probeRequest, request.1 ≠ 0 := by
  intro request hrequest
  rcases stateChange_eq env mode d with ⟨hremoved, heq⟩ | heq
  · simp [heq] at hrequest
  · rw [heq] at hrequest
    have hlink (h : request ∈ (d.changeLink env).probeRequest) : request.1 ≠ 0 := by
      unfold changeLink at h
      cases hstate : d.state with
      | probing =>
        simp only [hstate] at h
        split_ifs at h with hprobe hrecent
        · simp at h
        · simp at h
        · obtain rfl := Option.some.inj h
          cases hsome : d.nacdProbe with
          | none => simp [hsome] at hprobe
          | some probe => exact (hd hstate probe hsome).2
      | init | ready | defending | used | conflict | externalRemoved => simp [hstate] at h
    cases mode with
    | init | initReapply => simp [switchMode, changeInit_probeRequest] at hrequest
    | postCommit =>
      simp only [switchMode, changePostCommit] at hrequest
      split_ifs at hrequest with honLink hremoved
      · simp at hrequest
      · simp at hrequest
      · exact postCommitOffLink_probeRequest request hrequest
    | timeout =>
      simp only [switchMode, changeTimeout] at hrequest
      cases hstate : d.state with
      | init | ready | externalRemoved | defending => simp [hstate] at hrequest
      | probing =>
        simp only [hstate] at hrequest
        split_ifs at hrequest with hprobe
        · simp at hrequest
        · exact timeoutNoProbe_probeRequest (fun _ => by simpa using hprobe) (hretry rfl) request
            hrequest
      | used | conflict =>
        simp only [hstate] at hrequest
        exact timeoutNoProbe_probeRequest (by simp [hstate]) (hretry rfl) request hrequest
    | nacdUsed => simp [switchMode, changeNacdUsed] at hrequest
    | nacdConflict => simp [switchMode, changeNacdConflict] at hrequest
    | nacdDefended => simp [switchMode, changeNacdDefended] at hrequest
    | nacdReady =>
      simp only [switchMode, changeNacdReady] at hrequest
      cases hstate : d.state <;> simp [hstate] at hrequest
    | externalAdded =>
      simp only [switchMode, changeExternalAdded] at hrequest
      split_ifs at hrequest
      · simp at hrequest
      · cases hstate : d.state <;> simp [hstate] at hrequest
    | externalRemoved =>
      simp only [switchMode, changeExternalRemoved] at hrequest
      split_ifs at hrequest <;> simp at hrequest
    | nacdDown | linkNowUp => exact hlink hrequest
    | instanceReset => simp [switchMode, changeInstanceReset] at hrequest

/-! ## Reasons -/

/-- A state in which the address is usable. -/
def Usable (state : NML3AcdAddrState) : Prop := state = .ready ∨ state = .defending

/-- Why an address may be declared usable. `failingSince` is when the attempts to create a probe
began to fail. -/
inductive UsableReason (env : AcdEnv) (mode : AcdStateChangeMode) (failingSince : Option ℕ)
    (d : AcdData K) : Prop
  | onLink (h : env.onLink)
  | probeReady (hmode : mode = .nacdReady)
      (hprobe : ∃ probe ∈ d.nacdProbe, probe.timeoutMsec ≠ 0)
  | notSupported (h : env.loopback ∨
      (d.stateChange env mode).probeRequest.map Prod.snd = some .notSupported)
  | failingLong (h : ∃ since ∈ failingSince, since + waitProbingExtraTimeMsec < env.nowMsec)

/-- The address comes to be usable, though all its trackers want it to be probed. -/
structure BecomesUsable (env : AcdEnv) (mode : AcdStateChangeMode) (d : AcdData K) : Prop where
  usable : Usable (d.stateChange env mode).data.state
  changed : (d.stateChange env mode).data.state ≠ d.state
  timeout : ∀ t ∈ d.trackInfos, t.timeoutMsec ≠ 0

/-- What has to hold where the branches that may lack a reason begin. -/
structure ReasonKnown (env : AcdEnv) (mode : AcdStateChangeMode) (failingSince : Option ℕ)
    (d : AcdData K) : Prop where
  tracked : mode = .postCommit ∨ mode = .timeout → d.selectTracks (some true) ≠ []
  timeout : d.HasTimeout
  probe : mode = .nacdReady → d.nacdProbe.isSome
  added : mode = .externalAdded → env.onLink
  defending : mode = .postCommit ∨ mode = .timeout → d.WantsProbing env.loopback →
    d.state = .defending → env.onLink
  failing : mode = .timeout → d.Retries env →
    d.probingTimestampMsec + waitProbingExtraTimeMsec + waitProbingExtraTime2Msec < env.nowMsec →
      ∃ since ∈ failingSince, since + waitProbingExtraTimeMsec < env.nowMsec

theorem handleStartProbing_usable (h : Usable (d.handleStartProbing env).data.state) :
    (d.handleStartProbing env).probeRequest.map Prod.snd = some .notSupported := by
  rw [handleStartProbing_state] at h
  split_ifs at h with hcreate
  · simp [handleStartProbing_request, hcreate]
  · simp [Usable] at h

section reasons

variable {failingSince : Option ℕ} (hwants : d.WantsProbing env.loopback)
  (honLink : ¬ env.onLink)

include hwants honLink

theorem changeInit_reason (husable : Usable (d.changeInit env mode).data.state)
    (hchanged : (d.changeInit env mode).data.state ≠ d.state) : False := by
  rcases changeInit_eq env mode d with heq | heq
  · exact hchanged (by rw [heq]; rfl)
  · rw [heq] at husable hchanged
    unfold handleInit at husable hchanged
    dsimp only at husable hchanged
    split_ifs at husable hchanged with hn hskip hmode
    · exact hchanged rfl
    · have hbest := hwants.timeoutMsec_ne (some false)
        fun hnil => hn (by simp [collectTracksData, hnil])
      simp [hbest, honLink] at hskip
    · simp [Usable] at husable
    · exact hchanged rfl

omit hwants in
theorem postCommitOffLink_reason (htimeout : timeoutMsec ≠ 0) (hdefending : d.state ≠ .defending)
    (husable : Usable (d.postCommitOffLink env timeoutMsec).data.state)
    (hchanged : (d.postCommitOffLink env timeoutMsec).data.state ≠ d.state) :
    (d.postCommitOffLink env timeoutMsec).probeRequest.map Prod.snd = some .notSupported := by
  unfold postCommitOffLink at husable hchanged ⊢
  rw [if_neg htimeout] at husable hchanged ⊢
  cases hstate : d.state with
  | init =>
    simp only [hstate] at husable ⊢
    exact handleStartProbing_usable husable
  | probing =>
    simp only [hstate, postCommitProbing] at husable ⊢
    split_ifs at husable ⊢
    · simp [hstate, Usable] at husable
    · simp [setProbing, hstate, Usable] at husable
    · exact handleStartProbing_usable husable
  | used | conflict | externalRemoved => simp [hstate, notReached, Usable] at husable
  | ready =>
    simp only [hstate] at hchanged
    simp [goodState, honLink] at hchanged
  | defending => exact absurd hstate hdefending

omit hwants in
theorem timeoutNoProbe_reason (hprobe : d.state = .probing → d.nacdProbe = none)
    (htimeout : (d.collectTracksData env.loopback (some true)).bestAcdTimeoutMsec ≠ 0)
    (hfailing : d.Retries env →
      d.probingTimestampMsec + waitProbingExtraTimeMsec + waitProbingExtraTime2Msec < env.nowMsec →
        ∃ since ∈ failingSince, since + waitProbingExtraTimeMsec < env.nowMsec)
    (husable : Usable (d.timeoutNoProbe env).data.state) :
    (d.timeoutNoProbe env).probeRequest.map Prod.snd = some .notSupported ∨
      ∃ since ∈ failingSince, since + waitProbingExtraTimeMsec < env.nowMsec := by
  unfold timeoutNoProbe timeoutRestart at husable ⊢
  simp only [AcdOutcome.assert_data, AcdOutcome.assert_probeRequest] at husable ⊢
  rw [if_neg htimeout, if_neg honLink] at husable ⊢
  split_ifs at husable ⊢ with hstate hlate
  · exact .inr (hfailing ⟨hstate, hprobe hstate, honLink, htimeout⟩ hlate)
  · exact .inl (handleStartProbing_usable husable)
  · exact .inl (handleStartProbing_usable husable)

end reasons

/-- No address that is to be probed is declared usable without a reason. -/
theorem stateChange_reason {failingSince : Option ℕ} (h : ReasonKnown env mode failingSince d)
    (hb : BecomesUsable env mode d) : UsableReason env mode failingSince d := by
  by_cases hloopback : env.loopback
  · exact .notSupported (.inl hloopback)
  by_cases honLink : env.onLink
  · exact .onLink honLink
  have hwants : d.WantsProbing env.loopback := ⟨hloopback, hb.timeout⟩
  obtain ⟨husable, hchanged, -⟩ := hb
  have hnotSupported (hs : (d.stateChange env mode).probeRequest.map Prod.snd =
      some .notSupported) : UsableReason env mode failingSince d := .notSupported (.inr hs)
  rcases stateChange_eq env mode d with ⟨hremoved, heq⟩ | heq
  · exact absurd (by rw [heq]; rfl) hchanged
  · rw [heq] at husable hchanged hnotSupported
    have hlink (hs : d.switchMode env mode = d.changeLink env) :
        UsableReason env mode failingSince d := by
      rw [hs] at husable hchanged hnotSupported
      unfold changeLink at husable hchanged hnotSupported
      cases hstate : d.state with
      | probing =>
        simp only [hstate] at husable hchanged hnotSupported
        split_ifs at husable hchanged hnotSupported
        · exact absurd hstate hchanged
        · exact absurd hstate hchanged
        · exact hnotSupported (handleStartProbing_usable husable)
      | init | ready | defending | used | conflict | externalRemoved =>
        simp [hstate, notReached] at hchanged
    cases mode with
    | init | initReapply => exact (changeInit_reason hwants honLink husable hchanged).elim
    | postCommit =>
      have htracked := h.tracked (.inl rfl)
      simp only [switchMode, changePostCommit] at husable hchanged hnotSupported
      split_ifs at husable hchanged hnotSupported with hremoved
      · exact absurd rfl hchanged
      · apply hnotSupported
        apply postCommitOffLink_reason honLink _ _ husable hchanged
        · exact hwants.timeoutMsec_ne _ htracked
        · exact fun hstate => honLink (h.defending (.inl rfl) hwants hstate)
    | timeout =>
      have htimeout := hwants.timeoutMsec_ne _ (h.tracked (.inr rfl))
      have hrestart (hprobe : d.state = .probing → d.nacdProbe = none)
          (hs : d.changeTimeout env = d.timeoutNoProbe env) :
          UsableReason env .timeout failingSince d := by
        simp only [switchMode, hs] at husable hnotSupported
        rcases timeoutNoProbe_reason honLink hprobe htimeout (h.failing rfl) husable with hr | hr
        · exact hnotSupported hr
        · exact .failingLong hr
      simp only [switchMode] at husable hchanged
      cases hstate : d.state with
      | init | ready | externalRemoved =>
        simp [changeTimeout, hstate, notReached] at hchanged
      | probing =>
        by_cases hprobe : d.nacdProbe.isSome
        · simp [changeTimeout, hstate, hprobe] at hchanged
        · exact hrestart (fun _ => by simpa using hprobe) (by simp [changeTimeout, hstate, hprobe])
      | used | conflict =>
        exact hrestart (by simp [hstate]) (by simp [changeTimeout, hstate])
      | defending => exact absurd (h.defending (.inr rfl) hwants hstate) honLink
    | nacdUsed => simp [switchMode, changeNacdUsed, Usable] at husable
    | nacdConflict => simp [switchMode, changeNacdConflict, Usable] at husable
    | nacdDefended => exact absurd rfl hchanged
    | nacdReady =>
      simp only [switchMode, changeNacdReady] at hchanged
      cases hstate : d.state with
      | probing =>
        obtain ⟨probe, hprobe⟩ := Option.isSome_iff_exists.mp (h.probe rfl)
        exact .probeReady rfl ⟨probe, hprobe, (h.timeout hstate probe hprobe).1⟩
      | defending => simp [hstate, announceProbe] at hchanged
      | init | used | ready | conflict | externalRemoved => simp [hstate, notReached] at hchanged
    | externalAdded => exact absurd (h.added rfl) honLink
    | externalRemoved =>
      simp only [switchMode, changeExternalRemoved] at husable hchanged
      split_ifs at husable hchanged
      · exact absurd rfl hchanged
      · simp [Usable] at husable
    | nacdDown | linkNowUp => exact hlink rfl
    | instanceReset => simp [switchMode, changeInstanceReset, Usable] at husable

end AcdData

end NetworkManager.Core
