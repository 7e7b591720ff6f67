import NetworkManager.Core.AcdDataFrame

/-!
# No state change gets stuck

An `AcdData` that is `NotStuck` will hear from a probe or a timer when its state waits for
something. Every state change keeps this, together with what the states know about the probe
(`Sound`), except where a timeout finds a conflict resolved and where an address that is defended
turns out not to be configured after a commit.
-/

namespace NetworkManager.Core

variable {K : Type*}

/-! ## The invariant -/

/-- Whatever the data waits for can still come. -/
structure AcdData.NotStuck (d : AcdData K) : Prop where
  probing : d.state = .probing → d.nacdProbe.isSome ∨ d.timeoutSource.isSome
  waiting : d.state = .used ∨ d.state = .conflict → d.timeoutSource.isSome
  defending : d.state = .defending → d.nacdProbe.isSome ∨ d.timeoutSource.isSome
  idle : d.state = .ready ∨ d.state = .init ∨ d.state = .externalRemoved →
    d.timeoutSource = none

/-- Only an address that is probed or defended has a probe, whose events fit the state. -/
structure AcdData.Sound (d : AcdData K) : Prop extends d.NotStuck where
  noProbe : d.state ≠ .probing → d.state ≠ .defending → d.nacdProbe = none
  oneSource : d.state = .defending → d.nacdProbe = none ∨ d.timeoutSource = none
  probingEvents : d.state = .probing → ∀ probe ∈ d.nacdProbe, probe.state ≠ .announcing ∧
    ∀ event ∈ probe.events, event = .ready ∨ event = .used
  defendingEvents : d.state = .defending → ∀ probe ∈ d.nacdProbe,
    NAcdEvent.used ∉ probe.events

/-- A state change that keeps the invariant and reaches no branch that is not to be reached. -/
structure AcdOutcome.Sound (o : AcdOutcome K) : Prop where
  data : o.data.Sound
  ok : o.ok

/-- One that also leaves the state in which no address is after a commit. -/
structure AcdOutcome.Settled (onLink : Bool) (o : AcdOutcome K) : Prop extends o.Sound where
  not_init : o.data.state ≠ .init
  defending : o.data.state = .defending → onLink

theorem AcdOutcome.Settled.assert {onLink cond : Bool} {o : AcdOutcome K} (h : o.Settled onLink)
    (hcond : cond) : (o.assert cond).Settled onLink :=
  ⟨⟨h.data, by simp [hcond, h.ok]⟩, h.not_init, h.defending⟩

namespace AcdData

variable {env : AcdEnv} {mode : AcdStateChangeMode} {d : AcdData K} {state : NML3AcdAddrState}
  {timeoutMsec : ℕ}

/-! ## The parts of a state change -/

theorem sound_of_idle (hstate : d.state = .ready ∨ d.state = .init ∨ d.state = .externalRemoved)
    (hprobe : d.nacdProbe = none) (htimer : d.timeoutSource = none) : d.Sound where
  probing h := by simp [h] at hstate
  waiting h := by rcases h with h | h <;> simp [h] at hstate
  defending h := by simp [h] at hstate
  idle _ := htimer
  noProbe _ _ := hprobe
  oneSource _ := .inl hprobe
  probingEvents _ probe hmem := by simp [hprobe] at hmem
  defendingEvents _ probe hmem := by simp [hprobe] at hmem

theorem sound_of_timer (hstate : d.state = .probing ∨ d.state = .used ∨ d.state = .conflict ∨
    d.state = .defending) (hprobe : d.nacdProbe = none) (htimer : d.timeoutSource.isSome) :
    d.Sound where
  probing _ := .inr htimer
  waiting _ := htimer
  defending _ := .inr htimer
  idle h := by rcases h with h | h | h <;> simp [h] at hstate
  noProbe _ _ := hprobe
  oneSource _ := .inl hprobe
  probingEvents _ probe hmem := by simp [hprobe] at hmem
  defendingEvents _ probe hmem := by simp [hprobe] at hmem

theorem sound_of_new (timeoutMsec : ℕ) (hstate : d.state = .probing ∨ d.state = .defending)
    (hprobe : d.nacdProbe = some (nAcdProbeNew timeoutMsec))
    (htimer : d.state = .defending → d.timeoutSource = none) : d.Sound where
  probing _ := .inl (by simp [hprobe])
  waiting h := by rcases h with h | h <;> simp [h] at hstate
  defending _ := .inl (by simp [hprobe])
  idle h := by rcases h with h | h | h <;> simp [h] at hstate
  noProbe h₁ h₂ := by simp [h₁, h₂] at hstate
  oneSource h := .inr (htimer h)
  probingEvents _ probe hmem := by
    obtain rfl : nAcdProbeNew timeoutMsec = probe := by simpa [hprobe] using hmem
    simp [nAcdProbeNew]
  defendingEvents _ probe hmem := by
    obtain rfl : nAcdProbeNew timeoutMsec = probe := by simpa [hprobe] using hmem
    simp [nAcdProbeNew]

theorem timeoutSchedule_sound (timeoutMsec : ℕ) (hstate : d.state = .probing ∨ d.state = .used ∨
    d.state = .conflict ∨ d.state = .defending) (hprobe : d.nacdProbe = none) :
    (d.timeoutSchedule timeoutMsec).Sound where
  data := sound_of_timer hstate hprobe rfl
  ok := by rcases hstate with h | h | h | h <;> simp [timeoutSchedule, AcdOutcome.assert, done, h]

theorem Sound.announceProbe (hd : d.Sound) (hstate : d.state = .defending)
    (hprobe : d.nacdProbe.isSome) : d.announceProbe.Sound := by
  obtain ⟨probe, hsome⟩ := Option.isSome_iff_exists.mp hprobe
  have htimer : d.timeoutSource = none := (hd.oneSource hstate).resolve_left (by simp [hsome])
  have hevents := hd.defendingEvents hstate probe hsome
  have hstate' : d.announceProbe.state = .defending := hstate
  exact {
    probing := by simp [hstate']
    waiting := by simp [hstate']
    defending := fun _ => .inl (by simp [AcdData.announceProbe, hsome])
    idle := by simp [hstate']
    noProbe := fun _ h => absurd hstate' h
    oneSource := fun _ => .inr htimer
    probingEvents := by simp [hstate']
    defendingEvents := by simpa [AcdData.announceProbe, hsome, NAcdProbe.announce] using fun _ => hevents }

theorem announce_sound (hstate : d.state = .defending)
    (h : d.nacdProbe = none ∨ d.Sound) : (d.announce env).Sound := by
  unfold announce
  cases hprobe : d.nacdProbe with
  | none =>
    dsimp only
    split_ifs with htimer hcreate
    · exact ⟨sound_of_timer (by simp [hstate]) hprobe htimer, rfl⟩
    · exact ⟨sound_of_new 0 (.inr hstate) rfl fun _ => by simpa using htimer, rfl⟩
    · exact timeoutSchedule_sound _ (by simp [hstate]) hprobe
  | some probe =>
    have hsound : d.Sound := h.resolve_left (by simp [hprobe])
    dsimp only
    split_ifs with hactive
    · exact ⟨hsound, rfl⟩
    · exact ⟨hsound.announceProbe hstate (by simp [hprobe]), rfl⟩

/-! ## The shared tails -/

/-- The data as `handle_start_defending` may find it. -/
structure StartsDefending (onLink : Bool) (d : AcdData K) : Prop where
  probe : d.nacdProbe = none ∨ d.state = .defending ∧ d.Sound ∧ onLink
  timer : d.state = .ready → d.timeoutSource = none

theorem handleStartDefending_settled (h : d.StartsDefending env.onLink) :
    (d.handleStartDefending env).Settled env.onLink := by
  unfold handleStartDefending
  split_ifs with honLink
  · have hstate : ∀ d' : AcdData K, (d'.updateDefendType).state = d'.state := by
      intro d'
      unfold updateDefendType
      split_ifs <;> rfl
    have hsound : ((d.stateSet .defending).updateDefendType.announce env).Sound := by
      apply announce_sound
      · rw [hstate, stateSet_state]
      · unfold updateDefendType
        split_ifs with hdesired
        · exact .inl rfl
        · rcases h.probe with hprobe | ⟨hdef, hd, -⟩
          · exact .inl (by simpa using hprobe)
          · exact .inr (by simpa [stateSet, hdef] using hd)
    exact ⟨hsound, by rw [announce_state, hstate, stateSet_state]; simp, fun _ => honLink⟩
  · have hprobe : d.nacdProbe = none := h.probe.resolve_right (by simp [honLink])
    have htimer : (d.stateSet .ready).timeoutSource = none := by
      rw [stateSet_timeoutSource]
      split_ifs with hready
      · exact h.timer hready
      · rfl
    refine ⟨⟨sound_of_idle (by simp) (by simpa using hprobe) htimer, rfl⟩, ?_, ?_⟩
    · simp
    · simp

theorem Sound.congr {d' : AcdData K} (hd : d.Sound) (hstate : d'.state = d.state)
    (hprobe : d'.nacdProbe = d.nacdProbe) (htimer : d'.timeoutSource = d.timeoutSource) :
    d'.Sound where
  probing := by simpa only [hstate, hprobe, htimer] using hd.probing
  waiting := by simpa only [hstate, htimer] using hd.waiting
  defending := by simpa only [hstate, hprobe, htimer] using hd.defending
  idle := by simpa only [hstate, htimer] using hd.idle
  noProbe := by simpa only [hstate, hprobe] using hd.noProbe
  oneSource := by simpa only [hstate, hprobe, htimer] using hd.oneSource
  probingEvents := by simpa only [hstate, hprobe] using hd.probingEvents
  defendingEvents := by simpa only [hstate, hprobe] using hd.defendingEvents

theorem Sound.startsDefending {onLink : Bool} (hd : d.Sound) (hprobing : d.state ≠ .probing)
    (hlink : d.state = .defending → d.nacdProbe.isSome → onLink) : d.StartsDefending onLink where
  probe := by
    by_cases hdef : d.state = .defending
    · cases hprobe : d.nacdProbe with
      | none => exact .inl rfl
      | some probe => exact .inr ⟨hdef, hd, hlink hdef (by simp [hprobe])⟩
    · exact .inl (hd.noProbe hprobing hdef)
  timer hready := hd.idle (.inl hready)

theorem handleProbingDone_settled (hconflict : d.state = .conflict → d.Sound)
    (hprobing : d.state = .probing → mode ≠ .nacdReady ∨ d.nacdProbe = none)
    (h : d.state ≠ .probing → d.state ≠ .conflict → d.StartsDefending env.onLink) :
    (d.handleProbingDone env mode).Settled env.onLink := by
  unfold handleProbingDone
  cases hstate : d.state with
  | conflict =>
    exact ⟨⟨hconflict hstate, rfl⟩, by simp [hstate], by simp [hstate]⟩
  | probing =>
    apply handleStartDefending_settled
    split_ifs with hmode
    · exact ⟨.inl rfl, by simp [hstate]⟩
    · have hprobe := (hprobing hstate).resolve_left hmode
      exact ⟨.inl hprobe, by simp [hstate]⟩
  | init | used | ready | defending | externalRemoved =>
    exact handleStartDefending_settled (h (by simp [hstate]) (by simp [hstate]))

theorem startProbe_settled (hready : d.state ≠ .ready) :
    (d.startProbe env).Settled env.onLink := by
  unfold startProbe
  cases env.createProbe with
  | notSupported =>
    exact handleStartDefending_settled ⟨.inl rfl, fun h => absurd h hready⟩
  | failed =>
    have hsound (timeoutMsec : ℕ) :=
      timeoutSchedule_sound timeoutMsec (d := d.freeProbe.stateSet .probing) (by simp)
        (by simp)
    refine ⟨⟨(hsound _).data, ?_⟩, ?_, ?_⟩
    · simp [timeoutScheduleProbingRestart, (hsound _).ok]
    · simp [timeoutScheduleProbingRestart, timeoutSchedule]
    · simp [timeoutScheduleProbingRestart, timeoutSchedule]
  | created =>
    have hsound := sound_of_new d.probingTimeoutMsec (d := AcdData.stateSet .probing
      { d with nacdProbe := some (nAcdProbeNew d.probingTimeoutMsec) })
      (by simp) (by simp) (by simp)
    exact ⟨⟨hsound, rfl⟩, by simp, by simp⟩

theorem handleStartProbing_settled (hstate : d.state = .init ∨ d.state = .probing ∨
    d.state = .used ∨ d.state = .conflict) : (d.handleStartProbing env).Settled env.onLink := by
  have h : (d.startProbe env).Settled env.onLink :=
    startProbe_settled (by rcases hstate with h | h | h | h <;> simp [h])
  refine ⟨⟨h.data, ?_⟩, h.not_init, h.defending⟩
  have hok := h.ok
  rcases hstate with h | h | h | h <;> simp [handleStartProbing, h, hok]

/-! ## The modes -/

theorem handleInit_sound (hd : d.Sound) : (d.handleInit env mode).Sound := by
  unfold handleInit
  dsimp only
  split_ifs with hn hskip hmode
  · exact ⟨hd, rfl⟩
  · refine ⟨sound_of_idle (by simp) (by simp [setDesired]) ?_, rfl⟩
    simp only [done_data, stateSet_timeoutSource]
    split_ifs with hready
    · exact hd.idle (.inl hready)
    · rfl
  · refine ⟨sound_of_idle (by simp) (by simp) ?_, rfl⟩
    simp only [done_data, stateSet_timeoutSource]
    split_ifs with hinit
    · exact hd.idle (.inr (.inl hinit))
    · rfl
  · exact ⟨hd, rfl⟩

theorem changeInit_sound (hd : d.Sound) : (d.changeInit env mode).Sound := by
  rcases changeInit_eq env mode d with h | h
  · rw [h]
    exact ⟨hd, rfl⟩
  · rw [h]
    exact handleInit_sound hd

theorem collectTracksData_n_pos {dirtySelector : Option Bool} {loopback : Bool}
    (h : d.selectTracks dirtySelector ≠ []) : (d.collectTracksData loopback dirtySelector).n > 0 :=
  List.length_pos_iff.mpr h

theorem postCommitProbing_settled (hd : d.Sound) (hstate : d.state = .probing) :
    (d.postCommitProbing env timeoutMsec).Settled env.onLink := by
  unfold postCommitProbing
  split_ifs with hexpiry hprobe
  · exact ⟨⟨hd, rfl⟩, by simp [hstate], by simp [hstate]⟩
  · have hprobe' : d.nacdProbe = none := by simpa using hprobe
    have hsound := timeoutSchedule_sound 0 (d := d.setProbing env timeoutMsec) (.inl hstate) hprobe'
    exact ⟨hsound, by simp [timeoutSchedule, setProbing, hstate],
      by simp [timeoutSchedule, setProbing, hstate]⟩
  · exact handleStartProbing_settled (.inr (.inl hstate))

theorem Sound.handleProbingDone_settled (hd : d.Sound) (hmode : mode ≠ .nacdReady)
    (hlink : d.state = .defending → d.nacdProbe.isSome → env.onLink) :
    (d.handleProbingDone env mode).Settled env.onLink :=
  AcdData.handleProbingDone_settled (fun _ => hd) (fun _ => .inl hmode)
    fun hprobing _ => hd.startsDefending hprobing hlink

theorem postCommitOffLink_settled (hd : d.Sound) (hremoved : d.state ≠ .externalRemoved)
    (hlink : d.state = .defending → d.nacdProbe = none) :
    (d.postCommitOffLink env timeoutMsec).Settled env.onLink := by
  have hprobe : d.state = .defending → d.nacdProbe.isSome → env.onLink := by
    intro hstate hsome
    simp [hlink hstate] at hsome
  unfold postCommitOffLink
  split_ifs with htimeout
  · exact hd.handleProbingDone_settled (by simp) hprobe
  · cases hstate : d.state with
    | init =>
      have hnone := hd.noProbe (by simp [hstate]) (by simp [hstate])
      have h : ((d.setProbing env timeoutMsec).handleStartProbing env).Settled env.onLink :=
        handleStartProbing_settled (.inl hstate)
      exact h.assert (by simp [hnone])
    | probing => exact postCommitProbing_settled hd hstate
    | used | conflict => exact ⟨⟨hd, rfl⟩, by simp [hstate], by simp [hstate]⟩
    | ready | defending =>
      exact handleStartDefending_settled (hd.startsDefending (by simp [hstate]) hprobe)
    | externalRemoved => exact absurd hstate hremoved

variable (env) in
theorem changePostCommit_settled (hd : d.Sound) (htracks : d.selectTracks (some true) ≠ [])
    (hlink : d.state = .defending → d.nacdProbe.isSome → env.onLink) :
    (d.changePostCommit env).Settled env.onLink := by
  unfold changePostCommit
  dsimp only
  split_ifs with honLink hremoved
  · exact Sound.handleProbingDone_settled (hd.congr rfl rfl rfl) (by simp) hlink
  · exact ⟨⟨hd.congr rfl rfl rfl, rfl⟩, by simp [hremoved], by simp [hremoved]⟩
  · have hnone : d.state = .defending → d.nacdProbe = none := by
      intro hstate
      have hsome := hlink hstate
      simpa [honLink] using hsome
    apply AcdOutcome.Settled.assert
    · exact postCommitOffLink_settled (hd.congr rfl rfl rfl) hremoved hnone
    · exact decide_eq_true (collectTracksData_n_pos htracks)

/-- The timeout may go, since the address was not in conflict or is probed again. -/
def Restarts (env : AcdEnv) (d : AcdData K) : Prop :=
  d.state = .conflict →
    ¬ env.onLink ∧ (d.collectTracksData env.loopback (some true)).bestAcdTimeoutMsec ≠ 0

section

variable (hstate : d.state = .probing ∨ d.state = .used ∨ d.state = .conflict)
  (hprobe : d.nacdProbe = none)

include hstate hprobe

theorem timeoutRestart_settled (hrestarts : d.state = .conflict → ¬ env.onLink ∧ timeoutMsec ≠ 0) :
    (d.timeoutRestart env timeoutMsec).Settled env.onLink := by
  have hready : d.state ≠ .ready := by rcases hstate with h | h | h <;> simp [h]
  have hstart : d.StartsDefending env.onLink := ⟨.inl hprobe, fun h => absurd h hready⟩
  have hdone (hconflict : d.state ≠ .conflict) :
      (d.handleProbingDone env .timeout).Settled env.onLink :=
    handleProbingDone_settled (fun h => absurd h hconflict) (fun _ => .inl (by simp))
      fun _ _ => hstart
  unfold timeoutRestart
  split_ifs with htimeout honLink hprobing hlate
  · exact hdone fun h => (hrestarts h).2 htimeout
  · exact hdone fun h => (hrestarts h).1 honLink
  · exact handleStartDefending_settled hstart
  · exact handleStartProbing_settled (.inr (.inl hprobing))
  · exact handleStartProbing_settled (.inr hstate)

theorem timeoutNoProbe_settled (htracks : d.selectTracks (some true) ≠ [])
    (hrestarts : d.Restarts env) : (d.timeoutNoProbe env).Settled env.onLink := by
  apply AcdOutcome.Settled.assert
  · exact timeoutRestart_settled hstate hprobe hrestarts
  · have hn : 0 < (d.collectTracksData env.loopback (some true)).n :=
      collectTracksData_n_pos htracks
    simpa [hprobe] using hn

end

variable (env) in
theorem changeTimeout_settled (hd : d.Sound) (htimer : d.timeoutSource.isSome)
    (htracks : d.selectTracks (some true) ≠ []) (hrestarts : d.Restarts env) :
    (d.clearTimeout.changeTimeout env).Settled env.onLink := by
  have hbusy : d.state ≠ .ready ∧ d.state ≠ .init ∧ d.state ≠ .externalRemoved := by
    refine ⟨fun h => ?_, fun h => ?_, fun h => ?_⟩ <;> simp [hd.idle, h] at htimer
  unfold changeTimeout
  simp only [clearTimeout_state]
  cases hstate : d.state with
  | init => exact absurd hstate hbusy.2.1
  | ready => exact absurd hstate hbusy.1
  | externalRemoved => exact absurd hstate hbusy.2.2
  | probing =>
    dsimp only
    split_ifs with hprobe
    · refine ⟨⟨?_, rfl⟩, by simp [hstate], by simp [hstate]⟩
      exact {
        probing := fun _ => .inl hprobe
        waiting := by simp [hstate]
        defending := by simp [hstate]
        idle := by simp [hstate]
        noProbe := by simp [hstate]
        oneSource := by simp [hstate]
        probingEvents := hd.probingEvents
        defendingEvents := by simp [hstate] }
    · exact timeoutNoProbe_settled (.inl hstate) (by simpa using hprobe) htracks hrestarts
  | used =>
    have hprobe : d.nacdProbe = none := hd.noProbe (by simp [hstate]) (by simp [hstate])
    exact timeoutNoProbe_settled (.inr (.inl hstate)) hprobe htracks hrestarts
  | conflict =>
    have hprobe : d.nacdProbe = none := hd.noProbe (by simp [hstate]) (by simp [hstate])
    exact timeoutNoProbe_settled (.inr (.inr hstate)) hprobe htracks hrestarts
  | defending =>
    have hprobe : d.nacdProbe = none := by
      have hone := hd.oneSource hstate
      cases htime : d.timeoutSource with
      | none => simp [htime] at htimer
      | some _ => simpa [htime] using hone
    have hstart : d.clearTimeout.StartsDefending env.onLink := ⟨.inl hprobe, fun _ => rfl⟩
    exact (handleStartDefending_settled hstart).assert (by simpa using hprobe)

theorem ensureTimeout_settled {onLink : Bool} (hne : d.state ≠ state)
    (hstate : state = .used ∨ state = .conflict) :
    ((d.freeProbe.stateSet state).ensureTimeout timeoutMsec).Settled onLink := by
  have hnone : (d.freeProbe.stateSet state).timeoutSource = none := by
    rw [stateSet_timeoutSource]
    exact if_neg hne
  have hsound := timeoutSchedule_sound timeoutMsec (d := d.freeProbe.stateSet state)
    (by rcases hstate with h | h <;> simp [h]) (by simp)
  have heq : ((d.freeProbe.stateSet state).timeoutSchedule timeoutMsec).data.state = state :=
    stateSet_state
  simp only [ensureTimeout, hnone, Option.isSome_none, Bool.false_eq_true, if_false]
  refine ⟨hsound, ?_, ?_⟩
  · rw [heq]
    rcases hstate with h | h <;> simp [h]
  · rw [heq]
    rcases hstate with h | h <;> simp [h]

section nacdEvents

variable {probe : NAcdProbe} {onLink : Bool} (hprobe : d.nacdProbe = some probe)

include hprobe

section

variable (hd : d.Sound)

include hd

theorem Sound.state_of_probe : d.state = .probing ∨ d.state = .defending := by
  by_contra h
  have hnone := hd.noProbe (fun hp => h (.inl hp)) (fun hd => h (.inr hd))
  simp [hnone] at hprobe

theorem Sound.defending_of_event {event : NAcdEvent} (hevent : event ∈ probe.events)
    (hne : event = .defended ∨ event = .conflict) : d.state = .defending := by
  refine (hd.state_of_probe hprobe).resolve_left fun hprobing => ?_
  have h := (hd.probingEvents hprobing probe hprobe).2 event hevent
  rcases hne with rfl | rfl <;> simp at h

theorem Sound.popEvent : (d.popEvent probe).Sound where
  probing _ := .inl rfl
  waiting := hd.waiting
  defending _ := .inl rfl
  idle := hd.idle
  noProbe h₁ h₂ := by simp [hd.noProbe h₁ h₂] at hprobe
  oneSource h := .inr ((hd.oneSource h).resolve_left (by simp [hprobe]))
  probingEvents h := by
    obtain ⟨hstate, hevents⟩ := hd.probingEvents h probe hprobe
    simp only [AcdData.popEvent, Option.mem_def, Option.some.injEq, forall_eq']
    exact ⟨hstate, fun event hevent => hevents event (List.mem_of_mem_tail hevent)⟩
  defendingEvents h := by
    have hevents := hd.defendingEvents h probe hprobe
    simp only [AcdData.popEvent, Option.mem_def, Option.some.injEq, forall_eq']
    exact fun hevent => hevents (List.mem_of_mem_tail hevent)

variable (onLink) in
theorem changeNacdUsed_settled (hevent : .used ∈ probe.events) :
    (d.popEvent probe).changeNacdUsed.Settled onLink := by
  have hstate : d.state = .probing :=
    (hd.state_of_probe hprobe).resolve_right fun hdef =>
      hd.defendingEvents hdef probe hprobe hevent
  have h : (((d.popEvent probe).freeProbe.stateSet .used).ensureTimeout
      waitTimeProbingFullRestartMsec).Settled onLink :=
    ensureTimeout_settled (by simp [hstate]) (.inl rfl)
  exact h.assert (by simp [hstate, AcdData.popEvent])

theorem changeNacdConflict_settled (hevent : .conflict ∈ probe.events) :
    (d.popEvent probe).changeNacdConflict.Settled onLink := by
  have hstate := hd.defending_of_event hprobe hevent (.inr rfl)
  have h : (((d.popEvent probe).freeProbe.stateSet .conflict).ensureTimeout
      waitTimeConflictRestartMsec).Settled onLink :=
    ensureTimeout_settled (by simp [hstate]) (.inr rfl)
  exact h.assert (by simp [hstate])

theorem changeNacdDefended_settled (hevent : .defended ∈ probe.events)
    (hlink : d.state = .defending → onLink) :
    (d.popEvent probe).changeNacdDefended.Settled onLink := by
  have hstate := hd.defending_of_event hprobe hevent (.inl rfl)
  refine AcdOutcome.Settled.assert ⟨⟨hd.popEvent hprobe, rfl⟩, ?_, hlink⟩ ?_
  · simp [hstate]
  · simp [hstate]

variable (env) in
theorem changeNacdReady_settled (hlink : d.state = .defending → env.onLink) :
    ((d.popEvent probe).changeNacdReady env).Settled env.onLink := by
  unfold changeNacdReady
  simp only [popEvent_state]
  rcases hd.state_of_probe hprobe with hstate | hstate
  · rw [hstate]
    have h : ((d.popEvent probe).freeProbe.handleProbingDone env .nacdReady).Settled env.onLink :=
      handleProbingDone_settled (by simp [hstate]) (fun _ => .inr rfl) (by simp [hstate])
    exact h.assert rfl
  · rw [hstate]
    exact ⟨⟨(hd.popEvent hprobe).announceProbe hstate rfl, rfl⟩,
      by simp [hstate, AcdData.announceProbe], fun _ => hlink hstate⟩

end

end nacdEvents

section

variable (hd : d.Sound) (hinit : d.state ≠ .init)

include hd hinit

theorem Sound.settled {onLink : Bool} (hlink : d.state = .defending → onLink)
    : d.done.Settled onLink :=
  ⟨⟨hd, rfl⟩, hinit, hlink⟩

variable (env) in
theorem changeExternalAdded_settled (hreentrant : ¬ env.commitReentrant) (honLink : env.onLink) :
    (d.changeExternalAdded env).Settled env.onLink := by
  unfold changeExternalAdded
  rw [if_neg hreentrant]
  have hdone : (d.handleProbingDone env .externalAdded).Settled env.onLink :=
    hd.handleProbingDone_settled (by simp) fun _ _ => honLink
  cases hstate : d.state with
  | init => exact absurd hstate hinit
  | ready | defending =>
    exact handleStartDefending_settled (hd.startsDefending (by simp [hstate]) fun _ _ => honLink)
  | probing | used | conflict | externalRemoved => exact hdone

variable (env) in
theorem changeExternalRemoved_settled (hreentrant : ¬ env.commitReentrant)
    : (d.changeExternalRemoved env).Settled env.onLink := by
  unfold changeExternalRemoved
  rw [if_neg hreentrant]
  split_ifs with honLink
  · exact hd.settled hinit fun _ => honLink
  · refine ⟨⟨sound_of_idle (by simp) (by simp) ?_, rfl⟩, by simp, by simp⟩
    simp only [done_data, stateSet_timeoutSource]
    split_ifs with hstate
    · exact hd.idle (.inr (.inr hstate))
    · rfl

variable (env) in
theorem changeLink_settled (hlink : d.state = .defending → env.onLink)
    : (d.changeLink env).Settled env.onLink := by
  unfold changeLink
  cases hstate : d.state with
  | init => exact absurd hstate hinit
  | probing =>
    dsimp only
    split_ifs
    · exact hd.settled hinit hlink
    · exact hd.settled hinit hlink
    · exact handleStartProbing_settled (.inr (.inl hstate))
  | ready | defending | used | conflict | externalRemoved => exact hd.settled hinit hlink

end

variable (env) in
theorem changeInstanceReset_settled (hinit : d.state ≠ .init) :
    (d.changeInstanceReset env).Settled env.onLink := by
  have hsound := timeoutSchedule_sound 0
    (d := AcdData.stateSet .probing { d.freeProbe with probingTimestampMsec := env.nowMsec })
    (by simp) (by simp)
  have hsettled : AcdOutcome.Settled env.onLink (AcdData.timeoutSchedule 0
      (AcdData.stateSet .probing { d.freeProbe with probingTimestampMsec := env.nowMsec })) :=
    ⟨hsound, by simp [timeoutSchedule], by simp [timeoutSchedule]⟩
  refine hsettled.assert ?_
  cases hstate : d.state <;> simp [hstate] at hinit ⊢

/-! ## All state changes -/

theorem stateChange_settled {onLink : Bool} (hd : d.state = .externalRemoved → d.Sound)
    (h : (d.switchMode env mode).Settled onLink) : (d.stateChange env mode).Settled onLink := by
  rcases stateChange_eq env mode d with ⟨hremoved, heq⟩ | heq
  · rw [heq]
    exact (hd hremoved).settled (by simp [hremoved]) (by simp [hremoved])
  · rw [heq]
    exact h

theorem stateChange_init_sound (hd : d.Sound) (hmode : mode = .init ∨ mode = .initReapply) :
    (d.stateChange env mode).Sound := by
  rcases stateChange_eq env mode d with ⟨-, heq⟩ | heq
  · rw [heq]
    exact ⟨hd, rfl⟩
  · rw [heq]
    rcases hmode with rfl | rfl
    · exact changeInit_sound hd
    · exact changeInit_sound hd

end AcdData

end NetworkManager.Core
