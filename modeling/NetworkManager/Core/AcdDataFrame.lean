import NetworkManager.Core.AcdData

/-!
# What state changes leave alone

No state change touches the trackers, and the tails that state changes share end in a state that
depends on little. An address that is not on the link is never left in the state in which it is
defended, unless it was in it before.
-/

namespace NetworkManager.Core.AcdData

variable {K : Type*} {env : AcdEnv} {mode : AcdStateChangeMode} {d : AcdData K}
  {state : NML3AcdAddrState} {timeoutMsec : ℕ}

/-! ## The state -/

@[simp] theorem stateSet_state : (d.stateSet state).state = state := by
  unfold stateSet
  split_ifs with h
  · exact h
  · rfl

@[simp] theorem stateSet_nacdProbe : (d.stateSet state).nacdProbe = d.nacdProbe := by
  unfold stateSet
  split_ifs <;> rfl

theorem stateSet_timeoutSource :
    (d.stateSet state).timeoutSource = if d.state = state then d.timeoutSource else none := by
  unfold stateSet
  split_ifs <;> rfl

@[simp] theorem announce_state : (d.announce env).data.state = d.state := by
  unfold announce
  split
  · split_ifs <;> rfl
  · split_ifs <;> rfl

@[simp] theorem updateDefendType_state : d.updateDefendType.state = d.state := by
  unfold updateDefendType
  split_ifs <;> rfl

@[simp] theorem timeoutSchedule_state :
    (d.timeoutSchedule timeoutMsec).data.state = d.state := rfl

@[simp] theorem ensureTimeout_state : (d.ensureTimeout timeoutMsec).data.state = d.state := by
  unfold ensureTimeout
  split_ifs <;> rfl

/-- The state in which `handle_start_defending` ends. -/
def goodState (onLink : Bool) : NML3AcdAddrState := if onLink then .defending else .ready

@[simp] theorem handleStartDefending_state :
    (d.handleStartDefending env).data.state = goodState env.onLink := by
  unfold handleStartDefending goodState
  split_ifs <;> simp

@[simp] theorem handleProbingDone_state : (d.handleProbingDone env mode).data.state =
    if d.state = .conflict then .conflict else goodState env.onLink := by
  unfold handleProbingDone
  cases hstate : d.state <;> simp [hstate]

@[simp] theorem handleStartProbing_state : (d.handleStartProbing env).data.state =
    if env.createProbe = .notSupported then goodState env.onLink else .probing := by
  unfold handleStartProbing startProbe
  cases env.createProbe <;> simp [timeoutScheduleProbingRestart, timeoutSchedule]

theorem goodState_defending {onLink : Bool} (h : goodState onLink = .defending) : onLink := by
  unfold goodState at h
  split_ifs at h with honLink
  exact honLink

/-! ## The trackers are not touched -/

@[simp] theorem stateSet_trackInfos {state : NML3AcdAddrState} :
    (d.stateSet state).trackInfos = d.trackInfos := by
  unfold stateSet
  split_ifs <;> rfl

@[simp] theorem freeProbe_trackInfos : d.freeProbe.trackInfos = d.trackInfos := rfl

@[simp] theorem timeoutSchedule_trackInfos :
    (d.timeoutSchedule timeoutMsec).data.trackInfos = d.trackInfos := rfl

@[simp] theorem updateDefendType_trackInfos : d.updateDefendType.trackInfos = d.trackInfos := by
  unfold updateDefendType
  split_ifs <;> rfl

@[simp] theorem announce_trackInfos : (d.announce env).data.trackInfos = d.trackInfos := by
  unfold announce
  split
  · split_ifs <;> rfl
  · split_ifs <;> rfl

@[simp] theorem handleStartDefending_trackInfos :
    (d.handleStartDefending env).data.trackInfos = d.trackInfos := by
  unfold handleStartDefending
  split_ifs <;> simp

@[simp] theorem handleProbingDone_trackInfos :
    (d.handleProbingDone env mode).data.trackInfos = d.trackInfos := by
  unfold handleProbingDone
  cases d.state with
  | probing =>
    dsimp only
    rw [handleStartDefending_trackInfos]
    split_ifs <;> rfl
  | _ => simp

@[simp] theorem handleStartProbing_trackInfos :
    (d.handleStartProbing env).data.trackInfos = d.trackInfos := by
  unfold handleStartProbing startProbe
  cases env.createProbe <;> simp [timeoutScheduleProbingRestart]

@[simp] theorem setProbing_trackInfos :
    (d.setProbing env timeoutMsec).trackInfos = d.trackInfos := rfl

@[simp] theorem setDesired_trackInfos {tracks : TracksData} :
    (d.setDesired tracks).trackInfos = d.trackInfos := rfl

@[simp] theorem handleInit_trackInfos :
    (d.handleInit env mode).data.trackInfos = d.trackInfos := by
  unfold handleInit
  dsimp only
  split_ifs <;> simp

@[simp] theorem postCommitOffLink_trackInfos :
    (d.postCommitOffLink env timeoutMsec).data.trackInfos = d.trackInfos := by
  unfold postCommitOffLink
  split_ifs
  · simp
  · cases d.state with
    | probing =>
      dsimp only [postCommitProbing]
      split_ifs <;> simp
    | _ => simp [notReached]

@[simp] theorem timeoutNoProbe_trackInfos :
    (d.timeoutNoProbe env).data.trackInfos = d.trackInfos := by
  unfold timeoutNoProbe timeoutRestart
  dsimp only [AcdOutcome.assert_data]
  split_ifs <;> simp

variable (env mode d) in
theorem changeInit_eq :
    d.changeInit env mode = d.done ∨ d.changeInit env mode = d.handleInit env mode := by
  by_cases hmode : mode = .initReapply
  · exact .inr (by unfold changeInit; cases d.state <;> simp [hmode])
  · unfold changeInit
    cases d.state <;> simp [hmode]

@[simp] theorem changeInit_trackInfos :
    (d.changeInit env mode).data.trackInfos = d.trackInfos := by
  rcases changeInit_eq env mode d with h | h
  · simp [h]
  · simp [h]

@[simp] theorem changePostCommit_trackInfos :
    (d.changePostCommit env).data.trackInfos = d.trackInfos := by
  unfold changePostCommit
  dsimp only
  split_ifs <;> simp [clearTrackInfosChanged]

@[simp] theorem changeTimeout_trackInfos :
    (d.changeTimeout env).data.trackInfos = d.trackInfos := by
  unfold changeTimeout
  cases d.state with
  | probing =>
    dsimp only
    split_ifs <;> simp
  | _ => simp [notReached]

@[simp] theorem ensureTimeout_trackInfos :
    (d.ensureTimeout timeoutMsec).data.trackInfos = d.trackInfos := by
  unfold ensureTimeout
  split_ifs <;> simp

@[simp] theorem changeNacdReady_trackInfos :
    (d.changeNacdReady env).data.trackInfos = d.trackInfos := by
  unfold changeNacdReady
  cases d.state <;> simp [notReached, announceProbe]

@[simp] theorem changeExternalAdded_trackInfos :
    (d.changeExternalAdded env).data.trackInfos = d.trackInfos := by
  unfold changeExternalAdded
  split_ifs
  · simp
  · cases d.state <;> simp [notReached]

@[simp] theorem changeExternalRemoved_trackInfos :
    (d.changeExternalRemoved env).data.trackInfos = d.trackInfos := by
  unfold changeExternalRemoved
  split_ifs <;> simp

@[simp] theorem changeLink_trackInfos : (d.changeLink env).data.trackInfos = d.trackInfos := by
  unfold changeLink
  cases d.state with
  | probing =>
    dsimp only
    split_ifs <;> simp
  | _ => simp [notReached]

variable (env mode d) in
theorem stateChange_eq :
    (d.state = .externalRemoved ∧ d.stateChange env mode = d.done) ∨
      d.stateChange env mode = d.switchMode env mode := by
  unfold stateChange
  split_ifs with hremoved
  · simp only [Bool.and_eq_true, decide_eq_true_eq] at hremoved
    exact .inl ⟨hremoved.1, rfl⟩
  · exact .inr rfl

@[simp] theorem stateChange_trackInfos :
    (d.stateChange env mode).data.trackInfos = d.trackInfos := by
  unfold stateChange switchMode
  split_ifs
  · simp
  · cases mode <;>
      simp [changeNacdUsed, changeNacdConflict, changeNacdDefended, changeInstanceReset]

/-! ## Defended addresses are on the link -/

theorem changeInit_ne (hstate : d.state ≠ .defending) :
    (d.changeInit env mode).data.state ≠ .defending := by
  rcases changeInit_eq env mode d with heq | heq
  · rw [heq]
    exact hstate
  · rw [heq]
    unfold handleInit
    dsimp only
    split_ifs <;> simp [hstate]

section offLink

variable (honLink : ¬ env.onLink)

include honLink

theorem goodState_ne : goodState env.onLink ≠ .defending := fun h => honLink (goodState_defending h)

theorem handleProbingDone_ne : (d.handleProbingDone env mode).data.state ≠ .defending := by
  rw [handleProbingDone_state]
  split_ifs
  · simp
  · exact goodState_ne honLink

theorem handleStartProbing_ne : (d.handleStartProbing env).data.state ≠ .defending := by
  rw [handleStartProbing_state]
  split_ifs
  · exact goodState_ne honLink
  · simp

theorem postCommitOffLink_ne : (d.postCommitOffLink env timeoutMsec).data.state ≠ .defending := by
  have hdone (d' : AcdData K) : (d'.handleProbingDone env .postCommit).data.state ≠ .defending :=
    handleProbingDone_ne honLink
  have hprobing (d' : AcdData K) : (d'.handleStartProbing env).data.state ≠ .defending :=
    handleStartProbing_ne honLink
  have hgood := goodState_ne honLink
  unfold postCommitOffLink
  split_ifs
  · exact hdone d
  · cases hstate : d.state with
    | init => exact hprobing _
    | probing =>
      dsimp only [postCommitProbing]
      split_ifs
      · simp [hstate]
      · simp [timeoutSchedule, setProbing, hstate]
      · exact hprobing _
    | used | conflict | externalRemoved => simp [notReached, hstate]
    | ready | defending => simpa using hgood

theorem timeoutNoProbe_ne : (d.timeoutNoProbe env).data.state ≠ .defending := by
  have hdone (d' : AcdData K) : (d'.handleProbingDone env .timeout).data.state ≠ .defending :=
    handleProbingDone_ne honLink
  have hprobing (d' : AcdData K) : (d'.handleStartProbing env).data.state ≠ .defending :=
    handleStartProbing_ne honLink
  have hgood := goodState_ne honLink
  unfold timeoutNoProbe timeoutRestart
  dsimp only [AcdOutcome.assert_data]
  split_ifs
  · exact hdone _
  · simpa using hgood
  · exact hprobing _
  · exact hprobing _

theorem changeTimeout_ne (hstate : d.state ≠ .defending) :
    (d.changeTimeout env).data.state ≠ .defending := by
  have hrestart : (d.timeoutNoProbe env).data.state ≠ .defending := timeoutNoProbe_ne honLink
  unfold changeTimeout
  cases hcase : d.state with
  | init | ready | externalRemoved => simp [notReached, hcase]
  | probing =>
    dsimp only
    split_ifs
    · simp [hcase]
    · exact hrestart
  | used | conflict => exact hrestart
  | defending => exact absurd hcase hstate

theorem changeLink_ne (hstate : d.state ≠ .defending) :
    (d.changeLink env).data.state ≠ .defending := by
  unfold changeLink
  cases hcase : d.state with
  | probing =>
    dsimp only
    split_ifs
    · simp [hcase]
    · simp [hcase]
    · exact handleStartProbing_ne honLink
  | defending => exact absurd hcase hstate
  | init | ready | used | conflict | externalRemoved => simp [notReached, hcase]

theorem switchMode_ne (h : d.state ≠ .defending ∨ mode = .postCommit) :
    (d.switchMode env mode).data.state ≠ .defending := by
  have hgood := goodState_ne honLink
  have hdone (d' : AcdData K) (mode' : AcdStateChangeMode) :
      (d'.handleProbingDone env mode').data.state ≠ .defending := handleProbingDone_ne honLink
  unfold switchMode
  cases mode with
  | postCommit =>
    dsimp only [changePostCommit]
    split_ifs with hremoved
    · simp [hremoved]
    · exact postCommitOffLink_ne honLink
  | init | initReapply =>
    exact changeInit_ne (h.resolve_right (by simp))
  | timeout => exact changeTimeout_ne honLink (h.resolve_right (by simp))
  | nacdUsed => simp [changeNacdUsed]
  | nacdConflict => simp [changeNacdConflict]
  | nacdDefended => simpa [changeNacdDefended] using h
  | nacdReady =>
    have hstate := h.resolve_right (by simp)
    dsimp only [changeNacdReady]
    cases hcase : d.state with
    | probing => exact hdone _ _
    | defending => exact absurd hcase hstate
    | init | used | ready | conflict | externalRemoved => simp [notReached, hcase]
  | externalAdded =>
    have hstate := h.resolve_right (by simp)
    dsimp only [changeExternalAdded]
    split_ifs
    · exact hstate
    · cases hcase : d.state with
      | init => simp [notReached, hcase]
      | ready | defending => simpa using hgood
      | probing | used | conflict | externalRemoved => exact hdone _ _
  | externalRemoved =>
    have hstate := h.resolve_right (by simp)
    dsimp only [changeExternalRemoved]
    split_ifs <;> simp [hstate]
  | nacdDown | linkNowUp => exact changeLink_ne honLink (h.resolve_right (by simp))
  | instanceReset => simp [changeInstanceReset]

end offLink

theorem stateChange_defending (h : d.state = .defending → env.onLink ∨ mode = .postCommit)
    (hdef : (d.stateChange env mode).data.state = .defending) : env.onLink := by
  by_contra honLink
  rcases stateChange_eq env mode d with ⟨hremoved, heq⟩ | heq
  · simp [heq, hremoved] at hdef
  · rw [heq] at hdef
    refine switchMode_ne honLink ?_ hdef
    by_cases hstate : d.state = .defending
    · exact .inr ((h hstate).resolve_left honLink)
    · exact .inl hstate

theorem stateChange_external_reentrant (hreentrant : env.commitReentrant)
    (hmode : mode = .externalAdded ∨ mode = .externalRemoved) : d.stateChange env mode = d.done := by
  rcases stateChange_eq env mode d with ⟨-, heq⟩ | heq
  · exact heq
  · rw [heq]
    rcases hmode with rfl | rfl
    · exact if_pos hreentrant
    · exact if_pos hreentrant

variable (env d) in
theorem stateChange_externalRemoved_state (hreentrant : ¬ env.commitReentrant)
    (honLink : ¬ env.onLink) :
    (d.stateChange env .externalRemoved).data.state = .externalRemoved := by
  rcases stateChange_eq env .externalRemoved d with ⟨hremoved, heq⟩ | heq
  · simpa [heq] using hremoved
  · simp [heq, switchMode, changeExternalRemoved, hreentrant, honLink]

end NetworkManager.Core.AcdData
