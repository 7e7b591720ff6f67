import NetworkManager.Core.AcdDataSound
import NetworkManager.Core.AcdTracked

/-!
# The state machine never gets stuck

In a run an `AcdData` is `Sound` from its first tracker on, and between commits it is in a state
that is not the initial one. Three kinds of steps are excluded, each of which the code gets
wrong: a timeout that finds a conflict resolved, a commit that loses a defended address, and a
packet that disputes an address before the probe that is to defend it is ready.
-/

namespace NetworkManager.Core

open Lib

variable {K : Type*} [DecidableEq K] {f : NAcdProbe → NAcdProbe}

/-! ## The probe -/

section probe

omit [DecidableEq K]

variable {d : AcdData K} {packet : NAcdPacket}

theorem AcdData.Sound.mapProbe (hd : d.Sound)
    (hprobing : d.state = .probing → ∀ probe ∈ d.nacdProbe, probe.state ≠ .announcing → (f probe).state ≠ .announcing ∧ ∀ event ∈ (f probe).events, event ∈ probe.events ∨ event = .ready ∨ event = .used)
    (hdefending : d.state = .defending → ∀ probe ∈ d.nacdProbe, NAcdEvent.used ∈ (f probe).events → NAcdEvent.used ∈ probe.events) :
    AcdData.Sound { d with nacdProbe := d.nacdProbe.map f } where
  probing := by simpa using hd.probing
  waiting := hd.waiting
  defending := by simpa using hd.defending
  idle := hd.idle
  noProbe := by simpa using hd.noProbe
  oneSource := by simpa using hd.oneSource
  probingEvents h probe hmem := by
    obtain ⟨probe₀, hprobe₀, rfl⟩ := Option.map_eq_some_iff.mp hmem
    obtain ⟨hstate, hevents⟩ := hd.probingEvents h probe₀ hprobe₀
    obtain ⟨hstate', hevents'⟩ := hprobing h probe₀ hprobe₀ hstate
    refine ⟨hstate', fun event hevent => ?_⟩
    rcases hevents' event hevent with hold | hnew
    · exact hevents event hold
    · exact hnew
  defendingEvents h probe hmem hused := by
    obtain ⟨probe₀, hprobe₀, rfl⟩ := Option.map_eq_some_iff.mp hmem
    exact hd.defendingEvents h probe₀ hprobe₀ (hdefending h probe₀ hprobe₀ hused)

theorem AcdData.Sound.handleTimeout (hd : d.Sound) :
    AcdData.Sound { d with nacdProbe := d.nacdProbe.map NAcdProbe.handleTimeout } := by
  apply hd.mapProbe
  · intro _ probe _ hstate
    unfold NAcdProbe.handleTimeout
    cases hprobe : probe.state with
    | probing =>
      simp only [NAcdProbe.raise, List.mem_append, List.mem_singleton]
      exact ⟨by simp, fun event => Or.imp_right .inl⟩
    | announcing => exact absurd hprobe hstate
    | configuring | failed => exact ⟨hstate, fun event hevent => .inl hevent⟩
  · intro _ probe _
    unfold NAcdProbe.handleTimeout
    cases probe.state <;> simp [NAcdProbe.raise]

theorem NAcdPacket.answer_eq (packet : NAcdPacket) (defend : NML3AcdDefendType) :
    packet.answer defend = .defended ∨ packet.answer defend = .conflict := by
  cases defend with
  | none | never => exact .inr rfl
  | once =>
    unfold NAcdPacket.answer
    split_ifs <;> simp
  | always => exact .inl rfl

theorem NAcdProbe.used_of_handlePacket {probe : NAcdProbe} (hstate : probe.state ≠ .probing)
    (hused : NAcdEvent.used ∈ (probe.handlePacket packet).events) :
    NAcdEvent.used ∈ probe.events := by
  unfold NAcdProbe.handlePacket at hused
  cases hprobe : probe.state with
  | probing => exact absurd hprobe hstate
  | configuring | failed => simpa [hprobe] using hused
  | announcing =>
    simp only [hprobe] at hused
    split_ifs at hused
    · rcases packet.answer_eq probe.defend with hanswer | hanswer
      · simpa [hanswer, NAcdProbe.raise] using hused
      · simpa [hanswer, NAcdProbe.fail, NAcdProbe.raise] using hused
    · exact hused

theorem AcdData.Sound.handlePacket (hd : d.Sound)
    (hearly : d.state = .defending → ∀ probe ∈ d.nacdProbe, probe.linked → probe.state ≠ .probing) :
    AcdData.Sound { d with nacdProbe := d.nacdProbe.map fun probe =>
      if probe.linked then probe.handlePacket packet else probe } := by
  apply hd.mapProbe
  · intro _ probe _ hstate
    split_ifs
    · unfold NAcdProbe.handlePacket
      cases hprobe : probe.state with
      | probing =>
        simp only [NAcdProbe.fail, NAcdProbe.raise, List.mem_append, List.mem_singleton]
        exact ⟨by simp, fun event => Or.imp_right .inr⟩
      | announcing => exact absurd hprobe hstate
      | configuring | failed => exact ⟨hstate, fun event hevent => .inl hevent⟩
    · exact ⟨hstate, fun event hevent => .inl hevent⟩
  · intro hdef probe hmem hused
    split_ifs at hused with hlinked
    · exact NAcdProbe.used_of_handlePacket (hearly hdef probe hmem hlinked) hused
    · exact hused

end probe

namespace AcdSystem

variable {loopback : Bool} {s : AcdSystem K} {e : AcdEvent K} {c : Call K}

/-! ## The steps -/

/-- A timeout does not find a conflict that is resolved. -/
def ConflictRestarts (loopback : Bool) (s : AcdSystem K) (e : AcdEvent K) : Prop :=
  ∀ c ∈ s.call e, c.mode = .timeout → c.data.Restarts (c.system.env loopback c.createProbe)

/-- A commit does not lose an address that a probe defends. -/
def CommitKeepsAddress (s : AcdSystem K) (e : AcdEvent K) : Prop :=
  ∀ c ∈ s.call e, c.mode = .postCommit → c.data.state = .defending →
    c.data.nacdProbe.isSome → c.system.onLink

/-- No packet disputes an address before the probe that is to defend it is ready. -/
def NoEarlyPacket (s : AcdSystem K) : AcdEvent K → Prop
  | .nacdPacket _ => ¬ s.inCommit → ∀ d ∈ s.acdData, d.state = .defending →
      ∀ probe ∈ d.nacdProbe, probe.linked → probe.state ≠ .probing
  | _ => True

/-- What has to hold of a step, in the state before it. -/
structure StaysAlive (loopback : Bool) (s : AcdSystem K) (e : AcdEvent K) : Prop where
  conflictRestarts : ConflictRestarts loopback s e
  commitKeepsAddress : CommitKeepsAddress s e
  noEarlyPacket : NoEarlyPacket s e

/-- The invariant of the data, in a system. -/
structure Sound (s : AcdSystem K) : Prop extends s.Kept where
  data : ∀ d ∈ s.acdData, d.Sound
  not_init : ¬ s.inCommit → ∀ d ∈ s.acdData, d.state ≠ .init
  ok : s.ok

omit [DecidableEq K] in
theorem start_sound : (AcdSystem.start K).Sound where
  toKept := start_kept
  data := by simp [AcdSystem.start]
  not_init := by simp [AcdSystem.start]
  ok := rfl

theorem beginCommit_data (update : Option (AcdUpdate K)) (hs : s.Sound) :
    ∀ d ∈ (s.beginCommit update).acdData, d.Sound := by
  cases update with
  | none => exact hs.data
  | some u =>
    intro d hd
    rcases mem_foldl_acdDataAdd hd with hmem | ⟨-, tracks, changed, rfl⟩
    · exact hs.data d hmem
    · cases hdata : s.acdData with
      | none => exact AcdData.sound_of_idle (.inr (.inl rfl)) rfl rfl
      | some d => exact (hs.data d hdata).congr rfl rfl rfl

omit [DecidableEq K] in
theorem prune_data (hs : s.Sound) : ∀ d ∈ s.prune.acdData, d.Sound := by
  intro d hd
  rcases mem_prune hd with ⟨-, h⟩ | ⟨d₀, hd₀, -, -, heq⟩
  · exact hs.data d h
  · rw [heq]
    exact (hs.data d₀ hd₀).congr rfl rfl rfl

/-- A call keeps the data sound, and outside of commits it leaves it with a state. -/
structure CallSound (loopback : Bool) (e : AcdEvent K) (c : Call K) : Prop where
  outcome : (c.outcome loopback).Sound
  not_init : ¬ ((c.run loopback).finish e).inCommit → (c.outcome loopback).data.state ≠ .init

omit [DecidableEq K] in
theorem CallSound.of_settled {onLink : Bool} (h : (c.outcome loopback).Settled onLink) :
    CallSound loopback e c :=
  ⟨h.toSound, fun _ => h.not_init⟩

/-- The call of a step that is not excluded. -/
theorem CallOf.callSound (hs : s.Sound) (hc : CallOf s e c) (hcall : s.call e = some c)
    (halive : StaysAlive loopback s e) : CallSound loopback e c := by
  have hselect := hc.selectTracks hs.toKept
  have htracks := (hc.tracked hs.toKept).1
  cases hc with
  | @commitBegin u d hcommit hd =>
    have hsound := beginCommit_data _ hs d hd
    refine ⟨AcdData.stateChange_init_sound hsound ?_, fun h => absurd rfl h⟩
    cases hreapply : u.reapply <;> simp [AcdUpdate.mode, hreapply]
  | @commitEnd createProbe d hcommit hd =>
    have hsound := prune_data hs d hd
    apply CallSound.of_settled
    apply AcdData.stateChange_settled fun _ => hsound
    apply AcdData.changePostCommit_settled (s.prune.env loopback createProbe) hsound
    · rw [hselect (.inl rfl)]
      exact htracks
    · exact halive.commitKeepsAddress _ hcall rfl
  | @externalAdded createProbe d hd =>
    have hsound := hs.data d hd
    by_cases hcommit : s.inCommit
    · have hdone : Call.outcome loopback
          ⟨d, .externalAdded, createProbe, { s with onLink := true }⟩ = d.done :=
        AcdData.stateChange_external_reentrant hcommit (.inl rfl)
      exact ⟨hdone ▸ ⟨hsound, rfl⟩, fun h => absurd hcommit h⟩
    · apply CallSound.of_settled
      apply AcdData.stateChange_settled fun _ => hsound
      exact AcdData.changeExternalAdded_settled (env loopback createProbe { s with onLink := true })
        hsound (hs.not_init hcommit d hd) hcommit rfl
  | @externalRemoved stillOnLink d hd =>
    have hsound := hs.data d hd
    by_cases hcommit : s.inCommit
    · have hdone : Call.outcome loopback
          ⟨d, .externalRemoved, .failed, { s with onLink := stillOnLink }⟩ = d.done :=
        AcdData.stateChange_external_reentrant hcommit (.inr rfl)
      exact ⟨hdone ▸ ⟨hsound, rfl⟩, fun h => absurd hcommit h⟩
    · apply CallSound.of_settled
      apply AcdData.stateChange_settled fun _ => hsound
      exact AcdData.changeExternalRemoved_settled (env loopback .failed { s with onLink := stillOnLink })
        hsound (hs.not_init hcommit d hd) hcommit
  | @nacdPopEvent createProbe d probe event hcommit hd hprobe hevent =>
    have hsound := hs.data d hd
    have hlink := hs.defending hcommit d hd
    apply CallSound.of_settled
    apply AcdData.stateChange_settled fun _ => hsound.popEvent hprobe
    cases event with
    | ready => exact AcdData.changeNacdReady_settled (s.env loopback createProbe) hprobe hsound hlink
    | used => exact AcdData.changeNacdUsed_settled s.onLink hprobe hsound hevent
    | defended => exact AcdData.changeNacdDefended_settled hprobe hsound hevent hlink
    | conflict => exact AcdData.changeNacdConflict_settled hprobe hsound hevent
  | @timeout createProbe d hcommit hd htimer =>
    have hsound := hs.data d hd
    apply CallSound.of_settled
    apply AcdData.stateChange_settled
    · intro hremoved
      have hnone := hsound.idle (.inr (.inr hremoved))
      simp [hnone] at htimer
    · apply AcdData.changeTimeout_settled (s.env loopback createProbe) hsound htimer
      · exact ne_of_eq_of_ne (hselect (.inr rfl)) htracks
      · exact halive.conflictRestarts _ hcall rfl
  | @nacdDown createProbe d hcommit hd | @linkNowUp createProbe d hcommit hd =>
    have hsound := hs.data d hd
    apply CallSound.of_settled
    apply AcdData.stateChange_settled fun _ => hsound
    exact AcdData.changeLink_settled (s.env loopback createProbe) hsound
      (hs.not_init hcommit d hd) (hs.defending hcommit d hd)
  | @instanceReset d hcommit hd =>
    apply CallSound.of_settled
    apply AcdData.stateChange_settled fun _ => hs.data d hd
    exact AcdData.changeInstanceReset_settled (s.env loopback .failed) (hs.not_init hcommit d hd)

omit [DecidableEq K] in
theorem modifyProbe_data (hs : s.Sound)
    (hf : ¬ s.inCommit → ∀ d ∈ s.acdData, AcdData.Sound { d with nacdProbe := d.nacdProbe.map f }) :
    ∀ d ∈ (s.modifyProbe f).acdData, d.Sound := by
  unfold modifyProbe
  split_ifs with hcommit
  · exact hs.data
  · intro d hd
    obtain ⟨d₀, hd₀, rfl⟩ := Option.map_eq_some_iff.mp hd
    exact hf hcommit d₀ hd₀

theorem rest_data (hs : s.Sound) (halive : StaysAlive loopback s e) :
    ∀ d ∈ ((s.rest e).finish e).acdData, d.Sound := by
  cases e with
  | commitBegin update =>
    by_cases hcommit : s.inCommit
    · simpa [rest, finish, hcommit] using hs.data
    · simpa [rest, finish, hcommit] using beginCommit_data update hs
  | commitEnd createProbe =>
    by_cases hcommit : s.inCommit
    · simpa [rest, finish, hcommit] using prune_data hs
    · simpa [rest, finish, hcommit] using hs.data
  | nacdTimer => exact modifyProbe_data hs fun _ d hd => (hs.data d hd).handleTimeout
  | nacdPacket packet =>
    exact modifyProbe_data hs fun hcommit d hd =>
      (hs.data d hd).handlePacket (halive.noEarlyPacket hcommit d hd)
  | externalAdded createProbe | externalRemoved stillOnLink | elapse msec
  | nacdPopEvent createProbe | timeout createProbe | nacdDown createProbe
  | linkNowUp createProbe | instanceReset => exact hs.data

omit [DecidableEq K] in
theorem modifyProbe_not_init (hs : s.Sound) :
    ¬ (s.modifyProbe f).inCommit → ∀ d ∈ (s.modifyProbe f).acdData, d.state ≠ .init := by
  unfold modifyProbe
  split_ifs with hcommit
  · exact hs.not_init
  · intro _ d hd
    obtain ⟨d₀, hd₀, rfl⟩ := Option.map_eq_some_iff.mp hd
    exact hs.not_init hcommit d₀ hd₀

theorem rest_not_init (hs : s.Sound) (hcall : s.call e = none)
    (hidle : ¬ ((s.rest e).finish e).inCommit) :
    ∀ d ∈ ((s.rest e).finish e).acdData, d.state ≠ .init := by
  cases e with
  | commitBegin update =>
    by_cases hcommit : s.inCommit
    · simp [rest, finish, hcommit] at hidle
    · cases update <;> simp [rest, finish, hcommit, beginCommit] at hidle
  | commitEnd createProbe =>
    by_cases hcommit : s.inCommit
    · have hnone : s.prune.acdData = none := by simpa [call, hcommit] using hcall
      simp [rest, finish, hcommit, hnone]
    · simpa [rest, finish, hcommit] using hs.not_init hcommit
  | nacdTimer | nacdPacket packet => exact modifyProbe_not_init hs hidle
  | externalAdded createProbe | externalRemoved stillOnLink | elapse msec
  | nacdPopEvent createProbe | timeout createProbe | nacdDown createProbe
  | linkNowUp createProbe | instanceReset => exact hs.not_init hidle

theorem rest_ok : ((s.rest e).finish e).ok = s.ok := by
  cases e with
  | commitBegin update =>
    simp only [rest, finish]
    split_ifs
    · rfl
    · cases update <;> rfl
  | commitEnd createProbe =>
    simp only [rest, finish]
    split_ifs <;> rfl
  | nacdTimer | nacdPacket packet =>
    simp only [rest, finish, modifyProbe]
    split_ifs <;> rfl
  | externalAdded createProbe | externalRemoved stillOnLink | elapse msec
  | nacdPopEvent createProbe | timeout createProbe | nacdDown createProbe
  | linkNowUp createProbe | instanceReset => rfl

theorem CallOf.system_ok (hc : CallOf s e c) : c.system.ok = s.ok := by
  cases hc <;> rfl

theorem step_sound (hs : s.Sound) (halive : StaysAlive loopback s e) :
    (s.step loopback e).Sound := by
  have hkept : (s.step loopback e).Kept := step_kept hs.toKept
  unfold step at hkept ⊢
  cases hcall : s.call e with
  | none =>
    rw [hcall] at hkept
    refine ⟨hkept, rest_data hs halive, rest_not_init hs hcall, ?_⟩
    rw [rest_ok]
    exact hs.ok
  | some c =>
    rw [hcall] at hkept
    have hc := callOf hcall
    have hsound := hc.callSound hs hcall halive
    have hdata : ((c.run loopback).finish e).acdData = some (c.outcome loopback).data := by
      cases hc <;> rfl
    have hok : ((c.run loopback).finish e).ok = (c.system.ok && (c.outcome loopback).ok) := by
      cases hc <;> rfl
    refine ⟨hkept, ?_, ?_, ?_⟩
    · intro d hd
      obtain rfl := Option.some.inj (hdata.symm.trans hd)
      exact hsound.outcome.data
    · intro h d hd
      obtain rfl := Option.some.inj (hdata.symm.trans hd)
      exact hsound.not_init h
    · rw [hok, hc.system_ok, hs.ok, hsound.outcome.ok]
      rfl

/-! ## Runs -/

/-- Nothing went wrong up to here, and no address waits in vain. -/
def NeverStuck (s : AcdSystem K) : Prop :=
  s.ok ∧ (¬ s.inCommit → ∀ d ∈ s.acdData, d.NotStuck)

/-- In a run whose steps avoid the three defects the state machine never gets stuck. -/
theorem run_neverStuck (loopback : Bool) (es : List (AcdEvent K))
    (h : Along (step loopback) (StaysAlive loopback) (AcdSystem.start K) es) :
    NeverStuck (es.foldl (step loopback) (AcdSystem.start K)) := by
  have hsound : (es.foldl (step loopback) (AcdSystem.start K)).Sound :=
    Along.foldl (fun s e hs halive => step_sound hs halive) start_sound h
  exact ⟨hsound.ok, fun _ d hd => (hsound.data d hd).toNotStuck⟩

instance AcdData.Restarts.decidable (env : AcdEnv) (d : AcdData K) : Decidable (d.Restarts env) :=
  inferInstanceAs (Decidable (d.state = .conflict → ¬ env.onLink ∧ _ ≠ 0))

instance ConflictRestarts.decidable (loopback : Bool) (s : AcdSystem K) (e : AcdEvent K) :
    Decidable (ConflictRestarts loopback s e) :=
  inferInstanceAs (Decidable (∀ c ∈ s.call e, c.mode = .timeout →
    c.data.Restarts (c.system.env loopback c.createProbe)))

instance CommitKeepsAddress.decidable (s : AcdSystem K) (e : AcdEvent K) :
    Decidable (CommitKeepsAddress s e) :=
  inferInstanceAs (Decidable (∀ c ∈ s.call e, c.mode = .postCommit → c.data.state = .defending →
    c.data.nacdProbe.isSome → c.system.onLink))

instance NoEarlyPacket.decidable (s : AcdSystem K) (e : AcdEvent K) :
    Decidable (NoEarlyPacket s e) :=
  match e with
  | .nacdPacket _ => inferInstanceAs (Decidable (¬ s.inCommit → ∀ d ∈ s.acdData,
      d.state = .defending → ∀ probe ∈ d.nacdProbe, probe.linked → probe.state ≠ .probing))
  | .commitBegin _ | .commitEnd _ | .externalAdded _ | .externalRemoved _ | .elapse _
  | .nacdTimer | .nacdPopEvent _ | .timeout _ | .nacdDown _ | .linkNowUp _ | .instanceReset =>
    inferInstanceAs (Decidable True)

instance StaysAlive.decidable (loopback : Bool) (s : AcdSystem K) (e : AcdEvent K) :
    Decidable (StaysAlive loopback s e) :=
  decidable_of_iff (ConflictRestarts loopback s e ∧ CommitKeepsAddress s e ∧ NoEarlyPacket s e)
    ⟨fun ⟨h₁, h₂, h₃⟩ => ⟨h₁, h₂, h₃⟩, fun ⟨h₁, h₂, h₃⟩ => ⟨h₁, h₂, h₃⟩⟩

/-- An address is probed and configured, it is defended, and then another host takes it. -/
def conflictRun : List (AcdEvent ℕ) :=
  [.commitBegin (some (.single 200 .once NML3AcdDefendType.once_ne_none)), .commitEnd .created, .nacdTimer,
    .nacdPopEvent .created, .commitBegin none, .externalAdded .failed, .commitEnd .created,
    .nacdTimer, .nacdPopEvent .created, .nacdPacket ⟨true, true, false⟩, .nacdPopEvent .created,
    .commitBegin none, .externalRemoved false, .commitEnd .created]

theorem conflictRun_neverStuck :
    NeverStuck (conflictRun.foldl (step false) (AcdSystem.start ℕ)) := by
  apply run_neverStuck
  decide +kernel

def resolvedConflictRun : List (AcdEvent ℕ) :=
  conflictRun ++ [.externalAdded .created, .elapse 120000, .timeout .created]

theorem resolvedConflictRun_stuck :
    ¬ NeverStuck (resolvedConflictRun.foldl (step false) (AcdSystem.start ℕ)) := by
  intro h
  have hwaiting := (h.2 (by decide) _ rfl).waiting (.inr (by decide))
  revert hwaiting
  decide

end AcdSystem

end NetworkManager.Core
