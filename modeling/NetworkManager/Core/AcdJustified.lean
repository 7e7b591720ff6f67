import NetworkManager.Core.AcdDataProbing
import NetworkManager.Core.AcdTracked

/-!
# No address is declared usable without a reason

The history of an address adds to its `AcdData` since when the attempts to create a probe fail.
Where an address that is to be probed becomes usable, there is a reason: it is configured, a
probe has reported ready, conflict detection is not supported, or no probe could be created for
too long. Steps that the code gets wrong are excluded by `Prudent`.
-/

namespace NetworkManager.Core

open Lib

variable {K : Type*} [DecidableEq K]

/-- The address, and since when the attempts to create a probe for it fail. -/
structure AcdHistory (K : Type*) where
  system : AcdSystem K
  failingSince : Option ℕ
  deriving DecidableEq

namespace AcdHistory

open AcdSystem

variable (loopback : Bool)

def start (K : Type*) : AcdHistory K := ⟨.start K, none⟩

/-- The attempts fail from the first one that fails to the next one that does not, while the
address is probed. -/
def nextFailing (h : AcdHistory K) (e : AcdEvent K) : Option ℕ :=
  match (h.system.step loopback e).acdData with
  | none => none
  | some d =>
    if d.state = .probing then
      match (h.system.call e).bind fun c => (c.outcome loopback).probeRequest with
      | none => h.failingSince
      | some (_, .failed) => some (h.failingSince.getD h.system.nowMsec)
      | some (_, .created) | some (_, .notSupported) => none
    else none

def step (h : AcdHistory K) (e : AcdEvent K) : AcdHistory K :=
  ⟨h.system.step loopback e, h.nextFailing loopback e⟩

def callEnv (c : Call K) : AcdEnv := c.system.env loopback c.createProbe

/-- The step does not make an address usable without a reason, and a probe that it asks for is
one with a timeout. -/
def Justified (h : AcdHistory K) (e : AcdEvent K) : Prop :=
  ∀ c ∈ h.system.call e,
    (c.data.BecomesUsable (callEnv loopback c) c.mode →
      c.data.UsableReason (callEnv loopback c) c.mode h.failingSince) ∧
    ∀ request ∈ (c.outcome loopback).probeRequest, request.1 ≠ 0

/-- What has to hold of a step, in the state before it. -/
structure Prudent (h : AcdHistory K) (e : AcdEvent K) : Prop where
  /-- A timeout does not start to probe an address that never had a timeout for probing. -/
  hasTimeout : ∀ c ∈ h.system.call e, c.mode = .timeout → c.data.Retries (callEnv loopback c) →
    c.data.probingTimeoutMsec ≠ 0
  /-- A timeout that tries for the first time does not come too late. -/
  inTime : ∀ c ∈ h.system.call e, c.mode = .timeout → c.data.Retries (callEnv loopback c) →
    h.failingSince = none →
      c.system.nowMsec ≤ c.data.probingTimestampMsec + waitProbingExtraTime2Msec
  /-- A link event does not fail to restart a probe. -/
  restarts : ∀ c ∈ h.system.call e, c.mode = .nacdDown ∨ c.mode = .linkNowUp →
    c.data.Restarted (callEnv loopback c) → c.createProbe ≠ .failed
  /-- A commit does not lose an address that is defended, while it is to be probed. -/
  keepsAddress : ∀ c ∈ h.system.call e, c.mode = .postCommit → c.data.WantsProbing loopback →
    c.data.state = .defending → c.system.onLink

variable {loopback} {h : AcdHistory K} {e : AcdEvent K} {c : Call K} {failingSince : Option ℕ}
  {d : AcdData K} {since : ℕ}

/-! ## The invariant -/

/-- What is known of an address that is probed. -/
structure Waits (failingSince : Option ℕ) (d : AcdData K) : Prop where
  hasTimeout : d.HasTimeout
  soon : d.state = .probing → d.nacdProbe = none → ∀ since ∈ failingSince,
    since ≤ d.probingTimestampMsec + waitProbingExtraTime2Msec

structure Fair (h : AcdHistory K) : Prop where
  kept : h.system.Kept
  waits : ∀ d ∈ h.system.acdData, Waits h.failingSince d
  past : ∀ since ∈ h.failingSince, since ≤ h.system.nowMsec

omit [DecidableEq K] in
theorem start_fair : (start K).Fair where
  kept := start_kept
  waits := by simp [start, AcdSystem.start]
  past := by simp [start]

omit [DecidableEq K] in
theorem Waits.congr {d' : AcdData K} (h : Waits failingSince d) (hstate : d'.state = d.state)
    (hprobe : d'.nacdProbe = d.nacdProbe)
    (htimestamp : d'.probingTimestampMsec = d.probingTimestampMsec)
    (htimeout : d'.probingTimeoutMsec = d.probingTimeoutMsec) : Waits failingSince d' where
  hasTimeout := by
    simpa only [AcdData.HasTimeout, hstate, hprobe, htimeout] using h.hasTimeout
  soon := by simpa only [hstate, hprobe, htimestamp] using h.soon

omit [DecidableEq K] in
theorem Waits.mapProbe {f : NAcdProbe → NAcdProbe}
    (hf : ∀ probe, (f probe).timeoutMsec = probe.timeoutMsec) (h : Waits failingSince d) :
    Waits failingSince { d with nacdProbe := d.nacdProbe.map f } where
  hasTimeout hstate probe hmem := by
    obtain ⟨probe₀, hprobe₀, rfl⟩ := Option.map_eq_some_iff.mp hmem
    rw [hf]
    exact h.hasTimeout hstate probe₀ hprobe₀
  soon hstate hprobe := h.soon hstate (by simpa using hprobe)

theorem waits_of_callOf (hh : h.Fair) (hc : CallOf h.system e c) :
    Waits h.failingSince c.data := by
  cases hc with
  | @commitBegin u d hcommit hd =>
    rcases mem_foldl_acdDataAdd hd with hmem | ⟨-, tracks, changed, rfl⟩
    · exact hh.waits d hmem
    · cases hdata : h.system.acdData with
      | none => exact ⟨by simp [AcdData.HasTimeout, acdDataNew], by simp [acdDataNew]⟩
      | some d => exact (hh.waits d hdata).congr rfl rfl rfl rfl
  | @commitEnd createProbe d hcommit hd =>
    rcases mem_prune hd with ⟨-, hmem⟩ | ⟨d₀, hd₀, -, -, heq⟩
    · exact hh.waits d hmem
    · simp only
      rw [heq]
      exact (hh.waits d₀ hd₀).congr rfl rfl rfl rfl
  | @nacdPopEvent createProbe d probe event hcommit hd hprobe hevent =>
    refine ⟨fun hstate probe' hmem => ?_, fun _ hnone => by simp [AcdData.popEvent] at hnone⟩
    obtain rfl := Option.some.inj hmem
    exact (hh.waits d hd).hasTimeout hstate probe hprobe
  | timeout hcommit hd htimer => exact (hh.waits _ hd).congr rfl rfl rfl rfl
  | externalAdded hd | externalRemoved hd => exact hh.waits _ hd
  | nacdDown hcommit hd | linkNowUp hcommit hd | instanceReset hcommit hd => exact hh.waits _ hd

theorem callOf_nowMsec {s : AcdSystem K} (hc : CallOf s e c) : c.system.nowMsec = s.nowMsec := by
  cases hc <;> rfl

/-- All that a reason depends on is known. -/
theorem reasonKnown (hh : h.Fair) (hcall : h.system.call e = some c)
    (hprudent : Prudent loopback h e) :
    c.data.ReasonKnown (callEnv loopback c) c.mode h.failingSince := by
  have hc := callOf hcall
  have hwaits := waits_of_callOf hh hc
  have hselect := hc.selectTracks hh.kept
  have htracked := (hc.tracked hh.kept).1
  refine ⟨?_, hwaits.hasTimeout, ?_, ?_, ?_, ?_⟩
  · intro hmode
    rw [hselect hmode]
    exact htracked
  · cases hc with
    | nacdPopEvent hcommit hd hprobe hevent => exact fun _ => rfl
    | @commitBegin u d hcommit hd =>
      cases hreapply : u.reapply <;> simp [AcdUpdate.mode, hreapply]
    | _ => simp
  · cases hc with
    | externalAdded hd => exact fun _ => rfl
    | @commitBegin u d hcommit hd =>
      cases hreapply : u.reapply <;> simp [AcdUpdate.mode, hreapply]
    | @nacdPopEvent createProbe d probe event hcommit hd hprobe hevent =>
      cases event <;> simp [NAcdEvent.mode]
    | _ => simp
  · rintro (hmode | hmode) hwants hdef
    · exact hprudent.keepsAddress c hcall hmode hwants hdef
    · cases hc with
      | timeout hcommit hd htimer => exact hh.kept.defending hcommit _ hd hdef
      | @commitBegin u d hcommit hd =>
        cases hreapply : u.reapply <;> simp [AcdUpdate.mode, hreapply] at hmode
      | @nacdPopEvent createProbe d probe event hcommit hd hprobe hevent =>
        cases event <;> simp [NAcdEvent.mode] at hmode
      | _ => simp at hmode
  · intro hmode hretries hlate
    change c.data.probingTimestampMsec + waitProbingExtraTimeMsec + waitProbingExtraTime2Msec <
      c.system.nowMsec at hlate
    cases hfailing : h.failingSince with
    | none =>
      have hin := hprudent.inTime c hcall hmode hretries hfailing
      omega
    | some since =>
      have hsoon := hwaits.soon hretries.state hretries.probe since hfailing
      refine ⟨since, rfl, ?_⟩
      change since + waitProbingExtraTimeMsec < c.system.nowMsec
      omega

/-! ## The steps -/

variable (loopback) in
theorem nowMsec_le_step (s : AcdSystem K) (e : AcdEvent K) :
    s.nowMsec ≤ (s.step loopback e).nowMsec := by
  unfold AcdSystem.step
  cases hcall : s.call e with
  | some c => cases callOf hcall <;> exact le_rfl
  | none =>
    cases e with
    | commitBegin update =>
      simp only [rest, finish]
      split_ifs
      · exact le_rfl
      · cases update <;> exact le_rfl
    | commitEnd createProbe =>
      simp only [rest, finish]
      split_ifs <;> exact le_rfl
    | nacdTimer | nacdPacket packet =>
      simp only [rest, finish, modifyProbe]
      split_ifs <;> exact le_rfl
    | elapse msec => exact Nat.le_add_right _ _
    | externalAdded createProbe | externalRemoved stillOnLink | nacdPopEvent createProbe
    | timeout createProbe | nacdDown createProbe | linkNowUp createProbe | instanceReset =>
      exact le_rfl

theorem mem_nextFailing (hmem : since ∈ h.nextFailing loopback e) :
    since ∈ h.failingSince ∨ h.failingSince = none ∧ since = h.system.nowMsec := by
  unfold nextFailing at hmem
  split at hmem
  · simp at hmem
  · split_ifs at hmem
    · split at hmem
      · exact .inl hmem
      · obtain rfl := Option.some.inj hmem
        cases hfailing : h.failingSince with
        | none => exact .inr ⟨rfl, rfl⟩
        | some since => exact .inl rfl
      · simp at hmem
      · simp at hmem
    · simp at hmem

theorem mem_failingSince (hmem : since ∈ h.nextFailing loopback e)
    (hrequest : ((h.system.call e).bind fun c => (c.outcome loopback).probeRequest) = none) :
    since ∈ h.failingSince := by
  unfold nextFailing at hmem
  rw [hrequest] at hmem
  split at hmem
  · simp at hmem
  · split_ifs at hmem
    · exact hmem
    · simp at hmem

theorem createProbe_failed (hmem : since ∈ h.nextFailing loopback e)
    (hcall : h.system.call e = some c) {timeoutMsec : ℕ}
    (hrequest : (c.outcome loopback).probeRequest = some (timeoutMsec, c.createProbe)) :
    c.createProbe = .failed := by
  have hbind : ((h.system.call e).bind fun c => (c.outcome loopback).probeRequest) =
      some (timeoutMsec, c.createProbe) := by simp [hcall, hrequest]
  unfold nextFailing at hmem
  rw [hbind] at hmem
  split at hmem
  · simp at hmem
  · split_ifs at hmem
    · cases hcreate : c.createProbe <;> simp [hcreate] at hmem ⊢
    · simp at hmem

/-- A call leaves an address that is probed with what is known of such an address. -/
theorem waits_outcome (hh : h.Fair) (hcall : h.system.call e = some c)
    (hprudent : Prudent loopback h e) :
    Waits (h.nextFailing loopback e) (c.outcome loopback).data := by
  have hc := callOf hcall
  have hwaits := waits_of_callOf hh hc
  have hnow := callOf_nowMsec hc
  have hnonzero : ∀ request ∈ (c.outcome loopback).probeRequest, request.1 ≠ 0 :=
    AcdData.stateChange_probeRequest hwaits.hasTimeout (hprudent.hasTimeout c hcall)
  have hstands (hstate : (c.outcome loopback).data.state = .probing) :
      AcdData.ProbingStands (callEnv loopback c) c.mode c.data (c.outcome loopback) :=
    AcdData.stateChange_stands hstate
  have hpast {since : ℕ} (hmem : since ∈ h.nextFailing loopback e) : since ≤ c.system.nowMsec := by
    rw [hnow]
    rcases mem_nextFailing hmem with hold | ⟨-, hnew⟩
    · exact hh.past since hold
    · exact hnew.le
  constructor
  · intro hstate probe hprobe
    cases hstands hstate with
    | same hstate' hprobe' hrequest htimestamp htimeout =>
      rw [hprobe'] at hprobe
      rw [htimeout]
      exact hwaits.hasTimeout hstate' probe hprobe
    | newTimes hprobe' hrequest htimestamp => simp [hprobe'] at hprobe
    | request hprobe' hrequest htimestamp =>
      have hne := hnonzero _ hrequest
      rw [hprobe'] at hprobe
      split_ifs at hprobe
      · obtain rfl := Option.some.inj hprobe
        exact ⟨hne, hne⟩
      · simp at hprobe
  · intro hstate hprobe since hmem
    cases hstands hstate with
    | same hstate' hprobe' hrequest htimestamp htimeout =>
      have hold := mem_failingSince hmem (by simp [hcall, hrequest])
      rw [htimestamp]
      exact hwaits.soon hstate' (hprobe'.symm.trans hprobe) since hold
    | newTimes hprobe' hrequest htimestamp =>
      have hle := hpast hmem
      rw [htimestamp]
      exact hle.trans (Nat.le_add_right _ _)
    | request hprobe' hrequest htimestamp =>
      have hfailed := createProbe_failed hmem hcall hrequest
      rcases htimestamp with hnew | ⟨⟨hmode, hretries⟩ | ⟨hmode, hrestarted⟩, hold⟩
      · have hle := hpast hmem
        rw [hnew]
        exact hle.trans (Nat.le_add_right _ _)
      · rw [hold]
        rcases mem_nextFailing hmem with hbefore | ⟨hnone, rfl⟩
        · exact hwaits.soon hretries.state hretries.probe since hbefore
        · have hin := hprudent.inTime c hcall hmode hretries hnone
          omega
      · exact absurd hfailed (hprudent.restarts c hcall hmode hrestarted)

theorem Waits.next (hw : Waits h.failingSince d) (hcall : h.system.call e = none) :
    Waits (h.nextFailing loopback e) d :=
  ⟨hw.hasTimeout, fun hstate hprobe since hmem =>
    hw.soon hstate hprobe since (mem_failingSince hmem (by simp [hcall]))⟩

theorem waits_rest (hh : h.Fair) (hcall : h.system.call e = none) :
    ∀ d ∈ ((h.system.rest e).finish e).acdData, Waits h.failingSince d := by
  intro d hd
  rcases mem_rest hcall hd with hmem | ⟨d₀, hd₀, f, hf, rfl⟩
  · exact hh.waits d hmem
  · exact (hh.waits d₀ hd₀).mapProbe hf

theorem step_fair (hh : h.Fair) (hprudent : Prudent loopback h e) : (h.step loopback e).Fair where
  kept := step_kept hh.kept
  waits d hd := by
    cases hcall : h.system.call e with
    | none =>
      have hrest : h.system.step loopback e = (h.system.rest e).finish e := by
        simp [AcdSystem.step, hcall]
      simp only [step, hrest] at hd
      exact (waits_rest hh hcall d hd).next hcall
    | some c =>
      obtain rfl := Option.some.inj ((step_acdData hcall).symm.trans hd)
      exact waits_outcome hh hcall hprudent
  past since hmem := by
    have hle := nowMsec_le_step loopback h.system e
    rcases mem_nextFailing hmem with hold | ⟨-, rfl⟩
    · exact (hh.past since hold).trans hle
    · exact hle

theorem justified_of_prudent (hh : h.Fair) (hprudent : Prudent loopback h e) :
    Justified loopback h e := by
  intro c hcall
  have hc := callOf hcall
  exact ⟨AcdData.stateChange_reason (reasonKnown hh hcall hprudent),
    AcdData.stateChange_probeRequest (waits_of_callOf hh hc).hasTimeout
      (hprudent.hasTimeout c hcall)⟩

/-- In a run whose steps avoid the defects no address is declared usable without a reason. -/
theorem run_justified (loopback : Bool) (es : List (AcdEvent K))
    (hprudent : Along (step loopback) (Prudent loopback) (start K) es) :
    Along (step loopback) (Justified loopback) (start K) es :=
  Along.imp (fun _ _ hh hp => step_fair hh hp) start_fair
    (fun _ _ hh hp => justified_of_prudent hh hp) hprudent

instance Prudent.decidable (loopback : Bool) (h : AcdHistory K) (e : AcdEvent K) :
    Decidable (Prudent loopback h e) :=
  decidable_of_iff ((∀ c ∈ h.system.call e, c.mode = .timeout →
        c.data.Retries (callEnv loopback c) → c.data.probingTimeoutMsec ≠ 0) ∧
      (∀ c ∈ h.system.call e, c.mode = .timeout → c.data.Retries (callEnv loopback c) →
        h.failingSince = none →
          c.system.nowMsec ≤ c.data.probingTimestampMsec + waitProbingExtraTime2Msec) ∧
      (∀ c ∈ h.system.call e, c.mode = .nacdDown ∨ c.mode = .linkNowUp →
        c.data.Restarted (callEnv loopback c) → c.createProbe ≠ .failed) ∧
      (∀ c ∈ h.system.call e, c.mode = .postCommit → c.data.WantsProbing loopback →
        c.data.state = .defending → c.system.onLink))
    ⟨fun ⟨h₁, h₂, h₃, h₄⟩ => ⟨h₁, h₂, h₃, h₄⟩, fun ⟨h₁, h₂, h₃, h₄⟩ => ⟨h₁, h₂, h₃, h₄⟩⟩

def probedRun : List (AcdEvent ℕ) :=
  [.commitBegin (some (.single 200 .once NML3AcdDefendType.once_ne_none)), .commitEnd .failed, .elapse 1500,
    .timeout .created, .nacdTimer, .nacdPopEvent .created, .commitBegin none,
    .externalAdded .failed, .commitEnd .created]

theorem probedRun_justified :
    Along (step false) (Justified false) (start ℕ) probedRun :=
  run_justified false probedRun (by decide +kernel)

def resetRun : List (AcdEvent ℕ) :=
  [.commitBegin (some (.single 0 .once NML3AcdDefendType.once_ne_none)), .commitEnd .created,
    .commitBegin (some (.single 200 .once NML3AcdDefendType.once_ne_none)), .commitEnd .created, .instanceReset,
    .timeout .created, .nacdTimer]

/-- The address was probed for no time at all, and is declared usable. -/
theorem resetRun_not_justified :
    ¬ Along (step false) (Justified false) (start ℕ) (resetRun ++ [.nacdPopEvent .created]) := by
  intro h
  obtain ⟨hreason, -⟩ := (along_append.mp h).2.1 _ rfl
  have hreason := hreason ⟨.inl (by decide), by decide, by decide⟩
  cases hreason with
  | onLink h => exact absurd h (by decide)
  | probeReady hmode hprobe =>
    obtain ⟨probe, hmem, hne⟩ := hprobe
    obtain rfl := Option.some.inj hmem
    exact hne rfl
  | notSupported h => exact absurd h (by decide)
  | failingLong h =>
    obtain ⟨since, hmem, -⟩ := h
    have hnone : (resetRun.foldl (step false) (start ℕ)).failingSince = none := by decide
    simp [hnone] at hmem

end AcdHistory

end NetworkManager.Core
