import NetworkManager.Core.AcdData
import NetworkManager.Lib.Keyed
import NetworkManager.Lib.Runs

/-!
# The life of one address under conflict detection

The `AcdData` of an address does not depend on that of other addresses, so one address is
followed: the trackers that commits add and prune, the address on the link, the clock, and the
callbacks of the main loop. A commit takes two steps, before and after the addresses are
synced; the notifications of the platform about the address come in between, or at any other
time, while timers and n-acd events wait until the commit is over.
-/

namespace NetworkManager.Core

open Lib

variable {K : Type*} [DecidableEq K]

/-! ## Tracking -/

/-- The `AcdData` of an address that is seen for the first time. -/
def acdDataNew (K : Type*) : AcdData K where
  trackInfos := []
  trackInfosChanged := false
  state := .init
  nacdProbe := none
  timeoutSource := none
  probingTimestampMsec := 0
  probingTimeoutMsec := 0
  defendTypeDesired := .none
  defendTypeCurrent := .none
  defendTypeIsActive := false

/-- The tracker that `_l3_acd_data_add()` wants there to be. -/
def AcdTrackConf.trackInfo (conf : AcdTrackConf K) : AcdTrackInfo K where
  key := conf.key
  dirty := false
  timeoutMsec := min conf.timeoutMsec acdTimeoutMaxMsec
  defendType := conf.defendType
  defendType_ne := conf.defendType_ne

def acdDataAdd (acdData : Option (AcdData K)) (conf : AcdTrackConf K) : Option (AcdData K) :=
  let d := acdData.getD (acdDataNew K)
  let new := conf.trackInfo
  match lookup AcdTrackInfo.key conf.key d.trackInfos with
  | none => some { d with trackInfos := d.trackInfos ++ [new], trackInfosChanged := true }
  | some old =>
    some { d with
      trackInfos := modifyKey AcdTrackInfo.key conf.key (fun _ => new) d.trackInfos
      trackInfosChanged := d.trackInfosChanged ||
        (old.timeoutMsec ≠ new.timeoutMsec || old.defendType ≠ new.defendType) }

/-- `_l3_acd_data_prune_one()`, of the trackers that are dirty. -/
def AcdData.pruneOne (d : AcdData K) : Option (AcdData K) :=
  let tracks := (d.trackInfos.filter fun t => !t.dirty).map fun t => { t with dirty := true }
  if tracks = [] then none else some { d with trackInfos := tracks }

/-! ## The system -/

/-- The address and what is known about it. -/
structure AcdSystem (K : Type*) where
  acdData : Option (AcdData K)
  onLink : Bool
  /-- `commit_reentrant_count` -/
  inCommit : Bool
  /-- `acd_data_pruning_needed` -/
  pruningNeeded : Bool
  nowMsec : ℕ
  /-- No branch that is not to be reached was reached, and no assertion failed. -/
  ok : Bool
  deriving DecidableEq

/-- Before anything happens. -/
def AcdSystem.start (K : Type*) : AcdSystem K where
  acdData := none
  onLink := false
  inCommit := false
  pruningNeeded := false
  nowMsec := 1
  ok := true

/-- The configurations have changed since the last commit. -/
structure AcdUpdate (K : Type*) where
  reapply : Bool
  confs : List (AcdTrackConf K)
  deriving DecidableEq

def AcdUpdate.mode (update : AcdUpdate K) : AcdStateChangeMode :=
  if update.reapply then .initReapply else .init

def AcdUpdate.single (timeoutMsec : ℕ) (defendType : NML3AcdDefendType)
    (hne : defendType ≠ .none) : AcdUpdate ℕ :=
  ⟨false, [⟨0, timeoutMsec, defendType, hne⟩]⟩

/-- What can happen. The probe that a state change may want to create is created or not. -/
inductive AcdEvent (K : Type*)
  /-- `_l3cfg_update_combined_config()` of a commit, with the configurations if they changed. -/
  | commitBegin (update : Option (AcdUpdate K))
  /-- `_l3_acd_data_process_changes()` -/
  | commitEnd (createProbe : CreateProbe)
  | externalAdded (createProbe : CreateProbe)
  /-- The address is removed from the link, possibly with another prefix length only. -/
  | externalRemoved (stillOnLink : Bool)
  | elapse (msec : ℕ)
  /-- The last timer of a probe. -/
  | nacdTimer
  | nacdPacket (packet : NAcdPacket)
  /-- `n_acd_pop_event()` of an event that the probe has queued. -/
  | nacdPopEvent (createProbe : CreateProbe)
  /-- `_l3_acd_data_timeout_cb()` -/
  | timeout (createProbe : CreateProbe)
  | nacdDown (createProbe : CreateProbe)
  | linkNowUp (createProbe : CreateProbe)
  | instanceReset
  deriving DecidableEq

/-- The mode in which `_l3_acd_nacd_event()` reports an event. -/
def NAcdEvent.mode : NAcdEvent → AcdStateChangeMode
  | .ready => .nacdReady
  | .used => .nacdUsed
  | .defended => .nacdDefended
  | .conflict => .nacdConflict

namespace AcdSystem

variable (loopback : Bool)

def env (createProbe : CreateProbe) (s : AcdSystem K) : AcdEnv where
  loopback
  onLink := s.onLink
  commitReentrant := s.inCommit
  nowMsec := s.nowMsec
  createProbe

/-- The call of `_l3_acd_data_state_change()` that an event makes: the data that it finds, after
timer and event queue were seen to, the mode, and what the system is besides. -/
structure Call (K : Type*) where
  data : AcdData K
  mode : AcdStateChangeMode
  createProbe : CreateProbe
  system : AcdSystem K

def idleCall (mode : AcdStateChangeMode) (createProbe : CreateProbe) (s : AcdSystem K) :
    Option (Call K) :=
  if s.inCommit then none else s.acdData.map fun d => ⟨d, mode, createProbe, s⟩

/-- The system as `_l3_acd_data_add_all()` leaves it before the pre-flight check. -/
def beginCommit (update : Option (AcdUpdate K)) (s : AcdSystem K) : AcdSystem K :=
  match update with
  | none => { s with inCommit := true, pruningNeeded := false }
  | some update =>
    { s with
      acdData := update.confs.foldl acdDataAdd s.acdData
      inCommit := true
      pruningNeeded := true }

/-- The system after `_l3_acd_data_prune()`. -/
def prune (s : AcdSystem K) : AcdSystem K :=
  { s with
    acdData := if s.pruningNeeded then s.acdData.bind AcdData.pruneOne else s.acdData
    pruningNeeded := false }

/-- The call that an event makes, if it makes one. -/
def call (s : AcdSystem K) : AcdEvent K → Option (Call K)
  | .commitBegin update =>
    if s.inCommit then none
    else
      match update with
      | none => none
      | some u =>
        let s' := s.beginCommit update
        s'.acdData.map fun d => ⟨d, u.mode, .failed, s'⟩
  | .commitEnd createProbe =>
    if s.inCommit then
      s.prune.acdData.map fun d => ⟨d, .postCommit, createProbe, s.prune⟩
    else none
  | .externalAdded createProbe =>
    s.acdData.map fun d => ⟨d, .externalAdded, createProbe, { s with onLink := true }⟩
  | .externalRemoved stillOnLink =>
    s.acdData.map fun d => ⟨d, .externalRemoved, .failed, { s with onLink := stillOnLink }⟩
  | .elapse _ | .nacdTimer | .nacdPacket _ => none
  | .nacdPopEvent createProbe =>
    if s.inCommit then none
    else
      s.acdData.bind fun d => d.nacdProbe.bind fun probe => probe.events.head?.map fun event =>
        ⟨d.popEvent probe, event.mode, createProbe, s⟩
  | .timeout createProbe =>
    (idleCall .timeout createProbe s).bind fun c =>
      if c.data.timeoutSource.isSome then
        some { c with data := c.data.clearTimeout }
      else none
  | .nacdDown createProbe => idleCall .nacdDown createProbe s
  | .linkNowUp createProbe => idleCall .linkNowUp createProbe s
  | .instanceReset => idleCall .instanceReset .failed s

/-- What `_l3_acd_data_state_change()` does in a call. -/
def Call.outcome (c : Call K) : AcdOutcome K :=
  c.data.stateChange (c.system.env loopback c.createProbe) c.mode

def Call.run (c : Call K) : AcdSystem K :=
  { c.system with
    acdData := some (c.outcome loopback).data
    ok := c.system.ok && (c.outcome loopback).ok }

def modifyProbe (f : NAcdProbe → NAcdProbe) (s : AcdSystem K) : AcdSystem K :=
  if s.inCommit then s
  else { s with acdData := s.acdData.map fun d => { d with nacdProbe := d.nacdProbe.map f } }

/-- What an event does to the system besides the call. -/
def rest (s : AcdSystem K) : AcdEvent K → AcdSystem K
  | .commitBegin update => if s.inCommit then s else s.beginCommit update
  | .commitEnd _ => if s.inCommit then s.prune else s
  | .externalAdded _ => { s with onLink := true }
  | .externalRemoved stillOnLink => { s with onLink := stillOnLink }
  | .elapse msec => { s with nowMsec := s.nowMsec + msec }
  | .nacdTimer => s.modifyProbe NAcdProbe.handleTimeout
  | .nacdPacket packet =>
    s.modifyProbe fun probe => if probe.linked then probe.handlePacket packet else probe
  | .nacdPopEvent _ | .timeout _ | .nacdDown _ | .linkNowUp _ | .instanceReset => s

def finish (e : AcdEvent K) (s : AcdSystem K) : AcdSystem K :=
  match e with
  | .commitEnd _ => { s with inCommit := false }
  | _ => s

def step (s : AcdSystem K) (e : AcdEvent K) : AcdSystem K :=
  (match s.call e with
    | some c => c.run loopback
    | none => s.rest e).finish e

/-! ## The calls -/

/-- What the call of an event is like. -/
inductive CallOf (s : AcdSystem K) : AcdEvent K → Call K → Prop
  | commitBegin {u : AcdUpdate K} {d : AcdData K} (hcommit : ¬ s.inCommit)
      (hd : d ∈ (s.beginCommit (some u)).acdData) :
      CallOf s (.commitBegin (some u)) ⟨d, u.mode, .failed, s.beginCommit (some u)⟩
  | commitEnd {createProbe : CreateProbe} {d : AcdData K} (hcommit : s.inCommit)
      (hd : d ∈ s.prune.acdData) :
      CallOf s (.commitEnd createProbe) ⟨d, .postCommit, createProbe, s.prune⟩
  | externalAdded {createProbe : CreateProbe} {d : AcdData K} (hd : d ∈ s.acdData) :
      CallOf s (.externalAdded createProbe)
        ⟨d, .externalAdded, createProbe, { s with onLink := true }⟩
  | externalRemoved {stillOnLink : Bool} {d : AcdData K} (hd : d ∈ s.acdData) :
      CallOf s (.externalRemoved stillOnLink)
        ⟨d, .externalRemoved, .failed, { s with onLink := stillOnLink }⟩
  | nacdPopEvent {createProbe : CreateProbe} {d : AcdData K} {probe : NAcdProbe}
      {event : NAcdEvent} (hcommit : ¬ s.inCommit) (hd : d ∈ s.acdData)
      (hprobe : d.nacdProbe = some probe) (hevent : event ∈ probe.events) :
      CallOf s (.nacdPopEvent createProbe) ⟨d.popEvent probe, event.mode, createProbe, s⟩
  | timeout {createProbe : CreateProbe} {d : AcdData K} (hcommit : ¬ s.inCommit)
      (hd : d ∈ s.acdData) (htimer : d.timeoutSource.isSome) :
      CallOf s (.timeout createProbe) ⟨d.clearTimeout, .timeout, createProbe, s⟩
  | nacdDown {createProbe : CreateProbe} {d : AcdData K} (hcommit : ¬ s.inCommit)
      (hd : d ∈ s.acdData) : CallOf s (.nacdDown createProbe) ⟨d, .nacdDown, createProbe, s⟩
  | linkNowUp {createProbe : CreateProbe} {d : AcdData K} (hcommit : ¬ s.inCommit)
      (hd : d ∈ s.acdData) : CallOf s (.linkNowUp createProbe) ⟨d, .linkNowUp, createProbe, s⟩
  | instanceReset {d : AcdData K} (hcommit : ¬ s.inCommit) (hd : d ∈ s.acdData) :
      CallOf s .instanceReset ⟨d, .instanceReset, .failed, s⟩

omit [DecidableEq K] in
theorem idleCall_eq_some {s : AcdSystem K} {mode : AcdStateChangeMode} {createProbe : CreateProbe}
    {c : Call K} (h : idleCall mode createProbe s = some c) :
    ¬ s.inCommit ∧ ∃ d ∈ s.acdData, c = ⟨d, mode, createProbe, s⟩ := by
  unfold idleCall at h
  split_ifs at h with hcommit
  obtain ⟨d, hd, rfl⟩ := Option.map_eq_some_iff.mp h
  exact ⟨hcommit, d, hd, rfl⟩

theorem callOf {s : AcdSystem K} {e : AcdEvent K} {c : Call K} (h : s.call e = some c) :
    CallOf s e c := by
  cases e with
  | commitBegin update =>
    cases update with
    | none => simp [call] at h
    | some u =>
      simp only [call] at h
      split_ifs at h with hcommit
      obtain ⟨d, hd, rfl⟩ := Option.map_eq_some_iff.mp h
      exact .commitBegin hcommit hd
  | commitEnd createProbe =>
    simp only [call] at h
    split_ifs at h with hcommit
    obtain ⟨d, hd, rfl⟩ := Option.map_eq_some_iff.mp h
    exact .commitEnd hcommit hd
  | externalAdded createProbe =>
    obtain ⟨d, hd, rfl⟩ := Option.map_eq_some_iff.mp h
    exact .externalAdded hd
  | externalRemoved stillOnLink =>
    obtain ⟨d, hd, rfl⟩ := Option.map_eq_some_iff.mp h
    exact .externalRemoved hd
  | elapse msec => simp [call] at h
  | nacdTimer => simp [call] at h
  | nacdPacket packet => simp [call] at h
  | nacdPopEvent createProbe =>
    simp only [call] at h
    split_ifs at h with hcommit
    obtain ⟨d, hd, h⟩ := Option.bind_eq_some_iff.mp h
    obtain ⟨probe, hprobe, h⟩ := Option.bind_eq_some_iff.mp h
    obtain ⟨event, hevent, rfl⟩ := Option.map_eq_some_iff.mp h
    exact .nacdPopEvent hcommit hd hprobe (List.mem_of_mem_head? hevent)
  | timeout createProbe =>
    obtain ⟨c₀, hc₀, h⟩ := Option.bind_eq_some_iff.mp h
    obtain ⟨hcommit, d, hd, rfl⟩ := idleCall_eq_some hc₀
    split_ifs at h with htimer
    obtain rfl := Option.some.inj h
    exact .timeout hcommit hd htimer
  | nacdDown createProbe =>
    obtain ⟨hcommit, d, hd, rfl⟩ := idleCall_eq_some h
    exact .nacdDown hcommit hd
  | linkNowUp createProbe =>
    obtain ⟨hcommit, d, hd, rfl⟩ := idleCall_eq_some h
    exact .linkNowUp hcommit hd
  | instanceReset =>
    obtain ⟨hcommit, d, hd, rfl⟩ := idleCall_eq_some h
    exact .instanceReset hcommit hd

end AcdSystem

end NetworkManager.Core
