import Mathlib.Order.Nat
import Mathlib.Algebra.Order.Ring.Int

/-!
# IPv4 address conflict detection

`NML3Cfg` keeps an `AcdData` for every IPv4 address that somebody wants to configure. The
configurations that want it are its trackers, each with a timeout for probing and with the way
in which to defend the address. `_l3_acd_data_state_change()` moves the `AcdData` from state to
state. Probing and announcing is done by n-acd, of which a probe and the events that it has
queued are modelled. Log messages, signals and the request for another commit are left out.
-/

namespace NetworkManager.Core

/-! ## The data -/

inductive NML3AcdAddrState
  | init
  | probing
  | used
  | ready
  | defending
  | conflict
  | externalRemoved
  deriving DecidableEq

inductive NML3AcdDefendType
  | none
  | never
  | once
  | always
  deriving DecidableEq

def NML3AcdDefendType.toNat : NML3AcdDefendType → ℕ
  | .none => 0
  | .never => 1
  | .once => 2
  | .always => 3

theorem NML3AcdDefendType.toNat_injective : Function.Injective toNat := by
  intro a b h
  cases a <;> cases b <;> first | rfl | exact absurd h (by decide)

instance : LinearOrder NML3AcdDefendType :=
  LinearOrder.lift' NML3AcdDefendType.toNat NML3AcdDefendType.toNat_injective

theorem NML3AcdDefendType.once_ne_none : NML3AcdDefendType.once ≠ .none := by decide

theorem NML3AcdDefendType.none_le (a : NML3AcdDefendType) : .none ≤ a := Nat.zero_le a.toNat

/-- `NML3AcdAddrTrackInfo` with its `_priv`. The key is the triple of configuration, object and
tag. `nm_l3cfg_add_config()` takes no other types than never, once and always. -/
structure AcdTrackInfo (K : Type*) where
  key : K
  dirty : Bool
  timeoutMsec : ℕ
  defendType : NML3AcdDefendType
  defendType_ne : defendType ≠ .none
  deriving DecidableEq

/-- What a configuration wants for one of its addresses. -/
structure AcdTrackConf (K : Type*) where
  key : K
  timeoutMsec : ℕ
  defendType : NML3AcdDefendType
  defendType_ne : defendType ≠ .none
  deriving DecidableEq

/-- `N_ACD_PROBE_STATE_*` -/
inductive NAcdProbeState
  | probing
  | configuring
  | announcing
  | failed
  deriving DecidableEq

/-- `N_ACD_EVENT_*`, as far as they are about one probe. -/
inductive NAcdEvent
  | ready
  | used
  | defended
  | conflict
  deriving DecidableEq

/-- `NAcdProbe`. Its timer and the number of packets that it has sent are not modelled. Only
while it is linked it gets to see packets. -/
structure NAcdProbe where
  timeoutMsec : ℕ
  state : NAcdProbeState
  defend : NML3AcdDefendType
  linked : Bool
  events : List NAcdEvent
  deriving DecidableEq

/-- `AcdData`. Of a pending timeout there is the delay with which it was scheduled. -/
structure AcdData (K : Type*) where
  trackInfos : List (AcdTrackInfo K)
  trackInfosChanged : Bool
  state : NML3AcdAddrState
  nacdProbe : Option NAcdProbe
  timeoutSource : Option ℕ
  probingTimestampMsec : ℕ
  probingTimeoutMsec : ℕ
  defendTypeDesired : NML3AcdDefendType
  defendTypeCurrent : NML3AcdDefendType
  defendTypeIsActive : Bool
  deriving DecidableEq

def waitProbingExtraTimeMsec : ℕ := 5000

def waitProbingExtraTime2Msec : ℕ := 1000

def waitTimeProbingFullRestartMsec : ℕ := 30000

def waitTimeConflictRestartMsec : ℕ := 120000

def waitTimeAnnounceRestartMsec : ℕ := 30000

def acdTimeoutMaxMsec : ℕ := 30000

def maxUint32 : ℕ := 2 ^ 32 - 1

/-! ## Probes -/

def nAcdProbeNew (timeoutMsec : ℕ) : NAcdProbe where
  timeoutMsec
  state := .probing
  defend := .never
  linked := true
  events := []

def NAcdProbe.announce (defend : NML3AcdDefendType) (probe : NAcdProbe) : NAcdProbe :=
  { probe with state := .announcing, defend }

def NAcdProbe.raise (event : NAcdEvent) (probe : NAcdProbe) : NAcdProbe :=
  { probe with events := probe.events ++ [event] }

def NAcdProbe.fail (event : NAcdEvent) (probe : NAcdProbe) : NAcdProbe :=
  { probe.raise event with state := .failed, linked := false }

/-- `n_acd_probe_handle_timeout()`, when all packets have been sent. -/
def NAcdProbe.handleTimeout (probe : NAcdProbe) : NAcdProbe :=
  match probe.state with
  | .probing => { probe.raise .ready with state := .configuring }
  | .configuring | .announcing | .failed => probe

/-- What `n_acd_probe_handle_packet()` finds: whether the sender uses the address, whether the
address was defended a short while ago, and whether the packet that defends it is dropped. -/
structure NAcdPacket where
  hardConflict : Bool
  rateLimited : Bool
  dropped : Bool
  deriving DecidableEq

def NAcdPacket.answer (packet : NAcdPacket) : NML3AcdDefendType → NAcdEvent
  | .none | .never => .conflict
  | .once => if packet.rateLimited || packet.dropped then .conflict else .defended
  | .always => .defended

def NAcdProbe.handlePacket (packet : NAcdPacket) (probe : NAcdProbe) : NAcdProbe :=
  match probe.state with
  | .probing => probe.fail .used
  | .configuring => probe
  | .announcing =>
    if packet.hardConflict then
      match packet.answer probe.defend with
      | .conflict => probe.fail .conflict
      | event => probe.raise event
    else probe
  | .failed => probe

/-! ## Trackers -/

section tracks

variable {K : Type*} (loopback : Bool)

/-- The trackers that `dirty_selector` asks for. -/
def AcdData.selectTracks (dirtySelector : Option Bool) (d : AcdData K) : List (AcdTrackInfo K) :=
  d.trackInfos.filter fun t => dirtySelector.all (· == t.dirty)

def bestTimeoutMsec (tracks : List (AcdTrackInfo K)) : ℕ :=
  tracks.foldl (fun best t => if best > t.timeoutMsec then t.timeoutMsec else best) maxUint32

def bestDefendType (tracks : List (AcdTrackInfo K)) : NML3AcdDefendType :=
  tracks.foldl (fun best t => if best < t.defendType then t.defendType else best) .none

/-- What `_acd_data_collect_tracks_data()` returns: the number of trackers, their shortest
timeout and their strongest defend type. -/
structure TracksData where
  n : ℕ
  bestAcdTimeoutMsec : ℕ
  bestAcdDefendType : NML3AcdDefendType

def AcdData.collectTracksData (dirtySelector : Option Bool) (d : AcdData K) : TracksData :=
  let tracks := d.selectTracks dirtySelector
  { n := tracks.length
    bestAcdTimeoutMsec :=
      if tracks.length > 0 then (if loopback then 0 else bestTimeoutMsec tracks) else 0
    bestAcdDefendType := bestDefendType tracks }

end tracks

/-! ## State changes -/

/-- How `_l3_acd_nacd_instance_create_probe()` comes out. -/
inductive CreateProbe
  | created
  | failed
  | notSupported
  deriving DecidableEq

/-- What a state change finds around it. After an interface turned out not to support ACD,
a second attempt to create a probe is rate limited and fails. -/
structure AcdEnv where
  loopback : Bool
  onLink : Bool
  commitReentrant : Bool
  nowMsec : ℕ
  createProbe : CreateProbe
  deriving DecidableEq

inductive AcdStateChangeMode
  | nacdConflict
  | nacdDefended
  | nacdDown
  | nacdReady
  | nacdUsed
  | init
  | initReapply
  | postCommit
  | externalAdded
  | externalRemoved
  | linkNowUp
  | instanceReset
  | timeout
  deriving DecidableEq

/-- Where a state change goes: the data, whether all went well with the branches marked
`nm_assert_not_reached()` and with the assertions about the state and its probe, the timeout and
the fate of the probe with which `handle_start_probing` wanted to begin, and the defend type with
which `n_acd_probe_announce()` was called. -/
structure AcdOutcome (K : Type*) where
  data : AcdData K
  ok : Bool
  probeRequest : Option (ℕ × CreateProbe)
  announced : Option NML3AcdDefendType
  deriving DecidableEq

section stateChange

variable {K : Type*}

def AcdData.done (d : AcdData K) : AcdOutcome K := ⟨d, true, none, none⟩

def AcdData.notReached (d : AcdData K) : AcdOutcome K := ⟨d, false, none, none⟩

def AcdOutcome.assert (cond : Bool) (o : AcdOutcome K) : AcdOutcome K :=
  { o with ok := cond && o.ok }

@[simp] theorem AcdData.done_data (d : AcdData K) : d.done.data = d := rfl

@[simp] theorem AcdData.done_ok (d : AcdData K) : d.done.ok = true := rfl

@[simp] theorem AcdData.done_probeRequest (d : AcdData K) : d.done.probeRequest = none := rfl

@[simp] theorem AcdData.done_announced (d : AcdData K) : d.done.announced = none := rfl

@[simp] theorem AcdOutcome.assert_data (cond : Bool) (o : AcdOutcome K) :
    (o.assert cond).data = o.data := rfl

@[simp] theorem AcdOutcome.assert_ok (cond : Bool) (o : AcdOutcome K) :
    (o.assert cond).ok = (cond && o.ok) := rfl

@[simp] theorem AcdOutcome.assert_probeRequest (cond : Bool) (o : AcdOutcome K) :
    (o.assert cond).probeRequest = o.probeRequest := rfl

@[simp] theorem AcdOutcome.assert_announced (cond : Bool) (o : AcdOutcome K) :
    (o.assert cond).announced = o.announced := rfl

def AcdData.stateSet (state : NML3AcdAddrState) (d : AcdData K) : AcdData K :=
  if d.state = state then d else { d with state, timeoutSource := none }

def AcdData.freeProbe (d : AcdData K) : AcdData K := { d with nacdProbe := none }

@[simp] theorem AcdData.freeProbe_nacdProbe (d : AcdData K) : d.freeProbe.nacdProbe = none := rfl

@[simp] theorem AcdData.freeProbe_state (d : AcdData K) : d.freeProbe.state = d.state := rfl

@[simp] theorem AcdData.freeProbe_timeoutSource (d : AcdData K) :
    d.freeProbe.timeoutSource = d.timeoutSource := rfl

/-- The source is cleared before `_l3_acd_data_timeout_cb()` hands the data over. -/
def AcdData.clearTimeout (d : AcdData K) : AcdData K := { d with timeoutSource := none }

@[simp] theorem AcdData.clearTimeout_state (d : AcdData K) : d.clearTimeout.state = d.state := rfl

@[simp] theorem AcdData.clearTimeout_nacdProbe (d : AcdData K) :
    d.clearTimeout.nacdProbe = d.nacdProbe := rfl

def AcdData.popEvent (probe : NAcdProbe) (d : AcdData K) : AcdData K :=
  { d with nacdProbe := some { probe with events := probe.events.tail } }

@[simp] theorem AcdData.popEvent_state (probe : NAcdProbe) (d : AcdData K) :
    (d.popEvent probe).state = d.state := rfl

def AcdData.timeoutSchedule (timeoutMsec : ℕ) (d : AcdData K) : AcdOutcome K :=
  ({ d with timeoutSource := some (min timeoutMsec maxUint32) }).done.assert
    (d.state matches .probing | .used | .defending | .conflict)

def AcdData.timeoutScheduleProbingRestart (nowMsec : ℕ) (d : AcdData K) : AcdOutcome K :=
  let expiryMsec := d.probingTimestampMsec + waitProbingExtraTimeMsec
  (d.timeoutSchedule (min (expiryMsec - nowMsec) 1500)).assert
    (d.state = .probing && d.nacdProbe.isNone)

variable (env : AcdEnv)

def AcdData.updateDefendType (d : AcdData K) : AcdData K :=
  if d.defendTypeDesired ≠ d.defendTypeCurrent then
    { d with defendTypeCurrent := d.defendTypeDesired, nacdProbe := none }
  else d

def AcdData.announceProbe (d : AcdData K) : AcdData K :=
  { d with
    defendTypeIsActive := true
    nacdProbe := d.nacdProbe.map (NAcdProbe.announce d.defendTypeCurrent) }

/-- The call of `n_acd_probe_announce()`. -/
def AcdData.announceNow (d : AcdData K) : AcdOutcome K :=
  { d.announceProbe.done with announced := some d.defendTypeCurrent }

@[simp] theorem AcdData.announceNow_data (d : AcdData K) : d.announceNow.data = d.announceProbe := rfl

@[simp] theorem AcdData.announceNow_probeRequest (d : AcdData K) :
    d.announceNow.probeRequest = none := rfl

/-- The probe of an address that is configured is announced, or created where there is none. -/
def AcdData.announce (d : AcdData K) : AcdOutcome K :=
  match d.nacdProbe with
  | none =>
    if d.timeoutSource.isSome then d.done
    else if env.createProbe = .created then
      ({ d with defendTypeIsActive := false, nacdProbe := some (nAcdProbeNew 0) }).done
    else d.timeoutSchedule waitTimeAnnounceRestartMsec
  | some _ => if d.defendTypeIsActive then d.done else d.announceNow

def AcdData.handleStartDefending (d : AcdData K) : AcdOutcome K :=
  if env.onLink then (d.stateSet .defending).updateDefendType.announce env
  else (d.stateSet .ready).done

def AcdData.handleProbingDone (mode : AcdStateChangeMode) (d : AcdData K) : AcdOutcome K :=
  match d.state with
  | .init | .used | .ready | .defending | .externalRemoved => d.handleStartDefending env
  | .probing =>
    (if mode ≠ .nacdReady then d.freeProbe else d).handleStartDefending env
  | .conflict => d.done

/-- What follows on the attempt to create a probe. -/
def AcdData.startProbe (d : AcdData K) : AcdOutcome K :=
  match env.createProbe with
  | .notSupported => d.freeProbe.handleStartDefending env
  | .failed => (d.freeProbe.stateSet .probing).timeoutScheduleProbingRestart env.nowMsec
  | .created =>
    ({ d with nacdProbe := some (nAcdProbeNew d.probingTimeoutMsec) }.stateSet .probing).done

def AcdData.handleStartProbing (d : AcdData K) : AcdOutcome K :=
  { (d.startProbe env).assert (d.state matches .init | .probing | .used | .conflict) with
    probeRequest := some (d.probingTimeoutMsec, env.createProbe) }

def AcdData.setProbing (timeoutMsec : ℕ) (d : AcdData K) : AcdData K :=
  { d with probingTimestampMsec := env.nowMsec, probingTimeoutMsec := timeoutMsec }

def AcdData.setDesired (tracks : TracksData) (d : AcdData K) : AcdData K :=
  { d with defendTypeDesired := tracks.bestAcdDefendType }

def AcdData.handleInit (mode : AcdStateChangeMode) (d : AcdData K) : AcdOutcome K :=
  let tracks := d.collectTracksData env.loopback (some false)
  if tracks.n = 0 then d.done
  else if tracks.bestAcdTimeoutMsec = 0 || env.onLink then
    ((d.freeProbe.setDesired tracks).stateSet .ready).done
  else if mode = .initReapply then (d.freeProbe.stateSet .init).done
  else d.done

/-- `ACD_STATE_CHANGE_MODE_INIT` and `ACD_STATE_CHANGE_MODE_INIT_REAPPLY` -/
def AcdData.changeInit (mode : AcdStateChangeMode) (d : AcdData K) : AcdOutcome K :=
  match d.state with
  | .probing | .init | .used => d.handleInit env mode
  | .externalRemoved | .conflict | .ready | .defending =>
    if mode ≠ .initReapply then d.done else d.handleInit env mode

/-- `ACD_STATE_CHANGE_MODE_POST_COMMIT` while probing with a timeout of `timeoutMsec`: only a
timeout that expires earlier is taken over. -/
def AcdData.postCommitProbing (timeoutMsec : ℕ) (d : AcdData K) : AcdOutcome K :=
  if env.nowMsec + timeoutMsec ≥ d.probingTimestampMsec + d.probingTimeoutMsec then d.done
  else if d.nacdProbe.isNone then (d.setProbing env timeoutMsec).timeoutSchedule 0
  else (d.setProbing env timeoutMsec).handleStartProbing env

/-- `ACD_STATE_CHANGE_MODE_POST_COMMIT` while the address is not on the link. -/
def AcdData.postCommitOffLink (timeoutMsec : ℕ) (d : AcdData K) : AcdOutcome K :=
  if timeoutMsec = 0 then d.handleProbingDone env .postCommit
  else
    match d.state with
    | .init => ((d.setProbing env timeoutMsec).handleStartProbing env).assert d.nacdProbe.isNone
    | .probing => d.postCommitProbing env timeoutMsec
    | .used | .conflict => d.done
    | .ready | .defending => d.handleStartDefending env
    | .externalRemoved => d.notReached

def AcdData.clearTrackInfosChanged (d : AcdData K) : AcdData K :=
  { d with trackInfosChanged := false }

/-- `ACD_STATE_CHANGE_MODE_POST_COMMIT` -/
def AcdData.changePostCommit (data : AcdData K) : AcdOutcome K :=
  let d := data.clearTrackInfosChanged
  if env.onLink then d.handleProbingDone env .postCommit
  else if d.state = .externalRemoved then d.done
  else
    let tracks := d.collectTracksData env.loopback (some true)
    ((d.setDesired tracks).postCommitOffLink env tracks.bestAcdTimeoutMsec).assert (tracks.n > 0)

/-- `ACD_STATE_CHANGE_MODE_TIMEOUT`: the address is probed again, if it is not good already. -/
def AcdData.timeoutRestart (timeoutMsec : ℕ) (d : AcdData K) : AcdOutcome K :=
  if timeoutMsec = 0 then d.handleProbingDone env .timeout
  else if env.onLink then d.handleProbingDone env .timeout
  else if d.state = .probing then
    if env.nowMsec >
        d.probingTimestampMsec + waitProbingExtraTimeMsec + waitProbingExtraTime2Msec then
      d.handleStartDefending env
    else d.handleStartProbing env
  else (d.setProbing env timeoutMsec).handleStartProbing env

/-- `ACD_STATE_CHANGE_MODE_TIMEOUT` while there is no probe and the address is not defended. -/
def AcdData.timeoutNoProbe (d : AcdData K) : AcdOutcome K :=
  let tracks := d.collectTracksData env.loopback (some true)
  ((d.setDesired tracks).timeoutRestart env tracks.bestAcdTimeoutMsec).assert
    (tracks.n > 0 && d.nacdProbe.isNone)

/-- `ACD_STATE_CHANGE_MODE_TIMEOUT` -/
def AcdData.changeTimeout (d : AcdData K) : AcdOutcome K :=
  match d.state with
  | .init | .ready | .externalRemoved => d.notReached
  | .probing => if d.nacdProbe.isSome then d.done else d.timeoutNoProbe env
  | .used | .conflict => d.timeoutNoProbe env
  | .defending => (d.handleStartDefending env).assert d.nacdProbe.isNone

def AcdData.ensureTimeout (timeoutMsec : ℕ) (d : AcdData K) : AcdOutcome K :=
  if d.timeoutSource.isSome then d.done else d.timeoutSchedule timeoutMsec

/-- `ACD_STATE_CHANGE_MODE_NACD_USED` -/
def AcdData.changeNacdUsed (d : AcdData K) : AcdOutcome K :=
  ((d.freeProbe.stateSet .used).ensureTimeout waitTimeProbingFullRestartMsec).assert
    (d.state = .probing && d.nacdProbe.isSome)

/-- `ACD_STATE_CHANGE_MODE_NACD_CONFLICT` -/
def AcdData.changeNacdConflict (d : AcdData K) : AcdOutcome K :=
  ((d.freeProbe.stateSet .conflict).ensureTimeout waitTimeConflictRestartMsec).assert
    (d.state = .defending)

/-- `ACD_STATE_CHANGE_MODE_NACD_DEFENDED` -/
def AcdData.changeNacdDefended (d : AcdData K) : AcdOutcome K :=
  d.done.assert (d.state = .defending)

/-- `ACD_STATE_CHANGE_MODE_NACD_READY` -/
def AcdData.changeNacdReady (d : AcdData K) : AcdOutcome K :=
  match d.state with
  | .probing => (d.freeProbe.handleProbingDone env .nacdReady).assert d.nacdProbe.isSome
  | .defending => d.announceNow
  | .init | .used | .ready | .conflict | .externalRemoved => d.notReached

/-- `ACD_STATE_CHANGE_MODE_EXTERNAL_ADDED` -/
def AcdData.changeExternalAdded (d : AcdData K) : AcdOutcome K :=
  if env.commitReentrant then d.done
  else
    match d.state with
    | .init => d.notReached
    | .ready | .defending => d.handleStartDefending env
    | .probing | .used | .conflict | .externalRemoved => d.handleProbingDone env .externalAdded

/-- `ACD_STATE_CHANGE_MODE_EXTERNAL_REMOVED` -/
def AcdData.changeExternalRemoved (d : AcdData K) : AcdOutcome K :=
  if env.commitReentrant then d.done
  else if env.onLink then d.done
  else (d.freeProbe.stateSet .externalRemoved).done

/-- `ACD_STATE_CHANGE_MODE_NACD_DOWN` and `ACD_STATE_CHANGE_MODE_LINK_NOW_UP` -/
def AcdData.changeLink (d : AcdData K) : AcdOutcome K :=
  match d.state with
  | .init => d.notReached
  | .probing =>
    if d.nacdProbe.isNone then d.done
    else if d.probingTimestampMsec + d.probingTimeoutMsec + waitProbingExtraTimeMsec +
        waitProbingExtraTime2Msec ≥ env.nowMsec then d.done
    else d.freeProbe.handleStartProbing env
  | .ready | .defending | .used | .conflict | .externalRemoved => d.done

/-- `ACD_STATE_CHANGE_MODE_INSTANCE_RESET` -/
def AcdData.changeInstanceReset (d : AcdData K) : AcdOutcome K :=
  (({ d.freeProbe with probingTimestampMsec := env.nowMsec }.stateSet .probing).timeoutSchedule
    0).assert !(d.state matches .init)

/-- The switch of `_l3_acd_data_state_change()` -/
def AcdData.switchMode (mode : AcdStateChangeMode) (d : AcdData K) : AcdOutcome K :=
  match mode with
  | .init | .initReapply => d.changeInit env mode
  | .postCommit => d.changePostCommit env
  | .timeout => d.changeTimeout env
  | .nacdUsed => d.changeNacdUsed
  | .nacdDefended => d.changeNacdDefended
  | .nacdConflict => d.changeNacdConflict
  | .nacdReady => d.changeNacdReady env
  | .externalAdded => d.changeExternalAdded env
  | .externalRemoved => d.changeExternalRemoved env
  | .nacdDown | .linkNowUp => d.changeLink env
  | .instanceReset => d.changeInstanceReset env

def AcdData.stateChange (mode : AcdStateChangeMode) (d : AcdData K) : AcdOutcome K :=
  if d.state = .externalRemoved && !(mode matches .postCommit | .externalAdded) then d.done
  else d.switchMode env mode

end stateChange

end NetworkManager.Core
