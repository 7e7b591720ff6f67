import NetworkManager.Lib.Keyed
import NetworkManager.Lib.Runs
import Mathlib.Algebra.Order.Ring.Int

/-!
# Retries of autoconnect

`NMManager` counts for each device and profile how often autoconnect may still fail, and
`NMPolicy` has one timer that gives the retries back. Devices and profiles are numbered. Every
tuple also carries its history, which no function of the daemon reads.
-/

namespace NetworkManager.Core

open Lib
open List hiding lookup_append lookup_isSome_iff

def autoconnectResetRetriesTimerSec : ℕ := 300

def autoconnectRetriesForever : ℕ := 2 ^ 32 - 1

/-- An `NMSettingsConnection`. -/
structure AutoconnectProfile where
  id : ℕ
  /-- `connection.autoconnect-retries`, unless it is -1. -/
  autoconnectRetries : Option (Fin (2 ^ 31))
  /-- `nm_settings_connection_autoconnect_is_blocked()` -/
  autoconnectIsBlocked : Bool
  deriving DecidableEq

/-- What a tuple went through. -/
structure TupleHistory where
  /-- The retries at the last reset. -/
  initial : ℕ
  /-- The failed activations since then that used up a retry. -/
  failures : ℕ
  /-- The last of them used up the last retry. -/
  usedUp : Bool
  /-- When a failure used up the last retry, unless the tuple was explicitly reset since. -/
  usedUpSec : Option ℕ
  deriving DecidableEq

structure DevConData where
  device : ℕ
  settConn : ℕ
  initialized : Bool
  retries : ℕ
  blockedUntilSec : ℕ
  /-- `blocked_reason` is `NM_SETTINGS_AUTOCONNECT_BLOCKED_REASON_FAILED`. -/
  blockedReasonFailed : Bool
  history : TupleHistory
  deriving DecidableEq

namespace DevConData

def key (d : DevConData) : ℕ × ℕ := (d.device, d.settConn)

/-- The data that `_devcon_lookup_data()` creates. -/
def new (device settConn : ℕ) : DevConData where
  device
  settConn
  initialized := false
  retries := 0
  blockedUntilSec := 0
  blockedReasonFailed := false
  history := ⟨0, 0, false, none⟩

def retriesSet (nowSec retries : ℕ) (d : DevConData) : DevConData :=
  { d with
    initialized := true
    retries
    blockedUntilSec := if retries ≠ 0 then 0 else nowSec + autoconnectResetRetriesTimerSec }

def reset (nowSec initial : ℕ) (explicit : Bool) (d : DevConData) : DevConData :=
  { d.retriesSet nowSec initial with
    history := ⟨initial, 0, false, if explicit then none else d.history.usedUpSec⟩ }

/-- The first `nm_manager_devcon_autoconnect_retries_get()` of a tuple. -/
def firstGet (nowSec initial : ℕ) (d : DevConData) : DevConData :=
  if d.initialized then d
  else { d.retriesSet nowSec initial with
    history := ⟨initial, 0, false, d.history.usedUpSec⟩ }

/-- A failed activation takes one of the retries. -/
def fail (nowSec : ℕ) (d : DevConData) : DevConData :=
  { d.retriesSet nowSec (d.retries - 1) with
    history :=
      { d.history with
        failures := d.history.failures + 1
        usedUp := d.retries - 1 = 0
        usedUpSec := if d.retries - 1 = 0 then some nowSec else d.history.usedUpSec } }

end DevConData

structure RetriesSystem where
  retriesDefault : Fin (2 ^ 31)
  profiles : List AutoconnectProfile
  /-- `devcon_data_dict`, in the order in which the lists link the tuples. -/
  devcon : List DevConData
  /-- When `reset_connections_retries_idle_source` fires. -/
  resetTimer : Option ℕ
  nowSec : ℕ

namespace RetriesSystem

/-! ## The manager -/

def retriesInitial (s : RetriesSystem) (settConn : ℕ) : ℕ :=
  let retries :=
    ((lookup AutoconnectProfile.id settConn s.profiles).bind (·.autoconnectRetries)).getD
      s.retriesDefault
  if retries.val = 0 then autoconnectRetriesForever else retries.val

/-- `_devcon_lookup_data()`, created where it is missing. -/
def lookupData (s : RetriesSystem) (device settConn : ℕ) : DevConData :=
  (lookup DevConData.key (device, settConn) s.devcon).getD (.new device settConn)

def updateData (s : RetriesSystem) (d : DevConData) : RetriesSystem :=
  { s with devcon := upsert DevConData.key d s.devcon }

/-- `nm_manager_devcon_autoconnect_retries_reset()` of all devices -/
def retriesResetAll (s : RetriesSystem) (explicit : Bool) (settConn : ℕ) : RetriesSystem :=
  { s with
    devcon := s.devcon.map fun d =>
      if d.settConn = settConn then d.reset s.nowSec (s.retriesInitial settConn) explicit else d }

def minStamp (a b : ℕ) : ℕ := if a = 0 ∨ (b ≠ 0 ∧ b < a) then b else a

/-- `nm_manager_devcon_autoconnect_retries_blocked_until()` of all devices -/
def blockedUntilAll (s : RetriesSystem) (settConn : ℕ) : ℕ :=
  (s.devcon.filter fun d => d.settConn = settConn).foldl
    (fun stamp d => minStamp stamp d.blockedUntilSec) 0

def isBlocked (s : RetriesSystem) (device settConn : ℕ) : Bool :=
  (lookup AutoconnectProfile.id settConn s.profiles).any (·.autoconnectIsBlocked) ||
    (lookup DevConData.key (device, settConn) s.devcon).any fun d =>
      d.blockedReasonFailed || (d.initialized && d.retries = 0)

/-! ## The policy -/

/-- One profile in the loop of `reset_connections_retries()`, with the smallest stamp so far. -/
def resetProfile (acc : RetriesSystem × ℕ) (settConn : ℕ) : RetriesSystem × ℕ :=
  let conStamp := acc.1.blockedUntilAll settConn
  if conStamp = 0 then acc
  else if conStamp ≤ acc.1.nowSec then (acc.1.retriesResetAll false settConn, acc.2)
  else (acc.1, minStamp acc.2 conStamp)

def resetConnectionsRetries (s : RetriesSystem) : RetriesSystem :=
  let acc := (s.profiles.map (·.id)).foldl resetProfile ({ s with resetTimer := none }, 0)
  { acc.1 with resetTimer := if acc.2 ≠ 0 then some (s.nowSec + (acc.2 - s.nowSec)) else none }

/-- The timer is started as `_connection_autoconnect_retries_set()` does it. -/
def startTimer (s : RetriesSystem) (d : DevConData) : RetriesSystem :=
  if d.retries = 0 ∧ s.resetTimer = none then
    { s with resetTimer := some (s.nowSec + (d.blockedUntilSec - s.nowSec)) }
  else s

/-- How an activation fails. -/
inductive FailureKind
  /-- No secrets, and no agent could have provided them. -/
  | noSecrets
  | dependencyFailed
  | other
  deriving DecidableEq

/-- `device_state_changed()` to `FAILED` during an activation. -/
def deviceFailed (s : RetriesSystem) (device settConn : ℕ) : FailureKind → RetriesSystem
  | .noSecrets =>
    { s with
      profiles := modifyKey AutoconnectProfile.id settConn
        (fun p => { p with autoconnectIsBlocked := true }) s.profiles }
  | .dependencyFailed =>
    s.updateData { s.lookupData device settConn with blockedReasonFailed := true }
  | .other =>
    let d := (s.lookupData device settConn).firstGet s.nowSec (s.retriesInitial settConn)
    if d.retries = 0 ∨ d.retries = autoconnectRetriesForever then s.updateData d
    else (s.updateData (d.fail s.nowSec)).startTimer (d.fail s.nowSec)

/-! ## Runs -/

/-- What happens. -/
inductive RetriesEvent
  | failed (device settConn : ℕ) (kind : FailureKind)
  | activated (device settConn : ℕ)
  /-- The device reaches `IP_CONFIG`: it is not blocked as failed any more. -/
  | ipConfig (device settConn : ℕ)
  /-- An IWD device that retries by itself starts the activation. -/
  | iwdConfig (device settConn : ℕ)
  /-- Carrier, controller activation, sleep or an update reset profiles on all devices. -/
  | explicitReset (settConns : List ℕ)
  | blockedReasonReset (settConn : ℕ)
  | profileAdded (profile : AutoconnectProfile)
  /-- The retries of a profile, or what blocks it, change otherwise. -/
  | profileChanged (profile : AutoconnectProfile)
  | profileRemoved (settConn : ℕ)
  | deviceRemoved (device : ℕ)
  | elapse (sec : ℕ)
  /-- The timer fires. -/
  | resetTimer

def start (retriesDefault : Fin (2 ^ 31)) : RetriesSystem where
  retriesDefault
  profiles := []
  devcon := []
  resetTimer := none
  nowSec := 1

def ifProfile (s : RetriesSystem) (settConn : ℕ) (s' : RetriesSystem) : RetriesSystem :=
  if (lookup AutoconnectProfile.id settConn s.profiles).isSome then s' else s

def step (s : RetriesSystem) : RetriesEvent → RetriesSystem
  | .failed device settConn kind => s.ifProfile settConn (s.deviceFailed device settConn kind)
  | .activated device settConn =>
    s.ifProfile settConn (s.updateData
      ((s.lookupData device settConn).reset s.nowSec (s.retriesInitial settConn) true))
  | .ipConfig device settConn =>
    s.ifProfile settConn (s.updateData
      { s.lookupData device settConn with blockedReasonFailed := false })
  | .iwdConfig device settConn =>
    s.ifProfile settConn (s.updateData ((s.lookupData device settConn).retriesSet s.nowSec 0))
  | .explicitReset settConns => settConns.foldl (fun s p => s.retriesResetAll true p) s
  | .blockedReasonReset settConn =>
    { s with
      devcon := s.devcon.map fun d =>
        if d.settConn = settConn then { d with blockedReasonFailed := false } else d }
  | .profileAdded profile =>
    if (lookup AutoconnectProfile.id profile.id s.profiles).isSome then s
    else { s with profiles := s.profiles ++ [profile] }
  | .profileChanged profile =>
    { s with
      profiles := modifyKey AutoconnectProfile.id profile.id (fun _ => profile) s.profiles }
  | .profileRemoved settConn =>
    { s with
      profiles := eraseKey AutoconnectProfile.id settConn s.profiles
      devcon := s.devcon.filter fun d => d.settConn ≠ settConn }
  | .deviceRemoved device => { s with devcon := s.devcon.filter fun d => d.device ≠ device }
  | .elapse sec => { s with nowSec := s.nowSec + sec }
  | .resetTimer =>
    match s.resetTimer with
    | none => s
    | some deadline => if deadline ≤ s.nowSec then s.resetConnectionsRetries else s

end RetriesSystem

/-!
## Retries are accounted per tuple

All tuples are blocked for the same time, so a timer that is pending fires before any tuple that is
blocked later is due, and it is set again for the earliest one that is left. The timer gives the
retries back to all tuples of a profile: no tuple is unblocked early if and only if these
are all due.
-/

/-! ## What soundness means -/

namespace RetriesSystem

/-- The counters of a state are right. -/
structure Sound (s : RetriesSystem) : Prop where
  /-- The timer fires in time for every tuple that used up its retries. -/
  timer : ∀ d ∈ s.devcon, d.history.usedUp = true →
    ∃ deadline ∈ s.resetTimer, deadline ≤ d.blockedUntilSec
  /-- A tuple stays blocked after it used up its retries. -/
  blocked : ∀ d ∈ s.devcon, ∀ t ∈ d.history.usedUpSec,
    s.nowSec < t + autoconnectResetRetriesTimerSec → s.isBlocked d.device d.settConn = true
  /-- A tuple does not fail more often than its retries allow. -/
  failures : ∀ d ∈ s.devcon, d.initialized = true → d.history.initial ≠ autoconnectRetriesForever →
    d.history.failures ≤ d.history.initial ∧
      (d.history.failures = d.history.initial → s.isBlocked d.device d.settConn = true)

/-- When the timer fires, the tuples of a profile are due together. -/
def InReach (s : RetriesSystem) : RetriesEvent → Prop
  | .resetTimer => ∀ d ∈ s.devcon, d.blockedUntilSec ≠ 0 → d.blockedUntilSec ≤ s.nowSec →
      ∀ d' ∈ s.devcon, d'.settConn = d.settConn → d'.blockedUntilSec ≤ s.nowSec
  | _ => True

end RetriesSystem

/-! ## Tuples -/

namespace DevConData

variable {d : DevConData} {nowSec initial : ℕ}

@[simp] theorem retriesSet_key (nowSec retries : ℕ) (d : DevConData) :
    (d.retriesSet nowSec retries).key = d.key := rfl

@[simp] theorem reset_key (nowSec initial : ℕ) (explicit : Bool) (d : DevConData) :
    (d.reset nowSec initial explicit).key = d.key := rfl

@[simp] theorem fail_key (nowSec : ℕ) (d : DevConData) : (d.fail nowSec).key = d.key := rfl

@[simp] theorem firstGet_key (nowSec initial : ℕ) (d : DevConData) :
    (d.firstGet nowSec initial).key = d.key := by
  unfold firstGet
  split_ifs <;> rfl

/-- What holds of a tuple besides the timer. -/
structure Fine (nowSec : ℕ) (d : DevConData) : Prop where
  fresh : d.initialized = false → d.history.usedUpSec = none
  stamp_le : d.blockedUntilSec ≤ nowSec + autoconnectResetRetriesTimerSec
  usedUp : d.history.usedUp = true → d.blockedUntilSec ≠ 0
  usedUpSec_le : ∀ t ∈ d.history.usedUpSec, t ≤ nowSec
  blocked : ∀ t ∈ d.history.usedUpSec, nowSec < t + autoconnectResetRetriesTimerSec →
    d.initialized = true ∧ d.retries = 0 ∧
      t + autoconnectResetRetriesTimerSec ≤ d.blockedUntilSec
  failures : d.history.initial = autoconnectRetriesForever ∨
    d.history.failures + d.retries ≤ d.history.initial

theorem new_fine (nowSec device settConn : ℕ) : Fine nowSec (new device settConn) := by
  constructor <;> simp [new]

theorem Fine.elapse (h : d.Fine nowSec) (sec : ℕ) : d.Fine (nowSec + sec) := by
  obtain ⟨hfresh, hstamp, husedUp, hle, hblocked, hfailures⟩ := h
  refine ⟨hfresh, by omega, husedUp, fun t ht => ?_, fun t ht hlt => ?_, hfailures⟩
  · have := hle t ht
    omega
  · exact hblocked t ht (by omega)

theorem Fine.blockedReason (h : d.Fine nowSec) (failed : Bool) :
    Fine nowSec { d with blockedReasonFailed := failed } :=
  ⟨h.fresh, h.stamp_le, h.usedUp, h.usedUpSec_le, h.blocked, h.failures⟩

theorem Fine.retriesSet_zero (h : d.Fine nowSec) : (d.retriesSet nowSec 0).Fine nowSec := by
  obtain ⟨-, hstamp, husedUp, hle, hblocked, hfailures⟩ := h
  refine ⟨by simp [retriesSet], Nat.le_refl _, fun _ => by simp [retriesSet, autoconnectResetRetriesTimerSec], hle,
    fun t ht hlt => ⟨rfl, rfl, ?_⟩, ?_⟩
  · exact Nat.add_le_add_right (hle t ht) _
  · simp only [retriesSet]
    omega

theorem Fine.reset (h : d.Fine nowSec) {explicit : Bool} (hinitial : initial ≠ 0)
    (hdue : explicit = true ∨ d.blockedUntilSec ≤ nowSec) :
    (d.reset nowSec initial explicit).Fine nowSec := by
  have hstamp : (d.reset nowSec initial explicit).blockedUntilSec = 0 := by
    simp [DevConData.reset, retriesSet, hinitial]
  refine ⟨by simp [DevConData.reset, retriesSet], by omega, by simp [DevConData.reset], ?_, ?_, ?_⟩
  · intro t ht
    cases explicit with
    | true => simp [DevConData.reset] at ht
    | false => exact h.usedUpSec_le t ht
  · intro t ht hlt
    cases explicit with
    | true => simp [DevConData.reset] at ht
    | false =>
      -- The tuple is due, so the time since its last failure is over.
      obtain ⟨-, -, hle⟩ := h.blocked t ht hlt
      have hdue : d.blockedUntilSec ≤ nowSec := by simpa using hdue
      omega
  · simp [DevConData.reset, retriesSet]

theorem Fine.firstGet (h : d.Fine nowSec) (hinitial : initial ≠ 0) :
    (d.firstGet nowSec initial).Fine nowSec := by
  unfold DevConData.firstGet
  split_ifs with hinit
  · exact h
  · have hnone := h.fresh (by simpa using hinit)
    refine ⟨by simp [retriesSet], by simp [retriesSet, hinitial], by simp, ?_, ?_, ?_⟩ <;>
      simp [hnone, retriesSet]

theorem Fine.fail (h : d.Fine nowSec) (hretries : d.retries ≠ 0) :
    (d.fail nowSec).Fine nowSec := by
  obtain ⟨-, hstamp, husedUp, hle, hblocked, hfailures⟩ := h
  by_cases hlast : d.retries - 1 = 0
  · refine ⟨by simp [DevConData.fail, retriesSet], ?_, ?_, ?_, ?_, ?_⟩
    · simp [DevConData.fail, retriesSet, hlast]
    · simp [DevConData.fail, retriesSet, hlast, autoconnectResetRetriesTimerSec]
    · simp [DevConData.fail, hlast]
    · simp [DevConData.fail, retriesSet, hlast]
    · simp only [DevConData.fail, retriesSet]
      omega
  · refine ⟨by simp [DevConData.fail, retriesSet], ?_, ?_, ?_, ?_, ?_⟩
    · simp [DevConData.fail, retriesSet, hlast]
    · simp [DevConData.fail, hlast]
    · simpa [DevConData.fail, hlast] using hle
    · intro t ht hlt
      have ht' : t ∈ d.history.usedUpSec := by simpa [DevConData.fail, hlast] using ht
      exact absurd (hblocked t ht' hlt).2.1 hretries
    · simp only [DevConData.fail, retriesSet]
      omega

end DevConData

namespace RetriesSystem

variable {s : RetriesSystem} {b a settConn : ℕ} {d : DevConData} {done : List ℕ}
  {acc : RetriesSystem × ℕ}

theorem retriesInitial_ne_zero (s : RetriesSystem) (settConn : ℕ) : s.retriesInitial settConn ≠ 0 := by
  unfold retriesInitial
  dsimp only
  split_ifs with h
  · decide
  · exact h

/-! ## Stamps -/

theorem minStamp_eq_zero : minStamp a b = 0 ↔ a = 0 ∧ b = 0 := by
  unfold minStamp
  split_ifs <;> omega

theorem minStamp_le :
    (a ≠ 0 → minStamp a b ≤ a) ∧ (b ≠ 0 → minStamp a b ≤ b) ∧
      (minStamp a b = a ∨ minStamp a b = b) := by
  unfold minStamp
  split_ifs <;> omega

theorem foldl_minStamp (l : List DevConData) (stamp : ℕ) :
    (stamp ≠ 0 → l.foldl (fun stamp d => minStamp stamp d.blockedUntilSec) stamp ≤ stamp ∧
      l.foldl (fun stamp d => minStamp stamp d.blockedUntilSec) stamp ≠ 0) ∧
    (∀ d ∈ l, d.blockedUntilSec ≠ 0 →
      l.foldl (fun stamp d => minStamp stamp d.blockedUntilSec) stamp ≤ d.blockedUntilSec ∧
      l.foldl (fun stamp d => minStamp stamp d.blockedUntilSec) stamp ≠ 0) ∧
    (l.foldl (fun stamp d => minStamp stamp d.blockedUntilSec) stamp = stamp ∨
      ∃ d ∈ l, l.foldl (fun stamp d => minStamp stamp d.blockedUntilSec) stamp =
        d.blockedUntilSec) := by
  induction l generalizing stamp with
  | nil => simp
  | cons d l ih =>
    obtain ⟨hstart, hall, hone⟩ := ih (minStamp stamp d.blockedUntilSec)
    obtain ⟨hlea, hleb, heq⟩ := minStamp_le (a := stamp) (b := d.blockedUntilSec)
    have hzero := minStamp_eq_zero (a := stamp) (b := d.blockedUntilSec)
    simp only [foldl_cons]
    refine ⟨fun hne => ?_, forall_mem_cons.mpr ⟨fun hne => ?_, hall⟩, ?_⟩
    · have hne' : minStamp stamp d.blockedUntilSec ≠ 0 := by omega
      obtain ⟨hle, hpos⟩ := hstart hne'
      exact ⟨Nat.le_trans hle (hlea hne), hpos⟩
    · have hne' : minStamp stamp d.blockedUntilSec ≠ 0 := by omega
      obtain ⟨hle, hpos⟩ := hstart hne'
      exact ⟨Nat.le_trans hle (hleb hne), hpos⟩
    · rcases hone with hone | ⟨d', hd', hone⟩
      · rcases heq with heq | heq
        · exact .inl (hone.trans heq)
        · exact .inr ⟨d, mem_cons_self, hone.trans heq⟩
      · exact .inr ⟨d', mem_cons_of_mem d hd', hone⟩

theorem blockedUntilAll_spec (s : RetriesSystem) (settConn : ℕ) :
    (∀ d ∈ s.devcon, d.settConn = settConn → d.blockedUntilSec ≠ 0 →
      s.blockedUntilAll settConn ≤ d.blockedUntilSec ∧ s.blockedUntilAll settConn ≠ 0) ∧
    (s.blockedUntilAll settConn ≠ 0 → ∃ d ∈ s.devcon, d.settConn = settConn ∧
      s.blockedUntilAll settConn = d.blockedUntilSec) := by
  obtain ⟨-, hall, hone⟩ :=
    foldl_minStamp (s.devcon.filter fun d => d.settConn = settConn) 0
  refine ⟨fun d hd hconn hne => ?_, fun hne => ?_⟩
  · exact hall d (mem_filter.mpr ⟨hd, by simpa using hconn⟩) hne
  · rcases hone with hzero | ⟨d, hd, heq⟩
    · exact absurd hzero hne
    · obtain ⟨hd, hconn⟩ := mem_filter.mp hd
      exact ⟨d, hd, by simpa using hconn, heq⟩

/-! ## The invariant -/

/-- What holds in every state of a run in which tuples are due together. -/
structure Inv (s : RetriesSystem) : Prop where
  unique : KeyUnique DevConData.key s.devcon
  known : ∀ d ∈ s.devcon, (lookup AutoconnectProfile.id d.settConn s.profiles).isSome = true
  fine : ∀ d ∈ s.devcon, d.Fine s.nowSec
  timer : ∀ d ∈ s.devcon, d.history.usedUp = true →
    ∃ deadline ∈ s.resetTimer, deadline ≤ d.blockedUntilSec
  pending : ∀ deadline ∈ s.resetTimer, deadline ≤ s.nowSec + autoconnectResetRetriesTimerSec

theorem start_inv (retriesDefault : Fin (2 ^ 31)) : (start retriesDefault).Inv :=
  ⟨unique_nil, by simp [start], by simp [start], by simp [start], by simp [start]⟩

theorem isBlocked_of_mem (h : KeyUnique DevConData.key s.devcon) (hd : d ∈ s.devcon)
    (hinit : d.initialized = true) (hretries : d.retries = 0) :
    s.isBlocked d.device d.settConn = true := by
  have hlookup : lookup DevConData.key (d.device, d.settConn) s.devcon = some d :=
    lookup_of_mem h hd
  simp [isBlocked, hlookup, hinit, hretries]

theorem Inv.sound (h : s.Inv) : s.Sound := by
  refine ⟨h.timer, fun d hd t ht hlt => ?_, fun d hd hinit hforever => ?_⟩
  · obtain ⟨hinit, hretries, -⟩ := (h.fine d hd).blocked t ht hlt
    exact isBlocked_of_mem h.unique hd hinit hretries
  · have hfailures := (h.fine d hd).failures.resolve_left hforever
    refine ⟨by omega, fun heq => isBlocked_of_mem h.unique hd hinit (by omega)⟩

theorem Inv.lookupData_fine (h : s.Inv) (device settConn : ℕ) :
    (s.lookupData device settConn).Fine s.nowSec ∧
      (s.lookupData device settConn).key = (device, settConn) ∧
      ((s.lookupData device settConn).history.usedUp = true →
        ∃ deadline ∈ s.resetTimer, deadline ≤ (s.lookupData device settConn).blockedUntilSec) := by
  unfold lookupData
  cases hd : lookup DevConData.key (device, settConn) s.devcon with
  | none => exact ⟨DevConData.new_fine _ _ _, rfl, by simp [DevConData.new]⟩
  | some d =>
    have hmem := mem_of_lookup hd
    exact ⟨h.fine d hmem, key_of_lookup hd, h.timer d hmem⟩

theorem Inv.updateData (h : s.Inv) (hfine : d.Fine s.nowSec)
    (hknown : (lookup AutoconnectProfile.id d.settConn s.profiles).isSome = true)
    (htimer : d.history.usedUp = true → ∃ deadline ∈ s.resetTimer, deadline ≤ d.blockedUntilSec) :
    (s.updateData d).Inv := by
  refine ⟨h.unique.upsert, ?_, ?_, ?_, h.pending⟩ <;> intro d' hd' <;>
    rcases mem_upsert hd' with rfl | hd'
  · exact hknown
  · exact h.known d' hd'
  · exact hfine
  · exact h.fine d' hd'
  · exact htimer
  · exact h.timer d' hd'

theorem Inv.map (h : s.Inv) {f : DevConData → DevConData} (hkey : ∀ d, (f d).key = d.key)
    (hfine : ∀ d ∈ s.devcon, (f d).Fine s.nowSec)
    (htimer : ∀ d ∈ s.devcon, (f d).history.usedUp = true →
      ∃ deadline ∈ s.resetTimer, deadline ≤ (f d).blockedUntilSec) :
    Inv { s with devcon := s.devcon.map f } := by
  have hconn (d : DevConData) : (f d).settConn = d.settConn := congrArg Prod.snd (hkey d)
  refine ⟨?_, ?_, ?_, ?_, h.pending⟩
  · have hkeys : (s.devcon.map f).map DevConData.key = s.devcon.map DevConData.key := by
      simp [hkey]
    unfold KeyUnique
    rw [hkeys]
    exact h.unique
  · intro d' hd'
    obtain ⟨d, hd, rfl⟩ := mem_map.mp hd'
    rw [hconn]
    exact h.known d hd
  · intro d' hd'
    obtain ⟨d, hd, rfl⟩ := mem_map.mp hd'
    exact hfine d hd
  · intro d' hd'
    obtain ⟨d, hd, rfl⟩ := mem_map.mp hd'
    exact htimer d hd

theorem Inv.filter (h : s.Inv) (p : DevConData → Bool) :
    Inv { s with devcon := s.devcon.filter p } :=
  ⟨h.unique.filter p, fun d hd => h.known d (mem_filter.mp hd).1,
    fun d hd => h.fine d (mem_filter.mp hd).1, fun d hd => h.timer d (mem_filter.mp hd).1,
    h.pending⟩

theorem Inv.profiles (h : s.Inv) {profiles : List AutoconnectProfile}
    (hknown : ∀ d ∈ s.devcon, (lookup AutoconnectProfile.id d.settConn profiles).isSome = true) :
    Inv { s with profiles } :=
  ⟨h.unique, hknown, h.fine, h.timer, h.pending⟩

theorem Inv.retriesResetAll (h : s.Inv) {explicit : Bool}
    (hdue : explicit = true ∨ ∀ d ∈ s.devcon, d.settConn = settConn → d.blockedUntilSec ≤ s.nowSec) :
    (s.retriesResetAll explicit settConn).Inv := by
  refine h.map (fun d => ?_) (fun d hd => ?_) (fun d hd => ?_)
  · split_ifs <;> rfl
  · split_ifs with hconn
    · refine (h.fine d hd).reset (s.retriesInitial_ne_zero settConn) ?_
      exact hdue.imp_right fun hdue => hdue d hd hconn
    · exact h.fine d hd
  · split_ifs with hconn
    · simp [DevConData.reset]
    · exact h.timer d hd

/-! ## The timer -/

/-- The tuples of a profile are due together. -/
def DueTogether (s : RetriesSystem) : Prop :=
  ∀ d ∈ s.devcon, d.blockedUntilSec ≠ 0 → d.blockedUntilSec ≤ s.nowSec →
    ∀ d' ∈ s.devcon, d'.settConn = d.settConn → d'.blockedUntilSec ≤ s.nowSec

/-- What the loop of `reset_connections_retries()` knows after the profiles in `done`. -/
structure LoopInv (done : List ℕ) (acc : RetriesSystem × ℕ) : Prop where
  unique : KeyUnique DevConData.key acc.1.devcon
  known : ∀ d ∈ acc.1.devcon, (lookup AutoconnectProfile.id d.settConn acc.1.profiles).isSome = true
  fine : ∀ d ∈ acc.1.devcon, d.Fine acc.1.nowSec
  due : DueTogether acc.1
  later : acc.2 ≠ 0 → acc.1.nowSec < acc.2
  bounded : acc.2 ≤ acc.1.nowSec + autoconnectResetRetriesTimerSec
  stamps : ∀ d ∈ acc.1.devcon, d.settConn ∈ done → d.blockedUntilSec ≠ 0 →
    acc.2 ≠ 0 ∧ acc.2 ≤ d.blockedUntilSec

theorem retriesResetAll_stamp (hd : d ∈ (s.retriesResetAll false settConn).devcon) :
    (d.settConn = settConn ∧ d.blockedUntilSec = 0) ∨ (d.settConn ≠ settConn ∧ d ∈ s.devcon) := by
  obtain ⟨d', hd', rfl⟩ := mem_map.mp hd
  split_ifs with hconn
  · left
    refine ⟨hconn, ?_⟩
    simp [DevConData.reset, DevConData.retriesSet, s.retriesInitial_ne_zero settConn]
  · exact .inr ⟨hconn, hd'⟩

theorem LoopInv.resetProfile (h : LoopInv done acc) (settConn : ℕ)
    : LoopInv (done ++ [settConn]) (resetProfile acc settConn) ∧
      (RetriesSystem.resetProfile acc settConn).1.nowSec = acc.1.nowSec ∧
      (RetriesSystem.resetProfile acc settConn).1.profiles = acc.1.profiles := by
  obtain ⟨hall, hone⟩ := blockedUntilAll_spec acc.1 settConn
  unfold RetriesSystem.resetProfile
  dsimp only
  split_ifs with hzero hdue
  · -- No tuple of the profile is blocked.
    refine ⟨⟨h.unique, h.known, h.fine, h.due, h.later, h.bounded, fun d hd hdone hne => ?_⟩, rfl,
      rfl⟩
    rcases mem_append.mp hdone with hdone | hconn
    · exact h.stamps d hd hdone hne
    · exact absurd hzero (hall d hd (mem_singleton.mp hconn) hne).2
  · -- All tuples of the profile are due, as one is.
    obtain ⟨d₀, hd₀, hconn₀, heq⟩ := hone hzero
    have hdueAll : ∀ d ∈ acc.1.devcon, d.settConn = settConn →
        d.blockedUntilSec ≤ acc.1.nowSec := fun d hd hconn =>
      h.due d₀ hd₀ (heq ▸ hzero) (heq ▸ hdue) d hd (hconn.trans hconn₀.symm)
    refine ⟨⟨?_, ?_, ?_, ?_, h.later, h.bounded, ?_⟩, rfl, rfl⟩
    · have hkeys : (acc.1.retriesResetAll false settConn).devcon.map DevConData.key =
          acc.1.devcon.map DevConData.key := by
        rw [RetriesSystem.retriesResetAll, map_map]
        apply map_congr_left
        intro d _
        by_cases hconn : d.settConn = settConn <;> simp [hconn]
      unfold KeyUnique
      rw [hkeys]
      exact h.unique
    · intro d hd
      obtain ⟨d', hd', rfl⟩ := mem_map.mp hd
      split_ifs
      · exact h.known d' hd'
      · exact h.known d' hd'
    · intro d hd
      obtain ⟨d', hd', rfl⟩ := mem_map.mp hd
      split_ifs with hconn
      · exact (h.fine d' hd').reset (retriesInitial_ne_zero _ _) (.inr (hdueAll d' hd' hconn))
      · exact h.fine d' hd'
    · intro d hd hne hle d' hd' hconn
      rcases retriesResetAll_stamp hd with ⟨-, hstamp⟩ | ⟨-, hd⟩
      · exact absurd hstamp hne
      · rcases retriesResetAll_stamp hd' with ⟨-, hstamp⟩ | ⟨-, hd'⟩
        · rw [hstamp]
          exact Nat.zero_le _
        · exact h.due d hd hne hle d' hd' hconn
    · intro d hd hdone hne
      rcases retriesResetAll_stamp hd with ⟨-, hstamp⟩ | ⟨hother, hd⟩
      · exact absurd hstamp hne
      · rcases mem_append.mp hdone with hdone | hconn
        · exact h.stamps d hd hdone hne
        · exact absurd (mem_singleton.mp hconn) hother
  · -- The smallest stamp is kept.
    obtain ⟨hlea, hleb, heq⟩ := minStamp_le (a := acc.2) (b := acc.1.blockedUntilAll settConn)
    have hmin := minStamp_eq_zero (a := acc.2) (b := acc.1.blockedUntilAll settConn)
    have hbounded : acc.1.blockedUntilAll settConn ≤
        acc.1.nowSec + autoconnectResetRetriesTimerSec := by
      obtain ⟨d, hd, -, heq⟩ := hone hzero
      rw [heq]
      exact (h.fine d hd).stamp_le
    refine ⟨⟨h.unique, h.known, h.fine, h.due, ?_, ?_, ?_⟩, rfl, rfl⟩
    · intro hne
      dsimp only at hne ⊢
      by_cases hacc : acc.2 = 0
      · omega
      · have := h.later hacc
        omega
    · have := h.bounded
      dsimp only
      omega
    · intro d hd hdone hne
      dsimp only
      rcases mem_append.mp hdone with hdone | hconn
      · obtain ⟨hacc, hle⟩ := h.stamps d hd hdone hne
        have := hlea hacc
        omega
      · have hle := (hall d hd (mem_singleton.mp hconn) hne).1
        have := hleb hzero
        omega

theorem LoopInv.foldl (h : LoopInv done acc) (settConns : List ℕ) :
    LoopInv (done ++ settConns) (settConns.foldl RetriesSystem.resetProfile acc) ∧
      (settConns.foldl RetriesSystem.resetProfile acc).1.nowSec = acc.1.nowSec ∧
      (settConns.foldl RetriesSystem.resetProfile acc).1.profiles = acc.1.profiles := by
  induction settConns generalizing done acc with
  | nil => exact ⟨by simpa using h, rfl, rfl⟩
  | cons settConn settConns ih =>
    obtain ⟨hone, hnow, hprofiles⟩ := h.resetProfile settConn
    obtain ⟨hrest, hnow', hprofiles'⟩ := ih hone
    rw [append_assoc, singleton_append] at hrest
    exact ⟨hrest, hnow'.trans hnow, hprofiles'.trans hprofiles⟩

theorem Inv.resetConnectionsRetries (h : s.Inv) (hdue : s.DueTogether) :
    s.resetConnectionsRetries.Inv := by
  have hstart : LoopInv [] ({ s with resetTimer := none }, 0) :=
    ⟨h.unique, h.known, h.fine, hdue, by simp, by simp, by simp⟩
  obtain ⟨hloop, hnow, hprofiles⟩ := hstart.foldl (s.profiles.map (·.id))
  unfold RetriesSystem.resetConnectionsRetries
  have hpending := hloop.bounded
  rw [hnow] at hpending
  refine ⟨hloop.unique, hloop.known, hloop.fine, fun d hd husedUp => ?_, fun deadline hmem => ?_⟩
  rotate_left
  · dsimp only at hmem hpending ⊢
    split_ifs at hmem with hne
    · obtain rfl := Option.some.inj hmem
      rw [hnow]
      dsimp only
      omega
    · simp at hmem
  have hid : d.settConn ∈ [] ++ s.profiles.map (·.id) := by
    have hknown := hloop.known d hd
    rw [hprofiles, lookup_isSome_iff] at hknown
    obtain ⟨p, hp, hpid⟩ := hknown
    rw [nil_append, ← hpid]
    exact mem_map_of_mem hp
  obtain ⟨hne, hle⟩ := hloop.stamps d hd hid ((hloop.fine d hd).usedUp husedUp)
  have hlater := hloop.later hne
  rw [hnow] at hlater
  refine ⟨_, if_pos hne, ?_⟩
  dsimp only at hlater ⊢
  omega

/-! ## Steps -/

theorem Inv.startTimer (h : s.Inv) (hfine : d.Fine s.nowSec)
    (hknown : (lookup AutoconnectProfile.id d.settConn s.profiles).isSome = true)
    (husedUp : d.history.usedUp = true → d.retries = 0 ∧ d.blockedUntilSec = s.nowSec + autoconnectResetRetriesTimerSec) :
    ((s.updateData d).startTimer d).Inv := by
  unfold RetriesSystem.startTimer
  split_ifs with hstart
  · have hnone : s.resetTimer = none := hstart.2
    have hothers : ∀ d' ∈ s.devcon, d'.history.usedUp = false := by
      intro d' hd'
      by_contra hused
      obtain ⟨deadline, hmem, -⟩ := h.timer d' hd' (by simpa using hused)
      simp [hnone] at hmem
    have hstamp := hfine.stamp_le
    refine ⟨h.unique.upsert, ?_, ?_, ?_, ?_⟩
    · intro d' hd'
      rcases mem_upsert hd' with rfl | hd'
      · exact hknown
      · exact h.known d' hd'
    · intro d' hd'
      rcases mem_upsert hd' with rfl | hd'
      · exact hfine
      · exact h.fine d' hd'
    · intro d' hd' hused
      rcases mem_upsert hd' with rfl | hd'
      · have := (husedUp hused).2
        refine ⟨_, rfl, ?_⟩
        simp only [RetriesSystem.updateData]
        omega
      · rw [hothers d' hd'] at hused
        exact absurd hused (by decide)
    · intro deadline hmem
      obtain rfl := Option.some.inj hmem
      simp only [RetriesSystem.updateData]
      omega
  · refine h.updateData hfine hknown fun hused => ?_
    obtain ⟨hretries, hstamp⟩ := husedUp hused
    have hsome : s.resetTimer ≠ none := fun hnone => hstart ⟨hretries, hnone⟩
    obtain ⟨deadline, hdeadline⟩ := Option.ne_none_iff_exists'.mp hsome
    exact ⟨deadline, hdeadline, hstamp ▸ h.pending deadline hdeadline⟩

theorem Inv.deviceFailed (h : s.Inv) {device : ℕ} (kind : FailureKind)
    (hknown : (lookup AutoconnectProfile.id settConn s.profiles).isSome = true) :
    (s.deviceFailed device settConn kind).Inv := by
  obtain ⟨hfine, hkey, htimer⟩ := h.lookupData_fine device settConn
  have hconn : (s.lookupData device settConn).settConn = settConn := congrArg Prod.snd hkey
  cases kind with
  | noSecrets =>
    refine h.profiles fun d hd => ?_
    have hids : (s.deviceFailed device settConn .noSecrets).profiles.map (·.id) =
        s.profiles.map (·.id) := map_key_modifyKey fun _ => rfl
    show (lookup _ _ (s.deviceFailed device settConn .noSecrets).profiles).isSome = true
    rw [lookup_isSome_congr hids]
    exact h.known d hd
  | dependencyFailed => exact h.updateData (hfine.blockedReason true) (by rwa [hconn]) htimer
  | other =>
    have hfirst := hfine.firstGet (s.retriesInitial_ne_zero settConn)
    have hfirstKey : ((s.lookupData device settConn).firstGet s.nowSec
        (s.retriesInitial settConn)).settConn = settConn :=
      congrArg Prod.snd ((DevConData.firstGet_key _ _ _).trans hkey)
    simp only [RetriesSystem.deviceFailed]
    split_ifs with hnone
    · refine h.updateData hfirst (by rwa [hfirstKey]) ?_
      unfold DevConData.firstGet
      split_ifs
      · exact htimer
      · simp
    · rw [not_or] at hnone
      refine h.startTimer (hfirst.fail hnone.1) ?_ ?_
      · have hfailConn : (((s.lookupData device settConn).firstGet s.nowSec
            (s.retriesInitial settConn)).fail s.nowSec).settConn = settConn := hfirstKey
        rwa [hfailConn]
      · intro hused
        have hlast : ((s.lookupData device settConn).firstGet s.nowSec
            (s.retriesInitial settConn)).retries - 1 = 0 := by
          simpa [DevConData.fail] using hused
        simp [DevConData.fail, DevConData.retriesSet, hlast]

theorem Inv.ifProfile (h : s.Inv) {s' : RetriesSystem}
    (h' : (lookup AutoconnectProfile.id settConn s.profiles).isSome = true → s'.Inv) :
    (s.ifProfile settConn s').Inv := by
  unfold RetriesSystem.ifProfile
  split_ifs with hknown
  · exact h' hknown
  · exact h

/-- An event keeps the invariant if it is in reach. -/
theorem Inv.step (h : s.Inv) (e : RetriesEvent) (hreach : s.InReach e) : (s.step e).Inv := by
  cases e with
  | failed device settConn kind => exact h.ifProfile fun hknown => h.deviceFailed kind hknown
  | activated device settConn =>
    obtain ⟨hfine, hkey, -⟩ := h.lookupData_fine device settConn
    refine h.ifProfile fun hknown => h.updateData
      (hfine.reset (s.retriesInitial_ne_zero settConn) (.inl rfl)) ?_ (by simp [DevConData.reset])
    rwa [show (DevConData.reset _ _ _ _).settConn = settConn from congrArg Prod.snd hkey]
  | ipConfig device settConn =>
    obtain ⟨hfine, hkey, htimer⟩ := h.lookupData_fine device settConn
    refine h.ifProfile fun hknown => h.updateData (hfine.blockedReason false) ?_ htimer
    rwa [show (s.lookupData device settConn).settConn = settConn from congrArg Prod.snd hkey]
  | iwdConfig device settConn =>
    obtain ⟨hfine, hkey, htimer⟩ := h.lookupData_fine device settConn
    refine h.ifProfile fun hknown => h.updateData hfine.retriesSet_zero ?_ fun hused => ?_
    · rwa [show (DevConData.retriesSet _ _ _).settConn = settConn from congrArg Prod.snd hkey]
    · obtain ⟨deadline, hmem, hle⟩ := htimer hused
      exact ⟨deadline, hmem, Nat.le_trans hle hfine.stamp_le⟩
  | explicitReset settConns =>
    show Inv (settConns.foldl _ s)
    clear hreach
    induction settConns generalizing s with
    | nil => exact h
    | cons settConn settConns ih => exact ih (h.retriesResetAll (.inl rfl))
  | blockedReasonReset settConn =>
    refine h.map (fun d => ?_) (fun d hd => ?_) (fun d hd => ?_)
    · split_ifs <;> rfl
    · split_ifs
      · exact (h.fine d hd).blockedReason false
      · exact h.fine d hd
    · split_ifs <;> exact h.timer d hd
  | profileAdded profile =>
    simp only [RetriesSystem.step]
    split_ifs
    · exact h
    · refine h.profiles fun d hd => ?_
      obtain ⟨p, hp⟩ := Option.isSome_iff_exists.mp (h.known d hd)
      simp [lookup_append, hp]
  | profileChanged profile =>
    refine h.profiles fun d hd => ?_
    rw [lookup_isSome_congr (map_key_modifyKey_of_key fun _ _ => rfl)]
    exact h.known d hd
  | profileRemoved settConn =>
    refine (h.filter fun d => d.settConn ≠ settConn).profiles fun d hd => ?_
    obtain ⟨hd, hconn⟩ := mem_filter.mp hd
    rw [lookup_eraseKey, if_neg (by simpa using hconn)]
    exact h.known d hd
  | deviceRemoved device => exact h.filter _
  | elapse sec =>
    refine ⟨h.unique, h.known, fun d hd => (h.fine d hd).elapse sec, h.timer, ?_⟩
    intro deadline hmem
    have := h.pending deadline hmem
    simp only [RetriesSystem.step]
    omega
  | resetTimer =>
    simp only [RetriesSystem.step]
    cases s.resetTimer with
    | none => exact h
    | some deadline =>
      dsimp only
      split_ifs
      · exact h.resetConnectionsRetries hreach
      · exact h

/-- In a run whose firings of the timer are in reach, the counters are right in every state. -/
theorem retries_sound (retriesDefault : Fin (2 ^ 31)) (es : List RetriesEvent)
    (h : Along step InReach (start retriesDefault) es) :
    (es.foldl step (start retriesDefault)).Sound :=
  (h.foldl (fun _ e hs hreach => hs.step e hreach) (start_inv retriesDefault)).sound

def sharedProfileRun : List RetriesEvent :=
  [.profileAdded ⟨1, some 1, false⟩, .failed 1 1 .other, .elapse 100, .failed 2 1 .other,
    .elapse 200, .resetTimer]

/-- The second device is not blocked any more, 200 seconds after it failed. -/
theorem sharedProfileRun_not_sound : ¬ (sharedProfileRun.foldl step (start 4)).Sound := by
  intro h
  have hblocked := h.blocked ⟨2, 1, true, 1, 0, false, ⟨1, 0, false, some 101⟩⟩ (by decide) 101 rfl
    (by decide)
  revert hblocked
  decide

/-- The devices fail with the first profile at the same time, and one of them later with another. -/
def twoDevicesRun : List RetriesEvent :=
  [.profileAdded ⟨1, some 1, false⟩, .profileAdded ⟨2, some 1, false⟩, .failed 1 1 .other,
    .failed 2 1 .other, .elapse 100, .failed 1 2 .other, .elapse 200, .resetTimer]

theorem twoDevicesRun_sound : (twoDevicesRun.foldl step (start 4)).Sound :=
  retries_sound 4 twoDevicesRun (by
    refine ⟨trivial, trivial, trivial, trivial, trivial, trivial, trivial, ?_, trivial⟩
    show DueTogether _
    unfold DueTogether
    decide)

end RetriesSystem
end NetworkManager.Core
