import NetworkManager.Core.Connectivity
import NetworkManager.Core.PolicySecondaries
import Mathlib.Data.Fintype.Sets

/-!
# The overall state

`NMManager` reports one state, which is the best that its active connections give, unless it sleeps
or an unmanaged device counts as online. The best state depends on the order of the connections.
-/

namespace NetworkManager.Core

open List

inductive NMState
  | unknown
  | asleep
  | disconnected
  | disconnecting
  | connecting
  | connectedLocal
  | connectedSite
  | connectedGlobal
  deriving DecidableEq

namespace NMState

instance : Fintype NMState where
  elems := {unknown, asleep, disconnected, disconnecting, connecting, connectedLocal,
    connectedSite, connectedGlobal}
  complete := by
    intro s
    cases s <;> decide

def toNat : NMState → ℕ
  | unknown => 0
  | asleep => 10
  | disconnected => 20
  | disconnecting => 30
  | connecting => 40
  | connectedLocal => 50
  | connectedSite => 60
  | connectedGlobal => 70

instance : LE NMState := ⟨fun a b => a.toNat ≤ b.toNat⟩

instance : LT NMState := ⟨fun a b => a.toNat < b.toNat⟩

instance : DecidableLE NMState := fun a b => inferInstanceAs (Decidable (a.toNat ≤ b.toNat))

instance : DecidableLT NMState := fun a b => inferInstanceAs (Decidable (a.toNat < b.toNat))

end NMState

inductive NMActivationType
  | managed
  | assume
  | external
  deriving DecidableEq

/-- What the manager reads of an `NMActiveConnection`. -/
structure ManagerActive where
  /-- Its device is an `NMDeviceLoopback`. -/
  onLoopback : Bool
  state : NMActiveConnectionState
  activationType : NMActivationType
  isDefault : Bool
  isDefault6 : Bool
  deriving DecidableEq

/-- `nm_active_connection_get_default()` with `AF_UNSPEC`. -/
def ManagerActive.getDefault (ac : ManagerActive) : Bool := ac.isDefault || ac.isDefault6

/-- `NM_IN_SET(nm_active_connection_get_activation_type(ac), EXTERNAL, ASSUME)` -/
def ManagerActive.IsExternalOrAssume (ac : ManagerActive) : Prop :=
  ac.activationType = .external ∨ ac.activationType = .assume

instance (ac : ManagerActive) : Decidable ac.IsExternalOrAssume := inferInstanceAs (Decidable (_ ∨ _))

/-- The loop of `find_best_device_state()`. -/
def findBestLoop (connectivity : NMConnectivityState) : NMState → List ManagerActive → NMState
  | best, [] => best
  | best, ac :: acs =>
    if ac.onLoopback then findBestLoop connectivity best acs
    else match ac.state with
      | .activated =>
        if ac.getDefault then
          if connectivity = .full then .connectedGlobal
          else findBestLoop connectivity .connectedSite acs
        else if best < .connecting then findBestLoop connectivity .connectedLocal acs
        else findBestLoop connectivity best acs
      | .activating =>
        if ¬ac.IsExternalOrAssume ∧ best ≠ .connectedGlobal then
          findBestLoop connectivity .connecting acs
        else findBestLoop connectivity best acs
      | .deactivating =>
        if ¬ac.IsExternalOrAssume ∧ best < .disconnecting then
          findBestLoop connectivity .disconnecting acs
        else findBestLoop connectivity best acs
      | _ => findBestLoop connectivity best acs

def findBestDeviceState (connectivity : NMConnectivityState) (acs : List ManagerActive) : NMState :=
  findBestLoop connectivity .disconnected acs

/-- The fields of `NMManagerPrivate` that the state depends on, with the states of the devices. -/
structure ManagerPrivate where
  activeConnections : List ManagerActive
  devices : List NMDeviceState
  connectivityState : NMConnectivityState
  sleeping : Bool
  netEnabled : Bool
  ifstateForceOnline : Bool
  state : NMState

namespace ManagerPrivate

def managerSleeping (priv : ManagerPrivate) : Bool := priv.sleeping || !priv.netEnabled

def findUnmanagedState (priv : ManagerPrivate) (currentState : NMState) : NMState :=
  priv.devices.foldl
    (fun newState device =>
      if device = .unmanaged ∧ priv.ifstateForceOnline then .connectedGlobal else newState)
    currentState

/-- The `new_state` of `nm_manager_update_state()`. -/
def newState (priv : ManagerPrivate) : NMState :=
  let newState :=
    if priv.managerSleeping then .asleep
    else findBestDeviceState priv.connectivityState priv.activeConnections
  let newState :=
    if newState ≠ .connectedGlobal then priv.findUnmanagedState newState else newState
  if .connectedLocal ≤ newState ∧ priv.connectivityState = .full then .connectedGlobal
  else newState

/-- `nm_manager_update_state()` and the state of the signal `StateChanged`, if it was emitted. -/
def updateState (priv : ManagerPrivate) : ManagerPrivate × Option NMState :=
  if priv.state = priv.newState then (priv, none)
  else ({ priv with state := priv.newState }, some priv.newState)

end ManagerPrivate

/-! ## What a connection does to the best state -/

/-- How a connection counts for the best state. -/
inductive BestKind
  | ignored
  | activatedDefault
  | activatedOther
  | activating
  | deactivating
  deriving DecidableEq

instance : Fintype BestKind where
  elems := {.ignored, .activatedDefault, .activatedOther, .activating, .deactivating}
  complete := by
    intro k
    cases k <;> decide

def ManagerActive.kind (ac : ManagerActive) : BestKind :=
  if ac.onLoopback then .ignored
  else match ac.state with
    | .activated => if ac.getDefault then .activatedDefault else .activatedOther
    | .activating => if ac.IsExternalOrAssume then .ignored else .activating
    | .deactivating => if ac.IsExternalOrAssume then .ignored else .deactivating
    | _ => .ignored

/-- One turn of the loop, where `CONNECTED_GLOBAL` stands for its end. -/
def bestStep (isFull : Bool) (best : NMState) (k : BestKind) : NMState :=
  if best = .connectedGlobal then .connectedGlobal
  else match k with
    | .ignored => best
    | .activatedDefault => if isFull then .connectedGlobal else .connectedSite
    | .activatedOther => if best < .connecting then .connectedLocal else best
    | .activating => .connecting
    | .deactivating => if best < .disconnecting then .disconnecting else best

variable {connectivity : NMConnectivityState} {acs : List ManagerActive} {best best' : NMState}
  {isFull : Bool}

theorem foldl_bestStep_connectedGlobal (ks : List BestKind) :
    ks.foldl (bestStep isFull) .connectedGlobal = .connectedGlobal := by
  induction ks with
  | nil => rfl
  | cons k ks ih => exact ih

theorem findBestLoop_eq_foldl (hbest : best ≠ .connectedGlobal) :
    findBestLoop connectivity best acs =
      (acs.map ManagerActive.kind).foldl (bestStep (decide (connectivity = .full))) best := by
  induction acs generalizing best with
  | nil => rfl
  | cons ac acs ih =>
    have hstop := @foldl_bestStep_connectedGlobal (decide (connectivity = .full))
      (acs.map ManagerActive.kind)
    have hsite := @ih .connectedSite (by decide)
    have hlocal := @ih .connectedLocal (by decide)
    have hconnecting := @ih .connecting (by decide)
    have hdisconnecting := @ih .disconnecting (by decide)
    rw [map_cons, foldl_cons]
    simp only [findBestLoop, ManagerActive.kind, bestStep, if_neg hbest]
    by_cases hloop : ac.onLoopback
    · simp [hloop, ih hbest]
    · cases hstate : ac.state with
      | activated =>
        by_cases hdefault : ac.getDefault
        · by_cases hfull : connectivity = .full <;> simp_all
        · by_cases hlt : best < .connecting <;> simp_all
      | activating => by_cases hext : ac.IsExternalOrAssume <;> simp_all
      | deactivating =>
        by_cases hext : ac.IsExternalOrAssume
        · simp_all
        · by_cases hlt : best < .disconnecting <;> simp_all
      | unknown => simp_all
      | deactivated => simp_all

theorem findBestDeviceState_eq_foldl :
    findBestDeviceState connectivity acs =
      (acs.map ManagerActive.kind).foldl (bestStep (decide (connectivity = .full)))
        .disconnected :=
  findBestLoop_eq_foldl (by decide)

/-! ## The order of the connections -/

theorem bestStep_comm (k k' : BestKind)
    (hk : isFull ∨ ¬(k = .activatedDefault ∧ k' = .activating))
    (hk' : isFull ∨ ¬(k' = .activatedDefault ∧ k = .activating)) (best : NMState) :
    bestStep isFull (bestStep isFull best k) k' = bestStep isFull (bestStep isFull best k') k := by
  revert isFull k k' best
  decide +kernel

theorem foldl_bestStep_ne_connectedGlobal (hbest : best ≠ .connectedGlobal) (ks : List BestKind) :
    ks.foldl (bestStep false) best ≠ .connectedGlobal := by
  induction ks generalizing best with
  | nil => exact hbest
  | cons k ks ih =>
    apply ih
    clear ih
    revert best k
    decide +kernel

/-- A connection is activated with the default route while another one is activating, and the
connectivity is not full. -/
def Ambiguous (connectivity : NMConnectivityState) (acs : List ManagerActive) : Prop :=
  connectivity ≠ .full ∧ (∃ ac ∈ acs, ac.kind = .activatedDefault) ∧
    ∃ ac ∈ acs, ac.kind = .activating

/-- The best state is the same in every order if and only if the connections are not ambiguous. -/
theorem findBestDeviceState_perm_iff :
    (∀ acs', acs'.Perm acs →
      findBestDeviceState connectivity acs' = findBestDeviceState connectivity acs) ↔
      ¬Ambiguous connectivity acs := by
  constructor
  · rintro hperm ⟨hfull, ⟨d, hd, hdk⟩, a, ha, hak⟩
    have hne : d ≠ a := by
      rintro rfl
      simp [hdk] at hak
    have herase : d ∈ acs.erase a := (mem_erase_of_ne hne).mpr hd
    let rest := (acs.erase a).erase d
    have hacs : acs.Perm (a :: d :: rest) :=
      (perm_cons_erase ha).trans ((perm_cons_erase herase).cons a)
    have hlast (x y : ManagerActive) (hxy : [x, y].Perm [a, d]) :
        findBestDeviceState connectivity (rest ++ [x, y]) = findBestDeviceState connectivity acs := by
      apply hperm
      apply ((List.Perm.append_left rest hxy).trans perm_append_comm).trans
      exact hacs.symm
    have heq := (hlast d a (List.Perm.swap a d [])).trans (hlast a d (List.Perm.refl _)).symm
    have hrest := @foldl_bestStep_ne_connectedGlobal .disconnected (by decide)
      (rest.map ManagerActive.kind)
    simp only [findBestDeviceState_eq_foldl, hfull, decide_false, map_append, map_cons,
      map_nil, foldl_append, foldl_cons, foldl_nil, hdk, hak] at heq
    generalize (rest.map ManagerActive.kind).foldl (bestStep false) .disconnected = best at heq hrest
    revert best
    decide +kernel
  · intro hamb acs' hperm
    rw [findBestDeviceState_eq_foldl, findBestDeviceState_eq_foldl]
    apply (hperm.map ManagerActive.kind).foldl_eq'
    have hpair : ∀ k ∈ acs'.map ManagerActive.kind, ∀ k' ∈ acs'.map ManagerActive.kind,
        decide (connectivity = .full) = true ∨ ¬(k = .activatedDefault ∧ k' = .activating) := by
      intro k hk k' hk'
      obtain ⟨ac, hac, rfl⟩ := mem_map.mp hk
      obtain ⟨ac', hac', rfl⟩ := mem_map.mp hk'
      by_cases hfull : connectivity = .full
      · simp [hfull]
      · right
        rintro ⟨hd, ha⟩
        exact hamb ⟨hfull, ⟨ac, hperm.mem_iff.mp hac, hd⟩, ac', hperm.mem_iff.mp hac', ha⟩
    intro k hk k' hk' best
    exact bestStep_comm k k' (hpair k hk k' hk') (hpair k' hk' k hk) best

/-! ## One more activated connection -/

/-- Two runs of the loop either have the same best state, or the second one is connected and not
worse. -/
def NotWorse (best best' : NMState) : Prop :=
  best = best' ∨ .connectedLocal ≤ best' ∧ best ≤ best'

instance : DecidableRel NotWorse := fun _ _ => inferInstanceAs (Decidable (_ ∨ _))

theorem NotWorse.bestStep (h : NotWorse best best') (k : BestKind) :
    NotWorse (bestStep isFull best k) (bestStep isFull best' k) := by
  revert isFull best best' k
  decide +kernel

theorem NotWorse.foldl (h : NotWorse best best') (ks : List BestKind) :
    NotWorse (ks.foldl (Core.bestStep isFull) best) (ks.foldl (Core.bestStep isFull) best') := by
  induction ks generalizing best best' with
  | nil => exact h
  | cons k ks ih => exact ih (h.bestStep k)

theorem notWorse_bestStep_activated {k : BestKind}
    (hk : k = .activatedDefault ∨ k = .activatedOther ∨ k = .ignored) (best : NMState) :
    NotWorse best (bestStep isFull best k) := by
  revert isFull best k
  decide +kernel

theorem NotWorse.le (h : NotWorse best best') : best ≤ best' := by
  revert best best'
  decide +kernel

theorem findBestDeviceState_le_add {before after : List ManagerActive} {ac : ManagerActive}
    (hac : ac.state = .activated) :
    findBestDeviceState connectivity (before ++ after) ≤
      findBestDeviceState connectivity (before ++ ac :: after) := by
  have hkind : ac.kind = .activatedDefault ∨ ac.kind = .activatedOther ∨ ac.kind = .ignored := by
    simp only [ManagerActive.kind, hac]
    grind
  simp only [findBestDeviceState_eq_foldl, map_append, map_cons, foldl_append,
    foldl_cons]
  exact ((notWorse_bestStep_activated hkind _).foldl _).le

/-! ## Sleeping -/

namespace ManagerPrivate

variable {priv : ManagerPrivate}

theorem findUnmanagedState_eq (currentState : NMState) :
    priv.findUnmanagedState currentState =
      if .unmanaged ∈ priv.devices ∧ priv.ifstateForceOnline then .connectedGlobal
      else currentState := by
  have h (devices : List NMDeviceState) (state : NMState) :
      devices.foldl (fun newState device =>
        if device = .unmanaged ∧ priv.ifstateForceOnline then .connectedGlobal else newState) state =
      if .unmanaged ∈ devices ∧ priv.ifstateForceOnline then .connectedGlobal else state := by
    induction devices generalizing state with
    | nil => simp
    | cons d devices ih =>
      rw [foldl_cons, ih]
      grind
  exact h _ _

theorem foldl_bestStep_ne_asleep (hbest : best ≠ .asleep) (ks : List BestKind) :
    ks.foldl (bestStep isFull) best ≠ .asleep := by
  induction ks generalizing best with
  | nil => exact hbest
  | cons k ks ih =>
    apply ih
    clear ih
    revert isFull best k
    decide +kernel

theorem updateState_state : priv.updateState.1.state = priv.newState := by
  unfold updateState
  split
  · assumption
  · rfl

theorem updateState_asleep_iff :
    (priv.updateState.1.state = .asleep ↔ priv.managerSleeping) ↔
      ¬(priv.managerSleeping ∧ priv.ifstateForceOnline ∧ .unmanaged ∈ priv.devices) := by
  have hbest : findBestDeviceState priv.connectivityState priv.activeConnections ≠ .asleep := by
    rw [findBestDeviceState_eq_foldl]
    exact foldl_bestStep_ne_asleep (by decide) _
  have hlow : ¬NMState.connectedLocal ≤ .asleep := by decide
  rw [updateState_state]
  simp only [newState, findUnmanagedState_eq]
  grind

end ManagerPrivate

/-- The overall state is a function of the set of connections and `ASLEEP` while sleeping if and only
if the connections are not ambiguous, and no unmanaged device counts as online while sleeping. -/
theorem overallState_right_iff (priv : ManagerPrivate) :
    ((∀ acs', acs'.Perm priv.activeConnections →
        findBestDeviceState priv.connectivityState acs' =
          findBestDeviceState priv.connectivityState priv.activeConnections) ∧
      (∀ before after ac, priv.activeConnections = before ++ after → ac.state = .activated →
        findBestDeviceState priv.connectivityState priv.activeConnections ≤
          findBestDeviceState priv.connectivityState (before ++ ac :: after)) ∧
      (priv.updateState.1.state = .asleep ↔ priv.managerSleeping)) ↔
      ¬Ambiguous priv.connectivityState priv.activeConnections ∧
        ¬(priv.managerSleeping ∧ priv.ifstateForceOnline ∧ .unmanaged ∈ priv.devices) := by
  rw [findBestDeviceState_perm_iff, ManagerPrivate.updateState_asleep_iff]
  constructor
  · rintro ⟨hperm, -, hasleep⟩
    exact ⟨hperm, hasleep⟩
  · rintro ⟨hperm, hasleep⟩
    refine ⟨hperm, ?_, hasleep⟩
    intro before after ac hsplit hac
    rw [hsplit]
    exact findBestDeviceState_le_add hac

/-- An ethernet connection with the default route and a Wi-Fi connection that is activating, and a
manager that sleeps with an unmanaged device. -/
theorem overallState_wrong :
    (∃ acs acs' : List ManagerActive, acs'.Perm acs ∧
      findBestDeviceState .limited acs' ≠ findBestDeviceState .limited acs) ∧
      ∃ priv : ManagerPrivate, priv.managerSleeping ∧ priv.updateState.1.state ≠ .asleep := by
  let wired : ManagerActive := ⟨false, .activated, .managed, true, false⟩
  let wifi : ManagerActive := ⟨false, .activating, .managed, false, false⟩
  exact ⟨⟨[wired, wifi], [wifi, wired], List.Perm.swap _ _ _, by decide⟩,
    ⟨[], [.unmanaged], .limited, true, true, true, .asleep⟩, by decide, by decide⟩

end NetworkManager.Core
