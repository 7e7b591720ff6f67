import NetworkManager.Core.Types
import NetworkManager.Lib.Keyed
import NetworkManager.Lib.Runs
import Mathlib.Data.List.Perm.Basic

/-!
# The default active connection

`NMPolicy` picks the active connection with the best default route for each address family, and
marks it with a flag. Active connections are objects, told apart by a number that is not used
again. One that is deactivated loses its flags and is not the connection of a device any more.
-/

namespace NetworkManager.Core

open Lib List

/-! ## Devices and active connections -/

/-- What `get_best_active_connection()` looks at in an `NMDevice`. -/
structure PolicyDevice where
  state : NMDeviceState
  external : Bool
  /-- The metric of `nm_device_get_best_default_route()`. -/
  bestDefaultRoute : AddrFamily → Option ℕ
  /-- `nm_device_get_route_metric()`, if the applied connection has a default route. -/
  expectedMetric : AddrFamily → Option ℕ
  actRequest : ℕ

/-- What `get_best_ip_config()` looks at in an `NMVpnConnection`. -/
structure PolicyVpn where
  activated : Bool
  /-- The metric of the best default route, where there is a configuration with one. -/
  bestDefaultRoute : AddrFamily → Option ℕ

structure NMActiveConnection where
  id : ℕ
  vpn : Option PolicyVpn
  isDefault : AddrFamily → Bool
  deactivated : Bool

structure NMPolicyRouting where
  devices : List PolicyDevice
  activeConnections : List NMActiveConnection
  defaultAc : AddrFamily → Option ℕ
  activatingAc : AddrFamily → Option ℕ
  nextId : ℕ

/-! ## The best active connection -/

/-- An active connection that can be the best one. -/
structure BestCandidate where
  ac : ℕ
  metric : ℕ
  fullyActivated : Bool
  deriving DecidableEq

/-- What the loop over the devices makes of a device that it does not skip. -/
def PolicyDevice.candidate (family : AddrFamily) (fullyActivated : Bool) (d : PolicyDevice) :
    Option BestCandidate :=
  if d.state ≤ .disconnected ∨ .deactivating ≤ d.state then none
  else if d.external then none
  else
    match d.bestDefaultRoute family with
    | some metric => some ⟨d.actRequest, metric, true⟩
    | none =>
      if fullyActivated then none
      else (d.expectedMetric family).map fun metric => ⟨d.actRequest, metric, false⟩

/-- The candidate replaces the best one so far. -/
def BestCandidate.replaces (prevAc : Option ℕ) (c : BestCandidate) : Option BestCandidate → Bool
  | none => true
  | some best =>
    (!best.fullyActivated && c.fullyActivated) || c.metric < best.metric ||
      (c.metric = best.metric && prevAc = some c.ac)

def bestCandidate (prevAc : Option ℕ) (candidates : List BestCandidate) : Option BestCandidate :=
  candidates.foldl (fun best c => if c.replaces prevAc best then some c else best) none

def getBestActiveConnection (family : AddrFamily) (fullyActivated : Bool) (prevAc : Option ℕ)
    (devices : List PolicyDevice) : Option ℕ :=
  match bestCandidate prevAc (devices.filterMap (·.candidate family fullyActivated)) with
  | none => none
  | some best => if !fullyActivated && best.fullyActivated then none else some best.ac

def NMActiveConnection.vpnMetric (family : AddrFamily) (ac : NMActiveConnection) : Option ℕ :=
  ac.vpn.bind fun vpn => if vpn.activated then vpn.bestDefaultRoute family else none

/-- The VPN connection that `get_best_ip_config()` holds after one more, and its metric. -/
def betterVpn (family : AddrFamily) (best : Option (ℕ × ℕ)) (ac : NMActiveConnection) :
    Option (ℕ × ℕ) :=
  match ac.vpnMetric family with
  | none => best
  | some metric => if best.all fun b => metric ≤ b.2 then some (ac.id, metric) else best

def bestVpn (family : AddrFamily) (acs : List NMActiveConnection) : Option (ℕ × ℕ) :=
  acs.foldl (betterVpn family) none

namespace NMPolicyRouting

def getBestIpConfig (family : AddrFamily) (s : NMPolicyRouting) : Option ℕ :=
  match bestVpn family s.activeConnections with
  | some best => some best.1
  | none => getBestActiveConnection family true (s.defaultAc family) s.devices

def updateDefaultAc (family : AddrFamily) (best : ℕ) (s : NMPolicyRouting) : NMPolicyRouting :=
  { s with
    activeConnections := s.activeConnections.map fun ac =>
      { ac with isDefault := Function.update ac.isDefault family (ac.id = best) } }

/-- `update_ip4_routing()` and `update_ip6_routing()` -/
def updateIpRouting (family : AddrFamily) (forceUpdate : Bool) (s : NMPolicyRouting) :
    NMPolicyRouting :=
  match s.getBestIpConfig family with
  | none => { s with defaultAc := Function.update s.defaultAc family none }
  | some best =>
    if !forceUpdate && s.defaultAc family = some best then s
    else
      { s.updateDefaultAc family best with
        defaultAc := Function.update s.defaultAc family (some best) }

def checkActivatingActiveConnections (s : NMPolicyRouting) : NMPolicyRouting :=
  { s with
    activatingAc := fun family =>
      getBestActiveConnection family false (s.activatingAc family) s.devices }

def devicesValid (devices : List PolicyDevice) (acs : List NMActiveConnection) : Bool :=
  devices.all fun d =>
    ((d.candidate .inet false).isNone && (d.candidate .inet6 false).isNone) ||
      acs.any fun ac => ac.id = d.actRequest && ac.vpn.isNone && !ac.deactivated

end NMPolicyRouting

/-! ## Runs -/

/-- What happens. The devices and the VPN connections change in any way. -/
inductive RoutingEvent
  | connectionAdded (vpn : Option PolicyVpn)
  | connectionRemoved (id : ℕ)
  /-- The device of an `NMActRequest` is down: `nm_active_connection_set_default()` for both
  families. -/
  | connectionDeactivated (id : ℕ)
  | vpnChanged (id : ℕ) (vpn : PolicyVpn)
  | devicesChanged (devices : List PolicyDevice)
  | updateRouting (family : AddrFamily) (forceUpdate : Bool)
  | checkActivating

namespace NMPolicyRouting

def start : NMPolicyRouting where
  devices := []
  activeConnections := []
  defaultAc := fun _ => none
  activatingAc := fun _ => none
  nextId := 0

def guarded (s s' : NMPolicyRouting) : NMPolicyRouting :=
  if devicesValid s'.devices s'.activeConnections then s' else s

def step (s : NMPolicyRouting) : RoutingEvent → NMPolicyRouting
  | .connectionAdded vpn =>
    { s with
      activeConnections := s.activeConnections ++ [⟨s.nextId, vpn, fun _ => false, false⟩]
      nextId := s.nextId + 1 }
  | .connectionRemoved id =>
    s.guarded { s with activeConnections := s.activeConnections.filter fun ac => ac.id ≠ id }
  | .connectionDeactivated id =>
    s.guarded { s with
      activeConnections := s.activeConnections.map fun ac =>
        if ac.id = id ∧ ac.vpn.isNone then
          { ac with isDefault := fun _ => false, deactivated := true }
        else ac }
  | .vpnChanged id vpn =>
    { s with
      activeConnections := s.activeConnections.map fun ac =>
        if ac.id = id ∧ ac.vpn.isSome then { ac with vpn := some vpn } else ac }
  | .devicesChanged devices => s.guarded { s with devices }
  | .updateRouting family forceUpdate => s.updateIpRouting family forceUpdate
  | .checkActivating => s.checkActivatingActiveConnections

end NMPolicyRouting

/-!
## The default connection is well-defined

The loop over the devices finds the candidate with the smallest metric as long as all candidates
are of one kind. Where activated and activating devices meet, what it finds depends on their order
unless an activated one is as good as every activating one. The flags are those of the
default connection, except where there is none any more.
-/

variable {prevAc : Option ℕ} {candidates : List BestCandidate} {b c r : BestCandidate} {full : Bool}

/-! ## The loop -/

/-- The candidate has the smallest metric, and is the previous one where that is as good. -/
structure IsBest (prevAc : Option ℕ) (candidates : List BestCandidate) (b : BestCandidate) :
    Prop where
  mem : b ∈ candidates
  metric_le : ∀ c ∈ candidates, b.metric ≤ c.metric
  sticky : ∀ c ∈ candidates, c.metric = b.metric → prevAc = some c.ac → c.ac = b.ac

def betterCandidate (prevAc : Option ℕ) (best : Option BestCandidate) (c : BestCandidate) :
    Option BestCandidate :=
  if c.replaces prevAc best then some c else best

theorem bestCandidate_eq (prevAc : Option ℕ) (candidates : List BestCandidate) :
    bestCandidate prevAc candidates = candidates.foldl (betterCandidate prevAc) none := rfl

@[simp] theorem betterCandidate_none : betterCandidate prevAc none c = some c := rfl

theorem betterCandidate_some (prevAc : Option ℕ) (b c : BestCandidate) :
    betterCandidate prevAc (some b) c = some b ∨ betterCandidate prevAc (some b) c = some c := by
  unfold betterCandidate
  split_ifs
  · exact .inr rfl
  · exact .inl rfl

theorem foldl_betterCandidate_mem (prevAc : Option ℕ) (b : BestCandidate) (candidates : List BestCandidate) :
    ∃ r ∈ b :: candidates, candidates.foldl (betterCandidate prevAc) (some b) = some r := by
  induction candidates generalizing b with
  | nil => exact ⟨b, mem_singleton_self b, rfl⟩
  | cons c candidates ih =>
    rw [foldl_cons]
    rcases betterCandidate_some prevAc b c with h | h
    · obtain ⟨r, hr, heq⟩ := ih b
      rw [h]
      refine ⟨r, ?_, heq⟩
      rcases mem_cons.mp hr with rfl | hr
      · exact mem_cons_self
      · exact mem_cons_of_mem _ (mem_cons_of_mem _ hr)
    · obtain ⟨r, hr, heq⟩ := ih c
      rw [h]
      exact ⟨r, mem_cons_of_mem b hr, heq⟩

/-! ## Candidates of one kind -/

theorem replaces_iff (h : c.fullyActivated = b.fullyActivated) :
    c.replaces prevAc (some b) ↔ c.metric < b.metric ∨ (c.metric = b.metric ∧ prevAc = some c.ac) := by
  cases hb : b.fullyActivated <;> simp [BestCandidate.replaces, h, hb]

theorem IsBest.congr {candidates' : List BestCandidate}
    (hmem : ∀ c, c ∈ candidates ↔ c ∈ candidates') (h : IsBest prevAc candidates r) :
    IsBest prevAc candidates' r :=
  ⟨(hmem r).mp h.mem, fun c hc => h.metric_le c ((hmem c).mpr hc),
    fun c hc => h.sticky c ((hmem c).mpr hc)⟩

theorem IsBest.cons (h : IsBest prevAc candidates r) (hle : r.metric ≤ c.metric)
    (hsticky : c.metric = r.metric → prevAc = some c.ac → c.ac = r.ac) :
    IsBest prevAc (c :: candidates) r :=
  ⟨mem_cons_of_mem c h.mem, forall_mem_cons.mpr ⟨hle, h.metric_le⟩,
    forall_mem_cons.mpr ⟨hsticky, h.sticky⟩⟩

theorem foldl_isBest (hb : b.fullyActivated = full)
    (hfull : ∀ c ∈ candidates, c.fullyActivated = full) :
    ∃ r, candidates.foldl (betterCandidate prevAc) (some b) = some r ∧
      IsBest prevAc (b :: candidates) r := by
  induction candidates generalizing b with
  | nil =>
    refine ⟨b, rfl, mem_singleton_self b, ?_, ?_⟩ <;> simp
  | cons c candidates ih =>
    obtain ⟨hc, hrest⟩ := forall_mem_cons.mp hfull
    have hkind : c.fullyActivated = b.fullyActivated := hc.trans hb.symm
    rw [foldl_cons]
    by_cases hreplaces : c.replaces prevAc (some b)
    · obtain ⟨r, heq, hr⟩ := ih hc hrest
      rw [betterCandidate, if_pos hreplaces]
      have hmetric := (replaces_iff hkind).mp hreplaces
      have hle := hr.metric_le c mem_cons_self
      have hsticky := hr.sticky c mem_cons_self
      refine ⟨r, heq, hr.cons ?_ ?_⟩
      · omega
      · intro hbr hprev
        obtain hlt | ⟨hcb, hprev'⟩ := hmetric
        · omega
        · have hac : b.ac = c.ac := Option.some.inj (hprev.symm.trans hprev')
          exact hac.trans (hsticky (hcb.trans hbr) hprev')
    · obtain ⟨r, heq, hr⟩ := ih hb hrest
      rw [betterCandidate, if_neg hreplaces]
      have hmetric := mt (replaces_iff hkind).mpr hreplaces
      have hle := hr.metric_le b mem_cons_self
      have hswap : ∀ x, x ∈ c :: b :: candidates ↔ x ∈ b :: c :: candidates :=
        fun x => (List.Perm.swap b c candidates).mem_iff
      refine ⟨r, heq, IsBest.congr hswap (hr.cons ?_ ?_)⟩
      · omega
      · intro hcr hprev
        exact absurd (Or.inr ⟨by omega, hprev⟩) hmetric

theorem bestCandidate_isBest (prevAc : Option ℕ) (hne : candidates ≠ [])
    (hfull : ∀ c ∈ candidates, c.fullyActivated = full) :
    ∃ r, bestCandidate prevAc candidates = some r ∧ IsBest prevAc candidates r := by
  cases candidates with
  | nil => exact absurd rfl hne
  | cons b candidates =>
    obtain ⟨hb, hrest⟩ := forall_mem_cons.mp hfull
    exact foldl_isBest hb hrest

/-! ## Candidates of both kinds -/

/-- No activating candidate is as good as the activated ones, except where there is none of
these. -/
def Settled (prevAc : Option ℕ) (candidates : List BestCandidate) : Prop :=
  (∀ c ∈ candidates, c.fullyActivated = false) ∨
    ∀ c ∈ candidates, c.fullyActivated = false → ∃ f ∈ candidates, f.fullyActivated = true ∧
      (f.metric < c.metric ∨ (f.metric = c.metric ∧ prevAc ≠ some c.ac))

theorem foldl_full_last (prevAc : Option ℕ) (candidates : List BestCandidate)
    (hc : c.fullyActivated = true) :
    ∃ r, bestCandidate prevAc (candidates ++ [c]) = some r ∧ r.fullyActivated = true := by
  rw [bestCandidate_eq, foldl_append, foldl_cons, foldl_nil]
  cases hbest : candidates.foldl (betterCandidate prevAc) none with
  | none => exact ⟨c, rfl, hc⟩
  | some b =>
    rcases betterCandidate_some prevAc b c with h | h
    · refine ⟨b, h, ?_⟩
      cases hb : b.fullyActivated with
      | true => rfl
      | false =>
        have hreplaces : c.replaces prevAc (some b) := by simp [BestCandidate.replaces, hb, hc]
        rw [betterCandidate, if_pos hreplaces] at h
        obtain rfl := Option.some.inj h
        rw [hc] at hb
        exact absurd hb (by decide)
    · exact ⟨c, h, hc⟩

theorem foldl_activating_last (hc : c.fullyActivated = false)
    (hbest : ∀ f ∈ candidates, f.fullyActivated = true →
      c.metric ≤ f.metric ∧ (c.metric = f.metric → prevAc = some c.ac)) :
    ∃ r, bestCandidate prevAc (candidates ++ [c]) = some r ∧ r.fullyActivated = false := by
  rw [bestCandidate_eq, foldl_append, foldl_cons, foldl_nil]
  cases candidates with
  | nil => exact ⟨c, rfl, hc⟩
  | cons b' candidates =>
    obtain ⟨b, hmem, heq⟩ := foldl_betterCandidate_mem prevAc b' candidates
    rw [foldl_cons, betterCandidate_none, heq]
    rcases betterCandidate_some prevAc b c with h | h
    · refine ⟨b, h, ?_⟩
      cases hb : b.fullyActivated with
      | false => rfl
      | true =>
        obtain ⟨hle, htie⟩ := hbest b hmem hb
        have hreplaces : c.replaces prevAc (some b) := by
          rcases Nat.lt_or_eq_of_le hle with hlt | heq
          · simp [BestCandidate.replaces, hlt]
          · simp [BestCandidate.replaces, heq, htie heq]
        rw [betterCandidate, if_pos hreplaces] at h
        obtain rfl := Option.some.inj h
        rw [hc] at hb
        exact absurd hb (by decide)
    · exact ⟨c, h, hc⟩

theorem foldl_stays_full {f : BestCandidate} (hb : b.fullyActivated = true)
    (hle : b.metric ≤ f.metric)
    (hfull : ∀ c ∈ candidates, c.fullyActivated = true → f.metric ≤ c.metric)
    (hother : ∀ c ∈ candidates, c.fullyActivated = false →
      f.metric < c.metric ∨ (f.metric = c.metric ∧ prevAc ≠ some c.ac)) :
    ∃ r, candidates.foldl (betterCandidate prevAc) (some b) = some r ∧
      r.fullyActivated = true := by
  induction candidates generalizing b with
  | nil => exact ⟨b, rfl, hb⟩
  | cons c candidates ih =>
    obtain ⟨hfullc, hfull⟩ := forall_mem_cons.mp hfull
    obtain ⟨hotherc, hother⟩ := forall_mem_cons.mp hother
    rw [foldl_cons]
    by_cases hreplaces : c.replaces prevAc (some b)
    · rw [betterCandidate, if_pos hreplaces]
      simp only [BestCandidate.replaces, hb, Bool.not_true, Bool.false_and, Bool.false_or,
        Bool.or_eq_true, Bool.and_eq_true, decide_eq_true_eq] at hreplaces
      cases hc : c.fullyActivated with
      | true => exact ih hc (by omega) hfull hother
      | false =>
        -- It would have to be better than the best activated one.
        obtain hlt | ⟨heq, hprev⟩ := hotherc hc
        · omega
        · rcases hreplaces with hlt | ⟨-, hprev'⟩
          · omega
          · exact absurd hprev' hprev
    · rw [betterCandidate, if_neg hreplaces]
      exact ih hb hle hfull hother

theorem betterCandidate_full (prevAc : Option ℕ) (best : Option BestCandidate) (hc : c.fullyActivated = true) :
    ∃ b, betterCandidate prevAc best c = some b ∧ b.fullyActivated = true ∧
      b.metric ≤ c.metric := by
  cases best with
  | none => exact ⟨c, rfl, hc, Nat.le_refl _⟩
  | some b =>
    by_cases hreplaces : c.replaces prevAc (some b)
    · exact ⟨c, if_pos hreplaces, hc, Nat.le_refl _⟩
    · refine ⟨b, if_neg hreplaces, ?_⟩
      simp only [BestCandidate.replaces, hc, Bool.and_true, Bool.or_eq_true, Bool.not_eq_true',
        Bool.and_eq_true, decide_eq_true_eq, not_or, Bool.not_eq_false] at hreplaces
      exact ⟨hreplaces.1.1, by omega⟩

theorem bestCandidate_full
    (h : ∀ c ∈ candidates, c.fullyActivated = false → ∃ f ∈ candidates, f.fullyActivated = true ∧
      (f.metric < c.metric ∨ (f.metric = c.metric ∧ prevAc ≠ some c.ac)))
    (hr : bestCandidate prevAc candidates = some r) : r.fullyActivated = true := by
  by_cases hempty : candidates.filter (·.fullyActivated) = []
  · -- Without an activated candidate there is none at all.
    have hnone : ∀ c ∈ candidates, c.fullyActivated = false := by
      simpa [filter_eq_nil_iff] using hempty
    cases candidates with
    | nil => simp [bestCandidate] at hr
    | cons c candidates =>
      obtain ⟨f, hf, hfull, -⟩ := h c mem_cons_self (hnone c mem_cons_self)
      rw [hnone f hf] at hfull
      exact absurd hfull (by decide)
  · have hkind : ∀ c ∈ candidates.filter (·.fullyActivated), c.fullyActivated = true :=
      fun c hc => (mem_filter.mp hc).2
    obtain ⟨f, -, hbest⟩ := bestCandidate_isBest none hempty hkind
    obtain ⟨hmem, hf⟩ := mem_filter.mp hbest.mem
    have hmin : ∀ c ∈ candidates, c.fullyActivated = true → f.metric ≤ c.metric :=
      fun c hc hfull => hbest.metric_le c (mem_filter.mpr ⟨hc, hfull⟩)
    have hother : ∀ c ∈ candidates, c.fullyActivated = false →
        f.metric < c.metric ∨ (f.metric = c.metric ∧ prevAc ≠ some c.ac) := by
      intro c hc hactivating
      obtain ⟨g, hg, hgfull, hlt | ⟨heq, hprev⟩⟩ := h c hc hactivating
      · exact .inl (Nat.lt_of_le_of_lt (hmin g hg hgfull) hlt)
      · rcases Nat.lt_or_eq_of_le (hmin g hg hgfull) with hlt | hfg
        · exact .inl (by omega)
        · exact .inr ⟨hfg.trans heq, hprev⟩
    obtain ⟨before, after, rfl⟩ := append_of_mem hmem
    rw [bestCandidate_eq, foldl_append, foldl_cons] at hr
    obtain ⟨b, hb, hbfull, hble⟩ :=
      betterCandidate_full prevAc (before.foldl (betterCandidate prevAc) none) hf
    have hafter : ∀ c ∈ after, c ∈ before ++ f :: after := fun c hc =>
      mem_append_right _ (mem_cons_of_mem f hc)
    obtain ⟨r', hr', hr'full⟩ := foldl_stays_full hbfull hble
      (fun c hc => hmin c (hafter c hc)) fun c hc => hother c (hafter c hc)
    rw [hb, hr'] at hr
    rwa [← Option.some.inj hr]

/-! ## The order of the devices -/

variable {family : AddrFamily} {fullyActivated : Bool} {devices : List PolicyDevice}

def candidatesOf (family : AddrFamily) (fullyActivated : Bool) (devices : List PolicyDevice) :
    List BestCandidate :=
  devices.filterMap (·.candidate family fullyActivated)

theorem getBestActiveConnection_eq :
    getBestActiveConnection family fullyActivated prevAc devices =
      (bestCandidate prevAc (candidatesOf family fullyActivated devices)).bind fun best =>
        if !fullyActivated && best.fullyActivated then none else some best.ac := by
  unfold getBestActiveConnection candidatesOf
  cases bestCandidate prevAc (devices.filterMap (·.candidate family fullyActivated)) <;> rfl

/-- The result does not depend on the order of the devices, except among candidates with the same
metric of which none is the previous one. -/
def OrderFree (family : AddrFamily) (fullyActivated : Bool) (prevAc : Option ℕ)
    (devices : List PolicyDevice) : Prop :=
  ∀ devices', devices'.Perm devices →
    getBestActiveConnection family fullyActivated prevAc devices' =
        getBestActiveConnection family fullyActivated prevAc devices ∨
      ∃ a ∈ candidatesOf family fullyActivated devices,
        ∃ b ∈ candidatesOf family fullyActivated devices,
          getBestActiveConnection family fullyActivated prevAc devices = some a.ac ∧
          getBestActiveConnection family fullyActivated prevAc devices' = some b.ac ∧
          a.metric = b.metric ∧
          ∀ c ∈ candidatesOf family fullyActivated devices, c.metric = a.metric →
            prevAc ≠ some c.ac

theorem candidate_full {d : PolicyDevice} (h : d.candidate family true = some c) :
    c.fullyActivated = true := by
  unfold PolicyDevice.candidate at h
  cases hroute : d.bestDefaultRoute family with
  | none => simp [hroute] at h
  | some metric =>
    simp only [hroute] at h
    split_ifs at h
    obtain rfl := Option.some.inj h
    rfl

theorem candidatesOf_full (hc : c ∈ candidatesOf family true devices) :
    c.fullyActivated = true := by
  obtain ⟨d, -, hd⟩ := mem_filterMap.mp hc
  exact candidate_full hd

theorem orderFree_of_kind (hvalue : (!fullyActivated && full) = false)
    (hkind : ∀ c ∈ candidatesOf family fullyActivated devices, c.fullyActivated = full) :
    OrderFree family fullyActivated prevAc devices := by
  intro devices' hperm
  have hcands : (candidatesOf family fullyActivated devices').Perm
      (candidatesOf family fullyActivated devices) := hperm.filterMap _
  by_cases hempty : candidatesOf family fullyActivated devices = []
  · left
    have hempty' : candidatesOf family fullyActivated devices' = [] := (hempty ▸ hcands).eq_nil
    rw [getBestActiveConnection_eq, getBestActiveConnection_eq, hempty, hempty']
  · have hempty' : candidatesOf family fullyActivated devices' ≠ [] :=
      fun h => hempty (h ▸ hcands.symm).eq_nil
    have hkind' : ∀ c ∈ candidatesOf family fullyActivated devices', c.fullyActivated = full :=
      fun c hc => hkind c (hcands.mem_iff.mp hc)
    obtain ⟨a, ha, hbesta⟩ := bestCandidate_isBest prevAc hempty hkind
    obtain ⟨b, hb, hbestb⟩ := bestCandidate_isBest prevAc hempty' hkind'
    replace hbestb := hbestb.congr fun c => hcands.mem_iff
    have hresult : getBestActiveConnection family fullyActivated prevAc devices = some a.ac := by
      rw [getBestActiveConnection_eq, ha, Option.bind_some, hkind a hbesta.mem, hvalue]
      rfl
    have hresult' : getBestActiveConnection family fullyActivated prevAc devices' = some b.ac := by
      rw [getBestActiveConnection_eq, hb, Option.bind_some, hkind b hbestb.mem, hvalue]
      rfl
    have hmetric : a.metric = b.metric :=
      Nat.le_antisymm (hbesta.metric_le b hbestb.mem) (hbestb.metric_le a hbesta.mem)
    by_cases hprev : ∃ c ∈ candidatesOf family fullyActivated devices,
        c.metric = a.metric ∧ prevAc = some c.ac
    · obtain ⟨c, hc, hca, hprev⟩ := hprev
      left
      have hac := hbesta.sticky c hc hca hprev
      have hbc := hbestb.sticky c hc (hca.trans hmetric) hprev
      rw [hresult, hresult', ← hac, ← hbc]
    · right
      refine ⟨a, hbesta.mem, b, hbestb.mem, hresult, hresult', hmetric, fun c hc hca hp => ?_⟩
      exact hprev ⟨c, hc, hca, hp⟩

theorem orderFree_fullyActivated : OrderFree family true prevAc devices :=
  orderFree_of_kind rfl fun _ hc => candidatesOf_full hc

theorem exists_perm_last (hc : c ∈ candidatesOf family fullyActivated devices) :
    ∃ devices' rest, devices'.Perm devices ∧
      candidatesOf family fullyActivated devices' = rest ++ [c] ∧
      ∀ b ∈ rest, b ∈ candidatesOf family fullyActivated devices := by
  obtain ⟨d, hd, hdc⟩ := mem_filterMap.mp hc
  obtain ⟨before, after, rfl⟩ := append_of_mem hd
  refine ⟨(before ++ after) ++ [d], candidatesOf family fullyActivated (before ++ after), ?_, ?_,
    ?_⟩
  · exact (perm_append_singleton d _).trans perm_middle.symm
  · simp [candidatesOf, filterMap_append, hdc]
  · intro b hb
    obtain ⟨d', hd', hb⟩ := mem_filterMap.mp hb
    refine mem_filterMap.mpr ⟨d', ?_, hb⟩
    rcases mem_append.mp hd' with h | h
    · exact mem_append_left _ h
    · exact mem_append_right _ (mem_cons_of_mem d h)

/-- Activating connections do not depend on the order of the devices if and only if they are
settled. -/
theorem orderFree_activating_iff :
    OrderFree family false prevAc devices ↔
      Settled prevAc (candidatesOf family false devices) := by
  constructor
  · intro h
    by_contra hsettled
    obtain ⟨hsome, hbad⟩ := not_or.mp hsettled
    push Not at hsome hbad
    obtain ⟨f, hf, hffull⟩ := hsome
    obtain ⟨a, ha, haactivating, hbeats⟩ := hbad
    have hffull : f.fullyActivated = true := by simpa using hffull
    -- With `f` at the end there is no result, with `a` at the end there is one.
    obtain ⟨devices₁, rest₁, hperm₁, hlast₁, -⟩ := exists_perm_last hf
    obtain ⟨r₁, hr₁, hfull₁⟩ := foldl_full_last prevAc rest₁ hffull
    have hnone : getBestActiveConnection family false prevAc devices₁ = none := by
      rw [getBestActiveConnection_eq, hlast₁, hr₁, Option.bind_some, hfull₁]
      rfl
    obtain ⟨devices₂, rest₂, hperm₂, hlast₂, hrest₂⟩ := exists_perm_last ha
    have hbest : ∀ g ∈ rest₂, g.fullyActivated = true →
        a.metric ≤ g.metric ∧ (a.metric = g.metric → prevAc = some a.ac) := by
      intro g hg hgfull
      have hnot := hbeats g (hrest₂ g hg) hgfull
      exact ⟨Nat.not_lt.mp (by simpa using hnot.1), fun heq => hnot.2 heq.symm⟩
    obtain ⟨r₂, hr₂, hfull₂⟩ := foldl_activating_last haactivating hbest
    have hsome : getBestActiveConnection family false prevAc devices₂ = some r₂.ac := by
      rw [getBestActiveConnection_eq, hlast₂, hr₂, Option.bind_some, hfull₂]
      rfl
    rcases h devices₁ hperm₁ with h₁ | ⟨_, _, _, _, _, h₁, _⟩
    · rcases h devices₂ hperm₂ with h₂ | ⟨_, _, _, _, h₂, _, _⟩
      · rw [hsome, ← h₁, hnone] at h₂
        exact absurd h₂ (by simp)
      · rw [← h₁, hnone] at h₂
        exact absurd h₂ (by simp)
    · rw [hnone] at h₁
      exact absurd h₁ (by simp)
  · rintro (hkind | hfull)
    · exact orderFree_of_kind rfl hkind
    · intro devices' hperm
      left
      have hcands : (candidatesOf family false devices').Perm (candidatesOf family false devices) :=
        hperm.filterMap _
      have hnone (devices'' : List PolicyDevice)
          (h : ∀ c, c ∈ candidatesOf family false devices'' ↔
            c ∈ candidatesOf family false devices) :
          getBestActiveConnection family false prevAc devices'' = none := by
        rw [getBestActiveConnection_eq]
        cases hr : bestCandidate prevAc (candidatesOf family false devices'') with
        | none => rfl
        | some r =>
          have hrfull : r.fullyActivated = true := by
            refine bestCandidate_full (fun c hc hactivating => ?_) hr
            obtain ⟨f, hf, hbeats⟩ := hfull c ((h c).mp hc) hactivating
            exact ⟨f, (h f).mpr hf, hbeats⟩
          rw [Option.bind_some, hrfull]
          rfl
      rw [hnone devices' fun c => hcands.mem_iff, hnone devices fun c => Iff.rfl]

/-! ## The default connection -/

namespace NMPolicyRouting

variable {s : NMPolicyRouting} {acs : List NMActiveConnection} {id : ℕ}
  {f : NMActiveConnection → NMActiveConnection}

/-- The connection that carries the flag of the family is the default connection. -/
structure FlagsSound (family : AddrFamily) (s : NMPolicyRouting) : Prop where
  flag_iff : ∀ ac ∈ s.activeConnections, ac.isDefault family = true ↔
    s.defaultAc family = some ac.id
  known : ∀ id ∈ s.defaultAc family, ∃ ac ∈ s.activeConnections, ac.id = id

/-- A VPN connection with a default route of the smallest metric. -/
def BestVpn (family : AddrFamily) (acs : List NMActiveConnection) (id : ℕ) : Prop :=
  ∃ ac ∈ acs, ac.id = id ∧ ∃ metric, ac.vpnMetric family = some metric ∧
    ∀ ac' ∈ acs, ∀ metric' ∈ ac'.vpnMetric family, metric ≤ metric'

/-- The default connection after an update. -/
def DefaultSound (family : AddrFamily) (s : NMPolicyRouting) (defaultAc : Option ℕ) : Prop :=
  if ∃ ac ∈ s.activeConnections, (ac.vpnMetric family).isSome then
    ∃ id, defaultAc = some id ∧ BestVpn family s.activeConnections id
  else if candidatesOf family true s.devices = [] then defaultAc = none
  else ∃ c, defaultAc = some c.ac ∧
    IsBest (s.defaultAc family) (candidatesOf family true s.devices) c

/-- An update of the routing leaves the right default connection and flags, and the order of the
devices does not matter for it, nor for the activating connections. -/
def Sound (s : NMPolicyRouting) : RoutingEvent → Prop
  | .updateRouting family forceUpdate =>
    FlagsSound family (s.step (.updateRouting family forceUpdate)) ∧
      DefaultSound family s
        ((s.step (.updateRouting family forceUpdate)).defaultAc family) ∧
      OrderFree family true (s.defaultAc family) s.devices
  | .checkActivating => ∀ family, OrderFree family false (s.activatingAc family) s.devices
  | _ => True

/-- No connection has a default route. -/
def NoDefaultRoute (family : AddrFamily) (s : NMPolicyRouting) : Prop :=
  (∀ ac ∈ s.activeConnections, ac.vpnMetric family = none) ∧
    candidatesOf family true s.devices = []

/-- There is a default route or no flag to clear, and no activating connection is better than the
activated ones that there are. -/
def InReach (s : NMPolicyRouting) : RoutingEvent → Prop
  | .updateRouting family _ =>
    NoDefaultRoute family s → ∀ ac ∈ s.activeConnections, ac.isDefault family = false
  | .checkActivating =>
    ∀ family, Settled (s.activatingAc family) (candidatesOf family false s.devices)
  | _ => True

/-! ## VPN connections -/

/-- The loop over the VPN connections holds the best one that it has seen. -/
def HoldsBest (family : AddrFamily) (acs : List NMActiveConnection) : Option (ℕ × ℕ) → Prop
  | none => ∀ ac ∈ acs, ac.vpnMetric family = none
  | some best => (∃ ac ∈ acs, ac.id = best.1 ∧ ac.vpnMetric family = some best.2) ∧
      ∀ ac ∈ acs, ∀ metric ∈ ac.vpnMetric family, best.2 ≤ metric

theorem HoldsBest.step {family : AddrFamily} {best : Option (ℕ × ℕ)} (h : HoldsBest family acs best)
    (ac : NMActiveConnection) : HoldsBest family (acs ++ [ac]) (betterVpn family best ac) := by
  unfold betterVpn
  cases hmetric : ac.vpnMetric family with
  | none =>
    cases best with
    | none =>
      exact forall_mem_append.mpr ⟨h, by simpa using hmetric⟩
    | some b =>
      obtain ⟨⟨ac', hac', hid⟩, hle⟩ := h
      refine ⟨⟨ac', mem_append_left _ hac', hid⟩, forall_mem_append.mpr ⟨hle, ?_⟩⟩
      simp [hmetric]
  | some metric =>
    have hself : ∃ ac' ∈ acs ++ [ac], ac'.id = ac.id ∧ ac'.vpnMetric family = some metric :=
      ⟨ac, by simp, rfl, hmetric⟩
    cases best with
    | none =>
      refine ⟨hself, forall_mem_append.mpr ⟨fun ac' hac' => ?_, ?_⟩⟩
      · simp [h ac' hac']
      · simp [hmetric]
    | some b =>
      obtain ⟨⟨ac', hac', hid⟩, hle⟩ := h
      by_cases hbetter : metric ≤ b.2
      · simp only [Option.all_some, hbetter, decide_true, if_true]
        refine ⟨hself, forall_mem_append.mpr ⟨fun ac'' hac'' m hm => ?_, ?_⟩⟩
        · exact Nat.le_trans hbetter (hle ac'' hac'' m hm)
        · simp [hmetric]
      · simp only [Option.all_some, hbetter, decide_false, Bool.false_eq_true, if_false]
        refine ⟨⟨ac', mem_append_left _ hac', hid⟩, forall_mem_append.mpr ⟨hle, ?_⟩⟩
        simp only [mem_singleton, forall_eq, hmetric, Option.mem_def, Option.some.injEq,
          forall_eq']
        omega

theorem bestVpn_holdsBest (family : AddrFamily) (acs : List NMActiveConnection) :
    HoldsBest family acs (bestVpn family acs) := by
  have hloop : ∀ known best, HoldsBest family known best →
      HoldsBest family (known ++ acs) (acs.foldl (betterVpn family) best) := by
    induction acs with
    | nil => simp
    | cons ac acs ih =>
      intro known best h
      have hnext := ih (known ++ [ac]) _ (h.step ac)
      rwa [append_assoc, singleton_append] at hnext
  exact hloop [] none (by simp [HoldsBest])

/-! ## The invariant -/

/-- The default connection carries the flag unless it is deactivated, and no other one does. -/
structure Valid (s : NMPolicyRouting) : Prop where
  unique : KeyUnique NMActiveConnection.id s.activeConnections
  fresh : ∀ ac ∈ s.activeConnections, ac.id < s.nextId
  defaultFresh : ∀ family, ∀ id ∈ s.defaultAc family, id < s.nextId
  devices : devicesValid s.devices s.activeConnections = true
  vpnAlive : ∀ ac ∈ s.activeConnections, ac.vpn.isSome → ac.deactivated = false
  deadFlags : ∀ ac ∈ s.activeConnections, ac.deactivated = true →
    ∀ family, ac.isDefault family = false
  flags : ∀ family id, s.defaultAc family = some id → ∀ ac ∈ s.activeConnections,
    ac.deactivated = false → (ac.isDefault family = true ↔ ac.id = id)

theorem start_valid : start.Valid := by
  refine ⟨unique_nil, ?_, ?_, rfl, ?_, ?_, ?_⟩ <;> simp [start]

theorem devicesValid_of_candidate {devices : List PolicyDevice} {family : AddrFamily}
    {fullyActivated : Bool} {c : BestCandidate} (h : devicesValid devices acs = true)
    (hc : c ∈ candidatesOf family fullyActivated devices) :
    ∃ ac ∈ acs, ac.id = c.ac ∧ ac.vpn.isNone ∧ ac.deactivated = false := by
  obtain ⟨d, hd, hdc⟩ := mem_filterMap.mp hc
  have hrequest : c.ac = d.actRequest := by
    unfold PolicyDevice.candidate at hdc
    split_ifs at hdc with h₁ h₂ h₃ <;> cases hroute : d.bestDefaultRoute family <;>
      simp only [hroute, Option.map_eq_some_iff, Option.some.injEq, reduceCtorEq] at hdc <;>
      grind
  have hcandidate : (d.candidate family false).isSome := by
    unfold PolicyDevice.candidate at hdc ⊢
    cases hroute : d.bestDefaultRoute family <;> cases fullyActivated <;> grind
  have hvalid := all_eq_true.mp h d hd
  simp only [Bool.or_eq_true, Bool.and_eq_true, any_eq_true, decide_eq_true_eq,
    Bool.not_eq_true'] at hvalid
  rcases hvalid with ⟨hinet, hinet6⟩ | ⟨ac, hac, ⟨hid, hvpn⟩, hdead⟩
  · cases family with
    | inet => simp [Option.isNone_iff_eq_none.mp hinet] at hcandidate
    | inet6 => simp [Option.isNone_iff_eq_none.mp hinet6] at hcandidate
  · exact ⟨ac, hac, hid.trans hrequest.symm, hvpn, hdead⟩

theorem getBestIpConfig_sound (family : AddrFamily) (s : NMPolicyRouting) :
    DefaultSound family s (s.getBestIpConfig family) := by
  have hvpn := bestVpn_holdsBest family s.activeConnections
  unfold DefaultSound getBestIpConfig
  cases hbest : bestVpn family s.activeConnections with
  | some best =>
    rw [hbest] at hvpn
    obtain ⟨⟨ac, hac, hid, hmetric⟩, hle⟩ := hvpn
    rw [if_pos ⟨ac, hac, by simp [hmetric]⟩]
    exact ⟨best.1, rfl, ac, hac, hid, best.2, hmetric, hle⟩
  | none =>
    rw [hbest] at hvpn
    have hnone : ¬ ∃ ac ∈ s.activeConnections, (ac.vpnMetric family).isSome := by
      rintro ⟨ac, hac, hsome⟩
      rw [hvpn ac hac] at hsome
      exact absurd hsome (by decide)
    rw [if_neg hnone]
    split_ifs with hempty
    · rw [getBestActiveConnection_eq, hempty]
      rfl
    · obtain ⟨c, hc, hisBest⟩ := bestCandidate_isBest (s.defaultAc family) hempty
        fun c hc => candidatesOf_full hc
      refine ⟨c, ?_, hisBest⟩
      rw [getBestActiveConnection_eq, hc]
      rfl

theorem getBestIpConfig_eq_none_iff {family : AddrFamily} :
    s.getBestIpConfig family = none ↔ NoDefaultRoute family s := by
  have hsound := getBestIpConfig_sound family s
  unfold DefaultSound at hsound
  unfold NoDefaultRoute
  split_ifs at hsound with hvpn hempty
  · obtain ⟨id, hid, -⟩ := hsound
    obtain ⟨ac, hac, hsome⟩ := hvpn
    rw [hid]
    simp only [reduceCtorEq, false_iff, not_and]
    intro hnone
    simp [hnone ac hac] at hsome
  · simp only [hsound, hempty, and_true, true_iff]
    intro ac hac
    by_contra hne
    exact hvpn ⟨ac, hac, Option.isSome_iff_ne_none.mpr hne⟩
  · obtain ⟨c, hc, -⟩ := hsound
    simp [hc, hempty]

theorem Valid.best_known (h : s.Valid) {family : AddrFamily}
    (hbest : s.getBestIpConfig family = some id) :
    ∃ ac ∈ s.activeConnections, ac.id = id ∧ ac.deactivated = false := by
  have hsound := getBestIpConfig_sound family s
  unfold DefaultSound at hsound
  split_ifs at hsound with hvpn hempty
  · obtain ⟨id', hid', ac, hac, hid, metric, hmetric, -⟩ := hsound
    obtain rfl : id' = id := Option.some.inj (hid'.symm.trans hbest)
    obtain ⟨vpn, hisVpn, -⟩ := Option.bind_eq_some_iff.mp hmetric
    exact ⟨ac, hac, hid, h.vpnAlive ac hac (by simp [hisVpn])⟩
  · rw [hsound] at hbest
    exact absurd hbest (by simp)
  · obtain ⟨c, hc, hisBest⟩ := hsound
    obtain ⟨ac, hac, hid, -, halive⟩ := devicesValid_of_candidate h.devices hisBest.mem
    exact ⟨ac, hac, hid.trans (Option.some.inj (hc.symm.trans hbest)), halive⟩

/-! ## Steps -/

theorem Valid.map (h : s.Valid) (hid : ∀ ac, (f ac).id = ac.id)
    (hvpn : ∀ ac, (f ac).vpn.isSome = ac.vpn.isSome)
    (hf : ∀ ac, ((f ac).deactivated = ac.deactivated ∧ (f ac).isDefault = ac.isDefault) ∨ (ac.vpn.isSome = false ∧ (f ac).deactivated = true ∧ ∀ family, (f ac).isDefault family = false))
    (hdevices : devicesValid s.devices (s.activeConnections.map f) = true) :
    Valid { s with activeConnections := s.activeConnections.map f } := by
  refine ⟨?_, ?_, h.defaultFresh, hdevices, ?_, ?_, ?_⟩
  · have hkeys : (s.activeConnections.map f).map NMActiveConnection.id =
        s.activeConnections.map NMActiveConnection.id := by simp [hid]
    unfold KeyUnique
    rw [hkeys]
    exact h.unique
  · simpa [hid] using h.fresh
  · intro ac' hac' hvpn'
    obtain ⟨ac, hac, rfl⟩ := mem_map.mp hac'
    rw [hvpn] at hvpn'
    rcases hf ac with ⟨hsame, -⟩ | ⟨hnone, -⟩
    · rw [hsame]
      exact h.vpnAlive ac hac hvpn'
    · rw [hnone] at hvpn'
      exact absurd hvpn' (by decide)
  · intro ac' hac' hdead family
    obtain ⟨ac, hac, rfl⟩ := mem_map.mp hac'
    rcases hf ac with ⟨hsame, hflags⟩ | ⟨-, -, hnone⟩
    · rw [hflags]
      exact h.deadFlags ac hac (hsame ▸ hdead) family
    · exact hnone family
  · intro family id hdefault ac' hac' halive
    obtain ⟨ac, hac, rfl⟩ := mem_map.mp hac'
    rcases hf ac with ⟨hsame, hflags⟩ | ⟨-, hdead, -⟩
    · rw [hflags, hid]
      exact h.flags family id hdefault ac hac (hsame ▸ halive)
    · rw [hdead] at halive
      exact absurd halive (by decide)

theorem devicesValid_map {devices : List PolicyDevice}
    (hf : ∀ ac, (f ac).id = ac.id ∧ (f ac).vpn.isNone = ac.vpn.isNone ∧ (f ac).deactivated = ac.deactivated) :
    devicesValid devices (acs.map f) = devicesValid devices acs := by
  simp [devicesValid, any_map, Function.comp_def, hf]

theorem Valid.guarded (h : s.Valid) {s' : NMPolicyRouting}
    (h' : devicesValid s'.devices s'.activeConnections = true → s'.Valid) :
    (s.guarded s').Valid := by
  unfold NMPolicyRouting.guarded
  split_ifs with hvalid
  · exact h' hvalid
  · exact h

theorem Valid.updateDefaultAc (h : s.Valid) {family : AddrFamily}
    (hknown : ∃ ac ∈ s.activeConnections, ac.id = id ∧ ac.deactivated = false) :
    Valid { s.updateDefaultAc family id with
      defaultAc := Function.update s.defaultAc family (some id) } := by
  obtain ⟨best, hbest, rfl, halive⟩ := hknown
  have hkeys : (s.updateDefaultAc family best.id).activeConnections.map NMActiveConnection.id =
      s.activeConnections.map NMActiveConnection.id := by simp [NMPolicyRouting.updateDefaultAc]
  refine ⟨?_, ?_, ?_, ?_, ?_, ?_, ?_⟩
  · unfold KeyUnique
    rw [hkeys]
    exact h.unique
  · simpa [NMPolicyRouting.updateDefaultAc] using h.fresh
  · intro family' id' hid'
    by_cases hfamily : family' = family
    · subst hfamily
      obtain rfl : best.id = id' := by simpa using hid'
      exact h.fresh best hbest
    · exact h.defaultFresh family' id' (by simpa [hfamily] using hid')
  · simpa [NMPolicyRouting.updateDefaultAc, devicesValid] using h.devices
  · simpa [NMPolicyRouting.updateDefaultAc] using h.vpnAlive
  · intro ac' hac' hdead family'
    obtain ⟨ac, hac, rfl⟩ := mem_map.mp hac'
    by_cases hfamily : family' = family
    · subst hfamily
      -- The new default connection is not deactivated.
      have hne : ac.id ≠ best.id := by
        intro heq
        obtain rfl := eq_of_key_eq h.unique hac hbest heq
        rw [halive] at hdead
        exact absurd hdead (by decide)
      simp [hne]
    · simpa [hfamily] using h.deadFlags ac hac hdead family'
  · intro family' id' hdefault ac' hac' halive'
    obtain ⟨ac, hac, rfl⟩ := mem_map.mp hac'
    by_cases hfamily : family' = family
    · subst hfamily
      obtain rfl : best.id = id' := by simpa using hdefault
      simp
    · have hflags := h.flags family' id' (by simpa [hfamily] using hdefault) ac hac halive'
      simpa [hfamily] using hflags

theorem Valid.updateIpRouting (h : s.Valid) (family : AddrFamily) (forceUpdate : Bool) :
    (s.updateIpRouting family forceUpdate).Valid := by
  unfold NMPolicyRouting.updateIpRouting
  cases hbest : s.getBestIpConfig family with
  | none =>
    refine ⟨h.unique, h.fresh, ?_, h.devices, h.vpnAlive, h.deadFlags, ?_⟩
    · intro family' id hid
      by_cases hfamily : family' = family
      · simp [hfamily] at hid
      · exact h.defaultFresh family' id (by simpa [hfamily] using hid)
    · intro family' id hid
      by_cases hfamily : family' = family
      · simp [hfamily] at hid
      · exact h.flags family' id (by simpa [hfamily] using hid)
  | some best =>
    dsimp only
    split_ifs
    · exact h
    · exact h.updateDefaultAc (h.best_known hbest)

theorem Valid.step (h : s.Valid) (e : RoutingEvent) : (s.step e).Valid := by
  cases e with
  | connectionAdded vpn =>
    refine ⟨?_, ?_, ?_, ?_, ?_, ?_, ?_⟩
    · exact h.unique.append_singleton fun ac hac => Nat.ne_of_lt (h.fresh ac hac)
    · intro ac hac
      rcases mem_append.mp hac with hac | hac
      · exact Nat.lt_succ_of_lt (h.fresh ac hac)
      · rw [mem_singleton.mp hac]
        exact Nat.lt_succ_self _
    · exact fun family id hid => Nat.lt_succ_of_lt (h.defaultFresh family id hid)
    · have hdevices := h.devices
      simp only [NMPolicyRouting.step, devicesValid, all_eq_true, Bool.or_eq_true,
        any_append] at hdevices ⊢
      intro d hd
      rcases hdevices d hd with hnone | hsome
      · exact .inl hnone
      · exact .inr (.inl hsome)
    · exact forall_mem_append.mpr ⟨h.vpnAlive, by simp⟩
    · exact forall_mem_append.mpr ⟨h.deadFlags, by simp⟩
    · intro family id hid
      refine forall_mem_append.mpr ⟨h.flags family id hid, ?_⟩
      have hne : s.nextId ≠ id := (Nat.ne_of_lt (h.defaultFresh family id hid)).symm
      simpa using hne
  | connectionRemoved id =>
    refine h.guarded fun hdevices => ⟨?_, ?_, h.defaultFresh, hdevices, ?_, ?_, ?_⟩
    · exact h.unique.filter _
    · exact fun ac hac => h.fresh ac (mem_filter.mp hac).1
    · exact fun ac hac => h.vpnAlive ac (mem_filter.mp hac).1
    · exact fun ac hac => h.deadFlags ac (mem_filter.mp hac).1
    · exact fun family id hid ac hac => h.flags family id hid ac (mem_filter.mp hac).1
  | connectionDeactivated id =>
    refine h.guarded fun hdevices => h.map (fun ac => ?_) (fun ac => ?_) (fun ac => ?_) hdevices
    · split_ifs <;> rfl
    · split_ifs <;> rfl
    · split_ifs with hac
      · exact .inr ⟨by simpa using hac.2, rfl, fun _ => rfl⟩
      · exact .inl ⟨rfl, rfl⟩
  | vpnChanged id vpn =>
    have hdevices : devicesValid s.devices (s.activeConnections.map fun ac =>
        if ac.id = id ∧ ac.vpn.isSome then { ac with vpn := some vpn } else ac) = true := by
      rw [devicesValid_map fun ac => ?_]
      · exact h.devices
      · split_ifs with hac
        · exact ⟨rfl, by simp [Option.isNone_eq_false_iff.mpr hac.2], rfl⟩
        · exact ⟨rfl, rfl, rfl⟩
    refine h.map (fun ac => ?_) (fun ac => ?_) (fun ac => ?_) hdevices
    · split_ifs <;> rfl
    · split_ifs with hac
      · exact hac.2.symm
      · rfl
    · split_ifs <;> exact .inl ⟨rfl, rfl⟩
  | devicesChanged devices =>
    exact h.guarded fun hdevices =>
      ⟨h.unique, h.fresh, h.defaultFresh, hdevices, h.vpnAlive, h.deadFlags, h.flags⟩
  | updateRouting family forceUpdate => exact h.updateIpRouting family forceUpdate
  | checkActivating =>
    exact ⟨h.unique, h.fresh, h.defaultFresh, h.devices, h.vpnAlive, h.deadFlags, h.flags⟩

/-! ## Soundness -/

theorem updateIpRouting_defaultAc (family : AddrFamily) (forceUpdate : Bool) (s : NMPolicyRouting) :
    (s.updateIpRouting family forceUpdate).defaultAc family = s.getBestIpConfig family := by
  unfold NMPolicyRouting.updateIpRouting
  cases hbest : s.getBestIpConfig family with
  | none => simp
  | some best =>
    dsimp only
    split_ifs with hsame
    · simp only [Bool.and_eq_true, decide_eq_true_eq] at hsame
      exact hsame.2
    · simp

theorem updateIpRouting_known (family : AddrFamily) (forceUpdate : Bool)
    (h : ∃ ac ∈ s.activeConnections, ac.id = id ∧ ac.deactivated = false) :
    ∃ ac ∈ (s.updateIpRouting family forceUpdate).activeConnections,
      ac.id = id ∧ ac.deactivated = false := by
  unfold NMPolicyRouting.updateIpRouting
  cases s.getBestIpConfig family with
  | none => exact h
  | some best =>
    dsimp only
    split_ifs
    · exact h
    · obtain ⟨ac, hac, hid, halive⟩ := h
      exact ⟨_, mem_map_of_mem hac, hid, halive⟩

theorem Valid.flagsSound_iff (h : s.Valid) (family : AddrFamily) (forceUpdate : Bool) :
    FlagsSound family (s.updateIpRouting family forceUpdate) ↔
      (NoDefaultRoute family s → ∀ ac ∈ s.activeConnections, ac.isDefault family = false) := by
  have hdefault := updateIpRouting_defaultAc family forceUpdate s
  have hnext := h.updateIpRouting family forceUpdate
  rw [← getBestIpConfig_eq_none_iff]
  cases hbest : s.getBestIpConfig family with
  | none =>
    rw [hbest] at hdefault
    have hacs : (s.updateIpRouting family forceUpdate).activeConnections =
        s.activeConnections := by
      simp [NMPolicyRouting.updateIpRouting, hbest]
    constructor
    · intro hflags _ ac hac
      have hiff := hflags.flag_iff ac (hacs ▸ hac)
      simpa [hdefault] using hiff
    · intro hnone
      refine ⟨fun ac hac => ?_, by simp [hdefault]⟩
      rw [hacs] at hac
      simp [hdefault, hnone rfl ac hac]
  | some best =>
    rw [hbest] at hdefault
    simp only [reduceCtorEq, false_imp_iff, iff_true]
    obtain ⟨b, hb, rfl, halive⟩ :=
      updateIpRouting_known family forceUpdate (h.best_known hbest)
    refine ⟨fun ac hac => ?_, ?_⟩
    · rw [hdefault, Option.some.injEq, eq_comm (a := b.id)]
      cases hdead : ac.deactivated with
      | false => exact hnext.flags family b.id hdefault ac hac hdead
      | true =>
        have hne : ac.id ≠ b.id := by
          intro heq
          obtain rfl := eq_of_key_eq hnext.unique hac hb heq
          rw [halive] at hdead
          exact absurd hdead (by decide)
        simp [hnext.deadFlags ac hac hdead family, hne]
    · intro id hid
      obtain rfl : b.id = id := Option.some.inj (hdefault.symm.trans hid)
      exact ⟨b, hb, rfl⟩

theorem Valid.sound_iff (h : s.Valid) (e : RoutingEvent) : s.Sound e ↔ s.InReach e := by
  cases e with
  | updateRouting family forceUpdate =>
    have hdefault : DefaultSound family s
        ((s.step (.updateRouting family forceUpdate)).defaultAc family) := by
      have hpicked := getBestIpConfig_sound family s
      rwa [← updateIpRouting_defaultAc family forceUpdate s] at hpicked
    constructor
    · exact fun hsound => (h.flagsSound_iff family forceUpdate).mp hsound.1
    · exact fun hreach =>
        ⟨(h.flagsSound_iff family forceUpdate).mpr hreach, hdefault, orderFree_fullyActivated⟩
  | checkActivating => exact forall_congr' fun family => orderFree_activating_iff
  | _ => exact Iff.rfl

/-- The default connection is unique and well-defined in a run if and only if all of the run is in
reach. -/
theorem defaultAc_sound_iff (es : List RoutingEvent) :
    Along step Sound start es ↔ Along step InReach start es :=
  along_congr (fun _ e h => h.step e) start_valid fun _ e h => h.sound_iff e

/-- A device with a default route for IPv4. -/
def routedDevice (bestDefaultRoute : Option ℕ) : PolicyDevice where
  state := .activated
  external := false
  bestDefaultRoute := fun family => if family = .inet then bestDefaultRoute else none
  expectedMetric := fun _ => none
  actRequest := 0

def lostRouteRun : List RoutingEvent :=
  [.connectionAdded none, .devicesChanged [routedDevice (some 100)], .updateRouting .inet false,
    .devicesChanged [routedDevice none], .updateRouting .inet false]

/-- The flag stays where it was. -/
theorem lostRouteRun_not_sound : ¬ Along step Sound start lostRouteRun := by
  rintro ⟨-, -, -, -, ⟨hflags, -, -⟩, -⟩
  have h := hflags.flag_iff
  revert h
  decide

end NMPolicyRouting

end NetworkManager.Core
