import NetworkManager.Lib.Runs
import Mathlib.Data.Finset.Card
import Mathlib.Algebra.Order.Ring.Int

/-!
# Default route metrics of devices

Every device reserves the metrics from the one that it aspires to up to the one that it got. A
device gets the next metric that is not reserved, for at most 50 metrics. The entries of a hash
table come in any order, and those without a link are forgotten on the way.
-/

namespace NetworkManager.Core

open Lib List

inductive NMDeviceType
  | unknown | ethernet | wifi | unused1 | unused2 | bt | olpcMesh | wimax | modem | infiniband
  | bond | vlan | adsl | bridge | generic | team | tun | ipTunnel | macvlan | vxlan | veth | macsec
  | dummy | ppp | ovsInterface | ovsPort | ovsBridge | wpan | sixlowpan | wireguard | wifiP2p | vrf
  | loopback | hsr

def deviceGetRouteMetricDefault : NMDeviceType → ℕ
  | .loopback => 30
  | .wireguard => 50
  | .ethernet | .veth => 100
  | .macsec => 125
  | .infiniband => 150
  | .adsl => 200
  | .wimax => 250
  | .hsr => 275
  | .bond => 300
  | .team => 350
  | .vlan => 400
  | .macvlan => 410
  | .bridge => 425
  | .tun => 450
  | .ppp => 460
  | .vrf => 470
  | .vxlan => 500
  | .dummy => 550
  | .wifi => 600
  | .olpcMesh => 650
  | .ipTunnel => 675
  | .modem => 700
  | .bt => 750
  | .sixlowpan => 775
  | .ovsBridge | .ovsInterface | .ovsPort => 800
  | .wpan => 850
  | .wifiP2p | .generic => 950
  | .unknown => 10000
  | .unused1 | .unused2 => 11000

/-- `G_MAXUINT32` -/
def maxMetric : ℕ := 2 ^ 32 - 1

structure DeviceRouteMetricData where
  ifindex : ℤ
  aspiredMetric : ℕ
  effectiveMetric : ℕ
  deriving DecidableEq

def DeviceRouteMetricData.new (ifindex : ℤ) (aspiredMetric effectiveMetric : ℕ) :
    DeviceRouteMetricData :=
  ⟨ifindex, aspiredMetric, if effectiveMetric ≠ 0 then effectiveMetric else aspiredMetric⟩

/-- The metric is reserved by the entry. -/
def DeviceRouteMetricData.Reserves (d : DeviceRouteMetricData) (metric : ℕ) : Prop :=
  d.aspiredMetric ≤ metric ∧ metric ≤ d.effectiveMetric

instance (d : DeviceRouteMetricData) (metric : ℕ) : Decidable (d.Reserves metric) :=
  inferInstanceAs (Decidable (_ ∧ _))

/-- The orders in which one iteration after the other gives the entries of a hash table. -/
structure HashOrder where
  order : ℕ → List DeviceRouteMetricData → List DeviceRouteMetricData
  perm : ∀ n l, (order n l).Perm l

/-- How an iteration over the entries ends. -/
inductive MetricIteration
  | done (metric : ℕ)
  | again (metric : ℕ)

section Search

variable (links : Finset ℤ) (cleaned : Bool) (aspired : ℕ)

/-- One iteration from `again:` on, with the entries that it removes. -/
def metricIteration (effective : ℕ) :
    List DeviceRouteMetricData → List DeviceRouteMetricData × MetricIteration
  | [] => ([], .done effective)
  | d2 :: l =>
    if ¬d2.Reserves effective then metricIteration effective l
    else if !cleaned ∧ d2.ifindex ∉ links then
      let (removed, result) := metricIteration effective l
      (d2 :: removed, result)
    else if d2.effectiveMetric = maxMetric then ([], .done maxMetric)
    -- the difference does not wrap around: the effective metric is not below the aspired one
    else if 50 ≤ d2.effectiveMetric - aspired then ([], .done (aspired + 50))
    else ([], .again (d2.effectiveMetric + 1))

theorem metricIteration_again {effective metric : ℕ} {l : List DeviceRouteMetricData}
    (h : (metricIteration links cleaned aspired effective l).2 = .again metric) :
    effective < metric ∧ metric ≤ aspired + 50 := by
  induction l with
  | nil => simp [metricIteration] at h
  | cons d l ih =>
    unfold metricIteration at h
    split at h
    · exact ih h
    · rename_i hreserves
      split at h
      · exact ih h
      · split at h
        · simp at h
        · split at h
          · simp at h
          · have hle := (not_not.mp hreserves).2
            simp only [MetricIteration.again.injEq] at h
            omega

def withoutRemoved (removed table : List DeviceRouteMetricData) : List DeviceRouteMetricData :=
  table.filter (· ∉ removed)

/-- The search for the effective metric, with the entries that are left. -/
def metricSearch (order : HashOrder) (n : ℕ) (table : List DeviceRouteMetricData)
    (effective : ℕ) : List DeviceRouteMetricData × ℕ :=
  match h : metricIteration links cleaned aspired effective (order.order n table) with
  | (removed, .done metric) => (withoutRemoved removed table, metric)
  | (removed, .again metric) => metricSearch order (n + 1) (withoutRemoved removed table) metric
termination_by aspired + 51 - effective
decreasing_by
  have hbump := metricIteration_again _ _ _ (congrArg Prod.snd h)
  omega

end Search

/-- The fields of `NMManagerPrivate` with the links of the platform and the entries of the state
files. -/
structure MetricManager where
  deviceRouteMetrics : Option (List DeviceRouteMetricData)
  links : Finset ℤ
  deviceStates : List DeviceRouteMetricData

namespace MetricManager

variable (self : MetricManager)

def entries : List DeviceRouteMetricData :=
  self.deviceRouteMetrics.getD
    ((self.deviceStates.filter fun d => d.effectiveMetric ≠ 0 ∧ d.ifindex ∈ self.links).map fun d =>
      .new d.ifindex d.aspiredMetric d.effectiveMetric)

/-- `_device_route_metric_get()`, with the effective and the aspired metric. -/
def deviceRouteMetricGet (order : HashOrder) (ifindex : ℤ) (deviceType : NMDeviceType)
    (lookupOnly : Bool) : MetricManager × ℕ × ℕ :=
  let aspired := deviceGetRouteMetricDefault deviceType
  if ifindex ≤ 0 then (self, if lookupOnly then (0, 0) else (aspired, aspired))
  else if lookupOnly ∧ self.deviceRouteMetrics.isNone then (self, 0, 0)
  else
    let cleaned := self.deviceRouteMetrics.isNone
    let table := self.entries
    match table.find? (·.ifindex = ifindex) with
    | some data =>
      ({ self with deviceRouteMetrics := some table }, data.effectiveMetric, data.aspiredMetric)
    | none =>
      if lookupOnly then ({ self with deviceRouteMetrics := some table }, 0, 0)
      else
        let prune := !cleaned && max 20 (self.links.card * 2) < table.length
        let table := if prune then table.filter (·.ifindex ∈ self.links) else table
        let (table, effective) :=
          metricSearch self.links (cleaned || prune) aspired order 0 table aspired
        ({ self with deviceRouteMetrics := some (⟨ifindex, aspired, effective⟩ :: table) },
          effective, aspired)

def deviceRouteMetricClear (ifindex : ℤ) : MetricManager :=
  { self with
    deviceRouteMetrics := self.deviceRouteMetrics.map fun l => l.filter (·.ifindex ≠ ifindex) }

end MetricManager

/-- A call, or a change of the links of the platform. -/
inductive MetricEvent
  | get (order : HashOrder) (ifindex : ℤ) (deviceType : NMDeviceType) (lookupOnly : Bool)
  | clear (ifindex : ℤ)
  | setLinks (links : Finset ℤ)

def MetricManager.step (self : MetricManager) : MetricEvent → MetricManager
  | .get order ifindex deviceType lookupOnly =>
    (self.deviceRouteMetricGet order ifindex deviceType lookupOnly).1
  | .clear ifindex => self.deviceRouteMetricClear ifindex
  | .setLinks links => { self with links := links }

/-! ## The metric that is not reserved -/

/-- The metric is reserved by an entry that has a link. -/
def Reserved (links : Finset ℤ) (table : List DeviceRouteMetricData) (metric : ℕ) : Prop :=
  ∃ d ∈ table, d.ifindex ∈ links ∧ d.Reserves metric

instance (links : Finset ℤ) (table : List DeviceRouteMetricData) :
    DecidablePred (Reserved links table) :=
  fun _ => inferInstanceAs (Decidable (∃ d ∈ table, _))

def bumpedMetric (links : Finset ℤ) (table : List DeviceRouteMetricData) (aspired : ℕ) : ℕ :=
  (((List.range 50).map (aspired + ·)).find? fun metric => ¬Reserved links table metric).getD
    (aspired + 50)

section Spec

variable {links : Finset ℤ} {cleaned : Bool} {aspired effective metric n : ℕ} {order : HashOrder}
  {l table table' removed : List DeviceRouteMetricData} {d : DeviceRouteMetricData}

theorem bumpedMetric_eq (hle : aspired ≤ metric) (hcap : metric ≤ aspired + 50)
    (hbefore : ∀ v, aspired ≤ v → v < metric → Reserved links table v)
    (hend : metric = aspired + 50 ∨ ¬Reserved links table metric) :
    bumpedMetric links table aspired = metric := by
  unfold bumpedMetric
  rcases Nat.lt_or_eq_of_le hcap with hlt | rfl
  · have hfree : ¬Reserved links table metric := hend.resolve_left (by omega)
    have hfind : ((List.range 50).map (aspired + ·)).find?
        (fun metric => ¬Reserved links table metric) = some metric := by
      rw [List.find?_eq_some_iff_getElem]
      refine ⟨by simpa using hfree, metric - aspired, by simp; omega, by simp; omega, ?_⟩
      intro j hj
      simpa using hbefore (aspired + j) (by omega) (by omega)
    rw [hfind, Option.getD_some]
  · have hnone : ((List.range 50).map (aspired + ·)).find?
        (fun metric => ¬Reserved links table metric) = none := by
      rw [List.find?_eq_none]
      intro v hv
      obtain ⟨i, hi, rfl⟩ := mem_map.mp hv
      have hlt : i < 50 := mem_range.mp hi
      simpa using hbefore (aspired + i) (by omega) (by omega)
    rw [hnone, Option.getD_none]

/-- The metric of a new entry. If the entries reserve all metrics up to the last one that there is,
it may be that one. -/
def NewMetric (links : Finset ℤ) (table : List DeviceRouteMetricData) (aspired metric : ℕ) : Prop :=
  (aspired ≤ metric ∧ metric ≤ aspired + 50 ∧
    (metric = aspired + 50 ∨ ¬Reserved links table metric) ∧
    metric = bumpedMetric links table aspired) ∨
  (metric = maxMetric ∧ (∀ v, aspired ≤ v → v ≤ aspired + 50 → Reserved links table v) ∧
    ∃ d ∈ table, d.ifindex ∈ links ∧ d.effectiveMetric = maxMetric)

/-- The other table has the same entries with a link. -/
def Shrunk (links : Finset ℤ) (table table' : List DeviceRouteMetricData) : Prop :=
  ∃ keep : DeviceRouteMetricData → Bool, table' = table.filter keep ∧
    ∀ d ∈ table, d.ifindex ∈ links → keep d

theorem Shrunk.refl : Shrunk links table table := ⟨fun _ => true, by simp, by simp⟩

section

variable (h : Shrunk links table table')

include h

theorem Shrunk.trans {table'' : List DeviceRouteMetricData} (h' : Shrunk links table' table'')
    : Shrunk links table table'' := by
  obtain ⟨keep, rfl, hkeep⟩ := h
  obtain ⟨keep', rfl, hkeep'⟩ := h'
  refine ⟨fun d => keep d && keep' d, by rw [filter_filter]; congr 1; grind, ?_⟩
  intro d hd hlink
  have hk := hkeep d hd hlink
  simp [hk, hkeep' d (mem_filter.mpr ⟨hd, hk⟩) hlink]

theorem Shrunk.mem_iff (hlink : d.ifindex ∈ links) : d ∈ table' ↔ d ∈ table := by
  obtain ⟨keep, rfl, hkeep⟩ := h
  rw [mem_filter]
  exact and_iff_left_of_imp fun hd => hkeep d hd hlink

theorem Shrunk.reserved_iff : Reserved links table' metric ↔ Reserved links table metric := by
  unfold Reserved
  constructor
  · rintro ⟨d, hd, hlink, hreserves⟩
    exact ⟨d, (h.mem_iff hlink).mp hd, hlink, hreserves⟩
  · rintro ⟨d, hd, hlink, hreserves⟩
    exact ⟨d, (h.mem_iff hlink).mpr hd, hlink, hreserves⟩

theorem Shrunk.newMetric (hm : NewMetric links table' aspired metric) :
    NewMetric links table aspired metric := by
  unfold NewMetric bumpedMetric at hm ⊢
  simp only [h.reserved_iff] at hm
  refine hm.imp_right fun ⟨hmax, hall, d, hd, hlink, heq⟩ => ⟨hmax, hall, d, ?_, hlink, heq⟩
  exact (h.mem_iff hlink).mp hd

theorem Shrunk.find?_eq (hlink : d.ifindex ∈ links)
    (hfind : table.find? (·.ifindex = d.ifindex) = some d) :
    table'.find? (·.ifindex = d.ifindex) = some d := by
  obtain ⟨keep, rfl, hkeep⟩ := h
  have hmem : d ∈ table := mem_of_find?_eq_some hfind
  rw [List.find?_filter]
  rw [List.find?_eq_some_iff_append] at hfind ⊢
  obtain ⟨hd, before, after, heq, hbefore⟩ := hfind
  refine ⟨by simp [hkeep d hmem hlink], before, after, heq, ?_⟩
  intro x hx
  have := hbefore x hx
  simp_all

end

/-! ## The search -/

theorem removed_not_mem_links (hd : d ∈ (metricIteration links cleaned aspired effective l).1) :
    d.ifindex ∉ links := by
  induction l with
  | nil => simp [metricIteration] at hd
  | cons d2 l ih =>
    unfold metricIteration at hd
    split at hd
    · exact ih hd
    · split at hd
      case isTrue hstale =>
        rcases mem_cons.mp hd with rfl | hd
        · exact hstale.2
        · exact ih hd
      case isFalse =>
        split at hd
        · simp at hd
        · split at hd <;> simp at hd

/-- An iteration ends without a reserved metric, or at the first entry with a link that reserves
the metric. -/
theorem metricIteration_cases (hclean : cleaned → ∀ d ∈ l, d.ifindex ∈ links) :
    (metricIteration links cleaned aspired effective l).2 = .done effective ∧
        ¬Reserved links l effective ∨
      ∃ d ∈ l, d.ifindex ∈ links ∧ d.Reserves effective ∧
        (metricIteration links cleaned aspired effective l).2 =
          if d.effectiveMetric = maxMetric then .done maxMetric
          else if 50 ≤ d.effectiveMetric - aspired then .done (aspired + 50)
          else .again (d.effectiveMetric + 1) := by
  induction l with
  | nil => exact .inl ⟨rfl, by simp [Reserved]⟩
  | cons d2 l ih =>
    have htail := ih fun hc d hd => hclean hc d (mem_cons_of_mem d2 hd)
    have hcons (hskip : d2.ifindex ∈ links → ¬d2.Reserves effective)
        (heq : (metricIteration links cleaned aspired effective (d2 :: l)).2 =
          (metricIteration links cleaned aspired effective l).2) :
        (metricIteration links cleaned aspired effective (d2 :: l)).2 = .done effective ∧
            ¬Reserved links (d2 :: l) effective ∨
          ∃ d ∈ d2 :: l, d.ifindex ∈ links ∧ d.Reserves effective ∧
            (metricIteration links cleaned aspired effective (d2 :: l)).2 =
              if d.effectiveMetric = maxMetric then .done maxMetric
              else if 50 ≤ d.effectiveMetric - aspired then .done (aspired + 50)
              else .again (d.effectiveMetric + 1) := by
      rw [heq]
      refine htail.imp (fun ⟨hdone, hfree⟩ => ⟨hdone, ?_⟩) fun ⟨d, hd, h⟩ =>
        ⟨d, mem_cons_of_mem d2 hd, h⟩
      rintro ⟨d, hd, hlink, hreserves⟩
      rcases mem_cons.mp hd with rfl | hd
      · exact hskip hlink hreserves
      · exact hfree ⟨d, hd, hlink, hreserves⟩
    by_cases hreserves : d2.Reserves effective
    · by_cases hstale : !cleaned ∧ d2.ifindex ∉ links
      · exact hcons (fun hlink => absurd hlink hstale.2) (by simp [metricIteration, hreserves, hstale])
      · have hlink : d2.ifindex ∈ links := by
          by_contra hnot
          cases cleaned with
          | false => exact hstale ⟨rfl, hnot⟩
          | true => exact hnot (hclean rfl d2 mem_cons_self)
        refine .inr ⟨d2, mem_cons_self, hlink, hreserves, ?_⟩
        rw [metricIteration, if_neg (not_not.mpr hreserves), if_neg hstale]
        split
        · rfl
        · split <;> rfl
    · exact hcons (fun _ => hreserves) (by simp [metricIteration, hreserves])

theorem shrunk_filter_removed (l : List DeviceRouteMetricData) :
    Shrunk links table (withoutRemoved (metricIteration links cleaned aspired effective l).1 table) :=
  ⟨_, rfl, fun _ _ hlink => decide_eq_true fun hd => removed_not_mem_links hd hlink⟩

theorem newMetric_of_done (hlow : aspired ≤ effective) (hcap : effective ≤ aspired + 50)
    (hmax : aspired + 50 ≤ maxMetric)
    (hbefore : ∀ v, aspired ≤ v → v < effective → Reserved links table v)
    (hcases : MetricIteration.done metric = .done effective ∧ ¬Reserved links table effective ∨
      ∃ d ∈ table, d.ifindex ∈ links ∧ d.Reserves effective ∧
        MetricIteration.done metric =
          if d.effectiveMetric = maxMetric then .done maxMetric
          else if 50 ≤ d.effectiveMetric - aspired then .done (aspired + 50)
          else .again (d.effectiveMetric + 1)) :
    NewMetric links table aspired metric := by
  rcases hcases with ⟨hdone, hfree⟩ | ⟨d, hd, hlink, hreserves, hresult⟩
  · obtain rfl := MetricIteration.done.inj hdone
    exact .inl ⟨hlow, hcap, .inr hfree, (bumpedMetric_eq hlow hcap hbefore (.inr hfree)).symm⟩
  · have hall (v : ℕ) (hv : aspired ≤ v) (hle : v ≤ d.effectiveMetric) :
        Reserved links table v := by
      rcases Nat.lt_or_ge v effective with hlt | hge
      · exact hbefore v hv hlt
      · exact ⟨d, hd, hlink, Nat.le_trans hreserves.1 hge, hle⟩
    split at hresult
    case isTrue heq =>
      exact .inr ⟨MetricIteration.done.inj hresult, fun v hv hle => hall v hv (by omega),
        d, hd, hlink, heq⟩
    case isFalse =>
      split at hresult
      case isTrue hfar =>
        obtain rfl := MetricIteration.done.inj hresult
        have hbumped := @bumpedMetric_eq links _ _ table
          (Nat.le_add_right aspired 50) (Nat.le_refl _)
          (fun v hv hlt => hall v hv (by omega)) (.inl rfl)
        exact .inl ⟨Nat.le_add_right _ _, Nat.le_refl _, .inl rfl, hbumped.symm⟩
      case isFalse => cases hresult

/-- The search keeps the entries with a link and finds the metric of a new entry. -/
theorem metricSearch_spec (order : HashOrder) (hlow : aspired ≤ effective)
    (hcap : effective ≤ aspired + 50) (hmax : aspired + 50 ≤ maxMetric)
    (hclean : cleaned → ∀ d ∈ table, d.ifindex ∈ links)
    (hbefore : ∀ v, aspired ≤ v → v < effective → Reserved links table v) :
    Shrunk links table (metricSearch links cleaned aspired order n table effective).1 ∧
      NewMetric links table aspired
        (metricSearch links cleaned aspired order n table effective).2 := by
  induction n, table, effective using metricSearch.induct links cleaned aspired order with
  | case1 n table effective removed metric h =>
    have hmem {d : DeviceRouteMetricData} : d ∈ order.order n table ↔ d ∈ table :=
      (order.perm n table).mem_iff
    have hcases := @metricIteration_cases _ _ aspired effective _
      fun hc d hd => hclean hc d (hmem.mp hd)
    have hshrunk := @shrunk_filter_removed links cleaned aspired effective table
      (order.order n table)
    simp only [h, Reserved, hmem] at hcases hshrunk
    rw [metricSearch]
    split
    case h_1 removed' metric' heq =>
      obtain ⟨rfl, hresult⟩ := Prod.mk.inj (heq.symm.trans h)
      obtain rfl := MetricIteration.done.inj hresult
      exact ⟨hshrunk, newMetric_of_done hlow hcap hmax hbefore hcases⟩
    case h_2 removed' metric' heq => simp [h] at heq
  | case2 n table effective removed metric h ih =>
    have hmem {d : DeviceRouteMetricData} : d ∈ order.order n table ↔ d ∈ table :=
      (order.perm n table).mem_iff
    have hcases := @metricIteration_cases _ _ aspired effective _
      fun hc d hd => hclean hc d (hmem.mp hd)
    have hshrunk := @shrunk_filter_removed links cleaned aspired effective table
      (order.order n table)
    simp only [h, Reserved, hmem] at hcases hshrunk
    have hbump : effective < metric ∧ metric ≤ aspired + 50 :=
      metricIteration_again _ _ _ (congrArg Prod.snd h)
    obtain ⟨d, hd, hlink, hreserves, rfl⟩ : ∃ d ∈ table, d.ifindex ∈ links ∧
        d.Reserves effective ∧ metric = d.effectiveMetric + 1 := by
      rcases hcases with ⟨hdone, -⟩ | ⟨d, hd, hlink, hreserves, hresult⟩
      · cases hdone
      · refine ⟨d, hd, hlink, hreserves, ?_⟩
        grind
    have hbefore' (v : ℕ) (hv : aspired ≤ v) (hlt : v < d.effectiveMetric + 1) :
        Reserved links (withoutRemoved removed table) v := by
      rw [hshrunk.reserved_iff]
      rcases Nat.lt_or_ge v effective with hbelow | hge
      · exact hbefore v hv hbelow
      · exact ⟨d, hd, hlink, Nat.le_trans hreserves.1 hge, by omega⟩
    obtain ⟨htail, hnew⟩ := ih (by omega) hbump.2
      (fun hc d hd => hclean hc d (mem_of_mem_filter hd)) hbefore'
    rw [metricSearch]
    split
    case h_1 removed' metric' heq => simp [h] at heq
    case h_2 removed' metric' heq =>
      obtain ⟨rfl, hresult⟩ := Prod.mk.inj (heq.symm.trans h)
      obtain rfl := MetricIteration.again.inj hresult
      exact ⟨hshrunk.trans htail, hshrunk.newMetric hnew⟩

end Spec

/-! ## Reservations -/

namespace MetricManager

variable {self : MetricManager} {order : HashOrder} {ifindex : ℤ} {deviceType : NMDeviceType}
  {d : DeviceRouteMetricData}

theorem le_maxMetric (deviceType : NMDeviceType) :
    deviceGetRouteMetricDefault deviceType + 50 ≤ maxMetric := by
  cases deviceType <;> decide

theorem entries_mem_links (h : self.deviceRouteMetrics.isNone) :
    ∀ d ∈ self.entries, d.ifindex ∈ self.links := by
  rw [Option.isNone_iff_eq_none] at h
  simp only [entries, h, Option.getD_none, mem_map, mem_filter]
  rintro d ⟨state, ⟨-, hstate⟩, rfl⟩
  exact (of_decide_eq_true hstate).2

theorem deviceRouteMetricGet_new (hpos : 0 < ifindex)
    (hfind : self.entries.find? (·.ifindex = ifindex) = none) :
    ∃ table metric, Shrunk self.links self.entries table ∧
      NewMetric self.links self.entries (deviceGetRouteMetricDefault deviceType) metric ∧
      self.deviceRouteMetricGet order ifindex deviceType false =
        ({ self with
            deviceRouteMetrics :=
              some (⟨ifindex, deviceGetRouteMetricDefault deviceType, metric⟩ :: table) },
          metric, deviceGetRouteMetricDefault deviceType) := by
  have hnot : ¬ifindex ≤ 0 := by omega
  let prune := !self.deviceRouteMetrics.isNone && max 20 (self.links.card * 2) < self.entries.length
  let table :=
    if prune then self.entries.filter (·.ifindex ∈ self.links) else self.entries
  have hshrunk : Shrunk self.links self.entries table := by
    unfold table
    split
    · exact ⟨_, rfl, fun _ _ hlink => decide_eq_true hlink⟩
    · exact Shrunk.refl
  have hclean : (self.deviceRouteMetrics.isNone || prune) → ∀ d ∈ table, d.ifindex ∈ self.links := by
    intro hc d hd
    by_cases hprune : prune
    · simp only [table, hprune, if_true] at hd
      exact of_decide_eq_true (mem_filter.mp hd).2
    · simp only [table, hprune] at hd
      simp only [hprune, Bool.or_false] at hc
      exact entries_mem_links hc d hd
  obtain ⟨hsearch, hnew⟩ := metricSearch_spec (n := 0) order (Nat.le_refl _) (Nat.le_add_right _ 50)
    (le_maxMetric deviceType) hclean (fun v hv hlt => absurd hlt (by omega))
  refine ⟨_, _, hshrunk.trans hsearch, hshrunk.newMetric hnew, ?_⟩
  simp only [deviceRouteMetricGet, if_neg hnot, hfind]
  rfl

/-- The entry is there and its link exists. -/
def Has (self : MetricManager) (d : DeviceRouteMetricData) : Prop :=
  d.ifindex ∈ self.links ∧ ∃ table, self.deviceRouteMetrics = some table ∧
    table.find? (·.ifindex = d.ifindex) = some d

theorem Has.get (h : self.Has d) (hpos : 0 < d.ifindex) (lookupOnly : Bool) :
    (self.deviceRouteMetricGet order d.ifindex deviceType lookupOnly).2.1 = d.effectiveMetric := by
  obtain ⟨-, table, htable, hfind⟩ := h
  have hnot : ¬d.ifindex ≤ 0 := by omega
  simp [deviceRouteMetricGet, hnot, entries, htable, hfind]

theorem Has.getOther (h : self.Has d) (lookupOnly : Bool) :
    (self.deviceRouteMetricGet order ifindex deviceType lookupOnly).1.Has d := by
  obtain ⟨hlink, table, htable, hfind⟩ := h
  have hentries : self.entries = table := by simp [entries, htable]
  have hhas : Has { self with deviceRouteMetrics := some table } d := ⟨hlink, table, rfl, hfind⟩
  by_cases hpos : ifindex ≤ 0
  · simpa [deviceRouteMetricGet, hpos] using ⟨hlink, table, htable, hfind⟩
  · cases hother : table.find? (·.ifindex = ifindex) with
    | some data =>
      simpa [deviceRouteMetricGet, hpos, hentries, htable, hother] using hhas
    | none =>
      cases lookupOnly with
      | true =>
        simpa [deviceRouteMetricGet, hpos, hentries, htable, hother] using hhas
      | false =>
        obtain ⟨table', metric, hshrunk, -, heq⟩ := @deviceRouteMetricGet_new _ order _
          deviceType (Int.not_le.mp hpos) (hentries ▸ hother)
        rw [heq]
        refine ⟨hlink, _, rfl, ?_⟩
        have hne : ifindex ≠ d.ifindex := by
          rintro rfl
          simp [hfind] at hother
        rw [List.find?_cons_of_neg (by simpa using hne)]
        exact (hentries ▸ hshrunk).find?_eq hlink hfind

end MetricManager

/-- The event does not clear the entry of the device, and its link exists afterwards. -/
def MetricEvent.Keeps (ifindex : ℤ) : MetricEvent → Prop
  | .get .. => True
  | .clear cleared => cleared ≠ ifindex
  | .setLinks links => ifindex ∈ links

namespace MetricManager

variable {self : MetricManager} {d : DeviceRouteMetricData}

theorem Has.step (h : self.Has d) {e : MetricEvent} (he : e.Keeps d.ifindex) :
    (self.step e).Has d := by
  cases e with
  | get order ifindex deviceType lookupOnly => exact h.getOther lookupOnly
  | setLinks links => exact ⟨he, h.2⟩
  | clear ifindex =>
    obtain ⟨hlink, table, htable, hfind⟩ := h
    refine ⟨hlink, table.filter (·.ifindex ≠ ifindex),
      by simp [MetricManager.step, deviceRouteMetricClear, htable], ?_⟩
    have hne : d.ifindex ≠ ifindex := Ne.symm he
    rw [List.find?_filter]
    have hsame (x : DeviceRouteMetricData) : decide (decide (x.ifindex ≠ ifindex) = true ∧
        decide (x.ifindex = d.ifindex) = true) = decide (x.ifindex = d.ifindex) := by grind
    simpa only [hsame] using hfind

theorem Has.run (h : self.Has d) {events : List MetricEvent}
    (hevents : ∀ e ∈ events, e.Keeps d.ifindex) : (events.foldl MetricManager.step self).Has d := by
  induction events generalizing self with
  | nil => exact h
  | cons e events ih =>
    obtain ⟨he, htail⟩ := forall_mem_cons.mp hevents
    exact ih (h.step he) htail

theorem exists_has (order : HashOrder) {ifindex : ℤ} (deviceType : NMDeviceType) (hpos : 0 < ifindex)
    (hlink : ifindex ∈ self.links) :
    ∃ d : DeviceRouteMetricData, d.ifindex = ifindex ∧
      (self.deviceRouteMetricGet order ifindex deviceType false).1.Has d ∧
      (self.deviceRouteMetricGet order ifindex deviceType false).2.1 = d.effectiveMetric := by
  cases hfind : self.entries.find? (·.ifindex = ifindex) with
  | none =>
    obtain ⟨table, metric, -, -, heq⟩ := @deviceRouteMetricGet_new _ order _
      deviceType hpos hfind
    rw [heq]
    exact ⟨⟨ifindex, deviceGetRouteMetricDefault deviceType, metric⟩, rfl,
      ⟨hlink, _, rfl, List.find?_cons_of_pos (by simp)⟩, rfl⟩
  | some d =>
    have hifindex : d.ifindex = ifindex := by simpa using List.find?_some hfind
    have hnot : ¬ifindex ≤ 0 := by omega
    refine ⟨d, hifindex, ?_, by simp [deviceRouteMetricGet, hnot, hfind]⟩
    have hhas : Has { self with deviceRouteMetrics := some self.entries } d :=
      ⟨hifindex ▸ hlink, _, rfl, by rwa [hifindex]⟩
    simpa [deviceRouteMetricGet, hnot, hfind] using hhas

/-- In every run, a device without an entry reserves the smallest metric from the aspired one on that
no other entry with a link reserves, up to 50 above it, or the last metric if that is reserved with
all of these. The device has this metric until it is cleared or its link is gone. -/
theorem deviceRouteMetricGet_run (deviceStates : List DeviceRouteMetricData) (links : Finset ℤ)
    (events : List MetricEvent) (order : HashOrder) (ifindex : ℤ) (deviceType : NMDeviceType) :
    let self := events.foldl MetricManager.step ⟨none, links, deviceStates⟩
    let aspired := deviceGetRouteMetricDefault deviceType
    let r := self.deviceRouteMetricGet order ifindex deviceType false
    (ifindex ≤ 0 ∧ r = (self, aspired, aspired)) ∨
    0 < ifindex ∧
      (self.entries.find? (·.ifindex = ifindex) = none →
        NewMetric self.links self.entries aspired r.2.1) ∧
      (ifindex ∈ self.links → ∀ later : List MetricEvent, (∀ e ∈ later, e.Keeps ifindex) →
        ∀ order deviceType lookupOnly,
          ((later.foldl MetricManager.step r.1).deviceRouteMetricGet order ifindex deviceType
            lookupOnly).2.1 = r.2.1) := by
  intro self aspired r
  by_cases hpos : 0 < ifindex
  · refine .inr ⟨hpos, ?_, ?_⟩
    · intro hfind
      obtain ⟨table, metric, -, hnew, heq⟩ := @deviceRouteMetricGet_new _ order _
        deviceType hpos hfind
      simpa only [r, heq] using hnew
    · intro hlink later hlater order' deviceType' lookupOnly
      obtain ⟨d, rfl, hhas, hmetric⟩ := exists_has order deviceType hpos hlink
      rw [(hhas.run hlater).get hpos, ← hmetric]
  · have hle : ifindex ≤ 0 := by omega
    exact .inl ⟨hle, by simp [r, deviceRouteMetricGet, hle, aspired]⟩

/-- A device has all metrics from 100 on by its state file. -/
theorem deviceRouteMetricGet_exceeds :
    ∃ (self : MetricManager) (order : HashOrder),
      self = ⟨none, {2, 3}, [⟨2, 100, 4294967295⟩]⟩ ∧
      ¬(self.deviceRouteMetricGet order 3 .ethernet false).2.1 ≤
        deviceGetRouteMetricDefault .ethernet + 50 := by
  refine ⟨_, ⟨fun _ l => l, fun _ l => List.Perm.refl l⟩, rfl, ?_⟩
  simp [deviceRouteMetricGet, entries, DeviceRouteMetricData.new, metricSearch, metricIteration,
    DeviceRouteMetricData.Reserves, deviceGetRouteMetricDefault, maxMetric]

end MetricManager

end NetworkManager.Core
