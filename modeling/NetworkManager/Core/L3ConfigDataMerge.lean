import NetworkManager.Core.L3ConfigDataClone

/-!
# Merging a configuration into another one

`nm_l3_config_data_merge()` adds to a configuration what it does not have yet. An address
or a route is resolved to the interface, the table and the metric that it gets there, and
it is left out if one with its identity is tracked already. So merging the same source
again changes nothing.
-/

namespace NetworkManager.Core

open Lib Platform List

/-! ## What a merge is to do -/

/-- The objects of the source are added, in their order, where their keys are new. -/
structure FirstWins {α κ : Type} [DecidableEq κ] (key : α → κ) (self src merged : List α) :
    Prop where
  added : ∃ added, merged = self ++ added ∧ added.Sublist src
  once : ∀ x ∈ src, (∀ y ∈ self, key y ≠ key x) → merged.countP (fun y => key y = key x) = 1
  lookup_eq : ∀ k, lookup key k merged = (lookup key k self).or (lookup key k src)

theorem firstWins_missing {α κ : Type} [DecidableEq κ] (key : α → κ) (self src : List α) :
    FirstWins key self src (self ++ missing key self src) where
  added := ⟨_, rfl, missing_sublist⟩
  once _ hx hself := countP_append_missing hx hself
  lookup_eq _ := lookup_append_missing

/-- A value that was set stays. -/
def Keeps {α : Type} (unset self merged : α) : Prop := self ≠ unset → merged = self

section Resolved

variable {A R κA κR : Type}

def resolvedAddresses [NmpAddressClass A κA] (ifindex : ℤ) (hook : MergeHook A R)
    (addresses : List A) : List A :=
  (addresses.filter hook.addAddress).map fun a => rehome ifindex (mergeAddress ifindex hook a).val

/-- The metric with the default one and the penalty of a default route, both clamped. -/
def resolvedMetric (defaults : MergeDefaults) (r : PlatformIpRoute) : ℕ :=
  let metric := if r.metricAny then addClampedU32 r.metric defaults.routeMetric else r.metric
  if r.isDefault ∧ defaults.routePenalty > 0 then
    ipRouteMetricPenalize metric defaults.routePenalty
  else metric

/-- The route in the table and with the metric that it gets. -/
def resolvedRx (flags : MergeFlags) (defaults : MergeDefaults) (r : PlatformIpRoute) :
    PlatformIpRoute :=
  if flags.clone then r
  else
    { r with
      tableAny := false
      tableCoerced := if r.tableAny then routeTableCoerce defaults.routeTable else r.tableCoerced
      metricAny := false
      metric := resolvedMetric defaults r }

variable [NmpRouteClass R κR]

open NmpRouteClass

/-- The flags of the merge and the hook let the route through. -/
def AdmitsRoute (flags : MergeFlags) (ignoreMergeNoDefaultRoutes : Bool) (hook : MergeHook A R)
    (r : R) : Prop :=
  flags.noRoutes = false ∧ hook.addRoute r ∧
    ¬ (flags.clone = false ∧ (rx r).isDefault ∧ flags.noDefaultRoutes ∧
      ignoreMergeNoDefaultRoutes = false)

instance (flags : MergeFlags) (ignoreMergeNoDefaultRoutes : Bool) (hook : MergeHook A R) (r : R) :
    Decidable (AdmitsRoute flags ignoreMergeNoDefaultRoutes hook r) :=
  inferInstanceAs (Decidable (_ ∧ _))

def resolvedRoutes (ifindex : ℤ) (flags : MergeFlags) (ignoreMergeNoDefaultRoutes : Bool)
    (defaults : MergeDefaults) (hook : MergeHook A R) (routes : List R) : List R :=
  (routes.filter fun r => AdmitsRoute flags ignoreMergeNoDefaultRoutes hook r).map fun r =>
    rehome ifindex (withRx (resolvedRx flags defaults) r)

/-- The route cannot be taken over as it is. -/
def CopiesRoute (ifindex : ℤ) (flags : MergeFlags) (defaults : MergeDefaults) (r : R) : Prop :=
  NmpClass.ifindex r ≠ ifindex ∨ homeIfindex ifindex r ≠ ifindex ∨
    (flags.clone = false ∧ ((rx r).tableAny ∨ (rx r).metricAny ∨
      ((rx r).isDefault ∧ defaults.routePenalty > 0)))

instance (ifindex : ℤ) (flags : MergeFlags) (defaults : MergeDefaults) (r : R) :
    Decidable (CopiesRoute ifindex flags defaults r) :=
  inferInstanceAs (Decidable (_ ∨ _))

end Resolved

/-- What a merge does to the configuration of an address family. -/
structure L3IpConfig.Merged {A R κA κR : Type} [NmpAddressClass A κA] [NmpRouteClass R κR]
    [DecidableEq κA] [DecidableEq κR] (ifindex : ℤ) (flags : MergeFlags)
    (ignoreMergeNoDefaultRoutes : Bool) (defaults : MergeDefaults) (hook : MergeHook A R)
    (self src merged : L3IpConfig A R) : Prop where
  addresses : FirstWins NmpClass.objId self.addresses
    (resolvedAddresses ifindex hook src.addresses) merged.addresses
  routes : FirstWins NmpClass.objId self.routes
    (resolvedRoutes ifindex flags ignoreMergeNoDefaultRoutes defaults hook src.routes)
    merged.routes
  nameservers : self.nameservers <+: merged.nameservers
  domains : self.domains <+: merged.domains
  searches : self.searches <+: merged.searches
  dnsOptions : self.dnsOptions <+: merged.dnsOptions
  dnsPriority : self.hasDnsPriority = true →
    merged.hasDnsPriority = true ∧ merged.dnsPriority = self.dnsPriority
  routeTableSync : Keeps .none self.routeTableSync merged.routeTableSync
  neverDefault : Keeps .default self.neverDefault merged.neverDefault
  dhcpEnabled : Keeps false self.dhcpEnabled merged.dhcpEnabled
  dhcpLease : flags.clone = false → merged.dhcpLease = self.dhcpLease

/-- What a merge does to a configuration. Of two values for `metered` the greater one is
taken, and a clone is told its source. -/
structure L3ConfigData.Merged (flags : MergeFlags) (defaults4 defaults6 : MergeDefaults)
    (hook4 : MergeHook PlatformIp4Address ObjectIp4Route)
    (hook6 : MergeHook PlatformIp6Address PlatformIp6Route) (self src merged : L3ConfigData) :
    Prop where
  ifindex : merged.ifindex = self.ifindex
  ip4 : self.ip4.Merged self.ifindex flags src.ignoreMergeNoDefaultRoutes defaults4 hook4 src.ip4
    merged.ip4
  ip6 : self.ip6.Merged self.ifindex flags src.ignoreMergeNoDefaultRoutes defaults6 hook6 src.ip6
    merged.ip6
  wins : self.wins <+: merged.wins
  nisServers : self.nisServers <+: merged.nisServers
  nisDomain : Keeps none self.nisDomain merged.nisDomain
  mdns : Keeps .default self.mdns merged.mdns
  llmnr : Keeps .default self.llmnr merged.llmnr
  dnsOverTls : Keeps .default self.dnsOverTls merged.dnsOverTls
  ip6Token : Keeps 0 self.ip6Token merged.ip6Token
  ignoreMergeNoDefaultRoutes :
    merged.ignoreMergeNoDefaultRoutes = self.ignoreMergeNoDefaultRoutes
  source : merged.source = if flags.clone then src.source else self.source
  mtu : Keeps 0 self.mtu merged.mtu
  ip6Mtu : Keeps 0 self.ip6Mtu merged.ip6Mtu
  metered : merged.metered = self.metered.max src.metered
  proxyBrowserOnly : Keeps .default self.proxyBrowserOnly merged.proxyBrowserOnly
  proxyMethod : Keeps .unknown self.proxyMethod merged.proxyMethod
  proxyPacUrl : Keeps none self.proxyPacUrl merged.proxyPacUrl
  proxyPacScript : Keeps none self.proxyPacScript merged.proxyPacScript
  ip6Privacy : Keeps .unknown self.ip6Privacy merged.ip6Privacy
  mptcpFlags : Keeps 0 self.mptcpFlags merged.mptcpFlags
  ndiscHopLimit : Keeps none self.ndiscHopLimit merged.ndiscHopLimit
  ndiscReachableTimeMsec : Keeps none self.ndiscReachableTimeMsec merged.ndiscReachableTimeMsec
  ndiscRetransTimerMsec : Keeps none self.ndiscRetransTimerMsec merged.ndiscRetransTimerMsec

/-! ## The objects of an address family -/

/-- The public part of an address says everything. -/
class LawfulNmpAddressClass (α : Type) {κ : outParam Type} [NmpAddressClass α κ] : Prop
    extends LawfulNmpClass α where
  stackinit_eq : ∀ a : α, NmpClass.stackinit a = some a

instance : LawfulNmpAddressClass PlatformIp4Address where
  stackinit_eq _ := rfl

instance : LawfulNmpAddressClass PlatformIp6Address where
  stackinit_eq _ := rfl

/-- The common part of a route is read and written apart from the rest. -/
class LawfulNmpRouteRx (α : Type) {κ : outParam Type} [NmpRouteClass α κ] : Prop
    extends LawfulNmpClass α where
  withIfindex_eq : ∀ (i : ℤ) (r : α),
    NmpClass.withIfindex i r = NmpRouteClass.withRx (PlatformIpRoute.withIfindex i) r
  rx_withRx : ∀ (f : PlatformIpRoute → PlatformIpRoute) (r : α),
    NmpRouteClass.rx (NmpRouteClass.withRx f r) = f (NmpRouteClass.rx r)
  withRx_withRx : ∀ (f g : PlatformIpRoute → PlatformIpRoute) (r : α),
    NmpRouteClass.withRx f (NmpRouteClass.withRx g r) = NmpRouteClass.withRx (f ∘ g) r
  withRx_congr : ∀ {f g : PlatformIpRoute → PlatformIpRoute} {r : α},
    f (NmpRouteClass.rx r) = g (NmpRouteClass.rx r) →
      NmpRouteClass.withRx f r = NmpRouteClass.withRx g r
  withRx_id : ∀ r : α, NmpRouteClass.withRx (fun r => r) r = r
  isNodev_eq : ∀ r : α, NmpClass.isNodev r = (NmpRouteClass.rx r).isNodev
  isSome_stackinit_withRx : ∀ (f : PlatformIpRoute → PlatformIpRoute) (r : α),
    (NmpClass.stackinit (NmpRouteClass.withRx f r)).isSome = (NmpClass.stackinit r).isSome

instance : LawfulNmpRouteRx ObjectIp4Route where
  withIfindex_eq _ _ := rfl
  rx_withRx _ _ := rfl
  withRx_withRx _ _ _ := rfl
  withRx_congr {f g r} h := by
    have hrx : f r.toPlatformIpRoute = g r.toPlatformIpRoute := h
    simp only [NmpRouteClass.withRx, ObjectIp4Route.withRx, hrx]
  withRx_id _ := rfl
  isNodev_eq _ := rfl
  isSome_stackinit_withRx f r :=
    (ObjectIp4Route.isSome_stackinit (r.withRx f)).trans (ObjectIp4Route.isSome_stackinit r).symm

instance : LawfulNmpRouteRx PlatformIp6Route where
  withIfindex_eq _ _ := rfl
  rx_withRx _ _ := rfl
  withRx_withRx _ _ _ := rfl
  withRx_congr {f g r} h := by
    have hrx : f r.toPlatformIpRoute = g r.toPlatformIpRoute := h
    simp only [NmpRouteClass.withRx, PlatformIp6Route.withRx, hrx]
  withRx_id _ := rfl
  isNodev_eq _ := rfl
  isSome_stackinit_withRx _ _ := rfl

section Objects

variable {α κ : Type} [NmpClass α κ] [DecidableEq α] [DecidableEq κ]

open NmpClass

theorem addObj_exclusive (objs : List α) {i : ℤ} {new : NewObj α} {o : α}
    (ho : objNewStackinit i new = some o) :
    addObj objs i new .exclusive = some (match lookup objId (objId o) objs with
      | none => ⟨objs ++ [o], true, none, o⟩
      | some old => ⟨objs, false, some old, old⟩) := by
  simp only [addObj, ho, Option.bind_some]
  cases lookup objId (objId o) objs with
  | none => rfl
  | some old => simp [AddFlags.exclusive, addObjKeep]

end Objects

section Addresses

variable {A R κA : Type} [NmpAddressClass A κA]

open NmpClass

theorem objNewStackinit_address [LawfulNmpAddressClass A] (i : ℤ) (n : NewObj A) :
    objNewStackinit i n = some (rehome i n.val) :=
  objNewStackinit_eq (.inr (by simp [LawfulNmpAddressClass.stackinit_eq]))

theorem mergeAddresses_eq [LawfulNmpAddressClass A] [DecidableEq A] [DecidableEq κA] (i : ℤ) (hook : MergeHook A R)
    (c : L3IpConfig A R) (addresses : List A) :
    mergeAddresses i hook c addresses = some { c with
      addresses := c.addresses ++ missing objId c.addresses (resolvedAddresses i hook addresses) } := by
  unfold mergeAddresses
  induction addresses generalizing c with
  | nil => simp [resolvedAddresses, missing]
  | cons a as ih =>
    rw [foldlM_cons]
    cases ha : hook.addAddress a with
    | false =>
      have hres : resolvedAddresses i hook (a :: as) = resolvedAddresses i hook as := by
        simp [resolvedAddresses, ha]
      rw [if_neg Bool.false_ne_true, hres]
      exact ih c
    | true =>
      have hres : resolvedAddresses i hook (a :: as) =
          rehome i (mergeAddress i hook a).val :: resolvedAddresses i hook as := by
        simp [resolvedAddresses, ha]
      have hadd := addObj_exclusive c.addresses
        (objNewStackinit_address i (mergeAddress i hook a))
      rw [if_pos rfl, addAddressFull, hadd, hres, missing]
      cases lookup objId (objId (rehome i (mergeAddress i hook a).val)) c.addresses with
      | none =>
        refine (ih _).trans ?_
        simp
      | some old => exact ih c

end Addresses

section Routes

variable {A R κR : Type} [NmpRouteClass R κR] {written : Prop}
  {f : PlatformIpRoute → PlatformIpRoute} {r : R} {n : NewObj R}

open NmpClass NmpRouteClass LawfulNmpRouteRx

/-- What was made of the route `r`: the route itself as long as nothing was written to it. -/
structure IsCopy (written : Prop) (f : PlatformIpRoute → PlatformIpRoute) (r : R) (n : NewObj R) :
    Prop where
  val_eq : n.val = withRx f r
  eq_obj : ¬ written → n = .obj r

theorem IsCopy.rx_eq [LawfulNmpRouteRx R] (h : IsCopy written f r n) : rx n.val = f (rx r) := by
  rw [h.val_eq, rx_withRx]

theorem IsCopy.ensure [LawfulNmpRouteRx R] {c : Prop} {b : Bool} (hb : b = true ↔ c) [Decidable c]
    (g : PlatformIpRoute → PlatformIpRoute) (h : IsCopy written f r n) :
    IsCopy (written ∨ c) (fun x => if c then g (f x) else f x) r
      (if b then n.ensure (withRx g) else n) := by
  by_cases hc : c
  · simp only [if_pos (hb.mpr hc), if_pos hc]
    refine ⟨?_, fun hw => absurd (Or.inr hc) hw⟩
    calc (n.ensure (withRx g)).val = withRx g n.val := rfl
      _ = withRx g (withRx f r) := by rw [h.val_eq]
      _ = withRx (fun x => g (f x)) r := withRx_withRx g f r
  · simp only [if_neg (mt hb.mp hc), if_neg hc]
    exact ⟨h.val_eq, fun hw => h.eq_obj fun hwritten => hw (Or.inl hwritten)⟩

theorem IsCopy.objNewStackinit [LawfulNmpRouteRx R] (i : ℤ) (h : IsCopy written f r n)
    (hr : written ∨ ifindex r ≠ homeIfindex i r → (stackinit r).isSome) :
    objNewStackinit i n = some (rehome i (withRx f r)) := by
  rw [← h.val_eq]
  refine objNewStackinit_eq (or_iff_not_imp_right.mpr fun hnone => ?_)
  rw [h.val_eq, isSome_stackinit_withRx] at hnone
  have hnot := not_or.mp (mt hr hnone)
  have hobj := h.eq_obj hnot.1
  rw [hobj]
  exact ⟨rfl, not_not.mp hnot.2⟩

theorem rehome_withRx [LawfulNmpRouteRx R] (i : ℤ) (f : PlatformIpRoute → PlatformIpRoute) (r : R) :
    rehome i (withRx f r) =
      withRx (fun r => (f r).withIfindex (if (f r).isNodev then 0 else i)) r := by
  rw [rehome, withIfindex_eq, withRx_withRx, homeIfindex, isNodev_eq, rx_withRx]
  exact withRx_congr rfl

theorem rehome_withRx_congr [LawfulNmpRouteRx R] {i j : ℤ} {g : PlatformIpRoute → PlatformIpRoute}
    (h : f (rx r) = g (rx r) ∨ f (rx r) = (g (rx r)).withIfindex j) :
    rehome i (withRx f r) = rehome i (withRx g r) := by
  rw [rehome_withRx, rehome_withRx]
  apply withRx_congr
  rcases h with h | h
  · simp only [h]
  · simp only [h]
    rfl

variable (i : ℤ) (flags : MergeFlags) (ignore : Bool) (defaults : MergeDefaults)

def writeTable (r : PlatformIpRoute) : PlatformIpRoute :=
  { r with tableAny := false, tableCoerced := routeTableCoerce defaults.routeTable }

def writeMetric (r : PlatformIpRoute) : PlatformIpRoute :=
  { r with metricAny := false, metric := addClampedU32 r.metric defaults.routeMetric }

def writePenalty (r : PlatformIpRoute) : PlatformIpRoute :=
  { r with metric := ipRouteMetricPenalize r.metric defaults.routePenalty }

/-- The route with what `nm_l3_config_data_merge()` writes to it, in this order. -/
def writtenRx (moved : Bool) (r x : PlatformIpRoute) : PlatformIpRoute :=
  let x := if moved then x.withIfindex i else x
  let x := if r.tableAny then writeTable defaults x else x
  let x := if r.metricAny then writeMetric defaults x else x
  if r.isDefault ∧ defaults.routePenalty > 0 then writePenalty defaults x else x

theorem writtenRx_eq (moved : Bool) (r : PlatformIpRoute) (hclone : flags.clone = false) :
    writtenRx i defaults moved r r = resolvedRx flags defaults r ∨
      writtenRx i defaults moved r r = (resolvedRx flags defaults r).withIfindex i := by
  obtain ⟨⟩ := r
  simp only [writtenRx, resolvedRx, hclone, Bool.false_eq_true, if_false, resolvedMetric]
  cases moved with
  | false =>
    left
    split_ifs <;> simp_all [writeTable, writeMetric, writePenalty]
  | true =>
    right
    split_ifs <;> simp_all [writeTable, writeMetric, writePenalty, PlatformIpRoute.withIfindex]

/-- A default route may have to stay behind. -/
def DropsRoute (r : PlatformIpRoute) : Prop :=
  r.isDefault = true ∧ flags.noDefaultRoutes = true ∧ ignore = false

theorem mergeRouteDefaults_spec [LawfulNmpRouteRx R] {moved : Bool}
    (hn : IsCopy (moved = true) (fun x => if moved then x.withIfindex i else x) r n) :
    (DropsRoute flags ignore (rx r) ∧ mergeRouteDefaults flags ignore defaults n = none) ∨
      (¬ DropsRoute flags ignore (rx r) ∧
        ∃ n', mergeRouteDefaults flags ignore defaults n = some n' ∧
          IsCopy (((moved = true ∨ (rx r).tableAny) ∨ (rx r).metricAny) ∨
              ((rx r).isDefault ∧ defaults.routePenalty > 0))
            (writtenRx i defaults moved (rx r)) r n') := by
  have htableAny : (rx n.val).tableAny = true ↔ (rx r).tableAny = true := by
    rw [hn.rx_eq]
    split_ifs <;> rfl
  have htable := hn.ensure htableAny (writeTable defaults)
  revert htable
  generalize hn₁ : (if (rx n.val).tableAny = true then n.ensure (withRx (writeTable defaults))
    else n) = n₁
  intro htable
  have hmetricAny : (rx n₁.val).metricAny = true ↔ (rx r).metricAny = true := by
    rw [htable.rx_eq]
    split_ifs <;> rfl
  have hmetric := htable.ensure hmetricAny (writeMetric defaults)
  revert hmetric
  generalize hn₂ : (if (rx n₁.val).metricAny = true then n₁.ensure (withRx (writeMetric defaults))
    else n₁) = n₂
  intro hmetric
  have hdefault : (rx n₂.val).isDefault = (rx r).isDefault := by
    rw [hmetric.rx_eq]
    split_ifs <;> rfl
  have hmerge : mergeRouteDefaults flags ignore defaults n =
      if (rx n₂.val).isDefault then
        if flags.noDefaultRoutes ∧ ¬ ignore then none
        else if defaults.routePenalty > 0 then some (n₂.ensure (withRx (writePenalty defaults)))
        else some n₂
      else some n₂ := by
    rw [← hn₂, ← hn₁]
    rfl
  have hpenalty := hmetric.ensure (b := decide ((rx r).isDefault ∧ defaults.routePenalty > 0))
    decide_eq_true_iff (writePenalty defaults)
  rw [hmerge, hdefault, DropsRoute]
  by_cases hdef : (rx r).isDefault = true
  · by_cases hdrop : flags.noDefaultRoutes = true ∧ ignore = false
    · left
      simp [hdef, hdrop]
    · right
      refine ⟨fun h => hdrop h.2, ?_⟩
      rw [if_pos hdef, if_neg (by simpa using hdrop)]
      refine ⟨_, ?_, hpenalty⟩
      by_cases hpos : defaults.routePenalty > 0 <;> simp [hdef, hpos]
  · right
    refine ⟨fun h => hdef h.1, ?_⟩
    rw [if_neg hdef]
    refine ⟨_, ?_, hpenalty⟩
    simp [hdef]

/-- The route of the source is left behind, or is taken over with the table and the metric
to which they resolve. -/
theorem mergeRoute_spec [LawfulNmpRouteRx R] (r : R) :
    ((flags.clone = false ∧ DropsRoute flags ignore (rx r)) ∧
        mergeRoute i flags ignore defaults r = none) ∨
      (¬ (flags.clone = false ∧ DropsRoute flags ignore (rx r)) ∧
        ∃ n, mergeRoute i flags ignore defaults r = some n ∧
          ((CopiesRoute i flags defaults r → (stackinit r).isSome) →
            objNewStackinit i n = some (rehome i (withRx (resolvedRx flags defaults) r)))) := by
  have hhome (h : ifindex r ≠ homeIfindex i r) : CopiesRoute i flags defaults r := by
    by_cases hi : ifindex r = i
    · exact .inr (.inl fun heq => h (hi.trans heq.symm))
    · exact .inl hi
  have hindex : (withIfindex i : R → R) = withRx (PlatformIpRoute.withIfindex i) :=
    funext (withIfindex_eq i)
  have hobj : IsCopy False (fun x => x) r (.obj r) := ⟨(withRx_id r).symm, fun _ => rfl⟩
  have hmoved := hobj.ensure (c := decide (ifindex r ≠ i) = true) Iff.rfl
    (PlatformIpRoute.withIfindex i)
  rw [false_or] at hmoved
  revert hmoved
  generalize hn : (if decide (ifindex r ≠ i) = true then
    (NewObj.obj r).ensure (withRx (PlatformIpRoute.withIfindex i)) else .obj r) = n
  intro hmoved
  have hmerge : mergeRoute i flags ignore defaults r =
      if flags.clone then some n else mergeRouteDefaults flags ignore defaults n := by
    simp only [mergeRoute, hindex, ← hn, decide_eq_true_eq]
    rfl
  rw [hmerge]
  cases hclone : flags.clone with
  | true =>
    refine .inr ⟨fun h => Bool.noConfusion h.1, n, rfl, fun hsome => ?_⟩
    rw [hmoved.objNewStackinit i fun h =>
      hsome (h.elim (fun h => .inl (of_decide_eq_true h)) hhome)]
    refine congrArg some (rehome_withRx_congr (j := i) ?_)
    simp only [resolvedRx, hclone, if_true]
    split_ifs
    · exact .inr rfl
    · exact .inl rfl
  | false =>
    rcases mergeRouteDefaults_spec i flags ignore defaults hmoved with
      ⟨hdrop, hnone⟩ | ⟨hdrop, n', hn', hcopy⟩
    · exact .inl ⟨⟨rfl, hdrop⟩, hnone⟩
    · refine .inr ⟨fun h => hdrop h.2, n', hn', fun hsome => ?_⟩
      have hwritten : ((decide (ifindex r ≠ i) = true ∨ (rx r).tableAny) ∨ (rx r).metricAny) ∨
          ((rx r).isDefault ∧ defaults.routePenalty > 0) → CopiesRoute i flags defaults r := by
        rw [decide_eq_true_eq]
        rintro (((h | h) | h) | h)
        · exact .inl h
        · exact .inr (.inr ⟨hclone, .inl h⟩)
        · exact .inr (.inr ⟨hclone, .inr (.inl h)⟩)
        · exact .inr (.inr ⟨hclone, .inr (.inr h)⟩)
      rw [hcopy.objNewStackinit i fun h => hsome (h.elim hwritten hhome)]
      exact congrArg some (rehome_withRx_congr (writtenRx_eq i flags defaults _ (rx r) hclone))

end Routes

section MergeRoutes

variable {A R κR : Type} [NmpRouteClass R κR]

open NmpClass NmpRouteClass

variable (i : ℤ) (flags : MergeFlags) (ignore : Bool) (defaults : MergeDefaults)

theorem admitsRoute_iff (hook : MergeHook A R) (hroutes : flags.noRoutes = false) (r : R) :
    AdmitsRoute flags ignore hook r ↔
      hook.addRoute r = true ∧ ¬ (flags.clone = false ∧ DropsRoute flags ignore (rx r)) := by
  simp [AdmitsRoute, DropsRoute, hroutes]

variable [DecidableEq κR]

/-- The configuration with the routes that it did not have. -/
def withMissingRoutes (c : L3IpConfig A R) (routes : List R) : L3IpConfig A R :=
  { c with
    routes := c.routes ++ missing objId c.routes routes
    bestDefaultRoute :=
      (missing objId c.routes routes).foldl bestDefaultRouteFindBetter c.bestDefaultRoute }

theorem withMissingRoutes_cons (c : L3IpConfig A R) (r : R) (rs : List R) :
    withMissingRoutes c (r :: rs) = withMissingRoutes (withMissingRoutes c [r]) rs := by
  simp only [withMissingRoutes, missing]
  cases lookup objId (objId r) c.routes with
  | none => simp
  | some old => simp

variable [DecidableEq R]

variable {i} in
theorem addRouteFull_exclusive {c : L3IpConfig A R} {new : NewObj R} {o : R}
    (ho : objNewStackinit i new = some o) :
    (addRouteFull i c new .exclusive).map AddRouteResult.self = some (withMissingRoutes c [o]) := by
  rw [addRouteFull, addObj_exclusive _ ho, withMissingRoutes, missing]
  cases lookup objId (objId o) c.routes with
  | none =>
    have hbest : bestDefaultRouteMerge c.bestDefaultRoute ⟨c.routes ++ [o], true, none, o⟩ =
        bestDefaultRouteFindBetter c.bestDefaultRoute o := by
      cases c.bestDefaultRoute <;> rfl
    simp [hbest, missing]
  | some old => simp [missing]

theorem mergeRoutes_eq [LawfulNmpRouteRx R] (hook : MergeHook A R) (c : L3IpConfig A R) (routes : List R)
    (hcopy : ∀ r ∈ routes, AdmitsRoute flags ignore hook r → CopiesRoute i flags defaults r →
      (stackinit r).isSome) :
    mergeRoutes i flags ignore defaults hook c routes =
      some (withMissingRoutes c (resolvedRoutes i flags ignore defaults hook routes)) := by
  unfold mergeRoutes
  cases hroutes : flags.noRoutes with
  | true => simp [resolvedRoutes, AdmitsRoute, hroutes, withMissingRoutes, missing]
  | false =>
    rw [if_neg Bool.false_ne_true]
    induction routes generalizing c with
    | nil => simp [resolvedRoutes, withMissingRoutes, missing]
    | cons r rs ih =>
      have hrest := fun c => ih c fun r hr => hcopy r (mem_cons_of_mem _ hr)
      have hadmits := admitsRoute_iff flags ignore hook hroutes r
      rw [foldlM_cons]
      by_cases hr : AdmitsRoute flags ignore hook r
      · have hres : resolvedRoutes i flags ignore defaults hook (r :: rs) =
            rehome i (withRx (resolvedRx flags defaults) r) ::
              resolvedRoutes i flags ignore defaults hook rs := by
          simp [resolvedRoutes, hr]
        obtain ⟨hhook, hkeep⟩ := hadmits.mp hr
        rcases mergeRoute_spec i flags ignore defaults r with ⟨hdrop, -⟩ | ⟨-, n, hn, hnew⟩
        · exact absurd hdrop hkeep
        · rw [if_pos hhook, hn, hres, withMissingRoutes_cons]
          have hadd := addRouteFull_exclusive (c := c) (hnew (hcopy r mem_cons_self hr))
          dsimp only
          rw [hadd]
          exact hrest _
      · have hres : resolvedRoutes i flags ignore defaults hook (r :: rs) =
            resolvedRoutes i flags ignore defaults hook rs := by
          simp [resolvedRoutes, hr]
        rw [hres]
        cases hhook : hook.addRoute r with
        | false =>
          rw [if_neg Bool.false_ne_true]
          exact hrest c
        | true =>
          rcases mergeRoute_spec i flags ignore defaults r with ⟨-, hnone⟩ | ⟨hkeep, -⟩
          · rw [if_pos rfl, hnone]
            exact hrest c
          · exact absurd (hadmits.mpr ⟨hhook, hkeep⟩) hr

end MergeRoutes

/-! ## The whole configuration -/

section Again

variable {α : Type} [DecidableEq α]

theorem arrayMerge_again (self src : List α) :
    arrayMerge (arrayMerge self src) src = arrayMerge self src := by
  have hnew : src.filter (fun x => x ∉ arrayMerge self src) = [] := by
    simp only [arrayMerge, filter_eq_nil_iff, decide_eq_true_eq, not_not, mem_append,
      mem_filter]
    exact fun x hx => or_iff_not_imp_left.mpr fun hself => ⟨hx, hself⟩
  rw [arrayMerge, hnew, append_nil]

theorem mergeDefault_again (unset self src : α) :
    mergeDefault unset (mergeDefault unset self src) src = mergeDefault unset self src := by
  unfold mergeDefault
  split_ifs <;> rfl

theorem keeps_mergeDefault (unset self src : α) : Keeps unset self (mergeDefault unset self src) :=
  fun hself => if_neg hself

omit [DecidableEq α] in
theorem keeps_or (self src : Option α) : Keeps none self (self.or src) := by
  intro hself
  cases self with
  | none => exact absurd rfl hself
  | some x => rfl

omit [DecidableEq α] in
theorem or_again (self src : Option α) : (self.or src).or src = self.or src := by
  cases self <;> cases src <;> rfl

theorem Ternary.max_again (self src : Ternary) : (self.max src).max src = self.max src := by
  cases self <;> cases src <;> rfl

end Again

section MergeIp

variable {A R κA κR : Type} [NmpAddressClass A κA] [NmpRouteClass R κR] [DecidableEq κA]
  [DecidableEq κR] (i : ℤ) (flags : MergeFlags) (ignore : Bool) (defaults : MergeDefaults) (hook : MergeHook A R)

open NmpClass

/-- What `nm_l3_config_data_merge()` makes of the configuration of an address family. -/
def mergedIp (self src : L3IpConfig A R) : L3IpConfig A R :=
  let resolved := resolvedAddresses i hook src.addresses
  let withAddresses :=
    { self with addresses := self.addresses ++ missing objId self.addresses resolved }
  mergeIpParameters flags defaults
    (withMissingRoutes withAddresses (resolvedRoutes i flags ignore defaults hook src.routes)) src

theorem mergeIp_eq [LawfulNmpAddressClass A] [LawfulNmpRouteRx R] [DecidableEq A] [DecidableEq R]
    (self src : L3IpConfig A R)
    (hcopy : ∀ r ∈ src.routes, AdmitsRoute flags ignore hook r → CopiesRoute i flags defaults r →
      (stackinit r).isSome) :
    mergeIp i flags ignore defaults hook self src =
      some (mergedIp i flags ignore defaults hook self src) := by
  simp only [mergeIp, mergeAddresses_eq, Option.bind_eq_bind, Option.bind_some,
    mergeRoutes_eq i flags ignore defaults hook _ src.routes hcopy, mergedIp]
  rfl

theorem merged_mergedIp (self src : L3IpConfig A R) :
    self.Merged i flags ignore defaults hook src (mergedIp i flags ignore defaults hook self src) := by
  have hprefix (dst : List String) (src : List String) :
      dst <+: if flags.noDns then dst else arrayMerge dst src := by
    split_ifs
    · exact prefix_refl dst
    · exact prefix_append dst _
  constructor
  · exact firstWins_missing objId _ _
  · exact firstWins_missing objId _ _
  · exact hprefix _ _
  · exact hprefix _ _
  · exact hprefix _ _
  · exact hprefix _ _
  · intro hself
    simp [mergedIp, mergeIpParameters, withMissingRoutes, hself]
  · exact keeps_mergeDefault _ _ _
  · exact keeps_mergeDefault _ _ _
  · intro hself
    simp [mergedIp, mergeIpParameters, withMissingRoutes, hself]
  · intro hclone
    simp [mergedIp, mergeIpParameters, withMissingRoutes, hclone]

theorem mergedIp_again (self src : L3IpConfig A R) :
    mergedIp i flags ignore defaults hook (mergedIp i flags ignore defaults hook self src) src =
      mergedIp i flags ignore defaults hook self src := by
  simp only [mergedIp, mergeIpParameters, withMissingRoutes, missing_append_missing,
    append_nil, foldl_nil, mergeDefault_again]
  cases flags.noDns <;> cases self.hasDnsPriority <;> cases src.hasDnsPriority <;>
    cases flags.clone <;> cases src.dhcpEnabled <;> simp [arrayMerge_again]

end MergeIp

section CmpSelf

variable {A R κA κR : Type}

theorem dedupMultiIndexCmp_self {α κ : Type} [NmpClass α κ] [LawfulNmpClass α] (objs : List α) :
    dedupMultiIndexCmp true true objs objs = .eq := by
  unfold dedupMultiIndexCmp
  apply cmpList_self
  exact nmpObjectCmpFull_self false

theorem cmpAddresses_self [NmpClass A κA] [LawfulNmpClass A] (c : L3IpConfig A R) :
    cmpAddresses .all c c = .eq := dedupMultiIndexCmp_self c.addresses

theorem cmpRoutes_self [NmpClass R κR] [LawfulNmpClass R] (c : L3IpConfig A R) :
    cmpRoutes .all c c = .eq := dedupMultiIndexCmp_self c.routes

theorem cmpDns_self (c : L3IpConfig A R) : cmpDns c c = .eq := by
  simp [cmpDns, cmpList_self]

theorem cmpOther_self (c : L3IpConfig A R) : cmpOther c c = .eq := by
  have hlease (l : DhcpLease) : l.cmp l = .eq := by simp [DhcpLease.cmp, cmpList_self]
  simp [cmpOther, cmpPtr_self hlease]

theorem cmpIp_self [NmpClass R κR] [DecidableEq R] (c : L3IpConfig A R) : cmpIp .all c c = some .eq := by
  simp [cmpIp, cmpBestDefaultRoute, cmpDns_self, cmpOther_self]

end CmpSelf

namespace L3ConfigData

theorem cmpFull_self (l : L3ConfigData) : cmpFull (some l) (some l) .all = some .eq := by
  have hptr {α : Type} [Ord α] [Std.ReflOrd α] (o : Option α) : cmpPtr compare o o = .eq :=
    cmpPtr_self (fun _ => Std.compare_self) o
  have hdns : cmpDnsParameters l l = .eq := by simp [cmpDnsParameters, cmpList_self, hptr]
  have hother : cmpOtherParameters l l = .eq := by simp [cmpOtherParameters, hptr]
  simp [cmpFull, cmpAddresses_self, cmpRoutes_self, cmpIp_self, hdns, hother]

/-- What `nm_l3_config_data_merge()` makes of a configuration. -/
def merged (self src : L3ConfigData) (flags : MergeFlags) (defaults4 defaults6 : MergeDefaults)
    (hook4 : MergeHook PlatformIp4Address ObjectIp4Route)
    (hook6 : MergeHook PlatformIp6Address PlatformIp6Route) : L3ConfigData :=
  let ignore := src.ignoreMergeNoDefaultRoutes
  mergeParameters flags
    { self with
      ip4 := mergedIp self.ifindex flags ignore defaults4 hook4 self.ip4 src.ip4
      ip6 := mergedIp self.ifindex flags ignore defaults6 hook6 self.ip6 src.ip6 }
    src

section Merge

variable (self src : L3ConfigData) (flags : MergeFlags) (defaults4 defaults6 : MergeDefaults)
  (hook4 : MergeHook PlatformIp4Address ObjectIp4Route)
  (hook6 : MergeHook PlatformIp6Address PlatformIp6Route)

theorem merge_eq (hcopy : ∀ r ∈ src.ip4.routes,
      AdmitsRoute flags src.ignoreMergeNoDefaultRoutes hook4 r →
      CopiesRoute self.ifindex flags defaults4 r → r.nNexthops ≤ 1) :
    self.merge src flags defaults4 defaults6 hook4 hook6 =
      some (self.merged src flags defaults4 defaults6 hook4 hook6) := by
  have h4 := mergeIp_eq self.ifindex flags src.ignoreMergeNoDefaultRoutes defaults4 hook4 self.ip4
    src.ip4 fun r hr hadmits hcopies => by
      have hsome : (NmpClass.stackinit r).isSome = decide (r.nNexthops ≤ 1) :=
        ObjectIp4Route.isSome_stackinit r
      rw [hsome, decide_eq_true_iff]
      exact hcopy r hr hadmits hcopies
  have h6 := mergeIp_eq self.ifindex flags src.ignoreMergeNoDefaultRoutes defaults6 hook6 self.ip6
    src.ip6 fun r _ _ _ => rfl
  simp only [merge, h4, h6, Option.bind_eq_bind, Option.bind_some, merged]
  rfl

theorem merged_merged :
    self.Merged flags defaults4 defaults6 hook4 hook6 src
      (self.merged src flags defaults4 defaults6 hook4 hook6) := by
  have hprefix (dst src : List (BitVec 32)) :
      dst <+: if flags.noDns then dst else arrayMerge dst src := by
    split_ifs
    · exact prefix_refl dst
    · exact prefix_append dst _
  have hdomain : Keeps none self.nisDomain
      (if flags.noDns then self.nisDomain else self.nisDomain.or src.nisDomain) := by
    split_ifs
    · exact fun _ => rfl
    · exact keeps_or _ _
  constructor
  case ifindex => rfl
  case ip4 => exact merged_mergedIp _ _ _ _ _ _ _
  case ip6 => exact merged_mergedIp _ _ _ _ _ _ _
  case wins => exact hprefix _ _
  case nisServers => exact hprefix _ _
  case nisDomain => exact hdomain
  case ignoreMergeNoDefaultRoutes => rfl
  case source => rfl
  case metered => rfl
  case proxyPacUrl => exact keeps_or _ _
  case proxyPacScript => exact keeps_or _ _
  case ndiscHopLimit => exact keeps_or _ _
  case ndiscReachableTimeMsec => exact keeps_or _ _
  case ndiscRetransTimerMsec => exact keeps_or _ _
  all_goals exact keeps_mergeDefault _ _ _

theorem merged_again :
    (self.merged src flags defaults4 defaults6 hook4 hook6).merged src flags defaults4 defaults6
        hook4 hook6 =
      self.merged src flags defaults4 defaults6 hook4 hook6 := by
  simp only [merged, mergeParameters, mergedIp_again, mergeDefault_again, or_again,
    Ternary.max_again]
  cases flags.noDns <;> cases flags.clone <;> simp [arrayMerge_again, or_again]

/-- A merge that copies no IPv4 route with several next hops keeps what was set, takes over
what was not, and changes nothing when it is repeated. -/
theorem merge_firstWins (hcopy : ∀ r ∈ src.ip4.routes,
      AdmitsRoute flags src.ignoreMergeNoDefaultRoutes hook4 r →
      CopiesRoute self.ifindex flags defaults4 r → r.nNexthops ≤ 1) :
    ∃ l, self.merge src flags defaults4 defaults6 hook4 hook6 = some l ∧
      self.Merged flags defaults4 defaults6 hook4 hook6 src l ∧
        ∃ l', l.merge src flags defaults4 defaults6 hook4 hook6 = some l' ∧
          cmpFull (some l) (some l') .all = some .eq := by
  refine ⟨_, merge_eq self src flags defaults4 defaults6 hook4 hook6 hcopy, merged_merged _ _ _ _ _ _ _,
    _, merge_eq _ src flags defaults4 defaults6 hook4 hook6 hcopy, ?_⟩
  rw [merged_again]
  exact cmpFull_self _

/-- A route to a host in a table and with a metric of the default. -/
def exampleAnyRoute : ObjectIp4Route where
  toPlatformIp4Route :=
    { (default : PlatformIp4Route) with
      ifindex := 4, plen := 32, network := 1, tableAny := true, metricAny := true }
  extraNexthops := []
  length_extraNexthops := length_noExtraNexthops

def exampleUnmetered : L3ConfigData := { new 3 .user with metered := .false }

def exampleMetered : L3ConfigData :=
  { new 4 .dhcp with
    metered := .true
    ip4 := { (L3IpConfig.new : L3Ip4Config) with routes := [exampleAnyRoute] } }

theorem merge_firstWins_exampleMetered :
    ∃ l, exampleUnmetered.merge exampleMetered ⟨false, false, false, false⟩ .ip4 .ip6 .null .null =
        some l ∧
      exampleUnmetered.Merged ⟨false, false, false, false⟩ .ip4 .ip6 .null .null exampleMetered l ∧
        ∃ l', l.merge exampleMetered ⟨false, false, false, false⟩ .ip4 .ip6 .null .null =
            some l' ∧
          cmpFull (some l) (some l') .all = some .eq :=
  merge_firstWins exampleUnmetered exampleMetered ⟨false, false, false, false⟩ .ip4 .ip6 .null .null
    (by decide)

/-- A configuration that is known not to be metered becomes metered. -/
theorem merge_overrides_metered : exampleUnmetered.metered = .false ∧
    (exampleUnmetered.merge exampleMetered ⟨false, false, false, false⟩ .ip4 .ip6 .null .null).map
      L3ConfigData.metered = some .true := by
  decide

end Merge

end L3ConfigData

end NetworkManager.Core
