import NetworkManager.Core.L3ConfigDataTracked

/-!
# Cloning a configuration

`nm_l3_config_data_new_clone()` merges the source into a new configuration, and asserts
that the two compare equal. The merge takes every address and every route to its new
interface, in their order, but it leaves the DHCP leases and one of the flags behind, it
chooses the best default route again, and it cannot copy an IPv4 route with several next
hops to another interface.
-/

namespace NetworkManager.Core

open Lib Platform List

/-! ## Copying the objects -/

variable {i j : ℤ}

section Objects

variable {α κ : Type} [NmpClass α κ]

open NmpClass

/-- The object is found again, or its public part says everything. -/
def Clonable (i : ℤ) (a : α) : Prop := ifindex a = i ∨ (stackinit a).isSome

instance (i : ℤ) (a : α) : Decidable (Clonable i a) := inferInstanceAs (Decidable (_ ∨ _))

def mergeObj (i : ℤ) (a : α) : NewObj α :=
  if ifindex a ≠ i then (NewObj.obj a).ensure (withIfindex i) else .obj a

/-- An object that is already on the interface stays on it. -/
def StaysHome (i : ℤ) (a : α) : Prop := ifindex a = i → homeIfindex i a = i

theorem objNewStackinit_mergeObj [LawfulNmpClass α] {a : α} (hhome : StaysHome i a) :
    objNewStackinit i (mergeObj i a) = if Clonable i a then some (rehome i a) else none := by
  by_cases hi : ifindex a = i
  · have hmerge : mergeObj i a = .obj a := by simp [mergeObj, hi]
    rw [hmerge, if_pos (.inl hi)]
    exact objNewStackinit_eq (.inl ⟨rfl, hi.trans (hhome hi).symm⟩)
  · have hsome := LawfulNmpClass.isSome_stackinit_withIfindex i a
    have hmerge : mergeObj i a = .pl (withIfindex i a) := by
      rw [mergeObj, if_pos hi]
      rfl
    rw [hmerge]
    split_ifs with hclonable
    · have hyes := hclonable.resolve_left hi
      rw [← hsome] at hyes
      exact (objNewStackinit_eq (.inr hyes)).trans (congrArg some (rehome_withIfindex i i a))
    · have hnone : stackinit (withIfindex i a) = none := by
        rw [← Option.not_isSome_iff_eq_none, hsome]
        exact fun h => hclonable (.inr h)
      rw [objNewStackinit, hnone, Option.map_none]

theorem addObj_of_fresh [DecidableEq α] [DecidableEq κ] {objs : List α} {new : NewObj α}
    {flags : AddFlags} {o : α} (ho : objNewStackinit i new = some o)
    (hfresh : ∀ b ∈ objs, objId b ≠ objId o) :
    addObj objs i new flags = some ⟨objs ++ [o], true, none, o⟩ := by
  simp only [addObj, ho, Option.bind_some, lookup_eq_none_iff.mpr hfresh]

theorem Tracked.unique_rehome [LawfulNmpClass α] (hi : 0 < i) (hj : 0 < j) {objs : List α}
    (h : Tracked i objs) : KeyUnique objId (objs.map (rehome j)) := by
  have hnodup : (objs.map objId).Nodup := h.unique
  unfold KeyUnique
  rw [map_map]
  refine List.Nodup.map_on ?_ (List.Nodup.of_map objId hnodup)
  intro a ha b hb hab
  have hid : objId (rehome i a) = objId (rehome i b) := LawfulNmpClass.id_rehome hj hi hab
  rw [h.rehome_eq ha, h.rehome_eq hb] at hid
  exact inj_on_of_nodup_map hnodup ha hb hid

theorem Tracked.staysHome (hj : 0 < j) {objs : List α} (h : Tracked i objs) :
    ∀ a ∈ objs, StaysHome j a := by
  intro a ha hindex
  have hhome := (h.ifindex_eq a ha).symm.trans hindex
  unfold homeIfindex at hhome ⊢
  split_ifs at hhome ⊢
  · exact absurd hj (by omega)
  · rfl

end Objects

/-! ## The addresses and routes of one family -/

section CloneIp

variable {A R κA κR : Type}

theorem ne_objId_of_unique {α κ : Type} [NmpClass α κ] {objs : List α} {b : α} {bs : List α}
    (h : KeyUnique NmpClass.objId (objs ++ b :: bs)) :
    ∀ a ∈ objs, NmpClass.objId a ≠ NmpClass.objId b := by
  intro a ha
  rw [KeyUnique, map_append, nodup_append] at h
  exact h.2.2 _ (mem_map_of_mem ha) _ (by simp)

theorem foldl_append_addresses [NmpClass A κA] (i : ℤ) (c : L3IpConfig A R) (as : List A) :
    as.foldl (fun c a => { c with addresses := c.addresses ++ [rehome i a] }) c =
      { c with addresses := c.addresses ++ as.map (rehome i) } := by
  induction as generalizing c with
  | nil => simp
  | cons a as ih => simp [ih]

theorem mergeAddresses_null [NmpAddressClass A κA] [LawfulNmpClass A] [DecidableEq A]
    [DecidableEq κA] (c : L3IpConfig A R) (addresses : List A)
    (hfresh : KeyUnique NmpClass.objId (c.addresses ++ addresses.map (rehome i)))
    (hhome : ∀ a ∈ addresses, StaysHome i a) :
    mergeAddresses i .null c addresses =
      if ∀ a ∈ addresses, Clonable i a then
        some { c with addresses := c.addresses ++ addresses.map (rehome i) }
      else none := by
  rw [← foldl_append_addresses]
  refine foldlM_eq_ite (J := fun c as => KeyUnique NmpClass.objId
    (c.addresses ++ as.map (rehome i)) ∧ ∀ a ∈ as, StaysHome i a) ?_ ?_ ⟨hfresh, hhome⟩
  · rintro c a as ⟨hc, hhome⟩
    have hadd := objNewStackinit_mergeObj (hhome a mem_cons_self)
    have hnew : mergeAddress i (MergeHook.null : MergeHook A R) a = mergeObj i a := rfl
    simp only [MergeHook.null, if_true, addAddressFull] at hnew ⊢
    rw [hnew]
    by_cases ha : Clonable i a
    · rw [if_pos ha] at hadd
      rw [addObj_of_fresh hadd (ne_objId_of_unique hc), if_pos ha]
      rfl
    · rw [if_neg ha] at hadd
      rw [addObj, hadd, if_neg ha]
      rfl
  · rintro c a as ⟨hc, hhome⟩
    exact ⟨by simpa using hc, (forall_mem_cons.mp hhome).2⟩

/-- The configuration with the routes, and with a best default route chosen among them. -/
def appendRoutes [NmpRouteClass R κR] (i : ℤ) (c : L3IpConfig A R) (routes : List R) :
    L3IpConfig A R :=
  { c with
    routes := c.routes ++ routes.map (rehome i)
    bestDefaultRoute := (routes.map (rehome i)).foldl bestDefaultRouteFindBetter c.bestDefaultRoute }

theorem foldl_appendRoutes [NmpRouteClass R κR] (i : ℤ) (c : L3IpConfig A R) (rs : List R) :
    rs.foldl (fun c r => appendRoutes i c [r]) c = appendRoutes i c rs := by
  induction rs generalizing c with
  | nil => simp [appendRoutes]
  | cons r rs ih =>
    rw [foldl_cons, ih]
    simp [appendRoutes]

theorem bestDefaultRouteMerge_append [NmpRouteClass R κR] [DecidableEq R] (best : Option R)
    (objs : List R) (o : R) :
    bestDefaultRouteMerge best ⟨objs, true, none, o⟩ = bestDefaultRouteFindBetter best o := by
  cases best <;> rfl

theorem mergeRoutes_clone [NmpRouteClass R κR] [LawfulNmpClass R] [DecidableEq R] [DecidableEq κR]
    (ignore : Bool) (defaults : MergeDefaults) (c : L3IpConfig A R) (routes : List R)
    (hfresh : KeyUnique NmpClass.objId (c.routes ++ routes.map (rehome i)))
    (hhome : ∀ r ∈ routes, StaysHome i r) :
    mergeRoutes i .cloneFlags ignore defaults .null c routes =
      if ∀ r ∈ routes, Clonable i r then some (appendRoutes i c routes) else none := by
  rw [← foldl_appendRoutes]
  refine foldlM_eq_ite (J := fun c rs => KeyUnique NmpClass.objId
    (c.routes ++ rs.map (rehome i)) ∧ ∀ r ∈ rs, StaysHome i r) ?_ ?_ ⟨hfresh, hhome⟩
  · rintro c r rs ⟨hc, hhome⟩
    have hadd := objNewStackinit_mergeObj (hhome r mem_cons_self)
    have hnew : mergeRoute i .cloneFlags ignore defaults r = some (mergeObj i r) := rfl
    simp only [MergeHook.null, if_true, addRouteFull, hnew]
    by_cases hr : Clonable i r
    · rw [if_pos hr] at hadd
      rw [addObj_of_fresh hadd (ne_objId_of_unique hc), if_pos hr]
      simp [appendRoutes, bestDefaultRouteMerge_append]
    · rw [if_neg hr] at hadd
      rw [addObj, hadd, if_neg hr]
      rfl
  · rintro c r rs ⟨hc, hhome⟩
    exact ⟨by simpa [appendRoutes] using hc, (forall_mem_cons.mp hhome).2⟩

@[simp] theorem arrayMerge_nil {α : Type} [DecidableEq α] (src : List α) :
    arrayMerge [] src = src := by
  simp [arrayMerge]

@[simp] theorem mergeDefault_self {α : Type} [DecidableEq α] (default src : α) :
    mergeDefault default default src = src := by
  simp [mergeDefault]

/-- What the clone of a configuration has for an address family. -/
def clonedIp [NmpClass A κA] [NmpRouteClass R κR] (i : ℤ) (c : L3IpConfig A R) :
    L3IpConfig A R :=
  { c with
    addresses := c.addresses.map (rehome i)
    routes := c.routes.map (rehome i)
    bestDefaultRoute := (c.routes.map (rehome i)).foldl bestDefaultRouteFindBetter none
    dhcpLease := none
    dnsPriority := if c.hasDnsPriority then c.dnsPriority else 0 }

theorem mergeIpParameters_clone {defaults : MergeDefaults} (addresses : List A)
    (routes : List R) (bestDefaultRoute : Option R) (src : L3IpConfig A R) :
    mergeIpParameters .cloneFlags defaults
        { (L3IpConfig.new : L3IpConfig A R) with addresses, routes, bestDefaultRoute } src =
      { src with
        addresses, routes, bestDefaultRoute
        dhcpLease := none
        dnsPriority := if src.hasDnsPriority then src.dnsPriority else 0 } := by
  cases hp : src.hasDnsPriority <;> cases he : src.dhcpEnabled <;>
    simp [mergeIpParameters, MergeFlags.cloneFlags, L3IpConfig.new, hp, he]

variable [NmpAddressClass A κA] [LawfulNmpClass A] [DecidableEq A] [DecidableEq κA]
  [NmpRouteClass R κR] [LawfulNmpRouteClass R] [DecidableEq R] [DecidableEq κR]

theorem mergeIp_clone (hi : 0 < i) (hj : 0 < j) (ignore : Bool) (defaults : MergeDefaults)
    {c : L3IpConfig A R} (hc : c.WellFormed i) :
    mergeIp j .cloneFlags ignore defaults .null .new c =
      if (∀ a ∈ c.addresses, Clonable j a) ∧ ∀ r ∈ c.routes, Clonable j r then
        some (clonedIp j c)
      else none := by
  have haddr := mergeAddresses_null (i := j) (L3IpConfig.new : L3IpConfig A R) c.addresses
    (hc.addresses.unique_rehome hi hj) (hc.addresses.staysHome hj)
  have hroute (d : L3IpConfig A R) (hd : d.routes = []) :=
    mergeRoutes_clone (i := j) ignore defaults d c.routes
      (by rw [hd]; exact hc.routes.unique_rehome hi hj) (hc.routes.staysHome hj)
  unfold mergeIp
  by_cases ha : ∀ a ∈ c.addresses, Clonable j a
  · rw [haddr, if_pos ha, Option.bind_eq_bind, Option.bind_some, hroute _ rfl]
    by_cases hr : ∀ r ∈ c.routes, Clonable j r
    · rw [if_pos hr, if_pos ⟨ha, hr⟩, Option.bind_some]
      exact congrArg some (mergeIpParameters_clone _ _ _ c)
    · simp [hr]
  · rw [haddr, if_neg ha, if_neg (fun h => ha h.1)]
    rfl

end CloneIp

/-! ## The clone -/

variable {src : L3ConfigData}

namespace L3ConfigData

def cloneIfindex (src : L3ConfigData) (ifindex : ℤ) : ℤ :=
  if ifindex ≤ 0 then src.ifindex else ifindex

def cloned (i : ℤ) (src : L3ConfigData) : L3ConfigData :=
  { src with
    ifindex := i
    ip4 := clonedIp i src.ip4
    ip6 := clonedIp i src.ip6
    ignoreMergeNoDefaultRoutes := false }

theorem max_default (t : Ternary) : Ternary.max .default t = t := by
  cases t <;> rfl

theorem mergeParameters_clone (i : ℤ) (ip4 : L3Ip4Config) (ip6 : L3Ip6Config)
    (src : L3ConfigData) :
    mergeParameters .cloneFlags { new i src.source with ip4, ip6 } src =
      { src with ifindex := i, ip4, ip6, ignoreMergeNoDefaultRoutes := false } := by
  simp [mergeParameters, MergeFlags.cloneFlags, new, max_default]

theorem cloneIfindex_pos (hsrc : src.WellFormed) (ifindex : ℤ) : 0 < src.cloneIfindex ifindex := by
  have hpos := hsrc.ifindex_pos
  unfold cloneIfindex
  split_ifs <;> omega

theorem newClone_eq (hsrc : src.WellFormed) (ifindex : ℤ) :
    src.newClone ifindex =
      if ∀ r ∈ src.ip4.routes, Clonable (src.cloneIfindex ifindex) r then
        some (src.cloned (src.cloneIfindex ifindex))
      else none := by
  have hi := hsrc.ifindex_pos
  have hj := cloneIfindex_pos hsrc ifindex
  have h4 : ∀ a ∈ src.ip4.addresses, Clonable (src.cloneIfindex ifindex) a :=
    fun _ _ => .inr rfl
  have h6 : (∀ a ∈ src.ip6.addresses, Clonable (src.cloneIfindex ifindex) a) ∧
      ∀ r ∈ src.ip6.routes, Clonable (src.cloneIfindex ifindex) r :=
    ⟨fun _ _ => .inr rfl, fun _ _ => .inr rfl⟩
  have hmerge4 := mergeIp_clone hi hj src.ignoreMergeNoDefaultRoutes .ip4 hsrc.ip4
  have hmerge6 := mergeIp_clone hi hj src.ignoreMergeNoDefaultRoutes .ip6 hsrc.ip6
  rw [if_pos h6] at hmerge6
  have hnew : src.newClone ifindex =
      (new (src.cloneIfindex ifindex) src.source).merge src .cloneFlags .ip4 .ip6 .null .null :=
    rfl
  rw [hnew, merge]
  by_cases hr : ∀ r ∈ src.ip4.routes, Clonable (src.cloneIfindex ifindex) r
  · rw [if_pos ⟨h4, hr⟩] at hmerge4
    simp only [new] at hmerge4 hmerge6 ⊢
    rw [hmerge4, hmerge6, if_pos hr]
    exact congrArg some (mergeParameters_clone _ _ _ src)
  · rw [if_neg (fun h => hr h.2)] at hmerge4
    simp only [new] at hmerge4 ⊢
    rw [hmerge4, if_neg hr]
    rfl

end L3ConfigData

/-! ## Comparing the source with its clone -/

section CmpObjects

variable {α κ : Type} [NmpClass α κ] [LawfulNmpClass α]

open NmpClass LawfulNmpClass

theorem nmpObjectCmpFull_self (ignoreIfindex : Bool) (a : α) :
    nmpObjectCmpFull ignoreIfindex a a = .eq := by
  simp [nmpObjectCmpFull, cmp_self]

theorem nmpObjectCmpFull_rehome {a b : α} (ha : ifindex a = i) (hb : ifindex b = i)
    (hhome : homeIfindex j b = j) : nmpObjectCmpFull (decide (i ≠ j)) a (rehome j b) = cmp a b := by
  have hreb : rehome j b = withIfindex j b := by rw [rehome, hhome]
  by_cases hij : i = j
  · have hself : withIfindex j b = b := by rw [← hij, ← hb, withIfindex_self]
    simp [nmpObjectCmpFull, hij, hreb, hself]
  · have hback : withIfindex i (withIfindex j b) = b := by
      rw [withIfindex_withIfindex, ← hb, withIfindex_self]
    simp [nmpObjectCmpFull, hij, hreb, ha, ifindex_withIfindex, hback]

theorem nmpObjectCmpFull_copy {a : α} (ha : ifindex a = homeIfindex i a) :
    nmpObjectCmpFull (decide (i ≠ j)) a (rehome j a) = .eq := by
  have hself : withIfindex (ifindex a) a = a := withIfindex_self a
  have hback : withIfindex (ifindex a) (rehome j a) = a := by
    rw [rehome, withIfindex_withIfindex, withIfindex_self]
  by_cases hij : i = j
  · have hreb : rehome j a = a := by rw [rehome, ← hij, ← ha, withIfindex_self]
    rw [hreb, nmpObjectCmpFull_self]
  · unfold nmpObjectCmpFull
    split_ifs with hcmp
    · rw [hback, cmp_self]
    · have heq : ifindex a = ifindex (rehome j a) := by
        by_contra hne
        exact hcmp ⟨by simpa using hij, hne⟩
      have hreb : rehome j a = a := by
        rw [← withIfindex_self (rehome j a), ← heq, hback]
      rw [hreb, cmp_self]

theorem dedupMultiIndexCmp_copy {objs : List α} (h : Tracked i objs) :
    dedupMultiIndexCmp (decide (i = j)) true objs (objs.map (rehome j)) = .eq := by
  refine cmpList_map_eq fun a ha => ?_
  have hcopy := nmpObjectCmpFull_copy (j := j) (h.ifindex_eq a ha)
  simpa using hcopy

end CmpObjects

section BestDefaultRoute

variable {R κ : Type} [NmpRouteClass R κ] [LawfulNmpRouteClass R] {r : R} {cur : Option R}

open NmpClass NmpRouteClass

/-- The best default routes of the same interface. -/
def BestDefaultRouteOf (i : ℤ) (o : Option R) : Prop :=
  ∀ r ∈ o, ifindex r = i ∧ (rx r).isBestDefaultRoute

theorem homeIfindex_of_isBestDefaultRoute (h : (rx r).isBestDefaultRoute) (j : ℤ) :
    homeIfindex j r = j := by
  have htype : (rx r).typeCoerced = 0 := by
    simp [PlatformIpRoute.isBestDefaultRoute, routeTypeCoerce, rtnUnicast] at h
    exact h.2.2
  have hnodev : (rx r).isNodev = false := by
    simp [PlatformIpRoute.isNodev, htype, routeTypeCoerce, routeTypeIsNodev]
  simp [homeIfindex, LawfulNmpRouteClass.isNodev_eq, hnodev]

theorem rx_rehome (j : ℤ) (r : R) :
    rx (rehome j r) = (rx r).withIfindex (homeIfindex j r) :=
  LawfulNmpRouteClass.rx_withIfindex _ r

theorem bestDefaultRouteFindBetter_rehome (hcur : BestDefaultRouteOf i cur)
    (hr : ifindex r = homeIfindex i r) :
    bestDefaultRouteFindBetter (cur.map (rehome j)) (rehome j r) =
        (bestDefaultRouteFindBetter cur r).map (rehome j) ∧
      BestDefaultRouteOf i (bestDefaultRouteFindBetter cur r) := by
  have hbest : (rx (rehome j r)).isBestDefaultRoute = (rx r).isBestDefaultRoute := by
    rw [rx_rehome]
    rfl
  have hmetric (x : R) : (rx (rehome j x)).metric = (rx x).metric := by
    rw [rx_rehome]
    rfl
  unfold bestDefaultRouteFindBetter
  rw [hbest]
  by_cases hb : (rx r).isBestDefaultRoute = true
  · have hri : ifindex r = i := by rw [hr, homeIfindex_of_isBestDefaultRoute hb]
    have hnew : BestDefaultRouteOf i (some r) := by
      rintro x ⟨⟩
      exact ⟨hri, hb⟩
    rw [if_pos hb, if_pos hb]
    cases cur with
    | none => exact ⟨rfl, hnew⟩
    | some x =>
      obtain ⟨hxi, hxb⟩ := hcur x rfl
      have hcmp : cmp (rehome j x) (rehome j r) = cmp x r := by
        rw [rehome, rehome, homeIfindex_of_isBestDefaultRoute hb,
          homeIfindex_of_isBestDefaultRoute hxb]
        exact LawfulNmpRouteClass.cmp_withIfindex j (hxi.trans hri.symm)
      simp only [Option.map_some, hmetric, hcmp]
      split_ifs
      · exact ⟨rfl, hnew⟩
      · cases cmp x r
        · exact ⟨rfl, hcur⟩
        · exact ⟨rfl, hcur⟩
        · exact ⟨rfl, hnew⟩
      · exact ⟨rfl, hcur⟩
  · rw [if_neg hb, if_neg hb]
    exact ⟨rfl, hcur⟩

theorem foldl_bestDefaultRouteFindBetter_rehome {routes : List R} (hcur : BestDefaultRouteOf i cur)
    (hroutes : ∀ r ∈ routes, ifindex r = homeIfindex i r) :
    (routes.map (rehome j)).foldl bestDefaultRouteFindBetter (cur.map (rehome j)) =
        (routes.foldl bestDefaultRouteFindBetter cur).map (rehome j) ∧
      BestDefaultRouteOf i (routes.foldl bestDefaultRouteFindBetter cur) := by
  induction routes generalizing cur with
  | nil => exact ⟨rfl, hcur⟩
  | cons r rs ih =>
    obtain ⟨hstep, hbest⟩ := bestDefaultRouteFindBetter_rehome (j := j) hcur
      (hroutes r mem_cons_self)
    rw [map_cons, foldl_cons, foldl_cons, hstep]
    exact ih hbest fun r hr => hroutes r (mem_cons_of_mem _ hr)

/-- The best default route is, up to comparing equal, the one that is chosen among the
routes. This can get lost when a route is replaced, since the new best default route is
then chosen without the other routes. -/
def BestDefaultRouteUpToDate {A : Type} (c : L3IpConfig A R) : Prop :=
  cmpPtr NmpClass.cmp c.bestDefaultRoute (c.routes.foldl bestDefaultRouteFindBetter none) = .eq

omit [LawfulNmpRouteClass R] in
instance {A : Type} (c : L3IpConfig A R) : Decidable (BestDefaultRouteUpToDate c) :=
  inferInstanceAs (Decidable (_ = _))

theorem cmpBestDefaultRoute_eq [DecidableEq R] {flags : CmpFlags} (hflags : flags.routes)
    (a b : Option R) : cmpBestDefaultRoute flags a b = some .eq ↔
      cmpPtr (nmpObjectCmpFull (!flags.ifindex)) a b = .eq := by
  unfold cmpBestDefaultRoute
  split_ifs with hab
  · rw [hab]
    simp [cmpPtr_self (nmpObjectCmpFull_self _)]
  · simp

theorem cmpBestDefaultRoute_clone [DecidableEq R] {A κA : Type} [NmpClass A κA] {c : L3IpConfig A R}
    (hc : c.WellFormed i) :
    cmpBestDefaultRoute { CmpFlags.all with ifindex := decide (i = j) } c.bestDefaultRoute
        (clonedIp j c).bestDefaultRoute = some .eq ↔ BestDefaultRouteUpToDate c := by
  have hbest : BestDefaultRouteOf i c.bestDefaultRoute := by
    intro r hr
    obtain ⟨hmem, hb⟩ := hc.best_mem r hr
    exact ⟨(hc.routes.ifindex_eq r hmem).trans (homeIfindex_of_isBestDefaultRoute hb i), hb⟩
  have hnone : BestDefaultRouteOf i (none : Option R) := nofun
  obtain ⟨hfold, hchosen⟩ :=
    foldl_bestDefaultRouteFindBetter_rehome (j := j) hnone hc.routes.ifindex_eq
  have hclone : (clonedIp j c).bestDefaultRoute =
      (c.routes.foldl bestDefaultRouteFindBetter none).map (rehome j) := hfold
  rw [cmpBestDefaultRoute_eq rfl, hclone, BestDefaultRouteUpToDate, ← decide_not]
  cases ha : c.bestDefaultRoute with
  | none => cases c.routes.foldl bestDefaultRouteFindBetter none <;> rfl
  | some a =>
    cases hb : c.routes.foldl bestDefaultRouteFindBetter none with
    | none => rfl
    | some b =>
      obtain ⟨hai, -⟩ := hbest a ha
      obtain ⟨hbi, hbb⟩ := hchosen b hb
      simp only [Option.map_some, cmpPtr]
      rw [nmpObjectCmpFull_rehome hai hbi (homeIfindex_of_isBestDefaultRoute hbb j)]

end BestDefaultRoute

section CmpIp

variable {A R κA κR : Type} [NmpClass A κA] [NmpRouteClass R κR]

theorem cmpDns_clone (i : ℤ) (c : L3IpConfig A R) : cmpDns c (clonedIp i c) = .eq := by
  have hpriority : (if c.hasDnsPriority then
      compare c.dnsPriority (if c.hasDnsPriority then c.dnsPriority else 0) else .eq) = .eq := by
    split_ifs <;> simp
  simp [cmpDns, clonedIp, cmpList_self, hpriority]

theorem cmpOther_clone (i : ℤ) (c : L3IpConfig A R) :
    cmpOther c (clonedIp i c) = .eq ↔ c.dhcpLease = none := by
  have hlease : cmpPtr DhcpLease.cmp c.dhcpLease none = .eq ↔ c.dhcpLease = none := by
    cases c.dhcpLease <;> simp [cmpPtr]
  simp [cmpOther, clonedIp, hlease]

variable [LawfulNmpRouteClass R]

theorem cmpIp_clone [DecidableEq R] {c : L3IpConfig A R} (hc : c.WellFormed i) :
    cmpIp { CmpFlags.all with ifindex := decide (i = j) } c (clonedIp j c) = some .eq ↔
      BestDefaultRouteUpToDate c ∧ c.dhcpLease = none := by
  have hbest := cmpBestDefaultRoute_clone (j := j) hc
  simp only [cmpIp, cmpSeq?_eq_eq, forall_mem_cons, hbest]
  simp [CmpFlags.all, cmpDns_clone, cmpOther_clone]

omit [LawfulNmpRouteClass R] in
theorem cmpAddresses_clone [LawfulNmpClass A] {c : L3IpConfig A R} (hc : c.WellFormed i) :
    cmpAddresses { CmpFlags.all with ifindex := decide (i = j) } c (clonedIp j c) = .eq :=
  dedupMultiIndexCmp_copy hc.addresses

theorem cmpRoutes_clone {c : L3IpConfig A R} (hc : c.WellFormed i) :
    cmpRoutes { CmpFlags.all with ifindex := decide (i = j) } c (clonedIp j c) = .eq :=
  dedupMultiIndexCmp_copy hc.routes

end CmpIp

namespace L3ConfigData

theorem cmpDnsParameters_clone (i : ℤ) (src : L3ConfigData) :
    cmpDnsParameters src (src.cloned i) = .eq := by
  have hdomain : cmpPtr compare src.nisDomain src.nisDomain = .eq :=
    cmpPtr_self (fun _ => Std.compare_self) _
  simp [cmpDnsParameters, cloned, cmpList_self, hdomain]

theorem flags_cloned (i : ℤ) (src : L3ConfigData) :
    src.flags = (src.cloned i).flags ↔ src.ignoreMergeNoDefaultRoutes = false := by
  have h4 : (src.cloned i).ip4.hasDnsPriority = src.ip4.hasDnsPriority := rfl
  have h6 : (src.cloned i).ip6.hasDnsPriority = src.ip6.hasDnsPriority := rfl
  have hignore : (src.cloned i).ignoreMergeNoDefaultRoutes = false := rfl
  simp only [flags, h4, h6, hignore]
  cases src.ignoreMergeNoDefaultRoutes <;> simp

theorem cmpOtherParameters_clone (i : ℤ) (src : L3ConfigData) :
    cmpOtherParameters src (src.cloned i) = .eq ↔ src.ignoreMergeNoDefaultRoutes = false := by
  have hptr {α : Type} [Ord α] [Std.ReflOrd α] (o : Option α) : cmpPtr compare o o = .eq :=
    cmpPtr_self (fun _ => Std.compare_self) o
  simp only [cmpOtherParameters, cmpSeq_eq_eq, forall_mem_cons, Nat.compare_eq_eq,
    flags_cloned]
  simp [cloned, hptr]

theorem cmpFull_cloned (hsrc : src.WellFormed) (i : ℤ) :
    cmpFull (some src) (some (src.cloned i))
        { CmpFlags.all with ifindex := decide (src.ifindex = i) } = some .eq ↔
      (BestDefaultRouteUpToDate src.ip4 ∧ src.ip4.dhcpLease = none) ∧
        (BestDefaultRouteUpToDate src.ip6 ∧ src.ip6.dhcpLease = none) ∧
          src.ignoreMergeNoDefaultRoutes = false := by
  have hifindex : (if decide (src.ifindex = i) then compare src.ifindex i else .eq) = .eq := by
    split_ifs with h
    · simpa using h
    · rfl
  have h4 := cmpIp_clone (j := i) hsrc.ip4
  have h6 := cmpIp_clone (j := i) hsrc.ip6
  have ha4 := cmpAddresses_clone (j := i) hsrc.ip4
  have ha6 := cmpAddresses_clone (j := i) hsrc.ip6
  have hr4 := cmpRoutes_clone (j := i) hsrc.ip4
  have hr6 := cmpRoutes_clone (j := i) hsrc.ip6
  have hip4 : (src.cloned i).ip4 = clonedIp i src.ip4 := rfl
  have hip6 : (src.cloned i).ip6 = clonedIp i src.ip6 := rfl
  have hidx : (src.cloned i).ifindex = i := rfl
  simp only [cmpFull, Option.getD_some, cmpSeq?_eq_eq, forall_mem_cons, hip4, hip6, hidx,
    hifindex, ha4, ha6, hr4, hr6, h4, h6]
  simp [CmpFlags.all, cmpDnsParameters_clone, cmpOtherParameters_clone]

/-- What `nm_l3_config_data_new_clone()` asserts about the clone that it made. -/
def CloneIsLossless (src : L3ConfigData) (ifindex : ℤ) : Prop :=
  ∃ clone, src.newClone ifindex = some clone ∧
    cmpFull (some src) (some clone)
      { CmpFlags.all with ifindex := decide (src.ifindex = clone.ifindex) } = some .eq

theorem cloneIsLossless_iff_clonable (hsrc : src.WellFormed) (ifindex : ℤ) :
    src.CloneIsLossless ifindex ↔
      (∀ r ∈ src.ip4.routes, Clonable (src.cloneIfindex ifindex) r) ∧
        (BestDefaultRouteUpToDate src.ip4 ∧ src.ip4.dhcpLease = none) ∧
          (BestDefaultRouteUpToDate src.ip6 ∧ src.ip6.dhcpLease = none) ∧
            src.ignoreMergeNoDefaultRoutes = false := by
  rw [← cmpFull_cloned hsrc (src.cloneIfindex ifindex)]
  constructor
  · rintro ⟨clone, hclone, hcmp⟩
    rw [newClone_eq hsrc] at hclone
    split_ifs at hclone with hr
    rw [← Option.some.inj hclone] at hcmp
    exact ⟨hr, hcmp⟩
  · rintro ⟨hr, hcmp⟩
    exact ⟨src.cloned (src.cloneIfindex ifindex), by rw [newClone_eq hsrc, if_pos hr], hcmp⟩

/-- A clone is lossless exactly if there is no DHCP lease and no flag to lose, if the best
default routes are up to date, and if a route with several next hops stays on its
interface. -/
theorem cloneIsLossless_iff {src : L3ConfigData} (hsrc : src.WellFormed) (ifindex : ℤ) :
    src.CloneIsLossless ifindex ↔
      src.ip4.dhcpLease = none ∧ src.ip6.dhcpLease = none ∧
        src.ignoreMergeNoDefaultRoutes = false ∧
          BestDefaultRouteUpToDate src.ip4 ∧ BestDefaultRouteUpToDate src.ip6 ∧
            ∀ r ∈ src.ip4.routes,
              r.ifindex = (if ifindex ≤ 0 then src.ifindex else ifindex) ∨ r.nNexthops ≤ 1 := by
  have hclonable : (∀ r ∈ src.ip4.routes, Clonable (src.cloneIfindex ifindex) r) ↔
      ∀ r ∈ src.ip4.routes,
        r.ifindex = (if ifindex ≤ 0 then src.ifindex else ifindex) ∨ r.nNexthops ≤ 1 := by
    refine forall₂_congr fun r _ => ?_
    have hsome : (NmpClass.stackinit r).isSome = decide (r.nNexthops ≤ 1) :=
      ObjectIp4Route.isSome_stackinit r
    rw [Clonable, hsome, decide_eq_true_iff]
    rfl
  rw [cloneIsLossless_iff_clonable hsrc, hclonable]
  constructor
  · rintro ⟨hr, ⟨hbest4, hlease4⟩, ⟨hbest6, hlease6⟩, hflag⟩
    exact ⟨hlease4, hlease6, hflag, hbest4, hbest6, hr⟩
  · rintro ⟨hlease4, hlease6, hflag, hbest4, hbest6, hr⟩
    exact ⟨hr, ⟨hbest4, hlease4⟩, ⟨hbest6, hlease6⟩, hflag⟩

def exampleDefaultRoute : PlatformIp6Route :=
  { (default : PlatformIp6Route) with ifindex := 3, metric := 100 }

/-- An IPv6 default route and a name server. -/
def exampleConfig : L3ConfigData :=
  { new 3 .user with
    ip6 :=
      { (L3IpConfig.new : L3Ip6Config) with
        routes := [exampleDefaultRoute]
        bestDefaultRoute := some exampleDefaultRoute
        nameservers := ["2001:db8::1"] } }

theorem cloneIsLossless_exampleConfig : exampleConfig.CloneIsLossless 7 := by
  have hroutes : Tracked 3 [exampleDefaultRoute] := ⟨by simp [KeyUnique], by decide⟩
  have hsrc : exampleConfig.WellFormed := by
    refine ⟨by decide, Core.wellFormed_new 3, tracked_nil 3, hroutes, ?_⟩
    rintro r ⟨⟩
    exact ⟨mem_singleton_self exampleDefaultRoute, by decide⟩
  exact (cloneIsLossless_iff hsrc 7).mpr (by decide)

/-- The DHCPv4 lease of an interface. -/
def leaseConfig : L3ConfigData :=
  { new 1 .dhcp with
    ip4 :=
      { (L3IpConfig.new : L3Ip4Config) with
        dhcpLease := some ⟨[("dhcp_lease_time", "3600")]⟩ } }

/-- A DHCP lease gets lost, also on the same interface. -/
theorem newClone_loses_dhcpLease : leaseConfig.WellFormed ∧ ¬ leaseConfig.CloneIsLossless 0 := by
  have hconfig : leaseConfig.WellFormed := by
    refine ⟨by decide, ⟨tracked_nil 1, tracked_nil 1, ?_⟩, Core.wellFormed_new 1⟩
    rintro r ⟨⟩
  refine ⟨hconfig, fun h => ?_⟩
  have hlease : leaseConfig.ip4.dhcpLease = none :=
    ((cloneIsLossless_iff_clonable hconfig 0).mp h).2.1.2
  exact absurd hlease nofun

end L3ConfigData

end NetworkManager.Core
