import NetworkManager.Core.L3ConfigData
import NetworkManager.Platform.IpRouteCmpOrder

/-!
# The comparison of configurations

`nm_l3_config_data_cmp_full()` is antisymmetric for every combination of flags. If only
identities are asked for, then it gets stuck at two best default routes of which one is
missing, and it takes all IPv4 addresses for equal. The results say exactly for which
configurations this matters.
-/

namespace NetworkManager.Core

open Lib Platform Std

/-! ## The order of the objects -/

/-- Both comparisons of an object class are orders, and a common interface does not matter to
the one of all fields. -/
class LawfulNmpCmp (α : Type) {κ : outParam Type} [NmpClass α κ] : Prop where
  transCmp_cmp : TransCmp (NmpClass.cmp : α → α → Ordering)
  transCmp_cmpIdFields : TransCmp (NmpClass.cmpIdFields : α → α → Ordering)
  cmp_withIfindex : ∀ {a b : α} (i : ℤ), NmpClass.ifindex a = NmpClass.ifindex b →
    NmpClass.cmp (NmpClass.withIfindex i a) (NmpClass.withIfindex i b) = NmpClass.cmp a b

instance : LawfulNmpCmp PlatformIp4Address where
  transCmp_cmp := by
    have hbroadcast := transCmp_if (fun a : PlatformIp4Address => a.useIp4BroadcastAddress)
      fun a => inAddrT a.broadcastAddress
    change TransCmp PlatformIp4Address.cmp
    unfold PlatformIp4Address.cmp
    repeat
      first
      | refine transCmp_cons₂ hbroadcast ?_
      | refine transCmp_cons (transCmp_on _) ?_
    exact transCmp_nil
  transCmp_cmpIdFields := by
    have heq : (NmpClass.cmpIdFields : PlatformIp4Address → PlatformIp4Address → Ordering) =
        fun a b => compare a.plen b.plen := by
      funext a b
      simp [NmpClass.cmpIdFields, PlatformIp4Address.cmpIdFields, cmpSeq]
    rw [heq]
    exact transCmp_on _
  cmp_withIfindex {a b} i h := by
    have hifindex : compare a.ifindex b.ifindex = compare i i := by
      rw [show a.ifindex = b.ifindex from h, compare_self, compare_self]
    change _ = PlatformIp4Address.cmp a b
    rw [PlatformIp4Address.cmp, hifindex]
    rfl

instance : LawfulNmpCmp PlatformIp6Address where
  transCmp_cmp := by
    change TransCmp PlatformIp6Address.cmp
    unfold PlatformIp6Address.cmp
    repeat refine transCmp_cons (transCmp_on _) ?_
    exact transCmp_nil
  transCmp_cmpIdFields := by
    change TransCmp PlatformIp6Address.cmpIdFields
    unfold PlatformIp6Address.cmpIdFields
    repeat refine transCmp_cons (transCmp_on _) ?_
    exact transCmp_nil
  cmp_withIfindex {a b} i h := by
    have hifindex : compare a.ifindex b.ifindex = compare i i := by
      rw [show a.ifindex = b.ifindex from h, compare_self, compare_self]
    change _ = PlatformIp6Address.cmp a b
    rw [PlatformIp6Address.cmp, hifindex]
    rfl

instance : LawfulNmpCmp ObjectIp4Route where
  transCmp_cmp := ObjectIp4Route.transCmp_cmp
  transCmp_cmpIdFields := by
    change TransCmp ObjectIp4Route.cmpIdFields
    unfold ObjectIp4Route.cmpIdFields
    refine transCmp_cons (transCmp_on _) ?_
    exact transCmp_cons₂ (transCmp_dep (fun r : ObjectIp4Route => r.plen)
      fun plen r => ip4AddrClearHostAddress r.network plen) transCmp_nil
  cmp_withIfindex i h := ObjectIp4Route.cmp_withIfindex i h

instance : LawfulNmpCmp PlatformIp6Route where
  transCmp_cmp := PlatformIp6Route.transCmp_cmp
  transCmp_cmpIdFields := by
    change TransCmp PlatformIp6Route.cmpIdFields
    unfold PlatformIp6Route.cmpIdFields
    refine transCmp_cons (transCmp_on _) ?_
    exact transCmp_cons₂ (transCmp_dep (fun r : PlatformIp6Route => r.plen)
      fun plen r => ip6AddrClearHostAddress r.network plen) transCmp_nil
  cmp_withIfindex i h := PlatformIp6Route.cmp_withIfindex i h

section Objects

variable {α κ : Type} [NmpClass α κ] [LawfulNmpClass α] [LawfulNmpCmp α] {cmpIfindex : Bool}
  {bs as : List α}

open NmpClass LawfulNmpClass

theorem nmpObjectCmpFull_true (a b : α) :
    nmpObjectCmpFull true a b = NmpClass.cmp (withIfindex 0 a) (withIfindex 0 b) := by
  unfold nmpObjectCmpFull
  split_ifs with h
  · have hsame : ifindex a = ifindex (withIfindex (ifindex a) b) := (ifindex_withIfindex _ b).symm
    rw [← LawfulNmpCmp.cmp_withIfindex 0 hsame, withIfindex_withIfindex]
  · have hsame : ifindex a = ifindex b := by
      by_contra hne
      exact h ⟨rfl, hne⟩
    exact (LawfulNmpCmp.cmp_withIfindex 0 hsame).symm

theorem transCmp_nmpObjectCmpFull (ignoreIfindex : Bool) :
    TransCmp (nmpObjectCmpFull ignoreIfindex : α → α → Ordering) := by
  cases ignoreIfindex with
  | true =>
    have heq : (nmpObjectCmpFull true : α → α → Ordering) =
        fun a b => NmpClass.cmp (withIfindex 0 a) (withIfindex 0 b) := by
      funext a b
      exact nmpObjectCmpFull_true a b
    rw [heq]
    exact transCmp_comp (withIfindex 0) LawfulNmpCmp.transCmp_cmp
  | false =>
    have heq : (nmpObjectCmpFull false : α → α → Ordering) = NmpClass.cmp := by
      funext a b
      simp [nmpObjectCmpFull]
    rw [heq]
    exact LawfulNmpCmp.transCmp_cmp

def cmpIdentity (cmpIfindex : Bool) (a b : α) : Ordering :=
  cmpSeq
    [if cmpIfindex then compare (ifindex a) (ifindex b) else .eq, cmpIdFields a b]

omit [LawfulNmpClass α] in
theorem transCmp_cmpIdentity (cmpIfindex : Bool) :
    TransCmp (cmpIdentity cmpIfindex : α → α → Ordering) := by
  have hid := transCmp_cons (LawfulNmpCmp.transCmp_cmpIdFields (α := α)) transCmp_nil
  cases cmpIfindex with
  | true => exact transCmp_cons (transCmp_on ifindex) hid
  | false => exact hid

theorem transCmp_dedupMultiIndexCmp (cmpIfindex cmpFull : Bool) :
    TransCmp (dedupMultiIndexCmp cmpIfindex cmpFull : List α → List α → Ordering) := by
  cases cmpFull with
  | true => exact transCmp_cmpList (transCmp_nmpObjectCmpFull (!cmpIfindex))
  | false => exact transCmp_cmpList (transCmp_cmpIdentity cmpIfindex)

theorem cmpBestDefaultRoute_swap [DecidableEq α] (flags : CmpFlags) (a b : Option α) :
    cmpBestDefaultRoute flags a b = (cmpBestDefaultRoute flags b a).map Ordering.swap := by
  have hfull := transCmp_cmpPtr (transCmp_nmpObjectCmpFull (α := α) (!flags.ifindex))
  have hid := transCmp_cmpIdentity (α := α) flags.ifindex
  unfold cmpBestDefaultRoute
  by_cases hab : a = b
  · rw [if_pos hab, if_pos hab.symm]
    rfl
  · have hba : ¬ b = a := fun h => hab h.symm
    rw [if_neg hab, if_neg hba]
    by_cases hroutes : flags.routes = true
    · rw [if_pos hroutes, if_pos hroutes]
      exact congrArg some hfull.eq_swap
    rw [if_neg hroutes, if_neg hroutes]
    by_cases hroutesId : flags.routesId = true
    · rw [if_pos hroutesId, if_pos hroutesId]
      cases a with
      | none => cases b <;> rfl
      | some a =>
        cases b with
        | none => rfl
        | some b => exact congrArg some (hid.eq_swap (a := a) (b := b))
    · rw [if_neg hroutesId, if_neg hroutesId]
      rfl

omit [LawfulNmpClass α] [LawfulNmpCmp α] in
theorem cmpBestDefaultRoute_eq_none [DecidableEq α] (flags : CmpFlags) (a b : Option α) :
    cmpBestDefaultRoute flags a b = none ↔
      flags.routesId = true ∧ flags.routes = false ∧ a.isSome ≠ b.isSome := by
  unfold cmpBestDefaultRoute
  by_cases hab : a = b
  · simp [hab]
  · rw [if_neg hab]
    cases flags.routes with
    | true => simp
    | false =>
      cases flags.routesId with
      | false => simp
      | true => cases a <;> cases b <;> simp_all

omit [LawfulNmpCmp α] in
theorem cmp_of_nmpObjectCmpFull {ignoreIfindex : Bool} {a b : α}
    (h : nmpObjectCmpFull ignoreIfindex a b = .eq) :
    ∃ i, NmpClass.cmp a (withIfindex i b) = .eq := by
  unfold nmpObjectCmpFull at h
  split_ifs at h
  · exact ⟨ifindex a, h⟩
  · refine ⟨ifindex b, ?_⟩
    rw [withIfindex_self]
    exact h

omit [LawfulNmpClass α] [LawfulNmpCmp α] in
theorem forall₂_of_dedupMultiIndexCmp_id (h : dedupMultiIndexCmp cmpIfindex false as bs = .eq) :
    List.Forall₂ (fun a b => cmpIdFields a b = .eq) as bs := by
  refine (cmpList_eq_iff_forall₂.mp h).imp fun a b hab => ?_
  exact (cmpSeq_eq_eq.mp hab) _ (by simp)

omit [LawfulNmpCmp α] in
theorem forall₂_of_dedupMultiIndexCmp_full (h : dedupMultiIndexCmp cmpIfindex true as bs = .eq) :
    List.Forall₂ (fun a b => ∃ i, NmpClass.cmp a (withIfindex i b) = .eq) as bs :=
  (cmpList_eq_iff_forall₂.mp h).imp fun _ _ hab => cmp_of_nmpObjectCmpFull hab

end Objects

/-! ## The order of the parameters -/

instance : TransOrd OptionBool :=
  transOrd_of_values OptionBool.ctorIdx (by intro a b; cases a <;> cases b <;> rfl)

instance : TransOrd Ternary :=
  transOrd_of_values Ternary.ctorIdx (by intro a b; cases a <;> cases b <;> rfl)

instance : TransOrd IpRouteTableSyncMode :=
  transOrd_of_values IpRouteTableSyncMode.ctorIdx (by intro a b; cases a <;> cases b <;> rfl)

instance : TransOrd ConnectionMdns :=
  transOrd_of_values ConnectionMdns.ctorIdx (by intro a b; cases a <;> cases b <;> rfl)

instance : TransOrd ConnectionLlmnr :=
  transOrd_of_values ConnectionLlmnr.ctorIdx (by intro a b; cases a <;> cases b <;> rfl)

instance : TransOrd ConnectionDnsOverTls :=
  transOrd_of_values ConnectionDnsOverTls.ctorIdx (by intro a b; cases a <;> cases b <;> rfl)

instance : TransOrd Ip6ConfigPrivacy :=
  transOrd_of_values Ip6ConfigPrivacy.ctorIdx (by intro a b; cases a <;> cases b <;> rfl)

instance : TransOrd ProxyConfigMethod :=
  transOrd_of_values ProxyConfigMethod.ctorIdx (by intro a b; cases a <;> cases b <;> rfl)

section Compare

variable {α β : Type} [Ord β] [TransOrd β]

theorem transCmp_onPtr (f : α → Option β) : TransCmp fun a b => cmpPtr compare (f a) (f b) :=
  transCmp_comp f (transCmp_cmpPtr inferInstance)

theorem transCmp_onList (f : α → List β) : TransCmp fun a b => cmpList compare (f a) (f b) :=
  transCmp_comp f (transCmp_cmpList inferInstance)

end Compare

theorem DhcpLease.transCmp_cmp : TransCmp cmp := by
  unfold cmp
  refine transCmp_cons (transCmp_on _) ?_
  refine transCmp_cons (transCmp_onList fun l : DhcpLease => l.options.map Prod.fst) ?_
  exact transCmp_cons (transCmp_onList fun l : DhcpLease => l.options.map Prod.snd) transCmp_nil

section Ip

variable {A R κA κR : Type}

theorem transCmp_cmpDns : TransCmp (cmpDns : L3IpConfig A R → L3IpConfig A R → Ordering) := by
  unfold cmpDns
  refine transCmp_cons (transCmp_onList fun c : L3IpConfig A R => c.nameservers) ?_
  refine transCmp_cons (transCmp_onList fun c : L3IpConfig A R => c.domains) ?_
  refine transCmp_cons (transCmp_onList fun c : L3IpConfig A R => c.searches) ?_
  refine transCmp_cons (transCmp_onList fun c : L3IpConfig A R => c.dnsOptions) ?_
  exact transCmp_cons₂ (transCmp_if (fun c : L3IpConfig A R => c.hasDnsPriority)
    fun c => c.dnsPriority) transCmp_nil

theorem transCmp_cmpOther : TransCmp (cmpOther : L3IpConfig A R → L3IpConfig A R → Ordering) := by
  unfold cmpOther
  refine transCmp_cons (transCmp_comp (fun c : L3IpConfig A R => c.dhcpLease)
    (transCmp_cmpPtr DhcpLease.transCmp_cmp)) ?_
  repeat refine transCmp_cons (transCmp_on _) ?_
  exact transCmp_nil

variable [NmpClass A κA] [LawfulNmpClass A] [LawfulNmpCmp A] [NmpClass R κR] [LawfulNmpClass R]
  [LawfulNmpCmp R]

omit [NmpClass R κR] [LawfulNmpClass R] [LawfulNmpCmp R] in
theorem cmpAddresses_swap (flags : CmpFlags) (a b : L3IpConfig A R) :
    cmpAddresses flags a b = (cmpAddresses flags b a).swap := by
  unfold cmpAddresses
  split_ifs
  · exact (transCmp_dedupMultiIndexCmp flags.ifindex flags.addresses).eq_swap
  · rfl

omit [NmpClass A κA] [LawfulNmpClass A] [LawfulNmpCmp A] in
theorem cmpRoutes_swap (flags : CmpFlags) (a b : L3IpConfig A R) :
    cmpRoutes flags a b = (cmpRoutes flags b a).swap := by
  unfold cmpRoutes
  split_ifs
  · exact (transCmp_dedupMultiIndexCmp flags.ifindex flags.routes).eq_swap
  · rfl

omit [NmpClass A κA] [LawfulNmpClass A] [LawfulNmpCmp A] in
theorem cmpIp_swap [DecidableEq R] (flags : CmpFlags) (a b : L3IpConfig A R) :
    cmpIp flags a b = (cmpIp flags b a).map Ordering.swap := by
  have hdns : (if flags.dns then cmpDns a b else .eq) =
      (if flags.dns then cmpDns b a else .eq).swap := by
    split_ifs
    · exact transCmp_cmpDns.eq_swap
    · rfl
  have hother : (if flags.other then cmpOther a b else .eq) =
      (if flags.other then cmpOther b a else .eq).swap := by
    split_ifs
    · exact transCmp_cmpOther.eq_swap
    · rfl
  rw [cmpIp, cmpIp, map_swap_cmpSeq?, cmpBestDefaultRoute_swap, hdns, hother]
  rfl

omit [NmpClass A κA] [LawfulNmpClass A] [LawfulNmpCmp A] [LawfulNmpClass R] [LawfulNmpCmp R] in
theorem cmpIp_eq_none [DecidableEq R] (flags : CmpFlags) (a b : L3IpConfig A R) :
    cmpIp flags a b = none ↔ flags.routesId = true ∧ flags.routes = false ∧
      a.bestDefaultRoute.isSome ≠ b.bestDefaultRoute.isSome := by
  have htail : cmpSeq? [some (if flags.dns then cmpDns a b else .eq),
      some (if flags.other then cmpOther a b else .eq)] ≠ none := by
    simp [cmpSeq?_cons_eq_none, cmpSeq?]
  rw [cmpIp, cmpSeq?_cons_eq_none, cmpBestDefaultRoute_eq_none]
  exact or_iff_left fun h => htail h.2

end Ip

namespace L3ConfigData

theorem transCmp_cmpDnsParameters : TransCmp cmpDnsParameters := by
  unfold cmpDnsParameters
  refine transCmp_cons (transCmp_onList fun l : L3ConfigData => l.wins) ?_
  refine transCmp_cons (transCmp_onList fun l : L3ConfigData => l.nisServers) ?_
  refine transCmp_cons (transCmp_onPtr fun l : L3ConfigData => l.nisDomain) ?_
  repeat refine transCmp_cons (transCmp_on _) ?_
  exact transCmp_nil

theorem transCmp_cmpOtherParameters : TransCmp cmpOtherParameters := by
  unfold cmpOtherParameters
  repeat
    first
    | refine transCmp_cons (transCmp_on _) ?_
    | refine transCmp_cons (transCmp_onPtr _) ?_
  exact transCmp_nil

theorem cmpFull_swap (a b : Option L3ConfigData) (flags : CmpFlags) :
    cmpFull a b flags = (cmpFull b a flags).map Ordering.swap := by
  have hifindex (x y : L3ConfigData) :
      (if flags.ifindex then compare x.ifindex y.ifindex else .eq) =
        (if flags.ifindex then compare y.ifindex x.ifindex else .eq).swap := by
    split_ifs
    · exact OrientedOrd.eq_swap
    · rfl
  have hdns (x y : L3ConfigData) : (if flags.dns then cmpDnsParameters x y else .eq) =
      (if flags.dns then cmpDnsParameters y x else .eq).swap := by
    split_ifs
    · exact transCmp_cmpDnsParameters.eq_swap
    · rfl
  have hother (x y : L3ConfigData) : (if flags.other then cmpOtherParameters x y else .eq) =
      (if flags.other then cmpOtherParameters y x else .eq).swap := by
    split_ifs
    · exact transCmp_cmpOtherParameters.eq_swap
    · rfl
  unfold cmpFull
  generalize a.getD empty = a
  generalize b.getD empty = b
  dsimp only
  rw [map_swap_cmpSeq?, hifindex a b, hdns a b, hother a b, cmpAddresses_swap flags a.ip4,
    cmpAddresses_swap flags a.ip6, cmpRoutes_swap flags a.ip4, cmpRoutes_swap flags a.ip6,
    cmpIp_swap flags a.ip4, cmpIp_swap flags a.ip6]
  rfl

/-! ## When the comparison gets stuck, and what it compares -/

/-- What is compared before the best default routes is equal. -/
structure EqualBeforeBest (a b : L3ConfigData) (flags : CmpFlags) : Prop where
  ifindex : flags.ifindex → a.ifindex = b.ifindex
  addresses4 : cmpAddresses flags a.ip4 b.ip4 = .eq
  addresses6 : cmpAddresses flags a.ip6 b.ip6 = .eq
  routes4 : cmpRoutes flags a.ip4 b.ip4 = .eq
  routes6 : cmpRoutes flags a.ip6 b.ip6 = .eq

/-- What is compared after the addresses and the routes is equal. -/
structure EqualParameters (a b : L3ConfigData) (flags : CmpFlags) : Prop where
  ip4 : cmpIp flags a.ip4 b.ip4 = some .eq
  ip6 : cmpIp flags a.ip6 b.ip6 = some .eq
  dns : flags.dns → cmpDnsParameters a b = .eq
  other : flags.other → cmpOtherParameters a b = .eq

theorem if_eq_iff (p : Bool) (o : Ordering) : (if p then o else .eq) = .eq ↔ (p → o = .eq) := by
  cases p <;> simp

theorem cmpFull_eq_eq (a b : Option L3ConfigData) (flags : CmpFlags) :
    cmpFull a b flags = some .eq ↔
      EqualBeforeBest (a.getD empty) (b.getD empty) flags ∧
        EqualParameters (a.getD empty) (b.getD empty) flags := by
  simp only [cmpFull, cmpSeq?_eq_eq, List.forall_mem_cons, List.not_mem_nil, false_implies,
    implies_true, and_true, Option.some.injEq, if_eq_iff, LawfulEqOrd.compare_eq_iff_eq]
  constructor
  · rintro ⟨hifindex, h4, h6, hr4, hr6, hip4, hip6, hdns, hother⟩
    exact ⟨⟨hifindex, h4, h6, hr4, hr6⟩, ⟨hip4, hip6, hdns, hother⟩⟩
  · rintro ⟨⟨hifindex, h4, h6, hr4, hr6⟩, ⟨hip4, hip6, hdns, hother⟩⟩
    exact ⟨hifindex, h4, h6, hr4, hr6, hip4, hip6, hdns, hother⟩

theorem cmpFull_eq_none (a b : Option L3ConfigData) (flags : CmpFlags) :
    cmpFull a b flags = none ↔
      EqualBeforeBest (a.getD empty) (b.getD empty) flags ∧
        (cmpIp flags (a.getD empty).ip4 (b.getD empty).ip4 = none ∨
          cmpIp flags (a.getD empty).ip4 (b.getD empty).ip4 = some .eq ∧
            cmpIp flags (a.getD empty).ip6 (b.getD empty).ip6 = none) := by
  simp only [cmpFull, cmpSeq?_cons_eq_none, cmpSeq?, reduceCtorEq, false_or, and_false, or_false,
    Option.some.injEq, if_eq_iff, LawfulEqOrd.compare_eq_iff_eq]
  constructor
  · rintro ⟨hifindex, h4, h6, hr4, hr6, hip⟩
    exact ⟨⟨hifindex, h4, h6, hr4, hr6⟩, hip⟩
  · rintro ⟨⟨hifindex, h4, h6, hr4, hr6⟩, hip⟩
    exact ⟨hifindex, h4, h6, hr4, hr6, hip⟩

/-- The addresses agree element by element. -/
structure SameAddresses (a b : L3ConfigData) : Prop where
  ip4 : List.Forall₂
    (fun x y => x.plen = y.plen ∧ x.address = y.address ∧ x.peerAddress = y.peerAddress)
    a.ip4.addresses b.ip4.addresses
  ip6 : List.Forall₂ (fun x y => x.plen = y.plen ∧ x.address = y.address)
    a.ip6.addresses b.ip6.addresses

variable {flags : CmpFlags}

theorem ip6_of_cmpAddresses {a b : L3Ip6Config} (hflags : flags.addressesId)
    (h : cmpAddresses flags a b = .eq) :
    List.Forall₂ (fun x y => x.plen = y.plen ∧ x.address = y.address) a.addresses b.addresses := by
  rw [cmpAddresses, if_pos (.inr hflags)] at h
  cases hfull : flags.addresses with
  | true =>
    rw [hfull] at h
    refine (forall₂_of_dedupMultiIndexCmp_full h).imp fun x y ⟨i, hxy⟩ => ?_
    have hfields := cmpSeq_eq_eq.mp hxy
    simp only [List.forall_mem_cons, LawfulEqOrd.compare_eq_iff_eq] at hfields
    exact ⟨hfields.2.2.1, hfields.2.1⟩
  | false =>
    rw [hfull] at h
    refine (forall₂_of_dedupMultiIndexCmp_id h).imp fun x y hxy => ?_
    have hfields := cmpSeq_eq_eq.mp hxy
    simp only [List.forall_mem_cons, LawfulEqOrd.compare_eq_iff_eq] at hfields
    exact ⟨hfields.1, hfields.2.1⟩

theorem ip4_of_cmpAddresses {a b : L3Ip4Config} (hflags : flags.addresses)
    (h : cmpAddresses flags a b = .eq) :
    List.Forall₂
      (fun x y => x.plen = y.plen ∧ x.address = y.address ∧ x.peerAddress = y.peerAddress)
      a.addresses b.addresses := by
  rw [cmpAddresses, if_pos (.inl hflags), hflags] at h
  refine (forall₂_of_dedupMultiIndexCmp_full h).imp fun x y ⟨i, hxy⟩ => ?_
  have hfields := cmpSeq_eq_eq.mp hxy
  simp only [List.forall_mem_cons, LawfulEqOrd.compare_eq_iff_eq,
    inAddrT_injective.eq_iff] at hfields
  exact ⟨hfields.2.1, hfields.2.2.1, hfields.2.2.2.1⟩

theorem plen_of_cmpAddresses {a b : L3Ip4Config} (hflags : flags.addressesId)
    (hfull : flags.addresses = false) (h : cmpAddresses flags a b = .eq) :
    List.Forall₂ (fun x y => x.plen = y.plen) a.addresses b.addresses := by
  rw [cmpAddresses, if_pos (.inr hflags), hfull] at h
  refine (forall₂_of_dedupMultiIndexCmp_id h).imp fun x y hxy => ?_
  have hfields := cmpSeq_eq_eq.mp hxy
  simp only [List.forall_mem_cons, LawfulEqOrd.compare_eq_iff_eq] at hfields
  exact hfields.1

/-! ## When the comparison is right -/

/-- What a comparison of identities has to do. A missing configuration is the empty one. -/
structure CmpFullCorrect (a b : Option L3ConfigData) (flags : CmpFlags) : Prop where
  total : (cmpFull a b flags).isSome
  antisymm : cmpFull a b flags = (cmpFull b a flags).map Ordering.swap
  addressesId : flags.addressesId → cmpFull a b flags = some .eq →
    SameAddresses (a.getD empty) (b.getD empty)

/-- If only the identities of the routes are compared, then a best default route is not
missing in one configuration alone, and if only the identities of the addresses are
compared, then the IPv4 addresses are not the only difference. -/
structure CmpFullInReach (a b : L3ConfigData) (flags : CmpFlags) : Prop where
  best4 : flags.routesId → flags.routes = false → EqualBeforeBest a b flags →
    a.ip4.bestDefaultRoute.isSome = b.ip4.bestDefaultRoute.isSome
  best6 : flags.routesId → flags.routes = false → EqualBeforeBest a b flags →
    cmpIp flags a.ip4 b.ip4 = some .eq →
      a.ip6.bestDefaultRoute.isSome = b.ip6.bestDefaultRoute.isSome
  addresses4 : flags.addressesId → flags.addresses = false → EqualBeforeBest a b flags →
    EqualParameters a b flags →
      List.Forall₂ (fun x y => x.address = y.address ∧ x.peerAddress = y.peerAddress)
        a.ip4.addresses b.ip4.addresses

theorem sameAddresses_of_cmpFull {a b : L3ConfigData} (hreach : CmpFullInReach a b flags)
    (hflags : flags.addressesId) (hbefore : EqualBeforeBest a b flags)
    (hparameters : EqualParameters a b flags) : SameAddresses a b := by
  refine ⟨?_, ip6_of_cmpAddresses hflags hbefore.addresses6⟩
  cases hfull : flags.addresses with
  | true => exact ip4_of_cmpAddresses hfull hbefore.addresses4
  | false =>
    have hplen := plen_of_cmpAddresses hflags hfull hbefore.addresses4
    have haddresses := hreach.addresses4 hflags hfull hbefore hparameters
    exact List.Forall₂.mp (fun x y hxy hxy' => ⟨hxy, hxy'⟩) hplen haddresses

/-- The comparison is total, antisymmetric and right about the addresses for exactly the
configurations in reach. -/
theorem cmp_full_correct_iff (a b : Option L3ConfigData) (flags : CmpFlags) :
    CmpFullCorrect a b flags ↔ CmpFullInReach (a.getD empty) (b.getD empty) flags := by
  constructor
  · intro ⟨htotal, _, haddresses⟩
    have hne : cmpFull a b flags ≠ none := by
      intro h
      simp [h] at htotal
    refine ⟨?_, ?_, ?_⟩
    · intro hid hfull hbefore
      by_contra hbest
      exact hne ((cmpFull_eq_none a b flags).mpr
        ⟨hbefore, .inl ((cmpIp_eq_none flags _ _).mpr ⟨hid, hfull, hbest⟩)⟩)
    · intro hid hfull hbefore hip4
      by_contra hbest
      exact hne ((cmpFull_eq_none a b flags).mpr
        ⟨hbefore, .inr ⟨hip4, (cmpIp_eq_none flags _ _).mpr ⟨hid, hfull, hbest⟩⟩⟩)
    · intro hid _ hbefore hparameters
      have hsame := haddresses hid ((cmpFull_eq_eq a b flags).mpr ⟨hbefore, hparameters⟩)
      exact hsame.ip4.imp fun x y hxy => hxy.2
  · intro hreach
    refine ⟨?_, cmpFull_swap a b flags, ?_⟩
    · rw [Option.isSome_iff_ne_none, ne_eq, cmpFull_eq_none]
      rintro ⟨hbefore, h4 | ⟨hip4, h6⟩⟩
      · obtain ⟨hid, hfull, hbest⟩ := (cmpIp_eq_none flags _ _).mp h4
        exact hbest (hreach.best4 hid hfull hbefore)
      · obtain ⟨hid, hfull, hbest⟩ := (cmpIp_eq_none flags _ _).mp h6
        exact hbest (hreach.best6 hid hfull hbefore hip4)
    · intro hid h
      obtain ⟨hbefore, hparameters⟩ := (cmpFull_eq_eq a b flags).mp h
      exact sameAddresses_of_cmpFull hreach hid hbefore hparameters

def withAddress (address : BitVec 32) : Option L3ConfigData :=
  (addAddressFull 1 L3IpConfig.new
    (.pl { (default : PlatformIp4Address) with plen := 24, address, peerAddress := address })
    .exclusive).map fun r => { new 1 .user with ip4 := r.1 }

/-- A configuration with a default route of IPv4 in a table. -/
def withDefaultRoute (table : ℕ) : Option L3ConfigData :=
  (addRouteFull 1 L3IpConfig.new
    (.pl ⟨{ (default : PlatformIp4Route) with
      tableCoerced := routeTableCoerce table, metric := 100 }, [], length_noExtraNexthops⟩)
    .exclusive).map fun r => { new 1 .user with ip4 := r.self }

def addressesIdFlags : CmpFlags :=
  { CmpFlags.all with addresses := false, routesId := false, routes := false }

def routesIdFlags : CmpFlags := { CmpFlags.all with routes := false }

/-- Other addresses of IPv4 are not found. A default route outside of the main table is not
the best one, which is then missing. -/
theorem cmp_identities_not_correct :
    ¬ CmpFullCorrect (withAddress 0x0a000001) (withAddress 0x0a000002) addressesIdFlags ∧
      ¬ CmpFullCorrect (withDefaultRoute rtTableMain) (withDefaultRoute 100) routesIdFlags := by
  constructor
  · intro h
    have hsame := (h.addressesId rfl (by decide)).ip4
    revert hsame
    decide
  · intro h
    have htotal := h.total
    revert htotal
    decide

end L3ConfigData

end NetworkManager.Core
