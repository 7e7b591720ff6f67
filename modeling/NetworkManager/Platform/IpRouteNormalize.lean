import NetworkManager.Platform.IpRouteCmpOrder
import NetworkManager.Platform.RouteSyncConverges

/-!
# Normalized routes

Normalizing a route twice is normalizing it once. Of two routes that are semantically equal,
the normalized ones agree in all their fields but the flags and, for IPv6, the preference,
which the semantic comparison relaxes and the normalization leaves alone.
-/

namespace NetworkManager.Platform

open Lib Std

/-- `nm_platform_ip_route_normalize()` for the public part of an IPv4 route. -/
def PlatformIp4Route.normalize (r : PlatformIp4Route) : PlatformIp4Route :=
  { r with
    toPlatformIpRoute := r.toPlatformIpRoute.normalize 0
    network := ip4AddrClearHostAddress r.network r.plen
    scopeInv := r.scopeInvGetNormalized
    nNexthops := r.getNNexthops
    weight := ecmpWeightNormalize r.getNNexthops r.weight }

/-! ## Idempotence -/

namespace PlatformIpRoute

theorem roundTripRtprot_roundTripRtprot (s : IpConfigSource) :
    s.roundTripRtprot.roundTripRtprot = s.roundTripRtprot := rfl

theorem normalize_normalize (metricDefault : ℕ) (r : PlatformIpRoute) :
    (r.normalize metricDefault).normalize metricDefault = r.normalize metricDefault := by
  have htable := getEffectiveTable_normalize metricDefault r
  unfold normalize at htable ⊢
  simp only [htable, roundTripRtprot_roundTripRtprot, Bool.false_eq_true, if_false]

end PlatformIpRoute

namespace PlatformIp4Route

theorem scopeInvGetNormalized_ne_zero (r : PlatformIp4Route) : r.scopeInvGetNormalized ≠ 0 := by
  unfold scopeInvGetNormalized
  split_ifs with h
  · decide
  · decide
  · decide
  · exact h

theorem scopeInvGetNormalized_normalize (r : PlatformIp4Route) :
    r.normalize.scopeInvGetNormalized = r.scopeInvGetNormalized :=
  if_neg r.scopeInvGetNormalized_ne_zero

theorem getNNexthops_normalize (r : PlatformIp4Route) :
    r.normalize.getNNexthops = r.getNNexthops := by
  unfold normalize PlatformIpRoute.normalize getNNexthops
  dsimp only
  split_ifs <;> omega

theorem ecmpWeightNormalize_self (n weight : ℕ) :
    ecmpWeightNormalize n (ecmpWeightNormalize n weight) = ecmpWeightNormalize n weight := by
  unfold ecmpWeightNormalize
  split_ifs <;> omega

theorem normalize_normalize (r : PlatformIp4Route) : r.normalize.normalize = r.normalize := by
  have hrx := r.toPlatformIpRoute.normalize_normalize 0
  have hscope := r.scopeInvGetNormalized_normalize
  have hnexthops := r.getNNexthops_normalize
  have hnetwork := ip4AddrClearHostAddress_self r.network r.plen
  have hweight := ecmpWeightNormalize_self r.getNNexthops r.weight
  rw [normalize, hscope, hnexthops]
  simp only [normalize, hrx, plen_normalize, hnetwork, hweight]

end PlatformIp4Route

theorem PlatformIp6Route.normalize_normalize (r : PlatformIp6Route) :
    r.normalize.normalize = r.normalize := by
  have hrx := r.toPlatformIpRoute.normalize_normalize 1024
  have hnetwork := ip6AddrClearHostAddress_self r.network r.plen
  have hsrc := ip6AddrClearHostAddress_self r.src r.srcPlen
  simp only [normalize, hrx, plen_normalize, hnetwork, hsrc]

/-! ## Semantically equal routes -/

namespace PlatformIp4Route

variable {a b : PlatformIp4Route}

theorem cmp_eq_iff : a.cmp b = .eq ↔ a = b := by
  refine ⟨eq_of_cmp, ?_⟩
  rintro rfl
  have hrefl := transCmp_cmp
  exact ReflCmp.compare_self

theorem ecmpWeightNormalize_congr {n v w : ℕ} (h : weightNormalize n v = weightNormalize n w) :
    ecmpWeightNormalize n v = ecmpWeightNormalize n w := by
  unfold weightNormalize at h
  unfold ecmpWeightNormalize
  split_ifs at h ⊢ with hn
  · exact h
  · rfl
  · rfl

theorem normalize_cmp_eq_iff (h : a.cmpBy .semantically b = .eq) :
    a.normalize.cmpBy .full b.normalize = .eq ↔ a.rRtmFlags = b.rRtmFlags := by
  change a.normalize.cmp b.normalize = .eq ↔ _
  rw [cmp_eq_iff]
  constructor
  · intro heq
    exact congrArg (fun r => r.rRtmFlags) heq
  · intro hflags
    simp only [cmpBy, semanticallySteps, PlatformIpRoute.metricsSteps, cmpSeq_eq_eq,
      List.forall_mem_append, List.forall_mem_cons, LawfulEqOrd.compare_eq_iff_eq,
      inAddrT_injective.eq_iff, IpConfigSource.toNat_injective.eq_iff] at h
    obtain ⟨⟨htype, htableAny, htable, hifindex, hprefix, hplen, hmetricAny, hmetric, hgateway,
      hnexthops, hweight, hrest⟩, hmetrics⟩ := h
    rw [hnexthops] at hweight
    simp only [normalize, PlatformIpRoute.normalize,
      eq_of_ip4Prefix hprefix hplen, ecmpWeightNormalize_congr hweight, hnexthops, htype, htable,
      hifindex, hplen, hmetricAny, hmetric, hgateway, hflags, hrest, hmetrics]

end PlatformIp4Route

namespace PlatformIp6Route

variable {a b : PlatformIp6Route}

theorem cmp_eq_iff : a.cmp b = .eq ↔ a = b := by
  refine ⟨eq_of_cmp, ?_⟩
  rintro rfl
  have hrefl := transCmp_cmp
  exact ReflCmp.compare_self

theorem normalize_cmp_eq_iff (h : a.cmpBy .semantically b = .eq) :
    a.normalize.cmpBy .full b.normalize = .eq ↔
      a.rRtmFlags = b.rRtmFlags ∧ a.rtPref = b.rtPref := by
  change a.normalize.cmp b.normalize = .eq ↔ _
  rw [cmp_eq_iff]
  constructor
  · intro heq
    exact ⟨congrArg (fun r => r.rRtmFlags) heq, congrArg (fun r => r.rtPref) heq⟩
  · rintro ⟨hflags, hpref⟩
    simp only [cmpBy, semanticallySteps, PlatformIpRoute.metricsSteps, cmpSeq_eq_eq,
      List.forall_mem_append, List.forall_mem_cons, LawfulEqOrd.compare_eq_iff_eq,
      IpConfigSource.toNat_injective.eq_iff] at h
    obtain ⟨⟨⟨htype, htableAny, htable, hifindex, hprefix, hplen, hmetricAny, hmetric, hgateway,
      hprefSrc, hsrc, hsrcPlen, hrest⟩, hmetrics⟩, -⟩ := h
    simp only [normalize, PlatformIpRoute.normalize,
      eq_of_ip6Prefix hprefix hplen, eq_of_ip6Prefix hsrc hsrcPlen, htype, htable, hifindex, hplen,
      hmetricAny, hmetric, hgateway, hprefSrc, hsrcPlen, hflags, hpref, hrest, hmetrics]

end PlatformIp6Route

/-- What normalization promises, and when it keeps to the comparison. -/
structure NormalizeAgrees (a b : PlatformIp4Route) (a' b' : PlatformIp6Route) : Prop where
  ip4_idempotent : a.normalize.normalize = a.normalize
  ip6_idempotent : a'.normalize.normalize = a'.normalize
  ip4_full_iff : a.cmpBy .semantically b = .eq →
    (a.normalize.cmpBy .full b.normalize = .eq ↔ a.rRtmFlags = b.rRtmFlags)
  ip6_full_iff : a'.cmpBy .semantically b' = .eq →
    (a'.normalize.cmpBy .full b'.normalize = .eq ↔
      a'.rRtmFlags = b'.rRtmFlags ∧ a'.rtPref = b'.rtPref)

theorem normalize_agrees (a b : PlatformIp4Route) (a' b' : PlatformIp6Route) :
    NormalizeAgrees a b a' b' where
  ip4_idempotent := a.normalize_normalize
  ip6_idempotent := a'.normalize_normalize
  ip4_full_iff := PlatformIp4Route.normalize_cmp_eq_iff
  ip6_full_iff := PlatformIp6Route.normalize_cmp_eq_iff

/-- The kernel reports the flag of a link that is down, which is neither compared nor
dropped. -/
theorem linkdown_not_normalized :
    ¬ ∀ a b : PlatformIp4Route, a.cmpBy .semantically b = .eq →
      a.normalize.cmpBy .full b.normalize = .eq := by
  intro h
  have hlinkdown := h { (default : PlatformIp4Route) with ifindex := 1, rRtmFlags := 16 }
    { (default : PlatformIp4Route) with ifindex := 1 } (by decide)
  revert hlinkdown
  decide

end NetworkManager.Platform
