import NetworkManager.Platform.IpRouteCmp

/-!
# The order of routes

Each comparison type orders the routes, and agrees with the hash of the same type.
-/

namespace NetworkManager.Platform

open Lib Std List

/-! ## Prefixes -/

theorem compare_toNat {w : ℕ} (x y : BitVec w) : compare x y = compare x.toNat y.toNat := by
  change compareOfLessAndEq x y = compareOfLessAndEq x.toNat y.toNat
  simp only [compareOfLessAndEq, BitVec.lt_def, BitVec.toNat_inj]

theorem toNat_and_not_allOnes_shift (w p : ℕ) (x : BitVec w) :
    (x &&& ~~~(BitVec.allOnes w >>> p)).toNat = prefixOf w p x.toNat := by
  have hshift : x &&& ~~~(BitVec.allOnes w >>> p) = (x >>> (w - p)) <<< (w - p) := by
    ext i hi
    simp only [BitVec.getElem_and, BitVec.getElem_not, BitVec.getElem_ushiftRight,
      BitVec.getElem_shiftLeft, BitVec.getLsbD_allOnes]
    by_cases h : i < w - p
    · simp [h, show p + i < w by omega]
    · simp [h, show ¬ p + i < w by omega, show w - p + (i - (w - p)) = i by omega, hi]
  have hlt : x.toNat / 2 ^ (w - p) * 2 ^ (w - p) < 2 ^ w :=
    Nat.lt_of_le_of_lt (Nat.div_mul_le_self _ _) x.isLt
  rw [hshift, BitVec.toNat_shiftLeft, BitVec.toNat_ushiftRight, Nat.shiftRight_eq_div_pow,
    Nat.shiftLeft_eq, Nat.mod_eq_of_lt hlt]
  rfl

theorem toNat_ip4AddrClearHostAddress (addr : BitVec 32) (plen : ℕ) :
    (ip4AddrClearHostAddress addr plen).toNat = prefixOf 32 plen addr.toNat := by
  unfold ip4AddrClearHostAddress ip4AddrNetmaskFromPrefix
  split_ifs with h
  · exact toNat_and_not_allOnes_shift 32 plen addr
  · rw [BitVec.and_allOnes, prefixOf, Nat.sub_eq_zero_of_le (by omega)]
    simp

theorem toNat_ip6AddrClearHostAddress (addr : BitVec 128) (plen : ℕ) :
    (ip6AddrClearHostAddress addr plen).toNat = prefixOf 128 plen addr.toNat :=
  toNat_and_not_allOnes_shift 128 plen addr

theorem ip4AddrSamePrefixCmp_eq (a b : BitVec 32) (plen : ℕ) :
    ip4AddrSamePrefixCmp a b plen =
      compare (prefixOf 32 plen a.toNat) (prefixOf 32 plen b.toNat) := by
  rw [ip4AddrSamePrefixCmp, compare_toNat, toNat_ip4AddrClearHostAddress,
    toNat_ip4AddrClearHostAddress]

theorem toNat_byteMask {r : ℕ} (h : r < 8) (byte : BitVec 8) :
    (byte &&& ~~~((1#8 <<< (8 - r)) - 1#8)).toNat = prefixOf 8 r byte.toNat := by
  rw [← toNat_and_not_allOnes_shift 8 r byte]
  have hmask : (1#8 <<< (8 - r)) - 1#8 = BitVec.allOnes 8 >>> r := by
    revert r
    decide
  rw [hmask]

theorem ip6AddrSamePrefixCmp_eq (a b : BitVec 128) (plen : ℕ) :
    ip6AddrSamePrefixCmp a b plen =
      compare (prefixOf 128 plen a.toNat) (prefixOf 128 plen b.toNat) := by
  unfold ip6AddrSamePrefixCmp
  split_ifs with h hbits
  · rw [compare_toNat, prefixOf, prefixOf, Nat.sub_eq_zero_of_le h]
    simp
  · -- The prefix has `plen / 8` bytes, and `plen % 8` bits of the next one.
    have hmod : plen % 8 < 8 := Nat.mod_lt _ (by omega)
    have hbyte (x : ℕ) : x / 2 ^ (120 - 8 * (plen / 8)) % 2 ^ 8 / 2 ^ (8 - plen % 8) =
        x / 2 ^ (128 - plen) % 2 ^ (plen % 8) := by
      rw [show 2 ^ 8 = 2 ^ (8 - plen % 8) * 2 ^ (plen % 8) by rw [← Nat.pow_add]; congr 1; omega,
        Nat.mod_mul_right_div_self, Nat.div_div_eq_div_mul, ← Nat.pow_add]
      congr 3
      omega
    have hwhole (x : ℕ) : x / 2 ^ (128 - 8 * (plen / 8)) = x / 2 ^ (128 - plen) / 2 ^ (plen % 8) := by
      rw [Nat.div_div_eq_div_mul, ← Nat.pow_add]
      congr 2
      omega
    simp only [cmpSeq, Ordering.then_eq, compare_toNat, toNat_byteMask hmod,
      BitVec.toNat_ushiftRight, BitVec.toNat_setWidth, Nat.shiftRight_eq_div_pow, prefixOf]
    rw [compare_div_mul (Nat.two_pow_pos _), compare_div_mul (Nat.two_pow_pos _), hbyte, hbyte,
      hwhole, hwhole, compare_div_mod _ _ (Nat.two_pow_pos _)]
  · have hplen : 8 * (plen / 8) = plen := by omega
    simp only [cmpSeq, Ordering.then_eq, compare_toNat, BitVec.toNat_ushiftRight,
      Nat.shiftRight_eq_div_pow, prefixOf, hplen]
    rw [compare_div_mul (Nat.two_pow_pos _)]

theorem ip4AddrSamePrefixCmp_then (a b : BitVec 32) (p q : ℕ) :
    (ip4AddrSamePrefixCmp a b (min p q)).then (compare p q) =
      (compare (ip4AddrClearHostAddress a p) (ip4AddrClearHostAddress b q)).then
        (compare p q) := by
  rw [ip4AddrSamePrefixCmp_eq, compare_prefixOf_min, compare_toNat, toNat_ip4AddrClearHostAddress,
    toNat_ip4AddrClearHostAddress]

theorem ip6AddrSamePrefixCmp_then (a b : BitVec 128) (p q : ℕ) :
    (ip6AddrSamePrefixCmp a b (min p q)).then (compare p q) =
      (compare (ip6AddrClearHostAddress a p) (ip6AddrClearHostAddress b q)).then
        (compare p q) := by
  rw [ip6AddrSamePrefixCmp_eq, compare_prefixOf_min, compare_toNat, toNat_ip6AddrClearHostAddress,
    toNat_ip6AddrClearHostAddress]

section Prefix

variable {α : Type}

theorem transCmp_ip4Prefix (addr : α → BitVec 32) (plen : α → ℕ) :
    TransCmp fun a b => (ip4AddrSamePrefixCmp (addr a) (addr b) (min (plen a) (plen b))).then
      (compare (plen a) (plen b)) := by
  simp only [ip4AddrSamePrefixCmp_then]
  exact transCmp_then (transCmp_on fun a => ip4AddrClearHostAddress (addr a) (plen a))
    (transCmp_on plen)

theorem transCmp_ip6Prefix (addr : α → BitVec 128) (plen : α → ℕ) :
    TransCmp fun a b => (ip6AddrSamePrefixCmp (addr a) (addr b) (min (plen a) (plen b))).then
      (compare (plen a) (plen b)) := by
  simp only [ip6AddrSamePrefixCmp_then]
  exact transCmp_then (transCmp_on fun a => ip6AddrClearHostAddress (addr a) (plen a))
    (transCmp_on plen)

end Prefix

/-! ## Transitivity -/

theorem PlatformIpRoute.transCmp_metricsSteps :
    TransCmp fun a b : PlatformIpRoute => cmpSeq (metricsSteps a b) := by
  unfold metricsSteps
  repeat refine transCmp_cons (transCmp_on _) ?_
  exact transCmp_nil

namespace PlatformIp4Route

theorem transCmp_weakIdSteps : TransCmp fun a b => cmpSeq (weakIdSteps a b) := by
  unfold weakIdSteps
  iterate 2 refine transCmp_cons (transCmp_on _) ?_
  refine transCmp_cons₂ (transCmp_ip4Prefix _ _) ?_
  repeat refine transCmp_cons (transCmp_on _) ?_
  exact transCmp_nil

theorem transCmp_ecmpIdSteps : TransCmp fun a b => cmpSeq (ecmpIdSteps a b) := by
  unfold ecmpIdSteps
  repeat refine transCmp_cons (transCmp_on _) ?_
  exact transCmp_nil

theorem transCmp_idSteps : TransCmp fun a b => cmpSeq (idSteps a b) := by
  unfold idSteps
  iterate 2 refine transCmp_cons (transCmp_on _) ?_
  exact transCmp_cons₂ (transCmp_dep getNNexthops fun n r => weightNormalize n r.weight)
    transCmp_nil

theorem transCmp_semanticallySteps : TransCmp fun a b => cmpSeq (semanticallySteps a b) := by
  unfold semanticallySteps
  iterate 4 refine transCmp_cons (transCmp_on _) ?_
  refine transCmp_cons₂ (transCmp_ip4Prefix _ _) ?_
  iterate 3 refine transCmp_cons (transCmp_on _) ?_
  refine transCmp_cons₂ (transCmp_dep getNNexthops fun n r => weightNormalize n r.weight) ?_
  repeat refine transCmp_cons (transCmp_on _) ?_
  exact transCmp_nil

theorem transCmp_cmp : TransCmp cmp := by
  unfold cmp
  repeat refine transCmp_cons (transCmp_on _) ?_
  exact transCmp_nil

theorem transCmp_cmpBy (cmpType : IpRouteCmpType) : TransCmp (cmpBy cmpType) := by
  cases cmpType with
  | weakId => exact transCmp_weakIdSteps
  | ecmpId => exact transCmp_append transCmp_weakIdSteps transCmp_ecmpIdSteps
  | id =>
    exact transCmp_append (transCmp_append transCmp_weakIdSteps transCmp_ecmpIdSteps)
      transCmp_idSteps
  | semantically =>
    exact transCmp_append transCmp_semanticallySteps
      (transCmp_comp toPlatformIpRoute PlatformIpRoute.transCmp_metricsSteps)
  | full => exact transCmp_cmp

end PlatformIp4Route

namespace PlatformIp6Route

theorem transCmp_weakIdSteps : TransCmp fun a b => cmpSeq (weakIdSteps a b) := by
  unfold weakIdSteps
  iterate 2 refine transCmp_cons (transCmp_on _) ?_
  refine transCmp_cons₂ (transCmp_ip6Prefix _ _) ?_
  iterate 2 refine transCmp_cons (transCmp_on _) ?_
  exact transCmp_cons₂ (transCmp_ip6Prefix _ _) transCmp_nil

theorem transCmp_idSteps : TransCmp fun a b => cmpSeq (idSteps a b) := by
  unfold idSteps
  repeat refine transCmp_cons (transCmp_on _) ?_
  exact transCmp_nil

theorem transCmp_semanticallySteps : TransCmp fun a b => cmpSeq (semanticallySteps a b) := by
  unfold semanticallySteps
  iterate 4 refine transCmp_cons (transCmp_on _) ?_
  refine transCmp_cons₂ (transCmp_ip6Prefix _ _) ?_
  iterate 4 refine transCmp_cons (transCmp_on _) ?_
  refine transCmp_cons₂ (transCmp_ip6Prefix _ _) ?_
  repeat refine transCmp_cons (transCmp_on _) ?_
  exact transCmp_nil

theorem transCmp_cmp : TransCmp cmp := by
  unfold cmp
  repeat refine transCmp_cons (transCmp_on _) ?_
  exact transCmp_nil

theorem transCmp_cmpBy (cmpType : IpRouteCmpType) : TransCmp (cmpBy cmpType) := by
  cases cmpType with
  | weakId => exact transCmp_weakIdSteps
  | ecmpId => exact transCmp_weakIdSteps
  | id => exact transCmp_append transCmp_weakIdSteps transCmp_idSteps
  | semantically =>
    exact transCmp_append
      (transCmp_append transCmp_semanticallySteps
        (transCmp_comp toPlatformIpRoute PlatformIpRoute.transCmp_metricsSteps))
      (transCmp_cons (transCmp_on fun r : PlatformIp6Route => routePrefNormalize r.rtPref) transCmp_nil)
  | full => exact transCmp_cmp

end PlatformIp6Route

/-! ## Routes with their next hops -/

theorem PlatformIp4RtNextHop.transCmp_cmpFor (forId : Bool) : TransCmp (cmpFor forId) := by
  unfold cmpFor
  iterate 2 refine transCmp_cons (transCmp_on _) ?_
  cases forId with
  | false => exact transCmp_cons (transCmp_on _) transCmp_nil
  | true => exact transCmp_cons (transCmp_on fun h : PlatformIp4RtNextHop => max h.weight 1) transCmp_nil

namespace PlatformIp4Route

theorem pred_nNexthops_of_cmpBy {a b : PlatformIp4Route} (forId : Bool)
    (h : a.cmpBy (if forId then .id else .full) b = .eq) : a.nNexthops - 1 = b.nNexthops - 1 := by
  cases forId with
  | false =>
    simp only [Bool.false_eq_true, if_false, cmpBy, cmp, cmpSeq_eq_eq, forall_mem_cons,
      LawfulEqOrd.compare_eq_iff_eq] at h
    omega
  | true =>
    simp only [if_true, cmpBy, idSteps, cmpSeq_eq_eq, forall_mem_append, forall_mem_cons,
      LawfulEqOrd.compare_eq_iff_eq] at h
    obtain ⟨-, -, -, hn, -⟩ := h
    unfold getNNexthops at hn
    split_ifs at hn <;> omega

end PlatformIp4Route

namespace ObjectIp4Route

def order (forId : Bool) (a b : ObjectIp4Route) : Ordering :=
  (a.cmpBy (if forId then .id else .full) b.toPlatformIp4Route).then
    (cmpList (PlatformIp4RtNextHop.cmpFor forId) a.extraNexthops b.extraNexthops)

theorem transCmp_order (forId : Bool) : TransCmp (order forId) :=
  transCmp_then
    (transCmp_comp toPlatformIp4Route
      (PlatformIp4Route.transCmp_cmpBy (if forId then .id else .full)))
    (transCmp_comp extraNexthops (transCmp_cmpList (PlatformIp4RtNextHop.transCmp_cmpFor forId)))

theorem nexthopSteps_eq {forId : Bool} {a b : ObjectIp4Route}
    (h : a.extraNexthops.length = b.extraNexthops.length) :
    nexthopSteps forId a b =
      (a.extraNexthops.zipWith (PlatformIp4RtNextHop.cmpFor forId) b.extraNexthops).map some := by
  have hlength := a.length_extraNexthops
  apply ext_getElem
  · simp [nexthopSteps, ← h, hlength]
  · intro i hi _
    have hia : i < a.extraNexthops.length := by
      simpa [nexthopSteps, hlength] using hi
    have hib : i < b.extraNexthops.length := h ▸ hia
    simp [nexthopSteps, List.getElem?_eq_getElem hia, List.getElem?_eq_getElem hib]

theorem cmpFor_eq (forId : Bool) (a b : ObjectIp4Route) :
    a.cmpFor forId b = some (a.order forId b) := by
  rw [cmpFor, order]
  cases hroute : a.cmpBy (if forId then .id else .full) b.toPlatformIp4Route with
  | lt => rfl
  | gt => rfl
  | eq =>
    have hlength : a.extraNexthops.length = b.extraNexthops.length := by
      rw [a.length_extraNexthops, b.length_extraNexthops]
      exact PlatformIp4Route.pred_nNexthops_of_cmpBy forId hroute
    rw [nexthopSteps_eq hlength, Ordering.eq_then, cmpList, hlength, compare_self, Ordering.eq_then]
    exact cmpSeq?_map_some _

end ObjectIp4Route

/-! ## Hashing -/

theorem eq_of_ip4Prefix {a b : BitVec 32} {p q : ℕ} (h : ip4AddrSamePrefixCmp a b (min p q) = .eq)
    (hplen : p = q) : ip4AddrClearHostAddress a q = ip4AddrClearHostAddress b q := by
  subst hplen
  rw [Nat.min_self] at h
  exact LawfulEqOrd.eq_of_compare h

theorem eq_of_ip6Prefix {a b : BitVec 128} {p q : ℕ} (h : ip6AddrSamePrefixCmp a b (min p q) = .eq)
    (hplen : p = q) : ip6AddrClearHostAddress a q = ip6AddrClearHostAddress b q := by
  subst hplen
  have hthen := ip6AddrSamePrefixCmp_then a b p p
  rw [h, compare_self] at hthen
  exact LawfulEqOrd.eq_of_compare (Ordering.then_eq_eq.mp hthen.symm).1

theorem ip6AddrClearHostAddressPtr_congr {a b : BitVec 128} {p q : ℕ}
    (h : ip6AddrSamePrefixCmp a b (min p q) = .eq) (hplen : p = q) :
    ip6AddrClearHostAddressPtr a q = ip6AddrClearHostAddressPtr b q := by
  rw [ip6AddrClearHostAddressPtr, ip6AddrClearHostAddressPtr, eq_of_ip6Prefix h hplen]

namespace PlatformIp4Route

variable {a b : PlatformIp4Route}

theorem weakIdHash_congr (h : cmpSeq (weakIdSteps a b) = .eq) (hs : HashState) :
    a.weakIdHash hs = b.weakIdHash hs := by
  simp only [weakIdSteps, cmpSeq_eq_eq, forall_mem_cons, LawfulEqOrd.compare_eq_iff_eq] at h
  obtain ⟨htableAny, htable, hprefix, hplen, hmetricAny, hmetric, htos, -⟩ := h
  simp only [weakIdHash, eq_of_ip4Prefix hprefix hplen, htableAny, htable, hplen, hmetricAny,
    hmetric, htos]

theorem ecmpIdHash_congr (h : cmpSeq (ecmpIdSteps a b) = .eq) (hs : HashState) :
    a.ecmpIdHash hs = b.ecmpIdHash hs := by
  simp only [ecmpIdSteps, cmpSeq_eq_eq, forall_mem_cons, LawfulEqOrd.compare_eq_iff_eq] at h
  simp only [ecmpIdHash, h]

theorem idHash_congr (h : cmpSeq (idSteps a b) = .eq) (hs : HashState) :
    a.idHash hs = b.idHash hs := by
  simp only [idSteps, cmpSeq_eq_eq, forall_mem_cons, LawfulEqOrd.compare_eq_iff_eq] at h
  obtain ⟨hifindex, hgateway, hnexthops, hweight, -⟩ := h
  rw [idHash, idHash, hweight, hifindex, hgateway, hnexthops]

theorem semanticallyHash_congr
    (h : cmpSeq (semanticallySteps a b ++ a.metricsSteps b.toPlatformIpRoute) = .eq)
    (hs : HashState) : a.semanticallyHash hs = b.semanticallyHash hs := by
  simp only [semanticallySteps, PlatformIpRoute.metricsSteps, cmpSeq_eq_eq,
    forall_mem_append, forall_mem_cons, LawfulEqOrd.compare_eq_iff_eq] at h
  obtain ⟨⟨htype, htableAny, htable, hifindex, hprefix, hplen, hmetricAny, hmetric, hgateway,
    hnexthops, hweight, hrest⟩, hmetrics⟩ := h
  rw [hnexthops] at hweight
  simp only [semanticallyHash, eq_of_ip4Prefix hprefix hplen, hweight, hnexthops, htype,
    htableAny, htable, hifindex, hplen, hmetricAny, hmetric, hgateway, hrest, hmetrics]

theorem fullHash_congr (h : a.cmp b = .eq) (hs : HashState) : a.fullHash hs = b.fullHash hs := by
  simp only [cmp, cmpSeq_eq_eq, forall_mem_cons, LawfulEqOrd.compare_eq_iff_eq] at h
  simp only [fullHash, h]

theorem hashUpdate_congr (cmpType : IpRouteCmpType) (h : a.cmpBy cmpType b = .eq)
    (hs : HashState) : a.hashUpdate cmpType hs = b.hashUpdate cmpType hs := by
  cases cmpType with
  | weakId => exact weakIdHash_congr h hs
  | ecmpId =>
    rw [cmpBy, cmpSeq_append, Ordering.then_eq_eq] at h
    rw [hashUpdate, hashUpdate, weakIdHash_congr h.1, ecmpIdHash_congr h.2]
  | id =>
    rw [cmpBy, cmpSeq_append, cmpSeq_append, Ordering.then_eq_eq, Ordering.then_eq_eq] at h
    rw [hashUpdate, hashUpdate, weakIdHash_congr h.1.1, ecmpIdHash_congr h.1.2, idHash_congr h.2]
  | semantically => exact semanticallyHash_congr h hs
  | full => exact fullHash_congr h hs

end PlatformIp4Route

namespace PlatformIp6Route

variable {a b : PlatformIp6Route}

theorem weakIdHash_congr (h : cmpSeq (weakIdSteps a b) = .eq) (hs : HashState) :
    a.hashUpdate .weakId hs = b.hashUpdate .weakId hs := by
  simp only [weakIdSteps, cmpSeq_eq_eq, forall_mem_cons, LawfulEqOrd.compare_eq_iff_eq] at h
  obtain ⟨htableAny, htable, hprefix, hplen, hmetricAny, hmetric, hsrc, hsrcPlen, -⟩ := h
  simp only [hashUpdate, ip6AddrClearHostAddressPtr_congr hprefix hplen,
    ip6AddrClearHostAddressPtr_congr hsrc hsrcPlen, htableAny, htable, hplen, hmetricAny, hmetric,
    hsrcPlen]

theorem idHash_congr (h : cmpSeq (weakIdSteps a b ++ idSteps a b) = .eq) (hs : HashState) :
    a.idHash hs = b.idHash hs := by
  simp only [weakIdSteps, idSteps, cmpSeq_eq_eq, forall_mem_append, forall_mem_cons,
    LawfulEqOrd.compare_eq_iff_eq] at h
  obtain ⟨⟨htableAny, htable, hprefix, hplen, hmetricAny, hmetric, hsrc, hsrcPlen, -⟩, hid⟩ := h
  simp only [idHash, ip6AddrClearHostAddressPtr_congr hprefix hplen,
    ip6AddrClearHostAddressPtr_congr hsrc hsrcPlen, htableAny, htable, hplen, hmetricAny, hmetric,
    hsrcPlen, hid]

theorem semanticallyHash_congr (h : a.cmpBy .semantically b = .eq) (hs : HashState) :
    a.semanticallyHash hs = b.semanticallyHash hs := by
  simp only [cmpBy, semanticallySteps, PlatformIpRoute.metricsSteps, cmpSeq_eq_eq,
    forall_mem_append, forall_mem_cons, LawfulEqOrd.compare_eq_iff_eq] at h
  obtain ⟨⟨⟨htype, htableAny, htable, hifindex, hprefix, hplen, hmetricAny, hmetric, hgateway,
    hprefSrc, hsrc, hsrcPlen, hrest⟩, hmetrics⟩, hpref, -⟩ := h
  simp only [semanticallyHash, ip6AddrClearHostAddressPtr_congr hprefix hplen,
    ip6AddrClearHostAddressPtr_congr hsrc hsrcPlen, htype, htableAny, htable, hifindex, hplen,
    hmetricAny, hmetric, hgateway, hprefSrc, hsrcPlen, hrest, hmetrics, hpref]

theorem fullHash_congr (h : a.cmp b = .eq) (hs : HashState) : a.fullHash hs = b.fullHash hs := by
  simp only [cmp, cmpSeq_eq_eq, forall_mem_cons, LawfulEqOrd.compare_eq_iff_eq] at h
  simp only [fullHash, h]

theorem hashUpdate_congr (cmpType : IpRouteCmpType) (hecmp : cmpType ≠ .ecmpId)
    (h : a.cmpBy cmpType b = .eq) (hs : HashState) :
    a.hashUpdate cmpType hs = b.hashUpdate cmpType hs := by
  cases cmpType with
  | weakId => exact weakIdHash_congr h hs
  | ecmpId => exact absurd rfl hecmp
  | id => exact idHash_congr h hs
  | semantically => exact semanticallyHash_congr h hs
  | full => exact congrArg some (fullHash_congr h hs)

end PlatformIp6Route

theorem PlatformIp4RtNextHop.hashUpdate_congr {forId : Bool} {a b : PlatformIp4RtNextHop}
    (h : a.cmpFor forId b = .eq) (hs : HashState) : a.hashUpdate forId hs = b.hashUpdate forId hs := by
  simp only [cmpFor, cmpSeq_eq_eq, forall_mem_cons, LawfulEqOrd.compare_eq_iff_eq] at h
  obtain ⟨hifindex, hgateway, hweight, -⟩ := h
  cases forId with
  | false =>
    have hw : a.weight = b.weight := LawfulEqOrd.eq_of_compare hweight
    simp only [hashUpdate, hifindex, hgateway, hw]
  | true =>
    have hw : max a.weight 1 = max b.weight 1 := LawfulEqOrd.eq_of_compare hweight
    simp only [hashUpdate, hifindex, hgateway, if_true, hw]

namespace ObjectIp4Route

theorem foldl_hashUpdate_congr {forId : Bool} {as bs : List PlatformIp4RtNextHop}
    (h : cmpList (PlatformIp4RtNextHop.cmpFor forId) as bs = .eq) (hs : HashState) :
    as.foldl (fun h hop => hop.hashUpdate forId h) hs =
      bs.foldl (fun h hop => hop.hashUpdate forId h) hs := by
  induction as generalizing bs hs with
  | nil =>
    cases bs with
    | nil => rfl
    | cons b bs => simp [cmpList] at h
  | cons a as ih =>
    cases bs with
    | nil => simp [cmpList] at h
    | cons b bs =>
      rw [cmpList_cons_cons_eq] at h
      rw [foldl_cons, foldl_cons, PlatformIp4RtNextHop.hashUpdate_congr h.1]
      exact ih h.2 _

theorem hashUpdate_congr {a b : ObjectIp4Route} (forId : Bool) (h : a.order forId b = .eq)
    (hs : HashState) : a.hashUpdate forId hs = b.hashUpdate forId hs := by
  obtain ⟨hroute, hhops⟩ := Ordering.then_eq_eq.mp h
  rw [hashUpdate, hashUpdate, PlatformIp4Route.hashUpdate_congr _ hroute hs]
  exact foldl_hashUpdate_congr hhops _

end ObjectIp4Route

/-! ## Refinement -/

theorem inAddrT_injective : Function.Injective inAddrT := by
  intro a b h
  have hbits (i : ℕ) := congrArg (fun c => BitVec.getLsbD c i) (BitVec.eq_of_toNat_eq h)
  simp only [BitVec.getLsbD_append, BitVec.getLsbD_extractLsb'] at hbits
  ext i hi
  -- The bytes are in the other order, and the bits of each byte are not.
  have hbit := hbits (i % 8 + 8 * (3 - i / 8))
  have hq : i / 8 ≤ 3 := by omega
  have hr : i % 8 < 8 := by omega
  have hsum := Nat.div_add_mod i 8
  generalize i / 8 = q at *
  generalize i % 8 = r at *
  subst hsum
  grind

theorem IpConfigSource.toNat_injective : Function.Injective IpConfigSource.toNat := by
  intro a b h
  cases a <;> cases b <;> simp only [toNat] at h <;>
    first | rfl | omega | exact congrArg rtprot (BitVec.eq_of_toNat_eq (by omega))

namespace PlatformIp4Route

variable {a b : PlatformIp4Route}

theorem eq_of_cmp (h : a.cmp b = .eq) : a = b := by
  obtain ⟨⟨⟩⟩ := a
  obtain ⟨⟨⟩⟩ := b
  simp only [cmp, cmpSeq_eq_eq, forall_mem_cons, LawfulEqOrd.compare_eq_iff_eq,
    inAddrT_injective.eq_iff, IpConfigSource.toNat_injective.eq_iff] at h
  simp only [h]

theorem cmpBy_id_of_semantically (h : a.cmpBy .semantically b = .eq) : a.cmpBy .id b = .eq := by
  simp only [cmpBy, semanticallySteps, PlatformIpRoute.metricsSteps, weakIdSteps, ecmpIdSteps,
    idSteps, cmpSeq_eq_eq, forall_mem_append, forall_mem_cons,
    LawfulEqOrd.compare_eq_iff_eq] at h ⊢
  obtain ⟨⟨htype, htableAny, htable, hifindex, hprefix, hplen, hmetricAny, hmetric, hgateway,
    hnexthops, hweight, hsource, hscope, hmss, hprefSrc, hflags, htos, -⟩, hquickack, hlockWindow,
    hlockCwnd, hlockInitcwnd, hlockInitrwnd, hlockMtu, hlockMss, hwindow, hcwnd, hinitcwnd,
    hinitrwnd, hmtu, hrtoMin, -⟩ := h
  have hmask : rtnhFOnlink = (rtmFCloned ||| rtnhFOnlink) &&& rtnhFOnlink := by decide
  have honlink : a.rRtmFlags &&& rtnhFOnlink = b.rRtmFlags &&& rtnhFOnlink := by
    rw [hmask, ← BitVec.and_assoc, ← BitVec.and_assoc, hflags]
  exact ⟨⟨⟨htableAny, htable, hprefix, hplen, hmetricAny, hmetric, htos, forall_mem_nil _⟩,
    htype, hsource, hscope, hmss, hprefSrc, hwindow, hcwnd, hinitcwnd, hinitrwnd, hmtu, hrtoMin,
    honlink, hquickack, hlockWindow, hlockCwnd, hlockInitcwnd, hlockInitrwnd, hlockMtu, hlockMss,
    forall_mem_nil _⟩, hifindex, hgateway, hnexthops, hweight, forall_mem_nil _⟩

theorem cmpBy_weakId_of_id (h : a.cmpBy .id b = .eq) : a.cmpBy .weakId b = .eq := by
  rw [cmpBy, cmpSeq_append, cmpSeq_append, Ordering.then_eq_eq, Ordering.then_eq_eq] at h
  exact h.1.1

end PlatformIp4Route

namespace PlatformIp6Route

variable {a b : PlatformIp6Route}

theorem eq_of_cmp (h : a.cmp b = .eq) : a = b := by
  obtain ⟨⟨⟩⟩ := a
  obtain ⟨⟨⟩⟩ := b
  simp only [cmp, cmpSeq_eq_eq, forall_mem_cons, LawfulEqOrd.compare_eq_iff_eq,
    IpConfigSource.toNat_injective.eq_iff] at h
  simp only [h]

theorem cmpBy_id_of_semantically (h : a.cmpBy .semantically b = .eq) : a.cmpBy .id b = .eq := by
  simp only [cmpBy, semanticallySteps, weakIdSteps, idSteps, cmpSeq_eq_eq, forall_mem_append,
    forall_mem_cons, LawfulEqOrd.compare_eq_iff_eq] at h ⊢
  obtain ⟨⟨⟨htype, htableAny, htable, hifindex, hprefix, hplen, hmetricAny, hmetric, hgateway,
    -, hsrc, hsrcPlen, -⟩, -⟩, -⟩ := h
  exact ⟨⟨htableAny, htable, hprefix, hplen, hmetricAny, hmetric, hsrc, hsrcPlen,
    forall_mem_nil _⟩,
    hifindex, htype, hgateway, forall_mem_nil _⟩

theorem cmpBy_weakId_of_id (h : a.cmpBy .id b = .eq) : a.cmpBy .weakId b = .eq := by
  rw [cmpBy, cmpSeq_append, Ordering.then_eq_eq] at h
  exact h.1

end PlatformIp6Route

namespace ObjectIp4Route

variable {a b : ObjectIp4Route}

theorem eq_of_cmpFor_false (x y : PlatformIp4RtNextHop) (h : x.cmpFor false y = .eq) : x = y := by
  obtain ⟨i, g, w⟩ := x
  obtain ⟨j, k, v⟩ := y
  simp only [PlatformIp4RtNextHop.cmpFor, Bool.false_eq_true, if_false, cmpSeq_eq_eq,
    forall_mem_cons, LawfulEqOrd.compare_eq_iff_eq, inAddrT_injective.eq_iff] at h
  simp only [h]

theorem cmpList_true_of_false
    (h : cmpList (PlatformIp4RtNextHop.cmpFor false) a.extraNexthops b.extraNexthops = .eq) :
    cmpList (PlatformIp4RtNextHop.cmpFor true) a.extraNexthops b.extraNexthops = .eq := by
  have hrefl := PlatformIp4RtNextHop.transCmp_cmpFor true
  rw [eq_of_cmpList eq_of_cmpFor_false h]
  exact cmpList_self (fun _ => ReflCmp.compare_self) _

end ObjectIp4Route

/-! ## Identity -/

namespace ObjectIp4Route

variable {a b : ObjectIp4Route}

theorem order_false (a b : ObjectIp4Route) : a.order false b = a.cmp b := by
  apply then_congr
  intro h
  have hlength : a.extraNexthops.length = b.extraNexthops.length := by
    rw [a.length_extraNexthops, b.length_extraNexthops]
    exact PlatformIp4Route.pred_nNexthops_of_cmpBy false h
  rw [cmpList, hlength, compare_self, Ordering.eq_then]
  rfl

theorem eq_of_cmp (h : a.cmp b = .eq) : a = b := by
  rw [← order_false, order, Ordering.then_eq_eq] at h
  obtain ⟨hroute, hhops⟩ := h
  have hpublic := PlatformIp4Route.eq_of_cmp hroute
  have hextra := eq_of_cmpList eq_of_cmpFor_false hhops
  cases a
  cases b
  simp only at hpublic hextra
  simp only [hpublic, hextra]

theorem transCmp_cmp : TransCmp cmp := by
  have heq : cmp = order false := by
    funext a b
    exact (order_false a b).symm
  rw [heq]
  exact transCmp_order false

end ObjectIp4Route

/-! ## The comparison and the hash of a type -/

/-- The comparison is a total preorder, and objects that it does not tell apart have the same
hash. -/
structure ConsistentCmp {α σ : Type} (cmp : α → α → Ordering) (hash : α → HashState → σ) :
    Prop where
  refl : ∀ a, cmp a a = .eq
  swap : ∀ a b, cmp a b = (cmp b a).swap
  trans : ∀ a b c, (cmp a b).isLE → (cmp b c).isLE → (cmp a c).isLE
  hash_eq : ∀ a b, cmp a b = .eq → ∀ h, hash a h = hash b h

theorem consistentCmp_of_transCmp {α σ : Type} {cmp : α → α → Ordering}
    {hash : α → HashState → σ} (hcmp : TransCmp cmp)
    (hhash : ∀ a b, cmp a b = .eq → ∀ h, hash a h = hash b h) : ConsistentCmp cmp hash where
  refl _ := ReflCmp.compare_self
  swap _ _ := hcmp.eq_swap
  trans _ _ _ := hcmp.isLE_trans
  hash_eq := hhash

/-- From all fields to the weak identity, each comparison relaxes the one before. -/
structure CmpRefines {α : Type} (cmpBy : IpRouteCmpType → α → α → Ordering) : Prop where
  semantically : ∀ a b, cmpBy .full a b = .eq → cmpBy .semantically a b = .eq
  id : ∀ a b, cmpBy .semantically a b = .eq → cmpBy .id a b = .eq
  weakId : ∀ a b, cmpBy .id a b = .eq → cmpBy .weakId a b = .eq

namespace PlatformIp4Route

theorem cmpRefines : CmpRefines cmpBy where
  semantically a b h := by
    have hrefl := transCmp_cmpBy .semantically
    rw [eq_of_cmp h]
    exact ReflCmp.compare_self
  id _ _ := cmpBy_id_of_semantically
  weakId _ _ := cmpBy_weakId_of_id

end PlatformIp4Route

namespace PlatformIp6Route

theorem cmpRefines : CmpRefines cmpBy where
  semantically a b h := by
    have hrefl := transCmp_cmpBy .semantically
    rw [eq_of_cmp h]
    exact ReflCmp.compare_self
  id _ _ := cmpBy_id_of_semantically
  weakId _ _ := cmpBy_weakId_of_id

end PlatformIp6Route

/-- What the comparisons of the routes promise, for the public parts and for the objects that
have the further next hops of IPv4 routes. -/
structure RouteCmpConsistent : Prop where
  ip4 : ∀ cmpType, ConsistentCmp (PlatformIp4Route.cmpBy cmpType) fun r => r.hashUpdate cmpType
  ip6 : ∀ cmpType, cmpType ≠ .ecmpId →
    ConsistentCmp (PlatformIp6Route.cmpBy cmpType) fun r => r.hashUpdate cmpType
  /-- The object comparison never reads beyond the next hops of an object. -/
  object_total : ∀ forId a b, ObjectIp4Route.cmpFor forId a b = some (a.order forId b)
  object : ∀ forId, ConsistentCmp (ObjectIp4Route.order forId) fun r => r.hashUpdate forId
  ip4_refines : CmpRefines PlatformIp4Route.cmpBy
  ip6_refines : CmpRefines PlatformIp6Route.cmpBy
  object_semantically : ∀ a b : ObjectIp4Route, a.order false b = .eq →
    a.cmpBy .semantically b.toPlatformIp4Route = .eq
  /-- The semantic comparison is only there for the public part. -/
  object_id : ∀ a b : ObjectIp4Route, a.cmpBy .semantically b.toPlatformIp4Route = .eq →
    (a.order true b = .eq ↔
      cmpList (PlatformIp4RtNextHop.cmpFor true) a.extraNexthops b.extraNexthops = .eq)
  object_full : ∀ a b : ObjectIp4Route, a.order false b = .eq → a.order true b = .eq
  object_weakId : ∀ a b : ObjectIp4Route, a.order true b = .eq →
    a.cmpBy .weakId b.toPlatformIp4Route = .eq

theorem route_cmp_consistent : RouteCmpConsistent where
  ip4 cmpType := consistentCmp_of_transCmp (PlatformIp4Route.transCmp_cmpBy cmpType)
    fun _ _ => PlatformIp4Route.hashUpdate_congr cmpType
  ip6 cmpType hecmp := consistentCmp_of_transCmp (PlatformIp6Route.transCmp_cmpBy cmpType)
    fun _ _ => PlatformIp6Route.hashUpdate_congr cmpType hecmp
  object_total := ObjectIp4Route.cmpFor_eq
  object forId := consistentCmp_of_transCmp (ObjectIp4Route.transCmp_order forId)
    fun _ _ => ObjectIp4Route.hashUpdate_congr forId
  ip4_refines := PlatformIp4Route.cmpRefines
  ip6_refines := PlatformIp6Route.cmpRefines
  object_semantically a b h :=
    PlatformIp4Route.cmpRefines.semantically _ _ (Ordering.then_eq_eq.mp h).1
  object_id a b h := by
    rw [ObjectIp4Route.order, Ordering.then_eq_eq]
    exact and_iff_right (PlatformIp4Route.cmpBy_id_of_semantically h)
  object_full a b h := by
    obtain ⟨hroute, hhops⟩ := Ordering.then_eq_eq.mp h
    have hsem := PlatformIp4Route.cmpRefines.semantically _ _ hroute
    exact Ordering.then_eq_eq.mpr
      ⟨PlatformIp4Route.cmpBy_id_of_semantically hsem, ObjectIp4Route.cmpList_true_of_false hhops⟩
  object_weakId a b h := PlatformIp4Route.cmpBy_weakId_of_id (Ordering.then_eq_eq.mp h).1

end NetworkManager.Platform
