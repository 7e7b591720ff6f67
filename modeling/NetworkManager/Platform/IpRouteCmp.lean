import NetworkManager.Platform.RouteSync

/-!
# Route comparison by type

Routes are compared, and hashed, as a weak identity, as an identity, semantically, or with
all their fields. The public part of an IPv4 route has its first next hop, and the object
around it has the further ones.
-/

namespace NetworkManager.Platform

open Lib

inductive IpRouteCmpType
  | weakId
  | ecmpId
  | id
  | semantically
  | full
  deriving DecidableEq

/-! ## Prefixes -/

def ip4AddrSamePrefixCmp (a b : BitVec 32) (plen : ℕ) : Ordering :=
  compare (ip4AddrClearHostAddress a plen) (ip4AddrClearHostAddress b plen)

/-- `nm_ip6_addr_same_prefix_cmp()`: first the whole bytes, then the bits of the next one. -/
def ip6AddrSamePrefixCmp (a b : BitVec 128) (plen : ℕ) : Ordering :=
  if plen ≥ 128 then compare a b
  else
    let nbytes := plen / 8
    let byte (addr : BitVec 128) : BitVec 8 := (addr >>> (120 - 8 * nbytes)).setWidth 8
    let m := ~~~((1#8 <<< (8 - plen % 8)) - 1#8)
    cmpSeq
      [compare (a >>> (128 - 8 * nbytes)) (b >>> (128 - 8 * nbytes)),
        if plen % 8 ≠ 0 then compare (byte a &&& m) (byte b &&& m) else .eq]

/-- `nm_ip6_addr_clear_host_address()`, which returns a null pointer for a prefix that is too
long. -/
def ip6AddrClearHostAddressPtr (addr : BitVec 128) (plen : ℕ) : Option (BitVec 128) :=
  if plen ≤ 128 then some (ip6AddrClearHostAddress addr plen) else none

/-! ## Comparison -/

/-- The metrics and locks, as the semantic comparison goes through them. -/
def PlatformIpRoute.metricsSteps (a b : PlatformIpRoute) : List Ordering :=
  [compare a.quickack b.quickack,
    compare a.lockWindow b.lockWindow,
    compare a.lockCwnd b.lockCwnd,
    compare a.lockInitcwnd b.lockInitcwnd,
    compare a.lockInitrwnd b.lockInitrwnd,
    compare a.lockMtu b.lockMtu,
    compare a.lockMss b.lockMss,
    compare a.window b.window,
    compare a.cwnd b.cwnd,
    compare a.initcwnd b.initcwnd,
    compare a.initrwnd b.initrwnd,
    compare a.mtu b.mtu,
    compare a.rtoMin b.rtoMin]

namespace PlatformIp4Route

def weakIdSteps (a b : PlatformIp4Route) : List Ordering :=
  [compare a.tableAny b.tableAny,
    compare a.getEffectiveTable b.getEffectiveTable,
    ip4AddrSamePrefixCmp a.network b.network (min a.plen b.plen),
    compare a.plen b.plen,
    compare a.metricAny b.metricAny,
    compare a.metric b.metric,
    compare a.tos b.tos]

/-- What two routes that can be merged into one ECMP route have in common, on top of the
weak identity. -/
def ecmpIdSteps (a b : PlatformIp4Route) : List Ordering :=
  [compare a.typeCoerced b.typeCoerced,
    compare a.rtSource.roundTripRtprot.toNat b.rtSource.roundTripRtprot.toNat,
    compare a.scopeInvGetNormalized b.scopeInvGetNormalized,
    compare a.mss b.mss,
    compare (inAddrT a.prefSrc) (inAddrT b.prefSrc),
    compare a.window b.window,
    compare a.cwnd b.cwnd,
    compare a.initcwnd b.initcwnd,
    compare a.initrwnd b.initrwnd,
    compare a.mtu b.mtu,
    compare a.rtoMin b.rtoMin,
    compare (a.rRtmFlags &&& rtnhFOnlink) (b.rRtmFlags &&& rtnhFOnlink),
    compare a.quickack b.quickack,
    compare a.lockWindow b.lockWindow,
    compare a.lockCwnd b.lockCwnd,
    compare a.lockInitcwnd b.lockInitcwnd,
    compare a.lockInitrwnd b.lockInitrwnd,
    compare a.lockMtu b.lockMtu,
    compare a.lockMss b.lockMss]

/-- The first next hop. The weights are both normalized for the number of next hops of `a`. -/
def idSteps (a b : PlatformIp4Route) : List Ordering :=
  let nNexthops := a.getNNexthops
  [compare a.ifindex b.ifindex,
    compare (inAddrT a.gateway) (inAddrT b.gateway),
    compare nNexthops b.getNNexthops,
    compare (weightNormalize nNexthops a.weight) (weightNormalize nNexthops b.weight)]

def semanticallySteps (a b : PlatformIp4Route) : List Ordering :=
  let nNexthops := a.getNNexthops
  [compare a.typeCoerced b.typeCoerced,
    compare a.tableAny b.tableAny,
    compare a.getEffectiveTable b.getEffectiveTable,
    compare a.ifindex b.ifindex,
    ip4AddrSamePrefixCmp a.network b.network (min a.plen b.plen),
    compare a.plen b.plen,
    compare a.metricAny b.metricAny,
    compare a.metric b.metric,
    compare (inAddrT a.gateway) (inAddrT b.gateway),
    compare nNexthops b.getNNexthops,
    compare (weightNormalize nNexthops a.weight) (weightNormalize nNexthops b.weight),
    compare a.rtSource.roundTripRtprot.toNat b.rtSource.roundTripRtprot.toNat,
    compare a.scopeInvGetNormalized b.scopeInvGetNormalized,
    compare a.mss b.mss,
    compare (inAddrT a.prefSrc) (inAddrT b.prefSrc),
    compare (a.rRtmFlags &&& (rtmFCloned ||| rtnhFOnlink))
      (b.rRtmFlags &&& (rtmFCloned ||| rtnhFOnlink)),
    compare a.tos b.tos]

/-- `nm_platform_ip4_route_cmp()` -/
def cmpBy (cmpType : IpRouteCmpType) (a b : PlatformIp4Route) : Ordering :=
  match cmpType with
  | .weakId => cmpSeq (weakIdSteps a b)
  | .ecmpId => cmpSeq (weakIdSteps a b ++ ecmpIdSteps a b)
  | .id => cmpSeq (weakIdSteps a b ++ ecmpIdSteps a b ++ idSteps a b)
  | .semantically => cmpSeq (semanticallySteps a b ++ a.metricsSteps b.toPlatformIpRoute)
  | .full => a.cmp b

end PlatformIp4Route

namespace PlatformIp6Route

def weakIdSteps (a b : PlatformIp6Route) : List Ordering :=
  [compare a.tableAny b.tableAny,
    compare a.getEffectiveTable b.getEffectiveTable,
    ip6AddrSamePrefixCmp a.network b.network (min a.plen b.plen),
    compare a.plen b.plen,
    compare a.metricAny b.metricAny,
    compare a.metric b.metric,
    ip6AddrSamePrefixCmp a.src b.src (min a.srcPlen b.srcPlen),
    compare a.srcPlen b.srcPlen]

def idSteps (a b : PlatformIp6Route) : List Ordering :=
  [compare a.ifindex b.ifindex,
    compare a.typeCoerced b.typeCoerced,
    compare a.gateway b.gateway]

def semanticallySteps (a b : PlatformIp6Route) : List Ordering :=
  [compare a.typeCoerced b.typeCoerced,
    compare a.tableAny b.tableAny,
    compare a.getEffectiveTable b.getEffectiveTable,
    compare a.ifindex b.ifindex,
    ip6AddrSamePrefixCmp a.network b.network (min a.plen b.plen),
    compare a.plen b.plen,
    compare a.metricAny b.metricAny,
    compare a.metric b.metric,
    compare a.gateway b.gateway,
    compare a.prefSrc b.prefSrc,
    ip6AddrSamePrefixCmp a.src b.src (min a.srcPlen b.srcPlen),
    compare a.srcPlen b.srcPlen,
    compare a.rtSource.roundTripRtprot.toNat b.rtSource.roundTripRtprot.toNat,
    compare a.mss b.mss,
    compare (a.rRtmFlags &&& rtmFCloned) (b.rRtmFlags &&& rtmFCloned)]

/-- `nm_platform_ip6_route_cmp()`, which is not called for the ECMP identity, and takes that
for the weak one. -/
def cmpBy (cmpType : IpRouteCmpType) (a b : PlatformIp6Route) : Ordering :=
  match cmpType with
  | .ecmpId => cmpSeq (weakIdSteps a b)
  | .weakId => cmpSeq (weakIdSteps a b)
  | .id => cmpSeq (weakIdSteps a b ++ idSteps a b)
  | .semantically =>
    cmpSeq (semanticallySteps a b ++ a.metricsSteps b.toPlatformIpRoute ++
      [compare (routePrefNormalize a.rtPref) (routePrefNormalize b.rtPref)])
  | .full => a.cmp b

end PlatformIp6Route

def PlatformIp4RtNextHop.cmpFor (forId : Bool) (a b : PlatformIp4RtNextHop) : Ordering :=
  cmpSeq
    [compare a.ifindex b.ifindex,
      compare (inAddrT a.gateway) (inAddrT b.gateway),
      if forId then compare (max a.weight 1) (max b.weight 1) else compare a.weight b.weight]

namespace ObjectIp4Route

/-- The further next hops. There are as many steps as `a` has of them, and a step that reads
beyond the ones of `b` is `none`. -/
def nexthopSteps (forId : Bool) (a b : ObjectIp4Route) : List (Option Ordering) :=
  (List.range (a.nNexthops - 1)).map fun i => do
    return (← a.extraNexthops[i]?).cmpFor forId (← b.extraNexthops[i]?)

/-- `_vt_cmd_obj_cmp_ip4_route()` -/
def cmpFor (forId : Bool) (a b : ObjectIp4Route) : Option Ordering :=
  cmpSeq? (some (a.cmpBy (if forId then .id else .full) b.toPlatformIp4Route) ::
    nexthopSteps forId a b)

end ObjectIp4Route

/-! ## Hashing -/

/-- `NMHashState`: the values that were fed to it. -/
abbrev HashState := List ℤ

def hashUpdateVals (h : HashState) (vals : List ℤ) : HashState := h ++ vals

def hashCombineBools : List Bool → ℤ
  | [] => 0
  | b :: bs => (if b then 1 else 0) + 2 * hashCombineBools bs

def PlatformIp4RtNextHop.hashUpdate (obj : PlatformIp4RtNextHop) (forId : Bool) (h : HashState) :
    HashState :=
  hashUpdateVals h
    [obj.ifindex, inAddrT obj.gateway, (if forId then max obj.weight 1 else obj.weight : ℕ)]

namespace PlatformIp4Route

def weakIdHash (obj : PlatformIp4Route) (h : HashState) : HashState :=
  hashUpdateVals h
    [obj.getEffectiveTable, inAddrT (ip4AddrClearHostAddress obj.network obj.plen), obj.plen,
      obj.metric, obj.tos, hashCombineBools [obj.metricAny, obj.tableAny]]

def ecmpIdHash (obj : PlatformIp4Route) (h : HashState) : HashState :=
  hashUpdateVals h
    [obj.typeCoerced, obj.rtSource.roundTripRtprot.toNat, obj.scopeInvGetNormalized.toNat,
      obj.mss, inAddrT obj.prefSrc, obj.window, obj.cwnd, obj.initcwnd, obj.initrwnd, obj.mtu,
      obj.rtoMin, (obj.rRtmFlags &&& rtnhFOnlink).toNat,
      hashCombineBools
        [obj.quickack, obj.lockWindow, obj.lockCwnd, obj.lockInitcwnd, obj.lockInitrwnd,
          obj.lockMtu, obj.lockMss]]

def idHash (obj : PlatformIp4Route) (h : HashState) : HashState :=
  hashUpdateVals h
    [obj.ifindex, obj.getNNexthops, inAddrT obj.gateway,
      weightNormalize obj.getNNexthops obj.weight]

def semanticallyHash (obj : PlatformIp4Route) (h : HashState) : HashState :=
  hashUpdateVals h
    [obj.typeCoerced, obj.getEffectiveTable, obj.ifindex,
      inAddrT (ip4AddrClearHostAddress obj.network obj.plen), obj.plen, obj.metric,
      obj.getNNexthops, inAddrT obj.gateway, weightNormalize obj.getNNexthops obj.weight,
      obj.rtSource.roundTripRtprot.toNat, obj.scopeInvGetNormalized.toNat, obj.tos, obj.mss,
      inAddrT obj.prefSrc, obj.window, obj.cwnd, obj.initcwnd, obj.initrwnd, obj.mtu, obj.rtoMin,
      (obj.rRtmFlags &&& (rtmFCloned ||| rtnhFOnlink)).toNat,
      hashCombineBools
        [obj.metricAny, obj.tableAny, obj.quickack, obj.lockWindow, obj.lockCwnd,
          obj.lockInitcwnd, obj.lockInitrwnd, obj.lockMtu, obj.lockMss]]

def fullHash (obj : PlatformIp4Route) (h : HashState) : HashState :=
  hashUpdateVals h
    [obj.typeCoerced, obj.tableCoerced, obj.ifindex, inAddrT obj.network, obj.plen, obj.metric,
      inAddrT obj.gateway, obj.nNexthops, obj.weight, obj.rtSource.toNat, obj.scopeInv.toNat,
      obj.tos, obj.mss, inAddrT obj.prefSrc, obj.window, obj.cwnd, obj.initcwnd, obj.initrwnd,
      obj.mtu, obj.rtoMin, obj.rRtmFlags.toNat,
      hashCombineBools
        [obj.metricAny, obj.tableAny, obj.quickack, obj.lockWindow, obj.lockCwnd,
          obj.lockInitcwnd, obj.lockInitrwnd, obj.lockMtu, obj.lockMss]]

def hashUpdate (obj : PlatformIp4Route) (cmpType : IpRouteCmpType) (h : HashState) : HashState :=
  match cmpType with
  | .weakId => obj.weakIdHash h
  | .ecmpId => obj.ecmpIdHash (obj.weakIdHash h)
  | .id => obj.idHash (obj.ecmpIdHash (obj.weakIdHash h))
  | .semantically => obj.semanticallyHash h
  | .full => obj.fullHash h

end PlatformIp4Route

def ObjectIp4Route.hashUpdate (obj : ObjectIp4Route) (forId : Bool) (h : HashState) : HashState :=
  obj.extraNexthops.foldl (fun h hop => hop.hashUpdate forId h)
    (obj.toPlatformIp4Route.hashUpdate (if forId then .id else .full) h)

namespace PlatformIp6Route

def idHash (obj : PlatformIp6Route) (h : HashState) : Option HashState := do
  let a1 ← ip6AddrClearHostAddressPtr obj.network obj.plen
  let a2 ← ip6AddrClearHostAddressPtr obj.src obj.srcPlen
  return hashUpdateVals h
    [obj.typeCoerced, obj.getEffectiveTable, a1.toNat, obj.plen, obj.metric, a2.toNat, obj.srcPlen,
      hashCombineBools [obj.metricAny, obj.tableAny], obj.ifindex, obj.gateway.toNat]

def semanticallyHash (obj : PlatformIp6Route) (h : HashState) : Option HashState := do
  let a1 ← ip6AddrClearHostAddressPtr obj.network obj.plen
  let a2 ← ip6AddrClearHostAddressPtr obj.src obj.srcPlen
  return hashUpdateVals h
    [obj.typeCoerced, obj.getEffectiveTable, obj.ifindex, a1.toNat, obj.plen, obj.metric,
      obj.gateway.toNat, obj.prefSrc.toNat, a2.toNat, obj.srcPlen,
      obj.rtSource.roundTripRtprot.toNat, obj.mss, (obj.rRtmFlags &&& rtmFCloned).toNat,
      hashCombineBools
        [obj.metricAny, obj.tableAny, obj.quickack, obj.lockWindow, obj.lockCwnd,
          obj.lockInitcwnd, obj.lockInitrwnd, obj.lockMtu, obj.lockMss],
      obj.window, obj.cwnd, obj.initcwnd, obj.initrwnd, obj.mtu, obj.rtoMin,
      routePrefNormalize obj.rtPref]

def fullHash (obj : PlatformIp6Route) (h : HashState) : HashState :=
  hashUpdateVals h
    [obj.typeCoerced, obj.tableCoerced, obj.ifindex, obj.network.toNat, obj.metric,
      obj.gateway.toNat, obj.prefSrc.toNat, obj.src.toNat, obj.srcPlen, obj.rtSource.toNat,
      obj.mss, obj.rRtmFlags.toNat,
      hashCombineBools
        [obj.metricAny, obj.tableAny, obj.quickack, obj.lockWindow, obj.lockCwnd,
          obj.lockInitcwnd, obj.lockInitrwnd, obj.lockMtu, obj.lockMss],
      obj.window, obj.cwnd, obj.initcwnd, obj.initrwnd, obj.mtu, obj.rtoMin, obj.rtPref]

/-- `nm_platform_ip6_route_hash_update()`, which gets stuck at a null pointer for a prefix
that is too long. -/
def hashUpdate (obj : PlatformIp6Route) (cmpType : IpRouteCmpType) (h : HashState) :
    Option HashState :=
  match cmpType with
  | .weakId => do
    let a1 ← ip6AddrClearHostAddressPtr obj.network obj.plen
    let a2 ← ip6AddrClearHostAddressPtr obj.src obj.srcPlen
    return hashUpdateVals h
      [obj.getEffectiveTable, a1.toNat, obj.plen, obj.metric, a2.toNat, obj.srcPlen,
        hashCombineBools [obj.metricAny, obj.tableAny]]
  | .ecmpId => obj.idHash h
  | .id => obj.idHash h
  | .semantically => obj.semanticallyHash h
  | .full => some (obj.fullHash h)

end PlatformIp6Route

end NetworkManager.Platform
