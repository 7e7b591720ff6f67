import NetworkManager.Lib.Compare
import NetworkManager.Platform.Ip4AddressSync

/-!
# Addresses and routes as platform objects

The four classes of `NMPObject` that an IP configuration tracks, with the comparison of
all their fields and with their identity. The identity of an object is the tuple of
values that the comparison with the ID flag looks at. Fields that neither of them reads
are left out, such as `r_force_commit`.
-/

namespace NetworkManager.Platform

open Lib

/-! ## The source of a configuration -/

/-- `NMIPConfigSource`, where `rtprot` is the range of native `rtm_protocol` values. -/
inductive IpConfigSource
  | unknown
  | rtprot (protocol : BitVec 8)
  | kernel
  | shared
  | ip4ll
  | ip6ll
  | ppp
  | wwan
  | vpn
  | dhcp
  | ndisc
  | user
  deriving DecidableEq, Inhabited

namespace IpConfigSource

def toNat : IpConfigSource → ℕ
  | unknown => 0
  | rtprot p => 1 + p.toNat
  | kernel => 257
  | shared => 258
  | ip4ll => 259
  | ip6ll => 260
  | ppp => 261
  | wwan => 262
  | vpn => 263
  | dhcp => 264
  | ndisc => 265
  | user => 266

def coerceToRtprot : IpConfigSource → BitVec 8
  | unknown => 0
  | rtprot p => p
  | kernel => 2
  | ip6ll => 2
  | dhcp => 16
  | ndisc => 9
  | _ => 4

def roundTripRtprot (s : IpConfigSource) : IpConfigSource := .rtprot s.coerceToRtprot

end IpConfigSource

/-! ## Numbers in network order, tables, and types -/

/-- The integer that a little-endian host reads in an `in_addr_t`. -/
def inAddrT (a : BitVec 32) : ℕ :=
  (a.extractLsb' 0 8 ++ a.extractLsb' 8 8 ++ a.extractLsb' 16 8 ++ a.extractLsb' 24 8).toNat

def ip6AddrClearHostAddress (addr : BitVec 128) (plen : ℕ) : BitVec 128 :=
  addr &&& ~~~((BitVec.allOnes 128) >>> plen)

def rtTableMain : ℕ := 254

def routeTableCoerce (table : ℕ) : ℕ :=
  if table = 0 then 254 else if table = 254 then 0 else table

def routeTableUncoerce (tableCoerced : ℕ) (normalize : Bool) : ℕ :=
  if tableCoerced = 0 then 254
  else if tableCoerced = 254 then (if normalize then 254 else 0)
  else tableCoerced

def routeTableIsMain (table : ℕ) : Bool := table = 0 ∨ table = 254

def uint8Inv (n : BitVec 8) : BitVec 8 := ~~~n

/-- `nm_platform_route_type_coerce()` and `nm_platform_route_type_uncoerce()`, which swap
`RTN_UNSPEC` and `RTN_UNICAST`. -/
def routeTypeCoerce (type : ℕ) : ℕ := if type = 0 then 1 else if type = 1 then 0 else type

def routeTypeIsNodev (type : ℕ) : Bool := type = 6 ∨ type = 7 ∨ type = 8 ∨ type = 9

def rtnUnicast : ℕ := 1

def rtnLocal : ℕ := 2

/-! ## The objects -/

/-- The common part of `NMPlatformIP4Address` and `NMPlatformIP6Address`. -/
structure PlatformIpAddress where
  ifindex : ℤ
  addrSource : IpConfigSource
  lifetime : AddressLifetime
  nIfaFlags : BitVec 32
  useIp4BroadcastAddress : Bool
  aForceCommit : Bool
  plen : ℕ
  deriving DecidableEq, Inhabited

structure PlatformIp4Address extends PlatformIpAddress where
  address : BitVec 32
  peerAddress : BitVec 32
  broadcastAddress : BitVec 32
  label : String
  aAcdNotReady : Bool
  deriving DecidableEq, Inhabited

structure PlatformIp6Address extends PlatformIpAddress where
  address : BitVec 128
  peerAddress : BitVec 128
  deriving DecidableEq, Inhabited

/-- The common part of `NMPlatformIP4Route` and `NMPlatformIP6Route`. -/
structure PlatformIpRoute where
  ifindex : ℤ
  rRtmFlags : BitVec 32
  mss : ℕ
  window : ℕ
  cwnd : ℕ
  initcwnd : ℕ
  initrwnd : ℕ
  rtoMin : ℕ
  mtu : ℕ
  metric : ℕ
  tableCoerced : ℕ
  rtSource : IpConfigSource
  lockWindow : Bool
  lockCwnd : Bool
  lockInitcwnd : Bool
  lockInitrwnd : Bool
  lockMtu : Bool
  lockMss : Bool
  quickack : Bool
  metricAny : Bool
  tableAny : Bool
  typeCoerced : ℕ
  plen : ℕ
  deriving DecidableEq, Inhabited

structure PlatformIp4Route extends PlatformIpRoute where
  network : BitVec 32
  nNexthops : ℕ
  gateway : BitVec 32
  prefSrc : BitVec 32
  weight : ℕ
  tos : ℕ
  scopeInv : BitVec 8
  deriving DecidableEq, Inhabited

structure PlatformIp6Route extends PlatformIpRoute where
  network : BitVec 128
  gateway : BitVec 128
  prefSrc : BitVec 128
  src : BitVec 128
  srcPlen : ℕ
  rtPref : ℕ
  deriving DecidableEq, Inhabited

structure PlatformIp4RtNextHop where
  ifindex : ℤ
  gateway : BitVec 32
  weight : ℕ
  deriving DecidableEq

/-- `NMPObjectIP4Route`: the first next hop of the route is in its public part, and
there are as many extra next hops as it says. -/
structure ObjectIp4Route extends PlatformIp4Route where
  extraNexthops : List PlatformIp4RtNextHop
  length_extraNexthops : extraNexthops.length = nNexthops - 1
  deriving DecidableEq

theorem length_noExtraNexthops : ([] : List PlatformIp4RtNextHop).length = 0 := rfl

/-! ## Comparison of all fields -/

namespace PlatformIp4Address

/-- `nm_platform_ip4_address_cmp()` with `NM_PLATFORM_IP_ADDRESS_CMP_TYPE_FULL` -/
def cmp (a b : PlatformIp4Address) : Ordering :=
  cmpSeq
    [compare a.ifindex b.ifindex,
      compare a.plen b.plen,
      compare (inAddrT a.address) (inAddrT b.address),
      compare (inAddrT a.peerAddress) (inAddrT b.peerAddress),
      compare a.label b.label,
      compare a.lifetime.timestamp b.lifetime.timestamp,
      compare a.lifetime.lifetime b.lifetime.lifetime,
      compare a.lifetime.preferred b.lifetime.preferred,
      compare a.nIfaFlags b.nIfaFlags,
      compare a.addrSource.toNat b.addrSource.toNat,
      compare a.useIp4BroadcastAddress b.useIp4BroadcastAddress,
      if a.useIp4BroadcastAddress then
        compare (inAddrT a.broadcastAddress) (inAddrT b.broadcastAddress)
      else .eq,
      compare a.aAcdNotReady b.aAcdNotReady,
      compare a.aForceCommit b.aForceCommit]

end PlatformIp4Address

namespace PlatformIp6Address

def getPeer (a : PlatformIp6Address) : BitVec 128 :=
  if a.peerAddress = 0 ∨ a.peerAddress = a.address then a.address else a.peerAddress

/-- `nm_platform_ip6_address_cmp()` with `NM_PLATFORM_IP_ADDRESS_CMP_TYPE_FULL` -/
def cmp (a b : PlatformIp6Address) : Ordering :=
  cmpSeq
    [compare a.ifindex b.ifindex,
      compare a.address b.address,
      compare a.plen b.plen,
      compare a.getPeer b.getPeer,
      compare a.lifetime.timestamp b.lifetime.timestamp,
      compare a.lifetime.lifetime b.lifetime.lifetime,
      compare a.lifetime.preferred b.lifetime.preferred,
      compare a.nIfaFlags b.nIfaFlags,
      compare a.addrSource.toNat b.addrSource.toNat,
      compare a.aForceCommit b.aForceCommit]

end PlatformIp6Address

/-- `nm_platform_ip4_rt_nexthop_cmp()` without `for_id` -/
def PlatformIp4RtNextHop.cmp (a b : PlatformIp4RtNextHop) : Ordering :=
  cmpSeq
    [compare a.ifindex b.ifindex,
      compare (inAddrT a.gateway) (inAddrT b.gateway),
      compare a.weight b.weight]

/-- `nm_platform_ip4_route_cmp()` with `NM_PLATFORM_IP_ROUTE_CMP_TYPE_FULL` -/
def PlatformIp4Route.cmp (a b : PlatformIp4Route) : Ordering :=
  cmpSeq
    [compare a.typeCoerced b.typeCoerced,
      compare a.tableAny b.tableAny,
      compare a.tableCoerced b.tableCoerced,
      compare a.ifindex b.ifindex,
      compare (inAddrT a.network) (inAddrT b.network),
      compare a.plen b.plen,
      compare a.metricAny b.metricAny,
      compare a.metric b.metric,
      compare (inAddrT a.gateway) (inAddrT b.gateway),
      compare a.nNexthops b.nNexthops,
      compare a.weight b.weight,
      compare a.rtSource.toNat b.rtSource.toNat,
      compare a.scopeInv b.scopeInv,
      compare a.mss b.mss,
      compare (inAddrT a.prefSrc) (inAddrT b.prefSrc),
      compare a.rRtmFlags b.rRtmFlags,
      compare a.tos b.tos,
      compare a.quickack b.quickack,
      compare a.lockWindow b.lockWindow,
      compare a.lockCwnd b.lockCwnd,
      compare a.lockInitcwnd b.lockInitcwnd,
      compare a.lockInitrwnd b.lockInitrwnd,
      compare a.lockMtu b.lockMtu,
      compare a.lockMss b.lockMss,
      compare a.window b.window,
      compare a.cwnd b.cwnd,
      compare a.initcwnd b.initcwnd,
      compare a.initrwnd b.initrwnd,
      compare a.mtu b.mtu,
      compare a.rtoMin b.rtoMin]

/-- `_vt_cmd_obj_cmp_ip4_route()` without `for_id` -/
def ObjectIp4Route.cmp (a b : ObjectIp4Route) : Ordering :=
  (a.toPlatformIp4Route.cmp b.toPlatformIp4Route).then
    (cmpSeq (a.extraNexthops.zipWith PlatformIp4RtNextHop.cmp b.extraNexthops))

/-- `nm_platform_ip6_route_cmp()` with `NM_PLATFORM_IP_ROUTE_CMP_TYPE_FULL` -/
def PlatformIp6Route.cmp (a b : PlatformIp6Route) : Ordering :=
  cmpSeq
    [compare a.typeCoerced b.typeCoerced,
      compare a.tableAny b.tableAny,
      compare a.tableCoerced b.tableCoerced,
      compare a.ifindex b.ifindex,
      compare a.network b.network,
      compare a.plen b.plen,
      compare a.metricAny b.metricAny,
      compare a.metric b.metric,
      compare a.gateway b.gateway,
      compare a.prefSrc b.prefSrc,
      compare a.src b.src,
      compare a.srcPlen b.srcPlen,
      compare a.rtSource.toNat b.rtSource.toNat,
      compare a.mss b.mss,
      compare a.rRtmFlags b.rRtmFlags,
      compare a.quickack b.quickack,
      compare a.lockWindow b.lockWindow,
      compare a.lockCwnd b.lockCwnd,
      compare a.lockInitcwnd b.lockInitcwnd,
      compare a.lockInitrwnd b.lockInitrwnd,
      compare a.lockMtu b.lockMtu,
      compare a.lockMss b.lockMss,
      compare a.window b.window,
      compare a.cwnd b.cwnd,
      compare a.initcwnd b.initcwnd,
      compare a.initrwnd b.initrwnd,
      compare a.mtu b.mtu,
      compare a.rtoMin b.rtoMin,
      compare a.rtPref b.rtPref]

/-! ## Identity -/

/-- `NM_PLATFORM_IP_ADDRESS_CMP_TYPE_ID` for IPv4 -/
structure PlatformIp4AddressId where
  ifindex : ℤ
  plen : ℕ
  address : BitVec 32
  peerNet : BitVec 32
  deriving DecidableEq

/-- `NM_PLATFORM_IP_ADDRESS_CMP_TYPE_ID` for IPv6 -/
structure PlatformIp6AddressId where
  ifindex : ℤ
  address : BitVec 128
  deriving DecidableEq

def PlatformIp4Address.id (a : PlatformIp4Address) : PlatformIp4AddressId :=
  ⟨a.ifindex, a.plen, a.address, ip4AddrClearHostAddress a.peerAddress a.plen⟩

def PlatformIp6Address.id (a : PlatformIp6Address) : PlatformIp6AddressId :=
  ⟨a.ifindex, a.address⟩

def PlatformIpRoute.getEffectiveTable (r : PlatformIpRoute) : ℕ :=
  if r.tableAny then rtTableMain else routeTableUncoerce r.tableCoerced true

namespace PlatformIp4Route

def scopeInvGetNormalized (r : PlatformIp4Route) : BitVec 8 :=
  if r.scopeInv = 0 then
    if r.typeCoerced = routeTypeCoerce rtnLocal then uint8Inv 254
    else uint8Inv (if r.gateway = 0 then 253 else 0)
  else r.scopeInv

def getNNexthops (r : PlatformIp4Route) : ℕ :=
  if r.nNexthops ≥ 1 then r.nNexthops else if r.ifindex > 0 then 1 else 0

/-- `_ip4_route_weight_normalize()` without `normalize_ecmp_weight` -/
def weightNormalize (nNexthops weight : ℕ) : ℕ :=
  if nNexthops > 1 then max weight 1 else if nNexthops = 0 then 0 else weight

end PlatformIp4Route

/-- `NM_PLATFORM_IP_ROUTE_CMP_TYPE_ID` for IPv4, with the further next hops. -/
structure ObjectIp4RouteId where
  tableAny : Bool
  effectiveTable : ℕ
  network : BitVec 32
  plen : ℕ
  metricAny : Bool
  metric : ℕ
  tos : ℕ
  typeCoerced : ℕ
  rtSource : IpConfigSource
  scopeInv : BitVec 8
  mss : ℕ
  prefSrc : BitVec 32
  window : ℕ
  cwnd : ℕ
  initcwnd : ℕ
  initrwnd : ℕ
  mtu : ℕ
  rtoMin : ℕ
  /-- `r_rtm_flags & RTNH_F_ONLINK` -/
  onlink : BitVec 32
  quickack : Bool
  lockWindow : Bool
  lockCwnd : Bool
  lockInitcwnd : Bool
  lockInitrwnd : Bool
  lockMtu : Bool
  lockMss : Bool
  ifindex : ℤ
  gateway : BitVec 32
  nNexthops : ℕ
  weight : ℕ
  extraNexthops : List (ℤ × BitVec 32 × ℕ)
  deriving DecidableEq

def rtnhFOnlink : BitVec 32 := 4

def ObjectIp4Route.id (r : ObjectIp4Route) : ObjectIp4RouteId where
  tableAny := r.tableAny
  effectiveTable := r.getEffectiveTable
  network := ip4AddrClearHostAddress r.network r.plen
  plen := r.plen
  metricAny := r.metricAny
  metric := r.metric
  tos := r.tos
  typeCoerced := r.typeCoerced
  rtSource := r.rtSource.roundTripRtprot
  scopeInv := r.scopeInvGetNormalized
  mss := r.mss
  prefSrc := r.prefSrc
  window := r.window
  cwnd := r.cwnd
  initcwnd := r.initcwnd
  initrwnd := r.initrwnd
  mtu := r.mtu
  rtoMin := r.rtoMin
  onlink := r.rRtmFlags &&& rtnhFOnlink
  quickack := r.quickack
  lockWindow := r.lockWindow
  lockCwnd := r.lockCwnd
  lockInitcwnd := r.lockInitcwnd
  lockInitrwnd := r.lockInitrwnd
  lockMtu := r.lockMtu
  lockMss := r.lockMss
  ifindex := r.ifindex
  gateway := r.gateway
  nNexthops := r.getNNexthops
  weight := PlatformIp4Route.weightNormalize r.getNNexthops r.weight
  extraNexthops := r.extraNexthops.map fun h => (h.ifindex, h.gateway, max h.weight 1)

/-- `NM_PLATFORM_IP_ROUTE_CMP_TYPE_ID` for IPv6 -/
structure PlatformIp6RouteId where
  tableAny : Bool
  effectiveTable : ℕ
  network : BitVec 128
  plen : ℕ
  metricAny : Bool
  metric : ℕ
  src : BitVec 128
  srcPlen : ℕ
  ifindex : ℤ
  typeCoerced : ℕ
  gateway : BitVec 128
  deriving DecidableEq

def PlatformIp6Route.id (r : PlatformIp6Route) : PlatformIp6RouteId where
  tableAny := r.tableAny
  effectiveTable := r.getEffectiveTable
  network := ip6AddrClearHostAddress r.network r.plen
  plen := r.plen
  metricAny := r.metricAny
  metric := r.metric
  src := ip6AddrClearHostAddress r.src r.srcPlen
  srcPlen := r.srcPlen
  ifindex := r.ifindex
  typeCoerced := r.typeCoerced
  gateway := r.gateway

end NetworkManager.Platform
