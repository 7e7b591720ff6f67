import NetworkManager.Platform.NmpClass

/-!
# Route sync

`nm_platform_ip_route_sync()` configures a list of routes and then drops the ones that are
to be pruned. Routes are told apart by their identity, and are only left alone if they are
semantically the same as what is wanted. The kernel adds a route as it is normalized, and
refuses one whose identity it already has.
-/

namespace NetworkManager.Platform

open Lib

/-! ## What the sync asks of a route -/

/-- `σ` has the values that `NM_PLATFORM_IP_ROUTE_CMP_TYPE_SEMANTICALLY` compares. -/
class RouteSyncClass (R : Type) (κ σ : outParam Type) extends NmpRouteClass R κ where
  semantics : R → σ
  /-- The route has no gateway. -/
  isDeviceRoute : R → Bool
  /-- `nm_platform_ip_route_normalize()` -/
  normalize : R → R

/-! ## Normalization -/

/-- `nm_add_clamped_u32()` -/
def addClampedMetric (a b : ℕ) : ℕ := if a + b < 2 ^ 32 then a + b else 2 ^ 32 - 1

/-- The part of `nm_platform_ip_route_normalize()` for both families, with the metric that a
route without one gets. -/
def PlatformIpRoute.normalize (metricDefault : ℕ) (r : PlatformIpRoute) : PlatformIpRoute :=
  { r with
    tableCoerced := routeTableCoerce r.getEffectiveTable
    tableAny := false
    rtSource := r.rtSource.roundTripRtprot
    metric := if r.metricAny then addClampedMetric metricDefault r.metric else r.metric
    metricAny := false }

/-- `_route_pref_normalize()`, where low is 3 and high is 1. -/
def routePrefNormalize (pref : ℕ) : ℕ := if pref = 3 ∨ pref = 1 then pref else 0

/-- `_ip4_route_weight_normalize()` with `normalize_ecmp_weight` -/
def ecmpWeightNormalize (nNexthops weight : ℕ) : ℕ := if nNexthops > 1 then max weight 1 else 0

def rtmFCloned : BitVec 32 := 0x200

/-- The metrics and locks that both families compare. -/
structure RouteMetrics where
  mss : ℕ
  quickack : Bool
  lockWindow : Bool
  lockCwnd : Bool
  lockInitcwnd : Bool
  lockInitrwnd : Bool
  lockMtu : Bool
  lockMss : Bool
  window : ℕ
  cwnd : ℕ
  initcwnd : ℕ
  initrwnd : ℕ
  mtu : ℕ
  rtoMin : ℕ
  deriving DecidableEq

def PlatformIpRoute.metrics (r : PlatformIpRoute) : RouteMetrics where
  mss := r.mss
  quickack := r.quickack
  lockWindow := r.lockWindow
  lockCwnd := r.lockCwnd
  lockInitcwnd := r.lockInitcwnd
  lockInitrwnd := r.lockInitrwnd
  lockMtu := r.lockMtu
  lockMss := r.lockMss
  window := r.window
  cwnd := r.cwnd
  initcwnd := r.initcwnd
  initrwnd := r.initrwnd
  mtu := r.mtu
  rtoMin := r.rtoMin

/-- `NM_PLATFORM_IP_ROUTE_CMP_TYPE_SEMANTICALLY` for IPv4 -/
structure Ip4RouteSemantics where
  typeCoerced : ℕ
  tableAny : Bool
  effectiveTable : ℕ
  ifindex : ℤ
  network : BitVec 32
  plen : ℕ
  metricAny : Bool
  metric : ℕ
  gateway : BitVec 32
  nNexthops : ℕ
  weight : ℕ
  rtSource : IpConfigSource
  scopeInv : BitVec 8
  prefSrc : BitVec 32
  /-- `r_rtm_flags & (RTM_F_CLONED | RTNH_F_ONLINK)` -/
  rtmFlags : BitVec 32
  tos : ℕ
  metrics : RouteMetrics
  deriving DecidableEq

/-- `NM_PLATFORM_IP_ROUTE_CMP_TYPE_SEMANTICALLY` for IPv6 -/
structure Ip6RouteSemantics where
  typeCoerced : ℕ
  tableAny : Bool
  effectiveTable : ℕ
  ifindex : ℤ
  network : BitVec 128
  plen : ℕ
  metricAny : Bool
  metric : ℕ
  gateway : BitVec 128
  prefSrc : BitVec 128
  src : BitVec 128
  srcPlen : ℕ
  rtSource : IpConfigSource
  /-- `r_rtm_flags & RTM_F_CLONED` -/
  rtmFlags : BitVec 32
  metrics : RouteMetrics
  rtPref : ℕ
  deriving DecidableEq

namespace ObjectIp4Route

def semantics (r : ObjectIp4Route) : Ip4RouteSemantics where
  typeCoerced := r.typeCoerced
  tableAny := r.tableAny
  effectiveTable := r.getEffectiveTable
  ifindex := r.ifindex
  network := ip4AddrClearHostAddress r.network r.plen
  plen := r.plen
  metricAny := r.metricAny
  metric := r.metric
  gateway := r.gateway
  nNexthops := r.getNNexthops
  weight := PlatformIp4Route.weightNormalize r.getNNexthops r.weight
  rtSource := r.rtSource.roundTripRtprot
  scopeInv := r.scopeInvGetNormalized
  prefSrc := r.prefSrc
  rtmFlags := r.rRtmFlags &&& (rtmFCloned ||| rtnhFOnlink)
  tos := r.tos
  metrics := r.metrics

theorem length_extraNexthops_normalize (r : ObjectIp4Route) :
    r.extraNexthops.length = r.getNNexthops - 1 := by
  have hlen := r.length_extraNexthops
  unfold PlatformIp4Route.getNNexthops
  split_ifs <;> omega

/-- `nm_platform_ip_route_normalize()`. The default metric of IPv4 is zero. -/
def normalize (r : ObjectIp4Route) : ObjectIp4Route :=
  { r with
    toPlatformIpRoute := r.toPlatformIpRoute.normalize 0
    network := ip4AddrClearHostAddress r.network r.plen
    scopeInv := r.scopeInvGetNormalized
    nNexthops := r.getNNexthops
    weight := ecmpWeightNormalize r.getNNexthops r.weight
    length_extraNexthops := r.length_extraNexthops_normalize }

instance : RouteSyncClass ObjectIp4Route ObjectIp4RouteId Ip4RouteSemantics where
  semantics := semantics
  isDeviceRoute r := r.gateway = 0
  normalize := normalize

end ObjectIp4Route

namespace PlatformIp6Route

def semantics (r : PlatformIp6Route) : Ip6RouteSemantics where
  typeCoerced := r.typeCoerced
  tableAny := r.tableAny
  effectiveTable := r.getEffectiveTable
  ifindex := r.ifindex
  network := ip6AddrClearHostAddress r.network r.plen
  plen := r.plen
  metricAny := r.metricAny
  metric := r.metric
  gateway := r.gateway
  prefSrc := r.prefSrc
  src := ip6AddrClearHostAddress r.src r.srcPlen
  srcPlen := r.srcPlen
  rtSource := r.rtSource.roundTripRtprot
  rtmFlags := r.rRtmFlags &&& rtmFCloned
  metrics := r.metrics
  rtPref := routePrefNormalize r.rtPref

/-- `nm_platform_ip_route_normalize()`. The default metric of IPv6 is 1024. -/
def normalize (r : PlatformIp6Route) : PlatformIp6Route :=
  { r with
    toPlatformIpRoute := r.toPlatformIpRoute.normalize 1024
    network := ip6AddrClearHostAddress r.network r.plen
    src := ip6AddrClearHostAddress r.src r.srcPlen }

instance : RouteSyncClass PlatformIp6Route PlatformIp6RouteId Ip6RouteSemantics where
  semantics := semantics
  isDeviceRoute r := r.gateway = 0
  normalize := normalize

end PlatformIp6Route

/-! ## The platform -/

section Sync

variable {R κ σ : Type} [RouteSyncClass R κ σ] [DecidableEq κ] [DecidableEq σ]

open NmpClass RouteSyncClass

/-- What adding a route returns. -/
inductive RouteAddResult
  | success
  | exists
  | failure
  deriving DecidableEq

/-- `nm_platform_ip_route_add()` with `NMP_NLM_FLAG_APPEND`. The kernel may refuse a route
for reasons of its own. -/
def platformIpRouteAdd (refused : R → Bool) (platform : List R) (obj : R) :
    List R × RouteAddResult :=
  let obj := normalize obj
  if (lookup objId (objId obj) platform).isSome then (platform, .exists)
  else if refused obj then (platform, .failure)
  else (platform ++ [obj], .success)

def platformObjectDelete (platform : List R) (obj : R) : List R :=
  eraseKey objId (objId obj) platform

/-- The routes on the platform in the course of the sync, the ones that were seen, and what
is returned. -/
structure RouteSync (R : Type) where
  platform : List R
  routesIdx : List R
  success : Bool
  routesFailed : List R

/-- The route is added where it does not exist already. -/
def RouteSync.add (refused : R → Bool) (s : RouteSync R) (confO : R) : RouteSync R :=
  match platformIpRouteAdd refused s.platform confO with
  | (platform, .failure) =>
    { s with platform, success := false, routesFailed := s.routesFailed ++ [confO] }
  | (platform, _) => { s with platform }

/-- One route that is to be configured. -/
def RouteSync.configure (refused : R → Bool) (s : RouteSync R) (confO : R) : RouteSync R :=
  if (lookup objId (objId confO) s.routesIdx).isSome then s
  else
    let s := { s with routesIdx := s.routesIdx ++ [confO] }
    match lookup objId (objId confO) s.platform with
    | none => s.add refused confO
    | some platO =>
      if semantics confO = semantics platO then s
      else RouteSync.add refused { s with platform := platformObjectDelete s.platform platO } confO

def RouteSync.pass (refused : R → Bool) (deviceRoutes : Bool) (routes : List R)
    (s : RouteSync R) : RouteSync R :=
  routes.foldl
    (fun s confO => if isDeviceRoute confO = deviceRoutes then s.configure refused confO else s) s

/-- One route that is to be pruned. -/
def RouteSync.prune (s : RouteSync R) (pruneO : R) : RouteSync R :=
  if (lookup objId (objId pruneO) s.routesIdx).isSome then s
  else if (lookup objId (objId pruneO) s.platform).isSome then
    { s with platform := platformObjectDelete s.platform pruneO }
  else s

/-- `nm_platform_ip_route_sync()`: first device routes, then gateway routes. -/
def platformIpRouteSync (refused : R → Bool) (platform routes routesPrune : List R) :
    RouteSync R :=
  let s : RouteSync R := ⟨platform, [], true, []⟩
  let s := s.pass refused true routes
  let s := s.pass refused false routes
  routesPrune.foldl RouteSync.prune s

end Sync

end NetworkManager.Platform
