import NetworkManager.Platform.NmpClass

/-!
# The IP configuration of an interface

`NML3ConfigData`: the addresses and routes, the DNS data and the parameters that were
collected for an interface, with the operations that add objects to it, merge two
configurations, clone one, and compare them.

Each index of the configuration lives in a multi-index that interns its objects, so that
two pointers are equal where the objects are. An index is the list of its objects here,
and a null pointer to it is the empty list. An operation that dereferences a null pointer
returns `none`.
-/

namespace NetworkManager.Core

open Lib Platform

/-! ## The enumerations, in the order of their values -/

inductive OptionBool
  | default
  | false
  | true
  deriving DecidableEq, Ord

inductive Ternary
  | default
  | false
  | true
  deriving DecidableEq, Ord

inductive IpRouteTableSyncMode
  | none
  | main
  | full
  | all
  | allPrune
  deriving DecidableEq, Ord

inductive ConnectionMdns
  | default
  | no
  | resolve
  | yes
  deriving DecidableEq, Ord

inductive ConnectionLlmnr
  | default
  | no
  | resolve
  | yes
  deriving DecidableEq, Ord

inductive ConnectionDnsOverTls
  | default
  | no
  | opportunistic
  | yes
  deriving DecidableEq, Ord

inductive Ip6ConfigPrivacy
  | unknown
  | disabled
  | preferPublicAddr
  | preferTempAddr
  deriving DecidableEq, Ord

inductive ProxyConfigMethod
  | unknown
  | none
  | auto
  deriving DecidableEq, Ord

instance : Std.ReflOrd OptionBool := ⟨by intro a; cases a <;> rfl⟩

instance : Std.ReflOrd Ternary := ⟨by intro a; cases a <;> rfl⟩

instance : Std.ReflOrd IpRouteTableSyncMode := ⟨by intro a; cases a <;> rfl⟩

instance : Std.ReflOrd ConnectionMdns := ⟨by intro a; cases a <;> rfl⟩

instance : Std.ReflOrd ConnectionLlmnr := ⟨by intro a; cases a <;> rfl⟩

instance : Std.ReflOrd ConnectionDnsOverTls := ⟨by intro a; cases a <;> rfl⟩

instance : Std.ReflOrd Ip6ConfigPrivacy := ⟨by intro a; cases a <;> rfl⟩

instance : Std.ReflOrd ProxyConfigMethod := ⟨by intro a; cases a <;> rfl⟩

def Ternary.max (a b : Ternary) : Ternary := if compare a b = .gt then a else b

/-! ## The data -/

/-- `NMDhcpLease`: a hash table of options, in the order of their names. -/
structure DhcpLease where
  options : List (String × String)
  deriving DecidableEq

/-- What an `NML3ConfigData` has once for every address family. -/
structure L3IpConfig (A R : Type) where
  addresses : List A
  routes : List R
  bestDefaultRoute : Option R
  dhcpLease : Option DhcpLease
  nameservers : List String
  domains : List String
  searches : List String
  dnsOptions : List String
  /-- `NM_L3_CONFIG_DAT_FLAGS_HAS_DNS_PRIORITY()` is in the flags. -/
  hasDnsPriority : Bool
  dnsPriority : ℤ
  routeTableSync : IpRouteTableSyncMode
  neverDefault : OptionBool
  dhcpEnabled : Bool
  deriving DecidableEq

abbrev L3Ip4Config := L3IpConfig PlatformIp4Address ObjectIp4Route

abbrev L3Ip6Config := L3IpConfig PlatformIp6Address PlatformIp6Route

/-- `NML3ConfigData`. A neighbor discovery parameter that is not set is `none`. -/
structure L3ConfigData where
  ifindex : ℤ
  ip4 : L3Ip4Config
  ip6 : L3Ip6Config
  wins : List (BitVec 32)
  nisServers : List (BitVec 32)
  nisDomain : Option String
  mdns : ConnectionMdns
  llmnr : ConnectionLlmnr
  dnsOverTls : ConnectionDnsOverTls
  ip6Token : BitVec 64
  ignoreMergeNoDefaultRoutes : Bool
  source : IpConfigSource
  mtu : ℕ
  ip6Mtu : ℕ
  metered : Ternary
  proxyBrowserOnly : Ternary
  proxyMethod : ProxyConfigMethod
  proxyPacUrl : Option String
  proxyPacScript : Option String
  ip6Privacy : Ip6ConfigPrivacy
  mptcpFlags : BitVec 18
  ndiscHopLimit : Option ℤ
  ndiscReachableTimeMsec : Option ℕ
  ndiscRetransTimerMsec : Option ℕ
  deriving DecidableEq

/-- The value of `NML3ConfigDatFlags`. -/
def L3ConfigData.flags (l : L3ConfigData) : ℕ :=
  (if l.ignoreMergeNoDefaultRoutes then 1 else 0) + (if l.ip4.hasDnsPriority then 2 else 0) +
    if l.ip6.hasDnsPriority then 4 else 0

def L3IpConfig.new {A R : Type} : L3IpConfig A R where
  addresses := []
  routes := []
  bestDefaultRoute := none
  dhcpLease := none
  nameservers := []
  domains := []
  searches := []
  dnsOptions := []
  hasDnsPriority := false
  dnsPriority := 0
  routeTableSync := .none
  neverDefault := .default
  dhcpEnabled := false

def L3ConfigData.new (ifindex : ℤ) (source : IpConfigSource) : L3ConfigData where
  ifindex := ifindex
  ip4 := .new
  ip6 := .new
  wins := []
  nisServers := []
  nisDomain := none
  mdns := .default
  llmnr := .default
  dnsOverTls := .default
  ip6Token := 0
  ignoreMergeNoDefaultRoutes := false
  source := source
  mtu := 0
  ip6Mtu := 0
  metered := .default
  proxyBrowserOnly := .default
  proxyMethod := .unknown
  proxyPacUrl := none
  proxyPacScript := none
  ip6Privacy := .unknown
  mptcpFlags := 0
  ndiscHopLimit := none
  ndiscReachableTimeMsec := none
  ndiscRetransTimerMsec := none

/-! ## Adding an object -/

/-- `NML3ConfigAddFlags`: what happens to an object with the same identity. -/
inductive AddMode
  | replace
  | merge
  | exclusive
  deriving DecidableEq

structure AddFlags where
  mode : AddMode
  appendForce : Bool
  deriving DecidableEq

def AddFlags.exclusive : AddFlags := ⟨.exclusive, false⟩

structure AddResult (α : Type) where
  objs : List α
  changed : Bool
  objOld : Option α
  objNew : α

section AddObj

variable {α κ : Type} [NmpClass α κ]

open NmpClass

/-- A full object is copied only if its interface index changes. -/
def objNewStackinit (i : ℤ) : NewObj α → Option α
  | .obj o => if ifindex o = homeIfindex i o then some o else (stackinit o).map (rehome i)
  | .pl o => (stackinit o).map (rehome i)

variable [DecidableEq α] [DecidableEq κ]

/-- The object is copied only if it takes something from the old one. -/
def objNewMerge (objNew old : α) : Option α :=
  if mergeWith objNew old = objNew then some objNew
  else (stackinit objNew).map fun objNew => mergeWith objNew old

def addObjKeep (objs : List α) (flags : AddFlags) (old : α) : AddResult α :=
  if flags.appendForce then
    ⟨put objId old objs, decide (put objId old objs ≠ objs), some old, old⟩
  else ⟨objs, false, some old, old⟩

def addObjReplace (objs : List α) (flags : AddFlags) (old objNew : α) : AddResult α :=
  if flags.appendForce then ⟨put objId objNew objs, true, some old, objNew⟩
  else ⟨modifyKey objId (objId old) (fun _ => objNew) objs, true, some old, objNew⟩

def addObj (objs : List α) (ifindex : ℤ) (new : NewObj α) (flags : AddFlags) :
    Option (AddResult α) :=
  (objNewStackinit ifindex new).bind fun objNew =>
    match lookup objId (objId objNew) objs with
    | none => some ⟨objs ++ [objNew], true, none, objNew⟩
    | some old =>
      if flags.mode = .exclusive ∨ cmp objNew old = .eq then some (addObjKeep objs flags old)
      else if flags.mode = .merge then
        (objNewMerge objNew old).map fun objNew =>
          if cmp objNew old = .eq then addObjKeep objs flags old
          else addObjReplace objs flags old objNew
      else some (addObjReplace objs flags old objNew)

end AddObj

/-! ## The best default route -/

section BestDefaultRoute

variable {R κ : Type} [NmpRouteClass R κ] [DecidableEq R]

open NmpClass NmpRouteClass

/-- `_l3_config_best_default_route_find_better()`. Routes that compare equal are interned
as one object, so that their pointers are not compared. -/
def bestDefaultRouteFindBetter (cur : Option R) (obj : R) : Option R :=
  if (rx obj).isBestDefaultRoute then
    match cur with
    | none => some obj
    | some cur =>
      if (rx obj).metric < (rx cur).metric then some obj
      else if (rx obj).metric = (rx cur).metric then
        match cmp cur obj with
        | .gt => some obj
        | _ => some cur
      else some cur
  else cur

structure AddRouteResult (A R : Type) where
  self : L3IpConfig A R
  changed : Bool
  objNew : R
  changedBestDefaultRoute : Bool

/-- The best default route is dropped if the old object of `r` was it, and is then
chosen among it and the new object. -/
def bestDefaultRouteMerge (best : Option R) (r : AddResult R) : Option R :=
  let best := if best = r.objOld ∧ r.objOld ≠ some r.objNew then none else best
  bestDefaultRouteFindBetter best r.objNew

def addRouteFull [DecidableEq κ] {A : Type} (ifindex : ℤ) (self : L3IpConfig A R)
    (new : NewObj R) (flags : AddFlags) : Option (AddRouteResult A R) :=
  (addObj self.routes ifindex new flags).map fun r =>
    if r.changed then
      let best := bestDefaultRouteMerge self.bestDefaultRoute r
      ⟨{ self with routes := r.objs, bestDefaultRoute := best }, true, r.objNew,
        decide (best ≠ self.bestDefaultRoute ∨
          (self.bestDefaultRoute = r.objOld ∧ r.objOld ≠ some r.objNew))⟩
    else ⟨self, false, r.objNew, false⟩

end BestDefaultRoute

/-- `nm_l3_config_data_add_address_full()`: the configuration, and whether it changed. -/
def addAddressFull {A R κ : Type} [NmpClass A κ] [DecidableEq A] [DecidableEq κ] (ifindex : ℤ)
    (self : L3IpConfig A R) (new : NewObj A) (flags : AddFlags) :
    Option (L3IpConfig A R × Bool) :=
  (addObj self.addresses ifindex new flags).map fun r =>
    ({ self with addresses := r.objs }, r.changed)

/-! ## Merging -/

structure MergeFlags where
  noRoutes : Bool
  noDefaultRoutes : Bool
  noDns : Bool
  clone : Bool
  deriving DecidableEq

def MergeFlags.cloneFlags : MergeFlags := ⟨false, false, false, true⟩

/-- The values for one address family that the source leaves to be chosen. -/
structure MergeDefaults where
  routeTable : ℕ
  routeMetric : ℕ
  routePenalty : ℕ
  dnsPriority : ℤ
  deriving DecidableEq

/-- With `NM_PLATFORM_ROUTE_METRIC_DEFAULT_IP4` and `NM_DNS_PRIORITY_DEFAULT_NORMAL` -/
def MergeDefaults.ip4 : MergeDefaults := ⟨rtTableMain, 0, 0, 100⟩

/-- With `NM_PLATFORM_ROUTE_METRIC_DEFAULT_IP6` and `NM_DNS_PRIORITY_DEFAULT_NORMAL` -/
def MergeDefaults.ip6 : MergeDefaults := ⟨rtTableMain, 1024, 0, 100⟩

/-- `NML3ConfigMergeHookAddObj` for one address family. -/
structure MergeHook (A R : Type) where
  addAddress : A → Bool
  ip4acdNotReady : A → OptionBool
  addRoute : R → Bool

def MergeHook.null {A R : Type} : MergeHook A R :=
  ⟨fun _ => true, fun _ => .default, fun _ => true⟩

def addClampedU32 (a b : ℕ) : ℕ := if a + b < 2 ^ 32 then a + b else 2 ^ 32 - 1

def ipRouteMetricPenalize (metric penalty : ℕ) : ℕ :=
  if metric < 2 ^ 32 - 1 - penalty then metric + penalty else 2 ^ 32 - 1

/-- `_strv_ptrarray_merge()` and `_garray_inaddr_merge()` append what was not yet there. -/
def arrayMerge {α : Type} [DecidableEq α] (dst src : List α) : List α :=
  dst ++ src.filter fun s => s ∉ dst

def mergeDefault {α : Type} [DecidableEq α] (default self src : α) : α :=
  if self = default then src else self

section MergeIp

variable {A R κA κR : Type}

/-- The address of the source, as it is added to a configuration for `ifindex`. -/
def mergeAddress [NmpAddressClass A κA] (ifindex : ℤ) (hook : MergeHook A R) (a : A) :
    NewObj A :=
  let n := NewObj.obj a
  let n :=
    if NmpClass.ifindex n.val ≠ ifindex then n.ensure (NmpClass.withIfindex ifindex) else n
  match hook.ip4acdNotReady a with
  | .default => n
  | .false => NmpAddressClass.setAcdNotReady false n
  | .true => NmpAddressClass.setAcdNotReady true n

def mergeAddresses [NmpAddressClass A κA] [DecidableEq A] [DecidableEq κA] (ifindex : ℤ)
    (hook : MergeHook A R) (self : L3IpConfig A R) (addresses : List A) :
    Option (L3IpConfig A R) :=
  addresses.foldlM
    (fun self a =>
      if hook.addAddress a then
        (addAddressFull ifindex self (mergeAddress ifindex hook a) .exclusive).map Prod.fst
      else some self)
    self

open NmpRouteClass in
/-- The table and the metric that the source leaves to the defaults, and the penalty of a
default route. A default route may have to stay behind. -/
def mergeRouteDefaults [NmpRouteClass R κR] (flags : MergeFlags)
    (ignoreMergeNoDefaultRoutes : Bool) (defaults : MergeDefaults) (n : NewObj R) :
    Option (NewObj R) :=
  let n :=
    if (rx n.val).tableAny then
      n.ensure (withRx fun r =>
        { r with tableAny := false, tableCoerced := routeTableCoerce defaults.routeTable })
    else n
  let n :=
    if (rx n.val).metricAny then
      n.ensure (withRx fun r =>
        { r with metricAny := false, metric := addClampedU32 r.metric defaults.routeMetric })
    else n
  if (rx n.val).isDefault then
    if flags.noDefaultRoutes ∧ ¬ ignoreMergeNoDefaultRoutes then none
    else if defaults.routePenalty > 0 then
      some (n.ensure (withRx fun r =>
        { r with metric := ipRouteMetricPenalize r.metric defaults.routePenalty }))
    else some n
  else some n

/-- The route of the source, as it is added to a configuration for `ifindex`. -/
def mergeRoute [NmpRouteClass R κR] (ifindex : ℤ) (flags : MergeFlags)
    (ignoreMergeNoDefaultRoutes : Bool) (defaults : MergeDefaults) (r : R) : Option (NewObj R) :=
  let n := NewObj.obj r
  let n :=
    if NmpClass.ifindex n.val ≠ ifindex then n.ensure (NmpClass.withIfindex ifindex) else n
  if flags.clone then some n
  else mergeRouteDefaults flags ignoreMergeNoDefaultRoutes defaults n

def mergeRoutes [NmpRouteClass R κR] [DecidableEq R] [DecidableEq κR] (ifindex : ℤ)
    (flags : MergeFlags) (ignoreMergeNoDefaultRoutes : Bool) (defaults : MergeDefaults)
    (hook : MergeHook A R) (self : L3IpConfig A R) (routes : List R) : Option (L3IpConfig A R) :=
  if flags.noRoutes then some self
  else
    routes.foldlM
      (fun self r =>
        if hook.addRoute r then
          match mergeRoute ifindex flags ignoreMergeNoDefaultRoutes defaults r with
          | none => some self
          | some n => (addRouteFull ifindex self n .exclusive).map AddRouteResult.self
        else some self)
      self

/-- The DNS data and the other parameters of one address family. -/
def mergeIpParameters (flags : MergeFlags) (defaults : MergeDefaults) (self src : L3IpConfig A R) :
    L3IpConfig A R :=
  let takePriority := ¬ self.hasDnsPriority ∧ src.hasDnsPriority
  { self with
    nameservers :=
      if flags.noDns then self.nameservers else arrayMerge self.nameservers src.nameservers
    domains := if flags.noDns then self.domains else arrayMerge self.domains src.domains
    searches := if flags.noDns then self.searches else arrayMerge self.searches src.searches
    dnsOptions :=
      if flags.noDns then self.dnsOptions else arrayMerge self.dnsOptions src.dnsOptions
    dnsPriority :=
      if takePriority then
        if src.dnsPriority = 0 ∧ ¬ flags.clone then defaults.dnsPriority else src.dnsPriority
      else self.dnsPriority
    hasDnsPriority := if takePriority then true else self.hasDnsPriority
    routeTableSync := mergeDefault .none self.routeTableSync src.routeTableSync
    neverDefault := mergeDefault .default self.neverDefault src.neverDefault
    -- The own lease is stolen first, and then a reference to it is taken.
    dhcpLease := if flags.clone then none else self.dhcpLease
    dhcpEnabled := if src.dhcpEnabled then true else self.dhcpEnabled }

def mergeIp [NmpAddressClass A κA] [DecidableEq A] [DecidableEq κA] [NmpRouteClass R κR]
    [DecidableEq R] [DecidableEq κR] (ifindex : ℤ) (flags : MergeFlags)
    (ignoreMergeNoDefaultRoutes : Bool) (defaults : MergeDefaults) (hook : MergeHook A R)
    (self src : L3IpConfig A R) : Option (L3IpConfig A R) := do
  let self ← mergeAddresses ifindex hook self src.addresses
  let self ← mergeRoutes ifindex flags ignoreMergeNoDefaultRoutes defaults hook self src.routes
  return mergeIpParameters flags defaults self src

end MergeIp

namespace L3ConfigData

/-- The part of `nm_l3_config_data_merge()` that does not depend on the address family. -/
def mergeParameters (flags : MergeFlags) (self src : L3ConfigData) : L3ConfigData :=
  { self with
    wins := if flags.noDns then self.wins else arrayMerge self.wins src.wins
    nisServers :=
      if flags.noDns then self.nisServers else arrayMerge self.nisServers src.nisServers
    nisDomain := if flags.noDns then self.nisDomain else self.nisDomain.or src.nisDomain
    mdns := mergeDefault .default self.mdns src.mdns
    llmnr := mergeDefault .default self.llmnr src.llmnr
    dnsOverTls := mergeDefault .default self.dnsOverTls src.dnsOverTls
    ip6Token := mergeDefault 0 self.ip6Token src.ip6Token
    metered := self.metered.max src.metered
    proxyMethod := mergeDefault .unknown self.proxyMethod src.proxyMethod
    proxyBrowserOnly := mergeDefault .default self.proxyBrowserOnly src.proxyBrowserOnly
    proxyPacUrl := self.proxyPacUrl.or src.proxyPacUrl
    proxyPacScript := self.proxyPacScript.or src.proxyPacScript
    ip6Privacy := mergeDefault .unknown self.ip6Privacy src.ip6Privacy
    mptcpFlags := mergeDefault 0 self.mptcpFlags src.mptcpFlags
    ndiscHopLimit := self.ndiscHopLimit.or src.ndiscHopLimit
    ndiscReachableTimeMsec := self.ndiscReachableTimeMsec.or src.ndiscReachableTimeMsec
    ndiscRetransTimerMsec := self.ndiscRetransTimerMsec.or src.ndiscRetransTimerMsec
    mtu := mergeDefault 0 self.mtu src.mtu
    ip6Mtu := mergeDefault 0 self.ip6Mtu src.ip6Mtu
    source := if flags.clone then src.source else self.source }

def merge (self src : L3ConfigData) (flags : MergeFlags) (defaults4 defaults6 : MergeDefaults)
    (hook4 : MergeHook PlatformIp4Address ObjectIp4Route)
    (hook6 : MergeHook PlatformIp6Address PlatformIp6Route) : Option L3ConfigData := do
  let ip4 ←
    mergeIp self.ifindex flags src.ignoreMergeNoDefaultRoutes defaults4 hook4 self.ip4 src.ip4
  let ip6 ←
    mergeIp self.ifindex flags src.ignoreMergeNoDefaultRoutes defaults6 hook6 self.ip6 src.ip6
  return mergeParameters flags { self with ip4, ip6 } src

def newClone (src : L3ConfigData) (ifindex : ℤ) : Option L3ConfigData :=
  let ifindex := if ifindex ≤ 0 then src.ifindex else ifindex
  (new ifindex src.source).merge src .cloneFlags .ip4 .ip6 .null .null

end L3ConfigData

/-! ## Comparison -/

structure CmpFlags where
  ifindex : Bool
  addressesId : Bool
  addresses : Bool
  routesId : Bool
  routes : Bool
  dns : Bool
  other : Bool
  deriving DecidableEq

def CmpFlags.all : CmpFlags := ⟨true, true, true, true, true, true, true⟩

/-- The comparison of `NMDhcpLease` options with `nm_utils_hashtable_cmp()`. -/
def DhcpLease.cmp (a b : DhcpLease) : Ordering :=
  cmpSeq
    [compare a.options.length b.options.length,
      cmpList compare (a.options.map Prod.fst) (b.options.map Prod.fst),
      cmpList compare (a.options.map Prod.snd) (b.options.map Prod.snd)]

section CmpIp

variable {α κ : Type} [NmpClass α κ]

def dedupMultiIndexCmp (cmpIfindex cmpFull : Bool) (a b : List α) : Ordering :=
  cmpList
    (fun x y =>
      if cmpFull then nmpObjectCmpFull (!cmpIfindex) x y
      else
        cmpSeq
          [if cmpIfindex then compare (NmpClass.ifindex x) (NmpClass.ifindex y) else .eq,
            NmpClass.cmpIdFields x y])
    a b

/-- The comparison of the best default routes, which finds a null pointer if only the
identities are compared. -/
def cmpBestDefaultRoute [DecidableEq α] (flags : CmpFlags) (a b : Option α) : Option Ordering :=
  if a = b then some .eq
  else if flags.routes then some (cmpPtr (nmpObjectCmpFull (!flags.ifindex)) a b)
  else if flags.routesId then
    match a, b with
    | some a, some b =>
      some (cmpSeq
        [if flags.ifindex then compare (NmpClass.ifindex a) (NmpClass.ifindex b) else .eq,
          NmpClass.cmpIdFields a b])
    | _, _ => none
  else some .eq

end CmpIp

section CmpIpConfig

variable {A R κA κR : Type}

def cmpDns (a b : L3IpConfig A R) : Ordering :=
  cmpSeq
    [cmpList compare a.nameservers b.nameservers,
      cmpList compare a.domains b.domains,
      cmpList compare a.searches b.searches,
      cmpList compare a.dnsOptions b.dnsOptions,
      compare a.hasDnsPriority b.hasDnsPriority,
      if a.hasDnsPriority then compare a.dnsPriority b.dnsPriority else .eq]

def cmpOther (a b : L3IpConfig A R) : Ordering :=
  cmpSeq
    [cmpPtr DhcpLease.cmp a.dhcpLease b.dhcpLease,
      compare a.routeTableSync b.routeTableSync,
      compare a.neverDefault b.neverDefault]

/-- The comparison of what `nm_l3_config_data_cmp_full()` has for both address families. -/
def cmpIp [NmpClass R κR] [DecidableEq R] (flags : CmpFlags) (a b : L3IpConfig A R) :
    Option Ordering :=
  cmpSeq?
    [cmpBestDefaultRoute flags a.bestDefaultRoute b.bestDefaultRoute,
      some (if flags.dns then cmpDns a b else .eq),
      some (if flags.other then cmpOther a b else .eq)]

def cmpAddresses [NmpClass A κA] (flags : CmpFlags) (a b : L3IpConfig A R) : Ordering :=
  if flags.addresses ∨ flags.addressesId then
    dedupMultiIndexCmp flags.ifindex flags.addresses a.addresses b.addresses
  else .eq

def cmpRoutes [NmpClass R κR] (flags : CmpFlags) (a b : L3IpConfig A R) : Ordering :=
  if flags.routes ∨ flags.routesId then
    dedupMultiIndexCmp flags.ifindex flags.routes a.routes b.routes
  else .eq

end CmpIpConfig

namespace L3ConfigData

def cmpDnsParameters (a b : L3ConfigData) : Ordering :=
  cmpSeq
    [cmpList compare a.wins b.wins,
      cmpList compare a.nisServers b.nisServers,
      cmpPtr compare a.nisDomain b.nisDomain,
      compare a.mdns b.mdns,
      compare a.llmnr b.llmnr,
      compare a.dnsOverTls b.dnsOverTls]

def cmpOtherParameters (a b : L3ConfigData) : Ordering :=
  cmpSeq
    [compare a.flags b.flags,
      compare a.ip6Token b.ip6Token,
      compare a.mtu b.mtu,
      compare a.ip6Mtu b.ip6Mtu,
      compare a.metered b.metered,
      compare a.proxyBrowserOnly b.proxyBrowserOnly,
      compare a.proxyMethod b.proxyMethod,
      cmpPtr compare a.proxyPacUrl b.proxyPacUrl,
      cmpPtr compare a.proxyPacScript b.proxyPacScript,
      compare a.ip6Privacy b.ip6Privacy,
      compare a.mptcpFlags b.mptcpFlags,
      cmpPtr compare a.ndiscHopLimit b.ndiscHopLimit,
      cmpPtr compare a.ndiscReachableTimeMsec b.ndiscReachableTimeMsec,
      cmpPtr compare a.ndiscRetransTimerMsec b.ndiscRetransTimerMsec,
      compare a.source.toNat b.source.toNat]

def empty : L3ConfigData := { new 1 .unknown with ifindex := 0 }

def cmpFull (a b : Option L3ConfigData) (flags : CmpFlags) : Option Ordering :=
  let a := a.getD empty
  let b := b.getD empty
  cmpSeq?
    [some (if flags.ifindex then compare a.ifindex b.ifindex else .eq),
      some (cmpAddresses flags a.ip4 b.ip4),
      some (cmpAddresses flags a.ip6 b.ip6),
      some (cmpRoutes flags a.ip4 b.ip4),
      some (cmpRoutes flags a.ip6 b.ip6),
      cmpIp flags a.ip4 b.ip4,
      cmpIp flags a.ip6 b.ip6,
      some (if flags.dns then cmpDnsParameters a b else .eq),
      some (if flags.other then cmpOtherParameters a b else .eq)]

end L3ConfigData

end NetworkManager.Core
