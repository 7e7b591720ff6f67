import NetworkManager.GlibAux.InetAddr
import NetworkManager.Platform.IpObject

/-!
# The classless static routes of a DHCP lease

The option has the routes as bytes. `lease_parse_routes()` of the internal client reads
these, and also writes them as a string. The other clients hand over a string:
`ip4_process_dhclient_rfc3442_routes()` reads one with the bytes in decimal, and
`ip4_process_dhcpcd_rfc3442_routes()` one with addresses.
-/

namespace NetworkManager.Core

open Lib GlibAux Platform

/-! ## Strings -/

/-- The bytes that are copied over an `in_addr_t` of zeros. -/
def inAddrMemcpy (bytes : List Octet) : BitVec 32 :=
  inAddrOfOctets (bytes.getD 0 0) (bytes.getD 1 0) (bytes.getD 2 0) (bytes.getD 3 0)

/-- `strtol()` in base 10, without a value where `errno` is set. A string without a number is
zero. -/
def strtol (nptr : Bytes) : Option ℤ :=
  if parseLongLong 10 nptr = none then some 0 else (asciiStrtoll 10 nptr).map Prod.fst

/-- `nm_strsplit_set_with_empty()`. A null pointer is the empty list. -/
def strsplitSetWithEmpty (str delimiters : Bytes) : List Bytes :=
  if str = [] then [] else str.splitOnP fun c => c ∈ delimiters

def strsplitSet (str delimiters : Bytes) : List Bytes :=
  (strsplitSetWithEmpty str delimiters).filter fun token => token ≠ []

/-! ## The bytes of an option -/

def leaseDataConsume (data : List Octet) (n : ℕ) : Option (List Octet × List Octet) :=
  if data.length < n then none else some (data.take n, data.drop n)

def leaseDataConsumeInAddr (data : List Octet) : Option (BitVec 32 × List Octet) :=
  (leaseDataConsume data 4).map fun r => (inAddrMemcpy r.1, r.2)

def ip4AddrGetDefaultPrefix0 (ip : BitVec 32) : ℕ :=
  let first := (ip.extractLsb' 24 8).toNat
  if first ≤ 127 then 8 else if first ≤ 191 then 16 else if first ≤ 223 then 24 else 0

structure LeaseRoute where
  dest : BitVec 32
  plen : ℕ
  gateway : BitVec 32
  deriving DecidableEq

/-- The destination and the prefix length at the start of a route. -/
def leaseConsumeDest (classless : Bool) (data : List Octet) :
    Option ((BitVec 32 × ℕ) × List Octet) :=
  if classless then do
    let (byte, data) ← leaseDataConsume data 1
    let plen := (byte.getD 0 0).toNat
    if plen > 32 then none
    else
      let bytes := if plen = 0 then 0 else (plen - 1) / 8 + 1
      let (dest, data) ← leaseDataConsume data bytes
      return ((inAddrMemcpy dest, plen), data)
  else do
    let (dest, data) ← leaseDataConsumeInAddr data
    let plen := ip4AddrGetDefaultPrefix0 dest
    if plen = 0 then none else return ((dest, plen), data)

def leaseOptionConsumeRoute (classless : Bool) (data : List Octet) :
    Option (LeaseRoute × List Octet) := do
  let ((dest, plen), data) ← leaseConsumeDest classless data
  let dest := ip4AddrClearHostAddress dest plen
  let (gateway, data) ← leaseDataConsumeInAddr data
  return (⟨dest, plen, gateway⟩, data)

variable {rest data : List Octet}

theorem leaseDataConsume_length {bytes : List Octet} {n : ℕ}
    (h : leaseDataConsume data n = some (bytes, rest)) : rest.length + n = data.length := by
  unfold leaseDataConsume at h
  split_ifs at h with hn
  obtain ⟨rfl, rfl⟩ := Prod.mk.inj (Option.some.inj h)
  rw [List.length_drop]
  omega

theorem leaseDataConsumeInAddr_length {addr : BitVec 32}
    (h : leaseDataConsumeInAddr data = some (addr, rest)) : rest.length + 4 = data.length := by
  obtain ⟨⟨bytes, rest'⟩, hconsume, he⟩ := Option.map_eq_some_iff.mp h
  rw [← (Prod.mk.inj he).2]
  exact leaseDataConsume_length hconsume

theorem leaseConsumeDest_length {classless : Bool} {dest : BitVec 32 × ℕ}
    (h : leaseConsumeDest classless data = some (dest, rest)) : rest.length < data.length := by
  unfold leaseConsumeDest at h
  split_ifs at h
  · simp only [Option.bind_eq_bind, Option.bind_eq_some_iff] at h
    obtain ⟨⟨byte, tail⟩, hbyte, h⟩ := h
    have hlen := leaseDataConsume_length hbyte
    split_ifs at h
    all_goals
      obtain ⟨⟨bytes, tail'⟩, hbytes, he⟩ := Option.bind_eq_some_iff.mp h
      have hlen' := leaseDataConsume_length hbytes
      obtain ⟨-, rfl⟩ := Prod.mk.inj (Option.some.inj he)
      dsimp only at hlen' ⊢
      omega
  · simp only [Option.bind_eq_bind, Option.bind_eq_some_iff] at h
    obtain ⟨⟨addr, tail⟩, haddr, h⟩ := h
    have hlen := leaseDataConsumeInAddr_length haddr
    split_ifs at h
    obtain ⟨-, rfl⟩ := Prod.mk.inj (Option.some.inj h)
    dsimp only
    omega

theorem leaseOptionConsumeRoute_length {classless : Bool} {r : LeaseRoute}
    (h : leaseOptionConsumeRoute classless data = some (r, rest)) : rest.length < data.length := by
  simp only [leaseOptionConsumeRoute, Option.bind_eq_bind, Option.bind_eq_some_iff] at h
  obtain ⟨⟨dest, tail⟩, hdest, ⟨gateway, tail'⟩, hgateway, he⟩ := h
  have hlen := leaseConsumeDest_length hdest
  have hlen' := leaseDataConsumeInAddr_length hgateway
  obtain ⟨-, rfl⟩ := Prod.mk.inj (Option.some.inj he)
  dsimp only at hlen' ⊢
  omega

/-- All routes up to the first one that is malformed. -/
def leaseConsumeRoutes (classless : Bool) (data : List Octet) : List LeaseRoute :=
  match h : leaseOptionConsumeRoute classless data with
  | none => []
  | some (r, rest) =>
    have := leaseOptionConsumeRoute_length h
    r :: leaseConsumeRoutes classless rest
termination_by data.length

/-- All addresses, where a rest that is too short is left. -/
def leaseConsumeInAddrs (data : List Octet) : List (BitVec 32) :=
  match h : leaseDataConsumeInAddr data with
  | none => []
  | some (addr, rest) =>
    have := leaseDataConsumeInAddr_length h
    addr :: leaseConsumeInAddrs rest
termination_by data.length

/-! ## The internal client -/

def appendRequiredDelimiter (sbuf : Bytes) (delimiter : UInt8) : Bytes :=
  if sbuf ≠ [] then sbuf ++ [delimiter] else sbuf

/-- The format `"%s/%d %s"` for a route. -/
def LeaseRoute.print (r : LeaseRoute) : Bytes :=
  inet4Ntop r.dest ++ ('/' : UInt8) :: formatUnsigned r.plen ++ (' ' : UInt8) :: inet4Ntop r.gateway

def appendItems (items : List Bytes) : Bytes :=
  items.foldl (fun sbuf item => appendRequiredDelimiter sbuf ' ' ++ item) []

/-- The options of a lease that have routes. -/
inductive RouteOption
  | classlessStaticRoute
  | privateClasslessStaticRoute
  | staticRoute
  | router
  deriving DecidableEq

/-- A route as the clients hand it to `nm_l3_config_data_add_route_4()`. -/
def dhcpRoute (network : BitVec 32) (plen : ℕ) (gateway prefSrc : BitVec 32) (metric : ℕ) :
    PlatformIp4Route :=
  { (default : PlatformIp4Route) with
    rtSource := .dhcp, network, plen, gateway, prefSrc, tableAny := true, tableCoerced := 0,
    metricAny := true, metric }

/-- What `lease_parse_routes()` has done so far: the routes that it added, the strings of
the options, and its local variables. -/
structure LeaseParse where
  routes : List PlatformIp4Route
  options : List (RouteOption × Bytes)
  hasClassless : Bool
  hasRouterFromClassless : Bool
  defaultRouteMetricOffset : ℕ
  deriving DecidableEq

section LeaseParseRoutes

variable (leaseAddress : BitVec 32)

/-- A classless route is added, unless an option before has some. -/
def parseClasslessRoute (s : LeaseParse) (r : LeaseRoute) : LeaseParse :=
  if s.hasClassless then s
  else if r.plen = 0 then
    { s with
      routes := s.routes ++
        [dhcpRoute r.dest r.plen r.gateway leaseAddress s.defaultRouteMetricOffset]
      defaultRouteMetricOffset := s.defaultRouteMetricOffset + 1
      hasRouterFromClassless := true }
  else { s with routes := s.routes ++ [dhcpRoute r.dest r.plen r.gateway leaseAddress 0] }

def parseClassless (lease : RouteOption → Option (List Octet)) (s : LeaseParse)
    (option : RouteOption) : LeaseParse :=
  match lease option with
  | none => s
  | some data =>
    let routes := leaseConsumeRoutes true data
    let s := routes.foldl (parseClasslessRoute leaseAddress) s
    { s with
      hasClassless := true
      options := s.options ++ [(option, appendItems (routes.map LeaseRoute.print))] }

def parseStaticRoute (s : LeaseParse) (r : LeaseRoute) : LeaseParse :=
  if s.hasClassless then s
  else if r.plen = 0 then s
  else { s with routes := s.routes ++ [dhcpRoute r.dest r.plen r.gateway leaseAddress 0] }

def parseStatic (lease : RouteOption → Option (List Octet)) (s : LeaseParse) : LeaseParse :=
  match lease .staticRoute with
  | none => s
  | some data =>
    let routes := leaseConsumeRoutes false data
    let s := routes.foldl (parseStaticRoute leaseAddress) s
    { s with options := s.options ++ [(.staticRoute, appendItems (routes.map LeaseRoute.print))] }

/-- A router is added as a default route, unless a classless route is one. -/
def parseRouterAddr (s : LeaseParse) (gateway : BitVec 32) : LeaseParse :=
  if gateway = 0 then s
  else if s.hasRouterFromClassless then s
  else
    { s with
      routes := s.routes ++ [dhcpRoute 0 0 gateway leaseAddress s.defaultRouteMetricOffset]
      defaultRouteMetricOffset := s.defaultRouteMetricOffset + 1 }

def parseRouter (lease : RouteOption → Option (List Octet)) (s : LeaseParse) : LeaseParse :=
  match lease .router with
  | none => s
  | some data =>
    let gateways := leaseConsumeInAddrs data
    let s := gateways.foldl (parseRouterAddr leaseAddress) s
    { s with options := s.options ++ [(.router, appendItems (gateways.map inet4Ntop))] }

def leaseParseRoutes (lease : RouteOption → Option (List Octet)) : LeaseParse :=
  let s := [.classlessStaticRoute, .privateClasslessStaticRoute].foldl
    (parseClassless leaseAddress lease) ⟨[], [], false, false, 0⟩
  parseRouter leaseAddress lease (parseStatic leaseAddress lease s)

end LeaseParseRoutes

/-! ## The other clients -/

/-- The routes that were added, the gateway that was found, and whether there were routes. -/
structure ClasslessRoutes where
  routes : List PlatformIp4Route
  gwaddr : BitVec 32
  haveRoutes : Bool
  deriving DecidableEq

/-- The network of a route, of which only the significant parts are there. -/
def dhclientNetwork (parts : List Bytes) (plen : ℕ) : Option (BitVec 32) :=
  if plen > 0 then
    (inetPton (strjoinDot (parts.getD 0 ['0']) (parts.getD 1 ['0']) (parts.getD 2 ['0'])
      (parts.getD 3 ['0']))).map fun addr => ip4AddrClearHostAddress addr plen
  else some 0

def processDhclientRfc3442Route : List Bytes → Option (LeaseRoute × List Bytes)
  | [] => none
  | token :: octets =>
    match asciiStrToInt64 token 10 0 32 with
    | none => none
    | some plen =>
      let plen := plen.toNat
      let addrLen := if plen > 0 then (plen - 1) / 8 + 1 else 0
      if octets.length < addrLen + 4 then none
      else do
        let network ← dhclientNetwork (octets.take addrLen) plen
        let octets := octets.drop addrLen
        let gateway ← inetPton (strjoinDot (octets.getD 0 []) (octets.getD 1 [])
          (octets.getD 2 []) (octets.getD 3 []))
        return (⟨network, plen, gateway⟩, octets.drop 4)

theorem processDhclientRfc3442Route_length {octets rest : List Bytes} {r : LeaseRoute}
    (h : processDhclientRfc3442Route octets = some (r, rest)) : rest.length < octets.length := by
  cases octets with
  | nil => exact absurd h nofun
  | cons token octets =>
    cases hplen : asciiStrToInt64 token 10 0 32 with
    | none => simp [processDhclientRfc3442Route, hplen] at h
    | some plen =>
      simp only [processDhclientRfc3442Route, hplen, Option.bind_eq_bind] at h
      split_ifs at h
      all_goals
        simp only [Option.bind_eq_some_iff] at h
        obtain ⟨network, -, gateway, -, he⟩ := h
        obtain ⟨-, rfl⟩ := Prod.mk.inj (Option.some.inj he)
        simp only [List.length_drop, List.length_cons]
        omega

def addDhclientRoute (address : BitVec 32) (s : ClasslessRoutes) (r : LeaseRoute) :
    ClasslessRoutes :=
  if r.plen = 0 then { s with haveRoutes := true, gwaddr := r.gateway }
  else
    { s with
      haveRoutes := true
      routes := s.routes ++ [dhcpRoute r.dest r.plen r.gateway address 0] }

def dhclientLoop (address : BitVec 32) (octets : List Bytes) (s : ClasslessRoutes) :
    ClasslessRoutes :=
  match h : processDhclientRfc3442Route octets with
  | none => s
  | some (r, rest) =>
    have := processDhclientRfc3442Route_length h
    dhclientLoop address rest (addDhclientRoute address s r)
termination_by octets.length

def ip4ProcessDhclientRfc3442Routes (str : Bytes) (address gwaddr : BitVec 32) :
    ClasslessRoutes :=
  let octets := strsplitSetWithEmpty str [' ', '.']
  let s : ClasslessRoutes := ⟨[], gwaddr, false⟩
  if octets.length < 5 then s else dhclientLoop address octets s

/-- The prefix length behind a slash, as an `int`. -/
def dhcpcdCidr (suffix : Bytes) : Option ℤ :=
  if suffix = [] then some 32
  else
    match strtol (suffix.drop 1) with
    | none => none
    | some value =>
      let cidr := (BitVec.ofInt 32 value).toInt
      if cidr > 32 then none else some cidr

/-- A pair of a destination and a gateway is added, or skipped if it is invalid. -/
def dhcpcdPair (address : BitVec 32) (s : ClasslessRoutes) (dest gateway : Bytes) :
    ClasslessRoutes :=
  match dhcpcdCidr (dest.dropWhile fun c : UInt8 => c ≠ '/') with
  | none => s
  | some cidr =>
    match inetPton (dest.takeWhile fun c : UInt8 => c ≠ '/'), inetPton gateway with
    | some addr, some route =>
      if cidr = 0 ∧ addr = 0 then { s with haveRoutes := true, gwaddr := route }
      else
        let plen := (BitVec.ofInt 32 cidr).toNat
        { s with
          haveRoutes := true
          routes := s.routes ++
            [dhcpRoute (ip4AddrClearHostAddress addr plen) (plen % 2 ^ 8) route address 0] }
    | _, _ => s

def dhcpcdLoop (address : BitVec 32) : List Bytes → ClasslessRoutes → ClasslessRoutes
  | dest :: gateway :: routes, s => dhcpcdLoop address routes (dhcpcdPair address s dest gateway)
  | _, s => s

def ip4ProcessDhcpcdRfc3442Routes (str : Bytes) (address gwaddr : BitVec 32) :
    ClasslessRoutes :=
  let routes := strsplitSet str [' ']
  let s : ClasslessRoutes := ⟨[], gwaddr, false⟩
  if routes = [] then s
  else if routes.length % 2 ≠ 0 then s
  else dhcpcdLoop address routes s

end NetworkManager.Core
