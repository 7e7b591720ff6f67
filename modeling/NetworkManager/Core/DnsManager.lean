import NetworkManager.Core.L3ConfigData
import NetworkManager.Core.ReverseDns
import NetworkManager.Core.Types
import NetworkManager.GlibAux.Strv

/-!
# The DNS manager

`NMDnsManager` has a list of configurations with DNS data, ordered by priority. For a
DNS plugin it assigns every domain to the configurations that may resolve it: a domain
that a configuration with a smaller priority value has is not for others, and a negative
priority keeps the subdomains as well.
-/

namespace NetworkManager.Core

open Lib GlibAux Platform

/-! ## The configurations -/

inductive DnsIpConfigType
  | removed
  | default
  | bestDevice
  | vpn
  deriving DecidableEq

def DnsIpConfigType.toInt : DnsIpConfigType → ℤ
  | .removed => -1
  | .default => 0
  | .bestDevice => 1
  | .vpn => 2

/-- A sealed `NML3ConfigData`. Two instances may have the same data. -/
structure SealedL3cd where
  instanceId : ℕ
  data : L3ConfigData
  deriving DecidableEq

namespace SealedL3cd

variable (l3cd : SealedL3cd)

def nameservers : AddrFamily → List String
  | .inet => l3cd.data.ip4.nameservers
  | .inet6 => l3cd.data.ip6.nameservers

def searches : AddrFamily → List String
  | .inet => l3cd.data.ip4.searches
  | .inet6 => l3cd.data.ip6.searches

def domains : AddrFamily → List String
  | .inet => l3cd.data.ip4.domains
  | .inet6 => l3cd.data.ip6.domains

def hasBestDefaultRoute : AddrFamily → Bool
  | .inet => l3cd.data.ip4.bestDefaultRoute.isSome
  | .inet6 => l3cd.data.ip6.bestDefaultRoute.isSome

def neverDefault : AddrFamily → OptionBool
  | .inet => l3cd.data.ip4.neverDefault
  | .inet6 => l3cd.data.ip6.neverDefault

/-- `nm_l3_config_data_get_dns_priority()` for one address family -/
def dnsPriority? : AddrFamily → Option ℤ
  | .inet => if l3cd.data.ip4.hasDnsPriority then some l3cd.data.ip4.dnsPriority else none
  | .inet6 => if l3cd.data.ip6.hasDnsPriority then some l3cd.data.ip6.dnsPriority else none

def dnsPriority (addrFamily : AddrFamily) : ℤ := (l3cd.dnsPriority? addrFamily).getD 0

end SealedL3cd

/-- `NMDnsConfigIPData`, without the domains that are only there during an update. -/
structure DnsConfigIpData where
  addrFamily : AddrFamily
  sourceTag : ℕ
  l3cd : SealedL3cd
  ipConfigType : DnsIpConfigType
  deriving DecidableEq

namespace DnsConfigIpData

variable (ipData : DnsConfigIpData)

def nameservers : List String := ipData.l3cd.nameservers ipData.addrFamily

def searches : List String := ipData.l3cd.searches ipData.addrFamily

def domains : List String := ipData.l3cd.domains ipData.addrFamily

def dnsPriority : ℤ := ipData.l3cd.dnsPriority ipData.addrFamily

end DnsConfigIpData

/-- `_mgr_get_ip_data_lst_cmp()`: the smaller priority first, and then the greater type. -/
def MgrGetIpDataLstCmp (a b : DnsConfigIpData) : Prop :=
  a.dnsPriority < b.dnsPriority ∨
    (a.dnsPriority = b.dnsPriority ∧ b.ipConfigType.toInt ≤ a.ipConfigType.toInt)

instance : DecidableRel MgrGetIpDataLstCmp := fun _ _ => inferInstanceAs (Decidable (_ ∨ _))

/-- `ip_data_lst_head`, with the mark that it has to be sorted. -/
structure DnsIpDataLst where
  lst : List DnsConfigIpData
  needSort : Bool
  deriving DecidableEq

def DnsIpDataLst.head (l : DnsIpDataLst) : List DnsConfigIpData :=
  if l.needSort then l.lst.insertionSort MgrGetIpDataLstCmp else l.lst

/-! ## Reverse domains -/

def getIpRdnsDomains (ipData : DnsConfigIpData) : List Bytes :=
  let strv :=
    match ipData.addrFamily with
    | .inet =>
      let ip4 := ipData.l3cd.data.ip4
      -- an IPv4 prefix has at most 128 domains
      let reverse addr plen := (getReverseDnsDomainsIp4 129 addr plen []).getD []
      (ip4.addresses.flatMap fun a => reverse a.address a.plen) ++
        ip4.routes.flatMap fun r => if r.isDefault then [] else reverse r.network r.plen
    | .inet6 =>
      let ip6 := ipData.l3cd.data.ip6
      (ip6.addresses.flatMap fun a => getReverseDnsDomainsIp6 a.address a.plen []) ++
        ip6.routes.flatMap fun r =>
          if r.isDefault then [] else getReverseDnsDomainsIp6 r.network r.plen []
  strvCleanupConst strv false true

/-! ## The domains of the configurations -/

/-- `nm_utils_parse_dns_domain()`, the domain without the mark of a routing domain. The null
pointer is for the empty string, which is not a domain. -/
def parseDnsDomain (domain : String) : Option (List Char) :=
  match domain.toList with
  | [] => none
  | '~' :: name => some name
  | name => some name

/-- The hash table of the domains that are taken, with the priority that took them. -/
abbrev DomainTrack := List Char → Option ℤ

/-- One parent of a domain: whether it shadows the domain. `none` is a failed assertion. -/
def domainTrackParentShadows (ht : DomainTrack) (parent : List Char) (priority : ℤ) :
    Option Bool :=
  match ht parent with
  | none => some false
  | some parentPriority =>
    if priority < parentPriority then none
    else some (parentPriority < 0 ∧ parentPriority < priority)

/-- The loop over the parents that follow a dot, where `rest` is still to be searched. -/
def domainTrackParentsLoop (ht : DomainTrack) (priority : ℤ) : List Char → Option Bool
  | [] => some false
  | c :: rest =>
    if c = '.' then
      if rest = [] then some false
      else
        match domainTrackParentShadows ht rest priority with
        | none => none
        | some true => some true
        | some false => domainTrackParentsLoop ht priority rest
    else domainTrackParentsLoop ht priority rest

/-- `_domain_track_is_shadowed()`, for a domain that is not tracked -/
def domainTrackIsShadowed (ht : DomainTrack) (domain : List Char) (priority : ℤ) : Option Bool :=
  if (ht domain).isSome then none
  else
    match domainTrackParentShadows ht [] priority with
    | none => none
    | some true => some true
    | some false => domainTrackParentsLoop ht priority domain

/-- The domain is taken, unless a smaller priority has it or shadows it. -/
def domainTrackAdd (ht : DomainTrack) (domain : List Char) (priority : ℤ) :
    Option (DomainTrack × Bool) :=
  let added : DomainTrack := fun d => if d = domain then some priority else ht d
  match ht domain with
  | some oldPriority =>
    if priority < oldPriority then none
    else if oldPriority < priority then some (ht, false)
    else some (added, true)
  | none =>
    match domainTrackIsShadowed ht domain priority with
    | none => none
    | some true => some (ht, false)
    | some false => some (added, true)

/-- `ip_data->domains`. The lists are empty where the code has a null pointer. -/
structure DnsConfigDomains where
  search : List String
  reverse : List Bytes
  hasDefaultRouteExplicit : Bool
  hasDefaultRouteExclusive : Bool
  hasDefaultRoute : Bool
  deriving DecidableEq

def DnsConfigDomains.empty : DnsConfigDomains := ⟨[], [], false, false, false⟩

namespace DnsConfigIpData

/-- The configuration gets the domain for everything else: it has a default route, or it is
a VPN that should have one and has no domains. -/
def addWildcard (ipData : DnsConfigIpData) : Bool :=
  ipData.nameservers ≠ [] ∧
    (ipData.l3cd.hasBestDefaultRoute ipData.addrFamily ∨
      (ipData.ipConfigType = .vpn ∧ ipData.l3cd.neverDefault ipData.addrFamily = .false ∧
        ipData.searches = [] ∧ ipData.domains = []))

def hasDefaultRouteMaybe (wildcardEntries : List DnsConfigIpData) (ipData : DnsConfigIpData) :
    Bool :=
  if wildcardEntries ≠ [] then ipData ∈ wildcardEntries else ipData.ipConfigType ≠ .vpn

def askedDomains (ipData : DnsConfigIpData) : List String :=
  if ipData.searches ≠ [] then ipData.searches else ipData.domains

end DnsConfigIpData

/-- The loop over the domains of a configuration. -/
structure DomainsLoop where
  ht : DomainTrack
  domains : List String
  hasDefaultRouteExplicit : Bool

def domainsLoopStep (priority : ℤ) (s : DomainsLoop) (domainFull : String) :
    Option DomainsLoop := do
  let domainClean ← parseDnsDomain domainFull
  let (ht, keep) ← domainTrackAdd s.ht domainClean priority
  if keep then
    some ⟨ht, s.domains ++ [domainFull], s.hasDefaultRouteExplicit || domainClean = []⟩
  else some { s with ht }

def domainsLoopAuto (priority : ℤ) (hasDefaultRouteMaybe : Bool) (s : DomainsLoop) :
    Option (DomainTrack × Bool) :=
  if !hasDefaultRouteMaybe || s.hasDefaultRouteExplicit then some (s.ht, false)
  else domainTrackAdd s.ht [] priority

/-- The domains of one configuration, which has the given priority. -/
def configDomains (wildcardEntries : List DnsConfigIpData) (ht : DomainTrack)
    (ipData : DnsConfigIpData) : Option (DomainTrack × DnsConfigDomains) := do
  let priority := ipData.dnsPriority
  let s ← ipData.askedDomains.foldlM (domainsLoopStep priority) ⟨ht, [], false⟩
  let (ht, hasDefaultRouteAuto) ←
    domainsLoopAuto priority (ipData.hasDefaultRouteMaybe wildcardEntries) s
  let exclusive := s.hasDefaultRouteExplicit || (priority < 0 && hasDefaultRouteAuto)
  return (ht,
    { search := s.domains
      reverse := getIpRdnsDomains ipData
      hasDefaultRouteExplicit := s.hasDefaultRouteExplicit
      hasDefaultRouteExclusive := exclusive
      hasDefaultRoute := exclusive || hasDefaultRouteAuto })

/-- The configurations in the course of the pass. -/
structure ConfigsLoop where
  ht : DomainTrack
  prevPriority : ℤ
  configs : List (DnsConfigIpData × DnsConfigDomains)

def configsLoopStep (wildcardEntries : List DnsConfigIpData) (s : ConfigsLoop)
    (ipData : DnsConfigIpData) : Option ConfigsLoop :=
  if ipData.nameservers = [] then some { s with configs := s.configs ++ [(ipData, .empty)] }
  else if ipData.dnsPriority < s.prevPriority then none
  else do
    let (ht, domains) ← configDomains wildcardEntries s.ht ipData
    return ⟨ht, ipData.dnsPriority, s.configs ++ [(ipData, domains)]⟩

/-- `_mgr_configs_data_construct()`: the domains of every configuration. -/
def mgrConfigsDataConstruct (l : DnsIpDataLst) :
    Option (List (DnsConfigIpData × DnsConfigDomains)) :=
  let wildcardEntries := l.head.filter DnsConfigIpData.addWildcard
  (l.head.foldlM (configsLoopStep wildcardEntries) ⟨fun _ => none, -2 ^ 31, []⟩).map
    ConfigsLoop.configs

end NetworkManager.Core
