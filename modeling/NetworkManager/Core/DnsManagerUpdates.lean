import NetworkManager.Core.DnsManager
import NetworkManager.Lib.Runs

/-!
# The data for resolv.conf

What `NMDnsManager` collects from the global configuration, the configurations of the interfaces
and the host domain, and how the presence of a caching plugin changes it. The parsers of libc,
the list of public suffixes and the names of the interfaces are parameters.
-/

namespace NetworkManager.Core

/-! ## The environment -/

open List

/-- `NMIPAddr` of one address family. -/
abbrev IpAddr : AddrFamily → Type
  | .inet => BitVec 32
  | .inet6 => BitVec 128

/-- `NMGlobalDnsDomain`. A null pointer to a list is `none`. -/
structure GlobalDnsDomain where
  name : String
  servers : Option (List String)
  options : Option (List String)
  deriving DecidableEq

/-- `NMGlobalDnsConfig`, with the domains in the order of `domain_list`. -/
structure GlobalDnsConfig where
  searches : Option (List String)
  options : Option (List String)
  domains : Option (List GlobalDnsDomain)
  deriving DecidableEq

def GlobalDnsConfig.lookupDomain (global : GlobalDnsConfig) (name : String) :
    Option GlobalDnsDomain :=
  (global.domains.getD []).find? fun domain => domain.name = name

/-- What the manager has to know of its plugin. -/
structure DnsPlugin where
  isCaching : Bool
  isSystemdResolved : Bool
  deriving DecidableEq

/-- What does not change while the manager works. -/
structure DnsEnv where
  globalConfig : Option GlobalDnsConfig
  plugin : Option DnsPlugin
  sdResolvePlugin : Bool
  inetPton : (addrFamily : AddrFamily) → String → Option (IpAddr addrFamily)
  inetNtop : (addrFamily : AddrFamily) → IpAddr addrFamily → String
  /-- `nm_platform_link_get_name()` -/
  linkGetName : ℤ → Option String
  /-- `psl_is_public_suffix2()` with `PSL_TYPE_NO_STAR_RULE` -/
  pslIsPublicSuffix : String → Bool

def DnsEnv.hasPlugin (env : DnsEnv) : Bool := env.plugin.isSome || env.sdResolvePlugin

def DnsEnv.globalWildcard (env : DnsEnv) : Bool :=
  (env.globalConfig.bind fun global => global.lookupDomain "*").isSome

/-- An update depends on the configurations. -/
def DnsEnv.readsConfigs (env : DnsEnv) : Bool := env.hasPlugin || !env.globalWildcard

section Update

variable (env : DnsEnv)

/-! ## Strings -/

def addStringItem (array : List String) (str : String) : List String :=
  if str ∈ array then array else array ++ [str]

def decimalValue (digits : List Char) : ℕ :=
  digits.foldl (fun n c => 10 * n + (c.toNat - '0'.toNat)) 0

/-- The name of an option, if `_nm_utils_dns_option_validate()` accepts it. -/
def dnsOptionName (option : String) : Option String :=
  let name := option.toList.takeWhile (· ≠ ':')
  match option.toList.dropWhile (· ≠ ':') with
  | [] => if name = [] then none else some option
  | _ :: value =>
    if value ≠ [] ∧ value.all Char.isDigit ∧ name ≠ [] ∧ decimalValue value < 2 ^ 31 then
      some (String.ofList name)
    else none

/-- `_nm_utils_dns_option_find_idx()` finds the option. -/
def dnsOptionFound (strv : List String) (option : String) : Bool :=
  match dnsOptionName option with
  | none => false
  | some name => strv.any fun str => dnsOptionName str = some name

def addDnsOptionItem (array : List String) (str : String) : List String :=
  if dnsOptionFound array str then array else array ++ [str]

def domainIsRouting (domain : String) : Bool := domain.toList.head? = some '~'

/-- `domain_is_valid()`, where `assume_any_tld_is_public` only matters if public suffixes are
rejected. -/
def domainIsValid (domain : List Char) (rejectPublicSuffix : Bool) : Bool :=
  domain ≠ [] && !(rejectPublicSuffix && env.pslIsPublicSuffix (String.ofList domain))

/-- `nm_utils_dnsname_parse()`: an address that the name of the server may follow. -/
def dnsnameParse (addrFamily : AddrFamily) (dns : String) : Option (IpAddr addrFamily) :=
  if dns.toList.dropWhile (· ≠ '#') = ['#'] then none
  else env.inetPton addrFamily (String.ofList (dns.toList.takeWhile (· ≠ '#')))

/-- The name server, as it is written to resolv.conf. -/
def nameserverString (ifindex : ℤ) : (addrFamily : AddrFamily) → IpAddr addrFamily → String
  | .inet, addr => env.inetNtop .inet addr
  | .inet6, addr =>
    -- `IN6_IS_ADDR_V4MAPPED()`
    if addr >>> 32 = (0xffff : BitVec 128) then env.inetNtop .inet (addr.setWidth 32)
    -- `IN6_IS_ADDR_LINKLOCAL()`
    else if addr >>> 118 = (0x3fa : BitVec 128) then
      match env.linkGetName ifindex with
      | some ifname => env.inetNtop .inet6 addr ++ "%" ++ ifname
      | none => env.inetNtop .inet6 addr
    else env.inetNtop .inet6 addr

/-! ## Collecting -/

def dnsOptionTrustAd : String := "trust-ad"

def dnsOptionEdns0 : String := "edns0"

def dnsOptionInternalNoAddTrustAd : String := "_no-add-trust-ad"

def dnsOptionInternalNoAddEdns0 : String := "_no-add-edns0"

structure ResolvConfData where
  nameservers : List String
  searches : List String
  options : List String
  nisDomain : Option String
  nisServers : List String
  hasTrustAd : Ternary
  deriving DecidableEq

def ResolvConfData.empty : ResolvConfData := ⟨[], [], [], none, [], .default⟩

def mergeGlobalDnsConfig (rc : ResolvConfData) (global : GlobalDnsConfig) : ResolvConfData :=
  let searches := (global.searches.getD []).filter fun search =>
    !domainIsRouting search && domainIsValid env search.toList false
  let servers := ((global.lookupDomain "*").bind GlobalDnsDomain.servers).getD []
  { rc with
    searches := searches.foldl addStringItem rc.searches
    options := (global.options.getD []).foldl addStringItem rc.options
    nameservers := servers.foldl addStringItem rc.nameservers }

/-- One domain of `add_dns_domains()`, which leaves out routing domains. A null pointer is
dereferenced if the domain is empty. -/
def addDnsDomainsStep (array : List String) (str : String) : Option (List String) :=
  if domainIsRouting str then some array
  else
    (parseDnsDomain str).map fun domain =>
      if domainIsValid env domain false then addStringItem array str else array

def addDnsDomains (array domains searches : List String) : Option (List String) := do
  let array ← searches.foldlM (addDnsDomainsStep env) array
  if domains.length > 1 ∨ searches = [] then domains.foldlM (addDnsDomainsStep env) array
  else return array

/-- `has_trust_ad` after one configuration: all configurations with name servers have to agree. -/
def mergeTrustAd (hasTrustAd : Ternary) (nameservers dnsOptions : List String) : Ternary :=
  if nameservers = [] then hasTrustAd
  else if dnsOptionTrustAd ∈ dnsOptions then
    if hasTrustAd = .default then .true else hasTrustAd
  else .false

namespace DnsConfigIpData

variable (ipData : DnsConfigIpData)

def dnsOptions : List String :=
  match ipData.addrFamily with
  | .inet => ipData.l3cd.data.ip4.dnsOptions
  | .inet6 => ipData.l3cd.data.ip6.dnsOptions

def nisServers : List (BitVec 32) :=
  if ipData.addrFamily = .inet then ipData.l3cd.data.nisServers else []

def nisDomain : Option String :=
  if ipData.addrFamily = .inet then ipData.l3cd.data.nisDomain else none

def ifindex : ℤ := ipData.l3cd.data.ifindex

end DnsConfigIpData

def mergeOneL3cd (rc : ResolvConfData) (ipData : DnsConfigIpData) : Option ResolvConfData := do
  let nameservers := ipData.nameservers.filterMap fun dns =>
    (dnsnameParse env ipData.addrFamily dns).map
      (nameserverString env ipData.ifindex ipData.addrFamily)
  let searches ← addDnsDomains env rc.searches ipData.domains ipData.searches
  return {
    nameservers := nameservers.foldl addStringItem rc.nameservers
    searches
    options := (ipData.dnsOptions.filter (· ≠ dnsOptionTrustAd)).foldl addDnsOptionItem rc.options
    nisDomain := rc.nisDomain.or ipData.nisDomain
    nisServers := (ipData.nisServers.map (env.inetNtop .inet)).foldl addStringItem rc.nisServers
    hasTrustAd := mergeTrustAd rc.hasTrustAd ipData.nameservers ipData.dnsOptions }

/-- The configurations that count: if the first priority is negative, only those that have it. -/
def effectiveConfigs (head : List DnsConfigIpData) : List DnsConfigIpData :=
  match head with
  | [] => []
  | first :: rest =>
    first :: rest.filter fun ipData =>
      !(first.dnsPriority < 0 && first.dnsPriority ≠ ipData.dnsPriority)

def mergeConfigs (rc : ResolvConfData) (head : List DnsConfigIpData) : Option ResolvConfData :=
  if env.globalWildcard then some rc else (effectiveConfigs head).foldlM (mergeOneL3cd env) rc

def collectResolvConfData (head : List DnsConfigIpData) (hostdomain : Option String) :
    Option ResolvConfData :=
  let rc :=
    match env.globalConfig with
    | none => .empty
    | some global => mergeGlobalDnsConfig env .empty global
  (mergeConfigs env rc head).map fun rc =>
    { rc with
      searches := hostdomain.elim rc.searches (addStringItem rc.searches)
      options := if rc.hasTrustAd = .true then rc.options ++ [dnsOptionTrustAd] else rc.options }

/-! ## The update -/

/-- What `update_dns()` computes: the content of the resolv.conf without a stub resolver and of
resolv.conf, the NIS data, and the domains of every configuration. -/
structure DnsUpdate where
  searches : List String
  noStubNameservers : List String
  noStubOptions : List String
  nameservers : List String
  options : List String
  nisServers : List String
  nisDomain : Option String
  domains : List (AddrFamily × ℤ × DnsConfigDomains)
  deriving DecidableEq

/-- The options that a caching plugin wants. -/
def cachingOptions (options : List String) : List String :=
  let needEdns0 := dnsOptionEdns0 ∉ options ∧ dnsOptionInternalNoAddEdns0 ∉ options
  let needTrust := dnsOptionTrustAd ∉ options ∧ dnsOptionInternalNoAddTrustAd ∉ options
  options ++ (if needEdns0 then [dnsOptionEdns0] else []) ++
    if needTrust then [dnsOptionTrustAd] else []

/-- The name servers and options of resolv.conf: a caching plugin, whose update succeeds, is the
only name server. Internal options are left out. -/
def stubResolvConf (rc : ResolvConfData) : List String × List String :=
  let (nameservers, options) :=
    match env.plugin with
    | some plugin =>
      if plugin.isCaching then
        ([if plugin.isSystemdResolved then "127.0.0.53" else "127.0.1.1"],
          cachingOptions rc.options)
      else (rc.nameservers, rc.options)
    | none => (rc.nameservers, rc.options)
  (nameservers, options.filter fun option => option.toList.head? ≠ some '_')

/-- The domains of the configurations, by address family and interface. -/
def domainAssignment (l : DnsIpDataLst) : Option (List (AddrFamily × ℤ × DnsConfigDomains)) :=
  if env.hasPlugin then
    (mgrConfigsDataConstruct l).map fun configs =>
      configs.map fun r => (r.1.addrFamily, r.1.ifindex, r.2)
  else some []

/-- The computation of `update_dns()` -/
def dnsUpdate (l : DnsIpDataLst) (hostdomain : Option String) : Option DnsUpdate := do
  let rc ← collectResolvConfData env l.head hostdomain
  let domains ← domainAssignment env l
  let (nameservers, options) := stubResolvConf env rc
  return {
    searches := rc.searches
    noStubNameservers := rc.nameservers
    noStubOptions := rc.options
    nameservers
    options
    nisServers := rc.nisServers
    nisDomain := rc.nisDomain
    domains }

end Update

/-!
## When the DNS manager updates

`NMDnsManager` with the calls that change what it updates with: `nm_dns_manager_set_ip_config()`,
`nm_dns_manager_set_hostname()` and the batches of updates. Whether `update_dns()` runs is decided
by a comparison of two configurations, by a flag, and at the end of a batch by a hash. No two
inputs of the hash have the same value, so that the hash is its input here.
-/

/-! ## The hash -/

/-- An `int` in memory -/
def intBytes (val : ℤ) : List UInt8 :=
  let v := BitVec.ofInt 32 val
  [0, 8, 16, 24].map fun i => UInt8.ofBitVec ((v >>> i).setWidth 8)

/-- An `in_addr_t` in memory -/
def inAddrBytes (addr : BitVec 32) : List UInt8 :=
  [24, 16, 8, 0].map fun i => UInt8.ofBitVec ((addr >>> i).setWidth 8)

def stringBytes (s : String) : List UInt8 := s.toList.flatMap String.utf8EncodeChar

def ConnectionMdns.toInt : ConnectionMdns → ℤ
  | .default => -1
  | .no => 0
  | .resolve => 1
  | .yes => 2

def ConnectionLlmnr.toInt : ConnectionLlmnr → ℤ
  | .default => -1
  | .no => 0
  | .resolve => 1
  | .yes => 2

def ConnectionDnsOverTls.toInt : ConnectionDnsOverTls → ℤ
  | .default => -1
  | .no => 0
  | .opportunistic => 1
  | .yes => 2

/-- `nm_l3_config_data_hash_dns()`. The data of a configuration without any is not hashed. -/
def l3ConfigDataHashDns (ipData : DnsConfigIpData) : List UInt8 :=
  let d := ipData.l3cd.data
  let wins := if ipData.addrFamily = .inet then d.wins else []
  let strings := ipData.nameservers.flatMap stringBytes ++ wins.flatMap inAddrBytes ++
    ipData.domains.flatMap stringBytes ++ ipData.searches.flatMap stringBytes ++
      ipData.dnsOptions.flatMap stringBytes
  let settings := (if d.mdns ≠ .default then intBytes d.mdns.toInt else []) ++
    (if d.llmnr ≠ .default then intBytes d.llmnr.toInt else []) ++
      if d.dnsOverTls ≠ .default then intBytes d.dnsOverTls.toInt else []
  if ipData.nameservers = [] ∧ wins = [] ∧ ipData.domains = [] ∧ ipData.searches = [] ∧
      ipData.dnsOptions = [] ∧ d.mdns = .default ∧ d.llmnr = .default ∧
        d.dnsOverTls = .default then []
  else
    strings ++ settings ++ intBytes ipData.ipConfigType.toInt ++ intBytes ipData.dnsPriority

def strvBytes (strv : Option (List String)) : List UInt8 :=
  (strv.getD []).flatMap fun s => stringBytes s ++ [0]

def hashCombineBools (bools : List Bool) : UInt8 :=
  bools.foldr (fun b v => 2 * v + if b then 1 else 0) 0

def globalDnsConfigUpdateChecksum (global : GlobalDnsConfig) : List UInt8 :=
  hashCombineBools [global.searches.isNone, global.options.isNone, global.domains.isNone] ::
    (strvBytes global.searches ++ strvBytes global.options ++
      (global.domains.getD []).flatMap fun domain =>
        hashCombineBools [domain.servers.isNone, domain.options.isNone] ::
          (stringBytes domain.name ++ [0] ++ strvBytes domain.servers ++ strvBytes domain.options))

section Manager

variable (env : DnsEnv)

def computeHash (global : Option GlobalDnsConfig) (l : DnsIpDataLst) : List UInt8 :=
  global.elim [] globalDnsConfigUpdateChecksum ++
    if (global.bind fun g => g.lookupDomain "*").isSome then []
    else l.head.flatMap l3ConfigDataHashDns

/-! ## The domain of the host -/

def hostNameMax : ℕ := 64

def validLdhChar (c : Char) : Bool :=
  ('a' ≤ c ∧ c ≤ 'z') ∨ ('A' ≤ c ∧ c ≤ 'Z') ∨ ('0' ≤ c ∧ c ≤ '9') ∨ c = '-'

/-- The loop of `nm_hostname_is_valid()`, and what is checked after it, for a name that may not
end with a dot. -/
def hostnameIsValidLoop (dot hyphen : Bool) : List Char → Bool
  | [] => !dot && !hyphen
  | c :: s =>
    if c = '.' then !(dot || hyphen) && hostnameIsValidLoop true false s
    else if c = '-' then !dot && hostnameIsValidLoop false true s
    else validLdhChar c && hostnameIsValidLoop false false s

/-- `nm_hostname_is_valid()` without a trailing dot -/
def hostnameIsValid (s : List Char) : Bool :=
  s ≠ [] && hostnameIsValidLoop true true s && s.length ≤ hostNameMax

/-- The names of `nm_utils_is_localhost()` -/
def localhostNames : List String :=
  ["localhost", "localhost4", "localhost6", "localhost.localdomain", "localhost4.localdomain4",
    "localhost6.localdomain6"]

/-- `nm_utils_is_localhost()`: one of the names, or one of them after a dot. One trailing dot does
not matter. -/
def isLocalhost (name : List Char) : Bool :=
  let name := (if name.getLast? = some '.' then name.dropLast else name).map Char.toLower
  localhostNames.any fun n => n.toList = name || ('.' :: n.toList).isSuffixOf name

def isSpecificHostname (name : String) : Bool :=
  name ≠ "" && name ≠ "(none)" && !isLocalhost name.toList

/-- `nm_inet_is_valid()` for any address family -/
def inetIsValid (text : String) : Bool :=
  if ':' ∈ text.toList then (env.inetPton .inet6 text).isSome
  else (env.inetPton .inet text).isSome

/-- The domain that `nm_dns_manager_set_hostname()` finds in the name: what follows the first dot,
or the whole name if that is a public suffix. -/
def hostnameDomain (hostname : String) : Option String :=
  if isSpecificHostname hostname && !".in-addr.arpa".toList.isSuffixOf hostname.toList &&
      !inetIsValid env hostname then
    match hostname.toList.dropWhile (· ≠ '.') with
    | [] => none
    | _ :: domain =>
      let domain :=
        if !domainIsValid env domain true && domainIsValid env hostname.toList true then
          hostname.toList
        else domain
      if hostnameIsValid domain then some (String.ofList domain) else none
  else none

/-! ## The manager -/

/-- What identifies an `NMDnsConfigIPData`. -/
structure DnsIpDataKey where
  addrFamily : AddrFamily
  sourceTag : ℕ
  l3cd : SealedL3cd
  deriving DecidableEq

def DnsConfigIpData.key (ipData : DnsConfigIpData) : DnsIpDataKey :=
  ⟨ipData.addrFamily, ipData.sourceTag, ipData.l3cd⟩

/-- `NMDnsManager`, with the result of the last update and what it was computed from. -/
structure DnsManager where
  ipDataLst : DnsIpDataLst
  bestIpConfig4 : Option DnsIpDataKey
  bestIpConfig6 : Option DnsIpDataKey
  configChanged : Bool
  hostdomain : Option String
  updatesQueue : ℕ
  hash : List UInt8
  prevHash : List UInt8
  lastUpdate : Option DnsUpdate
  lastIpDataLst : DnsIpDataLst
  lastHostdomain : Option String

def DnsIpDataLst.empty : DnsIpDataLst := ⟨[], false⟩

/-- `_mgr_get_ip_data_lst_head()` has sorted the list. -/
def DnsIpDataLst.sort (l : DnsIpDataLst) : DnsIpDataLst := ⟨l.head, false⟩

namespace DnsManager

/-- `nm_dns_manager_init()` -/
def start : DnsManager where
  ipDataLst := .empty
  bestIpConfig4 := none
  bestIpConfig6 := none
  configChanged := false
  hostdomain := none
  updatesQueue := 0
  hash := computeHash none .empty
  prevHash := []
  lastUpdate := none
  lastIpDataLst := .empty
  lastHostdomain := none

def updateDns (s : DnsManager) : Option DnsManager :=
  (dnsUpdate env s.ipDataLst s.hostdomain).map fun update =>
    { s with
      configChanged := false
      ipDataLst := s.ipDataLst.sort
      hash := computeHash env.globalConfig s.ipDataLst
      lastUpdate := some update
      lastIpDataLst := s.ipDataLst
      lastHostdomain := s.hostdomain }

def maybeUpdateDns (s : DnsManager) : Option DnsManager :=
  if s.updatesQueue = 0 then s.updateDns env else some s

/-! ## The configurations -/

/-- `best_ip_config_4` and `best_ip_config_6` -/
def bestIpConfig (s : DnsManager) : AddrFamily → Option DnsIpDataKey
  | .inet => s.bestIpConfig4
  | .inet6 => s.bestIpConfig6

def setBestIpConfig (s : DnsManager) (best : Option DnsIpDataKey) : AddrFamily → DnsManager
  | .inet => { s with bestIpConfig4 := best }
  | .inet6 => { s with bestIpConfig6 := best }

/-- The arguments of `nm_dns_manager_set_ip_config()` for one address family. -/
structure SetIpConfig where
  addrFamily : AddrFamily
  sourceTag : ℕ
  l3cd : SealedL3cd
  ipConfigType : DnsIpConfigType
  replaceAll : Bool
  deriving DecidableEq

namespace SetIpConfig

variable (c : SetIpConfig)

/-- The `NMDnsConfigIPData` that the call creates. -/
def ipData : DnsConfigIpData := ⟨c.addrFamily, c.sourceTag, c.l3cd, c.ipConfigType⟩

/-- A configuration that stays, because it is of the same `NML3ConfigData`. -/
def IsSame (d : DnsConfigIpData) : Prop :=
  c.ipConfigType ≠ .removed ∧ d.key = c.ipData.key

/-- A configuration that the call frees. -/
def Frees (d : DnsConfigIpData) : Prop :=
  d.ifindex = c.l3cd.data.ifindex ∧ d.sourceTag = c.sourceTag ∧ d.addrFamily = c.addrFamily ∧
    ¬ c.IsSame d ∧ (c.replaceAll ∨ d.l3cd = c.l3cd)

instance : DecidablePred c.IsSame := fun _ => inferInstanceAs (Decidable (_ ∧ _))

instance : DecidablePred c.Frees := fun _ => inferInstanceAs (Decidable (_ ∧ _))

/-- `NM_L3_CONFIG_CMP_FLAGS_DNS | NM_L3_CONFIG_CMP_FLAGS_ROUTES_ID` -/
def cmpFlags : CmpFlags := ⟨false, false, false, true, false, true, false⟩

/-- Whether it is a change that a configuration is freed. The comparison may dereference a null
pointer. -/
def freeChanges (d : DnsConfigIpData) : Option Bool :=
  if c.ipConfigType = .removed then some true
  else
    (L3ConfigData.cmpFull (some c.l3cd.data) (some d.l3cd.data) cmpFlags).map fun cmp =>
      cmp ≠ .eq

def freesChange (freed : List DnsConfigIpData) : Option Bool :=
  freed.foldlM (fun changed d => (c.freeChanges d).map fun b => b || changed) false

end SetIpConfig

/-- The configurations without those that the call frees. -/
def free (c : SetIpConfig) (s : DnsManager) : DnsManager :=
  let freed := s.ipDataLst.lst.filter c.Frees
  let keep (best : Option DnsIpDataKey) := best.filter fun key => key ∉ freed.map (·.key)
  { s with
    ipDataLst := { s.ipDataLst with lst := s.ipDataLst.lst.filter fun d => ¬ c.Frees d }
    bestIpConfig4 := keep s.bestIpConfig4
    bestIpConfig6 := keep s.bestIpConfig6 }

/-- Change the type of one configuration. -/
def setType (key : Option DnsIpDataKey) (type : DnsIpConfigType) (s : DnsManager) : DnsManager :=
  { s with
    ipDataLst :=
      { s.ipDataLst with
        lst := s.ipDataLst.lst.map fun d =>
          if key = some d.key then { d with ipConfigType := type } else d } }

def putIpData (c : SetIpConfig) (found : Bool) (s : DnsManager) : DnsManager :=
  if found then s.setType (some c.ipData.key) c.ipConfigType
  else { s with ipDataLst := ⟨s.ipDataLst.lst ++ [c.ipData], true⟩ }

/-- Only one best device is allowed. -/
def updateBest (c : SetIpConfig) (s : DnsManager) : DnsManager :=
  let key := some c.ipData.key
  let best := s.bestIpConfig c.addrFamily
  if c.ipConfigType = .bestDevice then
    if best ≠ key then (s.setType best .default).setBestIpConfig key c.addrFamily else s
  else if best = key then s.setBestIpConfig none c.addrFamily
  else s

/-- The configurations after the call, and whether they are said to have changed. -/
def setIpData (c : SetIpConfig) (s : DnsManager) : Option (DnsManager × Bool) :=
  let freed := s.ipDataLst.lst.filter c.Frees
  (c.freesChange freed).map fun changed =>
    let s := s.free c
    let found := s.ipDataLst.lst.find? fun d => c.IsSame d
    if c.ipConfigType = .removed ∨
        (found.map DnsConfigIpData.ipConfigType = some c.ipConfigType) ∨
          c.l3cd.dnsPriority c.addrFamily = 0 then (s, changed)
    else
      let changed := changed || (found.isSome || freed = [])
      let s := (s.putIpData c found.isSome).updateBest c
      (if changed then { s with ipDataLst := { s.ipDataLst with needSort := true } } else s,
        changed)

/-- `nm_dns_manager_set_ip_config()` for one address family -/
def setIpConfig (c : SetIpConfig) (s : DnsManager) : Option DnsManager :=
  (s.setIpData c).bind fun (s, changed) =>
    if changed then maybeUpdateDns env { s with configChanged := true } else some s

/-! ## The other calls -/

/-- `nm_dns_manager_set_hostname()`, with an update -/
def setHostname (hostname : Option String) (s : DnsManager) : Option DnsManager :=
  let domain := hostname.bind (hostnameDomain env)
  if domain = s.hostdomain then some s else maybeUpdateDns env { s with hostdomain := domain }

def beginUpdates (s : DnsManager) : DnsManager :=
  { s with
    prevHash := if s.updatesQueue = 0 then s.hash else s.prevHash
    updatesQueue := s.updatesQueue + 1 }

/-- The hash tells whether a batch has changed anything. -/
def endBatch (s : DnsManager) : DnsManager :=
  { s with
    ipDataLst := if env.globalWildcard then s.ipDataLst else s.ipDataLst.sort
    configChanged := computeHash env.globalConfig s.ipDataLst ≠ s.prevHash
    updatesQueue := s.updatesQueue - 1 }

def endUpdates (s : DnsManager) : Option DnsManager :=
  if s.updatesQueue = 0 then some s
  else
    let t := s.endBatch env
    if t.updatesQueue > 0 ∨ ¬ t.configChanged then some t else t.updateDns env

end DnsManager

/-- The calls. Without an address family, a configuration is set for both. -/
inductive DnsManagerEvent
  | setIpConfig (addrFamily : Option AddrFamily) (sourceTag : ℕ) (l3cd : Option SealedL3cd)
      (ipConfigType : DnsIpConfigType) (replaceAll : Bool)
  | setHostname (hostname : Option String)
  | beginUpdates
  | endUpdates
  deriving DecidableEq

/-- The calls for one address family that an event consists of. Nothing is done without an
`NML3ConfigData`. -/
def DnsManagerEvent.setIpConfigs : DnsManagerEvent → List DnsManager.SetIpConfig
  | .setIpConfig addrFamily sourceTag l3cd ipConfigType replaceAll =>
    l3cd.toList.flatMap fun l3cd =>
      (addrFamily.elim [.inet, .inet6] ([·])).map fun f =>
        ⟨f, sourceTag, l3cd, ipConfigType, replaceAll⟩
  | .setHostname _ | .beginUpdates | .endUpdates => []

/-- One call. `none` is a null pointer that was dereferenced, or a failed assertion. -/
def DnsManager.step (s : DnsManager) (e : DnsManagerEvent) : Option DnsManager :=
  match e with
  | .setIpConfig .. => e.setIpConfigs.foldlM (fun s c => s.setIpConfig env c) s
  | .setHostname hostname => s.setHostname env hostname
  | .beginUpdates => some s.beginUpdates
  | .endUpdates => s.endUpdates env

end Manager

/-!
## What an update reads

The result of `update_dns()` is a function of some data of every configuration, in the order of
the list, and of the host domain. Two lists that agree in these data give the same update.
-/

open Lib

/-! ## The data of a configuration -/

/-- What the domains of a configuration depend on, besides its domains and its priority. -/
structure DomainReads where
  isVpn : Bool
  addWildcard : Bool
  reverse : List Bytes
  deriving DecidableEq

structure ResolvConfReads where
  addrFamily : AddrFamily
  ifindex : ℤ
  dnsPriority : ℤ
  nameservers : List String
  searches : List String
  domains : List String
  dnsOptions : List String
  nisServers : List (BitVec 32)
  nisDomain : Option String
  deriving DecidableEq

namespace DnsConfigIpData

def domainReads (d : DnsConfigIpData) : DomainReads where
  isVpn := d.ipConfigType = .vpn
  addWildcard := d.addWildcard
  reverse := getIpRdnsDomains d

def resolvConfReads (d : DnsConfigIpData) : ResolvConfReads where
  addrFamily := d.addrFamily
  ifindex := d.ifindex
  dnsPriority := d.dnsPriority
  nameservers := d.nameservers
  searches := d.searches
  domains := d.domains
  dnsOptions := d.dnsOptions
  nisServers := d.nisServers
  nisDomain := d.nisDomain

/-- Two configurations that an update cannot tell apart. Without name servers, a plugin gets no
domains. -/
structure ReadsAs (env : DnsEnv) (a b : DnsConfigIpData) : Prop where
  resolvConf : a.resolvConfReads = b.resolvConfReads
  domain : env.hasPlugin → b.nameservers ≠ [] → a.domainReads = b.domainReads

instance ReadsAs.decidable (env : DnsEnv) (a b : DnsConfigIpData) : Decidable (ReadsAs env a b) :=
  decidable_of_iff
    (a.resolvConfReads = b.resolvConfReads ∧
      (env.hasPlugin → b.nameservers ≠ [] → a.domainReads = b.domainReads))
    ⟨fun ⟨h₁, h₂⟩ => ⟨h₁, h₂⟩, fun ⟨h₁, h₂⟩ => ⟨h₁, h₂⟩⟩

variable {env : DnsEnv} {a b c : DnsConfigIpData}

theorem ReadsAs.refl (a : DnsConfigIpData) : ReadsAs env a a := ⟨rfl, fun _ _ => rfl⟩

theorem ReadsAs.trans (hab : ReadsAs env a b) (hbc : ReadsAs env b c) : ReadsAs env a c where
  resolvConf := hab.resolvConf.trans hbc.resolvConf
  domain hp hne := by
    have hnameservers : b.nameservers = c.nameservers :=
      congrArg ResolvConfReads.nameservers hbc.resolvConf
    exact (hab.domain hp (hnameservers ▸ hne)).trans (hbc.domain hp hne)

end DnsConfigIpData

open DnsConfigIpData

variable {env : DnsEnv} {a b : DnsConfigIpData} {l l' : DnsIpDataLst} {hd : Option String}
  {head head' entries' entries : List DnsConfigIpData}

/-! ## resolv.conf -/

theorem mergeOneL3cd_congr (h : a.resolvConfReads = b.resolvConfReads) (rc : ResolvConfData) :
    mergeOneL3cd env rc a = mergeOneL3cd env rc b := by
  obtain ⟨hfamily, hifindex, -, hnameservers, hsearches, hdomains, hoptions, hservers, hdomain⟩ :=
    ResolvConfReads.mk.inj h
  unfold mergeOneL3cd
  rw [hnameservers, hifindex, hfamily, hsearches, hdomains, hoptions, hservers, hdomain]

theorem effectiveConfigs_congr (h : List.Forall₂ (ReadsAs env) head head') :
    List.Forall₂ (ReadsAs env) (effectiveConfigs head) (effectiveConfigs head') := by
  cases h with
  | nil => exact .nil
  | @cons first first' rest rest' hfirst hrest =>
    have hpriority {a b : DnsConfigIpData} (hab : ReadsAs env a b) :
        a.dnsPriority = b.dnsPriority := congrArg ResolvConfReads.dnsPriority hab.resolvConf
    refine .cons hfirst (rel_filter ?_ hrest)
    intro a b hab
    simp only [hpriority hfirst, hpriority hab]

theorem collectResolvConfData_congr (hd : Option String) (h : List.Forall₂ (ReadsAs env) head head') :
    collectResolvConfData env head hd = collectResolvConfData env head' hd := by
  have hmerge (rc : ResolvConfData) :
      (effectiveConfigs head).foldlM (mergeOneL3cd env) rc =
        (effectiveConfigs head').foldlM (mergeOneL3cd env) rc := by
    have hstep : ∀ rc rc', id rc = id rc' → ∀ a ∈ effectiveConfigs head,
        ∀ b ∈ effectiveConfigs head', ReadsAs env a b →
          (mergeOneL3cd env rc a).map id = (mergeOneL3cd env rc' b).map id := by
      intro rc rc' hrc a _ b _ hab
      obtain rfl : rc = rc' := hrc
      rw [mergeOneL3cd_congr hab.resolvConf]
    have hfold := foldlM_map_congr hstep (effectiveConfigs_congr h) (rfl : id rc = id rc)
    simpa using hfold
  unfold collectResolvConfData mergeConfigs
  simp only [hmerge]

/-! ## The domains of the configurations -/

def DnsConfigIpData.withDomains (r : DnsConfigIpData × DnsConfigDomains) :
    AddrFamily × ℤ × DnsConfigDomains :=
  (r.1.addrFamily, r.1.ifindex, r.2)

def ConfigsLoop.seen (s : ConfigsLoop) :
    DomainTrack × ℤ × List (AddrFamily × ℤ × DnsConfigDomains) :=
  (s.ht, s.prevPriority, s.configs.map DnsConfigIpData.withDomains)

theorem configDomains_congr (ht : DomainTrack) (hresolv : a.resolvConfReads = b.resolvConfReads)
    (hdomain : a.domainReads = b.domainReads)
    (hmaybe : a.hasDefaultRouteMaybe entries = b.hasDefaultRouteMaybe entries') :
    configDomains entries ht a = configDomains entries' ht b := by
  obtain ⟨-, -, hpriority, -, hsearches, hdomains, -, -, -⟩ := ResolvConfReads.mk.inj hresolv
  obtain ⟨-, -, hreverse⟩ := DomainReads.mk.inj hdomain
  have hasked : a.askedDomains = b.askedDomains := by
    simp only [askedDomains, hsearches, hdomains]
  unfold configDomains
  rw [hpriority, hasked, hmaybe, hreverse]

theorem configsLoopStep_congr {s s' : ConfigsLoop} (hs : s.seen = s'.seen)
    (hresolv : a.resolvConfReads = b.resolvConfReads)
    (hdomain : b.nameservers ≠ [] → a.domainReads = b.domainReads ∧ a.hasDefaultRouteMaybe entries = b.hasDefaultRouteMaybe entries') :
    (configsLoopStep entries s a).map ConfigsLoop.seen =
      (configsLoopStep entries' s' b).map ConfigsLoop.seen := by
  obtain ⟨hfamily, hifindex, hpriority, hnameservers, -⟩ := ResolvConfReads.mk.inj hresolv
  obtain ⟨ht, prev, configs⟩ := s
  obtain ⟨ht', prev', configs'⟩ := s'
  obtain ⟨rfl, hrest⟩ := Prod.mk.inj hs
  obtain ⟨rfl, hconfigs⟩ := Prod.mk.inj hrest
  unfold configsLoopStep
  dsimp only at hconfigs ⊢
  rw [hnameservers, hpriority]
  split_ifs with hnone
  · simp [ConfigsLoop.seen, withDomains, hconfigs, hfamily, hifindex]
  · rfl
  · obtain ⟨hdomain, hmaybe⟩ := hdomain hnone
    rw [configDomains_congr ht hresolv hdomain hmaybe]
    cases configDomains entries' ht b with
    | none => rfl
    | some r => simp [ConfigsLoop.seen, withDomains, hconfigs, hfamily, hifindex]

theorem hasDefaultRouteMaybe_eq (ha : a ∈ head) :
    a.hasDefaultRouteMaybe (head.filter addWildcard) =
      if ∃ d ∈ head, d.addWildcard then a.addWildcard else !a.domainReads.isVpn := by
  unfold hasDefaultRouteMaybe
  have hne : head.filter addWildcard ≠ [] ↔ ∃ d ∈ head, d.addWildcard := by
    rw [ne_eq, filter_eq_nil_iff]
    push Not
    rfl
  by_cases h : ∃ d ∈ head, d.addWildcard
  · simp [hne.mpr h, h, ha]
  · simp [not_not.mp (hne.not.mpr h), h, domainReads]

theorem addWildcard_congr (hresolv : a.resolvConfReads = b.resolvConfReads)
    (hdomain : b.nameservers ≠ [] → a.domainReads = b.domainReads) :
    a.addWildcard = b.addWildcard := by
  have hnameservers : a.nameservers = b.nameservers := congrArg ResolvConfReads.nameservers hresolv
  by_cases hnone : b.nameservers = []
  · simp [addWildcard, hnameservers, hnone]
  · exact congrArg DomainReads.addWildcard (hdomain hnone)

theorem exists_addWildcard_iff
    (h : List.Forall₂ (fun a b => a.addWildcard = b.addWildcard) head head') :
    (∃ d ∈ head, d.addWildcard) ↔ ∃ d ∈ head', d.addWildcard := by
  induction h with
  | nil => simp
  | @cons a b head head' hab _ ih => simp [hab, ih]

theorem mgrConfigsDataConstruct_congr
    (h : List.Forall₂ (fun a b => a.resolvConfReads = b.resolvConfReads ∧
      (b.nameservers ≠ [] → a.domainReads = b.domainReads)) l.head l'.head) :
    (mgrConfigsDataConstruct l).map (·.map withDomains) =
      (mgrConfigsDataConstruct l').map (·.map withDomains) := by
  have hexists := exists_addWildcard_iff (h.imp fun a b hab => addWildcard_congr hab.1 hab.2)
  have hstep : ∀ s s' : ConfigsLoop, s.seen = s'.seen → ∀ a ∈ l.head, ∀ b ∈ l'.head,
      (a.resolvConfReads = b.resolvConfReads ∧
        (b.nameservers ≠ [] → a.domainReads = b.domainReads)) →
      (configsLoopStep (l.head.filter addWildcard) s a).map ConfigsLoop.seen =
        (configsLoopStep (l'.head.filter addWildcard) s' b).map ConfigsLoop.seen := by
    rintro s s' hs a ha b hb ⟨hresolv, hdomain⟩
    refine configsLoopStep_congr hs hresolv fun hne => ⟨hdomain hne, ?_⟩
    rw [hasDefaultRouteMaybe_eq ha, hasDefaultRouteMaybe_eq hb, hdomain hne,
      addWildcard_congr hresolv hdomain]
    simp only [hexists]
  have hstart : ConfigsLoop.seen ⟨fun _ => none, -2 ^ 31, []⟩ =
      ConfigsLoop.seen ⟨fun _ => none, -2 ^ 31, []⟩ := rfl
  have hfold := foldlM_map_congr hstep h hstart
  have hseen := congrArg (Option.map fun s => s.2.2) hfold
  unfold mgrConfigsDataConstruct
  simpa [Function.comp_def, ConfigsLoop.seen] using hseen

/-! ## The update -/

/-- Two lists that an update cannot tell apart. -/
def DnsIpDataLst.ReadsAs (env : DnsEnv) (l l' : DnsIpDataLst) : Prop :=
  env.readsConfigs → List.Forall₂ (DnsConfigIpData.ReadsAs env) l.head l'.head

theorem DnsIpDataLst.ReadsAs.refl (l : DnsIpDataLst) : l.ReadsAs env l :=
  fun _ => forall₂_same.mpr fun d _ => .refl d

theorem DnsIpDataLst.ReadsAs.trans {l'' : DnsIpDataLst} (h : l.ReadsAs env l')
    (h' : l'.ReadsAs env l'') : l.ReadsAs env l'' := by
  have htrans {a b c : List DnsConfigIpData} (hab : List.Forall₂ (DnsConfigIpData.ReadsAs env) a b)
      (hbc : List.Forall₂ (DnsConfigIpData.ReadsAs env) b c) :
      List.Forall₂ (DnsConfigIpData.ReadsAs env) a c := by
    induction hab generalizing c with
    | nil => exact hbc
    | cons hR _ ih =>
      cases hbc with
      | cons hR' hbc => exact .cons (hR.trans hR') (ih hbc)
  exact fun hreads => htrans (h hreads) (h' hreads)

theorem dnsUpdate_congr (h : l.ReadsAs env l') : dnsUpdate env l hd = dnsUpdate env l' hd := by
  have hcollect : collectResolvConfData env l.head hd = collectResolvConfData env l'.head hd := by
    by_cases hwildcard : env.globalWildcard
    · simp [collectResolvConfData, mergeConfigs, hwildcard]
    · exact collectResolvConfData_congr hd (h (by simp [DnsEnv.readsConfigs, hwildcard]))
  have hassigned : domainAssignment env l = domainAssignment env l' := by
    unfold domainAssignment
    split_ifs with hplugin
    · have hreads := h (by simp [DnsEnv.readsConfigs, hplugin])
      exact mgrConfigsDataConstruct_congr
        (hreads.imp fun a b hab => ⟨hab.resolvConf, hab.domain hplugin⟩)
    · rfl
  unfold dnsUpdate
  rw [hcollect, hassigned]

end NetworkManager.Core
