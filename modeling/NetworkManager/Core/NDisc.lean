import Mathlib.Data.Finset.Basic
import Mathlib.Algebra.Order.Ring.Int

/-!
# Router data

`NMNDisc` caches what router advertisements announce: gateways, addresses, routes, DNS
servers and DNS domains, each with the time at which it expires. An item that is received
is added, refreshed or dropped, and `check_timestamps()` drops what has expired.
-/

namespace NetworkManager.Core

/-! ## The data -/

def expiryInfinity : ℤ := 2 ^ 63 - 1

def sizeMaxGateways : ℕ := 100

def sizeMaxRoutes : ℕ := 1000

def sizeMaxDnsServers : ℕ := 64

def sizeMaxDnsDomains : ℕ := 64

inductive Icmpv6RouterPref
  | medium
  | high
  | invalid
  | low
  deriving DecidableEq

def preferenceToPriority : Icmpv6RouterPref → ℕ
  | .low => 1
  | .medium => 2
  | .high => 3
  | .invalid => 0

structure NDiscGateway where
  address : BitVec 128
  expiryMsec : ℤ
  preference : Icmpv6RouterPref
  deriving DecidableEq

structure NDiscAddress where
  address : BitVec 128
  expiryMsec : ℤ
  expiryPreferredMsec : ℤ
  dadCounter : BitVec 8
  deriving DecidableEq

/-- `NMNDiscRoute`, without the mark of duplicates that is set when the data is exposed. -/
structure NDiscRoute where
  network : BitVec 128
  gateway : BitVec 128
  expiryMsec : ℤ
  preference : Icmpv6RouterPref
  plen : ℕ
  onLink : Bool
  deriving DecidableEq

structure NDiscDnsServer where
  address : BitVec 128
  expiryMsec : ℤ
  deriving DecidableEq

structure NDiscDnsDomain where
  domain : String
  expiryMsec : ℤ
  deriving DecidableEq

/-- The lists of `NMNDiscDataInternal` -/
structure NDiscData where
  gateways : List NDiscGateway
  addresses : List NDiscAddress
  routes : List NDiscRoute
  dnsServers : List NDiscDnsServer
  dnsDomains : List NDiscDnsDomain
  deriving DecidableEq

/-- `NMNDiscConfigMap`, as the set of its flags. -/
inductive NDiscConfigFlag
  | dhcpLevel
  | gateways
  | addresses
  | routes
  | dnsServers
  | dnsDomains
  | hopLimit
  | mtu
  | reachableTime
  | retransTimer
  deriving DecidableEq

abbrev NDiscConfigMap := Finset NDiscConfigFlag

inductive AddrGenMode
  | eui64
  | stablePrivacy
  deriving DecidableEq

/-- What the `NMNDisc` is configured with. The interface identifier that a stable-privacy
address gets is a hash of its prefix, of the counter and of secrets of the host. -/
structure NDiscConfig where
  maxAddresses : ℕ
  addrGenMode : AddrGenMode
  iid : Option (BitVec 64)
  stablePrivacyIid : BitVec 64 → BitVec 8 → BitVec 64

/-! ## Receiving -/

/-- How the items of a list are told apart, compared and refreshed when one is received. -/
structure NDiscItemClass (α : Type) where
  sameItem : α → α → Bool
  expiryMsec : α → ℤ
  samePreference : α → α → Bool
  upToDate : α → α → Bool
  refresh : α → α → α
  lessPreferable : α → α → Bool
  sizeMax : ℕ
  /-- Where an item goes that is not more preferable than any other. -/
  defaultIdx : ℕ → ℕ

section addItem

variable {α : Type} (c : NDiscItemClass α) (nowMsec : ℤ) (newItem : α)

def insertItem (insertIdx : Option ℕ) (items : List α) : List α × Bool :=
  if items.length ≥ c.sizeMax then (items, false)
  else if c.expiryMsec newItem ≤ nowMsec then (items, false)
  else (items.insertIdx (insertIdx.getD (c.defaultIdx items.length)) newItem, true)

/-- The loop over the items, where `passed` are the ones before the current one. -/
def addItemLoop (passed : List α) (insertIdx : Option ℕ) : List α → List α × Bool
  | [] => insertItem c nowMsec newItem insertIdx passed
  | item :: items =>
    if c.sameItem item newItem then
      if c.expiryMsec newItem ≤ nowMsec then (passed ++ items, true)
      -- an item whose preference changes is removed, to find a new place for it
      else if !c.samePreference item newItem then addItemLoop passed insertIdx items
      else if c.upToDate item newItem then (passed ++ item :: items, false)
      else (passed ++ c.refresh item newItem :: items, true)
    else
      addItemLoop (passed ++ [item])
        (if c.lessPreferable item newItem && insertIdx.isNone then some passed.length
          else insertIdx) items

def addItem (items : List α) : List α × Bool :=
  addItemLoop c nowMsec newItem [] none items

end addItem

def gatewayClass : NDiscItemClass NDiscGateway where
  sameItem item newItem := item.address = newItem.address
  expiryMsec := NDiscGateway.expiryMsec
  samePreference item newItem := item.preference = newItem.preference
  upToDate item newItem := item.expiryMsec = newItem.expiryMsec
  refresh item newItem := { item with expiryMsec := newItem.expiryMsec }
  lessPreferable item newItem :=
    preferenceToPriority item.preference < preferenceToPriority newItem.preference
  sizeMax := sizeMaxGateways
  defaultIdx len := len

def routeClass : NDiscItemClass NDiscRoute where
  sameItem item newItem :=
    item.network = newItem.network ∧ item.plen = newItem.plen ∧ item.onLink = newItem.onLink
  expiryMsec := NDiscRoute.expiryMsec
  samePreference item newItem := item.preference = newItem.preference
  upToDate item newItem :=
    item.expiryMsec = newItem.expiryMsec ∧ item.gateway = newItem.gateway
  refresh item newItem :=
    { item with expiryMsec := newItem.expiryMsec, gateway := newItem.gateway }
  lessPreferable item newItem :=
    preferenceToPriority item.preference < preferenceToPriority newItem.preference
  sizeMax := sizeMaxRoutes
  defaultIdx _ := 0

def dnsServerClass : NDiscItemClass NDiscDnsServer where
  sameItem item newItem := item.address = newItem.address
  expiryMsec := NDiscDnsServer.expiryMsec
  samePreference _ _ := true
  upToDate item newItem := item.expiryMsec = newItem.expiryMsec
  refresh item newItem := { item with expiryMsec := newItem.expiryMsec }
  lessPreferable _ _ := false
  sizeMax := sizeMaxDnsServers
  defaultIdx len := len

def dnsDomainClass : NDiscItemClass NDiscDnsDomain where
  sameItem item newItem := item.domain = newItem.domain
  expiryMsec := NDiscDnsDomain.expiryMsec
  samePreference _ _ := true
  upToDate item newItem := item.expiryMsec = newItem.expiryMsec
  refresh item newItem := { item with expiryMsec := newItem.expiryMsec }
  lessPreferable _ _ := false
  sizeMax := sizeMaxDnsDomains
  defaultIdx len := len

def addGateway (newItem : NDiscGateway) (nowMsec : ℤ) (rdata : NDiscData) : NDiscData × Bool :=
  let r := addItem gatewayClass nowMsec newItem rdata.gateways
  ({ rdata with gateways := r.1 }, r.2)

/-- `nm_ndisc_add_route()`, which ignores default routes. -/
def addRoute (newItem : NDiscRoute) (nowMsec : ℤ) (rdata : NDiscData) : NDiscData × Bool :=
  if newItem.plen = 0 ∨ newItem.plen > 128 then (rdata, false)
  else
    let r := addItem routeClass nowMsec newItem rdata.routes
    ({ rdata with routes := r.1 }, r.2)

def addDnsServer (newItem : NDiscDnsServer) (nowMsec : ℤ) (rdata : NDiscData) :
    NDiscData × Bool :=
  let r := addItem dnsServerClass nowMsec newItem rdata.dnsServers
  ({ rdata with dnsServers := r.1 }, r.2)

def addDnsDomain (newItem : NDiscDnsDomain) (nowMsec : ℤ) (rdata : NDiscData) :
    NDiscData × Bool :=
  let r := addItem dnsDomainClass nowMsec newItem rdata.dnsDomains
  ({ rdata with dnsDomains := r.1 }, r.2)

/-! ## Addresses -/

def addressPrefix (address : BitVec 128) : BitVec 64 := address.extractLsb' 64 64

def setInterfaceIdentifier (address : BitVec 128) (iid : BitVec 64) : BitVec 128 :=
  addressPrefix address ++ iid

/-- `complete_address()`: give the address another host part. -/
def completeAddress (config : NDiscConfig) (addr : NDiscAddress) : Option NDiscAddress :=
  match config.addrGenMode with
  | .stablePrivacy =>
    -- `NM_STABLE_PRIVACY_RFC7217_IDGEN_RETRIES`
    if addr.dadCounter.toNat ≥ 3 then none
    else
      some { addr with
        address := setInterfaceIdentifier addr.address
          (config.stablePrivacyIid (addressPrefix addr.address) addr.dadCounter)
        dadCounter := addr.dadCounter + 1 }
  | .eui64 =>
    match config.iid with
    | none => none
    | some iid =>
      if addr.address.extractLsb' 0 64 = 0 then
        some { addr with address := setInterfaceIdentifier addr.address iid }
      else none

/-- The new `expiry_msec` of an address that is announced again, by RFC4862 5.5.3.e. -/
def newExpiryFromRa (existing newItem : NDiscAddress) (nowMsec : ℤ) : ℤ :=
  let prefixLftMinMsec := 7200 * 1000
  if newItem.expiryMsec = expiryInfinity then expiryInfinity
  else
    let newLifetime := newItem.expiryMsec - nowMsec
    let existingLifetime :=
      if existing.expiryMsec = expiryInfinity then 2 ^ 63 - 1 else existing.expiryMsec - nowMsec
    if newLifetime ≥ prefixLftMinMsec ∨ newLifetime ≥ existingLifetime then newItem.expiryMsec
    else if existingLifetime ≤ prefixLftMinMsec then existing.expiryMsec
    else nowMsec + prefixLftMinMsec

/-- `nm_ndisc_add_address()` for the address `existing` at the index `i`. -/
def refreshAddress (i : ℕ) (existing newItem : NDiscAddress) (nowMsec : ℤ) (fromRa : Bool)
    (rdata : NDiscData) : NDiscData × Bool :=
  if !fromRa && newItem.expiryMsec ≤ nowMsec then
    ({ rdata with addresses := rdata.addresses.eraseIdx i }, true)
  else
    let expiry := if fromRa then newExpiryFromRa existing newItem nowMsec else newItem.expiryMsec
    let preferred := min newItem.expiryPreferredMsec newItem.expiryMsec
    let preferred := if fromRa then min preferred expiry else preferred
    if expiry = existing.expiryMsec ∧ preferred = existing.expiryPreferredMsec then (rdata, false)
    else
      let item := { existing with expiryMsec := expiry, expiryPreferredMsec := preferred }
      ({ rdata with addresses := rdata.addresses.set i item }, true)

/-- `nm_ndisc_add_address()` for an address that is not there yet. -/
def appendAddress (config : NDiscConfig) (newItem : NDiscAddress) (nowMsec : ℤ) (fromRa : Bool)
    (rdata : NDiscData) : NDiscData × Bool :=
  if rdata.addresses.length ≥ config.maxAddresses then (rdata, false)
  else if newItem.expiryMsec ≤ nowMsec then (rdata, false)
  else
    let new2 :=
      { newItem with expiryPreferredMsec := min newItem.expiryPreferredMsec newItem.expiryMsec }
    if fromRa then
      match completeAddress config { new2 with dadCounter := 0 } with
      | none => (rdata, false)
      | some new2 => ({ rdata with addresses := rdata.addresses ++ [new2] }, true)
    else ({ rdata with addresses := rdata.addresses ++ [new2] }, true)

def addAddress (config : NDiscConfig) (newItem : NDiscAddress) (nowMsec : ℤ) (fromRa : Bool)
    (rdata : NDiscData) : NDiscData × Bool :=
  let same (item : NDiscAddress) : Bool :=
    if fromRa then addressPrefix item.address = addressPrefix newItem.address
    else item.address = newItem.address
  match rdata.addresses.findIdx? same with
  | some i =>
    match rdata.addresses[i]? with
    | some existing => refreshAddress i existing newItem nowMsec fromRa rdata
    | none => (rdata, false)
  | none => appendAddress config newItem nowMsec fromRa rdata

def completeAndAddAddress (config : NDiscConfig) (newItem : NDiscAddress) (nowMsec : ℤ)
    (rdata : NDiscData) : NDiscData × Bool :=
  addAddress config newItem nowMsec true rdata

/-- `nm_ndisc_dad_failed()`: the addresses get another host part, or are dropped. -/
def dadFailed (config : NDiscConfig) (addresses : List (BitVec 128)) (rdata : NDiscData) :
    NDiscData :=
  addresses.foldl
    (fun rdata addr =>
      { rdata with
        addresses := rdata.addresses.filterMap fun item =>
          if item.address = addr then completeAddress config item else some item })
    rdata

/-! ## Expiry -/

/-- `expiry_next()`, which returns whether the timestamp is good, and `next_msec`. -/
def expiryNext (nowMsec expiryMsec nextMsec : ℤ) : Bool × ℤ :=
  if expiryMsec = expiryInfinity then (true, nextMsec)
  else if expiryMsec ≤ nowMsec then (false, nextMsec)
  else (true, if nextMsec > expiryMsec then expiryMsec else nextMsec)

def arraySetSizeMax {α : Type} (array : List α) (sizeMax : ℕ) : List α × Bool :=
  if array.length ≤ sizeMax then (array, false) else (array.take sizeMax, true)

/-- The loop that moves the items that are not expired to the front of the array. -/
def compactItems {α : Type} (expiryMsec : α → ℤ) (nowMsec : ℤ) : List α → ℤ → List α × ℤ
  | [], nextMsec => ([], nextMsec)
  | item :: items, nextMsec =>
    let r := expiryNext nowMsec (expiryMsec item) nextMsec
    let s := compactItems expiryMsec nowMsec items r.2
    (if r.1 then item :: s.1 else s.1, s.2)

/-- The router data in the course of `check_timestamps()`. -/
structure NDiscCheck where
  rdata : NDiscData
  changed : NDiscConfigMap
  nextMsec : ℤ

/-- `_array_set_size_max()` of the gateways -/
def NDiscCheck.setSizeMaxGateways (c : NDiscCheck) (sizeMax : ℕ) (flag : NDiscConfigFlag) :
    NDiscCheck :=
  let r := arraySetSizeMax c.rdata.gateways sizeMax
  { c with
    rdata := { c.rdata with gateways := r.1 }
    changed := if r.2 then c.changed ∪ {flag} else c.changed }

/-- What the `clean_*()` functions do with their items: the expired ones are dropped, and the
gateways are cut to the maximum of the items. -/
def NDiscCheck.cleanItems {α : Type} (c : NDiscCheck) (expiryMsec : α → ℤ) (nowMsec : ℤ)
    (items : List α) (setItems : List α → NDiscData) (setChanged : Bool → NDiscConfigMap)
    (sizeMax : ℕ) (flag : NDiscConfigFlag) : NDiscCheck :=
  if items.length = 0 then c
  else
    let r := compactItems expiryMsec nowMsec items c.nextMsec
    NDiscCheck.setSizeMaxGateways
      { rdata := setItems r.1
        changed := setChanged (items.length ≠ r.1.length)
        nextMsec := r.2 }
      sizeMax flag

def cleanGateways (nowMsec : ℤ) (c : NDiscCheck) : NDiscCheck :=
  c.cleanItems NDiscGateway.expiryMsec nowMsec c.rdata.gateways ({ c.rdata with gateways := · })
    (fun dropped => if dropped then c.changed ∪ {.gateways} else c.changed)
    sizeMaxGateways .gateways

def cleanAddresses (config : NDiscConfig) (nowMsec : ℤ) (c : NDiscCheck) : NDiscCheck :=
  c.cleanItems NDiscAddress.expiryMsec nowMsec c.rdata.addresses ({ c.rdata with addresses := · })
    (fun dropped => if dropped then {.addresses} else c.changed) config.maxAddresses .addresses

def cleanRoutes (nowMsec : ℤ) (c : NDiscCheck) : NDiscCheck :=
  c.cleanItems NDiscRoute.expiryMsec nowMsec c.rdata.routes ({ c.rdata with routes := · })
    (fun dropped => if dropped then c.changed ∪ {.routes} else c.changed) sizeMaxRoutes .routes

def cleanDnsServers (nowMsec : ℤ) (c : NDiscCheck) : NDiscCheck :=
  c.cleanItems NDiscDnsServer.expiryMsec nowMsec c.rdata.dnsServers
    ({ c.rdata with dnsServers := · })
    (fun dropped => if dropped then c.changed ∪ {.dnsServers} else c.changed)
    sizeMaxDnsServers .dnsServers

/-- The number of all domains is compared to zero, not to the number of those that are kept. -/
def cleanDnsDomains (nowMsec : ℤ) (c : NDiscCheck) : NDiscCheck :=
  c.cleanItems NDiscDnsDomain.expiryMsec nowMsec c.rdata.dnsDomains
    ({ c.rdata with dnsDomains := · })
    (fun _ => if c.rdata.dnsDomains.length ≠ 0 then c.changed ∪ {.dnsDomains} else c.changed)
    sizeMaxDnsDomains .dnsDomains

/-- A source of the main loop, with its timeout. -/
inductive TimeoutSource
  | msec (timeout : ℤ)
  | seconds (timeout : ℤ)
  deriving DecidableEq

def timeoutAddSourceApprox (timeoutMsec timeoutSecThreshold : ℤ) : TimeoutSource :=
  if timeoutMsec / 1000 ≥ timeoutSecThreshold then .seconds (timeoutMsec / 1000)
  else .msec timeoutMsec

/-- The source that `check_timestamps()` adds for the next expiry after `timeoutMsec`, which is
at most `G_MAXINT32`. -/
def expireSource (nowMsec nextMsec : ℤ) : TimeoutSource :=
  timeoutAddSourceApprox (min (nextMsec - nowMsec) (2 ^ 31 - 1)) 10000

/-- The result of `check_timestamps()`: the data that is left, the source that is waiting for
the next expiry, and the change that is emitted. -/
structure NDiscChecked where
  rdata : NDiscData
  timeoutExpireSource : Option TimeoutSource
  emitted : Option NDiscConfigMap
  deriving DecidableEq

def checkTimestamps (config : NDiscConfig) (nowMsec : ℤ) (changed : NDiscConfigMap)
    (rdata : NDiscData) : NDiscChecked :=
  let c : NDiscCheck := ⟨rdata, changed, expiryInfinity⟩
  let c := cleanGateways nowMsec c
  let c := cleanAddresses config nowMsec c
  let c := cleanRoutes nowMsec c
  let c := cleanDnsServers nowMsec c
  let c := cleanDnsDomains nowMsec c
  { rdata := c.rdata
    timeoutExpireSource :=
      if c.nextMsec = expiryInfinity then none else some (expireSource nowMsec c.nextMsec)
    emitted := if c.changed ≠ ∅ then some c.changed else none }

end NetworkManager.Core
