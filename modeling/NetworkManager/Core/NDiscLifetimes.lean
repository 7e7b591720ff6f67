import NetworkManager.Platform.IpObject
import NetworkManager.Core.NDiscTimestamps
import NetworkManager.Lib.Runs
import Mathlib.Algebra.Order.Monoid.Unbundled.WithTop
import Mathlib.Data.Int.ConditionallyCompleteOrder
import Mathlib.Order.ConditionallyCompleteLattice.Basic

/-!
# Router advertisements

`receive_ra()` adds what an advertisement announces to the router data, with the lifetimes as
times at which the items expire.
-/

namespace NetworkManager.Core

open Platform List

/-! ## The message -/

/-- A prefix option -/
structure NdpPrefixOption where
  prefixAddr : BitVec 128
  plen : BitVec 8
  onLink : Bool
  autoAddrConf : Bool
  validTime : BitVec 32
  preferredTime : BitVec 32
  deriving DecidableEq

/-- A route option -/
structure NdpRouteOption where
  prefixAddr : BitVec 128
  plen : BitVec 8
  lifetime : BitVec 32
  preference : Icmpv6RouterPref
  deriving DecidableEq

/-- The addresses or the domains of an option for DNS, with their lifetime. -/
structure NdpDnsOption (α : Type) where
  items : List α
  lifetime : BitVec 32
  deriving DecidableEq

/-- What `receive_ra()` reads of a `struct ndp_msg`, the options by their type. -/
structure RouterAdvert where
  addrTo : BitVec 128
  flagManaged : Bool
  flagOther : Bool
  routerLifetime : BitVec 16
  routePreference : Icmpv6RouterPref
  prefixes : List NdpPrefixOption
  routes : List NdpRouteOption
  rdnss : List (NdpDnsOption (BitVec 128))
  dnssl : List (NdpDnsOption String)
  curHopLimit : BitVec 8
  reachableTime : BitVec 32
  retransmitTime : BitVec 32
  mtus : List (BitVec 32)
  deriving DecidableEq

inductive NDiscDhcpLevel
  | unknown
  | none
  | otherConf
  | managed
  deriving DecidableEq

def NDiscDhcpLevel.toNat : NDiscDhcpLevel → ℕ
  | .unknown => 0
  | .none => 1
  | .otherConf => 2
  | .managed => 3

/-- The fields of `NMNDiscData` that are no lists. -/
structure NDiscPublic where
  dhcpLevel : NDiscDhcpLevel
  mtu : ℕ
  hopLimit : ℕ
  reachableTimeMs : ℕ
  retransTimerMs : ℕ
  deriving DecidableEq

/-! ## Receiving it -/

/-- `_nm_ndisc_lifetime_to_expiry()`, where a lifetime of all ones is `NM_NDISC_INFINITY_U32`. -/
def lifetimeToExpiry (nowMsec : ℤ) (lifetime : BitVec 32) : ℤ :=
  if lifetime = BitVec.allOnes 32 then expiryInfinity else nowMsec + lifetime.toNat * 1000

def routePreferenceCoerce : Icmpv6RouterPref → Icmpv6RouterPref
  | .low => .low
  | .medium => .medium
  | .high => .high
  | .invalid => .medium

def in6IsAddrLinklocal (addr : BitVec 128) : Bool := addr.extractLsb' 118 10 = 0x3fa

/-- `receive_ra()` on its way: the data, and what of it has changed. -/
structure RaReceiving where
  rdata : NDiscData
  changed : NDiscConfigMap

def RaReceiving.added (st : RaReceiving) (flag : NDiscConfigFlag)
    (add : NDiscData → NDiscData × Bool) : RaReceiving :=
  let r := add st.rdata
  ⟨r.1, if r.2 then st.changed ∪ {flag} else st.changed⟩

/-- The address of a prefix option, without its host part. -/
def NdpPrefixOption.address (opt : NdpPrefixOption) (nowMsec : ℤ) : NDiscAddress where
  address := ip6AddrClearHostAddress opt.prefixAddr opt.plen.toNat
  expiryMsec := lifetimeToExpiry nowMsec opt.validTime
  expiryPreferredMsec := lifetimeToExpiry nowMsec
    (if opt.preferredTime.toNat < opt.validTime.toNat then opt.preferredTime else opt.validTime)
  dadCounter := 0

/-- The step of `receive_ra()` for a prefix option. -/
def receivePrefix (config : NDiscConfig) (nowMsec : ℤ) (st : RaReceiving) (opt : NdpPrefixOption) :
    RaReceiving :=
  let plen := opt.plen.toNat
  let network := ip6AddrClearHostAddress opt.prefixAddr plen
  if plen = 0 ∨ plen > 128 then st
  else if network = 0 ∨ in6IsAddrLinklocal network then st
  else
    let st :=
      if opt.onLink then
        st.added .routes (addRoute
          { network, gateway := 0, expiryMsec := lifetimeToExpiry nowMsec opt.validTime,
            preference := .medium, plen, onLink := true } nowMsec)
      else st
    if plen = 64 ∧ opt.autoAddrConf then
      st.added .addresses (completeAndAddAddress config (opt.address nowMsec) nowMsec)
    else st

/-- The step of `receive_ra()` for a route option. -/
def receiveRoute (gatewayAddr : BitVec 128) (nowMsec : ℤ) (st : RaReceiving)
    (opt : NdpRouteOption) : RaReceiving :=
  let plen := opt.plen.toNat
  if plen = 0 ∨ plen > 128 then st
  else
    st.added .routes (addRoute
      { network := ip6AddrClearHostAddress opt.prefixAddr plen, gateway := gatewayAddr,
        expiryMsec := lifetimeToExpiry nowMsec opt.lifetime,
        preference := routePreferenceCoerce opt.preference, plen, onLink := false } nowMsec)

def receiveRdnss (nowMsec : ℤ) (st : RaReceiving) (opt : NdpDnsOption (BitVec 128)) : RaReceiving :=
  opt.items.foldl (fun st addr => st.added .dnsServers
    (addDnsServer ⟨addr, lifetimeToExpiry nowMsec opt.lifetime⟩ nowMsec)) st

def receiveDnssl (nowMsec : ℤ) (st : RaReceiving) (opt : NdpDnsOption String) : RaReceiving :=
  opt.items.foldl (fun st domain => st.added .dnsDomains
    (addDnsDomain ⟨domain, lifetimeToExpiry nowMsec opt.lifetime⟩ nowMsec)) st

/-- The items of an advertisement, which are added to the data in the order of their types. -/
def receiveItems (config : NDiscConfig) (nowMsec : ℤ) (msg : RouterAdvert) (st : RaReceiving) :
    RaReceiving :=
  let st := st.added .gateways (addGateway
    ⟨msg.addrTo, lifetimeToExpiry nowMsec (msg.routerLifetime.setWidth 32),
      routePreferenceCoerce msg.routePreference⟩ nowMsec)
  let st := msg.prefixes.foldl (receivePrefix config nowMsec) st
  let st := msg.routes.foldl (receiveRoute msg.addrTo nowMsec) st
  let st := msg.rdnss.foldl (receiveRdnss nowMsec) st
  msg.dnssl.foldl (receiveDnssl nowMsec) st

def receiveDhcpLevel (msg : RouterAdvert) (level : NDiscDhcpLevel) : NDiscDhcpLevel :=
  let received : NDiscDhcpLevel :=
    if msg.flagManaged then .managed else if msg.flagOther then .otherConf else .none
  if received.toNat > level.toNat then received else level

/-- The values of an advertisement that are no items. -/
def receivePublic (msg : RouterAdvert) (pub : NDiscPublic) : NDiscPublic where
  dhcpLevel := receiveDhcpLevel msg pub.dhcpLevel
  mtu := msg.mtus.foldl (fun mtu m => if m.toNat ≥ 1280 then m.toNat else mtu) pub.mtu
  hopLimit := msg.curHopLimit.toNat
  reachableTimeMs := if msg.reachableTime ≠ 0 then msg.reachableTime.toNat else pub.reachableTimeMs
  retransTimerMs :=
    if msg.retransmitTime ≠ 0 then msg.retransmitTime.toNat else pub.retransTimerMs

/-- The flags for the values that changed, where the MTU changes as often as there are options
for it. -/
def changedPublic (msg : RouterAdvert) (pub : NDiscPublic) : NDiscConfigMap :=
  let pub' := receivePublic msg pub
  let mtus := pub.mtu :: (msg.mtus.map BitVec.toNat).filter (1280 ≤ ·)
  (if pub'.dhcpLevel ≠ pub.dhcpLevel then {.dhcpLevel} else ∅) ∪
    (if pub'.hopLimit ≠ pub.hopLimit then {.hopLimit} else ∅) ∪
    (if pub'.reachableTimeMs ≠ pub.reachableTimeMs then {.reachableTime} else ∅) ∪
    (if pub'.retransTimerMs ≠ pub.retransTimerMs then {.retransTimer} else ∅) ∪
    (if (mtus.zip mtus.tail).any fun m => m.1 ≠ m.2 then {.mtu} else ∅)

/-- The data of `NMNDisc` -/
structure NDiscState where
  rdata : NDiscData
  pub : NDiscPublic
  deriving DecidableEq

def receiveRa (config : NDiscConfig) (nowMsec : ℤ) (msg : RouterAdvert) (s : NDiscState) :
    NDiscState :=
  if msg.addrTo = 0 then s
  else
    let st := receiveItems config nowMsec msg ⟨s.rdata, ∅⟩
    let changed := st.changed ∪ changedPublic msg s.pub
    ⟨(checkTimestamps config nowMsec changed st.rdata).rdata, receivePublic msg s.pub⟩

/-!
## Lifetimes of autoconfigured addresses

An advertisement can extend the lifetime of an address as it likes, but not reduce what remains
of it below two hours, as RFC4862 5.5.3.e asks for.
-/

/-! ## Lifetimes -/

def prefixLftMinMsec : ℤ := 7200 * 1000

def remainingLifetime (nowMsec expiryMsec : ℤ) : WithTop ℤ :=
  if expiryMsec = expiryInfinity then ⊤ else ((expiryMsec - nowMsec : ℤ) : WithTop ℤ)

def advertisedLifetime (lifetime : BitVec 32) : WithTop ℤ :=
  if lifetime = BitVec.allOnes 32 then ⊤ else ((lifetime.toNat * 1000 : ℤ) : WithTop ℤ)

/-- A timestamp to which the lifetime of any option can be added. -/
def TimestampOk (nowMsec : ℤ) : Prop := 0 < nowMsec ∧ nowMsec + 2 ^ 32 * 1000 < expiryInfinity

instance (nowMsec : ℤ) : Decidable (TimestampOk nowMsec) := inferInstanceAs (Decidable (_ ∧ _))

/-- What remains of the lifetime of an address that is announced again. -/
structure ProtectedLifetime (advertised remaining result : WithTop ℤ) : Prop where
  extended : prefixLftMinMsec < advertised ∨ remaining < advertised → result = advertised
  kept : advertised ≤ prefixLftMinMsec → advertised ≤ remaining → remaining ≤ prefixLftMinMsec →
    result = remaining
  trimmed : advertised ≤ prefixLftMinMsec → advertised ≤ remaining →
    prefixLftMinMsec < remaining → result = prefixLftMinMsec

variable {config : NDiscConfig} {nowMsec : ℤ} {lifetime : BitVec 32}
  {newItem existing a : NDiscAddress} {expiry : ℤ} {s : NDiscState}

theorem lifetimeToExpiry_cases (nowMsec : ℤ) (lifetime : BitVec 32) :
    (lifetimeToExpiry nowMsec lifetime = expiryInfinity ∧ advertisedLifetime lifetime = ⊤) ∨
      ∃ l : ℤ, 0 ≤ l ∧ l < 2 ^ 32 * 1000 ∧ lifetimeToExpiry nowMsec lifetime = nowMsec + l ∧
        advertisedLifetime lifetime = (l : WithTop ℤ) := by
  unfold lifetimeToExpiry advertisedLifetime
  split_ifs with hinf
  · exact .inl ⟨rfl, rfl⟩
  · right
    have hlt := lifetime.isLt
    refine ⟨lifetime.toNat * 1000, by omega, by omega, rfl, rfl⟩

theorem remainingLifetime_add (h : TimestampOk nowMsec) {l : ℤ} (hl : l ≤ 2 ^ 32 * 1000) :
    remainingLifetime nowMsec (nowMsec + l) = (l : WithTop ℤ) := by
  have hne : nowMsec + l ≠ expiryInfinity := by
    have := h.2
    omega
  rw [remainingLifetime, if_neg hne, add_sub_cancel_left]

/-- The rule of the RFC. The cases that the code tells apart in another way are those in which two
of the lifetimes are the same. -/
theorem remainingLifetime_newExpiryFromRa (h : TimestampOk nowMsec)
    (hnew : newItem.expiryMsec = lifetimeToExpiry nowMsec lifetime) :
    ProtectedLifetime (advertisedLifetime lifetime)
      (remainingLifetime nowMsec existing.expiryMsec)
      (remainingLifetime nowMsec (newExpiryFromRa existing newItem nowMsec)) := by
  have hbound := h.2
  unfold newExpiryFromRa
  rw [hnew]
  rcases lifetimeToExpiry_cases nowMsec lifetime with ⟨hexp, hadv⟩ | ⟨l, hl0, hl, hexp, hadv⟩
  · have htop : remainingLifetime nowMsec expiryInfinity = ⊤ := if_pos rfl
    rw [hexp, hadv, if_pos rfl, htop]
    exact ⟨fun _ => rfl, by simp, by simp⟩
  · have hne : nowMsec + l ≠ expiryInfinity := by omega
    rw [hexp, hadv, if_neg hne]
    dsimp only
    rw [add_sub_cancel_left]
    have hnow : ∀ m : ℤ, m ≤ 2 ^ 32 * 1000 →
        remainingLifetime nowMsec (nowMsec + m) = (m : WithTop ℤ) :=
      fun m hm => remainingLifetime_add h hm
    by_cases hinf : existing.expiryMsec = expiryInfinity
    · have hremaining : remainingLifetime nowMsec existing.expiryMsec = ⊤ := if_pos hinf
      rw [hremaining, if_pos hinf]
      split_ifs with hext hold
      · rw [hnow l hl.le]
        refine ⟨fun _ => rfl, by simp, fun hle _ _ => ?_⟩
        rw [WithTop.coe_le_coe] at hle
        rw [WithTop.coe_inj]
        unfold prefixLftMinMsec at *
        omega
      · omega
      · rw [hnow _ (by omega)]
        refine ⟨fun hext => ?_, by simp, fun _ _ _ => rfl⟩
        rw [WithTop.coe_lt_coe] at hext
        unfold prefixLftMinMsec at hext
        rcases hext with hext | hext
        · omega
        · exact absurd hext not_top_lt
    · have hremaining : remainingLifetime nowMsec existing.expiryMsec =
          ((existing.expiryMsec - nowMsec : ℤ) : WithTop ℤ) := if_neg hinf
      have hresult : ∀ r : ℤ,
          (prefixLftMinMsec < l ∨ existing.expiryMsec - nowMsec < l → r = l) →
          (l ≤ prefixLftMinMsec → l ≤ existing.expiryMsec - nowMsec →
            existing.expiryMsec - nowMsec ≤ prefixLftMinMsec →
            r = existing.expiryMsec - nowMsec) →
          (l ≤ prefixLftMinMsec → l ≤ existing.expiryMsec - nowMsec →
            prefixLftMinMsec < existing.expiryMsec - nowMsec → r = prefixLftMinMsec) →
          ProtectedLifetime (l : WithTop ℤ) ((existing.expiryMsec - nowMsec : ℤ) : WithTop ℤ)
            (r : WithTop ℤ) := by
        intro r hext hkept htrim
        constructor
        · simpa only [WithTop.coe_lt_coe, WithTop.coe_inj] using hext
        · simpa only [WithTop.coe_le_coe, WithTop.coe_inj] using hkept
        · simpa only [WithTop.coe_le_coe, WithTop.coe_lt_coe, WithTop.coe_inj] using htrim
      rw [hremaining, if_neg hinf]
      unfold prefixLftMinMsec at hresult
      split_ifs with hext hold
      · rw [hnow l hl.le]
        exact hresult l (fun _ => rfl) (by omega) (by omega)
      · rw [hremaining]
        exact hresult _ (by omega) (fun _ _ _ => rfl) (by omega)
      · rw [hnow _ (by omega)]
        exact hresult _ (by omega) (by omega) (fun _ _ _ => rfl)

theorem le_newExpiryFromRa (h : TimestampOk nowMsec) :
    min existing.expiryMsec (nowMsec + prefixLftMinMsec) ≤
        newExpiryFromRa existing newItem nowMsec := by
  have hbound := h.2
  unfold newExpiryFromRa prefixLftMinMsec
  dsimp only
  split_ifs with hinf hext hold hold
  all_goals omega

/-! ## The addresses of an advertisement -/

/-- An option that announces a prefix for addresses, as `receive_ra()` accepts it. -/
def NdpPrefixOption.Autoconf (opt : NdpPrefixOption) : Prop :=
  let network := ip6AddrClearHostAddress opt.prefixAddr opt.plen.toNat
  opt.plen = 64 ∧ opt.autoAddrConf ∧ network ≠ 0 ∧ ¬ in6IsAddrLinklocal network

instance (opt : NdpPrefixOption) : Decidable opt.Autoconf :=
  inferInstanceAs (Decidable (_ ∧ _))

@[simp] theorem added_rdata (st : RaReceiving) (flag : NDiscConfigFlag)
    (add : NDiscData → NDiscData × Bool) : (st.added flag add).rdata = (add st.rdata).1 := rfl

theorem addRoute_addresses (newItem : NDiscRoute) (nowMsec : ℤ) (rdata : NDiscData) :
    (addRoute newItem nowMsec rdata).1.addresses = rdata.addresses := by
  unfold addRoute
  split_ifs <;> rfl

def announce (config : NDiscConfig) (nowMsec : ℤ) (newItem : NDiscAddress)
    (addresses : List NDiscAddress) : List NDiscAddress :=
  (completeAndAddAddress config newItem nowMsec ⟨[], addresses, [], [], []⟩).1.addresses

theorem completeAndAddAddress_addresses (newItem : NDiscAddress) (rdata : NDiscData) :
    (completeAndAddAddress config newItem nowMsec rdata).1.addresses =
      announce config nowMsec newItem rdata.addresses := by
  unfold announce completeAndAddAddress addAddress
  simp only [if_true]
  cases hidx : rdata.addresses.findIdx? fun item =>
      decide (addressPrefix item.address = addressPrefix newItem.address) with
  | none =>
    unfold appendAddress
    simp only [if_true]
    split_ifs
    · rfl
    · rfl
    · split <;> rfl
  | some i =>
    dsimp only
    cases rdata.addresses[i]? with
    | none => rfl
    | some existing =>
      unfold refreshAddress
      dsimp only
      split_ifs <;> rfl

theorem receivePrefix_addresses (st : RaReceiving) (opt : NdpPrefixOption) :
    (receivePrefix config nowMsec st opt).rdata.addresses =
      if opt.Autoconf then announce config nowMsec (opt.address nowMsec) st.rdata.addresses
      else st.rdata.addresses := by
  have hplen : opt.plen = 64 ↔ opt.plen.toNat = 64 := by
    rw [← BitVec.toNat_inj]
    rfl
  unfold receivePrefix NdpPrefixOption.Autoconf
  simp only [hplen]
  by_cases hrange : opt.plen.toNat = 0 ∨ opt.plen.toNat > 128
  · rw [if_pos hrange, if_neg]
    intro h64
    omega
  rw [if_neg hrange]
  generalize ip6AddrClearHostAddress opt.prefixAddr opt.plen.toNat = network
  by_cases hnet : network = 0 ∨ in6IsAddrLinklocal network
  · rw [if_pos hnet, if_neg]
    rintro ⟨-, -, hne⟩
    exact not_or.mpr hne hnet
  rw [if_neg hnet]
  have hiff : (opt.plen.toNat = 64 ∧ opt.autoAddrConf ∧ network ≠ 0 ∧
      ¬ in6IsAddrLinklocal network) ↔ opt.plen.toNat = 64 ∧ opt.autoAddrConf := by
    rw [← not_or, ← and_assoc, and_iff_left hnet]
  simp only [hiff]
  by_cases hauto : opt.plen.toNat = 64 ∧ opt.autoAddrConf
  · rw [if_pos hauto, if_pos hauto, added_rdata, completeAndAddAddress_addresses]
    split_ifs
    · rw [added_rdata, addRoute_addresses]
    · rfl
  · rw [if_neg hauto, if_neg hauto]
    split_ifs
    · rw [added_rdata, addRoute_addresses]
    · rfl

theorem completeAddress_lifetimes {addr addr' : NDiscAddress}
    (h : completeAddress config addr = some addr') :
    addr'.expiryPreferredMsec = addr.expiryPreferredMsec ∧
      addr'.expiryMsec = addr.expiryMsec := by
  unfold completeAddress at h
  cases hmode : config.addrGenMode with
  | stablePrivacy =>
    rw [hmode] at h
    dsimp only at h
    split_ifs at h
    exact Option.some.inj h ▸ ⟨rfl, rfl⟩
  | eui64 =>
    rw [hmode] at h
    dsimp only at h
    cases hiid : config.iid with
    | none => simp [hiid] at h
    | some iid =>
      rw [hiid] at h
      dsimp only at h
      split_ifs at h
      exact Option.some.inj h ▸ ⟨rfl, rfl⟩

/-- What an announcement makes of the address that is there. -/
def NDiscAddress.refreshed (existing newItem : NDiscAddress) (nowMsec : ℤ) : NDiscAddress :=
  let expiry := newExpiryFromRa existing newItem nowMsec
  { existing with
    expiryMsec := expiry
    expiryPreferredMsec := min (min newItem.expiryPreferredMsec newItem.expiryMsec) expiry }

theorem announce_append {pre post : List NDiscAddress}
    (hpre : ∀ item ∈ pre, addressPrefix item.address ≠ addressPrefix newItem.address)
    (ha : addressPrefix a.address = addressPrefix newItem.address) :
    announce config nowMsec newItem (pre ++ a :: post) =
      pre ++ a.refreshed newItem nowMsec :: post := by
  have hidx : (pre ++ a :: post).findIdx? (fun item =>
      decide (addressPrefix item.address = addressPrefix newItem.address)) = some pre.length := by
    rw [List.findIdx?_append, List.findIdx?_eq_none_iff.mpr (by simpa using hpre),
      List.findIdx?_cons]
    simp [ha]
  unfold announce completeAndAddAddress addAddress
  simp only [if_true, hidx, List.getElem?_append_right, le_refl, Nat.sub_self,
    List.getElem?_cons_zero]
  unfold refreshAddress
  simp only [Bool.not_true, Bool.false_and, Bool.false_eq_true, if_false, if_true]
  split_ifs with hsame
  · have hrefreshed : a.refreshed newItem nowMsec = a := by
      cases a
      simp only [NDiscAddress.refreshed, NDiscAddress.mk.injEq, true_and, and_true]
      exact hsame
    rw [hrefreshed]
  · simp [NDiscAddress.refreshed]

theorem announce_of_new {addresses : List NDiscAddress}
    (hnew : ∀ item ∈ addresses, addressPrefix item.address ≠ addressPrefix newItem.address) :
    announce config nowMsec newItem addresses = addresses ∨
      ∃ a : NDiscAddress, a.expiryPreferredMsec ≤ a.expiryMsec ∧
        announce config nowMsec newItem addresses = addresses ++ [a] := by
  have hidx : addresses.findIdx? (fun item =>
      decide (addressPrefix item.address = addressPrefix newItem.address)) = none :=
    List.findIdx?_eq_none_iff.mpr (by simpa using hnew)
  unfold announce completeAndAddAddress addAddress
  simp only [if_true, hidx]
  unfold appendAddress
  simp only [if_true]
  split_ifs
  · exact .inl rfl
  · exact .inl rfl
  · cases hcomplete : completeAddress config _ with
    | none => exact .inl rfl
    | some a =>
      refine .inr ⟨a, ?_, rfl⟩
      have hle := completeAddress_lifetimes hcomplete
      rw [hle.1, hle.2]
      exact min_le_right _ _

/-! ## Runs -/

/-- An advertisement is received, or the timer for the next expiry fires. -/
inductive RaEvent
  | receiveRa (nowMsec : ℤ) (msg : RouterAdvert)
  | timeoutExpire (nowMsec : ℤ)
  deriving DecidableEq

def RaEvent.time : RaEvent → ℤ
  | .receiveRa nowMsec _ => nowMsec
  | .timeoutExpire nowMsec => nowMsec

def NDiscState.step (config : NDiscConfig) (s : NDiscState) : RaEvent → NDiscState
  | .receiveRa nowMsec msg => receiveRa config nowMsec msg s
  | .timeoutExpire nowMsec => { s with rdata := (checkTimestamps config nowMsec ∅ s.rdata).rdata }

/-- The clock does not go back. -/
structure EventsOk (events : List RaEvent) : Prop where
  timestamps : ∀ e ∈ events, TimestampOk e.time
  sorted : events.Pairwise fun e e' => e.time ≤ e'.time

def NDiscState.init : NDiscState := ⟨⟨[], [], [], [], []⟩, ⟨.unknown, 0, 64, 0, 0⟩⟩

/-- The address is there, with a lifetime until the given time at least. -/
def KeepsAddress (a : NDiscAddress) (expiry : ℤ) (addresses : List NDiscAddress) : Prop :=
  ∃ b ∈ addresses, b.address = a.address ∧ b.dadCounter = a.dadCounter ∧ expiry ≤ b.expiryMsec

def PreferredOk (addresses : List NDiscAddress) : Prop :=
  ∀ a ∈ addresses, a.expiryPreferredMsec ≤ a.expiryMsec

theorem announce_cases (newItem : NDiscAddress) (addresses : List NDiscAddress) :
    (∃ pre a post, addresses = pre ++ a :: post ∧
      announce config nowMsec newItem addresses =
        pre ++ a.refreshed newItem nowMsec :: post) ∨
      announce config nowMsec newItem addresses = addresses ∨
      ∃ a : NDiscAddress, a.expiryPreferredMsec ≤ a.expiryMsec ∧
        announce config nowMsec newItem addresses = addresses ++ [a] := by
  cases hfind : addresses.find? fun item =>
      decide (addressPrefix item.address = addressPrefix newItem.address) with
  | none =>
    right
    apply announce_of_new
    simpa using List.find?_eq_none.mp hfind
  | some a =>
    left
    obtain ⟨ha, pre, post, rfl, hpre⟩ := List.find?_eq_some_iff_append.mp hfind
    exact ⟨pre, a, post, rfl, announce_append (by simpa using hpre) (by simpa using ha)⟩

theorem KeepsAddress.announce {addresses : List NDiscAddress} (hnow : TimestampOk nowMsec)
    (hexpiry : expiry ≤ nowMsec + prefixLftMinMsec) (h : KeepsAddress a expiry addresses) :
    KeepsAddress a expiry (announce config nowMsec newItem addresses) := by
  obtain ⟨b, hb, haddress, hdad, hle⟩ := h
  rcases announce_cases newItem addresses with ⟨pre, x, post, rfl, heq⟩ | heq | ⟨x, -, heq⟩
  · rw [heq]
    rcases mem_append.mp hb with hpre | hpost
    · exact ⟨b, mem_append_left _ hpre, haddress, hdad, hle⟩
    · rcases mem_cons.mp hpost with rfl | hpost
      · refine ⟨_, mem_append_right _ mem_cons_self, haddress, hdad, ?_⟩
        exact (le_min hle hexpiry).trans (le_newExpiryFromRa hnow)
      · exact ⟨b, mem_append_right _ (mem_cons_of_mem _ hpost), haddress, hdad, hle⟩
  · rw [heq]
    exact ⟨b, hb, haddress, hdad, hle⟩
  · rw [heq]
    exact ⟨b, mem_append_left _ hb, haddress, hdad, hle⟩

theorem PreferredOk.announce {addresses : List NDiscAddress} (h : PreferredOk addresses)
    : PreferredOk (announce config nowMsec newItem addresses) := by
  rcases announce_cases newItem addresses with ⟨pre, x, post, rfl, heq⟩ | heq | ⟨x, hx, heq⟩
  · rw [heq]
    intro a ha
    rcases mem_append.mp ha with hpre | hpost
    · exact h a (mem_append_left _ hpre)
    · rcases mem_cons.mp hpost with rfl | hpost
      · exact min_le_right _ _
      · exact h a (mem_append_right _ (mem_cons_of_mem _ hpost))
  · rw [heq]
    exact h
  · rw [heq]
    intro a ha
    rcases mem_append.mp ha with ha | ha
    · exact h a ha
    · rw [mem_singleton.mp ha]
      exact hx

theorem receiveItems_addresses {I : List NDiscAddress → Prop} {msg : RouterAdvert}
    (hstep : ∀ newItem addresses, I addresses → I (announce config nowMsec newItem addresses))
    (st : RaReceiving) (h : I st.rdata.addresses) :
    I (receiveItems config nowMsec msg st).rdata.addresses := by
  have hfold {α : Type} (items : List α) (f : RaReceiving → α → RaReceiving)
      (hf : ∀ st item, I st.rdata.addresses → I (f st item).rdata.addresses) :
      ∀ st, I st.rdata.addresses → I (items.foldl f st).rdata.addresses := fun st hst =>
    Lib.foldl_invariant (I := fun st : RaReceiving => I st.rdata.addresses) hf hst items
  have hprefix : ∀ st opt, I st.rdata.addresses →
      I (receivePrefix config nowMsec st opt).rdata.addresses := by
    intro st opt hst
    rw [receivePrefix_addresses]
    split_ifs
    · exact hstep _ _ hst
    · exact hst
  have hroute : ∀ st opt, I st.rdata.addresses →
      I (receiveRoute msg.addrTo nowMsec st opt).rdata.addresses := by
    intro st opt hst
    unfold receiveRoute
    dsimp only
    split_ifs
    · exact hst
    · rw [added_rdata, addRoute_addresses]
      exact hst
  have hrdnss : ∀ st opt, I st.rdata.addresses →
      I (receiveRdnss nowMsec st opt).rdata.addresses := by
    intro st opt hst
    exact hfold _ _ (fun _ _ hst => by exact hst) st hst
  have hdnssl : ∀ st opt, I st.rdata.addresses →
      I (receiveDnssl nowMsec st opt).rdata.addresses := by
    intro st opt hst
    exact hfold _ _ (fun _ _ hst => by exact hst) st hst
  unfold receiveItems
  dsimp only
  apply hfold _ _ hdnssl
  apply hfold _ _ hrdnss
  apply hfold _ _ hroute
  apply hfold _ _ hprefix
  exact h

theorem checkTimestamps_addresses (changed : NDiscConfigMap) (rdata : NDiscData) :
    (checkTimestamps config nowMsec changed rdata).rdata.addresses =
      kept NDiscAddress.expiryMsec nowMsec rdata.addresses := by
  have haddresses (c : NDiscCheck) : (cleanAddresses config nowMsec c).rdata.addresses =
      kept NDiscAddress.expiryMsec nowMsec c.rdata.addresses := by
    unfold cleanAddresses NDiscCheck.cleanItems
    split_ifs with hempty
    · rw [length_eq_zero_iff.mp hempty]
      rfl
    · exact congrArg Prod.fst (compactItems_eq _ _ _ _)
  have hgateways (c : NDiscCheck) : (cleanGateways nowMsec c).rdata.addresses = c.rdata.addresses :=
    NDiscCheck.cleanItems_frame NDiscData.addresses (fun _ _ => rfl) fun _ => rfl
  have hroutes (c : NDiscCheck) : (cleanRoutes nowMsec c).rdata.addresses = c.rdata.addresses :=
    NDiscCheck.cleanItems_frame NDiscData.addresses (fun _ _ => rfl) fun _ => rfl
  have hservers (c : NDiscCheck) : (cleanDnsServers nowMsec c).rdata.addresses = c.rdata.addresses :=
    NDiscCheck.cleanItems_frame NDiscData.addresses (fun _ _ => rfl) fun _ => rfl
  have hdomains (c : NDiscCheck) : (cleanDnsDomains nowMsec c).rdata.addresses = c.rdata.addresses :=
    NDiscCheck.cleanItems_frame NDiscData.addresses (fun _ _ => rfl) fun _ => rfl
  unfold checkTimestamps
  dsimp only
  rw [hdomains, hservers, hroutes, haddresses, hgateways]

theorem PreferredOk.kept {addresses : List NDiscAddress} (h : PreferredOk addresses) :
    PreferredOk (kept NDiscAddress.expiryMsec nowMsec addresses) :=
  fun a ha => h a (mem_of_mem_filter ha)

theorem KeepsAddress.kept {addresses : List NDiscAddress} (h : KeepsAddress a expiry addresses) :
    KeepsAddress a expiry (kept NDiscAddress.expiryMsec nowMsec addresses) ∨ expiry ≤ nowMsec := by
  obtain ⟨b, hb, haddress, hdad, hle⟩ := h
  by_cases hexpired : NotExpired nowMsec b.expiryMsec
  · exact .inl ⟨b, mem_filter.mpr ⟨hb, by simpa using hexpired⟩, haddress, hdad, hle⟩
  · right
    have hlate := (not_or.mp hexpired).2
    omega

theorem PreferredOk.step (h : PreferredOk s.rdata.addresses) (e : RaEvent) :
    PreferredOk (s.step config e).rdata.addresses := by
  cases e with
  | receiveRa nowMsec msg =>
    unfold NDiscState.step receiveRa
    dsimp only
    split_ifs
    · exact h
    · rw [checkTimestamps_addresses]
      exact (receiveItems_addresses (fun _ _ h => PreferredOk.announce h) _ h).kept
  | timeoutExpire nowMsec =>
    unfold NDiscState.step
    dsimp only
    rw [checkTimestamps_addresses]
    exact h.kept

theorem KeepsAddress.step {e : RaEvent} (h : KeepsAddress a expiry s.rdata.addresses)
    (hnow : TimestampOk e.time) (hexpiry : expiry ≤ e.time + prefixLftMinMsec) :
    KeepsAddress a expiry (s.step config e).rdata.addresses ∨ expiry ≤ e.time := by
  cases e with
  | receiveRa nowMsec msg =>
    unfold NDiscState.step receiveRa
    dsimp only
    split_ifs
    · exact .inl h
    · rw [checkTimestamps_addresses]
      exact KeepsAddress.kept
        (receiveItems_addresses (fun _ _ h => h.announce hnow hexpiry) _ h)
  | timeoutExpire nowMsec =>
    unfold NDiscState.step
    dsimp only
    rw [checkTimestamps_addresses]
    exact h.kept

theorem KeepsAddress.run {events : List RaEvent} (hnow : ∀ e ∈ events, TimestampOk e.time)
    (hexpiry : ∀ e ∈ events, expiry ≤ e.time + prefixLftMinMsec)
    (h : KeepsAddress a expiry s.rdata.addresses) :
    KeepsAddress a expiry (events.foldl (NDiscState.step config) s).rdata.addresses ∨
      ∃ e ∈ events, expiry ≤ e.time := by
  induction events generalizing s with
  | nil => exact .inl h
  | cons e events ih =>
    rw [forall_mem_cons] at hnow hexpiry
    rcases h.step hnow.1 hexpiry.1 with hkept | hlate
    · rcases ih hnow.2 hexpiry.2 hkept with hrun | ⟨e', he', hlate⟩
      · exact .inl hrun
      · exact .inr ⟨e', mem_cons_of_mem _ he', hlate⟩
    · exact .inr ⟨e, mem_cons_self, hlate⟩

/-- What an option makes of the address of its prefix, whatever else was received before. -/
def PrefixProtected (config : NDiscConfig) : Prop :=
  ∀ (nowMsec : ℤ) (st : RaReceiving) (opt : NdpPrefixOption) (pre post : List NDiscAddress)
    (a : NDiscAddress), TimestampOk nowMsec → opt.Autoconf →
    st.rdata.addresses = pre ++ a :: post →
    addressPrefix a.address = addressPrefix (opt.address nowMsec).address →
    (∀ b ∈ pre, addressPrefix b.address ≠ addressPrefix a.address) →
    ∃ b : NDiscAddress,
      (receivePrefix config nowMsec st opt).rdata.addresses = pre ++ b :: post ∧
      b.address = a.address ∧ b.dadCounter = a.dadCounter ∧
      ProtectedLifetime (advertisedLifetime opt.validTime)
        (remainingLifetime nowMsec a.expiryMsec) (remainingLifetime nowMsec b.expiryMsec) ∧
      b.expiryPreferredMsec ≤ b.expiryMsec

theorem prefixProtected (config : NDiscConfig) : PrefixProtected config := by
  intro nowMsec st opt pre post a hnow hauto haddresses hprefix hpre
  refine ⟨a.refreshed (opt.address nowMsec) nowMsec, ?_, rfl, rfl, ?_, min_le_right _ _⟩
  · rw [receivePrefix_addresses, if_pos hauto, haddresses]
    exact announce_append (fun b hb => hprefix ▸ hpre b hb) hprefix
  · exact remainingLifetime_newExpiryFromRa hnow rfl

/-- In every run of advertisements the lifetime of an address that is announced again follows the
rule of the RFC, an address stays until it expires, which is not before two hours have passed
since the first of the advertisements that are to shorten its lifetime, and no address is
preferred for longer than it is valid. -/
theorem addresses_protected (config : NDiscConfig) (before after : List RaEvent) (e : RaEvent)
    (hevents : EventsOk (before ++ e :: after)) :
    PrefixProtected config ∧
      PreferredOk (before.foldl (NDiscState.step config) .init).rdata.addresses ∧
      ∀ a ∈ (before.foldl (NDiscState.step config) .init).rdata.addresses,
        let expiry := min a.expiryMsec (e.time + prefixLftMinMsec)
        KeepsAddress a expiry
            ((before ++ e :: after).foldl (NDiscState.step config) .init).rdata.addresses ∨
          ∃ e' ∈ e :: after, expiry ≤ e'.time := by
  refine ⟨prefixProtected config, ?_, fun a ha => ?_⟩
  · refine Lib.foldl_invariant (I := fun s : NDiscState => PreferredOk s.rdata.addresses)
      (fun s e h => h.step e) ?_ before
    exact forall_mem_nil _
  · rw [foldl_append]
    have hsorted := (pairwise_append.mp hevents.sorted).2.1
    rw [pairwise_cons] at hsorted
    apply KeepsAddress.run
    · exact fun e' he' => hevents.timestamps e' (mem_append_right _ he')
    · intro e' he'
      have hle : e.time ≤ e'.time := by
        rcases mem_cons.mp he' with rfl | he'
        · exact le_rfl
        · exact hsorted.1 e' he'
      have := min_le_right a.expiryMsec (e.time + prefixLftMinMsec)
      omega
    · exact ⟨a, ha, rfl, rfl, min_le_left _ _⟩

def eui64Config : NDiscConfig := ⟨16, .eui64, some 1, fun _ _ => 0⟩

/-- An advertisement of one prefix, with the same lifetime for both. -/
def advertPrefix (lifetime : BitVec 32) : RouterAdvert where
  addrTo := 0xfe800000000000000000000000000001
  flagManaged := false
  flagOther := false
  routerLifetime := 1800
  routePreference := .medium
  prefixes := [⟨0x20010db8000000000000000000000000, 64, true, true, lifetime, lifetime⟩]
  routes := []
  rdnss := []
  dnssl := []
  curHopLimit := 64
  reachableTime := 0
  retransmitTime := 0
  mtus := []

/-- An address for a day, whose prefix is then announced with no lifetime at all. -/
theorem withdrawn_address_protected :
    KeepsAddress ⟨0x20010db8000000000000000000000001, 86401000, 86401000, 0⟩ 7202000
      ([RaEvent.receiveRa 1000 (advertPrefix 86400), .receiveRa 2000 (advertPrefix 0),
        .timeoutExpire 3000].foldl (NDiscState.step eui64Config) .init).rdata.addresses := by
  have h := addresses_protected eui64Config [.receiveRa 1000 (advertPrefix 86400)]
    [.timeoutExpire 3000] (.receiveRa 2000 (advertPrefix 0)) ⟨by decide, by decide⟩
  have ha : (⟨0x20010db8000000000000000000000001, 86401000, 86401000, 0⟩ : NDiscAddress) ∈
      ([RaEvent.receiveRa 1000 (advertPrefix 86400)].foldl (NDiscState.step eui64Config)
        .init).rdata.addresses := by decide +kernel
  exact (h.2.2 _ ha).resolve_right (by decide)

end NetworkManager.Core
