import NetworkManager.Lib.Keyed
import NetworkManager.Lib.Runs
import NetworkManager.Lib.SwapRemove
import Mathlib.Data.BitVec
import Mathlib.Tactic.IntervalCases
import Mathlib.Tactic.Ring

/-!
# The pool of delegated IPv6 prefixes

`NMPolicy` keeps the prefixes that were delegated to uplink devices, and gives the downlink
devices that share a connection a `/64` out of each of them. A downlink is known by its ifindex.
The clock is read again in each call.
-/

namespace NetworkManager.Core

open Lib List

/-- What `nm_device_get_ifindex()` may return. -/
abbrev Ifindex := Fin (2 ^ 31)

instance neZeroTwoPow : NeZero (2 ^ 31) := ⟨by decide⟩

def lifetimePermanent : BitVec 32 := BitVec.allOnes 32

/-- `struct in6_addr`, as its first two and its last two 32-bit words. -/
structure In6Addr where
  hi : BitVec 64
  lo : BitVec 64
  deriving DecidableEq

/-- `NMPlatformIP6Address`, as far as the pool uses it. -/
structure NMPlatformIP6Address where
  address : In6Addr
  plen : ℕ
  timestamp : BitVec 32
  lifetime : BitVec 32
  preferred : BitVec 32
  deriving DecidableEq

/-- The prefix has 1 to 64 bits, and its address has no bits beyond them. -/
structure NMPlatformIP6Address.IsPrefix (a : NMPlatformIP6Address) : Prop where
  plen_pos : 1 ≤ a.plen
  plen_le : a.plen ≤ 64
  hi_dvd : 2 ^ (64 - a.plen) ∣ a.address.hi.toNat
  lo_eq : a.address.lo = 0

/-- A prefix that DHCPv6 may delegate. -/
structure Ip6Prefix extends NMPlatformIP6Address where
  isPrefix : toNMPlatformIP6Address.IsPrefix

instance : DecidableEq Ip6Prefix := fun p q =>
  decidable_of_iff (p.toNMPlatformIP6Address = q.toNMPlatformIP6Address) (by
    cases p
    cases q
    simp)

/-- `IP6PrefixDelegation` of an uplink device in `D`. -/
structure IP6PrefixDelegation (D : Type*) where
  pfx : Ip6Prefix
  device : D
  nextSubnet : ℕ
  subnets : List (Ifindex × NMPlatformIP6Address)
  deriving DecidableEq

variable {D : Type*} [DecidableEq D]

namespace IP6PrefixDelegation

/-- `delegation->prefix.timestamp + delegation->prefix.lifetime < now` -/
def expired (now : BitVec 32) (d : IP6PrefixDelegation D) : Bool :=
  d.pfx.timestamp + d.pfx.lifetime < now

/-- `1 << (64 - plen)`, an `int` that is compared with a `guint64`. C leaves it undefined for
prefixes of 32 bits and less; machines take the count modulo 32. -/
def subnetLimit (plen : ℕ) : ℕ := ((1#32 <<< ((64 - plen) % 32)).signExtend 64).toNat

/-- The subnet with the number `next_subnet`. -/
def newSubnet (d : IP6PrefixDelegation D) : NMPlatformIP6Address where
  address := ⟨d.pfx.address.hi ||| BitVec.ofNat 64 d.nextSubnet, 0⟩
  plen := 64
  timestamp := 0
  lifetime := 0
  preferred := 0

/-- The subnet, with the lifetimes that the prefix has now. -/
def renew (d : IP6PrefixDelegation D) (subnet : NMPlatformIP6Address) : NMPlatformIP6Address :=
  { subnet with
    timestamp := d.pfx.timestamp
    lifetime := d.pfx.lifetime
    preferred := d.pfx.preferred }

/-- `ip6_subnet_from_delegation()`: the subnet that the device uses, or none where the prefix is
reported to be exhausted. -/
def subnetFrom (d : IP6PrefixDelegation D) (ifindex : Ifindex) :
    IP6PrefixDelegation D × Option NMPlatformIP6Address :=
  match lookup Prod.fst ifindex d.subnets with
  | some (_, subnet) =>
    ({ d with subnets := modifyKey Prod.fst ifindex (fun s => (s.1, d.renew s.2)) d.subnets },
      some (d.renew subnet))
  | none =>
    if subnetLimit d.pfx.plen ≤ d.nextSubnet then (d, none)
    else
      ({ d with
          nextSubnet := d.nextSubnet + 1
          subnets := d.subnets ++ [(ifindex, d.renew d.newSubnet)] },
        some (d.renew d.newSubnet))

end IP6PrefixDelegation

open IP6PrefixDelegation

/-- `expire_ip6_delegations()`: the pool, and the delegations that were cleared. -/
def expireIp6Delegations (now : BitVec 32) (pool : List (IP6PrefixDelegation D)) :
    List (IP6PrefixDelegation D) × List (IP6PrefixDelegation D) :=
  sweepFast (expired now) pool

def ip6RemoveDevicePrefixDelegations (device : D) (pool : List (IP6PrefixDelegation D)) :
    List (IP6PrefixDelegation D) × List (IP6PrefixDelegation D) :=
  sweepFast (fun d => d.device = device) pool

/-- A call of `ip6_subnet_from_delegation()` with the delegation that it finds. -/
structure SubnetCall (D : Type*) where
  delegation : IP6PrefixDelegation D
  ifindex : Ifindex

def SubnetCall.result (c : SubnetCall D) : Option NMPlatformIP6Address :=
  (c.delegation.subnetFrom c.ifindex).2

/-- What a handler does: the pool that it leaves, the calls that it makes, the delegations that it
clears, and the number of prefixes that it asks the uplink for. -/
structure PoolOutcome (D : Type*) where
  pool : List (IP6PrefixDelegation D)
  calls : List (SubnetCall D)
  cleared : List (IP6PrefixDelegation D)
  requestPrefixes : Option ℕ

def ip6SubnetFromDevice (fromDevice : D) (ifindex : Ifindex) (now : BitVec 32)
    (pool : List (IP6PrefixDelegation D)) : PoolOutcome D :=
  let kept := (expireIp6Delegations now pool).1
  let calls := (kept.filter fun d => d.device = fromDevice).map fun d => ⟨d, ifindex⟩
  { pool := kept.map fun d => if d.device = fromDevice then (d.subnetFrom ifindex).1 else d
    calls
    cleared := (expireIp6Delegations now pool).2
    requestPrefixes :=
      if calls.any fun c => c.result.isSome then none else some (calls.length + 1) }

/-- The calls for one downlink after the other, and the delegation after them. -/
def serveDownlinks (d : IP6PrefixDelegation D) :
    List Ifindex → IP6PrefixDelegation D × List (SubnetCall D)
  | [] => (d, [])
  | ifindex :: downlinks =>
    let rest := serveDownlinks (d.subnetFrom ifindex).1 downlinks
    (rest.1, ⟨d, ifindex⟩ :: rest.2)

/-- The delegation that a prefix updates, or a new one. -/
def updatedDelegation (device : D) (pfx : Ip6Prefix) (pool : List (IP6PrefixDelegation D)) :
    IP6PrefixDelegation D :=
  match lookup (fun d => d.pfx.address) pfx.address pool with
  | some d => { d with device, pfx }
  | none => { device, pfx, nextSubnet := 0, subnets := [] }

/-- `device_ip6_prefix_delegated()`, where `downlinks` are the active connections that need a
subnet, the last one first. -/
def deviceIp6PrefixDelegated (device : D) (pfx : Ip6Prefix) (downlinks : List Ifindex)
    (now : BitVec 32) (pool : List (IP6PrefixDelegation D)) : PoolOutcome D :=
  let kept := (expireIp6Delegations now pool).1
  let served := serveDownlinks (updatedDelegation device pfx kept) downlinks
  { pool := upsert (fun d => d.pfx.address) served.1 kept
    calls := served.2
    cleared := (expireIp6Delegations now pool).2
    requestPrefixes := none }

/-- What happens to the pool. -/
inductive PoolEvent (D : Type*)
  | prefixDelegated (device : D) (pfx : Ip6Prefix) (downlinks : List Ifindex) (now : BitVec 32)
  /-- A downlink needs a subnet, or `update_ip6_prefix_delegation()` comes to it, while
  `fromDevice` is the default device. -/
  | subnetNeeded (fromDevice : D) (ifindex : Ifindex) (now : BitVec 32)
  /-- The device is deactivated or removed. -/
  | deviceGone (device : D)

def PoolEvent.outcome (pool : List (IP6PrefixDelegation D)) : PoolEvent D → PoolOutcome D
  | .prefixDelegated device pfx downlinks now =>
    deviceIp6PrefixDelegated device pfx downlinks now pool
  | .subnetNeeded fromDevice ifindex now => ip6SubnetFromDevice fromDevice ifindex now pool
  | .deviceGone device =>
    { pool := (ip6RemoveDevicePrefixDelegations device pool).1
      calls := []
      cleared := (ip6RemoveDevicePrefixDelegations device pool).2
      requestPrefixes := none }

def poolStep (pool : List (IP6PrefixDelegation D)) (e : PoolEvent D) :
    List (IP6PrefixDelegation D) :=
  (e.outcome pool).pool

/-!
## Soundness of the prefix pool

The subnets of a delegation are numbered in the order in which they were handed out, so they are
distinct and lie in the prefix as long as it keeps its length. The pool is sound in a run if and
only if no call gets to see a number beyond a prefix that became longer, no prefix of 32 bits or
less uses up the shifted limit, and the sweeps over the array find all that they look for.
-/

variable {D : Type*} [DecidableEq D]

/-! ## What soundness means -/

/-- The subnet is a `/64` that has the first bits in common with the prefix. -/
structure InsidePrefix (pfx : Ip6Prefix) (subnet : NMPlatformIP6Address) : Prop where
  plen_eq : subnet.plen = 64
  lo_eq : subnet.address.lo = 0
  hi_eq : subnet.address.hi >>> (64 - pfx.plen) = pfx.address.hi >>> (64 - pfx.plen)

def IP6PrefixDelegation.ended (now : BitVec 32) (d : IP6PrefixDelegation D) : Bool :=
  d.pfx.lifetime ≠ lifetimePermanent && d.pfx.timestamp.toNat + d.pfx.lifetime.toNat < now.toNat

/-- Only a subnet inside the prefix is handed out, and a prefix is exhausted only after all of its
subnets are used by different downlinks. -/
structure SubnetCall.Sound (c : SubnetCall D) : Prop where
  inside : ∀ subnet ∈ c.result, InsidePrefix c.delegation.pfx subnet
  exhausted : c.result = none →
    2 ^ (64 - c.delegation.pfx.plen) ≤ (c.delegation.subnets.map Prod.fst).toFinset.card

/-- After an expiry, just the delegations that have ended are gone. -/
def PoolEvent.ExpirySound (pool : List (IP6PrefixDelegation D)) : PoolEvent D → Prop
  | .prefixDelegated _ _ _ now | .subnetNeeded _ _ now =>
    (expireIp6Delegations now pool).1.Perm (pool.filter fun d => !d.ended now)
  | .deviceGone _ => True

/-- After the delegations of a device were removed, none refers to it. -/
def PoolEvent.RemovalSound (pool : List (IP6PrefixDelegation D)) : PoolEvent D → Prop
  | .prefixDelegated .. | .subnetNeeded .. => True
  | .deviceGone device => ∀ d ∈ (ip6RemoveDevicePrefixDelegations device pool).1, d.device ≠ device

structure PoolEvent.Sound (pool : List (IP6PrefixDelegation D)) (e : PoolEvent D) : Prop where
  calls : ∀ c ∈ (e.outcome pool).calls, c.Sound
  distinct : ∀ d ∈ poolStep pool e, ∀ s ∈ d.subnets, ∀ t ∈ d.subnets,
    s.2.address = t.2.address → s.1 = t.1
  expiry : e.ExpirySound pool
  removal : e.RemovalSound pool

/-! ## The condition -/

/-- The number of the subnet that is on record fits into the prefix, and the limit of a short
prefix is not reached. -/
structure SubnetCall.InReach (c : SubnetCall D) : Prop where
  recorded : ∀ s ∈ lookup Prod.fst c.ifindex c.delegation.subnets,
    s.2.address.hi.toNat < c.delegation.pfx.address.hi.toNat + 2 ^ (64 - c.delegation.pfx.plen)
  limit : lookup Prod.fst c.ifindex c.delegation.subnets = none → c.delegation.pfx.plen ≤ 32 →
    c.delegation.nextSubnet < IP6PrefixDelegation.subnetLimit c.delegation.pfx.plen

/-- The sweep of the event finds what it looks for, and finds nothing else. -/
def PoolEvent.SweepInReach (pool : List (IP6PrefixDelegation D)) : PoolEvent D → Prop
  | .prefixDelegated _ _ _ now | .subnetNeeded _ _ now =>
    SweepExact (IP6PrefixDelegation.expired now) (IP6PrefixDelegation.ended now) pool
  | .deviceGone device => SweepExact (fun d => d.device = device) (fun d => d.device = device) pool

structure PoolEvent.InReach (pool : List (IP6PrefixDelegation D)) (e : PoolEvent D) : Prop where
  calls : ∀ c ∈ (e.outcome pool).calls, c.InReach
  sweep : e.SweepInReach pool

/-! ## Delegations -/

namespace IP6PrefixDelegation

theorem le_subnetLimit {plen : ℕ} (h : 32 < plen) (hle : plen ≤ 64) :
    2 ^ (64 - plen) ≤ subnetLimit plen := by
  interval_cases plen <;> decide

theorem subnetLimit_eq {plen : ℕ} (h : 33 < plen) (hle : plen ≤ 64) :
    subnetLimit plen = 2 ^ (64 - plen) := by
  interval_cases plen <;> decide

/-- The subnets are numbered from 0, in order. -/
structure Numbered (d : IP6PrefixDelegation D) : Prop where
  unique : KeyUnique Prod.fst d.subnets
  numbers : d.subnets.map (fun s => s.2.address.hi.toNat) =
    (List.range d.nextSubnet).map fun n => d.pfx.address.hi.toNat + n
  isSubnet : ∀ s ∈ d.subnets, s.2.plen = 64 ∧ s.2.address.lo = 0

variable {d : IP6PrefixDelegation D} {ifindex : Ifindex}

omit [DecidableEq D]

section

variable (h : d.Numbered)

include h

theorem Numbered.length_eq : d.subnets.length = d.nextSubnet := by
  simpa using congrArg List.length h.numbers

theorem Numbered.mem_number {s : Ifindex × NMPlatformIP6Address} (hs : s ∈ d.subnets) :
    ∃ n < d.nextSubnet, s.2.address.hi.toNat = d.pfx.address.hi.toNat + n := by
  have hmem : s.2.address.hi.toNat ∈ d.subnets.map fun s => s.2.address.hi.toNat :=
    mem_map_of_mem hs
  rw [h.numbers] at hmem
  obtain ⟨n, hn, heq⟩ := mem_map.mp hmem
  exact ⟨n, mem_range.mp hn, heq.symm⟩

theorem Numbered.eq_of_address {s t : Ifindex × NMPlatformIP6Address} (hs : s ∈ d.subnets)
    (ht : t ∈ d.subnets) (hst : s.2.address = t.2.address) : s = t := by
  have hnodup : KeyUnique (fun s : Ifindex × NMPlatformIP6Address => s.2.address.hi.toNat)
      d.subnets := by
    unfold KeyUnique
    rw [h.numbers]
    exact nodup_range.map fun _ _ => Nat.add_left_cancel
  exact eq_of_key_eq hnodup hs ht (by rw [hst])

theorem Numbered.card_eq : (d.subnets.map Prod.fst).toFinset.card = d.nextSubnet := by
  rw [toFinset_card_of_nodup h.unique, length_map, h.length_eq]

theorem Numbered.nextSubnet_lt (hnone : lookup Prod.fst ifindex d.subnets = none) :
    d.nextSubnet < 2 ^ 31 := by
  have hnotMem : ifindex ∉ d.subnets.map Prod.fst := by
    intro hmem
    obtain ⟨s, hs, heq⟩ := mem_map.mp hmem
    exact lookup_eq_none_iff.mp hnone s hs heq
  have hnodup : (ifindex :: d.subnets.map Prod.fst).Nodup := nodup_cons.mpr ⟨hnotMem, h.unique⟩
  have hle := hnodup.length_le_card
  rw [length_cons, length_map, h.length_eq, Fintype.card_fin] at hle
  exact hle

theorem Numbered.nextSubnet_fits (hnone : lookup Prod.fst ifindex d.subnets = none)
    (hlimit : d.nextSubnet < subnetLimit d.pfx.plen) : d.nextSubnet < 2 ^ (64 - d.pfx.plen) := by
  by_cases hplen : 33 < d.pfx.plen
  · rwa [subnetLimit_eq hplen d.pfx.isPrefix.plen_le] at hlimit
  · calc d.nextSubnet < 2 ^ 31 := h.nextSubnet_lt hnone
      _ ≤ 2 ^ (64 - d.pfx.plen) := Nat.pow_le_pow_right (by omega) (by omega)

end

theorem newSubnet_hi (hfits : d.nextSubnet < 2 ^ (64 - d.pfx.plen)) :
    d.newSubnet.address.hi.toNat = d.pfx.address.hi.toNat + d.nextSubnet := by
  obtain ⟨m, hm⟩ := d.pfx.isPrefix.hi_dvd
  have hsmall : d.nextSubnet < 2 ^ 64 :=
    hfits.trans_le (Nat.pow_le_pow_right (by omega) (Nat.sub_le 64 d.pfx.plen))
  have hnew : d.newSubnet.address.hi.toNat = d.pfx.address.hi.toNat ||| d.nextSubnet := by
    simp only [newSubnet, BitVec.toNat_or, BitVec.toNat_ofNat, Nat.mod_eq_of_lt hsmall]
  rw [hnew, hm, ← Nat.two_pow_add_eq_or_of_lt hfits]

theorem Numbered.modify (h : d.Numbered) :
    Numbered { d with
      subnets := modifyKey Prod.fst ifindex (fun s => (s.1, d.renew s.2)) d.subnets } := by
  refine ⟨h.unique.modifyKey fun _ => rfl, ?_, ?_⟩
  · rw [← h.numbers, modifyKey, map_map]
    apply map_congr_left
    intro s _
    by_cases hs : s.1 = ifindex <;> simp [hs, renew]
  · intro s hs
    obtain ⟨t, ht, rfl⟩ := mem_map.mp hs
    split_ifs
    · exact h.isSubnet t ht
    · exact h.isSubnet t ht

theorem Numbered.add (h : d.Numbered) (hnone : lookup Prod.fst ifindex d.subnets = none)
    (hfits : d.nextSubnet < 2 ^ (64 - d.pfx.plen)) :
    Numbered { d with
      nextSubnet := d.nextSubnet + 1
      subnets := d.subnets ++ [(ifindex, d.renew d.newSubnet)] } := by
  refine ⟨h.unique.append_singleton (lookup_eq_none_iff.mp hnone), ?_, ?_⟩
  · have hhi : (d.renew d.newSubnet).address.hi.toNat = d.pfx.address.hi.toNat + d.nextSubnet :=
      newSubnet_hi hfits
    rw [map_append, h.numbers, range_succ, map_append, map_singleton,
      map_singleton, hhi]
  · intro s hs
    rcases mem_append.mp hs with hs | hs
    · exact h.isSubnet s hs
    · rw [mem_singleton.mp hs]
      exact ⟨rfl, rfl⟩

theorem subnetFrom_cases (d : IP6PrefixDelegation D) (ifindex : Ifindex) :
    (∃ s, lookup Prod.fst ifindex d.subnets = some s ∧ d.subnetFrom ifindex =
      ({ d with subnets := modifyKey Prod.fst ifindex (fun s => (s.1, d.renew s.2)) d.subnets },
        some (d.renew s.2))) ∨
    (lookup Prod.fst ifindex d.subnets = none ∧ subnetLimit d.pfx.plen ≤ d.nextSubnet ∧
      d.subnetFrom ifindex = (d, none)) ∨
    (lookup Prod.fst ifindex d.subnets = none ∧ d.nextSubnet < subnetLimit d.pfx.plen ∧
      d.subnetFrom ifindex =
        ({ d with
            nextSubnet := d.nextSubnet + 1
            subnets := d.subnets ++ [(ifindex, d.renew d.newSubnet)] },
          some (d.renew d.newSubnet))) := by
  unfold subnetFrom
  cases hs : lookup Prod.fst ifindex d.subnets with
  | some s => exact .inl ⟨s, rfl, rfl⟩
  | none =>
    by_cases hlimit : subnetLimit d.pfx.plen ≤ d.nextSubnet
    · exact .inr (.inl ⟨rfl, hlimit, if_pos hlimit⟩)
    · exact .inr (.inr ⟨rfl, Nat.lt_of_not_le hlimit, if_neg hlimit⟩)

theorem subnetFrom_pfx : (d.subnetFrom ifindex).1.pfx = d.pfx := by
  obtain ⟨s, -, h⟩ | ⟨-, -, h⟩ | ⟨-, -, h⟩ := d.subnetFrom_cases ifindex <;> rw [h]

theorem Numbered.subnetFrom (h : d.Numbered) (ifindex : Ifindex) : (d.subnetFrom ifindex).1.Numbered := by
  obtain ⟨s, -, heq⟩ | ⟨-, -, heq⟩ | ⟨hnone, hlimit, heq⟩ := d.subnetFrom_cases ifindex
  · rw [heq]
    exact h.modify
  · rw [heq]
    exact h
  · rw [heq]
    exact h.add hnone (h.nextSubnet_fits hnone hlimit)

/-! ## Calls -/

theorem insidePrefix_iff (pfx : Ip6Prefix) (subnet : NMPlatformIP6Address) {n : ℕ}
    (hplen : subnet.plen = 64) (hlo : subnet.address.lo = 0)
    (hhi : subnet.address.hi.toNat = pfx.address.hi.toNat + n) :
    InsidePrefix pfx subnet ↔ n < 2 ^ (64 - pfx.plen) := by
  obtain ⟨m, hm⟩ := pfx.isPrefix.hi_dvd
  have hpos : 0 < 2 ^ (64 - pfx.plen) := Nat.two_pow_pos _
  have hshift : subnet.address.hi >>> (64 - pfx.plen) = pfx.address.hi >>> (64 - pfx.plen) ↔
      n / 2 ^ (64 - pfx.plen) = 0 := by
    rw [← BitVec.toNat_inj, BitVec.toNat_ushiftRight, BitVec.toNat_ushiftRight, hhi, hm,
      Nat.shiftRight_eq_div_pow, Nat.shiftRight_eq_div_pow, Nat.mul_add_div hpos,
      Nat.mul_div_cancel_left _ hpos]
    omega
  rw [← Nat.div_eq_zero_iff_lt hpos, ← hshift]
  exact ⟨fun h => h.hi_eq, fun h => ⟨hplen, hlo, h⟩⟩

end IP6PrefixDelegation

open IP6PrefixDelegation

omit [DecidableEq D] in
/-- A call is sound if and only if it is in reach. -/
theorem SubnetCall.sound_iff {c : SubnetCall D} (h : c.delegation.Numbered) :
    c.Sound ↔ c.InReach := by
  obtain ⟨d, ifindex⟩ := c
  obtain ⟨s, hs, heq⟩ | ⟨hnone, hlimit, heq⟩ | ⟨hnone, hlimit, heq⟩ := d.subnetFrom_cases ifindex
  · -- The subnet that is on record is used again.
    have hmem : s ∈ d.subnets := mem_of_lookup hs
    obtain ⟨n, -, hn⟩ := h.mem_number hmem
    obtain ⟨hplen, hlo⟩ := h.isSubnet s hmem
    have hinside := insidePrefix_iff d.pfx (d.renew s.2) hplen hlo hn
    have hresult : SubnetCall.result ⟨d, ifindex⟩ = some (d.renew s.2) := by
      rw [SubnetCall.result, heq]
    constructor
    · intro hsound
      have hlt := hinside.mp (hsound.inside _ hresult)
      refine ⟨fun t ht => ?_, fun hnone => by simp [hs] at hnone⟩
      obtain rfl : s = t := Option.some.inj (hs.symm.trans ht)
      rw [hn]
      exact Nat.add_lt_add_left hlt _
    · intro hreach
      have hlt := hreach.recorded s hs
      rw [hn] at hlt
      refine ⟨fun subnet hsubnet => ?_, fun hnone => by simp [hresult] at hnone⟩
      obtain rfl : d.renew s.2 = subnet := Option.some.inj (hresult.symm.trans hsubnet)
      exact hinside.mpr (Nat.lt_of_add_lt_add_left hlt)
  · -- The prefix is reported to be exhausted.
    have hresult : SubnetCall.result ⟨d, ifindex⟩ = none := by rw [SubnetCall.result, heq]
    have hlt : d.nextSubnet < 2 ^ 31 := h.nextSubnet_lt hnone
    constructor
    · intro hsound
      have hcard := hsound.exhausted hresult
      rw [h.card_eq] at hcard
      refine ⟨fun s hs => by simp [hnone] at hs, fun _ hplen => ?_⟩
      have hpow : 2 ^ 31 ≤ 2 ^ (64 - d.pfx.plen) :=
        Nat.pow_le_pow_right (by omega) (by simp only at hplen; omega)
      simp only at hcard
      omega
    · intro hreach
      refine ⟨fun s hs => by simp [hresult] at hs, fun _ => ?_⟩
      rw [h.card_eq]
      have hplen : 32 < d.pfx.plen := by
        by_contra hle
        have := hreach.limit hnone (Nat.le_of_not_lt hle)
        exact absurd hlimit (Nat.not_le.mpr this)
      exact (le_subnetLimit hplen d.pfx.isPrefix.plen_le).trans hlimit
  · -- A new subnet is handed out.
    have hresult : SubnetCall.result ⟨d, ifindex⟩ = some (d.renew d.newSubnet) := by
      rw [SubnetCall.result, heq]
    have hfits := h.nextSubnet_fits hnone hlimit
    have hinside : InsidePrefix d.pfx (d.renew d.newSubnet) :=
      (insidePrefix_iff d.pfx (d.renew d.newSubnet) rfl rfl (newSubnet_hi hfits)).mpr hfits
    constructor
    · intro _
      exact ⟨fun s hs => by simp [hnone] at hs, fun _ _ => hlimit⟩
    · intro _
      refine ⟨fun subnet hsubnet => ?_, fun hnone => by simp [hresult] at hnone⟩
      obtain rfl : d.renew d.newSubnet = subnet := Option.some.inj (hresult.symm.trans hsubnet)
      exact hinside

/-! ## The pool -/

/-- The prefixes have different addresses, and the subnets of each are numbered. -/
structure PoolOk (pool : List (IP6PrefixDelegation D)) : Prop where
  unique : KeyUnique (fun d => d.pfx.address) pool
  numbered : ∀ d ∈ pool, d.Numbered

variable {pool : List (IP6PrefixDelegation D)}

omit [DecidableEq D] in
theorem PoolOk.sweep (h : PoolOk pool) (p : IP6PrefixDelegation D → Bool) :
    PoolOk (sweepFast p pool).1 := by
  have hperm := sweepFast_perm (p := p) (l := pool)
  have hkeys : ((sweepFast p pool).1.map fun d => d.pfx.address).Nodup := by
    have hunique : (pool.map fun d => d.pfx.address).Nodup := h.unique
    have hall := (hperm.map fun d => d.pfx.address).nodup_iff.mpr hunique
    rw [map_append] at hall
    exact (nodup_append.mp hall).1
  refine ⟨hkeys, fun d hd => h.numbered d ?_⟩
  exact hperm.mem_iff.mp (mem_append_left _ hd)

omit [DecidableEq D] in
theorem serveDownlinks_numbered {d : IP6PrefixDelegation D} (downlinks : List Ifindex)
    (h : d.Numbered) : (serveDownlinks d downlinks).1.Numbered ∧
      (serveDownlinks d downlinks).1.pfx = d.pfx ∧
      ∀ c ∈ (serveDownlinks d downlinks).2, c.delegation.Numbered := by
  induction downlinks generalizing d with
  | nil => exact ⟨h, rfl, by simp [serveDownlinks]⟩
  | cons ifindex downlinks ih =>
    obtain ⟨hlast, hpfx, hcalls⟩ := ih (h.subnetFrom ifindex)
    exact ⟨hlast, hpfx.trans subnetFrom_pfx, forall_mem_cons.mpr ⟨h, hcalls⟩⟩

omit [DecidableEq D] in
theorem PoolOk.updated (h : PoolOk pool) (device : D) (pfx : Ip6Prefix) :
    (updatedDelegation device pfx pool).Numbered := by
  unfold updatedDelegation
  cases hd : lookup (fun d => d.pfx.address) pfx.address pool with
  | none => exact ⟨unique_nil, rfl, by simp⟩
  | some d =>
    have hnum := h.numbered d (mem_of_lookup hd)
    have haddress : d.pfx.address = pfx.address := by
      simpa using List.find?_some hd
    refine ⟨hnum.unique, ?_, hnum.isSubnet⟩
    rw [hnum.numbers, haddress]

omit [DecidableEq D] in
theorem PoolOk.upsert (h : PoolOk pool) {d : IP6PrefixDelegation D} (hd : d.Numbered) :
    PoolOk (upsert (fun d => d.pfx.address) d pool) := by
  refine ⟨h.unique.upsert, fun d' hd' => ?_⟩
  rcases mem_upsert hd' with rfl | hd'
  · exact hd
  · exact h.numbered d' hd'

theorem PoolOk.step (h : PoolOk pool) (e : PoolEvent D) :
    PoolOk (poolStep pool e) ∧ ∀ c ∈ (e.outcome pool).calls, c.delegation.Numbered := by
  cases e with
  | prefixDelegated device pfx downlinks now =>
    have hkept := h.sweep (expired now)
    obtain ⟨hserved, -, hcalls⟩ :=
      serveDownlinks_numbered downlinks (hkept.updated device pfx)
    exact ⟨hkept.upsert hserved, hcalls⟩
  | subnetNeeded fromDevice ifindex now =>
    have hkept := h.sweep (expired now)
    refine ⟨⟨?_, ?_⟩, ?_⟩
    · have hkeys : (poolStep pool (.subnetNeeded fromDevice ifindex now)).map
          (fun d => d.pfx.address) =
          (sweepFast (expired now) pool).1.map fun d => d.pfx.address := by
        show List.map _ (List.map _ _) = _
        rw [map_map]
        apply map_congr_left
        intro d _
        by_cases hd : d.device = fromDevice <;> simp [hd, subnetFrom_pfx]
      unfold KeyUnique
      rw [hkeys]
      exact hkept.unique
    · intro d hd
      obtain ⟨d', hd', rfl⟩ := mem_map.mp hd
      split_ifs
      · exact (hkept.numbered d' hd').subnetFrom ifindex
      · exact hkept.numbered d' hd'
    · intro c hc
      obtain ⟨d, hd, rfl⟩ := mem_map.mp hc
      exact hkept.numbered d (mem_filter.mp hd).1
  | deviceGone device => exact ⟨h.sweep _, by simp [PoolEvent.outcome]⟩

omit [DecidableEq D] in
theorem expired_of_ended {now : BitVec 32} {d : IP6PrefixDelegation D} (h : d.ended now) :
    d.expired now := by
  simp only [ended, Bool.and_eq_true, decide_eq_true_eq] at h
  have hnow := now.isLt
  simp only [expired, BitVec.lt_def, BitVec.toNat_add, decide_eq_true_eq]
  rw [Nat.mod_eq_of_lt (by omega)]
  exact h.2

theorem PoolEvent.sound_iff (h : PoolOk pool) (e : PoolEvent D) : e.Sound pool ↔ e.InReach pool := by
  obtain ⟨hnext, hcalls⟩ := h.step e
  have hiff : (∀ c ∈ (e.outcome pool).calls, c.Sound) ↔
      ∀ c ∈ (e.outcome pool).calls, c.InReach :=
    forall₂_congr fun c hc => SubnetCall.sound_iff (hcalls c hc)
  have hsweep : e.ExpirySound pool ∧ e.RemovalSound pool ↔ e.SweepInReach pool := by
    cases e with
    | prefixDelegated device pfx downlinks now =>
      exact (and_iff_left trivial).trans (sweepFast_perm_filter_iff fun d _ => expired_of_ended)
    | subnetNeeded fromDevice ifindex now =>
      exact (and_iff_left trivial).trans (sweepFast_perm_filter_iff fun d _ => expired_of_ended)
    | deviceGone device =>
      refine (and_iff_right trivial).trans ?_
      simpa [RemovalSound, SweepInReach, ip6RemoveDevicePrefixDelegations] using
        sweepFast_clears_iff (p := fun d : IP6PrefixDelegation D => d.device = device) (l := pool)
  constructor
  · exact fun hs => ⟨hiff.mp hs.calls, hsweep.mp ⟨hs.expiry, hs.removal⟩⟩
  · intro hr
    obtain ⟨hexpiry, hremoval⟩ := hsweep.mpr hr.sweep
    refine ⟨hiff.mpr hr.calls, fun d hd s hs t ht hst => ?_, hexpiry, hremoval⟩
    rw [(hnext.numbered d hd).eq_of_address hs ht hst]

/-- The pool is sound in a run if and only if all of the run is in reach. -/
theorem prefixPool_sound_iff (es : List (PoolEvent D)) :
    Along poolStep (fun pool e => e.Sound pool) [] es ↔
      Along poolStep (fun pool e => e.InReach pool) [] es := by
  have hstart : PoolOk ([] : List (IP6PrefixDelegation D)) := ⟨unique_nil, by simp⟩
  exact along_congr (fun _ e h => (h.step e).1) hstart fun _ e h => e.sound_iff h

/-- A `/56` without an end. -/
def endlessPrefix : Ip6Prefix where
  address := ⟨0x20010db800000000#64, 0⟩
  plen := 56
  timestamp := 1
  lifetime := lifetimePermanent
  preferred := lifetimePermanent
  isPrefix := ⟨by decide, by decide, by decide, rfl⟩

def endlessRun : List (PoolEvent ℕ) :=
  [.prefixDelegated 1 endlessPrefix [] 1, .subnetNeeded 1 3 11]

/-- The prefix without an end expires. -/
theorem endlessRun_not_sound : ¬ Along poolStep (fun pool e => e.Sound pool) [] endlessRun := by
  rintro ⟨-, h, -⟩
  have hlen := h.expiry.length_eq
  revert hlen
  decide

end NetworkManager.Core
