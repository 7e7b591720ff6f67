import NetworkManager.Lib.Keyed
import NetworkManager.Platform.AddressLifetime

/-!
# The sync of IPv4 addresses

`nm_platform_ip_address_sync()` for `AF_INET`, run against a kernel that keeps the
addresses of the interface in a list and marks all but one address of a subnet as
secondary. All addresses belong to the interface that is synchronized.

The indexes of the source hold pointers into the arrays of addresses. Since the
addresses of an array have distinct identities, the addresses themselves stand for
their pointers here. Elements that the source clears are left out of the lists.
-/

namespace NetworkManager.Platform

open Lib

structure Ip4Address where
  address : BitVec 32
  peerAddress : BitVec 32
  plen : ℕ
  useIp4BroadcastAddress : Bool
  broadcastAddress : BitVec 32
  label : String
  lifetime : AddressLifetime
  /-- `IFA_F_SECONDARY` -/
  secondary : Bool
  deriving DecidableEq

/-- The identity of an IPv4 address, with the net-part of the peer-address. -/
structure Ip4AddressId where
  plen : ℕ
  address : BitVec 32
  peerNet : BitVec 32
  deriving DecidableEq

structure Ip4Subnet where
  plen : ℕ
  net : BitVec 32
  deriving DecidableEq

def ip4AddrNetmaskFromPrefix (plen : ℕ) : BitVec 32 :=
  if plen < 32 then ~~~((BitVec.allOnes 32) >>> plen) else BitVec.allOnes 32

def ip4AddrClearHostAddress (addr : BitVec 32) (plen : ℕ) : BitVec 32 :=
  addr &&& ip4AddrNetmaskFromPrefix plen

namespace Ip4Address

def id (a : Ip4Address) : Ip4AddressId :=
  ⟨a.plen, a.address, ip4AddrClearHostAddress a.peerAddress a.plen⟩

def subnet (a : Ip4Address) : Ip4Subnet := ⟨a.plen, ip4AddrClearHostAddress a.address a.plen⟩

def broadcastAddressFromAddr (a : Ip4Address) : BitVec 32 :=
  if a.useIp4BroadcastAddress then a.broadcastAddress
  else if a.peerAddress ≠ 0 ∧ a.plen < 31 then
    a.peerAddress ||| ~~~(ip4AddrNetmaskFromPrefix a.plen)
  else 0

/-- `nm_platform_ip4_address_cmp()` with `NM_PLATFORM_IP_ADDRESS_CMP_TYPE_SEMANTICALLY`
finds no difference. -/
def semanticallyEqual (now : ℕ) (a b : Ip4Address) : Bool :=
  a.plen = b.plen ∧ a.address = b.address ∧ a.peerAddress = b.peerAddress ∧ a.label = b.label ∧
    a.lifetime.get now = b.lifetime.get now ∧
    a.broadcastAddressFromAddr = b.broadcastAddressFromAddr

end Ip4Address

/-! ## The kernel -/

/-- Deleting the primary address of a subnet promotes its first secondary address, or
deletes its secondary addresses as well. -/
inductive PromoteSecondaries
  | promote
  | deleteAll
  deriving DecidableEq

/-- The first secondary address of the subnet becomes primary. -/
def promoteFirst (subnet : Ip4Subnet) : List Ip4Address → List Ip4Address
  | [] => []
  | a :: as =>
    if a.subnet = subnet ∧ a.secondary then { a with secondary := false } :: as
    else a :: promoteFirst subnet as

/-- The kernel deletes an address. -/
def kernelDeleteIp4 (mode : PromoteSecondaries) (i : Ip4AddressId) (kernel : List Ip4Address) :
    List Ip4Address :=
  match lookup Ip4Address.id i kernel with
  | none => kernel
  | some a =>
    let rest := eraseKey Ip4Address.id i kernel
    if a.secondary then rest
    else
      match mode with
      | .promote => promoteFirst a.subnet rest
      | .deleteAll => rest.filter fun b => ¬ (b.subnet = a.subnet ∧ b.secondary)

def kernelAddIp4 (a : Ip4Address) (kernel : List Ip4Address) : List Ip4Address :=
  match lookup Ip4Address.id a.id kernel with
  | some _ => modifyKey Ip4Address.id a.id (fun b => { b with lifetime := a.lifetime }) kernel
  | none => kernel ++ [{ a with secondary := kernel.any fun b => b.subnet = a.subnet }]

/-! ## The index of subnets -/

/-- The addresses of one subnet, a plain address or a list with further addresses. -/
inductive SubnetAddrs
  | plain (a : Ip4Address)
  | addrList (as : List Ip4Address)
  deriving DecidableEq

structure SubnetEntry where
  subnet : Ip4Subnet
  addrs : SubnetAddrs
  deriving DecidableEq

def SubnetAddrs.toList : SubnetAddrs → List Ip4Address
  | plain a => [a]
  | addrList as => as

/-- One address is put into the index of `ip4_addr_subnets_build_index()`. -/
def ip4AddrSubnetsAdd (considerFlags fullIndex : Bool) (subnets : List SubnetEntry)
    (a : Ip4Address) : List SubnetEntry :=
  match lookup SubnetEntry.subnet a.subnet subnets with
  | none => subnets ++ [⟨a.subnet, .plain a⟩]
  | some e =>
    if fullIndex then
      let as := if ¬ considerFlags ∨ a.secondary then e.addrs.toList ++ [a]
        else a :: e.addrs.toList
      put SubnetEntry.subnet ⟨a.subnet, .addrList as⟩ subnets
    else if considerFlags ∧ ¬ a.secondary then
      put SubnetEntry.subnet ⟨a.subnet, .plain a⟩ subnets
    else subnets

def ip4AddrSubnetsBuildIndex (addresses : List Ip4Address) (considerFlags fullIndex : Bool) :
    List SubnetEntry :=
  addresses.foldl (ip4AddrSubnetsAdd considerFlags fullIndex) []

/-- `ip4_addr_subnets_is_secondary()` and its `out_addr_list`. -/
def ip4AddrSubnetsIsSecondary (address : Ip4Address) (subnets : List SubnetEntry) :
    Bool × Option (List Ip4Address) :=
  match lookup SubnetEntry.subnet address.subnet subnets with
  | none => (false, none)
  | some ⟨_, .plain a⟩ => (address ≠ a, none)
  | some ⟨_, .addrList as⟩ => (as.head? ≠ some address, some as)

/-! ## The sync -/

/-- `plat_handled` and `plat_addrs_to_delete`. -/
structure Ip4Plan where
  platHandled : List Ip4Address
  platAddrsToDelete : List Ip4Address
  deriving DecidableEq

/-- One secondary address of a subnet whose primary address is to be deleted. -/
def ip4PlanSecondary (known : List Ip4Address) (plan : Ip4Plan) (o : Ip4Address) : Ip4Plan :=
  if o ∈ plan.platHandled then plan
  else if (lookup Ip4Address.id o.id known).isSome then
    ⟨o :: plan.platHandled, o :: plan.platAddrsToDelete⟩
  else { plan with platHandled := o :: plan.platHandled }

/-- One platform address of the loop that finds the addresses that interfere with the
intended order. -/
def ip4PlanStep (known : List Ip4Address) (knownSubnets platSubnets : List SubnetEntry)
    (plan : Ip4Plan) (platObj : Ip4Address) : Ip4Plan :=
  if platObj ∈ plan.platHandled then plan
  else
    match lookup Ip4Address.id platObj.id known with
    | none => { plan with platHandled := platObj :: plan.platHandled }
    | some knownObj =>
      if (ip4AddrSubnetsIsSecondary knownObj knownSubnets).1 = platObj.secondary then plan
      else
        let plan : Ip4Plan := ⟨platObj :: plan.platHandled, platObj :: plan.platAddrsToDelete⟩
        match ip4AddrSubnetsIsSecondary platObj platSubnets with
        | (false, some addrList) => addrList.tail.foldl (ip4PlanSecondary known) plan
        | _ => plan

/-- `plat_addrs_to_delete` -/
def ip4AddrsToDelete (known plat : List Ip4Address) : List Ip4Address :=
  let knownSubnets := ip4AddrSubnetsBuildIndex known false false
  let platSubnets := ip4AddrSubnetsBuildIndex plat true true
  (plat.foldl (ip4PlanStep known knownSubnets platSubnets) ⟨[], []⟩).platAddrsToDelete

/-- One known address of the loop that adds the missing addresses. -/
def ip4SyncKnown (mode : PromoteSecondaries) (now : ℕ) (toDelete : List Ip4Address)
    (kernel : List Ip4Address) (known : Ip4Address) : List Ip4Address :=
  let configured := { known with lifetime := known.lifetime.configure now }
  match lookup Ip4Address.id known.id kernel with
  | none => kernelAddIp4 configured kernel
  | some platObj =>
    if (lookup Ip4Address.id platObj.id toDelete).isSome then
      kernelAddIp4 configured (kernelDeleteIp4 mode platObj.id kernel)
    else if known.semanticallyEqual now platObj then kernel
    else kernelAddIp4 configured kernel

/-- `_addr_array_clean_expired()` -/
def ip4CleanExpired (now : ℕ) (addresses : List Ip4Address) : List Ip4Address :=
  addresses.filter fun a => ¬ a.lifetime.expired now

/-- The deletion of those `addresses_prune` that are not known. -/
def ip4Prune (mode : PromoteSecondaries) (known prune kernel : List Ip4Address) :
    List Ip4Address :=
  prune.foldl (fun kernel a =>
    if (lookup Ip4Address.id a.id known).isSome then kernel
    else kernelDeleteIp4 mode a.id kernel) kernel

/-- `nm_platform_ip_address_sync()` for `AF_INET`. `plat` is the order in which the
platform cache lists the addresses of the kernel. -/
def ip4AddressSync (mode : PromoteSecondaries) (now : ℕ) (plat : List Ip4Address → List Ip4Address)
    (knownAddresses prune kernel : List Ip4Address) : List Ip4Address :=
  let known := ip4CleanExpired now knownAddresses
  let kernel := ip4Prune mode known prune kernel
  let toDelete := ip4AddrsToDelete known (plat kernel)
  known.foldl (ip4SyncKnown mode now toDelete) kernel

end NetworkManager.Platform
