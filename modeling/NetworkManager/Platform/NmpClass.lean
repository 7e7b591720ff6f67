import NetworkManager.Platform.IpObject

/-!
# The operations of the object classes

What the IP configuration asks of an address or a route, as `NMPClass` does for the
objects of the platform. The laws say how the operations depend on the interface index.
-/

namespace NetworkManager.Platform

open Lib

/-- The address of an object that is added to an IP configuration: a full object, or only
its public part. -/
inductive NewObj (α : Type)
  | obj (o : α)
  | pl (o : α)
  deriving DecidableEq

namespace NewObj

variable {α : Type}

def val : NewObj α → α
  | obj o => o
  | pl o => o

def ensure (f : α → α) (n : NewObj α) : NewObj α := pl (f n.val)

end NewObj

/-! ## The common part of a route -/

namespace PlatformIpRoute

def isNodev (r : PlatformIpRoute) : Bool := routeTypeIsNodev (routeTypeCoerce r.typeCoerced)

theorem isNodev_congr {r s : PlatformIpRoute} (h : r.typeCoerced = s.typeCoerced) :
    r.isNodev = s.isNodev := by
  simp only [isNodev, h]

def withIfindex (i : ℤ) (r : PlatformIpRoute) : PlatformIpRoute := { r with ifindex := i }

def mergeWith (new old : PlatformIpRoute) : PlatformIpRoute :=
  if new.rtSource.toNat < old.rtSource.toNat then { new with rtSource := old.rtSource } else new

variable (new old : PlatformIpRoute)

theorem mergeWith_eq : new.mergeWith old = new ∨
    new.mergeWith old = { new with rtSource := old.rtSource } := by
  unfold mergeWith
  split_ifs
  · exact .inr rfl
  · exact .inl rfl

theorem mergeWith_ifindex : (new.mergeWith old).ifindex = new.ifindex := by
  rcases new.mergeWith_eq old with h | h <;> rw [h]

theorem mergeWith_isNodev : (new.mergeWith old).isNodev = new.isNodev := by
  apply isNodev_congr
  rcases new.mergeWith_eq old with h | h <;> rw [h]

def isDefault (r : PlatformIpRoute) : Bool := r.plen = 0

def isBestDefaultRoute (r : PlatformIpRoute) : Bool :=
  r.isDefault ∧ routeTableIsMain r.tableCoerced ∧ r.typeCoerced = routeTypeCoerce rtnUnicast

end PlatformIpRoute

/-! ## The operations -/

class NmpClass (α : Type) (κ : outParam Type) where
  ifindex : α → ℤ
  withIfindex : ℤ → α → α
  /-- `nmp_object_stackinit()`, if the identity of the copy can be hashed. -/
  stackinit : α → Option α
  objId : α → κ
  cmp : α → α → Ordering
  /-- The values that are compared if only the identity is asked for. -/
  cmpIdFields : α → α → Ordering
  isNodev : α → Bool
  /-- The object that `NM_L3_CONFIG_ADD_FLAGS_MERGE` makes of a new and an old object. -/
  mergeWith : α → α → α

class NmpAddressClass (α : Type) (κ : outParam Type) extends NmpClass α κ where
  setAcdNotReady : Bool → NewObj α → NewObj α

class NmpRouteClass (α : Type) (κ : outParam Type) extends NmpClass α κ where
  rx : α → PlatformIpRoute
  withRx : (PlatformIpRoute → PlatformIpRoute) → α → α

/-- `nmp_object_cmp_full()`, with `NMP_OBJECT_CMP_FLAGS_IGNORE_IFINDEX` or without. -/
def nmpObjectCmpFull {α κ : Type} [NmpClass α κ] (ignoreIfindex : Bool) (a b : α) : Ordering :=
  if ignoreIfindex ∧ NmpClass.ifindex a ≠ NmpClass.ifindex b then
    NmpClass.cmp a (NmpClass.withIfindex (NmpClass.ifindex a) b)
  else NmpClass.cmp a b

variable {i : ℤ}

section Laws

variable {α κ : Type} [NmpClass α κ]

open NmpClass

/-- The interface index under which a configuration for `ifindex` tracks the object. -/
def homeIfindex (i : ℤ) (a : α) : ℤ := if isNodev a then 0 else i

/-- The object, tracked by a configuration for `ifindex`. -/
def rehome (i : ℤ) (a : α) : α := withIfindex (homeIfindex i a) a

theorem homeIfindex_congr {a b : α} (h : isNodev a = isNodev b) :
    homeIfindex i a = homeIfindex i b := by
  simp only [homeIfindex, h]

end Laws

open NmpClass in
class LawfulNmpClass (α : Type) {κ : outParam Type} [NmpClass α κ] : Prop where
  ifindex_withIfindex (i : ℤ) (a : α) : ifindex (withIfindex i a) = i := by intros; rfl
  withIfindex_self (a : α) : withIfindex (ifindex a) a = a := by intros; rfl
  withIfindex_withIfindex (i j : ℤ) (a : α) :
    withIfindex i (withIfindex j a) = withIfindex i a := by intros; rfl
  isNodev_withIfindex (i : ℤ) (a : α) : isNodev (withIfindex i a) = isNodev a := by intros; rfl
  cmp_self (a : α) : cmp a a = .eq
  eq_of_stackinit {a b : α} : stackinit a = some b → b = a
  isSome_stackinit_withIfindex (i : ℤ) (a : α) :
    (stackinit (withIfindex i a)).isSome = (stackinit a).isSome := by intros; rfl
  /-- Whether two objects are the same does not depend on the interface of the
  configuration that tracks both. -/
  id_rehome {i j : ℤ} {a b : α} : 0 < i → 0 < j → objId (rehome i a) = objId (rehome i b) →
    objId (rehome j a) = objId (rehome j b)
  objId_mergeWith {a b : α} : objId a = objId b → objId (mergeWith a b) = objId a
  ifindex_mergeWith (a b : α) : ifindex (mergeWith a b) = ifindex a
  isNodev_mergeWith (a b : α) : isNodev (mergeWith a b) = isNodev a := by intros; rfl

open NmpClass NmpRouteClass in
class LawfulNmpRouteClass (α : Type) {κ : outParam Type} [NmpRouteClass α κ] : Prop
    extends LawfulNmpClass α where
  isNodev_eq (a : α) : isNodev a = (rx a).isNodev := by intros; rfl
  rx_withIfindex (i : ℤ) (a : α) : rx (withIfindex i a) = (rx a).withIfindex i := by intros; rfl
  cmp_withIfindex {a b : α} (i : ℤ) : ifindex a = ifindex b →
    cmp (withIfindex i a) (withIfindex i b) = cmp a b

/-! ## Addresses -/

def addressExpiry (permanent : Bool) (timestamp duration : ℕ) : ℤ :=
  if permanent then 2 ^ 63 - 1 else if timestamp ≠ 0 then timestamp + duration else 0

def ipAddressCmpExpiry (a b : AddressLifetime) : Ordering :=
  let lifetimeEnd (l : AddressLifetime) :=
    addressExpiry (l.lifetime = lifetimePermanent ∨ l.lifetime = 0) l.timestamp l.lifetime
  let preferredEnd (l : AddressLifetime) :=
    addressExpiry (l.preferred = lifetimePermanent ∨ l.lifetime = 0) l.timestamp l.preferred
  cmpSeq
    [compare (lifetimeEnd a) (lifetimeEnd b), compare (preferredEnd a) (preferredEnd b)]

namespace PlatformIpAddress

/-- A lifetime that the kernel reports, or a shorter one, does not replace the old one. -/
def mergeLifetime (new old : PlatformIpAddress) : PlatformIpAddress :=
  if (new.addrSource = .kernel ∧ old.addrSource ≠ .kernel) ∨
      ipAddressCmpExpiry old.lifetime new.lifetime = .gt then
    { new with lifetime := old.lifetime }
  else new

def mergeSource (new old : PlatformIpAddress) : PlatformIpAddress :=
  if new.addrSource.toNat < old.addrSource.toNat then { new with addrSource := old.addrSource }
  else new

def mergeWith (new old : PlatformIpAddress) : PlatformIpAddress :=
  (new.mergeLifetime old).mergeSource old

variable (new old : PlatformIpAddress)

theorem mergeWith_ifindex : (new.mergeWith old).ifindex = new.ifindex := by
  unfold mergeWith mergeSource mergeLifetime
  split_ifs <;> rfl

theorem mergeWith_plen : (new.mergeWith old).plen = new.plen := by
  unfold mergeWith mergeSource mergeLifetime
  split_ifs <;> rfl

end PlatformIpAddress

namespace PlatformIp4Address

def withIfindex (i : ℤ) (a : PlatformIp4Address) : PlatformIp4Address := { a with ifindex := i }

/-- The peer addresses of `b` are compared with themselves, and so are its addresses. -/
def cmpIdFields (a b : PlatformIp4Address) : Ordering :=
  cmpSeq
    [compare a.plen b.plen,
      compare (inAddrT b.address) (inAddrT b.address),
      compare (inAddrT b.peerAddress) (inAddrT b.peerAddress)]

def setAcdNotReady (v : Bool) (n : NewObj PlatformIp4Address) : NewObj PlatformIp4Address :=
  if v ≠ n.val.aAcdNotReady then n.ensure fun a => { a with aAcdNotReady := v } else n

instance : NmpAddressClass PlatformIp4Address PlatformIp4AddressId where
  ifindex a := a.ifindex
  withIfindex := withIfindex
  stackinit a := some a
  objId := id
  cmp := cmp
  cmpIdFields := cmpIdFields
  isNodev _ := false
  mergeWith new old :=
    { new with toPlatformIpAddress := new.toPlatformIpAddress.mergeWith old.toPlatformIpAddress }
  setAcdNotReady := setAcdNotReady

instance : LawfulNmpClass PlatformIp4Address where
  cmp_self a := by simp [NmpClass.cmp, cmp]
  eq_of_stackinit h := (Option.some.inj h).symm
  id_rehome := by
    intro i j a b _ _ h
    simpa [NmpClass.objId, id, rehome, homeIfindex, NmpClass.isNodev, NmpClass.withIfindex,
      withIfindex] using h
  objId_mergeWith {a b} _ := by
    simp [NmpClass.objId, id, NmpClass.mergeWith, PlatformIpAddress.mergeWith_ifindex,
      PlatformIpAddress.mergeWith_plen]
  ifindex_mergeWith a b := PlatformIpAddress.mergeWith_ifindex _ _

end PlatformIp4Address

namespace PlatformIp6Address

def withIfindex (i : ℤ) (a : PlatformIp6Address) : PlatformIp6Address := { a with ifindex := i }

def cmpIdFields (a b : PlatformIp6Address) : Ordering :=
  cmpSeq [compare a.plen b.plen, compare a.address b.address]

instance : NmpAddressClass PlatformIp6Address PlatformIp6AddressId where
  ifindex a := a.ifindex
  withIfindex := withIfindex
  stackinit a := some a
  objId := id
  cmp := cmp
  cmpIdFields := cmpIdFields
  isNodev _ := false
  mergeWith new old :=
    { new with toPlatformIpAddress := new.toPlatformIpAddress.mergeWith old.toPlatformIpAddress }
  setAcdNotReady _ n := n

instance : LawfulNmpClass PlatformIp6Address where
  cmp_self a := by simp [NmpClass.cmp, cmp]
  eq_of_stackinit h := (Option.some.inj h).symm
  id_rehome := by
    intro i j a b _ _ h
    simpa [NmpClass.objId, id, rehome, homeIfindex, NmpClass.isNodev, NmpClass.withIfindex,
      withIfindex] using h
  objId_mergeWith {a b} _ := by
    simp [NmpClass.objId, id, NmpClass.mergeWith, PlatformIpAddress.mergeWith_ifindex]
  ifindex_mergeWith a b := PlatformIpAddress.mergeWith_ifindex _ _

end PlatformIp6Address

/-! ## Routes -/

variable {j : ℤ}

namespace ObjectIp4Route

def withRx (f : PlatformIpRoute → PlatformIpRoute) (r : ObjectIp4Route) : ObjectIp4Route :=
  { r with toPlatformIpRoute := f r.toPlatformIpRoute }

def stackinit (r : ObjectIp4Route) : Option ObjectIp4Route :=
  if r.nNexthops ≤ 1 then some r else none

def cmpIdFields (a b : ObjectIp4Route) : Ordering :=
  cmpSeq
    [compare a.metric b.metric,
      compare a.plen b.plen,
      compare (ip4AddrClearHostAddress a.network a.plen) (ip4AddrClearHostAddress b.network a.plen)]

instance : NmpRouteClass ObjectIp4Route ObjectIp4RouteId where
  ifindex r := r.ifindex
  withIfindex i := withRx (PlatformIpRoute.withIfindex i)
  stackinit := stackinit
  objId := id
  cmp := cmp
  cmpIdFields := cmpIdFields
  isNodev r := r.isNodev
  mergeWith new old := new.withRx fun r => r.mergeWith old.toPlatformIpRoute
  rx r := r.toPlatformIpRoute
  withRx := withRx

theorem cmp_self (r : ObjectIp4Route) : r.cmp r = .eq := by
  have hhop (h : PlatformIp4RtNextHop) : h.cmp h = .eq := by simp [PlatformIp4RtNextHop.cmp]
  simp [cmp, PlatformIp4Route.cmp, Ordering.then_eq_eq, List.zipWith_self, hhop]

theorem isSome_stackinit (r : ObjectIp4Route) :
    (stackinit r).isSome = decide (r.nNexthops ≤ 1) := by
  unfold stackinit
  split_ifs with h <;> simp [h]

theorem getNNexthops_withRx {r : ObjectIp4Route} (hij : 0 < i ↔ 0 < j) :
    (withRx (PlatformIpRoute.withIfindex i) r).getNNexthops =
      (withRx (PlatformIpRoute.withIfindex j) r).getNNexthops := by
  simp [PlatformIp4Route.getNNexthops, withRx, PlatformIpRoute.withIfindex, hij]

theorem id_withIfindex {r : ObjectIp4Route} (hij : 0 < i ↔ 0 < j) :
    (withRx (PlatformIpRoute.withIfindex j) r).id =
      { (withRx (PlatformIpRoute.withIfindex i) r).id with ifindex := j } := by
  simp only [id, getNNexthops_withRx hij]
  rfl

variable {b a : ObjectIp4Route}

theorem id_rehome (hi : 0 < i) (hj : 0 < j) (h : (rehome i a).id = (rehome i b).id)
    : (rehome j a).id = (rehome j b).id := by
  have htype : a.typeCoerced = b.typeCoerced := congrArg ObjectIp4RouteId.typeCoerced h
  have hhome : homeIfindex j a = homeIfindex j b := homeIfindex_congr (PlatformIpRoute.isNodev_congr htype)
  have hsign (r : ObjectIp4Route) : 0 < homeIfindex i r ↔ 0 < homeIfindex j r := by
    unfold homeIfindex
    split_ifs <;> omega
  calc (rehome j a).id = { (rehome i a).id with ifindex := homeIfindex j a } :=
        id_withIfindex (hsign a)
    _ = { (rehome i b).id with ifindex := homeIfindex j b } := by rw [h, hhome]
    _ = (rehome j b).id := (id_withIfindex (hsign b)).symm

theorem cmp_withIfindex (i : ℤ) (h : a.ifindex = b.ifindex) :
    (withRx (PlatformIpRoute.withIfindex i) a).cmp (withRx (PlatformIpRoute.withIfindex i) b) =
      a.cmp b := by
  simp [cmp, PlatformIp4Route.cmp, withRx, PlatformIpRoute.withIfindex, h]

theorem id_mergeWith (h : a.id = b.id) :
    (a.withRx fun r => r.mergeWith b.toPlatformIpRoute).id = a.id := by
  have hsource : a.rtSource.roundTripRtprot = b.rtSource.roundTripRtprot :=
    congrArg ObjectIp4RouteId.rtSource h
  rcases a.toPlatformIpRoute.mergeWith_eq b.toPlatformIpRoute with he | he
  · simp only [withRx, he]
  · calc (a.withRx fun r => r.mergeWith b.toPlatformIpRoute).id =
          { a.id with rtSource := b.rtSource.roundTripRtprot } := by
          simp only [withRx, he]
          rfl
      _ = a.id := by rw [← hsource]; rfl

instance : LawfulNmpRouteClass ObjectIp4Route where
  cmp_self := cmp_self
  eq_of_stackinit := by
    intro a b h
    simp only [NmpClass.stackinit, stackinit, Option.ite_none_right_eq_some] at h
    exact (Option.some.inj h.2).symm
  isSome_stackinit_withIfindex i a :=
    (isSome_stackinit (withRx (PlatformIpRoute.withIfindex i) a)).trans (isSome_stackinit a).symm
  id_rehome hi hj h := id_rehome hi hj h
  objId_mergeWith h := id_mergeWith h
  ifindex_mergeWith _ _ := PlatformIpRoute.mergeWith_ifindex _ _
  isNodev_mergeWith _ _ := PlatformIpRoute.mergeWith_isNodev _ _
  cmp_withIfindex i h := cmp_withIfindex i h

end ObjectIp4Route

namespace PlatformIp6Route

def withRx (f : PlatformIpRoute → PlatformIpRoute) (r : PlatformIp6Route) : PlatformIp6Route :=
  { r with toPlatformIpRoute := f r.toPlatformIpRoute }

def cmpIdFields (a b : PlatformIp6Route) : Ordering :=
  cmpSeq
    [compare a.metric b.metric,
      compare a.plen b.plen,
      compare (ip6AddrClearHostAddress a.network a.plen) (ip6AddrClearHostAddress b.network a.plen)]

instance : NmpRouteClass PlatformIp6Route PlatformIp6RouteId where
  ifindex r := r.ifindex
  withIfindex i := withRx (PlatformIpRoute.withIfindex i)
  stackinit r := some r
  objId := id
  cmp := cmp
  cmpIdFields := cmpIdFields
  isNodev r := r.isNodev
  mergeWith new old := new.withRx fun r => r.mergeWith old.toPlatformIpRoute
  rx r := r.toPlatformIpRoute
  withRx := withRx

theorem id_rehome {a b : PlatformIp6Route} (h : (rehome i a).id = (rehome i b).id)
    : (rehome j a).id = (rehome j b).id := by
  have htype : a.typeCoerced = b.typeCoerced := congrArg PlatformIp6RouteId.typeCoerced h
  have hhome : homeIfindex j a = homeIfindex j b := homeIfindex_congr (PlatformIpRoute.isNodev_congr htype)
  calc (rehome j a).id = { (rehome i a).id with ifindex := homeIfindex j a } := rfl
    _ = { (rehome i b).id with ifindex := homeIfindex j b } := by rw [h, hhome]
    _ = (rehome j b).id := rfl

theorem cmp_withIfindex {a b : PlatformIp6Route} (i : ℤ) (h : a.ifindex = b.ifindex) :
    (withRx (PlatformIpRoute.withIfindex i) a).cmp (withRx (PlatformIpRoute.withIfindex i) b) =
      a.cmp b := by
  simp [cmp, withRx, PlatformIpRoute.withIfindex, h]

instance : LawfulNmpRouteClass PlatformIp6Route where
  cmp_self a := by simp [NmpClass.cmp, cmp]
  eq_of_stackinit h := (Option.some.inj h).symm
  id_rehome _ _ h := id_rehome h
  objId_mergeWith {a b} _ := by
    rcases a.toPlatformIpRoute.mergeWith_eq b.toPlatformIpRoute with he | he
    · simp only [NmpClass.mergeWith, NmpClass.objId, withRx, he]
    · simp only [NmpClass.mergeWith, NmpClass.objId, withRx, he]
      rfl
  ifindex_mergeWith _ _ := PlatformIpRoute.mergeWith_ifindex _ _
  isNodev_mergeWith _ _ := PlatformIpRoute.mergeWith_isNodev _ _
  cmp_withIfindex i h := cmp_withIfindex i h

end PlatformIp6Route

end NetworkManager.Platform
