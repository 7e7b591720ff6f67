import NetworkManager.Settings.RoutingRule
import NetworkManager.Lib.Keyed
import Mathlib.Data.List.Perm.Basic

/-!
# Addresses and routes of a setting

Both have attributes besides their fields. There is a comparison with the attributes and one
without them.
-/

namespace NetworkManager.Settings

open Lib

/-- The values of attributes. -/
inductive AttributeValue
  | byte (value : UInt8)
  | boolean (value : Bool)
  | uint32 (value : UInt32)
  | string (value : Bytes)
  deriving DecidableEq

/-- The hash table of the attributes. -/
structure Attributes where
  entries : List (String × AttributeValue)
  unique : KeyUnique Prod.fst entries

namespace Attributes

def empty : Attributes := ⟨[], unique_nil⟩

def get (attributes : Attributes) (key : String) : Option AttributeValue :=
  (lookup Prod.fst key attributes.entries).map Prod.snd

def set (attributes : Attributes) (key : String) (value : AttributeValue) : Attributes :=
  ⟨upsert Prod.fst (key, value) attributes.entries, attributes.unique.upsert⟩

def allIn (a b : Attributes) : Bool :=
  a.entries.all fun entry => b.get entry.1 = some entry.2

def equal (a b : Attributes) : Bool := a.entries.length = b.entries.length && a.allIn b

theorem get_eq_some_iff {attributes : Attributes} {key : String} {value : AttributeValue} :
    attributes.get key = some value ↔ (key, value) ∈ attributes.entries := by
  rw [get, Option.map_eq_some_iff]
  constructor
  · rintro ⟨⟨k, v⟩, hlookup, rfl⟩
    rw [← key_of_lookup hlookup]
    exact mem_of_lookup hlookup
  · intro hmem
    exact ⟨(key, value), lookup_of_mem attributes.unique hmem, rfl⟩

theorem equal_iff {a b : Attributes} : a.equal b ↔ a.entries.Perm b.entries := by
  have hnodup : ∀ a : Attributes, a.entries.Nodup := fun a => List.Nodup.of_map Prod.fst a.unique
  simp only [equal, allIn, Bool.and_eq_true, decide_eq_true_eq, List.all_eq_true, get_eq_some_iff]
  constructor
  · rintro ⟨hlength, hsub⟩
    have hsubperm := List.subperm_of_subset (hnodup a) fun entry hentry => hsub entry hentry
    exact hsubperm.perm_of_length_le hlength.ge
  · intro hperm
    exact ⟨hperm.length_eq, fun entry hentry => hperm.mem_iff.mp hentry⟩

end Attributes

def AddrFamily.af : AddrFamily → ℕ
  | .inet => 2
  | .inet6 => 10

def cmpIf (cond : Bool) (os : List Ordering) : List Ordering := if cond then os else []

/-! ## Addresses -/

structure NMIPAddress where
  family : AddrFamily
  prefixLen : UInt8
  address : Bytes
  attributes : Attributes

namespace NMIPAddress

/-- `nm_ip_address_new_binary()` of a valid prefix length. -/
def newBinary (inet : Inet) (family : AddrFamily) (address : family.Addr) (prefixLen : UInt8) :
    NMIPAddress :=
  ⟨family, prefixLen, inet.ntop family address, .empty⟩

/-- `nm_ip_address_cmp_full()`, with or without the attributes. -/
def cmpFull (withAttrs : Bool) (a b : NMIPAddress) : Ordering :=
  cmpSeq ([compare a.family.af b.family.af,
    compare a.prefixLen b.prefixLen,
    strcmp a.address b.address] ++
    cmpIf withAttrs
      [compare a.attributes.entries.length b.attributes.entries.length,
        if a.attributes.allIn b.attributes then .eq else .lt])

def equal (a b : NMIPAddress) : Bool := a.cmpFull false b = .eq

def fields (a : NMIPAddress) : ℕ × UInt8 × Bytes := (a.family.af, a.prefixLen, a.address)

theorem equal_iff {a b : NMIPAddress} : a.equal b ↔ a.fields = b.fields := by
  simp [equal, cmpFull, cmpIf, fields, strcmp]

theorem cmpFull_iff {a b : NMIPAddress} :
    a.cmpFull true b = .eq ↔ a.fields = b.fields ∧ a.attributes.entries.Perm b.attributes.entries := by
  rw [← Attributes.equal_iff, Attributes.equal]
  simp [cmpFull, cmpIf, fields, strcmp, and_assoc]

end NMIPAddress

/-! ## Routes -/

structure NMIPRoute where
  family : AddrFamily
  prefixLen : UInt8
  dest : Bytes
  nextHop : Option Bytes
  attributes : Attributes
  metric : ℤ

namespace NMIPRoute

/-- `nm_ip_route_new_binary()` of a valid prefix length and metric. -/
def newBinary (inet : Inet) (family : AddrFamily) (dest : family.Addr) (prefixLen : UInt8)
    (nextHop : Option family.Addr) (metric : ℤ) : NMIPRoute :=
  ⟨family, prefixLen, inet.ntop family dest,
    nextHop.bind fun a => if a = 0 then none else some (inet.ntop family a), .empty, metric⟩

def setAttribute (route : NMIPRoute) (key : String) (value : AttributeValue) : NMIPRoute :=
  { route with attributes := route.attributes.set key value }

/-- `nm_ip_route_equal_full()` with the attributes. -/
def equalFull (route other : NMIPRoute) : Bool :=
  route.prefixLen = other.prefixLen && route.metric = other.metric && route.dest = other.dest &&
    route.nextHop = other.nextHop && route.attributes.equal other.attributes

theorem equalFull_iff {route other : NMIPRoute} :
    route.equalFull other ↔
      (route.prefixLen, route.metric, route.dest, route.nextHop) =
          (other.prefixLen, other.metric, other.dest, other.nextHop) ∧
        route.attributes.entries.Perm other.attributes.entries := by
  simp [equalFull, Attributes.equal_iff, and_assoc]

end NMIPRoute

/-! ## Rules -/

def RuleAddr.compared {f : AddrFamily} (a : RuleAddr f) :
    UInt8 × Option (Option f.Addr × Option (Option Bytes)) :=
  (a.len, if a.has then some (if a.valid then (some a.bin, none) else (none, some a.str)) else none)

theorem cmpPtr_strcmp {s t : Option Bytes} : cmpPtr strcmp s t = .eq ↔ s = t := by
  constructor
  · exact eq_of_cmpPtr fun s t h => by simpa [strcmp] using h
  · rintro rfl
    exact cmpPtr_self (fun _ => Std.compare_self) s

theorem RuleAddr.cmp_iff {f : AddrFamily} {a b : RuleAddr f} :
    (∀ o ∈ a.cmp b, o = .eq) ↔ a.compared = b.compared := by
  unfold cmp compared
  cases a.has <;> cases b.has <;> cases a.valid <;> cases b.valid <;>
    simp [cmpPtr_strcmp, BitVec.toNat_inj]

/-- What is compared of a rule. -/
def NMIPRoutingRule.compared {f : AddrFamily} (r : NMIPRoutingRule f) :=
  ((r.invert, r.tos, r.fwmark, r.fwmask, r.action, r.table, r.suppressPrefixlength.toInt),
    (r.sportStart, r.sportEnd, r.dportStart, r.dportEnd, r.ipproto),
    if r.priorityHas then some r.priority else none,
    if r.uidRangeHas then some (r.uidRangeEnd, r.uidRangeStart) else none,
    r.iifname, r.oifname, r.fromAddr.compared, r.toAddr.compared)

theorem NMIPRoutingRule.cmp_iff {f : AddrFamily} {r o : NMIPRoutingRule f} :
    r.cmp o = .eq ↔ r.compared = o.compared := by
  simp only [cmp, cmpSeq_eq_eq, List.forall_mem_append, RuleAddr.cmp_iff, compared]
  cases r.priorityHas <;> cases o.priorityHas <;> cases r.uidRangeHas <;> cases o.uidRangeHas <;>
    simp [cmpPtr_strcmp] <;> tauto

end NetworkManager.Settings
