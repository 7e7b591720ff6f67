import NetworkManager.GlibAux.Utf8Safe
import NetworkManager.Lib.Compare
import NetworkManager.Lib.Keyed
import NetworkManager.GlibAux.Prioq

/-!
# LLDP neighbors

A frame with LLDP data is parsed into a neighbor, which is known by its chassis and its port.
-/

namespace NetworkManager.Lldp

open Lib GlibAux

structure NMLldpNeighborID where
  chassisId : Bytes
  portId : Bytes
  deriving DecidableEq

/-- `nm_memcmp_n()` for bytes. -/
def memcmpN (a b : Bytes) : Ordering :=
  cmpSeq [compare a.length b.length, cmpList compare a b]

def lldpNeighborIdCmp (x y : NMLldpNeighborID) : Ordering :=
  cmpSeq [memcmpN x.chassisId y.chassisId, memcmpN x.portId y.portId]

/-- What `nm_lldp_neighbor_parse()` fills in from the TLVs of a frame. -/
structure NeighborFields where
  chassisId : Option Bytes
  portId : Option Bytes
  ttl : Option UInt16
  portDescription : Option Bytes
  systemName : Option Bytes
  systemDescription : Option Bytes
  mudUrl : Option Bytes
  /-- The system capabilities and the enabled ones. -/
  capabilities : Option (UInt16 × UInt16)
  deriving DecidableEq

def NeighborFields.empty : NeighborFields := ⟨none, none, none, none, none, none, none, none⟩

def readBe16 : Bytes → UInt16
  | a :: b :: _ => a.toUInt16 <<< 8 ||| b.toUInt16
  | _ => 0

/-- `parse_string()`, which ignores strings that are empty, a duplicate or not text. -/
def parseString (s : Option Bytes) (data : Bytes) : Option Bytes :=
  let text := data.rdropWhile fun c => c = 0
  if s.isSome ∨ text = [] ∨ 0 ∈ text then s
  else (bufUtf8safeEscape ⟨true, true, false⟩ (.buf text)).map Escaped.val

def ouiIanaMud : Bytes := [0, 0, 94, 1]

/-- The branch of `nm_lldp_neighbor_parse()` for a TLV other than the end. -/
def parseTlv (n : NeighborFields) (type : UInt8) (data : Bytes) : Option NeighborFields :=
  match type with
  | 1 =>
    if data.length < 2 ∨ 256 < data.length ∨ n.chassisId.isSome then none
    else some { n with chassisId := some data }
  | 2 =>
    if data.length < 2 ∨ 256 < data.length ∨ n.portId.isSome then none
    else some { n with portId := some data }
  | 3 =>
    if data.length ≠ 2 ∨ n.ttl.isSome then none
    else some { n with ttl := some (readBe16 data) }
  | 4 => some { n with portDescription := parseString n.portDescription data }
  | 5 => some { n with systemName := parseString n.systemName data }
  | 6 => some { n with systemDescription := parseString n.systemDescription data }
  | 7 =>
    if data.length ≠ 4 then none
    else some { n with capabilities := some (readBe16 data, readBe16 (data.drop 2)) }
  | 127 =>
    if data.length < 4 then none
    else if data.take 4 = ouiIanaMud then
      some { n with mudUrl := parseString n.mudUrl (data.drop 4) }
    else some n
  | _ => some n

/-- The loop over the TLVs, up to the one that ends them. -/
def parseTlvs (n : NeighborFields) : Bytes → Option NeighborFields
  | b₀ :: b₁ :: p =>
    let type := b₀ >>> 1
    let length := b₁.toNat + 256 * (b₀ &&& 1).toNat
    if p.length < length then none
    else if type = 0 then
      if length ≠ 0 then none else some n
    else
      match parseTlv n type (p.take length) with
      | none => none
      | some n => parseTlvs n (p.drop length)
  | _ => none
  termination_by p => p.length
  decreasing_by
    rw [List.length_drop, List.length_cons, List.length_cons]
    omega

/-- `NMLldpNeighbor` without its place in the queue, which `NMLldpRX` keeps here. -/
structure NMLldpNeighbor where
  id : NMLldpNeighborID
  raw : Bytes
  sourceAddress : Bytes
  destinationAddress : Bytes
  ttl : UInt16
  fields : NeighborFields
  timestampUsec : ℤ
  untilUsec : ℤ
  /-- `lldp_rx` is set. -/
  linked : Bool

def nmEthertypeLldp : Bytes := [0x88, 0xcc]

/-- `nm_lldp_neighbor_parse()` for a frame that was received at a time. -/
def lldpNeighborParse (raw : Bytes) (timestampUsec : ℤ) : Option NMLldpNeighbor :=
  let dhost := raw.take 6
  if raw.length < 14 ∨ (raw.drop 12).take 2 ≠ nmEthertypeLldp ∨
      dhost.take 5 ≠ [0x01, 0x80, 0xc2, 0, 0] ∨
      dhost.drop 5 ∉ [[0x00], [0x03], [(0x0e : UInt8)]] then none
  else
    match parseTlvs .empty (raw.drop 14) with
    | none => none
    | some n =>
      match n.chassisId, n.portId, n.ttl with
      | some chassisId, some portId, some ttl =>
        some ⟨⟨chassisId, portId⟩, raw, (raw.drop 6).take 6, dhost, ttl, n, timestampUsec, 0, false⟩
      | _, _, _ => none

variable {raw : Bytes} {timestampUsec : ℤ} {n : NMLldpNeighbor}

theorem lldpNeighborParse_spec (h : lldpNeighborParse raw timestampUsec = some n) :
    n.raw = raw ∧ n.linked = false := by
  unfold lldpNeighborParse at h
  dsimp only at h
  split_ifs at h
  split at h
  · cases h
  · split at h
    · obtain rfl := Option.some.inj h
      exact ⟨rfl, rfl⟩
    · cases h

/-- `nm_lldp_neighbor_start_ttl()` without moving it in the queue. -/
def NMLldpNeighbor.startTtl (n : NMLldpNeighbor) (now : ℤ) : NMLldpNeighbor :=
  if 0 < n.ttl then
    let timestampUsec := if n.timestampUsec ≤ 0 then now else n.timestampUsec
    { n with
      timestampUsec := timestampUsec
      untilUsec := timestampUsec + n.ttl.toNat * 1000000 }
  else { n with untilUsec := 0 }

/-!
## The LLDP receiver

The receiver keeps its neighbors in a hash table by their id and in a queue by the time when they
expire, and calls back when a neighbor is added, updated, refreshed or removed.
-/

inductive NMLldpRXEvent
  | added
  | removed
  | updated
  | refreshed
  deriving DecidableEq

structure NMLldpRXConfig where
  neighborsMax : ℕ
  filterAddress : Bytes
  capabilityMask : UInt16
  hasCapabilityMask : Bool

/-- `NMLldpRX`. The neighbors are pointers, and `objects` what they point to; the positions of the
neighbors in the queue are the indices of the queue. -/
structure NMLldpRX where
  config : NMLldpRXConfig
  objects : ℕ → NMLldpNeighbor
  /-- The next pointer that is not in use yet. -/
  nextPtr : ℕ
  neighborById : List ℕ
  neighborByExpiry : NMPrioq ℕ ℕ
  /-- The timeout of the pending timer in milliseconds. -/
  timerEventSource : Option ℕ

/-- What the clock says while an event is handled: in `lldp_rx_make_space()`, when the TTL is
started, and in milliseconds when the timer is. -/
structure Clock where
  spaceUsec : ℤ
  ttlUsec : ℤ
  timerMsec : ℤ

/-- The calls of the callback with their neighbors. -/
abbrev Callbacks := List (NMLldpRXEvent × NMLldpNeighbor)

def lldpNeighborPrioqCompare (objects : ℕ → NMLldpNeighbor) (x y : ℕ) : Ordering :=
  compare (objects x).untilUsec (objects y).untilUsec

namespace NMLldpRX

def neighborId (rx : NMLldpRX) (n : ℕ) : NMLldpNeighborID := (rx.objects n).id

/-- `g_hash_table_lookup()` in the neighbors by id. -/
def lookupId (rx : NMLldpRX) (id : NMLldpNeighborID) : Option ℕ :=
  lookup rx.neighborId id rx.neighborById

def compare (rx : NMLldpRX) : ℕ → ℕ → Ordering := lldpNeighborPrioqCompare rx.objects

def setObject (rx : NMLldpRX) (n : ℕ) (object : NMLldpNeighbor) : NMLldpRX :=
  { rx with objects := Function.update rx.objects n object }

end NMLldpRX

def lldpNeighborUnlink (rx : NMLldpRX) (n : ℕ) : NMLldpRX :=
  if ¬ (rx.objects n).linked then rx
  else
    -- the key that was stolen is added again where it is another neighbor with the same id
    let byId := match rx.lookupId (rx.neighborId n) with
      | none => rx.neighborById
      | some oldKey =>
        let byId := rx.neighborById.erase oldKey
        if oldKey ≠ n then put rx.neighborId oldKey byId else byId
    let rx := { rx with
      neighborById := byId
      neighborByExpiry := prioqRemove rx.compare rx.neighborByExpiry n (some n) }
    rx.setObject n { rx.objects n with linked := false }

/-- The loop of `lldp_rx_make_space()`, which removes at most so many neighbors. -/
def lldpRxMakeSpaceLoop (flush : Bool) (max : ℕ) (now : ℤ) : ℕ → NMLldpRX → NMLldpRX × Callbacks
  | 0, rx => (rx, [])
  | room + 1, rx =>
    match prioqPeek rx.neighborByExpiry with
    | none => (rx, [])
    | some n =>
      if rx.neighborByExpiry.items.size ≤ max ∧ (rx.objects n).untilUsec > now then (rx, [])
      else
        let rx := lldpNeighborUnlink rx n
        let (rx', calls) := lldpRxMakeSpaceLoop flush max now room rx
        (rx', if flush then calls else (.removed, rx.objects n) :: calls)

def lldpRxMakeSpace (rx : NMLldpRX) (flush : Bool) (extra : ℕ) (now : ℤ) : NMLldpRX × Callbacks :=
  let max := if ¬ flush ∧ rx.config.neighborsMax > extra then rx.config.neighborsMax - extra else 0
  lldpRxMakeSpaceLoop flush max now rx.neighborByExpiry.items.size rx

def lldpRxKeepNeighbor (rx : NMLldpRX) (n : NMLldpNeighbor) : Bool :=
  if n.ttl ≤ 0 then false
  else if (rx.config.filterAddress.any fun b => b ≠ 0) ∧
      rx.config.filterAddress = n.sourceAddress then false
  else match n.fields.capabilities with
    | none => true
    | some (_, enabled) => enabled &&& rx.config.capabilityMask ≠ 0

def lldpNeighborStartTtl (rx : NMLldpRX) (n : ℕ) (now : ℤ) : NMLldpRX :=
  let object := (rx.objects n).startTtl now
  let rx := rx.setObject n object
  if object.linked then
    { rx with neighborByExpiry := prioqReshuffle rx.compare rx.neighborByExpiry n (some n) }
  else rx

def maxUint : ℤ := 4294967295

def lldpRxStartTimer (rx : NMLldpRX) (neighbor : Option ℕ) (clock : Clock) : NMLldpRX :=
  let rx := neighbor.elim rx fun n => lldpNeighborStartTtl rx n clock.ttlUsec
  match prioqPeek rx.neighborByExpiry with
  | none => { rx with timerEventSource := none }
  | some n =>
    let timeoutMsec := ((rx.objects n).untilUsec.tdiv 1000) - clock.timerMsec
    { rx with timerEventSource := some (min (max timeoutMsec 0) maxUint).toNat }

/-- The end of `lldp_rx_add_neighbor()`, for a neighbor whose id is not in the table. -/
def lldpRxAddNew (rx : NMLldpRX) (n : ℕ) (clock : Clock) : NMLldpRX × Callbacks :=
  let (rx, calls) := lldpRxMakeSpace rx false 1 clock.spaceUsec
  let rx := { rx with
    neighborById := put rx.neighborId n rx.neighborById
    neighborByExpiry := prioqPut rx.compare rx.neighborByExpiry n (some n) }
  let rx := rx.setObject n { rx.objects n with linked := true }
  (lldpRxStartTimer rx (some n) clock, calls)

def lldpRxAddNeighbor (rx : NMLldpRX) (n : ℕ) (clock : Clock) : NMLldpRX × Callbacks :=
  let keep := lldpRxKeepNeighbor rx (rx.objects n)
  match rx.lookupId (rx.neighborId n) with
  | some old =>
    if ¬ keep then
      let rx := lldpNeighborUnlink rx old
      (rx, [(.removed, rx.objects old)])
    else if (rx.objects n).raw = (rx.objects old).raw then
      let rx := rx.setObject old
        { rx.objects old with timestampUsec := (rx.objects n).timestampUsec }
      let rx := lldpRxStartTimer rx (some old) clock
      (rx, [(.refreshed, rx.objects old)])
    else
      let (rx, calls) := lldpRxAddNew (lldpNeighborUnlink rx old) n clock
      (rx, calls ++ [(.updated, rx.objects n)])
  | none =>
    if ¬ keep then (rx, [])
    else
      let (rx, calls) := lldpRxAddNew rx n clock
      (rx, calls ++ [(.added, rx.objects n)])

/-- `lldp_rx_receive_datagram()` for a frame with the time when it was received. -/
def lldpRxReceiveDatagram (rx : NMLldpRX) (raw : Bytes) (timestampUsec : ℤ) (clock : Clock) :
    NMLldpRX × Callbacks :=
  match lldpNeighborParse raw timestampUsec with
  | none => (rx, [])
  | some object =>
    let rx' := { rx.setObject rx.nextPtr object with nextPtr := rx.nextPtr + 1 }
    lldpRxAddNeighbor rx' rx.nextPtr clock

def onTimerEvent (rx : NMLldpRX) (clock : Clock) : NMLldpRX × Callbacks :=
  let (rx, calls) := lldpRxMakeSpace rx false 0 clock.spaceUsec
  (lldpRxStartTimer rx none clock, calls)

def lldpDefaultNeighborsMax : ℕ := 128

def lldpRxNew (config : NMLldpRXConfig) (objects : ℕ → NMLldpNeighbor) : NMLldpRX where
  config := { config with
    neighborsMax :=
      if config.neighborsMax = 0 then lldpDefaultNeighborsMax else config.neighborsMax
    capabilityMask :=
      if ¬ config.hasCapabilityMask ∧ config.capabilityMask = 0 then 0xffff
      else config.capabilityMask }
  objects := fun n => { objects n with linked := false }
  nextPtr := 0
  neighborById := []
  neighborByExpiry := ⟨#[], fun _ => none⟩
  timerEventSource := none

end NetworkManager.Lldp
