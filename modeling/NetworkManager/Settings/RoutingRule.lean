import NetworkManager.GlibAux.Utf8Safe
import NetworkManager.Lib.Compare
import NetworkManager.Lib.Runs

/-!
# Routing rules

An `NMIPRoutingRule` is filled by its setters, which accept about anything.
`nm_ip_routing_rule_validate()` tells later whether the rule makes sense. The functions of the
C library for addresses are parameters.
-/

namespace NetworkManager.Settings

open Lib GlibAux

/-! ## Addresses -/

inductive AddrFamily
  | inet
  | inet6
  deriving DecidableEq

def AddrFamily.bits : AddrFamily → ℕ
  | inet => 32
  | inet6 => 128

/-- An address in network order. -/
abbrev AddrFamily.Addr (f : AddrFamily) := BitVec f.bits

/-- `inet_ntop()` and `inet_pton()` -/
structure Inet where
  ntop : (f : AddrFamily) → f.Addr → Bytes
  pton : (f : AddrFamily) → Bytes → Option f.Addr

/-- What the manual pages of both functions promise. -/
structure Inet.Documented (inet : Inet) : Prop where
  pton_ntop : ∀ f addr, inet.pton f (inet.ntop f addr) = some addr
  ntop_inet : ∀ addr, inet.ntop .inet addr ≠ [] ∧ ∀ c ∈ inet.ntop .inet addr, isDigit c ∨ c = '.'
  ntop_inet6 : ∀ addr, (':' : UInt8) ∈ inet.ntop .inet6 addr ∧
    ∀ c ∈ inet.ntop .inet6 addr, isXdigit c ∨ c = '.' ∨ c = ':'
  pton_any : inet.pton .inet (ascii "0.0.0.0") = some 0 ∧ inet.pton .inet6 (ascii "::") = some 0

/-! ## Rules -/

/-- The fields for "from" or "to". -/
structure RuleAddr (f : AddrFamily) where
  bin : f.Addr
  str : Option Bytes
  len : UInt8
  has : Bool
  valid : Bool

structure NMIPRoutingRule (f : AddrFamily) where
  fromAddr : RuleAddr f
  toAddr : RuleAddr f
  iifname : Option Bytes
  oifname : Option Bytes
  priority : UInt32
  table : UInt32
  suppressPrefixlength : Int32
  fwmark : UInt32
  fwmask : UInt32
  uidRangeStart : UInt32
  uidRangeEnd : UInt32
  sportStart : UInt16
  sportEnd : UInt16
  dportStart : UInt16
  dportEnd : UInt16
  action : UInt8
  tos : UInt8
  ipproto : UInt8
  priorityHas : Bool
  uidRangeHas : Bool
  invert : Bool

def frActToTbl : UInt8 := 1

def frActBlackhole : UInt8 := 6

def frActUnreachable : UInt8 := 7

def frActProhibit : UInt8 := 8

def rtTableDefault : UInt32 := 253

def rtTableMain : UInt32 := 254

def rtTableLocal : UInt32 := 255

def RuleAddr.new (f : AddrFamily) : RuleAddr f := ⟨0, none, 0, false, false⟩

namespace NMIPRoutingRule

variable {f : AddrFamily} (r : NMIPRoutingRule f)

def new (f : AddrFamily) : NMIPRoutingRule f where
  fromAddr := .new f
  toAddr := .new f
  iifname := none
  oifname := none
  priority := 0
  table := rtTableMain
  suppressPrefixlength := -1
  fwmark := 0
  fwmask := 0
  uidRangeStart := 0
  uidRangeEnd := 0
  sportStart := 0
  sportEnd := 0
  dportStart := 0
  dportEnd := 0
  action := frActToTbl
  tos := 0
  ipproto := 0
  priorityHas := false
  uidRangeHas := false
  invert := false

end NMIPRoutingRule

/-! ## Setters -/

namespace RuleAddr

variable {f : AddrFamily} (inet : Inet) (a : RuleAddr f)

def setBin (addr : Option f.Addr) (len : UInt8) : RuleAddr f :=
  match addr with
  | none => { a with str := none, has := false, len := len }
  | some addr => { bin := addr, str := none, len := len, has := true, valid := true }

/-- The setters of the address and the prefix length, with the address as text. -/
def setStr (addr : Option Bytes) (len : UInt8) : RuleAddr f :=
  match addr with
  | none => { a with str := none, has := false, len := len }
  | some addr =>
    match inet.pton f addr with
    | none => { a with str := some addr, has := true, len := len, valid := false }
    | some bin => { bin := bin, str := none, has := true, len := len, valid := true }

def get : RuleAddr f :=
  if a.has ∧ a.str = none then { a with str := some (inet.ntop f a.bin) } else a

def clone : RuleAddr f := { a with str := if a.has ∧ ¬ a.valid then a.str else none }

end RuleAddr

namespace NMIPRoutingRule

variable {f : AddrFamily} (inet : Inet) (r : NMIPRoutingRule f)

def setPriority (priority : ℤ) : NMIPRoutingRule f :=
  if 0 ≤ priority ∧ priority ≤ 0xFFFFFFFF then
    { r with priority := UInt32.ofNat priority.toNat, priorityHas := true }
  else if priority = -1 then { r with priority := 0, priorityHas := false }
  else r

def setInvert (invert : Bool) : NMIPRoutingRule f := { r with invert := invert }

def setFromBin (addr : Option f.Addr) (len : UInt8) : NMIPRoutingRule f :=
  { r with fromAddr := r.fromAddr.setBin addr len }

def setFrom (addr : Option Bytes) (len : UInt8) : NMIPRoutingRule f :=
  { r with fromAddr := r.fromAddr.setStr inet addr len }

def setToBin (addr : Option f.Addr) (len : UInt8) : NMIPRoutingRule f :=
  { r with toAddr := r.toAddr.setBin addr len }

def setTo (addr : Option Bytes) (len : UInt8) : NMIPRoutingRule f :=
  { r with toAddr := r.toAddr.setStr inet addr len }

def setTos (tos : UInt8) : NMIPRoutingRule f := { r with tos := tos }

def setIpproto (ipproto : UInt8) : NMIPRoutingRule f := { r with ipproto := ipproto }

def setSourcePort (start «end» : UInt16) : NMIPRoutingRule f :=
  { r with sportStart := start, sportEnd := «end» }

def setDestinationPort (start «end» : UInt16) : NMIPRoutingRule f :=
  { r with dportStart := start, dportEnd := «end» }

def setFwmark (fwmark fwmask : UInt32) : NMIPRoutingRule f :=
  { r with fwmark := fwmark, fwmask := fwmask }

def setIifname (iifname : Option Bytes) : NMIPRoutingRule f := { r with iifname := iifname }

def setOifname (oifname : Option Bytes) : NMIPRoutingRule f := { r with oifname := oifname }

def setAction (action : UInt8) : NMIPRoutingRule f := { r with action := action }

def setTable (table : UInt32) : NMIPRoutingRule f := { r with table := table }

def setSuppressPrefixlength (suppressPrefixlength : Int32) : NMIPRoutingRule f :=
  { r with suppressPrefixlength := suppressPrefixlength }

def setUidRange (start «end» : UInt32) : NMIPRoutingRule f :=
  if start > «end» then { r with uidRangeStart := 0, uidRangeEnd := 0, uidRangeHas := false }
  else { r with uidRangeStart := start, uidRangeEnd := «end», uidRangeHas := true }

end NMIPRoutingRule

/-- What is done with a rule. -/
inductive RuleOp (f : AddrFamily)
  | setPriority (priority : ℤ)
  | setInvert (invert : Bool)
  | setFromBin (addr : Option f.Addr) (len : UInt8)
  | setFrom (addr : Option Bytes) (len : UInt8)
  | getFrom
  | setToBin (addr : Option f.Addr) (len : UInt8)
  | setTo (addr : Option Bytes) (len : UInt8)
  | getTo
  | setTos (tos : UInt8)
  | setIpproto (ipproto : UInt8)
  | setSourcePort (start «end» : UInt16)
  | setDestinationPort (start «end» : UInt16)
  | setFwmark (fwmark fwmask : UInt32)
  | setIifname (iifname : Option Bytes)
  | setOifname (oifname : Option Bytes)
  | setAction (action : UInt8)
  | setTable (table : UInt32)
  | setSuppressPrefixlength (suppressPrefixlength : Int32)
  | setUidRange (start «end» : UInt32)
  | clone

namespace NMIPRoutingRule

variable {f : AddrFamily} (inet : Inet)

def apply (r : NMIPRoutingRule f) : RuleOp f → NMIPRoutingRule f
  | .setPriority priority => r.setPriority priority
  | .setInvert invert => r.setInvert invert
  | .setFromBin addr len => r.setFromBin addr len
  | .setFrom addr len => r.setFrom inet addr len
  | .getFrom => { r with fromAddr := r.fromAddr.get inet }
  | .setToBin addr len => r.setToBin addr len
  | .setTo addr len => r.setTo inet addr len
  | .getTo => { r with toAddr := r.toAddr.get inet }
  | .setTos tos => r.setTos tos
  | .setIpproto ipproto => r.setIpproto ipproto
  | .setSourcePort start «end» => r.setSourcePort start «end»
  | .setDestinationPort start «end» => r.setDestinationPort start «end»
  | .setFwmark fwmark fwmask => r.setFwmark fwmark fwmask
  | .setIifname iifname => r.setIifname iifname
  | .setOifname oifname => r.setOifname oifname
  | .setAction action => r.setAction action
  | .setTable table => r.setTable table
  | .setSuppressPrefixlength suppressPrefixlength =>
    r.setSuppressPrefixlength suppressPrefixlength
  | .setUidRange start «end» => r.setUidRange start «end»
  | .clone => { r with fromAddr := r.fromAddr.clone, toAddr := r.toAddr.clone }

def build (f : AddrFamily) (ops : List (RuleOp f)) : NMIPRoutingRule f :=
  ops.foldl (apply inet) (new f)

end NMIPRoutingRule

/-! ## Comparing -/

/-- `strcmp()`, by bytes. -/
def strcmp (s t : Bytes) : Ordering := compare s t

section Compare

variable {f g : AddrFamily}

/-- The comparison of the fields for "from" or "to". -/
def RuleAddr.cmp (a : RuleAddr f) (b : RuleAddr g) : List Ordering :=
  [compare a.len b.len, compare a.has b.has] ++
    if a.has then
      [compare a.valid b.valid,
        if a.valid then compare a.bin.toNat b.bin.toNat else cmpPtr strcmp a.str b.str]
    else []

def NMIPRoutingRule.cmp (r : NMIPRoutingRule f) (o : NMIPRoutingRule g) : Ordering :=
  cmpSeq ([compare r.priorityHas o.priorityHas,
    if r.priorityHas then compare r.priority o.priority else .eq,
    compare (decide (f = .inet)) (decide (g = .inet)),
    compare r.invert o.invert,
    compare r.tos o.tos,
    compare r.fwmark o.fwmark,
    compare r.fwmask o.fwmask,
    compare r.action o.action,
    compare r.table o.table,
    compare r.suppressPrefixlength.toInt o.suppressPrefixlength.toInt,
    compare r.sportStart o.sportStart,
    compare r.sportEnd o.sportEnd,
    compare r.dportStart o.dportStart,
    compare r.dportEnd o.dportEnd,
    compare r.ipproto o.ipproto,
    compare r.uidRangeHas o.uidRangeHas,
    if r.uidRangeHas then
      (compare r.uidRangeEnd o.uidRangeEnd).then (compare r.uidRangeStart o.uidRangeStart)
    else .eq,
    cmpPtr strcmp r.iifname o.iifname,
    cmpPtr strcmp r.oifname o.oifname] ++ r.fromAddr.cmp o.fromAddr ++ r.toAddr.cmp o.toAddr)

end Compare

/-! ## Validating -/

def isSpaceKernel (c : UInt8) : Bool := isSpace c ∨ c = 11 ∨ c = 160

/-- `nm_utils_ifname_valid_kernel()`, for a name of up to 15 characters. -/
def ifnameValidKernel (name : Bytes) : Bool :=
  name ≠ [] ∧ name ≠ ascii "." ∧ name ≠ ascii ".." ∧
    (∀ c ∈ name, c ≠ '/' ∧ c ≠ ':' ∧ ¬ isSpaceKernel c) ∧ name.length < 16

def isValidIfaceNameUtf8safe (name : Bytes) : Bool :=
  NulFree (bufUtf8safeUnescape false name) ∧ ifnameValidKernel (bufUtf8safeUnescape false name)

def xportRangeValid (start «end» : UInt16) : Bool :=
  if start = 0 then «end» = 0 else start ≤ «end» ∧ «end» < 0xFFFF

def require (c : Bool) (message : Bytes) : Except Bytes Unit :=
  if c then .ok () else .error message

/-- The checks of the address and the prefix length, with the words for "from" or "to". -/
def RuleAddr.validate {f : AddrFamily} (a : RuleAddr f) (name : Bytes) : Except Bytes Unit :=
  if a.len = 0 then
    if a.has then .error (ascii "has " ++ name ++ ascii " but the prefix-length is zero")
    else .ok ()
  else if a.len.toNat ≤ f.bits then
    if ¬ a.has then .error (ascii "missing " ++ name ++ ascii " for a non zero prefix-length")
    else if ¬ a.valid then .error (ascii "invalid " ++ name)
    else .ok ()
  else .error (ascii "invalid prefix length for " ++ name)

/-- The check of the name of an interface. -/
def validateIfname (ifname : Option Bytes) (name : Bytes) : Except Bytes Unit :=
  match ifname with
  | none => .ok ()
  | some ifname =>
    if ¬ isUtf8 ifname ∨ ¬ isValidIfaceNameUtf8safe ifname then .error (ascii "invalid " ++ name)
    else .ok ()

namespace NMIPRoutingRule

variable {f : AddrFamily} (r : NMIPRoutingRule f)

def validateAction : Except Bytes Unit :=
  if r.action = frActToTbl then
    if r.table = 0 then .error (ascii "missing table") else .ok ()
  else if r.action ∈ [frActBlackhole, frActProhibit, frActUnreachable] then .ok ()
  else .error (ascii "invalid action type")

def validateSuppressPrefixlength : Except Bytes Unit :=
  if r.suppressPrefixlength ≠ -1 then
    if r.suppressPrefixlength < -1 ∨ r.suppressPrefixlength.toInt > f.bits then
      .error (ascii "suppress_prefixlength out of range")
    else if r.action ≠ frActToTbl then
      .error (ascii "suppress_prefixlength is only allowed with the to-table action")
    else .ok ()
  else .ok ()

/-- `nm_ip_routing_rule_validate()`, with the message of the error. -/
def validate : Except Bytes Unit := do
  require r.priorityHas (ascii "missing priority")
  r.validateAction
  r.fromAddr.validate (ascii "from/src")
  r.toAddr.validate (ascii "to/dst")
  validateIfname r.iifname (ascii "iifname")
  validateIfname r.oifname (ascii "oifname")
  require (xportRangeValid r.sportStart r.sportEnd) (ascii "invalid source port range")
  require (xportRangeValid r.dportStart r.dportEnd) (ascii "invalid destination port range")
  r.validateSuppressPrefixlength

end NMIPRoutingRule

/-! ## Valid rules -/

/-- The address and the prefix length of a valid rule. -/
def RuleAddr.IsValid {f : AddrFamily} (a : RuleAddr f) : Prop :=
  (a.len = 0 ∧ a.has = false) ∨ (a.len ≠ 0 ∧ a.len.toNat ≤ f.bits ∧ a.has ∧ a.valid)

def xportRangeIsValid (start «end» : UInt16) : Prop :=
  (start = 0 ∧ «end» = 0) ∨ (start ≠ 0 ∧ start ≤ «end»)

/-- What is known of a valid rule. -/
structure NMIPRoutingRule.IsValid {f : AddrFamily} (r : NMIPRoutingRule f) : Prop where
  priority : r.priorityHas
  action : (r.action = frActToTbl ∧ r.table ≠ 0) ∨
    r.action ∈ [frActBlackhole, frActProhibit, frActUnreachable]
  fromAddr : r.fromAddr.IsValid
  toAddr : r.toAddr.IsValid
  iifname : ∀ name ∈ r.iifname, name ≠ []
  oifname : ∀ name ∈ r.oifname, name ≠ []
  sport : xportRangeIsValid r.sportStart r.sportEnd
  dport : xportRangeIsValid r.dportStart r.dportEnd
  suppressPrefixlength : r.suppressPrefixlength = -1 ∨
    (0 ≤ r.suppressPrefixlength.toInt ∧ r.action = frActToTbl)

theorem RuleAddr.isValid_of_validate {f : AddrFamily} {a : RuleAddr f} {name : Bytes}
    (h : a.validate name = .ok ()) : a.IsValid := by
  unfold RuleAddr.validate at h
  split_ifs at h with hlen hhas hle hhas hvalid
  · exact .inl ⟨hlen, by simpa using hhas⟩
  · exact .inr ⟨hlen, hle, hhas, hvalid⟩

theorem ne_nil_of_validateIfname {ifname : Option Bytes} {name : Bytes}
    (h : validateIfname ifname name = .ok ()) : ∀ n ∈ ifname, n ≠ [] := by
  rintro n hn rfl
  obtain rfl := Option.mem_def.mp hn
  have hinvalid : isValidIfaceNameUtf8safe [] = false := by
    simp [isValidIfaceNameUtf8safe, ifnameValidKernel, bufUtf8safeUnescape, unescapeLoop_nil]
  simp [validateIfname, hinvalid] at h

theorem isValid_of_xportRangeValid {start «end» : UInt16} (h : xportRangeValid start «end») :
    xportRangeIsValid start «end» := by
  unfold xportRangeValid at h
  split_ifs at h with hstart
  · exact .inl ⟨hstart, by simpa using h⟩
  · exact .inr ⟨hstart, (decide_eq_true_eq.mp h).1⟩

theorem bind_eq_ok {α β : Type} {x : Except Bytes α} {y : α → Except Bytes β} {b : β} :
    (x >>= y) = .ok b ↔ ∃ a, x = .ok a ∧ y a = .ok b := by
  cases x with
  | error e => simp [bind, Except.bind]
  | ok a => simp [bind, Except.bind]

theorem require_eq_ok {c : Bool} {message : Bytes} {u : Unit} :
    require c message = .ok u ↔ c := by
  cases c <;> simp [require]

namespace NMIPRoutingRule

variable {f : AddrFamily} {r : NMIPRoutingRule f}

theorem action_of_validate (h : r.validateAction = .ok ()) :
    (r.action = frActToTbl ∧ r.table ≠ 0) ∨
      r.action ∈ [frActBlackhole, frActProhibit, frActUnreachable] := by
  unfold validateAction at h
  split_ifs at h with haction htable hother
  · exact .inl ⟨haction, htable⟩
  · exact .inr hother

theorem suppressPrefixlength_of_validate (h : r.validateSuppressPrefixlength = .ok ()) :
    r.suppressPrefixlength = -1 ∨
      (0 ≤ r.suppressPrefixlength.toInt ∧ r.action = frActToTbl) := by
  unfold validateSuppressPrefixlength at h
  split_ifs at h with hunset hrange haction
  · have hne : r.suppressPrefixlength.toInt ≠ -1 := fun hint =>
      hunset (Int32.toInt_inj.mp hint)
    have hlt : ¬ r.suppressPrefixlength.toInt < -1 := fun hlt =>
      hrange (.inl (Int32.lt_iff_toInt_lt.mpr hlt))
    exact .inr ⟨by omega, not_not.mp haction⟩
  · exact .inl (not_not.mp hunset)

theorem isValid_of_validate (h : r.validate = .ok ()) : r.IsValid := by
  simp only [validate, bind_eq_ok, require_eq_ok] at h
  obtain ⟨_, hpriority, _, haction, _, hfrom, _, hto, _, hiifname, _, hoifname, _, hsport, _,
    hdport, hsuppress⟩ := h
  exact
    { priority := hpriority
      action := action_of_validate haction
      fromAddr := RuleAddr.isValid_of_validate hfrom
      toAddr := RuleAddr.isValid_of_validate hto
      iifname := ne_nil_of_validateIfname hiifname
      oifname := ne_nil_of_validateIfname hoifname
      sport := isValid_of_xportRangeValid hsport
      dport := isValid_of_xportRangeValid hdport
      suppressPrefixlength := suppressPrefixlength_of_validate hsuppress }

end NMIPRoutingRule

/-! ## What the setters keep -/

/-- The text that is kept of a valid address is its own. -/
def RuleAddr.WellFormed {f : AddrFamily} (inet : Inet) (a : RuleAddr f) : Prop :=
  ∀ s ∈ a.str, a.valid → s = inet.ntop f a.bin

structure NMIPRoutingRule.WellFormed {f : AddrFamily} (inet : Inet) (r : NMIPRoutingRule f) :
    Prop where
  fromAddr : r.fromAddr.WellFormed inet
  toAddr : r.toAddr.WellFormed inet
  uidRange : r.uidRangeHas → r.uidRangeStart ≤ r.uidRangeEnd
  noUidRange : r.uidRangeHas = false → r.uidRangeStart = 0 ∧ r.uidRangeEnd = 0

namespace RuleAddr

variable {f : AddrFamily} {inet : Inet} {a : RuleAddr f}

theorem wellFormed_of_none (h : a.str = none) : a.WellFormed inet := by
  intro s hs
  rw [h] at hs
  cases hs

theorem wellFormed_setBin (addr : Option f.Addr) (len : UInt8) :
    (a.setBin addr len).WellFormed inet := by
  cases addr <;> exact wellFormed_of_none rfl

theorem wellFormed_setStr (addr : Option Bytes) (len : UInt8) :
    (a.setStr inet addr len).WellFormed inet := by
  cases addr with
  | none => exact wellFormed_of_none rfl
  | some addr =>
    cases hpton : inet.pton f addr with
    | none =>
      intro s _ hvalid
      simp [setStr, hpton] at hvalid
    | some bin =>
      apply wellFormed_of_none
      simp [setStr, hpton]

theorem WellFormed.get (h : a.WellFormed inet) : (a.get inet).WellFormed inet := by
  unfold RuleAddr.get
  split_ifs
  · intro s hs _
    exact (Option.some.inj hs).symm
  · exact h

theorem wellFormed_clone : a.clone.WellFormed inet := by
  intro s hs hvalid
  simp only [RuleAddr.clone] at hs hvalid
  split_ifs at hs with hinvalid
  · exact absurd hvalid hinvalid.2
  · cases hs

end RuleAddr

namespace NMIPRoutingRule

variable {f : AddrFamily} {inet : Inet}

theorem WellFormed.apply {r : NMIPRoutingRule f} (h : r.WellFormed inet) (op : RuleOp f) :
    (r.apply inet op).WellFormed inet := by
  obtain ⟨hfrom, hto, huid, hno⟩ := h
  cases op with
  | setPriority priority =>
    simp only [NMIPRoutingRule.apply, setPriority]
    split_ifs <;> exact ⟨hfrom, hto, huid, hno⟩
  | setFromBin addr len => exact ⟨RuleAddr.wellFormed_setBin addr len, hto, huid, hno⟩
  | setFrom addr len => exact ⟨RuleAddr.wellFormed_setStr addr len, hto, huid, hno⟩
  | getFrom => exact ⟨hfrom.get, hto, huid, hno⟩
  | setToBin addr len => exact ⟨hfrom, RuleAddr.wellFormed_setBin addr len, huid, hno⟩
  | setTo addr len => exact ⟨hfrom, RuleAddr.wellFormed_setStr addr len, huid, hno⟩
  | getTo => exact ⟨hfrom, hto.get, huid, hno⟩
  | setUidRange start «end» =>
    simp only [NMIPRoutingRule.apply, setUidRange]
    split_ifs with hrange
    · exact ⟨hfrom, hto, fun h => absurd h Bool.false_ne_true, fun _ => ⟨rfl, rfl⟩⟩
    · exact ⟨hfrom, hto, fun _ => UInt32.not_lt.mp hrange, fun h => absurd h Bool.true_eq_false.mp⟩
  | clone => exact ⟨RuleAddr.wellFormed_clone, RuleAddr.wellFormed_clone, huid, hno⟩
  | _ => exact ⟨hfrom, hto, huid, hno⟩

theorem wellFormed_build (ops : List (RuleOp f)) : (build inet f ops).WellFormed inet := by
  have hnew : (new f).WellFormed inet :=
    ⟨RuleAddr.wellFormed_of_none rfl, RuleAddr.wellFormed_of_none rfl,
      fun h => absurd h Bool.false_ne_true, fun _ => ⟨rfl, rfl⟩⟩
  exact foldl_invariant (fun r op (h : r.WellFormed inet) => h.apply op) hnew ops

end NMIPRoutingRule

/-! ## The rule without what is kept for later -/

def RuleAddr.canonical {f : AddrFamily} (a : RuleAddr f) : RuleAddr f :=
  if a.has then ⟨a.bin, none, a.len, true, true⟩ else .new f

theorem RuleAddr.IsValid.cmp_canonical {f : AddrFamily} {a : RuleAddr f} (h : a.IsValid) :
    ∀ o ∈ a.cmp a.canonical, o = .eq := by
  rcases h with ⟨hlen, hhas⟩ | ⟨-, -, hhas, hvalid⟩
  · simp [RuleAddr.cmp, canonical, hhas, hlen, RuleAddr.new]
  · simp [RuleAddr.cmp, canonical, hhas, hvalid]

theorem RuleAddr.IsValid.validate_canonical {f : AddrFamily} {a : RuleAddr f} (h : a.IsValid)
    (name : Bytes) : a.canonical.validate name = a.validate name := by
  rcases h with ⟨hlen, hhas⟩ | ⟨-, -, hhas, hvalid⟩
  · simp [RuleAddr.validate, canonical, hhas, hlen, RuleAddr.new]
  · simp [RuleAddr.validate, canonical, hhas, hvalid]

namespace NMIPRoutingRule

variable {f : AddrFamily}

def canonical (r : NMIPRoutingRule f) : NMIPRoutingRule f :=
  { r with fromAddr := r.fromAddr.canonical, toAddr := r.toAddr.canonical }

theorem IsValid.cmp_canonical {r : NMIPRoutingRule f} (h : r.IsValid) :
    r.cmp r.canonical = .eq := by
  have hself (name : Option Bytes) : cmpPtr strcmp name name = .eq :=
    cmpPtr_self (fun _ => Std.compare_self) name
  simp only [cmp, cmpSeq_eq_eq, List.forall_mem_append]
  refine ⟨⟨?_, h.fromAddr.cmp_canonical⟩, h.toAddr.cmp_canonical⟩
  simp [canonical, hself]

theorem IsValid.validate_canonical {r : NMIPRoutingRule f} (h : r.IsValid) :
    r.canonical.validate = r.validate := by
  have hfrom := h.fromAddr.validate_canonical (ascii "from/src")
  have hto := h.toAddr.validate_canonical (ascii "to/dst")
  unfold validate
  simp only [canonical, hfrom, hto]
  rfl

end NMIPRoutingRule

end NetworkManager.Settings
