import NetworkManager.Settings.RoutingRule

/-!
# Routing rules on D-Bus

On D-Bus, a rule is a dictionary of attributes. An attribute that has its default is left out
by `nm_ip_routing_rule_to_dbus()`, and `nm_ip_routing_rule_from_dbus()` has to know the default.
If it is strict, unknown and duplicate keys are errors, and the rule has to be valid.
-/

namespace NetworkManager.Settings

open Lib GlibAux

/-! ## Dictionaries -/

inductive VariantType
  | byte
  | uint16
  | uint32
  | int32
  | boolean
  | string
  deriving DecidableEq

/-- `GVariant`, of the types of the attributes or of another one. -/
inductive Variant
  | byte (v : UInt8)
  | uint16 (v : UInt16)
  | uint32 (v : UInt32)
  | int32 (v : Int32)
  | boolean (v : Bool)
  | string (v : Bytes)
  | other
  deriving DecidableEq

namespace Variant

def isOfType : Variant → VariantType → Bool
  | byte _, .byte | uint16 _, .uint16 | uint32 _, .uint32 | int32 _, .int32
  | boolean _, .boolean | string _, .string => true
  | _, _ => false

def getByte : Variant → UInt8
  | byte v => v
  | _ => 0

def getUint16 : Variant → UInt16
  | uint16 v => v
  | _ => 0

def getUint32 : Variant → UInt32
  | uint32 v => v
  | _ => 0

def getInt32 : Variant → Int32
  | int32 v => v
  | _ => 0

def getBoolean : Variant → Bool
  | boolean v => v
  | _ => false

def getString : Variant → Bytes
  | string v => v
  | _ => []

end Variant

inductive RRDbusAttr
  | action
  | dportEnd
  | dportStart
  | family
  | fromAddr
  | fromLen
  | fwmark
  | fwmask
  | iifname
  | invert
  | ipproto
  | oifname
  | priority
  | sportEnd
  | sportStart
  | suppressPrefixlength
  | table
  | toAddr
  | toLen
  | tos
  | uidRangeEnd
  | uidRangeStart
  deriving DecidableEq

namespace RRDbusAttr

def all : List RRDbusAttr :=
  [action, dportEnd, dportStart, family, fromAddr, fromLen, fwmark, fwmask, iifname, invert,
    ipproto, oifname, priority, sportEnd, sportStart, suppressPrefixlength, table, toAddr, toLen,
    tos, uidRangeEnd, uidRangeStart]

/-- The first part of `rr_dbus_data`. -/
def name : RRDbusAttr → Bytes
  | action => ascii "action"
  | dportEnd => ascii "dport-end"
  | dportStart => ascii "dport-start"
  | family => ascii "family"
  | fromAddr => ascii "from"
  | fromLen => ascii "from-len"
  | fwmark => ascii "fwmark"
  | fwmask => ascii "fwmask"
  | iifname => ascii "iifname"
  | invert => ascii "invert"
  | ipproto => ascii "ipproto"
  | oifname => ascii "oifname"
  | priority => ascii "priority"
  | sportEnd => ascii "sport-end"
  | sportStart => ascii "sport-start"
  | suppressPrefixlength => ascii "suppress-prefixlength"
  | table => ascii "table"
  | toAddr => ascii "to"
  | toLen => ascii "to-len"
  | tos => ascii "tos"
  | uidRangeEnd => ascii "uid-range-end"
  | uidRangeStart => ascii "uid-range-start"

/-- The second part of `rr_dbus_data`. -/
def dbusType : RRDbusAttr → VariantType
  | action | fromLen | ipproto | toLen | tos => .byte
  | dportEnd | dportStart | sportEnd | sportStart => .uint16
  | family | suppressPrefixlength => .int32
  | fromAddr | iifname | oifname | toAddr => .string
  | fwmark | fwmask | priority | table | uidRangeEnd | uidRangeStart => .uint32
  | invert => .boolean

def fromName (name : Bytes) : Option RRDbusAttr := all.find? fun attr => attr.name = name

theorem fromName_name (attr : RRDbusAttr) : fromName attr.name = some attr := by
  cases attr <;> decide

end RRDbusAttr

/-- The attributes that were found. -/
abbrev RRVariants := RRDbusAttr → Option Variant

/-- The loop over the dictionary. -/
def collectAttrs (strict : Bool) (variants : RRVariants) :
    List (Bytes × Variant) → Except Bytes RRVariants
  | [] => .ok variants
  | (key, val) :: dict =>
    match RRDbusAttr.fromName key with
    | none =>
      if strict then .error (ascii "invalid key \"" ++ key ++ ascii "\"")
      else collectAttrs strict variants dict
    | some attr =>
      if strict ∧ (variants attr).isSome then .error (ascii "duplicate key " ++ key)
      else collectAttrs strict (Function.update variants attr (some val)) dict

/-- `g_variant_type` strings -/
def VariantType.text : VariantType → Bytes
  | byte => ascii "y"
  | uint16 => ascii "q"
  | uint32 => ascii "u"
  | int32 => ascii "i"
  | boolean => ascii "b"
  | string => ascii "s"

/-- The loop that checks the types. -/
def checkTypes (variants : RRVariants) : List RRDbusAttr → Except Bytes Unit
  | [] => .ok ()
  | attr :: attrs =>
    if ∀ v ∈ variants attr, v.isOfType attr.dbusType then checkTypes variants attrs
    else .error (ascii "invalid variant type '" ++ attr.dbusType.text ++ ascii "' for \"" ++
      attr.name ++ ascii "\"")

/-! ## Reading a rule -/

/-- `AF_INET` and `AF_INET6` -/
def AddrFamily.number : AddrFamily → Int32
  | inet => 2
  | inet6 => 10

def AddrFamily.ofNumber (n : Int32) : Option AddrFamily :=
  if n = 2 then some .inet else if n = 10 then some .inet6 else none

section FromDbus

variable {f : AddrFamily} (inet : Inet) (variants : RRVariants)

def setAttr {α : Type} (attr : RRDbusAttr) (set : α → Variant → α) (r : α) : α :=
  match variants attr with
  | none => r
  | some v => set r v

/-- Set a range. The start and the end default to each other. -/
def setRange {α β : Type} (start «end» : RRDbusAttr) (get : Variant → β) (set : α → β → β → α)
    (r : α) : α :=
  match variants start, variants «end» with
  | none, none => r
  | some start, none => set r (get start) (get start)
  | none, some «end» => set r (get «end») (get «end»)
  | some start, some «end» => set r (get start) (get «end»)

/-- Set two properties together, each with its default. -/
def setPair {α β γ : Type} (fst snd : RRDbusAttr) (getFst : Variant → β) (getSnd : Variant → γ)
    (defaultFst : β) (defaultSnd : γ) (set : α → β → γ → α) (r : α) : α :=
  if variants fst = none ∧ variants snd = none then r
  else set r (((variants fst).map getFst).getD defaultFst)
    (((variants snd).map getSnd).getD defaultSnd)

/-- The range of user ids is the only one that is checked here. -/
def setUidRangeAttr (strict : Bool) (r : NMIPRoutingRule f) :
    Except Bytes (NMIPRoutingRule f) :=
  setRange variants .uidRangeStart .uidRangeEnd Variant.getUint32
    (fun r start «end» =>
      if «end» < start then
        if strict then .error (ascii "\"uid-range-start\" is greater than \"uid-range-end\"")
        else r
      else r.map fun r => r.setUidRange start «end») (.ok r)

/-- The properties that are set before the range of user ids. -/
def setAttrsBefore (r : NMIPRoutingRule f) : NMIPRoutingRule f :=
  let r := setAttr variants .priority (fun r v => r.setPriority v.getUint32.toNat) r
  let r := setAttr variants .invert (fun r v => r.setInvert v.getBoolean) r
  let r := setAttr variants .tos (fun r v => r.setTos v.getByte) r
  let r := setAttr variants .ipproto (fun r v => r.setIpproto v.getByte) r
  let r := setRange variants .dportStart .dportEnd Variant.getUint16
    NMIPRoutingRule.setDestinationPort r
  setRange variants .sportStart .sportEnd Variant.getUint16 NMIPRoutingRule.setSourcePort r

/-- The properties that are set after the range of user ids. -/
def setAttrsAfter (r : NMIPRoutingRule f) : NMIPRoutingRule f :=
  let r := setPair variants .fwmark .fwmask Variant.getUint32 Variant.getUint32 0 0
    NMIPRoutingRule.setFwmark r
  let r := setPair variants .fromAddr .fromLen (fun v => some v.getString) Variant.getByte none 0
    (NMIPRoutingRule.setFrom inet) r
  let r := setPair variants .toAddr .toLen (fun v => some v.getString) Variant.getByte none 0
    (NMIPRoutingRule.setTo inet) r
  let r := setAttr variants .iifname (fun r v => r.setIifname (some v.getString)) r
  let r := setAttr variants .oifname (fun r v => r.setOifname (some v.getString)) r
  let r := r.setAction (((variants .action).map Variant.getByte).getD frActToTbl)
  let r := r.setTable (((variants .table).map Variant.getUint32).getD 0)
  setAttr variants .suppressPrefixlength (fun r v => r.setSuppressPrefixlength v.getInt32) r

/-- The rule of a known address family. -/
def fromDbusAttrs (strict : Bool) (f : AddrFamily) : Except Bytes (NMIPRoutingRule f) := do
  let r ← setUidRangeAttr variants strict (setAttrsBefore variants (.new f))
  let r := setAttrsAfter inet variants r
  if strict then r.validate
  return r

/-- The address family. -/
def familyAttr : Except Bytes AddrFamily :=
  match variants .family with
  | none => .error (ascii "missing \"family\"")
  | some v =>
    match AddrFamily.ofNumber v.getInt32 with
    | none => .error (ascii "invalid \"family\"")
    | some f => .ok f

def NMIPRoutingRule.fromDbus (dict : List (Bytes × Variant)) (strict : Bool) :
    Except Bytes (Σ f, NMIPRoutingRule f) := do
  let variants ← collectAttrs strict (fun _ => none) dict
  checkTypes variants RRDbusAttr.all
  let f ← familyAttr variants
  let r ← fromDbusAttrs inet variants strict f
  return ⟨f, r⟩

end FromDbus

/-! ## Writing a rule -/

def RuleAddr.text {f : AddrFamily} (inet : Inet) (a : RuleAddr f) : Bytes :=
  a.str.getD (inet.ntop f a.bin)

namespace NMIPRoutingRule

variable {f : AddrFamily} (inet : Inet) (r : NMIPRoutingRule f)

/-- The attribute that is added, if any. -/
def dbusValue : RRVariants
  | .family => some (.int32 f.number)
  | .invert => if r.invert then some (.boolean true) else none
  | .priority => if r.priorityHas then some (.uint32 r.priority) else none
  | .tos => if r.tos ≠ 0 then some (.byte r.tos) else none
  | .ipproto => if r.ipproto ≠ 0 then some (.byte r.ipproto) else none
  | .fwmark => if r.fwmark ≠ 0 then some (.uint32 r.fwmark) else none
  | .fwmask => if r.fwmask ≠ 0 then some (.uint32 r.fwmask) else none
  | .sportStart =>
    if r.sportStart ≠ 0 ∨ r.sportEnd ≠ 0 then some (.uint16 r.sportStart) else none
  | .sportEnd =>
    if (r.sportStart ≠ 0 ∨ r.sportEnd ≠ 0) ∧ r.sportStart ≠ r.sportEnd then
      some (.uint16 r.sportEnd)
    else none
  | .dportStart =>
    if r.dportStart ≠ 0 ∨ r.dportEnd ≠ 0 then some (.uint16 r.dportStart) else none
  | .dportEnd =>
    if (r.dportStart ≠ 0 ∨ r.dportEnd ≠ 0) ∧ r.dportStart ≠ r.dportEnd then
      some (.uint16 r.dportEnd)
    else none
  | .fromAddr =>
    if r.fromAddr.has ∨ r.fromAddr.len ≠ 0 then some (.string (r.fromAddr.text inet)) else none
  | .fromLen => if r.fromAddr.has ∨ r.fromAddr.len ≠ 0 then some (.byte r.fromAddr.len) else none
  | .toAddr =>
    if r.toAddr.has ∨ r.toAddr.len ≠ 0 then some (.string (r.toAddr.text inet)) else none
  | .toLen => if r.toAddr.has ∨ r.toAddr.len ≠ 0 then some (.byte r.toAddr.len) else none
  | .iifname => r.iifname.map .string
  | .oifname => r.oifname.map .string
  | .action => if r.action ≠ frActToTbl then some (.byte r.action) else none
  | .table => if r.table ≠ 0 then some (.uint32 r.table) else none
  | .suppressPrefixlength =>
    if r.suppressPrefixlength ≠ -1 then some (.int32 r.suppressPrefixlength) else none
  | .uidRangeStart => if r.uidRangeHas then some (.uint32 r.uidRangeStart) else none
  | .uidRangeEnd =>
    if r.uidRangeHas ∧ r.uidRangeStart ≠ r.uidRangeEnd then some (.uint32 r.uidRangeEnd) else none

def dbusOrder : List RRDbusAttr :=
  [.family, .invert, .priority, .tos, .ipproto, .fwmark, .fwmask, .sportStart, .sportEnd,
    .dportStart, .dportEnd, .fromAddr, .fromLen, .toAddr, .toLen, .iifname, .oifname, .action,
    .table, .suppressPrefixlength, .uidRangeStart, .uidRangeEnd]

def toDbus : List (Bytes × Variant) :=
  dbusOrder.filterMap fun attr => (r.dbusValue inet attr).map (attr.name, ·)

end NMIPRoutingRule

/-! ## A rule is read back -/

theorem collectAttrs_filterMap (strict : Bool) (value : RRVariants) (attrs : List RRDbusAttr)
    (hnodup : attrs.Nodup) (variants : RRVariants) (hfree : ∀ attr ∈ attrs, variants attr = none) :
    collectAttrs strict variants
        (attrs.filterMap fun attr => (value attr).map (attr.name, ·)) =
      .ok fun attr => if attr ∈ attrs then value attr else variants attr := by
  induction attrs generalizing variants with
  | nil => simp [collectAttrs]
  | cons attr attrs ih =>
    obtain ⟨hnotMem, hnodup⟩ := List.nodup_cons.mp hnodup
    rw [List.forall_mem_cons] at hfree
    cases hvalue : value attr with
    | none =>
      rw [List.filterMap_cons_none (by simp [hvalue]), ih hnodup variants hfree.2]
      congr 1
      funext other
      by_cases hother : other = attr
      · subst hother
        simp [hnotMem, hvalue, hfree.1]
      · simp [hother]
    | some v =>
      have hkept : ∀ other ∈ attrs, Function.update variants attr (some v) other = none := by
        intro other hother
        have hne : other ≠ attr := fun h => hnotMem (h ▸ hother)
        rw [Function.update_of_ne hne]
        exact hfree.2 other hother
      rw [List.filterMap_cons_some (b := (attr.name, v)) (by simp [hvalue])]
      simp only [collectAttrs, RRDbusAttr.fromName_name, hfree.1, Option.isSome_none,
        Bool.false_eq_true, and_false, if_false]
      rw [ih hnodup _ hkept]
      congr 1
      funext other
      by_cases hother : other = attr
      · subst hother
        simp [hnotMem, hvalue]
      · simp [hother]

theorem checkTypes_eq_ok {variants : RRVariants}
    (h : ∀ attr, ∀ v ∈ variants attr, v.isOfType attr.dbusType) (attrs : List RRDbusAttr) :
    checkTypes variants attrs = .ok () := by
  induction attrs with
  | nil => rfl
  | cons attr attrs ih => rw [checkTypes, if_pos (h attr), ih]

theorem ofNumber_number (f : AddrFamily) : AddrFamily.ofNumber f.number = some f := by
  cases f <;> decide

section Written

variable {α : Type} {variants : RRVariants} {p : Prop} [Decidable p] {r target : α}

theorem setAttr_written {attr : RRDbusAttr} {v : Variant} {set : α → Variant → α}
    (hvalue : variants attr = if p then some v else none) (hset : p → set r v = target)
    (hskip : ¬ p → r = target) : setAttr variants attr set r = target := by
  by_cases hp : p
  · simp only [setAttr, hvalue, if_pos hp, hset hp]
  · simp only [setAttr, hvalue, if_neg hp]
    exact hskip hp

theorem setRange_written {β : Type} [DecidableEq β] {start «end» : RRDbusAttr} {get : Variant → β}
    {make : β → Variant} {s e : β} {set : α → β → β → α} (hget : ∀ b, get (make b) = b)
    (hstart : variants start = if p then some (make s) else none)
    (hend : variants «end» = if p ∧ s ≠ e then some (make e) else none)
    (hset : p → set r s e = target) (hskip : ¬ p → r = target) :
    setRange variants start «end» get set r = target := by
  by_cases hp : p
  · rw [← hset hp]
    by_cases hse : s = e
    · simp [setRange, hstart, hend, hp, hse, hget]
    · simp [setRange, hstart, hend, hp, hse, hget]
  · rw [← hskip hp]
    simp [setRange, hstart, hend, hp]

end Written

namespace NMIPRoutingRule

variable {f : AddrFamily} {inet : Inet} {r : NMIPRoutingRule f}

theorem isOfType_dbusValue (attr : RRDbusAttr) :
    ∀ v ∈ r.dbusValue inet attr, v.isOfType attr.dbusType := by
  cases attr <;> simp +contextual [dbusValue, RRDbusAttr.dbusType, Variant.isOfType]

theorem collectAttrs_toDbus (strict : Bool) :
    collectAttrs strict (fun _ => none) (r.toDbus inet) = .ok (r.dbusValue inet) := by
  have hcollect := collectAttrs_filterMap strict (r.dbusValue inet) dbusOrder (by decide)
    (fun _ => none) fun _ _ => rfl
  have hall (attr : RRDbusAttr) : attr ∈ dbusOrder := by cases attr <;> decide
  simp only [hall, if_true] at hcollect
  exact hcollect

theorem setAttrsBefore_dbusValue (hpriority : r.priorityHas) :
    setAttrsBefore (r.dbusValue inet) (.new f) =
      { NMIPRoutingRule.new f with
        priority := r.priority
        priorityHas := true
        invert := r.invert
        tos := r.tos
        ipproto := r.ipproto
        dportStart := r.dportStart
        dportEnd := r.dportEnd
        sportStart := r.sportStart
        sportEnd := r.sportEnd } := by
  have hpriorityAttr (s : NMIPRoutingRule f) :
      setAttr (r.dbusValue inet) .priority (fun s v => s.setPriority v.getUint32.toNat) s =
        { s with priority := r.priority, priorityHas := true } := by
    have hlt := r.priority.toNat_lt
    have hrange : (0 : ℤ) ≤ r.priority.toNat ∧ (r.priority.toNat : ℤ) ≤ 0xFFFFFFFF := by omega
    simp [setAttr, dbusValue, hpriority, Variant.getUint32, setPriority, hrange]
  have hinvert (s : NMIPRoutingRule f) (h : s.invert = false) :
      setAttr (r.dbusValue inet) .invert (fun s v => s.setInvert v.getBoolean) s =
        { s with invert := r.invert } := by
    apply setAttr_written rfl
    · intro hr
      rw [hr]
      rfl
    · intro hr
      rw [(Bool.eq_false_iff.mpr hr).trans h.symm]
  have htos (s : NMIPRoutingRule f) (h : s.tos = 0) :
      setAttr (r.dbusValue inet) .tos (fun s v => s.setTos v.getByte) s =
        { s with tos := r.tos } := by
    exact setAttr_written rfl (fun _ => rfl) fun hr => by
      rw [(not_not.mp hr).trans h.symm]
  have hipproto (s : NMIPRoutingRule f) (h : s.ipproto = 0) :
      setAttr (r.dbusValue inet) .ipproto (fun s v => s.setIpproto v.getByte) s =
        { s with ipproto := r.ipproto } := by
    exact setAttr_written rfl (fun _ => rfl) fun hr => by
      rw [(not_not.mp hr).trans h.symm]
  have hdport (s : NMIPRoutingRule f) (hstart : s.dportStart = 0) (hend : s.dportEnd = 0) :
      setRange (r.dbusValue inet) .dportStart .dportEnd Variant.getUint16 setDestinationPort s =
        { s with dportStart := r.dportStart, dportEnd := r.dportEnd } := by
    exact setRange_written (fun _ => rfl) rfl rfl (fun _ => rfl) fun hr => by
      obtain ⟨hrstart, hrend⟩ := not_or.mp hr
      rw [(not_not.mp hrstart).trans hstart.symm, (not_not.mp hrend).trans hend.symm]
  have hsport (s : NMIPRoutingRule f) (hstart : s.sportStart = 0) (hend : s.sportEnd = 0) :
      setRange (r.dbusValue inet) .sportStart .sportEnd Variant.getUint16 setSourcePort s =
        { s with sportStart := r.sportStart, sportEnd := r.sportEnd } := by
    exact setRange_written (fun _ => rfl) rfl rfl (fun _ => rfl) fun hr => by
      obtain ⟨hrstart, hrend⟩ := not_or.mp hr
      rw [(not_not.mp hrstart).trans hstart.symm, (not_not.mp hrend).trans hend.symm]
  simp only [setAttrsBefore, hpriorityAttr]
  rw [hinvert _ rfl, htos _ rfl, hipproto _ rfl, hdport _ rfl rfl,
    hsport _ rfl rfl]

theorem setUidRangeAttr_dbusValue (hr : r.WellFormed inet) (strict : Bool)
    (s : NMIPRoutingRule f) (hstart : s.uidRangeStart = 0) (hend : s.uidRangeEnd = 0)
    (hhas : s.uidRangeHas = false) :
    setUidRangeAttr (r.dbusValue inet) strict s =
      .ok { s with
        uidRangeStart := r.uidRangeStart
        uidRangeEnd := r.uidRangeEnd
        uidRangeHas := r.uidRangeHas } := by
  refine setRange_written (fun _ => rfl) rfl rfl (fun h => ?_) fun h => ?_
  · have hle := hr.uidRange h
    have hrange : ¬ r.uidRangeEnd < r.uidRangeStart := UInt32.not_lt.mpr hle
    simp only [if_neg hrange, Except.map, setUidRange, h]
  · have hno := Bool.eq_false_iff.mpr h
    obtain ⟨hrstart, hrend⟩ := hr.noUidRange hno
    rw [hno.trans hhas.symm, hrstart.trans hstart.symm, hrend.trans hend.symm]

theorem setAddr_dbusValue {a : RuleAddr f} (hinet : inet.Documented) (hwell : a.WellFormed inet)
    (hvalid : a.IsValid) {addr len : RRDbusAttr} {variants : RRVariants}
    (haddr : variants addr =
      if a.has ∨ a.len ≠ 0 then some (.string (a.text inet)) else none)
    (hlen : variants len = if a.has ∨ a.len ≠ 0 then some (.byte a.len) else none)
    {α : Type} (set : α → Option Bytes → UInt8 → α) (s target : α)
    (hset : a.has → inet.pton f (a.text inet) = some a.bin →
      set s (some (a.text inet)) a.len = target)
    (hskip : a.has = false → s = target) :
    setPair variants addr len (fun v => some v.getString) Variant.getByte none 0 set s =
      target := by
  rcases hvalid with ⟨hzero, hhas⟩ | ⟨-, -, hhas, hvalid⟩
  · have habsent : ¬ (a.has = true ∨ a.len ≠ 0) := by simp [hzero, hhas]
    rw [setPair, haddr, hlen, if_neg habsent, if_neg habsent, if_pos ⟨rfl, rfl⟩]
    exact hskip hhas
  · have hpresent : a.has = true ∨ a.len ≠ 0 := .inl hhas
    have htext : a.text inet = inet.ntop f a.bin := by
      unfold RuleAddr.text
      cases hstr : a.str with
      | none => rfl
      | some str => exact hwell str hstr hvalid
    have hpton : inet.pton f (a.text inet) = some a.bin := by
      rw [htext]
      exact hinet.pton_ntop f a.bin
    rw [setPair, haddr, hlen, if_pos hpresent, if_pos hpresent]
    exact hset hhas hpton

theorem setAttrsAfter_dbusValue (hinet : inet.Documented) (hwell : r.WellFormed inet)
    (hvalid : r.IsValid) (s : NMIPRoutingRule f) (hfwmark : s.fwmark = 0) (hfwmask : s.fwmask = 0)
    (hfrom : s.fromAddr = .new f) (hto : s.toAddr = .new f) (hiifname : s.iifname = none)
    (hoifname : s.oifname = none) (hsuppress : s.suppressPrefixlength = -1) :
    setAttrsAfter inet (r.dbusValue inet) s =
      { s with
        fwmark := r.fwmark
        fwmask := r.fwmask
        fromAddr := r.fromAddr.canonical
        toAddr := r.toAddr.canonical
        iifname := r.iifname
        oifname := r.oifname
        action := r.action
        table := r.table
        suppressPrefixlength := r.suppressPrefixlength } := by
  have hmarks (s : NMIPRoutingRule f) (hmark : s.fwmark = 0) (hmask : s.fwmask = 0) :
      setPair (r.dbusValue inet) .fwmark .fwmask Variant.getUint32 Variant.getUint32 0 0
          setFwmark s =
        { s with fwmark := r.fwmark, fwmask := r.fwmask } := by
    have hvalue {v : UInt32} :
        ((if v ≠ 0 then some (Variant.uint32 v) else none).map Variant.getUint32).getD 0 = v := by
      by_cases hv : v = 0 <;> simp [hv, Variant.getUint32]
    unfold setPair
    split_ifs with hnone
    · have hzero {v : UInt32} (h : (if v ≠ 0 then some (Variant.uint32 v) else none) = none) :
          v = 0 := by
        by_contra hne
        simp [hne] at h
      have hrmark : r.fwmark = 0 := hzero hnone.1
      have hrmask : r.fwmask = 0 := hzero hnone.2
      rw [hrmark.trans hmark.symm, hrmask.trans hmask.symm]
    · simp only [dbusValue, hvalue, setFwmark]
  have hfromAttr (s : NMIPRoutingRule f) (h : s.fromAddr = .new f) :
      setPair (r.dbusValue inet) .fromAddr .fromLen (fun v => some v.getString) Variant.getByte
          none 0 (setFrom inet) s =
        { s with fromAddr := r.fromAddr.canonical } := by
    apply setAddr_dbusValue hinet hwell.fromAddr hvalid.fromAddr rfl rfl
    · intro hhas hpton
      simp only [setFrom, RuleAddr.setStr, hpton, RuleAddr.canonical, if_pos hhas]
    · intro hhas
      simp only [RuleAddr.canonical, hhas, Bool.false_eq_true, if_false, ← h]
  have htoAttr (s : NMIPRoutingRule f) (h : s.toAddr = .new f) :
      setPair (r.dbusValue inet) .toAddr .toLen (fun v => some v.getString) Variant.getByte
          none 0 (setTo inet) s =
        { s with toAddr := r.toAddr.canonical } := by
    apply setAddr_dbusValue hinet hwell.toAddr hvalid.toAddr rfl rfl
    · intro hhas hpton
      simp only [setTo, RuleAddr.setStr, hpton, RuleAddr.canonical, if_pos hhas]
    · intro hhas
      simp only [RuleAddr.canonical, hhas, Bool.false_eq_true, if_false, ← h]
  have hiifnameAttr (s : NMIPRoutingRule f) (h : s.iifname = none) :
      setAttr (r.dbusValue inet) .iifname (fun r v => r.setIifname (some v.getString)) s =
        { s with iifname := r.iifname } := by
    cases hr : r.iifname with
    | none =>
      simp only [setAttr, dbusValue, hr, Option.map_none]
      rw [← h]
    | some name => simp [setAttr, dbusValue, hr, setIifname, Variant.getString]
  have hoifnameAttr (s : NMIPRoutingRule f) (h : s.oifname = none) :
      setAttr (r.dbusValue inet) .oifname (fun r v => r.setOifname (some v.getString)) s =
        { s with oifname := r.oifname } := by
    cases hr : r.oifname with
    | none =>
      simp only [setAttr, dbusValue, hr, Option.map_none]
      rw [← h]
    | some name => simp [setAttr, dbusValue, hr, setOifname, Variant.getString]
  have haction :
      ((r.dbusValue inet .action).map Variant.getByte).getD frActToTbl = r.action := by
    by_cases hr : r.action = frActToTbl <;> simp [dbusValue, hr, Variant.getByte]
  have htable : ((r.dbusValue inet .table).map Variant.getUint32).getD 0 = r.table := by
    by_cases hr : r.table = 0 <;> simp [dbusValue, hr, Variant.getUint32]
  have hsuppressAttr (s : NMIPRoutingRule f) (h : s.suppressPrefixlength = -1) :
      setAttr (r.dbusValue inet) .suppressPrefixlength
          (fun r v => r.setSuppressPrefixlength v.getInt32) s =
        { s with suppressPrefixlength := r.suppressPrefixlength } :=
    setAttr_written rfl (fun _ => rfl) fun hr => by
      rw [(not_not.mp hr).trans h.symm]
  simp only [setAttrsAfter, haction, htable]
  rw [hmarks s hfwmark hfwmask, hfromAttr, htoAttr, hiifnameAttr, hoifnameAttr, hsuppressAttr]
  · rfl
  all_goals assumption

theorem fromDbus_toDbus (hinet : inet.Documented) (hwell : r.WellFormed inet)
    (hvalidate : r.validate = .ok ()) (strict : Bool) :
    fromDbus inet (r.toDbus inet) strict = .ok ⟨f, r.canonical⟩ := by
  have hvalid := isValid_of_validate hvalidate
  have hfamily : familyAttr (r.dbusValue inet) = .ok f := by
    simp [familyAttr, dbusValue, Variant.getInt32, ofNumber_number]
  have hrule : fromDbusAttrs inet (r.dbusValue inet) strict f = .ok r.canonical := by
    have hbefore := @setAttrsBefore_dbusValue _ inet _ hvalid.priority
    have hrange := setUidRangeAttr_dbusValue hwell strict
      (setAttrsBefore (r.dbusValue inet) (.new f))
    have hafter := setAttrsAfter_dbusValue hinet hwell hvalid
    rw [hbefore] at hrange
    have hcanonical : setAttrsAfter inet (r.dbusValue inet)
        { setAttrsBefore (r.dbusValue inet) (.new f) with
          uidRangeStart := r.uidRangeStart
          uidRangeEnd := r.uidRangeEnd
          uidRangeHas := r.uidRangeHas } = r.canonical := by
      rw [hbefore, hafter _ rfl rfl rfl rfl rfl rfl rfl]
      simp only [canonical, ← hvalid.priority]
    rw [hbefore] at hcanonical
    rw [fromDbusAttrs, hbefore, hrange rfl rfl rfl]
    simp only [bind, Except.bind, hcanonical, hvalid.validate_canonical, hvalidate]
    cases strict <;> rfl
  rw [fromDbus, collectAttrs_toDbus]
  simp only [bind, Except.bind, checkTypes_eq_ok (fun attr => isOfType_dbusValue attr), hfamily,
    hrule]
  rfl

end NMIPRoutingRule

end NetworkManager.Settings
