import NetworkManager.GlibAux.AsciiStrToInt64
import NetworkManager.GlibAux.EscapedTokens
import NetworkManager.Settings.RoutingRule

/-!
# Routing rules as text

`nm_ip_routing_rule_to_string()` writes a rule as words, similar to the command line of
`ip rule add`. `nm_ip_routing_rule_from_string()` first collects the values of the keys, and
then sets the properties, where the address family may follow from an address.
-/

namespace NetworkManager.Settings

open Lib GlibAux

/-! ## Names and numbers -/

def rtntypeA2n (name : Bytes) : Option ℕ :=
  if name = ascii "anycast" then some 4
  else if name = ascii "blackhole" then some 6
  else if name = ascii "brd" then some 3
  else if name = ascii "broadcast" then some 3
  else if name = ascii "local" then some 2
  else if name = ascii "multicast" then some 5
  else if name = ascii "nat" then some 10
  else if name = ascii "prohibit" then some 8
  else if name = ascii "throw" then some 9
  else if name = ascii "unicast" then some 1
  else if name = ascii "unreachable" then some 7
  else if name = ascii "xresolve" then some 11
  else (asciiStrToInt64 name 0 0 255).map Int.toNat

def rtntypeN2a (v : UInt8) : Bytes :=
  if v = 0 then ascii "none"
  else if v = 1 then ascii "unicast"
  else if v = 2 then ascii "local"
  else if v = 3 then ascii "broadcast"
  else if v = 4 then ascii "anycast"
  else if v = 5 then ascii "multicast"
  else if v = 6 then ascii "blackhole"
  else if v = 7 then ascii "unreachable"
  else if v = 8 then ascii "prohibit"
  else if v = 9 then ascii "throw"
  else if v = 10 then ascii "nat"
  else if v = 11 then ascii "xresolve"
  else formatUnsigned v.toNat

def wordNumber (word : Bytes) (base : ℕ) (max : ℤ) : Option ℕ :=
  (asciiStrToInt64 word base 0 max).map Int.toNat

def cutAt (c : UInt8) (s : Bytes) : Bytes × Option Bytes :=
  if c ∈ s then (s.takeWhile (· ≠ c), some (s.dropWhile (· ≠ c)).tail) else (s, none)

/-! ## Flags -/

/-- `NMIPRoutingRuleAsStringFlags`, where all bits that are not known are one. -/
structure AsStringFlags where
  afInet : Bool
  afInet6 : Bool
  validate : Bool
  unknown : Bool
  deriving DecidableEq

/-- `_rr_string_validate()`, without extra arguments. -/
def AsStringFlags.check (flags : AsStringFlags) : Except Bytes Unit :=
  require (!flags.unknown) (ascii "Unsupported to-string-flags argument")

def AsStringFlags.family (flags : AsStringFlags) : Option AddrFamily :=
  if flags.afInet then
    if flags.afInet6 then none else some .inet
  else if flags.afInet6 then some .inet6
  else none

/-! ## Writing a rule -/

/-- `nm_str_buf_append_required_delimiter()`, and the text after the delimiter. -/
def appendRequired (buf text : Bytes) : Bytes :=
  if buf = [] then text else buf ++ (' ' : UInt8) :: text

/-- The format `"%s %s"`. -/
def twoWords (key value : Bytes) : Bytes := key ++ (' ' : UInt8) :: value

def escapedTokensEscape (str delimiters : Bytes) : Bytes :=
  escapedTokensEscapeFull str (some delimiters) none ⟨false, false, true, false, true⟩

def prefixText {f : AddrFamily} (inet : Inet) (addr : f.Addr) (len : UInt8) : Bytes :=
  inet.ntop f addr ++
    if len.toNat ≠ f.bits then ascii "/" ++ formatUnsigned len.toNat else []

def AddrFamily.anyText : AddrFamily → Bytes
  | inet => ascii "0.0.0.0/0"
  | inet6 => ascii "::/0"

/-- `_rr_string_append_inet_addr()`, for the address if it is there and valid. -/
def RuleAddr.part {f : AddrFamily} (inet : Inet) (a : RuleAddr f) (key : Bytes)
    (required : Bool) : List Bytes :=
  let len := if a.has ∧ a.valid then a.len else 0
  if len = 0 then
    if required then [twoWords key f.anyText] else []
  else [twoWords key (prefixText inet a.bin len)]

def fwmarkText (fwmark fwmask : UInt32) : Bytes :=
  (if fwmark ≠ 0 then formatHex fwmark.toNat else ascii "0") ++
    if fwmask ≠ 0xFFFFFFFF then
      if fwmask ≠ 0 then ascii "/" ++ formatHex fwmask.toNat else ascii "/0"
    else []

def portRangeText (start «end» : UInt16) : Bytes :=
  formatUnsigned start.toNat ++
    if start ≠ «end» then ascii "-" ++ formatUnsigned «end».toNat else []

def portRangePart (key : Bytes) (start «end» : UInt16) : List Bytes :=
  if start ≠ 0 ∨ «end» ≠ 0 then [twoWords key (portRangeText start «end»)] else []

def ifnamePart (key : Bytes) (ifname : Option Bytes) : List Bytes :=
  match ifname with
  | none => []
  | some ifname => [twoWords key (escapedTokensEscape ifname asciiSpaces)]

namespace NMIPRoutingRule

variable {f : AddrFamily} (inet : Inet) (r : NMIPRoutingRule f)

/-- What is appended, one after the other. -/
def stringParts : List Bytes :=
  (if r.priorityHas then [twoWords (ascii "priority") (formatUnsigned r.priority.toNat)] else []) ++
  (if r.invert then [ascii "not"] else []) ++
  r.fromAddr.part inet (ascii "from") (!r.toAddr.has || !r.toAddr.valid) ++
  r.toAddr.part inet (ascii "to") false ++
  (if r.tos ≠ 0 then [twoWords (ascii "tos") (formatHex2 r.tos.toNat)] else []) ++
  (if r.ipproto ≠ 0 then [twoWords (ascii "ipproto") (formatUnsigned r.ipproto.toNat)] else []) ++
  (if r.fwmark ≠ 0 ∨ r.fwmask ≠ 0 then [twoWords (ascii "fwmark") (fwmarkText r.fwmark r.fwmask)]
    else []) ++
  portRangePart (ascii "sport") r.sportStart r.sportEnd ++
  portRangePart (ascii "dport") r.dportStart r.dportEnd ++
  ifnamePart (ascii "iif") r.iifname ++
  ifnamePart (ascii "oif") r.oifname ++
  (if r.uidRangeHas then
    [twoWords (ascii "uidrange") (formatUnsigned r.uidRangeStart.toNat ++ ascii "-" ++
      formatUnsigned r.uidRangeEnd.toNat)] else []) ++
  (if r.suppressPrefixlength ≠ -1 then
    [twoWords (ascii "suppress_prefixlength") (formatSigned r.suppressPrefixlength.toInt)]
    else []) ++
  (if r.table ≠ 0 ∨ r.action = frActToTbl then
    [twoWords (ascii "table") (formatUnsigned r.table.toNat)] else []) ++
  (if r.action ≠ frActToTbl then [twoWords (ascii "type") (rtntypeN2a r.action)] else [])

/-- The check that is only made if the flags ask for it. -/
def validateFlags (flags : AsStringFlags) : Except Bytes Unit :=
  if flags.validate then
    match r.validate with
    | .error message => .error (ascii "rule is invalid: " ++ message)
    | .ok () => .ok ()
  else .ok ()

def toString (flags : AsStringFlags) : Except Bytes Bytes := do
  flags.check
  require (flags.family ∈ [none, some f]) (ascii "invalid address family")
  r.validateFlags flags
  return (r.stringParts inet).foldl appendRequired []

end NMIPRoutingRule

/-! ## Collecting the words -/

/-- What was found for the keys. -/
structure RuleWords where
  wordFrom : Option Bytes
  wordTo : Option Bytes
  wordIifname : Option Bytes
  wordOifname : Option Bytes
  priority : Option ℕ
  table : Option ℕ
  tos : Option ℕ
  ipproto : Option ℕ
  fwmark : Option (ℕ × ℕ)
  sport : Option (ℕ × ℕ)
  dport : Option (ℕ × ℕ)
  suppressPrefixlength : Option ℕ
  uidRange : Option (ℕ × ℕ)
  action : Option ℕ
  invert : Bool
  deriving DecidableEq

def RuleWords.empty : RuleWords :=
  ⟨none, none, none, none, none, none, none, none, none, none, none, none, none, none, false⟩

/-- The keys that have a value. -/
inductive RuleKey
  | fromAddr
  | toAddr
  | priority
  | table
  | tos
  | ipproto
  | sport
  | dport
  | fwmark
  | iifname
  | oifname
  | suppressPrefixlength
  | uidRange
  | action
  deriving DecidableEq

def ruleKey (word0 : Bytes) : Option RuleKey :=
  if word0 = ascii "from" then some .fromAddr
  else if word0 = ascii "to" then some .toAddr
  else if word0 ∈ [ascii "priority", ascii "order", ascii "pref", ascii "preference"] then
    some .priority
  else if word0 ∈ [ascii "table", ascii "lookup"] then some .table
  else if word0 ∈ [ascii "tos", ascii "dsfield"] then some .tos
  else if word0 = ascii "ipproto" then some .ipproto
  else if word0 = ascii "sport" then some .sport
  else if word0 = ascii "dport" then some .dport
  else if word0 = ascii "fwmark" then some .fwmark
  else if word0 ∈ [ascii "iif", ascii "dev"] then some .iifname
  else if word0 = ascii "oif" then some .oifname
  else if word0 ∈ [ascii "suppress_prefixlength", ascii "sup_pl"] then some .suppressPrefixlength
  else if word0 = ascii "uidrange" then some .uidRange
  else if word0 = ascii "type" then some .action
  else none

/-- The value of "table", which may be a name. -/
def parseTable (word1 : Bytes) : Option ℕ :=
  match wordNumber word1 0 0xFFFFFFFF with
  | some table => some table
  | none =>
    if word1 = ascii "main" then some rtTableMain.toNat
    else if word1 = ascii "local" then some rtTableLocal.toNat
    else if word1 = ascii "default" then some rtTableDefault.toNat
    else none

def xportRangeParse (str : Bytes) : Option (ℕ × ℕ) := do
  let start ← wordNumber (cutAt '-' str).1 10 0xFFFF
  match (cutAt '-' str).2 with
  | none => return (start, start)
  | some s => return (start, ← wordNumber s 10 0xFFFF)

/-- The value of "fwmark". -/
def parseFwmark (word1 : Bytes) : Option (ℕ × ℕ) := do
  let fwmark ← wordNumber (cutAt '/' word1).1 0 0xFFFFFFFF
  match (cutAt '/' word1).2 with
  | none => return (fwmark, 0xFFFFFFFF)
  | some s => return (fwmark, ← wordNumber s 0 0xFFFFFFFF)

/-- The value of "uidrange". -/
def parseUidRange (word1 : Bytes) : Option (ℕ × ℕ) := do
  let start ← wordNumber (cutAt '-' word1).1 0 0xFFFFFFFF
  match (cutAt '-' word1).2 with
  | none => return (start, start)
  | some s =>
    let «end» ← wordNumber s 0 0xFFFFFFFF
    if «end» < start then none else return (start, «end»)

def takeOnce {α : Type} (word0 : Bytes) (old new : Option α) : Except Bytes (Option α) :=
  if old.isSome then .error (ascii "duplicate key \"" ++ word0 ++ ascii "\"")
  else if new.isNone then .error (ascii "invalid value for \"" ++ word0 ++ ascii "\"")
  else .ok new

/-- Take a key with its value. -/
def RuleWords.take (w : RuleWords) (key : RuleKey) (word0 word1 : Bytes) :
    Except Bytes RuleWords :=
  match key with
  | .fromAddr => (takeOnce word0 w.wordFrom (some word1)).map fun v => { w with wordFrom := v }
  | .toAddr => (takeOnce word0 w.wordTo (some word1)).map fun v => { w with wordTo := v }
  | .priority =>
    (takeOnce word0 w.priority (wordNumber word1 0 0xFFFFFFFF)).map fun v =>
      { w with priority := v }
  | .table => (takeOnce word0 w.table (parseTable word1)).map fun v => { w with table := v }
  | .tos => (takeOnce word0 w.tos (wordNumber word1 16 0xFF)).map fun v => { w with tos := v }
  | .ipproto =>
    (takeOnce word0 w.ipproto (wordNumber word1 10 0xFF)).map fun v => { w with ipproto := v }
  | .sport => (takeOnce word0 w.sport (xportRangeParse word1)).map fun v => { w with sport := v }
  | .dport => (takeOnce word0 w.dport (xportRangeParse word1)).map fun v => { w with dport := v }
  | .fwmark => (takeOnce word0 w.fwmark (parseFwmark word1)).map fun v => { w with fwmark := v }
  | .iifname =>
    (takeOnce word0 w.wordIifname (some word1)).map fun v => { w with wordIifname := v }
  | .oifname =>
    (takeOnce word0 w.wordOifname (some word1)).map fun v => { w with wordOifname := v }
  | .suppressPrefixlength =>
    (takeOnce word0 w.suppressPrefixlength (wordNumber word1 0 0x7FFFFFFF)).map fun v =>
      { w with suppressPrefixlength := v }
  | .uidRange =>
    (takeOnce word0 w.uidRange (parseUidRange word1)).map fun v => { w with uidRange := v }
  | .action => (takeOnce word0 w.action (rtntypeA2n word1)).map fun v => { w with action := v }

/-- The loop over the words. -/
def RuleWords.collect (w : RuleWords) : List Bytes → Except Bytes RuleWords
  | [] => .ok w
  | word0 :: words =>
    if word0 = ascii "not" then collect { w with invert := true } words
    else
      match ruleKey word0 with
      | some key =>
        match words with
        | [] => .error (ascii "missing argument for \"" ++ word0 ++ ascii "\"")
        | word1 :: words =>
          match w.take key word0 word1 with
          | .error message => .error message
          | .ok w => collect w words
      | none =>
        match if w.action = none then rtntypeA2n word0 else none with
        | some action => collect { w with action := some action } words
        | none => .error (ascii "unsupported key \"" ++ word0 ++ ascii "\"")

/-! ## The rule of the words -/

def addrWord (word : Option Bytes) : Option Bytes := if word = some (ascii "all") then none else word

def detectFamily (text : Bytes) : AddrFamily := if (':' : UInt8) ∈ text then .inet6 else .inet

section FromString

variable {f : AddrFamily} (inet : Inet)

def parseWithPrefixBin (f : AddrFamily) (text : Bytes) : Option (f.Addr × Option ℕ) := do
  let addr ← inet.pton f (cutAt '/' text).1
  match (cutAt '/' text).2 with
  | none => return (addr, none)
  | some s => return (addr, some (← wordNumber s 10 f.bits))

/-- The address and the prefix length of "from" or "to". -/
def parseAddrWord (f : AddrFamily) (key : Bytes) (word : Option Bytes) :
    Except Bytes (Option (f.Addr × ℕ)) :=
  match addrWord word with
  | none => .ok none
  | some text =>
    match parseWithPrefixBin inet f text with
    | none => .error (ascii "invalid \"" ++ key ++ ascii "\" part")
    | some (addr, len) => .ok (some (addr, len.getD f.bits))

def RuleAddr.setParsed (a : RuleAddr f) : Option (f.Addr × ℕ) → RuleAddr f
  | none => a
  | some (addr, len) =>
    if len > 0 ∨ addr ≠ 0 then a.setBin (some addr) (UInt8.ofNat len) else a

def NMIPRoutingRule.setFromParsed (r : NMIPRoutingRule f) (val : Option (f.Addr × ℕ)) :
    NMIPRoutingRule f :=
  { r with fromAddr := r.fromAddr.setParsed val }

def NMIPRoutingRule.setToParsed (r : NMIPRoutingRule f) (val : Option (f.Addr × ℕ)) :
    NMIPRoutingRule f :=
  { r with toAddr := r.toAddr.setParsed val }

def setWord {α β : Type} (word : Option β) (set : α → β → α) (r : α) : α :=
  match word with
  | none => r
  | some b => set r b

/-- The default of the table depends on whether there is an action. -/
def RuleWords.tableDefault (w : RuleWords) : Option ℕ :=
  match w.table, w.action with
  | some table, _ => some table
  | none, some action => some (if action ≠ frActToTbl.toNat then 0 else rtTableMain.toNat)
  | none, none => none

/-- Set all properties. -/
def RuleWords.fill (w : RuleWords) (valFrom valTo : Option (f.Addr × ℕ)) : NMIPRoutingRule f :=
  let r := if w.invert then (NMIPRoutingRule.new f).setInvert true else .new f
  let r := setWord w.priority (fun r v => r.setPriority v) r
  let r := setWord w.action (fun r v => r.setAction (UInt8.ofNat v)) r
  let r := setWord w.tos (fun r v => r.setTos (UInt8.ofNat v)) r
  let r := setWord w.ipproto (fun r v => r.setIpproto (UInt8.ofNat v)) r
  let r := setWord w.fwmark
    (fun r v => r.setFwmark (UInt32.ofNat v.1) (UInt32.ofNat v.2)) r
  let r := setWord w.sport
    (fun r v => r.setSourcePort (UInt16.ofNat v.1) (UInt16.ofNat v.2)) r
  let r := setWord w.dport
    (fun r v => r.setDestinationPort (UInt16.ofNat v.1) (UInt16.ofNat v.2)) r
  let r := setWord w.suppressPrefixlength
    (fun r v => r.setSuppressPrefixlength (Int32.ofNat v)) r
  let r := r.setFromParsed valFrom
  let r := r.setToParsed valTo
  let r := setWord w.wordIifname (fun r v => r.setIifname (some v)) r
  let r := setWord w.wordOifname (fun r v => r.setOifname (some v)) r
  let r := setWord w.tableDefault (fun r v => r.setTable (UInt32.ofNat v)) r
  setWord w.uidRange (fun r v => r.setUidRange (UInt32.ofNat v.1) (UInt32.ofNat v.2)) r

def RuleWords.family (w : RuleWords) (flags : AsStringFlags) : Option AddrFamily :=
  flags.family.or ((addrWord w.wordFrom).or (addrWord w.wordTo) |>.map detectFamily)

/-- The rule, once the address family is known. -/
def RuleWords.rule (w : RuleWords) (flags : AsStringFlags) (f : AddrFamily) :
    Except Bytes (NMIPRoutingRule f) := do
  let valFrom ← parseAddrWord inet f (ascii "from") w.wordFrom
  let valTo ← parseAddrWord inet f (ascii "to") w.wordTo
  let r := w.fill valFrom valTo
  r.validateFlags flags
  return r

def NMIPRoutingRule.fromString (str : Bytes) (flags : AsStringFlags) :
    Except Bytes (Σ f, NMIPRoutingRule f) := do
  flags.check
  let tokens := (escapedTokensSplit str asciiSpaces).getD []
  let w ← RuleWords.empty.collect tokens
  require (tokens ≠ []) (ascii "empty text does not describe a rule")
  match w.family flags with
  | none => .error (ascii "cannot detect address family for rule")
  | some f =>
    let r ← w.rule inet flags f
    return ⟨f, r⟩

end FromString

end NetworkManager.Settings
