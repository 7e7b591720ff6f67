import Mathlib.Data.List.TakeWhile
import NetworkManager.Core.DhcpRoutesAgree
import NetworkManager.Lib.Words

/-!
# The routes of a lease as strings

`nm_dhcp_utils_ip4_config_from_options()` gets the options of a lease as strings, and whatever a
server or a client put there reaches the numbers of a route. A prefix length behind a slash is read
with `strtol()` into an `int`.
-/

namespace NetworkManager.Core

open Lib GlibAux Platform List

/-- The options that routes are read from. -/
inductive DhcpRoutesOption
  | classlessStaticRoutes
  | rfc3442ClasslessStaticRoutes
  | msClasslessStaticRoutes
  | staticRoutes
  deriving DecidableEq

section Options

variable (options : DhcpRoutesOption → Option Bytes) (address : BitVec 32)

/-- The option that `ip4_process_classless_routes()` takes. -/
def classlessRoutesStr : Option Bytes :=
  (options .classlessStaticRoutes).or
    ((options .rfc3442ClasslessStaticRoutes).or (options .msClasslessStaticRoutes))

def isRoutesChar (c : UInt8) : Bool := isDigit c || c = ' ' || c = '.' || c = '/'

def ip4ProcessClasslessRoutes : ClasslessRoutes :=
  match classlessRoutesStr options with
  | none => ⟨[], 0, false⟩
  | some str =>
    if str = [] then ⟨[], 0, false⟩
    else if ¬ str.all isRoutesChar then ⟨[], 0, false⟩
    else if ('/' : UInt8) ∈ str then ip4ProcessDhcpcdRfc3442Routes str address 0
    else ip4ProcessDhclientRfc3442Routes str address 0

def ip4AddrGetDefaultPrefix (ip : BitVec 32) : ℕ :=
  if ip4AddrGetDefaultPrefix0 ip ≠ 0 then ip4AddrGetDefaultPrefix0 ip else 24

def classfulPlen (addr : BitVec 32) : ℕ :=
  let plen := ip4AddrGetDefaultPrefix addr
  if addr &&& ~~~(ip4AddrNetmaskFromPrefix plen) ≠ 0 then 32 else plen

/-- A pair of a destination and a gateway in the old option. -/
def classfulPair (routes : List PlatformIp4Route) (dest gateway : Bytes) :
    List PlatformIp4Route :=
  match inetPton dest, inetPton gateway with
  | some addr, some route =>
    let plen := classfulPlen addr
    routes ++ [dhcpRoute (ip4AddrClearHostAddress addr plen) plen route address 0]
  | _, _ => routes

def classfulLoop : List Bytes → List PlatformIp4Route → List PlatformIp4Route
  | dest :: gateway :: searches, routes =>
    classfulLoop searches (classfulPair address routes dest gateway)
  | _, routes => routes

def processClassfulRoutes : List PlatformIp4Route :=
  match options .staticRoutes with
  | none => []
  | some str =>
    let searches := strsplitSet str [' ']
    if searches.length % 2 ≠ 0 then [] else classfulLoop address searches []

/-- The routes that `nm_dhcp_utils_ip4_config_from_options()` adds from these options. A router is
added from another option, where there is no gateway here. -/
def routesFromOptions : List PlatformIp4Route :=
  let classless := ip4ProcessClasslessRoutes options address
  let routes := classless.routes ++
    if classless.haveRoutes then [] else processClassfulRoutes options address
  if classless.gwaddr ≠ 0 then routes ++ [dhcpRoute 0 0 classless.gwaddr address 0] else routes

end Options

/-! ## What is written in an option -/

/-- A text is a decimal number. -/
def IsNumber (text : Bytes) (n : ℕ) : Prop :=
  text ≠ [] ∧ (∀ c ∈ text, isDigit c) ∧ asciiDigitsValue 10 text = n

def tokenPairs : List Bytes → List (Bytes × Bytes)
  | dest :: gateway :: tokens => (dest, gateway) :: tokenPairs tokens
  | _ => []

def destAddr (dest : Bytes) : Bytes := dest.takeWhile fun c : UInt8 => c ≠ '/'

def destSuffix (dest : Bytes) : Bytes := dest.dropWhile fun c : UInt8 => c ≠ '/'

/-- A destination has a prefix length. One without a slash is a host. -/
def PlenWritten (dest : Bytes) (plen : ℕ) : Prop :=
  (destSuffix dest = [] ∧ plen = 32) ∨ IsNumber ((destSuffix dest).drop 1) plen

/-- Destination, prefix length and gateway are written in one pair. -/
def WrittenDhcpcd (str : Bytes) (r : PlatformIp4Route) : Prop :=
  ∃ pair ∈ tokenPairs (strsplitSet str [' ']), PlenWritten pair.1 r.plen ∧
    inetPton pair.2 = some r.gateway ∧
    ∃ addr, inetPton (destAddr pair.1) = some addr ∧
      r.network = ip4AddrClearHostAddress addr r.plen

/-- The prefix length, the significant octets of the destination and the gateway are written one
after the other. -/
def WrittenDhclient (str : Bytes) (r : PlatformIp4Route) : Prop :=
  ∃ token octets gateway, (token :: (octets ++ gateway)) <:+: strsplitSetWithEmpty str [' ', '.'] ∧
    IsNumber token r.plen ∧ octets.length = significantOctets r.plen ∧ gateway.length = 4 ∧
    inetPton (strjoinDot (gateway.getD 0 []) (gateway.getD 1 []) (gateway.getD 2 [])
      (gateway.getD 3 [])) = some r.gateway ∧
    ∃ addr, inetPton (strjoinDot (octets.getD 0 ['0']) (octets.getD 1 ['0'])
      (octets.getD 2 ['0']) (octets.getD 3 ['0'])) = some addr ∧
      r.network = ip4AddrClearHostAddress addr r.plen

/-- Destination and gateway are written in one pair, and the prefix length is that of the class. -/
def WrittenClassful (str : Bytes) (r : PlatformIp4Route) : Prop :=
  ∃ pair ∈ tokenPairs (strsplitSet str [' ']), inetPton pair.2 = some r.gateway ∧
    ∃ addr, inetPton pair.1 = some addr ∧ r.plen = classfulPlen addr ∧
      r.network = ip4AddrClearHostAddress addr r.plen

/-- A route is valid, and written in a way. -/
structure ValidRoute (written : PlatformIp4Route → Prop) (r : PlatformIp4Route) : Prop where
  plen_le : r.plen ≤ 32
  network : ip4AddrClearHostAddress r.network r.plen = r.network
  written : written r

section Sound

variable (options : DhcpRoutesOption → Option Bytes) (address : BitVec 32)

/-- A route is written in one of the options. -/
def WrittenInOptions (r : PlatformIp4Route) : Prop :=
  (∃ str, classlessRoutesStr options = some str ∧
    (if ('/' : UInt8) ∈ str then WrittenDhcpcd str r else WrittenDhclient str r)) ∨
  ∃ str, options .staticRoutes = some str ∧ WrittenClassful str r

/-- The pairs that `ip4_process_dhcpcd_rfc3442_routes()` goes through. -/
def dhcpcdPairs : List (Bytes × Bytes) :=
  match classlessRoutesStr options with
  | none => []
  | some str =>
    if str.all isRoutesChar ∧ ('/' : UInt8) ∈ str ∧ (strsplitSet str [' ']).length % 2 = 0 then
      tokenPairs (strsplitSet str [' '])
    else []

/-- What is promised of the routes that are added. -/
structure RoutesSound : Prop where
  routes : ∀ r ∈ routesFromOptions options address, ValidRoute (WrittenInOptions options) r
  /-- A prefix length that is not a number up to 32 adds nothing. -/
  skipped : ∀ pair ∈ dhcpcdPairs options, destSuffix pair.1 ≠ [] →
    (¬ ∃ n ≤ 32, IsNumber ((destSuffix pair.1).drop 1) n) →
      ∀ s, dhcpcdPair address s pair.1 pair.2 = s

def leadingNumber (text : Bytes) : ℕ := asciiDigitsValue 10 (text.takeWhile isDigit)

/-- A prefix length behind a slash is a number up to 32, or starts with a number that is out of the
range of a `long`, or that is too large as an `int`. -/
def PlenInReach (text : Bytes) : Prop :=
  (∃ n ≤ 32, IsNumber text n) ∨
    2 ^ 63 ≤ leadingNumber text ∨ 32 < (BitVec.ofNat 32 (leadingNumber text)).toInt

/-- Every prefix length is in reach, where the addresses are valid. -/
def PlensInReach : Prop :=
  ∀ pair ∈ dhcpcdPairs options, destSuffix pair.1 ≠ [] → inetPton (destAddr pair.1) ≠ none →
    inetPton pair.2 ≠ none → PlenInReach ((destSuffix pair.1).drop 1)

end Sound

/-! ## Strings and numbers -/

theorem tokenPairs_mem {tokens : List Bytes} {pair : Bytes × Bytes}
    (h : pair ∈ tokenPairs tokens) : pair.1 ∈ tokens ∧ pair.2 ∈ tokens := by
  fun_induction tokenPairs tokens with
  | case1 dest gateway tokens ih =>
    rcases mem_cons.mp h with rfl | h
    · simp
    · obtain ⟨hdest, hgateway⟩ := ih h
      exact ⟨by simp [hdest], by simp [hgateway]⟩
  | case2 => cases h

theorem mem_of_mem_strsplitSet {str token : Bytes} {c : UInt8}
    (h : token ∈ strsplitSet str [' ']) (hc : c ∈ token) : c ∈ str ∧ c ≠ ' ' := by
  have hmem := mem_of_mem_filter h
  unfold strsplitSetWithEmpty at hmem
  split_ifs at hmem
  · cases hmem
  · obtain ⟨hstr, hsep⟩ := mem_of_mem_splitOnP hmem c hc
    exact ⟨hstr, by simpa using hsep⟩

/-- What is left of the characters of an option, without a blank. -/
def IsTokenChar (c : UInt8) : Prop := isDigit c ∨ c = '.' ∨ c = '/'

instance (c : UInt8) : Decidable (IsTokenChar c) := inferInstanceAs (Decidable (_ ∨ _ ∨ _))

theorem IsTokenChar.plain : ∀ {c : UInt8}, IsTokenChar c →
    ¬ isSpace c ∧ c ≠ 11 ∧ c ≠ '-' ∧ c ≠ '+' := by
  decide

theorem isAsciiDigitOf_ten : isAsciiDigitOf 10 = isDigit := by
  have hdigit : ∀ c, isAsciiDigitOf 10 c = isDigit c := by decide
  exact funext hdigit

variable {text : Bytes}

/-- A text without signs is read up to its first character that is no digit. -/
theorem parseLongLong_text (h : ∀ c ∈ text, IsTokenChar c) :
    parseLongLong 10 text =
      if text.takeWhile isDigit = [] then none
      else some (false, leadingNumber text, text.dropWhile isDigit) := by
  rw [parseLongLong_unsigned fun c hc => (h c (mem_of_mem_head? hc)).plain, strtollBase_ten]
  simp only [isAsciiDigitOf_ten, leadingNumber]

theorem strtol_unsigned (h : ∀ c ∈ text, IsTokenChar c) :
    strtol text = if 2 ^ 63 ≤ leadingNumber text then none else some (leadingNumber text : ℤ) := by
  rw [strtol, asciiStrtoll, parseLongLong_text h]
  by_cases hnil : text.takeWhile isDigit = []
  · have hzero : leadingNumber text = 0 := by rw [leadingNumber, hnil]; rfl
    simp [hnil, hzero]
  · by_cases hlarge : 2 ^ 63 ≤ leadingNumber text
    · simp only [if_neg hnil, reduceCtorEq, if_false, if_pos hlarge, if_neg (Nat.not_lt.mpr hlarge)]
      rfl
    · simp only [if_neg hnil, reduceCtorEq, if_false, if_neg hlarge, if_pos (Nat.not_le.mp hlarge)]
      rfl

theorem dhcpcdCidr_suffix {suffix : Bytes} (hne : suffix ≠ [])
    (h : ∀ c ∈ suffix.drop 1, IsTokenChar c) :
    dhcpcdCidr suffix =
      if 2 ^ 63 ≤ leadingNumber (suffix.drop 1) ∨
          32 < (BitVec.ofNat 32 (leadingNumber (suffix.drop 1))).toInt then none
      else some (BitVec.ofNat 32 (leadingNumber (suffix.drop 1))).toInt := by
  unfold dhcpcdCidr
  rw [if_neg hne, strtol_unsigned h]
  by_cases hlarge : 2 ^ 63 ≤ leadingNumber (suffix.drop 1)
  · simp only [if_pos hlarge, if_pos (Or.inl hlarge)]
  · simp only [hlarge, if_false, BitVec.ofInt_natCast, false_or, gt_iff_lt]

theorem leadingNumber_of_isNumber {n : ℕ} (h : IsNumber text n) : leadingNumber text = n := by
  obtain ⟨-, hdigits, hvalue⟩ := h
  rw [leadingNumber, takeWhile_eq_self_iff.mpr hdigits, hvalue]

theorem isNumber_of_asciiStrToInt64 {n : ℤ} (h : ∀ c ∈ text, isDigit c)
    (hread : asciiStrToInt64 text 10 0 32 = some n) : IsNumber text n.toNat ∧ n.toNat ≤ 32 := by
  have hrange := asciiStrToInt64_range hread
  have hskip : skipSpaces text = text := skipSpaces_of_head fun c hc =>
    (IsTokenChar.plain (.inl (h c (mem_of_mem_head? hc)))).1
  have hall : text.takeWhile isDigit = text := takeWhile_eq_self_iff.mpr h
  rw [asciiStrToInt64, hskip, asciiStrtoll, parseLongLong_text fun c hc => .inl (h c hc), hall,
    leadingNumber, hall] at hread
  by_cases hnil : text = []
  · simp [hnil] at hread
  by_cases hlarge : asciiDigitsValue 10 text < 2 ^ 63
  · simp only [if_neg hnil, if_pos hlarge] at hread
    split_ifs at hread
    obtain rfl := Option.some.inj hread
    exact ⟨⟨hnil, h, rfl⟩, by omega⟩
  · simp only [if_neg hnil, if_neg hlarge, reduceCtorEq] at hread

/-! ## The pairs of a destination and a gateway -/

@[simp] theorem dhcpRoute_network (network : BitVec 32) (plen : ℕ) (gateway prefSrc : BitVec 32)
    (metric : ℕ) : (dhcpRoute network plen gateway prefSrc metric).network = network := rfl

@[simp] theorem dhcpRoute_plen (network : BitVec 32) (plen : ℕ) (gateway prefSrc : BitVec 32)
    (metric : ℕ) : (dhcpRoute network plen gateway prefSrc metric).plen = plen := rfl

@[simp] theorem dhcpRoute_gateway (network : BitVec 32) (plen : ℕ) (gateway prefSrc : BitVec 32)
    (metric : ℕ) : (dhcpRoute network plen gateway prefSrc metric).gateway = gateway := rfl

section Pairs

variable {str : Bytes} {pair : Bytes × Bytes} {address : BitVec 32} {plen : ℕ}

section

variable (hchars : str.all isRoutesChar) (hpair : pair ∈ tokenPairs (strsplitSet str [' ']))

include hchars hpair

theorem suffix_tokenChars : ∀ c ∈ (destSuffix pair.1).drop 1, IsTokenChar c := by
  intro c hc
  have hmem : c ∈ pair.1 := (dropWhile_sublist _).subset (mem_of_mem_drop hc)
  obtain ⟨hstr, hblank⟩ := mem_of_mem_strsplitSet (tokenPairs_mem hpair).1 hmem
  have hroutes := all_eq_true.mp hchars c hstr
  simpa [isRoutesChar, IsTokenChar, hblank, or_assoc] using hroutes

theorem dhcpcdCidr_of_plenWritten (hplen : plen ≤ 32) (h : PlenWritten pair.1 plen)
    : dhcpcdCidr (destSuffix pair.1) = some (plen : ℤ) := by
  rcases h with ⟨hnil, rfl⟩ | hnumber
  · rw [hnil]
    rfl
  · have hne : destSuffix pair.1 ≠ [] := by
      intro hnil
      rw [hnil] at hnumber
      exact hnumber.1 rfl
    have hint : ∀ n : ℕ, n ≤ 32 → (BitVec.ofNat 32 n).toInt = (n : ℤ) := by decide +kernel
    rw [dhcpcdCidr_suffix hne (suffix_tokenChars hchars hpair), leadingNumber_of_isNumber hnumber,
      hint plen hplen, if_neg (by omega)]

theorem dhcpcdPair_of_plenWritten (hplen : plen ≤ 32) (h : PlenWritten pair.1 plen)
    {addr route : BitVec 32} (haddr : inetPton (destAddr pair.1) = some addr)
    (hroute : inetPton pair.2 = some route) (s : ClasslessRoutes) :
    dhcpcdPair address s pair.1 pair.2 =
      if plen = 0 ∧ addr = 0 then { s with haveRoutes := true, gwaddr := route }
      else
        { s with
          haveRoutes := true
          routes := s.routes ++
            [dhcpRoute (ip4AddrClearHostAddress addr plen) plen route address 0] } := by
  have hnat : ∀ n : ℕ, n ≤ 32 → (BitVec.ofInt 32 (n : ℤ)).toNat = n := by decide +kernel
  have hcidr := dhcpcdCidr_of_plenWritten hchars hpair hplen h
  rw [destSuffix] at hcidr
  rw [destAddr] at haddr
  unfold dhcpcdPair
  rw [hcidr, haddr, hroute]
  simp only [hnat plen hplen, Int.natCast_eq_zero, Nat.mod_eq_of_lt (by omega : plen < 2 ^ 8)]

end

theorem dhcpcdPair_of_none
    (h : inetPton (destAddr pair.1) = none ∨ inetPton pair.2 = none ∨
      dhcpcdCidr (destSuffix pair.1) = none) (s : ClasslessRoutes) :
    dhcpcdPair address s pair.1 pair.2 = s := by
  rw [destAddr, destSuffix] at h
  unfold dhcpcdPair
  rcases h with h | h | h
  · rw [h]
    split <;> rfl
  · rw [h]
    split
    · rfl
    · split
      · simp_all
      · rfl
  · rw [h]

end Pairs

/-! ## The three formats -/

/-- What the loops keep: all routes are valid, with the one to the gateway. -/
structure ValidRoutes (written : PlatformIp4Route → Prop) (address : BitVec 32)
    (s : ClasslessRoutes) : Prop where
  routes : ∀ r ∈ s.routes, ValidRoute written r
  gateway : s.gwaddr ≠ 0 → ValidRoute written (dhcpRoute 0 0 s.gwaddr address 0)

theorem validRoutes_nil (written : PlatformIp4Route → Prop) (address : BitVec 32) :
    ValidRoutes written address ⟨[], 0, false⟩ :=
  ⟨by simp, fun h => absurd rfl h⟩

section ValidRoutes

variable {written : PlatformIp4Route → Prop} {address : BitVec 32} {s : ClasslessRoutes}

theorem ValidRoutes.append (h : ValidRoutes written address s) {r : PlatformIp4Route}
    (hr : ValidRoute written r) :
    ValidRoutes written address { s with haveRoutes := true, routes := s.routes ++ [r] } := by
  refine ⟨fun r' hr' => ?_, h.gateway⟩
  rcases mem_append.mp hr' with hr' | hr'
  · exact h.routes r' hr'
  · obtain rfl := mem_singleton.mp hr'
    exact hr

theorem ValidRoutes.setGateway (h : ValidRoutes written address s) {gateway : BitVec 32}
    (hr : ValidRoute written (dhcpRoute 0 0 gateway address 0)) :
    ValidRoutes written address { s with haveRoutes := true, gwaddr := gateway } :=
  ⟨h.routes, fun _ => hr⟩

end ValidRoutes

theorem dhcpcdLoop_eq_foldl (address : BitVec 32) (tokens : List Bytes)
    (s : ClasslessRoutes) :
    dhcpcdLoop address tokens s =
      (tokenPairs tokens).foldl (fun s pair => dhcpcdPair address s pair.1 pair.2) s := by
  fun_induction dhcpcdLoop address tokens s with
  | case1 s dest gateway tokens ih => exact ih
  | case2 tokens s hshort =>
    match tokens with
    | [] | [_] => rfl
    | dest :: gateway :: tokens => exact absurd rfl (hshort dest gateway tokens)

theorem dhcpcdPair_cases {str : Bytes} {pair : Bytes × Bytes}
    (hchars : str.all isRoutesChar) (hpair : pair ∈ tokenPairs (strsplitSet str [' ']))
    (hreach : destSuffix pair.1 ≠ [] → inetPton (destAddr pair.1) ≠ none → inetPton pair.2 ≠ none →
      PlenInReach ((destSuffix pair.1).drop 1)) :
    (∃ plen ≤ 32, PlenWritten pair.1 plen ∧ ∃ addr route,
      inetPton (destAddr pair.1) = some addr ∧ inetPton pair.2 = some route) ∨
      inetPton (destAddr pair.1) = none ∨ inetPton pair.2 = none ∨
        dhcpcdCidr (destSuffix pair.1) = none := by
  cases haddr : inetPton (destAddr pair.1) with
  | none => exact .inr (.inl rfl)
  | some addr =>
    cases hroute : inetPton pair.2 with
    | none => exact .inr (.inr (.inl rfl))
    | some route =>
      by_cases hnil : destSuffix pair.1 = []
      · exact .inl ⟨32, Nat.le_refl _, .inl ⟨hnil, rfl⟩, addr, route, rfl, rfl⟩
      · rcases hreach hnil (by simp [haddr]) (by simp [hroute]) with ⟨n, hn, hnumber⟩ | hlarge
        · exact .inl ⟨n, hn, .inr hnumber, addr, route, rfl, rfl⟩
        · refine .inr (.inr (.inr ?_))
          rw [dhcpcdCidr_suffix hnil (suffix_tokenChars hchars hpair), if_pos hlarge]

theorem dhcpcdPair_validRoutes {str : Bytes} {pair : Bytes × Bytes}
    {address : BitVec 32} {s : ClasslessRoutes} (hchars : str.all isRoutesChar)
    (hpair : pair ∈ tokenPairs (strsplitSet str [' ']))
    (hreach : destSuffix pair.1 ≠ [] → inetPton (destAddr pair.1) ≠ none → inetPton pair.2 ≠ none →
      PlenInReach ((destSuffix pair.1).drop 1))
    (h : ValidRoutes (WrittenDhcpcd str) address s) :
    ValidRoutes (WrittenDhcpcd str) address (dhcpcdPair address s pair.1 pair.2) := by
  rcases dhcpcdPair_cases hchars hpair hreach with
    ⟨plen, hplen, hwritten, addr, route, haddr, hroute⟩ | hnone
  · rw [dhcpcdPair_of_plenWritten hchars hpair hplen hwritten haddr hroute]
    have hvalid : ValidRoute (WrittenDhcpcd str)
        (dhcpRoute (ip4AddrClearHostAddress addr plen) plen route address 0) :=
      ⟨hplen, ip4AddrClearHostAddress_idem addr plen, pair, hpair, hwritten, hroute, addr, haddr,
        rfl⟩
    split_ifs with hzero
    · obtain ⟨rfl, rfl⟩ := hzero
      have hclear : ip4AddrClearHostAddress 0 0 = 0 := by decide
      rw [hclear] at hvalid
      exact h.setGateway hvalid
    · exact h.append hvalid
  · rw [dhcpcdPair_of_none hnone]
    exact h

theorem dhcpcd_validRoutes {options : DhcpRoutesOption → Option Bytes} {str : Bytes}
    (address : BitVec 32) (hstr : classlessRoutesStr options = some str)
    (hchars : str.all isRoutesChar) (hslash : ('/' : UInt8) ∈ str) (hreach : PlensInReach options) :
    ValidRoutes (WrittenDhcpcd str) address (ip4ProcessDhcpcdRfc3442Routes str address 0) := by
  unfold ip4ProcessDhcpcdRfc3442Routes
  dsimp only
  split_ifs with hnil hodd
  · exact validRoutes_nil _ _
  · exact validRoutes_nil _ _
  · have hpairs : dhcpcdPairs options = tokenPairs (strsplitSet str [' ']) := by
      rw [dhcpcdPairs, hstr]
      exact if_pos ⟨hchars, hslash, not_not.mp hodd⟩
    rw [dhcpcdLoop_eq_foldl]
    refine List.foldlRecOn _ _ (validRoutes_nil _ _) fun s h pair hpair => ?_
    exact dhcpcdPair_validRoutes hchars hpair (hreach pair (hpairs ▸ hpair)) h

/-- What one route in the format of `dhclient` is read from. -/
theorem processDhclientRfc3442Route_spec {tokens rest : List Bytes} {r : LeaseRoute}
    (hdigits : ∀ token ∈ tokens, ∀ c ∈ token, isDigit c)
    (h : processDhclientRfc3442Route tokens = some (r, rest)) :
    ∃ token octets gateway, tokens = token :: (octets ++ (gateway ++ rest)) ∧
      IsNumber token r.plen ∧ r.plen ≤ 32 ∧ octets.length = significantOctets r.plen ∧
      gateway.length = 4 ∧
      inetPton (strjoinDot (gateway.getD 0 []) (gateway.getD 1 []) (gateway.getD 2 [])
        (gateway.getD 3 [])) = some r.gateway ∧
      ∃ addr, inetPton (strjoinDot (octets.getD 0 ['0']) (octets.getD 1 ['0'])
        (octets.getD 2 ['0']) (octets.getD 3 ['0'])) = some addr ∧
        r.dest = ip4AddrClearHostAddress addr r.plen := by
  cases tokens with
  | nil => exact absurd h nofun
  | cons token octets =>
    rw [processDhclientRfc3442Route] at h
    dsimp only at h
    rcases hread : asciiStrToInt64 token 10 0 32 with _ | n
    · simp [hread] at h
    obtain ⟨hnumber, hplen⟩ := isNumber_of_asciiStrToInt64 (hdigits token mem_cons_self) hread
    simp only [hread] at h
    generalize n.toNat = plen at h hnumber hplen
    have hlen : (if plen > 0 then (plen - 1) / 8 + 1 else 0) = significantOctets plen := by
      unfold significantOctets
      split_ifs <;> omega
    rw [hlen] at h
    split_ifs at h with hshort
    simp only [Option.bind_eq_bind, Option.bind_eq_some_iff] at h
    obtain ⟨network, hnetwork, gateway, hgateway, he⟩ := h
    obtain ⟨rfl, rfl⟩ := Prod.mk.inj (Option.some.inj he)
    refine ⟨token, octets.take (significantOctets plen),
      (octets.drop (significantOctets plen)).take 4, ?_, hnumber, hplen, ?_, ?_, ?_, ?_⟩
    · rw [take_append_drop, take_append_drop]
    · rw [length_take]
      dsimp only
      omega
    · rw [length_take, length_drop]
      omega
    · have hget (i : ℕ) (hi : i < 4) : ((octets.drop (significantOctets plen)).take 4).getD i [] =
          (octets.drop (significantOctets plen)).getD i [] := by
        rw [getD_eq_getElem?_getD, getD_eq_getElem?_getD, List.getElem?_take_of_lt hi]
      rw [hget 0 (by omega), hget 1 (by omega), hget 2 (by omega), hget 3 (by omega)]
      exact hgateway
    · unfold dhclientNetwork at hnetwork
      split_ifs at hnetwork with hpos
      · obtain ⟨addr, haddr, rfl⟩ := Option.map_eq_some_iff.mp hnetwork
        exact ⟨addr, haddr, rfl⟩
      · obtain rfl : plen = 0 := by omega
        refine ⟨0, rfl, ?_⟩
        have hclear : ip4AddrClearHostAddress 0 0 = 0 := by decide
        exact (Option.some.inj hnetwork).symm.trans hclear.symm

theorem dhclientLoop_validRoutes {str : Bytes} {address : BitVec 32}
    {tokens : List Bytes} {s : ClasslessRoutes}
    (hsuffix : tokens <:+ strsplitSetWithEmpty str [' ', '.'])
    (hdigits : ∀ token ∈ tokens, ∀ c ∈ token, isDigit c)
    (h : ValidRoutes (WrittenDhclient str) address s) :
    ValidRoutes (WrittenDhclient str) address (dhclientLoop address tokens s) := by
  cases hroute : processDhclientRfc3442Route tokens with
  | none =>
    rw [dhclientLoop_of_none hroute]
    exact h
  | some r =>
    obtain ⟨r, rest⟩ := r
    have hlen := processDhclientRfc3442Route_length hroute
    obtain ⟨token, octets, gateway, rfl, hnumber, hplen, hoctets, hgatewayLen, hgateway, addr,
      haddr, hdest⟩ := processDhclientRfc3442Route_spec hdigits hroute
    rw [dhclientLoop_of_some hroute]
    have hrest : rest <:+ token :: (octets ++ (gateway ++ rest)) :=
      ⟨token :: (octets ++ gateway), by simp⟩
    have hinfix : (token :: (octets ++ gateway)) <:+: strsplitSetWithEmpty str [' ', '.'] :=
      List.IsInfix.trans ⟨[], rest, by simp⟩ hsuffix.isInfix
    have hvalid : ValidRoute (WrittenDhclient str) (dhcpRoute r.dest r.plen r.gateway address 0) :=
      ⟨hplen, by simp [hdest, ip4AddrClearHostAddress_idem], token, octets, gateway, hinfix,
        hnumber, hoctets, hgatewayLen, hgateway, addr, haddr, hdest⟩
    apply dhclientLoop_validRoutes (hrest.trans hsuffix) fun t ht => hdigits t (hrest.subset ht)
    unfold addDhclientRoute
    split_ifs with hzero
    · have hdest0 : r.dest = 0 := by
        rw [hdest, hzero]
        simp [ip4AddrClearHostAddress, ip4AddrNetmaskFromPrefix]
      rw [hdest0, hzero] at hvalid
      exact h.setGateway hvalid
    · exact h.append hvalid
termination_by tokens.length

theorem dhclient_validRoutes {str : Bytes} (address : BitVec 32)
    (hchars : str.all isRoutesChar) (hslash : ('/' : UInt8) ∉ str) :
    ValidRoutes (WrittenDhclient str) address (ip4ProcessDhclientRfc3442Routes str address 0) := by
  unfold ip4ProcessDhclientRfc3442Routes
  dsimp only
  split_ifs
  · exact validRoutes_nil _ _
  · refine dhclientLoop_validRoutes (suffix_refl _) ?_ (validRoutes_nil _ _)
    intro token htoken c hc
    unfold strsplitSetWithEmpty at htoken
    split_ifs at htoken
    · cases htoken
    · obtain ⟨hstr, hsep⟩ := mem_of_mem_splitOnP htoken c hc
      have hroutes := all_eq_true.mp hchars c hstr
      have hne : c ≠ '/' := fun heq => hslash (heq ▸ hstr)
      simp only [mem_cons, not_mem_nil, or_false, decide_eq_false_iff_not, not_or] at hsep
      simpa [isRoutesChar, hne, hsep] using hroutes

theorem classfulPair_valid {str : Bytes} {pair : Bytes × Bytes} {address : BitVec 32}
    {routes : List PlatformIp4Route} (hpair : pair ∈ tokenPairs (strsplitSet str [' ']))
    (h : ∀ r ∈ routes, ValidRoute (WrittenClassful str) r) :
    ∀ r ∈ classfulPair address routes pair.1 pair.2, ValidRoute (WrittenClassful str) r := by
  have hplen (addr : BitVec 32) : classfulPlen addr ≤ 32 := by
    unfold classfulPlen ip4AddrGetDefaultPrefix ip4AddrGetDefaultPrefix0
    dsimp only
    split_ifs <;> omega
  unfold classfulPair
  split
  · rename_i addr route haddr hroute
    intro r hr
    rcases mem_append.mp hr with hr | hr
    · exact h r hr
    · obtain rfl := mem_singleton.mp hr
      exact ⟨hplen addr, ip4AddrClearHostAddress_idem _ _, pair, hpair, hroute, addr, haddr, rfl,
        rfl⟩
  · exact h

theorem classfulLoop_eq_foldl (address : BitVec 32) (tokens : List Bytes)
    (routes : List PlatformIp4Route) :
    classfulLoop address tokens routes =
      (tokenPairs tokens).foldl (fun routes pair => classfulPair address routes pair.1 pair.2)
        routes := by
  fun_induction classfulLoop address tokens routes with
  | case1 routes dest gateway tokens ih => exact ih
  | case2 tokens routes hshort =>
    match tokens with
    | [] | [_] => rfl
    | dest :: gateway :: tokens => exact absurd rfl (hshort dest gateway tokens)

theorem classful_valid {options : DhcpRoutesOption → Option Bytes} (address : BitVec 32) :
    ∀ r ∈ processClassfulRoutes options address, ∃ str, options .staticRoutes = some str ∧
      ValidRoute (WrittenClassful str) r := by
  unfold processClassfulRoutes
  cases hstr : options .staticRoutes with
  | none => simp
  | some str =>
    have hnil : ∀ r ∈ ([] : List PlatformIp4Route), ValidRoute (WrittenClassful str) r := by simp
    dsimp only
    split_ifs
    · simp
    · intro r hr
      refine ⟨str, rfl, ?_⟩
      rw [classfulLoop_eq_foldl] at hr
      revert r hr
      refine List.foldlRecOn (motive := fun routes => ∀ r ∈ routes,
        ValidRoute (WrittenClassful str) r) _ _ hnil fun routes h pair hpair => ?_
      exact classfulPair_valid hpair h

/-! ## All options -/

theorem ValidRoute.imp {written written' : PlatformIp4Route → Prop} {r : PlatformIp4Route}
    (h : ValidRoute written r) (himp : written r → written' r) : ValidRoute written' r :=
  ⟨h.plen_le, h.network, himp h.written⟩

theorem ValidRoutes.imp {written written' : PlatformIp4Route → Prop} {address : BitVec 32}
    {s : ClasslessRoutes} (h : ValidRoutes written address s)
    (himp : ∀ r, written r → written' r) : ValidRoutes written' address s :=
  ⟨fun r hr => (h.routes r hr).imp (himp r), fun hne => (h.gateway hne).imp (himp _)⟩

section Options

variable {options : DhcpRoutesOption → Option Bytes}

theorem classless_validRoutes (address : BitVec 32) (hreach : PlensInReach options) :
    ValidRoutes (WrittenInOptions options) address (ip4ProcessClasslessRoutes options address) := by
  unfold ip4ProcessClasslessRoutes
  cases hstr : classlessRoutesStr options with
  | none => exact validRoutes_nil _ _
  | some str =>
    dsimp only
    by_cases hnil : str = []
    · rw [if_pos hnil]
      exact validRoutes_nil _ _
    by_cases hchars : str.all isRoutesChar
    · rw [if_neg hnil, if_neg (not_not.mpr hchars)]
      split_ifs with hslash
      · refine (dhcpcd_validRoutes address hstr hchars hslash hreach).imp fun r hr => ?_
        exact .inl ⟨str, hstr, (if_pos hslash).symm ▸ hr⟩
      · refine (dhclient_validRoutes address hchars hslash).imp fun r hr => ?_
        exact .inl ⟨str, hstr, (if_neg hslash).symm ▸ hr⟩
    · rw [if_neg hnil, if_pos hchars]
      exact validRoutes_nil _ _

theorem routesFromOptions_valid (address : BitVec 32) (hreach : PlensInReach options) :
    ∀ r ∈ routesFromOptions options address, ValidRoute (WrittenInOptions options) r := by
  have hclassless := classless_validRoutes address hreach
  have hroutes : ∀ r ∈ (ip4ProcessClasslessRoutes options address).routes ++
      (if (ip4ProcessClasslessRoutes options address).haveRoutes then []
      else processClassfulRoutes options address), ValidRoute (WrittenInOptions options) r := by
    intro r hr
    rcases mem_append.mp hr with hr | hr
    · exact hclassless.routes r hr
    · split_ifs at hr
      · cases hr
      · obtain ⟨str, hstr, hvalid⟩ := classful_valid address r hr
        exact hvalid.imp fun hwritten => .inr ⟨str, hstr, hwritten⟩
  intro r hr
  unfold routesFromOptions at hr
  dsimp only at hr
  by_cases hgateway : (ip4ProcessClasslessRoutes options address).gwaddr ≠ 0
  · rw [if_pos hgateway] at hr
    rcases mem_append.mp hr with hr | hr
    · exact hroutes r hr
    · obtain rfl := mem_singleton.mp hr
      exact hclassless.gateway hgateway
  · rw [if_neg hgateway] at hr
    exact hroutes r hr

theorem dhcpcdPairs_mem {pair : Bytes × Bytes} (h : pair ∈ dhcpcdPairs options) :
    ∃ str, str.all isRoutesChar ∧ pair ∈ tokenPairs (strsplitSet str [' ']) := by
  unfold dhcpcdPairs at h
  cases hstr : classlessRoutesStr options with
  | none =>
    rw [hstr] at h
    cases h
  | some str =>
    rw [hstr] at h
    dsimp only at h
    split_ifs at h with hprocessed
    · exact ⟨str, hprocessed.1, h⟩
    · cases h

/-- All routes are valid and written in an option, and a prefix length that is not a number up to 32
adds none, if and only if all prefix lengths are in reach. -/
theorem routes_sound_iff (options : DhcpRoutesOption → Option Bytes) (address : BitVec 32) :
    RoutesSound options address ↔ PlensInReach options := by
  constructor
  · intro h pair hpair hne haddr hroute
    obtain ⟨str, hchars, hmem⟩ := dhcpcdPairs_mem hpair
    by_cases hnumber : ∃ n ≤ 32, IsNumber ((destSuffix pair.1).drop 1) n
    · exact .inl hnumber
    · by_contra hreach
      have hskipped := h.skipped pair hpair hne hnumber ⟨[], 0, false⟩
      have hcidr := dhcpcdCidr_suffix hne (suffix_tokenChars hchars hmem)
      rw [if_neg fun hlarge => hreach (.inr hlarge)] at hcidr
      obtain ⟨addr, haddr⟩ := Option.ne_none_iff_exists'.mp haddr
      obtain ⟨route, hroute⟩ := Option.ne_none_iff_exists'.mp hroute
      -- Whichever way the pair is added, there are routes afterwards.
      rw [destSuffix] at hcidr
      rw [destAddr] at haddr
      unfold dhcpcdPair at hskipped
      rw [hcidr, haddr, hroute] at hskipped
      dsimp only at hskipped
      split_ifs at hskipped <;> cases congrArg ClasslessRoutes.haveRoutes hskipped
  · intro hreach
    refine ⟨routesFromOptions_valid address hreach, fun pair hpair hne hnumber s => ?_⟩
    obtain ⟨str, hchars, hmem⟩ := dhcpcdPairs_mem hpair
    apply dhcpcdPair_of_none
    rcases dhcpcdPair_cases hchars hmem (hreach pair hpair) with ⟨plen, hplen, hwritten, -⟩ | hnone
    · rcases hwritten with ⟨hnil, -⟩ | hwritten
      · exact absurd hnil hne
      · exact absurd ⟨plen, hplen, hwritten⟩ hnumber
    · exact hnone

/-- The prefix length 4294967320 is 24 as an `int`. -/
theorem plen_out_of_reach : ¬ ∀ (options : DhcpRoutesOption → Option Bytes)
    (address : BitVec 32), RoutesSound options address := by
  intro h
  have hskipped := (h (fun
    | .classlessStaticRoutes => some (ascii "10.0.0.0/4294967320 10.0.0.1")
    | _ => none) 0).skipped (ascii "10.0.0.0/4294967320", ascii "10.0.0.1") (by decide)
      (by decide)
  have hnumber : ¬ ∃ n ≤ 32, IsNumber (ascii "4294967320") n := by
    rintro ⟨n, hn, -, -, hvalue⟩
    have hlarge : asciiDigitsValue 10 (ascii "4294967320") = 4294967320 := by decide
    omega
  have hnone := hskipped hnumber ⟨[], 0, false⟩
  revert hnone
  decide +kernel

end Options

end NetworkManager.Core
