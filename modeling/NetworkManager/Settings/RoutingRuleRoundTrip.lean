import NetworkManager.GlibAux.InetAddr
import NetworkManager.Settings.RoutingRuleDbus
import NetworkManager.Settings.RoutingRuleWords

/-!
# Routing rules survive both serialisations

The rule that is filled with the words of a valid rule is the rule again, except for the texts
of addresses that it keeps for later. The text is also found again as one item of a list, and
what is read from D-Bus is the same rule.
-/

namespace NetworkManager.Settings

open Lib GlibAux List

namespace NMIPRoutingRule

variable {f : AddrFamily} {inet : Inet} {r : NMIPRoutingRule f} {a : RuleAddr f}
  {flags : AsStringFlags}

/-! ## The rule is filled again -/

theorem setWord_opt {α β : Type} {p : Prop} [Decidable p] {b : β} {set : α → β → α} {s target : α}
    (hset : p → set s b = target) (hskip : ¬ p → s = target) :
    setWord (if p then some b else none) set s = target := by
  by_cases hp : p
  · rw [if_pos hp]
    exact hset hp
  · rw [if_neg hp]
    exact hskip hp

def parsedAddr (a : RuleAddr f) (required : Bool) : Option (f.Addr × ℕ) :=
  if a.has then some (a.bin, a.len.toNat) else if required then some (0, 0) else none

theorem parseAddrWord_word (hinet : inet.Documented) (ha : a.IsValid) (key : Bytes)
    (required : Bool) :
    parseAddrWord inet f key (a.word inet required) = .ok (parsedAddr a required) := by
  rcases ha with ⟨hlen, hhas⟩ | ⟨hlen, hle, hhas, hvalid⟩
  · cases required with
    | false => simp [RuleAddr.word, parsedAddr, hhas, parseAddrWord, addrWord]
    | true =>
      simp only [RuleAddr.word, parsedAddr, hhas, Bool.false_eq_true, if_false, if_true,
        parseAddrWord, addrWord_anyText, parseWithPrefixBin_anyText hinet, Option.getD_some]
  · have hparse := parseWithPrefixBin_prefixText hinet a.bin hle
    obtain ⟨v, hv, hval⟩ := Option.map_eq_some_iff.mp hparse
    obtain ⟨hbin, hprefix⟩ := Prod.mk.inj hval
    simp only [RuleAddr.word, parsedAddr, hhas, if_true, parseAddrWord,
      addrWord_prefixText hinet, hv, hbin, hprefix]

theorem setParsed_parsedAddr (ha : a.IsValid) (required : Bool) :
    (RuleAddr.new f).setParsed (parsedAddr a required) = a.canonical := by
  rcases ha with ⟨hlen, hhas⟩ | ⟨hlen, hle, hhas, hvalid⟩
  · cases required <;> simp [parsedAddr, hhas, RuleAddr.setParsed, RuleAddr.canonical]
  · have hpos : a.len.toNat > 0 := by
      have hne : a.len.toNat ≠ 0 := fun h => hlen (UInt8.toNat_inj.mp h)
      omega
    simp [parsedAddr, hhas, RuleAddr.setParsed, RuleAddr.canonical, hpos, RuleAddr.setBin]

theorem fill_words (hwell : r.WellFormed inet) (hvalid : r.IsValid) (required : Bool) :
    (r.words inet).fill (parsedAddr r.fromAddr required) (parsedAddr r.toAddr false) =
      r.canonical := by
  have hinvert (s : NMIPRoutingRule f) (h : s.invert = false) :
      (if (r.words inet).invert = true then s.setInvert true else s) =
        { s with invert := r.invert } := by
    have hwords : (r.words inet).invert = r.invert := rfl
    cases hr : r.invert with
    | false =>
      rw [if_neg (by simp [hwords, hr]), ← h]
    | true =>
      rw [if_pos (hwords.trans hr)]
      rfl
  have hpriority (s : NMIPRoutingRule f) :
      setWord (some r.priority.toNat) (fun r v => r.setPriority v) s =
        { s with priority := r.priority, priorityHas := true } := by
    have hlt := r.priority.toNat_lt
    have hrange : (0 : ℤ) ≤ r.priority.toNat ∧ (r.priority.toNat : ℤ) ≤ 0xFFFFFFFF := by omega
    simp [setWord, setPriority, hrange]
  have haction (s : NMIPRoutingRule f) (h : s.action = frActToTbl) :
      setWord (if r.action ≠ frActToTbl then some r.action.toNat else none)
          (fun r v => r.setAction (UInt8.ofNat v)) s = { s with action := r.action } := by
    apply setWord_opt
    · intro _
      simp [setAction]
    · intro hr
      rw [(not_not.mp hr).trans h.symm]
  have htos (s : NMIPRoutingRule f) (h : s.tos = 0) :
      setWord (if r.tos ≠ 0 then some r.tos.toNat else none)
          (fun r v => r.setTos (UInt8.ofNat v)) s = { s with tos := r.tos } := by
    apply setWord_opt
    · intro _
      simp [setTos]
    · intro hr
      rw [(not_not.mp hr).trans h.symm]
  have hipproto (s : NMIPRoutingRule f) (h : s.ipproto = 0) :
      setWord (if r.ipproto ≠ 0 then some r.ipproto.toNat else none)
          (fun r v => r.setIpproto (UInt8.ofNat v)) s = { s with ipproto := r.ipproto } := by
    apply setWord_opt
    · intro _
      simp [setIpproto]
    · intro hr
      rw [(not_not.mp hr).trans h.symm]
  have hfwmark (s : NMIPRoutingRule f) (hmark : s.fwmark = 0) (hmask : s.fwmask = 0) :
      setWord (if r.fwmark ≠ 0 ∨ r.fwmask ≠ 0 then some (r.fwmark.toNat, r.fwmask.toNat) else none)
          (fun r v => r.setFwmark (UInt32.ofNat v.1) (UInt32.ofNat v.2)) s =
        { s with fwmark := r.fwmark, fwmask := r.fwmask } := by
    apply setWord_opt
    · intro _
      simp [setFwmark]
    · intro hr
      obtain ⟨hrmark, hrmask⟩ := not_or.mp hr
      rw [(not_not.mp hrmark).trans hmark.symm, (not_not.mp hrmask).trans hmask.symm]
  have hsport (s : NMIPRoutingRule f) (hstart : s.sportStart = 0) (hend : s.sportEnd = 0) :
      setWord (if r.sportStart ≠ 0 ∨ r.sportEnd ≠ 0 then
          some (r.sportStart.toNat, r.sportEnd.toNat) else none)
          (fun r v => r.setSourcePort (UInt16.ofNat v.1) (UInt16.ofNat v.2)) s =
        { s with sportStart := r.sportStart, sportEnd := r.sportEnd } := by
    apply setWord_opt
    · intro _
      simp [setSourcePort]
    · intro hr
      obtain ⟨hrstart, hrend⟩ := not_or.mp hr
      rw [(not_not.mp hrstart).trans hstart.symm, (not_not.mp hrend).trans hend.symm]
  have hdport (s : NMIPRoutingRule f) (hstart : s.dportStart = 0) (hend : s.dportEnd = 0) :
      setWord (if r.dportStart ≠ 0 ∨ r.dportEnd ≠ 0 then
          some (r.dportStart.toNat, r.dportEnd.toNat) else none)
          (fun r v => r.setDestinationPort (UInt16.ofNat v.1) (UInt16.ofNat v.2)) s =
        { s with dportStart := r.dportStart, dportEnd := r.dportEnd } := by
    apply setWord_opt
    · intro _
      simp [setDestinationPort]
    · intro hr
      obtain ⟨hrstart, hrend⟩ := not_or.mp hr
      rw [(not_not.mp hrstart).trans hstart.symm, (not_not.mp hrend).trans hend.symm]
  have hsuppress (s : NMIPRoutingRule f) (h : s.suppressPrefixlength = -1) :
      setWord (if r.suppressPrefixlength ≠ -1 then some r.suppressPrefixlength.toInt.natAbs
          else none) (fun r v => r.setSuppressPrefixlength (Int32.ofNat v)) s =
        { s with suppressPrefixlength := r.suppressPrefixlength } := by
    apply setWord_opt
    · intro hr
      have hsign := (hvalid.suppressPrefixlength.resolve_left hr).1
      have hint : Int32.ofNat r.suppressPrefixlength.toInt.natAbs = r.suppressPrefixlength := by
        rw [← Int32.ofInt_eq_ofNat, Int.natAbs_of_nonneg hsign, Int32.ofInt_toInt]
      rw [setSuppressPrefixlength, hint]
    · intro hr
      rw [(not_not.mp hr).trans h.symm]
  have hiifname (s : NMIPRoutingRule f) (h : s.iifname = none) :
      setWord r.iifname (fun r v => r.setIifname (some v)) s = { s with iifname := r.iifname } := by
    cases r.iifname with
    | none =>
      simp only [setWord]
      rw [← h]
    | some name => rfl
  have hoifname (s : NMIPRoutingRule f) (h : s.oifname = none) :
      setWord r.oifname (fun r v => r.setOifname (some v)) s = { s with oifname := r.oifname } := by
    cases r.oifname with
    | none =>
      simp only [setWord]
      rw [← h]
    | some name => rfl
  have htable : (r.words inet).tableDefault = some r.table.toNat := by
    by_cases htbl : r.action = frActToTbl
    · simp [RuleWords.tableDefault, words, htbl]
    · have hne : r.action.toNat ≠ frActToTbl.toNat := fun h => htbl (UInt8.toNat_inj.mp h)
      by_cases hzero : r.table = 0
      · simp [RuleWords.tableDefault, words, htbl, hzero, hne]
      · simp [RuleWords.tableDefault, words, hzero]
  have huid (s : NMIPRoutingRule f) (hstart : s.uidRangeStart = 0) (hend : s.uidRangeEnd = 0)
      (hhas : s.uidRangeHas = false) :
      setWord (if r.uidRangeHas then some (r.uidRangeStart.toNat, r.uidRangeEnd.toNat) else none)
          (fun r v => r.setUidRange (UInt32.ofNat v.1) (UInt32.ofNat v.2)) s =
        { s with
          uidRangeStart := r.uidRangeStart
          uidRangeEnd := r.uidRangeEnd
          uidRangeHas := r.uidRangeHas } := by
    apply setWord_opt
    · intro hr
      have hrange : ¬ r.uidRangeEnd < r.uidRangeStart := UInt32.not_lt.mpr (hwell.uidRange hr)
      simp [setUidRange, hrange, hr]
    · intro hr
      have hno := Bool.eq_false_iff.mpr hr
      obtain ⟨hrstart, hrend⟩ := hwell.noUidRange hno
      rw [hno.trans hhas.symm, hrstart.trans hstart.symm, hrend.trans hend.symm]
  have hfrom (s : NMIPRoutingRule f) (h : s.fromAddr = .new f) :
      s.setFromParsed (parsedAddr r.fromAddr required) =
        { s with fromAddr := r.fromAddr.canonical } := by
    rw [setFromParsed, h, setParsed_parsedAddr hvalid.fromAddr]
  have hto (s : NMIPRoutingRule f) (h : s.toAddr = .new f) :
      s.setToParsed (parsedAddr r.toAddr false) = { s with toAddr := r.toAddr.canonical } := by
    rw [setToParsed, h, setParsed_parsedAddr hvalid.toAddr]
  simp only [RuleWords.fill, htable]
  rw [hinvert]
  simp only [words]
  rw [hpriority, haction, htos, hipproto, hfwmark, hsport, hdport, hsuppress, hfrom, hto,
    hiifname, hoifname, huid]
  · simp [canonical, setWord, setTable, hvalid.priority]
  all_goals rfl

theorem head_stringParts (hvalid : r.IsValid) :
    ∃ part parts, r.stringParts inet = part :: parts ∧ part ≠ [] ∧
      ∀ c ∈ part.head?, ¬ isSpace c := by
  have hhead : (r.stringParts inet).head? =
      some (twoWords (ascii "priority") (formatUnsigned r.priority.toNat)) := by
    simp [stringParts, hvalid.priority]
  obtain ⟨parts, hparts⟩ := List.head?_eq_some_iff.mp hhead
  refine ⟨_, parts, hparts, by simp [twoWords], fun c hc => ?_⟩
  obtain rfl : ('p' : UInt8) = c := Option.some.inj hc
  decide

theorem family_words (hinet : inet.Documented) (hvalid : r.IsValid)
    (hfamily : flags.family ∈ [none, some f]) : (r.words inet).family flags = some f := by
  rcases mem_pair.mp hfamily with hnone | hsome
  · have hwords : ((addrWord (r.words inet).wordFrom).or (addrWord (r.words inet).wordTo)).map
        detectFamily = some f := by
      rcases hvalid.fromAddr with ⟨-, hfrom⟩ | ⟨-, -, hfrom, -⟩
      · rcases hvalid.toAddr with ⟨-, hto⟩ | ⟨-, -, hto, htoValid⟩
        · simp [words, RuleAddr.word, hfrom, hto, addrWord_anyText, detectFamily_anyText]
        · have habsent : addrWord none = none := by simp [addrWord]
          simp [words, RuleAddr.word, hfrom, hto, htoValid, habsent, addrWord_prefixText hinet,
            detectFamily_prefixText hinet]
      · simp [words, RuleAddr.word, hfrom, addrWord_prefixText hinet,
          detectFamily_prefixText hinet]
    rw [RuleWords.family, hnone]
    exact hwords
  · rw [RuleWords.family, hsome]
    rfl

theorem validateFlags_canonical (hvalidate : r.validate = .ok ()) (flags : AsStringFlags) :
    r.canonical.validateFlags flags = .ok () := by
  rw [validateFlags, (isValid_of_validate hvalidate).validate_canonical, hvalidate]
  cases flags.validate <;> rfl

theorem fromString_stringParts (hinet : inet.Documented) (hwell : r.WellFormed inet)
    (hvalidate : r.validate = .ok ()) (hflags : flags.unknown = false)
    (hfamily : flags.family ∈ [none, some f]) :
    fromString inet ((r.stringParts inet).foldl appendRequired []) flags =
      .ok ⟨f, r.canonical⟩ := by
  have hvalid := isValid_of_validate hvalidate
  have hparts := partWords_stringParts hinet hwell hvalid
  obtain ⟨part, parts, hcons, hpart, -⟩ := @head_stringParts f inet r hvalid
  rw [hcons] at hparts ⊢
  obtain ⟨tokens, hne, hsplit, hcollect⟩ := hparts.split hpart
  have hcheck : flags.check = .ok () := by
    rw [AsStringFlags.check, hflags]
    rfl
  have hdetect := family_words hinet hvalid hfamily
  have hrule : (r.words inet).rule inet flags f = .ok r.canonical := by
    have hfrom := parseAddrWord_word hinet hvalid.fromAddr (ascii "from")
      (!r.toAddr.has || !r.toAddr.valid)
    have hto := parseAddrWord_word hinet hvalid.toAddr (ascii "to") false
    have hfill := fill_words hwell hvalid (!r.toAddr.has || !r.toAddr.valid)
    have hwordFrom : (r.words inet).wordFrom =
        r.fromAddr.word inet (!r.toAddr.has || !r.toAddr.valid) := rfl
    have hwordTo : (r.words inet).wordTo = r.toAddr.word inet false := rfl
    simp only [RuleWords.rule, hwordFrom, hwordTo, hfrom, hto, bind, Except.bind, hfill,
      validateFlags_canonical hvalidate]
    rfl
  have htokens : require (decide (tokens ≠ [])) (ascii "empty text does not describe a rule") =
      .ok () := by
    simp [require, hne]
  simp only [fromString, hcheck, hsplit, bind, Except.bind, hcollect, htokens, hdetect, hrule]
  rfl

theorem toString_eq_ok (hvalidate : r.validate = .ok ()) (hflags : flags.unknown = false)
    (hfamily : flags.family ∈ [none, some f]) :
    r.toString inet flags = .ok ((r.stringParts inet).foldl appendRequired []) := by
  have hcheck : flags.check = .ok () := by
    rw [AsStringFlags.check, hflags]
    rfl
  have hfits : require (decide (flags.family ∈ [none, some f])) (ascii "invalid address family") =
      .ok () := by
    rw [decide_eq_true hfamily]
    rfl
  have hvalid : r.validateFlags flags = .ok () := by
    rw [validateFlags, hvalidate]
    cases flags.validate <;> rfl
  simp only [toString, hcheck, hfits, hvalid, bind, Except.bind]
  rfl

end NMIPRoutingRule

/-! ## Items of a list -/

theorem escapedTokensSplit_items {items : List Bytes} {list : Bytes}
    (hitems : ∀ item ∈ items, item ≠ [] ∧ ∀ c ∈ item.head?, ¬ isSpace c)
    (hlist : JoinedTokens (ascii ",") (items.map (escapedTokensEscape · (ascii ","))) list) :
    (escapedTokensSplit list (ascii ",")).getD [] = items := by
  have hfits := @fits_init (ascii ",") none ⟨false, true, true, false, true⟩ (.inl rfl) rfl rfl
    ⟨false, false, true, true⟩ rfl
  have htokens : ∀ token ∈ items.map fun item => (escapedTokensEscape item (ascii ","), item),
      EscapedToken (ascii ",") (isUnescaped (ascii ",") ⟨false, false, true, true⟩) token.1
        token.2 ∧ EndsSolid token.1 ∧ ∀ c ∈ token.1.head?, ¬ isSpace c := by
    intro token htoken
    obtain ⟨item, hitem, rfl⟩ := mem_map.mp htoken
    obtain ⟨hne, hhead⟩ := hitems item hitem
    obtain ⟨hescaped, hsolid, hfirst⟩ := hfits.escaped_escape item
    have hescape : (EscapeTables.init (some (ascii ",")) none
        ⟨false, true, true, false, true⟩).escape item =
        escapedTokensEscape item (ascii ",") :=
      escape_leadingSpace (EscapeTables.init (some (ascii ",")) none
        ⟨false, false, true, false, true⟩) true hhead
    rw [hescape] at hescaped hsolid hfirst
    exact ⟨hescaped, hsolid hne, hfirst⟩
  have hsplit := escapedTokensSplit_joined (by decide) htokens (by rwa [map_map])
  rw [hsplit, map_map]
  exact map_id items

/-! ## The round trips -/

open NMIPRoutingRule in
/-- However a valid rule was built, it is read back equal from its text, with the address family
given or detected, also if the text was an item of a list. So it is from D-Bus by the strict
reader. -/
theorem routingRule_roundTrip (inet : Inet) (hinet : inet.Documented) (f : AddrFamily)
    (ops : List (RuleOp f)) (hvalidate : (build inet f ops).validate = .ok ()) :
    (∀ flags : AsStringFlags, flags.unknown = false → flags.family ∈ [none, some f] →
      ∃ text, (build inet f ops).toString inet flags = .ok text ∧
        (∀ fromFlags : AsStringFlags, fromFlags.unknown = false →
          fromFlags.family ∈ [none, some f] →
          ∃ r : NMIPRoutingRule f, fromString inet text fromFlags = .ok ⟨f, r⟩ ∧
            (build inet f ops).cmp r = .eq) ∧
        ∀ (before after : List Bytes) (list : Bytes),
          (∀ item ∈ before ++ after, item ≠ [] ∧ ∀ c ∈ item.head?, ¬ isSpace c) →
          JoinedTokens (ascii ",")
            ((before ++ text :: after).map (escapedTokensEscape · (ascii ","))) list →
          (escapedTokensSplit list (ascii ",")).getD [] = before ++ text :: after) ∧
    ∃ r : NMIPRoutingRule f,
      fromDbus inet ((build inet f ops).toDbus inet) true = .ok ⟨f, r⟩ ∧
        (build inet f ops).cmp r = .eq := by
  have hwell := @wellFormed_build f inet ops
  have hvalid := isValid_of_validate hvalidate
  have hequal := hvalid.cmp_canonical
  constructor
  · intro flags hflags hfamily
    refine ⟨_, toString_eq_ok hvalidate hflags hfamily, ?_, ?_⟩
    · intro fromFlags hflags' hfamily'
      exact ⟨_, fromString_stringParts hinet hwell hvalidate hflags' hfamily', hequal⟩
    · intro before after list hitems hlist
      apply escapedTokensSplit_items _ hlist
      obtain ⟨part, parts, hcons, hpart, hhead⟩ := @head_stringParts _ inet _ hvalid
      have htext := foldl_appendRequired part hpart parts
      intro item hitem
      rcases mem_append.mp hitem with hbefore | hrest
      · exact hitems item (mem_append_left _ hbefore)
      · rcases mem_cons.mp hrest with rfl | hafter
        · rw [hcons, foldl_cons, appendRequired, if_pos rfl, htext,
            List.head?_append_of_ne_nil _ hpart]
          exact ⟨by simp [hpart], hhead⟩
        · exact hitems item (mem_append_right _ hafter)
  · exact ⟨_, fromDbus_toDbus hinet hwell hvalidate true, hequal⟩

/-! ### A rule for IPv4 -/

def colonText (addr : BitVec 128) : Bytes := ascii "::" ++ digitsText 16 addr.toNat

def readColon (s : Bytes) : Option (BitVec 128) :=
  if s.take 2 = ascii "::" then some (BitVec.ofNat 128 (asciiDigitsValue 16 (s.drop 2))) else none

theorem readColon_colonText (addr : BitVec 128) : readColon (colonText addr) = some addr := by
  have hvalue := (asciiDigits_digitsText (by decide : 1 < 16) (by decide) addr.toNat).2
  have htake : (colonText addr).take 2 = ascii "::" := take_left' rfl
  have hdrop : (colonText addr).drop 2 = digitsText 16 addr.toNat := drop_left' rfl
  rw [readColon, if_pos htake, hdrop, hvalue, BitVec.ofNat_toNat, BitVec.setWidth_eq]

/-- Addresses of IPv4 in their dotted decimal form, and those of IPv6 without groups. -/
def plainInet : Inet where
  ntop
    | .inet, addr => inet4Ntop addr
    | .inet6, addr => colonText addr
  pton
    | .inet, s => inetPton s
    | .inet6, s => readColon s

theorem plainInet_documented : plainInet.Documented where
  pton_ntop f addr := by
    cases f with
    | inet => exact inetPton_inet4Ntop addr
    | inet6 => exact readColon_colonText addr
  ntop_inet addr := ⟨inet4Ntop_ne_nil addr, fun _ => isDigit_or_dot_of_mem_inet4Ntop⟩
  ntop_inet6 addr := by
    have hdigit : ∀ c : UInt8, isAsciiDigitOf 16 c → isXdigit c := by decide
    constructor
    · exact mem_append_left _ (by decide)
    · intro c hc
      rcases mem_append.mp hc with hc | hc
      · exact .inr (.inr (by simpa [ascii] using hc))
      · have hof := (asciiDigits_digitsText (by decide : 1 < 16) (by decide) addr.toNat).1 c hc
        exact .inl (hdigit c hof)
  pton_any := by
    constructor <;> decide

def networkRule : List (RuleOp .inet) :=
  [.setPriority 5, .setFrom (some (ascii "10.1.2.0")) 24, .setFwmark 16 255,
    .setSourcePort 100 200, .setTable 7]

theorem routingRule_roundTrip_network :
    ∃ r r' : NMIPRoutingRule .inet,
      NMIPRoutingRule.fromString plainInet
          (ascii "priority 5 from 10.1.2.0/24 fwmark 0x10/0xff sport 100-200 table 7")
          ⟨false, false, true, false⟩ = .ok ⟨.inet, r⟩ ∧
        (NMIPRoutingRule.build plainInet .inet networkRule).cmp r = .eq ∧
      NMIPRoutingRule.fromDbus plainInet
          ((NMIPRoutingRule.build plainInet .inet networkRule).toDbus plainInet) true =
        .ok ⟨.inet, r'⟩ ∧
        (NMIPRoutingRule.build plainInet .inet networkRule).cmp r' = .eq := by
  have hvalidate : (NMIPRoutingRule.build plainInet .inet networkRule).validate = .ok () := by
    decide +kernel
  have htext : (NMIPRoutingRule.build plainInet .inet networkRule).toString plainInet
      ⟨false, false, false, false⟩ =
        .ok (ascii "priority 5 from 10.1.2.0/24 fwmark 0x10/0xff sport 100-200 table 7") := by
    decide +kernel
  obtain ⟨hstring, r', hr', hequal'⟩ :=
    routingRule_roundTrip plainInet plainInet_documented .inet networkRule hvalidate
  obtain ⟨text, htext', hread, -⟩ :=
    hstring ⟨false, false, false, false⟩ rfl (by decide)
  obtain rfl := Except.ok.inj (htext.symm.trans htext')
  obtain ⟨r, hr, hequal⟩ := hread ⟨false, false, true, false⟩ rfl (by decide)
  exact ⟨r, r', hr, hequal, hr', hequal'⟩

end NetworkManager.Settings
