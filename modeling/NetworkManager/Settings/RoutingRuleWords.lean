import NetworkManager.Settings.RoutingRuleString

/-!
# The words of a routing rule

The text of a valid rule consists of words that are found again, one pair for every property
that is not at its default. Taking the pairs one after the other collects exactly these
properties.
-/

namespace NetworkManager.Settings

open Lib GlibAux List

/-! ## Words that are not escaped -/

/-- A word that has no blank and no backslash. -/
def PlainWord (word : Bytes) : Prop := word ≠ [] ∧ ∀ c ∈ word, ¬ isSpace c ∧ c ≠ '\\'

instance (word : Bytes) : Decidable (PlainWord word) :=
  inferInstanceAs (Decidable (word ≠ [] ∧ ∀ c ∈ word, ¬ isSpace c ∧ c ≠ '\\'))

abbrev isRuleSpecial : UInt8 → Bool := isUnescaped asciiSpaces ⟨false, false, true, true⟩

/-- A word as it is written and as it is meant. -/
def IsToken (token : Bytes × Bytes) : Prop :=
  EscapedToken asciiSpaces isRuleSpecial token.1 token.2 ∧ EndsSolid token.1 ∧
    ∀ c ∈ token.1.head?, ¬ isSpace c

variable {v : Bytes}

theorem PlainWord.append {w : Bytes} (hv : PlainWord v) (hw : PlainWord w) :
    PlainWord (v ++ w) := by
  constructor
  · simp [hv.1]
  · intro c hc
    rcases mem_append.mp hc with hc | hc
    · exact hv.2 c hc
    · exact hw.2 c hc

theorem PlainWord.isToken {word : Bytes} (h : PlainWord word) : IsToken (word, word) := by
  obtain ⟨hne, hall⟩ := h
  have hescaped : ∀ s : Bytes, (∀ c ∈ s, ¬ isSpace c ∧ c ≠ '\\') →
      EscapedToken asciiSpaces isRuleSpecial s s := by
    intro s hs
    induction s with
    | nil => exact .nil
    | cons c s ih =>
      rw [forall_mem_cons] at hs
      exact .char (fun hc => hs.1.1 ((mem_asciiSpaces c).mp hc)) hs.1.2 (ih hs.2)
  refine ⟨hescaped word hall, ?_, fun c hc => (hall c (mem_of_mem_head? hc)).1⟩
  obtain ⟨s, c, rfl⟩ := (eq_nil_or_concat word).resolve_left hne
  rw [concat_eq_append] at hall ⊢
  exact ⟨s, c, rfl, fun hspace => absurd hspace (hall c (by simp)).1⟩

variable {base : ℕ}

theorem plainWord_digitsText (hbase : 1 < base) (hle : base ≤ 16) (n : ℕ) :
    PlainWord (digitsText base n) := by
  refine ⟨digitsText_ne_nil n, fun c hc => ?_⟩
  have hplain : ∀ c : UInt8, isAsciiDigitOf 16 c → ¬ isSpace c ∧ c ≠ '\\' := by decide +kernel
  exact hplain c (isAsciiDigitOf_mono hle ((asciiDigits_digitsText hbase hle n).1 c hc))

theorem plainWord_formatUnsigned (n : ℕ) : PlainWord (formatUnsigned n) :=
  plainWord_digitsText (by decide) (by decide) n

theorem plainWord_formatHex (n : ℕ) : PlainWord (formatHex n) :=
  PlainWord.append (by decide) (plainWord_digitsText (by decide) (by decide) n)

theorem plainWord_formatHex2 (n : ℕ) : PlainWord (formatHex2 n) := by
  unfold formatHex2
  split_ifs
  · exact PlainWord.append (by decide) (plainWord_digitsText (by decide) (by decide) n)
  · exact PlainWord.append (by decide) (plainWord_digitsText (by decide) (by decide) n)

/-! ## Reading numbers back -/

variable {n : ℕ}

theorem wordNumber_eq {word : Bytes} {max : ℤ} (h : asciiStrToInt64 word base 0 max = some (n : ℤ))
    : wordNumber word base max = some n := by
  simp [wordNumber, h]

theorem wordNumber_formatUnsigned (hbase : base = 0 ∨ base = 10) {max : ℤ} (hmax : max < 2 ^ 63)
    (hn : (n : ℤ) ≤ max) : wordNumber (formatUnsigned n) base max = some n :=
  wordNumber_eq (asciiStrToInt64_formatUnsigned hbase hmax hn)

theorem wordNumber_uint32 (v : UInt32) :
    wordNumber (formatUnsigned v.toNat) 0 0xFFFFFFFF = some v.toNat := by
  have hlt := v.toNat_lt
  exact wordNumber_formatUnsigned (.inl rfl) (by decide) (by omega)

theorem wordNumber_uint16 (v : UInt16) :
    wordNumber (formatUnsigned v.toNat) 10 0xFFFF = some v.toNat := by
  have hlt := v.toNat_lt
  exact wordNumber_formatUnsigned (.inr rfl) (by decide) (by omega)

theorem wordNumber_uint8 (v : UInt8) :
    wordNumber (formatUnsigned v.toNat) 10 0xFF = some v.toNat := by
  have hlt := v.toNat_lt
  exact wordNumber_formatUnsigned (.inr rfl) (by decide) (by omega)

theorem cutAt_of_notMem {c : UInt8} {s : Bytes} (h : c ∉ s) : cutAt c s = (s, none) :=
  if_neg h

theorem cutAt_append {c : UInt8} {s : Bytes} (h : c ∉ s) (t : Bytes) :
    cutAt c (s ++ c :: t) = (s, some t) := by
  have hs : ∀ d ∈ s, decide (d ≠ c) = true := by
    intro d hd
    exact decide_eq_true fun heq => h (heq ▸ hd)
  have hcut := mem_append_right s (mem_cons_self (a := c) (l := t))
  rw [cutAt, if_pos hcut, takeWhile_append_of_pos hs, dropWhile_append_of_pos hs]
  simp

theorem notMem_formatHex (n : ℕ) : ('/' : UInt8) ∉ formatHex n := by
  rw [formatHex, mem_append, not_or]
  exact ⟨by decide, notMem_digitsText (by decide) (by decide) n (by decide)⟩

theorem xportRangeParse_portRangeText (start «end» : UInt16) :
    xportRangeParse (portRangeText start «end») = some (start.toNat, «end».toNat) := by
  have hdash := notMem_formatUnsigned start.toNat (c := '-') (by decide)
  by_cases hse : start = «end»
  · simp [xportRangeParse, portRangeText, hse, cutAt_of_notMem (hse ▸ hdash), wordNumber_uint16]
  · have hcut := cutAt_append hdash (formatUnsigned «end».toNat)
    have htext : portRangeText start «end» =
        formatUnsigned start.toNat ++ ('-' : UInt8) :: formatUnsigned «end».toNat := by
      simp [portRangeText, hse, ascii]
    simp [xportRangeParse, htext, hcut, wordNumber_uint16]

theorem parseUidRange_text {start «end» : UInt32} (hle : start ≤ «end») :
    parseUidRange (formatUnsigned start.toNat ++ ascii "-" ++ formatUnsigned «end».toNat) =
      some (start.toNat, «end».toNat) := by
  have hdash := notMem_formatUnsigned start.toNat (c := '-') (by decide)
  have hcut := cutAt_append hdash (formatUnsigned «end».toNat)
  have htext : formatUnsigned start.toNat ++ ascii "-" ++ formatUnsigned «end».toNat =
      formatUnsigned start.toNat ++ ('-' : UInt8) :: formatUnsigned «end».toNat := by
    simp [ascii]
  have horder : ¬ «end».toNat < start.toNat := by
    have := UInt32.le_iff_toNat_le.mp hle
    omega
  simp [parseUidRange, htext, hcut, wordNumber_uint32, horder]

theorem parseFwmark_mark {mark : Bytes} {m : ℕ} (hslash : ('/' : UInt8) ∉ mark)
    (hmark : wordNumber mark 0 0xFFFFFFFF = some m) : parseFwmark mark = some (m, 0xFFFFFFFF) := by
  simp [parseFwmark, cutAt_of_notMem hslash, hmark]

theorem parseFwmark_mask {mark mask : Bytes} {m : ℕ} (hslash : ('/' : UInt8) ∉ mark)
    (hmark : wordNumber mark 0 0xFFFFFFFF = some m) (hmask : wordNumber mask 0 0xFFFFFFFF = some n) :
    parseFwmark (mark ++ ('/' : UInt8) :: mask) = some (m, n) := by
  simp [parseFwmark, cutAt_append hslash, hmark, hmask]

theorem parseFwmark_fwmarkText (fwmark fwmask : UInt32) :
    parseFwmark (fwmarkText fwmark fwmask) = some (fwmark.toNat, fwmask.toNat) := by
  have hnumber (v : UInt32) :
      wordNumber (if v ≠ 0 then formatHex v.toNat else ascii "0") 0 0xFFFFFFFF =
        some v.toNat := by
    split_ifs with hv
    · have hlt := v.toNat_lt
      exact wordNumber_eq (asciiStrToInt64_formatHex (.inl rfl) (by decide) (by omega))
    · rw [not_not.mp hv]
      decide
  have hslash : ('/' : UInt8) ∉ if fwmark ≠ 0 then formatHex fwmark.toNat else ascii "0" := by
    split_ifs
    · exact notMem_formatHex _
    · decide
  by_cases hmask : fwmask = 0xFFFFFFFF
  · have htext : fwmarkText fwmark fwmask =
        if fwmark ≠ 0 then formatHex fwmark.toNat else ascii "0" := by
      simp [fwmarkText, hmask]
    rw [htext, hmask]
    exact parseFwmark_mark hslash (hnumber fwmark)
  · have htext : fwmarkText fwmark fwmask =
        (if fwmark ≠ 0 then formatHex fwmark.toNat else ascii "0") ++
          ('/' : UInt8) :: if fwmask ≠ 0 then formatHex fwmask.toNat else ascii "0" := by
      by_cases hzero : fwmask = 0 <;> simp [fwmarkText, hmask, hzero, ascii]
    rw [htext]
    exact parseFwmark_mask hslash (hnumber fwmark) (hnumber fwmask)

/-! ## Addresses -/

section Addresses

variable {f : AddrFamily} {inet : Inet}

def isAddrChar (c : UInt8) : Bool := isXdigit c ∨ c = '.' ∨ c = ':'

theorem isAddrChar_ntop (hinet : inet.Documented) (addr : f.Addr) :
    inet.ntop f addr ≠ [] ∧ ∀ c ∈ inet.ntop f addr, isAddrChar c := by
  cases f with
  | inet =>
    obtain ⟨hne, hall⟩ := hinet.ntop_inet addr
    refine ⟨hne, fun c hc => ?_⟩
    rcases hall c hc with h | h <;> simp [isAddrChar, isXdigit, h]
  | inet6 =>
    obtain ⟨hcolon, hall⟩ := hinet.ntop_inet6 addr
    exact ⟨ne_nil_of_mem hcolon, fun c hc => by simpa [isAddrChar] using hall c hc⟩

theorem isAddrChar_plain : ∀ c : UInt8, isAddrChar c → ¬ isSpace c ∧ c ≠ '\\' := by decide +kernel

theorem plainWord_prefixText (hinet : inet.Documented) (addr : f.Addr) (len : UInt8) :
    PlainWord (prefixText inet addr len) := by
  obtain ⟨hne, hall⟩ := isAddrChar_ntop hinet addr
  have hntop : PlainWord (inet.ntop f addr) := ⟨hne, fun c hc => isAddrChar_plain c (hall c hc)⟩
  unfold prefixText
  split_ifs
  · have hlen : PlainWord (ascii "/" ++ formatUnsigned len.toNat) :=
      PlainWord.append (by decide) (plainWord_formatUnsigned _)
    exact hntop.append hlen
  · rwa [append_nil]

theorem parseWithPrefixBin_prefixText (hinet : inet.Documented) (addr : f.Addr) {len : UInt8}
    (hlen : len.toNat ≤ f.bits) :
    (parseWithPrefixBin inet f (prefixText inet addr len)).map
        (fun v => (v.1, v.2.getD f.bits)) =
      some (addr, len.toNat) := by
  have hslash : ('/' : UInt8) ∉ inet.ntop f addr := fun hmem =>
    absurd ((isAddrChar_ntop hinet addr).2 _ hmem) (by decide)
  by_cases hbits : len.toNat = f.bits
  · simp [parseWithPrefixBin, prefixText, hbits, cutAt_of_notMem hslash, hinet.pton_ntop]
  · have htext : prefixText inet addr len =
        inet.ntop f addr ++ ('/' : UInt8) :: formatUnsigned len.toNat := by
      simp [prefixText, hbits, ascii]
    have hmax : (f.bits : ℤ) < 2 ^ 63 := by cases f <;> decide
    have hnumber : wordNumber (formatUnsigned len.toNat) 10 f.bits = some len.toNat :=
      wordNumber_formatUnsigned (.inr rfl) hmax (by omega)
    simp [parseWithPrefixBin, htext, cutAt_append hslash, hinet.pton_ntop, hnumber]

theorem parseWithPrefixBin_anyText (hinet : inet.Documented) :
    parseWithPrefixBin inet f f.anyText = some (0, some 0) := by
  obtain ⟨hany, hany6⟩ := hinet.pton_any
  cases f with
  | inet =>
    have hcut : cutAt '/' AddrFamily.inet.anyText = (ascii "0.0.0.0", some (ascii "0")) := by
      decide
    have hnumber : wordNumber (ascii "0") 10 AddrFamily.inet.bits = some 0 := by decide
    simp [parseWithPrefixBin, hcut, hany, hnumber]
  | inet6 =>
    have hcut : cutAt '/' AddrFamily.inet6.anyText = (ascii "::", some (ascii "0")) := by decide
    have hnumber : wordNumber (ascii "0") 10 AddrFamily.inet6.bits = some 0 := by decide
    simp [parseWithPrefixBin, hcut, hany6, hnumber]

theorem detectFamily_prefixText (hinet : inet.Documented) (addr : f.Addr) (len : UInt8) :
    detectFamily (prefixText inet addr len) = f := by
  cases f with
  | inet =>
    obtain ⟨-, hall⟩ := hinet.ntop_inet addr
    have hntop : (':' : UInt8) ∉ inet.ntop .inet addr := fun hmem =>
      absurd (hall _ hmem) (by decide)
    have hlen : (':' : UInt8) ∉ ascii "/" ++ formatUnsigned len.toNat := by
      rw [mem_append, not_or]
      exact ⟨by decide, notMem_formatUnsigned _ (by decide)⟩
    have htext : (':' : UInt8) ∉ prefixText inet addr len := by
      unfold prefixText
      split_ifs
      · exact fun hmem => (mem_append.mp hmem).elim hntop hlen
      · rwa [append_nil]
    exact if_neg htext
  | inet6 =>
    obtain ⟨hcolon, -⟩ := hinet.ntop_inet6 addr
    exact if_pos (mem_append_left _ hcolon)

theorem detectFamily_anyText : detectFamily f.anyText = f := by
  cases f <;> decide

theorem addrWord_prefixText (hinet : inet.Documented) (addr : f.Addr) (len : UInt8) :
    addrWord (some (prefixText inet addr len)) = some (prefixText inet addr len) := by
  have hletter : ('l' : UInt8) ∉ prefixText inet addr len := by
    have hntop : ('l' : UInt8) ∉ inet.ntop f addr := fun hmem =>
      absurd ((isAddrChar_ntop hinet addr).2 _ hmem) (by decide)
    have hlen : ('l' : UInt8) ∉ ascii "/" ++ formatUnsigned len.toNat := by
      rw [mem_append, not_or]
      exact ⟨by decide, notMem_formatUnsigned _ (by decide)⟩
    unfold prefixText
    split_ifs
    · exact fun hmem => (mem_append.mp hmem).elim hntop hlen
    · rwa [append_nil]
  apply if_neg
  intro h
  rw [Option.some.inj h] at hletter
  exact hletter (by decide)

theorem addrWord_anyText : addrWord (some f.anyText) = some f.anyText := by
  cases f <;> decide

end Addresses

/-! ## One part after the other -/

def spaced (parts : List Bytes) : Bytes := parts.flatMap fun part => (' ' : UInt8) :: part

/-- Some parts are written as words that are found again, and taking these words leads from
what was collected before to what is collected then. -/
def PartWords (parts : List Bytes) (w w' : RuleWords) : Prop :=
  ∃ tokens : List (Bytes × Bytes), spaced parts = spaced (tokens.map Prod.fst) ∧
    (∀ token ∈ tokens, IsToken token) ∧
    ∀ words, w.collect (tokens.map Prod.snd ++ words) = w'.collect words

variable {key : Bytes} {k : RuleKey}

namespace PartWords

variable {parts parts' : List Bytes} {w w' w'' : RuleWords}

theorem nil (w : RuleWords) : PartWords [] w w :=
  ⟨[], rfl, fun _ h => absurd h not_mem_nil, fun _ => rfl⟩

theorem append (h : PartWords parts w w') (h' : PartWords parts' w' w'') :
    PartWords (parts ++ parts') w w'' := by
  obtain ⟨tokens, hspaced, htokens, hcollect⟩ := h
  obtain ⟨tokens', hspaced', htokens', hcollect'⟩ := h'
  refine ⟨tokens ++ tokens', ?_, ?_, fun words => ?_⟩
  · simp only [spaced, flatMap_append, map_append] at *
    rw [hspaced, hspaced']
  · intro token htoken
    rcases mem_append.mp htoken with htoken | htoken
    · exact htokens token htoken
    · exact htokens' token htoken
  · rw [map_append, append_assoc, hcollect, hcollect']

theorem pair {v' : Bytes} (hkey : PlainWord key ∧ key ≠ ascii "not" ∧ ruleKey key = some k)
    (hv : IsToken (v, v')) (htake : w.take k key v' = .ok w')
    : PartWords [twoWords key v] w w' := by
  obtain ⟨hplain, hnot, hkey⟩ := hkey
  refine ⟨[(key, key), (v, v')], ?_, ?_, fun words => ?_⟩
  · simp [spaced, twoWords]
  · intro token htoken
    rcases mem_pair.mp htoken with rfl | rfl
    · exact hplain.isToken
    · exact hv
  · simp [RuleWords.collect, hnot, hkey, htake]

theorem opt {p : Prop} [Decidable p] {β : Type} {x : Bytes} {b : β} {g : Option β → RuleWords}
    (hkey : PlainWord key ∧ key ≠ ascii "not" ∧ ruleKey key = some k) (hv : p → IsToken (v, x))
    (htake : p → w.take k key x = .ok (g (some b))) (hskip : w = g none) :
    PartWords (if p then [twoWords key v] else []) w (g (if p then some b else none)) := by
  split_ifs with hp
  · exact pair hkey (hv hp) (htake hp)
  · rw [← hskip]
    exact nil w

end PartWords

section Parts

variable (w : RuleWords) {has : Bool}

theorem partWords_invert (invert : Bool) (h : w.invert = false) :
    PartWords (if invert then [ascii "not"] else []) w { w with invert := invert } := by
  cases invert with
  | false =>
    have hw : w = { w with invert := false } := by rw [← h]
    rw [← hw]
    exact .nil w
  | true =>
    refine ⟨[(ascii "not", ascii "not")], rfl, ?_, fun words => ?_⟩
    · intro token htoken
      rw [mem_singleton.mp htoken]
      exact PlainWord.isToken (by decide)
    · exact if_pos rfl

theorem partWords_tos (h : w.tos = none) (v : UInt8) :
    PartWords (if v ≠ 0 then [twoWords (ascii "tos") (formatHex2 v.toNat)] else []) w
      { w with tos := if v ≠ 0 then some v.toNat else none } := by
  have hnumber := wordNumber_eq (asciiStrToInt64_formatHex2 v)
  apply PartWords.opt (g := fun o => { w with tos := o }) (k := .tos) (by decide)
    (fun _ => (plainWord_formatHex2 _).isToken)
  · intro _
    simp [RuleWords.take, takeOnce, h, hnumber, Except.map]
  · rw [← h]

theorem partWords_priority (hhas : has) (h : w.priority = none) (v : UInt32) :
    PartWords (if has then [twoWords (ascii "priority") (formatUnsigned v.toNat)] else []) w
      { w with priority := some v.toNat } := by
  rw [if_pos hhas]
  apply PartWords.pair (k := .priority) (by decide) (plainWord_formatUnsigned _).isToken
  simp [RuleWords.take, takeOnce, h, wordNumber_uint32, Except.map]

theorem partWords_ipproto (h : w.ipproto = none) (v : UInt8) :
    PartWords (if v ≠ 0 then [twoWords (ascii "ipproto") (formatUnsigned v.toNat)] else []) w
      { w with ipproto := if v ≠ 0 then some v.toNat else none } := by
  apply PartWords.opt (g := fun o => { w with ipproto := o }) (k := .ipproto) (by decide)
    (fun _ => (plainWord_formatUnsigned _).isToken)
  · intro _
    simp [RuleWords.take, takeOnce, h, wordNumber_uint8, Except.map]
  · rw [← h]

theorem plainWord_fwmarkText (fwmark fwmask : UInt32) : PlainWord (fwmarkText fwmark fwmask) := by
  have hmark : PlainWord (if fwmark ≠ 0 then formatHex fwmark.toNat else ascii "0") := by
    split_ifs
    · exact plainWord_formatHex _
    · decide
  have hmask : PlainWord (ascii "/" ++ formatHex fwmask.toNat) :=
    PlainWord.append (by decide) (plainWord_formatHex _)
  by_cases hall : fwmask = 0xFFFFFFFF
  · simpa [fwmarkText, hall] using hmark
  · by_cases hzero : fwmask = 0
    · have htext : fwmarkText fwmark fwmask =
          (if fwmark ≠ 0 then formatHex fwmark.toNat else ascii "0") ++ ascii "/0" := by
        simp [fwmarkText, hzero]
      rw [htext]
      exact hmark.append (by decide)
    · have htext : fwmarkText fwmark fwmask =
          (if fwmark ≠ 0 then formatHex fwmark.toNat else ascii "0") ++
            (ascii "/" ++ formatHex fwmask.toNat) := by
        simp [fwmarkText, hall, hzero]
      rw [htext]
      exact hmark.append hmask

theorem partWords_fwmark (h : w.fwmark = none) (fwmark fwmask : UInt32) :
    PartWords (if fwmark ≠ 0 ∨ fwmask ≠ 0 then
        [twoWords (ascii "fwmark") (fwmarkText fwmark fwmask)] else []) w
      { w with fwmark := if fwmark ≠ 0 ∨ fwmask ≠ 0 then some (fwmark.toNat, fwmask.toNat)
          else none } := by
  apply PartWords.opt (g := fun o => { w with fwmark := o }) (k := .fwmark) (by decide)
    (fun _ => (plainWord_fwmarkText _ _).isToken)
  · intro _
    simp [RuleWords.take, takeOnce, h, parseFwmark_fwmarkText, Except.map]
  · rw [← h]

theorem plainWord_portRangeText (start «end» : UInt16) : PlainWord (portRangeText start «end») := by
  unfold portRangeText
  split_ifs
  · have hend : PlainWord (ascii "-" ++ formatUnsigned «end».toNat) :=
      PlainWord.append (by decide) (plainWord_formatUnsigned _)
    exact (plainWord_formatUnsigned _).append hend
  · rw [append_nil]
    exact plainWord_formatUnsigned _

theorem partWords_sport (h : w.sport = none) (start «end» : UInt16) :
    PartWords (portRangePart (ascii "sport") start «end») w
      { w with sport := if start ≠ 0 ∨ «end» ≠ 0 then some (start.toNat, «end».toNat)
          else none } := by
  apply PartWords.opt (g := fun o => { w with sport := o }) (k := .sport) (by decide)
    (fun _ => (plainWord_portRangeText _ _).isToken)
  · intro _
    simp [RuleWords.take, takeOnce, h, xportRangeParse_portRangeText, Except.map]
  · rw [← h]

theorem partWords_dport (h : w.dport = none) (start «end» : UInt16) :
    PartWords (portRangePart (ascii "dport") start «end») w
      { w with dport := if start ≠ 0 ∨ «end» ≠ 0 then some (start.toNat, «end».toNat)
          else none } := by
  apply PartWords.opt (g := fun o => { w with dport := o }) (k := .dport) (by decide)
    (fun _ => (plainWord_portRangeText _ _).isToken)
  · intro _
    simp [RuleWords.take, takeOnce, h, xportRangeParse_portRangeText, Except.map]
  · rw [← h]

theorem isToken_ifname {name : Bytes} (hname : name ≠ []) :
    IsToken (escapedTokensEscape name asciiSpaces, name) := by
  have hfits : (EscapeTables.init (some asciiSpaces) none ⟨false, false, true, false, true⟩).Fits
      asciiSpaces isRuleSpecial :=
    ⟨by decide, by decide, by decide, forall_isSpace (by decide), forall_isSpace (by decide),
      by decide⟩
  obtain ⟨hescaped, hsolid, hhead⟩ := hfits.escaped_escape name
  exact ⟨hescaped, hsolid hname, hhead⟩

theorem partWords_iifname (h : w.wordIifname = none) {ifname : Option Bytes}
    (hname : ∀ name ∈ ifname, name ≠ []) :
    PartWords (ifnamePart (ascii "iif") ifname) w { w with wordIifname := ifname } := by
  cases ifname with
  | none =>
    have hw : w = { w with wordIifname := none } := by rw [← h]
    rw [← hw]
    exact .nil w
  | some name =>
    apply PartWords.pair (k := .iifname) (by decide) (isToken_ifname (hname name rfl))
    simp [RuleWords.take, takeOnce, h, Except.map]

theorem partWords_oifname (h : w.wordOifname = none) {ifname : Option Bytes}
    (hname : ∀ name ∈ ifname, name ≠ []) :
    PartWords (ifnamePart (ascii "oif") ifname) w { w with wordOifname := ifname } := by
  cases ifname with
  | none =>
    have hw : w = { w with wordOifname := none } := by rw [← h]
    rw [← hw]
    exact .nil w
  | some name =>
    apply PartWords.pair (k := .oifname) (by decide) (isToken_ifname (hname name rfl))
    simp [RuleWords.take, takeOnce, h, Except.map]

theorem partWords_uidRange (h : w.uidRange = none) {start «end» : UInt32}
    (hle : has → start ≤ «end») :
    PartWords (if has then [twoWords (ascii "uidrange") (formatUnsigned start.toNat ++ ascii "-" ++
        formatUnsigned «end».toNat)] else []) w
      { w with uidRange := if has then some (start.toNat, «end».toNat) else none } := by
  have hplain : PlainWord (formatUnsigned start.toNat ++ ascii "-" ++
      formatUnsigned «end».toNat) := by
    have hdash : PlainWord (formatUnsigned start.toNat ++ ascii "-") :=
      (plainWord_formatUnsigned _).append (by decide)
    exact hdash.append (plainWord_formatUnsigned _)
  apply PartWords.opt (g := fun o => { w with uidRange := o }) (k := .uidRange) (by decide)
    (fun _ => hplain.isToken)
  · intro hhas
    have hparse := parseUidRange_text (hle hhas)
    simp only [RuleWords.take, takeOnce, h, hparse, Option.isSome_none, Option.isNone_some,
      Bool.false_eq_true, if_false, Except.map]
  · rw [← h]

theorem partWords_suppressPrefixlength (h : w.suppressPrefixlength = none) {v : Int32}
    (hv : v ≠ -1 → 0 ≤ v.toInt) :
    PartWords (if v ≠ -1 then
        [twoWords (ascii "suppress_prefixlength") (formatSigned v.toInt)] else []) w
      { w with suppressPrefixlength := if v ≠ -1 then some v.toInt.natAbs else none } := by
  have htext (hne : v ≠ -1) : formatSigned v.toInt = formatUnsigned v.toInt.natAbs := by
    have hsign := hv hne
    exact if_neg (by omega)
  apply PartWords.opt (g := fun o => { w with suppressPrefixlength := o })
    (k := .suppressPrefixlength) (x := formatSigned v.toInt) (by decide)
  · intro hne
    rw [htext hne]
    exact (plainWord_formatUnsigned _).isToken
  · intro hne
    have hlt := v.toInt_lt
    have hsign := hv hne
    have hnumber : wordNumber (formatUnsigned v.toInt.natAbs) 0 0x7FFFFFFF =
        some v.toInt.natAbs :=
      wordNumber_formatUnsigned (.inl rfl) (by decide) (by omega)
    simp [RuleWords.take, takeOnce, h, htext hne, hnumber, Except.map]
  · rw [← h]

theorem partWords_table (h : w.table = none) (table : UInt32) (action : UInt8) :
    PartWords (if table ≠ 0 ∨ action = frActToTbl then
        [twoWords (ascii "table") (formatUnsigned table.toNat)] else []) w
      { w with table := if table ≠ 0 ∨ action = frActToTbl then some table.toNat
          else none } := by
  have htable : parseTable (formatUnsigned table.toNat) = some table.toNat := by
    simp [parseTable, wordNumber_uint32]
  apply PartWords.opt (g := fun o => { w with table := o }) (k := .table) (by decide)
    (fun _ => (plainWord_formatUnsigned _).isToken)
  · intro _
    simp [RuleWords.take, takeOnce, h, htable, Except.map]
  · rw [← h]

theorem partWords_action (h : w.action = none) {action : UInt8}
    (haction : action ≠ frActToTbl →
      action ∈ [frActBlackhole, frActProhibit, frActUnreachable]) :
    PartWords (if action ≠ frActToTbl then [twoWords (ascii "type") (rtntypeN2a action)] else [])
      w { w with action := if action ≠ frActToTbl then some action.toNat else none } := by
  have hname : ∀ a ∈ [frActBlackhole, frActProhibit, frActUnreachable],
      PlainWord (rtntypeN2a a) ∧ rtntypeA2n (rtntypeN2a a) = some a.toNat := by
    decide
  apply PartWords.opt (g := fun o => { w with action := o }) (k := .action)
    (x := rtntypeN2a action) (by decide)
  · exact fun hne => (hname action (haction hne)).1.isToken
  · intro hne
    simp [RuleWords.take, takeOnce, h, (hname action (haction hne)).2, Except.map]
  · rw [← h]

/-! ## Addresses as parts -/

variable {f : AddrFamily} {inet : Inet} {a : RuleAddr f}

def RuleAddr.word (inet : Inet) (a : RuleAddr f) (required : Bool) : Option Bytes :=
  if a.has then some (prefixText inet a.bin a.len)
  else if required then some f.anyText
  else none

theorem plainWord_anyText : PlainWord f.anyText := by
  cases f <;> decide

theorem partWords_addr (hinet : inet.Documented) (ha : a.IsValid)
    (hkey : PlainWord key ∧ key ≠ ascii "not" ∧ ruleKey key = some k) {required : Bool}
    {g : Option Bytes → RuleWords} (htake : ∀ word, w.take k key word = .ok (g (some word)))
    (hskip : w = g none) : PartWords (a.part inet key required) w (g (a.word inet required)) := by
  rcases ha with ⟨hlen, hhas⟩ | ⟨hlen, -, hhas, hvalid⟩
  · simp only [RuleAddr.part, RuleAddr.word, hhas, Bool.false_eq_true, false_and, if_false,
      if_true]
    cases required with
    | false =>
      simp only [Bool.false_eq_true, if_false]
      rw [← hskip]
      exact .nil w
    | true => exact .pair hkey plainWord_anyText.isToken (htake _)
  · simp only [RuleAddr.part, RuleAddr.word, hhas, hvalid, and_self, if_true, hlen, if_false]
    exact .pair hkey (plainWord_prefixText hinet _ _).isToken (htake _)

theorem partWords_from (hinet : inet.Documented) (h : w.wordFrom = none) (ha : a.IsValid)
    (required : Bool) :
    PartWords (a.part inet (ascii "from") required) w
      { w with wordFrom := a.word inet required } := by
  apply partWords_addr w hinet ha (g := fun o => { w with wordFrom := o }) (k := .fromAddr)
    (by decide)
  · intro word
    simp [RuleWords.take, takeOnce, h, Except.map]
  · rw [← h]

theorem partWords_to (hinet : inet.Documented) (h : w.wordTo = none) (ha : a.IsValid)
    (required : Bool) :
    PartWords (a.part inet (ascii "to") required) w
      { w with wordTo := a.word inet required } := by
  apply partWords_addr w hinet ha (g := fun o => { w with wordTo := o }) (k := .toAddr)
    (by decide)
  · intro word
    simp [RuleWords.take, takeOnce, h, Except.map]
  · rw [← h]

end Parts

/-! ## The text is read back as words -/

theorem foldl_appendRequired (buf : Bytes) (hbuf : buf ≠ []) (parts : List Bytes) :
    parts.foldl appendRequired buf = buf ++ spaced parts := by
  induction parts generalizing buf with
  | nil => simp [spaced]
  | cons part parts ih =>
    rw [foldl_cons, appendRequired, if_neg hbuf, ih _ (by simp)]
    simp [spaced]

theorem joinedTokens_spaced (word : Bytes) (words : List Bytes) :
    JoinedTokens asciiSpaces (word :: words) (word ++ spaced words) := by
  have hgap : IsGap asciiSpaces [] := fun c hc => absurd hc not_mem_nil
  induction words generalizing word with
  | nil => simpa [spaced] using JoinedTokens.single (r := word) hgap hgap
  | cons next words ih =>
    have hspace : (' ' : UInt8) ∈ asciiSpaces := by decide
    simpa [spaced] using JoinedTokens.cons (r := word) hgap hgap hspace (ih next)

theorem PartWords.split {part : Bytes} {parts : List Bytes} {w w' : RuleWords} (hpart : part ≠ [])
    (h : PartWords (part :: parts) w w') :
    ∃ words, words ≠ [] ∧
      (escapedTokensSplit ((part :: parts).foldl appendRequired []) asciiSpaces).getD [] = words ∧
      w.collect words = .ok w' := by
  obtain ⟨tokens, hspaced, htokens, hcollect⟩ := h
  have htext : (part :: parts).foldl appendRequired [] = part ++ spaced parts := by
    rw [foldl_cons, appendRequired, if_pos rfl, foldl_appendRequired part hpart]
  cases tokens with
  | nil => simp [spaced] at hspaced
  | cons token tokens =>
    have hbytes : part ++ spaced parts = token.1 ++ spaced (tokens.map Prod.fst) := by
      simpa [spaced] using hspaced
    have hjoined := joinedTokens_spaced token.1 (tokens.map Prod.fst)
    rw [← hbytes, ← htext] at hjoined
    refine ⟨(token :: tokens).map Prod.snd, by simp, ?_, ?_⟩
    · exact escapedTokensSplit_joined (by decide) htokens hjoined
    · have hall := hcollect []
      rw [append_nil] at hall
      rw [hall, RuleWords.collect]

namespace NMIPRoutingRule

variable {f : AddrFamily} {inet : Inet} {r : NMIPRoutingRule f}

/-- What is collected from the text of a rule. -/
def words (inet : Inet) (r : NMIPRoutingRule f) : RuleWords where
  wordFrom := r.fromAddr.word inet (!r.toAddr.has || !r.toAddr.valid)
  wordTo := r.toAddr.word inet false
  wordIifname := r.iifname
  wordOifname := r.oifname
  priority := some r.priority.toNat
  table := if r.table ≠ 0 ∨ r.action = frActToTbl then some r.table.toNat else none
  tos := if r.tos ≠ 0 then some r.tos.toNat else none
  ipproto := if r.ipproto ≠ 0 then some r.ipproto.toNat else none
  fwmark := if r.fwmark ≠ 0 ∨ r.fwmask ≠ 0 then some (r.fwmark.toNat, r.fwmask.toNat) else none
  sport := if r.sportStart ≠ 0 ∨ r.sportEnd ≠ 0 then some (r.sportStart.toNat, r.sportEnd.toNat)
    else none
  dport := if r.dportStart ≠ 0 ∨ r.dportEnd ≠ 0 then some (r.dportStart.toNat, r.dportEnd.toNat)
    else none
  suppressPrefixlength :=
    if r.suppressPrefixlength ≠ -1 then some r.suppressPrefixlength.toInt.natAbs else none
  uidRange := if r.uidRangeHas then some (r.uidRangeStart.toNat, r.uidRangeEnd.toNat) else none
  action := if r.action ≠ frActToTbl then some r.action.toNat else none
  invert := r.invert

theorem partWords_stringParts (hinet : inet.Documented) (hwell : r.WellFormed inet)
    (hvalid : r.IsValid) : PartWords (r.stringParts inet) .empty (r.words inet) := by
  have haction : r.action ≠ frActToTbl →
      r.action ∈ [frActBlackhole, frActProhibit, frActUnreachable] :=
    fun hne => hvalid.action.resolve_left fun h => hne h.1
  have hsuppress : r.suppressPrefixlength ≠ -1 → 0 ≤ r.suppressPrefixlength.toInt :=
    fun hne => (hvalid.suppressPrefixlength.resolve_left hne).1
  unfold stringParts
  exact (partWords_priority _ hvalid.priority rfl r.priority)
    |>.append (partWords_invert _ r.invert rfl)
    |>.append (partWords_from _ hinet rfl hvalid.fromAddr _)
    |>.append (partWords_to _ hinet rfl hvalid.toAddr false)
    |>.append (partWords_tos _ rfl r.tos)
    |>.append (partWords_ipproto _ rfl r.ipproto)
    |>.append (partWords_fwmark _ rfl r.fwmark r.fwmask)
    |>.append (partWords_sport _ rfl r.sportStart r.sportEnd)
    |>.append (partWords_dport _ rfl r.dportStart r.dportEnd)
    |>.append (partWords_iifname _ rfl hvalid.iifname)
    |>.append (partWords_oifname _ rfl hvalid.oifname)
    |>.append (partWords_uidRange _ rfl hwell.uidRange)
    |>.append (partWords_suppressPrefixlength _ rfl hsuppress)
    |>.append (partWords_table _ rfl r.table r.action)
    |>.append (partWords_action _ rfl haction)

end NMIPRoutingRule

end NetworkManager.Settings
