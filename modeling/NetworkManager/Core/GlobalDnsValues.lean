import NetworkManager.Core.GlobalDnsConfig

/-!
# What is read of a global DNS configuration

The lists of an accepted configuration are clean, so that nothing is dropped from them when they
are read again.
-/

namespace NetworkManager.Core

open Lib GlibAux List

/-! ## Strings without blanks at the ends -/

theorem isSpace_ascii (c : UInt8) (h : isSpace c) : isNonAscii c = false := by
  simp only [isSpace, decide_eq_true_eq] at h
  rcases h with rfl | rfl | rfl | rfl | rfl <;> rfl

variable {s : Bytes}

theorem utf8_skipSpaces (h : Utf8 s) : Utf8 (skipSpaces s) := by
  obtain ⟨cs, rfl⟩ := h
  induction cs with
  | nil => exact utf8_nil
  | cons c cs ih =>
    rw [flatMap_cons]
    rcases encodeChar_cases c with ⟨b, hb, hascii⟩ | hnon
    · rw [hb, singleton_append, skipSpaces, dropWhile_cons]
      split_ifs
      · exact ih
      · exact (utf8_singleton hascii).append ⟨cs, rfl⟩
    · obtain ⟨b, u, hu⟩ := exists_cons_of_ne_nil (String.utf8EncodeChar_ne_nil (c := c))
      have hb : ¬ isSpace b := by
        intro hspace
        have hno := hnon b (by rw [hu]; exact mem_cons_self)
        rw [isSpace_ascii b hspace] at hno
        cases hno
      rw [skipSpaces_of_head]
      · exact (utf8_encodeChar c).append ⟨cs, rfl⟩
      · rw [hu]
        simpa using hb

theorem utf8_chomp (h : Utf8 s) : Utf8 (chomp s) := by
  obtain ⟨cs, rfl⟩ := h
  induction cs using List.reverseRecOn with
  | nil => exact utf8_nil
  | append_singleton cs c ih =>
    rw [flatMap_append, flatMap_singleton]
    rcases encodeChar_cases c with ⟨b, hb, hascii⟩ | hnon
    · rw [hb, chomp]
      by_cases hspace : isSpace b
      · rw [rdropWhile_concat_pos _ _ _ hspace]
        exact ih
      · rw [rdropWhile_concat_neg _ _ _ hspace]
        exact Utf8.append ⟨cs, rfl⟩ (utf8_singleton hascii)
    · obtain ⟨u, b, hu⟩ := eq_nil_or_concat'
        (String.utf8EncodeChar c) |>.resolve_left String.utf8EncodeChar_ne_nil
      have hb : ¬ isSpace b := by
        intro hspace
        have hno := hnon b (by rw [hu]; simp)
        rw [isSpace_ascii b hspace] at hno
        cases hno
      have hkeep : chomp (cs.flatMap String.utf8EncodeChar ++ String.utf8EncodeChar c) =
          cs.flatMap String.utf8EncodeChar ++ String.utf8EncodeChar c := by
        rw [hu, ← append_assoc, chomp, rdropWhile_concat_neg _ _ _ hb]
      rw [hkeep]
      exact Utf8.append ⟨cs, rfl⟩ (utf8_encodeChar c)

theorem isUtf8_strstrip (h : isUtf8 s) : isUtf8 (strstrip s) := by
  obtain ⟨htext, hnul⟩ := isUtf8_iff.mp h
  refine isUtf8_iff.mpr ⟨utf8_chomp (utf8_skipSpaces htext), fun hzero => hnul ?_⟩
  exact (dropWhile_sublist isSpace).subset (( rdropWhile_prefix isSpace _).subset hzero)

/-! ## Clean lists -/

/-- Text without blanks at its ends. -/
structure CleanString (s : Bytes) : Prop where
  ne_nil : s ≠ []
  stripped : strstrip s = s
  text : isUtf8 s

structure CleanStrv (strv : List Bytes) : Prop where
  nodup : strv.Nodup
  clean : ∀ s ∈ strv, CleanString s

variable {strv : List Bytes}

theorem CleanStrv.filter (h : CleanStrv strv) (p : Bytes → Bool) : CleanStrv (strv.filter p) :=
  ⟨h.nodup.filter p, fun s hs => h.clean s (mem_filter.mp hs).1⟩

theorem foldl_keep (strv : List Bytes) {kept : List Bytes} (hnodup : kept.Nodup) :
    (strv.foldl (fun kept s => if s = [] ∨ s ∈ kept then kept else kept ++ [s]) kept).Nodup ∧
    ∀ s, s ∈ strv.foldl (fun kept s => if s = [] ∨ s ∈ kept then kept else kept ++ [s]) kept ↔
      s ∈ kept ∨ s ≠ [] ∧ s ∈ strv := by
  induction strv generalizing kept with
  | nil => simpa using hnodup
  | cons a strv ih =>
    rw [foldl_cons]
    by_cases ha : a = [] ∨ a ∈ kept
    · rw [if_pos ha]
      obtain ⟨hnodup', hmem⟩ := ih hnodup
      refine ⟨hnodup', fun s => ?_⟩
      rw [hmem, mem_cons]
      grind
    · rw [if_neg ha]
      rw [not_or] at ha
      have hnext : (kept ++ [a]).Nodup := by
        rw [nodup_append]
        refine ⟨hnodup, nodup_singleton a, fun b hb c hc => ?_⟩
        rw [mem_singleton.mp hc]
        exact fun heq => ha.2 (heq ▸ hb)
      obtain ⟨hnodup', hmem⟩ := ih hnext
      refine ⟨hnodup', fun s => ?_⟩
      rw [hmem, mem_cons, mem_append, mem_singleton]
      grind

theorem mem_nmStrvCleanup : s ∈ nmStrvCleanup strv ↔ s ≠ [] ∧ ∃ t ∈ strv, strstrip t = s := by
  have h := (foldl_keep (strv.map strstrip) nodup_nil).2 s
  rw [nmStrvCleanup, h, mem_map]
  simp

theorem cleanStrv_nmStrvCleanup (strv : List BusString) :
    CleanStrv (nmStrvCleanup (strv.map Subtype.val)) := by
  refine ⟨(foldl_keep _ nodup_nil).1, fun s hs => ?_⟩
  obtain ⟨hne, t, ht, rfl⟩ := mem_nmStrvCleanup.mp hs
  obtain ⟨t, -, rfl⟩ := mem_map.mp ht
  exact ⟨hne, strstrip_strstrip t.1, isUtf8_strstrip t.2⟩

theorem nmStrvCleanup_of_clean (h : CleanStrv strv) : nmStrvCleanup strv = strv := by
  have hstrip : strv.map strstrip = strv :=
    (map_congr_left fun s hs => (h.clean s hs).stripped).trans (map_id' strv)
  have hmain : ∀ strv kept : List Bytes, (kept ++ strv).Nodup → (∀ s ∈ strv, s ≠ []) →
      strv.foldl (fun kept s => if s = [] ∨ s ∈ kept then kept else kept ++ [s]) kept =
        kept ++ strv := by
    intro strv
    induction strv with
    | nil => simp
    | cons a strv ih =>
      intro kept hnodup hne
      have hnew : ¬ (a = [] ∨ a ∈ kept) := by
        rw [not_or]
        refine ⟨hne a mem_cons_self, fun hmem => ?_⟩
        exact (nodup_append.mp hnodup).2.2 a hmem a mem_cons_self rfl
      rw [append_cons] at hnodup
      rw [foldl_cons, if_neg hnew, ih _ hnodup fun s hs => hne s (mem_cons_of_mem a hs)]
      simp
  rw [nmStrvCleanup, hstrip]
  exact hmain strv [] h.nodup fun s hs => (h.clean s hs).ne_nil

/-! ## An accepted configuration -/

variable {inetIsValid : Bytes → Bool} {old : Option (List Bytes)} {dnsConfig : NMGlobalDnsConfig}

theorem keepStrv_eq_some {l : List Bytes} (h : keepStrv strv old = some l)
    : old = some l ∨ l = strv ∧ strv ≠ [] := by
  unfold keepStrv at h
  split_ifs at h with hnil
  · exact .inl h
  · exact .inr ⟨(Option.some.inj h).symm, hnil⟩

theorem isSome_keepStrv : (keepStrv strv old).isSome ↔ strv ≠ [] ∨ old.isSome := by
  unfold keepStrv
  split_ifs with hnil <;> simp [hnil]

/-- A list of servers or options, with the values that are valid. -/
structure CleanList (valid : Bytes → Bool) (strv : List Bytes) : Prop where
  ne_nil : strv ≠ []
  clean : CleanStrv strv
  valid : ∀ s ∈ strv, valid s

theorem cleanList_filter (valid : Bytes → Bool) (strv : List BusString)
    (h : (nmStrvCleanup (strv.map Subtype.val)).filter valid ≠ []) :
    CleanList valid ((nmStrvCleanup (strv.map Subtype.val)).filter valid) :=
  ⟨h, (cleanStrv_nmStrvCleanup strv).filter valid, fun _ hs => (mem_filter.mp hs).2⟩

structure CleanDomain (inetIsValid : Bytes → Bool) (domain : NMGlobalDnsDomain) : Prop where
  servers : CleanList inetIsValid domain.servers
  options : ∀ l ∈ domain.options, CleanList (fun _ => true) l

structure CleanConfig (inetIsValid : Bytes → Bool) (dnsConfig : NMGlobalDnsConfig) : Prop where
  searches : ∀ l ∈ dnsConfig.searches, CleanStrv l
  options : ∀ l ∈ dnsConfig.options, CleanList dnsOptionValidate l
  domains : ∀ domain ∈ dnsConfig.domains, CleanDomain inetIsValid domain
  unique : KeyUnique NMGlobalDnsDomain.name dnsConfig.domains

/-- The values of a domain while it is read. -/
structure CleanValues (inetIsValid : Bytes → Bool) (domain : DomainValues) : Prop where
  servers : ∀ l ∈ domain.servers, CleanList inetIsValid l
  options : ∀ l ∈ domain.options, CleanList (fun _ => true) l

theorem cleanValues_entry {domain : DomainValues} (h : CleanValues inetIsValid domain)
    (entry : String × BusValue) :
    CleanValues inetIsValid (domainValuesEntry inetIsValid domain entry) := by
  unfold domainValuesEntry
  split
  · refine ⟨fun l hl => ?_, h.options⟩
    rcases keepStrv_eq_some hl with hold | ⟨rfl, hne⟩
    · exact h.servers l hold
    · exact cleanList_filter inetIsValid _ hne
  · refine ⟨h.servers, fun l hl => ?_⟩
    rcases keepStrv_eq_some hl with hold | ⟨rfl, hne⟩
    · cases hold
    · exact ⟨hne, cleanStrv_nmStrvCleanup _, fun _ _ => rfl⟩
  · exact h

theorem cleanDomain_fromDbus {name : String} {value : BusValue} {domain : NMGlobalDnsDomain}
    (h : globalDnsDomainFromDbus inetIsValid name value = some domain) :
    domain.name = name ∧ CleanDomain inetIsValid domain := by
  cases value with
  | strv strv => cases h
  | other => cases h
  | dict entries =>
    have hvalues : CleanValues inetIsValid
        (entries.foldl (domainValuesEntry inetIsValid) ⟨none, none⟩) :=
      List.foldlRecOn entries _ ⟨by simp, by simp⟩ fun _ h entry _ => cleanValues_entry h entry
    obtain ⟨servers, hservers, rfl⟩ := Option.map_eq_some_iff.mp h
    exact ⟨rfl, hvalues.servers servers hservers, hvalues.options⟩

theorem cleanConfig_insertDomain (h : CleanConfig inetIsValid dnsConfig) (entry : String × BusValue) :
    CleanConfig inetIsValid
      { dnsConfig with domains := insertDomain inetIsValid dnsConfig.domains entry } := by
  unfold insertDomain
  split
  · exact h
  · rename_i domain hdomain
    have hunique := h.unique.upsert (x := domain)
    refine ⟨h.searches, h.options, fun d hd => ?_, hunique⟩
    have hlookup := lookup_of_mem hunique hd
    rw [lookup_upsert] at hlookup
    split_ifs at hlookup
    · rw [← Option.some.inj hlookup]
      exact (cleanDomain_fromDbus hdomain).2
    · exact h.domains d (mem_of_lookup hlookup)

theorem cleanConfig_entry (h : CleanConfig inetIsValid dnsConfig) (entry : String × BusValue) :
    CleanConfig inetIsValid (globalDnsConfigEntry inetIsValid dnsConfig entry) := by
  unfold globalDnsConfigEntry
  split
  · rename_i strv
    refine ⟨fun l hl => ?_, h.options, h.domains, h.unique⟩
    obtain rfl := Option.some.inj hl
    exact cleanStrv_nmStrvCleanup strv
  · refine ⟨h.searches, fun l hl => ?_, h.domains, h.unique⟩
    rcases keepStrv_eq_some hl with hold | ⟨rfl, hne⟩
    · exact h.options l hold
    · exact cleanList_filter dnsOptionValidate _ hne
  · rename_i entries
    have hfold := List.foldlRecOn
      (motive := fun domains => CleanConfig inetIsValid { dnsConfig with domains := domains })
      entries (insertDomain inetIsValid) h fun _ h entry _ => cleanConfig_insertDomain h entry
    exact hfold
  · exact h

def readEntries (inetIsValid : Bytes → Bool) (value : BusDict) : NMGlobalDnsConfig :=
  value.foldl (globalDnsConfigEntry inetIsValid) ⟨none, none, [], [], false⟩

variable (inetIsValid) in
theorem cleanConfig_readEntries (value : BusDict) :
    CleanConfig inetIsValid (readEntries inetIsValid value) :=
  List.foldlRecOn value _ ⟨by simp, by simp, by simp, unique_nil⟩
    fun _ h entry _ => cleanConfig_entry h entry

/-! ## What an accepted configuration has -/

theorem foldl_or_iff {α β : Type*} {f : β → α → β} (P : β → Prop) {Q : α → Prop}
    (h : ∀ b a, P (f b a) ↔ P b ∨ Q a) (l : List α) (b : β) :
    P (l.foldl f b) ↔ P b ∨ ∃ a ∈ l, Q a := by
  induction l generalizing b with
  | nil => simp
  | cons a l ih => rw [foldl_cons, ih, h, or_assoc, exists_mem_cons_iff]

/-- A string is valid without the blanks at its ends. -/
def HasValid (valid : Bytes → Bool) (strv : List BusString) : Prop :=
  ∃ s ∈ strv, strstrip s.1 ≠ [] ∧ valid (strstrip s.1)

/-- There are search domains. -/
def HasSearches (value : BusDict) : Prop := ∃ entry ∈ value, ∃ strv, entry = ("searches", .strv strv)

/-- There is a valid option. -/
def HasOptions (value : BusDict) : Prop :=
  ∃ entry ∈ value, ∃ strv, entry = ("options", .strv strv) ∧ HasValid dnsOptionValidate strv

/-- There is a valid server. -/
def HasServers (inetIsValid : Bytes → Bool) (value : BusDict) : Prop :=
  ∃ entry ∈ value, ∃ strv, entry = ("servers", .strv strv) ∧ HasValid inetIsValid strv

/-- There is a domain of the name with a valid server. -/
def HasDomain (inetIsValid : Bytes → Bool) (value : BusDict) (name : String) : Prop :=
  ∃ entry ∈ value, ∃ domains, entry = ("domains", .dict domains) ∧
    ∃ domain ∈ domains, ∃ values, domain = (name, .dict values) ∧ HasServers inetIsValid values

theorem filter_strvCleanup_ne_nil {valid : Bytes → Bool} {strv : List BusString} :
    (nmStrvCleanup (strv.map Subtype.val)).filter valid ≠ [] ↔ HasValid valid strv := by
  rw [Ne, filter_eq_nil_iff]
  simp only [mem_nmStrvCleanup, mem_map, not_forall, not_not]
  constructor
  · rintro ⟨_, ⟨hne, _, ⟨s, hs, rfl⟩, rfl⟩, hvalid⟩
    exact ⟨s, hs, hne, hvalid⟩
  · rintro ⟨s, hs, hne, hvalid⟩
    exact ⟨_, ⟨hne, _, ⟨s, hs, rfl⟩, rfl⟩, hvalid⟩

theorem isSome_globalDnsDomainFromDbus (inetIsValid : Bytes → Bool) (name : String)
    (value : BusValue) :
    (globalDnsDomainFromDbus inetIsValid name value).isSome ↔
      ∃ values, value = .dict values ∧ HasServers inetIsValid values := by
  have hstep : ∀ domain entry,
      (domainValuesEntry inetIsValid domain entry).servers.isSome ↔ domain.servers.isSome ∨
        ∃ strv, entry = ("servers", .strv strv) ∧ HasValid inetIsValid strv := by
    intro domain entry
    unfold domainValuesEntry
    split
    · rename_i strv
      rw [isSome_keepStrv, cleanServers, filter_strvCleanup_ne_nil, or_comm]
      simp
    · simp
    · rename_i hservers _
      have hnot : ∀ strv, entry ≠ ("servers", .strv strv) := hservers
      simp [hnot]
  cases value with
  | strv strv => simp [globalDnsDomainFromDbus]
  | other => simp [globalDnsDomainFromDbus]
  | dict entries =>
    have hfold := foldl_or_iff (fun domain : DomainValues => domain.servers.isSome) hstep
      entries ⟨none, none⟩
    simpa [globalDnsDomainFromDbus, HasServers] using hfold

variable (inetIsValid) in
theorem isSome_lookup_insertDomain (domains : List NMGlobalDnsDomain) (entry : String × BusValue)
    (name : String) :
    (lookup NMGlobalDnsDomain.name name (insertDomain inetIsValid domains entry)).isSome ↔
      (lookup NMGlobalDnsDomain.name name domains).isSome ∨
        ∃ values, entry = (name, .dict values) ∧ HasServers inetIsValid values := by
  obtain ⟨name', value⟩ := entry
  have hvalue := isSome_globalDnsDomainFromDbus inetIsValid name' value
  unfold insertDomain
  cases hdomain : globalDnsDomainFromDbus inetIsValid name' value with
  | none =>
    have hnot : ¬ ∃ values, value = .dict values ∧ HasServers inetIsValid values := by
      rw [← hvalue, hdomain]
      simp
    dsimp only
    simp only [Prod.mk.injEq]
    grind
  | some domain =>
    obtain ⟨values, rfl, hservers⟩ := hvalue.mp (by rw [hdomain]; rfl)
    dsimp only
    rw [lookup_upsert, (cleanDomain_fromDbus hdomain).1]
    split_ifs with heq
    · subst heq
      simp only [Option.isSome_some, true_iff]
      exact .inr ⟨values, rfl, hservers⟩
    · have hnot : ∀ values', (name', BusValue.dict values) ≠ (name, .dict values') :=
        fun values' h => heq (Prod.mk.inj h).1.symm
      simp [hnot]

variable (inetIsValid) in
theorem isSome_searches_readEntries (value : BusDict) :
    (readEntries inetIsValid value).searches.isSome ↔ HasSearches value := by
  have hstep : ∀ (dnsConfig : NMGlobalDnsConfig) entry,
      (globalDnsConfigEntry inetIsValid dnsConfig entry).searches.isSome ↔
        dnsConfig.searches.isSome ∨ ∃ strv, entry = ("searches", .strv strv) := by
    intro dnsConfig entry
    unfold globalDnsConfigEntry
    split
    · simp
    · simp
    · simp
    · rename_i hsearches _ _
      have hnot : ∀ strv, entry ≠ ("searches", .strv strv) := hsearches
      simp [hnot]
  have hfold := foldl_or_iff (fun c : NMGlobalDnsConfig => c.searches.isSome) hstep value
    ⟨none, none, [], [], false⟩
  simpa [readEntries, HasSearches] using hfold

variable (inetIsValid) in
theorem isSome_options_readEntries (value : BusDict) :
    (readEntries inetIsValid value).options.isSome ↔ HasOptions value := by
  have hstep : ∀ (dnsConfig : NMGlobalDnsConfig) entry,
      (globalDnsConfigEntry inetIsValid dnsConfig entry).options.isSome ↔
        dnsConfig.options.isSome ∨
          ∃ strv, entry = ("options", .strv strv) ∧ HasValid dnsOptionValidate strv := by
    intro dnsConfig entry
    unfold globalDnsConfigEntry
    split
    · simp
    · rw [isSome_keepStrv, cleanOptions, filter_strvCleanup_ne_nil, or_comm]
      simp
    · simp
    · rename_i hoptions _
      have hnot : ∀ strv, entry ≠ ("options", .strv strv) := hoptions
      simp [hnot]
  have hfold := foldl_or_iff (fun c : NMGlobalDnsConfig => c.options.isSome) hstep value
    ⟨none, none, [], [], false⟩
  simpa [readEntries, HasOptions] using hfold

theorem isSome_lookupDomain_readEntries (value : BusDict) (name : String) :
    ((readEntries inetIsValid value).lookupDomain name).isSome ↔
      HasDomain inetIsValid value name := by
  have hstep : ∀ (dnsConfig : NMGlobalDnsConfig) entry,
      ((globalDnsConfigEntry inetIsValid dnsConfig entry).lookupDomain name).isSome ↔
        (dnsConfig.lookupDomain name).isSome ∨ ∃ domains, entry = ("domains", .dict domains) ∧
          ∃ domain ∈ domains, ∃ values, domain = (name, .dict values) ∧
            HasServers inetIsValid values := by
    intro dnsConfig entry
    unfold globalDnsConfigEntry
    split
    · simp [NMGlobalDnsConfig.lookupDomain]
    · simp [NMGlobalDnsConfig.lookupDomain]
    · rename_i entries
      have hfold := foldl_or_iff
        (fun domains => (lookup NMGlobalDnsDomain.name name domains).isSome)
        (fun domains entry => isSome_lookup_insertDomain inetIsValid domains
          entry name) entries dnsConfig.domains
      simpa [NMGlobalDnsConfig.lookupDomain] using hfold
    · rename_i hdomains
      have hnot : ∀ domains, entry ≠ ("domains", .dict domains) := hdomains
      simp [hnot]
  have hfold := foldl_or_iff (fun c : NMGlobalDnsConfig => (c.lookupDomain name).isSome) hstep
    value ⟨none, none, [], [], false⟩
  simpa [readEntries, HasDomain, NMGlobalDnsConfig.lookupDomain] using hfold

theorem domainList_readEntries (value : BusDict) :
    (readEntries inetIsValid value).domainList = [] := by
  apply List.foldlRecOn (motive := fun dnsConfig : NMGlobalDnsConfig => dnsConfig.domainList = [])
    value _ rfl
  intro dnsConfig h entry _
  unfold globalDnsConfigEntry
  split <;> exact h

end NetworkManager.Core
