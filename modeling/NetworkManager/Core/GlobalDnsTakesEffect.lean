import NetworkManager.Core.GlobalDnsStored

/-!
# An accepted global DNS configuration takes effect

What is loaded from the stored groups is the configuration that was set, and setting it again
changes nothing.
-/

namespace NetworkManager.Core

open Lib KeyFile
open List hiding lookup_cons lookup_eq_none_iff lookup_isSome_iff

variable {globalDns : NMGlobalDnsConfig} {prefixes : List String} {inetIsValid : Bytes → Bool}
  {domain : NMGlobalDnsDomain} {self self' : NMConfig} {new : ConfigKeyfile} {strv : List Bytes}
  {group : String} {l : Option (List Bytes)}

/-! ## Sealed configurations -/

/-- A clean configuration with the sorted names of its domains. -/
structure SealedConfig (inetIsValid : Bytes → Bool) (globalDns : NMGlobalDnsConfig) : Prop where
  clean : CleanConfig inetIsValid globalDns
  perm : globalDns.domainList.Perm (globalDns.domains.map NMGlobalDnsDomain.name)

theorem sealedConfig_sealDomains (h : CleanConfig inetIsValid globalDns) :
    SealedConfig inetIsValid globalDns.sealDomains :=
  ⟨⟨h.searches, h.options, h.domains, h.unique⟩, perm_insertionSort _ _⟩

section

variable (h : SealedConfig inetIsValid globalDns)

include h

theorem SealedConfig.nodup :
    globalDns.domainList.Nodup := h.perm.nodup_iff.mpr h.clean.unique

theorem SealedConfig.mem_storedDomains :
    domain ∈ storedDomains globalDns ↔ domain ∈ globalDns.domains := by
  simp only [storedDomains, mem_filterMap, h.perm.mem_iff, mem_map]
  constructor
  · rintro ⟨name, -, hlookup⟩
    exact mem_of_lookup hlookup
  · intro hmem
    exact ⟨domain.name, ⟨domain, hmem, rfl⟩, lookup_of_mem h.clean.unique hmem⟩

theorem SealedConfig.unique_storedDomains :
    KeyUnique NMGlobalDnsDomain.name (storedDomains globalDns) := by
  have hnames : (storedDomains globalDns).map NMGlobalDnsDomain.name = globalDns.domainList := by
    have hmain : ∀ names : List String, (∀ name ∈ names, name ∈ globalDns.domainList) →
        (names.filterMap globalDns.lookupDomain).map NMGlobalDnsDomain.name = names := by
      intro names
      induction names with
      | nil => simp
      | cons name names ih =>
        intro hmem
        obtain ⟨domain, hdomain, hname⟩ := mem_map.mp
          (h.perm.mem_iff.mp (hmem name mem_cons_self))
        have hlookup : globalDns.lookupDomain name = some domain :=
          hname ▸ lookup_of_mem h.clean.unique hdomain
        rw [filterMap_cons, hlookup, map_cons, hname,
          ih fun n hn => hmem n (mem_cons_of_mem name hn)]
    exact hmain _ fun _ h => h
  rw [KeyUnique, hnames]
  exact h.nodup

theorem SealedConfig.lookup_storedDomains (name : String) :
    lookup NMGlobalDnsDomain.name name (storedDomains globalDns) = globalDns.lookupDomain name := by
  apply Option.ext
  intro domain
  rw [lookup_eq_some_iff h.unique_storedDomains, h.mem_storedDomains,
    NMGlobalDnsConfig.lookupDomain, lookup_eq_some_iff h.clean.unique]

theorem SealedConfig.isEmpty_iff :
    globalDns.isEmpty ↔
      globalDns.searches = none ∧ globalDns.options = none ∧ globalDns.domains = [] := by
  have hlist : globalDns.domainList = [] ↔ globalDns.domains = [] := by
    rw [← length_eq_zero_iff, h.perm.length_eq, length_map, length_eq_zero_iff]
  simp [NMGlobalDnsConfig.isEmpty, hlist, and_assoc]

end

/-! ## The key file that is set -/

/-- The internal key file for a configuration. -/
def newKeyfileIntern (self : NMConfig) (globalDns : NMGlobalDnsConfig) : ConfigKeyfile :=
  markAtomicSections self.atomicSectionPrefixes (keyfileCopy .empty
    (if globalDns.isEmpty then removeGlobalDns (self.keyfileIntern.elim .empty (keyfileCopy .empty))
      else setGlobalDnsGroups globalDns
        (removeGlobalDns (self.keyfileIntern.elim .empty (keyfileCopy .empty)))))

def internGroups (self : NMConfig) : List ConfigGroup :=
  (self.keyfileIntern.elim .empty (keyfileCopy .empty)).groups

theorem internGroups_ne_nil : ∀ g ∈ internGroups self, g.2 ≠ [] := by
  intro g hg
  unfold internGroups at hg
  cases hintern : self.keyfileIntern with
  | none =>
    rw [hintern] at hg
    cases hg
  | some keyfile =>
    rw [hintern, Option.elim_some, groups_keyfileCopy] at hg
    simpa using (mem_filter.mp hg).2

theorem storedGroups_ne_nil : ∀ g ∈ storedGroups globalDns, g.2 ≠ [] := by
  intro g hg
  unfold storedGroups at hg
  split_ifs at hg
  · cases hg
  · rcases mem_cons.mp hg with rfl | hg
    · simp [globalEntry, listsGroup]
    · obtain ⟨domain, -, rfl⟩ := mem_map.mp hg
      simp [domainEntry, listsGroup]

theorem groups_newKeyfileIntern (self : NMConfig) (h : globalDns.domainList.Nodup) :
    (newKeyfileIntern self globalDns).groups =
      (((internGroups self).filter fun g => !isGlobalDnsGroup g.1) ++ storedGroups globalDns).map
        (markGroup self.atomicSectionPrefixes) := by
  have hremove := groups_removeGlobalDns
    (self.keyfileIntern.elim .empty (keyfileCopy .empty))
  have hset : (if globalDns.isEmpty then
        removeGlobalDns (self.keyfileIntern.elim .empty (keyfileCopy .empty))
      else setGlobalDnsGroups globalDns
        (removeGlobalDns (self.keyfileIntern.elim .empty (keyfileCopy .empty)))).groups =
      ((internGroups self).filter fun g => !isGlobalDnsGroup g.1) ++ storedGroups globalDns := by
    split_ifs with hempty
    · rw [hremove, storedGroups, if_pos hempty, append_nil]
      rfl
    · rw [groups_setGlobalDnsGroups h _ (by simpa using hempty), hremove]
      · rfl
      · intro group hglobal
        rw [← Bool.not_eq_true, hasGroup_iff, getGroups, hremove]
        intro hmem
        obtain ⟨g, hg, rfl⟩ := mem_map.mp hmem
        simpa [hglobal] using (mem_filter.mp hg).2
  rw [newKeyfileIntern, groups_markAtomicSections, groups_keyfileCopy, hset]
  congr 1
  rw [filter_eq_self]
  intro g hg
  rcases mem_append.mp hg with hg | hg
  · simpa using internGroups_ne_nil g (mem_filter.mp hg).1
  · simpa using storedGroups_ne_nil g hg

theorem keyfileEqual_iff {keyfile keyfile' : Option ConfigKeyfile} :
    keyfileEqual keyfile keyfile' ↔ keyfile = keyfile' := by
  constructor
  · intro h
    unfold keyfileEqual at h
    split at h
    · rfl
    · simp only [Bool.and_eq_true, decide_eq_true_eq, all_eq_true] at h
      rw [eq_of_values h.1 (fun group hgroup => (h.2 group hgroup).1)
        fun group hgroup => (h.2 group hgroup).2]
    · cases h
  · rintro rfl
    cases keyfile <;> simp [keyfileEqual]

/-! ## Setting it -/

/-- The configuration after a key file was set as the internal one. -/
structure SetTo (old new : NMConfig) (keyfile : ConfigKeyfile) : Prop where
  user : new.keyfileUser = old.keyfileUser
  prefixes : new.atomicSectionPrefixes = old.atomicSectionPrefixes
  intern : new.keyfileIntern = some keyfile ∨ new.keyfileIntern = none ∧ keyfile.getGroups = []

theorem setTo_configSetValues {keyfile : ConfigKeyfile}
    (hkeyfile : markAtomicSections self.atomicSectionPrefixes (keyfileCopy .empty new) = keyfile) :
    SetTo self (configSetValues inetIsValid self new).1 keyfile := by
  unfold configSetValues
  dsimp only
  rw [hkeyfile]
  generalize hintern : (if keyfile.getGroups = [] then none else some keyfile) = intern
  have hnew : intern = some keyfile ∨ intern = none ∧ keyfile.getGroups = [] := by
    rw [← hintern]
    split_ifs with hempty
    · exact .inr ⟨rfl, hempty⟩
    · exact .inl rfl
  split_ifs with hequal hdiff
  · exact ⟨rfl, rfl, .inl (keyfileEqual_iff.mp hequal)⟩
  · have hvalues := congrArg ConfigChanges.valuesIntern hdiff
    have hsame : self.keyfileIntern = intern := keyfileEqual_iff.mp (by simpa [configDataDiff] using hvalues)
    exact ⟨rfl, rfl, by rw [hsame]; exact hnew⟩
  · exact ⟨rfl, rfl, hnew⟩

theorem configSetValues_of_setTo {self₀ : NMConfig} {keyfile : ConfigKeyfile}
    (hkeyfile : markAtomicSections self.atomicSectionPrefixes (keyfileCopy .empty new) = keyfile)
    (h : SetTo self₀ self keyfile) (huser : loadGlobalDns inetIsValid self.keyfileUser false = none) :
    configSetValues inetIsValid self new = (self, none) := by
  unfold configSetValues
  dsimp only
  rw [hkeyfile]
  rcases h.intern with hintern | ⟨hintern, hempty⟩
  · exact if_pos (keyfileEqual_iff.mpr hintern)
  · have hsame : ({ self with keyfileIntern := none } : NMConfig) = self := by
      rw [← hintern]
    have hnone : self.getGlobalDnsConfig inetIsValid = none := by
      rw [NMConfig.getGlobalDnsConfig, huser, hintern]
      rfl
    have hdiff : configDataDiff inetIsValid self self = ⟨false, false⟩ := by
      rw [configDataDiff, hnone, keyfileEqual_iff.mpr rfl]
      rfl
    rw [if_pos hempty, hsame, if_pos hdiff, ite_self]

theorem internal_loadGlobalDns {keyfile : Option ConfigKeyfile} {internal : Bool} :
    ∀ dnsConfig ∈ loadGlobalDns inetIsValid keyfile internal, dnsConfig.internal = internal := by
  intro dnsConfig h
  unfold loadGlobalDns at h
  cases keyfile with
  | none => cases h
  | some keyfile =>
    dsimp only at h
    split_ifs at h <;> cases h
    rfl

theorem configSetGlobalDns_eq (huser : loadGlobalDns inetIsValid self.keyfileUser false = none) :
    configSetGlobalDns inetIsValid self globalDns = some (configSetValues inetIsValid self
      (if globalDns.isEmpty then removeGlobalDns (self.keyfileIntern.elim .empty (keyfileCopy .empty))
        else setGlobalDnsGroups globalDns
          (removeGlobalDns (self.keyfileIntern.elim .empty (keyfileCopy .empty))))) := by
  have hallowed : ¬ (self.getGlobalDnsConfig inetIsValid).any fun old => !old.internal := by
    rw [NMConfig.getGlobalDnsConfig, huser, Option.none_or]
    cases hload : loadGlobalDns inetIsValid self.keyfileIntern true with
    | none => simp
    | some dnsConfig => simp [internal_loadGlobalDns dnsConfig hload]
  exact if_neg hallowed

theorem configSetGlobalDns_setTo (globalDns : NMGlobalDnsConfig)
    (huser : loadGlobalDns inetIsValid self.keyfileUser false = none) :
    ∃ self' changes, configSetGlobalDns inetIsValid self globalDns = some (self', changes) ∧
      SetTo self self' (newKeyfileIntern self globalDns) :=
  ⟨_, _, configSetGlobalDns_eq huser, setTo_configSetValues rfl⟩

/-- Where the groups were set, they are set to the same again. -/
theorem newKeyfileIntern_of_setTo (hnodup : globalDns.domainList.Nodup)
    (h : SetTo self self' (newKeyfileIntern self globalDns)) :
    newKeyfileIntern self' globalDns = newKeyfileIntern self globalDns := by
  have hgroups := groups_newKeyfileIntern self hnodup
  have hne : ∀ g ∈ (newKeyfileIntern self globalDns).groups, g.2 ≠ [] := by
    intro g hg
    rw [hgroups] at hg
    obtain ⟨g', hg', rfl⟩ := mem_map.mp hg
    have hne' : g'.2 ≠ [] := by
      rcases mem_append.mp hg' with hg' | hg'
      · exact internGroups_ne_nil g' (mem_filter.mp hg').1
      · exact storedGroups_ne_nil g' hg'
    unfold markGroup
    split_ifs
    · intro hnil
      have hsome : (lookup Prod.fst keyAtomicSectionWas
          (upsert Prod.fst (keyAtomicSectionWas, []) g'.2)).isSome := by simp
      dsimp only at hnil
      rw [hnil] at hsome
      cases hsome
    · exact hne'
  have hintern : internGroups self' = (newKeyfileIntern self globalDns).groups := by
    unfold internGroups
    rcases h.intern with hintern | ⟨hintern, hempty⟩
    · rw [hintern, Option.elim_some, groups_keyfileCopy, filter_eq_self]
      intro g hg
      simpa using hne g hg
    · rw [hintern, Option.elim_none, map_eq_nil_iff.mp hempty]
      rfl
  apply KeyFile.ext
  rw [groups_newKeyfileIntern _ hnodup, hintern, h.prefixes, hgroups]
  have hkeep : ∀ g ∈ (internGroups self).filter fun g => !isGlobalDnsGroup g.1,
      isGlobalDnsGroup (markGroup self.atomicSectionPrefixes g).1 = false := by
    intro g hg
    rw [fst_markGroup]
    simpa using (mem_filter.mp hg).2
  have hdrop : ∀ g ∈ storedGroups globalDns,
      isGlobalDnsGroup (markGroup self.atomicSectionPrefixes g).1 := by
    intro g hg
    rw [fst_markGroup]
    exact isGlobalDnsGroup_storedGroups g hg
  have hunique : ∀ g ∈ (internGroups self).filter fun g => !isGlobalDnsGroup g.1,
      KeyUnique Prod.fst g.2 := by
    intro g hg
    unfold internGroups at hg
    exact KeyFile.uniqueKeys _ g (mem_filter.mp hg).1
  generalize (internGroups self).filter (fun g => !isGlobalDnsGroup g.1) = others at *
  have hothers : (others.map (markGroup self.atomicSectionPrefixes)).filter
      (fun g => !isGlobalDnsGroup g.1) = others.map (markGroup self.atomicSectionPrefixes) := by
    rw [filter_eq_self]
    intro g hg
    obtain ⟨g', hg', rfl⟩ := mem_map.mp hg
    simp [hkeep g' hg']
  have hstored : ((storedGroups globalDns).map (markGroup self.atomicSectionPrefixes)).filter
      (fun g => !isGlobalDnsGroup g.1) = [] := by
    rw [filter_eq_nil_iff]
    intro g hg
    obtain ⟨g', hg', rfl⟩ := mem_map.mp hg
    simp [hdrop g' hg']
  simp only [map_append, filter_append, hothers, hstored, append_nil, map_map]
  congr 1
  exact map_congr_left fun g hg => markGroup_markGroup (hunique g hg)

theorem configSetGlobalDns_again (hnodup : globalDns.domainList.Nodup)
    (huser : loadGlobalDns inetIsValid self.keyfileUser false = none)
    (h : SetTo self self' (newKeyfileIntern self globalDns)) :
    configSetGlobalDns inetIsValid self' globalDns = some (self', none) := by
  rw [configSetGlobalDns_eq (h.user ▸ huser)]
  congr 1
  exact configSetValues_of_setTo (newKeyfileIntern_of_setTo hnodup h) h (h.user ▸ huser)

/-! ## Loading it -/

theorem cleanStrv_nil : CleanStrv [] := ⟨nodup_nil, by simp⟩

theorem CleanStrv.readable (h : CleanStrv strv) : ∀ s ∈ strv, s ≠ [] ∧ isUtf8 s :=
  fun s hs => ⟨(h.clean s hs).ne_nil, (h.clean s hs).text⟩

theorem getStringList_listsGroup {keyfile : ConfigKeyfile} {key key' : String} {strv' : List Bytes}
    (hmem : markGroup prefixes (listsGroup group key strv key' strv') ∈ keyfile.groups)
    (hne : key ≠ key') (hwas : key ≠ keyAtomicSectionWas) (hwas' : key' ≠ keyAtomicSectionWas)
    (hstrv : CleanStrv strv) (hstrv' : CleanStrv strv') :
    keyfileGetStringList keyfile group key = some strv ∧
      keyfileGetStringList keyfile group key' = some strv' := by
  have hgroup : (markGroup prefixes (listsGroup group key strv key' strv')).1 = group :=
    fst_markGroup _
  have hvalue := fun k => getValue_of_mem k hmem
  rw [hgroup] at hvalue
  constructor
  · rw [keyfileGetStringList, hvalue, lookup_markGroup hwas]
    simpa [listsGroup, lookup_cons] using getStringList_rawStringList hstrv.readable
  · rw [keyfileGetStringList, hvalue, lookup_markGroup hwas']
    simpa [listsGroup, lookup_cons, hne] using getStringList_rawStringList hstrv'.readable

theorem cleanServers_of_clean (h : CleanList inetIsValid strv) :
    keepStrv (cleanServers inetIsValid strv) none = some strv := by
  rw [cleanServers, nmStrvCleanup_of_clean h.clean, filter_eq_self.mpr h.valid, keepStrv,
    if_neg h.ne_nil]

theorem cleanOptions_of_clean (h : ∀ strv ∈ l, CleanList dnsOptionValidate strv) :
    keepStrv (cleanOptions (l.getD [])) none = l := by
  cases l with
  | none => rfl
  | some strv =>
    have hlist := h strv rfl
    rw [Option.getD_some, cleanOptions, nmStrvCleanup_of_clean hlist.clean,
      filter_eq_self.mpr hlist.valid, keepStrv, if_neg hlist.ne_nil]

theorem keepStrv_of_clean (h : ∀ strv ∈ l, CleanStrv strv) :
    (keepStrv (nmStrvCleanup (l.getD [])) none).getD [] = l.getD [] := by
  cases l with
  | none => rfl
  | some strv =>
    rw [Option.getD_some, nmStrvCleanup_of_clean (h strv rfl), keepStrv]
    split_ifs with hnil
    · exact hnil.symm
    · rfl

theorem cleanStrv_getD (h : ∀ strv ∈ l, CleanStrv strv) : CleanStrv (l.getD []) := by
  cases l with
  | none => exact cleanStrv_nil
  | some strv => exact h strv rfl

theorem loadDomain_of_mem {keyfile : ConfigKeyfile} (domains : List NMGlobalDnsDomain)
    (hmem : markGroup prefixes (domainEntry domain) ∈ keyfile.groups)
    (hclean : CleanDomain inetIsValid domain) (hname : domain.name ≠ "") :
    loadDomain inetIsValid keyfile true domains (groupPrefixGlobalDnsDomain true ++ domain.name) =
      upsert NMGlobalDnsDomain.name domain domains := by
  have hoptions := fun strv hstrv => (hclean.options strv hstrv).clean
  have hlists := getStringList_listsGroup hmem (by decide) (by decide) (by decide)
    hclean.servers.clean (cleanStrv_getD hoptions)
  have hmore : afterPrefixWithMore (groupPrefixGlobalDnsDomain true)
      (groupPrefixGlobalDnsDomain true ++ domain.name) = some domain.name := by
    rw [afterPrefixWithMore, afterPrefix_append]
    simpa using hname
  have hkeep : keepStrv (nmStrvCleanup (domain.options.getD [])) none = domain.options := by
    cases hopt : domain.options with
    | none => rfl
    | some strv =>
      have hlist := hclean.options strv hopt
      rw [Option.getD_some, nmStrvCleanup_of_clean hlist.clean, keepStrv, if_neg hlist.ne_nil]
  rw [loadDomain, hmore]
  dsimp only
  rw [hlists.1, hlists.2, Option.bind_some, Option.bind_some,
    cleanServers_of_clean hclean.servers, hkeep]

theorem foldl_loadDomain {keyfile : ConfigKeyfile} {domains loaded : List NMGlobalDnsDomain}
    (hmem : ∀ domain ∈ domains, markGroup prefixes (domainEntry domain) ∈ keyfile.groups)
    (hclean : ∀ domain ∈ domains, CleanDomain inetIsValid domain ∧ domain.name ≠ "")
    (hunique : KeyUnique NMGlobalDnsDomain.name (loaded ++ domains)) :
    (domains.map fun domain => groupPrefixGlobalDnsDomain true ++ domain.name).foldl
      (loadDomain inetIsValid keyfile true) loaded = loaded ++ domains := by
  induction domains generalizing loaded with
  | nil => simp
  | cons domain domains ih =>
    obtain ⟨hdomain, hname⟩ := hclean domain mem_cons_self
    have hnew : lookup NMGlobalDnsDomain.name domain.name loaded = none := by
      rw [KeyUnique, map_append, nodup_append] at hunique
      rw [lookup_eq_none_iff]
      intro d hd
      exact hunique.2.2 d.name (mem_map_of_mem hd) domain.name (by simp)
    rw [append_cons] at hunique
    rw [map_cons, foldl_cons,
      loadDomain_of_mem loaded (hmem domain mem_cons_self) hdomain hname,
      upsert_of_lookup_none rfl hnew,
      ih (fun d hd => hmem d (mem_cons_of_mem domain hd))
        (fun d hd => hclean d (mem_cons_of_mem domain hd)) hunique]
    simp

theorem loadDomain_of_no_prefix {keyfile : ConfigKeyfile} (domains : List NMGlobalDnsDomain)
    (h : strHasPrefix group (groupPrefixGlobalDnsDomain true) = false) :
    loadDomain inetIsValid keyfile true domains group = domains := by
  have hnone : afterPrefixWithMore (groupPrefixGlobalDnsDomain true) group = none := by
    rw [afterPrefixWithMore, Option.isSome_eq_false_iff.mp h |> Option.isNone_iff_eq_none.mp]
    rfl
  rw [loadDomain, hnone]

theorem foldl_loadDomain_of_no_prefix {keyfile : ConfigKeyfile} {groups : List String}
    (domains : List NMGlobalDnsDomain)
    (h : ∀ group ∈ groups, strHasPrefix group (groupPrefixGlobalDnsDomain true) = false) :
    groups.foldl (loadDomain inetIsValid keyfile true) domains = domains := by
  induction groups with
  | nil => rfl
  | cons group groups ih =>
    rw [foldl_cons, loadDomain_of_no_prefix domains (h group mem_cons_self)]
    exact ih fun g hg => h g (mem_cons_of_mem group hg)

theorem keyfileHasGlobalDnsConfig_iff {keyfile : ConfigKeyfile} :
    keyfileHasGlobalDnsConfig keyfile true ↔ ∃ g ∈ keyfile.groups, isGlobalDnsGroup g.1 := by
  simp only [keyfileHasGlobalDnsConfig, Bool.or_eq_true, hasGroup_iff, getGroups, mem_map,
    any_eq_true, isGlobalDnsGroup, decide_eq_true_eq]
  grind

/-- The same configuration, where lists that are missing are empty. -/
structure SameGlobalDns (loaded globalDns : NMGlobalDnsConfig) : Prop where
  searches : loaded.searches.getD [] = globalDns.searches.getD []
  options : loaded.options.getD [] = globalDns.options.getD []
  domains : ∀ name, loaded.lookupDomain name = globalDns.lookupDomain name

variable {keyfile : ConfigKeyfile} {others : List ConfigGroup} {value : BusDict}

theorem loadGlobalDns_empty
    (hgroups : keyfile.groups = (others ++ storedGroups globalDns).map (markGroup prefixes))
    (hothers : ∀ g ∈ others, isGlobalDnsGroup g.1 = false) (hempty : globalDns.isEmpty) :
    loadGlobalDns inetIsValid (some keyfile) true = none := by
  have hno : ¬ keyfileHasGlobalDnsConfig keyfile true := by
    rw [keyfileHasGlobalDnsConfig_iff, hgroups, storedGroups, if_pos hempty, append_nil]
    rintro ⟨g, hg, hglobal⟩
    obtain ⟨g', hg', rfl⟩ := mem_map.mp hg
    rw [fst_markGroup, hothers g' hg'] at hglobal
    cases hglobal
  rw [loadGlobalDns, if_pos (by simpa using hno)]

/-- What is stored is loaded. -/
theorem loadGlobalDns_stored (hsealed : SealedConfig inetIsValid globalDns)
    (hnames : ∀ domain ∈ globalDns.domains, domain.name ≠ "")
    (hgroups : keyfile.groups = (others ++ storedGroups globalDns).map (markGroup prefixes))
    (hothers : ∀ g ∈ others, isGlobalDnsGroup g.1 = false) (hempty : globalDns.isEmpty = false)
    (hdefault : (globalDns.lookupDomain "*").isSome) :
    ∃ loaded, loadGlobalDns inetIsValid (some keyfile) true = some loaded ∧
      SameGlobalDns loaded globalDns := by
  have hstored : storedGroups globalDns =
      globalEntry globalDns :: (storedDomains globalDns).map domainEntry :=
    if_neg (by simp [hempty])
  have hglobal : markGroup prefixes (globalEntry globalDns) ∈ keyfile.groups := by
    rw [hgroups, hstored]
    exact mem_map_of_mem (by simp)
  have hdomains : ∀ domain ∈ storedDomains globalDns,
      markGroup prefixes (domainEntry domain) ∈ keyfile.groups := by
    intro domain hdomain
    rw [hgroups, hstored]
    apply mem_map_of_mem
    exact mem_append_right _ (mem_cons_of_mem _ (mem_map_of_mem hdomain))
  have hoptions := fun strv hstrv => (hsealed.clean.options strv hstrv).clean
  have hlists := getStringList_listsGroup hglobal (by decide) (by decide) (by decide)
    (cleanStrv_getD hsealed.clean.searches) (cleanStrv_getD hoptions)
  have hfold : keyfile.getGroups.foldl (loadDomain inetIsValid keyfile true) [] =
      storedDomains globalDns := by
    have hnamesList : keyfile.getGroups = (others.map Prod.fst ++ [groupGlobalDns true]) ++
        (storedDomains globalDns).map
          fun domain => groupPrefixGlobalDnsDomain true ++ domain.name := by
      rw [getGroups, hgroups, hstored, map_map]
      have hfst : Prod.fst ∘ markGroup prefixes = (Prod.fst : ConfigGroup → String) :=
        funext fst_markGroup
      rw [hfst]
      simp [globalEntry, domainEntry, listsGroup, Function.comp_def]
    have hskip : (others.map Prod.fst ++ [groupGlobalDns true]).foldl
        (loadDomain inetIsValid keyfile true) [] = [] := by
      apply foldl_loadDomain_of_no_prefix
      intro group hgroup
      rcases mem_append.mp hgroup with hgroup | hgroup
      · obtain ⟨g, hg, rfl⟩ := mem_map.mp hgroup
        have hnot := hothers g hg
        simp only [isGlobalDnsGroup, Bool.or_eq_false_iff] at hnot
        exact hnot.2
      · rw [mem_singleton.mp hgroup]
        decide
    rw [hnamesList, foldl_append, hskip]
    apply foldl_loadDomain hdomains
    · intro domain hdomain
      have hmem := hsealed.mem_storedDomains.mp hdomain
      exact ⟨hsealed.clean.domains domain hmem, hnames domain hmem⟩
    · exact hsealed.unique_storedDomains
  have hhas : keyfileHasGlobalDnsConfig keyfile true :=
    keyfileHasGlobalDnsConfig_iff.mpr ⟨_, hglobal, by rw [fst_markGroup]; rfl⟩
  have hlookup := hsealed.lookup_storedDomains
  rw [loadGlobalDns, hfold, if_neg (by simp [hhas]), if_neg]
  · refine ⟨_, rfl, ?_, ?_, hlookup⟩
    · dsimp only [NMGlobalDnsConfig.sealDomains]
      rw [hlists.1, Option.bind_some]
      exact keepStrv_of_clean hsealed.clean.searches
    · dsimp only [NMGlobalDnsConfig.sealDomains]
      rw [hlists.2, Option.bind_some, cleanOptions_of_clean hsealed.clean.options]
  · rintro ⟨hnone, -⟩
    rw [NMGlobalDnsConfig.lookupDomain, hlookup] at hnone
    rw [Option.isNone_iff_eq_none.mp hnone] at hdefault
    cases hdefault

/-! ## The other groups -/

def internValue (self : NMConfig) (group key : String) : Option Bytes :=
  self.keyfileIntern.bind fun keyfile => keyfile.getValue group key

/-- The atomic sections have the marker that setting the internal configuration gives them. -/
def AtomicMarked (self : NMConfig) : Prop :=
  ∀ keyfile ∈ self.keyfileIntern, ∀ group, isAtomicSection self.atomicSectionPrefixes group →
    keyfile.hasGroup group → keyfile.getValue group keyAtomicSectionWas = some []

theorem getValue_clone (self : NMConfig) (group key : String) :
    (self.keyfileIntern.elim .empty (keyfileCopy .empty) : ConfigKeyfile).getValue group key =
      internValue self group key := by
  unfold internValue
  cases self.keyfileIntern with
  | none => rfl
  | some keyfile => exact getValue_keyfileCopy

theorem internValue_of_setTo (h : SetTo self self' keyfile) (group key : String)
    : internValue self' group key = keyfile.getValue group key := by
  unfold internValue
  rcases h.intern with hintern | ⟨hintern, hempty⟩
  · rw [hintern, Option.bind_some]
  · rw [hintern, getValue_of_no_group]
    · rfl
    · rw [← Bool.not_eq_true, hasGroup_iff, hempty]
      exact not_mem_nil

/-- Setting a configuration leaves the other groups. -/
theorem getValue_newKeyfileIntern (hmarked : AtomicMarked self)
    (hnodup : globalDns.domainList.Nodup) (hglobal : isGlobalDnsGroup group = false) (key : String) :
    (newKeyfileIntern self globalDns).getValue group key = internValue self group key := by
  have hgroups := groups_newKeyfileIntern self hnodup
  rw [← getValue_clone]
  by_cases hhas : ∃ g ∈ internGroups self, g.1 = group
  · obtain ⟨g, hg, rfl⟩ := hhas
    have hmem : markGroup self.atomicSectionPrefixes g ∈
        (newKeyfileIntern self globalDns).groups := by
      rw [hgroups]
      apply mem_map_of_mem
      exact mem_append_left _ (mem_filter.mpr ⟨hg, by simp [hglobal]⟩)
    have hold := getValue_of_mem key hg
    have hnew := getValue_of_mem key hmem
    rw [fst_markGroup] at hnew
    rw [hold, hnew]
    by_cases hkey : key = keyAtomicSectionWas
    · unfold markGroup
      split_ifs with hatomic
      · subst hkey
        rw [getValue_clone] at hold
        cases hintern : self.keyfileIntern with
        | none => simp [internGroups, hintern, empty] at hg
        | some kf =>
          rw [internGroups, hintern, Option.elim_some, groups_keyfileCopy] at hg
          have hkf : kf.hasGroup g.1 :=
            hasGroup_iff.mpr (mem_map_of_mem (mem_filter.mp hg).1)
          rw [← hold, internValue, hintern, Option.bind_some,
            hmarked kf hintern g.1 hatomic hkf]
          simp
      · rfl
    · rw [lookup_markGroup hkey]
  · have hno : ∀ g ∈ (newKeyfileIntern self globalDns).groups, g.1 ≠ group := by
      intro g hg
      rw [hgroups] at hg
      obtain ⟨g', hg', rfl⟩ := mem_map.mp hg
      rw [fst_markGroup]
      rcases mem_append.mp hg' with hg' | hg'
      · exact fun heq => hhas ⟨g', (mem_filter.mp hg').1, heq⟩
      · rintro rfl
        rw [isGlobalDnsGroup_storedGroups g' hg'] at hglobal
        cases hglobal
    have hnone : ∀ kf : ConfigKeyfile, (∀ g ∈ kf.groups, g.1 ≠ group) →
        kf.getValue group key = none := by
      intro kf hkf
      apply getValue_of_no_group
      rw [← Bool.not_eq_true, hasGroup_iff, getGroups, mem_map]
      rintro ⟨g, hg, heq⟩
      exact hkf g hg heq
    rw [hnone _ hno, hnone _ fun g hg heq => hhas ⟨g, hg, heq⟩]

/-! ## An accepted configuration -/

def isGroupName (name : String) : Bool :=
  name ≠ "" && name.toList.all fun c => c ≠ '[' && c ≠ ']' && 32 ≤ c.toNat && c.toNat ≠ 127

theorem sealedConfig_fromDbus (h : globalDnsConfigFromDbus inetIsValid value = some globalDns) :
    globalDns = (readEntries inetIsValid value).sealDomains ∧
      ((readEntries inetIsValid value).isEmpty ∨ (globalDns.lookupDomain "*").isSome) := by
  unfold globalDnsConfigFromDbus at h
  dsimp only at h
  rw [← readEntries] at h
  split_ifs at h with hcond
  obtain rfl := Option.some.inj h
  refine ⟨rfl, ?_⟩
  simp only [Bool.and_eq_true, Bool.not_eq_true', Option.isNone_iff_eq_none, not_and] at hcond
  by_cases hempty : (readEntries inetIsValid value).isEmpty
  · exact .inl hempty
  · exact .inr (Option.isSome_iff_ne_none.mpr (hcond (by simpa using hempty)))

theorem hasDefault_iff (h : globalDnsConfigFromDbus inetIsValid value = some globalDns) :
    (globalDns.isEmpty ∨ (globalDns.lookupDomain "*").isSome) ↔
      (HasSearches value ∨ HasOptions value ∨ (∀ name, ¬ HasDomain inetIsValid value name) ∨
        HasDomain inetIsValid value "*") := by
  obtain ⟨rfl, hchecked⟩ := sealedConfig_fromDbus h
  have hsealed := sealedConfig_sealDomains (cleanConfig_readEntries inetIsValid value)
  have hdomain : ∀ name, ((readEntries inetIsValid value).sealDomains.lookupDomain name).isSome ↔
      HasDomain inetIsValid value name := isSome_lookupDomain_readEntries value
  have hsearches := isSome_searches_readEntries inetIsValid value
  have hoptions := isSome_options_readEntries inetIsValid value
  have hnodomains : (readEntries inetIsValid value).sealDomains.domains = [] ↔
      ∀ name, ¬ HasDomain inetIsValid value name := by
    simp only [← hdomain, NMGlobalDnsConfig.lookupDomain, lookup_isSome_iff]
    constructor
    · intro hnil
      simp [hnil]
    · intro hno
      exact eq_nil_iff_forall_not_mem.mpr fun d hd => hno d.name ⟨d, hd, rfl⟩
  have hread : (readEntries inetIsValid value).isEmpty ↔
      ¬ HasSearches value ∧ ¬ HasOptions value := by
    rw [← hsearches, ← hoptions]
    simp [NMGlobalDnsConfig.isEmpty, domainList_readEntries]
  have hseal : (readEntries inetIsValid value).sealDomains.isEmpty ↔
      ¬ HasSearches value ∧ ¬ HasOptions value ∧ ∀ name, ¬ HasDomain inetIsValid value name := by
    rw [hsealed.isEmpty_iff, hnodomains, ← hsearches, ← hoptions]
    simp [NMGlobalDnsConfig.sealDomains]
  rw [hread] at hchecked
  rw [hseal, hdomain] at *
  grind

/-- An accepted configuration takes effect as it is if and only if it has the default domain
wherever it has any. -/
theorem globalDns_takesEffect_iff (inetIsValid : Bytes → Bool) (value : BusDict)
    (globalDns : NMGlobalDnsConfig) (self : NMConfig)
    (h : globalDnsConfigFromDbus inetIsValid value = some globalDns)
    (hnames : ∀ domain ∈ globalDns.domains, isGroupName domain.name)
    (huser : loadGlobalDns inetIsValid self.keyfileUser false = none)
    (hmarked : AtomicMarked self) :
    ((globalDns.isEmpty ∨ (globalDns.lookupDomain "*").isSome) ∧
      ∃ self' changes, configSetGlobalDns inetIsValid self globalDns = some (self', changes) ∧
        (if globalDns.isEmpty then self'.getGlobalDnsConfig inetIsValid = none
        else ∃ loaded, self'.getGlobalDnsConfig inetIsValid = some loaded ∧
          SameGlobalDns loaded globalDns) ∧
        (∀ group key, isGlobalDnsGroup group = false →
          internValue self' group key = internValue self group key) ∧
        configSetGlobalDns inetIsValid self' globalDns = some (self', none)) ↔
      (HasSearches value ∨ HasOptions value ∨ (∀ name, ¬ HasDomain inetIsValid value name) ∨
        HasDomain inetIsValid value "*") := by
  rw [← hasDefault_iff h, and_iff_left_iff_imp]
  intro hdefault
  obtain ⟨hread, -⟩ := sealedConfig_fromDbus h
  have hsealed : SealedConfig inetIsValid globalDns :=
    hread ▸ sealedConfig_sealDomains (cleanConfig_readEntries inetIsValid value)
  have hnodup := hsealed.nodup
  obtain ⟨self', changes, hresult, hset⟩ := configSetGlobalDns_setTo globalDns huser
  refine ⟨self', changes, hresult, ?_, ?_, configSetGlobalDns_again hnodup huser hset⟩
  · have hload : self'.getGlobalDnsConfig inetIsValid =
        loadGlobalDns inetIsValid self'.keyfileIntern true := by
      rw [NMConfig.getGlobalDnsConfig, hset.user, huser, Option.none_or]
    have hgroups := groups_newKeyfileIntern self hnodup
    have hothers : ∀ g ∈ (internGroups self).filter fun g => !isGlobalDnsGroup g.1,
        isGlobalDnsGroup g.1 = false := fun g hg => by simpa using (mem_filter.mp hg).2
    rw [hload]
    split_ifs with hempty
    · rcases hset.intern with hintern | ⟨hintern, -⟩
      · rw [hintern]
        exact loadGlobalDns_empty hgroups hothers hempty
      · rw [hintern]
        rfl
    · have hname : ∀ domain ∈ globalDns.domains, domain.name ≠ "" := by
        intro domain hdomain hnil
        have hgroup := hnames domain hdomain
        rw [hnil] at hgroup
        cases hgroup
      obtain ⟨loaded, hloaded, hsame⟩ := loadGlobalDns_stored hsealed hname hgroups hothers
        (by simpa using hempty) (hdefault.resolve_left hempty)
      rcases hset.intern with hintern | ⟨-, hnil⟩
      · rw [hintern]
        exact ⟨loaded, hloaded, hsame⟩
      · rw [getGroups, hgroups, storedGroups, if_neg hempty] at hnil
        simp at hnil
  · intro group key hglobal
    rw [internValue_of_setTo hset]
    exact getValue_newKeyfileIntern hmarked hnodup hglobal key

def exampleServer : BusString := ⟨ascii "192.0.2.1", by decide +kernel⟩

def exampleValue (name : String) : BusDict :=
  [("domains", .dict [(name, .dict [("servers", .strv [exampleServer])])])]

theorem globalDns_takesEffect_default :
    ∃ globalDns, globalDnsConfigFromDbus (· = exampleServer.1) (exampleValue "*") =
        some globalDns ∧
      ((globalDns.isEmpty ∨ (globalDns.lookupDomain "*").isSome) ∧
        ∃ self' changes, configSetGlobalDns (· = exampleServer.1) ⟨none, none, []⟩ globalDns =
            some (self', changes) ∧
          (if globalDns.isEmpty then self'.getGlobalDnsConfig (· = exampleServer.1) = none
          else ∃ loaded, self'.getGlobalDnsConfig (· = exampleServer.1) = some loaded ∧
            SameGlobalDns loaded globalDns) ∧
          (∀ group key, isGlobalDnsGroup group = false →
            internValue self' group key = internValue ⟨none, none, []⟩ group key) ∧
          configSetGlobalDns (· = exampleServer.1) self' globalDns = some (self', none)) := by
  have hfacts : (globalDnsConfigFromDbus (· = exampleServer.1) (exampleValue "*")).any
      fun globalDns => globalDns.domains.all fun domain => isGroupName domain.name := by
    decide +kernel
  obtain ⟨globalDns, hread, hnames⟩ := (Option.any_eq_true _ _).mp hfacts
  refine ⟨globalDns, hread, (globalDns_takesEffect_iff _ _ globalDns ⟨none, none, []⟩ hread ?_ rfl
    ?_).mpr ?_⟩
  · simpa using hnames
  · simp [AtomicMarked]
  · refine .inr (.inr (.inr ⟨_, mem_singleton_self _, _, rfl, _, mem_singleton_self _, _,
      rfl, _, mem_singleton_self _, _, rfl, exampleServer, mem_singleton_self _, ?_⟩))
    decide +kernel

/-- A configuration without default domain is accepted. -/
theorem globalDns_accepted_without_default :
    ¬ ∀ (value : BusDict) (globalDns : NMGlobalDnsConfig),
      globalDnsConfigFromDbus (· = exampleServer.1) value = some globalDns →
      (∀ domain ∈ globalDns.domains, isGroupName domain.name) →
      globalDns.isEmpty ∨ (globalDns.lookupDomain "*").isSome := by
  intro h
  have hfacts : (globalDnsConfigFromDbus (· = exampleServer.1) (exampleValue "example.com")).any
      fun globalDns => (globalDns.domains.all fun domain => isGroupName domain.name) &&
        !globalDns.isEmpty && (globalDns.lookupDomain "*").isNone := by
    decide +kernel
  obtain ⟨globalDns, hread, hfacts⟩ := (Option.any_eq_true _ _).mp hfacts
  simp only [Bool.and_eq_true, all_eq_true, Bool.not_eq_true'] at hfacts
  obtain ⟨⟨hnames, hempty⟩, hdefault⟩ := hfacts
  rcases h _ globalDns hread hnames with hcase | hcase
  · rw [hempty] at hcase
    cases hcase
  · rw [Option.isNone_iff_eq_none.mp hdefault] at hcase
    cases hcase

end NetworkManager.Core
