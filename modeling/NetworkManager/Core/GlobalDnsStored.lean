import NetworkManager.Core.ConfigCopy
import NetworkManager.Core.GlobalDnsValues

/-!
# The groups in which a global DNS configuration is stored

Setting a configuration replaces its groups in the internal key file, which come last, and leaves
the others.
-/

namespace NetworkManager.Core

open Lib KeyFile List

/-- The groups of a key file as a list. -/
abbrev ConfigGroup := KeyFileGroup String String Bytes

variable {keyfile : ConfigKeyfile} {globalDns : NMGlobalDnsConfig} {prefixes : List String}
  {inetIsValid : Bytes → Bool}

def isGlobalDnsGroup (group : String) : Bool :=
  group = groupGlobalDns true || strHasPrefix group (groupPrefixGlobalDnsDomain true)

/-! ## The stored groups -/

def rawStringList (strv : List Bytes) : Bytes :=
  let value := keyFileSetStringList listSeparator strv
  if value.getLast? = some listSeparator then value.dropLast else value

theorem isListSeparator_comma : IsListSeparator listSeparator := by
  constructor <;> decide

theorem rawStringList_concat (items : List Bytes) (item : Bytes) :
    rawStringList (items ++ [item]) = keyFileSetStringList listSeparator items ++
      escapeKeyFileString (some listSeparator) true item := by
  have hlast : (keyFileSetStringList listSeparator (items ++ [item])).getLast? =
      some listSeparator := by simp [keyFileSetStringList]
  dsimp only [rawStringList]
  rw [if_pos hlast, dropLast_setStringList]

theorem isUtf8_rawStringList_concat {items : List Bytes} {item : Bytes}
    (h : ∀ s ∈ items ++ [item], isUtf8 s) : isUtf8 (rawStringList (items ++ [item])) := by
  have hitem := h item (by simp)
  have htext := isUtf8_setStringList isListSeparator_comma fun i hi =>
    h i (mem_append_left [item] hi)
  have hsep : ∀ b ∈ some listSeparator, isNonAscii b = false := by decide
  have htext' := isUtf8_escapeKeyFileString true hsep hitem
  rw [isUtf8_iff] at htext htext'
  rw [rawStringList_concat]
  exact isUtf8_iff.mpr ⟨htext.1.append htext'.1, nulFree_append.mpr ⟨htext.2, htext'.2⟩⟩

theorem getStringList_rawStringList {strv : List Bytes}
    (h : ∀ s ∈ strv, s ≠ [] ∧ isUtf8 s) :
    keyFileGetStringList listSeparator (rawStringList strv) = some strv := by
  rcases eq_nil_or_concat' strv with rfl | ⟨items, item, rfl⟩
  · decide +kernel
  · rw [keyFileGetStringList, if_pos (isUtf8_rawStringList_concat fun s hs => (h s hs).2),
      rawStringList_concat]
    exact splitPieces_setStringList isListSeparator_comma (h item (by simp)).1

def listsGroup (group key : String) (strv : List Bytes) (key' : String) (strv' : List Bytes) :
    ConfigGroup :=
  (group, [(key, rawStringList strv), (key', rawStringList strv')])

def globalEntry (globalDns : NMGlobalDnsConfig) : ConfigGroup :=
  listsGroup (groupGlobalDns true) "searches" (globalDns.searches.getD [])
    "options" (globalDns.options.getD [])

def domainEntry (domain : NMGlobalDnsDomain) : ConfigGroup :=
  listsGroup (groupPrefixGlobalDnsDomain true ++ domain.name) "servers" domain.servers
    "options" (domain.options.getD [])

def storedDomains (globalDns : NMGlobalDnsConfig) : List NMGlobalDnsDomain :=
  globalDns.domainList.filterMap globalDns.lookupDomain

def storedGroups (globalDns : NMGlobalDnsConfig) : List ConfigGroup :=
  if globalDns.isEmpty then []
  else globalEntry globalDns :: (storedDomains globalDns).map domainEntry

theorem groups_setLists {group key key' : String} (strv strv' : List Bytes)
    (h : keyfile.hasGroup group = false) (hne : key ≠ key') :
    (keyfileSetStringList (keyfileSetStringList keyfile group key strv) group key' strv').groups =
      keyfile.groups ++ [listsGroup group key strv key' strv'] := by
  have hunique : KeyUnique Prod.fst [(key, rawStringList strv), (key', rawStringList strv')] := by
    simp [KeyUnique, hne]
  exact groups_foldl_setValue h hunique (cons_ne_nil _ _)

theorem toList_injective_append {pre a b : String} (h : pre ++ a = pre ++ b) : a = b := by
  apply String.toList_inj.mp
  have hlist := congrArg String.toList h
  rw [String.toList_append, String.toList_append] at hlist
  exact append_cancel_left hlist

theorem strHasPrefix_append (pre s : String) : strHasPrefix (pre ++ s) pre := by
  simp [strHasPrefix, afterPrefix]

theorem afterPrefix_append (pre s : String) : afterPrefix pre (pre ++ s) = some s := by
  rw [afterPrefix, if_pos (by simp)]
  simp [← String.length_toList, String.toList_append]

theorem groups_foldl_setDomainGroup {names : List String} (hnodup : names.Nodup)
    (h : ∀ name ∈ names, keyfile.hasGroup (groupPrefixGlobalDnsDomain true ++ name) = false) :
    (names.foldl (setDomainGroup globalDns) keyfile).groups =
      keyfile.groups ++ (names.filterMap globalDns.lookupDomain).map domainEntry := by
  induction names generalizing keyfile with
  | nil => simp
  | cons name names ih =>
    obtain ⟨hname, hnodup⟩ := nodup_cons.mp hnodup
    rw [foldl_cons, filterMap_cons]
    cases hdomain : globalDns.lookupDomain name with
    | none =>
      have hstep : setDomainGroup globalDns keyfile name = keyfile := by
        simp [setDomainGroup, hdomain]
      rw [hstep]
      exact ih hnodup fun n hn => h n (mem_cons_of_mem name hn)
    | some domain =>
      have hkey : domain.name = name := key_of_lookup hdomain
      have hnew := h name mem_cons_self
      rw [← hkey] at hnew
      have hgroups : (setDomainGroup globalDns keyfile name).groups =
          keyfile.groups ++ [domainEntry domain] := by
        rw [setDomainGroup, hdomain]
        exact groups_setLists domain.servers (domain.options.getD []) hnew
          (show "servers" ≠ "options" by decide)
      rw [ih hnodup, hgroups]
      · simp
      · intro n hn
        have hold := h n (mem_cons_of_mem name hn)
        rw [← Bool.not_eq_true, hasGroup_iff] at hold ⊢
        rw [getGroups, hgroups]
        simp only [map_append, map_singleton, mem_append, mem_singleton,
          not_or]
        refine ⟨hold, fun heq => ?_⟩
        have hsame := toList_injective_append heq
        rw [hkey] at hsame
        exact hname (hsame ▸ hn)

theorem isGlobalDnsGroup_domainEntry (domain : NMGlobalDnsDomain) :
    isGlobalDnsGroup (domainEntry domain).1 := by
  have hprefix := strHasPrefix_append (groupPrefixGlobalDnsDomain true) domain.name
  simp [isGlobalDnsGroup, domainEntry, listsGroup, hprefix]

theorem isGlobalDnsGroup_storedGroups : ∀ g ∈ storedGroups globalDns, isGlobalDnsGroup g.1 := by
  intro g hg
  unfold storedGroups at hg
  split_ifs at hg
  · cases hg
  · rcases mem_cons.mp hg with rfl | hg
    · rfl
    · obtain ⟨domain, -, rfl⟩ := mem_map.mp hg
      exact isGlobalDnsGroup_domainEntry domain

theorem groups_setGlobalDnsGroups (hnodup : globalDns.domainList.Nodup)
    (h : ∀ group, isGlobalDnsGroup group → keyfile.hasGroup group = false)
    (hne : globalDns.isEmpty = false) :
    (setGlobalDnsGroups globalDns keyfile).groups = keyfile.groups ++ storedGroups globalDns := by
  have hgroups := groups_setLists (globalDns.searches.getD []) (globalDns.options.getD [])
    (h (groupGlobalDns true) rfl) (show "searches" ≠ "options" by decide)
  unfold setGlobalDnsGroups
  dsimp only
  rw [groups_foldl_setDomainGroup hnodup, hgroups, storedGroups, if_neg (by simp [hne])]
  · simp [globalEntry, storedDomains]
  · intro name _
    have hprefix := strHasPrefix_append (groupPrefixGlobalDnsDomain true) name
    have hold := h (groupPrefixGlobalDnsDomain true ++ name) (by simp [isGlobalDnsGroup, hprefix])
    have hnot : ¬ strHasPrefix (groupGlobalDns true) (groupPrefixGlobalDnsDomain true) := by decide
    rw [← Bool.not_eq_true, hasGroup_iff] at hold ⊢
    rw [getGroups, hgroups]
    simp only [map_append, map_singleton, mem_append, mem_singleton, not_or]
    refine ⟨hold, fun heq => hnot ?_⟩
    have heq' : groupPrefixGlobalDnsDomain true ++ name = groupGlobalDns true := heq
    rw [← heq']
    exact hprefix

variable (keyfile) in
theorem groups_removeGlobalDns :
    (removeGlobalDns keyfile).groups = keyfile.groups.filter fun g => !isGlobalDnsGroup g.1 := by
  have hremove : (keyfile.removeGroup (groupGlobalDns true)).groups =
      keyfile.groups.filter fun g => g.1 ≠ groupGlobalDns true := rfl
  unfold removeGlobalDns
  dsimp only
  rw [groups_foldl_removeGroup, hremove, filter_filter]
  apply filter_congr
  intro g hg
  have hname : g.1 ∈ keyfile.groups.map Prod.fst := mem_map_of_mem hg
  unfold isGlobalDnsGroup
  by_cases hglobal : g.1 = groupGlobalDns true
  · simp [hglobal]
  · have hmem : g.1 ∈ (keyfile.removeGroup (groupGlobalDns true)).getGroups := by
      rw [getGroups, hremove]
      exact mem_map_of_mem (mem_filter.mpr ⟨hg, by simpa using hglobal⟩)
    simp [hglobal, hmem]

/-! ## The markers -/

def markGroup (prefixes : List String) (g : ConfigGroup) : ConfigGroup :=
  if isAtomicSection prefixes g.1 then (g.1, upsert Prod.fst (keyAtomicSectionWas, []) g.2) else g

theorem fst_markGroup (g : ConfigGroup) : (markGroup prefixes g).1 = g.1 := by
  unfold markGroup
  split_ifs <;> rfl

theorem lookup_markGroup {g : ConfigGroup} {key : String} (hkey : key ≠ keyAtomicSectionWas) :
    lookup Prod.fst key (markGroup prefixes g).2 = lookup Prod.fst key g.2 := by
  unfold markGroup
  split_ifs
  · exact lookup_upsert.trans (if_neg hkey)
  · rfl

theorem upsert_upsert_self (pair : String × Bytes) (l : List (String × Bytes))
    (h : KeyUnique Prod.fst l) :
    upsert Prod.fst pair (upsert Prod.fst pair l) = upsert Prod.fst pair l := by
  have hunique := h.upsert (x := pair)
  have hsome : (lookup Prod.fst pair.1 (upsert Prod.fst pair l)).isSome := by simp
  rw [upsert, if_pos hsome, modifyKey]
  apply (map_congr_left fun p hp => ?_).trans (map_id' _)
  split_ifs with heq
  · have hlookup := lookup_of_mem hunique hp
    rw [heq, lookup_upsert, if_pos rfl] at hlookup
    exact Option.some.inj hlookup
  · rfl

theorem markGroup_markGroup {g : ConfigGroup} (h : KeyUnique Prod.fst g.2) :
    markGroup prefixes (markGroup prefixes g) = markGroup prefixes g := by
  by_cases hatomic : isAtomicSection prefixes g.1
  · have hmark : markGroup prefixes g =
        (g.1, upsert Prod.fst (keyAtomicSectionWas, []) g.2) := if_pos hatomic
    rw [hmark, markGroup, if_pos hatomic, upsert_upsert_self _ _ h]
  · have hmark : markGroup prefixes g = g := if_neg hatomic
    rw [hmark, hmark]

theorem groups_markAtomicSections :
    (markAtomicSections prefixes keyfile).groups = keyfile.groups.map (markGroup prefixes) := by
  rw [markAtomicSections, groups_foldl_setValue_groups]
  · apply map_congr_left
    intro g hg
    have hmem : g.1 ∈ keyfile.getGroups := mem_map_of_mem hg
    simp [markGroup, hmem]
  · intro g hg
    exact hasGroup_iff.mpr (mem_filter.mp hg).1
  · exact nodup_getGroups.filter _

end NetworkManager.Core
