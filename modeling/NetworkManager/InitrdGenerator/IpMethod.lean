import NetworkManager.GlibAux.Strv
import Mathlib.Data.Fintype.Powerset

/-!
# Methods of the command line argument "ip="

A method is one of six kinds, or one of a few other names for them, or several of those with commas
between. `_parse_ip_method()` turns several into one kind, which is to depend on which kinds there
are, and not on kinds that are part of another one.
-/

namespace NetworkManager.InitrdGenerator

open Lib GlibAux NetworkManager.Core List

/-! ## The program -/

def kinds : List Bytes :=
  [ascii "none", ascii "dhcp", ascii "dhcp6", ascii "link6", ascii "auto", ascii "ibft"]

/-- The names that are treated as aliases. -/
def kindAlias (kind : Bytes) : Option Bytes :=
  if kind = ascii "fw" then some (ascii "ibft")
  else if kind = ascii "single-dhcp" then some (ascii "dhcp")
  else if kind = ascii "off" then some (ascii "none")
  else if kind = ascii "auto6" then some (ascii "dhcp6")
  else if kind = ascii "on" ∨ kind = ascii "any" then some (ascii "auto")
  else none

def strvRemove (strv : List Bytes) (needle : Bytes) : List Bytes := strv.erase needle

/-- `_parse_ip_method()` removes what is implied, by the names "dhcp4" and "local6". -/
def removeImplied (strv : List Bytes) : List Bytes :=
  if ascii "auto" ∈ strv then
    strvRemove (strvRemove (strvRemove strv (ascii "dhcp4")) (ascii "dhcp6")) (ascii "local6")
  else if ascii "dhcp6" ∈ strv then strvRemove strv (ascii "local6")
  else strv

/-- The combinations of several kinds that `_parse_ip_method()` allows. -/
def combinePair (strv : List Bytes) : Option Bytes :=
  if strvIsSameUnordered strv [ascii "dhcp", ascii "dhcp6"] then some (ascii "dhcp4+auto6")
  else if strvIsSameUnordered strv [ascii "dhcp", ascii "local6"] then some (ascii "auto")
  else none

/-- What `_parse_ip_method()` makes of several kinds, which are sorted and without repetitions. -/
def combineKinds (strv : List Bytes) : Option Bytes :=
  match removeImplied strv with
  | [kind] => some kind
  | strv => combinePair strv

/-- `_parse_ip_method()` of several names, with what it calls for each of them. -/
def parseIpMethods (parse : Bytes → Option Bytes) (kind : Bytes) : Option Bytes :=
  match strsplitSetFull (ascii ",") ⟨false, false, true, false⟩ (some kind) with
  | none => none
  | some strv =>
    match strv.mapM parse with
    | none => none
    | some strv => combineKinds (strvCleanupConst (strvSort strv) true true)

/-- The body of `_parse_ip_method()`. -/
def parseIpMethodWith (parse : Bytes → Option Bytes) (kind : Bytes) : Option Bytes :=
  let kind := strstrip kind
  if kind = [] then some (ascii "auto")
  else if kind ∈ kinds then some kind
  else
    match kindAlias kind with
    | some k => some k
    | none => if (',' : UInt8) ∉ kind then none else parseIpMethods parse kind

/-- `_parse_ip_method()`, of which the recursion ends at the first level (`parseIpMethod_eq`). -/
def parseIpMethod : Bytes → Option Bytes := parseIpMethodWith (parseIpMethodWith fun _ => none)

/-! ## The recursion -/

theorem comma_notMem_kinds : ∀ kind ∈ kinds, (',' : UInt8) ∉ kind := by decide

theorem kindAlias_comma {kind : Bytes} (h : (',' : UInt8) ∈ kind) : kindAlias kind = none := by
  have hne {name : Bytes} (hname : (',' : UInt8) ∉ name) : kind ≠ name := fun heq => hname (heq ▸ h)
  rw [kindAlias, if_neg (hne (by decide)), if_neg (hne (by decide)), if_neg (hne (by decide)),
    if_neg (hne (by decide)), if_neg]
  rintro (heq | heq)
  · exact hne (by decide) heq
  · exact hne (by decide) heq

theorem comma_mem_of_strstrip {kind : Bytes} (h : (',' : UInt8) ∈ strstrip kind) :
    (',' : UInt8) ∈ kind :=
  (dropWhile_sublist isSpace).subset (( rdropWhile_prefix isSpace _).subset h)

theorem parseIpMethodWith_congr {kind : Bytes} (h : (',' : UInt8) ∉ kind)
    (parse parse' : Bytes → Option Bytes) :
    parseIpMethodWith parse kind = parseIpMethodWith parse' kind := by
  have hstrip : (',' : UInt8) ∉ strstrip kind := fun hmem => h (comma_mem_of_strstrip hmem)
  simp only [parseIpMethodWith, if_pos hstrip]

theorem parseIpMethodWith_comma {kind : Bytes} (h : (',' : UInt8) ∈ strstrip kind)
    (parse : Bytes → Option Bytes) :
    parseIpMethodWith parse kind = parseIpMethods parse (strstrip kind) := by
  have hnil : strstrip kind ≠ [] := ne_nil_of_mem h
  have hkinds : strstrip kind ∉ kinds := fun hmem => comma_notMem_kinds _ hmem h
  simp [parseIpMethodWith, hnil, hkinds, kindAlias_comma h, h]

theorem parseIpMethods_eq (parse : Bytes → Option Bytes) (kind : Bytes) :
    parseIpMethods parse kind =
      if strippedParts ',' kind = [] then none
      else ((strippedParts ',' kind).mapM parse).bind fun strv =>
        combineKinds (strvCleanupConst (strvSort strv) true true) := by
  have hcomma : ascii "," = [(',' : UInt8)] := rfl
  rw [parseIpMethods, hcomma, strsplitSetFull_strstrip]
  split_ifs
  · rfl
  · dsimp only
    cases (strippedParts ',' kind).mapM parse <;> rfl

theorem parseIpMethods_congr {parse parse' : Bytes → Option Bytes}
    (h : ∀ s, (',' : UInt8) ∉ s → parse s = parse' s) (kind : Bytes) :
    parseIpMethods parse kind = parseIpMethods parse' kind := by
  have hmapM {strv : List Bytes} (hstrv : ∀ s ∈ strv, (',' : UInt8) ∉ s) :
      strv.mapM parse = strv.mapM parse' := by
    induction strv with
    | nil => rfl
    | cons s strv ih =>
      obtain ⟨hs, hstrv⟩ := forall_mem_cons.mp hstrv
      rw [mapM_cons, mapM_cons, h s hs, ih hstrv]
  rw [parseIpMethods_eq, parseIpMethods_eq, hmapM fun s hs => not_mem_of_mem_strippedParts hs]

theorem parseIpMethod_eq (kind : Bytes) :
    parseIpMethod kind = parseIpMethodWith parseIpMethod kind := by
  by_cases h : (',' : UInt8) ∈ strstrip kind
  · rw [parseIpMethod, parseIpMethodWith_comma h, parseIpMethodWith_comma h]
    apply parseIpMethods_congr
    intro s hs
    exact parseIpMethodWith_congr hs _ _
  · simp only [parseIpMethod, parseIpMethodWith, if_pos h]

/-! ## Methods and their names -/

/-- What a name stands for. -/
inductive IpMethod
  | none
  | dhcp
  | dhcp6
  | link6
  | auto
  | ibft
  deriving DecidableEq

namespace IpMethod

def kind : IpMethod → Bytes
  | none => ascii "none"
  | dhcp => ascii "dhcp"
  | dhcp6 => ascii "dhcp6"
  | link6 => ascii "link6"
  | auto => ascii "auto"
  | ibft => ascii "ibft"

/-- The kind and its aliases. -/
def names : IpMethod → List Bytes
  | none => [ascii "none", ascii "off"]
  | dhcp => [ascii "dhcp", ascii "single-dhcp"]
  | dhcp6 => [ascii "dhcp6", ascii "auto6"]
  | link6 => [ascii "link6"]
  | auto => [ascii "auto", ascii "on", ascii "any"]
  | ibft => [ascii "ibft", ascii "fw"]

def all : List IpMethod := [none, dhcp, dhcp6, link6, auto, ibft]

theorem mem_all (m : IpMethod) : m ∈ all := by cases m <;> decide

theorem nodup_all : all.Nodup := by decide

instance : Fintype IpMethod := ⟨⟨all, nodup_all⟩, mem_all⟩

theorem kind_injective : Function.Injective kind := by decide

theorem names_disjoint : ∀ m m' : IpMethod, ∀ name ∈ m.names, name ∈ m'.names → m = m' := by decide

end IpMethod

/-- The methods that the text names, one or more of which it is a list of. -/
structure NamesMethods (text : Bytes) (s : Finset IpMethod) : Prop where
  recognised : ∀ name ∈ strippedParts ',' text, ∃ m ∈ s, name ∈ m.names
  named : ∀ m ∈ s, ∃ name ∈ strippedParts ',' text, name ∈ m.names

instance (text : Bytes) (s : Finset IpMethod) : Decidable (NamesMethods text s) :=
  decidable_of_iff ((∀ name ∈ strippedParts ',' text, ∃ m ∈ s, name ∈ m.names) ∧
    ∀ m ∈ s, ∃ name ∈ strippedParts ',' text, name ∈ m.names)
    ⟨fun h => ⟨h.1, h.2⟩, fun h => ⟨h.1, h.2⟩⟩

theorem IpMethod.strstrip_name : ∀ m : IpMethod, ∀ name ∈ m.names, strstrip name = name := by decide

theorem IpMethod.kind_ne_nil : ∀ m : IpMethod, m.kind ≠ [] := by decide

theorem parseIpMethodWith_name (parse : Bytes → Option Bytes) {m : IpMethod} {name : Bytes}
    (h : strstrip name ∈ m.names) : parseIpMethodWith parse name = some m.kind := by
  rw [parseIpMethodWith]
  generalize strstrip name = name at h
  cases m <;>
    simp only [IpMethod.names, mem_cons, not_mem_nil, or_false] at h <;>
    rcases h with rfl | rfl | rfl <;> rfl

def outcome (s : Finset IpMethod) : Option Bytes :=
  combineKinds ((IpMethod.all.filter (· ∈ s)).map IpMethod.kind)

variable {strv' strv : List Bytes}

theorem removeImplied_perm (h : strv.Perm strv') :
    (removeImplied strv).Perm (removeImplied strv') := by
  simp only [removeImplied, h.mem_iff, strvRemove]
  split_ifs
  · exact ((h.erase _).erase _).erase _
  · exact h.erase _
  · exact h

theorem combinePair_perm (h : strv.Perm strv') : combinePair strv = combinePair strv' := by
  have hsame (other : List Bytes) :
      strvIsSameUnordered strv other = strvIsSameUnordered strv' other := by
    rw [Bool.eq_iff_iff, strvIsSameUnordered_iff, strvIsSameUnordered_iff]
    exact h.congr_left other
  rw [combinePair, combinePair, hsame, hsame]

theorem combineKinds_perm (h : strv.Perm strv') : combineKinds strv = combineKinds strv' := by
  have hremoved := removeImplied_perm h
  rw [combineKinds, combineKinds]
  split
  · next kind hkind =>
    rw [hkind, singleton_perm] at hremoved
    rw [← hremoved]
  · next hne =>
    split
    · next kind hkind =>
      rw [hkind] at hremoved
      exact absurd (perm_singleton.mp hremoved) (hne kind)
    · exact combinePair_perm hremoved

/-! ## What a list of names becomes -/

section Lists

variable {text : Bytes} {s : Finset IpMethod}

theorem NamesMethods.parts_ne_nil (h : NamesMethods text s) (hs : s.Nonempty) :
    strippedParts ',' text ≠ [] := by
  obtain ⟨m, hm⟩ := hs
  obtain ⟨name, hname, -⟩ := h.named m hm
  exact ne_nil_of_mem hname

theorem mapM_parse {parse : Bytes → Option Bytes} {names : List Bytes}
    (h : ∀ name ∈ names, ∃ kind, parse name = some kind) :
    ∃ strv, names.mapM parse = some strv ∧
      ∀ kind, kind ∈ strv ↔ ∃ name ∈ names, parse name = some kind := by
  induction names with
  | nil => exact ⟨[], rfl, by simp⟩
  | cons name names ih =>
    obtain ⟨⟨kind, hparse⟩, hnames⟩ := forall_mem_cons.mp h
    obtain ⟨strv, hstrv, hmem⟩ := ih hnames
    exact ⟨kind :: strv, by simp [mapM_cons, hparse, hstrv], by simp [hmem, hparse, eq_comm]⟩

theorem parseIpMethod_of_comma (h : NamesMethods text s) (hs : s.Nonempty)
    (hcomma : (',' : UInt8) ∈ strstrip text) : parseIpMethod text = outcome s := by
  have hname {m : IpMethod} {name : Bytes} (hm : name ∈ m.names) :
      parseIpMethod name = some m.kind :=
    parseIpMethodWith_name _ (by rwa [m.strstrip_name name hm])
  obtain ⟨strv, hstrv, hmem⟩ := @mapM_parse parseIpMethod _ fun name hmem => by
    obtain ⟨m, -, hm⟩ := h.recognised name hmem
    exact ⟨m.kind, hname hm⟩
  rw [parseIpMethod_eq, parseIpMethodWith_comma hcomma, parseIpMethods_eq,
    strippedParts_strstrip (by decide), if_neg (h.parts_ne_nil hs), hstrv]
  apply combineKinds_perm
  refine (perm_ext_iff_of_nodup nodup_strvCleanupConst
    ((IpMethod.nodup_all.filter _).map IpMethod.kind_injective)).mpr fun kind => ?_
  rw [mem_strvCleanupConst, (strvSort_perm strv).mem_iff, hmem, mem_map]
  constructor
  · rintro ⟨⟨name, hmem, hkind⟩, -⟩
    obtain ⟨m, hms, hm⟩ := h.recognised name hmem
    refine ⟨m, by simpa [m.mem_all] using hms, ?_⟩
    exact Option.some.inj ((hname hm).symm.trans hkind)
  · rintro ⟨m, hms, rfl⟩
    obtain ⟨name, hmem, hm⟩ := h.named m (by simpa using (mem_filter.mp hms).2)
    exact ⟨⟨name, hmem, hname hm⟩, m.kind_ne_nil⟩

theorem outcome_singleton : ∀ m : IpMethod, outcome {m} = some m.kind := by decide

theorem parseIpMethod_of_not_comma (h : NamesMethods text s) (hs : s.Nonempty)
    (hcomma : (',' : UInt8) ∉ strstrip text) : parseIpMethod text = outcome s := by
  have hparts : strippedParts ',' text = [strstrip text] := by
    have hne := h.parts_ne_nil hs
    rw [← strippedParts_strstrip (by decide), strippedParts_of_not_mem hcomma, strstrip_strstrip] at hne ⊢
    split_ifs at hne ⊢
    · exact absurd rfl hne
    · rfl
  obtain ⟨m, hms, hm⟩ := h.recognised (strstrip text) (by simp [hparts])
  have hsingle : s = {m} := by
    refine Finset.eq_singleton_iff_unique_mem.mpr ⟨hms, fun m' hm's => ?_⟩
    obtain ⟨name, hname, hm'⟩ := h.named m' hm's
    rw [hparts, mem_singleton] at hname
    exact m'.names_disjoint m _ hm' (hname ▸ hm)
  rw [hsingle, outcome_singleton]
  exact parseIpMethodWith_name _ hm

theorem parseIpMethod_eq_outcome (h : NamesMethods text s) (hs : s.Nonempty) :
    parseIpMethod text = outcome s := by
  by_cases hcomma : (',' : UInt8) ∈ strstrip text
  · exact parseIpMethod_of_comma h hs hcomma
  · exact parseIpMethod_of_not_comma h hs hcomma

end Lists

/-! ## Lists as sets -/

section Sets

open IpMethod

def implied (s : Finset IpMethod) : Finset IpMethod :=
  if auto ∈ s then {dhcp, dhcp6, link6} else if dhcp6 ∈ s then {link6} else ∅

/-- The list is understood as the set of its methods, of which implied ones make no difference. -/
structure UnderstoodAsSet (text : Bytes) (s : Finset IpMethod) : Prop where
  set_only : ∀ text', NamesMethods text' s → parseIpMethod text' = parseIpMethod text
  without_implied : ∀ t ⊆ implied s, ∀ text', NamesMethods text' (s \ t) →
    parseIpMethod text' = parseIpMethod text
  with_auto : auto ∈ s → s ⊆ {auto, dhcp, dhcp6, link6} → parseIpMethod text = some auto.kind
  with_dhcp6 : dhcp6 ∈ s → s ⊆ {dhcp6, link6} → parseIpMethod text = some dhcp6.kind
  single : ∀ m, s = {m} → parseIpMethod text = some m.kind

/-- A method for DHCPv4 or link-local addresses stands beside one that implies it only where a method
that cannot be combined stands too. -/
structure NothingToRemove (s : Finset IpMethod) : Prop where
  nonempty : s.Nonempty
  with_auto : auto ∈ s → dhcp ∈ s ∨ link6 ∈ s → IpMethod.none ∈ s ∨ ibft ∈ s
  with_dhcp6 : auto ∉ s → dhcp6 ∈ s → link6 ∈ s → IpMethod.none ∈ s ∨ ibft ∈ s

/-- What the implied methods change, over all sets of methods. -/
theorem outcome_sets :
    (∀ s : Finset IpMethod, s.Nonempty →
      (auto ∈ s → dhcp ∈ s ∨ link6 ∈ s → IpMethod.none ∈ s ∨ ibft ∈ s) →
      (auto ∉ s → dhcp6 ∈ s → link6 ∈ s → IpMethod.none ∈ s ∨ ibft ∈ s) →
      ∀ t ⊆ implied s, (s \ t).Nonempty ∧ outcome (s \ t) = outcome s) ∧
    (∀ s : Finset IpMethod, auto ∈ s → s ⊆ {auto, dhcp, dhcp6, link6} →
      (outcome s = some auto.kind ↔ dhcp ∉ s ∧ link6 ∉ s)) ∧
    (∀ s : Finset IpMethod, dhcp6 ∈ s → s ⊆ {dhcp6, link6} →
      (outcome s = some dhcp6.kind ↔ link6 ∉ s)) ∧
    {link6} ⊆ implied {dhcp, dhcp6, link6} := by
  refine ⟨?_, ?_, ?_, ?_⟩ <;> decide +kernel

/-- Names with commas between them, and what some of them are made of. -/
theorem namesMethods_texts :
    NamesMethods (ascii ",") ∅ ∧ NamesMethods [] ∅ ∧
      NamesMethods (ascii "dhcp,dhcp6") {dhcp, dhcp6} ∧
      NamesMethods (ascii " dhcp6 ,auto") {auto, dhcp6} ∧
      NamesMethods (ascii "auto,dhcp") {auto, dhcp} ∧
      parseIpMethod (ascii ",") ≠ parseIpMethod [] ∧
      parseIpMethod (ascii "dhcp,dhcp6") ≠ outcome {dhcp, dhcp6, link6} ∧
      parseIpMethod (ascii "auto,dhcp") ≠ some auto.kind := by
  decide +kernel

variable {text : Bytes} {s : Finset IpMethod}

theorem UnderstoodAsSet.nonempty (h : UnderstoodAsSet text s) : s.Nonempty := by
  by_contra hempty
  rw [Finset.not_nonempty_iff_eq_empty] at hempty
  subst hempty
  have heq : parseIpMethod (ascii ",") = parseIpMethod [] :=
    (h.set_only _ namesMethods_texts.1).trans (h.set_only _ namesMethods_texts.2.1).symm
  exact namesMethods_texts.2.2.2.2.2.1 heq

/-- A list of methods is understood as their set exactly if it names one and nothing has to be
removed from it. -/
theorem understoodAsSet_iff (h : NamesMethods text s) :
    UnderstoodAsSet text s ↔ NothingToRemove s := by
  obtain ⟨outcome_without_implied, outcome_auto, outcome_dhcp6, hlink⟩ := outcome_sets
  constructor
  · intro hset
    have hne := hset.nonempty
    have houtcome := parseIpMethod_eq_outcome h hne
    refine ⟨hne, fun hauto hremove => ?_, fun hauto hdhcp6 hlink6 => ?_⟩
    · by_contra hother
      have hsub : s ⊆ {auto, dhcp, dhcp6, link6} := by
        intro m hm
        cases m <;> simp_all
      have hresult := hset.with_auto hauto hsub
      rw [houtcome, outcome_auto s hauto hsub] at hresult
      tauto
    · by_contra hother
      by_cases hdhcp : dhcp ∈ s
      · have hs : s = {dhcp, dhcp6, link6} := by
          ext m
          cases m <;> simp_all
        subst hs
        have hresult := hset.without_implied {link6} hlink (ascii "dhcp,dhcp6")
          namesMethods_texts.2.2.1
        rw [houtcome] at hresult
        exact namesMethods_texts.2.2.2.2.2.2.1 hresult
      · have hsub : s ⊆ {dhcp6, link6} := by
          intro m hm
          cases m <;> simp_all
        have hresult := hset.with_dhcp6 hdhcp6 hsub
        rw [houtcome, outcome_dhcp6 s hdhcp6 hsub] at hresult
        exact hresult hlink6
  · rintro ⟨hne, hauto, hdhcp6⟩
    have houtcome := parseIpMethod_eq_outcome h hne
    have hwithout := outcome_without_implied s hne hauto hdhcp6
    constructor
    · intro text' h'
      rw [parseIpMethod_eq_outcome h' hne, houtcome]
    · intro t ht text' h'
      rw [parseIpMethod_eq_outcome h' (hwithout t ht).1, houtcome]
      exact (hwithout t ht).2
    · intro hmem hsub
      rw [houtcome, outcome_auto s hmem hsub]
      have hnone : ¬ (IpMethod.none ∈ s ∨ ibft ∈ s) := by
        rintro (hm | hm) <;> simpa using hsub hm
      exact not_or.mp fun hremove => hnone (hauto hmem hremove)
    · intro hmem hsub
      rw [houtcome, outcome_dhcp6 s hmem hsub]
      intro hlink6
      rcases hdhcp6 (fun hm => by simpa using hsub hm) hmem hlink6 with hm | hm <;>
        simpa using hsub hm
    · rintro m rfl
      rw [houtcome, outcome_singleton]

theorem understoodAsSet_iff_auto_dhcp6 : UnderstoodAsSet (ascii " dhcp6 ,auto") {auto, dhcp6} :=
  (understoodAsSet_iff namesMethods_texts.2.2.2.1).mpr ⟨by decide, by decide, by decide⟩

/-- The name "dhcp4" that is to be removed is not the name that "dhcp" has after the
recursion. -/
theorem auto_dhcp_not_understoodAsSet :
    ¬ ∀ text s, NamesMethods text s → s.Nonempty → UnderstoodAsSet text s := by
  intro h
  have hset := h (ascii "auto,dhcp") {auto, dhcp} namesMethods_texts.2.2.2.2.1 (by decide)
  exact absurd (hset.with_auto (by decide) (by decide)) namesMethods_texts.2.2.2.2.2.2.2

end Sets

end NetworkManager.InitrdGenerator
