import NetworkManager.Core.ConfigFiles
import NetworkManager.GlibAux.ArrayFindBsearch
import Mathlib.Data.String.Basic

/-!
# Looking up values in the sections of the configuration

The sections [connection*] and [device*] have values for the devices that they match. Each section
keeps its values in a cache that is sorted by key, and the sections are in the order of their
precedence, with the literal section last.
-/

namespace NetworkManager.Core

open Lib GlibAux List

def strcmp (a b : String) : Ordering := if a < b then .lt else if a = b then .eq else .gt

/-- `MatchSectionInfo`. A list of specifications is missing where its `has` flag is not set. -/
structure MatchSectionInfo where
  groupName : String
  matchDevice : Option (List Bytes)
  stopMatch : Bool
  allowedConnections : Option (List Bytes)
  lookupIdx : List (String × Bytes)

def configGetMatchSpec (keyfile : ConfigKeyfile) (group key : String) : Option (List Bytes) :=
  (keyfile.getValue group key).map fun value => matchSpecSplit (some value)

/-- The body of the loop of `_match_section_info_init()`, with the values that were kept. -/
def matchSectionInfoAddKey (keyfile : ConfigKeyfile) (group : String)
    (vals : List (String × Bytes)) (key : String) : List (String × Bytes) :=
  if key = keyStopMatch ∨ key = keyMatchDevice then vals
  else if vals.getLast?.map Prod.fst = some key then vals
  else match keyfileGetString keyfile group key with
    | none => vals
    | some value => vals ++ [(key, value)]

def matchSectionInfoInit (keyfile : ConfigKeyfile) (isDevice : Bool) (group : String) :
    MatchSectionInfo where
  groupName := group
  matchDevice := configGetMatchSpec keyfile group keyMatchDevice
  stopMatch := (keyfileGetBoolean keyfile group keyStopMatch).getD false
  allowedConnections :=
    if isDevice then configGetMatchSpec keyfile group keyAllowedConnections else none
  lookupIdx := ((keyfile.getKeys group).insertionSort (· ≤ ·)).foldl
    (matchSectionInfoAddKey keyfile group) []

def matchSectionInfosConstruct (keyfile : ConfigKeyfile) (isDevice : Bool) :
    List MatchSectionInfo :=
  let pre := if isDevice then groupPrefixDevice else groupPrefixConnection
  let groups := keyfile.getGroups.filter fun group => strHasPrefix group pre
  let connectionTag := groups.filter fun group => group = pre
  ((groups.filter fun group => group ≠ pre).reverse ++ connectionTag).map
    (matchSectionInfoInit keyfile isDevice)

def matchSectionInfoGetStr (m : MatchSectionInfo) (property : String) : Option Bytes :=
  let idx := arrayFindBsearch (fun val => strcmp val.1 property) m.lookupIdx
  if 0 ≤ idx then m.lookupIdx[idx.toNat]?.map Prod.snd else none

variable {δ : Type*} (matchSpecDevice : List Bytes → δ → Bool)

def MatchSectionInfo.isMatch (m : MatchSectionInfo) (device : δ) : Bool :=
  match m.matchDevice with
  | some spec => matchSpecDevice spec device
  | none => true

/-- `_match_section_infos_lookup()`: the section, and its value of the property. -/
def matchSectionInfosLookup (property : String) (device : δ) :
    List MatchSectionInfo → Option (MatchSectionInfo × Option Bytes)
  | [] => none
  | m :: infos =>
    let value := matchSectionInfoGetStr m property
    if value.isNone && !m.stopMatch then matchSectionInfosLookup property device infos
    else if m.isMatch matchSpecDevice device then some (m, value)
    else matchSectionInfosLookup property device infos

/-- What `NMConfigData` keeps of its key file for these lookups. -/
structure ConfigData where
  keyfile : ConfigKeyfile
  connectionInfos : List MatchSectionInfo
  deviceInfos : List MatchSectionInfo

def ConfigData.new (user intern : Option ConfigKeyfile) : ConfigData where
  keyfile := mergeKeyfiles user intern
  connectionInfos := matchSectionInfosConstruct (mergeKeyfiles user intern) false
  deviceInfos := matchSectionInfosConstruct (mergeKeyfiles user intern) true

def ConfigData.getConnectionDefault (self : ConfigData) (property : String) (device : δ) :
    Option Bytes :=
  if '.' ∉ property.toList then none
  else (matchSectionInfosLookup matchSpecDevice property device self.connectionInfos).bind Prod.snd

/-- `nm_config_data_get_device_config()`, without `has_match`. -/
def ConfigData.getDeviceConfig (self : ConfigData) (property : String) (device : δ) :
    Option Bytes :=
  if property = "" then none
  else (matchSectionInfosLookup matchSpecDevice property device self.deviceInfos).bind Prod.snd

/-- `nm_config_data_get_device_allowed_connections_specs()`: whether there is a match, and the
specifications. There is no result if the assertion fails. -/
def ConfigData.getDeviceAllowedConnectionsSpecs (self : ConfigData) (device : δ) :
    Option (Bool × List Bytes) :=
  match matchSectionInfosLookup matchSpecDevice keyAllowedConnections device self.deviceInfos with
  | none => some (false, [])
  | some (m, _) => m.allowedConnections.map fun specs => (true, specs)

/-!
## The cache of a section

The cache is sorted by key, so the binary search finds a property exactly if the section has it.
The keys that control the match are no properties.
-/

variable {keyfile : ConfigKeyfile} {group key property : String} {isDevice : Bool}
  {vals : List (String × Bytes)} {keys : List String} {seen : List String}

def sectionValue (keyfile : ConfigKeyfile) (group property : String) : Option Bytes :=
  if property = keyStopMatch ∨ property = keyMatchDevice then none
  else keyfileGetString keyfile group property

/-- What the loop over sorted keys keeps: sorted values, each of them the value of a property. -/
structure CacheOf (keyfile : ConfigKeyfile) (group : String) (vals : List (String × Bytes))
    (seen : List String) : Prop where
  sorted : vals.Pairwise fun a b => a.1 < b.1
  value : ∀ val ∈ vals, sectionValue keyfile group val.1 = some val.2 ∧ val.1 ∈ seen
  complete : ∀ key ∈ seen, ∀ value, sectionValue keyfile group key = some value → (key, value) ∈ vals

theorem cacheOf_addKey (h : CacheOf keyfile group vals seen) (hlt : ∀ k ∈ seen, k < key) :
    CacheOf keyfile group (matchSectionInfoAddKey keyfile group vals key) (seen ++ [key]) := by
  have hweak : sectionValue keyfile group key = none →
      CacheOf keyfile group vals (seen ++ [key]) := by
    intro hnone
    refine ⟨h.sorted, fun val hval => ?_, fun k hk value hvalue => ?_⟩
    · obtain ⟨hv, hmem⟩ := h.value val hval
      exact ⟨hv, mem_append_left _ hmem⟩
    · rcases mem_append.mp hk with hk | hk
      · exact h.complete k hk value hvalue
      · rw [mem_singleton.mp hk, hnone] at hvalue
        cases hvalue
  have hlast : vals.getLast?.map Prod.fst ≠ some key := by
    intro heq
    obtain ⟨val, hval, hfst⟩ := Option.map_eq_some_iff.mp heq
    have hmem := (h.value val (mem_of_getLast? hval)).2
    rw [hfst] at hmem
    exact absurd (hlt key hmem) (lt_irrefl key)
  unfold matchSectionInfoAddKey
  split_ifs with hcontrol
  · exact hweak (if_pos hcontrol)
  · have hsection : sectionValue keyfile group key = keyfileGetString keyfile group key :=
      if_neg hcontrol
    cases hvalue : keyfileGetString keyfile group key with
    | none => exact hweak (hsection.trans hvalue)
    | some value =>
      refine ⟨?_, fun val hval => ?_, fun k hk value' hvalue' => ?_⟩
      · rw [pairwise_append]
        refine ⟨h.sorted, pairwise_singleton _ _, fun a ha b hb => ?_⟩
        rw [mem_singleton.mp hb]
        exact hlt a.1 (h.value a ha).2
      · rcases mem_append.mp hval with hval | hval
        · obtain ⟨hv, hmem⟩ := h.value val hval
          exact ⟨hv, mem_append_left _ hmem⟩
        · rw [mem_singleton.mp hval]
          exact ⟨hsection.trans hvalue, by simp⟩
      · rcases mem_append.mp hk with hk | hk
        · exact mem_append_left _ (h.complete k hk value' hvalue')
        · rw [mem_singleton.mp hk, hsection, hvalue] at hvalue'
          rw [mem_singleton.mp hk, Option.some.inj hvalue']
          simp

theorem cacheOf_foldl (h : CacheOf keyfile group vals seen)
    (hsorted : (seen ++ keys).Pairwise (· < ·)) :
    CacheOf keyfile group (keys.foldl (matchSectionInfoAddKey keyfile group) vals)
      (seen ++ keys) := by
  induction keys generalizing vals seen with
  | nil => simpa using h
  | cons key keys ih =>
    have hsplit : seen ++ key :: keys = (seen ++ [key]) ++ keys := by simp
    have hlt : ∀ k ∈ seen, k < key := fun k hk =>
      (pairwise_append.mp hsorted).2.2 k hk key mem_cons_self
    rw [hsplit] at hsorted ⊢
    exact ih (cacheOf_addKey h hlt) hsorted

theorem sorted_keys : ((keyfile.getKeys group).insertionSort (· ≤ ·)).Pairwise (· < ·) := by
  have hle := pairwise_insertionSort (· ≤ ·) (keyfile.getKeys group)
  have hnodup : ((keyfile.getKeys group).insertionSort (· ≤ ·)).Nodup :=
    (perm_insertionSort (· ≤ ·) _).nodup_iff.mpr KeyFile.unique_pairs
  exact hle.imp₂ (fun _ _ h hne => lt_of_le_of_ne h hne) hnodup

variable (keyfile group isDevice) in
theorem cacheOf_init : CacheOf keyfile group (matchSectionInfoInit keyfile isDevice group).lookupIdx
    ((keyfile.getKeys group).insertionSort (· ≤ ·)) := by
  have hempty : CacheOf keyfile group [] [] := ⟨List.Pairwise.nil, by simp, by simp⟩
  exact cacheOf_foldl hempty sorted_keys

theorem mem_getKeys_of_sectionValue {value : Bytes}
    (h : sectionValue keyfile group property = some value) : property ∈ keyfile.getKeys group := by
  unfold sectionValue at h
  split_ifs at h
  obtain ⟨raw, hraw, -⟩ := Option.bind_eq_some_iff.mp h
  exact KeyFile.mem_getKeys.mpr (Option.isSome_iff_exists.mpr ⟨raw, hraw⟩)

/-- The lookup in the cache is the lookup in the section. -/
theorem getStr_init :
    matchSectionInfoGetStr (matchSectionInfoInit keyfile isDevice group) property =
      sectionValue keyfile group property := by
  have hcache := cacheOf_init keyfile group isDevice
  unfold matchSectionInfoGetStr
  generalize (matchSectionInfoInit keyfile isDevice group).lookupIdx = vals at hcache
  have hsorted : SortedFor (fun val : String × Bytes => strcmp val.1 property) vals := by
    apply hcache.sorted.imp
    intro a b hab
    unfold strcmp
    constructor
    · intro hb
      beta_reduce at hb ⊢
      split_ifs at hb with hb'
      rw [if_pos (hab.trans hb')]
    · intro ha
      beta_reduce at ha ⊢
      split_ifs at ha with ha' ha''
      have hlt : property < a.1 := lt_of_le_of_ne (not_lt.mp ha') (Ne.symm ha'')
      rw [if_neg (hlt.trans hab).not_gt, if_neg (hlt.trans hab).ne']
  have hcmp : ∀ a : String × Bytes, strcmp a.1 property = .eq ↔ a.1 = property := by
    intro a
    unfold strcmp
    split_ifs with h₁ h₂
    · simp [h₁.ne]
    · simp [h₂]
    · simp [h₂]
  rcases arrayFindBsearch_spec hsorted with ⟨i, a, hfound, ha, heq⟩ | ⟨p, hp, -, hlow, hhigh⟩
  · have hname := (hcmp a).mp heq
    have hvalue := (hcache.value a (mem_of_getElem? ha)).1
    rw [hname] at hvalue
    simp [hfound, ha, hvalue]
  · have hneg : ¬ (0 : ℤ) ≤ -(p : ℤ) - 1 := by omega
    rw [hp]
    simp only [hneg, if_false]
    cases hvalue : sectionValue keyfile group property with
    | none => rfl
    | some value =>
      have hkey : property ∈ (keyfile.getKeys group).insertionSort (· ≤ ·) :=
        (mem_insertionSort (· ≤ ·)).mpr (mem_getKeys_of_sectionValue hvalue)
      obtain ⟨i, hi⟩ := List.getElem?_of_mem (hcache.complete property hkey value hvalue)
      have heq := (hcmp (property, value)).mpr rfl
      by_cases hip : i < p
      · simp [hlow i _ hip hi] at heq
      · simp [hhigh i _ (by omega) hi] at heq

/-!
## The precedence of the sections

Reading a file reverses its sections and appends them to those of the files before, and the lookup
goes through all of them from the end. So the sections of later files come first, those of one
file from top to bottom, and the literal section is the last one.
-/

open Lib KeyFile

variable {build : ConfigBuild} {kf keyfile : ConfigKeyfile} {group pre : String}
  {s baseKey : String} {plus : Bool}

/-! ## Sorting the groups of a file -/

/-- The prefixes of the sections. -/
def IsSectionPrefix (pre : String) : Prop := pre = groupPrefixConnection ∨ pre = groupPrefixDevice

theorem hasPrefix_iff : strHasPrefix s pre ↔ pre.toList <+: s.toList := by
  unfold strHasPrefix afterPrefix
  split_ifs with h <;> simp [h]

theorem not_device_of_connection (h : strHasPrefix s groupPrefixConnection) :
    strHasPrefix s groupPrefixDevice = false := by
  obtain ⟨t, ht⟩ := hasPrefix_iff.mp h
  by_contra hdevice
  obtain ⟨t', ht'⟩ := hasPrefix_iff.mp (by simpa using hdevice)
  rw [← ht'] at ht
  have hhead := congrArg List.head? ht
  simp [groupPrefixConnection, groupPrefixDevice] at hhead

def groupRank (s : String) : ℕ :=
  if strHasPrefix s groupPrefixConnection then 2
  else if strHasPrefix s groupPrefixDevice then 1
  else 0

theorem sortGroupsCmp_iff {a b : String × ℕ} :
    sortGroupsCmp b a ≠ .lt ↔
      groupRank a.1 < groupRank b.1 ∨
        (groupRank a.1 = groupRank b.1 ∧ (groupRank a.1 = 0 ∨ b.2 ≤ a.2)) := by
  unfold sortGroupsCmp groupRank
  cases strHasPrefix a.1 groupPrefixConnection <;> cases strHasPrefix b.1 groupPrefixConnection <;>
    cases strHasPrefix a.1 groupPrefixDevice <;> cases strHasPrefix b.1 groupPrefixDevice <;>
    simp

instance : Std.Total fun a b : String × ℕ => sortGroupsCmp b a ≠ .lt where
  total a b := by
    rw [sortGroupsCmp_iff, sortGroupsCmp_iff]
    omega

instance : IsTrans (String × ℕ) fun a b => sortGroupsCmp b a ≠ .lt where
  trans a b c := by
    rw [sortGroupsCmp_iff, sortGroupsCmp_iff, sortGroupsCmp_iff]
    omega

theorem groupRank_of_prefix (hpre : IsSectionPrefix pre) :
    ∃ r ≠ 0, ∀ s, strHasPrefix s pre ↔ groupRank s = r := by
  rcases hpre with rfl | rfl
  · refine ⟨2, by decide, fun s => ?_⟩
    unfold groupRank
    split_ifs with hc hd <;> simp [hc]
  · refine ⟨1, by decide, fun s => ?_⟩
    unfold groupRank
    split_ifs with hc hd
    · simp [not_device_of_connection hc]
    · simp [hd]
    · simp [hd]

/-- Sorting reverses the sections of a file. -/
theorem filter_sortGroups (hpre : IsSectionPrefix pre) (groups : List String) :
    (sortGroups groups).filter (strHasPrefix · pre) =
      (groups.filter (strHasPrefix · pre)).reverse := by
  obtain ⟨r, hr, hrank⟩ := groupRank_of_prefix hpre
  have hperm := (perm_insertionSort (fun a b => sortGroupsCmp b a ≠ .lt) groups.zipIdx).filter
    fun a => strHasPrefix a.1 pre
  have hsorted := (pairwise_insertionSort (fun a b => sortGroupsCmp b a ≠ .lt)
    groups.zipIdx).filter fun a => strHasPrefix a.1 pre
  have hindices : (groups.zipIdx.filter fun a => strHasPrefix a.1 pre).Pairwise
      fun a b => a.2 < b.2 := by
    apply List.Pairwise.filter
    have hrange : (groups.zipIdx.map Prod.snd).Pairwise (· < ·) := by
      rw [zipIdx_map_snd]
      exact pairwise_lt_range'
    exact pairwise_map.mp hrange
  have hreverse : ((groups.zipIdx.insertionSort fun a b => sortGroupsCmp b a ≠ .lt).filter
      fun a => strHasPrefix a.1 pre) =
        (groups.zipIdx.filter fun a => strHasPrefix a.1 pre).reverse := by
    apply @List.Perm.eq_of_pairwise _ (fun a b : String × ℕ => b.2 ≤ a.2) _ _ _ _ _
      (hperm.trans (reverse_perm _).symm)
    · intro a b ha hb hab hba
      have ha' := mem_zipIdx_iff_getElem?.mp
        ((mem_insertionSort _).mp (mem_filter.mp ha).1)
      have hb' := mem_zipIdx_iff_getElem?.mp
        (mem_filter.mp (mem_reverse.mp hb)).1
      have hidx : a.2 = b.2 := Nat.le_antisymm hba hab
      rw [hidx, hb', Option.some.injEq] at ha'
      exact Prod.ext ha'.symm hidx
    · apply hsorted.imp_of_mem
      intro a b ha hb hab
      have hra := (hrank a.1).mp (mem_filter.mp ha).2
      have hrb := (hrank b.1).mp (mem_filter.mp hb).2
      have hcmp := sortGroupsCmp_iff.mp hab
      omega
    · rw [pairwise_reverse]
      exact hindices.imp fun h => Nat.le_of_lt h
  rw [sortGroups, filter_map]
  change List.map Prod.fst (((groups.zipIdx.insertionSort fun a b => sortGroupsCmp b a ≠ .lt).filter
    fun a => strHasPrefix a.1 pre)) = _
  rw [hreverse, map_reverse]
  congr 1
  change List.map Prod.fst (groups.zipIdx.filter ((strHasPrefix · pre) ∘ Prod.fst)) = _
  rw [← filter_map, zipIdx_map_fst]

theorem perm_sortGroups (groups : List String) : List.Perm (sortGroups groups) groups := by
  have hperm := (perm_insertionSort (fun a b => sortGroupsCmp b a ≠ .lt)
    groups.zipIdx).map Prod.fst
  rwa [zipIdx_map_fst] at hperm

/-! ## Reading one file -/

theorem groupStep_fillMainPlugins :
    GroupStep group fun keyfile => fillMainPlugins build keyfile group baseKey := by
  apply GroupStep.ite (groupStep_setValue fun _ _ _ => rfl) groupStep_id
  intro keyfile keyfile' heq
  rw [heq]

theorem groupStep_storeStringList {key : String} :
    GroupStep group fun keyfile => storeStringList kf keyfile group key baseKey plus := by
  have hlist : ∀ keyfile keyfile' : ConfigKeyfile,
      (∀ key, keyfile.getValue group key = keyfile'.getValue group key) →
      keyfileGetStringList keyfile group baseKey = keyfileGetStringList keyfile' group baseKey := by
    intro keyfile keyfile' heq
    rw [keyfileGetStringList, keyfileGetStringList, heq]
  apply GroupStep.ite
  · apply groupStep_setValue
    intro keyfile keyfile' heq
    rw [hlist keyfile keyfile' heq]
  · apply GroupStep.ite (groupStep_setValue fun _ _ _ => rfl) groupStep_removeKey
    intro _ _ _
    rfl
  · intro keyfile keyfile' heq
    rw [hlist keyfile keyfile' heq]

theorem groupStep_extendStringList {key : String} :
    GroupStep group fun keyfile => extendStringList build kf keyfile group key baseKey plus :=
  groupStep_fillMainPlugins.comp groupStep_storeStringList

theorem groupStep_extendSpec {key : String} :
    GroupStep group fun keyfile => extendSpec kf keyfile group key baseKey plus := by
  apply groupStep_setValue
  intro keyfile keyfile' heq
  rw [heq]

theorem groupStep_readConfigKey {key : String} :
    GroupStep group fun keyfile => readConfigKey build kf group keyfile key := by
  unfold readConfigKey
  split_ifs
  · exact groupStep_id
  · cases extendedKey key with
    | none => exact groupStep_setOption fun _ _ _ => rfl
    | some base =>
      obtain ⟨baseKey, plus⟩ := base
      dsimp only
      split_ifs
      · exact groupStep_extendStringList
      · exact groupStep_extendSpec
      · exact groupStep_id

theorem groupStep_readConfigGroup :
    GroupStep group fun keyfile => readConfigGroup build kf keyfile group := by
  unfold readConfigGroup
  split_ifs
  · exact groupStep_id
  · exact GroupStep.foldl fun _ _ => groupStep_readConfigKey

end NetworkManager.Core
