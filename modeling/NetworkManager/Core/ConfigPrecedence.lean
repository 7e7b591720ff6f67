import NetworkManager.Core.ConfigCopy
import NetworkManager.Core.ConfigSections
import Mathlib.Data.List.Find

/-!
# Connection defaults and device sections

The lookups return what the first section in the order of precedence says that is for the device
and has the property, or stops the match.
-/

namespace NetworkManager.Core

open Lib KeyFile List

/-! ## Precedence -/

section Precedence

variable (build : ConfigBuild) (files : List (ConfigKeyfile × Bool))

def readConfigs : ConfigKeyfile :=
  files.foldl (fun keyfile file => readConfig build keyfile file.1 file.2) .empty

def activeFiles : List ConfigKeyfile :=
  (files.filter fun file => !ignoreConfigSnippet build file.1 file.2).map fun file =>
    file.1.removeGroup groupConfig

/-- A section of a file, alone: its name, and a key file with its values. -/
structure FileSection where
  group : String
  values : ConfigKeyfile

def fileSection (file : ConfigKeyfile) (group : String) : FileSection :=
  ⟨group, readConfigGroup build file .empty group⟩

def sectionNames (pre : String) (file : ConfigKeyfile) : List String :=
  file.getGroups.filter fun group => strHasPrefix group pre

/-- The sections in the order of precedence: later files first, each file from top to bottom, and
the literal section at the end. -/
def precedence (pre : String) : List FileSection :=
  ((activeFiles build files).reverse.flatMap fun file =>
    ((sectionNames pre file).filter fun group => group ≠ pre).map (fileSection build file)) ++
  (activeFiles build files).flatMap fun file =>
    ((sectionNames pre file).filter fun group => group = pre).map (fileSection build file)

end Precedence

def FileSection.value (s : FileSection) (property : String) : Option Bytes :=
  sectionValue s.values s.group property

def FileSection.stopMatch (s : FileSection) : Bool :=
  (keyfileGetBoolean s.values s.group keyStopMatch).getD false

def FileSection.allowedConnections (s : FileSection) : Option (List Bytes) :=
  configGetMatchSpec s.values s.group keyAllowedConnections

variable {δ : Type*} (matchSpecDevice : List Bytes → δ → Bool)

def FileSection.matches (s : FileSection) (device : δ) : Bool :=
  (configGetMatchSpec s.values s.group keyMatchDevice).all fun spec => matchSpecDevice spec device

def firstSection (property : String) (device : δ) (sections : List FileSection) :
    Option FileSection :=
  sections.find? fun s =>
    ((s.value property).isSome || s.stopMatch) && s.matches matchSpecDevice device

variable {matchSpecDevice} {build : ConfigBuild} {files : List (ConfigKeyfile × Bool)}
  {kf keyfile : ConfigKeyfile} {group pre property : String} {device : δ} {isDevice : Bool}
  {s s' : FileSection} {l : List FileSection} {intern : ConfigKeyfile}

/-! ## The lookup -/

def namedSection (keyfile : ConfigKeyfile) (group : String) : FileSection := ⟨group, keyfile⟩

theorem lookup_eq_find (names : List String) :
    matchSectionInfosLookup matchSpecDevice property device
        (names.map (matchSectionInfoInit keyfile isDevice)) =
      (firstSection matchSpecDevice property device (names.map (namedSection keyfile))).map
        fun s => (matchSectionInfoInit keyfile isDevice s.group, s.value property) := by
  induction names with
  | nil => rfl
  | cons name names ih =>
    rw [map_cons, map_cons, firstSection, matchSectionInfosLookup, List.find?_cons]
    simp only [getStr_init]
    have hgroup : (namedSection keyfile name).group = name := rfl
    have hvalue : (namedSection keyfile name).value property =
        sectionValue keyfile name property := rfl
    have hstop : (namedSection keyfile name).stopMatch =
        (matchSectionInfoInit keyfile isDevice name).stopMatch := rfl
    have hmatch : (namedSection keyfile name).matches matchSpecDevice device =
        (matchSectionInfoInit keyfile isDevice name).isMatch matchSpecDevice device := by
      unfold FileSection.matches MatchSectionInfo.isMatch matchSectionInfoInit namedSection
      cases configGetMatchSpec keyfile name keyMatchDevice <;> rfl
    rw [hvalue, hstop, hmatch]
    cases hv : sectionValue keyfile name property <;>
      cases hs : (matchSectionInfoInit keyfile isDevice name).stopMatch <;>
      cases hm : (matchSectionInfoInit keyfile isDevice name).isMatch matchSpecDevice device <;>
      simp [ih, firstSection, hgroup, hvalue, hv]

/-- Sections with the same values. -/
structure FileSection.Same (s s' : FileSection) : Prop where
  group : s.group = s'.group
  getValue : ∀ key, s.values.getValue s.group key = s'.values.getValue s'.group key

theorem FileSection.Same.value (h : s.Same s') (property : String) :
    s.value property = s'.value property := by
  simp only [FileSection.value, sectionValue, keyfileGetString, h.getValue]

theorem FileSection.Same.stopMatch (h : s.Same s') : s.stopMatch = s'.stopMatch := by
  simp only [FileSection.stopMatch, keyfileGetBoolean, h.getValue]

theorem FileSection.Same.matches (h : s.Same s') :
    s.matches matchSpecDevice device = s'.matches matchSpecDevice device := by
  simp only [FileSection.matches, configGetMatchSpec, h.getValue]

theorem FileSection.Same.allowedConnections (h : s.Same s') :
    s.allowedConnections = s'.allowedConnections := by
  simp only [FileSection.allowedConnections, configGetMatchSpec, h.getValue]

theorem bind_value_of_rel {s s' : Option FileSection}
    (h : Option.Rel FileSection.Same s s') (property : String) :
    s.bind (fun s => s.value property) = s'.bind fun s => s.value property := by
  cases h with
  | none => rfl
  | some hsame => exact hsame.value property

theorem map_allowedConnections_of_rel {s s' : Option FileSection}
    (h : Option.Rel FileSection.Same s s') :
    s.map FileSection.allowedConnections = s'.map FileSection.allowedConnections := by
  cases h with
  | none => rfl
  | some hsame => exact congrArg some hsame.allowedConnections

variable (matchSpecDevice property device) in
theorem firstSection_same {l' : List FileSection} (h : List.Forall₂ FileSection.Same l l') :
    Option.Rel FileSection.Same (firstSection matchSpecDevice property device l)
      (firstSection matchSpecDevice property device l') := by
  induction h with
  | nil => exact .none
  | @cons s s' l l' hs _ ih =>
    unfold firstSection at ih ⊢
    rw [List.find?_cons, List.find?_cons, hs.value, hs.stopMatch, hs.matches]
    cases ((s'.value property).isSome || s'.stopMatch) && s'.matches matchSpecDevice device with
    | true => exact .some hs
    | false => exact ih

variable (matchSpecDevice property device) in
theorem firstSection_filter (q : FileSection → Bool)
    (h : ∀ s ∈ l, q s = false → ∀ key, s.values.getValue s.group key = none) :
    firstSection matchSpecDevice property device (l.filter q) =
      firstSection matchSpecDevice property device l := by
  unfold firstSection
  rw [List.find?_filter]
  apply List.find?_congr
  intro s hs
  cases hq : q s with
  | true => simp
  | false =>
    have hnone := h s hs hq
    simp [FileSection.value, sectionValue, keyfileGetString, FileSection.stopMatch,
      keyfileGetBoolean, asciiStrToBool, hnone]

/-! ## Reading the files -/

def readNames (pre : String) (files : List ConfigKeyfile) : List String :=
  files.flatMap fun file => (sectionNames pre file).reverse

/-- No section is in two files. -/
def SectionsDisjoint (pre : String) (files : List ConfigKeyfile) : Prop :=
  files.Pairwise fun file file' => ∀ group, strHasPrefix group pre →
    ¬ (file.hasGroup group ∧ file'.hasGroup group)

/-- What was read from files: their sections in order, with the values of each file alone. -/
structure ReadFrom (build : ConfigBuild) (pre : String) (files : List ConfigKeyfile)
    (keyfile : ConfigKeyfile) : Prop where
  order : keyfile.getGroups.filter (strHasPrefix · pre) =
    (readNames pre files).filter keyfile.hasGroup
  values : ∀ file ∈ files, ∀ group ∈ sectionNames pre file, ∀ key,
    keyfile.getValue group key = (readConfigGroup build file .empty group).getValue group key

theorem mem_sectionNames : group ∈ sectionNames pre kf ↔ kf.hasGroup group ∧ strHasPrefix group pre := by
  rw [sectionNames, mem_filter, hasGroup_iff]

theorem mem_readNames {files : List ConfigKeyfile} :
    group ∈ readNames pre files ↔
      ∃ file ∈ files, file.hasGroup group ∧ strHasPrefix group pre := by
  simp [readNames, mem_sectionNames]

/-- Reading a file with new sections appends them. -/
theorem readFrom_next (kf : ConfigKeyfile) (hpre : IsSectionPrefix pre) {files : List ConfigKeyfile}
    (h : ReadFrom build pre files keyfile)
    (hdisjoint : ∀ file ∈ files, ∀ group, strHasPrefix group pre →
      ¬ (file.hasGroup group ∧ kf.hasGroup group)) :
    ReadFrom build pre (files ++ [kf])
      ((sortGroups kf.getGroups).foldl (readConfigGroup build kf) keyfile) := by
  have hstep : ∀ g, GroupStep g fun keyfile => readConfigGroup build kf keyfile g :=
    fun g => groupStep_readConfigGroup
  have honly : ∀ keyfile g, OnlyGroup g keyfile (readConfigGroup build kf keyfile g) :=
    fun keyfile g => (hstep g).only keyfile
  have hnodup : (sortGroups kf.getGroups).Nodup :=
    (perm_sortGroups _).nodup_iff.mpr nodup_getGroups
  have hmem : ∀ g, g ∈ sortGroups kf.getGroups ↔ kf.hasGroup g := by
    intro g
    rw [(perm_sortGroups _).mem_iff, hasGroup_iff]
  have hnew : ∀ g, strHasPrefix g pre → kf.hasGroup g → g ∉ readNames pre files := by
    intro g hg hkf hread
    obtain ⟨file, hfile, hhas, -⟩ := mem_readNames.mp hread
    exact hdisjoint file hfile g hg ⟨hhas, hkf⟩
  constructor
  · have hfold := filter_getGroups_foldl (p := (strHasPrefix · pre)) honly (hnodup.filter _)
      (fun g hg hp => hnew g hp ((hmem g).mp hg))
      (fun g hg => (mem_readNames.mp hg).choose_spec.2.2) h.order
    rw [hfold, filter_sortGroups hpre]
    simp [readNames, sectionNames]
  · intro file hfile g hg key
    obtain ⟨hhas, hprefix⟩ := mem_sectionNames.mp hg
    rcases mem_append.mp hfile with hfile | hfile
    · have hnot : g ∉ sortGroups kf.getGroups := fun hmemg =>
        hdisjoint file hfile g hprefix ⟨hhas, (hmem g).mp hmemg⟩
      rw [getValue_foldl_of_not_mem honly hnot]
      exact h.values file hfile g hg key
    · obtain rfl := mem_singleton.mp hfile
      rw [getValue_foldl_of_mem hstep hnodup ((hmem g).mpr hhas)]
      apply (hstep g).congr
      intro key
      have hno : keyfile.hasGroup g = false := by
        by_contra hkeyfile
        have hread := mem_of_filter_getGroups h.order hprefix (by simpa using hkeyfile)
        exact hnew g hprefix hhas hread
      rw [getValue_of_no_group hno, getValue_empty]

theorem readFrom_files (hpre : IsSectionPrefix pre)
    (hdisjoint : SectionsDisjoint pre (activeFiles build files)) :
    ReadFrom build pre (activeFiles build files) (readConfigs build files) := by
  have hmain : ∀ (files : List (ConfigKeyfile × Bool)) (done : List ConfigKeyfile) keyfile,
      ReadFrom build pre done keyfile →
      SectionsDisjoint pre (done ++ activeFiles build files) →
      ReadFrom build pre (done ++ activeFiles build files)
        (files.foldl (fun keyfile file => readConfig build keyfile file.1 file.2) keyfile) := by
    intro files
    induction files with
    | nil =>
      intro done keyfile h _
      simpa [activeFiles] using h
    | cons file files ih =>
      intro done keyfile h hdisjoint
      rw [foldl_cons, readConfig]
      cases hignore : ignoreConfigSnippet build file.1 file.2 with
      | true =>
        have hactive : activeFiles build (file :: files) = activeFiles build files := by
          simp [activeFiles, hignore]
        rw [hactive] at hdisjoint ⊢
        exact ih done keyfile h hdisjoint
      | false =>
        have hactive : activeFiles build (file :: files) =
            file.1.removeGroup groupConfig :: activeFiles build files := by
          simp [activeFiles, hignore]
        rw [hactive, append_cons] at hdisjoint ⊢
        have hpair := pairwise_append.mp hdisjoint
        have hnext := readFrom_next (file.1.removeGroup groupConfig) hpre h
          fun f hf => (pairwise_append.mp hpair.1).2.2 f hf _ (mem_singleton_self _)
        simpa using ih _ _ hnext hdisjoint
  have hempty : ReadFrom build pre [] .empty := ⟨rfl, by simp⟩
  simpa [readConfigs] using hmain files [] .empty hempty (by simpa using hdisjoint)

/-! ## The merge -/

/-- The sections that were read are in the merged configuration, in the same order, except for
some without values. -/
structure HasSections (build : ConfigBuild) (pre : String) (files : List ConfigKeyfile)
    (keyfile : ConfigKeyfile) : Prop where
  order : ∃ q : String → Bool,
    keyfile.getGroups.filter (strHasPrefix · pre) = (readNames pre files).filter q ∧
    ∀ group ∈ readNames pre files, q group = false → ∀ key, keyfile.getValue group key = none
  values : ∀ file ∈ files, ∀ group ∈ sectionNames pre file, ∀ key,
    keyfile.getValue group key = (readConfigGroup build file .empty group).getValue group key

theorem hasSections_copy {files : List ConfigKeyfile} (h : ReadFrom build pre files keyfile) :
    HasSections build pre files (keyfileCopy .empty keyfile) := by
  have honly : ∀ dst g, OnlyGroup g dst (copyGroup keyfile dst g) :=
    fun dst g => groupStep_copyGroup.only dst
  have hnodup : (keyfile.getGroups.filter (strHasPrefix · pre)).Nodup := nodup_getGroups.filter _
  have hempty : (empty : ConfigKeyfile).getGroups.filter (strHasPrefix · pre) =
      ([] : List String).filter (empty : ConfigKeyfile).hasGroup := rfl
  have hfold := filter_getGroups_foldl honly hnodup (by simp) (by simp) hempty
  rw [← keyfileCopy_eq, nil_append, h.order, filter_filter] at hfold
  refine ⟨⟨_, hfold, fun group _ hno key => ?_⟩, fun file hfile group hg key => ?_⟩
  · rcases Bool.and_eq_false_iff.mp hno with hno | hno
    · exact getValue_of_no_group hno
    · rw [getValue_keyfileCopy]
      exact getValue_of_no_group hno
  · rw [getValue_keyfileCopy]
    exact h.values file hfile group hg key

theorem onlyGroup_mergeKey {isIntern isAtomic : Bool} {key : String} :
    OnlyGroup group keyfile (mergeKey intern group isIntern isAtomic keyfile key) := by
  unfold mergeKey
  dsimp only
  split_ifs
  · exact .refl
  · exact onlyGroup_removeKey
  · exact .refl
  · exact .refl
  · exact onlyGroup_setOption

theorem onlyGroup_mergeGroup : OnlyGroup group keyfile (mergeGroup intern keyfile group) := by
  unfold mergeGroup
  apply OnlyGroup.trans _ (OnlyGroup.foldl fun _ _ => onlyGroup_mergeKey)
  split_ifs
  · exact onlyGroup_removeGroup
  · exact .refl

theorem hasSections_merge {files : List ConfigKeyfile} {user : ConfigKeyfile}
    (h : ReadFrom build pre files user)
    (hintern : ∀ group, strHasPrefix group pre → intern.hasGroup group = false) :
    HasSections build pre files (mergeKeyfiles (some user) (some intern)) := by
  have hcopy := hasSections_copy h
  have honly : ∀ keyfile g, OnlyGroup g keyfile (mergeGroup intern keyfile g) :=
    fun keyfile g => onlyGroup_mergeGroup
  have hnot : ∀ g, strHasPrefix g pre → g ∉ sortGroups intern.getGroups := by
    intro g hg hmem
    rw [(perm_sortGroups _).mem_iff, ← hasGroup_iff, hintern g hg] at hmem
    cases hmem
  have hvalues : ∀ g, strHasPrefix g pre → ∀ key,
      (mergeKeyfiles (some user) (some intern)).getValue g key =
        (keyfileCopy .empty user).getValue g key :=
    fun g hg key => getValue_foldl_of_not_mem honly (hnot g hg)
  have hnone : (sortGroups intern.getGroups).filter (strHasPrefix · pre) = [] := by
    rw [filter_eq_nil_iff]
    intro g hg hprefix
    exact hnot g hprefix hg
  have hall : (keyfileCopy .empty user).getGroups.filter (strHasPrefix · pre) =
      ((keyfileCopy .empty user).getGroups.filter (strHasPrefix · pre)).filter
        (keyfileCopy .empty user).hasGroup := by
    symm
    rw [filter_eq_self]
    intro g hg
    exact hasGroup_iff.mpr (mem_filter.mp hg).1
  have hfold := filter_getGroups_foldl (p := (strHasPrefix · pre)) honly
    (by rw [hnone]; exact nodup_nil) (fun g hg hp => absurd hg (hnot g hp))
    (fun g hg => (mem_filter.mp hg).2) hall
  obtain ⟨q, horder, hempty⟩ := hcopy.order
  rw [hnone, append_nil, horder, filter_filter] at hfold
  refine ⟨⟨_, hfold, fun g hg hno key => ?_⟩, fun file hfile g hg key => ?_⟩
  · have hprefix := (mem_readNames.mp hg).choose_spec.2.2
    rcases Bool.and_eq_false_iff.mp hno with hno | hno
    · exact getValue_of_no_group hno
    · rw [hvalues g hprefix]
      exact hempty g hg hno key
  · rw [hvalues g (mem_sectionNames.mp hg).2]
    exact hcopy.values file hfile g hg key

/-! ## The sections of the configuration data -/

theorem reverse_filter_eq_self {l : List String} (a : String) :
    (l.filter fun b => b = a).reverse = l.filter fun b => b = a := by
  rw [filter_eq, reverse_replicate]

variable (build files pre) in
theorem map_group_precedence :
    (precedence build files pre).map FileSection.group =
      ((readNames pre (activeFiles build files)).filter fun group => group ≠ pre).reverse ++
        (readNames pre (activeFiles build files)).filter fun group => group = pre := by
  have hmap : ∀ (file : ConfigKeyfile) (names : List String),
      (names.map (fileSection build file)).map FileSection.group = names := by
    intro file names
    rw [map_map]
    exact map_id names
  simp only [precedence, readNames, map_append, map_flatMap, hmap, filter_flatMap,
    reverse_flatMap, filter_reverse, Function.comp_def, reverse_reverse,
    reverse_filter_eq_self]

theorem mem_precedence (h : s ∈ precedence build files pre) :
    ∃ file ∈ activeFiles build files, ∃ group ∈ sectionNames pre file,
      s = fileSection build file group := by
  simp only [precedence, mem_append, mem_flatMap, mem_map, mem_filter,
    mem_reverse] at h
  rcases h with ⟨file, hfile, group, ⟨hg, -⟩, rfl⟩ | ⟨file, hfile, group, ⟨hg, -⟩, rfl⟩
  · exact ⟨file, hfile, group, hg, rfl⟩
  · exact ⟨file, hfile, group, hg, rfl⟩

section

variable
  (h : HasSections build (if isDevice then groupPrefixDevice else groupPrefixConnection) (activeFiles build files) keyfile)

include h

variable (matchSpecDevice property device isDevice) in
/-- The infos of the configuration data are looked up like the sections of the files. -/
theorem lookup_construct :
    ∃ names : List String,
      matchSectionInfosConstruct keyfile isDevice =
        names.map (matchSectionInfoInit keyfile isDevice) ∧
      Option.Rel FileSection.Same
        (firstSection matchSpecDevice property device (names.map (namedSection keyfile)))
        (firstSection matchSpecDevice property device (precedence build files
          (if isDevice then groupPrefixDevice else groupPrefixConnection))) := by
  refine ⟨_, rfl, ?_⟩
  generalize hpre : (if isDevice then groupPrefixDevice else groupPrefixConnection) = pre at h ⊢
  obtain ⟨q, horder, hempty⟩ := h.order
  have hnames := map_group_precedence build files pre
  have hsame : List.Forall₂ FileSection.Same
      (((precedence build files pre).map FileSection.group).map (namedSection keyfile))
      (precedence build files pre) := by
    rw [map_map, forall₂_map_left_iff, forall₂_same]
    intro s hs
    obtain ⟨file, hfile, group, hg, rfl⟩ := mem_precedence hs
    exact ⟨rfl, fun key => h.values file hfile group hg key⟩
  have hrel := firstSection_same matchSpecDevice property device hsame
  have hunread : ∀ s ∈ ((precedence build files pre).map FileSection.group).map
      (namedSection keyfile), q s.group = false → ∀ key, s.values.getValue s.group key = none := by
    intro s hs hno key
    obtain ⟨group, hg, rfl⟩ := mem_map.mp hs
    have hread : group ∈ readNames pre (activeFiles build files) := by
      rw [hnames] at hg
      rcases mem_append.mp hg with hg | hg
      · exact (mem_filter.mp (mem_reverse.mp hg)).1
      · exact (mem_filter.mp hg).1
    exact hempty group hread hno key
  have hfilter := firstSection_filter matchSpecDevice property device (fun s => q s.group) hunread
  rw [← hfilter, filter_map, hnames] at hrel
  have hcomm : ∀ p : String → Bool,
      ((readNames pre (activeFiles build files)).filter q).filter p =
        ((readNames pre (activeFiles build files)).filter p).filter q := by
    intro p
    rw [filter_filter, filter_filter]
    simp only [Bool.and_comm]
  rw [horder, hcomm, hcomm, ← filter_reverse, ← filter_append]
  exact hrel

variable (matchSpecDevice property device isDevice) in
theorem lookup_value :
    (matchSectionInfosLookup matchSpecDevice property device
        (matchSectionInfosConstruct keyfile isDevice)).bind Prod.snd =
      (firstSection matchSpecDevice property device (precedence build files
        (if isDevice then groupPrefixDevice else groupPrefixConnection))).bind
          fun s => s.value property := by
  obtain ⟨names, hnames, hrel⟩ := lookup_construct matchSpecDevice property device isDevice h
  rw [hnames, lookup_eq_find, Option.bind_map]
  exact bind_value_of_rel hrel property

end

variable (matchSpecDevice property device) in
theorem lookup_allowedConnections
    (h : HasSections build groupPrefixDevice (activeFiles build files) keyfile) :
    (matchSectionInfosLookup matchSpecDevice property device
        (matchSectionInfosConstruct keyfile true)).map (fun r => r.1.allowedConnections) =
      (firstSection matchSpecDevice property device
        (precedence build files groupPrefixDevice)).map FileSection.allowedConnections := by
  obtain ⟨names, hnames, hrel⟩ := lookup_construct matchSpecDevice property device true h
  rw [if_pos rfl] at hrel
  rw [hnames, lookup_eq_find, Option.map_map]
  rw [← map_allowedConnections_of_rel hrel]
  apply Option.map_congr
  intro s hs
  obtain ⟨name, -, rfl⟩ := mem_map.mp (mem_of_find?_eq_some hs)
  rfl

variable (matchSpecDevice device) in
theorem allowedConnectionsSpecs_eq (self : ConfigData) (hself : self.deviceInfos =
      matchSectionInfosConstruct keyfile true)
    (h : HasSections build groupPrefixDevice (activeFiles build files) keyfile) :
    self.getDeviceAllowedConnectionsSpecs matchSpecDevice device =
      match firstSection matchSpecDevice keyAllowedConnections device
          (precedence build files groupPrefixDevice) with
      | none => some (false, [])
      | some s => s.allowedConnections.map fun specs => (true, specs) := by
  have hlookup := lookup_allowedConnections matchSpecDevice keyAllowedConnections device h
  rw [ConfigData.getDeviceAllowedConnectionsSpecs, hself]
  cases hinfo : matchSectionInfosLookup matchSpecDevice keyAllowedConnections device
      (matchSectionInfosConstruct keyfile true) with
  | none =>
    rw [hinfo, Option.map_none, eq_comm, Option.map_eq_none_iff] at hlookup
    rw [hlookup]
  | some r =>
    rw [hinfo, Option.map_some, eq_comm, Option.map_eq_some_iff] at hlookup
    obtain ⟨s, hs, hallowed⟩ := hlookup
    rw [hs]
    dsimp only
    rw [hallowed]

/-- The values are those of the first section, and the specifications too if and only if the first
section for allowed connections has them. -/
theorem configSections_precedence_iff (build : ConfigBuild) (files : List (ConfigKeyfile × Bool))
    (intern : ConfigKeyfile) (matchSpecDevice : List Bytes → δ → Bool) (device : δ)
    (property property' : String)
    (hconnection : SectionsDisjoint groupPrefixConnection (activeFiles build files))
    (hdevice : SectionsDisjoint groupPrefixDevice (activeFiles build files))
    (hintern : ∀ group, strHasPrefix group groupPrefixConnection ∨
      strHasPrefix group groupPrefixDevice → intern.hasGroup group = false)
    (hproperty : '.' ∈ property.toList) (hproperty' : property' ≠ "") :
    (ConfigData.getConnectionDefault matchSpecDevice
          (.new (some (readConfigs build files)) (some intern)) property device =
        (firstSection matchSpecDevice property device
          (precedence build files groupPrefixConnection)).bind (fun s => s.value property) ∧
      ConfigData.getDeviceConfig matchSpecDevice
          (.new (some (readConfigs build files)) (some intern)) property' device =
        (firstSection matchSpecDevice property' device
          (precedence build files groupPrefixDevice)).bind (fun s => s.value property') ∧
      ConfigData.getDeviceAllowedConnectionsSpecs matchSpecDevice
          (.new (some (readConfigs build files)) (some intern)) device =
        some (match firstSection matchSpecDevice keyAllowedConnections device
            (precedence build files groupPrefixDevice) with
          | none => (false, [])
          | some s => (true, s.allowedConnections.getD []))) ↔
      ∀ s ∈ firstSection matchSpecDevice keyAllowedConnections device
        (precedence build files groupPrefixDevice), s.allowedConnections.isSome := by
  have hreadConnection := hasSections_merge (readFrom_files (.inl rfl) hconnection)
    fun group h => hintern group (.inl h)
  have hreadDevice := hasSections_merge (readFrom_files (.inr rfl) hdevice)
    fun group h => hintern group (.inr h)
  have hvalue := lookup_value matchSpecDevice property device false hreadConnection
  have hvalue' := lookup_value matchSpecDevice property' device true hreadDevice
  have hspecs := allowedConnectionsSpecs_eq matchSpecDevice device
    (.new (some (readConfigs build files)) (some intern)) rfl hreadDevice
  constructor
  · rintro ⟨-, -, hok⟩ s hs
    rw [hspecs, Option.mem_def.mp hs] at hok
    dsimp only at hok
    cases hallowed : s.allowedConnections with
    | none =>
      rw [hallowed] at hok
      cases hok
    | some specs => rfl
  · intro hok
    refine ⟨?_, ?_, ?_⟩
    · rw [ConfigData.getConnectionDefault, if_neg (not_not.mpr hproperty)]
      exact hvalue
    · rw [ConfigData.getDeviceConfig, if_neg hproperty']
      exact hvalue'
    · rw [hspecs]
      cases hs : firstSection matchSpecDevice keyAllowedConnections device
          (precedence build files groupPrefixDevice) with
      | none => rfl
      | some s =>
        obtain ⟨specs, hallowed⟩ := Option.isSome_iff_exists.mp (hok s hs)
        simp [hallowed]

def plainBuild : ConfigBuild := ⟨[], fun _ => true⟩

def stopMatchFile : ConfigKeyfile := empty.setValue "device-x" keyStopMatch (ascii "true")

/-- The first section of the second file does not match `eth0`. -/
def exampleFiles : List (ConfigKeyfile × Bool) :=
  [(((empty.setValue "connection-a" "ipv6.mtu" (ascii "9")).setValue "connection-b" "ipv6.mtu"
      (ascii "8")).setValue "device" keyAllowedConnections (ascii "eth0"), true),
    ((((empty.setValue "connection" "ipv6.mtu" (ascii "7")).setValue "connection-c" "ipv6.mtu"
      (ascii "6")).setValue "connection-c" keyMatchDevice (ascii "eth1")).setValue "device-x"
      keyAllowedConnections (ascii "eth2"), false)]

theorem configSections_precedence_exampleFiles :
    (ConfigData.getConnectionDefault List.contains
          (.new (some (readConfigs plainBuild exampleFiles)) (some empty)) "ipv6.mtu"
          (ascii "eth0") = some (ascii "9")) ∧
      ConfigData.getDeviceAllowedConnectionsSpecs List.contains
          (.new (some (readConfigs plainBuild exampleFiles)) (some empty)) (ascii "eth0") =
        some (true, [ascii "eth2"]) := by
  have hgroups : (activeFiles plainBuild exampleFiles).Pairwise fun file file' =>
      ∀ group ∈ file.getGroups, group ∉ file'.getGroups := by decide +kernel
  have hdisjoint (pre : String) : SectionsDisjoint pre (activeFiles plainBuild exampleFiles) :=
    hgroups.imp fun h group _ hboth =>
      h group (hasGroup_iff.mp hboth.1) (hasGroup_iff.mp hboth.2)
  have h := (configSections_precedence_iff plainBuild exampleFiles empty List.contains
    (ascii "eth0") "ipv6.mtu" "mtu" (hdisjoint _) (hdisjoint _) (fun _ _ => rfl) (by decide)
    (by decide)).mpr (by decide +kernel)
  have hvalue : (firstSection List.contains "ipv6.mtu" (ascii "eth0") (precedence plainBuild
      exampleFiles groupPrefixConnection)).bind (fun s => s.value "ipv6.mtu") =
        some (ascii "9") := by decide +kernel
  have hspecs : (firstSection List.contains keyAllowedConnections (ascii "eth0") (precedence
      plainBuild exampleFiles groupPrefixDevice)).map (fun s => s.allowedConnections) =
        some (some [ascii "eth2"]) := by decide +kernel
  obtain ⟨s, hs, hallowed⟩ := Option.map_eq_some_iff.mp hspecs
  refine ⟨h.1.trans hvalue, h.2.2.trans ?_⟩
  rw [hs]
  dsimp only
  rw [hallowed]
  rfl

/-- The assertion fails for a section that only stops the match. -/
theorem allowedConnections_fails_stopMatch :
    ¬ ∀ (files : List (ConfigKeyfile × Bool)) (intern : ConfigKeyfile),
      SectionsDisjoint groupPrefixDevice (activeFiles plainBuild files) →
      (∀ group, strHasPrefix group groupPrefixConnection ∨
        strHasPrefix group groupPrefixDevice → intern.hasGroup group = false) →
      ConfigData.getDeviceAllowedConnectionsSpecs (fun _ _ => true)
        (.new (some (readConfigs plainBuild files)) (some intern)) () ≠ none := by
  intro h
  refine h [(stopMatchFile, true)] empty (pairwise_singleton _ _) (fun _ _ => rfl) ?_
  decide +kernel

end NetworkManager.Core
