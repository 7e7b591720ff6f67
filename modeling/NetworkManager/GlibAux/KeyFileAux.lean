import NetworkManager.Lib.KeyFile
import NetworkManager.Lib.Runs

/-!
# The key file database

`NMKeyFileDB` keeps the keys of one group of a key file in memory, and writes the key file when it
is dirty. The file is read as `nm_key_file_db_start` reads it, so it is a key file, the empty one
where the text cannot be read. Key files are the `GKeyFile` of the library: their keys are the
names that it accepts, and `joinList` is the raw value that it stores for a list of strings.
-/

namespace NetworkManager.GlibAux

open Lib

variable {γ κ ν τ : Type*} [DecidableEq γ] [DecidableEq κ] [DecidableEq ν]

/-- The fields of `NMKeyFileDB`, and how often it called its got-dirty callback. -/
structure KeyFileDB (γ κ ν : Type*) where
  groupName : γ
  kf : KeyFile γ κ ν
  dirty : Bool
  groupsPruned : Bool
  gotDirtyCalls : ℕ

/-- The database after `nm_key_file_db_new` and `nm_key_file_db_start`. -/
def keyFileDbStart (groupName : γ) (file : KeyFile γ κ ν) : KeyFileDB γ κ ν :=
  ⟨groupName, file, false, false, 0⟩

variable (joinList : List τ → ν) (self : KeyFileDB γ κ ν)

def keyFileDbGetValue (key : κ) : Option ν := self.kf.getValue self.groupName key

def KeyFileDB.withKf (kf : KeyFile γ κ ν) : KeyFileDB γ κ ν := { self with kf }

def gotDirty : KeyFileDB γ κ ν :=
  { self with dirty := true, gotDirtyCalls := self.gotDirtyCalls + 1 }

def keyFileDbRemoveKey (key : Option κ) : KeyFileDB γ κ ν :=
  match key with
  | none => self
  | some key =>
    let removed := self.withKf (self.kf.removeKey self.groupName key)
    if !self.dirty && (self.kf.hasKey self.groupName key).isNone then gotDirty removed else removed

/-- What `nm_key_file_db_set_value` and `nm_key_file_db_set_string_list` share: the raw value is
stored, and the database got dirty if the key had no value or another one before. -/
def keyFileDbStore (key : κ) (value : ν) : KeyFileDB γ κ ν :=
  let stored := self.withKf (self.kf.setValue self.groupName key value)
  match self.kf.getValue self.groupName key with
  | none => if !self.dirty then gotDirty stored else stored
  | some oldValue =>
    if !self.dirty && stored.kf.getValue self.groupName key ≠ some oldValue then gotDirty stored
    else stored

def keyFileDbSetValue (key : κ) (value : Option ν) : KeyFileDB γ κ ν :=
  match value with
  | none => keyFileDbRemoveKey self (some key)
  | some value => keyFileDbStore self key value

def keyFileDbSetStringList (key : κ) (value : Option (List τ)) : KeyFileDB γ κ ν :=
  match value with
  | none => keyFileDbRemoveKey self (some key)
  | some value => keyFileDbStore self key (joinList value)

/-- What the first `nm_key_file_db_prune` does with a key of the key file that it replaces. -/
def pruneCopy (predicate : κ → Bool) (src : KeyFile γ κ ν) (self : KeyFileDB γ κ ν) (key : κ) :
    KeyFileDB γ κ ν :=
  if predicate key then
    match src.getValue self.groupName key with
    | some value => self.withKf (self.kf.setValue self.groupName key value)
    | none => { self with dirty := true }
  else self

/-- What a later `nm_key_file_db_prune` does with a key. -/
def pruneRemove (predicate : κ → Bool) (self : KeyFileDB γ κ ν) (key : κ) : KeyFileDB γ κ ν :=
  if predicate key then self
  else { self.withKf (self.kf.removeKey self.groupName key) with dirty := true }

def keyFileDbPrune (predicate : κ → Bool) : KeyFileDB γ κ ν :=
  let keys := self.kf.getKeys self.groupName
  if self.groupsPruned then keys.foldl (pruneRemove predicate) self
  else keys.foldl (pruneCopy predicate self.kf)
    { self with kf := .empty, groupsPruned := true, dirty := true }

/-- The database and its file. -/
structure KeyFileStore (γ κ ν : Type*) where
  db : KeyFileDB γ κ ν
  file : KeyFile γ κ ν

/-- `nm_key_file_db_to_file`, where the file can be written. -/
def keyFileDbToFile (s : KeyFileStore γ κ ν) (force : Bool) : KeyFileStore γ κ ν :=
  if !force && !s.db.dirty then s
  else ⟨{ s.db with dirty := false }, s.db.kf⟩

/-- The operations on a started database. -/
inductive KeyFileDbOp (κ ν τ : Type*)
  | setValue (key : κ) (value : Option ν)
  | setStringList (key : κ) (value : Option (List τ))
  | removeKey (key : Option κ)
  | prune (predicate : κ → Bool)
  | toFile (force : Bool)

def KeyFileStore.step (s : KeyFileStore γ κ ν) : KeyFileDbOp κ ν τ → KeyFileStore γ κ ν
  | .setValue key value => { s with db := keyFileDbSetValue s.db key value }
  | .setStringList key value => { s with db := keyFileDbSetStringList joinList s.db key value }
  | .removeKey key => { s with db := keyFileDbRemoveKey s.db key }
  | .prune predicate => { s with db := keyFileDbPrune s.db predicate }
  | .toFile force => keyFileDbToFile s force

/-!
## The key file database and its file

While the database is not dirty, its group has the same values as the file. This is what lets
`nm_key_file_db_to_file` skip the write. Every operation keeps it except one: removing a key that
exists, since `nm_key_file_db_remove_key` asks for an error, and there is one only if the group is
missing.
-/

variable {γ κ ν τ : Type*} [DecidableEq γ] [DecidableEq κ] [DecidableEq ν] {joinList : List τ → ν}
  {self : KeyFileDB γ κ ν} {s : KeyFileStore γ κ ν} {op : KeyFileDbOp κ ν τ} {key : κ}
  {kf : KeyFile γ κ ν} {value : ν} {self' : KeyFileDB γ κ ν}

/-! ## What an operation is for -/

/-- The values that an operation asks for, given the values before it. -/
def KeyFileDbOp.effect (joinList : List τ → ν) (values : κ → Option ν) :
    KeyFileDbOp κ ν τ → (κ → Option ν)
  | .setValue key value => Function.update values key value
  | .setStringList key value => Function.update values key (value.map joinList)
  | .removeKey none => values
  | .removeKey (some key) => Function.update values key none
  | .prune predicate => fun key => if predicate key then values key else none
  | .toFile _ => values

/-- The key that an operation removes by name. -/
def KeyFileDbOp.removedKey : KeyFileDbOp κ ν τ → Option κ
  | .setValue key none => some key
  | .setStringList key none => some key
  | .removeKey key => key
  | _ => none

/-- Whether an operation sets or removes a key. -/
def KeyFileDbOp.isEdit : KeyFileDbOp κ ν τ → Bool
  | .setValue .. => true
  | .setStringList .. => true
  | .removeKey _ => true
  | _ => false

def KeyFileStore.fileValue (s : KeyFileStore γ κ ν) (key : κ) : Option ν :=
  s.file.getValue s.db.groupName key

/-- A value that differs from the file makes the database dirty. -/
def KeyFileStore.Remembers (s : KeyFileStore γ κ ν) : Prop :=
  (∃ key, keyFileDbGetValue s.db key ≠ s.fileValue key) → s.db.dirty

/-- The operation removes a key that exists, and nothing was dirty before. -/
def KeyFileStore.Forgets (s : KeyFileStore γ κ ν) (op : KeyFileDbOp κ ν τ) : Prop :=
  s.db.dirty = false ∧ ∃ key ∈ op.removedKey, (keyFileDbGetValue s.db key).isSome

/-! ## One edit -/

/-- What setting a key to a value, or removing it, does to the database. -/
structure KeyFileDB.Edited (db db' : KeyFileDB γ κ ν) (key : κ) (value : Option ν) : Prop where
  groupName : db'.groupName = db.groupName
  values : keyFileDbGetValue db' = Function.update (keyFileDbGetValue db) key value
  calls : db'.gotDirtyCalls =
    db.gotDirtyCalls + if db.dirty = false ∧ db'.dirty then 1 else 0
  dirty : db.dirty → db'.dirty
  clean : db'.dirty = false → value ≠ keyFileDbGetValue db key →
    value = none ∧ (keyFileDbGetValue db key).isSome
  forgets : db.dirty = false → value = none → (keyFileDbGetValue db key).isSome →
    db'.dirty = false

omit [DecidableEq γ] [DecidableEq κ] [DecidableEq ν] in
@[simp] theorem withKf_groupName :
    (self.withKf kf).groupName = self.groupName := rfl

omit [DecidableEq ν] in
theorem values_setValue :
    keyFileDbGetValue (self.withKf (self.kf.setValue self.groupName key value)) =
      Function.update (keyFileDbGetValue self) key (some value) := by
  funext key'
  simp only [keyFileDbGetValue, KeyFileDB.withKf, KeyFile.getValue_setValue, true_and,
    Function.update_apply]

omit [DecidableEq ν] in
theorem values_removeKey (self : KeyFileDB γ κ ν) (key : κ) :
    keyFileDbGetValue (self.withKf (self.kf.removeKey self.groupName key)) =
      Function.update (keyFileDbGetValue self) key none := by
  funext key'
  simp only [keyFileDbGetValue, KeyFileDB.withKf, KeyFile.getValue_removeKey, true_and,
    Function.update_apply]

omit [DecidableEq ν] in
theorem getValue_of_hasKey (h : self.kf.hasKey self.groupName key = none) :
    keyFileDbGetValue self key = none :=
  KeyFile.getValue_of_no_group (KeyFile.hasKey_eq_none.mp h)

omit [DecidableEq ν] in
theorem edited_of_seen {value : Option ν} {seen : Bool}
    (hvalues : keyFileDbGetValue (self.withKf kf) = Function.update (keyFileDbGetValue self) key value)
    (hseen : seen = false → value ≠ keyFileDbGetValue self key → value = none ∧ (keyFileDbGetValue self key).isSome)
    (hforgets : value = none → (keyFileDbGetValue self key).isSome → seen = false) :
    self.Edited (if !self.dirty && seen then gotDirty (self.withKf kf) else self.withKf kf)
      key value := by
  have hdirty' : (self.withKf kf).dirty = self.dirty := rfl
  cases hdirty : self.dirty with
  | true =>
    rw [hdirty] at hdirty'
    simp only [Bool.not_true, Bool.false_and, Bool.false_eq_true, if_false]
    exact ⟨rfl, hvalues, by simp [KeyFileDB.withKf, hdirty], fun _ => hdirty', by simp [hdirty'],
      by simp [hdirty]⟩
  | false =>
    rw [hdirty] at hdirty'
    cases seen with
    | true =>
      have hsome : ¬ (value = none ∧ (keyFileDbGetValue self key).isSome) :=
        fun h => Bool.noConfusion (hforgets h.1 h.2)
      simp only [Bool.not_false, Bool.and_self, if_true]
      exact ⟨rfl, hvalues, by simp [gotDirty, KeyFileDB.withKf, hdirty], by simp [gotDirty],
        by simp [gotDirty], fun _ hnone hold => absurd ⟨hnone, hold⟩ hsome⟩
    | false =>
      simp only [Bool.and_false, Bool.false_eq_true, if_false]
      exact ⟨rfl, hvalues, by simp [KeyFileDB.withKf, hdirty], by simp [hdirty],
        fun _ => hseen rfl, fun _ _ _ => hdirty'⟩

omit [DecidableEq ν] in
theorem removeKey_edited : self.Edited (keyFileDbRemoveKey self (some key)) key none := by
  apply edited_of_seen (values_removeKey self key)
  · intro _ hne
    exact ⟨rfl, Option.isSome_iff_ne_none.mpr hne.symm⟩
  · intro _ hold
    cases hkey : self.kf.hasKey self.groupName key with
    | none => simp [getValue_of_hasKey hkey] at hold
    | some found => rfl

theorem store_eq :
    keyFileDbStore self key value =
      if !self.dirty && decide (some value ≠ keyFileDbGetValue self key) then
        gotDirty (self.withKf (self.kf.setValue self.groupName key value))
      else self.withKf (self.kf.setValue self.groupName key value) := by
  have hnew : (self.withKf (self.kf.setValue self.groupName key value)).kf.getValue
      self.groupName key = some value := by simp [KeyFileDB.withKf]
  unfold keyFileDbStore keyFileDbGetValue
  simp only [hnew]
  cases hold : self.kf.getValue self.groupName key with
  | none => simp
  | some oldValue => rfl

theorem store_edited : self.Edited (keyFileDbStore self key value) key (some value) := by
  rw [store_eq]
  apply edited_of_seen values_setValue
  · intro hseen hne
    exact absurd (by simpa using hseen) hne
  · intro hnone
    cases hnone

/-! ## Pruning -/

omit [DecidableEq ν] in
theorem foldl_pruneRemove (predicate : κ → Bool) (keys : List κ) (self : KeyFileDB γ κ ν)
    (h : keys.foldl (pruneRemove predicate) self = self') :
    self'.groupName = self.groupName ∧
      (∀ key, keyFileDbGetValue self' key =
        if key ∈ keys ∧ ¬ predicate key then none else keyFileDbGetValue self key) ∧
      (self.dirty → self'.dirty) ∧ (self'.dirty = false → ∀ key ∈ keys, predicate key) := by
  induction keys generalizing self with
  | nil =>
    subst h
    simp
  | cons key keys ih =>
    obtain ⟨hname, hvalues, hdirty, hclean⟩ := ih _ h
    by_cases hkeep : predicate key
    · simp only [pruneRemove, hkeep, if_true] at hname hvalues hdirty
      refine ⟨hname, fun key' => ?_, hdirty, fun h' => List.forall_mem_cons.mpr ⟨hkeep, hclean h'⟩⟩
      rw [hvalues]
      by_cases hk : key' = key
      · simp [hk, hkeep]
      · simp [hk]
    · simp only [pruneRemove, hkeep, Bool.false_eq_true, if_false] at hname hvalues hdirty
      refine ⟨hname, fun key' => ?_, fun _ => hdirty trivial, fun h' => ?_⟩
      · have hremove := congrFun (values_removeKey self key) key'
        rw [hvalues]
        change (if _ then none else
          keyFileDbGetValue (self.withKf (self.kf.removeKey self.groupName key)) key') = _
        rw [hremove]
        by_cases hk : key' = key
        · simp [hk, hkeep]
        · simp [hk]
      · exact absurd (hdirty trivial) (by simp [h'])

omit [DecidableEq ν] in
theorem foldl_pruneCopy (predicate : κ → Bool) (src : KeyFile γ κ ν) (keys : List κ)
    (self : KeyFileDB γ κ ν) (h : keys.foldl (pruneCopy predicate src) self = self') :
    self'.groupName = self.groupName ∧
      (∀ key, keyFileDbGetValue self' key =
        if key ∈ keys ∧ predicate key ∧ (src.getValue self.groupName key).isSome then
          src.getValue self.groupName key
        else keyFileDbGetValue self key) ∧
      (self.dirty → self'.dirty) := by
  induction keys generalizing self with
  | nil =>
    subst h
    simp
  | cons key keys ih =>
    obtain ⟨hname, hvalues, hdirty⟩ := ih _ h
    by_cases hkeep : predicate key
    · cases hsrc : src.getValue self.groupName key with
      | none =>
        simp only [pruneCopy, hkeep, hsrc, if_true] at hname hvalues hdirty
        refine ⟨hname, fun key' => ?_, fun _ => hdirty trivial⟩
        rw [hvalues]
        by_cases hk : key' = key
        · simp [hk, hsrc, keyFileDbGetValue]
        · simp [hk, keyFileDbGetValue]
      | some value =>
        simp only [pruneCopy, hkeep, hsrc, if_true] at hname hvalues hdirty
        refine ⟨hname, fun key' => ?_, hdirty⟩
        rw [hvalues, values_setValue]
        by_cases hk : key' = key
        · simp [hk, hsrc, hkeep]
        · simp [hk]
    · simp only [pruneCopy, hkeep, Bool.false_eq_true, if_false] at hname hvalues hdirty
      refine ⟨hname, fun key' => ?_, hdirty⟩
      rw [hvalues]
      by_cases hk : key' = key
      · simp [hk, hkeep]
      · simp [hk]

omit [DecidableEq ν] in
theorem getValue_of_not_mem_keys (h : key ∉ self.kf.getKeys self.groupName) :
    keyFileDbGetValue self key = none := by
  rw [KeyFile.mem_getKeys] at h
  simpa [keyFileDbGetValue] using h

omit [DecidableEq ν] in
theorem prune_spec (self : KeyFileDB γ κ ν) (predicate : κ → Bool) :
    (keyFileDbPrune self predicate).groupName = self.groupName ∧
      (∀ key, keyFileDbGetValue (keyFileDbPrune self predicate) key =
        if predicate key then keyFileDbGetValue self key else none) ∧
      (self.dirty → (keyFileDbPrune self predicate).dirty) ∧
      ((keyFileDbPrune self predicate).dirty = false →
        ∀ key, keyFileDbGetValue (keyFileDbPrune self predicate) key =
          keyFileDbGetValue self key) := by
  by_cases hpruned : self.groupsPruned
  · obtain ⟨hname, hvalues, hdirty, hclean⟩ :=
      foldl_pruneRemove predicate (self.kf.getKeys self.groupName) self rfl
    simp only [keyFileDbPrune, hpruned, if_true]
    refine ⟨hname, fun key => ?_, hdirty, fun h key => ?_⟩
    · rw [hvalues]
      by_cases hmem : key ∈ self.kf.getKeys self.groupName
      · by_cases hkeep : predicate key <;> simp [hmem, hkeep]
      · simp [hmem, getValue_of_not_mem_keys hmem]
    · rw [hvalues, if_neg]
      rintro ⟨hmem, hkeep⟩
      exact hkeep (hclean h key hmem)
  · obtain ⟨hname, hvalues, hdirty⟩ :=
      foldl_pruneCopy predicate self.kf (self.kf.getKeys self.groupName)
        { self with kf := .empty, groupsPruned := true, dirty := true } rfl
    simp only [keyFileDbPrune, hpruned, Bool.false_eq_true, if_false]
    refine ⟨hname, fun key => ?_, fun _ => hdirty rfl, fun h => ?_⟩
    · rw [hvalues]
      by_cases hmem : key ∈ self.kf.getKeys self.groupName
      · have hsome := KeyFile.mem_getKeys.mp hmem
        by_cases hkeep : predicate key <;> simp [hmem, hkeep, hsome, keyFileDbGetValue]
      · have hnone : self.kf.getValue self.groupName key = none := getValue_of_not_mem_keys hmem
        simp [hmem, hnone, keyFileDbGetValue]
    · exact absurd (hdirty rfl) (by simp [h])

/-! ## Runs -/

omit [DecidableEq ν] in
theorem remembers_iff :
    s.Remembers ↔ (s.db.dirty = false → ∀ key, keyFileDbGetValue s.db key = s.fileValue key) := by
  constructor
  · intro h hclean key
    by_contra hne
    exact absurd (h ⟨key, hne⟩) (by simp [hclean])
  · rintro h ⟨key, hne⟩
    by_contra hclean
    exact hne (h (by simpa using hclean) key)

theorem edited_remembers_iff {value : Option ν} {file : KeyFile γ κ ν}
    (h : self.Edited self' key value) (hself : (KeyFileStore.mk self file).Remembers) :
    ¬ (self.dirty = false ∧ value = none ∧ (keyFileDbGetValue self key).isSome) ↔
      (KeyFileStore.mk self' file).Remembers := by
  rw [remembers_iff] at hself ⊢
  have hfile : ∀ key, (KeyFileStore.mk self' file).fileValue key =
      (KeyFileStore.mk self file).fileValue key := by
    intro key
    simp only [KeyFileStore.fileValue, h.groupName]
  constructor
  · intro hforgets (hclean' : self'.dirty = false) key'
    have hclean : self.dirty = false := by
      by_contra hdirty
      exact absurd (h.dirty (by simpa using hdirty)) (by simp [hclean'])
    have hsame : value = keyFileDbGetValue self key := by
      by_contra hne
      exact hforgets ⟨hclean, h.clean hclean' hne⟩
    rw [h.values, hsame, Function.update_eq_self, hfile]
    exact hself hclean key'
  · rintro hself' ⟨hclean, hnone, hsome⟩
    have hclean' := h.forgets hclean hnone hsome
    have hagree := hself' hclean' key
    rw [h.values, Function.update_self, hfile, ← hself hclean key, hnone] at hagree
    simp [← hagree] at hsome

theorem step_values :
    keyFileDbGetValue (s.step joinList op).db =
      op.effect joinList (keyFileDbGetValue s.db) := by
  cases op with
  | setValue key value =>
    cases value with
    | none => exact removeKey_edited.values
    | some value => exact store_edited.values
  | setStringList key value =>
    cases value with
    | none => exact removeKey_edited.values
    | some value => exact store_edited.values
  | removeKey key =>
    cases key with
    | none => rfl
    | some key => exact removeKey_edited.values
  | prune predicate =>
    funext key
    exact (prune_spec _ _).2.1 key
  | toFile force =>
    simp only [KeyFileStore.step, keyFileDbToFile]
    split_ifs <;> rfl

theorem step_gotDirtyCalls (h : op.isEdit) :
    (s.step joinList op).db.gotDirtyCalls =
      s.db.gotDirtyCalls + if s.db.dirty = false ∧ (s.step joinList op).db.dirty then 1 else 0 := by
  cases op with
  | setValue key value =>
    cases value with
    | none => exact removeKey_edited.calls
    | some value => exact store_edited.calls
  | setStringList key value =>
    cases value with
    | none => exact removeKey_edited.calls
    | some value => exact store_edited.calls
  | removeKey key =>
    cases key with
    | none => simp [KeyFileStore.step, keyFileDbRemoveKey]
    | some key => exact removeKey_edited.calls
  | prune predicate => simp [KeyFileDbOp.isEdit] at h
  | toFile force => simp [KeyFileDbOp.isEdit] at h

omit [DecidableEq ν] in
theorem toFile_fileValue (h : s.Remembers) (force : Bool) :
    (keyFileDbToFile s force).fileValue = keyFileDbGetValue s.db := by
  funext key
  simp only [keyFileDbToFile]
  split_ifs with hskip
  · have hclean : s.db.dirty = false := by
      cases force <;> simp_all
    exact (remembers_iff.mp h hclean key).symm
  · rfl

/-- The steps that forget a change are exactly those that remove a key while nothing is dirty. -/
theorem remembers_step_iff (h : s.Remembers) :
    ¬ s.Forgets op ↔ (s.step joinList op).Remembers := by
  have hkept : ∀ {value : ν} {key : κ},
      (KeyFileStore.mk (keyFileDbStore s.db key value) s.file).Remembers :=
    (edited_remembers_iff store_edited h).mp (by simp)
  have hedited (key : κ) : s.db.Edited (keyFileDbRemoveKey s.db (some key)) key none :=
    removeKey_edited
  have hremoved (key : κ) := edited_remembers_iff (hedited key) h
  cases op with
  | setValue key value =>
    cases value with
    | none => exact .trans (by simp [KeyFileStore.Forgets, KeyFileDbOp.removedKey]) (hremoved key)
    | some value =>
      exact iff_of_true (by simp [KeyFileStore.Forgets, KeyFileDbOp.removedKey]) hkept
  | setStringList key value =>
    cases value with
    | none => exact .trans (by simp [KeyFileStore.Forgets, KeyFileDbOp.removedKey]) (hremoved key)
    | some value =>
      exact iff_of_true (by simp [KeyFileStore.Forgets, KeyFileDbOp.removedKey]) hkept
  | removeKey key =>
    cases key with
    | none =>
      exact iff_of_true (by simp [KeyFileStore.Forgets, KeyFileDbOp.removedKey]) h
    | some key => exact .trans (by simp [KeyFileStore.Forgets, KeyFileDbOp.removedKey]) (hremoved key)
  | prune predicate =>
    obtain ⟨hname, _, hdirty, hclean⟩ := prune_spec s.db predicate
    have hforgets : ¬ s.Forgets (.prune predicate : KeyFileDbOp κ ν τ) := by
      simp [KeyFileStore.Forgets, KeyFileDbOp.removedKey]
    refine iff_of_true hforgets (remembers_iff.mpr fun hclean' key => ?_)
    have hclean₀ : s.db.dirty = false := by
      by_contra hdirty₀
      exact absurd (hdirty (by simpa using hdirty₀)) (by
        simpa [KeyFileStore.step] using hclean')
    have hvalue := hclean hclean' key
    have hfile := remembers_iff.mp h hclean₀ key
    simp only [KeyFileStore.step, KeyFileStore.fileValue, hname] at hvalue hfile ⊢
    rw [hvalue, hfile]
  | toFile force =>
    have hforgets : ¬ s.Forgets (.toFile force : KeyFileDbOp κ ν τ) := by
      simp [KeyFileStore.Forgets, KeyFileDbOp.removedKey]
    refine iff_of_true hforgets (remembers_iff.mpr fun _ key => ?_)
    have hvalues : keyFileDbGetValue (s.step joinList (.toFile force)).db =
        keyFileDbGetValue s.db := step_values
    exact (congrFun hvalues key).trans (congrFun (toFile_fileValue h force) key).symm

theorem foldl_values (ops : List (KeyFileDbOp κ ν τ)) :
    keyFileDbGetValue (ops.foldl (KeyFileStore.step joinList) s).db =
      ops.foldl (KeyFileDbOp.effect joinList) (keyFileDbGetValue s.db) := by
  induction ops generalizing s with
  | nil => rfl
  | cons op ops ih => rw [List.foldl_cons, ih, step_values, List.foldl_cons]

def KeyFileStore.start (groupName : γ) (file : KeyFile γ κ ν) : KeyFileStore γ κ ν :=
  ⟨keyFileDbStart groupName file, file⟩

/-- In every run, what was set or removed is not forgotten, and a write without force makes the
file agree with it, exactly as long as no key that exists is removed while nothing is dirty. -/
theorem keyFileDb_neverForgets (joinList : List τ → ν) (groupName : γ) (file : KeyFile γ κ ν)
    (ops : List (KeyFileDbOp κ ν τ)) :
    (Along (KeyFileStore.step joinList) (fun s op => ¬ s.Forgets op)
        (KeyFileStore.start groupName file) ops ↔
      ∀ ops', ops' <+: ops →
        ((ops'.foldl (KeyFileStore.step joinList) (.start groupName file)).Remembers ∧
        (KeyFileStore.step joinList (ops'.foldl (KeyFileStore.step joinList)
            (.start groupName file)) (.toFile false)).fileValue =
          ops'.foldl (KeyFileDbOp.effect joinList) (file.getValue groupName))) ∧
    Along (KeyFileStore.step joinList)
      (fun s op => op.isEdit → (s.step joinList op).db.gotDirtyCalls =
        s.db.gotDirtyCalls + if s.db.dirty = false ∧ (s.step joinList op).db.dirty then 1 else 0)
      (KeyFileStore.start groupName file) ops := by
  have hstart : (KeyFileStore.start groupName file).Remembers :=
    remembers_iff.mpr fun _ _ => rfl
  constructor
  · rw [along_iff_states (fun _ _ => remembers_step_iff) hstart]
    apply forall₂_congr
    intro ops' _
    constructor
    · intro h
      exact ⟨h, (toFile_fileValue h false).trans (foldl_values ops')⟩
    · exact And.left
  · exact along_of_forall fun _ _ => step_gotDirtyCalls

/-- The only key of the file is removed: the database is not dirty, and the file keeps the key. -/
theorem keyFileDb_forgets_removed_key :
    ¬ ∀ (groupName : String) (file : KeyFile String String String)
      (ops : List (KeyFileDbOp String String String)),
      (ops.foldl (KeyFileStore.step (String.intercalate ",")) (.start groupName file)).Remembers := by
  intro h
  have hremembers := h "timestamps"
    ⟨[("timestamps", [("uuid", "1")])], by simp [KeyUnique], by simp [KeyUnique]⟩
    [.removeKey (some "uuid")]
  exact absurd (hremembers ⟨"uuid", by decide⟩) (by decide)

end NetworkManager.GlibAux
