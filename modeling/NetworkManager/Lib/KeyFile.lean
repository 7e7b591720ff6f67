import NetworkManager.Lib.Keyed

/-!
# Key files

A key file is a sequence of groups, each with a sequence of keys and their raw values. No group
and no key of a group occurs twice: where a text repeats them, the groups are merged and the last
value counts. Setting a value keeps the place of a key that exists, and otherwise appends the key,
and where needed the group.
-/

namespace NetworkManager.Lib

open List

variable {γ κ ν : Type*}

/-- A group with its keys and values. -/
abbrev KeyFileGroup (γ κ ν : Type*) := γ × List (κ × ν)

structure KeyFile (γ κ ν : Type*) where
  groups : List (KeyFileGroup γ κ ν)
  uniqueGroups : KeyUnique Prod.fst groups
  uniqueKeys : ∀ g ∈ groups, KeyUnique Prod.fst g.2

namespace KeyFile

@[ext] theorem ext {kf kf' : KeyFile γ κ ν} (h : kf.groups = kf'.groups) : kf = kf' := by
  cases kf
  cases kf'
  cases h
  rfl

instance [DecidableEq γ] [DecidableEq κ] [DecidableEq ν] : DecidableEq (KeyFile γ κ ν) :=
  fun kf kf' => decidable_of_iff (kf.groups = kf'.groups) ⟨ext, fun h => h ▸ rfl⟩

def empty : KeyFile γ κ ν := ⟨[], unique_nil, by simp⟩

variable [DecidableEq γ] {kf : KeyFile γ κ ν} {group group' : γ} {l : List (κ × ν)}
  {hl : KeyUnique Prod.fst l}

/-! ## Groups -/

def getGroups (kf : KeyFile γ κ ν) : List γ := kf.groups.map Prod.fst

def findGroup (kf : KeyFile γ κ ν) (group : γ) : Option (List (κ × ν)) :=
  (lookup Prod.fst group kf.groups).map Prod.snd

def hasGroup (kf : KeyFile γ κ ν) (group : γ) : Bool := (kf.findGroup group).isSome

def pairs (kf : KeyFile γ κ ν) (group : γ) : List (κ × ν) := (kf.findGroup group).getD []

def getKeys (kf : KeyFile γ κ ν) (group : γ) : List κ := (kf.pairs group).map Prod.fst

theorem pairs_of_findGroup (h : kf.findGroup group = some l) : kf.pairs group = l := by
  simp [pairs, h]

theorem mem_of_findGroup (h : kf.findGroup group = some l) : (group, l) ∈ kf.groups := by
  obtain ⟨g, hg, rfl⟩ := Option.map_eq_some_iff.mp h
  have hname := key_of_lookup hg
  rw [← hname]
  exact mem_of_lookup hg

theorem unique_pairs : KeyUnique Prod.fst (kf.pairs group) := by
  cases h : kf.findGroup group with
  | none => simp [pairs, h]
  | some l =>
    rw [pairs_of_findGroup h]
    exact kf.uniqueKeys _ (mem_of_findGroup h)

omit [DecidableEq γ] in
theorem nodup_getGroups : kf.getGroups.Nodup := kf.uniqueGroups

theorem hasGroup_iff : kf.hasGroup group ↔ group ∈ kf.getGroups := by
  simp [hasGroup, findGroup, getGroups, lookup_isSome_iff]

theorem findGroup_eq_none (h : kf.hasGroup group = false) : kf.findGroup group = none := by
  simpa [hasGroup] using h

/-- Give a group these keys and values. -/
def setGroup (kf : KeyFile γ κ ν) (group : γ) (l : List (κ × ν)) (hl : KeyUnique Prod.fst l) :
    KeyFile γ κ ν where
  groups := upsert Prod.fst (group, l) kf.groups
  uniqueGroups := kf.uniqueGroups.upsert
  uniqueKeys := by
    intro g hg
    have hlookup := lookup_of_mem kf.uniqueGroups.upsert hg
    rw [lookup_upsert] at hlookup
    split_ifs at hlookup
    · exact Option.some.inj hlookup ▸ hl
    · exact kf.uniqueKeys g (mem_of_lookup hlookup)

def removeGroup (kf : KeyFile γ κ ν) (group : γ) : KeyFile γ κ ν where
  groups := eraseKey Prod.fst group kf.groups
  uniqueGroups := kf.uniqueGroups.eraseKey
  uniqueKeys g hg := kf.uniqueKeys g (mem_eraseKey.mp hg).1

@[simp] theorem findGroup_setGroup :
    (kf.setGroup group l hl).findGroup group' =
      if group' = group then some l else kf.findGroup group' := by
  simp only [findGroup, setGroup, lookup_upsert]
  split_ifs <;> rfl

@[simp] theorem pairs_setGroup :
    (kf.setGroup group l hl).pairs group' = if group' = group then l else kf.pairs group' := by
  simp only [pairs, findGroup_setGroup]
  split_ifs <;> rfl

@[simp] theorem hasGroup_setGroup :
    (kf.setGroup group l hl).hasGroup group' = (group' = group || kf.hasGroup group') := by
  simp only [hasGroup, findGroup_setGroup]
  split_ifs with h <;> simp [h]

@[simp] theorem findGroup_removeGroup :
    (kf.removeGroup group).findGroup group' =
      if group' = group then none else kf.findGroup group' := by
  simp only [findGroup, removeGroup, lookup_eraseKey]
  split_ifs <;> rfl

theorem getGroups_setGroup :
    (kf.setGroup group l hl).getGroups =
      if kf.hasGroup group then kf.getGroups else kf.getGroups ++ [group] := by
  have hgroup : (lookup Prod.fst group kf.groups).isSome = kf.hasGroup group := by
    simp [hasGroup, findGroup]
  simp only [getGroups, setGroup, map_key_upsert, hgroup]

/-! ## Values -/

variable [DecidableEq κ] {key key' : κ} {value : ν}

def hasKey (kf : KeyFile γ κ ν) (group : γ) (key : κ) : Option Bool :=
  (kf.findGroup group).map fun pairs => (lookup Prod.fst key pairs).isSome

def getValue (kf : KeyFile γ κ ν) (group : γ) (key : κ) : Option ν :=
  (lookup Prod.fst key (kf.pairs group)).map Prod.snd

def setValue (kf : KeyFile γ κ ν) (group : γ) (key : κ) (value : ν) : KeyFile γ κ ν :=
  kf.setGroup group (upsert Prod.fst (key, value) (kf.pairs group)) unique_pairs.upsert

def setOption (kf : KeyFile γ κ ν) (group : γ) (key : κ) (value : Option ν) : KeyFile γ κ ν :=
  match value with
  | none => kf
  | some value => kf.setValue group key value

def removeKey (kf : KeyFile γ κ ν) (group : γ) (key : κ) : KeyFile γ κ ν :=
  if kf.hasGroup group then
    kf.setGroup group (eraseKey Prod.fst key (kf.pairs group)) unique_pairs.eraseKey
  else kf

@[simp] theorem getValue_empty : (empty : KeyFile γ κ ν).getValue group key = none := rfl

theorem getValue_setGroup :
    (kf.setGroup group l hl).getValue group' key =
      if group' = group then (lookup Prod.fst key l).map Prod.snd else kf.getValue group' key := by
  simp only [getValue, pairs_setGroup]
  split_ifs <;> rfl

@[simp] theorem getValue_setValue :
    (kf.setValue group key value).getValue group' key' =
      if group' = group ∧ key' = key then some value else kf.getValue group' key' := by
  rw [setValue, getValue_setGroup]
  by_cases hg : group' = group
  · subst hg
    by_cases hk : key' = key
    · simp [hk]
    · simp [hk, getValue]
  · simp [hg]

theorem getValue_setOption {value : Option ν} :
    (kf.setOption group key value).getValue group' key' =
      if group' = group ∧ key' = key then value.or (kf.getValue group' key')
      else kf.getValue group' key' := by
  cases value with
  | none => simp [setOption]
  | some value => simp [setOption]

theorem getValue_foldl_setOption {fields : List (κ × Option ν)}
    (hfields : KeyUnique Prod.fst fields) :
    (fields.foldl (fun kf field => kf.setOption group field.1 field.2) kf).getValue group' key =
      if group' = group then
        ((lookup Prod.fst key fields).bind Prod.snd).or (kf.getValue group' key)
      else kf.getValue group' key := by
  induction fields generalizing kf with
  | nil => simp
  | cons field fields ih =>
    rw [unique_cons] at hfields
    rw [foldl_cons, ih hfields.2, getValue_setOption, lookup_cons]
    by_cases hgroup : group' = group
    · by_cases hkey : key = field.1
      · have hnone : lookup Prod.fst key fields = none :=
          lookup_eq_none_iff.mpr fun f hf => hkey ▸ hfields.1 f hf
        rw [← hkey]
        simp [hgroup, hnone]
      · simp [hgroup, hkey, Ne.symm hkey]
    · simp [hgroup]

theorem getValue_of_no_group (h : kf.hasGroup group = false) : kf.getValue group key = none := by
  simp [getValue, pairs, findGroup_eq_none h]

@[simp] theorem getValue_removeKey :
    (kf.removeKey group key).getValue group' key' =
      if group' = group ∧ key' = key then none else kf.getValue group' key' := by
  unfold removeKey
  split_ifs with hgroup hk hk
  · rw [getValue_setGroup, if_pos hk.1, hk.2, lookup_eraseKey, if_pos rfl, Option.map_none]
  · rw [getValue_setGroup, lookup_eraseKey]
    by_cases hg : group' = group
    · subst hg
      rw [if_pos rfl, if_neg (fun h => hk ⟨rfl, h⟩)]
      rfl
    · rw [if_neg hg]
  · rw [hk.1]
    exact getValue_of_no_group (by simpa using hgroup)
  · rfl

@[simp] theorem getValue_removeGroup :
    (kf.removeGroup group).getValue group' key =
      if group' = group then none else kf.getValue group' key := by
  simp only [getValue, pairs, findGroup_removeGroup]
  split_ifs <;> rfl

theorem mem_getKeys : key ∈ kf.getKeys group ↔ (kf.getValue group key).isSome := by
  simp [getKeys, getValue, lookup_isSome_iff]

theorem hasKey_eq_none : kf.hasKey group key = none ↔ kf.hasGroup group = false := by
  simp [hasKey, hasGroup]

/-!
## Changing one group of a key file after the other

A change of one group leaves the values of the others and their order. What a sequence of such
changes builds is known from what each of them does alone, as long as it does so no group twice.
-/

variable {kf' kf'' : KeyFile γ κ ν}

/-- Only one group changed: it may be gone, and where it is new, it is the last one. -/
structure OnlyGroup (group : γ) (kf kf' : KeyFile γ κ ν) : Prop where
  getValue : ∀ g, g ≠ group → ∀ key, kf'.getValue g key = kf.getValue g key
  getGroups : kf'.getGroups = kf.getGroups ∨
    kf'.getGroups = kf.getGroups.filter (· ≠ group) ∨
    kf'.getGroups = kf.getGroups.filter (· ≠ group) ++ [group]

theorem OnlyGroup.refl : OnlyGroup group kf kf := ⟨fun _ _ _ => rfl, .inl rfl⟩

theorem OnlyGroup.trans (h : OnlyGroup group kf kf') (h' : OnlyGroup group kf' kf'') :
    OnlyGroup group kf kf'' := by
  refine ⟨fun g hg key => (h'.getValue g hg key).trans (h.getValue g hg key), ?_⟩
  rcases h.getGroups with hk | hk | hk
  · rw [← hk]
    exact h'.getGroups
  · rcases h'.getGroups with hk' | hk' | hk' <;> simp [hk', hk]
  · rcases h'.getGroups with hk' | hk' | hk' <;> simp [hk', hk]

theorem OnlyGroup.foldl {α : Type*} {f : KeyFile γ κ ν → α → KeyFile γ κ ν} {l : List α}
    (h : ∀ kf a, OnlyGroup group kf (f kf a)) : OnlyGroup group kf (l.foldl f kf) := by
  induction l generalizing kf with
  | nil => exact .refl
  | cons a l ih => exact (h kf a).trans ih

omit [DecidableEq κ] in
theorem filter_getGroups_of_no_group (h : kf.hasGroup group = false) :
    kf.getGroups.filter (· ≠ group) = kf.getGroups := by
  apply filter_eq_self.mpr
  intro g hg
  have hne : g ≠ group := by
    rintro rfl
    simp [hasGroup_iff.mpr hg] at h
  simpa using hne

theorem onlyGroup_setGroup {l : List (κ × ν)} {hl : KeyUnique Prod.fst l} :
    OnlyGroup group kf (kf.setGroup group l hl) := by
  refine ⟨fun g hg key => by rw [getValue_setGroup, if_neg hg], ?_⟩
  rw [getGroups_setGroup]
  split_ifs with hgroup
  · exact .inl rfl
  · right
    right
    rw [filter_getGroups_of_no_group (by simpa using hgroup)]

theorem onlyGroup_setValue : OnlyGroup group kf (kf.setValue group key value) := onlyGroup_setGroup

theorem onlyGroup_setOption {value : Option ν} :
    OnlyGroup group kf (kf.setOption group key value) := by
  cases value with
  | none => exact .refl
  | some value => exact onlyGroup_setValue

theorem onlyGroup_removeKey : OnlyGroup group kf (kf.removeKey group key) := by
  unfold removeKey
  split_ifs
  · exact onlyGroup_setGroup
  · exact .refl

theorem onlyGroup_removeGroup : OnlyGroup group kf (kf.removeGroup group) := by
  refine ⟨fun g hg key => by rw [getValue_removeGroup, if_neg hg], .inr (.inl ?_)⟩
  simp only [getGroups, removeGroup, eraseKey, filter_map]
  rfl

/-- A change that only sees the values of the group that it changes. -/
structure GroupStep (group : γ) (f : KeyFile γ κ ν → KeyFile γ κ ν) : Prop where
  only : ∀ kf, OnlyGroup group kf (f kf)
  congr : ∀ kf kf', (∀ key, kf.getValue group key = kf'.getValue group key) →
    ∀ key, (f kf).getValue group key = (f kf').getValue group key

theorem GroupStep.foldl {α : Type*} {f : KeyFile γ κ ν → α → KeyFile γ κ ν} {l : List α}
    (h : ∀ a ∈ l, GroupStep group fun kf => f kf a) : GroupStep group fun kf => l.foldl f kf := by
  induction l with
  | nil => exact ⟨fun _ => .refl, fun _ _ heq => heq⟩
  | cons a l ih =>
    have ha := h a mem_cons_self
    have hl := ih fun b hb => h b (mem_cons_of_mem a hb)
    exact ⟨fun kf => (ha.only kf).trans (hl.only _),
      fun kf kf' heq => hl.congr _ _ (ha.congr kf kf' heq)⟩

section Steps

variable {f f' : KeyFile γ κ ν → KeyFile γ κ ν}

theorem groupStep_id : GroupStep group fun kf : KeyFile γ κ ν => kf :=
  ⟨fun _ => .refl, fun _ _ heq => heq⟩

theorem GroupStep.comp (h : GroupStep group f) (h' : GroupStep group f') :
    GroupStep group fun kf => f' (f kf) :=
  ⟨fun kf => (h.only kf).trans (h'.only _), fun kf kf' heq => h'.congr _ _ (h.congr kf kf' heq)⟩

theorem groupStep_setOption {value : KeyFile γ κ ν → Option ν}
    (h : ∀ kf kf', (∀ key, kf.getValue group key = kf'.getValue group key) → value kf = value kf') :
    GroupStep group fun kf => kf.setOption group key (value kf) := by
  refine ⟨fun _ => onlyGroup_setOption, fun kf kf' heq k => ?_⟩
  rw [getValue_setOption, getValue_setOption, h kf kf' heq, heq]

theorem groupStep_setValue {value : KeyFile γ κ ν → ν}
    (h : ∀ kf kf', (∀ key, kf.getValue group key = kf'.getValue group key) → value kf = value kf') :
    GroupStep group fun kf => kf.setValue group key (value kf) := by
  refine ⟨fun _ => onlyGroup_setValue, fun kf kf' heq k => ?_⟩
  rw [getValue_setValue, getValue_setValue, h kf kf' heq, heq]

theorem groupStep_removeKey : GroupStep group fun kf : KeyFile γ κ ν => kf.removeKey group key := by
  refine ⟨fun _ => onlyGroup_removeKey, fun kf kf' heq k => ?_⟩
  rw [getValue_removeKey, getValue_removeKey, heq]

theorem GroupStep.ite {c : KeyFile γ κ ν → Prop} [DecidablePred c] (h : GroupStep group f)
    (h' : GroupStep group f')
    (hc : ∀ kf kf', (∀ key, kf.getValue group key = kf'.getValue group key) → (c kf ↔ c kf')) :
    GroupStep group fun kf => if c kf then f kf else f' kf := by
  refine ⟨fun kf => ?_, fun kf kf' heq k => ?_⟩
  · split_ifs
    · exact h.only kf
    · exact h'.only kf
  · have hiff := hc kf kf' heq
    by_cases hk : c kf
    · simp only [if_pos hk, if_pos (hiff.mp hk)]
      exact h.congr kf kf' heq k
    · simp only [if_neg hk, if_neg fun hk' => hk (hiff.mpr hk')]
      exact h'.congr kf kf' heq k

end Steps

/-! ## A sequence of changes -/

section Sequence

variable {f : KeyFile γ κ ν → γ → KeyFile γ κ ν} {groups : List γ} {p : γ → Bool} {all : List γ}

theorem getValue_foldl_of_not_mem (hf : ∀ kf g, OnlyGroup g kf (f kf g)) (h : group ∉ groups) :
    (groups.foldl f kf).getValue group key = kf.getValue group key := by
  induction groups generalizing kf with
  | nil => rfl
  | cons g groups ih =>
    have hne : group ≠ g := fun heq => h (heq ▸ mem_cons_self)
    rw [foldl_cons, ih fun hmem => h (mem_cons_of_mem g hmem)]
    exact (hf kf g).getValue group hne key

theorem getValue_foldl_of_mem (hf : ∀ g, GroupStep g fun kf => f kf g) (hnodup : groups.Nodup)
    (h : group ∈ groups) :
    (groups.foldl f kf).getValue group key = (f kf group).getValue group key := by
  have honly : ∀ kf g, OnlyGroup g kf (f kf g) := fun kf g => (hf g).only kf
  induction groups generalizing kf with
  | nil => simp at h
  | cons g groups ih =>
    obtain ⟨hg, hnodup⟩ := nodup_cons.mp hnodup
    rw [foldl_cons]
    rcases mem_cons.mp h with rfl | hmem
    · exact getValue_foldl_of_not_mem honly hg
    · have hne : group ≠ g := fun heq => hg (heq ▸ hmem)
      rw [ih hnodup hmem]
      exact (hf group).congr _ _ (fun key => (honly kf g).getValue group hne key) key

omit [DecidableEq κ] in
theorem mem_of_filter_getGroups (hall : kf.getGroups.filter p = all.filter kf.hasGroup)
    (hp : p group) (hgroup : kf.hasGroup group) : group ∈ all := by
  have hmem : group ∈ kf.getGroups.filter p :=
    mem_filter.mpr ⟨hasGroup_iff.mp hgroup, hp⟩
  rw [hall] at hmem
  exact (mem_filter.mp hmem).1

theorem hasGroup_iff_of_only (h : OnlyGroup group kf kf') (hne : group' ≠ group) :
    kf'.hasGroup group' = kf.hasGroup group' := by
  rw [Bool.eq_iff_iff, hasGroup_iff, hasGroup_iff]
  rcases h.getGroups with hk | hk | hk <;> simp [hk, hne]

/-- The groups with `p` are in the order in which they were changed. -/
theorem filter_getGroups_foldl (hf : ∀ kf g, OnlyGroup g kf (f kf g))
    (hnodup : (groups.filter p).Nodup) (hnew : ∀ g ∈ groups, p g → g ∉ all) (hp : ∀ g ∈ all, p g)
    (hall : kf.getGroups.filter p = all.filter kf.hasGroup) :
    (groups.foldl f kf).getGroups.filter p =
      (all ++ groups.filter p).filter (groups.foldl f kf).hasGroup := by
  induction groups generalizing kf all with
  | nil => simpa using hall
  | cons g groups ih =>
    have honly := hf kf g
    rw [foldl_cons]
    by_cases hpg : p g
    · have hg : g ∉ all := hnew g mem_cons_self hpg
      rw [filter_cons_of_pos hpg, nodup_cons] at hnodup
      have hno : kf.hasGroup g = false := by
        by_contra hhas
        exact hg (mem_of_filter_getGroups hall hpg (by simpa using hhas))
      have hsame : all.filter (f kf g).hasGroup = all.filter kf.hasGroup :=
        filter_congr fun x hx => hasGroup_iff_of_only honly fun heq => hg (heq ▸ hx)
      have hstep : (f kf g).getGroups.filter p = (all ++ [g]).filter (f kf g).hasGroup := by
        rw [filter_append, hsame, ← hall]
        have hshape : (f kf g).getGroups = kf.getGroups ∨
            (f kf g).getGroups = kf.getGroups ++ [g] := by
          have hgroups := honly.getGroups
          rw [filter_getGroups_of_no_group hno] at hgroups
          tauto
        rcases hshape with hgroups | hgroups
        · have hno' : (f kf g).hasGroup g = false := by
            rw [Bool.eq_false_iff, Ne, hasGroup_iff, hgroups, ← hasGroup_iff, hno]
            decide
          simp [hgroups, hno']
        · have hhas : (f kf g).hasGroup g := by
            rw [hasGroup_iff, hgroups]
            simp
          simp [hgroups, hhas, hpg]
      have hrest := ih hnodup.2 (fun x hx hpx => by
        simp only [mem_append, mem_singleton, not_or]
        refine ⟨hnew x (mem_cons_of_mem g hx) hpx, ?_⟩
        rintro rfl
        exact hnodup.1 (mem_filter.mpr ⟨hx, hpx⟩)) (by simpa [hpg, or_imp, forall_and] using hp)
        hstep
      rw [hrest, filter_cons_of_pos hpg, append_assoc, singleton_append]
    · rw [filter_cons_of_neg hpg] at hnodup ⊢
      have hsame : all.filter (f kf g).hasGroup = all.filter kf.hasGroup := by
        apply filter_congr
        intro x hx
        exact hasGroup_iff_of_only honly fun heq => hpg (heq ▸ hp x hx)
      have hother : (kf.getGroups.filter (· ≠ g)).filter p = kf.getGroups.filter p := by
        rw [filter_filter]
        apply filter_congr
        intro x _
        by_cases hx : x = g
        · simp [hx, hpg]
        · simp [hx]
      have hstep : (f kf g).getGroups.filter p = all.filter (f kf g).hasGroup := by
        rw [hsame, ← hall]
        rcases honly.getGroups with hk | hk | hk
        · rw [hk]
        · rw [hk, hother]
        · rw [hk, filter_append, hother]
          simp [hpg]
      exact ih hnodup (fun x hx => hnew x (mem_cons_of_mem g hx)) hp hstep

end Sequence

/-!
## The groups of a key file as a list

What the operations do to the list of groups: a new group comes last with the keys in the order in
which they are set, and a group that exists keeps its place.
-/

variable {l' : List (κ × ν)} {names : List γ} {g : KeyFileGroup γ κ ν}

omit [DecidableEq κ] in
theorem lookup_groups_of_no_group (h : kf.hasGroup group = false) :
    lookup Prod.fst group kf.groups = none := by
  simpa [hasGroup, findGroup] using h

theorem groups_setValue_new (h : kf.hasGroup group = false) :
    (kf.setValue group key value).groups = kf.groups ++ [(group, [(key, value)])] := by
  have hpairs : kf.pairs group = [] := by simp [pairs, findGroup_eq_none h]
  simp only [setValue, setGroup, hpairs]
  exact upsert_of_lookup_none rfl (lookup_groups_of_no_group h)

theorem groups_setValue_last {groups : List (KeyFileGroup γ κ ν)}
    (h : kf.groups = groups ++ [(group, l)]) (hkey : lookup Prod.fst key l = none) :
    (kf.setValue group key value).groups = groups ++ [(group, l ++ [(key, value)])] := by
  have hunique := kf.uniqueGroups
  rw [h, KeyUnique, map_append, map_singleton, nodup_append] at hunique
  have hnone : lookup Prod.fst group groups = none := by
    rw [lookup_eq_none_iff]
    intro g hg
    exact hunique.2.2 g.1 (mem_map_of_mem hg) group (mem_singleton_self _)
  have hlookup : lookup Prod.fst group kf.groups = some (group, l) := by
    rw [h, lookup_append, hnone, Option.none_or, lookup_cons, if_pos rfl]
  have hpairs : kf.pairs group = l := by simp [pairs, findGroup, hlookup]
  have hpair : upsert Prod.fst (key, value) l = l ++ [(key, value)] := upsert_of_lookup_none rfl hkey
  simp only [setValue, setGroup, hpairs, hpair]
  rw [upsert, if_pos (by simp [hlookup]), h, modifyKey_append, modifyKey_of_lookup_none hnone]
  simp [modifyKey]

theorem groups_foldl_setValue_last {groups : List (KeyFileGroup γ κ ν)}
    (h : kf.groups = groups ++ [(group, l)]) (hunique : KeyUnique Prod.fst (l ++ l')) :
    (l'.foldl (fun kf p => kf.setValue group p.1 p.2) kf).groups =
      groups ++ [(group, l ++ l')] := by
  induction l' generalizing kf l with
  | nil => simpa using h
  | cons p l' ih =>
    rw [append_cons] at hunique
    rw [foldl_cons, append_cons l p l']
    apply ih _ hunique
    apply groups_setValue_last h
    have hsub := hunique.sublist (sublist_append_left (l ++ [p]) l')
    rw [lookup_eq_none_iff]
    intro q hq
    rw [KeyUnique, map_append, nodup_append] at hsub
    exact hsub.2.2 q.1 (mem_map_of_mem hq) p.1 (by simp)

theorem groups_foldl_setValue (h : kf.hasGroup group = false) (hunique : KeyUnique Prod.fst l)
    (hne : l ≠ []) :
    (l.foldl (fun kf p => kf.setValue group p.1 p.2) kf).groups = kf.groups ++ [(group, l)] := by
  obtain ⟨p, l, rfl⟩ := exists_cons_of_ne_nil hne
  exact groups_foldl_setValue_last (groups_setValue_new h) hunique

theorem groups_setValue_of_hasGroup (h : kf.hasGroup group) :
    (kf.setValue group key value).groups = kf.groups.map fun g =>
      if g.1 = group then (g.1, upsert Prod.fst (key, value) g.2) else g := by
  obtain ⟨l, hl⟩ := Option.isSome_iff_exists.mp h
  obtain ⟨g, hg, rfl⟩ := Option.map_eq_some_iff.mp hl
  have hpairs : kf.pairs group = g.2 := pairs_of_findGroup hl
  simp only [setValue, setGroup, hpairs]
  rw [upsert, if_pos (by simp [hg]), modifyKey]
  apply map_congr_left
  intro g' hg'
  split_ifs with heq
  · rw [lookup_eq_some_iff kf.uniqueGroups] at hg
    have hsame : g' = g := eq_of_key_eq kf.uniqueGroups hg' hg.1 (heq.trans hg.2.symm)
    rw [hsame, ← hg.2]
  · rfl

theorem groups_foldl_setValue_groups (h : ∀ g ∈ names, kf.hasGroup g) (hnodup : names.Nodup) :
    (names.foldl (fun kf g => kf.setValue g key value) kf).groups = kf.groups.map fun g =>
      if g.1 ∈ names then (g.1, upsert Prod.fst (key, value) g.2) else g := by
  induction names generalizing kf with
  | nil => simp
  | cons name names ih =>
    obtain ⟨hname, hnodup⟩ := nodup_cons.mp hnodup
    rw [foldl_cons, ih _ hnodup, groups_setValue_of_hasGroup (h name mem_cons_self),
      map_map]
    · apply map_congr_left
      intro g _
      by_cases hg : g.1 = name
      · simp [hg, hname]
      · simp [hg]
    · intro g hg
      rw [setValue, hasGroup_setGroup, h g (mem_cons_of_mem name hg), Bool.or_true]

omit [DecidableEq κ] in
theorem groups_foldl_removeGroup :
    (names.foldl removeGroup kf).groups = kf.groups.filter fun g => g.1 ∉ names := by
  induction names generalizing kf with
  | nil => simp
  | cons name names ih =>
    have hremove : (kf.removeGroup name).groups = kf.groups.filter fun g => g.1 ≠ name := rfl
    rw [foldl_cons, ih, hremove, filter_filter]
    apply filter_congr
    intro g _
    simp [Bool.and_comm]

/-! ## The list from the groups, keys and values -/

omit [DecidableEq κ] in
theorem pairs_of_mem (h : g ∈ kf.groups) : kf.pairs g.1 = g.2 := by
  simp [pairs, findGroup, lookup_of_mem kf.uniqueGroups h]

theorem getValue_of_mem (key : κ) (h : g ∈ kf.groups) :
    kf.getValue g.1 key = (lookup Prod.fst key g.2).map Prod.snd := by
  rw [getValue, pairs_of_mem h]

omit [DecidableEq κ] in
variable (kf) in
theorem groups_eq_map : kf.groups = kf.getGroups.map fun group => (group, kf.pairs group) := by
  rw [getGroups, map_map]
  symm
  apply (map_congr_left fun g hg => ?_).trans (map_id' _)
  simp [pairs_of_mem hg]

variable (kf) in
theorem pairs_eq_filterMap : kf.pairs group =
    (kf.getKeys group).filterMap fun key => (kf.getValue group key).map fun value => (key, value) := by
  rw [getKeys, filterMap_map]
  symm
  apply (filterMap_congr fun p hp => ?_).trans filterMap_some
  simp [getValue, lookup_of_mem unique_pairs hp]

theorem eq_of_values (hgroups : kf.getGroups = kf'.getGroups)
    (hkeys : ∀ group ∈ kf.getGroups, kf.getKeys group = kf'.getKeys group)
    (hvalues : ∀ group ∈ kf.getGroups, ∀ key ∈ kf.getKeys group,
      kf.getValue group key = kf'.getValue group key) : kf = kf' := by
  apply KeyFile.ext
  rw [groups_eq_map kf, groups_eq_map kf', ← hgroups]
  apply map_congr_left
  intro group hgroup
  rw [pairs_eq_filterMap kf, pairs_eq_filterMap kf', ← hkeys group hgroup]
  congr 1
  apply filterMap_congr
  intro key hkey
  rw [hvalues group hgroup key hkey]

end KeyFile

end NetworkManager.Lib
