import NetworkManager.Core.ConfigFiles

/-!
# Copies of a key file

A copy has the same values, and the same groups in the same order except for those without keys.
-/

namespace NetworkManager.Core

open Lib KeyFile List

variable {group : String} {src dst : ConfigKeyfile} {key : String}

/-- The body of the loop of `_nm_keyfile_copy()` over the groups. -/
def copyGroup (src dst : ConfigKeyfile) (group : String) : ConfigKeyfile :=
  (src.getKeys group).foldl (fun dst key =>
    match src.getValue group key with
    | some value => dst.setValue group key value
    | none => dst.removeKey group key) dst

theorem keyfileCopy_eq (dst src : ConfigKeyfile) :
    keyfileCopy dst src = src.getGroups.foldl (copyGroup src) dst := rfl

theorem groupStep_copyGroup : GroupStep group fun dst => copyGroup src dst group := by
  apply GroupStep.foldl
  intro key _
  cases src.getValue group key with
  | some value => exact groupStep_setValue fun _ _ _ => rfl
  | none => exact groupStep_removeKey

theorem getValue_copyGroup :
    (copyGroup src dst group).getValue group key =
      if key ∈ src.getKeys group then src.getValue group key else dst.getValue group key := by
  unfold copyGroup
  induction src.getKeys group generalizing dst with
  | nil => simp
  | cons k keys ih =>
    rw [foldl_cons, ih]
    by_cases hk : key = k
    · subst hk
      cases hvalue : src.getValue group key <;> simp
    · cases hvalue : src.getValue group k <;> simp [hk]

theorem getValue_keyfileCopy :
    (keyfileCopy .empty src).getValue group key = src.getValue group key := by
  rw [keyfileCopy_eq]
  have honly : ∀ dst g, OnlyGroup g dst (copyGroup src dst g) :=
    fun dst g => groupStep_copyGroup.only dst
  by_cases hmem : group ∈ src.getGroups
  · rw [getValue_foldl_of_mem (f := copyGroup src) (fun g => groupStep_copyGroup)
      nodup_getGroups hmem, getValue_copyGroup]
    split_ifs with hkey
    · rfl
    · rw [mem_getKeys] at hkey
      rw [getValue_empty, Option.not_isSome_iff_eq_none.mp hkey]
  · rw [getValue_foldl_of_not_mem honly hmem, getValue_empty, getValue_of_no_group]
    simpa [← hasGroup_iff] using hmem

theorem copyGroup_of_mem {l : List (String × Bytes)} (h : (group, l) ∈ src.groups) :
    copyGroup src dst group = l.foldl (fun dst p => dst.setValue group p.1 p.2) dst := by
  have hlookup : lookup Prod.fst group src.groups = some (group, l) :=
    lookup_of_mem src.uniqueGroups h
  have hpairs : src.pairs group = l := by simp [pairs, findGroup, hlookup]
  have hunique : KeyUnique Prod.fst l := src.uniqueKeys _ h
  rw [copyGroup, getKeys, hpairs, foldl_map]
  apply foldl_ext
  intro dst p hp
  have hvalue : src.getValue group p.1 = some p.2 := by
    simp [getValue, hpairs, lookup_of_mem hunique hp]
  rw [hvalue]

theorem groups_keyfileCopy (src : ConfigKeyfile) :
    (keyfileCopy .empty src).groups = src.groups.filter fun g => g.2 ≠ [] := by
  have hmain : ∀ (groups : List (KeyFileGroup String String Bytes)) (dst : ConfigKeyfile),
      (∀ g ∈ groups, g ∈ src.groups) → KeyUnique Prod.fst groups →
      (∀ g ∈ groups, dst.hasGroup g.1 = false) →
      ((groups.map Prod.fst).foldl (copyGroup src) dst).groups =
        dst.groups ++ groups.filter fun g => g.2 ≠ [] := by
    intro groups
    induction groups with
    | nil => simp
    | cons g groups ih =>
      intro dst hsrc hunique hnew
      obtain ⟨hne, hunique⟩ := unique_cons.mp hunique
      have hsrc' := fun g' hg' => hsrc g' (mem_cons_of_mem g hg')
      rw [map_cons, foldl_cons, copyGroup_of_mem (hsrc g mem_cons_self)]
      by_cases hnil : g.2 = []
      · rw [hnil, foldl_nil, ih dst hsrc' hunique fun g' hg' =>
          hnew g' (mem_cons_of_mem g hg'), filter_cons_of_neg (by simpa using hnil)]
      · have hgroups := groups_foldl_setValue (hnew g mem_cons_self)
          (src.uniqueKeys g (hsrc g mem_cons_self)) hnil
        rw [ih _ hsrc' hunique, hgroups, filter_cons_of_pos (by simpa using hnil)]
        · simp
        · intro g' hg'
          rw [← Bool.not_eq_true, hasGroup_iff, getGroups, hgroups]
          have hold := hnew g' (mem_cons_of_mem g hg')
          rw [← Bool.not_eq_true, hasGroup_iff] at hold
          simp only [map_append, map_singleton, mem_append, mem_singleton,
            not_or]
          exact ⟨hold, hne g' hg'⟩
  have h := hmain src.groups .empty (fun _ h => h) src.uniqueGroups fun _ _ => rfl
  rw [keyfileCopy_eq]
  exact h

end NetworkManager.Core
