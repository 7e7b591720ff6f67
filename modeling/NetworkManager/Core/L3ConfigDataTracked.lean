import NetworkManager.Core.L3ConfigData
import NetworkManager.Lib.Runs

/-!
# The objects that a configuration tracks

An object is tracked under the interface of the configuration, or without interface if
routes of its type have none. No two objects of an index have the same identity, and the
best default route is one of the routes. Adding an object keeps all of this.
-/

namespace NetworkManager.Core

open Lib Platform

variable {i : ℤ}

section Home

variable {α κ : Type} [NmpClass α κ] [LawfulNmpClass α] {o : α}

open NmpClass LawfulNmpClass

theorem homeIfindex_withIfindex (i j : ℤ) (a : α) :
    homeIfindex i (withIfindex j a) = homeIfindex i a :=
  homeIfindex_congr (isNodev_withIfindex j a)

theorem rehome_withIfindex (i j : ℤ) (a : α) : rehome i (withIfindex j a) = rehome i a := by
  simp only [rehome, homeIfindex_withIfindex, withIfindex_withIfindex]

theorem ifindex_rehome (i : ℤ) (a : α) : ifindex (rehome i a) = homeIfindex i (rehome i a) := by
  simp only [rehome, homeIfindex_withIfindex, ifindex_withIfindex]

theorem objNewStackinit_eq {new : NewObj α}
    (h : (new = .obj new.val ∧ ifindex new.val = homeIfindex i new.val) ∨ (stackinit new.val).isSome)
    : objNewStackinit i new = some (rehome i new.val) := by
  have hcopy (a : α) (ha : (stackinit a).isSome) :
      (stackinit a).map (rehome i) = some (rehome i a) := by
    obtain ⟨b, hb⟩ := Option.isSome_iff_exists.mp ha
    rw [hb, Option.map_some, eq_of_stackinit hb]
  cases new with
  | obj a =>
    rw [objNewStackinit]
    split_ifs with hhome
    · rw [NewObj.val, rehome, ← hhome, withIfindex_self]
    · exact hcopy a (h.resolve_left fun h => hhome h.2)
  | pl a => exact hcopy a (h.resolve_left fun h => by simp at h)

theorem ifindex_objNewStackinit {new : NewObj α} (h : objNewStackinit i new = some o)
    : ifindex o = homeIfindex i o := by
  have hcopy {a : α} (h : (stackinit a).map (rehome i) = some o) : ifindex o = homeIfindex i o := by
    obtain ⟨b, -, rfl⟩ := Option.map_eq_some_iff.mp h
    exact ifindex_rehome i b
  cases new with
  | obj a =>
    rw [objNewStackinit] at h
    split_ifs at h with hhome
    · exact Option.some.inj h ▸ hhome
    · exact hcopy h
  | pl a => exact hcopy h

theorem objNewMerge_eq [DecidableEq α] {a old : α} (h : objNewMerge a old = some o) :
    o = mergeWith a old := by
  unfold objNewMerge at h
  split_ifs at h with hsame
  · exact (Option.some.inj h).symm.trans hsame.symm
  · obtain ⟨b, hb, rfl⟩ := Option.map_eq_some_iff.mp h
    rw [eq_of_stackinit hb]

end Home

section Tracked

variable {α κ : Type} [NmpClass α κ] {objs : List α}

open NmpClass LawfulNmpClass

structure Tracked (i : ℤ) (objs : List α) : Prop where
  unique : KeyUnique objId objs
  ifindex_eq : ∀ a ∈ objs, ifindex a = homeIfindex i a

theorem Tracked.rehome_eq [LawfulNmpClass α] (h : Tracked i objs) {a : α} (ha : a ∈ objs) :
    rehome i a = a := by
  rw [rehome, ← h.ifindex_eq a ha, withIfindex_self]

theorem tracked_nil (i : ℤ) : Tracked i ([] : List α) := ⟨unique_nil, by simp⟩

theorem Tracked.append {a : α} (h : Tracked i objs) (ha : ifindex a = homeIfindex i a)
    (hfresh : ∀ b ∈ objs, objId b ≠ objId a) : Tracked i (objs ++ [a]) := by
  refine ⟨h.unique.append_singleton hfresh, ?_⟩
  intro b hb
  rcases List.mem_append.mp hb with hb | hb
  · exact h.ifindex_eq b hb
  · rw [List.mem_singleton.mp hb]
    exact ha

variable [DecidableEq κ]

theorem Tracked.put {a : α} (h : Tracked i objs) (ha : ifindex a = homeIfindex i a)
    : Tracked i (put objId a objs) := by
  refine ⟨h.unique.put, ?_⟩
  intro b hb
  rcases mem_put.mp hb with rfl | ⟨hb, -⟩
  · exact ha
  · exact h.ifindex_eq b hb

theorem mem_modifyKey_const {k : κ} {a b : α} (hb : b ∈ modifyKey objId k (fun _ => a) objs)
    : b = a ∨ b ∈ objs := by
  obtain ⟨x, hx, rfl⟩ := List.mem_map.mp hb
  split_ifs
  · exact .inl rfl
  · exact .inr hx

theorem Tracked.modifyKey {a old : α} (h : Tracked i objs) (ha : ifindex a = homeIfindex i a)
    (hid : objId a = objId old) : Tracked i (modifyKey objId (objId old) (fun _ => a) objs) := by
  refine ⟨?_, ?_⟩
  · have hkeys := map_key_modifyKey_of_key (f := fun _ => a) (l := objs) fun _ _ => hid
    unfold KeyUnique
    rw [hkeys]
    exact h.unique
  · intro b hb
    rcases mem_modifyKey_const hb with rfl | hb
    · exact ha
    · exact h.ifindex_eq b hb

variable [DecidableEq α] [LawfulNmpClass α] {flags : AddFlags} {r : AddResult α}

theorem addObj_cases {new : NewObj α} (h : addObj objs i new flags = some r) :
    ∃ o, objNewStackinit i new = some o ∧
      ((lookup objId (objId o) objs = none ∧ r = ⟨objs ++ [o], true, none, o⟩) ∨
        ∃ old, lookup objId (objId o) objs = some old ∧
          (r = addObjKeep objs flags old ∨
            ∃ o', (o' = o ∨ o' = mergeWith o old) ∧ r = addObjReplace objs flags old o')) := by
  obtain ⟨o, ho, h⟩ := Option.bind_eq_some_iff.mp h
  refine ⟨o, ho, ?_⟩
  cases hl : lookup objId (objId o) objs with
  | none => exact .inl ⟨rfl, (Option.some.inj (by simpa [hl] using h)).symm⟩
  | some old =>
    refine .inr ⟨old, rfl, ?_⟩
    simp only [hl] at h
    split_ifs at h
    · exact .inl (Option.some.inj h).symm
    · obtain ⟨o', ho', rfl⟩ := Option.map_eq_some_iff.mp h
      split_ifs
      · exact .inl rfl
      · exact .inr ⟨o', .inr (objNewMerge_eq ho'), rfl⟩
    · exact .inr ⟨o, .inl rfl, (Option.some.inj h).symm⟩

theorem tracked_addObj {new : NewObj α} (h : addObj objs i new flags = some r)
    (hobjs : Tracked i objs) : Tracked i r.objs := by
  obtain ⟨o, ho, ⟨hnone, rfl⟩ | ⟨old, hold, rfl | ⟨o', ho', rfl⟩⟩⟩ := addObj_cases h
  · exact hobjs.append (ifindex_objNewStackinit ho) (lookup_eq_none_iff.mp hnone)
  · unfold addObjKeep
    split_ifs
    · exact hobjs.put (hobjs.ifindex_eq old (mem_of_lookup hold))
    · exact hobjs
  · have hid : objId old = objId o := key_of_lookup hold
    have hmerge : objId o' = objId o ∧ ifindex o' = homeIfindex i o' := by
      rcases ho' with rfl | rfl
      · exact ⟨rfl, ifindex_objNewStackinit ho⟩
      · refine ⟨objId_mergeWith hid.symm, ?_⟩
        rw [ifindex_mergeWith, homeIfindex_congr (isNodev_mergeWith o old)]
        exact ifindex_objNewStackinit ho
    unfold addObjReplace
    split_ifs
    · exact hobjs.put hmerge.2
    · exact hobjs.modifyKey hmerge.2 (hmerge.1.trans hid.symm)

end Tracked

/-! ## The configuration of an address family -/

section WellFormed

variable {A R κA κR : Type} [NmpClass A κA] [NmpRouteClass R κR]

open NmpRouteClass

structure L3IpConfig.WellFormed (i : ℤ) (c : L3IpConfig A R) : Prop where
  addresses : Tracked i c.addresses
  routes : Tracked i c.routes
  best_mem : ∀ r ∈ c.bestDefaultRoute, r ∈ c.routes ∧ (rx r).isBestDefaultRoute

theorem wellFormed_new (i : ℤ) : (L3IpConfig.new : L3IpConfig A R).WellFormed i :=
  ⟨tracked_nil i, tracked_nil i, nofun⟩

end WellFormed

/-- What the operations that build up a configuration keep. -/
structure L3ConfigData.WellFormed (l : L3ConfigData) : Prop where
  ifindex_pos : 0 < l.ifindex
  ip4 : l.ip4.WellFormed l.ifindex
  ip6 : l.ip6.WellFormed l.ifindex

end NetworkManager.Core
