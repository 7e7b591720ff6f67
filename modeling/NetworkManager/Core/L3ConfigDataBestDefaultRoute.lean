import NetworkManager.Core.L3ConfigDataTracked
import NetworkManager.Lib.LeastOf
import NetworkManager.Platform.IpRouteCmpOrder

/-!
# The best default route

The best default route should be the least of the tracked routes that can be it, by metric
and then by all fields. It is kept up to date with each route that is added. When the best
default route itself is replaced, only the new route is considered, so that the result is
right only if none of the other routes would have been better.
-/

namespace NetworkManager.Core

open Lib Platform Std

/-! ## The order of default routes -/

section Order

variable {R κ : Type} [NmpRouteClass R κ]

open NmpClass NmpRouteClass

/-- By metric, and then by `nmp_object_cmp()`. -/
def cmpDefaultRoutes (a b : R) : Ordering :=
  (compare (rx a).metric (rx b).metric).then (cmp a b)

def canBeBestDefaultRoute (r : R) : Bool := (rx r).isBestDefaultRoute

/-- The comparison of all fields is an order, and tells all routes apart. -/
class LawfulRouteCmp (R : Type) {κ : outParam Type} [NmpRouteClass R κ] : Prop where
  transCmp_cmp : TransCmp (cmp : R → R → Ordering)
  eq_of_cmp : ∀ {a b : R}, cmp a b = .eq → a = b

instance : LawfulRouteCmp ObjectIp4Route where
  transCmp_cmp := ObjectIp4Route.transCmp_cmp
  eq_of_cmp h := ObjectIp4Route.eq_of_cmp h

instance : LawfulRouteCmp PlatformIp6Route where
  transCmp_cmp := PlatformIp6Route.transCmp_cmp
  eq_of_cmp h := PlatformIp6Route.eq_of_cmp h

theorem transCmp_cmpDefaultRoutes [LawfulRouteCmp R] :
    TransCmp (cmpDefaultRoutes : R → R → Ordering) :=
  transCmp_then (transCmp_on fun r : R => (rx r).metric) LawfulRouteCmp.transCmp_cmp

theorem eq_of_cmpDefaultRoutes [LawfulRouteCmp R] (a b : R) (h : cmpDefaultRoutes a b = .eq) :
    a = b :=
  LawfulRouteCmp.eq_of_cmp (Ordering.then_eq_eq.mp h).2

theorem bestDefaultRouteFindBetter_eq (cur : Option R) (obj : R) :
    bestDefaultRouteFindBetter cur obj =
      pickLeast canBeBestDefaultRoute cmpDefaultRoutes cur obj := by
  unfold bestDefaultRouteFindBetter pickLeast canBeBestDefaultRoute
  by_cases hcand : (rx obj).isBestDefaultRoute = true
  · rw [if_pos hcand, if_pos hcand]
    cases cur with
    | none => rfl
    | some b =>
      dsimp only
      rcases Nat.lt_trichotomy (rx obj).metric (rx b).metric with h | h | h
      · have hgt : cmpDefaultRoutes b obj = .gt := by
          rw [cmpDefaultRoutes, Nat.compare_eq_gt.mpr h]
          rfl
        rw [if_pos h, if_pos hgt]
      · have hcmp : cmpDefaultRoutes b obj = cmp b obj := by
          rw [cmpDefaultRoutes, h, compare_self, Ordering.eq_then]
        rw [if_neg (by omega), if_pos h, hcmp]
        cases cmp b obj <;> rfl
      · have hlt : cmpDefaultRoutes b obj = .lt := by
          rw [cmpDefaultRoutes, Nat.compare_eq_lt.mpr h]
          rfl
        rw [if_neg (by omega), if_neg (by omega), hlt, if_neg (by decide)]
  · rw [if_neg hcand, if_neg hcand]

end Order

/-! ## What adding a route does to the tracked ones -/

variable {i : ℤ} {flags : AddFlags}

section Add

variable {α κ : Type}

/-- The three things that adding an object can do. -/
inductive AddOutcome (objs : List α) (replaced : Option (α × α)) (r : AddResult α) : Prop
  | appended (objOld_eq : r.objOld = none) (replaced_eq : replaced = none)
      (mem_iff : ∀ a, a ∈ r.objs ↔ a = r.objNew ∨ a ∈ objs)
  | kept (objOld_eq : r.objOld = some r.objNew) (replaced_eq : replaced = none)
      (objNew_mem : r.objNew ∈ objs) (mem_iff : ∀ a, a ∈ r.objs ↔ a ∈ objs)
  | replaced (old : α) (objOld_eq : r.objOld = some old) (changed_eq : r.changed = true)
      (ne : old ≠ r.objNew) (replaced_eq : replaced = some (old, r.objNew))
      (mem_iff : ∀ a, a ∈ r.objs ↔ a = r.objNew ∨ (a ∈ objs ∧ a ≠ old))

variable [NmpClass α κ] [DecidableEq κ] {objs : List α} {old o : α}

open NmpClass

theorem addObjReplace_objNew (objs : List α) (flags : AddFlags) (old o : α) :
    (addObjReplace objs flags old o).objNew = o ∧
      (addObjReplace objs flags old o).objOld = some old ∧
      (addObjReplace objs flags old o).changed = true := by
  unfold addObjReplace
  split_ifs <;> exact ⟨rfl, rfl, rfl⟩

theorem mem_addObjReplace (hobjs : Tracked i objs) (hold : old ∈ objs) (hid : objId o = objId old)
    (a : α) : a ∈ (addObjReplace objs flags old o).objs ↔ a = o ∨ (a ∈ objs ∧ a ≠ old) := by
  have hkey (b : α) (hb : b ∈ objs) : objId b = objId old ↔ b = old :=
    ⟨fun h => eq_of_key_eq hobjs.unique hb hold h, fun h => h ▸ rfl⟩
  unfold addObjReplace
  split_ifs
  · rw [mem_put, hid]
    constructor
    · rintro (rfl | ⟨ha, hne⟩)
      · exact .inl rfl
      · exact .inr ⟨ha, fun h => hne ((hkey a ha).mpr h)⟩
    · rintro (rfl | ⟨ha, hne⟩)
      · exact .inl rfl
      · exact .inr ⟨ha, fun h => hne ((hkey a ha).mp h)⟩
  · simp only [modifyKey, List.mem_map]
    constructor
    · rintro ⟨b, hb, rfl⟩
      split_ifs with h
      · exact .inl rfl
      · exact .inr ⟨hb, fun he => h ((hkey b hb).mpr he)⟩
    · rintro (rfl | ⟨ha, hne⟩)
      · exact ⟨old, hold, if_pos rfl⟩
      · exact ⟨a, ha, if_neg fun h => hne ((hkey a ha).mp h)⟩

theorem addOutcome_replace [LawfulNmpClass α] (hobjs : Tracked i objs) (hold : old ∈ objs)
    (hid : objId o = objId old) (hne : cmp o old ≠ .eq) :
    AddOutcome objs (some (old, o)) (addObjReplace objs flags old o) := by
  obtain ⟨hnew, holdEq, hchanged⟩ := addObjReplace_objNew objs flags old o
  have hdiffer : old ≠ o := by
    rintro rfl
    exact hne (LawfulNmpClass.cmp_self old)
  refine .replaced old holdEq hchanged (hnew.symm ▸ hdiffer) (by rw [hnew]) ?_
  intro a
  rw [hnew]
  exact mem_addObjReplace hobjs hold hid a

variable [DecidableEq α]

/-- The tracked object that adding another one replaces, and what it is replaced by. -/
def addReplaces (objs : List α) (ifindex : ℤ) (new : NewObj α) (flags : AddFlags) :
    Option (α × α) := do
  let objNew ← objNewStackinit ifindex new
  let old ← lookup objId (objId objNew) objs
  if flags.mode = .exclusive ∨ cmp objNew old = .eq then none
  else
    let objNew ← if flags.mode = .merge then objNewMerge objNew old else some objNew
    if cmp objNew old = .eq then none else some (old, objNew)

theorem addObjKeep_objNew (objs : List α) (flags : AddFlags) (old : α) :
    (addObjKeep objs flags old).objNew = old ∧ (addObjKeep objs flags old).objOld = some old := by
  unfold addObjKeep
  split_ifs <;> exact ⟨rfl, rfl⟩

theorem mem_addObjKeep (hobjs : Tracked i objs) (hold : old ∈ objs) (a : α) :
    a ∈ (addObjKeep objs flags old).objs ↔ a ∈ objs := by
  unfold addObjKeep
  split_ifs
  · rw [mem_put]
    constructor
    · rintro (rfl | ⟨ha, -⟩)
      · exact hold
      · exact ha
    · intro ha
      by_cases hid : objId a = objId old
      · exact .inl (eq_of_key_eq hobjs.unique ha hold hid)
      · exact .inr ⟨ha, hid⟩
  · rfl

theorem addOutcome_keep (hobjs : Tracked i objs) (hold : old ∈ objs) :
    AddOutcome objs none (addObjKeep objs flags old) := by
  obtain ⟨hnew, holdEq⟩ := addObjKeep_objNew objs flags old
  exact .kept (holdEq.trans (congrArg some hnew.symm)) rfl (hnew.symm ▸ hold)
    (mem_addObjKeep hobjs hold)

variable [LawfulNmpClass α] {new : NewObj α}

theorem addObj_outcome {r : AddResult α} (h : addObj objs i new flags = some r)
    (hobjs : Tracked i objs) : AddOutcome objs (addReplaces objs i new flags) r := by
  obtain ⟨o, ho, h⟩ := Option.bind_eq_some_iff.mp h
  simp only [addReplaces, ho, Option.bind_eq_bind, Option.bind_some]
  cases hl : lookup objId (objId o) objs with
  | none =>
    simp only [hl, Option.some.injEq] at h
    subst h
    refine .appended rfl rfl fun a => ?_
    rw [List.mem_append, List.mem_singleton, or_comm]
  | some old =>
    have hold := mem_of_lookup hl
    have hid : objId o = objId old := (key_of_lookup hl).symm
    simp only [hl] at h
    dsimp only [Option.bind_some]
    split_ifs at h ⊢ with hkeep hmode
    · exact Option.some.inj h ▸ addOutcome_keep hobjs hold
    · obtain ⟨o', ho', rfl⟩ := Option.map_eq_some_iff.mp h
      have hmerge : objId o' = objId old := by
        rw [objNewMerge_eq ho']
        exact (LawfulNmpClass.objId_mergeWith hid).trans hid
      rw [ho', Option.bind_some]
      split_ifs with hsame
      · exact addOutcome_keep hobjs hold
      · exact addOutcome_replace hobjs hold hmerge hsame
    · exact absurd (.inr ‹_›) hkeep
    · exact Option.some.inj h ▸ addOutcome_replace hobjs hold hid fun he => hkeep (.inr he)

omit [LawfulNmpClass α] in
theorem addReplaces_of_none (h : addObj objs i new flags = none)
    : addReplaces objs i new flags = none := by
  unfold addReplaces
  cases ho : objNewStackinit i new with
  | none => rfl
  | some o =>
    simp only [addObj, ho, Option.bind_some] at h
    cases hl : lookup objId (objId o) objs with
    | none => simp [hl] at h
    | some old =>
      simp only [hl] at h
      split_ifs at h with _ hmode
      simp [hl, hmode, Option.map_eq_none_iff.mp h]

end Add

/-! ## One configuration -/

section Config

variable {A R κA κR : Type} [NmpRouteClass R κR]

open NmpClass NmpRouteClass

/-- The best default route is the least of the tracked routes that can be it. -/
def L3IpConfig.BestIsLeast (c : L3IpConfig A R) : Prop :=
  LeastOf canBeBestDefaultRoute cmpDefaultRoutes {r | r ∈ c.routes} c.bestDefaultRoute

variable [DecidableEq R] [LawfulRouteCmp R] {c : L3IpConfig A R} {r : AddResult R} {old : R}

theorem bestIsLeast_appended (hc : c.BestIsLeast) (hold : r.objOld = none)
    (hmem : ∀ a, a ∈ r.objs ↔ a = r.objNew ∨ a ∈ c.routes) :
    LeastOf canBeBestDefaultRoute cmpDefaultRoutes {a | a ∈ r.objs}
      (bestDefaultRouteMerge c.bestDefaultRoute r) := by
  have hset : {a | a ∈ r.objs} = insert r.objNew {a | a ∈ c.routes} := Set.ext hmem
  have hcur : (if c.bestDefaultRoute = r.objOld ∧ r.objOld ≠ some r.objNew then none
      else c.bestDefaultRoute) = c.bestDefaultRoute := by
    split_ifs with h
    · rw [h.1, hold]
    · rfl
  rw [bestDefaultRouteMerge, hcur, bestDefaultRouteFindBetter_eq, hset]
  exact hc.insert transCmp_cmpDefaultRoutes _

theorem bestIsLeast_kept (hc : c.BestIsLeast) (hold : r.objOld = some r.objNew)
    (hnew : r.objNew ∈ c.routes) (hmem : ∀ a, a ∈ r.objs ↔ a ∈ c.routes) :
    LeastOf canBeBestDefaultRoute cmpDefaultRoutes {a | a ∈ r.objs}
      (bestDefaultRouteMerge c.bestDefaultRoute r) := by
  have hset : {a | a ∈ r.objs} = insert r.objNew {a | a ∈ c.routes} := by
    ext a
    rw [Set.mem_insert_iff, Set.mem_ofPred_eq, Set.mem_ofPred_eq, hmem]
    exact ⟨.inr, fun h => h.elim (fun he => he ▸ hnew) fun h => h⟩
  rw [bestDefaultRouteMerge, if_neg fun h => h.2 hold, bestDefaultRouteFindBetter_eq, hset]
  exact hc.insert transCmp_cmpDefaultRoutes _

theorem bestIsLeast_replaced_other (hc : c.BestIsLeast) (hold : r.objOld = some old)
    (hbest : c.bestDefaultRoute ≠ some old)
    (hmem : ∀ a, a ∈ r.objs ↔ a = r.objNew ∨ (a ∈ c.routes ∧ a ≠ old)) :
    LeastOf canBeBestDefaultRoute cmpDefaultRoutes {a | a ∈ r.objs}
      (bestDefaultRouteMerge c.bestDefaultRoute r) := by
  have hset : {a | a ∈ r.objs} = insert r.objNew {a | a ∈ c.routes ∧ a ≠ old} := Set.ext hmem
  have hrest : LeastOf canBeBestDefaultRoute cmpDefaultRoutes {a | a ∈ c.routes ∧ a ≠ old}
      c.bestDefaultRoute := by
    apply hc.subset fun a ha => ha.1
    intro b hb
    exact ⟨(hc.of_some b hb).1, fun he => hbest (he ▸ hb)⟩
  rw [bestDefaultRouteMerge, if_neg fun h => hbest (h.1.trans hold), bestDefaultRouteFindBetter_eq,
    hset]
  exact hrest.insert transCmp_cmpDefaultRoutes _

/-- If the best default route goes, only the new route is considered. -/
theorem bestIsLeast_replaced_best (hold : r.objOld = some old) (hne : old ≠ r.objNew)
    (hbest : c.bestDefaultRoute = some old)
    (hmem : ∀ a, a ∈ r.objs ↔ a = r.objNew ∨ (a ∈ c.routes ∧ a ≠ old)) :
    LeastOf canBeBestDefaultRoute cmpDefaultRoutes {a | a ∈ r.objs}
        (bestDefaultRouteMerge c.bestDefaultRoute r) ↔
      ∀ a ∈ c.routes, a ≠ old → canBeBestDefaultRoute a →
        canBeBestDefaultRoute r.objNew ∧ (cmpDefaultRoutes r.objNew a).isLE := by
  have hmerge : bestDefaultRouteMerge c.bestDefaultRoute r =
      if canBeBestDefaultRoute r.objNew then some r.objNew else none := by
    have hcur : c.bestDefaultRoute = r.objOld ∧ r.objOld ≠ some r.objNew :=
      ⟨hbest.trans hold.symm, fun h => hne (Option.some.inj (hold.symm.trans h))⟩
    rw [bestDefaultRouteMerge, if_pos hcur, bestDefaultRouteFindBetter_eq]
    rfl
  rw [hmerge]
  constructor
  · intro h a ha hne hcand
    have hmem' : a ∈ r.objs := (hmem a).mpr (.inr ⟨ha, hne⟩)
    split_ifs at h with hnew
    · exact ⟨hnew, (h.of_some _ rfl).2.2 a hmem' hcand⟩
    · rw [h.of_none rfl a hmem'] at hcand
      cases hcand
  · intro h
    split_ifs with hnew
    · have hset : {a | a ∈ r.objs} = insert r.objNew {a | a ∈ c.routes ∧ a ≠ old} := Set.ext hmem
      constructor
      · intro hnone
        cases hnone
      · intro b hb
        cases hb
        refine ⟨(hmem _).mpr (.inl rfl), hnew, fun a ha hcand => ?_⟩
        rcases (hmem a).mp ha with rfl | ⟨ha, hne⟩
        · have hrefl : TransCmp (cmpDefaultRoutes : R → R → Ordering) := transCmp_cmpDefaultRoutes
          exact ReflCmp.isLE_rfl
        · exact (h a ha hne hcand).2
    · constructor
      · intro _ a ha
        rcases (hmem a).mp ha with rfl | ⟨ha, hne⟩
        · exact Bool.eq_false_iff.mpr hnew
        · by_contra hcand
          exact hnew (h a ha hne (Bool.eq_true_of_not_eq_false hcand)).1
      · intro b hb
        cases hb

variable [DecidableEq κR]

/-- If the best default route is replaced, then none of the other routes is a better one than
the new route. -/
def AddInReach (c : L3IpConfig A R) (ifindex : ℤ) (new : NewObj R) (flags : AddFlags) : Prop :=
  ∀ p ∈ addReplaces c.routes ifindex new flags, c.bestDefaultRoute = some p.1 →
    ∀ r ∈ c.routes, r ≠ p.1 → canBeBestDefaultRoute r →
      canBeBestDefaultRoute p.2 ∧ (cmpDefaultRoutes p.2 r).isLE

instance (c : L3IpConfig A R) (ifindex : ℤ) (new : NewObj R) (flags : AddFlags) :
    Decidable (AddInReach c ifindex new flags) :=
  inferInstanceAs (Decidable (∀ p ∈ _, _))

variable [LawfulNmpRouteClass R] {new : NewObj R}

theorem bestIsLeast_addRouteFull_iff {r : AddRouteResult A R}
    (h : addRouteFull i c new flags = some r) (hroutes : Tracked i c.routes) (hc : c.BestIsLeast) :
    r.self.BestIsLeast ↔ AddInReach c i new flags := by
  obtain ⟨res, hres, rfl⟩ := Option.map_eq_some_iff.mp h
  have hunchanged (hreplaces : addReplaces c.routes i new flags = none) :
      AddInReach c i new flags := by
    intro p hp
    rw [hreplaces] at hp
    cases hp
  cases addObj_outcome hres hroutes with
  | appended hold hreplaces hmem =>
    apply iff_of_true _ (hunchanged hreplaces)
    split_ifs
    · exact bestIsLeast_appended hc hold hmem
    · exact hc
  | kept hold hreplaces hnew hmem =>
    apply iff_of_true _ (hunchanged hreplaces)
    split_ifs
    · exact bestIsLeast_kept hc hold hnew hmem
    · exact hc
  | replaced old hold hchanged hne hreplaces hmem =>
    rw [if_pos hchanged]
    by_cases hbest : c.bestDefaultRoute = some old
    · refine (bestIsLeast_replaced_best hold hne hbest hmem).trans ?_
      simp only [AddInReach, hreplaces, Option.mem_some_iff, forall_eq', hbest, forall_const]
    · apply iff_of_true (bestIsLeast_replaced_other hc hold hbest hmem)
      intro p hp hp'
      rw [hreplaces] at hp
      cases hp
      exact absurd hp' hbest

omit [LawfulNmpRouteClass R] [LawfulRouteCmp R] in
theorem addInReach_of_none (h : addRouteFull i c new flags = none) : AddInReach c i new flags := by
  intro p hp
  rw [addReplaces_of_none (Option.map_eq_none_iff.mp h)] at hp
  cases hp

end Config

/-! ## Runs -/

namespace L3ConfigData

/-- A call of `nm_l3_config_data_add_route_full()`, for one of the address families. -/
inductive AddRoute
  | ip4 (new : NewObj ObjectIp4Route) (flags : AddFlags)
  | ip6 (new : NewObj PlatformIp6Route) (flags : AddFlags)
  deriving DecidableEq

def addRoute (self : L3ConfigData) : AddRoute → Option L3ConfigData
  | .ip4 new flags =>
    (addRouteFull self.ifindex self.ip4 new flags).map fun r => { self with ip4 := r.self }
  | .ip6 new flags =>
    (addRouteFull self.ifindex self.ip6 new flags).map fun r => { self with ip6 := r.self }

/-- Both best default routes are the least ones. -/
structure BestIsLeast (l : L3ConfigData) : Prop where
  ip4 : l.ip4.BestIsLeast
  ip6 : l.ip6.BestIsLeast

def AddRouteInReach (self : L3ConfigData) : AddRoute → Prop
  | .ip4 new flags => AddInReach self.ip4 self.ifindex new flags
  | .ip6 new flags => AddInReach self.ip6 self.ifindex new flags

instance (self : L3ConfigData) : ∀ add, Decidable (self.AddRouteInReach add)
  | .ip4 _ _ => inferInstanceAs (Decidable (AddInReach _ _ _ _))
  | .ip6 _ _ => inferInstanceAs (Decidable (AddInReach _ _ _ _))

/-- The routes of both families are tracked under the interface. -/
structure RoutesTracked (l : L3ConfigData) : Prop where
  ip4 : Tracked l.ifindex l.ip4.routes
  ip6 : Tracked l.ifindex l.ip6.routes

theorem routesTracked_new (ifindex : ℤ) (source : IpConfigSource) :
    (new ifindex source).RoutesTracked :=
  ⟨tracked_nil ifindex, tracked_nil ifindex⟩

theorem bestIsLeast_new (ifindex : ℤ) (source : IpConfigSource) :
    (new ifindex source).BestIsLeast := by
  have hset (R : Type) : {r | r ∈ ([] : List R)} = ∅ := Set.ext fun r => by simp
  constructor
  · change LeastOf _ _ {r | r ∈ []} none
    rw [hset]
    exact leastOf_empty
  · change LeastOf _ _ {r | r ∈ []} none
    rw [hset]
    exact leastOf_empty

theorem tracked_addRouteFull {A R κ : Type} [NmpRouteClass R κ] [LawfulNmpRouteClass R]
    [DecidableEq R] [DecidableEq κ] {c : L3IpConfig A R} {new : NewObj R} {r : AddRouteResult A R}
    (h : addRouteFull i c new flags = some r) (hc : Tracked i c.routes)
    : Tracked i r.self.routes := by
  obtain ⟨res, hres, rfl⟩ := Option.map_eq_some_iff.mp h
  split_ifs
  · exact tracked_addObj hres hc
  · exact hc

variable {self : L3ConfigData} {add : AddRoute}

theorem routesTracked_addRoute {self' : L3ConfigData} (h : self.addRoute add = some self')
    (hself : self.RoutesTracked) : self'.RoutesTracked := by
  cases add with
  | ip4 new flags =>
    obtain ⟨r, hr, rfl⟩ := Option.map_eq_some_iff.mp h
    exact ⟨tracked_addRouteFull hr hself.ip4, hself.ip6⟩
  | ip6 new flags =>
    obtain ⟨r, hr, rfl⟩ := Option.map_eq_some_iff.mp h
    exact ⟨hself.ip4, tracked_addRouteFull hr hself.ip6⟩

theorem bestIsLeast_addRoute_iff {self' : L3ConfigData} (h : self.addRoute add = some self')
    (htracked : self.RoutesTracked) (hself : self.BestIsLeast)
    : self.AddRouteInReach add ↔ self'.BestIsLeast := by
  cases add with
  | ip4 new flags =>
    obtain ⟨r, hr, rfl⟩ := Option.map_eq_some_iff.mp h
    have hiff := bestIsLeast_addRouteFull_iff hr htracked.ip4 hself.ip4
    exact ⟨fun hreach => ⟨hiff.mpr hreach, hself.ip6⟩, fun hbest => hiff.mp hbest.ip4⟩
  | ip6 new flags =>
    obtain ⟨r, hr, rfl⟩ := Option.map_eq_some_iff.mp h
    have hiff := bestIsLeast_addRouteFull_iff hr htracked.ip6 hself.ip6
    exact ⟨fun hreach => ⟨hself.ip4, hiff.mpr hreach⟩, fun hbest => hiff.mp hbest.ip6⟩

theorem addRouteInReach_of_none (h : self.addRoute add = none) : self.AddRouteInReach add := by
  cases add with
  | ip4 new flags => exact addInReach_of_none (Option.map_eq_none_iff.mp h)
  | ip6 new flags => exact addInReach_of_none (Option.map_eq_none_iff.mp h)

/-- The configurations track the same routes, in any order. -/
structure SameRoutes (l l' : L3ConfigData) : Prop where
  ip4 : ∀ r, r ∈ l.ip4.routes ↔ r ∈ l'.ip4.routes
  ip6 : ∀ r, r ∈ l.ip6.routes ↔ r ∈ l'.ip6.routes

theorem bestDefaultRoute_unique {A R κ : Type} [NmpRouteClass R κ] [LawfulRouteCmp R]
    {c d : L3IpConfig A R} (hc : c.BestIsLeast) (hd : d.BestIsLeast)
    (hroutes : ∀ r, r ∈ c.routes ↔ r ∈ d.routes) : c.bestDefaultRoute = d.bestDefaultRoute := by
  have hset : {r | r ∈ c.routes} = {r | r ∈ d.routes} := Set.ext hroutes
  unfold L3IpConfig.BestIsLeast at hc
  rw [hset] at hc
  exact LeastOf.unique transCmp_cmpDefaultRoutes eq_of_cmpDefaultRoutes hc hd

/-- The best default routes are the least ones in all states of a run if and only if every
step of the run is in reach, and then they depend on nothing but the tracked routes. -/
theorem best_default_route_least_iff (ifindex : ℤ) (source : IpConfigSource)
    (adds : List AddRoute) :
    (AlongM addRoute AddRouteInReach (new ifindex source) adds ↔
      ∀ adds', adds' <+: adds → ∀ l ∈ adds'.foldlM addRoute (new ifindex source),
        l.BestIsLeast) ∧
      ∀ l l' : L3ConfigData, l.BestIsLeast → l'.BestIsLeast → l.SameRoutes l' →
        l.ip4.bestDefaultRoute = l'.ip4.bestDefaultRoute ∧
          l.ip6.bestDefaultRoute = l'.ip6.bestDefaultRoute := by
  constructor
  · exact alongM_iff_states
      (fun _ _ _ htracked hself h => bestIsLeast_addRoute_iff h htracked hself)
      (fun _ _ _ h => routesTracked_addRoute h) (fun _ _ => addRouteInReach_of_none)
      (routesTracked_new ifindex source) (bestIsLeast_new ifindex source)
  · intro l l' hl hl' hroutes
    exact ⟨bestDefaultRoute_unique hl.ip4 hl'.ip4 hroutes.ip4,
      bestDefaultRoute_unique hl.ip6 hl'.ip6 hroutes.ip6⟩

def defaultRoute (rtSource : IpConfigSource) (tos : ℕ) : ObjectIp4Route :=
  ⟨{ (default : PlatformIp4Route) with rtSource, tos }, [], length_noExtraNexthops⟩

def mergeFlags : AddFlags := ⟨.merge, false⟩

/-- The first route gets another source, which puts it behind the second one. -/
theorem replaced_best_not_least :
    ¬ ∀ (adds : List AddRoute) (l : L3ConfigData),
      adds.foldlM addRoute (new 1 .unknown) = some l → l.BestIsLeast := by
  intro h
  have hbest := (h
    [.ip4 (.pl (defaultRoute .shared 0)) mergeFlags, .ip4 (.pl (defaultRoute .vpn 1)) mergeFlags,
      .ip4 (.pl (defaultRoute .user 0)) mergeFlags] _ rfl).ip4.of_some _ rfl
  have hleast := hbest.2.2 (rehome 1 (defaultRoute .vpn 1)) (by decide) (by decide)
  revert hleast
  decide

end L3ConfigData

end NetworkManager.Core
