import NetworkManager.Platform.RouteSync

/-!
# The routes after a sync

Every route that is configured ends up on the platform, in the form in which the kernel has
it, and what is pruned is gone unless it is configured. This needs that a route has the
same identity in the kernel, which holds for what `NML3Cfg` syncs: the table and the metric
are resolved, and single-hop routes have no weight.
-/

namespace NetworkManager.Platform

open Lib List

/-! ## Routes with the same identity in the kernel -/

/-- The kernel has the route under the identity that it is looked up with. -/
structure KernelStable {R κ σ : Type} [RouteSyncClass R κ σ] (r : R) : Prop where
  objId : NmpClass.objId (RouteSyncClass.normalize r) = NmpClass.objId r
  semantics : RouteSyncClass.semantics (RouteSyncClass.normalize r) = RouteSyncClass.semantics r

theorem routeTableUncoerce_coerce (r : PlatformIpRoute) :
    routeTableUncoerce (routeTableCoerce r.getEffectiveTable) true = r.getEffectiveTable := by
  have hne : r.getEffectiveTable ≠ 0 := by
    unfold PlatformIpRoute.getEffectiveTable routeTableUncoerce rtTableMain
    split_ifs <;> simp_all
  unfold routeTableUncoerce routeTableCoerce
  split_ifs <;> omega

theorem getEffectiveTable_normalize (metricDefault : ℕ) (r : PlatformIpRoute) :
    (r.normalize metricDefault).getEffectiveTable = r.getEffectiveTable := by
  have h := routeTableUncoerce_coerce r
  simpa [PlatformIpRoute.getEffectiveTable, PlatformIpRoute.normalize] using h

theorem plen_normalize (metricDefault : ℕ) (r : PlatformIpRoute) :
    (r.normalize metricDefault).plen = r.plen := rfl

theorem ip4AddrClearHostAddress_self (addr : BitVec 32) (plen : ℕ) :
    ip4AddrClearHostAddress (ip4AddrClearHostAddress addr plen) plen =
      ip4AddrClearHostAddress addr plen := by
  simp [ip4AddrClearHostAddress, BitVec.and_assoc]

theorem ip6AddrClearHostAddress_self (addr : BitVec 128) (plen : ℕ) :
    ip6AddrClearHostAddress (ip6AddrClearHostAddress addr plen) plen =
      ip6AddrClearHostAddress addr plen := by
  simp [ip6AddrClearHostAddress, BitVec.and_assoc]

namespace ObjectIp4Route

/-- What the callers of the sync promise: the table and the metric are fixed, and a route
with at most one next hop has no weight. -/
structure IsPlain (r : ObjectIp4Route) : Prop where
  tableAny : r.tableAny = false
  metricAny : r.metricAny = false
  weight : r.nNexthops ≤ 1 → r.weight = 0

variable {r : ObjectIp4Route}

theorem getNNexthops_normalize (r : ObjectIp4Route) :
    r.normalize.getNNexthops = r.getNNexthops := by
  unfold normalize PlatformIpRoute.normalize PlatformIp4Route.getNNexthops
  dsimp only
  split_ifs <;> omega

theorem weight_normalize (h : r.IsPlain) :
    PlatformIp4Route.weightNormalize r.getNNexthops (ecmpWeightNormalize r.getNNexthops r.weight) =
      PlatformIp4Route.weightNormalize r.getNNexthops r.weight := by
  unfold PlatformIp4Route.weightNormalize ecmpWeightNormalize
  by_cases hmany : r.getNNexthops > 1
  · simp only [hmany, if_true]
    omega
  · have hone : r.nNexthops ≤ 1 := by
      unfold PlatformIp4Route.getNNexthops at hmany
      split_ifs at hmany <;> omega
    simp [hmany, h.weight hone]

theorem scopeInvGetNormalized_normalize (r : ObjectIp4Route) :
    r.normalize.scopeInvGetNormalized = r.scopeInvGetNormalized := by
  have hne : r.scopeInvGetNormalized ≠ 0 := by
    unfold PlatformIp4Route.scopeInvGetNormalized
    split_ifs with h0
    · decide
    · decide
    · decide
    · exact h0
  have hscope : r.normalize.scopeInv = r.scopeInvGetNormalized := rfl
  rw [PlatformIp4Route.scopeInvGetNormalized, hscope, if_neg hne]

theorem IsPlain.normalize_eq (h : r.IsPlain) :
    r.normalize.tableAny = r.tableAny ∧ r.normalize.metricAny = r.metricAny ∧
      r.normalize.metric = r.metric :=
  ⟨h.tableAny.symm, h.metricAny.symm, by simp [normalize, PlatformIpRoute.normalize, h.metricAny]⟩

theorem IsPlain.kernelStable (h : r.IsPlain) : KernelStable r where
  objId := by
    obtain ⟨hany, hmetricAny, hmetric⟩ := h.normalize_eq
    change r.normalize.id = r.id
    simp only [ObjectIp4Route.id, getNNexthops_normalize, scopeInvGetNormalized_normalize, hany,
      hmetricAny, hmetric]
    simp only [normalize, getEffectiveTable_normalize, plen_normalize, ip4AddrClearHostAddress_self,
      weight_normalize h]
    rfl
  semantics := by
    obtain ⟨hany, hmetricAny, hmetric⟩ := h.normalize_eq
    change r.normalize.semantics = r.semantics
    simp only [ObjectIp4Route.semantics, getNNexthops_normalize, scopeInvGetNormalized_normalize,
      hany, hmetricAny, hmetric]
    simp only [normalize, getEffectiveTable_normalize, plen_normalize, ip4AddrClearHostAddress_self,
      weight_normalize h]
    rfl

end ObjectIp4Route

namespace PlatformIp6Route

/-- What the callers of the sync promise: the table and the metric are fixed. -/
structure IsPlain (r : PlatformIp6Route) : Prop where
  tableAny : r.tableAny = false
  metricAny : r.metricAny = false

variable {r : PlatformIp6Route}

theorem IsPlain.normalize_eq (h : r.IsPlain) :
    r.normalize.tableAny = r.tableAny ∧ r.normalize.metricAny = r.metricAny ∧
      r.normalize.metric = r.metric :=
  ⟨h.tableAny.symm, h.metricAny.symm, by simp [normalize, PlatformIpRoute.normalize, h.metricAny]⟩

theorem IsPlain.kernelStable (h : r.IsPlain) : KernelStable r where
  objId := by
    obtain ⟨hany, hmetricAny, hmetric⟩ := h.normalize_eq
    change r.normalize.id = r.id
    simp only [PlatformIp6Route.id, hany, hmetricAny, hmetric]
    simp only [normalize, getEffectiveTable_normalize, plen_normalize, ip6AddrClearHostAddress_self]
    rfl
  semantics := by
    obtain ⟨hany, hmetricAny, hmetric⟩ := h.normalize_eq
    change r.normalize.semantics = r.semantics
    simp only [PlatformIp6Route.semantics, hany, hmetricAny, hmetric]
    simp only [normalize, getEffectiveTable_normalize, plen_normalize, ip6AddrClearHostAddress_self]
    rfl

end PlatformIp6Route

/-! ## The runs over the routes -/

section Sync

variable {R κ σ : Type} [RouteSyncClass R κ σ] [DecidableEq κ]

open NmpClass RouteSyncClass

variable {refused : R → Bool} {before routes routesPrune done : List R} {s : RouteSync R} {r : R}
  {confO : R}

/-- The route is the first in the list with its identity. -/
def IsFirst (routes : List R) (r : R) : Prop :=
  ∃ pre post, routes = pre ++ r :: post ∧ ∀ x ∈ pre, objId x ≠ objId r

omit [DecidableEq κ] in
theorem isFirst_append_singleton (h : IsFirst (done ++ [confO]) r) :
    IsFirst done r ∨ (r = confO ∧ ∀ x ∈ done, objId x ≠ objId r) := by
  obtain ⟨pre, post, heq, hpre⟩ := h
  rcases eq_nil_or_concat post with rfl | ⟨post', y, rfl⟩
  · obtain ⟨hdone, hr⟩ := append_inj' heq rfl
    exact Or.inr ⟨(singleton_inj.mp hr).symm, hdone ▸ hpre⟩
  · have heq' : done ++ [confO] = (pre ++ r :: post') ++ [y] := by simpa using heq
    obtain ⟨hdone, _⟩ := append_inj' heq' rfl
    exact Or.inl ⟨pre, post', hdone, hpre⟩

/-- The sync after the routes that were processed. -/
structure RouteSync.After (before done : List R) (s : RouteSync R) : Prop where
  unique : KeyUnique objId s.platform
  seen : ∀ k, (∃ x ∈ s.routesIdx, objId x = k) ↔ ∃ x ∈ done, objId x = k
  /-- The platform has the routes, in the form in which they are wanted. -/
  configured : ∀ r, IsFirst done r →
    ∃ o ∈ s.platform, objId o = objId r ∧ semantics o = semantics (normalize r)
  /-- It still has those that were like this before. -/
  kept : ∀ o ∈ before, ∀ r, IsFirst done r → objId r = objId o → semantics r = semantics o →
    o ∈ s.platform
  others : ∀ k, (∀ x ∈ done, objId x ≠ k) → lookup objId k s.platform = lookup objId k before
  origin : ∀ o ∈ s.platform, o ∈ before ∨ ∃ r ∈ done, o = normalize r
  success : s.success = true ∧ s.routesFailed = []

theorem RouteSync.after_nil (hunique : KeyUnique objId before) :
    RouteSync.After before [] (⟨before, [], true, []⟩ : RouteSync R) where
  unique := hunique
  seen := by simp
  configured r h := by
    obtain ⟨pre, post, heq, _⟩ := h
    exact absurd heq (by simp)
  kept o _ r h := by
    obtain ⟨pre, post, heq, _⟩ := h
    exact absurd heq (by simp)
  others := fun _ _ => rfl
  origin := fun o ho => Or.inl ho
  success := ⟨rfl, rfl⟩

theorem RouteSync.add_of_none (hstable : KernelStable confO)
    (hrefused : refused (normalize confO) = false)
    (hnone : lookup objId (objId confO) s.platform = none) :
    s.add refused confO = { s with platform := s.platform ++ [normalize confO] } := by
  simp [RouteSync.add, platformIpRouteAdd, hstable.objId, hnone, hrefused]

/-- A new platform list in which the route is configured, and nothing else changed. -/
theorem RouteSync.After.configured_new {platform : List R} (h : s.After before done)
    (hnew : ∀ x ∈ done, objId x ≠ objId confO) (hunique : KeyUnique objId platform)
    (hmem : ∀ o, o ∈ platform ↔ (o = normalize confO) ∨ (o ∈ s.platform ∧ objId o ≠ objId confO))
    (hstable : KernelStable confO)
    (hkept : ∀ o ∈ before, objId confO = objId o → semantics confO ≠ semantics o) :
    RouteSync.After before (done ++ [confO])
      { s with platform := platform, routesIdx := s.routesIdx ++ [confO] } where
  unique := hunique
  seen k := by
    simp only [mem_append, mem_singleton, or_and_right, exists_or, h.seen k]
  configured r hr := by
    rcases isFirst_append_singleton hr with hr | ⟨rfl, _⟩
    · obtain ⟨o, ho, hid, hsem⟩ := h.configured r hr
      obtain ⟨pre, post, heq, _⟩ := hr
      have hne : objId r ≠ objId confO := hnew r (by simp [heq])
      exact ⟨o, (hmem o).mpr (Or.inr ⟨ho, hid ▸ hne⟩), hid, hsem⟩
    · exact ⟨normalize r, (hmem _).mpr (Or.inl rfl), hstable.objId, rfl⟩
  kept o ho r hr hid hsem := by
    rcases isFirst_append_singleton hr with hr | ⟨rfl, _⟩
    · have hin := h.kept o ho r hr hid hsem
      obtain ⟨pre, post, heq, _⟩ := hr
      have hne : objId r ≠ objId confO := hnew r (by simp [heq])
      exact (hmem o).mpr (Or.inr ⟨hin, hid ▸ hne⟩)
    · exact absurd hsem (hkept o ho hid)
  others k hk := by
    have hdone : ∀ x ∈ done, objId x ≠ k := fun x hx => hk x (mem_append_left _ hx)
    have hconf : objId confO ≠ k := hk confO (by simp)
    rw [← h.others k hdone]
    cases hlook : lookup objId k s.platform with
    | none =>
      refine lookup_eq_none_iff.mpr fun o ho => ?_
      rcases (hmem o).mp ho with rfl | ⟨ho, _⟩
      · rw [hstable.objId]
        exact hconf
      · exact lookup_eq_none_iff.mp hlook o ho
    | some o =>
      have hok := key_of_lookup hlook
      refine (lookup_eq_some_iff hunique).mpr ⟨(hmem o).mpr (Or.inr ⟨mem_of_lookup hlook, ?_⟩), hok⟩
      rw [hok]
      exact hconf.symm
  origin o ho := by
    rcases (hmem o).mp ho with rfl | ⟨ho, _⟩
    · exact Or.inr ⟨confO, by simp, rfl⟩
    · rcases h.origin o ho with ho | ⟨r, hr, heq⟩
      · exact Or.inl ho
      · exact Or.inr ⟨r, mem_append_left _ hr, heq⟩
  success := h.success

theorem RouteSync.After.skip (h : s.After before done) (hseen : ∃ x ∈ done, objId x = objId confO)
    : s.After before (done ++ [confO]) := by
  have hfirst (r : R) (hr : IsFirst (done ++ [confO]) r) : IsFirst done r := by
    rcases isFirst_append_singleton hr with hr | ⟨rfl, hnew⟩
    · exact hr
    · obtain ⟨x, hx, hid⟩ := hseen
      exact absurd hid (hnew x hx)
  constructor
  · exact h.unique
  · intro k
    rw [h.seen k]
    simp only [mem_append, mem_singleton, or_and_right, exists_or, exists_eq_left]
    refine ⟨Or.inl, ?_⟩
    rintro (hx | hx)
    · exact hx
    · exact hx ▸ hseen
  · exact fun r hr => h.configured r (hfirst r hr)
  · exact fun o ho r hr => h.kept o ho r (hfirst r hr)
  · exact fun k hk => h.others k fun x hx => hk x (mem_append_left _ hx)
  · intro o ho
    rcases h.origin o ho with ho | ⟨r, hr, heq⟩
    · exact Or.inl ho
    · exact Or.inr ⟨r, mem_append_left _ hr, heq⟩
  · exact h.success

theorem RouteSync.After.same {platO : R} (h : s.After before done)
    (hnew : ∀ x ∈ done, objId x ≠ objId confO) (hplat : platO ∈ s.platform)
    (hid : objId platO = objId confO) (hsem : semantics confO = semantics platO)
    (hstable : KernelStable confO) (hbefore : KeyUnique objId before) :
    RouteSync.After before (done ++ [confO]) { s with routesIdx := s.routesIdx ++ [confO] } where
  unique := h.unique
  seen k := by
    simp only [mem_append, mem_singleton, or_and_right, exists_or, h.seen k]
  configured r hr := by
    rcases isFirst_append_singleton hr with hr | ⟨rfl, _⟩
    · exact h.configured r hr
    · exact ⟨platO, hplat, hid, hsem.symm.trans hstable.semantics.symm⟩
  kept o ho r hr hid' hsem' := by
    rcases isFirst_append_singleton hr with hr | ⟨rfl, _⟩
    · exact h.kept o ho r hr hid' hsem'
    · have hlook := h.others (objId r) hnew
      rw [hid', lookup_of_mem hbefore ho] at hlook
      exact mem_of_lookup hlook
  others k hk := h.others k fun x hx => hk x (mem_append_left _ hx)
  origin o ho := by
    rcases h.origin o ho with ho | ⟨r, hr, heq⟩
    · exact Or.inl ho
    · exact Or.inr ⟨r, mem_append_left _ hr, heq⟩
  success := h.success

variable [DecidableEq σ]

/-- One route that is configured. -/
theorem RouteSync.After.configure (h : s.After before done) (hbefore : KeyUnique objId before)
    (hstable : KernelStable confO) (hrefused : refused (normalize confO) = false) :
    RouteSync.After before (done ++ [confO]) (s.configure refused confO) := by
  unfold RouteSync.configure
  by_cases hseen : ∃ x ∈ done, objId x = objId confO
  · have hidx : (lookup objId (objId confO) s.routesIdx).isSome :=
      lookup_isSome_iff.mpr ((h.seen _).mpr hseen)
    rw [if_pos hidx]
    exact h.skip hseen
  · have hnew : ∀ x ∈ done, objId x ≠ objId confO := fun x hx hid => hseen ⟨x, hx, hid⟩
    have hidx : ¬ (lookup objId (objId confO) s.routesIdx).isSome := fun hsome =>
      hseen ((h.seen _).mp (lookup_isSome_iff.mp hsome))
    have hothers := h.others (objId confO) hnew
    rw [if_neg hidx]
    dsimp only
    cases hplat : lookup objId (objId confO) s.platform with
    | none =>
      have hadd := RouteSync.add_of_none (s := { s with routesIdx := s.routesIdx ++ [confO] })
        hstable hrefused hplat
      have hno := lookup_eq_none_iff.mp hplat
      have hnoBefore := lookup_eq_none_iff.mp (hothers.symm.trans hplat)
      dsimp only
      rw [hadd]
      refine h.configured_new hnew ?_ (fun o => ?_) hstable fun o ho hid _ => ?_
      · exact h.unique.append_singleton fun o ho => hstable.objId ▸ hno o ho
      · rw [mem_append, mem_singleton, or_comm]
        exact or_congr_right ⟨fun ho => ⟨ho, hno o ho⟩, And.left⟩
      · exact hnoBefore o ho hid.symm
    | some platO =>
      have hplatO := mem_of_lookup hplat
      have hid := key_of_lookup hplat
      dsimp only
      split_ifs with hsem
      · exact h.same hnew hplatO hid hsem hstable hbefore
      · have hgone : lookup objId (objId confO) (platformObjectDelete s.platform platO) = none := by
          rw [platformObjectDelete, hid, lookup_eraseKey_self]
        have hadd := RouteSync.add_of_none (s :=
            { s with
              routesIdx := s.routesIdx ++ [confO]
              platform := platformObjectDelete s.platform platO })
          hstable hrefused hgone
        rw [hadd]
        refine h.configured_new hnew ?_ (fun o => ?_) hstable fun o ho hid' => ?_
        · exact h.unique.eraseKey.append_singleton fun o ho =>
            hstable.objId ▸ hid ▸ (mem_eraseKey.mp ho).2
        · rw [platformObjectDelete, mem_append, mem_singleton, mem_eraseKey, hid, or_comm]
        · rw [hid', lookup_of_mem hbefore ho, ← hid'] at hothers
          have heq : platO = o := Option.some.inj (hplat.symm.trans hothers)
          exact heq ▸ hsem

theorem RouteSync.After.pass (deviceRoutes : Bool) (h : s.After before done)
    (hbefore : KeyUnique objId before) (hstable : ∀ r ∈ routes, KernelStable r)
    (hrefused : ∀ r ∈ routes, refused (normalize r) = false) :
    RouteSync.After before (done ++ routes.filter fun r => isDeviceRoute r = deviceRoutes)
      (s.pass refused deviceRoutes routes) := by
  unfold RouteSync.pass
  induction routes generalizing s done with
  | nil => simpa using h
  | cons confO routes ih =>
    have hstable' := fun r hr => hstable r (mem_cons_of_mem _ hr)
    have hrefused' := fun r hr => hrefused r (mem_cons_of_mem _ hr)
    rw [foldl_cons]
    by_cases hdevice : isDeviceRoute confO = deviceRoutes
    · have hstep := h.configure hbefore (hstable confO (by simp)) (hrefused confO (by simp))
      have hrest := ih hstep hstable' hrefused'
      simp only [hdevice, if_true, filter_cons, decide_true]
      simpa using hrest
    · have hrest := ih h hstable' hrefused'
      simpa [hdevice] using hrest

/-! ## Pruning -/

omit [DecidableEq σ] in
theorem RouteSync.prune_spec (s : RouteSync R) (p : R) :
    (∀ o, o ∈ (s.prune p).platform ↔ o ∈ s.platform ∧
      (objId p = objId o → ∃ x ∈ s.routesIdx, objId x = objId o)) ∧
    (s.prune p).platform.Sublist s.platform ∧ (s.prune p).routesIdx = s.routesIdx ∧
    (s.prune p).success = s.success ∧ (s.prune p).routesFailed = s.routesFailed := by
  unfold RouteSync.prune
  by_cases hseen : (lookup objId (objId p) s.routesIdx).isSome
  · rw [if_pos hseen]
    have hseen' := lookup_isSome_iff.mp hseen
    refine ⟨fun o => ⟨fun ho => ⟨ho, fun hid => hid ▸ hseen'⟩, And.left⟩, ?_⟩
    exact ⟨List.Sublist.refl _, rfl, rfl, rfl⟩
  · rw [if_neg hseen]
    have hnot : ¬ ∃ x ∈ s.routesIdx, objId x = objId p := fun h => hseen (lookup_isSome_iff.mpr h)
    have himp (o : R) : (objId p = objId o → ∃ x ∈ s.routesIdx, objId x = objId o) ↔
        objId o ≠ objId p :=
      ⟨fun h hid => hnot (hid ▸ h hid.symm), fun h hid => absurd hid.symm h⟩
    split_ifs with hplat
    · refine ⟨fun o => ?_, filter_sublist, rfl, rfl, rfl⟩
      rw [himp]
      exact mem_eraseKey
    · have hno := lookup_eq_none_iff.mp (Option.not_isSome_iff_eq_none.mp hplat)
      refine ⟨fun o => ?_, List.Sublist.refl _, rfl, rfl, rfl⟩
      rw [himp]
      exact ⟨fun ho => ⟨ho, hno o ho⟩, And.left⟩

omit [DecidableEq σ] in
theorem RouteSync.foldl_prune_spec (s : RouteSync R) (routesPrune : List R) :
    (∀ o, o ∈ (routesPrune.foldl RouteSync.prune s).platform ↔ o ∈ s.platform ∧
      ∀ p ∈ routesPrune, objId p = objId o → ∃ x ∈ s.routesIdx, objId x = objId o) ∧
    (routesPrune.foldl RouteSync.prune s).platform.Sublist s.platform ∧
    (routesPrune.foldl RouteSync.prune s).success = s.success ∧
    (routesPrune.foldl RouteSync.prune s).routesFailed = s.routesFailed := by
  induction routesPrune generalizing s with
  | nil => simp
  | cons p routesPrune ih =>
    obtain ⟨hmem, hsub, hidx, hsuccess, hfailed⟩ := s.prune_spec p
    obtain ⟨hmem', hsub', hsuccess', hfailed'⟩ := ih (s.prune p)
    refine ⟨fun o => ?_, hsub'.trans hsub, hsuccess'.trans hsuccess, hfailed'.trans hfailed⟩
    rw [foldl_cons, hmem' o, hmem o, hidx, forall_mem_cons, and_assoc]

/-! ## The whole sync -/

/-- The platform after a sync. -/
structure RouteSynced (before routes routesPrune : List R) (s : RouteSync R) : Prop where
  /-- A route that is the first with its identity is on the platform, as it is wanted. -/
  configured : ∀ r, IsFirst routes r →
    ∃ o ∈ s.platform, objId o = objId r ∧ semantics o = semantics (normalize r)
  /-- What is pruned and not configured is gone. -/
  pruned : ∀ p ∈ routesPrune, (∀ r ∈ routes, objId r ≠ objId p) →
    ∀ o ∈ s.platform, objId o ≠ objId p
  /-- A route that is configured is not removed, whether or not it is also pruned. -/
  kept : ∀ o ∈ before, ∀ r, IsFirst routes r → objId r = objId o → semantics r = semantics o →
    o ∈ s.platform
  /-- What is in neither list is untouched. -/
  untouched : ∀ o ∈ before, (∀ r ∈ routes, objId r ≠ objId o) →
    (∀ p ∈ routesPrune, objId p ≠ objId o) → o ∈ s.platform
  origin : ∀ o ∈ s.platform, o ∈ before ∨ ∃ r ∈ routes, o = normalize r
  success : s.success = true ∧ s.routesFailed = []

omit [DecidableEq κ] [DecidableEq σ] in
theorem IsFirst.twoRuns {p : R → Bool} (hp : ∀ a b : R, objId a = objId b → p a = p b)
    (h : IsFirst routes r) :
    IsFirst (routes.filter (fun r => p r = true) ++ routes.filter fun r => p r = false) r := by
  obtain ⟨pre, post, rfl, hpre⟩ := h
  have hpre' (q : R → Bool) : ∀ x ∈ pre.filter q, objId x ≠ objId r :=
    fun x hx => hpre x (mem_of_mem_filter hx)
  cases hr : p r with
  | true =>
    refine ⟨pre.filter fun r => p r = true, post.filter (fun r => p r = true) ++
      (pre ++ r :: post).filter (fun r => p r = false), ?_, hpre' _⟩
    simp [filter_append, hr]
  | false =>
    refine ⟨(pre ++ r :: post).filter (fun r => p r = true) ++ pre.filter fun r => p r = false,
      post.filter fun r => p r = false, ?_, fun x hx => ?_⟩
    · simp [filter_append, hr]
    · rcases mem_append.mp hx with hx | hx
      · intro hid
        have hpx : p x = true := by simpa using (mem_filter.mp hx).2
        rw [hp x r hid, hr] at hpx
        exact Bool.noConfusion hpx
      · exact hpre' _ x hx

theorem platformIpRouteSync_synced
    (hdevice : ∀ a b : R, objId a = objId b → isDeviceRoute a = isDeviceRoute b)
    (hbefore : KeyUnique objId before) (hstable : ∀ r ∈ routes, KernelStable r)
    (hrefused : ∀ r ∈ routes, refused (normalize r) = false) :
    RouteSynced before routes routesPrune
      (platformIpRouteSync refused before routes routesPrune) := by
  have h₁ := (RouteSync.after_nil hbefore).pass true hbefore hstable hrefused
  have h := h₁.pass false hbefore hstable hrefused
  rw [nil_append] at h
  obtain ⟨hmem, hsub, hsuccess, hfailed⟩ := RouteSync.foldl_prune_spec
    (((⟨before, [], true, []⟩ : RouteSync R).pass refused true routes).pass refused false routes)
    routesPrune
  have hdone (x : R) : x ∈ (routes.filter (fun r => isDeviceRoute r = true) ++
      routes.filter fun r => isDeviceRoute r = false) ↔ x ∈ routes := by
    simp only [mem_append, mem_filter, decide_eq_true_eq]
    cases isDeviceRoute x <;> simp
  have hconfigured (o : R) (hid : ∃ r ∈ routes, objId r = objId o) :
      o ∈ (platformIpRouteSync refused before routes routesPrune).platform ↔
        o ∈ (((⟨before, [], true, []⟩ : RouteSync R).pass refused true routes).pass refused false
          routes).platform := by
    refine (hmem o).trans ⟨And.left, fun ho => ⟨ho, fun p _ _ => ?_⟩⟩
    obtain ⟨r, hr, hid⟩ := hid
    exact (h.seen _).mpr ⟨r, (hdone r).mpr hr, hid⟩
  have hfirst (r : R) (hr : IsFirst routes r) := hr.twoRuns hdevice
  have hin (r : R) (hr : IsFirst routes r) : r ∈ routes := by
    obtain ⟨pre, post, rfl, _⟩ := hr
    simp
  constructor
  · intro r hr
    obtain ⟨o, ho, hid, hsem⟩ := h.configured r (hfirst r hr)
    exact ⟨o, (hconfigured o ⟨r, hin r hr, hid.symm⟩).mpr ho, hid, hsem⟩
  · intro p hp hno o ho hid
    obtain ⟨x, hx, hxid⟩ := ((hmem o).mp ho).2 p hp hid.symm
    obtain ⟨r, hr, hrid⟩ := (h.seen _).mp ⟨x, hx, hxid⟩
    exact hno r ((hdone r).mp hr) (hrid.trans hid)
  · intro o ho r hr hid hsem
    exact (hconfigured o ⟨r, hin r hr, hid⟩).mpr (h.kept o ho r (hfirst r hr) hid hsem)
  · intro o ho hno hnop
    have hlook := h.others (objId o) fun x hx => hno x ((hdone x).mp hx)
    rw [lookup_of_mem hbefore ho] at hlook
    exact (hmem o).mpr ⟨mem_of_lookup hlook, fun p hp hid => absurd hid (hnop p hp)⟩
  · intro o ho
    rcases h.origin o (hsub.subset ho) with ho | ⟨r, hr, heq⟩
    · exact Or.inl ho
    · exact Or.inr ⟨r, (hdone r).mp hr, heq⟩
  · exact ⟨hsuccess.trans h.success.1, hfailed.trans h.success.2⟩

/-! ## The same sync again -/

omit [DecidableEq κ] [DecidableEq σ] in
theorem exists_isFirst {r : R} (hr : r ∈ routes) : ∃ r', IsFirst routes r' ∧ objId r' = objId r := by
  classical
  induction routes with
  | nil => cases hr
  | cons x routes ih =>
    by_cases hx : objId x = objId r
    · exact ⟨x, ⟨[], routes, rfl, by simp⟩, hx⟩
    · have hne : r ≠ x := fun h => hx (h ▸ rfl)
      obtain ⟨r', ⟨pre, post, rfl, hpre⟩, hid⟩ := ih (mem_of_ne_of_mem hne hr)
      exact ⟨r', ⟨x :: pre, post, rfl, forall_mem_cons.mpr ⟨hid ▸ hx, hpre⟩⟩, hid⟩

theorem platformIpRouteSync_unique (hbefore : KeyUnique objId before)
    (hstable : ∀ r ∈ routes, KernelStable r) (hrefused : ∀ r ∈ routes, refused (normalize r) = false) :
    KeyUnique objId (platformIpRouteSync refused before routes routesPrune).platform := by
  have h := (RouteSync.after_nil hbefore).pass true hbefore hstable hrefused
  exact (h.pass false hbefore hstable hrefused).unique.sublist
    (RouteSync.foldl_prune_spec _ routesPrune).2.1

/-- A sync of such routes that is repeated leaves the routes as they are. -/
def SyncRepeats (plain : R → Prop) : Prop :=
  ∀ (refused : R → Bool) (before after routes routesPrune : List R),
    KeyUnique objId before → (∀ r ∈ routes, plain r) →
    (∀ r ∈ routes, refused (normalize r) = false) →
    after = (platformIpRouteSync refused before routes routesPrune).platform →
    ∀ o, o ∈ (platformIpRouteSync refused after routes routesPrune).platform ↔ o ∈ after

theorem syncRepeats {plain : R → Prop}
    (hdevice : ∀ a b : R, objId a = objId b → isDeviceRoute a = isDeviceRoute b)
    (hplain : ∀ r, plain r → KernelStable r) : SyncRepeats plain := by
  intro refused before after routes routesPrune hbefore hroutes hrefused hafter o
  have hstable : ∀ r ∈ routes, KernelStable r := fun r hr => hplain r (hroutes r hr)
  have hunique : KeyUnique objId after := hafter ▸ platformIpRouteSync_unique hbefore hstable hrefused
  have hunique' : KeyUnique objId (platformIpRouteSync refused after routes routesPrune).platform :=
    platformIpRouteSync_unique hunique hstable hrefused
  have h : RouteSynced before routes routesPrune _ :=
    platformIpRouteSync_synced hdevice hbefore hstable hrefused
  have h' : RouteSynced after routes routesPrune _ :=
    platformIpRouteSync_synced hdevice hunique hstable hrefused
  have hconfigured : ∀ r ∈ routes, ∀ o ∈ after, objId o = objId r →
      o ∈ (platformIpRouteSync refused after routes routesPrune).platform := by
    intro r hr o ho hid
    obtain ⟨r', hfirst, hid'⟩ := exists_isFirst hr
    have hmem : r' ∈ routes := by
      obtain ⟨pre, post, rfl, -⟩ := hfirst
      simp
    obtain ⟨o', ho', hoid, hsem⟩ := h.configured r' hfirst
    rw [← hafter] at ho'
    obtain rfl : o' = o := eq_of_key_eq hunique ho' ho (hoid.trans (hid'.trans hid.symm))
    exact h'.kept _ ho r' hfirst (hid'.trans hid.symm) (hsem.trans (hstable r' hmem).semantics).symm
  constructor
  · intro ho
    rcases h'.origin o ho with hold | ⟨r, hr, rfl⟩
    · exact hold
    · obtain ⟨r', hfirst, hid⟩ := exists_isFirst hr
      obtain ⟨o', ho', hoid, -⟩ := h.configured r' hfirst
      rw [← hafter] at ho'
      have hid' := hoid.trans hid
      have heq := eq_of_key_eq hunique' (hconfigured r hr o' ho' hid') ho
        (hid'.trans (hstable r hr).objId.symm)
      exact heq ▸ ho'
  · intro ho
    by_cases hroute : ∃ r ∈ routes, objId o = objId r
    · obtain ⟨r, hr, hid⟩ := hroute
      exact hconfigured r hr o ho hid
    · have hno : ∀ r ∈ routes, objId r ≠ objId o := fun r hr hid => hroute ⟨r, hr, hid.symm⟩
      refine h'.untouched o ho hno fun p hp hid => ?_
      exact h.pruned p hp (fun r hr => hid ▸ hno r hr) o (hafter ▸ ho) hid.symm

end Sync

/-- For both families, and for all lists: a sync leaves the platform with what is configured. -/
theorem platformIpRouteSync_converges :
    (∀ (refused : ObjectIp4Route → Bool) (before routes routesPrune : List ObjectIp4Route),
      KeyUnique ObjectIp4Route.id before → (∀ r ∈ routes, r.IsPlain) →
      (∀ r ∈ routes, refused r.normalize = false) →
      RouteSynced before routes routesPrune
        (platformIpRouteSync refused before routes routesPrune)) ∧
    ∀ (refused : PlatformIp6Route → Bool) (before routes routesPrune : List PlatformIp6Route),
      KeyUnique PlatformIp6Route.id before → (∀ r ∈ routes, r.IsPlain) →
      (∀ r ∈ routes, refused r.normalize = false) →
      RouteSynced before routes routesPrune
        (platformIpRouteSync refused before routes routesPrune) := by
  constructor
  · intro refused before routes routesPrune hbefore hplain hrefused
    refine platformIpRouteSync_synced (fun a b hid => ?_) hbefore
      (fun r hr => (hplain r hr).kernelStable) hrefused
    have hgateway : a.gateway = b.gateway := congrArg ObjectIp4RouteId.gateway hid
    simp only [RouteSyncClass.isDeviceRoute, hgateway]
  · intro refused before routes routesPrune hbefore hplain hrefused
    refine platformIpRouteSync_synced (fun a b hid => ?_) hbefore
      (fun r hr => (hplain r hr).kernelStable) hrefused
    have hgateway : a.gateway = b.gateway := congrArg PlatformIp6RouteId.gateway hid
    simp only [RouteSyncClass.isDeviceRoute, hgateway]

/-- The route to `network`/24 on the interface 1, via the gateway. -/
def exampleIp4Route (network gateway : BitVec 32) : ObjectIp4Route where
  ifindex := 1
  rRtmFlags := 0
  mss := 0
  window := 0
  cwnd := 0
  initcwnd := 0
  initrwnd := 0
  rtoMin := 0
  mtu := 0
  metric := 100
  tableCoerced := 0
  rtSource := .user
  lockWindow := false
  lockCwnd := false
  lockInitcwnd := false
  lockInitrwnd := false
  lockMtu := false
  lockMss := false
  quickack := false
  metricAny := false
  tableAny := false
  typeCoerced := 0
  plen := 24
  network := network
  nNexthops := 1
  gateway := gateway
  prefSrc := 0
  weight := 0
  tos := 0
  scopeInv := 0
  extraNexthops := []
  length_extraNexthops := length_noExtraNexthops

/-- The first of the routes on the platform is pruned, and the second is wanted via another
gateway. -/
theorem platformIpRouteSync_exampleIp4Route :
    RouteSynced [exampleIp4Route 0x0a000100 0, exampleIp4Route 0x0a000200 0x0a000101]
      [exampleIp4Route 0x0a000200 0x0a000102] [exampleIp4Route 0x0a000100 0]
      (platformIpRouteSync (fun _ => false)
        [exampleIp4Route 0x0a000100 0, exampleIp4Route 0x0a000200 0x0a000101]
        [exampleIp4Route 0x0a000200 0x0a000102] [exampleIp4Route 0x0a000100 0]) := by
  refine platformIpRouteSync_converges.1 _ _ _ _ ?_ ?_ fun _ _ => rfl
  · unfold KeyUnique
    decide +kernel
  · intro r hr
    rw [mem_singleton.mp hr]
    exact ⟨rfl, rfl, fun _ => rfl⟩

/-- For both families: what a sync leaves, the next one with the same routes does not change. -/
theorem platformIpRouteSync_repeated :
    SyncRepeats ObjectIp4Route.IsPlain ∧ SyncRepeats PlatformIp6Route.IsPlain := by
  refine ⟨syncRepeats (fun a b hid => ?_) fun _ => ObjectIp4Route.IsPlain.kernelStable,
    syncRepeats (fun a b hid => ?_) fun _ => PlatformIp6Route.IsPlain.kernelStable⟩
  · have hgateway : a.gateway = b.gateway := congrArg ObjectIp4RouteId.gateway hid
    simp only [RouteSyncClass.isDeviceRoute, hgateway]
  · have hgateway : a.gateway = b.gateway := congrArg PlatformIp6RouteId.gateway hid
    simp only [RouteSyncClass.isDeviceRoute, hgateway]

/-- The routes on the platform are changed by the first sync only. -/
theorem platformIpRouteSync_repeated_exampleIp4Route :
    let before := [exampleIp4Route 0x0a000100 0, exampleIp4Route 0x0a000200 0x0a000101]
    let sync before := (platformIpRouteSync (fun _ => false) before
      [exampleIp4Route 0x0a000200 0x0a000102] [exampleIp4Route 0x0a000100 0]).platform
    ∀ o, o ∈ sync (sync before) ↔ o ∈ sync before := by
  refine platformIpRouteSync_repeated.1 _ _ _ _ _ ?_ ?_ (fun _ _ => rfl) rfl
  · unfold KeyUnique
    decide +kernel
  · intro r hr
    rw [mem_singleton.mp hr]
    exact ⟨rfl, rfl, fun _ => rfl⟩

end NetworkManager.Platform
