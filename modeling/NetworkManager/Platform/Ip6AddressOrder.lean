import NetworkManager.Platform.Ip6AddressSync

/-!
# Presence and order of the IPv6 addresses after a sync

The prefix length and the priority of the addresses of a scope are read off the kernel
as a list of pairs. A known address that is kept does not change the list, and one that
is added moves to its front. Since those that are kept are the last ones, and the others
are added in reverse order, the known addresses end up in their order.
-/

namespace NetworkManager.Platform

open Lib
open List hiding lookup_isSome_iff

def Ip6Address.config (a : Ip6Address) : BitVec 128 × ℕ := (a.address, a.plen)

def scopeConfig (s : Ip6AddrScope) (as : List Ip6Address) : List (BitVec 128 × ℕ) :=
  (inScope s as).map Ip6Address.config

variable {s : Ip6AddrScope} {a b k : Ip6Address} {as kernel toDelete idx prune : List Ip6Address}
  {address : BitVec 128} {plen now : ℕ} {withNoprefixroute : Bool}

/-! ## The kernel -/

theorem perm_kernelInsertIp6 : (kernelInsertIp6 a kernel).Perm (a :: kernel) := by
  induction kernel with
  | nil => exact List.Perm.refl _
  | cons b kernel ih =>
    unfold kernelInsertIp6
    split_ifs
    · exact List.Perm.refl _
    · exact (ih.cons b).trans (List.Perm.swap a b kernel)

theorem scopeConfig_kernelInsertIp6 :
    scopeConfig s (kernelInsertIp6 a kernel) =
      if a.scope = s then a.config :: scopeConfig s kernel else scopeConfig s kernel := by
  unfold scopeConfig
  induction kernel with
  | nil =>
    unfold kernelInsertIp6
    split_ifs with hs
    · rw [inScope_cons_of_eq hs, map_cons]
    · rw [inScope_cons_of_ne hs]
  | cons b kernel ih =>
    unfold kernelInsertIp6
    by_cases hb : b.scope = a.scope
    · rw [if_pos hb]
      split_ifs with hs
      · rw [inScope_cons_of_eq hs, map_cons]
      · rw [inScope_cons_of_ne hs]
    · rw [if_neg hb]
      by_cases hbs : b.scope = s
      · have hs : a.scope ≠ s := fun he => hb (hbs.trans he.symm)
        rw [if_neg hs] at ih ⊢
        rw [inScope_cons_of_eq hbs, inScope_cons_of_eq hbs, map_cons, map_cons, ih]
      · rw [inScope_cons_of_ne hbs, inScope_cons_of_ne hbs, ih]

theorem scopeConfig_modifyKey {l : AddressLifetime} {f : BitVec 32} :
    scopeConfig s (modifyKey Ip6Address.address address
      (fun b => { b with lifetime := l, ifaFlags := f }) kernel) = scopeConfig s kernel := by
  unfold scopeConfig
  induction kernel with
  | nil => rfl
  | cons b kernel ih =>
    rw [modifyKey_cons]
    have hscope : (if b.address = address then
        { b with lifetime := l, ifaFlags := f } else b : Ip6Address).scope = b.scope := by
      split_ifs <;> rfl
    have hconfig : (if b.address = address then
        { b with lifetime := l, ifaFlags := f } else b : Ip6Address).config = b.config := by
      split_ifs <;> rfl
    by_cases hb : b.scope = s
    · rw [inScope_cons_of_eq (hscope.trans hb), inScope_cons_of_eq hb, map_cons, map_cons,
        hconfig, ih]
    · rw [inScope_cons_of_ne (by rwa [hscope]), inScope_cons_of_ne hb, ih]

theorem scopeConfig_kernelDeleteIp6 :
    scopeConfig s (kernelDeleteIp6 address plen kernel) =
      (scopeConfig s kernel).filter fun c => c ≠ (address, plen) := by
  unfold scopeConfig inScope kernelDeleteIp6
  rw [filter_map, filter_filter, filter_filter]
  congr 1
  apply filter_congr
  intro a _
  simp [Ip6Address.config, and_comm, Bool.and_comm]

theorem unique_kernelAddIp6 (hu : KeyUnique Ip6Address.address kernel) :
    KeyUnique Ip6Address.address (kernelAddIp6 a kernel) := by
  unfold kernelAddIp6
  cases ho : lookup Ip6Address.address a.address kernel with
  | some o => exact hu.modifyKey fun _ => rfl
  | none =>
    have hperm : (kernelInsertIp6 a kernel).Perm (a :: kernel) := perm_kernelInsertIp6
    refine (hperm.map Ip6Address.address).nodup_iff.mpr ?_
    exact unique_cons.mpr ⟨lookup_eq_none_iff.mp ho, hu⟩

theorem scopeConfig_kernelAddIp6 :
    scopeConfig s (kernelAddIp6 a kernel) =
      if a.scope = s ∧ lookup Ip6Address.address a.address kernel = none then
        a.config :: scopeConfig s kernel
      else scopeConfig s kernel := by
  unfold kernelAddIp6
  cases lookup Ip6Address.address a.address kernel with
  | some o =>
    dsimp only
    rw [scopeConfig_modifyKey]
    exact (if_neg fun h => nomatch h.2).symm
  | none =>
    dsimp only
    rw [scopeConfig_kernelInsertIp6]
    simp

theorem mem_kernelAddIp6 (hne : b.address ≠ a.address) (hb : b ∈ kernel) :
    b ∈ kernelAddIp6 a kernel := by
  unfold kernelAddIp6
  cases lookup Ip6Address.address a.address kernel with
  | some o =>
    refine mem_map.mpr ⟨b, hb, ?_⟩
    exact if_neg hne
  | none => exact perm_kernelInsertIp6.mem_iff.mpr (mem_cons_of_mem a hb)

theorem mem_kernelDeleteIp6 (hne : b.address ≠ address) (hb : b ∈ kernel) :
    b ∈ kernelDeleteIp6 address plen kernel := by
  unfold kernelDeleteIp6
  simp [hb, hne]

/-! ## One known address -/

def syncConfig (toDelete : List Ip6Address) (l : List (BitVec 128 × ℕ)) (c : BitVec 128 × ℕ) :
    List (BitVec 128 × ℕ) :=
  if c.1 ∈ l.map Prod.fst ∧ lookup Ip6Address.address c.1 toDelete = none then l
  else c :: l.filter fun c' => c'.1 ≠ c.1

theorem mem_fst_scopeConfig :
    address ∈ (scopeConfig s as).map Prod.fst ↔ ∃ a ∈ as, a.scope = s ∧ a.address = address := by
  simp [scopeConfig, Ip6Address.config, mem_inScope, and_assoc]

theorem unique_ip6SyncKnown (hu : KeyUnique Ip6Address.address kernel) :
    KeyUnique Ip6Address.address (ip6SyncKnown now withNoprefixroute toDelete kernel (some k)) := by
  unfold ip6SyncKnown
  dsimp only
  split
  · exact unique_kernelAddIp6 hu
  · split_ifs
    · exact unique_kernelAddIp6 (hu.filter _)
    · exact hu
    · exact unique_kernelAddIp6 hu

theorem scopeConfig_ip6SyncKnown (hu : KeyUnique Ip6Address.address kernel) :
    scopeConfig s (ip6SyncKnown now withNoprefixroute toDelete kernel (some k)) =
      if k.scope = s then syncConfig toDelete (scopeConfig s kernel) k.config
      else scopeConfig s kernel := by
  have hadd : ∀ as, scopeConfig s (kernelAddIp6 (k.configured now withNoprefixroute) as) =
      if k.scope = s ∧ lookup Ip6Address.address k.address as = none then
        k.config :: scopeConfig s as else scopeConfig s as := fun as => scopeConfig_kernelAddIp6
  unfold ip6SyncKnown
  dsimp only
  cases ho : lookup Ip6Address.address k.address kernel with
  | none =>
    dsimp only
    rw [hadd, ho]
    by_cases hs : k.scope = s
    · rw [if_pos ⟨hs, rfl⟩, if_pos hs]
      have hnone : k.config.1 ∉ (scopeConfig s kernel).map Prod.fst := by
        rw [mem_fst_scopeConfig]
        rintro ⟨a, ha, _, hak⟩
        exact lookup_eq_none_iff.mp ho a ha hak
      unfold syncConfig
      rw [if_neg fun h => hnone h.1]
      congr 1
      refine (filter_eq_self.mpr fun c hc => ?_).symm
      have hne : c.1 ≠ k.config.1 := fun he => hnone (he ▸ mem_map_of_mem hc)
      simpa using hne
    · rw [if_neg fun h => hs h.1, if_neg hs]
  | some o =>
    have hok : o.address = k.address := key_of_lookup ho
    have hmem : o ∈ kernel := mem_of_lookup ho
    have hin : k.scope = s → k.config.1 ∈ (scopeConfig s kernel).map Prod.fst := fun hs =>
      mem_fst_scopeConfig.mpr ⟨o, hmem, (Ip6Address.scope_congr hok).trans hs, hok⟩
    dsimp only
    by_cases hdel : (lookup Ip6Address.address o.address toDelete).isSome
    · rw [if_pos hdel, hadd, scopeConfig_kernelDeleteIp6]
      -- no other address of the kernel has the same address
      have hothers : (scopeConfig s kernel).filter (fun c => c ≠ (o.address, o.plen)) =
          (scopeConfig s kernel).filter fun c => c.1 ≠ k.config.1 := by
        apply filter_congr
        intro c hc
        obtain ⟨a, ha, rfl⟩ := mem_map.mp hc
        refine decide_eq_decide.mpr (not_congr ⟨fun he => ?_, fun he => ?_⟩)
        · exact (congrArg Prod.fst he).trans hok
        · rw [eq_of_key_eq hu (mem_inScope.mp ha).1 hmem (he.trans hok.symm)]
          rfl
      have hgone : lookup Ip6Address.address k.address
          (kernelDeleteIp6 o.address o.plen kernel) = none := by
        refine lookup_eq_none_iff.mpr fun a ha hak => ?_
        obtain ⟨ha, hne⟩ := mem_filter.mp ha
        rw [eq_of_key_eq hu ha hmem (hak.trans hok.symm)] at hne
        simp at hne
      by_cases hs : k.scope = s
      · rw [if_pos ⟨hs, hgone⟩, if_pos hs, hothers]
        unfold syncConfig
        rw [if_neg]
        rintro ⟨_, hnone⟩
        rw [hok] at hdel
        exact Option.isSome_iff_ne_none.mp hdel hnone
      · rw [if_neg fun h => hs h.1, if_neg hs]
        refine filter_eq_self.mpr fun c hc => ?_
        obtain ⟨a, ha, rfl⟩ := mem_map.mp hc
        simp only [decide_eq_true_eq]
        intro he
        have hao : a.address = k.address := (congrArg Prod.fst he).trans hok
        exact hs ((Ip6Address.scope_congr hao).symm.trans (mem_inScope.mp ha).2)
    · rw [if_neg hdel]
      have hkeep : (if k.scope = s then syncConfig toDelete (scopeConfig s kernel) k.config
          else scopeConfig s kernel) = scopeConfig s kernel := by
        split_ifs with hs
        · unfold syncConfig
          rw [hok, Option.not_isSome_iff_eq_none] at hdel
          exact if_pos ⟨hin hs, hdel⟩
        · rfl
      rw [hkeep]
      split_ifs
      · rfl
      · rw [hadd, ho]
        exact if_neg fun h => nomatch h.2

/-! ## The loop over the known addresses -/

theorem scopeConfig_foldl_ip6SyncKnown (hu : KeyUnique Ip6Address.address kernel) :
    scopeConfig s (as.foldl (fun kernel k =>
      ip6SyncKnown now withNoprefixroute toDelete kernel (some k)) kernel) =
      (scopeConfig s as).foldl (syncConfig toDelete) (scopeConfig s kernel) := by
  induction as generalizing kernel with
  | nil => rfl
  | cons k as ih =>
    rw [foldl_cons, ih (unique_ip6SyncKnown hu), scopeConfig_ip6SyncKnown hu]
    unfold scopeConfig
    split_ifs with hs
    · rw [inScope_cons_of_eq hs, map_cons, foldl_cons]
    · rw [inScope_cons_of_ne hs]

variable {l kept added : List (BitVec 128 × ℕ)}

theorem foldl_syncConfig_kept (h : ∀ c ∈ kept, c.1 ∈ l.map Prod.fst ∧
    lookup Ip6Address.address c.1 toDelete = none) : kept.foldl (syncConfig toDelete) l = l := by
  induction kept with
  | nil => rfl
  | cons c kept ih =>
    rw [foldl_cons]
    have hc : syncConfig toDelete l c = l := if_pos (h c mem_cons_self)
    rw [hc]
    exact ih fun c hc => h c (mem_cons_of_mem _ hc)

theorem foldl_syncConfig_added (hu : KeyUnique Prod.fst added)
    (h : ∀ c ∈ added, c.1 ∈ l.map Prod.fst → lookup Ip6Address.address c.1 toDelete ≠ none) :
    added.reverse.foldl (syncConfig toDelete) l =
      added ++ l.filter fun c => c.1 ∉ added.map Prod.fst := by
  induction added with
  | nil => simp
  | cons c added ih =>
    obtain ⟨hfresh, hu⟩ := unique_cons.mp hu
    have ih' := ih hu fun c hc => h c (mem_cons_of_mem _ hc)
    rw [reverse_cons, foldl_append, ih', foldl_cons, foldl_nil]
    unfold syncConfig
    rw [if_neg]
    · rw [filter_append, filter_filter, cons_append]
      congr 2
      · exact filter_eq_self.mpr fun d hd => by simpa using hfresh d hd
      · apply filter_congr
        intro d _
        rw [← Bool.decide_and]
        exact decide_eq_decide.mpr (by rw [map_cons, mem_cons, not_or])
    · rintro ⟨hmem, hnone⟩
      refine h c mem_cons_self ?_ hnone
      rw [map_append, mem_append] at hmem
      rcases hmem with hmem | hmem
      · obtain ⟨d, hd, hdc⟩ := mem_map.mp hmem
        exact absurd hdc (hfresh d hd)
      · obtain ⟨d, hd, hdc⟩ := mem_map.mp hmem
        rw [← hdc]
        exact mem_map_of_mem (mem_filter.mp hd).1

/-! ## The prefix lengths -/

def plenMismatch (idx : List Ip6Address) (a : Ip6Address) : Bool :=
  (lookup Ip6Address.address a.address idx).any fun k => a.plen ≠ k.plen

def plenMatch (idx : List Ip6Address) (a : Ip6Address) : Bool :=
  (lookup Ip6Address.address a.address idx).any fun k => a.plen = k.plen

theorem exists_of_plenMatch (h : plenMatch idx a) :
    ∃ k, lookup Ip6Address.address a.address idx = some k ∧ a.plen = k.plen := by
  unfold plenMatch at h
  cases hk : lookup Ip6Address.address a.address idx with
  | none =>
    rw [hk] at h
    cases h
  | some k =>
    rw [hk] at h
    exact ⟨k, rfl, by simpa using h⟩

theorem fst_ip6CheckPlen :
    (ip6CheckPlen idx as kernel).1 = kernel.filter fun b =>
      ¬ ∃ a ∈ as, plenMismatch idx a ∧ b.address = a.address ∧ b.plen = a.plen := by
  induction as generalizing kernel with
  | nil => simp [ip6CheckPlen]
  | cons a as ih =>
    unfold ip6CheckPlen
    cases ho : lookup Ip6Address.address a.address idx with
    | none =>
      dsimp only
      rw [ih]
      simp [plenMismatch, ho]
    | some k =>
      dsimp only
      split_ifs with hne
      · rw [ih]
        unfold kernelDeleteIp6
        rw [filter_filter]
        apply filter_congr
        intro b _
        have ha : plenMismatch idx a = true := by simpa [plenMismatch, ho] using hne
        simp [ha, not_or, and_comm, Bool.and_comm]
      · rw [ih]
        simp only [not_not] at hne
        simp [plenMismatch, ho, hne]

theorem snd_ip6CheckPlen : ip6KnownIdx (ip6CheckPlen idx as kernel).2 = as.filter (plenMatch idx) := by
  induction as generalizing kernel with
  | nil => rfl
  | cons a as ih =>
    unfold ip6CheckPlen
    cases ho : lookup Ip6Address.address a.address idx with
    | none =>
      have ha : plenMatch idx a = false := by simp [plenMatch, ho]
      rw [filter_cons_of_neg (by simp [ha])]
      exact ih
    | some k =>
      dsimp only
      split_ifs with hne
      · have ha : plenMatch idx a = false := by simpa [plenMatch, ho] using hne
        rw [filter_cons_of_neg (by simp [ha])]
        exact ih
      · have ha : plenMatch idx a = true := by simpa [plenMatch, ho] using hne
        rw [filter_cons_of_pos ha]
        exact congrArg (List.cons a) ih

/-! ## The whole sync -/

def ip6Wanted (now : ℕ) (knownAddresses : List Ip6Address) : List Ip6Address :=
  knownAddresses.filter fun a => ¬ (a.temporary ∨ a.lifetime.expired now)

theorem ip6KnownIdx_cleanExpired : ip6KnownIdx (ip6CleanExpired now as) = ip6Wanted now as := by
  unfold ip6KnownIdx ip6CleanExpired ip6Wanted
  rw [filterMap_map]
  induction as with
  | nil => rfl
  | cons a as ih =>
    by_cases ha : a.temporary ∨ a.lifetime.expired now
    · rw [filter_cons_of_neg (by simp only [decide_eq_true_eq, not_not]; exact ha), ← ih]
      exact filterMap_cons_none (if_pos ha)
    · rw [filter_cons_of_pos (by simp only [decide_eq_true_eq]; exact ha), ← ih]
      exact filterMap_cons_some (if_neg ha)

theorem scopeCmp_total : Std.Total Ip6AddressScopeCmpDescending :=
  ⟨fun a b => Nat.le_total b.scope.toNat a.scope.toNat⟩

theorem scopeCmp_trans : IsTrans Ip6Address Ip6AddressScopeCmpDescending :=
  ⟨fun _ _ _ hab hbc => Nat.le_trans hbc hab⟩

theorem pairwise_ip6SortByScope : (ip6SortByScope as).Pairwise Ip6AddressScopeCmpDescending :=
  have := scopeCmp_total
  have := scopeCmp_trans
  pairwise_insertionSort _ as

theorem perm_ip6SortByScope : (ip6SortByScope as).Perm as := perm_insertionSort _ as

theorem inScope_ip6SortByScope : inScope s (ip6SortByScope as) = inScope s as := by
  have := scopeCmp_total
  have := scopeCmp_trans
  refine filter_insertionSort fun a b ha hb => ?_
  simp only [decide_eq_true_eq] at ha hb
  unfold Ip6AddressScopeCmpDescending
  rw [ha, hb]

theorem inScope_filter {p : Ip6Address → Bool} :
    inScope s (as.filter p) = (inScope s as).filter p := by
  unfold inScope
  rw [filter_comm]

theorem scopeConfig_reverse : scopeConfig s as.reverse = (scopeConfig s as).reverse := by
  unfold scopeConfig
  rw [inScope_reverse, map_reverse]

theorem map_config_of_plenMatch {ms ms' : List Ip6Address}
    (h : ms.map Ip6Address.address = ms'.map Ip6Address.address)
    (hms : ∀ a ∈ ms, plenMatch idx a) (hms' : ∀ a ∈ ms', plenMatch idx a) :
    ms.map Ip6Address.config = ms'.map Ip6Address.config := by
  let f : BitVec 128 → BitVec 128 × ℕ := fun address =>
    (address, ((lookup Ip6Address.address address idx).map Ip6Address.plen).getD 0)
  have hf : ∀ {l : List Ip6Address}, (∀ a ∈ l, plenMatch idx a) →
      l.map Ip6Address.config = (l.map Ip6Address.address).map f := by
    intro l hl
    rw [map_map]
    apply map_congr_left
    intro a ha
    obtain ⟨k, hk, hplen⟩ := exists_of_plenMatch (hl a ha)
    simp [f, hk, Ip6Address.config, hplen]
  rw [hf hms, hf hms', h]

/-- The addresses of a scope after the loop over the known addresses: the known ones among
them are in their order. -/
theorem scopeConfig_sync {known plat : List (Option Ip6Address)}
    (hsorted : (ip6KnownIdx known).Pairwise Ip6AddressScopeCmpDescending)
    (hplat : (ip6KnownIdx plat).Pairwise Ip6AddressScopeCmpDescending)
    (hu : KeyUnique Ip6Address.address (ip6KnownIdx known))
    (hpu : KeyUnique Ip6Address.address (ip6KnownIdx plat))
    (hk : KeyUnique Ip6Address.address kernel)
    (hplatIn : inScope s (ip6KnownIdx plat) = (inScope s kernel).filter fun a =>
      (lookup Ip6Address.address a.address (ip6KnownIdx known)).isSome)
    (hmatch : ∀ a ∈ ip6KnownIdx plat, plenMatch (ip6KnownIdx known) a) :
    (scopeConfig s (known.reverse.foldl
      (ip6SyncKnown now withNoprefixroute (ip6AddrsToDelete known plat)) kernel)).filter
        (fun c => (lookup Ip6Address.address c.1 (ip6KnownIdx known)).isSome) =
      scopeConfig s (ip6KnownIdx known) := by
  have hmem : ∀ a ∈ ip6KnownIdx plat, ∃ k ∈ ip6KnownIdx known, k.address = a.address := by
    intro a ha
    obtain ⟨k, hlook, _⟩ := exists_of_plenMatch (hmatch a ha)
    exact ⟨k, mem_of_lookup hlook, key_of_lookup hlook⟩
  rw [foldl_skip_none fun _ => rfl, ip6KnownIdx_reverse, scopeConfig_foldl_ip6SyncKnown hk]
  obtain ⟨d, matched, rest, m, hp, hW, hm, hdel⟩ := ip6AddrsToDelete_cut hsorted hplat hpu hmem s
  generalize ip6AddrsToDelete known plat = toDelete at hdel ⊢
  have huW : KeyUnique Ip6Address.address (rest ++ m) := by
    rw [← hW]
    exact hu.filter _
  have huP : KeyUnique Ip6Address.address (d ++ matched) := by
    rw [← hp]
    exact hpu.filter _
  have hdisW : ∀ k ∈ rest, ∀ k' ∈ m, k.address ≠ k'.address := fun k hk k' hk' =>
    (nodup_append.mp (by simpa [KeyUnique] using huW)).2.2 _ (mem_map_of_mem hk) _
      (mem_map_of_mem hk')
  have hdisP : ∀ a ∈ d, ∀ a' ∈ matched, a.address ≠ a'.address := fun a ha a' ha' =>
    (nodup_append.mp (by simpa [KeyUnique] using huP)).2.2 _ (mem_map_of_mem ha) _
      (mem_map_of_mem ha')
  -- the matched addresses and their known counterparts
  have hofMatched : ∀ a ∈ matched, ∃ k ∈ m, k.address = a.address := by
    intro a ha
    have hin : a.address ∈ m.map Ip6Address.address := hm ▸ mem_map_of_mem ha
    exact mem_map.mp hin
  have hofM : ∀ k ∈ m, ∃ a ∈ matched, a.address = k.address := by
    intro k hk
    have hin : k.address ∈ matched.map Ip6Address.address := hm ▸ mem_map_of_mem hk
    exact mem_map.mp hin
  have hinP : ∀ a ∈ d ++ matched, a ∈ kernel ∧ a.scope = s ∧ a ∈ ip6KnownIdx plat := by
    intro a ha
    rw [← hp] at ha
    have ha' := ha
    rw [hplatIn] at ha'
    have hks := mem_inScope.mp (mem_filter.mp ha').1
    exact ⟨hks.1, hks.2, (mem_inScope.mp ha).1⟩
  have hkmatch : ∀ k ∈ m, plenMatch (ip6KnownIdx known) k := by
    intro k hk
    have hkW : k ∈ inScope s (ip6KnownIdx known) := by rw [hW]; exact mem_append_right _ hk
    unfold plenMatch
    rw [lookup_of_mem hu (mem_inScope.mp hkW).1]
    exact decide_eq_true rfl
  have hconfig : m.map Ip6Address.config = matched.map Ip6Address.config :=
    map_config_of_plenMatch hm hkmatch fun a ha =>
      hmatch a (hinP a (mem_append_right _ ha)).2.2
  have hwanted : scopeConfig s (ip6KnownIdx known) =
      rest.map Ip6Address.config ++ m.map Ip6Address.config := by
    unfold scopeConfig
    rw [hW, map_append]
  have hnone : ∀ k ∈ m, lookup Ip6Address.address k.address toDelete = none := by
    refine fun k hk => lookup_eq_none_iff.mpr fun x hx hxk => ?_
    obtain ⟨a, ha, hak⟩ := hofM k hk
    have hxa : x.address = a.address := hxk.trans hak.symm
    have hxs : x.scope = s :=
      (Ip6Address.scope_congr hxa).trans (hinP a (mem_append_right _ ha)).2.1
    exact hdisP x ((hdel x hxs).mp hx) a ha hxa
  have hkept : ∀ c ∈ (m.map Ip6Address.config).reverse,
      c.1 ∈ (scopeConfig s kernel).map Prod.fst ∧
        lookup Ip6Address.address c.1 toDelete = none := by
    intro c hc
    obtain ⟨k, hk, rfl⟩ := mem_map.mp (mem_reverse.mp hc)
    obtain ⟨a, ha, hak⟩ := hofM k hk
    have haP := hinP a (mem_append_right _ ha)
    exact ⟨mem_fst_scopeConfig.mpr ⟨a, haP.1, haP.2.1, hak⟩, hnone k hk⟩
  -- a known address that was not matched is added, and deleted before if it is there
  have hadded : ∀ c ∈ rest.map Ip6Address.config, c.1 ∈ (scopeConfig s kernel).map Prod.fst →
      lookup Ip6Address.address c.1 toDelete ≠ none := by
    intro c hc hin
    obtain ⟨k, hk, rfl⟩ := mem_map.mp hc
    obtain ⟨a, ha, has, hak⟩ := mem_fst_scopeConfig.mp hin
    have hkW : k ∈ inScope s (ip6KnownIdx known) := by rw [hW]; exact mem_append_left _ hk
    have haP : a ∈ d ++ matched := by
      rw [← hp, hplatIn]
      refine mem_filter.mpr ⟨mem_inScope.mpr ⟨ha, has⟩, lookup_isSome_iff.mpr ?_⟩
      exact ⟨k, (mem_inScope.mp hkW).1, hak.symm⟩
    rcases mem_append.mp haP with had | hamatched
    · intro hnot
      exact lookup_eq_none_iff.mp hnot a ((hdel a has).mpr had) hak
    · obtain ⟨k', hk', hk'a⟩ := hofMatched a hamatched
      exact absurd (hk'a.trans hak).symm (hdisW k hk k' hk')
  have huRest : KeyUnique Prod.fst (rest.map Ip6Address.config) := by
    have hfst : (rest.map Ip6Address.config).map Prod.fst = rest.map Ip6Address.address := by
      rw [map_map]
      rfl
    unfold KeyUnique
    rw [hfst]
    exact huW.sublist (sublist_append_left _ _)
  rw [scopeConfig_reverse, hwanted, reverse_append, foldl_append,
    foldl_syncConfig_kept hkept, foldl_syncConfig_added huRest hadded, filter_append,
    hconfig]
  congr 1
  · -- all of the added addresses are known
    refine filter_eq_self.mpr fun c hc => ?_
    obtain ⟨k, hk, rfl⟩ := mem_map.mp hc
    have hkW : k ∈ inScope s (ip6KnownIdx known) := by rw [hW]; exact mem_append_left _ hk
    exact lookup_isSome_iff.mpr ⟨k, (mem_inScope.mp hkW).1, rfl⟩
  · -- of the others, those that are known were matched
    have hknown : (scopeConfig s kernel).filter
        (fun c => (lookup Ip6Address.address c.1 (ip6KnownIdx known)).isSome) =
        d.map Ip6Address.config ++ matched.map Ip6Address.config := by
      rw [← map_append, ← hp, hplatIn]
      exact filter_map
    rw [filter_comm, hknown, filter_append]
    have hd : (d.map Ip6Address.config).filter
        (fun c => c.1 ∉ (rest.map Ip6Address.config).map Prod.fst) = [] := by
      refine filter_eq_nil_iff.mpr fun c hc => ?_
      obtain ⟨a, ha, rfl⟩ := mem_map.mp hc
      have haP := hinP a (mem_append_left _ ha)
      obtain ⟨k, hk, hka⟩ := hmem a haP.2.2
      have hkW : k ∈ rest ++ m := by
        rw [← hW]
        exact mem_inScope.mpr ⟨hk, (Ip6Address.scope_congr hka).trans haP.2.1⟩
      rcases mem_append.mp hkW with hkrest | hkm
      · simp only [decide_eq_true_eq, not_not]
        exact mem_map.mpr ⟨k.config, mem_map_of_mem hkrest, hka⟩
      · obtain ⟨a', ha', ha'k⟩ := hofM k hkm
        exact absurd (ha'k.trans hka).symm (hdisP a ha a' ha')
    rw [hd, nil_append]
    refine filter_eq_self.mpr fun c hc => ?_
    obtain ⟨a, ha, rfl⟩ := mem_map.mp hc
    obtain ⟨k', hk', hk'a⟩ := hofMatched a ha
    simp only [decide_eq_true_eq, map_map, mem_map, Function.comp_apply, not_exists, not_and]
    exact fun k hk hka => hdisW k hk k' hk' (hka.trans hk'a.symm)

theorem plenMatch_eq : plenMatch idx a =
    ((lookup Ip6Address.address a.address idx).isSome && !plenMismatch idx a) := by
  unfold plenMatch plenMismatch
  cases lookup Ip6Address.address a.address idx with
  | none => rfl
  | some k => simp

theorem plenMismatch_congr (haddr : a.address = b.address) (hplen : a.plen = b.plen) :
    plenMismatch idx a = plenMismatch idx b := by
  unfold plenMismatch
  rw [haddr, hplen]

theorem inScope_checkPlen :
    inScope s (ip6KnownIdx (ip6CheckPlen idx (ip6SortByScope kernel) kernel).2) =
      (inScope s (ip6CheckPlen idx (ip6SortByScope kernel) kernel).1).filter fun a =>
        (lookup Ip6Address.address a.address idx).isSome := by
  rw [snd_ip6CheckPlen, fst_ip6CheckPlen, inScope_filter, inScope_filter, inScope_ip6SortByScope,
    filter_filter]
  apply filter_congr
  intro a ha
  have hmem : a ∈ ip6SortByScope kernel := perm_ip6SortByScope.mem_iff.mpr (mem_inScope.mp ha).1
  have hdeleted : (∃ b ∈ ip6SortByScope kernel,
      plenMismatch idx b ∧ a.address = b.address ∧ a.plen = b.plen) ↔ plenMismatch idx a := by
    constructor
    · rintro ⟨b, _, hb, haddr, hplen⟩
      rw [plenMismatch_congr haddr hplen]
      exact hb
    · exact fun h => ⟨a, hmem, h, rfl, rfl⟩
  rw [plenMatch_eq, Bool.eq_iff_iff, Bool.and_eq_true, Bool.and_eq_true, decide_eq_true_eq, hdeleted]
  simp

theorem unique_ip6Prune (hu : KeyUnique Ip6Address.address kernel) :
    KeyUnique Ip6Address.address (ip6Prune idx prune kernel) := by
  refine foldl_invariant (fun kernel p h => ?_) hu prune
  split_ifs
  · exact h
  · exact h.filter _

/-! ## External addresses -/

theorem mem_ip6Prune (hprune : ∀ p ∈ prune, p.address ≠ b.address) (hb : b ∈ kernel) :
    b ∈ ip6Prune idx prune kernel := by
  unfold ip6Prune
  induction prune generalizing kernel with
  | nil => exact hb
  | cons p prune ih =>
    rw [foldl_cons]
    have hrest : ∀ q ∈ prune, q.address ≠ b.address := fun q hq => hprune q (mem_cons_of_mem p hq)
    split_ifs
    · exact ih hrest hb
    · exact ih hrest (mem_kernelDeleteIp6 (hprune p mem_cons_self).symm hb)

theorem mem_ip6CheckPlen (hidx : lookup Ip6Address.address b.address idx = none) (hb : b ∈ kernel) :
    b ∈ (ip6CheckPlen idx as kernel).1 := by
  rw [fst_ip6CheckPlen]
  refine mem_filter.mpr ⟨hb, decide_eq_true ?_⟩
  rintro ⟨a, _, hmis, haddr, _⟩
  unfold plenMismatch at hmis
  rw [← haddr, hidx] at hmis
  cases hmis

theorem mem_ip6SyncKnown (hne : b.address ≠ k.address) (hb : b ∈ kernel) :
    b ∈ ip6SyncKnown now withNoprefixroute toDelete kernel (some k) := by
  have hadd : ∀ as, b ∈ as → b ∈ kernelAddIp6 (k.configured now withNoprefixroute) as :=
    fun as => mem_kernelAddIp6 hne
  unfold ip6SyncKnown
  dsimp only
  cases ho : lookup Ip6Address.address k.address kernel with
  | none => exact hadd kernel hb
  | some o =>
    have hbo : b.address ≠ o.address := by
      rw [key_of_lookup ho]
      exact hne
    dsimp only
    split_ifs
    · exact hadd _ (mem_kernelDeleteIp6 hbo hb)
    · exact hb
    · exact hadd kernel hb

theorem mem_foldl_ip6SyncKnown (hne : ∀ k ∈ as, b.address ≠ k.address) (hb : b ∈ kernel) :
    b ∈ as.foldl (fun kernel k =>
      ip6SyncKnown now withNoprefixroute toDelete kernel (some k)) kernel := by
  induction as generalizing kernel with
  | nil => exact hb
  | cons k as ih =>
    exact ih (fun k hk => hne k (mem_cons_of_mem _ hk))
      (mem_ip6SyncKnown (hne k mem_cons_self) hb)

theorem mem_ip6AddressSync {known : List Ip6Address}
    (hknown : ∀ k ∈ ip6Wanted now known, k.address ≠ b.address)
    (hprune : ∀ p ∈ prune, p.address ≠ b.address) (hb : b ∈ kernel) :
    b ∈ ip6AddressSync now withNoprefixroute known prune kernel := by
  unfold ip6AddressSync
  dsimp only
  rw [foldl_skip_none fun _ => rfl, ip6KnownIdx_reverse, ip6KnownIdx_cleanExpired]
  have hidx : ∀ k ∈ ip6Wanted now (ip6SortByScope known), k.address ≠ b.address := by
    intro k hk
    obtain ⟨hk, halive⟩ := mem_filter.mp hk
    exact hknown k (mem_filter.mpr ⟨perm_ip6SortByScope.mem_iff.mp hk, halive⟩)
  refine mem_foldl_ip6SyncKnown (fun k hk => (hidx k (mem_reverse.mp hk)).symm) ?_
  exact mem_ip6CheckPlen (lookup_eq_none_iff.mpr hidx) (mem_ip6Prune hprune hb)

/-! ## The result -/

theorem scopeConfig_ip6AddressSync {known : List Ip6Address}
    (hu : KeyUnique Ip6Address.address known) (hk : KeyUnique Ip6Address.address kernel) :
    (scopeConfig s (ip6AddressSync now withNoprefixroute known prune kernel)).filter
        (fun c => (lookup Ip6Address.address c.1 (ip6Wanted now known)).isSome) =
      scopeConfig s (ip6Wanted now known) := by
  have hperm : (ip6Wanted now (ip6SortByScope known)).Perm (ip6Wanted now known) :=
    perm_ip6SortByScope.filter _
  have hidx : ∀ address, (lookup Ip6Address.address address (ip6Wanted now known)).isSome =
      (lookup Ip6Address.address address (ip6Wanted now (ip6SortByScope known))).isSome := by
    intro address
    rw [Bool.eq_iff_iff, lookup_isSome_iff, lookup_isSome_iff]
    exact exists_congr fun k => and_congr_left fun _ => hperm.mem_iff.symm
  have hscope : scopeConfig s (ip6Wanted now known) =
      scopeConfig s (ip6Wanted now (ip6SortByScope known)) := by
    unfold scopeConfig ip6Wanted
    rw [inScope_filter, inScope_filter, inScope_ip6SortByScope]
  simp only [hidx, hscope]
  unfold ip6AddressSync
  dsimp only
  have hclean : ip6KnownIdx (ip6CleanExpired now (ip6SortByScope known)) =
      ip6Wanted now (ip6SortByScope known) := ip6KnownIdx_cleanExpired
  have hk0 : KeyUnique Ip6Address.address
      (ip6Prune (ip6KnownIdx (ip6CleanExpired now (ip6SortByScope known))) prune kernel) :=
    unique_ip6Prune hk
  rw [← hclean]
  refine scopeConfig_sync ?_ ?_ ?_ ?_ ?_ inScope_checkPlen ?_
  · rw [hclean]
    exact pairwise_ip6SortByScope.filter _
  · rw [snd_ip6CheckPlen]
    exact pairwise_ip6SortByScope.filter _
  · rw [hclean]
    exact (hperm.map Ip6Address.address).nodup_iff.mpr (hu.filter _)
  · rw [snd_ip6CheckPlen]
    exact KeyUnique.filter ((perm_ip6SortByScope.map Ip6Address.address).nodup_iff.mpr hk0) _
  · rw [fst_ip6CheckPlen]
    exact hk0.filter _
  · intro a ha
    rw [snd_ip6CheckPlen] at ha
    exact (mem_filter.mp ha).2

/-- The known addresses that are neither expired nor temporary are configured with their
prefix lengths, in every scope in the order of the known addresses, and addresses that
are neither known nor to be pruned stay. -/
theorem ip6_address_sync_order (now : ℕ) (withNoprefixroute : Bool)
    (knownAddresses prune kernel : List Ip6Address)
    (hu : KeyUnique Ip6Address.address knownAddresses)
    (hk : KeyUnique Ip6Address.address kernel) :
    let known := ip6Wanted now knownAddresses
    let synced := ip6AddressSync now withNoprefixroute knownAddresses prune kernel
    (∀ k ∈ known, ∃ b ∈ synced, b.address = k.address ∧ b.plen = k.plen) ∧
      (∀ s, ((inScope s synced).map Ip6Address.address).filter
          (fun address => (lookup Ip6Address.address address known).isSome) =
        (inScope s known).map Ip6Address.address) ∧
      ∀ b ∈ kernel, (∀ k ∈ known, k.address ≠ b.address) →
        (∀ p ∈ prune, p.address ≠ b.address) → b ∈ synced := by
  have horder : ∀ s, (scopeConfig s
      (ip6AddressSync now withNoprefixroute knownAddresses prune kernel)).filter
        (fun c => (lookup Ip6Address.address c.1 (ip6Wanted now knownAddresses)).isSome) =
      scopeConfig s (ip6Wanted now knownAddresses) := fun s => scopeConfig_ip6AddressSync hu hk
  refine ⟨fun k hk => ?_, fun s => ?_, fun b hb hknown hprune =>
    mem_ip6AddressSync hknown hprune hb⟩
  · have hin : k.config ∈ scopeConfig k.scope (ip6Wanted now knownAddresses) :=
      mem_map_of_mem (mem_inScope.mpr ⟨hk, rfl⟩)
    rw [← horder k.scope] at hin
    obtain ⟨b, hb, hbk⟩ := mem_map.mp (mem_filter.mp hin).1
    exact ⟨b, (mem_inScope.mp hb).1, congrArg Prod.fst hbk, congrArg Prod.snd hbk⟩
  · have hfst := congrArg (List.map Prod.fst) (horder s)
    unfold scopeConfig at hfst
    rw [map_map, filter_map, map_map] at hfst
    rw [filter_map]
    exact hfst

/-- The host `n` of 2001:db8::/64, with a permanent lifetime. -/
def exampleIp6Address (n : ℕ) : Ip6Address where
  address := BitVec.ofNat 128 (0x20010DB8000000000000000000000000 + n)
  peerAddress := 0
  plen := 64
  lifetime := ⟨0, 0, 0⟩
  ifaFlags := 0

/-- The addresses 1 and 2 swap their places, and the external address 3 is not touched. -/
theorem ip6_address_sync_swaps :
    let known := [exampleIp6Address 1, exampleIp6Address 2]
    let kernel := [exampleIp6Address 2, exampleIp6Address 3, exampleIp6Address 1]
    let synced := ip6AddressSync 1 false known [] kernel
    (∀ s, ((inScope s synced).map Ip6Address.address).filter
        (fun address => (lookup Ip6Address.address address (ip6Wanted 1 known)).isSome) =
      (inScope s (ip6Wanted 1 known)).map Ip6Address.address) ∧ exampleIp6Address 3 ∈ synced := by
  have hsync := ip6_address_sync_order 1 false [exampleIp6Address 1, exampleIp6Address 2] []
    [exampleIp6Address 2, exampleIp6Address 3, exampleIp6Address 1]
    (by unfold KeyUnique; decide +kernel) (by unfold KeyUnique; decide +kernel)
  exact ⟨hsync.2.1, hsync.2.2 _ (by decide +kernel) (by decide +kernel) nofun⟩

end NetworkManager.Platform
