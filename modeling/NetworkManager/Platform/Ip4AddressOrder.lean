import NetworkManager.Platform.Ip4AddressPlan
import NetworkManager.Platform.Ip4AddressRun

/-!
# Presence and order of the IPv4 addresses after a sync

After a sync every known address is configured, and the first known address of a
subnet is its primary address, with one exception. When the kernel does not promote
secondary addresses, a known address that is the primary address of its subnet stays
the primary address, and the known addresses that the source adds before it are lost.
-/

namespace NetworkManager.Platform

open Lib
open List hiding lookup_isSome_iff

/-- Every known address is configured, and of the addresses of a subnet exactly the first
known one is primary. -/
def Ip4Synced (known kernel : List Ip4Address) : Prop :=
  (∀ k ∈ known, ∃ b ∈ kernel, b.id = k.id) ∧
    ∀ b ∈ kernel, ∀ f, firstKnown known b.subnet = some f → (b.secondary = false ↔ b.id = f.id)

variable {s : Ip4Subnet} {a f : Ip4Address} {as ks kernel known prune toDelete : List Ip4Address}
  {mode : PromoteSecondaries}

/-! ## Pruning -/

theorem ip4KernelOk_ip4Prune (h : Ip4KernelOk kernel) :
    Ip4KernelOk (ip4Prune mode known prune kernel) := by
  unfold ip4Prune
  induction prune generalizing kernel with
  | nil => exact h
  | cons p prune ih =>
    rw [foldl_cons]
    split_ifs
    · exact ih h
    · exact ih (h.delete p.id)

theorem mem_ip4Prune (h : a ∈ ip4Prune mode known prune kernel) :
    (∃ b ∈ kernel, b.id = a.id) ∧
      ((lookup Ip4Address.id a.id known).isSome ∨ ∀ p ∈ prune, p.id ≠ a.id) := by
  unfold ip4Prune at h
  induction prune generalizing kernel with
  | nil => exact ⟨⟨a, h, rfl⟩, Or.inr nofun⟩
  | cons p prune ih =>
    rw [foldl_cons] at h
    split_ifs at h with hk
    · obtain ⟨hmem, hor⟩ := ih h
      refine ⟨hmem, ?_⟩
      by_cases hp : p.id = a.id
      · exact Or.inl (hp ▸ hk)
      · exact hor.imp_right fun hall => forall_mem_cons.mpr ⟨hp, hall⟩
    · obtain ⟨⟨b, hb, hba⟩, hor⟩ := ih h
      obtain ⟨hne, c, hc, hcb⟩ := mem_kernelDeleteIp4 hb
      rw [hba] at hne hcb
      exact ⟨⟨c, hc, hcb⟩, hor.imp_right fun hall => forall_mem_cons.mpr ⟨hne.symm, hall⟩⟩

theorem sublist_ip4Prune_deleteAll : (ip4Prune .deleteAll known prune kernel).Sublist kernel := by
  unfold ip4Prune
  induction prune generalizing kernel with
  | nil => exact List.Sublist.refl kernel
  | cons p prune ih =>
    rw [foldl_cons]
    split_ifs
    · exact ih
    · exact ih.trans sublist_kernelDeleteIp4_deleteAll

theorem mem_ip4Prune_deleteAll (hp : a.secondary = false)
    (hk : (lookup Ip4Address.id a.id known).isSome) :
    a ∈ ip4Prune .deleteAll known prune kernel ↔ a ∈ kernel := by
  unfold ip4Prune
  induction prune generalizing kernel with
  | nil => exact Iff.rfl
  | cons p prune ih =>
    rw [foldl_cons]
    split_ifs with hpk
    · exact ih
    · have hne : a.id ≠ p.id := fun he => hpk (he ▸ hk)
      exact ih.trans (mem_kernelDeleteIp4_deleteAll hp hne)

/-! ## One subnet -/

theorem Ip4KernelOk.perm (h : Ip4KernelOk kernel) (hperm : as.Perm kernel) : Ip4KernelOk as := by
  refine ⟨(hperm.map Ip4Address.id).nodup_iff.mpr h.unique, fun s => ?_⟩
  have hsub : (inSubnet s as).Perm (inSubnet s kernel) := hperm.filter _
  rcases h.onePrimary s with hnil | ⟨p, hp⟩
  · left
    rw [hnil] at hsub
    exact hsub.eq_nil
  · right
    have hprim : (primaries (inSubnet s as)).Perm (primaries (inSubnet s kernel)) := hsub.filter _
    rw [hp] at hprim
    exact ⟨p, perm_singleton.mp hprim⟩

theorem subnet_sync_ordered (now : ℕ) (hok : KeyUnique Ip4Address.id kernel)
    (hone : OnePrimary kernel) (hs : ∀ b ∈ kernel, b.subnet = s)
    (hks : ∀ c ∈ f :: ks, c.subnet = s)
    (hkept : ∀ c ∈ f :: ks, lookup Ip4Address.id c.id toDelete = none)
    (hfirst : ∀ p ∈ kernel, p.secondary = false → f.id = p.id) :
    PrimaryIs f.id ((f :: ks).foldl (ip4SyncKnown mode now toDelete) kernel) ∧
      ∀ c ∈ f :: ks, ∃ b ∈ (f :: ks).foldl (ip4SyncKnown mode now toDelete) kernel,
        b.id = c.id := by
  by_cases hnil : kernel = []
  · subst hnil
    rw [foldl_cons]
    have hp : PrimaryIs f.id (ip4SyncKnown mode now toDelete [] f) := primaryIs_ip4SyncKnown_nil
    have hrun := hp.foldl_kept mode now
      (subnet_ip4SyncKnown hs (hks f mem_cons_self))
      (fun c hc => hks c (mem_cons_of_mem f hc))
      fun c hc => hkept c (mem_cons_of_mem f hc)
    refine ⟨hrun.1, fun c hc => (hrun.2 c.id).mpr ?_⟩
    rcases mem_cons.mp hc with rfl | hc
    · exact Or.inr hp.exists_id
    · exact Or.inl ⟨c, hc, rfl⟩
  · obtain ⟨b, bs, hb⟩ := exists_cons_of_ne_nil hnil
    obtain ⟨p, hpmem, hpp⟩ := hone.exists (a := b) (by simp [hb])
    have hp : PrimaryIs f.id kernel := by
      rw [hfirst p hpmem hpp]
      exact primaryIs_of_onePrimary hok hone hpmem hpp
    have hrun := hp.foldl_kept mode now hs hks hkept
    exact ⟨hrun.1, fun c hc => (hrun.2 c.id).mpr (Or.inl ⟨c, hc, rfl⟩)⟩

theorem subnet_sync (now : ℕ) (hok : KeyUnique Ip4Address.id kernel) (hone : OnePrimary kernel)
    (hu : KeyUnique Ip4Address.id (f :: ks)) (hs : ∀ b ∈ kernel, b.subnet = s)
    (hks : ∀ c ∈ f :: ks, c.subnet = s) (hknown : ∀ b ∈ kernel, ∃ c ∈ f :: ks, c.id = b.id)
    (hdel : ∀ c ∈ f :: ks, (lookup Ip4Address.id c.id toDelete).isSome ↔
      (∃ b ∈ kernel, b.id = c.id) ∧ ∃ p ∈ kernel, p.secondary = false ∧ f.id ≠ p.id) :
    let synced := (f :: ks).foldl (ip4SyncKnown mode now toDelete) kernel
    (mode = .promote ∨ ∀ p ∈ kernel, p.secondary = false → f.id = p.id) ∧
        PrimaryIs f.id synced ∧ (∀ c ∈ f :: ks, ∃ b ∈ synced, b.id = c.id) ∨
      mode = .deleteAll ∧
        ∃ p ∈ kernel, p.secondary = false ∧ f.id ≠ p.id ∧ PrimaryIs p.id synced := by
  by_cases hfirst : ∀ p ∈ kernel, p.secondary = false → f.id = p.id
  · have hkept : ∀ c ∈ f :: ks, lookup Ip4Address.id c.id toDelete = none := by
      intro c hc
      by_contra hne
      obtain ⟨_, p, hp, hpp, hpf⟩ := (hdel c hc).mp (Option.isSome_iff_ne_none.mpr hne)
      exact hpf (hfirst p hp hpp)
    exact Or.inl ⟨Or.inr hfirst, subnet_sync_ordered now hok hone hs hks hkept hfirst⟩
  · push Not at hfirst
    obtain ⟨p, hp, hpp, hpf⟩ := hfirst
    cases mode with
    | promote =>
      have hall : ∀ b ∈ kernel, (lookup Ip4Address.id b.id toDelete).isSome ∧
          ∃ c ∈ f :: ks, c.id = b.id := by
        intro b hb
        obtain ⟨c, hc, hcb⟩ := hknown b hb
        have hsome := (hdel c hc).mpr ⟨⟨b, hb, hcb.symm⟩, p, hp, hpp, hpf⟩
        exact ⟨hcb ▸ hsome, c, hc, hcb⟩
      exact Or.inl ⟨Or.inl rfl, primaryIs_foldl_replacing hu hok hone hs hks hall⟩
    | deleteAll =>
      have hprim : PrimaryIs p.id kernel := primaryIs_of_onePrimary hok hone hp hpp
      exact Or.inr ⟨rfl, p, hp, hpp, hpf, hprim.foldl_deleteAll hs hks⟩

/-! ## All subnets -/

/-- What the sync assumes of the addresses of the kernel: an address that is neither
known nor to be pruned has no known address in its subnet. -/
def ExternalElsewhere (known prune kernel : List Ip4Address) : Prop :=
  ∀ a ∈ kernel, (lookup Ip4Address.id a.id known).isSome ∨ (∃ p ∈ prune, p.id = a.id) ∨
    ∀ k ∈ known, k.subnet ≠ a.subnet

theorem lookup_ip4AddrsToDelete (hu : KeyUnique Ip4Address.id known) (hok : Ip4KernelOk kernel)
    (hperm : as.Perm kernel) (hf : firstKnown known s = some f)
    (hknown : ∀ b ∈ inSubnet s kernel, (lookup Ip4Address.id b.id known).isSome)
    {c : Ip4Address} (hc : c ∈ inSubnet s known) :
    (lookup Ip4Address.id c.id (ip4AddrsToDelete known as)).isSome ↔
      (∃ b ∈ inSubnet s kernel, b.id = c.id) ∧
        ∃ p ∈ inSubnet s kernel, p.secondary = false ∧ f.id ≠ p.id := by
  have hcs : c.subnet = s := (mem_inSubnet.mp hc).2
  have hmem : ∀ x, x.subnet = s → (x ∈ ip4AddrsToDelete known as ↔ x ∈ as ∧
      (lookup Ip4Address.id x.id known).isSome ∧ Misordered known as x.subnet) := by
    intro x hx
    refine mem_ip4AddrsToDelete hu (hok.perm hperm) fun p hp hpp hps => ?_
    exact hknown p (mem_inSubnet.mpr ⟨hperm.mem_iff.mp hp, hps.trans hx⟩)
  rw [lookup_isSome_iff]
  constructor
  · rintro ⟨x, hx, hxc⟩
    have hxs : x.subnet = s := (Ip4Address.subnet_of_id hxc).trans hcs
    obtain ⟨hxas, _, p, hp, hps, hpp, g, hg, hgp⟩ := (hmem x hxs).mp hx
    rw [hxs, hf] at hg
    rw [← Option.some.inj hg] at hgp
    refine ⟨⟨x, mem_inSubnet.mpr ⟨hperm.mem_iff.mp hxas, hxs⟩, hxc⟩, p, ?_, hpp, hgp⟩
    exact mem_inSubnet.mpr ⟨hperm.mem_iff.mp hp, hps.trans hxs⟩
  · rintro ⟨⟨b, hb, hbc⟩, p, hp, hpp, hfp⟩
    have hbs : b.subnet = s := (mem_inSubnet.mp hb).2
    refine ⟨b, (hmem b hbs).mpr ⟨hperm.mem_iff.mpr (mem_inSubnet.mp hb).1, hknown b hb, ?_⟩, hbc⟩
    rw [hbs]
    exact ⟨p, hperm.mem_iff.mpr (mem_inSubnet.mp hp).1, (mem_inSubnet.mp hp).2, hpp, f, hf, hfp⟩

theorem inSubnet_sync (mode : PromoteSecondaries) (now : ℕ) (hu : KeyUnique Ip4Address.id known) (hok : Ip4KernelOk kernel)
    (hperm : as.Perm kernel) (hf : firstKnown known s = some f)
    (hknown : ∀ b ∈ inSubnet s kernel, (lookup Ip4Address.id b.id known).isSome) :
    let synced := inSubnet s
      (known.foldl (ip4SyncKnown mode now (ip4AddrsToDelete known as)) kernel)
    (mode = .promote ∨ ∀ p ∈ inSubnet s kernel, p.secondary = false → f.id = p.id) ∧
        PrimaryIs f.id synced ∧ (∀ c ∈ inSubnet s known, ∃ b ∈ synced, b.id = c.id) ∨
      mode = .deleteAll ∧
        ∃ p ∈ inSubnet s kernel, p.secondary = false ∧ f.id ≠ p.id ∧ PrimaryIs p.id synced := by
  rw [inSubnet_foldl_ip4SyncKnown]
  have hdel := fun c hc => lookup_ip4AddrsToDelete (c := c) hu hok hperm hf hknown hc
  have hid : ∀ b ∈ inSubnet s kernel, ∃ c ∈ inSubnet s known, c.id = b.id := by
    intro b hb
    obtain ⟨c, hc, hcb⟩ := lookup_isSome_iff.mp (hknown b hb)
    have hcs := (Ip4Address.subnet_of_id hcb).trans (mem_inSubnet.mp hb).2
    exact ⟨c, mem_inSubnet.mpr ⟨hc, hcs⟩, hcb⟩
  have hus : KeyUnique Ip4Address.id (inSubnet s known) := hu.filter _
  have hsk : ∀ c ∈ inSubnet s known, c.subnet = s := fun c hc => (mem_inSubnet.mp hc).2
  obtain ⟨ks, hks⟩ : ∃ ks, inSubnet s known = f :: ks := List.head?_eq_some_iff.mp hf
  rw [hks] at hdel hid hus hsk ⊢
  exact subnet_sync now (hok.unique.filter _) (hok.onePrimary s) hus
    (fun b hb => (mem_inSubnet.mp hb).2) hsk hid hdel

/-- A sync establishes presence and order if and only if the kernel promotes secondary
addresses, or no known primary address of the kernel is preceded by another known
address of its subnet. -/
theorem ip4_address_sync_iff (mode : PromoteSecondaries) (now : ℕ)
    (plat : List Ip4Address → List Ip4Address) (knownAddresses prune kernel : List Ip4Address)
    (hplat : ∀ as, (plat as).Perm as) (hok : Ip4KernelOk kernel)
    (hu : KeyUnique Ip4Address.id knownAddresses)
    (hext : ExternalElsewhere (ip4CleanExpired now knownAddresses) prune kernel) :
    Ip4Synced (ip4CleanExpired now knownAddresses)
        (ip4AddressSync mode now plat knownAddresses prune kernel) ↔
      mode = .promote ∨ ∀ a ∈ kernel, a.secondary = false →
        (lookup Ip4Address.id a.id (ip4CleanExpired now knownAddresses)).isSome →
        ∀ f, firstKnown (ip4CleanExpired now knownAddresses) a.subnet = some f → f.id = a.id := by
  unfold ip4AddressSync
  have hu' : KeyUnique Ip4Address.id (ip4CleanExpired now knownAddresses) := hu.filter _
  generalize ip4CleanExpired now knownAddresses = known at hext hu' ⊢
  dsimp only
  have hok' : Ip4KernelOk (ip4Prune mode known prune kernel) := ip4KernelOk_ip4Prune hok
  -- after pruning, all addresses of a subnet with known addresses are known
  have hknown : ∀ s f, firstKnown known s = some f →
      ∀ b ∈ inSubnet s (ip4Prune mode known prune kernel),
        (lookup Ip4Address.id b.id known).isSome := by
    intro s f hf b hb
    obtain ⟨hb, hbs⟩ := mem_inSubnet.mp hb
    obtain ⟨⟨a, ha, hab⟩, hor⟩ := mem_ip4Prune hb
    have hsub : a.subnet = s := (Ip4Address.subnet_of_id hab).trans hbs
    rcases hor with hk | hnot
    · exact hk
    · rcases hext a ha with hk | ⟨p, hp, hpa⟩ | helse
      · exact hab ▸ hk
      · exact absurd (hpa.trans hab) (hnot p hp)
      · obtain ⟨hfmem, hfs⟩ := mem_of_firstKnown hf
        exact absurd (hfs.trans hsub.symm) (helse f hfmem)
  have hsubnet := fun s f (hf : firstKnown known s = some f) =>
    inSubnet_sync mode now hu' hok' (hplat _) hf (hknown s f hf)
  generalize known.foldl (ip4SyncKnown mode now _) _ = synced at hsubnet ⊢
  constructor
  · intro hsynced
    refine or_iff_not_imp_left.mpr fun hmode a ha hp hk f hf => ?_
    have hdeleteAll : mode = .deleteAll := by
      cases mode with
      | promote => exact absurd rfl hmode
      | deleteAll => rfl
    subst hdeleteAll
    have hakept : a ∈ inSubnet a.subnet (ip4Prune .deleteAll known prune kernel) :=
      mem_inSubnet.mpr ⟨(mem_ip4Prune_deleteAll hp hk).mpr ha, rfl⟩
    rcases hsubnet a.subnet f hf with ⟨hfirst, _⟩ | ⟨_, p, _, _, hfp, hprim⟩
    · exact (hfirst.resolve_left hmode) a hakept hp
    · -- the former primary address is still the primary one
      obtain ⟨b, hb, hbp, hbid⟩ := hprim.onePrimary_mem
      obtain ⟨hb, hbs⟩ := mem_inSubnet.mp hb
      have hbf : b.id = f.id := (hsynced.2 b hb f (hbs ▸ hf)).mp hbp
      exact absurd (hbf.symm.trans hbid) hfp
  · intro hcond
    have hgood : ∀ s f, firstKnown known s = some f → PrimaryIs f.id (inSubnet s synced) ∧
        ∀ c ∈ inSubnet s known, ∃ b ∈ inSubnet s synced, b.id = c.id := by
      intro s f hf
      rcases hsubnet s f hf with ⟨_, hgood⟩ | ⟨hmode, p, hp, hpp, hfp, _⟩
      · exact hgood
      · have hpk := hknown s f hf p hp
        obtain ⟨hpmem, hps⟩ := mem_inSubnet.mp hp
        subst hmode
        have hpkernel : p ∈ kernel := sublist_ip4Prune_deleteAll.subset hpmem
        have hfirst := hcond.resolve_left nofun p hpkernel hpp hpk f (hps ▸ hf)
        exact absurd hfirst hfp
    refine ⟨fun k hk => ?_, fun b hb f hf => ?_⟩
    · obtain ⟨f, hf⟩ := exists_firstKnown hk
      obtain ⟨b, hb, hid⟩ := (hgood k.subnet f hf).2 k (mem_inSubnet.mpr ⟨hk, rfl⟩)
      exact ⟨b, (mem_inSubnet.mp hb).1, hid⟩
    · exact (hgood b.subnet f hf).1.primary_iff b (mem_inSubnet.mpr ⟨hb, rfl⟩)

theorem ip4KernelOk_singleton (hp : a.secondary = false) : Ip4KernelOk [a] := by
  refine ⟨nodup_singleton _, fun s => ?_⟩
  by_cases hs : a.subnet = s
  · rw [inSubnet_cons_of_eq hs]
    exact Or.inr ⟨a, by simp [inSubnet, primaries, hp]⟩
  · rw [inSubnet_cons_of_ne hs]
    exact Or.inl rfl

/-- The host `n` of 192.168.1.0/24, with a permanent lifetime. -/
def exampleIp4Address (n : ℕ) : Ip4Address where
  address := BitVec.ofNat 32 (0xC0A80100 + n)
  peerAddress := BitVec.ofNat 32 (0xC0A80100 + n)
  plen := 24
  useIp4BroadcastAddress := false
  broadcastAddress := 0
  label := ""
  lifetime := ⟨0, 0, 0⟩
  secondary := false

/-- A kernel that promotes secondary addresses ends up with the intended order. -/
theorem ip4_address_sync_promote :
    Ip4Synced (ip4CleanExpired 1 [exampleIp4Address 1, exampleIp4Address 2])
      (ip4AddressSync .promote 1 id [exampleIp4Address 1, exampleIp4Address 2] []
        [exampleIp4Address 2]) :=
  (ip4_address_sync_iff .promote 1 id [exampleIp4Address 1, exampleIp4Address 2] []
    [exampleIp4Address 2] (fun as => List.Perm.refl as) (ip4KernelOk_singleton rfl)
    (by unfold KeyUnique; decide +kernel) (by unfold ExternalElsewhere; decide +kernel)).mpr
    (Or.inl rfl)

/-- A kernel that deletes secondary addresses with their primary address loses the first
known address, which was added next to the former primary address. -/
theorem ip4_address_sync_loses_address :
    ¬ ∀ mode now (plat : List Ip4Address → List Ip4Address) known prune kernel,
      (∀ as, (plat as).Perm as) → Ip4KernelOk kernel → KeyUnique Ip4Address.id known →
      ExternalElsewhere (ip4CleanExpired now known) prune kernel →
      Ip4Synced (ip4CleanExpired now known) (ip4AddressSync mode now plat known prune kernel) := by
  intro hclaim
  have hsynced := hclaim .deleteAll 1 id [exampleIp4Address 1, exampleIp4Address 2] []
    [exampleIp4Address 2] (fun as => List.Perm.refl as) (ip4KernelOk_singleton rfl)
    (by unfold KeyUnique; decide +kernel) (by unfold ExternalElsewhere; decide +kernel)
  have hlost := hsynced.1 (exampleIp4Address 1) (by decide +kernel)
  revert hlost
  decide +kernel

end NetworkManager.Platform
