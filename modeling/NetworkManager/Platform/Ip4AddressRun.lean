import NetworkManager.Lib.Runs
import NetworkManager.Platform.Ip4AddressKernel

/-!
# Adding the known IPv4 addresses, one subnet at a time

What the loop over the known addresses does to the addresses of one subnet. When no
address of the subnet is to be deleted, or the kernel deletes the secondary addresses
along with their primary address, the primary address remains the one it was.
-/

namespace NetworkManager.Platform

open Lib
open List hiding lookup_append

/-- Of the addresses, the one with identity `i` is primary and all others are secondary. -/
structure PrimaryIs (i : Ip4AddressId) (as : List Ip4Address) : Prop where
  exists_id : ∃ b ∈ as, b.id = i
  primary_iff : ∀ b ∈ as, b.secondary = false ↔ b.id = i

variable {s : Ip4Subnet} {i j : Ip4AddressId} {a b k : Ip4Address}
  {as kernel known toDelete old new pre suf : List Ip4Address} {mode : PromoteSecondaries} {now : ℕ}

theorem PrimaryIs.ne_nil (h : PrimaryIs i as) : as ≠ [] := by
  obtain ⟨b, hb, _⟩ := h.exists_id
  exact ne_nil_of_mem hb

theorem primaryIs_of_onePrimary (hu : KeyUnique Ip4Address.id as) (h : OnePrimary as)
    (ha : a ∈ as) (hp : a.secondary = false) : PrimaryIs a.id as := by
  refine ⟨⟨a, ha, rfl⟩, fun b hb => ⟨fun hbp => ?_, fun hid => ?_⟩⟩
  · rw [h.eq_of_mem hb ha hbp hp]
  · rw [eq_of_key_eq hu hb ha hid, hp]

theorem PrimaryIs.onePrimary_mem (h : PrimaryIs i as) : ∃ b ∈ as, b.secondary = false ∧ b.id = i := by
  obtain ⟨b, hb, hid⟩ := h.exists_id
  exact ⟨b, hb, (h.primary_iff b hb).mpr hid, hid⟩

/-! ## The operations of the kernel on one subnet -/

theorem mem_ids_kernelAddIp4 :
    (∃ b ∈ kernelAddIp4 a kernel, b.id = i) ↔ a.id = i ∨ ∃ b ∈ kernel, b.id = i := by
  unfold kernelAddIp4
  cases ho : lookup Ip4Address.id a.id kernel with
  | some o =>
    have hmap : (modifyKey Ip4Address.id a.id (fun b => { b with lifetime := a.lifetime }) kernel).map
        Ip4Address.id = kernel.map Ip4Address.id := map_key_modifyKey fun _ => rfl
    have hiff := congrArg (fun l => i ∈ l) hmap
    simp only [mem_map] at hiff
    dsimp only
    rw [hiff]
    refine ⟨Or.inr, fun h => h.elim (fun hid => ?_) id⟩
    exact ⟨o, mem_of_lookup ho, (key_of_lookup ho).trans hid⟩
  | none =>
    dsimp only
    simp only [mem_append, mem_singleton]
    constructor
    · rintro ⟨b, hb | rfl, hid⟩
      · exact Or.inr ⟨b, hb, hid⟩
      · exact Or.inl hid
    · rintro (hid | ⟨b, hb, hid⟩)
      · exact ⟨_, Or.inr rfl, hid⟩
      · exact ⟨b, Or.inl hb, hid⟩

theorem kernelAddIp4_of_none (h : lookup Ip4Address.id a.id kernel = none)
    (hs : ∀ b ∈ kernel, b.subnet = a.subnet) (hne : kernel ≠ []) :
    kernelAddIp4 a kernel = kernel ++ [{ a with secondary := true }] := by
  obtain ⟨b, bs, rfl⟩ := exists_cons_of_ne_nil hne
  have hany : (b :: bs).any (fun b => b.subnet = a.subnet) = true :=
    any_eq_true.mpr ⟨b, mem_cons_self, by simp [hs b mem_cons_self]⟩
  unfold kernelAddIp4
  rw [h]
  dsimp only
  rw [hany]

theorem PrimaryIs.add (h : PrimaryIs i kernel) (hs : ∀ b ∈ kernel, b.subnet = a.subnet) :
    PrimaryIs i (kernelAddIp4 a kernel) := by
  refine ⟨mem_ids_kernelAddIp4.mpr (Or.inr h.exists_id), ?_⟩
  cases ho : lookup Ip4Address.id a.id kernel with
  | some o =>
    unfold kernelAddIp4
    rw [ho]
    intro b hb
    obtain ⟨c, hc, rfl⟩ := mem_map.mp hb
    have hiff := h.primary_iff c hc
    split_ifs
    · exact hiff
    · exact hiff
  | none =>
    rw [kernelAddIp4_of_none ho hs h.ne_nil]
    intro b hb
    rcases mem_append.mp hb with hb | hb
    · exact h.primary_iff b hb
    · obtain ⟨c, hc, hci⟩ := h.exists_id
      have hne : a.id ≠ i := fun he => lookup_eq_none_iff.mp ho c hc (hci.trans he.symm)
      rw [mem_singleton.mp hb]
      exact ⟨nofun, fun hid => absurd hid hne⟩

theorem kernelDeleteIp4_of_secondary (h : PrimaryIs i kernel) (hne : j ≠ i) :
    kernelDeleteIp4 mode j kernel = eraseKey Ip4Address.id j kernel := by
  unfold kernelDeleteIp4
  cases ho : lookup Ip4Address.id j kernel with
  | none =>
    exact (filter_eq_self.mpr fun a ha => by simpa using lookup_eq_none_iff.mp ho a ha).symm
  | some o =>
    have hsec : o.secondary = true := by
      by_contra hf
      have hid := (h.primary_iff o (mem_of_lookup ho)).mp (by simpa using hf)
      exact hne ((key_of_lookup ho).symm.trans hid)
    dsimp only
    rw [if_pos hsec]

theorem PrimaryIs.erase (h : PrimaryIs i kernel) (hne : j ≠ i) :
    PrimaryIs i (eraseKey Ip4Address.id j kernel) := by
  obtain ⟨b, hb, hid⟩ := h.exists_id
  refine ⟨⟨b, mem_eraseKey.mpr ⟨hb, fun he => hne (he.symm.trans hid)⟩, hid⟩, fun c hc => ?_⟩
  exact h.primary_iff c (mem_eraseKey.mp hc).1

theorem kernelDeleteIp4_primary (h : PrimaryIs i kernel) (hs : ∀ b ∈ kernel, b.subnet = s) :
    kernelDeleteIp4 .deleteAll i kernel = [] := by
  have hsome : (lookup Ip4Address.id i kernel).isSome := lookup_isSome_iff.mpr h.exists_id
  obtain ⟨o, ho⟩ := Option.isSome_iff_exists.mp hsome
  have hmem : o ∈ kernel := mem_of_lookup ho
  have hp : o.secondary = false := (h.primary_iff o hmem).mpr (key_of_lookup ho)
  unfold kernelDeleteIp4
  rw [ho]
  dsimp only
  rw [if_neg (by simp [hp])]
  refine filter_eq_nil_iff.mpr fun b hb => ?_
  have hb' := mem_eraseKey.mp hb
  have hsec : b.secondary = true := by
    by_contra hf
    exact hb'.2 ((h.primary_iff b hb'.1).mp (by simpa using hf))
  simp [hsec, hs b hb'.1, hs o hmem]

theorem subnet_kernelDeleteIp4 (hs : ∀ b ∈ kernel, b.subnet = s) :
    ∀ b ∈ kernelDeleteIp4 mode i kernel, b.subnet = s := by
  intro b hb
  obtain ⟨_, c, hc, hid⟩ := mem_kernelDeleteIp4 hb
  rw [← Ip4Address.subnet_of_id hid, hs c hc]

/-! ## One known address -/

theorem inSubnet_ip4SyncKnown (h : k.subnet = s) :
    inSubnet s (ip4SyncKnown mode now toDelete kernel k) =
      ip4SyncKnown mode now toDelete (inSubnet s kernel) k := by
  have hid : k.id.subnet = s := h
  unfold ip4SyncKnown
  dsimp only
  rw [lookup_inSubnet hid]
  cases ho : lookup Ip4Address.id k.id kernel with
  | none => exact inSubnet_kernelAddIp4 h
  | some o =>
    have ho' : o.id.subnet = s := by rw [key_of_lookup ho, hid]
    dsimp only
    split_ifs
    · rw [← inSubnet_kernelDeleteIp4 ho']
      exact inSubnet_kernelAddIp4 h
    · rfl
    · exact inSubnet_kernelAddIp4 h

theorem inSubnet_ip4SyncKnown_of_ne (h : k.subnet ≠ s) :
    inSubnet s (ip4SyncKnown mode now toDelete kernel k) = inSubnet s kernel := by
  have hadd : ∀ as, inSubnet s (kernelAddIp4 { k with lifetime := k.lifetime.configure now } as) =
      inSubnet s as := fun as => inSubnet_kernelAddIp4_of_ne h
  unfold ip4SyncKnown
  dsimp only
  cases ho : lookup Ip4Address.id k.id kernel with
  | none => exact hadd kernel
  | some o =>
    have ho' : o.id.subnet ≠ s := by rw [key_of_lookup ho]; exact h
    dsimp only
    split_ifs
    · exact (hadd _).trans (inSubnet_kernelDeleteIp4_of_ne ho')
    · rfl
    · exact hadd kernel

theorem inSubnet_foldl_ip4SyncKnown :
    inSubnet s (known.foldl (ip4SyncKnown mode now toDelete) kernel) =
      (inSubnet s known).foldl (ip4SyncKnown mode now toDelete) (inSubnet s kernel) := by
  refine foldl_proj (fun kernel k hk => ?_) (fun kernel k hk => ?_)
  · exact inSubnet_ip4SyncKnown (by simpa using hk)
  · exact inSubnet_ip4SyncKnown_of_ne (by simpa using hk)

theorem subnet_ip4SyncKnown (hs : ∀ b ∈ kernel, b.subnet = s) (hk : k.subnet = s) :
    ∀ b ∈ ip4SyncKnown mode now toDelete kernel k, b.subnet = s := by
  have hself : inSubnet s kernel = kernel := filter_eq_self.mpr fun b hb => by simp [hs b hb]
  have h : inSubnet s (ip4SyncKnown mode now toDelete kernel k) =
      ip4SyncKnown mode now toDelete (inSubnet s kernel) k := inSubnet_ip4SyncKnown hk
  intro b hb
  rw [hself] at h
  rw [← h] at hb
  exact (mem_inSubnet.mp hb).2

theorem ip4SyncKnown_nil :
    ip4SyncKnown mode now toDelete [] k =
      [{ k with lifetime := k.lifetime.configure now, secondary := false }] := rfl

theorem primaryIs_ip4SyncKnown_nil : PrimaryIs k.id (ip4SyncKnown mode now toDelete [] k) := by
  rw [ip4SyncKnown_nil]
  refine ⟨⟨_, mem_cons_self, rfl⟩, fun b hb => ?_⟩
  rw [mem_singleton.mp hb]
  exact ⟨fun _ => rfl, fun _ => rfl⟩

/-! ## Nothing to delete -/

theorem ip4SyncKnown_of_kept (h : lookup Ip4Address.id k.id toDelete = none) :
    ip4SyncKnown mode now toDelete kernel k = kernel ∧ (∃ b ∈ kernel, b.id = k.id) ∨
      ip4SyncKnown mode now toDelete kernel k =
        kernelAddIp4 { k with lifetime := k.lifetime.configure now } kernel := by
  unfold ip4SyncKnown
  dsimp only
  cases ho : lookup Ip4Address.id k.id kernel with
  | none => exact Or.inr rfl
  | some o =>
    have hid : o.id = k.id := key_of_lookup ho
    dsimp only
    rw [hid, h, if_neg (by simp)]
    split_ifs
    · exact Or.inl ⟨rfl, o, mem_of_lookup ho, hid⟩
    · exact Or.inr rfl

theorem PrimaryIs.sync_kept (hp : PrimaryIs i kernel) (hs : ∀ b ∈ kernel, b.subnet = k.subnet)
    (h : lookup Ip4Address.id k.id toDelete = none) :
    PrimaryIs i (ip4SyncKnown mode now toDelete kernel k) := by
  rcases ip4SyncKnown_of_kept h with ⟨heq, _⟩ | heq
  · rw [heq]
    exact hp
  · rw [heq]
    exact hp.add hs

theorem mem_ids_ip4SyncKnown_of_kept (h : lookup Ip4Address.id k.id toDelete = none) :
    (∃ b ∈ ip4SyncKnown mode now toDelete kernel k, b.id = i) ↔
      k.id = i ∨ ∃ b ∈ kernel, b.id = i := by
  rcases ip4SyncKnown_of_kept h with ⟨heq, hmem⟩ | heq
  · rw [heq]
    refine ⟨Or.inr, fun h => h.elim (fun hid => ?_) fun h => h⟩
    rw [← hid]
    exact hmem
  · rw [heq, mem_ids_kernelAddIp4]
    exact Iff.rfl

theorem PrimaryIs.foldl_kept (mode : PromoteSecondaries) (now : ℕ) (hp : PrimaryIs i kernel)
    (hs : ∀ b ∈ kernel, b.subnet = s) (hks : ∀ k ∈ known, k.subnet = s)
    (h : ∀ k ∈ known, lookup Ip4Address.id k.id toDelete = none) :
    PrimaryIs i (known.foldl (ip4SyncKnown mode now toDelete) kernel) ∧
      ∀ j, (∃ b ∈ known.foldl (ip4SyncKnown mode now toDelete) kernel, b.id = j) ↔
        (∃ k ∈ known, k.id = j) ∨ ∃ b ∈ kernel, b.id = j := by
  induction known generalizing kernel with
  | nil => simpa using hp
  | cons k known ih =>
    have hk := hks k mem_cons_self
    have hkept := h k mem_cons_self
    have hs' : ∀ b ∈ kernel, b.subnet = k.subnet := fun b hb => (hs b hb).trans hk.symm
    have hstep : PrimaryIs i (ip4SyncKnown mode now toDelete kernel k) := hp.sync_kept hs' hkept
    have hrest := ih hstep (subnet_ip4SyncKnown hs hk)
      (fun k hk => hks k (mem_cons_of_mem _ hk)) fun k hk => h k (mem_cons_of_mem _ hk)
    refine ⟨hrest.1, fun j => ?_⟩
    rw [foldl_cons, hrest.2 j, mem_ids_ip4SyncKnown_of_kept hkept]
    simp only [mem_cons, exists_eq_or_imp]
    rw [or_left_comm, or_assoc]

/-! ## The kernel deletes the secondary addresses with their primary address -/

theorem PrimaryIs.sync_deleteAll (hp : PrimaryIs i kernel)
    (hs : ∀ b ∈ kernel, b.subnet = k.subnet) :
    PrimaryIs i (ip4SyncKnown .deleteAll now toDelete kernel k) := by
  have hadd : ∀ as, PrimaryIs i as → (∀ b ∈ as, b.subnet = k.subnet) →
      PrimaryIs i (kernelAddIp4 { k with lifetime := k.lifetime.configure now } as) :=
    fun as has hsub => has.add hsub
  unfold ip4SyncKnown
  dsimp only
  cases ho : lookup Ip4Address.id k.id kernel with
  | none => exact hadd kernel hp hs
  | some o =>
    have hid : o.id = k.id := key_of_lookup ho
    dsimp only
    split_ifs
    · rw [hid]
      by_cases hi : k.id = i
      · -- the primary address is deleted with its subnet, and added anew
        subst hi
        rw [kernelDeleteIp4_primary hp hs]
        have hself : PrimaryIs k.id (ip4SyncKnown .deleteAll now toDelete [] k) :=
          primaryIs_ip4SyncKnown_nil
        exact hself
      · rw [kernelDeleteIp4_of_secondary hp hi]
        exact hadd _ (hp.erase hi) fun b hb => hs b (mem_eraseKey.mp hb).1
    · exact hp
    · exact hadd kernel hp hs

theorem PrimaryIs.foldl_deleteAll (hp : PrimaryIs i kernel) (hs : ∀ b ∈ kernel, b.subnet = s)
    (hks : ∀ k ∈ known, k.subnet = s) :
    PrimaryIs i (known.foldl (ip4SyncKnown .deleteAll now toDelete) kernel) := by
  induction known generalizing kernel with
  | nil => exact hp
  | cons k known ih =>
    have hk := hks k mem_cons_self
    have hs' : ∀ b ∈ kernel, b.subnet = k.subnet := fun b hb => (hs b hb).trans hk.symm
    exact ih (hp.sync_deleteAll hs') (subnet_ip4SyncKnown hs hk)
      fun k hk => hks k (mem_cons_of_mem _ hk)

/-! ## The kernel promotes secondary addresses -/

/-- The addresses of a subnet while they are replaced: `old` is left of the former
addresses, all of which are to be deleted, and `new` are the known addresses `pre` that
were added behind them. The known addresses `suf` are still to be added. -/
structure Replacing (toDelete pre suf old new : List Ip4Address) : Prop where
  newIds : new.map Ip4Address.id = pre.map Ip4Address.id
  oldUnique : KeyUnique Ip4Address.id old
  oldOnePrimary : OnePrimary old
  oldKnown : ∀ o ∈ old, (lookup Ip4Address.id o.id toDelete).isSome ∧ ∃ k ∈ suf, k.id = o.id
  newSecondary : old ≠ [] → ∀ b ∈ new, b.secondary = true
  newPrimary : old = [] → ∀ b ∈ new, b.secondary = false ↔ (pre.head?.map Ip4Address.id) = some b.id

theorem mem_newIds (h : new.map Ip4Address.id = pre.map Ip4Address.id) :
    (∃ b ∈ new, b.id = i) ↔ ∃ k ∈ pre, k.id = i := by
  have hiff := congrArg (fun l => i ∈ l) h
  simpa only [mem_map, eq_iff_iff] using hiff

theorem promoteFirst_append (hne : old ≠ []) (hs : ∀ b ∈ old, b.subnet = s)
    (hsec : ∀ b ∈ old, b.secondary = true) :
    promoteFirst s (old ++ new) = promoteFirst s old ++ new := by
  obtain ⟨o, os, rfl⟩ := exists_cons_of_ne_nil hne
  have ho := hs o mem_cons_self
  have hosec := hsec o mem_cons_self
  rw [cons_append, promoteFirst_cons ho hosec, promoteFirst_cons ho hosec, cons_append]

theorem primary_promoteFirst (hu : KeyUnique Ip4Address.id new) (hs : ∀ b ∈ new, b.subnet = s)
    (hsec : ∀ b ∈ new, b.secondary = true) :
    ∀ b ∈ promoteFirst s new, b.secondary = false ↔ (new.head?.map Ip4Address.id) = some b.id := by
  cases new with
  | nil => simp [promoteFirst]
  | cons c cs =>
    rw [promoteFirst_cons (hs c mem_cons_self) (hsec c mem_cons_self)]
    intro b hb
    rcases mem_cons.mp hb with rfl | hb
    · exact ⟨fun _ => rfl, fun _ => rfl⟩
    · have hne : b.id ≠ c.id := (unique_cons.mp hu).1 b hb
      have hbsec := hsec b (mem_cons_of_mem c hb)
      simp [hbsec, Ne.symm hne]

/-- One of the former addresses is deleted, and is not to be deleted any more. -/
theorem Replacing.delete (h : Replacing toDelete pre (k :: suf) old new)
    (hu : KeyUnique Ip4Address.id (pre ++ k :: suf)) (hso : ∀ b ∈ old, b.subnet = s)
    (hsn : ∀ b ∈ new, b.subnet = s) (hk : ∃ o ∈ old, o.id = k.id) :
    ∃ old' new', kernelDeleteIp4 .promote k.id (old ++ new) = old' ++ new' ∧
      Replacing toDelete pre suf old' new' := by
  obtain ⟨o, ho⟩ := Option.isSome_iff_exists.mp (lookup_isSome_iff.mpr hk)
  have hmem : o ∈ old := mem_of_lookup ho
  have hne : old ≠ [] := ne_nil_of_mem hmem
  have hsec := h.newSecondary hne
  have hfresh : ∀ b ∈ new, b.id ≠ k.id := by
    intro b hb he
    obtain ⟨c, hc, hcb⟩ := (mem_newIds h.newIds).mp ⟨b, hb, he⟩
    have hdis := (nodup_append.mp (by simpa [KeyUnique] using hu)).2.2
    exact hdis c.id (mem_map_of_mem hc) k.id (by simp) hcb
  have hlook : lookup Ip4Address.id k.id (old ++ new) = some o := by
    rw [lookup_append, ho, Option.some_or]
  have herase : eraseKey Ip4Address.id k.id (old ++ new) = eraseKey Ip4Address.id k.id old ++ new := by
    unfold eraseKey
    rw [filter_append]
    congr 1
    exact filter_eq_self.mpr fun b hb => by simpa using hfresh b hb
  have hold : OnePrimary (kernelDeleteIp4 .promote k.id old) :=
    onePrimary_kernelDeleteIp4 h.oldUnique hso h.oldOnePrimary
  have hknown : ∀ b ∈ kernelDeleteIp4 .promote k.id old,
      (lookup Ip4Address.id b.id toDelete).isSome ∧ ∃ c ∈ suf, c.id = b.id := by
    intro b hb
    obtain ⟨hbk, c, hc, hcb⟩ := mem_kernelDeleteIp4 hb
    obtain ⟨hdel, d, hd, hdc⟩ := h.oldKnown c hc
    rw [hcb] at hdel hdc
    rcases mem_cons.mp hd with rfl | hd
    · exact absurd hdc.symm hbk
    · exact ⟨hdel, d, hd, hdc⟩
  have hunique : KeyUnique Ip4Address.id (kernelDeleteIp4 .promote k.id old) :=
    unique_kernelDeleteIp4 h.oldUnique
  have hnewUnique : KeyUnique Ip4Address.id new := by
    unfold KeyUnique
    rw [h.newIds]
    exact hu.sublist (sublist_append_left _ _)
  by_cases hosec : o.secondary = true
  · -- a secondary address goes, and the primary address is still there
    have heq : kernelDeleteIp4 .promote k.id old = eraseKey Ip4Address.id k.id old := by
      unfold kernelDeleteIp4
      rw [ho]
      exact if_pos hosec
    rw [heq] at hold hknown hunique
    obtain ⟨p, hp, hpp⟩ := h.oldOnePrimary.exists hmem
    have hpk : p.id ≠ k.id := by
      intro he
      have hpo : p = o := eq_of_key_eq h.oldUnique hp hmem (he.trans (key_of_lookup ho).symm)
      rw [hpo, hosec] at hpp
      cases hpp
    have hne' : eraseKey Ip4Address.id k.id old ≠ [] :=
      ne_nil_of_mem (mem_eraseKey.mpr ⟨hp, hpk⟩)
    refine ⟨eraseKey Ip4Address.id k.id old, new, ?_, h.newIds, hunique, hold, hknown,
      fun _ => hsec, fun he => absurd he hne'⟩
    unfold kernelDeleteIp4
    rw [hlook, herase]
    exact if_pos hosec
  · have hop : o.secondary = false := by simpa using hosec
    have heq : kernelDeleteIp4 .promote k.id old =
        promoteFirst s (eraseKey Ip4Address.id k.id old) := by
      unfold kernelDeleteIp4
      rw [ho, ← hso o hmem]
      exact if_neg hosec
    have hboth : kernelDeleteIp4 .promote k.id (old ++ new) =
        promoteFirst s (eraseKey Ip4Address.id k.id old ++ new) := by
      unfold kernelDeleteIp4
      rw [hlook, herase, ← hso o hmem]
      exact if_neg hosec
    rw [heq] at hold hknown hunique
    have herased : ∀ b ∈ eraseKey Ip4Address.id k.id old, b.secondary = true := by
      intro b hb
      by_contra hf
      have hbo := h.oldOnePrimary.eq_of_mem (mem_eraseKey.mp hb).1 hmem (by simpa using hf) hop
      exact (mem_eraseKey.mp hb).2 (hbo ▸ key_of_lookup ho)
    by_cases hnil : eraseKey Ip4Address.id k.id old = []
    · -- the last one goes, and the first of the new addresses is promoted
      refine ⟨[], promoteFirst s new, ?_, ?_, unique_nil, Or.inl rfl, by simp, by simp, fun _ => ?_⟩
      · rw [hboth, hnil, nil_append, nil_append]
      · rw [map_id_promoteFirst, h.newIds]
      · have hhead : new.head?.map Ip4Address.id = pre.head?.map Ip4Address.id := by
          rw [← List.head?_map, h.newIds, List.head?_map]
        rw [← hhead]
        exact primary_promoteFirst hnewUnique hsn hsec
    · -- the first of the others is promoted
      have hsub : ∀ b ∈ eraseKey Ip4Address.id k.id old, b.subnet = s :=
        fun b hb => hso b (mem_eraseKey.mp hb).1
      refine ⟨promoteFirst s (eraseKey Ip4Address.id k.id old), new, ?_, h.newIds, hunique, hold,
        hknown, fun _ => hsec, fun he => ?_⟩
      · rw [hboth, promoteFirst_append hnil hsub herased]
      · have hmap := congrArg (List.map Ip4Address.id) he
        rw [map_id_promoteFirst] at hmap
        exact absurd (map_eq_nil_iff.mp hmap) hnil

/-- A known address that the kernel does not have is added behind the new ones. -/
theorem Replacing.add (h : Replacing toDelete pre suf old new)
    (hu : KeyUnique Ip4Address.id (pre ++ k :: suf)) (hso : ∀ b ∈ old, b.subnet = k.subnet)
    (hsn : ∀ b ∈ new, b.subnet = k.subnet) (hk : ∀ o ∈ old, o.id ≠ k.id) :
    ∃ new', kernelAddIp4 k (old ++ new) = old ++ new' ∧
      Replacing toDelete (pre ++ [k]) suf old new' := by
  have hdis := (nodup_append.mp (by simpa [KeyUnique] using hu)).2.2
  have hpre : ∀ c ∈ pre, c.id ≠ k.id :=
    fun c hc => hdis c.id (mem_map_of_mem hc) k.id (by simp)
  have hfresh : ∀ b ∈ new, b.id ≠ k.id := by
    intro b hb he
    obtain ⟨c, hc, hcb⟩ := (mem_newIds h.newIds).mp ⟨b, hb, he⟩
    exact hpre c hc hcb
  have hlook : lookup Ip4Address.id k.id (old ++ new) = none := by
    refine lookup_eq_none_iff.mpr fun b hb => ?_
    rcases mem_append.mp hb with hb | hb
    · exact hk b hb
    · exact hfresh b hb
  have hsub : ∀ b ∈ old ++ new, b.subnet = k.subnet := by
    intro b hb
    rcases mem_append.mp hb with hb | hb
    · exact hso b hb
    · exact hsn b hb
  by_cases hnil : old ++ new = []
  · -- the first address of the subnet is primary
    obtain ⟨rfl, rfl⟩ := append_eq_nil_iff.mp hnil
    have hprenil : pre = [] := by simpa using h.newIds.symm
    subst hprenil
    refine ⟨[{ k with secondary := false }], rfl, rfl, unique_nil, Or.inl rfl, by simp, by simp,
      fun _ b hb => ?_⟩
    rw [mem_singleton.mp hb]
    exact ⟨fun _ => rfl, fun _ => rfl⟩
  · refine ⟨new ++ [{ k with secondary := true }], ?_, ?_, h.oldUnique, h.oldOnePrimary, h.oldKnown,
      fun hne b hb => ?_, fun hold b hb => ?_⟩
    · rw [kernelAddIp4_of_none hlook hsub hnil, append_assoc]
    · rw [map_append, map_append, h.newIds]
      rfl
    · rcases mem_append.mp hb with hb | hb
      · exact h.newSecondary hne b hb
      · rw [mem_singleton.mp hb]
    · have hnew : new ≠ [] := fun hn => hnil (by rw [hold, hn]; rfl)
      obtain ⟨c, cs, rfl⟩ : ∃ c cs, pre = c :: cs := by
        refine exists_cons_of_ne_nil fun hp => hnew ?_
        have hids := h.newIds
        rw [hp] at hids
        exact map_eq_nil_iff.mp hids
      rcases mem_append.mp hb with hb | hb
      · exact h.newPrimary hold b hb
      · rw [mem_singleton.mp hb]
        refine ⟨by simp, fun hid => ?_⟩
        exact absurd (Option.some.inj hid) (hpre c mem_cons_self)

/-- The step of the loop for the next known address. -/
theorem Replacing.sync (now : ℕ) (h : Replacing toDelete pre (k :: suf) old new)
    (hu : KeyUnique Ip4Address.id (pre ++ k :: suf)) (hs : ∀ b ∈ old ++ new, b.subnet = k.subnet) :
    ∃ old' new', ip4SyncKnown .promote now toDelete (old ++ new) k = old' ++ new' ∧
      Replacing toDelete (pre ++ [k]) suf old' new' := by
  have hso : ∀ b ∈ old, b.subnet = k.subnet := fun b hb => hs b (mem_append_left _ hb)
  have hsn : ∀ b ∈ new, b.subnet = k.subnet := fun b hb => hs b (mem_append_right _ hb)
  let configured : Ip4Address := { k with lifetime := k.lifetime.configure now }
  have hu' : KeyUnique Ip4Address.id (pre ++ configured :: suf) := by
    unfold KeyUnique at hu ⊢
    rw [map_append, map_cons] at hu ⊢
    exact hu
  -- the identity of an address does not depend on its lifetime
  have hpre : ∀ old' new', Replacing toDelete (pre ++ [configured]) suf old' new' →
      Replacing toDelete (pre ++ [k]) suf old' new' := by
    intro old' new' hr
    refine ⟨?_, hr.oldUnique, hr.oldOnePrimary, hr.oldKnown, hr.newSecondary, fun he b hb => ?_⟩
    · rw [hr.newIds]
      simp only [map_append, map_cons, map_nil]
      rfl
    · rw [hr.newPrimary he b hb]
      cases pre with
      | nil => exact Iff.rfl
      | cons c cs => exact Iff.rfl
  by_cases hk : ∃ o ∈ old, o.id = k.id
  · obtain ⟨o, ho⟩ := Option.isSome_iff_exists.mp (lookup_isSome_iff.mpr hk)
    have hid : o.id = k.id := key_of_lookup ho
    have hlook : lookup Ip4Address.id k.id (old ++ new) = some o := by
      rw [lookup_append, ho, Option.some_or]
    have hdel := (h.oldKnown o (mem_of_lookup ho)).1
    obtain ⟨old', new', hkernel, hr⟩ := h.delete hu hso hsn hk
    have hs' : ∀ b ∈ old' ++ new', b.subnet = k.subnet := by
      rw [← hkernel]
      exact subnet_kernelDeleteIp4 hs
    have hgone : ∀ b ∈ old', b.id ≠ configured.id := by
      intro b hb
      have hb' : b ∈ kernelDeleteIp4 .promote k.id (old ++ new) := by
        rw [hkernel]
        exact mem_append_left _ hb
      exact (mem_kernelDeleteIp4 hb').1
    obtain ⟨new'', hadd, hr'⟩ := hr.add hu'
      (fun b hb => hs' b (mem_append_left _ hb))
      (fun b hb => hs' b (mem_append_right _ hb)) hgone
    refine ⟨old', new'', ?_, hpre _ _ hr'⟩
    unfold ip4SyncKnown
    dsimp only
    rw [hlook]
    dsimp only
    rw [if_pos hdel, hid, hkernel]
    exact hadd
  · have hk' : ∀ o ∈ old, o.id ≠ configured.id := fun o ho he => hk ⟨o, ho, he⟩
    have hr : Replacing toDelete pre suf old new := by
      refine { h with oldKnown := fun o ho => ⟨(h.oldKnown o ho).1, ?_⟩ }
      obtain ⟨c, hc, hco⟩ := (h.oldKnown o ho).2
      rcases mem_cons.mp hc with rfl | hc
      · exact absurd hco.symm (hk' o ho)
      · exact ⟨c, hc, hco⟩
    obtain ⟨new', hadd, hr'⟩ := hr.add hu' hso hsn hk'
    have hlook : lookup Ip4Address.id k.id (old ++ new) = none := by
      refine lookup_eq_none_iff.mpr fun b hb => ?_
      rcases mem_append.mp hb with hb | hb
      · exact hk' b hb
      · intro he
        obtain ⟨c, hc, hcb⟩ := (mem_newIds h.newIds).mp ⟨b, hb, he⟩
        have hdis := (nodup_append.mp (by simpa [KeyUnique] using hu)).2.2
        exact hdis c.id (mem_map_of_mem hc) k.id (by simp) hcb
    refine ⟨old, new', ?_, hpre _ _ hr'⟩
    unfold ip4SyncKnown
    dsimp only
    rw [hlook]
    exact hadd

theorem Replacing.foldl (now : ℕ) (h : Replacing toDelete pre suf old new)
    (hu : KeyUnique Ip4Address.id (pre ++ suf)) (hs : ∀ b ∈ old ++ new, b.subnet = s)
    (hks : ∀ k ∈ suf, k.subnet = s) :
    ∃ new', suf.foldl (ip4SyncKnown .promote now toDelete) (old ++ new) = new' ∧
      Replacing toDelete (pre ++ suf) [] [] new' := by
  induction suf generalizing pre old new with
  | nil =>
    have hold : old = [] := by
      refine eq_nil_iff_forall_not_mem.mpr fun o ho => ?_
      obtain ⟨c, hc, _⟩ := (h.oldKnown o ho).2
      cases hc
    subst hold
    exact ⟨new, rfl, by simpa using h⟩
  | cons k suf ih =>
    have hk := hks k mem_cons_self
    obtain ⟨old', new', hstep, hr⟩ := h.sync now hu fun b hb => (hs b hb).trans hk.symm
    have hs' : ∀ b ∈ old' ++ new', b.subnet = s := by
      rw [← hstep]
      exact subnet_ip4SyncKnown hs hk
    rw [foldl_cons, hstep, append_cons]
    exact ih hr (by simpa using hu) hs' fun k hk => hks k (mem_cons_of_mem _ hk)

theorem primaryIs_foldl_replacing {k : Ip4Address} {ks : List Ip4Address}
    (hu : KeyUnique Ip4Address.id (k :: ks)) (hku : KeyUnique Ip4Address.id kernel)
    (hone : OnePrimary kernel) (hs : ∀ b ∈ kernel, b.subnet = s)
    (hks : ∀ c ∈ k :: ks, c.subnet = s)
    (hdel : ∀ b ∈ kernel, (lookup Ip4Address.id b.id toDelete).isSome ∧ ∃ c ∈ k :: ks, c.id = b.id) :
    PrimaryIs k.id ((k :: ks).foldl (ip4SyncKnown .promote now toDelete) kernel) ∧
      ∀ c ∈ k :: ks, ∃ b ∈ (k :: ks).foldl (ip4SyncKnown .promote now toDelete) kernel,
        b.id = c.id := by
  have hinit : Replacing toDelete [] (k :: ks) kernel [] :=
    ⟨rfl, hku, hone, hdel, by simp, by simp⟩
  obtain ⟨new', hfold, hr⟩ := hinit.foldl now (by simpa using hu) (by simpa using hs) hks
  rw [append_nil] at hfold
  have hids : ∀ c ∈ k :: ks, ∃ b ∈ new', b.id = c.id :=
    fun c hc => (mem_newIds hr.newIds).mpr ⟨c, by simpa using hc, rfl⟩
  rw [hfold]
  refine ⟨⟨hids k mem_cons_self, fun b hb => ?_⟩, hids⟩
  rw [hr.newPrimary rfl b hb]
  exact ⟨fun he => (Option.some.inj he).symm, fun he => congrArg some he.symm⟩

end NetworkManager.Platform
