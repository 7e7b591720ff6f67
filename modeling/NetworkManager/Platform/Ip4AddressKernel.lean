import NetworkManager.Platform.Ip4AddressSync

/-!
# The kernel's IPv4 addresses, one subnet at a time

Deleting and adding an address changes the addresses of its subnet only. A subnet of
the kernel that has addresses has exactly one primary address.
-/

namespace NetworkManager.Platform

open Lib
open List hiding lookup_cons

def inSubnet (s : Ip4Subnet) (as : List Ip4Address) : List Ip4Address :=
  as.filter fun a => a.subnet = s

def Ip4AddressId.subnet (i : Ip4AddressId) : Ip4Subnet :=
  ⟨i.plen, ip4AddrClearHostAddress i.address i.plen⟩

theorem Ip4Address.subnet_id (a : Ip4Address) : a.id.subnet = a.subnet := rfl

theorem Ip4Address.subnet_of_id {a b : Ip4Address} (h : a.id = b.id) : a.subnet = b.subnet :=
  congrArg Ip4AddressId.subnet h

def primaries (as : List Ip4Address) : List Ip4Address := as.filter fun a => ¬ a.secondary

/-- The addresses of a subnet, if there are any, have exactly one primary address. -/
def OnePrimary (as : List Ip4Address) : Prop := as = [] ∨ ∃ p, primaries as = [p]

/-- A list of addresses that the kernel may have. -/
structure Ip4KernelOk (kernel : List Ip4Address) : Prop where
  unique : KeyUnique Ip4Address.id kernel
  onePrimary : ∀ s, OnePrimary (inSubnet s kernel)

variable {s s' : Ip4Subnet} {i : Ip4AddressId} {a b : Ip4Address} {as kernel : List Ip4Address}
  {mode : PromoteSecondaries}

theorem mem_inSubnet : a ∈ inSubnet s as ↔ a ∈ as ∧ a.subnet = s := by
  simp [inSubnet]

theorem mem_primaries : a ∈ primaries as ↔ a ∈ as ∧ a.secondary = false := by
  simp [primaries]

theorem OnePrimary.eq_of_mem (h : OnePrimary as) (ha : a ∈ as) (hb : b ∈ as)
    (hap : a.secondary = false) (hbp : b.secondary = false) : a = b := by
  rcases h with rfl | ⟨p, hp⟩
  · cases ha
  · have ha' : a ∈ primaries as := mem_primaries.mpr ⟨ha, hap⟩
    have hb' : b ∈ primaries as := mem_primaries.mpr ⟨hb, hbp⟩
    rw [hp, mem_singleton] at ha' hb'
    rw [ha', hb']

theorem OnePrimary.exists (h : OnePrimary as) (ha : a ∈ as) :
    ∃ p ∈ as, p.secondary = false := by
  rcases h with rfl | ⟨p, hp⟩
  · cases ha
  · have hmem : p ∈ primaries as := by simp [hp]
    exact ⟨p, (mem_primaries.mp hmem).1, (mem_primaries.mp hmem).2⟩

theorem lookup_inSubnet (h : i.subnet = s) :
    lookup Ip4Address.id i (inSubnet s kernel) = lookup Ip4Address.id i kernel := by
  induction kernel with
  | nil => rfl
  | cons a as ih =>
    unfold inSubnet at ih ⊢
    by_cases hs : a.subnet = s
    · rw [filter_cons_of_pos (by simpa using hs), lookup_cons, lookup_cons, ih]
    · have hne : a.id ≠ i := by
        rintro rfl
        exact hs h
      rw [filter_cons_of_neg (by simpa using hs), lookup_cons, if_neg hne, ih]

theorem eraseKey_inSubnet :
    inSubnet s (eraseKey Ip4Address.id i kernel) = eraseKey Ip4Address.id i (inSubnet s kernel) := by
  simp [inSubnet, eraseKey, filter_filter, Bool.and_comm]

theorem eraseKey_inSubnet_of_ne (h : i.subnet ≠ s) :
    inSubnet s (eraseKey Ip4Address.id i kernel) = inSubnet s kernel := by
  unfold inSubnet eraseKey
  rw [filter_filter]
  apply filter_congr
  intro a _
  by_cases hs : a.subnet = s
  · have hne : a.id ≠ i := by
      rintro rfl
      exact h hs
    simp [hne]
  · simp [hs]

/-! ## Promotion -/

theorem map_id_promoteFirst : (promoteFirst s as).map Ip4Address.id = as.map Ip4Address.id := by
  induction as with
  | nil => rfl
  | cons a as ih =>
    unfold promoteFirst
    split_ifs
    · rfl
    · rw [map_cons, map_cons, ih]

theorem inSubnet_cons_of_eq (h : a.subnet = s) : inSubnet s (a :: as) = a :: inSubnet s as :=
  filter_cons_of_pos (decide_eq_true h)

theorem inSubnet_cons_of_ne (h : a.subnet ≠ s) : inSubnet s (a :: as) = inSubnet s as :=
  filter_cons_of_neg (by simpa using h)

theorem inSubnet_promoteFirst : inSubnet s (promoteFirst s as) = promoteFirst s (inSubnet s as) := by
  induction as with
  | nil => rfl
  | cons a as ih =>
    by_cases hs : a.subnet = s
    · rw [inSubnet_cons_of_eq hs]
      unfold promoteFirst
      split_ifs with hc
      · exact inSubnet_cons_of_eq hs
      · rw [inSubnet_cons_of_eq hs, ih]
    · rw [inSubnet_cons_of_ne hs, promoteFirst, if_neg (fun h => hs h.1),
        inSubnet_cons_of_ne hs, ih]

theorem inSubnet_promoteFirst_of_ne (h : s' ≠ s) :
    inSubnet s (promoteFirst s' as) = inSubnet s as := by
  induction as with
  | nil => rfl
  | cons a as ih =>
    unfold promoteFirst
    split_ifs with hc
    · have hne : a.subnet ≠ s := hc.1 ▸ h
      have hne' : ({ a with secondary := false } : Ip4Address).subnet ≠ s := hne
      rw [inSubnet_cons_of_ne hne, inSubnet_cons_of_ne hne']
    · by_cases hs : a.subnet = s
      · rw [inSubnet_cons_of_eq hs, inSubnet_cons_of_eq hs, ih]
      · rw [inSubnet_cons_of_ne hs, inSubnet_cons_of_ne hs, ih]

theorem promoteFirst_cons (hs : a.subnet = s) (ha : a.secondary = true) :
    promoteFirst s (a :: as) = { a with secondary := false } :: as := by
  rw [promoteFirst, if_pos ⟨hs, ha⟩]

/-! ## Deleting -/

theorem inSubnet_kernelDeleteIp4 (h : i.subnet = s) :
    inSubnet s (kernelDeleteIp4 mode i kernel) = kernelDeleteIp4 mode i (inSubnet s kernel) := by
  unfold kernelDeleteIp4
  rw [lookup_inSubnet h]
  cases ha : lookup Ip4Address.id i kernel with
  | none => rfl
  | some a =>
    have hid : a.id = i := key_of_lookup ha
    have hs : a.subnet = s := by rw [← h, ← hid, Ip4Address.subnet_id]
    dsimp only
    split_ifs
    · exact eraseKey_inSubnet
    · cases mode with
      | promote =>
        dsimp only
        rw [hs, inSubnet_promoteFirst, eraseKey_inSubnet]
      | deleteAll =>
        dsimp only
        rw [← eraseKey_inSubnet]
        simp [inSubnet, filter_filter, Bool.and_comm]

theorem inSubnet_kernelDeleteIp4_of_ne (h : i.subnet ≠ s) :
    inSubnet s (kernelDeleteIp4 mode i kernel) = inSubnet s kernel := by
  unfold kernelDeleteIp4
  cases ha : lookup Ip4Address.id i kernel with
  | none => rfl
  | some a =>
    have hid : a.id = i := key_of_lookup ha
    have hs : a.subnet ≠ s := by rw [← Ip4Address.subnet_id, hid]; exact h
    dsimp only
    split_ifs
    · exact eraseKey_inSubnet_of_ne h
    · cases mode with
      | promote =>
        dsimp only
        rw [inSubnet_promoteFirst_of_ne hs, eraseKey_inSubnet_of_ne h]
      | deleteAll =>
        refine Eq.trans ?_ (eraseKey_inSubnet_of_ne h)
        unfold inSubnet
        rw [filter_filter]
        apply filter_congr
        intro b _
        by_cases hb : b.subnet = s
        · simp [hb, Ne.symm hs]
        · simp [hb]

theorem unique_kernelDeleteIp4 (hu : KeyUnique Ip4Address.id kernel) :
    KeyUnique Ip4Address.id (kernelDeleteIp4 mode i kernel) := by
  unfold kernelDeleteIp4
  split
  · exact hu
  · dsimp only
    split_ifs
    · exact hu.eraseKey
    · cases mode with
      | promote =>
        dsimp only
        unfold KeyUnique
        rw [map_id_promoteFirst]
        exact hu.eraseKey
      | deleteAll => exact hu.eraseKey.filter _

theorem mem_kernelDeleteIp4 (h : a ∈ kernelDeleteIp4 mode i kernel) :
    a.id ≠ i ∧ ∃ b ∈ kernel, b.id = a.id := by
  have herase : ∀ c ∈ eraseKey Ip4Address.id i kernel, c.id ≠ i ∧ ∃ b ∈ kernel, b.id = c.id :=
    fun c hc => ⟨(mem_eraseKey.mp hc).2, c, (mem_eraseKey.mp hc).1, rfl⟩
  unfold kernelDeleteIp4 at h
  cases ha : lookup Ip4Address.id i kernel with
  | none =>
    rw [ha] at h
    exact ⟨lookup_eq_none_iff.mp ha a h, a, h, rfl⟩
  | some o =>
    rw [ha] at h
    dsimp only at h
    split_ifs at h
    · exact herase a h
    · cases mode with
      | promote =>
        have hid : a.id ∈ (eraseKey Ip4Address.id i kernel).map Ip4Address.id := by
          rw [← map_id_promoteFirst]
          exact mem_map_of_mem h
        obtain ⟨c, hc, hca⟩ := mem_map.mp hid
        rw [← hca]
        exact herase c hc
      | deleteAll => exact herase a (mem_filter.mp h).1

theorem mem_kernelDeleteIp4_deleteAll (hp : a.secondary = false) (hne : a.id ≠ i) :
    a ∈ kernelDeleteIp4 .deleteAll i kernel ↔ a ∈ kernel := by
  unfold kernelDeleteIp4
  cases ho : lookup Ip4Address.id i kernel with
  | none => exact Iff.rfl
  | some o =>
    dsimp only
    split_ifs
    · simp [mem_eraseKey, hne]
    · simp [mem_eraseKey, hne, hp]

theorem sublist_kernelDeleteIp4_deleteAll :
    (kernelDeleteIp4 .deleteAll i kernel).Sublist kernel := by
  unfold kernelDeleteIp4
  split
  · exact List.Sublist.refl kernel
  · dsimp only
    split_ifs
    · exact filter_sublist
    · exact filter_sublist.trans filter_sublist

theorem primaries_promoteFirst (hs : ∀ b ∈ as, b.subnet = s) (hp : primaries as = []) :
    OnePrimary (promoteFirst s as) := by
  cases as with
  | nil => exact Or.inl rfl
  | cons a as =>
    have hall : ∀ b ∈ a :: as, b.secondary = true := by simpa [primaries] using hp
    have ha : a.secondary = true := hall a mem_cons_self
    rw [promoteFirst_cons (hs a mem_cons_self) ha]
    refine Or.inr ⟨{ a with secondary := false }, ?_⟩
    simpa [primaries] using fun b hb => hall b (mem_cons_of_mem a hb)

theorem primaries_eraseKey :
    primaries (eraseKey Ip4Address.id i as) = eraseKey Ip4Address.id i (primaries as) := by
  simp [primaries, eraseKey, filter_filter, Bool.and_comm]

theorem onePrimary_kernelDeleteIp4 (hu : KeyUnique Ip4Address.id as)
    (hs : ∀ b ∈ as, b.subnet = s) (h : OnePrimary as) :
    OnePrimary (kernelDeleteIp4 mode i as) := by
  unfold kernelDeleteIp4
  cases ho : lookup Ip4Address.id i as with
  | none => exact h
  | some o =>
    have hmem : o ∈ as := mem_of_lookup ho
    have hid : o.id = i := key_of_lookup ho
    obtain ⟨p, hp⟩ : ∃ p, primaries as = [p] := h.resolve_left (ne_nil_of_mem hmem)
    have hpmem : p ∈ primaries as := by simp [hp]
    dsimp only
    split_ifs with hsec
    · have hne : p.id ≠ i := by
        intro he
        have heq : p = o := eq_of_key_eq hu (mem_primaries.mp hpmem).1 hmem (he.trans hid.symm)
        rw [← heq, (mem_primaries.mp hpmem).2] at hsec
        cases hsec
      refine Or.inr ⟨p, ?_⟩
      rw [primaries_eraseKey, hp, eraseKey_cons, if_neg hne, eraseKey_nil]
    · have heq : o = p := h.eq_of_mem hmem (mem_primaries.mp hpmem).1 (by simpa using hsec)
        (mem_primaries.mp hpmem).2
      have hnone : primaries (eraseKey Ip4Address.id i as) = [] := by
        rw [primaries_eraseKey, hp, eraseKey_cons, if_pos (heq ▸ hid), eraseKey_nil]
      have hs' : ∀ b ∈ eraseKey Ip4Address.id i as, b.subnet = s :=
        fun b hb => hs b (mem_eraseKey.mp hb).1
      cases mode with
      | promote =>
        dsimp only
        rw [hs o hmem]
        exact primaries_promoteFirst hs' hnone
      | deleteAll =>
        left
        have hall : ∀ b ∈ eraseKey Ip4Address.id i as, b.secondary = true := by
          simpa [primaries] using hnone
        simp only [filter_eq_nil_iff]
        intro b hb
        simp [hs' b hb, hs o hmem, hall b hb]

theorem Ip4KernelOk.delete (h : Ip4KernelOk kernel) (i : Ip4AddressId) :
    Ip4KernelOk (kernelDeleteIp4 mode i kernel) := by
  refine ⟨unique_kernelDeleteIp4 h.unique, fun s => ?_⟩
  by_cases hs : i.subnet = s
  · rw [inSubnet_kernelDeleteIp4 hs]
    exact onePrimary_kernelDeleteIp4 (h.unique.filter _) (fun b hb => (mem_inSubnet.mp hb).2)
      (h.onePrimary s)
  · rw [inSubnet_kernelDeleteIp4_of_ne hs]
    exact h.onePrimary s

/-! ## Adding -/

theorem inSubnet_modifyKey {l : AddressLifetime} :
    inSubnet s (modifyKey Ip4Address.id i (fun b => { b with lifetime := l }) kernel) =
      modifyKey Ip4Address.id i (fun b => { b with lifetime := l }) (inSubnet s kernel) := by
  unfold inSubnet modifyKey
  rw [filter_map]
  congr 1
  apply filter_congr
  intro a _
  by_cases hid : a.id = i
  · simp only [Function.comp_apply, if_pos hid]
    rfl
  · simp only [Function.comp_apply, if_neg hid]

theorem any_subnet_inSubnet :
    (inSubnet s kernel).any (fun b => b.subnet = s) = kernel.any fun b => b.subnet = s := by
  simp [inSubnet, any_filter]

theorem inSubnet_append : inSubnet s (as ++ kernel) = inSubnet s as ++ inSubnet s kernel :=
  filter_append _ _

theorem inSubnet_kernelAddIp4 (h : a.subnet = s) :
    inSubnet s (kernelAddIp4 a kernel) = kernelAddIp4 a (inSubnet s kernel) := by
  have hid : a.id.subnet = s := h
  unfold kernelAddIp4
  rw [lookup_inSubnet hid]
  cases lookup Ip4Address.id a.id kernel with
  | some o => exact inSubnet_modifyKey
  | none =>
    dsimp only
    rw [inSubnet_append, h, any_subnet_inSubnet]
    congr 1
    exact inSubnet_cons_of_eq h

theorem inSubnet_kernelAddIp4_of_ne (h : a.subnet ≠ s) :
    inSubnet s (kernelAddIp4 a kernel) = inSubnet s kernel := by
  unfold kernelAddIp4
  cases lookup Ip4Address.id a.id kernel with
  | some o =>
    dsimp only
    rw [inSubnet_modifyKey]
    unfold modifyKey
    refine (map_congr_left (g := id) fun b hb => ?_).trans (map_id _)
    have hne : b.id ≠ a.id := fun he =>
      h ((Ip4Address.subnet_of_id he).symm.trans (mem_inSubnet.mp hb).2)
    exact if_neg hne
  | none =>
    dsimp only
    rw [inSubnet_append]
    refine (congrArg _ ?_).trans (append_nil _)
    exact inSubnet_cons_of_ne h

end NetworkManager.Platform
