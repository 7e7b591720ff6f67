import Mathlib.Data.List.Induction
import NetworkManager.Platform.Ip4AddressKernel

/-!
# Which IPv4 addresses interfere with the intended order

The indexes of the source give the first known address of a subnet, and the platform
addresses of a subnet with the primary address first. The loop over the platform
addresses selects the known addresses of those subnets whose primary address is not
the first known address.
-/

namespace NetworkManager.Platform

open Lib
open List hiding lookup_append lookup_cons

def secondaries (as : List Ip4Address) : List Ip4Address := as.filter fun a => a.secondary

def firstKnown (known : List Ip4Address) (s : Ip4Subnet) : Option Ip4Address :=
  (inSubnet s known).head?

/-- The primary address of a subnet is not the first known address of the subnet. -/
def Misordered (known plat : List Ip4Address) (s : Ip4Subnet) : Prop :=
  ∃ p ∈ plat, p.subnet = s ∧ p.secondary = false ∧ ∃ f, firstKnown known s = some f ∧ f.id ≠ p.id

variable {s : Ip4Subnet} {a x k f : Ip4Address} {as os known plat pre suf : List Ip4Address}
  {plan : Ip4Plan}

theorem mem_secondaries : a ∈ secondaries as ↔ a ∈ as ∧ a.secondary = true := by
  simp [secondaries]

theorem mem_of_firstKnown (h : firstKnown known s = some f) : f ∈ known ∧ f.subnet = s :=
  mem_inSubnet.mp (mem_of_mem_head? (Option.mem_def.mpr h))

theorem exists_firstKnown (hk : k ∈ known) : ∃ f, firstKnown known k.subnet = some f := by
  have hmem : k ∈ inSubnet k.subnet known := mem_inSubnet.mpr ⟨hk, rfl⟩
  obtain ⟨f, fs, hf⟩ := exists_cons_of_ne_nil (ne_nil_of_mem hmem)
  exact ⟨f, by rw [firstKnown, hf, List.head?_cons]⟩

/-! ## The indexes -/

theorem inSubnet_append_singleton :
    inSubnet s (as ++ [a]) = if a.subnet = s then inSubnet s as ++ [a] else inSubnet s as := by
  rw [inSubnet_append]
  split_ifs with hs
  · rw [inSubnet_cons_of_eq hs]
    rfl
  · rw [inSubnet_cons_of_ne hs]
    exact append_nil _

theorem ip4AddrSubnetsBuildIndex_append {considerFlags fullIndex : Bool} :
    ip4AddrSubnetsBuildIndex (as ++ [a]) considerFlags fullIndex =
      ip4AddrSubnetsAdd considerFlags fullIndex
        (ip4AddrSubnetsBuildIndex as considerFlags fullIndex) a := by
  simp [ip4AddrSubnetsBuildIndex]

theorem lookup_buildIndex_known :
    lookup SubnetEntry.subnet s (ip4AddrSubnetsBuildIndex known false false) =
      (firstKnown known s).map fun a => ⟨s, .plain a⟩ := by
  induction known using List.reverseRecOn with
  | nil => rfl
  | append_singleton known a ih =>
    rw [ip4AddrSubnetsBuildIndex_append, firstKnown, inSubnet_append_singleton]
    rw [firstKnown] at ih
    unfold ip4AddrSubnetsAdd
    by_cases hs : a.subnet = s
    · rw [hs, ih, if_pos rfl]
      cases hh : inSubnet s known with
      | nil => simp [lookup_append, ih, hh, lookup_cons]
      | cons b bs => simp [ih, hh]
    · rw [if_neg hs]
      cases lookup SubnetEntry.subnet a.subnet (ip4AddrSubnetsBuildIndex known false false) with
      | none => simp [lookup_append, lookup_cons, hs, ih]
      | some e => simpa using ih

def ordered (as : List Ip4Address) : List Ip4Address := (primaries as).reverse ++ secondaries as

def platEntry (s : Ip4Subnet) : List Ip4Address → Option SubnetEntry
  | [] => none
  | [a] => some ⟨s, .plain a⟩
  | a :: b :: as => some ⟨s, .addrList (ordered (a :: b :: as))⟩

theorem ordered_append :
    ordered (as ++ [a]) = if a.secondary then ordered as ++ [a] else a :: ordered as := by
  cases ha : a.secondary with
  | true => simp [ordered, primaries, secondaries, ha]
  | false => simp [ordered, primaries, secondaries, ha]

theorem platEntry_append (h : as ≠ []) :
    platEntry s (as ++ [a]) = some ⟨s, .addrList (ordered (as ++ [a]))⟩ := by
  match as, h with
  | [b], _ => rfl
  | b :: c :: bs, _ => rfl

theorem platEntry_toList (h : as ≠ []) :
    ∃ e, platEntry s as = some ⟨s, e⟩ ∧ e.toList = ordered as := by
  match as, h with
  | [b], _ =>
    refine ⟨.plain b, rfl, ?_⟩
    cases hb : b.secondary with
    | true => simp [ordered, primaries, secondaries, hb, SubnetAddrs.toList]
    | false => simp [ordered, primaries, secondaries, hb, SubnetAddrs.toList]
  | b :: c :: bs, _ => exact ⟨_, rfl, rfl⟩

theorem lookup_buildIndex_plat :
    lookup SubnetEntry.subnet s (ip4AddrSubnetsBuildIndex plat true true) =
      platEntry s (inSubnet s plat) := by
  induction plat using List.reverseRecOn with
  | nil => rfl
  | append_singleton plat a ih =>
    rw [ip4AddrSubnetsBuildIndex_append, inSubnet_append_singleton]
    unfold ip4AddrSubnetsAdd
    by_cases hs : a.subnet = s
    · rw [hs, ih, if_pos rfl]
      by_cases hnil : inSubnet s plat = []
      · simp [hnil, platEntry, lookup_append, ih, lookup_cons]
      · obtain ⟨e, he, helist⟩ := platEntry_toList (s := s) hnil
        rw [he, platEntry_append hnil, ordered_append]
        cases ha : a.secondary with
        | true => simp [helist]
        | false => simp [helist]
    · rw [if_neg hs]
      cases lookup SubnetEntry.subnet a.subnet (ip4AddrSubnetsBuildIndex plat true true) with
      | none => simp [lookup_append, lookup_cons, hs, ih]
      | some e => simp [ih, Ne.symm hs]

theorem isSecondary_known (hf : firstKnown known k.subnet = some f) :
    (ip4AddrSubnetsIsSecondary k (ip4AddrSubnetsBuildIndex known false false)).1 =
      decide (k ≠ f) := by
  unfold ip4AddrSubnetsIsSecondary
  rw [lookup_buildIndex_known, hf]
  rfl

theorem OnePrimary.ordered (h : OnePrimary as) (ha : a ∈ as) (hp : a.secondary = false) :
    ordered as = a :: secondaries as := by
  obtain ⟨p, hp'⟩ := h.resolve_left (ne_nil_of_mem ha)
  have hpmem : p ∈ primaries as := by simp [hp']
  have hap : a = p := h.eq_of_mem ha (mem_primaries.mp hpmem).1 hp (mem_primaries.mp hpmem).2
  rw [NetworkManager.Platform.ordered, hp', hap]
  rfl

theorem isSecondary_plat_primary (h : OnePrimary (inSubnet a.subnet plat)) (ha : a ∈ plat)
    (hp : a.secondary = false) :
    ip4AddrSubnetsIsSecondary a (ip4AddrSubnetsBuildIndex plat true true) = (false, none) ∧
        secondaries (inSubnet a.subnet plat) = [] ∨
      ip4AddrSubnetsIsSecondary a (ip4AddrSubnetsBuildIndex plat true true) =
        (false, some (a :: secondaries (inSubnet a.subnet plat))) := by
  have hmem : a ∈ inSubnet a.subnet plat := mem_inSubnet.mpr ⟨ha, rfl⟩
  have hord := h.ordered hmem hp
  unfold ip4AddrSubnetsIsSecondary
  rw [lookup_buildIndex_plat]
  match has : inSubnet a.subnet plat with
  | [] =>
    rw [has] at hmem
    cases hmem
  | [b] =>
    rw [has, mem_singleton] at hmem
    subst hmem
    left
    simp [platEntry, secondaries, hp]
  | b :: c :: bs =>
    rw [has] at hord
    right
    simp [platEntry, hord]

theorem isSecondary_plat_secondary (h : OnePrimary (inSubnet a.subnet plat)) (ha : a ∈ plat)
    (hp : a.secondary = true) :
    (ip4AddrSubnetsIsSecondary a (ip4AddrSubnetsBuildIndex plat true true)).1 = true := by
  have hmem : a ∈ inSubnet a.subnet plat := mem_inSubnet.mpr ⟨ha, rfl⟩
  obtain ⟨p, hpmem, hpp⟩ := h.exists hmem
  have hord := h.ordered hpmem hpp
  have hne : p ≠ a := by
    rintro rfl
    rw [hpp] at hp
    cases hp
  unfold ip4AddrSubnetsIsSecondary
  rw [lookup_buildIndex_plat]
  match has : inSubnet a.subnet plat with
  | [] =>
    rw [has] at hmem
    cases hmem
  | [b] =>
    rw [has, mem_singleton] at hmem hpmem
    exact absurd (hpmem.trans hmem.symm) hne
  | b :: c :: bs =>
    rw [has] at hord
    simp [platEntry, hord, hne]

/-! ## The plan -/

theorem mem_foldl_ip4PlanSecondary :
    (x ∈ (os.foldl (ip4PlanSecondary known) plan).platHandled ↔
      x ∈ plan.platHandled ∨ x ∈ os) ∧
    (x ∈ (os.foldl (ip4PlanSecondary known) plan).platAddrsToDelete ↔
      x ∈ plan.platAddrsToDelete ∨
        (x ∈ os ∧ (lookup Ip4Address.id x.id known).isSome ∧ x ∉ plan.platHandled)) := by
  induction os generalizing plan with
  | nil => simp
  | cons o os ih =>
    rw [foldl_cons]
    unfold ip4PlanSecondary
    by_cases hh : o ∈ plan.platHandled
    · rw [if_pos hh]
      refine ⟨ih.1.trans ?_, ih.2.trans ?_⟩
      · by_cases hx : x = o
        · simp [hx, hh]
        · simp [hx]
      · by_cases hx : x = o
        · simp [hx, hh]
        · simp [hx]
    · rw [if_neg hh]
      split_ifs with hk
      · refine ⟨ih.1.trans ?_, ih.2.trans ?_⟩
        · simp only [mem_cons, or_assoc]
          exact or_left_comm
        · by_cases hx : x = o
          · simp [hx, hh, hk]
          · simp [hx]
      · refine ⟨ih.1.trans ?_, ih.2.trans ?_⟩
        · simp only [mem_cons, or_assoc]
          exact or_left_comm
        · by_cases hx : x = o
          · simp [hx, hk]
          · simp [hx]

/-- A platform address is of the wrong role, and has to be deleted. With a primary
address go the secondary addresses of its subnet. -/
theorem mem_ip4PlanStep_mismatch (h : OnePrimary (inSubnet a.subnet plat)) (ha : a ∈ plat)
    (hh : a ∉ plan.platHandled) (hk : lookup Ip4Address.id a.id known = some k)
    (hne : (ip4AddrSubnetsIsSecondary k (ip4AddrSubnetsBuildIndex known false false)).1 ≠
      a.secondary) :
    let plan' := ip4PlanStep known (ip4AddrSubnetsBuildIndex known false false)
      (ip4AddrSubnetsBuildIndex plat true true) plan a
    let dragged := a.secondary = false ∧ x ∈ secondaries (inSubnet a.subnet plat)
    (x ∈ plan'.platHandled ↔ x = a ∨ x ∈ plan.platHandled ∨ dragged) ∧
      (x ∈ plan'.platAddrsToDelete ↔ x = a ∨ x ∈ plan.platAddrsToDelete ∨
        dragged ∧ (lookup Ip4Address.id x.id known).isSome ∧ x ∉ plan.platHandled) := by
  unfold ip4PlanStep
  rw [if_neg hh, hk]
  dsimp only
  rw [if_neg hne]
  cases hp : a.secondary with
  | true =>
    have hsec := isSecondary_plat_secondary h ha hp
    split
    · next heq =>
      rw [heq] at hsec
      cases hsec
    · simp
  | false =>
    rcases isSecondary_plat_primary h ha hp with ⟨heq, hnil⟩ | heq
    · rw [heq]
      simp [hnil]
    · rw [heq]
      have hna : x ∈ secondaries (inSubnet a.subnet plat) → x ≠ a := by
        rintro hx rfl
        have hsec := (mem_secondaries.mp hx).2
        rw [hp] at hsec
        cases hsec
      refine ⟨mem_foldl_ip4PlanSecondary.1.trans ?_, mem_foldl_ip4PlanSecondary.2.trans ?_⟩
      · simp [or_assoc]
      · simp only [tail_cons, mem_cons, not_or, true_and, or_assoc]
        constructor
        · rintro (hx | hx | ⟨hx, hkn, -, hnh⟩)
          · exact Or.inl hx
          · exact Or.inr (Or.inl hx)
          · exact Or.inr (Or.inr ⟨hx, hkn, hnh⟩)
        · rintro (hx | hx | ⟨hx, hkn, hnh⟩)
          · exact Or.inl hx
          · exact Or.inr (Or.inl hx)
          · exact Or.inr (Or.inr ⟨hx, hkn, hna hx, hnh⟩)

/-- What the loop has found out after the platform addresses `pre`. -/
structure PlanInv (known plat pre : List Ip4Address) (plan : Ip4Plan) : Prop where
  toDelete : ∀ x ∈ plan.platAddrsToDelete, x ∈ plat ∧
    (lookup Ip4Address.id x.id known).isSome ∧ Misordered known plat x.subnet
  handled : ∀ x ∈ plan.platHandled, (lookup Ip4Address.id x.id known).isSome →
    x ∈ plan.platAddrsToDelete
  handledOrigin : ∀ x ∈ plan.platHandled, x ∈ pre ∨ x.secondary = true
  done : ∀ p ∈ pre, p.secondary = false → (lookup Ip4Address.id p.id known).isSome →
    Misordered known plat p.subnet → ∀ x ∈ plat, x.subnet = p.subnet →
    (lookup Ip4Address.id x.id known).isSome → x ∈ plan.platAddrsToDelete

section

variable (hu : KeyUnique Ip4Address.id known) (hok : Ip4KernelOk plat)

include hu hok

theorem mismatch_misordered (ha : a ∈ plat) (hk : lookup Ip4Address.id a.id known = some k) :
    ((ip4AddrSubnetsIsSecondary k (ip4AddrSubnetsBuildIndex known false false)).1 ≠ a.secondary →
      Misordered known plat a.subnet) ∧
    ((ip4AddrSubnetsIsSecondary k (ip4AddrSubnetsBuildIndex known false false)).1 = a.secondary →
      a.secondary = false → ¬ Misordered known plat a.subnet) := by
  have hid : k.id = a.id := key_of_lookup hk
  have hmem : k ∈ known := mem_of_lookup hk
  have hsub : k.subnet = a.subnet := Ip4Address.subnet_of_id hid
  obtain ⟨f, hf⟩ := exists_firstKnown hmem
  have hf' : firstKnown known a.subnet = some f := hsub ▸ hf
  have hfk : k ≠ f ↔ f.id ≠ a.id := by
    refine not_congr ⟨fun he => by rw [← he, hid], fun he => ?_⟩
    exact eq_of_key_eq hu hmem (mem_of_firstKnown hf).1 (hid.trans he.symm)
  have h : OnePrimary (inSubnet a.subnet plat) := hok.onePrimary a.subnet
  have hamem : a ∈ inSubnet a.subnet plat := mem_inSubnet.mpr ⟨ha, rfl⟩
  rw [isSecondary_known hf]
  cases hp : a.secondary with
  | true =>
    refine ⟨fun hne => ?_, nofun⟩
    have heq : k = f := by simpa using hne
    obtain ⟨p, hpmem, hpp⟩ := h.exists hamem
    refine ⟨p, (mem_inSubnet.mp hpmem).1, (mem_inSubnet.mp hpmem).2, hpp, f, hf', ?_⟩
    rw [← heq, hid]
    intro he
    rw [eq_of_key_eq hok.unique ha (mem_inSubnet.mp hpmem).1 he, hpp] at hp
    cases hp
  | false =>
    refine ⟨fun hne => ⟨a, ha, rfl, hp, f, hf', hfk.mp (by simpa using hne)⟩, fun heq _ => ?_⟩
    rintro ⟨p, hpmem, hps, hpp, g, hg, hgp⟩
    have hpa : p = a := h.eq_of_mem (mem_inSubnet.mpr ⟨hpmem, hps⟩) hamem hpp hp
    rw [hf'] at hg
    have hgf : f = g := Option.some.inj hg
    rw [← hgf, hpa] at hgp
    exact absurd (hfk.mpr hgp) (by simpa using heq)

theorem PlanInv.step (h : PlanInv known plat pre plan) (ha : a ∈ plat) (hpre : a ∉ pre) :
    PlanInv known plat (pre ++ [a]) (ip4PlanStep known (ip4AddrSubnetsBuildIndex known false false)
      (ip4AddrSubnetsBuildIndex plat true true) plan a) := by
  have hone := hok.onePrimary a.subnet
  by_cases hh : a ∈ plan.platHandled
  · -- a handled address is skipped, and it is not a primary one
    have hsec := (h.handledOrigin a hh).resolve_left hpre
    unfold ip4PlanStep
    rw [if_pos hh]
    refine ⟨h.toDelete, h.handled, fun x hx => ?_, fun p hp hpp => ?_⟩
    · exact (h.handledOrigin x hx).imp_left (mem_append_left _)
    · rcases mem_append.mp hp with hp | hp
      · exact h.done p hp hpp
      · rw [mem_singleton.mp hp, hsec] at hpp
        cases hpp
  cases hk : lookup Ip4Address.id a.id known with
  | none =>
    -- an external address is not touched
    unfold ip4PlanStep
    rw [if_neg hh, hk]
    refine ⟨h.toDelete, fun x hx hkn => ?_, fun x hx => ?_, fun p hp hpp hkn => ?_⟩
    · rcases mem_cons.mp hx with rfl | hx
      · rw [hk] at hkn
        cases hkn
      · exact h.handled x hx hkn
    · rcases mem_cons.mp hx with rfl | hx
      · exact Or.inl (mem_append_right _ mem_cons_self)
      · exact (h.handledOrigin x hx).imp_left (mem_append_left _)
    · rcases mem_append.mp hp with hp | hp
      · exact h.done p hp hpp hkn
      · rw [mem_singleton.mp hp, hk] at hkn
        cases hkn
  | some k =>
    have hmis := mismatch_misordered hu hok ha hk
    by_cases heq : (ip4AddrSubnetsIsSecondary k (ip4AddrSubnetsBuildIndex known false false)).1 =
        a.secondary
    · -- an address with the right role stays
      unfold ip4PlanStep
      rw [if_neg hh, hk]
      dsimp only
      rw [if_pos heq]
      refine ⟨h.toDelete, h.handled, fun x hx => ?_, fun p hp hpp hkn hm => ?_⟩
      · exact (h.handledOrigin x hx).imp_left (mem_append_left _)
      · rcases mem_append.mp hp with hp | hp
        · exact h.done p hp hpp hkn hm
        · have hpa := mem_singleton.mp hp
          subst hpa
          exact absurd hm (hmis.2 heq hpp)
    · -- an address of the wrong role goes, a primary one with the rest of the subnet
      have hbad := hmis.1 heq
      have hmem := fun x => mem_ip4PlanStep_mismatch (x := x) hone ha hh hk heq
      have hdrag : ∀ {x}, x ∈ secondaries (inSubnet a.subnet plat) →
          x ∈ plat ∧ x.subnet = a.subnet ∧ x.secondary = true := fun hx =>
        have hx' := mem_secondaries.mp hx
        ⟨(mem_inSubnet.mp hx'.1).1, (mem_inSubnet.mp hx'.1).2, hx'.2⟩
      refine ⟨fun x hx => ?_, fun x hx hkn => ?_, fun x hx => ?_, fun p hp hpp hkn hm x hx hxs hxk => ?_⟩
      · rcases (hmem x).2.mp hx with rfl | hx | ⟨⟨_, hx⟩, hxk, _⟩
        · exact ⟨ha, by rw [hk]; rfl, hbad⟩
        · exact h.toDelete x hx
        · exact ⟨(hdrag hx).1, hxk, (hdrag hx).2.1 ▸ hbad⟩
      · rw [(hmem x).2]
        rcases (hmem x).1.mp hx with hx | hx | hx
        · exact Or.inl hx
        · exact Or.inr (Or.inl (h.handled x hx hkn))
        · by_cases hxh : x ∈ plan.platHandled
          · exact Or.inr (Or.inl (h.handled x hxh hkn))
          · exact Or.inr (Or.inr ⟨hx, hkn, hxh⟩)
      · rcases (hmem x).1.mp hx with rfl | hx | ⟨_, hx⟩
        · exact Or.inl (mem_append_right _ mem_cons_self)
        · exact (h.handledOrigin x hx).imp_left (mem_append_left _)
        · exact Or.inr (hdrag hx).2.2
      · rw [(hmem x).2]
        rcases mem_append.mp hp with hp | hp
        · exact Or.inr (Or.inl (h.done p hp hpp hkn hm x hx hxs hxk))
        · have hpa := mem_singleton.mp hp
          subst hpa
          by_cases hxp : x.secondary = false
          · exact Or.inl (hone.eq_of_mem (mem_inSubnet.mpr ⟨hx, hxs⟩) (mem_inSubnet.mpr ⟨ha, rfl⟩)
              hxp hpp)
          · by_cases hxh : x ∈ plan.platHandled
            · exact Or.inr (Or.inl (h.handled x hxh hxk))
            · have hxsec : x.secondary = true := by simpa using hxp
              have hxmem : x ∈ secondaries (inSubnet p.subnet plat) :=
                mem_secondaries.mpr ⟨mem_inSubnet.mpr ⟨hx, hxs⟩, hxsec⟩
              exact Or.inr (Or.inr ⟨⟨hpp, hxmem⟩, hxk, hxh⟩)

theorem PlanInv.foldl (h : PlanInv known plat pre plan) (hsplit : plat = pre ++ suf) :
    PlanInv known plat plat (suf.foldl (ip4PlanStep known
      (ip4AddrSubnetsBuildIndex known false false) (ip4AddrSubnetsBuildIndex plat true true))
      plan) := by
  induction suf generalizing pre plan with
  | nil =>
    rw [append_nil] at hsplit
    rw [← hsplit] at h
    exact h
  | cons a suf ih =>
    have hnodup : (pre ++ a :: suf).Nodup := by
      rw [← hsplit]
      exact List.Nodup.of_map _ hok.unique
    have ha : a ∈ plat := by rw [hsplit]; simp
    have hpre : a ∉ pre := fun hp =>
      (nodup_append.mp hnodup).2.2 a hp a mem_cons_self rfl
    rw [foldl_cons]
    exact ih (h.step hu hok ha hpre) (by rw [hsplit, append_cons])

theorem mem_ip4AddrsToDelete
    (hprimary : ∀ p ∈ plat, p.secondary = false → p.subnet = x.subnet → (lookup Ip4Address.id p.id known).isSome) :
    x ∈ ip4AddrsToDelete known plat ↔ x ∈ plat ∧ (lookup Ip4Address.id x.id known).isSome ∧
      Misordered known plat x.subnet := by
  have hinit : PlanInv known plat [] ⟨[], []⟩ := by
    refine ⟨?_, ?_, ?_, ?_⟩ <;> intro x hx <;> cases hx
  have hinv := hinit.foldl hu hok (nil_append plat).symm
  refine ⟨hinv.toDelete x, fun ⟨hx, hkn, hm⟩ => ?_⟩
  obtain ⟨p, hp, hps, hpp, hf⟩ := id hm
  refine hinv.done p hp hpp (hprimary p hp hpp hps) ?_ x hx hps.symm hkn
  rw [hps]
  exact hm

end

end NetworkManager.Platform
