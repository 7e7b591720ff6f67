import Mathlib.Data.Finset.Card
import NetworkManager.Core.DnsManager

/-!
# Which configuration has which domain

The pass over the configurations takes a domain for a configuration exactly if no smaller
priority has it, and no smaller negative priority has a domain above it. The table of the
domains that are taken grows by entries of the current priority only, which do not matter
for the configurations of that priority.
-/

namespace NetworkManager.Core

/-! ## Domains and their ancestors -/

open List

/-- `a` is a domain above `d`, the root included. -/
def IsProperAncestor (a d : List Char) : Prop :=
  (a = [] ∧ d ≠ []) ∨ (a ≠ [] ∧ ∃ below, d = below ++ '.' :: a)

/-- `a` follows a dot in `s`. -/
def FollowsDot (a s : List Char) : Prop := a ≠ [] ∧ ∃ below, s = below ++ '.' :: a

theorem followsDot_nil {a : List Char} : ¬ FollowsDot a [] := by
  rintro ⟨_, below, h⟩
  exact absurd (congrArg List.length h) (by simp)

theorem followsDot_cons {a s : List Char} {c : Char} :
    FollowsDot a (c :: s) ↔ (c = '.' ∧ a = s ∧ s ≠ []) ∨ FollowsDot a s := by
  constructor
  · rintro ⟨ha, below, h⟩
    cases below with
    | nil =>
      obtain ⟨hc, hs⟩ := List.cons.inj h
      exact Or.inl ⟨hc, hs.symm, hs ▸ ha⟩
    | cons b below =>
      obtain ⟨_, hs⟩ := List.cons.inj h
      exact Or.inr ⟨ha, below, hs⟩
  · rintro (⟨rfl, rfl, hs⟩ | ⟨ha, below, rfl⟩)
    · exact ⟨hs, [], rfl⟩
    · exact ⟨ha, c :: below, rfl⟩

theorem isProperAncestor_iff {a d : List Char} :
    IsProperAncestor a d ↔ (a = [] ∧ d ≠ []) ∨ FollowsDot a d := Iff.rfl

/-! ## The table of the domains that are taken -/

/-- The table has the domain with a negative priority that is smaller. -/
def Shadows (ht : DomainTrack) (priority : ℤ) (a : List Char) : Prop :=
  ∃ q, ht a = some q ∧ q < 0 ∧ q < priority

/-- Nothing in the table keeps the domain from being taken. -/
structure Free (ht : DomainTrack) (priority : ℤ) (d : List Char) : Prop where
  unclaimed : ∀ q, ht d = some q → priority ≤ q
  unshadowed : ∀ a, IsProperAncestor a d → ¬ Shadows ht priority a

/-- The table in the course of the pass, at the given priority. -/
structure TrackInvariant (ht : DomainTrack) (priority : ℤ) : Prop where
  le : ∀ d q, ht d = some q → q ≤ priority
  free : ∀ d q, ht d = some q → ∀ a, IsProperAncestor a d → ¬ Shadows ht q a

variable {ht ht' : DomainTrack} {priority : ℤ} {d a : List Char} {priority' : ℤ}
  {asked : List String} {ipData : DnsConfigIpData}

section

variable (h : TrackInvariant ht priority)

include h

theorem TrackInvariant.mono (hle : priority ≤ priority') : TrackInvariant ht priority' :=
  ⟨fun d q hq => (h.le d q hq).trans hle, h.free⟩

theorem domainTrackParentShadows_spec (parent : List Char) :
    ∃ b, domainTrackParentShadows ht parent priority = some b ∧
      (b = true ↔ Shadows ht priority parent) := by
  unfold domainTrackParentShadows Shadows
  cases hparent : ht parent with
  | none => exact ⟨false, rfl, by simp⟩
  | some q =>
    have hle := h.le parent q hparent
    have hnot : ¬ priority < q := by omega
    exact ⟨decide (q < 0 ∧ q < priority), by simp [hnot], by simp⟩

theorem domainTrackParentsLoop_spec (rest : List Char) :
    ∃ b, domainTrackParentsLoop ht priority rest = some b ∧
      (b = true ↔ ∃ a, FollowsDot a rest ∧ Shadows ht priority a) := by
  induction rest with
  | nil => exact ⟨false, rfl, by simp [followsDot_nil]⟩
  | cons c rest ih =>
    obtain ⟨b, hb, hiff⟩ := ih
    unfold domainTrackParentsLoop
    by_cases hc : c = '.'
    · by_cases hrest : rest = []
      · subst hrest
        exact ⟨false, by simp [hc], by simp [followsDot_cons, followsDot_nil]⟩
      · obtain ⟨b', hb', hiff'⟩ := domainTrackParentShadows_spec h rest
        have hsplit : (∃ a, FollowsDot a (c :: rest) ∧ Shadows ht priority a) ↔
            Shadows ht priority rest ∨ ∃ a, FollowsDot a rest ∧ Shadows ht priority a := by
          simp only [followsDot_cons, hc, hrest, true_and, ne_eq, not_false_eq_true, and_true,
            or_and_right, exists_or, exists_eq_left]
        rw [if_pos hc, if_neg hrest, hb', hsplit]
        cases b' with
        | true => exact ⟨true, rfl, by simp [hiff'.mp rfl]⟩
        | false =>
          have hno : ¬ Shadows ht priority rest := fun hs => Bool.noConfusion (hiff'.mpr hs)
          exact ⟨b, hb, by simp [hno, hiff]⟩
    · rw [if_neg hc]
      exact ⟨b, hb, by simp [followsDot_cons, hc, hiff]⟩

theorem domainTrackIsShadowed_spec (hd : ht d = none) :
    ∃ b, domainTrackIsShadowed ht d priority = some b ∧
      (b = true ↔ ∃ a, IsProperAncestor a d ∧ Shadows ht priority a) := by
  obtain ⟨b, hb, hiff⟩ := domainTrackParentShadows_spec h []
  obtain ⟨b', hb', hiff'⟩ := domainTrackParentsLoop_spec h d
  have hsplit : (∃ a, IsProperAncestor a d ∧ Shadows ht priority a) ↔
      Shadows ht priority [] ∨ ∃ a, FollowsDot a d ∧ Shadows ht priority a := by
    simp only [isProperAncestor_iff, or_and_right, exists_or, and_assoc, exists_eq_left]
    refine or_congr ⟨fun hs => hs.2, fun hs => ⟨fun hnil => ?_, hs⟩⟩ Iff.rfl
    obtain ⟨q, hq, _⟩ := hs
    rw [hnil, hq] at hd
    exact absurd hd (by simp)
  rw [domainTrackIsShadowed, hd, hb, hb', hsplit]
  cases b with
  | true => exact ⟨true, rfl, by simp [hiff.mp rfl]⟩
  | false =>
    have hno : ¬ Shadows ht priority [] := fun hs => Bool.noConfusion (hiff.mpr hs)
    exact ⟨b', rfl, by simp [hno, hiff']⟩

theorem domainTrackAdd_spec (d : List Char) :
    ∃ ht' keep, domainTrackAdd ht d priority = some (ht', keep) ∧
      (keep = true ↔ Free ht priority d) ∧
      ∀ x, ht' x = if keep = true ∧ x = d then some priority else ht x := by
  unfold domainTrackAdd
  cases hd : ht d with
  | some q =>
    have hle := h.le d q hd
    have hnot : ¬ priority < q := by omega
    dsimp only
    rw [if_neg hnot]
    by_cases hlt : q < priority
    · rw [if_pos hlt]
      refine ⟨ht, false, rfl, ?_, by simp⟩
      simp only [Bool.false_eq_true, false_iff]
      intro hfree
      have := hfree.unclaimed q hd
      omega
    · rw [if_neg hlt]
      have hq : q = priority := by omega
      refine ⟨_, true, rfl, ?_, by simp⟩
      refine iff_of_true rfl ⟨fun q' hq' => ?_, hq ▸ h.free d q hd⟩
      have hqq : q = q' := Option.some.inj (hd.symm.trans hq')
      omega
  | none =>
    obtain ⟨b, hb, hiff⟩ := domainTrackIsShadowed_spec h hd
    rw [hb]
    cases b with
    | true =>
      obtain ⟨a, ha, hs⟩ := hiff.mp rfl
      refine ⟨ht, false, rfl, ?_, by simp⟩
      exact iff_of_false Bool.false_ne_true fun hfree => hfree.unshadowed a ha hs
    | false =>
      refine ⟨_, true, rfl, ?_, by simp⟩
      refine iff_of_true rfl ⟨fun q hq => absurd (hd.symm.trans hq) (by simp), fun a ha hs => ?_⟩
      exact Bool.noConfusion (hiff.mpr ⟨a, ha, hs⟩)

end

/-! ## Growing at one priority -/

/-- The table got entries of the priority that were free. -/
def Grown (ht : DomainTrack) (priority : ℤ) (ht' : DomainTrack) : Prop :=
  ∀ x, ht' x = ht x ∨ (ht' x = some priority ∧ Free ht priority x)

theorem Grown.refl (ht : DomainTrack) (priority : ℤ) : Grown ht priority ht :=
  fun _ => Or.inl rfl

theorem Grown.shadows_iff (h : Grown ht priority ht') (a : List Char) :
    Shadows ht' priority a ↔ Shadows ht priority a := by
  rcases h a with ha | ⟨ha, hfree⟩
  · simp only [Shadows, ha]
  · refine iff_of_false ?_ ?_
    · rintro ⟨q, hq, _, hlt⟩
      have hqp : priority = q := Option.some.inj (ha.symm.trans hq)
      omega
    · rintro ⟨q, hq, _, hlt⟩
      have := hfree.unclaimed q hq
      omega

theorem Grown.free_iff (h : Grown ht priority ht') (d : List Char) :
    Free ht' priority d ↔ Free ht priority d := by
  have hshadows : (∀ a, IsProperAncestor a d → ¬ Shadows ht' priority a) ↔
      ∀ a, IsProperAncestor a d → ¬ Shadows ht priority a := by
    simp only [h.shadows_iff]
  have hunclaimed : (∀ q, ht' d = some q → priority ≤ q) ↔ ∀ q, ht d = some q → priority ≤ q := by
    rcases h d with hd | ⟨hd, hfree⟩
    · rw [hd]
    · refine iff_of_true (fun q hq => ?_) hfree.unclaimed
      have hqp : priority = q := Option.some.inj (hd.symm.trans hq)
      omega
  exact ⟨fun hf => ⟨hunclaimed.mp hf.unclaimed, hshadows.mp hf.unshadowed⟩,
    fun hf => ⟨hunclaimed.mpr hf.unclaimed, hshadows.mpr hf.unshadowed⟩⟩

theorem Grown.trackInvariant (h : Grown ht priority ht') (hinv : TrackInvariant ht priority) :
    TrackInvariant ht' priority where
  le d q hq := by
    rcases h d with hd | ⟨hd, _⟩
    · exact hinv.le d q (hd.symm.trans hq)
    · have hqp : priority = q := Option.some.inj (hd.symm.trans hq)
      omega
  free d q hq a ha hs := by
    obtain ⟨q', hq', hneg, hlt⟩ := hs
    rcases h a with haold | ⟨hanew, _⟩
    · rcases h d with hdold | ⟨hdnew, hfree⟩
      · exact hinv.free d q (hdold.symm.trans hq) a ha ⟨q', haold.symm.trans hq', hneg, hlt⟩
      · have hqp : priority = q := Option.some.inj (hdnew.symm.trans hq)
        exact hfree.unshadowed a ha ⟨q', haold.symm.trans hq', hneg, hqp ▸ hlt⟩
    · -- an entry of the current priority is not smaller than any other
      have hqp : priority = q' := Option.some.inj (hanew.symm.trans hq')
      rcases h d with hdold | ⟨hdnew, _⟩
      · have := hinv.le d q (hdold.symm.trans hq)
        omega
      · have := Option.some.inj (hdnew.symm.trans hq)
        omega

theorem Grown.add {ht₀ : DomainTrack} (h : Grown ht₀ priority ht)
    (hinv : TrackInvariant ht₀ priority) (d : List Char) :
    ∃ ht' keep, domainTrackAdd ht d priority = some (ht', keep) ∧
      (keep = true ↔ Free ht₀ priority d) ∧
      (∀ x, ht' x = if keep = true ∧ x = d then some priority else ht x) ∧
      Grown ht₀ priority ht' := by
  obtain ⟨ht', keep, hadd, hkeep, hht'⟩ := domainTrackAdd_spec (h.trackInvariant hinv) d
  rw [h.free_iff] at hkeep
  refine ⟨ht', keep, hadd, hkeep, hht', fun x => ?_⟩
  rw [hht' x]
  split_ifs with hx
  · exact Or.inr ⟨rfl, hx.2 ▸ hkeep.mp hx.1⟩
  · exact h x

/-! ## The domains of one configuration -/

def domainOf (domainFull : String) : List Char := (parseDnsDomain domainFull).getD []

theorem parseDnsDomain_eq_some {domainFull : String} (h : domainFull ≠ "") :
    parseDnsDomain domainFull = some (domainOf domainFull) := by
  unfold domainOf parseDnsDomain
  split
  · rename_i hnil
    exact absurd (String.toList_eq_nil_iff.mp hnil) h
  · rfl
  · rfl

/-- The configuration keeps the domain. -/
def DnsConfigDomains.Keeps (domains : DnsConfigDomains) (d : List Char) : Prop :=
  (∃ full ∈ domains.search, domainOf full = d) ∨ (d = [] ∧ domains.hasDefaultRoute = true)

open scoped Classical in
/-- The state of the loop after the domains that were asked for. -/
structure DomainsLoop.After (ht : DomainTrack) (priority : ℤ) (asked : List String)
    (s : DomainsLoop) : Prop where
  domains : s.domains = asked.filter fun full => Free ht priority (domainOf full)
  explicit : s.hasDefaultRouteExplicit = true ↔ ∃ full ∈ s.domains, domainOf full = []
  grown : Grown ht priority s.ht
  entries : ∀ x q, s.ht x = some q ↔
    ht x = some q ∨ (q = priority ∧ ∃ full ∈ s.domains, domainOf full = x)

theorem domainsLoopStep_after {s : DomainsLoop} {full : String} (hfull : full ≠ "")
    (hinv : TrackInvariant ht priority) (h : s.After ht priority asked) :
    ∃ s', domainsLoopStep priority s full = some s' ∧ s'.After ht priority (asked ++ [full]) := by
  obtain ⟨ht', keep, hadd, hkeep, hht', hgrown⟩ := h.grown.add hinv (domainOf full)
  have hstep : domainsLoopStep priority s full =
      if keep then
        some ⟨ht', s.domains ++ [full], s.hasDefaultRouteExplicit || domainOf full = []⟩
      else some { s with ht := ht' } := by
    simp only [domainsLoopStep, parseDnsDomain_eq_some hfull, hadd, Option.bind_eq_bind,
      Option.bind_some]
  rw [hstep]
  cases keep with
  | false =>
    have hsame : ht' = s.ht := funext fun x => by simpa using hht' x
    have hfree : ¬ Free ht priority (domainOf full) := fun hf => Bool.noConfusion (hkeep.mpr hf)
    refine ⟨_, rfl, ?_⟩
    rw [hsame]
    exact { h with domains := by simp [h.domains, filter_append, hfree] }
  | true =>
    have hfree : Free ht priority (domainOf full) := hkeep.mp rfl
    refine ⟨_, rfl, ?_⟩
    constructor
    · simp [h.domains, filter_append, hfree]
    · simp only [Bool.or_eq_true, h.explicit, decide_eq_true_eq, mem_append,
        mem_singleton, or_and_right, exists_or, exists_eq_left]
    · exact hgrown
    · intro x q
      dsimp only
      rw [hht' x]
      simp only [mem_append, mem_singleton, or_and_right, exists_or, exists_eq_left,
        true_and]
      by_cases hx : x = domainOf full
      · subst hx
        simp only [if_true, Option.some.injEq, and_true, or_true]
        refine ⟨fun hq => Or.inr hq.symm, ?_⟩
        rintro (hq | hq)
        · have hge := hfree.unclaimed q hq
          have hle := hinv.le _ q hq
          omega
        · exact hq.symm
      · have hx' : domainOf full ≠ x := fun heq => hx heq.symm
        simp only [hx, hx', if_false, or_false]
        exact h.entries x q

theorem domainsLoop_after (hasked : ∀ full ∈ asked, full ≠ "") (hinv : TrackInvariant ht priority) :
    ∃ s, asked.foldlM (domainsLoopStep priority) ⟨ht, [], false⟩ = some s ∧
      s.After ht priority asked := by
  suffices h : ∀ (rest processed : List String) (s : DomainsLoop),
      (∀ full ∈ rest, full ≠ "") → s.After ht priority processed →
      ∃ s', rest.foldlM (domainsLoopStep priority) s = some s' ∧
        s'.After ht priority (processed ++ rest) by
    exact h asked [] _ hasked ⟨rfl, by simp, Grown.refl ht priority, by simp⟩
  intro rest
  induction rest with
  | nil =>
    intro processed s _ hs
    exact ⟨s, rfl, by simpa using hs⟩
  | cons full rest ih =>
    intro processed s hrest hs
    obtain ⟨s', hs', hafter⟩ := domainsLoopStep_after (hrest full (by simp)) hinv hs
    obtain ⟨s'', hs'', hafter'⟩ :=
      ih (processed ++ [full]) s' (fun f hf => hrest f (mem_cons_of_mem _ hf)) hafter
    refine ⟨s'', ?_, by simpa using hafter'⟩
    rw [foldlM_cons, hs']
    exact hs''

open scoped Classical in
/-- What one configuration gets, where `free` says which domains it may take. -/
structure DnsConfigDomains.Assigned (wildcardEntries : List DnsConfigIpData)
    (free : List Char → Prop) (ipData : DnsConfigIpData) (domains : DnsConfigDomains) : Prop where
  search : domains.search = ipData.askedDomains.filter fun full => free (domainOf full)
  reverse : domains.reverse = getIpRdnsDomains ipData
  explicit : domains.hasDefaultRouteExplicit = true ↔ ∃ full ∈ domains.search, domainOf full = []
  exclusive : domains.hasDefaultRouteExclusive = true ↔
    domains.hasDefaultRouteExplicit = true ∨
      (ipData.dnsPriority < 0 ∧ domains.hasDefaultRoute = true)
  defaultRoute : domains.hasDefaultRoute = true ↔
    domains.hasDefaultRouteExplicit = true ∨
      (ipData.hasDefaultRouteMaybe wildcardEntries = true ∧ free [])

theorem configDomains_spec (wildcardEntries : List DnsConfigIpData)
    (hasked : ∀ full ∈ ipData.askedDomains, full ≠ "") (hinv : TrackInvariant ht ipData.dnsPriority) :
    ∃ ht' domains, configDomains wildcardEntries ht ipData = some (ht', domains) ∧
      domains.Assigned wildcardEntries (Free ht ipData.dnsPriority) ipData ∧
      Grown ht ipData.dnsPriority ht' ∧
      ∀ x q, ht' x = some q ↔ ht x = some q ∨ (q = ipData.dnsPriority ∧ domains.Keeps x) := by
  obtain ⟨s, hs, hafter⟩ := domainsLoop_after hasked hinv
  have hauto : ∃ ht' auto, domainsLoopAuto ipData.dnsPriority
        (ipData.hasDefaultRouteMaybe wildcardEntries) s = some (ht', auto) ∧
      (auto = true ↔ s.hasDefaultRouteExplicit = false ∧
        ipData.hasDefaultRouteMaybe wildcardEntries = true ∧ Free ht ipData.dnsPriority []) ∧
      (∀ x, ht' x = if auto = true ∧ x = [] then some ipData.dnsPriority else s.ht x) ∧
      Grown ht ipData.dnsPriority ht' := by
    unfold domainsLoopAuto
    cases hmaybe : ipData.hasDefaultRouteMaybe wildcardEntries with
    | false => exact ⟨s.ht, false, rfl, by simp, by simp, hafter.grown⟩
    | true =>
      cases hexplicit : s.hasDefaultRouteExplicit with
      | true => exact ⟨s.ht, false, rfl, by simp, by simp, hafter.grown⟩
      | false =>
        obtain ⟨ht', keep, hadd, hkeep, hht', hgrown⟩ := hafter.grown.add hinv []
        exact ⟨ht', keep, by simpa using hadd, by simpa using hkeep, hht', hgrown⟩
  obtain ⟨ht', auto, hauto, hautoIff, hht', hgrown⟩ := hauto
  have hroute : ((s.hasDefaultRouteExplicit || (decide (ipData.dnsPriority < 0) && auto)) || auto) =
      true ↔ s.hasDefaultRouteExplicit = true ∨ auto = true := by
    cases auto <;> simp
  refine ⟨ht', ⟨s.domains, getIpRdnsDomains ipData, s.hasDefaultRouteExplicit,
    s.hasDefaultRouteExplicit || (decide (ipData.dnsPriority < 0) && auto),
    (s.hasDefaultRouteExplicit || (decide (ipData.dnsPriority < 0) && auto)) || auto⟩,
    ?_, ?_, hgrown, ?_⟩
  · simp only [configDomains, hs, hauto, Option.bind_eq_bind, Option.bind_some, Option.pure_def]
  · refine ⟨hafter.domains, rfl, hafter.explicit, ?_, ?_⟩
    · dsimp only
      rw [hroute, Bool.or_eq_true, Bool.and_eq_true, decide_eq_true_eq]
      constructor
      · exact Or.imp_right fun h => ⟨h.1, Or.inr h.2⟩
      · rintro (h | ⟨hneg, h | h⟩)
        · exact Or.inl h
        · exact Or.inl h
        · exact Or.inr ⟨hneg, h⟩
    · dsimp only
      rw [hroute, hautoIff]
      cases s.hasDefaultRouteExplicit <;> simp
  · intro x q
    rw [hht' x]
    simp only [DnsConfigDomains.Keeps, hroute]
    by_cases hx : auto = true ∧ x = []
    · obtain ⟨hauto, rfl⟩ := hx
      have hfree := (hautoIff.mp hauto).2.2
      simp only [hauto, and_self, if_true, Option.some.injEq, or_true, and_true]
      refine ⟨fun hq => Or.inr hq.symm, ?_⟩
      rintro (hq | hq)
      · have hge := hfree.unclaimed q hq
        have hle := hinv.le _ q hq
        omega
      · exact hq.symm
    · rw [if_neg hx, hafter.entries x q]
      refine or_congr_right (and_congr_right fun _ => ⟨Or.inl, ?_⟩)
      rintro (h | ⟨hnil, h | h⟩)
      · exact h
      · obtain ⟨full, hfull, hroot⟩ := hafter.explicit.mp h
        exact ⟨full, hfull, hroot.trans hnil.symm⟩
      · exact absurd ⟨h, hnil⟩ hx

/-! ## The domains of all configurations -/

/-- No configuration with a smaller priority keeps the domain, and none with a smaller
negative priority keeps a domain above it. -/
structure Unclaimed (configs : List (DnsConfigIpData × DnsConfigDomains)) (priority : ℤ)
    (d : List Char) : Prop where
  same : ∀ r ∈ configs, r.1.dnsPriority < priority → ¬ r.2.Keeps d
  above : ∀ r ∈ configs, r.1.dnsPriority < 0 → r.1.dnsPriority < priority →
    ∀ a, IsProperAncestor a d → ¬ r.2.Keeps a

/-- Every configuration with name servers has the domains that it asks for and that are
unclaimed at its priority. -/
def DomainAssignment (wildcardEntries : List DnsConfigIpData)
    (configs : List (DnsConfigIpData × DnsConfigDomains)) : Prop :=
  ∀ r ∈ configs,
    if r.1.nameservers = [] then r.2 = .empty
    else r.2.Assigned wildcardEntries (Unclaimed configs r.1.dnsPriority) r.1

/-- The table has the domains that the configurations keep. -/
def Tracks (ht : DomainTrack) (configs : List (DnsConfigIpData × DnsConfigDomains)) : Prop :=
  ∀ x q, ht x = some q ↔ ∃ r ∈ configs, r.1.dnsPriority = q ∧ r.2.Keeps x

variable {configs : List (DnsConfigIpData × DnsConfigDomains)}
variable {wildcardEntries : List DnsConfigIpData} {r : DnsConfigIpData × DnsConfigDomains}
  {processed : List DnsConfigIpData} {s : ConfigsLoop} {free : List Char → Prop}
  {domains : DnsConfigDomains}

theorem not_keeps_empty (d : List Char) : ¬ DnsConfigDomains.empty.Keeps d := by
  simp [DnsConfigDomains.Keeps, DnsConfigDomains.empty]

theorem Tracks.free_iff (h : Tracks ht configs) (priority : ℤ) (d : List Char) :
    Free ht priority d ↔ Unclaimed configs priority d := by
  constructor
  · intro hfree
    constructor
    · intro r hr hlt hkeeps
      have := hfree.unclaimed _ ((h d _).mpr ⟨r, hr, rfl, hkeeps⟩)
      omega
    · intro r hr hneg hlt a ha hkeeps
      exact hfree.unshadowed a ha ⟨_, (h a _).mpr ⟨r, hr, rfl, hkeeps⟩, hneg, hlt⟩
  · intro hun
    constructor
    · intro q hq
      obtain ⟨r, hr, rfl, hkeeps⟩ := (h d q).mp hq
      exact not_lt.mp fun hlt => hun.same r hr hlt hkeeps
    · rintro a ha ⟨q, hq, hneg, hlt⟩
      obtain ⟨r, hr, rfl, hkeeps⟩ := (h a q).mp hq
      exact hun.above r hr hneg hlt a ha hkeeps

theorem unclaimed_append_singleton {priority : ℤ}
    (hr : (∀ d, ¬ r.2.Keeps d) ∨ priority ≤ r.1.dnsPriority) (d : List Char) :
    Unclaimed (configs ++ [r]) priority d ↔ Unclaimed configs priority d := by
  constructor
  · exact fun h => ⟨fun r' hr' => h.same r' (mem_append_left _ hr'),
      fun r' hr' => h.above r' (mem_append_left _ hr')⟩
  · intro h
    constructor
    · intro r' hr' hlt hkeeps
      rcases mem_append.mp hr' with hr' | hr'
      · exact h.same r' hr' hlt hkeeps
      · rw [mem_singleton.mp hr'] at hlt hkeeps
        rcases hr with hnone | hle
        · exact hnone d hkeeps
        · omega
    · intro r' hr' hneg hlt a ha hkeeps
      rcases mem_append.mp hr' with hr' | hr'
      · exact h.above r' hr' hneg hlt a ha hkeeps
      · rw [mem_singleton.mp hr'] at hlt hkeeps
        rcases hr with hnone | hle
        · exact hnone a hkeeps
        · omega

/-- The loop after the configurations that were processed. -/
structure ConfigsLoop.After (wildcardEntries : List DnsConfigIpData)
    (processed : List DnsConfigIpData) (s : ConfigsLoop) : Prop where
  configs : s.configs.map Prod.fst = processed
  tracks : Tracks s.ht s.configs
  invariant : TrackInvariant s.ht s.prevPriority
  le : ∀ r ∈ s.configs, r.1.nameservers ≠ [] → r.1.dnsPriority ≤ s.prevPriority
  assigned : DomainAssignment wildcardEntries s.configs

theorem configsLoopStep_skip (hns : ipData.nameservers = []) (h : s.After wildcardEntries processed) :
    ConfigsLoop.After wildcardEntries (processed ++ [ipData])
      { s with configs := s.configs ++ [(ipData, .empty)] } where
  configs := by simp [h.configs]
  tracks x q := by
    rw [h.tracks x q]
    simp only [mem_append, mem_singleton, or_and_right, exists_or, exists_eq_left,
      not_keeps_empty, and_false, or_false]
  invariant := h.invariant
  le r hr hr' := by
    rcases mem_append.mp hr with hr | hr
    · exact h.le r hr hr'
    · rw [mem_singleton.mp hr] at hr'
      exact absurd hns hr'
  assigned r hr := by
    dsimp only at hr ⊢
    have hun : Unclaimed (s.configs ++ [(ipData, .empty)]) r.1.dnsPriority =
        Unclaimed s.configs r.1.dnsPriority :=
      funext fun d => propext (unclaimed_append_singleton (Or.inl not_keeps_empty) d)
    rw [hun]
    rcases mem_append.mp hr with hr | hr
    · exact h.assigned r hr
    · rw [mem_singleton.mp hr, if_pos hns]

theorem configsLoopStep_after (hasked : ∀ full ∈ ipData.askedDomains, full ≠ "")
    (hle : s.prevPriority ≤ ipData.dnsPriority) (h : s.After wildcardEntries processed) :
    ∃ s', configsLoopStep wildcardEntries s ipData = some s' ∧
      s'.After wildcardEntries (processed ++ [ipData]) ∧
      (s'.prevPriority = s.prevPriority ∨ s'.prevPriority = ipData.dnsPriority) := by
  unfold configsLoopStep
  by_cases hns : ipData.nameservers = []
  · rw [if_pos hns]
    exact ⟨_, rfl, configsLoopStep_skip hns h, Or.inl rfl⟩
  · have hinv := h.invariant.mono hle
    obtain ⟨ht', domains, hconfig, hassigned, hgrown, hentries⟩ :=
      configDomains_spec wildcardEntries hasked hinv
    rw [if_neg hns, if_neg (not_lt.mpr hle), hconfig]
    refine ⟨_, rfl, ?_, Or.inr rfl⟩
    constructor
    · simp [h.configs]
    · intro x q
      dsimp only
      rw [hentries x q, h.tracks x q]
      simp only [mem_append, mem_singleton, or_and_right, exists_or, exists_eq_left,
        eq_comm]
    · exact hgrown.trackInvariant hinv
    · intro r hr hr'
      rcases mem_append.mp hr with hr | hr
      · exact (h.le r hr hr').trans hle
      · rw [mem_singleton.mp hr]
    · intro r hr
      dsimp only at hr ⊢
      by_cases hr' : r.1.nameservers = []
      · rcases mem_append.mp hr with hr | hr
        · have := h.assigned r hr
          rwa [if_pos hr'] at this ⊢
        · rw [mem_singleton.mp hr] at hr'
          exact absurd hr' hns
      · rw [if_neg hr']
        rcases mem_append.mp hr with hr | hr
        · have hun : Unclaimed (s.configs ++ [(ipData, domains)]) r.1.dnsPriority =
              Unclaimed s.configs r.1.dnsPriority :=
            funext fun d => propext
              (unclaimed_append_singleton (Or.inr ((h.le r hr hr').trans hle)) d)
          have hold := h.assigned r hr
          rw [if_neg hr'] at hold
          rw [hun]
          exact hold
        · rw [mem_singleton.mp hr]
          have hun : Unclaimed (s.configs ++ [(ipData, domains)]) ipData.dnsPriority =
              Free s.ht ipData.dnsPriority :=
            funext fun d => propext <|
              (unclaimed_append_singleton (Or.inr (le_refl _)) d).trans
                (h.tracks.free_iff _ d).symm
          dsimp only
          rw [hun]
          exact hassigned

theorem configsLoop_after (wildcardEntries : List DnsConfigIpData) {l : List DnsConfigIpData} {priority : ℤ}
    (hsorted : l.Pairwise fun a b => a.dnsPriority ≤ b.dnsPriority)
    (hge : ∀ ipData ∈ l, priority ≤ ipData.dnsPriority)
    (hasked : ∀ ipData ∈ l, ∀ full ∈ ipData.askedDomains, full ≠ "") :
    ∃ s, l.foldlM (configsLoopStep wildcardEntries) ⟨fun _ => none, priority, []⟩ = some s ∧
      s.After wildcardEntries l := by
  suffices h : ∀ (rest processed : List DnsConfigIpData) (s : ConfigsLoop),
      rest.Pairwise (fun a b => a.dnsPriority ≤ b.dnsPriority) →
      (∀ ipData ∈ rest, s.prevPriority ≤ ipData.dnsPriority) →
      (∀ ipData ∈ rest, ∀ full ∈ ipData.askedDomains, full ≠ "") →
      s.After wildcardEntries processed →
      ∃ s', rest.foldlM (configsLoopStep wildcardEntries) s = some s' ∧
        s'.After wildcardEntries (processed ++ rest) by
    refine h l [] _ hsorted hge hasked ⟨rfl, ?_, ⟨?_, ?_⟩, ?_, ?_⟩
    all_goals simp [Tracks, DomainAssignment]
  intro rest
  induction rest with
  | nil =>
    intro processed s _ _ _ hs
    exact ⟨s, rfl, by simpa using hs⟩
  | cons ipData rest ih =>
    intro processed s hsorted hge hasked hs
    obtain ⟨hfirst, hsorted⟩ := pairwise_cons.mp hsorted
    obtain ⟨s', hs', hafter, hprev⟩ :=
      configsLoopStep_after (hasked ipData (by simp)) (hge ipData (by simp)) hs
    have hge' : ∀ next ∈ rest, s'.prevPriority ≤ next.dnsPriority := by
      intro next hnext
      rcases hprev with hprev | hprev
      · exact hprev ▸ hge next (mem_cons_of_mem _ hnext)
      · exact hprev ▸ hfirst next hnext
    obtain ⟨s'', hs'', hafter'⟩ := ih (processed ++ [ipData]) s' hsorted hge'
      (fun next hnext => hasked next (mem_cons_of_mem _ hnext)) hafter
    refine ⟨s'', ?_, by simpa using hafter'⟩
    rw [foldlM_cons, hs']
    exact hs''

/-! ## What follows from the assignment -/

/-- The configuration asks for the domain: it is one of its own, or the one for everything
else that it gets automatically. -/
def DnsConfigIpData.Asks (wildcardEntries : List DnsConfigIpData) (ipData : DnsConfigIpData)
    (d : List Char) : Prop :=
  ipData.nameservers ≠ [] ∧
    ((∃ full ∈ ipData.askedDomains, domainOf full = d) ∨
      (d = [] ∧ ipData.hasDefaultRouteMaybe wildcardEntries = true))

theorem DnsConfigDomains.Assigned.keeps_iff (h : domains.Assigned wildcardEntries free ipData)
    (d : List Char) :
    domains.Keeps d ↔
      ((∃ full ∈ ipData.askedDomains, domainOf full = d) ∨
        (d = [] ∧ ipData.hasDefaultRouteMaybe wildcardEntries = true)) ∧ free d := by
  have hmem (full : String) :
      full ∈ domains.search ↔ full ∈ ipData.askedDomains ∧ free (domainOf full) := by
    simp [h.search]
  constructor
  · rintro (⟨full, hfull, rfl⟩ | ⟨rfl, hroute⟩)
    · exact ⟨Or.inl ⟨full, ((hmem full).mp hfull).1, rfl⟩, ((hmem full).mp hfull).2⟩
    · rcases h.defaultRoute.mp hroute with hexplicit | ⟨hmaybe, hfree⟩
      · obtain ⟨full, hfull, hroot⟩ := h.explicit.mp hexplicit
        exact ⟨Or.inl ⟨full, ((hmem full).mp hfull).1, hroot⟩, hroot ▸ ((hmem full).mp hfull).2⟩
      · exact ⟨Or.inr ⟨rfl, hmaybe⟩, hfree⟩
  · rintro ⟨⟨full, hfull, rfl⟩ | ⟨rfl, hmaybe⟩, hfree⟩
    · exact Or.inl ⟨full, (hmem full).mpr ⟨hfull, hfree⟩, rfl⟩
    · exact Or.inr ⟨rfl, h.defaultRoute.mpr (Or.inr ⟨hmaybe, hfree⟩)⟩

theorem DomainAssignment.keeps_iff (h : DomainAssignment wildcardEntries configs) (hr : r ∈ configs)
    (d : List Char) :
    r.2.Keeps d ↔
      r.1.Asks wildcardEntries d ∧ Unclaimed configs r.1.dnsPriority d := by
  have hassigned := h r hr
  by_cases hns : r.1.nameservers = []
  · rw [if_pos hns] at hassigned
    rw [hassigned]
    exact iff_of_false (not_keeps_empty d) fun hasks => hasks.1.1 hns
  · rw [if_neg hns] at hassigned
    rw [hassigned.keeps_iff d]
    simp only [DnsConfigIpData.Asks, ne_eq, hns, not_false_eq_true, true_and]

theorem Unclaimed.anti (h : Unclaimed configs priority d) (hle : priority' ≤ priority)
    : Unclaimed configs priority' d :=
  ⟨fun r hr hlt => h.same r hr (hlt.trans_le hle),
    fun r hr hneg hlt => h.above r hr hneg (hlt.trans_le hle)⟩

theorem DomainAssignment.kept_by_smallest (h : DomainAssignment wildcardEntries configs)
    {r' : DnsConfigIpData × DnsConfigDomains} (hr : r ∈ configs) (hkeeps : r.2.Keeps d)
    (hr' : r' ∈ configs) (hasks : r'.1.Asks wildcardEntries d) :
    r'.2.Keeps d ↔
      ∀ r'' ∈ configs, r''.1.Asks wildcardEntries d → r'.1.dnsPriority ≤ r''.1.dnsPriority := by
  have hun := ((h.keeps_iff hr d).mp hkeeps).2
  constructor
  · intro hkeeps' r'' hr'' hasks''
    have hun' := ((h.keeps_iff hr' d).mp hkeeps').2
    refine not_lt.mp fun hlt => hun'.same r'' hr'' hlt ?_
    exact (h.keeps_iff hr'' d).mpr ⟨hasks'', hun'.anti hlt.le⟩
  · intro hsmallest
    have hle := hsmallest r hr ((h.keeps_iff hr d).mp hkeeps).1
    exact (h.keeps_iff hr' d).mpr ⟨hasks, hun.anti hle⟩

theorem DomainAssignment.defaultRoutes (h : DomainAssignment wildcardEntries configs)
    (hr : r ∈ configs) :
    (r.2.hasDefaultRouteExplicit = true → r.2.hasDefaultRouteExclusive = true) ∧
      (r.2.hasDefaultRouteExclusive = true → r.2.hasDefaultRoute = true) := by
  have hassigned := h r hr
  by_cases hns : r.1.nameservers = []
  · rw [if_pos hns] at hassigned
    rw [hassigned]
    exact ⟨fun hx => hx, fun hx => hx⟩
  · rw [if_neg hns] at hassigned
    refine ⟨fun hx => hassigned.exclusive.mpr (Or.inl hx), fun hx => ?_⟩
    rcases hassigned.exclusive.mp hx with hexplicit | ⟨_, hroute⟩
    · exact hassigned.defaultRoute.mpr (Or.inl hexplicit)
    · exact hroute

/-! ### The order of the configurations -/

theorem DnsConfigDomains.Assigned.unique {domains' : DnsConfigDomains}
    (h : domains.Assigned wildcardEntries free ipData)
    (h' : domains'.Assigned wildcardEntries free ipData) : domains = domains' := by
  have hsearch : domains.search = domains'.search := h.search.trans h'.search.symm
  have hexplicit : domains.hasDefaultRouteExplicit = domains'.hasDefaultRouteExplicit := by
    rw [Bool.eq_iff_iff, h.explicit, h'.explicit, hsearch]
  have hroute : domains.hasDefaultRoute = domains'.hasDefaultRoute := by
    rw [Bool.eq_iff_iff, h.defaultRoute, h'.defaultRoute, hexplicit]
  have hexclusive : domains.hasDefaultRouteExclusive = domains'.hasDefaultRouteExclusive := by
    rw [Bool.eq_iff_iff, h.exclusive, h'.exclusive, hexplicit, hroute]
  have hreverse : domains.reverse = domains'.reverse := h.reverse.trans h'.reverse.symm
  cases domains
  cases domains'
  simp_all

/-- What the configurations with the given priority keep. -/
def KeptAt (configs : List (DnsConfigIpData × DnsConfigDomains)) (priority : ℤ)
    (d : List Char) : Prop :=
  ∃ r ∈ configs, r.1.dnsPriority = priority ∧ r.2.Keeps d

variable {configs' : List (DnsConfigIpData × DnsConfigDomains)} {l : DnsIpDataLst}
  {entries' entries : List DnsConfigIpData}

theorem unclaimed_iff_keptAt :
    Unclaimed configs priority d ↔
      ∀ q < priority, ¬ KeptAt configs q d ∧
        (q < 0 → ∀ a, IsProperAncestor a d → ¬ KeptAt configs q a) := by
  constructor
  · intro h q hq
    constructor
    · rintro ⟨r, hr, rfl, hkeeps⟩
      exact h.same r hr hq hkeeps
    · rintro hneg a ha ⟨r, hr, rfl, hkeeps⟩
      exact h.above r hr hneg hq a ha hkeeps
  · intro h
    exact ⟨fun r hr hlt hkeeps => (h _ hlt).1 ⟨r, hr, rfl, hkeeps⟩,
      fun r hr hneg hlt a ha hkeeps => (h _ hlt).2 hneg a ha ⟨r, hr, rfl, hkeeps⟩⟩

theorem unclaimed_congr (h : ∀ q < priority, ∀ d, KeptAt configs q d ↔ KeptAt configs' q d)
    (d : List Char) : Unclaimed configs priority d ↔ Unclaimed configs' priority d := by
  rw [unclaimed_iff_keptAt, unclaimed_iff_keptAt]
  refine forall₂_congr fun q hq => ?_
  simp only [h q hq]

def smallerConfigs (configs : List (DnsConfigIpData × DnsConfigDomains)) (priority : ℤ) :
    Finset DnsConfigIpData :=
  (configs.map Prod.fst).toFinset.filter fun ipData => ipData.dnsPriority < priority

theorem smallerConfigs_card_lt (hr : r ∈ configs) (hlt : r.1.dnsPriority < priority) :
    (smallerConfigs configs r.1.dnsPriority).card < (smallerConfigs configs priority).card := by
  refine Finset.card_lt_card (Finset.ssubset_iff_of_subset ?_ |>.mpr ⟨r.1, ?_, ?_⟩)
  · intro ipData hmem
    rw [smallerConfigs, Finset.mem_filter] at hmem ⊢
    exact ⟨hmem.1, hmem.2.trans hlt⟩
  · rw [smallerConfigs, Finset.mem_filter, mem_toFinset]
    exact ⟨mem_map_of_mem hr, hlt⟩
  · rw [smallerConfigs, Finset.mem_filter]
    exact fun hmem => lt_irrefl _ hmem.2

theorem DomainAssignment.keptAt_iff (h : DomainAssignment wildcardEntries configs) :
    KeptAt configs priority d ↔
      (∃ ipData ∈ configs.map Prod.fst, ipData.dnsPriority = priority ∧
        ipData.Asks wildcardEntries d) ∧ Unclaimed configs priority d := by
  constructor
  · rintro ⟨r, hr, rfl, hkeeps⟩
    obtain ⟨hasks, hun⟩ := (h.keeps_iff hr d).mp hkeeps
    exact ⟨⟨r.1, mem_map_of_mem hr, rfl, hasks⟩, hun⟩
  · rintro ⟨⟨ipData, hmem, hprio, hasks⟩, hun⟩
    obtain ⟨r, hr, rfl⟩ := mem_map.mp hmem
    subst hprio
    exact ⟨r, hr, rfl, (h.keeps_iff hr d).mpr ⟨hasks, hun⟩⟩

section

variable (h : DomainAssignment wildcardEntries configs)
  (h' : DomainAssignment wildcardEntries configs')
  (hsame : ∀ ipData, ipData ∈ configs.map Prod.fst ↔ ipData ∈ configs'.map Prod.fst)

include h h' hsame

theorem DomainAssignment.keptAt_congr (priority : ℤ) (d : List Char) :
    KeptAt configs priority d ↔ KeptAt configs' priority d := by
  induction hn : (smallerConfigs configs priority).card using Nat.strong_induction_on
    generalizing priority d with
  | _ n ih =>
    have hsmaller : ∀ q < priority, ∀ d, KeptAt configs q d ↔ KeptAt configs' q d := by
      intro q hq d
      by_cases hexists : ∃ r ∈ configs, r.1.dnsPriority = q
      · obtain ⟨r, hr, rfl⟩ := hexists
        exact ih _ (hn ▸ smallerConfigs_card_lt hr hq) _ d rfl
      · refine iff_of_false (fun ⟨r, hr, hrq, _⟩ => hexists ⟨r, hr, hrq⟩) ?_
        rintro ⟨r', hr', hrq, _⟩
        obtain ⟨r, hr, heq⟩ := mem_map.mp ((hsame r'.1).mpr (mem_map_of_mem hr'))
        exact hexists ⟨r, hr, heq ▸ hrq⟩
    rw [h.keptAt_iff, h'.keptAt_iff, unclaimed_congr hsmaller d]
    simp only [hsame]

theorem DomainAssignment.mem_iff (r : DnsConfigIpData × DnsConfigDomains)
    : r ∈ configs ↔ r ∈ configs' := by
  have hun (priority : ℤ) : Unclaimed configs priority = Unclaimed configs' priority :=
    funext fun d => propext <|
      unclaimed_congr (fun q _ => h.keptAt_congr h' hsame q) d
  have hdomains {r r' : DnsConfigIpData × DnsConfigDomains} (hr : r ∈ configs)
      (hr' : r' ∈ configs') (heq : r.1 = r'.1) : r = r' := by
    have hassigned := h r hr
    have hassigned' := h' r' hr'
    rw [← heq] at hassigned'
    refine Prod.ext heq ?_
    by_cases hns : r.1.nameservers = []
    · rw [if_pos hns] at hassigned hassigned'
      rw [hassigned, hassigned']
    · rw [if_neg hns] at hassigned hassigned'
      rw [← hun] at hassigned'
      exact hassigned.unique hassigned'
  constructor
  · intro hr
    obtain ⟨r', hr', heq⟩ := mem_map.mp ((hsame r.1).mp (mem_map_of_mem hr))
    exact (hdomains hr hr' heq.symm) ▸ hr'
  · intro hr'
    obtain ⟨r', hr, heq⟩ := mem_map.mp ((hsame r.1).mpr (mem_map_of_mem hr'))
    exact (hdomains hr hr' heq) ▸ hr

end

/-! ## The pass -/

/-- What the manager has: a list that is sorted unless it is marked, domains that are not
empty, and priorities of type `int`. -/
structure DnsIpDataLst.WellFormed (l : DnsIpDataLst) : Prop where
  sorted : l.needSort = false → l.lst.Pairwise fun a b => a.dnsPriority ≤ b.dnsPriority
  searches : ∀ ipData ∈ l.lst, ∀ full ∈ ipData.searches, full ≠ ""
  domains : ∀ ipData ∈ l.lst, ∀ full ∈ ipData.domains, full ≠ ""
  priority : ∀ ipData ∈ l.lst, -2 ^ 31 ≤ ipData.dnsPriority

instance : Std.Total MgrGetIpDataLstCmp where
  total a b := by
    unfold MgrGetIpDataLstCmp
    omega

instance : IsTrans DnsConfigIpData MgrGetIpDataLstCmp where
  trans a b c hab hbc := by
    unfold MgrGetIpDataLstCmp at hab hbc ⊢
    omega

theorem DnsIpDataLst.perm_head (l : DnsIpDataLst) : l.head.Perm l.lst := by
  unfold DnsIpDataLst.head
  split_ifs
  · exact perm_insertionSort _ _
  · exact List.Perm.refl _

theorem DnsIpDataLst.WellFormed.head_sorted (h : l.WellFormed) :
    l.head.Pairwise fun a b => a.dnsPriority ≤ b.dnsPriority := by
  unfold DnsIpDataLst.head
  split_ifs with hsort
  · refine (pairwise_insertionSort MgrGetIpDataLstCmp l.lst).imp fun hab => ?_
    unfold MgrGetIpDataLstCmp at hab
    omega
  · exact h.sorted (by simpa using hsort)

def DnsIpDataLst.wildcards (l : DnsIpDataLst) : List DnsConfigIpData :=
  l.head.filter DnsConfigIpData.addWildcard

theorem mgrConfigsDataConstruct_assigned (h : l.WellFormed) :
    ∃ configs, mgrConfigsDataConstruct l = some configs ∧ configs.map Prod.fst = l.head ∧
      DomainAssignment l.wildcards configs := by
  have hmem (ipData : DnsConfigIpData) (hipData : ipData ∈ l.head) : ipData ∈ l.lst :=
    l.perm_head.mem_iff.mp hipData
  have hasked : ∀ ipData ∈ l.head, ∀ full ∈ ipData.askedDomains, full ≠ "" := by
    intro ipData hipData full hfull
    unfold DnsConfigIpData.askedDomains at hfull
    split_ifs at hfull
    · exact h.searches ipData (hmem ipData hipData) full hfull
    · exact h.domains ipData (hmem ipData hipData) full hfull
  obtain ⟨s, hs, hafter⟩ := configsLoop_after l.wildcards h.head_sorted
    (fun ipData hipData => h.priority ipData (hmem ipData hipData)) hasked
  refine ⟨s.configs, ?_, hafter.configs, hafter.assigned⟩
  rw [mgrConfigsDataConstruct]
  exact congrArg (Option.map ConfigsLoop.configs) hs

theorem hasDefaultRouteMaybe_congr (h : entries.Perm entries') (ipData : DnsConfigIpData) :
    ipData.hasDefaultRouteMaybe entries = ipData.hasDefaultRouteMaybe entries' := by
  have hnil : entries ≠ [] ↔ entries' ≠ [] := by
    rw [← length_pos_iff, ← length_pos_iff, h.length_eq]
  simp only [DnsConfigIpData.hasDefaultRouteMaybe, hnil, h.mem_iff]

theorem DomainAssignment.congr (hperm : entries.Perm entries')
    (h : DomainAssignment entries configs) : DomainAssignment entries' configs := by
  intro r hr
  have hassigned := h r hr
  by_cases hns : r.1.nameservers = []
  · rw [if_pos hns] at hassigned ⊢
    exact hassigned
  · rw [if_neg hns] at hassigned ⊢
    have hmaybe := hasDefaultRouteMaybe_congr hperm r.1
    exact { hassigned with defaultRoute := hmaybe ▸ hassigned.defaultRoute }

open scoped Classical in
/-- The domains that the configurations should have. -/
structure SplitDns (l : DnsIpDataLst) (configs : List (DnsConfigIpData × DnsConfigDomains)) :
    Prop where
  allConfigs : configs.map Prod.fst = l.head
  /-- A configuration keeps what it asks for and what no smaller priority claims. -/
  keeps_iff : ∀ r ∈ configs, ∀ d,
    r.2.Keeps d ↔ r.1.Asks l.wildcards d ∧ Unclaimed configs r.1.dnsPriority d
  /-- Its own domains stay in their order. -/
  search : ∀ r ∈ configs, r.1.nameservers ≠ [] →
    r.2.search = r.1.askedDomains.filter fun full =>
      Unclaimed configs r.1.dnsPriority (domainOf full)
  /-- A domain that is kept is kept by those with the smallest priority who ask for it. -/
  kept_by_smallest : ∀ r ∈ configs, ∀ d, r.2.Keeps d →
    ∀ r' ∈ configs, r'.1.Asks l.wildcards d →
      (r'.2.Keeps d ↔
        ∀ r'' ∈ configs, r''.1.Asks l.wildcards d → r'.1.dnsPriority ≤ r''.1.dnsPriority)
  defaultRoutes : ∀ r ∈ configs,
    (r.2.hasDefaultRouteExplicit = true → r.2.hasDefaultRouteExclusive = true) ∧
      (r.2.hasDefaultRouteExclusive = true → r.2.hasDefaultRoute = true)

theorem DomainAssignment.splitDns (hconfigs : configs.map Prod.fst = l.head)
    (h : DomainAssignment l.wildcards configs) : SplitDns l configs where
  allConfigs := hconfigs
  keeps_iff r hr d := h.keeps_iff hr d
  search r hr hns := by
    have hassigned := h r hr
    rw [if_neg hns] at hassigned
    exact hassigned.search
  kept_by_smallest r hr d hkeeps r' hr' hasks := h.kept_by_smallest hr hkeeps hr' hasks
  defaultRoutes r hr := h.defaultRoutes hr

/-- The pass fails no assertion, gives every configuration the domains it should have, and
does so whatever the order of the configurations is. -/
theorem mgrConfigsDataConstruct_splitDns {l : DnsIpDataLst} (h : l.WellFormed) :
    ∃ configs, mgrConfigsDataConstruct l = some configs ∧ SplitDns l configs ∧
      ∀ l' : DnsIpDataLst, l'.WellFormed → l'.lst.Perm l.lst →
        ∃ configs', mgrConfigsDataConstruct l' = some configs' ∧
          ∀ r, r ∈ configs' ↔ r ∈ configs := by
  obtain ⟨configs, hconstruct, hconfigs, hassigned⟩ := mgrConfigsDataConstruct_assigned h
  refine ⟨configs, hconstruct, hassigned.splitDns hconfigs, fun l' h' hperm => ?_⟩
  obtain ⟨configs', hconstruct', hconfigs', hassigned'⟩ := mgrConfigsDataConstruct_assigned h'
  have hhead : l'.head.Perm l.head := (l'.perm_head.trans hperm).trans l.perm_head.symm
  have hassigned' := hassigned'.congr (hhead.filter DnsConfigIpData.addWildcard)
  refine ⟨configs', hconstruct', hassigned'.mem_iff hassigned fun ipData => ?_⟩
  rw [hconfigs, hconfigs', hhead.mem_iff]

/-- A configuration with one name server, the priority and the searches. -/
def exampleL3cd (instanceId : ℕ) (priority : ℤ) (searches : List String) : SealedL3cd where
  instanceId := instanceId
  data :=
    { L3ConfigData.new 1 .unknown with
      ip4 :=
        { L3IpConfig.new with
          nameservers := ["192.0.2.1"]
          searches := searches
          hasDnsPriority := true
          dnsPriority := priority } }

/-- A device, and a VPN that wants a domain for itself. -/
def deviceAndVpn : DnsIpDataLst where
  lst :=
    [⟨.inet, 1, exampleL3cd 1 100 ["example.org", "a.example.com"], .bestDevice⟩,
      ⟨.inet, 2, exampleL3cd 2 (-50) ["~example.com"], .vpn⟩]
  needSort := true

theorem deviceAndVpn_splitDns :
    ∃ configs, mgrConfigsDataConstruct deviceAndVpn = some configs ∧
      SplitDns deviceAndVpn configs := by
  have h : deviceAndVpn.WellFormed :=
    ⟨by decide, by decide, by decide, by decide⟩
  obtain ⟨configs, hconstruct, hsplit, _⟩ := mgrConfigsDataConstruct_splitDns h
  exact ⟨configs, hconstruct, hsplit⟩

end NetworkManager.Core
