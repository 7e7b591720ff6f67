import NetworkManager.Core.DnsManagerDomains
import NetworkManager.Core.DnsManagerHash
import NetworkManager.Lib.StableSort

/-!
# Which changes the DNS manager misses

Outside of a batch of updates, the last update is what an update would compute now, unless a
change was missed: configurations took the place of others that compare as equal but are not, or a
batch changed something that the hash does not tell.
-/

namespace NetworkManager.Core

open Lib List

/-! ## Configurations that compare as equal -/

theorem cmpDns_eq {A R : Type} {a b : L3IpConfig A R} (h : cmpDns a b = .eq) :
    a.nameservers = b.nameservers ∧ a.domains = b.domains ∧ a.searches = b.searches ∧
      a.dnsOptions = b.dnsOptions ∧ a.hasDnsPriority = b.hasDnsPriority ∧
        (a.hasDnsPriority → a.dnsPriority = b.dnsPriority) := by
  have hstrv {as bs : List String} (h : cmpList compare as bs = .eq) : as = bs :=
    eq_of_cmpList (fun _ _ => Std.LawfulEqOrd.compare_eq_iff_eq.mp) h
  simp only [cmpDns, cmpSeq_eq_eq, forall_mem_cons] at h
  obtain ⟨hnameservers, hdomains, hsearches, hoptions, hhas, hpriority, -⟩ := h
  refine ⟨hstrv hnameservers, hstrv hdomains, hstrv hsearches, hstrv hoptions,
    Std.LawfulEqOrd.compare_eq_iff_eq.mp hhas, ?_⟩
  intro hpresent
  rw [if_pos hpresent] at hpriority
  exact Std.LawfulEqOrd.compare_eq_iff_eq.mp hpriority

/-- The comparison covers what resolv.conf is made of. -/
theorem resolvConfReads_of_cmpFull {a b : DnsConfigIpData}
    (h : L3ConfigData.cmpFull (some a.l3cd.data) (some b.l3cd.data)
      DnsManager.SetIpConfig.cmpFlags = some .eq)
    (hfamily : a.addrFamily = b.addrFamily) (hifindex : a.ifindex = b.ifindex) :
    a.resolvConfReads = b.resolvConfReads := by
  simp only [L3ConfigData.cmpFull, DnsManager.SetIpConfig.cmpFlags, cmpSeq?_eq_eq,
    forall_mem_cons, Option.getD_some, cmpIp] at h
  obtain ⟨-, -, -, -, -, ⟨-, h4, -⟩, ⟨-, h6, -⟩, hparameters, -⟩ := h
  have h4 := cmpDns_eq (Option.some.inj h4)
  have h6 := cmpDns_eq (Option.some.inj h6)
  have hparameters := Option.some.inj hparameters
  simp only [if_true, L3ConfigData.cmpDnsParameters, cmpSeq_eq_eq, forall_mem_cons]
    at hparameters
  obtain ⟨-, hservers, hdomain, -⟩ := hparameters
  have hservers : a.l3cd.data.nisServers = b.l3cd.data.nisServers :=
    eq_of_cmpList (fun _ _ => Std.LawfulEqOrd.compare_eq_iff_eq.mp) hservers
  have hdomain : a.l3cd.data.nisDomain = b.l3cd.data.nisDomain :=
    eq_of_cmpPtr (fun _ _ => Std.LawfulEqOrd.compare_eq_iff_eq.mp) hdomain
  obtain ⟨hnameservers4, hdomains4, hsearches4, hoptions4, hhas4, hpriority4⟩ := h4
  obtain ⟨hnameservers6, hdomains6, hsearches6, hoptions6, hhas6, hpriority6⟩ := h6
  have hpriority : a.dnsPriority = b.dnsPriority := by
    simp only [DnsConfigIpData.dnsPriority, SealedL3cd.dnsPriority, hfamily]
    cases b.addrFamily with
    | inet =>
      simp only [SealedL3cd.dnsPriority?, ← hhas4]
      split_ifs with h
      · rw [hpriority4 h]
      · rfl
    | inet6 =>
      simp only [SealedL3cd.dnsPriority?, ← hhas6]
      split_ifs with h
      · rw [hpriority6 h]
      · rfl
  unfold DnsConfigIpData.resolvConfReads
  rw [hpriority, hifindex]
  simp only [DnsConfigIpData.nameservers, DnsConfigIpData.searches, DnsConfigIpData.domains,
    DnsConfigIpData.dnsOptions, DnsConfigIpData.nisServers, DnsConfigIpData.nisDomain, hfamily,
    hservers, hdomain]
  cases b.addrFamily with
  | inet => simp [SealedL3cd.nameservers, SealedL3cd.searches, SealedL3cd.domains, *]
  | inet6 => simp [SealedL3cd.nameservers, SealedL3cd.searches, SealedL3cd.domains, *]

open DnsManager in
theorem DnsManager.SetIpConfig.Frees.resolvConfReads_eq {c : SetIpConfig} {d : DnsConfigIpData}
    (hfrees : c.Frees d) (hchanges : c.freeChanges d = some false) :
    c.ipConfigType ≠ .removed ∧ c.ipData.resolvConfReads = d.resolvConfReads := by
  unfold freeChanges at hchanges
  by_cases hremoved : c.ipConfigType = .removed
  · simp [hremoved] at hchanges
  rw [if_neg hremoved] at hchanges
  obtain ⟨cmp, hcmp, heq⟩ := Option.map_eq_some_iff.mp hchanges
  have heq : cmp = .eq := by simpa using heq
  obtain ⟨hifindex, -, hfamily, -⟩ := hfrees
  refine ⟨hremoved, ?_⟩
  exact resolvConfReads_of_cmpFull (heq ▸ hcmp) hfamily.symm hifindex.symm

namespace DnsManager

variable {env : DnsEnv} {s s' t t' : DnsManager} {c : SetIpConfig} {d : DnsConfigIpData}
  {cs rs : List SetIpConfig} {changed : Bool}

/-! ## What a call does to the list -/

/-- The manager without its configurations. -/
def rest (s : DnsManager) : DnsManager :=
  { s with
    ipDataLst := .empty
    bestIpConfig4 := none
    bestIpConfig6 := none
    configChanged := false }

theorem putIpData_rest (c : SetIpConfig) (found : Bool) (s : DnsManager) :
    (s.putIpData c found).rest = s.rest := by
  unfold putIpData
  split_ifs <;> rfl

theorem setBestIpConfig_rest (s : DnsManager) (best : Option DnsIpDataKey) (f : AddrFamily) :
    (s.setBestIpConfig best f).rest = s.rest := by
  cases f <;> rfl

@[simp] theorem setBestIpConfig_ipDataLst (s : DnsManager) (best : Option DnsIpDataKey)
    (f : AddrFamily) : (s.setBestIpConfig best f).ipDataLst = s.ipDataLst := by
  cases f <;> rfl

theorem updateBest_rest (c : SetIpConfig) (s : DnsManager) : (s.updateBest c).rest = s.rest := by
  unfold updateBest
  dsimp only
  split_ifs
  · exact setBestIpConfig_rest _ _ _
  · rfl
  · exact setBestIpConfig_rest s _ _
  · rfl

def demoted (s : DnsManager) (c : SetIpConfig) (d : DnsConfigIpData) : DnsConfigIpData :=
  if c.ipConfigType = .bestDevice ∧ s.bestIpConfig c.addrFamily = some d.key ∧
      d.key ≠ c.ipData.key then { d with ipConfigType := .default }
  else d

theorem updateBest_ipDataLst (c : SetIpConfig) (s : DnsManager) :
    (s.updateBest c).ipDataLst = ⟨s.ipDataLst.lst.map (s.demoted c), s.ipDataLst.needSort⟩ := by
  have hsame (h : ∀ d ∈ s.ipDataLst.lst, s.demoted c d = d) :
      s.ipDataLst = ⟨s.ipDataLst.lst.map (s.demoted c), s.ipDataLst.needSort⟩ := by
    have hmap : s.ipDataLst.lst.map (s.demoted c) = s.ipDataLst.lst :=
      (map_congr_left h).trans (map_id _)
    rw [hmap]
  unfold updateBest
  dsimp only
  split_ifs with htype hbest hbest
  · rw [setBestIpConfig_ipDataLst]
    simp only [setType, DnsIpDataLst.mk.injEq, and_true]
    apply map_congr_left
    intro d _
    by_cases hd : s.bestIpConfig c.addrFamily = some d.key
    · have hne : d.key ≠ c.ipData.key := fun heq => hbest (heq ▸ hd)
      simp [demoted, htype, hd, hne]
    · simp [demoted, hd]
  · apply hsame
    intro d _
    have hbest : s.bestIpConfig c.addrFamily = some c.ipData.key := not_not.mp hbest
    unfold demoted
    apply if_neg
    rintro ⟨-, hkey, hne⟩
    exact hne (Option.some.inj (hbest.symm.trans hkey)).symm
  · rw [setBestIpConfig_ipDataLst]
    exact hsame fun d _ => by simp [demoted, htype]
  · exact hsame fun d _ => by simp [demoted, htype]

/-- The configuration of the same `NML3ConfigData`, which stays. -/
def found (s : DnsManager) (c : SetIpConfig) : Option DnsConfigIpData :=
  (s.free c).ipDataLst.lst.find? fun d => c.IsSame d

def putLst (s : DnsManager) (c : SetIpConfig) : List DnsConfigIpData :=
  let t := (s.free c).putIpData c (s.found c).isSome
  t.ipDataLst.lst.map (t.demoted c)

/-- The two ways of a call: it only frees configurations, or it also adds or changes one. -/
inductive SetIpDataResult (s : DnsManager) (c : SetIpConfig) (freedChange : Bool) :
    DnsManager → Bool → Prop
  | frees {s' : DnsManager} (hlst : s'.ipDataLst = (s.free c).ipDataLst)
      (hbest : s'.bestIpConfig = (s.free c).bestIpConfig)
      (h : c.ipConfigType = .removed ∨
        (s.found c).map DnsConfigIpData.ipConfigType = some c.ipConfigType ∨
          c.l3cd.dnsPriority c.addrFamily = 0) :
      SetIpDataResult s c freedChange s' freedChange
  | puts {s' : DnsManager} (hlst : s'.ipDataLst = ⟨s.putLst c, true⟩)
      (hbest : ∀ f, s'.bestIpConfig f = (s.free c).bestIpConfig f ∨
        f = c.addrFamily ∧ ∀ key ∈ s'.bestIpConfig f, key = c.ipData.key)
      (hremoved : c.ipConfigType ≠ .removed)
      (hpriority : c.l3cd.dnsPriority c.addrFamily ≠ 0) :
      SetIpDataResult s c freedChange s'
        (freedChange || ((s.found c).isSome || s.ipDataLst.lst.filter c.Frees = []))

theorem free_bestIpConfig (s : DnsManager) (c : SetIpConfig) (f : AddrFamily) :
    (s.free c).bestIpConfig f = (s.bestIpConfig f).filter fun key =>
      key ∉ (s.ipDataLst.lst.filter c.Frees).map DnsConfigIpData.key := by
  cases f <;> rfl

theorem free_bestIpConfig_eq {f : AddrFamily} (h : ∀ key ∈ s.bestIpConfig f,
    key ∉ (s.ipDataLst.lst.filter c.Frees).map DnsConfigIpData.key) :
    (s.free c).bestIpConfig f = s.bestIpConfig f := by
  rw [free_bestIpConfig]
  cases hbest : s.bestIpConfig f with
  | none => rfl
  | some key => rw [Option.filter_some, if_pos (decide_eq_true (h key hbest))]

theorem putIpData_bestIpConfig (s : DnsManager) (found : Bool) :
    (s.putIpData c found).bestIpConfig = s.bestIpConfig := by
  unfold putIpData
  split_ifs <;> (funext f; cases f <;> rfl)

theorem updateBest_bestIpConfig (s : DnsManager) (c : SetIpConfig) (f : AddrFamily) :
    (s.updateBest c).bestIpConfig f = s.bestIpConfig f ∨
      f = c.addrFamily ∧ ∀ key ∈ (s.updateBest c).bestIpConfig f, key = c.ipData.key := by
  have hset (u : DnsManager) (best : Option DnsIpDataKey) (hu : u.bestIpConfig f = s.bestIpConfig f)
      (hbest : ∀ key ∈ best, key = c.ipData.key) :
      (u.setBestIpConfig best c.addrFamily).bestIpConfig f = s.bestIpConfig f ∨
        f = c.addrFamily ∧ ∀ key ∈ (u.setBestIpConfig best c.addrFamily).bestIpConfig f,
          key = c.ipData.key := by
    generalize c.addrFamily = f'
    cases f <;> cases f' <;> first | exact .inr ⟨rfl, hbest⟩ | exact .inl hu
  unfold updateBest
  dsimp only
  split_ifs
  · exact hset _ _ (by cases f <;> rfl) fun key hkey => (Option.some.inj hkey).symm
  · exact .inl rfl
  · exact hset s none rfl fun key hkey => absurd hkey (Option.not_mem_none key)
  · exact .inl rfl

theorem setIpData_result (h : s.setIpData c = some (s', changed)) :
    s'.rest = s.rest ∧ ∃ freedChange, c.freesChange (s.ipDataLst.lst.filter c.Frees) =
      some freedChange ∧ SetIpDataResult s c freedChange s' changed := by
  obtain ⟨freedChange, hfreed, h⟩ := Option.map_eq_some_iff.mp h
  have hrest : (((s.free c).putIpData c (s.found c).isSome).updateBest c).rest = s.rest :=
    (updateBest_rest c _).trans (putIpData_rest c _ _)
  have hlst := updateBest_ipDataLst c ((s.free c).putIpData c (s.found c).isSome)
  have hbest := updateBest_bestIpConfig ((s.free c).putIpData c (s.found c).isSome) c
  rw [putIpData_bestIpConfig] at hbest
  dsimp only at h
  split_ifs at h with hdone hchanged
  · obtain ⟨rfl, rfl⟩ := Prod.mk.inj h
    exact ⟨rfl, _, hfreed, .frees rfl rfl hdone⟩
  · obtain ⟨rfl, rfl⟩ := Prod.mk.inj h
    simp only [not_or] at hdone
    refine ⟨hrest, _, hfreed,
      .puts ?_ (fun f => ?_) hdone.1 hdone.2.2⟩
    · exact congrArg (DnsIpDataLst.mk · true) (congrArg DnsIpDataLst.lst hlst)
    · cases f with
      | inet => exact hbest .inet
      | inet6 => exact hbest .inet6
  · obtain ⟨rfl, rfl⟩ := Prod.mk.inj h
    simp only [not_or] at hdone
    have hfound : (s.found c).isSome = false := by
      simp only [Bool.or_eq_true, not_or, Bool.not_eq_true] at hchanged
      exact hchanged.2.1
    refine ⟨hrest, _, hfreed, .puts ?_ hbest hdone.1 hdone.2.2⟩
    -- nothing is found, so that the configuration is new and the list is to be sorted
    refine hlst.trans ?_
    simp [putLst, putIpData, hfound]

theorem mem_free (hd : d ∈ (s.free c).ipDataLst.lst) : d ∈ s.ipDataLst.lst ∧ ¬ c.Frees d := by
  obtain ⟨hmem, hfrees⟩ := mem_filter.mp hd
  exact ⟨hmem, of_decide_eq_true hfrees⟩

theorem demoted_dnsPriority : (s.demoted c d).dnsPriority = d.dnsPriority := by
  unfold demoted
  split_ifs <;> rfl

theorem putLst_dnsPriority (h : ∀ d ∈ s.ipDataLst.lst, d.dnsPriority ≠ 0)
    (hc : c.l3cd.dnsPriority c.addrFamily ≠ 0) : ∀ d ∈ s.putLst c, d.dnsPriority ≠ 0 := by
  have hput : ∀ d ∈ ((s.free c).putIpData c (s.found c).isSome).ipDataLst.lst,
      d.dnsPriority ≠ 0 := by
    intro d hd
    unfold putIpData at hd
    split_ifs at hd with hfound
    · obtain ⟨d₀, hd₀, rfl⟩ := mem_map.mp hd
      have hpriority := h d₀ (mem_free hd₀).1
      split_ifs <;> exact hpriority
    · rcases mem_append.mp hd with hold | hnew
      · exact h d (mem_free hold).1
      · obtain rfl := mem_singleton.mp hnew
        exact hc
  intro d hd
  obtain ⟨d₀, hd₀, rfl⟩ := mem_map.mp hd
  rw [demoted_dnsPriority]
  exact hput d₀ hd₀

theorem demoted_key : (s.demoted c d).key = d.key := by
  unfold demoted
  split_ifs <;> rfl

theorem putLst_keys (h : (s.ipDataLst.lst.map DnsConfigIpData.key).Nodup)
    (hremoved : c.ipConfigType ≠ .removed) : ((s.putLst c).map DnsConfigIpData.key).Nodup := by
  have hdemoted (u : DnsManager) (l : List DnsConfigIpData) :
      (l.map (u.demoted c)).map DnsConfigIpData.key = l.map DnsConfigIpData.key := by
    rw [map_map]
    exact map_congr_left fun d _ => demoted_key
  have hfree : ((s.free c).ipDataLst.lst.map DnsConfigIpData.key).Nodup :=
    h.sublist (filter_sublist.map _)
  unfold putLst
  rw [hdemoted]
  cases hfound : s.found c with
  | some d =>
    have hkeys : ((s.free c).putIpData c true).ipDataLst.lst.map DnsConfigIpData.key =
        (s.free c).ipDataLst.lst.map DnsConfigIpData.key := by
      simp only [putIpData, if_true, setType, map_map]
      refine map_congr_left fun d _ => ?_
      rw [Function.comp_apply]
      split_ifs <;> rfl
    exact hkeys ▸ hfree
  | none =>
    have hkeys : ((s.free c).putIpData c false).ipDataLst.lst =
        (s.free c).ipDataLst.lst ++ [c.ipData] := rfl
    rw [Option.isSome_none, hkeys, map_append, map_singleton,
      nodup_append_comm, singleton_append, nodup_cons]
    refine ⟨fun hmem => ?_, hfree⟩
    obtain ⟨d, hd, hkey⟩ := mem_map.mp hmem
    have hsame : ¬ c.IsSame d := by simpa using List.find?_eq_none.mp hfound d hd
    exact hsame ⟨hremoved, hkey⟩

/-! ## The invariant -/

/-- The list is in order unless it is marked, its keys are distinct, the best ones are of their
address family, and no configuration is without a priority. -/
structure IpDataSound (s : DnsManager) : Prop where
  sorted : s.ipDataLst.needSort = false → s.ipDataLst.lst.Pairwise MgrGetIpDataLstCmp
  keys : (s.ipDataLst.lst.map DnsConfigIpData.key).Nodup
  best : ∀ f, ∀ key ∈ s.bestIpConfig f, key.addrFamily = f
  dnsPriority : ∀ d ∈ s.ipDataLst.lst, d.dnsPriority ≠ 0

theorem IpDataSound.head_eq (h : s.IpDataSound) :
    s.ipDataLst.head = s.ipDataLst.lst.insertionSort MgrGetIpDataLstCmp := by
  unfold DnsIpDataLst.head
  split_ifs with hsort
  · rfl
  · exact (h.sorted (Bool.not_eq_true _ ▸ hsort)).insertionSort_eq.symm

theorem free_ipDataSound (h : s.IpDataSound) (c : SetIpConfig) : (s.free c).IpDataSound where
  sorted hsort := (h.sorted hsort).sublist filter_sublist
  keys := h.keys.sublist (filter_sublist.map _)
  best f key hkey := by
    rw [free_bestIpConfig] at hkey
    exact h.best f key (Option.filter_eq_some_iff.mp hkey).1
  dnsPriority _ hd := h.dnsPriority _ (mem_free hd).1

theorem SetIpDataResult.ipDataSound {freedChange : Bool} (h : s.IpDataSound)
    (hresult : SetIpDataResult s c freedChange s' changed) : s'.IpDataSound := by
  have hfree := free_ipDataSound h c
  cases hresult with
  | frees hlst hbest _ =>
    exact ⟨hlst ▸ hfree.sorted, hlst ▸ hfree.keys, hbest ▸ hfree.best, hlst ▸ hfree.dnsPriority⟩
  | puts hlst hbest hremoved hpriority =>
    refine ⟨by simp [hlst], by simpa [hlst] using putLst_keys h.keys hremoved, fun f key hkey => ?_,
      by simpa [hlst] using putLst_dnsPriority h.dnsPriority hpriority⟩
    rcases hbest f with hsame | ⟨rfl, hnew⟩
    · exact hfree.best f key (hsame ▸ hkey)
    · rw [hnew key hkey]
      rfl

theorem IpDataSound.sort (h : s.IpDataSound) (hlst : s'.ipDataLst = s.ipDataLst.sort)
    (hbest : s'.bestIpConfig = s.bestIpConfig) : s'.IpDataSound := by
  have hpairwise : s.ipDataLst.head.Pairwise MgrGetIpDataLstCmp := by
    rw [h.head_eq]
    exact pairwise_insertionSort MgrGetIpDataLstCmp _
  refine ⟨fun _ => hlst ▸ hpairwise, ?_, hbest ▸ h.best, fun d hd => ?_⟩
  · rw [hlst]
    exact (s.ipDataLst.perm_head.map DnsConfigIpData.key).nodup_iff.mpr h.keys
  · rw [hlst] at hd
    exact h.dnsPriority d (s.ipDataLst.perm_head.mem_iff.mp hd)

/-- What an update would read is what the last update has read. -/
structure ReadsAsLast (env : DnsEnv) (s : DnsManager) : Prop where
  ipDataLst : s.ipDataLst.ReadsAs env s.lastIpDataLst
  hostdomain : s.hostdomain = s.lastHostdomain

def lastResult (env : DnsEnv) (s : DnsManager) : Option DnsUpdate :=
  s.lastUpdate.or (dnsUpdate env .empty none)

/-- The last update is what `update_dns()` would compute now, unless there is a batch. -/
def UpToDate (env : DnsEnv) (s : DnsManager) : Prop :=
  s.updatesQueue = 0 → s.lastResult env = dnsUpdate env s.ipDataLst s.hostdomain

/-- The last update and its hash are of the list and the host domain that it has read. -/
structure Recorded (env : DnsEnv) (s : DnsManager) : Prop where
  sound : s.IpDataSound
  recorded : s.lastResult env = dnsUpdate env s.lastIpDataLst s.lastHostdomain
  hash : s.hash = computeHash env.globalConfig s.lastIpDataLst ∨
    env.globalConfig ≠ none ∧ s.hash = []
  prevHash : s.updatesQueue ≠ 0 → s.prevHash = s.hash

structure Tracked (env : DnsEnv) (s : DnsManager) : Prop extends Recorded env s where
  reads : s.updatesQueue = 0 → s.ReadsAsLast env

theorem Tracked.upToDate (h : s.Tracked env) : s.UpToDate env := by
  intro hqueue
  have hreads := h.reads hqueue
  rw [h.recorded, hreads.hostdomain]
  exact (dnsUpdate_congr hreads.ipDataLst).symm

theorem start_tracked (env : DnsEnv) : start.Tracked env where
  sound := ⟨by simp [start, DnsIpDataLst.empty], by simp [start, DnsIpDataLst.empty],
    fun f => by cases f <;> simp [start, bestIpConfig], by simp [start, DnsIpDataLst.empty]⟩
  recorded := rfl
  hash := by
    cases h : env.globalConfig with
    | none => exact .inl rfl
    | some global => exact .inr ⟨Option.some_ne_none global, rfl⟩
  prevHash h := absurd rfl h
  reads _ := ⟨.refl _, rfl⟩

theorem updateDns_tracked (h : s.Recorded env) (hqueue : s.updatesQueue = 0)
    (hupdate : s.updateDns env = some s') : s'.Tracked env := by
  obtain ⟨update, hcomputed, rfl⟩ := Option.map_eq_some_iff.mp hupdate
  exact ⟨⟨h.sound.sort rfl (by funext f; cases f <;> rfl), hcomputed.symm, .inl rfl, fun hne => absurd hqueue hne⟩,
    fun _ => ⟨@DnsIpDataLst.ReadsAs.refl env s.ipDataLst, rfl⟩⟩

theorem maybeUpdateDns_tracked (h : s.Recorded env) (hupdate : s.maybeUpdateDns env = some s') :
    s'.Tracked env ∧ s'.updatesQueue = s.updatesQueue := by
  unfold maybeUpdateDns at hupdate
  split_ifs at hupdate with hqueue
  · refine ⟨updateDns_tracked h hqueue hupdate, ?_⟩
    obtain ⟨update, -, rfl⟩ := Option.map_eq_some_iff.mp hupdate
    rfl
  · obtain rfl := Option.some.inj hupdate
    exact ⟨⟨h, fun hzero => absurd hzero hqueue⟩, rfl⟩

theorem Recorded.of_rest (hs : s.Recorded env) (h : s'.rest = s.rest) (hsound : s'.IpDataSound) :
    s'.Recorded env := by
  obtain ⟨-, -, -, -, -, hqueue, hhash, hprevHash, hupdate, hlst, hdomain⟩ := DnsManager.mk.inj h
  refine ⟨hsound, ?_, ?_, ?_⟩
  · rw [lastResult, hupdate, hlst, hdomain]
    exact hs.recorded
  · rw [hhash, hlst]
    exact hs.hash
  · rw [hqueue, hprevHash, hhash]
    exact hs.prevHash

theorem ReadsAsLast.of_rest (hs : s.ReadsAsLast env) (h : s'.rest = s.rest)
    (hread : s'.ipDataLst.ReadsAs env s.ipDataLst) : s'.ReadsAsLast env := by
  obtain ⟨-, -, -, -, hhostdomain, -, -, -, -, hlst, hdomain⟩ := DnsManager.mk.inj h
  refine ⟨?_, ?_⟩
  · rw [hlst]
    exact hread.trans hs.ipDataLst
  · rw [hhostdomain, hdomain]
    exact hs.hostdomain

/-! ## Configurations in the place of others -/

/-- What becomes of a configuration that stays: a best device is demoted if there is a new one. -/
def kept (s : DnsManager) (rs : List SetIpConfig) (d : DnsConfigIpData) : DnsConfigIpData :=
  if ∃ r ∈ rs, r.ipConfigType = .bestDevice ∧ s.bestIpConfig r.addrFamily = some d.key then
    { d with ipConfigType := .default }
  else d

/-- What becomes of a configuration when the calls have freed some. -/
def becomes (s : DnsManager) (rs : List SetIpConfig) (d : DnsConfigIpData) : DnsConfigIpData :=
  (rs.find? fun r => r.Frees d).elim (s.kept rs d) SetIpConfig.ipData

/-- Where it stands in the list then: the new ones are behind all others. -/
def place (s : DnsManager) (rs : List SetIpConfig) (d : DnsConfigIpData) : ℕ :=
  (rs.findIdx? fun r => r.Frees d).elim (s.ipDataLst.lst.idxOf d) (s.ipDataLst.lst.length + ·)

/-- What becomes of the first configuration still comes before what becomes of the second. -/
def KeepsOrder (s : DnsManager) (rs : List SetIpConfig) (a b : DnsConfigIpData) : Prop :=
  MgrGetIpDataLstCmp (s.becomes rs a) (s.becomes rs b) ∧
    (MgrGetIpDataLstCmp (s.becomes rs b) (s.becomes rs a) → s.place rs a < s.place rs b)

/-- A call puts the new configuration in the place of one old one. -/
structure Replaces (s : DnsManager) (c : SetIpConfig) : Prop where
  frees : (s.ipDataLst.lst.filter c.Frees).length = 1
  notSame : ∀ d ∈ s.ipDataLst.lst, ¬ c.IsSame d

/-- Calls put new configurations in the place of old ones, and an update does not see it: the order
stays, and so do the data that the comparison leaves out. -/
structure TakePlace (env : DnsEnv) (s : DnsManager) (rs : List SetIpConfig) : Prop where
  replaces : ∀ r ∈ rs, s.Replaces r
  sorts : s.ipDataLst.head.Pairwise (s.KeepsOrder rs)
  domains : env.hasPlugin → ∀ d ∈ s.ipDataLst.lst, d.nameservers ≠ [] →
    (s.becomes rs d).domainReads = d.domainReads

/-- What calls have done that have all replaced a configuration and do not say that anything has
changed. -/
structure Replaced (s : DnsManager) (rs : List SetIpConfig) (t : DnsManager) : Prop where
  rest : t.rest = s.rest
  lst : t.ipDataLst.lst =
    (s.ipDataLst.lst.filter fun d => ∀ r ∈ rs, ¬ r.Frees d).map (s.kept rs) ++
      rs.map SetIpConfig.ipData
  needSort : t.ipDataLst.needSort = true ∨ t.ipDataLst = s.ipDataLst ∧ rs = []
  best : ∀ f, (∀ r ∈ rs, r.addrFamily ≠ f) → t.bestIpConfig f = s.bestIpConfig f
  families : rs.Pairwise fun r r' => r.addrFamily ≠ r'.addrFamily
  resolv : ∀ r ∈ rs, ∀ d ∈ s.ipDataLst.lst, r.Frees d →
    r.ipConfigType ≠ .removed ∧ r.ipData.resolvConfReads = d.resolvConfReads

theorem SetIpConfig.frees_congr {d' : DnsConfigIpData} (hkey : d'.key = d.key) :
    c.Frees d' ↔ c.Frees d := by
  obtain ⟨hfamily, htag, hl3cd⟩ := DnsIpDataKey.mk.inj hkey
  unfold SetIpConfig.Frees SetIpConfig.IsSame DnsConfigIpData.ifindex
  rw [hfamily, htag, hl3cd, hkey]

theorem SetIpConfig.Frees.addrFamily (h : c.Frees d) : d.addrFamily = c.addrFamily := h.2.2.1

@[simp] theorem kept_key : (s.kept rs d).key = d.key := by
  unfold kept
  split_ifs <;> rfl

theorem kept_nil (s : DnsManager) : s.kept [] = id := by
  funext d
  simp [kept]

theorem kept_of_addrFamily (hsound : s.IpDataSound)
    (hfamily : ∀ r ∈ rs, r.addrFamily ≠ d.addrFamily) : s.kept rs d = d := by
  refine if_neg ?_
  rintro ⟨r, hr, -, hbest⟩
  exact hfamily r hr (hsound.best _ d.key hbest).symm

theorem kept_append (s : DnsManager) (rs : List SetIpConfig) (c : SetIpConfig)
    (d : DnsConfigIpData) : s.kept (rs ++ [c]) d =
      if c.ipConfigType = .bestDevice ∧ s.bestIpConfig c.addrFamily = some d.key then
        { s.kept rs d with ipConfigType := .default }
      else s.kept rs d := by
  simp only [kept, mem_append, mem_singleton, or_and_right, exists_or, exists_eq_left]
  split_ifs <;> simp_all

theorem Replaced.refl (s : DnsManager) : Replaced s [] s where
  rest := rfl
  lst := by simp [kept_nil]
  needSort := .inr ⟨rfl, rfl⟩
  best _ _ := rfl
  families := .nil
  resolv _ hc := absurd hc not_mem_nil

section Replaced

variable (h : Replaced s rs t) (hsound : s.IpDataSound)
  (hfamily : ∀ r ∈ rs, r.addrFamily ≠ c.addrFamily)

include hfamily in
theorem not_frees_ipData : ∀ d ∈ rs.map SetIpConfig.ipData, ¬ c.Frees d := by
  rintro d hd hfrees
  obtain ⟨r, hr, rfl⟩ := mem_map.mp hd
  exact hfamily r hr hfrees.addrFamily

include h hsound hfamily

/-- The call frees what it would have freed at first. -/
theorem Replaced.filter_frees :
    t.ipDataLst.lst.filter c.Frees = s.ipDataLst.lst.filter c.Frees := by
  have hnew : (rs.map SetIpConfig.ipData).filter c.Frees = [] :=
    filter_eq_nil_iff.mpr fun d hd => by simpa using not_frees_ipData hfamily d hd
  have hkept : ∀ d ∈ s.ipDataLst.lst.filter c.Frees, s.kept rs d = d := by
    intro d hd
    have hfrees : c.Frees d := of_decide_eq_true (mem_filter.mp hd).2
    exact kept_of_addrFamily hsound fun r hr => hfrees.addrFamily ▸ hfamily r hr
  calc
    t.ipDataLst.lst.filter c.Frees = (s.ipDataLst.lst.filter c.Frees).map (s.kept rs) := by
      rw [h.lst, filter_append, hnew, append_nil, filter_map, filter_filter]
      congr 1
      refine filter_congr fun d _ => ?_
      simp only [Function.comp_apply, SetIpConfig.frees_congr kept_key]
      by_cases hfrees : c.Frees d
      · have hstays : ∀ r ∈ rs, ¬ r.Frees d := fun r hr hfrees' =>
          hfamily r hr (hfrees'.addrFamily.symm.trans hfrees.addrFamily)
        simpa [hfrees] using hstays
      · simp [hfrees]
    _ = s.ipDataLst.lst.filter c.Frees := (map_congr_left hkept).trans (map_id _)

omit hsound in
theorem Replaced.not_isSame (hreplaces : s.Replaces c) :
    ∀ d ∈ t.ipDataLst.lst, ¬ c.IsSame d := by
  intro d hd hsame
  rw [h.lst, mem_append] at hd
  rcases hd with hd | hd
  · obtain ⟨d', hd', rfl⟩ := mem_map.mp hd
    exact hreplaces.notSame d' (mem_filter.mp hd').1 ⟨hsame.1, kept_key.symm.trans hsame.2⟩
  · obtain ⟨r, hr, rfl⟩ := mem_map.mp hd
    exact hfamily r hr (congrArg DnsIpDataKey.addrFamily hsame.2)

/-- The best configuration that the call finds is the one of before, if it stays. -/
theorem Replaced.bestIpConfig_eq_iff {found : Bool} (hfrees : ¬ c.Frees d) :
    ((t.free c).putIpData c found).bestIpConfig c.addrFamily = some d.key ↔
      s.bestIpConfig c.addrFamily = some d.key := by
  rw [putIpData_bestIpConfig, free_bestIpConfig, h.best _ hfamily, h.filter_frees hsound hfamily,
    Option.filter_eq_some_iff]
  refine and_iff_left_of_imp fun _ => decide_eq_true fun hmem => ?_
  obtain ⟨d', hd', hkey⟩ := mem_map.mp hmem
  exact hfrees ((SetIpConfig.frees_congr hkey).mp (of_decide_eq_true (mem_filter.mp hd').2))

theorem Replaced.putLst_eq (hreplaces : s.Replaces c) (hremoved : c.ipConfigType ≠ .removed) :
    t.putLst c = (s.ipDataLst.lst.filter fun d => ∀ r ∈ rs ++ [c], ¬ r.Frees d).map
      (s.kept (rs ++ [c])) ++ (rs ++ [c]).map SetIpConfig.ipData := by
  have hfound : t.found c = none := by
    refine List.find?_eq_none.mpr fun d hd => ?_
    simpa using h.not_isSame hfamily hreplaces d (mem_free hd).1
  have hput : t.putLst c = ((t.free c).ipDataLst.lst ++ [c.ipData]).map
      (((t.free c).putIpData c false).demoted c) := by
    rw [putLst, hfound]
    rfl
  have hnew : (rs.map SetIpConfig.ipData).filter (fun d => ¬ c.Frees d) =
      rs.map SetIpConfig.ipData :=
    filter_eq_self.mpr fun d hd => decide_eq_true (not_frees_ipData hfamily d hd)
  have hold : (t.free c).ipDataLst.lst =
      (s.ipDataLst.lst.filter fun d => ∀ r ∈ rs ++ [c], ¬ r.Frees d).map (s.kept rs) ++
        rs.map SetIpConfig.ipData := by
    simp only [free, h.lst, filter_append, hnew, filter_map, filter_filter]
    congr 2
    refine filter_congr fun d _ => ?_
    rw [Bool.eq_iff_iff]
    simp only [forall_mem_append, forall_mem_singleton, Bool.and_eq_true,
      decide_eq_true_eq, Function.comp_apply, SetIpConfig.frees_congr kept_key]
    exact and_comm
  have hstays : ∀ d ∈ s.ipDataLst.lst.filter (fun d => ∀ r ∈ rs ++ [c], ¬ r.Frees d),
      ((t.free c).putIpData c false).demoted c (s.kept rs d) = s.kept (rs ++ [c]) d := by
    intro d hd
    obtain ⟨hmem, hstays⟩ := mem_filter.mp hd
    have hfrees : ¬ c.Frees d := (forall_mem_append.mp (of_decide_eq_true hstays)).2 c
      (mem_singleton_self c)
    have hne : d.key ≠ c.ipData.key := fun hkey => hreplaces.notSame d hmem ⟨hremoved, hkey⟩
    rw [kept_append, demoted]
    simp only [kept_key, h.bestIpConfig_eq_iff hsound hfamily hfrees, ne_eq, hne,
      not_false_eq_true, and_true]
  have hnot : ∀ r ∈ rs ++ [c], ((t.free c).putIpData c false).demoted c r.ipData = r.ipData := by
    intro r hr
    refine if_neg ?_
    rintro ⟨-, hbest, hne⟩
    rcases mem_append.mp hr with hr | hr
    · have hfrees : ¬ c.Frees r.ipData := not_frees_ipData hfamily _ (mem_map_of_mem hr)
      rw [h.bestIpConfig_eq_iff hsound hfamily hfrees] at hbest
      exact hfamily r hr (hsound.best _ _ hbest)
    · exact hne (congrArg (fun r => r.ipData.key) (mem_singleton.mp hr))
  have hcall : rs.map SetIpConfig.ipData ++ [c.ipData] = (rs ++ [c]).map SetIpConfig.ipData := by
    rw [map_append, map_singleton]
  rw [hput, hold, append_assoc, hcall, map_append, map_map, map_map]
  exact congrArg₂ (· ++ ·) (map_congr_left hstays) (map_congr_left hnot)

/-- One more call. -/
theorem Replaced.step (hset : t.setIpData c = some (t', false))
    (hreplaces : (∃ d ∈ s.ipDataLst.lst, c.Frees d) → s.Replaces c) :
    Replaced s (rs ++ if ∃ d ∈ s.ipDataLst.lst, c.Frees d then [c] else []) t' := by
  obtain ⟨hrest, freedChange, hfreed, hresult⟩ := setIpData_result hset
  rw [h.filter_frees hsound hfamily] at hfreed
  generalize hchanged : false = changed at hresult
  split_ifs with hfrees
  · have hreplaces := hreplaces hfrees
    obtain ⟨old, hold⟩ := length_eq_one_iff.mp hreplaces.frees
    have hfree : freedChange = false := by
      cases hresult with
      | frees _ _ _ => exact hchanged.symm
      | puts _ _ _ _ =>
        cases freedChange with
        | false => rfl
        | true => simp at hchanged
    have hchanges : c.freeChanges old = some false := by
      simpa [SetIpConfig.freesChange, hold, hfree] using hfreed
    have hresolv : ∀ d ∈ s.ipDataLst.lst, c.Frees d →
        c.ipConfigType ≠ .removed ∧ c.ipData.resolvConfReads = d.resolvConfReads := by
      intro d hd hfrees
      have hmem : d ∈ s.ipDataLst.lst.filter c.Frees :=
        mem_filter.mpr ⟨hd, decide_eq_true hfrees⟩
      rw [hold] at hmem
      obtain rfl := mem_singleton.mp hmem
      exact hfrees.resolvConfReads_eq hchanges
    obtain ⟨d, hd, hfreesd⟩ := hfrees
    obtain ⟨hremoved, hreads⟩ := hresolv d hd hfreesd
    cases hresult with
    | frees hlst _ hdone =>
      exfalso
      rcases hdone with hremoved' | hfound | hpriority
      · exact hremoved hremoved'
      · obtain ⟨d', hd', -⟩ := Option.map_eq_some_iff.mp hfound
        exact h.not_isSame hfamily hreplaces d' (mem_free (mem_of_find?_eq_some hd')).1
          (by simpa using List.find?_some hd')
      · have heq : c.ipData.dnsPriority = d.dnsPriority :=
          congrArg ResolvConfReads.dnsPriority hreads
        exact hsound.dnsPriority d hd (heq.symm.trans hpriority)
    | puts hlst hbest _ _ =>
      refine ⟨hrest.trans h.rest, ?_, .inl (congrArg DnsIpDataLst.needSort hlst), ?_, ?_, ?_⟩
      · rw [hlst]
        exact h.putLst_eq hsound hfamily hreplaces hremoved
      · intro f hf
        obtain ⟨hf, hne⟩ := forall_mem_append.mp hf
        have hne := forall_mem_singleton.mp hne
        rcases hbest f with hsame | ⟨rfl, -⟩
        · rw [hsame, free_bestIpConfig_eq, h.best f hf]
          rintro key hkey hmem
          rw [h.best f hf] at hkey
          rw [h.filter_frees hsound hfamily] at hmem
          obtain ⟨d', hd', rfl⟩ := mem_map.mp hmem
          have hfrees : c.Frees d' := of_decide_eq_true (mem_filter.mp hd').2
          exact hne (hfrees.addrFamily.symm.trans (hsound.best f d'.key hkey))
        · exact absurd rfl hne
      · refine pairwise_append.mpr ⟨h.families, pairwise_singleton _ _, ?_⟩
        exact fun r hr c' hc' => mem_singleton.mp hc' ▸ hfamily r hr
      · intro r hr d hd hfreesr
        rcases mem_append.mp hr with hr | hr
        · exact h.resolv r hr d hd hfreesr
        · obtain rfl := mem_singleton.mp hr
          exact hresolv d hd hfreesr
  · have hnil : t.ipDataLst.lst.filter c.Frees = [] := by
      rw [h.filter_frees hsound hfamily]
      refine filter_eq_nil_iff.mpr fun d hd hfreesd => ?_
      exact hfrees ⟨d, hd, of_decide_eq_true hfreesd⟩
    rw [append_nil]
    cases hresult with
    | frees hlst hbest _ =>
      have hkeep : t.ipDataLst.lst.filter (fun d => ¬ c.Frees d) = t.ipDataLst.lst := by
        refine filter_eq_self.mpr fun d hd => ?_
        simpa using filter_eq_nil_iff.mp hnil d hd
      have hsame : t'.ipDataLst = t.ipDataLst := by
        rw [hlst]
        simp only [free, hkeep]
      refine ⟨hrest.trans h.rest, hsame ▸ h.lst, hsame ▸ h.needSort, fun f hf => ?_, h.families,
        h.resolv⟩
      rw [hbest, free_bestIpConfig_eq fun key _ => by simp [hnil], h.best f hf]
    | puts _ _ _ _ => simp [hnil] at hchanged

end Replaced

/-! ## What an update sees of it -/

/-- A configuration is replaced by the first call that frees it, or it stays. -/
theorem becomes_cases (s : DnsManager) (rs : List SetIpConfig) (d : DnsConfigIpData) :
    (∃ i, ∃ hi : i < rs.length, rs[i].Frees d ∧ s.becomes rs d = rs[i].ipData ∧
      s.place rs d = s.ipDataLst.lst.length + i) ∨
    (∀ r ∈ rs, ¬ r.Frees d) ∧ s.becomes rs d = s.kept rs d ∧
      s.place rs d = s.ipDataLst.lst.idxOf d := by
  unfold becomes place
  cases hfind : rs.findIdx? (fun r => r.Frees d) with
  | none =>
    have hstays := findIdx?_eq_none_iff.mp hfind
    have hnone : rs.find? (fun r => r.Frees d) = none := find?_eq_none.mpr (by simpa using hstays)
    rw [hnone]
    exact .inr ⟨by simpa using hstays, rfl, rfl⟩
  | some i =>
    obtain ⟨hi, hfrees, hfirst⟩ := findIdx?_eq_some_iff_getElem.mp hfind
    have hsome : rs.find? (fun r => r.Frees d) = some rs[i] :=
      find?_eq_some_iff_getElem.mpr ⟨hfrees, i, hi, rfl, fun j hj => by simpa using hfirst j hj⟩
    rw [hsome]
    exact .inl ⟨i, hi, of_decide_eq_true hfrees, rfl, rfl⟩

theorem Replaces.exists_frees (hreplaces : s.Replaces c) : ∃ d ∈ s.ipDataLst.lst, c.Frees d := by
  obtain ⟨d, hd⟩ := length_eq_one_iff.mp hreplaces.frees
  have hmem : d ∈ s.ipDataLst.lst.filter c.Frees := hd ▸ mem_singleton_self d
  obtain ⟨hmem, hfrees⟩ := mem_filter.mp hmem
  exact ⟨d, hmem, of_decide_eq_true hfrees⟩

namespace Replaced

variable (h : Replaced s rs t)

include h

theorem eq_of_addrFamily {r r' : SetIpConfig} (hr : r ∈ rs) (hr' : r' ∈ rs)
    (heq : r.addrFamily = r'.addrFamily) : r = r' :=
  inj_on_of_nodup_map (pairwise_map.mpr h.families) hr hr' heq

theorem becomes_of_frees (hc : c ∈ rs) (hfrees : c.Frees d) : s.becomes rs d = c.ipData := by
  rcases s.becomes_cases rs d with ⟨i, hi, hfreesi, hbecomes, -⟩ | ⟨hstays, -⟩
  · rw [hbecomes, h.eq_of_addrFamily (getElem_mem hi) hc
      (hfreesi.addrFamily.symm.trans hfrees.addrFamily)]
  · exact absurd hfrees (hstays c hc)

variable (hreplaces : ∀ r ∈ rs, s.Replaces r)

include hreplaces

/-- What a call adds is new. -/
theorem key_ne (hc : c ∈ rs) : ∀ d ∈ s.ipDataLst.lst, d.key ≠ c.ipData.key := by
  intro d hd hkey
  obtain ⟨old, hold, hfrees⟩ := (hreplaces c hc).exists_frees
  exact (hreplaces c hc).notSame d hd ⟨(h.resolv c hc old hold hfrees).1, hkey⟩

theorem becomes_injective (hsound : s.IpDataSound) : ∀ a ∈ s.ipDataLst.lst,
    ∀ b ∈ s.ipDataLst.lst, s.becomes rs a = s.becomes rs b → a = b := by
  intro a ha b hb heq
  rcases s.becomes_cases rs a with ⟨i, hi, hfreesa, hbecomesa, -⟩ | ⟨-, hbecomesa, -⟩ <;>
    rcases s.becomes_cases rs b with ⟨j, hj, hfreesb, hbecomesb, -⟩ | ⟨-, hbecomesb, -⟩ <;>
      rw [hbecomesa, hbecomesb] at heq <;> have hkey := congrArg DnsConfigIpData.key heq
  · have hij := h.eq_of_addrFamily (getElem_mem hi) (getElem_mem hj)
      (congrArg DnsConfigIpData.addrFamily heq)
    obtain ⟨d, hd⟩ := length_eq_one_iff.mp (hreplaces _ (getElem_mem hi)).frees
    have hmem {x : DnsConfigIpData} (hx : x ∈ s.ipDataLst.lst) (hfrees : rs[i].Frees x) : x = d :=
      mem_singleton.mp (hd ▸ mem_filter.mpr ⟨hx, decide_eq_true hfrees⟩)
    exact (hmem ha hfreesa).trans (hmem hb (hij ▸ hfreesb)).symm
  · exact absurd (kept_key.symm.trans hkey.symm) (h.key_ne hreplaces (getElem_mem hi) b hb)
  · exact absurd (kept_key.symm.trans hkey) (h.key_ne hreplaces (getElem_mem hj) a ha)
  · rw [kept_key, kept_key] at hkey
    exact inj_on_of_nodup_map hsound.keys ha hb hkey

theorem mem_map_becomes (d : DnsConfigIpData) :
    d ∈ s.ipDataLst.lst.map (s.becomes rs) ↔ d ∈ t.ipDataLst.lst := by
  rw [h.lst, mem_append]
  constructor
  · intro hd
    obtain ⟨a, ha, rfl⟩ := mem_map.mp hd
    rcases s.becomes_cases rs a with ⟨i, hi, -, hbecomes, -⟩ | ⟨hstays, hbecomes, -⟩ <;>
      rw [hbecomes]
    · exact .inr (mem_map_of_mem (getElem_mem hi))
    · exact .inl (mem_map_of_mem (mem_filter.mpr ⟨ha, decide_eq_true hstays⟩))
  · rintro (hd | hd)
    · obtain ⟨a, ha, rfl⟩ := mem_map.mp hd
      obtain ⟨ha, hstays⟩ := mem_filter.mp ha
      rcases s.becomes_cases rs a with ⟨i, hi, hfrees, -⟩ | ⟨-, hbecomes, -⟩
      · exact absurd hfrees (of_decide_eq_true hstays _ (getElem_mem hi))
      · exact mem_map.mpr ⟨a, ha, hbecomes⟩
    · obtain ⟨r, hr, rfl⟩ := mem_map.mp hd
      obtain ⟨a, ha, hfrees⟩ := (hreplaces r hr).exists_frees
      exact mem_map.mpr ⟨a, ha, h.becomes_of_frees hr hfrees⟩

omit hreplaces

/-- The one whose place is in front is in front in the new list. -/
theorem becomes_sublist {a b : DnsConfigIpData} (ha : a ∈ s.ipDataLst.lst)
    (hb : b ∈ s.ipDataLst.lst) (hplace : s.place rs a < s.place rs b) :
    [s.becomes rs a, s.becomes rs b].Sublist t.ipDataLst.lst := by
  have hlt := idxOf_lt_length_of_mem hb
  rw [h.lst]
  rcases s.becomes_cases rs a with ⟨i, hi, -, hbecomesa, hplacea⟩ | ⟨hstaysa, hbecomesa, hplacea⟩ <;>
    rcases s.becomes_cases rs b with ⟨j, hj, -, hbecomesb, hplaceb⟩ | ⟨hstaysb, hbecomesb, hplaceb⟩ <;>
      rw [hplacea, hplaceb] at hplace <;> rw [hbecomesa, hbecomesb]
  · exact ((pair_sublist (by omega) hj).map SetIpConfig.ipData).trans (sublist_append_right _ _)
  · omega
  · have hfirst : s.kept rs a ∈
        (s.ipDataLst.lst.filter fun d => ∀ r ∈ rs, ¬ r.Frees d).map (s.kept rs) :=
      mem_map_of_mem (mem_filter.mpr ⟨ha, decide_eq_true hstaysa⟩)
    exact (singleton_sublist.mpr hfirst).append
      (singleton_sublist.mpr (mem_map_of_mem (getElem_mem hj)))
  · have hpair := pair_sublist hplace hlt
    rw [getElem_idxOf, getElem_idxOf] at hpair
    have hfilter := hpair.filter fun d => ∀ r ∈ rs, ¬ r.Frees d
    rw [filter_eq_self.mpr (by simpa using ⟨hstaysa, hstaysb⟩)] at hfilter
    exact (hfilter.map (s.kept rs)).trans (sublist_append_left _ _)

variable (htake : TakePlace env s rs) (hs : s.IpDataSound) (ht : t.IpDataSound)

include htake hs ht

/-- The list is the old one, with the new configurations in the place of the old ones. -/
theorem head_eq (hsort : t.ipDataLst.needSort = true) :
    t.ipDataLst.head = s.ipDataLst.head.map (s.becomes rs) := by
  have hnodup : s.ipDataLst.lst.Nodup := hs.keys.of_map _
  have hnodup' : t.ipDataLst.lst.Nodup := ht.keys.of_map _
  have hhead := s.ipDataLst.perm_head
  rw [DnsIpDataLst.head, if_pos hsort]
  refine (eq_insertionSort_of_stable hnodup' ?_ ?_).symm
  · refine (hhead.map _).trans ((perm_ext_iff_of_nodup ?_ hnodup').mpr
      (h.mem_map_becomes htake.replaces))
    exact hnodup.map_on (h.becomes_injective htake.replaces hs)
  · rw [pairwise_map]
    refine htake.sorts.imp_of_mem ?_
    rintro a b ha hb ⟨hle, hplace⟩
    exact ⟨hle, fun hge => h.becomes_sublist (hhead.mem_iff.mp ha) (hhead.mem_iff.mp hb)
      (hplace hge)⟩

/-- An update does not see that configurations have been replaced. -/
theorem readsAs : t.ipDataLst.ReadsAs env s.ipDataLst := by
  rcases h.needSort with hsort | ⟨hsame, -⟩
  · intro _
    rw [h.head_eq htake hs ht hsort, forall₂_map_left_iff, forall₂_same]
    intro d hd
    have hmem := s.ipDataLst.perm_head.mem_iff.mp hd
    refine ⟨?_, fun hplugin => htake.domains hplugin d hmem⟩
    rcases s.becomes_cases rs d with ⟨i, hi, hfrees, hbecomes, -⟩ | ⟨-, hbecomes, -⟩ <;> rw [hbecomes]
    · exact (h.resolv _ (getElem_mem hi) d hmem hfrees).2
    · unfold kept
      split_ifs <;> rfl
  · rw [hsame]
    exact .refl _

end Replaced

/-! ## Calls that do not say that anything has changed -/

/-- The call does not say that anything has changed. -/
def Silent (s : DnsManager) (c : SetIpConfig) : Prop := (s.setIpData c).map Prod.snd = some false

/-- None of the calls says that anything has changed. -/
def AllSilent (env : DnsEnv) : DnsManager → List SetIpConfig → Prop :=
  AlongM (fun s c => s.setIpConfig env c) Silent

/-- The calls that free a configuration. -/
def replacing (s : DnsManager) (cs : List SetIpConfig) : List SetIpConfig :=
  cs.filter fun c => ∃ d ∈ s.ipDataLst.lst, c.Frees d

/-- If none of the calls that are still to come says that anything has changed, an update does not
see what they do. -/
def NoSilentChange (env : DnsEnv) : DnsManager → List SetIpConfig → Prop
  | _, [] => True
  | s, c :: cs =>
    (AllSilent env s (c :: cs) → env.readsConfigs → TakePlace env s (s.replacing (c :: cs))) ∧
      (¬ AllSilent env s (c :: cs) → ∀ t ∈ s.setIpConfig env c, NoSilentChange env t cs)

theorem setIpConfig_result (h : s.setIpConfig env c = some t) :
    s.setIpData c = some (t, false) ∨
      ∃ u, s.setIpData c = some (u, true) ∧
        maybeUpdateDns env { u with configChanged := true } = some t := by
  obtain ⟨⟨u, changed⟩, hset, h⟩ := Option.bind_eq_some_iff.mp h
  cases changed with
  | false =>
    obtain rfl := Option.some.inj h
    exact .inl hset
  | true => exact .inr ⟨u, hset, h⟩

theorem setIpConfig_recorded (hs : s.Recorded env) (h : s.setIpConfig env c = some t) :
    t.Recorded env ∧ t.updatesQueue = s.updatesQueue ∧ (¬ Silent s c → t.Tracked env) := by
  have hsound {u : DnsManager} {changed : Bool} (hset : s.setIpData c = some (u, changed)) :
      u.rest = s.rest ∧ u.IpDataSound := by
    obtain ⟨hrest, freedChange, -, hresult⟩ := setIpData_result hset
    exact ⟨hrest, hresult.ipDataSound hs.sound⟩
  rcases setIpConfig_result h with hset | ⟨u, hset, hupdate⟩
  · obtain ⟨hrest, hsound⟩ := hsound hset
    exact ⟨hs.of_rest hrest hsound, (congrArg updatesQueue hrest :),
      fun hloud => absurd (by rw [Silent, hset]; rfl) hloud⟩
  · obtain ⟨hrest, hsound⟩ := hsound hset
    have hrecorded := hs.of_rest hrest hsound
    have hchanged : Recorded env { u with configChanged := true } :=
      ⟨⟨hsound.sorted, hsound.keys, hsound.best, hsound.dnsPriority⟩, hrecorded.recorded,
        hrecorded.hash, hrecorded.prevHash⟩
    obtain ⟨htracked, hqueue⟩ := maybeUpdateDns_tracked hchanged hupdate
    exact ⟨htracked.toRecorded, hqueue.trans (congrArg updatesQueue hrest :), fun _ => htracked⟩

theorem setIpConfigs_recorded (hs : s.Recorded env)
    (h : cs.foldlM (fun s c => s.setIpConfig env c) s = some t) :
    t.Recorded env ∧ t.updatesQueue = s.updatesQueue := by
  refine foldlM_invariant (I := fun u => u.Recorded env ∧ u.updatesQueue = s.updatesQueue)
    (P := fun _ => True) (fun u c v hu _ huv => ?_) ⟨hs, rfl⟩ (fun _ _ => trivial) h
  obtain ⟨hv, hqueue, -⟩ := setIpConfig_recorded hu.1 huv
  exact ⟨hv, hqueue.trans hu.2⟩

theorem Silent.setIpData_eq (hsilent : Silent s c) (h : s.setIpConfig env c = some t) :
    s.setIpData c = some (t, false) := by
  rcases setIpConfig_result h with hset | ⟨u, hset, -⟩
  · exact hset
  · simp [Silent, hset] at hsilent

theorem AllSilent.rest (hsilent : AllSilent env s cs)
    (h : cs.foldlM (fun s c => s.setIpConfig env c) s = some t) : t.rest = s.rest := by
  refine AlongM.foldlM (I := fun t => t.rest = s.rest) (G := Silent) (fun u c v hu hc huv => ?_) rfl
    hsilent h
  exact (setIpData_result (hc.setIpData_eq huv)).1.trans hu

/-- The calls have replaced the configurations that they free. -/
theorem AllSilent.replaced (hrun : Replaced s rs t) (hsound : s.IpDataSound)
    (hsilent : AllSilent env t cs) (hreplaces : ∀ r ∈ s.replacing cs, s.Replaces r)
    (hcs : cs.Pairwise fun c c' => c.addrFamily ≠ c'.addrFamily)
    (hrs : ∀ r ∈ rs, ∀ c ∈ cs, r.addrFamily ≠ c.addrFamily)
    (h : cs.foldlM (fun s c => s.setIpConfig env c) t = some t') :
    Replaced s (rs ++ s.replacing cs) t' := by
  induction cs generalizing t rs with
  | nil =>
    obtain rfl := Option.some.inj h
    simpa [replacing] using hrun
  | cons c cs ih =>
    obtain ⟨u, hu, h⟩ := Option.bind_eq_some_iff.mp (foldlM_cons.symm.trans h)
    obtain ⟨hfirst, hsilent⟩ := hsilent
    obtain ⟨hc, hcs⟩ := pairwise_cons.mp hcs
    have hsplit : s.replacing (c :: cs) =
        (if ∃ d ∈ s.ipDataLst.lst, c.Frees d then [c] else []) ++ s.replacing cs := by
      rw [replacing, filter_cons]
      split_ifs <;> simp_all [replacing]
    have hstep := hrun.step hsound (fun r hr => hrs r hr c mem_cons_self)
      (hfirst.setIpData_eq hu) fun hfrees =>
      hreplaces c (by simp [hsplit, hfrees])
    rw [hsplit, ← append_assoc]
    refine ih hstep (hsilent u hu) (fun r hr => hreplaces r (by simp [hsplit, hr])) hcs ?_ h
    intro r hr c' hc'
    rcases mem_append.mp hr with hr | hr
    · exact hrs r hr c' (mem_cons_of_mem c hc')
    · obtain rfl : r = c := by split_ifs at hr <;> simp_all
      exact hc c' hc'

theorem setIpConfigs_tracked (hs : s.Recorded env)
    (hreads : s.updatesQueue = 0 → AllSilent env s cs → s.ReadsAsLast env)
    (hno : s.updatesQueue = 0 → NoSilentChange env s cs)
    (hcs : cs.Pairwise fun c c' => c.addrFamily ≠ c'.addrFamily)
    (h : cs.foldlM (fun s c => s.setIpConfig env c) s = some s') : s'.Tracked env := by
  induction cs generalizing s with
  | nil =>
    obtain rfl := Option.some.inj h
    exact ⟨hs, fun hqueue => hreads hqueue trivial⟩
  | cons c cs ih =>
    obtain ⟨hs', hqueue'⟩ := setIpConfigs_recorded hs h
    by_cases hqueue : s.updatesQueue = 0
    · obtain ⟨htake, hrest⟩ := hno hqueue
      by_cases hsilent : AllSilent env s (c :: cs)
      · refine ⟨hs', fun _ => (hreads hqueue hsilent).of_rest (hsilent.rest h) ?_⟩
        intro hreadsConfigs
        have htake := htake hsilent hreadsConfigs
        have hrun := hsilent.replaced (.refl s) hs.sound htake.replaces hcs
          (fun r hr => absurd hr not_mem_nil) h
        exact hrun.readsAs htake hs.sound hs'.sound hreadsConfigs
      · obtain ⟨t, ht, h⟩ := Option.bind_eq_some_iff.mp (foldlM_cons.symm.trans h)
        obtain ⟨htrecorded, htqueue, hloud⟩ := setIpConfig_recorded hs ht
        refine ih htrecorded (fun hzero htsilent => ?_) (fun _ => hrest hsilent t ht)
          (pairwise_cons.mp hcs).2 h
        have hnot : ¬ Silent s c := by
          intro hsilentc
          refine hsilent ⟨hsilentc, fun u hu => ?_⟩
          obtain rfl := Option.some.inj (ht.symm.trans hu)
          exact htsilent
        exact (hloud hnot).reads hzero
    · exact ⟨hs', fun hzero => absurd (hqueue'.symm.trans hzero) hqueue⟩

/-! ## The other calls -/

theorem setHostname_tracked {hostname : Option String} (hs : s.Tracked env)
    (h : s.setHostname env hostname = some s') : s'.Tracked env := by
  unfold setHostname at h
  dsimp only at h
  split_ifs at h with hsame
  · obtain rfl := Option.some.inj h
    exact hs
  · generalize hostname.bind (hostnameDomain env) = domain at h
    have hrenamed : Recorded env { s with hostdomain := domain } :=
      ⟨⟨hs.sound.sorted, hs.sound.keys, hs.sound.best, hs.sound.dnsPriority⟩, hs.recorded, hs.hash,
        hs.prevHash⟩
    exact (maybeUpdateDns_tracked hrenamed h).1

theorem beginUpdates_tracked (hs : s.Tracked env) : s.beginUpdates.Tracked env where
  sound := ⟨hs.sound.sorted, hs.sound.keys, hs.sound.best, hs.sound.dnsPriority⟩
  recorded := hs.recorded
  hash := hs.hash
  prevHash _ := by
    by_cases hqueue : s.updatesQueue = 0
    · simp [beginUpdates, hqueue]
    · simp [beginUpdates, hqueue, hs.prevHash hqueue]
  reads hqueue := absurd hqueue (Nat.succ_ne_zero _)

/-- When a batch that leaves the hash as it was ends, the host has the domain of the last update,
what is not hashed is as it was then, and no string is longer or shorter. -/
def NoHiddenChange (env : DnsEnv) (s : DnsManager) : Prop :=
  s.updatesQueue = 1 → computeHash env.globalConfig s.ipDataLst = s.prevHash →
    s.hostdomain = s.lastHostdomain ∧ (env.readsConfigs →
      List.Forall₂ (DnsConfigIpData.UnhashedAs env) s.ipDataLst.head s.lastIpDataLst.head)

theorem endBatch_head : (s.endBatch env).ipDataLst.head = s.ipDataLst.head := by
  unfold endBatch
  dsimp only
  split_ifs <;> rfl

theorem endBatch_recorded (hs : s.Recorded env) : (s.endBatch env).Recorded env where
  sound := by
    have hbest : (s.endBatch env).bestIpConfig = s.bestIpConfig := by
      funext f
      cases f <;> rfl
    by_cases hglobal : env.globalWildcard
    · have hlst : (s.endBatch env).ipDataLst = s.ipDataLst := by simp [endBatch, hglobal]
      exact ⟨hlst ▸ hs.sound.sorted, hlst ▸ hs.sound.keys, hbest ▸ hs.sound.best,
        hlst ▸ hs.sound.dnsPriority⟩
    · exact hs.sound.sort (by simp [endBatch, hglobal]) hbest
  recorded := hs.recorded
  hash := hs.hash
  prevHash hqueue := hs.prevHash fun hzero => hqueue (by simp [endBatch, hzero])

/-- In a batch, an unchanged hash is the one of the last update. -/
theorem Recorded.computeHash_eq (hs : s.Recorded env) (hqueue : s.updatesQueue ≠ 0)
    (h : computeHash env.globalConfig s.ipDataLst = s.prevHash) :
    computeHash env.globalConfig s.ipDataLst = computeHash env.globalConfig s.lastIpDataLst := by
  rw [h, hs.prevHash hqueue]
  rcases hs.hash with hlast | ⟨hglobal, hempty⟩
  · exact hlast
  · obtain ⟨global, hglobal⟩ := Option.ne_none_iff_exists'.mp hglobal
    rw [hs.prevHash hqueue, hempty, hglobal] at h
    simp [computeHash, globalDnsConfigUpdateChecksum] at h

theorem endUpdates_tracked (hs : s.Tracked env) (hno : NoHiddenChange env s)
    (h : s.endUpdates env = some s') : s'.Tracked env := by
  have hrecorded := endBatch_recorded hs.toRecorded
  unfold endUpdates at h
  dsimp only at h
  split_ifs at h with hzero hdone
  · obtain rfl := Option.some.inj h
    exact hs
  · obtain rfl := Option.some.inj h
    refine ⟨hrecorded, fun hqueue => ?_⟩
    have hone : s.updatesQueue = 1 := by
      have hpred : s.updatesQueue - 1 = 0 := hqueue
      omega
    have hhash : computeHash env.globalConfig s.ipDataLst = s.prevHash := by
      have hchanged := hdone.resolve_left (by omega)
      simpa [endBatch] using hchanged
    obtain ⟨hhostdomain, hunhashed⟩ := hno hone hhash
    have hreads := readsAs_of_computeHash (hs.computeHash_eq hzero hhash) hunhashed
    refine ⟨?_, hhostdomain⟩
    unfold DnsIpDataLst.ReadsAs
    rw [endBatch_head]
    exact hreads
  · refine updateDns_tracked hrecorded ?_ h
    omega

/-! ## Runs -/

/-- The call misses no change. -/
def MissesNoChange (env : DnsEnv) (s : DnsManager) (e : DnsManagerEvent) : Prop :=
  match e with
  | .setIpConfig .. => s.updatesQueue = 0 → NoSilentChange env s e.setIpConfigs
  | .setHostname _ | .beginUpdates => True
  | .endUpdates => NoHiddenChange env s

theorem setIpConfigs_pairwise (e : DnsManagerEvent) :
    e.setIpConfigs.Pairwise fun c c' => c.addrFamily ≠ c'.addrFamily := by
  cases e with
  | setIpConfig addrFamily sourceTag l3cd ipConfigType replaceAll =>
    cases l3cd <;> cases addrFamily <;> simp [DnsManagerEvent.setIpConfigs]
  | setHostname hostname => exact .nil
  | beginUpdates => exact .nil
  | endUpdates => exact .nil

theorem step_tracked {e : DnsManagerEvent} (hs : s.Tracked env) (hno : MissesNoChange env s e)
    (h : s.step env e = some s') : s'.Tracked env := by
  cases e with
  | setIpConfig addrFamily sourceTag l3cd ipConfigType replaceAll =>
    exact setIpConfigs_tracked hs.toRecorded (fun hqueue _ => hs.reads hqueue) hno
      (setIpConfigs_pairwise _) h
  | setHostname hostname => exact setHostname_tracked hs h
  | beginUpdates =>
    obtain rfl := Option.some.inj h
    exact beginUpdates_tracked hs
  | endUpdates => exact endUpdates_tracked hs hno h

/-- In a run that misses no change, the last update is always what an update would compute. -/
theorem run_upToDate (env : DnsEnv) (es : List DnsManagerEvent) {s : DnsManager}
    (h : AlongM (step env) (MissesNoChange env) start es)
    (hrun : es.foldlM (step env) start = some s) : s.UpToDate env :=
  (AlongM.foldlM (fun _ _ _ hs hno hstep => step_tracked hs hno hstep) (start_tracked env) h
    hrun).upToDate

/-! ## Examples -/

instance Replaces.decidable (s : DnsManager) (c : SetIpConfig) : Decidable (s.Replaces c) :=
  decidable_of_iff ((s.ipDataLst.lst.filter c.Frees).length = 1 ∧
      ∀ d ∈ s.ipDataLst.lst, ¬ c.IsSame d)
    ⟨fun ⟨h₁, h₂⟩ => ⟨h₁, h₂⟩, fun ⟨h₁, h₂⟩ => ⟨h₁, h₂⟩⟩

instance KeepsOrder.decidable (s : DnsManager) (rs : List SetIpConfig) :
    DecidableRel (s.KeepsOrder rs) :=
  fun _ _ => inferInstanceAs (Decidable (_ ∧ _))

instance TakePlace.decidable (env : DnsEnv) (s : DnsManager) (rs : List SetIpConfig) :
    Decidable (TakePlace env s rs) :=
  decidable_of_iff ((∀ r ∈ rs, s.Replaces r) ∧ s.ipDataLst.head.Pairwise (s.KeepsOrder rs) ∧
      (env.hasPlugin → ∀ d ∈ s.ipDataLst.lst, d.nameservers ≠ [] →
        (s.becomes rs d).domainReads = d.domainReads))
    ⟨fun ⟨h₁, h₂, h₃⟩ => ⟨h₁, h₂, h₃⟩, fun ⟨h₁, h₂, h₃⟩ => ⟨h₁, h₂, h₃⟩⟩

instance AllSilent.decidable (env : DnsEnv) (s : DnsManager) (cs : List SetIpConfig) :
    Decidable (AllSilent env s cs) :=
  haveI : ∀ s c, Decidable (Silent s c) := fun s c =>
    inferInstanceAs (Decidable ((s.setIpData c).map Prod.snd = some false))
  AlongM.decidable _ Silent s cs

instance NoSilentChange.decidable (env : DnsEnv) :
    ∀ s cs, Decidable (NoSilentChange env s cs)
  | _, [] => inferInstanceAs (Decidable True)
  | s, c :: cs =>
    haveI : ∀ t, Decidable (NoSilentChange env t cs) := fun t => NoSilentChange.decidable env t cs
    inferInstanceAs (Decidable ((_ → _ → _) ∧ (_ → ∀ t ∈ s.setIpConfig env c, _)))

instance UpToDate.decidable (env : DnsEnv) (s : DnsManager) : Decidable (s.UpToDate env) :=
  inferInstanceAs (Decidable (_ → _))

instance MissesNoChange.decidable (env : DnsEnv) (s : DnsManager) (e : DnsManagerEvent) :
    Decidable (MissesNoChange env s e) :=
  match e with
  | .setIpConfig .. => inferInstanceAs (Decidable (_ → _))
  | .setHostname _ | .beginUpdates => inferInstanceAs (Decidable True)
  | .endUpdates => inferInstanceAs (Decidable (_ → _ → _ ∧ (_ → _)))

/-- Name servers by name, no public suffixes, and systemd-resolved is informed. -/
def exampleEnv : DnsEnv where
  globalConfig := none
  plugin := none
  sdResolvePlugin := true
  inetPton
    | .inet, "192.0.2.1" => some 0xc0000201
    | .inet6, "2001:db8::1" => some 0x20010db8000000000000000000000001
    | _, _ => none
  inetNtop
    | .inet, _ => "192.0.2.1"
    | .inet6, _ => "2001:db8::1"
  linkGetName _ := none
  pslIsPublicSuffix _ := false

/-- A configuration with a name server of each address family. -/
def dualStackL3cd (instanceId : ℕ) : SealedL3cd where
  instanceId := instanceId
  data :=
    { (exampleL3cd instanceId 100 ["example.org"]).data with
      ip6 :=
        { L3IpConfig.new with
          nameservers := ["2001:db8::1"]
          searches := ["example.org"]
          hasDnsPriority := true
          dnsPriority := 100 } }

/-- A device is configured for both address families, and its configuration is replaced by an equal
one, first outside of a batch and then in one. In another batch a VPN is added and the host is
renamed. -/
def quietRun : List DnsManagerEvent :=
  [.setIpConfig none 1 (some (dualStackL3cd 1)) .bestDevice true,
    .setIpConfig none 1 (some (dualStackL3cd 2)) .bestDevice true,
    .beginUpdates,
    .setIpConfig none 1 (some (dualStackL3cd 3)) .bestDevice true,
    .endUpdates,
    .beginUpdates,
    .setIpConfig (some .inet) 2 (some (exampleL3cd 4 (-50) ["~example.com"])) .vpn true,
    .setHostname (some "host.example.net"),
    .endUpdates]

theorem quietRun_isSome : (quietRun.foldlM (step exampleEnv) start).isSome := by
  decide +kernel

theorem quietRun_upToDate :
    ((quietRun.foldlM (step exampleEnv) start).get quietRun_isSome).UpToDate exampleEnv := by
  apply run_upToDate exampleEnv quietRun
  · decide +kernel
  · exact (Option.some_get _).symm

def renamedRun : List DnsManagerEvent :=
  [.beginUpdates, .setHostname (some "host.example.net"), .endUpdates]

/-- The domain of the host is not in the hash, so that the last update is without it. -/
theorem renamedRun_not_upToDate :
    ∃ s ∈ renamedRun.foldlM (step exampleEnv) start, ¬ s.UpToDate exampleEnv := by
  decide +kernel

end DnsManager

end NetworkManager.Core
