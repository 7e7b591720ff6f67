import Mathlib.Data.Finset.Lattice.Lemmas
import NetworkManager.Core.NDisc

/-!
# Checking the timestamps of router data

`check_timestamps()` should drop the expired items of every list, wait for the first of the
others to expire, and report the lists that lost items. What keeps it from that are the
size limits of the other lists, which it applies to the gateways, the change map that
`clean_addresses()` overwrites, and the domains, which are always reported.
-/

namespace NetworkManager.Core

/-! ## What is left of a list -/

open List

def NotExpired (nowMsec expiryMsec : ℤ) : Prop :=
  expiryMsec = expiryInfinity ∨ nowMsec < expiryMsec

instance (nowMsec expiryMsec : ℤ) : Decidable (NotExpired nowMsec expiryMsec) :=
  inferInstanceAs (Decidable (_ ∨ _))

def kept {α : Type} (expiryMsec : α → ℤ) (nowMsec : ℤ) (items : List α) : List α :=
  items.filter fun item => NotExpired nowMsec (expiryMsec item)

def finiteExpiries {α : Type} (expiryMsec : α → ℤ) (nowMsec : ℤ) (items : List α) : List ℤ :=
  ((kept expiryMsec nowMsec items).map expiryMsec).filter (· ≠ expiryInfinity)

variable {α : Type} {expiryMsec : α → ℤ} {nowMsec nextMsec : ℤ} {items : List α}

theorem expiryNext_eq (nowMsec e nextMsec : ℤ) :
    expiryNext nowMsec e nextMsec =
      (decide (NotExpired nowMsec e),
        if e ≠ expiryInfinity ∧ nowMsec < e then min nextMsec e else nextMsec) := by
  unfold expiryNext NotExpired
  by_cases hinf : e = expiryInfinity
  · simp [hinf]
  · by_cases hlt : nowMsec < e
    · have hmin : (if nextMsec > e then e else nextMsec) = min nextMsec e := by
        rw [min_def]
        split_ifs <;> omega
      simp [hinf, hlt, hmin]
    · simp [hinf, hlt, not_lt.mp hlt]

theorem kept_cons_of_notExpired {item : α} (h : NotExpired nowMsec (expiryMsec item)) :
    kept expiryMsec nowMsec (item :: items) = item :: kept expiryMsec nowMsec items :=
  filter_cons_of_pos (by simpa using h)

theorem kept_cons_of_expired {item : α} (h : ¬ NotExpired nowMsec (expiryMsec item)) :
    kept expiryMsec nowMsec (item :: items) = kept expiryMsec nowMsec items :=
  filter_cons_of_neg (by simpa using h)

theorem finiteExpiries_cons (item : α) :
    finiteExpiries expiryMsec nowMsec (item :: items) =
      (if expiryMsec item ≠ expiryInfinity ∧ nowMsec < expiryMsec item then [expiryMsec item]
        else []) ++ finiteExpiries expiryMsec nowMsec items := by
  unfold finiteExpiries
  by_cases hgood : NotExpired nowMsec (expiryMsec item)
  · rw [kept_cons_of_notExpired hgood, map_cons]
    rcases hgood with hinf | hlt
    · simp [hinf]
    · by_cases hinf : expiryMsec item = expiryInfinity
      · simp [hinf]
      · simp [hinf, hlt]
  · rw [kept_cons_of_expired hgood]
    have hlate : ¬ nowMsec < expiryMsec item := fun h => hgood (Or.inr h)
    simp [hlate]

theorem compactItems_eq (expiryMsec : α → ℤ) (nowMsec nextMsec : ℤ) (items : List α) :
    compactItems expiryMsec nowMsec items nextMsec =
      (kept expiryMsec nowMsec items,
        (finiteExpiries expiryMsec nowMsec items).foldl min nextMsec) := by
  induction items generalizing nextMsec with
  | nil => rfl
  | cons item items ih =>
    simp only [compactItems, expiryNext_eq, ih, finiteExpiries_cons, foldl_append]
    by_cases hgood : NotExpired nowMsec (expiryMsec item)
    · simp only [kept_cons_of_notExpired hgood, hgood, decide_true, if_true, Prod.mk.injEq, true_and]
      split_ifs <;> rfl
    · have hlate : ¬ nowMsec < expiryMsec item := fun h => hgood (Or.inr h)
      simp [kept_cons_of_expired hgood, hgood, hlate]

def anyExpired (expiryMsec : α → ℤ) (nowMsec : ℤ) (items : List α) : Bool :=
  items.any fun item => ¬ NotExpired nowMsec (expiryMsec item)

theorem length_ne_kept_iff :
    items.length ≠ (kept expiryMsec nowMsec items).length ↔ anyExpired expiryMsec nowMsec items := by
  rw [ne_comm, kept, ne_eq, length_filter_eq_length_iff]
  simp [anyExpired]

theorem kept_length_le : (kept expiryMsec nowMsec items).length ≤ items.length :=
  length_filter_le _ _

/-! ## What the check should do -/

/-- The lists that lose items. -/
def expiredFlags (nowMsec : ℤ) (rdata : NDiscData) : NDiscConfigMap :=
  (if anyExpired NDiscGateway.expiryMsec nowMsec rdata.gateways then {.gateways} else ∅) ∪
  (if anyExpired NDiscAddress.expiryMsec nowMsec rdata.addresses then {.addresses} else ∅) ∪
  (if anyExpired NDiscRoute.expiryMsec nowMsec rdata.routes then {.routes} else ∅) ∪
  (if anyExpired NDiscDnsServer.expiryMsec nowMsec rdata.dnsServers then {.dnsServers} else ∅) ∪
  (if anyExpired NDiscDnsDomain.expiryMsec nowMsec rdata.dnsDomains then {.dnsDomains} else ∅)

/-- The finite expiries of all items that are left. -/
def remainingExpiries (nowMsec : ℤ) (rdata : NDiscData) : List ℤ :=
  finiteExpiries NDiscGateway.expiryMsec nowMsec rdata.gateways ++
  finiteExpiries NDiscAddress.expiryMsec nowMsec rdata.addresses ++
  finiteExpiries NDiscRoute.expiryMsec nowMsec rdata.routes ++
  finiteExpiries NDiscDnsServer.expiryMsec nowMsec rdata.dnsServers ++
  finiteExpiries NDiscDnsDomain.expiryMsec nowMsec rdata.dnsDomains

def allExpiries (rdata : NDiscData) : List ℤ :=
  rdata.gateways.map NDiscGateway.expiryMsec ++ rdata.addresses.map NDiscAddress.expiryMsec ++
  rdata.routes.map NDiscRoute.expiryMsec ++ rdata.dnsServers.map NDiscDnsServer.expiryMsec ++
  rdata.dnsDomains.map NDiscDnsDomain.expiryMsec

/-- Just the expired items are dropped, the next check is at the first of the remaining
expiries, and the change is what the caller passed and the lists that lost items. -/
structure DropsExpired (nowMsec : ℤ) (changed : NDiscConfigMap) (rdata : NDiscData)
    (r : NDiscChecked) : Prop where
  gateways : r.rdata.gateways = kept NDiscGateway.expiryMsec nowMsec rdata.gateways
  addresses : r.rdata.addresses = kept NDiscAddress.expiryMsec nowMsec rdata.addresses
  routes : r.rdata.routes = kept NDiscRoute.expiryMsec nowMsec rdata.routes
  dnsServers : r.rdata.dnsServers = kept NDiscDnsServer.expiryMsec nowMsec rdata.dnsServers
  dnsDomains : r.rdata.dnsDomains = kept NDiscDnsDomain.expiryMsec nowMsec rdata.dnsDomains
  timeout : r.timeoutExpireSource =
    (remainingExpiries nowMsec rdata).min?.map (expireSource nowMsec)
  emitted : r.emitted =
    if changed ∪ expiredFlags nowMsec rdata ≠ ∅ then some (changed ∪ expiredFlags nowMsec rdata)
    else none

/-- Every list is within its maximum, and the timestamps are 64 bit integers. -/
structure WithinLimits (config : NDiscConfig) (rdata : NDiscData) : Prop where
  gateways : rdata.gateways.length ≤ sizeMaxGateways
  addresses : rdata.addresses.length ≤ config.maxAddresses
  routes : rdata.routes.length ≤ sizeMaxRoutes
  dnsServers : rdata.dnsServers.length ≤ sizeMaxDnsServers
  dnsDomains : rdata.dnsDomains.length ≤ sizeMaxDnsDomains
  expiries : ∀ e ∈ allExpiries rdata, e ≤ expiryInfinity

/-- No other list has the gateways cut to its own maximum. -/
def GatewaysFit (config : NDiscConfig) (nowMsec : ℤ) (rdata : NDiscData) : Prop :=
  let n := (kept NDiscGateway.expiryMsec nowMsec rdata.gateways).length
  (rdata.addresses ≠ [] → n ≤ config.maxAddresses) ∧
    (rdata.dnsServers ≠ [] → n ≤ sizeMaxDnsServers) ∧
    (rdata.dnsDomains ≠ [] → n ≤ sizeMaxDnsDomains)

/-- If addresses expire, then what was changed before them is found to be changed after them,
too. -/
def NoChangeOverwritten (nowMsec : ℤ) (changed : NDiscConfigMap) (rdata : NDiscData) : Prop :=
  (anyExpired NDiscAddress.expiryMsec nowMsec rdata.addresses) →
    ∀ flag, flag ∈ changed ∨ (flag = .gateways ∧
        anyExpired NDiscGateway.expiryMsec nowMsec rdata.gateways) →
      flag = .addresses ∨
      (flag = .routes ∧ anyExpired NDiscRoute.expiryMsec nowMsec rdata.routes) ∨
      (flag = .dnsServers ∧ anyExpired NDiscDnsServer.expiryMsec nowMsec rdata.dnsServers) ∨
      (flag = .dnsDomains ∧ rdata.dnsDomains ≠ [])

/-- If there are domains, then some of them expire or the caller says that they changed. -/
def DomainsChange (nowMsec : ℤ) (changed : NDiscConfigMap) (rdata : NDiscData) : Prop :=
  rdata.dnsDomains ≠ [] → .dnsDomains ∈ changed ∨
    anyExpired NDiscDnsDomain.expiryMsec nowMsec rdata.dnsDomains

/-! ## One list -/

namespace NDiscCheck

variable {c : NDiscCheck} {sizeMax : ℕ} {flag : NDiscConfigFlag}

theorem setSizeMaxGateways_of_le (h : c.rdata.gateways.length ≤ sizeMax) :
    c.setSizeMaxGateways sizeMax flag = c := by
  simp [setSizeMaxGateways, arraySetSizeMax, h]

theorem length_setSizeMaxGateways :
    (c.setSizeMaxGateways sizeMax flag).rdata.gateways.length =
      min sizeMax c.rdata.gateways.length := by
  unfold setSizeMaxGateways arraySetSizeMax
  split_ifs with h
  · simp only
    omega
  · simp

variable {setItems : List α → NDiscData} {setChanged : Bool → NDiscConfigMap}

theorem cleanItems_eq (hset : setItems items = c.rdata)
    (hchanged : items = [] → setChanged false = c.changed)
    (h : items ≠ [] → (setItems (kept expiryMsec nowMsec items)).gateways.length ≤ sizeMax) :
    c.cleanItems expiryMsec nowMsec items setItems setChanged sizeMax flag =
      ⟨setItems (kept expiryMsec nowMsec items), setChanged (anyExpired expiryMsec nowMsec items),
        (finiteExpiries expiryMsec nowMsec items).foldl min c.nextMsec⟩ := by
  unfold cleanItems
  split_ifs with hnil
  · obtain rfl := length_eq_zero_iff.mp hnil
    have hdropped : setChanged (anyExpired expiryMsec nowMsec []) = c.changed := hchanged rfl
    have hrdata : setItems (kept expiryMsec nowMsec []) = c.rdata := hset
    rw [hdropped, hrdata]
    rfl
  · simp only [compactItems_eq, length_ne_kept_iff, Bool.decide_eq_true]
    exact setSizeMaxGateways_of_le (h (mt length_eq_zero_iff.mpr hnil))

theorem cleanItems_gateways (hset : ∀ l, (setItems l).gateways = c.rdata.gateways) :
    let c' := c.cleanItems expiryMsec nowMsec items setItems setChanged sizeMax flag
    c'.rdata.gateways.length ≤ c.rdata.gateways.length ∧
      (items ≠ [] → c'.rdata.gateways.length ≤ sizeMax) := by
  dsimp only
  unfold cleanItems
  split_ifs with hnil
  · exact ⟨Nat.le_refl _, fun hne => absurd (length_eq_zero_iff.mp hnil) hne⟩
  · rw [length_setSizeMaxGateways, hset]
    exact ⟨Nat.min_le_right _ _, fun _ => Nat.min_le_left _ _⟩

/-- The other lists stay. -/
theorem cleanItems_frame {β : Type} (f : NDiscData → β)
    (hgateways : ∀ rdata gateways, f { rdata with gateways } = f rdata)
    (hset : ∀ l, f (setItems l) = f c.rdata) :
    f (c.cleanItems expiryMsec nowMsec items setItems setChanged sizeMax flag).rdata =
      f c.rdata := by
  unfold cleanItems
  split_ifs
  · rfl
  · exact (hgateways _ _).trans (hset _)

end NDiscCheck

open NDiscCheck

variable {config : NDiscConfig}

/-! ## All lists -/

variable {changed : NDiscConfigMap} {rdata : NDiscData}

/-- The change map at the end of the check, as long as the gateways are not cut. -/
def finalChanged (nowMsec : ℤ) (changed : NDiscConfigMap) (rdata : NDiscData) : NDiscConfigMap :=
  (if anyExpired NDiscAddress.expiryMsec nowMsec rdata.addresses then {.addresses}
    else changed ∪
      if anyExpired NDiscGateway.expiryMsec nowMsec rdata.gateways then {.gateways} else ∅) ∪
  (if anyExpired NDiscRoute.expiryMsec nowMsec rdata.routes then {.routes} else ∅) ∪
  (if anyExpired NDiscDnsServer.expiryMsec nowMsec rdata.dnsServers then {.dnsServers} else ∅) ∪
  (if rdata.dnsDomains.length ≠ 0 then {.dnsDomains} else ∅)

theorem ite_union_eq {p : Prop} [Decidable p] (a b : NDiscConfigMap) :
    (if p then a ∪ b else a) = a ∪ if p then b else ∅ := by
  split_ifs
  · rfl
  · exact (Finset.union_empty a).symm

theorem checkTimestamps_eq (hlimits : WithinLimits config rdata)
    (hfit : GatewaysFit config nowMsec rdata) :
    checkTimestamps config nowMsec changed rdata =
      let next := (remainingExpiries nowMsec rdata).foldl min expiryInfinity
      let change := finalChanged nowMsec changed rdata
      { rdata :=
          { gateways := kept NDiscGateway.expiryMsec nowMsec rdata.gateways
            addresses := kept NDiscAddress.expiryMsec nowMsec rdata.addresses
            routes := kept NDiscRoute.expiryMsec nowMsec rdata.routes
            dnsServers := kept NDiscDnsServer.expiryMsec nowMsec rdata.dnsServers
            dnsDomains := kept NDiscDnsDomain.expiryMsec nowMsec rdata.dnsDomains }
        timeoutExpireSource :=
          if next = expiryInfinity then none else some (expireSource nowMsec next)
        emitted := if change ≠ ∅ then some change else none } := by
  obtain ⟨haddresses, hservers, hdomains⟩ := hfit
  have hroutes : (kept NDiscGateway.expiryMsec nowMsec rdata.gateways).length ≤ sizeMaxRoutes := by
    have hle := hlimits.gateways
    have hkept : (kept NDiscGateway.expiryMsec nowMsec rdata.gateways).length ≤
        rdata.gateways.length := kept_length_le
    unfold sizeMaxGateways at hle
    unfold sizeMaxRoutes
    omega
  unfold checkTimestamps
  simp only []
  rw [cleanGateways,
    cleanItems_eq rfl (fun _ => rfl) fun _ => Nat.le_trans kept_length_le hlimits.gateways,
    cleanAddresses, cleanItems_eq rfl (fun _ => rfl) haddresses,
    cleanRoutes, cleanItems_eq rfl (fun _ => rfl) fun _ => hroutes,
    cleanDnsServers, cleanItems_eq rfl (fun _ => rfl) hservers,
    cleanDnsDomains, cleanItems_eq rfl (fun hnil => if_neg fun hne => hne (congrArg List.length hnil)) hdomains]
  simp only [ite_union_eq, remainingExpiries, foldl_append, finalChanged]
  rfl

theorem foldl_min_eq {l : List ℤ} (hl : ∀ e ∈ l, e ≤ expiryInfinity ∧ e ≠ expiryInfinity) :
    (if l.foldl min expiryInfinity = expiryInfinity then none
      else some (expireSource nowMsec (l.foldl min expiryInfinity))) =
        l.min?.map (expireSource nowMsec) := by
  cases l with
  | nil => rfl
  | cons e l =>
    have he := hl e mem_cons_self
    have hfold : (e :: l).foldl min expiryInfinity = l.foldl min e := by
      rw [foldl_cons, min_eq_right he.1]
    have hmin : (e :: l).min? = some (l.foldl min e) := List.min?_cons'
    have hmem : l.foldl min e ∈ e :: l := List.min?_mem hmin
    rw [hfold, hmin, if_neg (hl _ hmem).2, Option.map_some]

theorem finiteExpiries_subset :
    finiteExpiries expiryMsec nowMsec items ⊆ items.map expiryMsec :=
  fun _ he => map_subset _ (filter_subset_self _) (filter_subset_self _ he)

theorem mem_finiteExpiries {e : ℤ} (h : e ∈ finiteExpiries expiryMsec nowMsec items) :
    e ≠ expiryInfinity := by
  simpa using (mem_filter.mp h).2

theorem mem_remainingExpiries {e : ℤ} (h : e ∈ remainingExpiries nowMsec rdata) :
    e ∈ allExpiries rdata ∧ e ≠ expiryInfinity := by
  simp only [remainingExpiries, allExpiries, mem_append] at *
  rcases h with (((h | h) | h) | h) | h <;>
    exact ⟨by simp [finiteExpiries_subset h], mem_finiteExpiries h⟩

theorem mem_ite_singleton {p : Prop} [Decidable p] {flag flag' : NDiscConfigFlag} :
    flag ∈ (if p then {flag'} else ∅ : NDiscConfigMap) ↔ p ∧ flag = flag' := by
  split_ifs with h <;> simp [h]

theorem mem_finalChanged {flag : NDiscConfigFlag} :
    flag ∈ finalChanged nowMsec changed rdata ↔
      (if anyExpired NDiscAddress.expiryMsec nowMsec rdata.addresses then flag = .addresses
        else flag ∈ changed ∨
          (anyExpired NDiscGateway.expiryMsec nowMsec rdata.gateways ∧ flag = .gateways)) ∨
      (anyExpired NDiscRoute.expiryMsec nowMsec rdata.routes ∧ flag = .routes) ∨
      (anyExpired NDiscDnsServer.expiryMsec nowMsec rdata.dnsServers ∧ flag = .dnsServers) ∨
      (rdata.dnsDomains ≠ [] ∧ flag = .dnsDomains) := by
  unfold finalChanged
  simp only [Finset.mem_union, mem_ite_singleton, or_assoc, ne_eq, length_eq_zero_iff]
  by_cases h : anyExpired NDiscAddress.expiryMsec nowMsec rdata.addresses
  · simp only [h, if_true, Finset.mem_singleton]
  · simp only [h, if_false, Finset.mem_union, mem_ite_singleton, or_assoc, Bool.false_eq_true]

theorem mem_expiredFlags {flag : NDiscConfigFlag} :
    flag ∈ expiredFlags nowMsec rdata ↔
      (anyExpired NDiscGateway.expiryMsec nowMsec rdata.gateways ∧ flag = .gateways) ∨
      (anyExpired NDiscAddress.expiryMsec nowMsec rdata.addresses ∧ flag = .addresses) ∨
      (anyExpired NDiscRoute.expiryMsec nowMsec rdata.routes ∧ flag = .routes) ∨
      (anyExpired NDiscDnsServer.expiryMsec nowMsec rdata.dnsServers ∧ flag = .dnsServers) ∨
      (anyExpired NDiscDnsDomain.expiryMsec nowMsec rdata.dnsDomains ∧ flag = .dnsDomains) := by
  unfold expiredFlags
  simp only [Finset.mem_union, mem_ite_singleton, or_assoc]

/-- The lists that are found to have changed are the right ones just in these cases. -/
theorem finalChanged_eq_iff :
    finalChanged nowMsec changed rdata = changed ∪ expiredFlags nowMsec rdata ↔
      NoChangeOverwritten nowMsec changed rdata ∧ DomainsChange nowMsec changed rdata := by
  have hdomains : anyExpired NDiscDnsDomain.expiryMsec nowMsec rdata.dnsDomains →
      rdata.dnsDomains ≠ [] := by
    rintro h hnil
    simp [anyExpired, hnil] at h
  simp only [Finset.ext_iff, Finset.mem_union, mem_finalChanged, mem_expiredFlags]
  constructor
  · intro h
    refine ⟨fun haddress flag hflag => ?_, fun hne => ?_⟩
    · have hmem := (h flag).mpr (hflag.imp id fun h => Or.inl ⟨h.2, h.1⟩)
      simp only [haddress, if_true] at hmem
      rcases hmem with h | h | h | h
      · exact Or.inl h
      · exact Or.inr (Or.inl h.symm)
      · exact Or.inr (Or.inr (Or.inl h.symm))
      · exact Or.inr (Or.inr (Or.inr h.symm))
    · have hmem := (h .dnsDomains).mp (Or.inr (Or.inr (Or.inr ⟨hne, rfl⟩)))
      simpa using hmem
  · rintro ⟨hkept, hchange⟩ flag
    constructor
    · rintro (h | h | h | ⟨hne, rfl⟩)
      · split_ifs at h with haddress
        · exact Or.inr (Or.inr (Or.inl ⟨haddress, h⟩))
        · exact h.imp id Or.inl
      · exact Or.inr (Or.inr (Or.inr (Or.inl h)))
      · exact Or.inr (Or.inr (Or.inr (Or.inr (Or.inl h))))
      · exact (hchange hne).imp id fun h => Or.inr (Or.inr (Or.inr (Or.inr ⟨h, rfl⟩)))
    · intro hflag
      by_cases haddress : anyExpired NDiscAddress.expiryMsec nowMsec rdata.addresses
      · have hcase : (flag ∈ changed ∨ (flag = .gateways ∧
            anyExpired NDiscGateway.expiryMsec nowMsec rdata.gateways)) ∨
            flag = .addresses ∨
            (flag = .routes ∧ anyExpired NDiscRoute.expiryMsec nowMsec rdata.routes) ∨
            (flag = .dnsServers ∧ anyExpired NDiscDnsServer.expiryMsec nowMsec rdata.dnsServers) ∨
            (flag = .dnsDomains ∧ rdata.dnsDomains ≠ []) := by
          rcases hflag with h | h | h | h | h | h
          · exact Or.inl (Or.inl h)
          · exact Or.inl (Or.inr h.symm)
          · exact Or.inr (Or.inl h.2)
          · exact Or.inr (Or.inr (Or.inl h.symm))
          · exact Or.inr (Or.inr (Or.inr (Or.inl h.symm)))
          · exact Or.inr (Or.inr (Or.inr (Or.inr ⟨h.2, hdomains h.1⟩)))
        simp only [haddress, if_true]
        rcases hcase.elim (hkept haddress flag) id with h | h | h | h
        · exact Or.inl h
        · exact Or.inr (Or.inl h.symm)
        · exact Or.inr (Or.inr (Or.inl h.symm))
        · exact Or.inr (Or.inr (Or.inr h.symm))
      · simp only [haddress]
        rcases hflag with h | h | h | h | h | h
        · exact Or.inl (Or.inl h)
        · exact Or.inl (Or.inr h)
        · exact absurd h.1 haddress
        · exact Or.inr (Or.inl h)
        · exact Or.inr (Or.inr (Or.inl h))
        · exact Or.inr (Or.inr (Or.inr ⟨hdomains h.1, h.2⟩))

/-! ## When the check is right -/

theorem gatewaysFit_of_checkTimestamps
    (h : (checkTimestamps config nowMsec changed rdata).rdata.gateways =
      kept NDiscGateway.expiryMsec nowMsec rdata.gateways) : GatewaysFit config nowMsec rdata := by
  unfold checkTimestamps at h
  simp only at h
  generalize hc₁ : cleanGateways nowMsec ⟨rdata, changed, expiryInfinity⟩ = c₁ at h
  generalize hc₂ : cleanAddresses config nowMsec c₁ = c₂ at h
  generalize hc₃ : cleanRoutes nowMsec c₂ = c₃ at h
  generalize hc₄ : cleanDnsServers nowMsec c₃ = c₄ at h
  have haddresses : c₂.rdata.gateways.length ≤ c₁.rdata.gateways.length ∧
      (c₁.rdata.addresses ≠ [] → c₂.rdata.gateways.length ≤ config.maxAddresses) :=
    hc₂ ▸ cleanItems_gateways fun _ => rfl
  have hroutes : c₃.rdata.gateways.length ≤ c₂.rdata.gateways.length ∧
      (c₂.rdata.routes ≠ [] → c₃.rdata.gateways.length ≤ sizeMaxRoutes) :=
    hc₃ ▸ cleanItems_gateways fun _ => rfl
  have hservers : c₄.rdata.gateways.length ≤ c₃.rdata.gateways.length ∧
      (c₃.rdata.dnsServers ≠ [] → c₄.rdata.gateways.length ≤ sizeMaxDnsServers) :=
    hc₄ ▸ cleanItems_gateways fun _ => rfl
  have hdomains : (cleanDnsDomains nowMsec c₄).rdata.gateways.length ≤ c₄.rdata.gateways.length ∧
      (c₄.rdata.dnsDomains ≠ [] →
        (cleanDnsDomains nowMsec c₄).rdata.gateways.length ≤ sizeMaxDnsDomains) :=
    cleanItems_gateways fun _ => rfl
  rw [h] at hdomains
  have hframe₁ : (c₁.rdata.addresses, c₁.rdata.dnsServers, c₁.rdata.dnsDomains) =
      (rdata.addresses, rdata.dnsServers, rdata.dnsDomains) :=
    hc₁ ▸ cleanItems_frame (fun r => (r.addresses, r.dnsServers, r.dnsDomains)) (fun _ _ => rfl)
      fun _ => rfl
  have hframe₂ : (c₂.rdata.dnsServers, c₂.rdata.dnsDomains) =
      (c₁.rdata.dnsServers, c₁.rdata.dnsDomains) :=
    hc₂ ▸ cleanItems_frame (fun r => (r.dnsServers, r.dnsDomains)) (fun _ _ => rfl) fun _ => rfl
  have hframe₃ : (c₃.rdata.dnsServers, c₃.rdata.dnsDomains) =
      (c₂.rdata.dnsServers, c₂.rdata.dnsDomains) :=
    hc₃ ▸ cleanItems_frame (fun r => (r.dnsServers, r.dnsDomains)) (fun _ _ => rfl) fun _ => rfl
  have hframe₄ : c₄.rdata.dnsDomains = c₃.rdata.dnsDomains :=
    hc₄ ▸ cleanItems_frame NDiscData.dnsDomains (fun _ _ => rfl) fun _ => rfl
  simp only [Prod.mk.injEq] at hframe₁ hframe₂ hframe₃
  refine ⟨fun hne => ?_, fun hne => ?_, fun hne => ?_⟩
  · have hle := haddresses.2 (hframe₁.1 ▸ hne)
    omega
  · have hle := hservers.2 ((hframe₃.1.trans (hframe₂.1.trans hframe₁.2.1)) ▸ hne)
    omega
  · exact hdomains.2 ((hframe₄.trans (hframe₃.2.trans (hframe₂.2.trans hframe₁.2.2))) ▸ hne)

theorem emitted_eq_iff {a b : NDiscConfigMap} :
    ((if a ≠ ∅ then some a else none) = if b ≠ ∅ then some b else none) ↔ a = b := by
  by_cases ha : a = ∅
  · by_cases hb : b = ∅
    · simp [ha, hb]
    · simp [ha, hb, Ne.symm hb]
  · by_cases hb : b = ∅
    · simp [ha, hb]
    · simp [ha, hb]

/-- The check does what it should just if no list has the gateways cut, no change is
overwritten, and the domains do change. -/
theorem checkTimestamps_dropsExpired_iff (hlimits : WithinLimits config rdata) :
    DropsExpired nowMsec changed rdata (checkTimestamps config nowMsec changed rdata) ↔
      GatewaysFit config nowMsec rdata ∧ NoChangeOverwritten nowMsec changed rdata ∧
        DomainsChange nowMsec changed rdata := by
  have hexpiries (e : ℤ) (he : e ∈ remainingExpiries nowMsec rdata) :
      e ≤ expiryInfinity ∧ e ≠ expiryInfinity :=
    ⟨hlimits.expiries e (mem_remainingExpiries he).1, (mem_remainingExpiries he).2⟩
  constructor
  · intro h
    have hfit := gatewaysFit_of_checkTimestamps h.gateways
    refine ⟨hfit, finalChanged_eq_iff.mp ?_⟩
    have hemitted := h.emitted
    rw [checkTimestamps_eq hlimits hfit] at hemitted
    exact emitted_eq_iff.mp hemitted
  · rintro ⟨hfit, hchange⟩
    rw [checkTimestamps_eq hlimits hfit]
    refine ⟨rfl, rfl, rfl, rfl, rfl, foldl_min_eq hexpiries, ?_⟩
    exact emitted_eq_iff.mpr (finalChanged_eq_iff.mpr hchange)

def exampleNDiscConfig : NDiscConfig where
  maxAddresses := 1
  addrGenMode := .eui64
  iid := some 1
  stablePrivacyIid _ _ := 0

/-- A gateway that expires and one that does not, and a domain that expires. -/
def expiringData : NDiscData where
  gateways := [⟨1, 100, .high⟩, ⟨2, expiryInfinity, .medium⟩]
  addresses := [⟨1, 200, 200, 0⟩]
  routes := []
  dnsServers := []
  dnsDomains := [⟨"a", 100⟩]

theorem checkTimestamps_expiringData :
    DropsExpired 100 {.mtu} expiringData (checkTimestamps exampleNDiscConfig 100 {.mtu} expiringData) :=
  (checkTimestamps_dropsExpired_iff ⟨by decide, by decide, by decide, by decide, by decide,
    by decide⟩).mpr ⟨⟨by decide, by decide, by decide⟩, fun h => absurd h (by decide),
      fun _ => Or.inr (by decide)⟩

/-- Two gateways and one address, none of which expires. -/
def twoGateways : NDiscData where
  gateways := [⟨1, expiryInfinity, .high⟩, ⟨2, expiryInfinity, .medium⟩]
  addresses := [⟨1, expiryInfinity, expiryInfinity, 0⟩]
  routes := []
  dnsServers := []
  dnsDomains := []

/-- A gateway that does not expire is dropped, since there may be only one address. -/
theorem checkTimestamps_drops_gateway :
    WithinLimits exampleNDiscConfig twoGateways ∧
      ¬ DropsExpired 100 ∅ twoGateways (checkTimestamps exampleNDiscConfig 100 ∅ twoGateways) := by
  refine ⟨⟨by decide, by decide, by decide, by decide, by decide, by decide⟩, fun h => ?_⟩
  have hgateways := h.gateways
  revert hgateways
  decide

end NetworkManager.Core
