import NetworkManager.Settings.IPConfigEntries

/-!
# Replacing the entries of a setting

The entries of a list are compared with new ones from the start. At the first difference the rest
of the list is removed and the remaining entries are added, unless the setting refuses them as
duplicates. The comparison may be finer than what counts as a duplicate.
-/

namespace NetworkManager.CloudSetup

open List

variable {α : Type*}

section Replace

variable (same refuses : α → α → Bool)

def addEntry (list : List α) (entry : α) : List α :=
  if list.any fun a => refuses a entry then list else list ++ [entry]

/-- The variables of the loop: the list of the setting, `i_next` and `any_changes`. -/
structure ReplaceState (α : Type*) where
  list : List α
  next : ℕ
  anyChanges : Bool

/-- The body of the loop over the entries. -/
def replaceStep (s : ReplaceState α) (entry : α) : ReplaceState α :=
  if !s.anyChanges && s.list[s.next]?.any (same entry) then { s with next := s.next + 1 }
  else
    -- at the first difference the rest of the list goes
    let list := if s.anyChanges then s.list else s.list.take s.next
    { list := addEntry refuses list entry
      next := if list.any fun a => refuses a entry then s.next else s.next + 1
      anyChanges := true }

/-- `nmcs_setting_ip_replace_ipv4_*()`: the list, and whether there were changes. -/
def replaceEntries (list entries : List α) : List α × Bool :=
  let s := entries.foldl (replaceStep same refuses) ⟨list, 0, false⟩
  if !s.anyChanges && s.next < s.list.length then (s.list.take s.next, true)
  else (s.list, s.anyChanges)

/-- The entries in their order, where one that is refused because of an earlier one may be left
out. -/
inductive KeptEntries : List α → List α → List α → Prop
  | nil {kept} : KeptEntries kept [] kept
  | keep {kept entry entries result} : KeptEntries (kept ++ [entry]) entries result →
      KeptEntries kept (entry :: entries) result
  | refuse {kept entry entries result} : (∃ a ∈ kept, refuses a entry) →
      KeptEntries kept entries result → KeptEntries kept (entry :: entries) result

/-- Lists with the same entries. -/
abbrev SameList (list list' : List α) : Prop := List.Forall₂ (fun a b => same a b) list list'

def commonLength : List α → List α → ℕ
  | entry :: entries, a :: list => if same entry a then commonLength entries list + 1 else 0
  | _, _ => 0

/-- No entry from the given position on is refused because of an earlier one. -/
structure FreshFrom (k : ℕ) (entries : List α) : Prop where
  pairwise : (entries.drop k).Pairwise fun a entry => refuses a entry = false
  earlier : ∀ a ∈ entries.take k, ∀ entry ∈ entries.drop k, refuses a entry = false

end Replace

/-- The comparison is an equivalence, and equal entries are refused alike. -/
structure EntryRelations (same refuses : α → α → Bool) : Prop where
  refl : ∀ a, same a a
  symm : ∀ {a b}, same a b → same b a
  trans : ∀ {a b c}, same a b → same b c → same a c
  congr : ∀ {a b} entry, same a b → refuses a entry = refuses b entry

variable {same refuses : α → α → Bool} {list entries : List α} {common list₁ rest list₂ : List α}

theorem EntryRelations.sameList_refl (h : EntryRelations same refuses) (list : List α) :
    SameList same list list := forall₂_same.mpr fun a _ => h.refl a

theorem EntryRelations.sameList_trans (h : EntryRelations same refuses)
    {l₁ l₂ l₃ : List α} (h₁₂ : SameList same l₁ l₂) (h₂₃ : SameList same l₂ l₃) :
    SameList same l₁ l₃ := by
  induction h₁₂ generalizing l₃ with
  | nil => exact h₂₃
  | cons hab _ ih =>
    cases h₂₃ with
    | cons hbc hrest => exact .cons (h.trans hab hbc) (ih hrest)

/-! ## The two parts of the loop -/

theorem exists_common (same : α → α → Bool) (entries list : List α) :
    ∃ common list₁ rest list₂, entries = common ++ rest ∧ list = list₁ ++ list₂ ∧
      SameList same common list₁ ∧ common.length = commonLength same entries list ∧
      (∀ entry ∈ rest.head?, ∀ a ∈ list₂.head?, same entry a = false) := by
  induction entries generalizing list with
  | nil => exact ⟨[], [], [], list, rfl, rfl, .nil, by simp [commonLength], by simp⟩
  | cons entry entries ih =>
    cases list with
    | nil => exact ⟨[], [], entry :: entries, [], rfl, rfl, .nil, by simp [commonLength], by simp⟩
    | cons a list =>
      by_cases hsame : same entry a
      · obtain ⟨common, list₁, rest, list₂, rfl, rfl, hcommon, hlength, hdiff⟩ := ih list
        refine ⟨entry :: common, a :: list₁, rest, list₂, rfl, rfl, .cons hsame hcommon, ?_, hdiff⟩
        simp [commonLength, hsame, hlength]
      · refine ⟨[], [], entry :: entries, a :: list, rfl, rfl, .nil, ?_, ?_⟩
        · simp [commonLength, hsame]
        · simpa using hsame

theorem foldl_replaceStep_common (refuses : α → α → Bool) (list₂ list₀ : List α)
    (h : SameList same common list₁) :
    common.foldl (replaceStep same refuses) ⟨list₀ ++ (list₁ ++ list₂), list₀.length, false⟩ =
      ⟨list₀ ++ (list₁ ++ list₂), list₀.length + list₁.length, false⟩ := by
  induction h generalizing list₀ with
  | nil => rfl
  | @cons entry a common list₁ hsame _ ih =>
    have hstep : replaceStep same refuses
        ⟨list₀ ++ (a :: list₁ ++ list₂), list₀.length, false⟩ entry =
          ⟨list₀ ++ [a] ++ (list₁ ++ list₂), (list₀ ++ [a]).length, false⟩ := by
      simp [replaceStep, hsame]
    rw [foldl_cons, hstep, ih]
    simp only [append_assoc, cons_append, nil_append, length_append,
      length_cons, length_nil, ReplaceState.mk.injEq, true_and, and_true]
    omega

theorem foldl_replaceStep_changed (same refuses : α → α → Bool) (entries : List α)
    (s : ReplaceState α) (h : s.anyChanges = true) :
    (entries.foldl (replaceStep same refuses) s).list = entries.foldl (addEntry refuses) s.list ∧
      (entries.foldl (replaceStep same refuses) s).anyChanges = true := by
  induction entries generalizing s with
  | nil => exact ⟨rfl, h⟩
  | cons entry entries ih =>
    rw [foldl_cons, foldl_cons]
    have hstep : (replaceStep same refuses s entry).list = addEntry refuses s.list entry ∧
        (replaceStep same refuses s entry).anyChanges = true := by
      simp [replaceStep, h]
    rw [← hstep.1]
    exact ih _ hstep.2

theorem replaceEntries_eq (h : SameList same common list₁)
    (hdiff : ∀ entry ∈ rest.head?, ∀ a ∈ list₂.head?, same entry a = false) :
    replaceEntries same refuses (list₁ ++ list₂) (common ++ rest) =
      if rest = [] then (list₁, decide (list₂ ≠ []))
      else (rest.foldl (addEntry refuses) list₁, true) := by
  have hcommon := foldl_replaceStep_common refuses list₂ [] h
  rw [nil_append, length_nil, Nat.zero_add] at hcommon
  unfold replaceEntries
  dsimp only
  rw [foldl_append, hcommon]
  cases rest with
  | nil =>
    cases list₂ with
    | nil => simp
    | cons a list₂ => simp
  | cons entry rest =>
    have hstep : (replaceStep same refuses ⟨list₁ ++ list₂, list₁.length, false⟩ entry).list =
          addEntry refuses list₁ entry ∧
        (replaceStep same refuses ⟨list₁ ++ list₂, list₁.length, false⟩ entry).anyChanges =
          true := by
      have hno : (list₁ ++ list₂)[list₁.length]?.any (same entry) = false := by
        cases list₂ with
        | nil => simp
        | cons a list₂ => simpa using hdiff entry rfl a rfl
      simp [replaceStep, hno]
    have hrest := foldl_replaceStep_changed same refuses rest _ hstep.2
    rw [foldl_cons, hrest.2, hrest.1, hstep.1]
    simp

/-! ## Adding entries -/

theorem length_foldl_addEntry_le (refuses : α → α → Bool) (list entries : List α) :
    (entries.foldl (addEntry refuses) list).length ≤ list.length + entries.length := by
  induction entries generalizing list with
  | nil => simp
  | cons entry entries ih =>
    have hadd : (addEntry refuses list entry).length ≤ list.length + 1 := by
      unfold addEntry
      split_ifs <;> simp
    have h := ih (addEntry refuses list entry)
    simp only [foldl_cons, length_cons]
    omega

theorem foldl_addEntry_iff (list entries : List α) :
    (entries.foldl (addEntry refuses) list).length = list.length + entries.length ↔
      entries.Pairwise (fun a entry => refuses a entry = false) ∧
        ∀ a ∈ list, ∀ entry ∈ entries, refuses a entry = false := by
  induction entries generalizing list with
  | nil => simp
  | cons entry entries ih =>
    rw [foldl_cons, pairwise_cons]
    by_cases hrefuse : list.any fun a => refuses a entry
    · obtain ⟨a, ha, hentry⟩ := any_eq_true.mp hrefuse
      have hshort := length_foldl_addEntry_le refuses list entries
      rw [addEntry, if_pos hrefuse]
      constructor
      · intro hlength
        rw [length_cons] at hlength
        omega
      · rintro ⟨-, hall⟩
        rw [hall a ha entry mem_cons_self] at hentry
        cases hentry
    · rw [addEntry, if_neg hrefuse]
      have hnew := ih (list ++ [entry])
      rw [length_append, length_singleton] at hnew
      rw [length_cons, Nat.add_comm entries.length 1, ← Nat.add_assoc, hnew]
      simp only [any_eq_true, not_exists, not_and, Bool.not_eq_true] at hrefuse
      simp only [mem_append, mem_cons]
      grind

theorem foldl_addEntry_of_fresh
    (hpairwise : entries.Pairwise fun a entry => refuses a entry = false)
    (hearlier : ∀ a ∈ list, ∀ entry ∈ entries, refuses a entry = false) :
    entries.foldl (addEntry refuses) list = list ++ entries := by
  induction entries generalizing list with
  | nil => simp
  | cons entry entries ih =>
    obtain ⟨hentry, hpairwise⟩ := pairwise_cons.mp hpairwise
    have hno : ¬ list.any fun a => refuses a entry := by
      simpa using fun a ha => hearlier a ha entry mem_cons_self
    rw [foldl_cons, addEntry, if_neg hno, ih hpairwise]
    · simp
    · intro a ha e he
      rcases mem_append.mp ha with ha | ha
      · exact hearlier a ha e (mem_cons_of_mem entry he)
      · rw [mem_singleton.mp ha]
        exact hentry e he

/-! ## The result -/

theorem keptEntries_foldl_addEntry (kept : List α) :
    KeptEntries refuses kept entries (entries.foldl (addEntry refuses) kept) := by
  induction entries generalizing kept with
  | nil => exact .nil
  | cons entry entries ih =>
    rw [foldl_cons]
    unfold addEntry
    split_ifs with hrefuse
    · exact .refuse (any_eq_true.mp hrefuse) (ih kept)
    · exact .keep (ih _)

theorem KeptEntries.of_append {kept result : List α}
    (h : KeptEntries refuses (kept ++ common) rest result) :
    KeptEntries refuses kept (common ++ rest) result := by
  induction common generalizing kept with
  | nil => simpa using h
  | cons entry common ih =>
    rw [append_cons] at h
    exact .keep (ih h)

namespace EntryRelations

variable (h : EntryRelations same refuses) {list' : List α}
include h

theorem any_refuses {list : List α} (hsame : SameList same list list') (entry : α) :
    (list.any fun a => refuses a entry) = list'.any fun a => refuses a entry := by
  induction hsame with
  | nil => rfl
  | cons hab _ ih => rw [any_cons, any_cons, h.congr entry hab, ih]

theorem sameList_foldl_addEntry (entries : List α) {list : List α}
    (hsame : SameList same list list') :
    SameList same (entries.foldl (addEntry refuses) list)
      (entries.foldl (addEntry refuses) list') := by
  induction entries generalizing list list' with
  | nil => exact hsame
  | cons entry entries ih =>
    rw [foldl_cons, foldl_cons]
    apply ih
    rw [addEntry, addEntry, h.any_refuses hsame]
    split_ifs
    · exact hsame
    · exact rel_append hsame (.cons (h.refl entry) .nil)

theorem keptEntries_replaceEntries (list entries : List α) :
    ∃ kept, KeptEntries refuses [] entries kept ∧
      SameList same kept (replaceEntries same refuses list entries).1 := by
  obtain ⟨common, list₁, rest, list₂, rfl, rfl, hcommon, -, hdiff⟩ :=
    exists_common same entries list
  refine ⟨rest.foldl (addEntry refuses) common,
    KeptEntries.of_append (keptEntries_foldl_addEntry common), ?_⟩
  have hfold := h.sameList_foldl_addEntry rest hcommon
  rw [replaceEntries_eq hcommon hdiff]
  split_ifs with hrest
  · subst hrest
    exact hfold
  · exact hfold

omit h in
theorem sameList_rest (hcommon : SameList same common list₁)
    (hsame : SameList same (common ++ rest) (list₁ ++ list₂)) : SameList same rest list₂ := by
  induction hcommon with
  | nil => exact hsame
  | cons _ _ ih =>
    cases hsame with
    | cons _ hrest => exact ih hrest

omit h in
theorem replaceEntries_unchanged_iff (list entries : List α) :
    (replaceEntries same refuses list entries).2 = false ↔ SameList same entries list := by
  obtain ⟨common, list₁, rest, list₂, rfl, rfl, hcommon, -, hdiff⟩ :=
    exists_common same entries list
  rw [replaceEntries_eq hcommon hdiff]
  constructor
  · intro hno
    split_ifs at hno with hrest
    · have hlist₂ : list₂ = [] := by simpa using hno
      rw [hrest, hlist₂, append_nil, append_nil]
      exact hcommon
  · intro hsame
    cases sameList_rest hcommon hsame with
    | nil => simp
    | @cons entry a rest list₂ hab _ =>
      rw [hdiff entry rfl a rfl] at hab
      cases hab

omit h in
theorem replaceEntries_of_sameList {list entries : List α} (hsame : SameList same entries list) :
    (replaceEntries same refuses list entries).1 = list := by
  have heq : replaceEntries same refuses (list ++ []) (entries ++ []) = (list, decide False) := by
    rw [replaceEntries_eq hsame (by simp), if_pos rfl]
    simp
  rw [append_nil, append_nil] at heq
  rw [heq]

theorem sameList_replaceEntries_iff (list entries : List α) :
    SameList same entries (replaceEntries same refuses list entries).1 ↔
      FreshFrom refuses (commonLength same entries list) entries := by
  obtain ⟨common, list₁, rest, list₂, rfl, rfl, hcommon, hlength, hdiff⟩ :=
    exists_common same entries list
  rw [replaceEntries_eq hcommon hdiff, ← hlength]
  have hearlier : (∀ a ∈ list₁, ∀ entry ∈ rest, refuses a entry = false) ↔
      ∀ a ∈ common, ∀ entry ∈ rest, refuses a entry = false := by
    have hall : ∀ list : List α, (∀ a ∈ list, ∀ entry ∈ rest, refuses a entry = false) ↔
        ∀ entry ∈ rest, (list.any fun a => refuses a entry) = false := by
      intro list
      simp only [any_eq_false, Bool.not_eq_true]
      exact ⟨fun hall entry he a ha => hall a ha entry he, fun hall a ha entry he => hall entry he a ha⟩
    simp only [hall, h.any_refuses hcommon]
  have hfresh : FreshFrom refuses common.length (common ++ rest) ↔
      rest.Pairwise (fun a entry => refuses a entry = false) ∧
        ∀ a ∈ list₁, ∀ entry ∈ rest, refuses a entry = false := by
    rw [hearlier]
    constructor
    · intro hfresh
      exact ⟨by simpa using hfresh.pairwise, by simpa using hfresh.earlier⟩
    · rintro ⟨hpairwise, hall⟩
      exact ⟨by simpa using hpairwise, by simpa using hall⟩
  rw [hfresh]
  split_ifs with hrest
  · subst hrest
    simpa using hcommon
  · constructor
    · intro hsame
      rw [← foldl_addEntry_iff, ← hsame.length_eq, ← hcommon.length_eq, length_append]
    · rintro ⟨hpairwise, hall⟩
      rw [foldl_addEntry_of_fresh hpairwise hall]
      exact rel_append hcommon (h.sameList_refl rest)

end EntryRelations

/-- The list has the entries, and a change is reported exactly if it is another list. -/
structure Replaced (same refuses : α → α → Bool) (list entries : List α) (result : List α × Bool) :
    Prop where
  entries : ∃ kept, KeptEntries refuses [] entries kept ∧ SameList same kept result.1
  changed : result.2 = true ↔ ¬ SameList same result.1 list

theorem EntryRelations.replaced_iff (h : EntryRelations same refuses) (list entries : List α) :
    (Replaced same refuses list entries (replaceEntries same refuses list entries) ∧
      (replaceEntries same refuses (replaceEntries same refuses list entries).1 entries).2 =
        false) ↔
      FreshFrom refuses (commonLength same entries list) entries := by
  rw [replaceEntries_unchanged_iff, h.sameList_replaceEntries_iff, and_iff_right_iff_imp]
  intro hfresh
  have hsame := (h.sameList_replaceEntries_iff list entries).mpr hfresh
  refine ⟨h.keptEntries_replaceEntries list entries, ?_⟩
  rw [← Bool.not_eq_false, not_iff_not, replaceEntries_unchanged_iff]
  constructor
  · intro hlist
    rw [replaceEntries_of_sameList hlist]
    exact h.sameList_refl list
  · intro hlist
    exact h.sameList_trans hsame hlist

/-!
## Configuring a device from the meta data

The addresses, routes and rules of a device's profile are followed by those from the meta data of
the cloud. They replace what is in the applied connection, which is only applied again if there
was a change.
-/

open Lib Settings

/-- An IPv4 address. -/
abbrev Ip4Addr := BitVec 32

/-- The IPv4 setting of a connection. -/
structure IP4Setting where
  addresses : List NMIPAddress
  routes : List NMIPRoute
  routingRules : List (NMIPRoutingRule .inet)

/-- `NMCSProviderGetConfigIfaceData`, the meta data of an interface. -/
structure IfaceData where
  ipv4sArr : List Ip4Addr
  ifaceIdx : UInt32
  cidrAddr : Ip4Addr
  cidrPrefix : Fin 33
  gateway : Ip4Addr
  iproutes : List NMIPRoute
  hasIpv4s : Bool
  hasCidr : Bool
  hasGateway : Bool

/-- `NMCSProviderGetConfigResult`, the numbers over all interfaces. -/
structure GetConfigResult where
  numValidIfaces : ℕ
  numIpv4s : ℕ

def clearHostAddress (addr : Ip4Addr) (plen : ℕ) : Ip4Addr :=
  addr &&& (BitVec.allOnes 32 <<< (32 - plen))

def incrementLastByte (addr : Ip4Addr) : Ip4Addr :=
  (addr &&& 0xFFFFFF00) ||| ((addr + 1) &&& 0xFF)

section Mangle

variable (inet : Inet) (result : GetConfigResult) (configData : IfaceData)

def singleAddr : Bool := result.numValidIfaces ≤ 1 && result.numIpv4s ≤ 1

def policyRouting : Bool := !singleAddr result && configData.hasIpv4s && configData.hasCidr

def IfaceData.plen : UInt8 := UInt8.ofNat configData.cidrPrefix

/-- The gateway of the meta data, or the first address of the network. -/
def IfaceData.gatewayAddr : Ip4Addr :=
  if configData.hasGateway ∧ configData.gateway ≠ 0 then configData.gateway
  else
    let network := clearHostAddress configData.cidrAddr configData.cidrPrefix
    if configData.cidrPrefix.val < 32 then incrementLastByte network else network

def IfaceData.uniqueSubnets : List Ip4Addr :=
  configData.ipv4sArr.foldl (fun subnets addr =>
    let network := clearHostAddress addr configData.cidrPrefix
    if network ∈ subnets then subnets else subnets ++ [network]) []

def tableRoute (dest : Ip4Addr) (plen : UInt8) (nextHop : Option Ip4Addr) (table : UInt32) :
    NMIPRoute :=
  (NMIPRoute.newBinary inet .inet dest plen nextHop 10).setAttribute "table" (.uint32 table)

def sourceRule (table : UInt32) (addr : Ip4Addr) : NMIPRoutingRule .inet :=
  (((NMIPRoutingRule.new .inet).setPriority table.toNat).setFrom inet
    (some (inet.ntop .inet addr)) 32).setTable table

def mainTableRule : NMIPRoutingRule .inet :=
  (((NMIPRoutingRule.new .inet).setPriority 30350).setTable rtTableMain).setSuppressPrefixlength 0

/-- The addresses of `_nmc_mangle_connection()`: those of the profile come first. -/
def newAddresses (remote : Option IP4Setting) : List NMIPAddress :=
  remote.elim [] IP4Setting.addresses ++
    if policyRouting result configData then
      configData.ipv4sArr.map fun addr => .newBinary inet .inet addr configData.plen
    else []

/-- The routes of `_nmc_mangle_connection()`. -/
def newRoutes (remote : Option IP4Setting) : List NMIPRoute :=
  remote.elim [] IP4Setting.routes ++
    (if policyRouting result configData then
      (configData.uniqueSubnets.map fun network =>
        tableRoute inet network configData.plen none (30200 + configData.ifaceIdx)) ++
      [tableRoute inet 0 0 (some configData.gatewayAddr) (30400 + configData.ifaceIdx)]
    else []) ++ configData.iproutes

/-- The rules of `_nmc_mangle_connection()`. -/
def newRules (remote : Option IP4Setting) : List (NMIPRoutingRule .inet) :=
  remote.elim [] IP4Setting.routingRules ++
    if policyRouting result configData then
      configData.ipv4sArr.map (sourceRule inet (30200 + configData.ifaceIdx)) ++
      [mainTableRule] ++
      configData.ipv4sArr.map (sourceRule inet (30400 + configData.ifaceIdx))
    else []

end Mangle

def sameAddress (entry a : NMIPAddress) : Bool := entry.cmpFull true a = .eq

def sameRule (entry r : NMIPRoutingRule .inet) : Bool := entry.cmp r = .eq

def replaceIpv4Addresses (addresses entries : List NMIPAddress) : List NMIPAddress × Bool :=
  replaceEntries sameAddress NMIPAddress.equal addresses entries

def replaceIpv4Routes (routes entries : List NMIPRoute) : List NMIPRoute × Bool :=
  replaceEntries NMIPRoute.equalFull NMIPRoute.equalFull routes entries

/-- `nmcs_setting_ip_replace_ipv4_rules()`: a rule is never refused. -/
def replaceIpv4Rules (rules entries : List (NMIPRoutingRule .inet)) :
    List (NMIPRoutingRule .inet) × Bool :=
  replaceEntries sameRule (fun _ _ => false) rules entries

/-- What `_nmc_mangle_connection()` reports. -/
structure MangleOut where
  skippedSingleAddr : Bool
  changed : Bool

/-- `_nmc_mangle_connection()`, with the setting of the profile if the device has one. -/
def mangleConnection (inet : Inet) (remote : Option IP4Setting) (result : GetConfigResult)
    (configData : IfaceData) (setting : IP4Setting) : IP4Setting × MangleOut :=
  let addrs := replaceIpv4Addresses setting.addresses (newAddresses inet result configData remote)
  let routes := replaceIpv4Routes setting.routes (newRoutes inet result configData remote)
  let rules := replaceIpv4Rules setting.routingRules (newRules inet result configData remote)
  (⟨addrs.1, routes.1, rules.1⟩, ⟨singleAddr result, addrs.2 || routes.2 || rules.2⟩)

/-- `_config_one()` of a device with a suitable applied connection, where applying it again
succeeds: what is applied then, and whether it was applied again. -/
def configOne (inet : Inet) (remote : Option IP4Setting) (result : GetConfigResult)
    (configData : IfaceData) (applied : IP4Setting) : IP4Setting × Bool :=
  let (setting, out) := mangleConnection inet remote result configData applied
  if out.changed then (setting, true) else (applied, false)

/-! ## The comparisons -/

theorem addressRelations : EntryRelations sameAddress NMIPAddress.equal := by
  constructor
  · intro a
    simp [sameAddress, NMIPAddress.cmpFull_iff]
  · intro a b h
    simp only [sameAddress, decide_eq_true_eq, NMIPAddress.cmpFull_iff] at h ⊢
    exact ⟨h.1.symm, h.2.symm⟩
  · intro a b c hab hbc
    simp only [sameAddress, decide_eq_true_eq, NMIPAddress.cmpFull_iff] at hab hbc ⊢
    exact ⟨hab.1.trans hbc.1, hab.2.trans hbc.2⟩
  · intro a b entry h
    simp only [sameAddress, decide_eq_true_eq, NMIPAddress.cmpFull_iff] at h
    rw [Bool.eq_iff_iff, NMIPAddress.equal_iff, NMIPAddress.equal_iff, h.1]

theorem routeRelations : EntryRelations NMIPRoute.equalFull NMIPRoute.equalFull := by
  constructor
  · intro a
    simp [NMIPRoute.equalFull_iff]
  · intro a b h
    rw [NMIPRoute.equalFull_iff] at h ⊢
    exact ⟨h.1.symm, h.2.symm⟩
  · intro a b c hab hbc
    rw [NMIPRoute.equalFull_iff] at hab hbc ⊢
    exact ⟨hab.1.trans hbc.1, hab.2.trans hbc.2⟩
  · intro a b entry h
    rw [NMIPRoute.equalFull_iff] at h
    rw [Bool.eq_iff_iff, NMIPRoute.equalFull_iff, NMIPRoute.equalFull_iff, h.1]
    exact and_congr_right fun _ => h.2.congr_left _

theorem ruleRelations : EntryRelations sameRule fun _ _ => false := by
  constructor
  · intro r
    simp [sameRule, NMIPRoutingRule.cmp_iff]
  · intro r o h
    simp only [sameRule, decide_eq_true_eq, NMIPRoutingRule.cmp_iff] at h ⊢
    exact h.symm
  · intro r o p hro hop
    simp only [sameRule, decide_eq_true_eq, NMIPRoutingRule.cmp_iff] at hro hop ⊢
    exact hro.trans hop
  · intro r o entry _
    rfl

/-! ## The fixed point -/

/-- No entry is refused after those that the list has already. -/
def NoneRefused {α : Type*} (same refuses : α → α → Bool) (list entries : List α) : Prop :=
  FreshFrom refuses (commonLength same entries list) entries

theorem configOne_fixed {inet : Inet} {remote : Option IP4Setting} {result : GetConfigResult}
    {configData : IfaceData} {setting : IP4Setting}
    (h : (mangleConnection inet remote result configData
      (mangleConnection inet remote result configData setting).1).2.changed = false) :
    (configOne inet remote result configData
      (configOne inet remote result configData setting).1).2 = false := by
  cases hchanged : (mangleConnection inet remote result configData setting).2.changed with
  | false =>
    have hone : configOne inet remote result configData setting = (setting, false) :=
      if_neg (Bool.eq_false_iff.1 hchanged)
    rw [hone, hone]
  | true =>
    have hone : configOne inet remote result configData setting =
        ((mangleConnection inet remote result configData setting).1, true) := if_pos hchanged
    rw [hone]
    exact congrArg Prod.snd (if_neg (Bool.eq_false_iff.1 h))

/-- The connection has the entries, the changes are reported, and a second time there are none, if
and only if no address and no route is refused as a duplicate after those that are in the
connection already. -/
theorem mangleConnection_fixed_iff (inet : Inet) (remote : Option IP4Setting)
    (result : GetConfigResult) (configData : IfaceData) (setting : IP4Setting) :
    (Replaced sameAddress NMIPAddress.equal setting.addresses
        (newAddresses inet result configData remote)
        (replaceIpv4Addresses setting.addresses (newAddresses inet result configData remote)) ∧
      Replaced NMIPRoute.equalFull NMIPRoute.equalFull setting.routes
        (newRoutes inet result configData remote)
        (replaceIpv4Routes setting.routes (newRoutes inet result configData remote)) ∧
      Replaced sameRule (fun _ _ => false) setting.routingRules
        (newRules inet result configData remote)
        (replaceIpv4Rules setting.routingRules (newRules inet result configData remote)) ∧
      (mangleConnection inet remote result configData
        (mangleConnection inet remote result configData setting).1).2.changed = false ∧
      (configOne inet remote result configData
        (configOne inet remote result configData setting).1).2 = false) ↔
      NoneRefused sameAddress NMIPAddress.equal setting.addresses
          (newAddresses inet result configData remote) ∧
        NoneRefused NMIPRoute.equalFull NMIPRoute.equalFull setting.routes
          (newRoutes inet result configData remote) := by
  have haddrs := addressRelations.replaced_iff setting.addresses
    (newAddresses inet result configData remote)
  have hroutes := routeRelations.replaced_iff setting.routes
    (newRoutes inet result configData remote)
  have hrules := (ruleRelations.replaced_iff setting.routingRules
    (newRules inet result configData remote)).mpr ⟨by simp [pairwise_of_forall], by simp⟩
  have hchanged : (mangleConnection inet remote result configData
      (mangleConnection inet remote result configData setting).1).2.changed = false ↔
        ((replaceIpv4Addresses (replaceIpv4Addresses setting.addresses
            (newAddresses inet result configData remote)).1
            (newAddresses inet result configData remote)).2 = false ∧
          (replaceIpv4Routes (replaceIpv4Routes setting.routes
            (newRoutes inet result configData remote)).1
            (newRoutes inet result configData remote)).2 = false) ∧
          (replaceIpv4Rules (replaceIpv4Rules setting.routingRules
            (newRules inet result configData remote)).1
            (newRules inet result configData remote)).2 = false := by
    rw [← Bool.or_eq_false_iff, ← Bool.or_eq_false_iff]
    rfl
  constructor
  · rintro ⟨ha, hr, -, hfixed, -⟩
    obtain ⟨⟨hca, hcr⟩, -⟩ := hchanged.mp hfixed
    exact ⟨haddrs.mp ⟨ha, hca⟩, hroutes.mp ⟨hr, hcr⟩⟩
  · rintro ⟨ha, hr⟩
    obtain ⟨ha, hca⟩ := haddrs.mpr ha
    obtain ⟨hr, hcr⟩ := hroutes.mpr hr
    have hfixed := hchanged.mpr ⟨⟨hca, hcr⟩, hrules.2⟩
    exact ⟨ha, hr, hrules.1, hfixed, configOne_fixed hfixed⟩

def exampleRoute : NMIPRoute := ⟨.inet, 24, ascii "192.0.2.0", none, .empty, 100⟩

def exampleData : IfaceData := ⟨[], 0, 0, 0, 0, [exampleRoute], false, false, false⟩

/-- A configuration that is applied again without a change. -/
theorem mangleConnection_not_fixed_duplicate :
    ¬ ∀ (inet : Inet) (remote : Option IP4Setting) (result : GetConfigResult)
      (configData : IfaceData) (setting : IP4Setting),
      (mangleConnection inet remote result configData
        (mangleConnection inet remote result configData setting).1).2.changed = false := by
  intro h
  have hfixed := h ⟨fun _ _ => [], fun _ _ => none⟩ (some ⟨[], [exampleRoute], []⟩) ⟨1, 1⟩
    exampleData ⟨[], [exampleRoute], []⟩
  revert hfixed
  decide +kernel

end NetworkManager.CloudSetup
