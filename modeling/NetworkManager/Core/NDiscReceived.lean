import NetworkManager.Core.NDisc
import NetworkManager.Lib.Keyed
import NetworkManager.Lib.Runs

/-!
# Receiving router advertisements

The lists of the router data hold every item once, the preferred ones first, and are
bounded in size. A route that is not more preferable than any other is put at the front
of its list, which is the one way in which an advertisement can break this.
-/

namespace NetworkManager.Core

/-! ## Lists of received items -/

open List

/-- A list that has no two items with the same key, and the preferred ones first. -/
structure ListWellFormed {α κ : Type} (key : α → κ) (priority : α → ℕ) (sizeMax : ℕ)
    (items : List α) : Prop where
  distinct : (items.map key).Nodup
  sorted : items.Pairwise fun a b => priority b ≤ priority a
  length_le : items.length ≤ sizeMax

/-- The operations of the class tell items apart by their key. -/
structure NDiscItemClass.Lawful {α κ : Type} (c : NDiscItemClass α) (key : α → κ)
    (priority : α → ℕ) : Prop where
  sameItem_iff : ∀ a b, c.sameItem a b = true ↔ key a = key b
  samePreference_self : ∀ a, c.samePreference a a = true
  priority_eq : ∀ a b, c.samePreference a b = true → priority a = priority b
  upToDate_iff : ∀ a b, c.upToDate a b = true ↔ c.refresh a b = a
  key_refresh : ∀ a b, key (c.refresh a b) = key a
  priority_refresh : ∀ a b, priority (c.refresh a b) = priority a
  lessPreferable_iff : ∀ a b, c.lessPreferable a b = true ↔ priority a < priority b
  defaultIdx_le : ∀ len, c.defaultIdx len ≤ len

section addItem

variable {α κ : Type} {c : NDiscItemClass α} {key : α → κ} {priority : α → ℕ}
variable {nowMsec : ℤ} {newItem : α} {items : List α} {sizeMax : ℕ}

def NDiscItemClass.others (c : NDiscItemClass α) (newItem : α) (items : List α) : List α :=
  items.filter fun item => !c.sameItem item newItem

def NDiscItemClass.insertPos (c : NDiscItemClass α) (newItem : α) (items : List α) : ℕ :=
  (items.findIdx? fun item => c.lessPreferable item newItem).getD (c.defaultIdx items.length)

/-- The item gets a place in the list: it is new and there is room, or its preference
changes. -/
def NDiscItemClass.inserts (c : NDiscItemClass α) (nowMsec : ℤ) (newItem : α)
    (items : List α) : Bool :=
  nowMsec < c.expiryMsec newItem &&
    match items.find? fun item => c.sameItem item newItem with
    | none => items.length < c.sizeMax
    | some item => !c.samePreference item newItem

variable (c nowMsec items) in
theorem addItemLoop_append (passed pre : List α)
    (hpre : ∀ item ∈ pre, c.sameItem item newItem = false) :
    addItemLoop c nowMsec newItem passed
        (passed.findIdx? fun item => c.lessPreferable item newItem) (pre ++ items) =
      addItemLoop c nowMsec newItem (passed ++ pre)
        ((passed ++ pre).findIdx? fun item => c.lessPreferable item newItem) items := by
  induction pre generalizing passed with
  | nil => simp
  | cons item pre ih =>
    have hitem : c.sameItem item newItem = false := hpre item (by simp)
    have hidx : (if (c.lessPreferable item newItem &&
          (passed.findIdx? fun item => c.lessPreferable item newItem).isNone) = true
        then some passed.length
        else passed.findIdx? fun item => c.lessPreferable item newItem) =
        (passed ++ [item]).findIdx? fun item => c.lessPreferable item newItem := by
      rw [List.findIdx?_append]
      cases passed.findIdx? fun item => c.lessPreferable item newItem with
      | none => cases hless : c.lessPreferable item newItem <;> simp [List.findIdx?_cons, hless]
      | some idx => simp
    simp only [cons_append, addItemLoop, hitem, Bool.false_eq_true, if_false, hidx]
    rw [ih (passed ++ [item]) fun x hx => hpre x (mem_cons_of_mem _ hx)]
    simp

theorem addItem_of_none (hnone : ∀ item ∈ items, c.sameItem item newItem = false) :
    addItem c nowMsec newItem items =
      insertItem c nowMsec newItem (items.findIdx? fun item => c.lessPreferable item newItem)
        items := by
  have h := addItemLoop_append c nowMsec [] [] items hnone
  simpa [addItem, addItemLoop] using h

theorem addItem_append (pre post : List α) (item : α)
    (hpre : ∀ item ∈ pre, c.sameItem item newItem = false)
    (hpost : ∀ item ∈ post, c.sameItem item newItem = false)
    (hitem : c.sameItem item newItem = true) :
    addItem c nowMsec newItem (pre ++ item :: post) =
      if c.expiryMsec newItem ≤ nowMsec then (pre ++ post, true)
      else if c.samePreference item newItem = false then
        insertItem c nowMsec newItem
          ((pre ++ post).findIdx? fun item => c.lessPreferable item newItem) (pre ++ post)
      else if c.upToDate item newItem then (pre ++ item :: post, false)
      else (pre ++ c.refresh item newItem :: post, true) := by
  have h := addItemLoop_append c nowMsec (item :: post) [] pre hpre
  have hmove := addItemLoop_append c nowMsec [] pre post hpost
  simp only [nil_append, List.findIdx?_nil, append_nil] at h hmove
  rw [addItem, h]
  simp only [addItemLoop, hitem, if_true, Bool.not_eq_true']
  rw [hmove]
  simp only [addItemLoop]

variable (hc : c.Lawful key priority)

include hc

theorem NDiscItemClass.Lawful.sameItem_eq_false {a b : α} :
    c.sameItem a b = false ↔ key a ≠ key b := by
  rw [Ne, ← hc.sameItem_iff, Bool.not_eq_true]

theorem NDiscItemClass.Lawful.insertPos_le (newItem : α) (items : List α) :
    c.insertPos newItem items ≤ items.length := by
  unfold NDiscItemClass.insertPos
  cases h : items.findIdx? fun item => c.lessPreferable item newItem with
  | none => exact hc.defaultIdx_le items.length
  | some idx =>
    have hlt := (List.findIdx?_eq_some_iff_findIdx_eq.mp h).1
    simpa using hlt.le

/-- Receiving an item, by the item of that key that the list has. -/
theorem addItem_eq (hlist : ListWellFormed key priority c.sizeMax items) (nowMsec : ℤ)
    (newItem : α) :
    addItem c nowMsec newItem items =
      if c.inserts nowMsec newItem items then
        ((c.others newItem items).insertIdx (c.insertPos newItem (c.others newItem items)) newItem,
          true)
      else
        match items.find? fun item => c.sameItem item newItem with
        | none => (items, false)
        | some item =>
          if c.expiryMsec newItem ≤ nowMsec then (c.others newItem items, true)
          else if c.upToDate item newItem then (items, false)
          else
            (items.map fun x => if c.sameItem x newItem then c.refresh x newItem else x, true) := by
  cases hfind : items.find? fun item => c.sameItem item newItem with
  | none =>
    have hnone : ∀ item ∈ items, c.sameItem item newItem = false := by
      simpa using List.find?_eq_none.mp hfind
    have hothers : c.others newItem items = items :=
      filter_eq_self.mpr fun item hitem => by simp [hnone item hitem]
    rw [addItem_of_none hnone, insertItem, hothers]
    simp only [NDiscItemClass.inserts, hfind, Bool.and_eq_true, decide_eq_true_eq]
    rw [NDiscItemClass.insertPos]
    split_ifs <;> first | rfl | omega
  | some item =>
    obtain ⟨hitem, pre, post, rfl, hpre⟩ := List.find?_eq_some_iff_append.mp hfind
    have hkey : key item = key newItem := (hc.sameItem_iff _ _).mp hitem
    have hpre : ∀ x ∈ pre, c.sameItem x newItem = false := by simpa using hpre
    have hpost : ∀ x ∈ post, c.sameItem x newItem = false := by
      intro x hx
      rw [hc.sameItem_eq_false, ← hkey]
      have hnodup := (nodup_append.mp (map_append ▸ hlist.distinct)).2.1
      intro heq
      exact (nodup_cons.mp hnodup).1 (heq ▸ mem_map_of_mem hx)
    have hothers : c.others newItem (pre ++ item :: post) = pre ++ post := by
      have hpre' : pre.filter (fun x => !c.sameItem x newItem) = pre :=
        filter_eq_self.mpr fun x hx => by simp [hpre x hx]
      have hpost' : post.filter (fun x => !c.sameItem x newItem) = post :=
        filter_eq_self.mpr fun x hx => by simp [hpost x hx]
      simp [NDiscItemClass.others, hpre', hpost', hitem]
    have hrefresh : ((pre ++ item :: post).map fun x =>
        if c.sameItem x newItem then c.refresh x newItem else x) =
        pre ++ c.refresh item newItem :: post := by
      have hpre' : pre.map (fun x => if c.sameItem x newItem then c.refresh x newItem else x) =
          pre :=
        (map_congr_left fun x hx => by simp [hpre x hx]).trans (map_id' pre)
      have hpost' : post.map (fun x => if c.sameItem x newItem then c.refresh x newItem else x) =
          post :=
        (map_congr_left fun x hx => by simp [hpost x hx]).trans (map_id' post)
      simp [hpre', hpost', hitem]
    have hroom : (pre ++ post).length < c.sizeMax := by
      have := hlist.length_le
      simp only [length_append, length_cons] at this ⊢
      omega
    rw [addItem_append pre post item hpre hpost hitem, hothers, hrefresh, insertItem]
    simp only [NDiscItemClass.inserts, hfind, Bool.and_eq_true, decide_eq_true_eq,
      Bool.not_eq_true']
    rw [NDiscItemClass.insertPos]
    by_cases hexpired : c.expiryMsec newItem ≤ nowMsec
    · have hlate : ¬ nowMsec < c.expiryMsec newItem := by omega
      simp [hexpired, hlate]
    · have hlate : nowMsec < c.expiryMsec newItem := by omega
      have hlen : ¬ (pre ++ post).length ≥ c.sizeMax := by omega
      cases hpref : c.samePreference item newItem with
      | false => simp only [hexpired, hlate, hlen, if_true, if_false, and_self]
      | true => simp [hexpired]

theorem NDiscItemClass.Lawful.mem_insert {x : α} (newItem : α) (items : List α) :
    x ∈ items.insertIdx (c.insertPos newItem items) newItem ↔ x = newItem ∨ x ∈ items :=
  mem_insertIdx (hc.insertPos_le newItem items)

omit hc in
theorem NDiscItemClass.length_others_lt {item : α} (hitem : item ∈ items)
    (hsame : c.sameItem item newItem = true) : (c.others newItem items).length < items.length :=
  length_filter_lt_length_iff_exists.mpr ⟨item, hitem, by simp [hsame]⟩

section

variable (hlist : ListWellFormed key priority c.sizeMax items)

include hlist

omit hc in
theorem others_wellFormed (newItem : α) :
    ListWellFormed key priority c.sizeMax (c.others newItem items) where
  distinct := hlist.distinct.sublist (filter_sublist.map key)
  sorted := hlist.sorted.sublist filter_sublist
  length_le := (length_filter_le _ _).trans hlist.length_le

theorem refresh_wellFormed (newItem : α) :
    ListWellFormed key priority c.sizeMax
      (items.map fun x => if c.sameItem x newItem then c.refresh x newItem else x) := by
  have hkey (x : α) : key (if c.sameItem x newItem then c.refresh x newItem else x) = key x := by
    split_ifs
    · exact hc.key_refresh x newItem
    · rfl
  have hprio (x : α) :
      priority (if c.sameItem x newItem then c.refresh x newItem else x) = priority x := by
    split_ifs
    · exact hc.priority_refresh x newItem
    · rfl
  constructor
  · simpa [Function.comp_def, hkey] using hlist.distinct
  · simpa [pairwise_map, hprio] using hlist.sorted
  · simpa using hlist.length_le

omit hc in
theorem length_others_lt_sizeMax (hins : c.inserts nowMsec newItem items = true) :
    (c.others newItem items).length < c.sizeMax := by
  have hle : (c.others newItem items).length ≤ items.length := length_filter_le _ _
  have hmax := hlist.length_le
  simp only [NDiscItemClass.inserts, Bool.and_eq_true] at hins
  cases hfind : items.find? fun item => c.sameItem item newItem with
  | none =>
    have hroom : items.length < c.sizeMax := by simpa [hfind] using hins.2
    omega
  | some item =>
    have hlt := NDiscItemClass.length_others_lt (mem_of_find?_eq_some hfind)
      (by simpa using List.find?_some hfind)
    omega

theorem insert_wellFormed_iff (hins : c.inserts nowMsec newItem items = true) :
    ListWellFormed key priority c.sizeMax
        ((c.others newItem items).insertIdx (c.insertPos newItem (c.others newItem items))
          newItem) ↔
      ((c.others newItem items).insertIdx (c.insertPos newItem (c.others newItem items))
        newItem).Pairwise fun a b => priority b ≤ priority a := by
  have hpos := hc.insertPos_le newItem (c.others newItem items)
  refine ⟨ListWellFormed.sorted, fun hsorted => ⟨?_, hsorted, ?_⟩⟩
  · have hperm := (perm_insertIdx newItem (c.others newItem items) hpos).map key
    rw [hperm.nodup_iff, map_cons, nodup_cons]
    refine ⟨?_, (others_wellFormed hlist newItem).distinct⟩
    simp only [NDiscItemClass.others, mem_map, mem_filter, Bool.not_eq_true',
      hc.sameItem_eq_false, not_exists, not_and]
    exact fun item hitem => hitem.2
  · have hlen := length_others_lt_sizeMax hlist hins
    rw [length_insertIdx_of_le_length hpos]
    omega

theorem addItem_wellFormed_iff (nowMsec : ℤ) (newItem : α) :
    ListWellFormed key priority c.sizeMax (addItem c nowMsec newItem items).1 ↔
      (c.inserts nowMsec newItem items →
        ((c.others newItem items).insertIdx (c.insertPos newItem (c.others newItem items))
          newItem).Pairwise fun a b => priority b ≤ priority a) := by
  rw [addItem_eq hc hlist]
  cases hins : c.inserts nowMsec newItem items with
  | false =>
    simp only [Bool.false_eq_true, if_false, false_imp_iff, iff_true]
    cases hfind : items.find? fun item => c.sameItem item newItem with
    | none => exact hlist
    | some item =>
      dsimp only
      split_ifs
      · exact others_wellFormed hlist newItem
      · exact hlist
      · exact refresh_wellFormed hc hlist newItem
  | true =>
    simp only [if_true, true_imp_iff]
    exact insert_wellFormed_iff hc hlist hins

/-- Receiving an item reports whether the list changed. -/
theorem addItem_changed_iff (nowMsec : ℤ) (newItem : α) :
    (addItem c nowMsec newItem items).2 = true ↔ (addItem c nowMsec newItem items).1 ≠ items := by
  rw [addItem_eq hc hlist]
  cases hins : c.inserts nowMsec newItem items with
  | true =>
    simp only [if_true, true_iff]
    intro heq
    have hmem : newItem ∈ items := heq ▸ (hc.mem_insert newItem _).mpr (Or.inl rfl)
    simp only [NDiscItemClass.inserts, Bool.and_eq_true] at hins
    cases hfind : items.find? fun item => c.sameItem item newItem with
    | none =>
      have hself := List.find?_eq_none.mp hfind newItem hmem
      exact hself ((hc.sameItem_iff newItem newItem).mpr rfl)
    | some item =>
      have hkey : key item = key newItem :=
        (hc.sameItem_iff _ _).mp (by simpa using List.find?_some hfind)
      have hitem : item = newItem :=
        inj_on_of_nodup_map hlist.distinct (mem_of_find?_eq_some hfind) hmem hkey
      have hpref : c.samePreference item newItem = false := by simpa [hfind] using hins.2
      rw [hitem, hc.samePreference_self] at hpref
      exact Bool.noConfusion hpref
  | false =>
    simp only [Bool.false_eq_true, if_false]
    cases hfind : items.find? fun item => c.sameItem item newItem with
    | none => simp
    | some item =>
      have hitem := mem_of_find?_eq_some hfind
      have hsame : c.sameItem item newItem = true := by simpa using List.find?_some hfind
      dsimp only
      split_ifs with hexpired hupToDate
      · have hlt := NDiscItemClass.length_others_lt hitem hsame
        simp only [true_iff]
        intro heq
        rw [heq] at hlt
        omega
      · simp
      · simp only [true_iff]
        intro heq
        have hmap := map_inj_left.mp (heq.trans (map_id' items).symm) item hitem
        rw [if_pos hsame] at hmap
        exact hupToDate ((hc.upToDate_iff item newItem).mpr hmap)

end

/-! ### The place of a new item -/

theorem insertPos_of_exists (h : ∃ item ∈ items, priority item < priority newItem) :
    c.insertPos newItem items =
      items.findIdx fun item => decide (priority item < priority newItem) := by
  have hless : (fun item => c.lessPreferable item newItem) =
      fun item => decide (priority item < priority newItem) := by
    funext item
    rw [Bool.eq_iff_iff, hc.lessPreferable_iff, decide_eq_true_eq]
  unfold NDiscItemClass.insertPos
  rw [hless, List.findIdx?_eq_some_of_exists (by simpa using h), Option.getD_some]

theorem insertPos_of_forall (h : ∀ item ∈ items, priority newItem ≤ priority item) :
    c.insertPos newItem items = c.defaultIdx items.length := by
  unfold NDiscItemClass.insertPos
  rw [List.findIdx?_eq_none_iff.mpr, Option.getD_none]
  intro item hitem
  rw [← Bool.not_eq_true, hc.lessPreferable_iff]
  have := h item hitem
  omega

omit hc

theorem pairwise_insertIdx_findIdx
    (hsorted : items.Pairwise fun a b => priority b ≤ priority a) :
    (items.insertIdx (items.findIdx fun item => decide (priority item < priority newItem))
      newItem).Pairwise fun a b => priority b ≤ priority a := by
  induction items with
  | nil => simp
  | cons item items ih =>
    obtain ⟨hitem, hitems⟩ := pairwise_cons.mp hsorted
    rw [findIdx_cons]
    by_cases hless : priority item < priority newItem
    · simp only [hless, decide_true, cond_true, insertIdx_zero, pairwise_cons]
      refine ⟨fun x hx => ?_, hitem, hitems⟩
      rcases mem_cons.mp hx with rfl | hx
      · omega
      · have := hitem x hx
        omega
    · simp only [hless, decide_false, cond_false, insertIdx_succ_cons, pairwise_cons]
      refine ⟨fun x hx => ?_, ih hitems⟩
      rw [mem_insertIdx findIdx_le_length] at hx
      rcases hx with rfl | hx
      · omega
      · exact hitem x hx

include hc

theorem insert_sorted_of_append (hdefault : ∀ len, c.defaultIdx len = len)
    (hsorted : items.Pairwise fun a b => priority b ≤ priority a) :
    (items.insertIdx (c.insertPos newItem items) newItem).Pairwise
      fun a b => priority b ≤ priority a := by
  by_cases h : ∃ item ∈ items, priority item < priority newItem
  · rw [insertPos_of_exists hc h]
    exact pairwise_insertIdx_findIdx hsorted
  · simp only [not_exists, not_and, Nat.not_lt] at h
    rw [insertPos_of_forall hc h, hdefault, insertIdx_length_self, pairwise_append]
    exact ⟨hsorted, pairwise_singleton _ _, by simpa using h⟩

theorem insert_sorted_iff_of_prepend (hdefault : ∀ len, c.defaultIdx len = 0)
    (hsorted : items.Pairwise fun a b => priority b ≤ priority a) :
    (items.insertIdx (c.insertPos newItem items) newItem).Pairwise
        (fun a b => priority b ≤ priority a) ↔
      (∃ item ∈ items, priority item < priority newItem) ∨
        ∀ item ∈ items, priority item ≤ priority newItem := by
  by_cases h : ∃ item ∈ items, priority item < priority newItem
  · rw [insertPos_of_exists hc h]
    exact iff_of_true (pairwise_insertIdx_findIdx hsorted) (Or.inl h)
  · have hall := h
    simp only [not_exists, not_and, Nat.not_lt] at hall
    rw [insertPos_of_forall hc hall, hdefault, insertIdx_zero, pairwise_cons]
    simp only [h, hsorted, and_true, false_or]

end addItem

theorem ListWellFormed.sublist {α κ : Type} {key : α → κ} {priority : α → ℕ} {sizeMax : ℕ}
    {items items' : List α} (h : ListWellFormed key priority sizeMax items)
    (hsub : items'.Sublist items) : ListWellFormed key priority sizeMax items' where
  distinct := h.distinct.sublist (hsub.map key)
  sorted := h.sorted.sublist hsub
  length_le := hsub.length_le.trans h.length_le

/-! ## The classes -/

theorem gatewayClass_lawful : gatewayClass.Lawful NDiscGateway.address
    fun item => preferenceToPriority item.preference where
  sameItem_iff a b := by simp [gatewayClass]
  samePreference_self a := by simp [gatewayClass]
  priority_eq a b h := by
    have heq : a.preference = b.preference := by simpa [gatewayClass] using h
    rw [heq]
  upToDate_iff a b := by
    cases a
    simp [gatewayClass, eq_comm]
  key_refresh a b := rfl
  priority_refresh a b := rfl
  lessPreferable_iff a b := by simp [gatewayClass]
  defaultIdx_le len := Nat.le_refl len

def NDiscRoute.key (route : NDiscRoute) : BitVec 128 × ℕ × Bool :=
  (route.network, route.plen, route.onLink)

theorem routeClass_lawful : routeClass.Lawful NDiscRoute.key
    fun item => preferenceToPriority item.preference where
  sameItem_iff a b := by simp [routeClass, NDiscRoute.key]
  samePreference_self a := by simp [routeClass]
  priority_eq a b h := by
    have heq : a.preference = b.preference := by simpa [routeClass] using h
    rw [heq]
  upToDate_iff a b := by
    cases a
    simp only [routeClass, decide_eq_true_eq, NDiscRoute.mk.injEq, true_and, and_true]
    exact ⟨fun h => ⟨h.2.symm, h.1.symm⟩, fun h => ⟨h.2.symm, h.1.symm⟩⟩
  key_refresh a b := rfl
  priority_refresh a b := rfl
  lessPreferable_iff a b := by simp [routeClass]
  defaultIdx_le len := Nat.zero_le len

theorem dnsServerClass_lawful : dnsServerClass.Lawful NDiscDnsServer.address fun _ => 0 where
  sameItem_iff a b := by simp [dnsServerClass]
  samePreference_self a := rfl
  priority_eq a b h := rfl
  upToDate_iff a b := by
    cases a
    simp [dnsServerClass, eq_comm]
  key_refresh a b := rfl
  priority_refresh a b := rfl
  lessPreferable_iff a b := by simp [dnsServerClass]
  defaultIdx_le len := Nat.le_refl len

theorem dnsDomainClass_lawful : dnsDomainClass.Lawful NDiscDnsDomain.domain fun _ => 0 where
  sameItem_iff a b := by simp [dnsDomainClass]
  samePreference_self a := rfl
  priority_eq a b h := rfl
  upToDate_iff a b := by
    cases a
    simp [dnsDomainClass, eq_comm]
  key_refresh a b := rfl
  priority_refresh a b := rfl
  lessPreferable_iff a b := by simp [dnsDomainClass]
  defaultIdx_le len := Nat.le_refl len

/-! ## The router data -/

/-- Every list of the router data is well-formed. There is one address for each prefix, and
no order among addresses, DNS servers and DNS domains. -/
structure NDiscData.WellFormed (config : NDiscConfig) (rdata : NDiscData) : Prop where
  gateways : ListWellFormed NDiscGateway.address
    (fun item => preferenceToPriority item.preference) sizeMaxGateways rdata.gateways
  addresses : ListWellFormed (fun item : NDiscAddress => addressPrefix item.address)
    (fun _ => 0) config.maxAddresses rdata.addresses
  routes : ListWellFormed NDiscRoute.key
    (fun item => preferenceToPriority item.preference) sizeMaxRoutes rdata.routes
  dnsServers : ListWellFormed NDiscDnsServer.address (fun _ => 0) sizeMaxDnsServers
    rdata.dnsServers
  dnsDomains : ListWellFormed NDiscDnsDomain.domain (fun _ => 0) sizeMaxDnsDomains
    rdata.dnsDomains

theorem listWellFormed_nil {α κ : Type} {key : α → κ} {priority : α → ℕ} {sizeMax : ℕ} :
    ListWellFormed key priority sizeMax [] :=
  ⟨nodup_nil, List.Pairwise.nil, Nat.zero_le _⟩

/-! ### Addresses -/

@[simp] theorem addressPrefix_setInterfaceIdentifier (address : BitVec 128) (iid : BitVec 64) :
    addressPrefix (setInterfaceIdentifier address iid) = addressPrefix address := by
  exact BitVec.extractLsb'_append_eq_left

theorem addressPrefix_completeAddress {config : NDiscConfig} {addr addr' : NDiscAddress}
    (h : completeAddress config addr = some addr') :
    addressPrefix addr'.address = addressPrefix addr.address := by
  unfold completeAddress at h
  cases hmode : config.addrGenMode with
  | stablePrivacy =>
    rw [hmode] at h
    dsimp only at h
    split_ifs at h
    rw [← Option.some.inj h, addressPrefix_setInterfaceIdentifier]
  | eui64 =>
    rw [hmode] at h
    dsimp only at h
    cases hiid : config.iid with
    | none => simp [hiid] at h
    | some iid =>
      rw [hiid] at h
      dsimp only at h
      split_ifs at h
      rw [← Option.some.inj h, addressPrefix_setInterfaceIdentifier]

/-- Every prefix has one address. -/
abbrev AddressesWellFormed (config : NDiscConfig) (addresses : List NDiscAddress) : Prop :=
  ListWellFormed (fun item : NDiscAddress => addressPrefix item.address) (fun _ => 0)
    config.maxAddresses addresses

variable {config : NDiscConfig} {rdata : NDiscData}

/-- The other lists are as before. -/
def SameButAddresses (rdata rdata' : NDiscData) : Prop :=
  rdata' = { rdata with addresses := rdata'.addresses }

theorem NDiscData.WellFormed.of_addresses {rdata' : NDiscData} (h : rdata.WellFormed config)
    (hsame : SameButAddresses rdata rdata') (haddr : AddressesWellFormed config rdata'.addresses) :
    rdata'.WellFormed config := by
  rw [hsame]
  exact { h with addresses := haddr }

theorem AddressesWellFormed.set {addresses : List NDiscAddress} {i : ℕ}
    {existing item : NDiscAddress} (h : AddressesWellFormed config addresses)
    (hi : addresses[i]? = some existing) (hitem : item.address = existing.address) :
    AddressesWellFormed config (addresses.set i item) := by
  obtain ⟨hlt, hget⟩ := List.getElem?_eq_some_iff.mp hi
  have hprefixes : (addresses.set i item).map (fun item => addressPrefix item.address) =
      addresses.map fun item => addressPrefix item.address := by
    apply ext_getElem (by simp)
    intro j _ hj
    by_cases hij : i = j
    · subst hij
      simp [hitem, hget]
    · simp [hij]
  constructor
  · rw [hprefixes]
    exact h.distinct
  · exact pairwise_of_forall fun _ _ => Nat.le_refl 0
  · simpa using h.length_le

theorem refreshAddress_fromRa {i : ℕ} {existing newItem : NDiscAddress} {nowMsec : ℤ}
    (hi : rdata.addresses[i]? = some existing) (h : rdata.WellFormed config) :
    (refreshAddress i existing newItem nowMsec true rdata).1.WellFormed config ∧
      ((refreshAddress i existing newItem nowMsec true rdata).2 = true ↔
        (refreshAddress i existing newItem nowMsec true rdata).1 ≠ rdata) := by
  obtain ⟨hlt, hget⟩ := List.getElem?_eq_some_iff.mp hi
  simp only [refreshAddress, Bool.not_true, Bool.false_and, Bool.false_eq_true, if_false, if_true]
  split_ifs with hsame
  · exact ⟨h, by simp⟩
  · constructor
    · exact h.of_addresses rfl (AddressesWellFormed.set h.addresses hi rfl)
    · simp only [true_iff]
      intro heq
      have hitem := congrArg (fun rdata => rdata.addresses[i]?) heq
      simp only [List.getElem?_set_self hlt, hi, Option.some.injEq] at hitem
      exact hsame ⟨congrArg NDiscAddress.expiryMsec hitem,
        congrArg NDiscAddress.expiryPreferredMsec hitem⟩

theorem appendAddress_fromRa {newItem : NDiscAddress} {nowMsec : ℤ}
    (hnew : ∀ item ∈ rdata.addresses,
      addressPrefix item.address ≠ addressPrefix newItem.address)
    (h : rdata.WellFormed config) :
    (appendAddress config newItem nowMsec true rdata).1.WellFormed config ∧
      ((appendAddress config newItem nowMsec true rdata).2 = true ↔
        (appendAddress config newItem nowMsec true rdata).1 ≠ rdata) := by
  unfold appendAddress
  split_ifs with hfull hexpired
  · exact ⟨h, by simp⟩
  · exact ⟨h, by simp⟩
  · dsimp only
    split
    · exact ⟨h, by simp⟩
    · rename_i new2 hnew2
      have hprefix := addressPrefix_completeAddress hnew2
      constructor
      · refine h.of_addresses rfl ⟨?_, ?_, ?_⟩
        · rw [map_append, nodup_append]
          refine ⟨h.addresses.distinct, by simp, fun a ha b hb => ?_⟩
          obtain ⟨item, hitem, rfl⟩ := mem_map.mp ha
          rw [map_singleton, mem_singleton] at hb
          rw [hb, hprefix]
          exact hnew item hitem
        · exact pairwise_of_forall fun _ _ => Nat.le_refl 0
        · simp only [length_append, length_singleton]
          omega
      · simp only [true_iff]
        intro heq
        have hlen := congrArg (fun rdata => rdata.addresses.length) heq
        simp at hlen
  · rename_i hra
    exact absurd rfl hra

theorem completeAndAddAddress_spec (newItem : NDiscAddress) (nowMsec : ℤ)
    (h : rdata.WellFormed config) :
    (completeAndAddAddress config newItem nowMsec rdata).1.WellFormed config ∧
      ((completeAndAddAddress config newItem nowMsec rdata).2 = true ↔
        (completeAndAddAddress config newItem nowMsec rdata).1 ≠ rdata) := by
  unfold completeAndAddAddress addAddress
  simp only [if_true]
  cases hidx : rdata.addresses.findIdx? fun item =>
      decide (addressPrefix item.address = addressPrefix newItem.address) with
  | none =>
    have hnew : ∀ item ∈ rdata.addresses,
        addressPrefix item.address ≠ addressPrefix newItem.address := by
      simpa using List.findIdx?_eq_none_iff.mp hidx
    exact appendAddress_fromRa hnew h
  | some i =>
    dsimp only
    cases hi : rdata.addresses[i]? with
    | none => exact ⟨h, by simp⟩
    | some existing => exact refreshAddress_fromRa hi h

theorem dadFailed_wellFormed (addresses : List (BitVec 128)) (h : rdata.WellFormed config) :
    (dadFailed config addresses rdata).WellFormed config := by
  refine Lib.foldl_invariant (I := fun rdata : NDiscData => rdata.WellFormed config)
    (fun rdata addr h => ?_) h addresses
  have hkey (item item' : NDiscAddress)
      (hitem : (if item.address = addr then completeAddress config item else some item) =
        some item') :
      addressPrefix item'.address = addressPrefix item.address := by
    split_ifs at hitem
    · exact addressPrefix_completeAddress hitem
    · rw [Option.some.inj hitem]
  refine h.of_addresses rfl ⟨?_, pairwise_of_forall fun _ _ => Nat.le_refl 0, ?_⟩
  · exact h.addresses.distinct.sublist (Lib.map_filterMap_sublist hkey rdata.addresses)
  · exact (length_filterMap_le _ _).trans h.addresses.length_le

/-! ### Expiry -/

/-- Every list lost items at most. -/
structure NDiscData.Sublists (rdata' rdata : NDiscData) : Prop where
  gateways : rdata'.gateways.Sublist rdata.gateways
  addresses : rdata'.addresses.Sublist rdata.addresses
  routes : rdata'.routes.Sublist rdata.routes
  dnsServers : rdata'.dnsServers.Sublist rdata.dnsServers
  dnsDomains : rdata'.dnsDomains.Sublist rdata.dnsDomains

theorem NDiscData.Sublists.refl (rdata : NDiscData) : rdata.Sublists rdata :=
  ⟨List.Sublist.refl _, List.Sublist.refl _, List.Sublist.refl _, List.Sublist.refl _,
    List.Sublist.refl _⟩

theorem NDiscData.Sublists.trans {a b c : NDiscData} (hab : a.Sublists b) (hbc : b.Sublists c) :
    a.Sublists c where
  gateways := hab.gateways.trans hbc.gateways
  addresses := hab.addresses.trans hbc.addresses
  routes := hab.routes.trans hbc.routes
  dnsServers := hab.dnsServers.trans hbc.dnsServers
  dnsDomains := hab.dnsDomains.trans hbc.dnsDomains

theorem NDiscData.WellFormed.of_sublists {rdata' : NDiscData} (h : rdata.WellFormed config)
    (hsub : rdata'.Sublists rdata) : rdata'.WellFormed config where
  gateways := h.gateways.sublist hsub.gateways
  addresses := h.addresses.sublist hsub.addresses
  routes := h.routes.sublist hsub.routes
  dnsServers := h.dnsServers.sublist hsub.dnsServers
  dnsDomains := h.dnsDomains.sublist hsub.dnsDomains

theorem compactItems_sublist {α : Type} (expiryMsec : α → ℤ) (nowMsec nextMsec : ℤ)
    (items : List α) : (compactItems expiryMsec nowMsec items nextMsec).1.Sublist items := by
  induction items generalizing nextMsec with
  | nil => exact List.Sublist.refl []
  | cons item items ih =>
    simp only [compactItems]
    split_ifs
    · exact (ih _).cons_cons item
    · exact (ih _).cons item

theorem setSizeMaxGateways_sublists (c : NDiscCheck) (sizeMax : ℕ) (flag : NDiscConfigFlag) :
    (c.setSizeMaxGateways sizeMax flag).rdata.Sublists c.rdata := by
  have hsub : (arraySetSizeMax c.rdata.gateways sizeMax).1.Sublist c.rdata.gateways := by
    unfold arraySetSizeMax
    split_ifs
    · exact List.Sublist.refl _
    · exact take_sublist _ _
  exact { NDiscData.Sublists.refl c.rdata with gateways := hsub }

theorem cleanItems_sublists {α : Type} {c : NDiscCheck} {expiryMsec : α → ℤ} {nowMsec : ℤ}
    {items : List α} {setItems : List α → NDiscData} {setChanged : Bool → NDiscConfigMap}
    {sizeMax : ℕ} {flag : NDiscConfigFlag}
    (hset : ∀ l, l.Sublist items → (setItems l).Sublists c.rdata) :
    (c.cleanItems expiryMsec nowMsec items setItems setChanged sizeMax flag).rdata.Sublists
      c.rdata := by
  unfold NDiscCheck.cleanItems
  split_ifs
  · exact NDiscData.Sublists.refl _
  · exact (setSizeMaxGateways_sublists _ _ _).trans (hset _ (compactItems_sublist _ _ _ _))

theorem checkTimestamps_sublists (config : NDiscConfig) (nowMsec : ℤ) (changed : NDiscConfigMap)
    (rdata : NDiscData) : (checkTimestamps config nowMsec changed rdata).rdata.Sublists rdata := by
  have hrefl := NDiscData.Sublists.refl
  refine NDiscData.Sublists.trans (cleanItems_sublists fun l hl =>
    { hrefl _ with dnsDomains := hl }) ?_
  refine NDiscData.Sublists.trans (cleanItems_sublists fun l hl =>
    { hrefl _ with dnsServers := hl }) ?_
  refine NDiscData.Sublists.trans (cleanItems_sublists fun l hl =>
    { hrefl _ with routes := hl }) ?_
  refine NDiscData.Sublists.trans (cleanItems_sublists fun l hl =>
    { hrefl _ with addresses := hl }) ?_
  exact cleanItems_sublists fun l hl => { hrefl _ with gateways := hl }

/-! ## Runs -/

/-- What happens to the router data. -/
inductive NDiscOp
  | addGateway (newItem : NDiscGateway) (nowMsec : ℤ)
  | completeAndAddAddress (newItem : NDiscAddress) (nowMsec : ℤ)
  | addRoute (newItem : NDiscRoute) (nowMsec : ℤ)
  | addDnsServer (newItem : NDiscDnsServer) (nowMsec : ℤ)
  | addDnsDomain (newItem : NDiscDnsDomain) (nowMsec : ℤ)
  | checkTimestamps (nowMsec : ℤ) (changed : NDiscConfigMap)
  | dadFailed (addresses : List (BitVec 128))

/-- The data after the operation, and what an add function returns. -/
def NDiscData.runOp (config : NDiscConfig) (rdata : NDiscData) : NDiscOp → NDiscData × Option Bool
  | .addGateway newItem nowMsec => (addGateway newItem nowMsec rdata).map id some
  | .completeAndAddAddress newItem nowMsec =>
    (completeAndAddAddress config newItem nowMsec rdata).map id some
  | .addRoute newItem nowMsec => (addRoute newItem nowMsec rdata).map id some
  | .addDnsServer newItem nowMsec => (addDnsServer newItem nowMsec rdata).map id some
  | .addDnsDomain newItem nowMsec => (addDnsDomain newItem nowMsec rdata).map id some
  | .checkTimestamps nowMsec changed =>
    ((NetworkManager.Core.checkTimestamps config nowMsec changed rdata).rdata, none)
  | .dadFailed addresses => (NetworkManager.Core.dadFailed config addresses rdata, none)

def NDiscData.step (config : NDiscConfig) (rdata : NDiscData) (op : NDiscOp) : NDiscData :=
  (rdata.runOp config op).1

def NDiscData.empty : NDiscData := ⟨[], [], [], [], []⟩

/-- The data after the operation is well-formed, and an add function returns `TRUE` exactly if
the data changed. -/
def NDiscData.StepWellFormed (config : NDiscConfig) (rdata : NDiscData) (op : NDiscOp) : Prop :=
  (rdata.step config op).WellFormed config ∧
    ∀ changed, (rdata.runOp config op).2 = some changed →
      (changed = true ↔ rdata.step config op ≠ rdata)

def otherRoutes (newItem : NDiscRoute) (rdata : NDiscData) : List NDiscRoute :=
  rdata.routes.filter fun route => route.key ≠ newItem.key

/-- The route is added, or has another preference than it had. -/
def routeInserts (newItem : NDiscRoute) (nowMsec : ℤ) (rdata : NDiscData) : Prop :=
  newItem.plen ≠ 0 ∧ newItem.plen ≤ 128 ∧ nowMsec < newItem.expiryMsec ∧
    match rdata.routes.find? fun route => route.key = newItem.key with
    | none => rdata.routes.length < sizeMaxRoutes
    | some route => route.preference ≠ newItem.preference

/-- A route that gets a place in the list is more preferable than one of the others, or at
least as preferable as all of them. -/
def RouteFits (rdata : NDiscData) : NDiscOp → Prop
  | .addRoute newItem nowMsec =>
    routeInserts newItem nowMsec rdata →
      (∃ route ∈ otherRoutes newItem rdata,
        preferenceToPriority route.preference < preferenceToPriority newItem.preference) ∨
      ∀ route ∈ otherRoutes newItem rdata,
        preferenceToPriority route.preference ≤ preferenceToPriority newItem.preference
  | _ => True

theorem addItem_wellFormed_of_append {α κ : Type} {c : NDiscItemClass α} {key : α → κ}
    {priority : α → ℕ} {items : List α} (hc : c.Lawful key priority)
    (hdefault : ∀ len, c.defaultIdx len = len)
    (hlist : ListWellFormed key priority c.sizeMax items) (nowMsec : ℤ) (newItem : α) :
    ListWellFormed key priority c.sizeMax (addItem c nowMsec newItem items).1 :=
  (addItem_wellFormed_iff hc hlist nowMsec newItem).mpr fun _ =>
    insert_sorted_of_append hc hdefault (others_wellFormed hlist newItem).sorted

theorem addGateway_spec (newItem : NDiscGateway) (nowMsec : ℤ) (h : rdata.WellFormed config) :
    (addGateway newItem nowMsec rdata).1.WellFormed config ∧
      ((addGateway newItem nowMsec rdata).2 = true ↔
        (addGateway newItem nowMsec rdata).1 ≠ rdata) := by
  have hlist := addItem_wellFormed_of_append gatewayClass_lawful (fun _ => rfl) h.gateways
    nowMsec newItem
  refine ⟨{ h with gateways := hlist }, ?_⟩
  refine (addItem_changed_iff gatewayClass_lawful h.gateways nowMsec newItem).trans ?_
  exact not_congr ⟨fun heq => by simp [addGateway, heq], fun heq => congrArg NDiscData.gateways heq⟩

theorem addDnsServer_spec (newItem : NDiscDnsServer) (nowMsec : ℤ) (h : rdata.WellFormed config) :
    (addDnsServer newItem nowMsec rdata).1.WellFormed config ∧
      ((addDnsServer newItem nowMsec rdata).2 = true ↔
        (addDnsServer newItem nowMsec rdata).1 ≠ rdata) := by
  have hlist := addItem_wellFormed_of_append dnsServerClass_lawful (fun _ => rfl) h.dnsServers
    nowMsec newItem
  refine ⟨{ h with dnsServers := hlist }, ?_⟩
  refine (addItem_changed_iff dnsServerClass_lawful h.dnsServers nowMsec newItem).trans ?_
  exact not_congr
    ⟨fun heq => by simp [addDnsServer, heq], fun heq => congrArg NDiscData.dnsServers heq⟩

theorem addDnsDomain_spec (newItem : NDiscDnsDomain) (nowMsec : ℤ) (h : rdata.WellFormed config) :
    (addDnsDomain newItem nowMsec rdata).1.WellFormed config ∧
      ((addDnsDomain newItem nowMsec rdata).2 = true ↔
        (addDnsDomain newItem nowMsec rdata).1 ≠ rdata) := by
  have hlist := addItem_wellFormed_of_append dnsDomainClass_lawful (fun _ => rfl) h.dnsDomains
    nowMsec newItem
  refine ⟨{ h with dnsDomains := hlist }, ?_⟩
  refine (addItem_changed_iff dnsDomainClass_lawful h.dnsDomains nowMsec newItem).trans ?_
  exact not_congr
    ⟨fun heq => by simp [addDnsDomain, heq], fun heq => congrArg NDiscData.dnsDomains heq⟩

theorem routeClass_sameItem (newItem : NDiscRoute) :
    (fun route => routeClass.sameItem route newItem) =
      fun route => decide (route.key = newItem.key) := by
  funext route
  simp only [routeClass, NDiscRoute.key, Prod.mk.injEq]

theorem routeClass_others (newItem : NDiscRoute) :
    routeClass.others newItem rdata.routes = otherRoutes newItem rdata := by
  have hsame := congrFun (routeClass_sameItem newItem)
  simp only [NDiscItemClass.others, otherRoutes, hsame, decide_not]

theorem routeInserts_iff {newItem : NDiscRoute} {nowMsec : ℤ} (hplen : newItem.plen ≠ 0)
    (hplen' : newItem.plen ≤ 128) :
    routeInserts newItem nowMsec rdata ↔
      routeClass.inserts nowMsec newItem rdata.routes = true := by
  unfold routeInserts NDiscItemClass.inserts
  rw [routeClass_sameItem, Bool.and_eq_true, decide_eq_true_eq]
  simp only [hplen, hplen', ne_eq, not_false_eq_true, true_and]
  refine and_congr Iff.rfl ?_
  cases rdata.routes.find? fun route => decide (route.key = newItem.key) with
  | none => simp [routeClass]
  | some route => simp [routeClass]

theorem addRoute_spec (newItem : NDiscRoute) (nowMsec : ℤ) (h : rdata.WellFormed config) :
    ((addRoute newItem nowMsec rdata).1.WellFormed config ↔
        RouteFits rdata (.addRoute newItem nowMsec)) ∧
      ((addRoute newItem nowMsec rdata).2 = true ↔
        (addRoute newItem nowMsec rdata).1 ≠ rdata) := by
  by_cases hplen : newItem.plen = 0 ∨ newItem.plen > 128
  · have hnot : ¬ routeInserts newItem nowMsec rdata := fun hins => by
      have h0 := hins.1
      have h128 := hins.2.1
      omega
    simp only [addRoute, hplen, if_true]
    exact ⟨iff_of_true h fun hins => absurd hins hnot, by simp⟩
  · have h0 : newItem.plen ≠ 0 := fun h0 => hplen (Or.inl h0)
    have h128 : newItem.plen ≤ 128 := Nat.not_lt.mp fun h128 => hplen (Or.inr h128)
    have hiff := addItem_wellFormed_iff routeClass_lawful h.routes nowMsec newItem
    have hsorted := (others_wellFormed (c := routeClass) h.routes newItem).sorted
    rw [insert_sorted_iff_of_prepend routeClass_lawful (fun _ => rfl) hsorted, routeClass_others,
      ← routeInserts_iff h0 h128] at hiff
    have hchanged := addItem_changed_iff routeClass_lawful h.routes nowMsec newItem
    simp only [addRoute, hplen, if_false]
    constructor
    · exact ⟨fun hwf => hiff.mp hwf.routes, fun hfits => { h with routes := hiff.mpr hfits }⟩
    · refine hchanged.trans (not_congr ⟨fun heq => by simp [heq], fun heq => ?_⟩)
      exact congrArg NDiscData.routes heq

theorem stepWellFormed_iff (h : rdata.WellFormed config) (op : NDiscOp) :
    NDiscData.StepWellFormed config rdata op ↔ RouteFits rdata op := by
  cases op with
  | addGateway newItem nowMsec =>
    have hspec := addGateway_spec newItem nowMsec h
    exact iff_of_true ⟨hspec.1, fun _ hret => Option.some.inj hret ▸ hspec.2⟩ trivial
  | completeAndAddAddress newItem nowMsec =>
    have hspec := completeAndAddAddress_spec newItem nowMsec h
    exact iff_of_true ⟨hspec.1, fun _ hret => Option.some.inj hret ▸ hspec.2⟩ trivial
  | addRoute newItem nowMsec =>
    have hspec := addRoute_spec newItem nowMsec h
    exact ⟨fun hstep => hspec.1.mp hstep.1,
      fun hfits => ⟨hspec.1.mpr hfits, fun _ hret => Option.some.inj hret ▸ hspec.2⟩⟩
  | addDnsServer newItem nowMsec =>
    have hspec := addDnsServer_spec newItem nowMsec h
    exact iff_of_true ⟨hspec.1, fun _ hret => Option.some.inj hret ▸ hspec.2⟩ trivial
  | addDnsDomain newItem nowMsec =>
    have hspec := addDnsDomain_spec newItem nowMsec h
    exact iff_of_true ⟨hspec.1, fun _ hret => Option.some.inj hret ▸ hspec.2⟩ trivial
  | checkTimestamps nowMsec changed =>
    have hwf := h.of_sublists (checkTimestamps_sublists config nowMsec changed rdata)
    exact iff_of_true ⟨hwf, fun _ hret => by cases hret⟩ trivial
  | dadFailed addresses =>
    exact iff_of_true ⟨dadFailed_wellFormed addresses h, fun _ hret => by cases hret⟩ trivial

theorem wellFormed_empty (config : NDiscConfig) : NDiscData.empty.WellFormed config :=
  ⟨listWellFormed_nil, listWellFormed_nil, listWellFormed_nil, listWellFormed_nil,
    listWellFormed_nil⟩

/-- In a run from the empty data, everything that is reached is well-formed, and every add
function tells whether it changed something, exactly if every route fits that gets a place in
the list. -/
theorem receivedData_wellFormed_iff (config : NDiscConfig) (ops : List NDiscOp) :
    Lib.Along (NDiscData.step config) (NDiscData.StepWellFormed config) NDiscData.empty ops ↔
      Lib.Along (NDiscData.step config) RouteFits NDiscData.empty ops := by
  constructor
  · refine Lib.Along.imp (fun _ _ _ hstep => hstep.1) (wellFormed_empty config) ?_
    exact fun rdata op h hstep => (stepWellFormed_iff h op).mp hstep
  · refine Lib.Along.imp (fun rdata op h hfits => ?_) (wellFormed_empty config) ?_
    · exact ((stepWellFormed_iff h op).mpr hfits).1
    · exact fun rdata op h hfits => (stepWellFormed_iff h op).mpr hfits

def lessPreferableRouteRun : List NDiscOp :=
  [.addRoute ⟨1, 0, 100, .high, 64, false⟩ 0, .addRoute ⟨2, 0, 100, .low, 64, false⟩ 0]

def sixteenAddresses : NDiscConfig := ⟨16, .eui64, none, fun _ _ => 0⟩

/-- The route that is less preferable is put before the preferred one. -/
theorem lessPreferableRoute_first :
    ¬ Lib.Along (NDiscData.step sixteenAddresses) (NDiscData.StepWellFormed sixteenAddresses)
      NDiscData.empty lessPreferableRouteRun := by
  intro hrun
  have hsorted := hrun.2.1.1.routes.sorted
  have hroutes : ((NDiscData.empty.step sixteenAddresses
        (.addRoute ⟨1, 0, 100, .high, 64, false⟩ 0)).step sixteenAddresses
        (.addRoute ⟨2, 0, 100, .low, 64, false⟩ 0)).routes =
      [⟨2, 0, 100, .low, 64, false⟩, ⟨1, 0, 100, .high, 64, false⟩] := by decide +kernel
  rw [hroutes] at hsorted
  exact absurd hsorted (by decide)

end NetworkManager.Core
