import NetworkManager.GlibAux.DedupMulti

/-!
# The linked memory of a multi-index

The memory is read through functions that say what an entry tracks, of which index type a
head is, and what is in the list of a head. It is `Sound` if the lists say the same as the
entries, and if the objects of an index type are told apart by partition and identity.
-/

namespace NetworkManager.GlibAux

open Lib

namespace DedupMultiIndex

variable {I O : Type} {o : O} {h : DedupMultiHeadEntry I}

def entryOf (s : DedupMultiIndex I O) (a : ℕ) : Option (ℕ × O) :=
  (s.entries a).map fun e => (e.head, e.obj)

def typeOf (s : DedupMultiIndex I O) (p : ℕ) : Option I := (s.heads p).map fun h => h.idxType

def listOf (s : DedupMultiIndex I O) (p : ℕ) : List ℕ :=
  (s.heads p).elim [] fun h => h.lstEntries

def lenOf (s : DedupMultiIndex I O) (p : ℕ) : ℕ := (s.heads p).elim 0 fun h => h.len

def lstIdxOf (s : DedupMultiIndex I O) (t : I) : List ℕ := (s.idxTypes t).lstIdx

theorem entryOf_eq_some {s : DedupMultiIndex I O} {a p : ℕ} :
    s.entryOf a = some (p, o) ↔ ∃ e, s.entries a = some e ∧ e.head = p ∧ e.obj = o := by
  simp [entryOf]

theorem typeOf_eq_some {s : DedupMultiIndex I O} {p : ℕ} {t : I} :
    s.typeOf p = some t ↔ ∃ h, s.heads p = some h ∧ h.idxType = t := by
  simp [typeOf]

theorem listOf_of_heads {s : DedupMultiIndex I O} {p : ℕ} (hp : s.heads p = some h)
    : s.listOf p = h.lstEntries := by
  simp [listOf, hp]

theorem lenOf_of_heads {s : DedupMultiIndex I O} {p : ℕ} (hp : s.heads p = some h)
    : s.lenOf p = h.len := by
  simp [lenOf, hp]

theorem typeOf_of_heads {s : DedupMultiIndex I O} {p : ℕ} (hp : s.heads p = some h)
    : s.typeOf p = some h.idxType := by
  simp [typeOf, hp]

theorem entryUnpack_entry {s : DedupMultiIndex I O} (a : ℕ) :
    s.entryUnpack (.entry a) =
      (s.entryOf a).bind fun e => (s.typeOf e.1).map fun t => ⟨t, e.2, false⟩ := by
  cases h : s.entries a <;> simp [entryUnpack, entryOf, typeOf, h, Function.comp_def]

theorem entryUnpack_head {s : DedupMultiIndex I O} (p : ℕ) :
    s.entryUnpack (.head p) =
      (s.typeOf p).bind fun t =>
        (s.listOf p).head?.bind fun a => (s.entryOf a).map fun e => ⟨t, e.2, true⟩ := by
  cases h : s.heads p <;> simp [entryUnpack, entryOf, typeOf, listOf, h, Function.comp_def]

theorem entryUnpack_congr {s s' : DedupMultiIndex I O} (hentry : s'.entryOf = s.entryOf)
    (htype : s'.typeOf = s.typeOf) (hlist : s'.listOf = s.listOf) :
    s'.entryUnpack = s.entryUnpack := by
  funext k
  cases k with
  | entry a => rw [entryUnpack_entry, entryUnpack_entry, hentry, htype]
  | head p => rw [entryUnpack_head, entryUnpack_head, hentry, htype, hlist]

/-! ## What an operation writes -/

variable {s : DedupMultiIndex I O} {a p : ℕ} {f : DedupMultiHeadEntry I → DedupMultiHeadEntry I}

theorem entryOf_modifyEntry {f : DedupMultiEntry O → DedupMultiEntry O}
    (hf : ∀ e, (f e).head = e.head ∧ (f e).obj = e.obj) :
    (s.modifyEntry a f).entryOf = s.entryOf := by
  funext b
  by_cases h : b = a
  · subst h
    cases hb : s.entries b <;> simp [entryOf, modifyEntry, hb, hf]
  · simp [entryOf, modifyEntry, h]

theorem entryOf_setObj (obj : O) (b : ℕ) :
    (s.modifyEntry a fun e => { e with obj := obj }).entryOf b =
      if b = a then (s.entryOf a).map fun e => (e.1, obj) else s.entryOf b := by
  split_ifs with h
  · subst h
    simp [entryOf, modifyEntry, Function.comp_def]
  · simp [entryOf, modifyEntry, h]

theorem typeOf_modifyHead (hf : ∀ h, (f h).idxType = h.idxType)
    : (s.modifyHead p f).typeOf = s.typeOf := by
  funext q
  by_cases h : q = p
  · subst h
    cases hq : s.heads q <;> simp [typeOf, modifyHead, hq, hf]
  · simp [typeOf, modifyHead, h]

theorem listOf_modifyHead (hp : s.heads p = some h) (q : ℕ) :
    (s.modifyHead p f).listOf q = if q = p then (f h).lstEntries else s.listOf q := by
  split_ifs with hq
  · simp [listOf, modifyHead, hq, hp]
  · simp [listOf, modifyHead, hq]

theorem lenOf_modifyHead (hp : s.heads p = some h) (q : ℕ) :
    (s.modifyHead p f).lenOf q = if q = p then (f h).len else s.lenOf q := by
  split_ifs with hq
  · simp [lenOf, modifyHead, hq, hp]
  · simp [lenOf, modifyHead, hq]

theorem entryOf_freeEntry (b : ℕ) :
    (s.freeEntry a p).entryOf b = if b = a then none else s.entryOf b := by
  split_ifs with h
  · simp [entryOf, freeEntry, h]
  · simp [entryOf, freeEntry, h]

theorem typeOf_freeEntry : (s.freeEntry a p).typeOf = s.typeOf :=
  typeOf_modifyHead (f := fun h => { h with lstEntries := h.lstEntries.erase a }) fun _ => rfl

theorem listOf_freeEntry (q : ℕ) :
    (s.freeEntry a p).listOf q = if q = p then (s.listOf p).erase a else s.listOf q := by
  split_ifs with hq
  · subst hq
    cases h : s.heads q <;> simp [listOf, freeEntry, modifyHead, h]
  · simp [listOf, freeEntry, modifyHead, hq]

theorem lenOf_freeEntry : (s.freeEntry a p).lenOf = s.lenOf := by
  funext q
  by_cases hq : q = p
  · subst hq
    cases h : s.heads q <;> simp [lenOf, freeEntry, modifyHead, h]
  · simp [lenOf, freeEntry, modifyHead, hq]

section IdxTypes

variable [DecidableEq I] {t : I}

theorem lstIdxOf_modifyIdxType {f : DedupMultiIdxType → DedupMultiIdxType}
    (hf : ∀ i, (f i).lstIdx = i.lstIdx) : (s.modifyIdxType t f).lstIdxOf = s.lstIdxOf := by
  funext u
  by_cases h : u = t
  · subst h
    simp [lstIdxOf, modifyIdxType, hf]
  · simp [lstIdxOf, modifyIdxType, h]

theorem typeOf_newHead (q : ℕ) :
    (s.newHead t).typeOf q = if q = s.next then some t else s.typeOf q := by
  split_ifs with h
  · simp [typeOf, newHead, h]
  · simp [typeOf, newHead, h]

theorem listOf_newHead (q : ℕ) :
    (s.newHead t).listOf q = if q = s.next then [] else s.listOf q := by
  split_ifs with h
  · simp [listOf, newHead, h]
  · simp [listOf, newHead, h]

theorem lenOf_newHead (q : ℕ) : (s.newHead t).lenOf q = if q = s.next then 0 else s.lenOf q := by
  split_ifs with h
  · simp [lenOf, newHead, h]
  · simp [lenOf, newHead, h]

theorem lstIdxOf_newHead (u : I) :
    (s.newHead t).lstIdxOf u = if u = t then s.lstIdxOf t ++ [s.next] else s.lstIdxOf u := by
  split_ifs with h
  · simp [lstIdxOf, newHead, h]
  · simp [lstIdxOf, newHead, h]

theorem entryOf_linkNewEntry (t : I) (p : ℕ) (obj : O) (mode : DedupMultiIdxMode)
    (order : Option ℕ) (b : ℕ) :
    (s.linkNewEntry t p obj mode order).entryOf b =
      if b = s.next then some (p, obj) else s.entryOf b := by
  split_ifs with h
  · simp [entryOf, linkNewEntry, h]
  · simp [entryOf, linkNewEntry, modifyIdxType, modifyHead, h]

theorem typeOf_linkNewEntry (t : I) (p : ℕ) (obj : O) (mode : DedupMultiIdxMode)
    (order : Option ℕ) :
    (s.linkNewEntry t p obj mode order).typeOf = s.typeOf :=
  typeOf_modifyHead (f := fun h =>
    { h with len := h.len + 1, lstEntries := linkEntry mode order s.next h.lstEntries }) fun _ => rfl

theorem listOf_linkNewEntry (hp : s.heads p = some h) (t : I) (obj : O) (mode : DedupMultiIdxMode)
    (order : Option ℕ) (q : ℕ) :
    (s.linkNewEntry t p obj mode order).listOf q =
      if q = p then linkEntry mode order s.next (s.listOf p) else s.listOf q := by
  rw [listOf_of_heads hp]
  exact listOf_modifyHead hp q

theorem lenOf_linkNewEntry (hp : s.heads p = some h) (t : I) (obj : O) (mode : DedupMultiIdxMode)
    (order : Option ℕ) (q : ℕ) :
    (s.linkNewEntry t p obj mode order).lenOf q =
      if q = p then s.lenOf p + 1 else s.lenOf q := by
  rw [lenOf_of_heads hp]
  exact lenOf_modifyHead hp q

theorem lstIdxOf_linkNewEntry (t : I) (p : ℕ) (obj : O) (mode : DedupMultiIdxMode)
    (order : Option ℕ) :
    (s.linkNewEntry t p obj mode order).lstIdxOf = s.lstIdxOf :=
  lstIdxOf_modifyIdxType (s := s.modifyHead p _) (f := fun i => { i with len := i.len + 1 })
    fun _ => rfl

theorem typeOf_freeHead (q : ℕ) :
    (s.freeHead t p).typeOf q = if q = p then none else s.typeOf q := by
  split_ifs with h
  · simp [typeOf, freeHead, h]
  · simp [typeOf, freeHead, modifyIdxType, h]

theorem listOf_freeHead (q : ℕ) :
    (s.freeHead t p).listOf q = if q = p then [] else s.listOf q := by
  split_ifs with h
  · simp [listOf, freeHead, h]
  · simp [listOf, freeHead, modifyIdxType, h]

theorem lenOf_freeHead (q : ℕ) : (s.freeHead t p).lenOf q = if q = p then 0 else s.lenOf q := by
  split_ifs with h
  · simp [lenOf, freeHead, h]
  · simp [lenOf, freeHead, modifyIdxType, h]

theorem lstIdxOf_freeHead (u : I) :
    (s.freeHead t p).lstIdxOf u = if u = t then (s.lstIdxOf t).erase p else s.lstIdxOf u := by
  split_ifs with h
  · simp [lstIdxOf, freeHead, modifyIdxType, h]
  · simp [lstIdxOf, freeHead, modifyIdxType, h]

end IdxTypes

variable [DecidableEq O] (C : IdxTypes I O)

/-- The heads have the lists of their entries, each with the objects of one partition that
are told apart by their identity. -/
structure Sound (s : DedupMultiIndex I O) : Prop where
  typeOf_some : ∀ {a p o}, s.entryOf a = some (p, o) → ∃ t, s.typeOf p = some t
  mem_listOf : ∀ {a p}, a ∈ s.listOf p ↔ ∃ o, s.entryOf a = some (p, o)
  listOf_nodup : ∀ p, (s.listOf p).Nodup
  mem_lstIdx : ∀ {p t}, p ∈ s.lstIdxOf t ↔ s.typeOf p = some t
  lstIdx_nodup : ∀ t, (s.lstIdxOf t).Nodup
  fresh_entry : ∀ {a}, s.next ≤ a → s.entryOf a = none
  fresh_head : ∀ {p}, s.next ≤ p → s.typeOf p = none
  partition_iff : ∀ {a b p q o o' t}, s.entryOf a = some (p, o) → s.entryOf b = some (q, o') →
    s.typeOf p = some t → s.typeOf q = some t → (p = q ↔ (C.klass t).typePartitionEqual o o')
  id_unique : ∀ {a b p o o' t}, s.entryOf a = some (p, o) → s.entryOf b = some (p, o') →
    s.typeOf p = some t → (C.klass t).typeIdEqual o o' → a = b

/-! ## Sound memory stays sound -/

variable {C} {t : I} {obj : O}

theorem Sound.congr {r : DedupMultiIndex I O} (hs : Sound C s) (hentry : r.entryOf = s.entryOf)
    (htype : r.typeOf = s.typeOf) (hlist : ∀ p, (r.listOf p).Perm (s.listOf p))
    (hidx : r.lstIdxOf = s.lstIdxOf) (hnext : r.next = s.next) : Sound C r where
  typeOf_some h := by
    rw [hentry] at h
    rw [htype]
    exact hs.typeOf_some h
  mem_listOf := by
    rw [hentry]
    exact (hlist _).mem_iff.trans hs.mem_listOf
  listOf_nodup p := (hlist p).nodup_iff.mpr (hs.listOf_nodup p)
  mem_lstIdx := by
    rw [hidx, htype]
    exact hs.mem_lstIdx
  lstIdx_nodup t := by
    rw [hidx]
    exact hs.lstIdx_nodup t
  fresh_entry h := by
    rw [hentry]
    exact hs.fresh_entry (hnext ▸ h)
  fresh_head h := by
    rw [htype]
    exact hs.fresh_head (hnext ▸ h)
  partition_iff := by
    rw [hentry, htype]
    exact hs.partition_iff
  id_unique := by
    rw [hentry, htype]
    exact hs.id_unique

theorem Sound.ne_next_of_entry (hs : Sound C s) {e : ℕ × O} (h : s.entryOf a = some e) :
    a ≠ s.next := by
  rintro rfl
  simp [hs.fresh_entry (Nat.le_refl _)] at h

theorem Sound.ne_next_of_head (hs : Sound C s) (h : s.typeOf p = some t) : p ≠ s.next := by
  rintro rfl
  simp [hs.fresh_head (Nat.le_refl _)] at h

/-- Replace the object of an entry by one that is at the same place in the index. -/
theorem Sound.setObj (hs : Sound C s) (hC : C.Lawful) (ha : s.entryOf a = some (p, o))
    (hp : s.typeOf p = some t) (hpart : (C.klass t).typePartitionEqual o obj)
    (hid : (C.klass t).typeIdEqual o obj) :
    Sound C (s.modifyEntry a fun e => { e with obj := obj }) := by
  have hback {b q : ℕ} {o' : O} {u : I}
      (hb : (s.modifyEntry a fun e => { e with obj := obj }).entryOf b = some (q, o'))
      (hq : s.typeOf q = some u) : ∃ o'', s.entryOf b = some (q, o'') ∧
        (C.klass u).typePartitionEqual o'' o' ∧ (C.klass u).typeIdEqual o'' o' := by
    rw [entryOf_setObj] at hb
    split_ifs at hb with h
    · subst h
      simp only [ha, Option.map_some, Option.some.injEq, Prod.mk.injEq] at hb
      obtain ⟨rfl, rfl⟩ := hb
      obtain rfl : t = u := Option.some.inj (hp.symm.trans hq)
      exact ⟨o, ha, hpart, hid⟩
    · exact ⟨o', hb, (C.klass u).typePartitionEqual_self o', (C.klass u).typeIdEqual_self o'⟩
  have hhead (b q : ℕ) : (∃ o', (s.modifyEntry a fun e => { e with obj := obj }).entryOf b =
      some (q, o')) ↔ ∃ o', s.entryOf b = some (q, o') := by
    rw [entryOf_setObj]
    split_ifs with h
    · subst h
      simp [ha]
    · rfl
  refine ⟨fun h => ?_, ?_, hs.listOf_nodup, hs.mem_lstIdx, hs.lstIdx_nodup, fun h => ?_,
    hs.fresh_head, ?_, ?_⟩
  · obtain ⟨o', ho'⟩ := (hhead _ _).mp ⟨_, h⟩
    exact hs.typeOf_some ho'
  · exact hs.mem_listOf.trans (hhead _ _).symm
  · rw [entryOf_setObj, if_neg (fun he => ?_)]
    · exact hs.fresh_entry h
    · simp [he ▸ hs.fresh_entry h] at ha
  · intro b c q r o₁ o₂ u hb hc hq hr
    obtain ⟨o₁', hb', hpart₁, -⟩ := hback hb hq
    obtain ⟨o₂', hc', hpart₂, -⟩ := hback hc hr
    rw [hs.partition_iff hb' hc' hq hr]
    constructor
    · exact fun h => (hC u).partition_trans ((hC u).partition_symm hpart₁)
        ((hC u).partition_trans h hpart₂)
    · exact fun h => (hC u).partition_trans hpart₁
        ((hC u).partition_trans h ((hC u).partition_symm hpart₂))
  · intro b c q o₁ o₂ u hb hc hq h
    obtain ⟨o₁', hb', -, hid₁⟩ := hback hb hq
    obtain ⟨o₂', hc', -, hid₂⟩ := hback hc hq
    exact hs.id_unique hb' hc' hq
      ((hC u).id_trans hid₁ ((hC u).id_trans h ((hC u).id_symm hid₂)))

variable [DecidableEq I] {order : Option ℕ} {l : List ℕ}

theorem Sound.newHead (hs : Sound C s) (t : I) : Sound C (s.newHead t) := by
  have hentry : (s.newHead t).entryOf = s.entryOf := rfl
  have hne {b q : ℕ} {o : O} (h : s.entryOf b = some (q, o)) : q ≠ s.next := by
    obtain ⟨u, hu⟩ := hs.typeOf_some h
    exact hs.ne_next_of_head hu
  refine ⟨fun {b q o} h => ?_, fun {b q} => ?_, fun q => ?_, fun {q u} => ?_, fun u => ?_,
    fun {b} h => ?_, fun {q} h => ?_, ?_, ?_⟩
  · rw [hentry] at h
    rw [typeOf_newHead, if_neg (hne h)]
    exact hs.typeOf_some h
  · rw [hentry, listOf_newHead]
    split_ifs with h
    · subst h
      simp only [List.not_mem_nil, false_iff, not_exists]
      exact fun o ho => hne ho rfl
    · exact hs.mem_listOf
  · rw [listOf_newHead]
    split_ifs
    · exact List.nodup_nil
    · exact hs.listOf_nodup q
  · rw [lstIdxOf_newHead, typeOf_newHead]
    have hfresh : s.next ∉ s.lstIdxOf u := fun h => hs.ne_next_of_head (hs.mem_lstIdx.mp h) rfl
    by_cases hu : u = t
    · subst hu
      by_cases hq : q = s.next
      · simp [hq]
      · simp [hq, hs.mem_lstIdx]
    · by_cases hq : q = s.next
      · simp [hq, hu, hfresh, Ne.symm hu]
      · simp [hq, hu, hs.mem_lstIdx]
  · rw [lstIdxOf_newHead]
    split_ifs
    · rw [List.nodup_append]
      refine ⟨hs.lstIdx_nodup t, List.nodup_singleton _, ?_⟩
      intro q hq r hr
      rw [List.mem_singleton.mp hr]
      exact hs.ne_next_of_head (hs.mem_lstIdx.mp hq)
    · exact hs.lstIdx_nodup u
  · exact hs.fresh_entry (Nat.le_of_succ_le h)
  · have hlt : s.next < q := h
    rw [typeOf_newHead, if_neg (by omega)]
    exact hs.fresh_head (Nat.le_of_lt hlt)
  · intro b c q r o o' u hb hc hq hr
    rw [hentry] at hb hc
    rw [typeOf_newHead, if_neg (hne hb)] at hq
    rw [typeOf_newHead, if_neg (hne hc)] at hr
    exact hs.partition_iff hb hc hq hr
  · intro b c q o o' u hb hc hq
    rw [hentry] at hb hc
    rw [typeOf_newHead, if_neg (hne hb)] at hq
    exact hs.id_unique hb hc hq

theorem linkEntry_perm (mode : DedupMultiIdxMode) (hl : l.Nodup) (horder : ∀ b ∈ order, b ∈ l)
    : (linkEntry mode order a l).Perm (a :: l) := by
  cases order with
  | none => cases mode <;> first | exact List.Perm.refl _ | exact List.perm_append_singleton a l
  | some b =>
    have hb : b ∈ l := horder b rfl
    cases mode <;> first | exact linkBefore_perm hl hb | exact linkAfter_perm hl hb

theorem moveEntry_perm (mode : DedupMultiIdxMode) (hl : l.Nodup) (ha : a ∈ l)
    (horder : ∀ b ∈ order, b ∈ l) : (moveEntry mode order a l).Perm l := by
  cases order with
  | none =>
    cases mode <;> first
      | exact List.Perm.refl _ | exact moveFront_perm ha | exact moveTail_perm ha
  | some b =>
    have hb : b ∈ l := horder b rfl
    cases mode <;> first
      | exact List.Perm.refl _ | exact moveBefore_perm hl ha hb | exact moveAfter_perm hl ha hb

/-- Link an entry to the head of its partition, which has no entry with its identity. -/
theorem Sound.linkNewEntry (hs : Sound C s) (hC : C.Lawful) {mode : DedupMultiIdxMode}
    (hp : s.typeOf p = some t) (horder : ∀ b ∈ order, b ∈ s.listOf p)
    (hpart : ∀ {b q o}, s.entryOf b = some (q, o) → s.typeOf q = some t → (q = p ↔ (C.klass t).typePartitionEqual o obj))
    (hid : ∀ {b o}, s.entryOf b = some (p, o) → ¬ (C.klass t).typeIdEqual o obj) :
    Sound C (s.linkNewEntry t p obj mode order) := by
  obtain ⟨h, hh, -⟩ := typeOf_eq_some.mp hp
  have hlink := linkEntry_perm (a := s.next) mode (hs.listOf_nodup p) horder
  have hnext : s.next ∉ s.listOf p := fun hmem => by
    obtain ⟨o, ho⟩ := hs.mem_listOf.mp hmem
    exact hs.ne_next_of_entry ho rfl
  have hlist (q : ℕ) : ((s.linkNewEntry t p obj mode order).listOf q).Perm
      (if q = p then s.next :: s.listOf p else s.listOf q) := by
    rw [listOf_linkNewEntry hh]
    split_ifs
    · exact hlink
    · exact List.Perm.refl _
  refine ⟨fun {b q o} hb => ?_, fun {b q} => ?_, fun q => ?_, fun {q u} => ?_, fun u => ?_,
    fun {b} hb => ?_, fun {q} hq => ?_, ?_, ?_⟩
  · rw [typeOf_linkNewEntry]
    rw [entryOf_linkNewEntry] at hb
    split_ifs at hb with hne
    · obtain ⟨rfl, rfl⟩ := Prod.mk.inj (Option.some.inj hb)
      exact ⟨t, hp⟩
    · exact hs.typeOf_some hb
  · rw [(hlist q).mem_iff, entryOf_linkNewEntry]
    by_cases hq : q = p
    · subst hq
      by_cases hb : b = s.next
      · simp [hb]
      · simp [hb, hs.mem_listOf]
    · by_cases hb : b = s.next
      · subst hb
        simp [hq, Ne.symm hq, hs.mem_listOf, hs.fresh_entry]
      · simp [hq, hb, hs.mem_listOf]
  · rw [(hlist q).nodup_iff]
    split_ifs
    · exact List.nodup_cons.mpr ⟨hnext, hs.listOf_nodup p⟩
    · exact hs.listOf_nodup q
  · rw [lstIdxOf_linkNewEntry, typeOf_linkNewEntry]
    exact hs.mem_lstIdx
  · rw [lstIdxOf_linkNewEntry]
    exact hs.lstIdx_nodup u
  · have hlt : s.next < b := hb
    rw [entryOf_linkNewEntry, if_neg (by omega)]
    exact hs.fresh_entry (Nat.le_of_lt hlt)
  · rw [typeOf_linkNewEntry]
    exact hs.fresh_head (Nat.le_of_succ_le hq)
  · intro b c q r o o' u hb hc hq hr
    rw [typeOf_linkNewEntry] at hq hr
    rw [entryOf_linkNewEntry] at hb hc
    split_ifs at hb hc with hb' hc' hc'
    · obtain ⟨rfl, rfl⟩ := Prod.mk.inj (Option.some.inj hb)
      obtain ⟨rfl, rfl⟩ := Prod.mk.inj (Option.some.inj hc)
      simp [(C.klass u).typePartitionEqual_self]
    · obtain ⟨rfl, rfl⟩ := Prod.mk.inj (Option.some.inj hb)
      obtain rfl : t = u := Option.some.inj (hp.symm.trans hq)
      rw [eq_comm, hpart hc hr]
      exact ⟨(hC t).partition_symm, (hC t).partition_symm⟩
    · obtain ⟨rfl, rfl⟩ := Prod.mk.inj (Option.some.inj hc)
      obtain rfl : t = u := Option.some.inj (hp.symm.trans hr)
      exact hpart hb hq
    · exact hs.partition_iff hb hc hq hr
  · intro b c q o o' u hb hc hq heq
    rw [typeOf_linkNewEntry] at hq
    rw [entryOf_linkNewEntry] at hb hc
    split_ifs at hb hc with hb' hc' hc'
    · exact hb'.trans hc'.symm
    · obtain ⟨rfl, rfl⟩ := Prod.mk.inj (Option.some.inj hb)
      obtain rfl : t = u := Option.some.inj (hp.symm.trans hq)
      exact absurd ((hC t).id_symm heq) (hid hc)
    · obtain ⟨rfl, rfl⟩ := Prod.mk.inj (Option.some.inj hc)
      obtain rfl : t = u := Option.some.inj (hp.symm.trans hq)
      exact absurd heq (hid hb)
    · exact hs.id_unique hb hc hq heq

omit [DecidableEq I] in
theorem Sound.freeEntry (hs : Sound C s) (ha : s.entryOf a = some (p, o)) :
    Sound C (s.freeEntry a p) := by
  have hback {b : ℕ} {e : ℕ × O} (hb : (s.freeEntry a p).entryOf b = some e) :
      s.entryOf b = some e := by
    rw [entryOf_freeEntry] at hb
    split_ifs at hb
    exact hb
  refine ⟨fun h => ?_, fun {b q} => ?_, fun q => ?_, ?_, hs.lstIdx_nodup, fun {b} h => ?_, ?_, ?_, ?_⟩
  · rw [typeOf_freeEntry]
    exact hs.typeOf_some (hback h)
  · rw [listOf_freeEntry, entryOf_freeEntry]
    by_cases hb : b = a
    · subst hb
      by_cases hq : q = p
      · simp [hq, (hs.listOf_nodup p).mem_erase_iff]
      · simp [hq, Ne.symm hq, hs.mem_listOf, ha]
    · by_cases hq : q = p
      · subst hq
        simp [hb, (hs.listOf_nodup q).mem_erase_iff, hs.mem_listOf]
      · simp [hq, hb, hs.mem_listOf]
  · rw [listOf_freeEntry]
    split_ifs
    · exact (hs.listOf_nodup p).erase a
    · exact hs.listOf_nodup q
  · rw [typeOf_freeEntry]
    exact hs.mem_lstIdx
  · rw [entryOf_freeEntry]
    split_ifs
    · rfl
    · exact hs.fresh_entry h
  · rw [typeOf_freeEntry]
    exact hs.fresh_head
  · intro b c q r o o' u hb hc
    rw [typeOf_freeEntry]
    exact hs.partition_iff (hback hb) (hback hc)
  · intro b c q o o' u hb hc
    rw [typeOf_freeEntry]
    exact hs.id_unique (hback hb) (hback hc)

theorem Sound.freeHead (hs : Sound C s) (hp : s.typeOf p = some t) (hlist : s.listOf p = []) :
    Sound C (s.freeHead t p) := by
  have hentry : (s.freeHead t p).entryOf = s.entryOf := rfl
  have hne {b q : ℕ} {o : O} (h : s.entryOf b = some (q, o)) : q ≠ p := by
    rintro rfl
    simpa [hlist] using hs.mem_listOf.mpr ⟨o, h⟩
  refine ⟨fun {b q o} h => ?_, fun {b q} => ?_, fun q => ?_, fun {q u} => ?_, fun u => ?_,
    hs.fresh_entry, fun {q} h => ?_, ?_, ?_⟩
  · rw [hentry] at h
    rw [typeOf_freeHead, if_neg (hne h)]
    exact hs.typeOf_some h
  · rw [hentry, listOf_freeHead]
    split_ifs with h
    · subst h
      rw [← hs.mem_listOf, hlist]
    · exact hs.mem_listOf
  · rw [listOf_freeHead]
    split_ifs
    · exact List.nodup_nil
    · exact hs.listOf_nodup q
  · rw [lstIdxOf_freeHead, typeOf_freeHead]
    by_cases hq : q = p
    · subst hq
      by_cases hu : u = t
      · simp [hu, (hs.lstIdx_nodup t).mem_erase_iff]
      · simp [hu, Ne.symm hu, hs.mem_lstIdx, hp]
    · by_cases hu : u = t
      · subst hu
        simp [hq, (hs.lstIdx_nodup u).mem_erase_iff, hs.mem_lstIdx]
      · simp [hu, hq, hs.mem_lstIdx]
  · rw [lstIdxOf_freeHead]
    split_ifs
    · exact (hs.lstIdx_nodup t).erase p
    · exact hs.lstIdx_nodup u
  · rw [typeOf_freeHead]
    split_ifs
    · rfl
    · exact hs.fresh_head h
  · intro b c q r o o' u hb hc hq hr
    rw [typeOf_freeHead, if_neg (hne hb)] at hq
    rw [typeOf_freeHead, if_neg (hne hc)] at hr
    exact hs.partition_iff hb hc hq hr
  · intro b c q o o' u hb hc hq
    rw [typeOf_freeHead, if_neg (hne hb)] at hq
    exact hs.id_unique hb hc hq

end DedupMultiIndex

end NetworkManager.GlibAux
