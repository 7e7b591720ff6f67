import NetworkManager.GlibAux.DedupMultiAdd

/-!
# Removing from a multi-index

Removing an entry keeps the index consistent, also when its head goes with it. Only the
`len` of the index type is then one too large, so that this and the number of heads grow
and shrink together.
-/

namespace NetworkManager.GlibAux

open Lib List

namespace DedupMultiIndex

variable {I O : Type}

/-- The entries with `gone` are removed, and heads may be. -/
structure Shrunk (s s' : DedupMultiIndex I O) (gone : ℕ → Prop) : Prop where
  entryOf_gone : ∀ {b}, gone b → s'.entryOf b = none
  entryOf_kept : ∀ {b}, ¬ gone b → s'.entryOf b = s.entryOf b
  typeOf_of : ∀ {q t}, s'.typeOf q = some t → s.typeOf q = some t

/-- Every head that is removed leaves the `len` of its index type one too large. -/
def CountsHeads (s s' : DedupMultiIndex I O) : Prop :=
  ∀ g, Counted s g → ∃ g', Counted s' g' ∧
    ∀ t, g' t + (s'.lstIdxOf t).length = g t + (s.lstIdxOf t).length

theorem CountsHeads.refl (s : DedupMultiIndex I O) : CountsHeads s s :=
  fun g hg => ⟨g, hg, fun _ => rfl⟩

theorem CountsHeads.trans {s s' s'' : DedupMultiIndex I O} (h : CountsHeads s s')
    (h' : CountsHeads s' s'') : CountsHeads s s'' := by
  intro g hg
  obtain ⟨g', hg', hlen⟩ := h g hg
  obtain ⟨g'', hg'', hlen'⟩ := h' g' hg'
  exact ⟨g'', hg'', fun t => (hlen' t).trans (hlen t)⟩

variable [DecidableEq I] [DecidableEq O] {C : IdxTypes I O} {s s' : DedupMultiIndex I O} {a p : ℕ}
  {t : I} {o : O}

/-! ## One entry -/

/-- `_remove_entry()` has counted down, but not unlinked anything. -/
def countedDown (s : DedupMultiIndex I O) (t : I) (p : ℕ) (last : Bool) : DedupMultiIndex I O :=
  let s := s.modifyHead p fun h => { h with len := h.len - 1 }
  if last then s else s.modifyIdxType t fun i => { i with len := i.len - 1 }

theorem removeEntry_eq (ha : s.entryOf a = some (p, o)) (hp : s.typeOf p = some t) :
    s.removeEntry C a =
      if 1 < s.lenOf p then
        (((s.countedDown t p false).tableDelete C (.entry a)).freeEntry a p, false)
      else
        (((((s.countedDown t p true).tableDelete C (.entry a)).tableDelete C
          (.head p)).freeEntry a p).freeHead t p, true) := by
  obtain ⟨e, he, rfl, rfl⟩ := entryOf_eq_some.mp ha
  obtain ⟨h, hh, rfl⟩ := typeOf_eq_some.mp hp
  unfold removeEntry
  simp only [he, hh, lenOf_of_heads hh, countedDown, Bool.false_eq_true, if_false, if_true]
  have hlen : h.len - 1 > 0 ↔ 1 < h.len := by omega
  simp only [hlen]

omit [DecidableEq O] in
theorem countedDown_eq (s : DedupMultiIndex I O) (t : I) (p : ℕ) (last : Bool) :
    (s.countedDown t p last).entries = s.entries ∧
      (s.countedDown t p last).typeOf = s.typeOf ∧
      (s.countedDown t p last).listOf = s.listOf ∧
      (s.countedDown t p last).lstIdxOf = s.lstIdxOf ∧
      (s.countedDown t p last).next = s.next ∧
      (s.countedDown t p last).idxEntries = s.idxEntries := by
  have htype : (s.modifyHead p fun h => { h with len := h.len - 1 }).typeOf = s.typeOf :=
    typeOf_modifyHead fun _ => rfl
  have hlist : (s.modifyHead p fun h => { h with len := h.len - 1 }).listOf = s.listOf := by
    funext q
    by_cases hq : q = p
    · subst hq
      cases hh : s.heads q <;> simp [listOf, modifyHead, hh]
    · simp [listOf, modifyHead, hq]
  cases last with
  | true => exact ⟨rfl, htype, hlist, rfl, rfl, rfl⟩
  | false =>
    refine ⟨rfl, htype, hlist, ?_, rfl, rfl⟩
    exact lstIdxOf_modifyIdxType (f := fun i => { i with len := i.len - 1 }) fun _ => rfl

omit [DecidableEq O] in
theorem lenOf_countedDown (s : DedupMultiIndex I O) (t : I) (p : ℕ) (last : Bool) (q : ℕ) :
    (s.countedDown t p last).lenOf q = if q = p then s.lenOf p - 1 else s.lenOf q := by
  have hlen : (s.countedDown t p last).lenOf q =
      (s.modifyHead p fun h => { h with len := h.len - 1 }).lenOf q := by
    cases last <;> rfl
  rw [hlen]
  split_ifs with hq
  · subst hq
    cases hh : s.heads q <;> simp [lenOf, modifyHead, hh]
  · simp [lenOf, modifyHead, hq]

theorem Consistent.countedDown (hs : Consistent C s) (t : I) (p : ℕ) (last : Bool) :
    Sound C (s.countedDown t p last) ∧
      Faithful (s.countedDown t p last).entryUnpack (dictIdxEntriesHash C) s.Allocated
        (s.countedDown t p last).idxEntries := by
  obtain ⟨hentries, htype, hlist, hidx, hnext, htbl⟩ := s.countedDown_eq t p last
  have hentry : (s.countedDown t p last).entryOf = s.entryOf := by
    funext b
    rw [entryOf, entryOf, hentries]
  refine ⟨hs.toSound.congr hentry htype (fun q => ?_) hidx hnext, ?_⟩
  · rw [hlist]
  · rw [entryUnpack_congr hentry htype hlist, htbl]
    exact hs.table

omit [DecidableEq I] in
theorem Consistent.exists_other_entry (hs : Consistent C s) (hlen : 1 < s.lenOf p) (a : ℕ) :
    ∃ b o, b ≠ a ∧ s.entryOf b = some (p, o) := by
  have hne : (s.listOf p).erase a ≠ [] := by
    intro hnil
    have hle : (s.listOf p).length - 1 ≤ ((s.listOf p).erase a).length := by
      rw [length_erase]
      split_ifs <;> omega
    rw [hs.lenOf_eq] at hlen
    rw [hnil, length_nil] at hle
    omega
  obtain ⟨b, l, hl⟩ := exists_cons_of_ne_nil hne
  have hb : b ∈ (s.listOf p).erase a := hl ▸ mem_cons_self
  obtain ⟨hba, hmem⟩ := (hs.listOf_nodup p).mem_erase_iff.mp hb
  obtain ⟨o, ho⟩ := hs.mem_listOf.mp hmem
  exact ⟨b, o, hba, ho⟩

/-- The entry is unlinked, its head stays. -/
theorem Consistent.removeEntry_of_lt (hs : Consistent C s) (hC : C.Lawful)
    (ha : s.entryOf a = some (p, o)) (hp : s.typeOf p = some t) (hlen : 1 < s.lenOf p) :
    Consistent C (((s.countedDown t p false).tableDelete C (.entry a)).freeEntry a p) := by
  obtain ⟨hentries, htype, hlist, hidx, hnext, htbl⟩ := s.countedDown_eq t p false
  obtain ⟨hsound, htable⟩ := hs.countedDown t p false
  generalize hs₁ : s.countedDown t p false = s₁ at *
  have hentry : s₁.entryOf = s.entryOf := funext fun b => by rw [entryOf, entryOf, hentries]
  have ha₁ : s₁.entryOf a = some (p, o) := hentry ▸ ha
  have hp₁ : s₁.typeOf p = some t := htype ▸ hp
  have hdelete := hsound.faithful_remove hC htable (entryUnpack_of_entryOf ha₁ hp₁)
    (by simp [Allocated, ha])
  have hsound₂ : Sound C (s₁.tableDelete C (.entry a)) :=
    hsound.congr rfl rfl (fun _ => List.Perm.refl _) rfl rfl
  have hfree : Sound C ((s₁.tableDelete C (.entry a)).freeEntry a p) := hsound₂.freeEntry ha₁
  have hentry' (b : ℕ) : ((s₁.tableDelete C (.entry a)).freeEntry a p).entryOf b =
      if b = a then none else s.entryOf b := by
    rw [entryOf_freeEntry, ← hentry]
    rfl
  have htype' : ((s₁.tableDelete C (.entry a)).freeEntry a p).typeOf = s.typeOf := by
    rw [typeOf_freeEntry, ← htype]
    rfl
  have hstay {b q : ℕ} {o' : O} (hb : s.entryOf b = some (q, o')) (hba : b ≠ a) :
      StaysAt C s₁ ((s₁.tableDelete C (.entry a)).freeEntry a p) b q := by
    obtain ⟨u, hu⟩ := hs.typeOf_some hb
    refine staysAt_of_entryOf_eq (hentry ▸ hb) ?_ (htype ▸ hu) (htype' ▸ hu)
    rw [hentry', if_neg hba, hb]
  have hother {q : ℕ} {u : I} (hq : s.typeOf q = some u) :
      ∃ b o', b ≠ a ∧ s.entryOf b = some (q, o') := by
    by_cases hqp : q = p
    · subst hqp
      exact hs.exists_other_entry hlen a
    · obtain ⟨b, o', hb⟩ := hs.exists_entry hq
      refine ⟨b, o', ?_, hb⟩
      rintro rfl
      exact hqp (Prod.mk.inj (Option.some.inj (hb.symm.trans ha))).1
  have htable' := hsound.faithful_congr hfree hC hdelete
    (fun b hb => by
      obtain ⟨⟨q, o'⟩, hq⟩ := Option.isSome_iff_exists.mp hb.1
      exact ⟨q, hstay hq fun h => hb.2 (congrArg _ h)⟩)
    (fun q hq => by
      obtain ⟨u, hu⟩ := Option.isSome_iff_exists.mp hq.1
      obtain ⟨b, o', hba, hb⟩ := hother hu
      exact ⟨b, hstay hb hba⟩)
  refine ⟨hfree, fun {q u} hq hnil => ?_, fun q => ?_, htable'.congr (fun k => ?_) ?_⟩
  · rw [htype'] at hq
    obtain ⟨b, o', hba, hb⟩ := hother hq
    have hmem := hfree.mem_listOf.mpr ⟨o', (hentry' b).trans ((if_neg hba).trans hb)⟩
    rw [hnil] at hmem
    exact not_mem_nil hmem
  · have hlenq : ((s₁.tableDelete C (.entry a)).freeEntry a p).lenOf q = s₁.lenOf q :=
      congrFun lenOf_freeEntry q
    have hlistq : ((s₁.tableDelete C (.entry a)).freeEntry a p).listOf q =
        if q = p then (s₁.listOf p).erase a else s₁.listOf q := listOf_freeEntry q
    rw [hlenq, hlistq, ← hs₁, lenOf_countedDown, hs₁, hlist]
    split_ifs with hqp
    · rw [length_erase_of_mem (hs.mem_listOf.mpr ⟨o, ha⟩), hs.lenOf_eq]
    · exact hs.lenOf_eq q
  · cases k with
    | entry b =>
      simp only [Allocated, hentry']
      by_cases hb : b = a <;> simp [hb]
    | head q => simp [Allocated, htype']
  · exact fun k u _ hu => ⟨u, hu, rfl⟩

/-- The entry is unlinked, and so is its head. -/
theorem Consistent.removeEntry_of_le (hs : Consistent C s) (hC : C.Lawful)
    (ha : s.entryOf a = some (p, o)) (hp : s.typeOf p = some t) (hlen : ¬ 1 < s.lenOf p) :
    Consistent C (((((s.countedDown t p true).tableDelete C (.entry a)).tableDelete C
      (.head p)).freeEntry a p).freeHead t p) := by
  obtain ⟨hentries, htype, hlist, hidx, hnext, htbl⟩ := s.countedDown_eq t p true
  obtain ⟨hsound, htable⟩ := hs.countedDown t p true
  generalize hs₁ : s.countedDown t p true = s₁ at *
  have hentry : s₁.entryOf = s.entryOf := funext fun b => by rw [entryOf, entryOf, hentries]
  have ha₁ : s₁.entryOf a = some (p, o) := hentry ▸ ha
  have hp₁ : s₁.typeOf p = some t := htype ▸ hp
  have hsingle : s.listOf p = [a] := by
    have hmem : a ∈ s.listOf p := hs.mem_listOf.mpr ⟨o, ha⟩
    rw [hs.lenOf_eq] at hlen
    cases hl : s.listOf p with
    | nil => simp [hl] at hmem
    | cons b l =>
      cases l with
      | nil =>
        rw [hl, mem_singleton] at hmem
        rw [hmem]
      | cons c l =>
        rw [hl] at hlen
        simp at hlen
  obtain ⟨first, hfirst, -⟩ := hsound.entryUnpack_of_typeOf ha₁ hp₁
  have hsound₂ : Sound C (s₁.tableDelete C (.entry a)) :=
    hsound.congr rfl rfl (fun _ => List.Perm.refl _) rfl rfl
  have hsound₃ : Sound C ((s₁.tableDelete C (.entry a)).tableDelete C (.head p)) :=
    hsound.congr rfl rfl (fun _ => List.Perm.refl _) rfl rfl
  have hdelete := hsound.faithful_remove hC htable (entryUnpack_of_entryOf ha₁ hp₁)
    (by simp [Allocated, ha])
  have hfirst' : (s₁.tableDelete C (.entry a)).entryUnpack (.head p) = some ⟨t, first, true⟩ := hfirst
  have hdelete' := hsound₂.faithful_remove hC hdelete hfirst' (by simp [Allocated, hp])
  have hfree := hsound₃.freeEntry ha₁
  have hlistp : (((s₁.tableDelete C (.entry a)).tableDelete C (.head p)).freeEntry a p).listOf p =
      [] := by
    refine (listOf_freeEntry p).trans ?_
    rw [if_pos rfl]
    change (s₁.listOf p).erase a = []
    rw [hlist, hsingle, erase_cons_head]
  have htypep : (((s₁.tableDelete C (.entry a)).tableDelete C (.head p)).freeEntry a p).typeOf p =
      some t := by
    rw [typeOf_freeEntry]
    exact hp₁
  have hfreeHead := hfree.freeHead htypep hlistp
  generalize hs₅ : (((s₁.tableDelete C (.entry a)).tableDelete C (.head p)).freeEntry a p).freeHead
    t p = s₅ at *
  have hentry' (b : ℕ) : s₅.entryOf b = if b = a then none else s.entryOf b := by
    rw [← hs₅, ← hentry]
    exact entryOf_freeEntry (s := (s₁.tableDelete C (.entry a)).tableDelete C (.head p)) (p := p) b
  have htype' (q : ℕ) : s₅.typeOf q = if q = p then none else s.typeOf q := by
    rw [← hs₅, typeOf_freeHead, typeOf_freeEntry, ← htype]
    rfl
  have hne {b q : ℕ} {o' : O} (hb : s.entryOf b = some (q, o')) (hba : b ≠ a) : q ≠ p := by
    rintro rfl
    have hmem := hs.mem_listOf.mpr ⟨o', hb⟩
    rw [hsingle, mem_singleton] at hmem
    exact hba hmem
  have hstay {b q : ℕ} {o' : O} (hb : s.entryOf b = some (q, o')) (hba : b ≠ a) :
      StaysAt C s₁ s₅ b q := by
    obtain ⟨u, hu⟩ := hs.typeOf_some hb
    refine staysAt_of_entryOf_eq (hentry ▸ hb) ?_ (htype ▸ hu) ?_
    · rw [hentry', if_neg hba, hb]
    · rw [htype', if_neg (hne hb hba), hu]
  have hother {q : ℕ} {u : I} (hq : s.typeOf q = some u) (hqp : q ≠ p) :
      ∃ b o', b ≠ a ∧ s.entryOf b = some (q, o') := by
    obtain ⟨b, o', hb⟩ := hs.exists_entry hq
    refine ⟨b, o', ?_, hb⟩
    rintro rfl
    exact hqp (Prod.mk.inj (Option.some.inj (hb.symm.trans ha))).1
  have htable' := hsound.faithful_congr hfreeHead hC hdelete'
    (fun b hb => by
      obtain ⟨⟨q, o'⟩, hq⟩ := Option.isSome_iff_exists.mp hb.1.1
      exact ⟨q, hstay hq fun h => hb.1.2 (congrArg _ h)⟩)
    (fun q hq => by
      obtain ⟨u, hu⟩ := Option.isSome_iff_exists.mp hq.1.1
      obtain ⟨b, o', hba, hb⟩ := hother hu fun h => hq.2 (congrArg _ h)
      exact ⟨b, hstay hb hba⟩)
  have hidxEntries : s₅.idxEntries =
      ((s₁.tableDelete C (.entry a)).tableDelete C (.head p)).idxEntries := by
    rw [← hs₅]
    rfl
  rw [← hidxEntries] at htable'
  refine ⟨hfreeHead, fun {q u} hq hnil => ?_, fun q => ?_, htable'.congr (fun k => ?_) ?_⟩
  · rw [htype'] at hq
    split_ifs at hq with hqp
    obtain ⟨b, o', hba, hb⟩ := hother hq hqp
    have hmem := hfreeHead.mem_listOf.mpr ⟨o', (hentry' b).trans ((if_neg hba).trans hb)⟩
    rw [hnil] at hmem
    exact not_mem_nil hmem
  · rw [← hs₅, lenOf_freeHead, listOf_freeHead, lenOf_freeEntry, listOf_freeEntry]
    split_ifs with hqp
    · rfl
    · change s₁.lenOf q = (s₁.listOf q).length
      rw [hlist, ← hs₁, lenOf_countedDown, if_neg hqp, hs.lenOf_eq]
  · cases k with
    | entry b =>
      simp only [Allocated, hentry']
      by_cases hb : b = a <;> simp [hb]
    | head q =>
      simp only [Allocated, htype']
      by_cases hq : q = p <;> simp [hq]
  · exact fun k u _ hu => ⟨u, hu, rfl⟩

theorem removeEntry_of_none (ha : s.entryOf a = none) : s.removeEntry C a = (s, false) := by
  have hnone : s.entries a = none := by
    cases h : s.entries a <;> simp [entryOf, h] at ha ⊢
  simp only [removeEntry, hnone]

theorem Consistent.removeEntry (hs : Consistent C s) (hC : C.Lawful) (a : ℕ) :
    Consistent C (s.removeEntry C a).1 := by
  cases ha : s.entryOf a with
  | none =>
    rw [removeEntry_of_none ha]
    exact hs
  | some e =>
    obtain ⟨p, o⟩ := e
    obtain ⟨t, hp⟩ := hs.typeOf_some ha
    rw [removeEntry_eq ha hp]
    split_ifs with hlen
    · exact hs.removeEntry_of_lt hC ha hp hlen
    · exact hs.removeEntry_of_le hC ha hp hlen

theorem Consistent.entries_removeEntry (hs : Consistent C s) (a b : ℕ) :
    (s.removeEntry C a).1.entries b = if b = a then none else s.entries b := by
  cases ha : s.entryOf a with
  | none =>
    rw [removeEntry_of_none ha]
    split_ifs with hb
    · subst hb
      cases h : s.entries b <;> simp [entryOf, h] at ha ⊢
    · rfl
  | some e =>
    obtain ⟨p, o⟩ := e
    obtain ⟨t, hp⟩ := hs.typeOf_some ha
    rw [removeEntry_eq ha hp]
    split_ifs with hlen hb hb
    · simp [freeEntry, hb]
    · simp [freeEntry, tableDelete, hb, (s.countedDown_eq t p false).1, modifyHead]
    · simp [freeEntry, freeHead, modifyIdxType, hb]
    · simp [freeEntry, freeHead, modifyIdxType, tableDelete, hb, (s.countedDown_eq t p true).1,
        modifyHead]

theorem Consistent.typeOf_of_removeEntry (hs : Consistent C s) {q : ℕ}
    (hq : (s.removeEntry C a).1.typeOf q = some t) : s.typeOf q = some t := by
  cases ha : s.entryOf a with
  | none =>
    rw [removeEntry_of_none ha] at hq
    exact hq
  | some e =>
    obtain ⟨p, o⟩ := e
    obtain ⟨u, hp⟩ := hs.typeOf_some ha
    rw [removeEntry_eq ha hp] at hq
    split_ifs at hq with hlen
    · rw [typeOf_freeEntry] at hq
      exact (s.countedDown_eq u p false).2.1 ▸ hq
    · rw [typeOf_freeHead, typeOf_freeEntry] at hq
      split_ifs at hq
      exact (s.countedDown_eq u p true).2.1 ▸ hq

theorem removeEntry_flag (ha : s.entryOf a = some (p, o)) (hp : s.typeOf p = some t) :
    (s.removeEntry C a).2 = true ↔ ¬ 1 < s.lenOf p := by
  rw [removeEntry_eq ha hp]
  split_ifs with hlen <;> simp [hlen]

theorem Consistent.removeEntry_shrunk (hs : Consistent C s) (a : ℕ) :
    Shrunk s (s.removeEntry C a).1 (· = a) := by
  refine ⟨fun h => ?_, fun h => ?_, hs.typeOf_of_removeEntry⟩
  · rw [entryOf, hs.entries_removeEntry, if_pos h, Option.map_none]
  · rw [entryOf, hs.entries_removeEntry, if_neg h, entryOf]

/-! ## Counting -/

omit [DecidableEq I] [DecidableEq O] in
theorem lenSum_of_lenOf_eq {u : I} {l : List ℕ} (hidx : s'.lstIdxOf u = l)
    (hlen : ∀ q ∈ l, s'.lenOf q = s.lenOf q) : s'.lenSum u = (l.map s.lenOf).sum := by
  rw [lenSum, hidx, map_congr_left hlen]

theorem Consistent.countsHeads_of_lt (hs : Consistent C s) (hp : s.typeOf p = some t)
    (hlen : 1 < s.lenOf p) :
    CountsHeads s (((s.countedDown t p false).tableDelete C (.entry a)).freeEntry a p) := by
  obtain ⟨-, -, -, hidx, -⟩ := s.countedDown_eq t p false
  have hlenOf (q : ℕ) : (((s.countedDown t p false).tableDelete C (.entry a)).freeEntry a p).lenOf q =
      if q = p then s.lenOf p - 1 else s.lenOf q := by
    rw [lenOf_freeEntry]
    exact s.lenOf_countedDown t p false q
  generalize hs₃ : ((s.countedDown t p false).tableDelete C (.entry a)).freeEntry a p = s₃ at *
  have hidx' : s₃.lstIdxOf = s.lstIdxOf := by
    rw [← hs₃]
    exact hidx
  intro g hg
  refine ⟨g, fun u => ?_, fun u => by rw [hidx']⟩
  have hu := hg u
  have hcnt : (s₃.idxTypes u).len =
      if u = t then (s.idxTypes u).len - 1 else (s.idxTypes u).len := by
    rw [← hs₃]
    split_ifs with h
    · simp [freeEntry, tableDelete, DedupMultiIndex.countedDown, modifyIdxType, modifyHead, h]
    · simp [freeEntry, tableDelete, DedupMultiIndex.countedDown, modifyIdxType, modifyHead, h]
  by_cases hut : u = t
  · subst hut
    have hsum := sum_map_update (hs.lstIdx_nodup u) (hs.mem_lstIdx.mpr hp) (f := s.lenOf)
      (g := s₃.lenOf) fun q _ hq => by rw [hlenOf, if_neg hq]
    rw [hlenOf, if_pos rfl] at hsum
    rw [if_pos rfl] at hcnt
    rw [lenSum] at hu
    rw [hcnt, lenSum, hidx']
    omega
  · have hsum : s₃.lenSum u = s.lenSum u := by
      refine lenSum_of_lenOf_eq (congrFun hidx' u) fun q hq => ?_
      rw [hlenOf, if_neg]
      rintro rfl
      exact hut (Option.some.inj ((hs.mem_lstIdx.mp hq).symm.trans hp))
    rw [hcnt, if_neg hut, hsum]
    exact hu

theorem Consistent.countsHeads_of_le (hs : Consistent C s) (ha : s.entryOf a = some (p, o))
    (hp : s.typeOf p = some t) (hlen : ¬ 1 < s.lenOf p) :
    CountsHeads s (((((s.countedDown t p true).tableDelete C (.entry a)).tableDelete C
      (.head p)).freeEntry a p).freeHead t p) := by
  obtain ⟨-, -, -, hidx, -⟩ := s.countedDown_eq t p true
  have hone : s.lenOf p = 1 := by
    have hpos := length_pos_of_mem (hs.mem_listOf.mpr ⟨o, ha⟩)
    rw [← hs.lenOf_eq] at hpos
    omega
  have hlenOf (q : ℕ) : (((((s.countedDown t p true).tableDelete C (.entry a)).tableDelete C
      (.head p)).freeEntry a p).freeHead t p).lenOf q = if q = p then 0 else s.lenOf q := by
    rw [lenOf_freeHead, lenOf_freeEntry]
    split_ifs with hq
    · rfl
    · exact (s.lenOf_countedDown t p true q).trans (if_neg hq)
  have hidx' (u : I) : (((((s.countedDown t p true).tableDelete C (.entry a)).tableDelete C
      (.head p)).freeEntry a p).freeHead t p).lstIdxOf u =
        if u = t then (s.lstIdxOf t).erase p else s.lstIdxOf u := by
    rw [lstIdxOf_freeHead, ← hidx]
    rfl
  have hcnt (u : I) : ((((((s.countedDown t p true).tableDelete C (.entry a)).tableDelete C
      (.head p)).freeEntry a p).freeHead t p).idxTypes u).len = (s.idxTypes u).len := by
    by_cases h : u = t
    · simp [freeHead, freeEntry, tableDelete, DedupMultiIndex.countedDown, modifyIdxType,
        modifyHead, h]
    · simp [freeHead, freeEntry, tableDelete, DedupMultiIndex.countedDown, modifyIdxType,
        modifyHead, h]
  generalize ((((s.countedDown t p true).tableDelete C (.entry a)).tableDelete C
    (.head p)).freeEntry a p).freeHead t p = s₅ at *
  have hmem : p ∈ s.lstIdxOf t := hs.mem_lstIdx.mpr hp
  intro g hg
  refine ⟨fun u => if u = t then g u + 1 else g u, fun u => ?_, fun u => ?_⟩
  · have hu := hg u
    rw [hcnt, hu]
    by_cases hut : u = t
    · subst hut
      have hsum : s₅.lenSum u = (((s.lstIdxOf u).erase p).map s.lenOf).sum := by
        refine lenSum_of_lenOf_eq ((hidx' u).trans (if_pos rfl)) fun q hq => ?_
        rw [hlenOf, if_neg ((hs.lstIdx_nodup u).mem_erase_iff.mp hq).1]
      have herase := sum_map_erase s.lenOf hmem
      simp only [↓reduceIte]
      rw [hsum, lenSum]
      omega
    · have hsum : s₅.lenSum u = s.lenSum u := by
        refine lenSum_of_lenOf_eq ((hidx' u).trans (if_neg hut)) fun q hq => ?_
        rw [hlenOf, if_neg]
        rintro rfl
        exact hut (Option.some.inj ((hs.mem_lstIdx.mp hq).symm.trans hp))
      simp only [if_neg hut, hsum]
  · simp only [hidx']
    split_ifs with hut
    · have hpos := length_pos_of_mem hmem
      rw [length_erase_of_mem hmem, hut]
      omega
    · rfl

theorem Consistent.countsHeads_removeEntry (hs : Consistent C s) (a : ℕ) :
    CountsHeads s (s.removeEntry C a).1 := by
  cases ha : s.entryOf a with
  | none =>
    rw [removeEntry_of_none ha]
    exact CountsHeads.refl s
  | some e =>
    obtain ⟨p, o⟩ := e
    obtain ⟨t, hp⟩ := hs.typeOf_some ha
    rw [removeEntry_eq ha hp]
    split_ifs with hlen
    · exact hs.countsHeads_of_lt hp hlen
    · exact hs.countsHeads_of_le ha hp hlen

end DedupMultiIndex

end NetworkManager.GlibAux
