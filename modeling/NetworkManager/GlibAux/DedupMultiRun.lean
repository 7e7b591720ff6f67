import NetworkManager.GlibAux.DedupMultiRemove
import NetworkManager.Lib.Runs

/-!
# Runs of a multi-index

Every operation keeps the index consistent, and every head that it removes is counted once
more in the `len` of the index type. So the index is in step with itself at the end of a
run just if no operation of the run took the last entry of a head.
-/

namespace NetworkManager.GlibAux

open Lib List

namespace DedupMultiIndex

variable {I O : Type} {s'' : DedupMultiIndex I O} {gone gone' : ℕ → Prop}

theorem Shrunk.trans {s s' : DedupMultiIndex I O} (h : Shrunk s s' gone) (h' : Shrunk s' s'' gone')
    : Shrunk s s'' fun b => gone b ∨ gone' b := by
  refine ⟨fun {b} hb => ?_, fun {b} hb => ?_, fun hq => h.typeOf_of (h'.typeOf_of hq)⟩
  · by_cases hgone' : gone' b
    · exact h'.entryOf_gone hgone'
    · rw [h'.entryOf_kept hgone', h.entryOf_gone (hb.resolve_right hgone')]
  · rw [not_or] at hb
    rw [h'.entryOf_kept hb.2, h.entryOf_kept hb.1]

variable [DecidableEq I] [DecidableEq O] {C : IdxTypes I O} {s s' : DedupMultiIndex I O} {a p : ℕ}
  {t : I} {o : O} {touched touched' : ℕ → Prop} {l : List ℕ} {op : Op I O} {g : I → ℕ}
  {ops : List (Op I O)}

/-- What an operation that adds nothing does: it removes the entries with `gone`, and writes
to no entry without `touched`. -/
structure Swept (C : IdxTypes I O) (s s' : DedupMultiIndex I O) (gone touched : ℕ → Prop) :
    Prop where
  consistent : Consistent C s'
  counts : CountsHeads s s'
  shrunk : Shrunk s s' gone
  frame : ∀ {b}, ¬ touched b → s'.entries b = s.entries b

omit [DecidableEq I] in
theorem Swept.refl (hs : Consistent C s) (touched : ℕ → Prop) :
    Swept C s s (fun _ => False) touched :=
  ⟨hs, CountsHeads.refl s, ⟨False.elim, fun _ => rfl, id⟩, fun _ => rfl⟩

omit [DecidableEq I] in
theorem Swept.trans (h : Swept C s s' gone touched) (h' : Swept C s' s'' gone' touched') :
    Swept C s s'' (fun b => gone b ∨ gone' b) (fun b => touched b ∨ touched' b) := by
  refine ⟨h'.consistent, h.counts.trans h'.counts, h.shrunk.trans h'.shrunk, fun hb => ?_⟩
  rw [not_or] at hb
  exact (h'.frame hb.2).trans (h.frame hb.1)

omit [DecidableEq I] in
theorem Swept.congr (h : Swept C s s' gone touched) (hgone : ∀ b, gone b ↔ gone' b)
    (htouched : ∀ b, touched b → touched' b) : Swept C s s' gone' touched' := by
  obtain rfl : gone = gone' := funext fun b => propext (hgone b)
  exact ⟨h.consistent, h.counts, h.shrunk, fun hb => h.frame (mt (htouched _) hb)⟩

theorem Consistent.removeEntry_swept (hs : Consistent C s) (hC : C.Lawful) (a : ℕ) :
    Swept C s (s.removeEntry C a).1 (· = a) (· = a) :=
  ⟨hs.removeEntry hC a, hs.countsHeads_removeEntry a, hs.removeEntry_shrunk a,
    fun hb => (hs.entries_removeEntry a _).trans (if_neg hb)⟩

theorem Consistent.entrySetDirty_swept (hs : Consistent C s) (hC : C.Lawful) (a : ℕ)
    (dirty : Bool) : Swept C s (s.entrySetDirty a dirty) (fun _ => False) (· = a) := by
  refine ⟨hs.entrySetDirty hC a dirty, fun g hg => ⟨g, hg, fun _ => rfl⟩,
    ⟨False.elim, fun {b} _ => congrFun (entryOf_entrySetDirty a dirty) b, id⟩, fun hb => ?_⟩
  simp [DedupMultiIndex.entrySetDirty, modifyEntry, hb]

/-! ## The loops -/

omit [DecidableEq I] [DecidableEq O] in
theorem doomed_congr {removeAll : Bool} (h : s'.entries a = s.entries a) :
    s'.doomed removeAll a = s.doomed removeAll a := by
  rw [doomed, doomed, h]

/-- The loop over the entries that are left in the list of the head. -/
theorem Consistent.removeHeadLoop_swept (hC : C.Lawful) (removeAll mark : Bool)
    (hs : Consistent C s) (hl : l.Nodup) (hmem : ∀ b ∈ l, ∃ o, s.entryOf b = some (p, o)) :
    Swept C s (removeHeadLoop C removeAll mark l s)
      (fun b => b ∈ l ∧ s.doomed removeAll b) (· ∈ l) := by
  induction l generalizing s with
  | nil => exact (Swept.refl hs _).congr (by simp) fun _ => id
  | cons a as ih =>
    obtain ⟨hnot, has⟩ := nodup_cons.mp hl
    have hne {b : ℕ} (hb : b ∈ as) : b ≠ a := fun h => hnot (h ▸ hb)
    unfold removeHeadLoop
    by_cases hdoomed : s.doomed removeAll a
    · obtain ⟨o, ha⟩ := hmem a mem_cons_self
      obtain ⟨t, hp⟩ := hs.typeOf_some ha
      have hswept := hs.removeEntry_swept hC a
      simp only [hdoomed, if_true]
      by_cases hflag : (s.removeEntry C a).2
      · -- the head is gone, and so the list ends here
        have hshort := (removeEntry_flag ha hp).mp hflag
        have hnil : as = [] := by
          rw [eq_nil_iff_forall_not_mem]
          intro b hb
          have hsub : (a :: as).Subperm (s.listOf p) :=
            subperm_of_subset hl fun c hc => hs.mem_listOf.mpr (hmem c hc)
          have hpos := length_pos_of_mem hb
          have hle := hsub.length_le
          rw [length_cons, ← hs.lenOf_eq] at hle
          omega
        subst hnil
        rw [if_pos hflag]
        refine hswept.congr (fun b => ?_) fun b hb => by simp [hb]
        constructor
        · rintro rfl
          exact ⟨mem_cons_self, hdoomed⟩
        · exact fun h => by simpa using h.1
      · rw [if_neg hflag]
        have hrest := ih hswept.consistent has fun b hb => by
          obtain ⟨o', ho'⟩ := hmem b (mem_cons_of_mem a hb)
          exact ⟨o', (hswept.shrunk.entryOf_kept (hne hb)).trans ho'⟩
        refine (hswept.trans hrest).congr (fun b => ?_) fun b hb => mem_cons.mpr hb
        constructor
        · rintro (rfl | ⟨hb, hdb⟩)
          · exact ⟨mem_cons_self, hdoomed⟩
          · refine ⟨mem_cons_of_mem a hb, ?_⟩
            rwa [doomed_congr (hswept.frame (hne hb))] at hdb
        · rintro ⟨hb, hdb⟩
          rcases mem_cons.mp hb with rfl | hb
          · exact Or.inl rfl
          · refine Or.inr ⟨hb, ?_⟩
            rwa [doomed_congr (hswept.frame (hne hb))]
    · rw [if_neg hdoomed]
      have hswept : Swept C s (if mark then s.entrySetDirty a true else s) (fun _ => False)
          (· = a) := by
        split_ifs
        · exact hs.entrySetDirty_swept hC a true
        · exact Swept.refl hs _
      have hrest := ih hswept.consistent has fun b hb => by
        obtain ⟨o', ho'⟩ := hmem b (mem_cons_of_mem a hb)
        exact ⟨o', (hswept.shrunk.entryOf_kept id).trans ho'⟩
      refine (hswept.trans hrest).congr (fun b => ?_) fun b hb => mem_cons.mpr hb
      constructor
      · rintro (h | ⟨hb, hdb⟩)
        · exact h.elim
        · refine ⟨mem_cons_of_mem a hb, ?_⟩
          rwa [doomed_congr (hswept.frame (hne hb))] at hdb
      · rintro ⟨hb, hdb⟩
        rcases mem_cons.mp hb with rfl | hb
        · exact absurd hdb hdoomed
        · refine Or.inr ⟨hb, ?_⟩
          rwa [doomed_congr (hswept.frame (hne hb))]

theorem Consistent.removeHeadEntry_swept (hs : Consistent C s) (hC : C.Lawful)
    (removeAll mark : Bool) (p : ℕ) :
    Swept C s (s.removeHeadEntry C p removeAll mark)
      (fun b => b ∈ s.listOf p ∧ s.doomed removeAll b) (· ∈ s.listOf p) := by
  unfold removeHeadEntry
  cases hp : s.heads p with
  | none =>
    have hnil : s.listOf p = [] := by simp [listOf, hp]
    exact (Swept.refl hs _).congr (by simp [hnil]) fun _ => id
  | some h =>
    rw [listOf_of_heads hp]
    refine hs.removeHeadLoop_swept hC removeAll mark (p := p) ?_ fun b hb => ?_
    · exact listOf_of_heads hp ▸ hs.listOf_nodup p
    · rw [← hs.mem_listOf, listOf_of_heads hp]
      exact hb

theorem Consistent.removeHeads_swept (hC : C.Lawful) (removeAll mark : Bool) (hs : Consistent C s)
    (hl : l.Nodup) :
    Swept C s (l.foldl (fun s p => s.removeHeadEntry C p removeAll mark) s)
      (fun b => (∃ p ∈ l, b ∈ s.listOf p) ∧ s.doomed removeAll b) fun _ => True := by
  induction l generalizing s with
  | nil => exact (Swept.refl hs _).congr (by simp) fun _ => id
  | cons p l ih =>
    obtain ⟨hnot, hl⟩ := nodup_cons.mp hl
    have hswept := hs.removeHeadEntry_swept hC removeAll mark p
    rw [foldl_cons]
    refine (hswept.trans (ih hswept.consistent hl)).congr (fun b => ?_) fun _ _ => trivial
    have hother {q : ℕ} (hq : q ∈ l) (hb : b ∈ s.listOf q) : b ∉ s.listOf p := by
      intro hbp
      obtain ⟨o, ho⟩ := hs.mem_listOf.mp hb
      obtain ⟨o', ho'⟩ := hs.mem_listOf.mp hbp
      obtain rfl := (Prod.mk.inj (Option.some.inj (ho.symm.trans ho'))).1
      exact hnot hq
    have hsame {q : ℕ} (hq : q ∈ l) :
        b ∈ (s.removeHeadEntry C p removeAll mark).listOf q ↔ b ∈ s.listOf q := by
      rw [hswept.consistent.mem_listOf]
      constructor
      · rintro ⟨o, ho⟩
        refine hs.mem_listOf.mpr ⟨o, ?_⟩
        by_cases hgone : b ∈ s.listOf p ∧ s.doomed removeAll b
        · simp [hswept.shrunk.entryOf_gone hgone] at ho
        · rwa [hswept.shrunk.entryOf_kept hgone] at ho
      · intro hb
        obtain ⟨o, ho⟩ := hs.mem_listOf.mp hb
        exact ⟨o, (hswept.shrunk.entryOf_kept fun h => hother hq hb h.1).trans ho⟩
    constructor
    · rintro (⟨hb, hdb⟩ | ⟨⟨q, hq, hb⟩, hdb⟩)
      · exact ⟨⟨p, mem_cons_self, hb⟩, hdb⟩
      · have hb' := (hsame hq).mp hb
        rw [doomed_congr (hswept.frame (hother hq hb'))] at hdb
        exact ⟨⟨q, mem_cons_of_mem p hq, hb'⟩, hdb⟩
    · rintro ⟨⟨q, hq, hb⟩, hdb⟩
      rcases mem_cons.mp hq with rfl | hq
      · exact Or.inl ⟨hb, hdb⟩
      · refine Or.inr ⟨⟨q, hq, (hsame hq).mpr hb⟩, ?_⟩
        rwa [doomed_congr (hswept.frame (hother hq hb))]

theorem Consistent.dirtyEntries_swept (hC : C.Lawful) (l : List ℕ) (hs : Consistent C s) :
    Swept C s (l.foldl (fun s a => s.entrySetDirty a true) s) (fun _ => False)
      fun _ => True := by
  induction l generalizing s with
  | nil => exact Swept.refl hs _
  | cons a l ih =>
    have hswept := hs.entrySetDirty_swept hC a true
    exact (hswept.trans (ih hswept.consistent)).congr (by simp) fun _ _ => trivial

theorem Consistent.dirtySetHeadEntry_swept (hs : Consistent C s) (hC : C.Lawful) (p : ℕ) :
    Swept C s (s.dirtySetHeadEntry p) (fun _ => False) fun _ => True := by
  unfold dirtySetHeadEntry
  cases s.heads p with
  | none => exact Swept.refl hs _
  | some h => exact hs.dirtyEntries_swept hC h.lstEntries

theorem Consistent.dirtyHeads_swept (hC : C.Lawful) (l : List ℕ) (hs : Consistent C s) :
    Swept C s (l.foldl (fun s p => s.dirtySetHeadEntry p) s) (fun _ => False)
      fun _ => True := by
  induction l generalizing s with
  | nil => exact Swept.refl hs _
  | cons p l ih =>
    have hswept := hs.dirtySetHeadEntry_swept hC p
    exact (hswept.trans (ih hswept.consistent)).congr (by simp) fun _ _ => trivial

/-! ## One operation -/

/-- The entries that the operation removes. -/
def removed (C : IdxTypes I O) (s : DedupMultiIndex I O) : Op I O → ℕ → Prop
  | .removeEntry a => fun b => b = a
  | .removeHeadEntry p => fun b => ∃ e, s.entries b = some e ∧ e.head = p
  | .removeObj t obj => fun b => s.entryLookupObj C t obj = some b
  | .removeHead t obj => fun b =>
      ∃ e, s.entries b = some e ∧ s.entryLookupHead C t obj = some e.head
  | .removeIdx t => fun b =>
      ∃ e h, s.entries b = some e ∧ s.heads e.head = some h ∧ h.idxType = t
  | .dirtyRemoveIdx t _ => fun b =>
      ∃ e h, s.entries b = some e ∧ s.heads e.head = some h ∧ h.idxType = t ∧ e.dirty
  | _ => fun _ => False

/-- The operation removes all entries that a head has. -/
def EmptiesHead (C : IdxTypes I O) (s : DedupMultiIndex I O) (op : Op I O) : Prop :=
  ∃ p h, s.heads p = some h ∧ ∀ a ∈ h.lstEntries, removed C s op a

omit [DecidableEq I] in
theorem Sound.mem_listOf_iff (hs : Sound C s) :
    a ∈ s.listOf p ↔ ∃ e, s.entries a = some e ∧ e.head = p := by
  rw [hs.mem_listOf]
  constructor
  · rintro ⟨o, ho⟩
    obtain ⟨e, he, hp, -⟩ := entryOf_eq_some.mp ho
    exact ⟨e, he, hp⟩
  · rintro ⟨e, he, hp⟩
    exact ⟨e.obj, entryOf_eq_some.mpr ⟨e, he, hp, rfl⟩⟩

omit [DecidableEq I] in
theorem Sound.mem_lists_iff (hs : Sound C s) : (∃ p ∈ s.lstIdxOf t, a ∈ s.listOf p) ↔
    ∃ e h, s.entries a = some e ∧ s.heads e.head = some h ∧ h.idxType = t := by
  constructor
  · rintro ⟨p, hp, ha⟩
    obtain ⟨e, he, rfl⟩ := hs.mem_listOf_iff.mp ha
    obtain ⟨h, hh, ht⟩ := typeOf_eq_some.mp (hs.mem_lstIdx.mp hp)
    exact ⟨e, h, he, hh, ht⟩
  · rintro ⟨e, h, he, hh, rfl⟩
    exact ⟨e.head, hs.mem_lstIdx.mpr (typeOf_of_heads hh), hs.mem_listOf_iff.mpr ⟨e, he, rfl⟩⟩

def Op.sweeps : Op I O → Prop
  | .addFull .. => False
  | .entryReorder .. => False
  | _ => True

theorem Consistent.step_swept (hs : Consistent C s) (hC : C.Lawful) (hop : op.sweeps)
    : Swept C s (step C s op) (removed C s op) fun _ => True := by
  cases op with
  | addFull t obj mode order => exact hop.elim
  | entryReorder a order orderAfter => exact hop.elim
  | removeEntry a =>
    exact (hs.removeEntry_swept hC a).congr (fun _ => Iff.rfl) fun _ _ => trivial
  | removeHeadEntry p =>
    refine (hs.removeHeadEntry_swept hC true false p).congr (fun b => ?_) fun _ _ => trivial
    simp [removed, doomed, hs.mem_listOf_iff]
  | removeObj t obj =>
    simp only [DedupMultiIndex.step, removed]
    cases hobj : s.entryLookupObj C t obj with
    | none => exact (Swept.refl hs _).congr (by simp) fun _ => id
    | some a =>
      refine (hs.removeEntry_swept hC a).congr (fun b => ?_) fun _ _ => trivial
      simp [eq_comm]
  | removeHead t obj =>
    simp only [DedupMultiIndex.step, removed]
    cases hhead : s.entryLookupHead C t obj with
    | none => exact (Swept.refl hs _).congr (by simp) fun _ => id
    | some p =>
      refine (hs.removeHeadEntry_swept hC true false p).congr (fun b => ?_) fun _ _ => trivial
      simp [doomed, hs.mem_listOf_iff, eq_comm]
  | removeIdx t =>
    refine (hs.removeHeads_swept hC true false (hs.lstIdx_nodup t)).congr (fun b => ?_)
      fun _ _ => trivial
    simp only [removed, hs.mem_lists_iff, doomed, Bool.true_or, and_true]
  | dirtySetHead t obj =>
    simp only [DedupMultiIndex.step]
    cases s.entryLookupHead C t obj with
    | none => exact Swept.refl hs _
    | some p => exact hs.dirtySetHeadEntry_swept hC p
  | dirtySetIdx t => exact hs.dirtyHeads_swept hC (s.lstIdxOf t)
  | dirtyRemoveIdx t mark =>
    refine (hs.removeHeads_swept hC false mark (hs.lstIdx_nodup t)).congr (fun b => ?_)
      fun _ _ => trivial
    rw [hs.mem_lists_iff]
    simp only [removed, doomed, Bool.false_or, Option.any_eq_true]
    constructor
    · rintro ⟨⟨e, h, he, hh, ht⟩, e', he', hdirty⟩
      obtain rfl := Option.some.inj (he.symm.trans he')
      exact ⟨e, h, he, hh, ht, hdirty⟩
    · rintro ⟨e, h, he, hh, ht, hdirty⟩
      exact ⟨⟨e, h, he, hh, ht⟩, e, he, hdirty⟩
  | entrySetDirty a dirty =>
    exact (hs.entrySetDirty_swept hC a dirty).congr (fun _ => Iff.rfl) fun _ _ => trivial

theorem Consistent.step (hs : Consistent C s) (hC : C.Lawful) (hvalid : OpValid C s op)
    : Consistent C (step C s op) := by
  cases op with
  | addFull t obj mode order => exact hs.addFull hC (orderValid_iff.mpr hvalid)
  | entryReorder a order orderAfter => exact hs.entryReorder hC hvalid
  | _ => exact (hs.step_swept hC (by trivial)).consistent

omit [DecidableEq I] in
theorem Swept.typeOf_iff (h : Swept C s s' gone touched) (hs : Consistent C s) :
    s'.typeOf p = some t ↔ s.typeOf p = some t ∧ ∃ a ∈ s.listOf p, ¬ gone a := by
  constructor
  · intro hp
    refine ⟨h.shrunk.typeOf_of hp, ?_⟩
    obtain ⟨a, o, ha⟩ := h.consistent.exists_entry hp
    have hkept : ¬ gone a := fun hgone => by simp [h.shrunk.entryOf_gone hgone] at ha
    exact ⟨a, hs.mem_listOf.mpr ⟨o, h.shrunk.entryOf_kept hkept ▸ ha⟩, hkept⟩
  · rintro ⟨hp, a, ha, hkept⟩
    obtain ⟨o, ho⟩ := hs.mem_listOf.mp ha
    obtain ⟨u, hu⟩ := h.consistent.typeOf_some ((h.shrunk.entryOf_kept hkept).trans ho)
    rwa [← Option.some.inj ((h.shrunk.typeOf_of hu).symm.trans hp)]

omit [DecidableEq I] in
theorem Swept.counted (h : Swept C s s' gone touched) (hs : Consistent C s) (hg : Counted s g) :
    ∃ g', Counted s' g' ∧ (∀ t, g t ≤ g' t) ∧
      ((∀ t, g' t = g t) ↔ ¬ ∃ p h, s.heads p = some h ∧ ∀ a ∈ h.lstEntries, gone a) := by
  obtain ⟨g', hg', hlen⟩ := h.counts g hg
  have hsub (t : I) : (s'.lstIdxOf t).Subperm (s.lstIdxOf t) :=
    subperm_of_subset (h.consistent.lstIdx_nodup t) fun p hp =>
      hs.mem_lstIdx.mpr (h.shrunk.typeOf_of (h.consistent.mem_lstIdx.mp hp))
  refine ⟨g', hg', fun t => ?_, fun hsame => ?_, fun hnone t => ?_⟩
  · have hle := (hsub t).length_le
    have ht := hlen t
    omega
  · rintro ⟨p, head, hp, hall⟩
    have hmem : p ∈ s.lstIdxOf head.idxType := hs.mem_lstIdx.mpr (typeOf_of_heads hp)
    have hle : (s.lstIdxOf head.idxType).length ≤ (s'.lstIdxOf head.idxType).length := by
      have ht := hlen head.idxType
      have hsame' := hsame head.idxType
      omega
    have hmem' := ((hsub _).perm_of_length_le hle).mem_iff.mpr hmem
    obtain ⟨-, a, ha, hkept⟩ := (h.typeOf_iff hs).mp (h.consistent.mem_lstIdx.mp hmem')
    exact hkept (hall a (listOf_of_heads hp ▸ ha))
  · have hsup : (s.lstIdxOf t).Subperm (s'.lstIdxOf t) := by
      refine subperm_of_subset (hs.lstIdx_nodup t) fun p hp => ?_
      have htype := hs.mem_lstIdx.mp hp
      obtain ⟨head, hhead, -⟩ := typeOf_eq_some.mp htype
      refine h.consistent.mem_lstIdx.mpr ((h.typeOf_iff hs).mpr ⟨htype, ?_⟩)
      by_contra hgone
      simp only [not_exists, not_and, not_not] at hgone
      exact hnone ⟨p, head, hhead, fun a ha => hgone a (listOf_of_heads hhead ▸ ha)⟩
    have hle := (hsub t).length_le
    have hge := hsup.length_le
    have ht := hlen t
    omega

theorem Counted.step (hg : Counted s g) (hs : Consistent C s) (hC : C.Lawful) (op : Op I O) :
    ∃ g', Counted (step C s op) g' ∧ (∀ t, g t ≤ g' t) ∧
      ((∀ t, g' t = g t) ↔ ¬ EmptiesHead C s op) := by
  have hkeep (hgone : ∀ a, ¬ removed C s op a) : ¬ EmptiesHead C s op := by
    rintro ⟨p, h, hp, hall⟩
    obtain ⟨a, o, ha⟩ := hs.exists_entry (typeOf_of_heads hp)
    exact hgone a (hall a (listOf_of_heads hp ▸ hs.mem_listOf.mpr ⟨o, ha⟩))
  cases op with
  | addFull t obj mode order =>
    exact ⟨g, hg.addFull hs hC t obj mode order, fun _ => Nat.le_refl _,
      fun _ => hkeep fun _ => id, fun _ _ => rfl⟩
  | entryReorder a order orderAfter =>
    refine ⟨g, ?_, fun _ => Nat.le_refl _, fun _ => hkeep fun _ => id, fun _ _ => rfl⟩
    have hmove := s.modifyList_eq
      (f := moveEntry (if orderAfter then .appendForce else .prependForce) order a) a
    rw [← entryReorder_eq] at hmove
    obtain ⟨-, -, hlen, hidx⟩ := hmove
    intro t
    change ((s.entryReorder a order orderAfter).idxTypes t).len =
      (s.entryReorder a order orderAfter).lenSum t + g t
    rw [lenSum_congr (congrArg (fun i t => (i t).lstIdx) hidx) hlen, hidx]
    exact hg t
  | _ => exact (hs.step_swept hC (by trivial)).counted hs hg

/-! ## The index in step with itself -/

/-- The lists, the counters and the hash table of the index say the same, and an index type
has one entry for an identity in a partition. -/
structure InStep (C : IdxTypes I O) (s : DedupMultiIndex I O) : Prop where
  list_iff : ∀ p h, s.heads p = some h →
    ∀ a, a ∈ h.lstEntries ↔ ∃ e, s.entries a = some e ∧ e.head = p
  head_len : ∀ p h, s.heads p = some h →
    h.lstEntries.Nodup ∧ h.lstEntries ≠ [] ∧ h.len = h.lstEntries.length
  lstIdx_iff : ∀ t p, p ∈ (s.idxTypes t).lstIdx ↔ ∃ h, s.heads p = some h ∧ h.idxType = t
  idx_len : ∀ t, (s.idxTypes t).lstIdx.Nodup ∧ (s.idxTypes t).len = s.lenSum t
  distinct : ∀ a b e e' h h', s.entries a = some e → s.entries b = some e' →
    s.heads e.head = some h → s.heads e'.head = some h' → h.idxType = h'.idxType →
      (C.klass h.idxType).typePartitionEqual e.obj e'.obj →
        (C.klass h.idxType).typeIdEqual e.obj e'.obj → a = b
  head_partition : ∀ p h a b e e', s.heads p = some h → a ∈ h.lstEntries → b ∈ h.lstEntries →
    s.entries a = some e → s.entries b = some e' →
      (C.klass h.idxType).typePartitionEqual e.obj e'.obj
  entry_found : ∀ a e, s.entries a = some e →
    ∃ u, s.entryUnpack (.entry a) = some u ∧ s.tableFind C u = some (.entry a)
  head_found : ∀ p h, s.heads p = some h →
    ∃ u, s.entryUnpack (.head p) = some u ∧ s.tableFind C u = some (.head p)
  lookup_obj : ∀ t obj a, s.entryLookupObj C t obj = some a ↔
    ∃ e h, s.entries a = some e ∧ s.heads e.head = some h ∧ h.idxType = t ∧
      (C.klass t).typePartitionEqual e.obj obj ∧ (C.klass t).typeIdEqual e.obj obj
  lookup_head : ∀ t obj p, s.entryLookupHead C t obj = some p ↔
    ∃ h, s.heads p = some h ∧ h.idxType = t ∧
      ∃ a e, s.entries a = some e ∧ e.head = p ∧ (C.klass t).typePartitionEqual e.obj obj

theorem Consistent.tableFind_self (hs : Consistent C s) (hC : C.Lawful) {k : EntryPtr}
    {u : UnpackedEntry I O} (hk : s.Allocated k) (hu : s.entryUnpack k = some u) :
    s.tableFind C u = some k :=
  (tableLookup_eq_some_iff (dictIdxEntriesHash_of_equal hC) hs.table (hs.uniqueFor hC _ _)).mpr
    ⟨hk, u, hu, dictIdxEntriesEqual_self u⟩

/-- All but the counters of the index types are in step between two operations. -/
theorem Consistent.inStep_iff (hs : Consistent C s) (hC : C.Lawful) :
    InStep C s ↔ ∀ t, (s.idxTypes t).len = s.lenSum t := by
  refine ⟨fun h t => (h.idx_len t).2, fun hlen => ⟨fun p h hp a => ?_, fun p h hp => ?_,
    fun t p => ?_, fun t => ⟨hs.lstIdx_nodup t, hlen t⟩, ?_, ?_, fun a e ha => ?_, fun p h hp => ?_,
    fun t obj a => ?_, fun t obj p => ?_⟩⟩
  · rw [← listOf_of_heads hp]
    exact hs.mem_listOf_iff
  · rw [← listOf_of_heads hp, ← lenOf_of_heads hp]
    exact ⟨hs.listOf_nodup p, hs.list_ne_nil (typeOf_of_heads hp), hs.lenOf_eq p⟩
  · exact (hs.mem_lstIdx (t := t)).trans typeOf_eq_some
  · intro a b e e' h h' ha hb hh hh' htype hpart hid
    have ha' := entryOf_eq_some.mpr ⟨e, ha, rfl, rfl⟩
    have hb' := entryOf_eq_some.mpr ⟨e', hb, rfl, rfl⟩
    have hsame := (hs.partition_iff ha' hb' (typeOf_of_heads hh)
      (htype ▸ typeOf_of_heads hh')).mpr hpart
    rw [← hsame] at hb'
    exact hs.id_unique ha' hb' (typeOf_of_heads hh) hid
  · intro p h a b e e' hp ha hb hae hbe
    rw [← listOf_of_heads hp, hs.mem_listOf_iff] at ha hb
    obtain ⟨e₁, he₁, hhead⟩ := ha
    obtain ⟨e₂, he₂, hhead'⟩ := hb
    obtain rfl := Option.some.inj (hae.symm.trans he₁)
    obtain rfl := Option.some.inj (hbe.symm.trans he₂)
    have ha' := entryOf_eq_some.mpr ⟨e, hae, hhead, rfl⟩
    have hb' := entryOf_eq_some.mpr ⟨e', hbe, hhead', rfl⟩
    exact (hs.partition_iff ha' hb' (typeOf_of_heads hp) (typeOf_of_heads hp)).mp rfl
  · have ha' := entryOf_eq_some.mpr ⟨e, ha, rfl, rfl⟩
    obtain ⟨t, ht⟩ := hs.typeOf_some ha'
    have hu := entryUnpack_of_entryOf ha' ht
    exact ⟨_, hu, hs.tableFind_self hC (by simp [Allocated, ha']) hu⟩
  · have htype := typeOf_of_heads hp
    obtain ⟨a, o, ha⟩ := hs.exists_entry htype
    obtain ⟨o', hu, -⟩ := hs.entryUnpack_of_typeOf ha htype
    exact ⟨_, hu, hs.tableFind_self hC (by simp [Allocated, htype]) hu⟩
  · rw [hs.entryLookupObj_eq_some_iff hC]
    constructor
    · rintro ⟨p, o, ha, hp, hpart, hid⟩
      obtain ⟨e, he, rfl, rfl⟩ := entryOf_eq_some.mp ha
      obtain ⟨h, hh, ht⟩ := typeOf_eq_some.mp hp
      exact ⟨e, h, he, hh, ht, hpart, hid⟩
    · rintro ⟨e, h, he, hh, rfl, hpart, hid⟩
      exact ⟨e.head, e.obj, entryOf_eq_some.mpr ⟨e, he, rfl, rfl⟩, typeOf_of_heads hh, hpart, hid⟩
  · rw [hs.entryLookupHead_eq_some_iff hC]
    constructor
    · rintro ⟨hp, a, o, ha, hpart⟩
      obtain ⟨e, he, rfl, rfl⟩ := entryOf_eq_some.mp ha
      obtain ⟨h, hh, ht⟩ := typeOf_eq_some.mp hp
      exact ⟨h, hh, ht, a, e, he, rfl, hpart⟩
    · rintro ⟨h, hh, rfl, a, e, he, rfl, hpart⟩
      exact ⟨typeOf_of_heads hh, a, e.obj, entryOf_eq_some.mpr ⟨e, he, rfl, rfl⟩, hpart⟩

/-! ## Runs -/

omit [DecidableEq I] in
theorem consistent_new : Consistent C (new : DedupMultiIndex I O) := by
  refine ⟨⟨nofun, ?_, fun _ => nodup_nil, ?_, fun _ => nodup_nil, fun _ => rfl,
    fun _ => rfl, nofun, nofun⟩, nofun, fun _ => rfl, nodup_nil, ?_, nofun⟩
  · simp [listOf, entryOf, new]
  · simp [lstIdxOf, typeOf, new]
  · rintro (a | p) <;> simp [Allocated, entryOf, typeOf, new]

theorem Consistent.run (hC : C.Lawful) (hs : Consistent C s)
    (hvalid : Along (DedupMultiIndex.step C) (OpValid C) s ops) :
    Consistent C (ops.foldl (DedupMultiIndex.step C) s) :=
  hvalid.foldl (fun _ _ hs hop => hs.step hC hop) hs

theorem Counted.run (hC : C.Lawful) (hg : Counted s g) (hs : Consistent C s)
    (hvalid : Along (DedupMultiIndex.step C) (OpValid C) s ops) :
    ∃ g', Counted (ops.foldl (DedupMultiIndex.step C) s) g' ∧ (∀ t, g t ≤ g' t) ∧
      ((∀ t, g' t = g t) ↔
        Along (DedupMultiIndex.step C) (fun s op => ¬ EmptiesHead C s op) s ops) := by
  induction ops generalizing s g with
  | nil => exact ⟨g, hg, fun _ => Nat.le_refl _, fun _ => trivial, fun _ _ => rfl⟩
  | cons op ops ih =>
    obtain ⟨g₁, hg₁, hle₁, hiff₁⟩ := hg.step hs hC op
    obtain ⟨g₂, hg₂, hle₂, hiff₂⟩ := ih hg₁ (hs.step hC hvalid.1) hvalid.2
    refine ⟨g₂, hg₂, fun t => Nat.le_trans (hle₁ t) (hle₂ t), ?_⟩
    rw [along_cons, ← hiff₁, ← hiff₂]
    constructor
    · intro hsame
      refine ⟨fun t => ?_, fun t => ?_⟩
      · have h₁ := hle₁ t
        have h₂ := hle₂ t
        have h := hsame t
        omega
      · have h₁ := hle₁ t
        have h₂ := hle₂ t
        have h := hsame t
        omega
    · exact fun h t => (h.2 t).trans (h.1 t)

/-- The index is in step at the end of a run just if no operation emptied a head. -/
theorem inStep_run_iff (hC : C.Lawful) {ops : List (Op I O)}
    (hvalid : Along (DedupMultiIndex.step C) (OpValid C) new ops) :
    InStep C (ops.foldl (DedupMultiIndex.step C) new) ↔
      Along (DedupMultiIndex.step C) (fun s op => ¬ EmptiesHead C s op) new ops := by
  have hs : Consistent C (new : DedupMultiIndex I O) := consistent_new
  have hg : Counted (new : DedupMultiIndex I O) fun _ => 0 := fun _ => rfl
  obtain ⟨g, hcount, -, hiff⟩ := hg.run hC hs hvalid
  rw [(hs.run hC hvalid).inStep_iff hC, ← hiff]
  refine forall_congr' fun t => ?_
  have ht := hcount t
  omega

/-- Objects with an identity and a partition. -/
def exampleTypes : IdxTypes Unit (ℕ × ℕ) where
  klass _ :=
    { idHash := Prod.fst
      idEqual := fun a b => a.1 = b.1
      partitionable := fun _ => true
      partition := some ⟨Prod.snd, fun a b => a.2 = b.2⟩ }
  address _ := 7
  hashComplete := List.sum

theorem exampleTypes_lawful : exampleTypes.Lawful := by
  intro t
  have hid (a b : ℕ × ℕ) : (exampleTypes.klass t).typeIdEqual a b ↔ a.1 = b.1 := by
    simp only [exampleTypes, IdxTypeClass.typeIdEqual, decide_eq_true_eq, or_iff_right_iff_imp]
    exact congrArg Prod.fst
  have hpart (a b : ℕ × ℕ) : (exampleTypes.klass t).typePartitionEqual a b ↔ a.2 = b.2 := by
    simp only [exampleTypes, IdxTypeClass.typePartitionEqual, decide_eq_true_eq,
      or_iff_right_iff_imp]
    exact congrArg Prod.snd
  simp only [exampleTypes] at hid hpart
  constructor <;> simp only [exampleTypes, hid, hpart]
  · exact Eq.symm
  · exact Eq.trans
  · exact id
  · exact Eq.symm
  · exact Eq.trans
  · exact fun h => by simp only [IdxTypeClass.partitionHash, h]

def keepingRun : List (Op Unit (ℕ × ℕ)) :=
  [.addFull () (1, 0) .append none, .addFull () (2, 0) .append none, .removeObj () (1, 0)]

theorem inStep_keepingRun_iff :
    InStep exampleTypes (keepingRun.foldl (DedupMultiIndex.step exampleTypes) new) ↔
      Along (DedupMultiIndex.step exampleTypes) (fun s op => ¬ EmptiesHead exampleTypes s op) new
        keepingRun :=
  inStep_run_iff exampleTypes_lawful (by simp [keepingRun, OpValid])

def emptyingRun : List (Op Unit (ℕ × ℕ)) :=
  [.addFull () (1, 0) .append none, .removeObj () (1, 0)]

/-- Without any object, the index type still has the length 1. -/
theorem emptyingRun_not_inStep :
    Along (DedupMultiIndex.step exampleTypes) (OpValid exampleTypes) new emptyingRun ∧
      ¬ InStep exampleTypes (emptyingRun.foldl (DedupMultiIndex.step exampleTypes) new) := by
  refine ⟨by simp [emptyingRun, OpValid], fun h => ?_⟩
  have hlen := (h.idx_len ()).2
  revert hlen
  decide

end DedupMultiIndex

end NetworkManager.GlibAux
