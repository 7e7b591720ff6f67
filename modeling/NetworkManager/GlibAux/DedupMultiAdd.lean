import NetworkManager.GlibAux.DedupMultiSound

/-!
# The hash table of a multi-index

Between two operations the hash table has all entries and all heads, each under the hash
of what it unpacks to. A head is hashed through its first entry: which one that is does not
matter, since the entries of a head are of one partition.
-/

namespace NetworkManager.GlibAux

open Lib List

namespace DedupMultiIndex

variable {I O : Type} [DecidableEq I] [DecidableEq O] (C : IdxTypes I O)

/-- The pointers to what is allocated. -/
def Allocated (s : DedupMultiIndex I O) : EntryPtr → Prop
  | .entry a => (s.entryOf a).isSome
  | .head p => (s.typeOf p).isSome

/-- Between two operations no head is empty, and the hash table has all entries and heads. -/
structure Consistent (s : DedupMultiIndex I O) : Prop extends Sound C s where
  list_ne_nil : ∀ {p t}, s.typeOf p = some t → s.listOf p ≠ []
  lenOf_eq : ∀ p, s.lenOf p = (s.listOf p).length
  table : Faithful s.entryUnpack (dictIdxEntriesHash C) s.Allocated s.idxEntries

variable {C} {s s' : DedupMultiIndex I O} {a p : ℕ} {t : I} {o : O} {u v : UnpackedEntry I O}
  {keys : EntryPtr → Prop} {k : EntryPtr}

/-! ## Unpacking and comparing -/

theorem dictIdxEntriesEqual_iff :
    dictIdxEntriesEqual C u v ↔ u.idxType = v.idxType ∧ u.lookupHead = v.lookupHead ∧
      (C.klass u.idxType).typePartitionEqual u.obj v.obj ∧
        (u.lookupHead ∨ (C.klass u.idxType).typeIdEqual u.obj v.obj) := by
  simp [dictIdxEntriesEqual]

theorem dictIdxEntriesEqual_self (u : UnpackedEntry I O) : dictIdxEntriesEqual C u u :=
  dictIdxEntriesEqual_iff.mpr ⟨rfl, rfl, (C.klass _).typePartitionEqual_self _,
    Or.inr ((C.klass _).typeIdEqual_self _)⟩

theorem dictIdxEntriesEqual_symm (hC : C.Lawful) (h : dictIdxEntriesEqual C u v)
    : dictIdxEntriesEqual C v u := by
  obtain ⟨htype, hhead, hpart, hid⟩ := dictIdxEntriesEqual_iff.mp h
  rw [dictIdxEntriesEqual_iff, ← htype, ← hhead]
  exact ⟨rfl, rfl, (hC _).partition_symm hpart, hid.imp_right (hC _).id_symm⟩

theorem dictIdxEntriesEqual_trans (hC : C.Lawful) {w : UnpackedEntry I O}
    (huv : dictIdxEntriesEqual C u v) (hvw : dictIdxEntriesEqual C v w) :
    dictIdxEntriesEqual C u w := by
  obtain ⟨htype, hhead, hpart, hid⟩ := dictIdxEntriesEqual_iff.mp huv
  obtain ⟨htype', hhead', hpart', hid'⟩ := dictIdxEntriesEqual_iff.mp hvw
  rw [← htype] at hpart' hid'
  refine dictIdxEntriesEqual_iff.mpr ⟨htype.trans htype', hhead.trans hhead',
    (hC _).partition_trans hpart hpart', ?_⟩
  rcases hid with h | h
  · exact Or.inl h
  · rcases hid' with h' | h'
    · exact Or.inl (hhead ▸ h')
    · exact Or.inr ((hC _).id_trans h h')

theorem dictIdxEntriesHash_of_equal (hC : C.Lawful) (u v : UnpackedEntry I O)
    (h : dictIdxEntriesEqual C u v) : dictIdxEntriesHash C u = dictIdxEntriesHash C v := by
  obtain ⟨htype, hhead, hpart, hid⟩ := dictIdxEntriesEqual_iff.mp h
  have hparthash := (hC _).partition_hash hpart
  cases hlookup : u.lookupHead with
  | true =>
    have hlookup' : v.lookupHead = true := hhead ▸ hlookup
    simp [dictIdxEntriesHash, hparthash, hlookup, hlookup', ← htype]
  | false =>
    have hlookup' : v.lookupHead = false := hhead ▸ hlookup
    have hidhash := (hC _).id_hash (hid.resolve_left (by simp [hlookup]))
    simp [dictIdxEntriesHash, hparthash, hidhash, hlookup, hlookup', ← htype]

omit [DecidableEq I] [DecidableEq O] in
theorem entryUnpack_of_entryOf (ha : s.entryOf a = some (p, o)) (hp : s.typeOf p = some t) :
    s.entryUnpack (.entry a) = some ⟨t, o, false⟩ := by
  simp [entryUnpack_entry, ha, hp]

omit [DecidableEq I] in
theorem Sound.entryUnpack_of_typeOf (hs : Sound C s) (ha : s.entryOf a = some (p, o))
    (hp : s.typeOf p = some t) :
    ∃ o', s.entryUnpack (.head p) = some ⟨t, o', true⟩ ∧
      (C.klass t).typePartitionEqual o' o := by
  have hmem : a ∈ s.listOf p := hs.mem_listOf.mpr ⟨o, ha⟩
  obtain ⟨b, l, hl⟩ := exists_cons_of_ne_nil (ne_nil_of_mem hmem)
  obtain ⟨o', hb⟩ := hs.mem_listOf.mp (hl ▸ mem_cons_self : b ∈ s.listOf p)
  refine ⟨o', by simp [entryUnpack_head, hp, hl, hb], ?_⟩
  exact (hs.partition_iff hb ha hp hp).mp rfl

omit [DecidableEq I] in
theorem entryOf_of_entryUnpack_head (hs : Sound C s) (h : s.entryUnpack (.head p) = some u) :
    ∃ a, s.entryOf a = some (p, u.obj) ∧ s.typeOf p = some u.idxType ∧ u.lookupHead := by
  rw [entryUnpack_head] at h
  obtain ⟨t, hp, h⟩ := Option.bind_eq_some_iff.mp h
  obtain ⟨a, ha, h⟩ := Option.bind_eq_some_iff.mp h
  obtain ⟨e, he, rfl⟩ := Option.map_eq_some_iff.mp h
  obtain ⟨o, ho⟩ := hs.mem_listOf.mp (mem_of_head? ha)
  rw [ho] at he
  obtain rfl := Option.some.inj he
  exact ⟨a, ho, hp, rfl⟩

omit [DecidableEq I] [DecidableEq O] in
theorem entryOf_of_entryUnpack_entry (h : s.entryUnpack (.entry a) = some u) :
    ∃ p, s.entryOf a = some (p, u.obj) ∧ s.typeOf p = some u.idxType ∧ u.lookupHead = false := by
  rw [entryUnpack_entry] at h
  obtain ⟨⟨p, o⟩, ha, h⟩ := Option.bind_eq_some_iff.mp h
  obtain ⟨t, hp, rfl⟩ := Option.map_eq_some_iff.mp h
  exact ⟨p, ha, hp, rfl⟩

theorem Sound.uniqueFor (hs : Sound C s) (hC : C.Lawful) (keys : EntryPtr → Prop)
    (u : UnpackedEntry I O) : UniqueFor s.entryUnpack (dictIdxEntriesEqual C) keys u := by
  intro k k' v v' _ _ hv hv' h h'
  obtain ⟨htype, hhead, hpart, hid⟩ :=
    dictIdxEntriesEqual_iff.mp (dictIdxEntriesEqual_trans hC h (dictIdxEntriesEqual_symm hC h'))
  cases k with
  | entry a =>
    obtain ⟨p, ha, hp, hentry⟩ := entryOf_of_entryUnpack_entry hv
    cases k' with
    | entry b =>
      obtain ⟨q, hb, hq, -⟩ := entryOf_of_entryUnpack_entry hv'
      rw [← htype] at hq
      obtain rfl : p = q := (hs.partition_iff ha hb hp hq).mpr hpart
      rw [hs.id_unique ha hb hp (hid.resolve_left (by simp [hentry]))]
    | head q =>
      obtain ⟨b, -, -, hlookup⟩ := entryOf_of_entryUnpack_head hs hv'
      simp [hentry, hlookup] at hhead
  | head p =>
    obtain ⟨a, ha, hp, hlookup⟩ := entryOf_of_entryUnpack_head hs hv
    cases k' with
    | entry b =>
      obtain ⟨q, -, -, hentry⟩ := entryOf_of_entryUnpack_entry hv'
      simp [hentry, hlookup] at hhead
    | head q =>
      obtain ⟨b, hb, hq, -⟩ := entryOf_of_entryUnpack_head hs hv'
      rw [← htype] at hq
      rw [(hs.partition_iff ha hb hp hq).mpr hpart]

/-! ## Looking up -/

section

variable (hs : Consistent C s)

include hs

theorem Consistent.entryLookupObj_eq_some_iff (hC : C.Lawful) :
    s.entryLookupObj C t o = some a ↔ ∃ p o', s.entryOf a = some (p, o') ∧
      s.typeOf p = some t ∧ (C.klass t).typePartitionEqual o' o ∧ (C.klass t).typeIdEqual o' o := by
  have hfind (k : EntryPtr) : s.tableFind C ⟨t, o, false⟩ = some k ↔
      s.Allocated k ∧ ∃ v, s.entryUnpack k = some v ∧ dictIdxEntriesEqual C v ⟨t, o, false⟩ :=
    tableLookup_eq_some_iff (dictIdxEntriesHash_of_equal hC) hs.table (hs.uniqueFor hC _ _)
  have hentry : s.entryLookupObj C t o = some a ↔
      s.tableFind C ⟨t, o, false⟩ = some (.entry a) := by
    unfold entryLookupObj
    rcases s.tableFind C ⟨t, o, false⟩ with _ | _ | _ <;> simp
  rw [hentry, hfind]
  constructor
  · rintro ⟨-, v, hv, heq⟩
    obtain ⟨p, ha, hp, hlookup⟩ := entryOf_of_entryUnpack_entry hv
    obtain ⟨htype, -, hpart, hid⟩ := dictIdxEntriesEqual_iff.mp heq
    simp only at htype
    rw [htype] at hp hpart hid
    exact ⟨p, v.obj, ha, hp, hpart, hid.resolve_left (by simp [hlookup])⟩
  · rintro ⟨p, o', ha, hp, hpart, hid⟩
    refine ⟨by simp [Allocated, ha], _, entryUnpack_of_entryOf ha hp, ?_⟩
    exact dictIdxEntriesEqual_iff.mpr ⟨rfl, rfl, hpart, Or.inr hid⟩

theorem Consistent.entryLookupObj_eq_none_iff (hC : C.Lawful) :
    s.entryLookupObj C t o = none ↔ ∀ a p o', s.entryOf a = some (p, o') →
      s.typeOf p = some t → (C.klass t).typePartitionEqual o' o →
        ¬ (C.klass t).typeIdEqual o' o := by
  constructor
  · intro h a p o' ha hp hpart hid
    have hfound := (hs.entryLookupObj_eq_some_iff hC).mpr ⟨p, o', ha, hp, hpart, hid⟩
    simp [h] at hfound
  · intro h
    rw [Option.eq_none_iff_forall_ne_some]
    intro a ha
    obtain ⟨p, o', ha, hp, hpart, hid⟩ := (hs.entryLookupObj_eq_some_iff hC).mp ha
    exact h a p o' ha hp hpart hid

omit [DecidableEq I] in
theorem Consistent.exists_entry (hp : s.typeOf p = some t) : ∃ a o, s.entryOf a = some (p, o) := by
  obtain ⟨a, l, hl⟩ := exists_cons_of_ne_nil (hs.list_ne_nil hp)
  obtain ⟨o, ho⟩ := hs.mem_listOf.mp (hl ▸ mem_cons_self : a ∈ s.listOf p)
  exact ⟨a, o, ho⟩

omit [DecidableEq I] in
theorem Consistent.lstIdxOf_head? (hnone : (C.klass t).partition = none) :
    (s.lstIdxOf t).head? = some p ↔ s.typeOf p = some t := by
  constructor
  · exact fun h => hs.mem_lstIdx.mp (mem_of_head? h)
  · intro hp
    obtain ⟨q, l, hl⟩ := exists_cons_of_ne_nil (ne_nil_of_mem (hs.mem_lstIdx.mpr hp))
    have hq : s.typeOf q = some t := hs.mem_lstIdx.mp (hl ▸ mem_cons_self)
    obtain ⟨a, o, ha⟩ := hs.exists_entry hp
    obtain ⟨b, o', hb⟩ := hs.exists_entry hq
    have hpart : (C.klass t).typePartitionEqual o o' := by simp [IdxTypeClass.typePartitionEqual, hnone]
    rw [hl, (hs.partition_iff ha hb hp hq).mpr hpart, List.head?_cons]

theorem Consistent.entryLookupHead_eq_some_iff (hC : C.Lawful) :
    s.entryLookupHead C t o = some p ↔ s.typeOf p = some t ∧
      ∃ a o', s.entryOf a = some (p, o') ∧ (C.klass t).typePartitionEqual o' o := by
  have hfind (k : EntryPtr) : s.tableFind C ⟨t, o, true⟩ = some k ↔
      s.Allocated k ∧ ∃ v, s.entryUnpack k = some v ∧ dictIdxEntriesEqual C v ⟨t, o, true⟩ :=
    tableLookup_eq_some_iff (dictIdxEntriesHash_of_equal hC) hs.table (hs.uniqueFor hC _ _)
  have htable : s.tableFind C ⟨t, o, true⟩ = some (.head p) ↔ s.typeOf p = some t ∧
      ∃ a o', s.entryOf a = some (p, o') ∧ (C.klass t).typePartitionEqual o' o := by
    rw [hfind]
    constructor
    · rintro ⟨-, v, hv, heq⟩
      obtain ⟨a, ha, hp, -⟩ := entryOf_of_entryUnpack_head hs.toSound hv
      obtain ⟨htype, -, hpart, -⟩ := dictIdxEntriesEqual_iff.mp heq
      simp only at htype
      rw [htype] at hp hpart
      exact ⟨hp, a, v.obj, ha, hpart⟩
    · rintro ⟨hp, a, o', ha, hpart⟩
      obtain ⟨o'', hv, hsame⟩ := hs.entryUnpack_of_typeOf ha hp
      refine ⟨by simp [Allocated, hp], _, hv, ?_⟩
      exact dictIdxEntriesEqual_iff.mpr
        ⟨rfl, rfl, (hC t).partition_trans hsame hpart, Or.inl rfl⟩
  unfold entryLookupHead
  cases hclass : (C.klass t).partition with
  | none =>
    refine (hs.lstIdxOf_head? hclass).trans ⟨fun hp => ?_, And.left⟩
    obtain ⟨a, o', ha⟩ := hs.exists_entry hp
    exact ⟨hp, a, o', ha, by simp [IdxTypeClass.typePartitionEqual, hclass]⟩
  | some c =>
    rw [← htable]
    rcases s.tableFind C ⟨t, o, true⟩ with _ | _ | _ <;> simp

theorem Consistent.entryLookupHead_eq_none_iff (hC : C.Lawful) :
    s.entryLookupHead C t o = none ↔ ∀ a p o', s.entryOf a = some (p, o') →
      s.typeOf p = some t → ¬ (C.klass t).typePartitionEqual o' o := by
  constructor
  · intro h a p o' ha hp hpart
    have hfound := (hs.entryLookupHead_eq_some_iff hC).mpr ⟨hp, a, o', ha, hpart⟩
    simp [h] at hfound
  · intro h
    rw [Option.eq_none_iff_forall_ne_some]
    intro p hp
    obtain ⟨hp, a, o', ha, hpart⟩ := (hs.entryLookupHead_eq_some_iff hC).mp hp
    exact h a p o' ha hp hpart

end

/-! ## Keeping the hash table in step -/

/-- The entry is at the same place of the index in both states. -/
def StaysAt (C : IdxTypes I O) (s s' : DedupMultiIndex I O) (a p : ℕ) : Prop :=
  ∃ t o o', s.entryOf a = some (p, o) ∧ s'.entryOf a = some (p, o') ∧ s.typeOf p = some t ∧
    s'.typeOf p = some t ∧ (C.klass t).typePartitionEqual o' o ∧ (C.klass t).typeIdEqual o' o

theorem Sound.faithful_congr (hs : Sound C s) (hs' : Sound C s') (hC : C.Lawful)
    {tbl : List (ℕ × EntryPtr)} (htbl : Faithful s.entryUnpack (dictIdxEntriesHash C) keys tbl)
    (hentry : ∀ a, keys (.entry a) → ∃ p, StaysAt C s s' a p)
    (hhead : ∀ p, keys (.head p) → ∃ a, StaysAt C s s' a p) :
    Faithful s'.entryUnpack (dictIdxEntriesHash C) keys tbl := by
  refine htbl.congr (fun _ => Iff.rfl) fun k u hk hu => ?_
  cases k with
  | entry a =>
    obtain ⟨p, t, o, o', ha, ha', hp, hp', hpart, hid⟩ := hentry a hk
    obtain rfl := Option.some.inj ((entryUnpack_of_entryOf ha hp).symm.trans hu)
    refine ⟨_, entryUnpack_of_entryOf ha' hp', dictIdxEntriesHash_of_equal hC _ _ ?_⟩
    exact dictIdxEntriesEqual_iff.mpr ⟨rfl, rfl, hpart, Or.inr hid⟩
  | head p =>
    obtain ⟨a, t, o, o', ha, ha', hp, hp', hpart, -⟩ := hhead p hk
    obtain ⟨first, hfirst, hsame⟩ := hs.entryUnpack_of_typeOf ha hp
    obtain ⟨first', hfirst', hsame'⟩ := hs'.entryUnpack_of_typeOf ha' hp'
    obtain rfl := Option.some.inj (hfirst.symm.trans hu)
    refine ⟨_, hfirst', dictIdxEntriesHash_of_equal hC _ _ ?_⟩
    refine dictIdxEntriesEqual_iff.mpr ⟨rfl, rfl, ?_, Or.inl rfl⟩
    exact (hC t).partition_trans ((hC t).partition_trans hsame' hpart) ((hC t).partition_symm hsame)

omit [DecidableEq I] in
theorem staysAt_of_entryOf_eq (ha : s.entryOf a = some (p, o)) (ha' : s'.entryOf a = some (p, o))
    (hp : s.typeOf p = some t) (hp' : s'.typeOf p = some t) : StaysAt C s s' a p :=
  ⟨t, o, o, ha, ha', hp, hp', (C.klass t).typePartitionEqual_self o, (C.klass t).typeIdEqual_self o⟩

theorem Consistent.faithful_congr (hs : Consistent C s) (hs' : Sound C s') (hC : C.Lawful)
    (hstay : ∀ a p o, s.entryOf a = some (p, o) → StaysAt C s s' a p) :
    Faithful s'.entryUnpack (dictIdxEntriesHash C) s.Allocated s.idxEntries := by
  refine hs.toSound.faithful_congr hs' hC hs.table (fun a ha => ?_) fun p hp => ?_
  · obtain ⟨⟨p, o⟩, ha⟩ := Option.isSome_iff_exists.mp ha
    exact ⟨p, hstay a p o ha⟩
  · obtain ⟨t, hp⟩ := Option.isSome_iff_exists.mp hp
    obtain ⟨a, o, ha⟩ := hs.exists_entry hp
    exact ⟨a, hstay a p o ha⟩

section

variable (hs : Sound C s) (hC : C.Lawful)
  (htbl : Faithful s.entryUnpack (dictIdxEntriesHash C) keys s.idxEntries)
  (hu : s.entryUnpack k = some u)

include hs hC htbl hu

theorem Sound.faithful_add (hk : ¬ keys k) :
    Faithful s.entryUnpack (dictIdxEntriesHash C) (fun k' => keys k' ∨ k' = k)
      (s.tableInsert C k).idxEntries := by
  refine htbl.add (dictIdxEntriesHash_of_equal hC) hu (fun k' v hk' hv heq => ?_) hk
  have hsame := hs.uniqueFor hC (fun _ => True) u k' k v u trivial trivial hv hu heq
    (dictIdxEntriesEqual_self u)
  exact hk (hsame ▸ hk')

theorem Sound.faithful_remove (hk : keys k) :
    Faithful s.entryUnpack (dictIdxEntriesHash C) (fun k' => keys k' ∧ k' ≠ k)
      (s.tableDelete C k).idxEntries :=
  htbl.remove (dictIdxEntriesHash_of_equal hC) hk hu (dictIdxEntriesEqual_self u)
    (hs.uniqueFor hC _ u)

end

end DedupMultiIndex

/-!
## Adding to a multi-index

What the operations that do not remove anything do to the entries, and that they keep the
index consistent. `Counted` compares the length that an index type has with the lengths of
its heads.
-/

namespace DedupMultiIndex

variable {I O : Type}

/-- The `len` of the heads of an index type, all together. -/
def lenSum (s : DedupMultiIndex I O) (t : I) : ℕ := ((s.lstIdxOf t).map s.lenOf).sum

/-- The `len` of every index type exceeds that of its heads by `g`. -/
def Counted (s : DedupMultiIndex I O) (g : I → ℕ) : Prop :=
  ∀ t, (s.idxTypes t).len = s.lenSum t + g t

variable {s s' : DedupMultiIndex I O} {a p : ℕ} {t : I} {o : O} {f : List ℕ → List ℕ}

theorem lenSum_congr (hidx : s'.lstIdxOf = s.lstIdxOf) (hlen : s'.lenOf = s.lenOf) :
    s'.lenSum = s.lenSum := by
  funext t
  rw [lenSum, lenSum, hidx, hlen]

theorem entryOf_entrySetDirty (a : ℕ) (dirty : Bool) :
    (s.entrySetDirty a dirty).entryOf = s.entryOf :=
  entryOf_modifyEntry (f := fun e => { e with dirty := dirty }) fun _ => ⟨rfl, rfl⟩

theorem modifyList_eq (a : ℕ) :
    (s.modifyList a f).entryOf = s.entryOf ∧ (s.modifyList a f).typeOf = s.typeOf ∧
      (s.modifyList a f).lenOf = s.lenOf ∧ (s.modifyList a f).idxTypes = s.idxTypes := by
  unfold modifyList
  cases ha : s.entries a with
  | none => exact ⟨rfl, rfl, rfl, rfl⟩
  | some e =>
    refine ⟨rfl, typeOf_modifyHead fun _ => rfl, ?_, rfl⟩
    funext q
    cases hh : s.heads e.head with
    | none => by_cases hq : q = e.head <;> simp [lenOf, modifyHead, hq, hh]
    | some h =>
      rw [lenOf_modifyHead hh]
      split_ifs with hq
      · rw [hq, lenOf_of_heads hh]
      · rfl

theorem entryReorder_eq (s : DedupMultiIndex I O) (a : ℕ) (order : Option ℕ) (orderAfter : Bool) :
    s.entryReorder a order orderAfter = s.modifyList a
      (moveEntry (if orderAfter then .appendForce else .prependForce) order a) := by
  unfold entryReorder
  congr
  funext l
  cases order <;> cases orderAfter <;> rfl

theorem addExisting_eq (s : DedupMultiIndex I O) (a : ℕ) (obj : O) (mode : DedupMultiIdxMode)
    (order : Option ℕ) :
    (∀ b, (s.addExisting a obj mode order).entryOf b =
        if b = a then (s.entryOf a).map fun e => (e.1, obj) else s.entryOf b) ∧
      (s.addExisting a obj mode order).typeOf = s.typeOf ∧
      (s.addExisting a obj mode order).lenOf = s.lenOf ∧
      (s.addExisting a obj mode order).idxTypes = s.idxTypes := by
  obtain ⟨hentry, htype, hlen, hidx⟩ :=
    (s.entrySetDirty a false).modifyList_eq (f := moveEntry mode order a) a
  refine ⟨fun b => ?_, htype, hlen, hidx⟩
  rw [addExisting, entryOf_setObj, hentry, entryOf_entrySetDirty]

variable [DecidableEq I] [DecidableEq O] {C : IdxTypes I O} {order : Option ℕ} {obj : O}
  {mode : DedupMultiIdxMode} {g : I → ℕ}

theorem Consistent.congr (hs : Consistent C s) (hC : C.Lawful) (hentry : s'.entryOf = s.entryOf)
    (htype : s'.typeOf = s.typeOf) (hlist : ∀ p, (s'.listOf p).Perm (s.listOf p))
    (hidx : s'.lstIdxOf = s.lstIdxOf) (hnext : s'.next = s.next) (hlen : s'.lenOf = s.lenOf)
    (htbl : s'.idxEntries = s.idxEntries) : Consistent C s' := by
  have hsound := hs.toSound.congr hentry htype hlist hidx hnext
  refine ⟨hsound, fun {p t} hp hnil => ?_, fun p => ?_, ?_⟩
  · have hperm := hlist p
    rw [hnil] at hperm
    rw [htype] at hp
    exact hs.list_ne_nil hp hperm.nil_eq.symm
  · rw [hlen, hs.lenOf_eq, (hlist p).length_eq]
  · have halloc : s'.Allocated = s.Allocated := by
      funext k
      cases k <;> simp [Allocated, hentry, htype]
    rw [htbl, halloc]
    refine hs.faithful_congr hsound hC fun a p o ha => ?_
    obtain ⟨t, hp⟩ := hs.typeOf_some ha
    exact staysAt_of_entryOf_eq ha (hentry ▸ ha) hp (htype ▸ hp)

/-! ## The flags and the order -/

theorem Consistent.entrySetDirty (hs : Consistent C s) (hC : C.Lawful) (a : ℕ) (dirty : Bool) :
    Consistent C (s.entrySetDirty a dirty) :=
  hs.congr hC (entryOf_entrySetDirty a dirty) rfl (fun _ => List.Perm.refl _) rfl rfl rfl rfl

theorem Consistent.modifyList (hs : Consistent C s) (hC : C.Lawful) (ha : s.entryOf a = some (p, o))
    (hf : (f (s.listOf p)).Perm (s.listOf p)) : Consistent C (s.modifyList a f) := by
  obtain ⟨hentry, htype, hlen, hidx⟩ := s.modifyList_eq (f := f) a
  refine hs.congr hC hentry htype (fun q => ?_) (congrArg (fun i t => (i t).lstIdx) hidx)
    ?_ hlen ?_
  · obtain ⟨e, he, rfl, rfl⟩ := entryOf_eq_some.mp ha
    obtain ⟨t, ht⟩ := hs.typeOf_some ha
    obtain ⟨h, hh, -⟩ := typeOf_eq_some.mp ht
    simp only [DedupMultiIndex.modifyList, he]
    rw [listOf_modifyHead hh]
    split_ifs with hq
    · rw [hq, ← listOf_of_heads hh]
      exact hf
    · exact List.Perm.refl _
  · unfold DedupMultiIndex.modifyList
    cases s.entries a <;> rfl
  · unfold DedupMultiIndex.modifyList
    cases s.entries a <;> rfl

theorem Consistent.entryReorder (hs : Consistent C s) (hC : C.Lawful) {orderAfter : Bool}
    (hvalid : OpValid C s (.entryReorder a order orderAfter)) :
    Consistent C (s.entryReorder a order orderAfter) := by
  rw [entryReorder_eq]
  cases ha : s.entries a with
  | none =>
    unfold DedupMultiIndex.modifyList
    rwa [ha]
  | some e =>
    have hentry : s.entryOf a = some (e.head, e.obj) := entryOf_eq_some.mpr ⟨e, ha, rfl, rfl⟩
    refine hs.modifyList hC hentry (moveEntry_perm _ (hs.listOf_nodup _) ?_ ?_)
    · exact hs.mem_listOf.mpr ⟨_, hentry⟩
    · intro b hb
      obtain ⟨e₁, e₂, h₁, h₂, hhead⟩ := hvalid b hb
      obtain rfl : e = e₁ := Option.some.inj (ha.symm.trans h₁)
      exact hs.mem_listOf.mpr ⟨e₂.obj, entryOf_eq_some.mpr ⟨e₂, h₂, hhead, rfl⟩⟩

/-! ## Replacing an object -/

section

variable (hs : Consistent C s) (hC : C.Lawful) (ha : s.entryOf a = some (p, o))
  (hp : s.typeOf p = some t)

include hs hC ha hp

theorem Consistent.setObj (hpart : (C.klass t).typePartitionEqual o obj)
    (hid : (C.klass t).typeIdEqual o obj) :
    Consistent C (s.modifyEntry a fun e => { e with obj := obj }) := by
  have hsound := hs.toSound.setObj hC ha hp hpart hid
  refine ⟨hsound, hs.list_ne_nil, hs.lenOf_eq, ?_⟩
  have halloc : (s.modifyEntry a fun e => { e with obj := obj }).Allocated = s.Allocated := by
    funext k
    cases k with
    | entry b =>
      rw [Allocated, Allocated, entryOf_setObj]
      split_ifs with h
      · simp [h]
      · rfl
    | head q => rfl
  rw [halloc]
  refine hs.faithful_congr hsound hC fun b q o' hb => ?_
  by_cases h : b = a
  · subst h
    obtain ⟨rfl, rfl⟩ := Prod.mk.inj (Option.some.inj (ha.symm.trans hb))
    refine ⟨t, o, obj, ha, ?_, hp, hp, (hC t).partition_symm hpart, (hC t).id_symm hid⟩
    rw [entryOf_setObj, if_pos rfl, ha, Option.map_some]
  · obtain ⟨u, hq⟩ := hs.typeOf_some hb
    refine staysAt_of_entryOf_eq hb ?_ hq hq
    rw [entryOf_setObj, if_neg h, hb]

theorem Consistent.addExisting (hpart : (C.klass t).typePartitionEqual o obj)
    (hid : (C.klass t).typeIdEqual o obj) (horder : ∀ b ∈ order, b ∈ s.listOf p)
    : Consistent C (s.addExisting a obj mode order) := by
  have hentry := s.entryOf_entrySetDirty a false
  have hdirty := hs.entrySetDirty hC a false
  have ha' : (s.entrySetDirty a false).entryOf a = some (p, o) := hentry ▸ ha
  have hmoved := hdirty.modifyList hC ha'
    (moveEntry_perm mode (hs.listOf_nodup p) (hs.mem_listOf.mpr ⟨o, ha⟩) horder)
  obtain ⟨hentry', htype', -⟩ :=
    (s.entrySetDirty a false).modifyList_eq (f := moveEntry mode order a) a
  exact hmoved.setObj hC (hentry' ▸ ha') (htype' ▸ hp) hpart hid

end

/-! ## A new entry -/

omit [DecidableEq O] in
theorem Counted.newHead (hcount : Counted s g) (hnext : ∀ u, s.next ∉ s.lstIdxOf u) (t : I)
    : Counted (s.newHead t) g := by
  intro u
  have hlen : ((s.newHead t).idxTypes u).len = (s.idxTypes u).len := by
    by_cases h : u = t
    · simp [DedupMultiIndex.newHead, h]
    · simp [DedupMultiIndex.newHead, h]
  have hmap : (s.lstIdxOf u).map (s.newHead t).lenOf = (s.lstIdxOf u).map s.lenOf := by
    apply map_congr_left
    intro q hq
    rw [lenOf_newHead, if_neg]
    rintro rfl
    exact hnext u hq
  have hsum : (s.newHead t).lenSum u = s.lenSum u := by
    rw [lenSum, lstIdxOf_newHead]
    split_ifs with h
    · subst h
      simp [hmap, lenSum, lenOf_newHead]
    · rw [hmap, lenSum]
  rw [hlen, hsum]
  exact hcount u

theorem Counted.linkNewEntry (hcount : Counted s g) (hs : Sound C s) (hp : s.typeOf p = some t)
    (obj : O) (mode : DedupMultiIdxMode) (order : Option ℕ) :
    Counted (s.linkNewEntry t p obj mode order) g := by
  obtain ⟨h, hh, -⟩ := typeOf_eq_some.mp hp
  intro u
  have hu := hcount u
  have hidx : (s.linkNewEntry t p obj mode order).lstIdxOf u = s.lstIdxOf u :=
    congrFun (lstIdxOf_linkNewEntry t p obj mode order) u
  have hlen := lenOf_linkNewEntry hh t obj mode order
  by_cases hut : u = t
  · subst hut
    have hsum := sum_map_update (hs.lstIdx_nodup u) (hs.mem_lstIdx.mpr hp) (f := s.lenOf)
      (g := (s.linkNewEntry u p obj mode order).lenOf) fun q _ hq => by rw [hlen, if_neg hq]
    rw [hlen, if_pos rfl] at hsum
    have hcnt : ((s.linkNewEntry u p obj mode order).idxTypes u).len = (s.idxTypes u).len + 1 := by
      simp [DedupMultiIndex.linkNewEntry, modifyIdxType, modifyHead]
    rw [hcnt, lenSum, hidx]
    rw [lenSum] at hu
    omega
  · have hcnt : ((s.linkNewEntry t p obj mode order).idxTypes u).len = (s.idxTypes u).len := by
      simp [DedupMultiIndex.linkNewEntry, modifyIdxType, modifyHead, hut]
    have hmap : (s.lstIdxOf u).map (s.linkNewEntry t p obj mode order).lenOf =
        (s.lstIdxOf u).map s.lenOf := by
      apply map_congr_left
      intro q hq
      rw [hlen, if_neg]
      rintro rfl
      exact hut (Option.some.inj ((hs.mem_lstIdx.mp hq).symm.trans hp))
    rw [hcnt, lenSum, hidx, hmap]
    exact hu

theorem Sound.linkNewEntry_list (hs : Sound C s) (hp : s.typeOf p = some t) (obj : O)
    (mode : DedupMultiIdxMode) (horder : ∀ b ∈ order, b ∈ s.listOf p) (q : ℕ) :
    ((s.linkNewEntry t p obj mode order).listOf q).Perm
      (if q = p then s.next :: s.listOf p else s.listOf q) := by
  obtain ⟨h, hh, -⟩ := typeOf_eq_some.mp hp
  rw [listOf_linkNewEntry hh]
  split_ifs
  · exact linkEntry_perm mode (hs.listOf_nodup p) horder
  · exact List.Perm.refl _

theorem Sound.lenOf_linkNewEntry_eq (hs : Sound C s) (hp : s.typeOf p = some t) (obj : O)
    (mode : DedupMultiIdxMode) (horder : ∀ b ∈ order, b ∈ s.listOf p)
    (hlen : ∀ q, s.lenOf q = (s.listOf q).length) (q : ℕ) :
    (s.linkNewEntry t p obj mode order).lenOf q =
      ((s.linkNewEntry t p obj mode order).listOf q).length := by
  obtain ⟨h, hh, -⟩ := typeOf_eq_some.mp hp
  rw [(hs.linkNewEntry_list hp obj mode horder q).length_eq, lenOf_linkNewEntry hh]
  split_ifs
  · rw [length_cons, hlen]
  · exact hlen q

theorem Consistent.eq_head_iff (hs : Consistent C s) (hC : C.Lawful)
    (hp : s.entryLookupHead C t obj = some p) {q : ℕ} (ha : s.entryOf a = some (q, o))
    (hq : s.typeOf q = some t) : q = p ↔ (C.klass t).typePartitionEqual o obj := by
  obtain ⟨hptype, b, o', hb, hpart⟩ := (hs.entryLookupHead_eq_some_iff hC).mp hp
  rw [hs.partition_iff ha hb hq hptype]
  constructor
  · exact fun h => (hC t).partition_trans h hpart
  · exact fun h => (hC t).partition_trans h ((hC t).partition_symm hpart)

theorem Consistent.addNew_of_head (hs : Consistent C s) (hC : C.Lawful)
    (hnone : s.entryLookupObj C t obj = none) (hp : s.entryLookupHead C t obj = some p)
    (horder : ∀ b ∈ order, b ∈ s.listOf p) :
    Consistent C (((s.linkNewEntry t p obj mode order).tableInsert C) (.entry s.next)) := by
  obtain ⟨hptype, -⟩ := (hs.entryLookupHead_eq_some_iff hC).mp hp
  have hsound : Sound C (s.linkNewEntry t p obj mode order) := by
    refine hs.toSound.linkNewEntry hC hptype horder (hs.eq_head_iff hC hp) fun {b o} hb => ?_
    exact (hs.entryLookupObj_eq_none_iff hC).mp hnone b p o hb hptype
      ((hs.eq_head_iff hC hp hb hptype).mp rfl)
  have hentry := entryOf_linkNewEntry (s := s) t p obj mode order
  have hself : (s.linkNewEntry t p obj mode order).entryOf s.next = some (p, obj) := by
    rw [hentry, if_pos rfl]
  have htypes := typeOf_linkNewEntry (s := s) t p obj mode order
  have hstay (b q : ℕ) (o : O) (hb : s.entryOf b = some (q, o)) :
      StaysAt C s (s.linkNewEntry t p obj mode order) b q := by
    obtain ⟨u, hu⟩ := hs.typeOf_some hb
    refine staysAt_of_entryOf_eq hb ?_ hu (htypes ▸ hu)
    rw [hentry, if_neg (hs.ne_next_of_entry hb), hb]
  have hfresh : ¬ s.Allocated (.entry s.next) := by
    simp [Allocated, hs.fresh_entry (Nat.le_refl _)]
  have htable := hsound.faithful_add hC (hs.faithful_congr hsound hC hstay)
    (entryUnpack_of_entryOf hself (htypes ▸ hptype)) hfresh
  refine ⟨hsound.congr rfl rfl (fun _ => List.Perm.refl _) rfl rfl, fun {q u} hq hnil => ?_,
    hs.lenOf_linkNewEntry_eq hptype obj mode horder hs.lenOf_eq, htable.congr (fun k => ?_) ?_⟩
  · have hperm := hs.linkNewEntry_list hptype obj mode horder q
    have hnil' : (s.linkNewEntry t p obj mode order).listOf q = [] := hnil
    rw [hnil'] at hperm
    have hq' : s.typeOf q = some u := htypes ▸ hq
    split_ifs at hperm
    · exact cons_ne_nil _ _ hperm.nil_eq.symm
    · exact hs.list_ne_nil hq' hperm.nil_eq.symm
  · cases k with
    | entry b =>
      change _ ↔ ((s.linkNewEntry t p obj mode order).entryOf b).isSome
      rw [hentry]
      by_cases hb : b = s.next
      · simp [hb]
      · simp [hb, Allocated]
    | head q =>
      change _ ↔ ((s.linkNewEntry t p obj mode order).typeOf q).isSome
      rw [htypes]
      simp [Allocated]
  · exact fun k u _ hu => ⟨u, hu, rfl⟩

theorem Consistent.addNew_of_no_head (hs : Consistent C s) (hC : C.Lawful)
    (hnone : s.entryLookupHead C t obj = none)
    (horder : ∀ b ∈ order, b ∈ (s.newHead t).listOf s.next) :
    Consistent C (((((s.newHead t).linkNewEntry t s.next obj mode order).tableInsert C)
      (.head s.next)).tableInsert C (.entry (s.next + 1))) := by
  have hnew := hs.toSound.newHead t
  have hptype : (s.newHead t).typeOf s.next = some t := by rw [typeOf_newHead, if_pos rfl]
  have hlist : (s.newHead t).listOf s.next = [] := by rw [listOf_newHead, if_pos rfl]
  have hold {b q : ℕ} {o : O} (hb : (s.newHead t).entryOf b = some (q, o)) : q ≠ s.next := by
    rintro rfl
    simpa [hlist] using hnew.mem_listOf.mpr ⟨o, hb⟩
  have hsound : Sound C ((s.newHead t).linkNewEntry t s.next obj mode order) := by
    refine hnew.linkNewEntry hC hptype horder (fun {b q o} hb hq => ?_) fun hb => ?_
    · rw [typeOf_newHead, if_neg (hold hb)] at hq
      have hpart := (hs.entryLookupHead_eq_none_iff hC).mp hnone b q o hb hq
      exact ⟨fun h => absurd h (hold hb), fun h => absurd h hpart⟩
    · exact absurd rfl (hold hb)
  have hentry := entryOf_linkNewEntry (s := s.newHead t) t s.next obj mode order
  have htypes := typeOf_linkNewEntry (s := s.newHead t) t s.next obj mode order
  have hself : ((s.newHead t).linkNewEntry t s.next obj mode order).entryOf (s.next + 1) =
      some (s.next, obj) := by
    rw [hentry]
    exact if_pos rfl
  have hstay (b q : ℕ) (o : O) (hb : s.entryOf b = some (q, o)) :
      StaysAt C s ((s.newHead t).linkNewEntry t s.next obj mode order) b q := by
    obtain ⟨u, hu⟩ := hs.typeOf_some hb
    refine staysAt_of_entryOf_eq hb ?_ hu ?_
    · have hne := hnew.ne_next_of_entry (a := b) hb
      rw [hentry, if_neg hne]
      exact hb
    · rw [htypes, typeOf_newHead, if_neg (hold (b := b) hb), hu]
  have hfresh : ¬ s.Allocated (.head s.next) := by
    simp [Allocated, hs.fresh_head (Nat.le_refl _)]
  have hfresh' : ¬ (s.Allocated (.entry (s.next + 1)) ∨
      EntryPtr.entry (s.next + 1) = .head s.next) := by
    simp [Allocated, hs.fresh_entry (Nat.le_succ _)]
  obtain ⟨o, hhead, -⟩ := hsound.entryUnpack_of_typeOf hself (htypes ▸ hptype)
  have hsound' := hsound.congr (r := ((s.newHead t).linkNewEntry t s.next obj mode
    order).tableInsert C (.head s.next)) rfl rfl (fun _ => List.Perm.refl _) rfl rfl
  have htable := hsound'.faithful_add hC
    (hsound.faithful_add hC (hs.faithful_congr hsound hC hstay) hhead hfresh)
    (entryUnpack_of_entryOf (s := ((s.newHead t).linkNewEntry t s.next obj mode
      order).tableInsert C (.head s.next)) hself (htypes ▸ hptype)) hfresh'
  have hlen (q : ℕ) : (s.newHead t).lenOf q = ((s.newHead t).listOf q).length := by
    rw [lenOf_newHead, listOf_newHead]
    split_ifs
    · rfl
    · exact hs.lenOf_eq q
  refine ⟨hsound'.congr rfl rfl (fun _ => List.Perm.refl _) rfl rfl, fun {q u} hq hnil => ?_,
    hnew.lenOf_linkNewEntry_eq hptype obj mode horder hlen, htable.congr (fun k => ?_) ?_⟩
  · have hperm := hnew.linkNewEntry_list hptype obj mode horder q
    have hnil' : ((s.newHead t).linkNewEntry t s.next obj mode order).listOf q = [] := hnil
    have hq' : ((s.newHead t).linkNewEntry t s.next obj mode order).typeOf q = some u := hq
    rw [hnil'] at hperm
    split_ifs at hperm with hne
    · exact cons_ne_nil _ _ hperm.nil_eq.symm
    · rw [htypes, typeOf_newHead, if_neg hne] at hq'
      rw [listOf_newHead, if_neg hne] at hperm
      exact hs.list_ne_nil hq' hperm.nil_eq.symm
  · cases k with
    | entry b =>
      change _ ↔ (((s.newHead t).linkNewEntry t s.next obj mode order).entryOf b).isSome
      rw [hentry]
      by_cases hb : b = s.next + 1
      · simp [hb, DedupMultiIndex.newHead]
      · have hsame : (s.newHead t).entryOf b = s.entryOf b := rfl
        simp [DedupMultiIndex.newHead, hb, Allocated, ← hsame]
    | head q =>
      change _ ↔ (((s.newHead t).linkNewEntry t s.next obj mode order).typeOf q).isSome
      rw [htypes, typeOf_newHead]
      by_cases hq : q = s.next
      · simp [hq]
      · simp [hq, Allocated]
  · exact fun k u _ hu => ⟨u, hu, rfl⟩

/-- The entries that a new entry of the object may be ordered next to. -/
def OrderValid (C : IdxTypes I O) (s : DedupMultiIndex I O) (t : I) (obj : O)
    (order : Option ℕ) : Prop :=
  ∀ b ∈ order, ∃ q o, s.entryOf b = some (q, o) ∧ s.typeOf q = some t ∧
    (C.klass t).typePartitionEqual o obj

omit [DecidableEq I] in
theorem Consistent.mem_listOf_of_order (hs : Consistent C s) (hC : C.Lawful)
    (horder : OrderValid C s t obj order) (ha : s.entryOf a = some (p, o))
    (hp : s.typeOf p = some t) (hpart : (C.klass t).typePartitionEqual o obj) :
    ∀ b ∈ order, b ∈ s.listOf p := by
  intro b hb
  obtain ⟨q, o', ho', hq, hpart'⟩ := horder b hb
  obtain rfl : q = p := (hs.partition_iff ho' ha hq hp).mpr
    ((hC t).partition_trans hpart' ((hC t).partition_symm hpart))
  exact hs.mem_listOf.mpr ⟨o', ho'⟩

theorem Consistent.addNew (hs : Consistent C s) (hC : C.Lawful)
    (hnone : s.entryLookupObj C t obj = none) (horder : OrderValid C s t obj order) :
    Consistent C (s.addNew C t obj mode order) := by
  unfold DedupMultiIndex.addNew
  cases hhead : s.entryLookupHead C t obj with
  | none =>
    refine hs.addNew_of_no_head hC hhead fun b hb => ?_
    obtain ⟨q, o, ho, hq, hpart⟩ := horder b hb
    exact absurd hpart ((hs.entryLookupHead_eq_none_iff hC).mp hhead b q o ho hq)
  | some p =>
    obtain ⟨hp, a, o, ha, hpart⟩ := (hs.entryLookupHead_eq_some_iff hC).mp hhead
    exact hs.addNew_of_head hC hnone hhead (hs.mem_listOf_of_order hC horder ha hp hpart)

theorem Counted.addNew (hcount : Counted s g) (hs : Consistent C s) (hC : C.Lawful) (t : I)
    (obj : O) (mode : DedupMultiIdxMode) (order : Option ℕ) :
    Counted (s.addNew C t obj mode order) g := by
  unfold DedupMultiIndex.addNew
  cases hhead : s.entryLookupHead C t obj with
  | none =>
    have hnext (u : I) : s.next ∉ s.lstIdxOf u := fun h =>
      hs.ne_next_of_head (hs.mem_lstIdx.mp h) rfl
    have hptype : (s.newHead t).typeOf s.next = some t := by rw [typeOf_newHead, if_pos rfl]
    exact (hcount.newHead hnext t).linkNewEntry (hs.toSound.newHead t) hptype obj mode order
  | some p =>
    obtain ⟨hp, -⟩ := (hs.entryLookupHead_eq_some_iff hC).mp hhead
    exact hcount.linkNewEntry hs.toSound hp obj mode order

/-! ## Adding an object -/

omit [DecidableEq I] in
theorem orderValid_iff : OrderValid C s t obj order ↔
    ∀ b ∈ order, ∃ e h, s.entries b = some e ∧ s.heads e.head = some h ∧ h.idxType = t ∧
      (C.klass t).typePartitionEqual e.obj obj := by
  refine forall₂_congr fun b _ => ?_
  constructor
  · rintro ⟨q, o, hb, hq, hpart⟩
    obtain ⟨e, he, rfl, rfl⟩ := entryOf_eq_some.mp hb
    obtain ⟨h, hh, rfl⟩ := typeOf_eq_some.mp hq
    exact ⟨e, h, he, hh, rfl, hpart⟩
  · rintro ⟨e, h, he, hh, rfl, hpart⟩
    exact ⟨e.head, e.obj, entryOf_eq_some.mpr ⟨e, he, rfl, rfl⟩, typeOf_of_heads hh, hpart⟩

theorem Consistent.addFull (hs : Consistent C s) (hC : C.Lawful)
    (horder : OrderValid C s t obj order) : Consistent C (s.addFull C t obj mode order) := by
  unfold DedupMultiIndex.addFull
  cases hobj : s.entryLookupObj C t obj with
  | none =>
    simp only
    split_ifs
    · exact hs.addNew hC hobj horder
    · exact hs
  | some a =>
    obtain ⟨p, o, ha, hp, hpart, hid⟩ := (hs.entryLookupObj_eq_some_iff hC).mp hobj
    exact hs.addExisting hC ha hp hpart hid (hs.mem_listOf_of_order hC horder ha hp hpart)

theorem Counted.addFull (hcount : Counted s g) (hs : Consistent C s) (hC : C.Lawful) (t : I)
    (obj : O) (mode : DedupMultiIdxMode) (order : Option ℕ) :
    Counted (s.addFull C t obj mode order) g := by
  unfold DedupMultiIndex.addFull
  cases s.entryLookupObj C t obj with
  | none =>
    simp only
    split_ifs
    · exact hcount.addNew hs hC t obj mode order
    · exact hcount
  | some a =>
    obtain ⟨-, -, hlen, hidx⟩ := s.addExisting_eq a obj mode order
    intro u
    have hsum := lenSum_congr (congrArg (fun i t => (i t).lstIdx) hidx) hlen
    simp only [hidx, hsum]
    exact hcount u

end DedupMultiIndex

end NetworkManager.GlibAux
