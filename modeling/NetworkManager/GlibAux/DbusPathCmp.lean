import NetworkManager.GlibAux.DecimalText

/-!
# Comparing D-Bus paths

Two paths with the same parent are compared by their last components, numbers by their value and
behind everything that is no number. Other paths are compared as strings. The two ways to compare
do not fit together for a path that is further down in the tree.
-/

namespace NetworkManager.GlibAux

open Lib
open Std (TransCmp OrientedCmp LawfulEqOrd)

/-! ## The source -/

def dbusPathComponentAsNum (p : Bytes) : ℤ :=
  if p.head? = some ('0' : UInt8) then if p.tail ≠ [] then -1 else 0
  else if ¬ p.head?.any fun c => 49 ≤ c ∧ c ≤ 57 then -1
  else if ¬ p.tail.all isDigit then -1
  else (asciiStrToInt64 p 10 0 (2 ^ 63 - 1)).getD (-1)

/-- The comparison of the last components. -/
def componentCmp (la lb : Bytes) : Ordering :=
  let na := dbusPathComponentAsNum la
  let nb := dbusPathComponentAsNum lb
  if na = -1 ∧ nb = -1 then compare la lb
  else if na = -1 then .lt
  else if nb = -1 then .gt
  else compare na nb

/-- `nm_utils_dbus_path_cmp()`. A path with a slash is split into what is before the last one, and
its last component. -/
def dbusPathCmp (a b : Option Bytes) : Ordering :=
  match a, b with
  | none, none => .eq
  | none, some _ => .lt
  | some _, none => .gt
  | some a, some b =>
    match splitLast '/' a, splitLast '/' b with
    | some (pa, la), some (pb, lb) =>
      let plen := pa.length + 1
      if plen ≠ pb.length + 1 then compare a b
      else
        match compare (a.take plen) (b.take plen) with
        | .eq => componentCmp la lb
        | o => o
    | _, _ => compare a b

/-! ## Components -/

variable {s t : Bytes}

theorem not_isSpace_of_isDigit : ∀ c, isDigit c → ¬ isSpace c ∧ c ≠ 11 ∧ c ≠ '-' ∧ c ≠ '+' := by
  decide

theorem asciiStrToInt64_decimal (h : IsCanonical s) :
    asciiStrToInt64 s 10 0 (2 ^ 63 - 1) =
      if decimalValue s < 2 ^ 63 then some (decimalValue s : ℤ) else none := by
  obtain ⟨hne, hdigits⟩ := h.digits
  have hhead : ∀ c ∈ s.head?, ¬ isSpace c ∧ c ≠ 11 ∧ c ≠ '-' ∧ c ≠ '+' :=
    fun c hc => not_isSpace_of_isDigit c (hdigits c (List.mem_of_mem_head? hc))
  have hread : parseLongLong 10 s = some (false, decimalValue s, []) :=
    parseLongLong_digits hhead (strtollBase_ten s) hne fun c hc =>
      (asciiDigitValue_of_isDigit c (hdigits c hc)).2.1
  rw [asciiStrToInt64, skipSpaces_of_head fun c hc => (hhead c hc).1, asciiStrtoll, hread]
  dsimp only
  split_ifs with hrange
  · have hin : ¬ (skipSpaces [] ≠ [] ∨ (decimalValue s : ℤ) > 2 ^ 63 - 1 ∨
        (decimalValue s : ℤ) < 0) := by
      rw [not_or]
      exact ⟨by simp [skipSpaces], by omega⟩
    exact if_neg hin
  · rfl

/-- A component is a number if it is one without leading zeros that a signed 64-bit integer can
have. -/
def IsNum (s : Bytes) : Prop := IsCanonical s ∧ decimalValue s < 2 ^ 63

instance (s : Bytes) : Decidable (IsNum s) := inferInstanceAs (Decidable (_ ∧ _))

theorem dbusPathComponentAsNum_eq (s : Bytes) :
    dbusPathComponentAsNum s = if IsNum s then (decimalValue s : ℤ) else -1 := by
  by_cases hcan : IsCanonical s
  · have hread := asciiStrToInt64_decimal hcan
    have hif : (if IsNum s then (decimalValue s : ℤ) else -1) =
        (asciiStrToInt64 s 10 0 (2 ^ 63 - 1)).getD (-1) := by
      rw [hread]
      by_cases hrange : decimalValue s < 2 ^ 63
      · rw [if_pos ⟨hcan, hrange⟩, if_pos hrange, Option.getD_some]
      · rw [if_neg fun hnum => hrange hnum.2, if_neg hrange, Option.getD_none]
    rw [hif]
    rcases hcan with rfl | ⟨hfirst, htail⟩
    · decide
    · have hhead : s.head? ≠ some ('0' : UInt8) := by
        intro hzero
        rw [hzero] at hfirst
        exact absurd hfirst (by decide)
      unfold dbusPathComponentAsNum
      rw [if_neg hhead, if_neg (not_not_intro hfirst), if_neg (not_not_intro htail)]
  · have hnum : ¬ IsNum s := fun h => hcan h.1
    rw [if_neg hnum]
    unfold dbusPathComponentAsNum
    split_ifs with hhead htail hfirst hdigits
    · rfl
    · exfalso
      apply hcan
      left
      cases s with
      | nil => simp at hhead
      | cons c s =>
        rw [List.tail_cons, not_not] at htail
        rw [htail]
        exact congrArg (fun c => [c]) (Option.some.inj hhead)
    · exact absurd (.inr ⟨hfirst, hdigits⟩) hcan
    · rfl
    · rfl

/-! ## The order of the components -/

theorem componentCmp_eq (s t : Bytes) :
    componentCmp s t =
      if ¬ IsNum s ∧ ¬ IsNum t then compare s t
      else if ¬ IsNum s then .lt
      else if ¬ IsNum t then .gt
      else compare (decimalValue s) (decimalValue t) := by
  have hnum : ∀ s, dbusPathComponentAsNum s = -1 ↔ ¬ IsNum s := by
    intro s
    rw [dbusPathComponentAsNum_eq]
    split_ifs with h
    · simp [h]
    · simp [h]
  have hcast : ∀ m n : ℕ, compare (m : ℤ) (n : ℤ) = compare m n := by
    intro m n
    change compareOfLessAndEq _ _ = compareOfLessAndEq _ _
    unfold compareOfLessAndEq
    split_ifs <;> first | rfl | omega
  unfold componentCmp
  simp only [hnum]
  split_ifs with hboth hs ht
  · rfl
  · rw [dbusPathComponentAsNum_eq, dbusPathComponentAsNum_eq, if_pos hs, if_pos ht, hcast]
  · rfl
  · rfl

theorem componentCmp_eq_then (s t : Bytes) :
    componentCmp s t =
      (compare (if IsNum s then some (decimalValue s) else none)
        (if IsNum t then some (decimalValue t) else none)).then
      (compare (if IsNum s then [] else s) (if IsNum t then [] else t)) := by
  rw [componentCmp_eq]
  by_cases hs : IsNum s
  · by_cases ht : IsNum t
    · simp only [hs, ht, not_true, and_self, if_false, if_true]
      rw [Std.compare_self (a := ([] : Bytes)), Ordering.then_eq]
      rfl
    · simp [hs, ht]
      rfl
  · by_cases ht : IsNum t
    · simp [hs, ht]
      rfl
    · simp [hs, ht]

theorem transCmp_componentCmp : TransCmp componentCmp := by
  have heq : componentCmp = fun s t => (compare (if IsNum s then some (decimalValue s) else none)
      (if IsNum t then some (decimalValue t) else none)).then
      (compare (if IsNum s then [] else s) (if IsNum t then [] else t)) := by
    funext s t
    exact componentCmp_eq_then s t
  rw [heq]
  exact transCmp_then (transCmp_on fun s => if IsNum s then some (decimalValue s) else none)
    (transCmp_on fun s => if IsNum s then [] else s)

theorem eq_of_componentCmp (h : componentCmp s t = .eq) : s = t := by
  rw [componentCmp_eq] at h
  split_ifs at h with hboth hs ht
  · exact LawfulEqOrd.eq_of_compare h
  · exact hs.1.inj ht.1 (LawfulEqOrd.eq_of_compare h)

/-! ## Paths -/

def parentOf (a : Option Bytes) : Option Bytes := (a.bind (splitLast '/')).map Prod.fst

def componentOf (a : Option Bytes) : Bytes := ((a.bind (splitLast '/')).map Prod.snd).getD []

/-- Two paths with the same parent. -/
def Siblings (a b : Option Bytes) : Prop := parentOf a ≠ none ∧ parentOf a = parentOf b

instance (a b : Option Bytes) : Decidable (Siblings a b) := inferInstanceAs (Decidable (_ ∧ _))

variable {a b c : Option Bytes}

theorem Siblings.symm (h : Siblings a b) : Siblings b a := ⟨h.2 ▸ h.1, h.2.symm⟩

theorem Siblings.trans (h : Siblings a b) (h' : Siblings b c) : Siblings a c :=
  ⟨h.1, h.2.trans h'.2⟩

theorem Siblings.parts (h : Siblings a b) : ∃ p, a = some (p ++ ('/' : UInt8) :: componentOf a) ∧
    b = some (p ++ ('/' : UInt8) :: componentOf b) := by
  have hpart : ∀ {a : Option Bytes} {p}, parentOf a = some p →
      a = some (p ++ ('/' : UInt8) :: componentOf a) := by
    intro a p hp
    obtain ⟨⟨q, x⟩, hsplit, rfl⟩ := Option.map_eq_some_iff.mp hp
    obtain ⟨s, rfl, hs⟩ := Option.bind_eq_some_iff.mp hsplit
    have hx : componentOf (some s) = x := by
      rw [componentOf, hsplit]
      rfl
    rw [hx]
    exact congrArg some (splitLast_eq_some.mp hs).1
  obtain ⟨p, hp⟩ := Option.ne_none_iff_exists'.mp h.1
  exact ⟨p, hpart hp, hpart (h.2 ▸ hp)⟩

theorem Siblings.compare_eq (h : Siblings a b) :
    compare a b = compare (componentOf a) (componentOf b) := by
  obtain ⟨p, ha, hb⟩ := h.parts
  generalize componentOf a = x at ha ⊢
  generalize componentOf b = y at hb ⊢
  subst ha hb
  change compare (p ++ ('/' : UInt8) :: x) (p ++ ('/' : UInt8) :: y) = _
  rw [compare_append rfl, Std.compare_self, List.compare_cons_cons, Std.compare_self]
  rfl

theorem Siblings.eq_of_component (h : Siblings a b) (heq : componentOf a = componentOf b) :
    a = b := by
  obtain ⟨p, ha, hb⟩ := h.parts
  rw [heq] at ha
  exact ha.trans hb.symm

/-- The four ways to compare come down to two. -/
theorem dbusPathCmp_eq (a b : Option Bytes) :
    dbusPathCmp a b =
      if Siblings a b then componentCmp (componentOf a) (componentOf b) else compare a b := by
  have hparent : ∀ a, Siblings none a → False := fun a h => h.1 rfl
  match a, b with
  | none, none =>
    rw [if_neg fun h => hparent _ h]
    rfl
  | none, some b =>
    rw [if_neg fun h => hparent _ h]
    rfl
  | some a, none =>
    rw [if_neg fun h => hparent _ h.symm]
    rfl
  | some a, some b =>
    cases ha : splitLast '/' a with
    | none =>
      have hno : ¬ Siblings (some a) (some b) := fun h => h.1 (by simp [parentOf, ha])
      rw [if_neg hno]
      simp only [dbusPathCmp, ha]
      rfl
    | some sa =>
      cases hb : splitLast '/' b with
      | none =>
        have hno : ¬ Siblings (some a) (some b) := fun h => h.symm.1 (by simp [parentOf, hb])
        rw [if_neg hno]
        simp only [dbusPathCmp, ha, hb]
        rfl
      | some sb =>
        obtain ⟨pa, la⟩ := sa
        obtain ⟨pb, lb⟩ := sb
        have hla : componentOf (some a) = la := by simp [componentOf, ha]
        have hlb : componentOf (some b) = lb := by simp [componentOf, hb]
        have hsiblings : Siblings (some a) (some b) ↔ pa = pb := by
          simp [Siblings, parentOf, ha, hb]
        have hsa := (splitLast_eq_some.mp ha).1
        have hsb := (splitLast_eq_some.mp hb).1
        simp only [dbusPathCmp, ha, hb, hla, hlb, hsiblings]
        by_cases hlen : pa.length = pb.length
        · have hta : a.take (pa.length + 1) = pa ++ [('/' : UInt8)] := by
            rw [hsa, List.take_length_add_append]
            rfl
          have htb : b.take (pa.length + 1) = pb ++ [('/' : UInt8)] := by
            rw [hsb, hlen, List.take_length_add_append]
            rfl
          rw [if_neg (by simp [hlen]), hta, htb, compare_append hlen, Std.compare_self,
            Ordering.then_eq]
          by_cases hp : pa = pb
          · rw [if_pos hp, hp, Std.compare_self]
          · have hab : compare (some a) (some b) = compare pa pb := by
              change compare a b = _
              rw [hsa, hsb, compare_append hlen]
              cases hcmp : compare pa pb with
              | lt => rfl
              | eq => exact absurd (LawfulEqOrd.eq_of_compare hcmp) hp
              | gt => rfl
            rw [if_neg hp, hab]
            cases hcmp : compare pa pb with
            | lt => rfl
            | eq => exact absurd (LawfulEqOrd.eq_of_compare hcmp) hp
            | gt => rfl
        · have hp : pa ≠ pb := fun heq => hlen (congrArg List.length heq)
          rw [if_pos (by omega), if_neg hp]
          rfl

/-! ## Where it is an order -/

theorem compare_swap {α : Type*} [Ord α] [Std.OrientedOrd α] (x y : α) :
    compare x y = (compare y x).swap :=
  OrientedCmp.eq_swap

theorem dbusPathCmp_swap (a b : Option Bytes) : dbusPathCmp a b = (dbusPathCmp b a).swap := by
  rw [dbusPathCmp_eq, dbusPathCmp_eq]
  by_cases h : Siblings a b
  · rw [if_pos h, if_pos h.symm]
    exact transCmp_componentCmp.eq_swap
  · rw [if_neg h, if_neg fun h' => h h'.symm]
    exact OrientedCmp.eq_swap

theorem eq_of_dbusPathCmp (h : dbusPathCmp a b = .eq) : a = b := by
  rw [dbusPathCmp_eq] at h
  split_ifs at h with hsiblings
  · exact hsiblings.eq_of_component (eq_of_componentCmp h)
  · exact LawfulEqOrd.eq_of_compare h

/-- The second component is a number, and the first one is a smaller one or none at all. -/
def NumberAfter (s t : Bytes) : Prop := IsNum t ∧ (IsNum s → decimalValue s < decimalValue t)

theorem componentCmp_of_numberAfter (h : NumberAfter s t) : componentCmp s t = .lt := by
  rw [componentCmp_eq, if_neg fun hno => hno.2 h.1]
  split_ifs with hs ht
  · exact Nat.compare_eq_lt.mpr (h.2 hs)
  · exact absurd h.1 ht
  · rfl

theorem numberAfter_of_compare (h : componentCmp s t = .lt) (hlt : compare t s = .lt) :
    NumberAfter s t := by
  rw [componentCmp_eq] at h
  split_ifs at h with hboth hs ht
  · have hgt := compare_swap s t
    rw [hlt, h] at hgt
    cases hgt
  · exact ⟨ht, fun _ => Nat.compare_eq_lt.mp h⟩
  · have ht : IsNum t := not_not.mp fun ht => hboth ⟨hs, ht⟩
    exact ⟨ht, fun hs' => absurd hs' hs⟩

/-- As strings, the third path is between the two siblings `y` and `x`, the last components of which
come in the other order. -/
def Between (x y z : Option Bytes) : Prop :=
  Siblings x y ∧ ¬ Siblings y z ∧ NumberAfter (componentOf x) (componentOf y) ∧
    compare y z = .lt ∧ compare z x = .lt

/-- None of three paths is between the other two. -/
def NoneBetween (a b c : Option Bytes) : Prop :=
  ¬ Between a b c ∧ ¬ Between b c a ∧ ¬ Between c a b

def Cycle (a b c : Option Bytes) : Prop :=
  dbusPathCmp a b = .lt ∧ dbusPathCmp b c = .lt ∧ dbusPathCmp c a = .lt

theorem Cycle.rotate (h : Cycle a b c) : Cycle b c a := ⟨h.2.1, h.2.2, h.1⟩

theorem Between.cycle (h : Between a b c) : Cycle a b c := by
  obtain ⟨hab, hbc, hnumber, hlt, hlt'⟩ := h
  have hca : ¬ Siblings c a := fun hca => hbc (hca.trans hab).symm
  refine ⟨?_, ?_, ?_⟩
  · rw [dbusPathCmp_eq, if_pos hab]
    exact componentCmp_of_numberAfter hnumber
  · rwa [dbusPathCmp_eq, if_neg hbc]
  · rwa [dbusPathCmp_eq, if_neg hca]

theorem Cycle.between (h : Cycle a b c) (hab : Siblings a b) (hbc : ¬ Siblings b c) :
    Between a b c := by
  have hca : ¬ Siblings c a := fun hca => hbc (hca.trans hab).symm
  obtain ⟨h1, h2, h3⟩ := h
  rw [dbusPathCmp_eq, if_pos hab] at h1
  rw [dbusPathCmp_eq, if_neg hbc] at h2
  rw [dbusPathCmp_eq, if_neg hca] at h3
  have hba : compare b a = .lt := Std.TransCmp.lt_trans h2 h3
  rw [hab.symm.compare_eq] at hba
  exact ⟨hab, hbc, numberAfter_of_compare h1 hba, h2, h3⟩

theorem cycle_iff : Cycle a b c ↔ ¬ NoneBetween a b c := by
  constructor
  · rintro h ⟨h1, h2, h3⟩
    by_cases hab : Siblings a b
    · by_cases hbc : Siblings b c
      · -- all three are siblings, and their components are ordered
        have hca := (hab.trans hbc).symm
        obtain ⟨hlt, hlt', hlt''⟩ := h
        rw [dbusPathCmp_eq, if_pos hab] at hlt
        rw [dbusPathCmp_eq, if_pos hbc] at hlt'
        rw [dbusPathCmp_eq, if_pos hca] at hlt''
        have := transCmp_componentCmp
        have hac := Std.TransCmp.lt_trans hlt hlt'
        rw [this.eq_swap, hlt''] at hac
        cases hac
      · exact h1 (h.between hab hbc)
    · by_cases hbc : Siblings b c
      · exact h2 (h.rotate.between hbc fun hca => hab (hbc.trans hca).symm)
      · by_cases hca : Siblings c a
        · exact h3 (h.rotate.rotate.between hca hab)
        · -- no two are siblings, and all are compared as strings
          obtain ⟨hlt, hlt', hlt''⟩ := h
          rw [dbusPathCmp_eq, if_neg hab] at hlt
          rw [dbusPathCmp_eq, if_neg hbc] at hlt'
          rw [dbusPathCmp_eq, if_neg hca] at hlt''
          have hac := Std.TransCmp.lt_trans hlt hlt'
          rw [compare_swap, hlt''] at hac
          cases hac
  · intro h
    by_contra hno
    apply h
    exact ⟨fun hb => hno hb.cycle, fun hb => hno hb.cycle.rotate.rotate,
      fun hb => hno hb.cycle.rotate⟩

/-! ## Numbers -/

/-- The leading digits of a longer text are no smaller number than the whole shorter one. -/
def LeadingNotSmaller (s t : Bytes) : Prop :=
  s.length < t.length → decimalValue s ≤ decimalValue (t.take s.length)

/-- Two numbers in the range of the type, or the same number, or two beyond the range that begin
with digits in their order. -/
def NumbersFit (s t : Bytes) : Prop :=
  (decimalValue s < 2 ^ 63 ∧ decimalValue t < 2 ^ 63) ∨ s = t ∨
    (2 ^ 63 ≤ decimalValue s ∧ 2 ^ 63 ≤ decimalValue t ∧ LeadingNotSmaller s t ∧
      LeadingNotSmaller t s)

/-- Siblings that are numbers are compared by value. -/
def NumericOrder (a b : Option Bytes) : Prop :=
  Siblings a b → IsCanonical (componentOf a) → IsCanonical (componentOf b) →
    dbusPathCmp a b = compare (decimalValue (componentOf a)) (decimalValue (componentOf b))

theorem compare_of_length_lt (hs : IsCanonical s) (ht : IsCanonical t)
    (hlen : s.length < t.length) :
    compare s t = compare (decimalValue s) (decimalValue t) ↔
      decimalValue s ≤ decimalValue (t.take s.length) := by
  have hlt := ht.lt_of_length hs.digits.2 hs.digits.1 hlen
  have htake : (t.take s.length).length = s.length := by
    rw [List.length_take]
    omega
  have hdigits : ∀ c ∈ t.take s.length, isDigit c :=
    fun c hc => ht.digits.2 c (List.mem_of_mem_take hc)
  have hdrop : t.drop s.length ≠ [] := by
    intro hnil
    have := List.drop_eq_nil_iff.mp hnil
    omega
  have hcmp : compare s t = (compare s (t.take s.length)).then .lt := by
    have happend := compare_append htake.symm [] (t.drop s.length)
    obtain ⟨c, u, hu⟩ := List.exists_cons_of_ne_nil hdrop
    rw [List.append_nil, List.take_append_drop, hu] at happend
    exact happend
  rw [Nat.compare_eq_lt.mpr hlt, hcmp, ← compare_decimalValue hs.digits.2 hdigits htake.symm]
  rcases Nat.lt_trichotomy (decimalValue s) (decimalValue (t.take s.length)) with h | h | h
  · rw [Nat.compare_eq_lt.mpr h]
    exact iff_of_true rfl h.le
  · rw [h, Std.compare_self]
    exact iff_of_true rfl (Nat.le_refl _)
  · rw [Nat.compare_eq_gt.mpr h]
    exact iff_of_false (by simp) (by omega)

theorem leadingNotSmaller_of_length_le (hlen : t.length ≤ s.length) : LeadingNotSmaller s t :=
  fun hlt => absurd hlt (by omega)

theorem compare_eq_iff_leading (hs : IsCanonical s) (ht : IsCanonical t) :
    compare s t = compare (decimalValue s) (decimalValue t) ↔
      LeadingNotSmaller s t ∧ LeadingNotSmaller t s := by
  rcases Nat.lt_trichotomy s.length t.length with hlt | heq | hgt
  · rw [compare_of_length_lt hs ht hlt]
    constructor
    · intro hle
      exact ⟨fun _ => hle, leadingNotSmaller_of_length_le hlt.le⟩
    · rintro ⟨hle, -⟩
      exact hle hlt
  · apply iff_of_true
    · exact (compare_decimalValue hs.digits.2 ht.digits.2 heq).symm
    · exact ⟨leadingNotSmaller_of_length_le heq.ge, leadingNotSmaller_of_length_le heq.le⟩
  · rw [compare_swap s t, compare_swap (decimalValue s), Ordering.swap_inj,
      compare_of_length_lt ht hs hgt]
    constructor
    · intro hle
      exact ⟨leadingNotSmaller_of_length_le hgt.le, fun _ => hle⟩
    · rintro ⟨-, hle⟩
      exact hle hgt

theorem componentCmp_numeric_iff (hs : IsCanonical s) (ht : IsCanonical t) :
    componentCmp s t = compare (decimalValue s) (decimalValue t) ↔ NumbersFit s t := by
  have hnum : ∀ {s}, IsCanonical s → (IsNum s ↔ decimalValue s < 2 ^ 63) :=
    fun hs => and_iff_right hs
  simp only [componentCmp_eq, hnum hs, hnum ht]
  by_cases hrs : decimalValue s < 2 ^ 63
  · by_cases hrt : decimalValue t < 2 ^ 63
    · simp only [hrs, hrt, not_true, and_self, if_false]
      exact iff_of_true trivial (.inl ⟨hrs, hrt⟩)
    · -- only the smaller number is in the range, and comes last
      have hlt : decimalValue s < decimalValue t := by omega
      simp only [hrs, hrt, not_true, not_false_eq_true, false_and, if_false, if_true]
      rw [Nat.compare_eq_lt.mpr hlt]
      apply iff_of_false
      · decide
      · rintro (⟨-, h⟩ | rfl | ⟨h, -⟩)
        · exact hrt h
        · exact hrt hrs
        · omega
  · by_cases hrt : decimalValue t < 2 ^ 63
    · have hgt : decimalValue t < decimalValue s := by omega
      simp only [hrs, hrt, not_true, not_false_eq_true, and_false, if_false, if_true]
      rw [Nat.compare_eq_gt.mpr hgt]
      apply iff_of_false
      · decide
      · rintro (⟨h, -⟩ | rfl | ⟨-, h, -⟩)
        · exact hrs h
        · exact hrs hrt
        · omega
    · simp only [hrs, hrt, not_false_eq_true, and_self, if_true]
      rw [compare_eq_iff_leading hs ht]
      constructor
      · rintro ⟨h, h'⟩
        exact .inr (.inr ⟨by omega, by omega, h, h'⟩)
      · rintro (⟨h, -⟩ | rfl | ⟨-, -, h, h'⟩)
        · exact absurd h hrs
        · exact ⟨leadingNotSmaller_of_length_le le_rfl, leadingNotSmaller_of_length_le le_rfl⟩
        · exact ⟨h, h'⟩

/-- The numbers of siblings fit. -/
def SiblingsFit (a b : Option Bytes) : Prop :=
  Siblings a b → IsCanonical (componentOf a) → IsCanonical (componentOf b) →
    NumbersFit (componentOf a) (componentOf b)

theorem numericOrder_iff : NumericOrder a b ↔ SiblingsFit a b := by
  constructor
  · intro h hab ha hb
    have hcmp := h hab ha hb
    rw [dbusPathCmp_eq, if_pos hab] at hcmp
    exact (componentCmp_numeric_iff ha hb).mp hcmp
  · intro h hab ha hb
    rw [dbusPathCmp_eq, if_pos hab]
    exact (componentCmp_numeric_iff ha hb).mpr (h hab ha hb)

/-! ## The order -/

/-- What a total order of the paths says about three of them. -/
structure OrdersTriple (a b c : Option Bytes) : Prop where
  eq : dbusPathCmp a b = .eq → a = b
  swap : dbusPathCmp a b = (dbusPathCmp b a).swap
  trans : (dbusPathCmp a b).isLE → (dbusPathCmp b c).isLE → (dbusPathCmp a c).isLE
  numeric : NumericOrder a b

/-- Paths are ordered, except where a third one is between two siblings or the siblings have
numbers that do not fit. -/
theorem ordersTriple_iff (a b c : Option Bytes) :
    OrdersTriple a b c ↔ NoneBetween a b c ∧ SiblingsFit a b := by
  have htrans := isLE_trans_iff_no_cycle dbusPathCmp_swap (fun _ _ => eq_of_dbusPathCmp) a b c
  constructor
  · intro h
    constructor
    · by_contra hbetween
      exact htrans.mp h.trans (cycle_iff.mpr hbetween)
    · exact numericOrder_iff.mp h.numeric
  · rintro ⟨hbetween, hfit⟩
    exact {
      eq := eq_of_dbusPathCmp
      swap := dbusPathCmp_swap a b
      trans := htrans.mpr fun hcycle => cycle_iff.mp hcycle hbetween
      numeric := numericOrder_iff.mpr hfit
    }

/-- `/a/9` comes before `/a/10`, `/a/10` before `/a/2/x`, and that before `/a/9`. -/
theorem deeper_path_not_ordered : ¬ ∀ a b c, OrdersTriple a b c := by
  intro h
  have htrans := (h (some (ascii "/a/9")) (some (ascii "/a/10"))
    (some (ascii "/a/2/x"))).trans
  exact absurd (htrans (by decide) (by decide)) (by decide)

end NetworkManager.GlibAux
