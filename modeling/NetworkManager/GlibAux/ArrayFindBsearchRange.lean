import NetworkManager.GlibAux.ArrayFindBsearch
import Mathlib.Data.List.Basic

/-!
# Binary search for the range of equal elements

`nm_ptrarray_find_bsearch_range()` bisects three times: for some element that compares equal, and
from there for the first and for the last one. Reading outside of the list or an assertion that
does not hold makes the search fail.
-/

namespace NetworkManager.GlibAux

open List

variable {α : Type*}

section Functions

variable (cmp : α → Ordering) (list : List α)

/-- How `list[idx]` compares with the needle. -/
def cmpAt (idx : ℤ) : Option Ordering := if 0 ≤ idx then list[idx.toNat]?.map cmp else none

/-- The loop of `nm_ptrarray_find_bsearch()`. -/
def ptrarrayFindBsearchLoop (imin imax : ℤ) : Option ℤ :=
  if imin ≤ imax then
    let imid := imin + (imax - imin) / 2
    match cmpAt cmp list imid with
    | some .eq => some imid
    | some .lt => ptrarrayFindBsearchLoop (imid + 1) imax
    | some .gt => ptrarrayFindBsearchLoop imin (imid - 1)
    | none => none
  else some (-imin - 1)
termination_by (imax + 1 - imin).toNat

def ptrarrayFindBsearch : Option ℤ := ptrarrayFindBsearchLoop cmp list 0 (list.length - 1)

/-- The loop for `out_idx_first`, over indexes of which the first ones are too small. -/
def idxFirstLoop (i2min i2max : ℤ) : Option ℤ :=
  if i2min ≤ i2max then
    let i2mid := i2min + (i2max - i2min) / 2
    match cmpAt cmp list i2mid with
    | some .eq => idxFirstLoop i2min (i2mid - 1)
    | some .lt => idxFirstLoop (i2mid + 1) i2max
    | _ => none
  else some i2min
termination_by (i2max + 1 - i2min).toNat

/-- The loop for `out_idx_last`, over indexes of which the last ones are too large. -/
def idxLastLoop (i2min i2max : ℤ) : Option ℤ :=
  if i2min ≤ i2max then
    let i2mid := i2min + (i2max - i2min) / 2
    match cmpAt cmp list i2mid with
    | some .eq => idxLastLoop (i2mid + 1) i2max
    | some .gt => idxLastLoop i2min (i2mid - 1)
    | _ => none
  else some (i2min - 1)
termination_by (i2max + 1 - i2min).toNat

/-- What `nm_ptrarray_find_bsearch_range()` returns. An output is there if the caller asked for
it. -/
structure BsearchRange where
  idx : ℤ
  outIdxFirst : Option ℤ
  outIdxLast : Option ℤ
  deriving DecidableEq

variable (wantFirst wantLast : Bool)

/-- The loop of `nm_ptrarray_find_bsearch_range()`. -/
def ptrarrayFindBsearchRangeLoop (imin imax : ℤ) : Option BsearchRange :=
  if imin ≤ imax then
    let imid := imin + (imax - imin) / 2
    match cmpAt cmp list imid with
    | some .eq => do
      let first ← if wantFirst then (idxFirstLoop cmp list imin (imid + 1)).map some else some none
      let last ← if wantLast then (idxLastLoop cmp list (imid + 1) imax).map some else some none
      return ⟨imid, first, last⟩
    | some .lt => ptrarrayFindBsearchRangeLoop (imid + 1) imax
    | some .gt => ptrarrayFindBsearchRangeLoop imin (imid - 1)
    | none => none
  else
    some ⟨-imin - 1, if wantFirst then some (-imin - 1) else none,
      if wantLast then some (-imin - 1) else none⟩
termination_by (imax + 1 - imin).toNat

def ptrarrayFindBsearchRange : Option BsearchRange :=
  ptrarrayFindBsearchRangeLoop cmp list wantFirst wantLast 0 (list.length - 1)

/-- The first `p` elements are smaller, the next `k` are equal and the last `m` are larger. -/
def EqualRun (p k m : ℕ) : Prop :=
  list.map cmp = .replicate p .lt ++ .replicate k .eq ++ .replicate m .gt

end Functions

variable {cmp : α → Ordering} {list : List α} {p k m : ℕ}

theorem SortedFor.equalRun (hsorted : SortedFor cmp list) : ∃ p k m, EqualRun cmp list p k m := by
  induction list with
  | nil => exact ⟨0, 0, 0, rfl⟩
  | cons a l ih =>
    obtain ⟨hhead, htail⟩ := pairwise_cons.mp hsorted
    obtain ⟨p, k, m, hrun⟩ := ih htail
    have hmem : ∀ o, o ∈ List.replicate p .lt ++ List.replicate k .eq ++ List.replicate m .gt →
        ∃ b ∈ l, cmp b = o := by
      intro o ho
      rw [← hrun] at ho
      exact mem_map.mp ho
    cases ha : cmp a with
    | lt => exact ⟨p + 1, k, m, by simpa [EqualRun, ha, replicate_succ] using hrun⟩
    | eq =>
      have hp : p = 0 := by
        by_contra hne
        obtain ⟨b, hb, hlt⟩ := hmem .lt (by simp [hne])
        simp [(hhead b hb).1 hlt] at ha
      subst hp
      exact ⟨0, k + 1, m, by simpa [EqualRun, ha, replicate_succ] using hrun⟩
    | gt =>
      have hp : p = 0 := by
        by_contra hne
        obtain ⟨b, hb, hlt⟩ := hmem .lt (by simp [hne])
        simp [(hhead b hb).1 hlt] at ha
      have hk : k = 0 := by
        by_contra hne
        obtain ⟨b, hb, heq⟩ := hmem .eq (by simp [hne])
        simp [(hhead b hb).2 ha] at heq
      subst hp hk
      exact ⟨0, 0, m + 1, by simpa [EqualRun, ha, replicate_succ] using hrun⟩

namespace EqualRun

variable (hrun : EqualRun cmp list p k m) {i lo hi : ℤ}
include hrun

theorem length_eq : list.length = p + k + m := by
  simpa [Nat.add_assoc] using congrArg List.length hrun

theorem getElem?_map (i : ℕ) : list[i]?.map cmp =
    if i < p then some .lt else if i < p + k then some .eq else if i < p + k + m then some .gt
    else none := by
  rw [← List.getElem?_map, hrun]
  simp only [List.getElem?_append, List.getElem?_replicate, length_append,
    length_replicate]
  grind

theorem cmpAt_lt (hlo : 0 ≤ i) (hhi : i < p) : cmpAt cmp list i = some .lt := by
  simp only [cmpAt, hlo, if_true, hrun.getElem?_map]
  grind

theorem cmpAt_eq (hlo : p ≤ i) (hhi : i < p + k) : cmpAt cmp list i = some .eq := by
  have hpos : 0 ≤ i := by omega
  simp only [cmpAt, hpos, if_true, hrun.getElem?_map]
  grind

theorem cmpAt_gt (hlo : p + k ≤ i) (hhi : i < p + k + m) : cmpAt cmp list i = some .gt := by
  have hpos : 0 ≤ i := by omega
  simp only [cmpAt, hpos, if_true, hrun.getElem?_map]
  grind

theorem idxFirstLoop_eq (hk : 0 < k) (h0 : 0 ≤ lo) (hlo : lo ≤ p) (hp : p ≤ hi + 1)
    (hhi : hi ≤ p + k) : idxFirstLoop cmp list lo hi = some (p : ℤ) := by
  induction lo, hi using idxFirstLoop.induct cmp list with
  | case1 lo hi h mid hmid ih =>
    have hge : p ≤ mid := by
      by_contra hlt
      simp [hrun.cmpAt_lt (i := mid) (by omega) (by omega)] at hmid
    rw [idxFirstLoop, if_pos h]
    simp only [mid, hmid] at ih ⊢
    exact ih h0 hlo (by omega) (by omega)
  | case2 lo hi h mid hmid ih =>
    have hlt : mid < p := by
      by_contra hge
      simp [hrun.cmpAt_eq (i := mid) (by omega) (by omega)] at hmid
    rw [idxFirstLoop, if_pos h]
    simp only [mid, hmid] at ih ⊢
    exact ih (by omega) (by omega) hp hhi
  | case3 lo hi h mid hne hnl =>
    exfalso
    by_cases hlt : mid < p
    · exact hnl (hrun.cmpAt_lt (by omega) hlt)
    · exact hne (hrun.cmpAt_eq (by omega) (by omega))
  | case4 lo hi h =>
    rw [idxFirstLoop, if_neg h]
    congr 1
    omega

theorem idxLastLoop_eq (hlo : p ≤ lo) (hk : lo ≤ p + k) (hhi : p + k ≤ hi + 1)
    (hm : hi < p + k + m) : idxLastLoop cmp list lo hi = some ((p : ℤ) + k - 1) := by
  induction lo, hi using idxLastLoop.induct cmp list with
  | case1 lo hi h mid hmid ih =>
    have hlt : mid < p + k := by
      by_contra hge
      simp [hrun.cmpAt_gt (i := mid) (by omega) (by omega)] at hmid
    rw [idxLastLoop, if_pos h]
    simp only [mid, hmid] at ih ⊢
    exact ih (by omega) (by omega) hhi hm
  | case2 lo hi h mid hmid ih =>
    have hge : p + k ≤ mid := by
      by_contra hlt
      simp [hrun.cmpAt_eq (i := mid) (by omega) (by omega)] at hmid
    rw [idxLastLoop, if_pos h]
    simp only [mid, hmid] at ih ⊢
    exact ih hlo hk (by omega) (by omega)
  | case3 lo hi h mid hne hng =>
    exfalso
    by_cases hlt : mid < p + k
    · exact hne (hrun.cmpAt_eq (by omega) hlt)
    · exact hng (hrun.cmpAt_gt (by omega) (by omega))
  | case4 lo hi h =>
    rw [idxLastLoop, if_neg h]
    congr 1
    omega

variable {wantFirst wantLast : Bool}

/-- With bounds on the two sides of the run, the loops end with an index of the run, or with the
place where it would be. -/
theorem bsearchLoops_eq (h0 : 0 ≤ lo) (hlo : lo ≤ p) (hhi : p + k ≤ hi + 1) (hm : hi < p + k + m) :
    (k = 0 ∧ ptrarrayFindBsearchLoop cmp list lo hi = some (-(p : ℤ) - 1) ∧
      ptrarrayFindBsearchRangeLoop cmp list wantFirst wantLast lo hi =
        some ⟨-p - 1, if wantFirst then some (-(p : ℤ) - 1) else none,
          if wantLast then some (-(p : ℤ) - 1) else none⟩) ∨
      ∃ i : ℕ, p ≤ i ∧ i < p + k ∧ ptrarrayFindBsearchLoop cmp list lo hi = some (i : ℤ) ∧
        ptrarrayFindBsearchRangeLoop cmp list wantFirst wantLast lo hi =
          some ⟨i, if wantFirst then some (p : ℤ) else none,
            if wantLast then some ((p : ℤ) + k - 1) else none⟩ := by
  induction lo, hi using ptrarrayFindBsearchLoop.induct cmp list with
  | case1 lo hi h mid hmid =>
    right
    have hge : p ≤ mid := by
      by_contra hlt
      simp [hrun.cmpAt_lt (i := mid) (by omega) (by omega)] at hmid
    have hlt : mid < p + k := by
      by_contra hge
      simp [hrun.cmpAt_gt (i := mid) (by omega) (by omega)] at hmid
    have hnat : (mid.toNat : ℤ) = mid := by omega
    have hfirst : idxFirstLoop cmp list lo (mid + 1) = some (p : ℤ) :=
      hrun.idxFirstLoop_eq (by omega) h0 hlo (by omega) (by omega)
    have hlast : idxLastLoop cmp list (mid + 1) hi = some ((p : ℤ) + k - 1) :=
      hrun.idxLastLoop_eq (by omega) (by omega) hhi hm
    refine ⟨mid.toNat, by omega, by omega, ?_, ?_⟩
    · rw [ptrarrayFindBsearchLoop, if_pos h, hnat]
      simp only [mid] at hmid ⊢
      simp only [hmid]
    · rw [ptrarrayFindBsearchRangeLoop, if_pos h, hnat]
      simp only [mid] at hmid hfirst hlast ⊢
      simp only [hmid, hfirst, hlast]
      cases wantFirst <;> cases wantLast <;> rfl
  | case2 lo hi h mid hmid ih =>
    have hlt : mid < p := by
      by_contra hge
      by_cases hk : mid < p + k
      · simp [hrun.cmpAt_eq (i := mid) (by omega) hk] at hmid
      · simp [hrun.cmpAt_gt (i := mid) (by omega) (by omega)] at hmid
    rw [ptrarrayFindBsearchLoop, ptrarrayFindBsearchRangeLoop, if_pos h, if_pos h]
    simp only [mid, hmid] at ih ⊢
    exact ih (by omega) (by omega) hhi hm
  | case3 lo hi h mid hmid ih =>
    have hge : p + k ≤ mid := by
      by_contra hlt
      by_cases hp : mid < p
      · simp [hrun.cmpAt_lt (i := mid) (by omega) hp] at hmid
      · simp [hrun.cmpAt_eq (i := mid) (by omega) (by omega)] at hmid
    rw [ptrarrayFindBsearchLoop, ptrarrayFindBsearchRangeLoop, if_pos h, if_pos h]
    simp only [mid, hmid] at ih ⊢
    exact ih h0 hlo (by omega) (by omega)
  | case4 lo hi h mid hmid =>
    exfalso
    by_cases hp : mid < p
    · simp [hrun.cmpAt_lt (i := mid) (by omega) hp] at hmid
    · by_cases hk : mid < p + k
      · simp [hrun.cmpAt_eq (i := mid) (by omega) hk] at hmid
      · simp [hrun.cmpAt_gt (i := mid) (by omega) (by omega)] at hmid
  | case5 lo hi h =>
    left
    have hend : lo = p := by omega
    rw [ptrarrayFindBsearchLoop, ptrarrayFindBsearchRangeLoop, if_neg h, if_neg h, hend]
    exact ⟨by omega, rfl, rfl⟩

theorem mem_eq_iff (i : ℕ) :
    (∃ a, list[i]? = some a ∧ cmp a = .eq) ↔ p ≤ i ∧ i < p + k := by
  have hget := hrun.getElem?_map i
  rw [← Option.map_eq_some_iff, hget]
  grind

theorem arrayFindBsearch_eq (hsorted : SortedFor cmp list) :
    (k = 0 ∧ arrayFindBsearch cmp list = -p - 1) ∨
      ∃ i : ℕ, p ≤ i ∧ i < p + k ∧ arrayFindBsearch cmp list = i := by
  have hlen := hrun.length_eq
  rcases arrayFindBsearch_spec hsorted with ⟨i, a, hfind, ha, heq⟩ | ⟨q, hfind, hq, hlow, hhigh⟩
  · right
    have hi := (hrun.mem_eq_iff i).mp ⟨a, ha, heq⟩
    exact ⟨i, hi.1, hi.2, hfind⟩
  · left
    have hsmall : ∀ i < q, i < p := by
      intro i hi
      have hlt := hlow i _ hi (List.getElem?_eq_getElem (by omega))
      have hget := hrun.getElem?_map i
      rw [List.getElem?_eq_getElem (by omega), Option.map_some, hlt] at hget
      grind
    have hlarge : ∀ i < list.length, q ≤ i → p + k ≤ i := by
      intro i hi hqi
      have hgt := hhigh i _ hqi (List.getElem?_eq_getElem hi)
      have hget := hrun.getElem?_map i
      rw [List.getElem?_eq_getElem hi, Option.map_some, hgt] at hget
      grind
    have hqp : q ≤ p := by
      by_contra hlt
      exact absurd (hsmall p (by omega)) (by omega)
    have hpq : p + k ≤ q := by
      by_contra hlt
      exact absurd (hlarge q (by omega) (by omega)) (by omega)
    obtain rfl : q = p := by omega
    exact ⟨by omega, hfind⟩

end EqualRun

section Needle

variable {cmp : α → α → Ordering} [Std.TransCmp cmp] {needle : α}

theorem sortedFor_needle (hsorted : list.Pairwise fun a b => (cmp a b).isLE) :
    SortedFor (cmp · needle) list := by
  apply hsorted.imp
  intro a b hab
  exact ⟨Std.TransCmp.lt_of_isLE_of_lt hab, fun hgt => by
    have hlt : cmp needle a = .lt := Std.OrientedCmp.lt_of_gt hgt
    exact Std.OrientedCmp.gt_of_lt (Std.TransCmp.lt_of_lt_of_isLE hlt hab)⟩

/-- The list stays sorted if and only if the needle is put between the smaller and the larger
elements. -/
theorem EqualRun.insert_sorted_iff (hrun : EqualRun (cmp · needle) list p 0 m)
    (hsorted : list.Pairwise fun a b => (cmp a b).isLE) {i : ℕ} (hi : i ≤ list.length) :
    ((list.take i ++ needle :: list.drop i).Pairwise fun a b => (cmp a b).isLE) ↔ i = p := by
  have hlen := hrun.length_eq
  have hcmp (j : ℕ) (hj : j < list.length) :
      cmp list[j] needle = if j < p then .lt else .gt := by
    have hget := hrun.getElem?_map j
    rw [List.getElem?_eq_getElem hj, Option.map_some] at hget
    grind
  constructor
  · intro h
    obtain ⟨-, hdrop, hcross⟩ := pairwise_append.mp h
    by_contra hne
    rcases Nat.lt_or_gt_of_ne hne with hlt | hgt
    · have hmem : list[i] ∈ list.drop i := by
        rw [drop_eq_getElem_cons (by omega)]
        exact mem_cons_self
      have hle := (pairwise_cons.mp hdrop).1 _ hmem
      have hgt : cmp needle list[i] = .gt := Std.OrientedCmp.gt_of_lt (by simp [hcmp, hlt])
      simp [hgt] at hle
    · have hmem : list[p] ∈ list.take i :=
        mem_take_iff_getElem.mpr ⟨p, by omega, rfl⟩
      have hle := hcross _ hmem needle mem_cons_self
      simp [hcmp] at hle
  · rintro rfl
    have hsplit : (list.take i ++ list.drop i).Pairwise fun a b => (cmp a b).isLE := by
      simpa only [take_append_drop] using hsorted
    obtain ⟨htake, hdrop, hcross⟩ := pairwise_append.mp hsplit
    have hbefore : ∀ a ∈ list.take i, (cmp a needle).isLE := by
      intro a ha
      obtain ⟨j, hj, rfl⟩ := mem_take_iff_getElem.mp ha
      have hji : j < i := by omega
      simp [hcmp, hji]
    have hafter : ∀ b ∈ list.drop i, (cmp needle b).isLE := by
      intro b hb
      obtain ⟨j, hj, rfl⟩ := mem_drop_iff_getElem.mp hb
      have hlt : cmp needle list[i + j] = .lt := Std.OrientedCmp.lt_of_gt (by simp [hcmp])
      simp [hlt]
    apply pairwise_append.mpr
    refine ⟨htake, pairwise_cons.mpr ⟨hafter, hdrop⟩, ?_⟩
    intro a ha b hb
    cases hb with
    | head => exact hbefore a ha
    | tail _ hb => exact hcross a ha b hb

/-- In a sorted list, the search for a range ends without reading outside of the list. It returns
a negative number if and only if no element is equal, which is then the inverse of the only place
where the needle can be inserted, and else an index of an equal element with the first and the last
one. The other two functions return such an index or the same inverse. -/
theorem ptrarrayFindBsearchRange_exact (cmp : α → α → Ordering) [Std.TransCmp cmp] (list : List α)
    (hsorted : list.Pairwise fun a b => (cmp a b).isLE) (needle : α) (wantFirst wantLast : Bool) :
    ∃ r, ptrarrayFindBsearchRange (cmp · needle) list wantFirst wantLast = some r ∧
      (r.idx < 0 ↔ ∀ a ∈ list, cmp a needle ≠ .eq) ∧
      (r.idx < 0 →
        r.outIdxFirst = (if wantFirst then some r.idx else none) ∧
        r.outIdxLast = (if wantLast then some r.idx else none) ∧
        ptrarrayFindBsearch (cmp · needle) list = some r.idx ∧
        arrayFindBsearch (cmp · needle) list = r.idx ∧
        0 ≤ -r.idx - 1 ∧ -r.idx - 1 ≤ list.length ∧
        ∀ i ≤ list.length,
          ((list.take i ++ needle :: list.drop i).Pairwise fun a b => (cmp a b).isLE) ↔
            (i : ℤ) = -r.idx - 1) ∧
      (0 ≤ r.idx → ∃ first last : ℕ,
        r.outIdxFirst = (if wantFirst then some (first : ℤ) else none) ∧
        r.outIdxLast = (if wantLast then some (last : ℤ) else none) ∧
        first ≤ r.idx ∧ r.idx ≤ last ∧
        (∀ i : ℕ, (∃ a, list[i]? = some a ∧ cmp a needle = .eq) ↔ first ≤ i ∧ i ≤ last) ∧
        (∃ i : ℕ, first ≤ i ∧ i ≤ last ∧
          ptrarrayFindBsearch (cmp · needle) list = some (i : ℤ)) ∧
        ∃ i : ℕ, first ≤ i ∧ i ≤ last ∧ arrayFindBsearch (cmp · needle) list = i) := by
  have hfor : SortedFor (cmp · needle) list := sortedFor_needle hsorted
  obtain ⟨p, k, m, hrun⟩ := hfor.equalRun
  have hlen := hrun.length_eq
  have hany : (∀ a ∈ list, cmp a needle ≠ .eq) ↔ k = 0 := by
    constructor
    · intro h
      by_contra hne
      obtain ⟨a, ha, heq⟩ := (hrun.mem_eq_iff p).mpr ⟨Nat.le_refl p, by omega⟩
      exact h a (mem_of_getElem? ha) heq
    · rintro rfl a ha heq
      obtain ⟨i, hi⟩ := List.getElem?_of_mem ha
      have := (hrun.mem_eq_iff i).mp ⟨a, hi, heq⟩
      omega
  rcases hrun.bsearchLoops_eq (Int.le_refl 0) (by omega)
      (show (p + k : ℤ) ≤ list.length - 1 + 1 by omega) (by omega) with ⟨rfl, hptr, hrange⟩ | ⟨i, hpi, hik, hptr, hrange⟩
  · have harray : arrayFindBsearch (cmp · needle) list = -p - 1 := by
      obtain ⟨-, h⟩ | ⟨i, hpi, hik, -⟩ := hrun.arrayFindBsearch_eq hfor
      · exact h
      · omega
    have hneg : -(p : ℤ) - 1 < 0 := by omega
    refine ⟨_, hrange, iff_of_true hneg (hany.mpr rfl), ?_, fun hpos => absurd hneg (Int.not_lt.mpr hpos)⟩
    intro _
    refine ⟨rfl, rfl, hptr, harray, ?_, ?_, ?_⟩
    · dsimp only
      omega
    · dsimp only
      omega
    · intro j hj
      rw [hrun.insert_sorted_iff hsorted hj]
      dsimp only
      omega
  · have hpos : ¬(i : ℤ) < 0 := by omega
    have hcast : ((p + k - 1 : ℕ) : ℤ) = (p : ℤ) + k - 1 := by omega
    have hfound : ¬∀ a ∈ list, cmp a needle ≠ .eq := by
      rw [hany]
      omega
    refine ⟨_, hrange, iff_of_false hpos hfound, fun hneg => absurd hneg hpos, fun _ => ?_⟩
    refine ⟨p, p + k - 1, rfl, by rw [hcast], ?_, ?_, ?_, ⟨i, hpi, by omega, hptr⟩, ?_⟩
    · exact Int.ofNat_le.mpr hpi
    · rw [hcast]
      dsimp only
      omega
    · intro j
      rw [hrun.mem_eq_iff]
      omega
    · obtain ⟨hzero, -⟩ | ⟨j, hpj, hjk, hfind⟩ := hrun.arrayFindBsearch_eq hfor
      · omega
      · exact ⟨j, hpj, by omega, hfind⟩

theorem ptrarrayFindBsearchRange_exact_run :
    ([1, 2, 2, 2, 3] : List ℕ).Pairwise (fun a b => (compare a b).isLE) ∧
      ∃ r, ptrarrayFindBsearchRange (compare · 2) [1, 2, 2, 2, 3] true true = some r ∧
        (r.idx < 0 ↔ ∀ a ∈ [1, 2, 2, 2, 3], compare a 2 ≠ .eq) := by
  have hsorted : ([1, 2, 2, 2, 3] : List ℕ).Pairwise (fun a b => (compare a b).isLE) := by decide
  obtain ⟨r, hr, hneg, -⟩ :=
    ptrarrayFindBsearchRange_exact (compare : ℕ → ℕ → Ordering) [1, 2, 2, 2, 3] hsorted 2 true true
  exact ⟨hsorted, r, hr, hneg⟩

end Needle

end NetworkManager.GlibAux
