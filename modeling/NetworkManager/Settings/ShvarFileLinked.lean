import NetworkManager.Settings.ShvarFile

/-!
# The index of an ifcfg-rh file

The index leads to the last line with a key, and from there every line leads to the one before it
with the same key. So setting a value finds that line, and frees the other ones.
-/

namespace NetworkManager.Settings

open Lib
open List hiding lookup_append lookup_cons lookup_nil

variable {key key' : Bytes} {lines lines' : List ShvarLine} {l : ShvarLine}
  {f : ShvarLine → ShvarLine} {before after : List ShvarLine} {l' : ShvarLine}

/-! ## The last line with a key -/

def lastOf (key : Bytes) (lines : List ShvarLine) : Option ShvarLine :=
  lines.reverse.find? fun l => l.key = some key

theorem lastOf_append :
    lastOf key (lines ++ lines') = (lastOf key lines').or (lastOf key lines) := by
  simp [lastOf, List.find?_append]

theorem lastOf_singleton : lastOf key [l] = if l.key = some key then some l else none := by
  by_cases h : l.key = some key <;> simp [lastOf, h]

theorem lastOf_concat_of_pos (h : l.key = some key) : lastOf key (lines ++ [l]) = some l := by
  rw [lastOf_append, lastOf_singleton, if_pos h]
  rfl

theorem lastOf_concat_of_neg (h : l.key ≠ some key) :
    lastOf key (lines ++ [l]) = lastOf key lines := by
  rw [lastOf_append, lastOf_singleton, if_neg h]
  rfl

theorem lastOf_eq_none : lastOf key lines = none ↔ ∀ l ∈ lines, l.key ≠ some key := by
  simp [lastOf]

theorem exists_of_lastOf (h : lastOf key lines = some l) :
    ∃ before after, lines = before ++ l :: after ∧ l.key = some key ∧
      ∀ x ∈ after, x.key ≠ some key := by
  obtain ⟨hl, after, before, hlines, hafter⟩ := List.find?_eq_some_iff_append.mp h
  refine ⟨before.reverse, after.reverse, ?_, by simpa using hl, fun x hx => ?_⟩
  · rw [← reverse_reverse lines, hlines]
    simp
  · simpa using hafter x (mem_reverse.mp hx)

theorem lastOf_map (hf : ∀ l, (f l).key = l.key) :
    lastOf key (lines.map f) = (lastOf key lines).map f := by
  simp only [lastOf, ← map_reverse, List.find?_map]
  congr 2
  funext l
  simp [hf]

def otherLines (key : Bytes) (lines : List ShvarLine) : List ShvarLine :=
  lines.filter fun l => l.key ≠ some key

theorem lastOf_otherLines (h : key' ≠ key) :
    lastOf key' (otherLines key lines) = lastOf key' lines := by
  simp only [lastOf, otherLines, ← filter_reverse, List.find?_filter]
  congr 1
  funext l
  by_cases hl : l.key = some key'
  · simp [hl, h]
  · simp [hl]

theorem otherLines_append : otherLines key (lines ++ lines') =
    otherLines key lines ++ otherLines key lines' := filter_append ..

theorem lastOf_middle (hl : l.key = some key) (hafter : ∀ x ∈ after, x.key ≠ some key)
    : lastOf key (before ++ l :: after) = some l := by
  have hnone : lastOf key after = none := lastOf_eq_none.mpr hafter
  have hsplit : before ++ l :: after = before ++ [l] ++ after := by simp
  rw [hsplit, lastOf_append, hnone, Option.none_or, lastOf_concat_of_pos hl]

theorem otherLines_middle (hl : l.key = some key) (hl' : l'.key = some key) :
    otherLines key (otherLines key before ++ l' :: after) =
      otherLines key (before ++ l :: after) := by
  simp [otherLines, hl, hl']

/-! ## The lines it shadows -/

/-- Every line leads to the one that it shadows. -/
inductive Chained : List ShvarLine → Prop
  | nil : Chained []
  | concat {lines : List ShvarLine} {l : ShvarLine} (h : Chained lines)
      (hl : ∀ key ∈ l.key, l.prevShadowed = (lastOf key lines).map ShvarLine.id) :
      Chained (lines ++ [l])

theorem chained_concat_iff : Chained (lines ++ [l]) ↔
    Chained lines ∧ ∀ key ∈ l.key, l.prevShadowed = (lastOf key lines).map ShvarLine.id := by
  constructor
  · intro h
    generalize hall : lines ++ [l] = all at h
    cases h with
    | nil => exact absurd hall (concat_ne_nil l lines)
    | concat h hl =>
      obtain ⟨rfl, hlast⟩ := append_inj' hall rfl
      obtain rfl := singleton_inj.mp hlast
      exact ⟨h, hl⟩
  · exact fun h => .concat h.1 h.2

theorem Chained.of_append (h : Chained (lines ++ lines')) : Chained lines := by
  induction lines' using List.reverseRecOn with
  | nil => rwa [append_nil] at h
  | append_singleton lines' l ih =>
    rw [← append_assoc] at h
    exact ih (chained_concat_iff.mp h).1

theorem Chained.map (h : Chained lines) (hkey : ∀ l, (f l).key = l.key) (hid : ∀ l, (f l).id = l.id)
    (hprev : ∀ l, (f l).prevShadowed = l.prevShadowed) : Chained (lines.map f) := by
  induction h with
  | nil => exact .nil
  | @concat lines l _ hl ih =>
    rw [map_append, map_singleton]
    refine .concat ih fun key hk => ?_
    rw [hkey] at hk
    rw [hprev, hl key hk, lastOf_map hkey, Option.map_map]
    congr 1
    funext l
    exact (hid l).symm

theorem Chained.otherLines (h : Chained lines) (key : Bytes) :
    Chained (otherLines key lines) := by
  induction h with
  | nil => exact .nil
  | @concat lines l _ hl ih =>
    rw [otherLines_append]
    by_cases hk : l.key = some key
    · have hnil : Settings.otherLines key [l] = [] := by simp [Settings.otherLines, hk]
      rwa [hnil, append_nil]
    · have hself : Settings.otherLines key [l] = [l] := by simp [Settings.otherLines, hk]
      rw [hself]
      refine .concat ih fun key' hk' => ?_
      have hne : key' ≠ key := by
        rintro rfl
        exact hk hk'
      rw [hl key' hk', lastOf_otherLines hne]

theorem Chained.freeShadowed (h : Chained lines) (hunique : KeyUnique ShvarLine.id (lines ++ lines')) :
    freeShadowed (lines ++ lines') ((lastOf key lines).map ShvarLine.id) =
      Settings.otherLines key lines ++ lines' := by
  induction h generalizing lines' with
  | nil =>
    rw [lastOf_eq_none.mpr fun l hl => absurd hl not_mem_nil, Option.map_none,
      Settings.freeShadowed]
    rfl
  | @concat lines l _ hl ih =>
    have hsame : lines ++ [l] ++ lines' = lines ++ l :: lines' := by simp
    rw [hsame] at hunique ⊢
    by_cases hk : l.key = some key
    · have hlookup : lookup ShvarLine.id l.id (lines ++ l :: lines') = some l :=
        lookup_of_mem hunique (by simp)
      have hsplit := hunique
      simp only [KeyUnique, map_append, map_cons] at hsplit
      have hnodup := nodup_middle.mp hsplit
      have hnot : ∀ x ∈ lines ++ lines', x.id ≠ l.id := by
        intro x hx hid
        apply (nodup_cons.mp hnodup).1
        rw [← map_append, ← hid]
        exact mem_map_of_mem hx
      have herase : eraseKey ShvarLine.id l.id (lines ++ l :: lines') = lines ++ lines' := by
        rw [eraseKey, filter_append, filter_cons_of_neg (by simp),
          ← filter_append, filter_eq_self]
        intro x hx
        simpa using hnot x hx
      have hrest : KeyUnique ShvarLine.id (lines ++ lines') := by
        rw [KeyUnique, map_append]
        exact (nodup_cons.mp hnodup).2
      have hnil : Settings.otherLines key [l] = [] := by simp [Settings.otherLines, hk]
      rw [lastOf_concat_of_pos hk, Option.map_some, Settings.freeShadowed]
      split
      · simp_all
      · next x hx =>
        obtain rfl : l = x := Option.some.inj (hlookup.symm.trans hx)
        rw [herase, hl key hk, ih hrest, otherLines_append, hnil, append_nil]
    · have hself : Settings.otherLines key [l] = [l] := by simp [Settings.otherLines, hk]
      rw [lastOf_concat_of_neg hk, ih hunique, otherLines_append, hself, append_assoc]
      rfl

/-! ## The index -/

/-- The index leads to the last line of each key, and that one to those that it shadows. -/
structure ShvarFile.Linked (s : ShvarFile) : Prop where
  unique : KeyUnique ShvarLine.id s.lines
  fresh : ∀ l ∈ s.lines, l.id < s.nextId
  index : ∀ key, (lookup Prod.fst key s.lstIdx).map Prod.snd =
    (lastOf key s.lines).map ShvarLine.id
  chained : Chained s.lines

variable {s : ShvarFile} {s' : ShvarFile}

theorem mem_of_lastOf (h : lastOf key lines = some l) : l ∈ lines ∧ l.key = some key := by
  obtain ⟨before, after, rfl, hl, -⟩ := exists_of_lastOf h
  exact ⟨by simp, hl⟩

theorem ShvarFile.Linked.findLine (h : s.Linked) (key : Bytes) :
    s.findLine key = lastOf key s.lines := by
  have hindex := h.index key
  unfold ShvarFile.findLine
  cases hlast : lastOf key s.lines with
  | none =>
    rw [hlast, Option.map_none, Option.map_eq_none_iff] at hindex
    rw [hindex]
    rfl
  | some l =>
    rw [hlast, Option.map_some, Option.map_eq_some_iff] at hindex
    obtain ⟨e, he, hid⟩ := hindex
    rw [he, Option.bind_some, hid]
    exact lookup_of_mem h.unique (mem_of_lastOf hlast).1

theorem modifyKey_middle (hunique : KeyUnique ShvarLine.id (before ++ l :: after)) :
    modifyKey ShvarLine.id l.id f (before ++ l :: after) = before ++ f l :: after := by
  have hnot (lines : List ShvarLine) (h : ∀ x ∈ lines, x.id ≠ l.id) :
      modifyKey ShvarLine.id l.id f lines = lines := by
    rw [modifyKey, map_congr_left (g := id), map_id]
    intro x hx
    rw [if_neg (h x hx)]
    rfl
  simp only [KeyUnique, map_append, map_cons] at hunique
  have hnodup := (nodup_cons.mp (nodup_middle.mp hunique)).1
  rw [mem_append, not_or] at hnodup
  have hbefore := hnot before fun x hx hid => hnodup.1 (hid ▸ mem_map_of_mem hx)
  have hafter := hnot after fun x hx hid => hnodup.2 (hid ▸ mem_map_of_mem hx)
  rw [modifyKey, map_append, map_cons, if_pos rfl]
  exact congrArg₂ _ hbefore (congrArg _ hafter)

/-- What setting the value makes of the line that was found. -/
def setLine (l : ShvarLine) (value : Option Bytes) : ShvarLine :=
  match value with
  | none => { l with line := none, prevShadowed := none }
  | some value =>
    { l with indent := [], line := some (svEscape value), dirty := false, prevShadowed := none }

theorem lineSet_fst (l : ShvarLine) (value : Bytes) :
    { (lineSet l value).1 with prevShadowed := none } = setLine l (some value) := by
  unfold lineSet setLine
  dsimp only
  split_ifs with hline
  · rw [hline]
  · rfl

theorem setLine_key (l : ShvarLine) (value : Option Bytes) : (setLine l value).key = l.key := by
  cases value <;> rfl

theorem setLine_id (l : ShvarLine) (value : Option Bytes) : (setLine l value).id = l.id := by
  cases value <;> rfl

theorem setLine_prevShadowed (l : ShvarLine) (value : Option Bytes) :
    (setLine l value).prevShadowed = none := by
  cases value <;> rfl

/-- The file after `svSetValue()`: nothing, a new line at the end, or the last line of the key in
place of all of its lines. -/
theorem ShvarFile.Linked.svSetValue_cases (h : s.Linked) (key : Bytes) (value : Option Bytes) :
    (lastOf key s.lines = none ∧ value = none ∧ (svSetValue s key value).1 = s) ∨
      (∃ v, lastOf key s.lines = none ∧ value = some v ∧
        (svSetValue s key value).1 =
          ⟨s.lines ++ [lineNewBuild s.nextId key v], s.lstIdx ++ [(key, s.nextId)], s.nextId + 1,
            true⟩) ∨
      ∃ before l after, s.lines = before ++ l :: after ∧ l.key = some key ∧
        (∀ x ∈ after, x.key ≠ some key) ∧
        (svSetValue s key value).1.lines =
          otherLines key before ++ setLine l value :: after ∧
        (svSetValue s key value).1.lstIdx = s.lstIdx ∧
        (svSetValue s key value).1.nextId = s.nextId := by
  have hfind := h.findLine key
  cases hlast : lastOf key s.lines with
  | none =>
    rw [hlast] at hfind
    cases value with
    | none => exact .inl ⟨rfl, rfl, by simp [svSetValue, hfind]⟩
    | some v => exact .inr (.inl ⟨v, rfl, rfl, by simp [svSetValue, hfind]⟩)
  | some l =>
    rw [hlast] at hfind
    obtain ⟨before, after, hlines, hl, hafter⟩ := exists_of_lastOf hlast
    refine .inr (.inr ⟨before, l, after, hlines, hl, hafter, ?_⟩)
    have hunique := h.unique
    have hchain := h.chained
    rw [hlines] at hunique hchain
    have hclear := modifyKey_middle (f := fun l => { l with prevShadowed := none }) hunique
    -- the line itself does not lead to the ones that are freed any more
    have hids : ∀ l' : ShvarLine, l'.id = l.id →
        KeyUnique ShvarLine.id (before ++ l' :: after) := by
      intro l' hid
      simpa [KeyUnique, hid] using hunique
    have hsplit : before ++ l :: after = before ++ [l] ++ after := by simp
    rw [hsplit] at hchain
    have hprev := (chained_concat_iff.mp hchain.of_append).2 key hl
    have hfree := @Chained.freeShadowed key _ _ (chained_concat_iff.mp hchain.of_append).1
      (hids { l with prevShadowed := none } rfl)
    have hrest : KeyUnique ShvarLine.id
        (otherLines key before ++ { l with prevShadowed := none } :: after) :=
      (hids { l with prevShadowed := none } rfl).sublist (filter_sublist.append (List.Sublist.refl _))
    have hset (x : ShvarLine) := modifyKey_middle (f := fun _ => x) hrest
    rw [← hprev] at hfree
    cases value with
    | none =>
      simp only [svSetValue, hfind, hlines, hclear, hfree]
      exact ⟨hset _, trivial, trivial⟩
    | some v =>
      simp only [svSetValue, hfind, hlines, hclear, hfree, lineSet_fst]
      exact ⟨hset _, trivial, trivial⟩

/-! ## The index is kept -/

theorem linked_empty : ShvarFile.Linked ⟨[], [], 0, false⟩ :=
  ⟨unique_nil, fun _ h => absurd h not_mem_nil, fun _ => rfl, .nil⟩

theorem ShvarFile.Linked.concat (h : s.Linked) (hid : l.id = s.nextId)
    (hlines : s'.lines = s.lines ++ [l]) (hnext : s'.nextId = s.nextId + 1)
    (hprev : ∀ key ∈ l.key, l.prevShadowed = (lastOf key s.lines).map ShvarLine.id)
    (hindex : ∀ key, (lookup Prod.fst key s'.lstIdx).map Prod.snd = if l.key = some key then some l.id else (lookup Prod.fst key s.lstIdx).map Prod.snd) :
    s'.Linked := by
  refine ⟨?_, ?_, ?_, ?_⟩
  · rw [hlines]
    refine h.unique.append_singleton fun x hx => ?_
    have hlt := h.fresh x hx
    omega
  · intro x hx
    rw [hlines] at hx
    rw [hnext]
    rcases mem_append.mp hx with hx | hx
    · exact Nat.lt_succ_of_lt (h.fresh x hx)
    · rw [mem_singleton.mp hx, hid]
      exact Nat.lt_succ_self _
  · intro key
    rw [hindex, hlines]
    by_cases hk : l.key = some key
    · rw [if_pos hk, lastOf_concat_of_pos hk]
      rfl
    · rw [if_neg hk, lastOf_concat_of_neg hk, h.index]
  · rw [hlines]
    exact .concat h.chained hprev

theorem lineNewParse_id (id : ℕ) (value : Bytes) : (lineNewParse id value).id = id := by
  unfold lineNewParse
  split <;> rfl

theorem lineNewParse_prevShadowed (id : ℕ) (value : Bytes) :
    (lineNewParse id value).prevShadowed = none := by
  unfold lineNewParse
  split <;> rfl

theorem lineLinkParse_lines (s : ShvarFile) (value : Bytes) :
    ∃ prev, (lineLinkParse s value).lines =
      s.lines ++ [{ lineNewParse s.nextId value with prevShadowed := prev }] := by
  unfold lineLinkParse
  dsimp only
  split
  · refine ⟨none, ?_⟩
    have hprev := lineNewParse_prevShadowed s.nextId value
    rw [← hprev]
  · exact ⟨_, rfl⟩

theorem ShvarFile.Linked.lineLinkParse (h : s.Linked) (value : Bytes) :
    (lineLinkParse s value).Linked := by
  have hid := lineNewParse_id s.nextId value
  unfold Settings.lineLinkParse
  dsimp only
  split
  · next hkey =>
    exact h.concat hid rfl rfl (by simp [hkey]) (by simp [hkey])
  · next key hkey =>
    refine h.concat (l := { lineNewParse s.nextId value with
      prevShadowed := (lookup Prod.fst key s.lstIdx).map Prod.snd }) hid rfl rfl ?_ ?_
    · intro key' hk
      obtain rfl : key = key' := Option.some.inj (hkey.symm.trans hk)
      exact h.index key
    · intro key'
      rw [lookup_put]
      by_cases hk : key' = key
      · simp [hk, hkey]
      · simp [hk, hkey, Ne.symm hk]

theorem linked_svFileNew (content : Bytes) : (svFileNew content).Linked := by
  have hfold (values : List Bytes) (s : ShvarFile) (h : s.Linked) :
      (values.foldl lineLinkParse s).Linked := by
    induction values generalizing s with
    | nil => exact h
    | cons value values ih => exact ih _ (h.lineLinkParse value)
  exact hfold _ _ linked_empty

theorem chained_middle (h : Chained (before ++ l :: after)) (hl : l.key = some key)
    (hl' : l'.key = some key) (hprev : l'.prevShadowed = none)
    (hafter : ∀ x ∈ after, x.key ≠ some key) : Chained (otherLines key before ++ l' :: after) := by
  induction after using List.reverseRecOn with
  | nil =>
    have hnone : lastOf key (otherLines key before) = none := by
      rw [lastOf_eq_none]
      intro x hx
      simpa using of_mem_filter hx
    refine .concat ((chained_concat_iff.mp h).1.otherLines key) fun key' hk => ?_
    obtain rfl : key = key' := Option.some.inj (hl'.symm.trans hk)
    rw [hprev, hnone]
    rfl
  | append_singleton after x ih =>
    have hx : x.key ≠ some key := hafter x (by simp)
    have hrest := ih ?_ fun y hy => hafter y (mem_append_left [x] hy)
    · have hx' := (@chained_concat_iff (before ++ l :: after) x).mp (by simpa using h)
      have hconcat : otherLines key before ++ l' :: (after ++ [x]) =
          otherLines key before ++ l' :: after ++ [x] := by simp
      rw [hconcat]
      refine .concat hrest fun key' hk => ?_
      have hne : key' ≠ key := by
        rintro rfl
        exact hx hk
      rw [hx'.2 key' hk, ← lastOf_otherLines hne, ← otherLines_middle hl hl', lastOf_otherLines hne]
    · have hall : before ++ l :: (after ++ [x]) = (before ++ l :: after) ++ [x] := by simp
      rw [hall] at h
      exact h.of_append

theorem ShvarFile.Linked.svSetValue (h : s.Linked) (key : Bytes) (value : Option Bytes) :
    (Settings.svSetValue s key value).1.Linked := by
  rcases h.svSetValue_cases key value with ⟨-, -, heq⟩ | ⟨v, hlast, -, heq⟩ |
    ⟨before, l, after, hlines, hl, hafter, hlines', hindex', hnext'⟩
  · rwa [heq]
  · rw [heq]
    refine h.concat rfl rfl rfl ?_ ?_
    · intro key' hk
      obtain rfl : key = key' := Option.some.inj hk
      rw [hlast]
      rfl
    · intro key'
      have hnone : (lookup Prod.fst key s.lstIdx).map Prod.snd = none := by
        rw [h.index, hlast]
        rfl
      rw [Option.map_eq_none_iff] at hnone
      dsimp only [lineNewBuild]
      rw [lookup_append, lookup_cons, lookup_nil]
      by_cases hk : key = key'
      · subst hk
        simp [hnone]
      · simp [hk]
  · have hkey : (setLine l value).key = some key := (setLine_key l value).trans hl
    have hid := setLine_id l value
    have hunique := h.unique
    have hfresh := h.fresh
    have hchain := h.chained
    rw [hlines] at hunique hfresh hchain
    refine ⟨?_, ?_, ?_, ?_⟩
    · rw [hlines']
      have hsame : KeyUnique ShvarLine.id (before ++ setLine l value :: after) := by
        simpa [KeyUnique, hid] using hunique
      exact hsame.sublist (filter_sublist.append (List.Sublist.refl _))
    · intro x hx
      rw [hlines'] at hx
      rw [hnext']
      rcases mem_append.mp hx with hx | hx
      · exact hfresh x (mem_append_left _ (mem_of_mem_filter hx))
      · rcases mem_cons.mp hx with rfl | hx
        · rw [hid]
          exact hfresh l (by simp)
        · exact hfresh x (by simp [hx])
    · intro key'
      rw [hindex', h.index, hlines, hlines']
      by_cases hk : key' = key
      · subst hk
        rw [lastOf_middle hl hafter, lastOf_middle hkey hafter, Option.map_some, Option.map_some, hid]
      · rw [← @lastOf_otherLines _ _ (before ++ l :: after) hk, ← otherLines_middle hl hkey,
          lastOf_otherLines hk]
    · rw [hlines']
      exact chained_middle hchain hl hkey (setLine_prevShadowed l value) hafter

theorem ShvarFile.Linked.map (h : s.Linked) (hlines : s'.lines = s.lines.map f)
    (hidx : s'.lstIdx = s.lstIdx) (hnext : s'.nextId = s.nextId) (hkey : ∀ l, (f l).key = l.key)
    (hid : ∀ l, (f l).id = l.id) (hprev : ∀ l, (f l).prevShadowed = l.prevShadowed)
    : s'.Linked := by
  have hcomp : ShvarLine.id ∘ f = ShvarLine.id := funext hid
  refine ⟨?_, ?_, ?_, ?_⟩
  · rw [hlines, KeyUnique, map_map, hcomp]
    exact h.unique
  · intro x hx
    rw [hlines] at hx
    obtain ⟨l, hl, rfl⟩ := mem_map.mp hx
    rw [hid, hnext]
    exact h.fresh l hl
  · intro key
    rw [hidx, h.index, hlines, lastOf_map hkey, Option.map_map, hcomp]
  · rw [hlines]
    exact h.chained.map hkey hid hprev

end NetworkManager.Settings
