import NetworkManager.Settings.ShvarFileLinked

/-!
# An ifcfg-rh file as a map

What a file says about its keys is a map, and each operation on the file is an operation on that
map. Writing the file and reading it again yields the same map, and keeps the comments.
-/

namespace NetworkManager.Settings

open Lib List

/-! ## The map -/

/-- A C string that is a value. -/
abbrev CString := { s : Bytes // NulFree s }

/-- The name of a shell variable. -/
abbrev ShellName := { s : Bytes // shellIsName s }

/-- The values of the keys, and which of them were not set since they were read. -/
structure ShvarMap where
  value : Bytes → Option Bytes
  dirty : Bytes → Bool

inductive ShvarOp
  | setValue (key : ShellName) (value : CString)
  | unsetValue (key : ShellName)
  | unsetAll (keyMatchesType : Bytes → Bool)
  | unsetDirtyWellknown (clearable : Bytes → Bool) (newDirtyValue : Option Bool)

def storedValue (value : Bytes) : Bytes := if isUtf8 value then value else []

def ShvarMap.apply (m : ShvarMap) : ShvarOp → ShvarMap
  | .setValue key value =>
    ⟨Function.update m.value key (some (storedValue value)), Function.update m.dirty key false⟩
  | .unsetValue key => { m with value := Function.update m.value key none }
  | .unsetAll keyMatchesType =>
    { m with value := fun key => if keyMatchesType key then none else m.value key }
  | .unsetDirtyWellknown clearable newDirtyValue =>
    ⟨fun key => if m.dirty key ∧ clearable key then none else m.value key,
      fun key => newDirtyValue.getD (m.dirty key)⟩

def ShvarFile.apply (s : ShvarFile) : ShvarOp → ShvarFile
  | .setValue key value => (svSetValue s key (some value)).1
  | .unsetValue key => (svUnsetValue s key).1
  | .unsetAll keyMatchesType => (svUnsetAll s keyMatchesType).1
  | .unsetDirtyWellknown clearable newDirtyValue =>
    (svUnsetDirtyWellknown s clearable newDirtyValue).1

def assignedIn (key : Bytes) (texts : List Bytes) : List Bytes :=
  texts.filterMap fun text => ((parseAssignment text).filter fun a => a.1 = key).map Prod.snd

def ShvarMap.ofContent (content : Bytes) : ShvarMap :=
  ⟨fun key => (assignedIn key (textLines content)).getLast?.map readValue, fun _ => true⟩

def isComment (text : Bytes) : Bool := (skipSpaces text).head?.all (· = ('#' : UInt8))

def commentLines (content : Bytes) : List Bytes := (textLines content).filter isComment

/-! ## What the lines say -/

variable {key key' : Bytes} {lines lines' : List ShvarLine} {l : ShvarLine} {s : ShvarFile}

def assigned (key : Bytes) (lines : List ShvarLine) : List Bytes :=
  lines.filterMap fun l => if l.key = some key then l.line else none

def plainLines (lines : List ShvarLine) : List Bytes :=
  lines.filterMap fun l => if l.key = none then l.line else none

theorem assigned_append :
    assigned key (lines ++ lines') = assigned key lines ++ assigned key lines' :=
  filterMap_append ..

theorem assigned_otherLines (h : key' ≠ key) :
    assigned key' (otherLines key lines) = assigned key' lines := by
  simp only [assigned, otherLines, filterMap_filter]
  congr 1
  funext l
  by_cases hl : l.key = some key
  · simp [hl, Ne.symm h]
  · simp [hl]

theorem assigned_otherLines_self : assigned key (otherLines key lines) = [] := by
  simp only [assigned, otherLines, filterMap_filter]
  rw [filterMap_eq_nil_iff]
  intro l _
  by_cases hl : l.key = some key <;> simp [hl]

theorem assigned_eq_nil (h : ∀ l ∈ lines, l.key ≠ some key) : assigned key lines = [] := by
  rw [assigned, filterMap_eq_nil_iff]
  intro l hl
  rw [if_neg (h l hl)]

theorem plainLines_otherLines : plainLines (otherLines key lines) = plainLines lines := by
  simp only [plainLines, otherLines, filterMap_filter]
  congr 1
  funext l
  by_cases hl : l.key = none <;> simp [hl]

/-- A line of a file. -/
structure ShvarLine.WellFormed (l : ShvarLine) : Prop where
  indent : ∀ c ∈ l.indent, isSpace c ∧ c ≠ '\n'
  key : ∀ key ∈ l.key, shellIsName key
  line : ∀ line ∈ l.line, ('\n' : UInt8) ∉ line
  plain : l.key = none → ∃ line, l.line = some line ∧ parseAssignment line = none

/-- Lines with the same key are alike: none of them has a value if one has none. -/
def Alike (lines : List ShvarLine) : Prop :=
  ∀ l ∈ lines, ∀ l' ∈ lines, l.key ≠ none → l.key = l'.key →
    l.dirty = l'.dirty ∧ (l.line = none → l'.line = none)

structure ShvarFile.Valid (s : ShvarFile) : Prop where
  linked : s.Linked
  wellFormed : ∀ l ∈ s.lines, l.WellFormed
  alike : Alike s.lines

theorem ShvarFile.Valid.svGetValue (h : s.Valid) (key : Bytes) :
    svGetValue s key = (assigned key s.lines).getLast?.map readValue := by
  rw [Settings.svGetValue, h.linked.findLine]
  cases hlast : lastOf key s.lines with
  | none =>
    rw [assigned_eq_nil (lastOf_eq_none.mp hlast)]
    rfl
  | some l =>
    obtain ⟨before, after, hlines, hl, hafter⟩ := exists_of_lastOf hlast
    have hsplit : assigned key s.lines = assigned key before ++ l.line.toList := by
      have hrest := assigned_eq_nil hafter
      have hhead : assigned key (l :: after) = l.line.toList ++ assigned key after := by
        cases hline : l.line <;> simp [assigned, hl, hline]
      rw [hlines, assigned_append, hhead, hrest, append_nil]
    rw [hsplit, Option.bind_some]
    cases hline : l.line with
    | some v => simp
    | none =>
      -- the lines that are shadowed have no value either
      have hbefore : assigned key before = [] := by
        rw [assigned, filterMap_eq_nil_iff]
        intro x hx
        split_ifs with hk
        · exact (h.alike l (by simp [hlines]) x (by simp [hlines, hx]) (by simp [hl])
            (hl.trans hk.symm)).2 hline
        · rfl
      simp [hbefore]

theorem ShvarFile.Valid.mem_svGetKeys (h : s.Valid) (key : Bytes) (keyMatchesType : Bytes → Bool) :
    key ∈ svGetKeys s keyMatchesType ↔ keyMatchesType key ∧ (Settings.svGetValue s key).isSome := by
  have hassigned : assigned key s.lines ≠ [] ↔ ∃ l ∈ s.lines, l.key = some key ∧ l.line ≠ none := by
    simp [assigned, filterMap_eq_nil_iff]
  have hget : (Settings.svGetValue s key).isSome ↔ assigned key s.lines ≠ [] := by
    rw [h.svGetValue]
    simp
  rw [hget, hassigned]
  simp only [svGetKeys, mem_dedup, mem_filterMap]
  constructor
  · rintro ⟨l, hl, hk⟩
    split_ifs at hk with hline
    obtain ⟨hkey, hmatch⟩ := Option.filter_eq_some_iff.mp hk
    exact ⟨hmatch, l, hl, hkey, hline⟩
  · rintro ⟨hmatch, l, hl, hkey, hline⟩
    refine ⟨l, hl, ?_⟩
    rw [if_pos hline, hkey, Option.filter_some, if_pos hmatch]

/-! ## The operations -/

/-- The file is one for the map. -/
structure Represents (s : ShvarFile) (m : ShvarMap) (plain : List Bytes) : Prop where
  valid : s.Valid
  value : ∀ key, m.value key = (assigned key s.lines).getLast?.map readValue
  dirty : ∀ l ∈ s.lines, ∀ key ∈ l.key, l.dirty = m.dirty key
  plain : plainLines s.lines = plain

variable {m : ShvarMap} {plain : List Bytes} {cleared : Bytes → Bool} {dirty : Bool → Bool}
  {s' : ShvarFile} {text : Bytes}

theorem readValue_svEscape (value : CString) :
    readValue (svEscape value) = storedValue value := by
  rw [readValue, svUnescape_svEscape value.2, storedValue]
  split_ifs <;> rfl

theorem svSetValue_text (h : s.Valid) (key : Bytes) (value : Option Bytes) :
    assigned key (svSetValue s key value).1.lines = (value.map svEscape).toList ∧
      (∀ key' ≠ key, assigned key' (svSetValue s key value).1.lines = assigned key' s.lines) ∧
      plainLines (svSetValue s key value).1.lines = plainLines s.lines := by
  rcases h.linked.svSetValue_cases key value with ⟨hlast, rfl, heq⟩ | ⟨v, hlast, rfl, heq⟩ |
    ⟨before, l, after, hlines, hl, hafter, hlines', -, -⟩
  · rw [heq]
    exact ⟨assigned_eq_nil (lastOf_eq_none.mp hlast), fun _ _ => rfl, rfl⟩
  · rw [heq]
    refine ⟨?_, fun key' hne => ?_, ?_⟩
    · rw [assigned_append, assigned_eq_nil (lastOf_eq_none.mp hlast)]
      simp [assigned, lineNewBuild]
    · rw [assigned_append]
      simp [assigned, lineNewBuild, Ne.symm hne]
    · simp [plainLines, lineNewBuild]
  · have hkey : (setLine l value).key = some key := (setLine_key l value).trans hl
    have hmiddle := @otherLines_middle _ _ before after _ hl hkey
    refine ⟨?_, fun key' hne => ?_, ?_⟩
    · have hline : (setLine l value).line = value.map svEscape := by cases value <;> rfl
      have hcons : assigned key (setLine l value :: after) =
          (value.map svEscape).toList ++ assigned key after := by
        cases value <;> simp [assigned, hkey, hline]
      rw [hlines', assigned_append, assigned_otherLines_self, hcons, assigned_eq_nil hafter,
        nil_append, append_nil]
    · rw [← assigned_otherLines hne, hlines', hmiddle, ← hlines, assigned_otherLines hne]
    · rw [← @plainLines_otherLines key, hlines', hmiddle, ← hlines, plainLines_otherLines]

theorem mem_svSetValue (h : s.Valid) (key : Bytes) {value : Option Bytes} {x : ShvarLine}
    (hx : x ∈ (svSetValue s key value).1.lines) :
    (x ∈ s.lines ∧ x.key ≠ some key) ∨
      (∃ v, value = some v ∧ x = lineNewBuild s.nextId key v ∧ lastOf key s.lines = none) ∨
      ∃ l ∈ s.lines, l.key = some key ∧ x = setLine l value := by
  rcases h.linked.svSetValue_cases key value with ⟨hlast, rfl, heq⟩ | ⟨v, hlast, rfl, heq⟩ |
    ⟨before, l, after, hlines, hl, hafter, hlines', -, -⟩
  · rw [heq] at hx
    exact .inl ⟨hx, lastOf_eq_none.mp hlast x hx⟩
  · rw [heq] at hx
    rcases mem_append.mp hx with hx | hx
    · exact .inl ⟨hx, lastOf_eq_none.mp hlast x hx⟩
    · exact .inr (.inl ⟨v, rfl, mem_singleton.mp hx, hlast⟩)
  · rw [hlines'] at hx
    rcases mem_append.mp hx with hx | hx
    · obtain ⟨hx, hne⟩ := mem_filter.mp hx
      exact .inl ⟨by simp [hlines, hx], by simpa using hne⟩
    · rcases mem_cons.mp hx with rfl | hx
      · exact .inr (.inr ⟨l, by simp [hlines], hl, rfl⟩)
      · exact .inl ⟨by simp [hlines, hx], hafter x hx⟩

theorem ShvarLine.WellFormed.setLine {l : ShvarLine} (h : l.WellFormed) (hl : l.key = some key)
    (value : Option Bytes) : (setLine l value).WellFormed := by
  have hplain : (Settings.setLine l value).key ≠ none := by
    rw [setLine_key, hl]
    exact Option.some_ne_none key
  refine ⟨?_, fun k hk => h.key k (setLine_key l value ▸ hk), ?_, fun hk => absurd hk hplain⟩
  · cases value with
    | none => exact h.indent
    | some v => exact fun c hc => absurd hc not_mem_nil
  · cases value with
    | none => exact fun line hline => by simp [Settings.setLine] at hline
    | some v =>
      intro line hline
      obtain rfl : svEscape v = line := Option.some.inj hline
      exact newline_notMem_svEscape v

theorem lineNewBuild_wellFormed (id : ℕ) (hkey : shellIsName key) (value : Bytes) :
    (lineNewBuild id key value).WellFormed := by
  refine ⟨fun c hc => absurd hc not_mem_nil, ?_, ?_, fun h => by simp [lineNewBuild] at h⟩
  · intro k hk
    obtain rfl : key = k := Option.some.inj hk
    exact hkey
  · intro line hline
    obtain rfl : svEscape value = line := Option.some.inj hline
    exact newline_notMem_svEscape value

theorem ShvarFile.Valid.svSetValue (h : s.Valid) (hkey : shellIsName key) (value : Option Bytes) :
    (svSetValue s key value).1.Valid := by
  refine ⟨h.linked.svSetValue key value, ?_, ?_⟩
  · intro x hx
    rcases mem_svSetValue h key hx with ⟨hx, -⟩ | ⟨v, -, rfl, -⟩ | ⟨l, hl, hk, rfl⟩
    · exact h.wellFormed x hx
    · exact lineNewBuild_wellFormed _ hkey v
    · exact (h.wellFormed l hl).setLine hk value
  · intro x hx x' hx' hne hsame
    rcases mem_svSetValue h key hx with ⟨hx, hk⟩ | ⟨v, rfl, rfl, hlast⟩ | ⟨l, hl, hk, rfl⟩
    · rcases mem_svSetValue h key hx' with ⟨hx', -⟩ | ⟨v', -, rfl, -⟩ | ⟨l', -, hk', rfl⟩
      · exact h.alike x hx x' hx' hne hsame
      · exact absurd hsame hk
      · rw [setLine_key, hk'] at hsame
        exact absurd hsame hk
    · refine ⟨?_, fun hline => by simp [lineNewBuild] at hline⟩
      rcases mem_svSetValue h key hx' with ⟨-, hk'⟩ | ⟨v', -, rfl, -⟩ | ⟨l', hl', hk', -⟩
      · exact absurd hsame.symm hk'
      · rfl
      · exact absurd hk' (lastOf_eq_none.mp hlast l' hl')
    · rw [setLine_key, hk] at hsame
      rcases mem_svSetValue h key hx' with ⟨-, hk'⟩ | ⟨v', -, rfl, hlast⟩ | ⟨l', hl', hk', rfl⟩
      · exact absurd hsame.symm hk'
      · exact absurd hk (lastOf_eq_none.mp hlast l hl)
      · have halike := h.alike l hl l' hl' (by simp [hk]) (hk.trans hk'.symm)
        cases value with
        | none => exact ⟨halike.1, fun _ => rfl⟩
        | some v => exact ⟨rfl, fun hline => by simp [setLine] at hline⟩

theorem Represents.setValue (h : Represents s m plain) (key : ShellName) (value : CString) :
    Represents (svSetValue s key (some value)).1 (m.apply (.setValue key value)) plain := by
  obtain ⟨hself, hother, hplain⟩ := svSetValue_text h.valid key (some value.1)
  refine ⟨h.valid.svSetValue key.2 _, fun key' => ?_, ?_, hplain.trans h.plain⟩
  · by_cases hk : key' = key
    · subst hk
      simp [ShvarMap.apply, hself, readValue_svEscape]
    · rw [hother key' hk, ← h.value key']
      simp [ShvarMap.apply, hk]
  · intro x hx k hk
    rcases mem_svSetValue h.valid key hx with ⟨hx, hne⟩ | ⟨v, -, rfl, -⟩ | ⟨l, hl, hk', rfl⟩
    · have hne' : k ≠ key := by
        rintro rfl
        exact hne hk
      simpa [ShvarMap.apply, hne'] using h.dirty x hx k hk
    · obtain rfl : key.1 = k := Option.some.inj hk
      simp [ShvarMap.apply, lineNewBuild]
    · rw [setLine_key] at hk
      obtain rfl : key.1 = k := Option.some.inj (hk'.symm.trans hk)
      simp [ShvarMap.apply, setLine]

theorem Represents.unsetValue (h : Represents s m plain) (key : ShellName) :
    Represents (svUnsetValue s key).1 (m.apply (.unsetValue key)) plain := by
  obtain ⟨hself, hother, hplain⟩ := svSetValue_text h.valid key none
  refine ⟨h.valid.svSetValue key.2 _, fun key' => ?_, ?_, hplain.trans h.plain⟩
  · by_cases hk : key' = key
    · subst hk
      simp [ShvarMap.apply, svUnsetValue, hself]
    · rw [svUnsetValue, hother key' hk, ← h.value key']
      simp [ShvarMap.apply, hk]
  · intro x hx k hk
    rcases mem_svSetValue h.valid key hx with ⟨hx, -⟩ | ⟨v, hv, -⟩ | ⟨l, hl, hk', rfl⟩
    · exact h.dirty x hx k hk
    · exact absurd hv.symm (Option.some_ne_none v)
    · rw [setLine_key] at hk
      exact h.dirty l hl k hk

def clearLine (cleared : Bytes → Bool) (dirty : Bool → Bool) (l : ShvarLine) : ShvarLine :=
  { l with line := if l.key.any cleared then none else l.line, dirty := dirty l.dirty }

theorem assigned_map_clearLine (key : Bytes) :
    assigned key (lines.map (clearLine cleared dirty)) =
      if cleared key then [] else assigned key lines := by
  rw [assigned, filterMap_map]
  by_cases hcleared : cleared key
  · rw [if_pos hcleared, filterMap_eq_nil_iff]
    intro l _
    by_cases hl : l.key = some key <;> simp [clearLine, hl, hcleared]
  · rw [if_neg hcleared, assigned]
    congr 1
    funext l
    by_cases hl : l.key = some key <;> simp [clearLine, hl, hcleared]

theorem plainLines_map_clearLine :
    plainLines (lines.map (clearLine cleared dirty)) = plainLines lines := by
  rw [plainLines, filterMap_map, plainLines]
  congr 1
  funext l
  by_cases hl : l.key = none <;> simp [clearLine, hl]

theorem ShvarFile.Valid.map_clearLine (h : s.Valid)
    (hlines : s'.lines = s.lines.map (clearLine cleared dirty)) (hidx : s'.lstIdx = s.lstIdx)
    (hnext : s'.nextId = s.nextId) : s'.Valid := by
  refine ⟨h.linked.map hlines hidx hnext (fun _ => rfl) (fun _ => rfl) fun _ => rfl, ?_, ?_⟩
  · rw [hlines, forall_mem_map]
    intro l hl
    have hwf := h.wellFormed l hl
    refine ⟨hwf.indent, hwf.key, fun line hline => ?_, fun hkey => ?_⟩
    · simp only [clearLine] at hline
      split_ifs at hline
      · simp at hline
      · exact hwf.line line hline
    · obtain ⟨line, hline, hparse⟩ := hwf.plain hkey
      have hnone : l.key = none := hkey
      exact ⟨line, by simp [clearLine, hnone, hline], hparse⟩
  · rw [hlines]
    intro x hx x' hx' hne hsame
    obtain ⟨l, hl, rfl⟩ := mem_map.mp hx
    obtain ⟨l', hl', rfl⟩ := mem_map.mp hx'
    obtain ⟨hdirty, hline⟩ := h.alike l hl l' hl' hne hsame
    have hkey : l.key = l'.key := hsame
    refine ⟨congrArg dirty hdirty, ?_⟩
    simp only [clearLine, hkey]
    split_ifs
    · exact fun _ => rfl
    · exact hline

section

variable (h : Represents s m plain)

include h

theorem Represents.map_clearLine {m' : ShvarMap} (cleared : Bytes → Bool) (dirty : Bool → Bool)
    (hlines : s'.lines = s.lines.map (clearLine cleared dirty)) (hidx : s'.lstIdx = s.lstIdx)
    (hnext : s'.nextId = s.nextId)
    (hvalue : ∀ key, m'.value key = if cleared key then none else m.value key)
    (hdirty : ∀ key, m'.dirty key = dirty (m.dirty key)) : Represents s' m' plain := by
  refine ⟨h.valid.map_clearLine hlines hidx hnext, fun key => ?_, ?_, ?_⟩
  · rw [hvalue, hlines, assigned_map_clearLine, h.value]
    split_ifs <;> rfl
  · rw [hlines, forall_mem_map]
    intro l hl key hkey
    rw [hdirty, ← h.dirty l hl key hkey]
    rfl
  · rw [hlines, plainLines_map_clearLine, h.plain]

theorem Represents.unsetAll (keyMatchesType : Bytes → Bool) :
    Represents (svUnsetAll s keyMatchesType).1 (m.apply (.unsetAll keyMatchesType)) plain := by
  refine h.map_clearLine keyMatchesType id ?_ rfl rfl (fun _ => rfl)
    fun _ => rfl
  apply map_congr_left
  intro l _
  unfold clearLine
  split_ifs <;> rfl

theorem Represents.unsetDirtyWellknown (clearable : Bytes → Bool) (newDirtyValue : Option Bool) :
    Represents (svUnsetDirtyWellknown s clearable newDirtyValue).1
      (m.apply (.unsetDirtyWellknown clearable newDirtyValue)) plain := by
  refine h.map_clearLine (fun key => m.dirty key && clearable key) newDirtyValue.getD ?_ rfl rfl (fun key => ?_) fun _ => rfl
  · apply map_congr_left
    intro l hl
    have hmatched : (decide (l.dirty = true ∧ l.key.any clearable = true)) =
        l.key.any fun key => m.dirty key && clearable key := by
      cases hkey : l.key with
      | none => simp
      | some key => simp [h.dirty l hl key hkey]
    simp only [clearLine, hmatched]
  · simp [ShvarMap.apply]

theorem Represents.apply (op : ShvarOp) : Represents (s.apply op) (m.apply op) plain := by
  cases op with
  | setValue key value => exact h.setValue key value
  | unsetValue key => exact h.unsetValue key
  | unsetAll keyMatchesType => exact h.unsetAll keyMatchesType
  | unsetDirtyWellknown clearable newDirtyValue =>
    exact h.unsetDirtyWellknown clearable newDirtyValue

theorem Represents.foldl (ops : List ShvarOp) :
    Represents (ops.foldl ShvarFile.apply s) (ops.foldl ShvarMap.apply m) plain := by
  induction ops generalizing s m with
  | nil => exact h
  | cons op ops ih => exact ih (h.apply op)

end

/-! ## Reading a file -/

theorem assignedIn_append (texts texts' : List Bytes) :
    assignedIn key (texts ++ texts') = assignedIn key texts ++ assignedIn key texts' :=
  filterMap_append ..

theorem assignedIn_of_some {k v : Bytes} (h : parseAssignment text = some (k, v)) :
    assignedIn key [text] = if k = key then [v] else [] := by
  by_cases hk : k = key <;> simp [assignedIn, h, hk]

theorem assignedIn_of_none (h : parseAssignment text = none) : assignedIn key [text] = [] := by
  simp [assignedIn, h]

theorem lineNewParse_says (id : ℕ) (prev : Option ℕ) (text : Bytes) :
    (∀ key, assigned key [{ lineNewParse id text with prevShadowed := prev }] =
      assignedIn key [text]) ∧
    plainLines [{ lineNewParse id text with prevShadowed := prev }] =
      [text].filter fun text => parseAssignment text = none := by
  cases hparse : parseAssignment text with
  | none => simp [assigned, assignedIn, plainLines, lineNewParse, hparse]
  | some a =>
    refine ⟨fun key => ?_, by simp [plainLines, lineNewParse, hparse]⟩
    rw [assignedIn_of_some hparse]
    by_cases hkey : a.1 = key <;> simp [assigned, lineNewParse, hparse, hkey]

theorem foldl_lineLinkParse_says (texts : List Bytes) (s : ShvarFile) :
    (∀ key, assigned key (texts.foldl lineLinkParse s).lines =
      assigned key s.lines ++ assignedIn key texts) ∧
    plainLines (texts.foldl lineLinkParse s).lines =
      plainLines s.lines ++ texts.filter fun text => parseAssignment text = none := by
  induction texts generalizing s with
  | nil => simp [assignedIn]
  | cons text texts ih =>
    obtain ⟨prev, hlines⟩ := lineLinkParse_lines s text
    obtain ⟨hassigned, hplain⟩ := ih (lineLinkParse s text)
    obtain ⟨hline, hlinePlain⟩ := lineNewParse_says s.nextId prev text
    rw [hlines] at hassigned hplain
    constructor
    · intro key
      rw [foldl_cons, hassigned, assigned_append, hline, append_assoc,
        ← assignedIn_append, singleton_append]
    · rw [foldl_cons, hplain, plainLines, filterMap_append, ← plainLines, ← plainLines,
        hlinePlain, append_assoc, ← filter_append, singleton_append]

/-- A line as it was read. -/
def FreshLine (l : ShvarLine) : Prop := l.WellFormed ∧ l.dirty ∧ l.line ≠ none

theorem lineNewParse_fresh (id : ℕ) (prev : Option ℕ) (htext : ('\n' : UInt8) ∉ text) :
    FreshLine { lineNewParse id text with prevShadowed := prev } := by
  cases hparse : parseAssignment text with
  | none =>
    simp only [lineNewParse, hparse]
    refine ⟨⟨by simp, by simp, ?_, fun _ => ⟨text, rfl, hparse⟩⟩, rfl, by simp⟩
    intro line hline
    obtain rfl : text = line := Option.some.inj hline
    exact htext
  | some a =>
    obtain ⟨key, v⟩ := a
    obtain ⟨hsplit, hname⟩ := parseAssignment_eq_some hparse
    have hmem : ∀ c ∈ text.takeWhile isSpace, c ∈ text := fun c hc =>
      (takeWhile_sublist _).subset hc
    simp only [lineNewParse, hparse]
    refine ⟨⟨fun c hc => ⟨mem_takeWhile_imp hc, ?_⟩, ?_, ?_, by simp⟩, rfl, by simp⟩
    · rintro rfl
      exact htext (hmem _ hc)
    · intro k hk
      obtain rfl : key = k := Option.some.inj hk
      exact hname
    · intro line hline
      obtain rfl : v = line := Option.some.inj hline
      rw [hsplit] at htext
      exact fun h => htext (mem_append_right _ h)

theorem svFileNew_fresh (content : Bytes) : ∀ l ∈ (svFileNew content).lines, FreshLine l := by
  have hfold (texts : List Bytes) (htexts : ∀ text ∈ texts, ('\n' : UInt8) ∉ text) (s : ShvarFile)
      (hs : ∀ l ∈ s.lines, FreshLine l) :
      ∀ l ∈ (texts.foldl lineLinkParse s).lines, FreshLine l := by
    induction texts generalizing s with
    | nil => exact hs
    | cons text texts ih =>
      rw [forall_mem_cons] at htexts
      refine ih htexts.2 _ fun l hl => ?_
      obtain ⟨prev, hlines⟩ := lineLinkParse_lines s text
      rw [hlines] at hl
      rcases mem_append.mp hl with hl | hl
      · exact hs l hl
      · rw [mem_singleton.mp hl]
        exact lineNewParse_fresh _ prev htexts.1
  exact hfold _ (fun _ => newline_notMem_textLines) _ fun _ h => absurd h not_mem_nil

theorem represents_svFileNew (content : Bytes) :
    Represents (svFileNew content) (ShvarMap.ofContent content)
      ((textLines content).filter fun text => parseAssignment text = none) := by
  have hfresh := svFileNew_fresh content
  obtain ⟨hassigned, hplain⟩ := foldl_lineLinkParse_says (textLines content) ⟨[], [], 0, false⟩
  refine ⟨⟨linked_svFileNew content, fun l hl => (hfresh l hl).1, ?_⟩, fun key => ?_, ?_, hplain⟩
  · intro l hl l' hl' _ _
    exact ⟨(hfresh l hl).2.1.trans (hfresh l' hl').2.1.symm,
      fun hline => absurd hline (hfresh l hl).2.2⟩
  · have hkey := hassigned key
    rw [ShvarMap.ofContent, svFileNew, hkey]
    rfl
  · intro l hl key _
    exact (hfresh l hl).2.1

/-! ## Writing a file -/

/-- The lines that are written for a line. -/
def writtenLines (l : ShvarLine) : List Bytes :=
  match l.key with
  | none =>
    let str := l.line.getD []
    [(if isComment str then [] else ascii "#NM: ") ++ str]
  | some key =>
    match l.line with
    | none => []
    | some value =>
      if svUnescape value ≠ none then [l.indent ++ key ++ ascii "=" ++ value]
      else [key ++ ascii "=", ascii "#NM: " ++ l.indent ++ key ++ ascii "=" ++ value]

theorem textLines_writeLine {l : ShvarLine} (hl : l.WellFormed) (s : Bytes) :
    textLines (writeLine l ++ s) = writtenLines l ++ textLines s := by
  have hsharp : ('\n' : UInt8) ∉ ascii "#NM: " := by decide
  have hequals : ('\n' : UInt8) ∉ ascii "=" := by decide
  unfold writeLine writtenLines
  cases hkey : l.key with
  | none =>
    obtain ⟨str, hstr, -⟩ := hl.plain hkey
    have hline := hl.line str hstr
    have hnew : ('\n' : UInt8) ∉ (if isComment str then [] else ascii "#NM: ") ++ str := by
      split_ifs
      · simpa using hline
      · exact fun h => (mem_append.mp h).elim hsharp hline
    simp only [hstr, Option.getD_some]
    exact textLines_append hnew s
  | some key =>
    have hname := newline_notMem_key (hl.key key hkey)
    cases hline : l.line with
    | none => rfl
    | some value =>
      have hvalue := hl.line value hline
      have hindent : ('\n' : UInt8) ∉ l.indent := fun h => (hl.indent _ h).2 rfl
      have hassignment : ('\n' : UInt8) ∉ l.indent ++ key ++ ascii "=" ++ value := by
        simp only [mem_append, not_or]
        exact ⟨⟨⟨hindent, hname⟩, hequals⟩, hvalue⟩
      dsimp only
      split_ifs with hvalid
      · exact textLines_append hassignment s
      · have hfirst : ('\n' : UInt8) ∉ key ++ ascii "=" := fun h =>
          (mem_append.mp h).elim hname hequals
        have hsecond : ('\n' : UInt8) ∉ ascii "#NM: " ++ l.indent ++ key ++ ascii "=" ++ value := by
          simp only [mem_append, not_or] at hassignment ⊢
          exact ⟨⟨⟨⟨hsharp, hassignment.1.1.1⟩, hassignment.1.1.2⟩, hequals⟩, hvalue⟩
        have hsplit : key ++ ascii "=\n" ++ ascii "#NM: " ++
            (l.indent ++ key ++ ascii "=" ++ value ++ ascii "\n") ++ s =
            key ++ ascii "=" ++ ascii "\n" ++
              (ascii "#NM: " ++ l.indent ++ key ++ ascii "=" ++ value ++ ascii "\n" ++ s) := by
          have hend : ascii "=\n" = ascii "=" ++ ascii "\n" := rfl
          simp only [hend, append_assoc]
        rw [hsplit, textLines_append hfirst, textLines_append hsecond]
        rfl

theorem textLines_writeFile (h : ∀ l ∈ lines, l.WellFormed) :
    textLines (lines.flatMap writeLine) = lines.flatMap writtenLines := by
  induction lines with
  | nil => rfl
  | cons l lines ih =>
    rw [forall_mem_cons] at h
    rw [flatMap_cons, flatMap_cons, textLines_writeLine h.1, ih h.2]

def keptValue (value : Bytes) : Bytes := if svUnescape value ≠ none then value else []

theorem readValue_keptValue (value : Bytes) : readValue (keptValue value) = readValue value := by
  unfold keptValue
  split_ifs with hvalid
  · rfl
  · rw [not_not] at hvalid
    have hempty : svUnescape [] = some [] := by
      rw [svUnescape, svUnescapeFull, svUnescapeLoop_nil]
      have hutf8 : isUtf8 [] := isUtf8_iff.mpr ⟨utf8_nil, nulFree_nil⟩
      simp [hutf8]
    rw [readValue, readValue, hvalid, hempty]
    rfl

theorem isComment_sharp (s : Bytes) : isComment (ascii "#NM: " ++ s) := by
  have hskip : skipSpaces (ascii "#NM: " ++ s) = ascii "#NM: " ++ s := rfl
  rw [isComment, hskip]
  rfl

theorem assignedIn_writtenLines {l : ShvarLine} (hl : l.WellFormed) (key : Bytes) :
    assignedIn key (writtenLines l) = (assigned key [l]).map keptValue := by
  unfold writtenLines
  cases hkey : l.key with
  | none =>
    obtain ⟨str, hstr, hparse⟩ := hl.plain hkey
    have hwritten : parseAssignment ((if isComment str then [] else ascii "#NM: ") ++ str) = none := by
      split_ifs with hcomment
      · exact hparse
      · exact parseAssignment_comment (isComment_sharp str)
    simp only [hstr, Option.getD_some, assignedIn_of_none hwritten]
    simp [assigned, hkey]
  | some k =>
    have hname := hl.key k hkey
    cases hline : l.line with
    | none => simp [assigned, assignedIn, hline]
    | some value =>
      have hassigned : assigned key [l] = if k = key then [value] else [] := by
        by_cases hk : k = key <;> simp [assigned, hkey, hline, hk]
      dsimp only
      rw [hassigned]
      split_ifs with hvalid hk hk
      · have hparse := (parseAssignment_assignment (fun c hc => (hl.indent c hc).1) hname value).1
        rw [assignedIn_of_some hparse, if_pos hk, map_singleton, keptValue, if_pos hvalid]
      · have hparse := (parseAssignment_assignment (fun c hc => (hl.indent c hc).1) hname value).1
        rw [assignedIn_of_some hparse, if_neg hk, map_nil]
      all_goals
        have hparse := (parseAssignment_assignment (forall_mem_nil _) hname []).1
        have hcomment := parseAssignment_comment
          (isComment_sharp (l.indent ++ k ++ ascii "=" ++ value))
        rw [nil_append, append_nil] at hparse
        simp only [← append_assoc] at hcomment
        rw [← singleton_append, assignedIn_append, assignedIn_of_some hparse,
          assignedIn_of_none hcomment, append_nil]
      · rw [if_pos hk, map_singleton, keptValue, if_neg hvalid]
      · rw [if_neg hk, map_nil]

theorem assignedIn_flatMap_writtenLines (h : ∀ l ∈ lines, l.WellFormed) (key : Bytes) :
    assignedIn key (lines.flatMap writtenLines) = (assigned key lines).map keptValue := by
  induction lines with
  | nil => rfl
  | cons l lines ih =>
    rw [forall_mem_cons] at h
    have happend : assigned key (l :: lines) = assigned key [l] ++ assigned key lines :=
      @assigned_append key [l] lines
    rw [flatMap_cons, assignedIn_append, assignedIn_writtenLines h.1, ih h.2, happend,
      map_append]

theorem ShvarFile.Valid.svGetValue_writeFile (h : s.Valid) (key : Bytes) :
    Settings.svGetValue (svFileNew (writeFile s)) key = Settings.svGetValue s key := by
  have hread : readValue ∘ keptValue = readValue := funext readValue_keptValue
  have hnew := represents_svFileNew (writeFile s)
  rw [hnew.valid.svGetValue, ← hnew.value, h.svGetValue, ShvarMap.ofContent, writeFile,
    textLines_writeFile h.wellFormed]
  dsimp only
  rw [assignedIn_flatMap_writtenLines h.wellFormed, List.getLast?_map, Option.map_map, hread]

theorem plainLines_sublist (h : ∀ l ∈ lines, l.WellFormed) :
    ((plainLines lines).filter isComment).Sublist
      ((lines.flatMap writtenLines).filter isComment) := by
  induction lines with
  | nil => exact List.Sublist.refl _
  | cons l lines ih =>
    rw [forall_mem_cons] at h
    have happend : plainLines (l :: lines) = plainLines [l] ++ plainLines lines :=
      filterMap_append (l := [l]) ..
    rw [happend, filter_append, flatMap_cons, filter_append]
    refine List.Sublist.append ?_ (ih h.2)
    cases hkey : l.key with
    | some key => simp [plainLines, hkey]
    | none =>
      obtain ⟨str, hstr, -⟩ := h.1.plain hkey
      by_cases hcomment : isComment str
      · simp [plainLines, writtenLines, hkey, hstr, hcomment]
      · simp [plainLines, hkey, hstr, hcomment]

theorem Represents.commentLines_sublist {content : Bytes}
    (h : Represents s m ((textLines content).filter fun text => parseAssignment text = none)) :
    (commentLines content).Sublist (commentLines (writeFile s)) := by
  have hcomments : commentLines content = (plainLines s.lines).filter isComment := by
    rw [h.plain, filter_filter, commentLines]
    apply filter_congr
    intro text _
    cases hcomment : isComment text with
    | false => rfl
    | true => simp [parseAssignment_comment hcomment]
  rw [hcomments, commentLines, writeFile, textLines_writeFile h.valid.wellFormed]
  exact plainLines_sublist h.valid.wellFormed

/-! ## The file is a map -/

theorem ShvarFile.Valid.svGetValue_svSetValue_of_ne (h : s.Valid) (hkey : shellIsName key)
    (value : Option Bytes) (hne : key' ≠ key) :
    Settings.svGetValue (Settings.svSetValue s key value).1 key' = Settings.svGetValue s key' := by
  have hother := (svSetValue_text h key value).2.1 key' hne
  rw [(h.svSetValue hkey value).svGetValue, h.svGetValue, hother]

/-- After any operations the file is the map of its content after these, and so are its keys.
Setting a value does not change others. The file is written so that all values are read again,
with the comments in their order. -/
theorem shvarFile_isMap (content : Bytes) (ops : List ShvarOp) :
    let s := ops.foldl ShvarFile.apply (svFileNew content)
    (∀ key, svGetValue s key =
      (ops.foldl ShvarMap.apply (ShvarMap.ofContent content)).value key) ∧
    (∀ (key : ShellName) (value : Option Bytes) (other : Bytes), other ≠ key.1 →
      svGetValue (svSetValue s key value).1 other = svGetValue s other) ∧
    (∀ key, key ∈ svGetKeys s (fun _ => true) ↔ (svGetValue s key).isSome) ∧
    (∀ key, svGetValue (svFileNew (writeFile s)) key = svGetValue s key) ∧
    (commentLines content).Sublist (commentLines (writeFile s)) := by
  have hrun := (represents_svFileNew content).foldl ops
  refine ⟨fun key => ?_, fun key value other hne => ?_, fun key => ?_,
    hrun.valid.svGetValue_writeFile, hrun.commentLines_sublist⟩
  · rw [hrun.valid.svGetValue, hrun.value]
  · exact hrun.valid.svGetValue_svSetValue_of_ne key.2 value hne
  · rw [hrun.valid.mem_svGetKeys]
    simp

theorem shvarFile_isMap_other :
    svGetValue (svSetValue (svFileNew (ascii "NAME=x\n#\nNAME='y'\n")) (ascii "DEVICE")
      (some (ascii "eth0"))).1 (ascii "NAME") =
    svGetValue (svFileNew (ascii "NAME=x\n#\nNAME='y'\n")) (ascii "NAME") :=
  (shvarFile_isMap (ascii "NAME=x\n#\nNAME='y'\n") []).2.1 ⟨ascii "DEVICE", by decide⟩
    (some (ascii "eth0")) (ascii "NAME") (by decide)

/-- A value that is no text is not the one that is read. -/
theorem svSetValue_notText :
    svGetValue (svSetValue (svFileNew []) (ascii "NAME") (some [0xFF])).1 (ascii "NAME") ≠
      some [0xFF] := by
  have hset := (represents_svFileNew []).setValue ⟨ascii "NAME", by decide⟩ ⟨[0xFF], by decide⟩
  have hfirst : firstChar? [0xFF] = none := by decide
  have hutf8 : isUtf8 [0xFF] = false := by
    rw [isUtf8, utf8Validate_of_none hfirst]
    rfl
  rw [hset.valid.svGetValue, ← hset.value]
  simp [ShvarMap.apply, storedValue, hutf8]

end NetworkManager.Settings
