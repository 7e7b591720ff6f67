import NetworkManager.Core.DhcpRoutes

/-!
# The domain search list of a DHCP lease

The option has names as sequences of labels, where the end of a name may be a pointer to an earlier
one. `nm_dhcp_lease_data_parse_search_list()` reads it from memory. The two bytes of a pointer are
an offset of 14 bits, but the code shifts the upper ones by 16.
-/

namespace NetworkManager.Core

open Lib GlibAux List

/-- What `*datap` points to, as an offset from the start of the option, and `*n_datap`. -/
structure LeaseData where
  pos : ℕ
  len : ℕ
  deriving DecidableEq

variable {c : Octet}

section Memory

variable (mem : ℕ → Octet)

/-- `nm_dhcp_lease_data_consume()` of one byte -/
def LeaseData.consume (d : LeaseData) : Option (Octet × LeaseData) :=
  if d.len < 1 then none else some (mem d.pos, ⟨d.pos + 1, d.len - 1⟩)

/-- How a byte of a label is printed. -/
def printLabelChar (c : Octet) : Bytes :=
  let ch := UInt8.ofBitVec c
  if isAlnum ch ∨ ch = '-' ∨ ch = '_' then [ch]
  else if ch = '.' ∨ ch = '\\' then ['\\', ch]
  else '\\' :: (formatUnsigned c.toNat).leftpad 3 ' '

def leaseOptionPrintLabel : ℕ → Bytes → LeaseData → Option (Bytes × LeaseData)
  | 0, sbuf, d => some (sbuf, d)
  | n + 1, sbuf, d =>
    match d.consume mem with
    | none => none
    | some (c, d) => leaseOptionPrintLabel n (sbuf ++ printLabelChar c) d

def appendDot (first : Bool) (sbuf : Bytes) : Bytes :=
  if first then sbuf else sbuf ++ (['.'] : Bytes)

def codeOffset (c c' : Octet) : ℕ := (c &&& 0x3F).toNat <<< 16 + c'.toNat

variable {mem} {d d' : LeaseData} {text : Bytes}

theorem LeaseData.consume_len (h : d.consume mem = some (c, d')) : d'.len < d.len := by
  unfold LeaseData.consume at h
  split_ifs at h with hlen
  obtain ⟨-, rfl⟩ := Prod.mk.inj (Option.some.inj h)
  dsimp only
  omega

theorem leaseOptionPrintLabel_len {n : ℕ} {sbuf : Bytes}
    (h : leaseOptionPrintLabel mem n sbuf d = some (text, d')) : d'.len ≤ d.len := by
  induction n generalizing sbuf d with
  | zero =>
    obtain ⟨-, rfl⟩ := Prod.mk.inj (Option.some.inj h)
    exact Nat.le_refl _
  | succ n ih =>
    rw [leaseOptionPrintLabel] at h
    cases hconsume : d.consume mem with
    | none =>
      rw [hconsume] at h
      cases h
    | some r =>
      obtain ⟨c, rest⟩ := r
      rw [hconsume] at h
      exact Nat.le_trans (ih h) (Nat.le_of_lt (LeaseData.consume_len hconsume))

variable (mem)

/-- The loop of `lease_option_print_domain_name()`. It reads from `domain`, which is `*datap` itself
until a pointer was followed, and from then on `data` is where `*datap` is. An error has what is put
into `*invalid`. -/
def printDomainNameLoop (nCache : ℕ) (domain : LeaseData) (data : Option LeaseData) (first : Bool)
    (sbuf : Bytes) : Except Bool (Bytes × LeaseData) :=
  match hc : domain.consume mem with
  | none => .error false
  | some (c, domain₁) =>
    if c &&& 0xC0 = 0x00 then
      if c.toNat = 0 then .ok (sbuf, data.getD domain₁)
      else
        match hl : leaseOptionPrintLabel mem c.toNat (appendDot first sbuf) domain₁ with
        | none => .error true
        | some (sbuf, domain₂) =>
          have := LeaseData.consume_len hc
          have := leaseOptionPrintLabel_len hl
          printDomainNameLoop nCache domain₂ data false sbuf
    else if c &&& 0xC0 = 0xC0 then
      match domain₁.consume mem with
      | none => .error true
      | some (c', domain₂) =>
        let offset := codeOffset c c'
        if offset ≥ nCache then .error true
        else
          printDomainNameLoop offset ⟨offset, nCache - offset⟩ (some (data.getD domain₂)) first sbuf
    else .error true
termination_by (nCache, domain.len)

/-- `lease_option_print_domain_name()`, where `cache` is the start of the option. -/
def leaseOptionPrintDomainName (nCache : ℕ) (data : LeaseData) :
    Except Bool (Bytes × LeaseData) :=
  if nCache ≠ data.pos then .error true else printDomainNameLoop mem nCache data none true []

variable {mem}

theorem printDomainNameLoop_len {nCache : ℕ} {domain : LeaseData} {data : Option LeaseData}
    {first : Bool} {sbuf : Bytes}
    (h : printDomainNameLoop mem nCache domain data first sbuf = .ok (text, d)) :
    d = data.getD d ∧ (data = none → d.len < domain.len) := by
  fun_induction printDomainNameLoop mem nCache domain data first sbuf with
  | case1 => cases h
  | case2 nCache domain data first sbuf c rest hc hkind hzero =>
    obtain ⟨-, rfl⟩ := Prod.mk.inj (Except.ok.inj h)
    cases data with
    | none => exact ⟨rfl, fun _ => LeaseData.consume_len hc⟩
    | some saved => exact ⟨rfl, fun hnone => by cases hnone⟩
  | case3 => cases h
  | case4 nCache domain data first sbuf c rest hc hkind hzero sbuf' rest' hl hlt hle ih =>
    obtain ⟨hdata, hlen⟩ := ih h
    exact ⟨hdata, fun hnone => Nat.lt_of_lt_of_le (hlen hnone) (by omega)⟩
  | case5 => cases h
  | case6 => cases h
  | case7 nCache domain data first sbuf c rest hc hkind hback c' rest' hc' offset hlt ih =>
    obtain ⟨rfl, -⟩ : d = data.getD rest' ∧ _ := ih h
    cases data with
    | none =>
      have hlen := LeaseData.consume_len hc
      have hlen' := LeaseData.consume_len hc'
      exact ⟨rfl, fun _ => Nat.lt_trans hlen' hlen⟩
    | some saved => exact ⟨rfl, fun hnone => by cases hnone⟩
  | case8 => cases h

variable (mem)

/-- The loop of `nm_dhcp_lease_data_parse_search_list()`. -/
def parseSearchListLoop (nCache : ℕ) (data : LeaseData) : List Bytes :=
  match h : leaseOptionPrintDomainName mem nCache data with
  | .error _ => []
  | .ok (s, rest) =>
    have : rest.len < data.len := by
      unfold leaseOptionPrintDomainName at h
      split_ifs at h
      exact (printDomainNameLoop_len h).2 rfl
    s :: parseSearchListLoop rest.pos rest
termination_by data.len

/-- `nm_dhcp_lease_data_parse_search_list()`. A null pointer is the empty list. -/
def leaseDataParseSearchList (n : ℕ) : List Bytes := parseSearchListLoop mem 0 ⟨0, n⟩

end Memory

/-!
## The domain search list is the one that the data denotes

A name at a position is read with the data before it, and a pointer goes on in that earlier data.
What the code reads is what the data denotes with the code's offsets, which are the right ones below
256.
-/

/-! ## What the data denotes -/

/-- A label of a domain name. -/
abbrev DomainLabel := List Octet

def rfcOffset (c c' : Octet) : ℕ := (c &&& 0x3F).toNat * 256 + c'.toNat

def labelAt (mem : ℕ → Octet) (pos len : ℕ) : DomainLabel :=
  (List.range len).map fun i => mem (pos + i)

section Denotes

variable (offset : Octet → Octet → ℕ) (mem : ℕ → Octet)

/-- Some data up to `hi` has a name at `pos`, and `next` is the position behind it. A pointer refers
to the data before `lo`, and what is read there has only the data before it. -/
inductive Denotes : ℕ → ℕ → ℕ → List DomainLabel → ℕ → Prop
  | root {lo pos hi : ℕ} (hpos : pos < hi) (hroot : mem pos = 0) : Denotes lo pos hi [] (pos + 1)
  | label {lo pos hi next : ℕ} {labels : List DomainLabel} (hpos : pos < hi)
      (hkind : mem pos &&& 0xC0 = 0x00) (hne : mem pos ≠ 0)
      (hfits : pos + 1 + (mem pos).toNat ≤ hi)
      (h : Denotes lo (pos + 1 + (mem pos).toNat) hi labels next) :
      Denotes lo pos hi (labelAt mem (pos + 1) (mem pos).toNat :: labels) next
  | pointer {lo pos hi next : ℕ} {labels : List DomainLabel} (hpos : pos + 1 < hi)
      (hkind : mem pos &&& 0xC0 = 0xC0) (hoffset : offset (mem pos) (mem (pos + 1)) < lo)
      (h : Denotes (offset (mem pos) (mem (pos + 1))) (offset (mem pos) (mem (pos + 1))) lo labels
        next) :
      Denotes lo pos hi labels (pos + 2)

/-- There is a name at `start`. -/
def HasName (n start : ℕ) : Prop := ∃ labels next, Denotes offset mem start start n labels next

/-- The names from one position to another. -/
inductive Names (n : ℕ) : ℕ → List (List DomainLabel) → ℕ → Prop
  | nil (start : ℕ) : Names n start [] start
  | cons {start next stop : ℕ} {labels : List DomainLabel} {names : List (List DomainLabel)}
      (h : Denotes offset mem start start n labels next) (hnames : Names n next names stop) :
      Names n start (labels :: names) stop

/-- The names up to the first one that is malformed. -/
def DenotesList (n : ℕ) (names : List (List DomainLabel)) : Prop :=
  ∃ stop, Names offset mem n 0 names stop ∧ ¬ HasName offset mem n stop

end Denotes

def labelText (label : DomainLabel) : Bytes := label.flatMap printLabelChar

def appendLabels : Bool → Bytes → List DomainLabel → Bytes
  | _, sbuf, [] => sbuf
  | first, sbuf, label :: labels =>
    appendLabels false (appendDot first sbuf ++ labelText label) labels

def nameText (labels : List DomainLabel) : Bytes := (['.'] : Bytes).intercalate (labels.map labelText)

variable {start stop : ℕ} {names : List (List DomainLabel)}

section Offset

variable {offset : Octet → Octet → ℕ} {mem : ℕ → Octet}

theorem Denotes.next_le {lo pos hi next : ℕ} {labels : List DomainLabel}
    (h : Denotes offset mem lo pos hi labels next) : pos < next ∧ next ≤ hi := by
  induction h with
  | root hpos => omega
  | label hpos _ _ hfits _ ih => omega
  | pointer hpos => omega

theorem Denotes.det {lo pos hi next next' : ℕ} {labels labels' : List DomainLabel}
    (h : Denotes offset mem lo pos hi labels next)
    (h' : Denotes offset mem lo pos hi labels' next') : labels = labels' ∧ next = next' := by
  induction h generalizing labels' next' with
  | root hpos hroot =>
    cases h' with
    | root => exact ⟨rfl, rfl⟩
    | label _ _ hne => exact absurd hroot hne
    | pointer _ hkind => simp [hroot] at hkind
  | label hpos hkind hne hfits _ ih =>
    cases h' with
    | root _ hroot => exact absurd hroot hne
    | label _ _ _ _ h' =>
      obtain ⟨rfl, rfl⟩ := ih h'
      exact ⟨rfl, rfl⟩
    | pointer _ hkind' => exact absurd (hkind.symm.trans hkind') (by decide)
  | pointer hpos hkind hoffset _ ih =>
    cases h' with
    | root _ hroot => simp [hroot] at hkind
    | label _ hkind' => exact absurd (hkind.symm.trans hkind') (by decide)
    | pointer _ _ _ h' => exact ⟨(ih h').1, rfl⟩

variable {n : ℕ} {names' : List (List DomainLabel)}

theorem Names.append {mid : ℕ} (h : Names offset mem n start names mid)
    (h' : Names offset mem n mid names' stop) :
    Names offset mem n start (names ++ names') stop := by
  induction h with
  | nil => exact h'
  | cons hname _ ih => exact .cons hname (ih h')

theorem Names.det {stop' : ℕ} (h : Names offset mem n start names stop)
    (h' : Names offset mem n start names' stop') (hlen : names.length = names'.length)
    : names = names' ∧ stop = stop' := by
  induction h generalizing names' with
  | nil =>
    obtain rfl := length_eq_zero_iff.mp hlen.symm
    cases h'
    exact ⟨rfl, rfl⟩
  | cons hname _ ih =>
    cases h' with
    | nil => cases hlen
    | cons hname' hnames' =>
      obtain ⟨rfl, rfl⟩ := hname.det hname'
      obtain ⟨rfl, rfl⟩ := ih hnames' (Nat.succ.inj hlen)
      exact ⟨rfl, rfl⟩

theorem Names.of_append (h : Names offset mem n start (names ++ names') stop) :
    ∃ mid, Names offset mem n start names mid ∧ Names offset mem n mid names' stop := by
  induction names generalizing start with
  | nil => exact ⟨start, .nil start, h⟩
  | cons labels names ih =>
    cases h with
    | cons hname h =>
      obtain ⟨mid, hnames, hnames'⟩ := ih h
      exact ⟨mid, .cons hname hnames, hnames'⟩

theorem exists_names (offset : Octet → Octet → ℕ) (mem : ℕ → Octet) (n start : ℕ) :
    ∃ names stop, Names offset mem n start names stop ∧ ¬ HasName offset mem n stop := by
  by_cases h : HasName offset mem n start
  · obtain ⟨labels, next, hname⟩ := h
    have hle := hname.next_le
    obtain ⟨names, stop, hnames, hstop⟩ := exists_names offset mem n next
    exact ⟨labels :: names, stop, .cons hname hnames, hstop⟩
  · exact ⟨[], start, .nil start, h⟩
termination_by n - start

end Offset

/-! ## The reader -/

section Reader

variable {mem : ℕ → Octet}

theorem consume_eq {pos hi : ℕ} (hpos : pos < hi) :
    LeaseData.consume mem ⟨pos, hi - pos⟩ = some (mem pos, ⟨pos + 1, hi - (pos + 1)⟩) := by
  rw [LeaseData.consume, if_neg (by dsimp only; omega)]
  rfl

theorem consume_eq_none {pos hi : ℕ} (hpos : hi ≤ pos) :
    LeaseData.consume mem ⟨pos, hi - pos⟩ = none := by
  rw [LeaseData.consume, if_pos (by dsimp only; omega)]

theorem labelAt_succ (mem : ℕ → Octet) (pos k : ℕ) :
    labelAt mem pos (k + 1) = mem pos :: labelAt mem (pos + 1) k := by
  unfold labelAt
  rw [range_succ_eq_map, map_cons, map_map, Nat.add_zero]
  congr 1
  apply map_congr_left
  intro i _
  simp only [Function.comp_apply, Nat.succ_eq_add_one]
  congr 1
  omega

theorem leaseOptionPrintLabel_eq (mem : ℕ → Octet) (k : ℕ) (sbuf : Bytes) {pos hi : ℕ}
    (hpos : pos ≤ hi) :
    leaseOptionPrintLabel mem k sbuf ⟨pos, hi - pos⟩ =
      if pos + k ≤ hi then some (sbuf ++ labelText (labelAt mem pos k), ⟨pos + k, hi - (pos + k)⟩)
      else none := by
  induction k generalizing sbuf pos with
  | zero => simp [leaseOptionPrintLabel, labelAt, labelText, hpos]
  | succ k ih =>
    rw [leaseOptionPrintLabel]
    rcases Nat.lt_or_ge pos hi with hlt | hge
    · rw [consume_eq hlt]
      dsimp only
      have hadd : pos + 1 + k = pos + (k + 1) := by omega
      rw [ih _ hlt, hadd, labelAt_succ, labelText, labelText, flatMap_cons, append_assoc]
    · rw [consume_eq_none hge, if_neg (by omega)]

/-- One step of the loop. -/
theorem printDomainNameLoop_eq {pos hi : ℕ} (hpos : pos < hi) (lo : ℕ) (data : Option LeaseData)
    (first : Bool) (sbuf : Bytes) :
    printDomainNameLoop mem lo ⟨pos, hi - pos⟩ data first sbuf =
      if mem pos &&& 0xC0 = 0x00 then
        if (mem pos).toNat = 0 then .ok (sbuf, data.getD ⟨pos + 1, hi - (pos + 1)⟩)
        else if pos + 1 + (mem pos).toNat ≤ hi then
          printDomainNameLoop mem lo
            ⟨pos + 1 + (mem pos).toNat, hi - (pos + 1 + (mem pos).toNat)⟩ data false
            (appendDot first sbuf ++ labelText (labelAt mem (pos + 1) (mem pos).toNat))
        else .error true
      else if mem pos &&& 0xC0 = 0xC0 then
        if pos + 1 < hi ∧ codeOffset (mem pos) (mem (pos + 1)) < lo then
          printDomainNameLoop mem (codeOffset (mem pos) (mem (pos + 1)))
            ⟨codeOffset (mem pos) (mem (pos + 1)), lo - codeOffset (mem pos) (mem (pos + 1))⟩
            (some (data.getD ⟨pos + 2, hi - (pos + 2)⟩)) first sbuf
        else .error true
      else .error true := by
  conv_lhs => rw [printDomainNameLoop]
  split
  · rename_i hnone
    rw [consume_eq hpos] at hnone
    cases hnone
  · rename_i c domain₁ hsome
    rw [consume_eq hpos] at hsome
    obtain ⟨rfl, rfl⟩ := Prod.mk.inj (Option.some.inj hsome)
    have hlabel := leaseOptionPrintLabel_eq mem (mem pos).toNat (appendDot first sbuf)
      (by omega : pos + 1 ≤ hi)
    split_ifs with hkind hzero hfits hback hoffset
    · rfl
    · rw [if_pos hfits] at hlabel
      split
      · rename_i hnone
        rw [hlabel] at hnone
        cases hnone
      · rename_i text rest hsome
        rw [hlabel] at hsome
        obtain ⟨rfl, rfl⟩ := Prod.mk.inj (Option.some.inj hsome)
        rfl
    · rw [if_neg hfits] at hlabel
      split
      · rfl
      · rename_i hsome
        rw [hlabel] at hsome
        cases hsome
    · rw [consume_eq hoffset.1]
      dsimp only
      rw [if_neg (Nat.not_le.mpr hoffset.2)]
    · rcases Nat.lt_or_ge (pos + 1) hi with hlt | hge
      · rw [consume_eq hlt]
        dsimp only
        rw [if_pos (Nat.not_lt.mp fun hlo => hoffset ⟨hlt, hlo⟩)]
      · rw [consume_eq_none hge]
    · rfl

theorem printDomainNameLoop_end {pos hi : ℕ} (hpos : hi ≤ pos) (lo : ℕ) (data : Option LeaseData)
    (first : Bool) (sbuf : Bytes) :
    printDomainNameLoop mem lo ⟨pos, hi - pos⟩ data first sbuf = .error false := by
  rw [printDomainNameLoop]
  split
  · rfl
  · rename_i hsome
    rw [consume_eq_none hpos] at hsome
    cases hsome

theorem Denotes.loop_eq {lo pos hi next : ℕ} {labels : List DomainLabel}
    (h : Denotes codeOffset mem lo pos hi labels next) (data : Option LeaseData) (first : Bool)
    (sbuf : Bytes) :
    printDomainNameLoop mem lo ⟨pos, hi - pos⟩ data first sbuf =
      .ok (appendLabels first sbuf labels, data.getD ⟨next, hi - next⟩) := by
  induction h generalizing data first sbuf with
  | root hpos hroot =>
    rw [printDomainNameLoop_eq hpos, hroot]
    rfl
  | label hpos hkind hne hfits _ ih =>
    have hzero : ¬ (mem _).toNat = 0 := fun hzero => hne (BitVec.eq_of_toNat_eq hzero)
    rw [printDomainNameLoop_eq hpos, if_pos hkind, if_neg hzero, if_pos hfits, ih]
    rfl
  | pointer hpos hkind hoffset _ ih =>
    have hback : ¬ mem _ &&& 0xC0 = 0x00 := fun hzero => absurd (hkind.symm.trans hzero) (by decide)
    rw [printDomainNameLoop_eq (by omega), if_neg hback, if_pos hkind, if_pos ⟨hpos, hoffset⟩, ih]
    rfl

theorem denotes_of_loop {lo pos hi : ℕ} {data : Option LeaseData} {first : Bool} {sbuf : Bytes}
    {r : Bytes × LeaseData}
    (h : printDomainNameLoop mem lo ⟨pos, hi - pos⟩ data first sbuf = .ok r) :
    ∃ labels next, Denotes codeOffset mem lo pos hi labels next := by
  rcases Nat.lt_or_ge pos hi with hpos | hpos
  · rw [printDomainNameLoop_eq hpos] at h
    split_ifs at h with hkind hzero hfits hback hoffset
    · exact ⟨[], pos + 1, .root hpos (BitVec.eq_of_toNat_eq hzero)⟩
    · obtain ⟨labels, next, hname⟩ := denotes_of_loop h
      have hne : mem pos ≠ 0 := fun hroot => hzero (congrArg BitVec.toNat hroot)
      exact ⟨_, next, .label hpos hkind hne hfits hname⟩
    · obtain ⟨labels, next, hname⟩ := denotes_of_loop h
      exact ⟨labels, pos + 2, .pointer hoffset.1 hback hoffset.2 hname⟩
  · rw [printDomainNameLoop_end hpos] at h
    cases h
termination_by (lo, hi - pos)

theorem appendLabels_eq (sbuf : Bytes) (labels : List DomainLabel) :
    appendLabels false sbuf labels =
      sbuf ++ labels.flatMap fun label => ('.' : UInt8) :: labelText label := by
  induction labels generalizing sbuf with
  | nil => simp [appendLabels]
  | cons label labels ih => simp [appendLabels, appendDot, ih]

theorem appendLabels_first (labels : List DomainLabel) :
    appendLabels true [] labels = nameText labels := by
  cases labels with
  | nil => rfl
  | cons label labels =>
    rw [appendLabels, appendLabels_eq, nameText]
    induction labels generalizing label with
    | nil => simp [appendDot, List.intercalate]
    | cons label' labels ih =>
      have htail := ih label'
      simp only [appendDot, if_true, nil_append] at htail ⊢
      rw [flatMap_cons, cons_append, htail]
      simp [List.intercalate]

theorem Names.parse_eq {n : ℕ} (h : Names codeOffset mem n start names stop)
    (hstop : ¬ HasName codeOffset mem n stop) :
    parseSearchListLoop mem start ⟨start, n - start⟩ = names.map nameText := by
  induction h with
  | nil start =>
    rw [parseSearchListLoop]
    split
    · rfl
    · rename_i hok
      rw [leaseOptionPrintDomainName, if_neg (by simp)] at hok
      exact absurd (denotes_of_loop hok) hstop
  | cons hname _ ih =>
    have hread := hname.loop_eq none true []
    rw [appendLabels_first] at hread
    rw [parseSearchListLoop]
    split
    · rename_i herror
      rw [leaseOptionPrintDomainName, if_neg (by simp), hread] at herror
      cases herror
    · rename_i s rest hok
      rw [leaseOptionPrintDomainName, if_neg (by simp), hread] at hok
      obtain ⟨rfl, rfl⟩ := Prod.mk.inj (Except.ok.inj hok)
      exact congrArg _ (ih hstop)

theorem DenotesList.parse_eq {n : ℕ} (h : DenotesList codeOffset mem n names) :
    leaseDataParseSearchList mem n = names.map nameText := by
  obtain ⟨stop, hnames, hstop⟩ := h
  exact hnames.parse_eq hstop

end Reader

/-! ## Offsets from 256 on -/

section Far

variable {mem : ℕ → Octet}

theorem codeOffset_eq (c c' : Octet) : codeOffset c c' = (c &&& 0x3F).toNat * 65536 + c'.toNat := by
  rw [codeOffset, Nat.shiftLeft_eq]

theorem rfcOffset_le_codeOffset (c c' : Octet) : rfcOffset c c' ≤ codeOffset c c' := by
  rw [codeOffset_eq, rfcOffset]
  omega

theorem codeOffset_of_near (h : c &&& 0x3F = 0) (c' : Octet) :
    codeOffset c c' = rfcOffset c c' := by
  rw [codeOffset_eq, rfcOffset, h]
  rfl

theorem le_codeOffset_of_far (h : c &&& 0x3F ≠ 0) (c' : Octet) : 2 ^ 16 ≤ codeOffset c c' := by
  have hpos : 0 < (c &&& 0x3F).toNat := by
    by_contra hzero
    exact h (BitVec.eq_of_toNat_eq (by simpa using hzero))
  rw [codeOffset_eq]
  omega

/-- On the way through a name, there is a pointer with an offset from 256 on, to data before it. -/
inductive FarPointer (mem : ℕ → Octet) : ℕ → ℕ → ℕ → Prop
  | here {lo pos hi : ℕ} (hpos : pos + 1 < hi) (hkind : mem pos &&& 0xC0 = 0xC0)
      (hfar : mem pos &&& 0x3F ≠ 0) (hoffset : rfcOffset (mem pos) (mem (pos + 1)) < lo) :
      FarPointer mem lo pos hi
  | label {lo pos hi : ℕ} (hpos : pos < hi) (hkind : mem pos &&& 0xC0 = 0x00) (hne : mem pos ≠ 0)
      (hfits : pos + 1 + (mem pos).toNat ≤ hi)
      (h : FarPointer mem lo (pos + 1 + (mem pos).toNat) hi) : FarPointer mem lo pos hi
  | pointer {lo pos hi : ℕ} (hpos : pos + 1 < hi) (hkind : mem pos &&& 0xC0 = 0xC0)
      (hnear : mem pos &&& 0x3F = 0) (hoffset : rfcOffset (mem pos) (mem (pos + 1)) < lo)
      (h : FarPointer mem (rfcOffset (mem pos) (mem (pos + 1)))
        (rfcOffset (mem pos) (mem (pos + 1))) lo) : FarPointer mem lo pos hi

variable {lo pos hi next : ℕ} {labels : List DomainLabel}

/-- Without such a pointer, offsets that agree up to 255 lead to the same names. -/
theorem Denotes.of_near {offset offset' : Octet → Octet → ℕ}
    (hle : ∀ c c', rfcOffset c c' ≤ offset c c')
    (hsame : ∀ c c', c &&& 0x3F = 0 → offset c c' = rfcOffset c c' ∧ offset' c c' = rfcOffset c c')
    (h : Denotes offset mem lo pos hi labels next) (hnear : ¬ FarPointer mem lo pos hi) :
    Denotes offset' mem lo pos hi labels next := by
  induction h with
  | root hpos hroot => exact .root hpos hroot
  | label hpos hkind hne hfits _ ih =>
    exact .label hpos hkind hne hfits (ih fun hfar => hnear (.label hpos hkind hne hfits hfar))
  | @pointer lo pos hi next labels hpos hkind hoffset _ ih =>
    have hrfc := Nat.lt_of_le_of_lt (hle _ _) hoffset
    by_cases hbits : mem pos &&& 0x3F = 0
    · obtain ⟨hoff, hoff'⟩ := hsame _ (mem (pos + 1)) hbits
      rw [hoff] at ih
      have hname := ih fun hfar => hnear (.pointer hpos hkind hbits hrfc hfar)
      rw [← hoff'] at hname hrfc
      exact .pointer hpos hkind hrfc hname
    · exact absurd (.here hpos hkind hbits hrfc) hnear

theorem Denotes.of_rfc (h : Denotes rfcOffset mem lo pos hi labels next) :
    ¬ FarPointer mem lo pos hi → Denotes codeOffset mem lo pos hi labels next :=
  h.of_near (fun _ _ => le_rfl) fun _ c' hc => ⟨rfl, codeOffset_of_near hc c'⟩

theorem Denotes.to_rfc (h : Denotes codeOffset mem lo pos hi labels next) :
    ¬ FarPointer mem lo pos hi → Denotes rfcOffset mem lo pos hi labels next :=
  h.of_near rfcOffset_le_codeOffset fun _ c' hc => ⟨codeOffset_of_near hc c', rfl⟩

theorem Denotes.not_far (h : Denotes codeOffset mem lo pos hi labels next) (hlo : lo ≤ 2 ^ 16) :
    ¬ FarPointer mem lo pos hi := by
  induction h with
  | root hpos hroot =>
    intro hfar
    cases hfar with
    | here _ hkind => simp [hroot] at hkind
    | label _ _ hne => exact hne hroot
    | pointer _ hkind => simp [hroot] at hkind
  | label hpos hkind hne hfits _ ih =>
    intro hfar
    cases hfar with
    | here _ hkind' => exact absurd (hkind.symm.trans hkind') (by decide)
    | label _ _ _ _ hfar => exact ih hlo hfar
    | pointer _ hkind' => exact absurd (hkind.symm.trans hkind') (by decide)
  | @pointer lo pos hi next labels hpos hkind hoffset _ ih =>
    intro hfar
    cases hfar with
    | here _ _ hbits =>
      have hlarge := le_codeOffset_of_far hbits (mem (pos + 1))
      omega
    | label _ hkind' => exact absurd (hkind.symm.trans hkind') (by decide)
    | pointer _ _ hbits _ hfar =>
      rw [← codeOffset_of_near hbits _] at hfar
      exact ih (by omega) hfar

variable {n : ℕ}

theorem Names.to_rfc (h : Names codeOffset mem n start names stop) (hn : n ≤ 2 ^ 16) :
    Names rfcOffset mem n start names stop := by
  induction h with
  | nil start => exact .nil start
  | cons hname _ ih =>
    have hle := hname.next_le
    exact .cons (hname.to_rfc (hname.not_far (by omega))) ih

/-- The position of a name, or of the malformed rest. -/
def IsStart (mem : ℕ → Octet) (n start : ℕ) : Prop := ∃ names, Names rfcOffset mem n 0 names start

/-- No name has a pointer with an offset from 256 on. In data of more than 64 KiB, the malformed
rest has none either. -/
def PointersInReach (mem : ℕ → Octet) (n : ℕ) : Prop :=
  ∀ start, IsStart mem n start → FarPointer mem start start n →
    n ≤ 2 ^ 16 ∧ ¬ HasName rfcOffset mem n start

theorem Names.of_rfc (h : Names rfcOffset mem n start names stop)
    (hnear : ∀ names' s, Names rfcOffset mem n start names' s → HasName rfcOffset mem n s → ¬ FarPointer mem s s n)
    : Names codeOffset mem n start names stop := by
  induction h with
  | nil start => exact .nil start
  | @cons start next stop labels names hname _ ih =>
    have hcode := hname.of_rfc (hnear [] start (.nil start) ⟨labels, next, hname⟩)
    exact .cons hcode (ih fun names' s hnames' => hnear (labels :: names') s (.cons hname hnames'))

theorem PointersInReach.denotesList (h : PointersInReach mem n)
    (hnames : DenotesList rfcOffset mem n names) : DenotesList codeOffset mem n names := by
  obtain ⟨stop, hnames, hstop⟩ := hnames
  refine ⟨stop, hnames.of_rfc fun names' s hs hname hfar => (h s ⟨names', hs⟩ hfar).2 hname, ?_⟩
  rintro ⟨labels, next, hname⟩
  by_cases hfar : FarPointer mem stop stop n
  · have hle := hname.next_le
    have hn := (h stop ⟨names, hnames⟩ hfar).1
    exact hname.not_far (by omega) hfar
  · exact hstop ⟨labels, next, hname.to_rfc hfar⟩

theorem pointersInReach_of_parse (mem : ℕ → Octet) {n : ℕ} (hn : n ≤ 2 ^ 16)
    (h : ∀ names, DenotesList rfcOffset mem n names →
      leaseDataParseSearchList mem n = names.map nameText) : PointersInReach mem n := by
  intro start hstart hfar
  refine ⟨hn, ?_⟩
  rintro ⟨labels, next, hname⟩
  obtain ⟨names, hnames⟩ := hstart
  obtain ⟨rest, stop, hrest, hstop⟩ := exists_names rfcOffset mem n next
  obtain ⟨read, stop', hread, hstop'⟩ := exists_names codeOffset mem n 0
  have hall : Names rfcOffset mem n 0 (names ++ labels :: rest) stop :=
    hnames.append (.cons hname hrest)
  have hlen : read.length = (names ++ labels :: rest).length := by
    have hmap := (DenotesList.parse_eq ⟨stop', hread, hstop'⟩).symm.trans (h _ ⟨stop, hall, hstop⟩)
    simpa using congrArg List.length hmap
  obtain ⟨rfl, rfl⟩ := (hread.to_rfc hn).det hall hlen
  obtain ⟨mid, hbefore, hafter⟩ := hread.of_append
  obtain ⟨-, rfl⟩ := (hbefore.to_rfc hn).det hnames rfl
  cases hafter with
  | cons hcode =>
    have hle := hcode.next_le
    exact hcode.not_far (by omega) hfar

end Far

/-! ## Encodings -/

/-- A name is written at a position: its labels, and then a zero or a pointer to where the other
ones are known to be. -/
inductive EncodesName (mem : ℕ → Octet) (known : ℕ → List DomainLabel → Prop) :
    ℕ → List DomainLabel → ℕ → Prop
  | root {pos : ℕ} (hroot : mem pos = 0) : EncodesName mem known pos [] (pos + 1)
  | label {pos next : ℕ} {label : DomainLabel} {labels : List DomainLabel} (hne : label ≠ [])
      (hlen : label.length < 64) (hsize : (mem pos).toNat = label.length)
      (hbytes : labelAt mem (pos + 1) label.length = label)
      (h : EncodesName mem known (pos + 1 + label.length) labels next) :
      EncodesName mem known pos (label :: labels) next
  | pointer {pos : ℕ} {labels : List DomainLabel} (hkind : mem pos &&& 0xC0 = 0xC0)
      (hknown : known (rfcOffset (mem pos) (mem (pos + 1))) labels) :
      EncodesName mem known pos labels (pos + 2)

/-- Names are written one after the other, with what is known to be where then: each name, and what
is left of it from a later position. -/
inductive Encodes (mem : ℕ → Octet) :
    ℕ → List (List DomainLabel) → (ℕ → List DomainLabel → Prop) → Prop
  | nil : Encodes mem 0 [] fun _ _ => False
  | append {pos next : ℕ} {names : List (List DomainLabel)} {known : ℕ → List DomainLabel → Prop}
      {labels : List DomainLabel} (h : Encodes mem pos names known)
      (hname : EncodesName mem known pos labels next) :
      Encodes mem next (names ++ [labels]) fun start suffix =>
        known start suffix ∨ pos ≤ start ∧ EncodesName mem known start suffix next

section Encodes

variable {mem : ℕ → Octet} {known : ℕ → List DomainLabel → Prop}

theorem EncodesName.lt {pos next : ℕ} {labels : List DomainLabel}
    (h : EncodesName mem known pos labels next) : pos < next := by
  induction h with
  | root => omega
  | label _ _ _ _ _ ih => omega
  | pointer => omega

/-- What is known at a position is denoted there. -/
def KnownDenoted (mem : ℕ → Octet) (known : ℕ → List DomainLabel → Prop) (stop : ℕ) : Prop :=
  ∀ start labels, known start labels → start < stop ∧
    ∀ hi, stop ≤ hi → ∃ next, Denotes rfcOffset mem start start hi labels next

theorem labelKind : ∀ c : Octet, c.toNat < 64 → c &&& 0xC0 = 0x00 := by decide

theorem EncodesName.denotes {pos next lo hi : ℕ} {labels : List DomainLabel}
    (h : EncodesName mem known pos labels next) (hknown : KnownDenoted mem known stop)
    (hlo : stop ≤ lo) (hhi : next ≤ hi) : Denotes rfcOffset mem lo pos hi labels next := by
  induction h with
  | root hroot => exact .root (by omega) hroot
  | @label pos next label labels hne hlen hsize hbytes h ih =>
    have hlt := h.lt
    have hpos : 0 < label.length := length_pos_iff.mpr hne
    have hzero : mem pos ≠ 0 := by
      intro hzero
      rw [hzero] at hsize
      exact absurd hsize (Nat.ne_of_lt hpos)
    have hname := ih hhi
    rw [← hsize] at hname hbytes
    have hlabel := Denotes.label (by omega) (labelKind _ (by omega)) hzero (by omega) hname
    rwa [hbytes] at hlabel
  | @pointer pos labels hkind hlabels =>
    obtain ⟨hlt, hdenoted⟩ := hknown _ _ hlabels
    obtain ⟨next, hname⟩ := hdenoted lo hlo
    exact .pointer (by omega) hkind (by omega) hname

theorem Encodes.denotes {pos : ℕ} (h : Encodes mem pos names known) :
    KnownDenoted mem known pos ∧ ∀ n, pos ≤ n → Names rfcOffset mem n 0 names pos := by
  induction h with
  | nil => exact ⟨fun _ _ hknown => hknown.elim, fun n _ => .nil 0⟩
  | @append pos next names known labels _ hname ih =>
    obtain ⟨hknown, hnames⟩ := ih
    have hlt := hname.lt
    constructor
    · rintro start suffix (hsuffix | ⟨hstart, hsuffix⟩)
      · obtain ⟨hbefore, hdenoted⟩ := hknown start suffix hsuffix
        exact ⟨by omega, fun hi hhi => hdenoted hi (by omega)⟩
      · exact ⟨hsuffix.lt, fun hi hhi => ⟨next, hsuffix.denotes hknown hstart hhi⟩⟩
    · intro n hn
      have hlast := hname.denotes hknown (Nat.le_refl pos) hn
      exact (hnames n (by omega)).append (.cons hlast (.nil next))

theorem Encodes.denotesList {n : ℕ} (h : Encodes mem n names known) :
    DenotesList rfcOffset mem n names := by
  refine ⟨n, h.denotes.2 n (Nat.le_refl n), ?_⟩
  rintro ⟨labels, next, hname⟩
  have hle := hname.next_le
  omega

end Encodes

/-- A letter, a digit, `-` or `_`. -/
def IsNameChar (c : Octet) : Prop :=
  isAlnum (.ofBitVec c) ∨ UInt8.ofBitVec c = '-' ∨ UInt8.ofBitVec c = '_'

def plainName (labels : List DomainLabel) : Bytes :=
  (['.'] : Bytes).intercalate (labels.map fun label => label.map UInt8.ofBitVec)

theorem nameText_eq_plainName {labels : List DomainLabel}
    (h : ∀ label ∈ labels, ∀ c ∈ label, IsNameChar c) : nameText labels = plainName labels := by
  have hlabel : ∀ label ∈ labels, labelText label = label.map UInt8.ofBitVec := by
    intro label hmem
    have hchar : ∀ c ∈ label, printLabelChar c = [UInt8.ofBitVec c] :=
      fun c hc => if_pos (h label hmem c hc)
    rw [labelText, flatMap_congr hchar, map_eq_flatMap]
  rw [nameText, plainName, map_congr_left hlabel]

/-! ## What is read of the memory -/

section Local

variable {offset : Octet → Octet → ℕ} {mem mem' : ℕ → Octet} {n : ℕ}

theorem Denotes.congr {lo pos hi next : ℕ} {labels : List DomainLabel}
    (h : Denotes offset mem lo pos hi labels next) (hmem : ∀ i < n, mem' i = mem i) (hlo : lo ≤ n)
    (hhi : hi ≤ n) : Denotes offset mem' lo pos hi labels next := by
  induction h with
  | root hpos hroot => exact .root hpos ((hmem _ (by omega)).trans hroot)
  | @label lo pos hi next labels hpos hkind hne hfits _ ih =>
    have hname := ih hlo hhi
    rw [← hmem pos (by omega)] at hkind hne hfits hname
    have hlabel : labelAt mem (pos + 1) (mem pos).toNat =
        labelAt mem' (pos + 1) (mem' pos).toNat := by
      rw [hmem pos (by omega)] at hfits ⊢
      apply map_congr_left
      intro i hi
      have hlt := mem_range.mp hi
      exact (hmem _ (by omega)).symm
    rw [hlabel]
    exact .label hpos hkind hne hfits hname
  | @pointer lo pos hi next labels hpos hkind hoffset _ ih =>
    have hname := ih (by omega) hlo
    rw [← hmem pos (by omega)] at hkind
    rw [← hmem pos (by omega), ← hmem (pos + 1) (by omega)] at hoffset hname
    exact .pointer hpos hkind hoffset hname

theorem HasName.congr (h : HasName offset mem n start) (hmem : ∀ i < n, mem' i = mem i)
    : HasName offset mem' n start := by
  obtain ⟨labels, next, hname⟩ := h
  have hle := hname.next_le
  exact ⟨labels, next, hname.congr hmem (by omega) (Nat.le_refl n)⟩

theorem Names.congr (h : Names offset mem n start names stop) (hmem : ∀ i < n, mem' i = mem i) :
    Names offset mem' n start names stop := by
  induction h with
  | nil start => exact .nil start
  | cons hname _ ih =>
    have hle := hname.next_le
    exact .cons (hname.congr hmem (by omega) (Nat.le_refl n)) ih

theorem leaseDataParseSearchList_congr (hmem : ∀ i < n, mem' i = mem i) :
    leaseDataParseSearchList mem' n = leaseDataParseSearchList mem n := by
  obtain ⟨names, stop, hnames, hstop⟩ := exists_names codeOffset mem n 0
  have hstop' : ¬ HasName codeOffset mem' n stop := fun hname =>
    hstop (hname.congr fun i hi => (hmem i hi).symm)
  rw [DenotesList.parse_eq ⟨stop, hnames, hstop⟩,
    DenotesList.parse_eq ⟨stop, hnames.congr hmem, hstop'⟩]

end Local

/-- What is promised of the search list. -/
structure SearchListDecoded (mem : ℕ → Octet) (n : ℕ) : Prop where
  /-- The names that the data denotes are returned, up to the first one that is malformed. -/
  denoted : ∀ names, DenotesList rfcOffset mem n names →
    leaseDataParseSearchList mem n = names.map nameText
  /-- An encoding of usual names is decoded, however it is compressed. -/
  encoded : ∀ names known, Encodes mem n names known →
    (∀ labels ∈ names, ∀ label ∈ labels, ∀ c ∈ label, IsNameChar c) →
      leaseDataParseSearchList mem n = names.map plainName
  /-- Only the data is read. -/
  confined : ∀ mem', (∀ i < n, mem' i = mem i) →
    leaseDataParseSearchList mem' n = leaseDataParseSearchList mem n

/-- The names are decoded where no pointer has an offset from 256 on, and only there in data of up
to 64 KiB. -/
theorem search_list_decoded (mem : ℕ → Octet) (n : ℕ) :
    (PointersInReach mem n → SearchListDecoded mem n) ∧
      (n ≤ 2 ^ 16 → SearchListDecoded mem n → PointersInReach mem n) := by
  constructor
  · intro hreach
    have hdenoted : ∀ names, DenotesList rfcOffset mem n names →
        leaseDataParseSearchList mem n = names.map nameText :=
      fun names hnames => (hreach.denotesList hnames).parse_eq
    refine ⟨hdenoted, fun names known h hplain => ?_, fun mem' => leaseDataParseSearchList_congr⟩
    rw [hdenoted names h.denotesList]
    apply map_congr_left
    intro labels hlabels
    exact nameText_eq_plainName (hplain labels hlabels)
  · intro hn h
    exact pointersInReach_of_parse mem hn h.denoted

/-- Names of the root up to position 256, then `a`, and then a pointer to it. -/
def farData : ℕ → Octet
  | 256 => 0x01
  | 257 => 0x61
  | 259 => 0xC1
  | _ => 0x00

/-- The second `a` is not decoded. -/
theorem far_pointer_not_decoded : ¬ ∀ mem n, SearchListDecoded mem n := by
  intro h
  have hreach := pointersInReach_of_parse farData (by decide) (h farData 261).denoted
  have hzero : ∀ k < 256, farData k = 0 := by decide +kernel
  have hroots : ∀ k ≤ 256, Names rfcOffset farData 261 0 (List.replicate k []) k := by
    intro k hk
    induction k with
    | zero => exact .nil 0
    | succ k ih =>
      rw [replicate_succ']
      exact (ih (by omega)).append (.cons (.root (by omega) (hzero k (by omega))) (.nil _))
  have hone : (farData 256).toNat = 1 := by decide
  have ha (lo hi : ℕ) (hhi : 259 ≤ hi) : Denotes rfcOffset farData lo 256 hi
      [labelAt farData 257 1] 259 :=
    .label (by omega) (by decide) (by decide) (by omega) (.root (by omega) (by decide))
  have hstart : IsStart farData 261 259 :=
    ⟨_, (hroots 256 (Nat.le_refl _)).append (.cons (ha 256 261 (by omega)) (.nil 259))⟩
  have hfar : FarPointer farData 259 259 261 := .here (by omega) (by decide) (by decide) (by decide)
  have hname : HasName rfcOffset farData 261 259 :=
    ⟨_, _, .pointer (by omega) (by decide) (by decide) (ha 256 259 (Nat.le_refl _))⟩
  exact (hreach 259 hstart hfar).2 hname

end NetworkManager.Core
