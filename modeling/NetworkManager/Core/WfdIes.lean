import NetworkManager.Lib.Bytes

/-!
# Information elements of Wi-Fi Display

The capabilities of a Wi-Fi Display device are written as subelements, and read from the
subelements of another device. The reader goes through the bytes by a pointer and a remaining
length, and reads what it has found behind the end of the loop.
-/

namespace NetworkManager.Core

open Lib

/-! ## The program -/

structure NMIwdWfdInfo where
  source : Bool
  sink : Bool
  port : UInt16
  hasAudio : Bool
  hasUibc : Bool
  hasCp : Bool
  deriving DecidableEq

def wfdSubelemWfdDeviceInformation : UInt8 := 0

def wfdSubelemExtendedCapability : UInt8 := 7

def readTwo (data : Bytes) (i : ℕ) : Option UInt16 :=
  match data[i]?, data[i + 1]? with
  | some hi, some lo => some (hi.toUInt16 <<< 8 ||| lo.toUInt16)
  | _, _ => none

/-- The variables of the loop: the pointer into the data, the remaining length, and what was found,
each with where it is and its length. -/
structure WfdScan where
  data : ℕ
  len : ℕ
  devInfo : Option (ℕ × ℕ)
  extCapability : Option (ℕ × ℕ)
  deriving DecidableEq

/-- The variables behind a subelement, which is remembered if it is of one of the two kinds. -/
def WfdScan.next (s : WfdScan) (subelemId : UInt8) (subelemLen : ℕ) : WfdScan where
  data := s.data + 3 + subelemLen
  len := s.len - 3 - subelemLen
  devInfo :=
    if subelemId = wfdSubelemWfdDeviceInformation then some (s.data + 3, subelemLen) else s.devInfo
  extCapability :=
    if subelemId = wfdSubelemExtendedCapability then some (s.data + 3, subelemLen)
    else s.extCapability

/-- The loop over the subelements. There is no value where it reads outside of the data or does not
end, and no scan where it returns. -/
def wfdScanLoop (ies : Bytes) : ℕ → WfdScan → Option (Option WfdScan)
  | 0, _ => none
  | fuel + 1, s =>
    if s.len = 0 then some (some s)
    else if s.len < 3 then some none
    else
      match ies[s.data]?, readTwo ies (s.data + 1) with
      | some subelemId, some subelemLen =>
        if s.len - 3 < subelemLen.toNat then some none
        else if subelemId = wfdSubelemWfdDeviceInformation ∧ s.devInfo.isSome then some none
        else if subelemId = wfdSubelemExtendedCapability ∧ s.extCapability.isSome then some none
        else wfdScanLoop ies fuel (s.next subelemId subelemLen.toNat)
      | _, _ => none

def readUibc (ies : Bytes) (extCapability : Option (ℕ × ℕ)) : Option Bool :=
  match extCapability with
  | none => some false
  | some (ext, _) => (ies[ext + 1]?).map fun b : UInt8 => b &&& 1 = 1

def wfdFlagsSupported (flags : UInt16) : Bool :=
  flags &&& 3 ≠ 2 ∧ flags >>> 4 &&& 3 = 1 ∧ flags >>> 13 &&& 1 = 0

/-- What is stored in the result. -/
def wfdInfo (flags port : UInt16) (hasUibc : Bool) : NMIwdWfdInfo :=
  let sink : Bool := flags &&& 3 = 1 ∨ flags &&& 3 = 3
  { source := flags &&& 3 = 0 ∨ flags &&& 3 = 3
    sink := sink
    port := port
    hasAudio := if sink then flags >>> 10 &&& 1 = 0 else flags >>> 11 &&& 1 = 1
    hasUibc := hasUibc
    hasCp := flags >>> 8 &&& 1 = 1 }

/-- `nm_wifi_utils_parse_wfd_ies()` behind the loop. -/
def wfdReadInfo (ies : Bytes) (s : WfdScan) : Option (Option NMIwdWfdInfo) :=
  match s.devInfo with
  | none => some none
  | some (devInfo, devInfoLen) =>
    if devInfoLen ≠ 6 then some none
    else
      match readTwo ies devInfo with
      | none => none
      | some flags =>
        if wfdFlagsSupported flags = false then some none
        else if ∃ ext ∈ s.extCapability, ext.2 ≠ 2 then some none
        else
          match readTwo ies (devInfo + 2), readUibc ies s.extCapability with
          | some port, some hasUibc => some (some (wfdInfo flags port hasUibc))
          | _, _ => none

/-- `nm_wifi_utils_parse_wfd_ies()`. Every subelement makes the remaining length smaller. -/
def parseWfdIes (ies : Bytes) : Option (Option NMIwdWfdInfo) :=
  match wfdScanLoop ies (ies.length + 1) ⟨0, ies.length, none, none⟩ with
  | none => none
  | some none => some none
  | some (some s) => wfdReadInfo ies s

/-- The byte of flags, which is computed as an `int`. -/
def wfdFlagsByte (wfd : NMIwdWfdInfo) : UInt8 :=
  let role : ℕ := if wfd.source then (if wfd.sink then 3 else 0) else 1
  UInt8.ofNat
    (role ||| 0x10 ||| (if wfd.hasCp then 0x100 else 0) ||| (if wfd.hasAudio then 0 else 0x400))

def buildWfdIes (wfd : NMIwdWfdInfo) : Bytes :=
  [wfdSubelemWfdDeviceInformation, 0, 6, 0, wfdFlagsByte wfd, (wfd.port >>> 8).toUInt8,
    (wfd.port &&& 255).toUInt8, 0, 10] ++
  if wfd.hasUibc then [wfdSubelemExtendedCapability, 0, 2, 0x00, 0x10] else []

def wfdInfoEq (a b : NMIwdWfdInfo) : Bool :=
  a.source = b.source ∧ a.sink = b.sink ∧ a.port = b.port ∧ a.hasAudio = b.hasAudio ∧
    a.hasUibc = b.hasUibc ∧ a.hasCp = b.hasCp

/-! ## Complete sequences -/

def subelement (id : UInt8) (payload : Bytes) : Bytes :=
  id :: UInt8.ofNat (payload.length / 256) :: UInt8.ofNat payload.length :: payload

def subelements (elems : List (UInt8 × Bytes)) : Bytes :=
  elems.flatMap fun elem => subelement elem.1 elem.2

def payloads (id : UInt8) (elems : List (UInt8 × Bytes)) : List Bytes :=
  (elems.filter fun elem => elem.1 = id).map (·.2)

/-- A complete sequence of subelements with one device information, and at most one extended
capability, of the right lengths. -/
structure CompleteWfdIes (ies : Bytes) (elems : List (UInt8 × Bytes)) : Prop where
  eq : ies = subelements elems
  length : ∀ elem ∈ elems, elem.2.length < 65536
  devInfo : ∃ payload, payloads wfdSubelemWfdDeviceInformation elems = [payload] ∧ payload.length = 6
  extCapability : payloads wfdSubelemExtendedCapability elems = [] ∨
    ∃ payload, payloads wfdSubelemExtendedCapability elems = [payload] ∧ payload.length = 2

/-- What the loop has found of a kind: the only payload so far, by its place and length. -/
def Found (ies : Bytes) (payloads : List Bytes) : Option (ℕ × ℕ) → Prop
  | none => payloads = []
  | some (i, n) => ∃ payload, payloads = [payload] ∧ payload.length = n ∧ i + n ≤ ies.length

/-- The loop is behind these subelements. -/
structure WfdScan.Behind (s : WfdScan) (ies : Bytes) (elems : List (UInt8 × Bytes)) : Prop where
  take : ies.take s.data = subelements elems
  length : ∀ elem ∈ elems, elem.2.length < 65536
  len : s.data + s.len = ies.length
  devInfo : Found ies (payloads wfdSubelemWfdDeviceInformation elems) s.devInfo
  extCapability : Found ies (payloads wfdSubelemExtendedCapability elems) s.extCapability

section Scan

variable {ies : Bytes} {i : ℕ} {lo id hi : UInt8}

theorem subelements_concat (elems : List (UInt8 × Bytes)) (elem : UInt8 × Bytes) :
    subelements (elems ++ [elem]) = subelements elems ++ subelement elem.1 elem.2 := by
  simp [subelements]

theorem payloads_concat (id : UInt8) (elems : List (UInt8 × Bytes)) (elem : UInt8 × Bytes) :
    payloads id (elems ++ [elem]) =
      payloads id elems ++ if elem.1 = id then [elem.2] else [] := by
  by_cases h : elem.1 = id <;> simp [payloads, h]

theorem readTwo_eq (h : i + 1 < ies.length) :
    ∃ hi lo, ies[i]? = some hi ∧ ies[i + 1]? = some lo ∧
      readTwo ies i = some (hi.toUInt16 <<< 8 ||| lo.toUInt16) := by
  refine ⟨ies[i], ies[i + 1], by simp, by simp, ?_⟩
  simp [readTwo, h, Nat.lt_of_succ_lt h]

theorem toNat_be16 (hi lo : UInt8) :
    (hi.toUInt16 <<< 8 ||| lo.toUInt16).toNat = hi.toNat * 256 + lo.toNat := by
  have hlo : lo.toNat < 2 ^ 8 := lo.toNat_lt
  have hhi : hi.toNat < 256 := hi.toNat_lt
  have hshift : hi.toNat <<< 8 = hi.toNat * 256 := Nat.shiftLeft_eq _ _
  rw [UInt16.toNat_or, UInt16.toNat_shiftLeft]
  simp only [UInt8.toNat_toUInt16, UInt16.reduceToNat, Nat.reduceMod]
  rw [hshift, Nat.mod_eq_of_lt (by omega), Nat.mul_comm, ← Nat.two_pow_add_eq_or_of_lt hlo]

theorem take_subelement (hid : ies[i]? = some id) (hhi : ies[i + 1]? = some hi)
    (hlo : ies[i + 2]? = some lo) (hend : i + 3 + (hi.toNat * 256 + lo.toNat) ≤ ies.length) :
    ∃ payload, payload.length = hi.toNat * 256 + lo.toNat ∧
      ies.take (i + 3 + (hi.toNat * 256 + lo.toNat)) = ies.take i ++ subelement id payload := by
  have hlt : lo.toNat < 256 := lo.toNat_lt
  refine ⟨(ies.drop (i + 3)).take (hi.toNat * 256 + lo.toNat), by simp; omega, ?_⟩
  have hlen : ((ies.drop (i + 3)).take (hi.toNat * 256 + lo.toNat)).length =
      hi.toNat * 256 + lo.toNat := by simp; omega
  have hheader : ies.take (i + 3) = ies.take i ++ [id, hi, lo] := by
    rw [List.take_add_one, List.take_add_one, List.take_add_one, hid, hhi, hlo]
    simp
  have hdiv : (hi.toNat * 256 + lo.toNat) / 256 = hi.toNat := by omega
  have hmod : UInt8.ofNat (hi.toNat * 256 + lo.toNat) = lo := by
    apply UInt8.toNat_inj.mp
    simp
  rw [List.take_add, hheader, subelement, hlen, hdiv, hmod]
  simp

theorem WfdScan.Behind.step {s : WfdScan} {elems : List (UInt8 × Bytes)} (h : s.Behind ies elems)
    (hid : ies[s.data]? = some id) (hhi : ies[s.data + 1]? = some hi)
    (hlo : ies[s.data + 2]? = some lo) (hlen : 3 ≤ s.len)
    (hfit : hi.toNat * 256 + lo.toNat ≤ s.len - 3)
    (hdev : id = wfdSubelemWfdDeviceInformation → s.devInfo = none)
    (hext : id = wfdSubelemExtendedCapability → s.extCapability = none) :
    ∃ elems', (s.next id (hi.toNat * 256 + lo.toNat)).Behind ies elems' := by
  have hbound := h.len
  have hend : s.data + 3 + (hi.toNat * 256 + lo.toNat) ≤ ies.length := by omega
  obtain ⟨payload, hpayload, htake⟩ := take_subelement hid hhi hlo hend
  have hhi' : hi.toNat < 256 := hi.toNat_lt
  have hlo' : lo.toNat < 256 := lo.toNat_lt
  have hfound (kind : UInt8) (found : Option (ℕ × ℕ)) (hbefore : Found ies (payloads kind elems) found)
      (hnone : id = kind → found = none) :
      Found ies (payloads kind (elems ++ [(id, payload)]))
        (if id = kind then some (s.data + 3, hi.toNat * 256 + lo.toNat) else found) := by
    rw [payloads_concat]
    by_cases hkind : id = kind
    · rw [hnone hkind] at hbefore
      have hempty : payloads kind elems = [] := hbefore
      simp only [hkind, if_true, hempty, List.nil_append]
      exact ⟨payload, rfl, hpayload, hend⟩
    · simpa [hkind] using hbefore
  refine ⟨elems ++ [(id, payload)], ?_, ?_, ?_, hfound _ _ h.devInfo hdev,
    hfound _ _ h.extCapability hext⟩
  · rw [subelements_concat, ← h.take]
    exact htake
  · intro elem helem
    rcases List.mem_append.mp helem with helem | helem
    · exact h.length elem helem
    · obtain rfl := List.mem_singleton.mp helem
      dsimp only
      omega
  · simp only [WfdScan.next]
    omega

theorem wfdScanLoop_spec (fuel : ℕ) {s : WfdScan} {elems : List (UInt8 × Bytes)}
    (h : s.Behind ies elems) (hfuel : s.len < fuel) :
    ∃ r, wfdScanLoop ies fuel s = some r ∧
      ∀ s' ∈ r, s'.len = 0 ∧ ∃ elems', s'.Behind ies elems' := by
  induction fuel generalizing s elems with
  | zero => omega
  | succ fuel ih =>
    rw [wfdScanLoop]
    by_cases hzero : s.len = 0
    · exact ⟨some s, if_pos hzero, by rintro _ ⟨⟩; exact ⟨hzero, elems, h⟩⟩
    by_cases hshort : s.len < 3
    · exact ⟨none, by simp [hzero, hshort], by simp⟩
    have hbound := h.len
    obtain ⟨hi, lo, hhi, hlo, htwo⟩ := @readTwo_eq ies (s.data + 1) (by omega)
    have hid : ies[s.data]? = some ies[s.data] := List.getElem?_eq_getElem (by omega)
    simp only [hzero, hshort, if_false, hid, htwo, toNat_be16]
    split_ifs with hlen hdev hext
    · exact ⟨none, rfl, by simp⟩
    · exact ⟨none, rfl, by simp⟩
    · exact ⟨none, rfl, by simp⟩
    · have hdev' : ies[s.data] = wfdSubelemWfdDeviceInformation → s.devInfo = none := by
        intro heq
        simpa [heq] using hdev
      have hext' : ies[s.data] = wfdSubelemExtendedCapability → s.extCapability = none := by
        intro heq
        simpa [heq] using hext
      obtain ⟨elems', hstep⟩ := h.step hid hhi hlo (by omega) (by omega) hdev' hext'
      exact ih hstep (by simp only [WfdScan.next]; omega)

theorem wfdScanLoop_start (ies : Bytes) :
    ∃ r, wfdScanLoop ies (ies.length + 1) ⟨0, ies.length, none, none⟩ = some r ∧
      ∀ s ∈ r, s.len = 0 ∧ ∃ elems, s.Behind ies elems :=
  @wfdScanLoop_spec _ (ies.length + 1) _ []
    ⟨rfl, by simp, by simp, rfl, rfl⟩ (Nat.lt_succ_self _)

theorem WfdScan.Behind.eq_subelements {s : WfdScan} {elems : List (UInt8 × Bytes)}
    (h : s.Behind ies elems) (hlen : s.len = 0) : ies = subelements elems := by
  have hend := h.len
  rw [hlen, Nat.add_zero] at hend
  rw [← h.take, hend, List.take_length]

theorem readUibc_eq {found : Option (ℕ × ℕ)} {l : List Bytes} (h : Found ies l found)
    (hlen : ¬ ∃ ext ∈ found, ext.2 ≠ 2) :
    (∃ uibc, readUibc ies found = some uibc) ∧
      (l = [] ∨ ∃ payload, l = [payload] ∧ payload.length = 2) := by
  cases found with
  | none => exact ⟨⟨false, rfl⟩, .inl h⟩
  | some ext =>
    obtain ⟨i, n⟩ := ext
    obtain ⟨payload, hl, hn, hbound⟩ := h
    have htwo : n = 2 := by simpa using hlen
    subst htwo
    have hget : ies[i + 1]? = some ies[i + 1] := List.getElem?_eq_getElem (by omega)
    exact ⟨⟨ies[i + 1] &&& 1 = 1, by simp [readUibc, hget]⟩, .inr ⟨payload, hl, hn⟩⟩

theorem wfdReadInfo_spec {s : WfdScan} {elems : List (UInt8 × Bytes)} (h : s.Behind ies elems)
    (hlen : s.len = 0) :
    ∃ r, wfdReadInfo ies s = some r ∧ ∀ info ∈ r, CompleteWfdIes ies elems := by
  have hdev := h.devInfo
  rw [wfdReadInfo]
  cases hd : s.devInfo with
  | none => exact ⟨none, rfl, by simp⟩
  | some devInfo =>
    obtain ⟨i, n⟩ := devInfo
    rw [hd] at hdev
    obtain ⟨payload, hpayload, hn, hbound⟩ := hdev
    dsimp only
    by_cases hsix : n = 6
    · subst hsix
      obtain ⟨_, _, -, -, hflags⟩ := @readTwo_eq ies i (by omega)
      obtain ⟨_, _, -, -, hport⟩ := @readTwo_eq ies (i + 2) (by omega)
      simp only [hflags, ne_eq, not_true, if_false]
      split_ifs with hsupported hext
      · exact ⟨none, rfl, by simp⟩
      · exact ⟨none, rfl, by simp⟩
      · obtain ⟨⟨uibc, huibc⟩, hcapability⟩ := readUibc_eq h.extCapability hext
        rw [hport, huibc]
        exact ⟨_, rfl, fun _ _ =>
          ⟨h.eq_subelements hlen, h.length, ⟨payload, hpayload, hn⟩, hcapability⟩⟩
    · exact ⟨none, by simp [hsix], by simp⟩

theorem parseWfdIes_spec (ies : Bytes) :
    ∃ r, parseWfdIes ies = some r ∧ ∀ info ∈ r, ∃ elems, CompleteWfdIes ies elems := by
  obtain ⟨r, hloop, hbehind⟩ := wfdScanLoop_start ies
  rw [parseWfdIes, hloop]
  cases r with
  | none => exact ⟨none, rfl, by simp⟩
  | some s =>
    obtain ⟨hlen, elems, h⟩ := hbehind s rfl
    obtain ⟨r, hr, hcomplete⟩ := wfdReadInfo_spec h hlen
    exact ⟨r, hr, fun info hinfo => ⟨elems, hcomplete info hinfo⟩⟩

end Scan

/-! ## The round trip -/

section RoundTrip

theorem be16_split (p : UInt16) :
    (p >>> 8).toUInt8.toUInt16 <<< 8 ||| (p &&& 255).toUInt8.toUInt16 = p := by
  have hp : p.toNat < 65536 := p.toNat_lt
  have hand (n : ℕ) : n &&& 255 = n % 256 := Nat.and_two_pow_sub_one_eq_mod n 8
  apply UInt16.toNat_inj.mp
  rw [toNat_be16]
  simp [hand, Nat.shiftRight_eq_div_pow]
  omega

theorem wfdFlagsByte_read : ∀ source sink hasAudio hasCp : Bool, source ∨ sink →
    let flags := (0 : UInt8).toUInt16 <<< 8 |||
      (wfdFlagsByte ⟨source, sink, 0, hasAudio, false, hasCp⟩).toUInt16
    wfdFlagsSupported flags ∧
      wfdInfo flags 0 false = ⟨source, sink, 0, sink, false, false⟩ := by
  decide +kernel

theorem wfdFlags_read (wfd : NMIwdWfdInfo) (h : wfd.source ∨ wfd.sink) (port : UInt16) :
    let flags := (0 : UInt8).toUInt16 <<< 8 ||| (wfdFlagsByte wfd).toUInt16
    wfdFlagsSupported flags ∧
      wfdInfo flags port false = ⟨wfd.source, wfd.sink, port, wfd.sink, false, false⟩ := by
  obtain ⟨hsupported, hzero⟩ := wfdFlagsByte_read wfd.source wfd.sink wfd.hasAudio wfd.hasCp h
  exact ⟨hsupported, congrArg (fun info : NMIwdWfdInfo => { info with port := port }) hzero⟩

theorem wfdScan_buildWfdIes (wfd : NMIwdWfdInfo) :
    parseWfdIes (buildWfdIes wfd) = wfdReadInfo (buildWfdIes wfd)
      ⟨(buildWfdIes wfd).length, 0, some (3, 6), if wfd.hasUibc then some (12, 2) else none⟩ := by
  rw [buildWfdIes]
  cases wfd.hasUibc <;> rfl

theorem parseWfdIes_buildWfdIes (wfd : NMIwdWfdInfo) (h : wfd.source ∨ wfd.sink) :
    parseWfdIes (buildWfdIes wfd) =
      some (some ⟨wfd.source, wfd.sink, wfd.port, wfd.sink, false, false⟩) := by
  obtain ⟨hsupported, hinfo⟩ := wfdFlags_read wfd h wfd.port
  have hflags : readTwo (buildWfdIes wfd) 3 =
      some ((0 : UInt8).toUInt16 <<< 8 ||| (wfdFlagsByte wfd).toUInt16) := rfl
  have hport : readTwo (buildWfdIes wfd) (3 + 2) = some wfd.port := by
    rw [← be16_split wfd.port]
    rfl
  have huibc : readUibc (buildWfdIes wfd) (if wfd.hasUibc then some (12, 2) else none) =
      some false := by
    rw [buildWfdIes]
    cases wfd.hasUibc <;> rfl
  have hlen : ¬ ∃ ext ∈ (if wfd.hasUibc then some (12, 2) else none : Option (ℕ × ℕ)),
      ext.2 ≠ 2 := by
    cases wfd.hasUibc <;> simp
  rw [wfdScan_buildWfdIes, wfdReadInfo]
  simp only [hflags, hport, huibc, hsupported, if_neg hlen, hinfo, ne_eq, not_true, if_false,
    Bool.true_eq_false]

/-- What is written succeeds to be read, but equal only without what is lost. -/
theorem wfdIes_roundTrip_iff (wfd : NMIwdWfdInfo) (h : wfd.source ∨ wfd.sink) :
    ((∃ info, parseWfdIes (buildWfdIes wfd) = some (some info) ∧ wfdInfoEq info wfd) ∧
        ∀ ies, ∃ r, parseWfdIes ies = some r ∧ ∀ info ∈ r, ∃ elems, CompleteWfdIes ies elems) ↔
      wfd.hasCp = false ∧ wfd.hasUibc = false ∧ wfd.hasAudio = wfd.sink := by
  rw [parseWfdIes_buildWfdIes wfd h]
  constructor
  · rintro ⟨⟨info, hinfo, heq⟩, -⟩
    obtain rfl := Option.some.inj (Option.some.inj hinfo)
    simp only [wfdInfoEq, decide_eq_true_eq] at heq
    exact ⟨heq.2.2.2.2.2.symm, heq.2.2.2.2.1.symm, heq.2.2.2.1.symm⟩
  · rintro ⟨hcp, huibc, haudio⟩
    exact ⟨⟨_, rfl, by simp [wfdInfoEq, hcp, huibc, haudio]⟩, parseWfdIes_spec⟩

theorem wfdIes_roundTrip_sink :
    ((∃ info, parseWfdIes (buildWfdIes ⟨false, true, 7236, true, false, false⟩) = some (some info) ∧
        wfdInfoEq info ⟨false, true, 7236, true, false, false⟩) ∧
        ∀ ies, ∃ r, parseWfdIes ies = some r ∧ ∀ info ∈ r, ∃ elems, CompleteWfdIes ies elems) ↔
      false = false ∧ false = false ∧ true = true :=
  wfdIes_roundTrip_iff ⟨false, true, 7236, true, false, false⟩ (.inr rfl)

/-- The bit for content protection does not fit into the byte that it is written to. -/
theorem wfdIes_roundTrip_loses_cp :
    ¬ ∀ wfd : NMIwdWfdInfo, wfd.source ∨ wfd.sink →
      ∃ info, parseWfdIes (buildWfdIes wfd) = some (some info) ∧ wfdInfoEq info wfd := by
  intro hall
  obtain ⟨info, hinfo, heq⟩ := hall ⟨true, false, 7236, false, false, true⟩ (.inl rfl)
  rw [parseWfdIes_buildWfdIes _ (.inl rfl)] at hinfo
  obtain rfl := Option.some.inj (Option.some.inj hinfo)
  exact absurd heq (by decide)

end RoundTrip

end NetworkManager.Core
