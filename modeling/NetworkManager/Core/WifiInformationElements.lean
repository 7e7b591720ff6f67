import NetworkManager.Lib.Bytes

/-!
# Wi-Fi information elements

`nm_wifi_utils_parse_ies()` reads the information elements of a beacon. Each function gets the bytes
from the payload of the element on, and reading outside of them makes it fail. The network cost is
only read from bytes at the end of the input.
-/

namespace NetworkManager.Core

open Lib List

/-! ## Rates -/

def getMaxRateHt20 (mcs : ℕ) : ℕ :=
  [6500000, 13000000, 19500000, 26000000, 39000000, 52000000, 58500000, 65000000, 13000000,
    26000000, 39000000, 52000000, 78000000, 104000000, 117000000, 130000000, 19500000, 39000000,
    58500000, 78000000, 117000000, 156000000, 175500000, 195000000, 26000000, 52000000, 78000000,
    104000000, 156000000, 208000000, 234000000, 260000000].getD mcs 0

def getMaxRateHt40 (mcs : ℕ) : ℕ :=
  [13500000, 27000000, 40500000, 54000000, 81000000, 108000000, 121500000, 135000000, 27000000,
    54000000, 81000000, 108000000, 162000000, 216000000, 243000000, 270000000, 40500000, 81000000,
    121500000, 162000000, 243000000, 324000000, 364500000, 405000000, 54000000, 108000000,
    162000000, 216000000, 324000000, 432000000, 486000000, 540000000].getD mcs 0

def getMaxRateVht80Ss1 (mcs : ℕ) : ℕ :=
  [29300000, 58500000, 87800000, 117000000, 175500000, 234000000, 263300000, 292500000, 351000000,
    390000000].getD mcs 0

def getMaxRateVht80Ss2 (mcs : ℕ) : ℕ :=
  [58500000, 117000000, 175500000, 234000000, 351000000, 468000000, 526500000, 585000000,
    702000000, 780000000].getD mcs 0

def getMaxRateVht80Ss3 (mcs : ℕ) : ℕ :=
  [87800000, 175500000, 263300000, 351000000, 526500000, 702000000, 0, 877500000, 105300000,
    117000000].getD mcs 0

def getMaxRateVht160Ss1 (mcs : ℕ) : ℕ :=
  [58500000, 117000000, 175500000, 234000000, 351000000, 468000000, 526500000, 585000000,
    702000000, 780000000].getD mcs 0

def getMaxRateVht160Ss2 (mcs : ℕ) : ℕ :=
  [117000000, 234000000, 351000000, 468000000, 702000000, 936000000, 1053000000, 1170000000,
    1404000000, 1560000000].getD mcs 0

def getMaxRateVht160Ss3 (mcs : ℕ) : ℕ :=
  [175500000, 351000000, 526500000, 702000000, 1053000000, 1404000000, 1579500000, 1755000000,
    2106000000, 0].getD mcs 0

/-! ## The functions for one element

They return nothing if they read outside of the bytes, and else the value if there is one. -/

/-- One turn of the loop of `get_max_rate_ht()`. -/
def maxRateHtStep (htCapInfo : UInt8) (maxrate i : ℕ) (octet : UInt8) : ℕ :=
  if octet.toNat.testBit (i % 8) then
    max maxrate (if htCapInfo &&& 2 ≠ 0 then getMaxRateHt40 i else getMaxRateHt20 i)
  else maxrate

def getMaxRateHt (bytes : Bytes) (len : ℕ) : Option (Option ℕ) :=
  if len ≠ 26 then some none
  else do
    let htCapInfo ← bytes[0]?
    let maxrate ← (List.range 77).foldlM (fun maxrate i =>
      bytes[3 + i / 8]?.map (maxRateHtStep htCapInfo maxrate i)) 0
    return some maxrate

def getMaxRateVht (bytes : Bytes) (len : ℕ) : Option (Option ℕ) :=
  if len ≠ 12 then some none
  else do
    let vhtCap ← bytes[0]?
    let txMap ← bytes[8]?
    let mcs := if txMap &&& 0x2a ≠ 0 then 9 else if txMap &&& 0x15 ≠ 0 then 8 else 7
    return some <|
      if vhtCap &&& 4 ≠ 0 then
        if txMap &&& 0x30 ≠ 0 then getMaxRateVht160Ss3 mcs
        else if txMap &&& 0x0c ≠ 0 then getMaxRateVht160Ss2 mcs
        else getMaxRateVht160Ss1 mcs
      else
        if txMap &&& 0x30 ≠ 0 then getMaxRateVht80Ss3 mcs
        else if txMap &&& 0x0c ≠ 0 then getMaxRateVht80Ss2 mcs
        else getMaxRateVht80Ss1 mcs

def getBandwidthHt (bytes : Bytes) (len : ℕ) : Option (Option ℕ) :=
  if len ≠ 22 then some none
  else do
    let htOpFlagGroup ← bytes[1]?
    return some (if htOpFlagGroup &&& 4 ≠ 0 then 40 else 20)

def getBandwidthVht (bytes : Bytes) (len : ℕ) : Option (Option ℕ) :=
  if len < 3 then some none
  else do
    let staChannelWidth : UInt8 ← bytes[0]?
    let ccfs0 : UInt8 ← bytes[1]?
    let ccfs1 : UInt8 ← bytes[2]?
    let diff := ((ccfs1.toNat : ℤ) - ccfs0.toNat).natAbs
    return match staChannelWidth.toNat with
      | 1 =>
        if ccfs1 = 0 then some 80
        else if diff = 8 then some 160
        -- 80+80 counts as 160
        else if 16 < diff then some 160
        else some 80
      | 2 => some 160
      | 3 => some 160
      | _ => none

/-- `bytes[0] == e0 && bytes[1] == e1 && ...` -/
def bytesAre : Bytes → Bytes → Option Bool
  | _, [] => some true
  | [], _ :: _ => none
  | b :: bytes, e :: expected => if b = e then bytesAre bytes expected else some false

def networkCost : Bytes := [0x00, 0x50, 0xf2, 0x11]

def oweTransitionMode : Bytes := [0x50, 0x6f, 0x9a, 0x1c]

/-! ## The loop -/

def wlanEidHtCapability : UInt8 := 45
def wlanEidHtOperation : UInt8 := 61
def wlanEidVhtCapability : UInt8 := 191
def wlanEidVhtOperation : UInt8 := 192
def wlanEidVendorSpecific : UInt8 := 221

/-- The variables for the results, as far as the caller asks for them. -/
structure IesOut where
  maxRate : Option ℕ
  bandwidth : Option ℕ
  metered : Option Bool
  oweTransitionMode : Option Bool
  deriving DecidableEq

namespace IesOut

variable (out : IesOut)

/-- The branch for a capability, of which `get` reads the rate. -/
def setMaxRate (get : Option (Option ℕ)) : Option IesOut :=
  if out.maxRate.isSome then
    get.map fun m => { out with maxRate := out.maxRate.map fun r => max r (m.getD 0) }
  else some out

/-- The branch for an operation element, of which `get` reads the bandwidth. -/
def setBandwidth (get : Option (Option ℕ)) : Option IesOut :=
  if out.bandwidth.isSome then
    get.map fun w => { out with bandwidth := out.bandwidth.map fun b => w.getD b }
  else some out

/-- The branch for a vendor element. The first check is about all that is left of the input. -/
def setVendor (elemLen : ℕ) (bytes : Bytes) : Option IesOut := do
  let isCost ← if bytes.length = 8 then bytesAre bytes networkCost else some false
  let level ← if isCost then bytes[4]?.map some else some none
  let isOwe ← if 10 ≤ elemLen then bytesAre bytes Core.oweTransitionMode else some false
  return { out with
    metered := out.metered.map fun m => (level.map fun l => decide (1 < l.toNat)).getD m
    oweTransitionMode := out.oweTransitionMode.map fun o => o || isOwe }

/-- One element. -/
def parseIe (id : UInt8) (elemLen : ℕ) (bytes : Bytes) : Option IesOut :=
  if id = wlanEidHtCapability then out.setMaxRate (getMaxRateHt bytes elemLen)
  else if id = wlanEidHtOperation then out.setBandwidth (getBandwidthHt bytes elemLen)
  else if id = wlanEidVhtCapability then out.setMaxRate (getMaxRateVht bytes elemLen)
  else if id = wlanEidVhtOperation then out.setBandwidth (getBandwidthVht bytes elemLen)
  else if id = wlanEidVendorSpecific then out.setVendor elemLen bytes
  else some out

end IesOut

theorem length_drop_lt {id elemLen : UInt8} {bytes : Bytes} (n : ℕ) :
    (bytes.drop n).length < (id :: elemLen :: bytes).length := by
  rw [length_drop, length_cons, length_cons]
  omega

/-- The loop of `nm_wifi_utils_parse_ies()`. -/
def parseIesLoop (out : IesOut) : Bytes → Option IesOut
  | id :: elemLen :: bytes =>
    if bytes.length < elemLen.toNat then some out
    else match out.parseIe id elemLen.toNat bytes with
      | none => none
      | some out => parseIesLoop out (bytes.drop elemLen.toNat)
  | _ => some out
termination_by bytes => bytes.length
decreasing_by exact length_drop_lt _

def wifiUtilsParseIes (out : IesOut) (bytes : Bytes) : Option IesOut :=
  parseIesLoop ⟨out.maxRate.map fun _ => 0, out.bandwidth.map fun _ => 0,
    out.metered.map fun _ => false, out.oweTransitionMode.map fun _ => false⟩ bytes

/-! ## What elements say -/

/-- A complete element. -/
structure InformationElement where
  id : UInt8
  payload : Bytes

/-- The complete elements, each with all that is left of the input from its payload on. -/
def elementTails : Bytes → List (InformationElement × Bytes)
  | id :: elemLen :: bytes =>
    if bytes.length < elemLen.toNat then []
    else (⟨id, bytes.take elemLen.toNat⟩, bytes) :: elementTails (bytes.drop elemLen.toNat)
  | _ => []
termination_by bytes => bytes.length
decreasing_by exact length_drop_lt _

def elements (bytes : Bytes) : List InformationElement := (elementTails bytes).map Prod.fst

namespace InformationElement

variable (e : InformationElement)

def rate : Option ℕ :=
  if e.id = wlanEidHtCapability then (getMaxRateHt e.payload e.payload.length).join
  else if e.id = wlanEidVhtCapability then (getMaxRateVht e.payload e.payload.length).join
  else none

def bandwidth : Option ℕ :=
  if e.id = wlanEidHtOperation then (getBandwidthHt e.payload e.payload.length).join
  else if e.id = wlanEidVhtOperation then (getBandwidthVht e.payload e.payload.length).join
  else none

def isOwe : Bool :=
  e.id = wlanEidVendorSpecific ∧ 10 ≤ e.payload.length ∧ oweTransitionMode <+: e.payload

def isMetered : Option Bool :=
  if e.id = wlanEidVendorSpecific ∧ e.payload.length = 8 ∧ networkCost <+: e.payload then
    some (1 < (e.payload.getD 4 0).toNat)
  else none

end InformationElement

/-! ## Reading inside of the element -/

section Reading

variable {p rest : Bytes} {i : ℕ}

theorem foldlM_eq_some {β γ : Type*} {f : γ → β → Option γ} {g : γ → β → γ} {l : List β}
    (h : ∀ b ∈ l, ∀ c, f c b = some (g c b)) (c : γ) : l.foldlM f c = some (l.foldl g c) := by
  induction l generalizing c with
  | nil => rfl
  | cons b l ih =>
    rw [foldlM_cons, h b mem_cons_self]
    exact ih (fun b hb => h b (mem_cons_of_mem _ hb)) _

theorem getElem?_append_getD (h : i < p.length) : (p ++ rest)[i]? = some (p.getD i 0) := by
  rw [List.getElem?_append_left h, getD_eq_getElem?_getD, List.getElem?_eq_getElem h,
    Option.getD_some]

/-- A function reads the payload only. -/
def ReadsPayload (get : Bytes → ℕ → Option (Option ℕ)) : Prop :=
  ∀ p rest : Bytes, get (p ++ rest) p.length = some (get p p.length).join

theorem getElem?_getD (h : i < p.length) : p[i]? = some (p.getD i 0) := by
  rw [getD_eq_getElem?_getD, List.getElem?_eq_getElem h, Option.getD_some]

theorem foldlM_maxRateHtStep (hlen : p.length = 26) (rest : Bytes) (htCapInfo : UInt8) :
    (List.range 77).foldlM (fun maxrate i =>
      (p ++ rest)[3 + i / 8]?.map (maxRateHtStep htCapInfo maxrate i)) 0 =
      some ((List.range 77).foldl
        (fun maxrate i => maxRateHtStep htCapInfo maxrate i (p.getD (3 + i / 8) 0)) 0) := by
  apply foldlM_eq_some
  intro i hi maxrate
  have hlt : i < 77 := mem_range.mp hi
  rw [getElem?_append_getD (by omega), Option.map_some]

theorem readsPayload_getMaxRateHt : ReadsPayload getMaxRateHt := by
  intro p rest
  unfold getMaxRateHt
  by_cases h : p.length = 26
  · have hself := foldlM_maxRateHtStep h [] (p.getD 0 0)
    rw [append_nil] at hself
    simp only [h, ne_eq, not_true_eq_false, if_false, Option.bind_eq_bind, Option.bind_some,
      getElem?_append_getD (show 0 < p.length by omega),
      getElem?_getD (show 0 < p.length by omega), hself, foldlM_maxRateHtStep h rest]
    rfl
  · simp [h]

theorem readsPayload_getMaxRateVht : ReadsPayload getMaxRateVht := by
  intro p rest
  unfold getMaxRateVht
  by_cases h : p.length = 12
  · simp only [h, ne_eq, not_true_eq_false, if_false, Option.bind_eq_bind, Option.bind_some,
      getElem?_append_getD (show 0 < p.length by omega),
      getElem?_getD (show 0 < p.length by omega),
      getElem?_append_getD (show 8 < p.length by omega),
      getElem?_getD (show 8 < p.length by omega)]
    rfl
  · simp [h]

theorem readsPayload_getBandwidthHt : ReadsPayload getBandwidthHt := by
  intro p rest
  unfold getBandwidthHt
  by_cases h : p.length = 22
  · simp only [h, ne_eq, not_true_eq_false, if_false, Option.bind_eq_bind, Option.bind_some,
      getElem?_append_getD (show 1 < p.length by omega),
      getElem?_getD (show 1 < p.length by omega)]
    rfl
  · simp [h]

theorem readsPayload_getBandwidthVht : ReadsPayload getBandwidthVht := by
  intro p rest
  unfold getBandwidthVht
  by_cases h : p.length < 3
  · simp [h]
  · simp only [h, if_false, Option.bind_eq_bind, Option.bind_some,
      getElem?_append_getD (show 0 < p.length by omega),
      getElem?_getD (show 0 < p.length by omega),
      getElem?_append_getD (show 1 < p.length by omega),
      getElem?_getD (show 1 < p.length by omega),
      getElem?_append_getD (show 2 < p.length by omega),
      getElem?_getD (show 2 < p.length by omega)]
    rfl

theorem bytesAre_append {expected : Bytes} (h : expected.length ≤ p.length) (rest : Bytes) :
    bytesAre (p ++ rest) expected = some (decide (expected <+: p)) := by
  induction expected generalizing p with
  | nil => cases p <;> simp [bytesAre]
  | cons e expected ih =>
    cases p with
    | nil => simp at h
    | cons b p =>
      have hle : expected.length ≤ p.length := by simpa using h
      by_cases heq : b = e
      · simp [bytesAre, heq, ih hle, cons_prefix_cons]
      · simp [bytesAre, heq, cons_prefix_cons, Ne.symm heq]

end Reading

/-! ## The loop over the elements -/

def tailMetered (id : UInt8) (tail : Bytes) : Option Bool :=
  if id = wlanEidVendorSpecific ∧ tail.length = 8 ∧ networkCost <+: tail then
    some (1 < (tail.getD 4 0).toNat)
  else none

/-- What an element does to the results. -/
def IesOut.update (out : IesOut) (e : InformationElement) (tail : Bytes) : IesOut where
  maxRate := out.maxRate.map fun r => max r (e.rate.getD 0)
  bandwidth := out.bandwidth.map fun b => e.bandwidth.getD b
  metered := out.metered.map fun m => (tailMetered e.id tail).getD m
  oweTransitionMode := out.oweTransitionMode.map fun o => o || e.isOwe

namespace IesOut

variable {out : IesOut} {p rest : Bytes} {get : Bytes → ℕ → Option (Option ℕ)}

theorem setMaxRate_eq (hget : ReadsPayload get) :
    out.setMaxRate (get (p ++ rest) p.length) =
      some { out with maxRate := out.maxRate.map fun r => max r ((get p p.length).join.getD 0) } := by
  obtain ⟨maxRate, bandwidth, metered, owe⟩ := out
  cases maxRate <;> simp [setMaxRate, hget p rest]

theorem setBandwidth_eq (hget : ReadsPayload get) :
    out.setBandwidth (get (p ++ rest) p.length) =
      some { out with
        bandwidth := out.bandwidth.map fun b => (get p p.length).join.getD b } := by
  obtain ⟨maxRate, bandwidth, metered, owe⟩ := out
  cases bandwidth <;> simp [setBandwidth, hget p rest]

theorem setVendor_eq :
    out.setVendor p.length (p ++ rest) = some { out with
      metered := out.metered.map fun m =>
        (tailMetered wlanEidVendorSpecific (p ++ rest)).getD m
      oweTransitionMode := out.oweTransitionMode.map fun o =>
        o || InformationElement.isOwe ⟨wlanEidVendorSpecific, p⟩ } := by
  have hcost (t : Bytes) (ht : t.length = 8) :
      bytesAre t networkCost = some (decide (networkCost <+: t)) := by
    simpa using bytesAre_append (p := t) (by simp [networkCost, ht]) []
  have howe (h : 10 ≤ p.length) :
      bytesAre (p ++ rest) Core.oweTransitionMode =
        some (decide (Core.oweTransitionMode <+: p)) :=
    bytesAre_append (Nat.le_trans (by decide) h) rest
  generalize p ++ rest = t at *
  unfold setVendor tailMetered InformationElement.isOwe
  by_cases h8 : t.length = 8 <;> by_cases h10 : 10 ≤ p.length <;>
    by_cases hc : networkCost <+: t <;> simp [h8, h10, hc, hcost, howe]

theorem parseIe_eq (id : UInt8) : out.parseIe id p.length (p ++ rest) =
    some (out.update ⟨id, p⟩ (p ++ rest)) := by
  unfold parseIe update InformationElement.rate InformationElement.bandwidth
  by_cases hht : id = wlanEidHtCapability
  · subst hht
    simp [setMaxRate_eq readsPayload_getMaxRateHt, InformationElement.isOwe, tailMetered,
      wlanEidHtCapability, wlanEidHtOperation, wlanEidVhtOperation, wlanEidVendorSpecific]
  · by_cases hhtOp : id = wlanEidHtOperation
    · subst hhtOp
      simp [setBandwidth_eq readsPayload_getBandwidthHt, InformationElement.isOwe, tailMetered,
        wlanEidHtCapability, wlanEidHtOperation, wlanEidVhtCapability, wlanEidVendorSpecific]
    · by_cases hvht : id = wlanEidVhtCapability
      · subst hvht
        simp [setMaxRate_eq readsPayload_getMaxRateVht, InformationElement.isOwe, tailMetered,
          wlanEidHtCapability, wlanEidHtOperation, wlanEidVhtCapability, wlanEidVhtOperation,
          wlanEidVendorSpecific]
      · by_cases hvhtOp : id = wlanEidVhtOperation
        · subst hvhtOp
          simp [setBandwidth_eq readsPayload_getBandwidthVht, InformationElement.isOwe,
            tailMetered, wlanEidHtCapability, wlanEidHtOperation, wlanEidVhtCapability,
            wlanEidVhtOperation, wlanEidVendorSpecific]
        · by_cases hvendor : id = wlanEidVendorSpecific
          · subst hvendor
            simp [setVendor_eq, hht, hhtOp, hvht, hvhtOp]
          · simp [InformationElement.isOwe, tailMetered, hht, hhtOp, hvht, hvhtOp, hvendor]

end IesOut

theorem parseIesLoop_eq (out : IesOut) (bytes : Bytes) :
    parseIesLoop out bytes =
      some ((elementTails bytes).foldl (fun out et => out.update et.1 et.2) out) := by
  induction bytes using elementTails.induct generalizing out with
  | case1 id elemLen bytes h =>
    rw [parseIesLoop, elementTails, if_pos h, if_pos h]
    rfl
  | case2 id elemLen bytes h ih =>
    have hlen : (bytes.take elemLen.toNat).length = elemLen.toNat := by
      rw [length_take]
      omega
    have hparse := @IesOut.parseIe_eq out (bytes.take elemLen.toNat)
      (bytes.drop elemLen.toNat) id
    rw [take_append_drop, hlen] at hparse
    rw [parseIesLoop, elementTails, if_neg h, if_neg h, hparse]
    exact ih _
  | case3 bytes h =>
    rw [parseIesLoop.eq_def, elementTails.eq_def]
    split
    · exact absurd rfl (h _ _ _)
    · rfl

/-! ## The results -/

section Results

variable {bytes : Bytes} {l : List (InformationElement × Bytes)}

theorem foldl_update_eq (out : IesOut) :
    l.foldl (fun out et => out.update et.1 et.2) out =
      ⟨out.maxRate.map ((l.map Prod.fst).filterMap InformationElement.rate |>.foldl max),
        out.bandwidth.map
          (((l.map Prod.fst).filterMap InformationElement.bandwidth).getLast?.getD ·),
        out.metered.map
          ((l.filterMap fun et => tailMetered et.1.id et.2).getLast?.getD ·),
        out.oweTransitionMode.map (· || (l.map Prod.fst).any InformationElement.isOwe)⟩ := by
  induction l generalizing out with
  | nil => simp
  | cons et l ih =>
    rw [foldl_cons, ih]
    cases hrate : et.1.rate <;> cases hbandwidth : et.1.bandwidth <;>
      cases hmetered : tailMetered et.1.id et.2 <;>
      simp [IesOut.update, hrate, hbandwidth, hmetered, Function.comp_def, List.getLast?_cons,
        Bool.or_assoc]

theorem length_elementTails {et : InformationElement × Bytes} (h : et ∈ elementTails bytes) :
    et.2.length + 2 ≤ bytes.length := by
  induction bytes using elementTails.induct with
  | case1 id elemLen bytes hlt =>
    rw [elementTails, if_pos hlt] at h
    cases h
  | case2 id elemLen bytes hlt ih =>
    rw [elementTails, if_neg hlt] at h
    cases h with
    | head => rfl
    | tail _ h =>
      have := ih h
      simp only [length_drop, length_cons] at this ⊢
      omega
  | case3 bytes hshort =>
    rw [elementTails.eq_def] at h
    split at h
    · exact absurd rfl (hshort _ _ _)
    · cases h

/-- The input ends with eight bytes that announce a metered connection, after the header of a
complete vendor element. -/
def EndsMetered (bytes : Bytes) : Prop :=
  ∃ et ∈ elementTails bytes, tailMetered et.1.id et.2 = some true

/-- Only one element can have eight bytes left after its header. -/
theorem getLast?_tailMetered_iff :
    (((elementTails bytes).filterMap fun et => tailMetered et.1.id et.2).getLast?.getD false) = true ↔
      EndsMetered bytes := by
  unfold EndsMetered
  induction bytes using elementTails.induct with
  | case1 id elemLen bytes hlt => simp [elementTails, hlt]
  | case2 id elemLen bytes hlt ih =>
    rw [elementTails, if_neg hlt]
    cases hmetered : tailMetered id bytes with
    | none => simpa [hmetered] using ih
    | some v =>
      have hlen : bytes.length = 8 := by
        by_contra hne
        simp [tailMetered, hne] at hmetered
      have hrest : ∀ et ∈ elementTails (bytes.drop elemLen.toNat),
          tailMetered et.1.id et.2 = none := by
        intro et het
        have hle := length_elementTails het
        rw [length_drop] at hle
        have hne : et.2.length ≠ 8 := by omega
        simp [tailMetered, hne]
      have hnil : ((elementTails (bytes.drop elemLen.toNat)).filterMap fun et =>
          tailMetered et.1.id et.2) = [] :=
        filterMap_eq_nil_iff.mpr hrest
      have hno : ∀ et ∈ elementTails (bytes.drop elemLen.toNat),
          tailMetered et.1.id et.2 ≠ some true := by
        intro et het
        simp [hrest et het]
      simp only [filterMap_cons, hmetered, hnil, List.getLast?_singleton, Option.getD_some,
        mem_cons, exists_eq_or_imp, Option.some.injEq]
      constructor
      · exact fun hv => .inl hv
      · rintro (hv | ⟨et, het, heq⟩)
        · exact hv
        · exact absurd heq (hno et het)
  | case3 bytes hshort =>
    have hnil : elementTails bytes = [] := by
      rw [elementTails.eq_def]
      split
      · exact absurd rfl (hshort _ _ _)
      · rfl
    simp [hnil]

/-- The last announced network cost is that of a metered connection. -/
def AnnouncesMetered (bytes : Bytes) : Prop :=
  ((elements bytes).filterMap InformationElement.isMetered).getLast? = some true

/-- What is read of the input, as its elements say it. -/
def interpretation (out : IesOut) (bytes : Bytes) : IesOut where
  maxRate := out.maxRate.map fun _ => ((elements bytes).filterMap InformationElement.rate).foldl max 0
  bandwidth := out.bandwidth.map fun _ =>
    ((elements bytes).filterMap InformationElement.bandwidth).getLast?.getD 0
  metered := out.metered.map fun _ =>
    ((elements bytes).filterMap InformationElement.isMetered).getLast?.getD false
  oweTransitionMode := out.oweTransitionMode.map fun _ =>
    (elements bytes).any InformationElement.isOwe

theorem wifiUtilsParseIes_eq (out : IesOut) (bytes : Bytes) :
    wifiUtilsParseIes out bytes = some { interpretation out bytes with
      metered := out.metered.map fun _ =>
        ((elementTails bytes).filterMap fun et => tailMetered et.1.id et.2).getLast?.getD false } := by
  rw [wifiUtilsParseIes, parseIesLoop_eq, foldl_update_eq]
  simp [interpretation, elements, Function.comp_def]

/-- The parsing ends without reading outside of the input and gives what the elements say, if and
only if the input ends with the cost of a metered connection just when the last announced cost is
that of a metered connection. -/
theorem wifiUtilsParseIes_right_iff (bytes : Bytes) :
    (∀ out, wifiUtilsParseIes out bytes = some (interpretation out bytes)) ↔
      (AnnouncesMetered bytes ↔ EndsMetered bytes) := by
  have hends := @getLast?_tailMetered_iff bytes
  have hannounces : ((elements bytes).filterMap InformationElement.isMetered).getLast?.getD false =
      true ↔ AnnouncesMetered bytes := by
    unfold AnnouncesMetered
    cases ((elements bytes).filterMap InformationElement.isMetered).getLast? <;> simp
  rw [← hends, ← hannounces]
  constructor
  · intro h
    have heq := h ⟨none, none, some false, none⟩
    rw [wifiUtilsParseIes_eq] at heq
    have hmetered := congrArg IesOut.metered (Option.some.inj heq)
    exact Bool.eq_iff_iff.mp (Option.some.inj hmetered).symm
  · intro hiff out
    rw [wifiUtilsParseIes_eq, ← Bool.eq_iff_iff.mpr hiff]
    rfl

/-- A metered access point, of which another element follows the network cost. -/
theorem wifiUtilsParseIes_wrong :
    ¬∀ bytes out, wifiUtilsParseIes out bytes = some (interpretation out bytes) := by
  intro h
  have heq := h [221, 8, 0x00, 0x50, 0xf2, 0x11, 2, 0, 0, 0, 1, 1, 0x82]
    ⟨none, none, some false, none⟩
  rw [wifiUtilsParseIes_eq] at heq
  revert heq
  decide +kernel

end Results

end NetworkManager.Core
