import NetworkManager.Core.DhcpRoutes

/-!
# The clients agree on the classless static routes

A number and an address are read back from the string to which they were written. So each
of the two readers of strings adds, one after the other, the routes that are in the bytes.
-/

namespace NetworkManager.Core

open Lib GlibAux Platform List

/-! ## A route in bytes -/

def significantOctets (plen : ℕ) : ℕ := if plen = 0 then 0 else (plen - 1) / 8 + 1

theorem leaseOptionConsumeRoute_cons (b : Octet) (data : List Octet) :
    leaseOptionConsumeRoute true (b :: data) =
      if b.toNat > 32 ∨ data.length < significantOctets b.toNat + 4 then none
      else
        some (⟨ip4AddrClearHostAddress (inAddrMemcpy (data.take (significantOctets b.toNat)))
            b.toNat, b.toNat,
          inAddrMemcpy ((data.drop (significantOctets b.toNat)).take 4)⟩,
          (data.drop (significantOctets b.toNat)).drop 4) := by
  have hone : leaseDataConsume (b :: data) 1 = some ([b], data) := by simp [leaseDataConsume]
  simp only [leaseOptionConsumeRoute, leaseConsumeDest, if_true, hone, Option.bind_eq_bind,
    Option.bind_some, getD_cons_zero]
  change ((if b.toNat > 32 then none else
    (leaseDataConsume data (significantOctets b.toNat)).bind _).bind _) = _
  by_cases hplen : b.toNat > 32
  · simp [hplen]
  · by_cases hdest : data.length < significantOctets b.toNat
    · have hshort : data.length < significantOctets b.toNat + 4 := by omega
      simp [hplen, leaseDataConsume, hdest, hshort]
    · by_cases hgateway : data.length < significantOctets b.toNat + 4
      · have hrest : data.length - significantOctets b.toNat < 4 := by omega
        simp [hplen, leaseDataConsume, hdest, leaseDataConsumeInAddr, hrest, hgateway]
      · have hrest : ¬ data.length - significantOctets b.toNat < 4 := by omega
        simp [hplen, leaseDataConsume, hdest, leaseDataConsumeInAddr, hrest, hgateway]

theorem leaseConsumeRoutes_of_none {classless : Bool} {data : List Octet}
    (h : leaseOptionConsumeRoute classless data = none) : leaseConsumeRoutes classless data = [] := by
  rw [leaseConsumeRoutes]
  split
  · rfl
  · simp_all

variable {r : LeaseRoute}

theorem leaseConsumeRoutes_of_some {classless : Bool} {data rest : List Octet}
    (h : leaseOptionConsumeRoute classless data = some (r, rest)) :
    leaseConsumeRoutes classless data = r :: leaseConsumeRoutes classless rest := by
  rw [leaseConsumeRoutes]
  split
  · simp_all
  · simp_all

/-! ## A route in formatUnsigned octets -/

def octetTokens (data : List Octet) : List Bytes := data.map fun b => formatUnsigned b.toNat

theorem getD_octetTokens {data : List Octet} (i : ℕ) :
    (octetTokens data).getD i ['0'] = formatUnsigned (data.getD i 0).toNat := by
  have hzero : (['0'] : Bytes) = formatUnsigned (0 : Octet).toNat := rfl
  rw [octetTokens, hzero, getD_eq_getElem?_getD, List.getElem?_map, Option.getD_map,
    ← getD_eq_getElem?_getD]

theorem dhclientNetwork_octetTokens (data : List Octet) (plen : ℕ) (hdata : plen = 0 → data = []) :
    dhclientNetwork (octetTokens data) plen =
      some (ip4AddrClearHostAddress (inAddrMemcpy data) plen) := by
  unfold dhclientNetwork
  split_ifs with hplen
  · rw [getD_octetTokens, getD_octetTokens, getD_octetTokens, getD_octetTokens,
      inetPton_strjoinDot]
    rfl
  · have hzero : plen = 0 := by omega
    subst hzero
    rw [hdata rfl]
    decide

theorem inetPton_octetTokens (data : List Octet) (hdata : 4 ≤ data.length) :
    inetPton (strjoinDot ((octetTokens data).getD 0 []) ((octetTokens data).getD 1 [])
      ((octetTokens data).getD 2 []) ((octetTokens data).getD 3 [])) =
      some (inAddrMemcpy (data.take 4)) := by
  match data, hdata with
  | a :: b :: c :: d :: data, _ => exact inetPton_strjoinDot a b c d

theorem processDhclientRfc3442Route_octetTokens (data : List Octet) :
    processDhclientRfc3442Route (octetTokens data) =
      (leaseOptionConsumeRoute true data).map fun r => (r.1, octetTokens r.2) := by
  cases data with
  | nil => rfl
  | cons b data =>
    have htokens : octetTokens (b :: data) = formatUnsigned b.toNat :: octetTokens data := rfl
    have hlength : (octetTokens data).length = data.length := length_map _
    rw [leaseOptionConsumeRoute_cons, htokens]
    simp only [processDhclientRfc3442Route]
    by_cases hplen : b.toNat ≤ 32
    · have hnot : ¬ b.toNat > 32 := by omega
      have hread : asciiStrToInt64 (formatUnsigned b.toNat) 10 0 32 = some (b.toNat : ℤ) :=
        asciiStrToInt64_formatUnsigned (.inr rfl) (by decide) (by omega)
      have hsig : (if b.toNat > 0 then (b.toNat - 1) / 8 + 1 else 0) =
          significantOctets b.toNat := by
        unfold significantOctets
        split_ifs <;> omega
      simp only [hread, Int.toNat_natCast, hsig, hlength, hnot, false_or]
      by_cases hshort : data.length < significantOctets b.toNat + 4
      · simp [hshort]
      · have htake : (octetTokens data).take (significantOctets b.toNat) =
            octetTokens (data.take (significantOctets b.toNat)) := (map_take).symm
        have hdrop : (octetTokens data).drop (significantOctets b.toNat) =
            octetTokens (data.drop (significantOctets b.toNat)) := (map_drop).symm
        have hnetwork := dhclientNetwork_octetTokens
          (data.take (significantOctets b.toNat)) b.toNat
          fun h => by simp [significantOctets, h]
        have hgateway := inetPton_octetTokens (data.drop (significantOctets b.toNat)) (by
          rw [length_drop]
          omega)
        rw [if_neg hshort, if_neg hshort, htake, hdrop, hnetwork, hgateway]
        simp [octetTokens]
    · have hgt : b.toNat > 32 := by omega
      have hread : asciiStrToInt64 (formatUnsigned b.toNat) 10 0 32 = none := by
        cases hread : asciiStrToInt64 (formatUnsigned b.toNat) 10 0 32 with
        | none => rfl
        | some n =>
          have hrange := asciiStrToInt64_range hread
          have hsame := asciiStrToInt64_of_range 0 b.toNat hread hrange.1 (by omega)
          rw [asciiStrToInt64_formatUnsigned (.inr rfl) (by omega) (by omega)] at hsame
          obtain rfl := Option.some.inj hsame
          omega
      simp [hread, hgt]

theorem dhclientLoop_of_none {address : BitVec 32} {octets : List Bytes}
    {s : ClasslessRoutes} (h : processDhclientRfc3442Route octets = none) :
    dhclientLoop address octets s = s := by
  rw [dhclientLoop]
  split
  · rfl
  · simp_all

theorem dhclientLoop_of_some {address : BitVec 32} {octets rest : List Bytes} {s : ClasslessRoutes}
    (h : processDhclientRfc3442Route octets = some (r, rest)) :
    dhclientLoop address octets s = dhclientLoop address rest (addDhclientRoute address s r) := by
  rw [dhclientLoop]
  split
  · simp_all
  · simp_all

theorem dhclientLoop_octetTokens (address : BitVec 32) (data : List Octet) (s : ClasslessRoutes) :
    dhclientLoop address (octetTokens data) s =
      (leaseConsumeRoutes true data).foldl (addDhclientRoute address) s := by
  have hprocess := processDhclientRfc3442Route_octetTokens data
  cases h : leaseOptionConsumeRoute true data with
  | none =>
    rw [h] at hprocess
    rw [dhclientLoop_of_none hprocess, leaseConsumeRoutes_of_none h]
    rfl
  | some r =>
    obtain ⟨r, rest⟩ := r
    rw [h] at hprocess
    have hlen := leaseOptionConsumeRoute_length h
    rw [dhclientLoop_of_some hprocess, leaseConsumeRoutes_of_some h, foldl_cons]
    exact dhclientLoop_octetTokens address rest _
termination_by data.length

/-- The bytes in formatUnsigned, with a dot or a blank between two of them. -/
def dhclientRendering (dot : ℕ → Bool) : List Octet → Bytes
  | [] => []
  | [b] => formatUnsigned b.toNat
  | b :: data =>
    formatUnsigned b.toNat ++
      (if dot 0 then ('.' : UInt8) else ' ') :: dhclientRendering (fun n => dot (n + 1)) data

theorem splitOnP_dhclientRendering (dot : ℕ → Bool) {data : List Octet} (hdata : data ≠ []) :
    (dhclientRendering dot data).splitOnP (fun c => c ∈ ([' ', '.'] : Bytes)) = octetTokens data := by
  have hclean (b : Octet) :
      ∀ c ∈ formatUnsigned b.toNat, decide (c ∈ ([' ', '.'] : Bytes)) = false := by
    intro c hc
    have hdigit := isDigit_of_mem_formatUnsigned hc
    simp only [mem_cons, not_mem_nil, or_false, decide_eq_false_iff_not]
    rintro (rfl | rfl) <;> exact absurd hdigit (by decide)
  induction data generalizing dot with
  | nil => exact absurd rfl hdata
  | cons b data ih =>
    cases data with
    | nil => exact splitOnP_eq_singleton (hclean b)
    | cons b' data =>
      rw [dhclientRendering]
      · rw [splitOnP_append_cons_of_forall_mem (hclean b)]
        · rw [ih (fun n => dot (n + 1)) (cons_ne_nil _ _)]
          rfl
        · split_ifs <;> rfl
      · exact cons_ne_nil _ _

theorem leaseConsumeRoutes_of_short {data : List Octet} (h : data.length < 5) :
    leaseConsumeRoutes true data = [] := by
  apply leaseConsumeRoutes_of_none
  cases data with
  | nil => rfl
  | cons b data =>
    rw [leaseOptionConsumeRoute_cons]
    rw [length_cons] at h
    have hshort : data.length < significantOctets b.toNat + 4 := by omega
    rw [if_pos (Or.inr hshort)]

theorem ip4ProcessDhclientRfc3442Routes_rendering (dot : ℕ → Bool) (data : List Octet)
    (address gwaddr : BitVec 32) :
    ip4ProcessDhclientRfc3442Routes (dhclientRendering dot data) address gwaddr =
      (leaseConsumeRoutes true data).foldl (addDhclientRoute address) ⟨[], gwaddr, false⟩ := by
  cases data with
  | nil =>
    rw [leaseConsumeRoutes_of_short (by decide)]
    rfl
  | cons b data =>
    have hsplit := splitOnP_dhclientRendering dot (cons_ne_nil b data)
    have hne : dhclientRendering dot (b :: data) ≠ [] := by
      intro hnil
      rw [hnil] at hsplit
      have hhead := congrArg List.head? hsplit
      simp only [splitOnP_nil, List.head?_cons, octetTokens, map_cons,
        Option.some.injEq] at hhead
      exact digitsText_ne_nil b.toNat hhead.symm
    have htokens : strsplitSetWithEmpty (dhclientRendering dot (b :: data)) [' ', '.'] =
        octetTokens (b :: data) := by
      rw [strsplitSetWithEmpty, if_neg hne, hsplit]
    have hlength : (octetTokens (b :: data)).length = (b :: data).length := length_map _
    simp only [ip4ProcessDhclientRfc3442Routes, htokens]
    split_ifs with hshort
    · rw [hlength] at hshort
      rw [leaseConsumeRoutes_of_short hshort]
      rfl
    · exact dhclientLoop_octetTokens address _ _

/-! ## A route as a destination and a gateway -/

def LeaseRoute.destToken (r : LeaseRoute) : Bytes :=
  inet4Ntop r.dest ++ ('/' : UInt8) :: formatUnsigned r.plen

/-- What holds of a route that was read from bytes. -/
def LeaseRoute.Valid (r : LeaseRoute) : Prop :=
  r.plen ≤ 32 ∧ ip4AddrClearHostAddress r.dest r.plen = r.dest

theorem ip4AddrClearHostAddress_idem (addr : BitVec 32) (plen : ℕ) :
    ip4AddrClearHostAddress (ip4AddrClearHostAddress addr plen) plen =
      ip4AddrClearHostAddress addr plen := by
  rw [ip4AddrClearHostAddress, ip4AddrClearHostAddress, BitVec.and_assoc, BitVec.and_self]

theorem valid_of_leaseOptionConsumeRoute {data rest : List Octet}
    (h : leaseOptionConsumeRoute true data = some (r, rest)) : r.Valid := by
  cases data with
  | nil => exact absurd h nofun
  | cons b data =>
    rw [leaseOptionConsumeRoute_cons] at h
    split_ifs at h with hbad
    obtain ⟨rfl, -⟩ := Prod.mk.inj (Option.some.inj h)
    exact ⟨Nat.le_of_not_lt fun hplen => hbad (Or.inl hplen), ip4AddrClearHostAddress_idem _ _⟩

theorem valid_of_mem_leaseConsumeRoutes {data : List Octet} (h : r ∈ leaseConsumeRoutes true data)
    : r.Valid := by
  cases hroute : leaseOptionConsumeRoute true data with
  | none =>
    rw [leaseConsumeRoutes_of_none hroute] at h
    exact absurd h not_mem_nil
  | some r' =>
    obtain ⟨r', rest⟩ := r'
    have hlen := leaseOptionConsumeRoute_length hroute
    rw [leaseConsumeRoutes_of_some hroute] at h
    rcases mem_cons.mp h with rfl | h
    · exact valid_of_leaseOptionConsumeRoute hroute
    · exact valid_of_mem_leaseConsumeRoutes h
termination_by data.length

theorem dhcpcdPair_valid (address : BitVec 32) (s : ClasslessRoutes) (hr : r.Valid) :
    dhcpcdPair address s r.destToken (inet4Ntop r.gateway) = addDhclientRoute address s r := by
  obtain ⟨hplen, hdest⟩ := hr
  have hslash : ∀ c ∈ inet4Ntop r.dest, decide (c ≠ '/') = true := by
    intro c hc
    rw [decide_eq_true_iff]
    rintro rfl
    exact notMem_inet4Ntop rfl (by decide) hc
  have hprefix : r.destToken.takeWhile (fun c : UInt8 => c ≠ '/') = inet4Ntop r.dest := by
    rw [LeaseRoute.destToken, takeWhile_append_of_pos hslash]
    simp
  have hsuffix : r.destToken.dropWhile (fun c : UInt8 => c ≠ '/') =
      ('/' : UInt8) :: formatUnsigned r.plen := by
    rw [LeaseRoute.destToken, dropWhile_append_of_pos hslash]
    simp
  have hint : ∀ n : ℕ, n ≤ 32 → (BitVec.ofInt 32 (n : ℤ)).toInt = (n : ℤ) := by decide +kernel
  have hnat : ∀ n : ℕ, n ≤ 32 → (BitVec.ofInt 32 (n : ℤ)).toNat = n := by decide +kernel
  have hcidr : dhcpcdCidr (('/' : UInt8) :: formatUnsigned r.plen) = some (r.plen : ℤ) := by
    have hgt : ¬ (r.plen : ℤ) > 32 := by omega
    have hread : strtol (formatUnsigned r.plen) = some (r.plen : ℤ) := by
      simp only [strtol, asciiStrtoll, parseLongLong_formatUnsigned, reduceCtorEq, if_false]
      rw [if_pos (by omega)]
      rfl
    simp only [dhcpcdCidr, drop_one, tail_cons, hread, hint r.plen hplen, hgt]
    simp
  simp only [dhcpcdPair, hprefix, hsuffix, hcidr, inetPton_inet4Ntop, hnat r.plen hplen, hdest,
    addDhclientRoute]
  by_cases hzero : r.plen = 0
  · have hdest0 : r.dest = 0 := by
      rw [← hdest, hzero]
      simp [ip4AddrClearHostAddress, ip4AddrNetmaskFromPrefix]
    rw [if_pos ⟨by omega, hdest0⟩, if_pos hzero]
  · have hmod : r.plen % 2 ^ 8 = r.plen := Nat.mod_eq_of_lt (by omega)
    rw [if_neg fun h => hzero (by omega), if_neg hzero, hmod]

theorem dhcpcdLoop_tokens (address : BitVec 32) (routes : List LeaseRoute)
    (hroutes : ∀ r ∈ routes, r.Valid) (s : ClasslessRoutes) :
    dhcpcdLoop address (routes.flatMap fun r => [r.destToken, inet4Ntop r.gateway]) s =
      routes.foldl (addDhclientRoute address) s := by
  induction routes generalizing s with
  | nil => rfl
  | cons r routes ih =>
    have hpair := dhcpcdPair_valid address s (hroutes r mem_cons_self)
    rw [flatMap_cons, cons_append, cons_append, dhcpcdLoop, hpair]
    exact ih (fun r hr => hroutes r (mem_cons_of_mem _ hr)) _

theorem splitOnP_foldl_items (items : List Bytes) {sbuf : Bytes} (hsbuf : sbuf ≠ []) :
    (items.foldl (fun sbuf item => appendRequiredDelimiter sbuf ' ' ++ item) sbuf).splitOnP
        (fun c => c ∈ ([' '] : Bytes)) =
      sbuf.splitOnP (fun c => c ∈ ([' '] : Bytes)) ++
        items.flatMap fun item => item.splitOnP fun c => c ∈ ([' '] : Bytes) := by
  induction items generalizing sbuf with
  | nil => simp
  | cons item items ih =>
    have happend : appendRequiredDelimiter sbuf ' ' ++ item = sbuf ++ (' ' : UInt8) :: item := by
      simp [appendRequiredDelimiter, hsbuf]
    have hne : sbuf ++ (' ' : UInt8) :: item ≠ [] := by simp
    rw [foldl_cons, happend, ih hne, splitOnP_append_cons sbuf item rfl,
      flatMap_cons, append_assoc]

theorem splitOnP_appendItems (items : List Bytes) (hne : items ≠ [])
    (hitems : ∀ item ∈ items, item ≠ []) :
    (appendItems items).splitOnP (fun c => c ∈ ([' '] : Bytes)) =
      items.flatMap fun item => item.splitOnP fun c => c ∈ ([' '] : Bytes) := by
  cases items with
  | nil => exact absurd rfl hne
  | cons item items =>
    have hfirst : appendRequiredDelimiter [] ' ' ++ item = item := rfl
    rw [appendItems, foldl_cons, hfirst,
      splitOnP_foldl_items items (hitems item mem_cons_self), flatMap_cons]

theorem splitOnP_print (r : LeaseRoute) :
    r.print.splitOnP (fun c => c ∈ ([' '] : Bytes)) = [r.destToken, inet4Ntop r.gateway] := by
  have hprint : r.print = r.destToken ++ (' ' : UInt8) :: inet4Ntop r.gateway := by
    simp [LeaseRoute.print, LeaseRoute.destToken]
  have hclean (addr : BitVec 32) : ∀ c ∈ inet4Ntop addr, decide (c ∈ ([' '] : Bytes)) = false := by
    intro c hc
    simp only [mem_singleton, decide_eq_false_iff_not]
    rintro rfl
    exact notMem_inet4Ntop rfl (by decide) hc
  have hdest : ∀ c ∈ r.destToken, decide (c ∈ ([' '] : Bytes)) = false := by
    intro c hc
    rcases mem_append.mp hc with hc | hc
    · exact hclean r.dest c hc
    · simp only [mem_singleton, decide_eq_false_iff_not]
      rintro rfl
      rcases mem_cons.mp hc with hc | hc
      · exact absurd hc (by decide)
      · exact notMem_formatUnsigned _ rfl hc
  rw [hprint, splitOnP_append_cons_of_forall_mem hdest _ rfl,
    splitOnP_eq_singleton (hclean r.gateway)]

theorem strsplitSet_appendItems (routes : List LeaseRoute) :
    strsplitSet (appendItems (routes.map LeaseRoute.print)) [' '] =
      routes.flatMap fun r => [r.destToken, inet4Ntop r.gateway] := by
  cases routes with
  | nil => rfl
  | cons r routes =>
    have hprint (r : LeaseRoute) : r.print ≠ [] := by simp [LeaseRoute.print]
    have hsplit := splitOnP_appendItems ((r :: routes).map LeaseRoute.print) (by simp)
      fun item hitem => by
        obtain ⟨r, -, rfl⟩ := mem_map.mp hitem
        exact hprint r
    rw [flatMap_map] at hsplit
    simp only [splitOnP_print] at hsplit
    have hne : appendItems ((r :: routes).map LeaseRoute.print) ≠ [] := by
      intro hnil
      rw [hnil] at hsplit
      have hlength := congrArg List.length hsplit
      simp at hlength
    rw [strsplitSet, strsplitSetWithEmpty, if_neg hne, hsplit, filter_eq_self]
    intro token htoken
    obtain ⟨r, -, htoken⟩ := mem_flatMap.mp htoken
    simp only [mem_cons, not_mem_nil, or_false] at htoken
    rcases htoken with rfl | rfl
    · simp [LeaseRoute.destToken]
    · simp [inet4Ntop_ne_nil]

theorem ip4ProcessDhcpcdRfc3442Routes_appendItems {routes : List LeaseRoute}
    (hroutes : ∀ r ∈ routes, r.Valid) (address gwaddr : BitVec 32) :
    ip4ProcessDhcpcdRfc3442Routes (appendItems (routes.map LeaseRoute.print)) address gwaddr =
      routes.foldl (addDhclientRoute address) ⟨[], gwaddr, false⟩ := by
  have heven : (routes.flatMap fun r => [r.destToken, inet4Ntop r.gateway]).length % 2 = 0 := by
    simp
  simp only [ip4ProcessDhcpcdRfc3442Routes, strsplitSet_appendItems, heven,
    dhcpcdLoop_tokens address routes hroutes]
  cases routes with
  | nil => rfl
  | cons r routes => simp

/-! ## The routes that the clients add -/

def nonDefault (routes : List PlatformIp4Route) : List PlatformIp4Route :=
  routes.filter fun r => r.plen ≠ 0

def addedRoutes (address : BitVec 32) (routes : List LeaseRoute) : List PlatformIp4Route :=
  (routes.filter fun r => r.plen ≠ 0).map fun r => dhcpRoute r.dest r.plen r.gateway address 0

theorem routes_foldl_addDhclientRoute (address : BitVec 32) (routes : List LeaseRoute)
    (s : ClasslessRoutes) :
    (routes.foldl (addDhclientRoute address) s).routes = s.routes ++ addedRoutes address routes := by
  induction routes generalizing s with
  | nil => simp [addedRoutes]
  | cons r routes ih =>
    rw [foldl_cons, ih]
    by_cases hzero : r.plen = 0
    · simp [addDhclientRoute, addedRoutes, hzero]
    · simp [addDhclientRoute, addedRoutes, hzero]

theorem nonDefault_addedRoutes (address : BitVec 32) (routes : List LeaseRoute) :
    nonDefault (addedRoutes address routes) = addedRoutes address routes := by
  rw [nonDefault, filter_eq_self]
  intro r hr
  obtain ⟨x, hx, rfl⟩ := mem_map.mp hr
  exact (mem_filter.mp hx).2

theorem nonDefault_foldl_parseClasslessRoute (address : BitVec 32) (routes : List LeaseRoute)
    {s : LeaseParse} (hs : s.hasClassless = false) :
    (routes.foldl (parseClasslessRoute address) s).hasClassless = false ∧
      (routes.foldl (parseClasslessRoute address) s).options = s.options ∧
      nonDefault (routes.foldl (parseClasslessRoute address) s).routes =
        nonDefault s.routes ++ addedRoutes address routes := by
  induction routes generalizing s with
  | nil => simp [addedRoutes, hs]
  | cons r routes ih =>
    rw [foldl_cons]
    have hstep : (parseClasslessRoute address s r).hasClassless = false ∧
        (parseClasslessRoute address s r).options = s.options ∧
        nonDefault (parseClasslessRoute address s r).routes =
          nonDefault s.routes ++ addedRoutes address [r] := by
      by_cases hzero : r.plen = 0
      · simp [parseClasslessRoute, hs, hzero, nonDefault, addedRoutes, dhcpRoute]
      · simp [parseClasslessRoute, hs, hzero, nonDefault, addedRoutes, dhcpRoute]
    obtain ⟨hclassless, hoptions, hroutes⟩ := ih hstep.1
    refine ⟨hclassless, hoptions.trans hstep.2.1, ?_⟩
    rw [hroutes, hstep.2.2, append_assoc]
    by_cases hzero : r.plen = 0
    · simp [addedRoutes, hzero]
    · simp [addedRoutes, hzero]

/-- The other options are written down, but they add no routes other than default routes. -/
structure LeaseParse.Extends (s s' : LeaseParse) : Prop where
  hasClassless : s'.hasClassless = true
  options : s.options <+: s'.options
  routes : nonDefault s'.routes = nonDefault s.routes

theorem LeaseParse.Extends.trans {s s' s'' : LeaseParse} (h : s.Extends s') (h' : s'.Extends s'') :
    s.Extends s'' where
  hasClassless := h'.hasClassless
  options := h.options.trans h'.options
  routes := h'.routes.trans h.routes

section Extends

variable (address : BitVec 32) (lease : RouteOption → Option (List Octet)) {s : LeaseParse}

theorem extends_parseClassless (hs : s.hasClassless = true) (option : RouteOption) :
    s.Extends (parseClassless address lease s option) := by
  have hroute (routes : List LeaseRoute) : routes.foldl (parseClasslessRoute address) s = s := by
    induction routes with
    | nil => rfl
    | cons r routes ih => rw [foldl_cons, parseClasslessRoute, if_pos hs, ih]
  unfold parseClassless
  cases lease option with
  | none => exact ⟨hs, prefix_refl _, rfl⟩
  | some data =>
    simp only [hroute]
    exact ⟨rfl, prefix_append _ _, rfl⟩

theorem extends_parseStatic (hs : s.hasClassless = true) :
    s.Extends (parseStatic address lease s) := by
  have hroute (routes : List LeaseRoute) : routes.foldl (parseStaticRoute address) s = s := by
    induction routes with
    | nil => rfl
    | cons r routes ih => rw [foldl_cons, parseStaticRoute, if_pos hs, ih]
  unfold parseStatic
  cases lease .staticRoute with
  | none => exact ⟨hs, prefix_refl _, rfl⟩
  | some data =>
    simp only [hroute]
    exact ⟨hs, prefix_append _ _, rfl⟩

theorem extends_parseRouter (hs : s.hasClassless = true) :
    s.Extends (parseRouter address lease s) := by
  have hstep (s : LeaseParse) (gateway : BitVec 32) (hs : s.hasClassless = true) :
      s.Extends (parseRouterAddr address s gateway) := by
    unfold parseRouterAddr
    split_ifs
    · exact ⟨hs, prefix_refl _, rfl⟩
    · exact ⟨hs, prefix_refl _, rfl⟩
    · refine ⟨hs, prefix_refl _, ?_⟩
      simp [nonDefault, dhcpRoute]
  have hloop (gateways : List (BitVec 32)) (s : LeaseParse) (hs : s.hasClassless = true) :
      s.Extends (gateways.foldl (parseRouterAddr address) s) := by
    induction gateways generalizing s with
    | nil => exact ⟨hs, prefix_refl _, rfl⟩
    | cons gateway gateways ih =>
      have hfirst := hstep s gateway hs
      exact hfirst.trans (ih _ hfirst.hasClassless)
  unfold parseRouter
  cases lease .router with
  | none => exact ⟨hs, prefix_refl _, rfl⟩
  | some data =>
    have h := hloop (leaseConsumeInAddrs data) s hs
    exact ⟨h.hasClassless, h.options.trans (prefix_append _ _), h.routes⟩

end Extends

theorem leaseParseRoutes_spec (lease : RouteOption → Option (List Octet)) (data : List Octet)
    (address : BitVec 32) (hdata : lease .classlessStaticRoute = some data) :
    (leaseParseRoutes address lease).options.lookup .classlessStaticRoute =
        some (appendItems ((leaseConsumeRoutes true data).map LeaseRoute.print)) ∧
      nonDefault (leaseParseRoutes address lease).routes =
        addedRoutes address (leaseConsumeRoutes true data) := by
  obtain ⟨hclassless, hoptions, hroutes⟩ :=
    nonDefault_foldl_parseClasslessRoute address (leaseConsumeRoutes true data)
      (s := ⟨[], [], false, false, 0⟩) rfl
  have hfirst : (parseClassless address lease ⟨[], [], false, false, 0⟩
      .classlessStaticRoute).hasClassless = true := by
    simp [parseClassless, hdata]
  have hprivate := extends_parseClassless address lease hfirst .privateClasslessStaticRoute
  have hstatic := extends_parseStatic address lease hprivate.hasClassless
  have hrouter := extends_parseRouter address lease hstatic.hasClassless
  obtain ⟨-, ⟨options, hprefix⟩, hadded⟩ := hprivate.trans (hstatic.trans hrouter)
  have hparse : leaseParseRoutes address lease = parseRouter address lease (parseStatic address lease
      (parseClassless address lease (parseClassless address lease ⟨[], [], false, false, 0⟩
        .classlessStaticRoute) .privateClasslessStaticRoute)) := rfl
  rw [hparse, ← hprefix, hadded]
  simp only [parseClassless, hdata, hoptions, hroutes]
  simp [nonDefault]

/-- The clients add the same routes, apart from default routes, for the same option. -/
theorem clients_agree_classlessStaticRoutes (lease : RouteOption → Option (List Octet))
    (data : List Octet) (dot : ℕ → Bool) (address gwaddr : BitVec 32) :
    let s := leaseParseRoutes address (Function.update lease .classlessStaticRoute (some data))
    nonDefault
        (ip4ProcessDhclientRfc3442Routes (dhclientRendering dot data) address gwaddr).routes =
          nonDefault s.routes ∧
      (∃ str, s.options.lookup .classlessStaticRoute = some str ∧
        nonDefault (ip4ProcessDhcpcdRfc3442Routes str address gwaddr).routes =
          nonDefault s.routes) ∧
      ∀ r ∈ nonDefault s.routes, ip4AddrClearHostAddress r.network r.plen = r.network := by
  obtain ⟨hoption, hroutes⟩ := leaseParseRoutes_spec
    (Function.update lease .classlessStaticRoute (some data)) data address (by simp)
  have hvalid (r : LeaseRoute) (hr : r ∈ leaseConsumeRoutes true data) : r.Valid :=
    valid_of_mem_leaseConsumeRoutes hr
  have hadd (s : ClasslessRoutes) (hs : s.routes = []) :
      nonDefault ((leaseConsumeRoutes true data).foldl (addDhclientRoute address) s).routes =
        addedRoutes address (leaseConsumeRoutes true data) := by
    rw [routes_foldl_addDhclientRoute, hs, nil_append, nonDefault_addedRoutes]
  refine ⟨?_, ⟨_, hoption, ?_⟩, ?_⟩
  · rw [hroutes, ip4ProcessDhclientRfc3442Routes_rendering]
    exact hadd _ rfl
  · rw [hroutes, ip4ProcessDhcpcdRfc3442Routes_appendItems hvalid]
    exact hadd _ rfl
  · rw [hroutes]
    intro r hr
    obtain ⟨x, hx, rfl⟩ := mem_map.mp hr
    exact (hvalid x (mem_filter.mp hx).1).2

end NetworkManager.Core
