import NetworkManager.Core.DnsManagerUpdates
import NetworkManager.Lib.Utf8

/-!
# What the hash of the configurations tells

The strings of a configuration are hashed one after the other, with nothing between them. The hash
tells them apart if it is known how long they are. What is not hashed, it does not tell.
-/

namespace NetworkManager.Core

open Lib List

theorem stringBytes_injective : Function.Injective stringBytes := by
  intro s t h
  exact String.toList_inj.mp (flatMap_injective (fun _ => String.utf8EncodeChar_ne_nil)
    (fun _ _ _ _ => encodeChar_append_inj) h)

def byteLengths (strv : List String) : List ℕ := strv.map fun s => (stringBytes s).length

theorem strv_append_inj {as bs : List String} {x y : List UInt8}
    (hlengths : byteLengths as = byteLengths bs)
    (h : as.flatMap stringBytes ++ x = bs.flatMap stringBytes ++ y) : as = bs ∧ x = y := by
  induction as generalizing bs with
  | nil =>
    cases bs with
    | nil => exact ⟨rfl, h⟩
    | cons b bs => cases hlengths
  | cons a as ih =>
    cases bs with
    | nil => cases hlengths
    | cons b bs =>
      obtain ⟨hlength, hlengths⟩ := List.cons.inj hlengths
      rw [flatMap_cons, flatMap_cons, append_assoc, append_assoc] at h
      obtain ⟨hab, h⟩ := append_inj h hlength
      obtain ⟨rfl, hxy⟩ := ih hlengths h
      exact ⟨congrArg (· :: as) (stringBytes_injective hab), hxy⟩

theorem length_flatMap_stringBytes {as bs : List String} (h : byteLengths as = byteLengths bs) :
    (as.flatMap stringBytes).length = (bs.flatMap stringBytes).length := by
  rw [length_flatMap, length_flatMap]
  exact congrArg List.sum h

/-- An `int` of C. -/
def IsInt (val : ℤ) : Prop := -2 ^ 31 ≤ val ∧ val < 2 ^ 31

instance : DecidablePred IsInt := fun _ => inferInstanceAs (Decidable (_ ∧ _))

theorem intBytes_inj {a b : ℤ} (ha : IsInt a) (hb : IsInt b) (h : intBytes a = intBytes b) :
    a = b := by
  have hbyte {i : ℕ} (hi : UInt8.ofBitVec ((BitVec.ofInt 32 a >>> i).setWidth 8) =
      UInt8.ofBitVec ((BitVec.ofInt 32 b >>> i).setWidth 8)) :
      (BitVec.ofInt 32 a).toNat / 2 ^ i % 256 = (BitVec.ofInt 32 b).toNat / 2 ^ i % 256 := by
    have hnat := congrArg (fun c : UInt8 => c.toBitVec.toNat) hi
    simpa [BitVec.toNat_setWidth, BitVec.toNat_ushiftRight, Nat.shiftRight_eq_div_pow] using hnat
  simp only [intBytes, map_cons, map_nil, List.cons.injEq, and_true] at h
  obtain ⟨h0, h8, h16, h24⟩ := h
  have h0 := hbyte h0
  have h8 := hbyte h8
  have h16 := hbyte h16
  have h24 := hbyte h24
  have hlt := (BitVec.ofInt 32 a).isLt
  have hlt' := (BitVec.ofInt 32 b).isLt
  have hnat : (BitVec.ofInt 32 a).toNat = (BitVec.ofInt 32 b).toNat := by omega
  simp only [BitVec.toNat_ofInt] at hnat
  unfold IsInt at ha hb
  omega

/-! ## The data that is hashed -/

/-- How long the data is that is hashed. -/
structure HashedLengths where
  nameservers : List ℕ
  wins : ℕ
  domains : List ℕ
  searches : List ℕ
  dnsOptions : List ℕ
  mdns : Bool
  llmnr : Bool
  dnsOverTls : Bool
  deriving DecidableEq

namespace DnsConfigIpData

variable {env : DnsEnv} {a b : DnsConfigIpData}

def wins (d : DnsConfigIpData) : List (BitVec 32) :=
  if d.addrFamily = .inet then d.l3cd.data.wins else []

def hashedLengths (d : DnsConfigIpData) : HashedLengths where
  nameservers := byteLengths d.nameservers
  wins := d.wins.length
  domains := byteLengths d.domains
  searches := byteLengths d.searches
  dnsOptions := byteLengths d.dnsOptions
  mdns := d.l3cd.data.mdns ≠ .default
  llmnr := d.l3cd.data.llmnr ≠ .default
  dnsOverTls := d.l3cd.data.dnsOverTls ≠ .default

/-- There is data that is hashed. -/
def HasDnsData (d : DnsConfigIpData) : Prop :=
  d.hashedLengths ≠ ⟨[], 0, [], [], [], false, false, false⟩

instance : DecidablePred HasDnsData := fun _ => inferInstanceAs (Decidable (_ ≠ _))

/-- The data that is not hashed is the same, and the strings are as long as before. -/
structure UnhashedAs (env : DnsEnv) (a b : DnsConfigIpData) : Prop where
  lengths : a.hashedLengths = b.hashedLengths
  ints : IsInt a.dnsPriority ∧ IsInt b.dnsPriority
  reads : (a.addrFamily, a.ifindex, a.nisServers, a.nisDomain) =
    (b.addrFamily, b.ifindex, b.nisServers, b.nisDomain)
  domain : env.hasPlugin → b.nameservers ≠ [] →
    (a.addWildcard, getIpRdnsDomains a) = (b.addWildcard, getIpRdnsDomains b)
  unhashed : env.globalWildcard ∨ ¬ b.HasDnsData → a.ReadsAs env b

instance UnhashedAs.decidable (env : DnsEnv) (a b : DnsConfigIpData) :
    Decidable (UnhashedAs env a b) :=
  decidable_of_iff (a.hashedLengths = b.hashedLengths ∧
      (IsInt a.dnsPriority ∧ IsInt b.dnsPriority) ∧
      (a.addrFamily, a.ifindex, a.nisServers, a.nisDomain) =
        (b.addrFamily, b.ifindex, b.nisServers, b.nisDomain) ∧
      (env.hasPlugin → b.nameservers ≠ [] →
        (a.addWildcard, getIpRdnsDomains a) = (b.addWildcard, getIpRdnsDomains b)) ∧
      (env.globalWildcard ∨ ¬ b.HasDnsData → a.ReadsAs env b))
    ⟨fun ⟨h₁, h₂, h₃, h₄, h₅⟩ => ⟨h₁, h₂, h₃, h₄, h₅⟩,
      fun ⟨h₁, h₂, h₃, h₄, h₅⟩ => ⟨h₁, h₂, h₃, h₄, h₅⟩⟩

def settingBytes (d : DnsConfigIpData) : List UInt8 :=
  (if d.l3cd.data.mdns ≠ .default then intBytes d.l3cd.data.mdns.toInt else []) ++
    (if d.l3cd.data.llmnr ≠ .default then intBytes d.l3cd.data.llmnr.toInt else []) ++
      if d.l3cd.data.dnsOverTls ≠ .default then intBytes d.l3cd.data.dnsOverTls.toInt else []

theorem l3ConfigDataHashDns_eq (d : DnsConfigIpData) :
    l3ConfigDataHashDns d = if d.HasDnsData then
      d.nameservers.flatMap stringBytes ++ (d.wins.flatMap inAddrBytes ++
        (d.domains.flatMap stringBytes ++ (d.searches.flatMap stringBytes ++
          (d.dnsOptions.flatMap stringBytes ++ (d.settingBytes ++
            (intBytes d.ipConfigType.toInt ++ intBytes d.dnsPriority))))))
      else [] := by
  have hnone : (d.nameservers = [] ∧ d.wins = [] ∧ d.domains = [] ∧ d.searches = [] ∧
      d.dnsOptions = [] ∧ d.l3cd.data.mdns = .default ∧ d.l3cd.data.llmnr = .default ∧
        d.l3cd.data.dnsOverTls = .default) ↔ ¬ d.HasDnsData := by
    simp [HasDnsData, hashedLengths, byteLengths]
  unfold l3ConfigDataHashDns
  dsimp only
  simp only [wins] at hnone
  by_cases h : d.HasDnsData
  · rw [if_neg (mt hnone.mp (not_not.mpr h)), if_pos h]
    simp only [settingBytes, wins, append_assoc]
  · rw [if_pos (hnone.mpr h), if_neg h]

theorem length_settingBytes (h : a.hashedLengths = b.hashedLengths) :
    a.settingBytes.length = b.settingBytes.length := by
  have hlength (val : ℤ) : (intBytes val).length = 4 := rfl
  have hmdns := congrArg HashedLengths.mdns h
  have hllmnr := congrArg HashedLengths.llmnr h
  have hdnsOverTls := congrArg HashedLengths.dnsOverTls h
  simp only [hashedLengths, decide_eq_decide] at hmdns hllmnr hdnsOverTls
  simp only [settingBytes, length_append, apply_ite List.length, hlength, hmdns, hllmnr,
    hdnsOverTls]

theorem length_winsBytes (h : a.hashedLengths = b.hashedLengths) :
    (a.wins.flatMap inAddrBytes).length = (b.wins.flatMap inAddrBytes).length := by
  have hlength (l : List (BitVec 32)) : (l.flatMap inAddrBytes).length = 4 * l.length := by
    simp [inAddrBytes, length_flatMap, Nat.mul_comm]
  rw [hlength, hlength]
  exact congrArg (4 * ·) (congrArg HashedLengths.wins h)

theorem hasDnsData_congr (h : a.hashedLengths = b.hashedLengths) :
    a.HasDnsData ↔ b.HasDnsData := by
  unfold HasDnsData
  rw [h]

/-- The data that is hashed is told by the hash if it is known how long it is. -/
theorem l3ConfigDataHashDns_inj (hlengths : a.hashedLengths = b.hashedLengths)
    (hints : IsInt a.dnsPriority ∧ IsInt b.dnsPriority) (hdata : b.HasDnsData)
    (h : l3ConfigDataHashDns a = l3ConfigDataHashDns b) :
    (a.nameservers, a.domains, a.searches, a.dnsOptions, a.ipConfigType, a.dnsPriority) =
      (b.nameservers, b.domains, b.searches, b.dnsOptions, b.ipConfigType, b.dnsPriority) := by
  rw [l3ConfigDataHashDns_eq, l3ConfigDataHashDns_eq, if_pos hdata,
    if_pos ((hasDnsData_congr hlengths).mpr hdata)] at h
  obtain ⟨hnameservers, h⟩ := strv_append_inj (congrArg HashedLengths.nameservers hlengths) h
  obtain ⟨-, h⟩ := append_inj h (length_winsBytes hlengths)
  obtain ⟨hdomains, h⟩ := strv_append_inj (congrArg HashedLengths.domains hlengths) h
  obtain ⟨hsearches, h⟩ := strv_append_inj (congrArg HashedLengths.searches hlengths) h
  obtain ⟨hoptions, h⟩ := strv_append_inj (congrArg HashedLengths.dnsOptions hlengths) h
  obtain ⟨-, h⟩ := append_inj h (length_settingBytes hlengths)
  obtain ⟨htype, hpriority⟩ := append_inj h rfl
  have htype : a.ipConfigType = b.ipConfigType := by
    revert htype
    generalize a.ipConfigType = type
    generalize b.ipConfigType = type'
    cases type <;> cases type' <;> decide
  rw [hnameservers, hdomains, hsearches, hoptions, htype, intBytes_inj hints.1 hints.2 hpriority]

theorem length_l3ConfigDataHashDns (h : a.hashedLengths = b.hashedLengths) :
    (l3ConfigDataHashDns a).length = (l3ConfigDataHashDns b).length := by
  have hint (val : ℤ) : (intBytes val).length = 4 := rfl
  rw [l3ConfigDataHashDns_eq, l3ConfigDataHashDns_eq, if_congr (hasDnsData_congr h) rfl rfl]
  split_ifs with hdata
  · simp only [length_append, hint, length_winsBytes h, length_settingBytes h,
      length_flatMap_stringBytes (congrArg HashedLengths.nameservers h),
      length_flatMap_stringBytes (congrArg HashedLengths.domains h),
      length_flatMap_stringBytes (congrArg HashedLengths.searches h),
      length_flatMap_stringBytes (congrArg HashedLengths.dnsOptions h)]
  · rfl

theorem UnhashedAs.readsAs (h : a.UnhashedAs env b)
    (hhash : l3ConfigDataHashDns a = l3ConfigDataHashDns b) : a.ReadsAs env b := by
  by_cases hdata : b.HasDnsData
  · have hhashed := l3ConfigDataHashDns_inj h.lengths h.ints hdata hhash
    have hreads := h.reads
    simp only [Prod.mk.injEq] at hhashed hreads
    obtain ⟨hnameservers, hdomains, hsearches, hoptions, htype, hpriority⟩ := hhashed
    obtain ⟨hfamily, hifindex, hservers, hdomain⟩ := hreads
    refine ⟨?_, fun hplugin hne => ?_⟩
    · simp only [resolvConfReads, *]
    · obtain ⟨hwildcard, hreverse⟩ := Prod.mk.inj (h.domain hplugin hne)
      simp only [domainReads, *]
  · exact h.unhashed (.inr hdata)

end DnsConfigIpData

/-- If the hash is the same, so is what an update reads, as far as it is hashed. -/
theorem readsAs_of_computeHash {env : DnsEnv} {l l' : DnsIpDataLst}
    (hhash : computeHash env.globalConfig l = computeHash env.globalConfig l')
    (h : env.readsConfigs → List.Forall₂ (DnsConfigIpData.UnhashedAs env) l.head l'.head) :
    l.ReadsAs env l' := by
  intro hreads
  have h := h hreads
  by_cases hwildcard : env.globalWildcard
  · exact h.imp fun a b hab => hab.unhashed (.inl hwildcard)
  · have hlookup : ¬ (env.globalConfig.bind fun g => g.lookupDomain "*").isSome := hwildcard
    simp only [computeHash, if_neg hlookup] at hhash
    replace hhash := append_cancel_left hhash
    generalize l.head = head, l'.head = head' at h hhash ⊢
    induction h with
    | nil => exact .nil
    | @cons a b as bs hab has ih =>
      obtain ⟨hfirst, hrest⟩ := append_inj hhash
        (DnsConfigIpData.length_l3ConfigDataHashDns hab.lengths)
      exact .cons (hab.readsAs hfirst) (ih hrest)

end NetworkManager.Core
