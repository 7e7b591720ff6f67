import NetworkManager.GlibAux.AsciiStrToInt64
import NetworkManager.Lib.DigitNames
import NetworkManager.Platform.IpRouteCmpOrder

/-!
# Reverse DNS domains of a prefix

The octets of an IPv4 prefix, or the nibbles of an IPv6 prefix, of which the last one counts up,
give domains that cover exactly the addresses of the prefix.
-/

namespace NetworkManager.Core

open Lib GlibAux Platform List

/-! ## The domains -/

/-- A buffer with what was written to it and the room that is left. -/
structure StrBuf where
  text : Bytes
  len : ℕ

/-- `nm_strbuf_append()`, which keeps one byte for the terminator. -/
def StrBuf.append (b : StrBuf) (str : Bytes) : StrBuf :=
  if b.len ≤ str.length then ⟨b.text ++ str.take (b.len - 1), 0⟩
  else ⟨b.text ++ str, b.len - str.length⟩

def reverseDnsDomain (len0 n : ℕ) (label : ℕ → Bytes) (suffix : Bytes) : Bytes :=
  let b : StrBuf := ⟨[], len0⟩
  (((List.range n).reverse.foldl (fun b i => b.append (label i)) b).append suffix).text

def ip4Octet (ip : BitVec 32) (i : ℕ) : ℕ := (ip >>> (24 - 8 * i)).toNat % 256

def ip4Octets (plen : ℕ) : ℕ := (plen - 1) / 8 + 1

def ip4DomainLen (octets : ℕ) : ℕ := 12 + 4 * octets + 1

def ip4Domain (octets : ℕ) (ip : BitVec 32) : Bytes :=
  reverseDnsDomain (ip4DomainLen octets) octets
    (fun i => formatUnsigned (ip4Octet ip i) ++ ascii ".") (ascii "in-addr.arpa")

/-- The loop of `nm_utils_get_reverse_dns_domains_ip_4()`, which does not end without fuel. -/
def ip4DomainsLoop (octets : ℕ) (ip mask step : BitVec 32) :
    ℕ → List Bytes → BitVec 32 → Option (List Bytes)
  | 0, _, _ => none
  | fuel + 1, domains, ip2 =>
    if ip2 &&& mask = ip then
      ip4DomainsLoop octets ip mask step fuel (domains ++ [ip4Domain octets ip2]) (ip2 + step)
    else some domains

/-- `nm_utils_get_reverse_dns_domains_ip_4()` of an address in host order. -/
def getReverseDnsDomainsIp4 (fuel : ℕ) (addr : BitVec 32) (plen : ℕ) (domains : List Bytes) :
    Option (List Bytes) :=
  if 32 < plen ∨ plen = 0 then some domains
  else
    let mask := BitVec.allOnes 32 <<< (32 - plen)
    let step := 1#32 <<< ((32 - plen) / 8 * 8)
    ip4DomainsLoop (ip4Octets plen) (addr &&& mask) mask step fuel domains (addr &&& mask)

def nShift (x : ℕ) : ℕ := if x % 2 = 1 then 0 else 4

def ip6Nibble (s6Addr : ℕ → BitVec 8) (j : ℕ) : ℕ := (s6Addr (j / 2) >>> nShift j).toNat % 16

def ip6Nibbles (plen : ℕ) : ℕ := (plen - 1) / 4 + 1

def ip6DomainLen (nibbles : ℕ) : ℕ := 8 + 2 * nibbles + 1

def ip6Domain (nibbles : ℕ) (s6Addr : ℕ → BitVec 8) : Bytes :=
  reverseDnsDomain (ip6DomainLen nibbles) nibbles
    (fun j => digitsText 16 (ip6Nibble s6Addr j) ++ ascii ".") (ascii "ip6.arpa")

/-- The loop of `nm_utils_get_reverse_dns_domains_ip_6()`. -/
def ip6DomainsLoop (nibbles : ℕ) : ℕ → List Bytes → (ℕ → BitVec 8) → List Bytes
  | 0, domains, _ => domains
  | entries + 1, domains, s6Addr =>
    let i := (nibbles - 1) / 2
    ip6DomainsLoop nibbles entries (domains ++ [ip6Domain nibbles s6Addr])
      (Function.update s6Addr i (s6Addr i + 1#8 <<< nShift (nibbles - 1)))

/-- A byte of `struct in6_addr`. -/
def s6Addr (addr : BitVec 128) (i : ℕ) : BitVec 8 := (addr >>> (120 - 8 * i)).setWidth 8

def getReverseDnsDomainsIp6 (ip : BitVec 128) (plen : ℕ) (domains : List Bytes) : List Bytes :=
  if 128 < plen ∨ plen = 0 then domains
  else
    let bits := plen - (plen - 1) / 4 * 4
    ip6DomainsLoop (ip6Nibbles plen) (2 ^ (4 - bits)) domains
      (s6Addr (ip6AddrClearHostAddress ip plen))

def ip4ReverseName (ip : BitVec 32) : Bytes :=
  ((List.range 4).reverse.flatMap fun i => formatUnsigned (ip4Octet ip i) ++ ascii ".") ++
    ascii "in-addr.arpa"

def ip6ReverseName (ip : BitVec 128) : Bytes :=
  ((List.range 32).reverse.flatMap fun j =>
    digitsText 16 (ip6Nibble (s6Addr ip) j) ++ ascii ".") ++ ascii "ip6.arpa"

/-! ## The text of a domain -/

variable {d : ℕ}

section Text

variable {label : ℕ → Bytes} {suffix : Bytes} {base : ℕ} {digit : ℕ → ℕ}

theorem foldl_append (l : List ℕ) {b : StrBuf} (h : (l.flatMap label).length < b.len) :
    l.foldl (fun b i => b.append (label i)) b =
      ⟨b.text ++ l.flatMap label, b.len - (l.flatMap label).length⟩ := by
  induction l generalizing b with
  | nil => simp
  | cons i l ih =>
    rw [flatMap_cons, length_append] at h
    rw [foldl_cons, StrBuf.append, if_neg (by omega), ih (by simp only; omega)]
    simp only [flatMap_cons, append_assoc, length_append, Nat.sub_sub]

theorem length_flatMap_le {k : ℕ} {l : List ℕ} (h : ∀ i ∈ l, (label i).length ≤ k) :
    (l.flatMap label).length ≤ k * l.length := by
  induction l with
  | nil => simp
  | cons i l ih =>
    obtain ⟨hi, hl⟩ := forall_mem_cons.mp h
    have hle := ih hl
    rw [flatMap_cons, length_append, length_cons, Nat.mul_succ]
    omega

theorem digitsText_label (hbase : 1 < base) (hle : base ≤ 16) :
    Function.Injective (digitsText base) ∧ ∀ d, ('.' : UInt8) ∉ digitsText base d := by
  refine ⟨fun a b h => ?_, fun d => notMem_digitsText hbase hle d (by decide)⟩
  rw [← (asciiDigits_digitsText hbase hle a).2, h, (asciiDigits_digitsText hbase hle b).2]

theorem length_digitsText_le {k : ℕ} (hbase : 1 < base) (hk : 0 < k) (hd : d < base ^ k) :
    (digitsText base d ++ ascii ".").length ≤ k + 1 := by
  rw [length_append, digitsText, length_map]
  exact Nat.succ_le_succ ((Nat.length_toDigits_le_iff hbase hk).mpr hd)

theorem digitName_eq {w m n x : ℕ} (h : ∀ i < n, digit i = digitAt w m x i) :
    ((List.range n).reverse.flatMap fun i => label (digit i) ++ ascii ".") ++ suffix =
      digitName label suffix (firstDigits w m n x) := by
  rw [digitName, digitLabels, firstDigits, ← map_reverse, flatMap_map]
  congr 1
  refine flatMap_congr fun i hi => ?_
  rw [h i (by simpa using hi)]

theorem length_digitName_le {w m n x k : ℕ}
    (hlabel : ∀ d < 2 ^ w, (label d ++ ascii ".").length ≤ k) :
    (digitName label suffix (firstDigits w m n x)).length ≤ suffix.length + k * n := by
  have hle : (digitLabels label (firstDigits w m n x)).length ≤ k * n := by
    refine (length_flatMap_le fun d hd => hlabel d ?_).trans_eq (by simp)
    obtain ⟨i, -, rfl⟩ := mem_map.mp (mem_reverse.mp hd)
    exact Nat.mod_lt _ (Nat.two_pow_pos w)
  rw [digitName, length_append]
  omega

theorem reverseDnsDomain_eq {w m n x k len0 : ℕ} (h : ∀ i < n, digit i = digitAt w m x i)
    (hlabel : ∀ d < 2 ^ w, (label d ++ ascii ".").length ≤ k) (hlen : suffix.length + k * n < len0) :
    reverseDnsDomain len0 n (fun i => label (digit i) ++ ascii ".") suffix =
      digitName label suffix (firstDigits w m n x) := by
  have hfits := @length_digitName_le label suffix w m n x k hlabel
  rw [← digitName_eq h, length_append] at hfits
  rw [reverseDnsDomain, foldl_append _ (by simp only; omega), StrBuf.append,
    if_neg (by simp only; omega), ← digitName_eq h]
  rfl

end Text

/-! ## IPv4 -/

theorem ip4Octet_eq (ip : BitVec 32) (i : ℕ) : ip4Octet ip i = digitAt 8 4 ip.toNat i := by
  rw [ip4Octet, digitAt, BitVec.toNat_ushiftRight, Nat.shiftRight_eq_div_pow,
    show 24 - 8 * i = 8 * (4 - (i + 1)) by omega]
  rfl

theorem length_ip4Label (hd : d < 2 ^ 8) : (formatUnsigned d ++ ascii ".").length ≤ 4 :=
  length_digitsText_le (by decide) (by decide) (hd.trans (by decide))

theorem ip4Domain_eq (octets : ℕ) (ip : BitVec 32) : ip4Domain octets ip =
    digitName formatUnsigned (ascii "in-addr.arpa") (firstDigits 8 4 octets ip.toNat) :=
  reverseDnsDomain_eq (fun i _ => ip4Octet_eq ip i) (fun _ => length_ip4Label)
    (Nat.lt_succ_self _)

theorem ip4ReverseName_eq (ip : BitVec 32) : ip4ReverseName ip =
    digitName formatUnsigned (ascii "in-addr.arpa") (firstDigits 8 4 4 ip.toNat) :=
  digitName_eq fun i _ => ip4Octet_eq ip i

section Ip4

variable {addr : BitVec 32} {plen : ℕ}

theorem and_ip4Mask (hle : plen ≤ 32) (ip : BitVec 32) :
    (ip &&& BitVec.allOnes 32 <<< (32 - plen)).toNat = prefixOf 32 plen ip.toNat := by
  rw [← toNat_and_not_allOnes_shift 32 plen ip]
  congr 2
  ext i hi
  simp only [BitVec.getElem_shiftLeft, BitVec.getElem_not, BitVec.getElem_ushiftRight,
    BitVec.getElem_allOnes, BitVec.getLsbD_allOnes]
  by_cases h : i < 32 - plen
  · simp [h, show plen + i < 32 by omega]
  · simp [h, show ¬ plen + i < 32 by omega]

def ip4Counted (addr : BitVec 32) (plen k : ℕ) : BitVec 32 :=
  BitVec.ofNat 32 (prefixOf 32 plen addr.toNat + k * 2 ^ (8 * (4 - ip4Octets plen)))

section

variable (hpos : 0 < plen) (hle : plen ≤ 32)

include hpos hle

theorem ip4Octets_le :
    ip4Octets plen ≤ 4 ∧ plen ≤ 8 * ip4Octets plen ∧
      (32 - plen) / 8 * 8 = 8 * (4 - ip4Octets plen) := by
  unfold ip4Octets
  omega

theorem ip4Counted_succ (k : ℕ) :
    ip4Counted addr plen k + 1#32 <<< ((32 - plen) / 8 * 8) = ip4Counted addr plen (k + 1) := by
  apply BitVec.eq_of_toNat_eq
  simp only [ip4Counted, (ip4Octets_le hpos hle).2.2, BitVec.toNat_add, BitVec.toNat_ofNat,
    BitVec.toNat_shiftLeft, Nat.shiftLeft_eq, Nat.mod_add_mod, Nat.add_mod_mod,
    Nat.add_mul k 1, Nat.add_assoc]

theorem ip4Counted_inside_iff {k : ℕ} (hk : k ≤ 2 ^ (8 * ip4Octets plen - plen)) :
    prefixOf 32 plen (ip4Counted addr plen k).toNat = prefixOf 32 plen addr.toNat ↔
      k < 2 ^ (8 * ip4Octets plen - plen) := by
  obtain ⟨hn, hp, -⟩ := ip4Octets_le hpos hle
  rw [ip4Counted, BitVec.toNat_ofNat]
  rcases Nat.lt_or_eq_of_le hk with hlt | rfl
  · refine iff_of_true ?_ hlt
    rw [Nat.mod_eq_of_lt (@prefix_add 8 4 _ _ _ hn hp addr.isLt k hlt).1]
    exact congrArg (· * _) (@prefix_add_div 8 4 _ _ _ hn hp addr.isLt k hlt)
  · refine iff_of_false (fun h => ?_) (lt_irrefl _)
    have hstep : 2 ^ (8 * ip4Octets plen - plen) * 2 ^ (8 * (4 - ip4Octets plen)) =
        2 ^ (32 - plen) := by
      rw [← Nat.pow_add]
      congr 1
      omega
    have hpow : 2 ^ 32 = 2 ^ plen * 2 ^ (32 - plen) := by
      rw [← Nat.pow_add, Nat.add_sub_cancel' hle]
    have hbits : 2 ≤ 2 ^ plen := Nat.le_self_pow hpos.ne' 2
    have hquot : addr.toNat / 2 ^ (32 - plen) < 2 ^ plen := by
      rw [Nat.div_lt_iff_lt_mul (Nat.two_pow_pos _), ← hpow]
      exact addr.isLt
    unfold prefixOf at h
    rw [hstep, ← Nat.succ_mul, hpow, Nat.mul_mod_mul_right,
      Nat.mul_div_cancel _ (Nat.two_pow_pos _)] at h
    have hnext := Nat.eq_of_mul_eq_mul_right (Nat.two_pow_pos _) h
    rcases Nat.lt_or_eq_of_le (Nat.succ_le_of_lt hquot) with hlt | heq
    · rw [Nat.mod_eq_of_lt hlt] at hnext
      omega
    · rw [heq, Nat.mod_self] at hnext
      omega

theorem ip4DomainsLoop_eq {left k fuel : ℕ} (hleft : k + left = 2 ^ (8 * ip4Octets plen - plen))
    (hfuel : left < fuel) (domains : List Bytes) :
    ip4DomainsLoop (ip4Octets plen) (addr &&& BitVec.allOnes 32 <<< (32 - plen))
        (BitVec.allOnes 32 <<< (32 - plen)) (1#32 <<< ((32 - plen) / 8 * 8)) fuel domains
        (ip4Counted addr plen k) =
      some (domains ++ (List.range' k left).map fun k =>
        ip4Domain (ip4Octets plen) (ip4Counted addr plen k)) := by
  have htest := @ip4Counted_inside_iff addr plen hpos hle k (by omega)
  rw [← and_ip4Mask hle, ← and_ip4Mask hle, BitVec.toNat_inj] at htest
  induction left generalizing k fuel domains with
  | zero =>
    obtain ⟨fuel, rfl⟩ := Nat.exists_eq_succ_of_ne_zero (Nat.ne_zero_of_lt hfuel)
    rw [ip4DomainsLoop, if_neg (by rw [htest]; omega), range'_zero, map_nil,
      append_nil]
  | succ left ih =>
    obtain ⟨fuel, rfl⟩ := Nat.exists_eq_succ_of_ne_zero (Nat.ne_zero_of_lt hfuel)
    have hnext := @ip4Counted_inside_iff addr plen hpos hle (k + 1) (by omega)
    rw [← and_ip4Mask hle, ← and_ip4Mask hle, BitVec.toNat_inj] at hnext
    rw [ip4DomainsLoop, if_pos (by rw [htest]; omega), ip4Counted_succ hpos hle,
      ih (by omega) (by omega) _ hnext, range'_succ, map_cons, append_assoc]
    rfl

theorem getReverseDnsDomainsIp4_eq {fuel : ℕ} (hfuel : 128 < fuel) (domains : List Bytes) :
    getReverseDnsDomainsIp4 fuel addr plen domains =
      some (domains ++ (prefixDigits 8 4 (ip4Octets plen) (prefixOf 32 plen addr.toNat)
        (2 ^ (8 * ip4Octets plen - plen))).map
          (digitName formatUnsigned (ascii "in-addr.arpa"))) := by
  obtain ⟨hn, hp, -⟩ := ip4Octets_le hpos hle
  have hcount : 2 ^ (8 * ip4Octets plen - plen) ≤ 2 ^ 7 := by
    refine Nat.pow_le_pow_right (by decide) ?_
    unfold ip4Octets
    omega
  have hfirst : addr &&& BitVec.allOnes 32 <<< (32 - plen) = ip4Counted addr plen 0 := by
    apply BitVec.eq_of_toNat_eq
    rw [and_ip4Mask hle, ip4Counted, Nat.zero_mul, Nat.add_zero, BitVec.toNat_ofNat]
    exact (Nat.mod_eq_of_lt ((prefixOf_le 32 plen _).trans_lt addr.isLt)).symm
  have hloop := @ip4DomainsLoop_eq addr plen hpos hle _ 0 fuel (Nat.zero_add _) (by omega) domains
  rw [← hfirst, ← range_eq_range'] at hloop
  rw [getReverseDnsDomainsIp4, if_neg (by omega)]
  refine hloop.trans (congrArg (fun zones => some (domains ++ zones)) ?_)
  rw [prefixDigits, map_map]
  refine map_congr_left fun k hk => ?_
  have hlt := (@prefix_add 8 4 _ _ _ hn hp addr.isLt k (mem_range.mp hk)).1
  rw [ip4Domain_eq, ip4Counted, BitVec.toNat_ofNat, Nat.mod_eq_of_lt hlt]
  rfl

end

end Ip4

theorem ushiftRight_eq_iff {w : ℕ} {a b : BitVec w} (n : ℕ) :
    a.toNat / 2 ^ n = b.toNat / 2 ^ n ↔ a >>> n = b >>> n := by
  rw [← BitVec.toNat_inj, BitVec.toNat_ushiftRight, BitVec.toNat_ushiftRight,
    Nat.shiftRight_eq_div_pow, Nat.shiftRight_eq_div_pow]

/-! ## IPv6 -/

theorem s6Addr_toNat (ip : BitVec 128) (i : ℕ) :
    (s6Addr ip i).toNat = ip.toNat / 2 ^ (120 - 8 * i) % 256 := by
  rw [s6Addr, BitVec.toNat_setWidth, BitVec.toNat_ushiftRight, Nat.shiftRight_eq_div_pow]

theorem ip6Nibble_eq {a : ℕ → BitVec 8} {x j : ℕ} (hj : j < 32)
    (h : (a (j / 2)).toNat = x / 2 ^ (120 - 8 * (j / 2)) % 256) :
    ip6Nibble a j = digitAt 4 32 x j := by
  rw [ip6Nibble, digitAt, BitVec.toNat_ushiftRight, Nat.shiftRight_eq_div_pow, h, nShift]
  split_ifs with hodd
  · rw [show 4 * (32 - (j + 1)) = 120 - 8 * (j / 2) by omega]
    omega
  · rw [show 4 * (32 - (j + 1)) = 120 - 8 * (j / 2) + 4 by omega, Nat.pow_add,
      ← Nat.div_div_eq_div_mul]
    omega

theorem length_ip6Label (hd : d < 2 ^ 4) : (digitsText 16 d ++ ascii ".").length ≤ 2 :=
  length_digitsText_le (by decide) (by decide) (hd.trans_eq (by decide))

theorem ip6Domain_eq {nibbles x : ℕ} {a : ℕ → BitVec 8}
    (h : ∀ j < nibbles, ip6Nibble a j = digitAt 4 32 x j) : ip6Domain nibbles a =
      digitName (digitsText 16) (ascii "ip6.arpa") (firstDigits 4 32 nibbles x) :=
  reverseDnsDomain_eq h (fun _ => length_ip6Label) (Nat.lt_succ_self _)

theorem ip6ReverseName_eq (ip : BitVec 128) : ip6ReverseName ip =
    digitName (digitsText 16) (ascii "ip6.arpa") (firstDigits 4 32 32 ip.toNat) :=
  digitName_eq fun _ hj => ip6Nibble_eq hj (s6Addr_toNat ip _)

def ip6Counted (a : ℕ → BitVec 8) (nibbles k : ℕ) : ℕ → BitVec 8 :=
  Function.update a ((nibbles - 1) / 2)
    (a ((nibbles - 1) / 2) + BitVec.ofNat 8 (k * 2 ^ nShift (nibbles - 1)))

theorem ip6DomainsLoop_eq (a : ℕ → BitVec 8) (nibbles left k : ℕ) (domains : List Bytes) :
    ip6DomainsLoop nibbles left domains (ip6Counted a nibbles k) =
      domains ++ (List.range' k left).map fun k => ip6Domain nibbles (ip6Counted a nibbles k) := by
  induction left generalizing k domains with
  | zero => simp [ip6DomainsLoop]
  | succ left ih =>
    have hnext : Function.update (ip6Counted a nibbles k) ((nibbles - 1) / 2)
        (ip6Counted a nibbles k ((nibbles - 1) / 2) + 1#8 <<< nShift (nibbles - 1)) =
          ip6Counted a nibbles (k + 1) := by
      rw [ip6Counted, Function.update_idem, Function.update_self, ip6Counted, BitVec.add_assoc]
      congr 2
      apply BitVec.eq_of_toNat_eq
      simp only [BitVec.toNat_add, BitVec.toNat_ofNat, BitVec.toNat_shiftLeft, Nat.shiftLeft_eq,
        Nat.mod_add_mod, Nat.add_mod_mod, Nat.add_mul k 1]
    rw [ip6DomainsLoop, hnext, ih, range'_succ, map_cons, append_assoc]
    rfl

section Ip6

variable {ip : BitVec 128} {plen : ℕ}

theorem ip6Nibbles_le (hpos : 0 < plen) (hle : plen ≤ 128) :
    ip6Nibbles plen ≤ 32 ∧ plen ≤ 4 * ip6Nibbles plen ∧ 0 < ip6Nibbles plen ∧
      4 * (ip6Nibbles plen - 1) < plen := by
  unfold ip6Nibbles
  omega

theorem ip6Counted_toNat (hpos : 0 < plen) (hle : plen ≤ 128) {k i : ℕ}
    (hk : k < 2 ^ (4 * ip6Nibbles plen - plen)) (hi : i ≤ (ip6Nibbles plen - 1) / 2) :
    (ip6Counted (s6Addr (ip6AddrClearHostAddress ip plen)) (ip6Nibbles plen) k i).toNat =
      (prefixOf 128 plen ip.toNat + k * 2 ^ (4 * (32 - ip6Nibbles plen))) / 2 ^ (120 - 8 * i) %
        256 := by
  obtain ⟨hn, hp, hfirst, hlast⟩ := ip6Nibbles_le hpos hle
  rcases Nat.lt_or_eq_of_le hi with hlt | rfl
  · have hquot := (@prefix_add_div 4 32 _ _ _ hn hp ip.isLt k hk).trans
      (@prefix_add_div 4 32 _ _ _ hn hp ip.isLt 0 (Nat.two_pow_pos _)).symm
    rw [Nat.zero_mul, Nat.add_zero] at hquot
    rw [ip6Counted, Function.update_of_ne hlt.ne, s6Addr_toNat, toNat_ip6AddrClearHostAddress,
      show 120 - 8 * i = 4 * 32 - plen + (plen - 8 * (i + 1)) by omega, Nat.pow_add,
      ← Nat.div_div_eq_div_mul, ← Nat.div_div_eq_div_mul, ← hquot]
  · have hshift : 4 * (32 - ip6Nibbles plen) =
        nShift (ip6Nibbles plen - 1) + (120 - 8 * ((ip6Nibbles plen - 1) / 2)) := by
      unfold nShift
      split_ifs <;> omega
    rw [ip6Counted, Function.update_self, BitVec.toNat_add, s6Addr_toNat,
      toNat_ip6AddrClearHostAddress, BitVec.toNat_ofNat, hshift, Nat.pow_add, ← Nat.mul_assoc,
      Nat.add_mul_div_right _ _ (Nat.two_pow_pos _), Nat.mod_add_mod, Nat.add_mod_mod]

theorem getReverseDnsDomainsIp6_eq (hpos : 0 < plen) (hle : plen ≤ 128) (domains : List Bytes) :
    getReverseDnsDomainsIp6 ip plen domains =
      domains ++ (prefixDigits 4 32 (ip6Nibbles plen) (prefixOf 128 plen ip.toNat)
        (2 ^ (4 * ip6Nibbles plen - plen))).map (digitName (digitsText 16) (ascii "ip6.arpa")) := by
  have hn := (ip6Nibbles_le hpos hle).1
  have hentries : 4 - (plen - (plen - 1) / 4 * 4) = 4 * ip6Nibbles plen - plen := by
    unfold ip6Nibbles
    omega
  have hfirst : ∀ a, ip6Counted a (ip6Nibbles plen) 0 = a := fun a => by
    rw [ip6Counted, Nat.zero_mul, BitVec.add_zero, Function.update_eq_self]
  have hloop := ip6DomainsLoop_eq (s6Addr (ip6AddrClearHostAddress ip plen)) (ip6Nibbles plen)
    (2 ^ (4 * ip6Nibbles plen - plen)) 0 domains
  rw [hfirst, ← range_eq_range'] at hloop
  rw [getReverseDnsDomainsIp6, if_neg (by omega)]
  simp only [hentries]
  refine hloop.trans (congrArg (domains ++ ·) ?_)
  rw [prefixDigits, map_map]
  refine map_congr_left fun k hk => ip6Domain_eq fun j hj => ip6Nibble_eq (by omega) ?_
  exact ip6Counted_toNat hpos hle (mem_range.mp hk) (by omega)

end Ip6

/-! ## The domains cover the prefix -/

/-- The domains for a prefix are apart, exactly the addresses of the prefix are below one of them,
and none of them is longer than its buffer. -/
theorem getReverseDnsDomains_cover :
    (∀ (addr : BitVec 32) (plen : ℕ) (domains : List Bytes), 0 < plen → plen ≤ 32 →
      ∃ zones, (∀ fuel > 128, getReverseDnsDomainsIp4 fuel addr plen domains =
          some (domains ++ zones)) ∧
        CoversNames zones ip4ReverseName (fun ip => ip >>> (32 - plen) = addr >>> (32 - plen)) ∧
        ∀ zone ∈ zones, zone.length + 1 ≤ ip4DomainLen (ip4Octets plen)) ∧
      ∀ (addr : BitVec 128) (plen : ℕ) (domains : List Bytes), 0 < plen → plen ≤ 128 →
        ∃ zones, getReverseDnsDomainsIp6 addr plen domains = domains ++ zones ∧
          CoversNames zones ip6ReverseName
            (fun ip => ip >>> (128 - plen) = addr >>> (128 - plen)) ∧
          ∀ zone ∈ zones, zone.length + 1 ≤ ip6DomainLen (ip6Nibbles plen) := by
  refine ⟨fun addr plen domains hpos hle => ?_, fun addr plen domains hpos hle => ?_⟩
  · obtain ⟨hn, hp, -⟩ := ip4Octets_le hpos hle
    obtain ⟨hinj, hdot⟩ := digitsText_label (by decide : 1 < 10) (by decide)
    refine ⟨_, fun fuel hfuel => getReverseDnsDomainsIp4_eq hpos hle hfuel domains, ?_, ?_⟩
    · have hcovers := @coversNames_prefixDigits formatUnsigned (ascii "in-addr.arpa") _
        BitVec.toNat 8 4 _ _ _ hinj hdot hn hp addr.isLt BitVec.isLt
      simp only [ushiftRight_eq_iff] at hcovers
      rwa [funext ip4ReverseName_eq]
    · intro zone hzone
      obtain ⟨digits, hdigits, rfl⟩ := mem_map.mp hzone
      obtain ⟨k, -, rfl⟩ := mem_map.mp hdigits
      exact Nat.succ_le_succ (length_digitName_le fun _ => length_ip4Label)
  · obtain ⟨hn, hp, -, -⟩ := ip6Nibbles_le hpos hle
    obtain ⟨hinj, hdot⟩ := digitsText_label (by decide : 1 < 16) (by decide)
    refine ⟨_, getReverseDnsDomainsIp6_eq hpos hle domains, ?_, ?_⟩
    · have hcovers := @coversNames_prefixDigits (digitsText 16) (ascii "ip6.arpa") _
        BitVec.toNat 4 32 _ _ _ hinj hdot hn hp addr.isLt BitVec.isLt
      simp only [ushiftRight_eq_iff] at hcovers
      rwa [funext ip6ReverseName_eq]
    · intro zone hzone
      obtain ⟨digits, hdigits, rfl⟩ := mem_map.mp hzone
      obtain ⟨k, -, rfl⟩ := mem_map.mp hdigits
      exact Nat.succ_le_succ (length_digitName_le fun _ => length_ip6Label)

theorem getReverseDnsDomains_cover_top :
    ∃ zones, (∀ fuel > 128, getReverseDnsDomainsIp4 fuel 0xfffffe00#32 23 [] =
        some ([] ++ zones)) ∧
      CoversNames zones ip4ReverseName (fun ip => ip >>> (32 - 23) = 0xfffffe00#32 >>> (32 - 23)) ∧
      ∀ zone ∈ zones, zone.length + 1 ≤ ip4DomainLen (ip4Octets 23) :=
  getReverseDnsDomains_cover.1 0xfffffe00#32 23 [] (by decide) (by decide)

end NetworkManager.Core
