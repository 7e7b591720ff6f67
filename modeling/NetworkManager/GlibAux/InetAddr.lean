import NetworkManager.GlibAux.AsciiStrToInt64

/-!
# IPv4 addresses as strings

`inet_ntop()` prints an address as four numbers with dots between them, and `inet_pton()` reads them
back. It takes no leading zeros.
-/

namespace NetworkManager.GlibAux

open Lib

/-- A byte on the wire. -/
abbrev Octet := BitVec 8

/-- An `in_addr_t`, with its bytes in network order. -/
def inAddrOfOctets (a b c d : Octet) : BitVec 32 := a ++ b ++ c ++ d

/-- `g_strjoin()` with `"."` for four strings -/
def strjoinDot (a b c d : Bytes) : Bytes := (['.'] : Bytes).intercalate [a, b, c, d]

def inet4Ntop (addr : BitVec 32) : Bytes :=
  strjoinDot (formatUnsigned (addr.extractLsb' 24 8).toNat)
    (formatUnsigned (addr.extractLsb' 16 8).toNat) (formatUnsigned (addr.extractLsb' 8 8).toNat)
    (formatUnsigned (addr.extractLsb' 0 8).toNat)

def inetPtonOctet (part : Bytes) : Option Octet :=
  if part = [] ∨ ¬ part.all isDigit ∨ (part.head? = some ('0' : UInt8) ∧ part.tail ≠ []) ∨
      asciiDigitsValue 10 part > 255 then none
  else some (BitVec.ofNat 8 (asciiDigitsValue 10 part))

/-- `inet_pton()` for `AF_INET` -/
def inetPton (str : Bytes) : Option (BitVec 32) :=
  match str.splitOn ('.' : UInt8) with
  | [a, b, c, d] => do
    return inAddrOfOctets (← inetPtonOctet a) (← inetPtonOctet b) (← inetPtonOctet c)
      (← inetPtonOctet d)
  | _ => none

/-! ## Reading back what was written -/

theorem inetPtonOctet_formatUnsigned (b : Octet) :
    inetPtonOctet (formatUnsigned b.toNat) = some b := by
  have hread : ∀ n < 256, inetPtonOctet (formatUnsigned n) = some (BitVec.ofNat 8 n) := by
    decide +kernel
  rw [hread b.toNat b.isLt, BitVec.ofNat_toNat, BitVec.setWidth_eq]

theorem inetPton_strjoinDot (a b c d : Octet) :
    inetPton (strjoinDot (formatUnsigned a.toNat) (formatUnsigned b.toNat)
      (formatUnsigned c.toNat) (formatUnsigned d.toNat)) = some (inAddrOfOctets a b c d) := by
  have hsplit : (strjoinDot (formatUnsigned a.toNat) (formatUnsigned b.toNat)
      (formatUnsigned c.toNat) (formatUnsigned d.toNat)).splitOn ('.' : UInt8) =
      [formatUnsigned a.toNat, formatUnsigned b.toNat, formatUnsigned c.toNat,
        formatUnsigned d.toNat] := by
    apply List.splitOn_intercalate
    · intro part hpart
      simp only [List.mem_cons, List.not_mem_nil, or_false] at hpart
      rcases hpart with rfl | rfl | rfl | rfl <;> exact notMem_formatUnsigned _ rfl
    · exact List.cons_ne_nil _ _
  unfold inetPton
  rw [hsplit]
  simp [inetPtonOctet_formatUnsigned]

theorem inAddrOfOctets_extract (addr : BitVec 32) :
    inAddrOfOctets (addr.extractLsb' 24 8) (addr.extractLsb' 16 8) (addr.extractLsb' 8 8)
      (addr.extractLsb' 0 8) = addr := by
  have h₁ : addr.extractLsb' 24 8 ++ addr.extractLsb' 16 8 = addr.extractLsb' 16 16 :=
    BitVec.extractLsb'_append_extractLsb'_eq_extractLsb' rfl
  have h₂ : addr.extractLsb' 16 16 ++ addr.extractLsb' 8 8 = addr.extractLsb' 8 24 :=
    BitVec.extractLsb'_append_extractLsb'_eq_extractLsb' rfl
  have h₃ : addr.extractLsb' 8 24 ++ addr.extractLsb' 0 8 = addr.extractLsb' 0 32 :=
    BitVec.extractLsb'_append_extractLsb'_eq_extractLsb' rfl
  rw [inAddrOfOctets, h₁, h₂, h₃]
  exact BitVec.extractLsb'_eq_self

theorem inetPton_inet4Ntop (addr : BitVec 32) : inetPton (inet4Ntop addr) = some addr := by
  rw [inet4Ntop, inetPton_strjoinDot, inAddrOfOctets_extract]

theorem isDigit_or_dot_of_mem_inet4Ntop {addr : BitVec 32} {c : UInt8} (h : c ∈ inet4Ntop addr) :
    isDigit c ∨ c = '.' := by
  simp only [inet4Ntop, strjoinDot, List.intercalate, List.intersperse, List.flatten_cons,
    List.mem_append, List.mem_singleton, List.flatten_nil, List.not_mem_nil, or_false] at h
  rcases h with h | h | h | h | h | h | h
  all_goals first
    | exact .inl (isDigit_of_mem_formatUnsigned h)
    | exact .inr h

theorem notMem_inet4Ntop {addr : BitVec 32} {c : UInt8} (hdigit : isDigit c = false)
    (hdot : c ≠ '.') : c ∉ inet4Ntop addr := by
  intro h
  rcases isDigit_or_dot_of_mem_inet4Ntop h with h | h
  · exact Bool.false_ne_true (hdigit.symm.trans h)
  · exact hdot h

theorem inet4Ntop_ne_nil (addr : BitVec 32) : inet4Ntop addr ≠ [] := by
  intro h
  have hread := inetPton_inet4Ntop addr
  rw [h] at hread
  exact absurd hread nofun

end NetworkManager.GlibAux
