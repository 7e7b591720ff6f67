import NetworkManager.Lib.Keyed
import NetworkManager.Lib.Runs
import Mathlib.Data.List.Perm.Basic
import Mathlib.Algebra.Order.Ring.Int

/-!
# Shared IPv4 addresses of a network namespace

`NMNetns` hands out the addresses `10.42.x.1`, the lowest one that is unused. When all are used, the
last one is handed out again, and its handle counts the references.
-/

namespace NetworkManager.Core

open Lib
open List hiding lookup_isSome_iff

/-- `htonl()` and `ntohl()` on a little-endian host. -/
def htonl (x : UInt32) : UInt32 :=
  x <<< 24 ||| (x &&& (0xff00 : UInt32)) <<< 8 ||| (x >>> 8 &&& (0xff00 : UInt32)) ||| x >>> 24

/-- `NMNetnsSharedIPHandle`, with the memory that it is in. -/
structure NMNetnsSharedIPHandle where
  ptr : ℕ
  addr : UInt32
  refCount : ℕ
  deriving DecidableEq

/-- A handle that was returned and not yet released. What the others had reserved by then is only a
record. -/
structure SharedIpReservation where
  ptr : ℕ
  addr : UInt32
  others : List UInt32
  deriving DecidableEq

/-- `shared_ips` of `NMNetnsPrivate`, and the reservations that the callers hold. -/
structure NetnsSharedIp where
  sharedIps : Option (List NMNetnsSharedIPHandle)
  nextPtr : ℕ
  live : List SharedIpReservation
  crashed : Bool

namespace NetnsSharedIp

def address (count : ℕ) : UInt32 := htonl 0x0a2a0001 + htonl (UInt32.ofNat count <<< 8)

/-- What the loop of `nm_netns_shared_ip_reserve()` finds. -/
inductive Found
  | unused (addr : UInt32)
  | shared (handle : NMNetnsSharedIPHandle)

/-- The loop of `nm_netns_shared_ip_reserve()`. -/
def findUnused (table : List NMNetnsSharedIPHandle) (count : ℕ) : Found :=
  match lookup (·.addr) (address count) table with
  | none => .unused (address count)
  | some handle => if 0xff < count + 1 then .shared handle else findUnused table (count + 1)
termination_by 0x100 - count

def hold (s : NetnsSharedIp) (ptr : ℕ) (addr : UInt32) : NetnsSharedIp :=
  let reservation : SharedIpReservation := ⟨ptr, addr, s.live.map (·.addr)⟩
  { s with live := s.live ++ [reservation] }

def addHandle (s : NetnsSharedIp) (table : List NMNetnsSharedIPHandle) (addr : UInt32) : NetnsSharedIp :=
  let handle : NMNetnsSharedIPHandle := ⟨s.nextPtr, addr, 1⟩
  { s with sharedIps := some (table ++ [handle]), nextPtr := s.nextPtr + 1 }.hold handle.ptr addr

def reserve (s : NetnsSharedIp) : NetnsSharedIp :=
  match s.sharedIps with
  | none => s.addHandle [] (address 0)
  | some table =>
    match findUnused table 0 with
    | .unused addr => s.addHandle table addr
    | .shared handle =>
      { s with
        sharedIps := some (modifyKey (·.addr) handle.addr
          (fun handle => { handle with refCount := handle.refCount + 1 }) table) }.hold
        handle.ptr handle.addr

/-- `nm_netns_shared_ip_release()`. A handle that is not in the table was freed. -/
def release (s : NetnsSharedIp) (ptr : ℕ) : NetnsSharedIp :=
  let table := s.sharedIps.getD []
  match table.find? (·.ptr = ptr) with
  | none => { s with crashed := true }
  | some handle =>
    if 1 < handle.refCount then
      { s with
        sharedIps := s.sharedIps.map (modifyKey (·.addr) handle.addr
          fun handle => { handle with refCount := handle.refCount - 1 }) }
    else
      let table := eraseKey (·.addr) handle.addr table
      { s with sharedIps := if table = [] then none else some table }

def start : NetnsSharedIp := ⟨none, 0, [], false⟩

end NetnsSharedIp

inductive SharedIpEvent
  | reserve
  /-- The holder of a reservation, by its place, releases it. -/
  | release (index : ℕ)
  deriving DecidableEq

namespace NetnsSharedIp

def step (s : NetnsSharedIp) : SharedIpEvent → NetnsSharedIp
  | .reserve => s.reserve
  | .release index =>
    match s.live[index]? with
    | some reservation => { s with live := s.live.eraseIdx index }.release reservation.ptr
    | none => s

def run (events : List SharedIpEvent) : NetnsSharedIp := events.foldl step start

end NetnsSharedIp

/-!
## Shared IPv4 addresses are exclusive

Only `10.42.255.1` is handed out more than once, and only while all others are reserved. The table has
the addresses that are reserved, with the number of their reservations.
-/

namespace NetnsSharedIp

def table (s : NetnsSharedIp) : List NMNetnsSharedIPHandle := s.sharedIps.getD []

def Reserved (s : NetnsSharedIp) (addr : UInt32) : Prop := ∃ r ∈ s.live, r.addr = addr

theorem address_toNat : ∀ count < 0x100, (address count).toNat = 10 + 42 * 2 ^ 8 + count * 2 ^ 16 + 2 ^ 24 := by
  decide +kernel

variable {count : ℕ} {addr : UInt32} {handle : NMNetnsSharedIPHandle}

section Found

variable {table : List NMNetnsSharedIPHandle}

theorem findUnused_unused (h : findUnused table count = .unused addr) (hcount : count ≤ 0xff) :
    ∃ n ≤ 0xff, addr = address n ∧ lookup (·.addr) (address n) table = none ∧
      ∀ m, count ≤ m → m < n → (lookup (·.addr) (address m) table).isSome := by
  fun_induction findUnused table count with
  | case1 count hnone =>
    obtain rfl := Found.unused.inj h
    exact ⟨count, hcount, rfl, hnone, fun m hle hlt => by omega⟩
  | case2 => cases h
  | case3 count handle hsome hlast ih =>
    obtain ⟨n, hn, haddr, hnone, hlower⟩ := ih h (by omega)
    refine ⟨n, hn, haddr, hnone, fun m hle hlt => ?_⟩
    rcases Nat.eq_or_lt_of_le hle with rfl | hlt'
    · rw [hsome]
      rfl
    · exact hlower m hlt' hlt

theorem findUnused_shared (h : findUnused table count = .shared handle) (hcount : count ≤ 0xff) :
    lookup (·.addr) (address 0xff) table = some handle ∧
      ∀ m, count ≤ m → m ≤ 0xff → (lookup (·.addr) (address m) table).isSome := by
  fun_induction findUnused table count with
  | case1 => cases h
  | case2 count handle' hsome hlast =>
    obtain rfl := Found.shared.inj h
    obtain rfl : count = 0xff := by omega
    refine ⟨hsome, fun m hle hle' => ?_⟩
    obtain rfl : m = 0xff := by omega
    rw [hsome]
    rfl
  | case3 count handle' hsome hlast ih =>
    obtain ⟨hlookup, hall⟩ := ih h (by omega)
    refine ⟨hlookup, fun m hle hle' => ?_⟩
    rcases Nat.eq_or_lt_of_le hle with rfl | hlt
    · rw [hsome]
      rfl
    · exact hall m hlt hle'

end Found

/-- The invariant: the handles are those of the reservations. -/
structure Inv (s : NetnsSharedIp) : Prop where
  addrs : KeyUnique (·.addr) s.table
  ptrs : KeyUnique (·.ptr) s.table
  fresh : ∀ handle ∈ s.table, handle.ptr < s.nextPtr
  held : ∀ r ∈ s.live, ∃ handle ∈ s.table, handle.ptr = r.ptr ∧ handle.addr = r.addr
  counted : ∀ handle ∈ s.table, handle.refCount = s.live.countP (·.addr = handle.addr)
  positive : ∀ handle ∈ s.table, 0 < handle.refCount
  inRange : ∀ handle ∈ s.table, ∃ count ≤ 0xff, handle.addr = address count
  nonempty : s.sharedIps ≠ some []
  exclusive : s.live.Pairwise fun earlier later => earlier.addr = later.addr →
    later.addr = address 0xff ∧ ∀ count ≤ 0xff, address count ∈ later.others
  notCrashed : s.crashed = false

namespace Inv

variable {s : NetnsSharedIp} {live : List SharedIpReservation}

section

variable (h : s.Inv)

include h

theorem reserved_iff : s.Reserved addr ↔ (lookup (·.addr) addr s.table).isSome := by
  rw [lookup_isSome_iff]
  constructor
  · rintro ⟨r, hr, rfl⟩
    obtain ⟨handle, hhandle, -, haddr⟩ := h.held r hr
    exact ⟨handle, hhandle, haddr⟩
  · rintro ⟨handle, hhandle, rfl⟩
    have hpos := h.positive handle hhandle
    rw [h.counted handle hhandle, countP_pos_iff] at hpos
    obtain ⟨r, hr, haddr⟩ := hpos
    exact ⟨r, hr, by simpa using haddr⟩

/-- A new handle. -/
theorem addHandle (hcount : count ≤ 0xff) (hnone : lookup (·.addr) (address count) s.table = none) :
    (s.addHandle s.table (address count)).Inv := by
  have htable : (s.addHandle s.table (address count)).table =
      s.table ++ [⟨s.nextPtr, address count, 1⟩] := rfl
  have hunused := lookup_eq_none_iff.mp hnone
  have hfree : ∀ r ∈ s.live, r.addr ≠ address count := by
    intro r hr haddr
    obtain ⟨handle, hhandle, -, hsame⟩ := h.held r hr
    exact hunused handle hhandle (hsame.trans haddr)
  have hmem {handle : NMNetnsSharedIPHandle}
      (hhandle : handle ∈ (s.addHandle s.table (address count)).table) :
      handle ∈ s.table ∨ handle = ⟨s.nextPtr, address count, 1⟩ := by
    rw [htable] at hhandle
    simpa using hhandle
  constructor
  · exact h.addrs.append_singleton hunused
  · apply h.ptrs.append_singleton
    intro handle hhandle
    exact Nat.ne_of_lt (h.fresh handle hhandle)
  · intro handle hhandle
    rcases hmem hhandle with hhandle | rfl
    · exact Nat.lt_succ_of_lt (h.fresh handle hhandle)
    · exact Nat.lt_succ_self _
  · intro r hr
    rcases mem_append.mp hr with hr | hr
    · obtain ⟨handle, hhandle, hsame⟩ := h.held r hr
      exact ⟨handle, mem_append_left _ hhandle, hsame⟩
    · obtain rfl := mem_singleton.mp hr
      exact ⟨_, mem_append_right _ (mem_singleton_self _), rfl, rfl⟩
  · intro handle hhandle
    change _ = (s.live ++ [_]).countP _
    rw [countP_append]
    rcases hmem hhandle with hhandle | rfl
    · have hne := hunused handle hhandle
      rw [h.counted handle hhandle]
      simp [Ne.symm hne]
    · have hzero : s.live.countP (·.addr = address count) = 0 := by
        rw [countP_eq_zero]
        intro r hr
        simpa using hfree r hr
      simp [hzero]
  · intro handle hhandle
    rcases hmem hhandle with hhandle | rfl
    · exact h.positive handle hhandle
    · exact Nat.one_pos
  · intro handle hhandle
    rcases hmem hhandle with hhandle | rfl
    · exact h.inRange handle hhandle
    · exact ⟨count, hcount, rfl⟩
  · intro hnil
    have hnil := Option.some.inj hnil
    simp at hnil
  · refine pairwise_append.mpr ⟨h.exclusive, pairwise_singleton _ _, ?_⟩
    intro earlier hearlier later hlater hsame
    obtain rfl := mem_singleton.mp hlater
    exact absurd hsame (hfree earlier hearlier)
  · exact h.notCrashed

/-- The references of one address are counted anew. -/
theorem recount {f : NMNetnsSharedIPHandle → NMNetnsSharedIPHandle} (hne : s.table ≠ [])
    (hf : ∀ handle, (f handle).ptr = handle.ptr ∧ (f handle).addr = handle.addr)
    (hheld : ∀ r ∈ live, ∃ handle ∈ s.table, handle.ptr = r.ptr ∧ handle.addr = r.addr)
    (hcounted : ∀ handle ∈ s.table, handle.addr = addr → (f handle).refCount = live.countP (·.addr = addr) ∧ 0 < (f handle).refCount)
    (hothers : ∀ addr', addr' ≠ addr → live.countP (·.addr = addr') = s.live.countP (·.addr = addr'))
    (hexclusive : live.Pairwise fun earlier later => earlier.addr = later.addr → later.addr = address 0xff ∧ ∀ count ≤ 0xff, address count ∈ later.others) :
    Inv { s with sharedIps := some (modifyKey (·.addr) addr f s.table), live := live } := by
  have hmem {handle : NMNetnsSharedIPHandle} (hhandle : handle ∈ modifyKey (·.addr) addr f s.table) :
      ∃ old ∈ s.table, handle.ptr = old.ptr ∧ handle.addr = old.addr ∧
        handle.refCount = live.countP (·.addr = handle.addr) ∧ 0 < handle.refCount := by
    rcases mem_modifyKey hhandle with ⟨hold, hother⟩ | ⟨old, hold, haddr, rfl⟩
    · have hsame := hothers handle.addr hother
      exact ⟨handle, hold, rfl, rfl, hsame ▸ h.counted handle hold, h.positive handle hold⟩
    · obtain ⟨hcount, hpos⟩ := hcounted old hold haddr
      have haddr' : (f old).addr = addr := (hf old).2.trans haddr
      exact ⟨old, hold, (hf old).1, (hf old).2, haddr'.symm ▸ hcount, hpos⟩
  have hptrs : (modifyKey (·.addr) addr f s.table).map (·.ptr) = s.table.map (·.ptr) := by
    rw [modifyKey, map_map]
    apply map_congr_left
    intro handle _
    by_cases haddr : handle.addr = addr
    · simp [haddr, (hf handle).1]
    · simp [haddr]
  constructor
  · exact h.addrs.modifyKey fun handle => (hf handle).2
  · change ((modifyKey (·.addr) addr f s.table).map (·.ptr)).Nodup
    rw [hptrs]
    exact h.ptrs
  · intro handle hhandle
    obtain ⟨old, hold, hptr, -⟩ := hmem hhandle
    rw [hptr]
    exact h.fresh old hold
  · intro r hr
    obtain ⟨handle, hhandle, hptr, haddr⟩ := hheld r hr
    refine ⟨_, mem_map_of_mem hhandle, ?_⟩
    split_ifs
    · exact ⟨(hf handle).1.trans hptr, (hf handle).2.trans haddr⟩
    · exact ⟨hptr, haddr⟩
  · intro handle hhandle
    obtain ⟨old, -, -, -, hcount, -⟩ := hmem hhandle
    exact hcount
  · intro handle hhandle
    obtain ⟨old, -, -, -, -, hpos⟩ := hmem hhandle
    exact hpos
  · intro handle hhandle
    obtain ⟨old, hold, -, haddr, -⟩ := hmem hhandle
    rw [haddr]
    exact h.inRange old hold
  · intro hnil
    exact hne (map_eq_nil_iff.mp (Option.some.inj hnil))
  · exact hexclusive
  · exact h.notCrashed

theorem shareHandle (hlookup : lookup (·.addr) (address 0xff) s.table = some handle)
    (hall : ∀ count ≤ 0xff, (lookup (·.addr) (address count) s.table).isSome) :
    (hold { s with sharedIps := some (modifyKey (·.addr) handle.addr
      (fun handle => { handle with refCount := handle.refCount + 1 }) s.table) }
      handle.ptr handle.addr).Inv := by
  have haddr : handle.addr = address 0xff := key_of_lookup hlookup
  have hmem : handle ∈ s.table := mem_of_lookup hlookup
  refine h.recount (ne_nil_of_mem hmem) ?_ ?_ ?_ ?_ ?_
  · exact fun _ => ⟨rfl, rfl⟩
  · intro r hr
    rcases mem_append.mp hr with hr | hr
    · exact h.held r hr
    · obtain rfl := mem_singleton.mp hr
      exact ⟨handle, hmem, rfl, rfl⟩
  · intro other hother hsame
    have hcount := h.counted other hother
    refine ⟨?_, Nat.succ_pos _⟩
    rw [hsame] at hcount
    simp [countP_append, hcount]
  · intro addr' hne
    simp [countP_append, Ne.symm hne]
  · refine pairwise_append.mpr ⟨h.exclusive, pairwise_singleton _ _, ?_⟩
    intro earlier _ later hlater _
    obtain rfl := mem_singleton.mp hlater
    refine ⟨haddr, fun count hcount => ?_⟩
    obtain ⟨r, hr, hsame⟩ := h.reserved_iff.mpr (hall count hcount)
    exact hsame ▸ mem_map_of_mem hr

theorem removeHandle {sharedIps : Option (List NMNetnsSharedIPHandle)}
    (hheld : ∀ r ∈ live, ∃ handle ∈ s.table, handle.ptr = r.ptr ∧ handle.addr = r.addr)
    (hcount : ∀ addr, s.live.countP (·.addr = addr) = live.countP (·.addr = addr) + if handle.addr = addr then 1 else 0)
    (hlast : live.countP (·.addr = handle.addr) = 0)
    (hexclusive : live.Pairwise fun earlier later => earlier.addr = later.addr → later.addr = address 0xff ∧ ∀ count ≤ 0xff, address count ∈ later.others)
    (htable : sharedIps.getD [] = eraseKey (·.addr) handle.addr s.table) (hne : sharedIps ≠ some []) :
    Inv { s with sharedIps := sharedIps, live := live } := by
  have hsub : (eraseKey (·.addr) handle.addr s.table).Sublist s.table := filter_sublist
  have hmem {other : NMNetnsSharedIPHandle} (hother : other ∈ sharedIps.getD []) :
      other ∈ s.table ∧ other.addr ≠ handle.addr := mem_eraseKey.mp (htable ▸ hother)
  constructor
  · change KeyUnique (·.addr) (sharedIps.getD [])
    rw [htable]
    exact h.addrs.sublist hsub
  · change KeyUnique (·.ptr) (sharedIps.getD [])
    rw [htable]
    exact h.ptrs.sublist hsub
  · exact fun other hother => h.fresh other (hmem hother).1
  · intro r hr
    obtain ⟨other, hother, hptr, haddr⟩ := hheld r hr
    refine ⟨other, ?_, hptr, haddr⟩
    change other ∈ sharedIps.getD []
    rw [htable, mem_eraseKey]
    refine ⟨hother, fun hsame => ?_⟩
    have hnone := countP_eq_zero.mp hlast r hr
    simp [← haddr, hsame] at hnone
  · intro other hother
    obtain ⟨hold, hdiffers⟩ := hmem hother
    have hrefs := h.counted other hold
    rw [hcount, if_neg (Ne.symm hdiffers), Nat.add_zero] at hrefs
    exact hrefs
  · exact fun other hother => h.positive other (hmem hother).1
  · exact fun other hother => h.inRange other (hmem hother).1
  · exact hne
  · exact hexclusive
  · exact h.notCrashed

theorem reserve : s.reserve.Inv := by
  unfold NetnsSharedIp.reserve
  cases htable : s.sharedIps with
  | none =>
    have hnil : s.table = [] := by simp [table, htable]
    have hadd : (s.addHandle s.table (address 0)).Inv := h.addHandle (by omega) (by rw [hnil]; rfl)
    rw [hnil] at hadd
    exact hadd
  | some table =>
    have hsame : s.table = table := by simp [NetnsSharedIp.table, htable]
    subst hsame
    dsimp only
    split
    · rename_i addr hunused
      obtain ⟨n, hn, rfl, hnone, -⟩ := findUnused_unused hunused (by omega)
      exact h.addHandle hn hnone
    · rename_i handle hshared
      obtain ⟨hlookup, hall⟩ := findUnused_shared hshared (by omega)
      exact h.shareHandle hlookup fun count hcount => hall count (Nat.zero_le _) hcount

/-- A reservation is released. -/
theorem release {index : ℕ} {r : SharedIpReservation} (hindex : s.live[index]? = some r) :
    ({ s with live := s.live.eraseIdx index }.release r.ptr).Inv := by
  obtain ⟨hlt, rfl⟩ := List.getElem?_eq_some_iff.mp hindex
  have hmem : s.live[index] ∈ s.live := getElem_mem hlt
  obtain ⟨handle, hhandle, hptr, haddr⟩ := h.held _ hmem
  have hfind : s.table.find? (·.ptr = s.live[index].ptr) = some handle := by
    rw [← hptr]
    exact lookup_of_mem h.ptrs hhandle
  have hperm := getElem_cons_eraseIdx_perm hlt
  have hcount (addr : UInt32) : s.live.countP (·.addr = addr) =
      (s.live.eraseIdx index).countP (·.addr = addr) + if handle.addr = addr then 1 else 0 := by
    rw [← hperm.countP_eq, countP_cons, haddr]
    simp
  have hheld : ∀ r ∈ s.live.eraseIdx index, ∃ handle ∈ s.table, handle.ptr = r.ptr ∧
      handle.addr = r.addr :=
    fun r hr => h.held r ((eraseIdx_sublist _ _).subset hr)
  have hexclusive := h.exclusive.sublist (eraseIdx_sublist s.live index)
  obtain ⟨table, htable⟩ : ∃ table, s.sharedIps = some table := by
    cases hnone : s.sharedIps with
    | none => simp [NetnsSharedIp.table, hnone] at hhandle
    | some table => exact ⟨table, rfl⟩
  have hsame : s.table = table := by simp [NetnsSharedIp.table, htable]
  have hcounted := h.counted handle hhandle
  rw [hcount, if_pos rfl] at hcounted
  unfold NetnsSharedIp.release
  dsimp only
  rw [show s.sharedIps.getD [] = s.table from rfl, hfind]
  dsimp only
  split_ifs with hmany hempty
  · rw [htable, Option.map_some, ← hsame]
    refine h.recount (ne_nil_of_mem hhandle) ?_ hheld ?_ ?_ hexclusive
    · exact fun _ => ⟨rfl, rfl⟩
    · intro other hother hsameAddr
      obtain rfl := eq_of_key_eq h.addrs hother hhandle hsameAddr
      dsimp only
      omega
    · intro addr' hne
      rw [hcount, if_neg (Ne.symm hne), Nat.add_zero]
  · apply h.removeHandle hheld hcount (by omega) hexclusive
    · exact hempty.symm
    · exact fun hc => by cases hc
  · apply h.removeHandle hheld hcount (by omega) hexclusive
    · rfl
    · exact fun hc => hempty (Option.some.inj hc)

theorem step (e : SharedIpEvent) : (s.step e).Inv := by
  cases e with
  | reserve => exact h.reserve
  | release index =>
    unfold NetnsSharedIp.step
    dsimp only
    split
    · rename_i r hindex
      exact h.release hindex
    · exact h

end

end Inv

theorem start_inv : start.Inv where
  addrs := unique_nil
  ptrs := unique_nil
  fresh := by simp [start, table]
  held := by simp [start]
  counted := by simp [start, table]
  positive := by simp [start, table]
  inRange := by simp [start, table]
  nonempty := by simp [start]
  exclusive := List.Pairwise.nil
  notCrashed := rfl

/-- A reservation gets the lowest address that is free, or the last one where none is. -/
def NextReserved (s : NetnsSharedIp) : Prop :=
  ∃ r, s.reserve.live = s.live ++ [r] ∧
    ((∃ count ≤ 0xff, r.addr = address count ∧ ¬ s.Reserved (address count) ∧
        ∀ lower < count, s.Reserved (address lower)) ∨
      r.addr = address 0xff ∧ ∀ count ≤ 0xff, s.Reserved (address count))

theorem Inv.nextReserved {s : NetnsSharedIp} (h : s.Inv) : s.NextReserved := by
  unfold NextReserved NetnsSharedIp.reserve
  cases htable : s.sharedIps with
  | none =>
    have hnil : s.table = [] := by simp [table, htable]
    refine ⟨_, rfl, .inl ⟨0, by omega, rfl, ?_, fun lower hlower => by omega⟩⟩
    rw [h.reserved_iff, hnil]
    simp
  | some table =>
    have hsame : s.table = table := by simp [NetnsSharedIp.table, htable]
    subst hsame
    dsimp only
    split
    · rename_i addr hunused
      obtain ⟨n, hn, rfl, hnone, hlower⟩ := findUnused_unused hunused (by omega)
      refine ⟨_, rfl, .inl ⟨n, hn, rfl, ?_, fun lower hlt => ?_⟩⟩
      · rw [h.reserved_iff, hnone]
        simp
      · exact h.reserved_iff.mpr (hlower lower (Nat.zero_le _) hlt)
    · rename_i handle hshared
      obtain ⟨hlookup, hall⟩ := findUnused_shared hshared (by omega)
      have haddr : handle.addr = address 0xff := key_of_lookup hlookup
      refine ⟨_, rfl, .inr ⟨haddr, fun count hcount => ?_⟩⟩
      exact h.reserved_iff.mpr (hall count (Nat.zero_le _) hcount)

/-- What is promised of the reservations, in every state. -/
structure Sound (s : NetnsSharedIp) : Prop where
  /-- Two reservations share an address only where all others were reserved at the later one. -/
  exclusive : s.live.Pairwise fun earlier later => earlier.addr = later.addr →
    later.addr = address 0xff ∧ ∀ count ≤ 0xff, address count ∈ later.others
  /-- The address is `10.42.x.1`. -/
  inRange : ∀ r ∈ s.live, ∃ count ≤ 0xff, r.addr = address count ∧
    r.addr.toNat = 10 + 42 * 2 ^ 8 + count * 2 ^ 16 + 2 ^ 24
  unique : KeyUnique (·.addr) s.table
  table : ∀ addr, (∃ handle ∈ s.table, handle.addr = addr) ↔ s.Reserved addr
  counted : ∀ handle ∈ s.table, handle.refCount = s.live.countP (·.addr = handle.addr)
  next : s.NextReserved
  notCrashed : s.crashed = false

theorem Inv.sound {s : NetnsSharedIp} (h : s.Inv) : s.Sound where
  exclusive := h.exclusive
  inRange := by
    intro r hr
    obtain ⟨handle, hhandle, -, haddr⟩ := h.held r hr
    obtain ⟨count, hcount, hsame⟩ := h.inRange handle hhandle
    have hr : r.addr = address count := haddr.symm.trans hsame
    exact ⟨count, hcount, hr, hr ▸ address_toNat count (by omega)⟩
  unique := h.addrs
  table := fun addr => lookup_isSome_iff.symm.trans h.reserved_iff.symm
  counted := h.counted
  next := h.nextReserved
  notCrashed := h.notCrashed

/-- In every run, the addresses that are reserved are exclusive as long as one is free. -/
theorem shared_ips_sound (events : List SharedIpEvent) : (run events).Sound := by
  have hinv : (run events).Inv := foldl_invariant (fun _ e h => h.step e) start_inv events
  exact hinv.sound

end NetnsSharedIp
end NetworkManager.Core
