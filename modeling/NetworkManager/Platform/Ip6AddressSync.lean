import NetworkManager.Lib.Keyed
import NetworkManager.Lib.StableSort
import NetworkManager.Platform.AddressLifetime
import NetworkManager.Lib.Runs

/-!
# The sync of IPv6 addresses

`nm_platform_ip_address_sync()` for `AF_INET6`. The kernel lists the addresses of the
interface with the highest priority first, and gives a new address the highest priority
of its scope. An element that the source clears in an array is `none` here.
-/

namespace NetworkManager.Platform

open Lib List

structure Ip6Address where
  address : BitVec 128
  peerAddress : BitVec 128
  plen : ℕ
  lifetime : AddressLifetime
  ifaFlags : BitVec 32
  deriving DecidableEq

/-- `IFA_F_SECONDARY`, which marks temporary addresses -/
def ifaFSecondary : BitVec 32 := 0x01

def ifaFManagetempaddr : BitVec 32 := 0x100

def ifaFNoprefixroute : BitVec 32 := 0x200

inductive Ip6AddrScope
  | loopback
  | linklocal
  | sitelocal
  | other
  deriving DecidableEq

/-- The value of the enumerator. -/
def Ip6AddrScope.toNat : Ip6AddrScope → ℕ
  | loopback => 0
  | linklocal => 1
  | sitelocal => 2
  | other => 3

namespace Ip6Address

def scope (a : Ip6Address) : Ip6AddrScope :=
  if a.address = 1 then .loopback
  else if a.address >>> 118 = 0x3FA then .linklocal
  else if a.address >>> 118 = 0x3FB then .sitelocal
  else .other

def getPeer (a : Ip6Address) : BitVec 128 :=
  if a.peerAddress = 0 ∨ a.peerAddress = a.address then a.address else a.peerAddress

/-- `nm_platform_ip6_address_cmp()` with `NM_PLATFORM_IP_ADDRESS_CMP_TYPE_SEMANTICALLY`
finds no difference. -/
def semanticallyEqual (now : ℕ) (a b : Ip6Address) : Bool :=
  a.address = b.address ∧ a.plen = b.plen ∧ a.getPeer = b.getPeer ∧
    a.lifetime.get now = b.lifetime.get now ∧
    a.ifaFlags &&& ifaFManagetempaddr = b.ifaFlags &&& ifaFManagetempaddr

def temporary (a : Ip6Address) : Bool := a.ifaFlags &&& ifaFSecondary ≠ 0

end Ip6Address

/-- `ip6_address_scope_cmp_descending()` does not order `b` before `a`. -/
def Ip6AddressScopeCmpDescending (a b : Ip6Address) : Prop := b.scope.toNat ≤ a.scope.toNat

instance : DecidableRel Ip6AddressScopeCmpDescending :=
  fun _ _ => inferInstanceAs (Decidable (_ ≤ _))

/-- `g_ptr_array_sort_with_data()`, which is stable. -/
def ip6SortByScope (addresses : List Ip6Address) : List Ip6Address :=
  addresses.insertionSort Ip6AddressScopeCmpDescending

/-! ## The kernel -/

def kernelDeleteIp6 (address : BitVec 128) (plen : ℕ) (kernel : List Ip6Address) :
    List Ip6Address :=
  kernel.filter fun a => ¬ (a.address = address ∧ a.plen = plen)

def kernelInsertIp6 (a : Ip6Address) : List Ip6Address → List Ip6Address
  | [] => [a]
  | b :: bs => if b.scope = a.scope then a :: b :: bs else b :: kernelInsertIp6 a bs

/-- The kernel adds an address, or updates it where it is. The prefix length of an address
cannot be changed. -/
def kernelAddIp6 (a : Ip6Address) (kernel : List Ip6Address) : List Ip6Address :=
  match lookup Ip6Address.address a.address kernel with
  | some _ =>
    modifyKey Ip6Address.address a.address
      (fun b => { b with lifetime := a.lifetime, ifaFlags := a.ifaFlags }) kernel
  | none => kernelInsertIp6 a kernel

/-! ## The sync -/

/-- `_addr_array_clean_expired()` -/
def ip6CleanExpired (now : ℕ) (addresses : List Ip6Address) : List (Option Ip6Address) :=
  addresses.map fun a => if a.temporary ∨ a.lifetime.expired now then none else some a

/-- `known_addresses_idx` -/
def ip6KnownIdx (known : List (Option Ip6Address)) : List Ip6Address := known.filterMap id

/-- The deletion of those `addresses_prune` that are not known. -/
def ip6Prune (idx prune kernel : List Ip6Address) : List Ip6Address :=
  prune.foldl (fun kernel a =>
    if (lookup Ip6Address.address a.address idx).isSome then kernel
    else kernelDeleteIp6 a.address a.plen kernel) kernel

/-- The loop that clears the external addresses, and deletes and clears the addresses
whose prefix length differs. The kernel and `plat_addresses` after it. -/
def ip6CheckPlen (idx : List Ip6Address) :
    List Ip6Address → List Ip6Address → List Ip6Address × List (Option Ip6Address)
  | [], kernel => (kernel, [])
  | platObj :: platObjs, kernel =>
    match lookup Ip6Address.address platObj.address idx with
    | none =>
      let r := ip6CheckPlen idx platObjs kernel
      (r.1, none :: r.2)
    | some knownObj =>
      if platObj.plen ≠ knownObj.plen then
        let r := ip6CheckPlen idx platObjs (kernelDeleteIp6 platObj.address platObj.plen kernel)
        (r.1, none :: r.2)
      else
        let r := ip6CheckPlen idx platObjs kernel
        (r.1, some platObj :: r.2)

/-- The inner loop over `known_addresses`, which are listed from `i_know` downwards:
whether the next known address of the scope is a match, and what is left. -/
def ip6NextKnown (platAddr : Ip6Address) :
    List (Option Ip6Address) → Bool × List (Option Ip6Address)
  | [] => (false, [])
  | none :: known => ip6NextKnown platAddr known
  | some knowAddr :: known =>
    if knowAddr.scope.toNat < platAddr.scope.toNat then ip6NextKnown platAddr known
    else (platAddr.address = knowAddr.address, known)

/-- The state of the walk, with the known addresses from `i_know` downwards. -/
structure Ip6Walk where
  curScope : Ip6AddrScope
  deleteRemainingAddrs : Bool
  known : List (Option Ip6Address)
  platAddrsToDelete : List Ip6Address
  deriving DecidableEq

/-- `cur_scope` becomes the scope of the platform address. -/
def Ip6Walk.enterScope (w : Ip6Walk) (platScope : Ip6AddrScope) : Ip6Walk :=
  if w.curScope ≠ platScope then { w with deleteRemainingAddrs := false, curScope := platScope }
  else w

/-- One element of `plat_addresses`. -/
def ip6WalkStep (w : Ip6Walk) : Option Ip6Address → Ip6Walk
  | none => w
  | some platAddr =>
    let w := w.enterScope platAddr.scope
    if w.deleteRemainingAddrs then { w with platAddrsToDelete := platAddr :: w.platAddrsToDelete }
    else
      match ip6NextKnown platAddr w.known with
      | (true, known) => { w with known := known }
      | (false, known) =>
        { w with
          known := known
          deleteRemainingAddrs := true
          platAddrsToDelete := platAddr :: w.platAddrsToDelete }

/-- `plat_addrs_to_delete`. Both arrays are walked backwards. -/
def ip6AddrsToDelete (known plat : List (Option Ip6Address)) : List Ip6Address :=
  (plat.reverse.foldl ip6WalkStep ⟨.loopback, false, known.reverse, []⟩).platAddrsToDelete

def Ip6Address.configured (now : ℕ) (withNoprefixroute : Bool) (known : Ip6Address) : Ip6Address :=
  { known with
    lifetime := known.lifetime.configure now
    ifaFlags := (if withNoprefixroute then ifaFNoprefixroute else 0) ||| known.ifaFlags }

/-- One known address of the loop that adds the missing addresses. -/
def ip6SyncKnown (now : ℕ) (withNoprefixroute : Bool) (toDelete kernel : List Ip6Address) :
    Option Ip6Address → List Ip6Address
  | none => kernel
  | some known =>
    let configured := known.configured now withNoprefixroute
    match lookup Ip6Address.address known.address kernel with
    | none => kernelAddIp6 configured kernel
    | some platObj =>
      if (lookup Ip6Address.address platObj.address toDelete).isSome then
        kernelAddIp6 configured (kernelDeleteIp6 platObj.address platObj.plen kernel)
      else if known.semanticallyEqual now platObj then kernel
      else kernelAddIp6 configured kernel

/-- `nm_platform_ip_address_sync()` for `AF_INET6`. The platform cache lists the addresses
in the order of the kernel. -/
def ip6AddressSync (now : ℕ) (withNoprefixroute : Bool)
    (knownAddresses prune kernel : List Ip6Address) : List Ip6Address :=
  let known := ip6CleanExpired now (ip6SortByScope knownAddresses)
  let idx := ip6KnownIdx known
  let kernel := ip6Prune idx prune kernel
  let checked := ip6CheckPlen idx (ip6SortByScope kernel) kernel
  let toDelete := ip6AddrsToDelete known checked.2
  known.reverse.foldl (ip6SyncKnown now withNoprefixroute toDelete) checked.1

/-!
## The walk over the IPv6 addresses

Both arrays are walked from their ends. In every scope the platform addresses from the
end match the known addresses from the end one by one up to the first discrepancy, and
all platform addresses of the scope before it are deleted.
-/

def inScope (s : Ip6AddrScope) (as : List Ip6Address) : List Ip6Address :=
  as.filter fun a => a.scope = s

def Ip6AddrScope.ofAddress (address : BitVec 128) : Ip6AddrScope :=
  Ip6Address.scope ⟨address, 0, 0, ⟨0, 0, 0⟩, 0⟩

theorem Ip6Address.scope_congr {a b : Ip6Address} (h : a.address = b.address) :
    a.scope = b.scope := congrArg Ip6AddrScope.ofAddress h

theorem Ip6AddrScope.toNat_injective : Function.Injective Ip6AddrScope.toNat := by
  intro s t h
  cases s <;> cases t <;> first | rfl | cases h

variable {s t : Ip6AddrScope} {a b k x : Ip6Address} {as pre suf W : List Ip6Address}
  {known : List (Option Ip6Address)} {w : Ip6Walk}

theorem mem_inScope : a ∈ inScope s as ↔ a ∈ as ∧ a.scope = s := by
  simp [inScope]

theorem inScope_cons_of_eq (h : a.scope = s) : inScope s (a :: as) = a :: inScope s as :=
  filter_cons_of_pos (decide_eq_true h)

theorem inScope_cons_of_ne (h : a.scope ≠ s) : inScope s (a :: as) = inScope s as :=
  filter_cons_of_neg (by simpa using h)

theorem inScope_append {bs : List Ip6Address} :
    inScope s (as ++ bs) = inScope s as ++ inScope s bs := filter_append _ _

theorem inScope_reverse : inScope s as.reverse = (inScope s as).reverse := filter_reverse

theorem ip6KnownIdx_none : ip6KnownIdx (none :: known) = ip6KnownIdx known := rfl

theorem ip6KnownIdx_some : ip6KnownIdx (some a :: known) = a :: ip6KnownIdx known := rfl

theorem ip6KnownIdx_reverse : ip6KnownIdx known.reverse = (ip6KnownIdx known).reverse := by
  simp [ip6KnownIdx, filterMap_reverse]

theorem foldl_skip_none {σ : Type*} {step : σ → Option Ip6Address → σ}
    (hnone : ∀ s, step s none = s) (s : σ) :
    known.foldl step s = (ip6KnownIdx known).foldl (fun s a => step s (some a)) s := by
  induction known generalizing s with
  | nil => rfl
  | cons o known ih =>
    cases o with
    | none => rw [foldl_cons, hnone, ih, ip6KnownIdx_none]
    | some a => rw [foldl_cons, ih, ip6KnownIdx_some, foldl_cons]

/-- The scopes do not decrease, as when a sorted array is walked backwards. -/
def ScopeAscending (as : List Ip6Address) : Prop :=
  as.Pairwise fun a b => a.scope.toNat ≤ b.scope.toNat

theorem ip6NextKnown_spec {rest : List Ip6Address} (hsorted : ScopeAscending (ip6KnownIdx known))
    (hnext : inScope x.scope (ip6KnownIdx known) = k :: rest) :
    (ip6NextKnown x known).1 = decide (x.address = k.address) ∧
      inScope x.scope (ip6KnownIdx (ip6NextKnown x known).2) = rest ∧
      ScopeAscending (ip6KnownIdx (ip6NextKnown x known).2) ∧
      ∀ t, x.scope.toNat < t.toNat →
        inScope t (ip6KnownIdx (ip6NextKnown x known).2) = inScope t (ip6KnownIdx known) := by
  induction known with
  | nil => cases hnext
  | cons o known ih =>
    cases o with
    | none => exact ih hsorted hnext
    | some a =>
      rw [ip6KnownIdx_some] at hsorted hnext ⊢
      obtain ⟨hle, hsorted⟩ := pairwise_cons.mp hsorted
      unfold ip6NextKnown
      by_cases hlt : a.scope.toNat < x.scope.toNat
      · -- a known address of an earlier scope is skipped
        have hne : a.scope ≠ x.scope := fun he => by rw [he] at hlt; omega
        rw [inScope_cons_of_ne hne] at hnext
        rw [if_pos hlt]
        obtain ⟨hmatch, hrest, hsorted', hlater⟩ := ih hsorted hnext
        refine ⟨hmatch, hrest, hsorted', fun t ht => ?_⟩
        have hat : a.scope ≠ t := fun he => by rw [he] at hlt; omega
        rw [hlater t ht, inScope_cons_of_ne hat]
      · have hscope : a.scope = x.scope := by
          by_contra hne
          rw [inScope_cons_of_ne hne] at hnext
          have hk : k ∈ inScope x.scope (ip6KnownIdx known) := by rw [hnext]; exact mem_cons_self
          obtain ⟨hkmem, hks⟩ := mem_inScope.mp hk
          have hak := hle k hkmem
          rw [hks] at hak
          exact hne (Ip6AddrScope.toNat_injective (by omega))
        rw [inScope_cons_of_eq hscope] at hnext
        obtain ⟨rfl, rfl⟩ := List.cons.inj hnext
        rw [if_neg hlt]
        refine ⟨rfl, rfl, hsorted, fun t ht => ?_⟩
        have hat : a.scope ≠ t := fun he => by rw [← he, hscope] at ht; omega
        rw [inScope_cons_of_ne hat]

/-- In the scope `t`, the addresses `pre` of the platform are known up to a point, from
which on they are to be deleted. -/
def CutAt (W pre toDelete : List Ip6Address) (t : Ip6AddrScope) : Prop :=
  ∃ matched d m rest, inScope t pre = matched ++ d ∧ inScope t W = m ++ rest ∧
    m.map Ip6Address.address = matched.map Ip6Address.address ∧
    ∀ x, x.scope = t → (x ∈ toDelete ↔ x ∈ d)

/-- The state of the walk after the platform addresses `pre`, of the known addresses `W`. -/
structure WalkInv (W pre : List Ip6Address) (w : Ip6Walk) : Prop where
  sorted : ScopeAscending (ip6KnownIdx w.known)
  scopes : ∀ a ∈ pre, a.scope.toNat ≤ w.curScope.toNat
  later : ∀ t, w.curScope.toNat < t.toNat → inScope t (ip6KnownIdx w.known) = inScope t W
  cut : ∀ t, CutAt W pre w.platAddrsToDelete t
  /-- As long as there was no discrepancy, all addresses of the scope have matched. -/
  matching : w.deleteRemainingAddrs = false →
    (∀ x ∈ w.platAddrsToDelete, x.scope ≠ w.curScope) ∧
    ∃ m, inScope w.curScope W = m ++ inScope w.curScope (ip6KnownIdx w.known) ∧
      m.map Ip6Address.address = (inScope w.curScope pre).map Ip6Address.address

theorem curScope_enterScope : (w.enterScope s).curScope = s := by
  unfold Ip6Walk.enterScope
  split_ifs with he
  · rfl
  · exact not_not.mp he

theorem WalkInv.enter (h : WalkInv W pre w) (hs : w.curScope.toNat ≤ s.toNat) :
    WalkInv W pre (w.enterScope s) := by
  unfold Ip6Walk.enterScope
  by_cases he : w.curScope = s
  · rw [if_neg (by simpa using he)]
    exact h
  · rw [if_pos he]
    have hlt : w.curScope.toNat < s.toNat :=
      Nat.lt_of_le_of_ne hs fun heq => he (Ip6AddrScope.toNat_injective heq)
    have hnone : inScope s pre = [] := by
      refine filter_eq_nil_iff.mpr fun a ha => ?_
      have hle := h.scopes a ha
      simp only [decide_eq_true_eq]
      rintro rfl
      omega
    refine ⟨h.sorted, fun a ha => ?_, fun t ht => h.later t ?_, h.cut, fun _ => ⟨fun x hx hxs => ?_, ?_⟩⟩
    · have hle := h.scopes a ha
      dsimp only
      omega
    · dsimp only at ht
      omega
    · obtain ⟨matched, d, m, rest, hpre, _, _, hdel⟩ := h.cut s
      rw [hnone] at hpre
      have hd : d = [] := (append_eq_nil_iff.mp hpre.symm).2
      have hmem := (hdel x hxs).mp hx
      rw [hd] at hmem
      cases hmem
    · refine ⟨[], ?_, ?_⟩
      · exact (h.later s hlt).symm
      · dsimp only
        rw [hnone]

theorem CutAt.of_ne {del del' : List Ip6Address} (h : CutAt W pre del t) (hne : x.scope ≠ t)
    (hdel : ∀ y, y.scope = t → (y ∈ del' ↔ y ∈ del)) : CutAt W (pre ++ [x]) del' t := by
  obtain ⟨matched, d, m, rest, hpre, hW, hm, hd⟩ := h
  refine ⟨matched, d, m, rest, ?_, hW, hm, fun y hy => (hdel y hy).trans (hd y hy)⟩
  rw [inScope_append, inScope_cons_of_ne hne, hpre]
  exact append_nil _

theorem WalkInv.step (h : WalkInv W pre w) (hs : w.curScope.toNat ≤ x.scope.toNat)
    (hknown : ∃ k ∈ W, k.address = x.address) (hfresh : ∀ a ∈ pre, a.address ≠ x.address) :
    WalkInv W (pre ++ [x]) (ip6WalkStep w (some x)) := by
  unfold ip6WalkStep
  dsimp only
  replace h := h.enter hs
  have hcur : (w.enterScope x.scope).curScope = x.scope := curScope_enterScope
  generalize w.enterScope x.scope = v at h hcur ⊢
  have hscopes : ∀ a ∈ pre ++ [x], a.scope.toNat ≤ v.curScope.toNat := by
    intro a ha
    rcases mem_append.mp ha with ha | ha
    · exact h.scopes a ha
    · rw [mem_singleton.mp ha, hcur]
  have hpre : inScope x.scope (pre ++ [x]) = inScope x.scope pre ++ [x] := by
    rw [inScope_append, inScope_cons_of_eq rfl]
    rfl
  have hother : ∀ {t}, t ≠ x.scope → ∀ y, y.scope = t →
      (y ∈ x :: v.platAddrsToDelete ↔ y ∈ v.platAddrsToDelete) := by
    intro t ht y hy
    have hne : y ≠ x := fun he => ht (by rw [← hy, he])
    simp [hne]
  by_cases hdel : v.deleteRemainingAddrs = true
  · -- all remaining addresses of the scope are deleted
    rw [if_pos hdel]
    refine ⟨h.sorted, hscopes, h.later, fun t => ?_, fun hf => ?_⟩
    · by_cases ht : t = x.scope
      · subst ht
        obtain ⟨matched, d, m, rest, hp, hW, hm, hd⟩ := h.cut x.scope
        refine ⟨matched, d ++ [x], m, rest, ?_, hW, hm, fun y hy => ?_⟩
        · rw [hpre, hp, append_assoc]
        · simp [hd y hy, or_comm]
      · exact (h.cut t).of_ne (Ne.symm ht) (hother ht)
    · rw [hdel] at hf
      cases hf
  · rw [if_neg hdel]
    obtain ⟨hnone, m, hW, hm⟩ := h.matching (by simpa using hdel)
    rw [hcur] at hnone hW hm
    -- the address is known, and none of the matched ones
    obtain ⟨k, rest, hnext⟩ : ∃ k rest, inScope x.scope (ip6KnownIdx v.known) = k :: rest := by
      refine exists_cons_of_ne_nil fun hnil => ?_
      obtain ⟨k, hk, hkx⟩ := hknown
      have hkW : k ∈ inScope x.scope W := mem_inScope.mpr ⟨hk, Ip6Address.scope_congr hkx⟩
      rw [hW, hnil, append_nil] at hkW
      have hkm : k.address ∈ m.map Ip6Address.address := mem_map_of_mem hkW
      rw [hm] at hkm
      obtain ⟨a, ha, hak⟩ := mem_map.mp hkm
      exact hfresh a (mem_inScope.mp ha).1 (hak.trans hkx)
    obtain ⟨hmatch, hrest, hsorted, hlater⟩ := ip6NextKnown_spec h.sorted hnext
    have hlater' : ∀ t, v.curScope.toNat < t.toNat →
        inScope t (ip6KnownIdx (ip6NextKnown x v.known).2) = inScope t W := by
      intro t ht
      rw [hlater t (by rw [← hcur]; exact ht), h.later t ht]
    rw [hnext] at hW
    split
    · next ks heq =>
      -- a match
      rw [heq] at hmatch hrest hsorted hlater'
      have haddr : x.address = k.address := by simpa using hmatch
      have hm' : (m ++ [k]).map Ip6Address.address =
          (inScope x.scope pre ++ [x]).map Ip6Address.address := by
        rw [map_append, map_append, hm]
        simp [haddr]
      refine ⟨hsorted, hscopes, hlater', fun t => ?_, fun _ => ?_⟩
      · by_cases ht : t = x.scope
        · subst ht
          refine ⟨inScope x.scope pre ++ [x], [], m ++ [k], rest, ?_, ?_, hm', fun y hy => ?_⟩
          · rw [hpre, append_nil]
          · rw [hW, append_assoc]
            rfl
          · exact ⟨fun hmem => absurd hy (hnone y hmem), nofun⟩
        · exact (h.cut t).of_ne (Ne.symm ht) fun y _ => Iff.rfl
      · dsimp only
        rw [hcur]
        refine ⟨hnone, m ++ [k], ?_, ?_⟩
        · rw [hW, hrest, append_assoc]
          rfl
        · rw [hpre, hm']
    · next ks heq =>
      -- the first discrepancy in the scope
      rw [heq] at hsorted hlater'
      refine ⟨hsorted, hscopes, hlater', fun t => ?_, nofun⟩
      by_cases ht : t = x.scope
      · subst ht
        refine ⟨inScope x.scope pre, [x], m, k :: rest, hpre, hW, hm, fun y hy => ?_⟩
        have hy' : y ∉ v.platAddrsToDelete := fun hmem => hnone y hmem hy
        simp [hy']
      · exact (h.cut t).of_ne (Ne.symm ht) (hother ht)

theorem curScope_ip6WalkStep : (ip6WalkStep w (some x)).curScope = x.scope := by
  unfold ip6WalkStep
  dsimp only
  have hcur : (w.enterScope x.scope).curScope = x.scope := curScope_enterScope
  split_ifs
  · exact hcur
  · split
    · exact hcur
    · exact hcur

theorem WalkInv.foldl (h : WalkInv W pre w) (hsorted : ScopeAscending (pre ++ suf))
    (hcur : ∀ a ∈ suf, w.curScope.toNat ≤ a.scope.toNat)
    (hu : KeyUnique Ip6Address.address (pre ++ suf))
    (hknown : ∀ a ∈ suf, ∃ k ∈ W, k.address = a.address) :
    ∀ t, CutAt W (pre ++ suf)
      (suf.foldl (fun w a => ip6WalkStep w (some a)) w).platAddrsToDelete t := by
  induction suf generalizing pre w with
  | nil =>
    rw [append_nil]
    exact h.cut
  | cons x suf ih =>
    have hfresh : ∀ a ∈ pre, a.address ≠ x.address := by
      intro a ha
      have hdis := (nodup_append.mp (by simpa [KeyUnique] using hu)).2.2
      exact hdis a.address (mem_map_of_mem ha) x.address (by simp)
    have hstep := h.step (hcur x mem_cons_self) (hknown x mem_cons_self) hfresh
    have hnext : ∀ a ∈ suf, (ip6WalkStep w (some x)).curScope.toNat ≤ a.scope.toNat := by
      rw [curScope_ip6WalkStep]
      exact (pairwise_cons.mp (pairwise_append.mp hsorted).2.1).1
    rw [append_cons] at hsorted hu ⊢
    exact ih hstep hsorted hnext hu fun a ha => hknown a (mem_cons_of_mem x ha)

theorem ip6AddrsToDelete_cut {known plat : List (Option Ip6Address)}
    (hknown : (ip6KnownIdx known).Pairwise Ip6AddressScopeCmpDescending)
    (hplat : (ip6KnownIdx plat).Pairwise Ip6AddressScopeCmpDescending)
    (hu : KeyUnique Ip6Address.address (ip6KnownIdx plat))
    (hmem : ∀ a ∈ ip6KnownIdx plat, ∃ k ∈ ip6KnownIdx known, k.address = a.address)
    (t : Ip6AddrScope) :
    ∃ d matched rest m, inScope t (ip6KnownIdx plat) = d ++ matched ∧
      inScope t (ip6KnownIdx known) = rest ++ m ∧
      m.map Ip6Address.address = matched.map Ip6Address.address ∧
      ∀ x, x.scope = t → (x ∈ ip6AddrsToDelete known plat ↔ x ∈ d) := by
  have hasc : ∀ {as : List Ip6Address}, as.Pairwise Ip6AddressScopeCmpDescending →
      ScopeAscending as.reverse := fun h => pairwise_reverse.mpr h
  have hinit : WalkInv (ip6KnownIdx known).reverse [] ⟨.loopback, false, known.reverse, []⟩ := by
    refine ⟨?_, nofun, fun t _ => ?_, fun t => ⟨[], [], [], _, rfl, rfl, rfl, fun _ _ => Iff.rfl⟩,
      fun _ => ⟨nofun, [], ?_, rfl⟩⟩
    · rw [ip6KnownIdx_reverse]
      exact hasc hknown
    · rw [ip6KnownIdx_reverse]
    · rw [ip6KnownIdx_reverse]
      rfl
  have hu' : KeyUnique Ip6Address.address (ip6KnownIdx plat).reverse := by
    unfold KeyUnique
    rw [map_reverse]
    exact nodup_reverse.mpr hu
  have hmem' : ∀ a ∈ (ip6KnownIdx plat).reverse,
      ∃ k ∈ (ip6KnownIdx known).reverse, k.address = a.address := by
    simpa using hmem
  have hsorted : ScopeAscending ([] ++ (ip6KnownIdx plat).reverse) := hasc hplat
  obtain ⟨matched, d, m, rest, hpre, hW, hm, hdel⟩ :=
    hinit.foldl hsorted (fun a _ => Nat.zero_le _) hu' hmem' t
  rw [nil_append, inScope_reverse] at hpre
  rw [inScope_reverse] at hW
  refine ⟨d.reverse, matched.reverse, rest.reverse, m.reverse, ?_, ?_, ?_, fun x hx => ?_⟩
  · rw [← reverse_append, ← hpre, reverse_reverse]
  · rw [← reverse_append, ← hW, reverse_reverse]
  · rw [map_reverse, map_reverse, hm]
  · unfold ip6AddrsToDelete
    rw [foldl_skip_none (fun _ => rfl), ip6KnownIdx_reverse, mem_reverse]
    exact hdel x hx

end NetworkManager.Platform
