import NetworkManager.Core.BondManager

/-!
# The states of the bond manager

In each registration state it is known which call is pending, whether it was cancelled, and which
configuration there will be when nothing else happens. From this all assertions follow. Each
function is followed from one such state to the next.
-/

namespace NetworkManager.Core

open Lib List

/-! ## Active members -/

theorem stealMembers_perm (curr lst : List Bytes) :
    ((stealMembers curr lst).1 ++ (stealMembers curr lst).2).Perm lst := by
  induction curr generalizing lst with
  | nil => exact .refl lst
  | cons m curr ih =>
    unfold stealMembers
    split_ifs with hm
    · exact ((ih (lst.erase m)).cons m).trans (perm_cons_erase hm).symm
    · exact ih lst

theorem nodup_destutter (names : List Bytes) :
    ((names.insertionSort (· ≤ ·)).destutter (· ≠ ·)).Nodup := by
  have hle : ((names.insertionSort (· ≤ ·)).destutter (· ≠ ·)).Pairwise (· ≤ ·) :=
    (pairwise_insertionSort (· ≤ ·) names).sublist (destutter_sublist _ _)
  have hne := isChain_destutter (R := fun a b : Bytes => a ≠ b)
    (names.insertionSort (· ≤ ·))
  generalize (names.insertionSort (· ≤ ·)).destutter (· ≠ ·) = l at hle hne
  induction l with
  | nil => exact nodup_nil
  | cons a l ih =>
    rw [pairwise_cons] at hle
    refine nodup_cons.mpr ⟨fun ha => ?_, ih hle.2 hne.tail⟩
    cases l with
    | nil => cases ha
    | cons b l =>
      -- everything behind b is at least b, which is more than a
      have hab : a ≠ b := List.IsChain.rel hne
      have hba : b ≤ a := by
        rcases mem_cons.mp ha with heq | ha
        · exact absurd heq hab
        · exact (pairwise_cons.mp hle.2).1 a ha
      exact hab (List.le_antisymm (hle.1 b List.mem_cons_self) hba)

theorem activeMembersResult_perm (curr : List Bytes) (ports : List NMPlatformLink) :
    (activeMembersResult curr ports).Perm
      (((ports.map (·.name)).insertionSort (· ≤ ·)).destutter (· ≠ ·)) := stealMembers_perm _ _

theorem activeMembersResult_nodup (curr : List Bytes) (ports : List NMPlatformLink) :
    (activeMembersResult curr ports).Nodup :=
  (activeMembersResult_perm curr ports).nodup_iff.mpr (nodup_destutter _)

namespace NMBondManager

variable {s : NMBondManager} {active : List Bytes} {bondIfname : Bytes} {s' : NMBondManager}

theorem membersComplete_eq (s : NMBondManager) (links : List NMPlatformLink) :
    s.membersComplete links = true := by
  rw [membersComplete]
  exact decide_eq_true (activeMembersResult_perm _ _).length_eq

/-! ## Well-formed states -/

def currConfig (s : NMBondManager) : Option (Bytes × List Bytes) :=
  s.bondIfnameCurr.map fun b => (b, s.activeMembersCurr)

def nextConfig (s : NMBondManager) : Option (Bytes × List Bytes) :=
  s.bondIfnameNext.map fun b => (b, s.activeMembersNext)

/-- A call is pending, and it is about the current name. -/
structure Pending (s : NMBondManager) (up : Bool) (call : NftCall) : Prop where
  inProgress : s.nftInProgress = true
  idle : s.reconfigureOnIdleSource = false
  calls : s.calls = [call]
  up : call.up = up
  bondIfname : s.bondIfnameCurr = some call.bondIfname

/-- Nothing is pending, and nothing comes next. -/
structure Settled (s : NMBondManager) : Prop where
  inProgress : s.nftInProgress = false
  calls : s.calls = []
  cancellable : s.cancellable = none
  next : s.bondIfnameNext = none

/-- The pending call configures the current name. Unless it was cancelled, nothing comes next. -/
structure Upping (s : NMBondManager) (call : NftCall) : Prop extends s.Pending true call where
  active : call.activeMembers = s.activeMembersCurr
  previous : ∀ m ∈ s.previousMembers, m ∈ call.previousMembers ∨ m ∈ call.activeMembers
  forgotten : ∀ m ∈ call.activeMembers, m ∉ call.previousMembers
  cancel : (s.cancellable = some call.cancellable ∧ s.bondIfnameNext = none ∧ ¬ s.destroyed) ∨
    (s.cancellable = none ∧ call.cancellable ∈ s.cancelled)

/-- The pending call removes what was configured. It is never cancelled. -/
structure Downing (s : NMBondManager) (call : NftCall) : Prop extends s.Pending false call where
  down : call.bondIfnamesDown = []
  cancellable : s.cancellable = some call.cancellable

/-- What the registration state says. -/
def Phase (s : NMBondManager) : Prop :=
  match s.regState with
  | .none => s.Settled ∧ s.bondIfnameCurr = none
  | .up => s.Settled ∧ s.bondIfnameCurr.isSome ∧ ¬ s.destroyed
  | .upping => ∃ call, s.Upping call
  | .downing => ∃ call, s.Downing call

/-- A name that is given to nft is not empty, and its members are not repeated. -/
structure NamesOk (bondIfname : Option Bytes) (active : List Bytes) : Prop where
  ne : bondIfname ≠ some []
  isSome : active ≠ [] → bondIfname.isSome
  nodup : active.Nodup

structure WellFormed (s : NMBondManager) : Prop where
  ok : s.ok = true
  phase : s.Phase
  curr : NamesOk s.bondIfnameCurr s.activeMembersCurr
  next : NamesOk s.bondIfnameNext s.activeMembersNext
  idle : s.reconfigureOnIdleSource → s.reconfigureCheck ∧ ¬ s.nftInProgress
  destroyed : s.destroyed →
    s.bondIfnameNext = none ∧ s.reconfigureCheck = false ∧ s.linkChangedId = false
  cancellable : ∀ id ∈ s.cancellable, id ∉ s.cancelled
  created : ∀ id, (id ∈ s.cancelled ∨ s.cancellable = some id) → id < s.nextCancellable
  previous : ∀ m ∈ s.activeMembersCurr, m ∈ s.previousMembers
  freed : s.freed = if s.destroyed ∧ s.regState = .none then 1 else 0

/-- The configuration that there will be when nothing else happens. -/
def wanted (s : NMBondManager) : Option (Bytes × List Bytes) :=
  match s.regState with
  | .none => none
  | .up => s.currConfig
  | .upping => if s.cancellable.isSome then s.currConfig else s.nextConfig
  | .downing => s.nextConfig

theorem assert_of {cond : Bool} (h : cond = true) : s.assert cond = s := by
  simp [assert, h]

theorem namesOk_none : NamesOk none [] := ⟨by simp, by simp, nodup_nil⟩

theorem NamesOk.nil (h : NamesOk none active) : active = [] := by
  by_contra hne
  exact absurd (h.isSome hne) (by simp)

theorem WellFormed.pending_cases (h : s.WellFormed) {call : NftCall} (hcall : call ∈ s.calls) :
    (s.regState = .upping ∧ s.Upping call) ∨ (s.regState = .downing ∧ s.Downing call) := by
  have hphase := h.phase
  cases hreg : s.regState with
  | none =>
    rw [Phase, hreg] at hphase
    simp [hphase.1.calls] at hcall
  | up =>
    rw [Phase, hreg] at hphase
    simp [hphase.1.calls] at hcall
  | upping =>
    rw [Phase, hreg] at hphase
    obtain ⟨call', hupping⟩ := hphase
    rw [hupping.calls, mem_singleton] at hcall
    exact .inl ⟨rfl, hcall ▸ hupping⟩
  | downing =>
    rw [Phase, hreg] at hphase
    obtain ⟨call', hdowning⟩ := hphase
    rw [hdowning.calls, mem_singleton] at hcall
    exact .inr ⟨rfl, hcall ▸ hdowning⟩

theorem WellFormed.calls_eq (h : s.WellFormed) {call : NftCall} (hcall : call ∈ s.calls) :
    s.calls = [call] := by
  rcases h.pending_cases hcall with ⟨-, hupping⟩ | ⟨-, hdowning⟩
  · exact hupping.calls
  · exact hdowning.calls

/-- The assertions hold in every state in which the manager is not about to be freed. -/
theorem WellFormed.assertSelf (h : s.WellFormed) (hlive : s.freed = 0) : s.assertSelf = true := by
  have hfreed := h.freed
  have hmembers {name : Option Bytes} {active : List Bytes} (h : NamesOk name active) :
      (active = [] || name.isSome) = true ∧ (active = [] || name ≠ some []) = true := by
    have hisSome := h.isSome
    have hne := h.ne
    simp only [Bool.or_eq_true, decide_eq_true_eq]
    tauto
  obtain ⟨hcurr, hcurrNe⟩ := hmembers h.curr
  obtain ⟨hnext, hnextNe⟩ := hmembers h.next
  have hcancellable : (s.cancellable.all fun id => id ∉ s.cancelled) = true := by
    rw [Option.all_eq_true]
    exact fun id hid => decide_eq_true (h.cancellable id hid)
  have hidle : (!s.reconfigureOnIdleSource || s.reconfigureCheck) = true ∧
      (!s.nftInProgress || !s.reconfigureOnIdleSource) = true := by
    have hidle := h.idle
    simp only [Bool.or_eq_true, Bool.not_eq_true']
    grind
  have hdestroyed : (!s.destroyed || s.bondIfnameNext.isNone) = true := by
    have hdestroyed := h.destroyed
    simp only [Bool.or_eq_true, Bool.not_eq_true', Option.isNone_iff_eq_none]
    grind
  have hphase := h.phase
  rw [Phase] at hphase
  unfold NMBondManager.assertSelf
  rw [hcancellable, hcurr, hnext, hcurrNe, hnextNe, hidle.1, hidle.2, hdestroyed]
  cases hreg : s.regState with
  | none =>
    rw [hreg] at hphase
    obtain ⟨hsettled, hnone⟩ := hphase
    have hlives : s.destroyed = false := by simp_all
    simp [hlives, hnone, hsettled.inProgress, hsettled.cancellable, hsettled.next]
  | up =>
    rw [hreg] at hphase
    obtain ⟨hsettled, hsome, hlives⟩ := hphase
    simp [hlives, hsome, hsettled.inProgress, hsettled.cancellable, hsettled.next]
  | upping =>
    rw [hreg] at hphase
    obtain ⟨call, hpending, -⟩ := hphase
    simp [hpending.inProgress, hpending.bondIfname]
  | downing =>
    rw [hreg] at hphase
    obtain ⟨call, hpending, -⟩ := hphase
    simp [hpending.inProgress, hpending.bondIfname]

/-! ## Calls -/

/-- A state in which nothing is pending, so that a call can be made. -/
structure Ready (s : NMBondManager) : Prop where
  ok : s.ok = true
  calls : s.calls = []
  idle : s.reconfigureOnIdleSource → s.reconfigureCheck
  destroyed : s.destroyed → s.reconfigureCheck = false ∧ s.linkChangedId = false
  created : ∀ id, (id ∈ s.cancelled ∨ s.cancellable = some id) → id < s.nextCancellable
  next : s.bondIfnameNext = none
  activeNext : s.activeMembersNext = []
  freed : s.freed = 0

theorem mem_forgottenMembers {m : Bytes} :
    m ∈ s.forgottenMembers active ↔ m ∈ s.previousMembers ∧ m ∉ active := by
  rw [forgottenMembers, (perm_insertionSort _ _).mem_iff, mem_filter, decide_eq_true_eq]

theorem Ready.nftCall_ok (h : s.Ready) (hnodup : active.Nodup) (trace up : Bool)
    (bondIfname : Bytes) (down : List Bytes) :
    (s.nftCall trace up bondIfname down active).ok = true := by
  have hprevious :
      (s.newCall trace up bondIfname down active).previousMembers.all (· ∉ active) = true := by
    rw [all_eq_true]
    intro m hm
    cases up with
    | false => cases hm
    | true => exact decide_eq_true (mem_forgottenMembers.mp hm).2
  simp only [nftCall, h.ok, hnodup, decide_true, hprevious, Bool.and_true]

theorem Ready.nftCall_created (h : s.Ready) (trace up : Bool) (bondIfname : Bytes)
    (down active : List Bytes) :
    (∀ id ∈ (s.nftCall trace up bondIfname down active).cancelled, id < s.nextCancellable) := by
  intro id hid
  refine h.created id ?_
  rcases mem_append.mp hid with hid | hid
  · exact .inr (by simpa using hid)
  · exact .inl hid

theorem Ready.nftCall_idle (h : s.Ready) (trace up : Bool) (bondIfname : Bytes)
    (down active : List Bytes) :
    (s.nftCall trace up bondIfname down active).reconfigureOnIdleSource = false := by
  have hidle := h.idle
  change (s.reconfigureOnIdleSource && !s.reconfigureCheck) = false
  cases hsource : s.reconfigureOnIdleSource with
  | false => rfl
  | true => simp [hidle hsource]

theorem Ready.callUp (h : s.Ready) (hname : bondIfname ≠ []) (hnodup : active.Nodup)
    (hlive : ¬ s.destroyed) (trace : Bool) (down : List Bytes) :
    { s.nftCall trace true bondIfname down active with
      regState := .upping
      bondIfnameCurr := some bondIfname
      activeMembersCurr := active }.WellFormed := by
  have hidle := h.nftCall_idle trace true bondIfname down active
  have hcreated := h.nftCall_created trace true bondIfname down active
  refine ⟨h.nftCall_ok hnodup .., ⟨s.newCall trace true bondIfname down active,
    ⟨rfl, hidle, ?_, rfl, rfl⟩, rfl, fun m hm => ?_,
    fun m hm hforgotten => (mem_forgottenMembers.mp hforgotten).2 hm, .inl ⟨rfl, h.next, hlive⟩⟩,
    ⟨by simpa using hname, fun _ => rfl, hnodup⟩, ?_, ?_, ?_, ?_, ?_,
    ?_, ?_⟩
  · change s.calls ++ [_] = [_]
    rw [h.calls]
    rfl
  · rcases mem_union_iff.mp hm with hm | hm
    · by_cases hactive : m ∈ active
      · exact .inr hactive
      · exact .inl (mem_forgottenMembers.mpr ⟨hm, hactive⟩)
    · exact .inr hm
  · change NamesOk s.bondIfnameNext s.activeMembersNext
    rw [h.next, h.activeNext]
    exact namesOk_none
  · exact fun hsource => absurd hsource (by simp [hidle])
  · exact fun hdestroyed => absurd hdestroyed hlive
  · rintro id hid hcancelled
    obtain rfl : s.nextCancellable = id := Option.some.inj hid
    exact absurd (hcreated _ hcancelled) (lt_irrefl _)
  · rintro id (hid | hid)
    · exact Nat.lt_succ_of_lt (hcreated id hid)
    · obtain rfl : s.nextCancellable = id := Option.some.inj hid
      exact Nat.lt_succ_self _
  · exact fun m hm => mem_union_iff.mpr (.inr hm)
  · change s.freed = _
    simp [h.freed]

theorem Ready.callDown (h : s.Ready) (hcurr : s.bondIfnameCurr = some bondIfname)
    (hnames : NamesOk s.bondIfnameCurr s.activeMembersCurr)
    (hprevious : ∀ m ∈ s.activeMembersCurr, m ∈ s.previousMembers) (trace : Bool) :
    { s.nftCall trace false bondIfname [] [] with regState := .downing }.WellFormed := by
  have hidle := h.nftCall_idle trace false bondIfname [] []
  have hcreated := h.nftCall_created trace false bondIfname [] []
  refine ⟨h.nftCall_ok nodup_nil .., ⟨s.newCall trace false bondIfname [] [],
    ⟨rfl, hidle, ?_, rfl, hcurr⟩, rfl, rfl⟩, hnames, ?_, ?_, ?_, ?_, ?_, hprevious, ?_⟩
  · change s.calls ++ [_] = [_]
    rw [h.calls]
    rfl
  · change NamesOk s.bondIfnameNext s.activeMembersNext
    rw [h.next, h.activeNext]
    exact namesOk_none
  · exact fun hsource => absurd hsource (by simp [hidle])
  · exact fun hdestroyed => ⟨h.next, h.destroyed hdestroyed⟩
  · rintro id hid hcancelled
    obtain rfl : s.nextCancellable = id := Option.some.inj hid
    exact absurd (hcreated _ hcancelled) (lt_irrefl _)
  · rintro id (hid | hid)
    · exact Nat.lt_succ_of_lt (hcreated id hid)
    · obtain rfl : s.nextCancellable = id := Option.some.inj hid
      exact Nat.lt_succ_self _
  · change s.freed = _
    simp [h.freed]

theorem notifyStateChange_eq (s : NMBondManager) :
    ∃ state events, s.notifyStateChange = { s with state, stateEvents := events } := by
  unfold notifyStateChange
  dsimp only
  split_ifs
  · exact ⟨s.state, s.stateEvents, rfl⟩
  · exact ⟨_, _, rfl⟩
  all_goals exact ⟨_, _, rfl⟩

theorem Phase.frame (h : s.Phase) (hreg : s'.regState = s.regState)
    (hprogress : s'.nftInProgress = s.nftInProgress) (hcalls : s'.calls = s.calls)
    (hcancellable : s'.cancellable = s.cancellable) (hcancelled : s'.cancelled = s.cancelled)
    (hcurr : s'.bondIfnameCurr = s.bondIfnameCurr) (hnext : s'.bondIfnameNext = s.bondIfnameNext)
    (hactive : s'.activeMembersCurr = s.activeMembersCurr)
    (hprevious : s'.previousMembers = s.previousMembers) (hdestroyed : s'.destroyed = s.destroyed)
    (hidle : s.nftInProgress = true → s'.reconfigureOnIdleSource = false) : s'.Phase := by
  have hpending {up : Bool} {call : NftCall} (h : s.Pending up call) : s'.Pending up call :=
    ⟨hprogress ▸ h.inProgress, hidle h.inProgress, hcalls ▸ h.calls, h.up, hcurr ▸ h.bondIfname⟩
  have hsettled (h : s.Settled) : s'.Settled :=
    ⟨hprogress ▸ h.inProgress, hcalls ▸ h.calls, hcancellable ▸ h.cancellable, hnext ▸ h.next⟩
  rw [Phase] at h ⊢
  rw [hreg]
  cases hstate : s.regState with
  | none =>
    rw [hstate] at h
    exact ⟨hsettled h.1, hcurr ▸ h.2⟩
  | up =>
    rw [hstate] at h
    exact ⟨hsettled h.1, hcurr ▸ h.2.1, hdestroyed ▸ h.2.2⟩
  | upping =>
    rw [hstate] at h
    obtain ⟨call, hcall⟩ := h
    refine ⟨call, hpending hcall.toPending, hactive ▸ hcall.active, hprevious ▸ hcall.previous,
      hcall.forgotten, ?_⟩
    rw [hcancellable, hnext, hdestroyed, hcancelled]
    exact hcall.cancel
  | downing =>
    rw [hstate] at h
    obtain ⟨call, hcall⟩ := h
    exact ⟨call, hpending hcall.toPending, hcall.down, hcancellable ▸ hcall.cancellable⟩

theorem WellFormed.notify (h : s.WellFormed) : s.notifyStateChange.WellFormed := by
  obtain ⟨state, events, heq⟩ := notifyStateChange_eq s
  have hphase : { s with state, stateEvents := events }.Phase := by
    refine h.phase.frame rfl rfl rfl rfl rfl rfl rfl rfl rfl rfl fun hprogress => ?_
    by_contra hsource
    exact (h.idle (Bool.not_eq_false _ |>.mp hsource)).2 hprogress
  rw [heq]
  exact ⟨h.ok, hphase, h.curr, h.next, h.idle, h.destroyed, h.cancellable,
    h.created, h.previous, h.freed⟩

/-! ## Reconfiguring -/

/-- The names whose tables are configured, or are about to be deleted. -/
def Manages (s : NMBondManager) (b : Bytes) : Prop :=
  s.bondIfnameCurr = some b ∨ ∃ call ∈ s.calls, b ∈ call.bondIfnamesDown

/-- While the ruleset stays as it is, nothing is forgotten that is in it. -/
structure Keeps (s s' : NMBondManager) : Prop where
  manages : ∀ b, s.Manages b → s'.Manages b
  previous : ∀ m ∈ s.previousMembers, m ∈ s'.previousMembers
  up : s'.regState = .up → s.regState = .up ∧ s'.currConfig = s.currConfig
  destroyed : s'.destroyed = s.destroyed

theorem Keeps.refl (s : NMBondManager) : s.Keeps s :=
  ⟨fun _ h => h, fun _ h => h, fun h => ⟨h, rfl⟩, rfl⟩

/-- `s'` is what becomes of `s` when `config` is asked for. -/
structure Configured (config : Option (Bytes × List Bytes)) (s s' : NMBondManager) : Prop where
  wellFormed : s'.WellFormed
  wanted : s'.wanted = config
  keeps : s.Keeps s'
  lastCheck : s'.lastCheck = s.lastCheck

theorem Configured.notify {config : Option (Bytes × List Bytes)} (h : Configured config s s')
    : Configured config s s'.notifyStateChange := by
  have hwellFormed := h.wellFormed.notify
  obtain ⟨state, events, heq⟩ := notifyStateChange_eq s'
  rw [heq] at hwellFormed ⊢
  obtain ⟨hmanages, hprevious, hup, hdestroyed⟩ := h.keeps
  exact ⟨hwellFormed, h.wanted, ⟨hmanages, hprevious, hup, hdestroyed⟩, h.lastCheck⟩

/-- A configuration that can be given to nft. -/
def ConfigOk (config : Option (Bytes × List Bytes)) : Prop :=
  ∀ c ∈ config, c.1 ≠ [] ∧ c.2.Nodup

variable {config : Option (Bytes × List Bytes)}

theorem Settled.ready (h : s.Settled) (hs : s.WellFormed) (hfreed : s.freed = 0) : s.Ready := by
  have hactive := hs.next
  rw [h.next] at hactive
  exact ⟨hs.ok, h.calls, fun hidle => (hs.idle hidle).1, fun hd => (hs.destroyed hd).2, hs.created,
    h.next, hactive.nil, hfreed⟩

theorem WellFormed.reconfigureNone (h : s.WellFormed) (hreg : s.regState = .none)
    (hlive : ¬ s.destroyed) (hconfig : ConfigOk config) (trace : Bool) :
    Configured config s (s.reconfigureNone trace config) := by
  have hphase := h.phase
  have hfreed := h.freed
  rw [if_neg fun hd => hlive hd.1] at hfreed
  rw [Phase, hreg] at hphase
  obtain ⟨hsettled, hnone⟩ := hphase
  have hready := hsettled.ready h hfreed
  have hactive := h.curr
  rw [hnone] at hactive
  have hassert : (s.bondIfnameCurr.isNone && s.activeMembersCurr = [] && s.bondIfnameNext.isNone &&
      s.activeMembersNext = [] && s.cancellable.isNone && !s.nftInProgress) = true := by
    simp [hnone, hactive.nil, hsettled.next, hready.activeNext, hsettled.cancellable,
      hsettled.inProgress]
  simp only [NMBondManager.reconfigureNone, assert_of hassert]
  cases config with
  | none => exact ⟨h, by rw [wanted, hreg], .refl s, rfl⟩
  | some c =>
    obtain ⟨hname, hnodup⟩ := hconfig c rfl
    have hready' : { s with bondIfnameCurr := some c.1, activeMembersCurr := c.2 }.Ready :=
      ⟨hready.ok, hready.calls, hready.idle, hready.destroyed, hready.created, hready.next,
        hready.activeNext, hready.freed⟩
    refine ⟨hready'.callUp hname hnodup hlive trace [], rfl, ⟨fun b hb => ?_, fun m hm => ?_,
      fun hup => (by cases hup), rfl⟩, rfl⟩
    · rcases hb with hb | ⟨call, hcall, -⟩
      · rw [hnone] at hb
        cases hb
      · rw [hsettled.calls] at hcall
        cases hcall
    · exact mem_union_iff.mpr (.inl hm)

theorem Settled.manages (h : s.Settled) {b : Bytes} : s.Manages b ↔ s.bondIfnameCurr = some b := by
  simp [Manages, h.calls]

theorem WellFormed.reconfigureUp (h : s.WellFormed) (hreg : s.regState = .up)
    (hlive : ¬ s.destroyed) (hconfig : ConfigOk config) (trace reapply : Bool) :
    Configured config s (s.reconfigureUp trace reapply config) := by
  have hphase := h.phase
  have hfreed := h.freed
  rw [if_neg fun hd => hlive hd.1] at hfreed
  rw [Phase, hreg] at hphase
  obtain ⟨hsettled, hsome, -⟩ := hphase
  have hready := hsettled.ready h hfreed
  obtain ⟨b, hb⟩ := Option.isSome_iff_exists.mp hsome
  have hassert : (s.bondIfnameCurr.isSome && s.bondIfnameNext.isNone && s.activeMembersNext = [] &&
      s.cancellable.isNone && !s.nftInProgress) = true := by
    simp [hsome, hsettled.next, hready.activeNext, hsettled.cancellable, hsettled.inProgress]
  simp only [NMBondManager.reconfigureUp, assert_of hassert]
  cases config with
  | none =>
    refine ⟨hready.callDown (by rw [hb]; rfl) h.curr h.previous trace, ?_, ⟨fun b' hb' => ?_,
      fun m hm => hm, fun hup => (by cases hup), rfl⟩, rfl⟩
    · change s.bondIfnameNext.map _ = none
      rw [hsettled.next]
      rfl
    · exact .inl (hsettled.manages.mp hb')
  | some c =>
    obtain ⟨hname, hnodup⟩ := hconfig c rfl
    dsimp only
    split_ifs with hsame
    · obtain ⟨-, hcurr, hactive⟩ := hsame
      refine ⟨h, ?_, .refl s, rfl⟩
      rw [wanted, hreg]
      simp only [currConfig, ← hcurr, ← hactive, Option.map_some]
    · refine ⟨hready.callUp hname hnodup hlive trace _, rfl, ⟨fun b' hb' => ?_, fun m hm => ?_,
        fun hup => (by cases hup), rfl⟩, rfl⟩
      · have hcurr := hsettled.manages.mp hb'
        refine .inr ⟨s.newCall trace true c.1 s.bondIfnameCurr.toList c.2, ?_, ?_⟩
        · exact mem_append_right _ mem_cons_self
        · rw [hcurr]
          exact mem_cons_self
      · exact mem_union_iff.mpr (.inl hm)

/-- A call to configure is pending. It is cancelled, unless it is what is asked for. -/
theorem WellFormed.reconfigureUpping (h : s.WellFormed) (hreg : s.regState = .upping)
    (hlive : ¬ s.destroyed) (hconfig : ConfigOk config) (reapply : Bool) :
    Configured config s (s.reconfigureUpping reapply config) := by
  have hphase := h.phase
  have hfreed := h.freed
  rw [if_neg fun hd => hlive hd.1] at hfreed
  rw [Phase, hreg] at hphase
  obtain ⟨call, hpending, hactive, hprevious, hforgotten, hcancel⟩ := hphase
  have hassert : (s.bondIfnameCurr.isSome && s.nftInProgress) = true := by
    simp [hpending.bondIfname, hpending.inProgress]
  -- once its cancellable is cleared, the call is cancelled
  have hcancelled (next : Option Bytes) (activeNext : List Bytes)
      (hnames : NamesOk next activeNext) :
      Configured (next.map fun b => (b, activeNext)) s
        { s with
          bondIfnameNext := next
          activeMembersNext := activeNext }.clearCancellable := by
    have hmem : call.cancellable ∈ s.cancellable.toList ++ s.cancelled := by
      rcases hcancel with ⟨hid, -⟩ | ⟨-, hid⟩
      · exact mem_append_left _ (by simp [hid])
      · exact mem_append_right _ hid
    refine ⟨⟨h.ok, ?_, h.curr, hnames, h.idle, fun hd => absurd hd hlive,
      fun id hid => (by cases hid), fun id hid => ?_, h.previous, h.freed⟩, ?_,
      ⟨fun b hb => hb, fun m hm => hm, fun hup => ⟨hup, rfl⟩, rfl⟩, rfl⟩
    · simp only [Phase, clearCancellable, hreg]
      exact ⟨call, ⟨hpending.inProgress, hpending.idle, hpending.calls, hpending.up,
        hpending.bondIfname⟩, hactive, hprevious, hforgotten, .inr ⟨rfl, hmem⟩⟩
    · rcases hid with hid | hid
      · rcases mem_append.mp hid with hid | hid
        · exact h.created id (.inr (by simpa using hid))
        · exact h.created id (.inl hid)
      · cases hid
    · simp only [wanted, clearCancellable, hreg, nextConfig]
      rfl
  simp only [NMBondManager.reconfigureUpping, assert_of hassert]
  cases config with
  | none => exact hcancelled none [] namesOk_none
  | some c =>
    obtain ⟨hname, hnodup⟩ := hconfig c rfl
    dsimp only
    split_ifs with hcurr hnext
    · obtain ⟨-, hid, hbond, hmembers⟩ := hcurr
      have hnone : s.bondIfnameNext = none := by
        rcases hcancel with ⟨-, hnone, -⟩ | ⟨hno, -⟩
        · exact hnone
        · simp [hno] at hid
      have hnames := h.next
      rw [hnone] at hnames
      rw [assert_of (by simp [hnone, hnames.nil])]
      refine ⟨h, ?_, .refl s, rfl⟩
      rw [wanted, hreg]
      simp only [hid, if_true, currConfig, ← hbond, ← hmembers, Option.map_some]
    · obtain ⟨-, hid, hbond, hmembers⟩ := hnext
      refine ⟨h, ?_, .refl s, rfl⟩
      rw [wanted, hreg]
      simp only [Option.isNone_iff_eq_none.mp hid, nextConfig, ← hbond, ← hmembers,
        Option.map_some]
      rfl
    · exact hcancelled (some c.1) c.2 ⟨by simpa using hname, fun _ => rfl, hnodup⟩

theorem WellFormed.reconfigureDowning (h : s.WellFormed) (hreg : s.regState = .downing)
    (hlive : ¬ s.destroyed) (hconfig : ConfigOk config) :
    Configured config s (s.reconfigureDowning config) := by
  have hphase := h.phase
  have hfreed := h.freed
  rw [if_neg fun hd => hlive hd.1] at hfreed
  rw [Phase, hreg] at hphase
  obtain ⟨call, hpending, hdown, hcancellable⟩ := hphase
  have hassert : (s.bondIfnameCurr.isSome && s.nftInProgress) = true := by
    simp [hpending.bondIfname, hpending.inProgress]
  have hnames : NamesOk (config.map Prod.fst) ((config.map Prod.snd).getD []) := by
    cases config with
    | none => exact namesOk_none
    | some c =>
      obtain ⟨hname, hnodup⟩ := hconfig c rfl
      exact ⟨by simpa using hname, fun _ => rfl, hnodup⟩
  have hpair : ((config.map Prod.fst).map fun b => (b, (config.map Prod.snd).getD [])) = config := by
    cases config <;> rfl
  simp only [NMBondManager.reconfigureDowning, assert_of hassert]
  split_ifs with hsame
  · refine ⟨h, ?_, .refl s, rfl⟩
    rw [wanted, hreg]
    simp only [nextConfig, ← hsame.1, ← hsame.2, hpair]
  · refine ⟨⟨h.ok, ?_, h.curr, hnames, h.idle, fun hd => absurd hd hlive, h.cancellable, h.created,
      h.previous, h.freed⟩, ?_, ⟨fun b hb => hb, fun m hm => hm, fun hup => ⟨hup, rfl⟩, rfl⟩, rfl⟩
    · simp only [Phase, hreg]
      exact ⟨call, ⟨hpending.inProgress, hpending.idle, hpending.calls, hpending.up,
        hpending.bondIfname⟩, hdown, hcancellable⟩
    · simp only [wanted, hreg, nextConfig, hpair]

theorem WellFormed.reconfigureDo (h : s.WellFormed) (hlive : ¬ s.destroyed)
    (hconfig : ConfigOk config) (trace reapply : Bool) :
    Configured config s (s.reconfigureDo trace reapply config) := by
  have hfreed := h.freed
  rw [if_neg fun hd => hlive hd.1] at hfreed
  simp only [NMBondManager.reconfigureDo, assert_of (h.assertSelf hfreed)]
  refine Configured.notify ?_
  cases hreg : s.regState with
  | none => exact h.reconfigureNone hreg hlive hconfig trace
  | upping => exact h.reconfigureUpping hreg hlive hconfig reapply
  | up => exact h.reconfigureUp hreg hlive hconfig trace reapply
  | downing => exact h.reconfigureDowning hreg hlive hconfig

theorem checkedConfig_ok (s : NMBondManager) (links : List NMPlatformLink) :
    ConfigOk (s.checkedConfig links) := by
  intro c hc
  obtain ⟨plinkCtrl, -, rfl⟩ := Option.map_eq_some_iff.mp hc
  exact ⟨plinkCtrl.name_ne, activeMembersResult_nodup _ _⟩

/-- The configuration that there will be is the one that was found by the last check. -/
def Tracked (s : NMBondManager) : Prop := ¬ s.destroyed → s.wanted = s.lastCheck

/-- What a check makes of a state. -/
structure Checked (s s' : NMBondManager) : Prop where
  wellFormed : s'.WellFormed
  tracked : s'.Tracked
  keeps : s.Keeps s'

theorem WellFormed.reconfigureCheckNow (h : s.WellFormed) (hlive : ¬ s.destroyed) (trace : Bool)
    (links : List NMPlatformLink) (reapply : Bool) :
    s.Checked (s.reconfigureCheckNow trace links reapply) := by
  have hfreed := h.freed
  rw [if_neg fun hd => hlive hd.1] at hfreed
  have hdestroyed : (!s.destroyed) = true := by simpa using hlive
  have hok : (s.ok && ((s.checkedConfig links).isNone || s.membersComplete links)) = true := by
    rw [h.ok, membersComplete_eq, Bool.or_true, Bool.and_true]
  simp only [NMBondManager.reconfigureCheckNow, assert_of (h.assertSelf hfreed),
    assert_of hdestroyed, hok]
  have hphase := h.phase
  generalize hconfig : s.checkedConfig links = config
  have hwf : { s with
      reconfigureCheck := false
      reconfigureOnIdleSource := false
      previousIfindexes :=
        if config.isSome then (runningPorts links s.ifindex).map NMPlatformLink.ifindex else []
      lastCheck := config
      ok := true }.WellFormed :=
    ⟨rfl, hphase.frame rfl rfl rfl rfl rfl rfl rfl rfl rfl rfl fun _ => rfl, h.curr, h.next,
      fun hsource => (by cases hsource), fun hd => absurd hd hlive, h.cancellable, h.created,
      h.previous, h.freed⟩
  have hchecked := hwf.reconfigureDo hlive (hconfig ▸ checkedConfig_ok s links) trace reapply
  obtain ⟨hmanages, hprevious, hup, hsame⟩ := hchecked.keeps
  exact ⟨hchecked.wellFormed, fun _ => hchecked.wanted.trans hchecked.lastCheck.symm,
    ⟨hmanages, hprevious, hup, hsame⟩⟩

theorem Checked.notify (h : s.Checked s') : s.Checked s'.notifyStateChange := by
  have hwellFormed := h.wellFormed.notify
  obtain ⟨state, events, heq⟩ := notifyStateChange_eq s'
  rw [heq] at hwellFormed ⊢
  obtain ⟨hmanages, hprevious, hup, hdestroyed⟩ := h.keeps
  exact ⟨hwellFormed, h.tracked, ⟨hmanages, hprevious, hup, hdestroyed⟩⟩

/-! ## Completions -/

theorem WellFormed.callOut_regState (h : s.WellFormed) (hdestroyed : s.destroyed) (trace : Bool)
    (links : List NMPlatformLink) : (s.callOut trace links).regState = s.regState := by
  obtain ⟨state, events, heq⟩ := notifyStateChange_eq s
  rw [NMBondManager.callOut, if_neg (by simp [(h.destroyed hdestroyed).2.1]), heq]

theorem WellFormed.callOut (h : s.WellFormed) (htracked : s.Tracked)
    (hidle : s.reconfigureOnIdleSource = false) (trace : Bool) (links : List NMPlatformLink) :
    s.Checked (s.callOut trace links) := by
  refine Checked.notify ?_
  split_ifs with hcheck hdestroyed hprogress
  · have hno := (h.destroyed hdestroyed).2.1
    rw [hcheck] at hno
    cases hno
  · rw [assert_of (by simp [hidle])]
    exact h.reconfigureCheckNow hdestroyed trace links false
  · exact ⟨h, htracked, .refl s⟩
  · exact ⟨h, htracked, .refl s⟩

/-- The names that the manager still deals with after a completion. -/
def Remains (s : NMBondManager) (b : Bytes) : Prop :=
  (s.bondIfnameCurr = some b ∧ (s.regState = .upping ∨ s.bondIfnameNext.isSome)) ∨
    s.bondIfnameNext = some b

/-- `s'` is what becomes of `s` when `call` completes, before the next check. -/
structure Completed (error : Option NftError) (call : NftCall) (s s' : NMBondManager) : Prop where
  wellFormed : s'.WellFormed
  tracked : s.Tracked → s'.Tracked
  idle : s'.reconfigureOnIdleSource = false
  remains : ∀ b, s.Remains b → s'.Manages b
  previous : ∀ m ∈ s.previousMembers,
    (error.isSome ∨ (call.up = true ∧ m ∉ call.previousMembers)) → m ∈ s'.previousMembers
  up : s'.regState = .up → s.regState = .upping ∧ error ≠ some .cancelled ∧
    s'.currConfig = s.currConfig
  destroyed : s'.destroyed = s.destroyed
  /-- One that was cancelled while there is nothing else to configure goes down, and is gone then. -/
  state : s.bondIfnameNext = none → (error = some .cancelled → s'.regState = .downing) ∧
    (s.regState = .downing → s'.regState = .none)

/-- The manager once its call is gone, with what is left of the previous members. -/
def afterCall (s : NMBondManager) (members : List Bytes) (good : Bool) : NMBondManager :=
  { s with
    calls := []
    nftInProgress := false
    previousMembers := members
    cancellable := none
    cancelled := s.cancellable.toList ++ s.cancelled
    nftGood := good }

variable {error : Option NftError} {call : NftCall} {members : List Bytes} {up : Bool}

/-- The members that the call deleted successfully are forgotten, and no others. -/
def Kept (s : NMBondManager) (error : Option NftError) (call : NftCall) (members : List Bytes) :
    Prop :=
  ∀ m ∈ s.previousMembers, (error.isSome ∨ (call.up = true ∧ m ∉ call.previousMembers)) →
    m ∈ members

theorem exists_afterCall (s : NMBondManager) (error : Option NftError) (call : NftCall) :
    ∃ members, s.Kept error call members ∧
      ({ s with calls := [], nftInProgress := false }.prunePrevious error call.up
        call.previousMembers).clearCancellable = s.afterCall members s.nftGood := by
  cases error with
  | some e => exact ⟨s.previousMembers, fun m hm _ => hm, rfl⟩
  | none =>
    refine ⟨if call.up then s.previousMembers.filter (· ∉ call.previousMembers) else [],
      fun m hm hkept => ?_, rfl⟩
    rcases hkept with hno | ⟨hup, hm'⟩
    · cases hno
    · rw [if_pos hup]
      exact mem_filter.mpr ⟨hm, decide_eq_true hm'⟩

section

variable (h : s.WellFormed)

include h

theorem WellFormed.created_afterCall (members : List Bytes) (good : Bool) :
    ∀ id, (id ∈ (s.afterCall members good).cancelled ∨
      (s.afterCall members good).cancellable = some id) → id < s.nextCancellable := by
  rintro id (hid | hid)
  · rcases mem_append.mp hid with hid | hid
    · exact h.created id (.inr (by simpa using hid))
    · exact h.created id (.inl hid)
  · cases hid

theorem WellFormed.afterCall_ready (hpending : s.Pending up call) (hfreed : s.freed = 0)
    (members : List Bytes) (good : Bool) :
    { s.afterCall members good with bondIfnameNext := none, activeMembersNext := [] }.Ready :=
  ⟨h.ok, rfl, fun hsource => absurd (hsource.symm.trans hpending.idle) (by decide),
    fun hd => (h.destroyed hd).2, h.created_afterCall members good, rfl, rfl, hfreed⟩

theorem WellFormed.callNext (hpending : s.Pending up call) (hlive : ¬ s.destroyed)
    (hwanted : s.wanted = s.nextConfig) (hkept : s.Kept error call members) {next : Bytes}
    (hnext : s.bondIfnameNext = some next) (trace good : Bool) :
    Completed error call s ((s.afterCall members good).callNext trace next) := by
  have hfreed := h.freed
  rw [if_neg fun hd => hlive hd.1] at hfreed
  have hready := h.afterCall_ready hpending hfreed members good
  have hnames := h.next
  rw [hnext] at hnames
  have hname : next ≠ [] := fun hnil => hnames.ne (by rw [hnil])
  refine ⟨hready.callUp hname hnames.nodup hlive trace s.bondIfnameCurr.toList,
    fun htracked hlive' => ?_, hready.nftCall_idle trace true next [] [], fun b hb => ?_,
    fun m hm hk => ?_, fun hup => (by cases hup), rfl, fun hno => by simp [hnext] at hno⟩
  · change some (next, s.activeMembersNext) = s.lastCheck
    rw [← htracked hlive', hwanted, nextConfig, hnext, Option.map_some]
  · rcases hb with ⟨hb, -⟩ | hb
    · refine .inr ⟨_, mem_append_right _ mem_cons_self, ?_⟩
      change b ∈ s.bondIfnameCurr.toList
      rw [hb]
      exact mem_cons_self
    · rw [hnext] at hb
      exact .inl hb
  · exact mem_union_iff.mpr (.inl (hkept m hm hk))

theorem WellFormed.cancelledDown (hpending : s.Pending up call) (hreg : s.regState = .upping)
    (hwanted : s.wanted = s.nextConfig) (hkept : s.Kept (some .cancelled) call members)
    (hnext : s.bondIfnameNext = none) (trace good : Bool) :
    Completed (some .cancelled) call s
      { (s.afterCall members good).nftCall trace false (s.bondIfnameCurr.getD []) [] [] with
        regState := .downing } := by
  have hfreed := h.freed
  rw [if_neg fun hd => by simp [hreg] at hd] at hfreed
  have hready := h.afterCall_ready hpending hfreed members good
  have hnames := h.next
  rw [hnext] at hnames
  have hsame : { s.afterCall members good with bondIfnameNext := none, activeMembersNext := [] } =
      s.afterCall members good := by
    rw [← hnext, ← hnames.nil]
    rfl
  rw [hsame] at hready
  have hcurr : s.bondIfnameCurr = some (s.bondIfnameCurr.getD []) := by rw [hpending.bondIfname]; rfl
  refine ⟨hready.callDown hcurr h.curr (fun m hm => hkept m (h.previous m hm) (.inl rfl)) trace,
    fun htracked hlive => ?_, hready.nftCall_idle trace false (s.bondIfnameCurr.getD []) [] [], fun b hb => ?_,
    fun m hm hk => hkept m hm hk, fun hup => (by cases hup), rfl,
    fun _ => ⟨fun _ => rfl, fun hdown => by simp [hreg] at hdown⟩⟩
  · change s.nextConfig = s.lastCheck
    rw [← htracked hlive, hwanted]
  · rcases hb with ⟨hb, -⟩ | hb
    · exact .inl hb
    · rw [hnext] at hb
      cases hb

theorem WellFormed.completedUp (hpending : s.Pending true call) (hreg : s.regState = .upping)
    (hlive : ¬ s.destroyed) (hid : s.cancellable.isSome)
    (hactive : call.activeMembers = s.activeMembersCurr) (hnext : s.bondIfnameNext = none)
    (hforgotten : ∀ m ∈ call.activeMembers, m ∉ call.previousMembers)
    (hkept : s.Kept error call members) (herror : error ≠ some .cancelled) (good : Bool) :
    Completed error call s { s.afterCall members good with regState := .up } := by
  have hfreed := h.freed
  rw [if_neg fun hd => hlive hd.1] at hfreed
  have hsource (hsource : s.reconfigureOnIdleSource = true) : False :=
    absurd (hsource.symm.trans hpending.idle) (by decide)
  refine ⟨⟨h.ok, ⟨⟨rfl, rfl, rfl, hnext⟩, ?_, hlive⟩, h.curr, h.next,
    fun hsrc => (hsource hsrc).elim, fun hd => absurd hd hlive, fun id hid => (by cases hid),
    h.created_afterCall members good, fun m hm => ?_, ?_⟩, fun htracked hlive' => ?_, hpending.idle,
    fun b hb => ?_, fun m hm hk => hkept m hm hk, fun _ => ⟨hreg, herror, rfl⟩, rfl,
    fun _ => ⟨fun hcancelled => absurd hcancelled herror, fun hdown => by simp [hreg] at hdown⟩⟩
  · change s.bondIfnameCurr.isSome
    rw [hpending.bondIfname]
    rfl
  · exact hkept m (h.previous m hm) (.inr ⟨hpending.up, hforgotten m (hactive ▸ hm)⟩)
  · change s.freed = _
    rw [hfreed, if_neg fun hd => hlive hd.1]
  · change s.currConfig = s.lastCheck
    rw [← htracked hlive', wanted, hreg]
    simp [hid]
  · rcases hb with ⟨hb, -⟩ | hb
    · exact .inl hb
    · rw [hnext] at hb
      cases hb

theorem WellFormed.completedDown (hpending : s.Pending false call) (hreg : s.regState = .downing)
    (hlive : ¬ s.destroyed) (hnext : s.bondIfnameNext = none) (hkept : s.Kept error call members)
    (herror : error ≠ some .cancelled) (good : Bool) :
    Completed error call s { s.afterCall members good with
      bondIfnameCurr := none
      activeMembersCurr := []
      regState := .none } := by
  have hfreed := h.freed
  rw [if_neg fun hd => hlive hd.1] at hfreed
  have hsource (hsource : s.reconfigureOnIdleSource = true) : False :=
    absurd (hsource.symm.trans hpending.idle) (by decide)
  refine ⟨⟨h.ok, ⟨⟨rfl, rfl, rfl, hnext⟩, rfl⟩, namesOk_none, h.next,
    fun hsrc => (hsource hsrc).elim, fun hd => absurd hd hlive, fun id hid => (by cases hid),
    h.created_afterCall members good, fun m hm => (by cases hm), ?_⟩, fun htracked hlive' => ?_,
    hpending.idle, fun b hb => ?_, fun m hm hk => hkept m hm hk, fun hup => (by cases hup), rfl,
    fun _ => ⟨fun hcancelled => absurd hcancelled herror, fun _ => rfl⟩⟩
  · change s.freed = _
    rw [hfreed, if_neg fun hd => hlive hd.1]
  · change none = s.lastCheck
    rw [← htracked hlive', wanted, hreg]
    simp [nextConfig, hnext]
  · rcases hb with ⟨-, hup | hsome⟩ | hb
    · rw [hreg] at hup
      cases hup
    · rw [hnext] at hsome
      cases hsome
    · rw [hnext] at hb
      cases hb

theorem WellFormed.completedDestroyed (hpending : s.Pending false call)
    (hreg : s.regState = .downing) (hdestroyed : s.destroyed) (hkept : s.Kept error call members)
    (herror : error ≠ some .cancelled) (good : Bool) :
    Completed error call s (bondManagerDestroy { s.afterCall members good with
      bondIfnameCurr := none
      activeMembersCurr := []
      regState := .none }) := by
  have hfreed := h.freed
  rw [if_neg fun hd => by simp [hreg] at hd] at hfreed
  obtain ⟨hnext, hcheck, hlink⟩ := h.destroyed hdestroyed
  have hsource (hsource : s.reconfigureOnIdleSource = true) : False :=
    absurd (hsource.symm.trans hpending.idle) (by decide)
  refine ⟨⟨?_, ⟨⟨rfl, rfl, rfl, rfl⟩, rfl⟩, namesOk_none, namesOk_none,
    fun hsrc => (hsource hsrc).elim, fun _ => ⟨rfl, hcheck, hlink⟩, fun id hid => (by cases hid),
    h.created_afterCall members good, fun m hm => (by cases hm), ?_⟩,
    fun _ hlive => absurd hdestroyed hlive, hpending.idle, fun b hb => ?_,
    fun m hm hk => hkept m hm hk, fun hup => (by cases hup), rfl,
    fun _ => ⟨fun hcancelled => absurd hcancelled herror, fun _ => rfl⟩⟩
  · simp [bondManagerDestroy, clearNext, assert, afterCall, h.ok, hdestroyed, hlink, hpending.idle]
  · change s.freed + 1 = _
    rw [hfreed, if_pos ⟨hdestroyed, rfl⟩]
  · rcases hb with ⟨-, hup | hsome⟩ | hb
    · rw [hreg] at hup
      cases hup
    · rw [hnext] at hsome
      cases hsome
    · rw [hnext] at hb
      cases hb

theorem WellFormed.callCancelled (hcalls : call ∈ s.calls)
    (hcancelled : call.cancellable ∈ s.cancelled) (hkept : s.Kept (some .cancelled) call members)
    (trace good : Bool) :
    Completed (some .cancelled) call s ((s.afterCall members good).callCancelled trace) := by
  have hregState : (s.afterCall members good).regState = s.regState := rfl
  have hbondIfnameNext : (s.afterCall members good).bondIfnameNext = s.bondIfnameNext := rfl
  rw [NMBondManager.callCancelled, hregState]
  rcases h.pending_cases hcalls with ⟨hreg, hupping⟩ | ⟨hreg, hdowning⟩
  · have hpending := hupping.toPending
    have hid : s.cancellable = none := by
      rcases hupping.cancel with ⟨hid, -⟩ | ⟨hid, -⟩
      · exact absurd hcancelled (h.cancellable _ hid)
      · exact hid
    have hwanted : s.wanted = s.nextConfig := by
      rw [wanted, hreg]
      simp [hid]
    have hassert : (s.afterCall members good).bondIfnameCurr.isSome = true := by
      change s.bondIfnameCurr.isSome = true
      rw [hpending.bondIfname]
      rfl
    simp only [hreg, assert_of hassert, hbondIfnameNext]
    cases hnext : s.bondIfnameNext with
    | none => exact h.cancelledDown hpending hreg hwanted hkept hnext trace good
    | some next =>
      have hlive : ¬ s.destroyed := fun hd => by simp [(h.destroyed hd).1] at hnext
      exact h.callNext hpending hlive hwanted hkept hnext trace good
  · exact absurd hcancelled (h.cancellable _ hdowning.cancellable)

/-- A call was not cancelled. -/
theorem WellFormed.callFinished (hs : s.Tracked) (hcalls : call ∈ s.calls)
    (hcancelled : call.cancellable ∉ s.cancelled) (hkept : s.Kept error call members)
    (herror : error ≠ some .cancelled) (trace good : Bool) (links : List NMPlatformLink) :
    ∃ s', Completed error call s s' ∧
      s'.Checked ((s.afterCall members good).callFinished trace links) ∧
      (s.destroyed → ((s.afterCall members good).callFinished trace links).regState =
        s'.regState) := by
  have hregState : (s.afterCall members good).regState = s.regState := rfl
  have hbondIfnameNext : (s.afterCall members good).bondIfnameNext = s.bondIfnameNext := rfl
  have hout {s' : NMBondManager} (h : Completed error call s s') :
      ∃ s'', Completed error call s s'' ∧ s''.Checked (s'.callOut trace links) ∧
        (s.destroyed → (s'.callOut trace links).regState = s''.regState) :=
    ⟨s', h, h.wellFormed.callOut (h.tracked hs) h.idle trace links, fun hd =>
      h.wellFormed.callOut_regState (h.destroyed.trans hd) trace links⟩
  rw [NMBondManager.callFinished, hregState]
  rcases h.pending_cases hcalls with ⟨hreg, hupping⟩ | ⟨hreg, hdowning⟩
  · rcases hupping.cancel with ⟨hid, hnext, hlive⟩ | ⟨-, hmem⟩
    · have hassert : (s.afterCall members good).bondIfnameNext.isNone = true := by
        rw [hbondIfnameNext, hnext]
        rfl
      simp only [hreg, assert_of hassert]
      exact hout (h.completedUp hupping.toPending hreg hlive (by rw [hid]; rfl) hupping.active hnext
        hupping.forgotten hkept herror good)
    · exact absurd hmem hcancelled
  · have hpending := hdowning.toPending
    have hassert : (s.afterCall members good).bondIfnameCurr.isSome = true := by
      change s.bondIfnameCurr.isSome = true
      rw [hpending.bondIfname]
      rfl
    simp only [hreg, assert_of hassert]
    split
    case h_1 hnext =>
      split_ifs with hdestroyed
      · have hcompleted := h.completedDestroyed hpending hreg hdestroyed hkept herror good
        exact ⟨_, hcompleted, ⟨hcompleted.wellFormed, hcompleted.tracked hs, .refl _⟩, fun _ => rfl⟩
      · exact hout (h.completedDown hpending hreg hdestroyed hnext hkept herror good)
    case h_2 next hnext =>
      rw [hbondIfnameNext] at hnext
      have hlive : ¬ s.destroyed := fun hd => by simp [(h.destroyed hd).1] at hnext
      have hwanted : s.wanted = s.nextConfig := by rw [wanted, hreg]
      exact hout (h.callNext hpending hlive hwanted hkept hnext trace good)

theorem WellFormed.freed_eq_zero (hcalls : call ∈ s.calls) : s.freed = 0 := by
  rw [h.freed, if_neg]
  rintro ⟨-, hnone⟩
  rcases h.pending_cases hcalls with ⟨hreg, -⟩ | ⟨hreg, -⟩
  · rw [hnone] at hreg
    cases hreg
  · rw [hnone] at hreg
    cases hreg

theorem WellFormed.nftCallCb (hs : s.Tracked) (hcalls : call ∈ s.calls)
    (herror : error = some .cancelled ↔ call.cancellable ∈ s.cancelled) (trace : Bool)
    (links : List NMPlatformLink) :
    ∃ s', Completed error call s s' ∧ s'.Checked
      ({ s with calls := [] }.nftCallCb trace links error call.up call.previousMembers) ∧
      (s.destroyed → ({ s with calls := [] }.nftCallCb trace links error call.up
        call.previousMembers).regState = s'.regState) := by
  obtain ⟨members, hkept, hafter⟩ := s.exists_afterCall error call
  have hassert : { s with calls := [] }.assertSelf = true := h.assertSelf (h.freed_eq_zero hcalls)
  simp only [NMBondManager.nftCallCb, assert_of hassert, hafter]
  split_ifs with hcancelled
  · subst hcancelled
    have hcompleted := h.callCancelled hcalls (herror.mp rfl) hkept trace s.nftGood
    exact ⟨_, hcompleted,
      hcompleted.wellFormed.callOut (hcompleted.tracked hs) hcompleted.idle trace links, fun hd =>
        hcompleted.wellFormed.callOut_regState (hcompleted.destroyed.trans hd) trace links⟩
  · exact h.callFinished hs hcalls (fun hmem => hcancelled (herror.mpr hmem)) hkept hcancelled trace
      error.isNone links

end

/-! ## The other entry points -/

theorem WellFormed.linkChanged (h : s.WellFormed) (hs : s.Tracked) (ifindex : ℤ)
    (plink : NMPlatformLink) : s.Checked (s.linkChanged ifindex plink) := by
  unfold NMBondManager.linkChanged
  split_ifs with hcheck hdestroyed hrelevant
  · exact ⟨h, hs, .refl s⟩
  · exact ⟨h, hs, .refl s⟩
  · refine ⟨⟨h.ok, ?_, h.curr, h.next, fun hsource => ⟨rfl, by simpa using hsource⟩,
      fun hd => absurd hd hdestroyed, h.cancellable, h.created, h.previous, h.freed⟩, hs,
      ⟨fun _ hb => hb, fun _ hm => hm, fun hup => ⟨hup, rfl⟩, rfl⟩⟩
    refine h.phase.frame rfl rfl rfl rfl rfl rfl rfl rfl rfl rfl fun hprogress => ?_
    simp [hprogress]
  · exact ⟨h, hs, .refl s⟩

theorem WellFormed.reconfigureCheckOnIdle (h : s.WellFormed) (hidle : s.reconfigureOnIdleSource)
    (trace : Bool) (links : List NMPlatformLink) :
    s.Checked (s.reconfigureCheckOnIdle trace links) := by
  obtain ⟨hcheck, hprogress⟩ := h.idle hidle
  have hlive : ¬ s.destroyed := fun hd => by simp [(h.destroyed hd).2.1] at hcheck
  rw [NMBondManager.reconfigureCheckOnIdle, assert_of (by simpa using hprogress)]
  exact h.reconfigureCheckNow hlive trace links false

/-- What is left when the owner does not need the manager any more. -/
theorem WellFormed.destroy (h : s.WellFormed) (hlive : ¬ s.destroyed) (trace : Bool) :
    { s with destroyed := true }.Checked (s.destroy trace) := by
  have hfreed := h.freed
  rw [if_neg fun hd => hlive hd.1] at hfreed
  have hphase := h.phase
  unfold NMBondManager.destroy
  dsimp only [clearNext]
  cases hreg : s.regState with
  | none =>
    rw [Phase, hreg] at hphase
    obtain ⟨hsettled, hnone⟩ := hphase
    have hcurr := h.curr
    rw [hnone] at hcurr
    refine ⟨⟨?_, ?_, ?_, namesOk_none, fun hsrc => (by cases hsrc), fun _ => ⟨rfl, rfl, rfl⟩,
      h.cancellable, h.created, h.previous, ?_⟩, fun hno => absurd rfl hno,
      ⟨fun _ hb => hb, fun _ hm => hm, fun hup => ⟨hup, rfl⟩, rfl⟩⟩
    · simp [bondManagerDestroy, clearNext, assert, h.ok, hsettled.cancellable, hnone,
hcurr.nil]
    · simp only [Phase, bondManagerDestroy, clearNext, assert]
      exact ⟨⟨hsettled.inProgress, hsettled.calls, hsettled.cancellable, rfl⟩, hnone⟩
    · exact h.curr
    · change s.freed + 1 = _
      rw [hfreed]
      rfl
  | upping =>
    rw [Phase, hreg] at hphase
    obtain ⟨call, hpending, hactive, hprevious, hforgotten, hcancel⟩ := hphase
    have hmem : call.cancellable ∈ s.cancellable.toList ++ s.cancelled := by
      rcases hcancel with ⟨hid, -⟩ | ⟨-, hid⟩
      · exact mem_append_left _ (by simp [hid])
      · exact mem_append_right _ hid
    refine ⟨⟨h.ok, ?_, h.curr, namesOk_none, fun hsrc => (by cases hsrc),
      fun _ => ⟨rfl, rfl, rfl⟩, fun id hid => (by cases hid), h.created_afterCall [] true, h.previous, ?_⟩,
      fun hno => absurd rfl hno, ⟨fun _ hb => hb, fun _ hm => hm, fun hup => ⟨hup, rfl⟩, rfl⟩⟩
    · simp only [Phase, clearCancellable]
      exact ⟨call, ⟨hpending.inProgress, rfl, hpending.calls, hpending.up, hpending.bondIfname⟩,
        hactive, hprevious, hforgotten, .inr ⟨rfl, hmem⟩⟩
    · change s.freed = _
      rw [hfreed]
      rfl
  | up =>
    rw [Phase, hreg] at hphase
    obtain ⟨hsettled, hsome, -⟩ := hphase
    have hcurr : s.bondIfnameCurr = some (s.bondIfnameCurr.getD []) := by
      obtain ⟨b, hb⟩ := Option.isSome_iff_exists.mp hsome
      rw [hb]
      rfl
    have hready : { s with
        bondIfnameNext := none
        activeMembersNext := []
        destroyed := true
        callback := false
        linkChangedId := false
        reconfigureOnIdleSource := false
        reconfigureCheck := false }.Ready :=
      ⟨h.ok, hsettled.calls, fun hsrc => (by cases hsrc), fun _ => ⟨rfl, rfl⟩, h.created, rfl, rfl,
        hfreed⟩
    refine ⟨hready.callDown hcurr h.curr h.previous trace, fun hno => absurd rfl hno,
      ⟨fun b hb => ?_, fun _ hm => hm, fun hup => (by cases hup), rfl⟩⟩
    exact .inl (hsettled.manages.mp hb)
  | downing =>
    rw [Phase, hreg] at hphase
    obtain ⟨call, hpending, hdown, hid⟩ := hphase
    refine ⟨⟨h.ok, ?_, h.curr, namesOk_none, fun hsrc => (by cases hsrc),
      fun _ => ⟨rfl, rfl, rfl⟩, h.cancellable, h.created, h.previous, ?_⟩,
      fun hno => absurd rfl hno, ⟨fun _ hb => hb, fun _ hm => hm, fun hup => ⟨hup, rfl⟩, rfl⟩⟩
    · simp only [Phase]
      exact ⟨call, ⟨hpending.inProgress, rfl, hpending.calls, hpending.up, hpending.bondIfname⟩,
        hdown, hid⟩
    · change s.freed = _
      rw [hfreed]
      rfl

theorem init_wellFormed (ifindex : ℤ) (callback : Bool) : (init ifindex callback).WellFormed := by
  refine ⟨rfl, ⟨⟨rfl, rfl, rfl, rfl⟩, rfl⟩, namesOk_none, namesOk_none,
    fun hsrc => (by cases hsrc), fun hd => (by cases hd), fun id hid => (by cases hid), ?_,
    fun m hm => (by cases hm), rfl⟩
  rintro id (hid | hid)
  · cases hid
  · cases hid

end NMBondManager

end NetworkManager.Core
