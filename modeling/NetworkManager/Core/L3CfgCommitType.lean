import Mathlib.Data.List.Chain
import Mathlib.Data.List.Sort
import NetworkManager.Core.L3CfgNdiscParams

/-!
# The commit type of an interface

Users of an interface register at its `NML3Cfg` how much a commit is to do, and the most that
anybody wants is done. Commits are scheduled on an idle handler, which collects the types that are
asked for until it runs. After a commit that could add something the next one can remove it again.
-/

namespace NetworkManager.Core

open Lib

namespace NML3CfgCommitType

def toNat : NML3CfgCommitType → ℕ
  | auto => 0
  | none => 1
  | update => 2
  | reapply => 3

theorem toNat_injective : Function.Injective toNat := by
  intro a b h
  cases a <;> cases b <;> first | rfl | exact absurd h (by decide)

instance : LinearOrder NML3CfgCommitType := LinearOrder.lift' toNat toNat_injective

end NML3CfgCommitType

/-- `NML3CfgCommitTypeHandle` with its address. -/
structure CommitTypeHandle where
  handle : ℕ
  commitType : NML3CfgCommitType
  deriving DecidableEq

/-- What `_l3_commit()` does: the type that it comes to, and `is_sticky_update`. -/
structure L3Commit where
  commitType : NML3CfgCommitType
  isStickyUpdate : Bool
  deriving DecidableEq

/-- What of `NML3Cfg` the type of a commit depends on. There is a `commit_on_idle_type` while there
is a `commit_on_idle_source`; `commits` are those done so far, the last one first. -/
structure L3CfgCommits where
  commitTypeLst : List CommitTypeHandle
  allocated : ℕ
  commitTypeUpdateSticky : Bool
  commitOnIdle : Option NML3CfgCommitType
  commits : List L3Commit
  deriving DecidableEq

namespace L3CfgCommits

def init : L3CfgCommits := ⟨[], 0, false, none, []⟩

def commitTypeGet (self : L3CfgCommits) : NML3CfgCommitType :=
  (self.commitTypeLst.head?.map CommitTypeHandle.commitType).getD .none

def commitOnIdleSchedule (self : L3CfgCommits) (commitType : NML3CfgCommitType) : L3CfgCommits :=
  match self.commitOnIdle with
  | some t => if t < commitType then { self with commitOnIdle := some commitType } else self
  | none => { self with commitOnIdle := some commitType }

/-- The handle is linked before the first one that is not higher. -/
def link (handle : CommitTypeHandle) (lst : List CommitTypeHandle) : List CommitTypeHandle :=
  lst.orderedInsert (fun a b => b.commitType ≤ a.commitType) handle

def unlink (handle : ℕ) (lst : List CommitTypeHandle) : List CommitTypeHandle :=
  lst.filter (·.handle ≠ handle)

def commitTypeUnregister (self : L3CfgCommits) (handle : ℕ) : L3CfgCommits :=
  let self := self.commitOnIdleSchedule .auto
  { self with commitTypeLst := unlink handle self.commitTypeLst }

def commitTypeRegister (self : L3CfgCommits) (commitType : NML3CfgCommitType) :
    Option ℕ → L3CfgCommits
  | some handle =>
    if commitType = .none then self.commitTypeUnregister handle
    else if ⟨handle, commitType⟩ ∈ self.commitTypeLst then self
    else
      let lst := link ⟨handle, commitType⟩ (unlink handle self.commitTypeLst)
      { self with commitTypeLst := lst }.commitOnIdleSchedule .auto
  | none =>
    if commitType = .none then self
    else
      let lst := link ⟨self.allocated, commitType⟩ self.commitTypeLst
      { self with commitTypeLst := lst, allocated := self.allocated + 1 }.commitOnIdleSchedule .auto

def commitTypeResetUpdate (self : L3CfgCommits) : L3CfgCommits :=
  if ∃ h ∈ self.commitTypeLst, .update ≤ h.commitType then self
  else { self with commitTypeUpdateSticky := false }

/-- The type of a commit, before it is raised because of the last one. -/
def commitTypeOf (self : L3CfgCommits) (commitType : NML3CfgCommitType) : NML3CfgCommitType :=
  if commitType = .auto ∨ commitType < self.commitTypeGet then self.commitTypeGet else commitType

/-- `_l3_commit()`, without the objects that it syncs. -/
def l3Commit (self : L3CfgCommits) (commitType : NML3CfgCommitType) : L3CfgCommits :=
  let t := self.commitTypeOf commitType
  let commit : L3Commit :=
    if t < .update ∧ self.commitTypeUpdateSticky then ⟨.update, true⟩ else ⟨t, false⟩
  { self with
    commitTypeUpdateSticky := decide (.update ≤ t)
    commitOnIdle := none
    commits := commit :: self.commits }

/-- `_l3_commit_on_idle_cb()` -/
def commitOnIdleCb (self : L3CfgCommits) : Option L3CfgCommits :=
  self.commitOnIdle.map fun t => { self with commitOnIdle := none }.l3Commit t

inductive Event
  | register (commitType : NML3CfgCommitType) (existingHandle : Option ℕ)
  | unregister (handle : ℕ)
  | schedule (commitType : NML3CfgCommitType)
  | commit (commitType : NML3CfgCommitType)
  | idle
  | resetUpdate
  deriving DecidableEq

/-- One call, if what it asserts holds. -/
def step (self : L3CfgCommits) : Event → Option L3CfgCommits
  | .register commitType existing =>
    if (commitType = .none ∨ commitType = .update) ∧
        ∀ handle ∈ existing, handle ∈ self.commitTypeLst.map CommitTypeHandle.handle then
      some (self.commitTypeRegister commitType existing)
    else none
  | .unregister handle =>
    if handle ∈ self.commitTypeLst.map CommitTypeHandle.handle then
      some (self.commitTypeUnregister handle)
    else none
  | .schedule commitType =>
    if commitType = .none then none else some (self.commitOnIdleSchedule commitType)
  | .commit commitType => some (self.l3Commit commitType)
  | .idle => self.commitOnIdleCb
  | .resetUpdate => some self.commitTypeResetUpdate

def run (self : L3CfgCommits) (events : List Event) : Option L3CfgCommits := events.foldlM step self

/-! ## What is registered -/

variable {s s' s₁ : L3CfgCommits} {lst : List CommitTypeHandle} {t : NML3CfgCommitType} {e : Event}
  {events : List Event}

/-- The highest type comes first. -/
def Sorted (lst : List CommitTypeHandle) : Prop :=
  lst.Pairwise fun a b => b.commitType ≤ a.commitType

theorem sorted_link {h : CommitTypeHandle} (hlst : Sorted lst) : Sorted (link h lst) := by
  have htotal : Std.Total fun a b : CommitTypeHandle => b.commitType ≤ a.commitType :=
    ⟨fun a b => le_total b.commitType a.commitType⟩
  have htrans : IsTrans CommitTypeHandle fun a b => b.commitType ≤ a.commitType :=
    ⟨fun a b c hab hbc => hbc.trans hab⟩
  exact hlst.orderedInsert _ _

theorem sorted_unlink (handle : ℕ) (h : Sorted lst) : Sorted (unlink handle lst) :=
  List.Pairwise.filter _ h

/-- The highest type that is asked for stays scheduled. -/
theorem commitOnIdleSchedule_spec : ∃ t',
    s.commitOnIdleSchedule t = { s with commitOnIdle := some t' } ∧ t ≤ t' ∧
      ∀ t₀ ∈ s.commitOnIdle, t₀ ≤ t' := by
  unfold commitOnIdleSchedule
  split
  case h_1 t₀ hidle =>
    split
    case isTrue hlt => exact ⟨t, rfl, le_rfl, by simpa [hidle] using hlt.le⟩
    case isFalse hle =>
      have hsame : s = { s with commitOnIdle := some t₀ } := by rw [← hidle]
      exact ⟨t₀, hsame, not_lt.mp hle, by simp [hidle]⟩
  case h_2 hidle => exact ⟨t, rfl, le_rfl, by simp [hidle]⟩

theorem le_commitTypeGet_iff (h : Sorted s.commitTypeLst) (t : NML3CfgCommitType) :
    t ≤ s.commitTypeGet ↔ (∃ h ∈ s.commitTypeLst, t ≤ h.commitType) ∨
      s.commitTypeLst = [] ∧ t ≤ .none := by
  unfold Sorted at h
  unfold commitTypeGet
  cases hlst : s.commitTypeLst with
  | nil => simp
  | cons head lst =>
    rw [hlst] at h
    simp only [List.mem_cons, exists_eq_or_imp, reduceCtorEq, false_and, or_false]
    refine ⟨.inl, fun hle => hle.elim id ?_⟩
    rintro ⟨h', hh', hle⟩
    exact hle.trans ((List.pairwise_cons.mp h).1 h' hh')

/-! ## One commit after the other -/

def Event.IsCommit (e : Event) : Prop := e = .idle ∨ ∃ t, e = .commit t

/-- What a call that does not commit leaves as it is. -/
structure Kept (s s' : L3CfgCommits) (e : Event) : Prop where
  commits : s'.commits = s.commits
  sticky : s'.commitTypeUpdateSticky → s.commitTypeUpdateSticky
  sticky_eq : e ≠ .resetUpdate → s'.commitTypeUpdateSticky = s.commitTypeUpdateSticky
  idle : ∀ t ∈ s.commitOnIdle, ∃ t' ∈ s'.commitOnIdle, t ≤ t'
  sorted : Sorted s.commitTypeLst → Sorted s'.commitTypeLst

theorem kept_schedule (h : s'.commits = s.commits)
    (hsticky : s'.commitTypeUpdateSticky = s.commitTypeUpdateSticky)
    (hidle : s'.commitOnIdle = s.commitOnIdle)
    (hsorted : Sorted s.commitTypeLst → Sorted s'.commitTypeLst) :
    Kept s (s'.commitOnIdleSchedule t) e := by
  obtain ⟨t', heq, -, hle⟩ := s'.commitOnIdleSchedule_spec (t := t)
  rw [heq]
  exact ⟨h, by simp [hsticky], fun _ => hsticky, fun t₀ ht₀ => ⟨t', rfl, hle t₀ (hidle ▸ ht₀)⟩,
    hsorted⟩

theorem kept_of_step (he : ¬e.IsCommit) (hstep : s.step e = some s') : Kept s s' e := by
  have hrefl : Kept s s e := ⟨rfl, id, fun _ => rfl, fun t ht => ⟨t, ht, le_rfl⟩, id⟩
  have hunregister (handle : ℕ) : Kept s (s.commitTypeUnregister handle) e := by
    have hkept := kept_schedule (s := s) (e := e) (t := .auto) rfl rfl rfl id
    exact { hkept with sorted := fun h => sorted_unlink handle (hkept.sorted h) }
  cases e with
  | register t existing =>
    obtain ⟨-, heq⟩ := Option.ite_none_right_eq_some.mp hstep
    cases heq
    unfold commitTypeRegister
    split
    · split_ifs
      · exact hunregister _
      · exact hrefl
      · exact kept_schedule rfl rfl rfl fun h => sorted_link (sorted_unlink _ h)
    · split
      · exact hrefl
      · exact kept_schedule rfl rfl rfl sorted_link
  | unregister handle =>
    obtain ⟨-, heq⟩ := Option.ite_none_right_eq_some.mp hstep
    cases heq
    exact hunregister handle
  | schedule t =>
    obtain ⟨-, heq⟩ := Option.ite_none_left_eq_some.mp hstep
    cases heq
    exact kept_schedule rfl rfl rfl id
  | commit t => exact absurd (.inr ⟨t, rfl⟩) he
  | idle => exact absurd (.inl rfl) he
  | resetUpdate =>
    cases hstep
    unfold commitTypeResetUpdate
    split
    · exact hrefl
    · exact ⟨rfl, fun h => absurd h (by simp), fun h => absurd rfl h, fun t ht => ⟨t, ht, le_rfl⟩,
        id⟩

theorem step_isCommit (he : e.IsCommit) (hstep : s.step e = some s') :
    ∃ idle t, s' = { s with commitOnIdle := idle }.l3Commit t := by
  rcases he with rfl | ⟨t, rfl⟩
  · obtain ⟨t, -, rfl⟩ := Option.map_eq_some_iff.mp hstep
    exact ⟨none, t, rfl⟩
  · cases hstep
    exact ⟨s.commitOnIdle, t, rfl⟩

theorem sorted_step (h : Sorted s.commitTypeLst) (hstep : s.step e = some s') :
    Sorted s'.commitTypeLst := by
  by_cases he : e.IsCommit
  · obtain ⟨idle, t, rfl⟩ := step_isCommit he hstep
    exact h
  · exact (kept_of_step he hstep).sorted h

/-- The commit at least updates, and not only because the one before did. -/
def L3Commit.Raises (c : L3Commit) : Prop := .update ≤ c.commitType ∧ c.isStickyUpdate = false

theorem l3Commit_spec : ∃ c, (s.l3Commit t).commits = c :: s.commits ∧
    ((s.l3Commit t).commitTypeUpdateSticky ↔ L3Commit.Raises c) ∧
    (c.isStickyUpdate → s.commitTypeUpdateSticky) ∧
    (s.commitTypeUpdateSticky → .update ≤ c.commitType) ∧
    ∀ t', t' ≤ c.commitType ↔
      t' ≤ t ∨ t' ≤ s.commitTypeGet ∨ t' ≤ .update ∧ s.commitTypeUpdateSticky := by
  have hof : ∀ t', t' ≤ s.commitTypeOf t ↔ t' ≤ t ∨ t' ≤ s.commitTypeGet := by
    intro t'
    unfold commitTypeOf
    split
    case isTrue h =>
      have hle : t ≤ s.commitTypeGet := h.elim (fun h => h ▸ Nat.zero_le _) le_of_lt
      exact ⟨.inr, fun h' => h'.elim (fun h' => h'.trans hle) id⟩
    case isFalse h =>
      have hle : s.commitTypeGet ≤ t := not_lt.mp fun hlt => h (.inr hlt)
      exact ⟨.inl, fun h' => h'.elim id fun h' => h'.trans hle⟩
  refine ⟨_, rfl, ?_⟩
  simp only [l3Commit, decide_eq_true_eq, L3Commit.Raises]
  split
  case isTrue h =>
    refine ⟨by simp [h.1], fun _ => h.2, fun _ => le_rfl, fun t' => ?_⟩
    rw [← or_assoc, ← hof]
    simp only [h.2, and_true]
    exact ⟨.inr, fun hle => hle.elim (fun hle => hle.trans h.1.le) id⟩
  case isFalse h =>
    refine ⟨by simp, by simp, fun hsticky => ?_, fun t' => ?_⟩
    · exact not_lt.mp fun hlt => h ⟨hlt, hsticky⟩
    · rw [← or_assoc, ← hof]
      refine ⟨.inl, fun hle => hle.elim id ?_⟩
      rintro ⟨hle, hsticky⟩
      exact hle.trans (not_lt.mp fun hlt => h ⟨hlt, hsticky⟩)

/-- In every run a commit does at least what it is called for and what anybody registered, and no
more than that, except that it updates after a commit that did. -/
theorem run_l3Commit (hrun : init.run events = some s) (t : NML3CfgCommitType) :
    ∃ c, (s.l3Commit t).commits = c :: s.commits ∧ ∀ t', t' ≤ c.commitType ↔
      t' ≤ t ∨ (∃ h ∈ s.commitTypeLst, t' ≤ h.commitType) ∨
        s.commitTypeLst = [] ∧ t' ≤ .none ∨ t' ≤ .update ∧ s.commitTypeUpdateSticky := by
  have h : Sorted s.commitTypeLst :=
    foldlM_invariant (I := fun s => Sorted s.commitTypeLst) (P := fun _ => True)
      (fun _ _ _ h _ hstep => sorted_step h hstep) (show Sorted [] from .nil)
      (fun _ _ => trivial) hrun
  obtain ⟨c, hc, -, -, -, hserved⟩ := s.l3Commit_spec (t := t)
  refine ⟨c, hc, fun t' => ?_⟩
  rw [hserved, le_commitTypeGet_iff h, or_assoc]

/-- Of two handles one is left, for an update. -/
def oneLeft : L3CfgCommits := ⟨[⟨1, .update⟩], 2, false, some .auto, []⟩

theorem run_l3Commit_oneLeft :
    ∃ c, (oneLeft.l3Commit .auto).commits = [c] ∧ ∀ t', t' ≤ c.commitType ↔
      t' ≤ .auto ∨ (∃ h ∈ oneLeft.commitTypeLst, t' ≤ h.commitType) ∨
        oneLeft.commitTypeLst = [] ∧ t' ≤ .none ∨ t' ≤ .update ∧ oneLeft.commitTypeUpdateSticky :=
  @run_l3Commit oneLeft [.register .update none, .register .update none, .unregister 0]
    (by decide) .auto

/-- The flag comes from the last commit. -/
structure StickyFromLast (s : L3CfgCommits) : Prop where
  raised : s.commitTypeUpdateSticky → ∃ c ∈ s.commits.head?, L3Commit.Raises c
  chain : s.commits.IsChain fun c before => c.isStickyUpdate → L3Commit.Raises before
  last : ∀ c ∈ s.commits.getLast?, c.isStickyUpdate = false

theorem StickyFromLast.step (h : s.StickyFromLast) (hstep : s.step e = some s') :
    s'.StickyFromLast := by
  by_cases he : e.IsCommit
  · obtain ⟨idle, t, rfl⟩ := step_isCommit he hstep
    obtain ⟨c, hc, hflag, hearlier, -⟩ :=
      l3Commit_spec (s := { s with commitOnIdle := idle }) (t := t)
    refine ⟨fun hs => ⟨c, by simp [hc], hflag.mp hs⟩, ?_, ?_⟩
    · rw [hc, List.isChain_cons]
      refine ⟨fun before hbefore hc' => ?_, h.chain⟩
      obtain ⟨c', hc', hr⟩ := h.raised (hearlier hc')
      cases hbefore.symm.trans hc'
      exact hr
    · intro c' hc'
      cases hlist : s.commits with
      | nil =>
        rw [hc, hlist] at hc'
        cases hc'
        by_contra hne
        obtain ⟨b, hb, -⟩ := h.raised (hearlier (Bool.eq_true_of_not_eq_false hne))
        simp [hlist] at hb
      | cons b bs =>
        rw [hc, hlist, List.getLast?_cons_cons, ← hlist] at hc'
        exact h.last c' hc'
  · have hkept := kept_of_step he hstep
    refine ⟨fun hs => ?_, ?_, ?_⟩ <;> rw [hkept.commits]
    · exact h.raised (hkept.sticky hs)
    · exact h.chain
    · exact h.last

/-- The call does not commit, and if it is to reset the flag, an update is registered. -/
def KeepsSticky (s : L3CfgCommits) (e : Event) : Prop :=
  ¬e.IsCommit ∧ (e = .resetUpdate → ∃ h ∈ s.commitTypeLst, .update ≤ h.commitType)

theorem KeepsSticky.step (h : s.KeepsSticky e) (hstep : s.step e = some s') :
    s'.commits = s.commits ∧ s'.commitTypeUpdateSticky = s.commitTypeUpdateSticky := by
  have hkept := kept_of_step h.1 hstep
  refine ⟨hkept.commits, ?_⟩
  by_cases he : e = .resetUpdate
  · obtain rfl := he
    rw [← Option.some.inj hstep, commitTypeResetUpdate, if_pos (h.2 rfl)]
  · exact hkept.sticky_eq he

/-- An update that nobody asks for comes right after a commit that did at least that because
somebody asked. After such a commit the next one updates too, unless the flag is reset between the
two. -/
theorem run_sticky (hrun : init.run events = some s) :
    (∀ c ∈ s.commits.getLast?, c.isStickyUpdate = false) ∧
      (s.commits.IsChain fun c before => c.isStickyUpdate → L3Commit.Raises before) ∧
      ∀ (e e' : Event) (between : List Event) (s₁ s₂ s₃ : L3CfgCommits), e.IsCommit → e'.IsCommit →
        s.step e = some s₁ → AlongM step KeepsSticky s₁ between → s₁.run between = some s₂ →
          s₂.step e' = some s₃ → ∃ before c, s₃.commits = c :: before :: s.commits ∧
            (L3Commit.Raises before → .update ≤ c.commitType) := by
  have h : s.StickyFromLast :=
    foldlM_invariant (P := fun _ => True) (fun _ _ _ h _ hstep => h.step hstep)
      ⟨by simp [init], by simp [init], by simp [init]⟩ (fun _ _ => trivial) hrun
  refine ⟨h.last, h.chain, fun e e' between s₁ s₂ s₃ he he' hfirst halong hbetween hsecond => ?_⟩
  obtain ⟨idle, t, rfl⟩ := step_isCommit he hfirst
  obtain ⟨before, hbefore, hflag, -⟩ :=
    l3Commit_spec (s := { s with commitOnIdle := idle }) (t := t)
  generalize { s with commitOnIdle := idle }.l3Commit t = s₁ at *
  obtain ⟨hcommits, hsticky⟩ :
      s₂.commits = s₁.commits ∧ s₂.commitTypeUpdateSticky = s₁.commitTypeUpdateSticky := by
    refine AlongM.foldlM (I := fun u => u.commits = s₁.commits ∧
      u.commitTypeUpdateSticky = s₁.commitTypeUpdateSticky) (fun u e u' hu hkeeps hstep => ?_)
      ⟨rfl, rfl⟩ halong hbetween
    obtain ⟨hcommits, hsticky⟩ := hkeeps.step hstep
    exact ⟨hcommits.trans hu.1, hsticky.trans hu.2⟩
  obtain ⟨idle', t', rfl⟩ := step_isCommit he' hsecond
  obtain ⟨c, hc, -, -, hraised, -⟩ :=
    l3Commit_spec (s := { s₂ with commitOnIdle := idle' }) (t := t')
  refine ⟨before, c, ?_, fun hr => hraised ?_⟩
  · rw [hc, hcommits, hbefore]
  · rw [hsticky]
    exact hflag.mpr hr

def registered : L3CfgCommits := ⟨[⟨0, .update⟩], 1, false, some .auto, []⟩

def raisedTwice : L3CfgCommits := ⟨[], 1, false, none, [⟨.update, true⟩, ⟨.update, false⟩]⟩

/-- The flag is not reset while an update is registered. -/
theorem run_sticky_update : ∃ before c, raisedTwice.commits = [c, before] ∧
    (L3Commit.Raises before → .update ≤ c.commitType) := by
  refine (@run_sticky registered [.register .update none] (by decide)).2.2 .idle .idle
    [.resetUpdate, .unregister 0] _ _ raisedTwice (.inl rfl) (.inl rfl) rfl ?_ rfl rfl
  refine ⟨⟨by simp [Event.IsCommit], fun _ => by decide⟩, fun s hs => ?_⟩
  exact ⟨⟨by simp [Event.IsCommit], nofun⟩, fun _ _ => trivial⟩

/-- While nothing commits, the type that is scheduled does not get lost, and the idle handler serves
it. -/
theorem run_schedule_served (hschedule : s.step (.schedule t) = some s₁)
    (hrun : s₁.run events = some s') (hno : ∀ e ∈ events, ¬e.IsCommit) :
    ∃ s'' c, s'.step .idle = some s'' ∧ s''.commits = c :: s.commits ∧ t ≤ c.commitType := by
  obtain ⟨-, heq⟩ := Option.ite_none_left_eq_some.mp hschedule
  cases heq
  obtain ⟨t₁, heq, hle, -⟩ := s.commitOnIdleSchedule_spec (t := t)
  rw [heq] at hrun
  obtain ⟨hcommits, t₂, ht₂, hle₂⟩ : s'.commits = s.commits ∧ ∃ t' ∈ s'.commitOnIdle, t ≤ t' := by
    refine foldlM_invariant (I := fun s' => s'.commits = s.commits ∧ ∃ t' ∈ s'.commitOnIdle, t ≤ t')
      (fun s₁ e s₂ h he hstep => ?_) ⟨rfl, t₁, rfl, hle⟩ hno hrun
    obtain ⟨hcommits, t', ht', hle'⟩ := h
    have hkept := kept_of_step he hstep
    obtain ⟨t₂, ht₂, hle₂⟩ := hkept.idle t' ht'
    exact ⟨hkept.commits.trans hcommits, t₂, ht₂, hle'.trans hle₂⟩
  obtain ⟨c, hc, -, -, -, hserved⟩ :=
    l3Commit_spec (s := { s' with commitOnIdle := none }) (t := t₂)
  refine ⟨_, c, Option.map_eq_some_iff.mpr ⟨t₂, ht₂, rfl⟩, hc.trans (by rw [hcommits]), ?_⟩
  exact (hserved t).mpr (.inl hle₂)

def reapplyScheduled : L3CfgCommits := ⟨[], 0, false, some .reapply, []⟩

theorem run_schedule_served_reapply :
    ∃ s'' c, reapplyScheduled.step .idle = some s'' ∧ s''.commits = [c] ∧ .reapply ≤ c.commitType :=
  @run_schedule_served init reapplyScheduled reapplyScheduled .reapply [.schedule .auto]
    (by decide) (by decide) (by simp [Event.IsCommit])

end L3CfgCommits

end NetworkManager.Core
