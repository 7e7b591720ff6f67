import NetworkManager.Core.BondManagerWellFormed
import NetworkManager.Lib.Runs

/-!
# The bond manager converges and cleans up

In every run the assertions hold, at most one call is pending, and the manager is freed exactly
once after it was destroyed. The ruleset holds no other tables than those of the names that the
manager still deals with, unless a call has no effect that was to delete a table of which the
manager forgets the name.
-/

namespace NetworkManager.Core

open Lib

def mlagRuleset (config : Option (Bytes × List Bytes)) (withCounters : Bool) : NftRuleset :=
  fun n => config.bind fun c =>
    if n = mlagTableName c.1 then some (mlagTable c.1 c.2 withCounters) else none

def NftCall.deleted (call : NftCall) : List Bytes :=
  if call.up then call.bondIfnamesDown.filter (· ≠ call.bondIfname) else [call.bondIfname]

namespace NMBondManager

variable {s s' : NMBondManager} {nft nft' : NftRuleset} {failed : Bool} {call : NftCall}

/-! ## The ruleset -/

/-- Each table belongs to a name that the manager deals with, and its chains to members that the
manager remembers. -/
def Known (s : NMBondManager) (nft : NftRuleset) : Prop :=
  ∀ n t, nft n = some t →
    ∃ b, s.Manages b ∧ n = mlagTableName b ∧ t.Known b (· ∈ s.previousMembers)

/-- What is up is what there is, unless a call failed. -/
def UpToDate (s : NMBondManager) (nft : NftRuleset) (failed : Bool) : Prop :=
  s.regState = .up → ¬ failed → ∃ counters, nft = mlagRuleset s.currConfig counters

theorem Known.keeps (h : s.Known nft) (hkeeps : s.Keeps s') : s'.Known nft := by
  intro n t ht
  obtain ⟨b, hb, hn, hknown⟩ := h n t ht
  exact ⟨b, hkeeps.manages b hb, hn, hknown.mono hkeeps.previous⟩

theorem UpToDate.keeps (h : s.UpToDate nft failed) (hkeeps : s.Keeps s') :
    s'.UpToDate nft failed := by
  intro hup hfailed
  obtain ⟨hup', hcurr⟩ := hkeeps.up hup
  rw [hcurr]
  exact h hup' hfailed

theorem Known.eq_none (h : s.Known nft) (hs : ∀ b, ¬ s.Manages b) : nft = fun _ => none := by
  funext n
  rw [Option.eq_none_iff_forall_ne_some]
  intro t ht
  obtain ⟨b, hb, -⟩ := h n t ht
  exact hs b hb

/-- The input of the pending call is accepted. When it takes effect, there is just the table that
it configures. -/
theorem WellFormed.run_stdin (h : s.WellFormed) (hknown : s.Known nft) (hcall : call ∈ s.calls) :
    nft.run call.stdin = some (mlagRuleset
      (if call.up then some (call.bondIfname, call.activeMembers) else none)
      call.withCounters) := by
  have hmanages {b : Bytes} (hpending : s.bondIfnameCurr = some call.bondIfname)
      (hb : s.Manages b) : b = call.bondIfname ∨ b ∈ call.bondIfnamesDown := by
    rcases hb with hb | ⟨call', hcall', hb⟩
    · rw [hpending] at hb
      exact .inl (Option.some.inj hb).symm
    · rw [h.calls_eq hcall, List.mem_singleton] at hcall'
      exact .inr (hcall' ▸ hb)
  rw [NftCall.stdin]
  rcases h.pending_cases hcall with ⟨-, hupping⟩ | ⟨-, hdowning⟩
  · have hname {t : NftTable} (ht : nft (mlagTableName call.bondIfname) = some t) :
        t.Known call.bondIfname fun m => m ∈ call.previousMembers ∨ m ∈ call.activeMembers := by
      obtain ⟨b, -, hb, hmembers⟩ := hknown _ t ht
      obtain rfl := mlagTableName_injective hb
      exact hmembers.mono hupping.previous
    rw [hupping.up, run_nftStdioMlag_up (fun t ht => hname ht) (hupping.active ▸ h.curr.nodup)]
    congr 1
    funext n
    simp only [mlagRuleset, if_true, Option.bind_some]
    split_ifs with hn hdown
    · rfl
    · rfl
    · rw [Option.eq_none_iff_forall_ne_some]
      intro t ht
      obtain ⟨b, hb, rfl, -⟩ := hknown n t ht
      have hne : b ≠ call.bondIfname := fun heq => hn (heq ▸ rfl)
      rcases hmanages hupping.bondIfname hb with hb | hb
      · exact hne hb
      · exact hdown (List.mem_map_of_mem (List.mem_filter.mpr ⟨hb, decide_eq_true hne⟩))
  · rw [hdowning.up, hdowning.down, run_nftStdioMlag_down]
    congr 1
    funext n
    simp only [mlagRuleset, Bool.false_eq_true, if_false, Option.bind_none]
    rw [Function.update_apply]
    split_ifs with hn
    · rfl
    · rw [Option.eq_none_iff_forall_ne_some]
      intro t ht
      obtain ⟨b, hb, rfl, -⟩ := hknown n t ht
      rcases hmanages hdowning.bondIfname hb with hb | hb
      · exact hn (congrArg mlagTableName hb)
      · rw [hdowning.down] at hb
        cases hb

end NMBondManager

namespace BondManagerSystem

variable {s : BondManagerSystem} {call : NftCall} {failed : Bool} {s' : NMBondManager}

/-- A call can only be without effect if the manager still deals with the names of the tables that
it was to delete: the call that comes next configures the table, or deletes it. -/
def Clean (s : BondManagerSystem) : BondManagerEvent → Prop
  | .complete id failed tookEffect =>
    ∀ call ∈ s.self.calls, call.cancellable = id →
      (call.cancellable ∈ s.self.cancelled ∨ failed) → ¬ tookEffect →
        ∀ d ∈ call.deleted, (s.nft (mlagTableName d)).isSome →
          s.self.bondIfnameNext = some d ∨ (¬ call.up ∧ s.self.bondIfnameNext.isSome)
  | _ => True

instance (s : BondManagerSystem) : ∀ e, Decidable (s.Clean e)
  | .complete id failed tookEffect => inferInstanceAs (Decidable
      (∀ call ∈ s.self.calls, call.cancellable = id →
        (call.cancellable ∈ s.self.cancelled ∨ failed) → ¬ tookEffect →
          ∀ d ∈ call.deleted, (s.nft (mlagTableName d)).isSome →
            s.self.bondIfnameNext = some d ∨ (¬ call.up ∧ s.self.bondIfnameNext.isSome)))
  | .logging _ => inferInstanceAs (Decidable True)
  | .linkChanged _ _ _ => inferInstanceAs (Decidable True)
  | .idle => inferInstanceAs (Decidable True)
  | .reapply => inferInstanceAs (Decidable True)
  | .destroy => inferInstanceAs (Decidable True)

/-! ## Completions -/

/-- The state of the manager, without regard to the ruleset. -/
structure WellFormed (s : BondManagerSystem) : Prop where
  self : s.self.WellFormed
  tracked : s.self.Tracked

/-- The ruleset, as far as it is known when all calls so far were clean. -/
structure Sound (s : BondManagerSystem) : Prop extends s.WellFormed where
  known : s.self.Known s.nft
  upToDate : s.self.UpToDate s.nft s.failed

theorem callError_cancelled :
    s.callError call failed = some .cancelled ↔ call.cancellable ∈ s.self.cancelled := by
  unfold callError
  split_ifs with hcancelled
  all_goals simp [hcancelled]

theorem WellFormed.calls_filter (h : s.WellFormed) (hcall : call ∈ s.self.calls) :
    (s.self.calls.filter fun c => c.cancellable ≠ call.cancellable) = [] := by
  simp [h.self.calls_eq hcall]

theorem WellFormed.complete_self (h : s.WellFormed) (hcall : call ∈ s.self.calls)
    (failed tookEffect : Bool) :
    ∃ s', NMBondManager.Completed (s.callError call failed) call s.self s' ∧
      s'.Checked (s.complete call failed tookEffect).self ∧
      (s.self.destroyed → (s.complete call failed tookEffect).self.regState = s'.regState) := by
  unfold complete
  rw [h.calls_filter hcall]
  exact h.self.nftCallCb h.tracked hcall callError_cancelled s.trace s.links

section

variable (h : s.Sound) (hcall : call ∈ s.self.calls)

include h hcall

theorem Sound.callError_eq (failed : Bool) :
    s.callError call failed = if call.cancellable ∈ s.self.cancelled then some .cancelled
      else if failed then some .failed else none := by
  rw [callError, h.self.run_stdin h.known hcall]
  simp

theorem Sound.complete_effect
    (hs' : NMBondManager.Completed (s.callError call failed) call s.self s') :
    s'.Known (mlagRuleset
      (if call.up then some (call.bondIfname, call.activeMembers) else none) call.withCounters) := by
  intro n t ht
  rcases h.self.pending_cases hcall with ⟨hreg, hupping⟩ | ⟨-, hdowning⟩
  · simp only [hupping.up, if_true, mlagRuleset, Option.bind_some] at ht
    split_ifs at ht with hn
    obtain rfl := Option.some.inj ht
    refine ⟨call.bondIfname, hs'.remains _ (.inl ⟨hupping.bondIfname, .inl hreg⟩), hn,
      mlagTable_known fun m hm => hs'.previous m ?_ ?_⟩
    · exact h.self.previous m (hupping.active ▸ hm)
    · exact .inr ⟨hupping.up, hupping.forgotten m hm⟩
  · simp [hdowning.up, mlagRuleset] at ht

theorem Sound.complete_noEffect (hclean : s.Clean (.complete call.cancellable failed false))
    (herror : (s.callError call failed).isSome)
    (hs' : NMBondManager.Completed (s.callError call failed) call s.self s') : s'.Known s.nft := by
  have hfailed : call.cancellable ∈ s.self.cancelled ∨ failed = true := by
    rw [h.callError_eq hcall] at herror
    by_contra hno
    simp only [not_or, Bool.not_eq_true] at hno
    simp [hno] at herror
  intro n t ht
  obtain ⟨b, hb, rfl, hmembers⟩ := h.known n t ht
  have hdeleted (hd : b ∈ call.deleted) :=
    hclean call hcall rfl hfailed (by simp) b hd (by rw [ht]; rfl)
  refine ⟨b, hs'.remains b ?_, rfl, hmembers.mono fun m hm => hs'.previous m hm (.inl herror)⟩
  rcases h.self.pending_cases hcall with ⟨hreg, hupping⟩ | ⟨-, hdowning⟩
  · by_cases hcurr : s.self.bondIfnameCurr = some b
    · exact .inl ⟨hcurr, .inl hreg⟩
    · rcases hb with hb | ⟨call', hcall', hb⟩
      · exact absurd hb hcurr
      · rw [hupping.calls, List.mem_singleton] at hcall'
        have hne : b ≠ call.bondIfname := fun heq => hcurr (heq ▸ hupping.bondIfname)
        have hd : b ∈ call.deleted := by
          rw [NftCall.deleted, if_pos hupping.up]
          exact List.mem_filter.mpr ⟨hcall' ▸ hb, decide_eq_true hne⟩
        rcases hdeleted hd with hnext | ⟨hdown, -⟩
        · exact .inr hnext
        · exact absurd hupping.up hdown
  · rcases hb with hb | ⟨call', hcall', hb⟩
    · have hd : b ∈ call.deleted := by
        rw [hdowning.bondIfname] at hb
        simp [NftCall.deleted, hdowning.up, Option.some.inj hb]
      rcases hdeleted hd with hnext | ⟨-, hnext⟩
      · exact .inr hnext
      · exact .inl ⟨hb, .inr hnext⟩
    · rw [hdowning.calls, List.mem_singleton] at hcall'
      rw [hcall', hdowning.down] at hb
      cases hb

theorem Sound.complete {tookEffect : Bool}
    (hclean : s.Clean (.complete call.cancellable failed tookEffect)) :
    (s.complete call failed tookEffect).Sound := by
  obtain ⟨s', hs', hchecked, -⟩ := h.complete_self hcall failed tookEffect
  have hrun := h.self.run_stdin h.known hcall
  have heffect (hdone : s.callError call failed = none ∨ tookEffect) :
      s.nftAfter call failed tookEffect = mlagRuleset
        (if call.up then some (call.bondIfname, call.activeMembers) else none)
          call.withCounters := by
    rw [nftAfter, if_pos hdone, hrun, Option.getD_some]
  have hknown : s'.Known (s.nftAfter call failed tookEffect) := by
    by_cases hdone : s.callError call failed = none ∨ tookEffect
    · rw [heffect hdone]
      exact h.complete_effect hcall hs'
    · rw [nftAfter, if_neg hdone]
      simp only [not_or, Bool.not_eq_true] at hdone
      obtain ⟨herror, rfl⟩ := hdone
      exact h.complete_noEffect hcall hclean (Option.isSome_iff_ne_none.mpr herror) hs'
  have hupToDate : s'.UpToDate (s.nftAfter call failed tookEffect)
      (s.failed || s.callError call failed = some .failed) := by
    intro hup hnone
    obtain ⟨hreg, hnotCancelled, hcurr⟩ := hs'.up hup
    have herror : s.callError call failed = none := by
      simp only [Bool.or_eq_true, decide_eq_true_eq, not_or] at hnone
      match hmatch : s.callError call failed with
      | none => rfl
      | some .cancelled => exact absurd hmatch hnotCancelled
      | some .failed => exact absurd hmatch hnone.2
    rcases h.self.pending_cases hcall with ⟨-, hupping⟩ | ⟨hdowning, -⟩
    · refine ⟨call.withCounters, ?_⟩
      rw [heffect (.inl herror), if_pos hupping.up, hcurr, NMBondManager.currConfig,
        hupping.bondIfname, hupping.active, Option.map_some]
    · rw [hreg] at hdowning
      cases hdowning
  exact ⟨⟨hchecked.wellFormed, hchecked.tracked⟩, hknown.keeps hchecked.keeps,
    hupToDate.keeps hchecked.keeps⟩

end

/-! ## Steps -/

/-- The manager without anything happening, or at the moment when it is destroyed. -/
def Entered (s : BondManagerSystem) (m : NMBondManager) : Prop :=
  m = s.self ∨ m = { s.self with destroyed := true }

theorem WellFormed.step_cases (h : s.WellFormed) (e : BondManagerEvent) :
    (∃ call ∈ s.self.calls, ∃ failed tookEffect,
      e = .complete call.cancellable failed tookEffect ∧
        s.step e = s.complete call failed tookEffect) ∨
    ((s.step e).nft = s.nft ∧ (s.step e).failed = s.failed ∧
      ∃ m, s.Entered m ∧ m.Checked (s.step e).self) := by
  have hstay : s.self.Checked s.self := ⟨h.self, h.tracked, .refl s.self⟩
  unfold step
  cases e with
  | logging trace => exact .inr ⟨rfl, rfl, s.self, .inl rfl, hstay⟩
  | linkChanged links ifindex plink =>
    refine .inr ⟨rfl, rfl, s.self, .inl rfl, ?_⟩
    dsimp only
    split_ifs
    · exact h.self.linkChanged h.tracked ifindex plink
    · exact hstay
  | idle =>
    dsimp only
    split_ifs with hidle
    · exact .inr ⟨rfl, rfl, s.self, .inl rfl, h.self.reconfigureCheckOnIdle hidle s.trace s.links⟩
    · exact .inr ⟨rfl, rfl, s.self, .inl rfl, hstay⟩
  | reapply =>
    dsimp only
    split_ifs with hdestroyed
    · exact .inr ⟨rfl, rfl, s.self, .inl rfl, hstay⟩
    · exact .inr ⟨rfl, rfl, s.self, .inl rfl,
        h.self.reconfigureCheckNow hdestroyed s.trace s.links true⟩
  | complete id failed tookEffect =>
    dsimp only
    cases hfind : s.self.calls.find? fun c => c.cancellable = id with
    | none => exact .inr ⟨rfl, rfl, s.self, .inl rfl, hstay⟩
    | some call =>
      have hid := List.find?_some hfind
      simp only [decide_eq_true_eq] at hid
      exact .inl ⟨call, List.mem_of_find?_eq_some hfind, failed, tookEffect, by rw [hid], rfl⟩
  | destroy =>
    dsimp only
    split_ifs with hdestroyed
    · exact .inr ⟨rfl, rfl, s.self, .inl rfl, hstay⟩
    · exact .inr ⟨rfl, rfl, _, .inr rfl, h.self.destroy hdestroyed s.trace⟩

theorem WellFormed.step (h : s.WellFormed) (e : BondManagerEvent) : (s.step e).WellFormed := by
  rcases h.step_cases e with ⟨call, hcall, failed, tookEffect, -, hstep⟩ | ⟨-, -, m, -, hchecked⟩
  · obtain ⟨s', -, hchecked, -⟩ := h.complete_self hcall failed tookEffect
    rw [hstep]
    exact ⟨hchecked.wellFormed, hchecked.tracked⟩
  · exact ⟨hchecked.wellFormed, hchecked.tracked⟩

theorem Sound.step (h : s.Sound) {e : BondManagerEvent} (hclean : s.Clean e) :
    (s.step e).Sound := by
  rcases h.step_cases e with ⟨call, hcall, failed, tookEffect, rfl, hstep⟩ |
    ⟨hnft, hfailed, m, hm, hchecked⟩
  · rw [hstep]
    exact h.complete hcall hclean
  · have hknown : m.Known s.nft := by
      rcases hm with rfl | rfl
      · exact h.known
      · exact h.known
    have hupToDate : m.UpToDate s.nft s.failed := by
      rcases hm with rfl | rfl
      · exact h.upToDate
      · exact h.upToDate
    refine ⟨⟨hchecked.wellFormed, hchecked.tracked⟩, ?_, ?_⟩
    · rw [hnft]
      exact hknown.keeps hchecked.keeps
    · rw [hnft, hfailed]
      exact hupToDate.keeps hchecked.keeps

theorem start_sound (ifindex : ℤ) (callback trace : Bool) (links : List NMPlatformLink) :
    (start ifindex callback trace links).Sound := by
  have hchecked := (NMBondManager.init_wellFormed ifindex callback).reconfigureCheckNow
    (by simp [NMBondManager.init]) trace links true
  refine ⟨⟨hchecked.wellFormed, hchecked.tracked⟩, fun n t ht => (by cases ht), fun hup => ?_⟩
  obtain ⟨hno, -⟩ := hchecked.keeps.up hup
  cases hno

/-! ## After the manager was destroyed -/

/-- After at most that many completions, whatever comes out, the manager is freed. -/
def FreedWithin : ℕ → BondManagerSystem → Prop
  | 0, s => s.self.calls = [] ∧ s.self.freed = 1
  | n + 1, s => (s.self.calls = [] ∧ s.self.freed = 1) ∨
    s.self.freed = 0 ∧ ∃ call, s.self.calls = [call] ∧
      ∀ failed tookEffect, FreedWithin n (s.step (.complete call.cancellable failed tookEffect))

theorem step_complete (h : s.self.calls = [call]) (failed tookEffect : Bool) :
    s.step (.complete call.cancellable failed tookEffect) = s.complete call failed tookEffect := by
  simp [step, h]

theorem WellFormed.freed (h : s.WellFormed) (hdestroyed : s.self.destroyed)
    (hcalls : s.self.calls = []) : s.self.freed = 1 := by
  have hphase := h.self.phase
  rw [h.self.freed, if_pos]
  refine ⟨hdestroyed, ?_⟩
  cases hreg : s.self.regState with
  | none => rfl
  | up =>
    rw [NMBondManager.Phase, hreg] at hphase
    exact absurd hdestroyed hphase.2.2
  | upping =>
    rw [NMBondManager.Phase, hreg] at hphase
    obtain ⟨call, hupping⟩ := hphase
    simp [hupping.calls] at hcalls
  | downing =>
    rw [NMBondManager.Phase, hreg] at hphase
    obtain ⟨call, hdowning⟩ := hphase
    simp [hdowning.calls] at hcalls

theorem WellFormed.freedWithin_one (h : s.WellFormed) (hdestroyed : s.self.destroyed)
    (hreg : s.self.regState = .downing) : s.FreedWithin 1 := by
  have hphase := h.self.phase
  rw [NMBondManager.Phase, hreg] at hphase
  obtain ⟨call, hdowning⟩ := hphase
  have hcall : call ∈ s.self.calls := hdowning.calls ▸ List.mem_cons_self
  refine .inr ⟨h.self.freed_eq_zero hcall, call, hdowning.calls, fun failed tookEffect => ?_⟩
  obtain ⟨s', hs', hchecked, hstate⟩ := h.complete_self hcall failed tookEffect
  have hnone : (s.complete call failed tookEffect).self.regState = .none := by
    rw [hstate hdestroyed, (hs'.state (h.self.destroyed hdestroyed).1).2 hreg]
  have hdestroyed' : (s.complete call failed tookEffect).self.destroyed = true := by
    rw [hchecked.keeps.destroyed, hs'.destroyed, hdestroyed]
  have hphase' := hchecked.wellFormed.phase
  rw [NMBondManager.Phase, hnone] at hphase'
  rw [step_complete hdowning.calls]
  refine ⟨hphase'.1.calls, ?_⟩
  rw [hchecked.wellFormed.freed, if_pos ⟨hdestroyed', hnone⟩]

theorem WellFormed.freedWithin_two (h : s.WellFormed) (hdestroyed : s.self.destroyed) :
    s.FreedWithin 2 := by
  by_cases hcalls : s.self.calls = []
  · exact .inl ⟨hcalls, h.freed hdestroyed hcalls⟩
  · obtain ⟨call, hcall⟩ := List.exists_mem_of_ne_nil _ hcalls
    refine .inr ⟨h.self.freed_eq_zero hcall, call, h.self.calls_eq hcall,
      fun failed tookEffect => ?_⟩
    rw [step_complete (h.self.calls_eq hcall)]
    obtain ⟨s', hs', hchecked, hstate⟩ := h.complete_self hcall failed tookEffect
    have hdestroyed' : (s.complete call failed tookEffect).self.destroyed = true := by
      rw [hchecked.keeps.destroyed, hs'.destroyed, hdestroyed]
    have hwf : (s.complete call failed tookEffect).WellFormed :=
      ⟨hchecked.wellFormed, hchecked.tracked⟩
    obtain ⟨hcancelled, hdown⟩ := hs'.state (h.self.destroyed hdestroyed).1
    rcases h.self.pending_cases hcall with ⟨-, hupping⟩ | ⟨hreg, -⟩
    · have hmem : call.cancellable ∈ s.self.cancelled := by
        rcases hupping.cancel with ⟨-, -, hlive⟩ | ⟨-, hmem⟩
        · exact absurd hdestroyed hlive
        · exact hmem
      refine hwf.freedWithin_one hdestroyed' ?_
      rw [hstate hdestroyed, hcancelled (callError_cancelled.mpr hmem)]
    · have hnone : (s.complete call failed tookEffect).self.regState = .none := by
        rw [hstate hdestroyed, hdown hreg]
      have hphase' := hchecked.wellFormed.phase
      rw [NMBondManager.Phase, hnone] at hphase'
      exact .inl ⟨hphase'.1.calls, hwf.freed hdestroyed' hphase'.1.calls⟩

theorem WellFormed.step_freed (h : s.WellFormed) (hfreed : s.self.freed = 1)
    (e : BondManagerEvent) : (s.step e).self = s.self := by
  have hgone : s.self.destroyed = true ∧ s.self.regState = .none := by
    have hcount := h.self.freed
    rw [hfreed] at hcount
    by_contra hno
    rw [if_neg hno] at hcount
    cases hcount
  obtain ⟨-, hcheck, hlink⟩ := h.self.destroyed hgone.1
  have hphase := h.self.phase
  rw [NMBondManager.Phase, hgone.2] at hphase
  have hidle : s.self.reconfigureOnIdleSource = false := by
    by_contra hsource
    have hsource' := (h.self.idle (by simpa using hsource)).1
    rw [hcheck] at hsource'
    cases hsource'
  cases e <;> simp [BondManagerSystem.step, hlink, hidle, hgone.1, hphase.1.calls]

theorem Sound.ruleset (h : s.Sound) (hcalls : s.self.calls = []) (hfailed : ¬ s.failed)
    (hlive : ¬ s.self.destroyed) :
    ∃ counters, s.nft = mlagRuleset s.self.lastCheck counters := by
  have hphase := h.self.phase
  have htracked := h.tracked hlive
  rw [NMBondManager.wanted] at htracked
  cases hreg : s.self.regState with
  | none =>
    rw [NMBondManager.Phase, hreg] at hphase
    obtain ⟨hsettled, hnone⟩ := hphase
    refine ⟨false, ?_⟩
    rw [h.known.eq_none fun b hb => by simp [hsettled.manages.mp hb] at hnone, ← htracked, hreg]
    rfl
  | up =>
    rw [hreg] at htracked
    rw [← htracked]
    exact h.upToDate hreg hfailed
  | upping =>
    rw [NMBondManager.Phase, hreg] at hphase
    obtain ⟨call, hupping⟩ := hphase
    simp [hupping.calls] at hcalls
  | downing =>
    rw [NMBondManager.Phase, hreg] at hphase
    obtain ⟨call, hdowning⟩ := hphase
    simp [hdowning.calls] at hcalls

theorem Sound.ruleset_freed (h : s.Sound) (hfreed : s.self.freed = 1) :
    s.nft = fun _ => none := by
  have hreg : s.self.regState = .none := by
    have hcount := h.self.freed
    rw [hfreed] at hcount
    by_contra hno
    rw [if_neg fun hgone => hno hgone.2] at hcount
    cases hcount
  have hphase := h.self.phase
  rw [NMBondManager.Phase, hreg] at hphase
  obtain ⟨hsettled, hnone⟩ := hphase
  exact h.known.eq_none fun b hb => by simp [hsettled.manages.mp hb] at hnone

end BondManagerSystem

/-! ## Runs -/

open BondManagerSystem

/-- In every run the assertions hold, at most one call is pending, and the manager is freed exactly
once after it was destroyed. If all calls were clean, then the ruleset is the wanted one when
nothing is pending and no call failed, and there is nothing left when the manager is freed. -/
theorem bondManager_converges (ifindex : ℤ) (callback trace : Bool) (links : List NMPlatformLink)
    (es : List BondManagerEvent) :
    let s := es.foldl step (start ifindex callback trace links)
    (s.self.ok = true ∧ s.self.calls.length ≤ 1 ∧ (¬ s.self.destroyed → s.self.freed = 0) ∧
      (s.self.destroyed → s.FreedWithin 2) ∧
      (s.self.freed = 1 → ∀ e, (s.step e).self = s.self)) ∧
    (Along step Clean (start ifindex callback trace links) es →
      (s.self.calls = [] → ¬ s.failed → ¬ s.self.destroyed →
        ∃ counters, s.nft = mlagRuleset s.self.lastCheck counters) ∧
      (s.self.freed = 1 → s.nft = fun _ => none)) := by
  intro s
  have hstart := start_sound ifindex callback trace links
  have hwf : s.WellFormed := foldl_invariant (fun _ e h => h.step e) hstart.toWellFormed es
  refine ⟨⟨hwf.self.ok, ?_, fun hlive => ?_, hwf.freedWithin_two, hwf.step_freed⟩, fun hclean => ?_⟩
  · by_cases hcalls : s.self.calls = []
    · simp [hcalls]
    · obtain ⟨call, hcall⟩ := List.exists_mem_of_ne_nil _ hcalls
      simp [hwf.self.calls_eq hcall]
  · rw [hwf.self.freed, if_neg fun hgone => hlive hgone.1]
  · have hsound : s.Sound := hclean.foldl (fun _ _ h hclean => h.step hclean) hstart
    exact ⟨hsound.ruleset, hsound.ruleset_freed⟩

/-- A bond with this name that needs the configuration, without ports. -/
def exampleBond (name : Bytes) (name_ne : name ≠ []) : NMPlatformLink where
  ifindex := 1
  name
  name_ne
  type := .bond
  master := 0
  ifiFlags := 0
  lnkBond := some ⟨bondModeXor, bondXmitHashPolicyVlanSrcmac⟩

/-- A bond is configured and renamed, and the manager is destroyed when that is configured too. -/
theorem bondManager_converges_renamed :
    let a := exampleBond (ascii "a") (by decide)
    let b := exampleBond (ascii "b") (by decide)
    let es : List BondManagerEvent := [.complete 0 false true, .linkChanged [b] 1 b, .idle,
      .complete 1 false true, .destroy, .complete 2 false true]
    (es.foldl step (start 1 true false [a])).self.freed = 1 ∧
      (es.foldl step (start 1 true false [a])).nft = fun _ => none :=
  ⟨by decide, ((bondManager_converges 1 true false _ _).2 (by decide)).2 (by decide)⟩

/-- When the manager is destroyed before the new name is configured, then the table of the old name
can be left behind. -/
theorem bondManager_leaks :
    ¬ ∀ (ifindex : ℤ) (callback trace : Bool) (links : List NMPlatformLink)
      (es : List BondManagerEvent),
      (es.foldl step (start ifindex callback trace links)).self.freed = 1 →
        (es.foldl step (start ifindex callback trace links)).nft = fun _ => none := by
  intro h
  have hleft := congrFun (h 1 true false [exampleBond (ascii "a") (by decide)]
    [.complete 0 false true,
      .linkChanged [exampleBond (ascii "b") (by decide)] 1 (exampleBond (ascii "b") (by decide)),
      .idle, .destroy, .complete 1 false false, .complete 2 false true] (by decide))
    (mlagTableName (ascii "a"))
  exact absurd (congrArg Option.isSome hleft) (by decide)

end NetworkManager.Core
