import NetworkManager.Core.AcdDataFrame
import NetworkManager.Core.AcdSystem

/-!
# What every run keeps

An `AcdData` has trackers as long as it is there. They are dirty, except between the beginning
and the end of a commit that added some. Outside of commits an address that is defended is on
the link. None of this depends on what else goes on.
-/

namespace NetworkManager.Core

open Lib

variable {K : Type*} {d : AcdData K}

/-! ## The trackers -/

namespace AcdData

/-- The trackers that are left when a commit is over are dirty. -/
def AllDirty (d : AcdData K) : Prop := ∀ t ∈ d.trackInfos, t.dirty

theorem AllDirty.selectTracks (h : d.AllDirty) : d.selectTracks (some true) = d.trackInfos := by
  apply List.filter_eq_self.mpr
  intro t ht
  simp [h t ht]

theorem pruneOne_eq_some {d' : AcdData K} (h : d.pruneOne = some d') :
    d'.trackInfos ≠ [] ∧ d'.AllDirty ∧ d' = { d with trackInfos := d'.trackInfos } := by
  unfold pruneOne at h
  dsimp only at h
  split_ifs at h with hempty
  obtain rfl := Option.some.inj h
  refine ⟨hempty, ?_, rfl⟩
  intro t ht
  obtain ⟨t', -, rfl⟩ := List.mem_map.mp ht
  rfl

end AcdData

variable [DecidableEq K]

theorem acdDataAdd_eq_some (acdData : Option (AcdData K)) (conf : AcdTrackConf K) :
    ∃ tracks changed, tracks ≠ [] ∧ acdDataAdd acdData conf =
      some { acdData.getD (acdDataNew K) with
        trackInfos := tracks
        trackInfosChanged := changed } := by
  unfold acdDataAdd
  dsimp only
  cases hfind : lookup AcdTrackInfo.key conf.key (acdData.getD (acdDataNew K)).trackInfos with
  | none => exact ⟨_, _, by simp, rfl⟩
  | some old =>
    refine ⟨_, _, ?_, rfl⟩
    have hne := List.ne_nil_of_mem (mem_of_lookup hfind)
    simpa [modifyKey] using hne

theorem mem_foldl_acdDataAdd {confs : List (AcdTrackConf K)} {acdData : Option (AcdData K)}
    (hd : d ∈ confs.foldl acdDataAdd acdData) :
    d ∈ acdData ∨ d.trackInfos ≠ [] ∧ ∃ tracks changed,
      d = { acdData.getD (acdDataNew K) with
        trackInfos := tracks
        trackInfosChanged := changed } := by
  induction confs generalizing acdData with
  | nil => exact .inl hd
  | cons conf confs ih =>
    obtain ⟨tracks, changed, hne, heq⟩ := acdDataAdd_eq_some acdData conf
    rw [List.foldl_cons, heq] at hd
    rcases ih hd with hmem | ⟨hne', tracks', changed', rfl⟩
    · obtain rfl := Option.some.inj hmem
      exact .inr ⟨hne, tracks, changed, rfl⟩
    · exact .inr ⟨hne', tracks', changed', rfl⟩

namespace AcdSystem

variable {loopback : Bool} {s : AcdSystem K} {e : AcdEvent K} {c : Call K}
  {f : NAcdProbe → NAcdProbe}

omit [DecidableEq K] in
theorem mem_prune (hd : d ∈ s.prune.acdData) :
    (¬ s.pruningNeeded ∧ d ∈ s.acdData) ∨
      ∃ d₀ ∈ s.acdData, d.trackInfos ≠ [] ∧ d.AllDirty ∧
        d = { d₀ with trackInfos := d.trackInfos } := by
  unfold prune at hd
  dsimp only at hd
  split_ifs at hd with hneeded
  · obtain ⟨d₀, hd₀, hprune⟩ := Option.bind_eq_some_iff.mp hd
    exact .inr ⟨d₀, hd₀, AcdData.pruneOne_eq_some hprune⟩
  · exact .inl ⟨hneeded, hd⟩

/-! ## The invariant -/

structure Kept (s : AcdSystem K) : Prop where
  tracked : ∀ d ∈ s.acdData, d.trackInfos ≠ []
  dirty : ¬ s.pruningNeeded → ∀ d ∈ s.acdData, d.AllDirty
  pruned : ¬ s.inCommit → ¬ s.pruningNeeded
  defending : ¬ s.inCommit → ∀ d ∈ s.acdData, d.state = .defending → s.onLink

omit [DecidableEq K] in
theorem start_kept : (AcdSystem.start K).Kept where
  tracked := by simp [AcdSystem.start]
  dirty := by simp [AcdSystem.start]
  pruned := by simp [AcdSystem.start]
  defending := by simp [AcdSystem.start]

section

variable (hs : s.Kept)

include hs

theorem beginCommit_kept {update : Option (AcdUpdate K)} (hcommit : ¬ s.inCommit) :
    (s.beginCommit update).Kept := by
  cases update with
  | none =>
    exact ⟨hs.tracked, fun _ => hs.dirty (hs.pruned hcommit), fun h => absurd rfl h,
      fun h => absurd rfl h⟩
  | some u =>
    refine ⟨?_, fun h => absurd rfl h, fun h => absurd rfl h, fun h => absurd rfl h⟩
    intro d hd
    rcases mem_foldl_acdDataAdd hd with hmem | ⟨hne, -⟩
    · exact hs.tracked d hmem
    · exact hne

omit [DecidableEq K] in
theorem prune_kept (hcommit : s.inCommit) : s.prune.Kept where
  tracked d hd := by
    rcases mem_prune hd with ⟨-, h⟩ | ⟨d₀, -, hne, -, -⟩
    · exact hs.tracked d h
    · exact hne
  dirty _ d hd := by
    rcases mem_prune hd with ⟨hneeded, h⟩ | ⟨d₀, -, -, hdirty, -⟩
    · exact hs.dirty hneeded d h
    · exact hdirty
  pruned h := absurd hcommit h
  defending h := absurd hcommit h

omit [DecidableEq K] in
theorem modifyProbe_kept : (s.modifyProbe f).Kept := by
  unfold modifyProbe
  split_ifs with hcommit
  · exact hs
  · refine ⟨?_, ?_, hs.pruned, ?_⟩
    · intro d hd
      obtain ⟨d₀, hd₀, rfl⟩ := Option.map_eq_some_iff.mp hd
      exact hs.tracked d₀ hd₀
    · intro h d hd
      obtain ⟨d₀, hd₀, rfl⟩ := Option.map_eq_some_iff.mp hd
      exact hs.dirty h d₀ hd₀
    · intro h d hd
      obtain ⟨d₀, hd₀, rfl⟩ := Option.map_eq_some_iff.mp hd
      exact hs.defending h d₀ hd₀

theorem CallOf.tracked (hc : CallOf s e c) :
    c.data.trackInfos ≠ [] ∧ (¬ c.system.pruningNeeded → c.data.AllDirty) := by
  cases hc with
  | @commitBegin u d hcommit hd =>
    have hbegin : (s.beginCommit (some u)).Kept := beginCommit_kept hs hcommit
    exact ⟨hbegin.tracked d hd, fun h => hbegin.dirty h d hd⟩
  | commitEnd hcommit hd =>
    have hprune := prune_kept hs hcommit
    exact ⟨hprune.tracked _ hd, fun h => hprune.dirty h _ hd⟩
  | externalAdded hd | externalRemoved hd => exact ⟨hs.tracked _ hd, fun h => hs.dirty h _ hd⟩
  | nacdPopEvent hcommit hd hprobe hevent =>
    have htracked := hs.tracked _ hd
    exact ⟨htracked, fun h => (hs.dirty h _ hd :)⟩
  | timeout hcommit hd htimer =>
    have htracked := hs.tracked _ hd
    exact ⟨htracked, fun h => (hs.dirty h _ hd :)⟩
  | nacdDown hcommit hd | linkNowUp hcommit hd | instanceReset hcommit hd =>
    exact ⟨hs.tracked _ hd, fun h => hs.dirty h _ hd⟩

theorem CallOf.selectTracks (hc : CallOf s e c) (hmode : c.mode = .postCommit ∨ c.mode = .timeout) :
    c.data.selectTracks (some true) = c.data.trackInfos := by
  apply AcdData.AllDirty.selectTracks
  apply (hc.tracked hs).2
  cases hc with
  | @commitBegin u d hcommit hd =>
    cases hreapply : u.reapply <;> simp [AcdUpdate.mode, hreapply] at hmode
  | commitEnd hcommit hd => simp [prune]
  | timeout hcommit hd htimer => exact hs.pruned hcommit
  | nacdPopEvent hcommit hd hprobe hevent => exact hs.pruned hcommit
  | externalAdded hd | externalRemoved hd => simp at hmode
  | nacdDown hcommit hd | linkNowUp hcommit hd | instanceReset hcommit hd => simp at hmode

theorem CallOf.defending (hc : CallOf s e c) (hidle : ¬ ((c.run loopback).finish e).inCommit)
    (hdef : (c.outcome loopback).data.state = .defending) : c.system.onLink := by
  have hstay (h : c.data.state = .defending → c.system.onLink ∨ c.mode = .postCommit) :
      c.system.onLink := AcdData.stateChange_defending h hdef
  cases hc with
  | commitBegin hcommit hd => exact absurd rfl hidle
  | commitEnd hcommit hd => exact hstay fun _ => .inr rfl
  | externalAdded hd => rfl
  | @externalRemoved stillOnLink d hd =>
    by_contra honLink
    have hremoved := AcdData.stateChange_externalRemoved_state
      (env loopback .failed { s with onLink := stillOnLink }) d hidle honLink
    exact absurd (hremoved.symm.trans hdef) (by simp)
  | nacdPopEvent hcommit hd hprobe hevent =>
    exact hstay fun h => .inl (hs.defending hcommit _ hd h)
  | timeout hcommit hd htimer => exact hstay fun h => .inl (hs.defending hcommit _ hd h)
  | nacdDown hcommit hd | linkNowUp hcommit hd | instanceReset hcommit hd =>
    exact hstay fun h => .inl (hs.defending hcommit _ hd h)

theorem rest_kept (hcall : s.call e = none) : ((s.rest e).finish e).Kept := by
  cases e with
  | commitBegin update =>
    by_cases hcommit : s.inCommit
    · simpa [rest, finish, hcommit] using hs
    · simpa [rest, finish, hcommit] using beginCommit_kept hs hcommit
  | commitEnd createProbe =>
    by_cases hcommit : s.inCommit
    · have hnone : s.prune.acdData = none := by simpa [call, hcommit] using hcall
      have hprune : ((s.rest (.commitEnd createProbe)).finish (.commitEnd createProbe)) =
          { s.prune with inCommit := false } := by simp [rest, finish, hcommit]
      rw [hprune]
      exact ⟨by simp [hnone], by simp [hnone], fun _ => by simp [prune], by simp [hnone]⟩
    · have hsame : (s.rest (.commitEnd createProbe)).finish (.commitEnd createProbe) = s := by
        cases s
        simp_all [rest, finish]
      rw [hsame]
      exact hs
  | externalAdded createProbe =>
    exact ⟨hs.tracked, hs.dirty, hs.pruned, fun _ _ _ _ => rfl⟩
  | externalRemoved stillOnLink =>
    have hnone : s.acdData = none := by simpa [call] using hcall
    exact ⟨hs.tracked, hs.dirty, hs.pruned, fun _ => by simp [rest, finish, hnone]⟩
  | elapse msec => exact ⟨hs.tracked, hs.dirty, hs.pruned, hs.defending⟩
  | nacdTimer | nacdPacket packet => exact modifyProbe_kept hs
  | nacdPopEvent createProbe | timeout createProbe | nacdDown createProbe
  | linkNowUp createProbe | instanceReset => exact hs

theorem step_kept : (s.step loopback e).Kept := by
  unfold step
  cases hcall : s.call e with
  | none => exact rest_kept hs hcall
  | some c =>
    have hc := callOf hcall
    obtain ⟨htracked, hdirty⟩ := hc.tracked hs
    have hsystem : ((c.run loopback).finish e).pruningNeeded = c.system.pruningNeeded ∧
        ((c.run loopback).finish e).onLink = c.system.onLink ∧
          ((c.run loopback).finish e).acdData = some (c.outcome loopback).data := by
      cases hc <;> exact ⟨rfl, rfl, rfl⟩
    obtain ⟨hpruning, honLink, hdata⟩ := hsystem
    refine ⟨?_, ?_, ?_, ?_⟩
    · intro d hd
      obtain rfl := Option.some.inj (hdata.symm.trans hd)
      simpa [Call.outcome] using htracked
    · intro h d hd
      obtain rfl := Option.some.inj (hdata.symm.trans hd)
      rw [hpruning] at h
      simpa [AcdData.AllDirty, Call.outcome] using hdirty h
    · rw [hpruning]
      cases hc with
      | commitBegin hcommit hd => exact fun h => absurd rfl h
      | commitEnd hcommit hd => simp [prune]
      | externalAdded hd | externalRemoved hd => exact hs.pruned
      | nacdPopEvent hcommit hd hprobe hevent => exact hs.pruned
      | timeout hcommit hd htimer => exact hs.pruned
      | nacdDown hcommit hd | linkNowUp hcommit hd | instanceReset hcommit hd => exact hs.pruned
    · intro h d hd hdef
      obtain rfl := Option.some.inj (hdata.symm.trans hd)
      rw [honLink]
      exact hc.defending hs h hdef

end

/-! ## Steps without a call -/

theorem handleTimeout_timeoutMsec (probe : NAcdProbe) :
    probe.handleTimeout.timeoutMsec = probe.timeoutMsec := by
  unfold NAcdProbe.handleTimeout
  cases probe.state <;> rfl

theorem handlePacket_timeoutMsec (packet : NAcdPacket) (probe : NAcdProbe) :
    (probe.handlePacket packet).timeoutMsec = probe.timeoutMsec := by
  unfold NAcdProbe.handlePacket
  cases probe.state with
  | announcing =>
    dsimp only
    split_ifs
    · split <;> rfl
    · rfl
  | probing | configuring | failed => rfl

omit [DecidableEq K] in
theorem mem_modifyProbe (hd : d ∈ (s.modifyProbe f).acdData) :
    d ∈ s.acdData ∨ ∃ d₀ ∈ s.acdData, d = { d₀ with nacdProbe := d₀.nacdProbe.map f } := by
  unfold modifyProbe at hd
  split_ifs at hd
  · exact .inl hd
  · obtain ⟨d₀, hd₀, rfl⟩ := Option.map_eq_some_iff.mp hd
    exact .inr ⟨d₀, hd₀, rfl⟩

theorem mem_rest (hcall : s.call e = none) (hd : d ∈ ((s.rest e).finish e).acdData) :
    d ∈ s.acdData ∨ ∃ d₀ ∈ s.acdData, ∃ f : NAcdProbe → NAcdProbe,
      (∀ probe, (f probe).timeoutMsec = probe.timeoutMsec) ∧
        d = { d₀ with nacdProbe := d₀.nacdProbe.map f } := by
  cases e with
  | commitBegin update =>
    by_cases hcommit : s.inCommit
    · exact .inl (by simpa [rest, finish, hcommit] using hd)
    · cases update with
      | none => exact .inl (by simpa [rest, finish, hcommit, beginCommit] using hd)
      | some u =>
        have hnone : (s.beginCommit (some u)).acdData = none := by simpa [call, hcommit] using hcall
        simp [rest, finish, hcommit, hnone] at hd
  | commitEnd createProbe =>
    by_cases hcommit : s.inCommit
    · have hnone : s.prune.acdData = none := by simpa [call, hcommit] using hcall
      simp [rest, finish, hcommit, hnone] at hd
    · exact .inl (by simpa [rest, finish, hcommit] using hd)
  | nacdTimer =>
    rcases mem_modifyProbe hd with hmem | ⟨d₀, hd₀, heq⟩
    · exact .inl hmem
    · exact .inr ⟨d₀, hd₀, _, handleTimeout_timeoutMsec, heq⟩
  | nacdPacket packet =>
    rcases mem_modifyProbe hd with hmem | ⟨d₀, hd₀, heq⟩
    · exact .inl hmem
    · refine .inr ⟨d₀, hd₀, _, fun probe => ?_, heq⟩
      split_ifs
      · exact handlePacket_timeoutMsec packet probe
      · rfl
  | externalAdded createProbe | externalRemoved stillOnLink | elapse msec
  | nacdPopEvent createProbe | timeout createProbe | nacdDown createProbe
  | linkNowUp createProbe | instanceReset => exact .inl hd

theorem step_acdData (hcall : s.call e = some c) :
    (s.step loopback e).acdData = some (c.outcome loopback).data := by
  have hc := callOf hcall
  unfold step
  rw [hcall]
  cases hc <;> rfl

end AcdSystem

end NetworkManager.Core
