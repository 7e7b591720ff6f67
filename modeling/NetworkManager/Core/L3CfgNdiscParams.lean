import NetworkManager.Lib.Runs

/-!
# Neighbor discovery parameters

`NML3Cfg` writes the reachable time, the retransmit timer and the hop limit of a committed
configuration to the kernel, and remembers what it wrote. The code takes what the getter of the hop
limit returns for the hop limit, so that this parameter counts as unset at every commit.
-/

namespace NetworkManager.Core

open Lib

inductive NML3CfgCommitType
  | auto
  | none
  | update
  | reapply
  deriving DecidableEq

/-- `commit_type >= NM_L3_CFG_COMMIT_TYPE_UPDATE` -/
def NML3CfgCommitType.isUpdate : NML3CfgCommitType → Bool
  | .update | .reapply => true
  | .auto | .none => false

/-- The neighbor discovery parameters of `NML3ConfigData`, each with its set flag. -/
structure NdiscConfig where
  reachableTimeMsec : Option UInt32
  retransTimerMsec : Option UInt32
  hopLimit : Option Int32
  deriving DecidableEq

/-- A parameter that `NML3CfgPrivate` remembers: a value with its set flag. -/
structure NdiscCached (α : Type) where
  set : Bool
  value : α
  deriving DecidableEq

/-- The writes to the sysctls, with the name of the interface. -/
inductive NdiscWrite
  | reachableTime (ifname : String) (value : UInt32)
  | retransTime (ifname : String) (value : UInt32)
  | hopLimit (ifname : String) (value : Int32)
  deriving DecidableEq

namespace NdiscWrite

def reachableTime? : NdiscWrite → Option UInt32
  | .reachableTime _ value => some value
  | _ => none

def retransTime? : NdiscWrite → Option UInt32
  | .retransTime _ value => some value
  | _ => none

def hopLimit? : NdiscWrite → Option Int32
  | .hopLimit _ value => some value
  | _ => none

end NdiscWrite

/-- The remembered parameters, and all writes so far. -/
structure L3CfgNdiscParams where
  reachableTimeMsec : NdiscCached UInt32
  retransTimerMsec : NdiscCached UInt32
  hopLimit : NdiscCached Int32
  writes : List NdiscWrite
  deriving DecidableEq

/-- A commit: its type, `combined_l3cd_commited` and what `nm_l3cfg_get_ifname()` returns. -/
structure NdiscCommit where
  commitType : NML3CfgCommitType
  l3cd : Option NdiscConfig
  ifname : Option String
  deriving DecidableEq

section Param

variable {α : Type} [DecidableEq α]

/-- One of the three parts of `_l3_commit_ndisc_params()`, which differ in the parameter only: the
cache afterwards, and what is written. -/
def commitParam (write : String → α → NdiscWrite) (ifname : Option String) (set : Bool) (value : α)
    (cached : NdiscCached α) : NdiscCached α × List NdiscWrite :=
  if set ∧ (¬ cached.set ∨ cached.value ≠ value) then
    (⟨true, value⟩, (ifname.map (write · value)).toList)
  else
    (cached, [])

end Param

/-- What a getter of `NML3ConfigData` puts into its argument. -/
def outVal {α : Type} (default : α) : Option α → α
  | some value => value
  | none => default

namespace L3CfgNdiscParams

def commitNdiscParams (s : L3CfgNdiscParams) (commit : NdiscCommit) : L3CfgNdiscParams :=
  if commit.commitType.isUpdate then
    let reachable := commit.l3cd.bind (·.reachableTimeMsec)
    let retrans := commit.l3cd.bind (·.retransTimerMsec)
    let hopLimitSet := false
    -- The return value of the getter overwrites the hop limit.
    let hopLimit : Int32 := if (commit.l3cd.bind (·.hopLimit)).isSome then 1 else 0
    let reachableParam := commitParam .reachableTime commit.ifname reachable.isSome
      (outVal 0 reachable) s.reachableTimeMsec
    let retransParam := commitParam .retransTime commit.ifname retrans.isSome (outVal 0 retrans)
      s.retransTimerMsec
    let hopLimitParam := commitParam .hopLimit commit.ifname hopLimitSet hopLimit s.hopLimit
    ⟨reachableParam.1, retransParam.1, hopLimitParam.1,
      s.writes ++ (reachableParam.2 ++ retransParam.2 ++ hopLimitParam.2)⟩
  else
    { s with
      reachableTimeMsec := { s.reachableTimeMsec with set := false }
      retransTimerMsec := { s.retransTimerMsec with set := false }
      hopLimit := { s.hopLimit with set := false } }

def start : L3CfgNdiscParams := ⟨⟨false, 0⟩, ⟨false, 0⟩, ⟨false, 0⟩, []⟩

/-! ## What the commits are for -/

def lastWrite {α : Type} (param : NdiscWrite → Option α) (writes : List NdiscWrite) : Option α :=
  (writes.filterMap param).getLast?

/-- A parameter reaches the kernel in a step from `s` to `s'`. -/
structure ParamReaches {α : Type} (param : NdiscWrite → Option α) (cached : NdiscCached α)
    (value : Option α) (s s' : L3CfgNdiscParams) : Prop where
  /-- The last value that was written is the one that is committed. -/
  written : ∀ v ∈ value, lastWrite param s'.writes = some v
  /-- There is a write only where the cache is unset or has another value. -/
  changed : ∃ new, s'.writes = s.writes ++ new ∧
    ∀ v ∈ new.filterMap param, ¬ cached.set ∨ cached.value ≠ v

/-- What is promised of a commit that configures an interface with a name. -/
structure Reaches (s : L3CfgNdiscParams) (commit : NdiscCommit) : Prop where
  reachableTime : ParamReaches NdiscWrite.reachableTime? s.reachableTimeMsec
    (commit.l3cd.bind (·.reachableTimeMsec)) s (s.commitNdiscParams commit)
  retransTime : ParamReaches NdiscWrite.retransTime? s.retransTimerMsec
    (commit.l3cd.bind (·.retransTimerMsec)) s (s.commitNdiscParams commit)
  hopLimit : ParamReaches NdiscWrite.hopLimit? s.hopLimit
    (commit.l3cd.bind (·.hopLimit)) s (s.commitNdiscParams commit)

/-- A commit keeps its promise, where there is one. -/
def Sound (s : L3CfgNdiscParams) (commit : NdiscCommit) : Prop :=
  commit.commitType.isUpdate → commit.ifname ≠ none → s.Reaches commit

/-- The cache has a value. -/
abbrev Caches {α : Type} (cached : NdiscCached α) (v : α) : Prop := cached.set ∧ cached.value = v

/-- A commit with a name has no hop limit, and one without a name changes no other parameter. -/
def InReach (s : L3CfgNdiscParams) (commit : NdiscCommit) : Prop :=
  commit.commitType.isUpdate →
    (commit.ifname ≠ none → commit.l3cd.bind (·.hopLimit) = none) ∧
    (commit.ifname = none →
      (∀ v ∈ commit.l3cd.bind (·.reachableTimeMsec), Caches s.reachableTimeMsec v) ∧
        ∀ v ∈ commit.l3cd.bind (·.retransTimerMsec), Caches s.retransTimerMsec v)

/-! ## One parameter -/

section Param

variable {α : Type} [DecidableEq α] {write : String → α → NdiscWrite} {ifname : Option String}
  {value : Option α} {cached : NdiscCached α}

/-- What the cache says is what the kernel got. -/
def Kept (param : NdiscWrite → Option α) (cached : NdiscCached α) (writes : List NdiscWrite) : Prop :=
  cached.set → lastWrite param writes = some cached.value

theorem commitParam_other {β : Type} (write : String → α → NdiscWrite)
    (param : NdiscWrite → Option β) (hother : ∀ name v, param (write name v) = none) (set : Bool) (v : α) :
    (commitParam write ifname set v cached).2.filterMap param = [] := by
  unfold commitParam
  split_ifs
  · cases ifname with
    | none => rfl
    | some name => simp [hother]
  · rfl

variable {param : NdiscWrite → Option α} {writes : List NdiscWrite}

theorem commitParam_changed (write : String → α → NdiscWrite)
    (hparam : ∀ name v, param (write name v) = some v) (set : Bool)
    (v : α) :
    ∀ w ∈ (commitParam write ifname set v cached).2.filterMap param,
      ¬ cached.set ∨ cached.value ≠ w := by
  unfold commitParam
  split_ifs with hchanged
  · cases ifname with
    | none => simp
    | some name => simpa [hparam] using hchanged.2
  · simp

theorem commitParam_kept (write : String → α → NdiscWrite) (default : α)
    (hparam : ∀ name v, param (write name v) = some v)
    (hkept : Kept param cached writes) (hname : ifname = none → ∀ v ∈ value, Caches cached v) :
    Kept param (commitParam write ifname value.isSome (outVal default value) cached).1
        (writes ++ (commitParam write ifname value.isSome (outVal default value) cached).2) ∧
      ∀ v ∈ value,
        Caches (commitParam write ifname value.isSome (outVal default value) cached).1 v := by
  unfold commitParam
  split_ifs with hchanged
  · obtain ⟨hset, hchanged⟩ := hchanged
    obtain ⟨v, rfl⟩ := Option.isSome_iff_exists.mp hset
    cases ifname with
    | none =>
      obtain ⟨hcached, hsame⟩ := hname rfl v rfl
      exact absurd hchanged (by simp [outVal, hcached, hsame])
    | some name =>
      refine ⟨fun _ => ?_, fun w hw => ⟨rfl, Option.some.inj hw⟩⟩
      simp [lastWrite, hparam]
  · refine ⟨by simpa using hkept, fun v hv => ?_⟩
    obtain rfl : value = some v := hv
    simpa [outVal] using hchanged

end Param

/-! ## The commits -/

/-- The invariant: every cached value is the last one that was written. -/
structure Inv (s : L3CfgNdiscParams) : Prop where
  reachableTime : Kept NdiscWrite.reachableTime? s.reachableTimeMsec s.writes
  retransTime : Kept NdiscWrite.retransTime? s.retransTimerMsec s.writes
  hopLimit : s.hopLimit.set = false

variable {s : L3CfgNdiscParams} {commit : NdiscCommit}

theorem Inv.commitParams (h : s.Inv) (hupdate : commit.commitType.isUpdate)
    (hreach : InReach s commit) :
    (s.commitNdiscParams commit).Inv ∧
      (∀ v ∈ commit.l3cd.bind (·.reachableTimeMsec),
        Caches (s.commitNdiscParams commit).reachableTimeMsec v) ∧
      ∀ v ∈ commit.l3cd.bind (·.retransTimerMsec),
        Caches (s.commitNdiscParams commit).retransTimerMsec v := by
  obtain ⟨-, hunnamed⟩ := hreach hupdate
  obtain ⟨hreachable, hreachableCached⟩ := commitParam_kept .reachableTime 0
    (fun _ _ => rfl) h.reachableTime fun hname => (hunnamed hname).1
  obtain ⟨hretrans, hretransCached⟩ := commitParam_kept .retransTime 0
    (fun _ _ => rfl) h.retransTime fun hname => (hunnamed hname).2
  unfold commitNdiscParams
  rw [if_pos hupdate]
  refine ⟨⟨?_, ?_, ?_⟩, hreachableCached, hretransCached⟩
  · intro hset
    rw [← hreachable hset]
    simp only [lastWrite, List.filterMap_append, List.append_nil,
      commitParam_other .retransTime NdiscWrite.reachableTime? (fun _ _ => rfl),
      commitParam_other .hopLimit NdiscWrite.reachableTime? (fun _ _ => rfl)]
  · intro hset
    rw [← hretrans hset]
    simp only [lastWrite, List.filterMap_append, List.append_nil, List.nil_append,
      commitParam_other .reachableTime NdiscWrite.retransTime? (fun _ _ => rfl),
      commitParam_other .hopLimit NdiscWrite.retransTime? (fun _ _ => rfl)]
  · simpa [commitParam] using h.hopLimit

theorem Inv.step (h : s.Inv) (hreach : InReach s commit) : (s.commitNdiscParams commit).Inv := by
  by_cases hupdate : commit.commitType.isUpdate
  · exact (h.commitParams hupdate hreach).1
  · unfold commitNdiscParams
    rw [if_neg hupdate]
    exact ⟨fun hset => absurd hset (by simp), fun hset => absurd hset (by simp), rfl⟩

theorem commitNdiscParams_changed (s : L3CfgNdiscParams) (commit : NdiscCommit) :
    ∃ new, (s.commitNdiscParams commit).writes = s.writes ++ new ∧
      (∀ v ∈ new.filterMap NdiscWrite.reachableTime?,
        ¬ s.reachableTimeMsec.set ∨ s.reachableTimeMsec.value ≠ v) ∧
      (∀ v ∈ new.filterMap NdiscWrite.retransTime?,
        ¬ s.retransTimerMsec.set ∨ s.retransTimerMsec.value ≠ v) ∧
      new.filterMap NdiscWrite.hopLimit? = [] := by
  unfold commitNdiscParams
  by_cases hupdate : commit.commitType.isUpdate
  · rw [if_pos hupdate]
    refine ⟨_, rfl, ?_, ?_, ?_⟩
    · simp only [List.filterMap_append, List.append_nil,
        commitParam_other .retransTime NdiscWrite.reachableTime? (fun _ _ => rfl),
        commitParam_other .hopLimit NdiscWrite.reachableTime? (fun _ _ => rfl)]
      exact commitParam_changed .reachableTime (fun _ _ => rfl) _ _
    · simp only [List.filterMap_append, List.append_nil, List.nil_append,
        commitParam_other .reachableTime NdiscWrite.retransTime? (fun _ _ => rfl),
        commitParam_other .hopLimit NdiscWrite.retransTime? (fun _ _ => rfl)]
      exact commitParam_changed .retransTime (fun _ _ => rfl) _ _
    · simp only [List.filterMap_append, List.nil_append,
        commitParam_other .reachableTime NdiscWrite.hopLimit? (fun _ _ => rfl),
        commitParam_other .retransTime NdiscWrite.hopLimit? (fun _ _ => rfl)]
      simp [commitParam]
  · rw [if_neg hupdate]
    exact ⟨[], by simp, by simp, by simp, rfl⟩

theorem Inv.sound (h : s.Inv) (hreach : InReach s commit) : Sound s commit := by
  intro hupdate hname
  obtain ⟨hinv, hreachable, hretrans⟩ := h.commitParams hupdate hreach
  obtain ⟨new, hwrites, hreachableNew, hretransNew, hhopLimitNew⟩ := commitNdiscParams_changed s commit
  have hnone := (hreach hupdate).1 hname
  constructor
  · refine ⟨fun v hv => ?_, new, hwrites, hreachableNew⟩
    obtain ⟨hset, rfl⟩ := hreachable v hv
    exact hinv.reachableTime hset
  · refine ⟨fun v hv => ?_, new, hwrites, hretransNew⟩
    obtain ⟨hset, rfl⟩ := hretrans v hv
    exact hinv.retransTime hset
  · refine ⟨fun v hv => ?_, new, hwrites, fun v hv => ?_⟩
    · rw [hnone] at hv
      cases hv
    · rw [hhopLimitNew] at hv
      cases hv

theorem start_inv : start.Inv :=
  ⟨fun hset => absurd hset (by decide), fun hset => absurd hset (by decide), rfl⟩

/-- The parameters reach the kernel, in every run that commits no hop limit and changes no parameter
while the interface has no name. -/
theorem ndisc_params_reach_kernel (commits : List NdiscCommit)
    (hreach : Along commitNdiscParams InReach start commits) :
    Along commitNdiscParams Sound start commits :=
  hreach.imp (fun _ _ h hcommit => h.step hcommit) start_inv fun _ _ h hcommit => h.sound hcommit

/-- The parameters are committed, then one changes, and then the commit is taken back and made
again. -/
theorem ndisc_params_reach_kernel_changed :
    Along commitNdiscParams Sound start
      [⟨.update, some ⟨some 30000, some 1000, none⟩, some "eth0"⟩,
        ⟨.reapply, some ⟨some 30000, some 2000, none⟩, some "eth0"⟩, ⟨.none, none, some "eth0"⟩,
        ⟨.update, some ⟨some 30000, some 2000, none⟩, some "eth0"⟩] :=
  ndisc_params_reach_kernel _ (by simp [Along, InReach, Caches, commitNdiscParams, commitParam])

/-- A hop limit is not written. -/
theorem hop_limit_not_written :
    ¬ ∀ commits : List NdiscCommit, Along commitNdiscParams Sound start commits := by
  intro h
  obtain ⟨hsound, -⟩ := h [⟨.update, some ⟨none, none, some 64⟩, some "eth0"⟩]
  have hwritten := (hsound rfl (by decide)).hopLimit.written 64 rfl
  revert hwritten
  decide

end L3CfgNdiscParams
end NetworkManager.Core
