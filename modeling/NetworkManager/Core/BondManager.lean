import NetworkManager.Core.FirewallNft
import Mathlib.Data.List.Destutter
import Mathlib.Data.List.Sort

/-!
# The manager of a balance-slb bond

`NMBondManager` follows the links of the platform and keeps the nftables configuration of one bond
up to date. The calls to nft are asynchronous, and a call that is pending can be cancelled. The
functions also record what they ask for: the calls, how the last check came out, the invocations
of the callback, and whether all assertions held. Log messages and the UUID in them are left out.
-/

namespace NetworkManager.Core

open Lib

/-! ## Links -/

/-- `NMLinkType`, of which only one is asked for. -/
inductive NMLinkType
  | bond
  | other (type : ℕ)
  deriving DecidableEq

structure NMPlatformLnkBond where
  mode : ℤ
  xmitHashPolicy : ℤ
  deriving DecidableEq

/-- `NMPlatformLink` with its lnk data. A link that is visible has a name. -/
structure NMPlatformLink where
  ifindex : ℤ
  name : Bytes
  name_ne : name ≠ []
  type : NMLinkType
  master : ℤ
  ifiFlags : ℕ
  lnkBond : Option NMPlatformLnkBond

def bondModeXor : ℤ := 2

def bondXmitHashPolicyVlanSrcmac : ℤ := 5

/-- `IFF_RUNNING` is this bit of the flags. -/
def iffRunningBit : ℕ := 6

def linkGetLnkBond (links : List NMPlatformLink) (ifindex : ℤ) :
    Option NMPlatformLnkBond × Option NMPlatformLink :=
  match links.find? fun l => l.ifindex = ifindex with
  | none => (none, none)
  | some l => (if l.type = .bond then l.lnkBond else none, some l)

/-- The link, if it is a bond that needs the configuration. -/
def balanceSlbBond (links : List NMPlatformLink) (ifindex : ℤ) : Option NMPlatformLink :=
  match linkGetLnkBond links ifindex with
  | (some plnkbondCtrl, some plinkCtrl) =>
    if plinkCtrl.type = .bond ∧ plnkbondCtrl.mode = bondModeXor ∧
        plnkbondCtrl.xmitHashPolicy = bondXmitHashPolicyVlanSrcmac then some plinkCtrl
    else none
  | _ => none

def runningPorts (links : List NMPlatformLink) (ifindex : ℤ) : List NMPlatformLink :=
  links.filter fun plinkPort => plinkPort.master = ifindex ∧ plinkPort.ifiFlags.testBit iffRunningBit

/-- Take the names of `curr` out of `lst`, in the order that they have in `curr`. -/
def stealMembers : List Bytes → List Bytes → List Bytes × List Bytes
  | [], lst => ([], lst)
  | m :: curr, lst =>
    if m ∈ lst then
      (m :: (stealMembers curr (lst.erase m)).1, (stealMembers curr (lst.erase m)).2)
    else stealMembers curr lst

def activeMembersResult (curr : List Bytes) (ports : List NMPlatformLink) : List Bytes :=
  let lst := ((ports.map (·.name)).insertionSort (· ≤ ·)).destutter (· ≠ ·)
  (stealMembers curr lst).1 ++ (stealMembers curr lst).2

/-! ## The manager -/

inductive RegistrationState
  | none
  | upping
  | up
  | downing
  deriving DecidableEq

inductive NMOptionBool
  | default
  | false
  | true
  deriving DecidableEq

/-- A call of nft that has not completed yet, with the cancellable that it was started with and
the members that are forgotten when it succeeds. -/
structure NftCall where
  cancellable : ℕ
  up : Bool
  bondIfname : Bytes
  bondIfnamesDown : List Bytes
  activeMembers : List Bytes
  previousMembers : List Bytes
  withCounters : Bool
  deriving DecidableEq

def NftCall.stdin (call : NftCall) : List NftCmd :=
  nftStdioMlag call.up call.bondIfname call.bondIfnamesDown call.activeMembers
    call.previousMembers call.withCounters

/-- The error of a call that did not succeed. -/
inductive NftError
  | cancelled
  | failed
  deriving DecidableEq

/-- `NMBondManager`. A list of members is empty where it is `NULL` in the source. -/
structure NMBondManager where
  callback : Bool
  reconfigureOnIdleSource : Bool
  previousIfindexes : List ℤ
  previousMembers : List Bytes
  cancellable : Option ℕ
  bondIfnameCurr : Option Bytes
  bondIfnameNext : Option Bytes
  activeMembersCurr : List Bytes
  activeMembersNext : List Bytes
  linkChangedId : Bool
  ifindex : ℤ
  regState : RegistrationState
  destroyed : Bool
  reconfigureCheck : Bool
  nftInProgress : Bool
  nftGood : Bool
  state : NMOptionBool
  /-- The calls that are pending. -/
  calls : List NftCall
  /-- The next cancellable that is created. -/
  nextCancellable : ℕ
  /-- The cancellables that were cancelled. -/
  cancelled : List ℕ
  /-- What the last `_reconfigure_check()` wants to be configured. -/
  lastCheck : Option (Bytes × List Bytes)
  /-- The states that the callback was invoked for. -/
  stateEvents : List NMOptionBool
  /-- How often the memory was released. -/
  freed : ℕ
  /-- All assertions held so far. -/
  ok : Bool
  deriving DecidableEq

namespace NMBondManager

def assert (self : NMBondManager) (cond : Bool) : NMBondManager :=
  { self with ok := self.ok && cond }

def assertSelf (self : NMBondManager) : Bool :=
  (self.cancellable.all fun id => id ∉ self.cancelled) &&
  (self.activeMembersCurr = [] || self.bondIfnameCurr.isSome) &&
  (self.activeMembersNext = [] || self.bondIfnameNext.isSome) &&
  (self.cancellable.isNone || self.nftInProgress) &&
  (!self.reconfigureOnIdleSource || self.reconfigureCheck) &&
  (!self.nftInProgress || !self.reconfigureOnIdleSource) &&
  (self.activeMembersCurr = [] || self.bondIfnameCurr ≠ some []) &&
  (self.activeMembersNext = [] || self.bondIfnameNext ≠ some []) &&
  (!self.destroyed || self.bondIfnameNext.isNone) &&
  (!self.destroyed || self.regState = .upping || self.regState = .downing) &&
  match self.regState with
  | .none => !self.nftInProgress && self.cancellable.isNone && self.bondIfnameCurr.isNone &&
      self.bondIfnameNext.isNone
  | .upping => self.nftInProgress && self.bondIfnameCurr.isSome
  | .up => !self.nftInProgress && self.cancellable.isNone && self.bondIfnameCurr.isSome &&
      self.bondIfnameNext.isNone
  | .downing => self.nftInProgress && self.bondIfnameCurr.isSome

def notifyStateChange (self : NMBondManager) : NMBondManager :=
  let state := if self.nftInProgress then .default else if self.nftGood then .true else .false
  if state = self.state then self
  else { self with
    state
    stateEvents := if self.callback then self.stateEvents ++ [state] else self.stateEvents }

/-- `nm_clear_g_cancellable()` -/
def clearCancellable (self : NMBondManager) : NMBondManager :=
  { self with cancellable := none, cancelled := self.cancellable.toList ++ self.cancelled }

def clearNext (self : NMBondManager) : NMBondManager :=
  { self with bondIfnameNext := none, activeMembersNext := [] }

def forgottenMembers (self : NMBondManager) (active : List Bytes) : List Bytes :=
  (self.previousMembers.filter (· ∉ active)).insertionSort (· ≤ ·)

def newCall (self : NMBondManager) (trace up : Bool) (bondIfname : Bytes)
    (bondIfnamesDown active : List Bytes) : NftCall where
  cancellable := self.nextCancellable
  up
  bondIfname
  bondIfnamesDown
  activeMembers := active
  previousMembers := if up then self.forgottenMembers active else []
  withCounters := trace

/-- `_nft_call()`. The assertions are those of `nm_firewall_nft_stdio_mlag()`. -/
def nftCall (self : NMBondManager) (trace up : Bool) (bondIfname : Bytes)
    (bondIfnamesDown active : List Bytes) : NMBondManager :=
  let call := self.newCall trace up bondIfname bondIfnamesDown active
  { self.clearCancellable with
    previousMembers := if up then self.previousMembers ∪ active else self.previousMembers
    cancellable := some self.nextCancellable
    nextCancellable := self.nextCancellable + 1
    nftInProgress := true
    reconfigureOnIdleSource := self.reconfigureOnIdleSource && !self.reconfigureCheck
    calls := self.calls ++ [call]
    ok := self.ok && (decide active.Nodup && call.previousMembers.all (· ∉ active)) }

/-- `_reconfigure_do()` in the state none. -/
def reconfigureNone (self : NMBondManager) (trace : Bool) (config : Option (Bytes × List Bytes)) :
    NMBondManager :=
  let self := self.assert (self.bondIfnameCurr.isNone && self.activeMembersCurr = [] &&
    self.bondIfnameNext.isNone && self.activeMembersNext = [] && self.cancellable.isNone &&
    !self.nftInProgress)
  match config with
  | none => self
  | some (bondIfname, active) =>
    { { self with
          bondIfnameCurr := some bondIfname
          activeMembersCurr := active }.nftCall trace true bondIfname [] active with
      regState := .upping }

/-- `_reconfigure_do()` in the state upping. -/
def reconfigureUpping (self : NMBondManager) (reapply : Bool)
    (config : Option (Bytes × List Bytes)) : NMBondManager :=
  let self := self.assert (self.bondIfnameCurr.isSome && self.nftInProgress)
  match config with
  | none => self.clearNext.clearCancellable
  | some (bondIfname, active) =>
    if !reapply ∧ self.cancellable.isSome ∧ some bondIfname = self.bondIfnameCurr ∧
        active = self.activeMembersCurr then
      self.assert (self.bondIfnameNext.isNone && self.activeMembersNext = [])
    else if !reapply ∧ self.cancellable.isNone ∧ some bondIfname = self.bondIfnameNext ∧
        active = self.activeMembersNext then self
    else
      { self with
        bondIfnameNext := some bondIfname
        activeMembersNext := active }.clearCancellable

/-- `_reconfigure_do()` in the state up. -/
def reconfigureUp (self : NMBondManager) (trace reapply : Bool)
    (config : Option (Bytes × List Bytes)) : NMBondManager :=
  let self := self.assert (self.bondIfnameCurr.isSome && self.bondIfnameNext.isNone &&
    self.activeMembersNext = [] && self.cancellable.isNone && !self.nftInProgress)
  match config with
  | none =>
    { self.nftCall trace false (self.bondIfnameCurr.getD []) [] [] with regState := .downing }
  | some (bondIfname, active) =>
    if !reapply ∧ some bondIfname = self.bondIfnameCurr ∧ active = self.activeMembersCurr then self
    else
      { self.nftCall trace true bondIfname self.bondIfnameCurr.toList active with
        regState := .upping
        bondIfnameCurr := some bondIfname
        activeMembersCurr := active }

/-- `_reconfigure_do()` in the state downing. -/
def reconfigureDowning (self : NMBondManager) (config : Option (Bytes × List Bytes)) :
    NMBondManager :=
  let self := self.assert (self.bondIfnameCurr.isSome && self.nftInProgress)
  if config.map Prod.fst = self.bondIfnameNext ∧
      (config.map Prod.snd).getD [] = self.activeMembersNext then self
  else { self with
    bondIfnameNext := config.map Prod.fst
    activeMembersNext := (config.map Prod.snd).getD [] }

/-- `_reconfigure_do()`, where `config` is the name and the active members. -/
def reconfigureDo (self : NMBondManager) (trace reapply : Bool)
    (config : Option (Bytes × List Bytes)) : NMBondManager :=
  let self := self.assert self.assertSelf
  notifyStateChange <|
    match self.regState with
    | .none => self.reconfigureNone trace config
    | .upping => self.reconfigureUpping reapply config
    | .up => self.reconfigureUp trace reapply config
    | .downing => self.reconfigureDowning config

/-- What `_reconfigure_check()` finds in the platform. -/
def checkedConfig (self : NMBondManager) (links : List NMPlatformLink) :
    Option (Bytes × List Bytes) :=
  (balanceSlbBond links self.ifindex).map fun plinkCtrl =>
    (plinkCtrl.name, activeMembersResult self.activeMembersCurr (runningPorts links self.ifindex))

def membersComplete (self : NMBondManager) (links : List NMPlatformLink) : Bool :=
  let ports := runningPorts links self.ifindex
  let lst := ((ports.map (·.name)).insertionSort (· ≤ ·)).destutter (· ≠ ·)
  (activeMembersResult self.activeMembersCurr ports).length = lst.length

def reconfigureCheckNow (self : NMBondManager) (trace : Bool) (links : List NMPlatformLink)
    (reapply : Bool) : NMBondManager :=
  let self := (self.assert self.assertSelf).assert !self.destroyed
  let config := self.checkedConfig links
  { self with
      reconfigureCheck := false
      reconfigureOnIdleSource := false
      previousIfindexes :=
        if config.isSome then (runningPorts links self.ifindex).map NMPlatformLink.ifindex else []
      lastCheck := config
      ok := self.ok && (config.isNone || self.membersComplete links) }.reconfigureDo
    trace reapply config

def bondManagerDestroy (self : NMBondManager) : NMBondManager :=
  let self := self.assert (self.destroyed && self.regState = .none && !self.linkChangedId &&
    self.cancellable.isNone && self.bondIfnameCurr.isNone && self.activeMembersCurr = [] &&
    !self.reconfigureOnIdleSource)
  { self.clearNext with freed := self.freed + 1 }

/-- The end of `_nft_call_cb()` -/
def callOut (self : NMBondManager) (trace : Bool) (links : List NMPlatformLink) : NMBondManager :=
  notifyStateChange <|
    if self.reconfigureCheck then
      if self.destroyed then self.assert false
      else if !self.nftInProgress then
        (self.assert !self.reconfigureOnIdleSource).reconfigureCheckNow trace links false
      else self
    else self

/-- Configure next instead of what was configured. -/
def callNext (self : NMBondManager) (trace : Bool) (bondIfnameNext : Bytes) : NMBondManager :=
  { self.nftCall trace true bondIfnameNext self.bondIfnameCurr.toList self.activeMembersNext with
    regState := .upping
    bondIfnameCurr := some bondIfnameNext
    activeMembersCurr := self.activeMembersNext
    bondIfnameNext := none
    activeMembersNext := [] }

/-- What a call leaves of the previous members. -/
def prunePrevious (self : NMBondManager) (error : Option NftError) (up : Bool)
    (previous : List Bytes) : NMBondManager :=
  match error with
  | some _ => self
  | none =>
    { self with
      previousMembers := if up then self.previousMembers.filter (· ∉ previous) else [] }

/-- `_nft_call_cb()` after the call was cancelled. -/
def callCancelled (self : NMBondManager) (trace : Bool) : NMBondManager :=
  match self.regState with
  | .none | .up | .downing => self.assert false
  | .upping =>
    let self := self.assert self.bondIfnameCurr.isSome
    match self.bondIfnameNext with
    | none =>
      { self.nftCall trace false (self.bondIfnameCurr.getD []) [] [] with regState := .downing }
    | some bondIfnameNext => self.callNext trace bondIfnameNext

/-- `_nft_call_cb()` after a call that was not cancelled. -/
def callFinished (self : NMBondManager) (trace : Bool) (links : List NMPlatformLink) :
    NMBondManager :=
  match self.regState with
  | .none | .up => (self.assert false).callOut trace links
  | .upping => { self.assert self.bondIfnameNext.isNone with regState := .up }.callOut trace links
  | .downing =>
    let self := self.assert self.bondIfnameCurr.isSome
    match self.bondIfnameNext with
    | none =>
      let self := { self with bondIfnameCurr := none, activeMembersCurr := [], regState := .none }
      if self.destroyed then self.bondManagerDestroy else self.callOut trace links
    | some bondIfnameNext => (self.callNext trace bondIfnameNext).callOut trace links

def nftCallCb (self : NMBondManager) (trace : Bool) (links : List NMPlatformLink)
    (error : Option NftError) (up : Bool) (previous : List Bytes) : NMBondManager :=
  let self := { self.assert self.assertSelf with nftInProgress := false }
  let self := (self.prunePrevious error up previous).clearCancellable
  if error = some .cancelled then (self.callCancelled trace).callOut trace links
  else { self with nftGood := error.isNone }.callFinished trace links

def linkChanged (self : NMBondManager) (ifindex : ℤ) (plink : NMPlatformLink) : NMBondManager :=
  if self.reconfigureCheck then self
  else if self.destroyed then self
  else if ifindex = self.ifindex ∨ plink.master = self.ifindex ∨
      ifindex ∈ self.previousIfindexes then
    { self with reconfigureCheck := true, reconfigureOnIdleSource := !self.nftInProgress }
  else self

def reconfigureCheckOnIdle (self : NMBondManager) (trace : Bool) (links : List NMPlatformLink) :
    NMBondManager :=
  (self.assert !self.nftInProgress).reconfigureCheckNow trace links false

def reapply (self : NMBondManager) (trace : Bool) (links : List NMPlatformLink) : NMBondManager :=
  self.reconfigureCheckNow trace links true

/-- The manager before the first check. -/
def init (ifindex : ℤ) (callback : Bool) : NMBondManager where
  callback
  reconfigureOnIdleSource := false
  previousIfindexes := []
  previousMembers := []
  cancellable := none
  bondIfnameCurr := none
  bondIfnameNext := none
  activeMembersCurr := []
  activeMembersNext := []
  linkChangedId := true
  ifindex
  regState := .none
  destroyed := false
  reconfigureCheck := false
  nftInProgress := false
  nftGood := true
  state := .default
  calls := []
  nextCancellable := 0
  cancelled := []
  lastCheck := none
  stateEvents := []
  freed := 0
  ok := true

def new (ifindex : ℤ) (callback trace : Bool) (links : List NMPlatformLink) : NMBondManager :=
  (init ifindex callback).reconfigureCheckNow trace links true

def destroy (self : NMBondManager) (trace : Bool) : NMBondManager :=
  let self := { self.clearNext with
    destroyed := true
    callback := false
    linkChangedId := false
    reconfigureOnIdleSource := false
    reconfigureCheck := false }
  match self.regState with
  | .none => self.bondManagerDestroy
  | .upping => self.clearCancellable
  | .up =>
    { self.nftCall trace false (self.bondIfnameCurr.getD []) [] [] with regState := .downing }
  | .downing => self

end NMBondManager

/-! ## The manager between the platform and nft -/

/-- The manager, what it finds in the platform, whether trace messages are logged, the ruleset,
and whether a call failed that was not cancelled. -/
structure BondManagerSystem where
  self : NMBondManager
  links : List NMPlatformLink
  trace : Bool
  nft : NftRuleset
  failed : Bool

inductive BondManagerEvent
  /-- The log level is changed. -/
  | logging (trace : Bool)
  /-- The platform changed, and emits the signal for one link. -/
  | linkChanged (links : List NMPlatformLink) (ifindex : ℤ) (plink : NMPlatformLink)
  | idle
  | reapply
  /-- The call with this cancellable completes. -/
  | complete (id : ℕ) (failed tookEffect : Bool)
  | destroy

namespace BondManagerSystem

/-- There is no configuration when `nm_bond_manager_new()` is called. -/
def start (ifindex : ℤ) (callback trace : Bool) (links : List NMPlatformLink) :
    BondManagerSystem where
  self := .new ifindex callback trace links
  links
  trace
  nft _ := none
  failed := false

def callError (s : BondManagerSystem) (call : NftCall) (failed : Bool) : Option NftError :=
  if call.cancellable ∈ s.self.cancelled then some .cancelled
  else if failed ∨ (s.nft.run call.stdin).isNone then some .failed
  else none

def nftAfter (s : BondManagerSystem) (call : NftCall) (failed tookEffect : Bool) : NftRuleset :=
  if s.callError call failed = none ∨ tookEffect then (s.nft.run call.stdin).getD s.nft else s.nft

def complete (s : BondManagerSystem) (call : NftCall) (failed tookEffect : Bool) :
    BondManagerSystem :=
  { s with
    self := { s.self with
      calls := s.self.calls.filter fun c => c.cancellable ≠ call.cancellable }.nftCallCb
        s.trace s.links (s.callError call failed) call.up call.previousMembers
    nft := s.nftAfter call failed tookEffect
    failed := s.failed || s.callError call failed = some .failed }

/-- The signal, the idle source and a completion only come while the manager waits for them. The
owner does not use the manager any more after it destroyed it. -/
def step (s : BondManagerSystem) : BondManagerEvent → BondManagerSystem
  | .logging trace => { s with trace }
  | .linkChanged links ifindex plink =>
    { s with
      links
      self := if s.self.linkChangedId then s.self.linkChanged ifindex plink else s.self }
  | .idle =>
    if s.self.reconfigureOnIdleSource then
      { s with self := s.self.reconfigureCheckOnIdle s.trace s.links }
    else s
  | .reapply =>
    if s.self.destroyed then s else { s with self := s.self.reapply s.trace s.links }
  | .complete id failed tookEffect =>
    match s.self.calls.find? fun c => c.cancellable = id with
    | none => s
    | some call => s.complete call failed tookEffect
  | .destroy => if s.self.destroyed then s else { s with self := s.self.destroy s.trace }

end BondManagerSystem

end NetworkManager.Core
