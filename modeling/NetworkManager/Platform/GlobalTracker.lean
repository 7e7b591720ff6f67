import NetworkManager.Lib.Keyed
import Mathlib.Data.Int.Notation

/-!
# The global tracker

`NMPGlobalTracker` tracks objects of the whole network namespace on behalf of
several user tags and commits them to the platform cache. The hash tables
`by_data`, `by_user_tag` and the lists linked through them are one list of
`TrackData` in the order in which the entries were tracked; `by_obj` and the
`by_obj_lst_heads` are one list of `TrackObjData`.
-/

namespace NetworkManager.Platform

open Lib

/-- The object types that can be tracked. -/
inductive NmpObjectType
  | ip4Route
  | ip6Route
  | routingRule
  | mptcpAddr
  deriving DecidableEq

/-- What the tracker asks of the `NMPObject` class of its objects. `objId` is the
primary key that `nmp_object_id_equal()` compares; object type and ifindex are
part of it. Objects equal by `nmp_object_equal()` are equal here. -/
class NmpObjectClass (Obj : Type) (Id : outParam Type) where
  objId : Obj → Id
  objType : Obj → NmpObjectType
  ifindex : Obj → ℤ
  /-- The `*_CMP_TYPE_SEMANTICALLY` comparison yields zero. -/
  semanticallyEqual : Obj → Obj → Bool
  objType_congr : ∀ a b, objId a = objId b → objType a = objType b
  ifindex_congr : ∀ a b, objId a = objId b → ifindex a = ifindex b

open NmpObjectClass

inductive ConfigState
  | none
  | addedByUs
  | removedByUs
  | ownedByUs
  deriving DecidableEq

structure TrackData (Obj Tag : Type) where
  obj : Obj
  userTag : Tag
  trackPriorityVal : ℕ
  trackPriorityPresent : Bool
  dirty : Bool
  deriving DecidableEq

structure TrackObjData (Obj : Type) where
  obj : Obj
  configState : ConfigState
  deriving DecidableEq

structure GlobalTracker (Obj Tag : Type) where
  byData : List (TrackData Obj Tag)
  byObj : List (TrackObjData Obj)
  deriving DecidableEq

/-- A change that the tracker requests from the platform. -/
inductive PlatformOp (Obj : Type)
  | delete (obj : Obj)
  | add (obj : Obj)
  deriving DecidableEq

variable {Obj Id Tag : Type} [DecidableEq Obj] [DecidableEq Id] [DecidableEq Tag]
  [NmpObjectClass Obj Id]

/-- The key of `by_obj`. -/
def TrackObjData.id (d : TrackObjData Obj) : Id := objId d.obj

/-- The key of `by_data`. -/
def TrackData.key (td : TrackData Obj Tag) : Obj × Tag := (td.obj, td.userTag)

def PlatformOp.apply (platform : List Obj) : PlatformOp Obj → List Obj
  | .delete obj => eraseKey objId (objId obj) platform
  | .add obj => put objId obj platform

def trackable (obj : Obj) : Bool :=
  match objType obj with
  | .routingRule | .mptcpAddr => true
  | .ip4Route | .ip6Route => ifindex obj == 0

namespace GlobalTracker

def empty : GlobalTracker Obj Tag := ⟨[], []⟩

def trackDataLookup (self : GlobalTracker Obj Tag) (obj : Obj) (userTag : Tag) :
    Option (TrackData Obj Tag) :=
  lookup TrackData.key (obj, userTag) self.byData

/-- The entries that track the identity, `obj_lst_head`. -/
def objLst (self : GlobalTracker Obj Tag) (i : Id) : List (TrackData Obj Tag) :=
  self.byData.filter fun td => objId td.obj = i

/-- One iteration of the search for the winning entry. -/
def betterData (tdBest : Option (TrackData Obj Tag)) (td : TrackData Obj Tag) :
    Option (TrackData Obj Tag) :=
  match tdBest with
  | none => some td
  | some best =>
    if best.trackPriorityVal > td.trackPriorityVal then some best
    else if best.trackPriorityVal = td.trackPriorityVal ∧
        (best.trackPriorityPresent ∨ ¬ td.trackPriorityPresent) then some best
    else some td

/-- `_track_obj_data_get_best_data()` on the linked entries. -/
def bestData (objLst : List (TrackData Obj Tag)) : Option (TrackData Obj Tag) :=
  objLst.foldl betterData none

/-- `_track_obj_data_get_best_data()`, which also copies the object of the best
entry to the `TrackObjData`. -/
def getBestData (byData : List (TrackData Obj Tag)) (objData : TrackObjData Obj) :
    Option (TrackData Obj Tag) × TrackObjData Obj :=
  match bestData (byData.filter fun td => objId td.obj = objData.id) with
  | none => (none, objData)
  | some td => (some td, { objData with obj := td.obj })

def trackDataUntrack (self : GlobalTracker Obj Tag) (td : TrackData Obj Tag)
    (makeOwnedByUs : Bool) : GlobalTracker Obj Tag :=
  let byObj :=
    if makeOwnedByUs then
      modifyKey TrackObjData.id (objId td.obj)
        (fun d => if d.configState = .none then { d with configState := .ownedByUs } else d)
        self.byObj
    else self.byObj
  let single := (self.objLst (objId td.obj)).length ≤ 1
  -- touched entries stay around for the next sync, so that it can undo what was done
  let byObj :=
    match lookup TrackObjData.id (objId td.obj) byObj with
    | some d => if d.configState = .none ∧ single then
        eraseKey TrackObjData.id (objId td.obj) byObj else byObj
    | none => byObj
  { byData := eraseKey TrackData.key td.key self.byData
    byObj := byObj }

/-- The first half of `nmp_global_tracker_track()`: add or update the entry of the tag. -/
def trackSet (self : GlobalTracker Obj Tag) (obj : Obj) (trackPriority : ℤ) (userTag : Tag) :
    GlobalTracker Obj Tag × Bool :=
  let val := trackPriority.natAbs
  let present := decide (0 ≤ trackPriority)
  match self.trackDataLookup obj userTag with
  | none =>
    ({ byData := self.byData ++ [⟨obj, userTag, val, present, false⟩]
       byObj := match lookup TrackObjData.id (objId obj) self.byObj with
         | none => self.byObj ++ [⟨obj, .none⟩]
         | some _ => self.byObj }, true)
  | some td =>
    let update (td : TrackData Obj Tag) :=
      { td with trackPriorityVal := val, trackPriorityPresent := present, dirty := false }
    ({ self with byData := modifyKey TrackData.key td.key update self.byData },
      decide (td.trackPriorityVal ≠ val ∨ td.trackPriorityPresent ≠ present))

def track (self : GlobalTracker Obj Tag) (obj : Obj) (trackPriority : ℤ) (userTag : Tag)
    (userTagUntrack : Option Tag) : GlobalTracker Obj Tag × Bool :=
  if ¬ trackable obj then (self, false)
  else
    let (self, changed) := self.trackSet obj trackPriority userTag
    match userTagUntrack with
    | none => (self, changed)
    | some tagUntrack =>
      if userTag = tagUntrack then (self, changed)
      else
        match self.trackDataLookup obj tagUntrack with
        | none => (self, changed)
        | some td => (self.trackDataUntrack td true, true)

def untrack (self : GlobalTracker Obj Tag) (obj : Obj) (userTag : Tag) :
    GlobalTracker Obj Tag × Bool :=
  match self.trackDataLookup obj userTag with
  | none => (self, false)
  | some td => (self.trackDataUntrack td false, true)

def setDirty (self : GlobalTracker Obj Tag) (userTag : Tag) : GlobalTracker Obj Tag :=
  { self with byData := self.byData.map fun td =>
      if td.userTag = userTag then { td with dirty := true } else td }

/-- One iteration of `nmp_global_tracker_untrack_all()`. -/
def untrackAllOne (all makeSurvivorsDirty : Bool) (acc : GlobalTracker Obj Tag × Bool)
    (td : TrackData Obj Tag) : GlobalTracker Obj Tag × Bool :=
  if all ∨ td.dirty then (acc.1.trackDataUntrack td false, true)
  else if makeSurvivorsDirty then
    let update (td : TrackData Obj Tag) := { td with dirty := true }
    ({ acc.1 with byData := modifyKey TrackData.key td.key update acc.1.byData }, acc.2)
  else acc

def untrackAll (self : GlobalTracker Obj Tag) (userTag : Tag) (all makeSurvivorsDirty : Bool) :
    GlobalTracker Obj Tag × Bool :=
  (self.byData.filter fun td => td.userTag = userTag).foldl
    (untrackAllOne all makeSurvivorsDirty) (self, false)

/-- What the first loop of `nmp_global_tracker_sync()` does with a platform object
that has a `TrackObjData`: its new `config_state`, and whether the object is put
on `objs_to_delete`. -/
def syncPlobj (keepDeleted : Bool) (tdBest : Option (TrackData Obj Tag)) (c : ConfigState) :
    ConfigState × Bool :=
  match tdBest with
  | none => if keepDeleted then (c, false) else (.removedByUs, true)
  | some td =>
    if td.trackPriorityPresent then (if c = .ownedByUs then .addedByUs else c, false)
    else if td.trackPriorityVal = 0 then
      if c ≠ .addedByUs ∧ c ≠ .ownedByUs then (.none, false)
      else if keepDeleted then (.none, false) else (.removedByUs, true)
    else if keepDeleted then (c, false) else (.removedByUs, true)

/-- The first loop of `nmp_global_tracker_sync()` over the platform objects. -/
def syncPlobjs (keepDeleted : Bool) (byData : List (TrackData Obj Tag)) :
    List Obj → List (TrackObjData Obj) → List (TrackObjData Obj) × List Obj
  | [], byObj => (byObj, [])
  | plobj :: plobjs, byObj =>
    match lookup TrackObjData.id (objId plobj) byObj with
    | none => syncPlobjs keepDeleted byData plobjs byObj
    | some objData =>
      let best := getBestData byData objData
      let r := syncPlobj keepDeleted best.1 objData.configState
      let next := syncPlobjs keepDeleted byData plobjs
        (modifyKey TrackObjData.id (objId plobj)
          (fun _ => { best.2 with configState := r.1 }) byObj)
      (next.1, if r.2 then plobj :: next.2 else next.2)

/-- The end of the second loop of `nmp_global_tracker_sync()`: the object is to be
configured, and the platform has `plobj` under its identity. -/
def syncConfigure (objData : TrackObjData Obj) (plobj : Option Obj) :
    Option (TrackObjData Obj) × List (PlatformOp Obj) :=
  match plobj with
  | some plobj =>
    if semanticallyEqual objData.obj plobj then (some objData, [])
    else (some { objData with configState := .addedByUs }, [.delete plobj, .add objData.obj])
  | none => (some { objData with configState := .addedByUs }, [.add objData.obj])

/-- The second loop of `nmp_global_tracker_sync()` on one `TrackObjData`, given the
platform object with the same identity: the entry, unless it is dropped, and the
requests to the platform. -/
def syncObjData (tdBest : Option (TrackData Obj Tag)) (objData : TrackObjData Obj)
    (plobj : Option Obj) : Option (TrackObjData Obj) × List (PlatformOp Obj) :=
  match tdBest with
  | none => (none, [])
  | some td =>
    if ¬ td.trackPriorityPresent then
      if objData.configState = .ownedByUs then
        (some { objData with configState := .removedByUs }, [])
      else (some objData, [])
    else if td.trackPriorityVal = 0 then
      if objData.configState ≠ .removedByUs ∧ objData.configState ≠ .ownedByUs then
        (some { objData with configState := .none }, [])
      else syncConfigure { objData with configState := .none } plobj
    else syncConfigure objData plobj

/-- The second loop of `nmp_global_tracker_sync()` over the tracked objects of one type. -/
def syncObjDatas (type : NmpObjectType) (byData : List (TrackData Obj Tag)) :
    List (TrackObjData Obj) → List Obj → List (TrackObjData Obj) × List (PlatformOp Obj)
  | [], _ => ([], [])
  | objData :: objDatas, platform =>
    if objType objData.obj = type then
      let best := getBestData byData objData
      let r := syncObjData best.1 best.2 (lookup objId objData.id platform)
      let next := syncObjDatas type byData objDatas (r.2.foldl PlatformOp.apply platform)
      (r.1.toList ++ next.1, r.2 ++ next.2)
    else
      let next := syncObjDatas type byData objDatas platform
      (objData :: next.1, next.2)

def syncSelect (type : NmpObjectType) (platform : List Obj) : List Obj :=
  platform.filter fun o => objType o = type ∧ (type = .routingRule ∨ ifindex o = 0)

/-- `nmp_global_tracker_sync()`: the tracker and the requests made to the platform,
first the deletion of `objs_to_delete`, then those of the second loop. -/
def sync (self : GlobalTracker Obj Tag) (platform : List Obj) (type : NmpObjectType)
    (keepDeleted : Bool) : GlobalTracker Obj Tag × List (PlatformOp Obj) :=
  if type = .mptcpAddr then (self, [])
  else
    let first := syncPlobjs keepDeleted self.byData (syncSelect type platform) self.byObj
    let deletes := first.2.map PlatformOp.delete
    let second := syncObjDatas type self.byData first.1 (deletes.foldl PlatformOp.apply platform)
    ({ self with byObj := second.1 }, deletes ++ second.2)

end GlobalTracker
end NetworkManager.Platform
