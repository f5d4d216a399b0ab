-- The conflict manager: the paths of other vehicles in spatial maps, and the search
-- for the stretches of a host path that collide with them.
import Mathlib.Data.Finset.Dedup
import Carma.NSpatialHashMap
import Carma.Route

open lib.boxes
open carma.cartesian_object
open carma.n_spatial_hash_map
open carma.route

namespace carma.conflict_manager

/-! ## Points and boxes -/

/-- The dimensions of the box around a point, and the shares of them by which the
box of the host is moved. -/
structure Margins (K : Type) where
  downtrackMargin : K
  crosstrackMargin : K
  timeMargin : K
  lateralBias : K
  longitudinalBias : K
  temporalBias : K

abbrev PathPoint (K : Type) := RoutePointStamped K K

/-- An object of a spatial map: the how manieth that was inserted into it, which
tells it from the others, and what it is. -/
abbrev Stored (K : Type) := ℕ × CartesianObject K

variable {K : Type} [LinearOrder K] [Field K]

def Margins.boxAround (mg : Margins K) (p : PathPoint K) : CartesianObject K where
  pointCloud :=
    [[p.downtrack - mg.downtrackMargin, p.crosstrack - mg.crosstrackMargin, p.stamp - mg.timeMargin],
      [p.downtrack + mg.downtrackMargin, p.crosstrack + mg.crosstrackMargin,
        p.stamp + mg.timeMargin]]
  numDimensions := 3
  nonempty := List.cons_ne_nil _ _
  same_dimensions := by simp

/-- The point of the host, moved by the bias. It is a new point on segment 0, as the
constructor with three arguments makes it. -/
def Margins.transformed (mg : Margins K) (p : PathPoint K) : PathPoint K where
  downtrack := p.downtrack + mg.downtrackMargin * mg.longitudinalBias
  crosstrack := p.crosstrack + mg.crosstrackMargin * mg.lateralBias
  stamp := p.stamp + mg.timeMargin * mg.temporalBias
  segmentIdx := 0
  segDowntrack := 0

/-- `getPoint`. -/
def location (p : PathPoint K) : Point K := [p.downtrack, p.crosstrack, p.stamp]

/-! ## Tracked paths -/

/-- The spatial map of a path, and how many objects were inserted into it. -/
structure TrackedPath (K : Type) [LT K] [Zero K] where
  map : NSpatialHashMap K (Stored K)
  inserted : ℕ

/-- `ConflictManager`, with its route set. The keys of a map are distinct. `V` is the
type of the ids of vehicles and plans. -/
structure ConflictManager (K V : Type) [LT K] [Zero K] where
  margins : Margins K
  structureFactory : SimpleHashStrategy K
  mobilityPathSpatialMaps : List (V × TrackedPath K)
  requestedPathSpatialMaps : List (V × TrackedPath K)
  planIdMap : V → Option V
  route : Route K
  mobility_nodup : (mobilityPathSpatialMaps.map (·.1)).Nodup
  requested_nodup : (requestedPathSpatialMaps.map (·.1)).Nodup

def newTrackedPath (structureFactory : SimpleHashStrategy K) : TrackedPath K where
  map := buildSpatialStructure structureFactory
  inserted := 0

def newConflictManager {V : Type} (structureFactory : SimpleHashStrategy K) (mg : Margins K)
    (route : Route K) : ConflictManager K V where
  margins := mg
  structureFactory := structureFactory
  mobilityPathSpatialMaps := []
  requestedPathSpatialMaps := []
  planIdMap := fun _ => none
  route := route
  mobility_nodup := List.nodup_nil
  requested_nodup := List.nodup_nil

variable [FloorRing K]

def insertPoint (mg : Margins K) (t : TrackedPath K) (p : PathPoint K) : Option (TrackedPath K) := do
  let (_, map) ← t.map.insert Prod.snd (t.inserted, mg.boxAround p)
  return ⟨map, t.inserted + 1⟩

/-- `insertPoints`, none when it does not return. -/
def insertPoints (mg : Margins K) (t : TrackedPath K) (path : List (PathPoint K)) :
    Option (TrackedPath K) := path.foldlM (insertPoint mg) t

/-! ## Conflicts -/

/-- `ConflictSpace`. An id is none where the code has null. -/
structure ConflictSpace (K V : Type) where
  startDowntrack : K
  endDowntrack : K
  startTime : K
  endTime : K
  lane : ℤ
  segmentIdx : ℤ
  conflictingVehicles : Finset (Option V)

section spaces

variable {V : Type}

def newConflictSpace (startDowntrack startTime : K) (lane segmentIdx : ℤ)
    (vehicles : Finset (Option V)) : ConflictSpace K V :=
  ⟨startDowntrack, 0, startTime, 0, lane, segmentIdx, vehicles⟩

def closeConflict (mg : Margins K) (conflict : ConflictSpace K V) (endDowntrack endTime : K) :
    ConflictSpace K V :=
  { conflict with
    endDowntrack :=
      if endDowntrack - conflict.startDowntrack < mg.downtrackMargin then
        conflict.startDowntrack + mg.downtrackMargin
      else endDowntrack
    endTime :=
      if endTime - conflict.startTime < mg.timeMargin then conflict.startTime + mg.timeMargin
      else endTime }

structure Tracking (K V : Type) where
  conflicts : List (ConflictSpace K V)
  currentConflict : Option (ConflictSpace K V)
  prevPoint : Option (PathPoint K)

/-- The second half of a turn of both loops, once it is known whether the point
collides, and in which lane it is. None when it throws. The vehicles are used when a
conflict is opened, and nowhere else: to a conflict that goes on nothing is added,
and to one that ends an empty list. -/
def turn (mg : Margins K) (st : Tracking K V) (p : PathPoint K) (lane : ℤ) (collides : Bool)
    (vehicles : Finset (Option V)) : Option (Tracking K V) :=
  match collides, st.currentConflict with
  | true, none =>
    some { st with
      currentConflict := some (newConflictSpace p.downtrack p.stamp lane p.segmentIdx vehicles)
      prevPoint := some p }
  | true, some current =>
    if lane ≠ current.lane then do
      let prev ← st.prevPoint
      -- the new conflict starts where the old one ends
      return { conflicts := st.conflicts ++ [closeConflict mg current prev.downtrack prev.stamp]
               currentConflict :=
                 some (newConflictSpace prev.downtrack prev.stamp lane p.segmentIdx vehicles)
               prevPoint := some p }
    else some { st with prevPoint := some p }
  | false, some current => do
    let prev ← st.prevPoint
    return { conflicts := st.conflicts ++ [closeConflict mg current prev.downtrack prev.stamp]
             currentConflict := none
             prevPoint := some p }
  | false, none => some { st with prevPoint := some p }

def finish (mg : Margins K) (st : Tracking K V) : Option (List (ConflictSpace K V)) :=
  match st.currentConflict with
  | none => some st.conflicts
  | some current => do
    let prev ← st.prevPoint
    return st.conflicts ++ [closeConflict mg current prev.downtrack prev.stamp]

end spaces

/-! ## Collisions with tracked paths -/

/-- The map ends before the minimum time. None when the bounds are null or too short. -/
def expired (minTime : K) (t : TrackedPath K) : Option Bool := do
  let bounds ← t.map.bounds
  let row ← bounds.rows[2]?
  return decide (minTime > row.2)

/-- The box of the host point collides with the map, where the map surrounds the
centre of the box. None when the call throws or does not return. -/
def collidesWith (mg : Margins K) (t : TrackedPath K) (p : PathPoint K) : Option Bool :=
  if t.map.surrounds (location (mg.transformed p)) then do
    let found ← (t.map.getCollisionsOfNew Prod.snd (mg.boxAround (mg.transformed p))).join
    return decide (found ≠ ∅)
  else some false

variable {V : Type}

/-- The loop of `hasCollision`: the ids of the maps that collide. -/
def collisionsIn (mg : Margins K) (minTime : K) (idOf : V → Option V) (p : PathPoint K) :
    List (V × TrackedPath K) → Option (List (Option V))
  | [] => some []
  | (id, t) :: rest => do
    if ← expired minTime t then collisionsIn mg minTime idOf p rest
    else
      let collides ← collidesWith mg t p
      let conflictingVehicles ← collisionsIn mg minTime idOf p rest
      return if collides then idOf id :: conflictingVehicles else conflictingVehicles

namespace ConflictManager

variable [DecidableEq V]

/-- What `hasCollision` returns, for the mobility paths or the requested ones. -/
def reports (m : ConflictManager K V) (requested : Bool) (minTime : K) (p : PathPoint K) :
    Option (List (Option V)) :=
  if requested then collisionsIn m.margins minTime m.planIdMap p m.requestedPathSpatialMaps
  else collisionsIn m.margins minTime some p m.mobilityPathSpatialMaps

def unexpired (minTime : K) (maps : List (V × TrackedPath K)) : List (V × TrackedPath K) :=
  maps.filter fun e => decide (expired minTime e.2 ≠ some true)

/-- What `hasCollision` removes: the maps that are expired, and the vehicles of their
plans. -/
def prune (m : ConflictManager K V) (requested : Bool) (minTime : K) : ConflictManager K V :=
  if requested then
    { m with
      requestedPathSpatialMaps := unexpired minTime m.requestedPathSpatialMaps
      planIdMap := fun id =>
        if ∃ e ∈ m.requestedPathSpatialMaps, e.1 = id ∧ expired minTime e.2 = some true then none
        else m.planIdMap id
      requested_nodup := m.requested_nodup.sublist (List.filter_sublist.map _) }
  else
    { m with
      mobilityPathSpatialMaps := unexpired minTime m.mobilityPathSpatialMaps
      mobility_nodup := m.mobility_nodup.sublist (List.filter_sublist.map _) }

def setRoute (m : ConflictManager K V) (route : Route K) : ConflictManager K V :=
  { m with route := route }

/-- `hasCollision`, none when it throws or does not return. -/
def hasCollision (m : ConflictManager K V) (requested : Bool) (minTime : K) (p : PathPoint K) :
    Option (List (Option V) × ConflictManager K V) := do
  let conflictingVehicles ← m.reports requested minTime p
  return (conflictingVehicles, m.prune requested minTime)

/-! ## Conflicts with all tracked paths -/

/-- The checks of one host point. Requested paths are asked for only if no mobility
path collides. -/
def findVehicles (m : ConflictManager K V) (minTime : K) (p : PathPoint K) :
    Option (List (Option V) × ConflictManager K V) := do
  let (vehicles, m) ← m.hasCollision false minTime p
  if vehicles.isEmpty then m.hasCollision true minTime p else some (vehicles, m)

/-- One turn of `getConflicts` of a host path. -/
def checkPoint (minTime : K) (s : ConflictManager K V × Tracking K V) (p : PathPoint K) :
    Option (ConflictManager K V × Tracking K V) :=
  if p.stamp < minTime then some s
  else do
    let seg ← s.1.route.getSegment p.segmentIdx
    let lane := seg.determinePrimaryLane p.crosstrack
    let (vehicles, m) ← s.1.findVehicles minTime p
    let st ← turn m.margins s.2 p lane (!vehicles.isEmpty) vehicles.toFinset
    return (m, st)

/-- `getConflicts` of a host path at a time, none when it throws or does not return. -/
def getConflicts (m : ConflictManager K V) (minTime : K) (hostPath : List (PathPoint K)) :
    Option (List (ConflictSpace K V) × ConflictManager K V) :=
  if hostPath.isEmpty then some ([], m)
  else do
    let (m, st) ← hostPath.foldlM (checkPoint minTime) (m, ⟨[], none, none⟩)
    let conflicts ← finish m.margins st
    return (conflicts, m)

/-! ## Conflicts with one other path -/

/-- One turn of `getConflicts` of two paths. -/
def checkPair (m : ConflictManager K V) (t : TrackedPath K) (st : Tracking K V) (p : PathPoint K) :
    Option (Tracking K V) := do
  let transformed := m.margins.transformed p
  let seg ← m.route.getSegment transformed.segmentIdx
  let lane := seg.determinePrimaryLane transformed.crosstrack
  let found ← (t.map.getCollisionsOfNew Prod.snd (m.margins.boxAround transformed)).join
  turn m.margins st p lane (decide (found ≠ ∅)) ∅

/-- `getConflicts` of two paths, none when it throws or does not return. -/
def getPairConflicts (m : ConflictManager K V) (hostPath otherPath : List (PathPoint K)) :
    Option (List (ConflictSpace K V)) :=
  if hostPath.isEmpty ∨ otherPath.isEmpty then some []
  else do
    let t ← insertPoints m.margins (newTrackedPath m.structureFactory) otherPath
    let st ← hostPath.foldlM (m.checkPair t) ⟨[], none, none⟩
    finish m.margins st

/-! ## Adding and removing paths -/

/-- `addPath`: the entries of a map with a path under a key. -/
def addPath (m : ConflictManager K V) (path : List (PathPoint K)) (key : V)
    (maps : List (V × TrackedPath K)) : Option (List (V × TrackedPath K)) := do
  let vehiclesPath := (maps.lookup key).getD (newTrackedPath m.structureFactory)
  let vehiclesPath ← insertPoints m.margins vehiclesPath path
  return maps.filter (fun e => decide (e.1 ≠ key)) ++ [(key, vehiclesPath)]

theorem addPath_nodup {m : ConflictManager K V} {path : List (PathPoint K)} {key : V}
    {maps maps' : List (V × TrackedPath K)} (h : m.addPath path key maps = some maps')
    (hnodup : (maps.map (·.1)).Nodup) : (maps'.map (·.1)).Nodup := by
  obtain ⟨t, _, h⟩ := Option.bind_eq_some_iff.mp h
  obtain rfl := Option.some.inj h
  rw [List.map_append, List.nodup_append]
  refine ⟨hnodup.sublist (List.filter_sublist.map _), List.nodup_singleton _, ?_⟩
  intro id hid id' hid'
  obtain ⟨e, he, rfl⟩ := List.mem_map.mp hid
  rw [List.mem_singleton.mp hid']
  simpa using (List.mem_filter.mp he).2

/-- `addMobilityPath`, none when it does not return. -/
def addMobilityPath (m : ConflictManager K V) (path : List (PathPoint K)) (vehicleStaticId : V) :
    Option (Bool × ConflictManager K V) :=
  if path.isEmpty then some (false, m)
  else
    match h : m.addPath path vehicleStaticId m.mobilityPathSpatialMaps with
    | none => none
    | some maps => some (true, { m with
        mobilityPathSpatialMaps := maps
        mobility_nodup := addPath_nodup h m.mobility_nodup })

/-- `addRequestedPath`, none when it does not return. -/
def addRequestedPath (m : ConflictManager K V) (path : List (PathPoint K)) (planId vehicleId : V) :
    Option (Bool × ConflictManager K V) :=
  if path.isEmpty then some (false, m)
  else
    match h : m.addPath path planId m.requestedPathSpatialMaps with
    | none => none
    | some maps => some (true, { m with
        requestedPathSpatialMaps := maps
        planIdMap := Function.update m.planIdMap planId (some vehicleId)
        requested_nodup := addPath_nodup h m.requested_nodup })

def removeMobilityPath (m : ConflictManager K V) (vehicleStaticId : V) :
    Bool × ConflictManager K V :=
  ((m.mobilityPathSpatialMaps.lookup vehicleStaticId).isSome,
    { m with
      mobilityPathSpatialMaps :=
        m.mobilityPathSpatialMaps.filter fun e => decide (e.1 ≠ vehicleStaticId)
      mobility_nodup := m.mobility_nodup.sublist (List.filter_sublist.map _) })

def removeRequestedPath (m : ConflictManager K V) (planId : V) : Bool × ConflictManager K V :=
  ((m.requestedPathSpatialMaps.lookup planId).isSome,
    { m with
      requestedPathSpatialMaps := m.requestedPathSpatialMaps.filter fun e => decide (e.1 ≠ planId)
      planIdMap := Function.update m.planIdMap planId none
      requested_nodup := m.requested_nodup.sublist (List.filter_sublist.map _) })

end ConflictManager

end carma.conflict_manager
