-- The route following plugin: it has the lane changes planned that the route requires, and then
-- fills what is left of the lateral plan with lane keeping.
import Carma.GuidanceRouteService
import Carma.LaneChangePlugin
import Carma.Lib.Loops
import Carma.TrajectoryWindows

open lib lib.loops
open carma.lane_change (LaneChangeParameters Reservation canPlan newFutureManeuver
  populateFutureManeuverWithLaneChange populateFutureManeuverWithSteadySpeed)
open carma.maneuvers
open carma.route_service
open carma.trajectory

namespace carma.route_following

/-! ## The route service -/

/-- `RequiredLane`: a lane, and the place from which on the route requires it. -/
structure RequiredLane (K : Type) where
  location : K
  laneId : ℤ
deriving DecidableEq

/-- A set of required lanes. No two are at one place. -/
structure RequiredLanes (K : Type) [LT K] where
  lanes : List (RequiredLane K)
  sorted : lanes.Pairwise (fun a b => a.location < b.location)

variable {K : Type} [LinearOrder K]

def RequiredLanes.getRequiredLaneAtLocation (s : RequiredLanes K) (location : K) :
    Option (RequiredLane K) :=
  s.lanes.find? fun lane => decide (lane.location ≥ location)

def RequiredLanes.getRequiredLanesInRange (s : RequiredLanes K) (start end_ : K) :
    List (RequiredLane K) :=
  sorted_set.copyRange RequiredLane.location start end_ [] s.lanes

/-! ## Maneuvers at a location -/

def getManeuverAt (t : Trajectory K) (loc : K) : ManeuverType → Option (IManeuver K)
  | .LATERAL =>
    ((t.lateralManeuvers.findIntersectionsWithPt loc).head?.bind (·.data)).map ofLateral
  | .LONGITUDINAL =>
    ((t.longitudinalManeuvers.findIntersectionsWithPt loc).head?.bind (·.data)).map ofLongitudinal
  | .COMPLEX => t.complexManeuver.bind fun c =>
      if c.startDist ≤ loc ∧ c.endDist > loc then some (.complex c) else none

def getManeuversAt (t : Trajectory K) (loc : K) : List (IManeuver K) :=
  ((t.longitudinalManeuvers.findIntersectionsWithPt loc).filterMap (·.data)).map ofLongitudinal ++
    ((t.lateralManeuvers.findIntersectionsWithPt loc).filterMap (·.data)).map ofLateral ++
    (t.complexManeuver.toList.filter fun c =>
      decide (loc ≥ c.startDist) && decide (loc < c.endDist)).map .complex

/-- Maneuvers are planned at the start of a lane change, or in the middle of it. None where a
search throws. -/
def spaceIsNeeded (t : Trajectory K) (laneChangeStartLocation laneChangeEndLocation : K) :
    Option Bool := do
  let mvrsAtStart := getManeuversAt t laneChangeStartLocation
  let mvrsAtEnd := getManeuversAt t laneChangeEndLocation
  let endOfMvrsAtStart := mvrsAtStart.foldl
    (fun end_ m => if m.endDist > end_ then m.endDist else end_) laneChangeStartLocation
  let nextLonMvr ← t.getNextManeuverAfter endOfMvrsAtStart .LONGITUDINAL
  let nextLatMvr ← t.getNextManeuverAfter endOfMvrsAtStart .LATERAL
  let nextCmplxMvr ← t.getNextManeuverAfter endOfMvrsAtStart .COMPLEX
  let startOfMvrsAtEnd := mvrsAtEnd.foldl
    (fun start m => if m.endDist < start then m.startDist else start) laneChangeEndLocation
  let comesBefore (m : Option (IManeuver K)) : Bool :=
    m.any fun (m : IManeuver K) => decide (m.startDist < startOfMvrsAtEnd)
  return comesBefore nextLonMvr || comesBefore nextLatMvr || comesBefore nextCmplxMvr ||
    !mvrsAtStart.isEmpty

/-! ## The plugins -/

/-- How the waiting of `plan` ends: it does not come to it, the request expires, a neighbor refuses
it, or the time is over before either. -/
inductive Negotiation
  | fails
  | expires
  | refused
  | runsOut
deriving DecidableEq

/-- What the lane change plugin plans by: the required lane of the segment at a location, the speed
and the acceleration of the vehicle, and what comes of the negotiations. -/
structure LaneChanging (K : Type) where
  startingLane : K → Option ℤ
  currentSpeed : K
  maxAccel : K
  negotiation : LaneChangeParameters K → K → K → Negotiation

structure RouteFollowingPlugin (K : Type) [LT K] where
  laneChangeRateFactor : K
  laneChangeDelayFactor : K
  laneChangeSafetyFactor : K
  laneChangeNotificationTime : K
  limits : SpeedLimits K
  requiredLanes : RequiredLanes K
  laneChanging : LaneChanging K

variable [Field K]

/-- `onInitialize`, with the parameters that it reads. -/
def onInitialize (lane_change_rate_factor lane_change_delay_factor lane_change_safety_factor
    lane_change_notification_time : Option K) (limits : SpeedLimits K)
    (requiredLanes : RequiredLanes K) (laneChanging : LaneChanging K) : RouteFollowingPlugin K where
  laneChangeRateFactor := lane_change_rate_factor.getD ((3 : ℕ) / (4 : ℕ))
  laneChangeDelayFactor := lane_change_delay_factor.getD ((3 : ℕ) / (2 : ℕ))
  laneChangeSafetyFactor := lane_change_safety_factor.getD ((3 : ℕ) / (2 : ℕ))
  laneChangeNotificationTime := lane_change_notification_time.getD (4 : ℕ)
  limits := limits
  requiredLanes := requiredLanes
  laneChanging := laneChanging

def EPSILON : K := 1 / (1000 : ℕ)

/-- `plan` of the lane change plugin comes to its end: where the two future maneuvers are filled,
this does not throw. A refusal whose handler throws is not the end of the waiting. -/
def LaneChanging.plan (p : LaneChanging K) (params : LaneChangeParameters K) (lane : ℤ)
    (startDist endDist : K) : Bool :=
  let r : Reservation K :=
    ⟨lane, newFutureManeuver startDist endDist, newFutureManeuver startDist endDist⟩
  match p.negotiation params startDist endDist with
  | .fails => false
  | .expires => (populateFutureManeuverWithLaneChange p.maxAccel params r).2
  | .refused => (populateFutureManeuverWithSteadySpeed p.maxAccel params r).2
  | .runsOut => true

/-- `planSubtrajectory` of the lane change plugin, as far as the trajectory goes: the two future
maneuvers are reserved, and `plan` fills them where they are. None where it throws. -/
def LaneChanging.planSubtrajectory (p : LaneChanging K) (params : LaneChangeParameters K)
    (traj : Trajectory K) (startDistance endDistance : K) : Option (Trajectory K) :=
  if params.targetLane > -1 then do
    let startingLane ← p.startingLane startDistance
    let lane := params.targetLane - startingLane
    if canPlan p.currentSpeed startDistance endDistance then
      match traj.addManeuver (.lateral (.future startDistance endDistance lane [])) with
      | (none, _) => none
      | (some false, traj) => some traj
      | (some true, traj) =>
        match traj.addManeuver (.longitudinal (.future
          ⟨startDistance, endDistance, params.startSpeed, params.endSpeed⟩ [])) with
        | (none, _) => none
        | (some false, traj) => some traj
        | (some true, traj) =>
          if p.plan params lane startDistance endDistance then some traj else none
    else some traj
  else some traj

/-! ## The lane changes -/

def changeStart (traj : Trajectory K) (location distanceForLaneChange : K) : K :=
  let laneChangeStartLocation := location - distanceForLaneChange
  let laneChangeStartLocation :=
    if laneChangeStartLocation < traj.startLocation then traj.startLocation
    else laneChangeStartLocation
  match getManeuverAt traj laneChangeStartLocation .LATERAL with
  | some lateralManeuverAtStartLocation => lateralManeuverAtStartLocation.endDist
  | none => laneChangeStartLocation

namespace RouteFollowingPlugin

def speedLimitAt (p : RouteFollowingPlugin K) (location : K) : Option K :=
  (p.limits.getSpeedLimitAtLocation location).join.map SpeedLimit.limit

def lanesOf (p : RouteFollowingPlugin K) (traj : Trajectory K) : List (RequiredLane K) :=
  let requiredLanes :=
    p.requiredLanes.getRequiredLanesInRange traj.startLocation traj.endLocation
  match p.requiredLanes.getRequiredLaneAtLocation traj.endLocation with
  | none => requiredLanes
  | some laneChangeAfterTraj =>
    sorted_set.add (sorted_set.byKey RequiredLane.location) requiredLanes laneChangeAfterTraj

/-- Up to where a longer trajectory is asked for, so that the next lane change has its room. None
where it throws. -/
def roomForNext (p : RouteFollowingPlugin K) (traj : Trajectory K)
    (requiredLanes : List (RequiredLane K)) : Option (Option K) :=
  match requiredLanes.getLast? with
  | none => some none
  | some laneChangeAtTrajEnd =>
    if laneChangeAtTrajEnd.location > traj.endLocation then do
      let speedLimit ← p.speedLimitAt laneChangeAtTrajEnd.location
      let distanceRequiredForLaneChange := speedLimit * (p.laneChangeDelayFactor +
        p.laneChangeRateFactor + p.laneChangeSafetyFactor + p.laneChangeNotificationTime)
      let distanceAvailableForLaneChange := laneChangeAtTrajEnd.location - traj.endLocation
      if distanceAvailableForLaneChange < distanceRequiredForLaneChange then
        return some laneChangeAtTrajEnd.location
      else return none
    else some none

/-- One lane change: the trajectory after it, and where a longer trajectory is to end that is asked
for. None where it throws. -/
def planLaneChange (p : RouteFollowingPlugin K) (traj : Trajectory K)
    (targetLane : RequiredLane K) : Option (Trajectory K × Option K) :=
  if targetLane.location > traj.endLocation then some (traj, none)
  else do
    let speedLimit ← p.speedLimitAt targetLane.location
    let distanceForLaneChange := speedLimit * p.laneChangeDelayFactor +
      speedLimit * p.laneChangeRateFactor + speedLimit * p.laneChangeSafetyFactor
    let laneChangeStartLocation := changeStart traj targetLane.location distanceForLaneChange
    let laneChangeEndLocation := laneChangeStartLocation + distanceForLaneChange
    if laneChangeEndLocation > traj.endLocation then
      return (traj, some (laneChangeEndLocation + speedLimit * (1 / (2 : ℕ))))
    else
      let needed ← spaceIsNeeded traj laneChangeStartLocation laneChangeEndLocation
      let startSpeedLimit ← p.speedLimitAt laneChangeStartLocation
      let endSpeedLimit ← p.speedLimitAt laneChangeEndLocation
      if needed then return (traj, none)
      else
        let traj ← p.laneChanging.planSubtrajectory
          ⟨targetLane.laneId, startSpeedLimit, endSpeedLimit⟩ traj laneChangeStartLocation
          laneChangeEndLocation
        return (traj, none)

/-- The lane changes one after the other, up to the first that asks for a longer trajectory. -/
def planLaneChanges (p : RouteFollowingPlugin K) :
    Trajectory K → List (RequiredLane K) → Option (Trajectory K × Option K)
  | traj, [] => some (traj, none)
  | traj, targetLane :: requiredLanes => do
    match ← p.planLaneChange traj targetLane with
    | (traj, some newEnd) => return (traj, some newEnd)
    | (traj, none) => p.planLaneChanges traj requiredLanes

def planLanes (p : RouteFollowingPlugin K) (traj : Trajectory K) :
    Option (Trajectory K × Option K) := do
  let requiredLanes := p.lanesOf traj
  match ← p.roomForNext traj requiredLanes with
  | some newEnd => return (traj, some newEnd)
  | none => p.planLaneChanges traj requiredLanes

end RouteFollowingPlugin

/-! ## The lane keeping -/

/-- What comes of `planTrajectory`: an exception, or a response, which may ask for a longer
trajectory. -/
inductive Outcome (K : Type) [LE K]
  | threw
  | returned (traj : Trajectory K) (newEnd : Option K)

/-- `planLaneKeepingManeuver`. It throws for a stretch that does not end after it starts, and does
not look whether the maneuver was taken. -/
def planLaneKeepingManeuver (traj : Trajectory K) (startDist endDist : K) : Option (Trajectory K) :=
  if endDist ≤ startDist then none
  else
    match traj.addManeuver (.lateral (.single startDist endDist 0)) with
    | (none, _) => none
    | (some _, traj) => some traj

def nextTurn : Option (Trajectory K) → Turn (Trajectory K) (Outcome K)
  | none => .ends .threw
  | some traj => .goesOn traj

def lastTurn : Option (Trajectory K) → Turn (Trajectory K) (Outcome K)
  | none => .ends .threw
  | some traj => .ends (.returned traj none)

def backfill (traj : Trajectory K) : Turn (Trajectory K) (Outcome K) :=
  let windowStart := traj.findEarliestLateralWindowOfSize EPSILON
  if windowStart = -1 then .ends (.returned traj none)
  else
    match traj.getNextManeuverAfter windowStart .LATERAL with
    | none => .ends .threw
    | some m =>
      let windowEnd := (m.map IManeuver.startDist).getD traj.endLocation
      match traj.complexManeuver.filter fun c => decide (windowEnd > c.startDist) with
      | some c => lastTurn (planLaneKeepingManeuver traj windowStart c.startDist)
      | none => nextTurn (planLaneKeepingManeuver traj windowStart windowEnd)

/-- `planTrajectory`, if its last loop is over within so many turns. -/
def RouteFollowingPlugin.planTrajectory (p : RouteFollowingPlugin K) (turns : ℕ)
    (traj : Trajectory K) : Option (Outcome K) :=
  match p.planLanes traj with
  | none => some .threw
  | some (traj, some newEnd) => some (.returned traj (some newEnd))
  | some (traj, none) => loop backfill turns traj

end carma.route_following
