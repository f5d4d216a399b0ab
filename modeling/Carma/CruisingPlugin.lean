-- The cruising plugin: it looks for the gaps between the longitudinal maneuvers of a
-- trajectory, and fills each with maneuvers that follow the speed limits.
import Carma.GuidanceRouteService
import Carma.ManeuverPlanner
import Carma.Trajectory
import Mathlib.Data.List.Sort

open carma.maneuvers
open carma.maneuver_planner
open carma.route_service
open carma.trajectory

namespace carma.cruising

/-- `TrajectorySegment`: a gap, and the speed at its start. -/
structure TrajectorySegment (K : Type) where
  startLocation : K
  endLocation : K
  startSpeed : K
deriving DecidableEq

structure CruisingPlugin (K : Type) [LT K] where
  maxAccel : K
  cruisingTargetMultiplier : K
  routeService : SpeedLimits K
  inputs : Inputs K

variable {K : Type} [LinearOrder K]

/-! ## The gaps -/

/-- Where the longitudinal maneuvers of a trajectory should end. -/
def planEnd (traj : Trajectory K) : K :=
  match traj.complexManeuver with
  | none => traj.endLocation
  | some c => c.startDist

def byStart (traj : Trajectory K) : List (LongitudinalManeuver K) :=
  traj.getLongitudinalManeuvers.insertionSort fun o1 o2 => o1.startDist ≤ o2.startDist

variable [Field K]

/-- `onInitialize`, with the parameters that it reads. -/
def onInitialize (vehicle_acceleration_limit cruising_target_multiplier : K)
    (routeService : SpeedLimits K) (inputs : Inputs K) : CruisingPlugin K where
  maxAccel := vehicle_acceleration_limit
  cruisingTargetMultiplier := min 1 (max 0 cruising_target_multiplier)
  routeService := routeService
  inputs := inputs

def DISTANCE_EPSILON : K := 1 / (10000 : ℕ)

def SPEED_EPSILON : K := 1 / (10000 : ℕ)

def fpEquals (a b epsilon : K) : Bool := decide (|a - b| < epsilon)

/-- The gap between two locations, unless they are the same. -/
def gapBetween (startLocation startSpeed endLocation : K) : List (TrajectorySegment K) :=
  if fpEquals startLocation endLocation DISTANCE_EPSILON then []
  else [⟨startLocation, endLocation, startSpeed⟩]

/-- The loop of `findTrajectoryGaps`. -/
def gapsFrom (endLocation : K) : K → K → List (LongitudinalManeuver K) → List (TrajectorySegment K)
  | lastManeuverEndLocation, lastManeuverEndSpeed, [] =>
    gapBetween lastManeuverEndLocation lastManeuverEndSpeed endLocation
  | lastManeuverEndLocation, lastManeuverEndSpeed, lm :: lms =>
    gapBetween lastManeuverEndLocation lastManeuverEndSpeed lm.startDist ++
      gapsFrom endLocation lm.endDist lm.motion.endSpeed lms

def findTrajectoryGaps (traj : Trajectory K) (trajStartSpeed : K) : List (TrajectorySegment K) :=
  gapsFrom (planEnd traj) traj.startLocation trajStartSpeed (byStart traj)

/-! ## One speed limit -/

/-- `addManeuver`, whose answer is not looked at. None where it throws. -/
def addTo (t : Trajectory K) (maneuver : PlannedManeuver K) : Option (Trajectory K) :=
  match t.addManeuver (.longitudinal maneuver.toManeuver) with
  | (none, _) => none
  | (some _, t) => some t

def CruisingPlugin.newManeuver (c : CruisingPlugin K) (startSpeed endSpeed : K) :
    PlannedManeuver K :=
  ((createManeuver startSpeed endSpeed).setSpeeds startSpeed endSpeed).setMaxAccel c.maxAccel

/-- The maneuver to another speed, if it can be planned. -/
def CruisingPlugin.planChange (c : CruisingPlugin K) (startDist endDist startSpeed endSpeed : K) :
    Option (Option (PlannedManeuver K)) :=
  let maneuver := c.newManeuver startSpeed endSpeed
  if canPlan c.inputs maneuver startDist endDist then do
    let maneuver ← planManeuver c.inputs maneuver startDist
    let maneuver :=
      if maneuver.kind = .steadySpeed then maneuver.overrideEndDistance endDist else maneuver
    if maneuver.motion.endDist > endDist then
      let maneuver ← planManeuverTo c.inputs maneuver startDist endDist
      return some maneuver
    else return some maneuver
  else some none

/-- A steady speed for what is left. -/
def CruisingPlugin.fillUp (c : CruisingPlugin K) (t : Trajectory K) (maneuverEnd endDist speed : K) :
    Option (Trajectory K) :=
  if maneuverEnd < endDist then do
    let steady ← planManeuver c.inputs (c.newManeuver speed speed) maneuverEnd
    addTo t (steady.overrideEndDistance endDist)
  else some t

/-- `planManeuvers`: the trajectory, and the speed at the end. None where it throws. -/
def CruisingPlugin.planManeuvers (c : CruisingPlugin K) (t : Trajectory K)
    (startDist endDist startSpeed endSpeed : K) : Option (Trajectory K × K) := do
  let change ← c.planChange startDist endDist startSpeed endSpeed
  match change with
  | some maneuver =>
    let t ← addTo t maneuver
    let t ← c.fillUp t maneuver.motion.endDist endDist maneuver.motion.endSpeed
    return (t, maneuver.motion.endSpeed)
  | none =>
    let t ← c.fillUp t startDist endDist startSpeed
    return (t, startSpeed)

/-! ## One gap -/

/-- The limits of a gap, those that are the same taken together. The last goes up to the
end of the gap. -/
def mergeLimits (endLocation : K) : SpeedLimit K → List (SpeedLimit K) → List (SpeedLimit K)
  | limit_buffer, [] => [{ limit_buffer with location := endLocation }]
  | limit_buffer, followedLimit :: limits =>
    if fpEquals limit_buffer.limit followedLimit.limit SPEED_EPSILON then
      mergeLimits endLocation { limit_buffer with location := followedLimit.location } limits
    else limit_buffer :: mergeLimits endLocation followedLimit limits

/-- The limits that the plugin finds for a gap. -/
def CruisingPlugin.trajLimits (c : CruisingPlugin K) (trajSeg : TrajectorySegment K) :
    Option (SpeedLimits K) := do
  let trajLimits :=
    c.routeService.getSpeedLimitsInRange trajSeg.startLocation trajSeg.endLocation
  let endingLimit ← c.routeService.getSpeedLimitAtLocation trajSeg.endLocation
  match endingLimit with
  | none => return trajLimits
  | some endingLimit => return trajLimits.add endingLimit

def CruisingPlugin.followed (c : CruisingPlugin K) (limit : SpeedLimit K) : SpeedLimit K :=
  ⟨limit.location, limit.limit * c.cruisingTargetMultiplier⟩

/-- The limits of a gap after they are merged. It throws where there is none. -/
def CruisingPlugin.mergedLimits (c : CruisingPlugin K) (trajSeg : TrajectorySegment K) :
    Option (List (SpeedLimit K)) := do
  let trajLimits ← c.trajLimits trajSeg
  match trajLimits.limits.map c.followed with
  | [] => none
  | limit_buffer :: limits => return mergeLimits trajSeg.endLocation limit_buffer limits

/-- Maneuvers up to each limit, from a location and a speed on. -/
def CruisingPlugin.followLimits (c : CruisingPlugin K) :
    Trajectory K → K → K → List (SpeedLimit K) → Option (Trajectory K)
  | t, _, _, [] => some t
  | t, newManeuverStartLocation, newManeuverStartSpeed, limit :: limits => do
    let (t, speed) ← c.planManeuvers t newManeuverStartLocation limit.location
      newManeuverStartSpeed limit.limit
    c.followLimits t limit.location speed limits

def CruisingPlugin.planTrajectoryGap (c : CruisingPlugin K) (trajSeg : TrajectorySegment K)
    (traj : Trajectory K) : Option (Trajectory K) := do
  let mergedLimits ← c.mergedLimits trajSeg
  c.followLimits traj trajSeg.startLocation trajSeg.startSpeed mergedLimits

/-! ## The whole trajectory -/

def CruisingPlugin.planGaps (c : CruisingPlugin K) :
    Trajectory K → List (TrajectorySegment K) → Option (Trajectory K)
  | traj, [] => some traj
  | traj, ts :: rest => do
    let traj ← c.planTrajectoryGap ts traj
    c.planGaps traj rest

def CruisingPlugin.trajStartSpeed (c : CruisingPlugin K) (traj : Trajectory K)
    (expectedEntrySpeed : K) : Option K := do
  let startSpeedLimit ← c.routeService.getSpeedLimitAtLocation traj.startLocation
  let speedLimit := (startSpeedLimit.map SpeedLimit.limit).getD expectedEntrySpeed
  return min speedLimit expectedEntrySpeed

/-- `planTrajectory`: the trajectory after it, none where it throws. -/
def CruisingPlugin.planTrajectory (c : CruisingPlugin K) (traj : Trajectory K)
    (expectedEntrySpeed : K) : Option (Trajectory K) := do
  let startSpeed ← c.trajStartSpeed traj expectedEntrySpeed
  c.planGaps traj (findTrajectoryGaps traj startSpeed)

end carma.cruising
