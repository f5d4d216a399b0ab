-- The path prediction of the vehicle: the current trajectory converted to points, and the next
-- one converted from the last of them on.
import Carma.PathMessages
import Carma.TrajectoryConverter

open lib.exact_double
open carma.maneuvers
open carma.route
open carma.trajectory

namespace carma.trajectory_converter

variable {K : Type} [LinearOrder K] [Field K]

/-! ## Conversions from a point -/

/-- Where a conversion starts, as doubles that a conversion may have left. -/
structure StartPoint (K : Type) where
  startTimeMS : ℤ
  downtrack : Dbl K
  currentSegmentIdx : ℤ
  segDowntrack : Dbl K
  lane : ℤ

def StartState.point (start : StartState K) : StartPoint K :=
  ⟨start.startTimeMS, start.downtrack, start.currentSegmentIdx, start.segDowntrack, start.lane⟩

/-- The variables before the loop over longitudinal maneuvers. -/
def progressFrom (start : StartPoint K) (startingSegIdx : ℤ) : Progress K where
  path := []
  longitudinalSimData :=
    { simTime := (start.startTimeMS : K) * (1 / (1000 : ℕ))
      downtrack := start.downtrack
      segmentDowntrack := start.segDowntrack
      segmentIdx := startingSegIdx }
  oldPathEndPoint := none
  oldPathSize := 0

/-- `convertToPath` of a starting point, none when it throws. -/
def convertFrom (sqrt : Dbl K → Dbl K) (c : TrajectoryConverter K) (traj : Trajectory K)
    (start : StartPoint K) (maxPointsInPath : ℤ) : Option (List (PathPoint K)) :=
  if maxPointsInPath ≤ 0 then some []
  else do
    let segment ← c.route.getSegment start.currentSegmentIdx
    let longitudinal ←
      (expandAllLongitudinal traj.longitudinalManeuvers.toSortedList).foldlM
        (addLongitudinal sqrt c maxPointsInPath)
        (progressFrom start segment.uptrackWaypoint.waypointId)
    let lateral ←
      (expandAllLateral traj.lateralManeuvers.toSortedList).foldlM (addLateral c)
        ⟨[], longitudinal.path, startingCrosstrack segment start.lane⟩
    addComplex sqrt c maxPointsInPath traj.complexManeuver (lateral.done ++ lateral.rest)
      longitudinal.longitudinalSimData

theorem convertToPath_eq (sqrt : Dbl K → Dbl K) (c : TrajectoryConverter K) (traj : Trajectory K)
    (start : StartState K) (maxPointsInPath : ℤ) :
    convertToPath sqrt c traj start maxPointsInPath =
      convertFrom sqrt c traj start.point maxPointsInPath := rfl

/-! ## Predictions -/

/-- `VehicleAwareness`: its two trajectories, null before they are planned. -/
structure VehicleAwareness (K : Type) [LE K] where
  currentTrajectory : Option (Trajectory K)
  nextTrajectory : Option (Trajectory K)

variable [FloorRing K]

def pointAfter (c : TrajectoryConverter K) (startPoint : PathPoint K) (lane : ℤ) :
    StartPoint K where
  startTimeMS := path_messages.toMs (startPoint.stamp + c.timeStep)
  downtrack := startPoint.downtrack
  currentSegmentIdx := startPoint.segmentIdx
  segDowntrack := startPoint.segDowntrack
  lane := lane

/-- The points of the current trajectory, if there is one. -/
def VehicleAwareness.currentPath (v : VehicleAwareness K) (sqrt : Dbl K → Dbl K)
    (c : TrajectoryConverter K) (start : StartPoint K) (maxPointsInPath : ℤ) :
    Option (List (PathPoint K)) :=
  match v.currentTrajectory with
  | some traj => convertFrom sqrt c traj start maxPointsInPath
  | none => some []

/-- `getPathPrediction` with a bound, none when it throws. -/
def VehicleAwareness.getPathPrediction (v : VehicleAwareness K) (sqrt : Dbl K → Dbl K)
    (c : TrajectoryConverter K) (start : StartPoint K) (maxPointsInPath : ℤ) :
    Option (List (PathPoint K)) := do
  let pathPrediction ← v.currentPath sqrt c start maxPointsInPath
  match v.nextTrajectory, pathPrediction.getLast? with
  | some traj, some lastPoint =>
    let more ← convertFrom sqrt c traj (pointAfter c lastPoint start.lane)
      (maxPointsInPath - pathPrediction.length)
    return pathPrediction ++ more
  | _, _ => some pathPrediction

end carma.trajectory_converter
