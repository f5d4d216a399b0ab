-- The trajectory converter: a trajectory becomes a list of points in time, one
-- maneuver after the other.
import Mathlib.Algebra.Order.Field.Basic
import Carma.Lib.ExactDouble
import Carma.Route
import Carma.Trajectory

open lib.exact_double
open carma.maneuvers
open carma.route
open carma.trajectory

namespace carma.trajectory_converter

variable {K : Type}

/-- A point of a path that is computed with doubles. -/
abbrev PathPoint (K : Type) := RoutePointStamped (Dbl K) K

/-! ## Future maneuvers -/

mutual

/-- The motions that the loop works through for one longitudinal maneuver. A
future maneuver is replaced by its own ones, and the first of these is taken as it is. -/
def expandLongitudinal : LongitudinalManeuver K → List (Motion K)
  | .single _ motion => [motion]
  | .future motion [] => [motion]
  | .future _ (m :: mvrs) => m.motion :: expandAllLongitudinal mvrs

def expandAllLongitudinal : List (LongitudinalManeuver K) → List (Motion K)
  | [] => []
  | m :: mvrs => expandLongitudinal m ++ expandAllLongitudinal mvrs

end

/-- What the converter reads of a lateral maneuver. -/
structure LaneMove (K : Type) where
  startDist : K
  endDist : K
  endingRelativeLane : ℤ

def laneMove (m : LateralManeuver K) : LaneMove K := ⟨m.startDist, m.endDist, m.endingRelativeLane⟩

mutual

def expandLateral : LateralManeuver K → List (LaneMove K)
  | .single startDist endDist lane => [⟨startDist, endDist, lane⟩]
  | .future startDist endDist lane [] => [⟨startDist, endDist, lane⟩]
  | .future _ _ _ (m :: mvrs) => laneMove m :: expandAllLateral mvrs

def expandAllLateral : List (LateralManeuver K) → List (LaneMove K)
  | [] => []
  | m :: mvrs => expandLateral m ++ expandAllLateral mvrs

end

/-! ## Motion along the route -/

variable [LinearOrder K]

/-- `TrajectoryConverter`, and the route that is set. -/
structure TrajectoryConverter (K : Type) where
  maxPointsInPath : ℤ
  timeStep : K
  route : Route K

structure LongitudinalSimulationData (K : Type) where
  simTime : K
  downtrack : Dbl K
  segmentDowntrack : Dbl K
  segmentIdx : ℤ

/-- The values that the loop of `addKinematicMotionToPath` does not change. -/
structure Kinematics (K : Type) where
  accelTerm : Dbl K
  deltaVPerTimeStep : Dbl K
  actualStartV : Dbl K
  deltaT : Dbl K

/-- The variables of that loop. -/
structure Simulation (K : Type) where
  currentSimTime : K
  currentDowntrack : Dbl K
  currentSegDowntrack : Dbl K
  actualStartV : Dbl K
  distanceChange : Dbl K
  segmentIdx : ℤ
  currentSeg : RouteSegment K

variable [Field K]

/-- `0.5`. -/
def half : K := 1 / (2 : ℕ)

/-- The first half of `addKinematicMotionToPath`. `sqrt` is `Math.sqrt`. -/
def kinematics (sqrt : Dbl K → Dbl K) (timeStep : K) (motion : Motion K) (downtrack : Dbl K) :
    Kinematics K :=
  let deltaX : Dbl K := ↑(motion.endDist - motion.startDist)
  let deltaV : Dbl K := ↑(motion.endSpeed - motion.startSpeed)
  let startVSqr : Dbl K := ↑(motion.startSpeed * motion.startSpeed)
  let twiceAccel := (↑(motion.endSpeed * motion.endSpeed) - startVSqr) / deltaX
  let accel := twiceAccel * ↑(half : K)
  -- only the distance that is left counts if the maneuver is under way
  let started := Dbl.lt ↑motion.startDist downtrack
  let actualDeltaX := if started then ↑motion.endDist - downtrack else deltaX
  let actualStartV :=
    if started then sqrt (startVSqr + twiceAccel * actualDeltaX) else ↑motion.startSpeed
  let actualDeltaV := if started then actualStartV - ↑motion.startSpeed else deltaV
  { accelTerm := ↑(half : K) * accel * ↑timeStep * ↑timeStep
    deltaVPerTimeStep := accel * ↑timeStep
    actualStartV := actualStartV
    deltaT := if Dbl.eq accel (Dbl.fin 0) then actualDeltaX / actualStartV else actualDeltaV / accel }

/-- Go to the next segment if this one is passed. -/
def Simulation.nextSegment (route : Route K) (s : Simulation K) : Simulation K :=
  if Dbl.lt ↑s.currentSeg.length s.currentSegDowntrack then
    { s with
      currentSegDowntrack := s.currentSegDowntrack - ↑s.currentSeg.length
      segmentIdx := s.segmentIdx + 1
      currentSeg := (route.getSegment (s.segmentIdx + 1)).getD s.currentSeg }
  else s

def Simulation.point (s : Simulation K) : PathPoint K where
  downtrack := s.currentDowntrack
  crosstrack := ↑(0 : K)
  stamp := s.currentSimTime
  segmentIdx := s.currentSeg.uptrackWaypoint.waypointId
  segDowntrack := s.currentSegDowntrack

def Simulation.advance (timeStep : K) (k : Kinematics K) (s : Simulation K) : Simulation K :=
  let distanceChange := k.accelTerm + s.actualStartV * ↑timeStep
  { s with
    currentSimTime := s.currentSimTime + timeStep
    currentDowntrack := s.currentDowntrack + distanceChange
    currentSegDowntrack := s.currentSegDowntrack + distanceChange
    actualStartV := s.actualStartV + k.deltaVPerTimeStep
    distanceChange := distanceChange }

/-- The loop of `addKinematicMotionToPath`: the points that it adds, when the path
has room for so many, and the variables at its end. -/
def simulate (c : TrajectoryConverter K) (k : Kinematics K) (endTime : Dbl K) :
    ℕ → Simulation K → List (PathPoint K) × Simulation K
  | 0, s => ([], s)
  | room + 1, s =>
    if Dbl.le ↑s.currentSimTime endTime then
      let s := s.nextSegment c.route
      -- no predictions past the end of the route
      if s.segmentIdx ≥ c.route.segments.length then ([], s)
      else
        let (points, last) := simulate c k endTime room (s.advance c.timeStep k)
        (s.point :: points, last)
    else ([], s)

/-- How many points a path of this size can still take: the loop runs while the
size is no greater than the bound. -/
def room (c : TrajectoryConverter K) (maxPointsInPath : ℤ) (size : ℕ) : ℕ :=
  (min maxPointsInPath c.maxPointsInPath + 1 - size).toNat

/-- The variables before the loop. -/
def startOf (data : LongitudinalSimulationData K) (k : Kinematics K) (seg : RouteSegment K) :
    Simulation K where
  currentSimTime := data.simTime
  currentDowntrack := data.downtrack
  currentSegDowntrack := data.segmentDowntrack
  actualStartV := k.actualStartV
  distanceChange := ↑(0 : K)
  segmentIdx := data.segmentIdx
  currentSeg := seg

/-- `addKinematicMotionToPath`, none when it throws. -/
def addKinematicMotionToPath (sqrt : Dbl K → Dbl K) (c : TrajectoryConverter K)
    (maxPointsInPath : ℤ) (motion : Motion K) (path : List (PathPoint K))
    (startingData : LongitudinalSimulationData K) :
    Option (List (PathPoint K) × LongitudinalSimulationData K) := do
  let seg ← c.route.getSegment startingData.segmentIdx
  let k := kinematics sqrt c.timeStep motion startingData.downtrack
  let endTime := ↑startingData.simTime + k.deltaT
  let (points, s) :=
    simulate c k endTime (room c maxPointsInPath path.length) (startOf startingData k seg)
  return (path ++ points,
    { simTime := s.currentSimTime - c.timeStep
      downtrack := s.currentDowntrack - s.distanceChange
      segmentDowntrack := s.currentSegDowntrack - s.distanceChange
      segmentIdx := s.segmentIdx })

/-! ## Longitudinal maneuvers -/

/-- The variables of the loop over longitudinal maneuvers. -/
structure Progress (K : Type) where
  path : List (PathPoint K)
  longitudinalSimData : LongitudinalSimulationData K
  oldPathEndPoint : Option (PathPoint K)
  oldPathSize : ℕ

/-- The first point that a maneuver added is removed if its time is that of the
last point before. -/
def dropRepeated (oldPathEndPoint : Option (PathPoint K)) (oldPathSize : ℕ)
    (path : List (PathPoint K)) : List (PathPoint K) :=
  match oldPathEndPoint, path[oldPathSize]? with
  | some old, some first => if old.stamp = first.stamp then path.eraseIdx oldPathSize else path
  | _, _ => path

/-- The maneuver is happening or will happen, and the route is not over. -/
def Progress.takes (c : TrajectoryConverter K) (st : Progress K) (motion : Motion K) : Bool :=
  Dbl.lt st.longitudinalSimData.downtrack ↑motion.endDist &&
    decide (st.longitudinalSimData.segmentIdx < c.route.segments.length)

/-- One turn of the loop over longitudinal maneuvers, none when it throws. -/
def addLongitudinal (sqrt : Dbl K → Dbl K) (c : TrajectoryConverter K) (maxPointsInPath : ℤ)
    (st : Progress K) (motion : Motion K) : Option (Progress K) :=
  if st.takes c motion then do
    let (path, data) ←
      addKinematicMotionToPath sqrt c maxPointsInPath motion st.path st.longitudinalSimData
    let path := dropRepeated st.oldPathEndPoint st.oldPathSize path
    -- `path.get(-1)` throws
    let endPoint ← path.getLast?
    return ⟨path, data, some endPoint, path.length⟩
  else some st

/-! ## Lateral maneuvers -/

/-- `getCubicFunction`: the coefficients, a_0 first. -/
def getCubicFunction (x0 y0 x1 y1 : K) : Dbl K × Dbl K × Dbl K × Dbl K :=
  let invDeltaX := x0 - x1
  let invDeltaXCubed : Dbl K := ↑(invDeltaX * invDeltaX * invDeltaX)
  let invDeltaY := y0 - y1
  (↑(x0 * x0 * x0 * y1 - (3 : ℕ) * x1 * (x0 * x0) * y1 + (3 : ℕ) * (x1 * x1) * x0 * y0 -
      x1 * x1 * x1 * y0) /
      invDeltaXCubed,
    ↑((6 : ℕ) * x0 * x1 * (y1 - y0)) / invDeltaXCubed,
    ↑((3 : ℕ) * (x0 + x1) * invDeltaY) / invDeltaXCubed,
    ↑(-((2 : ℕ) * invDeltaY)) / invDeltaXCubed)

def solveCubic (x : Dbl K) (a : Dbl K × Dbl K × Dbl K × Dbl K) : Dbl K :=
  let xSqr := x * x
  let xCb := xSqr * x
  a.2.2.2 * xCb + a.2.2.1 * xSqr + a.2.1 * x + a.1

/-- The variables of the loop over lateral maneuvers. The points of `done` are
those before `currentPoint`. -/
structure Shift (K : Type) where
  done : List (PathPoint K)
  rest : List (PathPoint K)
  currentCrosstrack : K

def shiftUpTo (endDist : K) (crosstrackOf : PathPoint K → Dbl K) (st : Shift K) : Shift K :=
  let reached := fun p : PathPoint K => Dbl.lt p.downtrack ↑endDist
  { st with
    done := st.done ++ (st.rest.takeWhile reached).map
      fun p => { p with crosstrack := crosstrackOf p }
    rest := st.rest.dropWhile reached }

/-- One turn of the loop over lateral maneuvers, none when it throws. -/
def addLateral (c : TrajectoryConverter K) (st : Shift K) (move : LaneMove K) : Option (Shift K) :=
  match st.rest with
  | [] => some st
  | p :: _ =>
    if Dbl.lt p.downtrack ↑move.endDist then
      if move.endingRelativeLane = 0 then
        some (shiftUpTo move.endDist (fun _ => ↑st.currentCrosstrack) st)
      else do
        let seg ← c.route.getSegment p.segmentIdx
        let y0 := st.currentCrosstrack
        let y1 := st.currentCrosstrack +
          seg.downtrackWaypoint.laneWidth * -1 * (move.endingRelativeLane : K)
        let coefficients := getCubicFunction move.startDist y0 move.endDist y1
        return { shiftUpTo move.endDist (fun p => solveCubic p.downtrack coefficients) st with
          currentCrosstrack := y1 }
    else some st

def startingCrosstrack (segment : RouteSegment K) (lane : ℤ) : K :=
  let laneCount : K := segment.downtrackWaypoint.laneCount
  let laneWidth1 := segment.downtrackWaypoint.laneWidth
  let routeLineRelToLeftRoadEdge := laneCount * laneWidth1 * half
  let crosstrackRelToLeftRoadEdge := laneWidth1 * (laneCount - (lane : K) - half)
  crosstrackRelToLeftRoadEdge - routeLineRelToLeftRoadEdge

/-! ## Paths -/

/-- The complex maneuver as a motion at its average speed. -/
def averageMotion (m : IComplexManeuver K) : Motion K :=
  let averageSpeed := half * (m.minExpectedSpeed + m.maxExpectedSpeed)
  ⟨m.startDist, m.endDist, averageSpeed, averageSpeed⟩

/-- The last part of `convertToPath`, none when it throws. -/
def addComplex (sqrt : Dbl K → Dbl K) (c : TrajectoryConverter K) (maxPointsInPath : ℤ)
    (complexManeuver : Option (IComplexManeuver K)) (path : List (PathPoint K))
    (data : LongitudinalSimulationData K) : Option (List (PathPoint K)) :=
  match complexManeuver with
  | none => some path
  | some m =>
    if data.segmentIdx < c.route.segments.length then
      (addKinematicMotionToPath sqrt c maxPointsInPath (averageMotion m) path data).map (·.1)
    else some path

/-- Where the vehicle is when the conversion starts. -/
structure StartState (K : Type) where
  startTimeMS : ℤ
  downtrack : K
  currentSegmentIdx : ℤ
  segDowntrack : K
  lane : ℤ

/-- The variables before the loop over longitudinal maneuvers. `startingSegIdx` is
the id of the waypoint before the current segment. -/
def startProgress (start : StartState K) (startingSegIdx : ℤ) : Progress K where
  path := []
  longitudinalSimData :=
    { simTime := (start.startTimeMS : K) * (1 / 1000)
      downtrack := ↑start.downtrack
      segmentDowntrack := ↑start.segDowntrack
      segmentIdx := startingSegIdx }
  oldPathEndPoint := none
  oldPathSize := 0

/-- `convertToPath`, none when it throws. -/
def convertToPath (sqrt : Dbl K → Dbl K) (c : TrajectoryConverter K) (traj : Trajectory K)
    (start : StartState K) (maxPointsInPath : ℤ) : Option (List (PathPoint K)) :=
  if maxPointsInPath ≤ 0 then some []
  else do
    let segment ← c.route.getSegment start.currentSegmentIdx
    let longitudinal ←
      (expandAllLongitudinal traj.longitudinalManeuvers.toSortedList).foldlM
        (addLongitudinal sqrt c maxPointsInPath)
        (startProgress start segment.uptrackWaypoint.waypointId)
    let lateral ←
      (expandAllLateral traj.lateralManeuvers.toSortedList).foldlM (addLateral c)
        ⟨[], longitudinal.path, startingCrosstrack segment start.lane⟩
    addComplex sqrt c maxPointsInPath traj.complexManeuver (lateral.done ++ lateral.rest)
      longitudinal.longitudinalSimData

end carma.trajectory_converter
