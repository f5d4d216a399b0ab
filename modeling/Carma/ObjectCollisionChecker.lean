-- `ObjectCollisionChecker.java` of the signal plugin with `SimpleNCVMotionPredictor.java`: the
-- history of the objects ahead in the lane, and the motion that is predicted from it. Every object
-- gets the id 0, so each of the two maps has one entry at most and is an option here. The history is
-- a priority queue, which `new ArrayList<>(queue)` copies in the order of its array.
import Carma.ConflictManager
import Carma.Lib.BinaryHeap
import Carma.Lib.Runs
import Mathlib.Tactic.FieldSimp
import Mathlib.Tactic.Linarith

open lib.binary_heap lib.runs
open carma.conflict_manager (PathPoint)
open carma.n_spatial_hash_map (toLong)

namespace carma.object_collision_checker

/-- `RoadwayObstacle`, what is read of it. The stamp of its header is a whole number of
nanoseconds, and `linearX` is the forward part of its velocity. -/
structure RoadwayObstacle (K : Type) where
  downTrack : K
  primaryLane : ℤ
  stamp : ℤ
  linearX : K
deriving DecidableEq

/-- `Time.compareTo`. -/
def compareTo (t1 t2 : ℤ) : ℤ := if t1 < t2 then -1 else if t1 = t2 then 0 else 1

/-- `Time.fromMillis`. -/
def fromMillis (millis : ℤ) : ℤ := millis * 10 ^ 6

/-- The comparator of a history: the oldest observation is at the front. -/
def byStamp {K : Type} (r1 r2 : RoadwayObstacle K) : ℤ := compareTo r1.stamp r2.stamp

/-- The parameters that are read. -/
structure Params (K : Type) [LT K] [Zero K] where
  maxHistoricalDataAge : ℤ
  distanceStep : K
  timeDuration : K
  timeMargin : K
  stepPositive : 0 < distanceStep

/-! ## The predictor -/

section predictor

variable {K : Type} [Field K] [LinearOrder K]

/-- `Time.toSeconds`. -/
def toSeconds (stamp : ℤ) : K := stamp / ((10 ^ 9 : ℤ) : K)

def routePoint (downtrack stamp : K) : PathPoint K where
  downtrack := downtrack
  crosstrack := 0
  stamp := stamp
  segmentIdx := 0
  segDowntrack := 0

/-- Where an observation was made. -/
def RoadwayObstacle.place (obs : RoadwayObstacle K) : PathPoint K :=
  routePoint obs.downTrack (toSeconds obs.stamp)

def FLOATING_POINT_EPSILON : K := 1 / ((10 ^ 6 : ℤ) : K)

def RADAR_DETECTION_NOISE : K := 1

/-- The loop in time: a vehicle that stands, every tenth of a second until the end. The last
argument bounds the turns, as it does below. -/
def standing (d endTime t : K) : ℕ → List (PathPoint K)
  | 0 => []
  | turns + 1 =>
    if t + FLOATING_POINT_EPSILON < endTime then
      let next := t + 1 / ((10 : ℤ) : K)
      routePoint d next :: standing d endTime next turns
    else []

/-- The loop in distance: a vehicle that moves, every step until the end. -/
def moving (distanceStep timeStep endDist d t : K) : ℕ → List (PathPoint K)
  | 0 => []
  | turns + 1 =>
    if d + FLOATING_POINT_EPSILON < endDist then
      routePoint (d + distanceStep) (t + timeStep) ::
        moving distanceStep timeStep endDist (d + distanceStep) (t + timeStep) turns
    else []

/-- The average of the speeds of a history that is not empty. -/
def averageSpeed (objTrajectory : List (RoadwayObstacle K)) : K :=
  (objTrajectory.map (·.linearX)).sum / (objTrajectory.length : K)

variable [FloorRing K]

def predictMotion (objTrajectory : List (RoadwayObstacle K)) (distanceStep timeDuration : K) :
    List (PathPoint K) :=
  match objTrajectory.getLast? with
  | none => []
  | some last =>
    let speed := averageSpeed objTrajectory
    let startDist := last.downTrack
    let startTime : K := toSeconds last.stamp
    let endTime := timeDuration + startTime
    let endDist := startDist + timeDuration * speed
    routePoint startDist startTime ::
      if speed < RADAR_DETECTION_NOISE then
        standing startDist endTime startTime ⌈timeDuration * ((10 : ℤ) : K)⌉.toNat
      else
        moving distanceStep (distanceStep / speed) endDist startDist startTime
          ⌈timeDuration * speed / distanceStep⌉.toNat

end predictor

/-! ## The checker -/

/-- The checker: the history and the prediction of the object, and when a collision was found. -/
structure ObjectCollisionChecker (K : Type) where
  history : Option (List (RoadwayObstacle K))
  predictions : Option (List (PathPoint K))
  ncvDetectionTime : Option ℤ

/-- A call of `updateObjects`: what the route service, the clock and the host plan give it, and
its argument. `currentLane` is `determinePrimaryLane` at the current crosstrack distance. -/
structure Update (K : Type) where
  routeDataAvailable : Bool
  currentLane : ℤ
  currentDowntrack : K
  currentTimeMillis : ℤ
  interpolatedHostPlan : List (PathPoint K)
  obstacles : List (RoadwayObstacle K)

section checker

variable {K : Type} [Field K] [LinearOrder K]

/-- The object is in the same lane and in front of the host vehicle. -/
def Update.tracks (u : Update K) (obs : RoadwayObstacle K) : Bool :=
  decide (obs.primaryLane = u.currentLane) && decide (0 < obs.downTrack - u.currentDowntrack)

/-- The body of the loop over the obstacles. -/
def addObstacle (u : Update K) (history : Option (List (RoadwayObstacle K)))
    (obs : RoadwayObstacle K) : Option (List (RoadwayObstacle K)) :=
  if u.tracks obs then some (offer byStamp (history.getD []) obs) else history

/-- `removeExpiredData`. The first argument bounds the turns of the loop. -/
def removeExpiredData (minObjStamp : ℤ) : ℕ → List (RoadwayObstacle K) → List (RoadwayObstacle K)
  | 0, objHistory => objHistory
  | turns + 1, objHistory =>
    match poll byStamp objHistory with
    | none => objHistory
    | some (obs, rest) =>
      if compareTo obs.stamp minObjStamp < 0 then removeExpiredData minObjStamp turns rest
      else objHistory

def Update.minObjStamp (p : Params K) (u : Update K) : ℤ :=
  fromMillis (u.currentTimeMillis - p.maxHistoricalDataAge)

variable [FloorRing K]

def NCVReplanPeriod (p : Params K) : ℤ := toLong (p.timeDuration / ((2 : ℤ) : K) * ((1000 : ℤ) : K))

/-- `checkCollision`. The conflict detector is a parameter: whether it finds a conflict of two
paths, for a time margin. -/
def checkCollision (p : Params K) (getConflicts : List (PathPoint K) → List (PathPoint K) → K → Bool)
    (routePlan : List (PathPoint K)) (predictions : Option (List (PathPoint K))) : Bool :=
  match predictions with
  | none => false
  | some objPlan =>
    match objPlan with
    | p0 :: p1 :: _ =>
      getConflicts routePlan objPlan ((p1.stamp - p0.stamp) / ((2 : ℤ) : K) + 1 / ((10000 : ℤ) : K))
    | _ => getConflicts routePlan objPlan p.timeMargin

/-- The collision check at the end of a call: when a collision was found. -/
def detect (p : Params K) (getConflicts : List (PathPoint K) → List (PathPoint K) → K → Bool)
    (u : Update K) (predictions : Option (List (PathPoint K))) (ncvDetectionTime : Option ℤ) :
    Option ℤ :=
  let found := checkCollision p getConflicts u.interpolatedHostPlan predictions
  match ncvDetectionTime with
  | none => if found then some u.currentTimeMillis else none
  | some t =>
    if u.currentTimeMillis - t > NCVReplanPeriod p ∧ found then some u.currentTimeMillis else some t

/-- The history and the prediction, once the expired data is gone. -/
def refresh (p : Params K) (u : Update K) (history : Option (List (RoadwayObstacle K)))
    (predictions : Option (List (PathPoint K))) :
    Option (List (RoadwayObstacle K)) × Option (List (PathPoint K)) :=
  match history with
  | none => (none, predictions)
  | some objHistory =>
    let left := removeExpiredData (u.minObjStamp p) objHistory.length objHistory
    if left.isEmpty then (none, none)
    else (some left, some (predictMotion left p.distanceStep p.timeDuration))

def ObjectCollisionChecker.updateObjects (p : Params K)
    (getConflicts : List (PathPoint K) → List (PathPoint K) → K → Bool)
    (c : ObjectCollisionChecker K) (u : Update K) : ObjectCollisionChecker K :=
  if !u.routeDataAvailable then c
  else
    let refreshed := refresh p u (u.obstacles.foldl (addObstacle u) c.history) c.predictions
    { history := refreshed.1
      predictions := refreshed.2
      ncvDetectionTime := detect p getConflicts u refreshed.2 c.ncvDetectionTime }

end checker

end carma.object_collision_checker
