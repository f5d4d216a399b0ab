-- `EadIntersectionManager.java` of the signal plugin: which intersections in view the
-- planner gets. They are put into a priority queue by their distance, and the planner gets
-- a copy of the queue, which `new ArrayList<>(queue)` takes in the order of its array.
-- The geometry of a map at a location, and the distance between two, are parameters.
import Carma.Lib.BinaryHeap
import Mathlib.Algebra.Order.Field.Basic
import Mathlib.Data.List.MinMax

open lib.binary_heap

namespace carma.ead

inductive SignalPhase
  | GREEN | YELLOW | RED | NONE
deriving DecidableEq

def SignalPhase.next : SignalPhase → SignalPhase
  | GREEN => YELLOW
  | YELLOW => RED
  | RED => NONE
  | NONE => GREEN

/-- A distance as `Location.distanceFrom` gives it: a number of at least zero that is cast
to an int, in cm. -/
structure Centimeters where
  value : ℤ
  inRange : 0 ≤ value ∧ value < 2 ^ 31

/-- No distance at all. -/
def Centimeters.none : Centimeters := ⟨0, by decide⟩

/-- What is found for a vehicle that is associated with a lane. -/
structure IntersectionGeometry (K : Type) where
  dtsb : K
  laneId : ℤ
  stopBoxWidth : K
  isApproach : ℤ → Bool

/-- A MAP message. Its lanes stand here as the geometry that they give at a location. -/
structure MapMessage (L K : Type) where
  intersectionId : ℤ
  refPoint : L
  geometryAt : L → Option (IntersectionGeometry K)

/-- A SPAT message: for a lane the time to the next phase and the phase, where it has them. -/
structure SpatMessage (K : Type) where
  intersectionId : ℤ
  getSpatForLane : ℤ → Option K × Option SignalPhase

structure IntersectionData (L K : Type) where
  map : Option (MapMessage L K)
  spat : Option (SpatMessage K)
  roughDist : Centimeters
  intersectionId : ℤ
  laneId : ℤ
  dtsb : K
  currentPhase : SignalPhase
  timeToNextPhase : K
  geometry : Option (IntersectionGeometry K)
  stopBoxWidth : K

/-- The comparator of the queue. A difference of two distances fits into an int. -/
def byRoughDist {L K : Type} (i1 i2 : IntersectionData L K) : ℤ :=
  i1.roughDist.value - i2.roughDist.value

structure EadIntersectionManager (L K : Type) where
  intersectionIds : List ℤ
  sortedIntersections : List (IntersectionData L K)
  completedIntersections : List ℤ
  prevApproachLaneId : ℤ

namespace EadIntersectionManager

variable {L K : Type}

def wantThisIntersection (m : EadIntersectionManager L K) (thisId : ℤ) : Bool :=
  m.intersectionIds.any fun id => thisId == id

def validIntersection (m : EadIntersectionManager L K) (input : IntersectionData L K) : Bool :=
  match input.map, input.spat with
  | some map, some spat =>
    if map.intersectionId ≠ spat.intersectionId then false
    else if map.intersectionId = 0 ∨ spat.intersectionId = 0 then false
    else if !m.wantThisIntersection map.intersectionId then false
    else if m.completedIntersections.contains map.intersectionId then false
    else true
  | _, _ => false

section update

variable (distanceFrom : L → L → Centimeters)

/-- What the loop writes into an input whose map has a geometry for the vehicle. -/
def refresh (vehicleLoc : L) (input : IntersectionData L K) (map : MapMessage L K)
    (spat : SpatMessage K) (geometry : IntersectionGeometry K) : IntersectionData L K :=
  let signal := spat.getSpatForLane geometry.laneId
  { input with
    roughDist := distanceFrom map.refPoint vehicleLoc
    dtsb := geometry.dtsb
    laneId := geometry.laneId
    geometry := some geometry
    stopBoxWidth := geometry.stopBoxWidth
    timeToNextPhase := signal.1.getD input.timeToNextPhase
    currentPhase := signal.2.getD input.currentPhase }

/-- The body of the loop over the inputs: what it adds to the queue, if anything. -/
def keep (m : EadIntersectionManager L K) (vehicleLoc : L) (input : IntersectionData L K) :
    Option (IntersectionData L K) :=
  if m.validIntersection input then
    match input.map, input.spat with
    | some map, some spat =>
      (map.geometryAt vehicleLoc).map (refresh distanceFrom vehicleLoc input map spat)
    | _, _ => none
  else none

def sortInputs (m : EadIntersectionManager L K) (inputIntersections : List (IntersectionData L K))
    (vehicleLoc : L) : List (IntersectionData L K) :=
  inputIntersections.foldl (fun queue input =>
    match m.keep distanceFrom vehicleLoc input with
    | none => queue
    | some i => offer byRoughDist queue i) []

variable [Field K] [LinearOrder K]

/-- The vehicle is on no lane after an approach lane, on a lane that is no approach lane, or
well past the stop bar. -/
def hasPassed (prevApproachLaneId : ℤ) (geometry : IntersectionGeometry K) (dtsb : K) : Bool :=
  (geometry.laneId = -1 ∧ prevApproachLaneId ≥ 0) ∨
    (geometry.laneId ≠ -1 ∧ !geometry.isApproach geometry.laneId) ∨
    dtsb < -(1 / (2 : ℕ)) * geometry.stopBoxWidth

def maxValue : K := ((2 ^ 1024 - 2 ^ 971 : ℕ) : K)

/-- `updateIntersections`: the distance to the stop bar, or none where it throws, and the
manager after it. -/
def updateIntersections (m : EadIntersectionManager L K)
    (inputIntersections : List (IntersectionData L K)) (vehicleLoc : L) :
    Option K × EadIntersectionManager L K :=
  if inputIntersections = [] then (none, { m with sortedIntersections := [] })
  else
    let queue := m.sortInputs distanceFrom inputIntersections vehicleLoc
    match queue.head? with
    | none => (some maxValue, { m with sortedIntersections := queue })
    | some near =>
      match near.geometry with
      | none => (some near.dtsb, { m with sortedIntersections := queue })
      | some nearGeometry =>
        if hasPassed m.prevApproachLaneId nearGeometry near.dtsb then
          match poll byRoughDist queue with
          | none => (none, m)
          | some (completed, rest) =>
            (some ((rest.head?.map IntersectionData.dtsb).getD maxValue),
              { m with
                sortedIntersections := rest
                completedIntersections := completed.intersectionId :: m.completedIntersections })
        else if nearGeometry.isApproach nearGeometry.laneId then
          (some near.dtsb,
            { m with
              sortedIntersections :=
                queue.modifyHead fun i => { i with laneId := nearGeometry.laneId }
              prevApproachLaneId := nearGeometry.laneId })
        else (some near.dtsb, { m with sortedIntersections := queue })

end update

/-- `Trajectory.getSortedIntersections`: the array of the queue as a list. -/
def getSortedIntersections (m : EadIntersectionManager L K) : List (IntersectionData L K) :=
  m.sortedIntersections

end EadIntersectionManager

end carma.ead
