-- `CoarsePathNeighbors.java` and `EadAStar.planCoarsePath`: a rough plan over all lights
-- ahead, with a node at each stop bar, and the node of it that the detailed plan aims at.
import Carma.NeighborBase
import Mathlib.Algebra.Order.Group.Abs
import Mathlib.Data.Rat.Floor

open lib.exact_double
open carma.ead

namespace carma.trajectory_tree

/-- The calculator. The square root of Java is a parameter. -/
structure CoarsePathNeighbors (L K : Type) extends NeighborBase L K where
  lagTime : K
  sqrt : Dbl K → Dbl K

/-- How the next bar is reached, if the light lets the vehicle through. -/
structure Arrival (K : Type) where
  speedAtNext : Dbl K
  timeAtNext : Dbl K
  intermediateNode : Option Node

namespace CoarsePathNeighbors

variable {L K : Type} [Field K] [LinearOrder K] [FloorRing K] (c : CoarsePathNeighbors L K)

/-- The intersection downtrack and the distance to it. A bar less than 1 m away counts as
reached, and the next one in the list is taken. -/
def nextIntersection (curLoc : K) : Option (Fin c.intersections.length × ℤ) :=
  match c.currentIntersectionIndex curLoc with
  | none => none
  | some index =>
    let distToNext := c.distToIntersection index (.fin curLoc)
    if distToNext < 1 then
      if h : index.val + 1 < c.intersections.length then
        some (⟨index.val + 1, h⟩, c.distToIntersection ⟨index.val + 1, h⟩ (.fin curLoc))
      else none
    else some (index, distToNext)

def lagDist (node : Node) : K := c.lagTime * node.speed

def deltaSpeed (node : Node) : K := |c.operSpeed - node.speed|

/-- The speed at the bar for a steady change of speed until some time. -/
def speedToReach (node : Node) (distToNext : ℤ) (time : Dbl K) : Dbl K :=
  .fin ((2 : ℕ) * (distToNext - c.lagDist node)) / (time - .fin (node.time + c.lagTime)) -
    .fin (node.speed : K)

/-- To the next bar: at operating speed if that is reached before it, else still speeding up. -/
def arrive (node : Node) (distToNext : ℤ) : Arrival K :=
  let curLoc : K := node.distance
  let curTime : K := node.time
  let curSpeed : K := node.speed
  let timeToOperSpeed : Dbl K := .fin (c.deltaSpeed node) / .fin c.maxAccel
  let dist := .fin curSpeed * timeToOperSpeed +
    .fin (1 / (2 : ℕ) * c.maxAccel) * timeToOperSpeed * timeToOperSpeed
  -- the response lag is left out for tiny changes of speed
  let lags := c.deltaSpeed node > 1
  let distToOperSpeed := if lags then dist + .fin (c.lagDist node) else dist
  let timeAtNext : Dbl K := if lags then .fin (curTime + c.lagTime) else .fin curTime
  if Dbl.lt (.fin (distToNext : K)) distToOperSpeed then
    let speedAtNext := c.sqrt (.fin
      (curSpeed * curSpeed + (2 : ℕ) * c.maxAccel * max (distToNext - c.lagDist node) 0))
    ⟨speedAtNext, timeAtNext + (speedAtNext - .fin curSpeed) / .fin c.maxAccel, none⟩
  else
    let cruiseTime := (.fin (distToNext : K) - distToOperSpeed) / .fin c.operSpeed
    ⟨.fin c.operSpeed, timeAtNext + (timeToOperSpeed + cruiseTime),
      some (.ofDoubles (.fin curLoc + distToOperSpeed) (.fin curTime + timeToOperSpeed)
        (.fin c.operSpeed))⟩

/-- `phaseDuration`, none where there is no record of the light. -/
def durationOf (index : Fin c.intersections.length) (phase : SignalPhase) : Option K :=
  (c.getHistoricalData index).map fun h => NeighborBase.phaseDuration h phase

/-- What is left of an arrival that comes too early in a green phase: it is put off. -/
def putOff (node : Node) (distToNext : ℤ) (a : Arrival K) (extraTime : Dbl K) : Arrival K :=
  let curSpeed : K := node.speed
  let timeAtNext := a.timeAtNext + extraTime
  if a.speedAtNext.lt (.fin c.operSpeed) then
    { a with timeAtNext, speedAtNext := c.speedToReach node distToNext timeAtNext }
  else
    { a with
      timeAtNext
      intermediateNode := a.intermediateNode.map fun n =>
        let timeShift := .fin (2 : ℕ) * extraTime * .fin c.operSpeed / .fin (c.deltaSpeed node)
        let distanceShift := .fin (1 / (2 : ℕ) * (c.operSpeed + curSpeed)) * timeShift
        .ofDoubles (.fin (n.distance : K) + distanceShift) (.fin (n.time : K) + timeShift)
          (.fin c.operSpeed) }

/-- The check of the time buffer: the arrival, the light at it and whether that is a green
which can be used. -/
def checkBuffer (node : Node) (index : Fin c.intersections.length) (distToNext : ℤ)
    (a : Arrival K) : Option (Arrival K × SignalState K × Bool) :=
  (c.phaseAtTime index a.timeAtNext).bind fun state =>
    if state.phase = .GREEN ∧ Dbl.lt (.fin c.timeBuffer) state.timeRemaining then
      (c.durationOf index .GREEN).bind fun green =>
        let phaseTimeElapsed := .fin green - state.timeRemaining
        if Dbl.lt (.fin c.timeBuffer) phaseTimeElapsed then some (a, state, true)
        else
          let a := c.putOff node distToNext a (.fin c.timeBuffer - phaseTimeElapsed)
          (c.phaseAtTime index a.timeAtNext).map fun state => (a, state, true)
    else some (a, state, false)

/-- The loops that slice a green phase into nodes. Only the first node may have another one
on the way to it. The first argument bounds the rounds: none where it is too low. -/
def sliceGreen (node : Node) (distToNext : ℤ) (greenExpiration : Dbl K) :
    ℕ → Option Node → Dbl K → Dbl K → Option (List Node)
  | 0, _, _, _ => none
  | steps + 1, intermediateNode, nodeTime, nodeSpeed =>
    let neighbor := Node.ofDoubles (.fin ((node.distance : K) + distToNext)) nodeTime nodeSpeed
    let free :=
      match intermediateNode with
      | some between => !c.hasConflict node between && !c.hasConflict between neighbor
      | none => !c.hasConflict node neighbor
    let found := if free then [neighbor] else []
    let nodeTime := nodeTime + .fin c.timeInc
    let nodeSpeed := c.speedToReach node distToNext nodeTime
    if Dbl.le (.fin c.crawlingSpeed) nodeSpeed ∧ nodeTime.le greenExpiration then
      (sliceGreen node distToNext greenExpiration steps none nodeTime nodeSpeed).map (found ++ ·)
    else some found

/-- The loop of `timeOfGreenBegin`, to the end of a red phase. -/
def followToRed (index : Fin c.intersections.length) :
    ℕ → SignalPhase → Dbl K → Option (Dbl K)
  | _, .RED, phaseEndTime => some phaseEndTime
  | 0, _, _ => none
  | rounds + 1, phase, phaseEndTime =>
    (c.durationOf index (NeighborBase.nextPhase phase)).bind fun duration =>
      followToRed index rounds (NeighborBase.nextPhase phase) (phaseEndTime + .fin duration)

/-- `timeOfGreenBegin`. Red is at most three phases ahead. -/
def timeOfGreenBegin (index : Fin c.intersections.length) (afterTime : Dbl K) : Option (Dbl K) :=
  (c.phaseAtTime index afterTime).bind fun state =>
    c.followToRed index 3 state.phase (afterTime + state.timeRemaining)

/-- The nodes at the next bar in the green phases, and when the following green begins. -/
def approach (steps : ℕ) (node : Node) (index : Fin c.intersections.length) (distToNext : ℤ) :
    Option (List Node × Dbl K) :=
  (c.checkBuffer node index distToNext (c.arrive node distToNext)).bind
    fun (a, state, validGreen) =>
    (if validGreen then
      c.sliceGreen node distToNext (a.timeAtNext + state.timeRemaining - .fin c.timeBuffer) steps
        a.intermediateNode a.timeAtNext a.speedAtNext
    else some []).bind fun onGreen =>
    (c.timeOfGreenBegin index a.timeAtNext).bind fun greenBegin =>
    (c.durationOf index .GREEN).bind fun green =>
      let timeOfNextGreen := greenBegin + .fin c.timeBuffer
      let greenExpiration := timeOfNextGreen + .fin green - .fin ((2 : ℕ) * c.timeBuffer)
      let nodeSpeed : Dbl K :=
        if (distToNext : K) < c.lagDist node ∨
            (timeOfNextGreen - .fin (node.time : K)).le (.fin c.lagTime) then .fin 0
        else
          Dbl.maxOf (Dbl.minOf (.fin ((2 : ℕ) * (distToNext - c.lagDist node)) /
            (timeOfNextGreen - .fin (node.time : K) - .fin c.lagTime) - .fin (node.speed : K))
              (.fin c.speedLimit)) (.fin 0)
      (if Dbl.le (.fin c.crawlingSpeed) nodeSpeed ∧ timeOfNextGreen.le greenExpiration then
        c.sliceGreen node distToNext greenExpiration steps none timeOfNextGreen nodeSpeed
      else some []).map fun onNextGreen => (onGreen ++ onNextGreen, timeOfNextGreen)

/-- The node past the last light, where the operating speed is reached. -/
def exitNode (node : Node) : Node :=
  let curSpeed : K := node.speed
  let fractionalMaxAccel := c.maxAccel * ((3 : ℕ) / (4 : ℕ))
  let deltaTime : Dbl K := .fin (c.deltaSpeed node) / .fin fractionalMaxAccel
  let deltaDist :=
    .fin curSpeed * deltaTime + .fin (1 / (2 : ℕ) * fractionalMaxAccel) * deltaTime * deltaTime
  let short := deltaDist.lt (.fin (40 : ℕ))
  let time := if short then deltaTime + (.fin (40 : ℕ) - deltaDist) / .fin c.operSpeed else deltaTime
  let dist := if short then .fin (40 : ℕ) else deltaDist
  .ofDoubles (.fin (node.distance : K) + dist) (.fin (node.time : K) + time) (.fin c.operSpeed)

/-- `neighbors`, with a bound on the rounds of its loops: none where the bound is too low or
it never returns. -/
def neighbors (steps : ℕ) (node : Node) : Option (List Node) :=
  match c.nextIntersection (node.distance : K) with
  | some (index, distToNext) =>
    (c.approach steps node index distToNext).map fun (found, timeOfNextGreen) =>
      if found.length = 0 then
        let nodeLoc : K := node.distance + distToNext
        let stop := Node.ofDoubles (.fin nodeLoc) timeOfNextGreen (.fin 0)
        -- a stop that has a conflict is moved upstream by the length of a vehicle
        if c.hasConflict node stop then
          [.ofDoubles (.fin (nodeLoc - (5 : ℕ))) timeOfNextGreen (.fin 0)]
        else [stop]
      else found
  | none => some (if !c.hasConflict node (c.exitNode node) then [c.exitNode node] else [])

/-- `planCoarsePath`, with the path that the solver gives for a goal: the third node of it.
The loop makes one attempt. None where it throws. -/
def planCoarsePath (solve : Node → List Node) : Option Node :=
  let numInt := c.intersections.findIdx fun i => i.map.isNone
  match (c.intersections.take numInt).getLast? with
  | none => none
  | some farthest =>
    let exitDist := bestDTSB farthest + (40 : ℕ) * (2 : ℕ) + (40 : ℕ)
    let coarseGoal := Node.ofDoubles (.fin exitDist) (.fin exitDist / .fin c.operSpeed)
      (.fin c.operSpeed)
    let path := solve coarseGoal
    if path.length < 3 then none else path[2]?

end CoarsePathNeighbors

end carma.trajectory_tree
