-- The cooperative merge plugin: its three states, which are objects that handlers can
-- still run on after the plugin has gone on to another one, the maneuvers that it plants
-- in trajectories, and the commands of a roadside unit that it passes on to them.
import Carma.MobilityRouter
import Carma.Trajectory

open lib.exact_double
open carma.maneuvers
open carma.mobility_router (MobilityHeader MobilityResponse)
open carma.path_messages
open carma.route_node (routeSegmentOfPoint)
open carma.trajectory

namespace carma.cooperative_merge

/-! ## Messages -/

/-- The parameters of a message after they are taken apart: the type or a key is wrong,
or a value is not a number, or these are the numbers. -/
inductive Params (P : Type)
  | malformed
  | notNumbers
  | numbers (params : P)

structure InfoParams (K : Type) where
  radius : K
  mergeDist : K
  mergeLength : K

structure CommandParams (K : Type) where
  speed : Dbl K
  accel : Dbl K
  steeringAngle : Dbl K

structure MobilityRequest (K : Type) where
  header : MobilityHeader
  params : Params (InfoParams K)
  location : LocationECEF

structure MobilityOperation (K : Type) where
  header : MobilityHeader
  params : Params (CommandParams K)

/-! ## The states -/

structure RampMeterData (K : Type) where
  rsuId : String
  rampMeterDTD : K
  mergePointDTD : K
  mergeLength : K
  radius : K

structure PlanningState (K : Type) where
  rampMeterData : RampMeterData K
  requestTime : ℤ
  planId : String
  replanningForMerge : Bool
  awaitingDelay : Bool
  replanStartTime : ℤ

structure ExecutionState (K : Type) where
  rampMeterData : RampMeterData K
  planId : String
  complexManeuver : IComplexManeuver K
  executingMergeManeuver : Bool
  lastCommandStamp : ℤ

/-- A state of the plugin. The one on standby has the ramp meters that it knows. -/
inductive ICooperativeMergeState (K : Type)
  | standby (rampMeters : List (RampMeterData K))
  | planning (p : PlanningState K)
  | execution (e : ExecutionState K)

/-- What the plugin does that can be seen from outside. The responses that
`publishNack` makes are never published. -/
inductive Output (K : Type)
  | mergeRequest (header : MobilityHeader) (maxAccel lag dist : K) (location : LocationECEF)
      (expiration : ℤ)
  | status (header : MobilityHeader) (meterDist mergeDist speed : K) (lane : ℤ)
  | setAvailable
  | requestNewPlan
  | notifyTrajectoryFailure
  | requestLongerTrajectory (end_ : K)
  | requestHigherPriority

/-! ## Surroundings -/

structure Settings (K F : Type) where
  vehicleId : String
  maxAccel : K
  lagTime : K
  minimumManeuverLength : K
  commsTimeoutMS : ℤ
  converter : PathConverter K F

/-- What the services of the vehicle answer at one moment. The last speed limit is none
where there is none in the range. -/
structure Vehicle (K : Type) where
  currentTimeMillis : ℤ
  currentDTD : K
  currentCrosstrack : K
  currentSegmentDTD : K
  currentSegmentIdx : ℤ
  currentSpeed : K
  currentLane : ℤ
  maxAccelLimit : K
  isAlgorithmEnabledInRange : K → K → Bool
  lastSpeedLimitInRange : K → K → Option K

/-- What a method does to its own object, and to the rest. -/
structure Outcome (K : Type) where
  self : ICooperativeMergeState K
  /-- the new state of a call of `setState` -/
  newState : Option (ICooperativeMergeState K)
  /-- the maneuver that was set in the trajectory -/
  planted : Option (IComplexManeuver K)
  /-- the sender and the plan of a message, and its commands, passed on with `setCommands` -/
  command : Option (MobilityHeader × CommandParams K)
  out : List (Output K)

def idle {K : Type} (self : ICooperativeMergeState K) : Outcome K := ⟨self, none, none, none, []⟩

variable {K F : Type} [LinearOrder K] [Field K]

def header (cfg : Settings K F) (v : Vehicle K) (recipientId planId : String) : MobilityHeader where
  senderId := cfg.vehicleId
  recipientId := recipientId
  senderBsmId := "FFFFFFFF"
  planId := planId
  timestamp := v.currentTimeMillis

/-! ## On standby -/

def meterDTD (cfg : Settings K F) (loc : LocationECEF) : Option K := do
  let route := cfg.converter.route
  let meterPoint := startPoint ⟨loc, []⟩
  let meterSeg ← routeSegmentOfPoint cfg.converter.geo meterPoint route.segments
  let segmentDTD ← route.lengthOfSegments 0 (meterSeg.uptrackWP.waypointId - 1)
  return segmentDTD + cfg.converter.geo.xInFrame meterSeg.ecefToUptrackWP meterPoint

/-- The ramp meters after those of a message are added, none where this throws. -/
def cacheMeter (cfg : Settings K F) (rampMeters : List (RampMeterData K))
    (msg : MobilityRequest K) : Option (List (RampMeterData K)) :=
  if rampMeters.any fun m => decide (m.rsuId = msg.header.senderId) then some rampMeters
  else
    match msg.params with
    | .numbers params => do
      let meter ← meterDTD cfg msg.location
      return rampMeters ++
        [⟨msg.header.senderId, meter, meter + params.mergeDist, params.mergeLength, params.radius⟩]
    | _ => none

variable [FloorRing K]

/-- `new PlanningState`, with the request that it publishes. The plan id is random.
None where the constructor throws. -/
def newPlanningState (cfg : Settings K F) (v : Vehicle K) (data : RampMeterData K)
    (planId : String) : Option (PlanningState K × Output K) := do
  let trajMsg ← pathToMessage cfg.converter
    [⟨v.currentDTD, v.currentCrosstrack, v.currentTimeMillis, v.currentSegmentIdx,
      v.currentSegmentDTD⟩]
  return ({ rampMeterData := data
            requestTime := v.currentTimeMillis
            planId := planId
            replanningForMerge := false
            awaitingDelay := false
            replanStartTime := v.currentTimeMillis },
    .mergeRequest (header cfg v data.rsuId planId) cfg.maxAccel cfg.lagTime
      (data.mergePointDTD - v.currentDTD) trajMsg.location (v.currentTimeMillis + 500))

/-- `onMobilityRequestMessage` on standby. -/
def standbyOnRequest (cfg : Settings K F) (v : Vehicle K) (planId : String)
    (rampMeters : List (RampMeterData K)) (msg : MobilityRequest K) : Outcome K :=
  match msg.params, cacheMeter cfg rampMeters msg with
  | .malformed, _ => idle (.standby rampMeters)
  | _, none => idle (.standby rampMeters)
  | _, some rampMeters =>
    match rampMeters.find? fun m => decide (m.rsuId = msg.header.senderId) with
    | none => idle (.standby rampMeters)
    | some rsuData =>
      if |rsuData.rampMeterDTD - v.currentDTD| < rsuData.radius then
        match newPlanningState cfg v rsuData planId with
        | none => idle (.standby rampMeters)
        | some (p, request) =>
          { idle (.standby rampMeters) with newState := some (.planning p), out := [request] }
      else idle (.standby rampMeters)

/-! ## Planning -/

def standing : K := 1 / (10 : ℕ)

/-- The vehicle can stop before the meter: the acceleration for it is minus infinity
where the vehicle is at the meter and moves. -/
def canStop (v : Vehicle K) (deltaD : K) : Bool :=
  if deltaD ≠ 0 then
    decide (¬ |-(v.currentSpeed * v.currentSpeed) / ((2 : ℕ) * deltaD)| > v.maxAccelLimit)
  else decide (|v.currentSpeed| < standing) && decide (¬ |(0 : K)| > v.maxAccelLimit)

/-- The new maneuver is set in the trajectory, which can refuse it. -/
def plant (v : Vehicle K) (p : PlanningState K) (traj : Trajectory K) (start end_ : K) :
    Outcome K :=
  match v.lastSpeedLimitInRange start end_ with
  | none => idle (.planning p)
  | some limit =>
    let mergeManeuver : IComplexManeuver K := ⟨start, end_, 0, limit⟩
    match (traj.setComplexManeuver (some mergeManeuver)).1 with
    | some true => { idle (.planning p) with planted := some mergeManeuver }
    | _ => idle (.planning p)

def PlanningState.planTrajectory (cfg : Settings K F) (v : Vehicle K) (p : PlanningState K)
    (traj : Trajectory K) : Outcome K :=
  let data := p.rampMeterData
  let giveUp := idle (ICooperativeMergeState.planning { p with replanningForMerge := false })
  if ¬ v.isAlgorithmEnabledInRange traj.startLocation traj.endLocation then giveUp
  else if ¬ p.replanningForMerge then idle (.planning p)
  else if v.currentDTD > data.rampMeterDTD then giveUp
  else
    let complexManeuverSize := data.mergePointDTD + data.mergeLength - v.currentDTD
    if complexManeuverSize < cfg.minimumManeuverLength then giveUp
    else
      let start := traj.findEarliestLongitudinalWindowOfSize complexManeuverSize
      let end_ := start + complexManeuverSize
      if traj.endLocation < end_ then
        { idle (.planning p) with out := [.requestLongerTrajectory end_] }
      else if start > data.rampMeterDTD then
        { idle (.planning p) with out := [.requestHigherPriority] }
      else if ¬ canStop v (data.rampMeterDTD - v.currentDTD) then idle (.planning p)
      else plant v p traj start end_

def isAbout (header : MobilityHeader) (data : RampMeterData K) (planId : String) : Prop :=
  header.senderId = data.rsuId ∧ header.planId = planId

instance (header : MobilityHeader) (data : RampMeterData K) (planId : String) :
    Decidable (isAbout header data planId) := instDecidableAnd

def PlanningState.onMobilityResponseMessage (v : Vehicle K) (p : PlanningState K)
    (msg : MobilityResponse) : Outcome K :=
  if isAbout msg.header p.rampMeterData p.planId ∧ p.replanningForMerge = false ∧
      msg.isAccepted then
    { idle (.planning { p with
        replanningForMerge := true
        awaitingDelay := true
        replanStartTime := v.currentTimeMillis }) with
      out := [.setAvailable] }
  else idle (.planning p)

def PLANNING_DELAY_TIME : ℤ := 250

/-- A new plan is requested some time after the answer of the roadside unit. -/
def PlanningState.requestNewPlan (v : Vehicle K) (p : PlanningState K) :
    PlanningState K × List (Output K) :=
  if p.replanningForMerge ∧ p.awaitingDelay ∧
      v.currentTimeMillis - p.replanStartTime > PLANNING_DELAY_TIME then
    ({ p with replanStartTime := v.currentTimeMillis, awaitingDelay := false }, [.requestNewPlan])
  else (p, [])

def newExecutionState (v : Vehicle K) (data : RampMeterData K) (planId : String)
    (complexManeuver : IComplexManeuver K) : ExecutionState K where
  rampMeterData := data
  planId := planId
  complexManeuver := complexManeuver
  executingMergeManeuver := false
  lastCommandStamp := v.currentTimeMillis

/-- `loop` of a planning state, by the merge maneuver that is executed now, if one is. -/
def PlanningState.loop (cfg : Settings K F) (v : Vehicle K)
    (currentlyExecuting : Option (IComplexManeuver K)) (p : PlanningState K) : Outcome K :=
  if v.currentTimeMillis - p.requestTime > cfg.commsTimeoutMS then
    { idle (.planning p) with newState := some (.standby []) }
  else
    let (p, out) := p.requestNewPlan v
    { idle (.planning p) with
      newState := currentlyExecuting.map fun maneuver =>
        .execution (newExecutionState v p.rampMeterData p.planId maneuver)
      out := out }

/-! ## Execution -/

def half : K := 1 / (2 : ℕ)

def ExecutionState.planTrajectory (e : ExecutionState K)
    (traj : Trajectory K) : Outcome K :=
  if traj.startLocation < e.complexManeuver.endDist - half then
    { idle (.execution e) with newState := some (.standby []) }
  else idle (.execution e)

def ExecutionState.onMobilityResponseMessage (e : ExecutionState K) (msg : MobilityResponse) :
    Outcome K :=
  if isAbout msg.header e.rampMeterData e.planId ∧ msg.isAccepted = false then
    { idle (.execution e) with
      newState := some (.standby [])
      out := [.notifyTrajectoryFailure] }
  else idle (.execution e)

/-- `onMobilityOperationMessage` of an execution state. The steering is overridden. -/
def ExecutionState.onMobilityOperationMessage (v : Vehicle K) (e : ExecutionState K)
    (msg : MobilityOperation K) : Outcome K :=
  if isAbout msg.header e.rampMeterData e.planId then
    match msg.params with
    | .malformed => { idle (.execution e) with out := [.notifyTrajectoryFailure] }
    | .notNumbers => idle (.execution e)
    | .numbers params =>
      { idle (.execution { e with lastCommandStamp := v.currentTimeMillis }) with
        command := some (msg.header, { params with steeringAngle := .fin 0 }) }
  else idle (.execution e)

def ExecutionState.publishOperationStatus (cfg : Settings K F) (v : Vehicle K)
    (e : ExecutionState K) : Output K :=
  .status (header cfg v e.rampMeterData.rsuId e.planId)
    (e.rampMeterData.rampMeterDTD - v.currentDTD) (e.rampMeterData.mergePointDTD - v.currentDTD)
    v.currentSpeed v.currentLane

/-- `loop` of an execution state, by whether a maneuver of this plugin is executed now. -/
def ExecutionState.loop (cfg : Settings K F) (v : Vehicle K) (inControl : Bool)
    (e : ExecutionState K) : Outcome K :=
  if inControl then
    let self := ICooperativeMergeState.execution { e with executingMergeManeuver := true }
    let status := e.publishOperationStatus cfg v
    if v.currentTimeMillis - e.lastCommandStamp > cfg.commsTimeoutMS then
      { idle self with
        newState := some (.standby [])
        out := [status, .notifyTrajectoryFailure] }
    else { idle self with out := [status] }
  else if e.executingMergeManeuver then
    { idle (.execution { e with executingMergeManeuver := false }) with
      newState := some (.standby []) }
  else idle (.execution e)

/-! ## The plugin -/

/-- A maneuver that was set in a trajectory, and the state that planned it, by its place
in the history. -/
structure MergeManeuver (K : Type) where
  maneuver : IComplexManeuver K
  plannedBy : ℕ

/-- The complex maneuver that the vehicle executes. -/
inductive Executing (K : Type)
  | none
  | merge (m : MergeManeuver K)
  | other

/-- A call of `setCommands`: the state that made it, by its place in the history, and the
message that it was made for. -/
structure Command (K : Type) where
  givenBy : ℕ
  senderId : String
  planId : String
  params : CommandParams K

/-- The plugin and what it has been told. The history has all states that the plugin was
ever in, and the last of them is the one that it is in. A call of `setState` is pending
from the time a method makes it until the reference is compared and set. -/
structure CooperativeMergePlugin (K : Type) where
  history : List (ICooperativeMergeState K)
  pending : List (ℕ × ICooperativeMergeState K)
  planted : List (MergeManeuver K)
  executing : Executing K
  received : List MobilityResponse
  commands : List (Command K)
  log : List (Output K)

def newPlugin : CooperativeMergePlugin K := ⟨[.standby []], [], [], .none, [], [], []⟩

def Executing.maneuver : Executing K → Option (IComplexManeuver K)
  | .merge m => some m.maneuver
  | _ => Option.none

/-- What can happen. A method runs on any state that the plugin was ever in, since the
reference can be read long before. `execute i` begins a maneuver that was planted. -/
inductive Call (K : Type) [LE K]
  | onResume
  | request (state : ℕ) (v : Vehicle K) (planId : String) (msg : MobilityRequest K)
  | response (state : ℕ) (v : Vehicle K) (msg : MobilityResponse)
  | operation (state : ℕ) (v : Vehicle K) (msg : MobilityOperation K)
  | planTrajectory (state : ℕ) (v : Vehicle K) (traj : Trajectory K)
  | loop (state : ℕ) (v : Vehicle K)
  | compareAndSet (i : ℕ)
  | execute (i : ℕ)
  | executeOther
  | finish

def onMobilityRequestMessage (cfg : Settings K F) (v : Vehicle K) (planId : String)
    (msg : MobilityRequest K) : ICooperativeMergeState K → Outcome K
  | .standby rampMeters => standbyOnRequest cfg v planId rampMeters msg
  | self => idle self

def onMobilityResponseMessage (v : Vehicle K) (msg : MobilityResponse) :
    ICooperativeMergeState K → Outcome K
  | .planning p => p.onMobilityResponseMessage v msg
  | .execution e => e.onMobilityResponseMessage msg
  | self => idle self

def onMobilityOperationMessage (v : Vehicle K) (msg : MobilityOperation K) :
    ICooperativeMergeState K → Outcome K
  | .execution e => e.onMobilityOperationMessage v msg
  | self => idle self

def planTrajectory (cfg : Settings K F) (v : Vehicle K) (traj : Trajectory K) :
    ICooperativeMergeState K → Outcome K
  | .planning p => p.planTrajectory cfg v traj
  | .execution e => e.planTrajectory traj
  | self => idle self

def loop (cfg : Settings K F) (v : Vehicle K) (executing : Executing K) :
    ICooperativeMergeState K → Outcome K
  | .planning p => p.loop cfg v executing.maneuver
  | .execution e => e.loop cfg v executing.maneuver.isSome
  | self => idle self

namespace CooperativeMergePlugin

def on (s : CooperativeMergePlugin K) (state : ℕ)
    (method : ICooperativeMergeState K → Outcome K) : CooperativeMergePlugin K :=
  match s.history[state]? with
  | none => s
  | some self =>
    let r := method self
    { s with
      history := s.history.set state r.self
      pending := s.pending ++ (r.newState.map fun new => (state, new)).toList
      planted := s.planted ++ (r.planted.map fun m => ⟨m, state⟩).toList
      commands := s.commands ++
        (r.command.map fun c => ⟨state, c.1.senderId, c.1.planId, c.2⟩).toList
      log := s.log ++ r.out }

/-- `setState`: a pending call goes through if the plugin is still in the calling state. -/
def compareAndSet (s : CooperativeMergePlugin K) (i : ℕ) : CooperativeMergePlugin K :=
  match s.pending[i]? with
  | none => s
  | some (callingState, new) =>
    { s with
      pending := s.pending.eraseIdx i
      history := if callingState + 1 = s.history.length then s.history ++ [new] else s.history }

def step (cfg : Settings K F) (s : CooperativeMergePlugin K) : Call K → CooperativeMergePlugin K
  | .onResume => { s with pending := s.pending ++ [(s.history.length - 1, .standby [])] }
  | .request state v planId msg => s.on state (onMobilityRequestMessage cfg v planId msg)
  | .response state v msg =>
    { s.on state (onMobilityResponseMessage v msg) with received := s.received ++ [msg] }
  | .operation state v msg => s.on state (onMobilityOperationMessage v msg)
  | .planTrajectory state v traj => s.on state (planTrajectory cfg v traj)
  | .loop state v => s.on state (loop cfg v s.executing)
  | .compareAndSet i => s.compareAndSet i
  | .execute i =>
    match s.planted[i]? with
    | none => s
    | some m => { s with executing := .merge m }
  | .executeOther => { s with executing := .other }
  | .finish => { s with executing := .none }

end CooperativeMergePlugin

end carma.cooperative_merge
