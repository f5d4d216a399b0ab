-- The lane change plugin: two maneuvers without contents are reserved in a trajectory,
-- the neighbours are asked, and the maneuvers are filled with a lane change when nobody
-- refused in time, or with a stay in the lane when somebody did.
import Carma.MobilityRouter
import Carma.Trajectory

open carma.maneuvers
open carma.mobility_router (MobilityResponse)
open carma.trajectory

namespace carma.lane_change

/-! ## Future maneuvers -/

/-- `FutureLateralManeuver` and `FutureLongitudinalManeuver`: a stretch, and the maneuvers
that fill it from its start. -/
structure FutureManeuver (K M : Type) where
  startDist : K
  endDist : K
  maneuversEnd : K
  mvrs : List M

/-- A lateral maneuver that was planned. -/
inductive LateralMvr (K : Type)
  | laneChange (endingRelativeLane targetLane : ℤ) (startDist endDist : K)
  | laneKeeping (startDist endDist : K)

structure SteadySpeed (K : Type) where
  startSpeed : K
  endSpeed : K
  workingAccel : K
  startDist : K
  endDist : K

variable {K M : Type}

def newFutureManeuver (startDist endDist : K) : FutureManeuver K M :=
  ⟨startDist, endDist, startDist, []⟩

def LateralMvr.startDist : LateralMvr K → K
  | laneChange _ _ s _ => s
  | laneKeeping s _ => s

def LateralMvr.endDist : LateralMvr K → K
  | laneChange _ _ _ e => e
  | laneKeeping _ e => e

variable [LinearOrder K] [Field K]

/-- A thousandth of a meter. -/
def CONCATENATION_TOLERANCE : K := 1 / (1000 : ℕ)

/-- `addManeuver`, none where it throws. -/
def FutureManeuver.addManeuver (f : FutureManeuver K M) (mvr : M) (startDist endDist : K) :
    Option (FutureManeuver K M) :=
  if endDist > f.endDist then none
  else if |startDist - f.maneuversEnd| > CONCATENATION_TOLERANCE then none
  else some { f with mvrs := f.mvrs ++ [mvr], maneuversEnd := endDist }

/-- `planToTargetDistance` of a lateral maneuver, none where it throws. -/
def planLateral (mvr : K → K → LateralMvr K) (startDist endDist : K) : Option (LateralMvr K) :=
  if endDist ≤ startDist then none else some (mvr startDist endDist)

def SPEED_EPSILON : K := 5 / (100 : ℕ)

/-- The acceleration of a maneuver for which `setMaxAccel` was called. -/
def maxAccelOf (limit : K) : K := if limit > 0 then limit else (999 : ℕ) / (1000 : ℕ)

/-- `planToTargetDistance` of a steady speed, none where it throws. -/
def planSteadySpeed (startSpeed endSpeed maxAccel startDist endDist : K) :
    Option (SteadySpeed K) :=
  if |startSpeed - endSpeed| > SPEED_EPSILON then none
  else some ⟨startSpeed, endSpeed, maxAccelOf maxAccel / (2 : ℕ), startDist, endDist⟩

/-- The two future maneuvers that a negotiation reserves. -/
structure Reservation (K : Type) where
  endingRelativeLane : ℤ
  lat : FutureManeuver K (LateralMvr K)
  lon : FutureManeuver K (SteadySpeed K)

/-- What is set for the next negotiation. -/
structure LaneChangeParameters (K : Type) where
  targetLane : ℤ
  startSpeed : K
  endSpeed : K

/-- A lateral maneuver is planned over the whole lateral one, none where this throws. -/
def Reservation.fillLat (r : Reservation K) (mvr : K → K → LateralMvr K) :
    Option (Reservation K) := do
  let m ← planLateral mvr r.lat.startDist r.lat.endDist
  let lat ← r.lat.addManeuver m m.startDist m.endDist
  return { r with lat := lat }

/-- A steady speed is planned over the whole longitudinal one, none where this throws. -/
def Reservation.fillLon (r : Reservation K) (maxAccel startSpeed : K) :
    Option (Reservation K) := do
  let ss ← planSteadySpeed startSpeed startSpeed maxAccel r.lon.startDist r.lon.endDist
  let lon ← r.lon.addManeuver ss ss.startDist ss.endDist
  return { r with lon := lon }

/-- A reservation after some code has worked on it, and whether it came to its end. -/
abbrev Worked (K : Type) := Reservation K × Bool

/-- The next part of the work, unless a part before it has thrown. -/
def Worked.andThen (w : Worked K) (f : Reservation K → Option (Reservation K)) : Worked K :=
  if w.2 then
    match f w.1 with
    | some r => (r, true)
    | none => (w.1, false)
  else w

def populateFutureManeuverWithLaneChange (maxAccel : K) (params : LaneChangeParameters K)
    (r : Reservation K) : Worked K :=
  (Worked.andThen (r, true) fun r =>
    r.fillLat (.laneChange r.endingRelativeLane params.targetLane)).andThen fun r =>
      r.fillLon maxAccel params.startSpeed

def populateFutureManeuverWithSteadySpeed (maxAccel : K) (params : LaneChangeParameters K)
    (r : Reservation K) : Worked K :=
  (Worked.andThen (r, true) fun r => r.fillLon maxAccel params.startSpeed).andThen fun r =>
    r.fillLat .laneKeeping

/-! ## The plugin -/

/-- What is read of the request that is negotiated. -/
structure PlanHeader where
  planId : String
  timestamp : ℤ

/-- Where the thread is that plans: nowhere in `plan`, on the way to the request, with
the request built, with the request published, in the body of the wait loop, or before
its condition. -/
inductive Phase
  | idle
  | reserved
  | built (requestMsg : PlanHeader)
  | published
  | inBody (startWait : ℤ)
  | beforeCondition (startWait : ℤ)

/-- A negotiation that ended: its reservation, and whether a refusal was handled before
the end. -/
structure Ended where
  reservation : ℕ
  nacked : Bool
deriving DecidableEq

/-- `LaneChangePlugin`. The last reservation is the one that the fields refer to. Threads
that have found the id of the most recent plan in a response are waiting for the lock. -/
structure LaneChangePlugin (K : Type) where
  params : LaneChangeParameters K
  plan : Option PlanHeader
  mostRecentPlanId : String
  reservations : List (Reservation K)
  phase : Phase
  waiting : List MobilityResponse
  nacked : Bool
  ended : List Ended

structure Settings (K : Type) where
  EXPIRATION_TIME : ℤ
  maxAccel : K

def newPlugin : LaneChangePlugin K where
  params := ⟨-1, 0, 0⟩
  plan := none
  mostRecentPlanId := ""
  reservations := []
  phase := .idle
  waiting := []
  nacked := false
  ended := []

/-- What can happen. The thread that plans calls `setLaneChangeParameters` and
`planSubtrajectory`, and goes through `plan`, where it fails before it has a request, or
builds and publishes one and waits. Other threads get the responses. -/
inductive Call (K : Type) [LE K]
  | setLaneChangeParameters (params : LaneChangeParameters K)
  | planSubtrajectory (traj : Trajectory K) (startDistance endDistance : K) (startingLane : ℤ)
      (currentSpeed : K)
  | fails
  | buildRequest (planId : String) (now : ℤ)
  | publish
  | startWait (now : ℤ)
  | body (now : ℤ)
  | condition (now : ℤ)
  | response (msg : MobilityResponse)
  | getsLock (i : ℕ)

/-- `canPlan` of a lane change. -/
def canPlan (currentSpeed startDist endDist : K) : Bool :=
  decide (endDist - startDist ≥ (4 : ℕ) * currentSpeed)

/-- The two future maneuvers are taken by the trajectory. -/
def takesBoth (traj : Trajectory K) (params : LaneChangeParameters K) (lane : ℤ)
    (startDistance endDistance : K) : Bool :=
  let added := traj.addManeuver (.lateral (.future startDistance endDistance lane []))
  decide (added.1 = some true) &&
    decide ((added.2.addManeuver (.longitudinal (.future
      ⟨startDistance, endDistance, params.startSpeed, params.endSpeed⟩ []))).1 = some true)

namespace LaneChangePlugin

def planSubtrajectory (s : LaneChangePlugin K) (traj : Trajectory K)
    (startDistance endDistance : K) (startingLane : ℤ) (currentSpeed : K) : LaneChangePlugin K :=
  if s.params.targetLane > -1 then
    let lane := s.params.targetLane - startingLane
    let s := { s with
      reservations := s.reservations ++ [⟨lane, newFutureManeuver startDistance endDistance,
        newFutureManeuver startDistance endDistance⟩] }
    if canPlan currentSpeed startDistance endDistance ∧
        takesBoth traj s.params lane startDistance endDistance then
      { s with phase := .reserved, nacked := false }
    else s
  else s

/-- The code works on the reservation that the fields refer to. -/
def workOn (s : LaneChangePlugin K) (work : Reservation K → Worked K) :
    LaneChangePlugin K × Bool :=
  match s.reservations.getLast? with
  | none => (s, false)
  | some r =>
    ({ s with reservations := s.reservations.dropLast ++ [(work r).1] }, (work r).2)

/-- The negotiation is over, by its end or by an exception. -/
def finish (s : LaneChangePlugin K) : LaneChangePlugin K :=
  { s with
    phase := .idle
    ended := s.ended ++ [⟨s.reservations.length - 1, s.nacked⟩] }

/-- The body of the wait loop: time without a refusal has passed. -/
def waitBody (cfg : Settings K) (s : LaneChangePlugin K) (startWait now : ℤ) :
    LaneChangePlugin K :=
  match s.plan with
  | none => { s with phase := .beforeCondition startWait }
  | some plan =>
    if now - plan.timestamp > cfg.EXPIRATION_TIME then
      match s.workOn (populateFutureManeuverWithLaneChange cfg.maxAccel s.params) with
      | (s, true) => { s with plan := none, phase := .beforeCondition startWait }
      | (s, false) => s.finish
    else { s with phase := .beforeCondition startWait }

def waitCondition (cfg : Settings K) (s : LaneChangePlugin K) (startWait now : ℤ) :
    LaneChangePlugin K :=
  if now - startWait < cfg.EXPIRATION_TIME ∧ s.plan.isSome then
    { s with phase := .inBody startWait }
  else s.finish

def handleLocked (cfg : Settings K) (s : LaneChangePlugin K) (msg : MobilityResponse) :
    LaneChangePlugin K :=
  if s.plan.isSome ∧ msg.isAccepted = false then
    match s.workOn (populateFutureManeuverWithSteadySpeed cfg.maxAccel s.params) with
    | (s, true) => { s with plan := none, nacked := true }
    | (s, false) => { s with nacked := true }
  else s

/-- A call that does not fit the phase does not happen. -/
def step (cfg : Settings K) (s : LaneChangePlugin K) : Call K → LaneChangePlugin K
  | .setLaneChangeParameters params => { s with params := params }
  | .planSubtrajectory traj startDistance endDistance startingLane currentSpeed =>
    match s.phase with
    | .idle => s.planSubtrajectory traj startDistance endDistance startingLane currentSpeed
    | _ => s
  | .fails =>
    match s.phase with
    | .reserved => { s with phase := .idle }
    | _ => s
  | .buildRequest planId now =>
    match s.phase with
    | .reserved => { s with phase := .built ⟨planId, now⟩, mostRecentPlanId := planId }
    | _ => s
  | .publish =>
    match s.phase with
    | .built requestMsg => { s with phase := .published, plan := some requestMsg }
    | _ => s
  | .startWait now =>
    match s.phase with
    | .published => { s with phase := .inBody now }
    | _ => s
  | .body now =>
    match s.phase with
    | .inBody startWait => s.waitBody cfg startWait now
    | _ => s
  | .condition now =>
    match s.phase with
    | .beforeCondition startWait => s.waitCondition cfg startWait now
    | _ => s
  | .response msg =>
    if msg.header.planId = s.mostRecentPlanId then { s with waiting := s.waiting ++ [msg] } else s
  | .getsLock i =>
    match s.waiting[i]? with
    | none => s
    | some msg => { s.handleLocked cfg msg with waiting := s.waiting.eraseIdx i }

end LaneChangePlugin

end carma.lane_change
