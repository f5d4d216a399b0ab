-- The platooning plugin: the messages that it trades with other vehicles, its five
-- states, and what each of them does with a message, in one pass of its loop and when
-- it is asked for a plan. The functions are those of `PlatooningPlugin` and of the
-- state classes. Every handler runs alone: the plugin holds one lock for all of them.
import Carma.PlatoonManager
import Mathlib.Algebra.Field.Rat
import Mathlib.Algebra.Order.Field.Basic
import Mathlib.Algebra.Order.Group.Unbundled.Abs
import Mathlib.Algebra.Order.Ring.Rat

open carma.platoon_manager

namespace carma.platooning

/-! ## Messages -/

/-- `MobilityHeader`. A message to everybody has the empty recipient. -/
structure MobilityHeader where
  senderId : String
  recipientId : String
  senderBsmId : String
  planId : String
deriving DecidableEq

/-- The parameters of a request to join at the rear. -/
structure JoinParams (K : Type) where
  size : ℤ
  speed : K
  dtd : K
deriving DecidableEq

/-- The type of a request, with the parameters that are parsed for it. -/
inductive RequestType (K : Type) where
  | joinPlatoonAtRear (params : JoinParams K)
  | platoonFollowerJoin
  | other
deriving DecidableEq

structure MobilityRequest (K : Type) where
  header : MobilityHeader
  type : RequestType K
deriving DecidableEq

structure InfoParams (K : Type) where
  rear : String
  length : K
  speed : K
  size : ℤ
  dtd : K
deriving DecidableEq

/-- The parameters of an operation message, by the word that they start with. -/
inductive OperationParams (K : Type) where
  | info (params : InfoParams K)
  | status (params : StatusParams K)
  | other
deriving DecidableEq

structure MobilityOperation (K : Type) where
  header : MobilityHeader
  params : OperationParams K
deriving DecidableEq

structure MobilityResponse where
  header : MobilityHeader
  isAccepted : Bool
deriving DecidableEq

inductive Message (K : Type) where
  | request (msg : MobilityRequest K)
  | operation (msg : MobilityOperation K)
  | response (msg : MobilityResponse)
deriving DecidableEq

/-- What a handler answers to a request. -/
inductive MobilityRequestResponse where
  | ack
  | nack
  | noResponse
deriving DecidableEq

/-! ## States -/

/-- `PlatoonPlan`: a request that waits for its answer. -/
structure PlatoonPlan where
  planStartTime : ℤ
  planId : String
  peerId : String
deriving DecidableEq

structure LeaderState where
  currentPlan : Option PlatoonPlan
  lastHeartBeatTime : ℤ
  potentialNewPlatoonId : String
deriving DecidableEq

structure LeaderWaitingState where
  applicantId : String
  waitingStartTime : ℤ
deriving DecidableEq

structure CandidateFollowerState where
  targetLeaderId : String
  targetPlatoonId : String
  currentPlan : Option PlatoonPlan
  stateStartTime : ℤ
deriving DecidableEq

structure FollowerState where
  noLeaderUpdatesCounter : ℕ
deriving DecidableEq

inductive PlatooningState where
  | standby
  | leader (s : LeaderState)
  | leaderWaiting (s : LeaderWaitingState)
  | candidateFollower (s : CandidateFollowerState)
  | follower (s : FollowerState)
deriving DecidableEq

def newLeaderState : PlatooningState := .leader ⟨none, 0, ""⟩

/-! ## The plugin -/

/-- The parameters that `onInitialize` loads. `memberInfoTimeout` is the product that
`new PlatoonManager` makes of two of them, and `twoDecimals` is what a number becomes
when it is printed with `%.2f` and parsed again. -/
structure PlatooningParams (K : Type) where
  maxPlatoonSize : ℤ
  vehicleLength : K
  maxAllowedJoinGap : K
  maxAllowedJoinTimeGap : K
  desiredJoinGap : K
  desiredJoinTimeGap : K
  waitingStateTimeout : K
  minimumManeuverLength : K
  infoMessageInterval : ℤ
  memberInfoTimeout : ℤ
  twoDecimals : K → K

/-- The values that hold where nothing is configured. It is for numbers that have no
more than two decimals. -/
def defaultParams : PlatooningParams ℚ where
  maxPlatoonSize := 10
  vehicleLength := 5
  maxAllowedJoinGap := 90
  maxAllowedJoinTimeGap := 15
  desiredJoinGap := 30
  desiredJoinTimeGap := 4
  waitingStateTimeout := 25
  minimumManeuverLength := 15
  infoMessageInterval := 200
  memberInfoTimeout := 250
  twoDecimals := id

/-- `PlatooningPlugin`. The two threads are kept as whether they are started. -/
structure PlatooningPlugin (K : Type) where
  params : PlatooningParams K
  state : PlatooningState
  stateThread : Bool
  platoonManager : PlatoonManager K
  platoonManagerThread : Bool

/-- What a handler reads from the rest of the vehicle. `tsStart` is the time at which a
pass of a loop begins, `now` is a later time, and `uuid` is the random id that is drawn
next. There may be no vehicle in front. -/
structure Readings (K : Type) where
  tsStart : ℤ
  now : ℤ
  uuid : String
  bsmId : String
  downtrack : K
  currentSpeed : K
  lastSpeedCmd : K
  distanceToFrontVehicle : Option K

/-- The plugin after a call, and the messages that the call published. -/
structure Outcome (K : Type) where
  plugin : PlatooningPlugin K
  published : List (Message K)

/-- `NEGOTIATION_TIMEOUT`, in milliseconds. -/
def NEGOTIATION_TIMEOUT : ℤ := (5000 : ℕ)

def LEADER_TIMEOUT_COUNTER_LIMIT : ℕ := 5

variable {K : Type}

/-- `new PlatooningPlugin`, initialized and resumed for the first time. -/
def newPlugin (params : PlatooningParams K) (hostMobilityId uuid : String) :
    PlatooningPlugin K where
  params := params
  state := .standby
  stateThread := true
  platoonManager := newPlatoonManager hostMobilityId uuid params.memberInfoTimeout
  platoonManagerThread := true

namespace PlatooningPlugin

def hostMobilityId (plugin : PlatooningPlugin K) : String := plugin.platoonManager.hostMobilityId

/-- `setState`: the thread of the old state is interrupted, that of the new one started. -/
def setState (plugin : PlatooningPlugin K) (state : PlatooningState) : PlatooningPlugin K :=
  { plugin with state := state, stateThread := true }

/-- The header of a message that the host sends. -/
def header (plugin : PlatooningPlugin K) (r : Readings K) (recipientId planId : String) :
    MobilityHeader :=
  ⟨plugin.hostMobilityId, recipientId, r.bsmId, planId⟩

/-- The STATUS message that every state but standby composes. -/
def composeStatus (plugin : PlatooningPlugin K) (r : Readings K) : Message K :=
  .operation ⟨plugin.header r "" plugin.platoonManager.currentPlatoonID,
    .status ⟨plugin.params.twoDecimals r.lastSpeedCmd, plugin.params.twoDecimals r.downtrack,
      plugin.params.twoDecimals r.currentSpeed⟩⟩

def composeInfo [Add K] [Sub K] (plugin : PlatooningPlugin K) (r : Readings K) : Message K :=
  let manager := plugin.platoonManager
  .operation ⟨plugin.header r "" manager.currentPlatoonID,
    .info ⟨manager.getPlatoonRearBsmId r.bsmId,
      plugin.params.twoDecimals
        (manager.getCurrentPlatoonLength r.downtrack plugin.params.vehicleLength),
      plugin.params.twoDecimals r.currentSpeed,
      manager.getTotalPlatooningSize,
      plugin.params.twoDecimals (manager.getPlatoonRearDowntrackDistance r.downtrack)⟩⟩

def joinRequest (plugin : PlatooningPlugin K) (r : Readings K) (leaderId : String) : Message K :=
  .request ⟨plugin.header r leaderId r.uuid,
    .joinPlatoonAtRear ⟨plugin.platoonManager.getTotalPlatooningSize,
      plugin.params.twoDecimals r.currentSpeed, plugin.params.twoDecimals r.downtrack⟩⟩

/-- The request of a candidate that has closed the gap. -/
def followerJoinRequest (plugin : PlatooningPlugin K) (r : Readings K) (leaderId : String) :
    Message K :=
  .request ⟨plugin.header r leaderId r.uuid, .platoonFollowerJoin⟩

/-- What every state but standby does with a STATUS message. -/
def memberUpdates [LinearOrder K] (plugin : PlatooningPlugin K) (r : Readings K)
    (header : MobilityHeader) (params : StatusParams K) : PlatooningPlugin K :=
  { plugin with
    platoonManager := plugin.platoonManager.memberUpdates r.downtrack r.now header.senderId
      header.planId header.senderBsmId params }

end PlatooningPlugin

/-! ## The leader -/

section

variable [Field K] [LinearOrder K]

namespace LeaderState

/-- The size test of `onMobilityRequestMessage`. The sum is an `int`. -/
def hasEnoughRoomInPlatoon (plugin : PlatooningPlugin K) (applicantSize : ℤ) : Bool :=
  decide ((BitVec.ofInt 32 (applicantSize + plugin.platoonManager.getTotalPlatooningSize)).toInt
    ≤ plugin.params.maxPlatoonSize)

/-- The gap from the rear of the platoon to the applicant. -/
def currentGap (plugin : PlatooningPlugin K) (r : Readings K) (params : JoinParams K) : K :=
  plugin.platoonManager.getPlatoonRearDowntrackDistance r.downtrack - params.dtd
    - plugin.params.vehicleLength

/-- `isDistanceCloseEnough`. The time gap of an applicant that stands still is infinite
or no number, and is then not small enough. -/
def isDistanceCloseEnough (plugin : PlatooningPlugin K) (gap speed : K) : Bool :=
  decide (gap ≤ plugin.params.maxAllowedJoinGap) ||
    decide (speed ≠ 0 ∧ gap / speed ≤ plugin.params.maxAllowedJoinTimeGap)

def onMobilityRequestMessage (plugin : PlatooningPlugin K) (r : Readings K)
    (msg : MobilityRequest K) : PlatooningPlugin K × MobilityRequestResponse :=
  match msg.type with
  | .joinPlatoonAtRear params =>
    if hasEnoughRoomInPlatoon plugin params.size then
      let gap := currentGap plugin r params
      if gap < 0 then (plugin, .nack)
      else if isDistanceCloseEnough plugin gap params.speed then
        (plugin.setState (.leaderWaiting ⟨msg.header.senderId, r.now⟩), .ack)
      else (plugin, .nack)
    else (plugin, .nack)
  | _ => (plugin, .noResponse)

/-- `onMobilityOperationMessage`. An empty BSM id does not parse, which throws before
anything is changed. -/
def onMobilityOperationMessage (s : LeaderState) (plugin : PlatooningPlugin K) (r : Readings K)
    (msg : MobilityOperation K) : Outcome K :=
  match msg.params, s.currentPlan with
  | .info params, none =>
    if params.rear = "" then ⟨plugin, []⟩
    else if r.downtrack < params.dtd then
      ⟨{ plugin with
          state := .leader { s with
            currentPlan := some ⟨r.now, r.uuid, msg.header.senderId⟩
            potentialNewPlatoonId := msg.header.planId } },
        [plugin.joinRequest r msg.header.senderId]⟩
    else ⟨plugin, []⟩
  | .status params, _ => ⟨plugin.memberUpdates r msg.header params, []⟩
  | _, _ => ⟨plugin, []⟩

omit [Field K] [LinearOrder K] in
def onMobilityResponseMessage (s : LeaderState) (plugin : PlatooningPlugin K) (r : Readings K)
    (msg : MobilityResponse) : PlatooningPlugin K :=
  match s.currentPlan with
  | none => plugin
  | some plan =>
    if plan.planId = msg.header.planId ∧ plan.peerId = msg.header.senderId then
      if msg.isAccepted then
        plugin.setState
          (.candidateFollower ⟨plan.peerId, s.potentialNewPlatoonId, none, r.now⟩)
      else { plugin with state := .leader { s with currentPlan := none } }
    else plugin

omit [LinearOrder K] in
/-- One pass of `run`. -/
def run (s : LeaderState) (plugin : PlatooningPlugin K) (r : Readings K) : Outcome K :=
  let isTimeForHeartBeat :=
    decide (r.tsStart - s.lastHeartBeatTime ≥ plugin.params.infoMessageInterval)
  let isCurrentPlanTimeout := s.currentPlan.any fun plan =>
    decide (r.now - plan.planStartTime > NEGOTIATION_TIMEOUT)
  let hasFollower := decide (plugin.platoonManager.getTotalPlatooningSize > 1)
  ⟨{ plugin with
      state := .leader { s with
        lastHeartBeatTime := if isTimeForHeartBeat then r.now else s.lastHeartBeatTime
        currentPlan := if isCurrentPlanTimeout then none else s.currentPlan } },
    (if isTimeForHeartBeat then [plugin.composeInfo r] else []) ++
      (if hasFollower then [plugin.composeStatus r] else [])⟩

end LeaderState

/-! ## The waiting leader -/

namespace LeaderWaitingState

omit [Field K] [LinearOrder K] in
def onMobilityRequestMessage (s : LeaderWaitingState) (plugin : PlatooningPlugin K)
    (msg : MobilityRequest K) : PlatooningPlugin K × MobilityRequestResponse :=
  match msg.type with
  | .platoonFollowerJoin =>
    if msg.header.senderId = s.applicantId then (plugin.setState newLeaderState, .ack)
    else (plugin, .noResponse)
  | _ => (plugin, .noResponse)

/-- One pass of `run`. The STATUS message follows the timeout in the same pass. -/
def run (s : LeaderWaitingState) (plugin : PlatooningPlugin K) (r : Readings K) : Outcome K :=
  let isTimeout := decide (((r.tsStart - s.waitingStartTime : ℤ) : K) >
    plugin.params.waitingStateTimeout * ((1000 : ℕ) : K))
  ⟨if isTimeout then plugin.setState newLeaderState else plugin, [plugin.composeStatus r]⟩

end LeaderWaitingState

/-! ## The candidate -/

namespace CandidateFollowerState

omit [Field K] [LinearOrder K] in
def onMobilityResponseMessage (s : CandidateFollowerState) (plugin : PlatooningPlugin K)
    (msg : MobilityResponse) : PlatooningPlugin K :=
  match s.currentPlan with
  | none => plugin
  | some plan =>
    if msg.header.planId = plan.planId ∧ msg.header.senderId = s.targetLeaderId then
      if msg.isAccepted then
        { plugin with
          platoonManager :=
            plugin.platoonManager.changeFromLeaderToFollower s.targetPlatoonId }.setState
          (.follower ⟨0⟩)
      else plugin.setState newLeaderState
    else plugin

/-- The gap is small enough to ask for the place. -/
def isGapClosed (plugin : PlatooningPlugin K) (r : Readings K) : Bool :=
  let maxJoinGap :=
    max plugin.params.desiredJoinGap (plugin.params.desiredJoinTimeGap * r.currentSpeed)
  r.distanceToFrontVehicle.any fun currentGap => decide (currentGap ≤ maxJoinGap)

/-- One pass of `run`. The first two tasks may replace the state of the plugin; the
third task goes on with the old one, and publishes its request all the same. -/
def run (s : CandidateFollowerState) (plugin : PlatooningPlugin K) (r : Readings K) : Outcome K :=
  let isCurrentStateTimeout := decide (((r.tsStart - s.stateStartTime : ℤ) : K) >
    plugin.params.waitingStateTimeout * ((1000 : ℕ) : K))
  let isPlanTimeout := s.currentPlan.any fun plan =>
    decide (r.tsStart - plan.planStartTime > NEGOTIATION_TIMEOUT)
  let currentPlan := if isPlanTimeout then none else s.currentPlan
  let asks := isGapClosed plugin r && currentPlan.isNone
  let hasFollower := decide (plugin.platoonManager.getTotalPlatooningSize > 1)
  ⟨if isCurrentStateTimeout || isPlanTimeout then plugin.setState newLeaderState
    else { plugin with
      state := .candidateFollower { s with
        currentPlan := if asks then some ⟨r.now, r.uuid, s.targetLeaderId⟩ else currentPlan } },
    (if asks then [plugin.followerJoinRequest r s.targetLeaderId] else []) ++
      (if hasFollower then [plugin.composeStatus r] else [])⟩

end CandidateFollowerState

/-! ## The follower -/

namespace FollowerState

omit [Field K] in
def onMobilityOperationMessage (plugin : PlatooningPlugin K) (r : Readings K)
    (msg : MobilityOperation K) : PlatooningPlugin K :=
  match msg.params with
  | .status params => plugin.memberUpdates r msg.header params
  | .info params =>
    if msg.header.senderId = plugin.platoonManager.leaderID then
      { plugin with platoonManager := { plugin.platoonManager with platoonSize := params.size } }
    else plugin
  | .other => plugin

omit [Field K] [LinearOrder K] in
/-- One pass of `run`. -/
def run (s : FollowerState) (plugin : PlatooningPlugin K) (r : Readings K) : Outcome K :=
  ⟨if plugin.platoonManager.getNumberOfVehicleInFront = 0 then
      if s.noLeaderUpdatesCounter + 1 ≥ LEADER_TIMEOUT_COUNTER_LIMIT then
        { plugin with
          platoonManager := plugin.platoonManager.changeFromFollowerToLeader r.uuid }.setState
          newLeaderState
      else { plugin with state := .follower ⟨s.noLeaderUpdatesCounter + 1⟩ }
    else { plugin with state := .follower ⟨0⟩ },
    [plugin.composeStatus r]⟩

end FollowerState

/-! ## What reaches the plugin -/

namespace PlatooningPlugin

def handleMobilityRequestMessage (plugin : PlatooningPlugin K) (r : Readings K)
    (msg : MobilityRequest K) : PlatooningPlugin K × MobilityRequestResponse :=
  match plugin.state with
  | .leader _ => LeaderState.onMobilityRequestMessage plugin r msg
  | .leaderWaiting s => s.onMobilityRequestMessage plugin msg
  | _ => (plugin, .noResponse)

/-- `handleMobilityOperationMessage`. The waiting leader and the candidate heed a
STATUS message only. -/
def handleMobilityOperationMessage (plugin : PlatooningPlugin K) (r : Readings K)
    (msg : MobilityOperation K) : Outcome K :=
  match plugin.state with
  | .standby => ⟨plugin, []⟩
  | .leader s => s.onMobilityOperationMessage plugin r msg
  | .leaderWaiting _ | .candidateFollower _ =>
    match msg.params with
    | .status params => ⟨plugin.memberUpdates r msg.header params, []⟩
    | _ => ⟨plugin, []⟩
  | .follower _ => ⟨FollowerState.onMobilityOperationMessage plugin r msg, []⟩

omit [Field K] [LinearOrder K] in
def handleMobilityResponseMessage (plugin : PlatooningPlugin K) (r : Readings K)
    (msg : MobilityResponse) : PlatooningPlugin K :=
  match plugin.state with
  | .leader s => s.onMobilityResponseMessage plugin r msg
  | .candidateFollower s => s.onMobilityResponseMessage plugin msg
  | _ => plugin

omit [Field K] [LinearOrder K] in
/-- The response that `MobilityRouter` publishes for the answer of the plugin. -/
def respond (plugin : PlatooningPlugin K) (r : Readings K) (msg : MobilityRequest K) :
    MobilityRequestResponse → List (Message K)
  | .ack => [.response ⟨plugin.header r msg.header.senderId msg.header.planId, true⟩]
  | .nack => [.response ⟨plugin.header r msg.header.senderId msg.header.planId, false⟩]
  | .noResponse => []

/-- The router hands a message to the plugin, and publishes the answer to a request. -/
def receive (plugin : PlatooningPlugin K) (r : Readings K) : Message K → Outcome K
  | .request msg =>
    let (plugin, answer) := plugin.handleMobilityRequestMessage r msg
    ⟨plugin, plugin.respond r msg answer⟩
  | .operation msg => plugin.handleMobilityOperationMessage r msg
  | .response msg => ⟨plugin.handleMobilityResponseMessage r msg, []⟩

/-- One pass of the loop of the current state. -/
def run (plugin : PlatooningPlugin K) (r : Readings K) : Outcome K :=
  match plugin.state with
  | .standby => ⟨plugin, []⟩
  | .leader s => s.run plugin r
  | .leaderWaiting s => s.run plugin r
  | .candidateFollower s => s.run plugin r
  | .follower s => s.run plugin r

/-- `planTrajectory`, as far as the states go. `enabled` says that there is a platooning
window in the trajectory, and `window` is the one that the route service finds. -/
def planTrajectory (plugin : PlatooningPlugin K) (enabled : Bool) (window : Option (K × K)) :
    PlatooningPlugin K :=
  match plugin.state, enabled with
  | .standby, true => plugin.setState newLeaderState
  | .standby, false => plugin
  | .follower _, true =>
    if window.any fun w => decide (|w.2 - w.1| < plugin.params.minimumManeuverLength) then
      plugin.setState .standby
    else plugin
  | _, true => plugin
  | _, false => plugin.setState .standby

omit [Field K] [LinearOrder K] in
def onSuspend (plugin : PlatooningPlugin K) : PlatooningPlugin K :=
  { plugin with stateThread := false, platoonManagerThread := false }

omit [Field K] [LinearOrder K] in
def onResume (plugin : PlatooningPlugin K) (r : Readings K) : PlatooningPlugin K :=
  let plugin := plugin.setState .standby
  if plugin.platoonManagerThread then plugin
  else { plugin with
    platoonManager :=
      newPlatoonManager plugin.hostMobilityId r.uuid plugin.params.memberInfoTimeout
    platoonManagerThread := true }

end PlatooningPlugin

/-- What the vehicle itself does to the plugin. -/
inductive HostEvent (K : Type) where
  | run
  | removeExpiredMember (clock : ℕ → ℤ)
  | planTrajectory (enabled : Bool) (window : Option (K × K))
  | onSuspend
  | onResume

/-- What can happen to a plugin. -/
inductive Event (K : Type) where
  | receive (msg : Message K)
  | host (e : HostEvent K)

namespace PlatooningPlugin

/-- The plugin after an event of its vehicle. A loop whose thread is not started does
nothing. -/
def hostStep (plugin : PlatooningPlugin K) (r : Readings K) : HostEvent K → Outcome K
  | .run => if plugin.stateThread then plugin.run r else ⟨plugin, []⟩
  | .removeExpiredMember clock =>
    ⟨if plugin.platoonManagerThread then
        { plugin with platoonManager := plugin.platoonManager.removeExpiredMember clock }
      else plugin, []⟩
  | .planTrajectory enabled window => ⟨plugin.planTrajectory enabled window, []⟩
  | .onSuspend => ⟨plugin.onSuspend, []⟩
  | .onResume => ⟨plugin.onResume r, []⟩

def step (plugin : PlatooningPlugin K) (r : Readings K) : Event K → Outcome K
  | .receive msg => plugin.receive r msg
  | .host e => plugin.hostStep r e

end PlatooningPlugin

end

end carma.platooning
