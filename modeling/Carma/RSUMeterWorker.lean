-- The metering of a ramp: a roadside unit follows the platoons on the main road by their
-- messages, holds a vehicle at the meter, and lets it go when it will merge behind the
-- next platoon.
import Carma.Lib.Narrowing
import Carma.MobilityRouter

open lib.exact_double
open lib.narrowing
open carma.mobility_router (MobilityHeader MobilityResponse)
open carma.route_node (Geodesy Location Route routeSegmentOfPoint)

namespace carma.rsu_metering

/-! ## Messages -/

/-- `cav_msgs.BSM`, with the stamp of its header in nanoseconds. -/
structure BSM (K : Type) where
  id : List (BitVec 8)
  location : Location K
  stamp : ℤ
deriving DecidableEq

/-- The strategy parameters of an operation: those of a platoon, those of a vehicle that
is held, or none that can be taken apart. A value is none where it is not a number. -/
inductive OperationParams (K : Type)
  | info (rear : String) (speed : Option (Dbl K))
  | status (meterDist mergeDist speed : Option (Dbl K)) (lane : Option ℤ)
  | malformed

/-- `cav_msgs.MobilityOperation`. -/
structure MobilityOperation (K : Type) where
  header : MobilityHeader
  strategy : String
  params : OperationParams K

/-- The strategy parameters of a request to merge. -/
structure MergeParams (K : Type) where
  maxAccel : Option (Dbl K)
  lagTime : Option (Dbl K)
  vehicleDistToMerge : Option (Dbl K)

/-- `cav_msgs.MobilityRequest`. Its parameters are none where they cannot be taken apart. -/
structure MobilityRequest (K : Type) where
  header : MobilityHeader
  params : Option (MergeParams K)

/-! ## The worker -/

structure PlatoonData (K : Type) where
  leaderId : String
  rearDTD : K
  speed : Dbl K
  expectedTimeOfArrival : ℤ
  rearBSMId : String
  stamp : ℤ

/-- The data of a platoon, beside the timestamp of the message that they come from, which
the worker does not keep. -/
structure TrackedPlatoon (K : Type) extends PlatoonData K where
  sent : ℤ

structure Commands (K : Type) where
  speedCommand : Dbl K
  maxAccelCommand : Dbl K
  steerCommand : Dbl K

structure HoldingState (K : Type) where
  vehicleId : String
  planId : String
  combinedLagTime : Dbl K
  vehMaxAccel : Dbl K
  distToMerge : Dbl K
  commands : Commands K
  lastMessageTime : ℤ

structure CommandingState (K : Type) where
  vehicleId : String
  planId : String
  vehMaxAccel : Dbl K
  distToMerge : Dbl K
  commands : Commands K
  lastMessageTime : ℤ

inductive IRSUMeteringState (K : Type)
  | standby
  | holding (h : HoldingState K)
  | commanding (c : CommandingState K)

/-- A release: the vehicle that was held, the platoon that it was released for, and what
the status of the vehicle said at that time. -/
structure Release (K : Type) where
  vehicle : HoldingState K
  platoon : TrackedPlatoon K
  mergeDist : Dbl K
  speed : Dbl K
  now : ℤ

/-- What the worker publishes. The request tells where the meter is. -/
inductive Output (K : Type)
  | request (recipientId senderId : String) (radius mergeDist mergeLength : K)
  | response (msg : MobilityResponse)
  | command (header : MobilityHeader) (commands : Commands K)

/-- The worker. The maps have an entry for each key that is in them. -/
structure RSUMeterWorker (K : Type) where
  bsmMap : List (String × BSM K)
  platoonMap : List (TrackedPlatoon K)
  state : IRSUMeteringState K
  releases : List (Release K)
  log : List (Output K)

def newRSUMeterWorker {K : Type} : RSUMeterWorker K := ⟨[], [], .standby, [], []⟩

/-- What stays as it is. The values of the map of platoons come in any order. -/
structure Settings (K P F : Type) where
  rsuId : String
  geo : Geodesy K P F
  mainRoadRoute : Route K F
  distToMerge : K
  mainRouteMergeDTD : K
  mergeLength : K
  meterRadius : K
  targetLane : ℤ
  minApproachAccel : K
  targetApproachSpeed : K
  driverLagTime : K
  commsLagTime : K
  timeMargin : ℤ
  commsTimeout : ℤ
  values : List (TrackedPlatoon K) → List (TrackedPlatoon K)
  values_perm : ∀ platoons, (values platoons).Perm platoons

/-- The value of a long after an overflow. -/
def wrapLong (x : ℤ) : ℤ := wrap 63 x

variable {K P F : Type}

/-! ## The vehicles on the road -/

def bsmIdFromBuffer (buffer : List (BitVec 8)) : Option String :=
  if buffer.length ≠ 4 then none
  else
    some <| String.ofList <| buffer.flatMap fun byte =>
      [Nat.digitChar (byte.toNat / 16), Nat.digitChar (byte.toNat % 16)]

/-- `handleBSMMsg`. -/
def handleBSMMsg (s : RSUMeterWorker K) (msg : BSM K) : RSUMeterWorker K :=
  match bsmIdFromBuffer msg.id with
  | none => s
  | some bsmId =>
    { s with bsmMap := (bsmId, msg) :: s.bsmMap.filter fun e => decide (e.1 ≠ bsmId) }

variable [LinearOrder K] [Field K]

/-- `getDowntrackDistanceFromLocation`, none where it throws. -/
def getDowntrackDistanceFromLocation (cfg : Settings K P F) (loc : Location K) : Option K := do
  let ecefPoint := cfg.geo.geodesic2Cartesian loc
  let seg ← routeSegmentOfPoint cfg.geo ecefPoint cfg.mainRoadRoute.segments
  let before ← cfg.mainRoadRoute.lengthOfSegments 0 (seg.uptrackWP.waypointId - 1)
  return seg.downTrackDistance cfg.geo ecefPoint + before

/-! ## The platoons -/

section platoons

variable [FloorRing K]

/-- The cast of a double to a long. -/
def toLong : Dbl K → ℤ
  | .fin x => saturate 63 (trunc x)
  | .inf true => -2 ^ 63
  | .inf false => 2 ^ 63 - 1
  | .nan => 0

theorem toLong_fin (x : K) : toLong (.fin x) = saturate 63 (trunc x) := rfl

/-- Milliseconds in a second. -/
def MS_PER_S : Dbl K := .fin ((1000 : ℕ) : K)

/-- The arrival of a platoon at the merge. -/
def timeOfArrival (cfg : Settings K P F) (timestamp : ℤ) (platoonRearDTD : K)
    (platoonSpeed : Dbl K) : ℤ :=
  let distanceLeft := Dbl.fin (cfg.mainRouteMergeDTD - platoonRearDTD)
  let deltaT := distanceLeft / platoonSpeed
  wrapLong (toLong (deltaT * MS_PER_S) + timestamp)

/-- The platoon of an INFO message. -/
def newPlatoon (cfg : Settings K P F) (now : ℤ) (header : MobilityHeader) (rearBsmId : String)
    (platoonSpeed : Dbl K) (platoonRearDTD : K) : TrackedPlatoon K where
  leaderId := header.senderId
  rearDTD := platoonRearDTD
  speed := platoonSpeed
  expectedTimeOfArrival := timeOfArrival cfg header.timestamp platoonRearDTD platoonSpeed
  rearBSMId := rearBsmId
  stamp := now
  sent := header.timestamp

/-- The platoons without that of a leader. -/
def removePlatoon (leaderId : String) (platoons : List (TrackedPlatoon K)) :
    List (TrackedPlatoon K) :=
  platoons.filter fun p => decide (p.leaderId ≠ leaderId)

/-- `updatePlatoonWithOperationMsg`, none where it throws. -/
def updatePlatoonWithOperationMsg (cfg : Settings K P F) (now : ℤ) (s : RSUMeterWorker K)
    (msg : MobilityOperation K) : Option (RSUMeterWorker K) :=
  match msg.params with
  | .info rearBsmId speed => do
    let platoonSpeed ← speed
    match s.bsmMap.lookup rearBsmId with
    | none => some s
    | some cachedMsg =>
      let platoonRearDTD ← getDowntrackDistanceFromLocation cfg cachedMsg.location
      let others := removePlatoon msg.header.senderId s.platoonMap
      if cfg.mainRouteMergeDTD + cfg.mergeLength < platoonRearDTD then
        some { s with platoonMap := others }
      else
        let newData := newPlatoon cfg now msg.header rearBsmId platoonSpeed platoonRearDTD
        some { s with platoonMap := newData :: others }
  | _ => some s

/-- One turn of the loop of `getNextPlatoon`. -/
def earlierPlatoon (cfg : Settings K P F) (ignoredPlatoon : String)
    (mostRecentPlatoon : Option (TrackedPlatoon K)) (platoon : TrackedPlatoon K) :
    Option (TrackedPlatoon K) :=
  if platoon.leaderId = ignoredPlatoon then mostRecentPlatoon
  else
    match mostRecentPlatoon with
    | none => some platoon
    | some mostRecent =>
      if platoon.expectedTimeOfArrival < mostRecent.expectedTimeOfArrival ∧
          platoon.rearDTD < cfg.mainRouteMergeDTD + cfg.mergeLength then some platoon
      else some mostRecent

def getNextPlatoon (cfg : Settings K P F) (platoons : List (TrackedPlatoon K))
    (ignoredPlatoon : String) : Option (TrackedPlatoon K) :=
  (cfg.values platoons).foldl (earlierPlatoon cfg ignoredPlatoon) none

def half : K := 1 / (2 : ℕ)

/-- A tenth of a meter a second. -/
def tenth : K := 1 / (10 : ℕ)

/-- The travel time of `expectedTravelTime`, in seconds. -/
def travelTime (dist speed maxSpeed lagTime maxAccel : Dbl K) : Dbl K :=
  if (maxSpeed - Dbl.fin tenth).lt speed then dist / speed
  else
    let deltaV := maxSpeed - speed
    let timeToSpeedUp := deltaV / maxAccel
    let distCoveredInSpeedUp := Dbl.fin half * deltaV * timeToSpeedUp + speed * timeToSpeedUp
    let distRemaining := dist - distCoveredInSpeedUp
    let timeAtMaxSpeed := distRemaining / maxSpeed
    timeToSpeedUp + timeAtMaxSpeed + lagTime

def expectedTravelTime (dist speed maxSpeed lagTime maxAccel : Dbl K) : ℤ :=
  toLong (travelTime dist speed maxSpeed lagTime maxAccel * MS_PER_S)

end platoons

/-! ## The states -/

def updateCommands (speed maxAccel steer : Dbl K) : Commands K := ⟨speed, maxAccel.abs, steer⟩

/-- The commands of a new state. -/
def initialCommands : Commands K :=
  ⟨.fin ((5 : ℕ) : K), .fin ((5 : ℕ) / (2 : ℕ) : K), .fin 0⟩

def newHoldingState (cfg : Settings K P F) (now : ℤ) (vehicleId planId : String)
    (vehLagTime vehMaxAccel distToMerge : Dbl K) : HoldingState K where
  vehicleId := vehicleId
  planId := planId
  combinedLagTime := Dbl.fin (cfg.driverLagTime + cfg.commsLagTime) + vehLagTime
  vehMaxAccel := vehMaxAccel
  distToMerge := distToMerge
  commands := initialCommands
  lastMessageTime := now

/-- `new CommandingState`, for a vehicle that was held. -/
def newCommandingState (now : ℤ) (h : HoldingState K) (initialTargetSpeed : Dbl K) :
    CommandingState K where
  vehicleId := h.vehicleId
  planId := h.planId
  vehMaxAccel := h.vehMaxAccel
  distToMerge := h.distToMerge
  commands := updateCommands initialTargetSpeed h.vehMaxAccel (.fin 0)
  lastMessageTime := now

/-- `onMobilityRequestMessage` on standby: the new state, and the answer. It throws where
a number is missing. -/
def standbyOnRequest (cfg : Settings K P F) (now : ℤ) (msg : MobilityRequest K) :
    Option (IRSUMeteringState K × Bool) :=
  match msg.params with
  | none => some (.standby, false)
  | some params => do
    let maxAccel ← params.maxAccel
    let lagTime ← params.lagTime
    let vehicleDistToMerge ← params.vehicleDistToMerge
    let distToMeter := vehicleDistToMerge - Dbl.fin cfg.distToMerge
    if (Dbl.fin cfg.meterRadius).lt distToMeter then some (.standby, false)
    else
      some (.holding (newHoldingState cfg now msg.header.senderId msg.header.planId lagTime maxAccel
        vehicleDistToMerge), true)

/-- The commands for a vehicle on its way to the meter. -/
def approachCommands (cfg : Settings K P F) (h : HoldingState K) (meterDist speed : Dbl K) :
    Commands K :=
  let targetSpeed := Dbl.fin cfg.targetApproachSpeed
  let neededAccel :=
    (targetSpeed * targetSpeed - speed * speed) / (Dbl.fin ((2 : ℕ) : K) * meterDist)
  if neededAccel.lt (-h.vehMaxAccel) then updateCommands targetSpeed h.vehMaxAccel (.fin 0)
  else if (Dbl.fin (-cfg.minApproachAccel)).lt neededAccel then
    updateCommands targetSpeed (.fin cfg.minApproachAccel) (.fin 0)
  else updateCommands targetSpeed neededAccel (.fin 0)

section operations

variable [FloorRing K]

/-- The vehicle would arrive behind the platoon, within the margin or later. -/
def arrivesBehind (cfg : Settings K P F) (now : ℤ) (h : HoldingState K)
    (nextPlatoon : TrackedPlatoon K) (mergeDist speed : Dbl K) : Bool :=
  let vehTimeTillMerge :=
    expectedTravelTime mergeDist speed nextPlatoon.speed h.combinedLagTime h.vehMaxAccel
  let vehicleArrivalTime := wrapLong (now + vehTimeTillMerge)
  let latest := wrapLong (nextPlatoon.expectedTimeOfArrival + cfg.timeMargin)
  if nextPlatoon.expectedTimeOfArrival < vehicleArrivalTime ∧ vehicleArrivalTime < latest then true
  else decide (latest < vehicleArrivalTime)

/-- A status of a vehicle at the meter. -/
def holdAtMeter (cfg : Settings K P F) (now : ℤ) (s : RSUMeterWorker K) (h : HoldingState K)
    (mergeDist speed : Dbl K) : RSUMeterWorker K :=
  let h := { h with commands := updateCommands (.fin 0) h.vehMaxAccel (.fin 0) }
  let held := { s with state := .holding h }
  if speed.lt (.fin tenth) then
    match getNextPlatoon cfg s.platoonMap h.vehicleId with
    | none => held
    | some nextPlatoon =>
      if arrivesBehind cfg now h nextPlatoon mergeDist speed then
        { s with
          state := .commanding (newCommandingState now h nextPlatoon.speed)
          releases := s.releases ++ [⟨h, nextPlatoon, mergeDist, speed, now⟩] }
      else held
  else held

/-- `onMobilityOperationMessage` of a holding state. -/
def holdingOnOperation (cfg : Settings K P F) (now : ℤ) (s : RSUMeterWorker K) (h : HoldingState K)
    (msg : MobilityOperation K) : RSUMeterWorker K :=
  if msg.header.senderId ≠ h.vehicleId ∨ msg.header.planId ≠ h.planId then s
  else
    match msg.params with
    | .status meterDist mergeDist speed _ =>
      let h := { h with lastMessageTime := now }
      match meterDist, mergeDist, speed with
      | some meterDist, some mergeDist, some speed =>
        if meterDist.lt (.fin 1) then holdAtMeter cfg now s h mergeDist speed
        else
          { s with state := .holding { h with commands := approachCommands cfg h meterDist speed } }
      | _, _, _ => { s with state := .holding h }
    | _ => s

/-- `onMobilityOperationMessage` of a commanding state. -/
def commandingOnOperation (cfg : Settings K P F) (now : ℤ) (s : RSUMeterWorker K)
    (c : CommandingState K) (msg : MobilityOperation K) : RSUMeterWorker K :=
  if msg.header.senderId ≠ c.vehicleId ∨ msg.header.planId ≠ c.planId then s
  else
    match msg.params with
    | .status meterDist mergeDist speed lane =>
      let c := { c with lastMessageTime := now }
      match meterDist, mergeDist, speed, lane with
      | some _, some mergeDist, some _, some lane =>
        let newCommandSpeed :=
          match getNextPlatoon cfg s.platoonMap c.vehicleId with
          | none => c.commands.speedCommand
          | some platoon => platoon.speed
        let targetSteer : K :=
          if lane ≠ cfg.targetLane ∧ mergeDist.lt (.fin 0) ∧
              mergeDist.abs.lt (.fin cfg.mergeLength) then
            ((wrap 31 (lane - cfg.targetLane) : ℤ) : K)
          else 0
        let commands := updateCommands newCommandSpeed c.vehMaxAccel (.fin targetSteer)
        { s with state := .commanding { c with commands := commands } }
      | _, _, _, _ => { s with state := .commanding c }
    | _ => s

end operations

/-! ## The worker takes its messages -/

def PLATOONING_STRATEGY : String := "Carma/Platooning"

def BROADCAST_ID : String := ""

/-- The message is for the unit, or for all. -/
def isForUs (cfg : Settings K P F) (header : MobilityHeader) : Bool :=
  decide (header.recipientId = cfg.rsuId ∨ header.recipientId = BROADCAST_ID)

/-- `handleMobilityOperationMsg`. Where it throws, the node is shut down. -/
def handleMobilityOperationMsg [FloorRing K] (cfg : Settings K P F) (now : ℤ)
    (s : RSUMeterWorker K) (msg : MobilityOperation K) : RSUMeterWorker K :=
  if ¬ isForUs cfg msg.header then s
  else
    let updated :=
      if msg.strategy = PLATOONING_STRATEGY then updatePlatoonWithOperationMsg cfg now s msg
      else some s
    match updated with
    | none => s
    | some s =>
      match s.state with
      | .standby => s
      | .holding h => holdingOnOperation cfg now s h msg
      | .commanding c => commandingOnOperation cfg now s c msg

/-- An answer of the unit. -/
def answer (cfg : Settings K P F) (now : ℤ) (recipientId planId : String) (isAccepted : Bool) :
    Output K :=
  .response ⟨⟨cfg.rsuId, recipientId, "", planId, now⟩, isAccepted⟩

/-- `handleMobilityRequestMsg`. Where it throws, the node is shut down. -/
def handleMobilityRequestMsg (cfg : Settings K P F) (now : ℤ) (s : RSUMeterWorker K)
    (msg : MobilityRequest K) : RSUMeterWorker K :=
  if msg.header.recipientId ≠ cfg.rsuId then s
  else
    let handled :=
      match s.state with
      | .standby => standbyOnRequest cfg now msg
      | state => some (state, false)
    match handled with
    | none => s
    | some (state, accepted) =>
      { s with
        state := state
        log := s.log ++ [answer cfg now msg.header.senderId msg.header.planId accepted] }

/-- The vehicle of a state, and the plan. -/
def IRSUMeteringState.plan : IRSUMeteringState K → Option (String × String)
  | .standby => none
  | .holding h => some (h.vehicleId, h.planId)
  | .commanding c => some (c.vehicleId, c.planId)

def handleMobilityResponseMsg (cfg : Settings K P F) (s : RSUMeterWorker K)
    (msg : MobilityResponse) : RSUMeterWorker K :=
  if isForUs cfg msg.header ∧ s.state.plan = some (msg.header.senderId, msg.header.planId) ∧
      msg.isAccepted = false then
    { s with state := .standby }
  else s

/-- `checkTimeout`, with `onTimeout`, for a vehicle that was last heard of at `lastMessageTime`. -/
def checkTimeout (cfg : Settings K P F) (now lastMessageTime : ℤ) (vehicleId planId : String)
    (s : RSUMeterWorker K) : RSUMeterWorker K :=
  if cfg.commsTimeout < wrapLong (now - lastMessageTime) then
    { s with state := .standby, log := s.log ++ [answer cfg now vehicleId planId false] }
  else s

def publishSpeedCommand (cfg : Settings K P F) (now : ℤ) (vehicleId planId : String)
    (commands : Commands K) (s : RSUMeterWorker K) : RSUMeterWorker K :=
  { s with log := s.log ++ [.command ⟨cfg.rsuId, vehicleId, "", planId, now⟩ commands] }

def loopState (cfg : Settings K P F) (now : ℤ) (s : RSUMeterWorker K) : RSUMeterWorker K :=
  match s.state with
  | .standby =>
    { s with
      log := s.log ++
        [.request BROADCAST_ID cfg.rsuId cfg.meterRadius cfg.distToMerge cfg.mergeLength] }
  | .holding h =>
    checkTimeout cfg now h.lastMessageTime h.vehicleId h.planId
      (publishSpeedCommand cfg now h.vehicleId h.planId h.commands s)
  | .commanding c =>
    checkTimeout cfg now c.lastMessageTime c.vehicleId c.planId
      (publishSpeedCommand cfg now c.vehicleId c.planId c.commands s)

def NANO_SEC_PER_MS : ℤ := 1000000

def BSM_ID_TIMEOUT : ℤ := 3000

def PLATOON_TIMEOUT : ℤ := 4000

def removeOldBSMS (now : ℤ) (s : RSUMeterWorker K) : RSUMeterWorker K :=
  let cutoffTime := wrapLong (now - BSM_ID_TIMEOUT) * NANO_SEC_PER_MS
  { s with bsmMap := s.bsmMap.filter fun e => decide (¬ e.2.stamp < cutoffTime) }

def removeOldPlatoons (now : ℤ) (s : RSUMeterWorker K) : RSUMeterWorker K :=
  let cutoffTime := wrapLong (now - PLATOON_TIMEOUT)
  { s with platoonMap := s.platoonMap.filter fun p => decide (¬ p.stamp < cutoffTime) }

def loop (cfg : Settings K P F) (now : ℤ) (s : RSUMeterWorker K) : RSUMeterWorker K :=
  removeOldPlatoons now (removeOldBSMS now (loopState cfg now s))

/-- What can happen to the worker, with the time in milliseconds. -/
inductive Call (K : Type)
  | bsm (msg : BSM K)
  | operation (now : ℤ) (msg : MobilityOperation K)
  | request (now : ℤ) (msg : MobilityRequest K)
  | response (msg : MobilityResponse)
  | loop (now : ℤ)

def step [FloorRing K] (cfg : Settings K P F) (s : RSUMeterWorker K) : Call K → RSUMeterWorker K
  | .bsm msg => handleBSMMsg s msg
  | .operation now msg => handleMobilityOperationMsg cfg now s msg
  | .request now msg => handleMobilityRequestMsg cfg now s msg
  | .response msg => handleMobilityResponseMsg cfg s msg
  | .loop now => loop cfg now s

end carma.rsu_metering
