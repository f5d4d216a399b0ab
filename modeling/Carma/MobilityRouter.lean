-- The mobility router: which handlers a request of another vehicle goes to, and
-- what the handlers and the router itself do about it. Each handler is called on a
-- thread of its own.
import Carma.ConflictManager
import Carma.Lib.Interleavings
import Carma.PathMessages

open lib.interleavings
open carma.conflict_manager
open carma.path_messages (PathConverter TrajectoryMsg messageToPath)

namespace carma.mobility_router

/-! ## Messages -/

/-- The parts of `cav_msgs.MobilityHeader` that the router reads and writes. -/
structure MobilityHeader where
  senderId : String
  recipientId : String
  senderBsmId : String
  planId : String
  timestamp : ℤ
deriving DecidableEq

/-- `cav_msgs.MobilityRequest`. -/
structure MobilityRequest where
  header : MobilityHeader
  strategy : String
  trajectory : TrajectoryMsg

/-- `cav_msgs.MobilityResponse`. -/
structure MobilityResponse where
  header : MobilityHeader
  isAccepted : Bool
deriving DecidableEq

inductive MobilityRequestResponse
  | ACK
  | NACK
  | NO_RESPONSE
deriving DecidableEq

inductive GuidanceState
  | STARTUP
  | DRIVERS_READY
  | ACTIVE
  | INACTIVE
  | ENGAGED
  | SHUTDOWN
deriving DecidableEq

def isBroadcast (header : MobilityHeader) : Bool := decide (header.recipientId = "")

/-- `endsWith` of two strings. -/
def endsWith (s suffix : String) : Bool := suffix.toList.isSuffixOf s.toList

/-! ## The handlers -/

/-- The handlers by strategy. A strategy has one entry, and a handler is in it once. -/
structure RequestMap (H : Type) where
  entries : List (String × List H)
  strategies_nodup : (entries.map (·.1)).Nodup
  handlers_nodup : ∀ e ∈ entries, e.2.Nodup

section handlers

variable {H : Type} [DecidableEq H]

/-- A handler at the end of a list, if it is not in it. -/
def addHandler (handler : H) (handlers : List H) : List H :=
  if handler ∈ handlers then handlers else handlers ++ [handler]

theorem addHandler_nodup (handler : H) {handlers : List H} (h : handlers.Nodup) :
    (addHandler handler handlers).Nodup := by
  unfold addHandler
  split
  · exact h
  · rename_i hnew
    apply List.nodup_append.mpr
    refine ⟨h, List.nodup_singleton _, ?_⟩
    intro a ha b hb hab
    rw [hab, List.mem_singleton.mp hb] at ha
    exact hnew ha

/-- The entries after a registration. -/
def registerIn (strategyId : String) (handler : H) (entries : List (String × List H)) :
    List (String × List H) :=
  if strategyId ∈ entries.map (·.1) then
    entries.map fun e => if e.1 = strategyId then (e.1, addHandler handler e.2) else e
  else entries ++ [(strategyId, [handler])]

theorem registerIn_strategies_nodup (strategyId : String) (handler : H)
    {entries : List (String × List H)} (h : (entries.map (·.1)).Nodup) :
    ((registerIn strategyId handler entries).map (·.1)).Nodup := by
  unfold registerIn
  split
  · have hkeys : (entries.map fun e => if e.1 = strategyId then (e.1, addHandler handler e.2)
        else e).map (·.1) = entries.map (·.1) := by
      rw [List.map_map]
      apply List.map_congr_left
      intro e _
      simp only [Function.comp]
      split <;> rfl
    rw [hkeys]
    exact h
  · rename_i hnew
    rw [List.map_append, List.nodup_append]
    refine ⟨h, List.nodup_singleton _, ?_⟩
    intro a ha b hb hab
    rw [hab, List.mem_singleton.mp hb] at ha
    exact hnew ha

theorem registerIn_handlers_nodup (strategyId : String) (handler : H)
    {entries : List (String × List H)} (h : ∀ e ∈ entries, e.2.Nodup) :
    ∀ e ∈ registerIn strategyId handler entries, e.2.Nodup := by
  intro e he
  unfold registerIn at he
  split at he
  · obtain ⟨d, hd, rfl⟩ := List.mem_map.mp he
    split
    · exact addHandler_nodup handler (h d hd)
    · exact h d hd
  · rcases List.mem_append.mp he with he | he
    · exact h e he
    · rw [List.mem_singleton.mp he]
      exact List.nodup_singleton _

def registerMobilityRequestHandler (m : RequestMap H) (strategyId : String) (handler : H) :
    RequestMap H where
  entries := registerIn strategyId handler m.entries
  strategies_nodup := registerIn_strategies_nodup strategyId handler m.strategies_nodup
  handlers_nodup := registerIn_handlers_nodup strategyId handler m.handlers_nodup

/-- A map without handlers. -/
def newRequestMap : RequestMap H := ⟨[], List.nodup_nil, by simp⟩

end handlers

/-! ## The router -/

variable {K F H : Type} [LinearOrder K] [Field K]

/-- What stays as it is while the router deals with one request. -/
structure MobilityRouter (K F H : Type) where
  requestMap : RequestMap H
  defaultConflictHandler : Option H
  trajectoryConverter : PathConverter K F
  hostMobilityStaticId : String

/-- What a thread finds in the rest of the vehicle: the state of guidance, the
predicted path of the host, the end of its trajectory if it has one, its place on the
route, the conflict manager, the clock, and how the handlers answer. An answer is none
where the handler throws. -/
structure Surroundings (K H : Type) [LT K] [Zero K] where
  guidanceState : GuidanceState
  pathPrediction : List (PathPoint K)
  totalTrajectoryEnd : Option K
  currentSegmentIdx : ℤ
  currentSegDowntrack : K
  conflictManager : ConflictManager K String
  currentBSMId : String
  currentTimeMillis : ℤ
  handle : H → MobilityRequest → Bool → Option (ConflictSpace K String) →
    Option MobilityRequestResponse

/-- What a thread does that can be seen from outside. -/
inductive Effect (K : Type)
  | addRequestedPath (path : List (PathPoint K)) (planId vehicleId : String)
  | publish (response : MobilityResponse)
  | requestNewPlan (trajectoryEnd : K)

/-- A handler that is called, and what it is told about a conflict. -/
structure Callback (K H : Type) where
  handler : H
  hasConflict : Bool
  conflictSpace : Option (ConflictSpace K String)

def respMsg (hostMobilityStaticId : String) (msg : MobilityRequest) (s : Surroundings K H)
    (isAccepted : Bool) : MobilityResponse where
  header :=
    { senderId := hostMobilityStaticId
      recipientId := msg.header.senderId
      senderBsmId := s.currentBSMId
      planId := msg.header.planId
      timestamp := s.currentTimeMillis }
  isAccepted := isAccepted

variable [FloorRing K]

/-- The path of a request is read and given to the conflict manager. None where one of
the two throws or does not return. -/
def addPathOf (r : MobilityRouter K F H) (msg : MobilityRequest) (s : Surroundings K H) :
    Option (Effect K) := do
  let path ← messageToPath r.trajectoryConverter msg.trajectory s.currentSegmentIdx
    s.currentSegDowntrack
  let _ ← s.conflictManager.addRequestedPath path msg.header.planId msg.header.senderId
  return .addRequestedPath path msg.header.planId msg.header.senderId

def fireMobilityRequestCallback (r : MobilityRouter K F H) (msg : MobilityRequest)
    (callback : Callback K H) (s : Surroundings K H) : List (Effect K) :=
  match s.handle callback.handler msg callback.hasConflict callback.conflictSpace with
  | some .ACK =>
    match addPathOf r msg s with
    | some add => [add, .publish (respMsg r.hostMobilityStaticId msg s true)]
    | none => []
  | some .NO_RESPONSE => if isBroadcast msg.header then (addPathOf r msg s).toList else []
  | some .NACK => [.publish (respMsg r.hostMobilityStaticId msg s false)]
  | none => []

/-- The handlers of the strategies that end with the strategy of the request. -/
def matchingHandlers (r : MobilityRouter K F H) (msg : MobilityRequest) : List H :=
  (r.requestMap.entries.filter fun e => endsWith e.1 msg.strategy).flatMap (·.2)

/-- The handlers that are called: the matching ones, or the default one where there is
none of them and there is a conflict. -/
def callbacks (r : MobilityRouter K F H) (msg : MobilityRequest)
    (conflictSpace : Option (ConflictSpace K String)) : List (Callback K H) :=
  let called := match matchingHandlers r msg with
    | [] => if conflictSpace.isSome then r.defaultConflictHandler.toList else []
    | handlers => handlers
  called.map fun handler => ⟨handler, conflictSpace.isSome, conflictSpace⟩

/-- The end of `handleMobilityRequest`: a path beyond the end of the trajectory is
accepted, and the host replans. -/
def extendPlan (r : MobilityRouter K F H) (msg : MobilityRequest)
    (otherPath : List (PathPoint K)) (s : Surroundings K H) : List (Effect K) :=
  match s.totalTrajectoryEnd, otherPath.getLast? with
  | some currentTrajEnd, some last =>
    if last.downtrack > currentTrajEnd ∧ otherPath.length > 1 then
      match addPathOf r msg s with
      | some add =>
        [add, .publish (respMsg r.hostMobilityStaticId msg s true), .requestNewPlan last.downtrack]
      | none => []
    else []
  | _, _ => []

/-- The request is for this vehicle, and it is dealt with. -/
def concernsUs (r : MobilityRouter K F H) (msg : MobilityRequest) (s : Surroundings K H) : Bool :=
  decide (s.guidanceState = .ENGAGED) &&
    (decide (msg.header.recipientId = r.hostMobilityStaticId) || isBroadcast msg.header)

/-- The path of the request and the first conflict of the host with it. None where the
router returns before it calls a handler, or throws. -/
def analyse (r : MobilityRouter K F H) (msg : MobilityRequest) (s : Surroundings K H) :
    Option (List (PathPoint K) × Option (ConflictSpace K String)) :=
  if concernsUs r msg s then do
    let otherPath ← messageToPath r.trajectoryConverter msg.trajectory s.currentSegmentIdx
      s.currentSegDowntrack
    let conflictSpaces ← s.conflictManager.getPairConflicts s.pathPrediction otherPath
    return (otherPath, conflictSpaces.head?)
  else none

/-- What the threads find that deal with one request: the one that takes it, first and
when it comes to the end of the trajectory, and the ones of the handlers. -/
structure Reading (K H : Type) [LT K] [Zero K] where
  onArrival : Surroundings K H
  atTheEnd : Surroundings K H
  ofTask : ℕ → Surroundings K H

/-- The callbacks of a request, each with what its thread finds. -/
def tasks (callbacks : List (Callback K H)) (ofTask : ℕ → Surroundings K H) :
    List (Callback K H × Surroundings K H) :=
  callbacks.mapIdx fun i callback => (callback, ofTask i)

/-- `handleMobilityRequest`: what each thread does that has to do with the request. The
thread that takes the message is the first, the others are those of the handlers. -/
def handleMobilityRequest (r : MobilityRouter K F H) (msg : MobilityRequest)
    (found : Reading K H) : List (List (Effect K)) :=
  match analyse r msg found.onArrival with
  | none => []
  | some (otherPath, conflictSpace) =>
    extendPlan r msg otherPath found.atTheEnd ::
      (tasks (callbacks r msg conflictSpace) found.ofTask).map fun t =>
        fireMobilityRequestCallback r msg t.1 t.2

end carma.mobility_router
