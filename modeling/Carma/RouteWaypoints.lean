-- The waypoints of a route as the route node keeps them, and their messages. The
-- functions are those of `RouteWaypoint`, `LaneEdgeType` and `RoadType`. A byte of a
-- message is read as a signed number.
import Carma.Lib.Narrowing
import Carma.Route

open lib.narrowing lib.exact_double

namespace carma.route_node

/-! ## The kinds of edges and roads -/

inductive LaneEdgeType where
  | SOLID_YELLOW
  | SOLID_WHITE
  | BROKEN_YELLOW
  | BROKEN_WHITE
  | IMPASSIBLE
deriving DecidableEq

def LaneEdgeType.toMessage : LaneEdgeType → BitVec 8
  | .SOLID_YELLOW => 0
  | .SOLID_WHITE => 1
  | .BROKEN_YELLOW => 2
  | .BROKEN_WHITE => 3
  | .IMPASSIBLE => 4

def LaneEdgeType.fromMessge (type : BitVec 8) : LaneEdgeType :=
  if type = 1 then .SOLID_WHITE
  else if type = 0 then .SOLID_YELLOW
  else if type = 2 then .BROKEN_YELLOW
  else if type = 3 then .BROKEN_WHITE
  else .IMPASSIBLE

@[simp] theorem fromMessge_toMessage (edge : LaneEdgeType) :
    LaneEdgeType.fromMessge edge.toMessage = edge := by
  cases edge <;> rfl

inductive RoadType where
  | FREEWAY
  | RAMP
  | ARTERIAL
  | SECONDARY
  | PARKING_LOT
deriving DecidableEq

def RoadType.ordinal : RoadType → ℤ
  | .FREEWAY => 0
  | .RAMP => 1
  | .ARTERIAL => 2
  | .SECONDARY => 3
  | .PARKING_LOT => 4

def RoadType.fromMessage (type : BitVec 8) : RoadType :=
  if type = 0 then .FREEWAY
  else if type = 1 then .RAMP
  else if type = 2 then .ARTERIAL
  else if type = 3 then .SECONDARY
  else if type = 4 then .PARKING_LOT
  else .FREEWAY

@[simp] theorem fromMessage_ordinal (road : RoadType) :
    RoadType.fromMessage (BitVec.ofInt 8 road.ordinal) = road := by
  cases road <;> rfl

/-! ## Waypoints -/

/-- `Location`, in degrees and metres. -/
structure Location (K : Type) where
  latitude : K
  longitude : K
  altitude : K
deriving DecidableEq

/-- `cav_msgs.Maneuver`. -/
structure Maneuver where
  type : BitVec 8
  performers : List (BitVec 8)
  startRoadwayLink : String
  startRoadwayOriginatorPosition : BitVec 16
  startRoadwayLaneId : BitVec 8
  length : BitVec 16
  parameters : String
deriving DecidableEq

/-- `RouteWaypoint`, whole. The road type may be null. -/
@[ext] structure RouteWaypoint (K : Type) extends route.RouteWaypoint K where
  disabledGuidanceAlgorithms : List String
  laneClosures : List ℤ
  location : Location K
  lowerSpeedLimit : ℤ
  upperSpeedLimit : ℤ
  nearestMileMarker : K
  neededManeuvers : List Maneuver
  minCrossTrack : K
  maxCrossTrack : K
  requiredLaneIndex : ℤ
  laneIndex : ℤ
  roadType : Option RoadType
  interiorLaneMarkings : LaneEdgeType
  leftMostLaneMarking : LaneEdgeType
  rightMostLaneMarking : LaneEdgeType

variable {K : Type}

def newRouteWaypoint [Field K] (loc : Location K) : RouteWaypoint K where
  waypointId := 0
  laneCount := 1
  laneWidth := (37 : ℕ) / (10 : ℕ)
  disabledGuidanceAlgorithms := []
  laneClosures := []
  location := loc
  lowerSpeedLimit := 0
  upperSpeedLimit := 5
  nearestMileMarker := -1
  neededManeuvers := []
  minCrossTrack := -(10 : ℕ)
  maxCrossTrack := (10 : ℕ)
  requiredLaneIndex := -1
  laneIndex := 0
  roadType := some .FREEWAY
  interiorLaneMarkings := .SOLID_WHITE
  leftMostLaneMarking := .SOLID_YELLOW
  rightMostLaneMarking := .SOLID_WHITE

/-- `new RouteWaypoint(wp)`: a copy. It leaves out the id, and the parameters of the
maneuvers. -/
def RouteWaypoint.copy (wp : RouteWaypoint K) : RouteWaypoint K :=
  { wp with
    waypointId := 0
    neededManeuvers := wp.neededManeuvers.map fun maneuver => { maneuver with parameters := "" } }

/-! ## Messages -/

structure RouteWaypointMsg (K : Type) where
  waypointId : ℤ
  latitude : K
  longitude : K
  altitude : K
  laneCount : BitVec 8
  lowerSpeedLimit : BitVec 8
  speedLimit : BitVec 8
  interiorLaneMarkings : BitVec 8
  leftMostLaneMarking : BitVec 8
  rightMostLaneMarking : BitVec 8
  minCrossTrack : K
  maxCrossTrack : K
  laneIndex : BitVec 8
  laneWidth : K
  setFields : BitVec 16
  disabledGuidanceAlgorithms : List String
  laneClosures : List (BitVec 8)
  nearestMileMarker : K
  neededManeuvers : List Maneuver
  requiredLaneIndex : BitVec 8
  roadType : BitVec 8

def DISABLED_GUIDANCE_ALGORITHMS : BitVec 16 := 1
def LANE_CLOSURES : BitVec 16 := 2
def NEAREST_MILE_MARKER : BitVec 16 := 4
def NEEDED_MANEUVERS : BitVec 16 := 8
def REQUIRED_LANE_INDEX : BitVec 16 := 16
def ROAD_TYPE : BitVec 16 := 32

/-- One step of `getSetFields`: the flag goes into the mask where the field is set. -/
def withFlag (flag : BitVec 16) (isSet : Prop) [Decidable isSet] (bitMask : BitVec 16) : BitVec 16 :=
  if isSet then bitMask ||| flag else bitMask

section messages

variable [LinearOrder K] [Field K] [FloorRing K]

def RouteWaypoint.getSetFields (wp : RouteWaypoint K) : BitVec 16 :=
  let bitMask := 0
  let bitMask := withFlag DISABLED_GUIDANCE_ALGORITHMS (wp.disabledGuidanceAlgorithms ≠ []) bitMask
  let bitMask := withFlag LANE_CLOSURES (wp.laneClosures ≠ []) bitMask
  let bitMask := withFlag NEAREST_MILE_MARKER (wp.nearestMileMarker ≠ -1) bitMask
  let bitMask := withFlag NEEDED_MANEUVERS (wp.neededManeuvers ≠ []) bitMask
  let bitMask := withFlag REQUIRED_LANE_INDEX (wp.requiredLaneIndex ≠ -1) bitMask
  withFlag ROAD_TYPE (wp.roadType ≠ none) bitMask

/-- `RouteWaypoint.toMessage`, none where it throws. `toFloat` is the cast of a double
to a float. The lower speed limit is not written. -/
def RouteWaypoint.toMessage (toFloat : K → K) (wp : RouteWaypoint K) (waypointIndex : ℤ) :
    Option (RouteWaypointMsg K) :=
  match wp.roadType with
  | none => none
  | some roadType => some {
      waypointId := waypointIndex
      speedLimit := BitVec.ofInt 8 wp.upperSpeedLimit
      setFields := wp.getSetFields
      roadType := BitVec.ofInt 8 roadType.ordinal
      requiredLaneIndex := BitVec.ofInt 8 wp.requiredLaneIndex
      laneIndex := BitVec.ofInt 8 wp.laneIndex
      -- the double becomes a byte, and the byte the float of the message
      nearestMileMarker :=
        ((BitVec.ofInt 8 (route.toInt trunc (.fin wp.nearestMileMarker))).toInt : K)
      longitude := wp.location.longitude
      latitude := wp.location.latitude
      altitude := wp.location.altitude
      minCrossTrack := wp.minCrossTrack
      maxCrossTrack := wp.maxCrossTrack
      laneCount := BitVec.ofInt 8 wp.laneCount
      disabledGuidanceAlgorithms := wp.disabledGuidanceAlgorithms
      neededManeuvers := wp.neededManeuvers
      interiorLaneMarkings := wp.interiorLaneMarkings.toMessage
      leftMostLaneMarking := wp.leftMostLaneMarking.toMessage
      rightMostLaneMarking := wp.rightMostLaneMarking.toMessage
      laneWidth := toFloat wp.laneWidth
      laneClosures := wp.laneClosures.map (BitVec.ofInt 8)
      lowerSpeedLimit := 0 }

def RouteWaypoint.fromMessage (msg : RouteWaypointMsg K) : RouteWaypoint K :=
  let wp := newRouteWaypoint ⟨msg.latitude, msg.longitude, msg.altitude⟩
  let bitMask := msg.setFields
  { wp with
    waypointId := msg.waypointId
    laneCount := msg.laneCount.toInt
    lowerSpeedLimit := msg.lowerSpeedLimit.toInt
    upperSpeedLimit := msg.speedLimit.toInt
    leftMostLaneMarking := LaneEdgeType.fromMessge msg.leftMostLaneMarking
    interiorLaneMarkings := LaneEdgeType.fromMessge msg.interiorLaneMarkings
    rightMostLaneMarking := LaneEdgeType.fromMessge msg.rightMostLaneMarking
    minCrossTrack := msg.minCrossTrack
    maxCrossTrack := msg.maxCrossTrack
    laneIndex := msg.laneIndex.toInt
    laneWidth := msg.laneWidth
    disabledGuidanceAlgorithms :=
      if bitMask &&& DISABLED_GUIDANCE_ALGORITHMS ≠ 0 then msg.disabledGuidanceAlgorithms
      else wp.disabledGuidanceAlgorithms
    laneClosures :=
      if bitMask &&& LANE_CLOSURES ≠ 0 then msg.laneClosures.map BitVec.toInt
      else wp.laneClosures
    nearestMileMarker :=
      if bitMask &&& NEAREST_MILE_MARKER ≠ 0 then msg.nearestMileMarker
      else wp.nearestMileMarker
    neededManeuvers :=
      if bitMask &&& NEEDED_MANEUVERS ≠ 0 then msg.neededManeuvers
      else wp.neededManeuvers
    requiredLaneIndex :=
      if bitMask &&& REQUIRED_LANE_INDEX ≠ 0 then msg.requiredLaneIndex.toInt
      else wp.requiredLaneIndex
    roadType :=
      if bitMask &&& ROAD_TYPE ≠ 0 then some (RoadType.fromMessage msg.roadType)
      else wp.roadType }

end messages

end carma.route_node
