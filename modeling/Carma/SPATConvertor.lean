-- `spat_convertor.cpp`: a SPAT message of j2735_msgs as one of cav_msgs, list for list, with
-- times in seconds and speeds in metres per second. The line of the likely time writes the
-- quotient into the flag next to it.
import Mathlib.Algebra.Order.Field.Rat
import Mathlib.Algebra.Order.Floor.Semifield
import Mathlib.Data.List.Forall2
import Mathlib.Data.Rat.Floor

namespace carma.spat_convertor

/-- A `bool` of ROS is a byte in C++. -/
abbrev Flag := UInt8

/-! ## Messages

A message with one field, a list or a number, stands as that list or number. -/

namespace j2735_msgs

structure IntersectionReferenceID where
  region : UInt16
  region_exists : Flag
  id : UInt16

structure ConnectionManeuverAssist where
  connection_id : UInt8
  queue_length : UInt16
  queue_length_exists : Flag
  available_storage_length : UInt16
  available_storage_length_exists : Flag
  wait_on_stop : Flag
  wait_on_stop_exists : Flag
  ped_bicycle_detect : Flag
  ped_bicycle_detect_exists : Flag

/-- When a phase starts and ends, in tenths of a second of the hour. -/
structure TimeChangeDetails where
  start_time : UInt16
  start_time_exists : Flag
  min_end_time : UInt16
  max_end_time : UInt16
  max_end_time_exists : Flag
  likely_time : UInt16
  likely_time_exists : Flag
  confidence : UInt8
  confidence_exists : Flag
  next_time : UInt16
  next_time_exists : Flag

/-- The speed is in tenths of a metre per second, and `type` says what it is for. -/
structure AdvisorySpeed (K : Type) where
  type : UInt8
  speed : K
  speed_exists : Flag
  confidence : UInt8
  distance : UInt16
  distance_exists : Flag
  restriction_class_id : UInt8
  restriction_class_id_exists : Flag

structure MovementEvent (K : Type) where
  event_state : UInt8
  timing : TimeChangeDetails
  timing_exists : Flag
  advisory_speed_list : List (AdvisorySpeed K)
  speeds_exists : Flag

/-- What a signal group shows now and next. -/
structure MovementState (K : Type) where
  movement_name : String
  movement_name_exists : Flag
  signal_group : UInt8
  movement_event_list : List (MovementEvent K)
  connection_maneuver_assist_list : List ConnectionManeuverAssist
  maneuver_assist_list_exists : Flag

/-- The time stamp is in milliseconds of the minute of the year `moy`. -/
structure IntersectionState (K : Type) where
  name : String
  name_exists : Flag
  id : IntersectionReferenceID
  revision : UInt8
  status : UInt16
  moy : UInt32
  moy_exists : Flag
  time_stamp : UInt32
  time_stamp_exists : Flag
  lane_id_list : List UInt16
  enabled_lanes_exists : Flag
  movement_list : List (MovementState K)
  connection_maneuver_assist_list : List ConnectionManeuverAssist
  maneuever_assist_list_exists : Flag

structure SPAT (K : Type) where
  time_stamp : UInt32
  time_stamp_exists : Flag
  name : String
  name_exists : Flag
  intersection_state_list : List (IntersectionState K)

end j2735_msgs

variable {K : Type} [Field K]

namespace cav_msgs

/-- The same in seconds. A message that was just made has zeros, and nothing in its lists. -/
structure TimeChangeDetails (K : Type) [Field K] where
  start_time : K := 0
  start_time_exists : Flag := 0
  min_end_time : K := 0
  max_end_time : K := 0
  max_end_time_exists : Flag := 0
  likely_time : K := 0
  likely_time_exists : Flag := 0
  confidence : UInt8 := 0
  confidence_exists : Flag := 0
  next_time : K := 0
  next_time_exists : Flag := 0

structure AdvisorySpeed (K : Type) [Field K] where
  type : UInt8 := 0
  speed : K := 0
  speed_exists : Flag := 0
  confidence : UInt8 := 0
  distance : UInt16 := 0
  distance_exists : Flag := 0
  restriction_class_id : UInt8 := 0
  restriction_class_id_exists : Flag := 0

structure MovementEvent (K : Type) [Field K] where
  event_state : UInt8 := 0
  timing : TimeChangeDetails K := {}
  timing_exists : Flag := 0
  advisory_speed_list : List (AdvisorySpeed K) := []
  speeds_exists : Flag := 0

structure MovementState (K : Type) [Field K] where
  movement_name : String := ""
  movement_name_exists : Flag := 0
  signal_group : UInt8 := 0
  movement_event_list : List (MovementEvent K) := []
  connection_maneuver_assist_list : List j2735_msgs.ConnectionManeuverAssist := []
  maneuver_assist_list_exists : Flag := 0

structure IntersectionState (K : Type) [Field K] where
  name : String := ""
  name_exists : Flag := 0
  id : j2735_msgs.IntersectionReferenceID := ⟨0, 0, 0⟩
  revision : UInt8 := 0
  status : UInt16 := 0
  moy : UInt32 := 0
  moy_exists : Flag := 0
  time_stamp : K := 0
  time_stamp_exists : Flag := 0
  lane_id_list : List UInt16 := []
  enabled_lanes_exists : Flag := 0
  movement_list : List (MovementState K) := []
  connection_maneuver_assist_list : List j2735_msgs.ConnectionManeuverAssist := []
  maneuever_assist_list_exists : Flag := 0

structure SPAT (K : Type) [Field K] where
  time_stamp : UInt32 := 0
  time_stamp_exists : Flag := 0
  name : String := ""
  name_exists : Flag := 0
  intersection_state_list : List (IntersectionState K) := []

end cav_msgs

/-! ## The program -/

namespace units

/-- How much of a unit of J2735 there is in one of ROS. -/
def DECA_MPS_PER_MPS : K := (10 : ℕ)

def DECA_S_PER_S : K := (10 : ℕ)

def MS_PER_S : K := (1000 : ℕ)

end units

/-- A loop that appends what `f` makes of each element. -/
def pushBack {α β : Type} (f : α → β) (out : List β) (l : List α) : List β :=
  l.foldl (fun out x => out ++ [f x]) out

/-- A `double` in a field of one byte: what is behind the point is cut off. -/
def uint8 [LinearOrder K] [FloorSemiring K] (x : K) : UInt8 := .ofNat ⌊x⌋₊

/-- A speed is converted whether its flag says that there is one or not. -/
def convertAdvisorySpeed (in_msg : j2735_msgs.AdvisorySpeed K) (out_msg : cav_msgs.AdvisorySpeed K) :
    cav_msgs.AdvisorySpeed K :=
  { out_msg with
    type := in_msg.type
    speed_exists := in_msg.speed_exists
    speed := in_msg.speed / units.DECA_MPS_PER_MPS
    confidence := in_msg.confidence
    distance := in_msg.distance
    distance_exists := in_msg.distance_exists
    restriction_class_id := in_msg.restriction_class_id
    restriction_class_id_exists := in_msg.restriction_class_id_exists }

variable [LinearOrder K] [FloorSemiring K]

/-- The flag of the likely time is written twice, and the likely time itself is not. -/
def convertTimeChangeDetails (in_msg : j2735_msgs.TimeChangeDetails)
    (out_msg : cav_msgs.TimeChangeDetails K) : cav_msgs.TimeChangeDetails K :=
  { out_msg with
    confidence := in_msg.confidence
    confidence_exists := in_msg.confidence_exists
    start_time_exists := in_msg.start_time_exists
    max_end_time_exists := in_msg.max_end_time_exists
    next_time_exists := in_msg.next_time_exists
    start_time := (in_msg.start_time.toNat : K) / units.DECA_S_PER_S
    min_end_time := (in_msg.min_end_time.toNat : K) / units.DECA_S_PER_S
    max_end_time := (in_msg.max_end_time.toNat : K) / units.DECA_S_PER_S
    likely_time_exists := uint8 ((in_msg.likely_time_exists.toNat : K) / units.DECA_S_PER_S)
    next_time := (in_msg.next_time.toNat : K) / units.DECA_S_PER_S }

/-- The speeds come behind those that the new message has already. -/
def convertMovementEvent (in_msg : j2735_msgs.MovementEvent K)
    (out_msg : cav_msgs.MovementEvent K) : cav_msgs.MovementEvent K :=
  { out_msg with
    event_state := in_msg.event_state
    timing_exists := in_msg.timing_exists
    timing := convertTimeChangeDetails in_msg.timing out_msg.timing
    speeds_exists := in_msg.speeds_exists
    advisory_speed_list := pushBack (fun speed => convertAdvisorySpeed speed {})
      out_msg.advisory_speed_list in_msg.advisory_speed_list }

def convertMovementState (in_msg : j2735_msgs.MovementState K)
    (out_msg : cav_msgs.MovementState K) : cav_msgs.MovementState K :=
  { out_msg with
    movement_name := in_msg.movement_name
    movement_name_exists := in_msg.movement_name_exists
    signal_group := in_msg.signal_group
    movement_event_list := pushBack (fun event => convertMovementEvent event {})
      out_msg.movement_event_list in_msg.movement_event_list
    connection_maneuver_assist_list := in_msg.connection_maneuver_assist_list
    maneuver_assist_list_exists := in_msg.maneuver_assist_list_exists }

def convertIntersectionState (in_msg : j2735_msgs.IntersectionState K)
    (out_msg : cav_msgs.IntersectionState K) : cav_msgs.IntersectionState K :=
  { out_msg with
    name := in_msg.name
    name_exists := in_msg.name_exists
    id := in_msg.id
    revision := in_msg.revision
    status := in_msg.status
    moy := in_msg.moy
    moy_exists := in_msg.moy_exists
    time_stamp := (in_msg.time_stamp.toNat : K) / units.MS_PER_S
    time_stamp_exists := in_msg.time_stamp_exists
    lane_id_list := in_msg.lane_id_list
    enabled_lanes_exists := in_msg.enabled_lanes_exists
    movement_list := pushBack (fun state => convertMovementState state {})
      out_msg.movement_list in_msg.movement_list
    connection_maneuver_assist_list := in_msg.connection_maneuver_assist_list
    maneuever_assist_list_exists := in_msg.maneuever_assist_list_exists }

/-- Each intersection of the message is converted, and comes behind those that are there. -/
def convert (in_msg : j2735_msgs.SPAT K) (out_msg : cav_msgs.SPAT K) : cav_msgs.SPAT K :=
  { out_msg with
    time_stamp := in_msg.time_stamp
    time_stamp_exists := in_msg.time_stamp_exists
    name := in_msg.name
    name_exists := in_msg.name_exists
    intersection_state_list := pushBack (fun state => convertIntersectionState state {})
      out_msg.intersection_state_list in_msg.intersection_state_list }

end carma.spat_convertor
