-- `MapMessage.java` and `decodeMap` of `wrapper.c`: a MAP message goes from the structure of
-- the decoder into arrays of ints with fixed strides, and from these into the message. The
-- fields of a message are unsigned: a Java byte or short stands for the same bits.
import Carma.Lib.Records
import Mathlib.Logic.Function.Basic

open lib.records

namespace carma.map_message

abbrev Jint := BitVec 32

/-- An array of ints. Only the places within its length are used. -/
abbrev IntArray := ℕ → Jint

/-! ## Ints -/

theorem setWidth_ne_minusOne {v : ℕ} (hv : v < 32) (b : BitVec v) : b.setWidth 32 ≠ (-1 : Jint) := by
  intro h
  have hbit := congrArg (fun x => x.getLsbD 31) h
  have hlow : b.getLsbD 31 = false := BitVec.getLsbD_of_ge b 31 (by omega)
  simp [hlow] at hbit

theorem setWidth_setWidth_int {v w : ℕ} (hw : w ≤ 32) (b : BitVec v) :
    (b.setWidth 32).setWidth w = b.setWidth w := by
  apply BitVec.eq_of_getLsbD_eq
  intro i hi
  simp [hi]
  omega

/-- `SetIntArrayRegion`, from the first place on. -/
def setIntArrayRegion (array : IntArray) (len : ℕ) (content : IntArray) : IntArray :=
  fun k => if k < len then content k else array k

theorem setIntArrayRegion_lt {array content : IntArray} {len k : ℕ} (h : k < len) :
    setIntArrayRegion array len content k = content k := if_pos h

/-! ## The structure of the decoder -/

/-- A node. Both sides name its alternatives and their coordinates alike. -/
inductive NodeOffsetPointXY
  | node_XY1 (x y : Jint)
  | node_XY2 (x y : Jint)
  | node_XY3 (x y : Jint)
  | node_XY4 (x y : Jint)
  | node_XY5 (x y : Jint)
  | node_XY6 (x y : Jint)
  | node_LatLon (latitude longitude : Jint)
deriving DecidableEq

inductive LaneTypeAttributes
  | vehicle
  | crosswalk
  | bikeLane
  | sidewalk
  | median
  | striping
  | trackedVehicle
  | parking

/-- The number of the alternative in the decoder's structure. -/
def LaneTypeAttributes.present : LaneTypeAttributes → Jint
  | vehicle => 1
  | crosswalk => 2
  | bikeLane => 3
  | sidewalk => 4
  | median => 5
  | striping => 6
  | trackedVehicle => 7
  | parking => 8

/-- The number of the alternative in the message. -/
def LaneTypeAttributes.choice : LaneTypeAttributes → BitVec 8
  | vehicle => 0
  | crosswalk => 1
  | bikeLane => 2
  | sidewalk => 3
  | median => 4
  | striping => 5
  | trackedVehicle => 6
  | parking => 7

structure Connection_t where
  connectingLane : BitVec 8
  maneuver : Option (BitVec 12)
  signalGroup : Option (BitVec 8)

structure GenericLane_t where
  laneID : BitVec 8
  ingressApproach : Option (BitVec 4)
  egressApproach : Option (BitVec 4)
  -- the byte that holds the two bits of the direction
  directionalUse : BitVec 8
  laneType : LaneTypeAttributes
  nodes : List NodeOffsetPointXY
  connectsTo : Option (List Connection_t)
  nodes_size : nodes.length ≤ 63
  connectsTo_size : ∀ cs ∈ connectsTo, 1 ≤ cs.length ∧ cs.length ≤ 16

structure IntersectionGeometry_t where
  id : BitVec 16
  revision : BitVec 7
  lat : Jint
  Long : Jint
  elevation : Option Jint
  laneWidth : Option (BitVec 15)
  laneSet : List GenericLane_t
  laneSet_size : laneSet.length ≤ 255

structure MapData_t where
  msgIssueRevision : BitVec 7
  intersections : Option (List IntersectionGeometry_t)

/-! ## The arrays -/

/-- What stands for a value that may be absent. -/
def orMinusOne {w : ℕ} (value : Option (BitVec w)) : Jint :=
  match value with
  | some v => v.setWidth 32
  | none => -1

/-- The arrays of lanes, with a row of nodes and one of connections for each. -/
structure LaneArrays where
  laneID : IntArray
  ingressApproach : IntArray
  egressApproach : IntArray
  laneDirection : IntArray
  laneType : IntArray
  nodeXY : ℕ → IntArray
  connectsTo : ℕ → IntArray

/-- Three ints of a row: the type of a node and its coordinates. -/
def putThree (row : IntArray) (j : ℕ) (type x y : Jint) : IntArray :=
  Function.update (Function.update (Function.update row (j * 3) type) (j * 3 + 1) x) (j * 3 + 2) y

def writeNode (row : IntArray) (j : ℕ) : NodeOffsetPointXY → IntArray
  | .node_XY1 x y => putThree row j 1 x y
  | .node_XY2 x y => putThree row j 2 x y
  | .node_XY3 x y => putThree row j 3 x y
  | .node_XY4 x y => putThree row j 4 x y
  | .node_XY5 x y => putThree row j 5 x y
  | .node_XY6 x y => putThree row j 6 x y
  | .node_LatLon latitude longitude =>
    -- both coordinates go to the same place
    Function.update (Function.update (Function.update row (j * 3) 7) (j * 3 + 1) latitude)
      (j * 3 + 1) longitude

def writeConnection (row : IntArray) (j : ℕ) (c : Connection_t) : IntArray :=
  Function.update (Function.update row (j * 2) (c.connectingLane.setWidth 32)) (j * 2 + 1)
    (orMinusOne c.signalGroup)

def writeConnections (row : IntArray) : Option (List Connection_t) → IntArray
  | some cs => writeFrom writeConnection 0 cs row
  | none => Function.update row 0 (-1)

def writeLane (a : LaneArrays) (i : ℕ) (l : GenericLane_t) : LaneArrays where
  laneID := Function.update a.laneID i (l.laneID.setWidth 32)
  ingressApproach := Function.update a.ingressApproach i (orMinusOne l.ingressApproach)
  egressApproach := Function.update a.egressApproach i (orMinusOne l.egressApproach)
  laneDirection := Function.update a.laneDirection i (l.directionalUse.setWidth 32)
  laneType := Function.update a.laneType i l.laneType.present
  nodeXY := Function.update a.nodeXY i (writeFrom writeNode 0 l.nodes (a.nodeXY i))
  connectsTo := Function.update a.connectsTo i (writeConnections (a.connectsTo i) l.connectsTo)

/-- The arrays as they are set up: no lanes, no nodes and no connections. -/
def blankLanes : LaneArrays where
  laneID := fun _ => -1
  ingressApproach := fun _ => 0
  egressApproach := fun _ => 0
  laneDirection := fun _ => 0
  laneType := fun _ => 0
  nodeXY := fun _ _ => 0
  connectsTo := fun _ _ => -1

/-- The arrays as Java makes them. -/
def newArrays : LaneArrays where
  laneID := fun _ => 0
  ingressApproach := fun _ => 0
  egressApproach := fun _ => 0
  laneDirection := fun _ => 0
  laneType := fun _ => 0
  nodeXY := fun _ _ => 0
  connectsTo := fun _ _ => 0

/-- The ints for the first intersection. -/
def intersectionData (g : IntersectionGeometry_t) : IntArray
  | 0 => g.id.setWidth 32
  | 1 => g.revision.setWidth 32
  | 2 => g.lat
  | 3 => g.Long
  | 4 => g.elevation.getD 0
  | 5 => if g.elevation.isSome then 1 else 0
  | 6 => (g.laneWidth.map fun w => w.setWidth 32).getD 0
  | 7 => if g.laneWidth.isSome then 1 else 0
  | 8 => 1
  | _ => 0

/-- All arrays of Java after `decodeMap`. Rows are set for the lanes that there are. -/
def decodeMap (m : MapData_t) (java : LaneArrays) : IntArray × LaneArrays :=
  match m.intersections with
  | some (g :: _) =>
    let data := writeFrom writeLane 0 g.laneSet blankLanes
    let numOfLanes := g.laneSet.length
    (setIntArrayRegion (fun _ => 0) 9 (intersectionData g),
      { laneID := setIntArrayRegion java.laneID 255 data.laneID
        ingressApproach := setIntArrayRegion java.ingressApproach 255 data.ingressApproach
        egressApproach := setIntArrayRegion java.egressApproach 255 data.egressApproach
        laneDirection := setIntArrayRegion java.laneDirection 255 data.laneDirection
        laneType := setIntArrayRegion java.laneType 255 data.laneType
        nodeXY := fun i =>
          if i < numOfLanes then setIntArrayRegion (java.nodeXY i) 189 (data.nodeXY i)
          else java.nodeXY i
        connectsTo := fun i =>
          if i < numOfLanes then setIntArrayRegion (java.connectsTo i) 32 (data.connectsTo i)
          else java.connectsTo i })
  | _ => (fun _ => 0, java)

/-! ## The message -/

structure Connection where
  lane : BitVec 16
  maneuver : Option (BitVec 16)
  signal_group : Option (BitVec 8)
deriving DecidableEq

structure GenericLane where
  lane_id : BitVec 8
  ingress_approach : Option (BitVec 8)
  egress_approach : Option (BitVec 8)
  lane_direction : BitVec 8
  lane_type : BitVec 8
  node_set_xy : List NodeOffsetPointXY
  connects_to_exists : Bool
  connect_to_list : List Connection
deriving DecidableEq

structure IntersectionGeometry where
  id : BitVec 16
  revision : BitVec 8
  latitude : Jint
  longitude : Jint
  elevation : Option Jint
  lane_width : Option (BitVec 16)
  lane_list : List GenericLane
deriving DecidableEq

/-- A message. None where the arrays hold no intersection. -/
structure MapData where
  msg_issue_revision : BitVec 8
  intersections : Option IntersectionGeometry
deriving DecidableEq

/-- The node of a place. A new node is an XY1 at the origin. -/
def readNode (row : IntArray) (j : ℕ) : Option NodeOffsetPointXY :=
  let nodeType := row (j * 3)
  let x := row (j * 3 + 1)
  let y := row (j * 3 + 2)
  if nodeType = 0 then none
  else if nodeType = 1 then some (.node_XY1 x y)
  else if nodeType = 2 then some (.node_XY2 x y)
  else if nodeType = 3 then some (.node_XY3 x y)
  else if nodeType = 4 then some (.node_XY4 x y)
  else if nodeType = 5 then some (.node_XY5 x y)
  else if nodeType = 6 then some (.node_XY6 x y)
  else if nodeType = 7 then some (.node_LatLon x y)
  else some (.node_XY1 0 0)

/-- The cast of a value that may be absent. -/
def unlessMinusOne (w : ℕ) (value : Jint) : Option (BitVec w) :=
  if value ≠ -1 then some (value.setWidth w) else none

/-- The connection of a place. Its maneuver is not populated. -/
def readConnection (row : IntArray) (j : ℕ) : Option Connection :=
  if row (j * 2) = -1 then none
  else some ⟨(row (j * 2)).setWidth 16, none, unlessMinusOne 8 (row (j * 2 + 1))⟩

def readLane (a : LaneArrays) (i : ℕ) : Option GenericLane :=
  if a.laneID i = -1 then none
  else
    let connections := readFrom readConnection (a.connectsTo i) 16 0
    some
      { lane_id := (a.laneID i).setWidth 8
        ingress_approach := unlessMinusOne 8 (a.ingressApproach i)
        egress_approach := unlessMinusOne 8 (a.egressApproach i)
        lane_direction := ((a.laneDirection i).sshiftRight 6).setWidth 8
        lane_type := (a.laneType i - 1).setWidth 8
        node_set_xy := readFrom readNode (a.nodeXY i) 63 0
        connects_to_exists := !connections.isEmpty
        connect_to_list := connections }

def readIntersection (data : IntArray) (a : LaneArrays) : IntersectionGeometry where
  id := (data 0).setWidth 16
  revision := (data 1).setWidth 8
  latitude := data 2
  longitude := data 3
  elevation := if data 5 = 1 then some (data 4) else none
  lane_width := if data 7 = 1 then some ((data 6).setWidth 16) else none
  lane_list := readFrom readLane a 255 0

/-- `decode`, of what the decoder has made of the bytes. -/
def decode (m : MapData_t) : MapData :=
  let (data, a) := decodeMap m newArrays
  { msg_issue_revision := m.msgIssueRevision.setWidth 8
    intersections := if data 8 = 1 then some (readIntersection data a) else none }

end carma.map_message
