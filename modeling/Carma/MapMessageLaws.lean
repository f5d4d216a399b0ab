-- What of a MAP message is received: all lanes and connections in their order, and all
-- nodes, but no maneuver of a connection, and of a node at a latitude and a longitude only
-- that it is one.
import Carma.MapMessage
import Mathlib.Data.List.Forall2

open lib.records

namespace carma.map_message

/-! ## Values that may be absent -/

theorem unlessMinusOne_orMinusOne {v w : ℕ} (hv : v < 32) (hw : w ≤ 32) (value : Option (BitVec v)) :
    unlessMinusOne w (orMinusOne value) = value.map fun b => b.setWidth w := by
  cases value with
  | none => rfl
  | some b =>
    show (if b.setWidth 32 ≠ (-1 : Jint) then some ((b.setWidth 32).setWidth w) else none) = _
    rw [if_pos (setWidth_ne_minusOne hv b), setWidth_setWidth_int hw]
    rfl

/-! ## Nodes -/

/-- What comes out for a node. -/
def receivedNode : NodeOffsetPointXY → NodeOffsetPointXY
  | .node_LatLon _ longitude => .node_LatLon longitude 0
  | n => n

theorem writeNode_other (row : IntArray) {i j : ℕ} (n : NodeOffsetPointXY) (hij : i ≠ j) :
    writeNode row j n (i * 3) = row (i * 3) ∧ writeNode row j n (i * 3 + 1) = row (i * 3 + 1) ∧
      writeNode row j n (i * 3 + 2) = row (i * 3 + 2) := by
  cases n <;> simp (disch := omega) [writeNode, putThree, Function.update_of_ne]

theorem keepsNodes : Keeps
    (fun row j => row (j * 3) = 0 ∧ row (j * 3 + 1) = 0 ∧ row (j * 3 + 2) = (0 : Jint))
    writeNode readNode receivedNode where
  read_blank h := by simp [readNode, h.1]
  read_own n h := by
    cases n <;> simp [writeNode, putThree, readNode, receivedNode, h.2.2]
  read_other n hij := by
    obtain ⟨htype, hx, hy⟩ := writeNode_other _ n hij
    unfold readNode
    rw [htype, hx, hy]
  blank_other n hij h := by
    obtain ⟨htype, hx, hy⟩ := writeNode_other _ n hij
    rwa [htype, hx, hy]

/-! ## Connections -/

/-- What comes out for a connection. -/
def receivedConnection (c : Connection_t) : Connection :=
  ⟨c.connectingLane.setWidth 16, none, c.signalGroup⟩

theorem keepsConnections : Keeps (fun row j => row (j * 2) = (-1 : Jint)) writeConnection
    readConnection receivedConnection where
  read_blank h := by simp [readConnection, h]
  read_own c h := by
    have hlane := setWidth_ne_minusOne (by decide) c.connectingLane
    have hgroup := unlessMinusOne_orMinusOne (w := 8) (by decide) (by decide) c.signalGroup
    unfold readConnection writeConnection receivedConnection
    rw [Function.update_self, Function.update_of_ne (by omega), Function.update_self, if_neg hlane,
      setWidth_setWidth_int (by decide), hgroup]
    simp
  read_other c hij := by
    unfold readConnection writeConnection
    simp (disch := omega) [Function.update_of_ne]
  blank_other c hij h := by
    unfold writeConnection
    simp (disch := omega) [Function.update_of_ne, h]

/-! ## Lanes -/

/-- What comes out for a lane. -/
def receivedLane (l : GenericLane_t) : GenericLane where
  lane_id := l.laneID
  ingress_approach := l.ingressApproach.map fun a => a.setWidth 8
  egress_approach := l.egressApproach.map fun a => a.setWidth 8
  lane_direction := l.directionalUse >>> 6
  lane_type := l.laneType.choice
  node_set_xy := l.nodes.map receivedNode
  connects_to_exists := l.connectsTo.isSome
  connect_to_list := (l.connectsTo.getD []).map receivedConnection

theorem direction_bits (b : BitVec 8) : ((b.setWidth 32).sshiftRight 6).setWidth 8 = b >>> 6 := by
  rw [BitVec.sshiftRight_eq_of_msb_false (by simp [BitVec.msb_setWidth])]
  apply BitVec.eq_of_getLsbD_eq
  intro i hi
  simp [hi]
  omega

theorem laneType_choice (t : LaneTypeAttributes) : (t.present - 1).setWidth 8 = t.choice := by
  cases t <;> rfl

theorem readConnections {l : GenericLane_t} {row : IntArray} (hrow : row = fun _ => -1) :
    readFrom readConnection (writeConnections row l.connectsTo) 16 0 =
      (l.connectsTo.getD []).map receivedConnection := by
  subst hrow
  cases h : l.connectsTo with
  | none => rfl
  | some cs =>
    have hsize := (l.connectsTo_size cs h).2
    exact keepsConnections.readFrom_writeFrom hsize fun _ _ => rfl

theorem keepsLanes : Keeps
    (fun a i => a.laneID i = -1 ∧ (a.nodeXY i = fun _ => 0) ∧ (a.connectsTo i = fun _ => -1))
    writeLane readLane receivedLane where
  read_blank h := by simp [readLane, h.1]
  read_own l h := by
    obtain ⟨-, hnodes, hconnections⟩ := h
    have hid := setWidth_ne_minusOne (by decide) l.laneID
    have hnodeSet : readFrom readNode (writeFrom writeNode 0 l.nodes fun _ => 0) 63 0 =
        l.nodes.map receivedNode :=
      keepsNodes.readFrom_writeFrom l.nodes_size fun _ _ => ⟨rfl, rfl, rfl⟩
    have hlist := readConnections (l := l) hconnections
    have hexists : (!((l.connectsTo.getD []).map receivedConnection).isEmpty) =
        l.connectsTo.isSome := by
      cases hcs : l.connectsTo with
      | none => rfl
      | some cs =>
        have hpos := (l.connectsTo_size cs hcs).1
        cases cs with
        | nil => simp at hpos
        | cons c cs => rfl
    unfold readLane writeLane receivedLane
    simp only [Function.update_self]
    rw [if_neg hid, hnodes, hnodeSet, hlist, hexists, setWidth_setWidth_int (by decide),
      unlessMinusOne_orMinusOne (by decide) (by decide),
      unlessMinusOne_orMinusOne (by decide) (by decide), direction_bits, laneType_choice]
    simp
  read_other l hij := by
    unfold readLane writeLane
    simp only [Function.update_of_ne hij]
  blank_other l hij h := by
    unfold writeLane
    simpa only [Function.update_of_ne hij] using h

/-! ## Messages -/

def receivedIntersection (g : IntersectionGeometry_t) : IntersectionGeometry where
  id := g.id
  revision := g.revision.setWidth 8
  latitude := g.lat
  longitude := g.Long
  elevation := g.elevation
  lane_width := g.laneWidth.map fun w => w.setWidth 16
  lane_list := g.laneSet.map receivedLane

/-- Only the used places of its rows say what a lane is. -/
theorem readLane_congr {a b : LaneArrays} {i : ℕ} (hid : a.laneID i = b.laneID i)
    (hingress : a.ingressApproach i = b.ingressApproach i)
    (hegress : a.egressApproach i = b.egressApproach i)
    (hdirection : a.laneDirection i = b.laneDirection i) (htype : a.laneType i = b.laneType i)
    (hnodes : ∀ k < 189, a.nodeXY i k = b.nodeXY i k)
    (hconnections : ∀ k < 32, a.connectsTo i k = b.connectsTo i k) :
    readLane a i = readLane b i := by
  have hnodeSet : readFrom readNode (a.nodeXY i) 63 0 = readFrom readNode (b.nodeXY i) 63 0 := by
    apply readFrom_congr
    intro j hj
    unfold readNode
    rw [hnodes _ (by omega), hnodes _ (by omega), hnodes _ (by omega)]
  have hlist : readFrom readConnection (a.connectsTo i) 16 0 =
      readFrom readConnection (b.connectsTo i) 16 0 := by
    apply readFrom_congr
    intro j hj
    unfold readConnection
    rw [hconnections _ (by omega), hconnections _ (by omega)]
  unfold readLane
  rw [hid, hingress, hegress, hdirection, htype, hnodeSet, hlist]

theorem readLane_java {g : IntersectionGeometry_t} {rest : List IntersectionGeometry_t}
    {m : MapData_t} (h : m.intersections = some (g :: rest)) {i : ℕ} (hi : i < 255) :
    readLane (decodeMap m newArrays).2 i =
      readLane (writeFrom writeLane 0 g.laneSet blankLanes) i := by
  unfold decodeMap
  rw [h]
  by_cases hlane : i < g.laneSet.length
  · apply readLane_congr
    all_goals dsimp only
    · exact setIntArrayRegion_lt hi
    · exact setIntArrayRegion_lt hi
    · exact setIntArrayRegion_lt hi
    · exact setIntArrayRegion_lt hi
    · exact setIntArrayRegion_lt hi
    · intro k hk
      rw [if_pos hlane, setIntArrayRegion_lt hk]
    · intro k hk
      rw [if_pos hlane, setIntArrayRegion_lt hk]
  · have hblank := keepsLanes.blank_after (a := blankLanes) (j := 0)
      (fun _ _ => ⟨rfl, rfl, rfl⟩) (i := i) (show 0 + g.laneSet.length ≤ i by omega)
    have hnone : readLane (writeFrom writeLane 0 g.laneSet blankLanes) i = none :=
      keepsLanes.read_blank hblank
    rw [hnone]
    exact if_pos ((setIntArrayRegion_lt hi).trans hblank.1)

theorem decode_eq {g : IntersectionGeometry_t} {rest : List IntersectionGeometry_t} {m : MapData_t}
    (h : m.intersections = some (g :: rest)) :
    (decode m).intersections = some (receivedIntersection g) := by
  have hlanes : readFrom readLane (decodeMap m newArrays).2 255 0 = g.laneSet.map receivedLane := by
    rw [readFrom_congr fun i hi => readLane_java h (by omega)]
    exact keepsLanes.readFrom_writeFrom g.laneSet_size fun _ _ => ⟨rfl, rfl, rfl⟩
  have hdata : ∀ k < 9, (decodeMap m newArrays).1 k = intersectionData g k := by
    intro k hk
    unfold decodeMap
    rw [h]
    show setIntArrayRegion (fun _ => 0) 9 (intersectionData g) k = intersectionData g k
    exact setIntArrayRegion_lt hk
  have hexists : (decodeMap m newArrays).1 8 = 1 := hdata 8 (by decide)
  unfold decode
  dsimp only
  rw [if_pos hexists]
  unfold readIntersection receivedIntersection
  rw [hlanes, hdata 0 (by decide), hdata 1 (by decide), hdata 2 (by decide), hdata 3 (by decide),
    hdata 4 (by decide), hdata 5 (by decide), hdata 6 (by decide), hdata 7 (by decide)]
  unfold intersectionData
  cases g.elevation <;> cases g.laneWidth <;> simp

/-! ## What is kept -/

/-- A node keeps its type and its offsets. Of a latitude and a longitude nothing is said. -/
def NodeReceived : NodeOffsetPointXY → NodeOffsetPointXY → Prop
  | .node_LatLon _ _, r => ∃ latitude longitude, r = .node_LatLon latitude longitude
  | n, r => r = n

/-- A connection keeps its lane and its signal group, and has no maneuver. -/
def ConnectionReceived (c : Connection_t) (r : Connection) : Prop :=
  r.lane.toNat = c.connectingLane.toNat ∧ r.signal_group = c.signalGroup ∧ r.maneuver = none

structure LaneReceived (l : GenericLane_t) (r : GenericLane) : Prop where
  lane_id : r.lane_id = l.laneID
  ingress_approach : r.ingress_approach.map BitVec.toNat = l.ingressApproach.map BitVec.toNat
  egress_approach : r.egress_approach.map BitVec.toNat = l.egressApproach.map BitVec.toNat
  lane_type : r.lane_type = l.laneType.choice
  nodes : List.Forall₂ NodeReceived l.nodes r.node_set_xy
  connects_to_exists : r.connects_to_exists = l.connectsTo.isSome
  connections : List.Forall₂ ConnectionReceived (l.connectsTo.getD []) r.connect_to_list

theorem receivedNode_received (n : NodeOffsetPointXY) : NodeReceived n (receivedNode n) := by
  cases n with
  | node_LatLon latitude longitude => exact ⟨longitude, 0, rfl⟩
  | _ => rfl

theorem setWidth_toNat {v w : ℕ} (h : v ≤ w) (b : BitVec v) : (b.setWidth w).toNat = b.toNat := by
  rw [BitVec.toNat_setWidth]
  exact Nat.mod_eq_of_lt (Nat.lt_of_lt_of_le b.isLt (Nat.pow_le_pow_right (by decide) h))

theorem receivedLane_received (l : GenericLane_t) : LaneReceived l (receivedLane l) where
  lane_id := rfl
  ingress_approach := by
    show (l.ingressApproach.map fun a => a.setWidth 8).map BitVec.toNat = _
    cases l.ingressApproach with
    | none => rfl
    | some a => exact congrArg some (setWidth_toNat (by decide) a)
  egress_approach := by
    show (l.egressApproach.map fun a => a.setWidth 8).map BitVec.toNat = _
    cases l.egressApproach with
    | none => rfl
    | some a => exact congrArg some (setWidth_toNat (by decide) a)
  lane_type := rfl
  nodes := List.forall₂_map_right_iff.mpr (List.forall₂_same.mpr fun n _ => receivedNode_received n)
  connects_to_exists := rfl
  connections := List.forall₂_map_right_iff.mpr (List.forall₂_same.mpr fun c _ =>
    ⟨setWidth_toNat (by decide) c.connectingLane, rfl, rfl⟩)

/-- The message has the first intersection of the structure, with all its lanes in order. -/
theorem first_intersection_is_received (m : MapData_t) (g : IntersectionGeometry_t)
    (rest : List IntersectionGeometry_t) (h : m.intersections = some (g :: rest)) :
    ∃ r, (decode m).intersections = some r ∧ r.id = g.id ∧
      List.Forall₂ LaneReceived g.laneSet r.lane_list := by
  refine ⟨receivedIntersection g, decode_eq h, rfl, ?_⟩
  exact List.forall₂_map_right_iff.mpr (List.forall₂_same.mpr fun l _ => receivedLane_received l)

/-- A lane with all of its nodes and connections. -/
def LaneWhole (l : GenericLane_t) (r : GenericLane) : Prop :=
  r.node_set_xy = l.nodes ∧ r.connect_to_list = (l.connectsTo.getD []).map fun c =>
    ⟨c.connectingLane.setWidth 16, c.maneuver.map fun m => m.setWidth 16, c.signalGroup⟩

/-- Lane 200, with a node at 5 and 7 and one at a latitude of 10 and a longitude of 20, and a
connection to lane 255 with maneuver 1. -/
def lane200 : GenericLane_t where
  laneID := 200
  ingressApproach := some 1
  egressApproach := none
  directionalUse := 128
  laneType := .vehicle
  nodes := [.node_XY3 5 7, .node_LatLon 10 20]
  connectsTo := some [⟨255, some 1, some 200⟩]
  nodes_size := by decide
  connectsTo_size := by decide

def intersection40000 : IntersectionGeometry_t where
  id := 40000
  revision := 3
  lat := 389549844
  Long := -771493239
  elevation := none
  laneWidth := none
  laneSet := [lane200]
  laneSet_size := by decide

/-- A structure with the same intersection twice. -/
def twoIntersections : MapData_t := ⟨0, some [intersection40000, intersection40000]⟩

theorem lane_200_is_received :
    ∃ r, (decode twoIntersections).intersections = some r ∧ r.id = 40000 ∧
      ∃ l ∈ r.lane_list, l.lane_id = 200 := by
  obtain ⟨r, hr, hid, hlanes⟩ := first_intersection_is_received twoIntersections
    intersection40000 [intersection40000] rfl
  obtain ⟨l, rest, hl, -, hlist⟩ := List.forall₂_cons_left_iff.mp hlanes
  exact ⟨r, hr, hid, l, hlist ▸ List.mem_cons_self, hl.lane_id⟩

/-- The node at a latitude and a longitude comes out at (20, 0), the connection without its
maneuver, and the lane of the second intersection not at all. -/
theorem a_lane_does_not_come_out_whole :
    ∃ r, (decode twoIntersections).intersections = some r ∧
      r.lane_list.map (·.node_set_xy) = [[.node_XY3 5 7, .node_LatLon 20 0]] ∧
      r.lane_list.map (·.connect_to_list) = [[⟨255, none, some 200⟩]] ∧
      ¬ List.Forall₂ LaneWhole intersection40000.laneSet r.lane_list ∧
      r.lane_list.length < (intersection40000.laneSet ++ intersection40000.laneSet).length := by
  refine ⟨receivedIntersection intersection40000, decode_eq rfl, by decide, by decide, ?_, by decide⟩
  intro h
  have hnodes := (List.forall₂_cons.mp h).1.1
  exact absurd hnodes (by decide)

end carma.map_message
