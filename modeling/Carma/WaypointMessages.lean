-- What a waypoint is after it went through its message: which fields come back as
-- they were, and for which waypoints all of them do.
import Carma.RouteWaypoints
import Mathlib.Algebra.Order.Ring.Rat
import Mathlib.Data.Rat.Floor

open lib.narrowing lib.exact_double

namespace carma.route_node

/-! ## The mask -/

theorem withFlag_and_other {flag other : BitVec 16} (h : flag &&& other = 0) (isSet : Prop)
    [Decidable isSet] (bitMask : BitVec 16) :
    withFlag flag isSet bitMask &&& other = bitMask &&& other := by
  unfold withFlag
  split
  · rw [BitVec.and_or_distrib_right, h]
    simp
  · rfl

theorem withFlag_and_self {flag : BitVec 16} (h : flag ≠ 0) (isSet : Prop) [Decidable isSet]
    (bitMask : BitVec 16) :
    withFlag flag isSet bitMask &&& flag ≠ 0 ↔ isSet ∨ bitMask &&& flag ≠ 0 := by
  unfold withFlag
  split
  · rename_i hset
    rw [BitVec.and_or_distrib_right, BitVec.and_self]
    apply iff_of_true _ (Or.inl hset)
    intro hzero
    exact h (BitVec.or_eq_zero_iff.mp hzero).2
  · rename_i hset
    simp [hset]

variable {K : Type} [LinearOrder K] [Field K]

theorem getSetFields_flags (wp : RouteWaypoint K) :
    (wp.getSetFields &&& DISABLED_GUIDANCE_ALGORITHMS ≠ 0 ↔ wp.disabledGuidanceAlgorithms ≠ []) ∧
    (wp.getSetFields &&& LANE_CLOSURES ≠ 0 ↔ wp.laneClosures ≠ []) ∧
    (wp.getSetFields &&& NEAREST_MILE_MARKER ≠ 0 ↔ wp.nearestMileMarker ≠ -1) ∧
    (wp.getSetFields &&& NEEDED_MANEUVERS ≠ 0 ↔ wp.neededManeuvers ≠ []) ∧
    (wp.getSetFields &&& REQUIRED_LANE_INDEX ≠ 0 ↔ wp.requiredLaneIndex ≠ -1) ∧
    (wp.getSetFields &&& ROAD_TYPE ≠ 0 ↔ wp.roadType ≠ none) := by
  unfold RouteWaypoint.getSetFields
  refine ⟨?_, ?_, ?_, ?_, ?_, ?_⟩ <;>
    simp (disch := decide) only [withFlag_and_other, withFlag_and_self] <;>
    simp

/-! ## There and back -/

section reread

variable [FloorRing K]

/-- What is left of an int in a byte. -/
def asByte (x : ℤ) : ℤ := (BitVec.ofInt 8 x).toInt

theorem asByte_eq_self_iff (x : ℤ) : asByte x = x ↔ -128 ≤ x ∧ x < 128 :=
  toInt_ofInt_eq_self_iff 7 x

/-- What is left of a mile marker in a byte. -/
def mileAsByte (mile : K) : ℤ := asByte (route.toInt trunc (.fin mile))

theorem mileAsByte_eq_self_iff [IsStrictOrderedRing K] (mile : K) :
    (mileAsByte mile : K) = mile ↔ ∃ n : ℤ, -128 ≤ n ∧ n < 128 ∧ mile = n := by
  unfold mileAsByte
  constructor
  · intro h
    refine ⟨_, ?_, ?_, h.symm⟩
    · exact BitVec.le_toInt _
    · exact BitVec.toInt_lt
  · rintro ⟨n, hlow, hhigh, rfl⟩
    have hint : route.toInt trunc (.fin (n : K)) = n := by
      simp only [route.toInt, trunc_intCast]
      omega
    rw [hint, (asByte_eq_self_iff n).mpr ⟨hlow, hhigh⟩]

/-- The waypoint that comes back. -/
def RouteWaypoint.reread (toFloat : K → K) (wp : RouteWaypoint K) (waypointIndex : ℤ) :
    RouteWaypoint K :=
  { wp with
    waypointId := waypointIndex
    laneCount := asByte wp.laneCount
    lowerSpeedLimit := 0
    upperSpeedLimit := asByte wp.upperSpeedLimit
    laneIndex := asByte wp.laneIndex
    laneWidth := toFloat wp.laneWidth
    laneClosures := wp.laneClosures.map asByte
    nearestMileMarker := (mileAsByte wp.nearestMileMarker : K)
    requiredLaneIndex := asByte wp.requiredLaneIndex }

/-- A field that is left at its default comes back as a set one would. -/
theorem gated_eq {α : Type} [DecidableEq α] {field default : α} {read : α}
    (h : field = default → read = default) :
    (if field ≠ default then read else default) = read := by
  split
  · rfl
  · rename_i hunset
    exact (h (not_not.mp hunset)).symm

theorem fromMessage_toMessage [IsStrictOrderedRing K] (toFloat : K → K) (wp : RouteWaypoint K)
    (waypointIndex : ℤ) :
    (wp.toMessage toFloat waypointIndex).map RouteWaypoint.fromMessage =
      if wp.roadType = none then none else some (wp.reread toFloat waypointIndex) := by
  obtain ⟨hdis, hclo, hmile, hman, hlane, hroad⟩ := getSetFields_flags wp
  unfold RouteWaypoint.toMessage
  split
  · rename_i hnone
    simp [hnone]
  · rename_i roadType hsome
    simp only [Option.map_some, hsome, reduceCtorEq, if_false, Option.some_inj]
    simp only [RouteWaypoint.fromMessage, hdis, hclo, hmile, hman, hlane, hroad, hsome]
    unfold RouteWaypoint.reread
    ext1
    case disabledGuidanceAlgorithms => exact gated_eq id
    case laneClosures =>
      rw [List.map_map]
      apply gated_eq
      intro hunset
      rw [hunset]
      rfl
    case nearestMileMarker =>
      apply gated_eq
      intro hunset
      rw [hunset]
      exact (mileAsByte_eq_self_iff (-1)).mpr ⟨-1, by simp, by simp, by simp⟩
    case neededManeuvers => exact gated_eq id
    case requiredLaneIndex =>
      apply gated_eq
      intro hunset
      rw [hunset]
      rfl
    case roadType => simp [hsome]
    case location => rfl
    all_goals simp [asByte]

/-! ## Waypoints that survive -/

/-- Every field that is set in `wp` is the same in `read`, as the mask has it. -/
structure SameSetFields (wp read : RouteWaypoint K) : Prop where
  location : read.location = wp.location
  laneCount : read.laneCount = wp.laneCount
  laneWidth : read.laneWidth = wp.laneWidth
  laneIndex : read.laneIndex = wp.laneIndex
  lowerSpeedLimit : read.lowerSpeedLimit = wp.lowerSpeedLimit
  upperSpeedLimit : read.upperSpeedLimit = wp.upperSpeedLimit
  minCrossTrack : read.minCrossTrack = wp.minCrossTrack
  maxCrossTrack : read.maxCrossTrack = wp.maxCrossTrack
  interiorLaneMarkings : read.interiorLaneMarkings = wp.interiorLaneMarkings
  leftMostLaneMarking : read.leftMostLaneMarking = wp.leftMostLaneMarking
  rightMostLaneMarking : read.rightMostLaneMarking = wp.rightMostLaneMarking
  setFields : read.getSetFields = wp.getSetFields
  disabledGuidanceAlgorithms : wp.getSetFields &&& DISABLED_GUIDANCE_ALGORITHMS ≠ 0 →
    read.disabledGuidanceAlgorithms = wp.disabledGuidanceAlgorithms
  laneClosures : wp.getSetFields &&& LANE_CLOSURES ≠ 0 → read.laneClosures = wp.laneClosures
  nearestMileMarker : wp.getSetFields &&& NEAREST_MILE_MARKER ≠ 0 →
    read.nearestMileMarker = wp.nearestMileMarker
  neededManeuvers : wp.getSetFields &&& NEEDED_MANEUVERS ≠ 0 →
    read.neededManeuvers = wp.neededManeuvers
  requiredLaneIndex : wp.getSetFields &&& REQUIRED_LANE_INDEX ≠ 0 →
    read.requiredLaneIndex = wp.requiredLaneIndex
  roadType : wp.getSetFields &&& ROAD_TYPE ≠ 0 → read.roadType = wp.roadType

omit [FloorRing K] in
/-- The mask tells a field that is not set from all others, so the whole waypoint is
the same but for its id. -/
theorem sameSetFields_iff (wp read : RouteWaypoint K) :
    SameSetFields wp read ↔ read = { wp with waypointId := read.waypointId } := by
  obtain ⟨hdis, hclo, hmile, hman, hlane, hroad⟩ := getSetFields_flags wp
  constructor
  · intro h
    obtain ⟨rdis, rclo, rmile, rman, rlane, rroad⟩ := getSetFields_flags read
    rw [h.setFields] at rdis rclo rmile rman rlane rroad
    have hfill : ∀ {α : Type} {x y d : α} {flag : Prop}, (flag ↔ x ≠ d) → (flag ↔ y ≠ d) →
        (flag → y = x) → y = x := by
      intro α x y d flag hx hy heq
      by_cases hflag : flag
      · exact heq hflag
      · rw [not_not.mp (mt hx.mpr hflag), not_not.mp (mt hy.mpr hflag)]
    ext1
    case disabledGuidanceAlgorithms => exact hfill hdis rdis h.disabledGuidanceAlgorithms
    case laneClosures => exact hfill hclo rclo h.laneClosures
    case nearestMileMarker => exact hfill hmile rmile h.nearestMileMarker
    case neededManeuvers => exact hfill hman rman h.neededManeuvers
    case requiredLaneIndex => exact hfill hlane rlane h.requiredLaneIndex
    case roadType => exact hfill hroad rroad h.roadType
    case waypointId => rfl
    case laneCount => exact h.laneCount
    case laneWidth => exact h.laneWidth
    case location => exact h.location
    case lowerSpeedLimit => exact h.lowerSpeedLimit
    case upperSpeedLimit => exact h.upperSpeedLimit
    case minCrossTrack => exact h.minCrossTrack
    case maxCrossTrack => exact h.maxCrossTrack
    case laneIndex => exact h.laneIndex
    case interiorLaneMarkings => exact h.interiorLaneMarkings
    case leftMostLaneMarking => exact h.leftMostLaneMarking
    case rightMostLaneMarking => exact h.rightMostLaneMarking
  · intro h
    rw [h]
    constructor <;> first | rfl | exact fun _ => rfl

/-- What a waypoint must be to come back as it was. -/
structure Survives (toFloat : K → K) (wp : RouteWaypoint K) : Prop where
  roadType : wp.roadType ≠ none
  lowerSpeedLimit : wp.lowerSpeedLimit = 0
  laneCount : -128 ≤ wp.laneCount ∧ wp.laneCount < 128
  upperSpeedLimit : -128 ≤ wp.upperSpeedLimit ∧ wp.upperSpeedLimit < 128
  laneIndex : -128 ≤ wp.laneIndex ∧ wp.laneIndex < 128
  requiredLaneIndex : -128 ≤ wp.requiredLaneIndex ∧ wp.requiredLaneIndex < 128
  laneClosures : ∀ lane ∈ wp.laneClosures, -128 ≤ lane ∧ lane < 128
  laneWidth : toFloat wp.laneWidth = wp.laneWidth
  nearestMileMarker : ∃ n : ℤ, -128 ≤ n ∧ n < 128 ∧ wp.nearestMileMarker = n

variable [IsStrictOrderedRing K]

theorem reread_eq_iff (toFloat : K → K) (wp : RouteWaypoint K) (waypointIndex : ℤ) :
    (wp.roadType ≠ none ∧
      wp.reread toFloat waypointIndex = { wp with waypointId := waypointIndex }) ↔
    Survives toFloat wp := by
  have hclosures : wp.laneClosures.map asByte = wp.laneClosures ↔
      ∀ lane ∈ wp.laneClosures, -128 ≤ lane ∧ lane < 128 := by
    induction wp.laneClosures with
    | nil => simp
    | cons lane lanes ih => simp [ih, asByte_eq_self_iff]
  simp only [RouteWaypoint.reread, RouteWaypoint.mk.injEq, route.RouteWaypoint.mk.injEq,
    asByte_eq_self_iff, mileAsByte_eq_self_iff, hclosures]
  constructor
  · rintro ⟨hroad, ⟨-, hcount, hwidth⟩, -, hclo, -, hlow, hup, hmile, -, -, -, hreq, hindex, -⟩
    exact ⟨hroad, hlow.symm, hcount, hup, hindex, hreq, hclo, hwidth, hmile⟩
  · rintro ⟨hroad, hlow, hcount, hup, hindex, hreq, hclo, hwidth, hmile⟩
    exact ⟨hroad, ⟨trivial, hcount, hwidth⟩, trivial, hclo, trivial, hlow.symm, hup, hmile,
      trivial, trivial, trivial, hreq, hindex, trivial, trivial, trivial, trivial⟩

/-- A waypoint comes back from its message with every set field as it was just when
its lower speed limit is zero, its whole numbers and its mile marker are those of a
signed byte, its lane width is a float and it has a road type. -/
theorem a_waypoint_comes_back_when_its_numbers_are_signed_bytes (toFloat : K → K)
    (wp : RouteWaypoint K) (waypointIndex : ℤ) :
    (∃ read, (wp.toMessage toFloat waypointIndex).map RouteWaypoint.fromMessage = some read ∧
      SameSetFields wp read) ↔ Survives toFloat wp := by
  rw [← reread_eq_iff toFloat wp waypointIndex, fromMessage_toMessage]
  by_cases hroad : wp.roadType = none
  · simp [hroad]
  · simp [hroad, sameSetFields_iff, RouteWaypoint.reread]

end reread

/-- A road with an upper speed limit of 55, at mile 12. -/
def milestone : RouteWaypoint ℚ :=
  { newRouteWaypoint ⟨39, -77, 100⟩ with
    laneWidth := 7 / 2
    upperSpeedLimit := 55
    nearestMileMarker := 12 }

theorem milestone_survives : Survives id milestone where
  roadType := by simp [milestone, newRouteWaypoint]
  lowerSpeedLimit := rfl
  laneCount := by simp [milestone, newRouteWaypoint]
  upperSpeedLimit := by simp [milestone]
  laneIndex := by simp [milestone, newRouteWaypoint]
  requiredLaneIndex := by simp [milestone, newRouteWaypoint]
  laneClosures := by simp [milestone, newRouteWaypoint]
  laneWidth := rfl
  nearestMileMarker := ⟨12, by simp [milestone]⟩

theorem milestone_comes_back :
    ∃ read, (milestone.toMessage id 0).map RouteWaypoint.fromMessage = some read ∧
      SameSetFields milestone read :=
  (a_waypoint_comes_back_when_its_numbers_are_signed_bytes id milestone 0).mpr milestone_survives

/-! ## Waypoints that do not -/

/-- The fields fit the types of the message: unsigned bytes and floats. -/
structure FitsMessage (toFloat : K → K) (wp : RouteWaypoint K) : Prop where
  roadType : wp.roadType ≠ none
  lowerSpeedLimit : 0 ≤ wp.lowerSpeedLimit ∧ wp.lowerSpeedLimit < 256
  laneCount : 0 ≤ wp.laneCount ∧ wp.laneCount < 256
  upperSpeedLimit : 0 ≤ wp.upperSpeedLimit ∧ wp.upperSpeedLimit < 256
  laneIndex : 0 ≤ wp.laneIndex ∧ wp.laneIndex < 256
  requiredLaneIndex : wp.requiredLaneIndex = -1 ∨
    0 ≤ wp.requiredLaneIndex ∧ wp.requiredLaneIndex < 256
  laneClosures : ∀ lane ∈ wp.laneClosures, 0 ≤ lane ∧ lane < 256
  laneWidth : toFloat wp.laneWidth = wp.laneWidth
  nearestMileMarker : toFloat wp.nearestMileMarker = wp.nearestMileMarker

/-- A highway with speed limits of 25 and 55, at mile 12 and a half. -/
def highwayWaypoint : RouteWaypoint ℚ :=
  { newRouteWaypoint ⟨39, -77, 100⟩ with
    laneWidth := 7 / 2
    lowerSpeedLimit := 25
    upperSpeedLimit := 55
    nearestMileMarker := 25 / 2 }

/-- The lower limit is lost. -/
theorem the_lower_speed_limit_is_lost :
    ¬ ∀ wp : RouteWaypoint ℚ, FitsMessage id wp →
      ∃ read, (wp.toMessage id 0).map RouteWaypoint.fromMessage = some read ∧
        SameSetFields wp read := by
  intro h
  obtain ⟨read, hread, hsame⟩ := h highwayWaypoint
    ⟨by decide, by decide, by decide, by decide, by decide, by decide, by decide, rfl, rfl⟩
  rw [fromMessage_toMessage] at hread
  simp only [highwayWaypoint, newRouteWaypoint, reduceCtorEq, if_false, Option.some_inj] at hread
  have hlow := hsame.lowerSpeedLimit
  rw [← hread] at hlow
  exact absurd hlow (by decide)

end carma.route_node
