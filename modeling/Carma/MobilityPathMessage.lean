-- A mobility path on its way over the wire: `MobilityPathHelper`, `MobilityPathMessage` and
-- the path functions of `wrapper.c`. What `pathToMessage` of the sender gives is received
-- as it is just where its start and its steps are in the ranges of the wire.
import Carma.MobilityOffsetLaws
import Carma.PathErrors

open lib.narrowing
open carma.path_messages

namespace carma.message

/-! ## The code -/

/-- `cav_msgs.MobilityPath`. -/
structure MobilityPath where
  header : MobilityHeader
  trajectory : TrajectoryMsg
deriving DecidableEq

/-- `MobilityPathHelper`, with the fields of its trajectory helper. -/
structure MobilityPathHelper where
  headerHelper : Header
  startLocationHelper : MobilityLocation
  offsets : OffsetArrays

def MobilityPath.helper (path : MobilityPath) : MobilityPathHelper where
  headerHelper := MobilityHeaderHelper path.header
  startLocationHelper := MobilityECEFLocationHelper path.trajectory.location
  offsets := setOffsets path.trajectory.offsets

/-- The C structure of a path. -/
structure TestMessage02 where
  header : Header
  location : MobilityLocation
  trajectory : List MobilityECEFOffset
deriving DecidableEq

/-- The structure that `encodeMobilityPath` fills. -/
def encodeMobilityPath (helper : MobilityPathHelper) : TestMessage02 where
  header := helper.headerHelper
  location := helper.startLocationHelper
  trajectory := if 0 < helper.offsets.x.length then helper.offsets.points else []

/-- What `decodeMobilityPath` and `decode` make of a structure, none where they throw. As many
entries of the temporary arrays are copied as there are. -/
def decodeMobilityPath (message : TestMessage02) : Option MobilityPath := do
  let header ← readHeader message.header
  let location ← readLocation message.location
  let count := message.trajectory.length
  let offsets := intArrayOffsetsToOffsetList (copyOffsets count message.trajectory unavailable)
  pure ⟨header, ⟨location, offsets⟩⟩

variable {W : Type}

def MobilityPath.encode (asn : Asn1c TestMessage02 W) (path : MobilityPath) : Option W :=
  asn.uperEncode (encodeMobilityPath path.helper)

def MobilityPath.decode (asn : Asn1c TestMessage02 W) (encoded : W) : Option MobilityPath :=
  (asn.uperDecode encoded).bind decodeMobilityPath

/-- The constraints of the C structure. -/
structure TestMessage02.WellFormed (message : TestMessage02) : Prop where
  header : message.header.WellFormed
  location : message.location.WellFormed
  trajectory : OffsetsWellFormed message.trajectory

/-! ## What is received -/

theorem encode_trajectory (path : MobilityPath) :
    (encodeMobilityPath path.helper).trajectory = (setOffsets path.trajectory.offsets).points := by
  unfold encodeMobilityPath MobilityPath.helper
  dsimp only
  split
  · rfl
  · rename_i hcount
    rw [setOffsets_eq] at hcount ⊢
    rw [points_columns]
    unfold columns at hcount
    rw [List.length_map] at hcount
    exact (List.eq_nil_of_length_eq_zero (Nat.eq_zero_of_not_pos hcount)).symm

theorem path_wellFormed {path : MobilityPath} (hheader : path.header.InRange)
    (htime : IsTimestamp path.trajectory.location.timestamp) :
    (encodeMobilityPath path.helper).WellFormed where
  header := header_wellFormed hheader
  location := location_wellFormed htime
  trajectory := by
    rw [encode_trajectory]
    exact offsets_wellFormed path.trajectory.offsets

/-- A trajectory with zero for all that is out of range, and without what is past the
sixtieth offset. -/
def receivedTrajectory (sent : TrajectoryMsg) : TrajectoryMsg :=
  ⟨receivedLocation sent.location,
    (sent.offsets.take OFFSETS_LIST_MAX_LENGTH).map receivedOffset⟩

theorem decodeMobilityPath_helper {path : MobilityPath} (hheader : path.header.InRange)
    (htime : IsTimestamp path.trajectory.location.timestamp) :
    decodeMobilityPath (encodeMobilityPath path.helper) =
      some ⟨path.header, receivedTrajectory path.trajectory⟩ := by
  have hread : readHeader (encodeMobilityPath path.helper).header = some path.header :=
    readHeader_helper hheader
  have hlocation : readLocation (encodeMobilityPath path.helper).location =
      some (receivedLocation path.trajectory.location) := readLocation_helper htime
  unfold decodeMobilityPath
  rw [hread, hlocation, encode_trajectory]
  dsimp only
  rw [read_path_offsets]
  rfl

/-- Every path is received with its header. -/
theorem path_received (asn : Asn1c TestMessage02 W) (hasn : asn.Faithful TestMessage02.WellFormed)
    (path : MobilityPath) (hheader : path.header.InRange)
    (htime : IsTimestamp path.trajectory.location.timestamp) :
    ∃ encoded, path.encode asn = some encoded ∧ MobilityPath.decode asn encoded =
      some ⟨path.header, receivedTrajectory path.trajectory⟩ := by
  obtain ⟨encoded, hencode, hdecode⟩ := hasn _ (path_wellFormed hheader htime)
  refine ⟨encoded, hencode, ?_⟩
  unfold MobilityPath.decode
  rw [hdecode, Option.bind_some]
  exact decodeMobilityPath_helper hheader htime

theorem receivedTrajectory_eq_iff {sent : TrajectoryMsg}
    (hlength : sent.offsets.length ≤ OFFSETS_LIST_MAX_LENGTH) :
    receivedTrajectory sent = sent ↔
      LocationInRange sent.location ∧ ∀ o ∈ sent.offsets, OffsetInRange o := by
  unfold receivedTrajectory
  rw [List.take_of_length_le hlength, ← receivedLocation_eq_iff, ← map_receivedOffset_eq_iff]
  cases sent
  rw [TrajectoryMsg.mk.injEq]

/-! ## Paths of the converter -/

section paths

variable {K F : Type} [Field K] [LinearOrder K] [FloorRing K]

theorem offsetsFrom_length (prev : Point3D K) (points : List (ECEFPointStamped K)) :
    (offsetsFrom prev points).length = points.length := by
  induction points generalizing prev with
  | nil => rfl
  | cons p points ih => exact congrArg Nat.succ (ih p.point)

theorem encode_offsets_length (points : List (ECEFPointStamped K)) :
    (encode points).offsets.length ≤ points.length := by
  cases points with
  | nil => exact Nat.zero_le _
  | cons p ps =>
    show (offsetsFrom p.point ps).length ≤ ps.length + 1
    rw [offsetsFrom_length]
    exact Nat.le_succ _

theorem encode_timestamp (points : List (ECEFPointStamped K)) :
    (encode points).location.timestamp < 2 ^ 63 := by
  cases points with
  | nil =>
    show (0 : ℤ) < 2 ^ 63
    decide
  | cons p ps =>
    show toMs p.stamp < 2 ^ 63
    unfold toMs
    omega

theorem pathToMessage_limits {c : PathConverter K F} {routePath : List (RoutePoint K)}
    {trajectory : TrajectoryMsg} (h : pathToMessage c routePath = some trajectory) :
    trajectory.offsets.length ≤ OFFSETS_LIST_MAX_LENGTH ∧
      trajectory.location.timestamp < 2 ^ 63 := by
  unfold pathToMessage at h
  obtain ⟨points, hpoints, rfl⟩ := Option.map_eq_some_iff.mp h
  have hlength : points.length ≤ 60 := by
    rw [(toECEFPoints_take c hpoints 0).2, List.length_take]
    exact Nat.min_le_left _ _
  exact ⟨(encode_offsets_length points).trans hlength, encode_timestamp points⟩

/-- A published path is received with zero for each coordinate of its start and each component
of its offsets that is out of range, so it is received as it was just where none is. -/
theorem published_paths_are_received_just_where_all_is_in_range
    (asn : Asn1c TestMessage02 W) (hasn : asn.Faithful TestMessage02.WellFormed)
    (c : PathConverter K F) {routePath : List (RoutePoint K)} {trajectory : TrajectoryMsg}
    (hpath : pathToMessage c routePath = some trajectory)
    (htime : 0 ≤ trajectory.location.timestamp) {header : MobilityHeader}
    (hheader : header.InRange) :
    ∃ encoded received, MobilityPath.encode asn ⟨header, trajectory⟩ = some encoded ∧
      MobilityPath.decode asn encoded = some ⟨header, received⟩ ∧
      received.location = receivedLocation trajectory.location ∧
      received.offsets = trajectory.offsets.map receivedOffset ∧
      (received = trajectory ↔
        LocationInRange trajectory.location ∧ ∀ o ∈ trajectory.offsets, OffsetInRange o) := by
  obtain ⟨hlength, hlong⟩ := pathToMessage_limits hpath
  obtain ⟨encoded, hencode, hdecode⟩ :=
    path_received asn hasn ⟨header, trajectory⟩ hheader ⟨htime, hlong⟩
  refine ⟨encoded, receivedTrajectory trajectory, hencode, hdecode, rfl, ?_,
    receivedTrajectory_eq_iff hlength⟩
  unfold receivedTrajectory
  rw [List.take_of_length_le hlength]

/-! ## Steps of five metres -/

/-- At most five metres apart on each axis. -/
structure Close (p q : ECEFPointStamped K) : Prop where
  x : |q.point.x - p.point.x| ≤ 5
  y : |q.point.y - p.point.y| ≤ 5
  z : |q.point.z - p.point.z| ≤ 5

variable [IsStrictOrderedRing K]

theorem toShortCm_mem {d : K} (h : |d| ≤ 5) :
    -XYZ_MAX ≤ (toShortCm d).toInt ∧ (toShortCm d).toInt ≤ XYZ_MAX := by
  have hcm : -((500 : ℤ) : K) ≤ d * cmPerM ∧ d * cmPerM ≤ ((500 : ℤ) : K) := by
    obtain ⟨hlow, hhigh⟩ := abs_le.mp h
    unfold cmPerM
    push_cast
    constructor <;> linarith
  have htrunc := trunc_mem hcm.1 hcm.2
  have hint : FitsInt d := by
    unfold FitsInt
    omega
  have hshort : (toShortCm d).toInt = trunc (d * cmPerM) := by
    unfold toShortCm
    rw [toCm_eq hint]
    exact (toInt_ofInt_eq_self_iff 15 _).mpr (by omega)
  rw [hshort]
  exact htrunc

theorem offsetsFrom_inRange {p : ECEFPointStamped K} {points : List (ECEFPointStamped K)}
    (h : List.IsChain Close (p :: points)) :
    ∀ o ∈ offsetsFrom p.point points, OffsetInRange o := by
  induction points generalizing p with
  | nil => exact fun o ho => absurd ho List.not_mem_nil
  | cons q points ih =>
    obtain ⟨hclose, hrest⟩ := List.isChain_cons_cons.mp h
    intro o ho
    rcases List.mem_cons.mp ho with rfl | hlater
    · exact ⟨toShortCm_mem hclose.x, toShortCm_mem hclose.y, toShortCm_mem hclose.z⟩
    · exact ih hrest o hlater

theorem offsets_inRange_of_close {points : List (ECEFPointStamped K)}
    (h : List.IsChain Close points) : ∀ o ∈ (encode points).offsets, OffsetInRange o := by
  cases points with
  | nil => exact fun o ho => absurd ho List.not_mem_nil
  | cons p points => exact offsetsFrom_inRange h

/-- At up to fifty metres a second, with a tenth of a second a step, nothing is lost. -/
theorem close_points_are_received {points : List (ECEFPointStamped K)}
    (h : List.IsChain Close points) (hlength : points.length ≤ MAX_POINTS_IN_MESSAGE)
    (hstart : LocationInRange (encode points).location) :
    receivedTrajectory (encode points) = encode points :=
  (receivedTrajectory_eq_iff ((encode_offsets_length points).trans hlength)).mpr
    ⟨hstart, offsets_inRange_of_close h⟩

end paths

/-- A coder that leaves the structures as they are. -/
def plainPathCoder : Asn1c TestMessage02 TestMessage02 := ⟨some, some⟩

theorem plainPathCoder_faithful : plainPathCoder.Faithful TestMessage02.WellFormed :=
  fun message _ => ⟨message, rfl, rfl⟩

/-- A path with steps of 12 and 13 centimetres. -/
def stroll : List (RoutePoint ℚ) :=
  [⟨0, 0, 0, 0, 0⟩, ⟨12 / 100, 0, 1 / 10, 0, 12 / 100⟩, ⟨25 / 100, 0, 1 / 5, 0, 25 / 100⟩]

/-- What is sent of it. -/
def strollMsg : TrajectoryMsg := ⟨⟨0, 0, 0, 0⟩, [⟨12, 0, 0⟩, ⟨13, 0, 0⟩]⟩

theorem a_strolling_path_is_received :
    ∃ encoded received,
      MobilityPath.encode plainPathCoder ⟨broadcastHeader, strollMsg⟩ = some encoded ∧
      MobilityPath.decode plainPathCoder encoded = some ⟨broadcastHeader, received⟩ ∧
      received.location = receivedLocation strollMsg.location ∧
      received.offsets = strollMsg.offsets.map receivedOffset ∧
      (received = strollMsg ↔ LocationInRange strollMsg.location ∧
        ∀ o ∈ strollMsg.offsets, OffsetInRange o) :=
  published_paths_are_received_just_where_all_is_in_range plainPathCoder plainPathCoder_faithful
    flatRoad (show pathToMessage flatRoad stroll = some strollMsg by decide +kernel)
    (by decide +kernel) broadcastHeader_inRange

/-- A path with a step of six metres. -/
def sprint : List (RoutePoint ℚ) := [⟨0, 0, 0, 0, 0⟩, ⟨6, 0, 1 / 10, 0, 6⟩]

/-- The step is received as no step at all. -/
theorem a_step_of_six_metres_is_received_as_zero :
    pathToMessage flatRoad sprint = some ⟨⟨0, 0, 0, 0⟩, [⟨600, 0, 0⟩]⟩ ∧
      (MobilityPath.encode plainPathCoder
        ⟨broadcastHeader, ⟨⟨0, 0, 0, 0⟩, [⟨600, 0, 0⟩]⟩⟩).bind
          (MobilityPath.decode plainPathCoder) =
            some ⟨broadcastHeader, ⟨⟨0, 0, 0, 0⟩, [⟨0, 0, 0⟩]⟩⟩ := by
  constructor
  · decide +kernel
  · decide +kernel

end carma.message
