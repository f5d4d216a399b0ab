-- A mobility request on its way over the wire: `MobilityRequestHelper`,
-- `MobilityRequestMessage` and the request functions of `wrapper.c`. A start of zeros is
-- taken for no trajectory, and the offsets arrive with the start or not at all.
import Carma.MobilityOffsetLaws

open lib.text
open carma.path_messages

namespace carma.message

/-! ## The code -/

/-- `cav_msgs.MobilityRequest`. -/
structure MobilityRequest where
  header : MobilityHeader
  strategy : Text
  planType : BitVec 8
  urgency : BitVec 16
  location : LocationECEF
  strategyParams : Text
  trajectory : TrajectoryMsg
  expiration : ℤ
deriving DecidableEq

def STRATEGY_MAX_LENGTH : ℕ := 50

def STRATEGY_PARAMS_MAX_LENGTH : ℕ := 100

def URGENCY_MIN : ℤ := 0

def URGENCY_MAX : ℤ := 1000

/-- `MobilityRequestHelper`, with the fields of its trajectory helper. -/
structure MobilityRequestHelper where
  headerHelper : Header
  strategy : Bytes
  planType : ℤ
  urgency : ℤ
  locationHelper : MobilityLocation
  strategyParams : Bytes
  startLocationHelper : MobilityLocation
  offsets : OffsetArrays
  expiration : Bytes

def MobilityRequest.helper (request : MobilityRequest) : MobilityRequestHelper where
  headerHelper := MobilityHeaderHelper request.header
  strategy := setDynamicLengthString request.strategy STRATEGY_MAX_LENGTH
  planType := request.planType.toInt
  urgency := min (max URGENCY_MIN request.urgency.toInt) URGENCY_MAX
  locationHelper := MobilityECEFLocationHelper request.location
  strategyParams := setDynamicLengthString request.strategyParams STRATEGY_PARAMS_MAX_LENGTH
  startLocationHelper := MobilityECEFLocationHelper request.trajectory.location
  offsets := setOffsets request.trajectory.offsets
  expiration := setTimestamp request.expiration

/-- The C structure of a request. The last three are optional. -/
structure TestMessage00 where
  header : Header
  strategy : Bytes
  planType : ℤ
  urgency : ℤ
  location : MobilityLocation
  strategyParams : Bytes
  trajectoryStart : Option MobilityLocation
  trajectory : Option (List MobilityECEFOffset)
  expiration : Option Bytes
deriving DecidableEq

/-- The condition that a start is written at all. -/
def hasStart (start : MobilityLocation) : Prop :=
  start.ecefX ≠ 0 ∨ start.ecefY ≠ 0 ∨ start.ecefZ ≠ 0

instance (start : MobilityLocation) : Decidable (hasStart start) := instDecidableOr

/-- The structure that `encodeMobilityRequest` fills. -/
def encodeMobilityRequest (helper : MobilityRequestHelper) : TestMessage00 where
  header := helper.headerHelper
  strategy := helper.strategy
  planType := helper.planType
  urgency := helper.urgency
  location := helper.locationHelper
  strategyParams := helper.strategyParams
  trajectoryStart := if hasStart helper.startLocationHelper then some helper.startLocationHelper
    else none
  trajectory := if hasStart helper.startLocationHelper ∧ 0 < helper.offsets.x.length then
      some helper.offsets.points
    else none
  -- only an expiration with a digit other than zero is written
  expiration := if (helper.expiration.take 19).any (fun b => b ≠ 48) then
      some (helper.expiration.take 19)
    else none

/-- The trajectory of a request that has just been decoded. All 60 entries of the temporary
arrays are copied. -/
def decodeTrajectory (message : TestMessage00) : Option TrajectoryMsg :=
  (readTimestamp (message.trajectoryStart.map (·.timestamp))).map fun timestamp =>
    { location := match message.trajectoryStart with
        | some start => ⟨start.ecefX, start.ecefY, start.ecefZ, timestamp⟩
        | none => ⟨0, 0, 0, timestamp⟩
      offsets := intArrayOffsetsToOffsetList (match message.trajectory with
        | some list => copyOffsets 60 list unavailable
        | none => unavailable) }

/-- What `decodeMobilityRequest` and `decode` make of a structure, none where they throw. -/
def decodeMobilityRequest (message : TestMessage00) : Option MobilityRequest := do
  let header ← readHeader message.header
  let location ← readLocation message.location
  let trajectory ← decodeTrajectory message
  let expiration ← readTimestamp message.expiration
  pure {
    header
    strategy := readDynamicLengthString (setRegion (List.replicate 50 0) message.strategy)
    planType := BitVec.ofInt 8 message.planType
    urgency := BitVec.ofInt 16 message.urgency
    location
    strategyParams :=
      readDynamicLengthString (setRegion (List.replicate 100 0) message.strategyParams)
    trajectory
    expiration }

variable {W : Type}

def MobilityRequest.encode (asn : Asn1c TestMessage00 W) (request : MobilityRequest) : Option W :=
  asn.uperEncode (encodeMobilityRequest request.helper)

def MobilityRequest.decode (asn : Asn1c TestMessage00 W) (encoded : W) : Option MobilityRequest :=
  (asn.uperDecode encoded).bind decodeMobilityRequest

/-! ## Requests in range -/

/-- The last plan type. -/
def PLATOON_FOLLOWER_JOIN : ℤ := 4

/-- A request with its fields in the declared ranges. -/
structure MobilityRequest.InRange (request : MobilityRequest) : Prop where
  header : request.header.InRange
  strategy : IsDynamicString STRATEGY_MAX_LENGTH request.strategy
  planType : 0 ≤ request.planType.toInt ∧ request.planType.toInt ≤ PLATOON_FOLLOWER_JOIN
  urgency : URGENCY_MIN ≤ request.urgency.toInt ∧ request.urgency.toInt ≤ URGENCY_MAX
  location : LocationInRange request.location
  locationTime : IsTimestamp request.location.timestamp
  strategyParams : IsDynamicString STRATEGY_PARAMS_MAX_LENGTH request.strategyParams
  start : LocationInRange request.trajectory.location
  startTime : IsTimestamp request.trajectory.location.timestamp
  length : request.trajectory.offsets.length ≤ OFFSETS_LIST_MAX_LENGTH
  offsets : ∀ o ∈ request.trajectory.offsets, OffsetInRange o
  expiration : IsTimestamp request.expiration

/-- The constraints of the C structure. -/
structure TestMessage00.WellFormed (message : TestMessage00) : Prop where
  header : message.header.WellFormed
  strategy : IsIA5String 1 50 message.strategy
  planType : 0 ≤ message.planType ∧ message.planType ≤ 4
  urgency : 0 ≤ message.urgency ∧ message.urgency ≤ 1000
  location : message.location.WellFormed
  strategyParams : IsIA5String 1 100 message.strategyParams
  trajectoryStart : ∀ start ∈ message.trajectoryStart, start.WellFormed
  trajectory : ∀ list ∈ message.trajectory, list ≠ [] ∧ OffsetsWellFormed list
  expiration : ∀ bytes ∈ message.expiration, IsIA5String 19 19 bytes

/-! ## What arrives -/

theorem urgency_eq {request : MobilityRequest} (h : request.InRange) :
    request.helper.urgency = request.urgency.toInt := by
  have hlow := h.urgency.1
  have hhigh := h.urgency.2
  unfold MobilityRequest.helper
  dsimp only
  rw [max_eq_right hlow, min_eq_left hhigh]

/-- A location that is known. Zeros stand for one that is not. -/
def IsKnown (location : LocationECEF) : Prop :=
  location.ecefX ≠ 0 ∨ location.ecefY ≠ 0 ∨ location.ecefZ ≠ 0

instance (location : LocationECEF) : Decidable (IsKnown location) := instDecidableOr

theorem hasStart_iff {location : LocationECEF} (h : LocationInRange location) :
    hasStart (MobilityECEFLocationHelper location) ↔ IsKnown location := by
  have heq := receivedLocation_eq_iff.mpr h
  have hx : withinOrZero ECEF_XY_MAX location.ecefX = location.ecefX :=
    congrArg LocationECEF.ecefX heq
  have hy : withinOrZero ECEF_XY_MAX location.ecefY = location.ecefY :=
    congrArg LocationECEF.ecefY heq
  have hz : withinOrZero ECEF_Z_MAX location.ecefZ = location.ecefZ :=
    congrArg LocationECEF.ecefZ heq
  unfold hasStart IsKnown MobilityECEFLocationHelper
  dsimp only
  rw [hx, hy, hz]

theorem readTimestamp_optional {time : ℤ} (h : IsTimestamp time) :
    readTimestamp (if ((setTimestamp time).take 19).any (fun b => decide (b ≠ 48)) then
      some ((setTimestamp time).take 19) else none) = some time := by
  split
  · exact readTimestamp_set h
  · rename_i hany
    have hlength : ((setTimestamp time).take 19).length = 19 :=
      le_antisymm (isIA5String_timestamp h).high (isIA5String_timestamp h).low
    have hzeros : (setTimestamp time).take 19 = List.replicate 19 (toByte '0') := by
      rw [List.eq_replicate_iff]
      refine ⟨hlength, ?_⟩
      intro b hb
      by_contra hne
      exact hany (List.any_eq_true.mpr ⟨b, hb, decide_eq_true hne⟩)
    have hset := readTimestamp_set h
    rw [hzeros] at hset
    exact hset

theorem points_ne_nil {offsets : List LocationOffsetECEF} (h : 0 < (setOffsets offsets).x.length) :
    (setOffsets offsets).points ≠ [] := by
  intro hnil
  rw [setOffsets_eq] at h hnil
  rw [points_columns] at hnil
  rw [hnil] at h
  exact absurd h (by decide)

theorem request_wellFormed {request : MobilityRequest} (h : request.InRange) :
    (encodeMobilityRequest request.helper).WellFormed where
  header := header_wellFormed h.header
  strategy := isIA5String_dynamic (by decide) h.strategy.ascii
  planType := h.planType
  urgency := by
    have hurgency := urgency_eq h
    unfold encodeMobilityRequest
    dsimp only
    rw [hurgency]
    exact h.urgency
  location := location_wellFormed h.locationTime
  strategyParams := isIA5String_dynamic (by decide) h.strategyParams.ascii
  trajectoryStart := by
    intro start hstart
    obtain ⟨-, hsome⟩ := Option.mem_ite_none_right.mp hstart
    rw [← Option.mem_some_iff.mp hsome]
    exact location_wellFormed h.startTime
  trajectory := by
    intro list hlist
    obtain ⟨⟨-, hcount⟩, hsome⟩ := Option.mem_ite_none_right.mp hlist
    rw [← Option.mem_some_iff.mp hsome]
    exact ⟨points_ne_nil hcount, offsets_wellFormed request.trajectory.offsets⟩
  expiration := by
    intro bytes hbytes
    obtain ⟨-, hsome⟩ := Option.mem_ite_none_right.mp hbytes
    rw [← Option.mem_some_iff.mp hsome]
    exact isIA5String_timestamp h.expiration

/-- What arrives of a trajectory. Without a known start there is none. -/
structure ReceivedTrajectory (sent received : TrajectoryMsg) : Prop where
  location : IsKnown sent.location → received.location = sent.location
  offsets : IsKnown sent.location → sent.offsets <+: received.offsets
  exact : IsKnown sent.location → sent.offsets.length = 0 ∨
    sent.offsets.length = OFFSETS_LIST_MAX_LENGTH → received.offsets = sent.offsets
  unknown : ¬IsKnown sent.location → received = ⟨⟨0, 0, 0, 0⟩, []⟩

theorem read_unavailable : intArrayOffsetsToOffsetList unavailable = [] := by
  have hnone : ∀ p ∈ ([] : List MobilityECEFOffset), Available p := by simp
  rw [unavailable_eq]
  exact read_until hnone _

theorem count_eq (request : MobilityRequest) :
    request.helper.offsets.x.length =
      min OFFSETS_LIST_MAX_LENGTH request.trajectory.offsets.length := by
  unfold MobilityRequest.helper
  dsimp only
  rw [setOffsets_eq]
  unfold columns
  rw [List.length_map, List.length_map, List.length_take]

theorem decodeTrajectory_unknown {request : MobilityRequest} (h : request.InRange)
    (hunknown : ¬IsKnown request.trajectory.location) :
    decodeTrajectory (encodeMobilityRequest request.helper) = some ⟨⟨0, 0, 0, 0⟩, []⟩ := by
  have hnot : ¬hasStart request.helper.startLocationHelper := fun hstart =>
    hunknown ((hasStart_iff h.start).mp hstart)
  unfold decodeTrajectory encodeMobilityRequest
  dsimp only
  rw [if_neg hnot, if_neg (fun hboth => hnot hboth.1), Option.map_none, readTimestamp_none]
  exact congrArg (fun offsets => some (⟨⟨0, 0, 0, 0⟩, offsets⟩ : TrajectoryMsg)) read_unavailable

theorem decodeTrajectory_known {request : MobilityRequest} (h : request.InRange)
    (hknown : IsKnown request.trajectory.location) :
    decodeTrajectory (encodeMobilityRequest request.helper) =
      some ⟨request.trajectory.location, if request.trajectory.offsets = [] then [] else
        request.trajectory.offsets ++
          List.replicate (60 - request.trajectory.offsets.length) ⟨0, 0, 0⟩⟩ := by
  have hstart : hasStart request.helper.startLocationHelper := (hasStart_iff h.start).mpr hknown
  have hlocation : (⟨withinOrZero ECEF_XY_MAX request.trajectory.location.ecefX,
      withinOrZero ECEF_XY_MAX request.trajectory.location.ecefY,
      withinOrZero ECEF_Z_MAX request.trajectory.location.ecefZ,
      request.trajectory.location.timestamp⟩ : LocationECEF) = request.trajectory.location :=
    receivedLocation_eq_iff.mpr h.start
  have htime : readTimestamp (some request.helper.startLocationHelper.timestamp) =
      some request.trajectory.location.timestamp := readTimestamp_set h.startTime
  have hcount := count_eq request
  unfold decodeTrajectory encodeMobilityRequest
  dsimp only
  rw [if_pos hstart, Option.map_some, htime, Option.map_some]
  refine congrArg some ?_
  rw [TrajectoryMsg.mk.injEq]
  refine ⟨hlocation, ?_⟩
  by_cases hnil : request.trajectory.offsets = []
  · rw [hnil] at hcount
    rw [if_pos hnil, if_neg (fun hboth => absurd hboth.2 (by rw [hcount]; decide))]
    exact read_unavailable
  · have hpos : 0 < request.helper.offsets.x.length := by
      have hlength := List.length_pos_iff.mpr hnil
      rw [hcount]
      exact lt_min (by decide) hlength
    have hread := read_request_offsets request.trajectory.offsets
    rw [List.take_of_length_le h.length, map_receivedOffset_eq_iff.mpr h.offsets] at hread
    rw [if_neg hnil, if_pos ⟨hstart, hpos⟩]
    exact hread

theorem trajectory_received {request : MobilityRequest} (h : request.InRange) :
    ∃ received, decodeTrajectory (encodeMobilityRequest request.helper) = some received ∧
      ReceivedTrajectory request.trajectory received := by
  by_cases hknown : IsKnown request.trajectory.location
  · refine ⟨_, decodeTrajectory_known h hknown, ⟨fun _ => rfl, fun _ => ?_, fun _ hcount => ?_,
      fun hunknown => absurd hknown hunknown⟩⟩
    · dsimp only
      split
      · rename_i hnil
        rw [hnil]
      · exact List.prefix_append _ _
    · dsimp only
      split
      · rename_i hnil
        exact hnil.symm
      · rename_i hne
        rcases hcount with hzero | hall
        · exact absurd (List.eq_nil_of_length_eq_zero hzero) hne
        · rw [hall]
          exact List.append_nil _
  · exact ⟨_, decodeTrajectory_unknown h hknown, ⟨fun h' => absurd h' hknown,
      fun h' => absurd h' hknown, fun h' => absurd h' hknown, fun _ => rfl⟩⟩

theorem decodeMobilityRequest_helper {request : MobilityRequest} (h : request.InRange)
    {received : TrajectoryMsg}
    (hreceived : decodeTrajectory (encodeMobilityRequest request.helper) = some received) :
    decodeMobilityRequest (encodeMobilityRequest request.helper) =
      some { request with trajectory := received } := by
  have hheader : readHeader (encodeMobilityRequest request.helper).header =
      some request.header := readHeader_helper h.header
  have hlocation : readLocation (encodeMobilityRequest request.helper).location =
      some request.location := by
    rw [← receivedLocation_eq_iff.mpr h.location]
    exact readLocation_helper h.locationTime
  have hexpiration : readTimestamp (encodeMobilityRequest request.helper).expiration =
      some request.expiration := readTimestamp_optional h.expiration
  have hstrategy : readDynamicLengthString (setRegion (List.replicate 50 0)
      (encodeMobilityRequest request.helper).strategy) = request.strategy :=
    readDynamicLengthString_set h.strategy 50
  have hparams : readDynamicLengthString (setRegion (List.replicate 100 0)
      (encodeMobilityRequest request.helper).strategyParams) = request.strategyParams :=
    readDynamicLengthString_set h.strategyParams 100
  have hplan : BitVec.ofInt 8 (encodeMobilityRequest request.helper).planType =
      request.planType := BitVec.ofInt_toInt
  have hurgency : BitVec.ofInt 16 (encodeMobilityRequest request.helper).urgency =
      request.urgency :=
    (congrArg (BitVec.ofInt 16) (urgency_eq h)).trans BitVec.ofInt_toInt
  unfold decodeMobilityRequest
  rw [hheader, hlocation, hreceived, hexpiration, hstrategy, hparams, hplan, hurgency]
  rfl

/-- Every request in range arrives, as it was but for the trajectory. That has the start and
begins with the offsets of the one that was sent, if its start is known, and is exact where
the offsets are none or 60. -/
theorem requests_arrive_with_the_trajectories_of_known_starts
    (asn : Asn1c TestMessage00 W) (hasn : asn.Faithful TestMessage00.WellFormed)
    {request : MobilityRequest} (h : request.InRange) :
    ∃ encoded received, request.encode asn = some encoded ∧
      MobilityRequest.decode asn encoded = some { request with trajectory := received } ∧
      ReceivedTrajectory request.trajectory received := by
  obtain ⟨encoded, hencode, hdecode⟩ := hasn _ (request_wellFormed h)
  obtain ⟨received, hread, hreceived⟩ := trajectory_received h
  refine ⟨encoded, received, hencode, ?_, hreceived⟩
  unfold MobilityRequest.decode
  rw [hdecode, Option.bind_some]
  exact decodeMobilityRequest_helper h hread

/-- A coder that leaves the structures as they are. -/
def plainCoder : Asn1c TestMessage00 TestMessage00 := ⟨some, some⟩

theorem plainCoder_faithful : plainCoder.Faithful TestMessage00.WellFormed :=
  fun message _ => ⟨message, rfl, rfl⟩

/-- A request to join a platoon, with some trajectory. -/
def joinRequest (strategy strategyParams : Text) (trajectory : TrajectoryMsg) :
    MobilityRequest where
  header := broadcastHeader
  strategy := strategy
  planType := 3
  urgency := 50
  location := ⟨100, -200, 300, 5⟩
  strategyParams := strategyParams
  trajectory := trajectory
  expiration := 1523374180000

theorem joinRequest_inRange {strategy strategyParams : Text} {trajectory : TrajectoryMsg}
    (hstrategy : IsDynamicString STRATEGY_MAX_LENGTH strategy)
    (hparams : IsDynamicString STRATEGY_PARAMS_MAX_LENGTH strategyParams)
    (hstart : LocationInRange trajectory.location)
    (htime : IsTimestamp trajectory.location.timestamp)
    (hlength : trajectory.offsets.length ≤ OFFSETS_LIST_MAX_LENGTH)
    (hoffsets : ∀ o ∈ trajectory.offsets, OffsetInRange o) :
    (joinRequest strategy strategyParams trajectory).InRange where
  header := broadcastHeader_inRange
  strategy := hstrategy
  planType := by
    show 0 ≤ (3 : BitVec 8).toInt ∧ (3 : BitVec 8).toInt ≤ PLATOON_FOLLOWER_JOIN
    decide
  urgency := by
    show URGENCY_MIN ≤ (50 : BitVec 16).toInt ∧ (50 : BitVec 16).toInt ≤ URGENCY_MAX
    decide
  location := show LocationInRange ⟨100, -200, 300, 5⟩ from ⟨by decide, by decide, by decide⟩
  locationTime := show IsTimestamp 5 from ⟨by decide, by decide⟩
  strategyParams := hparams
  start := hstart
  startTime := htime
  length := hlength
  offsets := hoffsets
  expiration := show IsTimestamp 1523374180000 from ⟨by decide, by decide⟩

/-- A trajectory of one step. -/
def oneStep (location : LocationECEF) : TrajectoryMsg := ⟨location, [⟨100, 0, -100⟩]⟩

theorem oneStep_inRange (location : LocationECEF) :
    ∀ o ∈ (oneStep location).offsets, OffsetInRange o := by
  intro o ho
  rw [List.mem_singleton.mp ho]
  exact ⟨by decide, by decide, by decide⟩

theorem a_request_to_join_arrives :
    ∃ encoded received,
      (joinRequest "Carma/Platooning".toList [] (oneStep ⟨1, 2, 3, 4⟩)).encode plainCoder =
        some encoded ∧
      MobilityRequest.decode plainCoder encoded =
        some (joinRequest "Carma/Platooning".toList [] received) ∧
      ReceivedTrajectory (oneStep ⟨1, 2, 3, 4⟩) received :=
  requests_arrive_with_the_trajectories_of_known_starts plainCoder plainCoder_faithful
    (joinRequest_inRange ⟨by decide, by decide, by decide⟩ ⟨by decide, by decide, by decide⟩
      ⟨by decide, by decide, by decide⟩ ⟨by decide, by decide⟩ (by decide) (oneStep_inRange _))

/-- A trajectory that starts at the origin of the frame is not sent, the placeholder of the
empty string is read as one, and a string ends at a NUL. -/
theorem a_trajectory_from_the_origin_is_not_received :
    ((joinRequest "Carma/Platooning".toList [] (oneStep ⟨0, 0, 0, 4⟩)).InRange ∧
      ((joinRequest "Carma/Platooning".toList [] (oneStep ⟨0, 0, 0, 4⟩)).encode plainCoder).bind
        (MobilityRequest.decode plainCoder) =
          some (joinRequest "Carma/Platooning".toList [] ⟨⟨0, 0, 0, 0⟩, []⟩)) ∧
    ((joinRequest "[]".toList [] ⟨⟨0, 0, 0, 0⟩, []⟩).encode plainCoder).bind
      (MobilityRequest.decode plainCoder) = some (joinRequest [] [] ⟨⟨0, 0, 0, 0⟩, []⟩) ∧
    ((joinRequest ['a', Char.ofNat 0] [] ⟨⟨0, 0, 0, 0⟩, []⟩).encode plainCoder).bind
      (MobilityRequest.decode plainCoder) = some (joinRequest ['a'] [] ⟨⟨0, 0, 0, 0⟩, []⟩) := by
  refine ⟨⟨joinRequest_inRange ⟨by decide, by decide, by decide⟩
    ⟨by decide, by decide, by decide⟩ ⟨by decide, by decide, by decide⟩ ⟨by decide, by decide⟩
    (by decide) (oneStep_inRange _), ?_⟩, ?_, ?_⟩
  · decide +kernel
  · decide +kernel
  · decide +kernel

end carma.message
