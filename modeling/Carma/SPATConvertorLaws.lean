-- What a converted SPAT message has of the message that it was made of: everything, unless
-- some event says when the signal is likely to change.
import Carma.SPATConvertor

namespace carma.spat_convertor

variable {K : Type} [Field K]

/-! ## What a conversion is to give -/

/-- A value that is given stands in its new unit. -/
def Given (flag : Flag) (value expected : K) : Prop := flag ≠ 0 → value = expected

structure ConvertsAdvisorySpeed (in_msg : j2735_msgs.AdvisorySpeed K)
    (out_msg : cav_msgs.AdvisorySpeed K) : Prop where
  type : out_msg.type = in_msg.type
  speed_exists : out_msg.speed_exists = in_msg.speed_exists
  speed : Given in_msg.speed_exists out_msg.speed (in_msg.speed / (10 : ℕ))
  confidence : out_msg.confidence = in_msg.confidence
  distance : out_msg.distance = in_msg.distance
  distance_exists : out_msg.distance_exists = in_msg.distance_exists
  restriction_class_id : out_msg.restriction_class_id = in_msg.restriction_class_id
  restriction_class_id_exists :
    out_msg.restriction_class_id_exists = in_msg.restriction_class_id_exists

/-- The end at the earliest has no flag: it is always there. -/
structure ConvertsTiming (in_msg : j2735_msgs.TimeChangeDetails)
    (out_msg : cav_msgs.TimeChangeDetails K) : Prop where
  start_time_exists : out_msg.start_time_exists = in_msg.start_time_exists
  start_time : Given in_msg.start_time_exists out_msg.start_time
    ((in_msg.start_time.toNat : K) / (10 : ℕ))
  min_end_time : out_msg.min_end_time = (in_msg.min_end_time.toNat : K) / (10 : ℕ)
  max_end_time_exists : out_msg.max_end_time_exists = in_msg.max_end_time_exists
  max_end_time : Given in_msg.max_end_time_exists out_msg.max_end_time
    ((in_msg.max_end_time.toNat : K) / (10 : ℕ))
  likely_time_exists : out_msg.likely_time_exists = in_msg.likely_time_exists
  likely_time : Given in_msg.likely_time_exists out_msg.likely_time
    ((in_msg.likely_time.toNat : K) / (10 : ℕ))
  confidence : out_msg.confidence = in_msg.confidence
  confidence_exists : out_msg.confidence_exists = in_msg.confidence_exists
  next_time_exists : out_msg.next_time_exists = in_msg.next_time_exists
  next_time : Given in_msg.next_time_exists out_msg.next_time
    ((in_msg.next_time.toNat : K) / (10 : ℕ))

structure ConvertsEvent (in_msg : j2735_msgs.MovementEvent K)
    (out_msg : cav_msgs.MovementEvent K) : Prop where
  event_state : out_msg.event_state = in_msg.event_state
  timing_exists : out_msg.timing_exists = in_msg.timing_exists
  timing : ConvertsTiming in_msg.timing out_msg.timing
  speeds_exists : out_msg.speeds_exists = in_msg.speeds_exists
  speeds : List.Forall₂ ConvertsAdvisorySpeed in_msg.advisory_speed_list
    out_msg.advisory_speed_list

structure ConvertsMovement (in_msg : j2735_msgs.MovementState K)
    (out_msg : cav_msgs.MovementState K) : Prop where
  movement_name : out_msg.movement_name = in_msg.movement_name
  movement_name_exists : out_msg.movement_name_exists = in_msg.movement_name_exists
  signal_group : out_msg.signal_group = in_msg.signal_group
  events : List.Forall₂ ConvertsEvent in_msg.movement_event_list out_msg.movement_event_list
  assists : out_msg.connection_maneuver_assist_list = in_msg.connection_maneuver_assist_list
  maneuver_assist_list_exists :
    out_msg.maneuver_assist_list_exists = in_msg.maneuver_assist_list_exists

structure ConvertsIntersection (in_msg : j2735_msgs.IntersectionState K)
    (out_msg : cav_msgs.IntersectionState K) : Prop where
  name : out_msg.name = in_msg.name
  name_exists : out_msg.name_exists = in_msg.name_exists
  id : out_msg.id = in_msg.id
  revision : out_msg.revision = in_msg.revision
  status : out_msg.status = in_msg.status
  moy : out_msg.moy = in_msg.moy
  moy_exists : out_msg.moy_exists = in_msg.moy_exists
  time_stamp_exists : out_msg.time_stamp_exists = in_msg.time_stamp_exists
  time_stamp : Given in_msg.time_stamp_exists out_msg.time_stamp
    ((in_msg.time_stamp.toNat : K) / (1000 : ℕ))
  lanes : out_msg.lane_id_list = in_msg.lane_id_list
  enabled_lanes_exists : out_msg.enabled_lanes_exists = in_msg.enabled_lanes_exists
  movements : List.Forall₂ ConvertsMovement in_msg.movement_list out_msg.movement_list
  assists : out_msg.connection_maneuver_assist_list = in_msg.connection_maneuver_assist_list
  maneuever_assist_list_exists :
    out_msg.maneuever_assist_list_exists = in_msg.maneuever_assist_list_exists

structure Converts (in_msg : j2735_msgs.SPAT K) (out_msg : cav_msgs.SPAT K) : Prop where
  time_stamp : out_msg.time_stamp = in_msg.time_stamp
  time_stamp_exists : out_msg.time_stamp_exists = in_msg.time_stamp_exists
  name : out_msg.name = in_msg.name
  name_exists : out_msg.name_exists = in_msg.name_exists
  intersections : List.Forall₂ ConvertsIntersection in_msg.intersection_state_list
    out_msg.intersection_state_list

/-! ## What it gives -/

@[simp] theorem pushBack_eq {α β : Type} (f : α → β) (out : List β) (l : List α) :
    pushBack f out l = out ++ l.map f := by
  unfold pushBack
  induction l generalizing out with
  | nil => simp
  | cons x l ih => simp [ih]

/-- A list that is converted one by one stands to its result as its elements stand to theirs. -/
theorem forall₂_pushBack {α β : Type} (R : α → β → Prop) (f : α → β) (l : List α) :
    List.Forall₂ R l (pushBack f [] l) ↔ ∀ x ∈ l, R x (f x) := by
  rw [pushBack_eq, List.nil_append, List.forall₂_map_right_iff, List.forall₂_same]

theorem convertAdvisorySpeed_converts (in_msg : j2735_msgs.AdvisorySpeed K)
    (out_msg : cav_msgs.AdvisorySpeed K) :
    ConvertsAdvisorySpeed in_msg (convertAdvisorySpeed in_msg out_msg) where
  type := rfl
  speed_exists := rfl
  speed := fun _ => rfl
  confidence := rfl
  distance := rfl
  distance_exists := rfl
  restriction_class_id := rfl
  restriction_class_id_exists := rfl

variable [LinearOrder K] [IsStrictOrderedRing K] [FloorSemiring K]

theorem uint8_tenth_eq_iff (flag : Flag) :
    uint8 ((flag.toNat : K) / units.DECA_S_PER_S) = flag ↔ flag = 0 := by
  have hlt := flag.toNat_lt
  unfold uint8 units.DECA_S_PER_S
  rw [Nat.floor_div_eq_div, ← UInt8.toNat_inj, ← UInt8.toNat_inj, UInt8.toNat_ofNat']
  simp only [UInt8.toNat_zero]
  omega

theorem convertTimeChangeDetails_iff (in_msg : j2735_msgs.TimeChangeDetails)
    (out_msg : cav_msgs.TimeChangeDetails K) :
    ConvertsTiming in_msg (convertTimeChangeDetails in_msg out_msg) ↔
      in_msg.likely_time_exists = 0 := by
  rw [← uint8_tenth_eq_iff (K := K)]
  constructor
  · intro h
    exact h.likely_time_exists
  · intro h
    have hnone := (uint8_tenth_eq_iff in_msg.likely_time_exists).mp h
    exact {
      start_time_exists := rfl
      start_time := fun _ => rfl
      min_end_time := rfl
      max_end_time_exists := rfl
      max_end_time := fun _ => rfl
      likely_time_exists := h
      likely_time := fun hgiven => absurd hnone hgiven
      confidence := rfl
      confidence_exists := rfl
      next_time_exists := rfl
      next_time := fun _ => rfl }

theorem convertMovementEvent_iff (in_msg : j2735_msgs.MovementEvent K) :
    ConvertsEvent in_msg (convertMovementEvent in_msg {}) ↔
      in_msg.timing.likely_time_exists = 0 := by
  rw [← convertTimeChangeDetails_iff in_msg.timing ({} : cav_msgs.TimeChangeDetails K)]
  constructor
  · intro h
    exact h.timing
  · intro h
    have hspeeds : List.Forall₂ ConvertsAdvisorySpeed in_msg.advisory_speed_list
        (pushBack (fun speed => convertAdvisorySpeed speed {}) [] in_msg.advisory_speed_list) := by
      rw [forall₂_pushBack]
      intro speed _
      exact convertAdvisorySpeed_converts speed {}
    exact ⟨rfl, rfl, h, rfl, hspeeds⟩

/-- No event of a movement says when the signal is likely to change. -/
def NoLikelyTime (in_msg : j2735_msgs.MovementState K) : Prop :=
  ∀ event ∈ in_msg.movement_event_list, event.timing.likely_time_exists = 0

theorem convertMovementState_iff (in_msg : j2735_msgs.MovementState K) :
    ConvertsMovement in_msg (convertMovementState in_msg {}) ↔ NoLikelyTime in_msg := by
  have hevents : List.Forall₂ ConvertsEvent in_msg.movement_event_list
      (convertMovementState in_msg {}).movement_event_list ↔ NoLikelyTime in_msg := by
    unfold NoLikelyTime
    simp only [convertMovementState, forall₂_pushBack, convertMovementEvent_iff]
  rw [← hevents]
  constructor
  · intro h
    exact h.events
  · intro h
    exact ⟨rfl, rfl, rfl, h, rfl, rfl⟩

theorem convertIntersectionState_iff (in_msg : j2735_msgs.IntersectionState K) :
    ConvertsIntersection in_msg (convertIntersectionState in_msg {}) ↔
      ∀ movement ∈ in_msg.movement_list, NoLikelyTime movement := by
  have hmovements : List.Forall₂ ConvertsMovement in_msg.movement_list
      (convertIntersectionState in_msg {}).movement_list ↔
        ∀ movement ∈ in_msg.movement_list, NoLikelyTime movement := by
    simp only [convertIntersectionState, forall₂_pushBack, convertMovementState_iff]
  rw [← hmovements]
  constructor
  · intro h
    exact h.movements
  · intro h
    exact {
      name := rfl
      name_exists := rfl
      id := rfl
      revision := rfl
      status := rfl
      moy := rfl
      moy_exists := rfl
      time_stamp_exists := rfl
      time_stamp := fun _ => rfl
      lanes := rfl
      enabled_lanes_exists := rfl
      movements := h
      assists := rfl
      maneuever_assist_list_exists := rfl }

/-- A message is converted list for list, flag for flag and value for value just when no
event in it says when its signal is likely to change. -/
theorem convert_converts_iff (in_msg : j2735_msgs.SPAT K) :
    Converts in_msg (convert in_msg {}) ↔
      ∀ state ∈ in_msg.intersection_state_list, ∀ movement ∈ state.movement_list,
        ∀ event ∈ movement.movement_event_list, event.timing.likely_time_exists = 0 := by
  have hstates : List.Forall₂ ConvertsIntersection in_msg.intersection_state_list
      (convert in_msg {}).intersection_state_list ↔
        ∀ state ∈ in_msg.intersection_state_list, ∀ movement ∈ state.movement_list,
          NoLikelyTime movement := by
    simp only [convert, forall₂_pushBack, convertIntersectionState_iff]
  unfold NoLikelyTime at hstates
  rw [← hstates]
  constructor
  · intro h
    exact h.intersections
  · intro h
    exact ⟨rfl, rfl, rfl, rfl, h⟩

/-! ## A message that loses a time -/

/-- The signal changes between 20 and 30 seconds, most likely at 25. -/
def likelyTiming : j2735_msgs.TimeChangeDetails where
  start_time := 0
  start_time_exists := 0
  min_end_time := 200
  max_end_time := 300
  max_end_time_exists := 1
  likely_time := 250
  likely_time_exists := 1
  confidence := 0
  confidence_exists := 0
  next_time := 0
  next_time_exists := 0

/-- One intersection with one signal that has one event with this timing. -/
def oneEvent (timing : j2735_msgs.TimeChangeDetails) : j2735_msgs.SPAT ℚ :=
  ⟨0, 0, "", 0, [⟨"", 0, ⟨0, 0, 1⟩, 0, 0, 0, 0, 0, 0, [], 0,
    [⟨"", 0, 1, [⟨3, timing, 1, [], 0⟩], [], 0⟩], [], 0⟩]⟩

theorem convert_oneEvent :
    Converts (oneEvent { likelyTiming with likely_time_exists := 0 })
      (convert (oneEvent { likelyTiming with likely_time_exists := 0 }) {}) :=
  (convert_converts_iff _).mpr (by simp [oneEvent])

theorem a_likely_time_is_not_converted :
    ¬ ∀ in_msg : j2735_msgs.SPAT ℚ, Converts in_msg (convert in_msg {}) := by
  intro h
  have hstate := (h (oneEvent likelyTiming)).intersections
  simp only [oneEvent, convert, pushBack_eq, List.map_cons, List.map_nil, List.nil_append,
    List.forall₂_cons] at hstate
  have hmovement := (convertIntersectionState_iff _).mp hstate.1
  have hflag := hmovement _ List.mem_cons_self _ List.mem_cons_self
  exact absurd hflag (by decide)

end carma.spat_convertor
