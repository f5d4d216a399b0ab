-- The conversion of signal phases in the traffic signal plugin: which event of a movement is
-- taken, and the times that remain of it. End times count the seconds of their hour; the time
-- of day is cut to its hour as well, so at the end of an hour the two do not fit together.
import Carma.Lib.BinaryHeap
import Carma.Lib.Narrowing
import Mathlib.Algebra.Order.Floor.Ring
import Mathlib.Data.Rat.Floor
import Mathlib.Tactic.FieldSimp
import Mathlib.Tactic.Positivity

open lib.binary_heap lib.narrowing

namespace carma.traffic_signal_plugin

/-- `TimeChangeDetails`, with times in seconds. -/
structure TimeChangeDetails (K : Type) where
  minEndTime : K
  maxEndTime : Option K
deriving DecidableEq

structure MovementEvent (K : Type) where
  movementPhaseState : ℕ
  timing : Option (TimeChangeDetails K)
deriving DecidableEq

structure MovementState (K : Type) where
  signalGroup : ℕ
  movementEventList : List (MovementEvent K)

/-- The lanes that one lane goes on in, by their signal groups. -/
structure GenericLane where
  laneId : ℤ
  connectToList : Option (List (Option ℕ))

structure IntersectionState (K : Type) where
  revision : ℤ
  id : ℤ
  intersectionStatusObject : ℤ
  movementList : List (MovementState K)

structure IntersectionData (K : Type) where
  laneList : List GenericLane
  intersectionState : Option (IntersectionState K)

structure LaneSet where
  lane : ℤ
  movement : ℕ
deriving DecidableEq

structure Movement (K : Type) where
  laneSets : List LaneSet
  currentState : ℕ
  minTimeRemaining : K
  maxTimeRemaining : K
deriving DecidableEq

/-- A moment, by the milliseconds of its day. -/
structure DateTime where
  millisOfDay : ℕ
  inDay : millisOfDay < 24 * 3600000

def DateTime.hourOfDay (dt : DateTime) : ℕ := dt.millisOfDay / 3600000

structure SpatMessage (K : Type) where
  contentVersion : ℤ
  intersectionId : ℤ
  status : ℤ
  timeStamp : DateTime
  movements : List (Movement K)

def PERMISSIVE_MOVEMENT_ALLOWED : ℕ := 5

def PROTECTED_CLEARANCE : ℕ := 8

def STOP_AND_REMAIN : ℕ := 3

variable {K : Type} [Field K]

/-- The seconds since the start of the hour. -/
def secondInHour (dt : DateTime) : K :=
  ((dt.millisOfDay - dt.hourOfDay * 3600000 : ℤ) : K) / ((1000 : ℕ) : K)

/-- The lanes that a signal group is for, all of them as straight ones. -/
def laneSetsOf (lanes : List GenericLane) (signalGroup : ℕ) : List LaneSet :=
  (lanes.filter fun lane =>
    (lane.connectToList.getD []).any (· == some signalGroup)).map fun lane => ⟨lane.laneId, 1⟩

/-- The switch on the phase; other phases leave the state at 0. -/
def currentStateOf (phase : ℕ) : ℕ :=
  if phase = PERMISSIVE_MOVEMENT_ALLOWED then 1
  else if phase = PROTECTED_CLEARANCE then 2
  else if phase = STOP_AND_REMAIN then 4
  else 0

variable [LinearOrder K]

/-- `Math.max(0.0, endTime - secondInHour)`. -/
def timeRemaining (now : DateTime) (endTime : K) : K := max 0 (endTime - secondInHour now)

variable [FloorRing K]

/-- The comparator of the events. The difference of the end times is cut to an int. -/
def compareEvents (m1 m2 : MovementEvent K) : ℤ :=
  match m1.timing with
  | none => 1
  | some t1 =>
    match m2.timing with
    | none => -1
    | some t2 => saturate 31 (trunc (t1.minEndTime - t2.minEndTime))

def sortedEvents (events : List (MovementEvent K)) : List (MovementEvent K) :=
  events.foldl (offer compareEvents) []

/-- `earliestEvent`; there is none without events. -/
def earliestEvent (events : List (MovementEvent K)) : Option (MovementEvent K) :=
  (sortedEvents events).head?

/-- One movement of the message. -/
def convertMovement (now : DateTime) (lanes : List GenericLane) (movementData : MovementState K) :
    Movement K :=
  let m : Movement K := ⟨laneSetsOf lanes movementData.signalGroup, 0, 0, 0⟩
  match earliestEvent movementData.movementEventList with
  | none => m
  | some event =>
    let m :=
      match event.timing with
      | some ⟨minEndTime, some maxEndTime⟩ =>
        { m with
          maxTimeRemaining := timeRemaining now maxEndTime
          minTimeRemaining := timeRemaining now minEndTime }
      | _ => m
    { m with currentState := currentStateOf event.movementPhaseState }

/-- `convertSpatMessage`; there is no message where it throws. The clock is read for the time
stamp, and then for each movement. -/
def convertSpatMessage (clock : ℕ → DateTime) (data : IntersectionData K) :
    Option (SpatMessage K) :=
  data.intersectionState.map fun state =>
    { contentVersion := state.revision
      intersectionId := state.id
      status := state.intersectionStatusObject
      timeStamp := clock 0
      movements := state.movementList.mapIdx fun i movementData =>
        convertMovement (clock (i + 1)) data.laneList movementData }

/-! ## Times -/

/-- A time as the seconds of its hour. -/
def withinHour (t : K) : K := t - ((3600 : ℕ) : K) * ⌊t / ((3600 : ℕ) : K)⌋

section times

variable [IsStrictOrderedRing K]

theorem withinHour_eq {t : K} {h : ℤ} (hlow : h * ((3600 : ℕ) : K) ≤ t)
    (hhigh : t < (h + 1) * ((3600 : ℕ) : K)) : withinHour t = t - ((3600 : ℕ) : K) * h := by
  have hpos : (0 : K) < ((3600 : ℕ) : K) := by positivity
  have hfloor : ⌊t / ((3600 : ℕ) : K)⌋ = h := by
    rw [Int.floor_eq_iff, le_div_iff₀ hpos, div_lt_iff₀ hpos]
    exact ⟨hlow, hhigh⟩
  rw [withinHour, hfloor]

omit [FloorRing K] in
theorem secondInHour_bounds (now : DateTime) :
    0 ≤ (secondInHour now : K) ∧ (secondInHour now : K) < ((3600 : ℕ) : K) := by
  have hthousand : (0 : K) < ((1000 : ℕ) : K) := by positivity
  unfold secondInHour
  generalize hx : (now.millisOfDay - now.hourOfDay * 3600000 : ℤ) = x
  unfold DateTime.hourOfDay at hx
  have hlow : (0 : K) ≤ x := by exact_mod_cast (by omega : 0 ≤ x)
  have hhigh : (x : K) < (3600000 : ℤ) := Int.cast_lt.mpr (by omega)
  constructor
  · exact div_nonneg hlow hthousand.le
  · rw [div_lt_iff₀ hthousand]
    push_cast at hhigh ⊢
    linarith

theorem timeRemaining_iff (now : DateTime) {remaining : K} (hpos : 0 ≤ remaining)
    (hshort : remaining < ((1800 : ℕ) : K)) :
    timeRemaining now (withinHour (secondInHour now + remaining)) = remaining ↔
      secondInHour now + remaining < ((3600 : ℕ) : K) := by
  obtain ⟨hlow, hhigh⟩ := secondInHour_bounds (K := K) now
  unfold timeRemaining
  by_cases hsame : secondInHour now + remaining < ((3600 : ℕ) : K)
  · have hend := withinHour_eq (t := secondInHour now + remaining) (h := 0)
      (by push_cast at *; linarith) (by push_cast at *; linarith)
    rw [hend]
    apply iff_of_true _ hsame
    rw [Int.cast_zero, mul_zero, sub_zero, add_sub_cancel_left]
    exact max_eq_right hpos
  · have hend := withinHour_eq (t := secondInHour now + remaining) (h := 1)
      (by push_cast at *; linarith) (by push_cast at *; linarith)
    rw [hend]
    apply iff_of_false _ hsame
    push_cast at *
    rw [max_eq_left (by linarith)]
    intro hzero
    linarith

end times

/-! ## The event -/

def MovementEvent.minEnd (e : MovementEvent K) : Option K := e.timing.map (·.minEndTime)

/-- No event with timing ends before this one. -/
def LeastEvent (events : List (MovementEvent K)) (e : MovementEvent K) : Prop :=
  e ∈ events ∧ ∃ t ∈ e.minEnd, ∀ e' ∈ events, ∀ t' ∈ e'.minEnd, t ≤ t'

/-- The event that is chosen is a least one, where there is one with timing. -/
def EarliestIsLeast (events : List (MovementEvent K)) : Prop :=
  (∃ e ∈ events, e.timing ≠ none) → ∀ e ∈ earliestEvent events, LeastEvent events e

/-- A least event is offered to the queue when all events above its place there have no timing,
or end a second or more after it. -/
def LeastRises (events : List (MovementEvent K)) : Prop :=
  (∃ e ∈ events, e.timing ≠ none) → ∃ before e after, events = before ++ e :: after ∧
    LeastEvent events e ∧ Rises compareEvents (sortedEvents before) e

section events

variable [IsStrictOrderedRing K]

theorem saturate_trunc_neg_iff (x : K) : saturate 31 (trunc x) < 0 ↔ x ≤ -1 := by
  unfold saturate trunc
  by_cases hx : 0 ≤ x
  · have hfloor := Int.floor_nonneg.mpr hx
    rw [if_pos hx]
    exact iff_of_false (by omega) (by linarith)
  · rw [if_neg hx]
    have hceil : ⌈x⌉ < 0 ↔ x ≤ -1 := by
      rw [← Int.le_sub_one_iff, Int.ceil_le]
      norm_num
    rw [← hceil]
    omega

/-- The comparator puts an event with timing before another one that has none, or that ends at
least a second later. -/
theorem compareEvents_neg_iff {e e' : MovementEvent K} {t : K} (ht : t ∈ e.minEnd) :
    compareEvents e e' < 0 ↔ ∀ t' ∈ e'.minEnd, t + 1 ≤ t' := by
  obtain ⟨timing, htiming, rfl⟩ := Option.map_eq_some_iff.mp ht
  unfold compareEvents MovementEvent.minEnd
  rw [htiming]
  cases e'.timing with
  | none => simp
  | some timing' =>
    dsimp only
    rw [saturate_trunc_neg_iff]
    simp only [Option.map_some, Option.mem_some_iff, forall_eq']
    constructor <;> intro h <;> linarith

theorem LeastEvent.first {events : List (MovementEvent K)} {e e' : MovementEvent K}
    (h : LeastEvent events e) (he' : e' ∈ events) : 0 ≤ compareEvents e' e := by
  obtain ⟨-, t, ht, hleast⟩ := h
  by_contra hneg
  cases htiming : e'.timing with
  | none =>
    simp [compareEvents, htiming] at hneg
  | some timing =>
    have ht' : timing.minEndTime ∈ e'.minEnd := by simp [MovementEvent.minEnd, htiming]
    have hbefore := (compareEvents_neg_iff ht').mp (by omega) t ht
    have hle := hleast e' he' _ ht'
    linarith

theorem earliestIsLeast_iff (events : List (MovementEvent K)) :
    EarliestIsLeast events ↔ LeastRises events := by
  unfold EarliestIsLeast LeastRises
  apply imp_congr_right
  rintro ⟨e₀, he₀, -⟩
  constructor
  · intro h
    have hperm : (sortedEvents events).Perm events := offers_perm [] events
    obtain ⟨root, hroot⟩ : ∃ root, (sortedEvents events).head? = some root := by
      cases hsorted : sortedEvents events with
      | nil =>
        rw [hsorted] at hperm
        simp [hperm.nil_eq.symm] at he₀
      | cons root rest => exact ⟨root, rfl⟩
    obtain ⟨before, after, hsplit, hrises⟩ := root_rises compareEvents hroot
    exact ⟨before, root, after, hsplit, h root hroot, hrises⟩
  · rintro ⟨before, e, after, hsplit, hleast, hrises⟩ root hroot
    have hstays : earliestEvent events = some e := by
      unfold earliestEvent sortedEvents
      rw [hsplit, List.foldl_append, List.foldl_cons]
      apply root_stays
      · rw [offer_root]
        exact if_pos hrises
      · intro x hx
        apply hleast.first
        rw [hsplit]
        exact List.mem_append_right _ (List.mem_cons_of_mem e hx)
    rw [hstays] at hroot
    cases hroot
    exact hleast

/-- A least event rises wherever end times that differ do so by a second or more. -/
theorem leastRises_of_apart {events : List (MovementEvent K)}
    (h : ∀ e ∈ events, ∀ e' ∈ events, ∀ t ∈ e.minEnd, ∀ t' ∈ e'.minEnd, t < t' → t + 1 ≤ t') :
    LeastRises events := by
  classical
  rintro ⟨e₀, he₀, htiming₀⟩
  have hleast : ∃ e, LeastEvent events e := by
    obtain ⟨ends, hends⟩ : ∃ ends, ends = events.filterMap (·.minEnd) := ⟨_, rfl⟩
    have hmem : ∀ t, t ∈ ends ↔ ∃ e ∈ events, t ∈ e.minEnd := by simp [hends, Option.mem_def]
    obtain ⟨timing, htiming⟩ := Option.ne_none_iff_exists'.mp htiming₀
    have hne : ends ≠ [] := List.ne_nil_of_mem
      ((hmem timing.minEndTime).mpr ⟨e₀, he₀, by simp [MovementEvent.minEnd, htiming]⟩)
    obtain ⟨e, he, ht⟩ := (hmem _).mp (List.min_mem hne)
    refine ⟨e, he, _, ht, ?_⟩
    intro e' he' t' ht'
    exact List.min_le_of_mem ((hmem t').mpr ⟨e', he', ht'⟩)
  obtain ⟨e₁, he₁⟩ := hleast
  obtain ⟨e, hfirst⟩ := Option.isSome_iff_exists.mp
    (List.find?_isSome (p := fun e => decide (LeastEvent events e)).mpr ⟨e₁, he₁.1, by simpa⟩)
  obtain ⟨he, before, after, hsplit, hbefore⟩ := List.find?_eq_some_iff_append.mp hfirst
  have hleast : LeastEvent events e := by simpa using he
  refine ⟨before, e, after, hsplit, hleast, ?_⟩
  obtain ⟨hmem, t, ht, hle⟩ := hleast
  apply aboveAll_of_forall
  intro e' he'
  have hin : e' ∈ events := by
    rw [hsplit]
    exact List.mem_append_left _ ((offers_perm [] before).mem_iff.mp he')
  rw [compareEvents_neg_iff ht]
  intro t' ht'
  apply h e hmem e' hin t ht t' ht'
  apply lt_of_le_of_ne (hle e' hin t' ht')
  rintro rfl
  have hnot := hbefore e' ((offers_perm [] before).mem_iff.mp he')
  simp at hnot
  exact hnot ⟨hin, t, ht', hle⟩

end events

/-! ## The message -/

/-- The times of an event that ends `minRemaining` to `maxRemaining` seconds from now. -/
def endsIn (now : DateTime) (minRemaining maxRemaining : K) : TimeChangeDetails K :=
  ⟨withinHour (secondInHour now + minRemaining),
    some (withinHour (secondInHour now + maxRemaining))⟩

/-- The movement shows the times that remain of the event. -/
def ShowsRemaining (m : Movement K) (minRemaining maxRemaining : K) : Prop :=
  m.minTimeRemaining = minRemaining ∧ m.maxTimeRemaining = maxRemaining

theorem convertMovement_times (now : DateTime) (lanes : List GenericLane)
    {movementData : MovementState K} {event : MovementEvent K} {minEndTime maxEndTime : K}
    (hevent : event ∈ earliestEvent movementData.movementEventList)
    (htiming : event.timing = some ⟨minEndTime, some maxEndTime⟩) :
    ShowsRemaining (convertMovement now lanes movementData) (timeRemaining now minEndTime)
      (timeRemaining now maxEndTime) := by
  unfold convertMovement
  rw [Option.mem_def.mp hevent]
  simp [htiming, ShowsRemaining]

theorem convertSpatMessage_movement {clock : ℕ → DateTime} {data : IntersectionData K}
    {state : IntersectionState K} {message : SpatMessage K}
    (hstate : data.intersectionState = some state)
    (hmessage : convertSpatMessage clock data = some message) {i : ℕ}
    {movementData : MovementState K} (hdata : state.movementList[i]? = some movementData) :
    message.movements[i]? = some (convertMovement (clock (i + 1)) data.laneList movementData) := by
  unfold convertSpatMessage at hmessage
  rw [hstate] at hmessage
  obtain rfl := Option.some.inj hmessage
  simp [hdata]

/-- The times shown are right just when the phase ends before the hour does, and the event shown
is a least one just when a least one rises in the queue. -/
theorem message_is_right_iff [IsStrictOrderedRing K] (clock : ℕ → DateTime)
    (data : IntersectionData K) {state : IntersectionState K} {message : SpatMessage K}
    (hstate : data.intersectionState = some state)
    (hmessage : convertSpatMessage clock data = some message) {i : ℕ}
    {movementData : MovementState K} (hdata : state.movementList[i]? = some movementData) :
    ∃ m, message.movements[i]? = some m ∧
      (∀ event ∈ earliestEvent movementData.movementEventList, ∀ minRemaining maxRemaining : K,
        0 ≤ minRemaining → minRemaining < ((1800 : ℕ) : K) →
        0 ≤ maxRemaining → maxRemaining < ((1800 : ℕ) : K) →
        event.timing = some (endsIn (clock (i + 1)) minRemaining maxRemaining) →
        (ShowsRemaining m minRemaining maxRemaining ↔
          secondInHour (clock (i + 1)) + minRemaining < ((3600 : ℕ) : K) ∧
          secondInHour (clock (i + 1)) + maxRemaining < ((3600 : ℕ) : K))) ∧
      (EarliestIsLeast movementData.movementEventList ↔
        LeastRises movementData.movementEventList) := by
  refine ⟨_, convertSpatMessage_movement hstate hmessage hdata, ?_, earliestIsLeast_iff _⟩
  intro event hevent minRemaining maxRemaining hmin hminShort hmax hmaxShort htiming
  obtain ⟨hshownMin, hshownMax⟩ :=
    convertMovement_times (clock (i + 1)) data.laneList hevent htiming
  unfold ShowsRemaining
  rw [hshownMin, hshownMax, timeRemaining_iff _ hmin hminShort, timeRemaining_iff _ hmax hmaxShort]

theorem message_is_right_before_the_hour :
    ∃ m, ((convertSpatMessage (K := ℚ) (fun _ => ⟨3000000, by decide⟩)
        ⟨[⟨4, some [some 2]⟩], some ⟨1, 9, 0, [⟨2, [⟨3, some ⟨3020, some 3030⟩⟩]⟩]⟩⟩).get
          (by decide)).movements[0]? = some m ∧ ShowsRemaining m 20 30 := by
  obtain ⟨m, hm, htimes, -⟩ := message_is_right_iff (K := ℚ) (fun _ => ⟨3000000, by decide⟩)
    ⟨[⟨4, some [some 2]⟩], some ⟨1, 9, 0, [⟨2, [⟨3, some ⟨3020, some 3030⟩⟩]⟩]⟩⟩
    rfl (Option.some_get (by decide)).symm (i := 0) rfl
  refine ⟨m, hm, ?_⟩
  apply (htimes ⟨3, some ⟨3020, some 3030⟩⟩ rfl 20 30 _ _ _ _ _).mpr <;> decide +kernel

/-- Ten seconds before the hour an event that ends twenty seconds later shows nothing that
remains, and it is shown although another one ends half a second before it. -/
theorem the_next_hour_is_missed :
    (∃ message, convertSpatMessage (K := ℚ) (fun _ => ⟨3590000, by decide⟩)
        ⟨[], some ⟨1, 9, 0, [⟨2, [⟨5, some ⟨10 + 1 / 2, some 11⟩⟩, ⟨5, some ⟨10, some 11⟩⟩]⟩]⟩⟩ =
          some message ∧ message.movements = [⟨[], 1, 0, 0⟩]) ∧
      (⟨10 + 1 / 2, some 11⟩ : TimeChangeDetails ℚ) =
        endsIn ⟨3590000, by decide⟩ (20 + 1 / 2) 21 ∧
      ¬ EarliestIsLeast (K := ℚ) [⟨5, some ⟨10 + 1 / 2, some 11⟩⟩, ⟨5, some ⟨10, some 11⟩⟩] := by
  refine ⟨⟨_, rfl, by decide +kernel⟩, by decide +kernel, ?_⟩
  intro h
  have hshown : earliestEvent (K := ℚ)
      [⟨5, some ⟨10 + 1 / 2, some 11⟩⟩, ⟨5, some ⟨10, some 11⟩⟩] =
        some ⟨5, some ⟨10 + 1 / 2, some 11⟩⟩ := by
    decide +kernel
  obtain ⟨-, t, ht, hleast⟩ := h ⟨_, List.mem_cons_self, by simp⟩ _ hshown
  have hle := hleast ⟨5, some ⟨10, some 11⟩⟩ (by simp) 10 rfl
  obtain rfl := Option.some.inj ht
  norm_num at hle

end carma.traffic_signal_plugin
