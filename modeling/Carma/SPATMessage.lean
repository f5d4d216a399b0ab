-- `SPATMessage.java` and `decodeSPAT` of `wrapper.c`: the states of one intersection go from
-- the structure of the decoder into rows of ints, nine for each movement event, and from
-- these into the message. Its fields are unsigned, as those of a MAP message.
import Carma.MapMessage
import Mathlib.Data.List.Forall2

open lib.records
open carma.map_message

namespace carma.spat_message

/-! ## The structure of the decoder -/

/-- Tenths of a second in the hour, up to 36001. -/
abbrev TimeMark := BitVec 16

inductive MovementPhaseState
  | unavailable
  | dark
  | stop_Then_Proceed
  | stop_And_Remain
  | pre_Movement
  | permissive_Movement_Allowed
  | protected_Movement_Allowed
  | permissive_clearance
  | protected_clearance
  | caution_Conflicting_Traffic

/-- The number of a phase, in the decoder's structure and in the message. -/
def MovementPhaseState.value : MovementPhaseState → BitVec 8
  | unavailable => 0
  | dark => 1
  | stop_Then_Proceed => 2
  | stop_And_Remain => 3
  | pre_Movement => 4
  | permissive_Movement_Allowed => 5
  | protected_Movement_Allowed => 6
  | permissive_clearance => 7
  | protected_clearance => 8
  | caution_Conflicting_Traffic => 9

structure TimeChangeDetails_t where
  startTime : Option TimeMark
  minEndTime : TimeMark
  maxEndTime : Option TimeMark
  likelyTime : Option TimeMark
  confidence : Option (BitVec 4)
  nextTime : Option TimeMark

structure MovementEvent_t where
  eventState : MovementPhaseState
  timing : Option TimeChangeDetails_t

structure MovementState_t where
  signalGroup : BitVec 8
  state_time_speed : List MovementEvent_t
  state_time_speed_size : state_time_speed.length ≤ 16

structure IntersectionState_t where
  id : BitVec 16
  revision : BitVec 7
  moy : Option Jint
  timeStamp : Option (BitVec 16)
  states : List MovementState_t
  states_size : states.length ≤ 255

structure SPAT_t where
  timeStamp : Option Jint
  intersections : List IntersectionState_t
  intersections_size : intersections ≠ []

/-! ## The arrays -/

/-- A value that may be absent, and the int that says whether it is there. -/
def putOptional (row : IntArray) (k : ℕ) (value : Option TimeMark) : IntArray :=
  match value with
  | some v => Function.update (Function.update row k (v.setWidth 32)) (k + 1) 1
  | none => Function.update row (k + 1) 0

/-- Nine ints of a row. They have no place for the likely time and the confidence. -/
def writeEvent (row : IntArray) (j : ℕ) (e : MovementEvent_t) : IntArray :=
  let row := Function.update row (j * 9 + 1) (e.eventState.value.setWidth 32)
  match e.timing with
  | some timing =>
    let row := Function.update row (j * 9 + 9) 1
    let row := putOptional row (j * 9 + 2) timing.startTime
    let row := Function.update row (j * 9 + 4) (timing.minEndTime.setWidth 32)
    let row := putOptional row (j * 9 + 5) timing.maxEndTime
    putOptional row (j * 9 + 7) timing.nextTime
  | none => Function.update row (j * 9 + 9) 0

def writeState (rows : ℕ → IntArray) (i : ℕ) (s : MovementState_t) : ℕ → IntArray :=
  Function.update rows i
    (writeFrom writeEvent 0 s.state_time_speed
      (Function.update (rows i) 0 (s.signalGroup.setWidth 32)))

/-- The ints for the first intersection. -/
def intersectionData (m : SPAT_t) (i : IntersectionState_t) : IntArray
  | 0 => m.timeStamp.getD 0
  | 1 => if m.timeStamp.isSome then 1 else 0
  | 2 => i.id.setWidth 32
  | 3 => i.revision.setWidth 32
  | 4 => i.moy.getD 0
  | 5 => if i.moy.isSome then 1 else 0
  | 6 => (i.timeStamp.map fun t => t.setWidth 32).getD 0
  | 7 => if i.timeStamp.isSome then 1 else 0
  | _ => 0

/-- The arrays of Java after `decodeSPAT`. All 255 rows are set. -/
def decodeSPAT (m : SPAT_t) : IntArray × (ℕ → IntArray) :=
  let intersection := m.intersections.head m.intersections_size
  let statesData := writeFrom writeState 0 intersection.states fun _ _ => -1
  (setIntArrayRegion (fun _ => 0) 8 (intersectionData m intersection),
    fun i => if i < 255 then setIntArrayRegion (fun _ => 0) 145 (statesData i) else fun _ => 0)

/-! ## The message -/

structure TimeChangeDetails where
  start_time : Option (BitVec 16)
  min_end_time : BitVec 16
  max_end_time : Option (BitVec 16)
  likely_time : Option (BitVec 16)
  confidence : Option (BitVec 8)
  next_time : Option (BitVec 16)
deriving DecidableEq

structure MovementEvent where
  event_state : BitVec 8
  timing : Option TimeChangeDetails
deriving DecidableEq

structure MovementState where
  signal_group : BitVec 8
  movement_event_list : List MovementEvent
deriving DecidableEq

structure IntersectionState where
  id : BitVec 16
  revision : BitVec 8
  moy : Option Jint
  time_stamp : Option Jint
  movement_list : List MovementState

structure SPAT where
  time_stamp : Option Jint
  intersection : IntersectionState

/-- A value, if the int behind it says that it is there. -/
def readOptional (row : IntArray) (k : ℕ) : Option (BitVec 16) :=
  if row (k + 1) = 1 then some ((row k).setWidth 16) else none

def readEvent (row : IntArray) (j : ℕ) : Option MovementEvent :=
  if row (j * 9 + 1) = -1 then none
  else
    some
      { event_state := (row (j * 9 + 1)).setWidth 8
        timing :=
          if row (j * 9 + 9) = 1 then
            some
              { start_time := readOptional row (j * 9 + 2)
                min_end_time := (row (j * 9 + 4)).setWidth 16
                max_end_time := readOptional row (j * 9 + 5)
                likely_time := none
                confidence := none
                next_time := readOptional row (j * 9 + 7) }
          else none }

def readState (rows : ℕ → IntArray) (i : ℕ) : Option MovementState :=
  if rows i 0 = -1 then none
  else some ⟨(rows i 0).setWidth 8, readFrom readEvent (rows i) 16 0⟩

/-- `decode`, of what the decoder has made of the bytes. -/
def decode (m : SPAT_t) : SPAT :=
  let (data, rows) := decodeSPAT m
  { time_stamp := if data 1 = 1 then some (data 0) else none
    intersection :=
      { id := (data 2).setWidth 16
        revision := (data 3).setWidth 8
        moy := if data 5 = 1 then some (data 4) else none
        time_stamp := if data 7 = 1 then some (data 6) else none
        movement_list := readFrom readState rows 255 0 } }

/-! ## What is received -/

/-- What comes out for the timing of an event. -/
def receivedTiming (t : TimeChangeDetails_t) : TimeChangeDetails where
  start_time := t.startTime
  min_end_time := t.minEndTime
  max_end_time := t.maxEndTime
  likely_time := none
  confidence := none
  next_time := t.nextTime

def receivedEvent (e : MovementEvent_t) : MovementEvent :=
  ⟨e.eventState.value, e.timing.map receivedTiming⟩

def receivedState (s : MovementState_t) : MovementState :=
  ⟨s.signalGroup, s.state_time_speed.map receivedEvent⟩

theorem putOptional_other (row : IntArray) {k l : ℕ} (value : Option TimeMark) (hk : l ≠ k)
    (hk' : l ≠ k + 1) : putOptional row k value l = row l := by
  cases value <;> simp [putOptional, Function.update_of_ne, hk, hk']

theorem readOptional_putOptional (row : IntArray) (k : ℕ) (value : Option TimeMark) :
    readOptional (putOptional row k value) k = value := by
  cases value with
  | none => simp [readOptional, putOptional]
  | some v => simp [readOptional, putOptional]

theorem readOptional_update (row : IntArray) {k l : ℕ} (v : Jint) (hk : k ≠ l) (hk' : k + 1 ≠ l) :
    readOptional (Function.update row l v) k = readOptional row k := by
  simp [readOptional, Function.update_of_ne, hk, hk']

theorem readOptional_other (row : IntArray) {k l : ℕ} (value : Option TimeMark)
    (h : k + 1 < l ∨ l + 1 < k) :
    readOptional (putOptional row l value) k = readOptional row k := by
  simp (disch := omega) [readOptional, putOptional_other]

/-- An event touches only its own nine places. -/
theorem writeEvent_other (row : IntArray) {j k : ℕ} (e : MovementEvent_t)
    (hk : k < j * 9 + 1 ∨ j * 9 + 9 < k) : writeEvent row j e k = row k := by
  unfold writeEvent
  cases e.timing with
  | none => simp (disch := omega) [Function.update_of_ne]
  | some timing => simp (disch := omega) [Function.update_of_ne, putOptional_other]

theorem readEvent_congr {row row' : IntArray} {j : ℕ}
    (h : ∀ k, j * 9 + 1 ≤ k → k ≤ j * 9 + 9 → row k = row' k) : readEvent row j = readEvent row' j := by
  unfold readEvent readOptional
  simp (disch := omega) only [h]

theorem keepsEvents : Keeps (fun row j => row (j * 9 + 1) = (-1 : Jint)) writeEvent readEvent
    receivedEvent where
  read_blank h := by simp [readEvent, h]
  read_own e _ := by
    have hstate := setWidth_ne_minusOne (by decide) e.eventState.value
    unfold readEvent writeEvent receivedEvent
    cases e.timing with
    | none =>
      simp (disch := omega) [Function.update_of_ne]
      exact hstate
    | some t =>
      simp (disch := omega) [Function.update_of_ne, putOptional_other, readOptional_putOptional,
        readOptional_update, readOptional_other, receivedTiming]
      exact hstate
  read_other e hij := readEvent_congr fun k hk hk' => writeEvent_other _ e (by omega)
  blank_other e hij h := by
    rwa [writeEvent_other _ e (by omega)]

theorem keepsStates : Keeps (fun rows i => rows i = fun _ => (-1 : Jint)) writeState readState
    receivedState where
  read_blank h := by simp [readState, h]
  read_own s h := by
    have hgroup := setWidth_ne_minusOne (by decide) s.signalGroup
    have hfirst := writeFrom_frame writeEvent (fun row => row 0)
      (fun row j e => writeEvent_other row e (by omega)) s.state_time_speed
    have hevents := keepsEvents.readFrom_writeFrom (j := 0)
      (a := Function.update (fun _ => -1) 0 (s.signalGroup.setWidth 32)) s.state_time_speed_size
      fun i _ => by simp
    unfold readState writeState receivedState
    rw [Function.update_self, h, hfirst, Function.update_self, if_neg hgroup, hevents]
    simp
  read_other s hij := by
    unfold readState writeState
    rw [Function.update_of_ne hij]
  blank_other s hij h := by
    unfold writeState
    rwa [Function.update_of_ne hij]

theorem readState_congr {rows rows' : ℕ → IntArray} {i : ℕ}
    (h : ∀ k < 145, rows i k = rows' i k) : readState rows i = readState rows' i := by
  have hevents : readFrom readEvent (rows i) 16 0 = readFrom readEvent (rows' i) 16 0 := by
    apply readFrom_congr
    intro j hj
    exact readEvent_congr fun k _ hk => h k (by omega)
  unfold readState
  rw [h 0 (by decide), hevents]

theorem decode_states (m : SPAT_t) : (decode m).intersection.movement_list =
    (m.intersections.head m.intersections_size).states.map receivedState := by
  set states := (m.intersections.head m.intersections_size).states with hstates
  have hrow : ∀ i < 255, ∀ k < 145,
      (decodeSPAT m).2 i k = writeFrom writeState 0 states (fun _ _ => -1) i k := by
    intro i hi k hk
    unfold decodeSPAT
    dsimp only
    rw [if_pos hi, setIntArrayRegion_lt hk]
  show readFrom readState (decodeSPAT m).2 255 0 = _
  rw [readFrom_congr fun i hi => readState_congr (hrow i (by omega))]
  exact keepsStates.readFrom_writeFrom (m.intersections.head m.intersections_size).states_size
    fun _ _ => rfl

/-! ## What is kept -/

/-- A timing keeps its times but the likely one, which is marked absent with its confidence. -/
structure TimingReceived (t : TimeChangeDetails_t) (r : TimeChangeDetails) : Prop where
  start_time : r.start_time = t.startTime
  min_end_time : r.min_end_time = t.minEndTime
  max_end_time : r.max_end_time = t.maxEndTime
  next_time : r.next_time = t.nextTime
  likely_time : r.likely_time = none
  confidence : r.confidence = none

structure EventReceived (e : MovementEvent_t) (r : MovementEvent) : Prop where
  event_state : r.event_state = e.eventState.value
  timing : Option.Rel TimingReceived e.timing r.timing

structure StateReceived (s : MovementState_t) (r : MovementState) : Prop where
  signal_group : r.signal_group = s.signalGroup
  events : List.Forall₂ EventReceived s.state_time_speed r.movement_event_list

theorem receivedEvent_received (e : MovementEvent_t) : EventReceived e (receivedEvent e) where
  event_state := rfl
  timing := by
    unfold receivedEvent
    cases e.timing with
    | none => exact .none
    | some t => exact .some ⟨rfl, rfl, rfl, rfl, rfl, rfl⟩

/-- All movement states of the first intersection are received, in their order. -/
theorem movement_states_are_received (m : SPAT_t) :
    List.Forall₂ StateReceived (m.intersections.head m.intersections_size).states
      (decode m).intersection.movement_list := by
  rw [decode_states]
  refine List.forall₂_map_right_iff.mpr (List.forall₂_same.mpr fun s _ => ⟨rfl, ?_⟩)
  exact List.forall₂_map_right_iff.mpr (List.forall₂_same.mpr fun e _ => receivedEvent_received e)

/-- An event with all of its timing. -/
def EventWhole (e : MovementEvent_t) (r : MovementEvent) : Prop :=
  r.event_state = e.eventState.value ∧
    r.timing = e.timing.map fun t =>
      ⟨t.startTime, t.minEndTime, t.maxEndTime, t.likelyTime, t.confidence.map fun c => c.setWidth 8,
        t.nextTime⟩

/-- A green that likely ends at 35990, in the last second of the hour. -/
def likelyGreen : MovementEvent_t :=
  ⟨.protected_Movement_Allowed, some ⟨none, 35000, some 36001, some 35990, some 15, none⟩⟩

def oneState : IntersectionState_t where
  id := 40000
  revision := 3
  moy := none
  timeStamp := none
  states := [⟨200, [likelyGreen], by decide⟩]
  states_size := by decide

/-- A structure with the same intersection twice. -/
def twoStates : SPAT_t := ⟨none, [oneState, oneState], by decide⟩

/-- The likely time is not received, and the second intersection is not either. -/
theorem a_likely_time_is_lost :
    (decode twoStates).intersection.movement_list =
        [⟨200, [⟨6, some ⟨none, 35000, some 36001, none, none, none⟩⟩]⟩] ∧
      ¬ EventWhole likelyGreen ⟨6, some ⟨none, 35000, some 36001, none, none, none⟩⟩ ∧
      (twoStates.intersections.flatMap fun i => i.states).length = 2 := by
  refine ⟨decode_states twoStates, ?_, rfl⟩
  intro h
  exact absurd h.2 (by decide)

end carma.spat_message
