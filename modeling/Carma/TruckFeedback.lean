-- The feedback messages of the truck: PropB_11, PropB_20, PropB_21 and PropB_27 are read as
-- PropB_12 is. The values of a frame are taken when its checksum and its counter pass, its
-- counter is taken always. So a corrupted frame decides on the frames after it.
import Carma.TruckTypes
import Mathlib.Data.List.Induction
import Carma.TruckTypeLaws

open lib.crc
open lib.exact_double

namespace carma.truck

inductive RoboticModeState
  | Manual_Mode
  | Robotic_Mode
  | Degraded_Robotic_Mode
  | Robotic_Throttle_Override
deriving DecidableEq

/-- The cast of two bits. -/
def RoboticModeState.ofValue (bits : ℕ) : RoboticModeState :=
  match bits with
  | 0 => Manual_Mode
  | 1 => Robotic_Mode
  | 2 => Degraded_Robotic_Mode
  | _ => Robotic_Throttle_Override

inductive AxiomaticHealthStatus
  | Module_OK
  | Module_Fault
  | Module_Comms_Lost
  | No_Change
deriving DecidableEq

def AxiomaticHealthStatus.ofValue (bits : ℕ) : AxiomaticHealthStatus :=
  match bits with
  | 0 => Module_OK
  | 1 => Module_Fault
  | 2 => Module_Comms_Lost
  | _ => No_Change

def EngineBrakeMsgModeCmd.ofValue (bits : ℕ) : EngineBrakeMsgModeCmd :=
  match bits with
  | 0 => Pass_Through
  | 1 => Torc_Bypass
  | 2 => Error
  | _ => No_Change

def EngineBrakeCmd.ofValue (bits : ℕ) : EngineBrakeCmd :=
  match bits with
  | 0 => Disable_Engine_Braking
  | 1 => Enable_Engine_Braking
  | 2 => Error
  | _ => No_Change

def EngineBrakeLevelCmd.ofValue (bits : ℕ) : EngineBrakeLevelCmd :=
  match bits with
  | 0 => Low_Level
  | 1 => Medium_Level
  | 2 => High_Level
  | _ => No_Change

/-! ## A feedback message -/

/-- A feedback message: its values, and what every message has beside them. -/
structure Feedback (V : Type) where
  values : V
  rolling_counter : Byte
  check_value : Byte
  is_valid : Bool

/-- `setData`, for a message of this size with these values. -/
def Feedback.setData {V : Type} (size : ℕ) (decode : List Byte → V) (crc8 : List Byte → Byte)
    (m : Feedback V) (data : List Byte) : Feedback V :=
  let is_valid := checkMessageCrc crc8 data size && checkMessageCounter data size m.rolling_counter
  { is_valid := is_valid
    values := if is_valid then decode data else m.values
    rolling_counter := msgCount data size
    check_value := data.getD (size - 1) 0 }

/-- A byte of a frame as an `int`. -/
def byteAt (data : List Byte) (i : ℕ) : ℕ := (data.getD i 0).toNat

section Messages

variable {K : Type} [Field K]

structure PropB_11_Values (K : Type) where
  generated_accel_pedal_percentage : K
  expected_accel_pedal_percentage : K
  physical_accel_pedal_percentage : K
  robotic_mode_state_status : RoboticModeState
  reserved_propb_11 : ℕ

abbrev PropB_11_Message (K : Type) := Feedback (PropB_11_Values K)

def propb_11_size : ℕ := 8

def PropB_11_Values.decode (data : List Byte) : PropB_11_Values K where
  generated_accel_pedal_percentage := (wordAt data 0 : K) * (1 / (40 : ℕ))
  expected_accel_pedal_percentage := (wordAt data 2 : K) * (1 / (40 : ℕ))
  physical_accel_pedal_percentage := (wordAt data 4 : K) * (1 / (40 : ℕ))
  robotic_mode_state_status := .ofValue (byteAt data 6 &&& 0x03)
  reserved_propb_11 := (byteAt data 6 >>> 2) &&& 0x03

def PropB_11_Message.setData (crc8 : List Byte → Byte) (m : PropB_11_Message K)
    (data : List Byte) : PropB_11_Message K :=
  Feedback.setData propb_11_size PropB_11_Values.decode crc8 m data

/-- The values of PropB_20 and of PropB_21. -/
structure BrakeValues (K : Type) where
  system_air_pressure : K
  robotic_truck_applied_brake_pressure : K
  robotic_trailer_applied_brake_pressure : K
  cmd_brake_application_level : K
  reserved : ℕ
  axiomatic_health_status : AxiomaticHealthStatus

/-- What both read from a frame, in two copies of these lines. The fifth byte is multiplied
by its mask in the trailer pressure. -/
def BrakeValues.decode (data : List Byte) : BrakeValues K where
  system_air_pressure :=
    ((byteAt data 0 + ((byteAt data 1 &&& 0x0F) <<< 8) : ℕ) : K) * (1 / (20 : ℕ))
  robotic_truck_applied_brake_pressure :=
    ((((byteAt data 1 >>> 4) &&& 0x0F) + (byteAt data 2 <<< 4) : ℕ) : K) * (1 / (20 : ℕ))
  robotic_trailer_applied_brake_pressure :=
    ((byteAt data 3 + ((byteAt data 4 * 0x0F) <<< 8) : ℕ) : K) * (1 / (20 : ℕ))
  cmd_brake_application_level :=
    ((((byteAt data 4 >>> 4) &&& 0x0F) + ((byteAt data 5 &&& 0x3F) <<< 4) : ℕ) : K) *
      (1 / (10 : ℕ))
  reserved := ((byteAt data 5 >>> 6) &&& 0x3) + ((byteAt data 6 &&& 0x03) <<< 2)
  axiomatic_health_status := .ofValue ((byteAt data 6 >>> 2) &&& 0x03)

abbrev PropB_20_Message (K : Type) := Feedback (BrakeValues K)

def propb_20_size : ℕ := 8

def PropB_20_Message.setData (crc8 : List Byte → Byte) (m : PropB_20_Message K)
    (data : List Byte) : PropB_20_Message K :=
  Feedback.setData propb_20_size BrakeValues.decode crc8 m data

abbrev PropB_21_Message (K : Type) := Feedback (BrakeValues K)

def propb_21_size : ℕ := 8

def PropB_21_Message.setData (crc8 : List Byte → Byte) (m : PropB_21_Message K)
    (data : List Byte) : PropB_21_Message K :=
  Feedback.setData propb_21_size BrakeValues.decode crc8 m data

end Messages

structure PropB_27_Values where
  engine_brake_msg_mode_feedback : EngineBrakeMsgModeCmd
  generated_engine_brake_command : EngineBrakeCmd
  expected_engine_brake_command : EngineBrakeCmd
  physical_engine_brake_command : EngineBrakeCmd
  generated_engine_brake_level_command : EngineBrakeLevelCmd
  expected_engine_brake_level_command : EngineBrakeLevelCmd
  physical_engine_brake_level_command : EngineBrakeLevelCmd
  reserved_propb_27 : ℕ

abbrev PropB_27_Message := Feedback PropB_27_Values

def propb_27_size : ℕ := 4

def PropB_27_Values.decode (data : List Byte) : PropB_27_Values where
  engine_brake_msg_mode_feedback := .ofValue (byteAt data 0 &&& 0x03)
  generated_engine_brake_command := .ofValue ((byteAt data 0 >>> 2) &&& 0x03)
  expected_engine_brake_command := .ofValue ((byteAt data 0 >>> 4) &&& 0x03)
  physical_engine_brake_command := .ofValue ((byteAt data 0 >>> 6) &&& 0x03)
  generated_engine_brake_level_command := .ofValue (byteAt data 1 &&& 0x03)
  expected_engine_brake_level_command := .ofValue ((byteAt data 1 >>> 2) &&& 0x03)
  physical_engine_brake_level_command := .ofValue ((byteAt data 1 >>> 4) &&& 0x03)
  reserved_propb_27 := ((byteAt data 1 >>> 6) &&& 0x03) + ((byteAt data 2 &&& 0x0F) <<< 2)

def PropB_27_Message.setData (crc8 : List Byte → Byte) (m : PropB_27_Message)
    (data : List Byte) : PropB_27_Message :=
  Feedback.setData propb_27_size PropB_27_Values.decode crc8 m data

/-! ## Corrupted frames -/

/-- At any time of a run the values are those of the run without the frames that fail their
checksum. -/
def CorruptedHaveNoEffect {M V : Type} (setData : M → List Byte → M) (values : M → V)
    (passes : List Byte → Bool) (m : M) (frames : List (List Byte)) : Prop :=
  ∀ taken, taken <+: frames →
    values (taken.foldl setData m) = values ((taken.filter passes).foldl setData m)

/-- The counter after some frames: that of the last one. -/
def lastCount (size : ℕ) (counter : Byte) (frames : List (List Byte)) : Byte :=
  match frames.getLast? with
  | some data => msgCount data size
  | none => counter

/-- Every frame that passes its checksum has a counter that passes after the frame before it
just when it passes after the last frame whose checksum passes, or carries what is held
already. -/
def CountersAgree {M V : Type} (setData : M → List Byte → M) (values : M → V)
    (decode : List Byte → V) (size : ℕ) (passes : List Byte → Bool) (m : M) (counter : Byte)
    (frames : List (List Byte)) : Prop :=
  ∀ taken data rest, frames = taken ++ data :: rest → passes data →
    checkMessageCounter data size (lastCount size counter taken) =
        checkMessageCounter data size (lastCount size counter (taken.filter passes)) ∨
      decode data = values (taken.foldl setData m)

section Run

variable {V : Type} (size : ℕ) (decode : List Byte → V) (crc8 : List Byte → Byte)

theorem setData_values (m : Feedback V) (data : List Byte) :
    (m.setData size decode crc8 data).values =
      if checkMessageCrc crc8 data size ∧ checkMessageCounter data size m.rolling_counter then
        decode data
      else m.values := by
  simp [Feedback.setData]

theorem feed_counter (m : Feedback V) (frames : List (List Byte)) :
    (frames.foldl (Feedback.setData size decode crc8) m).rolling_counter =
      lastCount size m.rolling_counter frames := by
  induction frames using List.reverseRecOn with
  | nil => rfl
  | append_singleton frames data _ =>
    simp [List.foldl_append, lastCount, Feedback.setData]

/-- One more frame, after frames that left the same values with and without the corrupted
ones. -/
theorem feed_snoc_iff {m : Feedback V} {taken : List (List Byte)} {data : List Byte}
    (hpass : checkMessageCrc crc8 data size)
    (hsame : (taken.foldl (Feedback.setData size decode crc8) m).values =
      ((taken.filter fun data => checkMessageCrc crc8 data size).foldl
        (Feedback.setData size decode crc8) m).values) :
    ((taken ++ [data]).foldl (Feedback.setData size decode crc8) m).values =
        (((taken ++ [data]).filter fun data => checkMessageCrc crc8 data size).foldl
          (Feedback.setData size decode crc8) m).values ↔
      checkMessageCounter data size (lastCount size m.rolling_counter taken) =
          checkMessageCounter data size (lastCount size m.rolling_counter
            (taken.filter fun data => checkMessageCrc crc8 data size)) ∨
        decode data = (taken.foldl (Feedback.setData size decode crc8) m).values := by
  have hfilter : (taken ++ [data]).filter (fun data => checkMessageCrc crc8 data size) =
      (taken.filter fun data => checkMessageCrc crc8 data size) ++ [data] := by
    simp [hpass]
  rw [hfilter, List.foldl_append, List.foldl_append]
  simp only [List.foldl_cons, List.foldl_nil, setData_values, feed_counter, hpass, true_and,
    ← hsame]
  cases checkMessageCounter data size (lastCount size m.rolling_counter taken) with
  | false =>
    cases checkMessageCounter data size (lastCount size m.rolling_counter
      (taken.filter fun data => checkMessageCrc crc8 data size)) with
    | false => simp
    | true => simp [eq_comm]
  | true =>
    cases checkMessageCounter data size (lastCount size m.rolling_counter
      (taken.filter fun data => checkMessageCrc crc8 data size)) with
    | false => simp
    | true => simp

theorem corruptedHaveNoEffect_iff (m : Feedback V) (frames : List (List Byte)) :
    CorruptedHaveNoEffect (Feedback.setData size decode crc8) Feedback.values
        (fun data => checkMessageCrc crc8 data size) m frames ↔
      CountersAgree (Feedback.setData size decode crc8) Feedback.values decode size
        (fun data => checkMessageCrc crc8 data size) m m.rolling_counter frames := by
  constructor
  · intro h taken data rest hframes hpass
    have hsame := h taken (hframes ▸ List.prefix_append taken (data :: rest))
    have hnext := h (taken ++ [data]) ⟨rest, by simp [hframes]⟩
    exact (feed_snoc_iff size decode crc8 hpass hsame).mp hnext
  · intro h taken
    induction taken using List.reverseRecOn with
    | nil => simp
    | append_singleton taken data ih =>
      intro hprefix
      obtain ⟨rest, hrest⟩ := hprefix
      have hframes : frames = taken ++ data :: rest := by simp [← hrest]
      have hsame := ih (hframes ▸ List.prefix_append taken (data :: rest))
      by_cases hpass : checkMessageCrc crc8 data size
      · exact (feed_snoc_iff size decode crc8 hpass hsame).mpr
          (h taken data rest hframes hpass)
      · have hfilter : (taken ++ [data]).filter (fun data => checkMessageCrc crc8 data size) =
            taken.filter fun data => checkMessageCrc crc8 data size := by
          simp [hpass]
        rw [hfilter, ← hsame, List.foldl_append]
        simp [setData_values, hpass]

end Run

/-! ## PropB_12 as a feedback message -/

variable {K : Type} [Field K]

structure PropB_12_Values (K : Type) where
  wrench_effort_echo : Dbl K
  speed_control_echo : Dbl K
  max_accel_echo : Dbl K
  reserved_propb_12 : Byte
  ctrl_type_cmd_mode : ControlTypeCommandMode

def PropB_12_Values.decode (data : List Byte) : PropB_12_Values K where
  wrench_effort_echo := .fin ((wordAt data 0 : K) * (1 / (40 : ℕ)) - (4000 : ℕ))
  speed_control_echo := .fin ((wordAt data 2 : K) * (1 / (32 : ℕ)))
  max_accel_echo := .fin ((wordAt data 4 : K) * (1 / (32 : ℕ)))
  reserved_propb_12 := data.getD 6 0 &&& 0x03
  ctrl_type_cmd_mode := .ofValue ((data.getD 6 0 >>> 2) &&& 0x03)

def PropB_12_Message.toFeedback (m : PropB_12_Message K) : Feedback (PropB_12_Values K) where
  values := ⟨m.wrench_effort_echo, m.speed_control_echo, m.max_accel_echo, m.reserved_propb_12,
    m.ctrl_type_cmd_mode⟩
  rolling_counter := m.rolling_counter
  check_value := m.check_value
  is_valid := m.is_valid

/-- The values of the message, beside its counter and its checks. -/
def PropB_12_Message.values (m : PropB_12_Message K) : PropB_12_Values K := m.toFeedback.values

theorem setData_toFeedback (crc8 : List Byte → Byte) (m : PropB_12_Message K)
    (data : List Byte) : m.toFeedback.setData propb_12_size PropB_12_Values.decode crc8 data =
      (m.setData crc8 data).toFeedback := by
  unfold Feedback.setData PropB_12_Message.setData PropB_12_Message.toFeedback
  cases hvalid : checkMessageCrc crc8 data propb_12_size &&
    checkMessageCounter data propb_12_size m.rolling_counter with
  | false => simp [msgCount, propb_12_size]
  | true => simp [PropB_12_Values.decode, msgCount, propb_12_size]

theorem propB_12_corruptedHaveNoEffect_iff (crc8 : List Byte → Byte) (m : PropB_12_Message K)
    (frames : List (List Byte)) :
    CorruptedHaveNoEffect (PropB_12_Message.setData crc8) PropB_12_Message.values
        (fun data => checkMessageCrc crc8 data propb_12_size) m frames ↔
      CountersAgree (PropB_12_Message.setData crc8) PropB_12_Message.values PropB_12_Values.decode
        propb_12_size (fun data => checkMessageCrc crc8 data propb_12_size) m m.rolling_counter
        frames := by
  have hrun (frames : List (List Byte)) :
      (frames.foldl (PropB_12_Message.setData crc8) m).values =
        (frames.foldl (Feedback.setData propb_12_size PropB_12_Values.decode crc8)
          m.toFeedback).values := by
    rw [List.foldl_hom PropB_12_Message.toFeedback fun m data => setData_toFeedback crc8 m data]
    rfl
  have h := corruptedHaveNoEffect_iff propb_12_size PropB_12_Values.decode crc8 m.toFeedback frames
  unfold CorruptedHaveNoEffect CountersAgree at h ⊢
  simp only [hrun]
  exact h

/-! ## All of them -/

/-- The corrupted frames of a run have no effect on what a decoder holds just when each
frame with a good checksum finds the same of its counter with and without them, or carries
what is held. -/
theorem corrupted_frames_have_no_effect_iff (crc8 : List Byte → Byte) (frames : List (List Byte))
    (m11 : PropB_11_Message K) (m12 : PropB_12_Message K) (m20 : PropB_20_Message K)
    (m21 : PropB_21_Message K) (m27 : PropB_27_Message) :
    (CorruptedHaveNoEffect (PropB_11_Message.setData crc8) Feedback.values
        (fun data => checkMessageCrc crc8 data propb_11_size) m11 frames ↔
      CountersAgree (PropB_11_Message.setData crc8) Feedback.values PropB_11_Values.decode
        propb_11_size (fun data => checkMessageCrc crc8 data propb_11_size) m11
        m11.rolling_counter frames) ∧
    (CorruptedHaveNoEffect (PropB_12_Message.setData crc8) PropB_12_Message.values
        (fun data => checkMessageCrc crc8 data propb_12_size) m12 frames ↔
      CountersAgree (PropB_12_Message.setData crc8) PropB_12_Message.values PropB_12_Values.decode
        propb_12_size (fun data => checkMessageCrc crc8 data propb_12_size) m12
        m12.rolling_counter frames) ∧
    (CorruptedHaveNoEffect (PropB_20_Message.setData crc8) Feedback.values
        (fun data => checkMessageCrc crc8 data propb_20_size) m20 frames ↔
      CountersAgree (PropB_20_Message.setData crc8) Feedback.values BrakeValues.decode
        propb_20_size (fun data => checkMessageCrc crc8 data propb_20_size) m20
        m20.rolling_counter frames) ∧
    (CorruptedHaveNoEffect (PropB_21_Message.setData crc8) Feedback.values
        (fun data => checkMessageCrc crc8 data propb_21_size) m21 frames ↔
      CountersAgree (PropB_21_Message.setData crc8) Feedback.values BrakeValues.decode
        propb_21_size (fun data => checkMessageCrc crc8 data propb_21_size) m21
        m21.rolling_counter frames) ∧
    (CorruptedHaveNoEffect (PropB_27_Message.setData crc8) Feedback.values
        (fun data => checkMessageCrc crc8 data propb_27_size) m27 frames ↔
      CountersAgree (PropB_27_Message.setData crc8) Feedback.values PropB_27_Values.decode
        propb_27_size (fun data => checkMessageCrc crc8 data propb_27_size) m27
        m27.rolling_counter frames) :=
  ⟨corruptedHaveNoEffect_iff propb_11_size PropB_11_Values.decode crc8 m11 frames,
    propB_12_corruptedHaveNoEffect_iff crc8 m12 frames,
    corruptedHaveNoEffect_iff propb_20_size BrakeValues.decode crc8 m20 frames,
    corruptedHaveNoEffect_iff propb_21_size BrakeValues.decode crc8 m21 frames,
    corruptedHaveNoEffect_iff propb_27_size PropB_27_Values.decode crc8 m27 frames⟩

/-! ## A frame that is thrown away -/

def newPropB_11_Message : PropB_11_Message ℚ where
  values := ⟨0, 0, 0, .Manual_Mode, 0xFF⟩
  rolling_counter := 0
  check_value := 0xFF
  is_valid := false

/-- One percent, with counter 1. -/
def goodFrame : List Byte :=
  [40, 0, 0, 0, 0, 0, 0x10] ++ [boostCrc8.checksum [40, 0, 0, 0, 0, 0, 0x10]]

/-- The counter of this one reads 8, and its checksum is off by one. -/
def badFrame : List Byte :=
  [40, 0, 0, 0, 0, 0, 0x80] ++ [boostCrc8.checksum [40, 0, 0, 0, 0, 0, 0x80] + 1]

theorem goodFrame_passes :
    checkMessageCrc boostCrc8.checksum goodFrame propb_11_size = true := by
  unfold goodFrame
  rw [checkMessageCrc_append _ _ _ (show propb_11_size = 7 + 1 from rfl)]
  exact beq_self_eq_true _

theorem badFrame_fails : checkMessageCrc boostCrc8.checksum badFrame propb_11_size = false := by
  unfold badFrame
  rw [checkMessageCrc_append _ _ _ (show propb_11_size = 7 + 1 from rfl)]
  simp

/-- After the corrupted frame the good one is thrown away, as its counter is not ahead of
the wrong one. -/
theorem a_good_frame_is_thrown_away :
    ¬ ∀ (m : PropB_11_Message ℚ) (frames : List (List Byte)),
      CorruptedHaveNoEffect (PropB_11_Message.setData boostCrc8.checksum) Feedback.values
        (fun data => checkMessageCrc boostCrc8.checksum data propb_11_size) m frames := by
  intro h
  have hagree := (corruptedHaveNoEffect_iff propb_11_size PropB_11_Values.decode
    boostCrc8.checksum newPropB_11_Message _).mp (h newPropB_11_Message [badFrame, goodFrame])
  rcases hagree [badFrame] goodFrame [] rfl goodFrame_passes with hcounter | hvalues
  · simp only [List.filter_cons, badFrame_fails, Bool.false_eq_true, if_false,
      List.filter_nil] at hcounter
    exact absurd hcounter (by decide)
  · simp only [List.foldl_cons, List.foldl_nil, setData_values, badFrame_fails,
      Bool.false_eq_true, false_and, if_false] at hvalues
    have hpercent := congrArg PropB_11_Values.generated_accel_pedal_percentage hvalues
    have hone : ((40 : ℕ) : ℚ) * (1 / (40 : ℕ)) = 0 := hpercent
    norm_num at hone

end carma.truck
