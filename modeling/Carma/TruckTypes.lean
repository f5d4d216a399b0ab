-- `truck_types.h`: the frames on the truck's CAN bus. Commands go out as PropB_10 and
-- PropB_26, and the throttle controller echoes the first as PropB_12. A frame ends with a
-- checksum, and holds a counter of four bits before it.
import Carma.Lib.Crc
import Carma.Lib.ExactDouble

open lib.crc
open lib.exact_double

namespace carma.truck

/-! ## Modes -/

inductive ControlTypeCommandMode
  | Disable_ACC_System
  | Robotic_WrenchEffort_Ctrl
  | Robotic_Speed_Ctrl
  | Reserved
deriving DecidableEq

def ControlTypeCommandMode.value : ControlTypeCommandMode → Byte
  | Disable_ACC_System => 0
  | Robotic_WrenchEffort_Ctrl => 1
  | Robotic_Speed_Ctrl => 2
  | Reserved => 3

/-- The cast of two bits. -/
def ControlTypeCommandMode.ofValue (bits : Byte) : ControlTypeCommandMode :=
  match bits.toNat with
  | 0 => Disable_ACC_System
  | 1 => Robotic_WrenchEffort_Ctrl
  | 2 => Robotic_Speed_Ctrl
  | _ => Reserved

inductive EngineBrakeMsgModeCmd
  | Pass_Through
  | Torc_Bypass
  | Error
  | No_Change

def EngineBrakeMsgModeCmd.value : EngineBrakeMsgModeCmd → Byte
  | Pass_Through => 0
  | Torc_Bypass => 1
  | Error => 2
  | No_Change => 3

inductive EngineBrakeCmd
  | Disable_Engine_Braking
  | Enable_Engine_Braking
  | Error
  | No_Change

def EngineBrakeCmd.value : EngineBrakeCmd → Byte
  | Disable_Engine_Braking => 0
  | Enable_Engine_Braking => 1
  | Error => 2
  | No_Change => 3

inductive EngineBrakeLevelCmd
  | Low_Level
  | Medium_Level
  | High_Level
  | No_Change

def EngineBrakeLevelCmd.value : EngineBrakeLevelCmd → Byte
  | Low_Level => 0
  | Medium_Level => 1
  | High_Level => 2
  | No_Change => 3

/-! ## Frames and their checks -/

/-- A frame, with those of its eight bytes that are set. -/
structure CANFrameStamped where
  id : BitVec 32
  is_rtr : Bool
  is_extended : Bool
  is_error : Bool
  dlc : ℕ
  data : List Byte

def getNextCounter (counter : Byte) : Byte :=
  if counter.toNat ≥ 15 then 0 else counter + 1

/-- The checksum of all bytes before the last one is the last one. -/
def checkMessageCrc (crc8 : List Byte → Byte) (data : List Byte) (size : ℕ) : Bool :=
  crc8 (data.take (size - 1)) == data.getD (size - 1) 0

/-- The counter of a frame. -/
def msgCount (data : List Byte) (size : ℕ) : Byte := (data.getD (size - 2) 0 >>> 4) &&& 0x0F

/-- The counter is ahead by at most seven, or by eight where it has come back to zero after 15. -/
def checkMessageCounter (data : List Byte) (size : ℕ) (curr_count : Byte) : Bool :=
  let msg_count : ℤ := (msgCount data size).toNat
  let curr_count : ℤ := curr_count.toNat
  if curr_count + 8 > 15 then
    if msg_count > curr_count ∧ msg_count ≤ 15 then true
    else if msg_count < curr_count ∧ msg_count < curr_count - 7 then true
    else false
  else if msg_count > curr_count ∧ msg_count < curr_count + 8 then true
  else false

/-! ## PropB_10 -/

def lowByte (x : BitVec 16) : Byte := x.setWidth 8

def highByte (x : BitVec 16) : Byte := (x.sshiftRight 8).setWidth 8

variable {K : Type}

structure PropB_10_Message (K : Type) where
  wrench_effort : Dbl K
  speed_control : Dbl K
  max_accel : Dbl K
  reserved_propb_10 : Byte
  control_type_command_mode : ControlTypeCommandMode
  rolling_counter : Byte
  check_value : Byte
  propb_10_cur_count_ : Byte

def propb_10_size : ℕ := 8

section propb_10

variable [Field K] [LinearOrder K]

def newPropB_10_Message : PropB_10_Message K where
  wrench_effort := .fin 0
  speed_control := .fin 0
  max_accel := .fin 0
  reserved_propb_10 := 0xFF
  control_type_command_mode := .Disable_ACC_System
  rolling_counter := 0
  check_value := 0xFF
  propb_10_cur_count_ := 0

namespace PropB_10_Message

-- the cast of a double to an int16_t: what it gives out of range is not defined
variable (toInt16 : Dbl K → BitVec 16)

/-- 0.025% per bit, with an offset of 4000 bits. -/
def wrenchEff (m : PropB_10_Message K) : BitVec 16 :=
  toInt16 (.fin ((toInt16 (m.wrench_effort / .fin (1 / (40 : ℕ)))).toInt : K) + .fin (4000 : ℕ))

/-- 0.03125 km/h per bit, of a speed in m/s. An acceleration is packed in the same way. -/
def kmhBits (x : Dbl K) : BitVec 16 :=
  toInt16 (x * .fin ((18 : ℕ) / (5 : ℕ)) / .fin (1 / (32 : ℕ)))

/-- The first seven bytes. -/
def payload (m : PropB_10_Message K) : List Byte :=
  let wrench_eff := m.wrenchEff toInt16
  let spd_ctrl := kmhBits toInt16 m.speed_control
  let max_acc := kmhBits toInt16 m.max_accel
  [lowByte wrench_eff, highByte wrench_eff, lowByte spd_ctrl, highByte spd_ctrl,
    lowByte max_acc, highByte max_acc,
    (m.reserved_propb_10 &&& 0x03) ||| ((m.control_type_command_mode.value <<< 2) &&& 0x0C) |||
      ((getNextCounter m.propb_10_cur_count_ <<< 4) &&& 0xF0)]

def packData (crc8 : List Byte → Byte) (m : PropB_10_Message K) :
    CANFrameStamped × PropB_10_Message K :=
  let data := m.payload toInt16
  ({ id := 0x0CFF1027
     is_rtr := false
     is_extended := true
     is_error := false
     dlc := propb_10_size
     data := data ++ [crc8 data] },
    { m with propb_10_cur_count_ := getNextCounter m.propb_10_cur_count_ })

end PropB_10_Message

end propb_10

/-! ## PropB_12 -/

structure PropB_12_Message (K : Type) where
  wrench_effort_echo : Dbl K
  speed_control_echo : Dbl K
  max_accel_echo : Dbl K
  reserved_propb_12 : Byte
  ctrl_type_cmd_mode : ControlTypeCommandMode
  rolling_counter : Byte
  check_value : Byte
  is_valid : Bool

def propb_12_size : ℕ := 8

/-- Two bytes as a number, the low one first. -/
def wordAt (data : List Byte) (i : ℕ) : ℕ :=
  (data.getD i 0).toNat + (data.getD (i + 1) 0).toNat * 2 ^ 8

/-- `setData`. The values of a frame that fails a check are left out, its counter is not. -/
def PropB_12_Message.setData [Field K] (crc8 : List Byte → Byte) (m : PropB_12_Message K)
    (data : List Byte) : PropB_12_Message K :=
  let is_valid := checkMessageCrc crc8 data propb_12_size &&
    checkMessageCounter data propb_12_size m.rolling_counter
  let m :=
    if is_valid then
      { m with
        wrench_effort_echo := .fin ((wordAt data 0 : K) * (1 / (40 : ℕ)) - (4000 : ℕ))
        speed_control_echo := .fin ((wordAt data 2 : K) * (1 / (32 : ℕ)))
        max_accel_echo := .fin ((wordAt data 4 : K) * (1 / (32 : ℕ)))
        reserved_propb_12 := data.getD 6 0 &&& 0x03
        ctrl_type_cmd_mode := .ofValue ((data.getD 6 0 >>> 2) &&& 0x03) }
    else m
  { m with
    is_valid := is_valid
    rolling_counter := (data.getD 6 0 >>> 4) &&& 0x0F
    check_value := data.getD 7 0 }

/-! ## PropB_26 -/

structure PropB_26_Message where
  engine_brake_msg_mode_command : EngineBrakeMsgModeCmd
  engine_brake_command : EngineBrakeCmd
  engine_brake_level_command : EngineBrakeLevelCmd
  reserved_propb_26 : Byte
  rolling_counter : Byte
  check_value : Byte
  propb_26_cur_count_ : Byte

def propb_26_size : ℕ := 3

def newPropB_26_Message : PropB_26_Message where
  engine_brake_msg_mode_command := .Pass_Through
  engine_brake_command := .Disable_Engine_Braking
  engine_brake_level_command := .Low_Level
  reserved_propb_26 := 0xFF
  rolling_counter := 0
  check_value := 0xFF
  propb_26_cur_count_ := 0

namespace PropB_26_Message

/-- The first two bytes. -/
def payload (m : PropB_26_Message) : List Byte :=
  [(m.engine_brake_msg_mode_command.value &&& 0x03) |||
      ((m.engine_brake_command.value <<< 2) &&& 0x0C) |||
      ((m.engine_brake_level_command.value <<< 4) &&& 0x30) |||
      ((m.reserved_propb_26 <<< 6) &&& 0xC0),
    ((m.reserved_propb_26 >>> 2) &&& 0x0F) |||
      ((getNextCounter m.propb_26_cur_count_ <<< 4) &&& 0xF0)]

/-- `packData`. The checksum is made of seven bytes, but the array has three. What is in
memory after it is `beyond`. -/
def packData (crc8 : List Byte → Byte) (m : PropB_26_Message) (beyond : Fin 4 → Byte) :
    CANFrameStamped × PropB_26_Message :=
  let data := m.payload
  ({ id := 0x0CFF265A
     is_rtr := false
     is_extended := true
     is_error := false
     dlc := propb_26_size
     data := data ++ [crc8 (data ++ 0 :: List.ofFn beyond)] },
    { m with propb_26_cur_count_ := getNextCounter m.propb_26_cur_count_ })

end PropB_26_Message

/-! ## The sender -/

/-- The messages of `truck_send_`. -/
structure TruckSend (K : Type) where
  propB_10_message : PropB_10_Message K
  propB_26_message : PropB_26_Message

inductive PropB_10_Call (K : Type)
  | setWrenchEffort (data : Dbl K)
  | setSpeedControl (data : Dbl K)
  | setMaxAccel (data : Dbl K)
  | setReservedPropB10 (data : Byte)
  | setCtrlCmdMode (data : ControlTypeCommandMode)
  | setRollingCounter (data : Byte)
  | setCheckValue (data : Byte)
  | packData

inductive PropB_26_Call
  | setEngBrakeCmdMode (data : EngineBrakeMsgModeCmd)
  | setEngBrakeCmd (data : EngineBrakeCmd)
  | setEngBrakeLevelCmd (data : EngineBrakeLevelCmd)
  | setReservedPropB26 (data : Byte)
  | setRollingCounter (data : Byte)
  | setCheckValue (data : Byte)
  | packData

inductive Call (K : Type)
  | propB_10 (call : PropB_10_Call K)
  | propB_26 (call : PropB_26_Call)

section sender

variable [Field K] [LinearOrder K] (crc8 : List Byte → Byte) (toInt16 : Dbl K → BitVec 16)

/-- A call, and the frame that it makes. -/
def PropB_10_Message.call (m : PropB_10_Message K) :
    PropB_10_Call K → Option CANFrameStamped × PropB_10_Message K
  | .setWrenchEffort data => (none, { m with wrench_effort := data })
  | .setSpeedControl data => (none, { m with speed_control := data })
  | .setMaxAccel data => (none, { m with max_accel := data })
  | .setReservedPropB10 data => (none, { m with reserved_propb_10 := data })
  | .setCtrlCmdMode data => (none, { m with control_type_command_mode := data })
  | .setRollingCounter data => (none, { m with rolling_counter := data })
  | .setCheckValue data => (none, { m with check_value := data })
  | .packData => (some (m.packData toInt16 crc8).1, (m.packData toInt16 crc8).2)

def PropB_26_Message.call (m : PropB_26_Message) (beyond : Fin 4 → Byte) :
    PropB_26_Call → Option CANFrameStamped × PropB_26_Message
  | .setEngBrakeCmdMode data => (none, { m with engine_brake_msg_mode_command := data })
  | .setEngBrakeCmd data => (none, { m with engine_brake_command := data })
  | .setEngBrakeLevelCmd data => (none, { m with engine_brake_level_command := data })
  | .setReservedPropB26 data => (none, { m with reserved_propb_26 := data })
  | .setRollingCounter data => (none, { m with rolling_counter := data })
  | .setCheckValue data => (none, { m with check_value := data })
  | .packData => (some (m.packData crc8 beyond).1, (m.packData crc8 beyond).2)

/-- The frames that a sequence of calls makes, with what is in memory after the array at
each of them. -/
def frames : TruckSend K → List (Call K) → (ℕ → Fin 4 → Byte) → List CANFrameStamped
  | _, [], _ => []
  | s, .propB_10 call :: calls, beyond =>
    let (frame, m) := s.propB_10_message.call crc8 toInt16 call
    frame.toList ++ frames { s with propB_10_message := m } calls fun n => beyond (n + 1)
  | s, .propB_26 call :: calls, beyond =>
    let (frame, m) := s.propB_26_message.call crc8 (beyond 0) call
    frame.toList ++ frames { s with propB_26_message := m } calls fun n => beyond (n + 1)

end sender

end carma.truck
