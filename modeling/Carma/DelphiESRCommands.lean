-- The commands that the client of the radar sends: `DelphiESRCANClient::sendCommands`. Each
-- of two frames is one word of 64 bits, or-ed of its fields.
import Carma.Lib.BitFields
import Mathlib.Algebra.Order.Field.Rat
import Mathlib.Algebra.Order.Floor.Ring
import Mathlib.Data.Rat.Floor

open lib.bit_fields

namespace carma.delphi_esr

/-! ## Commands -/

inductive SpeedDirection
  | Forward
  | Reverse
deriving DecidableEq

inductive SteeringWheelSign
  | CounterClockwise
  | Clockwise
deriving DecidableEq

inductive Validity
  | UnavailableOrInvalid
  | AvailableAndValid
deriving DecidableEq

inductive SensorModeCommand
  | DoNotRadiate
  | Radiate
deriving DecidableEq

inductive WindShieldWiperStatus
  | Off
  | On
deriving DecidableEq

inductive RawDataEnable
  | Filtered
  | Raw
deriving DecidableEq

inductive GroupingMode
  | None
  | MovingTargetsOnly
  | StationaryTargetsOnly
  | StationayAndMovingTargets
deriving DecidableEq

def GroupingMode.value : GroupingMode → ℤ
  | None => 0
  | MovingTargetsOnly => 1
  | StationaryTargetsOnly => 2
  | StationayAndMovingTargets => 3

inductive TurnSignalStatus
  | None
  | Left
  | Right
deriving DecidableEq

def TurnSignalStatus.value : TurnSignalStatus → ℤ
  | None => 0
  | Left => 1
  | Right => 2

structure DelphiRX4F0 (K : Type) where
  speed : K
  speed_direction : SpeedDirection
  yaw_rate : K
  radius_curvature : ℤ
  steering_wheel_angle : ℤ
  steering_wheel_sign : SteeringWheelSign
  steering_angle_validity : Validity
  steering_wheel_angle_rate : ℤ
  steering_wheel_angle_rate_sign : SteeringWheelSign

structure DelphiRX4F1 (K : Type) where
  lateral_mounting_offset : K
  angle_misalignment : K
  vehicle_speed_validity : Validity
  mmr_upside_down : Bool
  blockage_disable : Bool
  use_angle_misalignment : Bool
  clear_faults : Bool
  lr_transmit : Bool
  mr_transmit : Bool
  short_track_roc : ℤ
  turn_signal_status : TurnSignalStatus
  radiate_command : SensorModeCommand
  wiper_status : WindShieldWiperStatus
  raw_data_enable : RawDataEnable
  grouping_mode : GroupingMode
  scan_index_ack : ℤ
  maximum_tracks : ℤ
  high_yaw_angle : ℤ

/-! ## sendCommands -/

/-- A frame on the bus, with its data as the number that `setData` is called with. -/
structure CommandFrame where
  id : ℕ
  is_rtr : Bool
  is_extended : Bool
  is_error : Bool
  dlc : ℕ
  data : BitVec 64

def can_bit (n : ℕ) : ℕ := 8 * (7 - n / 8) + n % 8

def can_mask (n : ℕ) : BitVec 64 := .ofNat 64 ((1 <<< n) - 1)

/-- The conversion of a `double` to an integer: what is behind the point is cut off. -/
def truncate {K : Type} [Field K] [LinearOrder K] [FloorRing K] (x : K) : ℤ :=
  if 0 ≤ x then ⌊x⌋ else ⌈x⌉

/-- A conversion to `uint64_t`, of a signed integer or an unsigned one. -/
def uint64 (n : ℤ) : BitVec 64 := .ofInt 64 n

/-- What is or-ed to the data when a condition holds. -/
def flag (condition : Bool) (bit : ℕ) : BitVec 64 := if condition then 1#64 <<< bit else 0

variable {K : Type} [Field K] [LinearOrder K] [FloorRing K]

/-- The data of 0x4f0. The mask of the steering wheel angle is shifted in place of the
angle, as `<<` binds before `&`; that of its rate is shifted too, but by zero. -/
def rx0Data (rx0 : DelphiRX4F0 K) : BitVec 64 :=
  let veh_speed : BitVec 16 := .ofInt 16 (truncate (rx0.speed / (1 / (16 : ℕ))))
  let yaw_rate : BitVec 16 := .ofInt 16 (truncate (rx0.yaw_rate / (1 / (16 : ℕ))))
  0 ||| ((veh_speed.setWidth 64 &&& can_mask 11) <<< can_bit 13)
    ||| flag (rx0.speed_direction == .Reverse) (can_bit 12)
    ||| ((yaw_rate.signExtend 64 &&& can_mask 12) <<< can_bit 16)
    ||| (1#64 <<< can_bit 31)
    ||| ((uint64 rx0.radius_curvature &&& can_mask 14) <<< can_bit 32)
    ||| (uint64 rx0.steering_wheel_angle &&& (can_mask 11 <<< can_bit 51))
    ||| flag (rx0.steering_wheel_sign == .Clockwise) (can_bit 46)
    ||| (uint64 rx0.steering_wheel_angle_rate &&& (can_mask 11 <<< can_bit 56))
    ||| flag (rx0.steering_wheel_angle_rate_sign == .Clockwise) (can_bit 30)
    ||| flag (rx0.steering_angle_validity == .AvailableAndValid) (can_bit 47)

/-- The data of 0x4f1. The two offsets are signed and not masked. -/
def rx1Data (rx1 : DelphiRX4F1 K) : BitVec 64 :=
  let lat_mount_offset : BitVec 8 :=
    .ofInt 8 (truncate (rx1.lateral_mounting_offset / (1 / (64 : ℕ))))
  let angle_misalign : BitVec 8 := .ofInt 8 (truncate (rx1.angle_misalignment / (1 / (16 : ℕ))))
  let track_roc : BitVec 8 := .ofInt 8 (rx1.short_track_roc.tdiv 500)
  0 ||| (uint64 rx1.scan_index_ack <<< can_bit 8)
    ||| (lat_mount_offset.signExtend 64 <<< can_bit 40)
    ||| (angle_misalign.signExtend 64 <<< can_bit 32)
    ||| ((uint64 rx1.maximum_tracks &&& can_mask 6) <<< can_bit 48)
    ||| flag (rx1.radiate_command == .Radiate) (can_bit 55)
    ||| flag (rx1.wiper_status == .On) (can_bit 57)
    ||| flag (rx1.raw_data_enable == .Raw) (can_bit 56)
    ||| ((uint64 rx1.grouping_mode.value &&& can_mask 2) <<< can_bit 58)
    ||| flag rx1.mmr_upside_down (can_bit 60)
    ||| flag (rx1.vehicle_speed_validity == .AvailableAndValid) (can_bit 60)
    ||| ((uint64 rx1.turn_signal_status.value &&& can_mask 2) <<< can_bit 62)
    ||| flag rx1.blockage_disable (can_bit 54)
    ||| flag rx1.use_angle_misalignment (can_bit 23)
    ||| flag rx1.clear_faults (can_bit 22)
    ||| flag rx1.lr_transmit (can_bit 24)
    ||| flag rx1.mr_transmit (can_bit 25)
    ||| ((uint64 rx1.high_yaw_angle &&& can_mask 6) <<< can_bit 16)
    ||| ((track_roc.signExtend 64 &&& can_mask 4) <<< can_bit 28)

/-- The two frames that are written to the device. -/
def sendCommands (rx0 : DelphiRX4F0 K) (rx1 : DelphiRX4F1 K) : CommandFrame × CommandFrame :=
  (⟨0x4f0, false, false, false, 8, rx0Data rx0⟩, ⟨0x4f1, false, false, false, 8, rx1Data rx1⟩)

/-! ## Fields -/

/-- The fields of 0x4f0. -/
inductive Field0
  | speed
  | speed_direction
  | yaw_rate
  | radius_curvature
  | steering_wheel_angle
  | steering_wheel_sign
  | steering_wheel_angle_rate
  | steering_wheel_angle_rate_sign
  | steering_angle_validity
deriving DecidableEq

/-- Where the code puts them. -/
def Field0.place : Field0 → Place
  | speed => ⟨can_bit 13, 11⟩
  | speed_direction => ⟨can_bit 12, 1⟩
  | yaw_rate => ⟨can_bit 16, 12⟩
  | radius_curvature => ⟨can_bit 32, 14⟩
  | steering_wheel_angle => ⟨can_bit 51, 11⟩
  | steering_wheel_sign => ⟨can_bit 46, 1⟩
  | steering_wheel_angle_rate => ⟨can_bit 56, 11⟩
  | steering_wheel_angle_rate_sign => ⟨can_bit 30, 1⟩
  | steering_angle_validity => ⟨can_bit 47, 1⟩

def Field0.signed : Field0 → Bool
  | yaw_rate | radius_curvature => true
  | _ => false

def bit (condition : Bool) : ℤ := if condition then 1 else 0

/-- The values that are commanded, in the units of their fields. -/
def Field0.commanded (rx0 : DelphiRX4F0 K) : Field0 → ℤ
  | speed => truncate (rx0.speed / (1 / (16 : ℕ)))
  | speed_direction => bit (rx0.speed_direction == .Reverse)
  | yaw_rate => truncate (rx0.yaw_rate / (1 / (16 : ℕ)))
  | radius_curvature => rx0.radius_curvature
  | steering_wheel_angle => rx0.steering_wheel_angle
  | steering_wheel_sign => bit (rx0.steering_wheel_sign == .Clockwise)
  | steering_wheel_angle_rate => rx0.steering_wheel_angle_rate
  | steering_wheel_angle_rate_sign => bit (rx0.steering_wheel_angle_rate_sign == .Clockwise)
  | steering_angle_validity => bit (rx0.steering_angle_validity == .AvailableAndValid)

/-- The fields of 0x4f1. -/
inductive Field1
  | scan_index_ack
  | lateral_mounting_offset
  | angle_misalignment
  | maximum_tracks
  | radiate_command
  | wiper_status
  | raw_data_enable
  | grouping_mode
  | mmr_upside_down
  | vehicle_speed_validity
  | turn_signal_status
  | blockage_disable
  | use_angle_misalignment
  | clear_faults
  | lr_transmit
  | mr_transmit
  | high_yaw_angle
  | short_track_roc
deriving DecidableEq

def Field1.place : Field1 → Place
  | scan_index_ack => ⟨can_bit 8, 16⟩
  | lateral_mounting_offset => ⟨can_bit 40, 8⟩
  | angle_misalignment => ⟨can_bit 32, 8⟩
  | maximum_tracks => ⟨can_bit 48, 6⟩
  | radiate_command => ⟨can_bit 55, 1⟩
  | wiper_status => ⟨can_bit 57, 1⟩
  | raw_data_enable => ⟨can_bit 56, 1⟩
  | grouping_mode => ⟨can_bit 58, 2⟩
  | mmr_upside_down => ⟨can_bit 60, 1⟩
  | vehicle_speed_validity => ⟨can_bit 60, 1⟩
  | turn_signal_status => ⟨can_bit 62, 2⟩
  | blockage_disable => ⟨can_bit 54, 1⟩
  | use_angle_misalignment => ⟨can_bit 23, 1⟩
  | clear_faults => ⟨can_bit 22, 1⟩
  | lr_transmit => ⟨can_bit 24, 1⟩
  | mr_transmit => ⟨can_bit 25, 1⟩
  | high_yaw_angle => ⟨can_bit 16, 6⟩
  | short_track_roc => ⟨can_bit 28, 4⟩

def Field1.signed : Field1 → Bool
  | lateral_mounting_offset | angle_misalignment | high_yaw_angle | short_track_roc => true
  | _ => false

def Field1.commanded (rx1 : DelphiRX4F1 K) : Field1 → ℤ
  | scan_index_ack => rx1.scan_index_ack
  | lateral_mounting_offset => truncate (rx1.lateral_mounting_offset / (1 / (64 : ℕ)))
  | angle_misalignment => truncate (rx1.angle_misalignment / (1 / (16 : ℕ)))
  | maximum_tracks => rx1.maximum_tracks
  | radiate_command => bit (rx1.radiate_command == .Radiate)
  | wiper_status => bit (rx1.wiper_status == .On)
  | raw_data_enable => bit (rx1.raw_data_enable == .Raw)
  | grouping_mode => rx1.grouping_mode.value
  | mmr_upside_down => bit rx1.mmr_upside_down
  | vehicle_speed_validity => bit (rx1.vehicle_speed_validity == .AvailableAndValid)
  | turn_signal_status => rx1.turn_signal_status.value
  | blockage_disable => bit rx1.blockage_disable
  | use_angle_misalignment => bit rx1.use_angle_misalignment
  | clear_faults => bit rx1.clear_faults
  | lr_transmit => bit rx1.lr_transmit
  | mr_transmit => bit rx1.mr_transmit
  | high_yaw_angle => rx1.high_yaw_angle
  | short_track_roc => rx1.short_track_roc.tdiv 500

end carma.delphi_esr
