-- `BSMMessageHelper.java`, `BSMMessage.java` and the BSM part of `wrapper.c`: core data are
-- put through the filters of the helper, then into the structure of asn1c, and back from
-- there. Java reads every field as signed.
import Carma.MobilityHelpers
import Mathlib.Data.List.Basic

/-! ## The core data in the units of J2735 -/

namespace carma.j2735_msgs

structure PositionalAccuracy where
  semiMajor : BitVec 8
  semiMinor : BitVec 8
  orientation : BitVec 16
deriving DecidableEq

structure AccelerationSet4Way where
  longitudinal : BitVec 16
  lateral : BitVec 16
  vert : BitVec 8
  yaw_rate : BitVec 16
deriving DecidableEq

structure BrakeSystemStatus where
  wheelBrakes : BitVec 8
  traction : BitVec 8
  abs : BitVec 8
  scs : BitVec 8
  brakeBoost : BitVec 8
  auxBrakes : BitVec 8
deriving DecidableEq

structure VehicleSize where
  vehicle_width : BitVec 16
  vehicle_length : BitVec 16
deriving DecidableEq

structure BSMCoreData where
  msg_count : BitVec 8
  id : List (BitVec 8)
  sec_mark : BitVec 16
  longitude : BitVec 32
  latitude : BitVec 32
  elev : BitVec 32
  accuracy : PositionalAccuracy
  transmission : BitVec 8
  speed : BitVec 16
  heading : BitVec 16
  angle : BitVec 8
  accelSet : AccelerationSet4Way
  brakes : BrakeSystemStatus
  size : VehicleSize
deriving DecidableEq

end carma.j2735_msgs

open carma.j2735_msgs
open carma.message

namespace carma.bsm_message

/-! ## The helper -/

/-- A value within the bounds, else the one that is there already. -/
def inBounds (min max default x : ℤ) : ℤ := if x ≥ min ∧ x ≤ max then x else default

/-- The same for a value that is not marked unavailable. -/
def inBoundsUnless (unavailable min max default x : ℤ) : ℤ :=
  if x = unavailable then default else inBounds min max default x

/-- A value that is not marked unavailable, or the bound that it is past. -/
def clampUnless (unavailable min max default x : ℤ) : ℤ :=
  if x = unavailable then default else if x ≥ max then max else if x ≤ min then min else x

def setMsgCnt (x : ℤ) : ℤ := inBounds 0 127 0 x

/-- One byte of `setId`. -/
def setId (x : ℤ) : ℤ := inBounds 0 255 0 (if x < 0 then 1 + 255 + x else x)

def setSecMark (x : ℤ) : ℤ := inBounds 0 65535 0 x

def setLat (x : ℤ) : ℤ := inBoundsUnless 900000001 (-900000000) 900000000 900000001 x

def setLon (x : ℤ) : ℤ := inBoundsUnless 1800000001 (-1799999999) 1800000000 1800000001 x

def setElev (x : ℤ) : ℤ := inBoundsUnless (-4096) (-4095) 61439 (-4096) x

/-- `setAccuracy`, for an axis. The message's constant is a byte, so 255 is -1 there. -/
def setSemiAxis (x : ℤ) : ℤ :=
  if x ≠ -1 then if x ≥ 254 then 254 else if x ≥ 0 then x else 255
  else 255

/-- `setAccuracy`, for the orientation. The message's constant is a short. -/
def setOrientation (x : ℤ) : ℤ := inBoundsUnless (-1) 0 65534 65535 x

def setSpeed (x : ℤ) : ℤ := inBoundsUnless 8191 0 8190 8191 x

def setHeading (x : ℤ) : ℤ := inBoundsUnless 28800 0 28799 28800 x

def setAngle (x : ℤ) : ℤ := clampUnless 127 (-126) 126 127 x

/-- `setAcceleration`, for each of the two directions on the road. -/
def setHorizontal (x : ℤ) : ℤ := clampUnless 2001 (-2000) 2000 2001 x

def setVertical (x : ℤ) : ℤ := clampUnless (-127) (-126) 127 (-127) x

def setYawRate (x : ℤ) : ℤ := inBoundsUnless 0 (-32767) 32767 0 x

def setWheel_brakes (x : ℤ) : ℤ := if x = 0x78 >>> 3 then 0x78 else if x = 0 then 0 else 0x10

def setVehicleWidth (x : ℤ) : ℤ := inBoundsUnless 0 1 1023 0 x

def setVehicleLength (x : ℤ) : ℤ := inBoundsUnless 0 1 4095 0 x

/-! ## The structure of asn1c -/

structure BSMcoreData_t where
  msgCnt : ℤ
  id : List (BitVec 8)
  secMark : ℤ
  lat : ℤ
  Long : ℤ
  elev : ℤ
  semiMajor : ℤ
  semiMinor : ℤ
  orientation : ℤ
  transmission : ℤ
  speed : ℤ
  heading : ℤ
  angle : ℤ
  accelLat : ℤ
  accelLong : ℤ
  vert : ℤ
  yaw : ℤ
  -- five bits in the upper part of a byte
  wheelBrakes : BitVec 8
  traction : ℤ
  abs : ℤ
  scs : ℤ
  brakeBoost : ℤ
  auxBrakes : ℤ
  width : ℤ
  length : ℤ
deriving DecidableEq

/-- The constraints of J2735. -/
structure BSMcoreData_t.WellFormed (m : BSMcoreData_t) : Prop where
  msgCnt : 0 ≤ m.msgCnt ∧ m.msgCnt ≤ 127
  id : m.id.length = 4
  secMark : 0 ≤ m.secMark ∧ m.secMark ≤ 65535
  lat : -900000000 ≤ m.lat ∧ m.lat ≤ 900000001
  Long : -1799999999 ≤ m.Long ∧ m.Long ≤ 1800000001
  elev : -4096 ≤ m.elev ∧ m.elev ≤ 61439
  semiMajor : 0 ≤ m.semiMajor ∧ m.semiMajor ≤ 255
  semiMinor : 0 ≤ m.semiMinor ∧ m.semiMinor ≤ 255
  orientation : 0 ≤ m.orientation ∧ m.orientation ≤ 65535
  transmission : 0 ≤ m.transmission ∧ m.transmission ≤ 7
  speed : 0 ≤ m.speed ∧ m.speed ≤ 8191
  heading : 0 ≤ m.heading ∧ m.heading ≤ 28800
  angle : -126 ≤ m.angle ∧ m.angle ≤ 127
  accelLat : -2000 ≤ m.accelLat ∧ m.accelLat ≤ 2001
  accelLong : -2000 ≤ m.accelLong ∧ m.accelLong ≤ 2001
  vert : -127 ≤ m.vert ∧ m.vert ≤ 127
  yaw : -32767 ≤ m.yaw ∧ m.yaw ≤ 32767
  wheelBrakes : m.wheelBrakes &&& 7 = 0
  traction : 0 ≤ m.traction ∧ m.traction ≤ 3
  abs : 0 ≤ m.abs ∧ m.abs ≤ 3
  scs : 0 ≤ m.scs ∧ m.scs ≤ 3
  brakeBoost : 0 ≤ m.brakeBoost ∧ m.brakeBoost ≤ 2
  auxBrakes : 0 ≤ m.auxBrakes ∧ m.auxBrakes ≤ 3
  width : 0 ≤ m.width ∧ m.width ≤ 1023
  length : 0 ≤ m.length ∧ m.length ≤ 4095

/-- `encode_BSM`, of what the helper makes of the core data. -/
def toStructure (b : BSMCoreData) : BSMcoreData_t where
  msgCnt := setMsgCnt b.msg_count.toInt
  id := b.id.map fun byte => .ofInt 8 (setId byte.toInt)
  secMark := setSecMark b.sec_mark.toInt
  lat := setLat b.latitude.toInt
  Long := setLon b.longitude.toInt
  elev := setElev b.elev.toInt
  semiMajor := setSemiAxis b.accuracy.semiMajor.toInt
  semiMinor := setSemiAxis b.accuracy.semiMinor.toInt
  orientation := setOrientation b.accuracy.orientation.toInt
  transmission := b.transmission.toInt
  speed := setSpeed b.speed.toInt
  heading := setHeading b.heading.toInt
  angle := setAngle b.angle.toInt
  accelLat := setHorizontal b.accelSet.lateral.toInt
  accelLong := setHorizontal b.accelSet.longitudinal.toInt
  vert := setVertical b.accelSet.vert.toInt
  yaw := setYawRate b.accelSet.yaw_rate.toInt
  wheelBrakes := .ofInt 8 (setWheel_brakes b.brakes.wheelBrakes.toInt)
  traction := b.brakes.traction.toInt
  abs := b.brakes.abs.toInt
  scs := b.brakes.scs.toInt
  brakeBoost := b.brakes.brakeBoost.toInt
  auxBrakes := b.brakes.auxBrakes.toInt
  width := setVehicleWidth b.size.vehicle_width.toInt
  length := setVehicleLength b.size.vehicle_length.toInt

/-- `decode_BSM` and what `decode` does after it. -/
def fromStructure (m : BSMcoreData_t) : BSMCoreData where
  msg_count := .ofInt 8 m.msgCnt
  id := m.id
  sec_mark := .ofInt 16 m.secMark
  latitude := .ofInt 32 m.lat
  longitude := .ofInt 32 m.Long
  elev := .ofInt 32 m.elev
  accuracy := ⟨.ofInt 8 m.semiMajor, .ofInt 8 m.semiMinor, .ofInt 16 m.orientation⟩
  transmission := .ofInt 8 m.transmission
  speed := .ofInt 16 m.speed
  heading := .ofInt 16 m.heading
  angle := .ofInt 8 m.angle
  accelSet :=
    { longitudinal := .ofInt 16 m.accelLong
      lateral := .ofInt 16 m.accelLat
      vert := .ofInt 8 m.vert
      yaw_rate := .ofInt 16 m.yaw }
  brakes :=
    { wheelBrakes := m.wheelBrakes.sshiftRight 3
      traction := .ofInt 8 m.traction
      abs := .ofInt 8 m.abs
      scs := .ofInt 8 m.scs
      brakeBoost := .ofInt 8 m.brakeBoost
      auxBrakes := .ofInt 8 m.auxBrakes }
  size := ⟨.ofInt 16 m.width, .ofInt 16 m.length⟩

variable {W : Type}

def encode (asn : Asn1c BSMcoreData_t W) (b : BSMCoreData) : Option W :=
  asn.uperEncode (toStructure b)

def decode (asn : Asn1c BSMcoreData_t W) (w : W) : Option BSMCoreData :=
  (asn.uperDecode w).map fromStructure

end carma.bsm_message
