-- The brake pressures of PropB_20 and PropB_21 against the bits that the comments of the two
-- messages name. The trailer pressure is not read from its own bits alone.
import Carma.TruckFeedback
import Carma.TruckTypeLaws
import Mathlib.Data.Nat.Cast.Field

open lib.crc

namespace carma.truck

/-! ## Bits of a frame -/

/-- The eight bytes of a frame as a number, the first byte lowest. -/
def frameWord (data : List Byte) : ℕ :=
  byteAt data 0 + byteAt data 1 * 2 ^ 8 + byteAt data 2 * 2 ^ 16 + byteAt data 3 * 2 ^ 24 +
    byteAt data 4 * 2 ^ 32 + byteAt data 5 * 2 ^ 40 + byteAt data 6 * 2 ^ 48 +
    byteAt data 7 * 2 ^ 56

/-- The bits of a frame from bit `bit` of byte `byte` on, both counted from one. -/
def bitsAt (data : List Byte) (byte bit width : ℕ) : ℕ :=
  frameWord data / 2 ^ (8 * (byte - 1) + (bit - 1)) % 2 ^ width

/-- A frame carries four values at the places that the comments give. -/
structure Carries (data : List Byte) (air truck trailer level : ℕ) : Prop where
  airPressure : bitsAt data 1 1 12 = air
  truckPressure : bitsAt data 2 5 12 = truck
  trailerPressure : bitsAt data 4 1 12 = trailer
  cmdLevel : bitsAt data 5 5 10 = level

theorem byteAt_lt (data : List Byte) (i : ℕ) : byteAt data i < 2 ^ 8 := (data.getD i 0).isLt

/-- The four lowest bits. -/
theorem and_0x0F (x : ℕ) : x &&& 0x0F = x % 16 := Nat.and_two_pow_sub_one_eq_mod x 4

theorem factor_iff {low high : ℕ} (hlow : low < 2 ^ 8) (hhigh : high < 2 ^ 8) :
    low + high * 0x0F * 2 ^ 8 = low + high % 16 * 256 ↔
      low + high % 16 * 256 < 256 ∧ high / 16 = 0 := by
  constructor
  · intro h
    constructor <;> omega
  · rintro ⟨hbyte, hzero⟩
    omega

section Fields

variable (data : List Byte)

theorem air_bits : byteAt data 0 + ((byteAt data 1 &&& 0x0F) <<< 8) = bitsAt data 1 1 12 := by
  have h0 := byteAt_lt data 0
  have h1 := byteAt_lt data 1
  unfold bitsAt frameWord
  rw [and_0x0F, Nat.shiftLeft_eq]
  omega

theorem truck_bits :
    ((byteAt data 1 >>> 4) &&& 0x0F) + (byteAt data 2 <<< 4) = bitsAt data 2 5 12 := by
  have h0 := byteAt_lt data 0
  have h1 := byteAt_lt data 1
  have h2 := byteAt_lt data 2
  unfold bitsAt frameWord
  rw [and_0x0F, Nat.shiftLeft_eq, Nat.shiftRight_eq_div_pow]
  omega

theorem level_bits :
    ((byteAt data 4 >>> 4) &&& 0x0F) + ((byteAt data 5 &&& 0x3F) <<< 4) = bitsAt data 5 5 10 := by
  have h0 := byteAt_lt data 0
  have h1 := byteAt_lt data 1
  have h2 := byteAt_lt data 2
  have h3 := byteAt_lt data 3
  have h4 := byteAt_lt data 4
  have h5 := byteAt_lt data 5
  unfold bitsAt frameWord
  rw [and_0x0F, Nat.shiftLeft_eq, Nat.shiftRight_eq_div_pow,
    show byteAt data 5 &&& 0x3F = byteAt data 5 % 64 from
      Nat.and_two_pow_sub_one_eq_mod (byteAt data 5) 6]
  omega

/-- The trailer pressure with its mask as a factor is the one of the frame only when the
fifth byte is zero: when the pressure needs no more than a byte, and the four lowest bits of
the level are zero. -/
theorem trailer_bits_iff :
    byteAt data 3 + ((byteAt data 4 * 0x0F) <<< 8) = bitsAt data 4 1 12 ↔
      bitsAt data 4 1 12 < 256 ∧ bitsAt data 5 5 10 % 16 = 0 := by
  have h0 := byteAt_lt data 0
  have h1 := byteAt_lt data 1
  have h2 := byteAt_lt data 2
  have h3 := byteAt_lt data 3
  have h4 := byteAt_lt data 4
  have htrailer : bitsAt data 4 1 12 = byteAt data 3 + byteAt data 4 % 16 * 256 := by
    unfold bitsAt frameWord
    omega
  have hlevel : bitsAt data 5 5 10 % 16 = byteAt data 4 / 16 := by
    rw [← level_bits, and_0x0F, Nat.shiftLeft_eq, Nat.shiftRight_eq_div_pow]
    omega
  rw [htrailer, hlevel, Nat.shiftLeft_eq]
  exact factor_iff h3 h4

end Fields

/-! ## What is decoded -/

variable {K : Type} [Field K]

/-- The four values in their units. -/
def Shows (values : BrakeValues K) (air truck trailer level : ℕ) : Prop :=
  values.system_air_pressure = (air : K) * ((5 : ℕ) / (100 : ℕ)) ∧
  values.robotic_truck_applied_brake_pressure = (truck : K) * ((5 : ℕ) / (100 : ℕ)) ∧
  values.robotic_trailer_applied_brake_pressure = (trailer : K) * ((5 : ℕ) / (100 : ℕ)) ∧
  values.cmd_brake_application_level = (level : K) * ((1 : ℕ) / (10 : ℕ))

variable [CharZero K]

theorem scaled_inj (a b : ℕ) :
    (a : K) * (1 / (20 : ℕ)) = (b : K) * ((5 : ℕ) / (100 : ℕ)) ↔ a = b := by
  have hscale : ((5 : ℕ) / (100 : ℕ) : K) = 1 / (20 : ℕ) := by norm_num
  have hne : (1 / (20 : ℕ) : K) ≠ 0 := by norm_num
  rw [hscale, mul_left_inj' hne, Nat.cast_inj]

theorem decode_shows_iff {data : List Byte} {air truck trailer level : ℕ}
    (h : Carries data air truck trailer level) :
    Shows (BrakeValues.decode data : BrakeValues K) air truck trailer level ↔
      trailer < 256 ∧ level % 16 = 0 := by
  obtain ⟨rfl, rfl, rfl, rfl⟩ := h
  unfold Shows BrakeValues.decode
  simp only [scaled_inj, air_bits, truck_bits, level_bits, true_and]
  rw [trailer_bits_iff]
  simp

theorem setData_accepted {V : Type} {size : ℕ} {decode : List Byte → V} {crc8 : List Byte → Byte}
    {m : Feedback V} {data : List Byte} (hcrc : checkMessageCrc crc8 data size)
    (hcounter : checkMessageCounter data size m.rolling_counter) :
    (m.setData size decode crc8 data).values = decode data := by
  rw [setData_values, if_pos ⟨hcrc, hcounter⟩]

/-- An accepted frame with four values is decoded to these just when the trailer pressure
needs no more than a byte and the four lowest bits of the level are zero. -/
theorem brake_values_are_read_iff (crc8 : List Byte → Byte) (m20 : PropB_20_Message K)
    (m21 : PropB_21_Message K) (data : List Byte) (air truck trailer level : ℕ)
    (hcarries : Carries data air truck trailer level)
    (hcrc20 : checkMessageCrc crc8 data propb_20_size)
    (hcrc21 : checkMessageCrc crc8 data propb_21_size)
    (hcounter20 : checkMessageCounter data propb_20_size m20.rolling_counter)
    (hcounter21 : checkMessageCounter data propb_21_size m21.rolling_counter) :
    (Shows (m20.setData crc8 data).values air truck trailer level ↔
      trailer < 256 ∧ level % 16 = 0) ∧
    (Shows (m21.setData crc8 data).values air truck trailer level ↔
      trailer < 256 ∧ level % 16 = 0) := by
  have h20 : (m20.setData crc8 data).values = BrakeValues.decode data :=
    setData_accepted hcrc20 hcounter20
  have h21 : (m21.setData crc8 data).values = BrakeValues.decode data :=
    setData_accepted hcrc21 hcounter21
  rw [h20, h21]
  exact ⟨decode_shows_iff hcarries, decode_shows_iff hcarries⟩

/-- A frame with these seven bytes and their checksum. -/
def withChecksum (payload : List Byte) : List Byte := payload ++ [boostCrc8.checksum payload]

def newPropB_20_Message : PropB_20_Message ℚ where
  values := ⟨0, 0, 0, 0, 0xFF, .Module_OK⟩
  rolling_counter := 0
  check_value := 0xFF
  is_valid := false

/-- 5 psi, 14.55 psi, 4 psi and 3.2 percent. -/
theorem low_pressures_are_read :
    Shows (PropB_20_Message.setData boostCrc8.checksum newPropB_20_Message
      (withChecksum [100, 0x30, 0x12, 80, 0, 2, 0x10])).values 100 0x123 80 32 :=
  (brake_values_are_read_iff boostCrc8.checksum newPropB_20_Message newPropB_20_Message
    (withChecksum [100, 0x30, 0x12, 80, 0, 2, 0x10]) 100 0x123 80 32
    ⟨by decide +kernel, by decide +kernel, by decide +kernel, by decide +kernel⟩
    (by decide +kernel) (by decide +kernel) (by decide) (by decide)).1.mpr ⟨by decide, by decide⟩

/-- The trailer pressure of 16.8 psi is not. -/
theorem a_trailer_pressure_is_misread :
    ¬ ∀ (m : PropB_20_Message ℚ) (data : List Byte) (air truck trailer level : ℕ),
      Carries data air truck trailer level →
      checkMessageCrc boostCrc8.checksum data propb_20_size →
      checkMessageCounter data propb_20_size m.rolling_counter →
      Shows (m.setData boostCrc8.checksum data).values air truck trailer level := by
  intro h
  have hcarries : Carries (withChecksum [0, 0, 0, 0x50, 1, 0, 0x10]) 0 0 0x150 0 :=
    ⟨by decide +kernel, by decide +kernel, by decide +kernel, by decide +kernel⟩
  have hcrc : checkMessageCrc boostCrc8.checksum (withChecksum [0, 0, 0, 0x50, 1, 0, 0x10])
      propb_20_size := by
    decide +kernel
  have hcounter : checkMessageCounter (withChecksum [0, 0, 0, 0x50, 1, 0, 0x10]) propb_20_size
      newPropB_20_Message.rolling_counter := by
    decide
  have hshows := h newPropB_20_Message _ 0 0 0x150 0 hcarries hcrc hcounter
  have hvalues : (newPropB_20_Message.setData boostCrc8.checksum _).values =
      (BrakeValues.decode _ : BrakeValues ℚ) := setData_accepted hcrc hcounter
  rw [hvalues, decode_shows_iff hcarries] at hshows
  exact absurd hshows.1 (by decide)

end carma.truck
