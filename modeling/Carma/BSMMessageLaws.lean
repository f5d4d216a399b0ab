-- Which core data come back from the wire as they were: all but those that Java reads as
-- negative, and those with wheel brakes that the helper does not know.
import Carma.BSMMessage

open carma.j2735_msgs
open carma.message

namespace carma.bsm_message

/-! ## Filters -/

theorem inBounds_eq {min max default x : ℤ} (h : min ≤ x ∧ x ≤ max) :
    inBounds min max default x = x := if_pos h

theorem inBounds_bounds {min max default : ℤ} (hmin : min ≤ default) (hmax : default ≤ max) (x : ℤ) :
    min ≤ inBounds min max default x ∧ inBounds min max default x ≤ max := by
  unfold inBounds
  split
  · rename_i h
    exact h
  · exact ⟨hmin, hmax⟩

/-- The unavailable value is the default, so it is kept like all within the bounds. -/
theorem inBoundsUnless_eq {unavailable min max x : ℤ}
    (h : x = unavailable ∨ min ≤ x ∧ x ≤ max) :
    inBoundsUnless unavailable min max unavailable x = x := by
  unfold inBoundsUnless
  split
  · rename_i hx
    exact hx.symm
  · rename_i hx
    exact inBounds_eq (h.resolve_left hx)

theorem clampUnless_eq {unavailable min max x : ℤ} (h : x = unavailable ∨ min ≤ x ∧ x ≤ max) :
    clampUnless unavailable min max unavailable x = x := by
  unfold clampUnless
  split
  · rename_i hx
    exact hx.symm
  · rename_i hx
    obtain ⟨hmin, hmax⟩ := h.resolve_left hx
    split
    · omega
    · split <;> omega

/-! ## Signed reading -/

/-- A value of the lower half is read as it is, one of the upper half as negative. -/
theorem toInt_lower {w : ℕ} {x : BitVec w} (h : 2 * x.toNat < 2 ^ w) : x.toInt = x.toNat := by
  rw [BitVec.toInt_eq_toNat_cond, if_pos h]

theorem toInt_upper {w : ℕ} {x : BitVec w} (h : 2 ^ w ≤ 2 * x.toNat) :
    x.toInt = (x.toNat : ℤ) - 2 ^ w := by
  rw [BitVec.toInt_eq_toNat_cond, if_neg (by omega)]
  push_cast
  rfl

theorem ofInt_of_eq {w : ℕ} {x : BitVec w} {y : ℤ} (h : y = x.toInt) : BitVec.ofInt w y = x := by
  rw [h, BitVec.ofInt_toInt]

/-! ## The fields that are not always kept -/

theorem secMark_kept (x : BitVec 16) : BitVec.ofInt 16 (setSecMark x.toInt) = x ↔ x.toNat ≤ 32767 := by
  by_cases h : x.toNat ≤ 32767
  · have hint := toInt_lower (x := x) (by omega)
    refine iff_of_true (ofInt_of_eq (inBounds_eq ?_)) h
    omega
  · have hint := toInt_upper (x := x) (by omega)
    have hzero : setSecMark x.toInt = 0 := by
      unfold setSecMark inBounds
      rw [if_neg]
      have := x.isLt
      omega
    refine iff_of_false ?_ h
    rw [hzero]
    intro hx
    rw [← hx] at h
    exact h (by decide)

theorem semiAxis_kept (x : BitVec 8) :
    BitVec.ofInt 8 (setSemiAxis x.toInt) = x ↔ x.toNat ≤ 127 ∨ x.toNat = 255 := by
  revert x
  decide +kernel

theorem orientation_kept (x : BitVec 16) :
    BitVec.ofInt 16 (setOrientation x.toInt) = x ↔ x.toNat ≤ 32767 ∨ x.toNat = 65535 := by
  have hlt := x.isLt
  by_cases h : x.toNat ≤ 32767
  · have hint := toInt_lower (x := x) (by omega)
    refine iff_of_true (ofInt_of_eq ?_) (Or.inl h)
    unfold setOrientation inBoundsUnless
    rw [if_neg (by omega), inBounds_eq (by omega)]
  · have hint := toInt_upper (x := x) (by omega)
    -- what is read as negative is unavailable
    have hunavailable : setOrientation x.toInt = 65535 := by
      unfold setOrientation inBoundsUnless inBounds
      split
      · rfl
      · rw [if_neg (by omega)]
    rw [hunavailable]
    constructor
    · intro hx
      right
      rw [← hx]
      rfl
    · intro hx
      apply BitVec.eq_of_toNat_eq
      rw [hx.resolve_left h]
      rfl

theorem wheelBrakes_kept (x : BitVec 8) (h : x.toNat ≤ 31) :
    (BitVec.ofInt 8 (setWheel_brakes x.toInt)).sshiftRight 3 = x ↔ x = 0 ∨ x = 2 ∨ x = 15 := by
  revert x
  decide +kernel

theorem id_kept (x : BitVec 8) : BitVec.ofInt 8 (setId x.toInt) = x := by
  revert x
  decide +kernel

/-! ## Core data -/

/-- Core data within the ranges of J2735. -/
structure InRange (b : BSMCoreData) : Prop where
  msg_count : b.msg_count.toNat ≤ 127
  id : b.id.length = 4
  latitude : -900000000 ≤ b.latitude.toInt ∧ b.latitude.toInt ≤ 900000001
  longitude : -1799999999 ≤ b.longitude.toInt ∧ b.longitude.toInt ≤ 1800000001
  elev : -4096 ≤ b.elev.toInt ∧ b.elev.toInt ≤ 61439
  transmission : b.transmission.toNat ≤ 7
  speed : b.speed.toNat ≤ 8191
  heading : b.heading.toNat ≤ 28800
  angle : -126 ≤ b.angle.toInt ∧ b.angle.toInt ≤ 127
  lateral : -2000 ≤ b.accelSet.lateral.toInt ∧ b.accelSet.lateral.toInt ≤ 2001
  longitudinal : -2000 ≤ b.accelSet.longitudinal.toInt ∧ b.accelSet.longitudinal.toInt ≤ 2001
  vert : -127 ≤ b.accelSet.vert.toInt
  yaw_rate : -32767 ≤ b.accelSet.yaw_rate.toInt
  wheelBrakes : b.brakes.wheelBrakes.toNat ≤ 31
  traction : b.brakes.traction.toNat ≤ 3
  abs : b.brakes.abs.toNat ≤ 3
  scs : b.brakes.scs.toNat ≤ 3
  brakeBoost : b.brakes.brakeBoost.toNat ≤ 2
  auxBrakes : b.brakes.auxBrakes.toNat ≤ 3
  vehicle_width : b.size.vehicle_width.toNat ≤ 1023
  vehicle_length : b.size.vehicle_length.toNat ≤ 4095

/-- Nothing that Java reads as negative is in an unsigned field, unless it is the value for
unavailable, and the wheel brakes are all on or all off, or 2, which stands for unavailable. -/
structure Survives (b : BSMCoreData) : Prop where
  sec_mark : b.sec_mark.toNat ≤ 32767
  semiMajor : b.accuracy.semiMajor.toNat ≤ 127 ∨ b.accuracy.semiMajor.toNat = 255
  semiMinor : b.accuracy.semiMinor.toNat ≤ 127 ∨ b.accuracy.semiMinor.toNat = 255
  orientation : b.accuracy.orientation.toNat ≤ 32767 ∨ b.accuracy.orientation.toNat = 65535
  wheelBrakes : b.brakes.wheelBrakes = 0 ∨ b.brakes.wheelBrakes = 2 ∨ b.brakes.wheelBrakes = 15

/-- What the filters leave alone. -/
theorem filters_keep {b : BSMCoreData} (h : InRange b) :
    setMsgCnt b.msg_count.toInt = b.msg_count.toInt ∧
    setLat b.latitude.toInt = b.latitude.toInt ∧
    setLon b.longitude.toInt = b.longitude.toInt ∧
    setElev b.elev.toInt = b.elev.toInt ∧
    setSpeed b.speed.toInt = b.speed.toInt ∧
    setHeading b.heading.toInt = b.heading.toInt ∧
    setAngle b.angle.toInt = b.angle.toInt ∧
    setHorizontal b.accelSet.lateral.toInt = b.accelSet.lateral.toInt ∧
    setHorizontal b.accelSet.longitudinal.toInt = b.accelSet.longitudinal.toInt ∧
    setVertical b.accelSet.vert.toInt = b.accelSet.vert.toInt ∧
    setYawRate b.accelSet.yaw_rate.toInt = b.accelSet.yaw_rate.toInt ∧
    setVehicleWidth b.size.vehicle_width.toInt = b.size.vehicle_width.toInt ∧
    setVehicleLength b.size.vehicle_length.toInt = b.size.vehicle_length.toInt := by
  have hcount := toInt_lower (x := b.msg_count) (by have := h.msg_count; omega)
  have hspeed := toInt_lower (x := b.speed) (by have := h.speed; omega)
  have hheading := toInt_lower (x := b.heading) (by have := h.heading; omega)
  have hvert := BitVec.toInt_lt (x := b.accelSet.vert)
  have hyaw := BitVec.toInt_lt (x := b.accelSet.yaw_rate)
  have hwidth := toInt_lower (x := b.size.vehicle_width) (by have := h.vehicle_width; omega)
  have hlength := toInt_lower (x := b.size.vehicle_length) (by have := h.vehicle_length; omega)
  obtain ⟨_, _, _, _, _, _, _, _, _, _, _, _, _, _, _, _, _, _, _, _, _⟩ := h
  refine ⟨inBounds_eq ?_, inBoundsUnless_eq ?_, inBoundsUnless_eq ?_, inBoundsUnless_eq ?_,
    inBoundsUnless_eq ?_, inBoundsUnless_eq ?_, clampUnless_eq ?_, clampUnless_eq ?_,
    clampUnless_eq ?_, clampUnless_eq ?_, inBoundsUnless_eq ?_, inBoundsUnless_eq ?_,
    inBoundsUnless_eq ?_⟩
  all_goals omega

/-- Core data come back as they were exactly if all five fields that may be lost survive. -/
theorem fromStructure_toStructure {b : BSMCoreData} (h : InRange b) :
    fromStructure (toStructure b) = b ↔ Survives b := by
  obtain ⟨hcount, hlat, hlon, helev, hspeed, hheading, hangle, hlateral, hlongitudinal, hvert, hyaw,
    hwidth, hlength⟩ := filters_keep h
  have hid : (b.id.map fun byte => BitVec.ofInt 8 (setId byte.toInt)) = b.id := by
    rw [List.map_congr_left fun byte _ => id_kept byte, List.map_id']
  have hfields : fromStructure (toStructure b) = b ↔
      BitVec.ofInt 16 (setSecMark b.sec_mark.toInt) = b.sec_mark ∧
      BitVec.ofInt 8 (setSemiAxis b.accuracy.semiMajor.toInt) = b.accuracy.semiMajor ∧
      BitVec.ofInt 8 (setSemiAxis b.accuracy.semiMinor.toInt) = b.accuracy.semiMinor ∧
      BitVec.ofInt 16 (setOrientation b.accuracy.orientation.toInt) = b.accuracy.orientation ∧
      (BitVec.ofInt 8 (setWheel_brakes b.brakes.wheelBrakes.toInt)).sshiftRight 3 =
        b.brakes.wheelBrakes := by
    unfold fromStructure toStructure
    dsimp only
    rw [hcount, hlat, hlon, helev, hspeed, hheading, hangle, hlateral, hlongitudinal, hvert, hyaw,
      hwidth, hlength, hid]
    simp only [BitVec.ofInt_toInt]
    constructor
    · intro hb
      exact ⟨congrArg (·.sec_mark) hb, congrArg (·.accuracy.semiMajor) hb,
        congrArg (·.accuracy.semiMinor) hb, congrArg (·.accuracy.orientation) hb,
        congrArg (·.brakes.wheelBrakes) hb⟩
    · rintro ⟨hsec, hmajor, hminor, horientation, hwheel⟩
      rw [hsec, hmajor, hminor, horientation, hwheel]
  rw [hfields, secMark_kept, semiAxis_kept, semiAxis_kept, orientation_kept,
    wheelBrakes_kept _ h.wheelBrakes]
  constructor
  · rintro ⟨hsec, hmajor, hminor, horientation, hwheel⟩
    exact ⟨hsec, hmajor, hminor, horientation, hwheel⟩
  · rintro ⟨hsec, hmajor, hminor, horientation, hwheel⟩
    exact ⟨hsec, hmajor, hminor, horientation, hwheel⟩

theorem setSemiAxis_bounds (x : ℤ) : 0 ≤ setSemiAxis x ∧ setSemiAxis x ≤ 255 := by
  unfold setSemiAxis
  split
  · split
    · omega
    · split <;> omega
  · omega

theorem setOrientation_bounds (x : ℤ) : 0 ≤ setOrientation x ∧ setOrientation x ≤ 65535 := by
  unfold setOrientation inBoundsUnless inBounds
  split
  · omega
  · split <;> omega

theorem wheelBrakes_upper (x : BitVec 8) : BitVec.ofInt 8 (setWheel_brakes x.toInt) &&& 7 = 0 := by
  revert x
  decide +kernel

/-- A status of few values is read as it is. -/
theorem status_bounds {x : BitVec 8} {n : ℕ} (h : x.toNat ≤ n) (hn : n ≤ 127) :
    0 ≤ x.toInt ∧ x.toInt ≤ n := by
  have hint := toInt_lower (x := x) (by omega)
  omega

theorem bounds_of_eq {x y min max : ℤ} (h : y = x) (hx : min ≤ x ∧ x ≤ max) : min ≤ y ∧ y ≤ max := by
  rwa [h]

/-- The filters keep the constraints of J2735. -/
theorem toStructure_wellFormed {b : BSMCoreData} (h : InRange b) : (toStructure b).WellFormed := by
  obtain ⟨hcount, hlat, hlon, helev, hspeed, hheading, hangle, hlateral, hlongitudinal, hvert, hyaw,
    hwidth, hlength⟩ := filters_keep h
  have hcount' := toInt_lower (x := b.msg_count) (by have := h.msg_count; omega)
  have hspeed' := toInt_lower (x := b.speed) (by have := h.speed; omega)
  have hheading' := toInt_lower (x := b.heading) (by have := h.heading; omega)
  have hwidth' := toInt_lower (x := b.size.vehicle_width) (by have := h.vehicle_width; omega)
  have hlength' := toInt_lower (x := b.size.vehicle_length) (by have := h.vehicle_length; omega)
  have hvert' := BitVec.toInt_lt (x := b.accelSet.vert)
  have hyaw' := BitVec.toInt_lt (x := b.accelSet.yaw_rate)
  refine
    { msgCnt := bounds_of_eq hcount ?_
      id := by simpa [toStructure] using h.id
      secMark := inBounds_bounds (by decide) (by decide) _
      lat := bounds_of_eq hlat h.latitude
      Long := bounds_of_eq hlon h.longitude
      elev := bounds_of_eq helev h.elev
      semiMajor := setSemiAxis_bounds _
      semiMinor := setSemiAxis_bounds _
      orientation := setOrientation_bounds _
      transmission := status_bounds h.transmission (by decide)
      speed := bounds_of_eq hspeed ?_
      heading := bounds_of_eq hheading ?_
      angle := bounds_of_eq hangle h.angle
      accelLat := bounds_of_eq hlateral h.lateral
      accelLong := bounds_of_eq hlongitudinal h.longitudinal
      vert := bounds_of_eq hvert ⟨h.vert, by omega⟩
      yaw := bounds_of_eq hyaw ⟨h.yaw_rate, by omega⟩
      wheelBrakes := wheelBrakes_upper _
      traction := status_bounds h.traction (by decide)
      abs := status_bounds h.abs (by decide)
      scs := status_bounds h.scs (by decide)
      brakeBoost := status_bounds h.brakeBoost (by decide)
      auxBrakes := status_bounds h.auxBrakes (by decide)
      width := bounds_of_eq hwidth ?_
      length := bounds_of_eq hlength ?_ }
  · have := h.msg_count
    omega
  · have := h.speed
    omega
  · have := h.heading
    omega
  · have := h.vehicle_width
    omega
  · have := h.vehicle_length
    omega

/-- Core data that are encoded and decoded again equal the original exactly if they survive. -/
theorem core_data_survive_exactly {W : Type} (asn : Asn1c BSMcoreData_t W)
    (hasn : asn.Faithful BSMcoreData_t.WellFormed) (b : BSMCoreData) (hb : InRange b) :
    (encode asn b).bind (decode asn) = some b ↔ Survives b := by
  obtain ⟨w, hencoded, hdecoded⟩ := hasn _ (toStructure_wellFormed hb)
  have hround : (encode asn b).bind (decode asn) = some (fromStructure (toStructure b)) := by
    unfold encode decode
    rw [hencoded, Option.bind_some, hdecoded]
    rfl
  rw [hround, Option.some_inj]
  exact fromStructure_toStructure hb

/-- A coder that sends the structure as it is. -/
def plainCoder : Asn1c BSMcoreData_t BSMcoreData_t := ⟨some, some⟩

theorem plainCoder_faithful : plainCoder.Faithful BSMcoreData_t.WellFormed :=
  fun m _ => ⟨m, rfl, rfl⟩

/-- A parked vehicle with all that may be unavailable unavailable, but for the second mark. -/
def parked (secMark : BitVec 16) : BSMCoreData where
  msg_count := 1
  id := [1, 2, 3, 255]
  sec_mark := secMark
  longitude := 1800000001
  latitude := 900000001
  elev := -4096
  accuracy := ⟨255, 255, 65535⟩
  transmission := 1
  speed := 8191
  heading := 28800
  angle := 127
  accelSet := ⟨2001, 2001, -127, 0⟩
  brakes := ⟨15, 1, 2, 3, 2, 3⟩
  size := ⟨0, 0⟩

theorem parked_inRange (secMark : BitVec 16) : InRange (parked secMark) := by
  unfold parked
  constructor <;> simp

theorem half_a_minute_survives :
    (encode plainCoder (parked 30000)).bind (decode plainCoder) = some (parked 30000) :=
  (core_data_survive_exactly plainCoder plainCoder_faithful (parked 30000)
    (parked_inRange 30000)).mpr ⟨by decide, by decide, by decide, by decide, by decide⟩

/-- The second mark of the 40th second is read as negative, and zero is sent for it. -/
theorem forty_seconds_become_zero :
    InRange (parked 40000) ∧
      (encode plainCoder (parked 40000)).bind (decode plainCoder) = some (parked 0) ∧
      (encode plainCoder (parked 40000)).bind (decode plainCoder) ≠ some (parked 40000) :=
  ⟨parked_inRange 40000, by decide, by decide⟩

end carma.bsm_message
