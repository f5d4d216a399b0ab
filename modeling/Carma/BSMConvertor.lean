-- `bsm_convertor.cpp` with `value_convertor.h` and `units.h`: core data from the units of
-- J2735 into those of cav_msgs and back. A value that is not available is marked by a bit
-- of a presence vector there, and by a value of its own here.
import Carma.BSMMessage
import Mathlib.Algebra.Order.Field.Rat
import Mathlib.Algebra.Order.Floor.Ring
import Mathlib.Data.Rat.Floor
import Mathlib.Tactic.NormNum

open carma.j2735_msgs

namespace carma.bsm_convertor

variable {K : Type} [Field K]

/-! ## Units -/

namespace units

def CM_PER_M : K := (100 : ℕ)

def TENTH_MICRO_DEG_PER_DEG : K := (10000000 : ℕ)

def DECA_M_PER_M : K := (10 : ℕ)

def TWENTIETH_M_PER_M : K := (20 : ℕ)

def FIFTIETH_M_PER_M : K := (50 : ℕ)

/-- 5.10204081633. -/
def FIFTIETH_G_PER_M_PER_SEC_SQR : K := (510204081633 : ℕ) / (100000000000 : ℕ)

/-- 0.666666666666. -/
def ONE_AND_A_HALF_DEG_PER_DEG : K := (666666666666 : ℕ) / (1000000000000 : ℕ)

def CENTI_DEG_PER_DEG : K := (100 : ℕ)

def EIGHTIETH_DEG_PER_DEG : K := (80 : ℕ)

/-- 182.041666097. -/
def DEG_360_OVER_65535_PER_DEG : K := (182041666097 : ℕ) / (1000000000 : ℕ)

def UNCHANGED : K := 1

end units

/-! ## Values -/

abbrev Presence := BitVec 16

/-- A value in other units, and the presence vector with its bit set or cleared. -/
def valueJ2735ToCav (value : ℤ) (conversion_factor : K) (presence_vector presence_flag : Presence)
    (unavailability_value : ℤ) : K × Presence :=
  if value ≠ unavailability_value then
    ((value : K) / conversion_factor, presence_vector ||| presence_flag)
  else (0, presence_vector &&& ~~~presence_flag)

variable [LinearOrder K] [FloorRing K]

/-- A cast to an integer cuts off what is behind the point. -/
def truncate (x : K) : ℤ := if 0 ≤ x then ⌊x⌋ else ⌈x⌉

/-- The value in the units of J2735, in as many bits as its type has. -/
def valueCavToJ2735 (w : ℕ) (value conversion_factor : K) (presence_vector presence_flag : Presence)
    (unavailability_value : ℤ) : BitVec w :=
  if presence_vector &&& presence_flag ≠ 0 then .ofInt w (truncate (value * conversion_factor))
  else .ofInt w unavailability_value

/-! ## Messages of cav_msgs -/

structure CavVehicleSize (K : Type) where
  presence_vector : Presence
  vehicle_width : K
  vehicle_length : K

structure CavAccelerationSet4Way (K : Type) where
  presence_vector : Presence
  longitudinal : K
  lateral : K
  vert : K
  yaw_rate : K

structure CavPositionalAccuracy (K : Type) where
  presence_vector : Presence
  semiMajor : K
  semiMinor : K
  orientation : K

structure CavBSMCoreData (K : Type) where
  msg_count : BitVec 8
  id : List (BitVec 8)
  presence_vector : Presence
  sec_mark : BitVec 16
  latitude : K
  longitude : K
  elev : K
  accuracy : CavPositionalAccuracy K
  transmission : BitVec 8
  speed : K
  heading : K
  angle : K
  accelSet : CavAccelerationSet4Way K
  brakes : BrakeSystemStatus
  size : CavVehicleSize K

/-! ## To cav_msgs -/

def sizeToCav (s : VehicleSize) : CavVehicleSize K :=
  let (vehicle_width, p) := valueJ2735ToCav s.vehicle_width.toNat units.CM_PER_M 0 1 0
  let (vehicle_length, p) := valueJ2735ToCav s.vehicle_length.toNat units.CM_PER_M p 2 0
  ⟨p, vehicle_width, vehicle_length⟩

/-- The longitudinal and the lateral acceleration have one bit. -/
def accelSetToCav (a : AccelerationSet4Way) : CavAccelerationSet4Way K :=
  let (longitudinal, p) := valueJ2735ToCav a.longitudinal.toInt units.CM_PER_M 0 1 2001
  let (lateral, p) := valueJ2735ToCav a.lateral.toInt units.CM_PER_M p 1 2001
  let (vert, p) := valueJ2735ToCav a.vert.toInt units.FIFTIETH_G_PER_M_PER_SEC_SQR p 2 (-127)
  let (yaw_rate, p) := valueJ2735ToCav a.yaw_rate.toInt units.CENTI_DEG_PER_DEG p 4 0
  ⟨p, longitudinal, lateral, vert, yaw_rate⟩

/-- Both axes have one bit. -/
def accuracyToCav (a : PositionalAccuracy) : CavPositionalAccuracy K :=
  let (semiMajor, p) := valueJ2735ToCav a.semiMajor.toNat units.TWENTIETH_M_PER_M 0 1 255
  let (semiMinor, p) := valueJ2735ToCav a.semiMinor.toNat units.TWENTIETH_M_PER_M p 1 255
  let (orientation, p) :=
    valueJ2735ToCav a.orientation.toNat units.DEG_360_OVER_65535_PER_DEG p 2 65535
  ⟨p, semiMajor, semiMinor, orientation⟩

def toCav (b : BSMCoreData) : CavBSMCoreData K :=
  let (sec_mark, p) := valueJ2735ToCav (K := K) b.sec_mark.toNat units.UNCHANGED 0 1 65535
  let (latitude, p) :=
    valueJ2735ToCav b.latitude.toInt units.TENTH_MICRO_DEG_PER_DEG p 2 900000001
  let (longitude, p) :=
    valueJ2735ToCav b.longitude.toInt units.TENTH_MICRO_DEG_PER_DEG p 4 1800000001
  let (elev, p) := valueJ2735ToCav b.elev.toInt units.DECA_M_PER_M p 8 (-4096)
  let (speed, p) := valueJ2735ToCav b.speed.toNat units.FIFTIETH_M_PER_M p 16 8191
  let (heading, p) := valueJ2735ToCav b.heading.toNat units.EIGHTIETH_DEG_PER_DEG p 32 28800
  let (angle, p) := valueJ2735ToCav b.angle.toInt units.ONE_AND_A_HALF_DEG_PER_DEG p 64 127
  { msg_count := b.msg_count
    id := b.id
    presence_vector := p
    sec_mark := .ofInt 16 (truncate sec_mark)
    latitude := latitude
    longitude := longitude
    elev := elev
    accuracy := accuracyToCav b.accuracy
    transmission := b.transmission
    speed := speed
    heading := heading
    angle := angle
    accelSet := accelSetToCav b.accelSet
    brakes := b.brakes
    size := sizeToCav b.size }

/-! ## To j2735_msgs -/

def sizeToJ2735 (s : CavVehicleSize K) : VehicleSize where
  vehicle_width := valueCavToJ2735 16 s.vehicle_width units.CM_PER_M s.presence_vector 1 0
  vehicle_length := valueCavToJ2735 16 s.vehicle_length units.CM_PER_M s.presence_vector 2 0

def accelSetToJ2735 (a : CavAccelerationSet4Way K) : AccelerationSet4Way where
  longitudinal := valueCavToJ2735 16 a.longitudinal units.CM_PER_M a.presence_vector 1 2001
  lateral := valueCavToJ2735 16 a.lateral units.CM_PER_M a.presence_vector 1 2001
  vert :=
    valueCavToJ2735 8 a.vert units.FIFTIETH_G_PER_M_PER_SEC_SQR a.presence_vector 2 (-127)
  yaw_rate := valueCavToJ2735 16 a.yaw_rate units.CENTI_DEG_PER_DEG a.presence_vector 4 0

def accuracyToJ2735 (a : CavPositionalAccuracy K) : PositionalAccuracy where
  semiMajor := valueCavToJ2735 8 a.semiMajor units.TWENTIETH_M_PER_M a.presence_vector 1 255
  semiMinor := valueCavToJ2735 8 a.semiMinor units.TWENTIETH_M_PER_M a.presence_vector 1 255
  orientation :=
    valueCavToJ2735 16 a.orientation units.DEG_360_OVER_65535_PER_DEG a.presence_vector 2 65535

def toJ2735 (b : CavBSMCoreData K) : BSMCoreData :=
  let p := b.presence_vector
  { msg_count := b.msg_count
    id := b.id
    sec_mark := valueCavToJ2735 16 (b.sec_mark.toNat : K) units.UNCHANGED p 1 65535
    longitude := valueCavToJ2735 32 b.longitude units.TENTH_MICRO_DEG_PER_DEG p 4 1800000001
    latitude := valueCavToJ2735 32 b.latitude units.TENTH_MICRO_DEG_PER_DEG p 2 900000001
    elev := valueCavToJ2735 32 b.elev units.DECA_M_PER_M p 8 (-4096)
    accuracy := accuracyToJ2735 b.accuracy
    transmission := b.transmission
    speed := valueCavToJ2735 16 b.speed units.FIFTIETH_M_PER_M p 16 8191
    heading := valueCavToJ2735 16 b.heading units.EIGHTIETH_DEG_PER_DEG p 32 28800
    angle := valueCavToJ2735 8 b.angle units.ONE_AND_A_HALF_DEG_PER_DEG p 64 127
    accelSet := accelSetToJ2735 b.accelSet
    brakes := b.brakes
    size := sizeToJ2735 b.size }

/-! ## One value -/

theorem truncate_intCast [IsStrictOrderedRing K] (x : ℤ) : truncate (x : K) = x := by
  unfold truncate
  split
  · exact Int.floor_intCast x
  · exact Int.ceil_intCast x

/-- A value comes back where its bit says that it is there. Where the bit says so of a value
that was not, zero comes back. -/
theorem value_back [IsStrictOrderedRing K] (w : ℕ) (x : ℤ) {f : K} (hf : f ≠ 0) (p q flag : Presence)
    (u : ℤ) : valueCavToJ2735 w (valueJ2735ToCav x f p flag u).1 f q flag u =
      if q &&& flag ≠ 0 then .ofInt w (if x ≠ u then x else 0) else .ofInt w u := by
  have hvalue : truncate ((valueJ2735ToCav x f p flag u).1 * f) = if x ≠ u then x else 0 := by
    unfold valueJ2735ToCav
    split
    · rw [div_mul_cancel₀ _ hf, truncate_intCast]
    · rw [zero_mul, ← Int.cast_zero, truncate_intCast]
  unfold valueCavToJ2735
  rw [hvalue]

omit [LinearOrder K] [FloorRing K] in
theorem marked_self (x : ℤ) (f : K) (p : Presence) {flag : Presence} (hflag : flag ≠ 0) (u : ℤ) :
    (valueJ2735ToCav x f p flag u).2 &&& flag ≠ 0 ↔ x ≠ u := by
  have hset : (p ||| flag) &&& flag = flag := by
    ext i hi
    cases hp : p[i] <;> simp [hp]
  have hclear : (p &&& ~~~flag) &&& flag = 0 := by
    ext i hi
    cases hf : flag[i] <;> simp [hf]
  unfold valueJ2735ToCav
  split
  · rename_i h
    rw [hset]
    exact iff_of_true hflag h
  · rename_i h
    rw [hclear]
    exact iff_of_false (not_not.mpr rfl) h

omit [LinearOrder K] [FloorRing K] in
theorem marked_other (x : ℤ) (f : K) (p : Presence) {flag other : Presence}
    (hother : other &&& flag = 0) (u : ℤ) :
    (valueJ2735ToCav x f p other u).2 &&& flag = p &&& flag := by
  have hbit : ∀ (i : ℕ) (hi : i < 16), (other[i] && flag[i]) = false := by
    intro i hi
    simpa using congrArg (fun b : Presence => b[i]) hother
  unfold valueJ2735ToCav
  split
  · ext i hi
    have := hbit i hi
    cases hp : p[i] <;> simp_all
  · ext i hi
    have := hbit i hi
    cases hp : p[i] <;> cases hf : flag[i] <;> simp_all

theorem own_bit_back [IsStrictOrderedRing K] {w : ℕ} (x : ℤ) {f : K} (hf : f ≠ 0) (p : Presence)
    {q flag : Presence} {u : ℤ} (hq : q &&& flag ≠ 0 ↔ x ≠ u) :
    valueCavToJ2735 w (valueJ2735ToCav x f p flag u).1 f q flag u = .ofInt w x := by
  rw [value_back w x hf]
  by_cases h : x = u
  · rw [if_neg (by simpa [h] using hq), h]
  · rw [if_pos (hq.mpr h), if_pos h]

theorem signed_back {w : ℕ} (hw : 0 < w) (X : BitVec w) {z : ℤ} (hlow : -2 ^ (w - 1) ≤ z)
    (hhigh : z < 2 ^ (w - 1)) : BitVec.ofInt w z = X ↔ z = X.toInt := by
  constructor
  · rintro rfl
    exact (BitVec.toInt_ofInt_eq_self hw hlow hhigh).symm
  · rintro rfl
    exact BitVec.ofInt_toInt

theorem unsigned_back {w : ℕ} (X : BitVec w) : BitVec.ofInt w (X.toNat : ℤ) = X := by
  rw [BitVec.ofInt_natCast, BitVec.ofNat_toNat, BitVec.setWidth_eq]

/-- A value with the bit of another one comes back exactly if both are there or both are not.
What is not there is not zero. -/
theorem shared_bit_back [IsStrictOrderedRing K] {w : ℕ} {X Y : BitVec w} {x y : ℤ} {f : K} (hf : f ≠ 0)
    (p : Presence) {q flag : Presence} {u : ℤ} (hq : q &&& flag ≠ 0 ↔ y ≠ u)
    (hX : BitVec.ofInt w x = X) (hx : BitVec.ofInt w u = X ↔ u = x)
    (hy : BitVec.ofInt w u = Y ↔ u = y) (hzero : BitVec.ofInt w 0 ≠ BitVec.ofInt w u) :
    valueCavToJ2735 w (valueJ2735ToCav x f p flag u).1 f q flag u = X ↔
      (X = .ofInt w u ↔ Y = .ofInt w u) := by
  rw [value_back w x hf, eq_comm (a := X) (b := BitVec.ofInt w u), hx, eq_comm (a := Y), hy]
  by_cases hyu : u = y
  · rw [if_neg (by simpa [hyu] using hq), hx]
    simp [hyu]
  · rw [if_pos (hq.mpr (Ne.symm hyu))]
    by_cases hxu : u = x
    · rw [if_neg (not_not.mpr hxu.symm)]
      have hne : BitVec.ofInt w 0 ≠ X := by
        rw [← hx.mpr hxu]
        exact hzero
      exact iff_of_false hne fun h => hyu (h.mp hxu)
    · rw [if_pos (Ne.symm hxu), hX]
      simp [hxu, hyu]

/-! ## Messages -/

section messages

variable [IsStrictOrderedRing K]

theorem size_back (s : VehicleSize) : sizeToJ2735 (sizeToCav s : CavVehicleSize K) = s := by
  have hcm : (units.CM_PER_M : K) ≠ 0 := by norm_num [units.CM_PER_M]
  unfold sizeToJ2735 sizeToCav
  dsimp only
  rw [own_bit_back _ hcm, own_bit_back _ hcm, unsigned_back, unsigned_back]
  · exact marked_self _ _ _ (by decide) _
  · rw [marked_other _ _ _ (by decide)]
    exact marked_self _ _ _ (by decide) _

/-- The acceleration comes back exactly if both values of the shared bit are there or both
are not. -/
theorem accelSet_back (a : AccelerationSet4Way) :
    accelSetToJ2735 (accelSetToCav a : CavAccelerationSet4Way K) = a ↔
      (a.longitudinal = 2001 ↔ a.lateral = 2001) := by
  have hcm : (units.CM_PER_M : K) ≠ 0 := by norm_num [units.CM_PER_M]
  have hg : (units.FIFTIETH_G_PER_M_PER_SEC_SQR : K) ≠ 0 := by
    norm_num [units.FIFTIETH_G_PER_M_PER_SEC_SQR]
  have hdeg : (units.CENTI_DEG_PER_DEG : K) ≠ 0 := by norm_num [units.CENTI_DEG_PER_DEG]
  have hback : accelSetToJ2735 (accelSetToCav a : CavAccelerationSet4Way K) =
      { a with longitudinal := (accelSetToJ2735 (accelSetToCav a : CavAccelerationSet4Way K)).longitudinal } := by
    unfold accelSetToJ2735 accelSetToCav
    dsimp only
    rw [own_bit_back a.lateral.toInt hcm, own_bit_back a.vert.toInt hg,
      own_bit_back a.yaw_rate.toInt hdeg, BitVec.ofInt_toInt, BitVec.ofInt_toInt, BitVec.ofInt_toInt]
    · exact marked_self _ _ _ (by decide) _
    · rw [marked_other _ _ _ (by decide)]
      exact marked_self _ _ _ (by decide) _
    · rw [marked_other _ _ _ (by decide), marked_other _ _ _ (by decide)]
      exact marked_self _ _ _ (by decide) _
  have hmark : (accelSetToCav a : CavAccelerationSet4Way K).presence_vector &&& 1 ≠ 0 ↔
      a.lateral.toInt ≠ 2001 := by
    unfold accelSetToCav
    dsimp only
    rw [marked_other _ _ _ (by decide), marked_other _ _ _ (by decide)]
    exact marked_self _ _ _ (by decide) _
  have hlongitudinal : (accelSetToJ2735 (accelSetToCav a : CavAccelerationSet4Way K)).longitudinal =
      a.longitudinal ↔ (a.longitudinal = 2001 ↔ a.lateral = 2001) :=
    shared_bit_back hcm 0 hmark BitVec.ofInt_toInt
      (signed_back (by decide) _ (by decide) (by decide))
      (signed_back (by decide) _ (by decide) (by decide)) (by decide)
  rw [← hlongitudinal]
  constructor
  · exact congrArg AccelerationSet4Way.longitudinal
  · intro h
    rw [hback, h]

/-- The accuracy comes back exactly if both axes of the shared bit are there or both are not. -/
theorem accuracy_back (a : PositionalAccuracy) :
    accuracyToJ2735 (accuracyToCav a : CavPositionalAccuracy K) = a ↔
      (a.semiMajor = 255 ↔ a.semiMinor = 255) := by
  have hm : (units.TWENTIETH_M_PER_M : K) ≠ 0 := by norm_num [units.TWENTIETH_M_PER_M]
  have hdeg : (units.DEG_360_OVER_65535_PER_DEG : K) ≠ 0 := by
    norm_num [units.DEG_360_OVER_65535_PER_DEG]
  have hunavailable : ∀ X : BitVec 8, BitVec.ofInt 8 255 = X ↔ (255 : ℤ) = X.toNat := by
    intro X
    constructor
    · rintro rfl
      rfl
    · intro h
      rw [h, unsigned_back]
  have hback : accuracyToJ2735 (accuracyToCav a : CavPositionalAccuracy K) =
      { a with semiMajor := (accuracyToJ2735 (accuracyToCav a : CavPositionalAccuracy K)).semiMajor } := by
    unfold accuracyToJ2735 accuracyToCav
    dsimp only
    rw [own_bit_back (a.semiMinor.toNat : ℤ) hm, own_bit_back (a.orientation.toNat : ℤ) hdeg,
      unsigned_back, unsigned_back]
    · exact marked_self _ _ _ (by decide) _
    · rw [marked_other _ _ _ (by decide)]
      exact marked_self _ _ _ (by decide) _
  have hmark : (accuracyToCav a : CavPositionalAccuracy K).presence_vector &&& 1 ≠ 0 ↔
      (a.semiMinor.toNat : ℤ) ≠ 255 := by
    unfold accuracyToCav
    dsimp only
    rw [marked_other _ _ _ (by decide)]
    exact marked_self _ _ _ (by decide) _
  have hsemiMajor : (accuracyToJ2735 (accuracyToCav a : CavPositionalAccuracy K)).semiMajor =
      a.semiMajor ↔ (a.semiMajor = 255 ↔ a.semiMinor = 255) :=
    shared_bit_back hm 0 hmark (unsigned_back _) (hunavailable _) (hunavailable _) (by decide)
  rw [← hsemiMajor]
  constructor
  · exact congrArg PositionalAccuracy.semiMajor
  · intro h
    rw [hback, h]

theorem secMark_whole (x : BitVec 16) (p flag : Presence) (u : ℤ) :
    ((BitVec.ofInt 16 (truncate (valueJ2735ToCav (K := K) x.toNat units.UNCHANGED p flag u).1)).toNat :
      K) = (valueJ2735ToCav x.toNat units.UNCHANGED p flag u).1 := by
  unfold valueJ2735ToCav units.UNCHANGED
  split
  · rw [div_one, truncate_intCast, unsigned_back, Int.cast_natCast]
  · rw [← Int.cast_zero, truncate_intCast]
    norm_num

/-- All that has a bit of its own comes back. -/
theorem core_back (b : BSMCoreData) : toJ2735 (toCav b : CavBSMCoreData K) =
    { b with
      accuracy := accuracyToJ2735 (accuracyToCav b.accuracy : CavPositionalAccuracy K)
      accelSet := accelSetToJ2735 (accelSetToCav b.accelSet : CavAccelerationSet4Way K) } := by
  have hsame : (units.UNCHANGED : K) ≠ 0 := one_ne_zero
  have hmicro : (units.TENTH_MICRO_DEG_PER_DEG : K) ≠ 0 := by
    norm_num [units.TENTH_MICRO_DEG_PER_DEG]
  have hdeca : (units.DECA_M_PER_M : K) ≠ 0 := by norm_num [units.DECA_M_PER_M]
  have hspeed : (units.FIFTIETH_M_PER_M : K) ≠ 0 := by norm_num [units.FIFTIETH_M_PER_M]
  have hheading : (units.EIGHTIETH_DEG_PER_DEG : K) ≠ 0 := by norm_num [units.EIGHTIETH_DEG_PER_DEG]
  have hangle : (units.ONE_AND_A_HALF_DEG_PER_DEG : K) ≠ 0 := by
    norm_num [units.ONE_AND_A_HALF_DEG_PER_DEG]
  unfold toJ2735 toCav
  dsimp only
  rw [secMark_whole, size_back, own_bit_back (b.sec_mark.toNat : ℤ) hsame,
    own_bit_back b.longitude.toInt hmicro, own_bit_back b.latitude.toInt hmicro,
    own_bit_back b.elev.toInt hdeca, own_bit_back (b.speed.toNat : ℤ) hspeed,
    own_bit_back (b.heading.toNat : ℤ) hheading, own_bit_back b.angle.toInt hangle]
  · simp only [unsigned_back, BitVec.ofInt_toInt]
  any_goals simp (disch := decide) only [marked_other]
  all_goals exact marked_self _ _ _ (by decide) _

/-- Core data come back as they were exactly if the values that share a bit are available
together. -/
theorem conversion_is_lossless_exactly (b : BSMCoreData) :
    toJ2735 (toCav b : CavBSMCoreData K) = b ↔
      (b.accelSet.longitudinal = 2001 ↔ b.accelSet.lateral = 2001) ∧
      (b.accuracy.semiMajor = 255 ↔ b.accuracy.semiMinor = 255) := by
  have hfields : toJ2735 (toCav b : CavBSMCoreData K) = b ↔
      accelSetToJ2735 (accelSetToCav b.accelSet : CavAccelerationSet4Way K) = b.accelSet ∧
      accuracyToJ2735 (accuracyToCav b.accuracy : CavPositionalAccuracy K) = b.accuracy := by
    rw [core_back]
    constructor
    · intro h
      exact ⟨congrArg (·.accelSet) h, congrArg (·.accuracy) h⟩
    · rintro ⟨haccel, haccuracy⟩
      rw [haccel, haccuracy]
  rw [hfields, accelSet_back, accuracy_back]

end messages

/-- A braking vehicle without a lateral acceleration, with one axis of its accuracy. -/
def braking : BSMCoreData where
  msg_count := 1
  id := [1, 2, 3, 4]
  sec_mark := 65535
  longitude := 10
  latitude := 10
  elev := 10
  accuracy := ⟨20, 255, 65535⟩
  transmission := 2
  speed := 500
  heading := 28800
  angle := 127
  accelSet := ⟨-300, 2001, -127, 0⟩
  brakes := ⟨15, 0, 0, 0, 0, 0⟩
  size := ⟨200, 500⟩

/-- With a lateral acceleration and the other axis too it comes back. -/
theorem a_whole_braking_comes_back :
    toJ2735 (toCav { braking with
        accelSet := ⟨-300, 5, -127, 0⟩, accuracy := ⟨20, 30, 65535⟩ } : CavBSMCoreData ℚ) =
      { braking with accelSet := ⟨-300, 5, -127, 0⟩, accuracy := ⟨20, 30, 65535⟩ } :=
  (conversion_is_lossless_exactly _).mpr ⟨by decide, by decide⟩

/-- The braking and the axis are lost. -/
theorem a_braking_is_lost :
    (toJ2735 (toCav braking : CavBSMCoreData ℚ)).accelSet.longitudinal = 2001 ∧
      (toJ2735 (toCav braking : CavBSMCoreData ℚ)).accuracy.semiMajor = 255 ∧
      toJ2735 (toCav braking : CavBSMCoreData ℚ) ≠ braking := by
  have hlongitudinal :
      (toJ2735 (toCav braking : CavBSMCoreData ℚ)).accelSet.longitudinal = 2001 := by
    decide +kernel
  refine ⟨hlongitudinal, by decide +kernel, fun h => ?_⟩
  rw [h] at hlongitudinal
  exact absurd hlongitudinal (by decide)

end carma.bsm_convertor
