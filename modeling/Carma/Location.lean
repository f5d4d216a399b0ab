-- Points on the surface of the earth, as offsets in centimetres from a reference
-- point and back. An offset is rounded by adding one half and cutting, and a cut
-- goes towards zero: to the west and the south it gives one centimetre too few.
import Carma.Lib.Narrowing
import Mathlib.Algebra.Order.Floor.Ring
import Mathlib.Data.Rat.Floor
import Mathlib.Tactic.FieldSimp
import Mathlib.Tactic.Positivity

open lib.narrowing

namespace carma.asd

variable {K : Type} [LinearOrder K] [Field K]

/-- A point by its latitude and its longitude, in degrees. -/
structure Location (K : Type) where
  lat : K
  lon : K
deriving DecidableEq

section

omit [LinearOrder K]

def RADIUS_OF_EARTH_METERS : K := ((6371009 : ℕ) : K)

def PI : K := ((3141592653589793238462 : ℕ) : K) / ((1000000000000000000000 : ℕ) : K)

def CM_PER_DEG : K := RADIUS_OF_EARTH_METERS * PI / (((18 : ℕ) : K) / ((10 : ℕ) : K))

def RAD_PER_DEG : K := PI / ((180 : ℕ) : K)

end

/-- `(int)(x + 0.5)`. -/
def roundedInt [FloorRing K] (x : K) : ℤ := saturate 31 (trunc (x + 1 / ((2 : ℕ) : K)))

namespace Location

omit [LinearOrder K] in
/-- `setOffset`: the point so far east and north of the reference point. -/
def setOffset (cos : K → K) (ref : Location K) (east north : Int32) : Location K where
  lat := ref.lat + (north.toInt : K) / CM_PER_DEG
  lon := ref.lon + (east.toInt : K) / (CM_PER_DEG * cos (ref.lat * RAD_PER_DEG))

variable [FloorRing K]

def eastOffsetFrom (cos : K → K) (l p : Location K) : ℤ :=
  roundedInt ((l.lon - p.lon) * CM_PER_DEG * cos (p.lat * RAD_PER_DEG))

def northOffsetFrom (l p : Location K) : ℤ := roundedInt ((l.lat - p.lat) * CM_PER_DEG)

end Location

variable [IsStrictOrderedRing K]

omit [LinearOrder K] [IsStrictOrderedRing K] in
theorem CM_PER_DEG_ne_zero [CharZero K] : (CM_PER_DEG : K) ≠ 0 := by
  unfold CM_PER_DEG RADIUS_OF_EARTH_METERS PI
  apply div_ne_zero
  · apply mul_ne_zero
    · exact_mod_cast (by decide : (6371009 : ℕ) ≠ 0)
    · apply div_ne_zero
      · exact_mod_cast (by decide : (3141592653589793238462 : ℕ) ≠ 0)
      · exact_mod_cast (by decide : (1000000000000000000000 : ℕ) ≠ 0)
  · apply div_ne_zero
    · exact_mod_cast (by decide : (18 : ℕ) ≠ 0)
    · exact_mod_cast (by decide : (10 : ℕ) ≠ 0)

variable [FloorRing K]

/-- What is cut of a whole number and one half. -/
theorem trunc_intCast_add_half (n : ℤ) :
    trunc ((n : K) + 1 / ((2 : ℕ) : K)) = if 0 ≤ n then n else n + 1 := by
  have hhalf : (0 : K) < 1 / ((2 : ℕ) : K) := by positivity
  have hone : 1 / ((2 : ℕ) : K) + 1 / ((2 : ℕ) : K) = 1 := by
    rw [Nat.cast_ofNat]
    exact add_halves 1
  unfold trunc
  by_cases hn : 0 ≤ n
  · have hcast : (0 : K) ≤ n := by exact_mod_cast hn
    rw [if_pos hn, if_pos (by linarith), Int.floor_eq_iff]
    exact ⟨by linarith, by linarith⟩
  · have hcast : (n : K) ≤ -1 := by exact_mod_cast (by omega : n ≤ -1)
    rw [if_neg hn, if_neg (by linarith), Int.ceil_eq_iff]
    push_cast
    exact ⟨by linarith, by linarith⟩

theorem roundedInt_intCast_iff (i : Int32) : roundedInt (i.toInt : K) = i.toInt ↔ 0 ≤ i.toInt := by
  have hlow := i.le_toInt
  have hhigh := i.toInt_lt
  unfold roundedInt saturate
  rw [trunc_intCast_add_half]
  split <;> omega

namespace Location

omit [IsStrictOrderedRing K] in
theorem setOffset_eastOffsetFrom [CharZero K] (cos : K → K) (ref : Location K) (east north : Int32)
    (hcos : cos (ref.lat * RAD_PER_DEG) ≠ 0) :
    (setOffset cos ref east north).eastOffsetFrom cos ref = roundedInt (east.toInt : K) := by
  have hcm : (CM_PER_DEG : K) ≠ 0 := CM_PER_DEG_ne_zero
  unfold eastOffsetFrom setOffset
  congr 1
  field_simp
  simp

omit [IsStrictOrderedRing K] in
theorem setOffset_northOffsetFrom [CharZero K] (cos : K → K) (ref : Location K)
    (east north : Int32) :
    (setOffset cos ref east north).northOffsetFrom ref = roundedInt (north.toInt : K) := by
  have hcm : (CM_PER_DEG : K) ≠ 0 := CM_PER_DEG_ne_zero
  unfold northOffsetFrom setOffset
  congr 1
  field_simp
  simp

/-- The offsets of a point come back from it just when it is neither west nor south of
the reference point. -/
theorem offsets_come_back_iff (cos : K → K) (ref : Location K) (east north : Int32)
    (hcos : cos (ref.lat * RAD_PER_DEG) ≠ 0) :
    ((setOffset cos ref east north).eastOffsetFrom cos ref = east.toInt ∧
      (setOffset cos ref east north).northOffsetFrom ref = north.toInt) ↔
    0 ≤ east.toInt ∧ 0 ≤ north.toInt := by
  rw [setOffset_eastOffsetFrom cos ref east north hcos, setOffset_northOffsetFrom,
    roundedInt_intCast_iff, roundedInt_intCast_iff]

/-- Three metres east and one metre north of the origin. -/
theorem offsets_come_back_north_east :
    (setOffset (fun _ => 1) (⟨0, 0⟩ : Location ℚ) 300 100).eastOffsetFrom (fun _ => 1) ⟨0, 0⟩ =
        (300 : Int32).toInt ∧
      (setOffset (fun _ => 1) (⟨0, 0⟩ : Location ℚ) 300 100).northOffsetFrom ⟨0, 0⟩ =
        (100 : Int32).toInt :=
  (offsets_come_back_iff (fun _ => 1) ⟨0, 0⟩ 300 100 one_ne_zero).mpr ⟨by decide, by decide⟩

/-- One centimetre west comes back as none. -/
theorem a_centimetre_west_is_lost :
    ¬ ∀ (cos : ℚ → ℚ) (ref : Location ℚ) (east north : Int32),
      cos (ref.lat * RAD_PER_DEG) ≠ 0 →
      (setOffset cos ref east north).eastOffsetFrom cos ref = east.toInt ∧
        (setOffset cos ref east north).northOffsetFrom ref = north.toInt := by
  intro h
  have hwest := (h (fun _ => 1) ⟨0, 0⟩ (-1) 0 one_ne_zero).1
  exact absurd hwest (by decide +kernel)

end Location

end carma.asd
