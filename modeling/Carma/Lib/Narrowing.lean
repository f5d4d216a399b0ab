-- Casts that narrow: whole numbers into a few bits, and numbers of an ordered field
-- to whole numbers, towards zero.
import Mathlib.Algebra.Order.Floor.Ring
import Mathlib.Tactic.Linarith
import Mathlib.Tactic.Positivity

namespace lib.narrowing

/-! ## Into a few bits -/

/-- A whole number comes back from `n + 1` bits just when it fits in them. -/
theorem toInt_ofInt_eq_self_iff (n : ℕ) (x : ℤ) :
    (BitVec.ofInt (n + 1) x).toInt = x ↔ -2 ^ n ≤ x ∧ x < 2 ^ n := by
  rw [BitVec.toInt_ofInt]
  have hpow : ((2 ^ (n + 1) : ℕ) : ℤ) = 2 * 2 ^ n := by
    rw [pow_succ']
    simp
  have hpos : (0 : ℤ) < 2 ^ n := pow_pos (by decide) n
  constructor
  · intro h
    have hlow := Int.le_bmod (x := x) (m := 2 ^ (n + 1)) (by positivity)
    have hhigh := Int.bmod_lt (x := x) (m := 2 ^ (n + 1)) (by positivity)
    rw [h, hpow] at hlow hhigh
    omega
  · rintro ⟨hlow, hhigh⟩
    apply Int.bmod_eq_of_le
    · rw [hpow]
      omega
    · rw [hpow]
      omega

/-- What is lost by narrowing is a multiple of the range. -/
theorem toInt_ofInt_far (n : ℕ) {x : ℤ} (h : ¬ (-2 ^ n ≤ x ∧ x < 2 ^ n)) :
    2 ^ (n + 1) ≤ |x - (BitVec.ofInt (n + 1) x).toInt| := by
  have hne := mt (toInt_ofInt_eq_self_iff n x).mp h
  rw [BitVec.toInt_ofInt] at *
  have hdvd : ((2 ^ (n + 1) : ℕ) : ℤ) ∣ x - x.bmod (2 ^ (n + 1)) := Int.dvd_self_sub_bmod
  have hsub : x - x.bmod (2 ^ (n + 1)) ≠ 0 := fun h0 => hne (by omega)
  have hle := Int.le_of_dvd (abs_pos.mpr hsub) ((dvd_abs _ _).mpr hdvd)
  rw [Nat.cast_pow] at hle
  exact hle

/-- The value of `n + 1` bits, with a sign, that a whole number wraps to. -/
def wrap (n : ℕ) (x : ℤ) : ℤ := (BitVec.ofInt (n + 1) x).toInt

theorem wrap_eq_self {n : ℕ} {x : ℤ} (hlow : -2 ^ n ≤ x) (hhigh : x < 2 ^ n) : wrap n x = x :=
  (toInt_ofInt_eq_self_iff n x).mpr ⟨hlow, hhigh⟩

/-- What is not below the range can only lose. -/
theorem wrap_le {n : ℕ} {x : ℤ} (hlow : -2 ^ n ≤ x) : wrap n x ≤ x := by
  by_cases hhigh : x < 2 ^ n
  · exact (wrap_eq_self hlow hhigh).le
  · have hbound := (BitVec.ofInt (n + 1) x).toInt_lt
    rw [Nat.add_sub_cancel] at hbound
    unfold wrap
    omega

/-- The value of `n + 1` bits, with a sign, that is nearest to a whole number. -/
def saturate (n : ℕ) (x : ℤ) : ℤ := max (-2 ^ n) (min (2 ^ n - 1) x)

theorem saturate_between (n : ℕ) (x : ℤ) : -2 ^ n ≤ saturate n x ∧ saturate n x < 2 ^ n := by
  have hpos : (0 : ℤ) < 2 ^ n := pow_pos (by decide) n
  unfold saturate
  omega

theorem saturate_eq_self {n : ℕ} {x : ℤ} (hlow : -2 ^ n ≤ x) (hhigh : x < 2 ^ n) :
    saturate n x = x := by
  unfold saturate
  omega

theorem saturate_le {n : ℕ} {x : ℤ} (hlow : -2 ^ n ≤ x) : saturate n x ≤ x := by
  unfold saturate
  omega

theorem le_saturate {n : ℕ} {x : ℤ} (hhigh : x < 2 ^ n) : x ≤ saturate n x := by
  unfold saturate
  omega

theorem saturate_nonneg {n : ℕ} {x : ℤ} (h : 0 ≤ x) : 0 ≤ saturate n x := by
  have hpos : (0 : ℤ) < 2 ^ n := pow_pos (by decide) n
  unfold saturate
  omega

/-! ## To a whole number -/

variable {K : Type*} [LinearOrder K] [Field K] [FloorRing K]

/-- The whole number on the way to zero. -/
def trunc (x : K) : ℤ := if 0 ≤ x then ⌊x⌋ else ⌈x⌉

section

variable [IsStrictOrderedRing K]

@[simp] theorem trunc_intCast (n : ℤ) : trunc (n : K) = n := by
  unfold trunc
  split <;> simp

omit [IsStrictOrderedRing K] in
theorem trunc_le_self {x : K} (h : 0 < trunc x) : (trunc x : K) ≤ x := by
  unfold trunc at *
  split at h
  · rename_i hx
    rw [if_pos hx]
    exact Int.floor_le x
  · rename_i hx
    have hceil : ⌈x⌉ ≤ 0 := Int.ceil_le.mpr (by simpa using (not_le.mp hx).le)
    omega

omit [IsStrictOrderedRing K] in
theorem self_le_trunc {x : K} (h : trunc x < 0) : x ≤ (trunc x : K) := by
  unfold trunc at *
  split at h
  · rename_i hx
    have hfloor : 0 ≤ ⌊x⌋ := Int.le_floor.mpr (by simpa using hx)
    omega
  · rename_i hx
    rw [if_neg hx]
    exact Int.le_ceil x

omit [IsStrictOrderedRing K] in
theorem trunc_nonneg {x : K} (h : 0 ≤ x) : 0 ≤ trunc x := by
  unfold trunc
  rw [if_pos h]
  exact Int.floor_nonneg.mpr h

omit [IsStrictOrderedRing K] in
theorem trunc_le_of_nonneg {x : K} (h : 0 ≤ x) : (trunc x : K) ≤ x := by
  unfold trunc
  rw [if_pos h]
  exact Int.floor_le x

theorem trunc_nonpos {x : K} (h : x ≤ 0) : trunc x ≤ 0 := by
  unfold trunc
  split
  · rename_i hx
    rw [le_antisymm h hx, Int.floor_zero]
  · exact Int.ceil_le.mpr (by simpa using h)

/-- Whole bounds are kept. -/
theorem trunc_mem {x : K} {n : ℤ} (hlow : -(n : K) ≤ x) (hhigh : x ≤ n) :
    -n ≤ trunc x ∧ trunc x ≤ n := by
  rcases le_total 0 x with hx | hx
  · have hle : trunc x ≤ n := Int.cast_le.mp ((trunc_le_of_nonneg hx).trans hhigh)
    have hnonneg := trunc_nonneg hx
    omega
  · have hle : ((-n : ℤ) : K) ≤ (0 : ℤ) := by
      rw [Int.cast_neg, Int.cast_zero]
      exact hlow.trans hx
    have hn : -n ≤ 0 := Int.cast_le.mp hle
    have hnonpos := trunc_nonpos hx
    rcases hnonpos.lt_or_eq with hneg | hzero
    · have hcast : ((-n : ℤ) : K) ≤ trunc x := by
        rw [Int.cast_neg]
        exact hlow.trans (self_le_trunc hneg)
      have hge : -n ≤ trunc x := Int.cast_le.mp hcast
      omega
    · omega

theorem lt_trunc_add_one (x : K) : x < trunc x + 1 := by
  unfold trunc
  split
  · exact Int.lt_floor_add_one x
  · exact (Int.le_ceil x).trans_lt (lt_add_one _)

/-- Less than one is lost. -/
theorem abs_sub_trunc_lt_one (x : K) : |x - trunc x| < 1 := by
  unfold trunc
  split
  · rw [abs_of_nonneg (sub_nonneg.mpr (Int.floor_le x))]
    linarith [Int.lt_floor_add_one x]
  · rw [abs_of_nonpos (sub_nonpos.mpr (Int.le_ceil x))]
    linarith [Int.ceil_lt_add_one x]

omit [IsStrictOrderedRing K] in
/-- What adding a half and cutting keeps within one. -/
def RoundsWell (x : K) : Prop :=
  -(1 / ((2 : ℕ) : K)) ≤ x ∨ Int.fract (-x) = 0 ∨ 1 / ((2 : ℕ) : K) ≤ Int.fract (-x)

/-- A negative number gains up to one and a half. -/
theorem trunc_add_half_near_iff (x : K) :
    |(trunc (x + 1 / ((2 : ℕ) : K)) : K) - x| ≤ 1 ↔ RoundsWell x := by
  have hhalf : 1 / ((2 : ℕ) : K) + 1 / ((2 : ℕ) : K) = 1 := by
    rw [Nat.cast_ofNat]
    exact add_halves 1
  have hpos : (0 : K) < 1 / ((2 : ℕ) : K) := by positivity
  unfold RoundsWell
  generalize 1 / ((2 : ℕ) : K) = half at *
  unfold trunc
  by_cases hx : 0 ≤ x + half
  · have hle := Int.floor_le (x + half)
    have hlt := Int.lt_floor_add_one (x + half)
    rw [if_pos hx, abs_le]
    constructor
    · intro _
      left
      linarith
    · intro _
      constructor <;> linarith
  · have hfract := Int.self_sub_floor (-x)
    have hnonneg := Int.fract_nonneg (-x)
    have hone := Int.fract_lt_one (-x)
    rw [if_neg hx]
    by_cases hlarge : half ≤ Int.fract (-x)
    · have hceil : ⌈x + half⌉ = -⌊-x⌋ := by
        rw [Int.ceil_eq_iff]
        push_cast
        constructor <;> linarith
      rw [hceil, abs_le]
      push_cast
      constructor
      · intro _
        exact Or.inr (Or.inr hlarge)
      · intro _
        constructor <;> linarith
    · have hceil : ⌈x + half⌉ = -⌊-x⌋ + 1 := by
        rw [Int.ceil_eq_iff]
        push_cast
        constructor <;> linarith [not_le.mp hlarge]
      rw [hceil, abs_le]
      push_cast
      constructor
      · rintro ⟨-, hhigh⟩
        exact Or.inr (Or.inl (le_antisymm (by linarith) hnonneg))
      · rintro (hlow | hzero | hhalf)
        · exact absurd (by linarith) hx
        · constructor <;> linarith
        · exact absurd hhalf hlarge

end

end lib.narrowing
