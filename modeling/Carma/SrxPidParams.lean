-- The gains of the SRX controller as numerators of 16 bits over one divisor. The divisor is
-- rounded, and may be rounded up so far that the largest numerator does not fit.
import Mathlib.Algebra.Order.Field.Rat
import Mathlib.Algebra.Order.Floor.Ring
import Mathlib.Data.Rat.Floor
import Mathlib.Tactic.FieldSimp
import Mathlib.Tactic.Linarith

namespace carma.srx

abbrev Byte := BitVec 8

def UINT16_MAX : ℕ := 65535

def INT_MAX : ℤ := 2147483647

/-- The cast to `uint16_t`. -/
def uint16 (n : ℤ) : BitVec 16 := .ofInt 16 n

structure PIDParams_t where
  p_ : BitVec 16
  i_ : BitVec 16
  d_ : BitVec 16
  div_ : BitVec 16
deriving DecidableEq, Repr

namespace PIDParams_t

variable {K : Type} [Field K]

/-- What `p()`, `i()` and `d()` give of their numerator. -/
def gain (numerator div_ : BitVec 16) : K := (numerator.toNat : K) / (div_.toNat : K)

/-- `setF`, `none` where `boost::math::iround` throws. -/
def setF [LinearOrder K] (iround : K → Option ℤ) (p i d : K) : Option PIDParams_t := do
  let max := max (max p i) d
  let div_ ←
    if max ≠ 0 then do
      let max_div ← iround ((UINT16_MAX : K) / max)
      pure (uint16 (min max_div UINT16_MAX))
    else pure (uint16 UINT16_MAX)
  let p_ ← iround (p * (div_.toNat : K))
  let i_ ← iround (i * (div_.toNat : K))
  let d_ ← iround (d * (div_.toNat : K))
  pure ⟨uint16 p_, uint16 i_, uint16 d_, div_⟩

def setU16 (p i d div : BitVec 16) : PIDParams_t := ⟨p, i, d, div⟩

end PIDParams_t

/-! ## On the bus -/

inductive Order
  | little
  | big
deriving DecidableEq, Repr

/-- The bytes of a number, the high one first. -/
def native_to_big (x : BitVec 16) : List Byte := [(x >>> 8).setWidth 8, x.setWidth 8]

def packPIDParams (params : PIDParams_t) : List Byte :=
  native_to_big params.p_ ++ native_to_big params.i_ ++ native_to_big params.d_ ++
    native_to_big params.div_

/-- The number of two bytes in this order. -/
def toNative (order : Order) (first second : Byte) : BitVec 16 :=
  match order with
  | .little => second.append first
  | .big => first.append second

/-- `unpackPIDMessage`, `none` where it returns `false`. -/
def unpackPIDMessage (msg : List Byte) (order : Order) : Option PIDParams_t :=
  if msg.length < 8 then none
  else
    let f (i : ℕ) := toNative order (msg.getD i 0) (msg.getD (i + 1) 0)
    some (PIDParams_t.setU16 (f 0) (f 2) (f 4) (f 6))

theorem toNative_native_to_big (x : BitVec 16) :
    toNative .big ((x >>> 8).setWidth 8) (x.setWidth 8) = x := by
  apply BitVec.eq_of_getLsbD_eq
  intro k hk
  change ((x >>> 8).setWidth 8 ++ x.setWidth 8).getLsbD k = _
  rw [BitVec.getLsbD_append]
  by_cases hlow : k < 8
  · simp [hlow]
  · simp only [hlow, if_false, BitVec.getLsbD_setWidth, BitVec.getLsbD_ushiftRight]
    rw [show 8 + (k - 8) = k by omega]
    simp
    omega

theorem unpack_pack (params : PIDParams_t) :
    unpackPIDMessage (packPIDParams params) .big = some params := by
  unfold unpackPIDMessage
  rw [if_neg (by simp [packPIDParams, native_to_big])]
  simp [packPIDParams, native_to_big, PIDParams_t.setU16, toNative_native_to_big]

/-! ## The gains that are set -/

variable {K : Type} [Field K] [LinearOrder K] [FloorRing K]

/-- `boost::math::iround` on what is not negative: halves go up, and it throws where the
result is no `int`. -/
def IsIround (iround : K → Option ℤ) : Prop :=
  ∀ x, 0 ≤ x → iround x = if ⌊x + 1 / (2 : ℕ)⌋ ≤ INT_MAX then some ⌊x + 1 / (2 : ℕ)⌋ else none

/-- A numerator stands for a gain: it did not wrap, and the gain is within one part of the
divisor. -/
structure Represents (numerator div_ : BitVec 16) (gain : K) : Prop where
  whole : (numerator.toNat : ℤ) = ⌊gain * (div_.toNat : K) + 1 / (2 : ℕ)⌋
  near : |gain - PIDParams_t.gain numerator div_| ≤ 1 / (div_.toNat : K)

/-- The parameters stand for three gains. -/
structure RepresentsAll (params : PIDParams_t) (p i d : K) : Prop where
  divisor : params.div_ ≠ 0
  proportional : Represents params.p_ params.div_ p
  integral : Represents params.i_ params.div_ i
  differential : Represents params.d_ params.div_ d

/-- The quotient of the largest gain can be rounded, and where the gain is more than one, it
is not rounded up by as much as half a numerator. -/
def DivisorFits (max : K) : Prop :=
  (UINT16_MAX : K) / max < (2147483647 : ℕ) + 1 / (2 : ℕ) ∧
    (max ≤ 1 ∨ (⌊(UINT16_MAX : K) / max + 1 / (2 : ℕ)⌋ : K) - (UINT16_MAX : K) / max <
      1 / ((2 : ℕ) * max))

variable [IsStrictOrderedRing K]

theorem uint16_toNat (n : ℤ) : ((uint16 n).toNat : ℤ) = n % 65536 := by
  unfold uint16
  rw [BitVec.toNat_ofInt]
  omega

theorem half_positive : (0 : K) < 1 / (2 : ℕ) := by norm_num

/-- A rounded numerator that needs no more than 16 bits stands for its gain, and no other. -/
theorem represents_iff {gain : K} (hgain : 0 ≤ gain) {div_ : BitVec 16} (hdiv : div_ ≠ 0) :
    Represents (uint16 ⌊gain * (div_.toNat : K) + 1 / (2 : ℕ)⌋) div_ gain ↔
      ⌊gain * (div_.toNat : K) + 1 / (2 : ℕ)⌋ ≤ 65535 := by
  have hdivpos : (0 : K) < (div_.toNat : K) := by
    have hne : div_.toNat ≠ 0 := fun h => hdiv (BitVec.eq_of_toNat_eq (by simpa using h))
    exact_mod_cast Nat.pos_of_ne_zero hne
  have hnonneg : 0 ≤ ⌊gain * (div_.toNat : K) + 1 / (2 : ℕ)⌋ := by
    rw [Int.floor_nonneg]
    have := half_positive (K := K)
    positivity
  have hvalue := uint16_toNat ⌊gain * (div_.toNat : K) + 1 / (2 : ℕ)⌋
  constructor
  · intro h
    have hwhole := h.whole
    omega
  · intro h
    have hwhole : ((uint16 ⌊gain * (div_.toNat : K) + 1 / (2 : ℕ)⌋).toNat : ℤ) =
        ⌊gain * (div_.toNat : K) + 1 / (2 : ℕ)⌋ := by
      omega
    refine ⟨hwhole, ?_⟩
    have hcast : ((uint16 ⌊gain * (div_.toNat : K) + 1 / (2 : ℕ)⌋).toNat : K) =
        (⌊gain * (div_.toNat : K) + 1 / (2 : ℕ)⌋ : K) := by
      exact_mod_cast congrArg (Int.cast : ℤ → K) hwhole
    have hlow := Int.floor_le (gain * (div_.toNat : K) + 1 / (2 : ℕ))
    have hhigh := Int.lt_floor_add_one (gain * (div_.toNat : K) + 1 / (2 : ℕ))
    have hhalf : (1 / (2 : ℕ) : K) ≤ 1 := by norm_num
    unfold PIDParams_t.gain
    rw [hcast, abs_le]
    constructor
    · rw [neg_le, neg_sub, div_sub' hdivpos.ne', div_le_div_iff_of_pos_right hdivpos]
      linarith
    · rw [sub_div' hdivpos.ne', div_le_div_iff_of_pos_right hdivpos]
      linarith

/-- The divisor for a largest gain. -/
def divisorOf (max : K) : ℤ := min ⌊(UINT16_MAX : K) / max + 1 / (2 : ℕ)⌋ UINT16_MAX

section Divisor

variable {max : K} (hmax : 0 < max) (hle : max ≤ (65535 : ℕ))

include hmax hle in
theorem divisorOf_bounds : 1 ≤ divisorOf max ∧ divisorOf max ≤ 65535 := by
  have hquotient : (1 : K) ≤ (UINT16_MAX : K) / max := by
    rw [le_div_iff₀ hmax, one_mul]
    exact hle
  have hhalf := half_positive (K := K)
  have hone : 1 ≤ ⌊(UINT16_MAX : K) / max + 1 / (2 : ℕ)⌋ := by
    rw [Int.le_floor]
    push_cast at hquotient hhalf ⊢
    linarith
  unfold divisorOf UINT16_MAX at *
  omega

include hmax hle in
theorem divisorOf_toNat : ((uint16 (divisorOf max)).toNat : ℤ) = divisorOf max := by
  obtain ⟨hlow, hhigh⟩ := divisorOf_bounds hmax hle
  rw [uint16_toNat]
  omega

include hmax hle in
theorem divisorOf_ne_zero : uint16 (divisorOf max) ≠ 0 := by
  intro h
  have hzero := congrArg (fun x : BitVec 16 => (x.toNat : ℤ)) h
  simp only [divisorOf_toNat hmax hle] at hzero
  have hlow := (divisorOf_bounds hmax hle).1
  simp at hzero
  omega

include hmax in
/-- The largest gain goes at most half of itself beyond the 16 bits. -/
theorem max_mul_divisorOf_le : max * (divisorOf max : K) ≤ 65535 + max / (2 : ℕ) := by
  have hle : (divisorOf max : K) ≤ (UINT16_MAX : K) / max + 1 / (2 : ℕ) := by
    have hmin : divisorOf max ≤ ⌊(UINT16_MAX : K) / max + 1 / (2 : ℕ)⌋ := min_le_left _ _
    have hfloor := Int.floor_le ((UINT16_MAX : K) / max + 1 / (2 : ℕ))
    have hcast : (divisorOf max : K) ≤ (⌊(UINT16_MAX : K) / max + 1 / (2 : ℕ)⌋ : K) := by
      exact_mod_cast hmin
    linarith
  calc max * (divisorOf max : K) ≤ max * ((UINT16_MAX : K) / max + 1 / (2 : ℕ)) :=
        mul_le_mul_of_nonneg_left hle hmax.le
    _ = 65535 + max / (2 : ℕ) := by
        unfold UINT16_MAX
        field_simp
        push_cast
        ring

include hmax hle in
/-- With a largest gain of at most one the divisor is as large as it may be, and fits. -/
theorem max_numerator_small (hone : max ≤ 1) :
    max * (divisorOf max : K) + 1 / (2 : ℕ) < 65536 := by
  have hdivisor : (divisorOf max : K) ≤ 65535 := by
    exact_mod_cast (divisorOf_bounds hmax hle).2
  have hnonneg : (0 : K) ≤ (divisorOf max : K) := by
    have := (divisorOf_bounds hmax hle).1
    exact_mod_cast (by omega : (0 : ℤ) ≤ divisorOf max)
  have hprod : max * (divisorOf max : K) ≤ 1 * 65535 :=
    mul_le_mul hone hdivisor hnonneg zero_le_one
  have hhalf : (1 / (2 : ℕ) : K) < 1 := by norm_num
  linarith

include hmax in
/-- With a larger one it is the rounded quotient. -/
theorem divisorOf_of_one_lt (hmore : 1 < max) :
    divisorOf max = ⌊(UINT16_MAX : K) / max + 1 / (2 : ℕ)⌋ := by
  have hquotient : (UINT16_MAX : K) / max < (65535 : ℕ) := by
    rw [div_lt_iff₀ hmax]
    unfold UINT16_MAX
    push_cast
    linarith
  apply min_eq_left
  rw [← Int.lt_add_one_iff, Int.floor_lt]
  have hhalf : (1 / (2 : ℕ) : K) < 1 := by norm_num
  unfold UINT16_MAX at *
  push_cast at *
  linarith

include hmax hle in
/-- The largest numerator fits just when the quotient is not rounded up by too much. -/
theorem max_numerator_iff : ⌊max * (divisorOf max : K) + 1 / (2 : ℕ)⌋ ≤ 65535 ↔
    (max ≤ 1 ∨ (⌊(UINT16_MAX : K) / max + 1 / (2 : ℕ)⌋ : K) - (UINT16_MAX : K) / max <
      1 / ((2 : ℕ) * max)) := by
  have hlt : ⌊max * (divisorOf max : K) + 1 / (2 : ℕ)⌋ ≤ 65535 ↔
      max * (divisorOf max : K) + 1 / (2 : ℕ) < 65536 := by
    rw [← Int.lt_add_one_iff, Int.floor_lt]
    norm_num
  rw [hlt]
  by_cases hone : max ≤ 1
  · simp only [hone, true_or, iff_true]
    exact max_numerator_small hmax hle hone
  · have hdivisor := divisorOf_of_one_lt hmax (not_le.mp hone)
    rw [hdivisor]
    simp only [hone, false_or]
    rw [lt_div_iff₀ (by positivity), sub_mul]
    have hcancel : (UINT16_MAX : K) / max * ((2 : ℕ) * max) = 131070 := by
      unfold UINT16_MAX
      field_simp
      norm_num
    rw [hcancel]
    push_cast
    constructor
    · intro h
      linarith
    · intro h
      linarith

end Divisor

/-! ## setF -/

section SetF

variable {iround : K → Option ℤ} (hiround : IsIround iround) {p i d : K} (hp : 0 ≤ p) (hi : 0 ≤ i)
  (hd : 0 ≤ d) (hmax : 0 < max (max p i) d) (hle : max (max p i) d ≤ (65535 : ℕ))

include hiround in
theorem iround_divisor {max : K} (hmax : 0 < max) :
    iround ((UINT16_MAX : K) / max) =
      if (UINT16_MAX : K) / max < (2147483647 : ℕ) + 1 / (2 : ℕ) then
        some ⌊(UINT16_MAX : K) / max + 1 / (2 : ℕ)⌋
      else none := by
  have hnonneg : 0 ≤ (UINT16_MAX : K) / max := by positivity
  rw [hiround _ hnonneg]
  have hiff : ⌊(UINT16_MAX : K) / max + 1 / (2 : ℕ)⌋ ≤ INT_MAX ↔
      (UINT16_MAX : K) / max < (2147483647 : ℕ) + 1 / (2 : ℕ) := by
    rw [← Int.lt_add_one_iff, Int.floor_lt]
    unfold INT_MAX
    push_cast
    constructor
    · intro h
      linarith
    · intro h
      linarith
  simp only [hiff]

include hiround hmax hle in
theorem iround_numerator {gain : K} (hgain : 0 ≤ gain) (hgain_le : gain ≤ max (max p i) d) :
    iround (gain * (((uint16 (divisorOf (max (max p i) d))).toNat : ℕ) : K)) =
      some ⌊gain * (((uint16 (divisorOf (max (max p i) d))).toNat : ℕ) : K) + 1 / (2 : ℕ)⌋ := by
  have hdivisor : (((uint16 (divisorOf (max (max p i) d))).toNat : ℕ) : K) =
      (divisorOf (max (max p i) d) : K) := by
    exact_mod_cast congrArg (Int.cast : ℤ → K) (divisorOf_toNat hmax hle)
  rw [hdivisor]
  have hpos : (0 : K) ≤ (divisorOf (max (max p i) d) : K) := by
    have hlow := (divisorOf_bounds hmax hle).1
    exact_mod_cast (by omega : (0 : ℤ) ≤ divisorOf (max (max p i) d))
  rw [hiround _ (mul_nonneg hgain hpos), if_pos]
  have hbound := max_mul_divisorOf_le hmax
  have hprod := mul_le_mul_of_nonneg_right hgain_le hpos
  rw [← Int.lt_add_one_iff, Int.floor_lt]
  unfold INT_MAX
  push_cast at *
  linarith

include hiround hp hi hd hmax hle in
theorem setF_eq : PIDParams_t.setF iround p i d =
    if (UINT16_MAX : K) / max (max p i) d < (2147483647 : ℕ) + 1 / (2 : ℕ) then
      let div_ := uint16 (divisorOf (max (max p i) d))
      some ⟨uint16 ⌊p * (div_.toNat : K) + 1 / (2 : ℕ)⌋,
        uint16 ⌊i * (div_.toNat : K) + 1 / (2 : ℕ)⌋,
        uint16 ⌊d * (div_.toNat : K) + 1 / (2 : ℕ)⌋, div_⟩
    else none := by
  unfold PIDParams_t.setF
  simp only [hmax.ne', ne_eq, not_false_eq_true, if_true, iround_divisor hiround hmax]
  split_ifs with hfits
  · have hnump := iround_numerator hiround hmax hle hp ((le_max_left p i).trans (le_max_left _ d))
    have hnumi := iround_numerator hiround hmax hle hi ((le_max_right p i).trans (le_max_left _ d))
    have hnumd := iround_numerator hiround hmax hle hd (le_max_right _ d)
    simp only [divisorOf] at hnump hnumi hnumd ⊢
    simp only [hnump, hnumi, hnumd, bind, Option.bind, pure]
  · rfl

end SetF

omit [Field K] [IsStrictOrderedRing K] [FloorRing K] in
/-- What is inherited by smaller gains holds of all when it does of the largest. -/
theorem all_iff_max {P : K → Prop} (hP : ∀ a b, a ≤ b → P b → P a) {p i d : K} :
    (P p ∧ P i ∧ P d) ↔ P (max (max p i) d) := by
  constructor
  · rintro ⟨hp, hi, hd⟩
    rcases max_choice (max p i) d with h | h
    · rw [h]
      rcases max_choice p i with h' | h'
      · rw [h']
        exact hp
      · rw [h']
        exact hi
    · rw [h]
      exact hd
  · intro hmax
    refine ⟨?_, ?_, ?_⟩
    · exact hP _ _ ((le_max_left p i).trans (le_max_left _ d)) hmax
    · exact hP _ _ ((le_max_right p i).trans (le_max_left _ d)) hmax
    · exact hP _ _ (le_max_right _ d) hmax

/-- For gains of which the largest is positive and has 16 bits, `setF` gives numerators that
stand for them just when the divisor fits the largest one. -/
theorem setF_represents_iff (iround : K → Option ℤ) (hiround : IsIround iround) (p i d : K)
    (hp : 0 ≤ p) (hi : 0 ≤ i) (hd : 0 ≤ d) (hmax : 0 < max (max p i) d)
    (hle : max (max p i) d ≤ (65535 : ℕ)) :
    (∃ params, PIDParams_t.setF iround p i d = some params ∧ RepresentsAll params p i d) ↔
      DivisorFits (max (max p i) d) := by
  unfold DivisorFits
  rw [setF_eq hiround hp hi hd hmax hle]
  by_cases hfits : (UINT16_MAX : K) / max (max p i) d < (2147483647 : ℕ) + 1 / (2 : ℕ)
  · have hne := divisorOf_ne_zero hmax hle
    simp only [hfits, if_true, Option.some.injEq, exists_eq_left', true_and]
    rw [← max_numerator_iff hmax hle]
    have hdivisor : (((uint16 (divisorOf (max (max p i) d))).toNat : ℕ) : K) =
        (divisorOf (max (max p i) d) : K) := by
      exact_mod_cast congrArg (Int.cast : ℤ → K) (divisorOf_toNat hmax hle)
    have hpos : (0 : K) ≤ (((uint16 (divisorOf (max (max p i) d))).toNat : ℕ) : K) :=
      Nat.cast_nonneg _
    have hmono (a b : K) (hab : a ≤ b) (hb : ⌊b * (((uint16
        (divisorOf (max (max p i) d))).toNat : ℕ) : K) + 1 / (2 : ℕ)⌋ ≤ 65535) :
        ⌊a * (((uint16 (divisorOf (max (max p i) d))).toNat : ℕ) : K) + 1 / (2 : ℕ)⌋ ≤ 65535 := by
      apply le_trans (Int.floor_mono _) hb
      have := mul_le_mul_of_nonneg_right hab hpos
      linarith
    rw [← hdivisor, ← all_iff_max hmono, ← represents_iff hp hne, ← represents_iff hi hne,
      ← represents_iff hd hne]
    constructor
    · rintro ⟨-, hgainp, hgaini, hgaind⟩
      exact ⟨hgainp, hgaini, hgaind⟩
    · rintro ⟨hgainp, hgaini, hgaind⟩
      exact ⟨hne, hgainp, hgaini, hgaind⟩
  · rw [if_neg hfits]
    simp only [reduceCtorEq, false_and, exists_false, hfits]

/-- `boost::math::iround` with its default policy. -/
def boostIround (x : ℚ) : Option ℤ :=
  let r := if 0 ≤ x then ⌊x + 1 / (2 : ℕ)⌋ else ⌈x - 1 / (2 : ℕ)⌉
  if r ≤ INT_MAX ∧ -2147483648 ≤ r then some r else none

theorem boostIround_isIround : IsIround boostIround := by
  intro x hx
  have hnonneg : 0 ≤ ⌊x + 1 / (2 : ℕ)⌋ := by
    rw [Int.floor_nonneg]
    positivity
  have hlow : -2147483648 ≤ ⌊x + 1 / (2 : ℕ)⌋ := by omega
  simp only [boostIround, hx, if_true, hlow, and_true]

/-- Gains of 1, 1/2 and 0, over the divisor 65535. -/
theorem setF_of_one : ∃ params, PIDParams_t.setF boostIround 1 (1 / 2) 0 = some params ∧
    RepresentsAll params (1 : ℚ) (1 / 2) 0 := by
  apply (setF_represents_iff boostIround boostIround_isIround 1 (1 / 2) 0 (by norm_num)
    (by norm_num) (by norm_num) (by norm_num) (by norm_num)).mpr
  refine ⟨?_, Or.inl (by norm_num)⟩
  norm_num [UINT16_MAX]

/-- A gain of 2 is sent as none: its numerator of 65536 wraps to zero. -/
theorem a_gain_of_two_is_lost :
    ¬ ∀ p i d : ℚ, 0 ≤ p → 0 ≤ i → 0 ≤ d → 0 < max (max p i) d → max (max p i) d ≤ (65535 : ℕ) →
      ∃ params, PIDParams_t.setF boostIround p i d = some params ∧ RepresentsAll params p i d := by
  intro h
  obtain ⟨params, hset, hall⟩ := h 2 0 0 (by norm_num) (by norm_num) (by norm_num) (by norm_num)
    (by norm_num)
  have heq : PIDParams_t.setF boostIround 2 0 0 = some ⟨0, 0, 0, 32768⟩ := by decide +kernel
  rw [heq, Option.some.injEq] at hset
  subst hset
  have hzero : (0 : BitVec 16).toNat = 0 := rfl
  have hdiv : (32768 : BitVec 16).toNat = 32768 := rfl
  have hnear := hall.proportional.near
  simp only [PIDParams_t.gain, hzero, hdiv] at hnear
  norm_num at hnear

end carma.srx
