-- Motions of constant acceleration on a line: where one is after a time and how fast it is there,
-- and the one time that it takes from one speed at one place to another at the next.
import Mathlib.Algebra.Order.Field.Basic
import Mathlib.Tactic.FieldSimp
import Mathlib.Tactic.Linarith
import Mathlib.Tactic.LinearCombination
import Mathlib.Tactic.Ring

namespace lib.uniform_motion

variable {K : Type} [Field K]

/-- A motion as it is now. -/
@[ext]
structure Course (K : Type) where
  pos : K
  speed : K
  accel : K

/-- The motion a time later. -/
def Course.after (m : Course K) (t : K) : Course K where
  pos := m.pos + m.speed * t + m.accel * t * t / (2 : ℕ)
  speed := m.speed + m.accel * t
  accel := m.accel

@[simp] theorem Course.after_zero (m : Course K) : m.after 0 = m := by
  unfold Course.after
  ext <;> simp

/-- The time that a motion takes to a place where it has this speed: the distance at the mean of
the two speeds. -/
def Course.timeTo (m : Course K) (pos speed : K) : K := (2 : ℕ) * (pos - m.pos) / (m.speed + speed)

/-- The motion from one place and speed to another place and speed. -/
def between (startPos endPos startSpeed endSpeed : K) : Course K where
  pos := startPos
  speed := startSpeed
  accel := (endSpeed * endSpeed - startSpeed * startSpeed) / ((2 : ℕ) * (endPos - startPos))

variable [LinearOrder K] [IsStrictOrderedRing K]

theorem Course.after_add (m : Course K) (s t : K) : m.after (s + t) = (m.after s).after t := by
  unfold Course.after
  ext
  · dsimp only
    ring
  · dsimp only
    ring
  · rfl

/-- The square of the speed grows with the way. -/
theorem Course.speed_sq (m : Course K) (t : K) :
    (m.after t).speed * (m.after t).speed =
      m.speed * m.speed + 2 * m.accel * ((m.after t).pos - m.pos) := by
  unfold Course.after
  dsimp only
  ring

/-- The way is the time at the mean of the two speeds. -/
theorem Course.way (m : Course K) (t : K) :
    2 * ((m.after t).pos - m.pos) = (m.speed + (m.after t).speed) * t := by
  unfold Course.after
  dsimp only
  ring

/-- A motion reaches each place with the speed that belongs to it. -/
theorem Course.after_timeTo (m : Course K) {pos speed : K} (hmean : m.speed + speed ≠ 0)
    (hsq : speed * speed = m.speed * m.speed + 2 * m.accel * (pos - m.pos)) :
    m.after (m.timeTo pos speed) = ⟨pos, speed, m.accel⟩ := by
  have hgain : m.accel * m.timeTo pos speed = speed - m.speed := by
    unfold Course.timeTo
    field_simp
    linear_combination -hsq
  have hway : (m.speed + speed) * m.timeTo pos speed = 2 * (pos - m.pos) := by
    unfold Course.timeTo
    rw [mul_div_cancel₀ _ hmean, Nat.cast_ofNat]
  unfold Course.after
  ext
  · dsimp only
    linear_combination m.timeTo pos speed / 2 * hgain + hway / 2
  · dsimp only
    rw [hgain]
    ring
  · rfl

/-- While the speed is not negative, and not zero throughout, the motion goes on. -/
theorem Course.advances (m : Course K) {t : K} (ht : 0 < t) (hspeed : 0 ≤ m.speed)
    (hafter : 0 ≤ (m.after t).speed) (hmoves : m.speed + (m.after t).speed ≠ 0) :
    m.pos < (m.after t).pos := by
  have hpos : 0 < m.speed + (m.after t).speed :=
    lt_of_le_of_ne (add_nonneg hspeed hafter) hmoves.symm
  have hway := m.way t
  have hprod := mul_pos hpos ht
  linarith

/-- Between two times the speed is between the two speeds. -/
theorem Course.speed_nonneg (m : Course K) {s t : K} (hs : 0 ≤ s) (hst : s ≤ t)
    (hspeed : 0 ≤ m.speed) (hafter : 0 ≤ (m.after t).speed) : 0 ≤ (m.after s).speed := by
  unfold Course.after at hafter ⊢
  dsimp only at hafter ⊢
  rcases le_total 0 m.accel with haccel | haccel
  · exact add_nonneg hspeed (mul_nonneg haccel hs)
  · have hless := mul_le_mul_of_nonpos_left hst haccel
    linarith

/-- What is between the two ends of a motion is reached. -/
theorem between_reaches {startPos endPos startSpeed endSpeed : K} (hway : startPos < endPos)
    (hmean : startSpeed + endSpeed ≠ 0) :
    (between startPos endPos startSpeed endSpeed).after
        ((between startPos endPos startSpeed endSpeed).timeTo endPos endSpeed) =
      ⟨endPos, endSpeed, (between startPos endPos startSpeed endSpeed).accel⟩ := by
  refine Course.after_timeTo _ hmean ?_
  have hne : endPos - startPos ≠ 0 := (sub_pos.mpr hway).ne'
  unfold between
  dsimp only
  field_simp
  ring

/-- On its way to the end the motion has left its start. -/
theorem between_advances {startPos endPos startSpeed endSpeed t : K} (hway : startPos < endPos)
    (hstart : 0 ≤ startSpeed) (hend : 0 ≤ endSpeed) (hmean : startSpeed + endSpeed ≠ 0)
    (ht : 0 < t)
    (hbefore : t ≤ (between startPos endPos startSpeed endSpeed).timeTo endPos endSpeed) :
    startPos < ((between startPos endPos startSpeed endSpeed).after t).pos := by
  have hreach := between_reaches hway hmean
  have hspeed := (between startPos endPos startSpeed endSpeed).speed_nonneg ht.le hbefore hstart
    ((congrArg Course.speed hreach).symm ▸ hend)
  refine Course.advances _ ht hstart hspeed (fun hrest => hmean ?_)
  -- at rest at the start and now, it would be at rest throughout
  obtain ⟨hzero, hafter⟩ := (add_eq_zero_iff_of_nonneg hstart hspeed).mp hrest
  obtain rfl : startSpeed = 0 := hzero
  have hstill : 0 + (between startPos endPos 0 endSpeed).accel * t = 0 := hafter
  rw [zero_add] at hstill
  have haccel := (mul_eq_zero.mp hstill).resolve_right ht.ne'
  have hgain : 0 + (between startPos endPos 0 endSpeed).accel * _ = endSpeed :=
    congrArg Course.speed hreach
  rw [haccel, zero_mul] at hgain
  rw [← hgain, add_zero, add_zero]

end lib.uniform_motion
