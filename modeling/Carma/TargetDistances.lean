-- The plans of speedups and slowdowns up to a place: they end there, at the speed that the motion
-- has at that place.
import Mathlib.Analysis.Real.Sqrt
import Mathlib.Tactic.FieldSimp
import Mathlib.Tactic.Linarith
import Carma.ManeuverPlanner

open carma.maneuvers carma.maneuver_planner

namespace carma.target_distances

section General

variable {K : Type} [LinearOrder K] [Field K]

/-- The plan ends where it is told to, after a motion that is allowed. -/
structure EndsAt (m p : PlannedManeuver K) (startDist endDist : K) : Prop where
  starts : p.motion.startDist = startDist ∧ p.motion.startSpeed = m.motion.startSpeed
  ends : p.motion.endDist = endDist
  atLeast : min m.motion.startSpeed m.motion.endSpeed ≤ p.motion.endSpeed
  atMost : p.motion.endSpeed ≤ max m.motion.startSpeed m.motion.endSpeed
  accel : |p.workingAccel| ≤ m.maxAccel
  radicand : 0 ≤ m.motion.startSpeed * m.motion.startSpeed
    + (2 : ℕ) * p.workingAccel * (endDist - startDist)
  squares : p.motion.endSpeed * p.motion.endSpeed = m.motion.startSpeed * m.motion.startSpeed
    + (2 : ℕ) * p.workingAccel * (endDist - startDist)

/-- It is a root wherever there is one. -/
def IsRoot (sqrt : K → K) : Prop := ∀ x, 0 ≤ x → 0 ≤ sqrt x ∧ sqrt x * sqrt x = x

theorem displacementFor_no_lag {inputs : Inputs K} (hlag : inputs.responseLag = 0)
    (startSpeed startDist endDist : K) :
    displacementFor inputs startSpeed startDist endDist = endDist - startDist := by
  unfold displacementFor
  dsimp only
  rw [hlag, mul_zero, sub_zero, ite_self]

variable [IsStrictOrderedRing K]

/-- The acceleration that is asked for is the one of the motion between the two speeds. -/
theorem needed_accel {displacement : K} (h : 0 < displacement) (startSpeed endSpeed : K) :
    (2 : ℕ) * ((startSpeed * (endSpeed - startSpeed)
        + half * (endSpeed - startSpeed) * (endSpeed - startSpeed)) / displacement)
      * displacement = endSpeed * endSpeed - startSpeed * startSpeed := by
  have hne := h.ne'
  unfold half
  field_simp
  push_cast
  ring

/-- A root lies between two speeds when its square does. -/
theorem root_between {low high r : K} (hr : 0 ≤ r) (hlow : 0 ≤ low) (hhigh : 0 ≤ high)
    (h : low * low ≤ r * r ∧ r * r ≤ high * high) : low ≤ r ∧ r ≤ high :=
  ⟨(mul_self_le_mul_self_iff hlow hr).mpr h.1, (mul_self_le_mul_self_iff hr hhigh).mpr h.2⟩

theorem speedUp_ends_at {inputs : Inputs K} (hlag : inputs.responseLag = 0)
    (hsqrt : IsRoot inputs.sqrt) {m : PlannedManeuver K} (hstart : 0 ≤ m.motion.startSpeed)
    (hup : m.motion.startSpeed < m.motion.endSpeed) (haccel : 0 < m.maxAccel)
    {startDist endDist : K} (hdist : startDist < endDist) :
    ∃ p, SpeedUp.planToTargetDistance inputs m startDist endDist = some p ∧
      EndsAt m p startDist endDist := by
  have hway : 0 < endDist - startDist := sub_pos.mpr hdist
  have hneeded := needed_accel hway m.motion.startSpeed m.motion.endSpeed
  unfold SpeedUp.planToTargetDistance
  rw [if_neg (not_le.mpr hup), if_neg (not_le.mpr hdist)]
  dsimp only
  rw [displacementFor_no_lag hlag]
  generalize (m.motion.startSpeed * (m.motion.endSpeed - m.motion.startSpeed)
    + half * (m.motion.endSpeed - m.motion.startSpeed)
      * (m.motion.endSpeed - m.motion.startSpeed)) / (endDist - startDist) = needed at hneeded ⊢
  have hsq := mul_self_nonneg m.motion.startSpeed
  push_cast at hneeded ⊢
  split
  · rename_i hover
    -- the target is too fast: all of the acceleration is used
    have hgain := mul_pos haccel hway
    have hless := mul_lt_mul_of_pos_right hover hway
    obtain ⟨hroot, hroot_sq⟩ := hsqrt
      (m.motion.startSpeed * m.motion.startSpeed + 2 * m.maxAccel * (endDist - startDist))
      (by linarith)
    obtain ⟨hlow, hhigh⟩ := root_between hroot hstart (hstart.trans hup.le)
      ⟨by rw [hroot_sq]; linarith, by rw [hroot_sq]; linarith⟩
    refine ⟨_, rfl, ⟨⟨rfl, rfl⟩, rfl, min_le_of_left_le hlow, le_max_of_le_right hhigh, ?_, ?_, ?_⟩⟩
    · exact (abs_of_pos haccel).le
    · push_cast
      linarith
    · push_cast
      exact hroot_sq
  · rename_i hallowed
    have hgrows := mul_self_lt_mul_self hstart hup
    have hneeded_pos : 0 < needed := by
      have hprod : 0 < needed * (endDist - startDist) := by linarith
      exact pos_of_mul_pos_left hprod hway.le
    refine ⟨_, rfl, ⟨⟨rfl, rfl⟩, rfl, min_le_right _ _, le_max_right _ _, ?_, ?_, ?_⟩⟩
    · rw [abs_of_pos hneeded_pos]
      exact not_lt.mp hallowed
    · push_cast
      rw [hneeded]
      linarith [mul_self_nonneg m.motion.endSpeed]
    · push_cast
      rw [hneeded]
      ring

theorem slowDown_ends_at {inputs : Inputs K} (hlag : inputs.responseLag = 0)
    (hsqrt : IsRoot inputs.sqrt) {m : PlannedManeuver K} (hend : 0 ≤ m.motion.endSpeed)
    (hdown : m.motion.endSpeed < m.motion.startSpeed) (haccel : 0 < m.maxAccel)
    {startDist endDist : K} (hdist : startDist < endDist) :
    ∃ p, SlowDown.planToTargetDistance inputs m startDist endDist = some p ∧
      EndsAt m p startDist endDist := by
  have hway : 0 < endDist - startDist := sub_pos.mpr hdist
  have hneeded := needed_accel hway m.motion.startSpeed m.motion.endSpeed
  unfold SlowDown.planToTargetDistance
  rw [if_neg (not_le.mpr hdown), if_neg (not_le.mpr hdist)]
  dsimp only
  rw [displacementFor_no_lag hlag]
  generalize (m.motion.startSpeed * (m.motion.endSpeed - m.motion.startSpeed)
    + half * (m.motion.endSpeed - m.motion.startSpeed)
      * (m.motion.endSpeed - m.motion.startSpeed)) / (endDist - startDist) = needed at hneeded ⊢
  have hsq := mul_self_nonneg m.motion.endSpeed
  push_cast at hneeded ⊢
  split
  · rename_i hover
    -- the target is too slow: the vehicle is still faster than it after all the braking
    have hloss := mul_pos haccel hway
    have hless := mul_lt_mul_of_pos_right hover hway
    obtain ⟨hroot, hroot_sq⟩ := hsqrt
      (m.motion.startSpeed * m.motion.startSpeed + 2 * -m.maxAccel * (endDist - startDist))
      (by linarith)
    obtain ⟨hlow, hhigh⟩ := root_between hroot hend (hend.trans hdown.le)
      ⟨by rw [hroot_sq]; linarith, by rw [hroot_sq]; linarith⟩
    refine ⟨_, rfl, ⟨⟨rfl, rfl⟩, rfl, min_le_of_right_le hlow, le_max_of_le_left hhigh, ?_, ?_, ?_⟩⟩
    · rw [abs_neg, abs_of_pos haccel]
    · push_cast
      linarith
    · push_cast
      exact hroot_sq
  · rename_i hallowed
    have hshrinks := mul_self_lt_mul_self hend hdown
    have hneeded_neg : needed < 0 := by
      have hprod : needed * (endDist - startDist) < 0 := by linarith
      exact neg_of_mul_neg_left hprod hway.le
    refine ⟨_, rfl, ⟨⟨rfl, rfl⟩, rfl, min_le_right _ _, le_max_right _ _, ?_, ?_, ?_⟩⟩
    · rw [abs_of_neg hneeded_neg]
      linarith [not_lt.mp hallowed]
    · push_cast
      rw [hneeded]
      linarith
    · push_cast
      rw [hneeded]
      ring

end General

/-- What the square root gives where there is none does not matter, so none is taken there. -/
theorem isRoot_of_agrees {sqrt : ℝ → ℝ} (h : ∀ x, 0 ≤ x → sqrt x = Real.sqrt x) : IsRoot sqrt := by
  intro x hx
  rw [h x hx]
  exact ⟨Real.sqrt_nonneg x, Real.mul_self_sqrt hx⟩

/-- A speedup and a slowdown that are planned up to a place end there, between the two speeds,
within the limit of the acceleration, at the speed that the motion has there. -/
theorem speed_changes_end_where_they_are_told {inputs : Inputs ℝ}
    (hlag : inputs.responseLag = 0) (hsqrt : ∀ x, 0 ≤ x → inputs.sqrt x = Real.sqrt x)
    (m : PlannedManeuver ℝ) (hstart : 0 ≤ m.motion.startSpeed) (hend : 0 ≤ m.motion.endSpeed)
    (haccel : 0 < m.maxAccel) (startDist endDist : ℝ) (hdist : startDist < endDist) :
    (m.motion.startSpeed < m.motion.endSpeed →
      ∃ p, SpeedUp.planToTargetDistance inputs m startDist endDist = some p ∧
        EndsAt m p startDist endDist) ∧
    (m.motion.endSpeed < m.motion.startSpeed →
      ∃ p, SlowDown.planToTargetDistance inputs m startDist endDist = some p ∧
        EndsAt m p startDist endDist) :=
  ⟨fun hup => speedUp_ends_at hlag (isRoot_of_agrees hsqrt) hstart hup haccel hdist,
    fun hdown => slowDown_ends_at hlag (isRoot_of_agrees hsqrt) hend hdown haccel hdist⟩

/-- From 3 m/s to 5 m/s within 8 m at 2 m/s². -/
theorem speed_changes_end_where_they_are_told_in_eight_meters :
    ∃ p, SpeedUp.planToTargetDistance ⟨0, Real.sqrt⟩ ⟨.speedUp, ⟨0, 0, 3, 5⟩, 2, 0⟩ 0 8 = some p ∧
      EndsAt ⟨.speedUp, ⟨0, 0, 3, 5⟩, 2, 0⟩ p 0 8 :=
  (speed_changes_end_where_they_are_told
    (rfl : (⟨0, Real.sqrt⟩ : Inputs ℝ).responseLag = 0) (fun _ _ => rfl)
    ⟨.speedUp, ⟨0, 0, 3, 5⟩, 2, 0⟩ (by norm_num) (by norm_num) (by norm_num) 0 8
    (by norm_num)).1 (by norm_num)

end carma.target_distances
