-- The time margin of the collision check. It is half of the first gap between the stamps
-- of a prediction and a little more, so the margins around the stamps leave no gap; a
-- prediction of one point has no gap to halve, and the margin is that of the parameters.
import Carma.Lib.Ticks
import Carma.ObjectPredictions

open lib.ticks
open carma.conflict_manager (PathPoint)

namespace carma.object_collision_checker

variable {K : Type} [Field K] [LinearOrder K]

def dynamicTimeMargin (p : Params K) (objPlan : List (PathPoint K)) : K :=
  match objPlan with
  | p0 :: p1 :: _ => (p1.stamp - p0.stamp) / ((2 : ℤ) : K) + 1 / ((10000 : ℤ) : K)
  | _ => p.timeMargin

theorem checkCollision_eq [FloorRing K] (p : Params K)
    (getConflicts : List (PathPoint K) → List (PathPoint K) → K → Bool)
    (routePlan objPlan : List (PathPoint K)) :
    checkCollision p getConflicts routePlan (some objPlan) =
      getConflicts routePlan objPlan (dynamicTimeMargin p objPlan) := by
  match objPlan with
  | [] => rfl
  | [_] => rfl
  | _ :: _ :: _ => rfl

theorem dynamicTimeMargin_of_times (p : Params K) {objPlan : List (PathPoint K)} {gap t : K} {n : ℕ}
    (h : objPlan.map (·.stamp) = times gap t (n + 1)) :
    dynamicTimeMargin p objPlan =
      if n = 0 then p.timeMargin else gap / ((2 : ℤ) : K) + 1 / ((10000 : ℤ) : K) := by
  match n, objPlan, h with
  | 0, [_], _ => rfl
  | n + 1, p0 :: p1 :: rest, h =>
    simp only [List.map_cons, times, List.cons.injEq] at h
    obtain ⟨h0, h1, -⟩ := h
    unfold dynamicTimeMargin
    dsimp only
    rw [if_neg (Nat.succ_ne_zero n), h0, h1, add_sub_cancel_left]

variable [IsStrictOrderedRing K]

/-- The stamps of the loop in time: it goes on until the end is less than the epsilon away. -/
theorem standing_stamps (d : K) {endTime t : K} {turns : ℕ}
    (h : endTime ≤ t + turns * (1 / ((10 : ℤ) : K))) :
    ∃ n : ℕ, (standing d endTime t turns).map (·.stamp) =
        times (1 / ((10 : ℤ) : K)) (t + 1 / ((10 : ℤ) : K)) n ∧
      endTime ≤ t + n * (1 / ((10 : ℤ) : K)) + FLOATING_POINT_EPSILON ∧
      (0 < n ↔ t + FLOATING_POINT_EPSILON < endTime) := by
  have heps : (0 : K) < FLOATING_POINT_EPSILON := epsilon_pos
  induction turns generalizing t with
  | zero =>
    rw [Nat.cast_zero, zero_mul, add_zero] at h
    refine ⟨0, rfl, ?_, ?_⟩
    · rw [Nat.cast_zero, zero_mul]
      linarith
    · simp only [lt_self_iff_false, false_iff, not_lt]
      linarith
  | succ turns ih =>
    unfold standing
    by_cases hgo : t + FLOATING_POINT_EPSILON < endTime
    · rw [Nat.cast_succ, add_mul, one_mul] at h
      obtain ⟨n, hstamps, hend, -⟩ := ih (t := t + 1 / ((10 : ℤ) : K)) (by linarith)
      refine ⟨n + 1, ?_, ?_, iff_of_true n.succ_pos hgo⟩
      · rw [if_pos hgo]
        simp only [List.map_cons, times, hstamps, routePoint]
      · rw [Nat.cast_succ, add_mul, one_mul]
        linarith
    · refine ⟨0, ?_, ?_, iff_of_false (lt_irrefl 0) hgo⟩
      · rw [if_neg hgo]
        rfl
      · rw [Nat.cast_zero, zero_mul]
        linarith

/-- The stamps of the loop in distance. -/
theorem moving_stamps (timeStep t : K) {distanceStep endDist d : K} {turns : ℕ}
    (h : endDist ≤ d + turns * distanceStep) :
    ∃ n : ℕ, (moving distanceStep timeStep endDist d t turns).map (·.stamp) =
        times timeStep (t + timeStep) n ∧
      endDist ≤ d + n * distanceStep + FLOATING_POINT_EPSILON ∧
      (0 < n ↔ d + FLOATING_POINT_EPSILON < endDist) := by
  have heps : (0 : K) < FLOATING_POINT_EPSILON := epsilon_pos
  induction turns generalizing d t with
  | zero =>
    rw [Nat.cast_zero, zero_mul, add_zero] at h
    refine ⟨0, rfl, ?_, ?_⟩
    · rw [Nat.cast_zero, zero_mul]
      linarith
    · simp only [lt_self_iff_false, false_iff, not_lt]
      linarith
  | succ turns ih =>
    unfold moving
    by_cases hgo : d + FLOATING_POINT_EPSILON < endDist
    · push_cast at h
      obtain ⟨n, hstamps, hend, -⟩ :=
        ih (t + timeStep) (d := d + distanceStep) (by linarith)
      refine ⟨n + 1, ?_, ?_, iff_of_true n.succ_pos hgo⟩
      · rw [if_pos hgo]
        simp only [List.map_cons, times, hstamps, routePoint]
      · rw [Nat.cast_succ, add_mul, one_mul]
        linarith
    · refine ⟨0, ?_, ?_, iff_of_false (lt_irrefl 0) hgo⟩
      · rw [if_neg hgo]
        rfl
      · rw [Nat.cast_zero, zero_mul]
        linarith

variable [FloorRing K]

/-- The stamps of a prediction are steady, and the last of them is at most the epsilon before the
end of the period. There is more than one where the way of the period, or the period, is more
than the epsilon. -/
theorem predictMotion_stamps (p : Params K) {objTrajectory : List (RoadwayObstacle K)}
    (hne : objTrajectory ≠ []) :
    ∃ (gap : K) (n : ℕ), 0 < gap ∧
      (predictMotion objTrajectory p.distanceStep p.timeDuration).map (·.stamp) =
        times gap (toSeconds (objTrajectory.getLast hne).stamp) (n + 1) ∧
      p.timeDuration ≤ n * gap + FLOATING_POINT_EPSILON ∧
      (0 < n ↔ FLOATING_POINT_EPSILON < p.timeDuration * max 1 (averageSpeed objTrajectory)) := by
  have heps : (0 : K) < FLOATING_POINT_EPSILON := epsilon_pos
  have hstep := p.stepPositive
  unfold predictMotion
  rw [List.getLast?_eq_some_getLast hne]
  dsimp only
  generalize averageSpeed objTrajectory = speed
  generalize (toSeconds (objTrajectory.getLast hne).stamp : K) = t
  by_cases hslow : speed < RADAR_DETECTION_NOISE
  · rw [if_pos hslow, max_eq_left (le_of_lt hslow : speed ≤ 1), mul_one]
    have hceil := self_le_ceil_toNat (p.timeDuration * ((10 : ℤ) : K))
    have hlong : p.timeDuration + t ≤
        t + ⌈p.timeDuration * ((10 : ℤ) : K)⌉.toNat * (1 / ((10 : ℤ) : K)) := by
      push_cast at hceil ⊢
      linarith
    obtain ⟨n, hstamps, hend, hmore⟩ :=
      standing_stamps (objTrajectory.getLast hne).downTrack hlong
    refine ⟨1 / ((10 : ℤ) : K), n, by positivity, ?_, by linarith, ?_⟩
    · simp only [List.map_cons, times, hstamps, routePoint]
    · rw [hmore]
      constructor <;> intro h <;> linarith
  · have hspeed : (1 : K) ≤ speed := not_lt.mp hslow
    have hpos : 0 < speed := lt_of_lt_of_le one_pos hspeed
    rw [if_neg hslow, max_eq_right hspeed]
    have hceil := self_le_ceil_toNat (p.timeDuration * speed / p.distanceStep)
    rw [div_le_iff₀ hstep] at hceil
    have hlong : (objTrajectory.getLast hne).downTrack + p.timeDuration * speed ≤
        (objTrajectory.getLast hne).downTrack +
          ⌈p.timeDuration * speed / p.distanceStep⌉.toNat * p.distanceStep := by
      linarith
    obtain ⟨n, hstamps, hend, hmore⟩ := moving_stamps (p.distanceStep / speed) t hlong
    refine ⟨p.distanceStep / speed, n, div_pos hstep hpos, ?_, ?_, ?_⟩
    · simp only [List.map_cons, times, hstamps, routePoint]
    · have hway : p.timeDuration * speed ≤
          (n * (p.distanceStep / speed) + FLOATING_POINT_EPSILON) * speed := by
        have hcancel : n * (p.distanceStep / speed) * speed = n * p.distanceStep := by
          rw [mul_assoc, div_mul_cancel₀ _ hpos.ne']
        have hmul := mul_le_mul_of_nonneg_left hspeed heps.le
        rw [add_mul, hcancel]
        linarith
      exact le_of_mul_le_mul_right hway hpos
    · rw [hmore]
      constructor <;> intro h <;> linarith

/-- A prediction ends, its stamps are steady, and the margins around them cover its period just
when it has more than one point or the margin of the parameters is long enough. -/
theorem predictions_leave_no_gap_iff (p : Params K) {objTrajectory : List (RoadwayObstacle K)}
    (hne : objTrajectory ≠ []) (hduration : 0 < p.timeDuration) :
    let points := predictMotion objTrajectory p.distanceStep p.timeDuration
    let start : K := toSeconds (objTrajectory.getLast hne).stamp
    (∀ (more : ℕ) (speed d t : K),
      standing d (p.timeDuration + t) t (⌈p.timeDuration * ((10 : ℤ) : K)⌉.toNat + more) =
        standing d (p.timeDuration + t) t ⌈p.timeDuration * ((10 : ℤ) : K)⌉.toNat ∧
      moving p.distanceStep (p.distanceStep / speed) (d + p.timeDuration * speed) d t
          (⌈p.timeDuration * speed / p.distanceStep⌉.toNat + more) =
        moving p.distanceStep (p.distanceStep / speed) (d + p.timeDuration * speed) d t
          ⌈p.timeDuration * speed / p.distanceStep⌉.toNat) ∧
    (∃ gap, 0 < gap ∧ Steady gap (points.map (·.stamp))) ∧
    ((∀ x, start ≤ x → x ≤ start + p.timeDuration →
        Within (dynamicTimeMargin p points) (points.map (·.stamp)) x) ↔
      FLOATING_POINT_EPSILON < p.timeDuration * max 1 (averageSpeed objTrajectory) ∨
        p.timeDuration ≤ p.timeMargin) := by
  intro points start
  obtain ⟨gap, n, hgap, hstamps, hend, hmore⟩ := predictMotion_stamps p hne
  refine ⟨fun more speed d t => predictMotion_ends p more, ⟨gap, hgap, ?_⟩, ?_⟩
  · rw [hstamps]
    exact times_steady _ _ _
  · rw [dynamicTimeMargin_of_times p hstamps, hstamps, ← hmore]
    by_cases hn : n = 0
    · subst hn
      rw [if_pos rfl, or_iff_right (lt_irrefl 0)]
      constructor
      · intro hcover
        have hlast := hcover (start + p.timeDuration) (by linarith) le_rfl
        have hbound := (within_singleton.mp hlast).2
        linarith
      · intro hmargin x hlow hhigh
        exact within_singleton.mpr ⟨by linarith, by linarith⟩
    · rw [if_neg hn, or_iff_left_of_imp (fun _ => Nat.pos_of_ne_zero hn)]
      apply iff_of_true _ (Nat.pos_of_ne_zero hn)
      intro x hlow hhigh
      have hsmall : (FLOATING_POINT_EPSILON : K) ≤ 1 / ((10000 : ℤ) : K) := by
        unfold FLOATING_POINT_EPSILON
        norm_num
      apply times_cover <;> push_cast at * <;> linarith

/-- A vehicle that was seen once, at the start, and drives 1 m/s. -/
def seenOnce : RoadwayObstacle ℚ where
  downTrack := 10
  primaryLane := 0
  stamp := 0
  linearX := 1

theorem predictions_leave_no_gap_after_three_seconds :
    Within (dynamicTimeMargin exampleParams (predictMotion [seenOnce] 5 5))
      ((predictMotion [seenOnce] 5 5).map (·.stamp)) 3 :=
  (predictions_leave_no_gap_iff exampleParams
    (List.cons_ne_nil _ _) (by decide +kernel)).2.2.mpr (Or.inl (by decide +kernel)) 3
    (by decide +kernel) (by decide +kernel)

theorem briefParams_step : (0 : ℚ) < 5 := by norm_num

/-- A tenth of a microsecond, and no margin for a single point. -/
def briefParams : Params ℚ where
  maxHistoricalDataAge := 3000
  distanceStep := 5
  timeDuration := 1 / 10 ^ 7
  timeMargin := 0
  stepPositive := briefParams_step

/-- The prediction of a period below the epsilon has no second point. -/
theorem a_single_point_leaves_a_gap :
    ¬ ∀ (p : Params ℚ) (objTrajectory : List (RoadwayObstacle ℚ)) (hne : objTrajectory ≠ []),
      0 < p.timeDuration → ∀ x, toSeconds (objTrajectory.getLast hne).stamp ≤ x →
      x ≤ toSeconds (objTrajectory.getLast hne).stamp + p.timeDuration →
      Within (dynamicTimeMargin p (predictMotion objTrajectory p.distanceStep p.timeDuration))
        ((predictMotion objTrajectory p.distanceStep p.timeDuration).map (·.stamp)) x := by
  intro h
  have hend := h briefParams [seenOnce] (List.cons_ne_nil _ _) (by decide +kernel) (1 / 10 ^ 7)
    (by decide +kernel) (by decide +kernel)
  have hone : (predictMotion [seenOnce] briefParams.distanceStep
      briefParams.timeDuration).map (·.stamp) = [0] := by
    decide +kernel
  have hmargin : dynamicTimeMargin briefParams (predictMotion [seenOnce]
      briefParams.distanceStep briefParams.timeDuration) = 0 := by
    decide +kernel
  rw [hone, hmargin, within_singleton] at hend
  exact absurd hend.2 (by norm_num)

end carma.object_collision_checker
