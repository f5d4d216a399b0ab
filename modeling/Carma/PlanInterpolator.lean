-- `PlanInterpolator.java` of the signal plugin: the points that are put in between the nodes of a
-- plan, a step apart, for the search for conflicts. A distance is a number here. A time may be none:
-- it is divided by a speed or an acceleration, and the square root of a negative number is taken.
import Carma.AStarSolver
import Carma.Lib.UniformMotion
import Carma.Route
import Mathlib.Algebra.Order.Floor.Ring
import Mathlib.Analysis.SpecialFunctions.Pow.Real

open lib.exact_double lib.uniform_motion
open carma.route (RoutePointStamped)
open carma.trajectory_tree (Node)

namespace carma.plan_interpolator

/-- A point of the returned list. -/
abbrev PlanPoint (K : Type) := RoutePointStamped K (Dbl K)

section points

variable {K : Type} [Field K]

def planPoint (downtrack : K) (stamp : Dbl K) : PlanPoint K where
  downtrack := downtrack
  crosstrack := 0
  stamp := stamp
  segmentIdx := 0
  segDowntrack := 0

/-- What a call is given beside the nodes. -/
structure Offsets (K : Type) where
  distanceStep : K
  timeOffset : K
  distanceOffset : K

def Offsets.x (o : Offsets K) (n : Node) : K := n.distance + o.distanceOffset

def Offsets.t (o : Offsets K) (n : Node) : K := n.time + o.timeOffset

def Offsets.nodePoint (o : Offsets K) (n : Node) : PlanPoint K := planPoint (o.x n) (.fin (o.t n))

def MIN_ACCELERATION : K := 1 / ((10 ^ 6 : ℤ) : K)

end points

section interpolation

variable {K : Type} [Field K] [LinearOrder K]

/-- The loop at a constant speed, where a step takes `timeStep`. The last argument bounds the
turns, as it does below. -/
def steady (distanceStep x_f : K) (timeStep : Dbl K) : Dbl K → K → ℕ → List (PlanPoint K)
  | _, _, 0 => []
  | t, x, turns + 1 =>
    if x < x_f then
      planPoint x t :: steady distanceStep x_f timeStep (t + timeStep) (x + distanceStep) turns
    else []

/-- The loop at a constant acceleration. -/
def accelerating (sqrt : Dbl K → Dbl K) (distanceStep x_f : K) (a two_a_x : Dbl K) :
    Dbl K → Dbl K → K → ℕ → List (PlanPoint K)
  | _, _, _, 0 => []
  | t, v_old, x, turns + 1 =>
    if x < x_f then
      let v := sqrt (v_old * v_old + two_a_x)
      planPoint x t ::
        accelerating sqrt distanceStep x_f a two_a_x (t + (v - v_old) / a) v (x + distanceStep) turns
    else []

variable [FloorRing K]

/-- The points that are put in between the node where the interpolation starts and the current
one. -/
def between (sqrt : Dbl K → Dbl K) (o : Offsets K) (prevNode n : Node) : List (PlanPoint K) :=
  let t_0 : Dbl K := .fin (o.t prevNode)
  let v_0 : Dbl K := .fin prevNode.speed
  let dt : Dbl K := .fin (o.t n - o.t prevNode)
  let dv : Dbl K := .fin (n.speed - prevNode.speed)
  let a := dv / dt
  let two_a_x := .fin ((2 : ℤ) : K) * a * .fin o.distanceStep
  let x := o.x prevNode + o.distanceStep
  let turns := ⌈(o.x n - x) / o.distanceStep⌉.toNat
  if a.abs.lt (.fin MIN_ACCELERATION) then
    let timeStep := .fin o.distanceStep / v_0
    steady o.distanceStep (o.x n) timeStep (t_0 + timeStep) x turns
  else
    let v := sqrt (v_0 * v_0 + two_a_x)
    accelerating sqrt o.distanceStep (o.x n) a two_a_x (t_0 + (v - v_0) / a) v x turns

/-- The loop over the nodes, once there is a previous one. -/
def interpolateFrom (sqrt : Dbl K → Dbl K) (o : Offsets K) : Node → List Node → List (PlanPoint K)
  | _, [] => []
  | prevNode, n :: rest =>
    if o.x n - o.x prevNode < o.distanceStep then
      o.nodePoint n :: interpolateFrom sqrt o prevNode rest
    else
      between sqrt o prevNode n ++ o.nodePoint n :: interpolateFrom sqrt o n rest

def interpolateMotion (sqrt : Dbl K → Dbl K) (o : Offsets K) : List Node → List (PlanPoint K)
  | [] => []
  | n :: rest => o.nodePoint n :: interpolateFrom sqrt o n rest

end interpolation

/-! ## The places of the loops

Where the loops put in points. Their times are those at which a motion of constant acceleration
from the base has come that far. -/

section places

variable {K : Type} [Field K] [LinearOrder K]

/-- The places where the loops put in a point. -/
def places (distanceStep x_f : K) : K → ℕ → List K
  | _, 0 => []
  | x, turns + 1 =>
    if x < x_f then x :: places distanceStep x_f (x + distanceStep) turns else []

variable {distanceStep x_f : K}

theorem mem_places {x y : K} {turns : ℕ} (h : y ∈ places distanceStep x_f x turns) :
    ∃ j : ℕ, y = x + j * distanceStep ∧ y < x_f := by
  induction turns generalizing x with
  | zero => cases h
  | succ turns ih =>
    unfold places at h
    split at h
    · rename_i hx
      rcases List.mem_cons.mp h with rfl | h
      · exact ⟨0, by rw [Nat.cast_zero, zero_mul, add_zero], hx⟩
      · obtain ⟨j, hy, hlt⟩ := ih h
        refine ⟨j + 1, ?_, hlt⟩
        rw [hy]
        push_cast
        ring
    · cases h

variable [IsStrictOrderedRing K]

theorem places_complete (hstep : 0 < distanceStep) {x : K} {turns : ℕ}
    (hturns : x_f ≤ x + turns * distanceStep) {j : ℕ} (hj : x + j * distanceStep < x_f) :
    x + j * distanceStep ∈ places distanceStep x_f x turns := by
  induction turns generalizing x j with
  | zero =>
    rw [Nat.cast_zero, zero_mul, add_zero] at hturns
    have hnonneg : 0 ≤ (j : K) * distanceStep := mul_nonneg (Nat.cast_nonneg j) hstep.le
    linarith
  | succ turns ih =>
    have hnonneg : 0 ≤ (j : K) * distanceStep := mul_nonneg (Nat.cast_nonneg j) hstep.le
    unfold places
    rw [if_pos (by linarith)]
    cases j with
    | zero =>
      rw [Nat.cast_zero, zero_mul, add_zero]
      exact List.mem_cons_self
    | succ j =>
      have hnext : x + ((j + 1 : ℕ) : K) * distanceStep = x + distanceStep + j * distanceStep := by
        push_cast
        ring
      rw [hnext] at hj ⊢
      apply List.mem_cons_of_mem
      apply ih _ hj
      push_cast at hturns
      linarith

theorem places_sorted (hstep : 0 < distanceStep) (x : K) (turns : ℕ) :
    (places distanceStep x_f x turns).Pairwise (· < ·) := by
  induction turns generalizing x with
  | zero => exact List.Pairwise.nil
  | succ turns ih =>
    unfold places
    split
    · refine List.Pairwise.cons (fun y hy => ?_) (ih _)
      obtain ⟨j, rfl, -⟩ := mem_places hy
      have hnonneg : 0 ≤ (j : K) * distanceStep := mul_nonneg (Nat.cast_nonneg j) hstep.le
      linarith
    · exact List.Pairwise.nil

/-- From the place before the first to the end of the hop, no gap is longer than a step. -/
theorem places_gaps (hstep : 0 < distanceStep) {x y : K} {turns : ℕ}
    (hturns : x_f ≤ x + turns * distanceStep) (hyx : y ≤ x) (hgap : x - y ≤ distanceStep)
    (hend : y ≤ x_f) :
    (y :: (places distanceStep x_f x turns ++ [x_f])).IsChain
      fun a b => a ≤ b ∧ b - a ≤ distanceStep := by
  induction turns generalizing x y with
  | zero =>
    rw [Nat.cast_zero, zero_mul, add_zero] at hturns
    exact List.isChain_pair.mpr ⟨hend, by linarith⟩
  | succ turns ih =>
    unfold places
    split
    · rename_i hx
      refine List.isChain_cons_cons.mpr ⟨⟨hyx, hgap⟩, ?_⟩
      apply ih
      · push_cast at hturns
        linarith
      · linarith
      · linarith
      · exact hx.le
    · rename_i hx
      exact List.isChain_pair.mpr ⟨hend, by linarith⟩

variable [FloorRing K]

theorem turns_enough (hstep : 0 < distanceStep) (x : K) :
    x_f ≤ x + (⌈(x_f - x) / distanceStep⌉.toNat : K) * distanceStep := by
  have hle : (⌈(x_f - x) / distanceStep⌉ : K) ≤ (⌈(x_f - x) / distanceStep⌉.toNat : K) := by
    exact_mod_cast Int.self_le_toNat _
  have h := (Int.le_ceil ((x_f - x) / distanceStep)).trans hle
  rw [div_le_iff₀ hstep] at h
  linarith

end places

/-! ## The times of the loops -/

/-- `Math.sqrt`, without rounding. -/
noncomputable def mathSqrt : Dbl ℝ → Dbl ℝ
  | .fin x => if x < 0 then .nan else .fin (Real.sqrt x)
  | .inf neg => if neg then .nan else .inf false
  | .nan => .nan

noncomputable def accelOf (b n : Node) : ℝ := ((n.speed : ℝ) - b.speed) / ((n.time : ℝ) - b.time)

/-- The time that the loops give to a way from the node where the interpolation starts. -/
noncomputable def arrival (b n : Node) (way : ℝ) : Dbl ℝ :=
  if |accelOf b n| < MIN_ACCELERATION then .fin way / .fin (b.speed : ℝ)
  else
    let square := (b.speed : ℝ) * b.speed + (2 : ℕ) * accelOf b n * way
    if square < 0 then .nan else .fin ((Real.sqrt square - b.speed) / accelOf b n)

section times

theorem min_acceleration_pos : (0 : ℝ) < MIN_ACCELERATION := by
  unfold MIN_ACCELERATION
  positivity

/-- A step more at a constant speed. -/
theorem add_div_step {t way step v : ℝ} (hway : 0 < way) (hstep : 0 < step) :
    (Dbl.fin t + .fin way / .fin v : Dbl ℝ) + .fin step / .fin v = .fin t + .fin (way + step) / .fin v := by
  by_cases hv : v = 0
  · rw [hv, Dbl.fin_div_zero hway, Dbl.fin_div_zero hstep, Dbl.fin_div_zero (add_pos hway hstep)]
    rfl
  · rw [Dbl.fin_div _ hv, Dbl.fin_div _ hv, Dbl.fin_div _ hv, Dbl.fin_add, Dbl.fin_add, Dbl.fin_add]
    congr 1
    ring

theorem steady_eq (x_f t_0 v : ℝ) {distanceStep x_0 x : ℝ} (hstep : 0 < distanceStep)
    (hx : x_0 < x) (turns : ℕ) :
    steady distanceStep x_f (.fin distanceStep / .fin v) (.fin t_0 + .fin (x - x_0) / .fin v) x turns =
      (places distanceStep x_f x turns).map
        fun y => planPoint y (.fin t_0 + .fin (y - x_0) / .fin v) := by
  induction turns generalizing x with
  | zero => rfl
  | succ turns ih =>
    unfold steady places
    split
    · rw [List.map_cons, add_div_step (sub_pos.mpr hx) hstep]
      have hnext : x - x_0 + distanceStep = x + distanceStep - x_0 := by ring
      rw [hnext, ih (by linarith)]
    · rfl

/-- The speed that the loop has after a way. -/
noncomputable def speedAfter (v_0 a way : ℝ) : Dbl ℝ := mathSqrt (.fin (v_0 * v_0 + (2 : ℕ) * a * way))

theorem speedAfter_next (v_0 a : ℝ) {way step : ℝ} (hway : 0 ≤ way) (hstep : 0 < step) :
    mathSqrt (speedAfter v_0 a way * speedAfter v_0 a way + .fin (2 * a * step)) =
      speedAfter v_0 a (way + step) := by
  unfold speedAfter mathSqrt
  rw [Nat.cast_ofNat]
  dsimp only
  by_cases hneg : v_0 * v_0 + 2 * a * way < 0
  · -- below zero it stays below zero
    have ha : a < 0 := by
      by_contra hna
      have hprod := mul_nonneg (not_lt.mp hna) hway
      linarith [mul_self_nonneg v_0]
    have hnext : v_0 * v_0 + 2 * a * (way + step) < 0 := by
      have hprod := mul_neg_of_neg_of_pos ha hstep
      linarith
    rw [if_pos hneg, if_pos hnext]
    rfl
  · rw [if_neg hneg, Dbl.fin_mul, Dbl.fin_add, Real.mul_self_sqrt (not_lt.mp hneg)]
    have hsum : v_0 * v_0 + 2 * a * way + 2 * a * step = v_0 * v_0 + 2 * a * (way + step) := by ring
    dsimp only
    rw [hsum]

theorem time_next {t_0 v_0 a way step : ℝ} (ha : a ≠ 0) (hway : 0 ≤ way) (hstep : 0 < step) :
    (Dbl.fin t_0 + (speedAfter v_0 a way - .fin v_0) / .fin a : Dbl ℝ) +
        (speedAfter v_0 a (way + step) - speedAfter v_0 a way) / .fin a =
      .fin t_0 + (speedAfter v_0 a (way + step) - .fin v_0) / .fin a := by
  have hnext := speedAfter_next v_0 a hway hstep
  cases hv : speedAfter v_0 a way with
  | fin v =>
    cases hw : speedAfter v_0 a (way + step) with
    | fin w =>
      simp only [Dbl.fin_sub, Dbl.fin_div _ ha, Dbl.fin_add]
      congr 1
      ring
    | inf s =>
      unfold speedAfter mathSqrt at hw
      dsimp only at hw
      split at hw <;> cases hw
    | nan =>
      rw [Dbl.fin_sub, Dbl.fin_div _ ha]
      rfl
  | inf s =>
    unfold speedAfter mathSqrt at hv
    dsimp only at hv
    split at hv <;> cases hv
  | nan =>
    rw [hv] at hnext
    have hnan : speedAfter v_0 a (way + step) = .nan := hnext.symm
    rw [hnan]
    rfl

theorem accelerating_eq (x_f t_0 v_0 : ℝ) {distanceStep x_0 a x : ℝ} (ha : a ≠ 0)
    (hstep : 0 < distanceStep) (hx : x_0 ≤ x) (turns : ℕ) :
    accelerating mathSqrt distanceStep x_f (.fin a) (.fin (2 * a * distanceStep))
        (.fin t_0 + (speedAfter v_0 a (x - x_0) - .fin v_0) / .fin a) (speedAfter v_0 a (x - x_0)) x
        turns =
      (places distanceStep x_f x turns).map
        fun y => planPoint y (.fin t_0 + (speedAfter v_0 a (y - x_0) - .fin v_0) / .fin a) := by
  induction turns generalizing x with
  | zero => rfl
  | succ turns ih =>
    unfold accelerating places
    split
    · dsimp only
      have hway : 0 ≤ x - x_0 := sub_nonneg.mpr hx
      have hnext : x - x_0 + distanceStep = x + distanceStep - x_0 := by ring
      rw [List.map_cons, speedAfter_next _ _ hway hstep, time_next ha hway hstep, hnext, ih (by linarith)]
    · rfl

/-- The points between two nodes: the places a step apart, each with its arrival. -/
theorem between_eq {o : Offsets ℝ} {b n : Node} (hstep : 0 < o.distanceStep) (htime : b.time < n.time) :
    between mathSqrt o b n =
      (places o.distanceStep (o.x n) (o.x b + o.distanceStep)
          ⌈(o.x n - (o.x b + o.distanceStep)) / o.distanceStep⌉.toNat).map
        fun y => planPoint y (.fin (o.t b) + arrival b n (y - o.x b)) := by
  have hdt : o.t n - o.t b = (n.time : ℝ) - b.time := by
    unfold Offsets.t
    ring
  have hdt' : (n.time : ℝ) - b.time ≠ 0 := sub_ne_zero.mpr (by exact_mod_cast htime.ne')
  have ha : (Dbl.fin ((n.speed : ℝ) - b.speed) / .fin (o.t n - o.t b) : Dbl ℝ) =
      .fin (accelOf b n) := by
    rw [hdt, Dbl.fin_div _ hdt']
    rfl
  have hfirst : o.x b + o.distanceStep - o.x b = o.distanceStep := add_sub_cancel_left _ _
  have hstart : o.x b < o.x b + o.distanceStep := lt_add_of_pos_right _ hstep
  have htwo : (Dbl.fin ((2 : ℤ) : ℝ) * .fin (accelOf b n) * .fin o.distanceStep : Dbl ℝ) =
      .fin (2 * accelOf b n * o.distanceStep) := by
    rw [Dbl.fin_mul, Dbl.fin_mul]
    norm_num
  unfold between
  dsimp only
  have habs : (Dbl.fin (accelOf b n)).abs = .fin |accelOf b n| := rfl
  rw [ha, htwo, habs]
  simp only [Dbl.lt_fin, decide_eq_true_eq]
  by_cases hmin : |accelOf b n| < MIN_ACCELERATION
  · rw [if_pos hmin]
    have h := steady_eq (o.x n) (o.t b) b.speed hstep hstart
      ⌈(o.x n - (o.x b + o.distanceStep)) / o.distanceStep⌉.toNat
    rw [hfirst] at h
    rw [h]
    congr 1
    funext y
    unfold arrival
    rw [if_pos hmin]
  · rw [if_neg hmin]
    have ha0 : accelOf b n ≠ 0 := by
      intro hzero
      rw [hzero, abs_zero] at hmin
      exact hmin min_acceleration_pos
    have h := accelerating_eq (o.x n) (o.t b) b.speed ha0 hstep hstart.le
      ⌈(o.x n - (o.x b + o.distanceStep)) / o.distanceStep⌉.toNat
    rw [hfirst] at h
    have hspeed : mathSqrt (.fin (b.speed : ℝ) * .fin (b.speed : ℝ) +
        .fin (2 * accelOf b n * o.distanceStep)) = speedAfter b.speed (accelOf b n) o.distanceStep := rfl
    rw [hspeed, h]
    congr 1
    funext y
    unfold arrival speedAfter mathSqrt
    rw [Nat.cast_ofNat]
    rw [if_neg hmin]
    dsimp only
    split
    · rfl
    · rw [Dbl.fin_sub, Dbl.fin_div _ ha0]

end times

/-! ## The motions -/

/-- The motion of a hop, with its start as time zero. -/
noncomputable def hopCourse (s n : Node) : Course ℝ := ⟨s.distance, s.speed, accelOf s n⟩

/-- The motion that the interpolation follows: a small acceleration counts as none. -/
noncomputable def followed (b n : Node) : Course ℝ :=
  ⟨b.distance, b.speed, if |accelOf b n| < MIN_ACCELERATION then 0 else accelOf b n⟩

/-- A hop of a plan: it takes time, does not go back, and its way is its time at the mean of its
two speeds. -/
structure Hop (s n : Node) : Prop where
  later : s.time < n.time
  onward : s.distance ≤ n.distance
  mean : 2 * (n.distance - s.distance) = (s.speed + n.speed) * (n.time - s.time)

section motions

theorem way_iff_square {start speed accel way t : ℝ} (ha : accel ≠ 0) :
    start + speed * t + accel * t * t / 2 = start + way ↔
      (speed + accel * t) * (speed + accel * t) = speed * speed + 2 * accel * way := by
  constructor
  · intro h
    linear_combination 2 * accel * h
  · intro h
    have h' : accel * (start + speed * t + accel * t * t / 2) = accel * (start + way) := by
      linear_combination h / 2
    exact mul_left_cancel₀ ha h'

/-- The time of a way is the one at which the motion that is followed has come that far and does
not go back. -/
theorem arrival_iff {b n : Node} {way t : ℝ} (hway : 0 < way) (ht : 0 ≤ t) :
    arrival b n way = .fin t ↔
      ((followed b n).after t).pos = b.distance + way ∧ 0 ≤ ((followed b n).after t).speed := by
  unfold arrival followed Course.after
  rw [Nat.cast_ofNat]
  dsimp only
  by_cases hmin : |accelOf b n| < MIN_ACCELERATION
  · rw [if_pos hmin, if_pos hmin, zero_mul, zero_mul, zero_div, add_zero, add_zero]
    by_cases hv : (b.speed : ℝ) = 0
    · rw [hv, Dbl.fin_div_zero hway]
      refine iff_of_false (by nofun) ?_
      rintro ⟨hpos, -⟩
      rw [zero_mul, add_zero] at hpos
      linarith
    · rw [Dbl.fin_div _ hv, Dbl.fin.injEq, div_eq_iff hv]
      constructor
      · intro h
        refine ⟨by rw [h, mul_comm], ?_⟩
        by_contra hneg
        have hprod := mul_nonpos_of_nonneg_of_nonpos ht (not_le.mp hneg).le
        linarith
      · rintro ⟨hpos, -⟩
        linarith
  · rw [if_neg hmin, if_neg hmin]
    have ha : accelOf b n ≠ 0 := by
      intro hzero
      rw [hzero, abs_zero] at hmin
      exact hmin min_acceleration_pos
    rw [way_iff_square ha]
    split
    · rename_i hneg
      refine iff_of_false (by nofun) ?_
      rintro ⟨h, -⟩
      linarith [mul_self_nonneg ((b.speed : ℝ) + accelOf b n * t)]
    · rename_i hnonneg
      rw [Dbl.fin.injEq, div_eq_iff ha]
      constructor
      · intro h
        have hroot : Real.sqrt (b.speed * b.speed + 2 * accelOf b n * way) =
            b.speed + accelOf b n * t := by linarith
        rw [← hroot]
        exact ⟨Real.mul_self_sqrt (not_lt.mp hnonneg), Real.sqrt_nonneg _⟩
      · rintro ⟨h, hspeed⟩
        rw [← h, Real.sqrt_mul_self hspeed]
        ring

/-- Of two ways the longer one does not end earlier. -/
theorem arrival_mono {b n : Node} {way way' t t' : ℝ} (hway : 0 < way) (hle : way ≤ way')
    (ht : 0 ≤ t) (h : arrival b n way = .fin t) (h' : arrival b n way' = .fin t') : t ≤ t' := by
  unfold arrival at h h'
  rw [Nat.cast_ofNat] at h h'
  by_cases hmin : |accelOf b n| < MIN_ACCELERATION
  · rw [if_pos hmin] at h h'
    by_cases hv : (b.speed : ℝ) = 0
    · rw [hv, Dbl.fin_div_zero hway] at h
      cases h
    · rw [Dbl.fin_div _ hv, Dbl.fin.injEq] at h h'
      rw [← h] at ht ⊢
      rw [← h']
      have hpos : 0 < (b.speed : ℝ) := by
        by_contra hneg
        have hlt : (b.speed : ℝ) < 0 := lt_of_le_of_ne (not_lt.mp hneg) hv
        linarith [div_neg_of_pos_of_neg hway hlt]
      exact div_le_div_of_nonneg_right hle hpos.le
  · rw [if_neg hmin] at h h'
    dsimp only at h h'
    split at h
    · cases h
    · split at h'
      · cases h'
      · rw [Dbl.fin.injEq] at h h'
        rw [← h, ← h']
        rcases le_total 0 (accelOf b n) with ha | ha
        · have hroots := Real.sqrt_le_sqrt
            (by have := mul_le_mul_of_nonneg_left hle ha; linarith :
              (b.speed : ℝ) * b.speed + 2 * accelOf b n * way ≤
                b.speed * b.speed + 2 * accelOf b n * way')
          exact div_le_div_of_nonneg_right (by linarith) ha
        · have hroots := Real.sqrt_le_sqrt
            (by have := mul_le_mul_of_nonpos_left hle ha; linarith :
              (b.speed : ℝ) * b.speed + 2 * accelOf b n * way' ≤
                b.speed * b.speed + 2 * accelOf b n * way)
          exact div_le_div_of_nonpos_of_le ha (by linarith)

theorem Hop.dt_pos {s n : Node} (h : Hop s n) : (0 : ℝ) < n.time - s.time :=
  sub_pos.mpr (by exact_mod_cast h.later)

theorem Hop.gain {s n : Node} (h : Hop s n) :
    accelOf s n * (n.time - s.time) = n.speed - s.speed :=
  div_mul_cancel₀ _ h.dt_pos.ne'

/-- A hop whose way is not nothing goes forward in the mean. -/
theorem Hop.forward {s n : Node} (h : Hop s n) (hway : (s.distance : ℝ) < n.distance) :
    0 < (s.speed : ℝ) + n.speed := by
  have hmean : 2 * ((n.distance : ℝ) - s.distance) = (s.speed + n.speed) * (n.time - s.time) := by
    exact_mod_cast h.mean
  by_contra hneg
  have hprod := mul_nonpos_of_nonpos_of_nonneg (not_lt.mp hneg) h.dt_pos.le
  linarith

theorem Hop.square_nonneg {s n : Node} (h : Hop s n) {x : ℝ} (hstart : s.distance < x)
    (hend : x < n.distance) :
    0 ≤ (s.speed : ℝ) * s.speed + 2 * accelOf s n * (x - s.distance) := by
  have hmean : 2 * ((n.distance : ℝ) - s.distance) = (s.speed + n.speed) * (n.time - s.time) := by
    exact_mod_cast h.mean
  have hsq : (n.speed : ℝ) * n.speed =
      s.speed * s.speed + 2 * accelOf s n * (n.distance - s.distance) := by
    linear_combination (-(s.speed : ℝ) - n.speed) * h.gain - accelOf s n * hmean
  rcases le_total 0 (accelOf s n) with ha | ha
  · have := mul_nonneg ha (sub_nonneg.mpr hstart.le)
    linarith [mul_self_nonneg (s.speed : ℝ)]
  · have := mul_le_mul_of_nonpos_left (sub_le_sub_right hend.le (s.distance : ℝ)) ha
    linarith [mul_self_nonneg (n.speed : ℝ)]

theorem Hop.forward_to {s n : Node} (h : Hop s n) {x w : ℝ} (hstart : s.distance < x)
    (hend : x < n.distance) (hw : 0 ≤ w)
    (hww : w * w = s.speed * s.speed + 2 * accelOf s n * (x - s.distance)) :
    0 < (s.speed : ℝ) + w := by
  have hsum := h.forward (hstart.trans hend)
  by_contra hneg
  -- a vehicle that goes back turns: it gains speed up to the end
  have hback : (s.speed : ℝ) ≤ 0 := by linarith
  have ha : 0 < accelOf s n := by
    unfold accelOf
    exact div_pos (by linarith) h.dt_pos
  have hprod := mul_pos ha (sub_pos.mpr hstart)
  have hless : w * w ≤ -(s.speed : ℝ) * -s.speed :=
    mul_self_le_mul_self hw (by linarith)
  linarith

/-- The place is passed before the hop ends. -/
theorem Hop.in_time {s n : Node} (h : Hop s n) {x w t : ℝ} (hstart : s.distance < x)
    (hend : x < n.distance) (hw : 0 ≤ w) (hspeed : (s.speed : ℝ) + accelOf s n * t = w)
    (hway : 2 * (x - s.distance) = (s.speed + w) * t) : t ≤ n.time - s.time := by
  have hmean : 2 * ((n.distance : ℝ) - s.distance) = (s.speed + n.speed) * (n.time - s.time) := by
    exact_mod_cast h.mean
  have hsum := h.forward (hstart.trans hend)
  have hgain := h.gain
  by_contra hlate
  have hover : 0 < t - (n.time - s.time) := sub_pos.mpr (not_le.mp hlate)
  have hprod : (t - (n.time - s.time)) * (w + n.speed) < 0 := by
    have heq : (t - (n.time - s.time)) * (w + n.speed) =
        2 * (x - s.distance) - 2 * (n.distance - s.distance) := by
      linear_combination hmean - hway + ((n.time : ℝ) - s.time) * hspeed - t * hgain
    rw [heq]
    linarith
  have hneg : w + n.speed < 0 := by
    by_contra hge
    linarith [mul_nonneg hover.le (not_lt.mp hge)]
  have ha : accelOf s n < 0 := by
    unfold accelOf
    exact div_neg_of_neg_of_pos (by linarith) h.dt_pos
  linarith [mul_neg_of_neg_of_pos ha hover]

/-- A hop comes by each place on its way, going forward. -/
theorem Hop.passes {s n : Node} (h : Hop s n) {x : ℝ} (hstart : s.distance < x)
    (hend : x < n.distance) :
    ∃ t : ℝ, s.time ≤ t ∧ t ≤ n.time ∧ ((hopCourse s n).after (t - s.time)).pos = x ∧
      0 ≤ ((hopCourse s n).after (t - s.time)).speed := by
  obtain ⟨w, hw, hww⟩ : ∃ w : ℝ, 0 ≤ w ∧
      w * w = s.speed * s.speed + 2 * accelOf s n * (x - s.distance) :=
    ⟨_, Real.sqrt_nonneg _, Real.mul_self_sqrt (h.square_nonneg hstart hend)⟩
  have hforward := h.forward_to hstart hend hw hww
  have hreach : (hopCourse s n).after ((hopCourse s n).timeTo x w) = ⟨x, w, accelOf s n⟩ :=
    (hopCourse s n).after_timeTo hforward.ne' hww
  generalize htime : (hopCourse s n).timeTo x w = t at hreach
  have hpos : 0 < t := by
    rw [← htime]
    unfold Course.timeTo hopCourse
    exact div_pos (mul_pos (by norm_num) (sub_pos.mpr hstart)) hforward
  have hspeed : (s.speed : ℝ) + accelOf s n * t = w := congrArg Course.speed hreach
  have hway : 2 * (x - s.distance) = (s.speed + w) * t := by
    have hway := (hopCourse s n).way t
    rw [hreach] at hway
    exact hway
  have hlate := h.in_time hstart hend hw hspeed hway
  refine ⟨s.time + t, by linarith, by linarith, ?_, ?_⟩
  · rw [add_sub_cancel_left, hreach]
  · rw [add_sub_cancel_left, hreach]
    exact hw

end motions

end carma.plan_interpolator
