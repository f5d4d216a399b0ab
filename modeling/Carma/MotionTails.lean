-- A maneuver that is under way: the loop that adds its points takes up the motion in the middle,
-- and where it does so right it adds the tail of the path from the start of the maneuver.
import Mathlib.Analysis.Real.Sqrt
import Carma.Lib.UniformMotion
import Carma.PathBounds

open lib.exact_double
open lib.uniform_motion
open carma.maneuvers
open carma.route

namespace carma.trajectory_converter

variable {K : Type} [LinearOrder K] [Field K]

/-! ## Going on from a turn -/

/-- What a simulation starts from to go on from here. -/
def Simulation.data (s : Simulation K) : LongitudinalSimulationData K :=
  ⟨s.currentSimTime, s.currentDowntrack, s.currentSegDowntrack, s.segmentIdx⟩

/-- The loop reads no more of the kinematics than what a turn adds. -/
theorem simulate_terms {c : TrajectoryConverter K} {k k' : Kinematics K}
    (hway : k'.accelTerm = k.accelTerm) (hgain : k'.deltaVPerTimeStep = k.deltaVPerTimeStep)
    (endTime : Dbl K) (n : ℕ) (s : Simulation K) :
    simulate c k' endTime n s = simulate c k endTime n s := by
  have hadvance : ∀ s : Simulation K, s.advance c.timeStep k' = s.advance c.timeStep k := by
    intro s
    unfold Simulation.advance
    rw [hway, hgain]
  induction n generalizing s with
  | zero => rfl
  | succ n ih =>
    unfold simulate
    simp only [hadvance, ih]

/-- The first turn sets the distance of the last one anew. -/
theorem simulate_distance {c : TrajectoryConverter K} {k : Kinematics K} {endTime : Dbl K} {n : ℕ}
    {s : Simulation K} (distanceChange : Dbl K) (h : 0 < (simulate c k endTime n s).1.length) :
    simulate c k endTime n { s with distanceChange } = simulate c k endTime n s := by
  obtain ⟨hstarts, n, rfl⟩ := starts_of_points h
  have hnext : ({ s with distanceChange } : Simulation K).nextSegment c.route =
      { s.nextSegment c.route with distanceChange } := by
    unfold Simulation.nextSegment
    dsimp only
    split <;> rfl
  have hstarts' : Starts c endTime { s with distanceChange } := by
    refine ⟨hstarts.1, ?_⟩
    rw [hnext]
    exact hstarts.2
  have hturn : ({ s with distanceChange } : Simulation K).turn c k = s.turn c k := by
    unfold Simulation.turn
    rw [hnext]
    rfl
  rw [simulate_starts hstarts, simulate_starts hstarts', hturn, hnext]
  rfl

/-! ## Going on in the middle -/

/-- Where the loop is after some turns. -/
def dataAfter (sqrt : Dbl K → Dbl K) (c : TrajectoryConverter K) (motion : Motion K)
    (start : LongitudinalSimulationData K) (turns : ℕ) :
    Option (LongitudinalSimulationData K) :=
  (c.route.getSegment start.segmentIdx).map fun seg =>
    let k := kinematics sqrt c.timeStep motion start.downtrack
    ((Simulation.turn c k)^[turns] (startOf start k seg)).data

/-- A start in the middle of the maneuver gives the tail of each path from its start: with the
points up to there, it comes to the same path and the same end. -/
def GivesTail (sqrt : Dbl K → Dbl K) (c : TrajectoryConverter K) (maxPointsInPath : ℤ)
    (motion : Motion K) (data : LongitudinalSimulationData K) : Prop :=
  ∀ start path path' last turns, start.downtrack = Dbl.fin motion.startDist →
    addKinematicMotionToPath sqrt c maxPointsInPath motion path start = some (path', last) →
    path.length + turns < path'.length → dataAfter sqrt c motion start turns = some data →
    addKinematicMotionToPath sqrt c maxPointsInPath motion (path'.take (path.length + turns)) data =
      some (path', last)

/-- Where the motion ends, once the loop is over. -/
def Simulation.last (c : TrajectoryConverter K) (s : Simulation K) :
    LongitudinalSimulationData K where
  simTime := s.currentSimTime - c.timeStep
  downtrack := s.currentDowntrack - s.distanceChange
  segmentDowntrack := s.currentSegDowntrack - s.distanceChange
  segmentIdx := s.segmentIdx

theorem addKinematicMotion_eq {sqrt : Dbl K → Dbl K} {c : TrajectoryConverter K}
    {maxPointsInPath : ℤ} {motion : Motion K} {path : List (PathPoint K)}
    {data : LongitudinalSimulationData K} {seg : RouteSegment K} {k : Kinematics K}
    (hseg : c.route.getSegment data.segmentIdx = some seg)
    (hk : kinematics sqrt c.timeStep motion data.downtrack = k) :
    addKinematicMotionToPath sqrt c maxPointsInPath motion path data =
      let loop := simulate c k (↑data.simTime + k.deltaT) (room c maxPointsInPath path.length)
        (startOf data k seg)
      some (path ++ loop.1, loop.2.last c) := by
  unfold addKinematicMotionToPath
  rw [hseg, hk]
  rfl

/-- A start in the middle comes to the same end where the kinematics there agree with the turns
before. -/
theorem resumes {sqrt : Dbl K → Dbl K} {c : TrajectoryConverter K} {maxPointsInPath : ℤ}
    {motion : Motion K} {path path' : List (PathPoint K)}
    {start last : LongitudinalSimulationData K} {turns : ℕ} {seg : RouteSegment K}
    {k k' : Kinematics K} {s : Simulation K}
    (h : addKinematicMotionToPath sqrt c maxPointsInPath motion path start = some (path', last))
    (hlt : path.length + turns < path'.length)
    (hseg : c.route.getSegment start.segmentIdx = some seg)
    (hk : kinematics sqrt c.timeStep motion start.downtrack = k)
    (hs : (Simulation.turn c k)^[turns] (startOf start k seg) = s)
    (hk' : kinematics sqrt c.timeStep motion s.currentDowntrack = k')
    (hway : k'.accelTerm = k.accelTerm) (hgain : k'.deltaVPerTimeStep = k.deltaVPerTimeStep)
    (hspeed : k'.actualStartV = s.actualStartV)
    (htime : (↑s.currentSimTime + k'.deltaT : Dbl K) = ↑start.simTime + k.deltaT) :
    addKinematicMotionToPath sqrt c maxPointsInPath motion (path'.take (path.length + turns))
      s.data = some (path', last) := by
  rw [addKinematicMotion_eq hseg hk] at h
  obtain ⟨rfl, rfl⟩ := Prod.mk.inj (Option.some.inj h)
  rw [List.length_append, Nat.add_lt_add_iff_left] at hlt
  obtain ⟨hall, hlast, hpos⟩ := simulate_turns hlt
  have hat : s.AtSegment c.route :=
    hs ▸ turns_at (show (startOf start k seg).AtSegment c.route from hseg) hlt
  rw [hs] at hall hlast hpos
  -- the loop goes on from the same variables, but for the distance of the last turn
  have hstart : startOf s.data k' s.currentSeg = { s with distanceChange := ↑(0 : K) } := by
    unfold startOf Simulation.data
    rw [hspeed]
  have hroom : room c maxPointsInPath (path.length + turns) =
      room c maxPointsInPath path.length - turns := by
    rw [room_eq, room_eq, Nat.sub_add_eq]
  have hlength : ((path ++ (simulate c k (↑start.simTime + k.deltaT)
      (room c maxPointsInPath path.length) (startOf start k seg)).1).take
        (path.length + turns)).length = path.length + turns := by
    rw [List.length_take, List.length_append]
    omega
  rw [addKinematicMotion_eq (show c.route.getSegment s.data.segmentIdx = some s.currentSeg from hat)
    hk', hlength, hroom, hstart]
  dsimp only [Simulation.data]
  rw [htime, simulate_terms hway hgain, simulate_distance _ hpos]
  refine congrArg some (Prod.ext ?_ ?_)
  · dsimp only
    rw [List.take_append, List.take_of_length_le (Nat.le_add_right _ _), Nat.add_sub_cancel_left,
      List.append_assoc]
    exact congrArg (path ++ ·) hall.symm
  · exact congrArg (Simulation.last c) hlast.symm

/-! ## The motion of a maneuver -/

/-- The motion that a maneuver makes from its start. -/
def courseOf (motion : Motion K) : Course K :=
  between motion.startDist motion.endDist motion.startSpeed motion.endSpeed

/-- The loop is where the motion is. -/
structure Simulation.On (s : Simulation K) (m : Course K) : Prop where
  place : s.currentDowntrack = Dbl.fin m.pos
  speed : s.actualStartV = Dbl.fin m.speed

/-- The terms of the loop are those of an acceleration. -/
structure Kinematics.Accelerates (c : TrajectoryConverter K) (k : Kinematics K) (accel : K) :
    Prop where
  way : k.accelTerm = Dbl.fin (half * accel * c.timeStep * c.timeStep)
  gain : k.deltaVPerTimeStep = Dbl.fin (accel * c.timeStep)

section laws

variable [IsStrictOrderedRing K]

theorem turn_on {c : TrajectoryConverter K} {k : Kinematics K} {s : Simulation K} {m : Course K}
    (hk : k.Accelerates c m.accel) (hs : s.On m) : (s.turn c k).On (m.after c.timeStep) := by
  unfold Simulation.turn Simulation.advance Course.after
  constructor
  · dsimp only
    rw [nextSegment_downtrack, nextSegment_speed, hs.place, hs.speed, hk.way, Dbl.fin_mul,
      Dbl.fin_add, Dbl.fin_add]
    unfold half
    congr 1
    ring
  · dsimp only
    rw [nextSegment_speed, hs.speed, hk.gain, Dbl.fin_add]

theorem turns_on {c : TrajectoryConverter K} {k : Kinematics K} {s : Simulation K} {m : Course K}
    (hk : k.Accelerates c m.accel) (hs : s.On m) (j : ℕ) :
    ((Simulation.turn c k)^[j] s).On (m.after (j * c.timeStep)) ∧
      ((Simulation.turn c k)^[j] s).currentSimTime = s.currentSimTime + j * c.timeStep := by
  induction j with
  | zero => simp [hs]
  | succ j ih =>
    obtain ⟨hon, htime⟩ := ih
    rw [Function.iterate_succ_apply', Nat.cast_succ, add_one_mul, Course.after_add, turn_time, htime,
      add_assoc]
    exact ⟨turn_on hk hon, rfl⟩

/-- Each point that the loop adds is where the motion is at its time. -/
theorem simulate_on {c : TrajectoryConverter K} {k : Kinematics K} {endTime : Dbl K} {n : ℕ}
    {s : Simulation K} {m : Course K} (hk : k.Accelerates c m.accel) (hs : s.On m) :
    ∀ p ∈ (simulate c k endTime n s).1,
      p.downtrack = Dbl.fin (m.after (p.stamp - s.currentSimTime)).pos := by
  induction n generalizing s m with
  | zero => exact fun p hp => absurd hp List.not_mem_nil
  | succ n ih =>
    by_cases hstarts : Starts c endTime s
    · rw [simulate_starts hstarts]
      intro p hp
      rcases List.mem_cons.mp hp with rfl | hp
      · simp [Simulation.point, hs.place]
      · have hrest := ih (m := m.after c.timeStep) hk (turn_on hk hs) p hp
        rw [hrest, turn_time, ← Course.after_add]
        congr 3
        ring
    · have hnone := (simulate_times c k endTime (n + 1) s).2.2.not.mpr (fun hc => hstarts hc.2)
      rw [not_not.mp hnone]
      exact fun p hp => absurd hp List.not_mem_nil

/-! ## The kinematics of a start -/

/-- A maneuver as they are planned: it goes forward, at speeds that are not negative and not both
zero. -/
structure Moves (motion : Motion K) : Prop where
  way : motion.startDist < motion.endDist
  start_speed : 0 ≤ motion.startSpeed
  end_speed : 0 ≤ motion.endSpeed
  moves : motion.startSpeed + motion.endSpeed ≠ 0

/-- `Math.sqrt` without rounding. -/
def ExactRoots (sqrt : Dbl K → Dbl K) : Prop :=
  ∀ x : K, 0 ≤ x → ∃ r, 0 ≤ r ∧ r * r = x ∧ sqrt (Dbl.fin x) = Dbl.fin r

theorem twice_accel (motion : Motion K) :
    (motion.endSpeed * motion.endSpeed - motion.startSpeed * motion.startSpeed) /
        (motion.endDist - motion.startDist) = 2 * (courseOf motion).accel := by
  unfold courseOf between
  dsimp only
  rw [Nat.cast_ofNat, ← mul_div_assoc, mul_div_mul_left _ _ two_ne_zero]

theorem half_accel (motion : Motion K) :
    (motion.endSpeed * motion.endSpeed - motion.startSpeed * motion.startSpeed) /
        (motion.endDist - motion.startDist) * half = (courseOf motion).accel := by
  rw [twice_accel]
  unfold half
  push_cast
  ring

/-- The time that the code takes for a change of speed over a way. -/
def durationOf (motion : Motion K) (way startV gain : K) : Dbl K :=
  if (courseOf motion).accel = 0 then Dbl.fin way / Dbl.fin startV
  else Dbl.fin (gain / (courseOf motion).accel)

theorem kinematics_accelerates {motion : Motion K} (hway : motion.startDist < motion.endDist)
    (sqrt : Dbl K → Dbl K) (c : TrajectoryConverter K) (downtrack : Dbl K) :
    (kinematics sqrt c.timeStep motion downtrack).Accelerates c (courseOf motion).accel := by
  have hne : motion.endDist - motion.startDist ≠ 0 := (sub_pos.mpr hway).ne'
  have haccel := half_accel motion
  unfold kinematics
  constructor
  · dsimp only
    rw [Dbl.fin_sub, Dbl.fin_div _ hne, Dbl.fin_mul, haccel, Dbl.fin_mul, Dbl.fin_mul, Dbl.fin_mul]
  · dsimp only
    rw [Dbl.fin_sub, Dbl.fin_div _ hne, Dbl.fin_mul, haccel, Dbl.fin_mul]

/-- At the start of the maneuver the whole of it is ahead. -/
theorem kinematics_at_start {motion : Motion K} (hway : motion.startDist < motion.endDist)
    (sqrt : Dbl K → Dbl K) (c : TrajectoryConverter K) :
    let k := kinematics sqrt c.timeStep motion (Dbl.fin motion.startDist)
    k.actualStartV = Dbl.fin motion.startSpeed ∧
      k.deltaT = durationOf motion (motion.endDist - motion.startDist) motion.startSpeed
        (motion.endSpeed - motion.startSpeed) := by
  have hne : motion.endDist - motion.startDist ≠ 0 := (sub_pos.mpr hway).ne'
  have haccel := half_accel motion
  have hnot : Dbl.lt (Dbl.fin motion.startDist) (Dbl.fin motion.startDist) = false := by simp
  unfold kinematics durationOf
  dsimp only
  rw [hnot, Dbl.fin_sub, Dbl.fin_div _ hne, Dbl.fin_mul, haccel]
  refine ⟨rfl, ?_⟩
  by_cases hzero : (courseOf motion).accel = 0
  · simp [Dbl.eq, hzero]
  · simp [Dbl.eq, hzero, Dbl.fin_div]

/-- Under way the code takes the way that is left for the one that is done, and the speed that is
gained for the one that is still to gain. -/
theorem kinematics_under_way {motion : Motion K} (hway : motion.startDist < motion.endDist)
    {sqrt : Dbl K → Dbl K} (c : TrajectoryConverter K) {d r : K} (hd : motion.startDist < d)
    (hr : sqrt (Dbl.fin (motion.startSpeed * motion.startSpeed +
      2 * (courseOf motion).accel * (motion.endDist - d))) = Dbl.fin r) :
    let k := kinematics sqrt c.timeStep motion (Dbl.fin d)
    k.actualStartV = Dbl.fin r ∧
      k.deltaT = durationOf motion (motion.endDist - d) r (r - motion.startSpeed) := by
  have hne : motion.endDist - motion.startDist ≠ 0 := (sub_pos.mpr hway).ne'
  have haccel := half_accel motion
  have hstarted : Dbl.lt (Dbl.fin motion.startDist) (Dbl.fin d) = true := by simp [hd]
  unfold kinematics durationOf
  dsimp only
  rw [hstarted, Dbl.fin_sub, Dbl.fin_div _ hne, Dbl.fin_mul, haccel, twice_accel, Dbl.fin_sub]
  simp only [if_true, Dbl.fin_mul, Dbl.fin_add, hr]
  refine ⟨trivial, ?_⟩
  by_cases hzero : (courseOf motion).accel = 0
  · simp [Dbl.eq, hzero]
  · simp [Dbl.eq, hzero, Dbl.fin_sub, Dbl.fin_div]

/-- What the code takes the root of lies between the squares of the two speeds. -/
theorem radicand_nonneg {motion : Motion K} (hway : motion.startDist < motion.endDist) {d : K}
    (hstart : motion.startDist ≤ d) (hend : d ≤ motion.endDist) :
    0 ≤ motion.startSpeed * motion.startSpeed +
      2 * (courseOf motion).accel * (motion.endDist - d) := by
  have hlen := sub_pos.mpr hway
  have hmean : motion.startSpeed * motion.startSpeed +
      2 * (courseOf motion).accel * (motion.endDist - d) =
      (motion.startSpeed * motion.startSpeed * (d - motion.startDist) +
        motion.endSpeed * motion.endSpeed * (motion.endDist - d)) /
          (motion.endDist - motion.startDist) := by
    have hne := hlen.ne'
    rw [← twice_accel]
    field_simp
    ring
  rw [hmean]
  apply div_nonneg _ hlen.le
  apply add_nonneg
  · exact mul_nonneg (mul_self_nonneg _) (sub_nonneg.mpr hstart)
  · exact mul_nonneg (mul_self_nonneg _) (sub_nonneg.mpr hend)

/-- The code takes the right time from where the motion is right. -/
theorem durationOf_right {motion : Motion K} {d v : K} (hv : 0 ≤ v) (hend : 0 ≤ motion.endSpeed)
    (hmean : v + motion.endSpeed ≠ 0)
    (hsq : motion.endSpeed * motion.endSpeed =
      v * v + 2 * (courseOf motion).accel * (motion.endDist - d)) :
    durationOf motion (motion.endDist - d) v (motion.endSpeed - v) =
      Dbl.fin ((Course.mk d v (courseOf motion).accel).timeTo motion.endDist motion.endSpeed) := by
  have hreach := Course.after_timeTo ⟨d, v, (courseOf motion).accel⟩ hmean hsq
  unfold durationOf
  by_cases hzero : (courseOf motion).accel = 0
  · have hsame : v = motion.endSpeed := by
      rw [hzero, mul_zero, zero_mul, add_zero] at hsq
      exact ((mul_self_inj hend hv).mp hsq).symm
    have hne : v ≠ 0 := by
      intro hc
      rw [← hsame, hc, add_zero] at hmean
      exact hmean rfl
    rw [if_pos hzero, Dbl.fin_div _ hne, ← hsame]
    unfold Course.timeTo
    dsimp only
    rw [Nat.cast_ofNat, ← two_mul, mul_div_mul_left _ _ two_ne_zero]
  · have hgain := congrArg Course.speed hreach
    unfold Course.after at hgain
    dsimp only at hgain
    rw [if_neg hzero]
    congr 1
    rw [div_eq_iff hzero, mul_comm]
    exact sub_eq_of_eq_add' hgain.symm

/-! ## What the loop follows -/

/-- From a downtrack on, the loop goes on with the motion of the maneuver: so much time since its
start, with so much of it left, and at this speed. -/
structure Follows (sqrt : Dbl K → Dbl K) (c : TrajectoryConverter K) (maxPointsInPath : ℤ)
    (motion : Motion K) (data : LongitudinalSimulationData K) (d since left speed : K) : Prop where
  since_nonneg : 0 ≤ since
  left_nonneg : 0 ≤ left
  speed_nonneg : 0 ≤ speed
  actualStartV : (kinematics sqrt c.timeStep motion data.downtrack).actualStartV = Dbl.fin speed
  deltaT : (kinematics sqrt c.timeStep motion data.downtrack).deltaT = Dbl.fin left
  speed_sq : speed * speed = motion.startSpeed * motion.startSpeed +
    2 * (courseOf motion).accel * (d - motion.startDist)
  here : (courseOf motion).after since = ⟨d, speed, (courseOf motion).accel⟩
  there : (courseOf motion).after (since + left) =
    ⟨motion.endDist, motion.endSpeed, (courseOf motion).accel⟩
  samples : ∀ path path' last,
    addKinematicMotionToPath sqrt c maxPointsInPath motion path data = some (path', last) →
    ∀ p ∈ path'.drop path.length,
      p.downtrack = Dbl.fin ((courseOf motion).after (since + (p.stamp - data.simTime))).pos

/-- The loop goes on with the motion of the maneuver, and a start in the middle gives its tail. -/
def FollowsMotion (sqrt : Dbl K → Dbl K) (c : TrajectoryConverter K) (maxPointsInPath : ℤ)
    (motion : Motion K) (data : LongitudinalSimulationData K) (d : K) : Prop :=
  (∃ since left speed, Follows sqrt c maxPointsInPath motion data d since left speed) ∧
    GivesTail sqrt c maxPointsInPath motion data

theorem end_speed_sq {motion : Motion K} (hway : motion.startDist < motion.endDist) :
    motion.endSpeed * motion.endSpeed = motion.startSpeed * motion.startSpeed +
      2 * (courseOf motion).accel * (motion.endDist - motion.startDist) := by
  rw [← twice_accel, div_mul_cancel₀ _ (sub_pos.mpr hway).ne']
  ring

/-- A start at the speed of the motion follows it. -/
theorem follows_of_speed {sqrt : Dbl K → Dbl K} {c : TrajectoryConverter K} {maxPointsInPath : ℤ}
    {motion : Motion K} (hmoves : Moves motion) {data : LongitudinalSimulationData K}
    {d since speed : K} (hd : data.downtrack = Dbl.fin d) (hend : d < motion.endDist)
    (hsince : 0 ≤ since) (hspeed : 0 ≤ speed) (hmean : speed + motion.endSpeed ≠ 0)
    (hhere : (courseOf motion).after since = ⟨d, speed, (courseOf motion).accel⟩)
    (hstartV : (kinematics sqrt c.timeStep motion data.downtrack).actualStartV = Dbl.fin speed)
    (hdeltaT : (kinematics sqrt c.timeStep motion data.downtrack).deltaT =
      durationOf motion (motion.endDist - d) speed (motion.endSpeed - speed)) :
    ∃ left, Follows sqrt c maxPointsInPath motion data d since left speed := by
  have hsq : speed * speed = motion.startSpeed * motion.startSpeed +
      2 * (courseOf motion).accel * (d - motion.startDist) := by
    have h := (courseOf motion).speed_sq since
    rw [hhere] at h
    exact h
  have hrest : motion.endSpeed * motion.endSpeed =
      speed * speed + 2 * (courseOf motion).accel * (motion.endDist - d) := by
    rw [end_speed_sq hmoves.way, hsq]
    ring
  have hthere := Course.after_timeTo ⟨d, speed, (courseOf motion).accel⟩ hmean hrest
  refine ⟨_, hsince, ?_, hspeed, hstartV,
    hdeltaT.trans (durationOf_right hspeed hmoves.end_speed hmean hrest), hsq, hhere, ?_, ?_⟩
  · unfold Course.timeTo
    apply div_nonneg
    · exact mul_nonneg zero_le_two (sub_nonneg.mpr hend.le)
    · exact add_nonneg hspeed hmoves.end_speed
  · rw [Course.after_add, hhere, hthere]
  · intro path path' last hadd p hp
    have hpoints := addKinematicMotion_points hadd
    rw [hpoints, List.drop_left] at hp
    unfold pointsOf at hp
    split at hp
    · exact absurd hp List.not_mem_nil
    · rename_i seg hseg
      rw [Course.after_add, hhere]
      exact simulate_on (m := ⟨d, speed, (courseOf motion).accel⟩)
        (kinematics_accelerates hmoves.way sqrt c data.downtrack) ⟨hd, hstartV⟩ p hp

omit [LinearOrder K] [IsStrictOrderedRing K] in
theorem accel_of_steady {motion : Motion K} (hsteady : motion.startSpeed = motion.endSpeed) :
    (courseOf motion).accel = 0 := by
  unfold courseOf between
  rw [hsteady, sub_self, zero_div]

omit [IsStrictOrderedRing K] in
theorem speed_of_steady {motion : Motion K} (hmoves : Moves motion)
    (hsteady : motion.startSpeed = motion.endSpeed) : motion.startSpeed ≠ 0 := by
  intro hc
  apply hmoves.moves
  rw [← hsteady, hc, add_zero]

/-- At one speed throughout, the code keeps that speed wherever it starts. -/
theorem kinematics_steady {sqrt : Dbl K → Dbl K} (hsqrt : ExactRoots sqrt)
    (c : TrajectoryConverter K) {motion : Motion K} (hmoves : Moves motion)
    (hsteady : motion.startSpeed = motion.endSpeed) {d : K} (hstart : motion.startDist ≤ d)
    (hend : d < motion.endDist) :
    let k := kinematics sqrt c.timeStep motion (Dbl.fin d)
    k.actualStartV = Dbl.fin motion.startSpeed ∧
      k.deltaT = Dbl.fin ((motion.endDist - d) / motion.startSpeed) := by
  have hzero := accel_of_steady hsteady
  have hspeed := speed_of_steady hmoves hsteady
  rcases hstart.eq_or_lt with rfl | hlt
  · obtain ⟨hstartV, hdeltaT⟩ := kinematics_at_start hmoves.way sqrt c
    refine ⟨hstartV, hdeltaT.trans ?_⟩
    unfold durationOf
    rw [if_pos hzero, Dbl.fin_div _ hspeed]
  · obtain ⟨r, hr, hsq, hroot⟩ := hsqrt _ (radicand_nonneg hmoves.way hstart hend.le)
    have hsame : r = motion.startSpeed := by
      rw [hzero, mul_zero, zero_mul, add_zero] at hsq
      exact (mul_self_inj hr hmoves.start_speed).mp hsq
    obtain ⟨hstartV, hdeltaT⟩ := kinematics_under_way hmoves.way c hlt hroot
    rw [hsame] at hstartV hdeltaT
    refine ⟨hstartV, hdeltaT.trans ?_⟩
    unfold durationOf
    rw [if_pos hzero, Dbl.fin_div _ hspeed]

theorem loop_on {motion : Motion K} (hmoves : Moves motion) (sqrt : Dbl K → Dbl K)
    (c : TrajectoryConverter K) {start : LongitudinalSimulationData K}
    (hstart : start.downtrack = Dbl.fin motion.startDist) (seg : RouteSegment K) (turns : ℕ) :
    let k := kinematics sqrt c.timeStep motion start.downtrack
    let s := (Simulation.turn c k)^[turns] (startOf start k seg)
    s.On ((courseOf motion).after (turns * c.timeStep)) ∧
      s.currentSimTime = start.simTime + turns * c.timeStep := by
  have hk := kinematics_accelerates hmoves.way sqrt c start.downtrack
  refine turns_on (m := courseOf motion) hk ⟨hstart, ?_⟩ turns
  unfold startOf
  dsimp only
  rw [hstart]
  exact (kinematics_at_start hmoves.way sqrt c).1

/-- A motion that has gone on for some turns and still adds points is past its start. -/
theorem past_the_start {sqrt : Dbl K → Dbl K} {c : TrajectoryConverter K}
    (hstep : 0 < c.timeStep) {maxPointsInPath : ℤ} {motion : Motion K} (hmoves : Moves motion)
    {path path' : List (PathPoint K)} {start last data : LongitudinalSimulationData K} {turns : ℕ}
    (hstart : start.downtrack = Dbl.fin motion.startDist)
    (hadd : addKinematicMotionToPath sqrt c maxPointsInPath motion path start = some (path', last))
    (hlt : path.length + turns < path'.length)
    (hdata : dataAfter sqrt c motion start turns = some data)
    (hback : data.downtrack = Dbl.fin motion.startDist) : turns = 0 := by
  by_contra hturns
  obtain ⟨seg, hseg, rfl⟩ := Option.map_eq_some_iff.mp hdata
  obtain ⟨⟨hplace, -⟩, htime⟩ := loop_on hmoves sqrt c hstart seg turns
  -- the time of these turns is no more than the one of the motion
  rw [addKinematicMotion_eq hseg rfl] at hadd
  obtain ⟨rfl, -⟩ := Prod.mk.inj (Option.some.inj hadd)
  rw [List.length_append, Nat.add_lt_add_iff_left] at hlt
  obtain ⟨⟨hbefore, -⟩, -⟩ := starts_of_points (simulate_turns hlt).2.2
  have hdeltaT : (kinematics sqrt c.timeStep motion start.downtrack).deltaT =
      Dbl.fin ((courseOf motion).timeTo motion.endDist motion.endSpeed) := by
    rw [hstart]
    exact (kinematics_at_start hmoves.way sqrt c).2.trans
      (durationOf_right hmoves.start_speed hmoves.end_speed hmoves.moves (end_speed_sq hmoves.way))
  rw [hdeltaT, htime, Dbl.fin_add, Dbl.le_fin, decide_eq_true_eq, add_le_add_iff_left] at hbefore
  have hpos : 0 < (turns : K) * c.timeStep :=
    mul_pos (Nat.cast_pos.mpr (Nat.pos_of_ne_zero hturns)) hstep
  exact absurd (Dbl.fin.inj (hplace.symm.trans hback)) (between_advances hmoves.way
    hmoves.start_speed hmoves.end_speed hmoves.moves hpos hbefore).ne'

theorem tail_at_start {sqrt : Dbl K → Dbl K} {c : TrajectoryConverter K} (hstep : 0 < c.timeStep)
    (maxPointsInPath : ℤ) {motion : Motion K} (hmoves : Moves motion)
    {data : LongitudinalSimulationData K} (hd : data.downtrack = Dbl.fin motion.startDist) :
    GivesTail sqrt c maxPointsInPath motion data := by
  intro start path path' last turns hstart hadd hlt hdata
  obtain rfl := past_the_start hstep hmoves hstart hadd hlt hdata hd
  obtain ⟨seg, hseg, rfl⟩ := Option.map_eq_some_iff.mp hdata
  exact resumes hadd hlt hseg rfl rfl rfl rfl rfl rfl rfl

theorem tail_of_steady {sqrt : Dbl K → Dbl K} (hsqrt : ExactRoots sqrt)
    {c : TrajectoryConverter K} (maxPointsInPath : ℤ) {motion : Motion K} (hmoves : Moves motion)
    (hsteady : motion.startSpeed = motion.endSpeed) {data : LongitudinalSimulationData K} {d : K}
    (hd : data.downtrack = Dbl.fin d) (hstartDist : motion.startDist ≤ d)
    (hend : d < motion.endDist) : GivesTail sqrt c maxPointsInPath motion data := by
  intro start path path' last turns hstart hadd hlt hdata
  obtain ⟨seg, hseg, rfl⟩ := Option.map_eq_some_iff.mp hdata
  obtain ⟨⟨hplace, hspeed⟩, htime⟩ := loop_on hmoves sqrt c hstart seg turns
  have hk := kinematics_accelerates hmoves.way sqrt c start.downtrack
  have hk' := kinematics_accelerates hmoves.way sqrt c (Dbl.fin d)
  obtain ⟨hstartV, hdeltaT⟩ := kinematics_steady hsqrt c hmoves hsteady hstartDist hend
  obtain ⟨-, hwhole⟩ := kinematics_steady hsqrt c hmoves hsteady le_rfl hmoves.way
  have hzero := accel_of_steady hsteady
  have hne := speed_of_steady hmoves hsteady
  have hcourse : (courseOf motion).after (turns * c.timeStep) =
      ⟨motion.startDist + motion.startSpeed * (turns * c.timeStep), motion.startSpeed, 0⟩ := by
    unfold Course.after
    rw [hzero, zero_mul, zero_mul, zero_div, add_zero, add_zero]
    rfl
  rw [hcourse] at hplace hspeed
  have hhere : motion.startDist + motion.startSpeed * (turns * c.timeStep) = d :=
    Dbl.fin.inj (hplace.symm.trans hd)
  refine resumes hadd hlt hseg rfl rfl (congrArg (kinematics sqrt c.timeStep motion) hd) ?_ ?_ ?_ ?_
  · exact hk'.way.trans hk.way.symm
  · exact hk'.gain.trans hk.gain.symm
  · exact hstartV.trans hspeed.symm
  · rw [hdeltaT, htime, hstart, hwhole, Dbl.fin_add, Dbl.fin_add, ← hhere]
    congr 1
    field_simp
    ring

/-- Under way the loop follows the motion only at a steady speed. -/
theorem steady_of_follows {sqrt : Dbl K → Dbl K} (hsqrt : ExactRoots sqrt)
    {c : TrajectoryConverter K} {maxPointsInPath : ℤ} {motion : Motion K} (hmoves : Moves motion)
    {data : LongitudinalSimulationData K} {d since left speed : K}
    (hd : data.downtrack = Dbl.fin d) (hstart : motion.startDist < d) (hend : d < motion.endDist)
    (h : Follows sqrt c maxPointsInPath motion data d since left speed) :
    motion.startSpeed = motion.endSpeed := by
  obtain ⟨r, hr, hsq, hroot⟩ := hsqrt _ (radicand_nonneg hmoves.way hstart.le hend.le)
  obtain ⟨hstartV, hdeltaT⟩ := kinematics_under_way hmoves.way c hstart hroot
  obtain rfl : speed = r := by
    have hspeed := h.actualStartV
    rw [hd, hstartV] at hspeed
    exact (Dbl.fin.inj hspeed).symm
  have hrest := end_speed_sq hmoves.way
  by_cases hzero : (courseOf motion).accel = 0
  · rw [hzero, mul_zero, zero_mul, add_zero] at hrest
    exact ((mul_self_inj hmoves.end_speed hmoves.start_speed).mp hrest).symm
  · -- in the middle the speed is right, but the time is the one of the first half
    have hleft := h.deltaT
    rw [hd, hdeltaT, durationOf, if_neg hzero] at hleft
    have hgain := (div_eq_iff hzero).mp (Dbl.fin.inj hleft)
    have hthere := congrArg Course.speed h.there
    have hhere := congrArg Course.speed h.here
    unfold Course.after at hthere hhere
    dsimp only at hthere hhere
    have hmean : 2 * speed = motion.startSpeed + motion.endSpeed := by
      linear_combination hthere - hhere + hgain
    have hsquare : (motion.startSpeed - motion.endSpeed) *
        (motion.startSpeed - motion.endSpeed) = 0 := by
      linear_combination -2 * (hsq + h.speed_sq - hrest) +
        (2 * speed + motion.startSpeed + motion.endSpeed) * hmean
    exact sub_eq_zero.mp (mul_self_eq_zero.mp hsquare)

/-- At a steady speed the loop follows the motion from anywhere. -/
theorem follows_of_steady {sqrt : Dbl K → Dbl K} (hsqrt : ExactRoots sqrt)
    (c : TrajectoryConverter K) (maxPointsInPath : ℤ) {motion : Motion K} (hmoves : Moves motion)
    (hsteady : motion.startSpeed = motion.endSpeed) {data : LongitudinalSimulationData K} {d : K}
    (hd : data.downtrack = Dbl.fin d) (hstart : motion.startDist ≤ d) (hend : d < motion.endDist) :
    ∃ since left speed, Follows sqrt c maxPointsInPath motion data d since left speed := by
  have hzero := accel_of_steady hsteady
  have hne := speed_of_steady hmoves hsteady
  obtain ⟨hstartV, hdeltaT⟩ := kinematics_steady hsqrt c hmoves hsteady hstart hend
  rw [← hd] at hstartV hdeltaT
  have hhere : (courseOf motion).after ((d - motion.startDist) / motion.startSpeed) =
      ⟨d, motion.startSpeed, (courseOf motion).accel⟩ := by
    unfold Course.after
    rw [hzero, zero_mul, zero_mul, zero_div, add_zero, add_zero]
    unfold courseOf between
    dsimp only
    rw [mul_div_cancel₀ _ hne, add_sub_cancel]
  obtain ⟨left, hfollows⟩ := follows_of_speed hmoves hd hend
    (div_nonneg (sub_nonneg.mpr hstart) hmoves.start_speed) hmoves.start_speed hmoves.moves
    hhere hstartV (by rw [hdeltaT, durationOf, if_pos hzero, Dbl.fin_div _ hne])
  exact ⟨_, left, _, hfollows⟩

/-- The loop goes on with the motion of a maneuver just at its start, or at a steady speed. -/
theorem motions_are_followed_exactly (sqrt : Dbl K → Dbl K) (c : TrajectoryConverter K)
    (maxPointsInPath : ℤ) (motion : Motion K) (data : LongitudinalSimulationData K) (d : K)
    (hsqrt : ExactRoots sqrt) (hstep : 0 < c.timeStep) (hmoves : Moves motion)
    (hd : data.downtrack = Dbl.fin d) (hstart : motion.startDist ≤ d) (hend : d < motion.endDist) :
    FollowsMotion sqrt c maxPointsInPath motion data d ↔
      d = motion.startDist ∨ motion.startSpeed = motion.endSpeed := by
  constructor
  · rintro ⟨⟨since, left, speed, h⟩, -⟩
    rcases hstart.eq_or_lt with heq | hlt
    · exact Or.inl heq.symm
    · exact Or.inr (steady_of_follows hsqrt hmoves hd hlt hend h)
  · rintro (rfl | hsteady)
    · obtain ⟨hstartV, hdeltaT⟩ := kinematics_at_start hmoves.way sqrt c
      rw [← hd] at hstartV hdeltaT
      obtain ⟨left, hfollows⟩ := follows_of_speed hmoves hd hend le_rfl hmoves.start_speed
        hmoves.moves (Course.after_zero _) hstartV hdeltaT
      exact ⟨⟨0, left, _, hfollows⟩, tail_at_start hstep maxPointsInPath hmoves hd⟩
    · exact ⟨follows_of_steady hsqrt c maxPointsInPath hmoves hsteady hd hstart hend,
        tail_of_steady hsqrt maxPointsInPath hmoves hsteady hd hstart hend⟩

end laws

/-! ## A speed up -/

noncomputable def realSqrt : Dbl ℝ → Dbl ℝ
  | .fin x => if x < 0 then .nan else .fin (Real.sqrt x)
  | .inf false => .inf false
  | _ => .nan

theorem realSqrt_exact : ExactRoots realSqrt := by
  intro x hx
  refine ⟨Real.sqrt x, Real.sqrt_nonneg x, Real.mul_self_sqrt hx, ?_⟩
  exact if_neg (not_lt.mpr hx)

/-- One segment of 200 meters. -/
def longRoad : TrajectoryConverter ℝ where
  maxPointsInPath := 10
  timeStep := 1
  route := ⟨[⟨200, ⟨0, 2, 4⟩, ⟨1, 2, 4⟩⟩]⟩

/-- From a stop to 10 meters a second, over 100 meters. -/
def speedUp : Motion ℝ := ⟨0, (100 : ℕ), 0, (10 : ℕ)⟩

theorem speedUp_moves : Moves speedUp :=
  ⟨by norm_num [speedUp], by norm_num [speedUp], by norm_num [speedUp], by norm_num [speedUp]⟩

/-- At 64 meters of it. -/
def underWay : LongitudinalSimulationData ℝ := ⟨0, Dbl.fin 64, Dbl.fin 64, 0⟩

theorem a_speed_up_is_followed_exactly :
    FollowsMotion realSqrt longRoad 10 speedUp underWay 64 ↔
      (64 : ℝ) = speedUp.startDist ∨ speedUp.startSpeed = speedUp.endSpeed :=
  motions_are_followed_exactly realSqrt longRoad 10 speedUp underWay 64 realSqrt_exact
    one_pos speedUp_moves rfl (by norm_num [speedUp]) (by norm_num [speedUp])

/-- At 64 meters the speed is 8 meters a second, and the code takes 6, which it is at 36. -/
theorem a_speed_up_is_taken_up_too_slowly :
    ¬ ∀ (motion : Motion ℝ) (data : LongitudinalSimulationData ℝ) (d : ℝ), Moves motion →
      data.downtrack = Dbl.fin d → motion.startDist ≤ d → d < motion.endDist →
        FollowsMotion realSqrt longRoad 10 motion data d := by
  intro hall
  obtain ⟨⟨since, left, speed, h⟩, -⟩ := hall speedUp underWay 64 speedUp_moves rfl
    (by norm_num [speedUp]) (by norm_num [speedUp])
  have haccel : (courseOf speedUp).accel = 1 / 2 := by norm_num [courseOf, between, speedUp]
  have hroot : realSqrt (Dbl.fin (speedUp.startSpeed * speedUp.startSpeed +
      2 * (courseOf speedUp).accel * (speedUp.endDist - 64))) = Dbl.fin 6 := by
    have hsix : speedUp.startSpeed * speedUp.startSpeed +
        2 * (courseOf speedUp).accel * (speedUp.endDist - 64) = 6 * 6 := by
      rw [haccel]
      norm_num [speedUp]
    rw [hsix]
    show (if (6 * 6 : ℝ) < 0 then Dbl.nan else Dbl.fin (Real.sqrt (6 * 6))) = Dbl.fin 6
    rw [if_neg (by norm_num), Real.sqrt_mul_self (by norm_num)]
  have hspeed : speed = 6 := by
    have hcode := (kinematics_under_way speedUp_moves.way longRoad (d := 64)
      (by norm_num [speedUp]) hroot).1
    exact Dbl.fin.inj (h.actualStartV.symm.trans hcode)
  have hsq := h.speed_sq
  rw [hspeed, haccel] at hsq
  norm_num [speedUp] at hsq

end carma.trajectory_converter
