-- The law of converted paths: the points are one time step apart from each other
-- as long as no maneuver adds points after one that added none, and the complex
-- maneuver adds none to a path that has some.
import Mathlib.Algebra.Order.Ring.Rat
import Mathlib.Data.Rat.Sqrt
import Mathlib.Algebra.Field.Rat
import Carma.Lib.Ticks
import Carma.TrajectoryConverter

open lib.exact_double
open lib.ticks
open carma.maneuvers
open carma.route
open carma.trajectory

namespace carma.trajectory_converter

variable {K : Type} [LinearOrder K] [Field K]

/-! ## One motion -/

/-- The times of the points of a path. -/
def stamps (path : List (PathPoint K)) : List K := path.map (·.stamp)

/-- The first turn of the loop adds a point. -/
def Starts (c : TrajectoryConverter K) (endTime : Dbl K) (s : Simulation K) : Prop :=
  Dbl.le ↑s.currentSimTime endTime = true ∧
    (s.nextSegment c.route).segmentIdx < c.route.segments.length

instance (c : TrajectoryConverter K) (endTime : Dbl K) (s : Simulation K) :
    Decidable (Starts c endTime s) := by
  unfold Starts
  infer_instance

/-- A motion adds points: the path has room, the motion ends no sooner than now, and
the route goes on. -/
def addsPoints (sqrt : Dbl K → Dbl K) (c : TrajectoryConverter K) (maxPointsInPath : ℤ)
    (motion : Motion K) (size : ℕ) (data : LongitudinalSimulationData K) : Bool :=
  match c.route.getSegment data.segmentIdx with
  | none => false
  | some seg =>
    let k := kinematics sqrt c.timeStep motion data.downtrack
    decide (0 < room c maxPointsInPath size ∧ Starts c (↑data.simTime + k.deltaT) (startOf data k seg))

@[simp] theorem nextSegment_time (route : Route K) (s : Simulation K) :
    (s.nextSegment route).currentSimTime = s.currentSimTime := by
  unfold Simulation.nextSegment
  split <;> rfl

/-- The loop adds points one step apart from the start time on, and its time is one
step after the last of them. -/
theorem simulate_times (c : TrajectoryConverter K) (k : Kinematics K) (endTime : Dbl K) (n : ℕ)
    (s : Simulation K) :
    stamps (simulate c k endTime n s).1 =
        times c.timeStep s.currentSimTime (simulate c k endTime n s).1.length ∧
      (simulate c k endTime n s).2.currentSimTime =
        s.currentSimTime + (simulate c k endTime n s).1.length * c.timeStep ∧
      ((simulate c k endTime n s).1 ≠ [] ↔ 0 < n ∧ Starts c endTime s) := by
  induction n generalizing s with
  | zero => simp [simulate, stamps, times]
  | succ n ih =>
    unfold simulate Starts
    by_cases htime : Dbl.le ↑s.currentSimTime endTime
    · rw [if_pos htime]
      dsimp only
      by_cases hroute : (s.nextSegment c.route).segmentIdx ≥ c.route.segments.length
      · rw [if_pos hroute]
        simp [stamps, times, htime, hroute]
      · rw [if_neg hroute]
        obtain ⟨hstamps, htotal, -⟩ := ih ((s.nextSegment c.route).advance c.timeStep k)
        have hnext : ((s.nextSegment c.route).advance c.timeStep k).currentSimTime =
            s.currentSimTime + c.timeStep := by
          unfold Simulation.advance
          rw [nextSegment_time]
        rw [hnext] at hstamps htotal
        refine ⟨?_, ?_, ?_⟩
        · rw [List.length_cons, times, ← hstamps]
          simp [stamps, Simulation.point]
        · rw [htotal, List.length_cons, Nat.cast_succ, add_mul, one_mul, add_assoc,
            add_comm c.timeStep]
        · exact iff_of_true (List.cons_ne_nil _ _) ⟨Nat.succ_pos n, htime, not_le.mp hroute⟩
    · rw [if_neg htime]
      simp [stamps, times, htime]

/-- What a motion does to the path: it adds points from the simulation time on, and
that time becomes the one of the last point, or goes back one step if there is none. -/
theorem addKinematicMotion_spec {sqrt : Dbl K → Dbl K} {c : TrajectoryConverter K}
    {maxPointsInPath : ℤ} {motion : Motion K} {path path' : List (PathPoint K)}
    {data data' : LongitudinalSimulationData K}
    (h : addKinematicMotionToPath sqrt c maxPointsInPath motion path data = some (path', data')) :
    ∃ points, path' = path ++ points ∧
      stamps points = times c.timeStep data.simTime points.length ∧
      data'.simTime = data.simTime + points.length * c.timeStep - c.timeStep ∧
      (points ≠ [] ↔ addsPoints sqrt c maxPointsInPath motion path.length data = true) := by
  unfold addKinematicMotionToPath at h
  unfold addsPoints
  cases hseg : c.route.getSegment data.segmentIdx with
  | none =>
    rw [hseg] at h
    cases h
  | some seg =>
    rw [hseg] at h
    obtain ⟨rfl, rfl⟩ := Prod.mk.inj (Option.some.inj h)
    obtain ⟨hstamps, htime, hstarts⟩ := simulate_times c
      (kinematics sqrt c.timeStep motion data.downtrack)
      (↑data.simTime + (kinematics sqrt c.timeStep motion data.downtrack).deltaT)
      (room c maxPointsInPath path.length)
      (startOf data (kinematics sqrt c.timeStep motion data.downtrack) seg)
    refine ⟨_, rfl, hstamps, ?_, ?_⟩
    · dsimp only
      rw [htime]
      rfl
    · rw [hstarts, decide_eq_true_eq]

/-! ## Turns of the loop -/

/-- One turn of the loop. -/
def Simulation.turn (c : TrajectoryConverter K) (k : Kinematics K) (s : Simulation K) :
    Simulation K :=
  (s.nextSegment c.route).advance c.timeStep k

@[simp] theorem nextSegment_downtrack (route : Route K) (s : Simulation K) :
    (s.nextSegment route).currentDowntrack = s.currentDowntrack := by
  unfold Simulation.nextSegment
  split <;> rfl

@[simp] theorem nextSegment_speed (route : Route K) (s : Simulation K) :
    (s.nextSegment route).actualStartV = s.actualStartV := by
  unfold Simulation.nextSegment
  split <;> rfl

@[simp] theorem turn_time (c : TrajectoryConverter K) (k : Kinematics K) (s : Simulation K) :
    (s.turn c k).currentSimTime = s.currentSimTime + c.timeStep := by
  simp [Simulation.turn, Simulation.advance]

theorem simulate_starts {c : TrajectoryConverter K} {k : Kinematics K} {endTime : Dbl K} {n : ℕ}
    {s : Simulation K} (h : Starts c endTime s) :
    simulate c k endTime (n + 1) s =
      ((s.nextSegment c.route).point :: (simulate c k endTime n (s.turn c k)).1,
        (simulate c k endTime n (s.turn c k)).2) := by
  conv_lhs => unfold simulate
  rw [if_pos h.1]
  dsimp only
  rw [if_neg (not_le.mpr h.2)]
  rfl

theorem starts_of_points {c : TrajectoryConverter K} {k : Kinematics K} {endTime : Dbl K} {n : ℕ}
    {s : Simulation K} (h : 0 < (simulate c k endTime n s).1.length) :
    Starts c endTime s ∧ ∃ n', n = n' + 1 := by
  obtain ⟨hpos, hstarts⟩ :=
    (simulate_times c k endTime n s).2.2.mp (List.length_pos_iff.mp h)
  exact ⟨hstarts, n - 1, (Nat.succ_pred_eq_of_pos hpos).symm⟩

/-- After some of its turns the loop adds the rest of its points. -/
theorem simulate_turns {c : TrajectoryConverter K} {k : Kinematics K} {endTime : Dbl K} {j n : ℕ}
    {s : Simulation K} (h : j < (simulate c k endTime n s).1.length) :
    (simulate c k endTime n s).1 = (simulate c k endTime n s).1.take j ++
        (simulate c k endTime (n - j) ((Simulation.turn c k)^[j] s)).1 ∧
      (simulate c k endTime n s).2 =
        (simulate c k endTime (n - j) ((Simulation.turn c k)^[j] s)).2 ∧
      0 < (simulate c k endTime (n - j) ((Simulation.turn c k)^[j] s)).1.length := by
  induction j generalizing n s with
  | zero => exact ⟨rfl, rfl, h⟩
  | succ j ih =>
    obtain ⟨hstarts, n, rfl⟩ := starts_of_points (Nat.zero_lt_of_lt h)
    rw [simulate_starts hstarts] at h ⊢
    obtain ⟨hrest, hlast, hpos⟩ := ih (Nat.lt_of_succ_lt_succ h)
    rw [Nat.add_sub_add_right, Function.iterate_succ_apply]
    refine ⟨?_, hlast, hpos⟩
    rw [List.take_succ_cons, List.cons_append, ← hrest]

/-- The segment of the loop is the one that its index tells. -/
def Simulation.AtSegment (route : Route K) (s : Simulation K) : Prop :=
  route.getSegment s.segmentIdx = some s.currentSeg

omit [LinearOrder K] [Field K] in
theorem getSegment_before {route : Route K} {i : ℤ} {seg : RouteSegment K}
    (h : route.getSegment i = some seg) : 0 ≤ i ∧ i < route.segments.length := by
  unfold Route.getSegment at h
  split at h
  · cases h
  · obtain ⟨hlt, -⟩ := List.getElem?_eq_some_iff.mp h
    omega

theorem nextSegment_at {route : Route K} {s : Simulation K} (hat : s.AtSegment route)
    (hroute : (s.nextSegment route).segmentIdx < route.segments.length) :
    (s.nextSegment route).AtSegment route := by
  unfold Simulation.AtSegment at hat ⊢
  unfold Simulation.nextSegment at hroute ⊢
  split at hroute
  · rename_i hpast
    rw [if_pos hpast]
    dsimp only at hroute ⊢
    obtain ⟨hzero, -⟩ := getSegment_before hat
    unfold Route.getSegment
    rw [if_neg (by omega), List.getElem?_eq_getElem (by omega)]
    rfl
  · rename_i hpast
    rw [if_neg hpast]
    exact hat

theorem turn_at {c : TrajectoryConverter K} {k : Kinematics K} {s : Simulation K}
    (hat : s.AtSegment c.route)
    (hroute : (s.nextSegment c.route).segmentIdx < c.route.segments.length) :
    (s.turn c k).AtSegment c.route :=
  nextSegment_at hat hroute

theorem turns_at {c : TrajectoryConverter K} {k : Kinematics K} {endTime : Dbl K} {j n : ℕ}
    {s : Simulation K} (hat : s.AtSegment c.route)
    (h : j < (simulate c k endTime n s).1.length) :
    ((Simulation.turn c k)^[j] s).AtSegment c.route := by
  induction j generalizing n s with
  | zero => exact hat
  | succ j ih =>
    obtain ⟨hstarts, n, rfl⟩ := starts_of_points (Nat.zero_lt_of_lt h)
    rw [simulate_starts hstarts] at h
    rw [Function.iterate_succ_apply]
    exact ih (turn_at hat hstarts.2) (Nat.lt_of_succ_lt_succ h)

/-! ## One maneuver -/

/-- What is added of the points of a maneuver: the first is left out if its time is
that of the end of the path. -/
def fresh (last : Option (PathPoint K)) (points : List (PathPoint K)) : List (PathPoint K) :=
  match last, points with
  | some old, first :: rest => if old.stamp = first.stamp then rest else first :: rest
  | _, points => points

omit [Field K] in
theorem dropRepeated_eq (path points : List (PathPoint K)) :
    dropRepeated path.getLast? path.length (path ++ points) =
      path ++ fresh path.getLast? points := by
  have hget : (path ++ points)[path.length]? = points[0]? := by
    rw [List.getElem?_append_right (le_refl _), Nat.sub_self]
  unfold dropRepeated fresh
  rw [hget]
  cases path.getLast? with
  | none => rfl
  | some old =>
    cases points with
    | nil => rfl
    | cons first rest =>
      simp only [List.getElem?_cons_zero]
      split
      · rw [List.eraseIdx_append_of_length_le (le_refl _), Nat.sub_self, List.eraseIdx_cons_zero]
      · rfl

/-- The loop knows the size and the end of the path. -/
structure Synced (st : Progress K) : Prop where
  size : st.oldPathSize = st.path.length
  end_point : st.oldPathEndPoint = st.path.getLast?

theorem addLongitudinal_skips {sqrt : Dbl K → Dbl K} {c : TrajectoryConverter K}
    {maxPointsInPath : ℤ} {st st' : Progress K} {motion : Motion K}
    (htakes : ¬ st.takes c motion = true)
    (h : addLongitudinal sqrt c maxPointsInPath st motion = some st') : st' = st := by
  unfold addLongitudinal at h
  rw [if_neg htakes] at h
  exact (Option.some.inj h).symm

/-- All that a maneuver that is taken does. -/
theorem addLongitudinal_spec {sqrt : Dbl K → Dbl K} {c : TrajectoryConverter K}
    {maxPointsInPath : ℤ} {st st' : Progress K} {motion : Motion K} (hsync : Synced st)
    (htakes : st.takes c motion = true)
    (h : addLongitudinal sqrt c maxPointsInPath st motion = some st') :
    Synced st' ∧ st'.path ≠ [] ∧ ∃ points, st'.path = st.path ++ fresh st.path.getLast? points ∧
      stamps points = times c.timeStep st.longitudinalSimData.simTime points.length ∧
      st'.longitudinalSimData.simTime =
        st.longitudinalSimData.simTime + points.length * c.timeStep - c.timeStep ∧
      (points ≠ [] ↔ addsPoints sqrt c maxPointsInPath motion st.path.length
        st.longitudinalSimData = true) := by
  unfold addLongitudinal at h
  rw [if_pos htakes] at h
  obtain ⟨⟨path, data⟩, hadd, h⟩ := Option.bind_eq_some_iff.mp h
  obtain ⟨endPoint, hend, h⟩ := Option.bind_eq_some_iff.mp h
  obtain rfl := Option.some.inj h
  obtain ⟨points, rfl, hstamps, htime, hiff⟩ := addKinematicMotion_spec hadd
  rw [hsync.size, hsync.end_point, dropRepeated_eq] at hend ⊢
  refine ⟨⟨rfl, hend.symm⟩, ?_, points, rfl, hstamps, htime, hiff⟩
  intro hnil
  rw [show st.path ++ fresh st.path.getLast? points = [] from hnil] at hend
  cases hend

/-- The path is uniform so far, and the simulation time is the one of its end, or
before it after a maneuver that added no point. -/
structure InTime (c : TrajectoryConverter K) (idled : Bool) (st : Progress K) : Prop where
  steady : Steady c.timeStep (stamps st.path)
  time : ∀ e ∈ st.path.getLast?, if idled then st.longitudinalSimData.simTime < e.stamp
    else st.longitudinalSimData.simTime = e.stamp
  idled_path : idled = true → st.path ≠ []

omit [LinearOrder K] [Field K] in
theorem stamps_append (path points : List (PathPoint K)) :
    stamps (path ++ points) = stamps path ++ stamps points := List.map_append

omit [LinearOrder K] [Field K] in
theorem stamps_getLast? (path : List (PathPoint K)) :
    (stamps path).getLast? = path.getLast?.map (·.stamp) := List.getLast?_map

/-- Points that start at the simulation time go on with a path that is in time. -/
theorem inTime_adds {c : TrajectoryConverter K} {st st' : Progress K} (h : InTime c false st)
    {points : List (PathPoint K)} (hne : points ≠ [])
    (hstamps : stamps points = times c.timeStep st.longitudinalSimData.simTime points.length)
    (hpath : st'.path = st.path ++ fresh st.path.getLast? points)
    (htime : st'.longitudinalSimData.simTime =
      st.longitudinalSimData.simTime + points.length * c.timeStep - c.timeStep) :
    InTime c false st' := by
  obtain ⟨p, rest, rfl⟩ := List.exists_cons_of_ne_nil hne
  obtain ⟨hp, hrest⟩ := List.cons.inj hstamps
  have hlast : (stamps (p :: rest)).getLast? = some st'.longitudinalSimData.simTime := by
    rw [hstamps, htime, List.length_cons, times_getLast?, Nat.cast_succ, add_mul, one_mul,
      ← add_assoc, add_sub_cancel_right]
  have hsteady : Steady c.timeStep (stamps (p :: rest)) := by
    rw [hstamps]
    exact times_steady _ _ _
  suffices hgoal : Steady c.timeStep (stamps st'.path) ∧
      (stamps st'.path).getLast? = some st'.longitudinalSimData.simTime by
    refine ⟨hgoal.1, ?_, fun hc => absurd hc Bool.false_ne_true⟩
    intro e he
    have hend := hgoal.2
    rw [stamps_getLast?, Option.mem_def.mp he] at hend
    exact (Option.some.inj hend).symm
  rw [hpath]
  cases hold : st.path.getLast? with
  | none =>
    rw [List.getLast?_eq_none_iff.mp hold]
    exact ⟨hsteady, hlast⟩
  | some e =>
    -- the first new point has the time of the end of the path
    have he : st.longitudinalSimData.simTime = e.stamp := h.time e hold
    have hsame : e.stamp = p.stamp := he.symm.trans hp.symm
    have hstampLast : (stamps st.path).getLast? = some p.stamp := by
      rw [stamps_getLast?, hold, ← hsame]
      rfl
    unfold fresh
    simp only [if_pos hsame]
    rw [stamps_append]
    refine ⟨steady_append.mpr ⟨h.steady, (List.isChain_cons.mp hsteady).2, ?_⟩, ?_⟩
    · intro s hs t ht
      obtain rfl := Option.some.inj (hstampLast.symm.trans hs)
      exact (List.isChain_cons.mp hsteady).1 t ht
    · rw [List.getLast?_append, hstampLast, ← hlast,
        show stamps (p :: rest) = p.stamp :: stamps rest from rfl, List.getLast?_cons]
      cases (stamps rest).getLast? <;> rfl

/-! ## All longitudinal maneuvers -/

/-- `addsPoints` of a maneuver in a state of the loop. -/
def Progress.adds (sqrt : Dbl K → Dbl K) (c : TrajectoryConverter K) (maxPointsInPath : ℤ)
    (st : Progress K) (motion : Motion K) : Bool :=
  addsPoints sqrt c maxPointsInPath motion st.path.length st.longitudinalSimData

/-- No maneuver that is taken adds points after one that added none. `idled` says
that one did before. -/
def NoneStartsLate (sqrt : Dbl K → Dbl K) (c : TrajectoryConverter K) (maxPointsInPath : ℤ) :
    Bool → Progress K → List (Motion K) → Prop
  | _, _, [] => True
  | idled, st, motion :: rest =>
    if st.takes c motion then
      (st.adds sqrt c maxPointsInPath motion = true → idled = false) ∧
        ∀ st' ∈ addLongitudinal sqrt c maxPointsInPath st motion,
          NoneStartsLate sqrt c maxPointsInPath (idled || !st.adds sqrt c maxPointsInPath motion)
            st' rest
    else NoneStartsLate sqrt c maxPointsInPath idled st rest

theorem addLongitudinal_prefix {sqrt : Dbl K → Dbl K} {c : TrajectoryConverter K}
    {maxPointsInPath : ℤ} {st st' : Progress K} {motion : Motion K} (hsync : Synced st)
    (h : addLongitudinal sqrt c maxPointsInPath st motion = some st') :
    Synced st' ∧ st.path <+: st'.path := by
  by_cases htakes : st.takes c motion = true
  · obtain ⟨hsync', -, points, hpath, -⟩ := addLongitudinal_spec hsync htakes h
    exact ⟨hsync', hpath ▸ List.prefix_append _ _⟩
  · rw [addLongitudinal_skips htakes h]
    exact ⟨hsync, List.prefix_refl _⟩

theorem loop_extends {sqrt : Dbl K → Dbl K} {c : TrajectoryConverter K} {maxPointsInPath : ℤ}
    {motions : List (Motion K)} {st st' : Progress K} (hsync : Synced st)
    (h : motions.foldlM (addLongitudinal sqrt c maxPointsInPath) st = some st') :
    st.path <+: st'.path := by
  induction motions generalizing st with
  | nil =>
    obtain rfl := Option.some.inj h
    exact List.prefix_refl _
  | cons motion rest ih =>
    obtain ⟨st1, hstep, hrest⟩ := Option.bind_eq_some_iff.mp h
    obtain ⟨hsync1, hpre⟩ := addLongitudinal_prefix hsync hstep
    exact hpre.trans (ih hsync1 hrest)

section laws

variable [IsStrictOrderedRing K]

/-- Points that start no later than the end of the path leave a gap in it. -/
theorem late_points {c : TrajectoryConverter K} (hstep : 0 < c.timeStep)
    {path points : List (PathPoint K)} {t : K}
    (hstamps : stamps points = times c.timeStep t points.length) (hne : points ≠ [])
    {e : PathPoint K} (he : e ∈ path.getLast?) (hlate : t ≤ e.stamp) :
    ¬ Steady c.timeStep (stamps (path ++ points)) := by
  intro hsteady
  obtain ⟨p, rest, rfl⟩ := List.exists_cons_of_ne_nil hne
  have hp : p.stamp = t := (List.cons.inj hstamps).1
  rw [stamps_append, steady_append] at hsteady
  have hgap := hsteady.2.2 e.stamp (by rw [stamps_getLast?, Option.mem_def.mp he]; rfl) p.stamp rfl
  rw [hp] at hgap
  exact absurd (hgap ▸ sub_nonpos.mpr hlate) (not_le.mpr hstep)

theorem inTime_idles {c : TrajectoryConverter K} (hstep : 0 < c.timeStep) {idled : Bool}
    {st st' : Progress K} (h : InTime c idled st) (hne : st'.path ≠ [])
    (hpath : st'.path = st.path)
    (htime : st'.longitudinalSimData.simTime = st.longitudinalSimData.simTime - c.timeStep) :
    InTime c true st' := by
  refine ⟨hpath ▸ h.steady, ?_, fun _ => hne⟩
  intro e he
  rw [hpath] at he
  have hback : st'.longitudinalSimData.simTime < st.longitudinalSimData.simTime := by
    rw [htime]
    exact sub_lt_self _ hstep
  have hold := h.time e he
  rw [if_pos rfl]
  split at hold
  · exact hback.trans hold
  · exact hold ▸ hback

/-- Points that come after a maneuver that added none start before the end of the
path. -/
theorem idled_adds_late {sqrt : Dbl K → Dbl K} {c : TrajectoryConverter K}
    (hstep : 0 < c.timeStep) {maxPointsInPath : ℤ} {rest : List (Motion K)}
    {st st1 st' : Progress K} {points : List (PathPoint K)} (htime : InTime c true st)
    (hsync1 : Synced st1) (hpoints : points ≠ [])
    (hstamps : stamps points = times c.timeStep st.longitudinalSimData.simTime points.length)
    (hpath : st1.path = st.path ++ fresh st.path.getLast? points)
    (hrest : rest.foldlM (addLongitudinal sqrt c maxPointsInPath) st1 = some st') :
    ¬ Steady c.timeStep (stamps st'.path) := by
  intro hsteady
  obtain ⟨e, he⟩ : ∃ e, st.path.getLast? = some e :=
    ⟨_, List.getLast?_eq_some_getLast (htime.idled_path rfl)⟩
  have hbefore : st.longitudinalSimData.simTime < e.stamp := htime.time e he
  -- the first of them does not repeat the end of the path
  have hfresh : fresh st.path.getLast? points = points := by
    obtain ⟨p, ps, rfl⟩ := List.exists_cons_of_ne_nil hpoints
    have hp : p.stamp = st.longitudinalSimData.simTime := (List.cons.inj hstamps).1
    unfold fresh
    rw [he]
    exact if_neg (fun hc => hbefore.ne (hp.symm.trans hc.symm))
  have hpre := loop_extends hsync1 hrest
  rw [hpath, hfresh] at hpre
  exact late_points hstep hstamps hpoints he hbefore.le (steady_left (hpre.map _) hsteady)

/-- After the loop the path is uniform just when no maneuver started late, and then
the simulation time is not after its end. -/
theorem loop_steady {sqrt : Dbl K → Dbl K} {c : TrajectoryConverter K} (hstep : 0 < c.timeStep)
    {maxPointsInPath : ℤ} {motions : List (Motion K)} {idled : Bool} {st st' : Progress K}
    (hsync : Synced st) (htime : InTime c idled st)
    (h : motions.foldlM (addLongitudinal sqrt c maxPointsInPath) st = some st') :
    (Steady c.timeStep (stamps st'.path) ↔ NoneStartsLate sqrt c maxPointsInPath idled st motions) ∧
      (NoneStartsLate sqrt c maxPointsInPath idled st motions → ∃ idled', InTime c idled' st') := by
  induction motions generalizing st idled with
  | nil =>
    obtain rfl := Option.some.inj h
    exact ⟨iff_of_true htime.steady trivial, fun _ => ⟨idled, htime⟩⟩
  | cons motion rest ih =>
    obtain ⟨st1, hone, hrest⟩ := Option.bind_eq_some_iff.mp h
    obtain ⟨hsync1, -⟩ := addLongitudinal_prefix hsync hone
    unfold NoneStartsLate
    by_cases htakes : st.takes c motion = true
    · obtain ⟨-, hne, points, hpath, hstamps, hsim, hiff⟩ := addLongitudinal_spec hsync htakes hone
      simp only [if_pos htakes, hone, Option.mem_def, Option.some.injEq, forall_eq']
      cases hadds : st.adds sqrt c maxPointsInPath motion with
      | false =>
        -- the simulation time goes back by one step
        obtain rfl : points = [] := by
          by_contra hpoints
          exact absurd ((hiff.mp hpoints).symm.trans hadds) Bool.noConfusion
        have hsame : st1.path = st.path := by
          rw [hpath]
          cases st.path.getLast? <;> exact List.append_nil _
        have hidle := inTime_idles hstep htime hne hsame (by simpa using hsim)
        simp only [Bool.false_eq_true, false_implies, true_and, Bool.not_false, Bool.or_true]
        exact ih hsync1 hidle hrest
      | true =>
        have hpoints := hiff.mpr hadds
        cases idled with
        | false =>
          simp only [true_implies, true_and, Bool.not_true, Bool.or_false]
          exact ih hsync1 (inTime_adds htime hpoints hstamps hpath hsim) hrest
        | true =>
          have hlost := idled_adds_late hstep htime hsync1 hpoints hstamps hpath hrest
          simp only [true_implies, Bool.true_eq_false, false_and]
          exact ⟨iff_of_false hlost id, fun hc => absurd hc id⟩
    · rw [addLongitudinal_skips htakes hone] at hrest
      simp only [if_neg htakes]
      exact ih hsync htime hrest

/-! ## Lateral maneuvers and the complex one -/

omit [IsStrictOrderedRing K] in
/-- A lateral maneuver changes nothing but crosstracks. -/
theorem addLateral_keeps {β : Type} {f : PathPoint K → β}
    (hf : ∀ (p : PathPoint K) (y : Dbl K), f { p with crosstrack := y } = f p)
    {c : TrajectoryConverter K} {st st' : Shift K} {move : LaneMove K}
    (h : addLateral c st move = some st') :
    (st'.done ++ st'.rest).map f = (st.done ++ st.rest).map f := by
  have hshift : ∀ (endDist : K) (crosstrackOf : PathPoint K → Dbl K),
      ((shiftUpTo endDist crosstrackOf st).done ++ (shiftUpTo endDist crosstrackOf st).rest).map f =
        (st.done ++ st.rest).map f := by
    intro endDist crosstrackOf
    have hsame : (f ∘ fun p : PathPoint K => { p with crosstrack := crosstrackOf p }) = f :=
      funext fun p => hf p _
    unfold shiftUpTo
    dsimp only
    rw [List.append_assoc, List.map_append, List.map_append, List.map_map, hsame]
    conv_rhs => rw [← List.takeWhile_append_dropWhile (p := fun p => Dbl.lt p.downtrack ↑endDist)
      (l := st.rest), List.map_append, List.map_append]
  unfold addLateral at h
  split at h
  · rw [Option.some.inj h]
  · split at h
    · split at h
      · rw [← Option.some.inj h]
        exact hshift _ _
      · obtain ⟨seg, _, h⟩ := Option.bind_eq_some_iff.mp h
        rw [← Option.some.inj h]
        exact hshift _ _
    · rw [Option.some.inj h]

omit [IsStrictOrderedRing K] in
theorem laterals_keep {β : Type} {f : PathPoint K → β}
    (hf : ∀ (p : PathPoint K) (y : Dbl K), f { p with crosstrack := y } = f p)
    {c : TrajectoryConverter K} {moves : List (LaneMove K)} {st st' : Shift K}
    (h : moves.foldlM (addLateral c) st = some st') :
    (st'.done ++ st'.rest).map f = (st.done ++ st.rest).map f := by
  induction moves generalizing st with
  | nil => rw [Option.some.inj h]
  | cons move rest ih =>
    obtain ⟨st1, hone, hrest⟩ := Option.bind_eq_some_iff.mp h
    rw [ih hrest, addLateral_keeps hf hone]

omit [IsStrictOrderedRing K] in
theorem laterals_stamps {c : TrajectoryConverter K} {moves : List (LaneMove K)} {st st' : Shift K}
    (h : moves.foldlM (addLateral c) st = some st') :
    stamps (st'.done ++ st'.rest) = stamps (st.done ++ st.rest) :=
  laterals_keep (fun _ _ => rfl) h

/-- The complex maneuver adds no points to a path of this size unless it is empty. -/
def ComplexClear (sqrt : Dbl K → Dbl K) (c : TrajectoryConverter K) (maxPointsInPath : ℤ)
    (complexManeuver : Option (IComplexManeuver K)) (st : Progress K) : Prop :=
  ∀ m ∈ complexManeuver, st.longitudinalSimData.segmentIdx < c.route.segments.length →
    st.adds sqrt c maxPointsInPath (averageMotion m) = true → st.path = []

omit [IsStrictOrderedRing K] in
theorem addComplex_prefix {sqrt : Dbl K → Dbl K} {c : TrajectoryConverter K} {maxPointsInPath : ℤ}
    {complexManeuver : Option (IComplexManeuver K)} {path path' : List (PathPoint K)}
    {data : LongitudinalSimulationData K}
    (h : addComplex sqrt c maxPointsInPath complexManeuver path data = some path') :
    path <+: path' := by
  unfold addComplex at h
  split at h
  · exact Option.some.inj h ▸ List.prefix_refl path
  · split at h
    · obtain ⟨⟨path1, data1⟩, hadd, rfl⟩ := Option.map_eq_some_iff.mp h
      obtain ⟨points, rfl, -⟩ := addKinematicMotion_spec hadd
      exact List.prefix_append _ _
    · exact Option.some.inj h ▸ List.prefix_refl path

/-- Points that begin at the end of the time keep the path steady just when they are the first. -/
theorem points_steady_iff {c : TrajectoryConverter K} (hstep : 0 < c.timeStep) {st : Progress K}
    {idled : Bool} (htime : InTime c idled st) {path points : List (PathPoint K)}
    (hpath : stamps path = stamps st.path) (hsize : path.length = st.path.length)
    (hstamps : stamps points =
      times c.timeStep st.longitudinalSimData.simTime points.length) :
    Steady c.timeStep (stamps (path ++ points)) ↔ (points ≠ [] → st.path = []) := by
  have hold : Steady c.timeStep (stamps path) := hpath ▸ htime.steady
  by_cases hpoints : points = []
  · rw [hpoints, List.append_nil]
    exact iff_of_true hold (fun hc => absurd rfl hc)
  · rw [imp_iff_right hpoints]
    by_cases hempty : st.path = []
    · refine iff_of_true ?_ hempty
      rw [hempty, List.length_nil, List.length_eq_zero_iff] at hsize
      rw [hsize, List.nil_append, hstamps]
      exact times_steady _ _ _
    · refine iff_of_false ?_ hempty
      obtain ⟨e, he⟩ : ∃ e, st.path.getLast? = some e :=
        ⟨_, List.getLast?_eq_some_getLast hempty⟩
      have hends := congrArg List.getLast? hpath
      rw [stamps_getLast?, stamps_getLast?, he] at hends
      obtain ⟨e1, he1, hsame⟩ := Option.map_eq_some_iff.mp hends
      refine late_points hstep hstamps hpoints he1 ?_
      rw [hsame]
      have hend := htime.time e he
      split at hend
      · exact hend.le
      · exact hend.le

theorem addComplex_steady {sqrt : Dbl K → Dbl K} {c : TrajectoryConverter K}
    (hstep : 0 < c.timeStep) {maxPointsInPath : ℤ} {complexManeuver : Option (IComplexManeuver K)}
    {st : Progress K} {idled : Bool} (htime : InTime c idled st) {path path' : List (PathPoint K)}
    (hpath : stamps path = stamps st.path)
    (h : addComplex sqrt c maxPointsInPath complexManeuver path st.longitudinalSimData =
      some path') :
    Steady c.timeStep (stamps path') ↔
      ComplexClear sqrt c maxPointsInPath complexManeuver st := by
  have hold : Steady c.timeStep (stamps path) := hpath ▸ htime.steady
  have hsize : path.length = st.path.length := by
    have hlen := congrArg List.length hpath
    unfold stamps at hlen
    rwa [List.length_map, List.length_map] at hlen
  unfold addComplex at h
  unfold ComplexClear
  cases complexManeuver with
  | none =>
    rw [← Option.some.inj h]
    exact iff_of_true hold (fun m hm => by cases hm)
  | some m =>
    simp only [Option.mem_def, Option.some.injEq, forall_eq'] at h ⊢
    split at h
    · rename_i hroute
      obtain ⟨⟨path1, data1⟩, hadd, rfl⟩ := Option.map_eq_some_iff.mp h
      obtain ⟨points, rfl, hstamps, -, hiff⟩ := addKinematicMotion_spec hadd
      rw [hsize] at hiff
      rw [imp_iff_right hroute]
      unfold Progress.adds
      rw [← hiff]
      exact points_steady_iff hstep htime hpath hsize hstamps
    · rename_i hroute
      rw [← Option.some.inj h]
      exact iff_of_true hold (fun hc => absurd hc hroute)

/-! ## The law -/

/-- No longitudinal maneuver that is taken adds points after one that added none, and
the complex maneuver adds none to a path that has some. -/
def NoPointsComeLate (sqrt : Dbl K → Dbl K) (c : TrajectoryConverter K) (traj : Trajectory K)
    (start : StartState K) (maxPointsInPath : ℤ) : Prop :=
  ∀ segment ∈ c.route.getSegment start.currentSegmentIdx,
    let st := startProgress start segment.uptrackWaypoint.waypointId
    let motions := expandAllLongitudinal traj.longitudinalManeuvers.toSortedList
    NoneStartsLate sqrt c maxPointsInPath false st motions ∧
      ∀ st' ∈ motions.foldlM (addLongitudinal sqrt c maxPointsInPath) st,
        ComplexClear sqrt c maxPointsInPath traj.complexManeuver st'

/-- A path that is returned is uniformly sampled just when no points come late. -/
theorem a_path_is_uniform_when_no_points_come_late (sqrt : Dbl K → Dbl K)
    (c : TrajectoryConverter K) (traj : Trajectory K) (start : StartState K) (maxPointsInPath : ℤ)
    (hstep : 0 < c.timeStep) (hmax : 0 < maxPointsInPath) {path : List (PathPoint K)}
    (h : convertToPath sqrt c traj start maxPointsInPath = some path) :
    Steady c.timeStep (stamps path) ↔ NoPointsComeLate sqrt c traj start maxPointsInPath := by
  unfold convertToPath at h
  rw [if_neg (not_le.mpr hmax)] at h
  obtain ⟨segment, hsegment, h⟩ := Option.bind_eq_some_iff.mp h
  obtain ⟨longitudinal, hlongitudinal, h⟩ := Option.bind_eq_some_iff.mp h
  obtain ⟨lateral, hlateral, h⟩ := Option.bind_eq_some_iff.mp h
  have hstart : InTime c false (startProgress start segment.uptrackWaypoint.waypointId) :=
    ⟨steady_nil _, fun e he => absurd he (Option.not_mem_none e), fun hc => absurd hc Bool.false_ne_true⟩
  obtain ⟨hiff, htime⟩ := loop_steady hstep ⟨rfl, rfl⟩ hstart hlongitudinal
  have hstamps := laterals_stamps hlateral
  rw [List.nil_append] at hstamps
  unfold NoPointsComeLate
  simp only [hsegment, Option.mem_def, Option.some.injEq, forall_eq', hlongitudinal]
  by_cases hnone : NoneStartsLate sqrt c maxPointsInPath false
      (startProgress start segment.uptrackWaypoint.waypointId)
      (expandAllLongitudinal traj.longitudinalManeuvers.toSortedList)
  · obtain ⟨idled, htime⟩ := htime hnone
    rw [and_iff_right hnone]
    exact addComplex_steady hstep htime hstamps h
  · refine iff_of_false ?_ (fun hc => hnone hc.1)
    intro hsteady
    have hpre := addComplex_prefix h
    refine hnone (hiff.mp ?_)
    rw [← hstamps]
    exact steady_left (hpre.map _) hsteady

end laws

/-! ## A straight road -/

/-- `Math.sqrt` of the numbers that have a rational root. -/
def ratSqrt : Dbl ℚ → Dbl ℚ
  | .fin x => if x < 0 then .nan else .fin (Rat.sqrt x)
  | .inf false => .inf false
  | _ => .nan

/-- One segment of 100 meters, and one point each second. -/
def straightRoad : TrajectoryConverter ℚ where
  maxPointsInPath := 10
  timeStep := 1
  route := ⟨[⟨100, ⟨0, 2, 4⟩, ⟨1, 2, 4⟩⟩]⟩

def roadStart : StartState ℚ := ⟨0, 0, 0, 0, 0⟩

/-- One meter each second up to 2. -/
def slowStart : Trajectory ℚ :=
  ((newTrajectory 0 10).addManeuver
    (.longitudinal (.single .steadySpeed ⟨0, 2, 1, 1⟩))).2

/-- The same, and a complex maneuver after it. -/
def slowStartAndComplex : Trajectory ℚ := (slowStart.setComplexManeuver (some ⟨2, 4, 1, 1⟩)).2

/-- The path of the slow start. -/
def slowPath : List (PathPoint ℚ) :=
  (convertToPath ratSqrt straightRoad slowStart roadStart 10).getD []

/-- Segments of 5 and of 95 meters. -/
def roadOfTwo : TrajectoryConverter ℚ where
  maxPointsInPath := 10
  timeStep := 1
  route := ⟨[⟨5, ⟨0, 2, 4⟩, ⟨1, 2, 4⟩⟩, ⟨95, ⟨1, 2, 4⟩, ⟨2, 2, 4⟩⟩]⟩

/-- From 1 to 3 meters each second up to 4, and on at 3 up to 10. -/
def speedUpAndGoOn : Trajectory ℚ :=
  (((newTrajectory 0 10).addManeuver
    (.longitudinal (.single .speedUp ⟨0, 4, 1, 3⟩))).2.addManeuver
      (.longitudinal (.single .steadySpeed ⟨4, 10, 3, 3⟩))).2

def speedUpPath : List (PathPoint ℚ) :=
  (convertToPath ratSqrt roadOfTwo speedUpAndGoOn roadStart 10).getD []

theorem speedUpPath_is_uniform_as_no_points_come_late :
    stamps speedUpPath = [0, 1, 2, 3, 4] ∧
      (Steady 1 (stamps speedUpPath) ↔
        NoPointsComeLate ratSqrt roadOfTwo speedUpAndGoOn roadStart 10) :=
  ⟨by decide +kernel, a_path_is_uniform_when_no_points_come_late ratSqrt roadOfTwo speedUpAndGoOn
    roadStart 10 (by decide +kernel) (by decide) (by decide +kernel)⟩

/-- The complex maneuver adds a second point for the time of the end of the path. -/
theorem a_complex_maneuver_repeats_a_point :
    ¬ ∀ path, convertToPath ratSqrt straightRoad slowStartAndComplex roadStart 10 = some path →
      Steady 1 (stamps path) := by
  intro hall
  have hsteady := hall ((convertToPath ratSqrt straightRoad slowStartAndComplex roadStart 10).getD [])
    (by decide +kernel)
  exact absurd hsteady (by unfold Steady; decide +kernel)

end carma.trajectory_converter
