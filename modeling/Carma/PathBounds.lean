-- The number of points of a converted path: the loop that adds them runs while the size is no
-- greater than the bound, so a path may get one point more than that.
import Mathlib.Algebra.Order.Floor.Semiring
import Mathlib.Data.Rat.Floor
import Carma.UniformPaths
import Carma.VehicleAwareness

open lib.exact_double
open carma.maneuvers
open carma.route
open carma.trajectory

namespace carma.trajectory_converter

variable {K : Type} [LinearOrder K] [Field K]

/-! ## One motion -/

/-- A motion lasts for `n` time steps on the route. -/
def Lasts (c : TrajectoryConverter K) (k : Kinematics K) (endTime : Dbl K) :
    ℕ → Simulation K → Prop
  | 0, _ => True
  | n + 1, s =>
    Starts c endTime s ∧ Lasts c k endTime n ((s.nextSegment c.route).advance c.timeStep k)

/-- The loop adds no more points than there is room for, and as many just when the motion
lasts for so long. -/
theorem simulate_length (c : TrajectoryConverter K) (k : Kinematics K) (endTime : Dbl K) (n : ℕ)
    (s : Simulation K) :
    (simulate c k endTime n s).1.length ≤ n ∧
      ((simulate c k endTime n s).1.length = n ↔ Lasts c k endTime n s) := by
  induction n generalizing s with
  | zero => exact ⟨le_rfl, iff_of_true rfl trivial⟩
  | succ n ih =>
    unfold simulate Lasts Starts
    by_cases htime : Dbl.le ↑s.currentSimTime endTime = true
    · rw [if_pos htime]
      dsimp only
      by_cases hroute : (s.nextSegment c.route).segmentIdx ≥ c.route.segments.length
      · rw [if_pos hroute]
        exact ⟨Nat.zero_le _, iff_of_false (Nat.succ_ne_zero n).symm
          (fun hc => absurd hc.1.2 (not_lt.mpr hroute))⟩
      · rw [if_neg hroute]
        obtain ⟨hle, hiff⟩ := ih ((s.nextSegment c.route).advance c.timeStep k)
        rw [List.length_cons, Nat.add_right_cancel_iff, hiff]
        exact ⟨Nat.succ_le_succ hle, (and_iff_right ⟨htime, not_le.mp hroute⟩).symm⟩
    · rw [if_neg htime]
      exact ⟨Nat.zero_le _, iff_of_false (Nat.succ_ne_zero n).symm (fun hc => htime hc.1.1)⟩

/-- The points that a motion adds to a path of this size. -/
def pointsOf (sqrt : Dbl K → Dbl K) (c : TrajectoryConverter K) (maxPointsInPath : ℤ)
    (motion : Motion K) (size : ℕ) (data : LongitudinalSimulationData K) : List (PathPoint K) :=
  match c.route.getSegment data.segmentIdx with
  | none => []
  | some seg =>
    let k := kinematics sqrt c.timeStep motion data.downtrack
    (simulate c k (↑data.simTime + k.deltaT) (room c maxPointsInPath size) (startOf data k seg)).1

/-- A motion fills the room that a path of this size has: it lasts for as many steps. -/
def Fills (sqrt : Dbl K → Dbl K) (c : TrajectoryConverter K) (maxPointsInPath : ℤ)
    (motion : Motion K) (size : ℕ) (data : LongitudinalSimulationData K) : Prop :=
  ∃ seg, c.route.getSegment data.segmentIdx = some seg ∧
    let k := kinematics sqrt c.timeStep motion data.downtrack
    0 < room c maxPointsInPath size ∧
      Lasts c k (↑data.simTime + k.deltaT) (room c maxPointsInPath size) (startOf data k seg)

theorem addKinematicMotion_points {sqrt : Dbl K → Dbl K} {c : TrajectoryConverter K}
    {maxPointsInPath : ℤ} {motion : Motion K} {path path' : List (PathPoint K)}
    {data data' : LongitudinalSimulationData K}
    (h : addKinematicMotionToPath sqrt c maxPointsInPath motion path data = some (path', data')) :
    path' = path ++ pointsOf sqrt c maxPointsInPath motion path.length data := by
  unfold addKinematicMotionToPath at h
  unfold pointsOf
  cases hseg : c.route.getSegment data.segmentIdx with
  | none =>
    rw [hseg] at h
    cases h
  | some seg =>
    rw [hseg] at h
    exact (Prod.mk.inj (Option.some.inj h)).1.symm

/-- A motion adds at most as many points as there is room for, and where there is some, it adds
that many just when it fills it. -/
theorem length_pointsOf (sqrt : Dbl K → Dbl K) (c : TrajectoryConverter K) (maxPointsInPath : ℤ)
    (motion : Motion K) (size : ℕ) (data : LongitudinalSimulationData K) :
    (pointsOf sqrt c maxPointsInPath motion size data).length ≤ room c maxPointsInPath size ∧
      (0 < room c maxPointsInPath size →
        ((pointsOf sqrt c maxPointsInPath motion size data).length = room c maxPointsInPath size ↔
          Fills sqrt c maxPointsInPath motion size data)) := by
  unfold pointsOf Fills
  cases c.route.getSegment data.segmentIdx with
  | none =>
    refine ⟨Nat.zero_le _, fun hpos => iff_of_false hpos.ne ?_⟩
    rintro ⟨seg, hseg, -⟩
    cases hseg
  | some seg =>
    obtain ⟨hle, hiff⟩ := simulate_length c (kinematics sqrt c.timeStep motion data.downtrack)
      (↑data.simTime + (kinematics sqrt c.timeStep motion data.downtrack).deltaT)
      (room c maxPointsInPath size)
      (startOf data (kinematics sqrt c.timeStep motion data.downtrack) seg)
    refine ⟨hle, fun hpos => hiff.trans ?_⟩
    constructor
    · exact fun hlasts => ⟨seg, rfl, hpos, hlasts⟩
    · rintro ⟨seg', hseg, -, hlasts⟩
      obtain rfl := Option.some.inj hseg
      exact hlasts

/-- The first of the points has the time of the simulation. -/
theorem pointsOf_first {sqrt : Dbl K → Dbl K} {c : TrajectoryConverter K} {maxPointsInPath : ℤ}
    {motion : Motion K} {size : ℕ} {data : LongitudinalSimulationData K} {first : PathPoint K}
    {rest : List (PathPoint K)}
    (h : pointsOf sqrt c maxPointsInPath motion size data = first :: rest) :
    first.stamp = data.simTime := by
  unfold pointsOf at h
  split at h
  · cases h
  · rename_i seg _
    have hstamps := (simulate_times c (kinematics sqrt c.timeStep motion data.downtrack)
      (↑data.simTime + (kinematics sqrt c.timeStep motion data.downtrack).deltaT)
      (room c maxPointsInPath size)
      (startOf data (kinematics sqrt c.timeStep motion data.downtrack) seg)).1
    rw [h] at hstamps
    exact (List.cons.inj hstamps).1

/-! ## All longitudinal maneuvers -/

/-- A motion takes the path past the bound: it fills the room that there is, and its first point
does not repeat the time of the last one before. -/
def Progress.Overfills (sqrt : Dbl K → Dbl K) (c : TrajectoryConverter K) (maxPointsInPath : ℤ)
    (st : Progress K) (motion : Motion K) : Prop :=
  Fills sqrt c maxPointsInPath motion st.path.length st.longitudinalSimData ∧
    ∀ old ∈ st.path.getLast?, old.stamp ≠ st.longitudinalSimData.simTime

/-- No motion that is taken takes the path past the bound. -/
def NoneOverfills (sqrt : Dbl K → Dbl K) (c : TrajectoryConverter K) (maxPointsInPath : ℤ) :
    Progress K → List (Motion K) → Prop
  | _, [] => True
  | st, motion :: rest =>
    (st.takes c motion = true → ¬ st.Overfills sqrt c maxPointsInPath motion) ∧
      ∀ st' ∈ addLongitudinal sqrt c maxPointsInPath st motion,
        NoneOverfills sqrt c maxPointsInPath st' rest

theorem addLongitudinal_points {sqrt : Dbl K → Dbl K} {c : TrajectoryConverter K}
    {maxPointsInPath : ℤ} {st st' : Progress K} {motion : Motion K} (hsync : Synced st)
    (htakes : st.takes c motion = true)
    (h : addLongitudinal sqrt c maxPointsInPath st motion = some st') :
    st'.path = st.path ++ fresh st.path.getLast?
      (pointsOf sqrt c maxPointsInPath motion st.path.length st.longitudinalSimData) := by
  unfold addLongitudinal at h
  rw [if_pos htakes] at h
  obtain ⟨⟨path, data⟩, hadd, h⟩ := Option.bind_eq_some_iff.mp h
  obtain ⟨endPoint, -, h⟩ := Option.bind_eq_some_iff.mp h
  obtain rfl := Option.some.inj h
  dsimp only
  rw [addKinematicMotion_points hadd, hsync.size, hsync.end_point, dropRepeated_eq]

def most (c : TrajectoryConverter K) (maxPointsInPath : ℤ) : ℕ :=
  (min maxPointsInPath c.maxPointsInPath + 1).toNat

omit [LinearOrder K] [Field K] in
theorem room_eq (c : TrajectoryConverter K) (maxPointsInPath : ℤ) (size : ℕ) :
    room c maxPointsInPath size = most c maxPointsInPath - size := by
  unfold room most
  omega

/-- A motion takes the path to the most points just when it was there, or the motion overfills
it. -/
theorem addLongitudinal_length {sqrt : Dbl K → Dbl K} {c : TrajectoryConverter K}
    {maxPointsInPath : ℤ} {st st' : Progress K} {motion : Motion K} (hsync : Synced st)
    (hsize : st.path.length ≤ most c maxPointsInPath)
    (h : addLongitudinal sqrt c maxPointsInPath st motion = some st') :
    st'.path.length ≤ most c maxPointsInPath ∧
      (st.path.length < most c maxPointsInPath →
        (st'.path.length = most c maxPointsInPath ↔
          st.takes c motion = true ∧ st.Overfills sqrt c maxPointsInPath motion)) := by
  by_cases htakes : st.takes c motion = true
  · obtain ⟨hle, hfills⟩ := length_pointsOf sqrt c maxPointsInPath motion st.path.length
      st.longitudinalSimData
    rw [addLongitudinal_points hsync htakes h, List.length_append, and_iff_right htakes]
    rw [room_eq] at hle hfills
    unfold Progress.Overfills
    cases hpoints : pointsOf sqrt c maxPointsInPath motion st.path.length
        st.longitudinalSimData with
    | nil =>
      rw [hpoints] at hle hfills
      have hnone : fresh st.path.getLast? [] = [] := by
        cases st.path.getLast? <;> rfl
      rw [hnone]
      refine ⟨hsize, fun hlt => iff_of_false hlt.ne ?_⟩
      have hno := (hfills (Nat.sub_pos_of_lt hlt)).not.mp (Nat.sub_pos_of_lt hlt).ne
      exact fun hc => hno hc.1
    | cons first rest =>
      have hfirst := pointsOf_first hpoints
      rw [hpoints, List.length_cons] at hle hfills
      unfold fresh
      cases st.path.getLast? with
      | none =>
        rw [List.length_cons]
        refine ⟨by omega, fun hlt => ?_⟩
        rw [← hfills (Nat.sub_pos_of_lt hlt),
          and_iff_left (fun old ho => absurd ho (Option.not_mem_none old))]
        omega
      | some old =>
        dsimp only
        by_cases hsame : old.stamp = first.stamp
        · rw [if_pos hsame]
          refine ⟨by omega, fun hlt => iff_of_false (by omega) ?_⟩
          exact fun hc => hc.2 old rfl (hsame.trans hfirst)
        · rw [if_neg hsame, List.length_cons]
          have hnew : ∀ o ∈ some old, o.stamp ≠ st.longitudinalSimData.simTime := by
            intro o ho
            obtain rfl := Option.some.inj ho
            exact fun hc => hsame (hc.trans hfirst.symm)
          refine ⟨by omega, fun hlt => ?_⟩
          rw [← hfills (Nat.sub_pos_of_lt hlt), and_iff_left hnew]
          omega
  · rw [addLongitudinal_skips htakes h]
    exact ⟨hsize, fun hlt => iff_of_false hlt.ne (fun hc => htakes hc.1)⟩

/-- After the loop the path is below the most points just when no motion overfills it. -/
theorem loop_length {sqrt : Dbl K → Dbl K} {c : TrajectoryConverter K} {maxPointsInPath : ℤ}
    {motions : List (Motion K)} {st st' : Progress K} (hsync : Synced st)
    (hsize : st.path.length ≤ most c maxPointsInPath)
    (h : motions.foldlM (addLongitudinal sqrt c maxPointsInPath) st = some st') :
    st'.path.length ≤ most c maxPointsInPath ∧
      (st.path.length < most c maxPointsInPath →
        (st'.path.length < most c maxPointsInPath ↔
          NoneOverfills sqrt c maxPointsInPath st motions)) := by
  induction motions generalizing st with
  | nil =>
    obtain rfl := Option.some.inj h
    exact ⟨hsize, fun hlt => iff_of_true hlt trivial⟩
  | cons motion rest ih =>
    obtain ⟨st1, hone, hrest⟩ := Option.bind_eq_some_iff.mp h
    obtain ⟨hsync1, -⟩ := addLongitudinal_prefix hsync hone
    obtain ⟨hsize1, hiff⟩ := addLongitudinal_length hsync hsize hone
    obtain ⟨hle, hlater⟩ := ih hsync1 hsize1 hrest
    refine ⟨hle, fun hlt => ?_⟩
    unfold NoneOverfills
    simp only [hone, Option.mem_def, Option.some.injEq, forall_eq']
    rw [← not_and, ← hiff hlt]
    by_cases hfull : st1.path.length = most c maxPointsInPath
    · -- a path with the most points keeps them
      have hpre := (loop_extends hsync1 hrest).length_le
      exact iff_of_false (by omega) (fun hc => hc.1 hfull)
    · rw [hlater (lt_of_le_of_ne hsize1 hfull)]
      exact (and_iff_right hfull).symm

/-! ## Whole paths -/

/-- The complex maneuver takes a path of this size past the bound. -/
def ComplexOverfills (sqrt : Dbl K → Dbl K) (c : TrajectoryConverter K) (maxPointsInPath : ℤ)
    (complexManeuver : Option (IComplexManeuver K)) (st : Progress K) : Prop :=
  ∃ m, complexManeuver = some m ∧ st.longitudinalSimData.segmentIdx < c.route.segments.length ∧
    Fills sqrt c maxPointsInPath (averageMotion m) st.path.length st.longitudinalSimData

theorem addComplex_length {sqrt : Dbl K → Dbl K} {c : TrajectoryConverter K} {maxPointsInPath : ℤ}
    {complexManeuver : Option (IComplexManeuver K)} {st : Progress K}
    {path path' : List (PathPoint K)} (hpath : path.length = st.path.length)
    (hsize : st.path.length ≤ most c maxPointsInPath)
    (h : addComplex sqrt c maxPointsInPath complexManeuver path st.longitudinalSimData =
      some path') :
    path'.length ≤ most c maxPointsInPath ∧
      (path'.length < most c maxPointsInPath ↔ st.path.length < most c maxPointsInPath ∧
        ¬ ComplexOverfills sqrt c maxPointsInPath complexManeuver st) := by
  have hsame : path' = path → (¬ ComplexOverfills sqrt c maxPointsInPath complexManeuver st) →
      path'.length ≤ most c maxPointsInPath ∧
        (path'.length < most c maxPointsInPath ↔ st.path.length < most c maxPointsInPath ∧
          ¬ ComplexOverfills sqrt c maxPointsInPath complexManeuver st) := by
    rintro rfl hno
    rw [hpath]
    exact ⟨hsize, (and_iff_left hno).symm⟩
  unfold addComplex at h
  cases complexManeuver with
  | none =>
    refine hsame (Option.some.inj h).symm ?_
    rintro ⟨m, hm, -⟩
    cases hm
  | some m =>
    dsimp only at h
    split at h
    · rename_i hroute
      obtain ⟨⟨path1, data1⟩, hadd, rfl⟩ := Option.map_eq_some_iff.mp h
      obtain ⟨hle, hfills⟩ := length_pointsOf sqrt c maxPointsInPath (averageMotion m)
        st.path.length st.longitudinalSimData
      have hcomplex : ComplexOverfills sqrt c maxPointsInPath (some m) st ↔
          Fills sqrt c maxPointsInPath (averageMotion m) st.path.length st.longitudinalSimData := by
        constructor
        · rintro ⟨m', hm', -, hfill⟩
          obtain rfl := Option.some.inj hm'
          exact hfill
        · exact fun hfill => ⟨m, rfl, hroute, hfill⟩
      dsimp only
      rw [addKinematicMotion_points hadd, List.length_append, hpath, hcomplex]
      rw [room_eq] at hle hfills
      refine ⟨by omega, ?_⟩
      by_cases hlt : st.path.length < most c maxPointsInPath
      · rw [and_iff_right hlt, ← hfills (Nat.sub_pos_of_lt hlt)]
        omega
      · exact iff_of_false (by omega) (fun hc => hlt hc.1)
    · rename_i hroute
      refine hsame (Option.some.inj h).symm ?_
      rintro ⟨m', -, hroute', -⟩
      exact hroute hroute'

/-- Of the motions of a trajectory and its complex maneuver, none takes the path past the bound,
or the bound is above the one of the converter. -/
def KeepsBound (sqrt : Dbl K → Dbl K) (c : TrajectoryConverter K) (traj : Trajectory K)
    (start : StartPoint K) (maxPointsInPath : ℤ) : Prop :=
  c.maxPointsInPath < maxPointsInPath ∨
    ∀ segment ∈ c.route.getSegment start.currentSegmentIdx,
      let st := progressFrom start segment.uptrackWaypoint.waypointId
      let motions := expandAllLongitudinal traj.longitudinalManeuvers.toSortedList
      NoneOverfills sqrt c maxPointsInPath st motions ∧
        ∀ st' ∈ motions.foldlM (addLongitudinal sqrt c maxPointsInPath) st,
          ¬ ComplexOverfills sqrt c maxPointsInPath traj.complexManeuver st'

/-- A path has at most one point more than the lesser of the two bounds. -/
theorem convertFrom_length {sqrt : Dbl K → Dbl K} {c : TrajectoryConverter K}
    {traj : Trajectory K} {start : StartPoint K} {maxPointsInPath : ℤ} (hmax : 0 < maxPointsInPath)
    {path : List (PathPoint K)}
    (h : convertFrom sqrt c traj start maxPointsInPath = some path) :
    path.length ≤ most c maxPointsInPath ∧
      ((path.length : ℤ) ≤ maxPointsInPath ↔ KeepsBound sqrt c traj start maxPointsInPath) := by
  unfold convertFrom at h
  rw [if_neg (not_le.mpr hmax)] at h
  obtain ⟨segment, hsegment, h⟩ := Option.bind_eq_some_iff.mp h
  obtain ⟨longitudinal, hlongitudinal, h⟩ := Option.bind_eq_some_iff.mp h
  obtain ⟨lateral, hlateral, h⟩ := Option.bind_eq_some_iff.mp h
  have hlength : (lateral.done ++ lateral.rest).length = longitudinal.path.length := by
    have hstamps := congrArg List.length (laterals_stamps hlateral)
    unfold stamps at hstamps
    rwa [List.length_map, List.length_map, List.nil_append] at hstamps
  have hsync : Synced (progressFrom (K := K) start segment.uptrackWaypoint.waypointId) := ⟨rfl, rfl⟩
  obtain ⟨hloop, hnone⟩ := loop_length hsync (Nat.zero_le _) hlongitudinal
  obtain ⟨hle, hcomplex⟩ := addComplex_length hlength hloop h
  refine ⟨hle, ?_⟩
  unfold KeepsBound
  simp only [hsegment, Option.mem_def, Option.some.injEq, forall_eq', hlongitudinal]
  by_cases hlarge : c.maxPointsInPath < maxPointsInPath
  · refine iff_of_true ?_ (Or.inl hlarge)
    unfold most at hle
    omega
  · have hmost : most c maxPointsInPath = maxPointsInPath.toNat + 1 := by
      unfold most
      omega
    have hempty : (progressFrom start segment.uptrackWaypoint.waypointId).path.length <
        most c maxPointsInPath := by
      rw [hmost]
      exact Nat.succ_pos _
    rw [or_iff_right hlarge, ← hnone hempty, ← hcomplex, hmost]
    omega

/-! ## Predictions -/

variable [FloorRing K]

/-- The conversion of the current trajectory keeps the bound of the converter, and that of the
next one what is left of it. -/
def PredictionKeepsBound (sqrt : Dbl K → Dbl K) (c : TrajectoryConverter K) (v : VehicleAwareness K)
    (start : StartPoint K) : Prop :=
  ∀ current ∈ v.currentTrajectory, KeepsBound sqrt c current start c.maxPointsInPath ∧
    ∀ first ∈ convertFrom sqrt c current start c.maxPointsInPath, ∀ lastPoint ∈ first.getLast?,
      ∀ next ∈ v.nextTrajectory, (first.length : ℤ) < c.maxPointsInPath →
        KeepsBound sqrt c next (pointAfter c lastPoint start.lane) (c.maxPointsInPath - first.length)

/-- A prediction is the path of the current trajectory, with the one of the next trajectory after
it where there is one and the path has an end to go on from. -/
theorem getPathPrediction_cases {sqrt : Dbl K → Dbl K} {c : TrajectoryConverter K}
    {v : VehicleAwareness K} {start : StartPoint K} {maxPointsInPath : ℤ}
    {prediction : List (PathPoint K)}
    (h : v.getPathPrediction sqrt c start maxPointsInPath = some prediction) :
    ∃ first, v.currentPath sqrt c start maxPointsInPath = some first ∧
      ((prediction = first ∧ (v.nextTrajectory = none ∨ first = [])) ∨
        ∃ next lastPoint more, v.nextTrajectory = some next ∧ first.getLast? = some lastPoint ∧
          convertFrom sqrt c next (pointAfter c lastPoint start.lane)
            (maxPointsInPath - first.length) = some more ∧ prediction = first ++ more) := by
  unfold VehicleAwareness.getPathPrediction at h
  obtain ⟨first, hfirst, h⟩ := Option.bind_eq_some_iff.mp h
  refine ⟨first, hfirst, ?_⟩
  split at h
  · rename_i next lastPoint hnext hlast
    obtain ⟨more, hmore, h⟩ := Option.bind_eq_some_iff.mp h
    exact Or.inr ⟨next, lastPoint, more, hnext, hlast, hmore, (Option.some.inj h).symm⟩
  · rename_i hno
    refine Or.inl ⟨(Option.some.inj h).symm, ?_⟩
    cases hnext : v.nextTrajectory with
    | none => exact Or.inl rfl
    | some next =>
      cases hlast : first.getLast? with
      | none => exact Or.inr (List.getLast?_eq_none_iff.mp hlast)
      | some lastPoint => exact absurd hlast (hno next lastPoint hnext)

omit [FloorRing K] in
theorem convertFrom_empty {sqrt : Dbl K → Dbl K} {c : TrajectoryConverter K} {traj : Trajectory K}
    {start : StartPoint K} {maxPointsInPath : ℤ} (hmax : maxPointsInPath ≤ 0)
    {path : List (PathPoint K)} (h : convertFrom sqrt c traj start maxPointsInPath = some path) :
    path = [] := by
  unfold convertFrom at h
  rw [if_pos hmax] at h
  exact (Option.some.inj h).symm

theorem getPathPrediction_length {sqrt : Dbl K → Dbl K} {c : TrajectoryConverter K}
    {v : VehicleAwareness K} {start : StartPoint K} (hmax : 0 < c.maxPointsInPath)
    {prediction : List (PathPoint K)}
    (h : v.getPathPrediction sqrt c start c.maxPointsInPath = some prediction) :
    (prediction.length : ℤ) ≤ c.maxPointsInPath ↔ PredictionKeepsBound sqrt c v start := by
  unfold PredictionKeepsBound
  obtain ⟨first, hfirst, hcases⟩ := getPathPrediction_cases h
  unfold VehicleAwareness.currentPath at hfirst
  cases hcurrent : v.currentTrajectory with
  | none =>
    rw [hcurrent] at hfirst
    obtain rfl := Option.some.inj hfirst
    rcases hcases with ⟨rfl, -⟩ | ⟨_, _, _, -, hlast, -⟩
    · exact iff_of_true hmax.le (fun current hc => absurd hc (Option.not_mem_none current))
    · cases hlast
  | some current =>
    rw [hcurrent] at hfirst
    dsimp only at hfirst
    obtain ⟨-, hbound⟩ := convertFrom_length hmax hfirst
    simp only [hfirst, Option.mem_def, Option.some.injEq, forall_eq']
    rcases hcases with ⟨rfl, hnone⟩ | ⟨next, lastPoint, more, hnext, hlast, hmore, rfl⟩
    · rw [hbound]
      refine (and_iff_left fun lastPoint hlast next hnext _ => ?_).symm
      rcases hnone with hno | rfl
      · rw [hno] at hnext
        cases hnext
      · cases hlast
    · simp only [hnext, hlast, Option.some.injEq, forall_eq']
      by_cases hroom : (first.length : ℤ) < c.maxPointsInPath
      · obtain ⟨-, hnextBound⟩ := convertFrom_length (sub_pos.mpr hroom) hmore
        rw [imp_iff_right hroom, ← hbound, ← hnextBound, List.length_append, Nat.cast_add]
        omega
      · rw [convertFrom_empty (sub_nonpos.mpr (not_lt.mp hroom)) hmore, List.append_nil, hbound]
        exact (and_iff_left fun hc => absurd hc hroom).symm

/-! ## The law -/

/-- A path and a prediction that are returned have no more points than their bounds just when no
motion takes them past these. -/
theorem paths_keep_their_bounds_exactly (sqrt : Dbl K → Dbl K) (c : TrajectoryConverter K)
    (start : StartPoint K) (traj : Trajectory K) {maxPointsInPath : ℤ} (hmax : 0 < maxPointsInPath)
    (hconverter : 0 < c.maxPointsInPath) (v : VehicleAwareness K) :
    (∀ path, convertFrom sqrt c traj start maxPointsInPath = some path →
      ((path.length : ℤ) ≤ maxPointsInPath ↔ KeepsBound sqrt c traj start maxPointsInPath)) ∧
    ∀ prediction, v.getPathPrediction sqrt c start c.maxPointsInPath = some prediction →
      ((prediction.length : ℤ) ≤ c.maxPointsInPath ↔ PredictionKeepsBound sqrt c v start) :=
  ⟨fun _ h => (convertFrom_length hmax h).2, fun _ h => getPathPrediction_length hconverter h⟩

/-- The slow start is the current trajectory, with none planned after it. -/
def startingSlowly : VehicleAwareness ℚ := ⟨some slowStart, none⟩

theorem slow_paths_keep_their_bounds_exactly :
    ((slowPath.length : ℤ) ≤ 10 ↔
        KeepsBound ratSqrt straightRoad slowStart roadStart.point 10) ∧
      ((slowPath.length : ℤ) ≤ 10 ↔
        PredictionKeepsBound ratSqrt straightRoad startingSlowly roadStart.point) := by
  obtain ⟨hpath, hprediction⟩ := paths_keep_their_bounds_exactly ratSqrt straightRoad
    roadStart.point slowStart (show (0 : ℤ) < 10 by decide) (by decide) startingSlowly
  exact ⟨hpath slowPath (by decide +kernel), hprediction slowPath (by decide +kernel)⟩

/-- One meter each second up to 50. -/
def longSlowStart : Trajectory ℚ :=
  ((newTrajectory 0 50).addManeuver (.longitudinal (.single .steadySpeed ⟨0, 50, 1, 1⟩))).2

/-- The path of a long maneuver has one point more than the bound. -/
theorem a_path_has_one_point_too_many :
    (¬ ∀ (c : TrajectoryConverter ℚ) (traj : Trajectory ℚ) (start : StartPoint ℚ)
      (maxPointsInPath : ℤ), 0 < maxPointsInPath → ∀ path,
      convertFrom ratSqrt c traj start maxPointsInPath = some path →
        (path.length : ℤ) ≤ maxPointsInPath) ∧
    ¬ ∀ (c : TrajectoryConverter ℚ) (v : VehicleAwareness ℚ) (start : StartPoint ℚ),
      0 < c.maxPointsInPath → ∀ prediction,
      v.getPathPrediction ratSqrt c start c.maxPointsInPath = some prediction →
        (prediction.length : ℤ) ≤ c.maxPointsInPath := by
  constructor
  · intro hall
    have hlength := hall straightRoad longSlowStart roadStart.point 5 (by decide)
      ((convertFrom ratSqrt straightRoad longSlowStart roadStart.point 5).getD []) (by decide +kernel)
    exact absurd hlength (by decide +kernel)
  · intro hall
    have hlength := hall straightRoad ⟨some longSlowStart, none⟩ roadStart.point (by decide)
      ((convertFrom ratSqrt straightRoad longSlowStart roadStart.point 10).getD [])
      (by decide +kernel)
    exact absurd hlength (by decide +kernel)

end carma.trajectory_converter
