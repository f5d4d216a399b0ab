-- The places of the points of a converted path: the segment and the way done of it tell the
-- downtrack right as long as no step of the loop goes past two ends of segments, and the ids of
-- the waypoints name the segments.
import Carma.Lib.Places
import Carma.PathBounds

open lib.exact_double
open lib.places
open carma.maneuvers
open carma.route
open carma.trajectory

namespace carma.route

variable {K : Type}

/-- The lengths of the segments, in order. -/
def Route.lengths (route : Route K) : List K := route.segments.map (·.length)

theorem Route.lengths_get {route : Route K} {i : ℤ} {seg : RouteSegment K}
    (h : route.getSegment i = some seg) : 0 ≤ i ∧ route.lengths[i.toNat]? = some seg.length := by
  unfold Route.getSegment at h
  split at h
  · cases h
  · rename_i hi
    refine ⟨not_lt.mp hi, ?_⟩
    unfold Route.lengths
    rw [List.getElem?_map, h]
    rfl

end carma.route

namespace carma.trajectory_converter

variable {K : Type} [LinearOrder K] [Field K]

/-! ## One turn -/

/-- A point tells its downtrack right by its segment and the way done of it. -/
def PointTold (route : Route K) (p : PathPoint K) : Prop :=
  ∃ place done, p.downtrack = Dbl.fin place ∧ p.segDowntrack = Dbl.fin done ∧
    Told route.lengths place p.segmentIdx done

/-- The downtrack of the loop is off by this much from the lengths before its segment and the way
done of it, where this is a number. -/
def Simulation.Aligned (route : Route K) (off : Dbl K) (s : Simulation K) : Prop :=
  ∀ done, s.currentSegDowntrack = Dbl.fin done →
    s.currentDowntrack = Dbl.fin (before route.lengths s.segmentIdx + done) + off

/-- The id of the segment that the loop goes on with names one that starts where this segment is
taken to, and the last step has gone past the end of at most one segment. -/
def Simulation.Near (route : Route K) (off : Dbl K) (s : Simulation K) : Prop :=
  let next := s.nextSegment route
  let id := next.currentSeg.uptrackWaypoint.waypointId
  ∃ d done, off = Dbl.fin d ∧ s.currentSegDowntrack = Dbl.fin done ∧
    Names route.lengths d next.segmentIdx id ∧ Reaches route.lengths s.currentSeg.length id done

theorem nextSegment_past (route : Route K) {s : Simulation K}
    (h : Dbl.lt (Dbl.fin s.currentSeg.length) s.currentSegDowntrack = true) :
    (s.nextSegment route).currentSegDowntrack =
        s.currentSegDowntrack - Dbl.fin s.currentSeg.length ∧
      (s.nextSegment route).segmentIdx = s.segmentIdx + 1 := by
  unfold Simulation.nextSegment
  rw [if_pos h]
  exact ⟨rfl, rfl⟩

theorem nextSegment_within (route : Route K) {s : Simulation K}
    (h : ¬ Dbl.lt (Dbl.fin s.currentSeg.length) s.currentSegDowntrack = true) :
    s.nextSegment route = s := by
  unfold Simulation.nextSegment
  rw [if_neg h]

theorem nextSegment_aligned {route : Route K} {off : Dbl K} {s : Simulation K}
    (hat : s.AtSegment route) (haligned : s.Aligned route off) :
    (s.nextSegment route).Aligned route off := by
  by_cases hpast : Dbl.lt (Dbl.fin s.currentSeg.length) s.currentSegDowntrack = true
  · obtain ⟨hseg, hidx⟩ := nextSegment_past route hpast
    intro done hdone
    rw [hseg] at hdone
    obtain ⟨x, l, hx, hl, rfl⟩ := Dbl.sub_eq_fin hdone
    obtain rfl := Dbl.fin.inj hl
    obtain ⟨hi, hlength⟩ := Route.lengths_get hat
    rw [nextSegment_downtrack, haligned x hx, hidx, before_next hi hlength, add_assoc,
      add_sub_cancel]
  · rw [nextSegment_within route hpast]
    exact haligned

theorem turn_aligned {c : TrajectoryConverter K} {k : Kinematics K} {off : Dbl K}
    {s : Simulation K} (hat : s.AtSegment c.route) (haligned : s.Aligned c.route off) :
    (s.turn c k).Aligned c.route off := by
  intro done hdone
  obtain ⟨x, y, hx, hy, rfl⟩ := Dbl.add_eq_fin hdone
  have hplace := nextSegment_aligned hat haligned x hx
  unfold Simulation.turn Simulation.advance
  dsimp only
  rw [hplace, hy, Dbl.fin_add_right, add_assoc]

theorem nextSegment_done (route : Route K) {s : Simulation K} {x : K}
    (hx : s.currentSegDowntrack = Dbl.fin x) :
    (s.nextSegment route).currentSegDowntrack =
      Dbl.fin (if s.currentSeg.length < x then x - s.currentSeg.length else x) := by
  by_cases hpast : s.currentSeg.length < x
  · have hlt : Dbl.lt (Dbl.fin s.currentSeg.length) s.currentSegDowntrack = true := by
      rw [hx, Dbl.lt_fin, decide_eq_true hpast]
    rw [(nextSegment_past route hlt).1, hx, Dbl.fin_sub, if_pos hpast]
  · have hlt : ¬ Dbl.lt (Dbl.fin s.currentSeg.length) s.currentSegDowntrack = true := by
      rw [hx, Dbl.lt_fin, decide_eq_true_eq]
      exact hpast
    rw [nextSegment_within route hlt, hx, if_neg hpast]

theorem nextSegment_number {route : Route K} {s : Simulation K} {done : K}
    (h : (s.nextSegment route).currentSegDowntrack = Dbl.fin done) :
    ∃ x, s.currentSegDowntrack = Dbl.fin x := by
  by_cases hpast : Dbl.lt (Dbl.fin s.currentSeg.length) s.currentSegDowntrack = true
  · rw [(nextSegment_past route hpast).1] at h
    obtain ⟨x, -, hx, -⟩ := Dbl.sub_eq_fin h
    exact ⟨x, hx⟩
  · rw [nextSegment_within route hpast] at h
    exact ⟨done, h⟩

section laws

variable [IsStrictOrderedRing K]

/-- The point that a turn adds tells its place right just when the loop is near. -/
theorem point_told {route : Route K} {off : Dbl K} {s : Simulation K}
    (hat : s.AtSegment route) (haligned : s.Aligned route off) :
    PointTold route (s.nextSegment route).point ↔ s.Near route off := by
  have hnext := nextSegment_aligned hat haligned
  show (∃ place done, (s.nextSegment route).currentDowntrack = Dbl.fin place ∧
    (s.nextSegment route).currentSegDowntrack = Dbl.fin done ∧ Told route.lengths place
      (s.nextSegment route).currentSeg.uptrackWaypoint.waypointId done) ↔ _
  constructor
  · rintro ⟨place, done, hplace, hdone, htold⟩
    obtain ⟨x, hx⟩ := nextSegment_number hdone
    rw [hnext done hdone] at hplace
    obtain ⟨y, d, hy, rfl, rfl⟩ := Dbl.add_eq_fin hplace
    obtain rfl := Dbl.fin.inj hy
    obtain ⟨hnames, hin⟩ := (told_by_name rfl).mp htold
    refine ⟨d, x, rfl, hx, hnames, ?_⟩
    rw [nextSegment_done route hx] at hdone
    obtain rfl := Dbl.fin.inj hdone
    split_ifs at hin with hpast
    · exact (reaches_past hpast).mpr hin
    · exact (reaches_here (not_lt.mp hpast)).mpr hin
  · rintro ⟨d, x, rfl, hx, hnames, hreaches⟩
    have hdone := nextSegment_done route hx
    refine ⟨_, _, hnext _ hdone, hdone, (told_by_name rfl).mpr ⟨hnames, ?_⟩⟩
    split_ifs with hpast
    · exact (reaches_past hpast).mp hreaches
    · exact (reaches_here (not_lt.mp hpast)).mp hreaches

/-! ## One motion -/

/-- The loop is near at each turn that adds a point. -/
def TurnsNear (c : TrajectoryConverter K) (k : Kinematics K) (off endTime : Dbl K) :
    ℕ → Simulation K → Prop
  | 0, _ => True
  | n + 1, s => Starts c endTime s → s.Near c.route off ∧ TurnsNear c k off endTime n (s.turn c k)

omit [IsStrictOrderedRing K] in
theorem simulate_stops {c : TrajectoryConverter K} {k : Kinematics K} {endTime : Dbl K} {n : ℕ}
    {s : Simulation K} (h : ¬ (0 < n ∧ Starts c endTime s)) : (simulate c k endTime n s).1 = [] :=
  not_not.mp ((simulate_times c k endTime n s).2.2.not.mpr h)

theorem simulate_told {c : TrajectoryConverter K} {k : Kinematics K} {off endTime : Dbl K} {n : ℕ}
    {s : Simulation K} (hat : s.AtSegment c.route) (haligned : s.Aligned c.route off) :
    (∀ p ∈ (simulate c k endTime n s).1, PointTold c.route p) ↔ TurnsNear c k off endTime n s := by
  induction n generalizing s with
  | zero => exact iff_of_true (fun p hp => absurd hp List.not_mem_nil) trivial
  | succ n ih =>
    unfold TurnsNear
    by_cases hstarts : Starts c endTime s
    · rw [simulate_starts hstarts, List.forall_mem_cons, imp_iff_right hstarts,
        point_told hat haligned, ih (turn_at hat hstarts.2) (turn_aligned hat haligned)]
    · rw [simulate_stops (fun hc => hstarts hc.2)]
      exact iff_of_true (fun p hp => absurd hp List.not_mem_nil) (fun hc => absurd hc hstarts)

omit [IsStrictOrderedRing K] in
theorem simulate_aligned {c : TrajectoryConverter K} {k : Kinematics K} {off endTime : Dbl K}
    {n : ℕ} {s : Simulation K} (hat : s.AtSegment c.route) (haligned : s.Aligned c.route off) :
    (simulate c k endTime n s).2.Aligned c.route off := by
  induction n generalizing s with
  | zero => exact haligned
  | succ n ih =>
    by_cases hstarts : Starts c endTime s
    · rw [simulate_starts hstarts]
      exact ih (turn_at hat hstarts.2) (turn_aligned hat haligned)
    · unfold simulate
      split
      · rename_i htime
        dsimp only
        rw [if_pos (not_lt.mp fun hroute => hstarts ⟨htime, hroute⟩)]
        exact nextSegment_aligned hat haligned
      · exact haligned

/-- The data that a motion starts from are off by this much. -/
def LongitudinalSimulationData.Aligned (route : Route K) (off : Dbl K)
    (data : LongitudinalSimulationData K) : Prop :=
  ∀ done, data.segmentDowntrack = Dbl.fin done →
    data.downtrack = Dbl.fin (before route.lengths data.segmentIdx + done) + off

/-- The loop of a motion is near at each turn whose point is kept. The first point is dropped when
it repeats the last one of the path. -/
def MotionNear (sqrt : Dbl K → Dbl K) (c : TrajectoryConverter K) (maxPointsInPath : ℤ)
    (off : Dbl K) (motion : Motion K) (size : ℕ) (data : LongitudinalSimulationData K)
    (dropped : Prop) : Prop :=
  ∀ seg ∈ c.route.getSegment data.segmentIdx,
    let k := kinematics sqrt c.timeStep motion data.downtrack
    let endTime := ↑data.simTime + k.deltaT
    let s := startOf data k seg
    0 < room c maxPointsInPath size → Starts c endTime s →
      (¬ dropped → s.Near c.route off) ∧
        TurnsNear c k off endTime (room c maxPointsInPath size - 1) (s.turn c k)

omit [Field K] [IsStrictOrderedRing K] in
theorem fresh_nil (last : Option (PathPoint K)) : fresh last [] = [] := by
  cases last <;> rfl

omit [IsStrictOrderedRing K] in
/-- What is kept of the points of a loop that adds some. -/
theorem fresh_simulate {c : TrajectoryConverter K} {k : Kinematics K} {endTime : Dbl K} {n : ℕ}
    {s : Simulation K} (hstarts : Starts c endTime s) (last : Option (PathPoint K)) :
    ((∃ old, last = some old ∧ old.stamp = s.currentSimTime) →
        fresh last (simulate c k endTime (n + 1) s).1 =
          (simulate c k endTime n (s.turn c k)).1) ∧
      ((¬ ∃ old, last = some old ∧ old.stamp = s.currentSimTime) →
        fresh last (simulate c k endTime (n + 1) s).1 =
          (simulate c k endTime (n + 1) s).1) := by
  rw [simulate_starts hstarts]
  have htime : (s.nextSegment c.route).point.stamp = s.currentSimTime := nextSegment_time _ _
  constructor
  · rintro ⟨old, rfl, hstamp⟩
    exact if_pos (hstamp.trans htime.symm)
  · intro hkept
    cases last with
    | none => rfl
    | some old => exact if_neg fun hc => hkept ⟨old, rfl, hc.trans htime⟩

/-- The points of a motion that are kept are told right just when its turns are near. -/
theorem pointsOf_told {sqrt : Dbl K → Dbl K} {c : TrajectoryConverter K} {maxPointsInPath : ℤ}
    {off : Dbl K} {motion : Motion K} {path : List (PathPoint K)}
    {data : LongitudinalSimulationData K} (haligned : data.Aligned c.route off) :
    ((∀ p ∈ pointsOf sqrt c maxPointsInPath motion path.length data, PointTold c.route p) ↔
        MotionNear sqrt c maxPointsInPath off motion path.length data False) ∧
      ((∀ p ∈ fresh path.getLast? (pointsOf sqrt c maxPointsInPath motion path.length data),
          PointTold c.route p) ↔
        MotionNear sqrt c maxPointsInPath off motion path.length data
          (∃ old ∈ path.getLast?, old.stamp = data.simTime)) := by
  unfold pointsOf MotionNear
  cases hseg : c.route.getSegment data.segmentIdx with
  | none =>
    dsimp only
    rw [fresh_nil]
    refine ⟨iff_of_true (fun p hp => absurd hp List.not_mem_nil) ?_,
      iff_of_true (fun p hp => absurd hp List.not_mem_nil) ?_⟩
    · exact fun seg hs => absurd hs (Option.not_mem_none seg)
    · exact fun seg hs => absurd hs (Option.not_mem_none seg)
  | some seg =>
    simp only [Option.mem_def, Option.some.injEq, forall_eq']
    generalize hk : kinematics sqrt c.timeStep motion data.downtrack = k
    generalize hend : (Dbl.fin data.simTime + k.deltaT : Dbl K) = endTime
    by_cases hadds : 0 < room c maxPointsInPath path.length ∧ Starts c endTime (startOf data k seg)
    · obtain ⟨hpos, hstarts⟩ := hadds
      obtain ⟨n, hn⟩ := Nat.exists_eq_succ_of_ne_zero hpos.ne'
      have hat : (startOf data k seg).AtSegment c.route := hseg
      have hA : (startOf data k seg).Aligned c.route off := haligned
      have hlater : (∀ p ∈ (simulate c k endTime n ((startOf data k seg).turn c k)).1,
          PointTold c.route p) ↔ TurnsNear c k off endTime n ((startOf data k seg).turn c k) :=
        simulate_told (turn_at hat hstarts.2) (turn_aligned hat hA)
      have hall : (∀ p ∈ (simulate c k endTime (n + 1) (startOf data k seg)).1,
          PointTold c.route p) ↔ (startOf data k seg).Near c.route off ∧
            TurnsNear c k off endTime n ((startOf data k seg).turn c k) := by
        rw [simulate_starts hstarts, List.forall_mem_cons, point_told hat hA, hlater]
      rw [hn, Nat.succ_eq_add_one, Nat.add_sub_cancel, imp_iff_right (Nat.succ_pos n),
        imp_iff_right hstarts, imp_iff_right (Nat.succ_pos n), imp_iff_right hstarts, hall,
        imp_iff_right not_false]
      obtain ⟨hdrops, hkeeps⟩ := fresh_simulate (k := k) (n := n) hstarts path.getLast?
      refine ⟨Iff.rfl, ?_⟩
      by_cases hdropped : ∃ old, path.getLast? = some old ∧ old.stamp = data.simTime
      · rw [hdrops hdropped, and_iff_right (fun hc => absurd hdropped hc), hlater]
      · rw [hkeeps hdropped, hall, imp_iff_right hdropped]
    · rw [simulate_stops hadds, fresh_nil]
      constructor
      · refine iff_of_true (fun p hp => absurd hp List.not_mem_nil) ?_
        exact fun hpos hstarts => absurd ⟨hpos, hstarts⟩ hadds
      · refine iff_of_true (fun p hp => absurd hp List.not_mem_nil) ?_
        exact fun hpos hstarts => absurd ⟨hpos, hstarts⟩ hadds

omit [IsStrictOrderedRing K] in
/-- After a motion the data are off as before it. -/
theorem addKinematicMotion_aligned {sqrt : Dbl K → Dbl K} {c : TrajectoryConverter K}
    {maxPointsInPath : ℤ} {off : Dbl K} {motion : Motion K} {path path' : List (PathPoint K)}
    {data data' : LongitudinalSimulationData K}
    (h : addKinematicMotionToPath sqrt c maxPointsInPath motion path data = some (path', data'))
    (haligned : data.Aligned c.route off) : data'.Aligned c.route off := by
  unfold addKinematicMotionToPath at h
  obtain ⟨seg, hseg, h⟩ := Option.bind_eq_some_iff.mp h
  obtain ⟨-, rfl⟩ := Prod.mk.inj (Option.some.inj h)
  intro done hdone
  obtain ⟨x, y, hx, hy, rfl⟩ := Dbl.sub_eq_fin hdone
  have hplace := simulate_aligned (k := kinematics sqrt c.timeStep motion data.downtrack)
    (show (startOf data _ seg).AtSegment c.route from hseg) haligned x hx
  dsimp only
  rw [hplace, hy, Dbl.fin_sub_right, add_sub_assoc]

/-! ## All maneuvers -/

/-- The turns of each longitudinal motion that is taken are near. -/
def MotionsNear (sqrt : Dbl K → Dbl K) (c : TrajectoryConverter K) (maxPointsInPath : ℤ)
    (off : Dbl K) : Progress K → List (Motion K) → Prop
  | _, [] => True
  | st, motion :: rest =>
    (st.takes c motion = true →
      MotionNear sqrt c maxPointsInPath off motion st.path.length st.longitudinalSimData
        (∃ old ∈ st.path.getLast?, old.stamp = st.longitudinalSimData.simTime)) ∧
      ∀ st' ∈ addLongitudinal sqrt c maxPointsInPath st motion,
        MotionsNear sqrt c maxPointsInPath off st' rest

omit [IsStrictOrderedRing K] in
theorem addLongitudinal_aligned {sqrt : Dbl K → Dbl K} {c : TrajectoryConverter K}
    {maxPointsInPath : ℤ} {off : Dbl K} {st st' : Progress K} {motion : Motion K}
    (haligned : st.longitudinalSimData.Aligned c.route off)
    (h : addLongitudinal sqrt c maxPointsInPath st motion = some st') :
    st'.longitudinalSimData.Aligned c.route off := by
  unfold addLongitudinal at h
  split at h
  · obtain ⟨⟨path, data⟩, hadd, h⟩ := Option.bind_eq_some_iff.mp h
    obtain ⟨endPoint, -, h⟩ := Option.bind_eq_some_iff.mp h
    obtain rfl := Option.some.inj h
    exact addKinematicMotion_aligned hadd haligned
  · obtain rfl := Option.some.inj h
    exact haligned

/-- After the loop the points are told right just when those before were, and the turns of each
motion are near. -/
theorem loop_told {sqrt : Dbl K → Dbl K} {c : TrajectoryConverter K} {maxPointsInPath : ℤ}
    {off : Dbl K} {motions : List (Motion K)} {st st' : Progress K} (hsync : Synced st)
    (haligned : st.longitudinalSimData.Aligned c.route off)
    (h : motions.foldlM (addLongitudinal sqrt c maxPointsInPath) st = some st') :
    ((∀ p ∈ st'.path, PointTold c.route p) ↔
        (∀ p ∈ st.path, PointTold c.route p) ∧ MotionsNear sqrt c maxPointsInPath off st motions) ∧
      st'.longitudinalSimData.Aligned c.route off := by
  induction motions generalizing st with
  | nil =>
    obtain rfl := Option.some.inj h
    exact ⟨(and_iff_left trivial).symm, haligned⟩
  | cons motion rest ih =>
    obtain ⟨st1, hone, hrest⟩ := Option.bind_eq_some_iff.mp h
    obtain ⟨hsync1, -⟩ := addLongitudinal_prefix hsync hone
    obtain ⟨hlater, hend⟩ := ih hsync1 (addLongitudinal_aligned haligned hone) hrest
    refine ⟨?_, hend⟩
    unfold MotionsNear
    simp only [hone, Option.mem_def, Option.some.injEq, forall_eq']
    rw [hlater]
    by_cases htakes : st.takes c motion = true
    · rw [addLongitudinal_points hsync htakes hone, List.forall_mem_append,
        (pointsOf_told haligned).2, imp_iff_right htakes, and_assoc]
      exact Iff.rfl
    · obtain rfl := addLongitudinal_skips htakes hone
      rw [and_iff_right (fun hc => absurd hc htakes)]

/-- The turns of the complex maneuver are near. -/
def ComplexNear (sqrt : Dbl K → Dbl K) (c : TrajectoryConverter K) (maxPointsInPath : ℤ)
    (off : Dbl K) (complexManeuver : Option (IComplexManeuver K)) (st : Progress K) : Prop :=
  ∀ m ∈ complexManeuver, st.longitudinalSimData.segmentIdx < c.route.segments.length →
    MotionNear sqrt c maxPointsInPath off (averageMotion m) st.path.length st.longitudinalSimData
      False

theorem addComplex_told {sqrt : Dbl K → Dbl K} {c : TrajectoryConverter K} {maxPointsInPath : ℤ}
    {off : Dbl K} {complexManeuver : Option (IComplexManeuver K)} {st : Progress K}
    (haligned : st.longitudinalSimData.Aligned c.route off) {path path' : List (PathPoint K)}
    (hlength : path.length = st.path.length)
    (hpath : (∀ p ∈ path, PointTold c.route p) ↔ ∀ p ∈ st.path, PointTold c.route p)
    (h : addComplex sqrt c maxPointsInPath complexManeuver path st.longitudinalSimData =
      some path') :
    (∀ p ∈ path', PointTold c.route p) ↔ (∀ p ∈ st.path, PointTold c.route p) ∧
      ComplexNear sqrt c maxPointsInPath off complexManeuver st := by
  unfold addComplex at h
  unfold ComplexNear
  cases complexManeuver with
  | none =>
    obtain rfl := Option.some.inj h
    exact hpath.trans (and_iff_left fun m hm => absurd hm (Option.not_mem_none m)).symm
  | some m =>
    simp only [Option.mem_def, Option.some.injEq, forall_eq'] at h ⊢
    split at h
    · rename_i hroute
      obtain ⟨⟨path1, data1⟩, hadd, rfl⟩ := Option.map_eq_some_iff.mp h
      dsimp only
      rw [addKinematicMotion_points hadd, List.forall_mem_append, hpath, imp_iff_right hroute,
        ← hlength, (pointsOf_told haligned).1]
    · rename_i hroute
      obtain rfl := Option.some.inj h
      exact hpath.trans (and_iff_left fun hc => absurd hc hroute).symm

/-! ## Whole paths -/

/-- How far the starting downtrack is off from the lengths before the segment that the conversion
starts on and the way done of it. -/
def StartPoint.off (route : Route K) (start : StartPoint K) (startingSegIdx : ℤ) : Dbl K :=
  start.downtrack - (Dbl.fin (before route.lengths startingSegIdx) + start.segDowntrack)

omit [LinearOrder K] [IsStrictOrderedRing K] in
theorem progressFrom_aligned (route : Route K) (start : StartPoint K) (startingSegIdx : ℤ) :
    (progressFrom start startingSegIdx).longitudinalSimData.Aligned route
      (start.off route startingSegIdx) := by
  intro done hdone
  have hseg : start.segDowntrack = Dbl.fin done := hdone
  unfold StartPoint.off
  rw [hseg, Dbl.fin_add]
  exact (Dbl.fin_add_sub _ _).symm

/-- In the conversion of a trajectory the loop is near at each turn whose point is kept. -/
def PathNear (sqrt : Dbl K → Dbl K) (c : TrajectoryConverter K) (traj : Trajectory K)
    (start : StartPoint K) (maxPointsInPath : ℤ) : Prop :=
  0 < maxPointsInPath → ∀ segment ∈ c.route.getSegment start.currentSegmentIdx,
    let startingSegIdx := segment.uptrackWaypoint.waypointId
    let st := progressFrom start startingSegIdx
    let off := start.off c.route startingSegIdx
    let motions := expandAllLongitudinal traj.longitudinalManeuvers.toSortedList
    MotionsNear sqrt c maxPointsInPath off st motions ∧
      ∀ st' ∈ motions.foldlM (addLongitudinal sqrt c maxPointsInPath) st,
        ComplexNear sqrt c maxPointsInPath off traj.complexManeuver st'

theorem convertFrom_told {sqrt : Dbl K → Dbl K} {c : TrajectoryConverter K} {traj : Trajectory K}
    {start : StartPoint K} {maxPointsInPath : ℤ} {path : List (PathPoint K)}
    (h : convertFrom sqrt c traj start maxPointsInPath = some path) :
    (∀ p ∈ path, PointTold c.route p) ↔ PathNear sqrt c traj start maxPointsInPath := by
  unfold convertFrom at h
  unfold PathNear
  by_cases hmax : maxPointsInPath ≤ 0
  · rw [if_pos hmax] at h
    obtain rfl := Option.some.inj h
    exact iff_of_true (fun p hp => absurd hp List.not_mem_nil)
      (fun hc => absurd hc (not_lt.mpr hmax))
  · rw [if_neg hmax] at h
    obtain ⟨segment, hsegment, h⟩ := Option.bind_eq_some_iff.mp h
    obtain ⟨longitudinal, hlongitudinal, h⟩ := Option.bind_eq_some_iff.mp h
    obtain ⟨lateral, hlateral, h⟩ := Option.bind_eq_some_iff.mp h
    have hsync : Synced (progressFrom (K := K) start segment.uptrackWaypoint.waypointId) :=
      ⟨rfl, rfl⟩
    obtain ⟨hloop, haligned⟩ :=
      loop_told hsync (progressFrom_aligned c.route start _) hlongitudinal
    -- a crosstrack does not matter to the place
    have hsame := laterals_keep (f := PointTold c.route) (fun _ _ => rfl) hlateral
    have hlength := congrArg List.length hsame
    rw [List.length_map, List.length_map, List.nil_append] at hlength
    have hpath : (∀ p ∈ lateral.done ++ lateral.rest, PointTold c.route p) ↔
        ∀ p ∈ longitudinal.path, PointTold c.route p := by
      have hall := List.forall_mem_map (f := PointTold c.route) (l := lateral.done ++ lateral.rest)
        (P := fun told => told)
      rw [hsame, List.nil_append, List.forall_mem_map] at hall
      exact hall.symm
    rw [addComplex_told haligned hlength hpath h, hloop, imp_iff_right (not_le.mp hmax)]
    simp only [hsegment, Option.mem_def, Option.some.injEq, forall_eq', hlongitudinal]
    have hnone : ∀ p ∈ (progressFrom start segment.uptrackWaypoint.waypointId).path,
        PointTold c.route p := fun p hp => absurd hp List.not_mem_nil
    rw [and_iff_right hnone]

end laws

end carma.trajectory_converter
