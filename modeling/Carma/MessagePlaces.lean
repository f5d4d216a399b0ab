-- The places of the points that come out of a path message, and the law of both kinds of paths:
-- a message takes the way done of the first segment from elsewhere, and like the conversion of a
-- trajectory it goes on by one segment at most for each point.
import Carma.PathErrors
import Carma.PathPlaces

open lib.exact_double
open lib.places
open carma.route
open carma.route_node (routeSegmentOfPoint)

namespace carma.route_node

variable {K F : Type}

/-- The lengths of the segments, in order. -/
def Route.lengths (route : Route K F) : List K := route.segments.map (·.length)

theorem Route.lengths_get {route : Route K F} {i : ℤ} {seg : RouteSegment K F}
    (h : route.getSegment i = some seg) : 0 ≤ i ∧ route.lengths[i.toNat]? = some seg.length := by
  obtain ⟨hi, hseg⟩ := (route.getSegment_eq_some_iff i seg).mp h
  refine ⟨hi, ?_⟩
  unfold Route.lengths
  rw [List.getElem?_map, hseg]
  rfl

theorem Route.lengthOfSegments_before [Field K] {route : Route K F} {i : ℤ} {length : K}
    (h : route.lengthOfSegments 0 (i - 1) = some length) : length = before route.lengths i := by
  unfold Route.lengthOfSegments at h
  unfold before
  split_ifs at h with hnone
  · obtain rfl := Option.some.inj h
    rw [show i.toNat = 0 by omega, List.take_zero, List.sum_nil]
  · obtain rfl := Option.some.inj h
    have hlast : (i - 1).toNat + 1 = i.toNat := by omega
    unfold calculateLength Route.lengths
    rw [hlast, ← List.map_take]
    rfl

end carma.route_node

namespace carma.path_messages

variable {K F : Type} [LinearOrder K] [Field K]

/-! ## One point -/

/-- A point tells its downtrack right by its segment and the way done of it. -/
def PointTold (c : PathConverter K F) (p : RoutePoint K) : Prop :=
  Told c.route.lengths p.downtrack p.segmentIdx p.segDowntrack

/-- Where the point in the earth frame is along a segment. -/
def Decoding.along (c : PathConverter K F) (s : Decoding K F)
    (seg : route_node.RouteSegment K F) : K :=
  c.geo.xInFrame seg.ecefToUptrackWP s.ecefPoint

/-- The loop has the index of a segment, and the downtrack of its start. -/
structure Decoding.At (c : PathConverter K F) (s : Decoding K F) : Prop where
  nonneg : 0 ≤ s.segmentIdx
  piece : s.segmentIdx < c.route.lengths.length
  downtrack : s.downtrackOfSegment = before c.route.lengths s.segmentIdx

/-- The point in the earth frame lies within the segment of the index, or, where it is past the
current segment, this one is as long as that of the index, and the point lies within the next. -/
def Decoding.Near (c : PathConverter K F) (s : Decoding K F) : Prop :=
  if s.currentSegment.length < s.along c s.currentSegment ∧
      s.segmentIdx < c.route.segments.length - 1 then
    (∀ length ∈ c.route.lengths[s.segmentIdx.toNat]?, length = s.currentSegment.length) ∧
      ∀ next ∈ c.route.getSegment (s.segmentIdx + 1),
        Within c.route.lengths (s.segmentIdx + 1) (s.along c next)
  else Within c.route.lengths s.segmentIdx (s.along c s.currentSegment)

omit [LinearOrder K] [Field K] in
theorem lengths_length (c : PathConverter K F) :
    c.route.lengths.length = c.route.segments.length :=
  List.length_map _

/-- The point that is added tells its place right just when the one in the earth frame is near. -/
theorem point_told {c : PathConverter K F} {s next : Decoding K F} (hat : s.At c)
    (h : s.nextSegment c = some next) : PointTold c (next.routePoint c) ↔ s.Near c := by
  unfold PointTold Decoding.routePoint Decoding.Near Decoding.along
  unfold Decoding.nextSegment at h
  split at h
  · rename_i hpast
    obtain ⟨seg, hseg, rfl⟩ := Option.map_eq_some_iff.mp h
    rw [if_pos hpast, hseg]
    simp only [Option.mem_def, Option.some.injEq, forall_eq']
    have hlt : s.segmentIdx.toNat < c.route.lengths.length := (Int.toNat_lt hat.nonneg).mpr hat.piece
    generalize hlength : c.route.lengths[s.segmentIdx.toNat] = length
    replace hlength := List.getElem?_eq_some_iff.mpr ⟨hlt, hlength⟩
    have hnext := before_next hat.nonneg hlength
    rw [hlength]
    simp only [Option.some.injEq, forall_eq']
    constructor
    · intro h
      have hplace := h.place_eq
      rw [hat.downtrack, hnext, add_comm] at hplace
      exact ⟨(add_left_cancel (add_right_cancel hplace)).symm, h.within⟩
    · rintro ⟨rfl, hwithin⟩
      refine ⟨add_nonneg hat.nonneg Int.one_nonneg, ?_, ?_, hwithin⟩
      · rw [lengths_length]
        exact Int.add_lt_of_lt_sub_right hpast.2
      · rw [hat.downtrack, hnext, add_comm]
  · rename_i hin
    obtain rfl := Option.some.inj h
    rw [if_neg hin]
    constructor
    · exact fun htold => htold.within
    · exact fun hwithin => ⟨hat.nonneg, hat.piece, by rw [hat.downtrack, add_comm], hwithin⟩

theorem at_of_told {c : PathConverter K F} {s : Decoding K F} (h : PointTold c (s.routePoint c)) :
    s.At c := by
  have hplace := h.place_eq
  unfold Decoding.routePoint at hplace
  dsimp only at hplace
  rw [add_comm] at hplace
  exact ⟨h.nonneg, h.piece, add_right_cancel hplace⟩

/-- The first point tells its place right just when its segment has the index of one, and the way
done that it is given is its own. -/
theorem first_told {c : PathConverter K F} {s : Decoding K F}
    (hdowntrack : s.downtrackOfSegment = before c.route.lengths s.segmentIdx) (segDowntrack : K) :
    PointTold c { s.routePoint c with segDowntrack } ↔ s.At c ∧
      segDowntrack = s.along c s.currentSegment ∧
        Within c.route.lengths s.segmentIdx (s.along c s.currentSegment) := by
  show Told c.route.lengths (s.along c s.currentSegment + s.downtrackOfSegment) s.segmentIdx
    segDowntrack ↔ _
  constructor
  · intro h
    have hplace := h.place_eq
    rw [hdowntrack, add_comm] at hplace
    obtain rfl := add_left_cancel hplace
    exact ⟨⟨h.nonneg, h.piece, hdowntrack⟩, rfl, h.within⟩
  · rintro ⟨hat, rfl, hin⟩
    exact ⟨hat.nonneg, hat.piece, by rw [hdowntrack, add_comm], hin⟩

/-! ## Messages -/

/-- Each point after the first is near to the segment of the one before it. -/
def StepsNear (c : PathConverter K F) : Decoding K F → List LocationOffsetECEF → Prop
  | _, [] => True
  | s, step :: steps =>
    let moved := { s with time := s.time + c.timeStep, ecefPoint := s.ecefPoint.move step }
    moved.Near c ∧ ∀ next ∈ moved.nextSegment c, StepsNear c next steps

theorem decodeOffsets_told {c : PathConverter K F} {s : Decoding K F}
    {steps : List LocationOffsetECEF} {points : List (Point3D K × RoutePoint K)} (hat : s.At c)
    (h : decodeOffsets c s steps = some points) :
    (∀ p ∈ points.map Prod.snd, PointTold c p) ↔ StepsNear c s steps := by
  induction steps generalizing s points with
  | nil =>
    obtain rfl := Option.some.inj h
    exact iff_of_true (fun p hp => absurd hp List.not_mem_nil) trivial
  | cons step steps ih =>
    unfold decodeOffsets at h
    obtain ⟨next, hnext, h⟩ := Option.bind_eq_some_iff.mp h
    obtain ⟨rest, hrest, h⟩ := Option.bind_eq_some_iff.mp h
    obtain rfl := Option.some.inj h
    have hmoved : ({ s with time := s.time + c.timeStep, ecefPoint := s.ecefPoint.move step } :
        Decoding K F).At c := ⟨hat.nonneg, hat.piece, hat.downtrack⟩
    unfold StepsNear
    simp only [hnext, Option.mem_def, Option.some.injEq, forall_eq']
    rw [List.map_cons, List.forall_mem_cons, ← point_told hmoved hnext]
    exact and_congr_right fun htold => ih (at_of_told htold) hrest

/-- The start of a message lies on a segment whose id is the index of one, within that, and at the
way that the caller tells, and each point after it is near to the segment of the one before. -/
def MessageNear (c : PathConverter K F) (msg : TrajectoryMsg) (currentSegmentIdx : ℤ)
    (segDowntrack : K) : Prop :=
  ∀ startingSegment ∈ routeSegmentOfPoint c.geo (startPoint msg)
      (c.route.findRouteSubsection currentSegmentIdx segDowntrack distanceToSearch
        distanceToSearch),
    let startIdx := startingSegment.uptrackWP.waypointId
    let s : Decoding K F := ⟨msg.location.timestamp / msPerSec, startPoint msg,
      before c.route.lengths startIdx, startIdx, startingSegment⟩
    (0 ≤ startIdx ∧ startIdx < c.route.segments.length) ∧
      segDowntrack = s.along c startingSegment ∧
      Within c.route.lengths startIdx (s.along c startingSegment) ∧ StepsNear c s msg.offsets

theorem messageToPath_told {c : PathConverter K F} {msg : TrajectoryMsg} {currentSegmentIdx : ℤ}
    {segDowntrack : K} {path : List (RoutePoint K)}
    (h : messageToPath c msg currentSegmentIdx segDowntrack = some path) :
    (∀ p ∈ path, PointTold c p) ↔ MessageNear c msg currentSegmentIdx segDowntrack := by
  unfold messageToPath at h
  obtain ⟨points, hdecode, rfl⟩ := Option.map_eq_some_iff.mp h
  unfold decode at hdecode
  obtain ⟨startingSegment, hsegment, hdecode⟩ := Option.bind_eq_some_iff.mp hdecode
  obtain ⟨downtrack, hdowntrack, hdecode⟩ := Option.bind_eq_some_iff.mp hdecode
  obtain ⟨rest, hrest, hdecode⟩ := Option.bind_eq_some_iff.mp hdecode
  obtain rfl := Option.some.inj hdecode
  obtain rfl := route_node.Route.lengthOfSegments_before hdowntrack
  unfold MessageNear
  simp only [hsegment, Option.mem_def, Option.some.injEq, forall_eq']
  let s : Decoding K F := ⟨msg.location.timestamp / msPerSec, startPoint msg,
    before c.route.lengths startingSegment.uptrackWP.waypointId,
    startingSegment.uptrackWP.waypointId, startingSegment⟩
  have hat : s.At c ↔ 0 ≤ startingSegment.uptrackWP.waypointId ∧
      startingSegment.uptrackWP.waypointId < c.route.segments.length := by
    rw [← lengths_length]
    exact ⟨fun hat => ⟨hat.nonneg, hat.piece⟩, fun hin => ⟨hin.1, hin.2, rfl⟩⟩
  have hfirst : PointTold c { s.routePoint c with segDowntrack } ↔ _ := first_told rfl segDowntrack
  rw [List.map_cons, List.forall_mem_cons, hfirst, ← hat, and_assoc, and_assoc]
  refine and_congr_right fun hstart => and_congr_right fun _ => and_congr_right fun _ => ?_
  exact decodeOffsets_told hstart hrest

/-! ## The law -/

/-- The points of a path that is returned tell their downtrack right by their segment and the way
done of it, just when for each of them the id of the segment names one that starts there, and the
way has gone past the end of at most one segment. -/
theorem places_are_told_exactly [IsStrictOrderedRing K] (sqrt : Dbl K → Dbl K)
    (c : trajectory_converter.TrajectoryConverter K) (traj : trajectory.Trajectory K)
    (start : trajectory_converter.StartPoint K) (maxPointsInPath : ℤ) (m : PathConverter K F)
    (msg : TrajectoryMsg) (currentSegmentIdx : ℤ) (segDowntrack : K) :
    (∀ path, trajectory_converter.convertFrom sqrt c traj start maxPointsInPath = some path →
      ((∀ p ∈ path, trajectory_converter.PointTold c.route p) ↔
        trajectory_converter.PathNear sqrt c traj start maxPointsInPath)) ∧
      ∀ path, messageToPath m msg currentSegmentIdx segDowntrack = some path →
        ((∀ p ∈ path, PointTold m p) ↔ MessageNear m msg currentSegmentIdx segDowntrack) :=
  ⟨fun _ h => trajectory_converter.convertFrom_told h, fun _ h => messageToPath_told h⟩

/-! ## Short segments -/

/-- Two segments of one meter before a long one, and one point each second. -/
def shortSegments : trajectory_converter.TrajectoryConverter ℚ where
  maxPointsInPath := 10
  timeStep := 1
  route := ⟨[⟨1, ⟨0, 2, 4⟩, ⟨1, 2, 4⟩⟩, ⟨1, ⟨1, 2, 4⟩, ⟨2, 2, 4⟩⟩, ⟨100, ⟨2, 2, 4⟩, ⟨3, 2, 4⟩⟩]⟩

/-- Three meters each second up to 9. -/
def threeASecond : trajectory.Trajectory ℚ :=
  ((trajectory.newTrajectory 0 10).addManeuver
    (.longitudinal (.single .steadySpeed ⟨0, 9, 3, 3⟩))).2

/-- A road of two segments, where a lane change has left out the waypoint between their ids. -/
def changedLanes : trajectory_converter.TrajectoryConverter ℚ where
  maxPointsInPath := 10
  timeStep := 1
  route := ⟨[⟨100, ⟨0, 2, 4⟩, ⟨1, 2, 4⟩⟩, ⟨100, ⟨2, 2, 4⟩, ⟨3, 2, 4⟩⟩]⟩

/-- One meter each second up to 2. -/
def oneASecond : trajectory.Trajectory ℚ :=
  ((trajectory.newTrajectory 0 10).addManeuver
    (.longitudinal (.single .steadySpeed ⟨0, 2, 1, 1⟩))).2

/-- A message from ten meters down the road on. -/
def tenMetersOn : TrajectoryMsg := ⟨⟨1000, 0, 0, 0⟩, []⟩

def shortPath : List (trajectory_converter.PathPoint ℚ) :=
  (trajectory_converter.convertFrom trajectory_converter.ratSqrt shortSegments threeASecond
    trajectory_converter.roadStart.point 10).getD []

/-- The path of the message when the vehicle is at the start of the road. -/
def messagePath : List (RoutePoint ℚ) := (messageToPath flatRoad tenMetersOn 0 0).getD []

/-- The path of the trajectory on the first of the two lanes. -/
def lanePath : List (trajectory_converter.PathPoint ℚ) :=
  (trajectory_converter.convertFrom trajectory_converter.ratSqrt changedLanes oneASecond
    trajectory_converter.roadStart.point 10).getD []

theorem short_paths_are_told_exactly :
    ((∀ p ∈ shortPath, trajectory_converter.PointTold shortSegments.route p) ↔
        trajectory_converter.PathNear trajectory_converter.ratSqrt shortSegments threeASecond
          trajectory_converter.roadStart.point 10) ∧
      ((∀ p ∈ lanePath, trajectory_converter.PointTold changedLanes.route p) ↔
        trajectory_converter.PathNear trajectory_converter.ratSqrt changedLanes oneASecond
          trajectory_converter.roadStart.point 10) ∧
      ((∀ p ∈ messagePath, PointTold flatRoad p) ↔ MessageNear flatRoad tenMetersOn 0 0) := by
  obtain ⟨hpath, hmessage⟩ := places_are_told_exactly trajectory_converter.ratSqrt shortSegments
    threeASecond trajectory_converter.roadStart.point 10 flatRoad tenMetersOn 0 0
  obtain ⟨hlane, -⟩ := places_are_told_exactly trajectory_converter.ratSqrt changedLanes
    oneASecond trajectory_converter.roadStart.point 10 flatRoad tenMetersOn 0 0
  exact ⟨hpath shortPath (by decide +kernel), hlane lanePath (by decide +kernel),
    hmessage messagePath (by decide +kernel)⟩

/-- After one step over both short segments, the second point is two meters into the second one,
which is one meter long. And the first point of the message is ten meters down the road, at zero
meters of its segment. -/
theorem a_step_over_two_segments_is_told_wrong :
    (¬ ∀ path, trajectory_converter.convertFrom trajectory_converter.ratSqrt shortSegments
        threeASecond trajectory_converter.roadStart.point 10 = some path →
        ∀ p ∈ path, trajectory_converter.PointTold shortSegments.route p) ∧
      ¬ ∀ path, messageToPath flatRoad tenMetersOn 0 0 = some path →
        ∀ p ∈ path, PointTold flatRoad p := by
  constructor
  · intro hall
    obtain ⟨place, done, -, hdone, htold⟩ := hall shortPath (by decide +kernel)
      ⟨Dbl.fin 3, Dbl.fin 0, 1, 1, Dbl.fin 2⟩ (by decide +kernel)
    obtain rfl := Dbl.fin.inj hdone
    exact absurd (htold.within.inside (by decide) 1 rfl) (by decide +kernel)
  · intro hall
    have htold := hall messagePath (by decide +kernel) ⟨10, 0, 0, 0, 0⟩ (by decide +kernel)
    exact absurd htold.place_eq (by decide +kernel)

end carma.path_messages
