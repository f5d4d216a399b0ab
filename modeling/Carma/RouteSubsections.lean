-- What a subsection of a route spans, and which segment of a list a point is considered in:
-- the two searches of `Route`, each against what it searches for.
import Carma.RouteSearch
import Mathlib.Tactic.Abel

namespace carma.route_node

/-! ## How far a subsection reaches -/

section around

variable {K F : Type} [LinearOrder K] [Field K]

omit [LinearOrder K] in
theorem calculateLength_cons (seg : RouteSegment K F) (segs : List (RouteSegment K F)) :
    calculateLength (seg :: segs) = seg.length + calculateLength segs := by
  unfold calculateLength
  rw [List.map_cons, List.sum_cons]

omit [LinearOrder K] in
theorem calculateLength_reverse (segs : List (RouteSegment K F)) :
    calculateLength segs.reverse = calculateLength segs := by
  unfold calculateLength
  rw [List.map_reverse, List.sum_reverse]

/-- A loop takes the first segments, as few as go past the bound. -/
theorem within_eq_take (bound distance : K) (segs : List (RouteSegment K F)) :
    ∃ k ≤ segs.length, within bound distance segs = segs.take k ∧
      (k = segs.length ∨ distance + calculateLength (segs.take k) > bound) ∧
      ∀ j < k, distance + calculateLength (segs.take j) ≤ bound := by
  induction segs generalizing distance with
  | nil => exact ⟨0, le_rfl, rfl, Or.inl rfl, fun j hj => absurd hj (Nat.not_lt_zero j)⟩
  | cons seg segs ih =>
    unfold within
    by_cases hpast : distance > bound
    · refine ⟨0, Nat.zero_le _, if_pos hpast, Or.inr ?_, fun j hj => absurd hj (Nat.not_lt_zero j)⟩
      rw [List.take_zero, calculateLength, List.map_nil, List.sum_nil, add_zero]
      exact hpast
    · obtain ⟨k, hk, htake, hend, hbefore⟩ := ih (distance + seg.length)
      refine ⟨k + 1, Nat.succ_le_succ hk, ?_, ?_, ?_⟩
      · rw [if_neg hpast, htake, List.take_succ_cons]
      · rw [List.take_succ_cons, calculateLength_cons, ← add_assoc, List.length_cons]
        exact hend.imp (congrArg (· + 1)) id
      · intro j hj
        cases j with
        | zero =>
          rw [List.take_zero, calculateLength, List.map_nil, List.sum_nil, add_zero]
          exact not_lt.mp hpast
        | succ j =>
          rw [List.take_succ_cons, calculateLength_cons, ← add_assoc]
          exact hbefore j (Nat.lt_of_succ_lt_succ hj)

/-- From the start in its segment, how far the segments reach back that begin at index `lo`. -/
def Route.reachBackward (route : Route K F) (startingIndex : ℕ) (segmentDowntrack : K) (lo : ℕ) : K :=
  segmentDowntrack + calculateLength ((route.segments.take startingIndex).drop lo)

/-- How far the segments reach ahead that end with index `hi`. -/
def Route.reachForward (route : Route K F) (startingIndex : ℕ) (segmentDowntrack : K) (hi : ℕ) : K :=
  calculateLength ((route.segments.take (hi + 1)).drop startingIndex) - segmentDowntrack

/-- The segments from index `lo` to index `hi`, with the start among them. On each side they
reach far enough or to the end of the route, and would not do so with fewer. -/
structure SpansAround (enough : K → K → Prop) (route : Route K F) (startingIndex : ℕ)
    (segmentDowntrack distBackward distForward : K) (subList : List (RouteSegment K F))
    (lo hi : ℕ) : Prop where
  start_le : lo ≤ startingIndex
  le_end : startingIndex ≤ hi
  inRoute : hi < route.segments.length
  inOrder : subList = (route.segments.take (hi + 1)).drop lo
  backward : lo = 0 ∨ enough (route.reachBackward startingIndex segmentDowntrack lo) distBackward
  forward : hi + 1 = route.segments.length ∨
    enough (route.reachForward startingIndex segmentDowntrack hi) distForward
  notBackward : ∀ i, lo < i → i ≤ startingIndex →
    ¬ enough (route.reachBackward startingIndex segmentDowntrack i) distBackward
  notForward : ∀ i, startingIndex ≤ i → i < hi →
    ¬ enough (route.reachForward startingIndex segmentDowntrack i) distForward

/-- Two parts of a list that meet are one part of it. -/
theorem drop_take_append {α : Type} (l : List α) {lo mid hi : ℕ} (hlo : lo ≤ mid) (hmid : mid ≤ hi)
    (hlen : mid ≤ l.length) :
    (l.take mid).drop lo ++ (l.take hi).drop mid = (l.take hi).drop lo := by
  have htake : l.take mid = (l.take hi).take mid := by rw [List.take_take, min_eq_left hmid]
  have hle : lo ≤ ((l.take hi).take mid).length := by
    rw [← htake, List.length_take, min_eq_left hlen]
    exact hlo
  rw [htake, ← List.drop_append_of_le_length hle, List.take_append_drop]

/-- The segments behind the start. -/
theorem behind_eq (route : Route K F) {startingIndex : ℕ}
    (h : startingIndex ≤ route.segments.length) (segmentDowntrack distBackward : K) :
    ∃ lo ≤ startingIndex,
      (within distBackward segmentDowntrack (route.segments.take startingIndex).reverse).reverse =
        (route.segments.take startingIndex).drop lo ∧
      (lo = 0 ∨ route.reachBackward startingIndex segmentDowntrack lo > distBackward) ∧
      ∀ i, lo < i → i ≤ startingIndex →
        route.reachBackward startingIndex segmentDowntrack i ≤ distBackward := by
  have hlen : (route.segments.take startingIndex).reverse.length = startingIndex := by
    rw [List.length_reverse, List.length_take, min_eq_left h]
  have hpart : ∀ k ≤ startingIndex, (route.segments.take startingIndex).reverse.take k =
      ((route.segments.take startingIndex).drop (startingIndex - k)).reverse := by
    intro k hk
    rw [List.take_reverse, List.length_take, min_eq_left h]
  have hreach : ∀ k ≤ startingIndex, segmentDowntrack +
      calculateLength ((route.segments.take startingIndex).reverse.take k) =
        route.reachBackward startingIndex segmentDowntrack (startingIndex - k) := by
    intro k hk
    rw [hpart k hk, calculateLength_reverse]
    rfl
  obtain ⟨k, hk, htake, hend, hbefore⟩ := within_eq_take distBackward segmentDowntrack
    (route.segments.take startingIndex).reverse
  rw [hlen] at hk hend
  refine ⟨startingIndex - k, Nat.sub_le _ _, ?_, ?_, ?_⟩
  · rw [htake, hpart k hk, List.reverse_reverse]
  · rw [hreach k hk] at hend
    exact hend.imp (fun hall => by omega) id
  · intro i hlo hi
    have hback := hbefore (startingIndex - i) (by omega)
    rwa [hreach _ (Nat.sub_le _ _), Nat.sub_sub_self hi] at hback

/-- The segments ahead of the start. -/
theorem ahead_eq (route : Route K F) {startingIndex : ℕ} {seg : RouteSegment K F}
    (h : route.segments[startingIndex]? = some seg) (segmentDowntrack distForward : K) :
    ∃ hi, startingIndex ≤ hi ∧ hi < route.segments.length ∧
      seg :: within distForward (seg.length - segmentDowntrack)
          (route.segments.drop (startingIndex + 1)) =
        (route.segments.take (hi + 1)).drop startingIndex ∧
      (hi + 1 = route.segments.length ∨
        route.reachForward startingIndex segmentDowntrack hi > distForward) ∧
      ∀ i, startingIndex ≤ i → i < hi →
        route.reachForward startingIndex segmentDowntrack i ≤ distForward := by
  obtain ⟨hlt, hget⟩ := List.getElem?_eq_some_iff.mp h
  have hpart : ∀ k, (route.segments.take (startingIndex + k + 1)).drop startingIndex =
      seg :: (route.segments.drop (startingIndex + 1)).take k := by
    intro k
    rw [List.drop_take, show startingIndex + k + 1 - startingIndex = k + 1 by omega,
      List.drop_eq_getElem_cons hlt, hget, List.take_succ_cons]
  have hreach : ∀ k, seg.length - segmentDowntrack +
      calculateLength ((route.segments.drop (startingIndex + 1)).take k) =
        route.reachForward startingIndex segmentDowntrack (startingIndex + k) := by
    intro k
    unfold Route.reachForward
    rw [hpart k, calculateLength_cons]
    abel
  obtain ⟨k, hk, htake, hend, hbefore⟩ := within_eq_take distForward (seg.length - segmentDowntrack)
    (route.segments.drop (startingIndex + 1))
  rw [List.length_drop] at hk hend
  refine ⟨startingIndex + k, Nat.le_add_right _ _, by omega, ?_, ?_, ?_⟩
  · rw [htake, hpart k]
  · rw [hreach k] at hend
    exact hend.imp (fun hall => by omega) id
  · intro i hi hlt
    have hahead := hbefore (i - startingIndex) (by omega)
    rwa [hreach, Nat.add_sub_cancel' hi] at hahead

/-- A subsection spans the distances strictly: it goes on where a bound is just reached, and
ends where the bound is passed. -/
theorem a_subsection_passes_both_bounds (route : Route K F) (startingIndex : ℕ)
    (h : startingIndex < route.segments.length) (segmentDowntrack distBackward distForward : K) :
    ∃ lo hi, SpansAround (· > ·) route startingIndex segmentDowntrack distBackward distForward
      (route.findRouteSubsection startingIndex segmentDowntrack distBackward distForward) lo hi := by
  have hget := List.getElem?_eq_getElem h
  obtain ⟨lo, hlo, hbehind, hback, hnotBack⟩ := behind_eq route h.le segmentDowntrack distBackward
  obtain ⟨hi, hle, hin, hahead, hahd, hnotAhd⟩ := ahead_eq route hget segmentDowntrack distForward
  refine ⟨lo, hi, hlo, hle, hin, ?_, hback, hahd, ?_, ?_⟩
  · unfold Route.findRouteSubsection
    rw [if_neg (not_lt.mpr (Int.natCast_nonneg _)), Int.toNat_natCast, hget]
    dsimp only
    rw [List.reverse_cons, hbehind, List.append_assoc, List.singleton_append, hahead]
    exact drop_take_append _ hlo (by omega) h.le
  · exact fun i hlt hstart => not_lt.mpr (hnotBack i hlt hstart)
  · exact fun i hstart hlt => not_lt.mpr (hnotAhd i hstart hlt)

end around

/-- Three segments of ten metres each. -/
def threeTens : Route ℚ ℚ :=
  newRoute flatEarth [flatWaypoint 0 0, flatWaypoint 10 0, flatWaypoint 20 0, flatWaypoint 30 0]
    "three_tens" "Three Tens"

theorem a_subsection_of_three_tens :
    2 < threeTens.segments.length ∧ ∃ lo hi, SpansAround (· > ·) threeTens 2 0 10 10
      (threeTens.findRouteSubsection 2 0 10 10) lo hi :=
  ⟨by decide +kernel, a_subsection_passes_both_bounds threeTens 2 (by decide +kernel) 0 10 10⟩

/-- Ten metres back from the start of the last segment is all of the one before it, and yet the
subsection has the first segment too. -/
theorem a_bound_that_is_just_reached_takes_one_segment_more :
    ¬ ∃ lo hi, SpansAround (· ≥ ·) threeTens 2 0 10 10
      (threeTens.findRouteSubsection 2 0 10 10) lo hi := by
  rintro ⟨lo, hi, h⟩
  have hsegments : threeTens.segments.length = 3 := by decide +kernel
  have hall : (threeTens.findRouteSubsection 2 0 10 10).length = 3 := by decide +kernel
  have hhi := h.inRoute
  have hlo : lo = 0 := by
    rw [h.inOrder, List.length_drop, List.length_take] at hall
    omega
  have hreach : threeTens.reachBackward 2 0 1 = 10 := by decide +kernel
  exact h.notBackward 1 (by omega) (by omega) (by rw [hreach])

/-! ## The segment of a point -/

section point

variable {K P F : Type} [LinearOrder K] [Field K]

def RouteSegment.maxCrosstrackAllowed (seg : RouteSegment K F) : K :=
  max |seg.downtrackWP.minCrossTrack| |seg.downtrackWP.maxCrossTrack|

def RouteSegment.allowsCrosstrack (geo : Geodesy K P F) (point : P) (seg : RouteSegment K F) : Bool :=
  decide (|seg.crossTrackDistance geo point| ≤ seg.maxCrosstrackAllowed)

/-- The segments whose range along the track, extended back by the crosstrack that is allowed
before them, has the point in it. -/
def inExtendedRange (geo : Geodesy K P F) (point : P) :
    K → List (RouteSegment K F) → List (RouteSegment K F)
  | _, [] => []
  | prevMaxCrosstrack, seg :: segs =>
    let rest := inExtendedRange geo point seg.maxCrosstrackAllowed segs
    if -prevMaxCrosstrack < seg.downTrackDistance geo point ∧
      seg.downTrackDistance geo point ≤ seg.length then seg :: rest else rest

def inExtendedBox (geo : Geodesy K P F) (point : P) (segments : List (RouteSegment K F)) :
    List (RouteSegment K F) :=
  (inExtendedRange geo point 0 segments).filter (RouteSegment.allowsCrosstrack geo point)

/-- The segments that the point is beside, from their start to their end. -/
def inOwnRange (geo : Geodesy K P F) (point : P) (segments : List (RouteSegment K F)) :
    List (RouteSegment K F) :=
  segments.filter fun seg => decide (0 ≤ seg.downTrackDistance geo point) &&
    decide (seg.downTrackDistance geo point ≤ seg.length)

/-- The first of the segments whose box has the point; without one the first of those in whose
range it is, and without that the first of all. -/
def FirstListed (geo : Geodesy K P F) (point : P) (segments inRange : List (RouteSegment K F)) :
    Prop :=
  routeSegmentOfPoint geo point segments =
    ((inExtendedBox geo point segments).head?.or inRange.head?).or segments.head?

/-- The search stops at the first box; without one it keeps the last segment in range. -/
theorem searchSegment_eq (geo : Geodesy K P F) (point : P) (prevMaxCrosstrack : K)
    (bestSegment : RouteSegment K F) (segs : List (RouteSegment K F)) :
    some (searchSegment geo point prevMaxCrosstrack bestSegment segs) =
      (((inExtendedRange geo point prevMaxCrosstrack segs).filter
          (RouteSegment.allowsCrosstrack geo point)).head?.or
        (inExtendedRange geo point prevMaxCrosstrack segs).getLast?).or (some bestSegment) := by
  induction segs generalizing prevMaxCrosstrack bestSegment with
  | nil => rfl
  | cons seg segs ih =>
    unfold searchSegment inExtendedRange
    dsimp only
    by_cases hrange : -prevMaxCrosstrack < seg.downTrackDistance geo point ∧
        seg.downTrackDistance geo point ≤ seg.length
    · rw [if_pos hrange, if_pos hrange]
      by_cases hcross : seg.allowsCrosstrack geo point = true
      · rw [List.filter_cons_of_pos hcross]
        exact congrArg some (if_pos (of_decide_eq_true hcross))
      · rw [List.filter_cons_of_neg hcross]
        refine (congrArg some (if_neg (fun h => hcross (decide_eq_true h)))).trans
          ((ih seg.maxCrosstrackAllowed seg).trans ?_)
        cases inExtendedRange geo point seg.maxCrosstrackAllowed segs with
        | nil => rfl
        | cons next rest =>
          rw [List.getLast?_cons_cons, List.getLast?_cons]
          cases ((next :: rest).filter (RouteSegment.allowsCrosstrack geo point)).head? <;> rfl
    · rw [if_neg hrange, if_neg hrange]
      exact ih _ bestSegment

theorem firstListed_iff (geo : Geodesy K P F) (point : P)
    (segments inRange : List (RouteSegment K F)) :
    FirstListed geo point segments inRange ↔ inExtendedBox geo point segments ≠ [] ∨
      (inExtendedRange geo point 0 segments).getLast?.or segments.head? =
        inRange.head?.or segments.head? := by
  have hfound : routeSegmentOfPoint geo point segments =
      ((inExtendedBox geo point segments).head?.or
        (inExtendedRange geo point 0 segments).getLast?).or segments.head? := by
    cases segments with
    | nil => rfl
    | cons seg segs => exact searchSegment_eq geo point 0 seg (seg :: segs)
  unfold FirstListed
  rw [hfound]
  cases inExtendedBox geo point segments with
  | nil =>
    rw [List.head?_nil, Option.none_or, Option.none_or]
    exact (or_iff_right (fun h => h rfl)).symm
  | cons seg segs => exact iff_of_true rfl (Or.inl (List.cons_ne_nil seg segs))

/-- A point that is in no box gets the last segment in range. That is the first one only where
they are the same, whether the range is the extended one or the segment's own. -/
theorem a_point_gets_the_first_segment_unless_a_later_one_is_beside_it (geo : Geodesy K P F)
    (point : P) (segments : List (RouteSegment K F)) :
    (FirstListed geo point segments (inExtendedRange geo point 0 segments) ↔
      inExtendedBox geo point segments ≠ [] ∨
        (inExtendedRange geo point 0 segments).getLast? =
          (inExtendedRange geo point 0 segments).head?) ∧
    (FirstListed geo point segments (inOwnRange geo point segments) ↔
      inExtendedBox geo point segments ≠ [] ∨
        (inExtendedRange geo point 0 segments).getLast?.or segments.head? =
          (inOwnRange geo point segments).head?.or segments.head?) := by
  refine ⟨(firstListed_iff geo point segments _).trans (or_congr_right ?_),
    firstListed_iff geo point segments _⟩
  cases hrange : inExtendedRange geo point 0 segments with
  | nil => exact iff_of_true rfl rfl
  | cons seg segs =>
    rw [List.getLast?_cons, List.head?_cons, Option.some_or, Option.some_or]

end point

/-- A plane, for lines along one of its axes. The frame of a segment is its start and its
direction. -/
def planeEarth : Geodesy ℚ (ℚ × ℚ) ((ℚ × ℚ) × (ℚ × ℚ)) where
  geodesic2Cartesian loc := (loc.latitude, loc.longitude)
  cartesian2Geodesic p := ⟨p.1, p.2, 0⟩
  lineLength a b := |b.1 - a.1| + |b.2 - a.2|
  projectOntoLine a b p := if a.2 = b.2 then (p.1, a.2) else (a.1, p.2)
  segmentFrame a b :=
    let length := |b.1 - a.1| + |b.2 - a.2|
    (a, ((b.1 - a.1) / length, (b.2 - a.2) / length))
  xInFrame frame p := frame.2.1 * (p.1 - frame.1.1) + frame.2.2 * (p.2 - frame.1.2)
  yInFrame frame p := frame.2.1 * (p.2 - frame.1.2) - frame.2.2 * (p.1 - frame.1.1)

/-- A hundred metres there and a hundred back, forty metres beside. -/
def thereAndBack : Route ℚ ((ℚ × ℚ) × (ℚ × ℚ)) :=
  newRoute planeEarth ([⟨0, 0, 0⟩, ⟨100, 0, 0⟩, ⟨100, 40, 0⟩, ⟨0, 40, 0⟩].map newRouteWaypoint)
    "there_and_back" "There and Back"

theorem a_point_between_the_lines_gets_the_way_back :
    ¬ FirstListed planeEarth (50, 20) thereAndBack.segments
        (inExtendedRange planeEarth (50, 20) 0 thereAndBack.segments) ∧
      ¬ FirstListed planeEarth (50, 20) thereAndBack.segments
        (inOwnRange planeEarth (50, 20) thereAndBack.segments) := by
  refine ⟨fun h => ?_, fun h => ?_⟩
  · have hside := congrArg (Option.map fun seg => seg.uptrackWP.location.longitude) h
    revert hside
    decide +kernel
  · have hside := congrArg (Option.map fun seg => seg.uptrackWP.location.longitude) h
    revert hside
    decide +kernel

end carma.route_node
