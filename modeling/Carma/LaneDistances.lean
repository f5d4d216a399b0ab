-- The distances of a lane are those of the closest place on the segments at the nearest node,
-- and of the closest place of the whole lane when that place is on one of them.
import Carma.LaneGeometry
import Mathlib.Analysis.Complex.Trigonometric
import Mathlib.Analysis.Real.Sqrt
import Mathlib.Tactic.IntervalCases

open carma.asd carma.ead.intersection_geometry lib.narrowing lib.polylines

namespace carma.ead.lane_geometry

variable {K : Type} [Field K] [LinearOrder K]

/-! ## Points and segments as pairs -/

omit [Field K] [LinearOrder K] in
theorem CartesianPoint2D.pair_injective {p q : CartesianPoint2D K} (h : p.pair = q.pair) :
    p = q := by
  cases p
  cases q
  simp_all [CartesianPoint2D.pair]

namespace LineSegment2D

omit [Field K] [LinearOrder K] in
theorem pairs_apart (s : LineSegment2D K) : s.p0.pair ≠ s.p1.pair := by
  intro h
  exact s.apart (CartesianPoint2D.pair_injective h)

omit [LinearOrder K] in
/-- Where the perpendicular from a point meets the line of a segment. -/
def footOf (s : LineSegment2D K) (p : CartesianPoint2D K) : K :=
  foot s.p0.pair s.p1.pair p.pair

variable [IsStrictOrderedRing K] {sqrt : K → K} (hroot : IsRoot sqrt)

include hroot

theorem magV2_eq (s : LineSegment2D K) : s.magV2 sqrt = sqDist s.p0.pair s.p1.pair :=
  hroot.mul_self _ (sqDist_nonneg s.p0.pair s.p1.pair)

theorem extended_pair (s : LineSegment2D K) (p : CartesianPoint2D K) :
    (s.translateToExtendedSegment sqrt p).pair = along s.p0.pair s.p1.pair (s.footOf p) := by
  unfold translateToExtendedSegment
  rw [magV2_eq hroot]
  rfl

theorem extended_distance (s : LineSegment2D K) (p : CartesianPoint2D K) :
    s.shortestDistanceToPointExtendedSegment sqrt p =
      sqrt (sqDist p.pair (along s.p0.pair s.p1.pair (s.footOf p))) := by
  rw [sqDist_comm, ← extended_pair hroot]
  rfl

theorem dotProd_inside (s : LineSegment2D K) (p : CartesianPoint2D K) :
    (0 ≤ s.dotProd p ↔ 0 ≤ s.footOf p) ∧ (s.dotProd p ≤ s.magV2 sqrt ↔ s.footOf p ≤ 1) := by
  have hpos := sqDist_pos s.pairs_apart
  have hfoot : s.footOf p = s.dotProd p / sqDist s.p0.pair s.p1.pair := rfl
  rw [hfoot, magV2_eq hroot, le_div_iff₀ hpos, zero_mul, div_le_one hpos]
  exact ⟨Iff.rfl, Iff.rfl⟩

theorem shortest_eq (s : LineSegment2D K) (p : CartesianPoint2D K) :
    s.shortestDistanceToPoint sqrt p = if 0 ≤ s.footOf p ∧ s.footOf p ≤ 1 then
      sqrt (sqDist p.pair (along s.p0.pair s.p1.pair (s.footOf p))) else -1 := by
  obtain ⟨hlow, hhigh⟩ := s.dotProd_inside hroot p
  unfold shortestDistanceToPoint
  simp only [← hlow, ← hhigh, ← extended_distance hroot]
  by_cases h0 : 0 ≤ s.dotProd p
  · by_cases h1 : s.dotProd p ≤ s.magV2 sqrt
    · rw [if_neg (not_lt.mpr h0), if_neg (not_lt.mpr h1), if_pos ⟨h0, h1⟩]
      rfl
    · simp [h1, not_le.mp h1]
  · simp [h0, not_le.mp h0]

/-- A distance is found just where the perpendicular falls inside. -/
theorem shortest_nonneg_iff (s : LineSegment2D K) (p : CartesianPoint2D K) :
    0 ≤ s.shortestDistanceToPoint sqrt p ↔ 0 ≤ s.footOf p ∧ s.footOf p ≤ 1 := by
  rw [shortest_eq hroot]
  constructor
  · intro h
    by_contra hout
    rw [if_neg hout] at h
    linarith
  · intro hin
    rw [if_pos hin]
    exact hroot.nonneg _ (sqDist_nonneg _ _)

theorem translateTo_eq (s : LineSegment2D K) (p : CartesianPoint2D K)
    (hin : 0 ≤ s.footOf p ∧ s.footOf p ≤ 1) :
    s.translateTo sqrt p = some (s.translateToExtendedSegment sqrt p) := by
  obtain ⟨hlow, hhigh⟩ := s.dotProd_inside hroot p
  unfold translateTo
  rw [if_pos (hlow.mpr hin.1), if_pos (hhigh.mpr hin.2)]

end LineSegment2D

/-! ## The loops -/

/-- The first of the least distances before a number. -/
def Least (dist : ℕ → K) (i : ℕ) (best : Option (ℕ × K)) : Prop :=
  (best = none → i = 0) ∧ ∀ n d, best = some (n, d) →
    n < i ∧ d = dist n ∧ (∀ j < i, dist n ≤ dist j) ∧ ∀ j < n, dist n < dist j

omit [Field K] in
/-- One turn of the loop. -/
theorem Least.next {dist : ℕ → K} {i : ℕ} {best : Option (ℕ × K)} (h : Least dist i best) :
    Least dist (i + 1) (match best with
      | none => some (i, dist i)
      | some (n, d) => if dist i < d then some (i, dist i) else some (n, d)) := by
  cases best with
  | none =>
    obtain rfl := h.1 rfl
    refine ⟨by simp, ?_⟩
    intro n d heq
    obtain ⟨rfl, rfl⟩ := Prod.mk.inj (Option.some.inj heq)
    simp
  | some best =>
    obtain ⟨closestNode, minDist⟩ := best
    obtain ⟨hn, hd, hle, hlt⟩ := h.2 closestNode minDist rfl
    refine ⟨by dsimp only; split <;> simp, ?_⟩
    intro n d heq
    dsimp only at heq
    split at heq
    · rename_i hless
      obtain ⟨rfl, rfl⟩ := Prod.mk.inj (Option.some.inj heq)
      rw [hd] at hless
      have hall : ∀ j < i, dist i < dist j := fun j hj => hless.trans_le (hle j hj)
      refine ⟨lt_add_one i, rfl, ?_, hall⟩
      intro j hj
      rcases Nat.lt_succ_iff_lt_or_eq.mp hj with hj | rfl
      · exact (hall j hj).le
      · exact le_rfl
    · rename_i hless
      obtain ⟨rfl, rfl⟩ := Prod.mk.inj (Option.some.inj heq)
      refine ⟨hn.trans (lt_add_one i), hd, ?_, hlt⟩
      intro j hj
      rcases Nat.lt_succ_iff_lt_or_eq.mp hj with hj | rfl
      · exact hle j hj
      · rw [← hd]
        exact not_lt.mp hless

theorem closer_least (sqrt : K → K) (vehicle : CartesianPoint2D K) (dist : ℕ → K) :
    ∀ (points : List (CartesianPoint2D K)) (i : ℕ) (best : Option (ℕ × K)), Least dist i best →
      (∀ j p, points[j]? = some p → p.distanceFrom sqrt vehicle = dist (i + j)) →
      Least dist (i + points.length) (closer sqrt vehicle i best points)
  | [], _, _, h, _ => by
    unfold closer
    exact h
  | p :: ps, i, best, h, hdist => by
    have hhere : p.distanceFrom sqrt vehicle = dist i := hdist 0 p rfl
    have hrest : ∀ j q, ps[j]? = some q → q.distanceFrom sqrt vehicle = dist (i + 1 + j) := by
      intro j q hq
      rw [Nat.add_right_comm]
      exact hdist (j + 1) q hq
    have hlen : i + (p :: ps).length = i + 1 + ps.length := by
      rw [List.length_cons]
      omega
    have hnext := closer_least sqrt vehicle dist ps (i + 1) _ h.next hrest
    rw [hlen]
    cases best <;> simpa [closer, hhere] using hnext

omit [LinearOrder K] in
/-- The loop adds up the lengths between the points. -/
theorem sumTo_eq (sqrt : K → K) : ∀ (rest : List (CartesianPoint2D K))
    (first : CartesianPoint2D K) (sum : K) (n : ℕ), n ≤ rest.length →
    sumTo sqrt sum first (rest.take n) = sum + ∑ j ∈ Finset.range n,
      ((first :: rest).getD j ⟨0, 0⟩).distanceFrom sqrt ((first :: rest).getD (j + 1) ⟨0, 0⟩)
  | rest, first, sum, 0, _ => by simp [sumTo]
  | [], _, _, n + 1, h => by simp at h
  | next :: rest, first, sum, n + 1, h => by
    have hrest := sumTo_eq sqrt rest next (sum + first.distanceFrom sqrt next) n
      (Nat.le_of_succ_le_succ h)
    rw [List.take_succ_cons, sumTo, hrest, Finset.sum_range_succ', add_assoc, add_comm (∑ _ ∈ _, _)]
    rfl

/-! ## The lane as a line of segments -/

namespace LaneGeometry

omit [LinearOrder K] in
def node (g : LaneGeometry K) (i : ℕ) : CartesianPoint2D K := g.points.getD i ⟨0, 0⟩

variable {g : LaneGeometry K} {i : ℕ}

omit [LinearOrder K] in
theorem getElem?_node (h : i < g.points.length) : g.points[i]? = some (g.node i) := by
  simp [node, h]

omit [Field K] [LinearOrder K] in
theorem segments_length (g : LaneGeometry K) : g.segments.length = g.points.length - 1 := by
  have hlen := congrArg List.length g.joined
  rw [List.length_map, List.length_zip, List.length_tail] at hlen
  omega

omit [LinearOrder K] in
/-- The two nodes of a segment of the lane. -/
def Joins (g : LaneGeometry K) (s : LineSegment2D K) (i : ℕ) : Prop :=
  s.p0 = g.node i ∧ s.p1 = g.node (i + 1)

omit [LinearOrder K] in
theorem segment_at (h : i + 1 < g.points.length) :
    ∃ s, g.segments[i]? = some s ∧ g.Joins s i := by
  have hseg : i < g.segments.length := by
    rw [segments_length]
    omega
  have hat := congrArg (·[i]?) g.joined
  have htail : g.points.tail[i]? = some (g.node (i + 1)) := by
    rw [List.getElem?_tail]
    exact getElem?_node h
  have hzip : (g.points.zip g.points.tail)[i]? = some (g.node i, g.node (i + 1)) :=
    List.getElem?_zip_eq_some.mpr ⟨getElem?_node (Nat.lt_of_succ_lt h), htail⟩
  rw [hzip, List.getElem?_map] at hat
  obtain ⟨s, hs, hends⟩ := Option.map_eq_some_iff.mp hat
  exact ⟨s, hs, congrArg Prod.fst hends, congrArg Prod.snd hends⟩

omit [LinearOrder K] in
theorem node_apart (h : i + 1 < g.points.length) : g.node i ≠ g.node (i + 1) := by
  obtain ⟨s, hs, h0, h1⟩ := segment_at h
  rw [← h0, ← h1]
  exact s.apart

omit [LinearOrder K] in
/-- The nodes of a lane with two or more of them. -/
def centerline (g : LaneGeometry K) (h : 2 ≤ g.points.length) : Polyline K where
  node i := (g.node i).pair
  segments := g.points.length - 1
  pos := by omega
  apart i hi := by
    intro heq
    exact node_apart (by omega) (CartesianPoint2D.pair_injective heq)

omit [LinearOrder K] in
/-- What the loop for the downtrack distance gives. -/
theorem downtrack_eq (sqrt : K → K) (h : 2 ≤ g.points.length) (hi : i < g.points.length) :
    g.downtrack sqrt i = (g.centerline h).upTo sqrt i := by
  have hnode : ∀ j, g.node j = g.points.getD j ⟨0, 0⟩ := fun _ => rfl
  unfold downtrack Polyline.upTo centerline
  simp only [hnode]
  cases hpoints : g.points with
  | nil => simp [hpoints] at hi
  | cons first rest =>
    rw [hpoints, List.length_cons] at hi
    have hsum := sumTo_eq sqrt rest first 0 i (Nat.le_of_lt_succ hi)
    rw [zero_add] at hsum
    exact hsum

theorem segmentFrom_joins (hi : i + 1 < g.points.length) :
    ∃ s, g.segmentFrom i = some s ∧ g.Joins s i := by
  refine ⟨⟨g.node i, g.node (i + 1), node_apart hi⟩, ?_, rfl, rfl⟩
  unfold segmentFrom
  rw [getElem?_node (by omega), getElem?_node hi, Option.bind_some, Option.bind_some,
    LineSegment2D.new_of_apart]

theorem adjacent_cases (there : Bool) (hi : there = true → i + 1 < g.points.length) :
    ∃ o, g.adjacent there i = some o ∧ (there = true → ∃ s, o = some s ∧ g.Joins s i) ∧
      (there = false → o = none) := by
  cases there with
  | false => exact ⟨none, rfl, by simp, fun _ => rfl⟩
  | true =>
    obtain ⟨s, hs, hjoins⟩ := g.segmentFrom_joins (hi rfl)
    exact ⟨some s, by simp [adjacent, hs], fun _ => ⟨s, rfl, hjoins⟩, by simp⟩

variable {s : LineSegment2D K} {v : CartesianPoint2D K} {k : ℕ}

omit [LinearOrder K] in
theorem Joins.foot_eq (hs : g.Joins s i) (h : 2 ≤ g.points.length) :
    s.footOf v = (g.centerline h).footAt v.pair i := by
  unfold LineSegment2D.footOf
  rw [hs.1, hs.2]
  rfl

variable [IsStrictOrderedRing K] {sqrt : K → K} (hroot : IsRoot sqrt)

include hroot

/-- The base of the perpendicular is a place of the lane. -/
theorem Joins.extended_eq (hs : g.Joins s i) (h : 2 ≤ g.points.length) :
    (s.translateToExtendedSegment sqrt v).pair =
      (g.centerline h).place i ((g.centerline h).footAt v.pair i) := by
  rw [LineSegment2D.extended_pair hroot, hs.foot_eq h, hs.1, hs.2]
  rfl

theorem Joins.extended_distance (hs : g.Joins s i) (h : 2 ≤ g.points.length) :
    s.shortestDistanceToPointExtendedSegment sqrt v = sqrt (sqDist v.pair
      ((g.centerline h).place i ((g.centerline h).footAt v.pair i))) := by
  rw [LineSegment2D.extended_distance hroot, ← LineSegment2D.extended_pair hroot,
    hs.extended_eq hroot h]

/-- How far a node is from the base of the perpendicular. -/
theorem Joins.node_distance (hs : g.Joins s i) (h : 2 ≤ g.points.length) (n : ℕ) :
    (g.node n).distanceFrom sqrt (s.translateToExtendedSegment sqrt v) =
      sqrt (sqDist ((g.centerline h).node n)
        ((g.centerline h).place i ((g.centerline h).footAt v.pair i))) := by
  rw [← hs.extended_eq hroot h]
  rfl

theorem Joins.shortest_nonneg_iff (hs : g.Joins s i) (h : 2 ≤ g.points.length) :
    0 ≤ s.shortestDistanceToPoint sqrt v ↔
      0 ≤ (g.centerline h).footAt v.pair i ∧ (g.centerline h).footAt v.pair i ≤ 1 := by
  rw [LineSegment2D.shortest_nonneg_iff hroot, hs.foot_eq h]

theorem Joins.shortest_eq (hs : g.Joins s i) (h : 2 ≤ g.points.length)
    (hin : 0 ≤ (g.centerline h).footAt v.pair i ∧ (g.centerline h).footAt v.pair i ≤ 1) :
    s.shortestDistanceToPoint sqrt v = sqrt (sqDist v.pair
      ((g.centerline h).place i ((g.centerline h).footAt v.pair i))) := by
  rw [← hs.foot_eq h] at hin
  rw [← hs.extended_distance hroot h, LineSegment2D.shortest_eq hroot, if_pos hin,
    LineSegment2D.extended_distance hroot]

omit hroot

variable [FloorRing K]

/-- What is found for a place of the lane. -/
structure Tells (sqrt : K → K) (l : Polyline K) (v : K × K) (i : ℕ) (t : K)
    (reading : Reading K) : Prop where
  cte : reading.cte = roundedInt (sqrt (sqDist v (l.place i t))) ∨
    reading.cte = saturate 31 (trunc (sqrt (sqDist v (l.place i t))))
  along : ∃ n d, reading.along = some (n, d) ∧ n ≤ l.segments ∧
    l.upTo sqrt n + d = l.stretch sqrt i t

include hroot

omit [FloorRing K] in
theorem besideSegment_eq (hs : g.Joins s i) (h : 2 ≤ g.points.length) (hi : i < g.points.length)
    (hin : 0 ≤ (g.centerline h).footAt v.pair i ∧ (g.centerline h).footAt v.pair i ≤ 1) :
    ∃ d, g.besideSegment sqrt v s i = some (i, d) ∧ (g.centerline h).upTo sqrt i + d =
      (g.centerline h).stretch sqrt i ((g.centerline h).footAt v.pair i) := by
  rw [← Polyline.stretch_of_nonneg hroot i hin.1, ← hs.node_distance hroot h]
  refine ⟨_, ?_, rfl⟩
  rw [← hs.foot_eq h] at hin
  unfold besideSegment
  rw [s.translateTo_eq hroot v hin, getElem?_node hi]
  rfl

theorem beside_tells (hs : g.Joins s i) (h : 2 ≤ g.points.length) (hi : i + 1 < g.points.length)
    (hin : 0 ≤ (g.centerline h).footAt v.pair i ∧ (g.centerline h).footAt v.pair i ≤ 1) :
    Tells sqrt (g.centerline h) v.pair i ((g.centerline h).footAt v.pair i)
      ⟨roundedInt (s.shortestDistanceToPoint sqrt v), g.besideSegment sqrt v s i⟩ := by
  obtain ⟨d, hd, hstretch⟩ := besideSegment_eq hroot hs h (by omega) hin
  have hlast : (g.centerline h).segments = g.points.length - 1 := rfl
  refine ⟨Or.inl ?_, i, d, hd, by omega, hstretch⟩
  rw [hs.shortest_eq hroot h hin]

/-- Outside of the segments at a nearest node. -/
theorem besideNone_tells (h : 2 ≤ g.points.length) (hnear : (g.centerline h).Nearest v.pair k)
    (hA : ∀ i, i + 1 = k →
      ¬ (0 ≤ (g.centerline h).footAt v.pair i ∧ (g.centerline h).footAt v.pair i ≤ 1))
    (hB : k < (g.centerline h).segments →
      ¬ (0 ≤ (g.centerline h).footAt v.pair k ∧ (g.centerline h).footAt v.pair k ≤ 1)) :
    ∃ reading i t, g.besideNone sqrt v k = some reading ∧
      (g.centerline h).Measured v.pair k i t ∧ Tells sqrt (g.centerline h) v.pair i t reading := by
  have hlast : (g.centerline h).segments = g.points.length - 1 := rfl
  have hk : k < g.points.length := by
    have hle := hnear.1
    omega
  unfold besideNone
  rw [getElem?_node hk, Option.bind_some]
  by_cases h0 : k = 0
  · subst h0
    obtain ⟨s, hs, hjoins⟩ := g.segment_at (i := 0) (by omega)
    have hhalf := hnear.foot_after (g.centerline h).pos
    have hout : (g.centerline h).footAt v.pair 0 < 0 := by
      by_contra hge
      exact hB (g.centerline h).pos ⟨not_lt.mp hge, by linarith⟩
    refine ⟨_, 0, _, by rw [if_pos rfl, hs, Option.map_some], .beyondFirst rfl hout, ?_, ?_⟩
    · exact Or.inl (by rw [hjoins.extended_distance hroot h])
    · refine ⟨0, _, rfl, Nat.zero_le _, ?_⟩
      rw [← Polyline.stretch_of_nonpos hroot 0 hout.le, ← hjoins.node_distance hroot h]
      exact (sub_eq_add_neg _ _).symm
  · obtain ⟨i, rfl⟩ := Nat.exists_eq_succ_of_ne_zero h0
    have hbefore : 1 < (g.centerline h).footAt v.pair i := by
      have hhalf := hnear.foot_before rfl
      by_contra hle
      exact hA i rfl ⟨by linarith, not_lt.mp hle⟩
    by_cases hend : i + 1 = g.points.length - 1
    · obtain ⟨s, hs, hjoins⟩ := g.segment_at (i := i) hk
      have hseg : g.segments.length - 1 = i := by
        rw [segments_length]
        omega
      refine ⟨_, i, _, by rw [if_neg h0, if_pos hend, hseg, hs, Option.map_some],
        .beyondLast rfl hend hbefore, ?_, ?_⟩
      · exact Or.inl (by rw [hjoins.extended_distance hroot h])
      · refine ⟨i + 1, _, rfl, hend.le, ?_⟩
        rw [← Polyline.stretch_of_one_le hroot i hbefore.le, ← hjoins.node_distance hroot h]
    · have hmid : i + 1 < (g.centerline h).segments := by omega
      have hafter : (g.centerline h).footAt v.pair (i + 1) < 0 := by
        have hhalf := hnear.foot_after hmid
        by_contra hge
        exact hB hmid ⟨not_lt.mp hge, by linarith⟩
      refine ⟨_, i + 1, 0, by rw [if_neg h0, if_neg hend], .wedge (Nat.succ_pos i) hmid ?_ hafter,
        ?_, ?_⟩
      · intro j hj
        obtain rfl : j = i := by omega
        exact hbefore
      · rw [Polyline.place_zero, sqDist_comm]
        exact Or.inr rfl
      · exact ⟨i + 1, 0, rfl, hmid.le, by simp⟩

omit [FloorRing K] in
/-- A distance is found on one side just where the perpendicular falls inside the segment there. -/
theorem adjacent_nonneg_iff (h : 2 ≤ g.points.length) {o : Option (LineSegment2D K)} {there : Bool}
    (hsome : there = true → ∃ s, o = some s ∧ g.Joins s i) (hnone : there = false → o = none) :
    0 ≤ (o.map (·.shortestDistanceToPoint sqrt v)).getD (-1) ↔ there = true ∧
      0 ≤ (g.centerline h).footAt v.pair i ∧ (g.centerline h).footAt v.pair i ≤ 1 := by
  cases there with
  | false =>
    rw [hnone rfl]
    simp [not_le.mpr (neg_one_lt_zero (R := K))]
  | true =>
    obtain ⟨s, rfl, hjoins⟩ := hsome rfl
    rw [Option.map_some, Option.getD_some, hjoins.shortest_nonneg_iff hroot h]
    simp

omit [FloorRing K] in
theorem adjacent_eq (h : 2 ≤ g.points.length) {o : Option (LineSegment2D K)}
    (hsome : ∃ s, o = some s ∧ g.Joins s i)
    (hin : 0 ≤ (g.centerline h).footAt v.pair i ∧ (g.centerline h).footAt v.pair i ≤ 1) :
    (o.map (·.shortestDistanceToPoint sqrt v)).getD (-1) = sqrt (sqDist v.pair
      ((g.centerline h).place i ((g.centerline h).footAt v.pair i))) := by
  obtain ⟨s, rfl, hjoins⟩ := hsome
  rw [Option.map_some, Option.getD_some, hjoins.shortest_eq hroot h hin]

theorem measure_tells (h : 2 ≤ g.points.length) (hnear : (g.centerline h).Nearest v.pair k) :
    ∃ reading i t, g.measure sqrt v k = some reading ∧
      (g.centerline h).Measured v.pair k i t ∧ Tells sqrt (g.centerline h) v.pair i t reading := by
  have hlast : (g.centerline h).segments = g.points.length - 1 := rfl
  have hk : k ≤ (g.centerline h).segments := hnear.1
  obtain ⟨segA, hA, hsomeA, hnoneA⟩ := g.adjacent_cases (i := k - 1) (0 < k) (by
    rw [decide_eq_true_eq]
    omega)
  obtain ⟨segB, hB, hsomeB, hnoneB⟩ := g.adjacent_cases (i := k)
    (k < g.points.length - 1) (by
      rw [decide_eq_true_eq]
      omega)
  have hdistA := adjacent_nonneg_iff hroot h (v := v) hsomeA hnoneA
  have hdistB := adjacent_nonneg_iff hroot h (v := v) hsomeB hnoneB
  rw [decide_eq_true_eq] at hsomeA hsomeB hdistA hdistB
  have hsq : ∀ p q : K × K, 0 ≤ sqDist p q := sqDist_nonneg
  unfold measure
  rw [hA, hB, Option.bind_some, Option.bind_some]
  dsimp only
  split_ifs with hin hchoose
  · obtain ⟨hpos, hfoot⟩ := hdistA.mp hchoose.1
    have heqA := adjacent_eq hroot h (hsomeA hpos) hfoot
    obtain ⟨s, rfl, hjoins⟩ := hsomeA hpos
    refine ⟨_, k - 1, _, rfl, .before (by omega) hk hfoot ?_,
      beside_tells hroot hjoins h (by omega) hfoot⟩
    -- the other segment was further, or had no distance
    intro hlt hlow hhigh
    have hBpos := hdistB.mpr ⟨hlt, hlow, hhigh⟩
    have hless := hchoose.2.resolve_right (not_lt.mpr hBpos)
    rw [heqA, adjacent_eq hroot h (hsomeB hlt) ⟨hlow, hhigh⟩] at hless
    exact (hroot.le_iff (hsq _ _) (hsq _ _)).mp hless.le
  · have hBpos : 0 ≤ (segB.map (·.shortestDistanceToPoint sqrt v)).getD (-1) := by
      by_contra hneg
      apply hchoose
      exact ⟨hin.resolve_right hneg, Or.inr (not_le.mp hneg)⟩
    obtain ⟨hlt, hfoot⟩ := hdistB.mp hBpos
    have heqB := adjacent_eq hroot h (hsomeB hlt) hfoot
    obtain ⟨s, rfl, hjoins⟩ := hsomeB hlt
    refine ⟨_, k, _, rfl, .after hlt hfoot ?_, beside_tells hroot hjoins h (by omega) hfoot⟩
    intro i hi hlow hhigh
    obtain rfl : i = k - 1 := by omega
    have hApos := hdistA.mpr ⟨by omega, hlow, hhigh⟩
    have hle : ¬ _ := fun hless => hchoose ⟨hApos, Or.inl hless⟩
    rw [heqB, adjacent_eq hroot h (hsomeA (by omega)) ⟨hlow, hhigh⟩] at hle
    exact (hroot.le_iff (hsq _ _) (hsq _ _)).mp (not_lt.mp hle)
  · apply besideNone_tells hroot h hnear
    · intro i hi hfoot
      obtain rfl : i = k - 1 := by omega
      exact hin (Or.inl (hdistA.mpr ⟨by omega, hfoot⟩))
    · intro hlt hfoot
      exact hin (Or.inr (hdistB.mpr ⟨hlt, hfoot⟩))

omit [FloorRing K] in
theorem closer_first (h : 2 ≤ g.points.length) (v : CartesianPoint2D K) :
    ∃ k d, closer sqrt v 0 none g.points = some (k, d) ∧
      (g.centerline h).FirstNearest v.pair k := by
  have hle : ∀ i j, sqrt (sqDist v.pair (g.node i).pair) ≤ sqrt (sqDist v.pair (g.node j).pair) ↔
      sqDist v.pair (g.node i).pair ≤ sqDist v.pair (g.node j).pair := fun i j =>
    hroot.le_iff (sqDist_nonneg _ _) (sqDist_nonneg _ _)
  have hleast := closer_least sqrt v (fun i => sqrt (sqDist v.pair (g.node i).pair)) g.points 0 none
    ⟨by simp, by simp⟩ (by
      intro j p hp
      have hnode : p = g.node j := by simp [node, hp]
      rw [hnode, Nat.zero_add, sqDist_comm]
      rfl)
  rw [Nat.zero_add] at hleast
  cases hclose : closer sqrt v 0 none g.points with
  | none =>
    have hzero := hleast.1 hclose
    omega
  | some closest =>
    obtain ⟨hk, -, hmin, hfirst⟩ := hleast.2 closest.1 closest.2 hclose
    have hlast : (g.centerline h).segments = g.points.length - 1 := rfl
    refine ⟨closest.1, closest.2, rfl, ⟨by omega, ?_⟩, ?_⟩
    · intro j hj
      exact (hle _ _).mp (hmin j (by omega))
    · intro j hj
      apply lt_of_not_ge
      intro hge
      exact absurd ((hle _ _).mpr hge) (not_le.mpr (hfirst j hj))

omit hroot

/-- The distances of a place that is measured at the first of the nearest nodes. -/
def Told (sqrt : K → K) (l : Polyline K) (v : K × K) (cte dtsb : ℤ) : Prop :=
  ∃ k i t, l.FirstNearest v k ∧ l.Measured v k i t ∧
    (cte = roundedInt (sqrt (sqDist v (l.place i t))) ∨
      cte = saturate 31 (trunc (sqrt (sqDist v (l.place i t))))) ∧
    dtsb = roundedInt (l.stretch sqrt i t)

omit [LinearOrder K] [IsStrictOrderedRing K] [FloorRing K] in
/-- The lane with other distances stored. -/
def storing (g : LaneGeometry K) (cte dtsb : ℤ) (input : Option (Location K)) : LaneGeometry K :=
  { g with cte_ := cte, dtsb_ := dtsb, inputLocation := input }

/-- Where the vehicle is to the lane. -/
def position (cos : K → K) (g : LaneGeometry K) (latLon : Location K) : K × K :=
  (toPoint cos g.reference latLon).pair

variable {cos : K → K}

include hroot

/-- What is found is told of a place of the lane. -/
theorem found (h : 2 ≤ g.points.length) (v : CartesianPoint2D K) :
    ∃ k reading i t, ((closer sqrt v 0 none g.points).bind fun closest =>
        g.measure sqrt v closest.1) = some reading ∧
      (g.centerline h).FirstNearest v.pair k ∧ (g.centerline h).Measured v.pair k i t ∧
      Tells sqrt (g.centerline h) v.pair i t reading := by
  obtain ⟨k, d, hclose, hfirst⟩ := closer_first hroot h v
  obtain ⟨reading, i, t, hreading, hmeasured, htells⟩ := measure_tells hroot h hfirst.1
  refine ⟨k, reading, i, t, ?_, hfirst, hmeasured, htells⟩
  rw [hclose, Option.bind_some, hreading]

variable (cos) in
theorem computeDistances_told (h : 2 ≤ g.points.length) (latLon : Location K) :
    Told sqrt (g.centerline h) (g.position cos latLon) (g.computeDistances cos sqrt latLon).cte_
      (g.computeDistances cos sqrt latLon).dtsb_ := by
  obtain ⟨k, reading, i, t, hfound, hfirst, hmeasured, hcte, n, d, halong, hn, hstretch⟩ :=
    found hroot h (toPoint cos g.reference latLon)
  have hlast : (g.centerline h).segments = g.points.length - 1 := rfl
  refine ⟨k, i, t, hfirst, hmeasured, ?_⟩
  unfold computeDistances
  dsimp only
  rw [hfound]
  dsimp only
  rw [halong, ← hstretch, ← downtrack_eq sqrt h (by omega)]
  exact ⟨hcte, rfl⟩

variable (cos) in
/-- What is computed does not depend on what was stored. -/
theorem computeDistances_storing (h : 2 ≤ g.points.length) (cte dtsb : ℤ)
    (input : Option (Location K)) (latLon : Location K) :
    (g.storing cte dtsb input).computeDistances cos sqrt latLon =
      g.storing (g.computeDistances cos sqrt latLon).cte_
        (g.computeDistances cos sqrt latLon).dtsb_ input := by
  obtain ⟨k, reading, i, t, hfound, -⟩ := found hroot h (toPoint cos g.reference latLon)
  have hsame : ((closer sqrt (toPoint cos g.reference latLon) 0 none
      (g.storing cte dtsb input).points).bind fun closest => (g.storing cte dtsb input).measure
        sqrt (toPoint cos g.reference latLon) closest.1) = some reading := hfound
  unfold computeDistances
  dsimp only
  rw [hfound]
  unfold storing at *
  dsimp only at *
  rw [hsame]
  rfl

omit hroot

/-! ## Runs of calls -/

/-- A call of one of the two methods. -/
inductive Call (K : Type) where
  | dtsb (latLon : Location K)
  | cte (latLon : Location K)

def Call.after (cos sqrt : K → K) (g : LaneGeometry K) : Call K → LaneGeometry K
  | .dtsb latLon => (g.dtsb cos sqrt latLon).2
  | .cte latLon => (g.cte cos sqrt latLon).2

def run (cos sqrt : K → K) (g : LaneGeometry K) (calls : List (Call K)) : LaneGeometry K :=
  calls.foldl (Call.after cos sqrt) g

/-- What is stored are the distances of the location it is stored for. -/
def Cached (cos sqrt : K → K) (g now : LaneGeometry K) : Prop :=
  ∃ cte dtsb input, now = g.storing cte dtsb input ∧ ∀ latLon, input = some latLon →
    cte = (g.computeDistances cos sqrt latLon).cte_ ∧
      dtsb = (g.computeDistances cos sqrt latLon).dtsb_

include hroot

/-- A location is answered with its own distances, whatever was stored before. -/
theorem refresh_cached (h : 2 ≤ g.points.length) {now : LaneGeometry K}
    (hcached : Cached cos sqrt g now) (latLon : Location K) :
    Cached cos sqrt g (now.refresh cos sqrt latLon) ∧
      (now.refresh cos sqrt latLon).cte_ = (g.computeDistances cos sqrt latLon).cte_ ∧
      (now.refresh cos sqrt latLon).dtsb_ = (g.computeDistances cos sqrt latLon).dtsb_ := by
  obtain ⟨cte, dtsb, input, rfl, hstored⟩ := hcached
  unfold refresh
  split
  · rename_i heq
    exact ⟨⟨cte, dtsb, input, rfl, hstored⟩, hstored latLon heq⟩
  · rw [computeDistances_storing hroot cos h]
    refine ⟨⟨_, _, some latLon, rfl, ?_⟩, rfl, rfl⟩
    intro latLon' heq
    obtain rfl := Option.some.inj heq
    exact ⟨rfl, rfl⟩

theorem run_cached (h : 2 ≤ g.points.length) : ∀ (calls : List (Call K)) {now : LaneGeometry K},
    Cached cos sqrt g now → Cached cos sqrt g (now.run cos sqrt calls)
  | [], _, hcached => hcached
  | .dtsb latLon :: calls, _, hcached =>
    run_cached h calls (refresh_cached hroot h hcached latLon).1
  | .cte latLon :: calls, _, hcached =>
    run_cached h calls (refresh_cached hroot h hcached latLon).1

omit hroot [IsStrictOrderedRing K] in
theorem new_input {ref : Location K} {nodes : List (Location K)}
    (hnew : new cos ref nodes = some g) : g.inputLocation = none := by
  unfold new at hnew
  split at hnew
  · cases hnew
  · rw [← Option.some.inj hnew]

omit hroot [IsStrictOrderedRing K] in
theorem new_cached {ref : Location K} {nodes : List (Location K)}
    (hnew : new cos ref nodes = some g) : Cached cos sqrt g g := by
  refine ⟨g.cte_, g.dtsb_, g.inputLocation, rfl, ?_⟩
  intro input hinput
  rw [new_input hnew] at hinput
  cases hinput

/-- What the two methods answer depends on the location alone. -/
theorem answers_alone {ref : Location K} {nodes : List (Location K)}
    (hnew : new cos ref nodes = some g) (h : 2 ≤ g.points.length) (calls : List (Call K))
    (latLon : Location K) :
    ((g.run cos sqrt calls).cte cos sqrt latLon).1 = (g.computeDistances cos sqrt latLon).cte_ ∧
      ((g.run cos sqrt calls).dtsb cos sqrt latLon).1 =
        (g.computeDistances cos sqrt latLon).dtsb_ :=
  (refresh_cached hroot h (run_cached hroot h calls (new_cached hnew)) latLon).2

theorem answers_told {ref : Location K} {nodes : List (Location K)}
    (hnew : new cos ref nodes = some g) (h : 2 ≤ g.points.length) (calls : List (Call K))
    (latLon : Location K) :
    Told sqrt (g.centerline h) (g.position cos latLon)
      ((g.run cos sqrt calls).cte cos sqrt latLon).1
      ((g.run cos sqrt calls).dtsb cos sqrt latLon).1 := by
  obtain ⟨hcte, hdtsb⟩ := answers_alone hroot hnew h calls latLon
  rw [hcte, hdtsb]
  exact computeDistances_told hroot cos h latLon

omit hroot

/-- The lane as the choice of the lane sees it. -/
def toLane (cos sqrt : K → K) (g : LaneGeometry K) (isApproach : Bool) : Lane (Location K) where
  isApproach := isApproach
  inBoundingBox := g.inBoundingBox cos
  dtsb latLon := (g.computeDistances cos sqrt latLon).dtsb_
  cte latLon := (g.computeDistances cos sqrt latLon).cte_

include hroot in
/-- Whatever it is called with before, a lane answers as the lane that has no state. -/
theorem toLane_answers {ref : Location K} {nodes : List (Location K)}
    (hnew : new cos ref nodes = some g) (h : 2 ≤ g.points.length) (isApproach : Bool)
    (calls : List (Call K)) (latLon : Location K) :
    ((g.run cos sqrt calls).cte cos sqrt latLon).1 =
        (g.toLane cos sqrt isApproach).cte latLon ∧
      ((g.run cos sqrt calls).dtsb cos sqrt latLon).1 =
        (g.toLane cos sqrt isApproach).dtsb latLon ∧
      (g.run cos sqrt calls).inBoundingBox cos latLon =
        (g.toLane cos sqrt isApproach).inBoundingBox latLon := by
  obtain ⟨hcte, hdtsb⟩ := answers_alone hroot hnew h calls latLon
  obtain ⟨_, _, _, hrun, -⟩ := run_cached hroot h calls (new_cached hnew)
  refine ⟨hcte, hdtsb, ?_⟩
  rw [hrun]
  rfl

/-! ## The closest place -/

/-- The distances of a closest place of the lane, within a centimetre. -/
def WithinOne (sqrt : K → K) (l : Polyline K) (v : K × K) (cte dtsb : ℤ) : Prop :=
  ∃ i t, l.Closest v i t ∧ |(cte : K) - sqrt (sqDist v (l.place i t))| ≤ 1 ∧
    |(dtsb : K) - l.stretch sqrt i t| ≤ 1

/-- It is an int when it is rounded. -/
def Fits (x : K) : Prop := -((2 ^ 31 : ℕ) : K) ≤ x ∧ x + 1 < ((2 ^ 31 : ℕ) : K)

/-- A closest place is on a segment at the node, and the distances of such a place are rounded
well. -/
def Kept (sqrt : K → K) (l : Polyline K) (v : K × K) (k : ℕ) : Prop :=
  (∃ i t, l.Closest v i t ∧ Polyline.Beside k i) ∧
    ∀ i t, l.Closest v i t → Polyline.Beside k i → Fits (sqrt (sqDist v (l.place i t))) ∧
      Fits (l.stretch sqrt i t) ∧ RoundsWell (l.stretch sqrt i t)

/-- All places on the segments at the node are two centimetres further than a closest place. -/
def Strays (sqrt : K → K) (l : Polyline K) (v : K × K) (k : ℕ) : Prop :=
  ∃ j u, l.Closest v j u ∧ sqrt (sqDist v (l.place j u)) + ((2 : ℕ) : K) < ((2 ^ 31 : ℕ) : K) ∧
    ∀ i t, l.Reaches i t → Polyline.Beside k i →
      sqrt (sqDist v (l.place j u)) + ((2 : ℕ) : K) ≤ sqrt (sqDist v (l.place i t))

/-- The only closest place is on a segment at the node, and its distance along the lane is rounded
the wrong way. -/
def RoundsAway (sqrt : K → K) (l : Polyline K) (v : K × K) (k : ℕ) : Prop :=
  ∃ j u, l.Closest v j u ∧ Polyline.Beside k j ∧ (∀ i t, l.Closest v i t → i = j ∧ t = u) ∧
    Fits (l.stretch sqrt j u) ∧ ¬ RoundsWell (l.stretch sqrt j u)

theorem roundedInt_near_iff {x : K} (h : Fits x) :
    |(roundedInt x : K) - x| ≤ 1 ↔ RoundsWell x := by
  have hhalf : 1 / ((2 : ℕ) : K) + 1 / ((2 : ℕ) : K) = 1 := by
    rw [Nat.cast_ofNat]
    exact add_halves 1
  have hpos : (0 : K) < 1 / ((2 : ℕ) : K) := by positivity
  obtain ⟨hlow, hhigh⟩ := h
  rw [← trunc_add_half_near_iff]
  unfold roundedInt
  generalize 1 / ((2 : ℕ) : K) = half at *
  have hint : ((2 ^ 31 : ℤ) : K) = ((2 ^ 31 : ℕ) : K) := by norm_cast
  have hmem := trunc_mem (x := x + half) (n := 2 ^ 31) (by
    rw [hint]
    linarith) (by
    rw [hint]
    linarith)
  have hlt : trunc (x + half) < 2 ^ 31 := by
    apply lt_of_le_of_ne hmem.2
    intro heq
    have hle := trunc_le_self (x := x + half) (by
      rw [heq]
      decide)
    rw [heq, hint] at hle
    linarith
  rw [saturate_eq_self hmem.1 hlt]

theorem cut_near {x : K} (h0 : 0 ≤ x) (h : Fits x) :
    |(saturate 31 (trunc x) : K) - x| ≤ 1 := by
  have hle := trunc_le_of_nonneg h0
  have hhigh : trunc x < 2 ^ 31 := by
    have hlt : ((trunc x : ℤ) : K) < ((2 ^ 31 : ℤ) : K) := by
      push_cast
      have hfits := h.2
      push_cast at hfits
      linarith
    exact_mod_cast hlt
  rw [saturate_eq_self (by linarith [trunc_nonneg h0]) hhigh, abs_sub_comm]
  exact (abs_sub_trunc_lt_one x).le

/-- What is cut of a large number is large. -/
theorem lt_cut {c x : K} (hc : c + 1 < ((2 ^ 31 : ℕ) : K)) (hx : c + 1 ≤ x) :
    c < (saturate 31 (trunc x) : K) := by
  have hle : min (2 ^ 31 - 1) (trunc x) ≤ saturate 31 (trunc x) := le_max_right _ _
  apply lt_of_lt_of_le _ (Int.cast_le.mpr hle)
  rw [Int.cast_min, lt_min_iff]
  constructor
  · push_cast at *
    linarith
  · linarith [lt_trunc_add_one x]

variable {l : Polyline K} {p : K × K} {cte dtsb : ℤ}

/-- The distances that are told of a closest place. -/
theorem Told.withinOne (h : Told sqrt l p cte dtsb) (hroot : IsRoot sqrt)
    (hfirst : l.FirstNearest p k) (hkept : Kept sqrt l p k) : WithinOne sqrt l p cte dtsb := by
  obtain ⟨k', i, t, hfirst', hmeasured, hcte, rfl⟩ := h
  obtain rfl := hfirst'.unique hfirst
  have hclosest := (hmeasured.closest_iff hfirst.1).mpr hkept.1
  obtain ⟨hfits, hlong, hwell⟩ := hkept.2 i t hclosest hmeasured.reaches.2
  have hnonneg := hroot.nonneg _ (sqDist_nonneg p (l.place i t))
  refine ⟨i, t, hclosest, ?_, (roundedInt_near_iff hlong).mpr hwell⟩
  rcases hcte with rfl | rfl
  · apply (roundedInt_near_iff hfits).mpr
    left
    exact (neg_nonpos.mpr (by positivity)).trans hnonneg
  · exact cut_near hnonneg hfits

/-- Too far from every place at the node. -/
theorem Told.strays (h : Told sqrt l p cte dtsb) (hfirst : l.FirstNearest p k)
    (hstrays : Strays sqrt l p k) : ¬ WithinOne sqrt l p cte dtsb := by
  obtain ⟨k', i, t, hfirst', hmeasured, hcte, -⟩ := h
  obtain rfl := hfirst'.unique hfirst
  obtain ⟨j, u, hclosest, hfits, hfar⟩ := hstrays
  have hmore := hfar i t hmeasured.reaches.1 hmeasured.reaches.2
  have hhalf : (0 : K) ≤ 1 / ((2 : ℕ) : K) := by positivity
  rintro ⟨j', u', hclosest', hnear, -⟩
  rw [hclosest'.far_eq hclosest] at hnear
  have hlt : sqrt (sqDist p (l.place j u)) + 1 < (cte : K) := by
    rcases hcte with rfl | rfl
    · apply lt_cut
      · push_cast at *
        linarith
      · push_cast at *
        linarith
    · apply lt_cut
      · push_cast at *
        linarith
      · push_cast at *
        linarith
  linarith [(abs_le.mp hnear).2]

theorem Told.roundsAway (h : Told sqrt l p cte dtsb) (hfirst : l.FirstNearest p k)
    (haway : RoundsAway sqrt l p k) : ¬ WithinOne sqrt l p cte dtsb := by
  obtain ⟨k', i, t, hfirst', hmeasured, -, rfl⟩ := h
  obtain rfl := hfirst'.unique hfirst
  obtain ⟨j, u, hclosest, hbeside, honly, hfits, hwrong⟩ := haway
  have hmeasuredClosest := (hmeasured.closest_iff hfirst.1).mpr ⟨j, u, hclosest, hbeside⟩
  obtain ⟨rfl, rfl⟩ := honly i t hmeasuredClosest
  rintro ⟨j', u', hclosest', -, hnear⟩
  obtain ⟨rfl, rfl⟩ := honly j' u' hclosest'
  exact hwrong ((roundedInt_near_iff hfits).mp hnear)

/-! ## A straight lane and a bend -/

theorem isRoot_sqrt : IsRoot Real.sqrt :=
  ⟨fun x _ => Real.sqrt_nonneg x, fun _ hx => Real.mul_self_sqrt hx⟩

theorem straight_kept {l : Polyline ℝ} (hseg : l.segments = 1) (h0 : l.node 0 = (0, 0))
    (h1 : l.node 1 = (3000, 0)) :
    l.FirstNearest (1000, 500) 0 ∧ Kept Real.sqrt l (1000, 500) 0 := by
  have hplace : ∀ t, sqDist (1000, 500) (l.place 0 t) = (3000 * t - 1000) ^ 2 + 500 ^ 2 := by
    intro t
    simp only [Polyline.place, h0, h1, along, sqDist]
    ring
  have hreach : ∀ {i t}, l.Reaches i t → i = 0 := by
    intro i t h
    have hi := h.1
    omega
  have hclosest : l.Closest (1000, 500) 0 (1 / 3) := by
    refine ⟨⟨by omega, Or.inl rfl, Or.inl (by omega)⟩, ?_⟩
    intro j u hu
    rw [hreach hu, hplace, hplace]
    nlinarith [sq_nonneg (3000 * u - 1000)]
  refine ⟨⟨⟨Nat.zero_le _, ?_⟩, by simp⟩, ⟨0, 1 / 3, hclosest, Or.inl rfl⟩, ?_⟩
  · intro j hj
    rw [hseg] at hj
    rcases Nat.le_one_iff_eq_zero_or_eq_one.mp hj with rfl | rfl
    · exact le_rfl
    · simp only [h0, h1, sqDist]
      norm_num
  · intro i t h _
    obtain rfl := hreach h.1
    have hle := h.2 0 (1 / 3) hclosest.1
    rw [hplace, hplace] at hle
    have ht : t = 1 / 3 := by nlinarith [sq_nonneg (3000 * t - 1000)]
    subst ht
    have hdist : √(sqDist (1000, 500) (l.place 0 (1 / 3))) = 500 := by
      rw [hplace]
      apply isRoot_sqrt.eq_of_mul_self <;> norm_num
    have hlong : l.stretch Real.sqrt 0 (1 / 3) = 1000 := by
      have hlen : √(sqDist (l.node 0) (l.node 1)) = 3000 := by
        rw [h0, h1]
        apply isRoot_sqrt.eq_of_mul_self <;> norm_num [sqDist]
      unfold Polyline.stretch Polyline.upTo
      rw [Finset.sum_range_zero, hlen]
      norm_num
    rw [hdist, hlong]
    refine ⟨?_, ?_, Or.inl ?_⟩ <;> norm_num [Fits]

theorem bend_strays {l : Polyline ℝ} (hseg : l.segments = 2) (h0 : l.node 0 = (0, 0))
    (h1 : l.node 1 = (8000, 0)) (h2 : l.node 2 = (8000, 3000)) :
    l.FirstNearest (4000, 3000) 2 ∧ Strays Real.sqrt l (4000, 3000) 2 := by
  have hfirst : ∀ t, sqDist (4000, 3000) (l.place 0 t) = (8000 * t - 4000) ^ 2 + 3000 ^ 2 := by
    intro t
    simp only [Polyline.place, h0, h1, along, sqDist]
    ring
  have hsecond : ∀ t, sqDist (4000, 3000) (l.place 1 t) = 4000 ^ 2 + (3000 * t - 3000) ^ 2 := by
    intro t
    simp only [Polyline.place, h1, h2, along, sqDist]
    ring
  have hdist : √(sqDist (4000, 3000) (l.place 0 (1 / 2))) = 3000 := by
    rw [hfirst]
    apply isRoot_sqrt.eq_of_mul_self <;> norm_num
  have hfar : ∀ t, (4000 : ℝ) ^ 2 ≤ sqDist (4000, 3000) (l.place 1 t) := by
    intro t
    rw [hsecond]
    linarith [sq_nonneg (3000 * t - 3000)]
  refine ⟨⟨⟨hseg.ge, ?_⟩, ?_⟩, 0, 1 / 2, ⟨⟨by omega, Or.inl rfl, Or.inr (by norm_num)⟩, ?_⟩, ?_, ?_⟩
  · intro j hj
    rw [hseg] at hj
    interval_cases j <;> simp only [h0, h1, h2, sqDist] <;> norm_num
  · intro j hj
    interval_cases j <;> simp only [h0, h1, h2, sqDist] <;> norm_num
  · intro j u hu
    have hj := hu.1
    rw [hseg] at hj
    rw [hfirst]
    interval_cases j
    · rw [hfirst]
      nlinarith [sq_nonneg (8000 * u - 4000)]
    · linarith [hfar u]
  · rw [hdist]
    norm_num
  · intro i t hreach hbeside
    obtain rfl : i = 1 := by
      have hi := hreach.1
      unfold Polyline.Beside at hbeside
      omega
    rw [hdist]
    apply Real.le_sqrt_of_sq_le
    exact le_trans (by norm_num) (hfar t)

theorem offsets_cos (east north : Int32) (heast : 0 ≤ east.toInt) (hnorth : 0 ≤ north.toInt) :
    (Location.setOffset Real.cos ⟨0, 0⟩ east north).eastOffsetFrom Real.cos ⟨0, 0⟩ = east.toInt ∧
      (Location.setOffset Real.cos ⟨0, 0⟩ east north).northOffsetFrom ⟨0, 0⟩ = north.toInt := by
  rw [Location.setOffset_eastOffsetFrom _ _ _ _ (by simp), Location.setOffset_northOffsetFrom,
    (roundedInt_intCast_iff east).mpr heast, (roundedInt_intCast_iff north).mpr hnorth]
  exact ⟨rfl, rfl⟩

theorem toPoint_cos {east north : Int32} {x y : ℕ} (hx : east.toInt = x) (hy : north.toInt = y) :
    toPoint Real.cos ⟨0, 0⟩ (Location.setOffset Real.cos ⟨0, 0⟩ east north) =
      ⟨(x : ℝ), (y : ℝ)⟩ := by
  have hoffsets := offsets_cos east north (by simp [hx]) (by simp [hy])
  unfold toPoint
  rw [hoffsets.1, hoffsets.2, hx, hy]
  simp

/-- The distances are those of the closest place of the lane when such a place is on a segment at
the nearest node and the length to it is rounded well, and they are not when each place at that
node is two centimetres further, or the length to the only closest place is rounded the wrong
way. -/
theorem distances_of_the_closest_place (hroot : IsRoot sqrt) {ref : Location K}
    {nodes : List (Location K)} (hnew : new cos ref nodes = some g) (h : 2 ≤ g.points.length)
    (calls : List (Call K)) (latLon : Location K)
    (hfirst : (g.centerline h).FirstNearest (g.position cos latLon) k) :
    (Kept sqrt (g.centerline h) (g.position cos latLon) k →
      WithinOne sqrt (g.centerline h) (g.position cos latLon)
        ((g.run cos sqrt calls).cte cos sqrt latLon).1
        ((g.run cos sqrt calls).dtsb cos sqrt latLon).1) ∧
    (Strays sqrt (g.centerline h) (g.position cos latLon) k ∨
        RoundsAway sqrt (g.centerline h) (g.position cos latLon) k →
      ¬ WithinOne sqrt (g.centerline h) (g.position cos latLon)
        ((g.run cos sqrt calls).cte cos sqrt latLon).1
        ((g.run cos sqrt calls).dtsb cos sqrt latLon).1) := by
  have htold := answers_told hroot hnew h calls latLon
  constructor
  · intro hkept
    exact htold.withinOne hroot hfirst hkept
  · rintro (hstrays | haway)
    · exact htold.strays hfirst hstrays
    · exact htold.roundsAway hfirst haway

/-- Beside a lane of thirty metres. -/
theorem distances_beside_a_straight_lane : ∃ (g : LaneGeometry ℝ) (h : 2 ≤ g.points.length),
    new Real.cos ⟨0, 0⟩ [.setOffset Real.cos ⟨0, 0⟩ 0 0, .setOffset Real.cos ⟨0, 0⟩ 3000 0] =
      some g ∧
    WithinOne Real.sqrt (g.centerline h)
      (g.position Real.cos (.setOffset Real.cos ⟨0, 0⟩ 1000 500))
      (g.cte Real.cos Real.sqrt (.setOffset Real.cos ⟨0, 0⟩ 1000 500)).1
      (g.dtsb Real.cos Real.sqrt (.setOffset Real.cos ⟨0, 0⟩ 1000 500)).1 := by
  have hmap : [Location.setOffset Real.cos ⟨0, 0⟩ 0 0,
      .setOffset Real.cos ⟨0, 0⟩ 3000 0].map (toPoint Real.cos ⟨0, 0⟩) =
      [⟨(0 : ℕ), (0 : ℕ)⟩, ⟨(3000 : ℕ), (0 : ℕ)⟩] := by
    rw [List.map_cons, List.map_cons, toPoint_cos (x := 0) (y := 0) (by decide) (by decide),
      toPoint_cos (x := 3000) (y := 0) (by decide) (by decide), List.map_nil]
  obtain ⟨g, hnew, hpoints, href, -⟩ := new_of_apart (by
    rw [hmap]
    simp)
  rw [hmap] at hpoints
  have h : 2 ≤ g.points.length := by simp [hpoints]
  have hposition : g.position Real.cos (.setOffset Real.cos ⟨0, 0⟩ 1000 500) = (1000, 500) := by
    unfold position
    rw [href, toPoint_cos (x := 1000) (y := 500) (by decide) (by decide)]
    simp [CartesianPoint2D.pair]
  obtain ⟨hfirst, hkept⟩ := straight_kept (l := g.centerline h) (by simp [centerline, hpoints])
    (by simp [centerline, node, hpoints, CartesianPoint2D.pair])
    (by simp [centerline, node, hpoints, CartesianPoint2D.pair])
  rw [← hposition] at hfirst hkept
  exact ⟨g, h, hnew, (distances_of_the_closest_place isRoot_sqrt hnew h [] _ hfirst).1 hkept⟩

/-- A vehicle beside the long segment of a bend is measured to the short one. -/
theorem a_bend_is_missed : ¬ ∀ (ref : Location ℝ) (nodes : List (Location ℝ))
    (g : LaneGeometry ℝ), new Real.cos ref nodes = some g → ∀ (h : 2 ≤ g.points.length)
    (calls : List (Call ℝ)) (latLon : Location ℝ), g.inBoundingBox Real.cos latLon = true →
    WithinOne Real.sqrt (g.centerline h) (g.position Real.cos latLon)
      ((g.run Real.cos Real.sqrt calls).cte Real.cos Real.sqrt latLon).1
      ((g.run Real.cos Real.sqrt calls).dtsb Real.cos Real.sqrt latLon).1 := by
  intro hall
  have hmap : [Location.setOffset Real.cos ⟨0, 0⟩ 0 0, .setOffset Real.cos ⟨0, 0⟩ 8000 0,
      .setOffset Real.cos ⟨0, 0⟩ 8000 3000].map (toPoint Real.cos ⟨0, 0⟩) =
      [⟨(0 : ℕ), (0 : ℕ)⟩, ⟨(8000 : ℕ), (0 : ℕ)⟩, ⟨(8000 : ℕ), (3000 : ℕ)⟩] := by
    rw [List.map_cons, List.map_cons, List.map_cons, List.map_nil,
      toPoint_cos (x := 0) (y := 0) (by decide) (by decide),
      toPoint_cos (x := 8000) (y := 0) (by decide) (by decide),
      toPoint_cos (x := 8000) (y := 3000) (by decide) (by decide)]
  obtain ⟨g, hnew, hpoints, href, hbox⟩ := new_of_apart (by
    rw [hmap]
    simp)
  rw [hmap] at hpoints
  have h : 2 ≤ g.points.length := by simp [hpoints]
  have hposition : g.position Real.cos (.setOffset Real.cos ⟨0, 0⟩ 4000 3000) = (4000, 3000) := by
    unfold position
    rw [href, toPoint_cos (x := 4000) (y := 3000) (by decide) (by decide)]
    simp [CartesianPoint2D.pair]
  obtain ⟨hfirst, hstrays⟩ := bend_strays (l := g.centerline h) (by simp [centerline, hpoints])
    (by simp [centerline, node, hpoints, CartesianPoint2D.pair])
    (by simp [centerline, node, hpoints, CartesianPoint2D.pair])
    (by simp [centerline, node, hpoints, CartesianPoint2D.pair])
  rw [← hposition] at hfirst hstrays
  have hinside : g.inBoundingBox Real.cos (.setOffset Real.cos ⟨0, 0⟩ 4000 3000) = true := by
    have hvehicle := offsets_cos 4000 3000 (by decide) (by decide)
    have h0 := offsets_cos 0 0 (by decide) (by decide)
    have h1 := offsets_cos 8000 0 (by decide) (by decide)
    have h2 := offsets_cos 8000 3000 (by decide) (by decide)
    unfold inBoundingBox
    simp only [hbox, href, List.foldl_cons, List.foldl_nil, hvehicle, h0, h1, h2]
    decide
  have htold := answers_told isRoot_sqrt hnew h [] (.setOffset Real.cos ⟨0, 0⟩ 4000 3000)
  exact htold.strays hfirst hstrays (hall _ _ g hnew h [] _ hinside)

end LaneGeometry

end carma.ead.lane_geometry
