-- What is lost of a path in its message: the points past the sixtieth, and of each
-- coordinate the part of a centimetre that its start and its steps are cut by. The
-- cuts of the steps add up along the path.
import Carma.Lib.Deltas
import Carma.PathMessages
import Mathlib.Tactic.FieldSimp

open lib.deltas lib.narrowing lib.exact_double
open carma.route_node (Geodesy)

namespace carma.path_messages

variable {K F : Type} [LinearOrder K] [Field K] [IsStrictOrderedRing K] [FloorRing K]

/-! ## Cuts to whole centimetres -/

/-- A centimetre, in metres. -/
def cm : K := 1 / cmPerM

omit [FloorRing K] in
theorem cmPerM_pos : (0 : K) < cmPerM := by
  unfold cmPerM
  exact_mod_cast (by decide : 0 < 100)

omit [FloorRing K] in
theorem cm_pos : (0 : K) < cm := one_div_pos.mpr cmPerM_pos

/-- The start of an axis fits an int of centimetres. -/
def FitsInt (x : K) : Prop := -2 ^ 31 ≤ trunc (x * cmPerM) ∧ trunc (x * cmPerM) < 2 ^ 31

/-- A step of an axis fits a short of centimetres. -/
def FitsShort (d : K) : Prop := -2 ^ 15 ≤ trunc (d * cmPerM) ∧ trunc (d * cmPerM) < 2 ^ 15

/-- What the decoder reads of a start. -/
def cutStart (x : K) : K := toCm x / cmPerM

/-- What the decoder reads of a step. -/
def cutStep (d : K) : K := (toShortCm d).toInt / cmPerM

omit [FloorRing K] in
/-- Lengths in metres and in centimetres. -/
theorem abs_sub_div (x : K) (n : ℤ) : |x - n / cmPerM| = |x * cmPerM - n| * cm := by
  have hpos : (0 : K) < cmPerM := cmPerM_pos
  have hscale : x - n / cmPerM = (x * cmPerM - n) * cm := by
    unfold cm
    field_simp
  rw [hscale, abs_mul, abs_of_pos (cm_pos : (0 : K) < cm)]

omit [IsStrictOrderedRing K] in
theorem toCm_eq {x : K} (h : FitsInt x) : toCm x = trunc (x * cmPerM) := by
  obtain ⟨hlow, hhigh⟩ := h
  unfold toCm
  simp only [route.toInt]
  omega

theorem cutStart_close_iff (x : K) : |x - cutStart x| < cm ↔ FitsInt x := by
  unfold cutStart
  rw [abs_sub_div]
  constructor
  · intro hclose
    by_contra hnot
    have hone : |x * cmPerM - toCm x| < 1 := by
      by_contra hge
      have hmul := mul_le_mul_of_nonneg_right (not_lt.mp hge) (cm_pos (K := K)).le
      linarith
    -- what does not fit is clamped to the end of the range
    have hends : trunc (x * cmPerM) < -2 ^ 31 ∨ 2 ^ 31 ≤ trunc (x * cmPerM) := by
      unfold FitsInt at hnot
      omega
    rcases hends with hlow | hhigh
    · have hcm : toCm x = trunc (x * cmPerM) + (-2 ^ 31 - trunc (x * cmPerM)) := by
        unfold toCm
        simp only [route.toInt]
        omega
      have hle := self_le_trunc (x := x * cmPerM) (by omega)
      have hgap : (1 : K) ≤ ((-2 ^ 31 - trunc (x * cmPerM) : ℤ) : K) := by
        exact_mod_cast (by omega : (1 : ℤ) ≤ -2 ^ 31 - trunc (x * cmPerM))
      rw [hcm, Int.cast_add] at hone
      have habs := (abs_lt.mp hone).1
      linarith
    · have hcm : toCm x = trunc (x * cmPerM) - (trunc (x * cmPerM) - (2 ^ 31 - 1)) := by
        unfold toCm
        simp only [route.toInt]
        omega
      have hle := trunc_le_self (x := x * cmPerM) (by omega)
      have hgap : (1 : K) ≤ ((trunc (x * cmPerM) - (2 ^ 31 - 1) : ℤ) : K) := by
        exact_mod_cast (by omega : (1 : ℤ) ≤ trunc (x * cmPerM) - (2 ^ 31 - 1))
      rw [hcm, Int.cast_sub] at hone
      have habs := (abs_lt.mp hone).2
      linarith
  · intro hfits
    rw [toCm_eq hfits]
    have hone := abs_sub_trunc_lt_one (x * cmPerM)
    have hmul := mul_lt_mul_of_pos_right hone (cm_pos (K := K))
    linarith

theorem cutStep_close {d : K} (h : FitsShort d) : |d - cutStep d| < cm := by
  have hcm : toCm d = trunc (d * cmPerM) := by
    unfold FitsShort at h
    exact toCm_eq ⟨by omega, by omega⟩
  have hshort : (toShortCm d).toInt = trunc (d * cmPerM) := by
    unfold toShortCm
    rw [hcm]
    exact (toInt_ofInt_eq_self_iff 15 _).mpr h
  unfold cutStep
  rw [hshort, abs_sub_div]
  have hone := abs_sub_trunc_lt_one (d * cmPerM)
  have hmul := mul_lt_mul_of_pos_right hone (cm_pos (K := K))
  linarith

/-- A step that does not fit is wrapped around, and loses hundreds of metres. -/
theorem cutStep_far {d : K} (h : ¬ FitsShort d) : 65535 * cm ≤ |d - cutStep d| := by
  have hends : trunc (d * cmPerM) < -2 ^ 15 ∨ 2 ^ 15 ≤ trunc (d * cmPerM) := by
    unfold FitsShort at h
    omega
  have hlow : -2 ^ 15 ≤ (toShortCm d).toInt := BitVec.le_toInt _
  have hhigh : (toShortCm d).toInt < 2 ^ 15 := BitVec.toInt_lt
  have hcm : toCm d = max (-2 ^ 31) (min (2 ^ 31 - 1) (trunc (d * cmPerM))) := rfl
  have hfar : (2 : ℤ) ^ 16 ≤ |toCm d - (toShortCm d).toInt| := toInt_ofInt_far 15 (by omega)
  have hint : (65536 : ℤ) ≤ |trunc (d * cmPerM) - (toShortCm d).toInt| := by
    rcases hends with hneg | hpos
    · rw [abs_of_neg (by omega)] at hfar ⊢
      omega
    · rw [abs_of_pos (by omega)] at hfar ⊢
      omega
  have hwrap : (65536 : K) ≤ |(trunc (d * cmPerM) : K) - (toShortCm d).toInt| := by
    exact_mod_cast hint
  unfold cutStep
  rw [abs_sub_div]
  apply mul_le_mul_of_nonneg_right _ (cm_pos (K := K)).le
  have hone := abs_sub_trunc_lt_one (d * cmPerM)
  have htri := abs_sub_abs_le_abs_sub ((trunc (d * cmPerM) : K) - (toShortCm d).toInt)
    ((trunc (d * cmPerM) : K) - d * cmPerM)
  rw [abs_sub_comm (trunc (d * cmPerM) : K) (d * cmPerM)] at htri
  have hsub : (trunc (d * cmPerM) : K) - (toShortCm d).toInt - (trunc (d * cmPerM) - d * cmPerM) =
      d * cmPerM - (toShortCm d).toInt := by ring
  rw [hsub] at htri
  linarith

/-! ## One axis -/

/-- The start and the steps of an axis fit the message. -/
def FitsAxis : List K → Prop
  | [] => True
  | x :: xs => FitsInt x ∧ ∀ d ∈ steps x xs, FitsShort d

/-- The numbers of an axis that the decoder goes through. -/
def readAxis : List K → List K
  | [] => []
  | x :: xs => cutStart x :: walk (cutStart x) ((steps x xs).map cutStep)

/-- The `k`-th number, from zero, comes back within `k + 1` centimetres, for each of
at most sixty numbers, just when the start and the steps fit. -/
theorem axis_close_iff {xs : List K} (hlen : xs.length ≤ MAX_POINTS_IN_MESSAGE) :
    CloseFrom cm 0 xs (readAxis xs) ↔ FitsAxis xs := by
  cases xs with
  | nil => exact Iff.rfl
  | cons x xs =>
    have hcut : ∀ d : K, |d - cutStep d| < cm ∨
        2 * (MAX_POINTS_IN_MESSAGE : ℕ) * cm ≤ |d - cutStep d| := by
      intro d
      by_cases hfits : FitsShort d
      · exact Or.inl (cutStep_close hfits)
      · right
        have hsmall : (2 * (MAX_POINTS_IN_MESSAGE : ℕ) : K) ≤ 65535 := by
          exact_mod_cast (by decide : 2 * MAX_POINTS_IN_MESSAGE ≤ 65535)
        have hmul := mul_le_mul_of_nonneg_right hsmall (cm_pos (K := K)).le
        exact hmul.trans (cutStep_far hfits)
    have hstep : ∀ d : K, |d - cutStep d| < cm ↔ FitsShort d := by
      intro d
      constructor
      · intro hclose
        by_contra hnot
        have hbig := cutStep_far hnot
        have hpos : (0 : K) < cm := cm_pos
        linarith
      · exact cutStep_close
    simp only [readAxis, FitsAxis, CloseFrom, Nat.cast_zero, zero_add, one_mul,
      cutStart_close_iff]
    apply and_congr_right
    intro hstart
    have hclose : |x - cutStart x| < ((0 : ℕ) + 1) * cm := by
      simpa using (cutStart_close_iff x).mpr hstart
    have hwalk := walk_close_iff hcut (cm_pos (K := K)).le hclose
      (by simpa [Nat.add_comm] using hlen : 0 + 1 + xs.length ≤ MAX_POINTS_IN_MESSAGE)
    simpa only [hstep, zero_add] using hwalk

/-! ## Three axes -/

/-- The start and the steps of points fit the message. -/
def FitsMessage (points : List (Point3D K)) : Prop :=
  FitsAxis (points.map (·.x)) ∧ FitsAxis (points.map (·.y)) ∧ FitsAxis (points.map (·.z))

/-- On each axis the points are within `bound` of each other. -/
def Near (bound : K) (p q : Point3D K) : Prop :=
  |p.x - q.x| < bound ∧ |p.y - q.y| < bound ∧ |p.z - q.z| < bound

/-- The points that the decoder goes through after the first. -/
def moves : Point3D K → List LocationOffsetECEF → List (Point3D K)
  | _, [] => []
  | p, step :: steps => p.move step :: moves (p.move step) steps

omit [LinearOrder K] [IsStrictOrderedRing K] [FloorRing K] in
theorem moves_axis (axis : Point3D K → K) (cut : LocationOffsetECEF → K)
    (hmove : ∀ p step, axis (Point3D.move p step) = axis p + cut step) (p : Point3D K)
    (offsets : List LocationOffsetECEF) :
    (moves p offsets).map axis = walk (axis p) (offsets.map cut) := by
  induction offsets generalizing p with
  | nil => rfl
  | cons step offsets ih => simp only [moves, List.map_cons, walk, hmove, ih]

omit [IsStrictOrderedRing K] in
/-- An axis of the offsets is cut from the steps of that axis. -/
theorem offsets_axis (axis : Point3D K → K) (cut : LocationOffsetECEF → K)
    (hoffset : ∀ p q, cut (offset p q) = cutStep (axis q - axis p)) (prev : Point3D K)
    (points : List (ECEFPointStamped K)) :
    (offsetsFrom prev points).map cut =
      (steps (axis prev) (points.map (axis ·.point))).map cutStep := by
  induction points generalizing prev with
  | nil => rfl
  | cons p points ih => simp only [offsetsFrom, List.map_cons, steps, hoffset, ih]

/-- The points that the decoder goes through for a message. -/
def readPoints (msg : TrajectoryMsg) : List (Point3D K) :=
  startPoint msg :: moves (startPoint msg) msg.offsets

/-- An axis of the points, and how the message keeps it. -/
structure Axis (axis : Point3D K → K) (cut : LocationOffsetECEF → K) : Prop where
  move : ∀ (p : Point3D K) (step : LocationOffsetECEF), axis (p.move step) = axis p + cut step
  offset : ∀ p q : Point3D K, cut (offset p q) = cutStep (axis q - axis p)
  start : ∀ (p : ECEFPointStamped K) (ps : List (ECEFPointStamped K)),
    axis (startPoint (encode (p :: ps))) = cutStart (axis p.point)

omit [IsStrictOrderedRing K] in
theorem axis_x : Axis (fun p : Point3D K => p.x) (fun step => step.offsetX.toInt / cmPerM) :=
  ⟨fun _ _ => rfl, fun _ _ => rfl, fun _ _ => rfl⟩

omit [IsStrictOrderedRing K] in
theorem axis_y : Axis (fun p : Point3D K => p.y) (fun step => step.offsetY.toInt / cmPerM) :=
  ⟨fun _ _ => rfl, fun _ _ => rfl, fun _ _ => rfl⟩

omit [IsStrictOrderedRing K] in
theorem axis_z : Axis (fun p : Point3D K => p.z) (fun step => step.offsetZ.toInt / cmPerM) :=
  ⟨fun _ _ => rfl, fun _ _ => rfl, fun _ _ => rfl⟩

omit [IsStrictOrderedRing K] in
theorem readPoints_axis {axis : Point3D K → K} {cut : LocationOffsetECEF → K} (h : Axis axis cut)
    {points : List (ECEFPointStamped K)} (hne : points ≠ []) :
    (readPoints (encode points)).map axis = readAxis (points.map (axis ·.point)) := by
  cases points with
  | nil => exact absurd rfl hne
  | cons p ps =>
    simp only [readPoints, List.map_cons, readAxis, moves_axis axis cut h.move, h.start p ps]
    rw [← offsets_axis axis cut h.offset]
    rfl

theorem axis_near_iff {axis : Point3D K → K} {cut : LocationOffsetECEF → K} (h : Axis axis cut)
    {points : List (ECEFPointStamped K)} (hne : points ≠ [])
    (hlen : points.length ≤ MAX_POINTS_IN_MESSAGE) :
    (∀ (k : ℕ) (p : ECEFPointStamped K) (q : Point3D K), points[k]? = some p →
      (readPoints (encode points))[k]? = some q → |axis p.point - axis q| < ((k : K) + 1) * cm) ↔
    FitsAxis (points.map (axis ·.point)) := by
  have hlen' : (points.map (axis ·.point)).length ≤ MAX_POINTS_IN_MESSAGE := by
    simpa using hlen
  rw [← axis_close_iff hlen', ← readPoints_axis h hne, closeFrom_iff]
  simp only [List.getElem?_map, Option.map_eq_some_iff, zero_add]
  constructor
  · rintro hnear k _ _ ⟨p, hp, rfl⟩ ⟨q, hq, rfl⟩
    exact hnear k p q hp hq
  · intro hclose k p q hp hq
    exact hclose k _ _ ⟨p, hp, rfl⟩ ⟨q, hq, rfl⟩

/-- The points of a message are near those that went in, within a bound that grows by
a centimetre from point to point, just when these fit. -/
theorem readPoints_near_iff {points : List (ECEFPointStamped K)} (hne : points ≠ [])
    (hlen : points.length ≤ MAX_POINTS_IN_MESSAGE) :
    (∀ (k : ℕ) (p : ECEFPointStamped K) (q : Point3D K), points[k]? = some p →
      (readPoints (encode points))[k]? = some q → Near (((k : K) + 1) * cm) p.point q) ↔
    FitsMessage (points.map (·.point)) := by
  unfold FitsMessage
  simp only [List.map_map, Function.comp_def]
  rw [← axis_near_iff axis_x hne hlen, ← axis_near_iff axis_y hne hlen,
    ← axis_near_iff axis_z hne hlen]
  constructor
  · intro hnear
    exact ⟨fun k p q hp hq => (hnear k p q hp hq).1, fun k p q hp hq => (hnear k p q hp hq).2.1,
      fun k p q hp hq => (hnear k p q hp hq).2.2⟩
  · rintro ⟨hx, hy, hz⟩ k p q hp hq
    exact ⟨hx k p q hp hq, hy k p q hp hq, hz k p q hp hq⟩

/-! ## The decoder -/

omit [IsStrictOrderedRing K] [FloorRing K] in
theorem nextSegment_spec (c : PathConverter K F) {s : Decoding K F} (h : 0 ≤ s.segmentIdx) :
    ∃ next, s.nextSegment c = some next ∧ next.ecefPoint = s.ecefPoint ∧ 0 ≤ next.segmentIdx := by
  unfold Decoding.nextSegment
  split
  · rename_i hnext
    have hlow : 0 ≤ s.segmentIdx + 1 := by omega
    obtain ⟨seg, hseg⟩ := c.route.getSegment_isSome hlow (by omega)
    rw [hseg]
    exact ⟨_, rfl, rfl, by simp only; omega⟩
  · exact ⟨s, rfl, rfl, h⟩

omit [IsStrictOrderedRing K] [FloorRing K] in
/-- From an index that is not negative the loop goes through all the moves. -/
theorem decodeOffsets_spec (c : PathConverter K F) {s : Decoding K F} (h : 0 ≤ s.segmentIdx)
    (offsets : List LocationOffsetECEF) :
    ∃ rest, decodeOffsets c s offsets = some rest ∧
      rest.map Prod.fst = moves s.ecefPoint offsets := by
  induction offsets generalizing s with
  | nil => exact ⟨[], rfl, rfl⟩
  | cons step offsets ih =>
    obtain ⟨next, hnext, hpoint, hidx⟩ := nextSegment_spec c
      (s := { s with time := s.time + c.timeStep, ecefPoint := s.ecefPoint.move step }) h
    obtain ⟨rest, hrest, hmoves⟩ := ih hidx
    refine ⟨(next.ecefPoint, next.routePoint c) :: rest, ?_, ?_⟩
    · simp [decodeOffsets, hnext, hrest]
    · simp only [List.map_cons, hmoves, hpoint, moves]

omit [IsStrictOrderedRing K] [FloorRing K] in
/-- Where the current segment is on the route, and the segments are numbered within
it, every message is decoded. -/
theorem decode_spec (c : PathConverter K F)
    (hids : ∀ seg ∈ c.route.segments, 0 ≤ seg.uptrackWP.waypointId ∧
      seg.uptrackWP.waypointId ≤ c.route.segments.length)
    {currentSegmentIdx : ℤ} (hlow : 0 ≤ currentSegmentIdx)
    (hhigh : currentSegmentIdx < c.route.segments.length) (segDowntrack : K) (msg : TrajectoryMsg) :
    ∃ decoded, decode c msg currentSegmentIdx segDowntrack = some decoded ∧
      decoded.map Prod.fst = readPoints msg := by
  have hne := route_node.findRouteSubsection_ne_nil c.route hlow hhigh segDowntrack
    distanceToSearch distanceToSearch
  obtain ⟨seg, hmem, hseg⟩ := route_node.routeSegmentOfPoint_isSome c.geo (startPoint msg) hne
  have hid := hids seg (route_node.findRouteSubsection_subset _ _ _ _ _ seg hmem)
  have hlast : seg.uptrackWP.waypointId - 1 < c.route.segments.length := by omega
  obtain ⟨before, hbefore⟩ := c.route.lengthOfSegments_isSome hlast
  obtain ⟨rest, hrest, hmoves⟩ := decodeOffsets_spec c
    (s := ⟨msg.location.timestamp / msPerSec, startPoint msg, before, seg.uptrackWP.waypointId,
      seg⟩) hid.1 msg.offsets
  simp only [decode, hseg, hbefore, hrest, Option.bind_eq_bind, Option.bind_some, Option.pure_def,
    Option.some_inj, exists_eq_left', List.map_cons, hmoves, readPoints]

/-! ## There and back -/

omit [LinearOrder K] [Field K] [IsStrictOrderedRing K] [FloorRing K] in
theorem toECEFPoints_take (c : PathConverter K F) {path : List (RoutePoint K)}
    {points : List (ECEFPointStamped K)} (h : toECEFPoints c path = some points) (n : ℕ) :
    toECEFPoints c (path.take n) = some (points.take n) ∧ points.length = path.length := by
  induction path generalizing points n with
  | nil =>
    cases h
    simp [toECEFPoints]
  | cons point path ih =>
    simp only [toECEFPoints, Option.bind_eq_bind, Option.bind_eq_some_iff, Option.pure_def,
      Option.some_inj] at h
    obtain ⟨seg, hseg, rest, hrest, rfl⟩ := h
    obtain ⟨-, hlen⟩ := ih hrest 0
    cases n with
    | zero => simp [toECEFPoints, hlen]
    | succ n =>
      obtain ⟨htake, -⟩ := ih hrest n
      simp [toECEFPoints, hseg, htake, hlen]

omit [IsStrictOrderedRing K] in
theorem readPoints_length {points : List (ECEFPointStamped K)} (h : points ≠ []) :
    (readPoints (encode points) : List (Point3D K)).length = points.length := by
  have haxis := congrArg List.length (readPoints_axis axis_x h)
  rw [List.length_map] at haxis
  rw [haxis]
  cases points with
  | nil => exact absurd rfl h
  | cons p ps => simp [readAxis]

/-- The first sixty points of a path come back from its message. The `k`-th of them,
from zero, is within `k + 1` centimetres on each axis, for all of them, just when the
start and the steps between them fit the message. -/
theorem sixty_points_come_back_within_a_centimetre_a_step (c : PathConverter K F)
    (hids : ∀ seg ∈ c.route.segments, 0 ≤ seg.uptrackWP.waypointId ∧
      seg.uptrackWP.waypointId ≤ c.route.segments.length)
    (currentSegmentIdx : ℤ) (hlow : 0 ≤ currentSegmentIdx)
    (hhigh : currentSegmentIdx < c.route.segments.length) (segDowntrack : K)
    (path : List (RoutePoint K)) (hne : path ≠ []) (points : List (ECEFPointStamped K))
    (hpoints : toECEFPoints c path = some points) :
    ∃ msg decoded, pathToMessage c path = some msg ∧
      decode c msg currentSegmentIdx segDowntrack = some decoded ∧
      messageToPath c msg currentSegmentIdx segDowntrack = some (decoded.map Prod.snd) ∧
      decoded.length = min path.length MAX_POINTS_IN_MESSAGE ∧
      ((∀ (k : ℕ) (p : ECEFPointStamped K) (q : Point3D K × RoutePoint K), points[k]? = some p →
        decoded[k]? = some q → Near (((k : K) + 1) * cm) p.point q.1) ↔
      FitsMessage ((points.take MAX_POINTS_IN_MESSAGE).map (·.point))) := by
  obtain ⟨htake, hlen⟩ := toECEFPoints_take c hpoints MAX_POINTS_IN_MESSAGE
  have hmsg : pathToMessage c path = some (encode (points.take MAX_POINTS_IN_MESSAGE)) := by
    unfold pathToMessage
    rw [htake, Option.map_some]
  obtain ⟨decoded, hdecoded, hread⟩ := decode_spec c hids hlow hhigh segDowntrack
    (encode (points.take MAX_POINTS_IN_MESSAGE))
  have hne' : points.take MAX_POINTS_IN_MESSAGE ≠ [] := by
    intro hnil
    have hzero := congrArg List.length hnil
    rw [List.length_take, hlen, List.length_nil] at hzero
    have hpos := List.length_pos_of_ne_nil hne
    unfold MAX_POINTS_IN_MESSAGE at hzero
    omega
  have hcount : decoded.length = min path.length MAX_POINTS_IN_MESSAGE := by
    have hmap := congrArg List.length hread
    rw [List.length_map, readPoints_length hne', List.length_take, hlen] at hmap
    rw [hmap, min_comm]
  refine ⟨_, decoded, hmsg, hdecoded, ?_, hcount, ?_⟩
  · unfold messageToPath
    rw [hdecoded, Option.map_some]
  · rw [← readPoints_near_iff hne' (List.length_take_le _ _), ← hread]
    constructor
    · intro hnear k p q hp hq
      rw [List.getElem?_map, Option.map_eq_some_iff] at hq
      obtain ⟨d, hd, rfl⟩ := hq
      rw [List.getElem?_take] at hp
      split at hp
      · exact hnear k p d hp hd
      · cases hp
    · intro hnear k p d hp hd
      have hlt := (List.getElem?_eq_some_iff.mp hd).1
      apply hnear k p d.1
      · rw [List.getElem?_take, if_pos (by omega)]
        exact hp
      · rw [List.getElem?_map, hd, Option.map_some]

/-- A flat earth with three axes, and a road along the first. -/
def flatGeodesy : Geodesy ℚ (Point3D ℚ) ℚ where
  geodesic2Cartesian loc := ⟨loc.latitude, 0, 0⟩
  cartesian2Geodesic p := ⟨p.x, 0, 0⟩
  lineLength p q := |q.x - p.x|
  projectOntoLine _ _ p := p
  segmentFrame p _ := p.x
  xInFrame start p := p.x - start
  yInFrame _ p := p.y

def flatRoad : PathConverter ℚ ℚ where
  geo := flatGeodesy
  frameToEcef start along across := ⟨start + along, across, 0⟩
  timeStep := 1 / 10
  route := route_node.newRoute flatGeodesy
    [route_node.flatWaypoint 0 0, route_node.flatWaypoint 1000 0] "road" "road"

/-- A path that creeps along by nine tenths of a centimetre a step. -/
def creep : List (RoutePoint ℚ) :=
  [⟨0, 0, 0, 0, 0⟩, ⟨9 / 1000, 0, 1 / 10, 0, 9 / 1000⟩, ⟨18 / 1000, 0, 2 / 10, 0, 18 / 1000⟩,
    ⟨27 / 1000, 0, 3 / 10, 0, 27 / 1000⟩]

def creepPoints : List (ECEFPointStamped ℚ) :=
  [⟨⟨0, 0, 0⟩, 0⟩, ⟨⟨9 / 1000, 0, 0⟩, 1 / 10⟩, ⟨⟨18 / 1000, 0, 0⟩, 2 / 10⟩,
    ⟨⟨27 / 1000, 0, 0⟩, 3 / 10⟩]

theorem creep_points : toECEFPoints flatRoad creep = some creepPoints := by
  decide +kernel

theorem flatRoad_numbered : ∀ seg ∈ flatRoad.route.segments, 0 ≤ seg.uptrackWP.waypointId ∧
    seg.uptrackWP.waypointId ≤ flatRoad.route.segments.length := by
  decide +kernel

theorem a_creeping_path_comes_back_within_a_centimetre_a_step :
    ∃ msg decoded, pathToMessage flatRoad creep = some msg ∧
      messageToPath flatRoad msg 0 0 = some decoded ∧ decoded.length = 4 := by
  obtain ⟨msg, decoded, hmsg, -, hpath, hlen, -⟩ :=
    sixty_points_come_back_within_a_centimetre_a_step flatRoad flatRoad_numbered 0 (by decide)
      (by decide) 0 creep (by decide) creepPoints creep_points
  exact ⟨msg, decoded.map Prod.snd, hmsg, hpath, by rw [List.length_map, hlen]; rfl⟩

/-- The steps of the creeping path are all cut to nothing, and its fourth point is
almost three centimetres off. -/
theorem a_creeping_path_is_off_by_more_than_two_centimetres :
    ¬ ∀ (path : List (RoutePoint ℚ)) (points : List (ECEFPointStamped ℚ)), path ≠ [] →
      toECEFPoints flatRoad path = some points →
      ∃ msg decoded, pathToMessage flatRoad path = some msg ∧
        decode flatRoad msg 0 0 = some decoded ∧ decoded.length = path.length ∧
        ∀ (k : ℕ) (p : ECEFPointStamped ℚ) (q : Point3D ℚ × RoutePoint ℚ), points[k]? = some p →
          decoded[k]? = some q → |p.point.x - q.1.x| ≤ 2 / 100 ∧ |p.point.y - q.1.y| ≤ 2 / 100 ∧
            |p.point.z - q.1.z| ≤ 2 / 100 := by
  intro h
  obtain ⟨msg, decoded, hmsg, hdecode, hlen, hnear⟩ := h creep creepPoints (by decide) creep_points
  have hencode : msg = encode creepPoints := by
    have hpath : pathToMessage flatRoad creep = some (encode creepPoints) := by
      unfold pathToMessage
      rw [(toECEFPoints_take flatRoad creep_points _).1]
      rfl
    exact Option.some_inj.mp (hmsg.symm.trans hpath)
  obtain ⟨decoded', hdecode', hread⟩ := decode_spec flatRoad flatRoad_numbered
    le_rfl (by decide) 0 msg
  obtain rfl := Option.some_inj.mp (hdecode.symm.trans hdecode')
  have hx : (readPoints (encode creepPoints) : List (Point3D ℚ)).map (·.x) = [0, 0, 0, 0] := by
    decide +kernel
  rw [← hencode, ← hread, List.map_map] at hx
  have hfourth := congrArg (·[3]?) hx
  simp only [List.getElem?_map] at hfourth
  obtain ⟨q, hq, hq0⟩ := Option.map_eq_some_iff.mp hfourth
  have hoff := (hnear 3 _ q rfl hq).1
  have hzero : q.1.x = 0 := hq0
  rw [hzero] at hoff
  exact absurd hoff (by decide +kernel)

end carma.path_messages
