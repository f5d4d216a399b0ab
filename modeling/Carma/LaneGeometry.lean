-- How far a vehicle is from a lane of an intersection, and how far along it. Of a bent lane only
-- the segments at the nearest node are looked at, and a negative distance is cut towards zero.
import Carma.IntersectionGeometry
import Carma.Lib.Polylines
import Carma.Location

open carma.asd carma.ead.intersection_geometry lib.narrowing lib.polylines

namespace carma.ead.lane_geometry

variable {K : Type} [Field K]

/-! ## Points, vectors and segments -/

structure CartesianPoint2D (K : Type) where
  x : K
  y : K
deriving DecidableEq

structure CartesianVector2D (K : Type) where
  x : K
  y : K

namespace CartesianVector2D

def new (p1 p2 : CartesianPoint2D K) : CartesianVector2D K := ⟨p2.x - p1.x, p2.y - p1.y⟩

def multiply (v : CartesianVector2D K) (s : K) : CartesianVector2D K := ⟨s * v.x, s * v.y⟩

def dotProduct (v v2 : CartesianVector2D K) : K := v.x * v2.x + v.y * v2.y

def magnitude (sqrt : K → K) (v : CartesianVector2D K) : K := sqrt (v.x * v.x + v.y * v.y)

end CartesianVector2D

namespace CartesianPoint2D

def distanceFrom (sqrt : K → K) (p p2 : CartesianPoint2D K) : K :=
  let dx := p2.x - p.x
  let dy := p2.y - p.y
  sqrt (dx * dx + dy * dy)

def translate (p : CartesianPoint2D K) (t : CartesianVector2D K) : CartesianPoint2D K :=
  ⟨p.x + t.x, p.y + t.y⟩

def pair (p : CartesianPoint2D K) : K × K := (p.x, p.y)

end CartesianPoint2D

/-- A segment between two points that are not the same. -/
structure LineSegment2D (K : Type) where
  p0 : CartesianPoint2D K
  p1 : CartesianPoint2D K
  apart : p0 ≠ p1

namespace LineSegment2D

variable [LinearOrder K]

omit [Field K] in
/-- The constructor. None where it throws. -/
def new (p1 p2 : CartesianPoint2D K) : Option (LineSegment2D K) :=
  if h : p1.x = p2.x ∧ p1.y = p2.y then none
  else some ⟨p1, p2, fun heq => h (by simp [heq])⟩

omit [Field K] in
theorem new_of_apart {p q : CartesianPoint2D K} (h : p ≠ q) : new p q = some ⟨p, q, h⟩ := by
  unfold new
  rw [dif_neg]
  rintro ⟨hx, hy⟩
  apply h
  cases p
  cases q
  simp_all

omit [LinearOrder K] in
def v (s : LineSegment2D K) : CartesianVector2D K := CartesianVector2D.new s.p0 s.p1

omit [LinearOrder K] in
def dotProd (s : LineSegment2D K) (p : CartesianPoint2D K) : K :=
  s.v.dotProduct (CartesianVector2D.new s.p0 p)

omit [LinearOrder K] in
def magV2 (sqrt : K → K) (s : LineSegment2D K) : K := s.v.magnitude sqrt * s.v.magnitude sqrt

omit [LinearOrder K] in
/-- The base of the perpendicular to the line of the segment. -/
def translateToExtendedSegment (sqrt : K → K) (s : LineSegment2D K) (p : CartesianPoint2D K) :
    CartesianPoint2D K :=
  s.p0.translate (s.v.multiply (s.dotProd p / s.magV2 sqrt))

/-- -1 where the perpendicular falls outside the segment. -/
def shortestDistanceToPoint (sqrt : K → K) (s : LineSegment2D K) (p : CartesianPoint2D K) : K :=
  if s.dotProd p < 0 then -1
  else if s.magV2 sqrt < s.dotProd p then -1
  else (s.translateToExtendedSegment sqrt p).distanceFrom sqrt p

omit [LinearOrder K] in
def shortestDistanceToPointExtendedSegment (sqrt : K → K) (s : LineSegment2D K)
    (p : CartesianPoint2D K) : K :=
  (s.translateToExtendedSegment sqrt p).distanceFrom sqrt p

/-- None where the perpendicular falls outside the segment. -/
def translateTo (sqrt : K → K) (s : LineSegment2D K) (p : CartesianPoint2D K) :
    Option (CartesianPoint2D K) :=
  if 0 ≤ s.dotProd p then
    if s.dotProd p ≤ s.magV2 sqrt then some (s.translateToExtendedSegment sqrt p) else none
  else none

end LineSegment2D

/-! ## The lane -/

section

variable [LinearOrder K]

omit [Field K] in
/-- The segments that join each node with the previous one. None where two are the same. -/
def join : List (CartesianPoint2D K) → Option (List (LineSegment2D K))
  | p0 :: p1 :: rest =>
    (LineSegment2D.new p0 p1).bind fun seg => (join (p1 :: rest)).map (seg :: ·)
  | _ => some []

omit [Field K] in
theorem join_ends : ∀ {points : List (CartesianPoint2D K)} {segments : List (LineSegment2D K)},
    join points = some segments → segments.map (fun s => (s.p0, s.p1)) = points.zip points.tail
  | [], _, h => by
    obtain rfl := Option.some.inj h
    rfl
  | [_], _, h => by
    obtain rfl := Option.some.inj h
    rfl
  | p0 :: p1 :: rest, segments, h => by
    unfold join LineSegment2D.new at h
    split at h
    · simp at h
    · obtain ⟨others, hothers, rfl⟩ := Option.map_eq_some_iff.mp h
      simp [join_ends hothers]

omit [Field K] in
theorem join_of_apart : ∀ {points : List (CartesianPoint2D K)}, points.IsChain (· ≠ ·) →
    ∃ segments, join points = some segments
  | [], _ => ⟨[], rfl⟩
  | [_], _ => ⟨[], rfl⟩
  | p0 :: p1 :: rest, h => by
    rw [List.isChain_cons_cons] at h
    obtain ⟨segments, hrest⟩ := join_of_apart h.2
    simp [join, LineSegment2D.new_of_apart h.1, hrest]

end

/-- The rectangle around the nodes, in cm. -/
structure Box where
  maxX : ℤ
  maxY : ℤ
  minX : ℤ
  minY : ℤ

namespace Box

def new : Box where
  maxX := -MAX_VALUE
  maxY := -MAX_VALUE
  minX := MAX_VALUE
  minY := MAX_VALUE

def record (b : Box) (x y : ℤ) : Box where
  maxX := if x > b.maxX then x else b.maxX
  maxY := if y > b.maxY then y else b.maxY
  minX := if x < b.minX then x else b.minX
  minY := if y < b.minY then y else b.minY

/-- The tolerance all around. -/
def finalize (b : Box) : Box where
  maxX := wrap 31 (b.maxX + 4 * THRESHOLD_DIST)
  maxY := wrap 31 (b.maxY + 4 * THRESHOLD_DIST)
  minX := wrap 31 (b.minX - 4 * THRESHOLD_DIST)
  minY := wrap 31 (b.minY - 4 * THRESHOLD_DIST)

end Box

/-- The nodes as points, the segments between them, and the distances of the location that was
asked for last. -/
structure LaneGeometry (K : Type) where
  box : Box
  dtsb_ : ℤ
  cte_ : ℤ
  points : List (CartesianPoint2D K)
  segments : List (LineSegment2D K)
  joined : segments.map (fun s => (s.p0, s.p1)) = points.zip points.tail
  reference : Location K
  inputLocation : Option (Location K)

variable [LinearOrder K] [FloorRing K]

/-- A location as a point with the reference point as its origin. -/
def toPoint (cos : K → K) (reference l : Location K) : CartesianPoint2D K :=
  ⟨(l.eastOffsetFrom cos reference : K), (l.northOffsetFrom reference : K)⟩

namespace LaneGeometry

/-- The constructor. None where it throws. -/
def new (cos : K → K) (ref : Location K) (nodes : List (Location K)) : Option (LaneGeometry K) :=
  match h : join (nodes.map (toPoint cos ref)) with
  | none => none
  | some segments => some
    { box := (nodes.foldl (fun b node =>
        b.record (node.eastOffsetFrom cos ref) (node.northOffsetFrom ref)) Box.new).finalize
      dtsb_ := MAX_VALUE
      cte_ := MAX_VALUE
      points := nodes.map (toPoint cos ref)
      segments := segments
      joined := join_ends h
      reference := ref
      inputLocation := none }

/-- A lane whose nodes are apart, each from the next, is not refused. -/
theorem new_of_apart {cos : K → K} {ref : Location K} {nodes : List (Location K)}
    (h : (nodes.map (toPoint cos ref)).IsChain (· ≠ ·)) :
    ∃ g, new cos ref nodes = some g ∧ g.points = nodes.map (toPoint cos ref) ∧
      g.reference = ref ∧ g.box = (nodes.foldl (fun b node =>
        b.record (node.eastOffsetFrom cos ref) (node.northOffsetFrom ref)) Box.new).finalize := by
  obtain ⟨segments, hsegments⟩ := join_of_apart h
  unfold new
  split
  · rename_i hnone
    rw [hsegments] at hnone
    cases hnone
  · exact ⟨_, rfl, rfl, rfl, rfl⟩

def inBoundingBox (cos : K → K) (g : LaneGeometry K) (latLon : Location K) : Bool :=
  let x := latLon.eastOffsetFrom cos g.reference
  let y := latLon.northOffsetFrom g.reference
  decide ((x > g.box.minX ∧ x < g.box.maxX) ∧ (y > g.box.minY ∧ y < g.box.maxY))

end LaneGeometry

/-! ## The distances -/

omit [FloorRing K] in
/-- The loop for the closest node: the nodes from a number on, and the closest one so far with its
distance. The first one is always taken: no distance between int coordinates is as large as
`Double.MAX_VALUE`. -/
def closer (sqrt : K → K) (vehicle : CartesianPoint2D K) :
    ℕ → Option (ℕ × K) → List (CartesianPoint2D K) → Option (ℕ × K)
  | _, best, [] => best
  | i, none, p :: ps => closer sqrt vehicle (i + 1) (some (i, p.distanceFrom sqrt vehicle)) ps
  | i, some (closestNode, minDist), p :: ps =>
    let dist := p.distanceFrom sqrt vehicle
    closer sqrt vehicle (i + 1)
      (if dist < minDist then some (i, dist) else some (closestNode, minDist)) ps

omit [LinearOrder K] [FloorRing K] in
/-- The loop for the downtrack distance, from the sum and the point before. -/
def sumTo (sqrt : K → K) : K → CartesianPoint2D K → List (CartesianPoint2D K) → K
  | sum, _, [] => sum
  | sum, prevPoint, curPoint :: rest =>
    sumTo sqrt (sum + prevPoint.distanceFrom sqrt curPoint) curPoint rest

/-- What one call finds: the cross-track error and, where no exception is trapped after that, the
node of interest and the distance to it. -/
structure Reading (K : Type) where
  cte : ℤ
  along : Option (ℕ × K)

namespace LaneGeometry

omit [Field K] [FloorRing K] in
/-- The segment from a node to the next one. None where an access throws or the constructor. -/
def segmentFrom (g : LaneGeometry K) (i : ℕ) : Option (LineSegment2D K) :=
  (g.points[i]?).bind fun p => (g.points[i + 1]?).bind fun q => LineSegment2D.new p q

omit [Field K] [FloorRing K] in
/-- The segment on one side of the closest node, where the lane has one there. -/
def adjacent (g : LaneGeometry K) (there : Bool) (i : ℕ) : Option (Option (LineSegment2D K)) :=
  if there then (g.segmentFrom i).map some else some none

omit [FloorRing K] in
/-- The vehicle is beside a segment: the node of interest is the downtrack one. -/
def besideSegment (sqrt : K → K) (g : LaneGeometry K) (vehicle : CartesianPoint2D K)
    (seg : LineSegment2D K) (downtrackNode : ℕ) : Option (ℕ × K) :=
  (seg.translateTo sqrt vehicle).bind fun vehicleTranslated =>
    (g.points[downtrackNode]?).map fun node =>
      (downtrackNode, node.distanceFrom sqrt vehicleTranslated)

/-- The vehicle is near a node but outside of its segments. -/
def besideNone (sqrt : K → K) (g : LaneGeometry K) (vehicle : CartesianPoint2D K)
    (closestNode : ℕ) : Option (Reading K) :=
  (g.points[closestNode]?).bind fun node =>
    if closestNode = 0 then
      (g.segments[0]?).map fun seg =>
        ⟨roundedInt (seg.shortestDistanceToPointExtendedSegment sqrt vehicle), some (closestNode,
          -node.distanceFrom sqrt (seg.translateToExtendedSegment sqrt vehicle))⟩
    else if closestNode = g.points.length - 1 then
      (g.segments[g.segments.length - 1]?).map fun seg =>
        ⟨roundedInt (seg.shortestDistanceToPointExtendedSegment sqrt vehicle), some (closestNode,
          node.distanceFrom sqrt (seg.translateToExtendedSegment sqrt vehicle))⟩
    else
      -- cut, not rounded
      some ⟨saturate 31 (trunc (node.distanceFrom sqrt vehicle)), some (closestNode, 0)⟩

/-- What is found from the closest node. None where an exception is trapped before anything is
stored. -/
def measure (sqrt : K → K) (g : LaneGeometry K) (vehicle : CartesianPoint2D K)
    (closestNode : ℕ) : Option (Reading K) :=
  (g.adjacent (0 < closestNode) (closestNode - 1)).bind fun segA =>
  (g.adjacent (closestNode < g.points.length - 1) closestNode).bind fun segB =>
    let distToA := (segA.map (·.shortestDistanceToPoint sqrt vehicle)).getD (-1)
    let distToB := (segB.map (·.shortestDistanceToPoint sqrt vehicle)).getD (-1)
    if 0 ≤ distToA ∨ 0 ≤ distToB then
      if 0 ≤ distToA ∧ (distToA < distToB ∨ distToB < 0) then
        some ⟨roundedInt distToA,
          segA.bind fun seg => g.besideSegment sqrt vehicle seg (closestNode - 1)⟩
      else some ⟨roundedInt distToB,
        segB.bind fun seg => g.besideSegment sqrt vehicle seg closestNode⟩
    else g.besideNone sqrt vehicle closestNode

/-- The downtrack distance from a node to the stop bar. -/
def downtrack (sqrt : K → K) (g : LaneGeometry K) (nodeOfInterest : ℕ) : K :=
  match g.points with
  | [] => 0
  | first :: rest => sumTo sqrt 0 first (rest.take nodeOfInterest)

def computeDistances (cos sqrt : K → K) (g : LaneGeometry K) (latLon : Location K) :
    LaneGeometry K :=
  let vehicle := toPoint cos g.reference latLon
  match (closer sqrt vehicle 0 none g.points).bind fun closest =>
    g.measure sqrt vehicle closest.1 with
  | none => { g with dtsb_ := MAX_VALUE }
  | some reading =>
    { g with
      cte_ := reading.cte
      dtsb_ := match reading.along with
        | none => MAX_VALUE
        | some (nodeOfInterest, distToDowntrackNode) =>
          roundedInt (g.downtrack sqrt nodeOfInterest + distToDowntrackNode) }

/-- The distances are computed again for another location than the last. -/
def refresh (cos sqrt : K → K) (g : LaneGeometry K) (latLon : Location K) : LaneGeometry K :=
  if g.inputLocation = some latLon then g
  else { g.computeDistances cos sqrt latLon with inputLocation := some latLon }

def dtsb (cos sqrt : K → K) (g : LaneGeometry K) (latLon : Location K) : ℤ × LaneGeometry K :=
  ((g.refresh cos sqrt latLon).dtsb_, g.refresh cos sqrt latLon)

def cte (cos sqrt : K → K) (g : LaneGeometry K) (latLon : Location K) : ℤ × LaneGeometry K :=
  ((g.refresh cos sqrt latLon).cte_, g.refresh cos sqrt latLon)

end LaneGeometry

end carma.ead.lane_geometry
