-- Routes of the route node: the segments that are built from a list of waypoints,
-- the waypoints that are put in later, and the messages of both. The functions are
-- those of `RouteSegment` and `Route`.
import Carma.RouteWaypoints
import Mathlib.Algebra.Order.Ring.Rat
import Mathlib.Data.Rat.Floor

namespace carma.route_node

/-! ## The shape of the earth -/

/-- What a route asks of `GeodesicCartesianConverter`, `LineSegment3D` and the
transforms. `P` is a point of the earth frame, `F` a frame at the start of a segment. -/
structure Geodesy (K P F : Type) where
  geodesic2Cartesian : Location K → P
  cartesian2Geodesic : P → Location K
  lineLength : P → P → K
  projectOntoLine : P → P → P → P
  segmentFrame : P → P → F
  xInFrame : F → P → K
  yInFrame : F → P → K

variable {K P F : Type}

def RouteWaypoint.getECEFPoint (geo : Geodesy K P F) (wp : RouteWaypoint K) : P :=
  geo.geodesic2Cartesian wp.location

/-! ## Segments -/

/-- `RouteSegment`. Its length and its frame are those that its waypoints had when it
was built. -/
@[ext] structure RouteSegment (K F : Type) where
  uptrackWP : RouteWaypoint K
  downtrackWP : RouteWaypoint K
  length : K
  ecefToUptrackWP : F

namespace RouteSegment

/-- `new RouteSegment`. -/
def new (geo : Geodesy K P F) (uptrackWP downtrackWP : RouteWaypoint K) : RouteSegment K F :=
  ⟨uptrackWP, downtrackWP,
    geo.lineLength (uptrackWP.getECEFPoint geo) (downtrackWP.getECEFPoint geo),
    geo.segmentFrame (uptrackWP.getECEFPoint geo) (downtrackWP.getECEFPoint geo)⟩

def downTrackDistance (geo : Geodesy K P F) (seg : RouteSegment K F) (point : P) : K :=
  geo.xInFrame seg.ecefToUptrackWP point

def crossTrackDistance (geo : Geodesy K P F) (seg : RouteSegment K F) (point : P) : K :=
  geo.yInFrame seg.ecefToUptrackWP point

def projectOntoSegment (geo : Geodesy K P F) (seg : RouteSegment K F) (loc : Location K) :
    Location K :=
  geo.cartesian2Geodesic <| geo.projectOntoLine (seg.uptrackWP.getECEFPoint geo)
    (seg.downtrackWP.getECEFPoint geo) (geo.geodesic2Cartesian loc)

/-- The segment as the guidance reads it. -/
def toGuidance (seg : RouteSegment K F) : route.RouteSegment K :=
  ⟨seg.length, seg.uptrackWP.toRouteWaypoint, seg.downtrackWP.toRouteWaypoint⟩

end RouteSegment

/-! ## Routes -/

structure Route (K F : Type) where
  routeID : String
  routeName : String
  routeLength : K
  maxJoinDistance : K
  segments : List (RouteSegment K F)
  waypoints : List (RouteWaypoint K)
  valid : Bool

/-- `getSegments().get(index)`, none where it throws. -/
def Route.getSegment (route : Route K F) (index : ℤ) : Option (RouteSegment K F) :=
  if index < 0 then none else route.segments[index.toNat]?

theorem Route.getSegment_eq_some_iff (route : Route K F) (index : ℤ) (seg : RouteSegment K F) :
    route.getSegment index = some seg ↔ 0 ≤ index ∧ route.segments[index.toNat]? = some seg := by
  unfold Route.getSegment
  split
  · rename_i hneg
    simp [not_le.mpr hneg]
  · rename_i hpos
    simp [not_lt.mp hpos]

theorem Route.getSegment_isSome (route : Route K F) {index : ℤ} (hlow : 0 ≤ index)
    (hhigh : index < route.segments.length) : ∃ seg, route.getSegment index = some seg := by
  have hlt : index.toNat < route.segments.length := by omega
  exact ⟨_, (Route.getSegment_eq_some_iff _ _ _).mpr ⟨hlow, List.getElem?_eq_getElem hlt⟩⟩

/-- The loop variables of `setWaypoints`: the segments so far, and the waypoints so
far, of which the last is `prevWaypoint` and the one before `prevPrevWaypoint`. -/
structure Building (K F : Type) where
  segments : List (RouteSegment K F)
  passed : List (RouteWaypoint K)
  prevWaypoint : Option (RouteWaypoint K)
  updatePreviousWP : Bool

namespace Building

def prevPrevWaypoint (b : Building K F) : Option (RouteWaypoint K) := b.passed.getLast?

def waypoints (b : Building K F) : List (RouteWaypoint K) := b.passed ++ b.prevWaypoint.toList

/-- `prevWaypoint` as the new segment takes it: moved back in line with the waypoint
before it, when the lane changed between those two. -/
def placed (geo : Geodesy K P F) (b : Building K F) (prevWaypoint waypoint : RouteWaypoint K) :
    RouteWaypoint K :=
  match b.updatePreviousWP, b.prevPrevWaypoint with
  | true, some prevPrevWaypoint =>
    { prevWaypoint with
      location := (RouteSegment.new geo prevWaypoint waypoint).projectOntoSegment geo
        prevPrevWaypoint.location }
  | _, _ => prevWaypoint

/-- One turn of the loop. -/
def turn (geo : Geodesy K P F) (b : Building K F) (waypoint : RouteWaypoint K) : Building K F :=
  match b.prevWaypoint with
  | none => { b with prevWaypoint := some waypoint }
  | some prevWaypoint =>
    if prevWaypoint.laneIndex = waypoint.laneIndex then
      let prevWaypoint := b.placed geo prevWaypoint waypoint
      { segments := b.segments ++ [RouteSegment.new geo prevWaypoint waypoint]
        passed := b.passed ++ [prevWaypoint]
        prevWaypoint := some waypoint
        updatePreviousWP := false }
    else
      { b with
        passed := b.passed ++ [prevWaypoint]
        prevWaypoint := some waypoint
        updatePreviousWP := true }

end Building

/-- The loop of `setWaypoints`. -/
def build (geo : Geodesy K P F) (waypointList : List (RouteWaypoint K)) : Building K F :=
  waypointList.foldl (Building.turn geo) ⟨[], [], none, false⟩

section lengths

variable [AddCommMonoid K]

def calculateLength (segments : List (RouteSegment K F)) : K := (segments.map (·.length)).sum

def Route.setWaypoints (geo : Geodesy K P F) (route : Route K F)
    (waypointList : List (RouteWaypoint K)) : Route K F :=
  let built := build geo waypointList
  { route with
    waypoints := built.waypoints
    segments := built.segments
    routeLength := calculateLength built.segments }

end lengths

section messages

variable [LinearOrder K] [Field K] [FloorRing K]

/-- `new Route(waypoints, routeID, routeName)`. -/
def newRoute (geo : Geodesy K P F) (waypoints : List (RouteWaypoint K))
    (routeID routeName : String) : Route K F :=
  Route.setWaypoints geo ⟨routeID, routeName, 0, (20 : ℕ), [], [], false⟩ waypoints

/-- `lengthOfSegments`, none where a segment is not there. -/
def Route.lengthOfSegments (route : Route K F) (startIndex finalIndex : ℤ) : Option K :=
  if finalIndex < startIndex then some 0
  else if startIndex < 0 then none
  else if finalIndex.toNat < route.segments.length then
    some (calculateLength ((route.segments.take (finalIndex.toNat + 1)).drop startIndex.toNat))
  else none

omit [LinearOrder K] [FloorRing K] in
theorem Route.lengthOfSegments_isSome (route : Route K F) {finalIndex : ℤ}
    (h : finalIndex < route.segments.length) :
    ∃ length, route.lengthOfSegments 0 finalIndex = some length := by
  unfold Route.lengthOfSegments
  split_ifs with h1 h2 h3
  · exact ⟨_, rfl⟩
  · omega
  · exact ⟨_, rfl⟩
  · omega

/-! ## Insertion -/

/-- The exceptions of `insertWaypoint`. -/
inductive InsertException where
  | illegalArgument
  | indexOutOfBounds
deriving DecidableEq

/-- `insertWaypoint`. An exception leaves the route as it was. -/
def Route.insertWaypoint (geo : Geodesy K P F) (route : Route K F) (waypoint : RouteWaypoint K)
    (index : ℕ) : Except InsertException (Route K F) :=
  let inserted (segments : List (RouteSegment K F)) : Route K F :=
    { route with
      segments := segments
      waypoints := route.waypoints.insertIdx index waypoint
      routeLength := calculateLength segments }
  match index with
  | 0 =>
    match route.waypoints with
    | [] => .error .indexOutOfBounds
    | first :: _ =>
      if waypoint.laneIndex = first.laneIndex then
        .ok (inserted (RouteSegment.new geo waypoint first :: route.segments))
      else .error .illegalArgument
  | before + 1 =>
    match route.waypoints[before]?, route.waypoints[before + 1]? with
    | some uptrack, some downtrack =>
      if waypoint.laneIndex = uptrack.laneIndex ∧ waypoint.laneIndex = downtrack.laneIndex then
        if before < route.segments.length then
          .ok (inserted (route.segments.take before ++
            [RouteSegment.new geo uptrack waypoint, RouteSegment.new geo waypoint downtrack] ++
            route.segments.drop (before + 1)))
        else .error .indexOutOfBounds
      else .error .illegalArgument
    | some uptrack, none =>
      if waypoint.laneIndex = uptrack.laneIndex then
        .ok (inserted (route.segments ++ [RouteSegment.new geo uptrack waypoint]))
      else .error .illegalArgument
    | none, _ => .error .illegalArgument

/-! ## Messages -/

structure RouteSegmentMsg (K F : Type) where
  waypoint : RouteWaypointMsg K
  prevWaypoint : RouteWaypointMsg K
  length : K
  frdPose : F

/-- `cav_msgs.Route`. -/
structure RouteMsg (K F : Type) where
  routeID : String
  routeName : String
  valid : Bool
  segments : List (RouteSegmentMsg K F)

/-- `RouteSegment.toMessage`, none where it throws. -/
def RouteSegment.toMessage (toFloat : K → K) (seg : RouteSegment K F) (downtrackWPIndex : ℤ) :
    Option (RouteSegmentMsg K F) := do
  let prevWaypoint ← seg.uptrackWP.toMessage toFloat (downtrackWPIndex - 1)
  let waypoint ← seg.downtrackWP.toMessage toFloat downtrackWPIndex
  pure ⟨waypoint, prevWaypoint, seg.length, seg.ecefToUptrackWP⟩

/-- The messages of the segments, numbered from `i + 1`. -/
def segmentMsgs (toFloat : K → K) : ℤ → List (RouteSegment K F) → Option (List (RouteSegmentMsg K F))
  | _, [] => some []
  | i, seg :: segs => do
    let msg ← seg.toMessage toFloat (i + 1)
    let msgs ← segmentMsgs toFloat (i + 1) segs
    pure (msg :: msgs)

/-- `Route.toMessage`, none where it throws. -/
def Route.toMessage (toFloat : K → K) (route : Route K F) : Option (RouteMsg K F) :=
  (segmentMsgs toFloat 0 route.segments).map (⟨route.routeID, route.routeName, route.valid, ·⟩)

/-- The waypoints that `Route.fromMessage` takes from the segments. -/
def waypointsOfMsgs (msgs : List (RouteSegmentMsg K F)) : List (RouteWaypoint K) :=
  match msgs with
  | [] => []
  | msg :: _ =>
    RouteWaypoint.fromMessage msg.prevWaypoint ::
      msgs.map (fun msg => RouteWaypoint.fromMessage msg.waypoint)

def Route.fromMessage (geo : Geodesy K P F) (msg : RouteMsg K F) : Route K F :=
  newRoute geo (waypointsOfMsgs msg.segments) msg.routeID msg.routeName

end messages

/-! ## An earth to try routes on -/

/-- A flat earth: the first axis is the latitude. -/
def flatEarth : Geodesy ℚ ℚ ℚ where
  geodesic2Cartesian loc := loc.latitude
  cartesian2Geodesic x := ⟨x, 0, 0⟩
  lineLength a b := |b - a|
  projectOntoLine _ _ x := x
  segmentFrame a _ := a
  xInFrame a x := x - a
  yInFrame _ _ := 0

/-- A waypoint of the flat earth. -/
def flatWaypoint (latitude : ℚ) (laneIndex : ℤ) : RouteWaypoint ℚ :=
  { newRouteWaypoint ⟨latitude, 0, 0⟩ with laneWidth := 7 / 2, laneIndex := laneIndex }

end carma.route_node
