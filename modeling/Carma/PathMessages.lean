-- The message of a path: a start in centimetres of the earth frame, and the steps
-- from point to point in centimetres. The functions are `toECEFPoints`,
-- `pathToMessage` and `messageToPath` of `TrajectoryConverter`.
import Carma.Lib.Narrowing
import Carma.RouteSearch

open lib.narrowing lib.exact_double
open carma.route
open carma.route_node (Geodesy RouteSegment routeSegmentOfPoint)

namespace carma.path_messages

/-! ## Points -/

structure Point3D (K : Type) where
  x : K
  y : K
  z : K
deriving DecidableEq

abbrev RoutePoint (K : Type) := RoutePointStamped K K

structure ECEFPointStamped (K : Type) where
  point : Point3D K
  stamp : K
deriving DecidableEq

/-- What `TrajectoryConverter` has for path messages. `frameToEcef` takes the place
along and across a segment to the earth frame. -/
structure PathConverter (K F : Type) where
  geo : Geodesy K (Point3D K) F
  frameToEcef : F → K → K → Point3D K
  timeStep : K
  route : route_node.Route K F

/-! ## Messages -/

/-- `cav_msgs.LocationECEF`, in centimetres and milliseconds. -/
structure LocationECEF where
  ecefX : ℤ
  ecefY : ℤ
  ecefZ : ℤ
  timestamp : ℤ

/-- `cav_msgs.LocationOffsetECEF`, in centimetres. -/
structure LocationOffsetECEF where
  offsetX : BitVec 16
  offsetY : BitVec 16
  offsetZ : BitVec 16

/-- `cav_msgs.Trajectory`. -/
structure TrajectoryMsg where
  location : LocationECEF
  offsets : List LocationOffsetECEF

def MAX_POINTS_IN_MESSAGE : ℕ := 60

variable {K F : Type} [Field K]

def cmPerM : K := (100 : ℕ)

def msPerSec : K := (1000 : ℕ)

section encode

variable [LinearOrder K] [FloorRing K]

def toCm (x : K) : ℤ := route.toInt trunc (.fin (x * cmPerM))

def toShortCm (x : K) : BitVec 16 := BitVec.ofInt 16 (toCm x)

def toMs (stamp : K) : ℤ := max (-2 ^ 63) (min (2 ^ 63 - 1) (trunc (stamp * msPerSec)))

/-- `toECEFPoints`, none where it throws. -/
def toECEFPoints (c : PathConverter K F) : List (RoutePoint K) → Option (List (ECEFPointStamped K))
  | [] => some []
  | point :: path => do
    let seg ← c.route.getSegment point.segmentIdx
    let ecefPoints ← toECEFPoints c path
    pure (⟨c.frameToEcef seg.ecefToUptrackWP point.segDowntrack point.crosstrack, point.stamp⟩ ::
      ecefPoints)

def offset (prevPoint point : Point3D K) : LocationOffsetECEF where
  offsetX := toShortCm (point.x - prevPoint.x)
  offsetY := toShortCm (point.y - prevPoint.y)
  offsetZ := toShortCm (point.z - prevPoint.z)

def offsetsFrom : Point3D K → List (ECEFPointStamped K) → List LocationOffsetECEF
  | _, [] => []
  | prevPoint, p :: ps => offset prevPoint p.point :: offsetsFrom p.point ps

def encode : List (ECEFPointStamped K) → TrajectoryMsg
  | [] => ⟨⟨0, 0, 0, 0⟩, []⟩
  | p :: ps =>
    ⟨⟨toCm p.point.x, toCm p.point.y, toCm p.point.z, toMs p.stamp⟩, offsetsFrom p.point ps⟩

/-- `pathToMessage`, none where it throws. -/
def pathToMessage (c : PathConverter K F) (routePath : List (RoutePoint K)) :
    Option TrajectoryMsg :=
  (toECEFPoints c (routePath.take MAX_POINTS_IN_MESSAGE)).map encode

end encode

/-! ## Back to a path -/

section decode

variable [LinearOrder K]

structure Decoding (K F : Type) where
  time : K
  ecefPoint : Point3D K
  downtrackOfSegment : K
  segmentIdx : ℤ
  currentSegment : RouteSegment K F

/-- `DISTANCE_BACKWARD_TO_SEARCH` and `DISTANCE_FORWARD_TO_SEARCH`. -/
def distanceToSearch : K := (500 : ℕ)

def Point3D.move (p : Point3D K) (step : LocationOffsetECEF) : Point3D K :=
  ⟨p.x + step.offsetX.toInt / cmPerM, p.y + step.offsetY.toInt / cmPerM,
    p.z + step.offsetZ.toInt / cmPerM⟩

/-- Go to the next segment of the route if the point is past this one, none where it throws. -/
def Decoding.nextSegment (c : PathConverter K F) (s : Decoding K F) : Option (Decoding K F) :=
  if s.currentSegment.length < c.geo.xInFrame s.currentSegment.ecefToUptrackWP s.ecefPoint ∧
      s.segmentIdx < c.route.segments.length - 1 then
    (c.route.getSegment (s.segmentIdx + 1)).map fun seg =>
      { s with
        downtrackOfSegment := s.downtrackOfSegment + s.currentSegment.length
        segmentIdx := s.segmentIdx + 1
        currentSegment := seg }
  else some s

/-- The point on the route that is added for a point in the earth frame. -/
def Decoding.routePoint (c : PathConverter K F) (s : Decoding K F) : RoutePoint K :=
  let x := c.geo.xInFrame s.currentSegment.ecefToUptrackWP s.ecefPoint
  ⟨x + s.downtrackOfSegment, c.geo.yInFrame s.currentSegment.ecefToUptrackWP s.ecefPoint, s.time,
    s.segmentIdx, x⟩

/-- The loop of `messageToPath`: each point in the earth frame, and on the route. -/
def decodeOffsets (c : PathConverter K F) :
    Decoding K F → List LocationOffsetECEF → Option (List (Point3D K × RoutePoint K))
  | _, [] => some []
  | s, step :: steps => do
    let moved := { s with time := s.time + c.timeStep, ecefPoint := s.ecefPoint.move step }
    let next ← moved.nextSegment c
    let rest ← decodeOffsets c next steps
    pure ((next.ecefPoint, next.routePoint c) :: rest)

def startPoint (msg : TrajectoryMsg) : Point3D K :=
  ⟨msg.location.ecefX / cmPerM, msg.location.ecefY / cmPerM, msg.location.ecefZ / cmPerM⟩

/-- The points that `messageToPath` goes through in the earth frame, each with the
point that it gives. None where it throws. -/
def decode (c : PathConverter K F) (msg : TrajectoryMsg) (currentSegmentIdx : ℤ)
    (segDowntrack : K) : Option (List (Point3D K × RoutePoint K)) := do
  let segments := c.route.findRouteSubsection currentSegmentIdx segDowntrack distanceToSearch
    distanceToSearch
  let ecefPoint := startPoint msg
  let startingSegment ← routeSegmentOfPoint c.geo ecefPoint segments
  let startIdx := startingSegment.uptrackWP.waypointId
  let downtrackOfSegment ← c.route.lengthOfSegments 0 (startIdx - 1)
  let time : K := msg.location.timestamp / msPerSec
  let s : Decoding K F := ⟨time, ecefPoint, downtrackOfSegment, startIdx, startingSegment⟩
  let rest ← decodeOffsets c s msg.offsets
  pure ((ecefPoint, { s.routePoint c with segDowntrack := segDowntrack }) :: rest)

/-- `messageToPath`, none where it throws. -/
def messageToPath (c : PathConverter K F) (msg : TrajectoryMsg) (currentSegmentIdx : ℤ)
    (segDowntrack : K) : Option (List (RoutePoint K)) :=
  (decode c msg currentSegmentIdx segDowntrack).map fun points => points.map Prod.snd

end decode

end carma.path_messages
