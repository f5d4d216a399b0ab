-- Routes: the segments between waypoints, their lanes, and the points of a path.
import Mathlib.Algebra.Order.Floor.Ring
import Mathlib.Algebra.Order.Field.Basic
import Carma.Lib.ExactDouble

open lib.exact_double

namespace carma.route

/-! ## Routes -/

/-- `RouteWaypoint`, with what the converter and the conflict detector read of it. -/
structure RouteWaypoint (K : Type) where
  waypointId : ℤ
  laneCount : ℤ
  laneWidth : K

structure RouteSegment (K : Type) where
  length : K
  uptrackWaypoint : RouteWaypoint K
  downtrackWaypoint : RouteWaypoint K

/-- `Route`: its segments, in order. -/
structure Route (K : Type) where
  segments : List (RouteSegment K)

/-- `getSegments().get(idx)`, none when it throws. -/
def Route.getSegment {K : Type} (route : Route K) (idx : ℤ) : Option (RouteSegment K) :=
  if idx < 0 then none else route.segments[idx.toNat]?

/-- `RoutePointStamped`. `D` is the type of its distances, `K` that of its stamp. -/
structure RoutePointStamped (D K : Type) where
  downtrack : D
  crosstrack : D
  stamp : K
  segmentIdx : ℤ
  segDowntrack : D
deriving DecidableEq

/-! ## Lanes -/

section lanes

variable {K : Type} [LinearOrder K] [Field K] [FloorRing K]

/-- The cast of a double to an int, once it is rounded. -/
def toInt (round : K → ℤ) : Dbl K → ℤ
  | .fin x => max (-2 ^ 31) (min (2 ^ 31 - 1) (round x))
  | .inf true => -2 ^ 31
  | .inf false => 2 ^ 31 - 1
  | .nan => 0

/-- The value of an int after an overflow. -/
def wrapInt (x : ℤ) : ℤ := x.bmod (2 ^ 32)

omit [LinearOrder K] [Field K] [FloorRing K] in
theorem wrapInt_of_fits {x : ℤ} (hlow : -2 ^ 31 ≤ x) (hhigh : x < 2 ^ 31) : wrapInt x = x := by
  unfold wrapInt
  rw [Int.bmod_eq_of_le]
  · omega
  · omega

omit [LinearOrder K] [Field K] [FloorRing K] in
theorem wrapInt_spec (x : ℤ) :
    -2 ^ 31 ≤ wrapInt x ∧ wrapInt x < 2 ^ 31 ∧ ∃ turns : ℤ, x = wrapInt x + 2 ^ 32 * turns := by
  have hlow := Int.le_bmod (x := x) (show 0 < 2 ^ 32 by decide)
  have hhigh := Int.bmod_lt (x := x) (show 0 < 2 ^ 32 by decide)
  exact ⟨hlow, hhigh, x.bdiv (2 ^ 32), (Int.bmod_add_bdiv x (2 ^ 32)).symm⟩

def RouteSegment.determinePrimaryLane (seg : RouteSegment K) (crossTrack : K) : ℤ :=
  let wp := seg.downtrackWaypoint
  let laneWidth := wp.laneWidth
  let across (segLane numLanesCrossed : ℤ) :=
    if crossTrack ≥ 0 then wrapInt (segLane - numLanesCrossed)
    else wrapInt (segLane + numLanesCrossed)
  if wp.laneCount.tmod 2 = 0 then
    let segLane := if crossTrack ≥ 0 then wp.laneCount.tdiv 2 - 1 else wp.laneCount.tdiv 2
    across segLane (toInt Int.floor (Dbl.fin |crossTrack| / Dbl.fin laneWidth))
  else
    let edgeOffset := laneWidth / (2 : ℕ)
    let segLane := wp.laneCount.tdiv 2
    if |crossTrack| < |edgeOffset| then segLane
    else
      across segLane (toInt Int.ceil (Dbl.fin (|crossTrack| - edgeOffset) / Dbl.fin laneWidth))

end lanes

end carma.route
