-- The trajectory of guidance: two interval trees of simple maneuvers, one for
-- each direction of control, and at most one complex maneuver.
import Carma.Maneuvers
import Carma.IntervalTree

open lib
open carma.interval_tree
open carma.maneuvers

namespace carma.trajectory

structure Trajectory (K : Type) [LE K] where
  startLocation : K
  endLocation : K
  lateralManeuvers : IntervalTree K (LateralManeuver K)
  longitudinalManeuvers : IntervalTree K (LongitudinalManeuver K)
  complexManeuver : Option (IComplexManeuver K)

variable {K V : Type} [LinearOrder K]

def newTrajectory (startLocation endLocation : K) : Trajectory K where
  startLocation := startLocation
  endLocation := endLocation
  lateralManeuvers := buildIntervalTree
  longitudinalManeuvers := buildIntervalTree
  complexManeuver := none

/-- `new Interval`: it throws when the interval is inverted. -/
def newInterval (data : Option V) (start end_ : K) : Option (Interval K V) :=
  if h : start ≤ end_ then some ⟨data, start, end_, h⟩ else none

/-! ## Searches -/

/-- `getNextManeuverAfter` in the tree of one type: the first interval after
the one at `loc`, if there is one at `loc`. -/
def nextAfter (tree : IntervalTree K V) (loc endLocation : K) : Option (Option V) :=
  match tree.findIntersectionsWithPt loc with
  | mvrAtPt :: _ => do
    let q ← newInterval none mvrAtPt.end_ endLocation
    return (tree.findIntersectionsWith q).head?.bind (·.data)
  | [] => do
    let q ← newInterval none loc endLocation
    return (tree.findIntersectionsWith q).head?.bind (·.data)

/-- `getNextManeuverAfter`. `none` stands for the exception of an inverted
interval, and `some none` for null. -/
def Trajectory.getNextManeuverAfter (t : Trajectory K) (loc : K) :
    ManeuverType → Option (Option (IManeuver K))
  | .LONGITUDINAL =>
    (nextAfter t.longitudinalManeuvers loc t.endLocation).map (·.map ofLongitudinal)
  | .LATERAL => (nextAfter t.lateralManeuvers loc t.endLocation).map (·.map ofLateral)
  | .COMPLEX => some (t.complexManeuver.bind fun c =>
      if loc < c.startDist then some (.complex c) else none)

def intersects (tree : IntervalTree K V) (start end_ : K) : Option Bool := do
  let q ← newInterval none start end_
  return !(tree.findIntersectionsWith q).isEmpty

/-! ## Listings -/

def Trajectory.getLateralManeuvers (t : Trajectory K) : List (LateralManeuver K) :=
  t.lateralManeuvers.toSortedList

def Trajectory.getLongitudinalManeuvers (t : Trajectory K) : List (LongitudinalManeuver K) :=
  t.longitudinalManeuvers.toSortedList

/-- The loop of `getManeuvers`: it takes from the laterals in both branches.
What it returns is `out` and what is left of each list. -/
def peel : List (LateralManeuver K) → List (LongitudinalManeuver K) → List (IManeuver K) →
    List (IManeuver K) × List (LateralManeuver K) × List (LongitudinalManeuver K)
  | [], longitudinals, out => (out, [], longitudinals)
  | laterals, [], out => (out, laterals, [])
  | lat :: laterals, lon :: longitudinals, out =>
    if lon.startDist ≤ lat.startDist then
      peel laterals (lon :: longitudinals) (out ++ [ofLateral lat])
    else peel laterals (lon :: longitudinals) (out ++ [ofLateral lat])

def Trajectory.getManeuvers (t : Trajectory K) : List (IManeuver K) :=
  let (out, laterals, longitudinals) := peel t.getLateralManeuvers t.getLongitudinalManeuvers []
  let out := if laterals.isEmpty then out ++ longitudinals.map ofLongitudinal
    else if longitudinals.isEmpty then out ++ laterals.map ofLateral
    else out
  match t.complexManeuver with
  | some c => out ++ [.complex c]
  | none => out

/-! ## The calls that change a trajectory -/

variable [Field K]

/-- The loop of `findEarliestLongitudinalWindowOfSize`. -/
def earliestWindow (size endLocation : K) : K → List (K × K) → K
  | lastEnd, [] => if lastEnd < endLocation ∧ endLocation - lastEnd ≥ size then lastEnd else -1
  | lastEnd, (start, end_) :: rest =>
    if start - lastEnd ≥ size then lastEnd else earliestWindow size endLocation end_ rest

def Trajectory.findEarliestLongitudinalWindowOfSize (t : Trajectory K) (size : K) : K :=
  let maneuvers := t.getLongitudinalManeuvers.map (fun m => (m.startDist, m.endDist)) ++
    t.complexManeuver.toList.map fun m => (m.startDist, m.endDist)
  if maneuvers.isEmpty then t.startLocation
  else earliestWindow size t.endLocation t.startLocation maneuvers

/-- Insert the interval of a maneuver into the tree of its type. -/
def insertManeuver (tree : IntervalTree K V) (m : V) (start end_ : K) :
    Option Bool × IntervalTree K V :=
  match newInterval (some m) start end_ with
  | none => (none, tree)
  | some x => (some (tree.insert x).1, (tree.insert x).2)

/-- `addManeuver`. The answer is `none` when the call throws. -/
def Trajectory.addManeuver (t : Trajectory K) (maneuver : ISimpleManeuver K) :
    Option Bool × Trajectory K :=
  if maneuver.startDist ≥ t.startLocation ∧ maneuver.endDist ≤ t.endLocation then
    match maneuver with
    | .longitudinal m =>
      let (ok, tree) := insertManeuver t.longitudinalManeuvers m m.startDist m.endDist
      (ok, { t with longitudinalManeuvers := tree })
    | .lateral m =>
      let (ok, tree) := insertManeuver t.lateralManeuvers m m.startDist m.endDist
      (ok, { t with lateralManeuvers := tree })
    | .neither _ _ => (some false, t)
  else (some false, t)

/-- The checks of `setComplexManeuver`, in their order. -/
def Trajectory.fitsComplex (t : Trajectory K) (maneuver : IComplexManeuver K) : Option Bool :=
  if t.complexManeuver.isSome then some false
  else if ¬ (maneuver.startDist ≥ t.startLocation ∧ maneuver.endDist ≤ t.endLocation) then
    some false
  else do
    let lon ← t.getNextManeuverAfter maneuver.startDist .LONGITUDINAL
    if lon.isSome then return false
    let lat ← t.getNextManeuverAfter maneuver.startDist .LATERAL
    if lat.isSome then return false
    let overLat ← intersects t.lateralManeuvers maneuver.startDist maneuver.endDist
    if overLat then return false
    let overLon ← intersects t.longitudinalManeuvers maneuver.startDist maneuver.endDist
    if overLon then return false
    return true

/-- `setComplexManeuver`. Null is refused. -/
def Trajectory.setComplexManeuver (t : Trajectory K) (maneuver : Option (IComplexManeuver K)) :
    Option Bool × Trajectory K :=
  match maneuver with
  | none => (some false, t)
  | some m =>
    match t.fitsComplex m with
    | some true => (some true, { t with endLocation := m.endDist, complexManeuver := some m })
    | answer => (answer, t)

/-- The call for one maneuver in `copyManeuvers`. -/
def Trajectory.put (t : Trajectory K) : IManeuver K → Option Bool × Trajectory K
  | .simple m => t.addManeuver m
  | .complex m => t.setComplexManeuver (some m)

/-- Insert maneuvers into a tree, as the copy constructor does. -/
def insertEach (startOf endOf : V → K) (tree : IntervalTree K V) : List V → IntervalTree K V
  | [] => tree
  | m :: ms => insertEach startOf endOf (insertManeuver tree m (startOf m) (endOf m)).2 ms

/-- `new Trajectory(traj)`. -/
def copyOf (traj : Trajectory K) : Trajectory K where
  startLocation := traj.startLocation
  endLocation := traj.endLocation
  lateralManeuvers :=
    insertEach (·.startDist) (·.endDist) buildIntervalTree traj.lateralManeuvers.toSortedList
  longitudinalManeuvers :=
    insertEach (·.startDist) (·.endDist) buildIntervalTree
      traj.longitudinalManeuvers.toSortedList
  complexManeuver := traj.complexManeuver

/-- Put maneuvers one after the other, up to the first that is not accepted. -/
def putEach (t : Trajectory K) : List (IManeuver K) → Option Bool
  | [] => some true
  | m :: ms =>
    match t.put m with
    | (some true, t') => putEach t' ms
    | (answer, _) => answer

/-- Put maneuvers one after the other, whatever the answers are. A call that
throws ends it. -/
def putAll (t : Trajectory K) : List (IManeuver K) → Option Bool × Trajectory K
  | [] => (some true, t)
  | m :: ms =>
    match t.put m with
    | (none, t') => (none, t')
    | (some _, t') => putAll t' ms

def toBeCopied (src : Trajectory K) (startDowntrack endDowntrack : K) : List (IManeuver K) :=
  src.getManeuvers.filter fun mvr =>
    decide (mvr.startDist ≥ startDowntrack) && decide (mvr.endDist ≤ endDowntrack)

/-- `copyManeuvers`: first into a copy, and when all goes well for real. -/
def Trajectory.copyManeuvers (t src : Trajectory K) (startDowntrack endDowntrack : K) :
    Option Bool × Trajectory K :=
  let mvrs := toBeCopied src startDowntrack endDowntrack
  match putEach (copyOf t) mvrs with
  | some true => putAll t mvrs
  | answer => (answer, t)

end carma.trajectory
