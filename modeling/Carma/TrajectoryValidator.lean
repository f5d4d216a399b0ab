-- The trajectory validator: constraints that visit the maneuvers of a
-- trajectory one by one and then give a result. A constraint keeps its state
-- from one trajectory to the next, unless it puts it back itself.
import Mathlib.Algebra.Order.Field.Basic
import Mathlib.Algebra.Order.Group.Abs
import Carma.Trajectory

open carma.maneuvers
open carma.trajectory

namespace carma.trajectory_validator

/-! ## Results -/

/-- A text with numbers in it. -/
abbrev Text (K : Type) := List (String ⊕ K)

structure TrajectoryValidationError (K : Type) where
  errorDescriptor : Text K
  offendingManeuvers : List (IManeuver K)

structure TrajectoryValidationResult (K : Type) where
  error : Option (TrajectoryValidationError K)

def TrajectoryValidationResult.getSuccess {K : Type} (r : TrajectoryValidationResult K) : Bool :=
  r.error.isNone

/-- `new TrajectoryValidationResult()`. -/
def success {K : Type} : TrajectoryValidationResult K := ⟨none⟩

/-- `new TrajectoryValidationResult(error)`. -/
def failure {K : Type} (errorDescriptor : Text K) (offendingManeuvers : List (IManeuver K)) :
    TrajectoryValidationResult K := ⟨some ⟨errorDescriptor, offendingManeuvers⟩⟩

/-- `getType` of two of the constraints: all that is not longitudinal counts as
lateral, a complex maneuver too. -/
def getType {K : Type} : IManeuver K → ManeuverType
  | .simple (.longitudinal _) => .LONGITUDINAL
  | _ => .LATERAL

/-- A constraint asks `instanceof LongitudinalManeuver`. -/
def asLongitudinal {K : Type} : IManeuver K → Option (LongitudinalManeuver K)
  | .simple (.longitudinal m) => some m
  | _ => none

variable {K : Type} [LinearOrder K]

/-! ## Overlapping maneuvers -/

structure OverlappingManeuversConstraint (K : Type) where
  visited : List (IManeuver K)

/-- `checkOverlap`, case by case as in the source. -/
def checkOverlap (start1 end1 start2 end2 : K) : Bool :=
  if start2 ≥ start1 ∧ start2 < end1 then true
  else if end2 > start1 ∧ end2 < end1 then true
  else if start2 ≤ start1 ∧ end2 ≥ end1 then true
  else if start1 ≥ start2 ∧ start1 < end2 then true
  else if end1 > start2 ∧ end1 < end2 then true
  else if start1 ≤ start2 ∧ end1 ≥ end2 then true
  else false

/-- Two maneuvers that `getResult` does not accept together. -/
def clashes (m m2 : IManeuver K) : Bool :=
  checkOverlap m.startDist m.endDist m2.startDist m2.endDist && decide (getType m = getType m2)

/-- The two loops of `getResult`: the first pair that clashes. -/
def firstClash : List (IManeuver K) → Option (IManeuver K × IManeuver K)
  | [] => none
  | m :: ms =>
    match ms.find? (clashes m) with
    | some m2 => some (m, m2)
    | none => firstClash ms

def OverlappingManeuversConstraint.visit (c : OverlappingManeuversConstraint K)
    (maneuver : IManeuver K) : OverlappingManeuversConstraint K :=
  { c with visited := c.visited ++ [maneuver] }

/-- `getResult`. A failure returns before the list of visited maneuvers is put
back. -/
def OverlappingManeuversConstraint.getResult (c : OverlappingManeuversConstraint K) :
    TrajectoryValidationResult K × OverlappingManeuversConstraint K :=
  match firstClash c.visited with
  | some (m, m2) => (failure [.inl "Overlapping maneuvers detected!"] [m, m2], c)
  | none => (success, { c with visited := [] })

/-! ## Minimum distance between maneuvers -/

structure MinimumDistanceBetweenManeuversConstraint (K : Type) where
  lastLateralManeuver : Option (IManeuver K)
  lastLongitudinalManeuver : Option (IManeuver K)
  valid : Bool
  offendingManeuvers : List (IManeuver K)
  minimumDistanceBetweenManeuvers : K

section numbers

variable [Field K]

/-- Whether two maneuvers of one type follow each other too closely. -/
def tooClose (minDist : K) (last maneuver : IManeuver K) : Bool :=
  decide (|last.endDist - maneuver.startDist| < minDist)

def MinimumDistanceBetweenManeuversConstraint.visit
    (c : MinimumDistanceBetweenManeuversConstraint K) (maneuver : IManeuver K) :
    MinimumDistanceBetweenManeuversConstraint K :=
  if !c.valid then c
  else if getType maneuver = .LATERAL then
    match c.lastLateralManeuver with
    | some last =>
      if tooClose c.minimumDistanceBetweenManeuvers last maneuver then
        { c with
          valid := false
          offendingManeuvers := c.offendingManeuvers ++ [last, maneuver]
          lastLateralManeuver := some maneuver }
      else { c with lastLateralManeuver := some maneuver }
    | none => { c with lastLateralManeuver := some maneuver }
  else
    match c.lastLongitudinalManeuver with
    | some last =>
      if tooClose c.minimumDistanceBetweenManeuvers last maneuver then
        { c with
          valid := false
          offendingManeuvers := c.offendingManeuvers ++ [last, maneuver]
          lastLongitudinalManeuver := some maneuver }
      else { c with lastLongitudinalManeuver := some maneuver }
    | none => { c with lastLongitudinalManeuver := some maneuver }

end numbers

def MinimumDistanceBetweenManeuversConstraint.reset
    (c : MinimumDistanceBetweenManeuversConstraint K) :
    MinimumDistanceBetweenManeuversConstraint K :=
  { c with
    valid := true
    lastLongitudinalManeuver := none
    lastLateralManeuver := none
    offendingManeuvers := [] }

def MinimumDistanceBetweenManeuversConstraint.getResult
    (c : MinimumDistanceBetweenManeuversConstraint K) :
    TrajectoryValidationResult K × MinimumDistanceBetweenManeuversConstraint K :=
  if c.valid then (success, c.reset)
  else
    (failure [.inl "Minimum distance between maneuvers not observed!"] c.offendingManeuvers, c.reset)

/-! ## Global speed limit -/

structure GlobalSpeedLimitConstraint (K : Type) where
  globalSpeedLimit : K
  offendingManeuvers : List (IManeuver K)

/-- Whether a longitudinal maneuver starts or ends above the limit. -/
def exceeds (limit : K) (m : LongitudinalManeuver K) : Bool :=
  decide (m.motion.startSpeed > limit) || decide (m.motion.endSpeed > limit)

def GlobalSpeedLimitConstraint.visit (c : GlobalSpeedLimitConstraint K) (maneuver : IManeuver K) :
    GlobalSpeedLimitConstraint K :=
  match asLongitudinal maneuver with
  | none => c
  | some lonMvr =>
    if exceeds c.globalSpeedLimit lonMvr then
      { c with offendingManeuvers := c.offendingManeuvers ++ [maneuver] }
    else c

def GlobalSpeedLimitConstraint.getResult (c : GlobalSpeedLimitConstraint K) :
    TrajectoryValidationResult K × GlobalSpeedLimitConstraint K :=
  if c.offendingManeuvers.isEmpty then (success, { c with offendingManeuvers := [] })
  else
    (failure [.inl "Maneuvers exceed Global Speed Limit of ", .inr c.globalSpeedLimit, .inl "m/s"]
      c.offendingManeuvers, { c with offendingManeuvers := [] })

/-! ## Local speed limit -/

/-- `SpeedLimit`: the limit of a route segment, and the distance at its end. -/
structure SpeedLimit (K : Type) where
  speedLimit : K
  location : K

structure LocalSpeedLimitConstraint (K : Type) where
  speedLimits : List (SpeedLimit K)
  offendingManeuvers : List (IManeuver K)

/-- What `processRoute` reads of a route segment: its length and the speed limit
of its waypoint, in miles per hour. -/
structure SegmentLimit (K : Type) where
  length : K
  speedLimit : Int8

def getLimitAtDistance (speedLimits : List (SpeedLimit K)) (dist : K) : Option (SpeedLimit K) :=
  speedLimits.find? fun limit => decide (limit.location > dist)

variable [Field K]

def mphToMpsFactor : K := 44704 / 100000

def distanceEpsilon : K := 1 / 10000

def generalVehicleLag : K := (3 : ℕ) / (2 : ℕ)

def mphToMps (milesPerHour : Int8) : K := (milesPerHour.toInt : K) * mphToMpsFactor

/-- `processRoute`, from the distance at the start of the first segment. -/
def processRoute (dtdAccum : K) : List (SegmentLimit K) → List (SpeedLimit K)
  | [] => []
  | seg :: segs =>
    ⟨mphToMps seg.speedLimit, dtdAccum + seg.length⟩ :: processRoute (dtdAccum + seg.length) segs

/-- A steady speed that is there only because of the lag of the vehicle. -/
def withinLag : LongitudinalManeuver K → Bool
  | .single .steadySpeed m => decide (m.endDist - m.startDist ≤ generalVehicleLag * m.startSpeed)
  | _ => false

/-- Whether `visit` adds the maneuver to the offending ones. The loop over the
spanned limits at the end of `visit` only writes to the log. -/
def offends (speedLimits : List (SpeedLimit K)) (lonMvr : LongitudinalManeuver K) : Bool :=
  match lonMvr with
  | .single .slowDown m =>
    match getLimitAtDistance speedLimits (m.endDist - distanceEpsilon) with
    | none => true
    | some _ => decide (m.endSpeed ≥ m.startSpeed)
  | _ =>
    if withinLag lonMvr then false
    else
      match getLimitAtDistance speedLimits lonMvr.startDist,
        getLimitAtDistance speedLimits (lonMvr.endDist - distanceEpsilon) with
      | some start, some end_ =>
        !(decide (lonMvr.motion.startSpeed ≤ start.speedLimit) &&
          decide (lonMvr.motion.endSpeed ≤ end_.speedLimit))
      | _, _ => true

def LocalSpeedLimitConstraint.visit (c : LocalSpeedLimitConstraint K) (maneuver : IManeuver K) :
    LocalSpeedLimitConstraint K :=
  match asLongitudinal maneuver with
  | none => c
  | some lonMvr =>
    if offends c.speedLimits lonMvr then
      { c with offendingManeuvers := c.offendingManeuvers ++ [maneuver] }
    else c

def LocalSpeedLimitConstraint.getResult (c : LocalSpeedLimitConstraint K) :
    TrajectoryValidationResult K × LocalSpeedLimitConstraint K :=
  if c.offendingManeuvers.isEmpty then (success, { c with offendingManeuvers := [] })
  else
    (failure [.inl "Maneuvers exceed route defined Speed Limit"] c.offendingManeuvers,
      { c with offendingManeuvers := [] })

/-! ## The validator -/

inductive TrajectoryValidationConstraint (K : Type)
  | overlapping (c : OverlappingManeuversConstraint K)
  | minimumDistance (c : MinimumDistanceBetweenManeuversConstraint K)
  | globalSpeedLimit (c : GlobalSpeedLimitConstraint K)
  | localSpeedLimit (c : LocalSpeedLimitConstraint K)

open TrajectoryValidationConstraint

def TrajectoryValidationConstraint.visit (m : IManeuver K) :
    TrajectoryValidationConstraint K → TrajectoryValidationConstraint K
  | overlapping c => overlapping (c.visit m)
  | minimumDistance c => minimumDistance (c.visit m)
  | globalSpeedLimit c => globalSpeedLimit (c.visit m)
  | localSpeedLimit c => localSpeedLimit (c.visit m)

def TrajectoryValidationConstraint.getResult :
    TrajectoryValidationConstraint K →
      TrajectoryValidationResult K × TrajectoryValidationConstraint K
  | overlapping c => (c.getResult.1, overlapping c.getResult.2)
  | minimumDistance c => (c.getResult.1, minimumDistance c.getResult.2)
  | globalSpeedLimit c => (c.getResult.1, globalSpeedLimit c.getResult.2)
  | localSpeedLimit c => (c.getResult.1, localSpeedLimit c.getResult.2)

/-- `TrajectoryValidator`: the registered constraints, each with its state. -/
structure TrajectoryValidator (K : Type) where
  constraints : List (TrajectoryValidationConstraint K)

def TrajectoryValidator.addValidationConstraint (v : TrajectoryValidator K)
    (c : TrajectoryValidationConstraint K) : TrajectoryValidator K :=
  { v with constraints := v.constraints ++ [c] }

/-- `validate`: every constraint visits every maneuver, then each gives its
result, and the answer is the conjunction. -/
def TrajectoryValidator.validate (v : TrajectoryValidator K) (traj : Trajectory K) :
    Bool × TrajectoryValidator K :=
  let visited := traj.getManeuvers.foldl (fun cs m => cs.map (·.visit m)) v.constraints
  let valid := visited.foldl (fun valid c => valid && c.getResult.1.getSuccess) true
  (valid, { v with constraints := visited.map (·.getResult.2) })

end carma.trajectory_validator
