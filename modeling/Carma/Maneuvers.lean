-- The maneuvers of guidance, with what a trajectory, its validator and its
-- converter read of them. Distances and speeds are numbers of a field `K`.
import Mathlib.Data.Int.Notation

namespace carma.maneuvers

/-! ## Simple maneuvers -/

/-- The classes of longitudinal maneuvers that some code asks for by name. -/
inductive LongitudinalKind
  | slowDown
  | speedUp
  | steadySpeed
  | other
deriving DecidableEq, Repr

/-- Where a longitudinal maneuver starts and ends, and at which speeds. -/
structure Motion (K : Type) where
  startDist : K
  endDist : K
  startSpeed : K
  endSpeed : K
deriving DecidableEq

/-- `LongitudinalManeuver`. A `FutureLongitudinalManeuver` carries the
maneuvers that it has been filled with, which may be such again. -/
inductive LongitudinalManeuver (K : Type)
  | single (kind : LongitudinalKind) (motion : Motion K)
  | future (motion : Motion K) (mvrs : List (LongitudinalManeuver K))

def LongitudinalManeuver.motion {K : Type} : LongitudinalManeuver K → Motion K
  | single _ m => m
  | future m _ => m

def LongitudinalManeuver.startDist {K : Type} (m : LongitudinalManeuver K) : K := m.motion.startDist

def LongitudinalManeuver.endDist {K : Type} (m : LongitudinalManeuver K) : K := m.motion.endDist

/-- `LateralManeuver`. A `FutureLateralManeuver` carries its own list. -/
inductive LateralManeuver (K : Type)
  | single (startDist endDist : K) (endingRelativeLane : ℤ)
  | future (startDist endDist : K) (endingRelativeLane : ℤ) (mvrs : List (LateralManeuver K))

def LateralManeuver.startDist {K : Type} : LateralManeuver K → K
  | single s _ _ => s
  | future s _ _ _ => s

def LateralManeuver.endDist {K : Type} : LateralManeuver K → K
  | single _ e _ => e
  | future _ e _ _ => e

def LateralManeuver.endingRelativeLane {K : Type} : LateralManeuver K → ℤ
  | single _ _ l => l
  | future _ _ l _ => l

/-- `ISimpleManeuver`: of one of the two base classes, or of neither. -/
inductive ISimpleManeuver (K : Type)
  | longitudinal (m : LongitudinalManeuver K)
  | lateral (m : LateralManeuver K)
  | neither (startDist endDist : K)

/-! ## All maneuvers -/

/-- `IComplexManeuver`. -/
structure IComplexManeuver (K : Type) where
  startDist : K
  endDist : K
  minExpectedSpeed : K
  maxExpectedSpeed : K
deriving DecidableEq

inductive IManeuver (K : Type)
  | simple (m : ISimpleManeuver K)
  | complex (m : IComplexManeuver K)

inductive ManeuverType
  | LATERAL
  | LONGITUDINAL
  | COMPLEX
deriving DecidableEq, Repr

variable {K : Type}

def ISimpleManeuver.startDist : ISimpleManeuver K → K
  | longitudinal m => m.startDist
  | lateral m => m.startDist
  | neither s _ => s

def ISimpleManeuver.endDist : ISimpleManeuver K → K
  | longitudinal m => m.endDist
  | lateral m => m.endDist
  | neither _ e => e

/-- `getStartDistance`. -/
def IManeuver.startDist : IManeuver K → K
  | simple m => m.startDist
  | complex m => m.startDist

/-- `getEndDistance`. -/
def IManeuver.endDist : IManeuver K → K
  | simple m => m.endDist
  | complex m => m.endDist

/-- A longitudinal maneuver as one of all maneuvers. -/
def ofLongitudinal (m : LongitudinalManeuver K) : IManeuver K := .simple (.longitudinal m)

/-- A lateral maneuver as one of all maneuvers. -/
def ofLateral (m : LateralManeuver K) : IManeuver K := .simple (.lateral m)

end carma.maneuvers
