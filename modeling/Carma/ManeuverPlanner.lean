-- How longitudinal maneuvers are planned: the three classes of them, the factory that
-- picks one by the speeds, and the planner.
import Mathlib.Algebra.Order.Field.Basic
import Carma.Maneuvers

open carma.maneuvers

namespace carma.maneuver_planner

/-- `LongitudinalManeuver`, while it is planned. -/
structure PlannedManeuver (K : Type) where
  kind : LongitudinalKind
  motion : Motion K
  maxAccel : K
  workingAccel : K

/-- What the maneuvers ask of `IManeuverInputs`, and the square root. -/
structure Inputs (K : Type) where
  responseLag : K
  sqrt : K → K

/-- The maneuver as a trajectory takes it. -/
def PlannedManeuver.toManeuver {K : Type} (m : PlannedManeuver K) : LongitudinalManeuver K :=
  .single m.kind m.motion

variable {K : Type} [LinearOrder K] [Field K]

def half : K := 1 / (2 : ℕ)

/-- Seconds that cover a time step and settling. -/
def fifth : K := 1 / (5 : ℕ)

def SMALL_SPEED_CHANGE : K := (5 : ℕ) / (2 : ℕ)

/-- `SteadySpeed.SPEED_EPSILON`. -/
def STEADY_EPSILON : K := 1 / (20 : ℕ)

/-! ## Creation -/

def newManeuver (kind : LongitudinalKind) : PlannedManeuver K :=
  ⟨kind, ⟨-1, -1, -1, -1⟩, (999 : ℕ) / (1000 : ℕ), 0⟩

/-- `createManeuver` of `SimpleManeuverFactory`. -/
def createManeuver (start_speed end_speed : K) : PlannedManeuver K :=
  if end_speed - start_speed > STEADY_EPSILON then newManeuver .speedUp
  else if start_speed - end_speed > STEADY_EPSILON then newManeuver .slowDown
  else newManeuver .steadySpeed

def PlannedManeuver.setSpeeds (m : PlannedManeuver K) (startSpeed targetSpeed : K) :
    PlannedManeuver K :=
  { m with motion := { m.motion with startSpeed := startSpeed, endSpeed := targetSpeed } }

def PlannedManeuver.setMaxAccel (m : PlannedManeuver K) (limit : K) : PlannedManeuver K :=
  if limit > 0 then { m with maxAccel := limit } else m

/-! ## Plans without an end -/

/-- `plan` of `LongitudinalManeuver`, none where it throws. -/
def PlannedManeuver.planBase (m : PlannedManeuver K) (startDist : K) : Option (PlannedManeuver K) :=
  let m := { m with motion := { m.motion with startDist := startDist } }
  if m.motion.startSpeed < -half ∨ m.motion.endSpeed < -half then none else some m

def SteadySpeed.plan (m : PlannedManeuver K) (startDist : K) : Option (PlannedManeuver K) := do
  let m ← m.planBase startDist
  if |m.motion.startSpeed - m.motion.endSpeed| > STEADY_EPSILON then none
  else
    some { m with
      motion := { m.motion with endDist := startDist }
      workingAccel := half * m.maxAccel }

def SpeedUp.plan (inputs : Inputs K) (m : PlannedManeuver K) (startDist : K) :
    Option (PlannedManeuver K) := do
  let m ← m.planBase startDist
  let startSpeed := m.motion.startSpeed
  let endSpeed := m.motion.endSpeed
  if endSpeed ≤ startSpeed then none
  else
    let deltaV := endSpeed - startSpeed
    let workingAccel := if deltaV < SMALL_SPEED_CHANGE then half * m.maxAccel else m.maxAccel
    let idealLength := (startSpeed * deltaV + half * deltaV * deltaV) / workingAccel
    let lagDistance := startSpeed * inputs.responseLag
    some { m with
      motion := { m.motion with
        endDist := m.motion.startDist + idealLength + lagDistance + fifth * endSpeed }
      workingAccel := workingAccel }

def SlowDown.plan (inputs : Inputs K) (m : PlannedManeuver K) (startDist : K) :
    Option (PlannedManeuver K) := do
  let m ← m.planBase startDist
  let startSpeed := m.motion.startSpeed
  let endSpeed := m.motion.endSpeed
  if endSpeed ≥ startSpeed then none
  else
    let deltaV := endSpeed - startSpeed
    let workingAccel := if -deltaV < SMALL_SPEED_CHANGE then -half * m.maxAccel else -m.maxAccel
    let idealLength := (startSpeed * deltaV + half * deltaV * deltaV) / workingAccel
    let lagDistance := startSpeed * inputs.responseLag
    some { m with
      motion := { m.motion with
        endDist := m.motion.startDist + idealLength + lagDistance + fifth * endSpeed }
      workingAccel := workingAccel }

/-- `planManeuver(m, startDist)`. No other class of maneuvers is created here. -/
def planManeuver (inputs : Inputs K) (m : PlannedManeuver K) (startDist : K) :
    Option (PlannedManeuver K) :=
  match m.kind with
  | .steadySpeed => SteadySpeed.plan m startDist
  | .speedUp => SpeedUp.plan inputs m startDist
  | .slowDown => SlowDown.plan inputs m startDist
  | .other => none

/-! ## Plans up to an end -/

/-- The distance that is left for a change of speed. Where the response takes it all, the
response is left out. -/
def displacementFor (inputs : Inputs K) (startSpeed startDist endDist : K) : K :=
  let lagDistance := startSpeed * inputs.responseLag
  let rawDisplacement := endDist - startDist
  let displacement := rawDisplacement - lagDistance
  if displacement ≤ 0 then rawDisplacement else displacement

def SteadySpeed.planToTargetDistance (m : PlannedManeuver K) (startDist endDist : K) :
    Option (PlannedManeuver K) :=
  if |m.motion.startSpeed - m.motion.endSpeed| > STEADY_EPSILON then none
  else
    some { m with
      motion := { m.motion with startDist := startDist, endDist := endDist }
      workingAccel := half * m.maxAccel }

/-- `planToTargetDistance` of `SpeedUp`. What it returns is the end speed of the maneuver. -/
def SpeedUp.planToTargetDistance (inputs : Inputs K) (m : PlannedManeuver K)
    (startDist endDist : K) : Option (PlannedManeuver K) :=
  let startSpeed := m.motion.startSpeed
  let endSpeed := m.motion.endSpeed
  if endSpeed ≤ startSpeed then none
  else if endDist ≤ startDist then none
  else
    let deltaV := endSpeed - startSpeed
    let displacement := displacementFor inputs startSpeed startDist endDist
    let workingAccel := (startSpeed * deltaV + half * deltaV * deltaV) / displacement
    if workingAccel > m.maxAccel then
      let reached :=
        inputs.sqrt (startSpeed * startSpeed + (2 : ℕ) * m.maxAccel * displacement)
      some { m with
        motion := ⟨startDist, endDist, startSpeed, reached⟩
        workingAccel := m.maxAccel }
    else
      some { m with
        motion := ⟨startDist, endDist, startSpeed, endSpeed⟩
        workingAccel := workingAccel }

def SlowDown.planToTargetDistance (inputs : Inputs K) (m : PlannedManeuver K)
    (startDist endDist : K) : Option (PlannedManeuver K) :=
  let startSpeed := m.motion.startSpeed
  let endSpeed := m.motion.endSpeed
  if endSpeed ≥ startSpeed then none
  else if endDist ≤ startDist then none
  else
    let deltaV := endSpeed - startSpeed
    let displacement := displacementFor inputs startSpeed startDist endDist
    let workingAccel := (startSpeed * deltaV + half * deltaV * deltaV) / displacement
    if workingAccel < -m.maxAccel then
      let reached :=
        inputs.sqrt (startSpeed * startSpeed + (2 : ℕ) * -m.maxAccel * displacement)
      some { m with
        motion := ⟨startDist, endDist, startSpeed, reached⟩
        workingAccel := -m.maxAccel }
    else
      some { m with
        motion := ⟨startDist, endDist, startSpeed, endSpeed⟩
        workingAccel := workingAccel }

/-- `planManeuver(m, startDist, endDist)`. -/
def planManeuverTo (inputs : Inputs K) (m : PlannedManeuver K) (startDist endDist : K) :
    Option (PlannedManeuver K) :=
  match m.kind with
  | .steadySpeed => SteadySpeed.planToTargetDistance m startDist endDist
  | .speedUp => SpeedUp.planToTargetDistance inputs m startDist endDist
  | .slowDown => SlowDown.planToTargetDistance inputs m startDist endDist
  | .other => none

def canPlan (inputs : Inputs K) (m : PlannedManeuver K) (startDist endDist : K) : Bool :=
  match m.kind with
  | .steadySpeed => true
  | _ => decide (endDist - startDist - inputs.responseLag * m.motion.startSpeed > 0)

def PlannedManeuver.overrideEndDistance (m : PlannedManeuver K) (endDist : K) : PlannedManeuver K :=
  { m with motion := { m.motion with endDist := endDist } }

/-! ## What planning keeps -/

@[simp] theorem setMaxAccel_motion (m : PlannedManeuver K) (limit : K) :
    (m.setMaxAccel limit).motion = m.motion := by
  unfold PlannedManeuver.setMaxAccel
  split <;> rfl

theorem planBase_some {m p : PlannedManeuver K} {startDist : K}
    (h : m.planBase startDist = some p) :
    p = { m with motion := { m.motion with startDist := startDist } } := by
  unfold PlannedManeuver.planBase at h
  dsimp only at h
  split at h
  · cases h
  · exact (Option.some.inj h).symm

theorem planManeuver_some {inputs : Inputs K} {m p : PlannedManeuver K} {startDist : K}
    (h : planManeuver inputs m startDist = some p) :
    p.motion.startDist = startDist ∧ p.motion.startSpeed = m.motion.startSpeed ∧
      p.motion.endSpeed = m.motion.endSpeed := by
  unfold planManeuver at h
  split at h
  · obtain ⟨base, hbase, h⟩ := Option.bind_eq_some_iff.mp h
    obtain rfl := planBase_some hbase
    split at h
    · cases h
    · obtain rfl := Option.some.inj h
      exact ⟨rfl, rfl, rfl⟩
  · obtain ⟨base, hbase, h⟩ := Option.bind_eq_some_iff.mp h
    obtain rfl := planBase_some hbase
    dsimp only at h
    split at h
    · cases h
    · obtain rfl := Option.some.inj h
      exact ⟨rfl, rfl, rfl⟩
  · obtain ⟨base, hbase, h⟩ := Option.bind_eq_some_iff.mp h
    obtain rfl := planBase_some hbase
    dsimp only at h
    split at h
    · cases h
    · obtain rfl := Option.some.inj h
      exact ⟨rfl, rfl, rfl⟩
  · cases h

theorem planManeuverTo_some {inputs : Inputs K} {m p : PlannedManeuver K} {startDist endDist : K}
    (h : planManeuverTo inputs m startDist endDist = some p) :
    p.motion.startDist = startDist ∧ p.motion.endDist = endDist ∧
      p.motion.startSpeed = m.motion.startSpeed := by
  unfold planManeuverTo at h
  split at h
  · unfold SteadySpeed.planToTargetDistance at h
    split at h
    · cases h
    · obtain rfl := Option.some.inj h
      exact ⟨rfl, rfl, rfl⟩
  · unfold SpeedUp.planToTargetDistance at h
    dsimp only at h
    split_ifs at h
    · obtain rfl := Option.some.inj h
      exact ⟨rfl, rfl, rfl⟩
    · obtain rfl := Option.some.inj h
      exact ⟨rfl, rfl, rfl⟩
  · unfold SlowDown.planToTargetDistance at h
    dsimp only at h
    split_ifs at h
    · obtain rfl := Option.some.inj h
      exact ⟨rfl, rfl, rfl⟩
    · obtain rfl := Option.some.inj h
      exact ⟨rfl, rfl, rfl⟩
  · cases h

end carma.maneuver_planner
