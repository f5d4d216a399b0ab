-- The speed commands of a platoon follower: a gap controller on the leader or on the
-- vehicle in front, and three caps on what it gives. The functions are those of
-- `CommandGenerator` and `PidController`, less what they log.
import Mathlib.Algebra.Order.Field.Rat
import Mathlib.Data.List.Chain
import Mathlib.Tactic.Linarith
import Carma.Lib.ExactDouble
import Carma.Lib.Runs

open lib.exact_double lib.runs

namespace carma.platoon_commands

variable {K : Type} [LinearOrder K] [Field K]

/-! ## The gap controller -/

/-- `PidController`. A signal is its data and its timestamp, in milliseconds, which is a double. -/
structure PidController (K : Type) where
  kp : K
  ki : K
  kd : K
  setpoint : K
  integrator : K
  integratorMax : K
  integratorMin : K
  lastError : Option (K × K)
deriving DecidableEq

namespace PidController

/-- `new PidController`. The bounds of the integrator are the largest double, and the
smallest one above zero. -/
def new (kp ki kd setpoint : K) : PidController K where
  kp := kp
  ki := ki
  kd := kd
  setpoint := setpoint
  integrator := 0
  integratorMax := ((2 ^ 1024 - 2 ^ 971 : ℕ) : K)
  integratorMin := ((2 ^ 1074 : ℕ) : K)⁻¹
  lastError := none

def changeSetpoint (c : PidController K) (setpoint : K) : PidController K :=
  { c with setpoint := setpoint }

def setIntegratorRange (c : PidController K) (min max : K) : PidController K :=
  { c with integratorMax := max, integratorMin := min }

def reset (c : PidController K) : PidController K := { c with integrator := 0, lastError := none }

/-- The integrator after a step, cut to its range. -/
def integrate (c : PidController K) (error dt : K) : K :=
  let integrator := c.integrator + error * dt
  if c.integratorMax < integrator then c.integratorMax
  else if integrator < c.integratorMin then c.integratorMin
  else integrator

def apply (c : PidController K) (data timestamp : K) : PidController K × Dbl K :=
  let error := c.setpoint - data
  match c.lastError with
  | none => ({ c with lastError := some (error, timestamp) }, .fin (c.kp * error))
  | some (lastData, lastTimestamp) =>
    let dt := timestamp - lastTimestamp
    let integrator := if 0 < c.ki then c.integrate error dt else c.integrator
    let output := if 0 < c.ki then c.kp * error + c.ki * integrator else c.kp * error
    ({ c with integrator := integrator, lastError := some (error, timestamp) },
      .fin output + .fin (c.kd * (error - lastData)) / .fin dt)

end PidController

/-! ## The generator -/

/-- The parameters of the plugin that the generator reads. -/
structure Params (K : Type) where
  kpPID : K
  kiPID : K
  kdPID : K
  integratorMaxCap : K
  integratorMinCap : K
  standStillHeadway : K
  timeHeadway : K
  desiredTimeGap : K
  platooningMinGap : K
  lpfAlgorithm : Bool
  cmdSpeedMaxAdjustment : K
  maxAccel : K
  maxAccelCapEnabled : Bool
  speedLimitCapEnabled : Bool
  leaderSpeedCapEnabled : Bool
deriving DecidableEq

structure PlatoonMember (K : Type) where
  commandSpeed : K
  vehiclePosition : K
deriving DecidableEq

/-- What a call reads: the platoon, the sensors, the route and the last speed command
that the plugin heard of. A radar that lost the front vehicle gives no number. -/
structure Readings (K : Type) where
  leader : Option (PlatoonMember K)
  leaderIndex : ℤ
  numberOfVehicleInFront : ℤ
  distanceToFrontVehicle : Dbl K
  currentSpeed : K
  currentDowntrackDistance : K
  speedLimit : Option K
  lastSpeedCmd : K
deriving DecidableEq

/-- `CommandGenerator`. Its pipeline holds the gap controller and no other filter. -/
structure CommandGenerator (K : Type) where
  params : Params K
  distanceGapController : PidController K
  desiredGap : K
  adjustmentCap : K
  speedCmd : Dbl K
  lastCmdSpeed : Option (Dbl K)
deriving DecidableEq

/-- `CMD_TIMESTEP`, in milliseconds. -/
def CMD_TIMESTEP : ℕ := 100

/-- The most that a command may differ from the one before. -/
def Params.maxStep (params : Params K) : K :=
  params.maxAccel * ((CMD_TIMESTEP : K) / ((1000 : ℕ) : K))

namespace CommandGenerator

def new (params : Params K) : CommandGenerator K where
  params := params
  distanceGapController :=
    let pid := PidController.new params.kpPID params.kiPID params.kdPID params.standStillHeadway
    if params.integratorMinCap < params.integratorMaxCap then
      pid.setIntegratorRange params.integratorMinCap params.integratorMaxCap
    else pid
  desiredGap := 0
  adjustmentCap := max 0 params.cmdSpeedMaxAdjustment
  speedCmd := .fin 0
  lastCmdSpeed := none

/-- The controller at a new setpoint, on a new signal. -/
def control (g : CommandGenerator K) (desiredGap setpoint data : K) (timeStamp : ℤ) :
    CommandGenerator K × Dbl K :=
  let result := (g.distanceGapController.changeSetpoint setpoint).apply data (timeStamp : K)
  ({ g with desiredGap := desiredGap, distanceGapController := result.1 }, result.2)

/-- The output of the controller: on the gap to the front vehicle, where the radar has
it, or on the gap to the leader. -/
def controllerOutput (g : CommandGenerator K) (r : Readings K) (leader : PlatoonMember K)
    (timeStamp : ℤ) : CommandGenerator K × Dbl K :=
  if g.params.lpfAlgorithm then
    match r.distanceToFrontVehicle with
    | .fin currentGap =>
      let desiredGap := max g.params.platooningMinGap (g.params.desiredTimeGap * r.currentSpeed)
      g.control desiredGap desiredGap currentGap timeStamp
    | _ => (g, .fin 0)
  else
    let numOfVehiclesGaps : K := ((r.numberOfVehicleInFront - r.leaderIndex : ℤ) : K)
    let desiredGap := max (r.currentSpeed * g.params.timeHeadway * numOfVehiclesGaps)
      (g.params.standStillHeadway * numOfVehiclesGaps)
    g.control desiredGap (leader.vehiclePosition - desiredGap) r.currentDowntrackDistance timeStamp

/-- The first filter: not too far from the command of the leader. -/
def capAdjustment (g : CommandGenerator K) (leader : PlatoonMember K) (adjSpeedCmd : Dbl K) :
    Dbl K :=
  if g.params.leaderSpeedCapEnabled then
    adjSpeedCmd.clampTo (leader.commandSpeed - g.adjustmentCap)
      (leader.commandSpeed + g.adjustmentCap)
  else adjSpeedCmd

/-- The second filter: not past the local speed limit. -/
def capSpeedLimit (g : CommandGenerator K) (r : Readings K) (adjSpeedCmd : Dbl K) : Dbl K :=
  if g.params.speedLimitCapEnabled then
    let localSpeedLimit := (r.speedLimit.map Dbl.fin).getD adjSpeedCmd
    (adjSpeedCmd.maxOf (.fin 0)).minOf localSpeedLimit
  else adjSpeedCmd

/-- The last command as the third filter knows it. -/
def rememberedCmd (g : CommandGenerator K) (r : Readings K) : Dbl K :=
  g.lastCmdSpeed.getD (.fin r.lastSpeedCmd)

/-- The third filter: not too far from the last command. It keeps the command for the
next call. -/
def capAccel (g : CommandGenerator K) (r : Readings K) (adjSpeedCmd : Dbl K) :
    CommandGenerator K × Dbl K :=
  if g.params.maxAccelCapEnabled then
    let max := g.rememberedCmd r + .fin g.params.maxStep
    let min := g.rememberedCmd r - .fin g.params.maxStep
    let adjSpeedCmd :=
      if max.lt adjSpeedCmd then max else if adjSpeedCmd.lt min then min else adjSpeedCmd
    ({ g with lastCmdSpeed := some adjSpeedCmd }, adjSpeedCmd)
  else (g, adjSpeedCmd)

def generateSpeed (g : CommandGenerator K) (r : Readings K) (timeStamp : ℤ) :
    CommandGenerator K :=
  match r.leader with
  | some leader =>
    let (g, output) := g.controllerOutput r leader timeStamp
    let adjSpeedCmd := output + .fin leader.commandSpeed
    let adjSpeedCmd := g.capSpeedLimit r (g.capAdjustment leader adjSpeedCmd)
    let (g, adjSpeedCmd) := g.capAccel r adjSpeedCmd
    { g with speedCmd := adjSpeedCmd }
  | none =>
    -- the command is the current speed, and the third filter is not told
    { g with
      speedCmd := .fin r.currentSpeed
      distanceGapController := g.distanceGapController.reset }

end CommandGenerator

/-! ## The loop -/

/-- A turn of the loop of `run`: what the call reads, for how long it works, and for how
long the thread sleeps past its time, in milliseconds. -/
structure Turn (K : Type) where
  readings : Readings K
  work : ℕ
  overslept : ℕ
deriving DecidableEq

/-- The generator in its loop: the time at which the next turn starts, and the commands
that it gave, the last one first. -/
structure Follower (K : Type) where
  generator : CommandGenerator K
  tsStart : ℤ
  given : List (Dbl K)
deriving DecidableEq

namespace Follower

def new (params : Params K) (tsStart : ℤ) : Follower K where
  generator := .new params
  tsStart := tsStart
  given := []

/-- A turn of the loop of `run`. -/
def turn (f : Follower K) (t : Turn K) : Follower K :=
  let generator := f.generator.generateSpeed t.readings f.tsStart
  let tsEnd := f.tsStart + t.work
  let sleepDuration := max (CMD_TIMESTEP - (tsEnd - f.tsStart)) 0
  { generator := generator
    tsStart := tsEnd + sleepDuration + t.overslept
    given := generator.speedCmd :: f.given }

end Follower

end carma.platoon_commands
