-- The worker of the trajectory executor: the trajectory that runs, the one that
-- is queued, and the callbacks on the progress of the one that runs.
import Mathlib.Data.List.Nodup
import Mathlib.Logic.Function.Basic
import Carma.Lib.ExactDouble
import Carma.Trajectory

open lib
open lib.exact_double
open carma.maneuvers
open carma.trajectory

namespace carma.trajectory_executor_worker

/-! ## The state -/

/-- `PctCallback`: a threshold and a callback. The record has an identity, as an
object has, and its flag `called` is in the worker under it. -/
structure PctCallback (K : Type) where
  id : ℕ
  pct : K
  callback : ℕ
deriving DecidableEq

/-- The objects that `remove` of a list compares by their identity. -/
inductive Obj
  | record (id : ℕ)
  | callback (id : ℕ)
deriving DecidableEq

/-- `List.remove`: it removes the first record that is the object. -/
def remove {K : Type} (o : Obj) (callbacks : List (PctCallback K)) : List (PctCallback K) :=
  callbacks.eraseP fun r => decide (Obj.record r.id = o)

theorem remove_sublist {K : Type} (o : Obj) (callbacks : List (PctCallback K)) :
    (remove o callbacks).Sublist callbacks := List.eraseP_sublist

/-- `TrajectoryExecutorWorker`. No two records are one object, and a new record
is none of those that are there. -/
structure TrajectoryExecutorWorker (K : Type) [LE K] where
  callbacks : List (PctCallback K)
  called : ℕ → Bool
  nextId : ℕ
  downtrackDistance : K
  currentTrajectory : Option (Trajectory K)
  nextTrajectory : Option (Trajectory K)
  currentLateralManeuver : Option (IManeuver K)
  currentLongitudinalManeuver : Option (IManeuver K)
  currentComplexManeuver : Option (IManeuver K)
  timeStepsWithoutTraj : ℕ
  ids_nodup : (callbacks.map (·.id)).Nodup
  ids_lt : ∀ r ∈ callbacks, r.id < nextId

/-- What a call does that can be seen from outside: a callback is invoked, the
current trajectory is set, or the arbitrator is told of a failure. -/
inductive Event (K : Type)
  | invoked (r : PctCallback K) (completePct : Dbl K)
  | changed
  | notifyTrajectoryFailure

/-- The calls that a callback may make while it is invoked. -/
inductive Action (K : Type) [LE K]
  | registerOnTrajectoryProgressCallback (pct : K) (callback : ℕ)
  | unregisterOnTrajectoryProgressCallback (callback : ℕ)
  | unregisterAllTrajectoryProgressCallback
  | runTrajectory (traj : Trajectory K)
  | abortTrajectory
  | cleanRestart

variable {K : Type} [LinearOrder K]

def maxAcceptableTimestepsWithoutTrajectory : ℕ := 3

namespace TrajectoryExecutorWorker

/-! ## Callbacks -/

def registerOnTrajectoryProgressCallback (w : TrajectoryExecutorWorker K) (pct : K)
    (callback : ℕ) : TrajectoryExecutorWorker K :=
  { w with
    callbacks := w.callbacks ++ [⟨w.nextId, pct, callback⟩]
    called := Function.update w.called w.nextId false
    nextId := w.nextId + 1
    ids_nodup := by
      rw [List.map_append, List.nodup_append]
      refine ⟨w.ids_nodup, List.nodup_singleton _, ?_⟩
      intro i hi j hj
      obtain ⟨r, hr, rfl⟩ := List.mem_map.mp hi
      rw [List.mem_singleton.mp hj]
      exact (w.ids_lt r hr).ne
    ids_lt := by
      intro r hr
      rcases List.mem_append.mp hr with hr | hr
      · exact Nat.lt_succ_of_lt (w.ids_lt r hr)
      · rw [List.mem_singleton.mp hr]
        exact Nat.lt_succ_self _ }

/-- `unregisterOnTrajectoryProgressCallback`. It hands the callback itself to
`remove`, not its record. -/
def unregisterOnTrajectoryProgressCallback (w : TrajectoryExecutorWorker K) (callback : ℕ) :
    TrajectoryExecutorWorker K :=
  { w with
    callbacks := remove (.callback callback) w.callbacks
    ids_nodup := w.ids_nodup.sublist ((remove_sublist _ _).map _)
    ids_lt := fun r hr => w.ids_lt r ((remove_sublist _ _).subset hr) }

def unregisterAllTrajectoryProgressCallback (w : TrajectoryExecutorWorker K) :
    TrajectoryExecutorWorker K :=
  { w with
    callbacks := []
    ids_nodup := List.nodup_nil
    ids_lt := fun _ hr => absurd hr List.not_mem_nil }

/-- `resetCallbacks`: every record that is registered counts as not called. -/
def resetCallbacks (w : TrajectoryExecutorWorker K) : TrajectoryExecutorWorker K :=
  { w with called := fun i => w.called i && !decide (i ∈ w.callbacks.map (·.id)) }

/-- `callback.called = true`. -/
def setCalled (w : TrajectoryExecutorWorker K) (r : PctCallback K) : TrajectoryExecutorWorker K :=
  { w with called := Function.update w.called r.id true }

/-! ## Trajectories -/

def runTrajectory (w : TrajectoryExecutorWorker K) (traj : Trajectory K) :
    TrajectoryExecutorWorker K × List (Event K) :=
  match w.currentTrajectory with
  | none =>
    ({ resetCallbacks { w with currentTrajectory := some traj } with timeStepsWithoutTraj := 0 },
      [.changed])
  | some _ => ({ w with nextTrajectory := some traj, timeStepsWithoutTraj := 0 }, [])

def abortTrajectory (w : TrajectoryExecutorWorker K) :
    TrajectoryExecutorWorker K × List (Event K) :=
  ({ w with
    currentTrajectory := none
    nextTrajectory := none
    currentLateralManeuver := none
    currentLongitudinalManeuver := none
    currentComplexManeuver := none }, [.changed])

def swapTrajectories (w : TrajectoryExecutorWorker K) :
    TrajectoryExecutorWorker K × List (Event K) :=
  match w.nextTrajectory with
  | none =>
    let w := { w with timeStepsWithoutTraj := w.timeStepsWithoutTraj + 1 }
    if w.timeStepsWithoutTraj ≥ maxAcceptableTimestepsWithoutTrajectory then
      (w, [.notifyTrajectoryFailure])
    else (w, [])
  | some traj =>
    (resetCallbacks { w with currentTrajectory := some traj, nextTrajectory := none }, [.changed])

variable [Field K]

def cleanRestart (w : TrajectoryExecutorWorker K) :
    TrajectoryExecutorWorker K × List (Event K) :=
  ({ w with
    downtrackDistance := 0
    currentTrajectory := none
    nextTrajectory := none
    currentLateralManeuver := none
    currentLongitudinalManeuver := none
    currentComplexManeuver := none }, [.changed])

def getTrajectoryCompletionPct (w : TrajectoryExecutorWorker K) : Dbl K :=
  match w.currentTrajectory with
  | none => .fin (-1)
  | some traj =>
    let numerator := w.downtrackDistance - traj.startLocation
    let denominator := traj.endLocation - traj.startLocation
    Dbl.div (.fin numerator) (.fin denominator)

/-! ## Updates -/

/-- One call that a callback makes. -/
def act (w : TrajectoryExecutorWorker K) : Action K → TrajectoryExecutorWorker K × List (Event K)
  | .registerOnTrajectoryProgressCallback pct callback =>
    (w.registerOnTrajectoryProgressCallback pct callback, [])
  | .unregisterOnTrajectoryProgressCallback callback =>
    (w.unregisterOnTrajectoryProgressCallback callback, [])
  | .unregisterAllTrajectoryProgressCallback => (w.unregisterAllTrajectoryProgressCallback, [])
  | .runTrajectory traj => w.runTrajectory traj
  | .abortTrajectory => w.abortTrajectory
  | .cleanRestart => w.cleanRestart

/-- The calls that a callback makes, one after the other. -/
def actAll (w : TrajectoryExecutorWorker K) :
    List (Action K) → TrajectoryExecutorWorker K × List (Event K)
  | [] => (w, [])
  | a :: as =>
    let (w1, events1) := w.act a
    let (w2, events2) := actAll w1 as
    (w2, events1 ++ events2)

/-- The loop of `invokeCallbacks` over the buffered list. `onProgress` says which
calls a callback makes when it is invoked. -/
def invokeEach (onProgress : ℕ → Dbl K → List (Action K)) (completePct : Dbl K)
    (w : TrajectoryExecutorWorker K) :
    List (PctCallback K) → TrajectoryExecutorWorker K × List (Event K)
  | [] => (w, [])
  | r :: tmpCallbacks =>
    if !w.called r.id && Dbl.le (.fin r.pct) completePct then
      let (w1, events1) := w.actAll (onProgress r.callback completePct)
      let (w2, events2) := invokeEach onProgress completePct (w1.setCalled r) tmpCallbacks
      (w2, .invoked r completePct :: events1 ++ events2)
    else invokeEach onProgress completePct w tmpCallbacks

def invokeCallbacks (onProgress : ℕ → Dbl K → List (Action K)) (w : TrajectoryExecutorWorker K) :
    TrajectoryExecutorWorker K × List (Event K) :=
  invokeEach onProgress w.getTrajectoryCompletionPct w w.callbacks

/-- The downtrack distance of an update: no less than the start of the current
trajectory when none is queued. -/
def heldDowntrack (w : TrajectoryExecutorWorker K) (downtrack : K) (curTraj : Trajectory K) : K :=
  match w.nextTrajectory with
  | none => max downtrack curTraj.startLocation
  | some _ => downtrack

/-- The first half of `updateDowntrackDistance`: the new distance, and the swap
when the current trajectory is over. -/
def moveTo (w : TrajectoryExecutorWorker K) (downtrack : K) (curTraj : Trajectory K) :
    TrajectoryExecutorWorker K × List (Event K) :=
  let w := { w with downtrackDistance := w.heldDowntrack downtrack curTraj }
  if w.downtrackDistance ≥ curTraj.endLocation then w.swapTrajectories else (w, [])

def updateDowntrackDistance (onProgress : ℕ → Dbl K → List (Action K))
    (w : TrajectoryExecutorWorker K) (downtrack : K) :
    TrajectoryExecutorWorker K × List (Event K) :=
  match w.currentTrajectory with
  | none => ({ w with downtrackDistance := downtrack }, [])
  | some curTraj =>
    let (w1, events1) := w.moveTo downtrack curTraj
    let (w2, events2) := w1.invokeCallbacks onProgress
    (w2, events1 ++ events2)

def newTrajectoryExecutorWorker : TrajectoryExecutorWorker K where
  callbacks := []
  called := fun _ => false
  nextId := 0
  downtrackDistance := 0
  currentTrajectory := none
  nextTrajectory := none
  currentLateralManeuver := none
  currentLongitudinalManeuver := none
  currentComplexManeuver := none
  timeStepsWithoutTraj := 0
  ids_nodup := List.nodup_nil
  ids_lt := fun _ hr => absurd hr List.not_mem_nil

end TrajectoryExecutorWorker

end carma.trajectory_executor_worker
