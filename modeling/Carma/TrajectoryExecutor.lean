-- The executor between the arbitrator and its worker: a trajectory is handed on
-- to tracking and to the worker at once while guidance is engaged, else it is
-- buffered until it is. The functions are those of `TrajectoryExecutor`.
import Carma.GuidanceNode
import Mathlib.Data.List.Induction

open lib.runs

namespace carma.trajectory_executor

open carma.guidance_node (GuidanceState Job)

/-- `TrajectoryExecutor`, over any type of trajectories, with the thread that runs its jobs. -/
structure TrajectoryExecutor (T : Type) where
  currentState : GuidanceState
  currentTrajectory : Option T
  bufferedTrajectoryRunning : Bool
  looping : Bool
deriving DecidableEq

/-- What the executor makes others do: tracking and the worker get a trajectory, or the
worker is to abort and to start anew. -/
inductive Event (T : Type)
  | handedOn (traj : T)
  | aborted
deriving DecidableEq

/-- A job of the executor, the end of its thread by an exception, or a trajectory that the
arbitrator submits. -/
inductive Call (T : Type)
  | job (j : Job)
  | throws
  | runTrajectory (traj : T)
deriving DecidableEq

variable {T : Type}

/-- The executor after its constructor. -/
def newTrajectoryExecutor : TrajectoryExecutor T where
  currentState := .STARTUP
  currentTrajectory := none
  bufferedTrajectoryRunning := false
  looping := true

namespace TrajectoryExecutor

def onEngaged (x : TrajectoryExecutor T) : TrajectoryExecutor T × List (Event T) :=
  match x.currentTrajectory, x.bufferedTrajectoryRunning with
  | some traj, false =>
    ({ x with bufferedTrajectoryRunning := true, currentState := .ENGAGED }, [.handedOn traj])
  | _, _ => ({ x with currentState := .ENGAGED }, [])

def onCleanRestart (x : TrajectoryExecutor T) : TrajectoryExecutor T × List (Event T) :=
  ({ x with
     currentState := .DRIVERS_READY
     currentTrajectory := none
     bufferedTrajectoryRunning := false }, [.aborted])

/-- A job of the queue. All but two only write the state, and a shutdown ends the thread. -/
def runJob (x : TrajectoryExecutor T) : Job → TrajectoryExecutor T × List (Event T)
  | .onEngaged => x.onEngaged
  | .onCleanRestart => x.onCleanRestart
  | j => ({ x with currentState := j.state, looping := !j.isShutdown }, [])

/-- A job is run only while the thread is. -/
def job (x : TrajectoryExecutor T) (j : Job) : TrajectoryExecutor T × List (Event T) :=
  if x.looping then x.runJob j else (x, [])

def runTrajectory (x : TrajectoryExecutor T) (traj : T) : TrajectoryExecutor T × List (Event T) :=
  if x.currentState = .ENGAGED then
    ({ x with bufferedTrajectoryRunning := true }, [.handedOn traj])
  else
    ({ x with currentTrajectory := some traj }, [])

def call (x : TrajectoryExecutor T) : Call T → TrajectoryExecutor T × List (Event T)
  | .job j => x.job j
  | .throws => ({ x with looping := false }, [])
  | .runTrajectory traj => x.runTrajectory traj

end TrajectoryExecutor

/-- The executor after calls. -/
def executorAfter (calls : List (Call T)) : TrajectoryExecutor T :=
  stateAfter TrajectoryExecutor.call newTrajectoryExecutor calls

/-- What the executor does in calls. -/
def executorLog (calls : List (Call T)) : List (Event T) :=
  logged TrajectoryExecutor.call newTrajectoryExecutor calls

def Event.handed : Event T → List T
  | .handedOn traj => [traj]
  | .aborted => []

def Call.submitted : Call T → List T
  | .runTrajectory traj => [traj]
  | _ => []

/-- The trajectories that were handed on. -/
def handedOn (l : List (Event T)) : List T := l.flatMap Event.handed

/-- The trajectories that were submitted. -/
def submitted (calls : List (Call T)) : List T := calls.flatMap Call.submitted

@[simp] theorem handedOn_nil : handedOn ([] : List (Event T)) = [] := rfl

@[simp] theorem handedOn_cons (e : Event T) (l : List (Event T)) :
    handedOn (e :: l) = e.handed ++ handedOn l := List.flatMap_cons

@[simp] theorem handedOn_append (l l' : List (Event T)) :
    handedOn (l ++ l') = handedOn l ++ handedOn l' := List.flatMap_append

@[simp] theorem submitted_append (cs ds : List (Call T)) :
    submitted (cs ++ ds) = submitted cs ++ submitted ds := List.flatMap_append

/-! ## At most once, and in order -/

namespace TrajectoryExecutor

/-- What the executor may still hand on of what was submitted before. -/
def pending (x : TrajectoryExecutor T) : List T :=
  if x.bufferedTrajectoryRunning then [] else x.currentTrajectory.toList

theorem runJob_pending (x : TrajectoryExecutor T) (j : Job) :
    (handedOn (x.runJob j).2 ++ (x.runJob j).1.pending).Sublist x.pending := by
  cases j with
  | onEngaged =>
    simp only [runJob, onEngaged]
    split
    · rename_i traj hcurrent hrunning
      simp [pending, hcurrent, hrunning, Event.handed]
    · exact List.Sublist.refl x.pending
  | onCleanRestart => simp [runJob, onCleanRestart, pending, Event.handed]
  | _ => exact List.Sublist.refl x.pending

theorem call_pending (x : TrajectoryExecutor T) (k : Call T) :
    (handedOn (x.call k).2 ++ (x.call k).1.pending).Sublist (x.pending ++ k.submitted) := by
  cases k with
  | job j =>
    simp only [call, job, Call.submitted, List.append_nil]
    split_ifs
    · exact x.runJob_pending j
    · exact List.Sublist.refl x.pending
  | throws =>
    simp only [call, Call.submitted, List.append_nil]
    exact List.Sublist.refl x.pending
  | runTrajectory traj =>
    simp only [call, runTrajectory, Call.submitted]
    split_ifs
    · simp [pending, Event.handed]
    · unfold pending
      cases x.bufferedTrajectoryRunning <;> simp

end TrajectoryExecutor

theorem handedOn_pending_sublist (calls : List (Call T)) :
    (handedOn (executorLog calls) ++ (executorAfter calls).pending).Sublist (submitted calls) := by
  induction calls using List.reverseRecOn with
  | nil => exact List.Sublist.refl _
  | append_singleton calls k ih =>
    have hlog : executorLog (calls ++ [k]) =
        executorLog calls ++ ((executorAfter calls).call k).2 := logged_snoc _ _ _ _
    have hafter : executorAfter (calls ++ [k]) = ((executorAfter calls).call k).1 :=
      stateAfter_snoc _ _ _ _
    rw [hlog, hafter, handedOn_append, submitted_append, List.append_assoc]
    have hcall := (executorAfter calls).call_pending k
    refine (hcall.append_left (handedOn (executorLog calls))).trans ?_
    rw [← List.append_assoc]
    simpa [submitted] using ih.append_right k.submitted

/-- Trajectories are handed on in the order in which they were submitted, and each submission
at most once. -/
theorem each_submission_is_handed_on_at_most_once (calls : List (Call T)) :
    (handedOn (executorLog calls)).Sublist (submitted calls) :=
  (List.sublist_append_left _ _).trans (handedOn_pending_sublist calls)

/-! ## What is lost -/

/-- Two executors that differ at most in a buffer which neither will look at: it was handed on, or
the thread that looks at it has ended. -/
def SameButBuffer (x y : TrajectoryExecutor T) : Prop :=
  x = y ∨ ((x.bufferedTrajectoryRunning = true ∨ x.looping = false) ∧
    x.bufferedTrajectoryRunning = y.bufferedTrajectoryRunning ∧
    x.currentState = y.currentState ∧ x.looping = y.looping)

theorem onEngaged_running {x : TrajectoryExecutor T} (h : x.bufferedTrajectoryRunning = true) :
    x.onEngaged = ({ x with currentState := .ENGAGED }, []) := by
  unfold TrajectoryExecutor.onEngaged
  split
  · rename_i hno
    simp [h] at hno
  · rfl

theorem sameButBuffer_job {x y : TrajectoryExecutor T} (h : SameButBuffer x y) (j : Job) :
    SameButBuffer (x.job j).1 (y.job j).1 ∧ (x.job j).2 = (y.job j).2 := by
  rcases h with rfl | ⟨hunread, hrunning, hstate, hlooping⟩
  · exact ⟨Or.inl rfl, rfl⟩
  · unfold TrajectoryExecutor.job
    rw [← hlooping]
    split_ifs with hloops
    · -- the thread runs, so that the buffer has been handed on
      have hx := hunread.resolve_right (fun hended => Bool.false_ne_true (hended.symm.trans hloops))
      cases j with
      | onEngaged =>
        show SameButBuffer x.onEngaged.1 y.onEngaged.1 ∧ x.onEngaged.2 = y.onEngaged.2
        rw [onEngaged_running hx, onEngaged_running (hrunning ▸ hx)]
        exact ⟨Or.inr ⟨Or.inl hx, hrunning, rfl, hlooping⟩, rfl⟩
      | onCleanRestart =>
        refine ⟨Or.inl ?_, rfl⟩
        show TrajectoryExecutor.mk _ _ _ _ = TrajectoryExecutor.mk _ _ _ _
        rw [hlooping]
      | _ => exact ⟨Or.inr ⟨Or.inl hx, hrunning, rfl, rfl⟩, rfl⟩
    · exact ⟨Or.inr ⟨hunread, hrunning, hstate, hlooping⟩, rfl⟩

theorem sameButBuffer_call {x y : TrajectoryExecutor T} (h : SameButBuffer x y) (k : Call T) :
    SameButBuffer (x.call k).1 (y.call k).1 ∧ (x.call k).2 = (y.call k).2 := by
  cases k with
  | job j => exact sameButBuffer_job h j
  | throws =>
    rcases h with rfl | ⟨hunread, hrunning, hstate, hlooping⟩
    · exact ⟨Or.inl rfl, rfl⟩
    · exact ⟨Or.inr ⟨Or.inr rfl, hrunning, hstate, rfl⟩, rfl⟩
  | runTrajectory traj =>
    rcases h with rfl | ⟨hunread, hrunning, hstate, hlooping⟩
    · exact ⟨Or.inl rfl, rfl⟩
    · show SameButBuffer (x.runTrajectory traj).1 (y.runTrajectory traj).1 ∧
        (x.runTrajectory traj).2 = (y.runTrajectory traj).2
      unfold TrajectoryExecutor.runTrajectory
      rw [hstate]
      split_ifs
      · exact ⟨Or.inr ⟨Or.inl rfl, rfl, rfl, hlooping⟩, rfl⟩
      · exact ⟨Or.inr ⟨hunread, hrunning, rfl, hlooping⟩, rfl⟩

/-- A submitted trajectory changes nothing that is ever done afterwards, just when guidance is
not engaged and the thread of the executor has ended, or it has handed one on since the last
restart, or it holds this one. -/
theorem a_submission_is_lost_iff (calls : List (Call T)) (traj : T) :
    (∀ more, logged TrajectoryExecutor.call (executorAfter calls) (.runTrajectory traj :: more) =
        logged TrajectoryExecutor.call (executorAfter calls) more) ↔
      (executorAfter calls).currentState ≠ .ENGAGED ∧
        ((executorAfter calls).looping = false ∨
          (executorAfter calls).bufferedTrajectoryRunning = true ∨
          (executorAfter calls).currentTrajectory = some traj) := by
  generalize executorAfter calls = x
  constructor
  · intro h
    have hidle : x.currentState ≠ .ENGAGED := by
      intro hengaged
      have hnow := h []
      simp [logged, TrajectoryExecutor.call, TrajectoryExecutor.runTrajectory, hengaged] at hnow
    refine ⟨hidle, ?_⟩
    by_contra hno
    obtain ⟨hloops, hno⟩ := not_or.mp hno
    obtain ⟨hrunning, hother⟩ := not_or.mp hno
    rw [Bool.not_eq_true] at hrunning
    rw [Bool.not_eq_false] at hloops
    -- The next engagement hands on what is buffered.
    have hnext := h [.job .onEngaged]
    rcases hbuffer : x.currentTrajectory with _ | held
    · simp [logged, TrajectoryExecutor.call, TrajectoryExecutor.runTrajectory,
        TrajectoryExecutor.job, TrajectoryExecutor.runJob, TrajectoryExecutor.onEngaged, hidle,
        hloops, hrunning, hbuffer] at hnext
    · simp [logged, TrajectoryExecutor.call, TrajectoryExecutor.runTrajectory,
        TrajectoryExecutor.job, TrajectoryExecutor.runJob, TrajectoryExecutor.onEngaged, hidle,
        hloops, hrunning, hbuffer] at hnext
      exact hother (by rw [hbuffer, hnext])
  · rintro ⟨hidle, hlost⟩ more
    have hstep : x.runTrajectory traj = ({ x with currentTrajectory := some traj }, []) := by
      simp [TrajectoryExecutor.runTrajectory, hidle]
    simp only [logged, TrajectoryExecutor.call, hstep, List.nil_append]
    apply logged_eq_of_simulates (R := SameButBuffer)
    · intro y z k hsame
      exact sameButBuffer_call hsame k
    · rcases hlost with hended | hrunning | hheld
      · exact Or.inr ⟨Or.inr hended, rfl, rfl, rfl⟩
      · exact Or.inr ⟨Or.inl hrunning, rfl, rfl, rfl⟩
      · left
        rw [← hheld]

end carma.trajectory_executor
