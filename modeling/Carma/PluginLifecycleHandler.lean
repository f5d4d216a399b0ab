-- The lifecycle of a plugin: one controller that calls, and the worker threads that
-- run what the calls put into the queue. A call and a task go step by step, so that
-- the threads can come between. The functions are those of `PluginLifecycleHandler` and
-- its tasks, less what they log.
import Mathlib.Data.List.Basic
import Carma.Lib.Runs

open lib.runs

namespace carma.plugin_lifecycle

/-! ## The state -/

inductive PluginState where
  | UNINITIALIZED
  | INITIALIZING
  | INITIALIZED
  | RESUMING
  | RESUMED
  | LOOPING
  | SUSPENDING
  | SUSPENDED
  | DESTROYING
  | DESTROYED
deriving DecidableEq, Repr

/-- The tasks of the queue. -/
inductive PluginTask where
  | Initialize
  | Resume
  | Loop
  | Suspend
  | Terminate
deriving DecidableEq, Repr

/-- The state that the completion callback of a task sets. -/
def PluginTask.onComplete : PluginTask → PluginState
  | .Initialize => .INITIALIZED
  | .Resume => .RESUMED
  | .Loop => .LOOPING
  | .Suspend => .SUSPENDED
  | .Terminate => .DESTROYED

/-- Where a worker thread is: at the head of its loop, in `take`, in a task whose callback
is still to run, in the loop of a `LoopPluginTask`, or at its end. -/
inductive Phase where
  | checking
  | taking
  | running (task : PluginTask)
  | looping
  | done
deriving DecidableEq, Repr

/-- A thread with a `PluginWorker`. -/
structure Worker where
  phase : Phase
  interrupted : Bool
deriving DecidableEq, Repr

/-- A worker that is in a loop task. It gets back to the queue only when it is
interrupted. -/
def Worker.InLoop (w : Worker) : Prop := w.phase = .running .Loop ∨ w.phase = .looping

/-- A thread that serves the queue: it was not interrupted, has not ended and is not in
a loop task. -/
def Worker.Serves (w : Worker) : Prop :=
  w.interrupted = false ∧ w.phase ≠ .done ∧ ¬ w.InLoop

/-- A worker that is in a resume or loop task whose callback is still to run. -/
def Worker.Armed (w : Worker) : Prop := w.phase = .running .Resume ∨ w.phase = .running .Loop

instance (w : Worker) : Decidable w.InLoop := inferInstanceAs (Decidable (_ ∨ _))

instance (w : Worker) : Decidable w.Serves := inferInstanceAs (Decidable (_ ∧ _))

instance (w : Worker) : Decidable w.Armed := inferInstanceAs (Decidable (_ ∨ _))

/-- What a call of the controller does, one step at a time. -/
inductive Action where
  | setState (state : PluginState)
  | interrupt
  | clear
  | put (task : PluginTask)
  | start
  | drop
deriving DecidableEq, Repr

/-- `PluginLifecycleHandler`, its threads in the order in which they started, and what is
left of the call that the controller is in. `t` is the place of the thread that the
handler knows. `stopped` says whether the last call that set the state was a suspend or
a terminate, which the code does not keep. -/
structure Handler where
  tasks : List PluginTask
  workers : List Worker
  t : Option ℕ
  state : PluginState
  pending : List Action
  stopped : Bool
deriving DecidableEq, Repr

/-! ## Calls -/

/-- The calls of the controller, by the methods that do them. -/
inductive Call where
  | doInitialize
  | doResume
  | doSuspend
  | doTerminate
deriving DecidableEq, Repr

/-- What each method does. -/
def Call.actions : Call → List Action
  | .doInitialize => [.setState .INITIALIZING, .put .Initialize, .start]
  | .doResume => [.setState .RESUMING, .put .Resume, .put .Loop]
  | .doSuspend => [.interrupt, .clear, .setState .SUSPENDING, .put .Suspend, .start]
  | .doTerminate => [.interrupt, .clear, .setState .DESTROYING, .put .Terminate, .drop]

/-- Whether a call goes on in a state, or throws its `IllegalStateException`: the tests of
`initialize`, `resume`, `suspend` and `terminate`. -/
def Call.accepted : Call → PluginState → Bool
  | .doInitialize, .UNINITIALIZED => true
  | .doInitialize, _ => false
  | .doResume, .INITIALIZING => true
  | .doResume, .INITIALIZED => true
  | .doResume, .SUSPENDING => true
  | .doResume, .SUSPENDED => true
  | .doResume, _ => false
  | .doSuspend, .RESUMED => true
  | .doSuspend, .LOOPING => true
  | .doSuspend, _ => false
  | .doTerminate, .UNINITIALIZED => false
  | .doTerminate, .DESTROYING => false
  | .doTerminate, .DESTROYED => false
  | .doTerminate, _ => true

namespace Handler

/-- `new PluginLifecycleHandler`. -/
def new : Handler where
  tasks := []
  workers := []
  t := none
  state := .UNINITIALIZED
  pending := []
  stopped := false

/-- The controller begins a call. -/
def call (h : Handler) (c : Call) : Handler :=
  if h.pending = [] ∧ c.accepted h.state = true then { h with pending := c.actions } else h

def setState (h : Handler) (state : PluginState) : Handler :=
  { h with
    state := state
    stopped := if state = .SUSPENDING ∨ state = .DESTROYING then true
      else if state = .RESUMING then false else h.stopped }

/-- The next action of the call that the controller is in. To interrupt a thread that the
handler dropped is a `NullPointerException`, and the call ends there. -/
def control (h : Handler) : Handler :=
  match h.pending with
  | [] => h
  | .setState state :: rest => { h with pending := rest }.setState state
  | .interrupt :: rest =>
    match h.t with
    | none => { h with pending := [] }
    | some i =>
      { h with
        pending := rest
        workers := h.workers.modify i (fun w => { w with interrupted := true }) }
  | .clear :: rest => { h with pending := rest, tasks := [] }
  | .put task :: rest => { h with pending := rest, tasks := h.tasks ++ [task] }
  | .start :: rest =>
    { h with
      pending := rest
      workers := h.workers ++ [⟨.checking, false⟩]
      t := some h.workers.length }
  | .drop :: rest => { h with pending := rest, t := none }

/-! ## Worker threads -/

def setPhase (h : Handler) (i : ℕ) (phase : Phase) : Handler :=
  { h with workers := h.workers.modify i (fun w => { w with phase := phase }) }

/-- The test of `isInterrupted` at the head of the loop. -/
def check (h : Handler) (i : ℕ) (w : Worker) : Handler :=
  if w.phase = .checking then h.setPhase i (if w.interrupted then .done else .taking) else h

/-- `take` gives a task. A thread that was woken for one may get it even though it was
interrupted since. -/
def take (h : Handler) (i : ℕ) (w : Worker) : Handler :=
  match w.phase, h.tasks with
  | .taking, task :: rest => { h with tasks := rest }.setPhase i (.running task)
  | _, _ => h

/-- `take` throws its `InterruptedException`, and the loop of the thread ends. -/
def notice (h : Handler) (i : ℕ) (w : Worker) : Handler :=
  if w.phase = .taking ∧ w.interrupted = true then h.setPhase i .done else h

/-- The completion callback of the task. A `LoopPluginTask` calls it first and then loops,
the other tasks end with it. -/
def complete (h : Handler) (i : ℕ) (w : Worker) : Handler :=
  match w.phase with
  | .running task =>
    { h with state := task.onComplete }.setPhase i (if task = PluginTask.Loop then .looping else .checking)
  | _ => h

/-- A turn of the loop of a `LoopPluginTask`, which ends for a thread that is interrupted. -/
def loop (h : Handler) (i : ℕ) (w : Worker) : Handler :=
  if w.phase = .looping ∧ w.interrupted = true then h.setPhase i .checking else h

end Handler

/-! ## Steps -/

inductive WorkerStep where
  | check
  | take
  | notice
  | complete
  | loop
deriving DecidableEq, Repr

/-- A step of the controller, or of the worker thread `i`. -/
inductive Step where
  | call (c : Call)
  | control
  | worker (i : ℕ) (s : WorkerStep)
deriving DecidableEq, Repr

namespace Handler

def workerStep (h : Handler) (i : ℕ) (w : Worker) : WorkerStep → Handler
  | .check => h.check i w
  | .take => h.take i w
  | .notice => h.notice i w
  | .complete => h.complete i w
  | .loop => h.loop i w

/-- A step. One that the handler cannot take changes nothing. -/
def step (h : Handler) : Step → Handler
  | .call c => h.call c
  | .control => h.control
  | .worker i s =>
    match h.workers[i]? with
    | none => h
    | some w => h.workerStep i w s

/-! ## What the controller may rely on -/

/-- After a suspend or a terminate, and before a later resume, the plugin neither is
resumed nor loops. -/
def StaysStopped (h : Handler) : Prop :=
  h.stopped = true → h.state ≠ .RESUMED ∧ h.state ≠ .LOOPING

/-- A task in the queue has a thread that serves it, or the call that the controller is in
is about to start one. -/
def Attended (h : Handler) : Prop :=
  h.tasks ≠ [] → (∃ w ∈ h.workers, w.Serves) ∨ .start ∈ h.pending

instance (h : Handler) : Decidable h.StaysStopped := inferInstanceAs (Decidable (_ → _))

instance (h : Handler) : Decidable h.Attended := inferInstanceAs (Decidable (_ → _))

/-- When a suspend or a terminate sets the state, no worker is in a resume or loop task
whose callback is still to run. -/
def StopsUnarmed (h : Handler) (s : Step) : Prop :=
  s = .control → ∀ state ∈ [PluginState.SUSPENDING, PluginState.DESTROYING],
    h.pending.head? = some (.setState state) → ∀ w ∈ h.workers, ¬ w.Armed

/-- No terminate is accepted. -/
def NoTerminate (h : Handler) (s : Step) : Prop :=
  s = .call .doTerminate → ¬ (h.pending = [] ∧ Call.doTerminate.accepted h.state = true)

/-- A resume is accepted only while no loop task is in the queue, nor with a worker that
was not interrupted. -/
def ResumesOnce (h : Handler) (s : Step) : Prop :=
  s = .call .doResume → h.pending = [] ∧ Call.doResume.accepted h.state = true →
    .Loop ∉ h.tasks ∧ ∀ w ∈ h.workers, w.interrupted = false → ¬ w.InLoop

instance (h : Handler) (s : Step) : Decidable (h.StopsUnarmed s) :=
  inferInstanceAs (Decidable (_ → _))

instance (h : Handler) (s : Step) : Decidable (h.NoTerminate s) :=
  inferInstanceAs (Decidable (_ → _))

instance (h : Handler) (s : Step) : Decidable (h.ResumesOnce s) :=
  inferInstanceAs (Decidable (_ → _))

end Handler

end carma.plugin_lifecycle
