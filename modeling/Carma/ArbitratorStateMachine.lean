-- The phases of the arbitrator and its job queue: a change of phase posts a
-- planning job behind the jobs that wait, so a planning job can come to run when
-- its phase is over. The functions are those of `ArbitratorStateMachine` and of
-- the job queue of `Arbitrator`.
import Carma.GuidanceNode

open lib.runs

namespace carma.arbitrator_state_machine

open carma.guidance_node (GuidanceAction Job Component onStateChange)

inductive ArbitratorState
  | INIT
  | INITIAL_PLANNING
  | AWAITING_REPLAN
  | NORMAL_REPLANNING
  | REPLAN_AFTER_COMPLEX_TRAJECTORY
  | REPLAN_DUE_TO_FAILED_TRAJECTORY
deriving DecidableEq, Repr

inductive ArbitratorEvent
  | INITIALIZE
  | TRAJECTORY_COMPLETION_ALERT
  | COMPLEX_TRAJECTORY_COMPLETION_ALERT
  | TRAJECTORY_FAILED_EXECUTION
  | FINISHED_TRAJECTORY_PLANNING
  | CLEAN_RESTART
deriving DecidableEq, Repr

/-- A job of the arbitrator: one of every component, or a planning. -/
inductive ArbitratorJob
  | component (j : Job)
  | initialPlan
  | normalReplan
  | complexTrajectoryReplan
  | failedTrajectoryReplan
deriving DecidableEq, Repr

/-- The switch of `processEvent`. -/
def nextState : ArbitratorState → ArbitratorEvent → ArbitratorState
  | .INIT, .INITIALIZE => .INITIAL_PLANNING
  | .AWAITING_REPLAN, .TRAJECTORY_COMPLETION_ALERT => .NORMAL_REPLANNING
  | .AWAITING_REPLAN, .COMPLEX_TRAJECTORY_COMPLETION_ALERT => .REPLAN_AFTER_COMPLEX_TRAJECTORY
  | .AWAITING_REPLAN, .TRAJECTORY_FAILED_EXECUTION => .REPLAN_DUE_TO_FAILED_TRAJECTORY
  | .INITIAL_PLANNING, .FINISHED_TRAJECTORY_PLANNING => .AWAITING_REPLAN
  | .NORMAL_REPLANNING, .FINISHED_TRAJECTORY_PLANNING => .AWAITING_REPLAN
  | .REPLAN_AFTER_COMPLEX_TRAJECTORY, .FINISHED_TRAJECTORY_PLANNING => .AWAITING_REPLAN
  | .REPLAN_DUE_TO_FAILED_TRAJECTORY, .FINISHED_TRAJECTORY_PLANNING => .AWAITING_REPLAN
  | _, .CLEAN_RESTART => .INIT
  | s, _ => s

/-- The job that a phase posts, where it is one of planning. -/
def phaseJob : ArbitratorState → Option ArbitratorJob
  | .INITIAL_PLANNING => some .initialPlan
  | .NORMAL_REPLANNING => some .normalReplan
  | .REPLAN_AFTER_COMPLEX_TRAJECTORY => some .complexTrajectoryReplan
  | .REPLAN_DUE_TO_FAILED_TRAJECTORY => some .failedTrajectoryReplan
  | .INIT | .AWAITING_REPLAN => none

def ArbitratorJob.isPlanning : ArbitratorJob → Bool
  | .component _ => false
  | _ => true

/-- The arbitrator, as far as its phases and its queue go. -/
structure Arbitrator where
  state : ArbitratorState
  jobQueue : List ArbitratorJob
  looping : Bool
deriving DecidableEq

/-- The arbitrator after its constructor. -/
def newArbitrator : Arbitrator where
  state := .INIT
  jobQueue := [.component .onStartup]
  looping := true

/-- The alerts of other threads: of the worker at a percentage of the trajectory, and of
tracking or the worker when the trajectory has failed. -/
inductive Alert
  | completion
  | complexCompletion
  | failure
deriving DecidableEq, Repr

def Alert.event : Alert → ArbitratorEvent
  | .completion => .TRAJECTORY_COMPLETION_ALERT
  | .complexCompletion => .COMPLEX_TRAJECTORY_COMPLETION_ALERT
  | .failure => .TRAJECTORY_FAILED_EXECUTION

/-- How a job ends. A planning job finishes unless it finds the end of the route and does
nothing; any job may throw. -/
structure Ending where
  finished : Bool
  threw : Bool
deriving DecidableEq, Repr

inductive Call
  | guidance (a : GuidanceAction)
  | alert (alert : Alert)
  | runJobQueue (ending : Ending)
deriving DecidableEq, Repr

/-- A job begins, in a phase. -/
structure Started where
  job : ArbitratorJob
  state : ArbitratorState
deriving DecidableEq, Repr

namespace Arbitrator

/-- Put jobs at the end of the queue. -/
def post (m : Arbitrator) (jobs : List ArbitratorJob) : Arbitrator :=
  { m with jobQueue := m.jobQueue ++ jobs }

/-- `processEvent`, with the `onStateChange` of the arbitrator itself. -/
def processEvent (m : Arbitrator) (e : ArbitratorEvent) : Arbitrator :=
  if nextState m.state e = m.state then m
  else { m with state := nextState m.state e }.post (phaseJob (nextState m.state e)).toList

/-- What a job makes of the arbitrator. The jobs of the component tell the machine before they
do anything that may throw, a planning job when it has planned. -/
def runJob (m : Arbitrator) (j : ArbitratorJob) (ending : Ending) : Arbitrator :=
  match j with
  | .component .onEngaged => m.processEvent .INITIALIZE
  | .component .onCleanRestart => m.processEvent .CLEAN_RESTART
  | .component _ => m
  | _ => if ending.finished then m.processEvent .FINISHED_TRAJECTORY_PLANNING else m

/-- Whether the thread goes on after a job. -/
def goesOn (j : ArbitratorJob) (ending : Ending) : Bool :=
  match j with
  | .component j => !j.isShutdown && !ending.threw
  | _ => !ending.threw

def runJobQueue (m : Arbitrator) (ending : Ending) : Arbitrator × List Started :=
  match m.looping, m.jobQueue with
  | true, j :: rest =>
    ({ m with jobQueue := rest, looping := goesOn j ending }.runJob j ending, [⟨j, m.state⟩])
  | _, _ => (m, [])

def call (m : Arbitrator) : Call → Arbitrator × List Started
  | .guidance a => (m.post ((onStateChange .arbitrator a).map .component), [])
  | .alert alert => (m.processEvent alert.event, [])
  | .runJobQueue ending => m.runJobQueue ending

/-- One call, as to the state alone. -/
def step (m : Arbitrator) (k : Call) : Arbitrator := (m.call k).1

/-! ## Planning jobs in step with the phases -/

/-- The restart of the queue. -/
def restart : ArbitratorJob := .component .onCleanRestart

/-- No planning job waits, or one does: that of the current phase, and no restart is before it. -/
def InStep (m : Arbitrator) : Prop :=
  (∀ j ∈ m.jobQueue, j.isPlanning = false) ∨
    ∃ before j after, m.jobQueue = before ++ j :: after ∧ phaseJob m.state = some j ∧
      (∀ i ∈ before, i.isPlanning = false ∧ i ≠ restart) ∧ ∀ i ∈ after, i.isPlanning = false

/-- A call begins a planning phase. -/
def Begins (m : Arbitrator) (k : Call) : Prop :=
  (m.step k).state ≠ m.state ∧ (phaseJob (m.step k).state).isSome

theorem processEvent_cases (m : Arbitrator) (e : ArbitratorEvent) :
    m.processEvent e = m ∧ nextState m.state e = m.state ∨
      nextState m.state e ≠ m.state ∧ (m.processEvent e).state = nextState m.state e ∧
        (m.processEvent e).jobQueue = m.jobQueue ++ (phaseJob (nextState m.state e)).toList := by
  unfold processEvent
  split_ifs with h
  · exact Or.inl ⟨rfl, h⟩
  · exact Or.inr ⟨h, rfl, rfl⟩

theorem phaseJob_isPlanning {s : ArbitratorState} {j : ArbitratorJob} (h : phaseJob s = some j) :
    j.isPlanning = true := by
  cases s <;> simp [phaseJob] at h <;> subst h <;> rfl

/-- Outside the planning phases an arbitrator in step has no planning job. -/
theorem no_planning_of_phaseJob_none {m : Arbitrator} (h : InStep m) (hnone : phaseJob m.state = none) :
    ∀ j ∈ m.jobQueue, j.isPlanning = false := by
  rcases h with h | ⟨before, j, after, -, hphase, -⟩
  · exact h
  · rw [hnone] at hphase
    cases hphase

theorem inStep_append {m n : Arbitrator} {jobs : List ArbitratorJob} (hstate : n.state = m.state)
    (hqueue : n.jobQueue = m.jobQueue ++ jobs) (hjobs : ∀ j ∈ jobs, j.isPlanning = false)
    (h : InStep m) : InStep n := by
  unfold InStep
  rw [hstate, hqueue]
  rcases h with h | ⟨before, j, after, hsplit, hphase, hbefore, hafter⟩
  · left
    simpa [List.mem_append, or_imp, forall_and] using ⟨h, hjobs⟩
  · right
    refine ⟨before, j, after ++ jobs, by simp [hsplit], hphase, hbefore, ?_⟩
    simpa [List.mem_append, or_imp, forall_and] using ⟨hafter, hjobs⟩

theorem inStep_of_begins {m n : Arbitrator} {j : ArbitratorJob}
    (hnone : ∀ i ∈ m.jobQueue, i.isPlanning = false) (hphase : phaseJob n.state = some j)
    (hqueue : n.jobQueue = m.jobQueue ++ [j]) : InStep n ↔ restart ∉ m.jobQueue := by
  have hj := phaseJob_isPlanning hphase
  constructor
  · rintro (h | ⟨before, i, after, hsplit, hi, hbefore, hafter⟩)
    · have hno := h j (by simp [hqueue])
      simp [hj] at hno
    · -- The planning job is the last of the queue.
      have hlast : after = [] := by
        rcases List.eq_nil_or_concat after with h | ⟨after', l, h⟩
        · exact h
        · rw [hqueue, h, List.concat_eq_append, ← List.cons_append, ← List.append_assoc] at hsplit
          have hl : j = l := by simpa using (List.append_inj' hsplit rfl).2
          have hno := hafter l (by simp [h])
          rw [← hl, hj] at hno
          cases hno
      rw [hqueue, hlast] at hsplit
      rw [(List.append_inj' hsplit rfl).1]
      intro hmem
      exact (hbefore restart hmem).2 rfl
  · intro hno
    right
    refine ⟨m.jobQueue, j, [], hqueue, hphase, fun i hi => ⟨hnone i hi, ?_⟩, by simp⟩
    rintro rfl
    exact hno hi

/-- The head of the queue is taken: what is left is in step, if the head was not a restart. -/
theorem inStep_tail {m n : Arbitrator} {i : ArbitratorJob} (h : InStep m)
    (hqueue : m.jobQueue = i :: n.jobQueue) (hstate : n.state = m.state) : InStep n := by
  rcases h with h | ⟨before, j, after, hsplit, hphase, hbefore, hafter⟩
  · left
    intro l hl
    exact h l (by simp [hqueue, hl])
  · rw [hqueue] at hsplit
    cases before with
    | nil =>
      obtain ⟨-, htail⟩ := List.cons.inj hsplit
      left
      rw [htail]
      exact hafter
    | cons b before =>
      obtain ⟨-, htail⟩ := List.cons.inj hsplit
      right
      exact ⟨before, j, after, htail, by rw [hstate]; exact hphase,
        fun l hl => hbefore l (by simp [hl]), hafter⟩

theorem inStep_of_none {m : Arbitrator} (h : ∀ j ∈ m.jobQueue, j.isPlanning = false) : InStep m :=
  Or.inl h

theorem no_planning_behind {m : Arbitrator} {i : ArbitratorJob} {rest : List ArbitratorJob}
    (h : InStep m) (hqueue : m.jobQueue = i :: rest) (hi : i.isPlanning = true ∨ i = restart) :
    ∀ j ∈ rest, j.isPlanning = false := by
  rcases h with h | ⟨before, j, after, hsplit, hphase, hbefore, hafter⟩
  · intro j hj
    exact h j (by simp [hqueue, hj])
  · rw [hqueue] at hsplit
    cases before with
    | nil =>
      obtain ⟨-, htail⟩ := List.cons.inj hsplit
      rw [htail]
      exact hafter
    | cons b before =>
      obtain ⟨rfl, -⟩ := List.cons.inj hsplit
      obtain ⟨hno, hne⟩ := hbefore i (by simp)
      rcases hi with hi | hi
      · simp [hno] at hi
      · exact absurd hi hne

theorem nextState_alert {s : ArbitratorState} {alert : Alert} (h : nextState s alert.event ≠ s) :
    phaseJob s = none ∧ ∃ j, phaseJob (nextState s alert.event) = some j := by
  cases s <;> cases alert <;> simp [nextState, Alert.event, phaseJob] at h ⊢

theorem nextState_initialize {s : ArbitratorState} (h : nextState s .INITIALIZE ≠ s) :
    phaseJob s = none ∧ phaseJob (nextState s .INITIALIZE) = some .initialPlan := by
  cases s <;> simp [nextState, phaseJob] at h ⊢

theorem phaseJob_finished {s : ArbitratorState}
    (h : nextState s .FINISHED_TRAJECTORY_PLANNING ≠ s) :
    phaseJob (nextState s .FINISHED_TRAJECTORY_PLANNING) = none := by
  cases s <;> simp [nextState, phaseJob] at h ⊢

theorem nextState_restart (s : ArbitratorState) : nextState s .CLEAN_RESTART = .INIT := by
  cases s <;> rfl

theorem inStep_processEvent_of_begins {m n : Arbitrator} {e : ArbitratorEvent}
    (hchanges : nextState m.state e ≠ m.state) (hnone : ∀ i ∈ m.jobQueue, i.isPlanning = false)
    {j : ArbitratorJob} (hphase : phaseJob (nextState m.state e) = some j)
    (hn : n = m.processEvent e) : InStep n ↔ restart ∉ m.jobQueue := by
  rcases m.processEvent_cases e with ⟨-, hsame⟩ | ⟨-, hstate, hqueue⟩
  · exact absurd hsame hchanges
  · apply inStep_of_begins hnone
    · rw [hn, hstate, hphase]
    · rw [hn, hqueue, hphase]
      rfl

theorem inStep_runJobQueue_iff {m : Arbitrator} (h : InStep m) (ending : Ending) :
    InStep (m.step (.runJobQueue ending)) ↔
      (Begins m (.runJobQueue ending) → restart ∉ m.jobQueue) := by
  unfold Begins
  simp only [step, call, runJobQueue]
  rcases hloop : m.looping with _ | _
  · simpa using h
  rcases hqueue : m.jobQueue with _ | ⟨j, rest⟩
  · simpa using h
  simp only
  generalize hm : ({ m with jobQueue := rest, looping := goesOn j ending } : Arbitrator) = m0
  have hstate0 : m0.state = m.state := by rw [← hm]
  have hqueue0 : m0.jobQueue = rest := by rw [← hm]
  have htail : InStep m0 := inStep_tail h (by rw [hqueue, hqueue0]) hstate0
  -- Where the phase stays, or a phase comes that does not plan, nothing begins.
  have hquiet : ∀ n : Arbitrator, InStep n → (n.state = m.state ∨ phaseJob n.state = none) →
      (InStep n ↔ (n.state ≠ m.state ∧ (phaseJob n.state).isSome = true →
        restart ∉ j :: rest)) := by
    intro n hn hno
    refine iff_of_true hn ?_
    rintro ⟨hne, hsome⟩
    rcases hno with hno | hno
    · exact absurd hno hne
    · simp [hno] at hsome
  have hplanning : j.isPlanning = true → (∀ i ∈ m0.jobQueue, i.isPlanning = false) := by
    intro hj
    rw [hqueue0]
    exact no_planning_behind h hqueue (Or.inl hj)
  have hfinish : j.isPlanning = true →
      (InStep (if ending.finished then m0.processEvent .FINISHED_TRAJECTORY_PLANNING else m0) ∧
        ((if ending.finished then m0.processEvent .FINISHED_TRAJECTORY_PLANNING else m0).state =
            m.state ∨ phaseJob (if ending.finished then
              m0.processEvent .FINISHED_TRAJECTORY_PLANNING else m0).state = none)) := by
    intro hj
    split_ifs
    · rcases m0.processEvent_cases .FINISHED_TRAJECTORY_PLANNING with
        ⟨hsame, -⟩ | ⟨hne, hstate, hq⟩
      · rw [hsame]
        exact ⟨htail, Or.inl hstate0⟩
      · have hnone := phaseJob_finished hne
        refine ⟨inStep_of_none ?_, Or.inr (by rw [hstate, hnone])⟩
        rw [hq, hnone]
        simpa using hplanning hj
    · exact ⟨htail, Or.inl hstate0⟩
  cases j with
  | component job =>
    cases job with
    | onEngaged =>
      simp only [runJob]
      by_cases hne : nextState m0.state .INITIALIZE = m0.state
      · rcases m0.processEvent_cases .INITIALIZE with ⟨hsame, -⟩ | ⟨hno, -⟩
        · rw [hsame]
          exact hquiet m0 htail (Or.inl hstate0)
        · exact absurd hne hno
      · obtain ⟨hnone, hphase⟩ := nextState_initialize hne
        have hidle := no_planning_of_phaseJob_none htail hnone
        rw [inStep_processEvent_of_begins hne hidle hphase rfl, hqueue0]
        have hstate : (m0.processEvent .INITIALIZE).state = nextState m0.state .INITIALIZE := by
          rcases m0.processEvent_cases .INITIALIZE with ⟨-, hsame⟩ | ⟨-, hs, -⟩
          · exact absurd hsame hne
          · exact hs
        rw [hstate, hphase, ← hstate0]
        simp [hne, restart]
    | onCleanRestart =>
      simp only [runJob]
      have hrest : ∀ i ∈ m0.jobQueue, i.isPlanning = false := by
        rw [hqueue0]
        exact no_planning_behind h hqueue (Or.inr rfl)
      have hinit : (m0.processEvent .CLEAN_RESTART).jobQueue = m0.jobQueue ∧
          (m0.processEvent .CLEAN_RESTART).state = .INIT := by
        rcases m0.processEvent_cases .CLEAN_RESTART with ⟨hsame, hs⟩ | ⟨-, hs, hq⟩
        · rw [hsame, ← hs]
          exact ⟨rfl, nextState_restart _⟩
        · rw [hs, hq, nextState_restart]
          exact ⟨by simp [phaseJob], rfl⟩
      apply hquiet
      · apply inStep_of_none
        rw [hinit.1]
        exact hrest
      · right
        rw [hinit.2]
        rfl
    | _ => exact hquiet m0 htail (Or.inl hstate0)
  | _ =>
    obtain ⟨hin, hphase⟩ := hfinish rfl
    exact hquiet _ hin hphase

/-- The step lemma: an arbitrator in step stays so just when the call begins no phase behind a
restart. -/
theorem inStep_step_iff {m : Arbitrator} (h : InStep m) (k : Call) :
    InStep (m.step k) ↔ (Begins m k → restart ∉ m.jobQueue) := by
  cases k with
  | guidance a =>
    have hjobs : ∀ j ∈ (onStateChange .arbitrator a).map ArbitratorJob.component,
        j.isPlanning = false := by
      simp [ArbitratorJob.isPlanning]
    have hin : InStep (m.step (.guidance a)) := inStep_append (m := m) rfl rfl hjobs h
    exact iff_of_true hin fun hbegins => absurd rfl hbegins.1
  | alert alert =>
    by_cases hne : nextState m.state alert.event = m.state
    · have hsame : m.step (.alert alert) = m := by
        rcases m.processEvent_cases alert.event with ⟨hsame, -⟩ | ⟨hno, -⟩
        · exact hsame
        · exact absurd hne hno
      unfold Begins
      rw [hsame]
      exact iff_of_true h fun hbegins => absurd rfl hbegins.1
    · obtain ⟨hnone, j, hphase⟩ := nextState_alert hne
      have hidle := no_planning_of_phaseJob_none h hnone
      have hstate : (m.step (.alert alert)).state = nextState m.state alert.event := by
        rcases m.processEvent_cases alert.event with ⟨-, hsame⟩ | ⟨-, hs, -⟩
        · exact absurd hsame hne
        · exact hs
      rw [inStep_processEvent_of_begins (n := m.step (.alert alert)) hne hidle hphase rfl]
      unfold Begins
      rw [hstate, hphase]
      simp [hne]
  | runJobQueue ending => exact inStep_runJobQueue_iff h ending

end Arbitrator

open Arbitrator (InStep Begins restart)

theorem newArbitrator_inStep : InStep newArbitrator := by
  left
  simp [newArbitrator, ArbitratorJob.isPlanning]

/-- Over a whole run at most one planning job waits, that of the current phase and with no
restart in front of it, just when no phase of planning begins while a restart waits. -/
theorem planning_is_in_step_iff (calls : List Call) :
    (∀ m ∈ states Arbitrator.step newArbitrator calls, InStep m) ↔
      EachCall Arbitrator.step (fun m k => Begins m k → restart ∉ m.jobQueue) newArbitrator
        calls := by
  apply states_iff (I := fun _ => True) _ _ trivial newArbitrator_inStep (fun _ _ => trivial)
  · intro _ _ _ _
    trivial
  · intro m k _ _ h
    exact Arbitrator.inStep_step_iff h k

/-- Guidance is engaged and restarted before the arbitrator has run its job of the engagement: the
initial plan then begins when the arbitrator has been reset. -/
example :
    (logged Arbitrator.call newArbitrator
      [.guidance .ENGAGE, .guidance .RESTART, .runJobQueue ⟨true, false⟩,
        .runJobQueue ⟨true, false⟩, .runJobQueue ⟨true, false⟩, .runJobQueue ⟨true, false⟩]).getLast? =
      some ⟨.initialPlan, .INIT⟩ := by
  decide

end carma.arbitrator_state_machine
