-- The laws of the guidance node over its runs: how the components follow the
-- machine through their queues, what the controller is asked, and that a
-- shutdown is final.
import Mathlib.Data.List.Induction
import Carma.GuidanceNode
import Carma.Lib.Walks

open lib.runs
open lib.walks

namespace carma.guidance_node

/-! ## What the machine does -/

/-- The state that an action leads to. -/
def GuidanceAction.state : GuidanceAction → GuidanceState
  | .INTIALIZE | .RESTART => .DRIVERS_READY
  | .ACTIVATE => .ACTIVE
  | .ENGAGE => .ENGAGED
  | .DEACTIVATE => .INACTIVE
  | .SHUTDOWN | .PANIC_SHUTDOWN => .SHUTDOWN

def GuidanceAction.isShutdown : GuidanceAction → Bool
  | .SHUTDOWN | .PANIC_SHUTDOWN => true
  | _ => false

/-- The machine takes an action on some event. -/
def Takes (s : GuidanceState) (a : GuidanceAction) (t : GuidanceState) : Prop :=
  t = a.state ∧ ∃ e, actionOf s e = some a

theorem transition_of_actionOf {s : GuidanceState} {e : GuidanceEvent} {a : GuidanceAction}
    (h : actionOf s e = some a) : (transition s e).1 = a.state := by
  cases s <;> cases e <;> simp [actionOf, transition] at h <;> subst h <;> rfl

/-- Where each action is taken. -/
theorem takes_iff {s t : GuidanceState} {a : GuidanceAction} :
    Takes s a t ↔ t = a.state ∧
      match a with
      | .INTIALIZE => s = .STARTUP
      | .ACTIVATE => s = .DRIVERS_READY
      | .ENGAGE => s = .ACTIVE ∨ s = .INACTIVE
      | .DEACTIVATE => s = .ENGAGED
      | .RESTART => s = .ACTIVE ∨ s = .INACTIVE ∨ s = .ENGAGED
      | .SHUTDOWN | .PANIC_SHUTDOWN => s ≠ .SHUTDOWN := by
  unfold Takes
  apply and_congr_right
  intro _
  constructor
  · rintro ⟨e, he⟩
    cases s <;> cases e <;> simp [actionOf, transition] at he <;> subst he <;> simp
  · intro h
    cases a with
    | INTIALIZE => exact ⟨.FOUND_DRIVERS, by subst h; rfl⟩
    | ACTIVATE => exact ⟨.ACTIVATE, by subst h; rfl⟩
    | ENGAGE => exact ⟨.START_ROUTE, by rcases h with rfl | rfl <;> rfl⟩
    | DEACTIVATE => exact ⟨.ROBOT_DISABLED, by subst h; rfl⟩
    | RESTART => exact ⟨.DISENGAGE, by rcases h with rfl | rfl | rfl <;> rfl⟩
    | SHUTDOWN => exact ⟨.SHUTDOWN, by cases s <;> simp_all [actionOf, transition]⟩
    | PANIC_SHUTDOWN => exact ⟨.PANIC, by cases s <;> simp_all [actionOf, transition]⟩

theorem no_action_in_shutdown (a : GuidanceAction) (t : GuidanceState) : ¬ Takes .SHUTDOWN a t := by
  rw [takes_iff]
  cases a <;> simp

/-! ## What a call does -/

/-- The events that a call may add, beside an action or a job. -/
def Event.isQuiet : Event → Prop
  | .alert _ | .guidanceStatus _ | .heardRobot _ => True
  | _ => False

theorem quiet_events {events : List Event} (h : ∀ e ∈ events, Event.isQuiet e) :
    actions events = [] ∧ (∀ c, jobsRun c events = []) ∧ requests events = [] := by
  refine ⟨?_, fun c => ?_, ?_⟩
  all_goals
    apply List.flatMap_eq_nil_iff.mpr
    intro e he
    have hquiet := h e he
    cases e <;> first | exact hquiet.elim | rfl

/-- A component keeps its copy of the state and its queue, and a thread that has ended does not
start again. -/
structure GuidanceComponent.Stays (w w' : GuidanceComponent) : Prop where
  currentState : w'.currentState = w.currentState
  jobQueue : w'.jobQueue = w.jobQueue
  ended : w.looping = false → w'.looping = false

theorem GuidanceComponent.Stays.refl (w : GuidanceComponent) : w.Stays w := ⟨rfl, rfl, id⟩

theorem GuidanceComponent.Stays.looping {w w' : GuidanceComponent} (h : w.Stays w')
    (hloops : w'.looping = true) : w.looping = true := by
  by_contra hended
  rw [h.ended (Bool.eq_false_iff.mpr hended)] at hloops
  cases hloops

namespace GuidanceNode

/-- All that a call can do to the machine and the components: nothing, one action that every
component posts to itself, or one job that one component takes from its queue. -/
inductive Effect (k : Call) (n n' : GuidanceNode) (events : List Event) : Prop
  | silent (hstate : n'.guidanceState = n.guidanceState)
      (hstays : ∀ c, (n.components c).Stays (n'.components c))
      (hactions : actions events = []) (hjobs : ∀ c, jobsRun c events = [])
      (hrequests : requests events = [])
  | acted (a : GuidanceAction) (htakes : Takes n.guidanceState a n'.guidanceState)
      (hcomponents : ∀ c, n'.components c = (n.components c).post (onStateChange c a))
      (hactions : actions events = [a]) (hjobs : ∀ c, jobsRun c events = [])
      (hrequests : requests events = [])
  | ran (c : Component) (j : Job) (rest : List Job) (ending : Ending)
      (hcall : k = .runJobQueue c ending) (hlooping : (n.components c).looping = true) (hqueue : (n.components c).jobQueue = j :: rest)
      (hstate : n'.guidanceState = n.guidanceState)
      (hcomponents : n'.components = Function.update n.components c
        { currentState := if ending.wrote then afterJob c (n.components c).currentState j
            else (n.components c).currentState
          jobQueue := rest
          looping := ending.hasReturned && !j.isShutdown })
      (hactions : actions events = []) (hjobs : ∀ c', jobsRun c' events = if c = c' then [j] else [])
      (hrequests : requests events =
        if ending.hasReturned then requests (published c j) else [])

theorem effect_of_quiet {k : Call} {n n' : GuidanceNode} {events : List Event}
    (hstate : n'.guidanceState = n.guidanceState) (hcomponents : n'.components = n.components)
    (h : ∀ e ∈ events, Event.isQuiet e) : Effect k n n' events :=
  have hquiet := quiet_events h
  .silent hstate (fun _ => hcomponents ▸ .refl _) hquiet.1 hquiet.2.1 hquiet.2.2

/-- An event that is handed to the machine has an effect, also where the call publishes
something around it or writes fields of the handler. -/
theorem effect_of_event {k : Call} {n n' : GuidanceNode} {e : GuidanceEvent}
    (before after : List Event)
    (hstate : n'.guidanceState = (n.processEvent e).1.guidanceState)
    (hcomponents : n'.components = (n.processEvent e).1.components)
    (hbefore : ∀ e ∈ before, Event.isQuiet e) (hafter : ∀ e ∈ after, Event.isQuiet e) :
    Effect k n n' (before ++ (n.processEvent e).2 ++ after) := by
  obtain ⟨hb, hb', hb''⟩ := quiet_events hbefore
  obtain ⟨ha, ha', ha''⟩ := quiet_events hafter
  unfold processEvent at hstate hcomponents ⊢
  rcases hact : actionOf n.guidanceState e with _ | a
  · simp only [hact] at hstate hcomponents ⊢
    apply Effect.silent hstate (fun _ => hcomponents ▸ .refl _) <;>
      simp [hb, hb', hb'', ha, ha', ha'']
  · simp only [hact] at hstate hcomponents ⊢
    apply Effect.acted a
    · exact ⟨hstate.trans (transition_of_actionOf hact), e, hact⟩
    · intro c
      rw [hcomponents]
    · simp [hb, ha, Event.actions]
    · simp [hb', ha', Event.jobsRun]
    · simp [hb'', ha'', Event.requests]

theorem effect_processEvent {k : Call} {n n' : GuidanceNode} {e : GuidanceEvent}
    (hstate : n'.guidanceState = (n.processEvent e).1.guidanceState)
    (hcomponents : n'.components = (n.processEvent e).1.components) :
    Effect k n n' (n.processEvent e).2 := by
  simpa using effect_of_event [] [] hstate hcomponents (by simp) (by simp)

theorem effect_quiet_processEvent {k : Call} {n n' : GuidanceNode} {e : GuidanceEvent} {first : Event}
    (hfirst : first.isQuiet) (hstate : n'.guidanceState = (n.processEvent e).1.guidanceState)
    (hcomponents : n'.components = (n.processEvent e).1.components) :
    Effect k n n' (first :: (n.processEvent e).2) := by
  simpa using effect_of_event [first] [] hstate hcomponents (by simpa using hfirst) (by simp)

theorem register_guidanceState (n : GuidanceNode) (c : Component) (j : Job) (robotTopic : Bool) :
    (n.register c j robotTopic).guidanceState = n.guidanceState := by
  unfold register
  split <;> rfl

theorem register_components (n : GuidanceNode) (c : Component) (j : Job) (robotTopic : Bool) :
    (n.register c j robotTopic).components = n.components := by
  unfold register
  split <;> rfl

theorem published_actions (c : Component) (j : Job) : actions (published c j) = [] := by
  cases c <;> cases j <;> rfl

theorem published_jobsRun (c c' : Component) (j : Job) : jobsRun c' (published c j) = [] := by
  cases c <;> cases j <;> rfl

theorem effect_runJobQueue (n : GuidanceNode) (c : Component) (ending : Ending) :
    Effect (.runJobQueue c ending) n (n.runJobQueue c ending).1 (n.runJobQueue c ending).2 := by
  have hnothing : Effect (.runJobQueue c ending) n n [] := effect_of_quiet rfl rfl (by simp)
  unfold runJobQueue
  rcases hloop : (n.components c).looping with _ | _
  · simpa only [hloop] using hnothing
  · rcases hqueue : (n.components c).jobQueue with _ | ⟨j, rest⟩
    · simpa only [hloop, hqueue] using hnothing
    · simp only [hloop, hqueue]
      apply Effect.ran c j rest ending rfl hloop hqueue
      · exact register_guidanceState _ _ _ _
      · exact register_components _ _ _ _
      · cases ending.hasReturned <;> simp [Event.actions, published_actions]
      · intro c'
        cases ending.hasReturned <;> simp [Event.jobsRun, published_jobsRun]
      · cases ending.hasReturned <;> simp [Event.requests]

theorem effect_runPlanningJob (n : GuidanceNode) (returned : Bool) :
    Effect (.runPlanningJob returned) n (n.runPlanningJob returned) [] := by
  unfold runPlanningJob
  dsimp only
  split
  · rename_i hloop
    refine .silent rfl (fun c => ?_) rfl (fun _ => rfl) rfl
    by_cases hc : c = .arbitrator
    · subst hc
      simp only [setComponent, Function.update_self]
      exact ⟨rfl, rfl, fun hended => absurd (hloop.symm.trans hended) Bool.true_eq_false.mp⟩
    · simp only [setComponent, Function.update_of_ne hc]
      exact .refl _
  · exact effect_of_quiet rfl rfl (by simp)

/-- The inversion of a call. -/
theorem effect_call (n : GuidanceNode) (k : Call) : Effect k n (n.call k).1 (n.call k).2 := by
  have hnothing : Effect k n n [] := effect_of_quiet rfl rfl (by simp)
  cases k with
  | systemAlert type =>
    simp only [call]
    split
    · cases type <;> first | exact hnothing | exact effect_processEvent rfl rfl
    · exact hnothing
  | routeEvent event =>
    simp only [call]
    split
    · cases event <;> first | exact hnothing | exact effect_quiet_processEvent trivial rfl rfl
    · exact hnothing
  | setGuidanceActive active =>
    simp only [call]
    split
    · unfold setGuidanceActive
      split_ifs
      · exact effect_processEvent rfl rfl
      · simpa using effect_of_event (e := .DISENGAGE) [] [.guidanceStatus false] rfl rfl
          (by simp) (by simp [Event.isQuiet])
      · exact effect_of_quiet rfl rfl (by simp [Event.isQuiet])
    · exact hnothing
  | guidanceStatusRead =>
    simp only [call, guidanceStatusRead]
    split
    · exact hnothing
    · exact effect_of_quiet rfl rfl (by simp [Event.isQuiet])
  | robotEnabled robotActive =>
    simp only [call]
    split
    · unfold robotEnabled
      split_ifs
      · exact effect_quiet_processEvent trivial rfl rfl
      · exact effect_quiet_processEvent trivial rfl rfl
      · exact effect_of_quiet rfl rfl (by simp [Event.isQuiet])
    · exact hnothing
  | robotStatusWritten =>
    simp only [call, robotStatusWritten]
    split
    · exact hnothing
    · exact effect_of_quiet rfl rfl (by simp)
  | handleException => exact effect_processEvent rfl rfl
  | runJobQueue c ending => exact effect_runJobQueue n c ending
  | runPlanningJob returned => exact effect_runPlanningJob n returned

end GuidanceNode

/-! ## The components follow the machine -/

theorem effect_next (calls : List Call) (k : Call) :
    GuidanceNode.Effect k (nodeAfter calls) (nodeAfter (calls ++ [k]))
      ((nodeAfter calls).call k).2 := by
  simpa only [nodeAfter_snoc] using GuidanceNode.effect_call (nodeAfter calls) k

/-- The actions of a run lead the machine from where it was to where it is. -/
theorem walk_of_logged (n : GuidanceNode) (calls : List Call) :
    Walk Takes n.guidanceState (actions (logged GuidanceNode.call n calls))
      (stateAfter GuidanceNode.call n calls).guidanceState := by
  induction calls generalizing n with
  | nil => rfl
  | cons k calls ih =>
    have hrest := ih (n.call k).1
    simp only [logged, actions_append]
    cases GuidanceNode.effect_call n k with
    | silent hstate hstays hactions hjobs hrequests =>
      rw [hactions, ← hstate]
      exact hrest
    | acted a htakes hcomponents hactions hjobs hrequests =>
      rw [hactions]
      exact ⟨_, htakes, hrest⟩
    | ran c j rest ending hcall hlooping hqueue hstate hcomponents hactions hjobs hrequests =>
      rw [hactions, ← hstate]
      exact hrest

theorem actions_walk (calls : List Call) :
    Walk Takes .STARTUP (actions (nodeLog calls)) (nodeAfter calls).guidanceState :=
  walk_of_logged newGuidanceNode calls

/-- The jobs that a component has posted to itself so far, run or waiting. -/
def jobsSoFar (calls : List Call) (c : Component) : List Job :=
  jobsRun c (nodeLog calls) ++ ((nodeAfter calls).components c).jobQueue

theorem jobsSoFar_snoc (calls : List Call) (k : Call) (c : Component) :
    jobsSoFar (calls ++ [k]) c = jobsSoFar calls c ++
      (actions ((nodeAfter calls).call k).2).flatMap (onStateChange c) := by
  unfold jobsSoFar
  rw [nodeLog_snoc, jobsRun_append]
  cases effect_next calls k with
  | silent hstate hstays hactions hjobs hrequests =>
    rw [hactions, hjobs, (hstays c).jobQueue]
    simp
  | acted a htakes hcomponents hactions hjobs hrequests =>
    rw [hactions, hjobs, hcomponents]
    simp
  | ran c' j rest ending hcall hlooping hqueue hstate hcomponents hactions hjobs hrequests =>
    rw [hactions, hjobs, hcomponents]
    by_cases hc : c' = c
    · subst hc
      simp [hqueue]
    · simp [hc, Ne.symm hc]

theorem jobsSoFar_eq (calls : List Call) (c : Component) :
    jobsSoFar calls c = startJobs c ++ (actions (nodeLog calls)).flatMap (onStateChange c) := by
  induction calls using List.reverseRecOn with
  | nil => exact (List.append_nil _).symm
  | append_singleton calls k ih =>
    rw [jobsSoFar_snoc, ih, nodeLog_snoc, actions_append, List.flatMap_append, List.append_assoc]

/-- The jobs that a component has run and those that wait are those of its constructor and
then those of the actions, each one once and in their order. -/
theorem a_component_runs_the_jobs_of_the_actions_in_order (calls : List Call) (c : Component) :
    jobsRun c (nodeLog calls) ++ ((nodeAfter calls).components c).jobQueue =
      startJobs c ++ (actions (nodeLog calls)).flatMap (onStateChange c) :=
  jobsSoFar_eq calls c

theorem afterJob_of_keepsState {c : Component} (h : keepsState c = true) (s : GuidanceState)
    (j : Job) : afterJob c s j = j.state := by
  simp [afterJob, h]

theorem onStateChange_leads {c : Component} (h : keepsState c = true) (s : GuidanceState)
    (a : GuidanceAction) : (onStateChange c a).foldl (afterJob c) s = a.state := by
  cases c <;> simp only [keepsState, Bool.false_eq_true] at h <;> cases a <;> rfl

/-- A component that keeps the state lags behind the machine by the jobs in its queue, as
long as none of its jobs throws before it has written. -/
theorem the_queue_leads_to_the_state_of_the_machine (calls : List Call) (c : Component)
    (hkeeps : keepsState c = true) (hthrows : Call.runJobQueue c (.threw false) ∉ calls) :
    ((nodeAfter calls).components c).jobQueue.foldl (afterJob c)
      ((nodeAfter calls).components c).currentState = (nodeAfter calls).guidanceState := by
  induction calls using List.reverseRecOn with
  | nil => cases c <;> rfl
  | append_singleton calls k ih =>
    simp only [List.mem_append, List.mem_singleton, not_or] at hthrows
    have hbefore := ih hthrows.1
    cases effect_next calls k with
    | silent hstate hstays hactions hjobs hrequests =>
      rw [hstate, (hstays c).jobQueue, (hstays c).currentState]
      exact hbefore
    | acted a htakes hcomponents hactions hjobs hrequests =>
      rw [hcomponents, htakes.1]
      simp [onStateChange_leads hkeeps]
    | ran c' j rest ending hcall hlooping hqueue hstate hcomponents hactions hjobs hrequests =>
      rw [hstate, hcomponents, ← hbefore]
      by_cases hc : c' = c
      · subst hc
        have hwrote : ending.wrote = true := by
          rcases ending with robotTopic | _ | _
          · rfl
          · exact absurd hcall (fun h => hthrows.2 h.symm)
          · rfl
        simp [hqueue, hwrote]
      · simp [Ne.symm hc]

/-- The drivers are found and guidance is activated, while the handler alone runs its jobs. -/
def activated : List Call :=
  [.runJobQueue .stateHandler (.returned false), .systemAlert .DRIVERS_READY,
    .runJobQueue .stateHandler (.returned true), .setGuidanceActive true]

theorem tracking_is_three_jobs_behind :
    ((nodeAfter activated).components .tracking).jobQueue =
        [.onStartup, .onSystemReady, .onActive] ∧
      ((nodeAfter activated).components .tracking).jobQueue.foldl (afterJob .tracking)
        ((nodeAfter activated).components .tracking).currentState = .ACTIVE :=
  ⟨rfl, the_queue_leads_to_the_state_of_the_machine activated .tracking rfl (by decide)⟩

/-! ## A shutdown is final -/

theorem GuidanceAction.isShutdown_iff (a : GuidanceAction) :
    a.isShutdown = true ↔ a.state = .SHUTDOWN := by
  cases a <;> simp [isShutdown, state]

theorem walk_counts_shutdowns {s t : GuidanceState} {as : List GuidanceAction}
    (h : Walk Takes s as t) :
    as.countP GuidanceAction.isShutdown = if t = .SHUTDOWN ∧ s ≠ .SHUTDOWN then 1 else 0 := by
  induction as generalizing s with
  | nil =>
    obtain rfl := h
    simp
  | cons a as ih =>
    obtain ⟨u, hu, hrest⟩ := h
    have hs : s ≠ .SHUTDOWN := by
      rintro rfl
      exact no_action_in_shutdown a u hu
    rw [List.countP_cons, ih hrest, hu.1]
    by_cases ha : a.state = .SHUTDOWN
    · rw [hu.1, ha] at hrest
      obtain ⟨-, rfl⟩ := walk_of_stuck no_action_in_shutdown hrest
      simp [GuidanceAction.isShutdown_iff, ha, hs]
    · simp [GuidanceAction.isShutdown_iff, ha, hs]

theorem onStateChange_countP (c : Component) (a : GuidanceAction) :
    (onStateChange c a).countP Job.isShutdown = if a.isShutdown then 1 else 0 := by
  cases c <;> cases a <;> rfl

/-- Every component is told to end once when the machine has shut down, and never before. -/
theorem a_component_is_told_to_end_once (calls : List Call) (c : Component) :
    (jobsRun c (nodeLog calls) ++ ((nodeAfter calls).components c).jobQueue).countP
        Job.isShutdown = if (nodeAfter calls).guidanceState = .SHUTDOWN then 1 else 0 := by
  have hstart : (startJobs c).countP Job.isShutdown = 0 := by cases c <;> rfl
  have hactions : ∀ as : List GuidanceAction,
      (as.flatMap (onStateChange c)).countP Job.isShutdown =
        as.countP GuidanceAction.isShutdown := by
    intro as
    induction as with
    | nil => rfl
    | cons a as ih =>
      rw [List.flatMap_cons, List.countP_append, List.countP_cons, ih, onStateChange_countP]
      exact Nat.add_comm _ _
  have hjobs := jobsSoFar_eq calls c
  unfold jobsSoFar at hjobs
  rw [hjobs, List.countP_append, hstart, hactions, walk_counts_shutdowns (actions_walk calls)]
  simp

theorem jobsRun_of_not_looping {n : GuidanceNode} {c : Component}
    (h : (n.components c).looping = false) (more : List Call) :
    jobsRun c (logged GuidanceNode.call n more) = [] := by
  induction more generalizing n with
  | nil => rfl
  | cons k more ih =>
    simp only [logged, jobsRun_append]
    cases GuidanceNode.effect_call n k with
    | silent hstate hstays hactions hjobs hrequests =>
      rw [hjobs, ih ((hstays c).ended h)]
      rfl
    | acted a htakes hcomponents hactions hjobs hrequests =>
      rw [hjobs, ih (by rw [hcomponents, GuidanceComponent.post_looping, h])]
      rfl
    | ran c' j rest ending hcall hlooping hqueue hstate hcomponents hactions hjobs hrequests =>
      have hc : c' ≠ c := by
        rintro rfl
        simp [h] at hlooping
      rw [hjobs, ih (by rw [hcomponents, Function.update_of_ne hc.symm, h])]
      simp [hc]

theorem not_looping_of_ended (calls : List Call) (c : Component)
    (h : ∃ j ∈ jobsRun c (nodeLog calls), j.isShutdown = true) :
    ((nodeAfter calls).components c).looping = false := by
  induction calls using List.reverseRecOn with
  | nil =>
    obtain ⟨j, hj, -⟩ := h
    cases hj
  | append_singleton calls k ih =>
    rw [nodeLog_snoc, jobsRun_append] at h
    cases effect_next calls k with
    | silent hstate hstays hactions hjobs hrequests =>
      rw [hjobs, List.append_nil] at h
      exact (hstays c).ended (ih h)
    | acted a htakes hcomponents hactions hjobs hrequests =>
      rw [hjobs, List.append_nil] at h
      rw [hcomponents]
      exact ih h
    | ran c' j rest ending hcall hlooping hqueue hstate hcomponents hactions hjobs hrequests =>
      rw [hcomponents]
      rw [hjobs] at h
      by_cases hc : c' = c
      · subst hc
        obtain ⟨i, hi, hend⟩ := h
        rcases List.mem_append.mp hi with hi | hi
        · rw [ih ⟨i, hi, hend⟩] at hlooping
          cases hlooping
        · obtain rfl : i = j := by simpa using hi
          simp [hend]
      · rw [Function.update_of_ne (Ne.symm hc)]
        exact ih (by simpa [hc] using h)

/-- Once a component has run the job that ends it, whatever is called afterwards, it runs
nothing more and the machine takes no action more. -/
theorem a_shutdown_is_final (calls more : List Call) (c : Component)
    (h : ∃ j ∈ jobsRun c (nodeLog calls), j.isShutdown = true) :
    jobsRun c (nodeLog (calls ++ more)) = jobsRun c (nodeLog calls) ∧
      actions (nodeLog (calls ++ more)) = actions (nodeLog calls) := by
  have hended := not_looping_of_ended calls c h
  have hshutdown : (nodeAfter calls).guidanceState = .SHUTDOWN := by
    by_contra hno
    have htold := a_component_is_told_to_end_once calls c
    rw [if_neg hno, List.countP_append, Nat.add_eq_zero_iff, List.countP_eq_zero] at htold
    obtain ⟨j, hj, hend⟩ := h
    exact htold.1 j hj hend
  have hwalk := walk_of_logged (nodeAfter calls) more
  rw [hshutdown] at hwalk
  have hnothing := (walk_of_stuck no_action_in_shutdown hwalk).1
  rw [nodeLog_append, jobsRun_append, actions_append, jobsRun_of_not_looping hended, hnothing]
  simp

/-- Alerts and exceptions after a panic bring nothing back. -/
theorem the_light_bar_ends_once :
    jobsRun .lightBarManager (nodeLog ([.handleException,
        .runJobQueue .lightBarManager (.returned false)] ++
          [.handleException, .runJobQueue .lightBarManager (.returned false)])) = [.onPanic] :=
  (a_shutdown_is_final [.handleException, .runJobQueue .lightBarManager (.returned false)]
    [.handleException, .runJobQueue .lightBarManager (.returned false)] .lightBarManager
    ⟨.onPanic, by decide, rfl⟩).1

/-! ## What the controller is asked -/

/-- The states in which the commands have asked the controller to be enabled. -/
def GuidanceState.isOn : GuidanceState → Bool
  | .ACTIVE | .INACTIVE | .ENGAGED => true
  | _ => false

/-- The request that goes with a job of the commands. -/
def Job.request : Job → Option Bool
  | .onActive => some true
  | .onCleanRestart => some false
  | _ => none

theorem requests_published (j : Job) :
    requests (GuidanceNode.published .guidanceCommands j) = j.request.toList := by
  cases j <;> rfl

theorem requests_published_of_ne {c : Component} (h : c ≠ .guidanceCommands) (j : Job) :
    requests (GuidanceNode.published c j) = [] := by
  cases c <;> first | exact absurd rfl h | (cases j <;> rfl)

/-- A job of the commands and the states around it: the first job, or that of an action. -/
def RunsJob (s : GuidanceState) (j : Job) (t : GuidanceState) : Prop :=
  t = j.state ∧ (j = .onStartup ∧ s = .STARTUP ∨
    ∃ a, Takes s a t ∧ onStateChange .guidanceCommands a = [j])

theorem walk_runsJob {s t : GuidanceState} {as : List GuidanceAction} (h : Walk Takes s as t) :
    Walk RunsJob s (as.flatMap (onStateChange .guidanceCommands)) t := by
  induction as generalizing s with
  | nil => exact h
  | cons a as ih =>
    obtain ⟨u, hu, hrest⟩ := h
    obtain ⟨j, hj, hstate⟩ : ∃ j, onStateChange .guidanceCommands a = [j] ∧ j.state = a.state := by
      cases a <;> exact ⟨_, rfl, rfl⟩
    rw [List.flatMap_cons, hj]
    exact ⟨u, ⟨hu.1.trans hstate.symm, Or.inr ⟨a, hu, hj⟩⟩, ih hrest⟩

theorem foldl_of_walk_runsJob {s t : GuidanceState} {js : List Job} (h : Walk RunsJob s js t) :
    js.foldl (afterJob .guidanceCommands) s = t := by
  induction js generalizing s with
  | nil => exact h
  | cons j js ih =>
    obtain ⟨u, hu, hrest⟩ := h
    rw [List.foldl_cons, afterJob_of_keepsState rfl, ← hu.1]
    exact ih hrest

theorem not_shutdown_of_walk_runsJob {s t : GuidanceState} {js : List Job}
    (h : Walk RunsJob s js t) (hs : s ≠ .SHUTDOWN) (hjs : ∀ j ∈ js, j.isShutdown = false) :
    t ≠ .SHUTDOWN := by
  induction js generalizing s with
  | nil =>
    obtain rfl := h
    exact hs
  | cons j js ih =>
    obtain ⟨u, hu, hrest⟩ := h
    have hj := hjs j (by simp)
    apply ih hrest
    · rw [hu.1]
      cases j <;> simp [Job.isShutdown, Job.state] at hj ⊢
    · intro i hi
      exact hjs i (by simp [hi])

theorem runsJob_switches : Switches RunsJob GuidanceState.isOn Job.request := by
  rintro s j t ⟨hstate, ⟨rfl, rfl⟩ | ⟨a, htakes, hj⟩⟩
  · subst hstate
    exact Or.inl ⟨rfl, rfl⟩
  · have hends : ∀ b u, ¬ RunsJob .SHUTDOWN b u := by
      rintro b u ⟨-, ⟨-, h⟩ | ⟨a, h, -⟩⟩
      · cases h
      · exact no_action_in_shutdown a u h
    obtain ⟨rfl, hs⟩ := takes_iff.mp htakes
    cases a <;> obtain rfl := (List.cons.inj hj).1
    case INTIALIZE => subst hs; exact Or.inl ⟨rfl, rfl⟩
    case ACTIVATE => subst hs; exact Or.inr (Or.inl ⟨rfl, rfl⟩)
    case ENGAGE => rcases hs with rfl | rfl <;> exact Or.inl ⟨rfl, rfl⟩
    case DEACTIVATE => subst hs; exact Or.inl ⟨rfl, rfl⟩
    case RESTART => rcases hs with rfl | rfl | rfl <;> exact Or.inr (Or.inl ⟨rfl, rfl⟩)
    case SHUTDOWN => exact Or.inr (Or.inr ⟨rfl, hends⟩)
    case PANIC_SHUTDOWN => exact Or.inr (Or.inr ⟨rfl, hends⟩)

/-- The requests are those of the jobs that the commands have run, but for a job that threw. -/
theorem requests_of_jobsRun (calls : List Call) :
    requests (nodeLog calls) <+: (jobsRun .guidanceCommands (nodeLog calls)).filterMap Job.request ∧
      (((nodeAfter calls).components .guidanceCommands).looping = true →
        requests (nodeLog calls) =
            (jobsRun .guidanceCommands (nodeLog calls)).filterMap Job.request ∧
          ((nodeAfter calls).components .guidanceCommands).currentState =
            (jobsRun .guidanceCommands (nodeLog calls)).foldl (afterJob .guidanceCommands)
              .STARTUP) := by
  induction calls using List.reverseRecOn with
  | nil => exact ⟨List.nil_prefix, fun _ => ⟨rfl, rfl⟩⟩
  | append_singleton calls k ih =>
    obtain ⟨hinit, hlooping⟩ := ih
    rw [nodeLog_snoc, requests_append, jobsRun_append, List.filterMap_append, List.foldl_append]
    cases effect_next calls k with
    | silent hstate hstays hactions hjobs hrequests =>
      have hstay := hstays .guidanceCommands
      rw [hrequests, hjobs, hstay.currentState]
      exact ⟨by simpa using hinit, fun hloops => by simpa using hlooping (hstay.looping hloops)⟩
    | acted a htakes hcomponents hactions hjobs hrequests =>
      rw [hrequests, hjobs, hcomponents]
      simpa using ⟨hinit, hlooping⟩
    | ran c j rest ending hcall hloop hqueue hstate hcomponents hactions hjobs hrequests =>
      rw [hrequests, hjobs, hcomponents]
      by_cases hc : c = .guidanceCommands
      · subst hc
        obtain ⟨hreq, hcur⟩ := hlooping hloop
        rw [hreq, requests_published]
        rcases ending with robotTopic | wrote
        · simp [Ending.hasReturned, Ending.wrote, hcur, Option.toList, List.filterMap_cons]
          cases j.request <;> simp
        · simp [Ending.hasReturned]
      · rw [requests_published_of_ne hc, Function.update_of_ne (Ne.symm hc)]
        simpa [hc] using ⟨hinit, hlooping⟩

theorem commands_walk (calls : List Call) :
    ∃ t, Walk RunsJob .STARTUP (jobsRun .guidanceCommands (nodeLog calls)) t := by
  have hall : Walk RunsJob .STARTUP (.onStartup ::
      (actions (nodeLog calls)).flatMap (onStateChange .guidanceCommands))
      (nodeAfter calls).guidanceState :=
    ⟨.STARTUP, ⟨rfl, Or.inl ⟨rfl, rfl⟩⟩, walk_runsJob (actions_walk calls)⟩
  have hjobs := jobsSoFar_eq calls .guidanceCommands
  simp only [jobsSoFar, startJobs, List.singleton_append] at hjobs
  rw [← hjobs, walk_append] at hall
  obtain ⟨t, ht, -⟩ := hall
  exact ⟨t, ht⟩

/-- The controller is asked in turn to be enabled and to be disabled, to be enabled first. -/
theorem the_requests_alternate (calls : List Call) :
    requests (nodeLog calls) =
      (List.range (requests (nodeLog calls)).length).map fun i => i % 2 == 0 := by
  obtain ⟨t, ht⟩ := commands_walk calls
  have halternate : Alternates true (requests (nodeLog calls)) :=
    alternates_of_prefix (walk_alternates runsJob_switches ht) (requests_of_jobsRun calls).1
  apply List.ext_getElem (by simp)
  intro i hi hi'
  have hget := alternates_getElem? halternate (List.getElem?_eq_getElem hi)
  simpa using hget

/-- While the commands run, they have last asked the controller to be enabled just when
their own copy of the state is active, inactive or engaged. -/
theorem the_controller_is_enabled_while_the_commands_are_on (calls : List Call)
    (h : ((nodeAfter calls).components .guidanceCommands).looping = true) :
    (requests (nodeLog calls)).getLast?.getD false =
      ((nodeAfter calls).components .guidanceCommands).currentState.isOn := by
  obtain ⟨t, ht⟩ := commands_walk calls
  obtain ⟨hrequests, hstate⟩ := (requests_of_jobsRun calls).2 h
  rw [foldl_of_walk_runsJob ht] at hstate
  have hgoes : ∃ b u, RunsJob t b u := by
    have hno : t ≠ .SHUTDOWN := by
      apply not_shutdown_of_walk_runsJob ht (by simp)
      intro j hj
      by_contra hend
      rw [not_looping_of_ended calls _ ⟨j, hj, by simpa using hend⟩] at h
      cases h
    exact ⟨.onPanic, .SHUTDOWN, rfl, Or.inr ⟨.PANIC_SHUTDOWN, takes_iff.mpr ⟨rfl, hno⟩, rfl⟩⟩
  rw [hrequests, hstate, walk_switched runsJob_switches ht hgoes]
  rfl

/-- The commands run their first three jobs. -/
def commandsActivated : List Call :=
  activated ++ List.replicate 3 (.runJobQueue .guidanceCommands (.returned false))

theorem the_controller_is_enabled_once_activated :
    (requests (nodeLog commandsActivated)).getLast?.getD false = true :=
  the_controller_is_enabled_while_the_commands_are_on commandsActivated rfl

end carma.guidance_node
