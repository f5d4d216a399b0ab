-- The laws of the plugin lifecycle: what a step of the controller or of a worker can do,
-- and when a stopped plugin stays stopped and no task is stranded.
import Mathlib.Data.List.Infix
import Carma.PluginLifecycleHandler

open lib.runs

namespace carma.plugin_lifecycle

/-! ## Steps of a worker -/

namespace Handler

/-- All that a step of a worker can do: nothing, move on without a task, take a task, or
run the callback of the task it is in. -/
theorem workerStep_cases (h : Handler) (i : ℕ) (w : Worker) (s : WorkerStep) :
    h.workerStep i w s = h ∨
    (∃ phase, (phase = .done → w.interrupted = true) ∧ (∀ task, phase ≠ .running task) ∧
      phase ≠ .looping ∧ h.workerStep i w s = h.setPhase i phase) ∨
    (∃ task rest, h.tasks = task :: rest ∧
      h.workerStep i w s = { h with tasks := rest }.setPhase i (.running task)) ∨
    (∃ task phase, w.phase = .running task ∧
      (phase = .looping ∧ task = .Loop ∨ phase = .checking) ∧
      h.workerStep i w s = { h with state := task.onComplete }.setPhase i phase) := by
  cases s with
  | check =>
    by_cases hphase : w.phase = .checking
    · refine Or.inr (Or.inl ⟨if w.interrupted then .done else .taking, ?_, ?_, ?_, ?_⟩)
      · split <;> simp_all
      · intro task
        split <;> nofun
      · split <;> nofun
      · simp only [workerStep, check, if_pos hphase]
    · exact Or.inl (by simp only [workerStep, check, if_neg hphase])
  | take =>
    simp only [workerStep]
    unfold take
    split
    · rename_i task rest _ htasks
      exact Or.inr (Or.inr (Or.inl ⟨task, rest, htasks, rfl⟩))
    · exact Or.inl rfl
  | notice =>
    by_cases hphase : w.phase = .taking ∧ w.interrupted = true
    · exact Or.inr (Or.inl ⟨.done, fun _ => hphase.2, nofun, nofun,
        by simp only [workerStep, notice, if_pos hphase]⟩)
    · exact Or.inl (by simp only [workerStep, notice, if_neg hphase])
  | complete =>
    simp only [workerStep]
    unfold complete
    split
    · rename_i task hphase
      refine Or.inr (Or.inr (Or.inr ⟨task, _, hphase, ?_, rfl⟩))
      by_cases hloop : task = .Loop
      · exact Or.inl ⟨if_pos hloop, hloop⟩
      · exact Or.inr (if_neg hloop)
    · exact Or.inl rfl
  | loop =>
    by_cases hphase : w.phase = .looping ∧ w.interrupted = true
    · exact Or.inr (Or.inl ⟨.checking, nofun, nofun, nofun,
        by simp only [workerStep, loop, if_pos hphase]⟩)
    · exact Or.inl (by simp only [workerStep, loop, if_neg hphase])

theorem mem_setPhase {h : Handler} {i : ℕ} {w v : Worker} {phase : Phase}
    (hw : h.workers[i]? = some w) (hv : v ∈ (h.setPhase i phase).workers) :
    v ∈ h.workers ∨ v = { w with phase := phase } := by
  obtain ⟨j, hj⟩ := List.mem_iff_getElem?.mp hv
  simp only [setPhase, List.getElem?_modify] at hj
  by_cases hij : i = j
  · subst hij
    right
    simpa [hw] using hj.symm
  · left
    exact List.mem_of_getElem? (by simpa [hij] using hj)

/-! ## Programs -/

/-- What is left of a call is the end of what it does. -/
def OnCall (pending : List Action) (calls : List Call) : Prop :=
  ∃ c ∈ calls, pending ∈ c.actions.tails

theorem onCall_rest {action : Action} {rest : List Action} {calls : List Call}
    (h : OnCall (action :: rest) calls) : OnCall rest calls := by
  obtain ⟨c, hc, htail⟩ := h
  refine ⟨c, hc, ?_⟩
  rw [List.mem_tails] at htail ⊢
  exact (List.suffix_cons action rest).trans htail

/-- No task that resumes the plugin is put into the queue before a resume is begun. -/
def Unarmed : List Action → Prop
  | [] => True
  | action :: rest =>
    action = .setState .RESUMING ∨ action ≠ .put .Resume ∧ action ≠ .put .Loop ∧ Unarmed rest

instance decidableUnarmed : ∀ pending, Decidable (Unarmed pending)
  | [] => isTrue trivial
  | _ :: rest =>
    have := decidableUnarmed rest
    inferInstanceAs (Decidable (_ ∨ _ ∧ _ ∧ _))

/-- The calls of the controller. -/
def allCalls : List Call := [.doInitialize, .doResume, .doSuspend, .doTerminate]

theorem mem_allCalls (c : Call) : c ∈ allCalls := by
  cases c <;> decide

/-- The state that a suspend or a terminate sets. -/
def Stops (action : Action) : Prop := action = .setState .SUSPENDING ∨ action = .setState .DESTROYING

instance (action : Action) : Decidable (Stops action) := inferInstanceAs (Decidable (_ ∨ _))

/-- A call that stops the plugin clears the queue just before it sets the state, and puts
nothing into it after that which resumes the plugin. -/
theorem stops_program {action : Action} {rest : List Action}
    (h : OnCall (action :: rest) allCalls) :
    (Stops action → Unarmed rest) ∧
      (∀ next ∈ rest.head?, Stops next → action = .clear) := by
  obtain ⟨c, hc, htail⟩ := h
  have hall : ∀ c ∈ allCalls, ∀ pending ∈ c.actions.tails, ∀ a ∈ pending.head?,
      (Stops a → Unarmed pending.tail) ∧
        (∀ next ∈ pending.tail.head?, Stops next → a = .clear) := by decide
  exact hall c hc _ htail action rfl

/-! ## Stopped plugins -/

/-- Nothing that the handler holds can resume the plugin. -/
structure Still (h : Handler) : Prop where
  state : h.state ≠ .RESUMED ∧ h.state ≠ .LOOPING
  tasks : ∀ task ∈ h.tasks, task ≠ .Resume ∧ task ≠ .Loop
  workers : ∀ w ∈ h.workers, ¬ w.Armed
  pending : Unarmed h.pending

/-- What holds between two steps, where each stop finds no armed worker. -/
structure Quiet (h : Handler) : Prop where
  shape : OnCall h.pending allCalls
  cleared : ∀ action ∈ h.pending.head?, Stops action → h.tasks = []
  still : h.stopped = true → h.Still

/-- A step of the controller that sets no state keeps what is still. -/
theorem quiet_control {h h' : Handler} {action : Action} {rest : List Action} (hq : Quiet h)
    (hpending : h.pending = action :: rest) (hrest : h'.pending = rest)
    (hresume : action ≠ .setState .RESUMING) (hstopped : h'.stopped = h.stopped)
    (hstate : h'.state = h.state ∨ h'.state = .INITIALIZING)
    (htasks : action = .clear ∧ h'.tasks = [] ∨ action ≠ .clear ∧ (h'.tasks = h.tasks ∨
      ∃ task, action = .put task ∧ h'.tasks = h.tasks ++ [task]))
    (hworkers : ∀ w ∈ h'.workers, w.Armed → ∃ v ∈ h.workers, v.Armed) : Quiet h' := by
  have hshape := hq.shape
  rw [hpending] at hshape
  refine ⟨by rw [hrest]; exact onCall_rest hshape, ?_, ?_⟩
  · rw [hrest]
    intro next hnext hstops
    have hclear := (stops_program hshape).2 next hnext hstops
    rcases htasks with ⟨_, htasks⟩ | ⟨hne, _⟩
    · exact htasks
    · exact absurd hclear hne
  · intro hstop
    obtain ⟨hs, htask, hworker, hunarmed⟩ := hq.still (hstopped ▸ hstop)
    rw [hpending] at hunarmed
    obtain hresuming | ⟨hnoResume, hnoLoop, hlater⟩ := hunarmed
    · exact absurd hresuming hresume
    · refine ⟨?_, ?_, ?_, by rw [hrest]; exact hlater⟩
      · rcases hstate with hsame | hinit
        · rw [hsame]
          exact hs
        · rw [hinit]
          decide
      · rcases htasks with ⟨_, hnil⟩ | ⟨_, hsame | ⟨task, rfl, hput⟩⟩
        · rw [hnil]
          nofun
        · rw [hsame]
          exact htask
        · rw [hput]
          intro t ht
          rcases List.mem_append.mp ht with hold | hlast
          · exact htask t hold
          · obtain rfl := List.mem_singleton.mp hlast
            exact ⟨fun ht => hnoResume (by rw [ht]), fun ht => hnoLoop (by rw [ht])⟩
      · intro w hw harmed
        obtain ⟨v, hv, hvarmed⟩ := hworkers w hw harmed
        exact hworker v hv hvarmed

theorem quiet_interrupt {h : Handler} {rest : List Action} (hq : Quiet h)
    (hpending : h.pending = .interrupt :: rest) : Quiet h.control := by
  unfold control
  rw [hpending]
  simp only
  cases h.t with
  | none =>
    refine ⟨⟨.doInitialize, mem_allCalls _, (List.mem_tails _ _).mpr List.nil_suffix⟩, nofun, ?_⟩
    intro hstop
    obtain ⟨hs, htask, hworker, _⟩ := hq.still hstop
    exact ⟨hs, htask, hworker, trivial⟩
  | some i =>
    refine quiet_control hq hpending rfl nofun rfl (Or.inl rfl)
      (Or.inr ⟨nofun, Or.inl rfl⟩) ?_
    intro w hw harmed
    obtain ⟨j, hj⟩ := List.mem_iff_getElem?.mp hw
    simp only [List.getElem?_modify] at hj
    obtain ⟨v, hv, rfl⟩ := Option.map_eq_some_iff.mp hj
    refine ⟨v, List.mem_of_getElem? hv, ?_⟩
    unfold Worker.Armed at *
    split at harmed <;> exact harmed

theorem quiet_setState {h : Handler} {state : PluginState} {rest : List Action} (hq : Quiet h)
    (hok : h.StopsUnarmed .control) (hpending : h.pending = .setState state :: rest) :
    Quiet h.control := by
  have hshape := hq.shape
  rw [hpending] at hshape
  have hcontrol : h.control = { h with pending := rest }.setState state := by
    unfold control
    rw [hpending]
  rw [hcontrol]
  by_cases hstops : Stops (.setState state)
  · -- the queue is clear, and no worker is in a task that resumes the plugin
    have hstate : state = .SUSPENDING ∨ state = .DESTROYING := by
      simpa [Stops] using hstops
    have htasks : h.tasks = [] := hq.cleared _ (by rw [hpending]; rfl) hstops
    have hunarmed : ∀ w ∈ h.workers, ¬ w.Armed :=
      hok rfl state (by simpa using hstate) (by rw [hpending]; rfl)
    refine ⟨onCall_rest hshape, ?_, ?_⟩
    · exact fun _ _ _ => htasks
    · intro _
      refine ⟨?_, ?_, hunarmed, (stops_program hshape).1 hstops⟩
      · rcases hstate with rfl | rfl <;> exact ⟨nofun, nofun⟩
      · intro task htask
        simp only [setState, htasks] at htask
        cases htask
  · have hno : ¬ (state = .SUSPENDING ∨ state = .DESTROYING) := by
      simpa [Stops] using hstops
    by_cases hresume : state = .RESUMING
    · refine ⟨onCall_rest hshape, ?_, ?_⟩
      · intro next hnext hnextStops
        exact absurd ((stops_program hshape).2 next hnext hnextStops) nofun
      · intro hstop
        simp [setState, hresume] at hstop
    · have hinit : state = .INITIALIZING := by
        obtain ⟨c, hc, htail⟩ := hshape
        have hall : ∀ c ∈ allCalls, ∀ pending ∈ c.actions.tails,
            ∀ state ∈ [PluginState.UNINITIALIZED, .INITIALIZED, .RESUMED, .LOOPING, .SUSPENDED,
              .DESTROYED], pending.head? ≠ some (.setState state) := by decide
        have hnot := fun hmem => hall c hc _ htail state hmem rfl
        cases state <;> simp_all
      refine quiet_control hq hpending rfl (by simpa using hresume) ?_ (Or.inr hinit)
        (Or.inr ⟨nofun, Or.inl rfl⟩) (fun w hw harmed => ⟨w, hw, harmed⟩)
      simp only [setState, if_neg hno, if_neg hresume]

theorem quiet_controls {h : Handler} (hq : Quiet h) (hok : h.StopsUnarmed .control) :
    Quiet h.control := by
  cases hpending : h.pending with
  | nil =>
    unfold control
    rw [hpending]
    exact hq
  | cons action rest =>
    cases action with
    | setState state => exact quiet_setState hq hok hpending
    | interrupt => exact quiet_interrupt hq hpending
    | clear =>
      unfold control
      rw [hpending]
      exact quiet_control hq hpending rfl nofun rfl (Or.inl rfl) (Or.inl ⟨rfl, rfl⟩)
        (fun w hw harmed => ⟨w, hw, harmed⟩)
    | put task =>
      unfold control
      rw [hpending]
      exact quiet_control hq hpending rfl nofun rfl (Or.inl rfl)
        (Or.inr ⟨nofun, Or.inr ⟨task, rfl, rfl⟩⟩) (fun w hw harmed => ⟨w, hw, harmed⟩)
    | start =>
      unfold control
      rw [hpending]
      refine quiet_control hq hpending rfl nofun rfl (Or.inl rfl)
        (Or.inr ⟨nofun, Or.inl rfl⟩) ?_
      intro w hw harmed
      rcases List.mem_append.mp hw with hold | hlast
      · exact ⟨w, hold, harmed⟩
      · obtain rfl := List.mem_singleton.mp hlast
        rcases harmed with harmed | harmed <;> cases harmed
    | drop =>
      unfold control
      rw [hpending]
      exact quiet_control hq hpending rfl nofun rfl (Or.inl rfl) (Or.inr ⟨nofun, Or.inl rfl⟩)
        (fun w hw harmed => ⟨w, hw, harmed⟩)

theorem quiet_call {h : Handler} (hq : Quiet h) (c : Call) : Quiet (h.call c) := by
  unfold call
  by_cases hidle : h.pending = [] ∧ c.accepted h.state = true
  · rw [if_pos hidle]
    refine ⟨⟨c, mem_allCalls c, (List.mem_tails _ _).mpr List.suffix_rfl⟩, ?_, ?_⟩
    · -- no call starts with the state that stops the plugin
      intro action haction hstops
      have hno : ∀ c ∈ allCalls, ∀ a ∈ c.actions.head?, ¬ Stops a := by decide
      exact absurd hstops (hno c (mem_allCalls c) action haction)
    · intro hstop
      obtain ⟨hs, htask, hworker, _⟩ := hq.still hstop
      have hunarmed : ∀ c ∈ allCalls, Unarmed c.actions := by decide
      exact ⟨hs, htask, hworker, hunarmed c (mem_allCalls c)⟩
  · rw [if_neg hidle]
    exact hq

theorem quiet_worker {h : Handler} {i : ℕ} {w : Worker} (hq : Quiet h)
    (hw : h.workers[i]? = some w) (s : WorkerStep) : Quiet (h.workerStep i w s) := by
  have hmem := List.mem_of_getElem? hw
  rcases h.workerStep_cases i w s with
    hsame | ⟨phase, _, hrunning, _, hstep⟩ | ⟨task, rest, htasks, hstep⟩ |
      ⟨task, phase, hphase, hnext, hstep⟩
  · rw [hsame]
    exact hq
  · rw [hstep]
    refine ⟨hq.shape, hq.cleared, fun hstop => ?_⟩
    obtain ⟨hs, htask, hworker, hpending⟩ := hq.still hstop
    refine ⟨hs, htask, ?_, hpending⟩
    intro v hv
    rcases mem_setPhase hw hv with hold | rfl
    · exact hworker v hold
    · rintro (harmed | harmed)
      · exact hrunning _ harmed
      · exact hrunning _ harmed
  · rw [hstep]
    refine ⟨hq.shape, ?_, fun hstop => ?_⟩
    · intro action haction hstops
      have hnil := hq.cleared action haction hstops
      rw [htasks] at hnil
      cases hnil
    · obtain ⟨hs, htask, hworker, hpending⟩ := hq.still hstop
      rw [htasks, List.forall_mem_cons] at htask
      refine ⟨hs, htask.2, ?_, hpending⟩
      intro v hv
      rcases mem_setPhase (h := { h with tasks := rest }) hw hv with hold | rfl
      · exact hworker v hold
      · rintro (harmed | harmed)
        · exact htask.1.1 (Phase.running.inj harmed)
        · exact htask.1.2 (Phase.running.inj harmed)
  · rw [hstep]
    refine ⟨hq.shape, hq.cleared, fun hstop => ?_⟩
    obtain ⟨hs, htask, hworker, hpending⟩ := hq.still hstop
    have hunarmed := hworker w hmem
    refine ⟨?_, htask, ?_, hpending⟩
    · -- the callback is not one of a task that resumes the plugin
      have hne : task ≠ .Resume ∧ task ≠ .Loop :=
        ⟨fun ht => hunarmed (Or.inl (by rw [hphase, ht])),
          fun ht => hunarmed (Or.inr (by rw [hphase, ht]))⟩
      cases task with
      | Resume => exact absurd rfl hne.1
      | Loop => exact absurd rfl hne.2
      | _ => exact ⟨nofun, nofun⟩
    · intro v hv
      rcases mem_setPhase (h := { h with state := task.onComplete }) hw hv with hold | rfl
      · exact hworker v hold
      · rintro (harmed | harmed) <;> rcases hnext with ⟨rfl, _⟩ | rfl <;> cases harmed

theorem quiet_step {h : Handler} {s : Step} (hq : Quiet h) (hok : h.StopsUnarmed s) :
    Quiet (h.step s) := by
  cases s with
  | call c => exact quiet_call hq c
  | control => exact quiet_controls hq hok
  | worker i s =>
    unfold step
    simp only
    cases hw : h.workers[i]? with
    | none => exact hq
    | some w => exact quiet_worker hq hw s

theorem quiet_new : Quiet .new :=
  ⟨⟨.doInitialize, mem_allCalls _, (List.mem_tails _ _).mpr List.nil_suffix⟩, nofun, nofun⟩

/-! ## Served queues -/

/-- The thread that the handler knows was not interrupted and has not ended. -/
def Living (h : Handler) : Prop :=
  ∃ i w, h.t = some i ∧ h.workers[i]? = some w ∧ w.interrupted = false ∧ w.phase ≠ .done

/-- No worker that was not interrupted is in a loop task. -/
def NoLoop (h : Handler) : Prop := ∀ w ∈ h.workers, w.interrupted = false → ¬ w.InLoop

/-- The calls that start a thread, or leave the one that there is. -/
def keepingCalls : List Call := [.doInitialize, .doResume, .doSuspend]

/-- The call is about to start a thread, and the one before it is interrupted already. -/
def Starts (pending : List Action) : Prop := .start ∈ pending ∧ pending.head? ≠ some .interrupt

/-- The call is about to put a task into the queue, and does not clear it before. -/
def Puts (pending : List Action) : Prop := .clear ∉ pending ∧ ∃ task, .put task ∈ pending

instance (pending : List Action) : Decidable (Starts pending) :=
  inferInstanceAs (Decidable (_ ∧ _))

/-- What holds between two steps, where no terminate is accepted and no second resume. -/
structure Manned (h : Handler) : Prop where
  shape : OnCall h.pending keepingCalls
  fresh : h.state = .UNINITIALIZED →
    h.workers = [] ∧ h.tasks = [] ∧ (h.pending = [] ∨ h.pending = Call.doInitialize.actions)
  starting : Starts h.pending → ∀ w ∈ h.workers, w.interrupted = true
  living : ¬ Starts h.pending → h.state ≠ .UNINITIALIZED → h.Living
  known : ∀ i w, h.workers[i]? = some w → w.interrupted = false → h.t = some i
  last : PluginTask.Loop ∉ h.tasks.dropLast
  looping : ∀ w ∈ h.workers, w.interrupted = false → w.InLoop → h.tasks = []
  due : Puts h.pending → PluginTask.Loop ∉ h.tasks ∧ h.NoLoop

theorem attended_of_manned {h : Handler} (hm : Manned h) : h.Attended := by
  intro htasks
  by_cases hstart : .start ∈ h.pending
  · exact Or.inr hstart
  · left
    have hinit : h.state ≠ .UNINITIALIZED := fun hstate => htasks (hm.fresh hstate).2.1
    obtain ⟨i, w, _, hw, hup, hon⟩ := hm.living (fun hs => hstart hs.1) hinit
    have hmem := List.mem_of_getElem? hw
    exact ⟨w, hmem, hup, hon, fun hloop => htasks (hm.looping w hmem hup hloop)⟩

/-- What is left of a call that keeps a thread: it drops none, interrupts only at once
and then clears the queue and starts another, clears nothing else, puts the loop task
last, and has put all its tasks when it starts a thread. -/
theorem keeping_program {action : Action} {rest : List Action}
    (h : OnCall (action :: rest) keepingCalls) :
    action ≠ .drop ∧ (action = .interrupt → Starts rest ∧ .clear ∈ rest) ∧
      rest.head? ≠ some .interrupt ∧ (action = .start → rest = []) ∧
      (action = .clear → Starts rest) ∧ (action = .put .Loop → rest = []) ∧
      (.clear ∈ rest → action = .interrupt) := by
  obtain ⟨c, hc, htail⟩ := h
  have hall : ∀ c ∈ keepingCalls, ∀ pending ∈ c.actions.tails, ∀ a ∈ pending.head?,
      a ≠ .drop ∧ (a = .interrupt → Starts pending.tail ∧ .clear ∈ pending.tail) ∧
        pending.tail.head? ≠ some .interrupt ∧ (a = .start → pending.tail = []) ∧
        (a = .clear → Starts pending.tail) ∧ (a = .put .Loop → pending.tail = []) ∧
        (.clear ∈ pending.tail → a = .interrupt) := by decide
  exact hall c hc _ htail action rfl

theorem starts_iff {action : Action} {rest : List Action} (hinterrupt : action ≠ .interrupt)
    (hstart : action ≠ .start) (hhead : rest.head? ≠ some .interrupt) :
    Starts (action :: rest) ↔ Starts rest := by
  unfold Starts
  simp only [List.mem_cons, List.head?_cons, ne_eq, Option.some.injEq, hinterrupt,
    not_false_eq_true, and_true, hhead, Ne.symm hstart, false_or]

/-- An action that leaves the threads alone keeps a thread for the queue. -/
theorem manned_rest {h h' : Handler} {action : Action} {rest : List Action} (hm : Manned h)
    (hpending : h.pending = action :: rest) (hrest : h'.pending = rest)
    (hinterrupt : action ≠ .interrupt) (hstart : action ≠ .start) (ht : h'.t = h.t)
    (hworkers : h'.workers = h.workers) (hstate : h'.state ≠ .UNINITIALIZED)
    (hinit : h.state = .UNINITIALIZED → Starts h.pending)
    (hlast : PluginTask.Loop ∉ h'.tasks.dropLast)
    (hlooping : h'.tasks = [] ∨ h'.tasks = h.tasks ∨ h.NoLoop)
    (hdue : Puts rest → PluginTask.Loop ∉ h'.tasks ∧ h.NoLoop) : Manned h' := by
  have hshape := hm.shape
  rw [hpending] at hshape
  have hstarts := starts_iff hinterrupt hstart (keeping_program hshape).2.2.1
  rw [← hpending] at hstarts
  refine ⟨by rw [hrest]; exact onCall_rest hshape, fun h => absurd h hstate, ?_, ?_, ?_, hlast,
    ?_, ?_⟩
  · rw [hrest, hworkers]
    exact fun hs => hm.starting (hstarts.mpr hs)
  · rw [hrest]
    intro hs _
    have hno : ¬ Starts h.pending := fun h => hs (hstarts.mp h)
    obtain ⟨i, w, hi, hw, hlives⟩ := hm.living hno (fun hstate => hno (hinit hstate))
    exact ⟨i, w, ht.trans hi, by rw [hworkers]; exact hw, hlives⟩
  · rw [hworkers, ht]
    exact hm.known
  · rw [hworkers]
    intro w hw hup hloop
    rcases hlooping with hnil | hsame | hno
    · exact hnil
    · rw [hsame]
      exact hm.looping w hw hup hloop
    · exact absurd hloop (hno w hw hup)
  · rw [hrest]
    unfold NoLoop
    rw [hworkers]
    exact hdue

theorem manned_put {h : Handler} {task : PluginTask} {rest : List Action} (hm : Manned h)
    (hpending : h.pending = .put task :: rest) (hstate : h.state ≠ .UNINITIALIZED) :
    Manned { h with pending := rest, tasks := h.tasks ++ [task] } := by
  have hshape := hm.shape
  rw [hpending] at hshape
  obtain ⟨_, _, _, _, _, hloop, hclear⟩ := keeping_program hshape
  have hputs : Puts h.pending := by
    rw [hpending]
    refine ⟨fun hmem => ?_, task, List.mem_cons_self⟩
    rcases List.mem_cons.mp hmem with hmem | hmem
    · cases hmem
    · cases hclear hmem
  obtain ⟨hnone, hno⟩ := hm.due hputs
  refine manned_rest hm hpending rfl nofun nofun rfl rfl hstate (fun h => absurd h hstate) ?_
    (Or.inr (Or.inr hno)) ?_
  · rw [List.dropLast_concat]
    exact hnone
  · intro hnext
    refine ⟨fun hmem => ?_, hno⟩
    rcases List.mem_append.mp hmem with hmem | hmem
    · exact hnone hmem
    · -- the loop task is the last that a call puts
      obtain rfl := List.mem_singleton.mp hmem
      obtain ⟨_, later, hlater⟩ := hnext
      rw [hloop rfl] at hlater
      cases hlater

theorem manned_interrupt {h : Handler} {rest : List Action} (hm : Manned h)
    (hpending : h.pending = .interrupt :: rest) : Manned h.control := by
  have hshape := hm.shape
  rw [hpending] at hshape
  obtain ⟨_, hinterrupt, _⟩ := keeping_program hshape
  obtain ⟨hstarts, hclear⟩ := hinterrupt rfl
  have hstate : h.state ≠ .UNINITIALIZED := by
    intro hstate
    rcases (hm.fresh hstate).2.2 with hnil | hinit
    · rw [hpending] at hnil
      cases hnil
    · rw [hpending] at hinit
      cases hinit
  have hnot : ¬ Starts h.pending := by
    rw [hpending]
    exact fun hs => hs.2 rfl
  obtain ⟨i, _, hi, _⟩ := hm.living hnot hstate
  unfold control
  rw [hpending]
  simp only [hi]
  -- the only worker that was not interrupted is the one that the handler knows
  have hall : ∀ w ∈ h.workers.modify i (fun w => { w with interrupted := true }),
      w.interrupted = true := by
    intro w hw
    obtain ⟨j, hj⟩ := List.mem_iff_getElem?.mp hw
    rw [List.getElem?_modify] at hj
    obtain ⟨v, hv, rfl⟩ := Option.map_eq_some_iff.mp hj
    by_cases hij : i = j
    · rw [if_pos hij]
    · rw [if_neg hij]
      by_contra hup
      have hknown := hm.known j v hv (by simpa using hup)
      rw [hi] at hknown
      exact hij (Option.some.inj hknown)
  have hnone : ∀ w ∈ h.workers.modify i (fun w => { w with interrupted := true }),
      w.interrupted = false → False := by
    intro w hw hup
    rw [hall w hw] at hup
    cases hup
  refine ⟨onCall_rest hshape, fun h => absurd h hstate, fun _ => hall, fun h => absurd hstarts h,
    ?_, hm.last, fun w hw hup => (hnone w hw hup).elim, fun hputs => absurd hclear hputs.1⟩
  intro j w hw hup
  exact (hnone w (List.mem_of_getElem? hw) hup).elim

theorem manned_start {h : Handler} {rest : List Action} (hm : Manned h)
    (hpending : h.pending = .start :: rest) (hstate : h.state ≠ .UNINITIALIZED) :
    Manned { h with
      pending := rest
      workers := h.workers ++ [⟨.checking, false⟩]
      t := some h.workers.length } := by
  have hshape := hm.shape
  rw [hpending] at hshape
  obtain ⟨_, _, _, hnil, _⟩ := keeping_program hshape
  obtain rfl := hnil rfl
  have hold := hm.starting (by rw [hpending]; exact ⟨List.mem_cons_self, nofun⟩)
  refine ⟨onCall_rest hshape, fun h => absurd h hstate, nofun, fun _ _ => ?_, ?_, hm.last, ?_,
    ?_⟩
  · exact ⟨h.workers.length, ⟨.checking, false⟩, rfl, by simp, rfl, nofun⟩
  · intro i w hw hup
    rw [List.getElem?_append] at hw
    split at hw
    · rw [hold w (List.mem_of_getElem? hw)] at hup
      cases hup
    · obtain ⟨hlt, _⟩ := List.getElem?_eq_some_iff.mp hw
      simp only [List.length_singleton] at hlt
      exact congrArg some (by omega)
  · intro w hw hup hloop
    rcases List.mem_append.mp hw with hw | hw
    · rw [hold w hw] at hup
      cases hup
    · obtain rfl := List.mem_singleton.mp hw
      rcases hloop with hloop | hloop <;> cases hloop
  · rintro ⟨_, _, hput⟩
    cases hput

theorem manned_control {h : Handler} (hm : Manned h) : Manned h.control := by
  cases hpending : h.pending with
  | nil =>
    unfold control
    rw [hpending]
    exact hm
  | cons action rest =>
    have hshape := hm.shape
    rw [hpending] at hshape
    obtain ⟨hnodrop, _, _, _, hclears, _⟩ := keeping_program hshape
    -- only the first action of an initialize finds the handler fresh
    have hfresh : h.state = .UNINITIALIZED → action = .setState .INITIALIZING := by
      intro hstate
      rcases (hm.fresh hstate).2.2 with hnil | hinit
      · rw [hpending] at hnil
        cases hnil
      · rw [hpending] at hinit
        cases hinit
        rfl
    cases action with
    | setState state =>
      unfold control
      rw [hpending]
      have hset : state ≠ .UNINITIALIZED := by
        obtain ⟨c, hc, htail⟩ := hshape
        have hall : ∀ c ∈ keepingCalls, ∀ pending ∈ c.actions.tails,
            pending.head? ≠ some (.setState .UNINITIALIZED) := by decide
        rintro rfl
        exact hall c hc _ htail rfl
      refine manned_rest hm hpending rfl nofun nofun rfl rfl hset ?_ hm.last
        (Or.inr (Or.inl rfl)) ?_
      · intro hstate
        rcases (hm.fresh hstate).2.2 with hnil | hinit
        · rw [hpending] at hnil
          cases hnil
        · rw [hinit]
          decide
      · rintro ⟨hclear, task, htask⟩
        refine hm.due ⟨fun hmem => ?_, task, by rw [hpending]; exact List.mem_cons_of_mem _ htask⟩
        rw [hpending] at hmem
        rcases List.mem_cons.mp hmem with hmem | hmem
        · cases hmem
        · exact hclear hmem
    | interrupt => exact manned_interrupt hm hpending
    | clear =>
      unfold control
      rw [hpending]
      have hstate : h.state ≠ .UNINITIALIZED := fun hstate => nomatch hfresh hstate
      refine manned_rest hm hpending rfl nofun nofun rfl rfl hstate (fun h => absurd h hstate)
        nofun (Or.inl rfl) (fun _ => ⟨nofun, fun w hw hup => ?_⟩)
      have hstarts : Starts h.pending := by
        rw [hpending]
        exact ⟨List.mem_cons_of_mem _ (hclears rfl).1, nofun⟩
      rw [hm.starting hstarts w hw] at hup
      cases hup
    | put task =>
      unfold control
      rw [hpending]
      exact manned_put hm hpending (fun hstate => nomatch hfresh hstate)
    | drop => exact absurd rfl hnodrop
    | start =>
      unfold control
      rw [hpending]
      exact manned_start hm hpending (fun hstate => nomatch hfresh hstate)

theorem manned_call {h : Handler} {c : Call} (hm : Manned h)
    (hok : h.NoTerminate (.call c) ∧ h.ResumesOnce (.call c)) : Manned (h.call c) := by
  obtain ⟨hnoTerminate, honce⟩ := hok
  unfold call
  by_cases hidle : h.pending = [] ∧ c.accepted h.state = true
  · rw [if_pos hidle]
    have hliving : h.state ≠ .UNINITIALIZED → h.Living := by
      refine hm.living ?_
      rw [hidle.1]
      nofun
    have hshape : c ∈ keepingCalls → OnCall c.actions keepingCalls :=
      fun hc => ⟨c, hc, (List.mem_tails _ _).mpr List.suffix_rfl⟩
    cases c with
    | doInitialize =>
      have hstate : h.state = .UNINITIALIZED := by
        cases hstate : h.state <;> simp_all [Call.accepted]
      obtain ⟨hworkers, htasks, _⟩ := hm.fresh hstate
      refine ⟨hshape (by decide), fun _ => ⟨hworkers, htasks, Or.inr rfl⟩, ?_,
        fun _ hne => absurd hstate hne, hm.known, hm.last, hm.looping, fun _ => ⟨?_, ?_⟩⟩
      · simp only [hworkers]
        nofun
      · simp only [htasks]
        nofun
      · unfold NoLoop
        simp only [hworkers]
        nofun
    | doResume =>
      have hstate : h.state ≠ .UNINITIALIZED := by
        intro hstate
        rw [hstate] at hidle
        cases hidle.2
      have hstarts : ¬ Starts Call.doResume.actions := by decide
      exact ⟨hshape (by decide), fun h => absurd h hstate, fun hs => absurd hs hstarts,
        fun _ => hliving, hm.known, hm.last, hm.looping, fun _ => honce rfl hidle⟩
    | doSuspend =>
      have hstate : h.state ≠ .UNINITIALIZED := by
        intro hstate
        rw [hstate] at hidle
        cases hidle.2
      have hstarts : ¬ Starts Call.doSuspend.actions := by decide
      have hclear : .clear ∈ Call.doSuspend.actions := by decide
      exact ⟨hshape (by decide), fun h => absurd h hstate, fun hs => absurd hs hstarts,
        fun _ => hliving, hm.known, hm.last, hm.looping, fun hputs => absurd hclear hputs.1⟩
    | doTerminate => exact absurd hidle (hnoTerminate rfl)
  · rw [if_neg hidle]
    exact hm

/-- A thread that lives goes on doing so, whatever the workers do. -/
theorem living_setPhase {h : Handler} {i : ℕ} {w : Worker} {phase : Phase}
    (hw : h.workers[i]? = some w) (hdone : phase = .done → w.interrupted = true)
    (hliving : h.Living) : (h.setPhase i phase).Living := by
  obtain ⟨j, v, hj, hv, hup, hon⟩ := hliving
  by_cases hij : i = j
  · subst hij
    cases hw.symm.trans hv
    refine ⟨i, { w with phase := phase }, hj, by simp [setPhase, hw], hup, ?_⟩
    intro hend
    rw [hdone hend] at hup
    cases hup
  · exact ⟨j, v, hj, by simp [setPhase, hij, hv], hup, hon⟩

/-- A worker that goes to another phase keeps what holds, where it gets into a loop task
only with an empty queue. -/
theorem manned_setPhase {h : Handler} {i : ℕ} {w : Worker} {phase : Phase}
    {tasks : List PluginTask} {state : PluginState} (hm : Manned h)
    (hw : h.workers[i]? = some w) (hdone : phase = .done → w.interrupted = true)
    (hstate : state = .UNINITIALIZED → h.state = .UNINITIALIZED) (htasks : tasks <:+ h.tasks)
    (hloop : w.interrupted = false → phase = .running .Loop ∨ phase = .looping →
      tasks = [] ∧ ¬ Puts h.pending) :
    Manned ({ h with tasks := tasks, state := state }.setPhase i phase) := by
  have hold : ∀ v ∈ (h.setPhase i phase).workers, v ∈ h.workers ∨ v = { w with phase := phase } :=
    fun v hv => mem_setPhase hw hv
  have hinit : state ≠ .UNINITIALIZED := by
    intro hinit
    rw [(hm.fresh (hstate hinit)).1] at hw
    cases hw
  refine ⟨hm.shape, fun h => absurd h hinit, ?_, ?_, ?_, ?_, ?_, ?_⟩
  · intro hs v hv
    rcases hold v hv with hv | rfl
    · exact hm.starting hs v hv
    · exact hm.starting hs w (List.mem_of_getElem? hw)
  · intro hs _
    refine living_setPhase (h := { h with tasks := tasks, state := state }) hw hdone ?_
    refine hm.living hs ?_
    intro hfresh
    rw [(hm.fresh hfresh).1] at hw
    cases hw
  · intro j v hv hup
    simp only [setPhase, List.getElem?_modify] at hv
    obtain ⟨u, hu, rfl⟩ := Option.map_eq_some_iff.mp hv
    refine hm.known j u hu ?_
    split at hup <;> exact hup
  · intro hmem
    obtain ⟨before, hbefore⟩ := htasks
    refine hm.last ?_
    rw [← hbefore, List.dropLast_append]
    split
    · rename_i hnil
      rw [List.isEmpty_iff.mp hnil] at hmem
      cases hmem
    · exact List.mem_append_right _ hmem
  · intro v hv hup hin
    rcases hold v hv with hv | rfl
    · have hnil := hm.looping v hv hup hin
      rw [hnil] at htasks
      exact List.suffix_nil.mp htasks
    · exact (hloop hup hin).1
  · intro hputs
    obtain ⟨hnone, hno⟩ := hm.due hputs
    refine ⟨fun hmem => hnone (htasks.mem hmem), fun v hv hup hin => ?_⟩
    rcases hold v hv with hv | rfl
    · exact hno v hv hup hin
    · exact (hloop hup hin).2 hputs

theorem manned_worker {h : Handler} {i : ℕ} {w : Worker} (hm : Manned h)
    (hw : h.workers[i]? = some w) (s : WorkerStep) : Manned (h.workerStep i w s) := by
  have hmem := List.mem_of_getElem? hw
  rcases h.workerStep_cases i w s with
    hsame | ⟨phase, hdone, hrunning, hlooping, hstep⟩ | ⟨task, rest, htasks, hstep⟩ |
      ⟨task, phase, hphase, hnext, hstep⟩
  · rw [hsame]
    exact hm
  · rw [hstep]
    refine manned_setPhase hm hw hdone id List.suffix_rfl ?_
    rintro _ (hin | hin)
    · exact absurd hin (hrunning _)
    · exact absurd hin hlooping
  · rw [hstep]
    refine manned_setPhase hm hw nofun id (htasks ▸ List.suffix_cons task rest) ?_
    rintro _ (hin | hin)
    · -- a loop task is the last of the queue, and no call has put its tasks only in part
      obtain rfl := Phase.running.inj hin
      refine ⟨?_, fun hputs => (hm.due hputs).1 (htasks ▸ List.mem_cons_self)⟩
      have hlast := hm.last
      rw [htasks] at hlast
      cases rest with
      | nil => rfl
      | cons next rest => exact absurd List.mem_cons_self hlast
    · cases hin
  · rw [hstep]
    refine manned_setPhase hm hw ?_ ?_ List.suffix_rfl ?_
    · rcases hnext with ⟨rfl, _⟩ | rfl <;> nofun
    · intro hinit
      cases task <;> cases hinit
    · rintro hup (hin | hin)
      · rcases hnext with ⟨rfl, _⟩ | rfl <;> cases hin
      · rcases hnext with ⟨_, rfl⟩ | rfl
        · have hloop : w.InLoop := Or.inl hphase
          exact ⟨hm.looping w hmem hup hloop, fun hputs => (hm.due hputs).2 w hmem hup hloop⟩
        · cases hin

theorem manned_step {h : Handler} {s : Step} (hm : Manned h)
    (hok : h.NoTerminate s ∧ h.ResumesOnce s) : Manned (h.step s) := by
  cases s with
  | call c => exact manned_call hm hok
  | control => exact manned_control hm
  | worker i s =>
    unfold step
    simp only
    cases hw : h.workers[i]? with
    | none => exact hm
    | some w => exact manned_worker hm hw s

theorem manned_new : Manned .new :=
  ⟨⟨.doInitialize, by decide, (List.mem_tails _ _).mpr List.nil_suffix⟩,
    fun _ => ⟨rfl, rfl, Or.inl rfl⟩, nofun, fun _ h => absurd rfl h, nofun, nofun, nofun, nofun⟩

/-! ## Runs -/

theorem an_armed_worker_resumes {h : Handler} {i : ℕ} {w : Worker} (hw : h.workers[i]? = some w)
    (harmed : w.Armed) (hstop : h.stopped = true) :
    ¬ (h.step (.worker i .complete)).StaysStopped := by
  have hstate : ∃ task : PluginTask, w.phase = .running task ∧
      (task.onComplete = .RESUMED ∨ task.onComplete = .LOOPING) := by
    rcases harmed with harmed | harmed
    · exact ⟨_, harmed, Or.inl rfl⟩
    · exact ⟨_, harmed, Or.inr rfl⟩
  obtain ⟨task, hphase, hstate⟩ := hstate
  intro hstays
  unfold step at hstays
  simp only [hw, workerStep, complete, hphase] at hstays
  obtain ⟨hresumed, hlooping⟩ := hstays hstop
  rcases hstate with hstate | hstate
  · exact hresumed hstate
  · exact hlooping hstate

/-- In every run, a plugin stays stopped where each stop finds no worker in a task whose
callback would resume it, and each task has a thread where no terminate is accepted and
each resume finds no loop task of an earlier one. -/
theorem a_stopped_plugin_stays_stopped_and_tasks_are_served (steps : List Step) :
    (EachCall step StopsUnarmed .new steps → ∀ h ∈ states step .new steps, h.StaysStopped) ∧
      (EachCall step (fun h s => h.NoTerminate s ∧ h.ResumesOnce s) .new steps →
        ∀ h ∈ states step .new steps, h.Attended) := by
  constructor
  · intro hok h hh
    have hquiet := states_of_keeps (fun _ _ => quiet_step) quiet_new hok h hh
    exact fun hstop => (hquiet.still hstop).state
  · intro hok h hh
    exact attended_of_manned (states_of_keeps (fun _ _ => manned_step) manned_new hok h hh)

/-- A plugin starts and its worker takes the loop task. -/
def resumed : List Step :=
  [.call .doInitialize, .control, .control, .control, .worker 0 .check, .worker 0 .take,
    .worker 0 .complete, .call .doResume, .control, .control, .control, .worker 0 .check,
    .worker 0 .take, .worker 0 .complete, .worker 0 .check, .worker 0 .take]

/-- The controller suspends the plugin. -/
def suspended : List Step :=
  [.call .doSuspend, .control, .control, .control, .control, .control]

theorem a_looping_plugin_is_suspended :
    (∀ h ∈ states step .new (resumed ++ [.worker 0 .complete] ++ suspended ++
        [.worker 0 .loop, .worker 0 .check, .worker 1 .check, .worker 1 .take,
          .worker 1 .complete]), h.StaysStopped) ∧
      (∀ h ∈ states step .new (resumed ++ [.worker 0 .complete] ++ suspended ++
        [.worker 0 .loop, .worker 0 .check, .worker 1 .check, .worker 1 .take,
          .worker 1 .complete]), h.Attended) := by
  have hlaw := a_stopped_plugin_stays_stopped_and_tasks_are_served
    (resumed ++ [.worker 0 .complete] ++ suspended ++
      [.worker 0 .loop, .worker 0 .check, .worker 1 .check, .worker 1 .take, .worker 1 .complete])
  exact ⟨hlaw.1 (by decide +kernel), hlaw.2 (by decide +kernel)⟩

/-- A resume comes while the plugin initializes and one after that, and the worker goes
into the loop of the first. -/
def resumedTwice : List Step :=
  [.call .doInitialize, .control, .control, .control, .call .doResume, .control, .control,
    .control, .worker 0 .check, .worker 0 .take, .worker 0 .complete, .call .doResume, .control,
    .control, .control, .worker 0 .check, .worker 0 .take, .worker 0 .complete, .worker 0 .check,
    .worker 0 .take, .worker 0 .complete]

/-- A suspended plugin loops, where the old worker had taken the loop task, the task of
a terminate is left in the queue with no thread for it, and so are the tasks of a second
resume. -/
theorem a_suspended_plugin_loops_and_a_terminate_is_stranded :
    ¬ (run step .new (resumed ++ suspended ++ [.worker 0 .complete])).StaysStopped ∧
      ¬ (run step .new ([.call .doInitialize, .control, .control, .control, .call .doTerminate,
        .control, .control, .control, .control, .control])).Attended ∧
      ¬ (run step .new resumedTwice).Attended := by
  decide +kernel

end Handler

end carma.plugin_lifecycle
