-- The law of unregistered callbacks: a progress callback that was registered
-- may be invoked after it is unregistered.
import Mathlib.Algebra.Order.Ring.Rat
import Mathlib.Tactic.NormNum
import Carma.Lib.Runs
import Carma.TrajectoryExecutorWorker

open lib
open lib.exact_double
open carma.maneuvers
open carma.trajectory

namespace carma.trajectory_executor_worker

open TrajectoryExecutorWorker

variable {K : Type} [LinearOrder K]

/-! ## Unregistering -/

omit [LinearOrder K] in
/-- No record is a callback, so nothing is removed. -/
theorem remove_callback (callback : ℕ) (callbacks : List (PctCallback K)) :
    remove (.callback callback) callbacks = callbacks := by
  unfold remove
  exact List.eraseP_of_forall_not (fun r _ => by simp)

theorem unregister_eq (w : TrajectoryExecutorWorker K) (callback : ℕ) :
    (w.unregisterOnTrajectoryProgressCallback callback) = w := by
  unfold unregisterOnTrajectoryProgressCallback
  simp only [remove_callback]

/-! ## What the calls leave alone -/

theorem setCalled_called_of_ne (w : TrajectoryExecutorWorker K) {r : PctCallback K} {i : ℕ}
    (h : r.id ≠ i) : (w.setCalled r).called i = w.called i := Function.update_of_ne h.symm _ _

theorem resetCallbacks_called {w : TrajectoryExecutorWorker K} {r : PctCallback K}
    (h : r ∈ w.callbacks) : w.resetCallbacks.called r.id = false := by
  unfold TrajectoryExecutorWorker.resetCallbacks
  simp [List.mem_map_of_mem h]

@[simp] theorem runTrajectory_callbacks (w : TrajectoryExecutorWorker K) (traj : Trajectory K) :
    (w.runTrajectory traj).1.callbacks = w.callbacks := by
  unfold TrajectoryExecutorWorker.runTrajectory
  split <;> rfl

/-- What the first half of an update does: the current trajectory stays, and a failure
may be told, or the queued one takes its place. -/
theorem moveTo_cases (w : TrajectoryExecutorWorker K) (downtrack : K) (curTraj : Trajectory K) :
    (∃ n events, (events = [] ∨ events = [.notifyTrajectoryFailure]) ∧
      w.moveTo downtrack curTraj = ({ w with
        downtrackDistance := w.heldDowntrack downtrack curTraj
        timeStepsWithoutTraj := n }, events)) ∨
    (∃ traj, w.nextTrajectory = some traj ∧
      w.moveTo downtrack curTraj = (TrajectoryExecutorWorker.resetCallbacks { w with
        downtrackDistance := w.heldDowntrack downtrack curTraj
        currentTrajectory := some traj
        nextTrajectory := none }, [.changed])) := by
  unfold moveTo
  dsimp only
  split
  · unfold swapTrajectories
    cases hnext : w.nextTrajectory with
    | none =>
      left
      dsimp only
      split
      · exact ⟨_, _, Or.inr rfl, rfl⟩
      · exact ⟨_, _, Or.inl rfl, rfl⟩
    | some traj => exact Or.inr ⟨traj, rfl, rfl⟩
  · exact Or.inl ⟨w.timeStepsWithoutTraj, _, Or.inl rfl, rfl⟩

@[simp] theorem moveTo_callbacks (w : TrajectoryExecutorWorker K) (downtrack : K)
    (curTraj : Trajectory K) : (w.moveTo downtrack curTraj).1.callbacks = w.callbacks := by
  obtain ⟨n, events, _, hmove⟩ | ⟨traj, _, hmove⟩ := moveTo_cases w downtrack curTraj
  · rw [hmove]
  · rw [hmove]
    rfl

/-- An event that is no invocation. -/
def Silent (e : Event K) : Prop := ∀ r completePct, e ≠ .invoked r completePct

theorem runTrajectory_silent (w : TrajectoryExecutorWorker K) (traj : Trajectory K) :
    ∀ e ∈ (w.runTrajectory traj).2, Silent e := by
  unfold TrajectoryExecutorWorker.runTrajectory
  split <;> simp [Silent]

theorem moveTo_silent (w : TrajectoryExecutorWorker K) (downtrack : K) (curTraj : Trajectory K) :
    ∀ e ∈ (w.moveTo downtrack curTraj).2, Silent e := by
  obtain ⟨n, events, hevents, hmove⟩ | ⟨traj, _, hmove⟩ := moveTo_cases w downtrack curTraj
  · rw [hmove]
    rcases hevents with rfl | rfl <;> simp [Silent]
  · rw [hmove]
    simp [Silent]

/-- A flag that is down stays down, unless it is set. -/
theorem runTrajectory_called {w : TrajectoryExecutorWorker K} {i : ℕ} (h : w.called i = false)
    (traj : Trajectory K) : (w.runTrajectory traj).1.called i = false := by
  unfold TrajectoryExecutorWorker.runTrajectory
  split
  · simp [TrajectoryExecutorWorker.resetCallbacks, h]
  · exact h

variable [Field K]

theorem act_silent (w : TrajectoryExecutorWorker K) (a : Action K) :
    ∀ e ∈ (w.act a).2, Silent e := by
  cases a with
  | runTrajectory traj => exact runTrajectory_silent w traj
  | abortTrajectory => simp [act, TrajectoryExecutorWorker.abortTrajectory, Silent]
  | cleanRestart => simp [act, TrajectoryExecutorWorker.cleanRestart, Silent]
  | _ => simp [act]

theorem act_called {w : TrajectoryExecutorWorker K} {i : ℕ} (h : w.called i = false)
    (a : Action K) : (w.act a).1.called i = false := by
  cases a with
  | registerOnTrajectoryProgressCallback pct callback =>
    unfold act TrajectoryExecutorWorker.registerOnTrajectoryProgressCallback
    simp [Function.update_apply, h]
  | runTrajectory traj => exact runTrajectory_called h traj
  | _ => exact h

theorem actAll_silent (w : TrajectoryExecutorWorker K) (as : List (Action K)) :
    ∀ e ∈ (w.actAll as).2, Silent e := by
  induction as generalizing w with
  | nil => simp [actAll]
  | cons a as ih =>
    intro e he
    rcases List.mem_append.mp he with he | he
    · exact act_silent w a e he
    · exact ih _ e he

theorem actAll_called {w : TrajectoryExecutorWorker K} {i : ℕ} (h : w.called i = false)
    (as : List (Action K)) : (w.actAll as).1.called i = false := by
  induction as generalizing w with
  | nil => exact h
  | cons a as ih => exact ih (act_called h a)

/-! ## Who is invoked -/

/-- The calls that may come after an unregistration. -/
inductive LaterCall (K : Type) [LE K]
  | runTrajectory (traj : Trajectory K)
  | updateDowntrackDistance (downtrack : K)
  | abortTrajectory
  | cleanRestart

def later (onProgress : ℕ → Dbl K → List (Action K)) (w : TrajectoryExecutorWorker K) :
    LaterCall K → TrajectoryExecutorWorker K × List (Event K)
  | .runTrajectory traj => w.runTrajectory traj
  | .updateDowntrackDistance downtrack => w.updateDowntrackDistance onProgress downtrack
  | .abortTrajectory => w.abortTrajectory
  | .cleanRestart => w.cleanRestart

/-- The event is no invocation of the callback. -/
def NotOf (callback : ℕ) (e : Event K) : Prop :=
  ∀ r completePct, e = .invoked r completePct → r.callback ≠ callback

/-- Whatever is called later, the callback is not invoked. -/
def NeverInvoked (onProgress : ℕ → Dbl K → List (Action K)) (w : TrajectoryExecutorWorker K)
    (callback : ℕ) : Prop :=
  ∀ calls, ∀ e ∈ runs.logged (later onProgress) w calls, NotOf callback e

/-- No record of the worker holds the callback. -/
def NoRecord (callback : ℕ) (w : TrajectoryExecutorWorker K) : Prop :=
  ∀ r ∈ w.callbacks, r.callback ≠ callback

theorem act_noRecord {w : TrajectoryExecutorWorker K} {callback : ℕ} (h : NoRecord callback w)
    {a : Action K} (ha : ∀ pct, a ≠ .registerOnTrajectoryProgressCallback pct callback) :
    NoRecord callback (w.act a).1 := by
  unfold NoRecord at *
  cases a with
  | registerOnTrajectoryProgressCallback pct other =>
    intro r hr
    rcases List.mem_append.mp hr with hr | hr
    · exact h r hr
    · rw [List.mem_singleton.mp hr]
      rintro rfl
      exact ha pct rfl
  | unregisterOnTrajectoryProgressCallback other =>
    rw [act, unregister_eq]
    exact h
  | unregisterAllTrajectoryProgressCallback => simp [act, unregisterAllTrajectoryProgressCallback]
  | runTrajectory traj =>
    rw [act, runTrajectory_callbacks]
    exact h
  | abortTrajectory => exact h
  | cleanRestart => exact h

theorem actAll_noRecord {w : TrajectoryExecutorWorker K} {callback : ℕ} (h : NoRecord callback w)
    {as : List (Action K)}
    (has : ∀ pct, .registerOnTrajectoryProgressCallback pct callback ∉ as) :
    NoRecord callback (w.actAll as).1 := by
  induction as generalizing w with
  | nil => exact h
  | cons a as ih =>
    refine ih (act_noRecord h ?_) (fun pct hm => has pct (List.mem_cons_of_mem _ hm))
    rintro pct rfl
    exact has pct (List.mem_cons_self ..)

section registrations

variable {onProgress : ℕ → Dbl K → List (Action K)} {callback : ℕ}
  (hreg : ∀ other completePct pct,
    .registerOnTrajectoryProgressCallback pct callback ∉ onProgress other completePct)

include hreg

theorem invokeEach_noRecord (completePct : Dbl K) {w : TrajectoryExecutorWorker K}
    (h : NoRecord callback w) {rs : List (PctCallback K)} (hrs : ∀ r ∈ rs, r.callback ≠ callback) :
    NoRecord callback (invokeEach onProgress completePct w rs).1 ∧
      ∀ e ∈ (invokeEach onProgress completePct w rs).2, NotOf callback e := by
  induction rs generalizing w with
  | nil => exact ⟨h, by simp [invokeEach]⟩
  | cons r rs ih =>
    have hrest : ∀ d ∈ rs, d.callback ≠ callback := fun d hd => hrs d (by simp [hd])
    unfold invokeEach
    split
    · have hact := actAll_noRecord h (hreg r.callback completePct)
      obtain ⟨hkeep, hnot⟩ := ih (w := (w.actAll (onProgress r.callback completePct)).1.setCalled r)
        hact hrest
      refine ⟨hkeep, ?_⟩
      intro e he
      rcases List.mem_cons.mp he with rfl | he
      · intro d p hd
        cases hd
        exact hrs r (by simp)
      · rcases List.mem_append.mp he with he | he
        · exact fun d p hd => absurd hd (actAll_silent w _ e he d p)
        · exact hnot e he
    · exact ih h hrest

theorem later_noRecord {w : TrajectoryExecutorWorker K} (h : NoRecord callback w)
    (c : LaterCall K) :
    NoRecord callback (later onProgress w c).1 ∧
      ∀ e ∈ (later onProgress w c).2, NotOf callback e := by
  cases c with
  | runTrajectory traj =>
    refine ⟨?_, fun e he d p hd => absurd hd (runTrajectory_silent w traj e he d p)⟩
    unfold NoRecord later
    rw [runTrajectory_callbacks]
    exact h
  | abortTrajectory => exact ⟨h, by simp [later, TrajectoryExecutorWorker.abortTrajectory, NotOf]⟩
  | cleanRestart => exact ⟨h, by simp [later, TrajectoryExecutorWorker.cleanRestart, NotOf]⟩
  | updateDowntrackDistance downtrack =>
    unfold later TrajectoryExecutorWorker.updateDowntrackDistance
    cases hcur : w.currentTrajectory with
    | none => exact ⟨h, by simp⟩
    | some curTraj =>
      have hmoved : NoRecord callback (w.moveTo downtrack curTraj).1 := by
        unfold NoRecord
        rw [moveTo_callbacks]
        exact h
      obtain ⟨hkeep, hnot⟩ := invokeEach_noRecord hreg
        (w.moveTo downtrack curTraj).1.getTrajectoryCompletionPct hmoved hmoved
      refine ⟨hkeep, ?_⟩
      intro e he
      rcases List.mem_append.mp he with he | he
      · exact fun d p hd => absurd hd (moveTo_silent w downtrack curTraj e he d p)
      · exact hnot e he

end registrations

/-- A record whose flag is down and whose threshold is reached is invoked, even
when callbacks before it clear the list. -/
theorem invokeEach_invokes (onProgress : ℕ → Dbl K → List (Action K)) (completePct : Dbl K)
    {w : TrajectoryExecutorWorker K} {rs : List (PctCallback K)} {r : PctCallback K} (hr : r ∈ rs)
    (hids : (rs.map (·.id)).Nodup) (hcalled : w.called r.id = false)
    (hpct : Dbl.le (.fin r.pct) completePct = true) :
    .invoked r completePct ∈ (invokeEach onProgress completePct w rs).2 := by
  induction rs generalizing w with
  | nil => cases hr
  | cons d rs ih =>
    rw [List.map_cons, List.nodup_cons] at hids
    obtain ⟨hd, hids⟩ := hids
    unfold invokeEach
    rcases List.mem_cons.mp hr with rfl | hr
    · simp [hcalled, hpct]
    · have hne : d.id ≠ r.id := fun he => hd (he ▸ List.mem_map_of_mem hr)
      split
      · refine List.mem_cons_of_mem _ (List.mem_append_right _ (ih hr hids ?_))
        rw [setCalled_called_of_ne _ hne]
        exact actAll_called hcalled _
      · exact ih hr hids hcalled

/-- After an abort, a run of `[0, 1)` and an update past its threshold, a callback
that is registered is invoked. -/
theorem registered_is_invoked (onProgress : ℕ → Dbl K → List (Action K))
    [IsStrictOrderedRing K] {w : TrajectoryExecutorWorker K} {r : PctCallback K}
    (hr : r ∈ w.callbacks) :
    ∃ calls, ∃ completePct,
      .invoked r completePct ∈ runs.logged (later onProgress) w calls := by
  let traj : Trajectory K := newTrajectory 0 1
  let aborted := w.abortTrajectory.1
  let running := (aborted.runTrajectory traj).1
  have hcallbacks : running.callbacks = w.callbacks := runTrajectory_callbacks _ _
  have hcurrent : running.currentTrajectory = some traj := rfl
  have hcalled : running.called r.id = false :=
    resetCallbacks_called (w := { aborted with currentTrajectory := some traj }) hr
  let moved := (running.moveTo r.pct traj).1
  have hmoved : moved = (running.moveTo r.pct traj).1 := rfl
  have hdown : moved.downtrackDistance = max r.pct 0 ∧ moved.currentTrajectory = some traj ∧
      moved.called r.id = false := by
    obtain ⟨n, events, _, hmove⟩ | ⟨next, hnext, _⟩ := moveTo_cases running r.pct traj
    · rw [hmoved, hmove]
      exact ⟨rfl, hcurrent, hcalled⟩
    · cases hnext
  have hpct : moved.getTrajectoryCompletionPct = .fin (max r.pct 0) := by
    unfold getTrajectoryCompletionPct
    rw [hdown.2.1, hdown.1]
    simp [traj, newTrajectory, Dbl.div_fin]
  have hin : r ∈ moved.callbacks := by
    rw [hmoved, moveTo_callbacks, hcallbacks]
    exact hr
  have hinvoked := invokeEach_invokes onProgress moved.getTrajectoryCompletionPct hin
    moved.ids_nodup hdown.2.2 (by rw [hpct]; simp)
  refine ⟨[.abortTrajectory, .runTrajectory traj, .updateDowntrackDistance r.pct],
    moved.getTrajectoryCompletionPct, ?_⟩
  simp only [runs.logged, List.append_nil]
  refine List.mem_append_right _ (List.mem_append_right _ ?_)
  exact List.mem_append_right _ hinvoked

/-- A callback that is unregistered is never invoked again just when it was not
registered. -/
theorem an_unregistered_callback_rests_only_if_it_was_never_registered [IsStrictOrderedRing K]
    (onProgress : ℕ → Dbl K → List (Action K)) (w : TrajectoryExecutorWorker K) (callback : ℕ)
    (hreg : ∀ other completePct pct,
      .registerOnTrajectoryProgressCallback pct callback ∉ onProgress other completePct) :
    NeverInvoked onProgress (w.unregisterOnTrajectoryProgressCallback callback) callback ↔
      ∀ r ∈ w.callbacks, r.callback ≠ callback := by
  rw [unregister_eq]
  constructor
  · intro hnever r hr he
    obtain ⟨calls, completePct, hmem⟩ := registered_is_invoked onProgress hr
    exact hnever calls _ hmem r completePct rfl he
  · intro hno calls
    exact runs.logged_keeps (I := NoRecord callback) (fun w c h => (later_noRecord hreg h c).1)
      (fun w c h => (later_noRecord hreg h c).2) hno calls

/-- A worker with a callback at half of the trajectory. -/
def halfwayWorker : TrajectoryExecutorWorker ℚ :=
  newTrajectoryExecutorWorker.registerOnTrajectoryProgressCallback (1 / 2) 7

theorem halfway_callback_rests_only_if_it_was_never_registered :
    NeverInvoked (fun _ _ => []) (halfwayWorker.unregisterOnTrajectoryProgressCallback 7) 7 ↔
      ∀ r ∈ halfwayWorker.callbacks, r.callback ≠ 7 :=
  an_unregistered_callback_rests_only_if_it_was_never_registered (fun _ _ => []) halfwayWorker 7
    (fun _ _ _ => List.not_mem_nil)

theorem a_callback_is_invoked_after_it_is_unregistered :
    ¬ NeverInvoked (fun _ _ => []) (halfwayWorker.unregisterOnTrajectoryProgressCallback 7) 7 := by
  intro hnever
  obtain ⟨calls, completePct, hmem⟩ := registered_is_invoked (fun _ _ => [])
    (w := halfwayWorker) (r := ⟨0, 1 / 2, 7⟩) (List.mem_singleton.mpr rfl)
  rw [unregister_eq] at hnever
  exact hnever calls _ hmem _ _ rfl rfl

end carma.trajectory_executor_worker
