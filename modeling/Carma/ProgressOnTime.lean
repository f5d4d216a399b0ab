-- The law of progress callbacks that do not call the worker: between two changes
-- of the current trajectory each one is invoked at most once, at the first update
-- that reaches its threshold.
import Carma.ProgressCallbacks

open lib
open lib.exact_double
open carma.trajectory

namespace carma.trajectory_executor_worker

open TrajectoryExecutorWorker

variable {K : Type} [LinearOrder K]

/-! ## Logs -/

/-- The events after the last change of the current trajectory. -/
def sinceChange (log : List (Event K)) : List (Event K) :=
  log.foldl (fun acc e => match e with
    | .changed => []
    | e => acc ++ [e]) []

/-- How many times a record is invoked in a log. -/
def timesInvoked (r : PctCallback K) (log : List (Event K)) : ℕ :=
  log.countP fun e => match e with
    | .invoked d _ => decide (d = r)
    | _ => false

omit [LinearOrder K] in
theorem sinceChange_changed (log : List (Event K)) : sinceChange (log ++ [.changed]) = [] := by
  simp [sinceChange]

omit [LinearOrder K] in
theorem sinceChange_append (log : List (Event K)) {es : List (Event K)} (h : .changed ∉ es) :
    sinceChange (log ++ es) = sinceChange log ++ es := by
  induction es generalizing log with
  | nil => simp
  | cons e es ih =>
    have he : e ≠ .changed := fun hc => h (hc ▸ List.mem_cons_self ..)
    have hone : sinceChange (log ++ [e]) = sinceChange log ++ [e] := by
      cases e with
      | changed => exact absurd rfl he
      | invoked r p => simp [sinceChange]
      | notifyTrajectoryFailure => simp [sinceChange]
    rw [← List.singleton_append, ← List.append_assoc,
      ih _ (fun hc => h (List.mem_cons_of_mem _ hc)), hone, List.append_assoc]

theorem timesInvoked_zero {r : PctCallback K} {log : List (Event K)} :
    timesInvoked r log = 0 ↔ ∀ completePct, .invoked r completePct ∉ log := by
  unfold timesInvoked
  rw [List.countP_eq_zero]
  constructor
  · intro h p hm
    simpa using h _ hm
  · intro h e he
    cases e with
    | invoked d p =>
      simp only [decide_eq_true_eq]
      rintro rfl
      exact h p he
    | changed => simp
    | notifyTrajectoryFailure => simp

/-- Up to each point of the log, each record is invoked at most once since the
last change. -/
def AtMostOnce (log : List (Event K)) : Prop :=
  ∀ log', log' <+: log → ∀ r, timesInvoked r (sinceChange log') ≤ 1

theorem atMostOnce_snoc {log : List (Event K)} (h : AtMostOnce log) {e : Event K}
    (he : ∀ r p, e = .invoked r p → ∀ completePct, .invoked r completePct ∉ sinceChange log) :
    AtMostOnce (log ++ [e]) := by
  intro log' hp r
  rcases List.prefix_concat_iff.mp hp with rfl | hp
  · cases e with
    | changed =>
      rw [sinceChange_changed]
      simp [timesInvoked]
    | notifyTrajectoryFailure =>
      rw [sinceChange_append _ (by simp)]
      have hold := h log (List.prefix_refl _) r
      simpa [timesInvoked] using hold
    | invoked d p =>
      rw [sinceChange_append _ (by simp)]
      by_cases hd : d = r
      · subst hd
        have hzero := timesInvoked_zero.mpr (he d p rfl)
        unfold timesInvoked at hzero ⊢
        rw [List.countP_append, hzero]
        simp
      · have hold := h log (List.prefix_refl _) r
        unfold timesInvoked at hold ⊢
        rw [List.countP_append]
        simpa [hd] using hold
  · exact h log' hp r

theorem atMostOnce_silent {log es : List (Event K)} (h : AtMostOnce log)
    (hes : ∀ e ∈ es, Silent e) : AtMostOnce (log ++ es) := by
  induction es generalizing log with
  | nil => simpa using h
  | cons e es ih =>
    have hsnoc : AtMostOnce (log ++ [e]) :=
      atMostOnce_snoc h (fun r p he => absurd he (hes e (by simp) r p))
    rw [← List.singleton_append, ← List.append_assoc]
    exact ih hsnoc (fun d hd => hes d (by simp [hd]))

theorem atMostOnce_invoked {log : List (Event K)} (h : AtMostOnce log) (completePct : Dbl K)
    {rs : List (PctCallback K)} (hnodup : rs.Nodup)
    (hrs : ∀ r ∈ rs, ∀ p, .invoked r p ∉ sinceChange log) :
    AtMostOnce (log ++ rs.map (fun r => .invoked r completePct)) := by
  induction rs generalizing log with
  | nil => simpa using h
  | cons r rs ih =>
    obtain ⟨hr, hnodup⟩ := List.nodup_cons.mp hnodup
    have hsnoc : AtMostOnce (log ++ [.invoked r completePct]) := by
      refine atMostOnce_snoc h ?_
      rintro d p he
      cases he
      exact hrs r (by simp)
    rw [List.map_cons, ← List.singleton_append, ← List.append_assoc]
    refine ih hsnoc hnodup ?_
    intro d hd p hm
    rw [sinceChange_append _ (by simp)] at hm
    rcases List.mem_append.mp hm with hm | hm
    · exact hrs d (by simp [hd]) p hm
    · rw [List.mem_singleton] at hm
      cases hm
      exact hr hd

/-- The records that the loop invokes: those not called whose threshold is
reached. -/
def firing (w : TrajectoryExecutorWorker K) (completePct : Dbl K) (rs : List (PctCallback K)) :
    List (PctCallback K) :=
  rs.filter fun r => !w.called r.id && Dbl.le (.fin r.pct) completePct

theorem firing_cons (w : TrajectoryExecutorWorker K) (completePct : Dbl K) (r : PctCallback K)
    (rs : List (PctCallback K)) :
    firing w completePct (r :: rs) =
      if !w.called r.id && Dbl.le (.fin r.pct) completePct then r :: firing w completePct rs
      else firing w completePct rs := List.filter_cons

variable [Field K]

/-! ## One update -/

/-- Callbacks that do not call the worker. -/
def quiet : ℕ → Dbl K → List (Action K) := fun _ _ => []

/-- The calls of a run, with the registrations on the way. -/
inductive RunCall (K : Type) [LE K]
  | registerOnTrajectoryProgressCallback (pct : K) (callback : ℕ)
  | runTrajectory (traj : Trajectory K)
  | updateDowntrackDistance (downtrack : K)

def runCall (w : TrajectoryExecutorWorker K) :
    RunCall K → TrajectoryExecutorWorker K × List (Event K)
  | .registerOnTrajectoryProgressCallback pct callback =>
    (w.registerOnTrajectoryProgressCallback pct callback, [])
  | .runTrajectory traj => w.runTrajectory traj
  | .updateDowntrackDistance downtrack => w.updateDowntrackDistance quiet downtrack

theorem runCall_update (w : TrajectoryExecutorWorker K) (downtrack : K) :
    runCall w (.updateDowntrackDistance downtrack) = w.updateDowntrackDistance quiet downtrack :=
  rfl

/-- The trajectory that runs and the one that is queued, as the calls have it. -/
structure Schedule (K : Type) [LE K] where
  current : Option (Trajectory K)
  queued : Option (Trajectory K)

/-- The queued trajectory becomes the current one at an update past the end of the current
one. -/
def Schedule.after (s : Schedule K) : RunCall K → Schedule K
  | .registerOnTrajectoryProgressCallback _ _ => s
  | .runTrajectory traj =>
    match s.current with
    | none => ⟨some traj, s.queued⟩
    | some curTraj => ⟨some curTraj, some traj⟩
  | .updateDowntrackDistance downtrack =>
    match s.current, s.queued with
    | some curTraj, some nextTraj =>
      if downtrack ≥ curTraj.endLocation then ⟨some nextTraj, none⟩ else s
    | _, _ => s

/-- The trajectories after some calls, none at first. -/
def scheduleAfter (calls : List (RunCall K)) : Schedule K := calls.foldl Schedule.after ⟨none, none⟩

/-- How far along a trajectory a distance is. -/
def completionAt (traj : Trajectory K) (downtrack : K) : K :=
  (downtrack - traj.startLocation) / (traj.endLocation - traj.startLocation)

/-- A record has not been invoked since the current trajectory was set. -/
def NotInvoked (log : List (Event K)) (r : PctCallback K) : Prop :=
  ∀ completePct, .invoked r completePct ∉ sinceChange log

/-- A registered record is due at an update: it has not been invoked for the trajectory that is
current after the update, and this is far enough. With none queued the distance is no less than the
start of the current one. -/
def Due (s : Schedule K) (log : List (Event K)) (downtrack : K) (r : PctCallback K) : Prop :=
  match s.current, s.queued with
  | none, _ => False
  | some curTraj, none =>
    NotInvoked log r ∧ r.pct ≤ completionAt curTraj (max downtrack curTraj.startLocation)
  | some curTraj, some nextTraj =>
    if downtrack ≥ curTraj.endLocation then r.pct ≤ completionAt nextTraj downtrack
    else NotInvoked log r ∧ r.pct ≤ completionAt curTraj downtrack

/-- In a run, each record is invoked at most once between two changes, and at
an update just when it is registered and due. -/
structure InvokedOnTime (calls : List (RunCall K)) : Prop where
  at_most_once : ∀ log, log <+: runs.logged runCall newTrajectoryExecutorWorker calls →
    ∀ r, timesInvoked r (sinceChange log) ≤ 1
  when_due : ∀ before downtrack after,
    calls = before ++ .updateDowntrackDistance downtrack :: after → ∀ r,
      (∃ completePct, .invoked r completePct ∈
        (runCall (runs.stateAfter runCall newTrajectoryExecutorWorker before)
          (.updateDowntrackDistance downtrack)).2) ↔
      r ∈ (runs.stateAfter runCall newTrajectoryExecutorWorker before).callbacks ∧
        Due (scheduleAfter before) (runs.logged runCall newTrajectoryExecutorWorker before)
          downtrack r

theorem invokeEach_quiet (w : TrajectoryExecutorWorker K) (completePct : Dbl K)
    {rs : List (PctCallback K)} (hids : (rs.map (·.id)).Nodup) :
    invokeEach quiet completePct w rs =
      ({ w with called := fun i =>
          w.called i || decide (i ∈ (firing w completePct rs).map (·.id)) },
        (firing w completePct rs).map (fun r => .invoked r completePct)) := by
  induction rs generalizing w with
  | nil => simp [invokeEach, firing]
  | cons r rs ih =>
    rw [List.map_cons, List.nodup_cons] at hids
    obtain ⟨hr, hids⟩ := hids
    rw [firing_cons]
    unfold invokeEach
    by_cases hfire : (!w.called r.id && Dbl.le (.fin r.pct) completePct) = true
    · rw [if_pos hfire, if_pos hfire]
      have hsame : firing (w.setCalled r) completePct rs = firing w completePct rs := by
        unfold firing
        refine List.filter_congr ?_
        intro d hd
        rw [setCalled_called_of_ne _ (fun he => hr (he ▸ List.mem_map_of_mem hd))]
      have hrest := ih (w.setCalled r) hids
      rw [hsame] at hrest
      simp only [quiet, actAll] at hrest ⊢
      rw [hrest]
      unfold setCalled
      simp only [List.map_cons, List.cons_append, List.nil_append, List.mem_cons, Prod.mk.injEq,
        and_true]
      congr 1
      funext i
      by_cases hi : i = r.id
      · simp [hi]
      · simp [hi]
    · rw [if_neg hfire, if_neg hfire]
      exact ih w hids

/-! ## What a run keeps -/

/-- The flags say what the log says, and every trajectory has a positive length. -/
structure OnTrack (w : TrajectoryExecutorWorker K) (log : List (Event K)) : Prop where
  flag : ∀ r ∈ w.callbacks,
    (w.called r.id = true ↔ ∃ completePct, .invoked r completePct ∈ sinceChange log)
  registered : ∀ r completePct, .invoked r completePct ∈ sinceChange log → r ∈ w.callbacks
  positive : ∀ traj, w.currentTrajectory = some traj ∨ w.nextTrajectory = some traj →
    traj.startLocation < traj.endLocation

omit [Field K] in
theorem onTrack_silent {w : TrajectoryExecutorWorker K} {log es : List (Event K)}
    (h : OnTrack w log) (hes : ∀ e ∈ es, Silent e) (hno : .changed ∉ es) :
    OnTrack w (log ++ es) := by
  have hiff : ∀ r p, .invoked r p ∈ sinceChange (log ++ es) ↔ .invoked r p ∈ sinceChange log := by
    intro r p
    rw [sinceChange_append _ hno, List.mem_append]
    exact or_iff_left (fun hm => hes _ hm r p rfl)
  refine ⟨?_, ?_, h.positive⟩
  · intro r hr
    simp only [hiff]
    exact h.flag r hr
  · intro r p hm
    exact h.registered r p ((hiff r p).mp hm)

omit [Field K] in
theorem onTrack_changed {w : TrajectoryExecutorWorker K} (log : List (Event K))
    (hpos : ∀ traj, w.currentTrajectory = some traj ∨ w.nextTrajectory = some traj →
      traj.startLocation < traj.endLocation) :
    OnTrack w.resetCallbacks (log ++ [.changed]) := by
  refine ⟨?_, ?_, hpos⟩
  · intro r hr
    rw [resetCallbacks_called (show r ∈ w.callbacks from hr), sinceChange_changed]
    simp
  · intro r p hm
    rw [sinceChange_changed] at hm
    cases hm

omit [Field K] in
theorem onTrack_register {w : TrajectoryExecutorWorker K} {log : List (Event K)}
    (h : OnTrack w log) (pct : K) (callback : ℕ) :
    OnTrack (w.registerOnTrajectoryProgressCallback pct callback) log := by
  unfold TrajectoryExecutorWorker.registerOnTrajectoryProgressCallback
  refine ⟨?_, fun r p hm => List.mem_append_left _ (h.registered r p hm), h.positive⟩
  intro r hr
  rcases List.mem_append.mp hr with hr | hr
  · have hsame : Function.update w.called w.nextId false r.id = w.called r.id :=
      Function.update_of_ne (w.ids_lt r hr).ne _ _
    rw [← h.flag r hr]
    exact iff_of_eq (congrArg (· = true) hsame)
  · rw [List.mem_singleton.mp hr]
    simp only [Function.update_self, Bool.false_eq_true, false_iff]
    rintro ⟨p, hm⟩
    exact absurd (w.ids_lt _ (h.registered _ p hm)) (lt_irrefl _)

omit [Field K] in
theorem onTrack_runTrajectory {w : TrajectoryExecutorWorker K} {log : List (Event K)}
    (h : OnTrack w log) {traj : Trajectory K} (hpos : traj.startLocation < traj.endLocation) :
    OnTrack (w.runTrajectory traj).1 (log ++ (w.runTrajectory traj).2) := by
  unfold TrajectoryExecutorWorker.runTrajectory
  split
  · have hreset := onTrack_changed (w := { w with currentTrajectory := some traj }) log (by
      rintro d (hd | hd)
      · cases hd
        exact hpos
      · exact h.positive d (Or.inr hd))
    exact ⟨hreset.flag, hreset.registered, hreset.positive⟩
  · rw [List.append_nil]
    refine ⟨h.flag, h.registered, ?_⟩
    rintro d (hd | hd)
    · exact h.positive d (Or.inl hd)
    · cases hd
      exact hpos

omit [Field K] in
theorem onTrack_moveTo {w : TrajectoryExecutorWorker K} {log : List (Event K)} (h : OnTrack w log)
    (downtrack : K) (curTraj : Trajectory K) :
    OnTrack (w.moveTo downtrack curTraj).1 (log ++ (w.moveTo downtrack curTraj).2) := by
  obtain ⟨n, events, hevents, hmove⟩ | ⟨traj, hnext, hmove⟩ := moveTo_cases w downtrack curTraj
  · rw [hmove]
    refine onTrack_silent ⟨h.flag, h.registered, h.positive⟩ ?_ ?_
    · rcases hevents with rfl | rfl <;> simp [Silent]
    · rcases hevents with rfl | rfl <;> simp
  · rw [hmove]
    refine onTrack_changed log ?_
    rintro d (hd | hd)
    · cases hd
      exact h.positive _ (Or.inr hnext)
    · cases hd

omit [Field K] in
theorem firing_subset (w : TrajectoryExecutorWorker K) (completePct : Dbl K)
    (rs : List (PctCallback K)) : ∀ r ∈ firing w completePct rs, r ∈ rs :=
  fun _ hr => List.mem_of_mem_filter hr

/-- One update invokes the records that fire, and puts up their flags. -/
theorem invokeCallbacks_quiet (w : TrajectoryExecutorWorker K) :
    w.invokeCallbacks quiet =
      ({ w with called := fun i => w.called i ||
          decide (i ∈ (firing w w.getTrajectoryCompletionPct w.callbacks).map (·.id)) },
        (firing w w.getTrajectoryCompletionPct w.callbacks).map
          (fun r => .invoked r w.getTrajectoryCompletionPct)) :=
  invokeEach_quiet w _ w.ids_nodup

theorem mem_invokeCallbacks (w : TrajectoryExecutorWorker K) (r : PctCallback K) (p : Dbl K) :
    .invoked r p ∈ (w.invokeCallbacks quiet).2 ↔
      r ∈ firing w w.getTrajectoryCompletionPct w.callbacks ∧
        p = w.getTrajectoryCompletionPct := by
  rw [invokeCallbacks_quiet, List.mem_map]
  constructor
  · rintro ⟨d, hd, he⟩
    cases he
    exact ⟨hd, rfl⟩
  · rintro ⟨hr, rfl⟩
    exact ⟨r, hr, rfl⟩

/-- An update keeps the flags right. -/
theorem onTrack_invoke {w : TrajectoryExecutorWorker K} {log : List (Event K)} (h : OnTrack w log) :
    OnTrack (w.invokeCallbacks quiet).1 (log ++ (w.invokeCallbacks quiet).2) := by
  have hno : .changed ∉ (w.invokeCallbacks quiet).2 := by
    rw [invokeCallbacks_quiet]
    simp
  have hmem : ∀ r p, .invoked r p ∈ sinceChange (log ++ (w.invokeCallbacks quiet).2) ↔
      .invoked r p ∈ sinceChange log ∨ (r ∈ firing w w.getTrajectoryCompletionPct w.callbacks ∧
        p = w.getTrajectoryCompletionPct) := by
    intro r p
    rw [sinceChange_append _ hno, List.mem_append, mem_invokeCallbacks]
  generalize (w.invokeCallbacks quiet).2 = events at hmem
  rw [invokeCallbacks_quiet]
  refine ⟨?_, ?_, h.positive⟩
  · intro r hr
    have hid : r.id ∈ (firing w w.getTrajectoryCompletionPct w.callbacks).map (·.id) ↔
        r ∈ firing w w.getTrajectoryCompletionPct w.callbacks := by
      refine ⟨?_, fun hf => List.mem_map_of_mem hf⟩
      intro hf
      obtain ⟨d, hd, he⟩ := List.mem_map.mp hf
      rwa [← List.inj_on_of_nodup_map w.ids_nodup (firing_subset _ _ _ d hd) hr he]
    simp only [hmem, Bool.or_eq_true, decide_eq_true_eq, hid, h.flag r hr]
    constructor
    · rintro (⟨p, hp⟩ | hf)
      · exact ⟨p, Or.inl hp⟩
      · exact ⟨_, Or.inr ⟨hf, rfl⟩⟩
    · rintro ⟨p, hp | ⟨hf, _⟩⟩
      · exact Or.inl ⟨p, hp⟩
      · exact Or.inr hf
  · intro r p hm
    rcases (hmem r p).mp hm with hm | ⟨hf, _⟩
    · exact h.registered r p hm
    · exact firing_subset _ _ _ r hf

/-- One call keeps the flags right and invokes no record twice. -/
theorem runCall_onTrack {w : TrajectoryExecutorWorker K} {log : List (Event K)} (h : OnTrack w log)
    (hlog : AtMostOnce log) (c : RunCall K)
    (hpos : ∀ traj, c = .runTrajectory traj → traj.startLocation < traj.endLocation) :
    OnTrack (runCall w c).1 (log ++ (runCall w c).2) ∧ AtMostOnce (log ++ (runCall w c).2) := by
  cases c with
  | registerOnTrajectoryProgressCallback pct callback =>
    rw [show (runCall w (.registerOnTrajectoryProgressCallback pct callback)).2 = [] from rfl,
      List.append_nil]
    exact ⟨onTrack_register h pct callback, hlog⟩
  | runTrajectory traj =>
    exact ⟨onTrack_runTrajectory h (hpos traj rfl),
      atMostOnce_silent hlog (runTrajectory_silent w traj)⟩
  | updateDowntrackDistance downtrack =>
    rw [runCall_update]
    unfold TrajectoryExecutorWorker.updateDowntrackDistance
    split
    · rw [List.append_nil]
      exact ⟨⟨h.flag, h.registered, h.positive⟩, hlog⟩
    · rename_i curTraj _
      have hmoved := onTrack_moveTo h downtrack curTraj
      have honce := atMostOnce_silent hlog (moveTo_silent w downtrack curTraj)
      dsimp only
      rw [← List.append_assoc]
      refine ⟨onTrack_invoke hmoved, ?_⟩
      generalize (w.moveTo downtrack curTraj).1 = w1 at hmoved ⊢
      rw [invokeCallbacks_quiet]
      refine atMostOnce_invoked honce _ ((List.Nodup.of_map _ w1.ids_nodup).filter _) ?_
      intro r hr p hm
      obtain ⟨hin, hfire⟩ := List.mem_filter.mp hr
      have hcalled := (hmoved.flag r hin).mpr ⟨p, hm⟩
      simp [hcalled] at hfire

/-! ## When an update invokes -/

omit [Field K] in
/-- With no trajectory queued the current one stays, and the distance is held at its start. -/
theorem moveTo_of_none {w : TrajectoryExecutorWorker K} (h : w.nextTrajectory = none)
    (downtrack : K) (curTraj : Trajectory K) : ∃ n, (w.moveTo downtrack curTraj).1 = { w with
      downtrackDistance := max downtrack curTraj.startLocation
      timeStepsWithoutTraj := n } ∧ .changed ∉ (w.moveTo downtrack curTraj).2 := by
  obtain ⟨n, events, hevents, hmove⟩ | ⟨traj, hnext, -⟩ := moveTo_cases w downtrack curTraj
  · refine ⟨n, ?_, ?_⟩
    · rw [hmove, heldDowntrack, h]
    · rw [hmove]
      rcases hevents with rfl | rfl <;> simp
  · rw [h] at hnext
    cases hnext

omit [Field K] in
theorem moveTo_of_before_end {w : TrajectoryExecutorWorker K} {nextTraj : Trajectory K}
    (h : w.nextTrajectory = some nextTraj) {downtrack : K} {curTraj : Trajectory K}
    (hbefore : ¬ downtrack ≥ curTraj.endLocation) :
    w.moveTo downtrack curTraj = ({ w with downtrackDistance := downtrack }, []) := by
  unfold moveTo
  simp only [heldDowntrack, h]
  rw [if_neg hbefore]

omit [Field K] in
/-- At the end of the current trajectory the queued one takes its place. -/
theorem moveTo_of_end {w : TrajectoryExecutorWorker K} {nextTraj : Trajectory K}
    (h : w.nextTrajectory = some nextTraj) {downtrack : K} {curTraj : Trajectory K}
    (hend : downtrack ≥ curTraj.endLocation) :
    w.moveTo downtrack curTraj = (TrajectoryExecutorWorker.resetCallbacks { w with
      downtrackDistance := downtrack
      currentTrajectory := some nextTraj
      nextTrajectory := none }, [.changed]) := by
  unfold moveTo swapTrajectories
  simp only [heldDowntrack, h]
  rw [if_pos hend]

/-- The loop invokes the registered records that have not been invoked and whose threshold the
current trajectory has reached. -/
theorem invoked_iff {w : TrajectoryExecutorWorker K} {log : List (Event K)} (h : OnTrack w log)
    {traj : Trajectory K} (htraj : w.currentTrajectory = some traj)
    (hlen : traj.endLocation - traj.startLocation ≠ 0) (r : PctCallback K) :
    (∃ completePct, .invoked r completePct ∈ (w.invokeCallbacks quiet).2) ↔
      r ∈ w.callbacks ∧ NotInvoked log r ∧ r.pct ≤ completionAt traj w.downtrackDistance := by
  have hpct : w.getTrajectoryCompletionPct = .fin (completionAt traj w.downtrackDistance) := by
    unfold getTrajectoryCompletionPct
    rw [htraj]
    exact Dbl.div_fin _ hlen
  simp only [mem_invokeCallbacks, exists_and_left, exists_eq, and_true]
  unfold firing NotInvoked
  rw [List.mem_filter, hpct]
  apply and_congr_right
  intro hr
  simp only [Bool.and_eq_true, Bool.not_eq_true', Dbl.le_fin, decide_eq_true_eq]
  rw [← Bool.not_eq_true, h.flag r hr, not_exists]

/-- The worker has the trajectories that the calls tell. -/
def OnSchedule (w : TrajectoryExecutorWorker K) (s : Schedule K) : Prop :=
  w.currentTrajectory = s.current ∧ w.nextTrajectory = s.queued

theorem invokeCallbacks_onSchedule {w : TrajectoryExecutorWorker K} {s : Schedule K}
    (h : OnSchedule w s) : OnSchedule (w.invokeCallbacks quiet).1 s := by
  rw [invokeCallbacks_quiet]
  exact h

theorem runCall_onSchedule {w : TrajectoryExecutorWorker K} {s : Schedule K} (h : OnSchedule w s)
    (c : RunCall K) : OnSchedule (runCall w c).1 (s.after c) := by
  obtain ⟨current, queued⟩ := s
  obtain ⟨rfl, rfl⟩ := h
  cases c with
  | registerOnTrajectoryProgressCallback pct callback => exact ⟨rfl, rfl⟩
  | runTrajectory traj =>
    dsimp only [runCall, Schedule.after]
    unfold TrajectoryExecutorWorker.runTrajectory
    cases hcur : w.currentTrajectory with
    | none => exact ⟨rfl, rfl⟩
    | some curTraj => exact ⟨rfl, rfl⟩
  | updateDowntrackDistance downtrack =>
    rw [runCall_update]
    unfold TrajectoryExecutorWorker.updateDowntrackDistance Schedule.after
    cases hcur : w.currentTrajectory with
    | none => exact ⟨rfl, rfl⟩
    | some curTraj =>
      apply invokeCallbacks_onSchedule
      cases hnext : w.nextTrajectory with
      | none =>
        obtain ⟨n, hmove, -⟩ := moveTo_of_none hnext downtrack curTraj
        rw [hmove]
        exact ⟨hcur, hnext⟩
      | some nextTraj =>
        by_cases hend : downtrack ≥ curTraj.endLocation
        · rw [moveTo_of_end hnext hend]
          dsimp only
          rw [if_pos hend]
          exact ⟨rfl, rfl⟩
        · rw [moveTo_of_before_end hnext hend]
          dsimp only
          rw [if_neg hend]
          exact ⟨hcur, hnext⟩

/-- A record is invoked by an update just when it is registered and due. -/
theorem invoked_iff_due {w : TrajectoryExecutorWorker K} [IsStrictOrderedRing K]
    {log : List (Event K)} (h : OnTrack w log) {s : Schedule K} (hs : OnSchedule w s)
    (downtrack : K) (r : PctCallback K) :
    (∃ completePct, .invoked r completePct ∈ (runCall w (.updateDowntrackDistance downtrack)).2) ↔
      r ∈ w.callbacks ∧ Due s log downtrack r := by
  obtain ⟨current, queued⟩ := s
  obtain ⟨rfl, rfl⟩ := hs
  rw [runCall_update]
  unfold TrajectoryExecutorWorker.updateDowntrackDistance Due
  cases hcur : w.currentTrajectory with
  | none => simp
  | some curTraj =>
    have hmoved := onTrack_moveTo h downtrack curTraj
    have hsilent : ∀ p, .invoked r p ∉ (w.moveTo downtrack curTraj).2 :=
      fun p hm => moveTo_silent w downtrack curTraj _ hm r p rfl
    have hlen : ∀ traj, (w.moveTo downtrack curTraj).1.currentTrajectory = some traj →
        traj.endLocation - traj.startLocation ≠ 0 :=
      fun traj htraj => (sub_pos.mpr (hmoved.positive traj (Or.inl htraj))).ne'
    simp only [List.mem_append, hsilent, false_or]
    have hcallbacks := moveTo_callbacks w downtrack curTraj
    cases hnext : w.nextTrajectory with
    | none =>
      obtain ⟨n, hmove, hno⟩ := moveTo_of_none hnext downtrack curTraj
      have htraj : (w.moveTo downtrack curTraj).1.currentTrajectory = some curTraj := by
        rw [hmove]
        exact hcur
      rw [invoked_iff hmoved htraj (hlen _ htraj), hcallbacks, hmove]
      unfold NotInvoked
      simp only [sinceChange_append _ hno, List.mem_append, hsilent, or_false]
    | some nextTraj =>
      by_cases hend : downtrack ≥ curTraj.endLocation
      · have hmove := moveTo_of_end hnext hend
        have htraj : (w.moveTo downtrack curTraj).1.currentTrajectory = some nextTraj := by
          rw [hmove]
          rfl
        rw [invoked_iff hmoved htraj (hlen _ htraj), hcallbacks, hmove]
        dsimp only
        rw [if_pos hend]
        unfold NotInvoked
        rw [sinceChange_changed]
        simp [resetCallbacks]
      · have hmove := moveTo_of_before_end hnext hend
        have htraj : (w.moveTo downtrack curTraj).1.currentTrajectory = some curTraj := by
          rw [hmove]
          exact hcur
        rw [invoked_iff hmoved htraj (hlen _ htraj), hcallbacks, hmove, List.append_nil]
        dsimp only
        rw [if_neg hend]

/-! ## The law -/

theorem run_onTrack {calls : List (RunCall K)}
    (hpos : ∀ traj, .runTrajectory traj ∈ calls → traj.startLocation < traj.endLocation) :
    OnTrack (runs.stateAfter runCall newTrajectoryExecutorWorker calls)
        (runs.logged runCall newTrajectoryExecutorWorker calls) ∧
      AtMostOnce (runs.logged runCall newTrajectoryExecutorWorker calls) := by
  induction calls using List.reverseRecOn with
  | nil =>
    have hsilent : sinceChange (runs.logged runCall (newTrajectoryExecutorWorker (K := K)) []) = [] :=
      rfl
    constructor
    · refine ⟨fun r hr => absurd hr List.not_mem_nil, ?_, ?_⟩
      · intro r p hm
        rw [hsilent] at hm
        cases hm
      · rintro traj (h | h) <;> cases h
    · intro log hp r
      rw [List.prefix_nil.mp hp]
      simp [sinceChange, timesInvoked]
  | append_singleton calls c ih =>
    obtain ⟨htrack, honce⟩ := ih (fun traj hm => hpos traj (List.mem_append_left _ hm))
    rw [runs.stateAfter_snoc, runs.logged_snoc]
    refine runCall_onTrack htrack honce c ?_
    rintro traj rfl
    exact hpos traj (by simp)

theorem run_onSchedule (calls : List (RunCall K)) :
    OnSchedule (runs.stateAfter runCall newTrajectoryExecutorWorker calls) (scheduleAfter calls) := by
  induction calls using List.reverseRecOn with
  | nil => exact ⟨rfl, rfl⟩
  | append_singleton calls c ih =>
    rw [runs.stateAfter_snoc, scheduleAfter, List.foldl_append]
    exact runCall_onSchedule ih c

/-- In every run with trajectories of positive length, each record is invoked at
most once between two changes, and at an update just when it is registered and due. -/
theorem callbacks_are_invoked_once_and_on_time [IsStrictOrderedRing K] (calls : List (RunCall K))
    (hpos : ∀ traj, .runTrajectory traj ∈ calls → traj.startLocation < traj.endLocation) :
    InvokedOnTime calls := by
  refine ⟨(run_onTrack hpos).2, ?_⟩
  rintro before downtrack after rfl r
  have hbefore : ∀ traj, .runTrajectory traj ∈ before → traj.startLocation < traj.endLocation :=
    fun traj hm => hpos traj (List.mem_append_left _ hm)
  have htrack := (run_onTrack hbefore).1
  exact invoked_iff_due htrack (run_onSchedule before) downtrack r

/-- A callback at half of two trajectories, the second of which is queued behind the first. -/
def halfwayCalls : List (RunCall ℚ) :=
  [.registerOnTrajectoryProgressCallback (1 / 2) 7, .runTrajectory (newTrajectory 0 10),
    .runTrajectory (newTrajectory 10 20), .updateDowntrackDistance 6, .updateDowntrackDistance 12,
    .updateDowntrackDistance 16]

theorem halfwayCalls_invoke_on_time : InvokedOnTime halfwayCalls := by
  apply callbacks_are_invoked_once_and_on_time halfwayCalls
  intro traj hm
  simp only [halfwayCalls, List.mem_cons, reduceCtorEq, false_or, RunCall.runTrajectory.injEq,
    List.not_mem_nil, or_false] at hm
  rcases hm with rfl | rfl
  · exact (by decide +kernel : (0 : ℚ) < 10)
  · exact (by decide +kernel : (10 : ℚ) < 20)

end carma.trajectory_executor_worker
