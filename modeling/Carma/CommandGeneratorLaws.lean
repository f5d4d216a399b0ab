-- The laws of the speed commands: what each cap gives, and when two commands in a row
-- are no further apart than the acceleration allows.
import Mathlib.Tactic.Positivity
import Carma.CommandGenerator

open lib.exact_double lib.runs

namespace carma.platoon_commands

variable {K : Type} [LinearOrder K] [Field K]

/-! ## The gap controller -/

/-- The last signal of the controller is older than `t`. -/
def PidController.Behind (c : PidController K) (t : ℤ) : Prop :=
  ∀ data timestamp, c.lastError = some (data, timestamp) → timestamp < (t : K)

theorem PidController.apply_spec [IsStrictOrderedRing K] {c : PidController K} {t : ℤ}
    (h : c.Behind t) (data : K) :
    (c.apply data (t : K)).2 ≠ .nan ∧
      ∀ later, t < later → (c.apply data (t : K)).1.Behind later := by
  unfold apply
  cases hlast : c.lastError with
  | none =>
    refine ⟨nofun, ?_⟩
    rintro later hlater _ _ hsome
    cases hsome
    exact Int.cast_lt.mpr hlater
  | some last =>
    obtain ⟨lastData, lastTimestamp⟩ := last
    have hlt := h lastData lastTimestamp hlast
    have hdt : (t : K) - lastTimestamp ≠ 0 := (sub_pos.mpr hlt).ne'
    refine ⟨?_, ?_⟩
    · -- time has passed since the last signal, so the quotient is a number
      intro hnan
      have hquot := Dbl.div_fin (c.kd * (c.setpoint - data - lastData)) hdt
      change Dbl.add _ (Dbl.div _ _) = _ at hnan
      rw [hquot] at hnan
      cases hnan
    · rintro later hlater _ _ hsome
      cases hsome
      exact Int.cast_lt.mpr hlater

/-! ## The generator -/

namespace CommandGenerator

/-- What the steps before the last filter leave alone, and that they give no NaN. -/
structure Prepared (g g' : CommandGenerator K) (t : ℤ) : Prop where
  params : g'.params = g.params
  lastCmdSpeed : g'.lastCmdSpeed = g.lastCmdSpeed
  behind : ∀ later, t < later → g'.distanceGapController.Behind later

theorem control_spec [IsStrictOrderedRing K] {g : CommandGenerator K} {t : ℤ}
    (h : g.distanceGapController.Behind t) (desiredGap setpoint data : K) :
    g.Prepared (g.control desiredGap setpoint data t).1 t ∧
      (g.control desiredGap setpoint data t).2 ≠ .nan := by
  have hset : (g.distanceGapController.changeSetpoint setpoint).Behind t := h
  obtain ⟨hnum, hbehind⟩ := PidController.apply_spec hset data
  exact ⟨⟨rfl, rfl, hbehind⟩, hnum⟩

theorem controllerOutput_spec [IsStrictOrderedRing K] {g : CommandGenerator K} {t : ℤ}
    (h : g.distanceGapController.Behind t) (r : Readings K) (leader : PlatoonMember K) :
    g.Prepared (g.controllerOutput r leader t).1 t ∧ (g.controllerOutput r leader t).2 ≠ .nan := by
  unfold controllerOutput
  split
  · split
    · exact control_spec h _ _ _
    · refine ⟨⟨rfl, rfl, ?_⟩, nofun⟩
      intro later hlater data timestamp hlast
      exact (h data timestamp hlast).trans (Int.cast_lt.mpr hlater)
  · exact control_spec h _ _ _

theorem capAdjustment_ne_nan (g : CommandGenerator K) (leader : PlatoonMember K) {a : Dbl K}
    (ha : a ≠ .nan) : g.capAdjustment leader a ≠ .nan := by
  unfold capAdjustment
  split
  · exact Dbl.clampTo_ne_nan ha
  · exact ha

theorem capSpeedLimit_ne_nan (g : CommandGenerator K) (r : Readings K) {a : Dbl K}
    (ha : a ≠ .nan) : g.capSpeedLimit r a ≠ .nan := by
  unfold capSpeedLimit
  split
  · have hzero : (Dbl.fin 0 : Dbl K) ≠ .nan := nofun
    refine Dbl.minOf_ne_nan (Dbl.maxOf_ne_nan ha hzero) ?_
    cases r.speedLimit with
    | none => exact ha
    | some limit => nofun
  · exact ha

theorem capAccel_spec [IsStrictOrderedRing K] {g : CommandGenerator K} {r : Readings K} {x : K}
    {a : Dbl K} (henabled : g.params.maxAccelCapEnabled = true) (hstep : 0 ≤ g.params.maxStep)
    (hx : g.rememberedCmd r = .fin x) (ha : a ≠ .nan) :
    ∃ z, g.capAccel r a = ({ g with lastCmdSpeed := some (.fin z) }, .fin z) ∧
      |z - x| ≤ g.params.maxStep := by
  obtain ⟨z, hz, hlow, hhigh⟩ := Dbl.clampTo_between ha
    (by linarith : x - g.params.maxStep ≤ x + g.params.maxStep)
  have hmax : g.rememberedCmd r + .fin g.params.maxStep = .fin (x + g.params.maxStep) := by
    rw [hx]
    rfl
  have hmin : g.rememberedCmd r - .fin g.params.maxStep = .fin (x - g.params.maxStep) := by
    rw [hx, sub_eq_add_neg x]
    rfl
  refine ⟨z, ?_, abs_le.mpr ⟨by linarith, by linarith⟩⟩
  unfold capAccel
  unfold Dbl.clampTo at hz
  simp only [if_pos henabled, hmax, hmin, hz]

/-- With a leader, the command is near the one that is remembered. -/
theorem generateSpeed_leader [IsStrictOrderedRing K] {g : CommandGenerator K} {r : Readings K}
    {t : ℤ} {leader : PlatoonMember K} {x : K} (hleader : r.leader = some leader)
    (henabled : g.params.maxAccelCapEnabled = true) (hstep : 0 ≤ g.params.maxStep)
    (hbehind : g.distanceGapController.Behind t) (hx : g.rememberedCmd r = .fin x) :
    ∃ z, (g.generateSpeed r t).speedCmd = .fin z ∧ |z - x| ≤ g.params.maxStep ∧
      (g.generateSpeed r t).lastCmdSpeed = some (.fin z) ∧
      (g.generateSpeed r t).params = g.params ∧
      ∀ later, t < later → (g.generateSpeed r t).distanceGapController.Behind later := by
  obtain ⟨hprep, hnum⟩ := controllerOutput_spec hbehind r leader
  unfold generateSpeed
  simp only [hleader]
  generalize g.controllerOutput r leader t = prepared at hprep hnum
  obtain ⟨g', output⟩ := prepared
  simp only at hprep hnum ⊢
  have hsum : output + .fin leader.commandSpeed ≠ .nan := by
    intro hnan
    cases output with
    | nan => exact hnum rfl
    | fin y => cases hnan
    | inf neg => cases hnan
  have hcapped := g'.capSpeedLimit_ne_nan r (g'.capAdjustment_ne_nan leader hsum)
  have hx' : g'.rememberedCmd r = .fin x := by
    rw [← hx]
    unfold rememberedCmd
    rw [hprep.lastCmdSpeed]
  rw [← hprep.params] at henabled hstep ⊢
  obtain ⟨z, hz, hnear⟩ := capAccel_spec henabled hstep hx' hcapped
  rw [hz]
  exact ⟨z, rfl, hnear, rfl, rfl, hprep.behind⟩

end CommandGenerator

/-! ## Runs -/

/-- Two commands that are numbers, and no further apart than `d`. -/
def Near (d : K) : Dbl K → Dbl K → Prop
  | .fin x, .fin y => |x - y| ≤ d
  | _, _ => False

instance (d : K) : ∀ a b, Decidable (Near d a b)
  | .fin x, .fin y => inferInstanceAs (Decidable (|x - y| ≤ d))
  | .inf _, _ => isFalse id
  | .nan, _ => isFalse id
  | .fin _, .inf _ => isFalse id
  | .fin _, .nan => isFalse id

namespace Follower

/-- After the first command, a call without a leader finds the vehicle at a speed near the
last command, and a call with one remembers the last command. -/
def InReach (f : Follower K) (t : Turn K) : Prop :=
  ∀ last ∈ f.given.head?,
    if t.readings.leader = none then
      Near f.generator.params.maxStep (.fin t.readings.currentSpeed) last
    else f.generator.rememberedCmd t.readings = last

instance (f : Follower K) (t : Turn K) : Decidable (f.InReach t) :=
  inferInstanceAs (Decidable (∀ last ∈ f.given.head?, _))

/-- What holds between two turns of the loop. -/
structure Fit (params : Params K) (f : Follower K) : Prop where
  configured : f.generator.params = params
  behind : f.generator.distanceGapController.Behind f.tsStart
  numbers : ∀ cmd ∈ f.given, ∃ x, cmd = Dbl.fin x
  unset : f.given = [] → f.generator.lastCmdSpeed = none
  near : f.given.IsChain (Near params.maxStep)

/-- The next turn starts at least one command period later. -/
theorem tsStart_turn (f : Follower K) (t : Turn K) : f.tsStart + 100 ≤ (f.turn t).tsStart := by
  simp only [turn, CMD_TIMESTEP]
  omega

theorem Fit.remembered {params : Params K} {f : Follower K} {t : Turn K} {leader : PlatoonMember K}
    (h : f.Fit params) (hok : f.InReach t) (hleader : t.readings.leader = some leader) :
    ∃ x, f.generator.rememberedCmd t.readings = .fin x ∧
      ∀ last ∈ f.given.head?, last = Dbl.fin x := by
  cases hhead : f.given.head? with
  | none =>
    have hunset := h.unset (List.head?_eq_none_iff.mp hhead)
    exact ⟨t.readings.lastSpeedCmd, by simp [CommandGenerator.rememberedCmd, hunset], nofun⟩
  | some last =>
    obtain ⟨x, rfl⟩ := h.numbers last (List.mem_of_head? hhead)
    have hremembered := hok _ hhead
    rw [if_neg (by simp [hleader])] at hremembered
    refine ⟨x, hremembered, ?_⟩
    intro last hlast
    cases hlast
    rfl

theorem fit_turn [IsStrictOrderedRing K] {params : Params K} {f : Follower K} {t : Turn K}
    (henabled : params.maxAccelCapEnabled = true) (hstep : 0 ≤ params.maxStep)
    (h : f.Fit params) (hok : f.InReach t) : (f.turn t).Fit params := by
  have hlater : f.tsStart < (f.turn t).tsStart := by
    have hstart := f.tsStart_turn t
    omega
  have hgiven : (f.turn t).given =
      (f.generator.generateSpeed t.readings f.tsStart).speedCmd :: f.given := rfl
  have hchain : ∀ x : K, (∀ last ∈ f.given.head?, Near params.maxStep (.fin x) last) →
      (.fin x :: f.given).IsChain (Near params.maxStep) :=
    fun x hx => List.isChain_cons.mpr ⟨hx, h.near⟩
  have hnumbers : ∀ x : K, ∀ cmd ∈ Dbl.fin x :: f.given, ∃ y, cmd = Dbl.fin y :=
    fun x => List.forall_mem_cons.mpr ⟨⟨x, rfl⟩, h.numbers⟩
  cases hleader : t.readings.leader with
  | none =>
    have hcall : f.generator.generateSpeed t.readings f.tsStart =
        { f.generator with
          speedCmd := .fin t.readings.currentSpeed
          distanceGapController := f.generator.distanceGapController.reset } := by
      simp only [CommandGenerator.generateSpeed, hleader]
    rw [hcall] at hgiven
    refine ⟨?_, ?_, ?_, ?_, ?_⟩
    · simp only [turn, hcall, h.configured]
    · intro data timestamp hlast
      simp only [turn, hcall] at hlast
      cases hlast
    · rw [hgiven]
      exact hnumbers _
    · rw [hgiven]
      nofun
    · rw [hgiven]
      apply hchain
      intro last hlast
      have hnear := hok last hlast
      rw [if_pos hleader, h.configured] at hnear
      exact hnear
  | some leader =>
    obtain ⟨x, hx, hlast⟩ := h.remembered hok hleader
    rw [← h.configured] at henabled hstep
    obtain ⟨z, hz, hnear, hmem, hparams, hbehind⟩ :=
      CommandGenerator.generateSpeed_leader hleader henabled hstep h.behind hx
    rw [hz] at hgiven
    refine ⟨hparams.trans h.configured, hbehind _ hlater, ?_, ?_, ?_⟩
    · rw [hgiven]
      exact hnumbers z
    · rw [hgiven]
      nofun
    · rw [hgiven]
      apply hchain
      intro last hl
      rw [hlast last hl, ← h.configured]
      exact hnear

theorem fit_new (params : Params K) (tsStart : ℤ) : (new params tsStart).Fit params := by
  refine ⟨rfl, ?_, nofun, fun _ => rfl, List.IsChain.nil⟩
  intro data timestamp hlast
  simp only [new, CommandGenerator.new] at hlast
  split at hlast <;> cases hlast

/-- With the acceleration filter, two commands in a row are no further apart than the
acceleration allows, in every run in which a lost leader leaves the vehicle at the speed
that was last commanded. -/
theorem commands_stay_near [IsStrictOrderedRing K] (params : Params K) (tsStart : ℤ)
    (turns : List (Turn K)) (henabled : params.maxAccelCapEnabled = true)
    (haccel : 0 ≤ params.maxAccel) (hok : EachCall turn InReach (new params tsStart) turns) :
    (run turn (new params tsStart) turns).given.IsChain (Near params.maxStep) := by
  have hstep : 0 ≤ params.maxStep := by
    unfold Params.maxStep
    positivity
  have hfit := states_of_keeps (fun f t => fit_turn henabled hstep) (fit_new params tsStart) hok
  exact (hfit _ (run_mem_states _ _ _)).near

/-- Parameters with all three caps on, 2.5 m/s/s and a leader at a set time headway. -/
def cappedParams : Params ℚ :=
  ⟨3 / 2, 0, -1 / 10, 1000, -1000, 12, 2, 1, 5, false, 10, 5 / 2, true, true, true⟩

def reading (leader : Option (PlatoonMember ℚ)) (currentSpeed : ℚ) : Readings ℚ :=
  ⟨leader, 0, 1, .nan, currentSpeed, 100, some 30, 20⟩

/-- The leader is lost for one turn, at the speed that was commanded. -/
def steadyTurns : List (Turn ℚ) :=
  [⟨reading (some ⟨20, 150⟩) 20, 5, 0⟩, ⟨reading (some ⟨20, 150⟩) 20, 5, 0⟩,
    ⟨reading none (41 / 2), 3, 1⟩, ⟨reading (some ⟨19, 150⟩) 20, 5, 0⟩]

theorem commands_stay_near_steadyTurns :
    (run turn (new cappedParams 0) steadyTurns).given.IsChain (Near cappedParams.maxStep) :=
  commands_stay_near cappedParams 0 steadyTurns rfl (by decide +kernel) (by decide +kernel)

/-- The leader is lost for one turn, while the vehicle is slower than it was commanded. -/
def laggingTurns : List (Turn ℚ) :=
  [⟨reading (some ⟨20, 150⟩) 20, 5, 0⟩, ⟨reading none 12, 3, 1⟩,
    ⟨reading (some ⟨19, 150⟩) 12, 5, 0⟩]

/-- The command falls from 20.25 to 12 and comes back to 20.5 in two turns. -/
theorem commands_jump_without_leader :
    (run turn (new cappedParams 0) laggingTurns).given = [.fin (41 / 2), .fin 12, .fin (81 / 4)] ∧
      ¬ (run turn (new cappedParams 0) laggingTurns).given.IsChain (Near cappedParams.maxStep) := by
  refine ⟨by decide +kernel, ?_⟩
  decide +kernel

end Follower

end carma.platoon_commands
