-- Two runs of a gap controller, one on the negated signals of the other: when is every output of
-- the one the negated output of the other. The default range of the integrator lies above zero, so
-- an integrator that has worked once is never the negated one.
import Mathlib.Data.List.Chain
import Mathlib.Tactic.Linarith
import Carma.CommandGenerator
import Carma.SignalFilters

open lib.exact_double lib.runs carma.signals

namespace carma.platoon_commands

variable {K : Type} [LinearOrder K] [Field K]

namespace PidController

/-! ## The two runs -/

/-- A signal that the controller is given, and its output. -/
def call (c : PidController K) (signal : Signal K K) : PidController K × List (Dbl K) :=
  let result := c.apply signal.data signal.timestamp
  (result.1, [result.2])

/-- The outputs of a new controller on these signals. -/
def outputs (kp ki kd setpoint : K) (signals : List (Signal K K)) : List (Dbl K) :=
  logged call (new kp ki kd setpoint) signals

end PidController

/-- The same signal on the other side of zero. -/
def negated (signal : Signal K K) : Signal K K := { signal with data := -signal.data }

/-- Negated signals around the negated setpoint give the negated outputs. -/
def SignSymmetric (kp ki kd setpoint : K) (signals : List (Signal K K)) : Prop :=
  PidController.outputs kp ki kd (-setpoint) (signals.map negated) =
    (PidController.outputs kp ki kd setpoint signals).map Dbl.neg

def AtOneTime (signals : List (Signal K K)) : Prop :=
  signals.IsChain (fun s t => s.timestamp = t.timestamp)

namespace PidController

/-- Two controllers with the default range that are as new ones on negated signals are, but for
their integrators. -/
structure Mirrors (c c' : PidController K) : Prop where
  gains : c'.kp = c.kp ∧ c'.ki = c.ki ∧ c'.kd = c.kd
  setpoint : c'.setpoint = -c.setpoint
  low : 0 < c.integratorMin ∧ c'.integratorMin = c.integratorMin
  high : c.integratorMin ≤ c.integratorMax ∧ c'.integratorMax = c.integratorMax
  lastError : c'.lastError = c.lastError.map (fun e => (-e.1, e.2))

def LastAt (c : PidController K) (timestamp : K) : Prop := ∀ e ∈ c.lastError, e.2 = timestamp

variable [IsStrictOrderedRing K]

omit [IsStrictOrderedRing K] in
theorem integrate_pos {c : PidController K} (hlow : 0 < c.integratorMin)
    (hhigh : c.integratorMin ≤ c.integratorMax) (error dt : K) : 0 < c.integrate error dt := by
  unfold integrate
  dsimp only
  split
  · exact hlow.trans_le hhigh
  · split
    · exact hlow
    · rename_i hmin
      exact hlow.trans_le (not_lt.mp hmin)

omit [IsStrictOrderedRing K] in
theorem apply_mirrors {c c' : PidController K} (h : c.Mirrors c') (data timestamp : K) :
    (c.apply data timestamp).1.Mirrors (c'.apply (-data) timestamp).1 := by
  have herror : c'.setpoint - -data = -(c.setpoint - data) := by
    rw [h.setpoint]
    ring
  unfold apply
  rw [h.lastError, herror]
  cases hlast : c.lastError with
  | none => exact ⟨h.gains, h.setpoint, h.low, h.high, rfl⟩
  | some last => exact ⟨h.gains, h.setpoint, h.low, h.high, rfl⟩

/-- The outputs of a call are negated just when the integrator does not work, or when no time has
passed: then the quotient is no number, and the integrator is lost in it. -/
theorem apply_negated_iff {c c' : PidController K} (h : c.Mirrors c') (data timestamp : K) :
    (c'.apply (-data) timestamp).2 = -(c.apply data timestamp).2 ↔
      c.ki ≤ 0 ∨ c.LastAt timestamp := by
  have herror : c'.setpoint - -data = -(c.setpoint - data) := by
    rw [h.setpoint]
    ring
  obtain ⟨hkp, hki, hkd⟩ := h.gains
  unfold apply LastAt
  rw [h.lastError, herror, hkp, hki, hkd]
  cases hlast : c.lastError with
  | none =>
    refine iff_of_true ?_ (Or.inr (by simp))
    exact congrArg Dbl.fin (mul_neg _ _)
  | some last =>
    obtain ⟨lastData, lastTimestamp⟩ := last
    have hquot : c.kd * (-(c.setpoint - data) - -lastData) =
        -(c.kd * (c.setpoint - data - lastData)) := by ring
    simp only [Option.map_some, Option.mem_def, Option.some.injEq, forall_eq']
    rw [hquot, Dbl.neg_div_dbl, Dbl.neg_add_dbl, Dbl.neg_fin]
    by_cases hwork : 0 < c.ki
    · rw [if_pos hwork, if_pos hwork, if_pos hwork, if_pos hwork]
      rcases eq_or_ne lastTimestamp timestamp with htime | htime
      · refine iff_of_true ?_ (Or.inr htime)
        rw [htime, sub_self, ← Dbl.neg_div_dbl]
        exact Dbl.add_div_zero _ _ _
      · refine iff_of_false ?_ (by rintro (h | h); exacts [absurd hwork h.not_gt, htime h])
        intro hsame
        have hpos := integrate_pos h.low.1 h.high.1 (c.setpoint - data) (timestamp - lastTimestamp)
        have hpos' := integrate_pos (c := c') (h.low.2 ▸ h.low.1)
          (by rw [h.low.2, h.high.2]; exact h.high.1) (-(c.setpoint - data))
          (timestamp - lastTimestamp)
        rw [Dbl.fin_div _ (sub_ne_zero.mpr htime.symm), Dbl.neg_fin, Dbl.fin_add, Dbl.fin_add]
          at hsame
        have hsum := Dbl.fin.inj hsame
        have hprod := mul_pos hwork hpos
        have hprod' := mul_pos hwork hpos'
        linarith
    · refine iff_of_true ?_ (Or.inl (not_lt.mp hwork))
      rw [if_neg hwork, if_neg hwork, mul_neg]

theorem inv_two_pow_pos (n : ℕ) : 0 < ((2 ^ n : ℕ) : K)⁻¹ :=
  inv_pos.mpr (Nat.cast_pos.mpr (Nat.pow_pos Nat.two_pos))

theorem inv_two_pow_le_one (n : ℕ) : ((2 ^ n : ℕ) : K)⁻¹ ≤ 1 :=
  inv_le_one_of_one_le₀ (Nat.one_le_cast.mpr Nat.one_le_two_pow)

theorem new_mirrors (kp ki kd setpoint : K) :
    (new kp ki kd setpoint).Mirrors (new kp ki kd (-setpoint)) := by
  refine ⟨⟨rfl, rfl, rfl⟩, rfl, ⟨?_, rfl⟩, ⟨?_, rfl⟩, rfl⟩
  · exact inv_two_pow_pos _
  · -- the smallest double above zero is not above one, and the largest double is
    exact (inv_two_pow_le_one _).trans (Nat.one_le_cast.mpr
      (Nat.sub_pos_of_lt (pow_lt_pow_right₀ one_lt_two (by decide))))

omit [IsStrictOrderedRing K] in
theorem apply_ki (c : PidController K) (data timestamp : K) :
    (c.apply data timestamp).1.ki = c.ki := by
  unfold apply
  dsimp only
  split <;> rfl

omit [IsStrictOrderedRing K] in
theorem apply_lastError (c : PidController K) (data timestamp : K) :
    (c.apply data timestamp).1.lastError = some (c.setpoint - data, timestamp) := by
  unfold apply
  dsimp only
  split <;> rfl

omit [IsStrictOrderedRing K] in
/-- In a run the last signal is the one before, so the timestamps are the same all the way. -/
theorem eachCall_lastAt (c : PidController K) (signals : List (Signal K K)) :
    EachCall (fun c s => (call c s).1) (fun c s => c.ki ≤ 0 ∨ c.LastAt s.timestamp) c signals ↔
      c.ki ≤ 0 ∨
        (c.lastError.toList.map Prod.snd ++ signals.map Signal.timestamp).IsChain (· = ·) := by
  induction signals generalizing c with
  | nil =>
    refine iff_of_true trivial (Or.inr ?_)
    cases c.lastError with
    | none => exact .nil
    | some last => exact .singleton _
  | cons s signals ih =>
    have hnext := ih (call c s).1
    unfold call at hnext
    rw [apply_ki, apply_lastError] at hnext
    unfold EachCall LastAt
    refine (and_congr_right fun _ => hnext).trans ?_
    rw [← or_and_left]
    refine or_congr_right ?_
    cases c.lastError with
    | none => simp
    | some last => simp

/-- A run on negated signals around the negated setpoint gives the negated outputs just when the
integrator never works, or no time ever passes. -/
theorem runs_are_sign_symmetric_iff (kp ki kd setpoint : K) (signals : List (Signal K K)) :
    SignSymmetric kp ki kd setpoint signals ↔ ki ≤ 0 ∨ AtOneTime signals := by
  have hkeep : ∀ (c c' : PidController K) (s : Signal K K),
      Mirrors c c' → Mirrors (call c s).1 (call c' (negated s)).1 :=
    fun c c' s h => apply_mirrors h s.data s.timestamp
  have hsame : ∀ (c c' : PidController K) (s : Signal K K), Mirrors c c' →
      ((call c' (negated s)).2 = (call c s).2.map Dbl.neg ↔ c.ki ≤ 0 ∨ c.LastAt s.timestamp) :=
    fun c c' s h => List.singleton_inj.trans (apply_negated_iff h s.data s.timestamp)
  unfold SignSymmetric outputs
  rw [logged_map_iff hkeep (fun _ _ _ _ => rfl) hsame (new_mirrors kp ki kd setpoint) signals,
    eachCall_lastAt]
  refine or_congr_right ?_
  exact List.isChain_map _

/-- Without the integrator a run is symmetric. -/
theorem runs_are_sign_symmetric_iff_without_integrator :
    SignSymmetric (1 : ℚ) 0 2 5 [⟨-1, 0⟩, ⟨-1, 1⟩] ↔
      (0 : ℚ) ≤ 0 ∨ AtOneTime [⟨(-1 : ℚ), 0⟩, ⟨-1, 1⟩] :=
  runs_are_sign_symmetric_iff 1 0 2 5 _

end PidController

/-- Two errors of 1 m, a second apart, with the integrator on. -/
theorem errors_of_one_side_only_are_integrated :
    ¬ SignSymmetric (1 : ℚ) 1 0 0 [⟨-1, 0⟩, ⟨-1, 1⟩] := by
  unfold SignSymmetric
  decide +kernel

end carma.platoon_commands
