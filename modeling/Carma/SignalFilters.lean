-- The signals that the controllers read, and the filter that gives the mean of the last of them.
-- The specification keeps every sample since the last reset; the filter keeps a queue and a sum.
import Mathlib.Algebra.BigOperators.Group.List.Basic
import Mathlib.Algebra.Order.Field.Rat
import Mathlib.Tactic.Ring
import Carma.Lib.ExactDouble
import Carma.Lib.Runs

open lib.exact_double lib.runs

namespace carma.signals

structure Signal (T K : Type) where
  data : T
  timestamp : K
deriving DecidableEq

inductive FilterCall (K : Type)
  | changeSetpoint (setpoint : K)
  | apply (signal : Signal K K)
  | reset
deriving DecidableEq

variable {K : Type}

/-! ## The filter -/

/-- `MovingAverageFilter`. The queue has its oldest sample first. -/
structure MovingAverageFilter (K : Type) where
  samples : List K
  numSamples : ℤ
  sum : K
deriving DecidableEq

namespace MovingAverageFilter

section Code

variable [Field K] [LinearOrder K]

/-- `new MovingAverageFilter`. -/
def new (numSamples : ℤ) : MovingAverageFilter K := ⟨[], numSamples, 0⟩

/-- There is no setpoint in this filter. -/
def changeSetpoint (f : MovingAverageFilter K) (_setpoint : K) : MovingAverageFilter K := f

def apply (f : MovingAverageFilter K) (signal : Signal K K) :
    MovingAverageFilter K × Signal (Dbl K) K :=
  let newSample := signal.data
  let samples := f.samples ++ [newSample]
  let full := f.numSamples < samples.length
  let oldestValue := if full then samples.headD 0 else 0
  let samples := if full then samples.tail else samples
  let sum := f.sum + (-oldestValue + newSample)
  ({ f with samples := samples, sum := sum },
    ⟨.fin sum / .fin (samples.length : K), signal.timestamp⟩)

def reset (f : MovingAverageFilter K) : MovingAverageFilter K := { f with samples := [], sum := 0 }

/-- A call, and what it returns. -/
def call (f : MovingAverageFilter K) :
    FilterCall K → MovingAverageFilter K × List (Signal (Dbl K) K)
  | .changeSetpoint setpoint => (f.changeSetpoint setpoint, [])
  | .apply signal => ((f.apply signal).1, [(f.apply signal).2])
  | .reset => (f.reset, [])

end Code

/-! ## What it is for -/

/-- The last `n` samples, or all where there are fewer. -/
def lastSamples (n : ℕ) (supplied : List K) : List K :=
  supplied.drop (supplied.length - min supplied.length n)

/-- The arithmetic mean. -/
def mean [Field K] (samples : List K) : K := samples.sum / samples.length

/-- The calls on the list of all samples since the last reset. -/
def specCall [Field K] (n : ℕ) (supplied : List K) :
    FilterCall K → List K × List (Signal (Dbl K) K)
  | .changeSetpoint _ => (supplied, [])
  | .apply signal =>
    let supplied := supplied ++ [signal.data]
    (supplied, [⟨.fin (mean (lastSamples n supplied)), signal.timestamp⟩])
  | .reset => ([], [])

/-! ## The window -/

theorem length_lastSamples (n : ℕ) (supplied : List K) :
    (lastSamples n supplied).length = min supplied.length n := by
  unfold lastSamples
  rw [List.length_drop]
  omega

/-- While the window is not full, a new sample is added to it. -/
theorem lastSamples_snoc_of_lt {n : ℕ} {supplied : List K} (h : supplied.length < n) (x : K) :
    lastSamples n (supplied ++ [x]) = lastSamples n supplied ++ [x] := by
  unfold lastSamples
  rw [List.length_append, List.length_singleton, min_eq_left h, min_eq_left h.le, Nat.sub_self,
    Nat.sub_self, List.drop_zero, List.drop_zero]

/-- Once it is full, the oldest sample leaves. -/
theorem lastSamples_snoc_of_le {n : ℕ} {supplied : List K} (h : n ≤ supplied.length) (x : K) :
    lastSamples n (supplied ++ [x]) = (lastSamples n supplied ++ [x]).tail := by
  have hsplit : supplied.length + 1 - n = supplied.length - n + 1 := by omega
  unfold lastSamples
  rw [List.length_append, List.length_singleton, min_eq_right (h.trans (Nat.le_succ _)),
    min_eq_right h, hsplit, ← List.drop_one, ← List.drop_append_of_le_length (Nat.sub_le _ _),
    List.drop_drop]

section Laws

variable [Field K] [LinearOrder K]

/-- The queue is the window on the samples since the last reset, and the sum is its sum. -/
structure Tracks (n : ℕ) (f : MovingAverageFilter K) (supplied : List K) : Prop where
  size : f.numSamples = n
  samples : f.samples = lastSamples n supplied
  sum : f.sum = f.samples.sum

omit [LinearOrder K] in
theorem new_tracks (n : ℕ) : Tracks n (new n : MovingAverageFilter K) [] := ⟨rfl, rfl, rfl⟩

omit [LinearOrder K] in
theorem reset_tracks {n : ℕ} {f : MovingAverageFilter K} {supplied : List K}
    (h : f.Tracks n supplied) : f.reset.Tracks n [] := ⟨h.size, rfl, rfl⟩

theorem apply_tracks {n : ℕ} (hn : 1 ≤ n) {f : MovingAverageFilter K} {supplied : List K}
    (h : f.Tracks n supplied) (signal : Signal K K) :
    (f.apply signal).1.Tracks n (supplied ++ [signal.data]) := by
  obtain ⟨hsize, hsamples, hsum⟩ := h
  have hlength := length_lastSamples n supplied
  unfold apply
  rcases Nat.lt_or_ge supplied.length n with hroom | hfull
  · have hover : ¬ f.numSamples < (f.samples ++ [signal.data]).length := by
      rw [hsize, hsamples, List.length_append, hlength, List.length_singleton]
      omega
    dsimp only
    rw [if_neg hover, if_neg hover]
    refine ⟨hsize, ?_, ?_⟩
    · rw [hsamples]
      exact (lastSamples_snoc_of_lt hroom signal.data).symm
    · dsimp only
      rw [hsum, List.sum_append, List.sum_singleton]
      ring
  · have hover : f.numSamples < (f.samples ++ [signal.data]).length := by
      rw [hsize, hsamples, List.length_append, hlength, List.length_singleton]
      omega
    dsimp only
    rw [if_pos hover, if_pos hover]
    refine ⟨hsize, ?_, ?_⟩
    · rw [hsamples]
      exact (lastSamples_snoc_of_le hfull signal.data).symm
    · -- the window is not empty, so what leaves it is its own oldest sample
      dsimp only
      rw [hsum]
      cases hqueue : f.samples with
      | nil =>
        rw [hsamples, ← List.length_eq_zero_iff, hlength] at hqueue
        omega
      | cons oldest rest =>
        rw [List.cons_append, List.tail_cons, List.headD_cons, List.sum_cons, List.sum_append,
          List.sum_singleton]
        ring

variable [IsStrictOrderedRing K]

theorem apply_result {n : ℕ} (hn : 1 ≤ n) {f : MovingAverageFilter K} {supplied : List K}
    (h : f.Tracks n supplied) (signal : Signal K K) :
    (f.apply signal).2 =
      ⟨.fin (mean (lastSamples n (supplied ++ [signal.data]))), signal.timestamp⟩ := by
  obtain ⟨_, hsamples, hsum⟩ := apply_tracks hn h signal
  have hlength := length_lastSamples n (supplied ++ [signal.data])
  rw [← hsamples, List.length_append, List.length_singleton] at hlength
  have hne : ((f.apply signal).1.samples.length : K) ≠ 0 := by
    rw [Nat.cast_ne_zero]
    omega
  change (⟨.fin (f.apply signal).1.sum / .fin ((f.apply signal).1.samples.length : K), _⟩ :
    Signal (Dbl K) K) = _
  rw [Dbl.fin_div _ hne, hsum, hsamples]
  rfl

theorem call_tracks {n : ℕ} (hn : 1 ≤ n) (f : MovingAverageFilter K) (supplied : List K)
    (c : FilterCall K) (h : f.Tracks n supplied) :
    (f.call c).1.Tracks n (specCall n supplied c).1 ∧ (f.call c).2 = (specCall n supplied c).2 := by
  cases c with
  | changeSetpoint setpoint => exact ⟨h, rfl⟩
  | apply signal =>
    exact ⟨apply_tracks hn h signal, congrArg (fun r => [r]) (apply_result hn h signal)⟩
  | reset => exact ⟨reset_tracks h, rfl⟩

/-- Over all calls, the filter returns the mean of the last samples since the last reset. -/
theorem moving_average_is_the_mean_of_the_last_samples {numSamples : ℤ} (hn : 1 ≤ numSamples)
    (calls : List (FilterCall K)) :
    logged call (new numSamples) calls = logged (specCall numSamples.toNat) [] calls := by
  obtain ⟨n, rfl⟩ := Int.eq_ofNat_of_zero_le (by omega : 0 ≤ numSamples)
  have hpos : 1 ≤ n := by omega
  exact logged_eq_of_simulates (fun f supplied c h => call_tracks hpos f supplied c h)
    (new_tracks n) calls

/-- A window of two samples, filled, passed and reset. -/
theorem moving_average_of_two_is_the_mean_of_the_last_samples :
    logged call (new 2) [.apply ⟨4, 0⟩, .apply ⟨6, 1⟩, .apply ⟨(1 : ℚ), 2⟩, .reset, .apply ⟨5, 3⟩]
      = logged (specCall 2) [] [.apply ⟨4, 0⟩, .apply ⟨6, 1⟩, .apply ⟨1, 2⟩, .reset, .apply ⟨5, 3⟩] :=
  moving_average_is_the_mean_of_the_last_samples (by decide) _

example : logged call (new 2) [.apply ⟨4, 0⟩, .apply ⟨6, 1⟩, .apply ⟨(1 : ℚ), 2⟩]
    = [⟨.fin 4, 0⟩, ⟨.fin 5, 1⟩, ⟨.fin (7 / 2), 2⟩] := by decide +kernel

end Laws

end MovingAverageFilter

end carma.signals
