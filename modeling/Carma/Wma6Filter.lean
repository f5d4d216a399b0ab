-- `Wma6Filter.java` of the signal plugin: a mean of the last six samples that is weighted from
-- the newest to the oldest. The samples go round in a buffer, and the weight of a cell is told by
-- its distance from the cell that is written next.
import Mathlib.Algebra.Order.Field.Rat
import Mathlib.Tactic.Ring
import Carma.Lib.ExactDouble
import Carma.Lib.RingBuffers

open lib.exact_double lib.ring_buffers

namespace carma.filter

/-- `SIZE` is six. -/
scoped instance neZero_six : NeZero 6 := ⟨Nat.succ_ne_zero 5⟩

/-! ## The filter -/

structure Wma6Filter (K : Type) where
  numPoints_ : ℕ
  totalWeight_ : K
  next_ : Fin 6
  raw_ : Fin 6 → K
  timeStep_ : K

variable {K : Type} [Field K] [LinearOrder K]

namespace Wma6Filter

omit [LinearOrder K] in
/-- `initialize`: the buffer is filled from the right end on. -/
def initialized (timeStep : K) : Wma6Filter K where
  numPoints_ := 0
  totalWeight_ := 0
  next_ := Fin.last 5
  raw_ := fun _ => 0
  timeStep_ := timeStep

omit [LinearOrder K] in
def addToHistory (f : Wma6Filter K) (raw : K) : Wma6Filter K :=
  let room := f.numPoints_ < 6
  { f with
    raw_ := Function.update f.raw_ f.next_ raw
    next_ := if f.next_ = 0 then Fin.last 5 else f.next_ - 1
    totalWeight_ := if room then f.totalWeight_ + ((6 - f.numPoints_ : ℕ) : K) else f.totalWeight_
    numPoints_ := if room then f.numPoints_ + 1 else f.numPoints_ }

/-- The weight of a cell. -/
def weight (next_ i : Fin 6) : ℤ := ((next_ : ℤ) - i + 6).tmod 6 + 1

def smooth (f : Wma6Filter K) : Dbl K :=
  let sum := ((List.finRange 6).drop (6 - f.numPoints_)).foldl
    (fun sum i => sum + (weight f.next_ i : K) * f.raw_ i) 0
  .fin sum / .fin f.totalWeight_

omit [LinearOrder K] in
def addRawDataPoint (f : Wma6Filter K) (rawValue : K) : Wma6Filter K := f.addToHistory rawValue

def getSmoothedValue (f : Wma6Filter K) : Dbl K := f.smooth

end Wma6Filter

/-! ## The mean -/

/-- The weights from the newest sample on. -/
def weights : List ℕ := [6, 5, 4, 3, 2, 1]

omit [LinearOrder K] in
def weightedSum (newest : List K) : K :=
  (List.zipWith (fun (weight : ℕ) x => (weight : K) * x) weights newest).sum

omit [LinearOrder K] in
/-- The weight of so many samples. -/
def totalWeight (K : Type) [Field K] (samples : ℕ) : K := ((weights.take samples).sum : ℕ)

omit [LinearOrder K] in
def weightedMean (newest : List K) : K := weightedSum newest / totalWeight K newest.length

omit [LinearOrder K] in
theorem weightedSum_eq (newest : List K) : weightedSum newest =
    ∑ age : Fin 6, if (age : ℕ) < newest.length then
      ((6 - age : ℕ) : K) * newest.getD age 0 else 0 := by
  have hweight : ∀ age : Fin 6, weights[age] = 6 - (age : ℕ) := by decide
  unfold weightedSum
  rw [sum_zipWith _ 0]
  apply Finset.sum_congr rfl
  intro age _
  rw [← hweight age]
  rfl

omit [LinearOrder K] in
theorem totalWeight_succ {samples : ℕ} (h : samples < 6) :
    totalWeight K (samples + 1) = totalWeight K samples + ((6 - samples : ℕ) : K) := by
  have hnext : (weights.take (samples + 1)).sum = (weights.take samples).sum + (6 - samples) := by
    revert samples
    decide
  unfold totalWeight
  rw [hnext, Nat.cast_add]

omit [LinearOrder K] in
theorem totalWeight_full {samples : ℕ} (h : 6 ≤ samples) : totalWeight K samples = totalWeight K 6 := by
  unfold totalWeight
  rw [List.take_of_length_le (by exact h), List.take_of_length_le (by decide)]

omit [LinearOrder K] in
/-- Samples before the last six have no weight. -/
theorem weightedMean_take (newest : List K) :
    weightedMean (newest.take 6) = weightedSum newest / totalWeight K newest.length := by
  have hsum : weightedSum (newest.take 6) = weightedSum newest := by
    have hall : weights.take 6 = weights := rfl
    unfold weightedSum
    nth_rewrite 1 [← hall]
    rw [← List.take_zipWith, List.take_of_length_le]
    simp [weights]
  have htotal : totalWeight K (newest.take 6).length = totalWeight K newest.length := by
    rw [List.length_take]
    rcases Nat.lt_or_ge newest.length 6 with hroom | hfull
    · rw [min_eq_right hroom.le]
    · rw [min_eq_left hfull, totalWeight_full hfull]
  unfold weightedMean
  rw [hsum, htotal]

theorem totalWeight_ne_zero [IsStrictOrderedRing K] {samples : ℕ} (h : 0 < samples) :
    totalWeight K samples ≠ 0 := by
  obtain ⟨before, rfl⟩ := Nat.exists_eq_succ_of_ne_zero h.ne'
  unfold totalWeight weights
  rw [Nat.cast_ne_zero, List.take_succ_cons, List.sum_cons]
  omega

namespace Wma6Filter

/-! ## The buffer -/

omit [Field K] [LinearOrder K] in
def ring (f : Wma6Filter K) : RingBuffer 6 K := ⟨f.next_, f.raw_⟩

omit [LinearOrder K] in
/-- The index that is written next goes down and wraps. -/
theorem ring_addToHistory (f : Wma6Filter K) (raw : K) :
    (f.addToHistory raw).ring = f.ring.push raw := by
  have hwrap : ∀ next : Fin 6, (if next = 0 then Fin.last 5 else next - 1) = next - 1 := by decide
  unfold ring addToHistory RingBuffer.push
  dsimp only
  rw [hwrap]

theorem weight_cellOf (next age : Fin 6) :
    weight next (RingBuffer.cellOf next age) = ((6 - age : ℕ) : ℤ) := by
  revert next age
  decide

theorem filled_iff {next : Fin 6} {points : ℕ} (hpoints : points ≤ 6)
    (hfilling : points < 6 → (next : ℕ) + points = 5) (age : Fin 6) :
    6 - points ≤ (RingBuffer.cellOf next age : ℕ) ↔ (age : ℕ) < points := by
  have hall : ∀ points < 7, ∀ next : Fin 6, (points < 6 → (next : ℕ) + points = 5) →
      ∀ age : Fin 6, 6 - points ≤ (RingBuffer.cellOf next age : ℕ) ↔ (age : ℕ) < points := by
    decide
  exact hall points (by omega) next hfilling age

/-- The buffer, the number of its points and their weight are those of the samples so far. -/
structure Tracks (f : Wma6Filter K) (newest : List K) : Prop where
  points : f.numPoints_ = min newest.length 6
  total : f.totalWeight_ = totalWeight K newest.length
  filling : newest.length < 6 → (f.next_ : ℕ) + newest.length = 5
  holds : f.ring.Holds newest

omit [LinearOrder K] in
theorem initialized_tracks (timeStep : K) : Tracks (initialized timeStep) [] where
  points := rfl
  total := by simp [initialized, totalWeight]
  filling := fun _ => rfl
  holds := RingBuffer.holds_nil _

omit [LinearOrder K] in
theorem addToHistory_tracks {f : Wma6Filter K} {newest : List K} (h : f.Tracks newest) (raw : K) :
    (f.addToHistory raw).Tracks (raw :: newest) := by
  have hpoints := h.points
  have hholds : (f.addToHistory raw).ring.Holds (raw :: newest) := by
    rw [ring_addToHistory]
    exact h.holds.push raw
  rcases Nat.lt_or_ge newest.length 6 with hroom | hfull
  · have hlt : f.numPoints_ < 6 := by omega
    have hnumber : f.numPoints_ = newest.length := by omega
    refine ⟨?_, ?_, ?_, hholds⟩
    · simp only [addToHistory, hlt, if_true, List.length_cons]
      omega
    · simp only [addToHistory, hlt, if_true, List.length_cons]
      rw [totalWeight_succ hroom, h.total, hnumber]
    · intro hmore
      have hnext := h.filling hroom
      rw [List.length_cons] at hmore ⊢
      have hpos : f.next_ ≠ 0 := by
        intro hzero
        rw [hzero] at hnext
        simp at hnext
        omega
      have hdown : ((f.next_ - 1 : Fin 6) : ℕ) = f.next_ - 1 :=
        Fin.val_sub_one_of_ne_zero hpos
      simp only [addToHistory, if_neg hpos, hdown]
      omega
  · have hnot : ¬ f.numPoints_ < 6 := by omega
    refine ⟨?_, ?_, ?_, hholds⟩
    · simp only [addToHistory, hnot, if_false, List.length_cons]
      omega
    · simp only [addToHistory, hnot, if_false, List.length_cons]
      rw [h.total, totalWeight_full hfull]
      exact (totalWeight_full (by omega)).symm
    · intro hmore
      rw [List.length_cons] at hmore
      omega

omit [LinearOrder K] in
theorem samples_track {f : Wma6Filter K} {newest : List K} (h : f.Tracks newest)
    (samples : List K) : (samples.foldl addRawDataPoint f).Tracks (samples.reverse ++ newest) := by
  induction samples generalizing f newest with
  | nil => exact h
  | cons raw samples ih =>
    rw [List.foldl_cons, List.reverse_cons, List.append_assoc]
    exact ih (addToHistory_tracks h raw)

/-! ## The smoothed value -/

omit [LinearOrder K] in
/-- The loop of `smooth` adds the weighted samples, from wherever it begins in the buffer. -/
theorem sum_tracked {f : Wma6Filter K} {newest : List K} (h : f.Tracks newest) :
    ((List.finRange 6).drop (6 - f.numPoints_)).foldl
      (fun sum i => sum + (weight f.next_ i : K) * f.raw_ i) 0 = weightedSum newest := by
  have hpoints := h.points
  have hfilling : f.numPoints_ < 6 → (f.next_ : ℕ) + f.numPoints_ = 5 := by
    intro hlt
    have hnext := h.filling (by omega)
    omega
  rw [foldl_drop, zero_add, RingBuffer.sum_cells f.next_, weightedSum_eq]
  apply Finset.sum_congr rfl
  intro age _
  rw [weight_cellOf, Int.cast_natCast]
  by_cases hage : (age : ℕ) < newest.length
  · have hget : newest[(age : ℕ)]? = some (newest.getD age 0) := by
      rw [List.getD_eq_getElem?_getD, List.getElem?_eq_getElem hage, Option.getD_some]
    have hraw : f.raw_ (RingBuffer.cellOf f.next_ age) = newest.getD age 0 := h.holds age _ hget
    have hin : (age : ℕ) < f.numPoints_ := by omega
    rw [if_pos hage, if_pos ((filled_iff (by omega) hfilling age).mpr hin), hraw]
  · have hout : ¬ (age : ℕ) < f.numPoints_ := by omega
    rw [if_neg hage, if_neg (mt (filled_iff (by omega) hfilling age).mp hout)]

/-- After any samples the smoothed value is the weighted mean of the last six of them, or of all
while there are fewer. -/
theorem getSmoothedValue_eq [IsStrictOrderedRing K] (timeStep : K) {samples : List K}
    (h : samples ≠ []) :
    (samples.foldl addRawDataPoint (initialized timeStep)).getSmoothedValue =
      .fin (weightedMean (samples.reverse.take 6)) := by
  have htracks := samples_track (initialized_tracks timeStep) samples
  rw [List.append_nil] at htracks
  have hne : totalWeight K samples.reverse.length ≠ 0 := by
    apply totalWeight_ne_zero
    rw [List.length_reverse]
    exact List.length_pos_of_ne_nil h
  unfold getSmoothedValue smooth
  rw [sum_tracked htracks, htracks.total, weightedMean_take]
  exact Dbl.fin_div _ hne

/-- Eight samples: the first two have left the buffer, which has wrapped. -/
theorem smoothed_value_of_eight_samples :
    ([9, 9, 1, 2, 3, 4, 5, 6].foldl addRawDataPoint
      (initialized (1 / 10 : ℚ))).getSmoothedValue = .fin (13 / 3) := by
  have hmean : weightedMean ([9, 9, 1, 2, 3, 4, 5, 6].reverse.take 6) = (13 / 3 : ℚ) := by
    decide +kernel
  rw [← hmean]
  exact getSmoothedValue_eq _ (by simp)

end Wma6Filter

end carma.filter
