-- `PolyHoloA.java` of the signal plugin: a parabola through the last points for the value, and
-- tables of weights for the two derivatives. On a parabola each of them is exact, as long as the
-- int that counts the points does not overflow.
import Carma.Lib.Narrowing
import Carma.Lib.Runs
import Carma.MatrixSolver
import Mathlib.Algebra.BigOperators.Fin
import Mathlib.Data.Rat.Floor

open lib.narrowing lib.runs

namespace carma.filter

variable {K : Type} [Field K]

def HOLO_MAX_PTS : ℕ := 16

/-- A filter that has been initialized. The newest point is the last one of `raw_`. -/
structure PolyHoloA (K : Type) where
  timeStep_ : K
  polyPoints_ : ℕ
  raw_ : List K
  numPoints_ : ℤ
  coefA_ : K
  coefB_ : K
  coefC_ : K
  sumX_ : K
  sumX2_ : K
  sumX3_ : K
  sumX4_ : K
  failedPoint_ : Bool
  sized : raw_.length = max polyPoints_ HOLO_MAX_PTS

namespace PolyHoloA

def arraySize_ (f : PolyHoloA K) : ℕ := f.raw_.length

/-- `raw_[i]`. -/
def raw (f : PolyHoloA K) (i : ℕ) : K := f.raw_.getD i 0

/-- The filter after `initialize`, for so many points and with so many counted before: the
constructor gives 15 and 0. The count goes on. -/
def initialized (polyPoints : ℕ) (numPoints : ℤ) (timeStep : K) : PolyHoloA K where
  timeStep_ := timeStep
  polyPoints_ := polyPoints
  raw_ := List.replicate (max polyPoints HOLO_MAX_PTS) 0
  numPoints_ := numPoints
  coefA_ := 0
  coefB_ := 0
  coefC_ := 0
  sumX_ := ∑ i ∈ Finset.range polyPoints, timeStep * i
  sumX2_ := ∑ i ∈ Finset.range polyPoints, timeStep * i * (timeStep * i)
  sumX3_ := ∑ i ∈ Finset.range polyPoints, timeStep * i * (timeStep * i * (timeStep * i))
  sumX4_ := ∑ i ∈ Finset.range polyPoints,
    timeStep * i * (timeStep * i) * (timeStep * i * (timeStep * i))
  failedPoint_ := false
  sized := List.length_replicate

/-- `updateArray`, and the count. -/
def updateArray (f : PolyHoloA K) (value : K) : PolyHoloA K :=
  { f with
    raw_ := f.raw_.tail ++ [value]
    numPoints_ := wrap 31 (f.numPoints_ + 1)
    failedPoint_ := false
    sized := by
      have hsized := f.sized
      have hpos : 0 < max f.polyPoints_ HOLO_MAX_PTS := lt_max_of_lt_right (by decide)
      rw [List.length_append, List.length_tail, List.length_singleton]
      omega }

/-- The equations of the fit, with sums over the points on the right. -/
def equations (f : PolyHoloA K) (sumY sumXY sumX2Y : K) : MatrixSolver K :=
  let m : MatrixSolver K := MatrixSolver.new
  let m := m.setAElement 0 0 f.polyPoints_
  let m := m.setAElement 0 1 f.sumX_
  let m := m.setAElement 0 2 f.sumX2_
  let m := m.setAElement 1 0 f.sumX_
  let m := m.setAElement 1 1 f.sumX2_
  let m := m.setAElement 1 2 f.sumX3_
  let m := m.setAElement 2 0 f.sumX2_
  let m := m.setAElement 2 1 f.sumX3_
  let m := m.setAElement 2 2 f.sumX4_
  let m := m.setBElement 0 sumY
  let m := m.setBElement 1 sumXY
  m.setBElement 2 sumX2Y

def getSmoothedValue (f : PolyHoloA K) : K :=
  if f.failedPoint_ then
    let rise := f.raw (f.arraySize_ - 1) - f.raw (f.arraySize_ - 3)
    let slope := rise / (((2 : ℕ) : K) * f.timeStep_)
    f.raw (f.polyPoints_ - 1) + f.timeStep_ * slope
  else
    let x := f.timeStep_ * (((f.polyPoints_ : ℤ) - 1 : ℤ) : K)
    f.coefA_ + x * (f.coefB_ + x * f.coefC_)

/-- The weights of the first derivative, for the newest point first. -/
def firstWeights : List ℤ :=
  [322, 217, 110, 35, -42, -87, -134, -149, -166, -151, -138, -93, -50, 25, 98, 203]

def getSmoothedDerivative (f : PolyHoloA K) : K :=
  let offset := f.arraySize_ - 15 - 1
  let sum := (firstWeights.zipIdx.map fun (weight, k) => (weight : K) * f.raw (15 - k + offset)).sum
  sum / ((2856 : ℕ) : K) / f.timeStep_

/-- The weights of the second derivative, for the points on both sides of the middle. -/
def secondWeights : List ℤ := [-14, 8, 13, 6, 1]

def getSmoothedSecondDerivative (f : PolyHoloA K) : K :=
  let offset := f.arraySize_ - 11 - 1
  let sum := ((-28 : ℤ) : K) * f.raw (11 - 5 + offset) +
    (secondWeights.zipIdx.map fun (weight, k) =>
      (weight : K) * (f.raw (11 - 5 - (k + 1) + offset) + f.raw (11 - 5 + (k + 1) + offset))).sum
  sum / (((256 : ℕ) : K) * f.timeStep_ * f.timeStep_)

variable [LinearOrder K]

/-- The fit of a parabola to the newest points. -/
def fit (f : PolyHoloA K) : PolyHoloA K :=
  let offset := f.arraySize_ - f.polyPoints_
  let sumY := ∑ i ∈ Finset.range f.polyPoints_, f.raw (i + offset)
  let sumXY := ∑ i ∈ Finset.range f.polyPoints_, f.timeStep_ * i * f.raw (i + offset)
  let sumX2Y := ∑ i ∈ Finset.range f.polyPoints_,
    f.timeStep_ * i * (f.timeStep_ * i) * f.raw (i + offset)
  match (f.equations sumY sumXY sumX2Y).getResult with
  | some coef => { f with coefA_ := coef 0, coefB_ := coef 1, coefC_ := coef 2 }
  | none => { f with coefA_ := 0, coefB_ := 0, coefC_ := 0, failedPoint_ := true }

def addRawDataPoint (f : PolyHoloA K) (rawValue : K) : PolyHoloA K :=
  let f := f.updateArray rawValue
  if (f.polyPoints_ : ℤ) ≤ f.numPoints_ then f.fit else f

end PolyHoloA

/-! ## Parabolas -/

/-- The signal `a + b * t + c * t * t`. -/
structure Parabola (K : Type) where
  a : K
  b : K
  c : K

namespace Parabola

def at_ (q : Parabola K) (t : K) : K := q.a + q.b * t + q.c * t * t

/-- The derivative. -/
def slope (q : Parabola K) (t : K) : K := q.b + ((2 : ℕ) : K) * q.c * t

/-- The second derivative. -/
def bend (q : Parabola K) : K := ((2 : ℕ) : K) * q.c

/-- The signal as it is seen from time `s`. -/
def after (q : Parabola K) (s : K) : Parabola K := ⟨q.at_ s, q.slope s, q.c⟩

theorem after_at (q : Parabola K) (s t : K) : (q.after s).at_ t = q.at_ (s + t) := by
  unfold after at_ slope
  push_cast
  ring

/-- The first `k` samples. -/
def samples (q : Parabola K) (timeStep : K) (k : ℕ) : List K :=
  (List.range k).map fun (i : ℕ) => q.at_ (i * timeStep)

theorem samples_succ (q : Parabola K) (timeStep : K) (k : ℕ) :
    q.samples timeStep (k + 1) = q.samples timeStep k ++ [q.at_ (k * timeStep)] := by
  unfold samples
  rw [List.range_succ, List.map_append]
  rfl

theorem length_samples (q : Parabola K) (timeStep : K) (k : ℕ) :
    (q.samples timeStep k).length = k := by
  simp [samples]

end Parabola

namespace PolyHoloA

/-! ## The weights -/

theorem firstWeights_parabola (q : Parabola K) (now timeStep : K) :
    (firstWeights.zipIdx.map fun (weight, (k : ℕ)) =>
        (weight : K) * q.at_ (now - k * timeStep)).sum =
      ((2856 : ℕ) : K) * timeStep * q.slope now := by
  unfold Parabola.at_ Parabola.slope firstWeights
  simp only [List.zipIdx_cons, List.zipIdx_nil, List.map_cons, List.map_nil, List.sum_cons,
    List.sum_nil]
  push_cast
  ring

/-- Those of the second derivative, around any middle. -/
theorem secondWeights_parabola (q : Parabola K) (now timeStep : K) :
    ((-28 : ℤ) : K) * q.at_ (now - ((5 : ℕ) : K) * timeStep) +
      (secondWeights.zipIdx.map fun (weight, (k : ℕ)) => (weight : K) *
        (q.at_ (now - ((5 + (k + 1) : ℕ) : K) * timeStep) +
          q.at_ (now - ((5 - (k + 1) : ℕ) : K) * timeStep))).sum =
      ((256 : ℕ) : K) * timeStep * timeStep * q.bend := by
  unfold Parabola.at_ Parabola.bend secondWeights
  simp only [List.zipIdx_cons, List.zipIdx_nil, List.map_cons, List.map_nil, List.sum_cons,
    List.sum_nil]
  norm_num
  ring

/-! ## The fit -/

/-- The sums that do not depend on the points are those of the time step. -/
structure Tuned (polyPoints : ℕ) (timeStep : K) (f : PolyHoloA K) : Prop where
  points : f.polyPoints_ = polyPoints
  step : f.timeStep_ = timeStep
  sum1 : f.sumX_ = ∑ i ∈ Finset.range polyPoints, timeStep * i
  sum2 : f.sumX2_ = ∑ i ∈ Finset.range polyPoints, timeStep * i * (timeStep * i)
  sum3 : f.sumX3_ = ∑ i ∈ Finset.range polyPoints, timeStep * i * (timeStep * i * (timeStep * i))
  sum4 : f.sumX4_ = ∑ i ∈ Finset.range polyPoints,
    timeStep * i * (timeStep * i) * (timeStep * i * (timeStep * i))

theorem initialized_tuned (polyPoints : ℕ) (numPoints : ℤ) (timeStep : K) :
    (initialized polyPoints numPoints timeStep).Tuned polyPoints timeStep :=
  ⟨rfl, rfl, rfl, rfl, rfl, rfl⟩

/-- The equations do not depend on the points either, but for their right side. -/
theorem Tuned.equations_a {n : ℕ} {timeStep : K} {f : PolyHoloA K} (h : f.Tuned n timeStep)
    (y xy x2y : K) :
    (f.equations y xy x2y).a_ = ((initialized n 0 timeStep).equations 0 0 0).a_ := by
  unfold equations
  simp only [MatrixSolver.setAElement, MatrixSolver.setBElement, h.points, h.sum1, h.sum2, h.sum3,
    h.sum4]
  rfl

/-- A parabola solves the equations of its own sums. -/
theorem Tuned.equations_solves {n : ℕ} {timeStep : K} {f : PolyHoloA K} (h : f.Tuned n timeStep)
    (q : Parabola K) :
    (f.equations (∑ i ∈ Finset.range n, q.at_ (timeStep * i))
      (∑ i ∈ Finset.range n, timeStep * i * q.at_ (timeStep * i))
      (∑ i ∈ Finset.range n, timeStep * i * (timeStep * i) * q.at_ (timeStep * i))).Solves
      ![q.a, q.b, q.c] := by
  have hsum : ∀ (w : ℕ → K), ∑ i ∈ Finset.range n, w i * q.at_ (timeStep * i) =
      (∑ i ∈ Finset.range n, w i) * q.a + (∑ i ∈ Finset.range n, w i * (timeStep * i)) * q.b +
        (∑ i ∈ Finset.range n, w i * (timeStep * i * (timeStep * i))) * q.c := by
    intro w
    simp only [Finset.sum_mul, ← Finset.sum_add_distrib]
    apply Finset.sum_congr rfl
    intro i _
    unfold Parabola.at_
    ring
  have h0 := hsum fun _ => 1
  have h1 := hsum fun i => timeStep * i
  have h2 := hsum fun i => timeStep * i * (timeStep * i)
  simp only [one_mul, Finset.sum_const, Finset.card_range, nsmul_eq_mul, mul_one] at h0
  simp only [mul_assoc] at h1 h2
  intro r
  fin_cases r
  · simp [equations, MatrixSolver.setAElement, MatrixSolver.setBElement, h.points, h.sum1, h.sum2,
      h0]
  · simp [equations, MatrixSolver.setAElement, MatrixSolver.setBElement, h.sum1, h.sum2, h.sum3,
      mul_assoc, h1]
  · simp [equations, MatrixSolver.setAElement, MatrixSolver.setBElement, h.sum2, h.sum3, h.sum4,
      mul_assoc, h2]

variable [LinearOrder K]

/-- The pivots of the elimination are not close to zero. -/
def PivotsExceed (polyPoints : ℕ) (timeStep : K) : Prop :=
  let m := (initialized polyPoints 0 timeStep).equations 0 0 0
  ¬ CloseToZero (m.a_ 0 0) ∧ ¬ CloseToZero (m.eliminateFirst.a_ 1 1) ∧
    ¬ CloseToZero ((m.eliminateFirst.eliminate 1 2).a_ 2 2)

/-- The coefficients are those of the parabola. -/
structure Fitted (q : Parabola K) (f : PolyHoloA K) : Prop where
  a : f.coefA_ = q.a
  b : f.coefB_ = q.b
  c : f.coefC_ = q.c
  solved : f.failedPoint_ = false

/-- What is read of the points that the fit looks at. -/
def Reads (f : PolyHoloA K) (q : Parabola K) : Prop :=
  ∀ i < f.polyPoints_, f.raw (i + (f.arraySize_ - f.polyPoints_)) = q.at_ (f.timeStep_ * i)

theorem fit_fitted [IsStrictOrderedRing K] {n : ℕ} {timeStep : K} {f : PolyHoloA K}
    (h : f.Tuned n timeStep) (hpivots : PivotsExceed n timeStep) (hfailed : f.failedPoint_ = false)
    {q : Parabola K} (hreads : f.Reads q) : f.fit.Fitted q := by
  obtain ⟨h0, h1, h2⟩ := hpivots
  have hsums : ∀ (w : ℕ → K), ∑ i ∈ Finset.range f.polyPoints_,
      w i * f.raw (i + (f.arraySize_ - f.polyPoints_)) =
      ∑ i ∈ Finset.range n, w i * q.at_ (timeStep * i) := by
    intro w
    rw [h.points]
    apply Finset.sum_congr rfl
    intro i hi
    rw [← h.points, hreads i (h.points ▸ Finset.mem_range.mp hi), h.step]
  have hsum := hsums fun _ => 1
  simp only [one_mul] at hsum
  have hsolves := h.equations_solves q
  generalize hm : f.equations (∑ i ∈ Finset.range n, q.at_ (timeStep * i))
    (∑ i ∈ Finset.range n, timeStep * i * q.at_ (timeStep * i))
    (∑ i ∈ Finset.range n, timeStep * i * (timeStep * i) * q.at_ (timeStep * i)) = m at hsolves
  have ha : m.a_ = ((initialized n 0 timeStep).equations 0 0 0).a_ := by
    rw [← hm]
    exact h.equations_a _ _ _
  have hfirst := MatrixSolver.eliminate_a_congr (MatrixSolver.eliminate_a_congr ha 0 1) 0 2
  rw [← ha] at h0
  rw [MatrixSolver.eliminateFirst, ← hfirst] at h1
  rw [MatrixSolver.eliminateFirst, ← MatrixSolver.eliminate_a_congr hfirst 1 2] at h2
  obtain ⟨r, hr⟩ := MatrixSolver.getResult_isSome h0 h1 h2
  have hone := MatrixSolver.getResult_solves hr hsolves
  unfold fit
  simp only [hsum, hsums, h.step, hm, hr, hone]
  exact ⟨rfl, rfl, rfl, hfailed⟩

/-! ## Runs -/

omit [LinearOrder K] in
theorem updateArray_tuned {n : ℕ} {timeStep : K} {f : PolyHoloA K} (h : f.Tuned n timeStep)
    (v : K) : (f.updateArray v).Tuned n timeStep :=
  ⟨h.points, h.step, h.sum1, h.sum2, h.sum3, h.sum4⟩

theorem addRawDataPoint_frame (f : PolyHoloA K) (v : K) :
    (f.addRawDataPoint v).raw_ = f.raw_.tail ++ [v] ∧
      (f.addRawDataPoint v).numPoints_ = wrap 31 (f.numPoints_ + 1) ∧
      ∀ {n timeStep}, f.Tuned n timeStep → (f.addRawDataPoint v).Tuned n timeStep := by
  unfold addRawDataPoint fit
  dsimp only
  split
  · split
    · exact ⟨rfl, rfl, fun h => ⟨h.1, h.2, h.3, h.4, h.5, h.6⟩⟩
    · exact ⟨rfl, rfl, fun h => ⟨h.1, h.2, h.3, h.4, h.5, h.6⟩⟩
  · exact ⟨rfl, rfl, fun h => ⟨h.1, h.2, h.3, h.4, h.5, h.6⟩⟩

theorem run_raw_ (f : PolyHoloA K) (points : List K) :
    (run addRawDataPoint f points).raw_ = (f.raw_ ++ points).drop points.length := by
  induction points using List.reverseRecOn with
  | nil => simp
  | append_singleton points v ih =>
    have hpos : 0 < max f.polyPoints_ HOLO_MAX_PTS := lt_max_of_lt_right (by decide)
    have hroom : points.length + 1 ≤ (f.raw_ ++ points).length := by
      rw [List.length_append, f.sized]
      omega
    rw [run_snoc, (addRawDataPoint_frame _ v).1, ih, List.tail_drop, ← List.append_assoc,
      List.length_append, List.length_singleton, List.drop_append_of_le_length hroom]

theorem run_tuned {n : ℕ} {timeStep : K} {f : PolyHoloA K} (h : f.Tuned n timeStep)
    (points : List K) : (run addRawDataPoint f points).Tuned n timeStep :=
  run_keeps_always (fun g v hg => (addRawDataPoint_frame g v).2.2 hg) h points

theorem run_numPoints_ {f : PolyHoloA K} (hcount : 0 ≤ f.numPoints_) {points : List K}
    (hfew : f.numPoints_ + points.length < 2 ^ 31) :
    (run addRawDataPoint f points).numPoints_ = f.numPoints_ + points.length := by
  induction points using List.reverseRecOn with
  | nil => simp
  | append_singleton points v ih =>
    rw [List.length_append, List.length_singleton] at hfew ⊢
    push_cast at hfew ⊢
    rw [run_snoc, (addRawDataPoint_frame _ v).2.1, ih (by omega),
      wrap_eq_self (by omega) (by omega)]
    omega

theorem raw_of_samples (n : ℕ) (counted : ℤ) (timeStep : K) (q : Parabola K) {k i : ℕ}
    (hk : max n HOLO_MAX_PTS ≤ k) (hi : i < max n HOLO_MAX_PTS) :
    (run addRawDataPoint (initialized n counted timeStep) (q.samples timeStep k)).raw i =
      q.at_ ((k - max n HOLO_MAX_PTS + i : ℕ) * timeStep) := by
  unfold raw
  rw [run_raw_, List.getD_eq_getElem?_getD, List.getElem?_drop, Parabola.length_samples,
    List.getElem?_append_right]
  · have hindex : k + i - (initialized n counted timeStep).raw_.length =
        k - max n HOLO_MAX_PTS + i := by
      rw [(initialized n counted timeStep).sized]
      show k + i - max n HOLO_MAX_PTS = _
      omega
    rw [hindex]
    simp [Parabola.samples, List.getElem?_range (by omega : k - max n HOLO_MAX_PTS + i < k)]
  · rw [(initialized n counted timeStep).sized]
    show max n HOLO_MAX_PTS ≤ k + i
    omega

/-- The same, counted from the newest point back. -/
theorem raw_back (n : ℕ) (counted : ℤ) (timeStep : K) (q : Parabola K) {k i : ℕ}
    (hk : max n HOLO_MAX_PTS ≤ k) (hi : i < HOLO_MAX_PTS) :
    (run addRawDataPoint (initialized n counted timeStep) (q.samples timeStep k)).raw
        (max n HOLO_MAX_PTS - 1 - i) =
      q.at_ ((k - 1 : ℕ) * timeStep - i * timeStep) := by
  have hsize : HOLO_MAX_PTS ≤ max n HOLO_MAX_PTS := le_max_right _ _
  rw [raw_of_samples n counted timeStep q hk (by omega)]
  have hindex : k - max n HOLO_MAX_PTS + (max n HOLO_MAX_PTS - 1 - i) = k - 1 - i := by omega
  rw [hindex, Nat.cast_sub (by omega), sub_mul]

theorem run_arraySize_ (n : ℕ) (counted : ℤ) (timeStep : K) (points : List K) :
    (run addRawDataPoint (initialized n counted timeStep) points).arraySize_ =
      max n HOLO_MAX_PTS := by
  unfold arraySize_
  rw [PolyHoloA.sized, (run_tuned (initialized_tuned n counted timeStep) points).points]

theorem samples_numPoints (n : ℕ) {counted : ℤ} (timeStep : K) (q : Parabola K) {k : ℕ}
    (hcount : 0 ≤ counted) (hfew : counted + k < 2 ^ 31) :
    (run addRawDataPoint (initialized n counted timeStep) (q.samples timeStep k)).numPoints_ =
      counted + k := by
  have hroom : counted + (q.samples timeStep k).length < 2 ^ 31 := by
    rw [Parabola.length_samples]
    exact hfew
  have hnumber := run_numPoints_ (f := initialized n counted timeStep) hcount hroom
  rw [Parabola.length_samples] at hnumber
  exact hnumber

omit [Field K] [LinearOrder K] in
theorem updateArray_numPoints (f : PolyHoloA K) (v : K) :
    (f.updateArray v).numPoints_ = wrap 31 (f.numPoints_ + 1) := rfl

variable [IsStrictOrderedRing K]

/-- After samples that fill the array, the fit is the parabola from the oldest of its points on. -/
theorem run_fitted {n : ℕ} {counted : ℤ} {timeStep : K} (hpivots : PivotsExceed n timeStep)
    (q : Parabola K) {k : ℕ} (hk : max n HOLO_MAX_PTS ≤ k) (hcount : 0 ≤ counted)
    (hfew : counted + k < 2 ^ 31) :
    (run addRawDataPoint (initialized n counted timeStep) (q.samples timeStep k)).Fitted
      (q.after (((k - n : ℕ) : K) * timeStep)) := by
  have hn : n ≤ max n HOLO_MAX_PTS := le_max_left _ _
  have hpos : 0 < max n HOLO_MAX_PTS := lt_max_of_lt_right (by decide)
  have hread := fun i hi => raw_of_samples n counted timeStep q (i := i) hk hi
  obtain ⟨k, rfl⟩ : ∃ k', k = k' + 1 := ⟨k - 1, by omega⟩
  push_cast at hfew
  have hbefore := samples_numPoints n timeStep q (k := k) hcount (by omega)
  have htuned := run_tuned (initialized_tuned n counted timeStep) (q.samples timeStep k)
  rw [Parabola.samples_succ, run_snoc] at hread ⊢
  -- the last point is counted, and the fit is made
  generalize run addRawDataPoint (initialized n counted timeStep) (q.samples timeStep k) = g at *
  generalize q.at_ (k * timeStep) = v at *
  have hnumber : (g.updateArray v).numPoints_ = counted + k + 1 := by
    rw [updateArray_numPoints, hbefore]
    exact wrap_eq_self (by omega) (by omega)
  have htuned' : (g.updateArray v).Tuned n timeStep := updateArray_tuned htuned v
  have hfit : g.addRawDataPoint v = (g.updateArray v).fit := by
    unfold addRawDataPoint
    dsimp only
    rw [if_pos (by rw [hnumber, htuned'.points]; omega)]
  have hraw : (g.updateArray v).raw_ = (g.addRawDataPoint v).raw_ :=
    (addRawDataPoint_frame g v).1.symm
  have hsize : (g.updateArray v).arraySize_ = max n HOLO_MAX_PTS := by
    unfold arraySize_
    rw [PolyHoloA.sized, htuned'.points]
  rw [hfit]
  apply fit_fitted htuned' hpivots rfl
  intro i hi
  rw [htuned'.points] at hi
  rw [htuned'.points, htuned'.step, hsize]
  unfold raw at hread ⊢
  rw [hraw, hread _ (by omega), Parabola.after_at]
  have hindex : k + 1 - max n HOLO_MAX_PTS + (i + (max n HOLO_MAX_PTS - n)) = k + 1 - n + i := by
    omega
  rw [hindex, Nat.cast_add]
  congr 1
  ring

omit [LinearOrder K] [IsStrictOrderedRing K] in
theorem value_of_fitted {n : ℕ} {timeStep : K} {f : PolyHoloA K} (h : f.Tuned n timeStep)
    {q : Parabola K} (hfitted : f.Fitted q) :
    f.getSmoothedValue = q.at_ (timeStep * (((n : ℤ) - 1 : ℤ) : K)) := by
  obtain ⟨ha, hb, hc, hsolved⟩ := hfitted
  unfold getSmoothedValue Parabola.at_
  rw [hsolved, if_neg Bool.false_ne_true, ha, hb, hc, h.points, h.step]
  ring

section derivatives

variable {n : ℕ} {timeStep newest : K} {f : PolyHoloA K} {q : Parabola K}

omit [LinearOrder K] [IsStrictOrderedRing K] in
/-- The last points are those of a parabola. -/
def EndsWith (f : PolyHoloA K) (q : Parabola K) (timeStep newest : K) : Prop :=
  ∀ i < 16, f.raw (f.arraySize_ - 1 - i) = q.at_ (newest - i * timeStep)

theorem derivative_of_parabola (h : f.Tuned n timeStep) (hstep : timeStep ≠ 0)
    (hlarge : 16 ≤ f.arraySize_) (hends : f.EndsWith q timeStep newest) :
    f.getSmoothedDerivative = q.slope newest := by
  have hsum : (firstWeights.zipIdx.map fun (weight, k) =>
      (weight : K) * f.raw (15 - k + (f.arraySize_ - 15 - 1))).sum =
      ((2856 : ℕ) : K) * timeStep * q.slope newest := by
    rw [← firstWeights_parabola]
    congr 1
    apply List.map_congr_left
    rintro ⟨weight, i⟩ hmem
    have hi : i < 16 := (by decide : ∀ p ∈ firstWeights.zipIdx, p.2 < 16) _ hmem
    have hindex : 15 - i + (f.arraySize_ - 15 - 1) = f.arraySize_ - 1 - i := by omega
    dsimp only
    rw [hindex, hends i hi]
  have h2856 : ((2856 : ℕ) : K) ≠ 0 := by exact_mod_cast (by decide : 2856 ≠ 0)
  unfold getSmoothedDerivative
  dsimp only
  rw [hsum, h.step]
  field_simp

theorem secondDerivative_of_parabola (h : f.Tuned n timeStep) (hstep : timeStep ≠ 0)
    (hlarge : 16 ≤ f.arraySize_) (hends : f.EndsWith q timeStep newest) :
    f.getSmoothedSecondDerivative = q.bend := by
  have hmiddle : 11 - 5 + (f.arraySize_ - 11 - 1) = f.arraySize_ - 1 - 5 := by omega
  have hsum : ((-28 : ℤ) : K) * f.raw (11 - 5 + (f.arraySize_ - 11 - 1)) +
      (secondWeights.zipIdx.map fun (weight, k) => (weight : K) *
        (f.raw (11 - 5 - (k + 1) + (f.arraySize_ - 11 - 1)) +
          f.raw (11 - 5 + (k + 1) + (f.arraySize_ - 11 - 1)))).sum =
      ((256 : ℕ) : K) * timeStep * timeStep * q.bend := by
    rw [← secondWeights_parabola q newest timeStep, hmiddle, hends 5 (by decide)]
    congr 2
    apply List.map_congr_left
    rintro ⟨weight, i⟩ hmem
    have hi : i < 5 := (by decide : ∀ p ∈ secondWeights.zipIdx, p.2 < 5) _ hmem
    have hbefore : 11 - 5 - (i + 1) + (f.arraySize_ - 11 - 1) =
        f.arraySize_ - 1 - (5 + (i + 1)) := by
      omega
    have hafter : 11 - 5 + (i + 1) + (f.arraySize_ - 11 - 1) =
        f.arraySize_ - 1 - (5 - (i + 1)) := by
      omega
    dsimp only
    rw [hbefore, hafter, hends _ (by omega), hends _ (by omega)]
  have h256 : ((256 : ℕ) : K) ≠ 0 := by exact_mod_cast (by decide : 256 ≠ 0)
  unfold getSmoothedSecondDerivative
  dsimp only
  rw [hsum, h.step]
  field_simp

end derivatives

/-- Where the array is full and the int counts the points, the filter gives a parabola and its
derivatives at the newest point. -/
theorem parabolas_are_reproduced {n : ℕ} {counted : ℤ} {timeStep : K} (hstep : 0 < timeStep)
    (hpivots : PivotsExceed n timeStep) (q : Parabola K) {k : ℕ} (hk : max n HOLO_MAX_PTS ≤ k)
    (hcount : 0 ≤ counted) (hfew : counted + k < 2 ^ 31) :
    let f := run addRawDataPoint (initialized n counted timeStep) (q.samples timeStep k)
    let newest := ((k - 1 : ℕ) : K) * timeStep
    f.getSmoothedValue = q.at_ newest ∧ f.getSmoothedDerivative = q.slope newest ∧
      f.getSmoothedSecondDerivative = q.bend := by
  intro f newest
  have hn : n ≤ max n HOLO_MAX_PTS := le_max_left _ _
  have hpos : 16 ≤ max n HOLO_MAX_PTS := le_max_right _ _
  have htuned : f.Tuned n timeStep := run_tuned (initialized_tuned n counted timeStep) _
  have hsize : f.arraySize_ = max n HOLO_MAX_PTS := run_arraySize_ n counted timeStep _
  have hlarge : 16 ≤ f.arraySize_ := by rwa [hsize]
  have hends : f.EndsWith q timeStep newest := by
    intro i hi
    rw [hsize]
    exact raw_back n counted timeStep q hk hi
  refine ⟨?_, derivative_of_parabola htuned hstep.ne' hlarge hends,
    secondDerivative_of_parabola htuned hstep.ne' hlarge hends⟩
  rw [value_of_fitted htuned (run_fitted hpivots q hk hcount hfew), Parabola.after_at]
  congr 1
  show _ = ((k - 1 : ℕ) : K) * timeStep
  rw [Nat.cast_sub (by omega), Nat.cast_sub (by omega)]
  push_cast
  ring

theorem pivotsExceed_fifteen_iff {timeStep : K} (hstep : 0 < timeStep) :
    PivotsExceed 15 timeStep ↔
      1 / ((10000000000 : ℕ) : K) ≤ ((280 : ℕ) : K) * timeStep ^ 2 ∧
        1 / ((10000000000 : ℕ) : K) ≤ ((12376 : ℕ) : K) / ((3 : ℕ) : K) * timeStep ^ 4 := by
  have h1 : (initialized 15 0 timeStep).sumX_ = 105 * timeStep := by
    simp only [initialized, Finset.sum_range_succ, Finset.sum_range_zero]
    push_cast
    ring
  have h2 : (initialized 15 0 timeStep).sumX2_ = 1015 * timeStep ^ 2 := by
    simp only [initialized, Finset.sum_range_succ, Finset.sum_range_zero]
    push_cast
    ring
  have h3 : (initialized 15 0 timeStep).sumX3_ = 11025 * timeStep ^ 3 := by
    simp only [initialized, Finset.sum_range_succ, Finset.sum_range_zero]
    push_cast
    ring
  have h4 : (initialized 15 0 timeStep).sumX4_ = 127687 * timeStep ^ 4 := by
    simp only [initialized, Finset.sum_range_succ, Finset.sum_range_zero]
    push_cast
    ring
  have hpoints : ((initialized 15 0 timeStep).polyPoints_ : K) = 15 := by
    show ((15 : ℕ) : K) = 15
    exact Nat.cast_ofNat
  have hne := hstep.ne'
  have hfar : ∀ {x : K}, 0 ≤ x → (¬ CloseToZero x ↔ 1 / ((10000000000 : ℕ) : K) ≤ x) := by
    intro x hx
    unfold CloseToZero
    rw [abs_of_nonneg hx, not_lt]
  have h00 : ((initialized 15 0 timeStep).equations 0 0 0).a_ 0 0 = 15 := by
    simp [equations, MatrixSolver.setAElement, MatrixSolver.setBElement, hpoints]
  have h11 : ((initialized 15 0 timeStep).equations 0 0 0).eliminateFirst.a_ 1 1 =
      ((280 : ℕ) : K) * timeStep ^ 2 := by
    simp [equations, MatrixSolver.setAElement, MatrixSolver.setBElement,
      MatrixSolver.eliminateFirst, MatrixSolver.eliminate, hpoints, h1, h2]
    ring
  have h22 : (((initialized 15 0 timeStep).equations 0 0 0).eliminateFirst.eliminate 1 2).a_ 2 2 =
      ((12376 : ℕ) : K) / ((3 : ℕ) : K) * timeStep ^ 4 := by
    simp [equations, MatrixSolver.setAElement, MatrixSolver.setBElement,
      MatrixSolver.eliminateFirst, MatrixSolver.eliminate, hpoints, h1, h2, h3, h4]
    have hdiv : (1015 * timeStep ^ 2 - 105 * timeStep / 15 * (105 * timeStep)) =
        280 * timeStep ^ 2 := by
      ring
    rw [hdiv]
    field_simp
    ring
  unfold PivotsExceed
  dsimp only
  rw [h00, h11, h22, hfar (by norm_num), hfar (by positivity), hfar (by positivity)]
  apply and_iff_right
  norm_num

/-- The parabola `1 + 2 t + 3 t²`, seen twenty times at intervals of one second. -/
theorem parabolas_are_reproduced_after_twenty_points :
    (run addRawDataPoint (initialized 15 0 (1 : ℚ))
        ((⟨1, 2, 3⟩ : Parabola ℚ).samples 1 20)).getSmoothedDerivative =
      (⟨1, 2, 3⟩ : Parabola ℚ).slope (((20 - 1 : ℕ) : ℚ) * 1) :=
  (parabolas_are_reproduced one_pos
    ((pivotsExceed_fifteen_iff one_pos).mpr ⟨by norm_num, by norm_num⟩) ⟨1, 2, 3⟩
    (by decide) le_rfl (by decide)).2.1

/-- When the count overflows, the fit is left as it was one point ago. -/
theorem value_after_overflow {n : ℕ} {counted : ℤ} {timeStep : K}
    (hpivots : PivotsExceed n timeStep) (q : Parabola K) {k : ℕ} (hk : max n HOLO_MAX_PTS ≤ k)
    (hcount : 0 ≤ counted) (hlast : counted + k = 2 ^ 31 - 1) :
    (run addRawDataPoint (initialized n counted timeStep)
      (q.samples timeStep (k + 1))).getSmoothedValue = q.at_ (((k : ℤ) - 1 : ℤ) * timeStep) := by
  have hn : n ≤ max n HOLO_MAX_PTS := le_max_left _ _
  have hfitted := run_fitted hpivots q hk hcount (by omega)
  have htuned := run_tuned (initialized_tuned n counted timeStep) (q.samples timeStep k)
  have hnumber := samples_numPoints n timeStep q (k := k) hcount (by omega)
  rw [Parabola.samples_succ, run_snoc]
  generalize run addRawDataPoint (initialized n counted timeStep) (q.samples timeStep k) = g at *
  generalize q.at_ (k * timeStep) = v at *
  have hwrapped : (g.updateArray v).numPoints_ = -2 ^ 31 := by
    rw [updateArray_numPoints, hnumber, hlast]
    decide
  have hkept : g.addRawDataPoint v = g.updateArray v := by
    unfold addRawDataPoint
    dsimp only
    rw [if_neg (by rw [hwrapped]; omega)]
  rw [hkept, value_of_fitted (updateArray_tuned htuned v)
    (⟨hfitted.a, hfitted.b, hfitted.c, rfl⟩ : (g.updateArray v).Fitted _), Parabola.after_at]
  congr 1
  rw [Nat.cast_sub (by omega)]
  push_cast
  ring

/-- The time itself as the signal: after 2^31 seconds the value is that of a second ago. -/
theorem the_count_overflows :
    ¬ ∀ (timeStep : ℚ), 0 < timeStep → PivotsExceed 15 timeStep → ∀ (q : Parabola ℚ) (k : ℕ),
      16 ≤ k → (run addRawDataPoint (initialized 15 0 timeStep)
        (q.samples timeStep k)).getSmoothedValue = q.at_ (((k : ℤ) - 1 : ℤ) * timeStep) := by
  intro h
  have hpivots : PivotsExceed 15 (1 : ℚ) :=
    (pivotsExceed_fifteen_iff one_pos).mpr ⟨by norm_num, by norm_num⟩
  have hsaid := h 1 one_pos hpivots ⟨0, 1, 0⟩ (2147483647 + 1) (by norm_num)
  have hgiven := value_after_overflow hpivots ⟨0, 1, 0⟩ (k := 2147483647) (by decide) le_rfl
    (by norm_num)
  rw [hgiven] at hsaid
  norm_num [Parabola.at_] at hsaid

end PolyHoloA

end carma.filter
