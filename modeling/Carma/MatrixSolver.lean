-- `MatrixSolver.java` of the signal plugin: three equations by elimination. It throws where a
-- pivot is close to zero, and what it returns otherwise is the one solution.
import Mathlib.Algebra.Order.Field.Basic
import Mathlib.Algebra.Order.AbsoluteValue.Basic
import Mathlib.Data.Fin.VecNotation
import Mathlib.Tactic.FieldSimp
import Mathlib.Tactic.FinCases
import Mathlib.Tactic.LinearCombination
import Mathlib.Tactic.Positivity

namespace carma.filter

variable {K : Type} [Field K] [LinearOrder K]

/-- `Math.abs(x) < 1.0e-10`. -/
def CloseToZero (x : K) : Prop := |x| < 1 / ((10000000000 : ℕ) : K)

instance (x : K) : Decidable (CloseToZero x) := inferInstanceAs (Decidable (_ < _))

/-- Three rows and three columns. -/
scoped instance neZero_three : NeZero 3 := ⟨three_ne_zero⟩

/-- The matrix and the right side. -/
structure MatrixSolver (K : Type) where
  a_ : Fin 3 → Fin 3 → K
  b_ : Fin 3 → K

namespace MatrixSolver

omit [LinearOrder K] in
def new : MatrixSolver K := ⟨fun _ _ => 0, fun _ => 0⟩

omit [Field K] [LinearOrder K] in
def setAElement (s : MatrixSolver K) (i j : Fin 3) (val : K) : MatrixSolver K :=
  { s with a_ := Function.update s.a_ i (Function.update (s.a_ i) j val) }

omit [Field K] [LinearOrder K] in
def setBElement (s : MatrixSolver K) (i : Fin 3) (val : K) : MatrixSolver K :=
  { s with b_ := Function.update s.b_ i val }

/-- The row that comes first: the first one that does not start with nearly zero. -/
def swapWith (s : MatrixSolver K) : Option (Fin 3) :=
  if CloseToZero (s.a_ 0 0) then
    if CloseToZero (s.a_ 1 0) then
      if CloseToZero (s.a_ 2 0) then none else some 2
    else some 1
  else some 0

omit [Field K] [LinearOrder K] in
def swapRows (s : MatrixSolver K) (i : Fin 3) : MatrixSolver K where
  a_ := s.a_ ∘ Equiv.swap 0 i
  b_ := s.b_ ∘ Equiv.swap 0 i

omit [LinearOrder K] in
/-- Column `k` of row `i` is eliminated with row `k`. -/
def eliminate (s : MatrixSolver K) (k i : Fin 3) : MatrixSolver K :=
  let mult := s.a_ i k / s.a_ k k
  { a_ := fun r j =>
      if r = i then
        if j = k then 0 else if k < j then s.a_ i j - mult * s.a_ k j else s.a_ i j
      else s.a_ r j
    b_ := fun r => if r = i then s.b_ i - mult * s.b_ k else s.b_ r }

omit [LinearOrder K] in
/-- The first column is eliminated. -/
def eliminateFirst (s : MatrixSolver K) : MatrixSolver K := (s.eliminate 0 1).eliminate 0 2

/-- `gauss`; there is no result where it throws. -/
def gauss (s : MatrixSolver K) : Option (MatrixSolver K) := do
  let row ← s.swapWith
  let s := (s.swapRows row).eliminateFirst
  if CloseToZero (s.a_ 1 1) then none else some (s.eliminate 1 2)

omit [LinearOrder K] in
/-- The substitution in reverse order. -/
def backSubstitute (s : MatrixSolver K) : Fin 3 → K :=
  let x2 := s.b_ 2 / s.a_ 2 2
  let x1 := (s.b_ 1 - x2 * s.a_ 1 2) / s.a_ 1 1
  let x0 := (s.b_ 0 - x2 * s.a_ 0 2 - x1 * s.a_ 0 1) / s.a_ 0 0
  ![x0, x1, x2]

def getResult (s : MatrixSolver K) : Option (Fin 3 → K) := do
  let s ← s.gauss
  if CloseToZero (s.a_ 2 2) ∨ CloseToZero (s.a_ 1 1) ∨ CloseToZero (s.a_ 0 0) then none
  else some s.backSubstitute

/-! ## Solutions -/

omit [LinearOrder K] in
/-- `x` solves the equations. -/
def Solves (s : MatrixSolver K) (x : Fin 3 → K) : Prop :=
  ∀ i, s.a_ i 0 * x 0 + s.a_ i 1 * x 1 + s.a_ i 2 * x 2 = s.b_ i

omit [LinearOrder K] in
theorem swapRows_solves (s : MatrixSolver K) (row : Fin 3) (x : Fin 3 → K) :
    (s.swapRows row).Solves x ↔ s.Solves x :=
  (Equiv.swap 0 row).forall_congr_right (q := fun i =>
    s.a_ i 0 * x 0 + s.a_ i 1 * x 1 + s.a_ i 2 * x 2 = s.b_ i)

omit [LinearOrder K] in
/-- A multiple of row `k`, which begins with zeros, is subtracted from row `i`. -/
theorem eliminate_entry {s : MatrixSolver K} {k : Fin 3} (hpivot : s.a_ k k ≠ 0)
    (hzero : ∀ j < k, s.a_ k j = 0) (i j : Fin 3) :
    (s.eliminate k i).a_ i j = s.a_ i j - s.a_ i k / s.a_ k k * s.a_ k j := by
  unfold eliminate
  dsimp only
  rw [if_pos rfl]
  rcases lt_trichotomy j k with hlt | rfl | hgt
  · rw [if_neg hlt.ne, if_neg hlt.not_gt, hzero j hlt, mul_zero, sub_zero]
  · rw [if_pos rfl, div_mul_cancel₀ _ hpivot, sub_self]
  · rw [if_neg hgt.ne', if_pos hgt]

omit [LinearOrder K] in
/-- An elimination keeps the solutions. -/
theorem eliminate_solves {s : MatrixSolver K} {k i : Fin 3} (hik : i ≠ k)
    (hpivot : s.a_ k k ≠ 0) (hzero : ∀ j < k, s.a_ k j = 0) (x : Fin 3 → K) :
    (s.eliminate k i).Solves x ↔ s.Solves x := by
  have hentry := eliminate_entry hpivot hzero i
  have hright : (s.eliminate k i).b_ i = s.b_ i - s.a_ i k / s.a_ k k * s.b_ k := by
    simp [eliminate]
  have hother : ∀ r, r ≠ i → (s.eliminate k i).a_ r = s.a_ r ∧ (s.eliminate k i).b_ r = s.b_ r := by
    intro r hr
    simp [eliminate, hr]
  constructor
  · intro h r
    by_cases hr : r = i
    · subst hr
      have hrow := h r
      have hk := h k
      rw [hentry, hentry, hentry, hright] at hrow
      rw [(hother k hik.symm).1, (hother k hik.symm).2] at hk
      linear_combination hrow + s.a_ r k / s.a_ k k * hk
    · have hrow := h r
      rw [(hother r hr).1, (hother r hr).2] at hrow
      exact hrow
  · intro h r
    by_cases hr : r = i
    · subst hr
      rw [hentry, hentry, hentry, hright]
      linear_combination h r - s.a_ r k / s.a_ k k * h k
    · rw [(hother r hr).1, (hother r hr).2]
      exact h r

omit [LinearOrder K] in
/-- Equations in the form of a triangle have one solution. -/
theorem backSubstitute_solves {s : MatrixSolver K} (h10 : s.a_ 1 0 = 0) (h20 : s.a_ 2 0 = 0)
    (h21 : s.a_ 2 1 = 0) (h0 : s.a_ 0 0 ≠ 0) (h1 : s.a_ 1 1 ≠ 0) (h2 : s.a_ 2 2 ≠ 0)
    {x : Fin 3 → K} (h : s.Solves x) : s.backSubstitute = x := by
  have hx2 : s.b_ 2 / s.a_ 2 2 = x 2 := by
    rw [div_eq_iff h2]
    linear_combination - h 2 + h20 * x 0 + h21 * x 1
  have hx1 : (s.b_ 1 - x 2 * s.a_ 1 2) / s.a_ 1 1 = x 1 := by
    rw [div_eq_iff h1]
    linear_combination - h 1 + h10 * x 0
  have hx0 : (s.b_ 0 - x 2 * s.a_ 0 2 - x 1 * s.a_ 0 1) / s.a_ 0 0 = x 0 := by
    rw [div_eq_iff h0]
    linear_combination - h 0
  unfold backSubstitute
  dsimp only
  rw [hx2, hx1, hx0]
  funext i
  fin_cases i <;> rfl

variable [IsStrictOrderedRing K]

theorem ne_zero_of_not_closeToZero {x : K} (h : ¬ CloseToZero x) : x ≠ 0 := by
  rintro rfl
  apply h
  unfold CloseToZero
  rw [abs_zero]
  positivity

omit [IsStrictOrderedRing K] in
theorem swapWith_pivot {s : MatrixSolver K} {row : Fin 3} (h : s.swapWith = some row) :
    ¬ CloseToZero ((s.swapRows row).a_ 0 0) := by
  unfold swapWith at h
  unfold swapRows
  simp only [Function.comp_apply, Equiv.swap_apply_left]
  split_ifs at h with h0 h1 h2 <;> cases h <;> assumption

omit [LinearOrder K] [IsStrictOrderedRing K] in
theorem eliminated_zeros (s : MatrixSolver K) :
    (s.eliminateFirst.eliminate 1 2).a_ 1 0 = 0 ∧ (s.eliminateFirst.eliminate 1 2).a_ 2 0 = 0 ∧
      (s.eliminateFirst.eliminate 1 2).a_ 2 1 = 0 := by
  simp [eliminateFirst, eliminate]

omit [LinearOrder K] [IsStrictOrderedRing K] in
@[simp] theorem eliminate_a_of_ne (s : MatrixSolver K) {k i r : Fin 3} (h : r ≠ i) :
    (s.eliminate k i).a_ r = s.a_ r := by
  simp [eliminate, h]

omit [LinearOrder K] [IsStrictOrderedRing K] in
/-- The left side of an elimination does not depend on the right one. -/
theorem eliminate_a_congr {s t : MatrixSolver K} (h : s.a_ = t.a_) (k i : Fin 3) :
    (s.eliminate k i).a_ = (t.eliminate k i).a_ := by
  simp [eliminate, h]

omit [LinearOrder K] [IsStrictOrderedRing K] in
theorem zero_before_first (s : MatrixSolver K) : ∀ j < (0 : Fin 3), s.a_ 0 j = 0 :=
  fun j hj => absurd hj (Fin.not_lt_zero j)

omit [LinearOrder K] [IsStrictOrderedRing K] in
theorem zero_before_second (s : MatrixSolver K) :
    ∀ j < (1 : Fin 3), s.eliminateFirst.a_ 1 j = 0 := by
  intro j hj
  have hj0 : j = 0 := by omega
  subst hj0
  simp [eliminateFirst, eliminate]

omit [LinearOrder K] [IsStrictOrderedRing K] in
theorem eliminateFirst_solves {s : MatrixSolver K} (h0 : s.a_ 0 0 ≠ 0) (x : Fin 3 → K) :
    s.eliminateFirst.Solves x ↔ s.Solves x := by
  unfold eliminateFirst
  rw [eliminate_solves (by decide) (by simpa using h0) (zero_before_first _),
    eliminate_solves (by decide) h0 (zero_before_first _)]

omit [LinearOrder K] [IsStrictOrderedRing K] in
/-- The whole elimination keeps the solutions. -/
theorem eliminated_solves {s : MatrixSolver K} (h0 : s.a_ 0 0 ≠ 0)
    (h1 : s.eliminateFirst.a_ 1 1 ≠ 0) (x : Fin 3 → K) :
    (s.eliminateFirst.eliminate 1 2).Solves x ↔ s.Solves x := by
  rw [eliminate_solves (by decide) h1 (zero_before_second s), eliminateFirst_solves h0]

/-- What is returned is the one solution. -/
theorem getResult_solves {s : MatrixSolver K} {r : Fin 3 → K} (h : s.getResult = some r)
    {x : Fin 3 → K} (hx : s.Solves x) : r = x := by
  unfold getResult gauss at h
  simp only [Option.bind_eq_bind, Option.bind_eq_some_iff] at h
  obtain ⟨s', ⟨row, hrow, hgauss⟩, hresult⟩ := h
  split_ifs at hgauss with h1
  split_ifs at hresult with hpivots
  obtain rfl := Option.some.inj hgauss
  obtain rfl := Option.some.inj hresult
  simp only [not_or] at hpivots
  obtain ⟨h10, h20, h21⟩ := eliminated_zeros (s.swapRows row)
  apply backSubstitute_solves h10 h20 h21 (ne_zero_of_not_closeToZero hpivots.2.2)
    (ne_zero_of_not_closeToZero hpivots.2.1) (ne_zero_of_not_closeToZero hpivots.1)
  rw [eliminated_solves (ne_zero_of_not_closeToZero (swapWith_pivot hrow))
    (ne_zero_of_not_closeToZero h1), swapRows_solves]
  exact hx

omit [IsStrictOrderedRing K] in
theorem getResult_isSome {s : MatrixSolver K} (h0 : ¬ CloseToZero (s.a_ 0 0))
    (h1 : ¬ CloseToZero (s.eliminateFirst.a_ 1 1))
    (h2 : ¬ CloseToZero ((s.eliminateFirst.eliminate 1 2).a_ 2 2)) :
    ∃ r, s.getResult = some r := by
  have hswap : s.swapRows 0 = s := by
    simp [swapRows]
  have h0' : ¬ CloseToZero (s.eliminateFirst.a_ 0 0) := by
    simpa [eliminateFirst] using h0
  refine ⟨(s.eliminateFirst.eliminate 1 2).backSubstitute, ?_⟩
  simp [getResult, gauss, swapWith, h0, hswap, h1, h2, h0']

end MatrixSolver

end carma.filter
