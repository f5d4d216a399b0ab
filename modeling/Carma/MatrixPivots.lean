-- What the solver of three equations returns and when it throws. It works in place, which keeps
-- the solutions, and it exchanges rows in the first column only, so that the pivots of that one
-- ordering of the rows decide.
import Carma.MatrixSolver
import Mathlib.LinearAlgebra.Matrix.Determinant.Basic
import Mathlib.Data.Rat.Floor
import Mathlib.Tactic.NormNum

namespace carma.filter

namespace MatrixSolver

variable {K : Type} [Field K] [LinearOrder K]

/-! ## Setting and solving in place -/

omit [Field K] [LinearOrder K] in
/-- All elements are set, one after the other. -/
def setAll (s : MatrixSolver K) (A : Fin 3 → Fin 3 → K) (B : Fin 3 → K) : MatrixSolver K :=
  (List.finRange 3).foldl (fun s i =>
    ((List.finRange 3).foldl (fun s j => s.setAElement i j (A i j)) s).setBElement i (B i)) s

omit [Field K] [LinearOrder K] in
/-- Nothing is left of what was there before. -/
theorem setAll_eq (s : MatrixSolver K) (A : Fin 3 → Fin 3 → K) (B : Fin 3 → K) :
    s.setAll A B = ⟨A, B⟩ := by
  have ha : (s.setAll A B).a_ = A := by
    funext i j
    fin_cases i <;> fin_cases j <;> simp [setAll, setAElement, setBElement, List.finRange_succ]
  have hb : (s.setAll A B).b_ = B := by
    funext i
    fin_cases i <;> simp [setAll, setAElement, setBElement, List.finRange_succ]
  calc s.setAll A B = ⟨(s.setAll A B).a_, (s.setAll A B).b_⟩ := rfl
    _ = ⟨A, B⟩ := by rw [ha, hb]

/-- What `gauss` leaves in the matrix and the right side, also where it throws. -/
def afterGauss (s : MatrixSolver K) : MatrixSolver K :=
  match s.swapWith with
  | none => s
  | some row =>
    let s := (s.swapRows row).eliminateFirst
    if CloseToZero (s.a_ 1 1) then s else s.eliminate 1 2

variable [IsStrictOrderedRing K]

/-- A call keeps the solutions. -/
theorem afterGauss_solves (s : MatrixSolver K) (x : Fin 3 → K) :
    s.afterGauss.Solves x ↔ s.Solves x := by
  unfold afterGauss
  split
  · rfl
  · rename_i row hrow
    have h0 := ne_zero_of_not_closeToZero (swapWith_pivot hrow)
    dsimp only
    split
    · rw [eliminateFirst_solves h0, swapRows_solves]
    · rename_i h1
      rw [eliminated_solves h0 (ne_zero_of_not_closeToZero h1), swapRows_solves]

omit [IsStrictOrderedRing K] in
theorem afterGauss_of_gauss {s t : MatrixSolver K} (h : s.gauss = some t) : s.afterGauss = t := by
  unfold gauss at h
  unfold afterGauss
  cases hrow : s.swapWith with
  | none => simp [hrow] at h
  | some row =>
    simp only [hrow, Option.bind_eq_bind, Option.bind_some] at h
    split_ifs at h with h1
    simpa [h1] using h

theorem calls_solve (s : MatrixSolver K) (calls : ℕ) (x : Fin 3 → K) :
    (afterGauss^[calls] s).Solves x ↔ s.Solves x := by
  induction calls generalizing s with
  | zero => rfl
  | succ calls ih => rw [Function.iterate_succ_apply, ih, afterGauss_solves]

/-! ## Pivots -/

omit [IsStrictOrderedRing K] in
/-- With the rows in another order. -/
def reorder (s : MatrixSolver K) (order : Equiv.Perm (Fin 3)) : MatrixSolver K where
  a_ := s.a_ ∘ order
  b_ := s.b_ ∘ order

omit [LinearOrder K] [IsStrictOrderedRing K] in
theorem reorder_solves (s : MatrixSolver K) (order : Equiv.Perm (Fin 3)) (x : Fin 3 → K) :
    (s.reorder order).Solves x ↔ s.Solves x :=
  order.forall_congr_right (q := fun i =>
    s.a_ i 0 * x 0 + s.a_ i 1 * x 1 + s.a_ i 2 * x 2 = s.b_ i)

/-- A pivot of the elimination is close to zero, without an exchange of rows. -/
def SmallPivot (s : MatrixSolver K) : Prop :=
  CloseToZero (s.a_ 0 0) ∨ CloseToZero (s.eliminateFirst.a_ 1 1) ∨
    CloseToZero ((s.eliminateFirst.eliminate 1 2).a_ 2 2)

instance (s : MatrixSolver K) : Decidable s.SmallPivot :=
  inferInstanceAs (Decidable (_ ∨ _ ∨ _))

/-- The ordering that is taken: the first row that does not begin with nearly zero is exchanged
with the one on top, if there is such a row. -/
def taken (s : MatrixSolver K) : Equiv.Perm (Fin 3) :=
  match s.swapWith with
  | none => 1
  | some row => Equiv.swap 0 row

section determinant

omit [LinearOrder K] [IsStrictOrderedRing K]

theorem det_eliminate {s : MatrixSolver K} {k i : Fin 3} (hik : i ≠ k) (hpivot : s.a_ k k ≠ 0)
    (hzero : ∀ j < k, s.a_ k j = 0) :
    Matrix.det (Matrix.of (s.eliminate k i).a_) = Matrix.det (Matrix.of s.a_) := by
  have hrow : Matrix.of (s.eliminate k i).a_ = Matrix.updateRow (Matrix.of s.a_) i
      (s.a_ i + (-(s.a_ i k / s.a_ k k)) • s.a_ k) := by
    ext r j
    by_cases hr : r = i
    · subst hr
      simp only [Matrix.of_apply, eliminate_entry hpivot hzero, Matrix.updateRow_self,
        Pi.add_apply, Pi.smul_apply, smul_eq_mul]
      ring
    · rw [Matrix.updateRow_ne hr]
      simp [hr]
  rw [hrow]
  exact Matrix.det_updateRow_add_smul_self (Matrix.of s.a_) hik _

theorem det_eq_pivots {s : MatrixSolver K} (h0 : s.a_ 0 0 ≠ 0)
    (h1 : s.eliminateFirst.a_ 1 1 ≠ 0) :
    Matrix.det (Matrix.of s.a_) =
      s.a_ 0 0 * s.eliminateFirst.a_ 1 1 * (s.eliminateFirst.eliminate 1 2).a_ 2 2 := by
  have hfirst : Matrix.det (Matrix.of s.eliminateFirst.a_) = Matrix.det (Matrix.of s.a_) := by
    unfold eliminateFirst
    rw [det_eliminate (by decide) (by simpa using h0) (zero_before_first _),
      det_eliminate (by decide) h0 (zero_before_first _)]
  obtain ⟨h10, h20, h21⟩ := eliminated_zeros s
  have htop : (s.eliminateFirst.eliminate 1 2).a_ 0 0 = s.a_ 0 0 := by
    simp [eliminateFirst]
  have hmiddle : (s.eliminateFirst.eliminate 1 2).a_ 1 1 = s.eliminateFirst.a_ 1 1 := by
    simp
  rw [← hfirst, ← det_eliminate (k := 1) (i := 2) (by decide) h1 (zero_before_second s),
    Matrix.det_fin_three]
  simp only [Matrix.of_apply, h10, h20, h21, htop, hmiddle]
  ring

/-- Another order of the rows changes the sign at most. -/
theorem det_reorder_eq_zero_iff (s : MatrixSolver K) (order : Equiv.Perm (Fin 3)) :
    Matrix.det (Matrix.of (s.reorder order).a_) = 0 ↔ Matrix.det (Matrix.of s.a_) = 0 := by
  have hrows : Matrix.of (s.reorder order).a_ = (Matrix.of s.a_).submatrix order id := rfl
  rw [hrows, Matrix.det_permute]
  rcases Int.units_eq_one_or (Equiv.Perm.sign order) with hsign | hsign
  · simp [hsign]
  · simp [hsign]

end determinant

theorem smallPivot_of_det {s : MatrixSolver K} (h : Matrix.det (Matrix.of s.a_) = 0) :
    s.SmallPivot := by
  by_contra hnot
  simp only [SmallPivot, not_or] at hnot
  have h0 := ne_zero_of_not_closeToZero hnot.1
  have h1 := ne_zero_of_not_closeToZero hnot.2.1
  have h2 := ne_zero_of_not_closeToZero hnot.2.2
  rw [det_eq_pivots h0 h1] at h
  exact mul_ne_zero (mul_ne_zero h0 h1) h2 h

/-! ## The result -/

omit [LinearOrder K] [IsStrictOrderedRing K] in
/-- Equations in the form of a triangle are solved by the substitution. -/
theorem solves_backSubstitute {s : MatrixSolver K} (h10 : s.a_ 1 0 = 0) (h20 : s.a_ 2 0 = 0)
    (h21 : s.a_ 2 1 = 0) (h0 : s.a_ 0 0 ≠ 0) (h1 : s.a_ 1 1 ≠ 0) (h2 : s.a_ 2 2 ≠ 0) :
    s.Solves s.backSubstitute := by
  intro i
  fin_cases i
  · simp only [backSubstitute, Fin.zero_eta, Fin.isValue, Matrix.cons_val]
    field_simp
    ring
  · simp only [backSubstitute, Fin.mk_one, Fin.isValue, Matrix.cons_val, h10]
    field_simp
    ring
  · simp only [backSubstitute, Fin.reduceFinMk, Fin.isValue, Matrix.cons_val, h20, h21]
    field_simp
    ring

omit [IsStrictOrderedRing K] in
theorem getResult_eq (s : MatrixSolver K) : s.getResult =
    if (s.reorder s.taken).SmallPivot then none
    else some ((s.reorder s.taken).eliminateFirst.eliminate 1 2).backSubstitute := by
  unfold getResult gauss
  cases hrow : s.swapWith with
  | none =>
    have hsmall : (s.reorder s.taken).SmallPivot := by
      left
      unfold taken reorder
      rw [hrow]
      unfold swapWith at hrow
      split_ifs at hrow with h0
      exact h0
    rw [if_pos hsmall]
    rfl
  | some row =>
    have htaken : s.reorder s.taken = s.swapRows row := by
      unfold taken
      rw [hrow]
      rfl
    have h0 := swapWith_pivot hrow
    have htop : ((s.swapRows row).eliminateFirst.eliminate 1 2).a_ 0 0 =
        (s.swapRows row).a_ 0 0 := by
      simp [eliminateFirst]
    have hmiddle : ((s.swapRows row).eliminateFirst.eliminate 1 2).a_ 1 1 =
        (s.swapRows row).eliminateFirst.a_ 1 1 := by
      simp
    rw [htaken]
    by_cases h1 : CloseToZero ((s.swapRows row).eliminateFirst.a_ 1 1)
    · simp [SmallPivot, h1]
    · simp [SmallPivot, h0, h1, htop, hmiddle]

theorem solves_getResult {s : MatrixSolver K} {x : Fin 3 → K} (h : s.getResult = some x) :
    s.Solves x := by
  rw [getResult_eq] at h
  split_ifs at h with hsmall
  obtain rfl := Option.some.inj h
  simp only [SmallPivot, not_or] at hsmall
  have h0 := ne_zero_of_not_closeToZero hsmall.1
  have h1 := ne_zero_of_not_closeToZero hsmall.2.1
  have h2 := ne_zero_of_not_closeToZero hsmall.2.2
  obtain ⟨h10, h20, h21⟩ := eliminated_zeros (s.reorder s.taken)
  rw [← reorder_solves s s.taken, ← eliminated_solves h0 h1]
  apply solves_backSubstitute h10 h20 h21 _ _ h2
  · simpa [eliminateFirst] using h0
  · simpa using h1

omit [LinearOrder K] [IsStrictOrderedRing K] in
theorem solves_iff_mulVec (A : Fin 3 → Fin 3 → K) (B x : Fin 3 → K) :
    (⟨A, B⟩ : MatrixSolver K).Solves x ↔ (Matrix.of A).mulVec x = B := by
  unfold Solves
  rw [funext_iff]
  apply forall_congr'
  intro i
  simp [Matrix.mulVec, dotProduct, Fin.sum_univ_three]

/-- Once all elements are set, every call that returns something returns a solution, and the
first one throws just when the matrix is singular or a pivot is close to zero in the ordering of
the rows that is taken. -/
theorem getResult_after_setting (s : MatrixSolver K) (A : Fin 3 → Fin 3 → K) (B : Fin 3 → K) :
    (∀ (calls : ℕ) (x : Fin 3 → K), (afterGauss^[calls] (s.setAll A B)).getResult = some x →
        (Matrix.of A).mulVec x = B) ∧
      ((s.setAll A B).getResult = none ↔ Matrix.det (Matrix.of A) = 0 ∨
        ((s.setAll A B).reorder (s.setAll A B).taken).SmallPivot) := by
  rw [setAll_eq]
  constructor
  · intro calls x hresult
    rw [← solves_iff_mulVec, ← calls_solve _ calls]
    exact solves_getResult hresult
  · rw [getResult_eq]
    constructor
    · intro hnone
      split_ifs at hnone with hsmall
      exact Or.inr hsmall
    · rintro (hdet | hsmall)
      · rw [if_pos]
        apply smallPivot_of_det
        exact (det_reorder_eq_zero_iff _ _).mpr hdet
      · rw [if_pos hsmall]

/-- Three equations that are solved by 1, 2 and 3. -/
theorem getResult_of_three_equations :
    ((new : MatrixSolver ℚ).setAll ![![0, 1, 1], ![1, 1, 0], ![1, 0, 1]] ![5, 3, 4]).getResult =
        some ![1, 2, 3] ∧
      (Matrix.of ![![0, 1, 1], ![1, 1, 0], ![1, 0, 1]]).mulVec ![1, 2, 3] =
        (![5, 3, 4] : Fin 3 → ℚ) := by
  have hresult : ((new : MatrixSolver ℚ).setAll ![![0, 1, 1], ![1, 1, 0], ![1, 0, 1]]
      ![5, 3, 4]).getResult = some ![1, 2, 3] := by
    decide +kernel
  exact ⟨hresult, (getResult_after_setting new _ _).1 0 _ hresult⟩

/-- The second pivot is zero in the order in which the rows are set, and none is when the first
row and the last one are exchanged. -/
theorem a_matrix_that_is_not_singular_is_refused :
    ¬ ∀ (A : Fin 3 → Fin 3 → ℚ) (B : Fin 3 → ℚ), (new.setAll A B).getResult = none →
      Matrix.det (Matrix.of A) = 0 ∨
        ∀ order, ((new.setAll A B).reorder order).SmallPivot := by
  intro hall
  have hthrows : ((new : MatrixSolver ℚ).setAll ![![1, 1, 0], ![1, 1, 1], ![1, 0, 0]]
      ![1, 1, 1]).getResult = none := by
    decide +kernel
  rcases hall _ _ hthrows with hdet | hsmall
  · rw [Matrix.det_fin_three] at hdet
    revert hdet
    decide +kernel
  · have hswapped := hsmall (Equiv.swap 0 2)
    revert hswapped
    decide +kernel

end MatrixSolver

end carma.filter
