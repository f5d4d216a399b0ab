-- Delta coding: a list of numbers is kept as a start and the steps from one number to
-- the next, each cut to what the code can hold. What is lost of the steps adds up.
import Mathlib.Algebra.Order.Field.Basic
import Mathlib.Tactic.Linarith
import Mathlib.Tactic.Ring

namespace lib.deltas

variable {K : Type*} [Field K]

/-- The steps from each number to the next. -/
def steps : K → List K → List K
  | _, [] => []
  | x, y :: ys => (y - x) :: steps y ys

/-- The numbers that the steps lead to. -/
def walk : K → List K → List K
  | _, [] => []
  | x, d :: ds => (x + d) :: walk (x + d) ds

@[simp] theorem steps_length (x : K) (ys : List K) : (steps x ys).length = ys.length := by
  induction ys generalizing x with
  | nil => rfl
  | cons y ys ih => simp [steps, ih]

@[simp] theorem walk_length (x : K) (ds : List K) : (walk x ds).length = ds.length := by
  induction ds generalizing x with
  | nil => rfl
  | cons d ds ih => simp [walk, ih]

variable [LinearOrder K]

/-- The numbers differ by less than `k + 1`, then `k + 2`, ... times `c`. -/
def CloseFrom (c : K) : ℕ → List K → List K → Prop
  | k, x :: xs, y :: ys => |x - y| < (k + 1) * c ∧ CloseFrom c (k + 1) xs ys
  | _, _, _ => True

theorem closeFrom_iff (c : K) (k : ℕ) (xs ys : List K) :
    CloseFrom c k xs ys ↔ ∀ (i : ℕ) (x y : K), xs[i]? = some x → ys[i]? = some y →
      |x - y| < ((k + i : ℕ) + 1) * c := by
  induction xs generalizing k ys with
  | nil => simp [CloseFrom]
  | cons x xs ih =>
    cases ys with
    | nil => simp [CloseFrom]
    | cons y ys =>
      unfold CloseFrom
      rw [ih]
      constructor
      · rintro ⟨hhead, htail⟩ i a b ha hb
        cases i with
        | zero =>
          rw [List.getElem?_cons_zero, Option.some_inj] at ha hb
          subst ha hb
          exact hhead
        | succ i =>
          have hi := htail i a b ha hb
          rwa [show k + 1 + i = k + (i + 1) by omega] at hi
      · intro h
        refine ⟨by simpa using h 0 x y rfl rfl, ?_⟩
        intro i a b ha hb
        have hi := h (i + 1) a b ha hb
        rwa [show k + (i + 1) = k + 1 + i by omega] at hi

variable [IsStrictOrderedRing K]

/-- If each step loses less than `c`, or else very much, then the numbers stay within
the growing bound just when each step loses less than `c`. -/
theorem walk_close_iff {c : K} {cut : K → K} {n : ℕ}
    (hcut : ∀ d, |d - cut d| < c ∨ 2 * n * c ≤ |d - cut d|) (hc : 0 ≤ c) {k : ℕ} {x y : K}
    {xs : List K} (hstart : |x - y| < (k + 1) * c) (hn : k + 1 + xs.length ≤ n) :
    CloseFrom c (k + 1) xs (walk y ((steps x xs).map cut)) ↔
      ∀ d ∈ steps x xs, |d - cut d| < c := by
  induction xs generalizing k x y with
  | nil => simp [CloseFrom, steps]
  | cons x' xs ih =>
    rw [List.length_cons] at hn
    have herr : x' - (y + cut (x' - x)) = (x - y) + ((x' - x) - cut (x' - x)) := by ring
    have hcast : ((k + 1 : ℕ) : K) + 1 = k + 2 := by
      push_cast
      ring
    simp only [steps, List.map_cons, walk, CloseFrom, List.forall_mem_cons]
    rw [herr, hcast]
    constructor
    · rintro ⟨hnext, hrest⟩
      have hloss : |(x' - x) - cut (x' - x)| < c := by
        rcases hcut (x' - x) with hlt | hge
        · exact hlt
        · -- a step that loses very much cannot be made up for by the error before it
          exfalso
          have htri := abs_sub_abs_le_abs_add ((x' - x) - cut (x' - x)) (x - y)
          have hsize : (2 * k + 4 : K) ≤ 2 * n := by
            have : 2 * k + 4 ≤ 2 * n := by omega
            exact_mod_cast this
          have hbig := mul_le_mul_of_nonneg_right hsize hc
          rw [add_comm] at hnext
          linarith
      refine ⟨hloss, ?_⟩
      rw [← herr, ← hcast] at hnext
      exact (ih hnext (by omega)).mp hrest
    · rintro ⟨hloss, hrest⟩
      have hnext : |(x - y) + ((x' - x) - cut (x' - x))| < (k + 2) * c := by
        have htri := abs_add_le (x - y) ((x' - x) - cut (x' - x))
        linarith
      refine ⟨hnext, ?_⟩
      rw [← herr, ← hcast] at hnext
      exact (ih hnext (by omega)).mpr hrest

end lib.deltas
