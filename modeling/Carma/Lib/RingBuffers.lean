-- Buffers that go round: a fixed number of cells that are filled downwards, so that the newest
-- one lies just above the cell to be written next, and the older ones above it in turn.
import Mathlib.Algebra.BigOperators.Fin
import Mathlib.Algebra.Group.Fin.Basic
import Mathlib.Algebra.Group.Units.Equiv
import Mathlib.Tactic.Abel

namespace lib.ring_buffers

variable {n : ℕ} [NeZero n] {α : Type*}

/-- Some cells, and the one that is written next. -/
structure RingBuffer (n : ℕ) (α : Type*) where
  next : Fin n
  cells : Fin n → α

namespace RingBuffer

/-- The cell of an age: what is newest has the age 0. -/
def cellOf (next age : Fin n) : Fin n := next + 1 + age

def read (r : RingBuffer n α) (age : Fin n) : α := r.cells (cellOf r.next age)

/-- A new entry takes the next cell, and the one below it is the next. -/
def push (r : RingBuffer n α) (x : α) : RingBuffer n α :=
  ⟨r.next - 1, Function.update r.cells r.next x⟩

@[simp] theorem read_push_zero (r : RingBuffer n α) (x : α) : (r.push x).read 0 = x := by
  simp [read, push, cellOf]

/-- All entries but the oldest one grow older by one. -/
theorem read_push_of_ne (r : RingBuffer n α) (x : α) {age : Fin n} (h : age ≠ 0) :
    (r.push x).read age = r.read (age - 1) := by
  have hcell : cellOf (r.next - 1) age = cellOf r.next (age - 1) := by
    unfold cellOf
    abel
  have hother : cellOf r.next (age - 1) ≠ r.next := by
    unfold cellOf
    intro hsame
    apply h
    have hzero : r.next + 1 + (age - 1) = r.next + age := by abel
    rw [hzero] at hsame
    exact left_eq_add.mp hsame.symm
  unfold read push
  dsimp only
  rw [hcell, Function.update_of_ne hother]

/-- The buffer has the entries of a list with the newest first, as many as there are cells. -/
def Holds (r : RingBuffer n α) (newest : List α) : Prop :=
  ∀ (age : Fin n) (x : α), newest[(age : ℕ)]? = some x → r.read age = x

theorem holds_nil (r : RingBuffer n α) : r.Holds [] := by
  intro age x hx
  simp at hx

theorem Holds.push {r : RingBuffer n α} {newest : List α} (h : r.Holds newest) (x : α) :
    (r.push x).Holds (x :: newest) := by
  intro age y hy
  by_cases hage : age = 0
  · subst hage
    simpa using hy
  · obtain ⟨before, hbefore⟩ : ∃ before, (age : ℕ) = before + 1 :=
      Nat.exists_eq_succ_of_ne_zero (Fin.val_ne_zero_iff.mpr hage)
    have hprevious : ((age - 1 : Fin n) : ℕ) = before := by
      rw [Fin.val_sub_one_of_ne_zero hage, hbefore, Nat.add_sub_cancel]
    rw [read_push_of_ne r x hage]
    apply h
    rw [hprevious]
    rw [hbefore, List.getElem?_cons_succ] at hy
    exact hy

theorem sum_cells {M : Type*} [AddCommMonoid M] (next : Fin n) (f : Fin n → M) :
    ∑ i, f i = ∑ age, f (cellOf next age) :=
  (Equiv.sum_comp (Equiv.addLeft (next + 1)) f).symm

end RingBuffer

/-! ## Sums over indices -/

/-- A sum of products, index by index. -/
theorem sum_zipWith {α β M : Type} [AddCommMonoid M] (f : α → β → M) (d : β) (ws : List α)
    (xs : List β) : (List.zipWith f ws xs).sum =
      ∑ i : Fin ws.length, if (i : ℕ) < xs.length then f ws[i] (xs.getD i d) else 0 := by
  induction ws generalizing xs with
  | nil => simp
  | cons w ws ih =>
    cases xs with
    | nil => simp
    | cons x xs => simp [ih, Fin.sum_univ_succ]

theorem foldl_drop {M : Type} [AddCommMonoid M] {n : ℕ} (f : Fin n → M) (first : ℕ) (sum : M) :
    ((List.finRange n).drop first).foldl (fun sum i => sum + f i) sum =
      sum + ∑ i : Fin n, if first ≤ (i : ℕ) then f i else 0 := by
  induction n generalizing first sum with
  | zero => simp
  | succ n ih =>
    cases first with
    | zero =>
      have hrest := ih (fun i => f i.succ) 0 (sum + f 0)
      rw [List.drop_zero] at hrest
      rw [List.drop_zero, List.finRange_succ, List.foldl_cons, List.foldl_map, hrest,
        Fin.sum_univ_succ]
      simp [add_assoc]
    | succ first =>
      rw [List.finRange_succ, List.drop_succ_cons, ← List.map_drop, List.foldl_map, ih,
        Fin.sum_univ_succ]
      simp

end lib.ring_buffers
