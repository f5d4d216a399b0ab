-- Records that are written into arrays place by place, and read back up to the first
-- place that holds none.
import Mathlib.Data.List.Basic

namespace lib.records

variable {A X Y : Type}

/-- All records, from a place on. -/
def writeFrom (write : A → ℕ → X → A) : ℕ → List X → A → A
  | _, [], a => a
  | j, x :: xs, a => writeFrom write (j + 1) xs (write a j x)

/-- At most `n` records, from a place on. -/
def readFrom (read : A → ℕ → Option Y) (a : A) : ℕ → ℕ → List Y
  | 0, _ => []
  | n + 1, j =>
    match read a j with
    | none => []
    | some y => y :: readFrom read a n (j + 1)

/-- What no record touches stays as it is. -/
theorem writeFrom_frame {B : Type} (write : A → ℕ → X → A) (part : A → B)
    (h : ∀ a j x, part (write a j x) = part a) (xs : List X) (a : A) (j : ℕ) :
    part (writeFrom write j xs a) = part a := by
  induction xs generalizing a j with
  | nil => rfl
  | cons x xs ih =>
    unfold writeFrom
    rw [ih, h]

theorem readFrom_congr {read : A → ℕ → Option Y} {a b : A} {n j : ℕ}
    (h : ∀ i, i < j + n → read a i = read b i) : readFrom read a n j = readFrom read b n j := by
  induction n generalizing j with
  | zero => rfl
  | succ n ih =>
    unfold readFrom
    rw [h j (by omega), ih fun i hi => h i (by omega)]

/-- A record that is written to a blank place is read there as what is received for it, and
the other places stay as they are. -/
structure Keeps (blank : A → ℕ → Prop) (write : A → ℕ → X → A) (read : A → ℕ → Option Y)
    (received : X → Y) : Prop where
  read_blank : ∀ {a j}, blank a j → read a j = none
  read_own : ∀ {a j} x, blank a j → read (write a j x) j = some (received x)
  read_other : ∀ {a i j} x, i ≠ j → read (write a j x) i = read a i
  blank_other : ∀ {a i j} x, i ≠ j → blank a i → blank (write a j x) i

section laws

variable {blank : A → ℕ → Prop} {write : A → ℕ → X → A} {read : A → ℕ → Option Y}
variable {received : X → Y} (h : Keeps blank write read received)
include h

theorem Keeps.read_before (xs : List X) (a : A) {i j : ℕ} (hij : i < j) :
    read (writeFrom write j xs a) i = read a i := by
  induction xs generalizing j a with
  | nil => rfl
  | cons x xs ih =>
    unfold writeFrom
    rw [ih _ (by omega), h.read_other x (by omega)]

theorem Keeps.blank_after {xs : List X} {a : A} {i j : ℕ} (hblank : ∀ i, j ≤ i → blank a i)
    (hi : j + xs.length ≤ i) : blank (writeFrom write j xs a) i := by
  induction xs generalizing j a with
  | nil => exact hblank i hi
  | cons x xs ih =>
    rw [List.length_cons] at hi
    unfold writeFrom
    apply ih _ (by omega)
    intro i hi
    exact h.blank_other x (by omega) (hblank i (by omega))

theorem Keeps.readFrom_writeFrom {xs : List X} {a : A} {n j : ℕ} (hlength : xs.length ≤ n)
    (hblank : ∀ i, j ≤ i → blank a i) :
    readFrom read (writeFrom write j xs a) n j = xs.map received := by
  induction xs generalizing n j a with
  | nil =>
    cases n with
    | zero => rfl
    | succ n =>
      unfold readFrom writeFrom
      rw [h.read_blank (hblank j (Nat.le_refl j))]
      rfl
  | cons x xs ih =>
    cases n with
    | zero => simp at hlength
    | succ n =>
      have hown : read (writeFrom write (j + 1) xs (write a j x)) j = some (received x) := by
        rw [h.read_before xs _ (Nat.lt_succ_self j)]
        exact h.read_own x (hblank j (Nat.le_refl j))
      have hlater : ∀ i, j + 1 ≤ i → blank (write a j x) i := by
        intro i hi
        exact h.blank_other x (by omega) (hblank i (by omega))
      have hrest := ih (by simpa using hlength) hlater
      unfold readFrom
      rw [writeFrom, hown, List.map_cons]
      exact congrArg _ hrest

end laws

end lib.records
