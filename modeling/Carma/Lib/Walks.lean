-- Walks of a labelled step relation: the lists of labels that lead from one
-- state to another, and labels that switch something on and off in turn.
import Mathlib.Data.List.Basic

namespace lib.walks

variable {σ α : Type*} {step : σ → α → σ → Prop}

/-- The labels lead from the first state to the last. -/
def Walk (step : σ → α → σ → Prop) : σ → List α → σ → Prop
  | s, [], t => s = t
  | s, a :: as, t => ∃ u, step s a u ∧ Walk step u as t

@[simp] theorem walk_nil {s t : σ} : Walk step s [] t ↔ s = t := Iff.rfl

@[simp] theorem walk_cons {s t : σ} {a : α} {as : List α} :
    Walk step s (a :: as) t ↔ ∃ u, step s a u ∧ Walk step u as t := Iff.rfl

theorem walk_append {s t : σ} {as bs : List α} :
    Walk step s (as ++ bs) t ↔ ∃ u, Walk step s as u ∧ Walk step u bs t := by
  induction as generalizing s with
  | nil => simp
  | cons a as ih =>
    simp only [List.cons_append, walk_cons, ih]
    constructor
    · rintro ⟨v, hv, u, hu, hb⟩
      exact ⟨u, ⟨v, hv, hu⟩, hb⟩
    · rintro ⟨u, ⟨v, hv, hu⟩, hb⟩
      exact ⟨v, hv, u, hu, hb⟩

theorem walk_of_stuck {s t : σ} {as : List α} (hstuck : ∀ a u, ¬ step s a u)
    (h : Walk step s as t) : as = [] ∧ t = s := by
  cases as with
  | nil => exact ⟨rfl, h.symm⟩
  | cons a as =>
    obtain ⟨u, hu, -⟩ := h
    exact absurd hu (hstuck a u)

/-! ## Switches -/

/-- A list of switches that begins with `b` and changes each time. -/
def Alternates : Bool → List Bool → Prop
  | _, [] => True
  | b, x :: xs => x = b ∧ Alternates (!b) xs

@[simp] theorem alternates_nil (b : Bool) : Alternates b [] := trivial

theorem alternates_of_prefix {b : Bool} {xs ys : List Bool} (h : Alternates b ys)
    (hpre : xs <+: ys) : Alternates b xs := by
  induction xs generalizing b ys with
  | nil => trivial
  | cons x xs ih =>
    cases ys with
    | nil => simp at hpre
    | cons y ys =>
      obtain ⟨rfl, hrest⟩ := List.cons_prefix_cons.mp hpre
      exact ⟨h.1, ih h.2 hrest⟩

/-- The switches at even places are the first one, those at odd places are the other. -/
theorem alternates_getElem? {b x : Bool} {xs : List Bool} (h : Alternates b xs) {i : ℕ}
    (hx : xs[i]? = some x) : x = (b == (i % 2 == 0)) := by
  induction xs generalizing b i with
  | nil => simp at hx
  | cons y ys ih =>
    cases i with
    | zero =>
      obtain rfl : y = x := by simpa using hx
      simpa using h.1
    | succ i =>
      have hnext := ih h.2 (i := i) (by simpa using hx)
      rw [hnext]
      have hparity : ((i + 1) % 2 == 0) = !(i % 2 == 0) := by
        rcases Nat.mod_two_eq_zero_or_one i with hi | hi <;> simp [Nat.add_mod, hi]
      rw [hparity]
      cases b <;> simp

/-- A step that leaves `on` as it was, or switches it to what it was not, or is the last. -/
def Switches (step : σ → α → σ → Prop) (on : σ → Bool) (switch : α → Option Bool) : Prop :=
  ∀ s a t, step s a t →
    switch a = none ∧ on t = on s ∨ switch a = some (!on s) ∧ on t = !on s ∨
      switch a = none ∧ ∀ b u, ¬ step t b u

variable {on : σ → Bool} {switch : α → Option Bool}

theorem walk_alternates (hstep : Switches step on switch) {s t : σ} {as : List α}
    (h : Walk step s as t) : Alternates (!on s) (as.filterMap switch) := by
  induction as generalizing s with
  | nil => trivial
  | cons a as ih =>
    obtain ⟨u, hu, hrest⟩ := h
    have htail := ih hrest
    rcases hstep s a u hu with ⟨hnone, hsame⟩ | ⟨hsome, hchanged⟩ | ⟨hnone, hlast⟩
    · rw [List.filterMap_cons_none hnone, ← hsame]
      exact htail
    · rw [List.filterMap_cons_some hsome]
      rw [hchanged] at htail
      exact ⟨rfl, htail⟩
    · obtain ⟨rfl, -⟩ := walk_of_stuck hlast hrest
      rw [List.filterMap_cons_none hnone]
      exact alternates_nil _

theorem walk_switched (hstep : Switches step on switch) {s t : σ} {as : List α}
    (h : Walk step s as t) (hgoes : ∃ b u, step t b u) :
    on t = (as.filterMap switch).getLast?.getD (on s) := by
  induction as generalizing s with
  | nil =>
    obtain rfl := h
    rfl
  | cons a as ih =>
    obtain ⟨u, hu, hrest⟩ := h
    have htail := ih hrest
    rcases hstep s a u hu with ⟨hnone, hsame⟩ | ⟨hsome, hchanged⟩ | ⟨hnone, hlast⟩
    · rw [List.filterMap_cons_none hnone, ← hsame]
      exact htail
    · rw [List.filterMap_cons_some hsome, List.getLast?_cons, Option.getD_some, ← hchanged]
      exact htail
    · obtain ⟨-, rfl⟩ := walk_of_stuck hlast hrest
      obtain ⟨b, v, hv⟩ := hgoes
      exact absurd hv (hlast b v)

end lib.walks
