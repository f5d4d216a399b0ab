-- Times at a fixed distance from each other.
import Mathlib.Algebra.Order.Ring.Defs
import Mathlib.Data.List.Chain
import Mathlib.Algebra.Ring.Defs
import Mathlib.Tactic.Linarith

namespace lib.ticks

variable {K : Type*} [Ring K]

/-- The first `n` times from `t` on. -/
def times (h : K) : K → ℕ → List K
  | _, 0 => []
  | t, n + 1 => t :: times h (t + h) n

/-- Each time of a list is the one before it and one step. -/
def Steady (h : K) (ts : List K) : Prop := ts.IsChain (fun s t => t - s = h)

@[simp] theorem steady_nil (h : K) : Steady h [] := List.isChain_nil

theorem times_steady (h t : K) (n : ℕ) : Steady h (times h t n) := by
  induction n generalizing t with
  | zero => exact steady_nil h
  | succ n ih =>
    refine List.isChain_cons.mpr ⟨?_, ih _⟩
    intro s hs
    cases n with
    | zero => cases hs
    | succ n =>
      obtain rfl : t + h = s := Option.some.inj hs
      exact add_sub_cancel_left t h

theorem times_getLast? (h t : K) (n : ℕ) :
    (times h t (n + 1)).getLast? = some (t + n * h) := by
  induction n generalizing t with
  | zero => simp [times]
  | succ n ih =>
    have hne : times h (t + h) (n + 1) ≠ [] := List.cons_ne_nil _ _
    rw [times, List.getLast?_cons_of_ne_nil hne, ih, Nat.cast_succ, add_mul, one_mul]
    rw [add_assoc, add_comm h]

/-- A list goes on steadily just when the next time is one step after its last. -/
theorem steady_append {h : K} {ss ts : List K} :
    Steady h (ss ++ ts) ↔ Steady h ss ∧ Steady h ts ∧
      ∀ s ∈ ss.getLast?, ∀ t ∈ ts.head?, t - s = h := List.isChain_append

theorem steady_left {h : K} {ss ts : List K} (hpre : ss <+: ts) (hts : Steady h ts) :
    Steady h ss := by
  obtain ⟨rest, rfl⟩ := hpre
  exact (steady_append.mp hts).1

/-! ## Covers -/

variable {F : Type*} [CommRing F] [LinearOrder F]

/-- A time is within `m` of one of the list. -/
def Within (m : F) (ts : List F) (x : F) : Prop := ∃ t ∈ ts, t - m ≤ x ∧ x ≤ t + m

theorem within_singleton {m t x : F} : Within m [t] x ↔ t - m ≤ x ∧ x ≤ t + m := by
  simp [Within]

/-- With steps of at most twice the margin there are no gaps, up to the margin past the end. -/
theorem times_cover [IsStrictOrderedRing F] {h m t x : F} {n : ℕ} (hstep : h ≤ 2 * m)
    (hlow : t - m ≤ x) (hhigh : x ≤ t + n * h + m) : Within m (times h t (n + 1)) x := by
  induction n generalizing t with
  | zero =>
    rw [Nat.cast_zero, zero_mul, add_zero] at hhigh
    exact ⟨t, List.mem_cons_self, hlow, hhigh⟩
  | succ n ih =>
    by_cases hnear : x ≤ t + m
    · exact ⟨t, List.mem_cons_self, hlow, hnear⟩
    · push_cast at hhigh
      obtain ⟨s, hs, hbounds⟩ := ih (t := t + h) (by linarith) (by linarith)
      exact ⟨s, List.mem_cons_of_mem _ hs, hbounds⟩

end lib.ticks
