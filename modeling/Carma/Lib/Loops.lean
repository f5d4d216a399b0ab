-- Loops that need not end: what they end with, and that a turn which changes nothing never ends.
import Mathlib.Data.Nat.Notation
import Mathlib.Logic.Basic

namespace lib.loops

universe u v

variable {σ : Type u} {ρ : Type v}

/-- What one turn of a loop does. -/
inductive Turn (σ : Type u) (ρ : Type v)
  | goesOn (s : σ)
  | ends (r : ρ)

/-- The turn goes on, from a state of a kind. -/
def Turn.goesOnTo (p : σ → Bool) : Turn σ ρ → Bool
  | .goesOn s => p s
  | .ends _ => false

theorem Turn.goesOnTo_iff {p : σ → Bool} {t : Turn σ ρ} :
    t.goesOnTo p = true ↔ ∃ s, t = .goesOn s ∧ p s = true := by
  cases t <;> simp [Turn.goesOnTo]

/-- The result of the loop, if it ends within so many turns. -/
def loop (turn : σ → Turn σ ρ) : ℕ → σ → Option ρ
  | 0, _ => none
  | turns + 1, s =>
    match turn s with
    | .goesOn s => loop turn turns s
    | .ends r => some r

variable {turn : σ → Turn σ ρ}

/-- The loop ends with a result. -/
def EndsWith (turn : σ → Turn σ ρ) (s : σ) (r : ρ) : Prop := ∃ turns, loop turn turns s = some r

theorem loop_ends {s : σ} {r : ρ} (h : turn s = .ends r) (turns : ℕ) :
    loop turn (turns + 1) s = some r := by
  rw [loop, h]

theorem loop_goesOn {s s' : σ} (h : turn s = .goesOn s') (turns : ℕ) :
    loop turn (turns + 1) s = loop turn turns s' := by
  rw [loop, h]

theorem endsWith_ends_iff {s : σ} {r r' : ρ} (h : turn s = .ends r) :
    EndsWith turn s r' ↔ r' = r := by
  constructor
  · rintro ⟨_ | turns, hend⟩
    · cases hend
    · rw [loop_ends h] at hend
      exact (Option.some.inj hend).symm
  · rintro rfl
    exact ⟨1, loop_ends h 0⟩

theorem endsWith_goesOn_iff {s s' : σ} {r : ρ} (h : turn s = .goesOn s') :
    EndsWith turn s r ↔ EndsWith turn s' r := by
  constructor
  · rintro ⟨_ | turns, hend⟩
    · cases hend
    · rw [loop_goesOn h] at hend
      exact ⟨turns, hend⟩
  · rintro ⟨turns, hend⟩
    exact ⟨turns + 1, (loop_goesOn h turns).trans hend⟩

theorem EndsWith.unique {s : σ} {r r' : ρ} (h : EndsWith turn s r) (h' : EndsWith turn s r') :
    r = r' := by
  obtain ⟨turns, hend⟩ := h
  induction turns generalizing s with
  | zero => cases hend
  | succ turns ih =>
    cases hturn : turn s with
    | goesOn next =>
      rw [loop_goesOn hturn] at hend
      exact ih ((endsWith_goesOn_iff hturn).mp h') hend
    | ends last =>
      rw [loop_ends hturn] at hend
      rw [(endsWith_ends_iff hturn).mp h']
      exact (Option.some.inj hend).symm

/-- A turn that comes back to where it was comes back for ever. -/
theorem not_endsWith_of_stuck {s : σ} (h : turn s = .goesOn s) (r : ρ) : ¬ EndsWith turn s r := by
  rintro ⟨turns, hend⟩
  induction turns with
  | zero => cases hend
  | succ turns ih =>
    rw [loop_goesOn h] at hend
    exact ih hend

end lib.loops
