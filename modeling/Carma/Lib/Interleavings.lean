-- Interleavings: what several threads did, as one trace in which the order of
-- each thread is kept and nothing else.
import Mathlib.Algebra.Ring.Nat
import Mathlib.Data.List.Count
import Mathlib.Data.List.Flatten

namespace lib.interleavings

variable {ε : Type*}

/-- The trace takes the next of any thread, until no thread has one left. -/
inductive Interleaving : List (List ε) → List ε → Prop
  | done {threads : List (List ε)} (h : ∀ t ∈ threads, t = []) : Interleaving threads []
  | step {before after : List (List ε)} {e : ε} {rest trace : List ε}
      (h : Interleaving (before ++ rest :: after) trace) :
      Interleaving (before ++ (e :: rest) :: after) (e :: trace)

theorem Interleaving.perm {threads : List (List ε)} {trace : List ε}
    (h : Interleaving threads trace) : trace.Perm threads.flatten := by
  induction h with
  | done h => rw [List.flatten_eq_nil_iff.mpr h]
  | @step before after e rest trace _ ih =>
    rw [List.flatten_append, List.flatten_cons] at ih ⊢
    rw [List.cons_append]
    exact (ih.cons e).trans List.perm_middle.symm

theorem Interleaving.mem_iff {threads : List (List ε)} {trace : List ε}
    (h : Interleaving threads trace) (e : ε) : e ∈ trace ↔ ∃ t ∈ threads, e ∈ t := by
  rw [h.perm.mem_iff, List.mem_flatten]

theorem Interleaving.countP_eq {threads : List (List ε)} {trace : List ε}
    (h : Interleaving threads trace) (p : ε → Bool) :
    trace.countP p = (threads.map (List.countP p)).sum := by
  rw [h.perm.countP_eq, List.countP_flatten]

theorem interleaving_flatten (threads : List (List ε)) :
    Interleaving threads threads.flatten := by
  have key : ∀ ts before : List (List ε), (∀ t ∈ before, t = []) →
      Interleaving (before ++ ts) ts.flatten := by
    intro ts
    induction ts with
    | nil =>
      intro before hbefore
      rw [List.append_nil]
      exact .done hbefore
    | cons t ts ih =>
      induction t with
      | nil =>
        intro before hbefore
        have h := ih (before ++ [[]]) (by
          intro u hu
          rcases List.mem_append.mp hu with hu | hu
          · exact hbefore u hu
          · exact List.mem_singleton.mp hu)
        rw [List.append_assoc] at h
        exact h
      | cons e t iht =>
        intro before hbefore
        exact .step (iht before hbefore)
  exact key threads [] (by simp)

end lib.interleavings
