-- Greedy packing: take the items of a list one after the other, and keep an
-- item when it clashes with none of those kept before it.
import Mathlib.Data.List.Basic
import Mathlib.Data.List.Induction
import Mathlib.Tactic.Common

namespace lib.packing

variable {α : Type*} (clash : α → α → Prop) [DecidableRel clash]

/-- An item fits when it clashes with nothing kept. -/
def Fits (kept : List α) (x : α) : Prop := ∀ y ∈ kept, ¬ clash x y

instance (kept : List α) (x : α) : Decidable (Fits clash kept x) :=
  inferInstanceAs (Decidable (∀ y ∈ kept, ¬ clash x y))

/-- One turn: keep the item if it fits. -/
def pack (kept : List α) (x : α) : List α :=
  if Fits clash kept x then kept ++ [x] else kept

/-- The items kept from a list, oldest first. -/
def packed (xs : List α) : List α := xs.foldl (pack clash) []

@[simp] theorem packed_nil : packed clash [] = [] := rfl

@[simp] theorem packed_snoc (xs : List α) (x : α) :
    packed clash (xs ++ [x]) = pack clash (packed clash xs) x := by
  simp [packed]

/-- No two kept items clash. -/
theorem packed_pairwise (hsymm : ∀ x y, clash x y → clash y x) (xs : List α) :
    (packed clash xs).Pairwise (fun x y => ¬ clash x y) := by
  induction xs using List.reverseRecOn with
  | nil => simp
  | append_singleton xs x ih =>
    rw [packed_snoc]
    unfold pack
    split
    · rename_i hfit
      rw [List.pairwise_append]
      refine ⟨ih, List.pairwise_singleton _ _, ?_⟩
      intro y hy z hz
      rw [List.mem_singleton.mp hz]
      exact fun h => hfit y hy (hsymm _ _ h)
    · exact ih

end lib.packing
