-- Lists whose keys go down strictly, and when an update or a sort gives one.
import Mathlib.Data.List.Sort
import Mathlib.Order.Defs.LinearOrder

namespace lib.descents

variable {α K : Type*} [LinearOrder K]

/-- The keys go down strictly along the list. -/
def Descending (key : α → K) (l : List α) : Prop := l.Pairwise (fun a b => key b < key a)

@[simp] theorem descending_nil (key : α → K) : Descending key [] := List.Pairwise.nil

theorem descending_sublist {key : α → K} {l m : List α} (hsub : m.Sublist l) (h : Descending key l) :
    Descending key m :=
  List.Pairwise.sublist hsub h

theorem descending_nodup {key : α → K} {l : List α} (h : Descending key l) :
    (l.map key).Nodup := by
  apply List.pairwise_map.mpr
  exact List.Pairwise.imp (fun hlt => ne_of_gt hlt) h

/-- An update keeps the keys going down just when it keeps the order of any two. -/
theorem descending_map_iff {key : α → K} {l : List α} (h : Descending key l) (f : α → α) :
    Descending key (l.map f) ↔
      ∀ a ∈ l, ∀ b ∈ l, key a < key b → key (f a) < key (f b) := by
  unfold Descending at *
  rw [List.pairwise_map]
  constructor
  · intro hmap
    -- what holds of earlier and later, and of later and earlier, holds of any two
    have hdown : l.Pairwise (fun a b => key a < key b → key (f a) < key (f b)) := by
      apply List.Pairwise.imp _ h
      intro a b hkey hlt
      exact absurd hlt (not_lt_of_gt hkey)
    have hup : l.Pairwise (flip fun a b => key a < key b → key (f a) < key (f b)) := by
      apply List.Pairwise.imp _ hmap
      intro a b hf _
      exact hf
    intro a ha b hb
    apply List.Pairwise.forall_of_forall_of_flip _ hdown hup ha hb
    intro x _ hlt
    exact absurd hlt (lt_irrefl _)
  · intro hkeep
    apply List.Pairwise.imp_of_mem _ h
    intro a b ha hb hlt
    exact hkeep b hb a ha hlt

theorem descending_sort_iff {key : α → K} {r : α → α → Prop} [DecidableRel r]
    (hr : ∀ a b, r a b ↔ key b ≤ key a) (l : List α) :
    Descending key (l.insertionSort r) ↔ (l.map key).Nodup := by
  have : Std.Total r := ⟨fun a b => by simpa only [hr] using le_total (key b) (key a)⟩
  have : IsTrans α r := ⟨fun a b c hab hbc => by
    rw [hr] at *
    exact le_trans hbc hab⟩
  have hsame : ((l.insertionSort r).map key).Nodup ↔ (l.map key).Nodup :=
    ((List.perm_insertionSort r l).map key).nodup_iff
  rw [← hsame]
  constructor
  · exact descending_nodup
  · intro hnodup
    apply List.Pairwise.imp _ ((List.pairwise_insertionSort r l).and (List.pairwise_map.mp hnodup))
    rintro a b ⟨hab, hne⟩
    exact lt_of_le_of_ne ((hr a b).mp hab) (Ne.symm hne)

end lib.descents
