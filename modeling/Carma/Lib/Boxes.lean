-- Closed boxes with one row of bounds for each dimension: when two of them meet,
-- the smallest box around two, and the cells of a box of integers.
import Mathlib.Data.Int.Range
import Mathlib.Data.List.Forall2
import Mathlib.Data.List.Nodup
import Mathlib.Order.Lattice

namespace lib.boxes

/-- A box: the least and the greatest value in each dimension. -/
abbrev Box (α : Type*) := List (α × α)

variable {α β : Type*} [LinearOrder α] [LinearOrder β]

/-- No row is empty. -/
def Proper (b : Box α) : Prop := ∀ r ∈ b, r.1 ≤ r.2

def RowMeets (r s : α × α) : Prop := max r.1 s.1 ≤ min r.2 s.2

/-- Two boxes meet when they have a common value in each dimension. -/
def Meets (b c : Box α) : Prop := List.Forall₂ RowMeets b c

def RowWithin (r s : α × α) : Prop := s.1 ≤ r.1 ∧ r.2 ≤ s.2

def Within (b c : Box α) : Prop := List.Forall₂ RowWithin b c

/-- The smallest box around two boxes. -/
def around (b c : Box α) : Box α := List.zipWith (fun r s => (min r.1 s.1, max r.2 s.2)) b c

/-! ## Boxes that meet -/

instance (r s : α × α) : Decidable (RowMeets r s) :=
  inferInstanceAs (Decidable (max r.1 s.1 ≤ min r.2 s.2))

instance (b c : Box α) : Decidable (Meets b c) :=
  inferInstanceAs (Decidable (List.Forall₂ RowMeets b c))

theorem rowMeets_iff {r s : α × α} :
    RowMeets r s ↔ (r.1 ≤ r.2 ∧ r.1 ≤ s.2) ∧ (s.1 ≤ r.2 ∧ s.1 ≤ s.2) := by
  unfold RowMeets
  rw [max_le_iff, le_min_iff, le_min_iff]

theorem rowMeets_symm {r s : α × α} (h : RowMeets r s) : RowMeets s r := by
  rw [rowMeets_iff] at h ⊢
  exact ⟨⟨h.2.2, h.2.1⟩, h.1.2, h.1.1⟩

theorem meets_symm {b c : Box α} (h : Meets b c) : Meets c b :=
  List.Forall₂.flip (h.imp (fun _ _ => rowMeets_symm))

theorem meets_comm {b c : Box α} : Meets b c ↔ Meets c b := ⟨meets_symm, meets_symm⟩

theorem meets_self {b : Box α} (h : Proper b) : Meets b b := by
  refine List.forall₂_same.mpr ?_
  intro r hr
  exact rowMeets_iff.mpr ⟨⟨h r hr, h r hr⟩, h r hr, h r hr⟩

theorem meets_mono {b c d : Box α} (hin : Within b c) (h : Meets b d) : Meets c d := by
  induction hin generalizing d with
  | nil => exact h
  | cons hrow _ ih =>
    obtain ⟨s, rest, hs, hrest, rfl⟩ := List.forall₂_cons_left_iff.mp h
    refine List.Forall₂.cons ?_ (ih hrest)
    rw [rowMeets_iff] at hs ⊢
    exact ⟨⟨hrow.1.trans (hs.1.1.trans hrow.2), hrow.1.trans hs.1.2⟩,
      hs.2.1.trans hrow.2, hs.2.2⟩

theorem meets_of_within {b c : Box α} (h : Proper b) (hin : Within b c) : Meets c b :=
  meets_mono hin (meets_self h)

/-! ## Boxes in boxes -/

theorem within_refl (b : Box α) : Within b b :=
  List.forall₂_same.mpr (fun _ _ => ⟨le_refl _, le_refl _⟩)

theorem within_trans {b c d : Box α} (h : Within b c) (h' : Within c d) : Within b d := by
  induction h generalizing d with
  | nil => exact h'
  | cons hrow _ ih =>
    obtain ⟨s, rest, hs, hrest, rfl⟩ := List.forall₂_cons_left_iff.mp h'
    exact List.Forall₂.cons ⟨hs.1.trans hrow.1, hrow.2.trans hs.2⟩ (ih hrest)

@[simp] theorem around_length {b c : Box α} (h : b.length = c.length) :
    (around b c).length = b.length := by
  unfold around
  rw [List.length_zipWith, h, min_self]

theorem around_self (b : Box α) : around b b = b := by
  unfold around
  simp

theorem around_proper {b c : Box α} (h : b.length = c.length) (hb : Proper b) :
    Proper (around b c) := by
  induction b generalizing c with
  | nil => exact fun r hr => absurd hr List.not_mem_nil
  | cons r b ih =>
    obtain ⟨s, c, rfl⟩ := List.exists_cons_of_length_eq_add_one h.symm
    obtain ⟨hr, hb⟩ := List.forall_mem_cons.mp hb
    exact List.forall_mem_cons.mpr ⟨(min_le_left _ _).trans (hr.trans (le_max_left _ _)),
      ih (Nat.succ.inj h) hb⟩

theorem within_around_left {b c : Box α} (h : b.length = c.length) : Within b (around b c) := by
  induction b generalizing c with
  | nil => exact List.Forall₂.nil
  | cons r b ih =>
    obtain ⟨s, c, rfl⟩ := List.exists_cons_of_length_eq_add_one h.symm
    exact List.Forall₂.cons ⟨min_le_left _ _, le_max_left _ _⟩ (ih (Nat.succ.inj h))

theorem within_around_right {b c : Box α} (h : b.length = c.length) : Within c (around b c) := by
  induction b generalizing c with
  | nil =>
    rw [List.length_eq_zero_iff.mp h.symm]
    exact List.Forall₂.nil
  | cons r b ih =>
    obtain ⟨s, c, rfl⟩ := List.exists_cons_of_length_eq_add_one h.symm
    exact List.Forall₂.cons ⟨min_le_right _ _, le_max_right _ _⟩ (ih (Nat.succ.inj h))

theorem around_within {b c d : Box α} (hb : Within b d) (hc : Within c d) :
    Within (around b c) d := by
  induction hb generalizing c with
  | nil =>
    cases hc
    exact List.Forall₂.nil
  | cons hrow _ ih =>
    obtain ⟨s, rest, hs, hrest, rfl⟩ := List.forall₂_cons_right_iff.mp hc
    exact List.Forall₂.cons ⟨le_min hrow.1 hs.1, max_le hrow.2 hs.2⟩ (ih hrest)

/-! ## Images -/

/-- The box of the values under one function for each dimension. -/
def image (fs : List (α → β)) (b : Box α) : Box β :=
  List.zipWith (fun f r => (f r.1, f r.2)) fs b

theorem meets_image {fs : List (α → β)} (hfs : ∀ f ∈ fs, Monotone f) {b c : Box α}
    (h : Meets b c) : Meets (image fs b) (image fs c) := by
  induction h generalizing fs with
  | nil =>
    unfold image
    rw [List.zipWith_nil_right]
    exact List.Forall₂.nil
  | cons hrow _ ih =>
    cases fs with
    | nil => exact List.Forall₂.nil
    | cons f fs =>
      refine List.Forall₂.cons ?_ (ih (fun g hg => hfs g (List.mem_cons_of_mem _ hg)))
      have hf := hfs f (List.mem_cons_self ..)
      rw [rowMeets_iff] at hrow ⊢
      exact ⟨⟨hf hrow.1.1, hf hrow.1.2⟩, hf hrow.2.1, hf hrow.2.2⟩

theorem image_proper {fs : List (α → β)} (hfs : ∀ f ∈ fs, Monotone f) {b : Box α}
    (h : Proper b) : Proper (image fs b) := by
  induction b generalizing fs with
  | nil =>
    unfold image
    rw [List.zipWith_nil_right]
    exact fun r hr => absurd hr List.not_mem_nil
  | cons r b ih =>
    cases fs with
    | nil => exact fun r hr => absurd hr List.not_mem_nil
    | cons f fs =>
      obtain ⟨hrow, hrest⟩ := List.forall_mem_cons.mp h
      exact List.forall_mem_cons.mpr ⟨hfs f (List.mem_cons_self ..) hrow,
        ih (fun g hg => hfs g (List.mem_cons_of_mem _ hg)) hrest⟩

/-! ## Cells -/

/-- The points of a box of integers, the last dimension the fastest. -/
def cells : Box ℤ → List (List ℤ)
  | [] => [[]]
  | r :: b => (Int.range r.1 (r.2 + 1)).flatMap fun i => (cells b).map (i :: ·)

theorem mem_cells {b : Box ℤ} {key : List ℤ} :
    key ∈ cells b ↔ List.Forall₂ (fun i r => r.1 ≤ i ∧ i ≤ r.2) key b := by
  induction b generalizing key with
  | nil => simp [cells]
  | cons r b ih =>
    rw [List.forall₂_cons_right_iff]
    simp only [cells, List.mem_flatMap, Int.mem_range_iff, List.mem_map, ih, Int.lt_add_one_iff]
    constructor
    · rintro ⟨i, hi, k, hk, rfl⟩
      exact ⟨i, k, hi, hk, rfl⟩
    · rintro ⟨i, k, hi, hk, rfl⟩
      exact ⟨i, hi, k, hk, rfl⟩

theorem range_nodup (m n : ℤ) : (Int.range m n).Nodup := by
  unfold Int.range
  refine List.nodup_range.map ?_
  intro i j h
  exact Int.ofNat.inj (add_left_cancel h)

theorem cells_nodup (b : Box ℤ) : (cells b).Nodup := by
  induction b with
  | nil => exact List.nodup_singleton _
  | cons r b ih =>
    unfold cells
    rw [List.nodup_flatMap]
    constructor
    · intro i _
      exact ih.map (fun _ _ h => (List.cons.inj h).2)
    · refine (range_nodup _ _).imp ?_
      intro i j hne k hk hk'
      obtain ⟨_, _, rfl⟩ := List.mem_map.mp hk
      obtain ⟨_, _, he⟩ := List.mem_map.mp hk'
      exact hne (List.cons.inj he).1.symm

theorem meets_iff_cell {b c : Box ℤ} : Meets b c ↔ ∃ key ∈ cells b, key ∈ cells c := by
  simp only [mem_cells]
  constructor
  · intro h
    induction h with
    | nil => exact ⟨[], List.Forall₂.nil, List.Forall₂.nil⟩
    | @cons r s _ _ hrow _ ih =>
      obtain ⟨key, hb, hc⟩ := ih
      rw [rowMeets_iff] at hrow
      exact ⟨max r.1 s.1 :: key,
        List.Forall₂.cons ⟨le_max_left _ _, max_le hrow.1.1 hrow.2.1⟩ hb,
        List.Forall₂.cons ⟨le_max_right _ _, max_le hrow.1.2 hrow.2.2⟩ hc⟩
  · rintro ⟨key, hb, hc⟩
    induction hb generalizing c with
    | nil =>
      cases hc
      exact List.Forall₂.nil
    | cons hrow _ ih =>
      obtain ⟨s, rest, hs, hrest, rfl⟩ := List.forall₂_cons_left_iff.mp hc
      refine List.Forall₂.cons (rowMeets_iff.mpr ?_) (ih hrest)
      exact ⟨⟨hrow.1.trans hrow.2, hrow.1.trans hs.2⟩, hs.1.trans hrow.2, hs.1.trans hs.2⟩

end lib.boxes
