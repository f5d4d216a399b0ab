-- Legs of a way: pieces that lie end to end, the spaces that are left between pieces,
-- and what is not covered when the spaces are filled or small.
import Mathlib.Data.List.Basic
import Mathlib.Algebra.Order.Group.Defs
import Mathlib.Algebra.Order.Sub.Basic

namespace lib.legs

variable {α X K : Type*}

/-! ## Pieces end to end -/

/-- Each piece starts as the one before it ends, from `a` on up to `b`. -/
def Linked (start end_ : α → X) : X → List α → X → Prop
  | a, [], b => a = b
  | a, m :: ms, b => start m = a ∧ Linked start end_ (end_ m) ms b

theorem linked_append {start end_ : α → X} {a b c : X} {ms ns : List α}
    (hms : Linked start end_ a ms b) (hns : Linked start end_ b ns c) :
    Linked start end_ a (ms ++ ns) c := by
  induction ms generalizing a with
  | nil =>
    obtain rfl : a = b := hms
    exact hns
  | cons m ms ih => exact ⟨hms.1, ih hms.2⟩

theorem Linked.map {Y : Type*} {start end_ : α → X} {a b : X} {ms : List α}
    (h : Linked start end_ a ms b) (f : X → Y) :
    Linked (f ∘ start) (f ∘ end_) (f a) ms (f b) := by
  induction ms generalizing a with
  | nil => exact congrArg f h
  | cons m ms ih => exact ⟨congrArg f h.1, ih h.2⟩

section order

variable [LinearOrder K] {start end_ : α → K} {a b : K} {ms : List α}

theorem Linked.le (hle : ∀ m ∈ ms, start m ≤ end_ m) (h : Linked start end_ a ms b) : a ≤ b := by
  induction ms generalizing a with
  | nil => exact le_of_eq h
  | cons m ms ih =>
    have hfirst := hle m List.mem_cons_self
    rw [h.1] at hfirst
    exact hfirst.trans (ih (fun m hm => hle m (List.mem_cons_of_mem _ hm)) h.2)

theorem Linked.between (hle : ∀ m ∈ ms, start m ≤ end_ m) (h : Linked start end_ a ms b) :
    ∀ m ∈ ms, a ≤ start m ∧ end_ m ≤ b := by
  induction ms generalizing a with
  | nil => simp
  | cons m ms ih =>
    have hrest : ∀ m ∈ ms, start m ≤ end_ m := fun m hm => hle m (List.mem_cons_of_mem _ hm)
    have hfirst := hle m List.mem_cons_self
    rw [List.forall_mem_cons]
    refine ⟨⟨h.1.ge, h.2.le hrest⟩, ?_⟩
    intro n hn
    obtain ⟨hstart, hend⟩ := ih hrest h.2 n hn
    exact ⟨h.1.ge.trans (hfirst.trans hstart), hend⟩

theorem Linked.pairwise (hle : ∀ m ∈ ms, start m ≤ end_ m) (h : Linked start end_ a ms b) :
    ms.Pairwise fun m n => end_ m ≤ start n := by
  induction ms generalizing a with
  | nil => exact List.Pairwise.nil
  | cons m ms ih =>
    have hrest : ∀ m ∈ ms, start m ≤ end_ m := fun m hm => hle m (List.mem_cons_of_mem _ hm)
    apply List.Pairwise.cons _ (ih hrest h.2)
    intro n hn
    exact (h.2.between hrest n hn).1

/-- Linked pieces leave nothing out. -/
theorem Linked.covers (h : Linked start end_ a ms b) {p : K} (ha : a ≤ p) (hb : p < b) :
    ∃ m ∈ ms, start m ≤ p ∧ p < end_ m := by
  induction ms generalizing a with
  | nil =>
    obtain rfl : a = b := h
    exact absurd hb (not_lt.mpr ha)
  | cons m ms ih =>
    rcases lt_or_ge p (end_ m) with hin | hout
    · exact ⟨m, List.mem_cons_self, h.1.le.trans ha, hin⟩
    · obtain ⟨n, hn, hpn⟩ := ih h.2 hout
      exact ⟨n, List.mem_cons_of_mem _ hn, hpn⟩

end order

/-! ## Spaces -/

/-- The spaces before, between and after pieces, on the way from `a` to `b`. -/
def spaces (start end_ : α → K) : K → List α → K → List (K × K)
  | a, [], b => [(a, b)]
  | a, m :: ms, b => (a, start m) :: spaces start end_ (end_ m) ms b

section uncovered

variable [LinearOrder K]

def Uncovered (covered : K → Prop) (a b : K) : Prop := a < b ∧ ∀ p, a ≤ p → p < b → ¬ covered p

variable [AddCommGroup K] [IsOrderedAddMonoid K] {start end_ : α → K}

/-- Where pieces in a row are covered, and each space is covered too or is smaller than
`ε`, what is not covered is smaller than `ε`. -/
theorem uncovered_lt {covered : K → Prop} {ε last final : K} {ms : List α}
    (hpos : ∀ m ∈ ms, start m < end_ m)
    (hin : ∀ m ∈ ms, ∀ p, start m ≤ p → p < end_ m → covered p)
    (hspace : ∀ x ∈ spaces start end_ last ms final,
      x.2 - x.1 < ε ∨ ∀ p, x.1 ≤ p → p < x.2 → covered p)
    {a b : K} (ha : last ≤ a) (hb : b ≤ final) (h : Uncovered covered a b) : b - a < ε := by
  -- a part of one space, so it is not longer than the space, or it would be covered
  have hpart : ∀ x : K × K, (x.2 - x.1 < ε ∨ ∀ p, x.1 ≤ p → p < x.2 → covered p) →
      x.1 ≤ a → b ≤ x.2 → b - a < ε := by
    rintro x (hsmall | hfull) hxa hbx
    · exact (sub_le_sub hbx hxa).trans_lt hsmall
    · exact absurd (hfull a hxa (h.1.trans_le hbx)) (h.2 a le_rfl h.1)
  induction ms generalizing last with
  | nil => exact hpart (last, final) (hspace _ List.mem_cons_self) ha hb
  | cons m ms ih =>
    unfold spaces at hspace
    rw [List.forall_mem_cons] at hpos hin hspace
    rcases le_or_gt b (start m) with hbefore | hover
    · exact hpart (last, start m) hspace.1 ha hbefore
    · rcases le_or_gt (end_ m) a with hafter | hinside
      · exact ih hpos.2 hin.2 hspace.2 hafter
      · -- the two share a point
        have hcovered := hin.1 (max a (start m)) (le_max_right _ _) (max_lt hinside hpos.1)
        exact absurd hcovered (h.2 _ (le_max_left _ _) (max_lt h.1 hover))

end uncovered

end lib.legs
