-- Strips of one width side by side, each with both of its edges: those that a division rounded
-- down or up finds for a place, and how the strips of two places compare.
import Mathlib.Algebra.Order.Floor.Ring
import Mathlib.Algebra.Order.Field.Basic
import Mathlib.Tactic.Linarith
import Mathlib.Tactic.Ring

namespace lib.strips

variable {K : Type*} [Field K] [LinearOrder K]

/-- A place is within a strip or on an edge of it. -/
def Strip (w : K) (i : ℤ) (x : K) : Prop := i * w ≤ x ∧ x ≤ (i + 1) * w

variable [IsStrictOrderedRing K] {w x y : K} {i j : ℤ}

section floors

variable [FloorRing K]

theorem strip_floor (hw : 0 < w) (x : K) : Strip w ⌊x / w⌋ x :=
  ⟨(le_div_iff₀ hw).mp (Int.floor_le _), ((div_lt_iff₀ hw).mp (Int.lt_floor_add_one _)).le⟩

theorem strip_ceil (hw : 0 < w) (x : K) : Strip w (⌈x / w⌉ - 1) x := by
  constructor
  · apply (le_div_iff₀ hw).mp
    have hlt := Int.ceil_lt_add_one (x / w)
    push_cast
    linarith
  · apply (div_le_iff₀ hw).mp
    have hle := Int.le_ceil (x / w)
    push_cast
    linarith

end floors

theorem Strip.shift (h : Strip w i x) (j : ℤ) : Strip w (j + i) (j * w + x) := by
  obtain ⟨hlow, hhigh⟩ := h
  constructor
  · push_cast
    linarith
  · push_cast
    linarith

/-- The strips seen from the other side. -/
theorem Strip.flip (h : Strip w i x) : Strip w (-i - 1) (-x) := by
  obtain ⟨hlow, hhigh⟩ := h
  constructor
  · push_cast
    linarith
  · push_cast
    linarith

theorem Strip.le (hw : 0 < w) (hi : Strip w i x) (hj : Strip w j y) (h : x < y) : i ≤ j := by
  have hlt : (i : K) * w < (j + 1) * w := hi.1.trans_lt (h.trans_le hj.2)
  have hcast : (i : K) < ((j + 1 : ℤ) : K) := by
    push_cast
    exact lt_of_mul_lt_mul_right hlt hw.le
  exact Int.lt_add_one_iff.mp (Int.cast_lt.mp hcast)

theorem Strip.unique (hw : 0 < w) (hi : Strip w i x) (hlow : j * w < x) (hhigh : x < (j + 1) * w) :
    i = j := by
  have hle : (i : K) * w < (j + 1) * w := hi.1.trans_lt hhigh
  have hge : (j : K) * w < (i + 1) * w := hlow.trans_le hi.2
  have hle' : (i : K) < ((j + 1 : ℤ) : K) := by
    push_cast
    exact lt_of_mul_lt_mul_right hle hw.le
  have hge' : (j : K) < ((i + 1 : ℤ) : K) := by
    push_cast
    exact lt_of_mul_lt_mul_right hge hw.le
  have h1 := Int.cast_lt.mp hle'
  have h2 := Int.cast_lt.mp hge'
  omega

end lib.strips
