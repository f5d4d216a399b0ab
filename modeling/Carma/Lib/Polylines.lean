-- Lines of segments in the plane, whose first and last segments go on past their ends: feet of
-- perpendiculars, closest points, the closest point on the segments at the nearest node, and
-- lengths along the line.
import Mathlib.Algebra.BigOperators.Intervals
import Mathlib.Algebra.Order.Field.Basic
import Mathlib.Algebra.Order.Ring.Abs
import Mathlib.Tactic.Linarith
import Mathlib.Tactic.LinearCombination
import Mathlib.Tactic.Ring

namespace lib.polylines

variable {K : Type*} [Field K]

/-! ## One segment -/

/-- The square of the distance. -/
def sqDist (p q : K × K) : K := (q.1 - p.1) * (q.1 - p.1) + (q.2 - p.2) * (q.2 - p.2)

/-- The point of the line through `a` and `b` that is `a` at 0 and `b` at 1. -/
def along (a b : K × K) (t : K) : K × K := (a.1 + t * (b.1 - a.1), a.2 + t * (b.2 - a.2))

/-- Where the perpendicular from a point meets the line. -/
def foot (a b v : K × K) : K :=
  ((b.1 - a.1) * (v.1 - a.1) + (b.2 - a.2) * (v.2 - a.2)) / sqDist a b

@[simp] theorem along_zero (a b : K × K) : along a b 0 = a := by simp [along]

@[simp] theorem along_one (a b : K × K) : along a b 1 = b := by simp [along]

theorem sqDist_comm (p q : K × K) : sqDist p q = sqDist q p := by
  unfold sqDist
  ring

theorem sqDist_from_along (a b : K × K) (t u : K) :
    sqDist (along a b t) (along a b u) = (u - t) * (u - t) * sqDist a b := by
  unfold sqDist along
  dsimp only
  ring

variable [LinearOrder K] [IsStrictOrderedRing K]

theorem sqDist_nonneg (p q : K × K) : 0 ≤ sqDist p q :=
  add_nonneg (mul_self_nonneg _) (mul_self_nonneg _)

theorem sqDist_pos {p q : K × K} (h : p ≠ q) : 0 < sqDist p q := by
  apply lt_of_le_of_ne (sqDist_nonneg p q)
  intro hzero
  unfold sqDist at hzero
  obtain ⟨h1, h2⟩ := (add_eq_zero_iff_of_nonneg (mul_self_nonneg _) (mul_self_nonneg _)).mp
    hzero.symm
  apply h
  ext
  · exact (sub_eq_zero.mp (mul_self_eq_zero.mp h1)).symm
  · exact (sub_eq_zero.mp (mul_self_eq_zero.mp h2)).symm

section segment

variable {a b v : K × K}

theorem sqDist_along (h : a ≠ b) (v : K × K) (t : K) :
    sqDist v (along a b t) = sqDist v (along a b (foot a b v)) +
      (t - foot a b v) * (t - foot a b v) * sqDist a b := by
  have hpos := (sqDist_pos h).ne'
  obtain ⟨f, hf⟩ : ∃ f, f = foot a b v := ⟨_, rfl⟩
  have hdot : (b.1 - a.1) * (v.1 - a.1) + (b.2 - a.2) * (v.2 - a.2) = f * sqDist a b := by
    rw [hf]
    unfold foot
    rw [div_mul_cancel₀ _ hpos]
  rw [← hf]
  unfold sqDist along at *
  dsimp only at *
  linear_combination (-2 * t + 2 * f) * hdot

theorem sqDist_along_le_iff (h : a ≠ b) (v : K × K) (t u : K) :
    sqDist v (along a b t) ≤ sqDist v (along a b u) ↔ |t - foot a b v| ≤ |u - foot a b v| := by
  rw [sqDist_along h v t, sqDist_along h v u, add_le_add_iff_left,
    mul_le_mul_iff_left₀ (sqDist_pos h), ← abs_mul_abs_self (t - _),
    ← abs_mul_abs_self (u - _), ← abs_le_iff_mul_self_le, abs_abs, abs_abs]

/-- Nothing on the line is closer than the foot. -/
theorem sqDist_foot_le (h : a ≠ b) (v : K × K) (t : K) :
    sqDist v (along a b (foot a b v)) ≤ sqDist v (along a b t) := by
  rw [sqDist_along_le_iff h]
  simp

theorem sqDist_start_le_iff (h : a ≠ b) (v : K × K) :
    sqDist v a ≤ sqDist v b ↔ foot a b v ≤ 1 - foot a b v := by
  have hle := sqDist_along_le_iff h v 0 1
  rw [along_zero, along_one, zero_sub, abs_neg] at hle
  rw [hle, ← sq_le_sq, pow_two, pow_two]
  constructor
  · intro hsq
    nlinarith
  · intro hfoot
    nlinarith

theorem sqDist_end_le_iff (h : a ≠ b) (v : K × K) :
    sqDist v b ≤ sqDist v a ↔ 1 - foot a b v ≤ foot a b v := by
  have hle := sqDist_along_le_iff h v 1 0
  rw [along_zero, along_one, zero_sub, abs_neg] at hle
  rw [hle, ← sq_le_sq, pow_two, pow_two]
  constructor
  · intro hsq
    nlinarith
  · intro hfoot
    nlinarith

/-- Before the foot the distance falls. -/
theorem sqDist_along_le_of_le (h : a ≠ b) (v : K × K) {t u : K} (htu : t ≤ u)
    (hu : u ≤ foot a b v) : sqDist v (along a b u) ≤ sqDist v (along a b t) := by
  rw [sqDist_along_le_iff h, abs_of_nonpos (by linarith), abs_of_nonpos (by linarith)]
  linarith

/-- After the foot the distance grows. -/
theorem sqDist_along_le_of_ge (h : a ≠ b) (v : K × K) {t u : K} (hut : u ≤ t)
    (hu : foot a b v ≤ u) : sqDist v (along a b u) ≤ sqDist v (along a b t) := by
  rw [sqDist_along_le_iff h, abs_of_nonneg (by linarith), abs_of_nonneg (by linarith)]
  linarith

end segment

/-! ## Segments in a row -/

/-- A line of one or more segments, by its nodes. -/
structure Polyline (K : Type*) where
  node : ℕ → K × K
  segments : ℕ
  pos : 0 < segments
  apart : ∀ i < segments, node i ≠ node (i + 1)

namespace Polyline

variable (l : Polyline K) (v : K × K)

omit [LinearOrder K] [IsStrictOrderedRing K] in
def place (i : ℕ) (t : K) : K × K := along (l.node i) (l.node (i + 1)) t

/-- The foot of the perpendicular to the line of a segment. -/
def footAt (i : ℕ) : K := foot (l.node i) (l.node (i + 1)) v

/-- A place on a segment, or on the way past an end of the whole line. -/
def Reaches (i : ℕ) (t : K) : Prop :=
  i < l.segments ∧ (i = 0 ∨ 0 ≤ t) ∧ (i + 1 = l.segments ∨ t ≤ 1)

def Closest (i : ℕ) (t : K) : Prop :=
  l.Reaches i t ∧ ∀ j u, l.Reaches j u → sqDist v (l.place i t) ≤ sqDist v (l.place j u)

/-- No node is nearer. -/
def Nearest (k : ℕ) : Prop :=
  k ≤ l.segments ∧ ∀ j ≤ l.segments, sqDist v (l.node k) ≤ sqDist v (l.node j)

/-- The first of the nearest nodes. -/
def FirstNearest (k : ℕ) : Prop :=
  l.Nearest v k ∧ ∀ j < k, sqDist v (l.node k) < sqDist v (l.node j)

/-- The segment ends at the node. -/
def Beside (k i : ℕ) : Prop := i = k ∨ i + 1 = k

/-- The place that is found from a node: the nearer foot of its two segments, the foot on the way
past an end of the line, or the node in the wedge between two segments. -/
inductive Measured (k : ℕ) : ℕ → K → Prop
  | before {i : ℕ} (hi : i + 1 = k) (hk : k ≤ l.segments)
      (hin : 0 ≤ l.footAt v i ∧ l.footAt v i ≤ 1)
      (hleast : k < l.segments → 0 ≤ l.footAt v k → l.footAt v k ≤ 1 →
        sqDist v (l.place i (l.footAt v i)) ≤ sqDist v (l.place k (l.footAt v k))) :
      Measured k i (l.footAt v i)
  | after (hk : k < l.segments) (hin : 0 ≤ l.footAt v k ∧ l.footAt v k ≤ 1)
      (hleast : ∀ i, i + 1 = k → 0 ≤ l.footAt v i → l.footAt v i ≤ 1 →
        sqDist v (l.place k (l.footAt v k)) ≤ sqDist v (l.place i (l.footAt v i))) :
      Measured k k (l.footAt v k)
  | beyondFirst (hk : k = 0) (hout : l.footAt v 0 < 0) : Measured k 0 (l.footAt v 0)
  | beyondLast {i : ℕ} (hi : i + 1 = k) (hk : k = l.segments) (hout : 1 < l.footAt v i) :
      Measured k i (l.footAt v i)
  | wedge (hpos : 0 < k) (hk : k < l.segments) (hbefore : ∀ i, i + 1 = k → 1 < l.footAt v i)
      (hafter : l.footAt v k < 0) : Measured k k 0

variable {l v} {k i : ℕ} {t : K}

omit [IsStrictOrderedRing K] in
theorem FirstNearest.unique {k' : ℕ} (h : l.FirstNearest v k) (h' : l.FirstNearest v k') :
    k = k' := by
  rcases lt_trichotomy k k' with hlt | heq | hgt
  · exact absurd (h.1.2 k' h'.1.1) (not_le.mpr (h'.2 k hlt))
  · exact heq
  · exact absurd (h'.1.2 k h.1.1) (not_le.mpr (h.2 k' hgt))

omit [IsStrictOrderedRing K] in
theorem Closest.far_eq {j : ℕ} {u : K} (h : l.Closest v i t) (h' : l.Closest v j u) :
    sqDist v (l.place i t) = sqDist v (l.place j u) :=
  le_antisymm (h.2 j u h'.1) (h'.2 i t h.1)

omit [LinearOrder K] [IsStrictOrderedRing K] in
@[simp] theorem place_zero (i : ℕ) : l.place i 0 = l.node i := along_zero _ _

omit [LinearOrder K] [IsStrictOrderedRing K] in
@[simp] theorem place_one (i : ℕ) : l.place i 1 = l.node (i + 1) := along_one _ _

theorem Nearest.foot_before (h : l.Nearest v k) (hi : i + 1 = k) :
    1 - l.footAt v i ≤ l.footAt v i := by
  have hseg : i < l.segments := by
    have hk := h.1
    omega
  apply (sqDist_end_le_iff (l.apart i hseg) v).mp
  rw [hi]
  exact h.2 i hseg.le

theorem Nearest.foot_after (h : l.Nearest v k) (hk : k < l.segments) :
    l.footAt v k ≤ 1 - l.footAt v k :=
  (sqDist_start_le_iff (l.apart k hk) v).mp (h.2 (k + 1) hk)

theorem Measured.reaches (h : l.Measured v k i t) : l.Reaches i t ∧ Beside k i := by
  cases h with
  | before hi hk hin hleast => exact ⟨⟨by omega, Or.inr hin.1, Or.inr hin.2⟩, Or.inr hi⟩
  | after hk hin hleast => exact ⟨⟨hk, Or.inr hin.1, Or.inr hin.2⟩, Or.inl rfl⟩
  | beyondFirst hk hout =>
    exact ⟨⟨l.pos, Or.inl rfl, Or.inr (hout.le.trans zero_le_one)⟩, Or.inl hk.symm⟩
  | beyondLast hi hk hout =>
    exact ⟨⟨by omega, Or.inr (zero_le_one.trans hout.le), Or.inl (hi.trans hk)⟩, Or.inr hi⟩
  | wedge hpos hk hbefore hafter =>
    exact ⟨⟨hk, Or.inr le_rfl, Or.inr zero_le_one⟩, Or.inl rfl⟩

theorem node_le_before (hi : i + 1 = k) (hk : k < l.segments) (hout : 1 < l.footAt v i)
    (ht : l.Reaches i t) : sqDist v (l.node k) ≤ sqDist v (l.place i t) := by
  have hle : t ≤ 1 := ht.2.2.resolve_left (by omega)
  rw [← hi, ← place_one]
  exact sqDist_along_le_of_le (l.apart i ht.1) v hle hout.le

theorem node_le_after (hpos : 0 < k) (hout : l.footAt v k < 0) (ht : l.Reaches k t) :
    sqDist v (l.node k) ≤ sqDist v (l.place k t) := by
  have hle : 0 ≤ t := ht.2.1.resolve_left (by omega)
  rw [← place_zero]
  exact sqDist_along_le_of_ge (l.apart k ht.1) v hle hout.le

theorem Measured.least (h : l.Measured v k i t) (hnear : l.Nearest v k) {j : ℕ} {u : K}
    (hu : l.Reaches j u) (hj : Beside k j) :
    sqDist v (l.place i t) ≤ sqDist v (l.place j u) := by
  have hfoot : ∀ i < l.segments, ∀ u, sqDist v (l.place i (l.footAt v i)) ≤
      sqDist v (l.place i u) := fun i hi u => sqDist_foot_le (l.apart i hi) v u
  cases h with
  | @before i hi hk hin hleast =>
    rcases hj with rfl | hj
    · rcases le_or_gt 0 (l.footAt v j) with hpos | hneg
      · have hhalf := hnear.foot_after hu.1
        exact (hleast hu.1 hpos (by linarith)).trans (hfoot j hu.1 u)
      · have hnode := node_le_after (by omega) hneg hu
        have hone := hfoot i (by omega) 1
        rw [place_one, hi] at hone
        exact hone.trans hnode
    · obtain rfl : i = j := by omega
      exact hfoot i (by omega) u
  | after hk hin hleast =>
    rcases hj with rfl | hj
    · exact hfoot j hk u
    · rcases le_or_gt (l.footAt v j) 1 with hle | hlt
      · have hhalf := hnear.foot_before hj
        exact (hleast j hj (by linarith) hle).trans (hfoot j hu.1 u)
      · have hnode := node_le_before hj hk hlt hu
        have hzero := hfoot k hk 0
        rw [place_zero] at hzero
        exact hzero.trans hnode
  | beyondFirst hk hout =>
    obtain rfl : j = 0 := by
      unfold Beside at hj
      omega
    exact hfoot 0 l.pos u
  | @beyondLast i hi hk hout =>
    obtain rfl : i = j := by
      have hseg := hu.1
      unfold Beside at hj
      omega
    exact hfoot i hu.1 u
  | wedge hpos hk hbefore hafter =>
    rw [place_zero]
    rcases hj with rfl | hj
    · exact node_le_after hpos hafter hu
    · exact node_le_before hj hk (hbefore j hj) hu

theorem Measured.closest_iff (h : l.Measured v k i t) (hnear : l.Nearest v k) :
    l.Closest v i t ↔ ∃ j u, l.Closest v j u ∧ Beside k j := by
  obtain ⟨hreaches, hbeside⟩ := h.reaches
  constructor
  · intro hclosest
    exact ⟨i, t, hclosest, hbeside⟩
  · rintro ⟨j, u, hclosest, hj⟩
    refine ⟨hreaches, ?_⟩
    intro j' u' hu'
    exact (h.least hnear hclosest.1 hj).trans (hclosest.2 j' u' hu')

end Polyline

/-! ## Lengths -/

/-- A square root of what is not negative. -/
structure IsRoot (sqrt : K → K) : Prop where
  nonneg : ∀ x, 0 ≤ x → 0 ≤ sqrt x
  mul_self : ∀ x, 0 ≤ x → sqrt x * sqrt x = x

section roots

variable {sqrt : K → K} (h : IsRoot sqrt)

include h

theorem IsRoot.le_iff {x y : K} (hx : 0 ≤ x) (hy : 0 ≤ y) : sqrt x ≤ sqrt y ↔ x ≤ y := by
  have hsq := mul_self_le_mul_self_iff (h.nonneg x hx) (h.nonneg y hy)
  rwa [h.mul_self x hx, h.mul_self y hy] at hsq

theorem IsRoot.eq_of_mul_self {x y : K} (hx : 0 ≤ x) (hy : 0 ≤ y) (heq : y * y = x) :
    sqrt x = y := by
  apply (mul_self_inj (h.nonneg x hx) hy).mp
  rw [h.mul_self x hx, heq]

/-- The length of a part of a segment. -/
theorem IsRoot.along (a b : K × K) (t u : K) :
    sqrt (sqDist (along a b t) (along a b u)) = |u - t| * sqrt (sqDist a b) := by
  apply h.eq_of_mul_self (sqDist_nonneg _ _)
  · exact mul_nonneg (abs_nonneg _) (h.nonneg _ (sqDist_nonneg _ _))
  · rw [mul_mul_mul_comm, abs_mul_abs_self, h.mul_self _ (sqDist_nonneg _ _), sqDist_from_along]

end roots

namespace Polyline

variable (l : Polyline K) (sqrt : K → K)

omit [LinearOrder K] [IsStrictOrderedRing K] in
/-- How long the segments before a node are. -/
def upTo (i : ℕ) : K := ∑ j ∈ Finset.range i, sqrt (sqDist (l.node j) (l.node (j + 1)))

omit [LinearOrder K] [IsStrictOrderedRing K] in
/-- How far along the line a place is; negative before its first node. -/
def stretch (i : ℕ) (t : K) : K := l.upTo sqrt i + t * sqrt (sqDist (l.node i) (l.node (i + 1)))

variable {l sqrt}

theorem stretch_of_nonneg (h : IsRoot sqrt) (i : ℕ) {t : K} (ht : 0 ≤ t) :
    l.upTo sqrt i + sqrt (sqDist (l.node i) (l.place i t)) = l.stretch sqrt i t := by
  have hlen := h.along (l.node i) (l.node (i + 1)) 0 t
  rw [along_zero, sub_zero, abs_of_nonneg ht] at hlen
  unfold place stretch
  rw [hlen]

theorem stretch_of_nonpos (h : IsRoot sqrt) (i : ℕ) {t : K} (ht : t ≤ 0) :
    l.upTo sqrt i - sqrt (sqDist (l.node i) (l.place i t)) = l.stretch sqrt i t := by
  have hlen := h.along (l.node i) (l.node (i + 1)) 0 t
  rw [along_zero, sub_zero, abs_of_nonpos ht] at hlen
  unfold place stretch
  rw [hlen]
  ring

theorem stretch_of_one_le (h : IsRoot sqrt) (i : ℕ) {t : K} (ht : 1 ≤ t) :
    l.upTo sqrt (i + 1) + sqrt (sqDist (l.node (i + 1)) (l.place i t)) = l.stretch sqrt i t := by
  have hlen := h.along (l.node i) (l.node (i + 1)) 1 t
  rw [along_one, abs_of_nonneg (by linarith)] at hlen
  unfold place stretch upTo
  rw [hlen, Finset.sum_range_succ]
  ring

omit [LinearOrder K] [IsStrictOrderedRing K] in
@[simp] theorem stretch_zero (i : ℕ) : l.stretch sqrt i 0 = l.upTo sqrt i := by simp [stretch]

end Polyline

end lib.polylines
