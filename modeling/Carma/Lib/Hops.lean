-- Hops along the marks of a line: from where it stands, a walker goes on to the next mark
-- while that is near, and how far the hops can take it.
import Mathlib.Algebra.Order.BigOperators.Group.List
import Mathlib.Algebra.Order.Group.Abs
import Mathlib.Data.List.Pairwise

namespace lib.hops

variable {K : Type*} [AddCommGroup K] [LinearOrder K]

/-! ## Marks -/

omit [LinearOrder K] in
/-- Where the pieces end that lie one after the other from `a` on. -/
def ends (a : K) : List K → List K
  | [] => []
  | l :: ls => (a + l) :: ends (a + l) ls

/-- The next mark is hopped to when it is nearer than `reach`; otherwise the hops are over. -/
def hop (reach : K) : K → List K → K
  | e, [] => e
  | e, b :: bs => if b > e then (if |b - e| < reach then hop reach b bs else e) else hop reach e bs

section marks

variable [IsOrderedAddMonoid K]

theorem ends_increasing {ls : List K} (hpos : ∀ l ∈ ls, 0 < l) (a : K) :
    (a :: ends a ls).Pairwise (· < ·) := by
  induction ls generalizing a with
  | nil => exact List.pairwise_singleton _ a
  | cons l ls ih =>
    rw [List.forall_mem_cons] at hpos
    have hrest := ih hpos.2 (a + l)
    have hstep : a < a + l := lt_add_of_pos_right a hpos.1
    refine List.pairwise_cons.mpr ⟨?_, hrest⟩
    rintro b (_ | ⟨_, hb⟩)
    · exact hstep
    · exact hstep.trans ((List.pairwise_cons.mp hrest).1 b hb)

theorem ends_le_total {ls : List K} (hpos : ∀ l ∈ ls, 0 < l) (a : K) :
    ∀ b ∈ ends a ls, b ≤ a + ls.sum := by
  induction ls generalizing a with
  | nil => exact fun b hb => absurd hb List.not_mem_nil
  | cons l ls ih =>
    rw [List.forall_mem_cons] at hpos
    have hrest := ih hpos.2 (a + l)
    rw [add_assoc, ← List.sum_cons] at hrest
    rintro b (_ | ⟨_, hb⟩)
    · rw [List.sum_cons]
      exact add_le_add_right (le_add_of_nonneg_right (List.sum_nonneg fun x hx => (hpos.2 x hx).le)) a
    · exact hrest b hb

end marks

/-! ## Hops -/

omit [AddCommGroup K] in
theorem le_of_mem_marks {a : K} {bs : List K} (h : (a :: bs).Pairwise (· < ·)) {b : K}
    (hb : b ∈ a :: bs) : a ≤ b := by
  rcases List.mem_cons.mp hb with rfl | hb
  · exact le_rfl
  · exact ((List.pairwise_cons.mp h).1 b hb).le

theorem hop_mem (reach e : K) (bs : List K) : hop reach e bs = e ∨ hop reach e bs ∈ bs := by
  induction bs generalizing e with
  | nil => exact Or.inl rfl
  | cons b bs ih =>
    unfold hop
    split
    · split
      · rcases ih b with h | h
        · exact Or.inr (by rw [h]; exact List.mem_cons_self)
        · exact Or.inr (List.mem_cons_of_mem b h)
      · exact Or.inl rfl
    · rcases ih e with h | h
      · exact Or.inl h
      · exact Or.inr (List.mem_cons_of_mem b h)

theorem le_hop (reach e : K) (bs : List K) : e ≤ hop reach e bs := by
  induction bs generalizing e with
  | nil => exact le_rfl
  | cons b bs ih =>
    unfold hop
    split
    · rename_i hlt
      split
      · exact hlt.le.trans (ih b)
      · exact le_rfl
    · exact ih e

/-- Two marks on either side of `limit` are nearer to each other than `reach`. -/
def Bridged (reach limit : K) (bs : List K) : Prop :=
  ∃ b ∈ bs, b ≤ limit ∧ ∃ b' ∈ bs, limit < b' ∧ b' - b < reach

variable [IsOrderedAddMonoid K]

theorem hop_from_mark {reach start e : K} {bs : List K} (hmarks : (e :: bs).Pairwise (· < ·))
    (hafter : start < e) (hin : e ≤ start + reach) :
    start + reach < hop reach e bs ↔ Bridged reach (start + reach) (e :: bs) := by
  induction bs generalizing e with
  | nil =>
    refine iff_of_false (not_lt.mpr hin) ?_
    rintro ⟨b, -, -, b', hb', hlt, -⟩
    obtain rfl := List.mem_singleton.mp hb'
    exact absurd hin (not_le.mpr hlt)
  | cons b bs ih =>
    obtain ⟨hfirst, hrest⟩ := List.pairwise_cons.mp hmarks
    have heb : e < b := hfirst b List.mem_cons_self
    unfold hop
    rw [if_pos heb, abs_of_pos (sub_pos.mpr heb)]
    by_cases hnear : b - e < reach
    · rw [if_pos hnear]
      by_cases hb : b ≤ start + reach
      · rw [ih hrest (hafter.trans heb) hb]
        constructor
        · rintro ⟨x, hx, hle, y, hy, hlt, hxy⟩
          exact ⟨x, List.mem_cons_of_mem e hx, hle, y, List.mem_cons_of_mem e hy, hlt, hxy⟩
        · rintro ⟨x, hx, hle, y, hy, hlt, hxy⟩
          have hy' : y ∈ b :: bs := by
            rcases List.mem_cons.mp hy with rfl | hy
            · exact absurd hin (not_le.mpr hlt)
            · exact hy
          rcases List.mem_cons.mp hx with rfl | hx
          · exact ⟨b, List.mem_cons_self, hb, y, hy', hlt, (sub_lt_sub_left heb y).trans hxy⟩
          · exact ⟨x, hx, hle, y, hy', hlt, hxy⟩
      · rw [not_le] at hb
        refine iff_of_true (hb.trans_le (le_hop reach b bs)) ?_
        exact ⟨e, List.mem_cons_self, hin, b, List.mem_cons_of_mem e List.mem_cons_self, hb, hnear⟩
    · rw [if_neg hnear]
      refine iff_of_false (not_lt.mpr hin) ?_
      rintro ⟨x, hx, hle, y, hy, hlt, hxy⟩
      rw [not_lt, le_sub_iff_add_le'] at hnear
      have hby : b ≤ y := by
        rcases List.mem_cons.mp hy with rfl | hy
        · exact absurd hin (not_le.mpr hlt)
        · exact le_of_mem_marks hrest hy
      rcases List.mem_cons.mp hx with rfl | hx
      · exact absurd (hnear.trans hby) (not_le.mpr (sub_lt_iff_lt_add'.mp hxy))
      · -- no mark after a gap of `reach` is within reach of the start
        have hfar : start + reach < x :=
          (add_lt_add_left hafter reach).trans_le (hnear.trans (le_of_mem_marks hrest hx))
        exact absurd hle (not_le.mpr hfar)

/-- The hops from a start get beyond its reach just when a mark is within it and, of the marks
after the start, two bridge its end. -/
theorem hop_beyond_iff {reach : K} (hreach : 0 < reach) (start : K) {bs : List K}
    (hmarks : bs.Pairwise (· < ·)) :
    start + reach < hop reach start bs ↔
      (∃ b ∈ bs, start < b ∧ b < start + reach) ∧
        Bridged reach (start + reach) (bs.filter (fun b => decide (start < b))) := by
  induction bs with
  | nil =>
    refine iff_of_false (not_lt.mpr (le_add_of_nonneg_right hreach.le)) ?_
    rintro ⟨⟨b, hb, -⟩, -⟩
    cases hb
  | cons b bs ih =>
    have hrest := (List.pairwise_cons.mp hmarks).2
    unfold hop
    by_cases hafter : start < b
    · have hall : (b :: bs).filter (fun b => decide (start < b)) = b :: bs := by
        refine List.filter_eq_self.mpr (fun x hx => decide_eq_true ?_)
        exact hafter.trans_le (le_of_mem_marks hmarks hx)
      rw [if_pos hafter, abs_of_pos (sub_pos.mpr hafter), hall]
      by_cases hnear : b - start < reach
      · have hin := sub_lt_iff_lt_add'.mp hnear
        rw [if_pos hnear, hop_from_mark hmarks hafter hin.le]
        exact (and_iff_right ⟨b, List.mem_cons_self, hafter, hin⟩).symm
      · rw [if_neg hnear]
        refine iff_of_false (not_lt.mpr (le_add_of_nonneg_right hreach.le)) ?_
        rintro ⟨⟨x, hx, -, hlt⟩, -⟩
        exact hnear (sub_lt_iff_lt_add'.mpr ((le_of_mem_marks hmarks hx).trans_lt hlt))
    · rw [if_neg hafter, ih hrest, List.filter_cons_of_neg (by simpa using hafter)]
      refine and_congr_left (fun _ => ?_)
      constructor
      · rintro ⟨x, hx, hlt⟩
        exact ⟨x, List.mem_cons_of_mem b hx, hlt⟩
      · rintro ⟨x, hx, hlt⟩
        rcases List.mem_cons.mp hx with rfl | hx
        · exact absurd hlt.1 hafter
        · exact ⟨x, hx, hlt⟩

end lib.hops
