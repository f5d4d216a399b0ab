-- Double arithmetic without rounding: the numbers of an ordered field, the two
-- infinities and the value that is not a number, with the rules that Java gives
-- for them. There is one zero, and a division by it counts as one by +0.
import Mathlib.Algebra.Order.Field.Basic
import Mathlib.Algebra.Order.Monoid.WithTop

namespace lib.exact_double

/-- A double: a number, an infinity (the negative one if `neg`), or NaN. -/
inductive Dbl (K : Type)
  | fin (x : K)
  | inf (neg : Bool)
  | nan
deriving DecidableEq

namespace Dbl

variable {K : Type}

section order

variable [LinearOrder K]

/-- `a <= b`. -/
def le : Dbl K → Dbl K → Bool
  | nan, _ => false
  | _, nan => false
  | inf true, _ => true
  | _, inf false => true
  | inf false, _ => false
  | _, inf true => false
  | fin x, fin y => decide (x ≤ y)

/-- `a < b`. -/
def lt : Dbl K → Dbl K → Bool
  | nan, _ => false
  | _, nan => false
  | _, inf true => false
  | inf false, _ => false
  | inf true, _ => true
  | _, inf false => true
  | fin x, fin y => decide (x < y)

/-- `a == b`. -/
def eq : Dbl K → Dbl K → Bool
  | fin x, fin y => decide (x = y)
  | inf s, inf t => s == t
  | _, _ => false

@[simp] theorem le_fin (x y : K) : le (fin x) (fin y) = decide (x ≤ y) := rfl

@[simp] theorem lt_fin (x y : K) : lt (fin x) (fin y) = decide (x < y) := rfl

/-- Of two in order, the second is not below the first. -/
theorem lt_eq_false_of_le {a b : Dbl K} (h : a.le b = true) : b.lt a = false := by
  rcases a with x | ⟨_ | _⟩ | _ <;> rcases b with y | ⟨_ | _⟩ | _ <;> simp_all [le, lt]

theorem le_of_lt {a b : Dbl K} (h : a.lt b = true) : a.le b = true := by
  rcases a with x | ⟨_ | _⟩ | _ <;> rcases b with y | ⟨_ | _⟩ | _ <;> simp_all [le, lt, LT.lt.le]

theorem lt_asymm {a b : Dbl K} (h : a.lt b = true) : b.lt a = false :=
  lt_eq_false_of_le (le_of_lt h)

end order

variable [Field K]

def neg : Dbl K → Dbl K
  | fin x => fin (-x)
  | inf s => inf (!s)
  | nan => nan

def add : Dbl K → Dbl K → Dbl K
  | nan, _ => nan
  | _, nan => nan
  | fin x, fin y => fin (x + y)
  | fin _, inf t => inf t
  | inf s, fin _ => inf s
  | inf s, inf t => if s = t then inf s else nan

def sub (a b : Dbl K) : Dbl K := add a (neg b)

variable [LinearOrder K]

def mul : Dbl K → Dbl K → Dbl K
  | nan, _ => nan
  | _, nan => nan
  | fin x, fin y => fin (x * y)
  | fin x, inf t => if x = 0 then nan else inf (xor (decide (x < 0)) t)
  | inf s, fin y => if y = 0 then nan else inf (xor s (decide (y < 0)))
  | inf s, inf t => inf (xor s t)

def div : Dbl K → Dbl K → Dbl K
  | nan, _ => nan
  | _, nan => nan
  | fin x, fin y =>
    if y = 0 then if x = 0 then nan else inf (decide (x < 0)) else fin (x / y)
  | fin _, inf _ => fin 0
  | inf s, fin y => inf (xor s (decide (y < 0)))
  | inf _, inf _ => nan

theorem div_fin (x : K) {y : K} (h : y ≠ 0) : div (fin x) (fin y) = fin (x / y) := by
  simp only [div, if_neg h]

/-- The larger of two, and NaN if one of them is. -/
def maxOf (a b : Dbl K) : Dbl K :=
  if a = nan ∨ b = nan then nan else if a.le b then b else a

/-- The smaller of two, and NaN if one of them is. -/
def minOf (a b : Dbl K) : Dbl K :=
  if a = nan ∨ b = nan then nan else if a.le b then a else b

/-- The value, or the bound that it is past. -/
def clampTo (low high : K) (a : Dbl K) : Dbl K :=
  if (fin high).lt a then fin high else if a.lt (fin low) then fin low else a

omit [Field K] in
theorem maxOf_fin (x y : K) : maxOf (fin x) (fin y) = fin (max x y) := by
  unfold maxOf
  rw [if_neg (by simp), le_fin, max_def]
  by_cases h : x ≤ y
  · rw [decide_eq_true h, if_pos rfl, if_pos h]
  · rw [decide_eq_false h, if_neg Bool.false_ne_true, if_neg h]

omit [Field K] in
theorem minOf_fin (x y : K) : minOf (fin x) (fin y) = fin (min x y) := by
  unfold minOf
  rw [if_neg (by simp), le_fin, min_def]
  by_cases h : x ≤ y
  · rw [decide_eq_true h, if_pos rfl, if_pos h]
  · rw [decide_eq_false h, if_neg Bool.false_ne_true, if_neg h]

omit [Field K] in
theorem maxOf_ne_nan {a b : Dbl K} (ha : a ≠ nan) (hb : b ≠ nan) : maxOf a b ≠ nan := by
  unfold maxOf
  rw [if_neg (not_or.mpr ⟨ha, hb⟩)]
  split_ifs
  · exact hb
  · exact ha

omit [Field K] in
theorem minOf_ne_nan {a b : Dbl K} (ha : a ≠ nan) (hb : b ≠ nan) : minOf a b ≠ nan := by
  unfold minOf
  rw [if_neg (not_or.mpr ⟨ha, hb⟩)]
  split_ifs
  · exact ha
  · exact hb

omit [Field K] in
theorem clampTo_ne_nan {low high : K} {a : Dbl K} (ha : a ≠ nan) : clampTo low high a ≠ nan := by
  unfold clampTo
  split_ifs
  · nofun
  · nofun
  · exact ha

omit [Field K] in
/-- What is not NaN is a number between the bounds once it is clamped. -/
theorem clampTo_between {low high : K} {a : Dbl K} (ha : a ≠ nan) (h : low ≤ high) :
    ∃ z, clampTo low high a = fin z ∧ low ≤ z ∧ z ≤ high := by
  cases a with
  | nan => exact absurd rfl ha
  | inf neg =>
    cases neg
    · exact ⟨high, by simp [clampTo, lt], h, le_refl high⟩
    · exact ⟨low, by simp [clampTo, lt], le_refl low, h⟩
  | fin x =>
    unfold clampTo lt
    by_cases hhigh : high < x
    · exact ⟨high, by simp [hhigh], h, le_refl high⟩
    · by_cases hlow : x < low
      · exact ⟨low, by simp [hhigh, hlow], le_refl low, h⟩
      · exact ⟨x, by simp [hhigh, hlow], not_lt.mp hlow, not_lt.mp hhigh⟩

def abs : Dbl K → Dbl K
  | fin x => fin |x|
  | inf _ => inf false
  | nan => nan

instance : Coe K (Dbl K) := ⟨fin⟩

instance : Neg (Dbl K) := ⟨neg⟩

instance : Add (Dbl K) := ⟨add⟩

instance : Sub (Dbl K) := ⟨sub⟩

instance : Mul (Dbl K) := ⟨mul⟩

instance : Div (Dbl K) := ⟨div⟩

omit [LinearOrder K] in
theorem fin_add (x y : K) : (fin x + fin y : Dbl K) = fin (x + y) := rfl

omit [LinearOrder K] in
theorem fin_sub (x y : K) : (fin x - fin y : Dbl K) = fin (x - y) :=
  congrArg fin (sub_eq_add_neg x y).symm

theorem fin_mul (x y : K) : (fin x * fin y : Dbl K) = fin (x * y) := rfl

theorem fin_div (x : K) {y : K} (h : y ≠ 0) : (fin x / fin y : Dbl K) = fin (x / y) :=
  div_fin x h

omit [LinearOrder K] in
/-- A sum is a number only of numbers. -/
theorem add_eq_fin {a b : Dbl K} {z : K} (h : a + b = fin z) :
    ∃ x y, a = fin x ∧ b = fin y ∧ x + y = z := by
  rcases a with x | s | _ <;> rcases b with y | t | _ <;> simp only [HAdd.hAdd, Add.add, add] at h
  · exact ⟨x, y, rfl, rfl, fin.inj h⟩
  all_goals first | cases h | (split at h <;> cases h)

omit [LinearOrder K] in
theorem sub_eq_fin {a b : Dbl K} {z : K} (h : a - b = fin z) :
    ∃ x y, a = fin x ∧ b = fin y ∧ x - y = z := by
  obtain ⟨x, y, rfl, hy, rfl⟩ := add_eq_fin (a := a) (b := neg b) h
  rcases b with b | s | _
  · obtain rfl := fin.inj hy
    exact ⟨x, b, rfl, rfl, sub_eq_add_neg x b⟩
  all_goals cases hy

omit [LinearOrder K] in
/-- A number that is added to a sum goes to the one in it. -/
theorem fin_add_right (x y : K) (a : Dbl K) : fin x + a + fin y = fin (x + y) + a := by
  rcases a with z | s | _
  · exact congrArg fin (add_right_comm x z y)
  all_goals rfl

omit [LinearOrder K] in
theorem fin_sub_right (x y : K) (a : Dbl K) : fin x + a - fin y = fin (x - y) + a := by
  rw [sub_eq_add_neg]
  exact fin_add_right x (-y) a

omit [LinearOrder K] in
theorem fin_add_sub (x : K) (a : Dbl K) : fin x + (a - fin x) = a := by
  rcases a with z | s | _
  · exact congrArg fin (by rw [← sub_eq_add_neg, add_sub_cancel])
  all_goals rfl

/-- A positive number divided by zero. -/
theorem fin_div_zero {x : K} (h : 0 < x) : (fin x / fin 0 : Dbl K) = inf false := by
  show div (fin x) (fin 0) = _
  simp [div, h.ne', h.le]

omit [LinearOrder K] in
theorem neg_fin (x : K) : (-fin x : Dbl K) = fin (-x) := rfl

omit [LinearOrder K] in
theorem neg_add_dbl (a b : Dbl K) : -(a + b) = -a + -b := by
  rcases a with x | s | _ <;> rcases b with y | t | _
  · exact congrArg fin (neg_add x y)
  all_goals try rfl
  · show neg (if s = t then inf s else nan) = if (!s) = (!t) then inf (!s) else nan
    cases s <;> cases t <;> rfl

/-- A quotient is odd in what is divided. -/
theorem neg_div_dbl [IsStrictOrderedRing K] (x y : K) :
    (fin (-x) / fin y : Dbl K) = -(fin x / fin y) := by
  show (if y = 0 then if -x = 0 then nan else inf (decide (-x < 0)) else fin (-x / y)) =
    neg (if y = 0 then if x = 0 then nan else inf (decide (x < 0)) else fin (x / y))
  split_ifs with hy hneg hx hx
  · rfl
  · exact absurd (neg_eq_zero.mp hneg) hx
  · exact absurd (neg_eq_zero.mpr hx) hneg
  · rcases lt_or_gt_of_ne hx with hlt | hgt
    · simp [neg, hlt, hlt.le]
    · simp [neg, hgt, hgt.le]
  · exact congrArg fin (neg_div y x)

theorem add_div_zero (a b x : K) : (fin a + fin x / fin 0 : Dbl K) = fin b + fin x / fin 0 := by
  have hdiv : (fin x / fin 0 : Dbl K) = if x = 0 then nan else inf (decide (x < 0)) := if_pos rfl
  rw [hdiv]
  split <;> rfl

/-- A quotient by a square has the sign of what is divided, or is NaN. -/
theorem div_sq_sign [IsStrictOrderedRing K] (x y : K) :
    (fin x / fin (y ^ 2) : Dbl K) = nan ∨ (x = 0 ∧ (fin x / fin (y ^ 2) : Dbl K) = fin 0) ∨
      (0 < x ∧ lt (fin 0) (fin x / fin (y ^ 2)) = true) ∨
      (x < 0 ∧ lt (fin x / fin (y ^ 2)) (fin 0) = true) := by
  by_cases hy : y = 0
  · have hdiv : (fin x / fin (y ^ 2) : Dbl K) = if x = 0 then nan else inf (decide (x < 0)) := by
      rw [hy, sq, mul_zero]
      exact if_pos rfl
    rw [hdiv]
    rcases lt_trichotomy x 0 with hx | hx | hx
    · rw [if_neg hx.ne, decide_eq_true hx]
      exact Or.inr (Or.inr (Or.inr ⟨hx, rfl⟩))
    · exact Or.inl (if_pos hx)
    · rw [if_neg hx.ne', decide_eq_false hx.le.not_gt]
      exact Or.inr (Or.inr (Or.inl ⟨hx, rfl⟩))
  · have hsq : 0 < y ^ 2 := lt_of_le_of_ne (sq_nonneg y) (pow_ne_zero 2 hy).symm
    rw [fin_div x hsq.ne', lt_fin, lt_fin, decide_eq_true_eq, decide_eq_true_eq]
    rcases lt_trichotomy x 0 with hx | hx | hx
    · exact Or.inr (Or.inr (Or.inr ⟨hx, div_neg_of_neg_of_pos hx hsq⟩))
    · exact Or.inr (Or.inl ⟨hx, by rw [hx, zero_div]⟩)
    · exact Or.inr (Or.inr (Or.inl ⟨hx, div_pos hx hsq⟩))

theorem clampTo_of_pos [IsStrictOrderedRing K] (low : K) {bound : K} {a : Dbl K}
    (h : lt (fin bound) a.abs = true) (ha : lt (fin 0) a = true) :
    clampTo low bound a = fin bound := by
  have hlt : lt (fin bound) a = true := by
    rcases a with x | ⟨_ | _⟩ | _
    · rw [lt_fin, decide_eq_true_eq] at ha
      rwa [abs, abs_of_pos ha] at h
    · rfl
    · cases ha
    · cases ha
  unfold clampTo
  rw [if_pos hlt]

omit [Field K] in
/-- Between a bound and itself there is nothing else. -/
theorem clampTo_self {bound : K} {a : Dbl K} (ha : a ≠ nan) : clampTo bound bound a = fin bound := by
  obtain ⟨z, hz, hlow, hhigh⟩ := clampTo_between ha (le_refl bound)
  rw [hz, le_antisymm hhigh hlow]

/-! ## Numbers and the positive infinity -/

/-- A number or the positive infinity. -/
def Above : Dbl K → Prop
  | fin _ => True
  | inf neg => neg = false
  | nan => False

/-- A number as it is, and a top above all numbers for the rest. -/
def topped : Dbl K → WithTop K
  | fin x => x
  | _ => ⊤

omit [Field K] in
theorem le_iff_topped {a b : Dbl K} (ha : a.Above) (hb : b.Above) :
    a.le b = true ↔ a.topped ≤ b.topped := by
  rcases a with x | ⟨_ | _⟩ | _ <;> rcases b with y | ⟨_ | _⟩ | _ <;>
    simp_all [Above, topped, le]

omit [Field K] in
theorem lt_iff_topped {a b : Dbl K} (ha : a.Above) (hb : b.Above) :
    a.lt b = true ↔ a.topped < b.topped := by
  rcases a with x | ⟨_ | _⟩ | _ <;> rcases b with y | ⟨_ | _⟩ | _ <;>
    simp_all [Above, topped, lt]

omit [LinearOrder K] in
theorem add_above {a b : Dbl K} (ha : a.Above) (hb : b.Above) : (a.add b).Above := by
  rcases a with x | ⟨_ | _⟩ | _ <;> rcases b with y | ⟨_ | _⟩ | _ <;> simp_all [Above, add]

omit [LinearOrder K] in
theorem topped_add {a b : Dbl K} (ha : a.Above) (hb : b.Above) :
    (a.add b).topped = a.topped + b.topped := by
  rcases a with x | ⟨_ | _⟩ | _ <;> rcases b with y | ⟨_ | _⟩ | _ <;>
    simp_all [Above, add, topped]

/-- What is at least zero is no NaN and not the negative infinity. -/
theorem above_of_zero_le {a : Dbl K} (h : (fin 0).le a = true) : a.Above := by
  rcases a with x | ⟨_ | _⟩ | _ <;> simp_all [Above, le]

end Dbl

end lib.exact_double
