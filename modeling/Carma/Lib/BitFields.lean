-- Fields of bits in a word: a value is masked to the width of its field and shifted to its
-- place, and a word is or-ed of such fields. Fields that stand apart are read back as they
-- were put, and a change of one leaves all bits outside of it.
import Mathlib.Data.Int.Notation
import Mathlib.Data.List.Basic
import Mathlib.Tactic.Positivity
import Mathlib.Tactic.Ring
import Mathlib.Tactic.Zify

namespace lib.bit_fields

variable {w : ℕ}

/-- Some bits in a row. -/
structure Place where
  start : ℕ
  width : ℕ
deriving DecidableEq, Repr

def Place.covers (p : Place) (k : ℕ) : Prop := p.start ≤ k ∧ k < p.start + p.width

instance (p : Place) (k : ℕ) : Decidable (p.covers k) := inferInstanceAs (Decidable (_ ∧ _))

/-- One of two places ends where the other one begins, or before. -/
def Place.Apart (p q : Place) : Prop := p.start + p.width ≤ q.start ∨ q.start + q.width ≤ p.start

instance (p q : Place) : Decidable (p.Apart q) := inferInstanceAs (Decidable (_ ∨ _))

theorem Place.Apart.not_covers {p q : Place} (h : p.Apart q) {k : ℕ} (hk : p.covers k) :
    ¬ q.covers k := by
  unfold Place.Apart Place.covers at *
  omega

/-- The ones of a width. -/
def mask (w width : ℕ) : BitVec w := .ofNat w (2 ^ width - 1)

@[simp] theorem getLsbD_mask (width k : ℕ) :
    (mask w width).getLsbD k = decide (k < w ∧ k < width) := by
  simp [mask, BitVec.getLsbD_ofNat, Nat.testBit_two_pow_sub_one]

/-- A value at a place. -/
def put (p : Place) (v : BitVec w) : BitVec w := (v &&& mask w p.width) <<< p.start

theorem getLsbD_put (p : Place) (hp : p.start + p.width ≤ w) (v : BitVec w) (k : ℕ) :
    (put p v).getLsbD k = true ↔ p.covers k ∧ v.getLsbD (k - p.start) = true := by
  unfold put Place.covers
  simp only [BitVec.getLsbD_shiftLeft, BitVec.getLsbD_and, getLsbD_mask, Bool.and_eq_true,
    decide_eq_true_eq, Bool.not_eq_true', decide_eq_false_iff_not]
  constructor
  · rintro ⟨⟨-, hstart⟩, hv, -, hwidth⟩
    exact ⟨⟨by omega, by omega⟩, hv⟩
  · rintro ⟨⟨hstart, hend⟩, hv⟩
    exact ⟨⟨by omega, by omega⟩, hv, by omega, by omega⟩

/-- What is put at a place depends on so many bits as it has. -/
theorem put_congr {p : Place} (hp : p.start + p.width ≤ w) {v v' : BitVec w}
    (h : ∀ j < p.width, v.getLsbD j = v'.getLsbD j) : put p v = put p v' := by
  apply BitVec.eq_of_getLsbD_eq
  intro k _
  rw [Bool.eq_iff_iff, getLsbD_put p hp, getLsbD_put p hp]
  apply and_congr_right
  rintro ⟨hstart, hend⟩
  rw [h (k - p.start) (by omega)]

/-- The bits at a place. -/
def get (p : Place) (word : BitVec w) : BitVec p.width := word.extractLsb' p.start p.width

theorem get_eq_iff {p : Place} {word : BitVec w} {v : BitVec p.width} :
    get p word = v ↔ ∀ j < p.width, word.getLsbD (p.start + j) = v.getLsbD j := by
  constructor
  · rintro rfl j hj
    simp [get, hj]
  · intro h
    apply BitVec.eq_of_getLsbD_eq
    intro j hj
    simp [get, hj, h j hj]

/-! ## A word of fields -/

variable {ι : Type}

/-- A word is or-ed of values at their places. -/
def assemble (place : ι → Place) (v : ι → BitVec w) (is : List ι) : BitVec w :=
  is.foldl (fun word i => word ||| put (place i) (v i)) 0

theorem getLsbD_foldl (part : ι → BitVec w) (is : List ι) (word : BitVec w) (k : ℕ) :
    (is.foldl (fun word i => word ||| part i) word).getLsbD k = true ↔
      word.getLsbD k = true ∨ ∃ i ∈ is, (part i).getLsbD k = true := by
  induction is generalizing word with
  | nil => simp
  | cons i is ih => simp [ih, or_assoc]

section Assemble

variable {place : ι → Place} (hplace : ∀ i, (place i).start + (place i).width ≤ w)
  (v : ι → BitVec w) {is : List ι} (hall : ∀ i, i ∈ is)

include hplace hall in
theorem getLsbD_assemble (k : ℕ) : (assemble place v is).getLsbD k = true ↔
    ∃ i, (place i).covers k ∧ (v i).getLsbD (k - (place i).start) = true := by
  unfold assemble
  rw [getLsbD_foldl]
  simp [hall, getLsbD_put _ (hplace _)]

include hplace hall in
/-- A field that stands apart from the others has just its value. -/
theorem getLsbD_assemble_of_apart {i : ι} (hapart : ∀ j ≠ i, (place i).Apart (place j)) {k : ℕ}
    (hk : k < (place i).width) :
    (assemble place v is).getLsbD ((place i).start + k) = (v i).getLsbD k := by
  rw [Bool.eq_iff_iff, getLsbD_assemble hplace v hall]
  have hcovers : (place i).covers ((place i).start + k) := ⟨by omega, by omega⟩
  constructor
  · rintro ⟨j, hj, hv⟩
    by_cases hji : j = i
    · subst hji
      simpa using hv
    · exact absurd hj ((hapart j hji).not_covers hcovers)
  · intro hv
    exact ⟨i, hcovers, by simpa using hv⟩

include hplace hall in
theorem getLsbD_assemble_of_same {v' : ι → BitVec w} {i : ι} (hsame : ∀ j ≠ i, v' j = v j) {k : ℕ}
    (hk : ¬ (place i).covers k) :
    (assemble place v' is).getLsbD k = (assemble place v is).getLsbD k := by
  rw [Bool.eq_iff_iff, getLsbD_assemble hplace v' hall, getLsbD_assemble hplace v hall]
  apply exists_congr
  intro j
  apply and_congr_right
  intro hj
  have hji : j ≠ i := by
    rintro rfl
    exact hk hj
  rw [hsame j hji]

end Assemble

/-! ## Numbers in fields -/

/-- The numbers that a width has, with or without a sign. -/
def Fits (signed : Bool) (width : ℕ) (n : ℤ) : Prop :=
  if signed then -2 ^ (width - 1) ≤ n ∧ n < 2 ^ (width - 1) else 0 ≤ n ∧ n < 2 ^ width

instance (signed : Bool) (width : ℕ) (n : ℤ) : Decidable (Fits signed width n) :=
  inferInstanceAs (Decidable (if signed then _ ∧ _ else _ ∧ _))

/-- The number that some bits are read as. -/
def number (signed : Bool) {width : ℕ} (bits : BitVec width) : ℤ :=
  if signed then bits.toInt else bits.toNat

theorem number_eq_iff {signed : Bool} {width : ℕ} (hwidth : 0 < width) {n : ℤ}
    (hn : Fits signed width n) (bits : BitVec width) :
    number signed bits = n ↔ bits = BitVec.ofInt width n := by
  unfold Fits at hn
  unfold number
  cases signed with
  | false =>
    simp only [Bool.false_eq_true, if_false] at hn ⊢
    have hvalue : ((BitVec.ofInt width n).toNat : ℤ) = n := by
      rw [BitVec.toNat_ofInt, Int.toNat_of_nonneg (Int.emod_nonneg _ (by positivity))]
      push_cast
      exact Int.emod_eq_of_lt hn.1 hn.2
    constructor
    · rintro rfl
      apply BitVec.eq_of_toNat_eq
      exact_mod_cast hvalue.symm
    · rintro rfl
      exact hvalue
  | true =>
    simp only [if_true] at hn ⊢
    have hvalue : (BitVec.ofInt width n).toInt = n := by
      obtain ⟨width, rfl⟩ := Nat.exists_eq_succ_of_ne_zero hwidth.ne'
      simp only [Nat.succ_eq_add_one, Nat.add_sub_cancel] at hn
      rw [BitVec.toInt_ofInt]
      have hpow : (2 : ℤ) ^ (width + 1) = 2 * 2 ^ width := by ring
      apply Int.bmod_eq_of_le <;> push_cast <;> omega
    constructor
    · rintro rfl
      rw [BitVec.ofInt_toInt]
    · rintro rfl
      exact hvalue

/-- Fewer bits of a number are the low ones of more. -/
theorem getLsbD_ofInt_of_le {m n : ℕ} (hmn : m ≤ n) (v : ℤ) {j : ℕ} (hj : j < m) :
    (BitVec.ofInt m v).getLsbD j = (BitVec.ofInt n v).getLsbD j := by
  have hset : BitVec.ofInt m v = (BitVec.ofInt n v).setWidth m := by
    apply BitVec.eq_of_toNat_eq
    rw [BitVec.toNat_setWidth, BitVec.toNat_ofInt, BitVec.toNat_ofInt]
    zify
    rw [Int.toNat_of_nonneg (Int.emod_nonneg _ (by positivity)),
      Int.toNat_of_nonneg (Int.emod_nonneg _ (by positivity))]
    exact (Int.emod_emod_of_dvd v (pow_dvd_pow 2 hmn)).symm
  rw [hset]
  simp [hj]

theorem getLsbD_ofInt_of_fits {width : ℕ} {n : ℤ} (hn : Fits false width n) {j : ℕ}
    (hj : width ≤ j) : (BitVec.ofInt w n).getLsbD j = false := by
  simp only [Fits, Bool.false_eq_true, if_false] at hn
  obtain ⟨k, rfl⟩ := Int.eq_ofNat_of_zero_le hn.1
  have hk : k < 2 ^ width := by exact_mod_cast hn.2
  have hbit : k.testBit j = false :=
    Nat.testBit_lt_two_pow (hk.trans_le (Nat.pow_le_pow_right two_pos hj))
  rw [BitVec.ofInt_natCast, BitVec.getLsbD_ofNat, hbit, Bool.and_false]

theorem number_get_iff {signed : Bool} {p : Place} (hpos : 0 < p.width) (hp : p.width ≤ w) {n : ℤ}
    (hn : Fits signed p.width n) (word : BitVec w) :
    number signed (get p word) = n ↔
      ∀ j < p.width, word.getLsbD (p.start + j) = (BitVec.ofInt w n).getLsbD j := by
  rw [number_eq_iff hpos hn, get_eq_iff]
  apply forall_congr'
  intro j
  apply imp_congr_right
  intro hj
  rw [getLsbD_ofInt_of_le hp n hj]

theorem put_setWidth {m : ℕ} (hm : m ≤ w) (n : ℤ) {p : Place} (hp : p.start + p.width ≤ w)
    (hwidth : p.width ≤ m) :
    put p ((BitVec.ofInt m n).setWidth w) = put p (BitVec.ofInt w n) := by
  apply put_congr hp
  intro j hj
  rw [BitVec.getLsbD_setWidth, getLsbD_ofInt_of_le hm n (by omega)]
  simp
  omega

theorem put_signExtend {m : ℕ} (hm : m ≤ w) (n : ℤ) {p : Place} (hp : p.start + p.width ≤ w)
    (hwidth : p.width ≤ m) :
    put p ((BitVec.ofInt m n).signExtend w) = put p (BitVec.ofInt w n) := by
  apply put_congr hp
  intro j hj
  have hjm : j < m := by omega
  have hjw : j < w := by omega
  rw [BitVec.getLsbD_signExtend, if_pos hjm, getLsbD_ofInt_of_le hm n hjm]
  simp [hjw]

end lib.bit_fields
