-- Tries that are repeated until one is final or the count of the failures comes to a limit: which
-- try ends them, and what the tries before it cost.
import Mathlib.Algebra.BigOperators.Group.Finset.Basic
import Mathlib.Algebra.Order.Ring.Int

namespace lib.retries

variable {S A : Type*}

/-- Try again while the count is below `limit`. What comes back is the final try, if there is
one, the tries in their order and the state after them. `none` stands for tries that go on
for longer than `fuel`. -/
def retry (step : S → A × S) (final : A → Bool) (next : A → ℤ → ℤ) (limit : ℤ) :
    ℕ → ℤ → S → Option (Option A × List A × S)
  | fuel, count, s =>
    if count < limit then
      match fuel with
      | 0 => none
      | fuel + 1 =>
        if final (step s).1 then some (some (step s).1, [(step s).1], (step s).2)
        else (retry step final next limit fuel (next (step s).1 count) (step s).2).map
          fun (answer, log, s') => (answer, (step s).1 :: log, s')
    else some (none, [], s)

section stream

variable (step : S → A × S)

/-- The tries from a state on, whether they are final or not. -/
def tries (s : S) : ℕ → A
  | 0 => (step s).1
  | i + 1 => tries (step s).2 i

/-- The first tries, in their order. -/
def firsts (s : S) : ℕ → List A
  | 0 => []
  | k + 1 => (step s).1 :: firsts (step s).2 k

/-- The count before a try, whether it is over the limit or not. -/
def countAt (next : A → ℤ → ℤ) (count : ℤ) (s : S) : ℕ → ℤ
  | 0 => count
  | k + 1 => countAt next (next (step s).1 count) (step s).2 k

/-- What the first tries cost together. -/
def spent (cost : A → ℤ) (s : S) (k : ℕ) : ℤ := ∑ i ∈ Finset.range k, cost (tries step s i)

end stream

variable {step : S → A × S}

@[simp] theorem length_firsts (s : S) (k : ℕ) : (firsts step s k).length = k := by
  induction k generalizing s with
  | zero => rfl
  | succ k ih => rw [firsts, List.length_cons, ih]

theorem mem_firsts {s : S} {k : ℕ} {a : A} :
    a ∈ firsts step s k ↔ ∃ i, i < k ∧ tries step s i = a := by
  induction k generalizing s with
  | zero => simp [firsts]
  | succ k ih =>
    rw [firsts, List.mem_cons, ih]
    constructor
    · rintro (rfl | ⟨i, hi, rfl⟩)
      · exact ⟨0, k.succ_pos, rfl⟩
      · exact ⟨i + 1, Nat.succ_lt_succ hi, rfl⟩
    · rintro ⟨_ | i, hi, rfl⟩
      · exact Or.inl rfl
      · exact Or.inr ⟨i, Nat.lt_of_succ_lt_succ hi, rfl⟩

@[simp] theorem spent_zero (cost : A → ℤ) (s : S) : spent step cost s 0 = 0 := rfl

theorem spent_succ (cost : A → ℤ) (s : S) (k : ℕ) :
    spent step cost s (k + 1) = cost (step s).1 + spent step cost (step s).2 k := by
  unfold spent
  rw [Finset.sum_range_succ', add_comm]
  rfl

theorem spent_extra {extra : A → ℕ} (s : S) (k : ℕ) :
    spent step (fun a => 1 + (extra a : ℤ)) s k =
      k + ∑ i ∈ Finset.range k, (extra (tries step s i) : ℤ) := by
  unfold spent
  rw [Finset.sum_add_distrib, Finset.sum_const, Finset.card_range, nsmul_eq_mul, mul_one]

/-- What never changes as the tries go on holds at each of them. -/
theorem forall_tries {P : A → Prop} {I : S → Prop} (hstep : ∀ s, I s → P (step s).1 ∧ I (step s).2)
    {s : S} (h : I s) (i : ℕ) : P (tries step s i) := by
  induction i generalizing s with
  | zero => exact (hstep s h).1
  | succ i ih => exact ih (hstep s h).2

variable {final : A → Bool} {next : A → ℤ → ℤ} {cost : A → ℤ} {limit count : ℤ}

@[simp] theorem countAt_zero (s : S) : countAt step next count s 0 = count := rfl

@[simp] theorem countAt_succ (s : S) (k : ℕ) :
    countAt step next count s (k + 1) = countAt step next (next (step s).1 count) (step s).2 k := rfl

/-- A count that goes on by the cost of a try, but for how numbers are kept. -/
theorem countAt_kept {keep : ℤ → ℤ} (hnext : ∀ a x, next a (keep x) = keep (x + cost a)) (x : ℤ)
    (s : S) (k : ℕ) : countAt step next (keep x) s k = keep (x + spent step cost s k) := by
  induction k generalizing x s with
  | zero => rw [countAt_zero, spent_zero, add_zero]
  | succ k ih => rw [countAt_succ, hnext, ih, spent_succ, add_assoc]

/-- The first `k` tries all fail, each before the count has come to the limit. -/
def FailsBefore (step : S → A × S) (final : A → Bool) (next : A → ℤ → ℤ) (limit count : ℤ) (s : S)
    (k : ℕ) : Prop :=
  ∀ i < k, final (tries step s i) = false ∧ countAt step next count s i < limit

theorem failsBefore_zero (s : S) : FailsBefore step final next limit count s 0 :=
  fun i hi => absurd hi (Nat.not_lt_zero i)

theorem failsBefore_succ {s : S} {k : ℕ} :
    FailsBefore step final next limit count s (k + 1) ↔
      (final (step s).1 = false ∧ count < limit) ∧
        FailsBefore step final next limit (next (step s).1 count) (step s).2 k := by
  unfold FailsBefore
  constructor
  · intro h
    exact ⟨h 0 k.succ_pos, fun i hi => h (i + 1) (Nat.succ_lt_succ hi)⟩
  · rintro ⟨hfirst, hrest⟩ (_ | i) hi
    · exact hfirst
    · exact hrest i (Nat.lt_of_succ_lt_succ hi)

/-! ## One try -/

theorem retry_out (h : limit ≤ count) (fuel : ℕ) (s : S) :
    retry step final next limit fuel count s = some (none, [], s) := by
  unfold retry
  exact if_neg (not_lt.mpr h)

theorem retry_zero (h : count < limit) (s : S) :
    retry step final next limit 0 count s = none := by
  unfold retry
  exact if_pos h

theorem retry_good (h : count < limit) {s : S} (hfinal : final (step s).1 = true) (fuel : ℕ) :
    retry step final next limit (fuel + 1) count s =
      some (some (step s).1, [(step s).1], (step s).2) := by
  unfold retry
  rw [if_pos h]
  exact if_pos hfinal

theorem retry_bad (h : count < limit) {s : S} (hfinal : final (step s).1 = false) (fuel : ℕ) :
    retry step final next limit (fuel + 1) count s =
      (retry step final next limit fuel (next (step s).1 count) (step s).2).map
        fun (answer, log, s') => (answer, (step s).1 :: log, s') := by
  conv_lhs => unfold retry
  rw [if_pos h]
  exact if_neg (by rw [hfinal]; exact Bool.false_ne_true)

/-! ## The end of the tries -/

/-- With fuel enough the tries end with the first final one. -/
theorem retry_final {s : S} {k : ℕ} (h : FailsBefore step final next limit count s k)
    (hfinal : final (tries step s k) = true) (hbelow : countAt step next count s k < limit)
    {fuel : ℕ} (hfuel : k < fuel) :
    ∃ s', retry step final next limit fuel count s =
      some (some (tries step s k), firsts step s (k + 1), s') := by
  obtain ⟨fuel, rfl⟩ := Nat.exists_eq_succ_of_ne_zero (Nat.ne_zero_of_lt hfuel)
  induction k generalizing fuel count s with
  | zero => exact ⟨_, retry_good hbelow hfinal fuel⟩
  | succ k ih =>
    obtain ⟨⟨hbad, hcount⟩, hrest⟩ := failsBefore_succ.mp h
    obtain ⟨fuel, rfl⟩ := Nat.exists_eq_succ_of_ne_zero (n := fuel) (by omega)
    obtain ⟨s', hretry⟩ := ih hrest hfinal hbelow fuel (by omega)
    exact ⟨s', by rw [retry_bad hcount hbad, hretry]; rfl⟩

theorem retry_given_up {s : S} {k : ℕ} (h : FailsBefore step final next limit count s k)
    (hout : limit ≤ countAt step next count s k) {fuel : ℕ} (hfuel : k ≤ fuel) :
    ∃ s', retry step final next limit fuel count s = some (none, firsts step s k, s') := by
  induction k generalizing fuel count s with
  | zero => exact ⟨s, retry_out hout fuel s⟩
  | succ k ih =>
    obtain ⟨⟨hbad, hcount⟩, hrest⟩ := failsBefore_succ.mp h
    obtain ⟨fuel, rfl⟩ := Nat.exists_eq_succ_of_ne_zero (n := fuel) (by omega)
    obtain ⟨s', hretry⟩ := ih hrest hout (Nat.le_of_succ_le_succ hfuel)
    exact ⟨s', by rw [retry_bad hcount hbad, hretry]; rfl⟩

/-- Tries that have ended did so in one of the two ways. -/
theorem retry_ended {fuel : ℕ} {s s' : S} {answer : Option A} {log : List A}
    (h : retry step final next limit fuel count s = some (answer, log, s')) :
    ∃ k, FailsBefore step final next limit count s k ∧
      ((final (tries step s k) = true ∧ countAt step next count s k < limit ∧
        answer = some (tries step s k) ∧ log = firsts step s (k + 1)) ∨
      (limit ≤ countAt step next count s k ∧ answer = none ∧ log = firsts step s k)) := by
  induction fuel generalizing count s answer log with
  | zero =>
    rcases lt_or_ge count limit with hcount | hout
    · rw [retry_zero hcount] at h
      cases h
    · rw [retry_out hout] at h
      cases h
      exact ⟨0, failsBefore_zero _, Or.inr ⟨hout, rfl, rfl⟩⟩
  | succ fuel ih =>
    rcases lt_or_ge count limit with hcount | hout
    · cases hfinal : final (step s).1 with
      | true =>
        rw [retry_good hcount hfinal] at h
        cases h
        exact ⟨0, failsBefore_zero s, Or.inl ⟨hfinal, hcount, rfl, rfl⟩⟩
      | false =>
        rw [retry_bad hcount hfinal] at h
        obtain ⟨⟨answer', log', s''⟩, hrest, heq⟩ := Option.map_eq_some_iff.mp h
        cases heq
        obtain ⟨k, hfails, hend⟩ := ih hrest
        refine ⟨k + 1, failsBefore_succ.mpr ⟨⟨hfinal, hcount⟩, hfails⟩, ?_⟩
        rcases hend with ⟨hgood, hin, rfl, rfl⟩ | ⟨hout, rfl, rfl⟩
        · exact Or.inl ⟨hgood, hin, rfl, rfl⟩
        · exact Or.inr ⟨hout, rfl, rfl⟩
    · rw [retry_out hout] at h
      cases h
      exact ⟨0, failsBefore_zero _, Or.inr ⟨hout, rfl, rfl⟩⟩

end lib.retries
