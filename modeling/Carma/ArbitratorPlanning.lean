-- The attempts of a planning: what is returned was validated, and null comes after as many
-- attempts as are acceptable, unless a request has been counted twice.
import Mathlib.Algebra.BigOperators.Group.Finset.Piecewise
import Mathlib.Algebra.BigOperators.Ring.Finset
import Mathlib.Algebra.Order.Ring.Rat
import Carma.Arbitrator

open lib lib.retries
open carma.maneuvers
open carma.route
open carma.trajectory

namespace carma.arbitrator

variable {K P W : Type} [LinearOrder K] [DecidableEq P]

/-! ## Attempts -/

def Attempt.isRequest : Attempt K → Bool
  | requested _ => true
  | _ => false

theorem ends_iff {x : Attempt K} :
    x.ends = true ↔ x = .threw ∨ ∃ traj, x = .validated traj true := by
  cases x with
  | threw => simp [Attempt.ends]
  | requested traj => simp [Attempt.ends]
  | validated traj verdict => simp [Attempt.ends]

/-- What an attempt counts for beyond the attempt itself. -/
def Attempt.extra (attempt : Attempt K) : ℕ := if attempt.isRequest then 1 else 0

/-- The speed at which the next trajectory is entered is at hand: there was no trajectory
before it, or that one had a complex maneuver or some longitudinal one. -/
def EntrySpeedKnown (trajectory : Option (Trajectory K)) : Prop :=
  ∀ t, trajectory = some t → t.complexManeuver.isSome = true ∨ t.getLongitudinalManeuvers ≠ []

omit [DecidableEq P] in
theorem expectedEntrySpeed_known {trajectory : Option (Trajectory K)} (currentSpeed : K) :
    expectedEntrySpeed trajectory currentSpeed ≠ none ↔ EntrySpeedKnown trajectory := by
  unfold expectedEntrySpeed EntrySpeedKnown
  cases trajectory with
  | none => simp
  | some t =>
    simp only [Option.some.injEq, forall_eq']
    by_cases hcomplex : t.complexManeuver.isSome = true
    · simp [hcomplex]
    · simp [hcomplex]

theorem attempt_threw_iff (env : Environment K P W) (trajectory : Option (Trajectory K))
    (trajectoryStart : K) (s : Planning K P W) :
    (attempt env trajectory trajectoryStart s).1 = .threw ↔ ¬ EntrySpeedKnown trajectory := by
  rw [← expectedEntrySpeed_known (env.currentSpeed s.world), not_not]
  unfold attempt
  cases expectedEntrySpeed trajectory (env.currentSpeed s.world) with
  | none => simp
  | some entrySpeed =>
    dsimp only
    split
    · simp
    · simp

omit [DecidableEq P] in
/-- The counter counts an attempt, and a request once more, as far as an int tells. -/
theorem nextFailures_wrapInt (attempt : Attempt K) (failures : ℤ) :
    nextFailures attempt (wrapInt failures) =
      wrapInt (failures + (1 + (attempt.extra : ℤ))) := by
  have hadd : ∀ x y : ℤ, wrapInt (wrapInt x + y) = wrapInt (x + y) := fun _ _ => Int.bmod_add_bmod
  cases attempt with
  | threw => exact hadd _ _
  | validated traj verdict => exact hadd _ _
  | requested traj =>
    unfold nextFailures
    dsimp only
    rw [hadd, add_assoc, hadd]
    rfl

/-! ## Calls -/

section call

variable (a : Arbitrator K P) (env : Environment K P W) (trajectoryStart trajectoryEnd : K) (world : W)

/-- The `i`-th attempt, if there were no limit. -/
def Arbitrator.attemptAt (i : ℕ) : Attempt K :=
  tries (attempt env a.trajectory trajectoryStart) (a.firstPlanning trajectoryEnd world) i

/-- The validator accepts what the `i`-th attempt plans. -/
def Arbitrator.AcceptsAt (i : ℕ) : Prop :=
  ∃ traj, a.attemptAt env trajectoryStart trajectoryEnd world i = .validated traj true

/-- The requests among the first `k` attempts. -/
def Arbitrator.requestsBefore (k : ℕ) : ℕ :=
  ((Finset.range k).filter fun i =>
    (a.attemptAt env trajectoryStart trajectoryEnd world i).isRequest = true).card

/-- What the first `k` attempts add to the counter. -/
def Arbitrator.counted (k : ℕ) : ℤ := k + a.requestsBefore env trajectoryStart trajectoryEnd world k

/-- The first `k` attempts fail, each with the counter below the limit. -/
def Arbitrator.FailsBefore (k : ℕ) : Prop :=
  ∀ i < k, (a.attemptAt env trajectoryStart trajectoryEnd world i).ends = false ∧
    wrapInt (a.counted env trajectoryStart trajectoryEnd world i) < a.numAcceptableFailures

/-- An attempt is accepted while the counter is below the limit. -/
def Arbitrator.AcceptedInTime : Prop :=
  ∃ k, a.AcceptsAt env trajectoryStart trajectoryEnd world k ∧
    a.counted env trajectoryStart trajectoryEnd world k < a.numAcceptableFailures

/-- No attempt before the last acceptable one has requests, and after that one the counter is
still an int. -/
def Arbitrator.NoEarlyRequests : Prop :=
  (∀ i : ℕ, (i : ℤ) + 1 < a.numAcceptableFailures →
    (a.attemptAt env trajectoryStart trajectoryEnd world i).isRequest = false) ∧
  a.counted env trajectoryStart trajectoryEnd world a.numAcceptableFailures.toNat < 2 ^ 31

/-- The limit is the largest int and a request takes the counter past it, to the least one; but
later on an attempt is accepted, or the counter comes to the limit after all. -/
def Arbitrator.RunsOver : Prop :=
  a.numAcceptableFailures = 2 ^ 31 - 1 ∧
  ∃ k, a.numAcceptableFailures < a.counted env trajectoryStart trajectoryEnd world k ∧
    (∀ i < k, wrapInt (a.counted env trajectoryStart trajectoryEnd world i) <
      a.numAcceptableFailures) ∧
    (a.AcceptsAt env trajectoryStart trajectoryEnd world k ∨
      wrapInt (a.counted env trajectoryStart trajectoryEnd world k) = a.numAcceptableFailures)

theorem Arbitrator.attemptAt_threw_iff (i : ℕ) :
    a.attemptAt env trajectoryStart trajectoryEnd world i = .threw ↔
      ¬ EntrySpeedKnown a.trajectory :=
  forall_tries (P := fun x => x = Attempt.threw ↔ ¬ EntrySpeedKnown a.trajectory)
    (I := fun _ => True) (fun s _ => ⟨attempt_threw_iff env a.trajectory trajectoryStart s, trivial⟩)
    trivial i

theorem Arbitrator.failuresAt_eq (k : ℕ) :
    countAt (attempt env a.trajectory trajectoryStart) nextFailures 0
        (a.firstPlanning trajectoryEnd world) k =
      wrapInt (a.counted env trajectoryStart trajectoryEnd world k) := by
  have hzero : (0 : ℤ) = wrapInt 0 := rfl
  unfold Arbitrator.counted Arbitrator.requestsBefore
  rw [hzero, countAt_kept nextFailures_wrapInt, zero_add, spent_extra, Finset.card_filter,
    Nat.cast_sum]
  rfl

/-! ## The counter -/

theorem Arbitrator.requestsBefore_succ (k : ℕ) :
    a.requestsBefore env trajectoryStart trajectoryEnd world (k + 1) =
      a.requestsBefore env trajectoryStart trajectoryEnd world k +
        (a.attemptAt env trajectoryStart trajectoryEnd world k).extra := by
  unfold Arbitrator.requestsBefore
  rw [Finset.card_filter, Finset.card_filter, Finset.sum_range_succ]
  rfl

/-- An attempt counts once or twice. -/
theorem Arbitrator.counted_succ (k : ℕ) :
    a.counted env trajectoryStart trajectoryEnd world k + 1 ≤
        a.counted env trajectoryStart trajectoryEnd world (k + 1) ∧
      a.counted env trajectoryStart trajectoryEnd world (k + 1) ≤
        a.counted env trajectoryStart trajectoryEnd world k + 2 := by
  have hextra : (a.attemptAt env trajectoryStart trajectoryEnd world k).extra ≤ 1 := by
    unfold Attempt.extra
    split
    · exact le_rfl
    · exact Nat.zero_le 1
  unfold Arbitrator.counted
  rw [a.requestsBefore_succ]
  constructor
  · omega
  · omega

theorem Arbitrator.counted_bounds (k : ℕ) :
    (k : ℤ) ≤ a.counted env trajectoryStart trajectoryEnd world k ∧
      a.counted env trajectoryStart trajectoryEnd world k ≤ 2 * k := by
  induction k with
  | zero => simp [Arbitrator.counted, Arbitrator.requestsBefore]
  | succ k ih =>
    have hstep := a.counted_succ env trajectoryStart trajectoryEnd world k
    omega

theorem Arbitrator.counted_mono {i k : ℕ} (h : i ≤ k) :
    a.counted env trajectoryStart trajectoryEnd world i ≤
      a.counted env trajectoryStart trajectoryEnd world k := by
  induction h with
  | refl => exact le_rfl
  | step _ ih =>
    have hstep := a.counted_succ env trajectoryStart trajectoryEnd world
    exact ih.trans ((le_add_of_nonneg_right zero_le_one).trans (hstep _).1)

variable {a env trajectoryStart trajectoryEnd world} {k : ℕ}

theorem counted_eq_iff :
    a.counted env trajectoryStart trajectoryEnd world k = k ↔
      ∀ i < k, (a.attemptAt env trajectoryStart trajectoryEnd world i).isRequest = false := by
  unfold Arbitrator.counted Arbitrator.requestsBefore
  rw [add_eq_left, Int.natCast_eq_zero, Finset.card_eq_zero, Finset.filter_eq_empty_iff]
  simp

theorem counter_of_fits (h : a.counted env trajectoryStart trajectoryEnd world k < 2 ^ 31) :
    wrapInt (a.counted env trajectoryStart trajectoryEnd world k) =
      a.counted env trajectoryStart trajectoryEnd world k := by
  have hbounds := a.counted_bounds env trajectoryStart trajectoryEnd world k
  exact wrapInt_of_fits (by omega) h

theorem counted_to_limit (hlimit : a.numAcceptableFailures + 1 < 2 ^ 31)
    (hpos : 0 < a.numAcceptableFailures)
    (hfails : a.FailsBefore env trajectoryStart trajectoryEnd world k) :
    a.counted env trajectoryStart trajectoryEnd world k ≤ a.numAcceptableFailures + 1 := by
  induction k with
  | zero =>
    have hbounds := a.counted_bounds env trajectoryStart trajectoryEnd world 0
    omega
  | succ k ih =>
    have hbefore := ih (fun i hi => hfails i (Nat.lt_succ_of_lt hi))
    have hbelow := (hfails k k.lt_succ_self).2
    rw [counter_of_fits (by omega)] at hbelow
    have hstep := a.counted_succ env trajectoryStart trajectoryEnd world k
    omega

/-! ## The attempts -/

theorem ends_of_known (hknown : EntrySpeedKnown a.trajectory) (i : ℕ) :
    (a.attemptAt env trajectoryStart trajectoryEnd world i).ends = false ↔
      ¬ a.AcceptsAt env trajectoryStart trajectoryEnd world i := by
  have hthrew := (a.attemptAt_threw_iff env trajectoryStart trajectoryEnd world i).not
  rw [not_not] at hthrew
  rw [← Bool.not_eq_true, ends_iff, or_iff_right (hthrew.mpr hknown)]
  rfl

/-- How the attempts come to their end: one of them is accepted, or they are enough. -/
def Arbitrator.EndsAt (a : Arbitrator K P) (env : Environment K P W)
    (trajectoryStart trajectoryEnd : K) (world : W) (k : ℕ) : Prop :=
  a.FailsBefore env trajectoryStart trajectoryEnd world k ∧
    ((a.AcceptsAt env trajectoryStart trajectoryEnd world k ∧
      wrapInt (a.counted env trajectoryStart trajectoryEnd world k) < a.numAcceptableFailures) ∨
    (a.numAcceptableFailures ≤ wrapInt (a.counted env trajectoryStart trajectoryEnd world k) ∧
      a.numAcceptableFailures ≤ k))

/-- If an attempt is accepted with the counter below the limit until then, the attempts end with
the first one that is. -/
theorem ends_of_accepted (hknown : EntrySpeedKnown a.trajectory)
    (haccepts : a.AcceptsAt env trajectoryStart trajectoryEnd world k)
    (hbelow : ∀ i ≤ k, wrapInt (a.counted env trajectoryStart trajectoryEnd world i) <
      a.numAcceptableFailures) :
    ∃ j, a.EndsAt env trajectoryStart trajectoryEnd world j := by
  classical
  have hex : ∃ j, a.AcceptsAt env trajectoryStart trajectoryEnd world j := ⟨k, haccepts⟩
  have hle : Nat.find hex ≤ k := Nat.find_min' hex haccepts
  refine ⟨Nat.find hex, fun i hi => ⟨?_, ?_⟩, Or.inl ⟨Nat.find_spec hex, hbelow _ hle⟩⟩
  · exact (ends_of_known hknown i).mpr (Nat.find_min hex hi)
  · exact hbelow i (hi.le.trans hle)

theorem ends_of_inTime (hint : a.numAcceptableFailures < 2 ^ 31)
    (hknown : EntrySpeedKnown a.trajectory)
    (h : a.AcceptedInTime env trajectoryStart trajectoryEnd world) :
    ∃ j, a.EndsAt env trajectoryStart trajectoryEnd world j := by
  obtain ⟨k, haccepts, hin⟩ := h
  refine ends_of_accepted hknown haccepts (fun i hi => ?_)
  have hmono := a.counted_mono env trajectoryStart trajectoryEnd world hi
  rw [counter_of_fits (by omega)]
  omega

theorem ends_of_noEarlyRequests (hint : a.numAcceptableFailures < 2 ^ 31)
    (hknown : EntrySpeedKnown a.trajectory)
    (h : a.NoEarlyRequests env trajectoryStart trajectoryEnd world) :
    ∃ j, a.EndsAt env trajectoryStart trajectoryEnd world j := by
  obtain ⟨hnone, hfits⟩ := h
  have hcounted : ∀ i : ℕ, (i : ℤ) < a.numAcceptableFailures →
      a.counted env trajectoryStart trajectoryEnd world i = i :=
    fun i hi => counted_eq_iff.mpr (fun j hj => hnone j (by omega))
  have hbelow : ∀ i : ℕ, (i : ℤ) < a.numAcceptableFailures →
      wrapInt (a.counted env trajectoryStart trajectoryEnd world i) < a.numAcceptableFailures := by
    intro i hi
    have heq := hcounted i hi
    rw [counter_of_fits (by omega), heq]
    exact hi
  by_cases hex : ∃ k : ℕ, (k : ℤ) < a.numAcceptableFailures ∧
      a.AcceptsAt env trajectoryStart trajectoryEnd world k
  · obtain ⟨k, hk, haccepts⟩ := hex
    exact ends_of_accepted hknown haccepts (fun i hi => hbelow i (by omega))
  · push Not at hex
    have hbounds :=
      a.counted_bounds env trajectoryStart trajectoryEnd world a.numAcceptableFailures.toNat
    refine ⟨a.numAcceptableFailures.toNat, fun i hi => ⟨?_, hbelow i (by omega)⟩, Or.inr ⟨?_, ?_⟩⟩
    · exact (ends_of_known hknown i).mpr (hex i (by omega))
    · rw [counter_of_fits hfits]
      omega
    · omega

theorem ends_of_runsOver (hknown : EntrySpeedKnown a.trajectory)
    (h : a.RunsOver env trajectoryStart trajectoryEnd world) :
    ∃ j, a.EndsAt env trajectoryStart trajectoryEnd world j := by
  obtain ⟨hmax, k, hover, hbelow, hend⟩ := h
  by_cases hex : ∃ i < k, a.AcceptsAt env trajectoryStart trajectoryEnd world i
  · obtain ⟨i, hi, haccepts⟩ := hex
    exact ends_of_accepted hknown haccepts (fun j hj => hbelow j (by omega))
  · push Not at hex
    refine ⟨k, fun i hi => ⟨(ends_of_known hknown i).mpr (hex i hi), hbelow i hi⟩, ?_⟩
    rcases lt_or_ge (wrapInt (a.counted env trajectoryStart trajectoryEnd world k))
      a.numAcceptableFailures with hlt | hge
    · exact Or.inl ⟨hend.resolve_right hlt.ne, hlt⟩
    · -- a whole turn of the ints further on there were attempts enough
      have hbounds := a.counted_bounds env trajectoryStart trajectoryEnd world k
      obtain ⟨-, hint, turns, hturns⟩ :=
        wrapInt_spec (a.counted env trajectoryStart trajectoryEnd world k)
      exact Or.inr ⟨hge, by omega⟩

/-- As many attempts as are acceptable, with the counter below the limit before the last one. -/
theorem noEarlyRequests_of_enough (hpos : 0 < a.numAcceptableFailures)
    (henough : a.numAcceptableFailures ≤ k)
    (hbelow : ∀ i < k, a.counted env trajectoryStart trajectoryEnd world i < a.numAcceptableFailures)
    (hfits : a.counted env trajectoryStart trajectoryEnd world k < 2 ^ 31) :
    a.NoEarlyRequests env trajectoryStart trajectoryEnd world := by
  obtain ⟨j, rfl⟩ : ∃ j, k = j + 1 := ⟨k - 1, by omega⟩
  have hlast := hbelow j j.lt_succ_self
  have hbounds := a.counted_bounds env trajectoryStart trajectoryEnd world j
  have hnone := counted_eq_iff.mp (show a.counted env trajectoryStart trajectoryEnd world j = j by
    omega)
  have hall : a.numAcceptableFailures.toNat = j + 1 := by omega
  refine ⟨fun i hi => hnone i (by omega), ?_⟩
  rw [hall]
  exact hfits

/-- Attempts that end diligently were accepted in time, or had no early requests, or ran over. -/
theorem ended_diligently (hint : a.numAcceptableFailures < 2 ^ 31)
    (hpos : 0 < a.numAcceptableFailures)
    (h : a.EndsAt env trajectoryStart trajectoryEnd world k) :
    a.AcceptedInTime env trajectoryStart trajectoryEnd world ∨
      a.NoEarlyRequests env trajectoryStart trajectoryEnd world ∨
        a.RunsOver env trajectoryStart trajectoryEnd world := by
  obtain ⟨hfails, hend⟩ := h
  rcases lt_or_ge (a.counted env trajectoryStart trajectoryEnd world k) a.numAcceptableFailures
    with hlt | hge
  · rw [counter_of_fits (by omega)] at hend
    rcases hend with ⟨haccepts, -⟩ | ⟨hout, -⟩
    · exact Or.inl ⟨k, haccepts, hlt⟩
    · omega
  by_cases hfits : a.counted env trajectoryStart trajectoryEnd world k < 2 ^ 31
  · rw [counter_of_fits hfits] at hend
    obtain ⟨-, henough⟩ := hend.resolve_left (fun hc => absurd hc.2 (not_lt.mpr hge))
    refine Or.inr (Or.inl (noEarlyRequests_of_enough hpos henough (fun i hi => ?_) hfits))
    have hmono := a.counted_mono env trajectoryStart trajectoryEnd world hi.le
    have hbelow := (hfails i hi).2
    rwa [counter_of_fits (by omega)] at hbelow
  · have hmax : a.numAcceptableFailures = 2 ^ 31 - 1 := by
      by_contra hne
      have hle := counted_to_limit (by omega) hpos hfails
      omega
    refine Or.inr (Or.inr ⟨hmax, k, by omega, fun i hi => (hfails i hi).2, ?_⟩)
    rcases hend with ⟨haccepts, -⟩ | ⟨hout, -⟩
    · exact Or.inl haccepts
    · have hwrap := wrapInt_spec (a.counted env trajectoryStart trajectoryEnd world k)
      exact Or.inr (by omega)

/-- The attempts end diligently just when the entry speed is at hand, and one is accepted in time,
or there are no early requests, or the counter runs over. -/
theorem ends_diligently_iff (hint : a.numAcceptableFailures < 2 ^ 31) :
    (∃ k, a.EndsAt env trajectoryStart trajectoryEnd world k) ↔
      (a.numAcceptableFailures ≤ 0 ∨ EntrySpeedKnown a.trajectory) ∧
        (a.AcceptedInTime env trajectoryStart trajectoryEnd world ∨
          a.NoEarlyRequests env trajectoryStart trajectoryEnd world ∨
            a.RunsOver env trajectoryStart trajectoryEnd world) := by
  have hzero : a.counted env trajectoryStart trajectoryEnd world 0 = 0 := counted_eq_iff.mpr (by simp)
  rcases le_or_gt a.numAcceptableFailures 0 with hle | hpos
  · have hnat : a.numAcceptableFailures.toNat = 0 := by omega
    have hnone : a.NoEarlyRequests env trajectoryStart trajectoryEnd world := by
      refine ⟨fun i hi => by omega, ?_⟩
      rw [hnat, hzero]
      omega
    refine iff_of_true ⟨0, fun i hi => absurd hi (Nat.not_lt_zero i), Or.inr ⟨?_, hle⟩⟩
      ⟨Or.inl hle, Or.inr (Or.inl hnone)⟩
    rw [hzero]
    exact hle
  · rw [or_iff_right (not_le.mpr hpos)]
    constructor
    · rintro ⟨k, h⟩
      refine ⟨not_not.mp (fun hno => ?_), ended_diligently hint hpos h⟩
      have hthrew := (a.attemptAt_threw_iff env trajectoryStart trajectoryEnd world · |>.mpr hno)
      cases k with
      | zero =>
        rcases h.2 with ⟨⟨traj, haccepts⟩, -⟩ | ⟨-, henough⟩
        · cases (hthrew 0).symm.trans haccepts
        · exact absurd henough (not_le.mpr hpos)
      | succ k =>
        have hbad := (h.1 0 k.succ_pos).1
        rw [hthrew 0] at hbad
        cases hbad
    · rintro ⟨hknown, hintime | hnone | hover⟩
      · exact ends_of_inTime hint hknown hintime
      · exact ends_of_noEarlyRequests hint hknown hnone
      · exact ends_of_runsOver hknown hover

end call

/-! ## The law -/

/-- What comes back was accepted by the validator in this call, and null comes after `n`
attempts that failed. -/
def Diligent (n : ℤ) (planned : Planned K P W) : Prop :=
  match planned.outcome with
  | .threw => False
  | .returned (some traj) => .validated traj true ∈ planned.attempts
  | .returned none => n ≤ planned.attempts.length ∧ ∀ x ∈ planned.attempts, x.ends = false

/-! ## From the attempts to the call -/

section planned

variable {a : Arbitrator K P} {env : Environment K P W} {trajectoryStart trajectoryEnd : K} {world : W}

theorem failsBefore_iff {k : ℕ} :
    retries.FailsBefore (attempt env a.trajectory trajectoryStart) Attempt.ends nextFailures
        a.numAcceptableFailures 0 (a.firstPlanning trajectoryEnd world) k ↔
      a.FailsBefore env trajectoryStart trajectoryEnd world k := by
  unfold retries.FailsBefore
  simp only [a.failuresAt_eq env trajectoryStart trajectoryEnd world]
  rfl

theorem ends_of_planned {fuel : ℕ} {planned : Planned K P W}
    (h : a.planTrajectory env fuel trajectoryStart trajectoryEnd world = some planned)
    (hdiligent : Diligent a.numAcceptableFailures planned) :
    ∃ k, a.EndsAt env trajectoryStart trajectoryEnd world k := by
  have hcount := a.failuresAt_eq env trajectoryStart trajectoryEnd world
  unfold Arbitrator.planTrajectory at h
  split at h
  · cases h
  · rename_i traj verdict attempts s hretry
    obtain ⟨k, hfails, ⟨hfinal, hbelow, hanswer, -⟩ | ⟨-, hanswer, -⟩⟩ := retry_ended hretry
    · have hattempt := Option.some.inj hanswer
      rw [← hattempt] at hfinal
      obtain rfl : verdict = true := hfinal
      rw [hcount] at hbelow
      exact ⟨k, failsBefore_iff.mp hfails, Or.inl ⟨⟨traj, hattempt.symm⟩, hbelow⟩⟩
    · cases hanswer
  · cases h
    exact hdiligent.elim
  · rename_i attempts s hretry
    obtain ⟨k, hfails, ⟨-, -, hanswer, -⟩ | ⟨hout, -, rfl⟩⟩ := retry_ended hretry
    · cases hanswer
    · cases h
      have hlength := hdiligent.1
      rw [length_firsts] at hlength
      rw [hcount] at hout
      exact ⟨k, failsBefore_iff.mp hfails, Or.inr ⟨hout, hlength⟩⟩

theorem planned_of_ends {k : ℕ} (h : a.EndsAt env trajectoryStart trajectoryEnd world k) :
    ∃ fuel planned,
      a.planTrajectory env fuel trajectoryStart trajectoryEnd world = some planned ∧
        Diligent a.numAcceptableFailures planned := by
  have hcount := a.failuresAt_eq env trajectoryStart trajectoryEnd world k
  obtain ⟨hfails, ⟨⟨traj, haccepts⟩, hbelow⟩ | ⟨hout, henough⟩⟩ := h
  · obtain ⟨s, hretry⟩ := retry_final (failsBefore_iff.mpr hfails) (congrArg Attempt.ends haccepts)
      (hcount.trans_lt hbelow) k.lt_succ_self
    have hanswer : tries (attempt env a.trajectory trajectoryStart)
        (a.firstPlanning trajectoryEnd world) k = .validated traj true := haccepts
    refine ⟨k + 1, ⟨.returned (some traj), _, s.plugins, s.world⟩, ?_,
      mem_firsts.mpr ⟨k, k.lt_succ_self, hanswer⟩⟩
    unfold Arbitrator.planTrajectory
    rw [hretry, hanswer]
  · obtain ⟨s, hretry⟩ := retry_given_up (failsBefore_iff.mpr hfails) (hcount.symm ▸ hout) le_rfl
    refine ⟨k, ⟨.returned none, firsts (attempt env a.trajectory trajectoryStart)
      (a.firstPlanning trajectoryEnd world) k, s.plugins, env.handleException s.world⟩, ?_, ?_, ?_⟩
    · unfold Arbitrator.planTrajectory
      rw [hretry]
    · dsimp only
      rw [length_firsts]
      exact henough
    · intro x hx
      obtain ⟨i, hi, rfl⟩ := mem_firsts.mp hx
      exact (hfails i hi).1

end planned

/-- The planning ends and is diligent just when the entry speed is at hand, and either an attempt
is accepted while those before it, with the requests counted twice, are fewer than the acceptable
failures, or none of the attempts but the last one has requests. With the largest int for the
acceptable failures the counter can also run over. -/
theorem planning_is_diligent_exactly {a : Arbitrator K P} (hint : a.numAcceptableFailures < 2 ^ 31)
    (env : Environment K P W) (trajectoryStart trajectoryEnd : K) (world : W) :
    (∃ fuel planned, a.planTrajectory env fuel trajectoryStart trajectoryEnd world = some planned ∧
      Diligent a.numAcceptableFailures planned) ↔
    (a.numAcceptableFailures ≤ 0 ∨ EntrySpeedKnown a.trajectory) ∧
      (a.AcceptedInTime env trajectoryStart trajectoryEnd world ∨
        a.NoEarlyRequests env trajectoryStart trajectoryEnd world ∨
          a.RunsOver env trajectoryStart trajectoryEnd world) := by
  rw [← ends_diligently_iff hint]
  constructor
  · rintro ⟨fuel, planned, hplanned, hdiligent⟩
    exact ends_of_planned hplanned hdiligent
  · rintro ⟨k, h⟩
    exact planned_of_ends h

/-- One plugin, which asks for a longer trajectory each time, and three acceptable failures. -/
def alwaysLonger : Environment ℚ Unit Unit where
  currentSpeed _ := 0
  getActivation _ _ := true
  getAvailability _ _ := true
  planTrajectory _ traj _ _ := (⟨traj.endLocation + 10, 0, [.REQUEST_LONGER_TRAJECTORY]⟩, traj, ())
  sleep _ _ := ()
  validate _ _ := (true, ())
  handleException _ := ()

def threeAttempts : Arbitrator ℚ Unit where
  plugins := [()]
  planningWindow := 10
  planningWindowSnapThreshold := 20
  numAcceptableFailures := 3
  trajectory := none
  routeLength := 100
  currentRoute := [100]
  routeRecvd := true

theorem planning_with_requests_is_diligent_exactly :
    (∃ fuel planned, threeAttempts.planTrajectory alwaysLonger fuel 0 10 () = some planned ∧
      Diligent 3 planned) ↔
    ((3 : ℤ) ≤ 0 ∨ EntrySpeedKnown threeAttempts.trajectory) ∧
      (threeAttempts.AcceptedInTime alwaysLonger 0 10 () ∨
        threeAttempts.NoEarlyRequests alwaysLonger 0 10 () ∨
          threeAttempts.RunsOver alwaysLonger 0 10 ()) :=
  planning_is_diligent_exactly (a := threeAttempts) (by decide) alwaysLonger 0 10 ()

/-- Whether null came back. -/
def Outcome.isNull : Outcome K → Bool
  | .returned none => true
  | _ => false

/-- Null comes after two attempts, where three are acceptable. -/
theorem planning_is_given_up_after_two_attempts :
    ¬ ∀ (a : Arbitrator ℚ Unit) (env : Environment ℚ Unit Unit) (trajectoryStart trajectoryEnd : ℚ)
      (fuel : ℕ), a.numAcceptableFailures.toNat ≤ fuel →
      ∃ planned, a.planTrajectory env fuel trajectoryStart trajectoryEnd () = some planned ∧
        Diligent a.numAcceptableFailures planned := by
  intro hall
  obtain ⟨planned, hplanned, hdiligent⟩ := hall threeAttempts alwaysLonger 0 10 3 (by decide)
  have htwo : (threeAttempts.planTrajectory alwaysLonger 3 0 10 ()).map
      (fun planned => (planned.attempts.length, planned.outcome.isNull)) =
        some (2, true) := by decide +kernel
  rw [hplanned] at htwo
  obtain ⟨hlen, hnull⟩ := Prod.mk.inj (Option.some.inj htwo)
  unfold Diligent at hdiligent
  split at hdiligent
  · exact hdiligent
  · rename_i hout
    rw [hout] at hnull
    cases hnull
  · have hthree := hdiligent.1
    rw [hlen] at hthree
    exact absurd hthree (by decide)

end carma.arbitrator
