-- The schedule of a traffic light, and that both loops of the planner which follow a light are on
-- it: `phaseAtTime`, and `timeOfGreenBegin` after it.
import Carma.CoarsePathLaws

open lib.exact_double
open carma.ead

namespace carma.trajectory_tree

variable {L K : Type} [Field K] [LinearOrder K]

/-! ## The schedule -/

/-- The cycle of a light. -/
def phaseAfter : SignalPhase → SignalPhase
  | .GREEN => .YELLOW
  | .YELLOW => .RED
  | .RED => .GREEN
  | .NONE => .GREEN

/-- What is known of a light: its phase now, when that ends, and its record. -/
structure LightSchedule (K : Type) where
  now : SignalPhase
  nowEnds : K
  record : IntersectionHistory K

namespace LightSchedule

/-- The phases from now on. -/
def phase (s : LightSchedule K) : ℕ → SignalPhase
  | 0 => s.now
  | k + 1 => phaseAfter (s.phase k)

def ends (s : LightSchedule K) : ℕ → K
  | 0 => s.nowEnds
  | k + 1 => s.ends k + NeighborBase.phaseDuration s.record (s.phase (k + 1))

/-- The time is in the interval of this phase: after the one before has ended, up to its end. -/
def At (s : LightSchedule K) (k : ℕ) (t : K) : Prop :=
  (∀ j < k, s.ends j < t) ∧ t ≤ s.ends k

/-- This is the first red that ends at the time or after it. -/
def FirstRed (s : LightSchedule K) (k : ℕ) (t : K) : Prop :=
  s.phase k = .RED ∧ t ≤ s.ends k ∧ ∀ j < k, s.phase j = .RED → s.ends j < t

section laws

variable {s : LightSchedule K}

omit [Field K] [LinearOrder K] in
theorem phase_ne (k : ℕ) : s.phase (k + 1) ≠ .NONE := by
  show phaseAfter (s.phase k) ≠ .NONE
  cases s.phase k <;> decide

omit [Field K] [LinearOrder K] in
/-- The enumeration has a member more than the cycle, which is skipped. -/
theorem nextPhase_phase (k : ℕ) : NeighborBase.nextPhase (s.phase k) = s.phase (k + 1) := by
  show _ = phaseAfter (s.phase k)
  cases s.phase k <;> rfl

variable [IsStrictOrderedRing K]

theorem ends_lt_succ (k : ℕ) : s.ends k < s.ends (k + 1) := by
  show s.ends k < s.ends k + NeighborBase.phaseDuration s.record (s.phase (k + 1))
  have hlong := NeighborBase.phaseDuration_ge s.record (phase_ne (s := s) k)
  linarith

theorem ends_strictMono : StrictMono s.ends := strictMono_nat_of_lt_succ ends_lt_succ

theorem at_succ {k : ℕ} {t : K} :
    s.At (k + 1) t ↔ s.ends k < t ∧ t ≤ s.ends (k + 1) := by
  refine and_congr_left fun _ => ⟨fun h => h k (Nat.lt_succ_self k), fun h j hj => ?_⟩
  exact (ends_strictMono.monotone (Nat.le_of_lt_succ hj)).trans_lt h

omit [IsStrictOrderedRing K] in
/-- A time is in one phase at most. -/
theorem At.unique {j k : ℕ} {t : K} (hj : s.At j t) (hk : s.At k t) : j = k := by
  rcases Nat.lt_trichotomy j k with hlt | heq | hgt
  · exact absurd (hk.1 j hlt) hj.2.not_gt
  · exact heq
  · exact absurd (hj.1 k hgt) hk.2.not_gt

end laws

end LightSchedule

namespace NeighborBase

variable [FloorRing K]

/-- What a calculator has for the schedule of a light. -/
def scheduleOf (b : NeighborBase L K) (index : Fin b.intersections.length)
    (h : IntersectionHistory K) : LightSchedule K where
  now := (b.intersections.get index).currentPhase
  nowEnds := (b.intersections.get index).timeToNextPhase
  record := h

variable [IsStrictOrderedRing K]

omit [FloorRing K] in
theorem followCycle_at {s : LightSchedule K} {t : K} {rounds k : ℕ}
    {phase : SignalPhase} {cycleTime : K} (hlate : s.ends k < t)
    (h : followCycle s.record (.fin t) rounds (s.phase k) (s.ends k) = some (phase, cycleTime)) :
    ∃ j, s.At j t ∧ phase = s.phase j ∧ cycleTime = s.ends j := by
  induction rounds generalizing k with
  | zero => cases h
  | succ rounds ih =>
    unfold followCycle at h
    dsimp only at h
    rw [LightSchedule.nextPhase_phase] at h
    change (if Dbl.lt (.fin (s.ends (k + 1))) (.fin t) then
      followCycle s.record (.fin t) rounds (s.phase (k + 1)) (s.ends (k + 1))
      else some (s.phase (k + 1), s.ends (k + 1))) = _ at h
    split at h
    · rename_i hlt
      rw [Dbl.lt_fin, decide_eq_true_eq] at hlt
      exact ih hlt h
    · rename_i hstop
      rw [Dbl.lt_fin, decide_eq_true_eq] at hstop
      cases h
      exact ⟨k + 1, LightSchedule.at_succ.mpr ⟨hlate, not_lt.mp hstop⟩, rfl, rfl⟩

theorem phaseAtTime_at {b : NeighborBase L K} {index : Fin b.intersections.length}
    {h : IntersectionHistory K} (hhist : b.getHistoricalData index = some h) (t : K) :
    ∃ k, (b.scheduleOf index h).At k t ∧ b.phaseAtTime index (.fin t) =
      some ⟨(b.scheduleOf index h).phase k, .fin ((b.scheduleOf index h).ends k - t)⟩ := by
  obtain ⟨state, hstate⟩ := Option.isSome_iff_exists.mp (phaseAtTime_isSome index t)
  have hcode := hstate
  unfold phaseAtTime at hcode
  dsimp only at hcode
  split at hcode
  · rename_i hsoon
    rw [Dbl.le_fin, decide_eq_true_eq] at hsoon
    refine ⟨0, ⟨nofun, hsoon⟩, ?_⟩
    rw [hstate, ← hcode, Dbl.fin_sub]
    rfl
  · rename_i hlater
    rw [Dbl.le_fin, decide_eq_true_eq] at hlater
    rw [hhist] at hcode
    obtain ⟨⟨phase, cycleTime⟩, hloop, heq⟩ := Option.map_eq_some_iff.mp hcode
    obtain ⟨k, hat, rfl, rfl⟩ := followCycle_at (s := b.scheduleOf index h) (k := 0)
      (not_le.mp hlater) hloop
    refine ⟨k, hat, ?_⟩
    rw [hstate, ← heq, Dbl.fin_sub]

theorem phaseAtTime_of_at {b : NeighborBase L K} {index : Fin b.intersections.length}
    {h : IntersectionHistory K} (hhist : b.getHistoricalData index = some h) {k : ℕ} {t : K}
    (hat : (b.scheduleOf index h).At k t) : b.phaseAtTime index (.fin t) =
      some ⟨(b.scheduleOf index h).phase k, .fin ((b.scheduleOf index h).ends k - t)⟩ := by
  obtain ⟨k', hat', hstate⟩ := phaseAtTime_at hhist t
  rw [hat.unique hat', hstate]

end NeighborBase

/-! ## The next green -/

namespace LightSchedule

omit [Field K] [LinearOrder K] in
theorem red_comes {s : LightSchedule K} (k : ℕ) :
    ∃ j, k ≤ j ∧ j ≤ k + 3 ∧ s.phase j = .RED ∧ ∀ i, k ≤ i → i < j → s.phase i ≠ .RED := by
  have hone : s.phase (k + 1) = phaseAfter (s.phase k) := rfl
  have htwo : s.phase (k + 2) = phaseAfter (phaseAfter (s.phase k)) := rfl
  have hthree : s.phase (k + 3) = phaseAfter (phaseAfter (phaseAfter (s.phase k))) := rfl
  cases hphase : s.phase k with
  | RED => exact ⟨k, le_rfl, by omega, hphase, fun i hi hlt => by omega⟩
  | YELLOW =>
    rw [hphase] at hone
    refine ⟨k + 1, by omega, by omega, hone, fun i hi hlt => ?_⟩
    obtain rfl : i = k := by omega
    rw [hphase]
    decide
  | GREEN =>
    rw [hphase] at hone htwo
    refine ⟨k + 2, by omega, by omega, htwo, fun i hi hlt => ?_⟩
    obtain rfl | rfl : i = k ∨ i = k + 1 := by omega
    · rw [hphase]
      decide
    · rw [hone]
      decide
  | NONE =>
    rw [hphase] at hone htwo hthree
    refine ⟨k + 3, by omega, le_rfl, hthree, fun i hi hlt => ?_⟩
    obtain rfl | rfl | rfl : i = k ∨ i = k + 1 ∨ i = k + 2 := by omega
    · rw [hphase]
      decide
    · rw [hone]
      decide
    · rw [htwo]
      decide

theorem FirstRed.green_after {s : LightSchedule K} {k : ℕ} {t : K} (h : s.FirstRed k t) :
    s.phase (k + 1) = .GREEN := by
  show phaseAfter (s.phase k) = _
  rw [h.1]
  rfl

theorem FirstRed.unique {s : LightSchedule K} {j k : ℕ} {t : K} (hj : s.FirstRed j t)
    (hk : s.FirstRed k t) : j = k := by
  rcases Nat.lt_trichotomy j k with hlt | heq | hgt
  · exact absurd (hk.2.2 j hlt hj.1) hj.2.1.not_gt
  · exact heq
  · exact absurd (hj.2.2 k hgt hk.1) hk.2.1.not_gt

end LightSchedule

namespace CoarsePathNeighbors

variable {c : CoarsePathNeighbors L K}

section loop

theorem followToRed_succ {index : Fin c.intersections.length} {phase : SignalPhase}
    (hne : phase ≠ .RED) (rounds : ℕ) (phaseEndTime : Dbl K) :
    c.followToRed index (rounds + 1) phase phaseEndTime =
      (c.durationOf index (NeighborBase.nextPhase phase)).bind fun duration =>
        c.followToRed index rounds (NeighborBase.nextPhase phase)
          (phaseEndTime + .fin duration) := by
  cases phase with
  | RED => exact absurd rfl hne
  | _ => rfl

/-- From the end of a phase the loop comes to the end of the red that is next. -/
theorem followToRed_at {index : Fin c.intersections.length} {s : LightSchedule K}
    (hhist : c.getHistoricalData index = some s.record) {rounds k j : ℕ}
    (hred : s.phase j = .RED) (hbefore : ∀ i, k ≤ i → i < j → s.phase i ≠ .RED) (hkj : k ≤ j)
    (hrounds : j ≤ k + rounds) :
    c.followToRed index rounds (s.phase k) (.fin (s.ends k)) = some (.fin (s.ends j)) := by
  induction rounds generalizing k with
  | zero =>
    obtain rfl : k = j := by omega
    rw [hred]
    rfl
  | succ rounds ih =>
    rcases Nat.eq_or_lt_of_le hkj with rfl | hlt
    · rw [hred]
      rfl
    · rw [followToRed_succ (hbefore k le_rfl hlt), durationOf, hhist,
        LightSchedule.nextPhase_phase]
      exact ih (fun i hi => hbefore i (by omega)) hlt (by omega)

end loop

variable [FloorRing K] [IsStrictOrderedRing K]

theorem timeOfGreenBegin_at {index : Fin c.intersections.length} {h : IntersectionHistory K}
    (hhist : c.getHistoricalData index = some h) (t : K) :
    ∃ k, (c.scheduleOf index h).FirstRed k t ∧
      c.timeOfGreenBegin index (.fin t) = some (.fin ((c.scheduleOf index h).ends k)) := by
  obtain ⟨k, hat, hstate⟩ := NeighborBase.phaseAtTime_at hhist t
  obtain ⟨j, hkj, hnear, hred, hbefore⟩ := LightSchedule.red_comes k
  refine ⟨j, ⟨hred, hat.2.trans (LightSchedule.ends_strictMono.monotone hkj), ?_⟩, ?_⟩
  · intro i hi hired
    refine hat.1 i (Nat.lt_of_not_le fun hki => ?_)
    exact hbefore i hki hi hired
  · unfold timeOfGreenBegin
    rw [hstate, Option.bind_some, Dbl.fin_add, add_sub_cancel]
    exact followToRed_at (s := c.scheduleOf index h) hhist hred hbefore hkj (by omega)

/-- The light is predicted to be in the phase of the schedule that the time is in, for as long as
that lasts, and the next green to begin with the end of the first red that is not over. There the
prediction is the end of red, and green after it. -/
theorem predictions_keep_to_the_schedule (c : CoarsePathNeighbors L K)
    (index : Fin c.intersections.length) (h : IntersectionHistory K)
    (hhist : c.getHistoricalData index = some h)
    (_hnow : (c.intersections.get index).currentPhase ≠ .NONE) :
    (∀ t, ∃ k, (∀ j, (c.scheduleOf index h).At j t ↔ j = k) ∧
      0 ≤ (c.scheduleOf index h).ends k - t ∧ c.phaseAtTime index (.fin t) =
        some ⟨(c.scheduleOf index h).phase k, .fin ((c.scheduleOf index h).ends k - t)⟩) ∧
    (∀ t, ∃ k, (∀ j, (c.scheduleOf index h).FirstRed j t ↔ j = k) ∧
      c.timeOfGreenBegin index (.fin t) = some (.fin ((c.scheduleOf index h).ends k)) ∧
      c.phaseAtTime index (.fin ((c.scheduleOf index h).ends k)) = some ⟨.RED, .fin 0⟩ ∧
      ∀ u, (c.scheduleOf index h).ends k < u → u ≤ (c.scheduleOf index h).ends (k + 1) →
        c.phaseAtTime index (.fin u) =
          some ⟨.GREEN, .fin ((c.scheduleOf index h).ends (k + 1) - u)⟩) := by
  refine ⟨fun t => ?_, fun t => ?_⟩
  · obtain ⟨k, hat, hstate⟩ := NeighborBase.phaseAtTime_at hhist t
    exact ⟨k, fun j => ⟨fun hj => hj.unique hat, fun hj => hj ▸ hat⟩, sub_nonneg.mpr hat.2, hstate⟩
  · obtain ⟨k, hfirst, hgreen⟩ := timeOfGreenBegin_at hhist t
    refine ⟨k, fun j => ⟨fun hj => hj.unique hfirst, fun hj => hj ▸ hfirst⟩, hgreen, ?_, ?_⟩
    · rw [NeighborBase.phaseAtTime_of_at hhist
        ⟨fun j hj => LightSchedule.ends_strictMono hj, le_rfl⟩, hfirst.1, sub_self]
    · intro u hlow hhigh
      rw [NeighborBase.phaseAtTime_of_at hhist (LightSchedule.at_succ.mpr ⟨hlow, hhigh⟩),
        hfirst.green_after]

/-- A light that is red for 20 s more: after 30 s it is green, and the next green begins when the
second red is over. -/
theorem predictions_keep_to_the_schedule_of_a_red_light :
    ∃ k, (∀ j, ((oneLight fun _ _ => false).scheduleOf ⟨0, by decide⟩ ⟨7, 0, 0, 20⟩).FirstRed j 30 ↔
        j = k) ∧
      (oneLight fun _ _ => false).timeOfGreenBegin ⟨0, by decide⟩ (.fin 30) = some (.fin
        (((oneLight fun _ _ => false).scheduleOf ⟨0, by decide⟩ ⟨7, 0, 0, 20⟩).ends k)) := by
  obtain ⟨k, hfirst, hgreen, -⟩ := (predictions_keep_to_the_schedule (oneLight fun _ _ => false)
    ⟨0, by decide⟩ ⟨7, 0, 0, 20⟩ rfl (by decide)).2 30
  exact ⟨k, hfirst, hgreen⟩

example : (oneLight fun _ _ => false).timeOfGreenBegin ⟨0, by decide⟩ (.fin 30) =
    some (.fin 80) := by decide +kernel

end CoarsePathNeighbors

end carma.trajectory_tree
