-- The yield plugin: the maneuver with which it lets a conflict pass, and what becomes of the
-- acceleration that this takes when the plugin has no authority for so much of it.
import Carma.ConflictManager
import Carma.Lib.ExactDouble
import Carma.ManeuverPlanner
import Mathlib.Data.Rat.Sqrt
import Mathlib.Tactic.Linarith

open lib.exact_double
open carma.conflict_manager (ConflictSpace PathPoint)
open carma.maneuver_planner
open carma.maneuvers

namespace carma.yield

variable {K V : Type} [LinearOrder K] [Field K]

/-- `YieldPlugin`: its parameters. -/
structure YieldPlugin (K : Type) where
  minConflictAvoidanceTimegap : K
  maxYieldAccelAuthority : K
  vehicleResponseLag : K

def SPEED_EPSILON : K := 1 / (100 : ℕ)

/-! ## Where to yield from -/

/-- Where, when and at which speed the conflict is avoided from, with the acceleration that this
takes and the maneuvers before it. -/
structure Candidate (K : Type) where
  lonMvrs : List (LongitudinalManeuver K)
  startDist : K
  startSpeed : K
  startTime : K
  requiredAcceleration : Dbl K

/-- The space that is left, `d`. -/
def YieldPlugin.spaceAvailable (plugin : YieldPlugin K) (conflict : ConflictSpace K V)
    (startDist startSpeed : K) : K :=
  conflict.startDowntrack - startDist - startSpeed * plugin.vehicleResponseLag

/-- The time until the space has to be covered, `t + epsilon`. -/
def YieldPlugin.timeToCover (plugin : YieldPlugin K) (conflict : ConflictSpace K V) (startTime : K) :
    K :=
  conflict.startTime - startTime - plugin.vehicleResponseLag + plugin.minConflictAvoidanceTimegap

/-- `requiredAcceleration` of a candidate. -/
def YieldPlugin.accelerationFrom (plugin : YieldPlugin K) (conflict : ConflictSpace K V)
    (startDist startSpeed startTime : K) : Dbl K :=
  let d := plugin.spaceAvailable conflict startDist startSpeed
  let time := plugin.timeToCover conflict startTime
  .fin ((2 : ℕ) * (d - startSpeed * time)) / .fin (time ^ 2)

/-- The stamp of the last point before a distance, or of the first point; none where there is no
point. -/
def startTimeAt (oldPathPrediction : List (PathPoint K)) (startDist : K) : Option K :=
  oldPathPrediction.head?.map fun first =>
    oldPathPrediction.foldl
      (fun startTime pt => if pt.downtrack < startDist then pt.stamp else startTime) first.stamp

/-- The loop that looks for a maneuver, from the last one back, at whose end the conflict can be
avoided. It may throw, and it may find none. -/
def YieldPlugin.search (plugin : YieldPlugin K) (conflict : ConflictSpace K V)
    (oldPathPrediction : List (PathPoint K)) :
    List (LongitudinalManeuver K) → Option (Option (Candidate K))
  | [] => some none
  | mvr :: earlier => do
    let startDist := mvr.endDist
    let startSpeed := mvr.motion.endSpeed
    let startTime ← startTimeAt oldPathPrediction startDist
    if plugin.spaceAvailable conflict startDist startSpeed ≤ 0 then
      plugin.search conflict oldPathPrediction earlier
    else
      let a := plugin.accelerationFrom conflict startDist startSpeed startTime
      if a.abs.le (.fin plugin.maxYieldAccelAuthority) then
        some (some ⟨earlier.reverse, startDist, startSpeed, startTime, a⟩)
      else plugin.search conflict oldPathPrediction earlier

/-- The trajectory to replan, where the new one starts, and when. -/
structure Replan (K V : Type) where
  conflict : ConflictSpace K V
  oldManeuvers : List (LongitudinalManeuver K)
  oldPathPrediction : List (PathPoint K)
  startLocation : K
  expectedEntrySpeed : K
  now : K

/-- The last effort, from the start of the trajectory. -/
def YieldPlugin.lastEffort (plugin : YieldPlugin K) (r : Replan K V) : Candidate K :=
  ⟨[], r.startLocation, r.expectedEntrySpeed, r.now,
    plugin.accelerationFrom r.conflict r.startLocation r.expectedEntrySpeed r.now⟩

/-- The candidate that is taken. -/
def YieldPlugin.candidate (plugin : YieldPlugin K) (r : Replan K V) : Option (Candidate K) := do
  let lonMvrs := r.oldManeuvers.filter fun m => decide (m.endDist < r.conflict.startDowntrack)
  let found ← plugin.search r.conflict r.oldPathPrediction lonMvrs.reverse
  match found with
  | some candidate => some candidate
  | none => some (plugin.lastEffort r)

/-! ## How to yield -/

def YieldPlugin.exceedsAuthority (plugin : YieldPlugin K) (requiredAcceleration : Dbl K) : Prop :=
  Dbl.lt (.fin plugin.maxYieldAccelAuthority) requiredAcceleration.abs = true

instance (plugin : YieldPlugin K) (requiredAcceleration : Dbl K) :
    Decidable (plugin.exceedsAuthority requiredAcceleration) :=
  inferInstanceAs (Decidable (_ = true))

/-- `requiredAcceleration` as it is used, none where it is NaN. An infinite one is more than the
plugin has authority for. -/
def YieldPlugin.usedAcceleration (plugin : YieldPlugin K) (requiredAcceleration : Dbl K) : Option K :=
  if plugin.exceedsAuthority requiredAcceleration then some plugin.maxYieldAccelAuthority
  else
    match requiredAcceleration with
    | .fin a => some a
    | _ => none

/-- The maneuver that avoids the conflict, with its speeds. A final velocity that is NaN differs
from the start speed by neither sign. -/
def avoidanceManeuver (startSpeed : K) (finalVelocity : Option K) : PlannedManeuver K :=
  match finalVelocity with
  | none => (newManeuver .steadySpeed).setSpeeds startSpeed startSpeed
  | some finalVelocity =>
    let deltaV := finalVelocity - startSpeed
    if deltaV < -SPEED_EPSILON then (newManeuver .slowDown).setSpeeds startSpeed finalVelocity
    else if deltaV > SPEED_EPSILON then (newManeuver .speedUp).setSpeeds startSpeed finalVelocity
    else (newManeuver .steadySpeed).setSpeeds startSpeed startSpeed

/-- What is planned for the conflict. The maneuvers of the candidate stay; where the conflict goes
on past the avoiding maneuver, the final velocity is kept up. -/
structure YieldPlan (K : Type) where
  candidate : Candidate K
  usedAcceleration : Option K
  finalVelocity : Option K
  conflictAvoidanceMvr : PlannedManeuver K

/-- `planTrajectory` with a conflict, up to the maneuver that avoids it; none where it throws. -/
def YieldPlugin.planTrajectory (plugin : YieldPlugin K) (inputs : Inputs K) (r : Replan K V) :
    Option (YieldPlan K) := do
  let c ← plugin.candidate r
  let usedAcceleration := plugin.usedAcceleration c.requiredAcceleration
  let finalVelocity := usedAcceleration.map fun a =>
    c.startSpeed + a * (r.conflict.startTime - c.startTime)
  let mvr ← planManeuver inputs (avoidanceManeuver c.startSpeed finalVelocity) c.startDist
  some ⟨c, usedAcceleration, finalVelocity, mvr⟩

/-! ## The law -/

/-- A best effort: the acceleration that is used is the required one, clamped to the authority of
the plugin. It has the sign of that one and is not larger, and a vehicle that has to brake ends no
faster than it starts. -/
structure BestEffort (plugin : YieldPlugin K) (plan : YieldPlan K) (a : K) : Prop where
  used : plan.usedAcceleration = some a
  clamped : Dbl.fin a = Dbl.clampTo (-plugin.maxYieldAccelAuthority) plugin.maxYieldAccelAuthority
    plan.candidate.requiredAcceleration
  within : -plugin.maxYieldAccelAuthority ≤ a ∧ a ≤ plugin.maxYieldAccelAuthority
  notLarger : Dbl.le (.fin |a|) plan.candidate.requiredAcceleration.abs = true
  positive : 0 < a → Dbl.lt (.fin 0) plan.candidate.requiredAcceleration = true
  negative : a < 0 → Dbl.lt plan.candidate.requiredAcceleration (.fin 0) = true
  noFaster : Dbl.lt plan.candidate.requiredAcceleration (.fin 0) = true →
    (∀ v ∈ plan.finalVelocity, v ≤ plan.candidate.startSpeed) ∧
      plan.conflictAvoidanceMvr.motion.endSpeed ≤ plan.conflictAvoidanceMvr.motion.startSpeed

theorem search_within (plugin : YieldPlugin K) (conflict : ConflictSpace K V)
    (oldPathPrediction : List (PathPoint K)) {mvrs : List (LongitudinalManeuver K)} {c : Candidate K}
    (h : plugin.search conflict oldPathPrediction mvrs = some (some c)) :
    c.requiredAcceleration.abs.le (.fin plugin.maxYieldAccelAuthority) = true := by
  induction mvrs with
  | nil => cases h
  | cons mvr earlier ih =>
    unfold YieldPlugin.search at h
    obtain ⟨startTime, -, h⟩ := Option.bind_eq_some_iff.mp h
    split at h
    · exact ih h
    · dsimp only at h
      split at h
      · rename_i hwithin
        rw [← Option.some.inj (Option.some.inj h)]
        exact hwithin
      · exact ih h

theorem candidate_of_exceeds {plugin : YieldPlugin K} {r : Replan K V} {c : Candidate K}
    (h : plugin.candidate r = some c) (hexceeds : plugin.exceedsAuthority c.requiredAcceleration) :
    c = plugin.lastEffort r := by
  obtain ⟨found, hfound, h⟩ := Option.bind_eq_some_iff.mp h
  cases found with
  | none => exact (Option.some.inj h).symm
  | some candidate =>
    obtain rfl : candidate = c := Option.some.inj h
    have hwithin := search_within _ _ _ hfound
    unfold YieldPlugin.exceedsAuthority at hexceeds
    rw [Dbl.lt_eq_false_of_le hwithin] at hexceeds
    cases hexceeds

theorem planTrajectory_some {plugin : YieldPlugin K} {inputs : Inputs K} {r : Replan K V}
    {plan : YieldPlan K} (h : plugin.planTrajectory inputs r = some plan) :
    plugin.candidate r = some plan.candidate ∧
      plan.usedAcceleration = plugin.usedAcceleration plan.candidate.requiredAcceleration ∧
      plan.finalVelocity = plan.usedAcceleration.map (fun a =>
        plan.candidate.startSpeed + a * (r.conflict.startTime - plan.candidate.startTime)) ∧
      plan.conflictAvoidanceMvr.motion.startSpeed =
        (avoidanceManeuver plan.candidate.startSpeed plan.finalVelocity).motion.startSpeed ∧
      plan.conflictAvoidanceMvr.motion.endSpeed =
        (avoidanceManeuver plan.candidate.startSpeed plan.finalVelocity).motion.endSpeed := by
  obtain ⟨c, hc, h⟩ := Option.bind_eq_some_iff.mp h
  obtain ⟨mvr, hmvr, h⟩ := Option.bind_eq_some_iff.mp h
  obtain rfl := Option.some.inj h
  obtain ⟨-, hstart, hend⟩ := planManeuver_some hmvr
  exact ⟨hc, rfl, rfl, hstart, hend⟩

section law

variable [IsStrictOrderedRing K]

/-- The host has to speed up just where it leaves over some of the space at its speed. -/
theorem accelerationFrom_pos_iff (plugin : YieldPlugin K) (conflict : ConflictSpace K V)
    (startDist startSpeed startTime : K)
    (hne : plugin.accelerationFrom conflict startDist startSpeed startTime ≠ .nan) :
    Dbl.lt (.fin 0) (plugin.accelerationFrom conflict startDist startSpeed startTime) = true ↔
      startSpeed * plugin.timeToCover conflict startTime <
        plugin.spaceAvailable conflict startDist startSpeed := by
  have htwo : (0 : K) < (2 : ℕ) := Nat.cast_pos.mpr Nat.two_pos
  rw [← sub_pos]
  rcases Dbl.div_sq_sign ((2 : ℕ) * (plugin.spaceAvailable conflict startDist startSpeed -
    startSpeed * plugin.timeToCover conflict startTime)) (plugin.timeToCover conflict startTime) with
    hnan | ⟨hzero, ha⟩ | ⟨hpos, ha⟩ | ⟨hneg, ha⟩
  · exact absurd hnan hne
  · rw [(mul_eq_zero.mp hzero).resolve_left htwo.ne', YieldPlugin.accelerationFrom, ha, Dbl.lt_fin,
      decide_eq_true_eq]
  · exact iff_of_true ha ((mul_pos_iff_of_pos_left htwo).mp hpos)
  · refine iff_of_false ?_ (neg_of_mul_neg_right hneg htwo.le).not_gt
    have hslow : Dbl.lt (.fin 0)
        (plugin.accelerationFrom conflict startDist startSpeed startTime) = false :=
      Dbl.lt_asymm ha
    rw [hslow]
    exact Bool.false_ne_true

theorem SPEED_EPSILON_pos : (0 : K) < SPEED_EPSILON :=
  div_pos one_pos (Nat.cast_pos.mpr (by norm_num))

theorem avoidanceManeuver_steady (v : K) :
    avoidanceManeuver v (some v) = (newManeuver .steadySpeed).setSpeeds v v := by
  have hepsilon : (0 : K) < SPEED_EPSILON := SPEED_EPSILON_pos
  unfold avoidanceManeuver
  dsimp only
  rw [sub_self, if_neg (not_lt.mpr (neg_nonpos.mpr hepsilon.le)), if_neg (not_lt.mpr hepsilon.le)]

/-- The authority is a best effort where the host has to speed up, or the plugin has none. -/
theorem bestEffort_authority {plugin : YieldPlugin K} {inputs : Inputs K} {r : Replan K V}
    {plan : YieldPlan K} (h : plugin.planTrajectory inputs r = some plan)
    (hexceeds : plugin.exceedsAuthority plan.candidate.requiredAcceleration)
    (hauthority : 0 ≤ plugin.maxYieldAccelAuthority)
    (hpositive : plugin.maxYieldAccelAuthority = 0 ∨
      Dbl.lt (.fin 0) plan.candidate.requiredAcceleration = true) :
    BestEffort plugin plan plugin.maxYieldAccelAuthority := by
  obtain ⟨-, hused, hfinal, hstart, hend⟩ := planTrajectory_some h
  have huse : plan.usedAcceleration = some plugin.maxYieldAccelAuthority :=
    hused.trans (if_pos hexceeds)
  refine ⟨huse, ?_, ⟨by linarith, le_rfl⟩, ?_, ?_, ?_, ?_⟩
  · rcases hpositive with hzero | hfast
    · have hne : plan.candidate.requiredAcceleration ≠ .nan := by
        intro hnan
        rw [hnan] at hexceeds
        cases hexceeds
      rw [hzero, neg_zero, Dbl.clampTo_self hne]
    · exact (Dbl.clampTo_of_pos _ hexceeds hfast).symm
  · rw [abs_of_nonneg hauthority]
    exact Dbl.le_of_lt hexceeds
  · exact fun hpos => hpositive.resolve_left hpos.ne'
  · exact fun hneg => absurd hneg hauthority.not_gt
  · intro hslow
    -- a host that has to brake keeps its speed without authority
    have hzero : plugin.maxYieldAccelAuthority = 0 := by
      refine hpositive.resolve_right fun hfast => ?_
      rw [Dbl.lt_asymm hslow] at hfast
      cases hfast
    have hkeep : plan.finalVelocity = some plan.candidate.startSpeed := by
      rw [hfinal, huse, hzero, Option.map_some, zero_mul, add_zero]
    rw [hkeep] at hstart hend ⊢
    rw [avoidanceManeuver_steady] at hstart hend
    exact ⟨fun v hv => (Option.some.inj hv).ge, (hend.trans hstart.symm).le⟩

/-- A best effort clamps the required acceleration just where the host has to speed up, or where
the plugin has no authority at all: the authority is used with its own sign in either case. -/
theorem a_best_effort_is_clamped_unless_the_host_has_to_brake (plugin : YieldPlugin K)
    (inputs : Inputs K) (r : Replan K V) (plan : YieldPlan K)
    (h : plugin.planTrajectory inputs r = some plan)
    (hexceeds : plugin.exceedsAuthority plan.candidate.requiredAcceleration) :
    (∃ a, BestEffort plugin plan a) ↔
      0 ≤ plugin.maxYieldAccelAuthority ∧ (plugin.maxYieldAccelAuthority = 0 ∨
        r.expectedEntrySpeed * plugin.timeToCover r.conflict r.now <
          plugin.spaceAvailable r.conflict r.startLocation r.expectedEntrySpeed) := by
  obtain ⟨hcandidate, hused, -⟩ := planTrajectory_some h
  have hrequired : plan.candidate.requiredAcceleration =
      plugin.accelerationFrom r.conflict r.startLocation r.expectedEntrySpeed r.now := by
    rw [candidate_of_exceeds hcandidate hexceeds]
    rfl
  have hne : plugin.accelerationFrom r.conflict r.startLocation r.expectedEntrySpeed r.now ≠
      .nan := by
    intro hnan
    rw [hrequired, hnan] at hexceeds
    cases hexceeds
  rw [← accelerationFrom_pos_iff plugin r.conflict _ _ _ hne, ← hrequired]
  constructor
  · rintro ⟨a, hbest⟩
    have huse : plan.usedAcceleration = some plugin.maxYieldAccelAuthority :=
      hused.trans (if_pos hexceeds)
    obtain rfl : plugin.maxYieldAccelAuthority = a := Option.some.inj (huse.symm.trans hbest.used)
    have hauthority : 0 ≤ plugin.maxYieldAccelAuthority := by linarith [hbest.within.1]
    refine ⟨hauthority, ?_⟩
    rcases hauthority.eq_or_lt with hzero | hpos
    · exact Or.inl hzero.symm
    · exact Or.inr (hbest.positive hpos)
  · rintro ⟨hauthority, hpositive⟩
    exact ⟨_, bestEffort_authority h hexceeds hauthority hpositive⟩

end law

def usual : YieldPlugin ℚ := ⟨4, 2, 7 / 5⟩

/-- A conflict ten seconds ahead, before any maneuver of the old trajectory ends. -/
def tenSecondsAhead (startDowntrack expectedEntrySpeed : ℚ) : Replan ℚ String :=
  ⟨⟨startDowntrack, startDowntrack + 20, 10, 20, 0, 0, {some "other"}⟩, [], [], 0,
    expectedEntrySpeed, 0⟩

theorem a_host_that_stands_speeds_up : ∃ plan,
    usual.planTrajectory ⟨7 / 5, Rat.sqrt⟩ (tenSecondsAhead 400 0) = some plan ∧
      ((∃ a, BestEffort usual plan a) ↔
        0 ≤ usual.maxYieldAccelAuthority ∧ (usual.maxYieldAccelAuthority = 0 ∨
          (tenSecondsAhead 400 0).expectedEntrySpeed *
              usual.timeToCover (tenSecondsAhead 400 0).conflict (tenSecondsAhead 400 0).now <
            usual.spaceAvailable (tenSecondsAhead 400 0).conflict
              (tenSecondsAhead 400 0).startLocation (tenSecondsAhead 400 0).expectedEntrySpeed)) := by
  obtain ⟨plan, hplan⟩ := Option.isSome_iff_exists.mp
    (show (usual.planTrajectory ⟨7 / 5, Rat.sqrt⟩ (tenSecondsAhead 400 0)).isSome by decide +kernel)
  have hexceeds : ∀ p ∈ usual.planTrajectory ⟨7 / 5, Rat.sqrt⟩ (tenSecondsAhead 400 0),
      usual.exceedsAuthority p.candidate.requiredAcceleration := by decide +kernel
  exact ⟨plan, hplan, a_best_effort_is_clamped_unless_the_host_has_to_brake usual _ _ plan hplan
    (hexceeds plan hplan)⟩

/-- At twenty metres a second the host has to brake, and is planned to double its speed. -/
theorem a_host_that_has_to_brake_speeds_up : ∃ plan,
    usual.planTrajectory ⟨7 / 5, Rat.sqrt⟩ (tenSecondsAhead 100 20) = some plan ∧
      usual.exceedsAuthority plan.candidate.requiredAcceleration ∧
      Dbl.lt plan.candidate.requiredAcceleration (.fin 0) = true ∧
      plan.conflictAvoidanceMvr.motion.endSpeed = 40 ∧ ¬ ∃ a, BestEffort usual plan a := by
  obtain ⟨plan, hplan⟩ := Option.isSome_iff_exists.mp
    (show (usual.planTrajectory ⟨7 / 5, Rat.sqrt⟩ (tenSecondsAhead 100 20)).isSome by decide +kernel)
  have hruns : ∀ p ∈ usual.planTrajectory ⟨7 / 5, Rat.sqrt⟩ (tenSecondsAhead 100 20),
      usual.exceedsAuthority p.candidate.requiredAcceleration ∧
        Dbl.lt p.candidate.requiredAcceleration (.fin 0) = true ∧
        p.conflictAvoidanceMvr.motion.endSpeed = 40 ∧
        p.conflictAvoidanceMvr.motion.startSpeed = 20 := by decide +kernel
  obtain ⟨hexceeds, hbrake, hend, hstart⟩ := hruns plan hplan
  refine ⟨plan, hplan, hexceeds, hbrake, hend, ?_⟩
  rintro ⟨a, hbest⟩
  have hslower := (hbest.noFaster hbrake).2
  rw [hend, hstart] at hslower
  norm_num at hslower

end carma.yield
