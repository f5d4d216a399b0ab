-- The laws of the trajectory validator: the answer for a trajectory does not
-- depend on those validated before, unless the overlap constraint has rejected
-- one of them, and what the local speed limit accepts is legal where it starts and
-- where it ends. The loop over the limits in between reaches a verdict that nothing
-- reads.
import Mathlib.Algebra.Order.Ring.Rat
import Mathlib.Tactic.Linarith
import Mathlib.Tactic.NormNum
import Mathlib.Tactic.Positivity
import Carma.Lib.Runs
import Carma.TrajectoryValidator

open lib
open carma.maneuvers
open carma.trajectory

namespace carma.trajectory_validator

open TrajectoryValidationConstraint

/-! ## What the constraints ask for -/

/-- The constructor calls of the four constraints. -/
inductive Constructor (K : Type)
  | overlapping
  | minimumDistance (minDist : K)
  | globalSpeedLimit (speedLimit : K)
  | localSpeedLimit (route : List (SegmentLimit K))

variable {K : Type}

/-- A longitudinal maneuver of the list fails the test. -/
def Fails (test : LongitudinalManeuver K → Bool) (ms : List (IManeuver K)) : Prop :=
  ∃ m ∈ ms, (asLongitudinal m).any test = true

/-- The maneuvers of a list that fail a test. -/
def failing (test : LongitudinalManeuver K → Bool) (ms : List (IManeuver K)) :
    List (IManeuver K) := ms.filter (fun m => (asLongitudinal m).any test)

theorem fails_iff (test : LongitudinalManeuver K → Bool) (ms : List (IManeuver K)) :
    Fails test ms ↔ failing test ms ≠ [] := by
  unfold Fails failing
  rw [Ne, List.filter_eq_nil_iff]
  push Not
  rfl

theorem getType_cases (m : IManeuver K) : getType m = .LATERAL ∨ getType m = .LONGITUDINAL := by
  unfold getType
  split
  · exact Or.inr rfl
  · exact Or.inl rfl

variable [LinearOrder K] [Field K]

def construct : Constructor K → TrajectoryValidationConstraint K
  | .overlapping => overlapping ⟨[]⟩
  | .minimumDistance minDist => minimumDistance ⟨none, none, true, [], minDist⟩
  | .globalSpeedLimit speedLimit => globalSpeedLimit ⟨speedLimit, []⟩
  | .localSpeedLimit route => localSpeedLimit ⟨processRoute 0 route, []⟩

/-- Two maneuvers of one type overlap. -/
def Overlapped (ms : List (IManeuver K)) : Prop :=
  ¬ ms.Pairwise (fun m m2 => ¬ clashes m m2 = true)

/-- Two maneuvers of one type follow each other too closely. -/
def Crowded (minDist : K) (ms : List (IManeuver K)) : Prop :=
  ∃ ty, ¬ (ms.filter (fun m => decide (getType m = ty))).IsChain
    (fun last m => ¬ tooClose minDist last m = true)

/-- The maneuvers of a trajectory break a constraint. -/
def Breaks : Constructor K → List (IManeuver K) → Prop
  | .overlapping, ms => Overlapped ms
  | .minimumDistance minDist, ms => Crowded minDist ms
  | .globalSpeedLimit speedLimit, ms => Fails (exceeds speedLimit) ms
  | .localSpeedLimit route, ms => Fails (offends (processRoute 0 route)) ms

/-! ## One constraint and one trajectory -/

/-- The constraint after it has visited the maneuvers. -/
def visitAll (c : TrajectoryValidationConstraint K) (ms : List (IManeuver K)) :
    TrajectoryValidationConstraint K := ms.foldl (fun c m => c.visit m) c

omit [Field K] in
theorem firstClash_none (ms : List (IManeuver K)) :
    firstClash ms = none ↔ ms.Pairwise (fun m m2 => ¬ clashes m m2 = true) := by
  induction ms with
  | nil => simp [firstClash]
  | cons m ms ih =>
    conv_lhs => unfold firstClash
    rw [List.pairwise_cons, ← ih, ← List.find?_eq_none]
    cases ms.find? (clashes m) <;> simp

omit [Field K] in
theorem overlapped_iff (ms : List (IManeuver K)) : Overlapped ms ↔ ¬ firstClash ms = none :=
  not_congr (firstClash_none ms).symm

theorem visitAll_overlapping (v ms : List (IManeuver K)) :
    visitAll (overlapping ⟨v⟩) ms = overlapping ⟨v ++ ms⟩ := by
  induction ms generalizing v with
  | nil => simp [visitAll]
  | cons m ms ih =>
    have hrest := ih (v ++ [m])
    rw [List.append_assoc] at hrest
    exact hrest

theorem visitAll_cons (c : TrajectoryValidationConstraint K) (m : IManeuver K)
    (ms : List (IManeuver K)) : visitAll c (m :: ms) = visitAll (c.visit m) ms := rfl

theorem visitAll_collects {test : LongitudinalManeuver K → Bool}
    {b : List (IManeuver K) → TrajectoryValidationConstraint K}
    (hvisit : ∀ bad m, (b bad).visit m = b (bad ++ failing test [m]))
    (bad ms : List (IManeuver K)) : visitAll (b bad) ms = b (bad ++ failing test ms) := by
  induction ms generalizing bad with
  | nil => simp [visitAll, failing]
  | cons m ms ih =>
    rw [visitAll_cons, hvisit, ih, List.append_assoc]
    unfold failing
    rw [← List.filter_append, List.singleton_append]

theorem visitAll_globalSpeedLimit (limit : K) (bad ms : List (IManeuver K)) :
    visitAll (globalSpeedLimit ⟨limit, bad⟩) ms =
      globalSpeedLimit ⟨limit, bad ++ failing (exceeds limit) ms⟩ := by
  apply visitAll_collects (b := fun bad => globalSpeedLimit ⟨limit, bad⟩)
  intro bad m
  unfold TrajectoryValidationConstraint.visit GlobalSpeedLimitConstraint.visit failing
  cases hlon : asLongitudinal m with
  | none => simp [hlon]
  | some lonMvr => cases hbad : exceeds limit lonMvr <;> simp [hlon, hbad]

theorem visitAll_localSpeedLimit (limits : List (SpeedLimit K)) (bad ms : List (IManeuver K)) :
    visitAll (localSpeedLimit ⟨limits, bad⟩) ms =
      localSpeedLimit ⟨limits, bad ++ failing (offends limits) ms⟩ := by
  apply visitAll_collects (b := fun bad => localSpeedLimit ⟨limits, bad⟩)
  intro bad m
  unfold TrajectoryValidationConstraint.visit LocalSpeedLimitConstraint.visit failing
  cases hlon : asLongitudinal m with
  | none => simp [hlon]
  | some lonMvr => cases hbad : offends limits lonMvr <;> simp [hlon, hbad]

/-- The minimum distance kept by `ms` after `last`. -/
def Spaced (minDist : K) (last : Option (IManeuver K)) (ty : ManeuverType)
    (ms : List (IManeuver K)) : Prop :=
  (last.toList ++ ms.filter (fun m => decide (getType m = ty))).IsChain
    (fun last m => ¬ tooClose minDist last m = true)

theorem spaced_other {minDist : K} {last : Option (IManeuver K)} {ty : ManeuverType}
    {m : IManeuver K} {ms : List (IManeuver K)} (h : getType m ≠ ty) :
    Spaced minDist last ty (m :: ms) ↔ Spaced minDist last ty ms := by
  unfold Spaced
  rw [List.filter_cons_of_neg (by simpa using h)]

theorem spaced_same {minDist : K} {last : Option (IManeuver K)} {ty : ManeuverType}
    {m : IManeuver K} {ms : List (IManeuver K)} (h : getType m = ty) :
    Spaced minDist last ty (m :: ms) ↔
      (∀ l ∈ last, ¬ tooClose minDist l m = true) ∧ Spaced minDist (some m) ty ms := by
  unfold Spaced
  rw [List.filter_cons_of_pos (by simpa using h)]
  cases last with
  | none => simp
  | some l => simp

/-- The distances are all kept when the constraint is still valid at the end. -/
theorem visitAll_minimumDistance (c : MinimumDistanceBetweenManeuversConstraint K)
    (ms : List (IManeuver K)) :
    ∃ c', visitAll (minimumDistance c) ms = minimumDistance c' ∧
      c'.minimumDistanceBetweenManeuvers = c.minimumDistanceBetweenManeuvers ∧
      (c'.valid = true ↔ c.valid = true ∧
        Spaced c.minimumDistanceBetweenManeuvers c.lastLateralManeuver .LATERAL ms ∧
        Spaced c.minimumDistanceBetweenManeuvers c.lastLongitudinalManeuver .LONGITUDINAL ms) := by
  induction ms generalizing c with
  | nil =>
    refine ⟨c, rfl, rfl, ?_⟩
    unfold Spaced
    cases c.lastLateralManeuver <;> cases c.lastLongitudinalManeuver <;> simp
  | cons m ms ih =>
    obtain ⟨c', hc', hmin, hvalid⟩ := ih (c.visit m)
    refine ⟨c', hc', ?_⟩
    rw [hmin, hvalid]
    unfold MinimumDistanceBetweenManeuversConstraint.visit
    cases hv : c.valid with
    | false => simp [hv]
    | true =>
      rcases getType_cases m with h | h
      · rw [spaced_same h, spaced_other (by rw [h]; decide)]
        cases hlast : c.lastLateralManeuver with
        | none => simp [h]
        | some last =>
          cases hclose : tooClose c.minimumDistanceBetweenManeuvers last m <;> simp [h, hclose]
      · rw [spaced_same h, spaced_other (by rw [h]; decide)]
        cases hlast : c.lastLongitudinalManeuver with
        | none => simp [h]
        | some last =>
          cases hclose : tooClose c.minimumDistanceBetweenManeuvers last m <;>
            simp [h, hclose]

/-- A fresh constraint accepts a trajectory that does not break it. -/
theorem getResult_construct (k : Constructor K) (ms : List (IManeuver K)) :
    (visitAll (construct k) ms).getResult.1.getSuccess = true ↔ ¬ Breaks k ms := by
  cases k with
  | overlapping =>
    unfold construct Breaks Overlapped
    rw [visitAll_overlapping, List.nil_append, not_not, ← firstClash_none]
    unfold TrajectoryValidationConstraint.getResult OverlappingManeuversConstraint.getResult
    cases hclash : firstClash ms <;> simp [hclash, success, failure,
      TrajectoryValidationResult.getSuccess]
  | minimumDistance minDist =>
    obtain ⟨c', hc', _, hvalid⟩ :=
      visitAll_minimumDistance ⟨none, none, true, [], minDist⟩ ms
    have hspaced : ∀ ty, Spaced minDist none ty ms ↔
        (ms.filter (fun m => decide (getType m = ty))).IsChain
          (fun last m => ¬ tooClose minDist last m = true) := fun ty => Iff.rfl
    have hbreaks : ¬ Breaks (.minimumDistance minDist) ms ↔ c'.valid = true := by
      rw [hvalid]
      unfold Breaks Crowded
      push Not
      simp only [hspaced, true_and]
      constructor
      · exact fun h => ⟨h .LATERAL, h .LONGITUDINAL⟩
      · rintro ⟨hlat, hlon⟩ ty
        cases ty with
        | LATERAL => exact hlat
        | LONGITUDINAL => exact hlon
        | COMPLEX =>
          rw [List.filter_eq_nil_iff.mpr]
          · exact List.IsChain.nil
          · intro m _
            rcases getType_cases m with h | h <;> simp [h]
    rw [hbreaks]
    unfold construct
    rw [hc']
    unfold TrajectoryValidationConstraint.getResult
      MinimumDistanceBetweenManeuversConstraint.getResult
    cases hv : c'.valid <;> simp [hv, success, failure, TrajectoryValidationResult.getSuccess]
  | globalSpeedLimit speedLimit =>
    have hfails : Breaks (.globalSpeedLimit speedLimit) ms ↔ failing (exceeds speedLimit) ms ≠ [] :=
      fails_iff _ _
    unfold construct
    rw [hfails, visitAll_globalSpeedLimit, List.nil_append, not_not]
    unfold TrajectoryValidationConstraint.getResult GlobalSpeedLimitConstraint.getResult
    cases hbad : failing (exceeds speedLimit) ms <;> simp [success, failure,
      TrajectoryValidationResult.getSuccess]
  | localSpeedLimit route =>
    have hfails : Breaks (.localSpeedLimit route) ms ↔
        failing (offends (processRoute 0 route)) ms ≠ [] := fails_iff _ _
    unfold construct
    rw [hfails, visitAll_localSpeedLimit, List.nil_append, not_not]
    unfold TrajectoryValidationConstraint.getResult LocalSpeedLimitConstraint.getResult
    cases hbad : failing (offends (processRoute 0 route)) ms <;> simp [success, failure,
      TrajectoryValidationResult.getSuccess]

omit [LinearOrder K] [Field K] in
theorem GlobalSpeedLimitConstraint.getResult_state (c : GlobalSpeedLimitConstraint K) :
    c.getResult.2 = ⟨c.globalSpeedLimit, []⟩ := by
  unfold GlobalSpeedLimitConstraint.getResult
  split <;> rfl

omit [LinearOrder K] [Field K] in
theorem LocalSpeedLimitConstraint.getResult_state (c : LocalSpeedLimitConstraint K) :
    c.getResult.2 = ⟨c.speedLimits, []⟩ := by
  unfold LocalSpeedLimitConstraint.getResult
  split <;> rfl

/-- Every constraint but the one for overlaps puts its state back. -/
theorem getResult_restores {k : Constructor K} (h : k ≠ .overlapping) (ms : List (IManeuver K)) :
    (visitAll (construct k) ms).getResult.2 = construct k := by
  cases k with
  | overlapping => exact absurd rfl h
  | minimumDistance minDist =>
    obtain ⟨c', hc', hmin, _⟩ := visitAll_minimumDistance ⟨none, none, true, [], minDist⟩ ms
    unfold construct
    rw [hc']
    unfold TrajectoryValidationConstraint.getResult
      MinimumDistanceBetweenManeuversConstraint.getResult
      MinimumDistanceBetweenManeuversConstraint.reset
    cases hv : c'.valid <;> simp [hv, hmin]
  | globalSpeedLimit speedLimit =>
    unfold construct
    rw [visitAll_globalSpeedLimit]
    exact congrArg globalSpeedLimit (GlobalSpeedLimitConstraint.getResult_state _)
  | localSpeedLimit route =>
    unfold construct
    rw [visitAll_localSpeedLimit]
    exact congrArg localSpeedLimit (LocalSpeedLimitConstraint.getResult_state _)

/-! ## One validation -/

/-- `new TrajectoryValidator()` with the constraints registered one by one. -/
def newValidator (ks : List (Constructor K)) : TrajectoryValidator K :=
  (ks.map construct).foldl (fun v c => v.addValidationConstraint c) ⟨[]⟩

omit [LinearOrder K] in
theorem newValidator_constraints (ks : List (Constructor K)) :
    (newValidator ks).constraints = ks.map construct := by
  have hadd : ∀ (cs : List (TrajectoryValidationConstraint K)) (v : TrajectoryValidator K),
      (cs.foldl (fun v c => v.addValidationConstraint c) v).constraints = v.constraints ++ cs := by
    intro cs
    induction cs with
    | nil => simp
    | cons c cs ih =>
      intro v
      rw [List.foldl_cons, ih]
      simp [TrajectoryValidator.addValidationConstraint]
  unfold newValidator
  rw [hadd]
  rfl

theorem visited_eq (ms : List (IManeuver K)) (cs : List (TrajectoryValidationConstraint K)) :
    ms.foldl (fun cs m => cs.map (·.visit m)) cs = cs.map (visitAll · ms) := by
  induction ms generalizing cs with
  | nil => simp [visitAll]
  | cons m ms ih =>
    rw [List.foldl_cons, ih, List.map_map]
    rfl

theorem validate_answer (v : TrajectoryValidator K) (traj : Trajectory K) :
    (v.validate traj).1 = true ↔
      ∀ c ∈ v.constraints, (visitAll c traj.getManeuvers).getResult.1.getSuccess = true := by
  have hall : ∀ (cs : List (TrajectoryValidationConstraint K)) (b : Bool),
      cs.foldl (fun valid c => valid && c.getResult.1.getSuccess) b = true ↔
        b = true ∧ ∀ c ∈ cs, c.getResult.1.getSuccess = true := by
    intro cs
    induction cs with
    | nil => simp
    | cons c cs ih =>
      intro b
      rw [List.foldl_cons, ih, List.forall_mem_cons, Bool.and_eq_true, and_assoc]
  unfold TrajectoryValidator.validate
  simp only [hall, visited_eq, true_and, List.forall_mem_map]

theorem validate_constraints (v : TrajectoryValidator K) (traj : Trajectory K) :
    (v.validate traj).2.constraints =
      v.constraints.map (fun c => (visitAll c traj.getManeuvers).getResult.2) := by
  unfold TrajectoryValidator.validate
  simp only [visited_eq, List.map_map]
  rfl

theorem validate_new (ks : List (Constructor K)) (traj : Trajectory K) :
    ((newValidator ks).validate traj).1 = true ↔ ∀ k ∈ ks, ¬ Breaks k traj.getManeuvers := by
  rw [validate_answer, newValidator_constraints, List.forall_mem_map]
  simp only [getResult_construct]

/-! ## A history of validations -/

/-- The validator after it has validated a list of trajectories. -/
def afterHistory (v : TrajectoryValidator K) (trajs : List (Trajectory K)) :
    TrajectoryValidator K := runs.run (fun v traj => (v.validate traj).2) v trajs

/-- A constraint after a list of trajectories. -/
def constraintAfter (c : TrajectoryValidationConstraint K) (trajs : List (Trajectory K)) :
    TrajectoryValidationConstraint K :=
  runs.run (fun c traj => (visitAll c traj.getManeuvers).getResult.2) c trajs

theorem afterHistory_constraints (v : TrajectoryValidator K) (trajs : List (Trajectory K)) :
    (afterHistory v trajs).constraints = v.constraints.map (constraintAfter · trajs) := by
  unfold afterHistory constraintAfter
  induction trajs generalizing v with
  | nil => simp
  | cons traj trajs ih =>
    rw [runs.run_cons, ih, validate_constraints, List.map_map]
    rfl

theorem constraintAfter_restored {k : Constructor K} (h : k ≠ .overlapping)
    (trajs : List (Trajectory K)) : constraintAfter (construct k) trajs = construct k := by
  unfold constraintAfter
  induction trajs with
  | nil => rfl
  | cons traj trajs ih => rw [runs.run_cons, getResult_restores h, ih]

theorem getResult_overlapping (v ms : List (IManeuver K)) :
    (visitAll (overlapping ⟨v⟩) ms).getResult.2 =
      if firstClash (v ++ ms) = none then construct .overlapping else overlapping ⟨v ++ ms⟩ := by
  rw [visitAll_overlapping]
  unfold TrajectoryValidationConstraint.getResult OverlappingManeuversConstraint.getResult construct
  cases hclash : firstClash (v ++ ms) <;> simp [hclash]

theorem constraintAfter_clashed {v : List (IManeuver K)} (h : Overlapped v)
    (trajs : List (Trajectory K)) :
    ∃ w, constraintAfter (overlapping ⟨v⟩) trajs = overlapping ⟨w⟩ ∧ Overlapped w := by
  unfold constraintAfter
  induction trajs generalizing v with
  | nil => exact ⟨v, rfl, h⟩
  | cons traj trajs ih =>
    have hmore : Overlapped (v ++ traj.getManeuvers) :=
      fun hp => h (List.pairwise_append.mp hp).1
    rw [runs.run_cons, getResult_overlapping, if_neg ((overlapped_iff _).mp hmore)]
    exact ih hmore

theorem constraintAfter_cons (v : List (IManeuver K)) (traj : Trajectory K)
    (trajs : List (Trajectory K)) :
    constraintAfter (overlapping ⟨v⟩) (traj :: trajs) =
      constraintAfter (visitAll (overlapping ⟨v⟩) traj.getManeuvers).getResult.2 trajs := rfl

theorem constraintAfter_unclashed {trajs : List (Trajectory K)}
    (h : ∀ traj ∈ trajs, ¬ Overlapped traj.getManeuvers) :
    constraintAfter (construct .overlapping) trajs = construct .overlapping := by
  induction trajs with
  | nil => rfl
  | cons traj trajs ih =>
    have hno := h traj (by simp)
    rw [overlapped_iff, not_not] at hno
    rw [show construct .overlapping = (overlapping ⟨[]⟩ : TrajectoryValidationConstraint K) from rfl,
      constraintAfter_cons, getResult_overlapping, List.nil_append, if_pos hno]
    exact ih (fun d hd => h d (by simp [hd]))

theorem constraintAfter_overlapped {trajs : List (Trajectory K)} {traj : Trajectory K}
    (hmem : traj ∈ trajs) (h : Overlapped traj.getManeuvers) :
    ∃ w, constraintAfter (construct .overlapping) trajs = overlapping ⟨w⟩ ∧ Overlapped w := by
  induction trajs with
  | nil => cases hmem
  | cons d trajs ih =>
    rw [show construct .overlapping = (overlapping ⟨[]⟩ : TrajectoryValidationConstraint K) from rfl,
      constraintAfter_cons, getResult_overlapping, List.nil_append]
    by_cases hd : Overlapped d.getManeuvers
    · rw [if_neg ((overlapped_iff _).mp hd)]
      exact constraintAfter_clashed hd trajs
    · have hno := hd
      rw [overlapped_iff, not_not] at hno
      rw [if_pos hno]
      rcases List.mem_cons.mp hmem with rfl | hmem
      · exact absurd h hd
      · exact ih hmem

theorem validate_clashed {v : TrajectoryValidator K} {w : List (IManeuver K)}
    (hmem : overlapping ⟨w⟩ ∈ v.constraints) (h : Overlapped w) (traj : Trajectory K) :
    ¬ (v.validate traj).1 = true := by
  rw [validate_answer]
  intro hall
  have hok := hall _ hmem
  have hmore : ¬ firstClash (w ++ traj.getManeuvers) = none :=
    (overlapped_iff _).mp (fun hp => h (List.pairwise_append.mp hp).1)
  rw [visitAll_overlapping] at hok
  unfold TrajectoryValidationConstraint.getResult OverlappingManeuversConstraint.getResult at hok
  cases hclash : firstClash (w ++ traj.getManeuvers) with
  | none => exact hmore hclash
  | some p => simp [hclash, failure, TrajectoryValidationResult.getSuccess] at hok

/-! ## The law -/

/-- The answer is the one of a fresh validator just when there is no overlap
constraint, or no earlier trajectory had an overlap, or this trajectory breaks a
constraint itself. -/
theorem an_answer_is_fresh_unless_an_overlap_was_rejected (ks : List (Constructor K))
    (history : List (Trajectory K)) (traj : Trajectory K) :
    ((afterHistory (newValidator ks) history).validate traj).1 = ((newValidator ks).validate traj).1 ↔
      Constructor.overlapping ∉ ks ∨ (∀ h ∈ history, ¬ Overlapped h.getManeuvers) ∨
        ∃ k ∈ ks, Breaks k traj.getManeuvers := by
  have hconstraints : (afterHistory (newValidator ks) history).constraints =
      ks.map (fun k => constraintAfter (construct k) history) := by
    rw [afterHistory_constraints, newValidator_constraints, List.map_map]
    rfl
  by_cases hclean : Constructor.overlapping ∉ ks ∨ ∀ h ∈ history, ¬ Overlapped h.getManeuvers
  · -- every constraint is as new
    refine iff_of_true ?_ (hclean.elim Or.inl (fun h => Or.inr (Or.inl h)))
    have hsame : (afterHistory (newValidator ks) history).constraints =
        (newValidator ks).constraints := by
      rw [hconstraints, newValidator_constraints]
      refine List.map_congr_left ?_
      intro k hk
      by_cases hover : k = .overlapping
      · subst hover
        exact constraintAfter_unclashed (hclean.resolve_left (fun hno => hno hk))
      · exact constraintAfter_restored hover history
    rw [Bool.eq_iff_iff, validate_answer, validate_answer, hsame]
  · -- the overlap constraint holds a clash, so the answer is a rejection
    rw [not_or, not_not] at hclean
    obtain ⟨hover, hdirty⟩ := hclean
    have hdirty' := hdirty
    push Not at hdirty'
    obtain ⟨h, hmem, hoverlap⟩ := hdirty'
    obtain ⟨w, hw, hclash⟩ := constraintAfter_overlapped hmem hoverlap
    have hrejected : ¬ ((afterHistory (newValidator ks) history).validate traj).1 = true := by
      refine validate_clashed ?_ hclash traj
      rw [hconstraints, ← hw]
      exact List.mem_map_of_mem hover
    rw [Bool.eq_iff_iff, iff_false_left hrejected, validate_new]
    push Not
    constructor
    · exact fun hk => Or.inr (Or.inr hk)
    · rintro (hno | hno | hk)
      · exact absurd hover hno
      · exact absurd hno hdirty
      · exact hk

/-- A lane change planned over the complex maneuver of the trajectory. -/
def laneChangeOverComplex : Trajectory ℚ :=
  (((newTrajectory 0 10).setComplexManeuver (some ⟨5, 10, 3, 4⟩)).2.addManeuver
    (.lateral (.single 5 10 1))).2

theorem an_empty_trajectory_is_rejected_after_an_overlap :
    ((afterHistory (newValidator [.overlapping]) [laneChangeOverComplex]).validate
      (newTrajectory (0 : ℚ) 10)).1 ≠
        ((newValidator [.overlapping]).validate (newTrajectory (0 : ℚ) 10)).1 := by
  decide +kernel

/-! ## The limits in between -/

/-- `getSpeedLimits`: the limits spanned by `[startDistance, endDistance)`. -/
def getSpeedLimits (speedLimits : List (SpeedLimit K)) (startDistance endDistance : K) :
    List (SpeedLimit K) :=
  speedLimits.filter fun limit =>
    decide (limit.location ≥ startDistance) && decide (limit.location < endDistance)

/-- `interpolatedSpeed`: the speed at a location on the line from the start to the end. -/
def interpolatedSpeed (m : Motion K) (location : K) : K :=
  let distFactor := (location - m.startDist) / (m.endDist - m.startDist)
  let deltaV := m.endSpeed - m.startSpeed
  m.startSpeed + deltaV * distFactor

/-- `spannedLegal`, as the loop at the end of `visit` leaves it. -/
def spannedLegal (speedLimits : List (SpeedLimit K)) (m : Motion K) : Bool :=
  (getSpeedLimits speedLimits m.startDist (m.endDist - distanceEpsilon)).foldl
    (fun legal limit => legal && decide (interpolatedSpeed m limit.location ≤ limit.speedLimit)) true

theorem foldl_and {α : Type} (test : α → Bool) (legal : Bool) (xs : List α) :
    xs.foldl (fun legal x => legal && test x) legal = (legal && xs.all test) := by
  induction xs generalizing legal with
  | nil => simp
  | cons x xs ih => rw [List.foldl_cons, ih, List.all_cons, Bool.and_assoc]

theorem spannedLegal_iff (speedLimits : List (SpeedLimit K)) (m : Motion K) :
    spannedLegal speedLimits m = true ↔
      ∀ limit ∈ speedLimits, m.startDist ≤ limit.location →
        limit.location < m.endDist - distanceEpsilon →
        interpolatedSpeed m limit.location ≤ limit.speedLimit := by
  unfold spannedLegal getSpeedLimits
  rw [foldl_and, Bool.true_and, List.all_filter, List.all_eq_true]
  refine forall₂_congr (fun limit _ => ?_)
  simp only [ge_iff_le, Bool.or_eq_true, Bool.not_eq_true', Bool.and_eq_false_iff,
    decide_eq_false_iff_not, decide_eq_true_eq]
  tauto

/-! ## Legal maneuvers -/

/-- A maneuver whose speeds `visit` looks at: no slow down, and no steady speed that is there
because of the lag of the vehicle. -/
def Checked : LongitudinalManeuver K → Prop
  | .single .slowDown _ => False
  | lonMvr => withinLag lonMvr = false

/-- A speed is at most the limit that is in force at a distance. -/
def LegalAt (speedLimits : List (SpeedLimit K)) (dist speed : K) : Prop :=
  ∃ limit, getLimitAtDistance speedLimits dist = some limit ∧ speed ≤ limit.speedLimit

/-- The speed of a maneuver is legal at its start, at its end and at each boundary between. -/
structure Legal (speedLimits : List (SpeedLimit K)) (m : Motion K) : Prop where
  starts : LegalAt speedLimits m.startDist m.startSpeed
  ends : LegalAt speedLimits (m.endDist - distanceEpsilon) m.endSpeed
  between : ∀ limit ∈ speedLimits, m.startDist ≤ limit.location →
    limit.location < m.endDist - distanceEpsilon →
    interpolatedSpeed m limit.location ≤ limit.speedLimit

theorem offends_checked {speedLimits : List (SpeedLimit K)} {lonMvr : LongitudinalManeuver K}
    (h : Checked lonMvr) : offends speedLimits lonMvr = false ↔
      LegalAt speedLimits lonMvr.motion.startDist lonMvr.motion.startSpeed ∧
        LegalAt speedLimits (lonMvr.motion.endDist - distanceEpsilon) lonMvr.motion.endSpeed := by
  unfold Checked at h
  split at h
  · exact absurd h not_false
  · rename_i hslow
    unfold offends LegalAt
    split
    · rename_i m
      exact absurd rfl (hslow m)
    · unfold LongitudinalManeuver.startDist LongitudinalManeuver.endDist
      rw [if_neg (by rw [h]; exact Bool.false_ne_true)]
      cases getLimitAtDistance speedLimits lonMvr.motion.startDist with
      | none => simp
      | some start =>
        cases getLimitAtDistance speedLimits (lonMvr.motion.endDist - distanceEpsilon) with
        | none => simp
        | some end_ => simp

theorem legal_iff {speedLimits : List (SpeedLimit K)} {lonMvr : LongitudinalManeuver K}
    (h : Checked lonMvr) (hok : offends speedLimits lonMvr = false) :
    Legal speedLimits lonMvr.motion ↔ spannedLegal speedLimits lonMvr.motion = true := by
  obtain ⟨hstart, hend⟩ := (offends_checked h).mp hok
  rw [spannedLegal_iff]
  exact ⟨fun hlegal => hlegal.between, fun hbetween => ⟨hstart, hend, hbetween⟩⟩

/-! ## Sequences -/

/-- A new constraint, or one after any result, visits the maneuvers and gives its result. -/
def accepts (speedLimits : List (SpeedLimit K)) (ms : List (IManeuver K)) : Bool :=
  (visitAll (localSpeedLimit ⟨speedLimits, []⟩) ms).getResult.1.getSuccess

theorem accepts_iff (speedLimits : List (SpeedLimit K)) (ms : List (IManeuver K)) :
    accepts speedLimits ms = true ↔
      ∀ lonMvr ∈ ms.filterMap asLongitudinal, offends speedLimits lonMvr = false := by
  unfold accepts
  rw [visitAll_localSpeedLimit, List.nil_append]
  unfold TrajectoryValidationConstraint.getResult LocalSpeedLimitConstraint.getResult
  dsimp only
  have hnone : failing (offends speedLimits) ms = [] ↔
      ∀ lonMvr ∈ ms.filterMap asLongitudinal, offends speedLimits lonMvr = false := by
    unfold failing
    rw [List.filter_eq_nil_iff, List.forall_mem_filterMap]
    refine forall₂_congr (fun m _ => ?_)
    cases asLongitudinal m with
    | none => simp
    | some lonMvr => simp
  rw [← hnone]
  cases failing (offends speedLimits) ms with
  | nil => exact iff_of_true rfl rfl
  | cons m bad => exact iff_of_false Bool.false_ne_true (List.cons_ne_nil m bad)

/-- Each limit that ends between the ends of a maneuver is at least a speed. -/
def LimitsBetween (speedLimits : List (SpeedLimit K)) (m : Motion K) (speed : K) : Prop :=
  ∀ limit ∈ speedLimits, m.startDist ≤ limit.location →
    limit.location < m.endDist - distanceEpsilon → speed ≤ limit.speedLimit

section between

variable [IsStrictOrderedRing K]

theorem interpolatedSpeed_between {m : Motion K} {location : K} (hlow : m.startDist ≤ location)
    (hhigh : location < m.endDist - distanceEpsilon) :
    min m.startSpeed m.endSpeed ≤ interpolatedSpeed m location ∧
      interpolatedSpeed m location ≤ max m.startSpeed m.endSpeed := by
  have hepsilon : (0 : K) < distanceEpsilon := by
    unfold distanceEpsilon
    positivity
  have hlength : 0 < m.endDist - m.startDist := by linarith
  unfold interpolatedSpeed
  dsimp only
  generalize hfactor : (location - m.startDist) / (m.endDist - m.startDist) = distFactor
  have hzero : 0 ≤ distFactor := hfactor ▸ div_nonneg (sub_nonneg.mpr hlow) hlength.le
  have hone : distFactor ≤ 1 := by
    rw [← hfactor, div_le_one hlength]
    linarith
  rcases le_total m.startSpeed m.endSpeed with hup | hdown
  · rw [min_eq_left hup, max_eq_right hup]
    have hgain := mul_nonneg (sub_nonneg.mpr hup) hzero
    have hmost := mul_le_of_le_one_right (sub_nonneg.mpr hup) hone
    exact ⟨by linarith, by linarith⟩
  · rw [min_eq_right hdown, max_eq_left hdown]
    have hloss := mul_nonneg (sub_nonneg.mpr hdown) hzero
    have hmost := mul_le_of_le_one_right (sub_nonneg.mpr hdown) hone
    exact ⟨by linarith, by linarith⟩

theorem spannedLegal_of_max {speedLimits : List (SpeedLimit K)} {m : Motion K}
    (h : LimitsBetween speedLimits m (max m.startSpeed m.endSpeed)) :
    spannedLegal speedLimits m = true := by
  rw [spannedLegal_iff]
  intro limit hlimit hlow hhigh
  exact (interpolatedSpeed_between hlow hhigh).2.trans (h limit hlimit hlow hhigh)

theorem min_of_spannedLegal {speedLimits : List (SpeedLimit K)} {m : Motion K}
    (h : spannedLegal speedLimits m = true) :
    LimitsBetween speedLimits m (min m.startSpeed m.endSpeed) := by
  rw [spannedLegal_iff] at h
  intro limit hlimit hlow hhigh
  exact (interpolatedSpeed_between hlow hhigh).1.trans (h limit hlimit hlow hhigh)

/-- What the constraint accepts is legal all along where the limits between the ends of each
maneuver that is looked at are at least both of its speeds, and only where they are at least
the lesser one. At one speed these are the same. -/
theorem accepted_speeds_are_legal_under_the_limits_between (speedLimits : List (SpeedLimit K))
    (ms : List (IManeuver K)) (haccepts : accepts speedLimits ms = true) :
    ((∀ lonMvr ∈ ms.filterMap asLongitudinal, Checked lonMvr →
        LimitsBetween speedLimits lonMvr.motion
          (max lonMvr.motion.startSpeed lonMvr.motion.endSpeed)) →
      ∀ lonMvr ∈ ms.filterMap asLongitudinal, Checked lonMvr →
        Legal speedLimits lonMvr.motion) ∧
    ((∀ lonMvr ∈ ms.filterMap asLongitudinal, Checked lonMvr →
        Legal speedLimits lonMvr.motion) →
      ∀ lonMvr ∈ ms.filterMap asLongitudinal, Checked lonMvr →
        LimitsBetween speedLimits lonMvr.motion
          (min lonMvr.motion.startSpeed lonMvr.motion.endSpeed)) := by
  rw [accepts_iff] at haccepts
  constructor
  · intro h lonMvr hmem hc
    exact (legal_iff hc (haccepts lonMvr hmem)).mpr (spannedLegal_of_max (h lonMvr hmem hc))
  · intro h lonMvr hmem hc
    exact min_of_spannedLegal ((legal_iff hc (haccepts lonMvr hmem)).mp (h lonMvr hmem hc))

end between

/-- A speed up to 10 m/s over a boundary where the limit goes from 10 to 20 m/s, and a steady
speed over one where it falls to 15 m/s. -/
theorem two_maneuvers_over_boundaries_are_legal :
    let speedLimits : List (SpeedLimit ℚ) := [⟨10, 10⟩, ⟨20, 40⟩, ⟨15, 90⟩]
    let ms : List (IManeuver ℚ) := [ofLongitudinal (.single .speedUp ⟨0, 30, 8, 10⟩),
      ofLongitudinal (.single .steadySpeed ⟨30, 80, 10, 10⟩)]
    ∀ lonMvr ∈ ms.filterMap asLongitudinal, Checked lonMvr → Legal speedLimits lonMvr.motion := by
  intro speedLimits ms
  refine (accepted_speeds_are_legal_under_the_limits_between speedLimits ms (by decide +kernel)).1 ?_
  have hboth : ∀ lonMvr ∈ ms.filterMap asLongitudinal, LimitsBetween speedLimits lonMvr.motion
      (max lonMvr.motion.startSpeed lonMvr.motion.endSpeed) := by
    unfold LimitsBetween
    decide +kernel
  exact fun lonMvr hmem _ => hboth lonMvr hmem

/-- A speed up from 8 to 20 m/s over a boundary where the limit goes from 10 to 20 m/s. -/
theorem a_speed_up_over_a_boundary_is_accepted :
    ¬ ∀ (speedLimits : List (SpeedLimit ℚ)) (ms : List (IManeuver ℚ)),
      accepts speedLimits ms = true → ∀ lonMvr ∈ ms.filterMap asLongitudinal,
        Checked lonMvr → Legal speedLimits lonMvr.motion := by
  intro hall
  have hlegal := hall [⟨10, 10⟩, ⟨20, 30⟩] [ofLongitudinal (.single .speedUp ⟨0, 30, 8, 20⟩)]
    (by decide +kernel) (.single .speedUp ⟨0, 30, 8, 20⟩) List.mem_cons_self rfl
  have hspeed := hlegal.between ⟨10, 10⟩ List.mem_cons_self (by decide +kernel) (by decide +kernel)
  exact absurd hspeed (by decide +kernel)

end carma.trajectory_validator
