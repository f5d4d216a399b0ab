-- The vehicle that a follower follows: the rules of `PlatoonManager.getLeader`.
-- All predecessor following goes by the time headways between the vehicles in
-- front, and only looks at those behind the leader it had before.
import Mathlib.Algebra.Order.Ring.Rat
import Mathlib.Algebra.Field.Rat
import Mathlib.Tactic.Common
import Carma.Lib.ExactDouble
import Carma.PlatoonManager

open lib.exact_double

namespace carma.platoon_manager

/-! ## Parameters -/

/-- The parameters of `PlatooningPlugin` that the choice reads. -/
structure LeaderParameters (K : Type) where
  algorithmType : ℤ
  lowerBoundary : Dbl K
  upperBoundary : Dbl K
  maxSpacing : Dbl K
  minSpacing : Dbl K
  minGap : Dbl K
  maxGap : Dbl K
deriving DecidableEq

def APF_ALGORITHM : ℤ := 1
def PF_ALGORITHM : ℤ := 2
def LPF_ALGORITHM : ℤ := 4

/-- What the choice reads of `IManeuverInputs`. -/
structure ManeuverInputs (K : Type) where
  distanceFromRouteStart : Dbl K
  distanceToFrontVehicle : Dbl K
  currentSpeed : Dbl K
deriving DecidableEq

variable {K : Type} [Field K] [LinearOrder K]

/-! ## Time headways -/

/-- `calculateTimeHeadway`: the gap to the next vehicle over the speed of that vehicle. -/
def calculateTimeHeadway : List (Dbl K) → List (Dbl K) → List (Dbl K)
  | d :: d' :: downtrackDistance, _ :: s' :: speed =>
    (if s'.eq (.fin 0) then .inf false else (d - d') / s') ::
      calculateTimeHeadway (d' :: downtrackDistance) (s' :: speed)
  | _, _ => []

/-- `getTimeHeadwayFromIndex`. It throws when the start is outside of the array. -/
def getTimeHeadwayFromIndex (timeHeadways : List (Dbl K)) (start : ℤ) : Option (List (Dbl K)) :=
  if start < 0 ∨ timeHeadways.length < start then none
  else some (timeHeadways.drop start.toNat)

/-- The loop of the two searches, with `i` places left: the last place with a
bad value, or -1. -/
def closestFrom (bad : Dbl K → Bool) (timeHeadways : List (Dbl K)) : ℕ → ℤ
  | 0 => -1
  | i + 1 => if timeHeadways[i]?.any bad then i else closestFrom bad timeHeadways i

def closestToTheHostVehicle (bad : Dbl K → Bool) (timeHeadways : List (Dbl K)) : ℤ :=
  closestFrom bad timeHeadways timeHeadways.length

def findLowerBoundaryViolationClosestToTheHostVehicle (plugin : LeaderParameters K)
    (timeHeadways : List (Dbl K)) : ℤ :=
  closestToTheHostVehicle (fun h => h.lt plugin.lowerBoundary) timeHeadways

def findMaximumSpacingViolationClosestToTheHostVehicle (plugin : LeaderParameters K)
    (timeHeadways : List (Dbl K)) : ℤ :=
  closestToTheHostVehicle (fun h => plugin.maxSpacing.lt h) timeHeadways

def determineLeaderBasedOnViolation (plugin : LeaderParameters K) (timeHeadways : List (Dbl K)) :
    ℤ :=
  let closestLowerBoundaryViolation :=
    findLowerBoundaryViolationClosestToTheHostVehicle plugin timeHeadways
  let closestMaximumSpacingViolation :=
    findMaximumSpacingViolationClosestToTheHostVehicle plugin timeHeadways
  if closestLowerBoundaryViolation > closestMaximumSpacingViolation then
    closestLowerBoundaryViolation
  else if closestLowerBoundaryViolation < closestMaximumSpacingViolation then
    closestMaximumSpacingViolation + 1
  else 0

/-! ## All predecessor following -/

/-- Cases three to nine of `allPredecessorFollowing`, where `previous` is the
index of the leader before. It throws when that index is outside of the platoon. -/
def leaderByTimeHeadways (plugin : LeaderParameters K) (timeHeadways : List (Dbl K))
    (previous : ℤ) : Option ℤ :=
  if previous = 0 then some (determineLeaderBasedOnViolation plugin timeHeadways)
  else
    match getTimeHeadwayFromIndex timeHeadways previous with
    | none => none
    | some partialTimeHeadways =>
      let closestLowerBoundaryViolation :=
        findLowerBoundaryViolationClosestToTheHostVehicle plugin partialTimeHeadways
      let closestMaximumSpacingViolation :=
        findMaximumSpacingViolationClosestToTheHostVehicle plugin partialTimeHeadways
      if closestLowerBoundaryViolation = -1 ∧ closestMaximumSpacingViolation = -1 then
        match timeHeadways[previous.toNat]?, timeHeadways[(previous - 1).toNat]? with
        | some behind, some before =>
          let condition1 := plugin.upperBoundary.lt behind
          let condition2 := before.lt plugin.minSpacing
          if condition1 && condition2 then
            some (determineLeaderBasedOnViolation plugin timeHeadways)
          else some previous
        | _, _ => none
      else if closestLowerBoundaryViolation ≠ -1 ∧ closestMaximumSpacingViolation = -1 then
        some (previous - 1 + closestLowerBoundaryViolation)
      else if closestLowerBoundaryViolation = -1 ∧ closestMaximumSpacingViolation ≠ -1 then
        some (previous + closestMaximumSpacingViolation)
      else if closestLowerBoundaryViolation > closestMaximumSpacingViolation then
        some (previous - 1 + closestLowerBoundaryViolation)
      else if closestLowerBoundaryViolation < closestMaximumSpacingViolation then
        some (previous + closestMaximumSpacingViolation)
      else some 0

namespace PlatoonManager

/-- `insufficientGapWithPredecessor`. `predecessor` is the last member. -/
def insufficientGapWithPredecessor (m : PlatoonManager (Dbl K)) (plugin : LeaderParameters K)
    (predecessor : PlatoonMember (Dbl K)) (distanceToFrontVehicle : Dbl K) : Bool :=
  let frontGapIsTooSmall := distanceToFrontVehicle.lt plugin.minGap
  let previousLeaderIsPredecessor := decide (m.previousFunctionalLeaderID = predecessor.staticId)
  let frontGapIsNotLargeEnough :=
    distanceToFrontVehicle.lt plugin.maxGap && previousLeaderIsPredecessor
  frontGapIsTooSmall || frontGapIsNotLargeEnough

/-- The time headways of the platoon with the host at its end. -/
def timeHeadways (m : PlatoonManager (Dbl K)) (inputs : ManeuverInputs K) : List (Dbl K) :=
  calculateTimeHeadway (m.platoon.map (·.vehiclePosition) ++ [inputs.distanceFromRouteStart])
    (m.platoon.map (·.vehicleSpeed) ++ [inputs.currentSpeed])

/-- `allPredecessorFollowing`, nothing where it throws. -/
def allPredecessorFollowing (m : PlatoonManager (Dbl K)) (plugin : LeaderParameters K)
    (inputs : ManeuverInputs K) : Option ℤ :=
  if m.platoon.length = 1 then some 0
  else if m.previousFunctionalLeaderID = "" then some 0
  else
    match m.platoon.getLast? with
    | none => none
    | some predecessor =>
      -- a distance, for all that the source calls it a time
      let timeHeadwayWithPredecessor := predecessor.vehiclePosition - inputs.distanceFromRouteStart
      if m.insufficientGapWithPredecessor plugin predecessor timeHeadwayWithPredecessor then
        some (m.platoon.length - 1)
      else leaderByTimeHeadways plugin (m.timeHeadways inputs) m.previousFunctionalLeaderIndex

/-! ## The other rules -/

/-- `leaderPredecessorFollowing`, where `first` and `last` are the ends of the platoon.
The id of the leader before is not kept up to date here. -/
def leaderPredecessorFollowing (m : PlatoonManager (Dbl K)) (plugin : LeaderParameters K)
    (inputs : ManeuverInputs K) (first last : PlatoonMember (Dbl K)) :
    PlatoonMember (Dbl K) × PlatoonManager (Dbl K) :=
  let followFirst := (first, { m with previousFunctionalLeaderIndex := 0 })
  let followLast := (last, { m with previousFunctionalLeaderIndex := m.platoon.length - 1 })
  match inputs.distanceToFrontVehicle with
  | .fin currentGap =>
    let currentTimeGap := Dbl.fin currentGap / inputs.currentSpeed
    if m.previousFunctionalLeaderIndex = -1 ∨ m.previousFunctionalLeaderIndex = 0 then
      if currentTimeGap.lt plugin.lowerBoundary then followLast else followFirst
    else if plugin.upperBoundary.lt currentTimeGap then followFirst
    else followLast
  | _ => followFirst

/-- `getLeader`: the member to follow, and the manager that remembers it. -/
def getLeader (m : PlatoonManager (Dbl K)) (plugin : LeaderParameters K)
    (inputs : ManeuverInputs K) : Option (PlatoonMember (Dbl K)) × PlatoonManager (Dbl K) :=
  match m.isFollower, m.platoon.head?, m.platoon.getLast? with
  | true, some first, some last =>
    if plugin.algorithmType = APF_ALGORITHM then
      match m.allPredecessorFollowing plugin inputs with
      | none => (some last, m)
      | some newLeaderIndex =>
        match if newLeaderIndex ≥ 0 then m.platoon[newLeaderIndex.toNat]? else none with
        | some leader =>
          (some leader, { m with
            previousFunctionalLeaderIndex := newLeaderIndex
            previousFunctionalLeaderID := leader.staticId })
        | none =>
          (some last, { m with
            previousFunctionalLeaderIndex := m.platoon.length - 1
            previousFunctionalLeaderID := last.staticId })
    else if plugin.algorithmType = PF_ALGORITHM then (some last, m)
    else if plugin.algorithmType = LPF_ALGORITHM then
      let (leader, m) := m.leaderPredecessorFollowing plugin inputs first last
      (some leader, m)
    else (some first, m)
  | _, _, _ => (none, m)

end PlatoonManager

/-! ## The last bad place -/

section places

omit [Field K] [LinearOrder K]

theorem closestFrom_succ (bad : Dbl K → Bool) (timeHeadways : List (Dbl K)) (i : ℕ) :
    closestFrom bad timeHeadways (i + 1) =
      if timeHeadways[i]?.any bad then (i : ℤ) else closestFrom bad timeHeadways i := rfl

theorem closestFrom_bounds (bad : Dbl K → Bool) (timeHeadways : List (Dbl K)) (n : ℕ) :
    -1 ≤ closestFrom bad timeHeadways n ∧ closestFrom bad timeHeadways n < n := by
  induction n with
  | zero => simp [closestFrom]
  | succ i ih =>
    rw [closestFrom_succ]
    split
    · omega
    · omega

/-- Nothing is found just when nothing is bad. -/
theorem closestFrom_eq_neg_one_iff (bad : Dbl K → Bool) (timeHeadways : List (Dbl K)) (n : ℕ) :
    closestFrom bad timeHeadways n = -1 ↔ ∀ i < n, ¬ timeHeadways[i]?.any bad := by
  induction n with
  | zero => simp [closestFrom]
  | succ i ih =>
    rw [closestFrom_succ]
    split
    · rename_i hbad
      constructor
      · intro h
        omega
      · intro h
        exact absurd hbad (h i (by omega))
    · rename_i hgood
      rw [ih]
      constructor
      · intro h j hj
        rcases Nat.lt_succ_iff_lt_or_eq.mp hj with hj | rfl
        · exact h j hj
        · exact hgood
      · intro h j hj
        exact h j (by omega)

theorem closestToTheHostVehicle_eq_neg_one_iff (bad : Dbl K → Bool) (timeHeadways : List (Dbl K)) :
    closestToTheHostVehicle bad timeHeadways = -1 ↔ ∀ h ∈ timeHeadways, bad h = false := by
  unfold closestToTheHostVehicle
  rw [closestFrom_eq_neg_one_iff]
  constructor
  · intro hnone h hmem
    obtain ⟨i, hi, rfl⟩ := List.mem_iff_getElem.mp hmem
    simpa [hi] using hnone i hi
  · intro hall i hi
    simp [hi, hall _ (List.getElem_mem hi)]

/-- The search in the whole array first goes through the part from `start` on. -/
theorem closestFrom_drop (bad : Dbl K → Bool) (timeHeadways : List (Dbl K)) (start n : ℕ) :
    closestFrom bad timeHeadways (start + n) =
      if closestFrom bad (timeHeadways.drop start) n = -1 then closestFrom bad timeHeadways start
      else start + closestFrom bad (timeHeadways.drop start) n := by
  induction n with
  | zero => simp [closestFrom]
  | succ i ih =>
    rw [← Nat.add_assoc, closestFrom_succ, closestFrom_succ, List.getElem?_drop]
    split
    · rw [if_neg (by omega)]
      simp
    · exact ih

theorem closest_of_part (bad : Dbl K → Bool) (timeHeadways : List (Dbl K)) (start : ℕ)
    (h : closestToTheHostVehicle bad (timeHeadways.drop start) ≠ -1) :
    closestToTheHostVehicle bad timeHeadways =
      start + closestToTheHostVehicle bad (timeHeadways.drop start) := by
  unfold closestToTheHostVehicle at h ⊢
  have hpart := closestFrom_bounds bad (timeHeadways.drop start) (timeHeadways.drop start).length
  have hlength : timeHeadways.length = start + (timeHeadways.drop start).length := by
    have := List.length_drop (i := start) (l := timeHeadways)
    omega
  rw [hlength, closestFrom_drop, if_neg h]

theorem closest_before_part (bad : Dbl K → Bool) {timeHeadways : List (Dbl K)} {start : ℕ}
    (hstart : start ≤ timeHeadways.length)
    (h : closestToTheHostVehicle bad (timeHeadways.drop start) = -1) :
    closestToTheHostVehicle bad timeHeadways < start := by
  unfold closestToTheHostVehicle at h ⊢
  have hlength : timeHeadways.length = start + (timeHeadways.drop start).length := by
    rw [List.length_drop]
    omega
  rw [hlength, closestFrom_drop, if_pos h]
  exact (closestFrom_bounds bad timeHeadways start).2

theorem closestToTheHostVehicle_ge (bad : Dbl K → Bool) (timeHeadways : List (Dbl K)) :
    -1 ≤ closestToTheHostVehicle bad timeHeadways :=
  (closestFrom_bounds bad timeHeadways _).1

end places

/-! ## The part against the whole -/

/-- There is a violation behind the leader with index `previous`. -/
def FindsViolation (plugin : LeaderParameters K) (timeHeadways : List (Dbl K)) (previous : ℤ) :
    Prop :=
  0 ≤ previous ∧ ∃ h ∈ timeHeadways.drop previous.toNat,
    h.lt plugin.lowerBoundary = true ∨ plugin.maxSpacing.lt h = true

/-- The leader is at or behind the one before, and it is the one that the rule
for the whole array gives. -/
def FollowsRule (plugin : LeaderParameters K) (timeHeadways : List (Dbl K)) (previous : ℤ)
    (leader : Option ℤ) : Prop :=
  ∃ newLeaderIndex, leader = some newLeaderIndex ∧ previous ≤ newLeaderIndex ∧
    newLeaderIndex = determineLeaderBasedOnViolation plugin timeHeadways

omit [Field K] in
theorem determineLeader_nonneg (plugin : LeaderParameters K) (timeHeadways : List (Dbl K)) :
    0 ≤ determineLeaderBasedOnViolation plugin timeHeadways := by
  have hlow := closestToTheHostVehicle_ge (fun h => h.lt plugin.lowerBoundary) timeHeadways
  have hmax := closestToTheHostVehicle_ge (fun h => plugin.maxSpacing.lt h) timeHeadways
  unfold determineLeaderBasedOnViolation findLowerBoundaryViolationClosestToTheHostVehicle
    findMaximumSpacingViolationClosestToTheHostVehicle
  dsimp only
  split
  · omega
  · split
    · omega
    · omega

omit [Field K] in
/-- A leader other than the first one with a violation behind it is never
replaced by the one that the rule gives. -/
theorem part_breaks_the_rule {plugin : LeaderParameters K} {timeHeadways : List (Dbl K)}
    {previous : ℤ} (hviolation : FindsViolation plugin timeHeadways previous)
    (hprevious : previous ≠ 0) :
    ¬ FollowsRule plugin timeHeadways previous
      (leaderByTimeHeadways plugin timeHeadways previous) := by
  obtain ⟨hnonneg, h, hmem, hbad⟩ := hviolation
  obtain ⟨start, rfl⟩ := Int.eq_ofNat_of_zero_le hnonneg
  rw [Int.toNat_natCast] at hmem
  have hstart : start ≤ timeHeadways.length := by
    have := List.length_pos_of_mem hmem
    rw [List.length_drop] at this
    omega
  rintro ⟨newLeaderIndex, hleader, hbehind, hrule⟩
  -- a violation of either kind is found in the part
  have hfound : ¬ (findLowerBoundaryViolationClosestToTheHostVehicle plugin
        (timeHeadways.drop start) = -1 ∧
      findMaximumSpacingViolationClosestToTheHostVehicle plugin (timeHeadways.drop start) = -1) := by
    rintro ⟨hlow, hmax⟩
    have hlow' := (closestToTheHostVehicle_eq_neg_one_iff _ _).mp hlow h hmem
    have hmax' := (closestToTheHostVehicle_eq_neg_one_iff _ _).mp hmax h hmem
    simp_all
  have hpart : getTimeHeadwayFromIndex timeHeadways start = some (timeHeadways.drop start) := by
    unfold getTimeHeadwayFromIndex
    rw [if_neg (by omega), Int.toNat_natCast]
  unfold leaderByTimeHeadways at hleader
  rw [if_neg hprevious, hpart] at hleader
  dsimp only at hleader
  rw [if_neg hfound] at hleader
  unfold determineLeaderBasedOnViolation at hrule
  dsimp only at hrule
  unfold findLowerBoundaryViolationClosestToTheHostVehicle
    findMaximumSpacingViolationClosestToTheHostVehicle at hleader hrule hfound
  have hlow := closest_of_part (fun h => h.lt plugin.lowerBoundary) timeHeadways start
  have hmax := closest_of_part (fun h => plugin.maxSpacing.lt h) timeHeadways start
  have hlow' := closest_before_part (fun h => h.lt plugin.lowerBoundary) hstart
  have hmax' := closest_before_part (fun h => plugin.maxSpacing.lt h) hstart
  have hlowGe := closestToTheHostVehicle_ge (fun h => h.lt plugin.lowerBoundary)
    (timeHeadways.drop start)
  have hmaxGe := closestToTheHostVehicle_ge (fun h => plugin.maxSpacing.lt h)
    (timeHeadways.drop start)
  split_ifs at hleader hrule <;> simp only [Option.some.injEq] at hleader <;> omega

namespace PlatoonManager

/-- The time headways that `allPredecessorFollowing` looks at: none in its first three cases. -/
def checkedHeadways (m : PlatoonManager (Dbl K)) (plugin : LeaderParameters K)
    (inputs : ManeuverInputs K) : Option (List (Dbl K)) :=
  if m.platoon.length = 1 ∨ m.previousFunctionalLeaderID = "" then none
  else
    match m.platoon.getLast? with
    | none => none
    | some predecessor =>
      if m.insufficientGapWithPredecessor plugin predecessor
        (predecessor.vehiclePosition - inputs.distanceFromRouteStart) then none
      else some (m.timeHeadways inputs)

theorem allPredecessorFollowing_of_checked {m : PlatoonManager (Dbl K)}
    {plugin : LeaderParameters K} {inputs : ManeuverInputs K} {timeHeadways : List (Dbl K)}
    (h : m.checkedHeadways plugin inputs = some timeHeadways) :
    m.allPredecessorFollowing plugin inputs =
      leaderByTimeHeadways plugin timeHeadways m.previousFunctionalLeaderIndex := by
  unfold checkedHeadways at h
  unfold allPredecessorFollowing
  split at h
  · cases h
  · rename_i hcases
    rw [not_or] at hcases
    rw [if_neg hcases.1, if_neg hcases.2]
    split at h
    · cases h
    · rename_i predecessor hlast
      split at h
      · cases h
      · rename_i hgap
        cases h
        exact if_neg hgap

/-- Where there is a violation behind the leader before, the new leader is the
one that the rule for the whole array gives, just when the leader before was
the first vehicle. -/
theorem new_leader_follows_the_rule_exactly (m : PlatoonManager (Dbl K))
    (plugin : LeaderParameters K) (inputs : ManeuverInputs K) :
    (∀ timeHeadways, m.checkedHeadways plugin inputs = some timeHeadways →
      FindsViolation plugin timeHeadways m.previousFunctionalLeaderIndex →
      FollowsRule plugin timeHeadways m.previousFunctionalLeaderIndex
        (m.allPredecessorFollowing plugin inputs)) ↔
    ∀ timeHeadways, m.checkedHeadways plugin inputs = some timeHeadways →
      FindsViolation plugin timeHeadways m.previousFunctionalLeaderIndex →
      m.previousFunctionalLeaderIndex = 0 := by
  constructor
  · intro hrule timeHeadways hchecked hviolation
    have hfollows := hrule timeHeadways hchecked hviolation
    rw [allPredecessorFollowing_of_checked hchecked] at hfollows
    by_contra hprevious
    exact part_breaks_the_rule hviolation hprevious hfollows
  · intro hfirst timeHeadways hchecked hviolation
    have hprevious := hfirst timeHeadways hchecked hviolation
    rw [allPredecessorFollowing_of_checked hchecked, hprevious]
    refine ⟨determineLeaderBasedOnViolation plugin timeHeadways, ?_, ?_, rfl⟩
    · unfold leaderByTimeHeadways
      rw [if_pos rfl]
    · exact determineLeader_nonneg plugin timeHeadways

end PlatoonManager

/-! ## A short gap right behind the leader -/

/-- The parameters of the launch file. -/
def launchParameters : LeaderParameters ℚ where
  algorithmType := APF_ALGORITHM
  lowerBoundary := .fin (mkRat 4 10)
  upperBoundary := .fin (mkRat 7 10)
  maxSpacing := .fin (Rat.ofInt 4)
  minSpacing := .fin (Rat.ofInt 3)
  minGap := .fin (Rat.ofInt 10)
  maxGap := .fin (Rat.ofInt 14)

/-- A vehicle at a speed of 10. -/
def steadyMember (staticId : String) (position : ℤ) : PlatoonMember (Dbl ℚ) where
  staticId := staticId
  bsmId := "00000000"
  commandSpeed := .fin (Rat.ofInt 10)
  vehicleSpeed := .fin (Rat.ofInt 10)
  vehiclePosition := .fin (Rat.ofInt position)
  timestamp := 0

/-- A follower behind three vehicles, the last of them 3 metres behind the
leader of the follower. -/
def crowdedFollower : PlatoonManager (Dbl ℚ) where
  hostMobilityId := "HOST"
  leaderID := "FIRST"
  currentPlatoonID := "A"
  isFollower := true
  platoonSize := 4
  previousFunctionalLeaderID := "SECOND"
  previousFunctionalLeaderIndex := 1
  memberInfoTimeout := 5000
  platoon := [steadyMember "FIRST" 200, steadyMember "SECOND" 170, steadyMember "THIRD" 167]

def crowdedInputs : ManeuverInputs ℚ where
  distanceFromRouteStart := .fin (Rat.ofInt 137)
  distanceToFrontVehicle := .fin (Rat.ofInt 30)
  currentSpeed := .fin (Rat.ofInt 10)

/-- With the short gap right behind its leader the follower goes over to the
vehicle in front of that leader. -/
theorem a_short_gap_moves_the_leader_ahead :
    ¬ ∀ (m : PlatoonManager (Dbl ℚ)) (plugin : LeaderParameters ℚ) (inputs : ManeuverInputs ℚ)
        (timeHeadways : List (Dbl ℚ)), m.checkedHeadways plugin inputs = some timeHeadways →
      FindsViolation plugin timeHeadways m.previousFunctionalLeaderIndex →
      FollowsRule plugin timeHeadways m.previousFunctionalLeaderIndex
        (m.allPredecessorFollowing plugin inputs) := by
  intro hrule
  have hchecked : crowdedFollower.checkedHeadways launchParameters crowdedInputs =
      some [.fin (Rat.ofInt 3), .fin (mkRat 3 10), .fin (Rat.ofInt 3)] := by decide +kernel
  have hviolation : FindsViolation launchParameters
      [.fin (Rat.ofInt 3), .fin (mkRat 3 10), .fin (Rat.ofInt 3)]
      crowdedFollower.previousFunctionalLeaderIndex := by
    refine ⟨by decide, .fin (mkRat 3 10), ?_, Or.inl ?_⟩
    · exact List.mem_cons_self
    · decide +kernel
  obtain ⟨newLeaderIndex, hleader, hbehind, -⟩ := hrule _ _ _ _ hchecked hviolation
  have hahead : crowdedFollower.allPredecessorFollowing launchParameters crowdedInputs = some 0 := by
    decide +kernel
  rw [hahead, Option.some.injEq] at hleader
  rw [← hleader] at hbehind
  exact absurd hbehind (by decide)

end carma.platoon_manager
