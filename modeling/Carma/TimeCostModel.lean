-- `TimeCostModel.java`: the cost of a coarse plan is its travel time, and the heuristic is the
-- time to the goal at the speed limit less a tenth of a second. A goal is reached 1 m before it
-- already, so the tenth is enough just where 1 m takes no longer than that.
import Carma.AStarOptimality
import Carma.CoarsePathLaws

open lib.exact_double
open carma.ead.EadIntersectionManager (maxValue)

namespace carma.trajectory_tree

/-- A long that is the result of an addition, which wraps around. -/
def wrapLong (x : ℤ) : ℤ := x.bmod (2 ^ 64)

theorem wrapLong_of_fits {x : ℤ} (hlow : -2 ^ 63 ≤ x) (hhigh : x < 2 ^ 63) : wrapLong x = x := by
  unfold wrapLong
  rw [Int.bmod_eq_of_le]
  · omega
  · omega

/-- The numbers of the node are longs. -/
structure Node.InLongs (n : Node) : Prop where
  distance : -2 ^ 63 ≤ n.distance ∧ n.distance < 2 ^ 63
  time : -2 ^ 63 ≤ n.time ∧ n.time < 2 ^ 63
  speed : -2 ^ 63 ≤ n.speed ∧ n.speed < 2 ^ 63

/-- The check of a hop that all cost models of the planner make. -/
def invalidHop (n1 n2 : Node) : Bool :=
  n2.time ≤ n1.time || n2.distance < n1.distance || n1.speed < 0 || n2.speed < 0

structure TimeCostModel (K : Type) where
  goal : Node
  tolerances : Node
  speedLimit : K

namespace TimeCostModel

variable {K : Type} [Field K] [LinearOrder K]

def new (speedLimit _maxAccel : K) : TimeCostModel K := ⟨⟨0, 0, 0⟩, ⟨0, 0, 0⟩, speedLimit⟩

def setTolerances (m : TimeCostModel K) (tolerances : Node) : TimeCostModel K := { m with tolerances }

def setGoal (m : TimeCostModel K) (goal : Node) : TimeCostModel K := { m with goal }

def cost (n1 n2 : Node) : Dbl K :=
  if invalidHop n1 n2 then .fin maxValue
  else .fin (n2.time : K) - .fin (n1.time : K)

def heuristic (m : TimeCostModel K) (currentNode : Node) : Dbl K :=
  if m.goal.distance ≤ currentNode.distance then .fin 0
  else
    let travelTime :=
      (.fin (m.goal.distance : K) - .fin (currentNode.distance : K)) / .fin m.speedLimit
    travelTime - .fin (1 / (10 : ℕ))

/-- `isGoal`. The time is not compared. -/
def isGoal (m : TimeCostModel K) (n : Node) : Bool :=
  wrapLong (m.goal.distance - m.tolerances.distance) ≤ n.distance &&
    wrapLong (m.goal.speed - m.tolerances.speed) ≤ n.speed &&
    n.speed ≤ wrapLong (m.goal.speed + m.tolerances.speed)

def isUnusable (m : TimeCostModel K) (n : Node) : Bool :=
  wrapLong (m.goal.distance + wrapLong (3 * m.tolerances.distance)) < n.distance

/-- What the solver is given. -/
def toCostModel (m : TimeCostModel K) : ICostModel Node (Dbl K) where
  cost := cost
  heuristic := m.heuristic
  isGoal := m.isGoal
  isUnusable := m.isUnusable

def forCoarsePath [FloorRing K] (m : TimeCostModel K) (coarseGoal : Node)
    (coarseTimeInc coarseSpeedInc : K) : TimeCostModel K :=
  (m.setGoal coarseGoal).setTolerances (.ofDoubles (.fin 1)
    (.fin ((51 : ℕ) / (100 : ℕ) * coarseTimeInc)) (.fin ((51 : ℕ) / (100 : ℕ) * coarseSpeedInc)))

/-! ## What is asked of the heuristic -/

/-- The hop covers no more than the speed limit allows in its time. -/
def Allowed (m : TimeCostModel K) (a b : Node) : Prop :=
  ((b.distance - a.distance : ℤ) : K) ≤ m.speedLimit * ((b.time - a.time : ℤ) : K)

/-- On no allowed way to a goal the heuristic at the start is more than the cost of the way. -/
def NeverOverestimates (m : TimeCostModel K) : Prop :=
  ∀ first rest last, (∀ n ∈ first :: rest, Node.InLongs n) → (first :: rest).IsChain m.Allowed →
    (first :: rest).getLast? = some last → m.isGoal last = true →
    (m.heuristic first).le (pathCost m.toCostModel (first :: rest)) = true

/-- No node 1 m before the goal is taken for it: the speeds that are let through are none, or the
distance has no long before it. -/
def NoneBefore (m : TimeCostModel K) : Prop :=
  ∀ n, Node.InLongs n → n.distance = m.goal.distance - 1 → m.isGoal n = false

/-! ## The laws -/

section laws

variable {m : TimeCostModel K} [IsStrictOrderedRing K]

omit [LinearOrder K] [IsStrictOrderedRing K] in
theorem cost_eq (a b : Node) :
    cost a b = (.fin maxValue : Dbl K) ∨
      a.time < b.time ∧ cost a b = (.fin ((b.time - a.time : ℤ) : K) : Dbl K) := by
  unfold cost
  split
  · exact Or.inl rfl
  · rename_i hvalid
    refine Or.inr ⟨?_, ?_⟩
    · unfold invalidHop at hvalid
      simp only [Bool.or_eq_true, decide_eq_true_eq] at hvalid
      omega
    · rw [Dbl.fin_sub]
      push_cast
      rfl

theorem maxValue_ge : (2 ^ 64 : K) ≤ maxValue := by
  unfold maxValue
  have hnat : (2 ^ 64 : ℕ) ≤ 2 ^ 1024 - 2 ^ 971 := by decide +kernel
  exact_mod_cast hnat

/-- An allowed way costs what its hops take, or the largest double where one of them is refused. -/
theorem pathCost_allowed {first : Node} {rest : List Node} {last : Node}
    (hchain : (first :: rest).IsChain m.Allowed)
    (hlast : (first :: rest).getLast? = some last) :
    ∃ x : K, pathCost m.toCostModel (first :: rest) = .fin x ∧ 0 ≤ x ∧
      (maxValue ≤ x ∨ ((last.distance - first.distance : ℤ) : K) ≤ m.speedLimit * x) := by
  induction rest generalizing first with
  | nil =>
    obtain rfl : first = last := Option.some.inj hlast
    refine ⟨0, rfl, le_rfl, Or.inr ?_⟩
    rw [sub_self, Int.cast_zero, mul_zero]
  | cons b rest ih =>
    rw [List.isChain_cons_cons] at hchain
    rw [List.getLast?_cons_cons] at hlast
    obtain ⟨x, hx, hpos, hlong⟩ := ih hchain.2 hlast
    have hmax : (0 : K) ≤ maxValue := le_trans (by positivity) maxValue_ge
    have hstep : pathCost m.toCostModel (first :: b :: rest) =
        cost first b + pathCost m.toCostModel (b :: rest) := rfl
    rcases cost_eq (K := K) first b with hcost | ⟨htime, hcost⟩
    · refine ⟨maxValue + x, ?_, add_nonneg hmax hpos, Or.inl (le_add_of_nonneg_right hpos)⟩
      rw [hstep, hcost, hx, Dbl.fin_add]
    · have hdur : (0 : K) < ((b.time - first.time : ℤ) : K) := by
        exact_mod_cast sub_pos.mpr htime
      refine ⟨((b.time - first.time : ℤ) : K) + x, ?_, add_nonneg hdur.le hpos, ?_⟩
      · rw [hstep, hcost, hx, Dbl.fin_add]
      · rcases hlong with hlong | hlong
        · exact Or.inl (hlong.trans (le_add_of_nonneg_left hdur.le))
        · have hhop := hchain.1
          unfold Allowed at hhop
          refine Or.inr ?_
          rw [mul_add]
          push_cast at hhop hlong ⊢
          linarith

omit [IsStrictOrderedRing K] in
theorem heuristic_before (hspeed : 0 < m.speedLimit) {n : Node}
    (h : n.distance < m.goal.distance) :
    m.heuristic n =
      .fin (((m.goal.distance - n.distance : ℤ) : K) / m.speedLimit - 1 / 10) := by
  unfold heuristic
  rw [if_neg (not_le.mpr h), Dbl.fin_sub, Dbl.fin_div _ hspeed.ne', Dbl.fin_sub]
  push_cast
  rfl

omit [Field K] [LinearOrder K] [IsStrictOrderedRing K] in
theorem near_of_isGoal (htolerance : m.tolerances.distance = 1) (hgoal : m.goal.InLongs)
    (hroom : -2 ^ 63 < m.goal.distance) {n : Node} (h : m.isGoal n = true) :
    m.goal.distance - 1 ≤ n.distance := by
  have hhigh := hgoal.distance.2
  unfold isGoal at h
  rw [htolerance, wrapLong_of_fits (by omega) (by omega)] at h
  simp only [Bool.and_eq_true, decide_eq_true_eq] at h
  exact h.1.1

omit [Field K] [LinearOrder K] [IsStrictOrderedRing K] in
theorem isGoal_before (htolerance : m.tolerances.distance = 1) (hgoal : m.goal.InLongs)
    (hroom : -2 ^ 63 < m.goal.distance) {n : Node} (h : m.isGoal n = true) :
    m.isGoal ⟨m.goal.distance - 1, n.time, n.speed⟩ = true := by
  have hhigh := hgoal.distance.2
  unfold isGoal at h ⊢
  rw [htolerance, wrapLong_of_fits (by omega) (by omega)] at h ⊢
  simp only [Bool.and_eq_true, decide_eq_true_eq] at h ⊢
  exact ⟨⟨le_rfl, h.1.2⟩, h.2⟩

omit [IsStrictOrderedRing K] in
theorem heuristic_le_iff (hspeed : 0 < m.speedLimit) {n : Node} {x : K}
    (h : n.distance < m.goal.distance) :
    (m.heuristic n).le (.fin x) = true ↔
      ((m.goal.distance - n.distance : ℤ) : K) / m.speedLimit - 1 / 10 ≤ x := by
  rw [heuristic_before hspeed h, Dbl.le_fin, decide_eq_true_eq]

/-- Where a slow vehicle can be 1 m before the goal at a goal, too much is asked for there. -/
theorem fast_of_neverOverestimates (hspeed : 0 < m.speedLimit) (hnever : m.NeverOverestimates) :
    10 ≤ m.speedLimit ∨ m.NoneBefore := by
  by_contra hcond
  rw [not_or, not_le] at hcond
  obtain ⟨hslow, hbefore⟩ := hcond
  unfold NoneBefore at hbefore
  push Not at hbefore
  obtain ⟨n, hlongs, hdist, hn⟩ := hbefore
  replace hn := eq_true_of_ne_false hn
  -- the node itself is a goal, so nothing is left to pay there
  have hzero : (m.heuristic n).le (.fin 0) = true :=
    hnever n [] n (by simpa using hlongs) (.singleton n) rfl hn
  rw [heuristic_le_iff hspeed (by omega)] at hzero
  have hmeter : ((m.goal.distance - n.distance : ℤ) : K) = 1 := by
    rw [hdist, sub_sub_cancel, Int.cast_one]
  rw [hmeter, sub_nonpos, div_le_div_iff₀ hspeed (by norm_num)] at hzero
  linarith

/-- A fast vehicle gains 1 m in the tenth of a second. A refused hop is dearer than any way that
longs have room for. -/
theorem heuristic_le_of_fast (hten : 10 ≤ m.speedLimit) {first last : Node} {x : K}
    (hfirst : first.InLongs) (hgoal : m.goal.InLongs) (hbefore : first.distance < m.goal.distance)
    (hnear : m.goal.distance - 1 ≤ last.distance) (hpos : 0 ≤ x)
    (hlong : maxValue ≤ x ∨ ((last.distance - first.distance : ℤ) : K) ≤ m.speedLimit * x) :
    (m.heuristic first).le (.fin x) = true := by
  have hspeed : 0 < m.speedLimit := by linarith
  rw [heuristic_le_iff hspeed hbefore, sub_le_iff_le_add, div_le_iff₀ hspeed]
  rcases hlong with hmax | hway
  · have hroom : ((m.goal.distance - first.distance : ℤ) : K) ≤ 2 ^ 64 := by
      have hlow := hfirst.distance.1
      have hhigh := hgoal.distance.2
      exact_mod_cast (by omega : m.goal.distance - first.distance ≤ 2 ^ 64)
    have hx64 : (2 ^ 64 : K) ≤ x := maxValue_ge.trans hmax
    have hprod : x * 1 ≤ x * m.speedLimit :=
      mul_le_mul_of_nonneg_left (by linarith) hpos
    linarith
  · have hshort : ((m.goal.distance - first.distance : ℤ) : K) ≤
        ((last.distance - first.distance : ℤ) : K) + 1 := by
      exact_mod_cast (by omega :
        m.goal.distance - first.distance ≤ last.distance - first.distance + 1)
    linarith

theorem neverOverestimates_of (htolerance : m.tolerances.distance = 1) (hgoal : m.goal.InLongs)
    (hcond : 10 ≤ m.speedLimit ∨ m.NoneBefore) : m.NeverOverestimates := by
  intro first rest last hlongs hchain hlast hlastgoal
  obtain ⟨x, hx, hpos, hlong⟩ := pathCost_allowed hchain hlast
  have hfirst := hlongs first List.mem_cons_self
  rw [hx]
  rcases le_or_gt m.goal.distance first.distance with hpast | hbefore
  · unfold heuristic
    rw [if_pos hpast]
    exact decide_eq_true hpos
  · have hroom := hfirst.distance.1.trans_lt hbefore
    rcases hcond with hten | hnone
    · exact heuristic_le_of_fast hten hfirst hgoal hbefore
        (near_of_isGoal htolerance hgoal hroom hlastgoal) hpos hlong
    · have hlast' := hlongs last (List.mem_of_getLast? hlast)
      have hhigh := hgoal.distance.2
      have hnot := hnone ⟨m.goal.distance - 1, last.time, last.speed⟩
        ⟨⟨by dsimp only; omega, by dsimp only; omega⟩, hlast'.time, hlast'.speed⟩ rfl
      rw [isGoal_before htolerance hgoal hroom hlastgoal] at hnot
      cases hnot

variable [FloorRing K]

theorem forCoarsePath_tolerance (m : TimeCostModel K) (coarseGoal : Node)
    (coarseTimeInc coarseSpeedInc : K) :
    (m.forCoarsePath coarseGoal coarseTimeInc coarseSpeedInc).tolerances.distance = 1 := by
  have hone := CoarsePathNeighbors.mathRound_intCast (K := K) 1
  rwa [Int.cast_one] at hone

/-- The heuristic of a coarse plan never overestimates just when 1 m takes at most a tenth of a
second at the speed limit, or no node 1 m before the goal is taken for it. -/
theorem heuristic_never_overestimates_iff {speedLimit : K} (hspeed : 0 < speedLimit) (maxAccel : K)
    {coarseGoal : Node} (hgoal : coarseGoal.InLongs) (coarseTimeInc coarseSpeedInc : K) :
    ((new speedLimit maxAccel).forCoarsePath coarseGoal coarseTimeInc
        coarseSpeedInc).NeverOverestimates ↔
      10 ≤ speedLimit ∨ ((new speedLimit maxAccel).forCoarsePath coarseGoal coarseTimeInc
        coarseSpeedInc).NoneBefore := by
  have htolerance := forCoarsePath_tolerance (new speedLimit maxAccel) coarseGoal coarseTimeInc
    coarseSpeedInc
  constructor
  · exact fast_of_neverOverestimates hspeed
  · exact neverOverestimates_of htolerance hgoal

/-- At 12 m/s. -/
theorem heuristic_never_overestimates_at_twelve :
    ((new (12 : ℚ) 2).forCoarsePath ⟨220, 22, 10⟩ 5 3).NeverOverestimates :=
  (heuristic_never_overestimates_iff (by decide) 2 (by constructor <;> decide) 5 3).mpr
    (Or.inl (by decide))

end laws

/-- At 5 m/s a hop of 5 m in a second to 1 m before the goal: 1.1 s are asked for. -/
theorem a_goal_in_reach_is_overestimated :
    ¬ ((new (5 : ℚ) 2).forCoarsePath ⟨100, 20, 5⟩ 5 3).NeverOverestimates := by
  intro h
  have hlongs : ∀ n ∈ [(⟨94, 0, 5⟩ : Node), ⟨99, 1, 5⟩], n.InLongs := by
    simp only [List.forall_mem_cons]
    exact ⟨⟨by decide, by decide, by decide⟩, ⟨by decide, by decide, by decide⟩, nofun⟩
  have hhop := h ⟨94, 0, 5⟩ [⟨99, 1, 5⟩] ⟨99, 1, 5⟩ hlongs
    (List.isChain_cons_cons.mpr ⟨by unfold Allowed; decide +kernel, .singleton _⟩) rfl
    (by decide +kernel)
  revert hhop
  decide +kernel

end TimeCostModel

end carma.trajectory_tree
