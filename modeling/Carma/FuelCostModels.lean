-- `FuelCostModel.java` and `MovesFuelCostModel.java`, and `EadAStar.planDetailedPath` with them: a
-- fine plan of the least fuel. Both price what is left of a way as one hop to the goal itself, and
-- a hop that takes no time is refused at the price of the largest double. So at the goal, and at
-- every node that is taken for it at its time or later, far more is asked for than is left to pay.
import Carma.TimeCostModel

open lib.exact_double
open carma.ead.EadIntersectionManager (maxValue)

namespace carma.trajectory_tree

variable {K : Type} [Field K] [LinearOrder K]

/-! ## The energy of a hop -/

/-- The cost of a hop of some energy, if it is one. -/
def checkedCost (n1 n2 : Node) (energy : K) : Dbl K :=
  if invalidHop n1 n2 then .fin maxValue else .fin energy

structure FuelCostModel (K : Type) where
  mass : K
  rollRes : K
  dragCoef : K
  area : K
  airDensity : K
  idleCost : K
  useIdleMin : Bool

namespace FuelCostModel

/-- The coefficient of the rolling resistance, if it is not supplied: at 2 bar. -/
def coefRollingRes (m : FuelCostModel K) (avgSpeed : K) : K :=
  if 0 < m.rollRes then m.rollRes
  else
    let kmhr := avgSpeed * ((36 : ℕ) / (10 : ℕ))
    (5 : ℕ) / (1000 : ℕ) + 1 / (2 : ℕ) *
      ((1 : ℕ) / (100 : ℕ) + (95 : ℕ) / (10000 : ℕ) * (kmhr * kmhr / (10000 : ℕ)))

/-- The energy of a valid hop. -/
def energy (m : FuelCostModel K) (n1 n2 : Node) : K :=
  let avgSpeed : K := 1 / (2 : ℕ) * ((n1.speed : K) + (n2.speed : K))
  let length : K := (n2.distance : K) - (n1.distance : K)
  let duration : K := (n2.time : K) - (n1.time : K)
  let forceRollingRes := (981 : ℕ) / (100 : ℕ) * m.mass * m.coefRollingRes avgSpeed
  let forceDrag := 1 / (2 : ℕ) * m.dragCoef * m.airDensity * m.area * avgSpeed * avgSpeed
  let forceGrade : K := 0
  let accel := ((n2.speed : K) - (n1.speed : K)) / duration
  let forceInertia := if 0 < accel then m.mass * accel else 0
  let work := (forceRollingRes + forceDrag + forceGrade + forceInertia) * length
  let idleEnergy := m.idleCost * duration
  if m.useIdleMin then max work idleEnergy
  else if avgSpeed < 1 / (2 : ℕ) then idleEnergy
  else work

def cost (m : FuelCostModel K) (n1 n2 : Node) : Dbl K := checkedCost n1 n2 (m.energy n1 n2)

end FuelCostModel

/-- The operating modes that a table of energies must have a row for. -/
def operatingModes : List ℤ :=
  [0, 1, 11, 12, 13, 14, 15, 16, 21, 22, 23, 24, 25, 27, 28, 29, 30, 33, 35, 37, 38, 39, 40]

/-- A table of energies as it is loaded: a row of six numbers for each mode. Where a mode has no
row, `cost` throws, so the table has one for each. -/
structure BaseRateTable (K : Type) where
  rows : List (ℤ × List K)
  complete : ∀ mode ∈ operatingModes, ∃ row, rows.lookup mode = some row ∧ row.length = 6

/-- `BASE_RATE_ENERGY_COL` of a row. -/
def energyOf (row : List K) : K := row.getD 4 0

structure MovesFuelCostModel (K : Type) where
  rollingTermA : K
  rotatingTermB : K
  dragTermC : K
  vehicleMassInTons : K
  fixedMassFactor : K
  baseRateTable : BaseRateTable K

namespace MovesFuelCostModel

def getModeConditional (vsp : Dbl K) (velocity acceleration : K) : ℤ :=
  let below (bound : ℕ) : Bool := vsp.lt (.fin (bound : K))
  let fiftyMph : K := (22352 : ℕ) / (1000 : ℕ)
  let twentyFiveMph : K := (11176 : ℕ) / (1000 : ℕ)
  let oneMph : K := (44704 : ℕ) / (100000 : ℕ)
  if acceleration ≤ -1 then 0
  else if fiftyMph ≤ velocity then
    if below 6 then 33 else if below 12 then 35 else if below 18 then 37
    else if below 24 then 38 else if below 30 then 39 else 40
  else if -oneMph ≤ velocity ∧ velocity < oneMph then 1
  else if twentyFiveMph ≤ velocity then
    if below 0 then 21 else if below 3 then 22 else if below 6 then 23 else if below 9 then 24
    else if below 12 then 25 else if below 18 then 27 else if below 24 then 28
    else if below 30 then 29 else 30
  else if 0 ≤ velocity then
    if below 0 then 11 else if below 3 then 12 else if below 6 then 13 else if below 9 then 14
    else if below 12 then 15 else 16
  else -1

/-- `DEFAULT_PEAK_ENERGY_KJ`. -/
def peakEnergy (m : MovesFuelCostModel K) : K :=
  m.baseRateTable.rows.foldl (fun top row => if top < energyOf row.2 then energyOf row.2 else top) 0

/-- The specific power of the vehicle at the end of a hop, on a flat road. -/
def specificPower (m : MovesFuelCostModel K) (v a : K) : Dbl K :=
  .fin (m.rollingTermA * v + m.rotatingTermB * (v * v) + m.dragTermC * (v * v) * v +
    m.vehicleMassInTons * v * (a + (98 : ℕ) / (10 : ℕ) * 0)) / .fin m.fixedMassFactor

/-- The energy of a valid hop. -/
def energy (m : MovesFuelCostModel K) (n1 n2 : Node) : K :=
  let v : K := (n2.speed : K)
  let dt : K := (n2.time : K) - (n1.time : K)
  let a := (v - (n1.speed : K)) / dt
  let opMode := getModeConditional (m.specificPower v a) v a
  let rate :=
    if opMode = -1 then m.peakEnergy else energyOf ((m.baseRateTable.rows.lookup opMode).getD [])
  (1000 : ℕ) * (rate / (3600 : ℕ) * dt)

def cost (m : MovesFuelCostModel K) (n1 n2 : Node) : Dbl K := checkedCost n1 n2 (m.energy n1 n2)

end MovesFuelCostModel

/-- The cost models that `getCostModel` knows. -/
inductive FuelModel (K : Type)
  | default (m : FuelCostModel K)
  | moves2010 (m : MovesFuelCostModel K)

def FuelModel.cost : FuelModel K → Node → Node → Dbl K
  | default m => m.cost
  | moves2010 m => m.cost

/-! ## The goal -/

/-- `Math.abs` of a difference of longs. -/
def longDistance (x y : ℤ) : ℤ := wrapLong |wrapLong (x - y)|

/-- Past the place or the time of the goal, by more than the tolerance. -/
def isPast (goal tolerances n : Node) : Bool :=
  wrapLong (goal.distance + tolerances.distance) < n.distance ||
    wrapLong (goal.time + tolerances.time) < n.time

/-- What both fuel cost models are once their goal and tolerances are set, as they are before each
search. -/
def goalCosts (cost : Node → Node → Dbl K) (goal tolerances : Node) : ICostModel Node (Dbl K) where
  cost := cost
  heuristic n := if isPast goal tolerances n then .inf false else cost n goal
  isGoal n :=
    longDistance n.distance goal.distance ≤ tolerances.distance &&
      longDistance n.time goal.time ≤ tolerances.time &&
      longDistance n.speed goal.speed ≤ tolerances.speed
  isUnusable n := isPast goal tolerances n

/-- What the search for a fine plan is set up with. -/
structure FinePlan (K : Type) where
  fuelCostModel : FuelModel K
  fineTimeInc : K
  fineSpeedInc : K
  neighbors : Node → List Node

namespace FinePlan

variable [FloorRing K]

/-- The tolerances that `planDetailedPath` sets. -/
def tolerances (p : FinePlan K) : Node :=
  .ofDoubles (.fin ((51 : ℕ) / (100 : ℕ) * p.fineSpeedInc * p.fineTimeInc)) (.fin p.fineTimeInc)
    (.fin ((51 : ℕ) / (100 : ℕ) * p.fineSpeedInc))

def costs (p : FinePlan K) (goal : Node) : ICostModel Node (Dbl K) :=
  goalCosts p.fuelCostModel.cost goal p.tolerances

/-- `planDetailedPath`, with a bound on the rounds of the search: none where the bound is too low,
and where it throws for want of a path. -/
def planDetailedPath (p : FinePlan K) (start goal : Node) (steps : ℕ) : Option (List Node) :=
  (solve (p.costs goal) p.neighbors start steps).filter fun path => path ≠ []

/-- A way over neighbors to a node that is taken for the goal. -/
structure LeadsToGoal (p : FinePlan K) (start goal : Node) (path : List Node) : Prop where
  starts : path.head? = some start
  edges : path.IsChain fun a b => b ∈ p.neighbors a
  ends : ∃ last, path.getLast? = some last ∧ (p.costs goal).isGoal last = true

/-- The plan takes the least fuel of all ways to the goal, and from no node the heuristic asks for
more than a way from there costs. -/
def MinimizesFuel (p : FinePlan K) (start goal : Node) : Prop :=
  (∀ steps path, p.planDetailedPath start goal steps = some path →
    ∀ other, p.LeadsToGoal start goal other →
      (pathCost (p.costs goal) path).le (pathCost (p.costs goal) other) = true) ∧
  ∀ n way, p.LeadsToGoal n goal way →
    ((p.costs goal).heuristic n).le (pathCost (p.costs goal) way) = true

section laws

variable [IsStrictOrderedRing K] {p : FinePlan K}

theorem mathRound_nonneg {x : K} (h : 0 ≤ x) : 0 ≤ mathRound (.fin x) := by
  refine Int.floor_nonneg.mpr ?_
  positivity

omit [FloorRing K] [IsStrictOrderedRing K] in
theorem longDistance_self (x : ℤ) : longDistance x x = 0 := by
  unfold longDistance
  rw [sub_self]
  rfl

theorem isGoal_goal (htime : 0 ≤ p.fineTimeInc) (hspeed : 0 ≤ p.fineSpeedInc) (goal : Node) :
    (p.costs goal).isGoal goal = true := by
  have hhalf : (0 : K) ≤ (51 : ℕ) / (100 : ℕ) := by positivity
  have hdist : 0 ≤ p.tolerances.distance :=
    mathRound_nonneg (mul_nonneg (mul_nonneg hhalf hspeed) htime)
  have hlate : 0 ≤ p.tolerances.time := mathRound_nonneg htime
  have hfast : 0 ≤ p.tolerances.speed := mathRound_nonneg (mul_nonneg hhalf hspeed)
  show (decide _ && decide _ && decide _) = true
  rw [longDistance_self, longDistance_self, longDistance_self, decide_eq_true hdist,
    decide_eq_true hlate, decide_eq_true hfast]
  rfl

omit [FloorRing K] [IsStrictOrderedRing K] in
theorem FuelModel.cost_invalid (m : FuelModel K) {n1 n2 : Node} (h : invalidHop n1 n2 = true) :
    m.cost n1 n2 = .fin maxValue := by
  cases m with
  | default m => exact if_pos h
  | moves2010 m => exact if_pos h

omit [IsStrictOrderedRing K] in
theorem heuristic_late {goal n : Node} (h : goal.time ≤ n.time) :
    (p.costs goal).heuristic n = .inf false ∨ (p.costs goal).heuristic n = .fin maxValue := by
  have hinvalid : invalidHop n goal = true := by
    unfold invalidHop
    rw [decide_eq_true h]
    rfl
  show (if _ then _ else _) = _ ∨ (if _ then _ else _) = _
  split
  · exact Or.inl rfl
  · exact Or.inr (FuelModel.cost_invalid _ hinvalid)

/-- A goal that is reached at its time is asked for more than the nothing that is left. -/
theorem heuristic_too_high {goal n : Node} (h : goal.time ≤ n.time) :
    ((p.costs goal).heuristic n).le (pathCost (p.costs goal) [n]) = false := by
  have hmax : (0 : K) < maxValue :=
    lt_of_lt_of_le (by positivity : (0 : K) < 2 ^ 64) TimeCostModel.maxValue_ge
  rcases heuristic_late (p := p) h with hinf | hfin
  · rw [hinf]
    rfl
  · rw [hfin]
    exact decide_eq_false (not_le.mpr hmax)

/-- No fine plan is as documented: at the goal itself nothing is left to pay, and the heuristic asks
for the largest double. -/
theorem no_fine_plan_minimizes_fuel (p : FinePlan K) (htime : 0 < p.fineTimeInc)
    (hspeed : 0 < p.fineSpeedInc) (start goal : Node) : ¬ p.MinimizesFuel start goal := by
  rintro ⟨-, hbelow⟩
  have hway : p.LeadsToGoal goal goal [goal] :=
    ⟨rfl, .singleton goal, goal, rfl, isGoal_goal htime.le hspeed.le goal⟩
  have hle := hbelow goal [goal] hway
  rw [heuristic_too_high le_rfl] at hle
  cases hle

end laws

/-- From 0 at 10 m/s there are two nodes: the goal at 100 m after 10 s, and 99 m after 9 s at
11 m/s, which is taken for it. -/
def twoWays : FinePlan ℚ where
  fuelCostModel := .default ⟨1000, 1 / 100, 3 / 10, 2, 12 / 10, 1000, false⟩
  fineTimeInc := 2
  fineSpeedInc := 1
  neighbors n := if n.distance = 0 then [⟨100, 10, 10⟩, ⟨99, 9, 11⟩] else []

theorem two_ways_do_not_minimize_fuel : ¬ twoWays.MinimizesFuel ⟨0, 0, 10⟩ ⟨100, 10, 10⟩ :=
  no_fine_plan_minimizes_fuel twoWays (by decide +kernel) (by decide +kernel) _ _

/-- The goal is priced out, and the plan speeds up to the node before it, for 24.6 kJ and not
13.4 kJ. -/
theorem the_dearer_of_two_ways_is_planned :
    twoWays.planDetailedPath ⟨0, 0, 10⟩ ⟨100, 10, 10⟩ 3 = some [⟨0, 0, 10⟩, ⟨99, 9, 11⟩] ∧
      twoWays.LeadsToGoal ⟨0, 0, 10⟩ ⟨100, 10, 10⟩ [⟨0, 0, 10⟩, ⟨100, 10, 10⟩] ∧
      (pathCost (twoWays.costs ⟨100, 10, 10⟩) [⟨0, 0, 10⟩, ⟨100, 10, 10⟩]).lt
        (pathCost (twoWays.costs ⟨100, 10, 10⟩) [⟨0, 0, 10⟩, ⟨99, 9, 11⟩]) = true ∧
      ¬ twoWays.MinimizesFuel ⟨0, 0, 10⟩ ⟨100, 10, 10⟩ := by
  have hplan : twoWays.planDetailedPath ⟨0, 0, 10⟩ ⟨100, 10, 10⟩ 3 =
      some [⟨0, 0, 10⟩, ⟨99, 9, 11⟩] := by decide +kernel
  have hleads : twoWays.LeadsToGoal ⟨0, 0, 10⟩ ⟨100, 10, 10⟩ [⟨0, 0, 10⟩, ⟨100, 10, 10⟩] :=
    ⟨rfl, by decide +kernel, ⟨100, 10, 10⟩, rfl, by decide +kernel⟩
  refine ⟨hplan, hleads, by decide +kernel, ?_⟩
  rintro ⟨hleast, -⟩
  have hle := hleast 3 _ hplan _ hleads
  revert hle
  decide +kernel

end FinePlan

end carma.trajectory_tree
