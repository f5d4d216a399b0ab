-- Which hops of the fine plan a vehicle can drive: later, not back, at a speed that is allowed, and
-- with no more acceleration than there is. The hops that are not come from four places: a node is
-- rounded to whole seconds, the extra node at the speed limit takes no time where the vehicle is
-- that fast already, the limit is rounded up, and the crawling speed is offered whether it can be
-- reached or not.
import Carma.CoarsePathLaws
import Carma.FinePathNeighbors
import Mathlib.Tactic.FieldSimp

open lib.exact_double
open carma.ead

namespace carma.trajectory_tree

variable {L K : Type} [Field K] [LinearOrder K] [FloorRing K]

/-! ## Rounding -/

section rounding

variable [IsStrictOrderedRing K]

theorem mathRound_mono {x y : K} (h : x ≤ y) : mathRound (.fin x) ≤ mathRound (.fin y) :=
  Int.floor_mono (by gcongr)

theorem mathRound_le {x : K} {n : ℤ} : mathRound (.fin x) ≤ n ↔ x < n + 1 / 2 := by
  show ⌊x + 1 / 2⌋ ≤ n ↔ _
  rw [← Int.lt_add_one_iff, Int.floor_lt]
  push_cast
  constructor
  · intro h
    linarith
  · intro h
    linarith

theorem le_mathRound {x : K} {n : ℤ} : n ≤ mathRound (.fin x) ↔ (n : K) - 1 / 2 ≤ x := by
  show n ≤ ⌊x + 1 / 2⌋ ↔ _
  rw [Int.le_floor]
  constructor
  · intro h
    linarith
  · intro h
    linarith

theorem mathRound_add (n : ℤ) (x : K) : mathRound (.fin ((n : K) + x)) = n + mathRound (.fin x) := by
  show ⌊(n : K) + x + 1 / 2⌋ = n + ⌊x + 1 / 2⌋
  rw [add_assoc, Int.floor_intCast_add]

theorem mathRound_between {x y : K} (h : x ≤ y) (hy : y ≤ mathRound (.fin x)) :
    mathRound (.fin y) = mathRound (.fin x) := by
  refine le_antisymm ?_ (mathRound_mono h)
  rw [mathRound_le]
  linarith

theorem mathRound_between' {x y : K} (h : y ≤ x) (hy : (mathRound (.fin x) : K) ≤ y) :
    mathRound (.fin y) = mathRound (.fin x) := by
  refine le_antisymm (mathRound_mono h) ?_
  rw [le_mathRound]
  linarith

end rounding

namespace FinePathNeighbors

/-! ## What is asked of a hop -/

/-- The road ahead: the lights, what is known of them, and the other traffic. -/
structure Surroundings (L K : Type) where
  intersections : List (IntersectionData L K)
  history : List (IntersectionHistory K)
  hasConflict : Node → Node → Bool

/-- The calculator on this road. -/
def on (c : FinePathNeighbors L K) (road : Surroundings L K) : FinePathNeighbors L K :=
  { c with
    intersections := road.intersections
    history := road.history
    hasConflict := road.hasConflict }

/-- A vehicle can drive this hop. The acceleration is that of a speed and a time which are rounded
to those of the node. -/
structure Drivable (c : FinePathNeighbors L K) (a n : Node) : Prop where
  later : a.time < n.time
  ahead : a.distance ≤ n.distance
  forward : 0 ≤ n.speed
  allowed : (n.speed : K) ≤ c.speedLimit
  accel : ∃ v t : K, mathRound (.fin v) = n.speed ∧ mathRound (.fin t) = n.time ∧
    |v - a.speed| ≤ c.maxAccel * (t - a.time)

/-- On every road all hops from the node can be driven. -/
def AllDrivable (c : FinePathNeighbors L K) (a : Node) : Prop :=
  ∀ road ns n, (c.on road).neighbors a = some ns → n ∈ ns → c.Drivable a n

/-- The numbers leave room for every hop from the node. -/
structure Roomy (c : FinePathNeighbors L K) (a : Node) : Prop where
  -- the time increment is not rounded down to nothing
  step : 1 / 2 ≤ c.variableTimeInc
  -- nor is the time to the speed limit
  below : c.maxAccel / 2 ≤ c.speedLimit - a.speed
  -- neither the highest speed nor the crawling speed is rounded past the limit
  top : min (a.speed + c.maxAccel * c.variableTimeInc) c.speedLimit < ⌊c.speedLimit⌋ + 1 / 2
  crawling : c.crawlingSpeed < ⌊c.speedLimit⌋ + 1 / 2
  -- the crawling speed can be reached, up to the rounding
  reached : (mathRound (.fin c.crawlingSpeed) : K) - 1 / 2 <
    a.speed + c.maxAccel * (mathRound (.fin c.variableTimeInc) + 1 / 2)

/-! ## The speeds -/

section speeds

omit [LinearOrder K] [FloorRing K] in
theorem speedsWhile_mem {inRange : K → Bool} {step : K} {steps : ℕ} {newSpeed v : K} {vs : List K}
    (h : speedsWhile inRange step steps newSpeed = some vs) (hv : v ∈ vs) :
    inRange v = true ∧ ∃ k : ℕ, v = newSpeed + k * step := by
  induction steps generalizing newSpeed vs with
  | zero =>
    unfold speedsWhile at h
    split at h
    · cases h
    · cases h
      cases hv
  | succ steps ih =>
    unfold speedsWhile at h
    split at h
    · rename_i hin
      obtain ⟨rest, hrest, rfl⟩ := Option.map_eq_some_iff.mp h
      rcases List.mem_cons.mp hv with rfl | hv
      · refine ⟨hin, 0, ?_⟩
        rw [Nat.cast_zero, zero_mul, add_zero]
      · obtain ⟨hrange, k, hk⟩ := ih hrest hv
        refine ⟨hrange, k + 1, ?_⟩
        rw [hk]
        push_cast
        ring
    · cases h
      cases hv

omit [LinearOrder K] [FloorRing K] in
theorem speedsWhile_isSome {inRange : K → Bool} {step : K} {steps k : ℕ} {newSpeed : K}
    (hk : k ≤ steps) (hout : inRange (newSpeed + k * step) = false) :
    (speedsWhile inRange step steps newSpeed).isSome := by
  induction steps generalizing newSpeed k with
  | zero =>
    obtain rfl : k = 0 := by omega
    rw [Nat.cast_zero, zero_mul, add_zero] at hout
    unfold speedsWhile
    rw [hout]
    rfl
  | succ steps ih =>
    unfold speedsWhile
    split
    · rename_i hin
      rw [Option.isSome_map]
      cases k with
      | zero =>
        rw [Nat.cast_zero, zero_mul, add_zero, hin] at hout
        cases hout
      | succ k =>
        refine ih (by omega : k ≤ steps) ?_
        rw [← hout]
        push_cast
        ring_nf
    · rfl

def minSpeed (c : FinePathNeighbors L K) (a : Node) : K :=
  max (a.speed - c.maxAccel * c.variableTimeInc) 0

def maxSpeed (c : FinePathNeighbors L K) (a : Node) : K :=
  min (a.speed + c.maxAccel * c.variableTimeInc) c.speedLimit

/-- The vehicle can reach a speed that is rounded to the same as this one. -/
def Reaches (c : FinePathNeighbors L K) (a : Node) (v : K) : Prop :=
  ∃ w, mathRound (.fin w) = mathRound (.fin v) ∧ c.minSpeed a ≤ w ∧ w ≤ c.maxSpeed a

variable [IsStrictOrderedRing K]

/-- The numbers of a calculator and the speed of a node. -/
structure Sound (c : FinePathNeighbors L K) (a : Node) : Prop where
  timeInc : 0 < c.timeInc
  speedInc : 0 < c.speedInc
  maxAccel : 0 < c.maxAccel
  forward : 0 ≤ a.speed
  allowed : (a.speed : K) ≤ c.speedLimit

variable {c : FinePathNeighbors L K} {a : Node}

omit [FloorRing K] [IsStrictOrderedRing K] in
theorem Sound.inc_pos (h : c.Sound a) : 0 < c.variableTimeInc := lt_max_of_lt_left h.timeInc

omit [FloorRing K] in
theorem Sound.speed_nonneg (h : c.Sound a) : (0 : K) ≤ a.speed := Int.cast_nonneg h.forward

omit [FloorRing K] in
theorem Sound.minSpeed_le (h : c.Sound a) : c.minSpeed a ≤ a.speed := by
  have hgain := mul_pos h.maxAccel h.inc_pos
  exact max_le (by linarith) h.speed_nonneg

omit [FloorRing K] in
theorem Sound.le_maxSpeed (h : c.Sound a) : (a.speed : K) ≤ c.maxSpeed a := by
  have hgain := mul_pos h.maxAccel h.inc_pos
  exact le_min (by linarith) h.allowed

omit [FloorRing K] in
/-- A whole number of meters in a second that is less than a tenth is none. -/
theorem Sound.stands (h : c.Sound a) (hslow : (a.speed : K) < 1 / 10) : (a.speed : K) = 0 := by
  have hone : (a.speed : K) < (1 : ℤ) := by
    push_cast
    linarith
  have hspeed : a.speed = 0 := by
    have hlow := h.forward
    have hhigh := Int.cast_lt.mp hone
    omega
  rw [hspeed, Int.cast_zero]

/-- What the speeds are: the vehicle stands and stays, or there is a lowest speed, those in steps
from the one it has, and the highest speed. -/
theorem getViableSpeeds_cases (hstep : 0 ≤ c.speedInc) {speeds : List K}
    (h : c.getViableSpeeds a c.variableTimeInc = some speeds) :
    (speeds = [0] ∧ (a.speed : K) < 1 / 10) ∨
      ∃ first down up,
        speeds = first :: ([(a.speed : K)] ++ down ++ up).filter (fun v => v > c.crawlingSpeed) ++
          [c.maxSpeed a] ∧
        (first = 0 ∧ c.minSpeed a < 1 / 10 ∨ first = max (c.minSpeed a) c.crawlingSpeed) ∧
        (∀ v ∈ down, (mathRound (.fin (c.minSpeed a)) : K) < v ∧ v ≤ a.speed) ∧
        ∀ v ∈ up, (a.speed : K) ≤ v ∧ v < mathRound (.fin (c.maxSpeed a)) := by
  unfold getViableSpeeds at h
  dsimp only at h
  obtain ⟨stopped, hstopped, h⟩ := Option.bind_eq_some_iff.mp h
  split at h
  · rename_i hstop
    subst hstop
    refine Or.inl ⟨(Option.some.inj h).symm, ?_⟩
    split at hstopped
    · cases hstopped
    · obtain ⟨state, -, hstop⟩ := Option.map_eq_some_iff.mp hstopped
      rw [Bool.and_eq_true, decide_eq_true_eq] at hstop
      exact_mod_cast hstop.1
  · obtain ⟨down, hdown, h⟩ := Option.bind_eq_some_iff.mp h
    obtain ⟨up, hup, h⟩ := Option.map_eq_some_iff.mp h
    refine Or.inr ⟨_, down, up, h.symm, ?_, ?_, ?_⟩
    · split
      · rename_i hclose
        exact Or.inl ⟨rfl, by exact_mod_cast hclose.2.1⟩
      · exact Or.inr rfl
    · intro v hv
      obtain ⟨hrange, k, rfl⟩ := speedsWhile_mem hdown hv
      have hsteps : 0 ≤ (k : K) * c.speedInc := mul_nonneg (Nat.cast_nonneg k) hstep
      exact ⟨of_decide_eq_true hrange, by linarith⟩
    · intro v hv
      obtain ⟨hrange, k, rfl⟩ := speedsWhile_mem hup hv
      have hsteps : 0 ≤ (k : K) * c.speedInc := mul_nonneg (Nat.cast_nonneg k) hstep
      exact ⟨by linarith, of_decide_eq_true hrange⟩

theorem viable_near (hsound : c.Sound a) {speeds : List K}
    (h : c.getViableSpeeds a c.variableTimeInc = some speeds) {v : K} (hv : v ∈ speeds) :
    0 ≤ v ∧ (c.Reaches a v ∨ v = c.crawlingSpeed ∧ c.minSpeed a ≤ v) := by
  have hlow := hsound.minSpeed_le
  have hhigh := hsound.le_maxSpeed
  have hspeed := hsound.speed_nonneg
  have hzero : (0 : K) ≤ c.minSpeed a := le_max_right _ _
  rcases getViableSpeeds_cases hsound.speedInc.le h with ⟨rfl, hstand⟩ | ⟨first, down, up, rfl,
    hfirst, hdown, hup⟩
  · obtain rfl := List.mem_singleton.mp hv
    have hnow := hsound.stands hstand
    exact ⟨le_rfl, Or.inl ⟨0, rfl, hnow ▸ hlow, hnow ▸ hhigh⟩⟩
  · rw [List.mem_append, List.mem_cons, List.mem_singleton, List.mem_filter] at hv
    rcases hv with (rfl | ⟨hv, -⟩) | rfl
    · rcases hfirst with ⟨rfl, hslow⟩ | rfl
      · refine ⟨le_rfl, Or.inl ⟨c.minSpeed a, ?_, le_rfl, hlow.trans hhigh⟩⟩
        refine le_antisymm ?_ (mathRound_mono hzero)
        have hround : mathRound (.fin (0 : K)) = 0 := by
          have hcast := CoarsePathNeighbors.mathRound_intCast (K := K) 0
          rwa [Int.cast_zero] at hcast
        rw [hround, mathRound_le]
        push_cast
        linarith
      · rcases le_total (c.minSpeed a) c.crawlingSpeed with hle | hle
        · rw [max_eq_right hle]
          exact ⟨hzero.trans hle, Or.inr ⟨rfl, hle⟩⟩
        · rw [max_eq_left hle]
          exact ⟨hzero, Or.inl ⟨_, rfl, le_rfl, hlow.trans hhigh⟩⟩
    · rw [List.mem_append, List.mem_append, List.mem_singleton] at hv
      rcases hv with (rfl | hv) | hv
      · exact ⟨hspeed, Or.inl ⟨_, rfl, hlow, hhigh⟩⟩
      · obtain ⟨habove, hbelow⟩ := hdown v hv
        have hround : 0 ≤ mathRound (.fin (c.minSpeed a)) := by
          rw [le_mathRound]
          push_cast
          linarith
        refine ⟨(Int.cast_nonneg hround).trans habove.le, Or.inl ?_⟩
        rcases le_total (c.minSpeed a) v with hle | hle
        · exact ⟨v, rfl, hle, hbelow.trans hhigh⟩
        · exact ⟨_, (mathRound_between' hle habove.le).symm, le_rfl, hlow.trans hhigh⟩
      · obtain ⟨habove, hbelow⟩ := hup v hv
        refine ⟨hspeed.trans habove, Or.inl ?_⟩
        rcases le_total v (c.maxSpeed a) with hle | hle
        · exact ⟨v, rfl, hlow.trans habove, hle⟩
        · exact ⟨_, (mathRound_between hle hbelow.le).symm, hlow.trans hhigh, le_rfl⟩
    · exact ⟨hspeed.trans hhigh, Or.inl ⟨_, rfl, hlow.trans hhigh, le_rfl⟩⟩

end speeds

/-! ## The ends -/

section ends

variable {c : FinePathNeighbors L K} {a : Node}

/-- The end of a hop of the time increment. -/
def plainEnd (c : FinePathNeighbors L K) (a : Node) (v : K) : EndState K :=
  ⟨.fin (a.distance + c.variableTimeInc * (a.speed + v) * (1 / (2 : ℕ))),
    .fin (a.time + c.variableTimeInc), v⟩

/-- The end of a hop that takes as long as the vehicle needs to the speed limit. -/
def limitEnd (c : FinePathNeighbors L K) (a : Node) (v : K) : EndState K :=
  ⟨.fin (a.distance + (c.speedLimit - a.speed) / c.maxAccel * (a.speed + v) * (1 / (2 : ℕ))),
    .fin (a.time + (c.speedLimit - a.speed) / c.maxAccel), v⟩

omit [FloorRing K] in
theorem endsAt_eq (haccel : c.maxAccel ≠ 0) (v : K) :
    c.endsAt a v = if v ≥ c.speedLimit then [c.plainEnd a v, c.limitEnd a v] else [c.plainEnd a v] := by
  unfold endsAt
  dsimp only
  rw [Dbl.fin_div _ haccel, Dbl.fin_mul, Dbl.fin_mul, Dbl.fin_add, Dbl.fin_add]
  rfl

theorem keepLegal_subset {es legal : List (EndState K)} (h : c.keepLegal a es = some legal) :
    ∀ e ∈ legal, e ∈ es := by
  induction es generalizing legal with
  | nil =>
    obtain rfl := Option.some.inj h
    simp
  | cons e es ih =>
    obtain ⟨violates, -, h⟩ := Option.bind_eq_some_iff.mp h
    obtain ⟨rest, hrest, rfl⟩ := Option.map_eq_some_iff.mp h
    intro e' he'
    cases violates with
    | true => exact List.mem_cons_of_mem _ (ih hrest e' he')
    | false =>
      rcases List.mem_cons.mp he' with rfl | he'
      · exact List.mem_cons_self
      · exact List.mem_cons_of_mem _ (ih hrest e' he')

/-- A neighbor is an end at a speed that is offered, or the place itself for a vehicle that
stands. -/
theorem neighbors_cases {ns : List Node} {n : Node} (h : c.neighbors a = some ns) (hn : n ∈ ns) :
    ((a.speed : K) < 1 / 10 ∧
        n = .ofDoubles (.fin (a.distance : K)) (.fin (a.time + c.variableTimeInc)) (.fin 0)) ∨
      ∃ speeds v e, c.getViableSpeeds a c.variableTimeInc = some speeds ∧ v ∈ speeds ∧
        e ∈ c.endsAt a v ∧ n = EndState.node e := by
  obtain ⟨inevitable, -, h⟩ := Option.bind_eq_some_iff.mp h
  split at h
  · obtain rfl := Option.some.inj h
    cases hn
  · obtain ⟨ends, hends, rfl⟩ := Option.map_eq_some_iff.mp h
    have hn := (List.mem_filter.mp hn).1
    split at hn
    · rename_i hstand
      exact Or.inl ⟨by exact_mod_cast hstand.2, List.mem_singleton.mp hn⟩
    · obtain ⟨e, he, rfl⟩ := List.mem_map.mp hn
      obtain ⟨speeds, hspeeds, hlegal⟩ := Option.bind_eq_some_iff.mp hends
      obtain ⟨v, hv, hev⟩ := List.mem_flatMap.mp (keepLegal_subset hlegal e he)
      exact Or.inr ⟨speeds, v, e, hspeeds, hv, hev, rfl⟩

variable [IsStrictOrderedRing K]

theorem speed_allowed (hroomy : c.Roomy a) {v : K}
    (hv : c.Reaches a v ∨ v = c.crawlingSpeed ∧ c.minSpeed a ≤ v) :
    mathRound (.fin v) ≤ ⌊c.speedLimit⌋ := by
  rcases hv with ⟨w, hround, -, hw⟩ | ⟨rfl, -⟩
  · rw [← hround, mathRound_le]
    exact hw.trans_lt hroomy.top
  · rw [mathRound_le]
    exact hroomy.crawling

/-- The crawling speed is reached by a vehicle that speeds up all the time, up to the rounding of
the speed and of the time. -/
theorem crawling_reached (hsound : c.Sound a) (hroomy : c.Roomy a)
    (hfar : a.speed + c.maxAccel * c.variableTimeInc < c.crawlingSpeed) :
    ∃ w t : K, mathRound (.fin w) = mathRound (.fin c.crawlingSpeed) ∧
      mathRound (.fin t) = mathRound (.fin (a.time + c.variableTimeInc)) ∧
      |w - a.speed| ≤ c.maxAccel * (t - a.time) := by
  have hinc := hsound.inc_pos
  have haccel := hsound.maxAccel
  have hgain := mul_pos haccel hinc
  have hround := (le_mathRound (x := c.crawlingSpeed)).mp le_rfl
  have htime := (mathRound_le (x := (a.time : K) + c.variableTimeInc)).mp le_rfl
  have hstep : 0 ≤ mathRound (.fin c.variableTimeInc) := by
    rw [le_mathRound]
    push_cast
    linarith
  have hstep' : (0 : K) ≤ mathRound (.fin c.variableTimeInc) := Int.cast_nonneg hstep
  have hreached := hroomy.reached
  rw [mathRound_add] at htime
  push_cast at htime
  -- the least speed that is rounded so, and the time to it
  obtain ⟨w, hw⟩ : ∃ w, w = max (a.speed : K) (mathRound (.fin c.crawlingSpeed) - 1 / 2) := ⟨_, rfl⟩
  have hfrom : (a.speed : K) ≤ w := hw ▸ le_max_left _ _
  have hto : w - a.speed < c.maxAccel * (mathRound (.fin c.variableTimeInc) + 1 / 2) := by
    rw [sub_lt_iff_lt_add', hw, max_lt_iff]
    refine ⟨?_, hreached⟩
    have hroom : 0 < c.maxAccel * (mathRound (.fin c.variableTimeInc) + 1 / 2 : K) :=
      mul_pos haccel (by linarith)
    linarith
  refine ⟨w, max (a.time + c.variableTimeInc) (a.time + (w - a.speed) / c.maxAccel), ?_, ?_, ?_⟩
  · refine le_antisymm (mathRound_mono ?_) ?_
    · rw [hw]
      exact max_le (by linarith) hround
    · rw [le_mathRound, hw]
      exact le_max_right _ _
  · refine le_antisymm ?_ (mathRound_mono (le_max_left _ _))
    rw [mathRound_le, mathRound_add, max_lt_iff]
    push_cast
    refine ⟨by linarith, ?_⟩
    rw [add_assoc, add_lt_add_iff_left, div_lt_iff₀ haccel, mul_comm]
    exact hto
  · rw [abs_of_nonneg (sub_nonneg.mpr hfrom)]
    have hlate : (w - a.speed) / c.maxAccel ≤
        max (a.time + c.variableTimeInc) (a.time + (w - a.speed) / c.maxAccel) - a.time :=
      le_sub_iff_add_le'.mpr (le_max_right _ _)
    calc w - a.speed = c.maxAccel * ((w - a.speed) / c.maxAccel) := by
          rw [mul_div_cancel₀ _ haccel.ne']
      _ ≤ _ := mul_le_mul_of_nonneg_left hlate haccel.le

/-- A hop forward, at an allowed speed, that ends later and with the acceleration there is. -/
theorem drivable_of (hsound : c.Sound a) (hroomy : c.Roomy a) {v τ : K} (hv : 0 ≤ v)
    (hoffered : c.Reaches a v ∨ v = c.crawlingSpeed ∧ c.minSpeed a ≤ v) (hτ : 1 / 2 ≤ τ)
    (haccel : ∃ w t : K, mathRound (.fin w) = mathRound (.fin v) ∧
      mathRound (.fin t) = mathRound (.fin (a.time + τ)) ∧
      |w - a.speed| ≤ c.maxAccel * (t - a.time)) :
    c.Drivable a (EndState.node
      ⟨.fin (a.distance + τ * (a.speed + v) * (1 / (2 : ℕ))), .fin (a.time + τ), v⟩) := by
  have hspeed := hsound.speed_nonneg
  refine ⟨?_, ?_, ?_, ?_, haccel⟩
  · show a.time < mathRound (.fin (a.time + τ))
    have hone : 1 ≤ mathRound (.fin τ) := by
      rw [le_mathRound]
      push_cast
      linarith
    rw [mathRound_add]
    omega
  · show a.distance ≤ mathRound (.fin _)
    have hway : 0 ≤ τ * (a.speed + v) * (1 / (2 : ℕ)) := by
      have hmean : 0 ≤ τ * (a.speed + v) := mul_nonneg (by linarith) (by linarith)
      positivity
    rw [le_mathRound]
    linarith
  · show 0 ≤ mathRound (.fin v)
    rw [le_mathRound]
    push_cast
    linarith
  · have hfloor : ((mathRound (.fin v) : ℤ) : K) ≤ (⌊c.speedLimit⌋ : K) :=
      Int.cast_le.mpr (speed_allowed hroomy hoffered)
    exact hfloor.trans (Int.floor_le _)

theorem plainEnd_drivable (hsound : c.Sound a) (hroomy : c.Roomy a) {v : K} (hv : 0 ≤ v)
    (hoffered : c.Reaches a v ∨ v = c.crawlingSpeed ∧ c.minSpeed a ≤ v) :
    c.Drivable a (EndState.node (c.plainEnd a v)) := by
  refine drivable_of hsound hroomy hv hoffered hroomy.step ?_
  have hwithin : ∀ w, c.minSpeed a ≤ w → w ≤ a.speed + c.maxAccel * c.variableTimeInc →
      |w - a.speed| ≤ c.maxAccel * (a.time + c.variableTimeInc - a.time) := by
    intro w hlow hhigh
    have hleast : a.speed - c.maxAccel * c.variableTimeInc ≤ c.minSpeed a := le_max_left _ _
    rw [add_sub_cancel_left, abs_le]
    constructor
    · linarith
    · linarith
  rcases hoffered with ⟨w, hround, hlow, hhigh⟩ | ⟨rfl, hlow⟩
  · exact ⟨w, _, hround, rfl, hwithin w hlow (hhigh.trans (min_le_left _ _))⟩
  · rcases le_or_gt c.crawlingSpeed (a.speed + c.maxAccel * c.variableTimeInc) with hnear | hfar
    · exact ⟨_, _, rfl, rfl, hwithin _ hlow hnear⟩
    · exact crawling_reached hsound hroomy hfar

theorem limitEnd_drivable (hsound : c.Sound a) (hroomy : c.Roomy a) {v : K} (hv : 0 ≤ v)
    (hoffered : c.Reaches a v ∨ v = c.crawlingSpeed ∧ c.minSpeed a ≤ v) (hfast : c.speedLimit ≤ v) :
    c.Drivable a (EndState.node (c.limitEnd a v)) := by
  have haccel := hsound.maxAccel
  have hbelow := hroomy.below
  refine drivable_of hsound hroomy hv hoffered ?_ ⟨c.speedLimit, _, ?_, rfl, ?_⟩
  · rw [le_div_iff₀ haccel]
    linarith
  · refine le_antisymm (mathRound_mono hfast) ((speed_allowed hroomy hoffered).trans ?_)
    rw [le_mathRound]
    have hfloor := Int.floor_le c.speedLimit
    linarith
  · rw [add_sub_cancel_left, mul_div_cancel₀ _ haccel.ne', abs_of_nonneg (by linarith)]

theorem neighbors_drivable (hsound : c.Sound a) (hroomy : c.Roomy a) {ns : List Node} {n : Node}
    (h : c.neighbors a = some ns) (hn : n ∈ ns) : c.Drivable a n := by
  rcases neighbors_cases h hn with ⟨hstand, rfl⟩ | ⟨speeds, v, e, hspeeds, hv, he, rfl⟩
  · have hnow := hsound.stands hstand
    have hplace : Node.ofDoubles (.fin (a.distance : K)) (.fin (a.time + c.variableTimeInc)) (.fin 0)
        = EndState.node (c.plainEnd a 0) := by
      unfold plainEnd
      rw [hnow, add_zero, mul_zero, zero_mul, add_zero]
      rfl
    rw [hplace]
    exact plainEnd_drivable hsound hroomy le_rfl
      (Or.inl ⟨0, rfl, hnow ▸ hsound.minSpeed_le, hnow ▸ hsound.le_maxSpeed⟩)
  · obtain ⟨hpos, hoffered⟩ := viable_near hsound hspeeds hv
    rw [endsAt_eq hsound.maxAccel.ne'] at he
    split at he
    · rename_i hfast
      rcases List.mem_cons.mp he with rfl | he
      · exact plainEnd_drivable hsound hroomy hpos hoffered
      · rw [List.mem_singleton.mp he]
        exact limitEnd_drivable hsound hroomy hpos hoffered hfast
    · rw [List.mem_singleton.mp he]
      exact plainEnd_drivable hsound hroomy hpos hoffered

end ends

/-! ## Behind the last light -/

section passed

variable {c : FinePathNeighbors L K} {a : Node}

/-- No traffic, and a light whose bar is one meter behind. -/
def passedLight (dist : ℤ) : Surroundings L K where
  intersections := [{
    map := none
    spat := none
    roughDist := .none
    intersectionId := 7
    laneId := 1
    dtsb := dist - 1
    currentPhase := .GREEN
    timeToNextPhase := (20 : ℕ)
    geometry := some ⟨dist - 1, 1, (10 : ℕ), fun _ => true⟩
    stopBoxWidth := (10 : ℕ) }]
  history := []
  hasConflict _ _ := false

variable [IsStrictOrderedRing K]

theorem currentIntersectionIndex_passed :
    (c.on (passedLight a.distance)).currentIntersectionIndex (a.distance : K) = none := by
  unfold NeighborBase.currentIntersectionIndex
  rw [List.find?_eq_none]
  intro index _
  have hbar : (c.on (passedLight a.distance)).stopBar index = a.distance - 1 := by
    rw [NeighborBase.stopBar_eq]
    obtain rfl : index = ⟨0, Nat.one_pos⟩ := Fin.ext (Nat.lt_one_iff.mp index.isLt)
    change ⌊((a.distance : K) - 1) + 1 / 2⌋ = a.distance - 1
    rw [← Int.cast_one, ← Int.cast_sub, Int.floor_intCast_add]
    norm_num
  rw [NeighborBase.distToIntersection_node, hbar, decide_eq_true_eq]
  omega

theorem signalViolation_passed (endDist : Dbl K) (startTime : K) (endTime : Dbl K)
    (endingSpeed : K) : (c.on (passedLight a.distance)).signalViolation (a.distance : K) endDist
      startTime endTime endingSpeed = some false := by
  unfold signalViolation
  rw [currentIntersectionIndex_passed]

theorem keepLegal_passed (es : List (EndState K)) :
    (c.on (passedLight a.distance)).keepLegal a es = some es := by
  induction es with
  | nil => rfl
  | cons e es ih =>
    unfold keepLegal violates
    rw [ih, signalViolation_passed]
    rfl

/-- So many steps lead past every bound. -/
theorem le_steps {step : K} (hstep : 0 < step) (x : K) :
    x ≤ (⌈x / step⌉.toNat : K) * step := by
  have hceil : x / step ≤ (⌈x / step⌉ : K) := Int.le_ceil _
  have hnat : ((⌈x / step⌉ : ℤ) : K) ≤ ((⌈x / step⌉.toNat : ℤ) : K) :=
    Int.cast_le.mpr (Int.self_le_toNat _)
  rw [← div_le_iff₀ hstep]
  rw [Int.cast_natCast] at hnat
  exact hceil.trans hnat

theorem getViableSpeeds_passed (hstep : 0 < c.speedInc) :
    ∃ between, (c.on (passedLight a.distance)).getViableSpeeds a c.variableTimeInc =
      some (max (c.minSpeed a) c.crawlingSpeed :: between ++ [c.maxSpeed a]) := by
  have hdown := le_steps hstep (a.speed - mathRound (.fin (c.minSpeed a)))
  have hup := le_steps hstep (mathRound (.fin (c.maxSpeed a)) - a.speed)
  have hdowns : (speedsWhile (fun v => v > (mathRound (.fin (c.minSpeed a)) : K)) (-c.speedInc)
      ⌈(a.speed - mathRound (.fin (c.minSpeed a))) / c.speedInc⌉.toNat
      (a.speed - c.speedInc)).isSome :=
    speedsWhile_isSome le_rfl (decide_eq_false (by linarith))
  have hups : (speedsWhile (fun v => v < (mathRound (.fin (c.maxSpeed a)) : K)) c.speedInc
      ⌈(mathRound (.fin (c.maxSpeed a)) - a.speed) / c.speedInc⌉.toNat
      (a.speed + c.speedInc)).isSome :=
    speedsWhile_isSome le_rfl (decide_eq_false (by linarith))
  obtain ⟨down, hdown⟩ := Option.isSome_iff_exists.mp hdowns
  obtain ⟨up, hup⟩ := Option.isSome_iff_exists.mp hups
  refine ⟨([(a.speed : K)] ++ down ++ up).filter (fun v => v > c.crawlingSpeed), ?_⟩
  unfold getViableSpeeds
  dsimp only
  rw [currentIntersectionIndex_passed]
  change (Option.bind (some false) _ : Option (List K)) = _
  rw [Option.bind_some, if_neg Bool.false_ne_true]
  change ((speedsWhile (fun v => v > (mathRound (.fin (c.minSpeed a)) : K)) (-c.speedInc)
      ⌈(a.speed - mathRound (.fin (c.minSpeed a))) / c.speedInc⌉.toNat
      (a.speed - c.speedInc)).bind _ : Option (List K)) = _
  rw [hdown, Option.bind_some]
  change ((speedsWhile (fun v => v < (mathRound (.fin (c.maxSpeed a)) : K)) c.speedInc
      ⌈(mathRound (.fin (c.maxSpeed a)) - a.speed) / c.speedInc⌉.toNat
      (a.speed + c.speedInc)).map _ : Option (List K)) = _
  rw [hup]
  rfl

theorem passedLight_offers (hstep : 0 < c.speedInc) {v : K}
    (hv : v = max (c.minSpeed a) c.crawlingSpeed ∨ v = c.maxSpeed a) {e : EndState K}
    (he : e ∈ c.endsAt a v) :
    ∃ ns, (c.on (passedLight a.distance)).neighbors a = some ns ∧ EndState.node e ∈ ns := by
  obtain ⟨between, hspeeds⟩ := getViableSpeeds_passed (c := c) (a := a) hstep
  have hends : (c.on (passedLight a.distance)).legalEnds a = some
      ((max (c.minSpeed a) c.crawlingSpeed :: between ++ [c.maxSpeed a]).flatMap (c.endsAt a)) := by
    unfold legalEnds
    change Option.bind ((c.on (passedLight a.distance)).getViableSpeeds a c.variableTimeInc) _ = _
    rw [hspeeds, Option.bind_some]
    exact keepLegal_passed _
  have hmem : e ∈ (max (c.minSpeed a) c.crawlingSpeed :: between ++ [c.maxSpeed a]).flatMap
      (c.endsAt a) := by
    refine List.mem_flatMap.mpr ⟨v, ?_, he⟩
    rcases hv with rfl | rfl
    · simp
    · simp
  generalize (max (c.minSpeed a) c.crawlingSpeed :: between ++ [c.maxSpeed a]).flatMap
    (c.endsAt a) = ends at hends hmem
  have hsome : ¬ ((ends.map EndState.node).length = 0 ∧ (a.speed : K) < 1 / (10 : ℕ)) := by
    rintro ⟨hnone, -⟩
    rw [List.length_map, List.length_eq_zero_iff] at hnone
    rw [hnone] at hmem
    cases hmem
  refine ⟨(ends.map EndState.node).filter fun n => !(c.on (passedLight a.distance)).hasConflict a n, ?_, ?_⟩
  · unfold neighbors
    dsimp only
    rw [signalViolation_passed, Option.bind_some, if_neg Bool.false_ne_true, hends, Option.map_some,
      if_neg hsome]
  · exact List.mem_filter.mpr ⟨List.mem_map_of_mem hmem, rfl⟩

omit [FloorRing K] [IsStrictOrderedRing K] in
theorem plainEnd_mem (haccel : c.maxAccel ≠ 0) (v : K) : c.plainEnd a v ∈ c.endsAt a v := by
  rw [endsAt_eq haccel]
  split
  · exact List.mem_cons_self
  · exact List.mem_cons_self

omit [FloorRing K] [IsStrictOrderedRing K] in
theorem limitEnd_mem (haccel : c.maxAccel ≠ 0) {v : K} (hfast : c.speedLimit ≤ v) :
    c.limitEnd a v ∈ c.endsAt a v := by
  rw [endsAt_eq haccel, if_pos hfast]
  exact List.mem_cons_of_mem _ (List.mem_singleton.mpr rfl)

theorem half_le_of_later {τ : K} (h : a.time < mathRound (.fin ((a.time : K) + τ))) : 1 / 2 ≤ τ := by
  rw [mathRound_add] at h
  have hone : 1 ≤ mathRound (.fin τ) := by omega
  rw [le_mathRound] at hone
  push_cast at hone
  linarith

theorem lt_of_allowed {v : K} (h : ((mathRound (.fin v) : ℤ) : K) ≤ c.speedLimit) :
    v < ⌊c.speedLimit⌋ + 1 / 2 :=
  mathRound_le.mp (Int.le_floor.mpr h)

theorem roomy_of_allDrivable (hsound : c.Sound a) (hall : c.AllDrivable a) : c.Roomy a := by
  have haccel := hsound.maxAccel
  have hmem : ∀ {v e}, v = max (c.minSpeed a) c.crawlingSpeed ∨ v = c.maxSpeed a →
      e ∈ c.endsAt a v → c.Drivable a (EndState.node e) := by
    intro v e hv he
    obtain ⟨ns, hns, hn⟩ := passedLight_offers hsound.speedInc hv he
    exact hall (passedLight a.distance) ns _ hns hn
  have hfirst := hmem (Or.inl rfl) (plainEnd_mem haccel.ne' _)
  have htop := hmem (Or.inr rfl) (plainEnd_mem haccel.ne' _)
  have hstep : 1 / 2 ≤ c.variableTimeInc := half_le_of_later hfirst.later
  refine ⟨hstep, ?_, lt_of_allowed htop.allowed,
    (le_max_right _ _).trans_lt (lt_of_allowed hfirst.allowed), ?_⟩
  · rcases le_or_gt c.speedLimit (a.speed + c.maxAccel * c.variableTimeInc) with hnear | hfar
    · have hfast : c.speedLimit ≤ c.maxSpeed a := le_min hnear le_rfl
      have hlimit := hmem (Or.inr rfl) (limitEnd_mem haccel.ne' hfast)
      have hhalf : 1 / 2 ≤ (c.speedLimit - a.speed) / c.maxAccel := half_le_of_later hlimit.later
      rw [le_div_iff₀ haccel] at hhalf
      linarith
    · have hgain := mul_le_mul_of_nonneg_left hstep haccel.le
      linarith
  · obtain ⟨w, t, hw, ht, hwithin⟩ := hfirst.accel
    change mathRound (.fin w) = mathRound (.fin (max (c.minSpeed a) c.crawlingSpeed)) at hw
    change mathRound (.fin t) = mathRound (.fin ((a.time : K) + c.variableTimeInc)) at ht
    have hlow := le_mathRound.mp hw.ge
    have hlate := mathRound_le.mp ht.le
    rw [mathRound_add] at hlate
    push_cast at hlate
    have hcrawl : ((mathRound (.fin c.crawlingSpeed) : ℤ) : K) ≤
        ((mathRound (.fin (max (c.minSpeed a) c.crawlingSpeed)) : ℤ) : K) :=
      Int.cast_le.mpr (mathRound_mono (le_max_right _ _))
    have hgain := (le_abs_self _).trans hwithin
    have hroom : c.maxAccel * (t - a.time) <
        c.maxAccel * (mathRound (.fin c.variableTimeInc) + 1 / 2) :=
      mul_lt_mul_of_pos_left (by linarith) haccel
    linarith

end passed

/-- All hops of the fine plan from a node can be driven where its numbers leave room for them, and,
unless the vehicle drives backwards, only there. -/
theorem all_hops_can_be_driven_where_there_is_room {L K : Type} [Field K] [LinearOrder K]
    [FloorRing K] [IsStrictOrderedRing K] (c : FinePathNeighbors L K) (a : Node)
    (htimeInc : 0 < c.timeInc) (hspeedInc : 0 < c.speedInc) (haccel : 0 < c.maxAccel)
    (hallowed : (a.speed : K) ≤ c.speedLimit) :
    (0 ≤ a.speed ∧ c.Roomy a → c.AllDrivable a) ∧ (c.AllDrivable a → a.speed < 0 ∨ c.Roomy a) := by
  constructor
  · rintro ⟨hforward, hroomy⟩ road ns n h hn
    have hsound : (c.on road).Sound a := ⟨htimeInc, hspeedInc, haccel, hforward, hallowed⟩
    have hroom : (c.on road).Roomy a :=
      ⟨hroomy.step, hroomy.below, hroomy.top, hroomy.crawling, hroomy.reached⟩
    obtain ⟨hlater, hahead, hforward, hallowed, hwithin⟩ := neighbors_drivable hsound hroom h hn
    exact ⟨hlater, hahead, hforward, hallowed, hwithin⟩
  · intro hall
    rcases lt_or_ge a.speed 0 with hback | hforward
    · exact Or.inl hback
    · exact Or.inr (roomy_of_allDrivable ⟨htimeInc, hspeedInc, haccel, hforward, hallowed⟩ hall)

/-- From 10 m/s with a limit of 12 m/s. -/
theorem all_hops_can_be_driven_below_the_limit :
    (defaults 2 []).AllDrivable (⟨0, 0, 10⟩ : Node) :=
  (all_hops_can_be_driven_where_there_is_room (defaults 2 []) ⟨0, 0, 10⟩ (by decide +kernel)
    (by decide +kernel) (by decide +kernel) (by decide +kernel)).1
    ⟨by decide, ⟨by decide +kernel, by decide +kernel, by decide +kernel, by decide +kernel,
      by decide +kernel⟩⟩

/-- The neighbors at the limit, 50 meters behind a light. -/
def neighborsAtTheLimit : List Node :=
  [⟨120, 12, 8⟩, ⟨124, 12, 12⟩, ⟨100, 10, 12⟩, ⟨123, 12, 11⟩, ⟨122, 12, 10⟩, ⟨121, 12, 9⟩,
    ⟨124, 12, 12⟩, ⟨100, 10, 12⟩]

/-- At the limit a node is its own neighbor. -/
theorem a_node_at_the_limit_is_its_own_neighbor :
    ((defaults 2 []).on ⟨[light 7 50 .GREEN], [⟨7, 20, 0, 0⟩], fun _ _ => false⟩).neighbors
        ⟨100, 10, 12⟩ = some neighborsAtTheLimit ∧
      ⟨100, 10, 12⟩ ∈ neighborsAtTheLimit ∧ ¬ (defaults 2 []).AllDrivable (⟨100, 10, 12⟩ : Node) := by
  have hneighbors : ((defaults 2 []).on ⟨[light 7 50 .GREEN], [⟨7, 20, 0, 0⟩],
      fun _ _ => false⟩).neighbors ⟨100, 10, 12⟩ = some neighborsAtTheLimit := by
    decide +kernel
  have hself : (⟨100, 10, 12⟩ : Node) ∈ neighborsAtTheLimit := by decide
  exact ⟨hneighbors, hself, fun h => absurd (h _ _ _ hneighbors hself).later (lt_irrefl 10)⟩

end FinePathNeighbors

end carma.trajectory_tree
