-- `FinePathNeighbors.java`: the nodes that the detailed plan can go to from a node. A hop
-- is tested against the light of the intersection that is current at its start, before its
-- end is rounded to a node.
import Carma.NeighborBase
import Mathlib.Data.Rat.Floor

open lib.exact_double
open carma.ead

namespace carma.trajectory_tree

/-- The calculator, with `acceptableStopDist` as `initialize` leaves it. -/
structure FinePathNeighbors (L K : Type) extends NeighborBase L K where
  acceptableStopDist : K
  responseLag : K

/-- Where a hop ends, before it is rounded. -/
structure EndState (K : Type) where
  dist : Dbl K
  time : Dbl K
  speed : K
deriving DecidableEq

namespace FinePathNeighbors

variable {L K : Type} [Field K] [LinearOrder K]

/-- When the stop bar is crossed between two ends: NaN where they are at one place. -/
def crossingTime (stopBar : ℤ) (startDist startTime : K) (endDist endTime : Dbl K) : Dbl K :=
  let dtsb : K := stopBar - startDist
  let interpFactor := .fin dtsb / (endDist - .fin startDist)
  .fin startTime + interpFactor * (endTime - .fin startTime)

/-- The phases at which a bar must not be crossed. -/
def isRed (phase : SignalPhase) : Bool := phase = .RED ∨ phase = .YELLOW

/-- The loops over the speeds: all in steps from `newSpeed` on, as long as they are in
range. The first argument bounds the steps: none where the bound is too low. -/
def speedsWhile (inRange : K → Bool) (step : K) : ℕ → K → Option (List K)
  | 0, newSpeed => if inRange newSpeed then none else some []
  | steps + 1, newSpeed =>
    if inRange newSpeed then
      (speedsWhile inRange step steps (newSpeed + step)).map (newSpeed :: ·)
    else some []

variable [FloorRing K]

def EndState.node (e : EndState K) : Node := .ofDoubles e.dist e.time (.fin e.speed)

variable (c : FinePathNeighbors L K)

/-- `signalViolation`, none where it never returns. -/
def signalViolation (startDist : K) (endDist : Dbl K) (startTime : K) (endTime : Dbl K)
    (endingSpeed : K) : Option Bool :=
  match c.currentIntersectionIndex startDist with
  | none => some false
  | some currentInt =>
    let distToInt := c.distToIntersection currentInt endDist
    -- a stop slightly past the bar is let through
    if mathRound (.fin endingSpeed) = 0 ∧ distToInt = 0 then some false
    else if distToInt > 0 then some false
    else if (c.stopBar currentInt : K) - startDist < 0 then some false
    else
      let crossing := crossingTime (c.stopBar currentInt) startDist startTime endDist endTime
      (c.phaseAtTime currentInt (crossing - .fin c.timeBuffer)).bind fun early =>
        (c.phaseAtTime currentInt (crossing + .fin c.timeBuffer)).map fun late =>
          isRed early.phase || isRed late.phase

/-- `getViableSpeeds`, none where it never returns. -/
def getViableSpeeds (node : Node) (variableTimeInc : K) : Option (List K) :=
  let curTime : K := node.time
  let curDist : K := node.distance
  let curSpeed : K := node.speed
  let minSpeed := max (curSpeed - c.maxAccel * variableTimeInc) 0
  let maxSpeed := min (curSpeed + c.maxAccel * variableTimeInc) c.speedLimit
  let currentInt := c.currentIntersectionIndex curDist
  -- with no intersection ahead the distance to it is infinite
  let closeTo := currentInt.filter fun index =>
    (c.distToIntersection index (.fin curDist) : K) ≤ c.acceptableStopDist
  let stopped : Option Bool :=
    match closeTo with
    | none => some false
    | some index =>
      (c.phaseAtTime index (.fin (curTime + variableTimeInc - c.timeBuffer))).map fun state =>
        decide (curSpeed < 1 / (10 : ℕ)) && !decide (state.phase = .GREEN)
  stopped.bind fun stopped =>
    if stopped then some [0]
    else
      let first :=
        if closeTo.isSome ∧ minSpeed < 1 / (10 : ℕ) ∧ curSpeed > 1 / (10 : ℕ) then 0
        else max minSpeed c.crawlingSpeed
      let low : K := mathRound (.fin minSpeed)
      let high : K := mathRound (.fin maxSpeed)
      (speedsWhile (fun v => v > low) (-c.speedInc) ⌈(curSpeed - low) / c.speedInc⌉.toNat
        (curSpeed - c.speedInc)).bind fun down =>
        (speedsWhile (fun v => v < high) c.speedInc ⌈(high - curSpeed) / c.speedInc⌉.toNat
          (curSpeed + c.speedInc)).map fun up =>
          first :: ([curSpeed] ++ down ++ up).filter (fun v => v > c.crawlingSpeed) ++ [maxSpeed]

def violates (node : Node) (e : EndState K) : Option Bool :=
  c.signalViolation node.distance e.dist node.time e.time e.speed

def variableTimeInc : K := max c.timeInc c.responseLag

/-- The hop to a speed, and the one that reaches the speed limit as fast as possible. -/
def endsAt (node : Node) (v : K) : List (EndState K) :=
  let curDist : K := node.distance
  let curTime : K := node.time
  let curSpeed : K := node.speed
  let deltaD := c.variableTimeInc * (curSpeed + v) * (1 / (2 : ℕ))
  let plain := ⟨.fin (curDist + deltaD), .fin (curTime + c.variableTimeInc), v⟩
  if v ≥ c.speedLimit then
    let timeToLimit : Dbl K := .fin (c.speedLimit - curSpeed) / .fin c.maxAccel
    let deltaD := timeToLimit * .fin (curSpeed + v) * .fin (1 / (2 : ℕ))
    [plain, ⟨.fin curDist + deltaD, .fin curTime + timeToLimit, v⟩]
  else [plain]

/-- Those of the ends that do not violate a signal. -/
def keepLegal (node : Node) : List (EndState K) → Option (List (EndState K))
  | [] => some []
  | e :: rest =>
    (c.violates node e).bind fun violates =>
      (keepLegal node rest).map fun legal => if violates then legal else e :: legal

/-- All ends that `neighbors` makes nodes of. -/
def legalEnds (node : Node) : Option (List (EndState K)) :=
  (c.getViableSpeeds node c.variableTimeInc).bind fun speeds =>
    c.keepLegal node (speeds.flatMap (c.endsAt node))

def neighbors (node : Node) : Option (List Node) :=
  let curTime : K := node.time
  let curDist : K := node.distance
  let curSpeed : K := node.speed
  let timeToStop : Dbl K := .fin curSpeed / .fin c.maxAccel
  let distToStop := timeToStop * .fin curSpeed * .fin (1 / (2 : ℕ))
  (c.signalViolation curDist (.fin curDist + distToStop) curTime (timeToStop + .fin curTime)
    0).bind fun inevitable =>
    if inevitable then some []
    else
      (c.legalEnds node).map fun ends =>
        let neighbors := ends.map EndState.node
        let neighbors :=
          if neighbors.length = 0 ∧ curSpeed < 1 / (10 : ℕ) then
            [.ofDoubles (.fin curDist) (.fin (curTime + c.variableTimeInc)) (.fin 0)]
          else neighbors
        neighbors.filter fun n => !c.hasConflict node n

/-! ## A path and the bars it crosses -/

/-- A hop of a path: `b` is a neighbor of `a`. -/
def Follows (a b : Node) : Prop := ∃ ns, c.neighbors a = some ns ∧ b ∈ ns

/-- `neighbors` makes a node of this end. -/
def Offers (a : Node) (e : EndState K) : Prop := ∃ ends, c.legalEnds a = some ends ∧ e ∈ ends

/-- When a hop crosses the bar, as `signalViolation` has it. -/
def crossingOf (index : Fin c.intersections.length) (a : Node) (e : EndState K) : Dbl K :=
  crossingTime (c.stopBar index) (a.distance : K) (a.time : K) e.dist e.time

/-- The bar is at the first node or past it, and before the second. -/
def Passes (index : Fin c.intersections.length) (a b : Node) : Prop :=
  (a.distance : K) ≤ bestDTSB c.intersections[index] ∧
    bestDTSB c.intersections[index] < (b.distance : K)

/-- Some hop of the path crosses the bar, at a time that is not near red or yellow. -/
def CrossesOnGreen (path : List Node) (index : Fin c.intersections.length) : Prop :=
  ∃ before a b after e, path = before ++ a :: b :: after ∧ c.Passes index a b ∧
    c.Offers a e ∧ EndState.node e = b ∧ ∃ early late,
      c.phaseAtTime index (c.crossingOf index a e - .fin c.timeBuffer) = some early ∧
      c.phaseAtTime index (c.crossingOf index a e + .fin c.timeBuffer) = some late ∧
      isRed early.phase = false ∧ isRed late.phase = false

/-- A hop crosses no bar but that of the intersection that is current at its start, and no
stop that was let through is rounded past it. -/
def Checked (a b : Node) : Prop :=
  ∀ index, c.Passes index a b → c.currentIntersectionIndex a.distance = some index ∧
      ∀ e, c.Offers a e → EndState.node e = b →
        ¬ (mathRound (.fin e.speed) = 0 ∧ c.distToIntersection index e.dist = 0)

section laws

variable {c}

/-- What is told of a hop that is tested against the bar that it crosses. -/
theorem violates_false [IsStrictOrderedRing K] {a : Node} {e : EndState K} {index : Fin c.intersections.length}
    (h : c.violates a e = some false) (hcurrent : c.currentIntersectionIndex a.distance = some index)
    (hstop : ¬ (mathRound (.fin e.speed) = 0 ∧ c.distToIntersection index e.dist = 0))
    (hreached : c.distToIntersection index e.dist ≤ 0) (hahead : (a.distance : K) ≤ c.stopBar index) :
    ∃ early late,
      c.phaseAtTime index (c.crossingOf index a e - .fin c.timeBuffer) = some early ∧
      c.phaseAtTime index (c.crossingOf index a e + .fin c.timeBuffer) = some late ∧
      isRed early.phase = false ∧ isRed late.phase = false := by
  unfold violates signalViolation at h
  rw [hcurrent] at h
  dsimp only at h
  rw [if_neg hstop, if_neg (not_lt.mpr hreached)] at h
  split at h
  · rename_i hbehind
    exact absurd (sub_neg.mp hbehind) (not_lt.mpr hahead)
  · obtain ⟨early, hearly, h⟩ := Option.bind_eq_some_iff.mp h
    obtain ⟨late, hlate, h⟩ := Option.map_eq_some_iff.mp h
    rw [Bool.or_eq_false_iff] at h
    exact ⟨early, late, hearly, hlate, h⟩

theorem keepLegal_legal {a : Node} {es legal : List (EndState K)}
    (h : c.keepLegal a es = some legal) : ∀ e ∈ legal, c.violates a e = some false := by
  induction es generalizing legal with
  | nil =>
    obtain rfl := Option.some.inj h
    simp
  | cons e es ih =>
    obtain ⟨violates, hviolates, h⟩ := Option.bind_eq_some_iff.mp h
    obtain ⟨rest, hrest, rfl⟩ := Option.map_eq_some_iff.mp h
    cases violates with
    | true => exact ih hrest
    | false =>
      intro e' he'
      rcases List.mem_cons.mp he' with rfl | he'
      · exact hviolates
      · exact ih hrest e' he'

theorem offers_legal {a : Node} {e : EndState K} (h : c.Offers a e) :
    c.violates a e = some false := by
  obtain ⟨ends, hends, he⟩ := h
  obtain ⟨speeds, -, hlegal⟩ := Option.bind_eq_some_iff.mp hends
  exact keepLegal_legal hlegal e he

theorem neighbors_mem [IsStrictOrderedRing K] {a b : Node} (h : c.Follows a b) :
    b.distance = a.distance ∨ ∃ e, c.Offers a e ∧ EndState.node e = b := by
  obtain ⟨ns, hns, hb⟩ := h
  obtain ⟨inevitable, -, hns⟩ := Option.bind_eq_some_iff.mp hns
  split at hns
  · obtain rfl := Option.some.inj hns
    cases hb
  · obtain ⟨ends, hends, rfl⟩ := Option.map_eq_some_iff.mp hns
    have hb := (List.mem_filter.mp hb).1
    split at hb
    · left
      rw [List.mem_singleton.mp hb]
      show ⌊(a.distance : K) + 1 / 2⌋ = a.distance
      rw [Int.floor_intCast_add]
      norm_num
    · right
      obtain ⟨e, he, rfl⟩ := List.mem_map.mp hb
      exact ⟨e, ⟨ends, hends, he⟩, rfl⟩

end laws

omit [Field K] [FloorRing K] in
/-- On the way from a place before a bar to one past it some hop crosses the bar. -/
theorem some_hop_crosses (place : Node → K) {R : Node → Node → Prop} {path : List Node}
    {first last : Node} {bar : K} (hchain : path.IsChain R) (hfirst : path.head? = some first)
    (hlast : path.getLast? = some last) (hahead : place first ≤ bar) (hbehind : bar < place last) :
    ∃ before a b after, path = before ++ a :: b :: after ∧ R a b ∧ place a ≤ bar ∧
      bar < place b := by
  induction path generalizing first with
  | nil => cases hfirst
  | cons a rest ih =>
    obtain rfl : a = first := Option.some.inj hfirst
    cases rest with
    | nil =>
      obtain rfl : a = last := Option.some.inj hlast
      exact absurd hahead (not_le.mpr hbehind)
    | cons b rest =>
      rw [List.isChain_cons_cons] at hchain
      obtain ⟨hab, hrest⟩ := hchain
      by_cases hcross : bar < place b
      · exact ⟨[], a, b, rest, rfl, hab, hahead, hcross⟩
      · rw [List.getLast?_cons_cons] at hlast
        obtain ⟨before, x, y, after, hpath, hxy⟩ := ih hrest rfl hlast (not_lt.mp hcross)
        exact ⟨a :: before, x, y, after, by rw [hpath, List.cons_append], hxy⟩

/-- Where every hop is checked, every bar between the first and the last node is crossed by
a hop that is not near red or yellow. -/
theorem every_bar_is_crossed_on_green_where_hops_are_checked {L K : Type} [Field K] [LinearOrder K]
    [FloorRing K] [IsStrictOrderedRing K] (c : FinePathNeighbors L K) (path : List Node)
    (first last : Node) (hfirst : path.head? = some first) (hlast : path.getLast? = some last)
    (hlong : -2 ^ 63 ≤ first.distance) (hpath : path.IsChain c.Follows)
    (hchecked : path.IsChain c.Checked) (index : Fin c.intersections.length)
    (hahead : (first.distance : K) ≤ bestDTSB c.intersections[index])
    (hbehind : bestDTSB c.intersections[index] < (last.distance : K)) :
    c.CrossesOnGreen path index := by
  have hboth : path.IsChain fun a b => c.Follows a b ∧ c.Checked a b := by
    rw [List.isChain_iff_getElem] at hpath hchecked ⊢
    exact fun i hi => ⟨hpath i hi, hchecked i hi⟩
  obtain ⟨before, a, b, after, hsplit, ⟨hfollows, hcheck⟩, ha, hb⟩ :=
    some_hop_crosses (fun n => (n.distance : K)) hboth hfirst hlast hahead hbehind
  rcases neighbors_mem hfollows with hstay | ⟨e, he, rfl⟩
  · rw [hstay] at hb
    exact absurd ha (not_le.mpr hb)
  · obtain ⟨hcurrent, hstop⟩ := hcheck index ⟨ha, hb⟩
    have hreached := NeighborBase.distToIntersection_nonpos
      (le_trans (Int.cast_le.mpr hlong) hahead) hb
    have hbar : (a.distance : K) ≤ c.stopBar index := Int.cast_le.mpr (NeighborBase.le_stopBar ha)
    have hgreen := violates_false (offers_legal he) hcurrent (hstop e he rfl) hreached hbar
    exact ⟨before, a, _, after, e, hsplit, ⟨ha, hb⟩, he, rfl, hgreen⟩

/-- A light with its bar at a distance, and 20 s left of its phase. -/
def light (id : ℤ) (dtsb : ℚ) (currentPhase : SignalPhase) : IntersectionData ℤ ℚ where
  map := none
  spat := none
  roughDist := .none
  intersectionId := id
  laneId := 1
  dtsb := dtsb
  currentPhase := currentPhase
  timeToNextPhase := 20
  geometry := some ⟨dtsb, 1, 10, fun _ => true⟩
  stopBoxWidth := 10

/-- A calculator with the defaults of the configuration, and nothing in the way. -/
def defaults (timeInc : ℚ) (intersections : List (IntersectionData ℤ ℚ)) :
    FinePathNeighbors ℤ ℚ where
  intersections := intersections
  timeInc := timeInc
  speedInc := 1
  history := []
  maxAccel := 2
  speedLimit := 12
  crawlingSpeed := 2
  timeBuffer := 4
  operSpeed := 10
  hasConflict := fun _ _ => false
  acceptableStopDist := 6
  responseLag := 19 / 10

/-- From 0 to 20 past one green light at 10. -/
theorem a_green_light_is_passed :
    (defaults 2 [light 7 10 .GREEN]).CrossesOnGreen [⟨0, 0, 10⟩, ⟨20, 2, 10⟩] ⟨0, by decide⟩ := by
  apply every_bar_is_crossed_on_green_where_hops_are_checked
    (defaults 2 [light 7 10 .GREEN]) _ ⟨0, 0, 10⟩ ⟨20, 2, 10⟩ rfl rfl (by decide)
  · refine List.isChain_cons_cons.mpr ⟨?_, .singleton _⟩
    exact ⟨[⟨16, 2, 6⟩, ⟨20, 2, 10⟩, ⟨19, 2, 9⟩, ⟨18, 2, 8⟩, ⟨17, 2, 7⟩, ⟨21, 2, 11⟩, ⟨22, 2, 12⟩,
      ⟨11, 1, 12⟩], by decide +kernel, by decide⟩
  · refine List.isChain_cons_cons.mpr ⟨?_, .singleton _⟩
    have hcurrent : ∀ index, (defaults 2 [light 7 10 .GREEN]).currentIntersectionIndex
        ((0 : ℤ) : ℚ) = some index := by
      decide +kernel
    intro index _
    refine ⟨hcurrent index, ?_⟩
    intro e _ hnode hstop
    have hspeed : mathRound (.fin e.speed) = 10 := congrArg Node.speed hnode
    omega
  · decide +kernel
  · decide +kernel

theorem not_crossesOnGreen {c : FinePathNeighbors ℤ ℚ} {a b : Node}
    {index : Fin c.intersections.length}
    (h : ∀ e ∈ (c.legalEnds a).getD [], EndState.node e = b →
      (c.phaseAtTime index (c.crossingOf index a e - .fin c.timeBuffer)).any
        (fun early => isRed early.phase) = true) : ¬ c.CrossesOnGreen [a, b] index := by
  rintro ⟨before, x, y, after, e, hpath, -, ⟨ends, hends, he⟩, hnode, early, -, hearly, -, hred, -⟩
  have hsame : x = a ∧ y = b := by
    cases before with
    | nil =>
      obtain ⟨rfl, hrest⟩ := List.cons.inj hpath
      exact ⟨rfl, (List.cons.inj hrest).1.symm⟩
    | cons z before =>
      have hlength := congrArg List.length hpath
      simp only [List.length_cons, List.length_append, List.length_nil] at hlength
      omega
  obtain ⟨rfl, rfl⟩ := hsame
  have hany := h e (by rw [hends]; exact he) hnode
  rw [hearly, Option.any_some, hred] at hany
  cases hany

/-- The second bar of two in one hop is not looked at, and a stop at 10.85 m is let through
at a bar at 10.4 m and becomes a node at 11 m. -/
theorem a_second_bar_and_a_stop_past_a_bar_are_not_checked :
    (defaults 2 [light 7 10 .GREEN, light 8 14 .RED]).Follows ⟨0, 0, 10⟩ ⟨20, 2, 10⟩ ∧
      (defaults 2 [light 7 10 .GREEN, light 8 14 .RED]).Passes ⟨1, by decide⟩ ⟨0, 0, 10⟩
        ⟨20, 2, 10⟩ ∧
      ¬ (defaults 2 [light 7 10 .GREEN, light 8 14 .RED]).CrossesOnGreen
        [⟨0, 0, 10⟩, ⟨20, 2, 10⟩] ⟨1, by decide⟩ ∧
      (defaults 1 [light 7 (104 / 10) .RED]).Follows ⟨8, 0, 3⟩ ⟨11, 2, 0⟩ ∧
      (defaults 1 [light 7 (104 / 10) .RED]).Passes ⟨0, by decide⟩ ⟨8, 0, 3⟩ ⟨11, 2, 0⟩ ∧
      ¬ (defaults 1 [light 7 (104 / 10) .RED]).CrossesOnGreen [⟨8, 0, 3⟩, ⟨11, 2, 0⟩]
        ⟨0, by decide⟩ := by
  refine ⟨⟨[⟨16, 2, 6⟩, ⟨20, 2, 10⟩, ⟨19, 2, 9⟩, ⟨18, 2, 8⟩, ⟨17, 2, 7⟩, ⟨21, 2, 11⟩, ⟨22, 2, 12⟩,
    ⟨11, 1, 12⟩], by decide +kernel, by decide⟩, ⟨by decide +kernel, by decide +kernel⟩, ?_,
    ⟨[⟨11, 2, 0⟩], by decide +kernel, by decide⟩, ⟨by decide +kernel, by decide +kernel⟩, ?_⟩
  · apply not_crossesOnGreen
    decide +kernel
  · apply not_crossesOnGreen
    decide +kernel

end FinePathNeighbors

end carma.trajectory_tree
