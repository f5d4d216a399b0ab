-- `NeighborBase.java`, and `Node.java` where it rounds: what both neighbor calculators of
-- the signal planner know of the intersections ahead. A stop bar is at a distance from the
-- start of the plan, and a light is followed through its cycle from what is known now.
import Carma.AStarSolver
import Carma.EadIntersectionManager
import Mathlib.Algebra.Order.Floor.Ring
import Mathlib.Data.List.FinRange
import Mathlib.Tactic.Linarith

open lib.exact_double
open carma.ead

namespace carma.trajectory_tree

variable {L K : Type} [Field K] [LinearOrder K]

/-! ## Rounding -/

section rounding

variable [FloorRing K]

/-- `Math.round`: to the nearest whole number, halves up. NaN gives zero, and an infinity
the end of the range. -/
def mathRound : Dbl K → ℤ
  | .fin x => ⌊x + 1 / (2 : ℕ)⌋
  | .inf neg => if neg then -2 ^ 63 else 2 ^ 63 - 1
  | .nan => 0

/-- `new Node(distance, time, speed)` with real-world units. -/
def Node.ofDoubles (distance time speed : Dbl K) : Node :=
  ⟨mathRound distance, mathRound time, mathRound speed⟩

end rounding

/-! ## The lights -/

/-- `bestDTSB()`: the distance to the stop bar, or the rough one in place of it. -/
def bestDTSB (i : IntersectionData L K) : K :=
  match i.geometry with
  | none => 1 / (100 : ℕ) * (i.roughDist.value : K)
  | some _ => i.dtsb

/-- How long the phases of a light were known to be left. -/
structure IntersectionHistory (K : Type) where
  id : ℤ
  longestGreen : K
  longestYellow : K
  longestRed : K

structure SignalState (K : Type) where
  phase : SignalPhase
  timeRemaining : Dbl K

structure NeighborBase (L K : Type) where
  intersections : List (IntersectionData L K)
  timeInc : K
  speedInc : K
  history : List (IntersectionHistory K)
  maxAccel : K
  speedLimit : K
  crawlingSpeed : K
  timeBuffer : K
  operSpeed : K
  -- the collision checker, asked for two nodes
  hasConflict : Node → Node → Bool

omit [Field K] in
def updateHistory (i : IntersectionData L K) (h : IntersectionHistory K) : IntersectionHistory K :=
  match i.currentPhase with
  | .GREEN => { h with longestGreen := max h.longestGreen i.timeToNextPhase }
  | .YELLOW => { h with longestYellow := max h.longestYellow i.timeToNextPhase }
  | .RED => { h with longestRed := max h.longestRed i.timeToNextPhase }
  | .NONE => h

/-- What `initialize` does with one intersection: the first record with its id is updated,
and a new one is added where there is none. -/
def recordPhase (i : IntersectionData L K) : List (IntersectionHistory K) → List (IntersectionHistory K)
  | [] => [updateHistory i ⟨i.intersectionId, 0, 0, 0⟩]
  | h :: rest =>
    if i.intersectionId = h.id then updateHistory i h :: rest else h :: recordPhase i rest

namespace NeighborBase

/-- `initialize`, as far as the history goes. -/
def learn (b : NeighborBase L K) : NeighborBase L K :=
  { b with history := b.intersections.foldl (fun history i => recordPhase i history) b.history }

def getHistoricalData (b : NeighborBase L K) (index : Fin b.intersections.length) :
    Option (IntersectionHistory K) :=
  b.history.find? fun h => h.id = b.intersections[index].intersectionId

/-- `phaseDuration`, with the record of the light. -/
def phaseDuration (h : IntersectionHistory K) : SignalPhase → K
  | .GREEN => max h.longestGreen (27 : ℕ)
  | .YELLOW => max h.longestYellow (3 : ℕ)
  | .RED => max h.longestRed (30 : ℕ)
  | .NONE => -1

/-- `phase.next()`, and once more if that is `NONE`. -/
def nextPhase (phase : SignalPhase) : SignalPhase :=
  if phase.next = .NONE then phase.next.next else phase.next

/-- The loop of `phaseAtTime`. The first argument bounds the rounds: none where the bound is
too low. -/
def followCycle (h : IntersectionHistory K) (futureTime : Dbl K) :
    ℕ → SignalPhase → K → Option (SignalPhase × K)
  | 0, _, _ => none
  | rounds + 1, phase, cycleTime =>
    let phase := nextPhase phase
    let cycleTime := cycleTime + phaseDuration h phase
    if Dbl.lt (.fin cycleTime) futureTime then followCycle h futureTime rounds phase cycleTime
    else some (phase, cycleTime)

variable [FloorRing K]

/-- The rounds that are enough, as a phase takes 3 s or more (`followCycle_isSome`). To an
infinite time the loop never comes, and to one that is NaN it takes one round. -/
def roundsTo (cycleTime : K) : Dbl K → ℕ
  | .fin t => ⌈(t - cycleTime) / 3⌉.toNat + 1
  | _ => 1

/-- `phaseAtTime`, none where it never returns. -/
def phaseAtTime (b : NeighborBase L K) (index : Fin b.intersections.length) (futureTime : Dbl K) :
    Option (SignalState K) :=
  let i := b.intersections[index]
  if futureTime.le (.fin i.timeToNextPhase) then
    some ⟨i.currentPhase, .fin i.timeToNextPhase - futureTime⟩
  else
    match b.getHistoricalData index with
    | none => some ⟨i.currentPhase, .fin i.timeToNextPhase - futureTime⟩
    | some h =>
      (followCycle h futureTime (roundsTo i.timeToNextPhase futureTime) i.currentPhase
        i.timeToNextPhase).map fun (phase, cycleTime) => ⟨phase, .fin cycleTime - futureTime⟩

/-! ## The stop bars -/

/-- `distToIntersection`, in whole meters as it is rounded to. -/
def distToIntersection (b : NeighborBase L K) (index : Fin b.intersections.length)
    (startLoc : Dbl K) : ℤ :=
  mathRound (.fin (bestDTSB b.intersections[index]) - startLoc)

/-- `currentIntersectionIndex`: the first intersection of the list whose stop bar is not
behind. -/
def currentIntersectionIndex (b : NeighborBase L K) (dist : K) :
    Option (Fin b.intersections.length) :=
  (List.finRange b.intersections.length).find? fun index => 0 ≤ b.distToIntersection index (.fin dist)

/-- Where the stop bar is, in whole meters from the start of the plan. -/
def stopBar (b : NeighborBase L K) (index : Fin b.intersections.length) : ℤ :=
  b.distToIntersection index (.fin 0)

/-! ## What they say -/

section laws

variable {b : NeighborBase L K}

theorem stopBar_eq (index : Fin b.intersections.length) :
    b.stopBar index = ⌊bestDTSB b.intersections[index] + 1 / 2⌋ := by
  unfold stopBar distToIntersection
  rw [Dbl.fin_sub, sub_zero]
  rfl

variable [IsStrictOrderedRing K]

omit [FloorRing K] in
theorem phaseDuration_ge (h : IntersectionHistory K) {phase : SignalPhase} (hne : phase ≠ .NONE) :
    3 ≤ phaseDuration h phase := by
  cases phase with
  | GREEN => exact le_trans (by norm_num) (le_max_right _ _)
  | YELLOW => exact le_max_right _ _
  | RED => exact le_trans (by norm_num) (le_max_right _ _)
  | NONE => exact absurd rfl hne

theorem nextPhase_ne (phase : SignalPhase) : nextPhase phase ≠ .NONE := by
  cases phase <;> decide

omit [FloorRing K] in
theorem followCycle_isSome (h : IntersectionHistory K) {t : K} {rounds : ℕ} {phase : SignalPhase}
    {cycleTime : K} (hrounds : t ≤ cycleTime + 3 * rounds) (hpos : 0 < rounds) :
    (followCycle h (.fin t) rounds phase cycleTime).isSome := by
  induction rounds generalizing phase cycleTime with
  | zero => exact absurd hpos (lt_irrefl 0)
  | succ rounds ih =>
    unfold followCycle
    dsimp only
    split
    · rename_i hlt
      rw [Dbl.lt_fin, decide_eq_true_eq] at hlt
      have hge := phaseDuration_ge h (nextPhase_ne phase)
      push_cast at hrounds
      apply ih
      · linarith
      · rcases Nat.eq_zero_or_pos rounds with hzero | hpos'
        · rw [hzero, Nat.cast_zero] at hrounds
          linarith
        · exact hpos'
    · rfl

/-- For every number the loop comes to an end. -/
theorem phaseAtTime_isSome (index : Fin b.intersections.length) (t : K) :
    (b.phaseAtTime index (.fin t)).isSome := by
  unfold phaseAtTime
  dsimp only
  split
  · rfl
  · split
    · rfl
    · rename_i h _
      rw [Option.isSome_map]
      apply followCycle_isSome
      · unfold roundsTo
        have hceil := Int.le_ceil ((t - b.intersections[index].timeToNextPhase) / 3)
        have hnat : ((⌈(t - b.intersections[index].timeToNextPhase) / 3⌉ : ℤ) : K) ≤
            ((⌈(t - b.intersections[index].timeToNextPhase) / 3⌉.toNat : ℕ) : K) := by
          exact_mod_cast Int.self_le_toNat _
        push_cast
        linarith
      · exact Nat.succ_pos _

theorem distToIntersection_node (index : Fin b.intersections.length) (d : ℤ) :
    b.distToIntersection index (.fin (d : K)) = b.stopBar index - d := by
  rw [stopBar_eq]
  unfold distToIntersection
  rw [Dbl.fin_sub]
  show ⌊_ - (d : K) + 1 / 2⌋ = _
  rw [sub_add_eq_add_sub, Int.floor_sub_intCast]

theorem finRange_head {n : ℕ} (hn : 0 < n) : ∃ rest, List.finRange n = ⟨0, hn⟩ :: rest := by
  obtain ⟨n, rfl⟩ := Nat.exists_eq_succ_of_ne_zero (Nat.ne_of_gt hn)
  exact ⟨_, List.finRange_succ⟩

theorem currentIntersectionIndex_head (hn : 0 < b.intersections.length) {d : ℤ}
    (h : d ≤ b.stopBar ⟨0, hn⟩) : b.currentIntersectionIndex (d : K) = some ⟨0, hn⟩ := by
  obtain ⟨rest, hrest⟩ := finRange_head hn
  unfold currentIntersectionIndex
  rw [hrest]
  apply List.find?_cons_of_pos
  rw [distToIntersection_node, decide_eq_true_eq]
  omega

/-- From a place that is rounded past the bar nothing is left to it. -/
theorem distToIntersection_nonpos {index : Fin b.intersections.length} {x : Dbl K}
    (hlong : ((-2 ^ 63 : ℤ) : K) ≤ bestDTSB b.intersections[index])
    (h : bestDTSB b.intersections[index] < ((mathRound x : ℤ) : K)) :
    b.distToIntersection index x ≤ 0 := by
  cases x with
  | fin x =>
    unfold distToIntersection
    rw [Dbl.fin_sub]
    change bestDTSB b.intersections[index] < (⌊x + 1 / (2 : ℕ)⌋ : K) at h
    show ⌊bestDTSB b.intersections[index] - x + 1 / 2⌋ ≤ 0
    have hhigh := Int.floor_le (x + 1 / (2 : ℕ))
    rw [Int.floor_le_iff]
    push_cast at *
    linarith
  | inf neg =>
    cases neg with
    | false => exact neg_nonpos.mpr (by positivity : (0 : ℤ) ≤ 2 ^ 63)
    | true => exact absurd h (not_lt.mpr hlong)
  | nan => exact le_rfl

theorem le_stopBar {index : Fin b.intersections.length} {d : ℤ}
    (h : (d : K) ≤ bestDTSB b.intersections[index]) : d ≤ b.stopBar index := by
  rw [stopBar_eq, Int.le_floor]
  linarith

end laws

end NeighborBase

end carma.trajectory_tree
