-- Where the nodes of a coarse path are: at the bars of the list one after the other, or 5 m
-- before one where a stop has a conflict, and which of them detailed planning aims at.
import Carma.CoarsePathNeighbors

open lib.exact_double
open carma.ead

namespace carma.trajectory_tree

namespace CoarsePathNeighbors

variable {L K : Type} [Field K] [LinearOrder K] [FloorRing K] {c : CoarsePathNeighbors L K}

/-- A hop of a coarse path. -/
def Follows (c : CoarsePathNeighbors L K) (steps : ℕ) (a b : Node) : Prop :=
  ∃ ns, c.neighbors steps a = some ns ∧ b ∈ ns

theorem follows_iff {steps : ℕ} {a b : Node} :
    c.Follows steps a b ↔ b ∈ (c.neighbors steps a).getD [] := by
  unfold Follows
  cases c.neighbors steps a with
  | none => simp
  | some ns => simp

instance (steps : ℕ) (a b : Node) : Decidable (c.Follows steps a b) :=
  decidable_of_iff _ follows_iff.symm

/-- From this node the vehicle has to stop at the next light, and the stop has a conflict. -/
def stopsShort (c : CoarsePathNeighbors L K) (steps : ℕ) (node : Node) : Bool :=
  match c.nextIntersection (node.distance : K) with
  | none => false
  | some (index, distToNext) =>
    match c.approach steps node index distToNext with
    | none => false
    | some (found, timeOfNextGreen) =>
      found.length = 0 && c.hasConflict node
        (.ofDoubles (.fin ((node.distance : K) + distToNext)) timeOfNextGreen (.fin 0))

/-- How far before the next bar the neighbors of a node are. -/
def back (c : CoarsePathNeighbors L K) (steps : ℕ) (node : Node) : ℤ :=
  if c.stopsShort steps node then 5 else 0

/-! ## Where the neighbors are -/

section places

variable [IsStrictOrderedRing K]

theorem mathRound_intCast (d : ℤ) : mathRound (.fin (d : K)) = d := by
  show ⌊(d : K) + 1 / 2⌋ = d
  rw [Int.floor_intCast_add]
  norm_num

theorem sliceGreen_distance {node : Node} {distToNext : ℤ} {greenExpiration : Dbl K} {steps : ℕ}
    {intermediateNode : Option Node} {nodeTime nodeSpeed : Dbl K} {found : List Node}
    (h : c.sliceGreen node distToNext greenExpiration steps intermediateNode nodeTime nodeSpeed =
      some found) : ∀ n ∈ found, n.distance = node.distance + distToNext := by
  induction steps generalizing intermediateNode nodeTime nodeSpeed found with
  | zero => cases h
  | succ steps ih =>
    have hplace : mathRound (.fin ((node.distance : K) + distToNext)) =
        node.distance + distToNext := by
      exact_mod_cast mathRound_intCast (K := K) (node.distance + distToNext)
    have hfirst : ∀ (free : Bool) n, n ∈ (if free then [Node.ofDoubles
        (.fin ((node.distance : K) + distToNext)) nodeTime nodeSpeed] else []) →
        n.distance = node.distance + distToNext := by
      intro free n hn
      cases free with
      | false => cases hn
      | true =>
        rw [List.mem_singleton.mp hn]
        exact hplace
    unfold sliceGreen at h
    dsimp only at h
    split at h
    · obtain ⟨rest, hrest, rfl⟩ := Option.map_eq_some_iff.mp h
      intro n hn
      rcases List.mem_append.mp hn with hn | hn
      · exact hfirst _ n hn
      · exact ih hrest n hn
    · obtain rfl := Option.some.inj h
      exact hfirst _

theorem slices_distance {p : Prop} [Decidable p] {node : Node} {distToNext : ℤ}
    {greenExpiration : Dbl K} {steps : ℕ} {intermediateNode : Option Node}
    {nodeTime nodeSpeed : Dbl K} {found : List Node}
    (h : (if p then c.sliceGreen node distToNext greenExpiration steps intermediateNode nodeTime
      nodeSpeed else some []) = some found) :
    ∀ n ∈ found, n.distance = node.distance + distToNext := by
  by_cases hp : p
  · rw [if_pos hp] at h
    exact sliceGreen_distance h
  · rw [if_neg hp] at h
    obtain rfl := Option.some.inj h
    simp

theorem approach_distance {steps : ℕ} {node : Node} {index : Fin c.intersections.length}
    {distToNext : ℤ} {found : List Node} {timeOfNextGreen : Dbl K}
    (h : c.approach steps node index distToNext = some (found, timeOfNextGreen)) :
    ∀ n ∈ found, n.distance = node.distance + distToNext := by
  obtain ⟨⟨a, state, validGreen⟩, -, h⟩ := Option.bind_eq_some_iff.mp h
  obtain ⟨onGreen, honGreen, h⟩ := Option.bind_eq_some_iff.mp h
  obtain ⟨greenBegin, -, h⟩ := Option.bind_eq_some_iff.mp h
  obtain ⟨green, -, h⟩ := Option.bind_eq_some_iff.mp h
  obtain ⟨onNextGreen, honNextGreen, h⟩ := Option.map_eq_some_iff.mp h
  obtain ⟨rfl, -⟩ := Prod.mk.inj h
  intro n hn
  rcases List.mem_append.mp hn with hn | hn
  · exact slices_distance honGreen n hn
  · exact slices_distance honNextGreen n hn

omit [IsStrictOrderedRing K] in
theorem stopsShort_eq {steps : ℕ} {node : Node} {index : Fin c.intersections.length}
    {distToNext : ℤ} {found : List Node} {timeOfNextGreen : Dbl K}
    (hnext : c.nextIntersection (node.distance : K) = some (index, distToNext))
    (happroach : c.approach steps node index distToNext = some (found, timeOfNextGreen)) :
    c.stopsShort steps node = (found.length = 0 && c.hasConflict node
      (.ofDoubles (.fin ((node.distance : K) + distToNext)) timeOfNextGreen (.fin 0))) := by
  unfold stopsShort
  rw [hnext]
  dsimp only
  rw [happroach]

/-- A neighbor is at the next bar, or 5 m before it where a stop has a conflict. -/
theorem follows_distance {steps : ℕ} {a b : Node} {index : Fin c.intersections.length}
    {distToNext : ℤ} (h : c.Follows steps a b)
    (hnext : c.nextIntersection (a.distance : K) = some (index, distToNext)) :
    b.distance = a.distance + distToNext - c.back steps a := by
  obtain ⟨ns, hns, hb⟩ := h
  unfold neighbors at hns
  rw [hnext] at hns
  obtain ⟨⟨found, timeOfNextGreen⟩, happroach, rfl⟩ := Option.map_eq_some_iff.mp hns
  dsimp only at hb
  unfold back
  rw [stopsShort_eq hnext happroach]
  have hplace : mathRound (.fin ((a.distance : K) + distToNext)) = a.distance + distToNext := by
    exact_mod_cast mathRound_intCast (K := K) (a.distance + distToNext)
  have hbefore : mathRound (.fin ((a.distance : K) + distToNext - 5)) =
      a.distance + distToNext - 5 := by
    exact_mod_cast mathRound_intCast (K := K) (a.distance + distToNext - 5)
  by_cases hfound : found.length = 0
  · rw [if_pos hfound] at hb
    split at hb
    · rename_i hconflict
      rw [List.mem_singleton.mp hb]
      rw [if_pos (by simp [hfound, hconflict])]
      exact hbefore
    · rename_i hconflict
      rw [List.mem_singleton.mp hb]
      rw [if_neg (by simp [hconflict]), sub_zero]
      exact hplace
  · rw [if_neg hfound] at hb
    simpa [hfound] using approach_distance happroach b hb

omit [IsStrictOrderedRing K] in
theorem follows_exit {steps : ℕ} {a b : Node} (h : c.Follows steps a b)
    (hnext : c.nextIntersection (a.distance : K) = none) : b = c.exitNode a := by
  obtain ⟨ns, hns, hb⟩ := h
  unfold neighbors at hns
  rw [hnext] at hns
  obtain rfl := Option.some.inj hns
  split at hb
  · exact List.mem_singleton.mp hb
  · cases hb

/-! ## The first two hops -/

theorem nextIntersection_start (hn : 0 < c.intersections.length) {d : ℤ}
    (h : d + 1 ≤ c.stopBar ⟨0, hn⟩) :
    c.nextIntersection (d : K) = some (⟨0, hn⟩, c.stopBar ⟨0, hn⟩ - d) := by
  unfold nextIntersection
  rw [NeighborBase.currentIntersectionIndex_head hn (by omega)]
  dsimp only
  rw [NeighborBase.distToIntersection_node, if_neg (by omega)]

/-- At the first bar the second intersection of the list is next, if there is one. -/
theorem nextIntersection_at_bar (hn : 0 < c.intersections.length) :
    c.nextIntersection ((c.stopBar ⟨0, hn⟩ : ℤ) : K) =
      if h : 1 < c.intersections.length then
        some (⟨1, h⟩, c.stopBar ⟨1, h⟩ - c.stopBar ⟨0, hn⟩)
      else none := by
  unfold nextIntersection
  rw [NeighborBase.currentIntersectionIndex_head hn le_rfl]
  dsimp only
  rw [NeighborBase.distToIntersection_node, if_pos (by omega)]
  by_cases h : 1 < c.intersections.length
  · rw [dif_pos h, dif_pos (by omega)]
    simp only [NeighborBase.distToIntersection_node, Nat.zero_add]
  · rw [dif_neg h, dif_neg (by omega)]

theorem exitNode_distance {node : Node} (haccel : c.maxAccel ≠ 0) :
    node.distance + 40 ≤ (c.exitNode node).distance := by
  have hfractional : c.maxAccel * (3 / 4) ≠ 0 := by
    apply mul_ne_zero haccel
    norm_num
  have hfar : ∀ x : K, 40 ≤ x → node.distance + 40 ≤ mathRound (.fin ((node.distance : K) + x)) := by
    intro x hx
    show node.distance + 40 ≤ ⌊(node.distance : K) + x + 1 / 2⌋
    rw [Int.le_floor]
    push_cast
    linarith
  unfold exitNode
  simp only [Nat.cast_ofNat]
  rw [Dbl.fin_div _ hfractional, Dbl.fin_mul, Dbl.fin_mul, Dbl.fin_mul, Dbl.fin_add, Dbl.lt_fin]
  by_cases hshort : (node.speed : K) * (c.deltaSpeed node / (c.maxAccel * (3 / 4))) +
      1 / 2 * (c.maxAccel * (3 / 4)) * (c.deltaSpeed node / (c.maxAccel * (3 / 4))) *
        (c.deltaSpeed node / (c.maxAccel * (3 / 4))) < 40
  · rw [decide_eq_true hshort, if_pos rfl, if_pos rfl]
    exact hfar 40 le_rfl
  · rw [decide_eq_false hshort, if_neg Bool.false_ne_true, if_neg Bool.false_ne_true]
    exact hfar _ (not_lt.mp hshort)

theorem exitNode_nowhere {node : Node} (haccel : c.maxAccel = 0) :
    (c.exitNode node).distance = 0 := by
  have hnan : ∀ x : Dbl K, x = .nan ∨ x = .inf false →
      .fin (node.speed : K) * x + .fin (1 / 2 * (c.maxAccel * (3 / 4))) * x * x = .nan := by
    intro x hx
    rw [haccel, zero_mul, mul_zero]
    rcases hx with rfl | rfl
    · rfl
    · show Dbl.add (Dbl.mul (.fin (node.speed : K)) (.inf false))
        (Dbl.mul (Dbl.mul (.fin 0) (.inf false)) (.inf false)) = .nan
      simp only [Dbl.mul, if_true]
      generalize (if (node.speed : K) = 0 then (.nan : Dbl K)
        else .inf (decide ((node.speed : K) < 0) ^^ false)) = x
      cases x <;> rfl
  have htime : (.fin (c.deltaSpeed node) / .fin (c.maxAccel * (3 / 4)) : Dbl K) = .nan ∨
      (.fin (c.deltaSpeed node) / .fin (c.maxAccel * (3 / 4)) : Dbl K) = .inf false := by
    rw [haccel, zero_mul]
    rcases (abs_nonneg (c.operSpeed - node.speed)).eq_or_lt with hzero | hpos
    · left
      show Dbl.div (.fin |c.operSpeed - node.speed|) (.fin 0) = .nan
      rw [← hzero]
      simp [Dbl.div]
    · exact Or.inr (Dbl.fin_div_zero hpos)
  unfold exitNode
  simp only [Nat.cast_ofNat]
  rw [hnan _ htime]
  rfl

/-- Whether the third node is past the bar at `near`: two hops that reach their bars come
to the second intersection of the list, or past the only one. -/
def PastTheLight (c : CoarsePathNeighbors L K) (steps : ℕ) (near : K) (start n1 : Node)
    (hn : 0 < c.intersections.length) : Prop :=
  if c.stopsShort steps start then near < ((c.stopBar ⟨0, hn⟩ - c.back steps n1 : ℤ) : K)
  else if h : 1 < c.intersections.length then
    near < ((c.stopBar ⟨1, h⟩ - c.back steps n1 : ℤ) : K)
  else c.maxAccel ≠ 0 ∨ near < 0

omit [IsStrictOrderedRing K] in
theorem planCoarsePath_third {solve : Node → List Node} {start n1 n2 fineGoal : Node}
    {rest : List Node} (hsolve : ∀ goal, solve goal = start :: n1 :: n2 :: rest)
    (h : c.planCoarsePath solve = some fineGoal) : fineGoal = n2 := by
  unfold planCoarsePath at h
  dsimp only at h
  split at h
  · cases h
  · rw [hsolve, if_neg (by simp)] at h
    exact (Option.some.inj h).symm

theorem bar_ge {near : Fin c.intersections.length} {d : ℤ}
    (hnear : ∀ i ∈ c.intersections, bestDTSB c.intersections[near] ≤ bestDTSB i)
    (hstart : (d : K) + 1 ≤ bestDTSB c.intersections[near]) (index : Fin c.intersections.length) :
    d + 1 ≤ c.stopBar index := by
  have hle := hnear _ (List.getElem_mem index.isLt)
  rw [NeighborBase.stopBar_eq, Int.le_floor]
  push_cast
  have : bestDTSB c.intersections[near] ≤ bestDTSB c.intersections[index] := hle
  linarith

/-- The node that detailed planning aims at is past the nearest bar just when the first hop
reaches its bar and the second one a bar that is farther, or there is only one. -/
theorem the_fine_goal_is_past_the_light_just_when_hops_reach_their_bars (c : CoarsePathNeighbors L K)
    (steps : ℕ) (solve : Node → List Node) (start n1 n2 fineGoal : Node) (rest : List Node)
    (near : Fin c.intersections.length)
    (hnear : ∀ i ∈ c.intersections, bestDTSB c.intersections[near] ≤ bestDTSB i)
    (hstart : (start.distance : K) + 1 ≤ bestDTSB c.intersections[near])
    (hpath : (start :: n1 :: n2 :: rest).IsChain (c.Follows steps))
    (hsolve : ∀ goal, solve goal = start :: n1 :: n2 :: rest)
    (hplan : c.planCoarsePath solve = some fineGoal) :
    bestDTSB c.intersections[near] < (fineGoal.distance : K) ↔
      c.PastTheLight steps (bestDTSB c.intersections[near]) start n1
        (Nat.lt_of_le_of_lt (Nat.zero_le _) near.isLt) := by
  have hn : 0 < c.intersections.length := Nat.lt_of_le_of_lt (Nat.zero_le _) near.isLt
  rw [planCoarsePath_third hsolve hplan]
  rw [List.isChain_cons_cons, List.isChain_cons_cons] at hpath
  obtain ⟨hfirst, hsecond, -⟩ := hpath
  have h1 := follows_distance hfirst (nextIntersection_start hn (bar_ge hnear hstart _))
  unfold PastTheLight
  by_cases hshort : c.stopsShort steps start
  · -- the next bar is still the first one
    rw [if_pos hshort]
    have hn1 : n1.distance = c.stopBar ⟨0, hn⟩ - 5 := by
      rw [h1, back, if_pos hshort]
      ring
    have h2 := follows_distance hsecond (nextIntersection_start hn (by omega))
    rw [h2]
    congr! 2
    ring
  · rw [if_neg hshort]
    have hn1 : n1.distance = c.stopBar ⟨0, hn⟩ := by
      rw [h1, back, if_neg hshort]
      ring
    have hnext := nextIntersection_at_bar (c := c) hn
    rw [← hn1] at hnext
    by_cases h : 1 < c.intersections.length
    · rw [dif_pos h] at hnext ⊢
      rw [follows_distance hsecond hnext, hn1]
      congr! 2
      ring
    · rw [dif_neg h] at hnext ⊢
      rw [follows_exit hsecond hnext]
      by_cases haccel : c.maxAccel = 0
      · rw [exitNode_nowhere haccel, Int.cast_zero]
        exact ⟨Or.inr, fun h => h.resolve_left (not_not.mpr haccel)⟩
      · refine iff_of_true ?_ (Or.inl haccel)
        have hfirst : bestDTSB c.intersections[near] ≤ bestDTSB c.intersections[0] :=
          hnear _ (List.getElem_mem hn)
        have hexit : n1.distance + 40 ≤ (c.exitNode n1).distance := exitNode_distance haccel
        have hbar : bestDTSB c.intersections[0] + 1 / 2 < (c.stopBar ⟨0, hn⟩ : K) + 1 := by
          rw [NeighborBase.stopBar_eq]
          exact Int.lt_floor_add_one _
        rw [hn1] at hexit
        have hexit' : (c.stopBar ⟨0, hn⟩ : K) + 40 ≤ ((c.exitNode n1).distance : K) := by
          exact_mod_cast hexit
        linarith

end places

/-- A red light with its bar at a distance, and 20 s left. -/
def redLight (id : ℤ) (dtsb : ℚ) : IntersectionData ℤ ℚ where
  map := some ⟨id, 0, fun _ => none⟩
  spat := none
  roughDist := .none
  intersectionId := id
  laneId := 1
  dtsb := dtsb
  currentPhase := .RED
  timeToNextPhase := 20
  geometry := some ⟨dtsb, 1, 10, fun _ => true⟩
  stopBoxWidth := 10

/-- The square root of a whole number, rounded down. -/
def natRoot (n : ℕ) : ℕ :=
  (List.range n).findIdx fun k => n < (k + 1) * (k + 1)

/-- The square root where that is a fraction too. -/
def squareRoot : Dbl ℚ → Dbl ℚ
  | .fin x => .fin (natRoot x.num.toNat / natRoot x.den)
  | x => x

/-- A calculator for one red light at 100. -/
def oneLight (hasConflict : Node → Node → Bool) : CoarsePathNeighbors ℤ ℚ where
  intersections := [redLight 7 100]
  timeInc := 5
  speedInc := 3
  history := [⟨7, 0, 0, 20⟩]
  maxAccel := 5 / 2
  speedLimit := 12
  crawlingSpeed := 2
  timeBuffer := 4
  operSpeed := 10
  hasConflict := hasConflict
  lagTime := 19 / 10
  sqrt := squareRoot

/-- On an empty road the stop is at the bar, and the next node 40 m past it. -/
theorem a_stop_at_the_bar_is_followed_by_the_exit :
    bestDTSB (redLight 7 100) < (((⟨140, 31, 10⟩ : Node).distance : ℤ) : ℚ) := by
  apply (the_fine_goal_is_past_the_light_just_when_hops_reach_their_bars
    (oneLight fun _ _ => false) 10 (fun _ => [⟨0, 0, 10⟩, ⟨100, 24, 0⟩, ⟨140, 31, 10⟩, ⟨180, 35, 10⟩,
      ⟨220, 39, 10⟩]) ⟨0, 0, 10⟩ ⟨100, 24, 0⟩ ⟨140, 31, 10⟩ ⟨140, 31, 10⟩
    [⟨180, 35, 10⟩, ⟨220, 39, 10⟩] ⟨0, by decide⟩ (by decide +kernel) (by decide +kernel)
    (by decide +kernel) (fun _ => rfl) (by decide +kernel)).mpr
  have hshort : (oneLight fun _ _ => false).stopsShort 10 ⟨0, 0, 10⟩ = false := by decide +kernel
  unfold PastTheLight
  rw [hshort, if_neg Bool.false_ne_true, dif_neg (by decide)]
  left
  decide +kernel

/-- While a vehicle waits at the bar the stop is 5 m before it, and the third node of the path
is at the bar itself. -/
theorem the_third_node_is_at_the_bar_after_a_stop_before_it :
    ¬ ∀ (c : CoarsePathNeighbors ℤ ℚ) (steps : ℕ) (solve : Node → List Node)
      (start fineGoal : Node) (rest : List Node) (near : Fin c.intersections.length),
      (∀ i ∈ c.intersections, i.map.isSome) →
      (∀ i ∈ c.intersections, bestDTSB c.intersections[near] ≤ bestDTSB i) →
      (start.distance : ℚ) + 1 ≤ bestDTSB c.intersections[near] →
      (start :: rest).IsChain (c.Follows steps) →
      (∀ goal, solve goal = start :: rest) →
      c.planCoarsePath solve = some fineGoal →
      bestDTSB c.intersections[near] < (fineGoal.distance : ℚ) := by
  intro h
  have hpast := h (oneLight fun _ b => b.distance = 100 && b.time < 25) 10
    (fun _ => [⟨0, 0, 10⟩, ⟨95, 24, 0⟩, ⟨100, 28, 5⟩, ⟨140, 33, 10⟩, ⟨180, 37, 10⟩, ⟨220, 41, 10⟩])
    ⟨0, 0, 10⟩ ⟨100, 28, 5⟩
    [⟨95, 24, 0⟩, ⟨100, 28, 5⟩, ⟨140, 33, 10⟩, ⟨180, 37, 10⟩, ⟨220, 41, 10⟩] ⟨0, by decide⟩
    (by decide +kernel) (by decide +kernel) (by decide +kernel) (by decide +kernel) (fun _ => rfl)
    (by decide +kernel)
  revert hpast
  decide +kernel

end CoarsePathNeighbors

end carma.trajectory_tree
