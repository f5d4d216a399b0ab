-- When and how fast a vehicle comes to the next light on a coarse plan: at the earliest, speeding up
-- to the operating speed, and later, with a steady change of speed up to the bar.
import Carma.FineHops
import Carma.LightSchedule
import Carma.PlanInterpolator

open lib.exact_double
open carma.ead
open carma.plan_interpolator (mathSqrt)

namespace carma.trajectory_tree

namespace CoarsePathNeighbors

variable {L : Type} (c : CoarsePathNeighbors L ℝ) (node : Node) (d : ℤ)

/-- The way to the bar that is left once the vehicle responds. -/
noncomputable def room : ℝ := d - c.lagDist node

/-- When the vehicle responds. -/
noncomputable def responds : ℝ := node.time + c.lagTime

noncomputable def wayToOperSpeed : ℝ :=
  let time := c.deltaSpeed node / c.maxAccel
  let dist := node.speed * time + 1 / (2 : ℕ) * c.maxAccel * time * time
  if c.deltaSpeed node > 1 then dist + c.lagDist node else dist

noncomputable def barSpeed : ℝ :=
  if (d : ℝ) < c.wayToOperSpeed node then
    Real.sqrt (node.speed * node.speed + (2 : ℕ) * c.maxAccel * max (c.room node d) 0)
  else c.operSpeed

noncomputable def barTime : ℝ :=
  (if c.deltaSpeed node > 1 then c.responds node else node.time) +
    if (d : ℝ) < c.wayToOperSpeed node then (c.barSpeed node d - node.speed) / c.maxAccel
    else c.deltaSpeed node / c.maxAccel + (d - c.wayToOperSpeed node) / c.operSpeed

/-- The speed at the bar for a steady change of speed from the response until some time. -/
noncomputable def speedFor (t : ℝ) : ℝ :=
  (2 : ℕ) * c.room node d / (t - c.responds node) - node.speed

/-- Above this a speed is rounded past the limit. -/
noncomputable def topSpeed : ℝ := ⌊c.speedLimit⌋ + 1 / (2 : ℕ)

/-- From this time on no steady change of speed ends too fast, up to those that end slower than a
lowest speed. -/
def StaysSlow (low x : ℝ) : Prop :=
  (c.room node d < 0 → c.responds node ≤ x) ∧
    (0 < c.room node d → c.responds node < x ∧
      (c.speedFor node d x < c.topSpeed ∨ c.speedFor node d x < low))

/-- The numbers of a calculator, as the parameters of the planner are: the time increment and the
time buffer are not lost in the rounding, and the buffers fit into the shortest green. -/
structure Settings : Prop where
  maxAccel : 0 < c.maxAccel
  lagTime : 0 ≤ c.lagTime
  timeInc : 1 / 2 ≤ c.timeInc
  crawlingSpeed : 0 < c.crawlingSpeed
  timeBuffer : 1 / 2 ≤ c.timeBuffer
  buffersFit : 2 * c.timeBuffer ≤ 27
  operSpeed : 0 < c.operSpeed
  allowed : c.operSpeed ≤ c.speedLimit
  sqrt : c.sqrt = mathSqrt

variable {c node d}

section numbers

theorem speedToReach_fin {t : ℝ} (ht : t ≠ c.responds node) :
    c.speedToReach node d (.fin t) = .fin (c.speedFor node d t) := by
  unfold speedToReach speedFor room
  rw [Dbl.fin_sub]
  change (Dbl.fin _ / .fin (t - c.responds node) - _ : Dbl ℝ) = _
  rw [Dbl.fin_div _ (sub_ne_zero.mpr ht), Dbl.fin_sub, Nat.cast_ofNat]

theorem speedToReach_responds :
    c.speedToReach node d (.fin (c.responds node)) =
      if c.room node d = 0 then .nan else .inf (decide (c.room node d < 0)) := by
  unfold speedToReach responds
  rw [Dbl.fin_sub, sub_self, Nat.cast_ofNat]
  change (Dbl.fin (2 * c.room node d) / .fin 0 - .fin (node.speed : ℝ) : Dbl ℝ) = _
  have hdiv : (Dbl.fin (2 * c.room node d) / .fin 0 : Dbl ℝ) =
      if 2 * c.room node d = 0 then .nan else .inf (decide (2 * c.room node d < 0)) := if_pos rfl
  rw [hdiv]
  by_cases hroom : c.room node d = 0
  · rw [if_pos (by rw [hroom, mul_zero]), if_pos hroom]
    rfl
  · rw [if_neg (mul_ne_zero two_ne_zero hroom), if_neg hroom]
    have hneg : 2 * c.room node d < 0 ↔ c.room node d < 0 := by
      constructor
      · intro h
        linarith
      · intro h
        linarith
    rw [decide_eq_decide.mpr hneg]
    rfl

/-- With room to the bar a later arrival is a slower one. -/
theorem speedFor_anti (hroom : 0 < c.room node d) {t t' : ℝ} (ht : c.responds node < t)
    (hle : t ≤ t') : c.speedFor node d t' ≤ c.speedFor node d t := by
  have hquot := div_le_div_of_nonneg_left (by linarith : 0 ≤ 2 * c.room node d)
    (sub_pos.mpr ht) (sub_le_sub_right hle (c.responds node))
  unfold speedFor
  rw [Nat.cast_ofNat]
  linarith

theorem round_le_limit_iff {v : ℝ} :
    ((mathRound (.fin v) : ℤ) : ℝ) ≤ c.speedLimit ↔ v < c.topSpeed := by
  unfold topSpeed
  rw [Nat.cast_ofNat]
  rw [← mathRound_le, Int.le_floor]

/-- What is rounded to a speed above zero is at least half a meter in a second. -/
theorem half_le_of_round {v : Dbl ℝ} (h : 0 < mathRound v) : (Dbl.fin (1 / 2)).le v = true := by
  cases v with
  | fin v =>
    have hone : (1 : ℤ) ≤ mathRound (.fin v) := h
    rw [le_mathRound] at hone
    rw [Dbl.le_fin, decide_eq_true_eq]
    push_cast at hone
    linarith
  | inf neg =>
    cases neg with
    | false => rfl
    | true => exact absurd h (by decide)
  | nan => exact absurd h (lt_irrefl 0)

theorem StaysSlow.allowed {low x t : ℝ} (h : c.StaysSlow node d low x) (hspeed : 0 ≤ node.speed)
    (ht : x ≤ t) (hlow : (Dbl.fin low).le (c.speedToReach node d (.fin t)) = true)
    (hpos : 0 < mathRound (c.speedToReach node d (.fin t))) :
    ((mathRound (c.speedToReach node d (.fin t)) : ℤ) : ℝ) ≤ c.speedLimit := by
  obtain ⟨hback, hahead⟩ := h
  have hcur : (0 : ℝ) ≤ node.speed := Int.cast_nonneg hspeed
  have hzero : ∀ v : ℝ, v ≤ 0 → ¬ 0 < mathRound (.fin v) := by
    intro v hv hround
    have hone : (1 : ℤ) ≤ mathRound (.fin v) := hround
    rw [le_mathRound] at hone
    push_cast at hone
    linarith
  rcases lt_trichotomy (c.room node d) 0 with hroom | hroom | hroom
  · -- past the bar before the response: it would have to go back
    exfalso
    rcases eq_or_lt_of_le ((hback hroom).trans ht) with heq | hlt
    · rw [← heq, speedToReach_responds, if_neg hroom.ne, decide_eq_true hroom] at hpos
      exact absurd hpos (by decide)
    · rw [speedToReach_fin hlt.ne'] at hpos
      refine hzero _ ?_ hpos
      have hquot := div_nonpos_of_nonpos_of_nonneg (by linarith : 2 * c.room node d ≤ 0)
        (sub_pos.mpr hlt).le
      unfold speedFor
      rw [Nat.cast_ofNat]
      linarith
  · exfalso
    by_cases heq : t = c.responds node
    · rw [heq, speedToReach_responds, if_pos hroom] at hpos
      exact lt_irrefl 0 hpos
    · rw [speedToReach_fin heq] at hpos
      refine hzero _ ?_ hpos
      unfold speedFor
      rw [Nat.cast_ofNat]
      rw [hroom, mul_zero, zero_div]
      linarith
  · obtain ⟨hlate, hslow⟩ := hahead hroom
    have hlt : c.responds node < t := hlate.trans_le ht
    have hanti := speedFor_anti hroom hlate ht
    rw [speedToReach_fin hlt.ne'] at hlow ⊢
    rw [Dbl.le_fin, decide_eq_true_eq] at hlow
    rw [round_le_limit_iff]
    rcases hslow with hslow | hslow
    · exact hanti.trans_lt hslow
    · linarith

/-- Near the time of the response the speed grows beyond all bounds, so where it is slow at all
later times they are past that, or there is no room and they are not before it. -/
theorem staysSlow_of {low x : ℝ}
    (h : ∀ t, x ≤ t → t ≠ c.responds node →
      c.speedFor node d t < c.topSpeed ∨ c.speedFor node d t < low) :
    c.StaysSlow node d low x := by
  -- a quotient that is too large for both bounds
  obtain ⟨q, hq, htop, hlow⟩ : ∃ q : ℝ, 0 < q ∧ c.topSpeed ≤ q - node.speed ∧
      low ≤ q - node.speed := by
    refine ⟨max (max c.topSpeed low + node.speed) 1, lt_max_of_lt_right one_pos, ?_, ?_⟩
    · have := le_max_left (max c.topSpeed low + node.speed) 1
      linarith [le_max_left c.topSpeed low]
    · have := le_max_left (max c.topSpeed low + node.speed) 1
      linarith [le_max_right c.topSpeed low]
  have hfast : ∀ t, x ≤ t → t ≠ c.responds node →
      2 * c.room node d / (t - c.responds node) < q := by
    intro t ht hne
    have hslow := h t ht hne
    unfold speedFor at hslow
    rw [Nat.cast_ofNat] at hslow
    rcases hslow with hslow | hslow
    · linarith
    · linarith
  constructor
  · intro hroom
    by_contra hearly
    have hgap : 0 < c.responds node - x := sub_pos.mpr (not_le.mp hearly)
    have hδ : 0 < min (-(2 * c.room node d) / q) (c.responds node - x) :=
      lt_min (div_pos (by linarith) hq) hgap
    generalize hmin : min (-(2 * c.room node d) / q) (c.responds node - x) = δ at hδ
    have hsmall : δ ≤ -(2 * c.room node d) / q := hmin ▸ min_le_left _ _
    have hfrom : δ ≤ c.responds node - x := hmin ▸ min_le_right _ _
    have hlt := hfast (c.responds node - δ) (by linarith) (by linarith)
    rw [sub_sub_cancel_left, div_neg, ← neg_div, div_lt_iff₀ hδ] at hlt
    rw [le_div_iff₀ hq] at hsmall
    linarith
  · intro hroom
    have hlate : c.responds node < x := by
      by_contra hearly
      have hδ : 0 < 2 * c.room node d / q := div_pos (by linarith) hq
      have hlt := hfast (c.responds node + 2 * c.room node d / q) (by linarith) (by linarith)
      rw [add_sub_cancel_left, div_div_cancel₀ (by linarith : (2 * c.room node d) ≠ 0)] at hlt
      exact lt_irrefl q hlt
    exact ⟨hlate, h x le_rfl hlate.ne'⟩

end numbers

/-! ## The earliest arrival -/

section earliest

theorem arrive_eq (hc : c.Settings) (node : Node) (d : ℤ) :
    (c.arrive node d).speedAtNext = .fin (c.barSpeed node d) ∧
      (c.arrive node d).timeAtNext = .fin (c.barTime node d) := by
  have haccel := hc.maxAccel.ne'
  have htime : (Dbl.fin (c.deltaSpeed node) / .fin c.maxAccel : Dbl ℝ) =
      .fin (c.deltaSpeed node / c.maxAccel) := Dbl.fin_div _ haccel
  have hway : (if c.deltaSpeed node > 1 then
      (Dbl.fin (node.speed : ℝ) * .fin (c.deltaSpeed node / c.maxAccel) +
        .fin (1 / ((2 : ℕ) : ℝ) * c.maxAccel) * .fin (c.deltaSpeed node / c.maxAccel) *
          .fin (c.deltaSpeed node / c.maxAccel) + .fin (c.lagDist node) : Dbl ℝ)
      else Dbl.fin (node.speed : ℝ) * .fin (c.deltaSpeed node / c.maxAccel) +
        .fin (1 / ((2 : ℕ) : ℝ) * c.maxAccel) * .fin (c.deltaSpeed node / c.maxAccel) *
          .fin (c.deltaSpeed node / c.maxAccel)) = .fin (c.wayToOperSpeed node) := by
    unfold wayToOperSpeed
    rw [Dbl.fin_mul, Dbl.fin_mul, Dbl.fin_mul, Dbl.fin_add, Dbl.fin_add, Nat.cast_ofNat]
    dsimp only
    split
    · rfl
    · rfl
  have hbase : (if c.deltaSpeed node > 1 then (Dbl.fin ((node.time : ℝ) + c.lagTime) : Dbl ℝ)
      else .fin (node.time : ℝ)) =
      .fin (if c.deltaSpeed node > 1 then c.responds node else node.time) := by
    split
    · rfl
    · rfl
  unfold arrive
  dsimp only
  rw [htime, hway, hbase]
  simp only [Dbl.lt_fin, decide_eq_true_eq]
  by_cases hshort : (d : ℝ) < c.wayToOperSpeed node
  · have hnonneg : 0 ≤ (node.speed : ℝ) * node.speed + 2 * c.maxAccel * max (c.room node d) 0 :=
      add_nonneg (mul_self_nonneg _) (mul_nonneg (by linarith [hc.maxAccel]) (le_max_right _ _))
    have hsqrt : c.sqrt (.fin ((node.speed : ℝ) * node.speed + ((2 : ℕ) : ℝ) * c.maxAccel *
        max ((d : ℝ) - c.lagDist node) 0)) = .fin (c.barSpeed node d) := by
      rw [hc.sqrt, Nat.cast_ofNat]
      unfold barSpeed
      rw [if_pos hshort]
      exact if_neg (not_lt.mpr hnonneg)
    rw [if_pos hshort, hsqrt]
    refine ⟨rfl, ?_⟩
    unfold barTime
    rw [if_pos hshort, Dbl.fin_sub, Dbl.fin_div _ haccel, Dbl.fin_add]
  · rw [if_neg hshort]
    unfold barSpeed barTime
    rw [if_neg hshort, if_neg hshort, Dbl.fin_sub, Dbl.fin_div _ hc.operSpeed.ne', Dbl.fin_add,
      Dbl.fin_add]
    exact ⟨rfl, rfl⟩

/-- While it speeds up to the bar the vehicle is at least as fast as at the node. -/
theorem le_barSpeed (hc : c.Settings) (hshort : (d : ℝ) < c.wayToOperSpeed node) :
    node.speed ≤ c.barSpeed node d := by
  have hgain : 0 ≤ 2 * c.maxAccel * max (c.room node d) 0 :=
    mul_nonneg (by linarith [hc.maxAccel]) (le_max_right _ _)
  unfold barSpeed
  rw [if_pos hshort, Nat.cast_ofNat]
  exact Real.le_sqrt_of_sq_le (by nlinarith)

theorem time_le_start (hc : c.Settings) (node : Node) :
    (node.time : ℝ) ≤ if c.deltaSpeed node > 1 then c.responds node else node.time := by
  split
  · unfold responds
    linarith [hc.lagTime]
  · exact le_rfl

theorem time_le_barTime (hc : c.Settings) (node : Node) (d : ℤ) :
    node.time ≤ c.barTime node d := by
  have hbase := time_le_start hc node
  unfold barTime
  by_cases hshort : (d : ℝ) < c.wayToOperSpeed node
  · rw [if_pos hshort]
    have := div_nonneg (sub_nonneg.mpr (le_barSpeed hc hshort)) hc.maxAccel.le
    linarith
  · rw [if_neg hshort]
    have htime : 0 ≤ c.deltaSpeed node / c.maxAccel := div_nonneg (abs_nonneg _) hc.maxAccel.le
    have hcruise := div_nonneg (sub_nonneg.mpr (not_lt.mp hshort)) hc.operSpeed.le
    linarith

/-- A vehicle that is still slower than half a meter in a second when it comes to the bar has
started from a stop, and takes its time. -/
theorem slow_is_late (hc : c.Settings) (hspeed : 0 ≤ node.speed) (hd : 1 ≤ d)
    (hoper : c.barSpeed node d < c.operSpeed) (hslow : c.barSpeed node d < 1 / 2) :
    node.time + 1 / 2 ≤ c.barTime node d := by
  have hshort : (d : ℝ) < c.wayToOperSpeed node := by
    by_contra hlong
    unfold barSpeed at hoper
    rw [if_neg hlong] at hoper
    exact lt_irrefl _ hoper
  have hle := le_barSpeed hc hshort
  have hstop : node.speed = 0 := by
    have hone : (node.speed : ℝ) < (1 : ℤ) := by
      push_cast
      linarith
    have := Int.cast_lt.mp hone
    omega
  have hroom : c.room node d = d := by
    unfold room lagDist
    rw [hstop, Int.cast_zero, mul_zero, sub_zero]
  have hd' : (1 : ℝ) ≤ d := by exact_mod_cast hd
  have haccel := hc.maxAccel
  have hroot : c.barSpeed node d * c.barSpeed node d = 2 * c.maxAccel * d := by
    unfold barSpeed
    rw [if_pos hshort, Nat.cast_ofNat, hstop, hroom, Int.cast_zero, mul_zero, zero_add, max_eq_left (by linarith)]
    exact Real.mul_self_sqrt (mul_nonneg (by linarith) (by linarith))
  have hnonneg : 0 ≤ c.barSpeed node d := by
    rw [hstop, Int.cast_zero] at hle
    exact hle
  have hquot : 1 / 2 ≤ c.barSpeed node d / c.maxAccel := by
    rw [le_div_iff₀ haccel]
    nlinarith
  have hbase := time_le_start hc node
  unfold barTime
  rw [if_pos hshort, hstop, Int.cast_zero, sub_zero]
  linarith

end earliest

/-! ## The slices of a green -/

section slices

/-- A node of a slice is the first one, or a later one that is not too slow and in the window. -/
theorem mem_sliceGreen {exp : Dbl ℝ} {steps : ℕ} {intermediateNode : Option Node} {t : ℝ}
    {speed : Dbl ℝ} {found : List Node} (hinc : 0 ≤ c.timeInc)
    (h : c.sliceGreen node d exp steps intermediateNode (.fin t) speed = some found) {n : Node}
    (hn : n ∈ found) :
    n = .ofDoubles (.fin ((node.distance : ℝ) + d)) (.fin t) speed ∨
      ∃ t', t + c.timeInc ≤ t' ∧ (Dbl.fin t').le exp = true ∧
        (Dbl.fin c.crawlingSpeed).le (c.speedToReach node d (.fin t')) = true ∧
        n = .ofDoubles (.fin ((node.distance : ℝ) + d)) (.fin t') (c.speedToReach node d (.fin t')) := by
  induction steps generalizing intermediateNode t speed found with
  | zero => cases h
  | succ steps ih =>
    have hfirst : ∀ {free : Bool} {m : Node}, n ∈ (if free then [m] else []) → n = m := by
      intro free m hm
      cases free with
      | false => cases hm
      | true => exact List.mem_singleton.mp hm
    unfold sliceGreen at h
    dsimp only at h
    rw [Dbl.fin_add] at h
    split at h
    · rename_i hnext
      obtain ⟨rest, hrest, rfl⟩ := Option.map_eq_some_iff.mp h
      rcases List.mem_append.mp hn with hn | hn
      · exact Or.inl (hfirst hn)
      · right
        rcases ih hrest hn with rfl | ⟨t', hle, hrest'⟩
        · exact ⟨t + c.timeInc, le_rfl, hnext.2, hnext.1, rfl⟩
        · exact ⟨t', by linarith [hinc], hrest'⟩
    · obtain rfl := Option.some.inj h
      exact Or.inl (hfirst hn)

/-- The loop ends when the window does. -/
theorem sliceGreen_isSome {exp : ℝ} {steps : ℕ} {intermediateNode : Option Node} {t : ℝ}
    {speed : Dbl ℝ} (hsteps : exp < t + steps * c.timeInc) (hpos : 0 < steps) :
    (c.sliceGreen node d (.fin exp) steps intermediateNode (.fin t) speed).isSome := by
  induction steps generalizing intermediateNode t speed with
  | zero => exact absurd hpos (lt_irrefl 0)
  | succ steps ih =>
    unfold sliceGreen
    dsimp only
    rw [Dbl.fin_add]
    split
    · rename_i hnext
      have hle := hnext.2
      rw [Dbl.le_fin, decide_eq_true_eq] at hle
      rw [Option.isSome_map]
      apply ih
      · push_cast at hsteps
        linarith
      · rcases Nat.eq_zero_or_pos steps with hzero | hpos'
        · rw [hzero, Nat.cast_add, Nat.cast_zero, zero_add, Nat.cast_one, one_mul] at hsteps
          linarith
        · exact hpos'
    · rfl

/-- A turn of the loop where nothing is in the way. -/
theorem sliceGreen_free (hfree : ∀ a b, c.hasConflict a b = false) (exp : Dbl ℝ) (steps : ℕ)
    (intermediateNode : Option Node) (t : ℝ) (speed : Dbl ℝ) :
    c.sliceGreen node d exp (steps + 1) intermediateNode (.fin t) speed =
      if (Dbl.fin c.crawlingSpeed).le (c.speedToReach node d (.fin (t + c.timeInc))) = true ∧
          (Dbl.fin (t + c.timeInc)).le exp = true then
        (c.sliceGreen node d exp steps none (.fin (t + c.timeInc))
          (c.speedToReach node d (.fin (t + c.timeInc)))).map
            ([Node.ofDoubles (.fin ((node.distance : ℝ) + d)) (.fin t) speed] ++ ·)
      else some [.ofDoubles (.fin ((node.distance : ℝ) + d)) (.fin t) speed] := by
  conv_lhs => unfold sliceGreen
  cases intermediateNode with
  | none => simp only [hfree, Dbl.fin_add, Bool.not_false, if_true]
  | some between => simp only [hfree, Dbl.fin_add, Bool.not_false, Bool.and_self, if_true]

/-- Where nothing is in the way the first node is offered, and the second one if it is not too
slow and in the window. -/
theorem sliceGreen_offers (hfree : ∀ a b, c.hasConflict a b = false) {exp : Dbl ℝ} {steps : ℕ}
    {intermediateNode : Option Node} {t : ℝ} {speed : Dbl ℝ} {found : List Node}
    (h : c.sliceGreen node d exp steps intermediateNode (.fin t) speed = some found) :
    .ofDoubles (.fin ((node.distance : ℝ) + d)) (.fin t) speed ∈ found ∧
      ((Dbl.fin c.crawlingSpeed).le (c.speedToReach node d (.fin (t + c.timeInc))) = true →
        (Dbl.fin (t + c.timeInc)).le exp = true →
        .ofDoubles (.fin ((node.distance : ℝ) + d)) (.fin (t + c.timeInc))
          (c.speedToReach node d (.fin (t + c.timeInc))) ∈ found) := by
  have hfirst : ∀ {steps : ℕ} {intermediateNode : Option Node} {t : ℝ} {speed : Dbl ℝ}
      {found : List Node},
      c.sliceGreen node d exp steps intermediateNode (.fin t) speed = some found →
      .ofDoubles (.fin ((node.distance : ℝ) + d)) (.fin t) speed ∈ found := by
    intro steps intermediateNode t speed found h
    cases steps with
    | zero => cases h
    | succ steps =>
      rw [sliceGreen_free hfree] at h
      split at h
      · obtain ⟨rest, -, rfl⟩ := Option.map_eq_some_iff.mp h
        exact List.mem_append_left _ (List.mem_singleton_self _)
      · obtain rfl := Option.some.inj h
        exact List.mem_singleton_self _
  refine ⟨hfirst h, fun hspeed hexp => ?_⟩
  cases steps with
  | zero => cases h
  | succ steps =>
    rw [sliceGreen_free hfree, if_pos ⟨hspeed, hexp⟩] at h
    obtain ⟨rest, hrest, rfl⟩ := Option.map_eq_some_iff.mp h
    exact List.mem_append_right _ (hfirst hrest)

end slices

end CoarsePathNeighbors

end carma.trajectory_tree
