-- When the points that are put in between the nodes of a plan are on the motion of the plan. The
-- interpolation of a hop starts at the last node that was not too near to the one before it, and that
-- is not always the node where the hop starts.
import Carma.PlanInterpolator

open lib.exact_double lib.uniform_motion
open carma.trajectory_tree (Node)

namespace carma.plan_interpolator

/-! ## Stretches -/

/-- A stretch into which points are put: the node where the interpolation starts, the node before
the current one, and the current one. -/
structure Stretch where
  base : Node
  previous : Node
  current : Node

/-- The stretches of a call, once there is a node to start from. -/
noncomputable def stretchesFrom (distanceStep : ℝ) : Node → Node → List Node → List Stretch
  | _, _, [] => []
  | base, previous, n :: rest =>
    if (n.distance : ℝ) - base.distance < distanceStep then stretchesFrom distanceStep base n rest
    else ⟨base, previous, n⟩ :: stretchesFrom distanceStep n n rest

noncomputable def stretches (distanceStep : ℝ) : List Node → List Stretch
  | [] => []
  | n :: rest => stretchesFrom distanceStep n n rest

/-- A plan: each of its hops is one. -/
def Plan (trajectory : List Node) : Prop := trajectory.IsChain Hop

/-- The base is less than a step before the hop on which the stretch ends, and not later. -/
structure Stretch.Fits (st : Stretch) (distanceStep : ℝ) : Prop where
  hop : Hop st.previous st.current
  started : st.base.distance ≤ st.previous.distance
  near : (st.previous.distance : ℝ) - st.base.distance < distanceStep
  before : st.base.time ≤ st.previous.time

theorem stretchesFrom_fit {distanceStep : ℝ} (hstep : 0 < distanceStep) {base previous : Node}
    {rest : List Node} (hplan : Plan (previous :: rest)) (hstarted : base.distance ≤ previous.distance)
    (hnear : (previous.distance : ℝ) - base.distance < distanceStep)
    (hbefore : base.time ≤ previous.time) {st : Stretch}
    (h : st ∈ stretchesFrom distanceStep base previous rest) :
    st.Fits distanceStep ∧ (st.previous, st.current) ∈ (previous :: rest).zip rest := by
  induction rest generalizing base previous with
  | nil => cases h
  | cons n rest ih =>
    obtain ⟨hhop, hrest⟩ := List.isChain_cons_cons.mp hplan
    unfold stretchesFrom at h
    split at h
    · rename_i hshort
      obtain ⟨hfits, hmem⟩ := ih hrest (hstarted.trans hhop.onward) hshort
        (hbefore.trans hhop.later.le) h
      exact ⟨hfits, List.mem_cons_of_mem _ hmem⟩
    · rcases List.mem_cons.mp h with rfl | h
      · exact ⟨⟨hhop, hstarted, hnear, hbefore⟩, List.mem_cons_self⟩
      · obtain ⟨hfits, hmem⟩ := ih hrest le_rfl (by rwa [sub_self]) le_rfl h
        exact ⟨hfits, List.mem_cons_of_mem _ hmem⟩

/-- The point is on the motion of the hop. -/
def OnHop (o : Offsets ℝ) (s n : Node) (p : PlanPoint ℝ) : Prop :=
  ∃ t : ℝ, s.time ≤ t ∧ t ≤ n.time ∧ p.stamp = .fin (t + o.timeOffset) ∧
    p.downtrack = ((hopCourse s n).after (t - s.time)).pos + o.distanceOffset

/-- The motion that the interpolation follows comes by a place when the hop does. Where the hop
starts at the node that the interpolation starts from, it does so unless the acceleration is one that
counts as none. Elsewhere the two motions have to meet there, the one from the base going
forward. -/
def Stretch.MeetsAt (st : Stretch) (x : ℝ) : Prop :=
  if st.previous = st.base then
    st.current.speed = st.base.speed ∨ MIN_ACCELERATION ≤ |accelOf st.base st.current|
  else
    ∃ t : ℝ, st.previous.time ≤ t ∧ t ≤ st.current.time ∧
      ((hopCourse st.previous st.current).after (t - st.previous.time)).pos = x ∧
      ((followed st.base st.current).after (t - st.base.time)).pos = x ∧
      0 ≤ ((followed st.base st.current).after (t - st.base.time)).speed

theorem Offsets.stamp_iff (o : Offsets ℝ) (b : Node) {arrival : Dbl ℝ} (t : ℝ) :
    (Dbl.fin (o.t b) + arrival : Dbl ℝ) = .fin (t + o.timeOffset) ↔ arrival = .fin (t - b.time) := by
  unfold Offsets.t
  constructor
  · intro heq
    obtain ⟨y, z, hy, hz, hsum⟩ := Dbl.add_eq_fin heq
    obtain rfl := Dbl.fin.inj hy
    rw [hz]
    congr 1
    linarith
  · intro heq
    rw [heq, Dbl.fin_add]
    congr 1
    ring

/-- The point that is put in at a place is on the hop just when both motions are there at one
time. -/
theorem Stretch.Fits.onHop_iff_meet {o : Offsets ℝ} {st : Stretch} (h : st.Fits o.distanceStep)
    {x : ℝ} (hstart : st.previous.distance < x) :
    OnHop o st.previous st.current (planPoint (x + o.distanceOffset)
        (.fin (o.t st.base) + arrival st.base st.current (x - st.base.distance))) ↔
      ∃ t : ℝ, st.previous.time ≤ t ∧ t ≤ st.current.time ∧
        ((hopCourse st.previous st.current).after (t - st.previous.time)).pos = x ∧
        ((followed st.base st.current).after (t - st.base.time)).pos = x ∧
        0 ≤ ((followed st.base st.current).after (t - st.base.time)).speed := by
  have hbase : (st.base.distance : ℝ) ≤ st.previous.distance := by exact_mod_cast h.started
  have hbefore : (st.base.time : ℝ) ≤ st.previous.time := by exact_mod_cast h.before
  have hway : 0 < x - st.base.distance := by linarith
  have hplace : (st.base.distance : ℝ) + (x - st.base.distance) = x := by ring
  unfold OnHop planPoint
  dsimp only
  refine exists_congr fun t => and_congr_right fun hlow => and_congr_right fun _ => ?_
  rw [o.stamp_iff, arrival_iff hway (by linarith), hplace, add_left_inj]
  constructor
  · rintro ⟨⟨hpos, hspeed⟩, hhop⟩
    exact ⟨hhop.symm, hpos, hspeed⟩
  · rintro ⟨hhop, hpos, hspeed⟩
    exact ⟨⟨hpos, hspeed⟩, hhop.symm⟩

theorem followed_eq_hopCourse {s n : Node}
    (h : n.speed = s.speed ∨ MIN_ACCELERATION ≤ |accelOf s n|) : followed s n = hopCourse s n := by
  unfold followed hopCourse
  rcases h with hspeed | hlarge
  · have hzero : accelOf s n = 0 := by
      unfold accelOf
      rw [hspeed, sub_self, zero_div]
    rw [hzero, ite_self]
  · rw [if_neg (not_lt.mpr hlarge)]

/-- Elsewhere it is not: a small acceleration that is not zero makes a difference at any time after
the start. -/
theorem Hop.followed_meets {s n : Node} (h : Hop s n) {x t : ℝ} (hstart : s.distance < x)
    (hhop : ((hopCourse s n).after (t - s.time)).pos = x)
    (hpos : ((followed s n).after (t - s.time)).pos = x) :
    n.speed = s.speed ∨ MIN_ACCELERATION ≤ |accelOf s n| := by
  by_contra hno
  obtain ⟨hspeed, hsmall⟩ := not_or.mp hno
  unfold followed Course.after at hpos
  unfold hopCourse Course.after at hhop
  dsimp only at hpos hhop
  rw [if_pos (not_le.mp hsmall)] at hpos
  have hgain : accelOf s n * (t - s.time) * (t - s.time) = 0 := by
    rw [Nat.cast_ofNat] at hhop hpos
    linear_combination 2 * hhop - 2 * hpos
  have htime : t - s.time ≠ 0 := by
    intro hzero
    rw [hzero, mul_zero, add_zero, mul_zero, zero_div, add_zero] at hhop
    linarith
  have haccel : accelOf s n = 0 :=
    (mul_eq_zero.mp ((mul_eq_zero.mp hgain).resolve_right htime)).resolve_right htime
  unfold accelOf at haccel
  have hlater : (s.time : ℝ) < n.time := by exact_mod_cast h.later
  rcases div_eq_zero_iff.mp haccel with hzero | hzero
  · exact hspeed (by exact_mod_cast sub_eq_zero.mp hzero)
  · linarith

/-- The point that is put in at a place is on the hop just when the motions meet there. -/
theorem Stretch.Fits.onHop_iff {o : Offsets ℝ} {st : Stretch} (h : st.Fits o.distanceStep) {x : ℝ}
    (hstart : st.previous.distance < x) (hend : x < st.current.distance) :
    OnHop o st.previous st.current (planPoint (x + o.distanceOffset)
        (.fin (o.t st.base) + arrival st.base st.current (x - st.base.distance))) ↔
      st.MeetsAt x := by
  rw [h.onHop_iff_meet hstart]
  unfold MeetsAt
  split
  · rename_i hsame
    have hhop : Hop st.base st.current := hsame ▸ h.hop
    rw [hsame] at hstart ⊢
    constructor
    · rintro ⟨t, -, -, hthere, hpos, -⟩
      exact hhop.followed_meets hstart hthere hpos
    · intro hsound
      obtain ⟨t, hlow, hhigh, hpos, hspeed⟩ := hhop.passes hstart hend
      rw [followed_eq_hopCourse hsound]
      exact ⟨t, hlow, hhigh, hpos, hpos, hspeed⟩
  · exact Iff.rfl

/-! ## The returned points -/

/-- Places are a step apart from the base on, and below the current node. -/
def Stretch.place (st : Stretch) (distanceStep : ℝ) (j : ℕ) : ℝ :=
  st.base.distance + (j + 1) * distanceStep

theorem Offsets.x_sub (o : Offsets ℝ) (n b : Node) : o.x n - o.x b = (n.distance : ℝ) - b.distance := by
  unfold Offsets.x
  ring

theorem Stretch.Fits.mem_between {o : Offsets ℝ} (hstep : 0 < o.distanceStep) {st : Stretch}
    (h : st.Fits o.distanceStep) {p : PlanPoint ℝ} :
    p ∈ between mathSqrt o st.base st.current ↔
      ∃ j : ℕ, st.place o.distanceStep j < st.current.distance ∧
        p = planPoint (st.place o.distanceStep j + o.distanceOffset)
          (.fin (o.t st.base) +
            arrival st.base st.current (st.place o.distanceStep j - st.base.distance)) := by
  have hlater : st.base.time < st.current.time := lt_of_le_of_lt h.before h.hop.later
  have hplace : ∀ j : ℕ, o.x st.base + o.distanceStep + j * o.distanceStep =
      st.place o.distanceStep j + o.distanceOffset := by
    intro j
    unfold place Offsets.x
    ring
  have hway : ∀ j : ℕ, st.place o.distanceStep j + o.distanceOffset - o.x st.base =
      st.place o.distanceStep j - st.base.distance := by
    intro j
    unfold Offsets.x
    ring
  have hend : ∀ j : ℕ, st.place o.distanceStep j + o.distanceOffset < o.x st.current ↔
      st.place o.distanceStep j < st.current.distance := by
    intro j
    unfold Offsets.x
    rw [add_lt_add_iff_right]
  rw [between_eq hstep hlater, List.mem_map]
  constructor
  · rintro ⟨y, hy, rfl⟩
    obtain ⟨j, rfl, hlt⟩ := mem_places hy
    rw [hplace] at hlt ⊢
    rw [hend] at hlt
    rw [hway]
    exact ⟨j, hlt, rfl⟩
  · rintro ⟨j, hlt, rfl⟩
    refine ⟨st.place o.distanceStep j + o.distanceOffset, ?_, by rw [hway]⟩
    rw [← hend, ← hplace] at hlt
    rw [← hplace]
    exact places_complete hstep (turns_enough hstep _) hlt

theorem mem_interpolateFrom {o : Offsets ℝ} {base : Node} (previous : Node) {rest : List Node}
    {p : PlanPoint ℝ} :
    p ∈ interpolateFrom mathSqrt o base rest ↔
      (∃ n ∈ rest, p = o.nodePoint n) ∨
        ∃ st ∈ stretchesFrom o.distanceStep base previous rest,
          p ∈ between mathSqrt o st.base st.current := by
  induction rest generalizing base previous with
  | nil => simp [interpolateFrom, stretchesFrom]
  | cons n rest ih =>
    unfold interpolateFrom stretchesFrom
    rw [o.x_sub]
    split
    · rw [List.mem_cons, ih n]
      simp only [List.mem_cons, exists_eq_or_imp, or_assoc]
    · rw [List.mem_append, List.mem_cons, ih n]
      simp only [List.mem_cons, exists_eq_or_imp, or_assoc, or_left_comm]

/-- From the node before on, no point goes back and no gap is longer than a step. -/
theorem interpolateFrom_gaps {o : Offsets ℝ} (hstep : 0 < o.distanceStep) {base previous : Node}
    {rest : List Node} (hplan : Plan (previous :: rest)) (hstarted : base.distance ≤ previous.distance)
    (hnear : (previous.distance : ℝ) - base.distance < o.distanceStep)
    (hbefore : base.time ≤ previous.time) :
    (o.nodePoint previous :: interpolateFrom mathSqrt o base rest).IsChain
      fun p q => p.downtrack ≤ q.downtrack ∧ q.downtrack - p.downtrack ≤ o.distanceStep := by
  induction rest generalizing base previous with
  | nil => exact List.isChain_singleton _
  | cons n rest ih =>
    obtain ⟨hhop, hrest⟩ := List.isChain_cons_cons.mp hplan
    have honward : o.x previous ≤ o.x n := by
      have : (previous.distance : ℝ) ≤ n.distance := by exact_mod_cast hhop.onward
      have hsub := o.x_sub n previous
      linarith
    have hstarted' : o.x base ≤ o.x previous := by
      have : (base.distance : ℝ) ≤ previous.distance := by exact_mod_cast hstarted
      have hsub := o.x_sub previous base
      linarith
    rw [← o.x_sub] at hnear
    unfold interpolateFrom
    split
    · rename_i hshort
      rw [o.x_sub] at hshort
      refine List.isChain_cons_cons.mpr ⟨⟨honward, ?_⟩, ih hrest (hstarted.trans hhop.onward) hshort
        (hbefore.trans hhop.later.le)⟩
      have hsub := o.x_sub n base
      show o.x n - o.x previous ≤ o.distanceStep
      linarith
    · rename_i hlong
      have henough : o.x n ≤ _ := turns_enough hstep (o.x base + o.distanceStep)
      have hgaps := places_gaps hstep henough (y := o.x previous) (by linarith) (by linarith) honward
      rw [← List.cons_append, List.isChain_split]
      refine ⟨?_, ih hrest le_rfl (by rwa [sub_self]) le_rfl⟩
      rw [between_eq hstep (lt_of_le_of_lt hbefore hhop.later)]
      have hdowntracks : ∀ l : List (PlanPoint ℝ), l.IsChain (fun p q =>
          p.downtrack ≤ q.downtrack ∧ q.downtrack - p.downtrack ≤ o.distanceStep) ↔
          (l.map (·.downtrack)).IsChain fun a b => a ≤ b ∧ b - a ≤ o.distanceStep := by
        intro l
        rw [List.isChain_map]
      rw [hdowntracks, List.map_append, List.map_cons, List.map_map]
      have hid : ((fun p : PlanPoint ℝ => p.downtrack) ∘ fun y =>
          planPoint y (.fin (o.t base) + arrival base n (y - o.x base))) = id := rfl
      rw [hid, List.map_id]
      exact hgaps

/-- The motions meet at each place of the stretch where a point is put in. -/
def Stretch.Sound (st : Stretch) (distanceStep : ℝ) : Prop :=
  ∀ j, st.place distanceStep j < st.current.distance → st.MeetsAt (st.place distanceStep j)

theorem Stretch.Fits.place_gt {distanceStep : ℝ} (hstep : 0 < distanceStep) {st : Stretch}
    (h : st.Fits distanceStep) (j : ℕ) : st.previous.distance < st.place distanceStep j := by
  have hnear := h.near
  have hnonneg : 0 ≤ (j : ℝ) * distanceStep := mul_nonneg (Nat.cast_nonneg j) hstep.le
  unfold place
  linarith

theorem Stretch.Fits.onHop {o : Offsets ℝ} (hstep : 0 < o.distanceStep) {st : Stretch}
    (h : st.Fits o.distanceStep) (hsound : st.Sound o.distanceStep) {p : PlanPoint ℝ}
    (hp : p ∈ between mathSqrt o st.base st.current) : OnHop o st.previous st.current p := by
  obtain ⟨j, hlt, rfl⟩ := (h.mem_between hstep).mp hp
  exact (h.onHop_iff (h.place_gt hstep j) hlt).mpr (hsound j hlt)

theorem OnHop.within {o : Offsets ℝ} {s n : Node} {p : PlanPoint ℝ} (h : OnHop o s n p) :
    (o.nodePoint s).stamp.le p.stamp = true ∧ p.stamp.le (o.nodePoint n).stamp = true := by
  obtain ⟨t, hlow, hhigh, hstamp, -⟩ := h
  rw [hstamp]
  constructor
  · show (Dbl.fin (o.t s)).le (.fin (t + o.timeOffset)) = true
    unfold Offsets.t
    rw [Dbl.le_fin, decide_eq_true_eq]
    linarith
  · show (Dbl.fin (t + o.timeOffset)).le (.fin (o.t n)) = true
    unfold Offsets.t
    rw [Dbl.le_fin, decide_eq_true_eq]
    linarith

theorem Hop.stamps {s n : Node} (h : Hop s n) (o : Offsets ℝ) :
    (o.nodePoint s).stamp.le (o.nodePoint n).stamp = true := by
  have hlater : (s.time : ℝ) ≤ n.time := by exact_mod_cast h.later.le
  show (Dbl.fin (o.t s)).le (.fin (o.t n)) = true
  unfold Offsets.t
  rw [Dbl.le_fin, decide_eq_true_eq]
  linarith

/-- Points on the hop are in the order of their places. -/
theorem Stretch.Fits.between_times {o : Offsets ℝ} (hstep : 0 < o.distanceStep) {st : Stretch}
    (h : st.Fits o.distanceStep)
    (hfits : ∀ p ∈ between mathSqrt o st.base st.current, OnHop o st.previous st.current p) :
    (between mathSqrt o st.base st.current).Pairwise fun p q => p.stamp.le q.stamp = true := by
  have hbefore : (st.base.time : ℝ) ≤ st.previous.time := by exact_mod_cast h.before
  rw [between_eq hstep (lt_of_le_of_lt h.before h.hop.later)] at hfits ⊢
  rw [List.pairwise_map]
  -- each place has an arrival at a time after the base
  have harrival : ∀ y ∈ places o.distanceStep (o.x st.current) (o.x st.base + o.distanceStep)
      ⌈(o.x st.current - (o.x st.base + o.distanceStep)) / o.distanceStep⌉.toNat,
      0 < y - o.x st.base ∧
        ∃ t, 0 ≤ t ∧ arrival st.base st.current (y - o.x st.base) = .fin t := by
    intro y hy
    obtain ⟨t, hlow, -, hstamp, -⟩ := hfits _ (List.mem_map_of_mem hy)
    obtain ⟨j, rfl, -⟩ := mem_places hy
    have hnonneg : 0 ≤ (j : ℝ) * o.distanceStep := mul_nonneg (Nat.cast_nonneg j) hstep.le
    exact ⟨by linarith, _, by linarith, (o.stamp_iff st.base t).mp hstamp⟩
  refine (places_sorted hstep _ _).imp_of_mem ?_
  intro y y' hy hy' hlt
  obtain ⟨hway, t, ht, harr⟩ := harrival y hy
  obtain ⟨-, t', -, harr'⟩ := harrival y' hy'
  have hle := arrival_mono hway (by linarith) ht harr harr'
  show (Dbl.fin (o.t st.base) + arrival st.base st.current (y - o.x st.base)).le
    (.fin (o.t st.base) + arrival st.base st.current (y' - o.x st.base)) = true
  rw [harr, harr', Dbl.fin_add, Dbl.fin_add, Dbl.le_fin, decide_eq_true_eq]
  linarith

theorem Stretch.Fits.times {o : Offsets ℝ} (hstep : 0 < o.distanceStep) {st : Stretch}
    (h : st.Fits o.distanceStep) (hsound : st.Sound o.distanceStep) :
    (o.nodePoint st.previous :: between mathSqrt o st.base st.current ++
      [o.nodePoint st.current]).Pairwise fun p q => p.stamp.le q.stamp = true := by
  have hfits : ∀ p ∈ between mathSqrt o st.base st.current, OnHop o st.previous st.current p :=
    fun p hp => h.onHop hstep hsound hp
  rw [List.cons_append, List.pairwise_cons, List.pairwise_append]
  refine ⟨?_, h.between_times hstep hfits, List.pairwise_singleton _ _, ?_⟩
  · intro p hp
    rcases List.mem_append.mp hp with hp | hp
    · exact (hfits p hp).within.1
    · rw [List.mem_singleton.mp hp]
      exact h.hop.stamps o
  · intro p hp q hq
    rw [List.mem_singleton.mp hq]
    exact (hfits p hp).within.2

/-- Where all stretches are sound, no point is earlier than the one before it. -/
theorem interpolateFrom_times {o : Offsets ℝ} (hstep : 0 < o.distanceStep) {base previous : Node}
    {rest : List Node} (hplan : Plan (previous :: rest)) (hstarted : base.distance ≤ previous.distance)
    (hnear : (previous.distance : ℝ) - base.distance < o.distanceStep)
    (hbefore : base.time ≤ previous.time)
    (hsound : ∀ st ∈ stretchesFrom o.distanceStep base previous rest, st.Sound o.distanceStep) :
    (o.nodePoint previous :: interpolateFrom mathSqrt o base rest).IsChain
      fun p q => p.stamp.le q.stamp = true := by
  induction rest generalizing base previous with
  | nil => exact List.isChain_singleton _
  | cons n rest ih =>
    obtain ⟨hhop, hrest⟩ := List.isChain_cons_cons.mp hplan
    unfold interpolateFrom
    unfold stretchesFrom at hsound
    rw [o.x_sub]
    split
    · rename_i hshort
      rw [if_pos hshort] at hsound
      refine List.isChain_cons_cons.mpr ⟨?_, ih hrest (hstarted.trans hhop.onward) hshort
        (hbefore.trans hhop.later.le) hsound⟩
      exact hhop.stamps o
    · rename_i hlong
      rw [if_neg hlong, List.forall_mem_cons] at hsound
      have hfits : Stretch.Fits ⟨base, previous, n⟩ o.distanceStep := ⟨hhop, hstarted, hnear, hbefore⟩
      rw [← List.cons_append, List.isChain_split]
      exact ⟨(hfits.times hstep hsound.1).isChain, ih hrest le_rfl (by rwa [sub_self]) le_rfl hsound.2⟩

/-! ## The hop of a place -/

theorem members_apart {l : List Node} (h : l.IsChain fun s n => s.distance ≤ n.distance)
    {hop : Node × Node} (hhop : hop ∈ l.zip l.tail) {m : Node} (hm : m ∈ l) :
    m.distance ≤ hop.1.distance ∨ hop.2.distance ≤ m.distance := by
  induction l with
  | nil => cases hm
  | cons a l ih =>
    cases l with
    | nil => cases hhop
    | cons b l =>
      have hsorted : (a :: b :: l).Pairwise fun s n => s.distance ≤ n.distance := h.pairwise
      obtain ⟨hab, hrest⟩ := List.isChain_cons_cons.mp h
      obtain ⟨ha, hb⟩ := List.pairwise_cons.mp hsorted
      rw [List.tail_cons, List.zip_cons_cons] at hhop
      rcases List.mem_cons.mp hhop with rfl | hbehind
      · rcases List.mem_cons.mp hm with rfl | hm
        · exact Or.inl le_rfl
        · right
          rcases List.mem_cons.mp hm with rfl | hm
          · exact le_rfl
          · exact (List.pairwise_cons.mp hb).1 m hm
      · rcases List.mem_cons.mp hm with rfl | hm
        · exact Or.inl (ha _ (List.of_mem_zip hbehind).1)
        · exact ih hrest hbehind hm

/-- Two hops of it are the same, or one is behind the other. -/
theorem hops_apart {l : List Node} (h : l.IsChain fun s n => s.distance ≤ n.distance)
    {hop hop' : Node × Node} (hhop : hop ∈ l.zip l.tail) (hhop' : hop' ∈ l.zip l.tail) :
    hop = hop' ∨ hop.2.distance ≤ hop'.1.distance ∨ hop'.2.distance ≤ hop.1.distance := by
  induction l with
  | nil => cases hhop
  | cons a l ih =>
    cases l with
    | nil => cases hhop
    | cons b l =>
      have hfrom : ∀ m ∈ b :: l, b.distance ≤ m.distance := by
        intro m hm
        rcases List.mem_cons.mp hm with rfl | hm
        · exact le_rfl
        · exact (List.pairwise_cons.mp h.pairwise.tail).1 m hm
      rw [List.tail_cons, List.zip_cons_cons] at hhop hhop'
      rcases List.mem_cons.mp hhop with rfl | hhop <;> rcases List.mem_cons.mp hhop' with rfl | hhop'
      · exact Or.inl rfl
      · exact Or.inr (Or.inl (hfrom _ (List.of_mem_zip hhop').1))
      · exact Or.inr (Or.inr (hfrom _ (List.of_mem_zip hhop).1))
      · exact ih (List.isChain_cons_cons.mp h).2 hhop hhop'

/-! ## The returned list -/

/-- What the returned points are for: they start at the first node, have all nodes among them, go
back neither in place nor in time, are no more than a step apart, and between the nodes they are on
the motion of the hop that they fall in. -/
structure Interpolates (o : Offsets ℝ) (trajectory : List Node) (points : List (PlanPoint ℝ)) :
    Prop where
  starts : points.head? = trajectory.head?.map o.nodePoint
  nodes : ∀ n ∈ trajectory, o.nodePoint n ∈ points
  downtracks : points.IsChain fun p q => p.downtrack ≤ q.downtrack
  times : points.IsChain fun p q => p.stamp.le q.stamp = true
  gaps : points.IsChain fun p q => q.downtrack - p.downtrack ≤ o.distanceStep
  motion : ∀ p ∈ points, (∃ n ∈ trajectory, p = o.nodePoint n) ∨
    ∃ hop ∈ trajectory.zip trajectory.tail,
      (o.x hop.1 ≤ p.downtrack ∧ p.downtrack ≤ o.x hop.2) ∧ OnHop o hop.1 hop.2 p

/-- All stretches of the call are sound. -/
def Sound (distanceStep : ℝ) (trajectory : List Node) : Prop :=
  ∀ st ∈ stretches distanceStep trajectory, st.Sound distanceStep

theorem stretches_fit {distanceStep : ℝ} (hstep : 0 < distanceStep) {trajectory : List Node}
    (hplan : Plan trajectory) {st : Stretch} (h : st ∈ stretches distanceStep trajectory) :
    st.Fits distanceStep ∧ (st.previous, st.current) ∈ trajectory.zip trajectory.tail := by
  cases trajectory with
  | nil => cases h
  | cons n rest => exact stretchesFrom_fit hstep hplan le_rfl (by rwa [sub_self]) le_rfl h

theorem mem_interpolateMotion {o : Offsets ℝ} {trajectory : List Node} {p : PlanPoint ℝ} :
    p ∈ interpolateMotion mathSqrt o trajectory ↔
      (∃ n ∈ trajectory, p = o.nodePoint n) ∨
        ∃ st ∈ stretches o.distanceStep trajectory, p ∈ between mathSqrt o st.base st.current := by
  cases trajectory with
  | nil => simp [interpolateMotion, stretches]
  | cons n rest =>
    unfold interpolateMotion stretches
    rw [List.mem_cons, mem_interpolateFrom n]
    simp only [List.mem_cons, exists_eq_or_imp, or_assoc]

/-- The points that are put in are on the motion just when all stretches are sound. -/
theorem motion_iff {o : Offsets ℝ} (hstep : 0 < o.distanceStep) {trajectory : List Node}
    (hplan : Plan trajectory) :
    (∀ p ∈ interpolateMotion mathSqrt o trajectory, (∃ n ∈ trajectory, p = o.nodePoint n) ∨
      ∃ hop ∈ trajectory.zip trajectory.tail,
        (o.x hop.1 ≤ p.downtrack ∧ p.downtrack ≤ o.x hop.2) ∧ OnHop o hop.1 hop.2 p) ↔
      Sound o.distanceStep trajectory := by
  have honward : trajectory.IsChain fun s n => s.distance ≤ n.distance := hplan.imp fun _ _ h => h.onward
  constructor
  · intro h st hst j hlt
    obtain ⟨hfits, hhop⟩ := stretches_fit hstep hplan hst
    have hgt := hfits.place_gt hstep j
    rw [← hfits.onHop_iff hgt hlt]
    have hmem := mem_interpolateMotion.mpr
      (Or.inr ⟨st, hst, (hfits.mem_between hstep).mpr ⟨j, hlt, rfl⟩⟩)
    rcases h _ hmem with ⟨n, hn, heq⟩ | ⟨hop, hhop', ⟨hlow, hhigh⟩, hon⟩
    · -- no node is inside the hop
      have hplace : st.place o.distanceStep j + o.distanceOffset = o.x n :=
        congrArg (·.downtrack) heq
      unfold Offsets.x at hplace
      rcases members_apart honward hhop hn with hle | hle
      · have : (n.distance : ℝ) ≤ st.previous.distance := by exact_mod_cast hle
        linarith
      · have : (st.current.distance : ℝ) ≤ n.distance := by exact_mod_cast hle
        linarith
    · change o.x hop.1 ≤ st.place o.distanceStep j + o.distanceOffset at hlow
      change st.place o.distanceStep j + o.distanceOffset ≤ o.x hop.2 at hhigh
      unfold Offsets.x at hlow hhigh
      rcases hops_apart honward hhop hhop' with heq | hbehind | hbehind
      · rw [← heq] at hon
        exact hon
      · have : (st.current.distance : ℝ) ≤ hop.1.distance := by exact_mod_cast hbehind
        linarith
      · have : (hop.2.distance : ℝ) ≤ st.previous.distance := by exact_mod_cast hbehind
        linarith
  · intro h p hp
    rcases mem_interpolateMotion.mp hp with hnode | ⟨st, hst, hp⟩
    · exact Or.inl hnode
    · obtain ⟨hfits, hhop⟩ := stretches_fit hstep hplan hst
      obtain ⟨j, hlt, rfl⟩ := (hfits.mem_between hstep).mp hp
      have hgt := hfits.place_gt hstep j
      refine Or.inr ⟨_, hhop, ⟨?_, ?_⟩, (hfits.onHop_iff hgt hlt).mpr (h st hst j hlt)⟩
      · show o.x st.previous ≤ st.place o.distanceStep j + o.distanceOffset
        unfold Offsets.x
        linarith
      · show st.place o.distanceStep j + o.distanceOffset ≤ o.x st.current
        unfold Offsets.x
        linarith

/-- On every plan, the returned list is an interpolation of it just when on each stretch where
points are put in the motion from its base meets the motion of the hop there. -/
theorem interpolateMotion_interpolates_iff {trajectory : List Node} (hplan : Plan trajectory)
    {o : Offsets ℝ} (hstep : 0 < o.distanceStep) :
    Interpolates o trajectory (interpolateMotion mathSqrt o trajectory) ↔
      Sound o.distanceStep trajectory := by
  constructor
  · intro h
    exact (motion_iff hstep hplan).mp h.motion
  · intro h
    have hmotion := (motion_iff hstep hplan).mpr h
    have hnodes : ∀ n ∈ trajectory, o.nodePoint n ∈ interpolateMotion mathSqrt o trajectory :=
      fun n hn => mem_interpolateMotion.mpr (Or.inl ⟨n, hn, rfl⟩)
    cases trajectory with
    | nil =>
      exact ⟨rfl, hnodes, List.isChain_nil, List.isChain_nil, List.isChain_nil, hmotion⟩
    | cons n rest =>
      have hnear : (n.distance : ℝ) - n.distance < o.distanceStep := by rwa [sub_self]
      have hgaps := interpolateFrom_gaps hstep hplan le_rfl hnear le_rfl
      have htimes := interpolateFrom_times hstep hplan le_rfl hnear le_rfl h
      exact ⟨rfl, hnodes, hgaps.imp fun _ _ hpq => hpq.1, htimes, hgaps.imp fun _ _ hpq => hpq.2,
        hmotion⟩

/-- A hop at a constant speed, as the code's own test has it. -/
theorem interpolateMotion_interpolates_at_constant_speed :
    Interpolates ⟨1, 0, 0⟩ [⟨10, 0, 5⟩, ⟨15, 1, 5⟩]
      (interpolateMotion mathSqrt ⟨1, 0, 0⟩ [⟨10, 0, 5⟩, ⟨15, 1, 5⟩]) := by
  have hplan : Plan [⟨10, 0, 5⟩, ⟨15, 1, 5⟩] :=
    List.isChain_pair.mpr ⟨by decide, by decide, by decide⟩
  refine (interpolateMotion_interpolates_iff hplan one_pos).mpr ?_
  intro st hst j _
  simp only [stretches, stretchesFrom] at hst
  rw [if_neg (by norm_num), List.mem_singleton] at hst
  rw [hst]
  unfold Stretch.MeetsAt
  rw [if_pos rfl]
  exact Or.inl rfl

/-- A vehicle waits for six seconds and then drives 8 m in four. The point at 5 m gets the time 5,
at which it is still waiting, since the interpolation starts where the wait does. -/
theorem a_point_is_put_in_before_the_wait_ends :
    Plan [⟨0, 0, 0⟩, ⟨0, 6, 0⟩, ⟨8, 10, 4⟩] ∧
      ¬ Interpolates ⟨5, 0, 0⟩ [⟨0, 0, 0⟩, ⟨0, 6, 0⟩, ⟨8, 10, 4⟩]
        (interpolateMotion mathSqrt ⟨5, 0, 0⟩ [⟨0, 0, 0⟩, ⟨0, 6, 0⟩, ⟨8, 10, 4⟩]) := by
  have hplan : Plan [⟨0, 0, 0⟩, ⟨0, 6, 0⟩, ⟨8, 10, 4⟩] :=
    List.isChain_cons_cons.mpr ⟨⟨by decide, by decide, by decide⟩,
      List.isChain_pair.mpr ⟨by decide, by decide, by decide⟩⟩
  refine ⟨hplan, fun h => ?_⟩
  have hsound := (motion_iff (o := ⟨5, 0, 0⟩) (by norm_num) hplan).mp h.motion
  have hmem : (⟨⟨0, 0, 0⟩, ⟨0, 6, 0⟩, ⟨8, 10, 4⟩⟩ : Stretch) ∈
      stretches 5 [⟨0, 0, 0⟩, ⟨0, 6, 0⟩, ⟨8, 10, 4⟩] := by
    simp only [stretches, stretchesFrom]
    rw [if_pos (by norm_num), if_neg (by norm_num)]
    exact List.mem_cons_self
  have hmeets := hsound _ hmem 0 (by norm_num [Stretch.place])
  unfold Stretch.MeetsAt Stretch.place hopCourse followed accelOf at hmeets
  rw [if_neg (by decide)] at hmeets
  obtain ⟨t, hlow, -, hhop, hpos, -⟩ := hmeets
  norm_num [Course.after, MIN_ACCELERATION] at hlow hhop hpos
  nlinarith

end carma.plan_interpolator
