-- The next maneuver after a location: of each type, the one that starts first among those
-- wholly after it. A maneuver that starts at the location itself is not after it.
import Mathlib.Algebra.Order.Ring.Rat
import Carma.TrajectoryInvariant

open lib
open carma.interval_tree
open carma.maneuvers

namespace carma.trajectory

variable {K V : Type} [LinearOrder K]

/-! ## The first after a location -/

/-- What starts first among what starts where `lies` says, or nothing where there is none. -/
def First (startOf : V → K) (lies : K → Prop) (stored : List V) : Option V → Prop
  | none => ∀ m ∈ stored, ¬ lies (startOf m)
  | some m => m ∈ stored ∧ lies (startOf m) ∧
      ∀ m' ∈ stored, lies (startOf m') → startOf m ≤ startOf m'

theorem first_map {W : Type} {startOf : V → K} {startOf' : W → K} {f : V → W}
    (hf : ∀ m, startOf' (f m) = startOf m) {lies : K → Prop} {stored : List V} {answer : Option V}
    (h : First startOf lies stored answer) :
    First startOf' lies (stored.map f) (answer.map f) := by
  cases answer with
  | none =>
    refine List.forall_mem_map.mpr (fun m hm => ?_)
    rw [hf]
    exact h m hm
  | some m =>
    obtain ⟨hm, hlies, hfirst⟩ := h
    refine ⟨List.mem_map_of_mem hm, (hf m).symm ▸ hlies, List.forall_mem_map.mpr ?_⟩
    intro m' hm' hlies'
    rw [hf] at hlies' ⊢
    rw [hf]
    exact hfirst m' hm' hlies'

variable {startOf endOf : V → K}

theorem first_of_query {tree : IntervalTree K V} (h : Upright startOf endOf tree) {loc : K}
    {q : Interval K V} (hq : ∀ x ∈ tree.intervals, Overlap q x ↔ loc < x.start) :
    First startOf (loc < ·) tree.toSortedList
      ((tree.findIntersectionsWith q).head?.bind (·.data)) := by
  have hfound : ∀ x, x ∈ tree.findIntersectionsWith q ↔ x ∈ tree.intervals ∧ loc < x.start := by
    intro x
    constructor
    · intro hx
      obtain ⟨hmem, ho⟩ := find_sound h.oneEach hx
      exact ⟨hmem, (hq x hmem).mp ho⟩
    · rintro ⟨hmem, hafter⟩
      exact find_complete h.oneEach h.good (apart_of_pairwise h.apart) hmem ((hq x hmem).mpr hafter)
  have horder := find_in_order (q := q) h.oneEach h.positive
  cases hlist : tree.findIntersectionsWith q with
  | nil =>
    rw [hlist] at hfound
    refine (forall_stored h (fun s _ => ¬ loc < s)).mpr (fun x hx hafter => ?_)
    exact List.not_mem_nil ((hfound x).mpr ⟨hx, hafter⟩)
  | cons x xs =>
    unfold IntervalTree.findIntersectionsWith at hlist hfound
    rw [hlist] at hfound horder
    obtain ⟨hx, hafter⟩ := (hfound x).mp List.mem_cons_self
    obtain ⟨m, hd, hs, -⟩ := h.labeled x hx
    rw [List.head?_cons, Option.bind_some, hd]
    refine ⟨mem_toSortedList.mpr ⟨x, hx, hd⟩, hs ▸ hafter, ?_⟩
    refine (forall_stored h (fun s _ => loc < s → startOf m ≤ s)).mpr (fun y hy hlater => ?_)
    rw [← hs]
    rcases List.mem_cons.mp ((hfound y).mpr ⟨hy, hlater⟩) with rfl | hrest
    · exact le_rfl
    · exact x.start_le_end.trans ((List.pairwise_cons.mp horder).1 y hrest)

theorem query_from_gap {tree : IntervalTree K V} (h : Upright startOf endOf tree) {loc endLocation : K}
    (hin : ∀ x ∈ tree.intervals, x.end_ ≤ endLocation)
    (hgap : ∀ x ∈ tree.intervals, loc ∉ x.points) (hle : loc ≤ endLocation) :
    ∀ x ∈ tree.intervals, Overlap ⟨none, loc, endLocation, hle⟩ x ↔ loc < x.start := by
  intro x hx
  have hpos := Interval.lt_of_not_empty (h.positive x hx)
  rw [overlap_iff, max_lt_iff, lt_min_iff, lt_min_iff]
  constructor
  · rintro ⟨⟨-, hend⟩, -, -⟩
    by_contra hstart
    exact hgap x hx ⟨not_lt.mp hstart, hend⟩
  · intro hafter
    have hend := hpos.trans_le (hin x hx)
    exact ⟨⟨hafter.trans hend, hafter.trans hpos⟩, hend, hpos⟩

theorem query_from_end {tree : IntervalTree K V} (h : Upright startOf endOf tree) {loc endLocation : K}
    (hin : ∀ x ∈ tree.intervals, x.end_ ≤ endLocation) {a : Interval K V} (ha : a ∈ tree.intervals)
    (hloc : loc ∈ a.points) (hle : a.end_ ≤ endLocation) :
    ∀ x ∈ tree.intervals, Overlap ⟨none, a.end_, endLocation, hle⟩ x ↔ loc < x.start := by
  intro x hx
  have hpos := Interval.lt_of_not_empty (h.positive x hx)
  rw [overlap_iff, max_lt_iff, lt_min_iff, lt_min_iff]
  constructor
  · rintro ⟨⟨-, hend⟩, -, -⟩
    by_contra hstart
    -- `x` would be active at `loc` as well
    have hboth : Overlap a x := ⟨loc, hloc, not_lt.mp hstart, hloc.2.trans hend⟩
    obtain rfl := apart_of_pairwise h.apart a ha x hx hboth
    exact absurd hend (lt_irrefl _)
  · intro hafter
    have hend := hpos.trans_le (hin x hx)
    have hlater : a.end_ ≤ x.start := by
      by_contra hinside
      have hboth : Overlap a x := ⟨x.start, ⟨hloc.1.trans hafter.le, not_le.mp hinside⟩, le_rfl, hpos⟩
      obtain rfl := apart_of_pairwise h.apart a ha x hx hboth
      exact absurd hloc.1 (not_le.mpr hafter)
    exact ⟨⟨hlater.trans_lt hend, hlater.trans_lt hpos⟩, hend, hpos⟩

/-- Up to the end of the trajectory, the search in a tree does not throw and finds the first
maneuver after `loc`. -/
theorem nextAfter_first {tree : IntervalTree K V} (h : Upright startOf endOf tree)
    {loc endLocation : K} (hin : ∀ m ∈ tree.toSortedList, endOf m ≤ endLocation)
    (hle : loc ≤ endLocation) :
    ∃ answer, nextAfter tree loc endLocation = some answer ∧
      First startOf (loc < ·) tree.toSortedList answer := by
  have hends := (forall_stored h (fun _ e => e ≤ endLocation)).mp hin
  unfold nextAfter
  cases hpt : tree.findIntersectionsWithPt loc with
  | nil =>
    have hgap : ∀ x ∈ tree.intervals, loc ∉ x.points := by
      intro x hx hp
      have hmem := findPt_complete h.oneEach h.good (apart_of_pairwise h.apart) hx hp
      unfold IntervalTree.findIntersectionsWithPt at hpt
      rw [hpt] at hmem
      cases hmem
    dsimp only
    rw [newInterval_eq hle]
    exact ⟨_, rfl, first_of_query h (query_from_gap h hends hgap hle)⟩
  | cons a as =>
    obtain ⟨ha, hp⟩ := findPt_sound h.oneEach (t := tree.root) (y := a) (p := loc)
      (show a ∈ tree.findIntersectionsWithPt loc by rw [hpt]; exact List.mem_cons_self)
    dsimp only
    rw [newInterval_eq (hends a ha)]
    exact ⟨_, rfl, first_of_query h (query_from_end h hends ha hp (hends a ha))⟩

/-! ## The law -/

theorem next_longitudinal {t : Trajectory K} (h : ContainerInvariant t) {loc : K}
    (hloc : loc ≤ t.endLocation) : ∃ answer, t.getNextManeuverAfter loc .LONGITUDINAL = some answer ∧
      First IManeuver.startDist (loc < ·) (t.stored .LONGITUDINAL) answer := by
  have hin := forall_longitudinals (P := fun _ e => e ≤ t.endLocation).mp
    (fun m hm => (h.planned.within .LONGITUDINAL m hm).2)
  obtain ⟨answer, hnext, hfirst⟩ := nextAfter_first h.kept.longitudinals hin hloc
  refine ⟨answer.map ofLongitudinal, ?_, first_map (fun _ => rfl) hfirst⟩
  unfold Trajectory.getNextManeuverAfter
  rw [hnext]
  rfl

theorem next_lateral {t : Trajectory K} (h : ContainerInvariant t) {loc : K}
    (hloc : loc ≤ t.endLocation) : ∃ answer, t.getNextManeuverAfter loc .LATERAL = some answer ∧
      First IManeuver.startDist (loc < ·) (t.stored .LATERAL) answer := by
  have hin := forall_laterals (P := fun _ e => e ≤ t.endLocation).mp
    (fun m hm => (h.planned.within .LATERAL m hm).2)
  obtain ⟨answer, hnext, hfirst⟩ := nextAfter_first h.kept.laterals hin hloc
  refine ⟨answer.map ofLateral, ?_, first_map (fun _ => rfl) hfirst⟩
  unfold Trajectory.getNextManeuverAfter
  rw [hnext]
  rfl

/-- At each location up to the end of the trajectory, and for the complex maneuver at each
location, the call does not throw and returns the first maneuver of the type after it. -/
theorem next_maneuver_is_the_first_after {t : Trajectory K} (h : ContainerInvariant t) {loc : K}
    {ty : ManeuverType} (hloc : ty ≠ .COMPLEX → loc ≤ t.endLocation) :
    ∃ answer, t.getNextManeuverAfter loc ty = some answer ∧
      First IManeuver.startDist (loc < ·) (t.stored ty) answer := by
  cases ty with
  | LONGITUDINAL => exact next_longitudinal h (hloc (by decide))
  | LATERAL => exact next_lateral h (hloc (by decide))
  | COMPLEX =>
    refine ⟨_, rfl, ?_⟩
    unfold Trajectory.stored
    cases t.complexManeuver with
    | none => exact fun m hm => absurd hm List.not_mem_nil
    | some c =>
      dsimp only [Option.bind_some]
      split
      · rename_i hafter
        refine ⟨List.mem_singleton.mpr rfl, hafter, ?_⟩
        intro m' hm' _
        obtain rfl := List.mem_singleton.mp hm'
        exact le_rfl
      · rename_i hbefore
        intro m hm
        obtain rfl := List.mem_singleton.mp hm
        exact hbefore

/-- A steady speed from 2 to 4, and one from 4 to 6. -/
def twoSteadySpeeds : Trajectory ℚ :=
  runs.run call (newTrajectory 0 10)
    [.addManeuver (.longitudinal (.single .steadySpeed ⟨2, 4, 1, 1⟩)),
      .addManeuver (.longitudinal (.single .steadySpeed ⟨4, 6, 1, 1⟩))]

theorem twoSteadySpeeds_invariant : ContainerInvariant twoSteadySpeeds := by
  have hfirst := (call_invariant_iff (newTrajectory_invariant (0 : ℚ) 10)
    (.addManeuver (.longitudinal (.single .steadySpeed ⟨2, 4, 1, 1⟩))) (by decide)).mpr
      (fun c hc => by cases hc)
  exact (call_invariant_iff hfirst
    (.addManeuver (.longitudinal (.single .steadySpeed ⟨4, 6, 1, 1⟩))) (by decide)).mpr
      (fun c hc => by cases hc)

theorem next_maneuver_at_three_is_the_first_after :
    ∃ answer, twoSteadySpeeds.getNextManeuverAfter 3 .LONGITUDINAL = some answer ∧
      First IManeuver.startDist (3 < ·) (twoSteadySpeeds.stored .LONGITUDINAL) answer :=
  next_maneuver_is_the_first_after twoSteadySpeeds_invariant (fun _ => by decide +kernel)

/-- The steady speed that starts at 2 is not the next one after 2, and past the end of the
trajectory the call throws. -/
theorem the_maneuver_at_the_location_is_passed :
    (¬ ∀ (t : Trajectory ℚ) (loc : ℚ) (ty : ManeuverType), ContainerInvariant t →
      ∃ answer, t.getNextManeuverAfter loc ty = some answer ∧
        First IManeuver.startDist (loc ≤ ·) (t.stored ty) answer) ∧
    (twoSteadySpeeds.getNextManeuverAfter 2 .LONGITUDINAL).map (·.map IManeuver.startDist) =
      some (some 4) ∧
    (twoSteadySpeeds.getNextManeuverAfter 11 .LONGITUDINAL).isNone := by
  have hnext : (twoSteadySpeeds.getNextManeuverAfter 2 .LONGITUDINAL).map
      (·.map IManeuver.startDist) = some (some 4) := by decide +kernel
  have hstored : ∃ m ∈ twoSteadySpeeds.stored .LONGITUDINAL, m.startDist = 2 := by decide +kernel
  refine ⟨?_, hnext, by decide +kernel⟩
  intro hall
  obtain ⟨answer, hanswer, hfirst⟩ := hall twoSteadySpeeds 2 .LONGITUDINAL twoSteadySpeeds_invariant
  obtain ⟨m, hm, hstart⟩ := hstored
  rw [hanswer] at hnext
  cases answer with
  | none => cases hnext
  | some m' =>
    have hfour : m'.startDist = 4 := by simpa using hnext
    have hle := hfirst.2.2 m hm hstart.ge
    rw [hstart, hfour] at hle
    exact absurd hle (by decide +kernel)

end carma.trajectory
