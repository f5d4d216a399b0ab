-- The lateral plan after the route following plugin: each window that is left is filled with one
-- maneuver, from the first to the last, unless one starts at the location that means none.
import Mathlib.Algebra.Order.Ring.Rat
import Mathlib.Data.List.TakeWhile
import Carma.NextManeuver
import Carma.RouteFollowingPlugin

open lib lib.free_windows lib.loops
open carma.interval_tree
open carma.lane_change (LaneChangeParameters canPlan)
open carma.maneuvers
open carma.route_service (convertMphToMps)
open carma.trajectory

namespace carma.route_following

variable {K : Type} [LinearOrder K] [Field K]

/-! ## The windows that are left -/

/-- The gaps of the lateral plan that are not below the tolerance. -/
def leftOver (t : Trajectory K) : List (K × K) :=
  (gaps t.startLocation t.endLocation (t.busy .LATERAL)).filter (fits EPSILON)

/-- No window of the tolerance is free, and no two lateral maneuvers overlap. -/
structure LateralsPlanned (t : Trajectory K) : Prop where
  covered : ∀ x, ¬ Window t .LATERAL EPSILON x
  apart : (t.stored .LATERAL).Pairwise (fun m m' => ¬ ManeuversOverlap m m')

variable [IsStrictOrderedRing K]

theorem EPSILON_pos : (0 : K) < EPSILON := by
  unfold EPSILON
  positivity

omit [Field K] [IsStrictOrderedRing K] in
theorem laterals_inOrder {t : Trajectory K} (h : ContainerInvariant t) :
    InOrder t.startLocation t.endLocation (t.busy .LATERAL) := busy_inOrder h (by decide)

omit [Field K] [IsStrictOrderedRing K] in
/-- What keeps a stretch busy has a length. -/
theorem busy_positive {t : Trajectory K} (h : ContainerInvariant t) {ty : ManeuverType}
    {m : IManeuver K} (hm : m ∈ t.stored ty ++ t.stored .COMPLEX) : m.startDist < m.endDist := by
  rcases List.mem_append.mp hm with hm | hm
  · exact h.positive hm
  · exact h.positive hm

theorem lateralsPlanned_iff {t : Trajectory K} (h : ContainerInvariant t) :
    LateralsPlanned t ↔ leftOver t = [] := by
  have hfree : (∃ x, Free t.startLocation t.endLocation (t.busy .LATERAL) EPSILON x) ↔
      leftOver t ≠ [] := exists_free_iff (laterals_inOrder h)
  have hnone : (∀ x, ¬ Window t .LATERAL EPSILON x) ↔ leftOver t = [] := by
    simp only [window_iff h .LATERAL EPSILON_pos, ← not_exists, hfree, not_not]
  exact ⟨fun hplanned => hnone.mp hplanned.covered,
    fun hempty => ⟨hnone.mpr hempty, h.planned.apart .LATERAL⟩⟩

theorem findEarliest_leftOver (t : Trajectory K) : t.findEarliestLateralWindowOfSize EPSILON =
    if t.busy .LATERAL = [] then t.startLocation else ((leftOver t).head?.map (·.1)).getD (-1) := by
  unfold Trajectory.findEarliestLateralWindowOfSize Trajectory.findEarliest leftOver
  rw [lateralExtents_eq, earliestWindow_eq EPSILON_pos, List.head?_filter]
  simp only [List.isEmpty_iff]
  rfl

/-! ## One window -/

/-- A gap with nothing in it: where a lane keeping maneuver is taken. -/
theorem keepLane {t : Trajectory K} (h : ContainerInvariant t) {g : K × K}
    (hg : g ∈ gaps t.startLocation t.endLocation (t.busy .LATERAL)) (hpos : g.1 < g.2) :
    ∃ t', planLaneKeepingManeuver t g.1 g.2 = some t' ∧ ContainerInvariant t' ∧
      t'.startLocation = t.startLocation ∧ t'.endLocation = t.endLocation ∧
      ∀ b, b ∈ t'.busy .LATERAL ↔ b = g ∨ b ∈ t.busy .LATERAL := by
  obtain ⟨hlo, hhi, hclear, -⟩ := gap_bounds (laterals_inOrder h) hg
  have hfree : ∀ m ∈ t.stored .LATERAL ++ t.stored .COMPLEX,
      ¬ Clash g.1 g.2 m.startDist m.endDist := by
    intro m hm
    exact (not_clash_iff hpos (busy_positive h hm)).mpr (hclear _ (List.mem_map_of_mem hm)).symm
  let m : LateralManeuver K := .single g.1 g.2 0
  have htake : Takes t (ofLateral m) :=
    ⟨⟨hlo, hhi⟩, .LATERAL, rfl, fun m' hm' => hfree m' (List.mem_append_left _ hm')⟩
  have hok := (put_iff h.kept (m := ofLateral m) hpos).mpr htake
  have hj := put_joined h.kept (m := ofLateral m) hpos htake
  refine ⟨(t.put (ofLateral m)).2, ?_, ?_, hj.starts, hj.ends, ?_⟩
  · unfold planLaneKeepingManeuver
    rw [if_neg (not_le.mpr hpos)]
    have hadd : t.addManeuver (.lateral m) = (some true, (t.put (ofLateral m)).2) :=
      Prod.ext hok rfl
    rw [hadd]
  · refine (call_invariant_iff h (.addManeuver (.lateral m)) ?_).mpr ?_
    · intro m' hm'
      rw [List.mem_singleton.mp hm']
      exact hpos
    · intro c hc _
      exact hfree (.complex c) (List.mem_append_right _ (complex_mem_stored.mpr hc))
  · intro b
    unfold Trajectory.busy
    simp only [List.mem_map, List.mem_append, hj.stored]
    constructor
    · rintro ⟨m', (⟨rfl, -⟩ | hold) | (⟨-, hkind⟩ | hold), rfl⟩
      · exact Or.inl rfl
      · exact Or.inr ⟨m', Or.inl hold, rfl⟩
      · cases hkind
      · exact Or.inr ⟨m', Or.inr hold, rfl⟩
    · rintro (rfl | ⟨m', hold | hold, rfl⟩)
      · exact ⟨ofLateral m, Or.inl (Or.inl ⟨rfl, rfl⟩), rfl⟩
      · exact ⟨m', Or.inl (Or.inr hold), rfl⟩
      · exact ⟨m', Or.inr (Or.inr hold), rfl⟩

/-- What is left over, without the gap that is filled. -/
theorem keepLane_leftOver {t t' : Trajectory K} (h : ContainerInvariant t)
    (h' : ContainerInvariant t') (hstart : t'.startLocation = t.startLocation)
    (hend : t'.endLocation = t.endLocation) {g : K × K}
    (hmem : ∀ b, b ∈ t'.busy .LATERAL ↔ b = g ∨ b ∈ t.busy .LATERAL) {before after : List (K × K)}
    (hg : gaps t.startLocation t.endLocation (t.busy .LATERAL) = before ++ g :: after) :
    leftOver t' = before.filter (fits EPSILON) ++ after.filter (fits EPSILON) := by
  have horder' := laterals_inOrder h'
  have hpos' : ∀ b ∈ t'.busy .LATERAL, b.1 < b.2 :=
    List.forall_mem_map.mpr fun m hm => busy_positive h' hm
  rw [hstart, hend] at horder'
  unfold leftOver
  rw [hstart, hend, gaps_of_filled (laterals_inOrder h) horder' hpos' hmem hg,
    filter_filled EPSILON_pos]

omit [Field K] [IsStrictOrderedRing K] in
/-- The window ends where the gap does: at the next lateral maneuver, at the complex one, or at the
end of the trajectory. -/
theorem windowEnd_eq {t : Trajectory K} (h : ContainerInvariant t) {g : K × K}
    (hg : g ∈ gaps t.startLocation t.endLocation (t.busy .LATERAL)) (hpos : g.1 < g.2) :
    ∃ m, t.getNextManeuverAfter g.1 .LATERAL = some m ∧
      (((m.map IManeuver.startDist).getD t.endLocation = g.2 ∧
          ∀ c ∈ t.complexManeuver, g.2 ≤ c.startDist) ∨
        ∃ c, t.complexManeuver = some c ∧ c.startDist = g.2 ∧
          c.startDist < (m.map IManeuver.startDist).getD t.endLocation) := by
  obtain ⟨hlo, hhi, hclear, hupTo⟩ := gap_bounds (laterals_inOrder h) hg
  obtain ⟨m, hnext, hfirst⟩ := next_lateral h (hpos.le.trans hhi)
  have hlateral : ∀ m' ∈ t.stored .LATERAL, extent m' ∈ t.busy .LATERAL := fun m' hm' =>
    List.mem_map_of_mem (List.mem_append_left _ hm')
  have hcomplex : ∀ c, t.complexManeuver = some c →
      c.endDist = t.endLocation ∧ g.2 ≤ c.startDist := by
    intro c hc
    have hends := (h.kept.complex_ends c hc).symm
    refine ⟨hends, (hclear (extent (.complex c)) ?_).resolve_left ?_⟩
    · exact List.mem_map_of_mem (List.mem_append_right _ (complex_mem_stored.mpr hc))
    · exact not_le.mpr (hpos.trans_le (hhi.trans hends.ge))
  -- what the gap comes up to starts after its start
  have hkinds : g.2 = t.endLocation ∨ (∃ m' ∈ t.stored .LATERAL, m'.startDist = g.2) ∨
      ∃ c, t.complexManeuver = some c ∧ c.startDist = g.2 := by
    rcases hupTo with hend | ⟨b, hb, hstart⟩
    · exact Or.inl hend
    · obtain ⟨m', hm', rfl⟩ := List.mem_map.mp hb
      rcases List.mem_append.mp hm' with hm' | hm'
      · exact Or.inr (Or.inl ⟨m', hm', hstart⟩)
      · obtain ⟨c, hc, rfl⟩ := mem_stored_complex.mp hm'
        exact Or.inr (Or.inr ⟨c, hc, hstart⟩)
  refine ⟨m, hnext, ?_⟩
  cases m with
  | some m =>
    obtain ⟨hm, hafter, hleast⟩ := hfirst
    have hlong := h.positive hm
    have hin := (h.planned.within .LATERAL m hm).2
    have hge : g.2 ≤ m.startDist :=
      (hclear _ (hlateral m hm)).resolve_left (not_le.mpr (hafter.trans hlong))
    refine Or.inl ⟨?_, fun c hc => (hcomplex c hc).2⟩
    rcases hkinds with hend | ⟨m', hm', hstart⟩ | ⟨c, hc, hstart⟩
    · exact absurd (hend ▸ hge) (not_le.mpr (hlong.trans_le hin))
    · exact le_antisymm (hstart ▸ hleast m' hm' (hstart ▸ hpos)) hge
    · have hends := h.ends_before_complex hc (by decide) hm
      exact absurd (hstart.trans_le hge) (not_le.mpr (hlong.trans_le hends))
  | none =>
    rcases hkinds with hend | ⟨m', hm', hstart⟩ | ⟨c, hc, hstart⟩
    · exact Or.inl ⟨hend.symm, fun c hc => (hcomplex c hc).2⟩
    · exact absurd (hstart ▸ hpos) (hfirst m' hm')
    · exact Or.inr ⟨c, hc, hstart, (h.complex_lt c hc).trans_le (hcomplex c hc).1.le⟩

/-! ## One turn -/

theorem findEarliest_eq {t : Trajectory K} {g : K × K} {rest : List (K × K)}
    (hleft : leftOver t = g :: rest) : t.findEarliestLateralWindowOfSize EPSILON = g.1 := by
  rw [findEarliest_leftOver, hleft]
  split
  · rename_i hempty
    have hg : g ∈ leftOver t := hleft ▸ List.mem_cons_self
    unfold leftOver at hg
    rw [hempty] at hg
    rw [List.mem_singleton.mp (List.mem_filter.mp hg).1]
  · rfl

/-- A turn that finds a gap fills it. It is the last one where the gap ends at the complex
maneuver and no lateral maneuver comes after it. -/
theorem backfill_gap {t : Trajectory K} (h : ContainerInvariant t) {before after : List (K × K)}
    {g : K × K} (hg : gaps t.startLocation t.endLocation (t.busy .LATERAL) = before ++ g :: after)
    (hpos : g.1 < g.2) (hfind : t.findEarliestLateralWindowOfSize EPSILON = g.1) (hne : g.1 ≠ -1) :
    ∃ t', ContainerInvariant t' ∧ t'.busy .LATERAL ≠ [] ∧
      leftOver t' = before.filter (fits EPSILON) ++ after.filter (fits EPSILON) ∧
      (backfill t = .goesOn t' ∨ backfill t = .ends (.returned t' none) ∧
        ∃ c, t.complexManeuver = some c ∧ c.startDist = g.2) := by
  have hmem : g ∈ gaps t.startLocation t.endLocation (t.busy .LATERAL) := by
    rw [hg]
    exact List.mem_append_right _ List.mem_cons_self
  obtain ⟨t', hkeep, h', hstart, hend, hbusy⟩ := keepLane h hmem hpos
  obtain ⟨m, hnext, hwindow⟩ := windowEnd_eq h hmem hpos
  refine ⟨t', h', List.ne_nil_of_mem ((hbusy g).mpr (Or.inl rfl)),
    keepLane_leftOver h h' hstart hend hbusy hg, ?_⟩
  unfold backfill
  dsimp only
  rw [hfind, if_neg hne, hnext]
  dsimp only
  rcases hwindow with ⟨hto, hclear⟩ | ⟨c, hc, hto, hover⟩
  · have hnone : (t.complexManeuver.filter fun c =>
        decide ((m.map IManeuver.startDist).getD t.endLocation > c.startDist)) = none := by
      rw [Option.filter_eq_none_iff]
      intro c hc
      rw [hto, decide_eq_true_eq, not_lt]
      exact hclear c hc
    rw [hnone, hto, hkeep]
    exact Or.inl rfl
  · rw [hc, Option.filter_some, if_pos (decide_eq_true hover)]
    dsimp only
    rw [hto, hkeep]
    exact Or.inr ⟨rfl, c, rfl, hto⟩

/-- After a gap that ends at the complex maneuver there is no room. -/
theorem no_room_after_complex {t : Trajectory K} (h : ContainerInvariant t)
    {before after : List (K × K)} {g : K × K}
    (hg : gaps t.startLocation t.endLocation (t.busy .LATERAL) = before ++ g :: after)
    {c : IComplexManeuver K} (hc : t.complexManeuver = some c) (hto : c.startDist = g.2) :
    after.filter (fits EPSILON) = [] := by
  have horder := laterals_inOrder h
  have hbusy : extent (.complex c) ∈ t.busy .LATERAL :=
    List.mem_map_of_mem (List.mem_append_right _ (complex_mem_stored.mpr hc))
  have hpairs := gaps_pairwise horder
  rw [hg] at hpairs
  have hlater := (List.pairwise_cons.mp (List.pairwise_append.mp hpairs).2.1).1
  rw [List.filter_eq_nil_iff]
  intro g' hg' hfit
  have hmem : g' ∈ gaps t.startLocation t.endLocation (t.busy .LATERAL) := by
    rw [hg]
    exact List.mem_append_right _ (List.mem_cons_of_mem g hg')
  obtain ⟨-, hhi, hclear, -⟩ := gap_bounds horder hmem
  have hshort : g'.2 ≤ g'.1 := by
    rcases hclear _ hbusy with hafter | hbefore
    · exact (hhi.trans (h.kept.complex_ends c hc).le).trans hafter
    · exact (hbefore.trans hto.le).trans (hlater g' hg')
  have hroom := fits_iff.mp hfit
  exact absurd ((lt_add_of_pos_right g'.1 EPSILON_pos).trans_le (hroom.trans hshort)) (lt_irrefl _)

/-- One turn takes the first gap that is left over, and leaves the others. -/
theorem backfill_fills {t : Trajectory K} (h : ContainerInvariant t) {g : K × K}
    {rest : List (K × K)} (hleft : leftOver t = g :: rest) (hne : g.1 ≠ -1) :
    ∃ t', ContainerInvariant t' ∧ t'.busy .LATERAL ≠ [] ∧ leftOver t' = rest ∧
      (backfill t = .goesOn t' ∨ backfill t = .ends (.returned t' none) ∧ rest = []) := by
  obtain ⟨before, after, hg, hbefore, hfit, rfl⟩ := List.filter_eq_cons_iff.mp hleft
  have hpos : g.1 < g.2 := (lt_add_of_pos_right g.1 EPSILON_pos).trans_le (fits_iff.mp hfit)
  obtain ⟨t', h', hbusy, hleft', hturn⟩ := backfill_gap h hg hpos (findEarliest_eq hleft) hne
  refine ⟨t', h', hbusy, ?_, hturn.imp_right ?_⟩
  · rw [hleft', List.filter_eq_nil_iff.mpr hbefore, List.nil_append]
  · rintro ⟨hends, c, hc, hto⟩
    exact ⟨hends, no_room_after_complex h hg hc hto⟩

/-! ## The whole loop -/

/-- The loop fills one gap after the other, up to one that starts at -1. -/
theorem backfill_run {t : Trajectory K} (h : ContainerInvariant t)
    (hsome : t.busy .LATERAL ≠ [] ∨ leftOver t ≠ []) :
    ∃ t', EndsWith backfill t (.returned t' none) ∧ ContainerInvariant t' ∧
      leftOver t' = (leftOver t).dropWhile (fun g => decide (g.1 ≠ -1)) := by
  generalize hleft : leftOver t = left at hsome ⊢
  induction left generalizing t with
  | nil =>
    have hbusy := hsome.resolve_right (fun hne => hne rfl)
    refine ⟨t, (endsWith_ends_iff ?_).mpr rfl, h, hleft⟩
    unfold backfill
    rw [findEarliest_leftOver, if_neg hbusy, hleft]
    exact if_pos rfl
  | cons g rest ih =>
    by_cases hne : g.1 = -1
    · refine ⟨t, (endsWith_ends_iff ?_).mpr rfl, h, ?_⟩
      · unfold backfill
        rw [findEarliest_eq hleft]
        exact if_pos hne
      · rw [hleft, List.dropWhile_cons_of_neg (by simpa using hne)]
    · obtain ⟨t', h', hbusy, hleft', hturn⟩ := backfill_fills h hleft hne
      rw [List.dropWhile_cons_of_pos (by simpa using hne)]
      rcases hturn with hgoesOn | ⟨hends, rfl⟩
      · obtain ⟨last, hlast, hinv, hrest⟩ := ih h' hleft' (Or.inl hbusy)
        exact ⟨last, (endsWith_goesOn_iff hgoesOn).mpr hlast, hinv, hrest⟩
      · exact ⟨t', (endsWith_ends_iff hends).mpr rfl, h', hleft'⟩

omit [Field K] [IsStrictOrderedRing K] in
theorem no_lateral_found {t : Trajectory K} (h : ContainerInvariant t)
    (hempty : t.stored .LATERAL = []) {loc : K} {m : Option (IManeuver K)}
    (hnext : t.getNextManeuverAfter loc .LATERAL = some m) : m = none := by
  have hnone : ∀ x, x ∉ t.lateralManeuvers.intervals := by
    intro x hx
    obtain ⟨a, ha, -⟩ := h.kept.laterals.labeled x hx
    have hstored : ofLateral a ∈ t.stored .LATERAL :=
      List.mem_map_of_mem (mem_toSortedList.mpr ⟨x, hx, ha⟩)
    rw [hempty] at hstored
    cases hstored
  obtain ⟨answer, hanswer, rfl⟩ := Option.map_eq_some_iff.mp hnext
  unfold nextAfter at hanswer
  split at hanswer
  · rename_i a as hpt
    have ha : a ∈ t.lateralManeuvers.findIntersectionsWithPt loc := hpt ▸ List.mem_cons_self
    exact absurd (findPt_sound h.kept.laterals.oneEach ha).1 (hnone a)
  · obtain ⟨q, -, hq⟩ := Option.bind_eq_some_iff.mp hanswer
    have hnil : t.lateralManeuvers.findIntersectionsWith q = [] :=
      List.eq_nil_iff_forall_not_mem.mpr fun x hx =>
        hnone x (find_sound h.kept.laterals.oneEach hx).1
    rw [hnil] at hq
    rw [← Option.some.inj hq]
    rfl

/-- Without a maneuver, what is below the tolerance is filled as well, and an empty trajectory makes
the loop throw. -/
theorem backfill_short {t : Trajectory K} (h : ContainerInvariant t) (hempty : t.busy .LATERAL = [])
    (hleft : leftOver t = []) :
    ∃ o, EndsWith backfill t o ∧ ∀ t', o = .returned t' none → LateralsPlanned t' := by
  have hfind : t.findEarliestLateralWindowOfSize EPSILON = t.startLocation := by
    rw [findEarliest_leftOver, if_pos hempty]
  by_cases hne : t.startLocation = -1
  · refine ⟨.returned t none, (endsWith_ends_iff ?_).mpr rfl, ?_⟩
    · unfold backfill
      rw [hfind]
      exact if_pos hne
    · rintro t' heq
      obtain ⟨rfl, -⟩ := Outcome.returned.inj heq
      exact (lateralsPlanned_iff h).mpr hleft
  · rcases lt_or_ge t.startLocation t.endLocation with hpos | hinverted
    · have hg : gaps t.startLocation t.endLocation (t.busy .LATERAL) =
          [] ++ (t.startLocation, t.endLocation) :: [] := by
        rw [hempty]
        rfl
      obtain ⟨next, h', hbusy, hleft', hturn⟩ := backfill_gap h hg hpos hfind hne
      rcases hturn with hgoesOn | ⟨-, c, hc, -⟩
      · obtain ⟨last, hlast, hinv, hrest⟩ := backfill_run h' (Or.inl hbusy)
        refine ⟨_, (endsWith_goesOn_iff hgoesOn).mpr hlast, ?_⟩
        rintro t' heq
        obtain ⟨rfl, -⟩ := Outcome.returned.inj heq
        rw [hleft'] at hrest
        exact (lateralsPlanned_iff hinv).mpr hrest
      · have hmem : extent (.complex c) ∈ t.busy .LATERAL :=
          List.mem_map_of_mem (List.mem_append_right _ (complex_mem_stored.mpr hc))
        rw [hempty] at hmem
        cases hmem
    · refine ⟨.threw, (endsWith_ends_iff ?_).mpr rfl, nofun⟩
      obtain ⟨hlateral, hcomplex⟩ := List.append_eq_nil_iff.mp (List.map_eq_nil_iff.mp hempty)
      have hnoComplex : t.complexManeuver = none := by
        rw [complexManeuver_none_iff, hcomplex]
        exact fun m => List.not_mem_nil
      unfold backfill
      dsimp only
      rw [hfind, if_neg hne, hnoComplex]
      cases hnext : t.getNextManeuverAfter t.startLocation .LATERAL with
      | none => rfl
      | some m =>
        rw [no_lateral_found h hlateral hnext]
        show nextTurn (planLaneKeepingManeuver t t.startLocation t.endLocation) = _
        unfold planLaneKeepingManeuver
        rw [if_pos hinverted]
        rfl

/-- The loop comes to an end that leaves no gap just where no gap starts at -1. -/
theorem backfill_plans_iff {t : Trajectory K} (h : ContainerInvariant t) :
    (∃ o, EndsWith backfill t o ∧ ∀ t', o = .returned t' none → LateralsPlanned t') ↔
      ∀ g ∈ leftOver t, g.1 ≠ -1 := by
  by_cases hsome : t.busy .LATERAL ≠ [] ∨ leftOver t ≠ []
  · obtain ⟨last, hlast, hinv, hrest⟩ := backfill_run h hsome
    have hplanned : LateralsPlanned last ↔ ∀ g ∈ leftOver t, g.1 ≠ -1 := by
      rw [lateralsPlanned_iff hinv, hrest, List.dropWhile_eq_nil_iff]
      simp only [decide_eq_true_eq]
    rw [← hplanned]
    constructor
    · rintro ⟨o, hends, hall⟩
      exact hall last (hends.unique hlast)
    · intro hok
      refine ⟨_, hlast, ?_⟩
      rintro t' heq
      rw [← (Outcome.returned.inj heq).1]
      exact hok
  · rw [not_or, not_not, not_not] at hsome
    refine iff_of_true (backfill_short h hsome.1 hsome.2) ?_
    rw [hsome.2]
    exact nofun

/-! ## One lane change -/

theorem insertManeuver_spec {V : Type} {tree tree' : IntervalTree K V} {m : V} {start end_ : K}
    {answer : Bool} (h : insertManeuver tree m start end_ = (some answer, tree')) :
    (∀ a, a ∈ tree'.toSortedList ↔ a ∈ tree.toSortedList ∨ (answer = true ∧ a = m)) ∧
      (answer = false → tree' = tree) := by
  by_cases hle : start ≤ end_
  · rw [insertManeuver_eq tree m hle] at h
    obtain ⟨hanswer, rfl⟩ := Prod.ext_iff.mp h
    obtain rfl := Option.some.inj hanswer
    cases hok : (tree.root.insert ⟨some m, start, end_, hle⟩).1 with
    | false =>
      rw [insert_refused _ _ hok]
      simp
    | true =>
      refine ⟨fun a => ?_, nofun⟩
      have htaken := insert_taken _ _ hok
      simp only [mem_toSortedList, IntervalTree.intervals, htaken.mem_iff, List.mem_cons,
        or_and_right, exists_or, exists_eq_left, Option.some.injEq, true_and]
      rw [or_comm, eq_comm]
  · unfold insertManeuver newInterval at h
    rw [dif_neg hle] at h
    cases h

theorem addLateral_spec {t t' : Trajectory K} {m : LateralManeuver K} {answer : Bool}
    (h : t.addManeuver (.lateral m) = (some answer, t')) :
    (∀ m', m' ∈ t'.stored .LATERAL ↔ m' ∈ t.stored .LATERAL ∨ (answer = true ∧ m' = ofLateral m)) ∧
      (answer = false → t' = t) := by
  unfold Trajectory.addManeuver at h
  split at h
  · dsimp only at h
    obtain ⟨hanswer, rfl⟩ := Prod.ext_iff.mp h
    obtain ⟨hstored, hrefused⟩ := insertManeuver_spec (Prod.ext hanswer rfl)
    refine ⟨fun m' => ?_, fun hno => ?_⟩
    · constructor
      · intro hm'
        obtain ⟨a, ha, rfl⟩ := List.mem_map.mp hm'
        exact ((hstored a).mp ha).imp List.mem_map_of_mem (fun ⟨hok, heq⟩ => ⟨hok, heq ▸ rfl⟩)
      · rintro (hold | ⟨hok, rfl⟩)
        · obtain ⟨a, ha, rfl⟩ := List.mem_map.mp hold
          exact List.mem_map_of_mem ((hstored a).mpr (Or.inl ha))
        · exact List.mem_map_of_mem ((hstored m).mpr (Or.inr ⟨hok, rfl⟩))
    · exact congrArg (fun tree => ({ t with lateralManeuvers := tree } : Trajectory K)) (hrefused hno)
  · obtain ⟨hanswer, rfl⟩ := Prod.ext_iff.mp h
    obtain rfl := Option.some.inj hanswer
    simp

omit [IsStrictOrderedRing K] in
theorem addManeuver_starts (t : Trajectory K) (m : ISimpleManeuver K) :
    (t.addManeuver m).2.startLocation = t.startLocation := by
  unfold Trajectory.addManeuver
  split
  · cases m <;> rfl
  · rfl

omit [IsStrictOrderedRing K] in
theorem addLongitudinal_laterals (t : Trajectory K) (m : LongitudinalManeuver K) :
    (t.addManeuver (.longitudinal m)).2.stored .LATERAL = t.stored .LATERAL := by
  unfold Trajectory.addManeuver
  split <;> rfl

omit [Field K] [IsStrictOrderedRing K] in
theorem found_after {V : Type} {startOf endOf : V → K} {tree : IntervalTree K V}
    (hupright : Upright startOf endOf tree) {loc : K} {a : V}
    (ha : a ∈ (tree.findIntersectionsWithPt loc).filterMap (·.data)) : loc < endOf a := by
  obtain ⟨x, hx, hdata⟩ := List.mem_filterMap.mp ha
  obtain ⟨hmem, hp⟩ := findPt_sound hupright.oneEach hx
  obtain ⟨b, hb, -, hend⟩ := hupright.labeled x hmem
  obtain rfl : a = b := Option.some.inj (hdata.symm.trans hb)
  exact hp.2.trans_eq hend

section space

omit [Field K] [IsStrictOrderedRing K]

variable {t : Trajectory K} (h : ContainerInvariant t)

include h

theorem getManeuversAt_after {loc : K} {m : IManeuver K} (hm : m ∈ getManeuversAt t loc) :
    loc < m.endDist := by
  unfold getManeuversAt at hm
  rw [List.mem_append, List.mem_append] at hm
  rcases hm with (hm | hm) | hm
  · obtain ⟨a, ha, rfl⟩ := List.mem_map.mp hm
    exact found_after h.kept.longitudinals ha
  · obtain ⟨a, ha, rfl⟩ := List.mem_map.mp hm
    exact found_after h.kept.laterals ha
  · obtain ⟨c, hc, rfl⟩ := List.mem_map.mp hm
    have hin := (List.mem_filter.mp hc).2
    rw [Bool.and_eq_true, decide_eq_true_eq, decide_eq_true_eq] at hin
    exact hin.2

theorem spaceIsNeeded_clear {start end_ : K} (hneeded : spaceIsNeeded t start end_ = some false)
    {c : IComplexManeuver K} (hc : t.complexManeuver = some c) :
    ¬ Clash start end_ c.startDist c.endDist := by
  unfold spaceIsNeeded at hneeded
  obtain ⟨nextLonMvr, -, hneeded⟩ := Option.bind_eq_some_iff.mp hneeded
  obtain ⟨nextLatMvr, -, hneeded⟩ := Option.bind_eq_some_iff.mp hneeded
  obtain ⟨nextCmplxMvr, hcmplx, hneeded⟩ := Option.bind_eq_some_iff.mp hneeded
  have hfalse := Option.some.inj hneeded
  rw [Bool.or_eq_false_iff, Bool.or_eq_false_iff, Bool.not_eq_false'] at hfalse
  obtain ⟨⟨-, hlater⟩, hnone⟩ := hfalse
  have hnil := List.isEmpty_iff.mp hnone
  rw [hnil, List.foldl_nil] at hcmplx
  -- no maneuver that is active at the end ends before it
  have hend : (getManeuversAt t end_).foldl
      (fun start m => if m.endDist < start then m.startDist else start) end_ = end_ := by
    refine List.foldlRecOn (motive := fun start => start = end_) (getManeuversAt t end_) _ rfl ?_
    intro start hstart m hm
    rw [hstart]
    exact if_neg (not_lt.mpr (getManeuversAt_after h hm).le)
  rw [hend] at hlater
  intro hclash
  obtain ⟨hfirst, hsecond⟩ := max_lt_iff.mp hclash
  rcases le_or_gt c.startDist start with hle | hlt
  · have hmem : IManeuver.complex c ∈ getManeuversAt t start := by
      refine List.mem_append_right _ (List.mem_map_of_mem (List.mem_filter.mpr ⟨?_, ?_⟩))
      · rw [hc]
        exact List.mem_singleton_self c
      · rw [Bool.and_eq_true, decide_eq_true_eq, decide_eq_true_eq]
        exact ⟨hle, hfirst.trans_le (min_le_right _ _)⟩
    rw [hnil] at hmem
    cases hmem
  · have hnext : nextCmplxMvr = some (.complex c) := by
      unfold Trajectory.getNextManeuverAfter at hcmplx
      rw [hc, Option.bind_some, if_pos hlt] at hcmplx
      exact (Option.some.inj hcmplx).symm
    rw [hnext] at hlater
    exact of_decide_eq_false hlater (hsecond.trans_le (min_le_left _ _))

end space

/-- A lane change is not reserved, or it is: as a lateral maneuver, and a longitudinal one if there
is room. -/
theorem planSubtrajectory_cases {p : LaneChanging K} {params : LaneChangeParameters K}
    {t t' : Trajectory K} {start end_ : K}
    (hplan : p.planSubtrajectory params t start end_ = some t') :
    t' = t ∨ ∃ lane motion reserved, canPlan p.currentSpeed start end_ = true ∧
      motion.startDist = start ∧ motion.endDist = end_ ∧
      t.addManeuver (.lateral (.future start end_ lane [])) = (some true, reserved) ∧
      t' = (reserved.addManeuver (.longitudinal (.future motion []))).2 := by
  unfold LaneChanging.planSubtrajectory at hplan
  split at hplan
  · obtain ⟨startingLane, -, hplan⟩ := Option.bind_eq_some_iff.mp hplan
    dsimp only at hplan
    split at hplan
    · rename_i hcan
      split at hplan
      · cases hplan
      · rename_i refused hlat
        obtain rfl := Option.some.inj hplan
        exact Or.inl ((addLateral_spec hlat).2 rfl)
      · rename_i reserved hlat
        refine Or.inr ⟨_, ⟨start, end_, params.startSpeed, params.endSpeed⟩, reserved, hcan, rfl,
          rfl, hlat, ?_⟩
        split at hplan
        · cases hplan
        · rename_i hlon
          rw [hlon]
          exact (Option.some.inj hplan).symm
        · rename_i hlon
          rw [hlon]
          split at hplan
          · exact (Option.some.inj hplan).symm
          · cases hplan
    · exact Or.inl (Option.some.inj hplan).symm
  · exact Or.inl (Option.some.inj hplan).symm

theorem planSubtrajectory_stored {p : LaneChanging K} {params : LaneChangeParameters K}
    {t t' : Trajectory K} {start end_ : K}
    (hplan : p.planSubtrajectory params t start end_ = some t') :
    (∀ m ∈ t.stored .LATERAL, m ∈ t'.stored .LATERAL) ∧
      ∀ m ∈ t'.stored .LATERAL, m ∈ t.stored .LATERAL ∨
        canPlan p.currentSpeed start end_ = true ∧ m.startDist = start ∧ m.endDist = end_ := by
  rcases planSubtrajectory_cases hplan with rfl | ⟨lane, motion, reserved, hcan, -, -, hlat, rfl⟩
  · exact ⟨fun m hm => hm, fun m hm => Or.inl hm⟩
  · rw [addLongitudinal_laterals]
    have hstored := (addLateral_spec hlat).1
    refine ⟨fun m hm => (hstored m).mpr (Or.inl hm), fun m hm => ((hstored m).mp hm).imp_right ?_⟩
    rintro ⟨-, rfl⟩
    exact ⟨hcan, rfl, rfl⟩

/-- A lane change of some length that is clear of the complex maneuver keeps the container. -/
theorem planSubtrajectory_keeps {p : LaneChanging K} {params : LaneChangeParameters K}
    {t t' : Trajectory K} {start end_ : K} (h : ContainerInvariant t)
    (hclear : ∀ c, t.complexManeuver = some c → ¬ Clash start end_ c.startDist c.endDist)
    (hplan : p.planSubtrajectory params t start end_ = some t')
    (hpos : ∀ m ∈ t'.stored .LATERAL, m.startDist < m.endDist) : ContainerInvariant t' := by
  rcases planSubtrajectory_cases hplan with rfl | ⟨lane, motion, reserved, -, hs, he, hlat, rfl⟩
  · exact h
  · rw [addLongitudinal_laterals] at hpos
    have hlt : start < end_ := hpos _ (((addLateral_spec hlat).1 _).mpr (Or.inr ⟨rfl, rfl⟩))
    have hreserved : reserved = call t (.addManeuver (.lateral (.future start end_ lane []))) :=
      (congrArg Prod.snd hlat).symm
    have hinv : ContainerInvariant reserved := by
      rw [hreserved]
      refine (call_invariant_iff h _ ?_).mpr (fun c hc _ => hclear c hc)
      intro m hm
      rw [List.mem_singleton.mp hm]
      exact hlt
    refine (call_invariant_iff hinv (.addManeuver (.longitudinal (.future motion []))) ?_).mpr ?_
    · intro m hm
      rw [List.mem_singleton.mp hm]
      show motion.startDist < motion.endDist
      rw [hs, he]
      exact hlt
    · intro c hc _
      rw [hreserved] at hc
      rcases call_complexManeuver hc with hold | hnew
      · show ¬ Clash motion.startDist motion.endDist c.startDist c.endDist
        rw [hs, he]
        exact hclear c hold
      · cases List.mem_singleton.mp hnew

/-! ## The lane changes -/

omit [IsStrictOrderedRing K] in
/-- A lane change leaves the trajectory, or is planned where no space is needed, as long as the
speed limit and the factors make it. -/
theorem planLaneChange_cases {p : RouteFollowingPlugin K} {t t' : Trajectory K}
    {targetLane : RequiredLane K} {newEnd : Option K}
    (hplan : p.planLaneChange t targetLane = some (t', newEnd)) :
    t' = t ∨ ∃ speedLimit params start end_,
      p.speedLimitAt targetLane.location = some speedLimit ∧
      end_ = start + speedLimit * (p.laneChangeDelayFactor + p.laneChangeRateFactor +
        p.laneChangeSafetyFactor) ∧
      spaceIsNeeded t start end_ = some false ∧
      p.laneChanging.planSubtrajectory params t start end_ = some t' := by
  unfold RouteFollowingPlugin.planLaneChange at hplan
  split at hplan
  · exact Or.inl (congrArg Prod.fst (Option.some.inj hplan)).symm
  · obtain ⟨speedLimit, hlimit, hplan⟩ := Option.bind_eq_some_iff.mp hplan
    dsimp only at hplan
    split at hplan
    · exact Or.inl (congrArg Prod.fst (Option.some.inj hplan)).symm
    · obtain ⟨needed, hneeded, hplan⟩ := Option.bind_eq_some_iff.mp hplan
      obtain ⟨startSpeedLimit, -, hplan⟩ := Option.bind_eq_some_iff.mp hplan
      obtain ⟨endSpeedLimit, -, hplan⟩ := Option.bind_eq_some_iff.mp hplan
      cases needed with
      | true => exact Or.inl (congrArg Prod.fst (Option.some.inj hplan)).symm
      | false =>
        obtain ⟨planned, hplanned, hplan⟩ := Option.bind_eq_some_iff.mp hplan
        obtain rfl : planned = t' := congrArg Prod.fst (Option.some.inj hplan)
        refine Or.inr ⟨speedLimit, _, _, _, hlimit, ?_, hneeded, hplanned⟩
        rw [mul_add, mul_add]

omit [IsStrictOrderedRing K] in
theorem planLanes_carries {p : RouteFollowingPlugin K} {P : Trajectory K → Prop}
    {t t' : Trajectory K} {newEnd : Option K} (hplan : p.planLanes t = some (t', newEnd))
    (hstep : ∀ targetLane ∈ p.lanesOf t, ∀ s s' newEnd,
      p.planLaneChange s targetLane = some (s', newEnd) → P s → P s') (h : P t) : P t' := by
  have hchanges : ∀ {lanes s newEnd}, (∀ targetLane ∈ lanes, ∀ s s' newEnd,
      p.planLaneChange s targetLane = some (s', newEnd) → P s → P s') →
      p.planLaneChanges s lanes = some (t', newEnd) → P s → P t' := by
    intro lanes
    induction lanes with
    | nil =>
      intro s newEnd _ hplan hs
      obtain rfl : s = t' := congrArg Prod.fst (Option.some.inj hplan)
      exact hs
    | cons targetLane lanes ih =>
      intro s newEnd hstep hplan hs
      obtain ⟨hfirst, hothers⟩ := List.forall_mem_cons.mp hstep
      obtain ⟨⟨next, request⟩, hnext, hplan⟩ := Option.bind_eq_some_iff.mp hplan
      have hkept := hfirst s next request hnext hs
      cases request with
      | some newEnd' =>
        obtain rfl : next = t' := congrArg Prod.fst (Option.some.inj hplan)
        exact hkept
      | none => exact ih hothers hplan hkept
  obtain ⟨request, -, hplan⟩ := Option.bind_eq_some_iff.mp hplan
  cases request with
  | some newEnd' =>
    obtain rfl : t = t' := congrArg Prod.fst (Option.some.inj hplan)
    exact h
  | none => exact hchanges hstep hplan h

theorem planLanes_keeps {p : RouteFollowingPlugin K} {t t' : Trajectory K} {newEnd : Option K}
    (h : ContainerInvariant t) (hplan : p.planLanes t = some (t', newEnd))
    (hpos : ∀ m ∈ t'.stored .LATERAL, m.startDist < m.endDist) : ContainerInvariant t' := by
  let P (s : Trajectory K) : Prop :=
    (∀ m ∈ s.stored .LATERAL, m.startDist < m.endDist) → ContainerInvariant s
  refine planLanes_carries (P := P) hplan ?_ (fun _ => h) hpos
  intro targetLane _ s s' newEnd hchange hs hpos'
  rcases planLaneChange_cases hchange with rfl | ⟨_, params, start, end_, -, -, hneeded, hsub⟩
  · exact hs hpos'
  · have hinv := hs fun m hm => hpos' m ((planSubtrajectory_stored hsub).1 m hm)
    exact planSubtrajectory_keeps hinv (fun c hc => spaceIsNeeded_clear hinv hneeded hc) hsub hpos'

/-- Each lane change has a length: the vehicle moves, or the speed limits are above zero. -/
def LaneChangesHaveLength (p : RouteFollowingPlugin K) (t : Trajectory K) : Prop :=
  0 < p.laneChanging.currentSpeed ∨
    0 < p.laneChangeDelayFactor + p.laneChangeRateFactor + p.laneChangeSafetyFactor ∧
      ∀ targetLane ∈ p.lanesOf t, ∀ limit ∈ p.speedLimitAt targetLane.location, 0 < limit

theorem planLanes_positive {p : RouteFollowingPlugin K} {t t' : Trajectory K} {newEnd : Option K}
    (h : ContainerInvariant t) (hlong : LaneChangesHaveLength p t)
    (hplan : p.planLanes t = some (t', newEnd)) :
    ∀ m ∈ t'.stored .LATERAL, m.startDist < m.endDist := by
  let P (s : Trajectory K) : Prop := ∀ m ∈ s.stored .LATERAL, m.startDist < m.endDist
  refine planLanes_carries (P := P) hplan ?_ (fun m hm => h.positive hm)
  intro targetLane htarget s s' newEnd hchange hs m hm
  rcases planLaneChange_cases hchange with rfl | ⟨limit, _, start, end_, hlimit, hend, -, hsub⟩
  · exact hs m hm
  · rcases (planSubtrajectory_stored hsub).2 m hm with hold | ⟨hcan, hstartDist, hendDist⟩
    · exact hs m hold
    · rw [hstartDist, hendDist]
      rcases hlong with hmoves | ⟨hfactors, hlimits⟩
      · -- four seconds of driving are asked for
        have hroom : (4 : ℕ) * p.laneChanging.currentSpeed ≤ end_ - start := of_decide_eq_true hcan
        exact sub_pos.mp ((mul_pos (Nat.cast_pos.mpr four_pos) hmoves).trans_le hroom)
      · rw [hend]
        exact lt_add_of_pos_right start (mul_pos (hlimits targetLane htarget limit hlimit) hfactors)

theorem planLanes_starts {p : RouteFollowingPlugin K} {t t' : Trajectory K} {newEnd : Option K}
    (hplan : p.planLanes t = some (t', newEnd)) : t'.startLocation = t.startLocation := by
  refine planLanes_carries (P := fun s => s.startLocation = t.startLocation) hplan ?_ rfl
  intro targetLane _ s s' newEnd hchange hs
  rcases planLaneChange_cases hchange with rfl | ⟨_, _, start, end_, -, -, -, hsub⟩
  · exact hs
  · rcases planSubtrajectory_cases hsub with rfl | ⟨lane, motion, reserved, -, -, -, hlat, rfl⟩
    · exact hs
    · have hreserved : reserved = (s.addManeuver (.lateral (.future start end_ lane []))).2 :=
        (congrArg Prod.snd hlat).symm
      rw [addManeuver_starts, hreserved, addManeuver_starts]
      exact hs

/-! ## The law -/

/-- `planTrajectory` comes to an end, and unless it throws or asks for a longer trajectory, the
lateral plan is complete. -/
def PlansLaterals (p : RouteFollowingPlugin K) (t : Trajectory K) : Prop :=
  ∃ turns o, p.planTrajectory turns t = some o ∧ ∀ t', o = .returned t' none → LateralsPlanned t'

omit [IsStrictOrderedRing K] in
theorem plansLaterals_iff (p : RouteFollowingPlugin K) (t : Trajectory K) :
    PlansLaterals p t ↔ ∀ t', p.planLanes t = some (t', none) →
      ∃ o, EndsWith backfill t' o ∧ ∀ last, o = .returned last none → LateralsPlanned last := by
  unfold PlansLaterals RouteFollowingPlugin.planTrajectory
  cases p.planLanes t with
  | none => exact iff_of_true ⟨0, .threw, rfl, nofun⟩ nofun
  | some planned =>
    obtain ⟨t', newEnd⟩ := planned
    cases newEnd with
    | some newEnd =>
      refine iff_of_true ⟨0, .returned t' (some newEnd), rfl, ?_⟩ ?_
      · intro last heq
        cases (Outcome.returned.inj heq).2
      · intro last heq
        cases (Prod.ext_iff.mp (Option.some.inj heq)).2
    | none =>
      constructor
      · rintro ⟨turns, o, hloop, hplanned⟩ last heq
        obtain rfl : t' = last := congrArg Prod.fst (Option.some.inj heq)
        exact ⟨o, ⟨turns, hloop⟩, hplanned⟩
      · intro hloop
        obtain ⟨o, ⟨turns, hends⟩, hplanned⟩ := hloop t' rfl
        exact ⟨turns, o, hends, hplanned⟩

/-- From a location on that is not negative, and where each lane change has a length, the lateral
plan is complete. -/
theorem the_laterals_are_planned_where_lane_changes_have_length {p : RouteFollowingPlugin K}
    {t : Trajectory K} (h : ContainerInvariant t) (hstart : 0 ≤ t.startLocation)
    (hlong : LaneChangesHaveLength p t) : PlansLaterals p t := by
  refine (plansLaterals_iff p t).mpr fun t' hlanes => ?_
  have hinv := planLanes_keeps h hlanes (planLanes_positive h hlong hlanes)
  refine (backfill_plans_iff hinv).mpr fun g hg => ?_
  have hlo := (gap_bounds (laterals_inOrder hinv) (List.mem_filter.mp hg).1).1
  rw [planLanes_starts hlanes] at hlo
  exact (neg_one_lt_zero.trans_le (hstart.trans hlo)).ne'

/-- Where each lane change has a length, the plugin leaves no gap just where the lane changes leave
none that starts at -1. -/
theorem the_laterals_are_planned_where_no_gap_starts_at_minus_one (p : RouteFollowingPlugin K)
    (t : Trajectory K) (h : ContainerInvariant t)
    (hpos : ∀ t', p.planLanes t = some (t', none) →
      ∀ m ∈ t'.stored .LATERAL, m.startDist < m.endDist) :
    PlansLaterals p t ↔
      ∀ t', p.planLanes t = some (t', none) → ∀ g ∈ leftOver t', g.1 ≠ -1 := by
  rw [plansLaterals_iff]
  refine forall₂_congr fun t' hlanes => ?_
  have hinv := planLanes_keeps h hlanes (hpos t' hlanes)
  exact backfill_plans_iff hinv

/-- Forty-five miles an hour all along, and another lane from 80 meters on. No neighbor refuses. -/
def oneLaneChange : RouteFollowingPlugin ℚ :=
  onInitialize none none none none ⟨[⟨300, convertMphToMps 45⟩], by decide +kernel⟩
    ⟨[⟨80, 1⟩], by decide +kernel⟩ ⟨fun _ => some 0, 15, 5 / 2, fun _ _ _ => .expires⟩

theorem the_laterals_around_a_lane_change_are_planned :
    PlansLaterals oneLaneChange (newTrajectory 0 120) := by
  refine (the_laterals_are_planned_where_no_gap_starts_at_minus_one oneLaneChange
    (newTrajectory 0 120) (newTrajectory_invariant 0 120) ?_).mpr ?_
  · intro t' hplan m hm
    have hall : ∀ m ∈ ((oneLaneChange.planLanes (newTrajectory 0 120)).map
        (·.1.stored .LATERAL)).getD [], m.startDist < m.endDist := by decide +kernel
    rw [hplan] at hall
    exact hall m hm
  · intro t' hplan g hg
    have hall : ∀ g ∈ ((oneLaneChange.planLanes (newTrajectory 0 120)).map
        (leftOver ·.1)).getD [], g.1 ≠ -1 := by decide +kernel
    rw [hplan] at hall
    exact hall g hg

/-- From one meter before the start of the route on, the first window is taken for none: nothing is
planned before the lane change, and nothing after it. -/
theorem a_gap_at_minus_one_is_left :
    ¬ ∀ (p : RouteFollowingPlugin ℚ) (t : Trajectory ℚ), ContainerInvariant t →
      PlansLaterals p t := by
  intro hall
  have h := newTrajectory_invariant (K := ℚ) (-1) 120
  have hplans := (plansLaterals_iff oneLaneChange (newTrajectory (-1) 120)).mp (hall _ _ h)
  have hchecked : (oneLaneChange.planLanes (newTrajectory (-1) 120)).any (fun planned =>
      planned.2.isNone && (leftOver planned.1).any fun g => g.1 = -1) = true := by decide +kernel
  obtain ⟨⟨reserved, newEnd⟩, hlanes, hleft⟩ := (Option.any_eq_true _ _).mp hchecked
  obtain ⟨hnone, hgap⟩ := Bool.and_eq_true_iff.mp hleft
  obtain rfl := Option.isNone_iff_eq_none.mp hnone
  obtain ⟨g, hg, hstart⟩ := List.any_eq_true.mp hgap
  have hinv := planLanes_keeps h hlanes (planLanes_positive h (Or.inl (by decide +kernel)) hlanes)
  exact (backfill_plans_iff hinv).mp (hplans reserved hlanes) g hg (of_decide_eq_true hstart)

/-! ## A loop that does not end -/

/-- The next window is planned up to `g.2`, and the maneuver is not taken. -/
def RefusedAt (t : Trajectory K) (g : K × K) : Prop :=
  t.findEarliestLateralWindowOfSize EPSILON = g.1 ∧ g.1 ≠ -1 ∧
    (t.getNextManeuverAfter g.1 .LATERAL).map (·.map IManeuver.startDist) = some (some g.2) ∧
    t.complexManeuver.isNone ∧ g.1 < g.2 ∧
    (t.addManeuver (.lateral (.single g.1 g.2 0))).1 = some false

instance (t : Trajectory K) (g : K × K) : Decidable (RefusedAt t g) :=
  inferInstanceAs (Decidable (_ ∧ _))

/-- A maneuver that is not taken leaves the loop where it was. -/
theorem backfill_stuck {t : Trajectory K} {g : K × K} (h : RefusedAt t g) :
    backfill t = .goesOn t := by
  obtain ⟨hfind, hne, hnext, hcomplex, hpos, hrefused⟩ := h
  obtain ⟨m, hm, hto⟩ := Option.map_eq_some_iff.mp hnext
  have hadd : t.addManeuver (.lateral (.single g.1 g.2 0)) = (some false, t) :=
    Prod.ext hrefused ((addLateral_spec (Prod.ext hrefused rfl)).2 rfl)
  unfold backfill
  dsimp only
  rw [hfind, if_neg hne, hm]
  dsimp only
  rw [hto, Option.isNone_iff_eq_none.mp hcomplex]
  show nextTurn (planLaneKeepingManeuver t g.1 g.2) = .goesOn t
  unfold planLaneKeepingManeuver
  rw [if_neg (not_le.mpr hpos), hadd]
  rfl

/-- No speed up to 80 meters, then twenty miles an hour, and the waiting always runs out. The lane
changes at 50 and 70 meters have no length, and the third one starts where the second is. -/
def standing : RouteFollowingPlugin ℚ :=
  onInitialize none none none none
    ⟨[⟨80, convertMphToMps 0⟩, ⟨200, convertMphToMps 20⟩, ⟨300, convertMphToMps 250⟩],
      by decide +kernel⟩
    ⟨[⟨50, 1⟩, ⟨70, 0⟩, ⟨12941 / 125, 1⟩], by decide +kernel⟩
    ⟨fun _ => some 0, 0, 5 / 2, fun _ _ _ => .runsOut⟩

/-- After the first turn the loop plans a maneuver from 0 to 70 meters again and again. -/
theorem the_loop_need_not_end : ¬ PlansLaterals standing (newTrajectory 0 120) := by
  rintro ⟨turns, o, hplan, -⟩
  have hchecked : (standing.planLanes (newTrajectory 0 120)).any (fun planned =>
      planned.2.isNone && (backfill planned.1).goesOnTo fun next =>
        decide (RefusedAt next (0, 70))) = true := by decide +kernel
  obtain ⟨⟨reserved, newEnd⟩, hlanes, hturn⟩ := (Option.any_eq_true _ _).mp hchecked
  obtain ⟨hnone, hgoesOn⟩ := Bool.and_eq_true_iff.mp hturn
  obtain rfl := Option.isNone_iff_eq_none.mp hnone
  obtain ⟨next, hfirst, hrefused⟩ := Turn.goesOnTo_iff.mp hgoesOn
  unfold RouteFollowingPlugin.planTrajectory at hplan
  rw [hlanes] at hplan
  have hends : EndsWith backfill reserved o := ⟨turns, hplan⟩
  exact not_endsWith_of_stuck (backfill_stuck (of_decide_eq_true hrefused)) o
    ((endsWith_goesOn_iff hfirst).mp hends)

end carma.route_following
