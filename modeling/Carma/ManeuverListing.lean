-- The law of the listing of all maneuvers: it holds each maneuver that the
-- trajectory took once, and when it is in order of their starts.
import Carma.Lib.Runs
import Carma.TrajectorySpecs
import Mathlib.Algebra.Order.Ring.Rat

open lib
open carma.interval_tree
open carma.maneuvers

namespace carma.maneuver_listing

variable {K V : Type} [LinearOrder K]

open IntervalTreeNode carma.trajectory

/-! ## The order of one tree -/

/-- A list of intervals by where they start. -/
def InOrder (xs : List (Interval K V)) : Prop := xs.Pairwise (fun x y => x.start ≤ y.start)

/-- What stands left of a node ends by its start. -/
def LeftEnds : IntervalTreeNode K V → Prop
  | null => True
  | node _ left right first _ =>
    (∀ x ∈ left.inorder, x.end_ ≤ first.start) ∧ LeftEnds left ∧ LeftEnds right

/-- A zero-length interval of the list lies inside `x`. -/
def Around (stored : List (Interval K V)) (x : Interval K V) : Prop :=
  ∃ a ∈ stored, a.Empty ∧ x.start < a.start ∧ a.start < x.end_

theorem inOrder_node {c : K} {l r : IntervalTreeNode K V} {f : Interval K V} :
    InOrder (node c l r f []).inorder ↔
      InOrder l.inorder ∧ InOrder r.inorder ∧ (∀ x ∈ l.inorder, x.start ≤ f.start) ∧
        (∀ y ∈ r.inorder, f.start ≤ y.start) := by
  unfold InOrder
  simp only [IntervalTreeNode.inorder, List.append_assoc, List.cons_append, List.nil_append]
  rw [List.pairwise_append, List.pairwise_cons]
  constructor
  · rintro ⟨hl, ⟨hf, hr⟩, hlr⟩
    exact ⟨hl, hr, fun x hx => hlr x hx f (by simp), hf⟩
  · rintro ⟨hl, hr, hlf, hfr⟩
    refine ⟨hl, ⟨hfr, hr⟩, ?_⟩
    intro x hx y hy
    rcases List.mem_cons.mp hy with rfl | hy
    · exact hlf x hx
    · exact (hlf x hx).trans (hfr y hy)

/-- The intervals of a tree are those of its maneuvers, and stand right where
`LeftEnds` says. -/
structure Labeled (startOf endOf : V → K) (tree : IntervalTree K V) : Prop where
  oneEach : OneEach tree.root
  leftEnds : LeftEnds tree.root
  labeled : ∀ x ∈ tree.intervals, ∃ m, x.data = some m ∧ x.start = startOf m ∧ x.end_ = endOf m

theorem toSortedList_inOrder {startOf endOf : V → K} {tree : IntervalTree K V}
    (h : Labeled startOf endOf tree) :
    tree.toSortedList.Pairwise (fun m m' => startOf m ≤ startOf m') ↔ InOrder tree.intervals := by
  unfold IntervalTree.toSortedList InOrder
  rw [List.pairwise_filterMap]
  constructor
  · intro hp
    refine hp.imp_of_mem ?_
    intro x y hx hy hxy
    obtain ⟨a, ha, hs, _⟩ := h.labeled x hx
    obtain ⟨b, hb, hs', _⟩ := h.labeled y hy
    rw [hs, hs']
    exact hxy a ha b hb
  · intro hp
    refine hp.imp_of_mem ?_
    intro x y hx hy hxy m hm m' hm'
    obtain ⟨a, ha, hs, _⟩ := h.labeled x hx
    obtain ⟨b, hb, hs', _⟩ := h.labeled y hy
    obtain rfl : a = m := by simpa [ha] using hm
    obtain rfl : b = m' := by simpa [hb] using hm'
    rwa [← hs, ← hs']

/-- Both trees are labeled. -/
structure BothLabeled (t : Trajectory K) : Prop where
  laterals : Labeled LateralManeuver.startDist LateralManeuver.endDist t.lateralManeuvers
  longitudinals : Labeled LongitudinalManeuver.startDist LongitudinalManeuver.endDist
    t.longitudinalManeuvers

theorem labeled_empty (startOf endOf : V → K) : Labeled startOf endOf buildIntervalTree :=
  ⟨trivial, trivial, fun _ h => (by cases h)⟩

theorem newTrajectory_labeled (startLocation endLocation : K) :
    BothLabeled (newTrajectory startLocation endLocation) :=
  ⟨labeled_empty _ _, labeled_empty _ _⟩

def BothInOrder (t : Trajectory K) : Prop :=
  InOrder t.lateralManeuvers.intervals ∧ InOrder t.longitudinalManeuvers.intervals

/-- No longitudinal maneuver starts before a lateral one, and none starts after
the complex maneuver does. -/
def LateralsFirst (t : Trajectory K) : Prop :=
  (∀ m ∈ t.stored .LATERAL, ∀ m' ∈ t.stored .LONGITUDINAL, m.startDist ≤ m'.startDist) ∧
    ∀ ty ≠ ManeuverType.COMPLEX, ∀ m ∈ t.stored ty, ∀ c ∈ t.stored .COMPLEX,
      m.startDist ≤ c.startDist

theorem getManeuvers_inOrder {t : Trajectory K} (h : BothLabeled t) :
    t.getManeuvers.Pairwise (fun m m' => m.startDist ≤ m'.startDist) ↔
      BothInOrder t ∧ LateralsFirst t := by
  have hlat : (t.stored .LATERAL).Pairwise (fun m m' => m.startDist ≤ m'.startDist) ↔ _ :=
    List.pairwise_map.trans (toSortedList_inOrder h.laterals)
  have hlon : (t.stored .LONGITUDINAL).Pairwise (fun m m' => m.startDist ≤ m'.startDist) ↔ _ :=
    List.pairwise_map.trans (toSortedList_inOrder h.longitudinals)
  have hcomplex : (t.stored .COMPLEX).Pairwise (fun m m' => m.startDist ≤ m'.startDist) := by
    unfold Trajectory.stored
    cases t.complexManeuver <;> simp
  rw [getManeuvers_eq, List.pairwise_append, List.pairwise_append, hlat, hlon]
  unfold BothInOrder LateralsFirst
  constructor
  · rintro ⟨⟨h1, h2, h3⟩, _, h4⟩
    refine ⟨⟨h1, h2⟩, h3, ?_⟩
    intro ty hne m hm
    refine h4 m (List.mem_append.mpr ?_)
    cases ty with
    | LATERAL => exact Or.inl hm
    | LONGITUDINAL => exact Or.inr hm
    | COMPLEX => exact absurd rfl hne
  · rintro ⟨⟨h1, h2⟩, h3, h4⟩
    refine ⟨⟨h1, h2, h3⟩, hcomplex, ?_⟩
    intro m hm
    rcases List.mem_append.mp hm with hm | hm
    · exact h4 .LATERAL (by decide) m hm
    · exact h4 .LONGITUDINAL (by decide) m hm

theorem forall_stored_of_kind {t : Trajectory K} {m : IManeuver K} {ty : ManeuverType}
    {p : IManeuver K → Prop} (hne : ty ≠ .COMPLEX) (hk : kindOf m = some ty) :
    (∀ ty', ty' ≠ .COMPLEX → kindOf m = some ty' → ∀ a ∈ t.stored ty', p a) ↔
      ∀ a ∈ t.stored ty, p a := by
  constructor
  · exact fun h => h ty hne hk
  · intro h ty' _ hk' a ha
    obtain rfl : ty = ty' := Option.some.inj (hk.symm.trans hk')
    exact h a ha

theorem around_left_iff {c : K} {l r : IntervalTreeNode K V} {f x : Interval K V}
    (hfr : ∀ y ∈ r.inorder, f.start ≤ y.start) (hle : x.end_ ≤ f.start) :
    Around (node c l r f []).inorder x ↔ Around l.inorder x := by
  constructor
  · rintro ⟨a, ha, hae, hxa, hax⟩
    rcases mem_inorder_node.mp ha with ha | rfl | ha
    · exact ⟨a, ha, hae, hxa, hax⟩
    · exact absurd hle (not_le.mpr hax)
    · exact absurd (hle.trans (hfr a ha)) (not_le.mpr hax)
  · rintro ⟨a, ha, hrest⟩
    exact ⟨a, mem_inorder_left ha, hrest⟩

theorem around_right_iff {c : K} {l r : IntervalTreeNode K V} {f x : Interval K V}
    (hlf : ∀ y ∈ l.inorder, y.start ≤ f.start) (hle : f.start ≤ x.start) :
    Around (node c l r f []).inorder x ↔ Around r.inorder x := by
  constructor
  · rintro ⟨a, ha, hae, hxa, hax⟩
    rcases mem_inorder_node.mp ha with ha | rfl | ha
    · exact absurd ((hlf a ha).trans hle) (not_le.mpr hxa)
    · exact absurd hle (not_le.mpr hxa)
    · exact ⟨a, ha, hae, hxa, hax⟩
  · rintro ⟨a, ha, hrest⟩
    exact ⟨a, mem_inorder_right ha, hrest⟩

variable [Field K]

theorem insert_leftEnds (t : IntervalTreeNode K V) (x : Interval K V) (h : LeftEnds t) :
    LeftEnds (t.insert x).2 := by
  induction t with
  | null => exact ⟨by simp [IntervalTreeNode.inorder], trivial, trivial⟩
  | node c l r f rest ihl ihr =>
    obtain ⟨hleft, hl, hr⟩ := h
    unfold IntervalTreeNode.insert
    split
    · rename_i hcmp
      refine ⟨?_, ihl hl, hr⟩
      intro y hy
      rcases mem_of_mem_insert hy with rfl | hy
      · exact ((compareIntervals_lt y f).mp hcmp).2
      · exact hleft y hy
    · exact ⟨hleft, hl, hr⟩
    · exact ⟨hleft, hl, ihr hr⟩

/-- An insert keeps a tree in order, unless it takes an interval around a
zero-length one. -/
theorem insert_inOrder_iff {t : IntervalTreeNode K V} (x : Interval K V) (hone : OneEach t)
    (hends : LeftEnds t) (hin : InOrder t.inorder) :
    InOrder (t.insert x).2.inorder ↔ ((t.insert x).1 = true → ¬ Around t.inorder x) := by
  induction t with
  | null =>
    refine iff_of_true (List.pairwise_singleton _ _) ?_
    rintro _ ⟨a, ha, _⟩
    cases ha
  | node c l r f rest ihl ihr =>
    obtain ⟨rfl, hl1, hr1⟩ := hone
    obtain ⟨hleft, hl2, hr2⟩ := hends
    obtain ⟨hl3, hr3, hlf, hfr⟩ := inOrder_node.mp hin
    unfold IntervalTreeNode.insert
    split
    · rename_i hcmp
      obtain ⟨_, hle⟩ := (compareIntervals_lt x f).mp hcmp
      -- a zero-length interval inside `x` stands left of the node
      simp only [around_left_iff hfr hle, ← ihl hl1 hl2 hl3]
      rw [inOrder_node]
      refine ⟨fun h => h.1, fun h => ⟨h, hr3, ?_, hfr⟩⟩
      intro y hy
      rcases mem_of_mem_insert hy with rfl | hy
      · exact y.start_le_end.trans hle
      · exact hlf y hy
    · exact iff_of_true hin (fun h => by cases h)
    · rename_i hcmp
      obtain ⟨hno, hfx⟩ := (compareIntervals_gt x f).mp hcmp
      simp only
      by_cases hsx : f.start ≤ x.start
      · rw [around_right_iff hlf hsx, ← ihr hr1 hr2 hr3, inOrder_node]
        refine ⟨fun h => h.2.1, fun h => ⟨hl3, h, hlf, ?_⟩⟩
        intro y hy
        rcases mem_of_mem_insert hy with rfl | hy
        · exact hsx
        · exact hfr y hy
      · -- the node itself is the zero-length interval, and `x` goes after it
        have hxf := not_le.mp hsx
        have hf : f.Empty := empty_of_surrounded hno hxf hfx
        cases htake : (r.insert x).1 with
        | false =>
          rw [insert_refused r x htake]
          exact iff_of_true hin (fun h => by cases h)
        | true =>
          refine iff_of_false ?_ ?_
          · rw [inOrder_node]
            exact fun h => hsx (h.2.2.2 x (mem_insert_self htake))
          · exact fun h => h rfl ⟨f, mem_inorder_own, hf, hxf, hfx⟩

theorem insert_sublist (t : IntervalTreeNode K V) (x : Interval K V) :
    t.inorder.Sublist (t.insert x).2.inorder := by
  induction t with
  | null => exact List.nil_sublist _
  | node c l r f rest ihl ihr =>
    unfold IntervalTreeNode.insert
    split
    · exact (ihl.append (List.Sublist.refl _)).append (List.Sublist.refl _)
    · exact List.Sublist.refl _
    · exact (List.Sublist.refl _).append ihr

/-! ## The trees of a trajectory -/

variable [IsStrictOrderedRing K]

/-- An insert of a maneuver takes it in, or changes nothing. -/
theorem insertManeuver_cases (tree : IntervalTree K V) (m : V) (start end_ : K) :
    ((insertManeuver tree m start end_).1 = some true ∧
        (insertManeuver tree m start end_).2.toSortedList.Perm (m :: tree.toSortedList)) ∨
      ((insertManeuver tree m start end_).1 ≠ some true ∧
        (insertManeuver tree m start end_).2 = tree) := by
  by_cases hle : start ≤ end_
  · rw [insertManeuver_eq tree m hle]
    cases hok : (tree.root.insert ⟨some m, start, end_, hle⟩).1 with
    | true => exact Or.inl ⟨rfl, (insert_taken _ _ hok).filterMap _⟩
    | false =>
      rw [insert_refused _ _ hok]
      exact Or.inr ⟨by simp, rfl⟩
  · unfold insertManeuver newInterval
    rw [dif_neg hle]
    exact Or.inr ⟨by simp, rfl⟩

variable {startOf endOf : V → K}

theorem insertManeuver_labeled {tree : IntervalTree K V} (h : Labeled startOf endOf tree) (m : V) :
    Labeled startOf endOf (insertManeuver tree m (startOf m) (endOf m)).2 := by
  by_cases hle : startOf m ≤ endOf m
  · rw [insertManeuver_eq tree m hle]
    refine ⟨insert_oneEach _ _ h.oneEach, insert_leftEnds _ _ h.leftEnds, ?_⟩
    intro x hx
    rcases mem_of_mem_insert hx with rfl | hx
    · exact ⟨m, rfl, rfl, rfl⟩
    · exact h.labeled x hx
  · unfold insertManeuver newInterval
    rw [dif_neg hle]
    exact h

/-- An insert of a maneuver keeps a tree in order, unless it takes it around one
of length zero. -/
theorem insertManeuver_inOrder {tree : IntervalTree K V} (h : Labeled startOf endOf tree) (m : V)
    (hin : InOrder tree.intervals) :
    InOrder (insertManeuver tree m (startOf m) (endOf m)).2.intervals ↔
      ((insertManeuver tree m (startOf m) (endOf m)).1 = some true →
        ∀ a ∈ tree.toSortedList, startOf a = endOf a →
          ¬ (startOf m < startOf a ∧ startOf a < endOf m)) := by
  by_cases hle : startOf m ≤ endOf m
  · rw [insertManeuver_eq tree m hle]
    refine (insert_inOrder_iff _ h.oneEach h.leftEnds hin).trans ?_
    simp only [Option.some.injEq]
    refine imp_congr_right (fun _ => ?_)
    constructor
    · intro hno a ha hae hlt
      obtain ⟨x, hx, hd⟩ := mem_toSortedList.mp ha
      obtain ⟨a', hd', hs, he⟩ := h.labeled x hx
      obtain rfl : a' = a := by simpa [hd'] using hd
      exact hno ⟨x, hx, by rw [Interval.Empty, hs, he, hae], by rw [hs]; exact hlt.1,
        by rw [hs]; exact hlt.2⟩
    · rintro hno ⟨x, hx, hxe, hlt⟩
      obtain ⟨a, hd, hs, he⟩ := h.labeled x hx
      rw [hs] at hlt
      exact hno a (mem_toSortedList.mpr ⟨x, hx, hd⟩) (by rw [← hs, ← he]; exact hxe) hlt
  · unfold insertManeuver newInterval
    rw [dif_neg hle]
    exact iff_of_true hin (fun hc => by cases hc)

theorem insertManeuver_lost {tree : IntervalTree K V} (m : V) (start end_ : K)
    (hno : ¬ InOrder tree.intervals) :
    ¬ InOrder (insertManeuver tree m start end_).2.intervals := by
  by_cases hle : start ≤ end_
  · rw [insertManeuver_eq tree m hle]
    exact fun hin => hno (List.Pairwise.sublist (insert_sublist _ _) hin)
  · unfold insertManeuver newInterval
    rw [dif_neg hle]
    exact hno

/-! ## Runs of calls -/

/-- The trajectory after one call of `addManeuver` or `setComplexManeuver`. -/
def putStep (t : Trajectory K) (m : IManeuver K) : Trajectory K := (t.put m).2

/-- The maneuvers of a run that were accepted. -/
def acceptedIn (t : Trajectory K) : List (IManeuver K) → List (IManeuver K)
  | [] => []
  | m :: ms =>
    if (t.put m).1 = some true then m :: acceptedIn (putStep t m) ms else acceptedIn (putStep t m) ms

/-- The maneuver is not taken around a stored one of length zero of its type. -/
def NotAround (t : Trajectory K) (m : IManeuver K) : Prop :=
  (t.put m).1 = some true → ∀ ty, ty ≠ .COMPLEX → kindOf m = some ty → ∀ a ∈ t.stored ty,
    a.startDist = a.endDist → ¬ (m.startDist < a.startDist ∧ a.startDist < m.endDist)

/-- Everything that the trajectory stores. -/
def allStored (t : Trajectory K) : List (IManeuver K) :=
  t.stored .LATERAL ++ t.stored .LONGITUDINAL ++ t.stored .COMPLEX

/-- The listing holds what was accepted, each once, by where it starts. -/
structure ListedInOrder (startLocation endLocation : K) (mvrs : List (IManeuver K)) : Prop where
  each_once : (runs.run putStep (newTrajectory startLocation endLocation) mvrs).getManeuvers.Perm
    (acceptedIn (newTrajectory startLocation endLocation) mvrs)
  in_order : (runs.run putStep (newTrajectory startLocation endLocation) mvrs).getManeuvers.Pairwise
    (fun m m' => m.startDist ≤ m'.startDist)

theorem put_perm (t : Trajectory K) (m : IManeuver K) :
    (allStored (putStep t m)).Perm
      (if (t.put m).1 = some true then m :: allStored t else allStored t) := by
  unfold putStep allStored
  rcases put_cases t m with ⟨a, rfl, hput⟩ | ⟨a, rfl, hput⟩ | ⟨c, rfl, hfit, hput⟩ | ⟨hno, hsame⟩
  · rw [hput]
    rcases insertManeuver_cases t.lateralManeuvers a a.startDist a.endDist with
      ⟨hok, hperm⟩ | ⟨hno, hsame⟩
    · rw [if_pos hok]
      exact ((hperm.map ofLateral).append_right _).append_right _
    · rw [if_neg hno, hsame]
  · rw [hput]
    rcases insertManeuver_cases t.longitudinalManeuvers a a.startDist a.endDist with
      ⟨hok, hperm⟩ | ⟨hno, hsame⟩
    · rw [if_pos hok]
      refine (((hperm.map ofLongitudinal).append_left _).trans List.perm_middle).append_right _
    · rw [if_neg hno, hsame]
  · have hnone := ((fitsComplex_checks t c).mp hfit).1
    rw [hput, if_pos rfl]
    simp only [Trajectory.stored, hnone, Option.map_some, Option.toList_some, Option.map_none,
      Option.toList_none, List.append_nil]
    exact List.perm_append_singleton _ _
  · rw [if_neg hno, hsame]

theorem run_perm (t : Trajectory K) (mvrs : List (IManeuver K)) :
    (allStored (runs.run putStep t mvrs)).Perm (acceptedIn t mvrs ++ allStored t) := by
  induction mvrs generalizing t with
  | nil => exact List.Perm.refl _
  | cons m ms ih =>
    have hput := put_perm t m
    rw [runs.run_cons]
    refine (ih _).trans ?_
    by_cases hok : (t.put m).1 = some true
    · rw [if_pos hok] at hput
      rw [acceptedIn, if_pos hok]
      exact (hput.append_left _).trans List.perm_middle
    · rw [if_neg hok] at hput
      rw [acceptedIn, if_neg hok]
      exact hput.append_left _

theorem put_labeled (t : Trajectory K) (m : IManeuver K) (h : BothLabeled t) :
    BothLabeled (putStep t m) := by
  unfold putStep
  rcases put_cases t m with ⟨a, rfl, hput⟩ | ⟨a, rfl, hput⟩ | ⟨c, rfl, _, hput⟩ | ⟨_, hsame⟩
  · rw [hput]
    exact ⟨insertManeuver_labeled h.laterals a, h.longitudinals⟩
  · rw [hput]
    exact ⟨h.laterals, insertManeuver_labeled h.longitudinals a⟩
  · rw [hput]
    exact ⟨h.laterals, h.longitudinals⟩
  · rw [hsame]
    exact h

/-- A call keeps both trees in order, unless it takes a maneuver around one of
length zero. -/
theorem put_inOrder (t : Trajectory K) (m : IManeuver K) (h : BothLabeled t)
    (hin : BothInOrder t) : BothInOrder (putStep t m) ↔ NotAround t m := by
  unfold putStep NotAround
  rcases put_cases t m with ⟨a, rfl, hput⟩ | ⟨a, rfl, hput⟩ | ⟨c, rfl, _, hput⟩ | ⟨hno, hsame⟩
  · rw [hput]
    refine (and_iff_left hin.2).trans ((insertManeuver_inOrder h.laterals a hin.1).trans ?_)
    rw [forall_stored_of_kind (show ManeuverType.LATERAL ≠ .COMPLEX by decide) rfl,
      show t.stored .LATERAL = t.lateralManeuvers.toSortedList.map ofLateral from rfl,
      List.forall_mem_map]
    exact Iff.rfl
  · rw [hput]
    refine (and_iff_right hin.1).trans ((insertManeuver_inOrder h.longitudinals a hin.2).trans ?_)
    rw [forall_stored_of_kind (show ManeuverType.LONGITUDINAL ≠ .COMPLEX by decide) rfl,
      show t.stored .LONGITUDINAL = t.longitudinalManeuvers.toSortedList.map ofLongitudinal from rfl,
      List.forall_mem_map]
    exact Iff.rfl
  · rw [hput]
    refine iff_of_true hin ?_
    intro _ ty hne hk
    cases hk
    exact absurd rfl hne
  · rw [hsame]
    exact iff_of_true hin (fun hc => absurd hc hno)

theorem put_lost (t : Trajectory K) (m : IManeuver K) (hno : ¬ BothInOrder t) :
    ¬ BothInOrder (putStep t m) := by
  unfold putStep
  rcases put_cases t m with ⟨a, rfl, hput⟩ | ⟨a, rfl, hput⟩ | ⟨c, rfl, _, hput⟩ | ⟨_, hsame⟩
  · rw [hput]
    intro hin
    by_cases hlat : InOrder t.lateralManeuvers.intervals
    · exact hno ⟨hlat, hin.2⟩
    · exact insertManeuver_lost a a.startDist a.endDist hlat hin.1
  · rw [hput]
    intro hin
    by_cases hlon : InOrder t.longitudinalManeuvers.intervals
    · exact hno ⟨hin.1, hlon⟩
    · exact insertManeuver_lost a a.startDist a.endDist hlon hin.2
  · rw [hput]
    exact hno
  · rwa [hsame]

/-! ## The law -/

/-- After any calls the listing is in order just when no maneuver was taken
around one of length zero of its type and the laterals come first. -/
theorem the_listing_is_in_order_when_laterals_come_first (startLocation endLocation : K)
    (mvrs : List (IManeuver K)) :
    ListedInOrder startLocation endLocation mvrs ↔
      runs.EachCall putStep NotAround (newTrajectory startLocation endLocation) mvrs ∧
        LateralsFirst (runs.run putStep (newTrajectory startLocation endLocation) mvrs) := by
  have hnew := newTrajectory_labeled startLocation endLocation
  have hfresh : BothInOrder (newTrajectory startLocation endLocation) :=
    ⟨List.Pairwise.nil, List.Pairwise.nil⟩
  have hlabeled := runs.run_keeps_always (fun t m h => put_labeled t m h) hnew mvrs
  have hrun := runs.run_iff (fun t m h => put_labeled t m h)
    (fun t m h hin => put_inOrder t m h hin) (fun t m _ hno => put_lost t m hno) hnew hfresh mvrs
  have hperm := run_perm (newTrajectory startLocation endLocation) mvrs
  rw [show allStored (newTrajectory startLocation endLocation) = [] from rfl, List.append_nil]
    at hperm
  rw [← hrun]
  constructor
  · exact fun h => (getManeuvers_inOrder hlabeled).mp h.in_order
  · intro h
    refine ⟨?_, (getManeuvers_inOrder hlabeled).mpr h⟩
    rw [getManeuvers_eq]
    exact hperm

/-- A speed up from 0 and a lane change from 5. -/
def lateLaneChange : List (IManeuver ℚ) :=
  [ofLongitudinal (.single .speedUp ⟨0, 5, 1, 2⟩), ofLateral (.single 5 10 1)]

theorem lateLaneChange_is_in_order_when_laterals_come_first :
    ListedInOrder 0 10 lateLaneChange ↔
      runs.EachCall putStep NotAround (newTrajectory 0 10) lateLaneChange ∧
        LateralsFirst (runs.run putStep (newTrajectory 0 10) lateLaneChange) :=
  the_listing_is_in_order_when_laterals_come_first 0 10 lateLaneChange

/-- The listing starts with the lane change. -/
theorem a_longitudinal_before_a_lateral_is_listed_after_it :
    ¬ ListedInOrder 0 10 lateLaneChange := by
  intro h
  have hle := List.rel_of_pairwise_cons h.in_order (List.mem_cons_self ..)
  exact absurd hle (by decide)

end carma.maneuver_listing
