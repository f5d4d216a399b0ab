-- What the calls of a trajectory do to the maneuvers that it stores. As long
-- as every maneuver ends after it starts, each tree is a set of maneuvers that
-- keep apart.
import Carma.Trajectory
import Carma.IntervalTreeSpecs

open lib
open carma.interval_tree
open carma.maneuvers

namespace carma.trajectory

variable {K V : Type} [LinearOrder K]

/-! ## What is stored -/

/-- `[start, end_)` and `[start', end_')` share a point. -/
def Clash (start end_ start' end_' : K) : Prop := max start start' < min end_ end_'

instance (s e s' e' : K) : Decidable (Clash s e s' e') := inferInstanceAs (Decidable (_ < _))

/-- Two maneuvers are active at one distance. -/
def ManeuversOverlap (m m' : IManeuver K) : Prop :=
  Clash m.startDist m.endDist m'.startDist m'.endDist

instance (m m' : IManeuver K) : Decidable (ManeuversOverlap m m') :=
  inferInstanceAs (Decidable (Clash _ _ _ _))

theorem mem_toSortedList {tree : IntervalTree K V} {m : V} :
    m ∈ tree.toSortedList ↔ ∃ x ∈ tree.intervals, x.data = some m := List.mem_filterMap

/-- The maneuvers of one type that the trajectory stores. -/
def Trajectory.stored (t : Trajectory K) : ManeuverType → List (IManeuver K)
  | .LATERAL => t.getLateralManeuvers.map ofLateral
  | .LONGITUDINAL => t.getLongitudinalManeuvers.map ofLongitudinal
  | .COMPLEX => (t.complexManeuver.map .complex).toList

/-- The tree that a simple maneuver goes to. -/
def typeOf : ISimpleManeuver K → Option ManeuverType
  | .longitudinal _ => some .LONGITUDINAL
  | .lateral _ => some .LATERAL
  | .neither _ _ => none

theorem mem_stored_complex {t : Trajectory K} {m : IManeuver K} :
    m ∈ t.stored .COMPLEX ↔ ∃ c, t.complexManeuver = some c ∧ m = .complex c := by
  unfold Trajectory.stored
  cases t.complexManeuver with
  | none => simp
  | some c => simp

theorem complex_mem_stored {t : Trajectory K} {c : IComplexManeuver K} :
    .complex c ∈ t.stored .COMPLEX ↔ t.complexManeuver = some c := by
  rw [mem_stored_complex]
  constructor
  · rintro ⟨d, hd, he⟩
    cases he
    exact hd
  · exact fun h => ⟨c, h, rfl⟩

/-! ## The listing -/

/-- The loop of `getManeuvers` moves all laterals, unless there is no
longitudinal. -/
theorem peel_eq (laterals : List (LateralManeuver K))
    (longitudinals : List (LongitudinalManeuver K)) (out : List (IManeuver K)) :
    peel laterals longitudinals out =
      if longitudinals = [] then (out, laterals, [])
      else (out ++ laterals.map ofLateral, [], longitudinals) := by
  induction laterals generalizing out with
  | nil =>
    cases longitudinals with
    | nil => simp [peel]
    | cons lon longitudinals => simp [peel]
  | cons lat laterals ih =>
    cases longitudinals with
    | nil => simp [peel]
    | cons lon longitudinals =>
      unfold peel
      simp only [ih, ite_self, reduceCtorEq, if_false, List.append_assoc, List.map_cons,
        List.singleton_append]

theorem getManeuvers_eq (t : Trajectory K) :
    t.getManeuvers = t.stored .LATERAL ++ t.stored .LONGITUDINAL ++ t.stored .COMPLEX := by
  unfold Trajectory.getManeuvers Trajectory.stored
  rw [peel_eq]
  by_cases hlon : t.getLongitudinalManeuvers = []
  · simp only [hlon, if_true, List.map_nil, List.append_nil, List.nil_append, List.isEmpty_nil]
    cases hlat : t.getLateralManeuvers with
    | nil => cases t.complexManeuver <;> simp
    | cons m ms => cases t.complexManeuver <;> simp
  · cases t.complexManeuver <;> simp [hlon]

/-! ## Trees of maneuvers -/

/-- A tree in good order, whose intervals are those of its maneuvers. -/
structure Upright (startOf endOf : V → K) (tree : IntervalTree K V) : Prop where
  oneEach : OneEach tree.root
  good : Good tree.root
  labeled : ∀ x ∈ tree.intervals, ∃ m, x.data = some m ∧ x.start = startOf m ∧ x.end_ = endOf m
  positive : ∀ x ∈ tree.intervals, ¬ x.Empty
  apart : tree.intervals.Pairwise (fun x y => ¬ Overlap x y)

theorem upright_empty (startOf endOf : V → K) : Upright startOf endOf buildIntervalTree :=
  ⟨trivial, trivial, fun _ h => (by cases h), fun _ h => (by cases h), List.Pairwise.nil⟩

variable {startOf endOf : V → K}

theorem forall_stored {tree : IntervalTree K V} (h : Upright startOf endOf tree)
    (P : K → K → Prop) :
    (∀ m ∈ tree.toSortedList, P (startOf m) (endOf m)) ↔ ∀ x ∈ tree.intervals, P x.start x.end_ := by
  constructor
  · intro hm x hx
    obtain ⟨m, hd, hs, he⟩ := h.labeled x hx
    rw [hs, he]
    exact hm m (mem_toSortedList.mpr ⟨x, hx, hd⟩)
  · intro hx m hm
    obtain ⟨x, hxm, hd⟩ := mem_toSortedList.mp hm
    obtain ⟨m', hd', hs, he⟩ := h.labeled x hxm
    obtain rfl : m' = m := by simpa [hd'] using hd
    rw [← hs, ← he]
    exact hx x hxm

theorem upright_lt {tree : IntervalTree K V} (h : Upright startOf endOf tree) :
    ∀ m ∈ tree.toSortedList, startOf m < endOf m :=
  (forall_stored h (fun s e => s < e)).mpr
    (fun x hx => Interval.lt_of_not_empty (h.positive x hx))

theorem upright_pairwise {tree : IntervalTree K V} (h : Upright startOf endOf tree) :
    tree.toSortedList.Pairwise
      (fun m m' => ¬ Clash (startOf m) (endOf m) (startOf m') (endOf m')) := by
  unfold IntervalTree.toSortedList
  rw [List.pairwise_filterMap]
  refine h.apart.imp_of_mem ?_
  intro x y hx hy hno m hm m' hm'
  obtain ⟨a, ha, hs, he⟩ := h.labeled x hx
  obtain ⟨b, hb, hs', he'⟩ := h.labeled y hy
  obtain rfl : a = m := by simpa [ha] using hm
  obtain rfl : b = m' := by simpa [hb] using hm'
  rw [overlap_iff, hs, he, hs', he'] at hno
  exact hno

theorem newInterval_eq {data : Option V} {start end_ : K} (h : start ≤ end_) :
    newInterval data start end_ = some ⟨data, start, end_, h⟩ := by
  unfold newInterval
  rw [dif_pos h]

theorem intersects_iff {tree : IntervalTree K V} (h : Upright startOf endOf tree) {start end_ : K}
    (hle : start ≤ end_) :
    intersects tree start end_ = some false ↔
      ∀ m ∈ tree.toSortedList, ¬ Clash start end_ (startOf m) (endOf m) := by
  unfold intersects
  rw [newInterval_eq hle, forall_stored h (fun s e => ¬ Clash start end_ s e)]
  simp only [Option.bind_eq_bind, Option.bind_some, Option.pure_def, Option.some.injEq,
    Bool.not_eq_false', List.isEmpty_iff]
  constructor
  · intro hnil x hx ho
    have hmem := find_complete h.oneEach h.good (apart_of_pairwise h.apart)
      (q := ⟨none, start, end_, hle⟩) hx ((overlap_iff _ _).mpr ho)
    unfold IntervalTree.findIntersectionsWith at hnil
    rw [hnil] at hmem
    cases hmem
  · intro hno
    apply List.eq_nil_iff_forall_not_mem.mpr
    intro x hx
    obtain ⟨hmem, ho⟩ := find_sound h.oneEach hx
    exact hno x hmem ((overlap_iff _ _).mp ho)

/-- What a search finds has a datum. -/
theorem head_bind_data {tree : IntervalTree K V} (h : Upright startOf endOf tree)
    {found : List (Interval K V)} (hf : ∀ x ∈ found, x ∈ tree.intervals)
    (hnone : found.head?.bind (·.data) = none) : found = [] := by
  cases found with
  | nil => rfl
  | cons x xs =>
    obtain ⟨m, hd, _⟩ := h.labeled x (hf x (by simp))
    simp [hd] at hnone

/-- When there is no next maneuver, one is active at `loc` or none comes up to
`endLocation`. -/
theorem nextAfter_none {tree : IntervalTree K V} (h : Upright startOf endOf tree)
    {loc endLocation : K} (hle : loc ≤ endLocation)
    (hnone : nextAfter tree loc endLocation = some none) :
    (∃ m ∈ tree.toSortedList, startOf m ≤ loc ∧ loc < endOf m) ∨
      ∀ m ∈ tree.toSortedList, ¬ Clash loc endLocation (startOf m) (endOf m) := by
  unfold nextAfter at hnone
  split at hnone
  · rename_i x xs hpt
    obtain ⟨hx, hp⟩ := findPt_sound h.oneEach (t := tree.root) (y := x) (p := loc)
      (show x ∈ tree.findIntersectionsWithPt loc by rw [hpt]; simp)
    obtain ⟨m, hd, hs, he⟩ := h.labeled x hx
    exact Or.inl ⟨m, mem_toSortedList.mpr ⟨x, hx, hd⟩, hs ▸ hp.1, he ▸ hp.2⟩
  · rw [newInterval_eq hle] at hnone
    simp only [Option.bind_eq_bind, Option.bind_some, Option.pure_def, Option.some.injEq] at hnone
    have hnil : tree.findIntersectionsWith ⟨none, loc, endLocation, hle⟩ = [] :=
      head_bind_data h (fun x hx => (find_sound h.oneEach hx).1) hnone
    refine Or.inr ((intersects_iff h hle).mp ?_)
    unfold intersects
    rw [newInterval_eq hle]
    simp [hnil]

theorem nextAfter_of_ended {tree : IntervalTree K V} (hone : OneEach tree.root) {loc endLocation : K}
    (hle : loc ≤ endLocation) (hends : ∀ x ∈ tree.intervals, x.end_ ≤ loc) :
    nextAfter tree loc endLocation = some none := by
  have hpt : tree.findIntersectionsWithPt loc = [] := by
    apply List.eq_nil_iff_forall_not_mem.mpr
    intro x hx
    obtain ⟨hmem, hp⟩ := findPt_sound hone hx
    exact absurd hp.2 (not_lt.mpr (hends x hmem))
  have hq : tree.findIntersectionsWith ⟨none, loc, endLocation, hle⟩ = [] := by
    apply List.eq_nil_iff_forall_not_mem.mpr
    intro x hx
    obtain ⟨hmem, ho⟩ := find_sound hone hx
    rw [overlap_iff, max_lt_iff, lt_min_iff] at ho
    exact absurd ho.1.2 (not_lt.mpr (hends x hmem))
  unfold nextAfter
  rw [hpt, newInterval_eq hle]
  simp [hq]

theorem intersects_of_ended {tree : IntervalTree K V} (hone : OneEach tree.root) {start end_ : K}
    (hle : start ≤ end_) (hends : ∀ x ∈ tree.intervals, x.end_ ≤ start) :
    intersects tree start end_ = some false := by
  have hq : tree.findIntersectionsWith ⟨none, start, end_, hle⟩ = [] := by
    apply List.eq_nil_iff_forall_not_mem.mpr
    intro x hx
    obtain ⟨hmem, ho⟩ := find_sound hone hx
    rw [overlap_iff, max_lt_iff] at ho
    exact absurd (ho.1.trans_le (min_le_right _ _)) (not_lt.mpr (hends x hmem))
  unfold intersects
  rw [newInterval_eq hle]
  simp [hq]

section insert

variable [Field K] [IsStrictOrderedRing K]

theorem insertManeuver_eq (tree : IntervalTree K V) (m : V) {start end_ : K} (h : start ≤ end_) :
    insertManeuver tree m start end_ =
      (some (tree.root.insert ⟨some m, start, end_, h⟩).1,
        ⟨(tree.root.insert ⟨some m, start, end_, h⟩).2⟩) := by
  unfold insertManeuver
  rw [newInterval_eq h]
  simp only [tree_insert_eq tree ⟨some m, start, end_, h⟩ rfl]

theorem insertManeuver_iff {tree : IntervalTree K V} (h : Upright startOf endOf tree) {m : V}
    (hm : startOf m < endOf m) :
    (insertManeuver tree m (startOf m) (endOf m)).1 = some true ↔
      ∀ m' ∈ tree.toSortedList, ¬ Clash (startOf m) (endOf m) (startOf m') (endOf m') := by
  rw [insertManeuver_eq tree m hm.le, forall_stored h (fun s e => ¬ Clash (startOf m) (endOf m) s e)]
  simp only [Option.some.injEq]
  rw [insert_iff _ h.oneEach h.good]
  unfold packing.Fits
  simp only [overlap_iff]
  rfl

theorem insertManeuver_refused {tree : IntervalTree K V} {m : V} {start end_ : K}
    (h : start < end_) (hno : (insertManeuver tree m start end_).1 ≠ some true) :
    insertManeuver tree m start end_ = (some false, tree) := by
  rw [insertManeuver_eq tree m h.le] at hno ⊢
  have hfalse : (tree.root.insert ⟨some m, start, end_, h.le⟩).1 = false := by
    simpa using hno
  rw [hfalse, insert_refused _ _ hfalse]

theorem insertManeuver_taken {tree : IntervalTree K V} {m : V} {start end_ : K}
    (h : start < end_) (hok : (insertManeuver tree m start end_).1 = some true) (m' : V) :
    m' ∈ (insertManeuver tree m start end_).2.toSortedList ↔
      m' = m ∨ m' ∈ tree.toSortedList := by
  rw [insertManeuver_eq tree m h.le] at hok ⊢
  simp only [Option.some.injEq] at hok
  simp only [mem_toSortedList]
  have hperm := insert_taken _ _ hok
  constructor
  · rintro ⟨x, hx, hd⟩
    rcases List.mem_cons.mp (hperm.mem_iff.mp hx) with rfl | hx
    · simp only [Option.some.injEq] at hd
      exact Or.inl hd.symm
    · exact Or.inr ⟨x, hx, hd⟩
  · rintro (rfl | ⟨x, hx, hd⟩)
    · exact ⟨_, hperm.mem_iff.mpr (List.mem_cons_self ..), rfl⟩
    · exact ⟨x, hperm.mem_iff.mpr (List.mem_cons_of_mem _ hx), hd⟩

theorem insertManeuver_upright {tree : IntervalTree K V} (h : Upright startOf endOf tree) {m : V}
    (hm : startOf m < endOf m) :
    Upright startOf endOf (insertManeuver tree m (startOf m) (endOf m)).2 := by
  by_cases hok : (insertManeuver tree m (startOf m) (endOf m)).1 = some true
  · rw [insertManeuver_eq tree m hm.le] at hok ⊢
    simp only [Option.some.injEq] at hok
    let x : Interval K V := ⟨some m, startOf m, endOf m, hm.le⟩
    have hx : ¬ x.Empty := hm.ne
    have hperm : (tree.root.insert x).2.inorder.Perm (x :: tree.root.inorder) :=
      insert_taken _ _ hok
    have hfit := (insert_iff x h.oneEach h.good).mp hok
    have hclear : Clear tree.root.inorder x := fun a ha hae => absurd hae (h.positive a ha)
    refine ⟨insert_oneEach _ _ h.oneEach, insert_good_clear _ _ h.oneEach h.good hx hclear, ?_, ?_, ?_⟩
    · intro y hy
      rcases List.mem_cons.mp (hperm.mem_iff.mp hy) with rfl | hy
      · exact ⟨m, rfl, rfl, rfl⟩
      · exact h.labeled y hy
    · intro y hy
      rcases List.mem_cons.mp (hperm.mem_iff.mp hy) with rfl | hy
      · exact hx
      · exact h.positive y hy
    · refine (hperm.pairwise_iff (fun ho hc => ho (overlap_symm hc))).mpr ?_
      exact List.pairwise_cons.mpr ⟨hfit, h.apart⟩
  · rw [insertManeuver_refused hm hok]
    exact h

end insert

/-! ## What a trajectory takes -/

def Within (t : Trajectory K) (m : IManeuver K) : Prop :=
  t.startLocation ≤ m.startDist ∧ m.endDist ≤ t.endLocation

/-- The list that a maneuver is stored in. -/
def kindOf : IManeuver K → Option ManeuverType
  | .simple m => typeOf m
  | .complex _ => some .COMPLEX

/-- A trajectory takes a simple maneuver that overlaps none of its own type, and
a complex maneuver when it has none and all its maneuvers end before. -/
def Takes (t : Trajectory K) (m : IManeuver K) : Prop :=
  Within t m ∧
    match m with
    | .simple s => ∃ ty, typeOf s = some ty ∧ ∀ m' ∈ t.stored ty, ¬ ManeuversOverlap m m'
    | .complex c => t.complexManeuver = none ∧ ∀ ty, ∀ m' ∈ t.stored ty, m'.endDist ≤ c.startDist

/-- What holds of a trajectory after any calls with maneuvers that end after
they start. -/
structure Kept (t : Trajectory K) : Prop where
  laterals : Upright LateralManeuver.startDist LateralManeuver.endDist t.lateralManeuvers
  longitudinals : Upright LongitudinalManeuver.startDist LongitudinalManeuver.endDist
    t.longitudinalManeuvers
  within : ∀ ty, ∀ m ∈ t.stored ty, Within t m
  complex_ends : ∀ c, t.complexManeuver = some c → t.endLocation = c.endDist

theorem newTrajectory_kept (startLocation endLocation : K) :
    Kept (newTrajectory startLocation endLocation) := by
  refine ⟨upright_empty _ _, upright_empty _ _, ?_, fun c hc => by cases hc⟩
  intro ty m hm
  cases ty <;> cases hm

theorem forall_laterals {t : Trajectory K} {P : K → K → Prop} :
    (∀ m ∈ t.stored .LATERAL, P m.startDist m.endDist) ↔
      ∀ m ∈ t.lateralManeuvers.toSortedList, P m.startDist m.endDist := List.forall_mem_map

theorem forall_longitudinals {t : Trajectory K} {P : K → K → Prop} :
    (∀ m ∈ t.stored .LONGITUDINAL, P m.startDist m.endDist) ↔
      ∀ m ∈ t.longitudinalManeuvers.toSortedList, P m.startDist m.endDist :=
  List.forall_mem_map

/-- A tree whose maneuvers end by the end of the trajectory lets a complex
maneuver in just when they end before it starts. -/
theorem tree_lets_in {tree : IntervalTree K V} (h : Upright startOf endOf tree)
    {start end_ endLocation : K} (hlt : start < end_) (hle : end_ ≤ endLocation)
    (hin : ∀ m ∈ tree.toSortedList, endOf m ≤ endLocation) :
    (nextAfter tree start endLocation = some none ∧ intersects tree start end_ = some false) ↔
      ∀ m ∈ tree.toSortedList, endOf m ≤ start := by
  constructor
  · rintro ⟨hnext, hno⟩ m hm
    rw [intersects_iff h hlt.le] at hno
    have hpos := upright_lt h m hm
    rcases nextAfter_none h (hlt.le.trans hle) hnext with ⟨m', hm', hs, he⟩ | hrest
    · refine absurd ?_ (hno m' hm')
      unfold Clash
      rw [max_eq_left hs]
      exact lt_min hlt he
    · by_contra hc
      refine hrest m hm ?_
      unfold Clash
      rw [min_eq_right (hin m hm)]
      exact max_lt (not_le.mp hc) hpos
  · intro hend
    have hends := (forall_stored h (fun _ e => e ≤ start)).mp hend
    exact ⟨nextAfter_of_ended h.oneEach (hlt.le.trans hle) hends,
      intersects_of_ended h.oneEach hlt.le hends⟩

/-- The checks of `setComplexManeuver` pass when each of them passes. -/
theorem fitsComplex_checks (t : Trajectory K) (c : IComplexManeuver K) :
    t.fitsComplex c = some true ↔
      t.complexManeuver = none ∧ Within t (.complex c) ∧
        (nextAfter t.longitudinalManeuvers c.startDist t.endLocation = some none ∧
          intersects t.longitudinalManeuvers c.startDist c.endDist = some false) ∧
        (nextAfter t.lateralManeuvers c.startDist t.endLocation = some none ∧
          intersects t.lateralManeuvers c.startDist c.endDist = some false) := by
  unfold Trajectory.fitsComplex Trajectory.getNextManeuverAfter Within
  cases t.complexManeuver with
  | some c' => simp
  | none =>
    simp only [Option.isSome_none, Bool.false_eq_true, if_false, true_and]
    split
    · rename_i hno
      simp only [Option.some.injEq, Bool.false_eq_true, false_iff]
      exact fun h => hno h.1
    · rename_i hin
      rw [not_not] at hin
      cases nextAfter t.longitudinalManeuvers c.startDist t.endLocation with
      | none => simp
      | some lon =>
        cases lon with
        | some m => simp
        | none =>
          cases nextAfter t.lateralManeuvers c.startDist t.endLocation with
          | none => simp
          | some lat =>
            cases lat with
            | some m => simp
            | none =>
              cases intersects t.lateralManeuvers c.startDist c.endDist with
              | none => simp
              | some overLat =>
                cases overLat with
                | true => simp
                | false =>
                  cases intersects t.longitudinalManeuvers c.startDist c.endDist with
                  | none => simp
                  | some overLon => cases overLon <;> simp [hin, IManeuver.startDist, IManeuver.endDist]

theorem fitsComplex_iff {t : Trajectory K} (h : Kept t) {c : IComplexManeuver K}
    (hc : c.startDist < c.endDist) : t.fitsComplex c = some true ↔ Takes t (.complex c) := by
  have hinlat := forall_laterals (P := fun _ e => e ≤ t.endLocation).mp
    (fun m hm => (h.within .LATERAL m hm).2)
  have hinlon := forall_longitudinals (P := fun _ e => e ≤ t.endLocation).mp
    (fun m hm => (h.within .LONGITUDINAL m hm).2)
  rw [fitsComplex_checks]
  unfold Takes
  constructor
  · rintro ⟨hnone, hin, hlon, hlat⟩
    refine ⟨hin, hnone, ?_⟩
    intro ty
    cases ty with
    | LATERAL =>
      exact forall_laterals (P := fun _ e => e ≤ c.startDist).mpr
        ((tree_lets_in h.laterals hc hin.2 hinlat).mp hlat)
    | LONGITUDINAL =>
      exact forall_longitudinals (P := fun _ e => e ≤ c.startDist).mpr
        ((tree_lets_in h.longitudinals hc hin.2 hinlon).mp hlon)
    | COMPLEX =>
      intro m hm
      obtain ⟨c', hc', _⟩ := mem_stored_complex.mp hm
      rw [hnone] at hc'
      cases hc'
  · rintro ⟨hin, hnone, hend⟩
    exact ⟨hnone, hin,
      (tree_lets_in h.longitudinals hc hin.2 hinlon).mpr
        (forall_longitudinals (P := fun _ e => e ≤ c.startDist).mp (hend .LONGITUDINAL)),
      (tree_lets_in h.laterals hc hin.2 hinlat).mpr
        (forall_laterals (P := fun _ e => e ≤ c.startDist).mp (hend .LATERAL))⟩

/-! ## One call -/

/-- `m` has joined the maneuvers of `t`. The end of a complex maneuver becomes
the end of the trajectory. -/
structure Joined (t : Trajectory K) (m : IManeuver K) (t' : Trajectory K) : Prop where
  starts : t'.startLocation = t.startLocation
  ends : t'.endLocation = match m with
    | .simple _ => t.endLocation
    | .complex c => c.endDist
  stored : ∀ ty m', m' ∈ t'.stored ty ↔ (m' = m ∧ kindOf m = some ty) ∨ m' ∈ t.stored ty

variable [Field K]

theorem put_complex (t : Trajectory K) (c : IComplexManeuver K) :
    t.put (.complex c) = match t.fitsComplex c with
      | some true => (some true, { t with endLocation := c.endDist, complexManeuver := some c })
      | answer => (answer, t) := rfl

theorem put_outside {t : Trajectory K} {s : ISimpleManeuver K} (h : ¬ Within t (.simple s)) :
    t.put (.simple s) = (some false, t) := by
  have hout : ¬ (s.startDist ≥ t.startLocation ∧ s.endDist ≤ t.endLocation) := h
  unfold Trajectory.put Trajectory.addManeuver
  simp only [if_neg hout]

theorem put_longitudinal {t : Trajectory K} {m : LongitudinalManeuver K}
    (h : Within t (ofLongitudinal m)) :
    t.put (ofLongitudinal m) =
      ((insertManeuver t.longitudinalManeuvers m m.startDist m.endDist).1,
        { t with longitudinalManeuvers :=
          (insertManeuver t.longitudinalManeuvers m m.startDist m.endDist).2 }) :=
  if_pos h

theorem put_lateral {t : Trajectory K} {m : LateralManeuver K} (h : Within t (ofLateral m)) :
    t.put (ofLateral m) =
      ((insertManeuver t.lateralManeuvers m m.startDist m.endDist).1,
        { t with lateralManeuvers :=
          (insertManeuver t.lateralManeuvers m m.startDist m.endDist).2 }) :=
  if_pos h

theorem put_neither (t : Trajectory K) (start end_ : K) :
    t.put (.simple (.neither start end_)) = (some false, t) := by
  unfold Trajectory.put Trajectory.addManeuver
  simp

/-- What a call can do: insert into one of the trees, set the complex maneuver,
or change nothing. -/
theorem put_cases (t : Trajectory K) (m : IManeuver K) :
    (∃ a, m = ofLateral a ∧ t.put m =
      ((insertManeuver t.lateralManeuvers a a.startDist a.endDist).1,
        { t with lateralManeuvers :=
          (insertManeuver t.lateralManeuvers a a.startDist a.endDist).2 })) ∨
    (∃ a, m = ofLongitudinal a ∧ t.put m =
      ((insertManeuver t.longitudinalManeuvers a a.startDist a.endDist).1,
        { t with longitudinalManeuvers :=
          (insertManeuver t.longitudinalManeuvers a a.startDist a.endDist).2 })) ∨
    (∃ c, m = .complex c ∧ t.fitsComplex c = some true ∧ t.put m =
      (some true, { t with endLocation := c.endDist, complexManeuver := some c })) ∨
    ((t.put m).1 ≠ some true ∧ (t.put m).2 = t) := by
  match m with
  | .complex c =>
    rw [put_complex]
    rcases hfit : t.fitsComplex c with _ | _ | _
    · exact Or.inr (Or.inr (Or.inr ⟨by simp, rfl⟩))
    · exact Or.inr (Or.inr (Or.inr ⟨by simp, rfl⟩))
    · exact Or.inr (Or.inr (Or.inl ⟨c, rfl, hfit, rfl⟩))
  | .simple s =>
    by_cases hin : Within t (.simple s)
    · match s with
      | .longitudinal a => exact Or.inr (Or.inl ⟨a, rfl, put_longitudinal hin⟩)
      | .lateral a => exact Or.inl ⟨a, rfl, put_lateral hin⟩
      | .neither s e =>
        rw [put_neither]
        exact Or.inr (Or.inr (Or.inr ⟨by simp, rfl⟩))
    · rw [put_outside hin]
      exact Or.inr (Or.inr (Or.inr ⟨by simp, rfl⟩))

variable [IsStrictOrderedRing K]

/-- A call takes the maneuver just when `Takes` says so. -/
theorem put_iff {t : Trajectory K} (h : Kept t) {m : IManeuver K} (hm : m.startDist < m.endDist) :
    (t.put m).1 = some true ↔ Takes t m := by
  match m with
  | .complex c =>
    rw [← fitsComplex_iff h hm, put_complex]
    rcases hfit : t.fitsComplex c with _ | _ | _ <;> simp
  | .simple s =>
    by_cases hin : Within t (.simple s)
    · match s with
      | .longitudinal m =>
        rw [show IManeuver.simple (.longitudinal m) = ofLongitudinal m from rfl,
          put_longitudinal hin]
        simp only [insertManeuver_iff h.longitudinals hm]
        unfold Takes
        simp only [hin, true_and, ofLongitudinal, typeOf, Option.some.injEq, exists_eq_left']
        exact (forall_longitudinals
          (P := fun s e => ¬ Clash m.startDist m.endDist s e)).symm
      | .lateral m =>
        rw [show IManeuver.simple (.lateral m) = ofLateral m from rfl, put_lateral hin]
        simp only [insertManeuver_iff h.laterals hm]
        unfold Takes
        simp only [hin, true_and, ofLateral, typeOf, Option.some.injEq, exists_eq_left']
        exact (forall_laterals (P := fun s e => ¬ Clash m.startDist m.endDist s e)).symm
      | .neither s e =>
        rw [put_neither]
        simp [Takes, typeOf]
    · rw [put_outside hin]
      simp [Takes, hin]

/-- A maneuver that is not taken changes nothing. -/
theorem put_refused {t : Trajectory K} (h : Kept t) {m : IManeuver K}
    (hm : m.startDist < m.endDist) (hno : ¬ Takes t m) : (t.put m).2 = t := by
  rw [← put_iff h hm] at hno
  rcases put_cases t m with ⟨a, rfl, he⟩ | ⟨a, rfl, he⟩ | ⟨c, rfl, -, he⟩ | ⟨-, hsame⟩
  · rw [he] at hno ⊢
    rw [insertManeuver_refused (show a.startDist < a.endDist from hm) hno]
  · rw [he] at hno ⊢
    rw [insertManeuver_refused (show a.startDist < a.endDist from hm) hno]
  · rw [he] at hno
    exact absurd rfl hno
  · exact hsame

omit [LinearOrder K] [Field K] [IsStrictOrderedRing K] in
theorem mem_map_joined {V : Type} {f : V → IManeuver K} {m : V} {old new : List V}
    (h : ∀ a, a ∈ new ↔ a = m ∨ a ∈ old) (m' : IManeuver K) :
    m' ∈ new.map f ↔ m' = f m ∨ m' ∈ old.map f := by
  simp only [List.mem_map, h]
  constructor
  · rintro ⟨a, rfl | ha, rfl⟩
    · exact Or.inl rfl
    · exact Or.inr ⟨a, ha, rfl⟩
  · rintro (rfl | ⟨a, ha, rfl⟩)
    · exact ⟨m, Or.inl rfl, rfl⟩
    · exact ⟨a, Or.inr ha, rfl⟩

/-- A maneuver that is taken joins those that are there. -/
theorem put_joined {t : Trajectory K} (h : Kept t) {m : IManeuver K}
    (hm : m.startDist < m.endDist) (htake : Takes t m) : Joined t m (t.put m).2 := by
  have hok := (put_iff h hm).mpr htake
  rcases put_cases t m with ⟨a, rfl, he⟩ | ⟨a, rfl, he⟩ | ⟨c, rfl, -, he⟩ | ⟨hno, -⟩
  · rw [he] at hok ⊢
    have htaken := insertManeuver_taken (show a.startDist < a.endDist from hm) hok
    refine ⟨rfl, rfl, ?_⟩
    intro ty m'
    cases ty with
    | LATERAL =>
      rw [and_iff_left (show kindOf (ofLateral a) = some .LATERAL from rfl)]
      exact mem_map_joined htaken m'
    | LONGITUDINAL => simp [Trajectory.stored, Trajectory.getLongitudinalManeuvers, kindOf, typeOf,
        ofLateral]
    | COMPLEX => simp [Trajectory.stored, kindOf, typeOf, ofLateral]
  · rw [he] at hok ⊢
    have htaken := insertManeuver_taken (show a.startDist < a.endDist from hm) hok
    refine ⟨rfl, rfl, ?_⟩
    intro ty m'
    cases ty with
    | LATERAL => simp [Trajectory.stored, Trajectory.getLateralManeuvers, kindOf, typeOf,
        ofLongitudinal]
    | LONGITUDINAL =>
      rw [and_iff_left (show kindOf (ofLongitudinal a) = some .LONGITUDINAL from rfl)]
      exact mem_map_joined htaken m'
    | COMPLEX => simp [Trajectory.stored, kindOf, typeOf, ofLongitudinal]
  · rw [he]
    refine ⟨rfl, rfl, ?_⟩
    intro ty m'
    cases ty with
    | LATERAL => simp [Trajectory.stored, Trajectory.getLateralManeuvers, kindOf]
    | LONGITUDINAL => simp [Trajectory.stored, Trajectory.getLongitudinalManeuvers, kindOf]
    | COMPLEX => simp [mem_stored_complex, htake.2.1, kindOf]
  · exact absurd hok hno

/-- A call keeps the trees upright. -/
theorem put_upright {t : Trajectory K} (h : Kept t) {m : IManeuver K}
    (hm : m.startDist < m.endDist) :
    Upright LateralManeuver.startDist LateralManeuver.endDist (t.put m).2.lateralManeuvers ∧
      Upright LongitudinalManeuver.startDist LongitudinalManeuver.endDist
        (t.put m).2.longitudinalManeuvers := by
  rcases put_cases t m with ⟨a, rfl, he⟩ | ⟨a, rfl, he⟩ | ⟨c, rfl, -, he⟩ | ⟨-, hsame⟩
  · rw [he]
    exact ⟨insertManeuver_upright h.laterals hm, h.longitudinals⟩
  · rw [he]
    exact ⟨h.laterals, insertManeuver_upright h.longitudinals hm⟩
  · rw [he]
    exact ⟨h.laterals, h.longitudinals⟩
  · rw [hsame]
    exact ⟨h.laterals, h.longitudinals⟩

/-- A call keeps what `Kept` says. -/
theorem put_kept {t : Trajectory K} (h : Kept t) {m : IManeuver K}
    (hm : m.startDist < m.endDist) : Kept (t.put m).2 := by
  obtain ⟨hlat, hlon⟩ := put_upright h hm
  by_cases htake : Takes t m
  · have hj := put_joined h hm htake
    refine ⟨hlat, hlon, ?_, ?_⟩
    · intro ty m' hm'
      unfold Within
      rw [hj.starts, hj.ends]
      rcases (hj.stored ty m').mp hm' with ⟨rfl, hk⟩ | hold
      · cases m' with
        | simple s => exact htake.1
        | complex c => exact ⟨htake.1.1, le_rfl⟩
      · cases m with
        | simple s => exact h.within ty m' hold
        | complex c =>
          exact ⟨(h.within ty m' hold).1, (htake.2.2 ty m' hold).trans hm.le⟩
    · intro c hc
      have hmem := (hj.stored .COMPLEX (.complex c)).mp (mem_stored_complex.mpr ⟨c, hc, rfl⟩)
      rw [hj.ends]
      rcases hmem with ⟨rfl, _⟩ | hold
      · rfl
      · obtain ⟨c', hc', he⟩ := mem_stored_complex.mp hold
        cases he
        cases m with
        | simple s => exact h.complex_ends c hc'
        | complex d =>
          rw [htake.2.1] at hc'
          cases hc'
  · rw [put_refused h hm htake] at hlat hlon ⊢
    exact h

end carma.trajectory
