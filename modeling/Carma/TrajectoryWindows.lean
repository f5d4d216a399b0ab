-- Windows of a trajectory: where a maneuver of a given size still fits, earliest and
-- latest. The searches are those of `Trajectory`; each is right just when the gap that
-- it comes to is one that its own branch measures right.
import Mathlib.Algebra.Order.Ring.Rat
import Carma.Lib.FreeWindows
import Carma.TrajectoryInvariant

open lib lib.free_windows
open carma.interval_tree
open carma.maneuvers

namespace carma.trajectory

variable {K : Type} [LinearOrder K] [Field K]

/-! ## The searches -/

def extent (m : IManeuver K) : K × K := (m.startDist, m.endDist)

/-- The `maneuvers` that the longitudinal searches go through. -/
def Trajectory.longitudinalExtents (t : Trajectory K) : List (K × K) :=
  t.getLongitudinalManeuvers.map (fun m => (m.startDist, m.endDist)) ++
    t.complexManeuver.toList.map fun m => (m.startDist, m.endDist)

/-- The `maneuvers` that the lateral searches go through. -/
def Trajectory.lateralExtents (t : Trajectory K) : List (K × K) :=
  t.getLateralManeuvers.map (fun m => (m.startDist, m.endDist)) ++
    t.complexManeuver.toList.map fun m => (m.startDist, m.endDist)

/-- The loop of the latest searches, which goes through the maneuvers from the last one on. -/
def latestWindow (size startLocation : K) : K → List (K × K) → K
  | lastStart, [] =>
    if lastStart > startLocation ∧ lastStart - startLocation > size then lastStart - size else -1
  | lastStart, (start, end_) :: rest =>
    if lastStart - end_ ≥ size then end_ else latestWindow size startLocation start rest

/-- What the two earliest searches do with the maneuvers of their kind. -/
def Trajectory.findEarliest (t : Trajectory K) (size : K) (maneuvers : List (K × K)) : K :=
  if maneuvers.isEmpty then t.startLocation
  else earliestWindow size t.endLocation t.startLocation maneuvers

/-- What the two latest searches do with the maneuvers of their kind. -/
def Trajectory.findLatest (t : Trajectory K) (size : K) (maneuvers : List (K × K)) : K :=
  if maneuvers.isEmpty then t.endLocation - size
  else latestWindow size t.startLocation t.endLocation maneuvers.reverse

def Trajectory.findEarliestLateralWindowOfSize (t : Trajectory K) (size : K) : K :=
  t.findEarliest size t.lateralExtents

def Trajectory.findLatestLongitudinalWindowOfSize (t : Trajectory K) (size : K) : K :=
  t.findLatest size t.longitudinalExtents

def Trajectory.findLatestLateralWindowOfSize (t : Trajectory K) (size : K) : K :=
  t.findLatest size t.lateralExtents

omit [LinearOrder K] [Field K] in
theorem extents_append {V : Type} (f : V → IManeuver K) (ms : List V)
    (c : Option (IComplexManeuver K)) :
    (ms.map f ++ (c.map IManeuver.complex).toList).map extent =
      ms.map (fun m => ((f m).startDist, (f m).endDist)) ++
        c.toList.map (fun m => (m.startDist, m.endDist)) := by
  rw [List.map_append, List.map_map]
  cases c with
  | none => rfl
  | some c => rfl

/-- Where the maneuvers of a kind and the complex one lie. -/
def Trajectory.busy (t : Trajectory K) (ty : ManeuverType) : List (K × K) :=
  (t.stored ty ++ t.stored .COMPLEX).map extent

omit [Field K] in
theorem longitudinalExtents_eq (t : Trajectory K) : t.longitudinalExtents = t.busy .LONGITUDINAL :=
  (extents_append ofLongitudinal _ _).symm

omit [Field K] in
theorem lateralExtents_eq (t : Trajectory K) : t.lateralExtents = t.busy .LATERAL :=
  (extents_append ofLateral _ _).symm

theorem findEarliestLongitudinal_eq (t : Trajectory K) (size : K) :
    t.findEarliestLongitudinalWindowOfSize size = t.findEarliest size t.longitudinalExtents := rfl

/-! ## Windows -/

/-- `[x, x + size)` lies within the trajectory and meets no maneuver of the kind, nor the
complex one. -/
def Window (t : Trajectory K) (ty : ManeuverType) (size x : K) : Prop :=
  t.startLocation ≤ x ∧ x + size ≤ t.endLocation ∧
    ∀ m ∈ t.stored ty ++ t.stored .COMPLEX, ¬ Clash x (x + size) m.startDist m.endDist

/-- The best of the windows is found where there is one, and -1 says that there is none. -/
structure Finds (best : Set K → K → Prop) (windows : Set K) (r : K) : Prop where
  found : windows.Nonempty → best windows r
  none_iff : r = -1 ↔ ¬ windows.Nonempty

def FindsEarliest (t : Trajectory K) (ty : ManeuverType) (size r : K) : Prop :=
  Finds IsLeast {x | Window t ty size x} r

def FindsLatest (t : Trajectory K) (ty : ManeuverType) (size r : K) : Prop :=
  Finds IsGreatest {x | Window t ty size x} r

omit [LinearOrder K] in
theorem finds_some {best : Set K → K → Prop} {windows : Set K} {a : K} (ha : best windows a)
    (hmem : a ∈ windows) (huniq : ∀ b, best windows b → b = a) (r : K) :
    Finds best windows r ↔ r = a ∧ a ≠ -1 := by
  have hsome : windows.Nonempty := ⟨a, hmem⟩
  constructor
  · intro h
    have hr := huniq r (h.found hsome)
    refine ⟨hr, ?_⟩
    rintro rfl
    exact h.none_iff.mp hr hsome
  · rintro ⟨rfl, hne⟩
    exact ⟨fun _ => ha, iff_of_false hne (fun hc => hc hsome)⟩

omit [LinearOrder K] in
theorem finds_none {best : Set K → K → Prop} {windows : Set K} (hnone : ¬ windows.Nonempty) (r : K) :
    Finds best windows r ↔ r = -1 := by
  constructor
  · exact fun h => h.none_iff.mpr hnone
  · exact fun h => ⟨fun hc => absurd hc hnone, iff_of_true h hnone⟩

/-! ## The scans -/

/-- The scan from the back returns the start of the last gap with room, unless that is the
gap before the first maneuver. -/
theorem latestWindow_eq (size lo s e : K) (hi : K) (rest : List (K × K)) :
    latestWindow size lo hi ((s, e) :: rest).reverse =
      match lastFit size (gaps e hi rest) with
      | some g => g.1
      | none => if s > lo ∧ s - lo > size then s - size else -1 := by
  induction rest using List.reverseRecOn generalizing hi with
  | nil =>
    unfold lastFit gaps
    rw [List.reverse_singleton, List.reverse_singleton, List.find?_singleton, fits, latestWindow]
    by_cases hfit : size ≤ hi - e
    · simp [hfit]
    · simp only [ge_iff_le, hfit, if_false, decide_false, latestWindow]
      rfl
  | append_singleton rest b ih =>
    obtain ⟨s', e'⟩ := b
    have hsplit : ((s, e) :: (rest ++ [(s', e')])).reverse =
        (s', e') :: ((s, e) :: rest).reverse := by simp
    have hgaps : lastFit size (gaps e hi (rest ++ [(s', e')])) =
        if size ≤ hi - e' then some (e', hi) else lastFit size (gaps e s' rest) := by
      unfold lastFit
      rw [gaps_append, List.reverse_append, List.reverse_singleton, List.singleton_append,
        List.find?_cons, fits]
      by_cases hfit : size ≤ hi - e'
      · simp [hfit]
      · simp [hfit]
    rw [hsplit, hgaps, latestWindow]
    by_cases hfit : size ≤ hi - e'
    · simp [hfit]
    · simp only [ge_iff_le, hfit, if_false]
      exact ih s'

variable [IsStrictOrderedRing K]

/-- The scan from the front returns the start of the first gap with room. -/
theorem earliestWindow_eq {size : K} (hsize : 0 < size) (lo hi : K) (busy : List (K × K)) :
    earliestWindow size hi lo busy = ((firstFit size (gaps lo hi busy)).map (·.1)).getD (-1) := by
  induction busy generalizing lo with
  | nil =>
    have hroom : (lo < hi ∧ hi - lo ≥ size) ↔ size ≤ hi - lo :=
      and_iff_right_of_imp (fun h => sub_pos.mp (hsize.trans_le h))
    unfold earliestWindow firstFit gaps
    rw [List.find?_singleton, fits]
    simp only [hroom, decide_eq_true_eq]
    split
    · rfl
    · rfl
  | cons b rest ih =>
    obtain ⟨s, e⟩ := b
    unfold earliestWindow firstFit gaps
    rw [List.find?_cons, fits]
    by_cases hfit : size ≤ s - lo
    · simp [hfit]
    · simp only [ge_iff_le, hfit, if_false, decide_false]
      exact ih e

/-! ## The searches and the windows -/

omit [Field K] [IsStrictOrderedRing K] in
theorem not_clash_iff {s e s' e' : K} (h : s < e) (h' : s' < e') :
    ¬ Clash s e s' e' ↔ e ≤ s' ∨ e' ≤ s := by
  unfold Clash
  rw [not_lt, min_le_iff, le_max_iff, le_max_iff]
  constructor
  · rintro ((hle | hle) | (hle | hle))
    · exact absurd h (not_lt.mpr hle)
    · exact Or.inl hle
    · exact Or.inr hle
    · exact absurd h' (not_lt.mpr hle)
  · rintro (hle | hle)
    · exact Or.inl (Or.inr hle)
    · exact Or.inr (Or.inl hle)

omit [Field K] [IsStrictOrderedRing K] in
theorem busy_inOrder {t : Trajectory K} (h : ContainerInvariant t) {ty : ManeuverType}
    (hty : ty ≠ .COMPLEX) : InOrder t.startLocation t.endLocation (t.busy ty) := by
  apply inOrder_of_pairwise
  · intro b hb
    obtain ⟨m, hm, rfl⟩ := List.mem_map.mp hb
    rcases List.mem_append.mp hm with hm | hm
    · exact ⟨(h.planned.within _ m hm).1, (h.positive hm).le, (h.planned.within _ m hm).2⟩
    · exact ⟨(h.planned.within _ m hm).1, (h.positive hm).le, (h.planned.within _ m hm).2⟩
  · exact List.pairwise_map.mpr (h.in_order hty)

theorem window_iff {t : Trajectory K} (h : ContainerInvariant t) (ty : ManeuverType) {size : K}
    (hsize : 0 < size) (x : K) :
    Window t ty size x ↔ Free t.startLocation t.endLocation (t.busy ty) size x := by
  unfold Window Free Trajectory.busy
  rw [List.forall_mem_map]
  refine and_congr_right (fun _ => and_congr_right (fun _ => forall₂_congr (fun m hm => ?_)))
  apply not_clash_iff (lt_add_of_pos_right x hsize)
  rcases List.mem_append.mp hm with hm | hm
  · exact h.positive hm
  · exact h.positive hm

theorem windows_eq {t : Trajectory K} (h : ContainerInvariant t) (ty : ManeuverType) {size : K}
    (hsize : 0 < size) : {x | Window t ty size x} =
      {x | Free t.startLocation t.endLocation (t.busy ty) size x} :=
  Set.ext (window_iff h ty hsize)

/-- The earliest search is right: without a maneuver, the size is at most the length of the
trajectory, and the window found does not start at -1. -/
def EarliestClear (t : Trajectory K) (ty : ManeuverType) (size : K) : Prop :=
  if t.busy ty = [] then size ≤ t.endLocation - t.startLocation ↔ t.startLocation ≠ -1
  else ∀ g ∈ firstFit size (gaps t.startLocation t.endLocation (t.busy ty)), g.1 ≠ -1

/-- The latest search is right: without a maneuver, the size is at most the length of the
trajectory; otherwise the last gap with room is of just the size, or longer if it is
the one before all maneuvers. The window found does not start at -1. -/
def LatestClear (t : Trajectory K) (ty : ManeuverType) (size : K) : Prop :=
  match t.busy ty with
  | [] => size ≤ t.endLocation - t.startLocation ↔ t.endLocation - size ≠ -1
  | (s, e) :: rest =>
    match lastFit size (gaps e t.endLocation rest) with
    | some g => g.1 + size = g.2 ∧ g.1 ≠ -1
    | none => s - t.startLocation ≠ size ∧ (size < s - t.startLocation → s - size ≠ -1)

theorem findEarliest_iff {t : Trajectory K} (h : ContainerInvariant t) {ty : ManeuverType}
    (hty : ty ≠ .COMPLEX) {size : K} (hsize : 0 < size) :
    FindsEarliest t ty size (t.findEarliest size (t.busy ty)) ↔ EarliestClear t ty size := by
  have horder := busy_inOrder h hty
  unfold FindsEarliest EarliestClear Trajectory.findEarliest
  rw [windows_eq h ty hsize, earliestWindow_eq hsize]
  cases hfirst : firstFit size (gaps t.startLocation t.endLocation (t.busy ty)) with
  | none =>
    rw [finds_none (none_free_of_firstFit_none horder hfirst)]
    by_cases hempty : t.busy ty = []
    · rw [hempty, gaps, firstFit, List.find?_singleton, fits] at hfirst
      have hroom : ¬ size ≤ t.endLocation - t.startLocation := by
        simpa using hfirst
      simp [hempty, hroom]
    · simp [hempty]
  | some g =>
    have hleast := firstFit_isLeast horder hsize hfirst
    rw [finds_some hleast hleast.1 (fun b hb => hb.unique hleast)]
    by_cases hempty : t.busy ty = []
    · rw [hempty, gaps, firstFit, List.find?_singleton, fits] at hfirst
      obtain ⟨hroom, rfl⟩ : size ≤ t.endLocation - t.startLocation ∧
          (t.startLocation, t.endLocation) = g := by simpa using hfirst
      simp [hempty, hroom]
    · simp [hempty]

theorem first_gap_found {size lo s : K} (hsize : 0 < size) (hroom : size ≤ s - lo) :
    ((if s > lo ∧ s - lo > size then s - size else -1) = s - size ∧ s - size ≠ -1) ↔
      s - lo ≠ size ∧ (size < s - lo → s - size ≠ -1) := by
  rcases hroom.eq_or_lt with heq | hlt
  · -- a gap of just the size is passed over
    have hno : ¬ (s > lo ∧ s - lo > size) := fun hc => absurd hc.2 (not_lt.mpr heq.ge)
    rw [if_neg hno]
    refine iff_of_false ?_ (fun hc => hc.1 heq.symm)
    rintro ⟨hminus, hne⟩
    exact hne hminus.symm
  · have hafter : s > lo := sub_pos.mp (hsize.trans hlt)
    rw [if_pos ⟨hafter, hlt⟩, eq_self_iff_true, true_and]
    exact ⟨fun hne => ⟨hlt.ne', fun _ => hne⟩, fun hc => hc.2 hlt⟩

omit [IsStrictOrderedRing K] in
theorem first_gap_missed {size lo s : K} (hroom : ¬ size ≤ s - lo) :
    (if s > lo ∧ s - lo > size then s - size else -1) = -1 ↔
      s - lo ≠ size ∧ (size < s - lo → s - size ≠ -1) := by
  have hshort := not_le.mp hroom
  rw [if_neg (fun hc => absurd hc.2 (not_lt.mpr hshort.le))]
  exact iff_of_true rfl ⟨hshort.ne, fun hlt => absurd hlt (not_lt.mpr hshort.le)⟩

theorem findLatest_iff {t : Trajectory K} (h : ContainerInvariant t) {ty : ManeuverType}
    (hty : ty ≠ .COMPLEX) {size : K} (hsize : 0 < size) :
    FindsLatest t ty size (t.findLatest size (t.busy ty)) ↔ LatestClear t ty size := by
  have horder := busy_inOrder h hty
  unfold FindsLatest LatestClear Trajectory.findLatest
  rw [windows_eq h ty hsize]
  cases hbusy : t.busy ty with
  | nil =>
    rw [hbusy] at horder
    by_cases hroom : size ≤ t.endLocation - t.startLocation
    · have hlast : lastFit size (gaps t.startLocation t.endLocation []) =
          some (t.startLocation, t.endLocation) := by
        simp [lastFit, gaps, fits, hroom]
      have hgreatest := lastFit_isGreatest horder hsize hlast
      rw [finds_some hgreatest hgreatest.1 (fun b hb => hb.unique hgreatest)]
      simp [hroom]
    · have hlast : lastFit size (gaps t.startLocation t.endLocation []) = none := by
        simp [lastFit, gaps, fits, hroom]
      rw [finds_none (none_free_of_lastFit_none horder hlast)]
      simp [hroom]
  | cons b rest =>
    obtain ⟨s, e⟩ := b
    rw [hbusy] at horder
    have hcons := lastFit_cons size (t.startLocation, s) (gaps e t.endLocation rest)
    rw [List.isEmpty_cons, if_neg Bool.false_ne_true, latestWindow_eq]
    dsimp only
    cases hlater : lastFit size (gaps e t.endLocation rest) with
    | some g =>
      rw [hlater] at hcons
      have hgreatest := lastFit_isGreatest horder hsize hcons
      rw [finds_some hgreatest hgreatest.1 (fun b hb => hb.unique hgreatest)]
      dsimp only
      rw [eq_sub_iff_add_eq]
      refine and_congr_right (fun hexact => ?_)
      rw [← hexact, add_sub_cancel_right]
    | none =>
      rw [hlater] at hcons
      dsimp only
      by_cases hroom : size ≤ s - t.startLocation
      · have hlast : lastFit size (gaps t.startLocation t.endLocation ((s, e) :: rest)) =
            some (t.startLocation, s) := hcons.trans (by simp [fits, hroom])
        have hgreatest := lastFit_isGreatest horder hsize hlast
        rw [finds_some hgreatest hgreatest.1 (fun b hb => hb.unique hgreatest)]
        exact first_gap_found hsize hroom
      · have hlast : lastFit size (gaps t.startLocation t.endLocation ((s, e) :: rest)) = none :=
          hcons.trans (by simp [fits, hroom])
        rw [finds_none (none_free_of_lastFit_none horder hlast)]
        exact first_gap_missed hroom

/-! ## The law -/

/-- Each of the four searches finds its window, and says so when there is none, just when it is
clear. -/
theorem windows_are_found_exactly {t : Trajectory K} (h : ContainerInvariant t) {size : K}
    (hsize : 0 < size) :
    (FindsEarliest t .LONGITUDINAL size (t.findEarliestLongitudinalWindowOfSize size) ↔
      EarliestClear t .LONGITUDINAL size) ∧
    (FindsEarliest t .LATERAL size (t.findEarliestLateralWindowOfSize size) ↔
      EarliestClear t .LATERAL size) ∧
    (FindsLatest t .LONGITUDINAL size (t.findLatestLongitudinalWindowOfSize size) ↔
      LatestClear t .LONGITUDINAL size) ∧
    (FindsLatest t .LATERAL size (t.findLatestLateralWindowOfSize size) ↔
      LatestClear t .LATERAL size) := by
  have hlon : ManeuverType.LONGITUDINAL ≠ .COMPLEX := by decide
  have hlat : ManeuverType.LATERAL ≠ .COMPLEX := by decide
  refine ⟨?_, ?_, ?_, ?_⟩
  · rw [findEarliestLongitudinal_eq, longitudinalExtents_eq]
    exact findEarliest_iff h hlon hsize
  · unfold Trajectory.findEarliestLateralWindowOfSize
    rw [lateralExtents_eq]
    exact findEarliest_iff h hlat hsize
  · unfold Trajectory.findLatestLongitudinalWindowOfSize
    rw [longitudinalExtents_eq]
    exact findLatest_iff h hlon hsize
  · unfold Trajectory.findLatestLateralWindowOfSize
    rw [lateralExtents_eq]
    exact findLatest_iff h hlat hsize

/-- A steady speed from 2 to 4. -/
def steadyInTheMiddle : Trajectory ℚ :=
  call (newTrajectory 0 10) (.addManeuver (.longitudinal (.single .steadySpeed ⟨2, 4, 1, 1⟩)))

theorem steadyInTheMiddle_invariant : ContainerInvariant steadyInTheMiddle :=
  (call_invariant_iff (newTrajectory_invariant 0 10) _ (by decide)).mpr (fun c hc => by cases hc)

theorem windows_around_a_steady_speed_are_found_exactly :
    (FindsEarliest steadyInTheMiddle .LONGITUDINAL 6
        (steadyInTheMiddle.findEarliestLongitudinalWindowOfSize 6) ↔
      EarliestClear steadyInTheMiddle .LONGITUDINAL 6) ∧
    (FindsEarliest steadyInTheMiddle .LATERAL 6
        (steadyInTheMiddle.findEarliestLateralWindowOfSize 6) ↔
      EarliestClear steadyInTheMiddle .LATERAL 6) ∧
    (FindsLatest steadyInTheMiddle .LONGITUDINAL 6
        (steadyInTheMiddle.findLatestLongitudinalWindowOfSize 6) ↔
      LatestClear steadyInTheMiddle .LONGITUDINAL 6) ∧
    (FindsLatest steadyInTheMiddle .LATERAL 6
        (steadyInTheMiddle.findLatestLateralWindowOfSize 6) ↔
      LatestClear steadyInTheMiddle .LATERAL 6) :=
  windows_are_found_exactly steadyInTheMiddle_invariant (by decide)

/-- An empty trajectory of 10 meters has a window of 20 meters at its start, and the latest
window of 3 meters after the steady speed is said to start at its end. -/
theorem a_window_is_found_where_none_is :
    ¬ (∀ (t : Trajectory ℚ) (size : ℚ), ContainerInvariant t → 0 < size →
      FindsEarliest t .LONGITUDINAL size (t.findEarliestLongitudinalWindowOfSize size)) ∧
    ¬ (∀ (t : Trajectory ℚ) (size : ℚ), ContainerInvariant t → 0 < size →
      FindsLatest t .LONGITUDINAL size (t.findLatestLongitudinalWindowOfSize size)) := by
  constructor
  · intro hall
    have hfound := hall (newTrajectory 0 10) 20 (newTrajectory_invariant 0 10) (by decide)
    have hnone : ¬ Set.Nonempty {x | Window (newTrajectory (0 : ℚ) 10) .LONGITUDINAL 20 x} := by
      rintro ⟨x, hx, hend, -⟩
      exact absurd ((add_le_add_left hx 20).trans hend) (by decide +kernel)
    exact absurd (hfound.none_iff.mpr hnone) (by decide +kernel)
  · intro hall
    have hfound := hall steadyInTheMiddle 3 steadyInTheMiddle_invariant (by decide)
    have hseven : Window steadyInTheMiddle .LONGITUDINAL 3 7 := by
      refine ⟨by decide +kernel, by decide +kernel, ?_⟩
      decide +kernel
    have hle := (hfound.found ⟨7, hseven⟩).2 hseven
    exact absurd hle (by decide +kernel)

end carma.trajectory
