-- The copy of maneuvers into a trajectory goes through as a whole or not at all: no call of
-- it throws, and the try on the copy of the trajectory ends as the calls for real would.
import Carma.NextManeuver
import Carma.TotalTrajectory

open lib
open carma.interval_tree
open carma.maneuvers
open carma.maneuver_listing
open carma.total_trajectory

namespace carma.trajectory

variable {K V : Type} [LinearOrder K]

/-! ## Calls that throw -/

theorem intersects_answers (tree : IntervalTree K V) {start end_ : K} (hle : start ≤ end_) :
    ∃ found, intersects tree start end_ = some found := by
  unfold intersects
  rw [newInterval_eq hle]
  exact ⟨_, rfl⟩

theorem fitsComplex_answers {t : Trajectory K} (h : Kept t) {c : IComplexManeuver K}
    (hc : c.startDist < c.endDist) : ∃ ok, t.fitsComplex c = some ok := by
  unfold Trajectory.fitsComplex
  split
  · exact ⟨false, rfl⟩
  · split
    · exact ⟨false, rfl⟩
    · rename_i hin
      rw [not_not] at hin
      have hroom : c.startDist ≤ t.endLocation := hc.le.trans hin.2
      obtain ⟨lon, hlon, -⟩ := nextAfter_first h.longitudinals
        (forall_longitudinals (P := fun _ e => e ≤ t.endLocation).mp
          (fun m hm => (h.within .LONGITUDINAL m hm).2)) hroom
      obtain ⟨lat, hlat, -⟩ := nextAfter_first h.laterals
        (forall_laterals (P := fun _ e => e ≤ t.endLocation).mp
          (fun m hm => (h.within .LATERAL m hm).2)) hroom
      obtain ⟨overLat, hoverLat⟩ := intersects_answers t.lateralManeuvers hc.le
      obtain ⟨overLon, hoverLon⟩ := intersects_answers t.longitudinalManeuvers hc.le
      unfold Trajectory.getNextManeuverAfter
      rw [hlon, hlat, hoverLat, hoverLon]
      simp only [Option.map_some, Option.bind_eq_bind, Option.bind_some, Option.pure_def]
      split
      · exact ⟨false, rfl⟩
      · split
        · exact ⟨false, rfl⟩
        · split
          · exact ⟨false, rfl⟩
          · split
            · exact ⟨false, rfl⟩
            · exact ⟨true, rfl⟩

variable [Field K] [IsStrictOrderedRing K]

theorem put_answers {t : Trajectory K} (h : Kept t) {m : IManeuver K} (hm : m.startDist < m.endDist) :
    ∃ ok, (t.put m).1 = some ok := by
  cases m with
  | complex c =>
    obtain ⟨ok, hok⟩ := fitsComplex_answers h hm
    rw [put_complex, hok]
    cases ok with
    | true => exact ⟨true, rfl⟩
    | false => exact ⟨false, rfl⟩
  | simple s =>
    by_cases hin : Within t (.simple s)
    · cases s with
      | longitudinal a =>
        have hput : t.put (.simple (.longitudinal a)) = _ := put_longitudinal hin
        rw [hput, insertManeuver_eq _ a (show a.startDist ≤ a.endDist from hm.le)]
        exact ⟨_, rfl⟩
      | lateral a =>
        have hput : t.put (.simple (.lateral a)) = _ := put_lateral hin
        rw [hput, insertManeuver_eq _ a (show a.startDist ≤ a.endDist from hm.le)]
        exact ⟨_, rfl⟩
      | neither start end_ => exact ⟨false, by rw [put_neither]⟩
    · exact ⟨false, by rw [put_outside hin]⟩

theorem putEach_answers {t : Trajectory K} (h : Kept t) {ms : List (IManeuver K)}
    (hms : ∀ m ∈ ms, m.startDist < m.endDist) : ∃ ok, putEach t ms = some ok := by
  induction ms generalizing t with
  | nil => exact ⟨true, rfl⟩
  | cons m ms ih =>
    rw [List.forall_mem_cons] at hms
    obtain ⟨ok, hok⟩ := put_answers h hms.1
    have hrest := ih (put_kept h hms.1) hms.2
    unfold putEach
    rcases hput : t.put m with ⟨answer, t'⟩
    rw [hput] at hok hrest
    obtain rfl : answer = some ok := hok
    cases ok with
    | true => exact hrest
    | false => exact ⟨false, rfl⟩

/-! ## The copy -/

/-- The call takes over all of a list, or leaves the trajectory as it was. -/
theorem copyManeuvers_cases {t src : Trajectory K} (h : Kept t) {startDowntrack endDowntrack : K}
    (hms : ∀ m ∈ toBeCopied src startDowntrack endDowntrack, m.startDist < m.endDist) :
    (t.copyManeuvers src startDowntrack endDowntrack = (some false, t)) ∨
      (putEach t (toBeCopied src startDowntrack endDowntrack) = some true ∧
        t.copyManeuvers src startDowntrack endDowntrack =
          (some true, runs.run putStep t (toBeCopied src startDowntrack endDowntrack))) := by
  obtain ⟨hkept, halike⟩ := copyOf_alike h
  obtain ⟨ok, hok⟩ := putEach_answers hkept hms
  unfold Trajectory.copyManeuvers
  dsimp only
  rw [hok]
  cases ok with
  | false => exact Or.inl rfl
  | true =>
    have hgo := (alike_putEach h hkept halike hms).mp hok
    refine Or.inr ⟨hgo, ?_⟩
    dsimp only
    exact putAll_of_putEach hgo

omit [Field K] [IsStrictOrderedRing K] in
theorem allStored_of_kind (t : Trajectory K) (ty : ManeuverType) :
    (allStored t).filter (fun m => decide (kindOf m = some ty)) = t.stored ty := by
  have hsame : ∀ ty, (t.stored ty).filter (fun m => decide (kindOf m = some ty)) = t.stored ty :=
    fun ty => List.filter_eq_self.mpr (fun m hm => decide_eq_true (kindOf_stored hm))
  have hother : ∀ ty', ty' ≠ ty →
      (t.stored ty').filter (fun m => decide (kindOf m = some ty)) = [] := by
    intro ty' hne
    refine List.filter_eq_nil_iff.mpr (fun m hm => ?_)
    rw [decide_eq_true_iff, kindOf_stored hm, Option.some.injEq]
    exact hne
  unfold allStored
  rw [List.filter_append, List.filter_append]
  cases ty with
  | LATERAL =>
    rw [hsame, hother .LONGITUDINAL (by decide), hother .COMPLEX (by decide), List.append_nil,
      List.append_nil]
  | LONGITUDINAL =>
    rw [hsame, hother .LATERAL (by decide), hother .COMPLEX (by decide), List.append_nil,
      List.nil_append]
  | COMPLEX =>
    rw [hsame, hother .LATERAL (by decide), hother .LONGITUDINAL (by decide), List.nil_append,
      List.nil_append]

/-- `m` lies inside `[startDowntrack, endDowntrack]`. -/
def Inside (startDowntrack endDowntrack : K) (m : IManeuver K) : Prop :=
  startDowntrack ≤ m.startDist ∧ m.endDist ≤ endDowntrack

instance (startDowntrack endDowntrack : K) (m : IManeuver K) :
    Decidable (Inside startDowntrack endDowntrack m) := inferInstanceAs (Decidable (_ ∧ _))

omit [Field K] [IsStrictOrderedRing K] in
theorem toBeCopied_of_kind (src : Trajectory K) (startDowntrack endDowntrack : K)
    (ty : ManeuverType) :
    (toBeCopied src startDowntrack endDowntrack).filter (fun m => decide (kindOf m = some ty)) =
      (src.stored ty).filter (fun m => decide (Inside startDowntrack endDowntrack m)) := by
  have hinside : toBeCopied src startDowntrack endDowntrack =
      (allStored src).filter (fun m => decide (Inside startDowntrack endDowntrack m)) := by
    unfold toBeCopied allStored
    rw [getManeuvers_eq]
    refine List.filter_congr (fun m _ => ?_)
    rw [← Bool.decide_and]
    rfl
  rw [hinside, List.filter_comm, allStored_of_kind]

/-! ## The law -/

/-- What came of a copy from `src` into `t`. -/
structure AllOrNothing (t src : Trajectory K) (startDowntrack endDowntrack : K)
    (outcome : Option Bool × Trajectory K) : Prop where
  answered : outcome.1 = some true ∨ outcome.1 = some false
  nothing : outcome.1 = some false → outcome.2 = t
  all : outcome.1 = some true → ∀ ty, (outcome.2.stored ty).Perm
    ((src.stored ty).filter (fun m => decide (Inside startDowntrack endDowntrack m)) ++ t.stored ty)

theorem a_copy_takes_all_or_nothing {t src : Trajectory K} (h : ContainerInvariant t)
    (hsrc : ContainerInvariant src) (startDowntrack endDowntrack : K) :
    AllOrNothing t src startDowntrack endDowntrack
      (t.copyManeuvers src startDowntrack endDowntrack) := by
  have hlt : ∀ m ∈ toBeCopied src startDowntrack endDowntrack, m.startDist < m.endDist :=
    fun m => hsrc.copied_lt
  rcases copyManeuvers_cases h.kept hlt with hno | ⟨hgo, hyes⟩
  · rw [hno]
    exact ⟨Or.inr rfl, fun _ => rfl, fun hc => by cases hc⟩
  · rw [hyes]
    refine ⟨Or.inl rfl, fun hc => (by cases hc), fun _ ty => ?_⟩
    have hperm := (run_joins hgo).filter (fun m => decide (kindOf m = some ty))
    rwa [List.filter_append, allStored_of_kind, allStored_of_kind, toBeCopied_of_kind] at hperm

theorem a_copy_of_two_steady_speeds_takes_all_or_nothing :
    AllOrNothing (newTrajectory 0 10) twoSteadySpeeds 0 5
      ((newTrajectory 0 10).copyManeuvers twoSteadySpeeds 0 5) :=
  a_copy_takes_all_or_nothing (newTrajectory_invariant 0 10) twoSteadySpeeds_invariant 0 5

end carma.trajectory
