-- The total trajectory of the worker: the current trajectory and the queued one
-- copied into one, and when no maneuver of theirs is lost.
import Carma.ManeuverListing
import Carma.TrajectoryExecutorWorker
import Carma.TrajectoryLaws
import Mathlib.Algebra.Order.Ring.Rat

open lib
open carma.interval_tree
open carma.maneuvers
open carma.maneuver_listing
open carma.trajectory
open carma.trajectory_executor_worker

namespace carma.total_trajectory

variable {K V : Type} [LinearOrder K]

/-! ## The call -/

section call

variable [Field K]

/-- `copyManeuvers` with the infinite bounds, between which every maneuver lies. -/
def copyEvery (t src : Trajectory K) : Option Bool × Trajectory K :=
  match putEach (copyOf t) src.getManeuvers with
  | some true => putAll t src.getManeuvers
  | answer => (answer, t)

/-- `getTotalTrajectory`. `none` stands for an exception, and `some none` for
null. The answers of the two copies are not read. -/
def getTotalTrajectory (w : TrajectoryExecutorWorker K) : Option (Option (Trajectory K)) :=
  match w.nextTrajectory, w.currentTrajectory with
  | none, cur => some cur
  | some _, none => none
  | some next, some cur =>
    let out := newTrajectory cur.startLocation next.endLocation
    match copyEvery out cur with
    | (none, _) => none
    | (some _, out) =>
      match copyEvery out next with
      | (none, _) => none
      | (some _, out) => some (some out)

/-- Bounds that every maneuver lies between are as good as infinite ones. -/
theorem copyManeuvers_eq_copyEvery {t src : Trajectory K} {lo hi : K}
    (h : ∀ m ∈ src.getManeuvers, lo ≤ m.startDist ∧ m.endDist ≤ hi) :
    t.copyManeuvers src lo hi = copyEvery t src := by
  have hall : toBeCopied src lo hi = src.getManeuvers := by
    unfold toBeCopied
    rw [List.filter_eq_self]
    intro m hm
    simp [h m hm]
  have hevery : ∀ mvrs, mvrs = src.getManeuvers →
      (match putEach (copyOf t) mvrs with
        | some true => putAll t mvrs
        | answer => (answer, t)) = copyEvery t src := by
    rintro _ rfl
    rfl
  exact hevery _ hall

end call

/-! ## Plans -/

/-- The invariant of a trajectory: the plan is in order, the trees hold what was
inserted, and a complex maneuver has set the end. -/
structure Lawful (t : Trajectory K) : Prop where
  trees : BothLabeled t
  planned : WellPlanned t
  complex_ends : ∀ c, t.complexManeuver = some c →
    c.startDist ≤ c.endDist ∧ t.endLocation = c.endDist

theorem mem_allStored {t : Trajectory K} {m : IManeuver K} :
    m ∈ allStored t ↔ ∃ ty, m ∈ t.stored ty := by
  unfold allStored
  rw [List.mem_append, List.mem_append]
  constructor
  · rintro ((h | h) | h)
    · exact ⟨_, h⟩
    · exact ⟨_, h⟩
    · exact ⟨_, h⟩
  · rintro ⟨ty, h⟩
    cases ty with
    | LATERAL => exact Or.inl (Or.inl h)
    | LONGITUDINAL => exact Or.inl (Or.inr h)
    | COMPLEX => exact Or.inr h

theorem kindOf_stored {t : Trajectory K} {ty : ManeuverType} {m : IManeuver K}
    (hm : m ∈ t.stored ty) : kindOf m = some ty := by
  cases ty with
  | LATERAL =>
    obtain ⟨a, _, rfl⟩ := List.mem_map.mp hm
    rfl
  | LONGITUDINAL =>
    obtain ⟨a, _, rfl⟩ := List.mem_map.mp hm
    rfl
  | COMPLEX =>
    obtain ⟨c, _, rfl⟩ := mem_stored_complex.mp hm
    rfl

/-- The simple maneuvers that a trajectory lists, before its complex one. -/
def simples (t : Trajectory K) : List (IManeuver K) := t.stored .LATERAL ++ t.stored .LONGITUDINAL

theorem getManeuvers_split (t : Trajectory K) :
    t.getManeuvers = simples t ++ (t.complexManeuver.map .complex).toList := getManeuvers_eq t

theorem complex_mem_getManeuvers {t : Trajectory K} {c : IComplexManeuver K}
    (hc : t.complexManeuver = some c) : .complex c ∈ t.getManeuvers := by
  rw [getManeuvers_split, hc]
  simp

/-- A lateral or a longitudinal maneuver. -/
def Simple (m : IManeuver K) : Prop :=
  (∃ a, m = ofLateral a) ∨ ∃ a, m = ofLongitudinal a

theorem simple_of_simples {t : Trajectory K} {m : IManeuver K} (hm : m ∈ simples t) : Simple m := by
  rcases List.mem_append.mp hm with hm | hm
  · obtain ⟨a, _, rfl⟩ := List.mem_map.mp hm
    exact Or.inl ⟨a, rfl⟩
  · obtain ⟨a, _, rfl⟩ := List.mem_map.mp hm
    exact Or.inr ⟨a, rfl⟩

section trees

variable {startOf endOf : V → K}

theorem forall_intervals {tree : IntervalTree K V} (h : Labeled startOf endOf tree)
    {P : K → K → Prop} (hP : ∀ m ∈ tree.toSortedList, P (startOf m) (endOf m)) :
    ∀ x ∈ tree.intervals, P x.start x.end_ := by
  intro x hx
  obtain ⟨m, hd, hs, he⟩ := h.labeled x hx
  rw [hs, he]
  exact hP m (mem_toSortedList.mpr ⟨x, hx, hd⟩)

theorem labeled_le {tree : IntervalTree K V} (h : Labeled startOf endOf tree) {m : V}
    (hm : m ∈ tree.toSortedList) : startOf m ≤ endOf m := by
  obtain ⟨x, hx, hd⟩ := mem_toSortedList.mp hm
  obtain ⟨m', hd', hs, he⟩ := h.labeled x hx
  obtain rfl : m' = m := by simpa [hd'] using hd
  rw [← hs, ← he]
  exact x.start_le_end

end trees

theorem simples_le {t : Trajectory K} (h : BothLabeled t) {m : IManeuver K} (hm : m ∈ simples t) :
    m.startDist ≤ m.endDist := by
  rcases List.mem_append.mp hm with hm | hm
  · obtain ⟨a, ha, rfl⟩ := List.mem_map.mp hm
    exact labeled_le h.laterals ha
  · obtain ⟨a, ha, rfl⟩ := List.mem_map.mp hm
    exact labeled_le h.longitudinals ha

theorem simples_apart {t : Trajectory K} (h : WellPlanned t) :
    (simples t).Pairwise (fun m m' => kindOf m = kindOf m' → ¬ ManeuversOverlap m' m) := by
  have hswap : ∀ ty, (t.stored ty).Pairwise
      (fun m m' => kindOf m = kindOf m' → ¬ ManeuversOverlap m' m) := by
    intro ty
    refine (h.apart ty).imp ?_
    intro m m' hno _ ho
    unfold ManeuversOverlap Clash at *
    rw [max_comm, min_comm] at ho
    exact hno ho
  refine List.pairwise_append.mpr ⟨hswap _, hswap _, ?_⟩
  intro m hm m' hm' hk
  rw [kindOf_stored hm, kindOf_stored hm'] at hk
  cases hk

theorem ends_before_complex {t : Trajectory K} (h : Lawful t) {c : IComplexManeuver K}
    (hc : t.complexManeuver = some c) {m : IManeuver K} (hm : m ∈ simples t) :
    m.endDist ≤ c.startDist := by
  obtain ⟨hle, hend⟩ := h.complex_ends c hc
  have hpos := simples_le h.trees hm
  obtain ⟨ty, hty, hst⟩ : ∃ ty, ty ≠ ManeuverType.COMPLEX ∧ m ∈ t.stored ty := by
    rcases List.mem_append.mp hm with hm | hm
    · exact ⟨_, by decide, hm⟩
    · exact ⟨_, by decide, hm⟩
  obtain ⟨hno, hstart⟩ := h.planned.complex_is_last c hc ty hty m hst
  have hin : m.endDist ≤ c.endDist := hend ▸ (h.planned.within ty m hst).2
  by_contra hlate
  rw [not_le] at hstart hlate
  -- with `m` reaching into the complex maneuver, both would be active at its start
  refine hno (max_lt (lt_min ?_ ?_) (lt_min ?_ ?_))
  · exact hstart.trans hlate
  · exact hstart.trans_le hle
  · exact hlate
  · exact hlate.trans_le hin

/-! ## What is accepted -/

/-- The trajectory has room for a plan: its bounds hold all of it, and there is
at most one complex maneuver. -/
def RoomFor (t src : Trajectory K) : Prop :=
  (∀ m ∈ src.getManeuvers, Within t m) ∧ (t.complexManeuver ≠ none → src.complexManeuver = none)

/-- There is always room for an empty plan. -/
theorem not_empty_of_no_room {t src : Trajectory K} (hroom : ¬ RoomFor t src) :
    src.getManeuvers ≠ [] := by
  intro hnil
  refine hroom ⟨fun m hm => by simp [hnil] at hm, fun _ => ?_⟩
  rw [getManeuvers_split, List.append_eq_nil_iff] at hnil
  simpa using hnil.2

variable [Field K]

theorem put_within {t : Trajectory K} {m : IManeuver K} (hok : (t.put m).1 = some true) :
    Within t m := by
  by_contra hout
  cases m with
  | simple s => simp [put_outside hout] at hok
  | complex c =>
    rcases put_cases t (.complex c) with ⟨a, ha, _⟩ | ⟨a, ha, _⟩ | ⟨d, hd, hfit, _⟩ | ⟨hno, _⟩
    · cases ha
    · cases ha
    · cases hd
      exact hout ((fitsComplex_checks t c).mp hfit).2.1
    · exact hno hok

theorem put_bounds (t : Trajectory K) (m : IManeuver K) :
    (t.put m).2.startLocation = t.startLocation ∧ (t.put m).2.endLocation ≤ t.endLocation ∧
      (t.complexManeuver ≠ none → (t.put m).2.complexManeuver ≠ none) := by
  rcases put_cases t m with ⟨a, rfl, he⟩ | ⟨a, rfl, he⟩ | ⟨c, rfl, hfit, he⟩ | ⟨_, hsame⟩
  · simp [he]
  · simp [he]
  · simp [he, show c.endDist ≤ t.endLocation from ((fitsComplex_checks t c).mp hfit).2.1.2]
  · simp [hsame]

theorem putEach_within {t : Trajectory K} {ms : List (IManeuver K)} (hgo : putEach t ms = some true) :
    ∀ m ∈ ms, Within t m ∧ (t.complexManeuver ≠ none → ∀ c, m ≠ .complex c) := by
  induction ms generalizing t with
  | nil => simp
  | cons a ms ih =>
    obtain ⟨hok, hgo⟩ := (putEach_go t a ms).mp hgo
    obtain ⟨hstart, hend, hcomplex⟩ := put_bounds t a
    intro m hm
    rcases List.mem_cons.mp hm with rfl | hm
    · refine ⟨put_within hok, ?_⟩
      rintro hsome c rfl
      rcases put_cases t (.complex c) with ⟨b, hb, _⟩ | ⟨b, hb, _⟩ | ⟨d, hd, hfit, _⟩ | ⟨hno, _⟩
      · cases hb
      · cases hb
      · cases hd
        exact hsome ((fitsComplex_checks t c).mp hfit).1
      · exact hno hok
    · obtain ⟨hin, hfree⟩ := ih hgo m hm
      exact ⟨⟨hstart ▸ hin.1, hin.2.trans hend⟩, fun hsome => hfree (hcomplex hsome)⟩

theorem putAll_of_putEach {t : Trajectory K} {ms : List (IManeuver K)}
    (hgo : putEach t ms = some true) : putAll t ms = (some true, runs.run putStep t ms) := by
  induction ms generalizing t with
  | nil => rfl
  | cons m ms ih =>
    obtain ⟨hok, hgo⟩ := (putEach_go t m ms).mp hgo
    have hrest : putAll (putStep t m) ms = _ := ih hgo
    rw [runs.run_cons, ← hrest]
    conv_lhs => unfold putAll
    rcases hput : t.put m with ⟨_ | _, s⟩
    · simp [hput] at hok
    · simp [hput, putStep]

theorem put_complex_fits {t : Trajectory K} (h : BothLabeled t) {c : IComplexManeuver K}
    (hnone : t.complexManeuver = none) (hin : Within t (.complex c)) (hle : c.startDist ≤ c.endDist)
    (hends : ∀ m ∈ allStored t, m.endDist ≤ c.startDist) : (t.put (.complex c)).1 = some true := by
  have hlat : ∀ x ∈ t.lateralManeuvers.intervals, x.end_ ≤ c.startDist :=
    forall_intervals h.laterals (P := fun _ e => e ≤ c.startDist) (fun b hb =>
      hends (ofLateral b) (mem_allStored.mpr ⟨.LATERAL, List.mem_map.mpr ⟨b, hb, rfl⟩⟩))
  have hlon : ∀ x ∈ t.longitudinalManeuvers.intervals, x.end_ ≤ c.startDist :=
    forall_intervals h.longitudinals (P := fun _ e => e ≤ c.startDist) (fun b hb =>
      hends (ofLongitudinal b) (mem_allStored.mpr ⟨.LONGITUDINAL, List.mem_map.mpr ⟨b, hb, rfl⟩⟩))
  have hroom : c.startDist ≤ t.endLocation := hle.trans hin.2
  have hfit : t.fitsComplex c = some true := by
    rw [fitsComplex_checks]
    exact ⟨hnone, hin, ⟨nextAfter_of_ended h.longitudinals.oneEach hroom hlon,
      intersects_of_ended h.longitudinals.oneEach hle hlon⟩,
      nextAfter_of_ended h.laterals.oneEach hroom hlat,
      intersects_of_ended h.laterals.oneEach hle hlat⟩
  rw [put_complex, hfit]

theorem putEach_append (t : Trajectory K) (ms ns : List (IManeuver K)) :
    putEach t (ms ++ ns) = some true ↔
      putEach t ms = some true ∧ putEach (runs.run putStep t ms) ns = some true := by
  induction ms generalizing t with
  | nil => simp [putEach]
  | cons m ms ih =>
    rw [List.cons_append, putEach_go, putEach_go, ih, runs.run_cons, and_assoc]
    rfl

theorem put_simple_bounds (t : Trajectory K) {m : IManeuver K} (hm : Simple m) :
    (putStep t m).startLocation = t.startLocation ∧ (putStep t m).endLocation = t.endLocation ∧
      (putStep t m).complexManeuver = t.complexManeuver := by
  unfold putStep
  rcases put_cases t m with ⟨a, rfl, he⟩ | ⟨a, rfl, he⟩ | ⟨c, rfl, _, _⟩ | ⟨_, hsame⟩
  · simp [he]
  · simp [he]
  · rcases hm with ⟨a, ha⟩ | ⟨a, ha⟩
    · cases ha
    · cases ha
  · simp [hsame]

theorem run_simple_bounds (t : Trajectory K) (ms : List (IManeuver K)) (hms : ∀ m ∈ ms, Simple m) :
    (runs.run putStep t ms).startLocation = t.startLocation ∧
      (runs.run putStep t ms).endLocation = t.endLocation ∧
      (runs.run putStep t ms).complexManeuver = t.complexManeuver := by
  induction ms generalizing t with
  | nil => exact ⟨rfl, rfl, rfl⟩
  | cons m ms ih =>
    obtain ⟨hs, he, hc⟩ := put_simple_bounds t (hms m (by simp))
    have hrest := ih (putStep t m) (fun d hd => hms d (by simp [hd]))
    rwa [hs, he, hc] at hrest

/-- The bounds after a plan went in: a complex maneuver has set the end. -/
theorem run_plan_bounds {t src : Trajectory K} (hgo : putEach t src.getManeuvers = some true) :
    (runs.run putStep t src.getManeuvers).startLocation = t.startLocation ∧
      (runs.run putStep t src.getManeuvers).endLocation =
        (src.complexManeuver.map (·.endDist)).getD t.endLocation ∧
      (runs.run putStep t src.getManeuvers).complexManeuver =
        src.complexManeuver.or t.complexManeuver := by
  obtain ⟨hs, he, hc⟩ := run_simple_bounds t (simples src) (fun m => simple_of_simples)
  rw [getManeuvers_split, putEach_append] at hgo
  rw [getManeuvers_split, runs.run_append]
  cases hsrc : src.complexManeuver with
  | none => simp [hs, he, hc]
  | some c =>
    rw [hsrc, Option.map_some, Option.toList_some, putEach_go] at hgo
    have hput : putStep (runs.run putStep t (simples src)) (.complex c) =
        { runs.run putStep t (simples src) with
          endLocation := c.endDist, complexManeuver := some c } := by
      have hok := hgo.2.1
      unfold putStep at hok ⊢
      rw [put_complex] at hok ⊢
      split at hok
      · simp
      · rename_i hfit
        exact absurd hok hfit
    simp [hput, hs]

variable [IsStrictOrderedRing K]

theorem run_joins {t : Trajectory K} {ms : List (IManeuver K)} (hgo : putEach t ms = some true) :
    (allStored (runs.run putStep t ms)).Perm (ms ++ allStored t) := by
  have hall : acceptedIn t ms = ms := by
    induction ms generalizing t with
    | nil => rfl
    | cons m ms ih =>
      obtain ⟨hok, hgo⟩ := (putEach_go t m ms).mp hgo
      have hrest : acceptedIn (putStep t m) ms = ms := ih hgo
      rw [acceptedIn, if_pos hok, hrest]
  have hperm := run_perm t ms
  rwa [hall] at hperm

theorem insertManeuver_fits {startOf endOf : V → K} {tree : IntervalTree K V}
    (h : Labeled startOf endOf tree) {m : V} (hle : startOf m ≤ endOf m)
    (hno : ∀ m' ∈ tree.toSortedList, ¬ Clash (startOf m) (endOf m) (startOf m') (endOf m')) :
    (insertManeuver tree m (startOf m) (endOf m)).1 = some true := by
  rw [insertManeuver_eq tree m hle]
  refine congrArg some (insert_of_fits _ h.oneEach ?_)
  intro y hy
  rw [overlap_iff]
  exact forall_intervals h (P := fun s e => ¬ Clash (startOf m) (endOf m) s e) hno y hy

theorem put_fits {t : Trajectory K} (h : BothLabeled t) {m : IManeuver K} (hm : Simple m)
    (hin : Within t m) (hle : m.startDist ≤ m.endDist)
    (hno : ∀ m' ∈ allStored t, kindOf m = kindOf m' → ¬ ManeuversOverlap m m') :
    (t.put m).1 = some true := by
  rcases hm with ⟨a, rfl⟩ | ⟨a, rfl⟩
  · rw [put_lateral hin]
    refine insertManeuver_fits h.laterals hle ?_
    intro b hb
    have hst : ofLateral b ∈ t.stored .LATERAL := List.mem_map.mpr ⟨b, hb, rfl⟩
    exact hno _ (mem_allStored.mpr ⟨_, hst⟩) rfl
  · rw [put_longitudinal hin]
    refine insertManeuver_fits h.longitudinals hle ?_
    intro b hb
    have hst : ofLongitudinal b ∈ t.stored .LONGITUDINAL := List.mem_map.mpr ⟨b, hb, rfl⟩
    exact hno _ (mem_allStored.mpr ⟨_, hst⟩) rfl

/-! ## Plans that are copied -/

/-- Simple maneuvers within the bounds that keep apart all go in. -/
theorem putEach_simples {t : Trajectory K} (h : BothLabeled t) {ms : List (IManeuver K)}
    (hms : ∀ m ∈ ms, Simple m) (hin : ∀ m ∈ ms, Within t m)
    (hle : ∀ m ∈ ms, m.startDist ≤ m.endDist)
    (hpair : ms.Pairwise (fun m m' => kindOf m = kindOf m' → ¬ ManeuversOverlap m' m))
    (hno : ∀ m ∈ ms, ∀ m' ∈ allStored t, kindOf m = kindOf m' → ¬ ManeuversOverlap m m') :
    putEach t ms = some true := by
  induction ms generalizing t with
  | nil => rfl
  | cons a ms ih =>
    obtain ⟨hfirst, hpair⟩ := List.pairwise_cons.mp hpair
    have ha := hms a (by simp)
    have hok := put_fits h ha (hin a (by simp)) (hle a (by simp)) (hno a (by simp))
    obtain ⟨hs, he, _⟩ := put_simple_bounds t ha
    have hperm := put_perm t a
    rw [if_pos hok] at hperm
    rw [putEach_go]
    refine ⟨hok, ih (put_labeled t a h) (fun m hm => hms m (by simp [hm])) ?_
      (fun m hm => hle m (by simp [hm])) hpair ?_⟩
    · intro m hm
      have hold := hin m (by simp [hm])
      exact ⟨hs.trans_le hold.1, hold.2.trans_eq he.symm⟩
    · intro m hm m' hm' hk
      rcases List.mem_cons.mp (hperm.mem_iff.mp hm') with rfl | hm'
      · exact hfirst m hm hk.symm
      · exact hno m (by simp [hm]) m' hm' hk

theorem putEach_plan_iff {t src : Trajectory K} (ht : BothLabeled t) (hsrc : Lawful src)
    (hended : ∀ m ∈ allStored t, m.endDist ≤ src.startLocation) :
    putEach t src.getManeuvers = some true ↔ RoomFor t src := by
  constructor
  · intro hgo
    refine ⟨fun m hm => (putEach_within hgo m hm).1, ?_⟩
    intro hsome
    cases hc : src.complexManeuver with
    | none => rfl
    | some c =>
      have hm := complex_mem_getManeuvers hc
      exact absurd rfl ((putEach_within hgo _ hm).2 hsome c)
  · rintro ⟨hin, hfree⟩
    have hsub : ∀ m ∈ simples src, m ∈ src.getManeuvers := by
      intro m hm
      rw [getManeuvers_split]
      exact List.mem_append_left _ hm
    have hstart : ∀ m ∈ src.getManeuvers, src.startLocation ≤ m.startDist := by
      intro m hm
      rw [getManeuvers_eq] at hm
      obtain ⟨ty, hty⟩ := mem_allStored.mp hm
      exact (hsrc.planned.within ty m hty).1
    have hgo : putEach t (simples src) = some true := by
      refine putEach_simples ht (fun m => simple_of_simples) (fun m hm => hin m (hsub m hm))
        (fun m hm => simples_le hsrc.trees hm) (simples_apart hsrc.planned) ?_
      intro m hm m' hm' _ ho
      have hlt : m.startDist < m'.endDist :=
        (le_max_left _ _).trans_lt (ho.trans_le (min_le_right _ _))
      exact absurd hlt (not_lt.mpr ((hended m' hm').trans (hstart m (hsub m hm))))
    rw [getManeuvers_split, putEach_append]
    refine ⟨hgo, ?_⟩
    cases hc : src.complexManeuver with
    | none => rfl
    | some c =>
      have hm := complex_mem_getManeuvers hc
      obtain ⟨hs, he, hcm⟩ := run_simple_bounds t (simples src) (fun m => simple_of_simples)
      have hnone : t.complexManeuver = none := by
        by_contra hsome
        simp [hfree hsome] at hc
      have hrun := runs.run_keeps_always (fun t m h => put_labeled t m h) ht (simples src)
      have hok := put_complex_fits hrun (hcm.trans hnone)
        ⟨hs.trans_le (hin _ hm).1, (hin _ hm).2.trans_eq he.symm⟩ (hsrc.complex_ends c hc).1 (by
          intro m hm'
          rcases List.mem_append.mp ((run_joins hgo).mem_iff.mp hm') with hm' | hm'
          · exact ends_before_complex hsrc hc hm'
          · exact (hended m hm').trans (hstart _ hm))
      rw [Option.map_some, Option.toList_some, putEach_go]
      exact ⟨hok, rfl⟩

/-! ## The copies -/

theorem insertEach_within {startOf endOf : V → K} {tree : IntervalTree K V}
    (h : Labeled startOf endOf tree) (ms : List V) :
    Labeled startOf endOf (insertEach startOf endOf tree ms) ∧
      ∀ m ∈ (insertEach startOf endOf tree ms).toSortedList, m ∈ ms ∨ m ∈ tree.toSortedList := by
  induction ms generalizing tree with
  | nil => exact ⟨h, fun m hm => Or.inr hm⟩
  | cons a ms ih =>
    obtain ⟨hlabeled, hsub⟩ := ih (insertManeuver_labeled h a)
    refine ⟨hlabeled, ?_⟩
    intro m hm
    rcases hsub m hm with hm | hm
    · exact Or.inl (List.mem_cons_of_mem _ hm)
    · rcases insertManeuver_cases tree a (startOf a) (endOf a) with ⟨_, hperm⟩ | ⟨_, hsame⟩
      · rcases List.mem_cons.mp (hperm.mem_iff.mp hm) with rfl | hm
        · exact Or.inl (List.mem_cons_self ..)
        · exact Or.inr hm
      · exact Or.inr (hsame ▸ hm)

theorem copyOf_within (t : Trajectory K) :
    BothLabeled (copyOf t) ∧ ∀ m ∈ allStored (copyOf t), m ∈ allStored t := by
  obtain ⟨hlat, hsublat⟩ := insertEach_within (labeled_empty LateralManeuver.startDist
    LateralManeuver.endDist) t.lateralManeuvers.toSortedList
  obtain ⟨hlon, hsublon⟩ := insertEach_within (labeled_empty LongitudinalManeuver.startDist
    LongitudinalManeuver.endDist) t.longitudinalManeuvers.toSortedList
  refine ⟨⟨hlat, hlon⟩, ?_⟩
  intro m hm
  obtain ⟨ty, hty⟩ := mem_allStored.mp hm
  refine mem_allStored.mpr ⟨ty, ?_⟩
  cases ty with
  | LATERAL =>
    obtain ⟨a, ha, rfl⟩ := List.mem_map.mp hty
    exact List.mem_map.mpr ⟨a, (hsublat a ha).resolve_right (fun h => by cases h), rfl⟩
  | LONGITUDINAL =>
    obtain ⟨a, ha, rfl⟩ := List.mem_map.mp hty
    exact List.mem_map.mpr ⟨a, (hsublon a ha).resolve_right (fun h => by cases h), rfl⟩
  | COMPLEX => exact hty

theorem copyEvery_taken {t src : Trajectory K} (ht : BothLabeled t) (hsrc : Lawful src)
    (hended : ∀ m ∈ allStored t, m.endDist ≤ src.startLocation) (hroom : RoomFor t src) :
    copyEvery t src = (some true, runs.run putStep t src.getManeuvers) := by
  obtain ⟨hcopy, hsub⟩ := copyOf_within t
  have htry : putEach (copyOf t) src.getManeuvers = some true :=
    (putEach_plan_iff hcopy hsrc (fun m hm => hended m (hsub m hm))).mpr hroom
  unfold copyEvery
  rw [htry]
  exact putAll_of_putEach ((putEach_plan_iff ht hsrc hended).mpr hroom)

theorem copyEvery_refused {t src : Trajectory K} (hsrc : Lawful src)
    (hended : ∀ m ∈ allStored t, m.endDist ≤ src.startLocation) (hroom : ¬ RoomFor t src) :
    (copyEvery t src).2 = t := by
  obtain ⟨hcopy, hsub⟩ := copyOf_within t
  have htry : ¬ putEach (copyOf t) src.getManeuvers = some true := fun hgo =>
    hroom ((putEach_plan_iff hcopy hsrc (fun m hm => hended m (hsub m hm))).mp hgo)
  unfold copyEvery
  split
  · rename_i hgo
    exact absurd hgo htry
  · rfl

/-! ## The law -/

/-- The call gives a trajectory with the maneuvers of both and no other. -/
def TotalIsBoth (w : TrajectoryExecutorWorker K) (cur next : Trajectory K) : Prop :=
  ∃ out, getTotalTrajectory w = some (some out) ∧
    out.getManeuvers.Perm (cur.getManeuvers ++ next.getManeuvers)

/-- The maneuvers of both lie between the start of the current and the end of the
queued trajectory, and where the current one has a complex maneuver, the queued
one has none and nothing that ends after it. -/
structure Mergeable (cur next : Trajectory K) : Prop where
  ends_in : ∀ m ∈ cur.getManeuvers, m.endDist ≤ next.endLocation
  starts_in : ∀ m ∈ next.getManeuvers, cur.startLocation ≤ m.startDist
  after_complex : cur.complexManeuver ≠ none →
    next.complexManeuver = none ∧ ∀ m ∈ next.getManeuvers, m.endDist ≤ cur.endLocation

omit [IsStrictOrderedRing K] [Field K] in
theorem starts_within {t : Trajectory K} (h : Lawful t) {m : IManeuver K} (hm : m ∈ t.getManeuvers) :
    t.startLocation ≤ m.startDist ∧ m.endDist ≤ t.endLocation := by
  rw [getManeuvers_eq] at hm
  obtain ⟨ty, hty⟩ := mem_allStored.mp hm
  exact h.planned.within ty m hty

omit [IsStrictOrderedRing K] [Field K] in
theorem room_for_current {cur : Trajectory K} (h : Lawful cur) (endLocation : K) :
    RoomFor (newTrajectory cur.startLocation endLocation) cur ↔
      ∀ m ∈ cur.getManeuvers, m.endDist ≤ endLocation := by
  constructor
  · exact fun hroom m hm => (hroom.1 m hm).2
  · exact fun hend => ⟨fun m hm => ⟨(starts_within h hm).1, hend m hm⟩, fun hc => absurd rfl hc⟩

omit [IsStrictOrderedRing K] [Field K] in
/-- After the current trajectory there is room for the queued one up to its own
end, or up to the end of a complex maneuver. -/
theorem room_for_queued {cur next out : Trajectory K} (hlaw : Lawful cur) (hlaw' : Lawful next)
    (hs : out.startLocation = cur.startLocation)
    (he : out.endLocation = (cur.complexManeuver.map (·.endDist)).getD next.endLocation)
    (hc : out.complexManeuver = cur.complexManeuver) :
    RoomFor out next ↔ (∀ m ∈ next.getManeuvers, cur.startLocation ≤ m.startDist) ∧
      (cur.complexManeuver ≠ none →
        next.complexManeuver = none ∧ ∀ m ∈ next.getManeuvers, m.endDist ≤ cur.endLocation) := by
  unfold RoomFor Within
  rw [hs, he, hc]
  cases hcur : cur.complexManeuver with
  | none =>
    simp only [Option.map_none, Option.getD_none, ne_eq, not_true_eq_false, false_implies, and_true]
    exact ⟨fun h m hm => (h m hm).1, fun h m hm => ⟨h m hm, (starts_within hlaw' hm).2⟩⟩
  | some c =>
    simp only [Option.map_some, Option.getD_some, ne_eq, reduceCtorEq, not_false_eq_true,
      true_implies, (hlaw.complex_ends c hcur).2]
    constructor
    · exact fun h => ⟨fun m hm => (h.1 m hm).1, h.2, fun m hm => (h.1 m hm).2⟩
    · exact fun h => ⟨fun m hm => ⟨h.1 m hm, h.2.2 m hm⟩, h.2.1⟩

omit [IsStrictOrderedRing K] in
/-- What the call gives is what the two copies leave. -/
theorem total_of_copies {w : TrajectoryExecutorWorker K} {cur next out : Trajectory K}
    (hcur : w.currentTrajectory = some cur) (hnext : w.nextTrajectory = some next)
    (hout : getTotalTrajectory w = some (some out)) :
    out = (copyEvery (copyEvery (newTrajectory cur.startLocation next.endLocation) cur).2 next).2 := by
  unfold getTotalTrajectory at hout
  simp only [hcur, hnext] at hout
  rcases hfirst : copyEvery (newTrajectory cur.startLocation next.endLocation) cur with ⟨_ | a, o⟩
  · simp [hfirst] at hout
  · rcases hsecond : copyEvery o next with ⟨_ | b, o'⟩
    · simp [hfirst, hsecond] at hout
    · simpa [hfirst, hsecond] using hout.symm

omit [IsStrictOrderedRing K] in
/-- A call that leaves too few maneuvers is not both. -/
theorem not_both_of_shorter {w : TrajectoryExecutorWorker K} {cur next : Trajectory K}
    (hcur : w.currentTrajectory = some cur) (hnext : w.nextTrajectory = some next)
    (hlen : (allStored (copyEvery (copyEvery (newTrajectory cur.startLocation next.endLocation)
      cur).2 next).2).length < cur.getManeuvers.length + next.getManeuvers.length) :
    ¬ TotalIsBoth w cur next := by
  rintro ⟨out, hout, hperm⟩
  rw [getManeuvers_eq] at hperm
  have hsame : (allStored out).length = _ := hperm.length_eq
  rw [List.length_append] at hsame
  rw [← total_of_copies hcur hnext hout] at hlen
  exact absurd hsame hlen.ne

/-- A copy of a plan leaves no more than the plan and what was there. -/
theorem copyEvery_length {t src : Trajectory K} (ht : BothLabeled t) (hsrc : Lawful src)
    (hended : ∀ m ∈ allStored t, m.endDist ≤ src.startLocation) :
    (allStored (copyEvery t src).2).length ≤ src.getManeuvers.length + (allStored t).length := by
  by_cases hroom : RoomFor t src
  · have hgo := (putEach_plan_iff ht hsrc hended).mpr hroom
    rw [copyEvery_taken ht hsrc hended hroom, (run_joins hgo).length_eq, List.length_append]
  · rw [copyEvery_refused hsrc hended hroom]
    omega

/-- The total trajectory is both trajectories in one just when they can be merged. -/
theorem the_total_trajectory_is_both_when_nothing_follows_a_complex_maneuver
    (w : TrajectoryExecutorWorker K) {cur next : Trajectory K} (hcur : w.currentTrajectory = some cur)
    (hnext : w.nextTrajectory = some next) (hlaw : Lawful cur) (hlaw' : Lawful next)
    (hafter : cur.endLocation ≤ next.startLocation) :
    TotalIsBoth w cur next ↔ Mergeable cur next := by
  have hfresh := newTrajectory_labeled cur.startLocation next.endLocation
  have hended : ∀ src : Trajectory K, ∀ m ∈ allStored (newTrajectory cur.startLocation
      next.endLocation), m.endDist ≤ src.startLocation := fun _ m hm => by cases hm
  by_cases hroom : RoomFor (newTrajectory cur.startLocation next.endLocation) cur
  · have hgo := (putEach_plan_iff hfresh hlaw (hended cur)).mpr hroom
    have hfirst := copyEvery_taken hfresh hlaw (hended cur) hroom
    obtain ⟨hs, he, hc⟩ := run_plan_bounds hgo
    have hperm := run_joins hgo
    have hlabeled := runs.run_keeps_always (fun t m h => put_labeled t m h) hfresh cur.getManeuvers
    generalize runs.run putStep (newTrajectory cur.startLocation next.endLocation)
      cur.getManeuvers = out at hs he hc hperm hlabeled hfirst
    rw [show allStored (newTrajectory cur.startLocation next.endLocation) = [] from rfl,
      List.append_nil] at hperm
    have hended' : ∀ m ∈ allStored out, m.endDist ≤ next.startLocation := fun m hm =>
      ((starts_within hlaw (hperm.mem_iff.mp hm)).2).trans hafter
    have hqueued := room_for_queued hlaw hlaw' hs he (hc.trans Option.or_none)
    by_cases hroom' : RoomFor out next
    · obtain ⟨hstarts, hcomplex⟩ := hqueued.mp hroom'
      refine iff_of_true ?_ ⟨(room_for_current hlaw _).mp hroom, hstarts, hcomplex⟩
      refine ⟨runs.run putStep out next.getManeuvers, ?_, ?_⟩
      · unfold getTotalTrajectory
        simp only [hcur, hnext, hfirst, copyEvery_taken hlabeled hlaw' hended' hroom']
      · have hgo' := (putEach_plan_iff hlabeled hlaw' hended').mpr hroom'
        rw [getManeuvers_eq]
        exact (run_joins hgo').trans ((hperm.append_left _).trans List.perm_append_comm)
    · refine iff_of_false ?_ (fun h => hroom' (hqueued.mpr ⟨h.starts_in, h.after_complex⟩))
      -- the queued trajectory is lost
      have hpos := List.length_pos_iff.mpr (not_empty_of_no_room hroom')
      apply not_both_of_shorter hcur hnext
      rw [hfirst, copyEvery_refused hlaw' hended' hroom', hperm.length_eq]
      omega
  · refine iff_of_false ?_ (fun h => hroom ((room_for_current hlaw _).mpr h.ends_in))
    -- the current trajectory is lost
    have hpos := List.length_pos_iff.mpr (not_empty_of_no_room hroom)
    have hle := copyEvery_length hfresh hlaw' (hended next)
    rw [show allStored (newTrajectory cur.startLocation next.endLocation) = [] from rfl] at hle
    apply not_both_of_shorter hcur hnext
    rw [copyEvery_refused hlaw (hended cur) hroom]
    simp only [List.length_nil] at hle
    omega

/-! ## Trajectories that calls build -/

/-- A call that does not overlap the complex maneuver keeps the invariant. -/
theorem putStep_lawful {t : Trajectory K} (hk : Kept t) (h : Lawful t) {m : IManeuver K}
    (hm : m.startDist < m.endDist)
    (hclear : ∀ c, t.complexManeuver = some c → Takes t m → ¬ ManeuversOverlap m (.complex c)) :
    Kept (putStep t m) ∧ Lawful (putStep t m) := by
  have hkept : Kept (putStep t m) := put_kept hk hm
  refine ⟨hkept, put_labeled t m h.trees, (wellPlanned_iff hkept).mpr ?_, ?_⟩
  · cases m with
    | simple s => exact (put_simple_last hk h.planned.complex_is_last hm).mpr hclear
    | complex c => exact put_complex_last hk h.planned.complex_is_last hm
  · intro c hc
    refine ⟨?_, hkept.complex_ends c hc⟩
    by_cases htake : Takes t m
    · have hst := ((put_joined hk hm htake).stored .COMPLEX (.complex c)).mp
        (complex_mem_stored.mpr hc)
      rcases hst with ⟨rfl, _⟩ | hold
      · exact hm.le
      · exact (h.complex_ends c (complex_mem_stored.mp hold)).1
    · have hsame : (putStep t m).complexManeuver = t.complexManeuver :=
        congrArg Trajectory.complexManeuver (put_refused hk hm htake)
      exact (h.complex_ends c (hsame ▸ hc)).1

omit [IsStrictOrderedRing K] [Field K] in
theorem newTrajectory_lawful (startLocation endLocation : K) :
    Lawful (newTrajectory startLocation endLocation) :=
  ⟨newTrajectory_labeled _ _, (wellPlanned_iff (newTrajectory_kept _ _)).mpr
    (fun c hc => by cases hc), fun c hc => by cases hc⟩

/-- A platooning maneuver at the end of the current trajectory. -/
def platooning : Trajectory ℚ := putStep (newTrajectory 0 10) (.complex ⟨5, 10, 1, 2⟩)

/-- A steady speed in the queued trajectory. -/
def steady : Trajectory ℚ :=
  putStep (newTrajectory 10 20) (ofLongitudinal (.single .steadySpeed ⟨10, 15, 1, 1⟩))

theorem platooning_lawful : Lawful platooning :=
  (putStep_lawful (newTrajectory_kept 0 10) (newTrajectory_lawful 0 10) (by decide)
    (fun c hc => by cases hc)).2

theorem steady_lawful : Lawful steady :=
  (putStep_lawful (newTrajectory_kept 10 20) (newTrajectory_lawful 10 20) (by decide)
    (fun c hc => by cases hc)).2

/-- A worker with a current and a queued trajectory. -/
def workerWith (cur next : Trajectory ℚ) : TrajectoryExecutorWorker ℚ :=
  ((TrajectoryExecutorWorker.newTrajectoryExecutorWorker.runTrajectory cur).1.runTrajectory next).1

/-- A current trajectory that speeds up while it changes lanes. -/
def speedUpAndChange : Trajectory ℚ :=
  putStep (putStep (newTrajectory 0 10) (ofLongitudinal (.single .speedUp ⟨0, 8, 1, 3⟩)))
    (ofLateral (.single 2 6 1))

theorem speedUpAndChange_lawful : Lawful speedUpAndChange := by
  have hspeedUp := putStep_lawful (newTrajectory_kept (K := ℚ) 0 10) (newTrajectory_lawful 0 10)
    (m := ofLongitudinal (.single .speedUp ⟨0, 8, 1, 3⟩)) (by decide) (fun c hc => by cases hc)
  exact (putStep_lawful hspeedUp.1 hspeedUp.2 (by decide) (fun c hc => by cases hc)).2

theorem steady_is_kept_behind_a_lane_change :
    TotalIsBoth (workerWith speedUpAndChange steady) speedUpAndChange steady :=
  (the_total_trajectory_is_both_when_nothing_follows_a_complex_maneuver
    (workerWith speedUpAndChange steady) rfl rfl speedUpAndChange_lawful steady_lawful
    (by decide)).mpr ⟨by decide, by decide, fun hc => absurd rfl hc⟩

/-- The steady speed is lost behind the platooning maneuver. -/
theorem what_is_queued_behind_a_complex_maneuver_is_lost :
    Lawful platooning ∧ Lawful steady ∧ platooning.endLocation ≤ steady.startLocation ∧
      ¬ TotalIsBoth (workerWith platooning steady) platooning steady := by
  refine ⟨platooning_lawful, steady_lawful, by decide, ?_⟩
  rintro ⟨out, hout, hperm⟩
  have hlen : ((getTotalTrajectory (workerWith platooning steady)).map
      (·.map (·.getManeuvers.length))) = some (some 1) := by decide
  rw [hout] at hlen
  simp only [Option.map_some, Option.some.injEq] at hlen
  rw [hperm.length_eq] at hlen
  exact absurd hlen (by decide)

end carma.total_trajectory
