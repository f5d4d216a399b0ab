-- The time steps of a future maneuver: an index goes along the constituents as the vehicle does,
-- by one constituent in a step at most.
import Carma.FutureManeuvers

open lib.runs

namespace carma.maneuvers

open SimpleManeuver

variable {K M : Type} [LinearOrder K] [SimpleManeuver K M]

/-! ## One step -/

/-- How `executeTimeStep` ends: with `false` before the start, with `true` past the end, with a
constituent that executes the step, or with one of two exceptions. -/
inductive StepOutcome
  | notStarted
  | complete
  | delegated (idx : ℕ)
  | indexOutOfBounds
  | illegalState (text : String)
deriving DecidableEq

/-- `executeTimeStep` of the class of this name, and the container after it. -/
def FutureManeuver.executeTimeStep (className : String) (f : FutureManeuver K M) (currentLoc : K) :
    StepOutcome × FutureManeuver K M :=
  if currentLoc ≥ f.startDist then
    if currentLoc ≥ f.endDist then (.complete, f)
    else
      match f.mvrs[f.executingIdx]? with
      | none => (.indexOutOfBounds, f)
      | some mvr =>
        if currentLoc > getEndDistance mvr then
          let f := { f with executingIdx := f.executingIdx + 1 }
          if f.executingIdx ≥ f.mvrs.length then
            (.illegalState ("Attempting to execute a non-existent maneuver in " ++ className ++ "."), f)
          else (.delegated f.executingIdx, f)
        else (.delegated f.executingIdx, f)
  else (.notStarted, f)

def FutureLongitudinalManeuver.executeTimeStep (f : FutureLongitudinalManeuver K) (currentLoc : K) :
    StepOutcome × FutureLongitudinalManeuver K :=
  FutureManeuver.executeTimeStep "FutureLongitudinalManeuver" f currentLoc

/-! ## The constituent of a location -/

/-- The location is in the half-open range of the constituent of this index. -/
def Contains (mvrs : List M) (idx : ℕ) (loc : K) : Prop :=
  ∃ mvr, mvrs[idx]? = some mvr ∧ getStartDistance mvr ≤ loc ∧ loc < getEndDistance mvr

/-- The location is past the constituent of this index. -/
def Passed (mvrs : List M) (idx : ℕ) (loc : K) : Prop :=
  ∃ mvr, mvrs[idx]? = some mvr ∧ getEndDistance mvr < loc

/-- From the constituent of an index on, each location is in the constituent of the one before it,
or past that one and in the next. -/
def PassesOneByOne (mvrs : List M) : ℕ → List K → Prop
  | _, [] => True
  | idx, loc :: locs =>
    (Contains mvrs idx loc ∧ PassesOneByOne mvrs idx locs) ∨
      (Passed mvrs idx loc ∧ Contains mvrs (idx + 1) loc ∧ PassesOneByOne mvrs (idx + 1) locs)

/-- A step is executed by a constituent whose range contains the location. -/
def DelegatesRight (f : FutureManeuver K M) (currentLoc : K) (outcome : StepOutcome) : Prop :=
  ∃ idx, outcome = .delegated idx ∧ Contains f.mvrs idx currentLoc

theorem executeTimeStep_contains (className : String) {f : FutureManeuver K M} {loc : K}
    (hstart : f.startDist ≤ loc) (hend : loc < f.endDist)
    (h : Contains f.mvrs f.executingIdx loc) :
    f.executeTimeStep className loc = (.delegated f.executingIdx, f) := by
  obtain ⟨mvr, hmvr, -, hlt⟩ := h
  unfold FutureManeuver.executeTimeStep
  rw [if_pos hstart, if_neg (not_le.mpr hend), hmvr]
  exact if_neg (not_lt.mpr hlt.le)

theorem executeTimeStep_passed (className : String) {f : FutureManeuver K M} {loc : K}
    (hstart : f.startDist ≤ loc) (hend : loc < f.endDist) (h : Passed f.mvrs f.executingIdx loc)
    (hnext : Contains f.mvrs (f.executingIdx + 1) loc) :
    f.executeTimeStep className loc =
      (.delegated (f.executingIdx + 1), { f with executingIdx := f.executingIdx + 1 }) := by
  obtain ⟨mvr, hmvr, hpast⟩ := h
  obtain ⟨next, hget, -⟩ := hnext
  have hlen := (List.getElem?_eq_some_iff.mp hget).1
  unfold FutureManeuver.executeTimeStep
  rw [if_pos hstart, if_neg (not_le.mpr hend), hmvr]
  dsimp only
  rw [if_pos hpast, if_neg (not_le.mpr hlen)]

/-- A step is executed right just in these two cases. -/
theorem delegatesRight_iff (className : String) {f : FutureManeuver K M} {loc : K}
    (hstart : f.startDist ≤ loc) (hend : loc < f.endDist) :
    DelegatesRight f loc (f.executeTimeStep className loc).1 ↔
      Contains f.mvrs f.executingIdx loc ∨
        (Passed f.mvrs f.executingIdx loc ∧ Contains f.mvrs (f.executingIdx + 1) loc) := by
  constructor
  · rintro ⟨idx, houtcome, hcontains⟩
    unfold FutureManeuver.executeTimeStep at houtcome
    rw [if_pos hstart, if_neg (not_le.mpr hend)] at houtcome
    split at houtcome
    · cases houtcome
    · rename_i mvr hmvr
      split at houtcome
      · rename_i hpast
        dsimp only at houtcome
        split at houtcome
        · cases houtcome
        · cases houtcome
          exact Or.inr ⟨⟨mvr, hmvr, hpast⟩, hcontains⟩
      · cases houtcome
        exact Or.inl hcontains
  · rintro (h | ⟨hpast, hnext⟩)
    · rw [executeTimeStep_contains className hstart hend h]
      exact ⟨_, rfl, h⟩
    · rw [executeTimeStep_passed className hstart hend hpast hnext]
      exact ⟨_, rfl, hnext⟩

/-! ## All steps -/

/-- Each step of a run is executed right. -/
def FollowsConstituents (f : FutureLongitudinalManeuver K) (locs : List K) : Prop :=
  EachCall (fun f loc => (FutureLongitudinalManeuver.executeTimeStep f loc).2)
    (fun f loc => DelegatesRight f loc (FutureLongitudinalManeuver.executeTimeStep f loc).1) f locs

section run

variable {f : FutureLongitudinalManeuver K} {loc : K} (locs : List K)

theorem follows_contains (hstart : f.startDist ≤ loc) (hend : loc < f.endDist)
    (h : Contains f.mvrs f.executingIdx loc) :
    FollowsConstituents f (loc :: locs) ↔ FollowsConstituents f locs := by
  have hright := (delegatesRight_iff "FutureLongitudinalManeuver" hstart hend).mpr (Or.inl h)
  have hstep : FutureLongitudinalManeuver.executeTimeStep f loc = (.delegated f.executingIdx, f) :=
    executeTimeStep_contains _ hstart hend h
  unfold FollowsConstituents
  rw [EachCall]
  refine (and_iff_right hright).trans ?_
  rw [hstep]

theorem follows_passed (hstart : f.startDist ≤ loc) (hend : loc < f.endDist)
    (h : Passed f.mvrs f.executingIdx loc) (hnext : Contains f.mvrs (f.executingIdx + 1) loc) :
    FollowsConstituents f (loc :: locs) ↔
      FollowsConstituents { f with executingIdx := f.executingIdx + 1 } locs := by
  have hright := (delegatesRight_iff "FutureLongitudinalManeuver" hstart hend).mpr
    (Or.inr ⟨h, hnext⟩)
  have hstep : FutureLongitudinalManeuver.executeTimeStep f loc =
      (.delegated (f.executingIdx + 1), { f with executingIdx := f.executingIdx + 1 }) :=
    executeTimeStep_passed _ hstart hend h hnext
  unfold FollowsConstituents
  rw [EachCall]
  refine (and_iff_right hright).trans ?_
  rw [hstep]

end run

/-- The steps are executed right just when none of them takes the vehicle past more than one end
of a constituent, or to just such an end. -/
theorem steps_follow_the_constituents_exactly (f : FutureLongitudinalManeuver K) (locs : List K)
    (hin : ∀ loc ∈ locs, f.startDist ≤ loc ∧ loc < f.endDist) :
    FollowsConstituents f locs ↔ PassesOneByOne f.mvrs f.executingIdx locs := by
  induction locs generalizing f with
  | nil => exact Iff.rfl
  | cons loc locs ih =>
    obtain ⟨⟨hstart, hend⟩, hrest⟩ := List.forall_mem_cons.mp hin
    unfold PassesOneByOne
    constructor
    · intro h
      rcases (delegatesRight_iff "FutureLongitudinalManeuver" hstart hend).mp h.1
        with hin | ⟨hpast, hnext⟩
      · exact Or.inl ⟨hin, (ih f hrest).mp ((follows_contains locs hstart hend hin).mp h)⟩
      · exact Or.inr ⟨hpast, hnext, (ih { f with executingIdx := f.executingIdx + 1 } hrest).mp
          ((follows_passed locs hstart hend hpast hnext).mp h)⟩
    · rintro (⟨hin, hlater⟩ | ⟨hpast, hnext, hlater⟩)
      · exact (follows_contains locs hstart hend hin).mpr ((ih f hrest).mpr hlater)
      · exact (follows_passed locs hstart hend hpast hnext).mpr
          ((ih { f with executingIdx := f.executingIdx + 1 } hrest).mpr hlater)

/-! ## A long step -/

/-- Three steady speeds of ten meters each, added to a new container. -/
def threeConstituents : FutureLongitudinalManeuver ℚ :=
  (FutureLongitudinalManeuver.fill (newFutureManeuver (LongitudinalManeuver ℚ) 0 30)
    (.addManeuvers [steadyOver 0 10, steadyOver 10 20, steadyOver 20 30])).2

theorem short_steps_follow_the_constituents_exactly :
    FollowsConstituents threeConstituents [5, 12] ↔
      PassesOneByOne threeConstituents.mvrs threeConstituents.executingIdx [5, 12] :=
  steps_follow_the_constituents_exactly threeConstituents [5, 12] (by decide +kernel)

/-- From 5 to 25 the vehicle passes the second constituent, which executes the step. -/
theorem a_long_step_is_executed_by_the_wrong_constituent :
    ¬ ∀ (calls : List (FillCall (LongitudinalManeuver ℚ))) (locs : List ℚ),
      locs.Pairwise (· ≤ ·) → (∀ loc ∈ locs, 0 ≤ loc ∧ loc < 30) →
      FollowsConstituents (run (fun f c => (FutureLongitudinalManeuver.fill f c).2)
        (newFutureManeuver (LongitudinalManeuver ℚ) 0 30) calls) locs := by
  intro hall
  obtain ⟨-, ⟨idx, houtcome, hcontains⟩, -⟩ := hall [.addManeuvers [steadyOver 0 10,
    steadyOver 10 20, steadyOver 20 30]] [5, 25] (by decide +kernel) (by decide +kernel)
  have hsecond : (FutureLongitudinalManeuver.executeTimeStep
      (FutureLongitudinalManeuver.executeTimeStep threeConstituents 5).2 25).1 =
        .delegated 1 := by decide +kernel
  obtain rfl : idx = 1 := by
    cases hsecond.symm.trans houtcome
    rfl
  obtain ⟨mvr, hmvr, -, hlt⟩ := hcontains
  have hends : ((FutureLongitudinalManeuver.executeTimeStep threeConstituents 5).2.mvrs[1]?).map
      LongitudinalManeuver.endDist = some 20 := by decide +kernel
  have hend := (congrArg (Option.map LongitudinalManeuver.endDist) hmvr).symm.trans hends
  exact absurd (hlt.trans_eq (Option.some.inj hend)) (by decide)

end carma.maneuvers
