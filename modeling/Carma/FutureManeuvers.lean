-- The future maneuvers: containers that are filled with constituents front to back. What they hold
-- after any calls, and what a call that throws leaves of it.
import Mathlib.Algebra.Order.Field.Basic
import Mathlib.Algebra.Field.Rat
import Mathlib.Algebra.Order.Ring.Rat
import Mathlib.Data.List.Chain
import Carma.Lib.Runs
import Carma.Maneuvers

open lib.runs

namespace carma.maneuvers

/-! ## The container -/

/-- What a future maneuver reads of a constituent. -/
class SimpleManeuver (K : outParam Type) (M : Type) where
  getStartDistance : M → K
  getEndDistance : M → K

open SimpleManeuver

instance {K : Type} : SimpleManeuver K (LongitudinalManeuver K) where
  getStartDistance := LongitudinalManeuver.startDist
  getEndDistance := LongitudinalManeuver.endDist

instance {K : Type} : SimpleManeuver K (LateralManeuver K) where
  getStartDistance := LateralManeuver.startDist
  getEndDistance := LateralManeuver.endDist

/-- The fields of both classes of future maneuvers. -/
structure FutureManeuver (K M : Type) where
  startDist : K
  endDist : K
  maneuversEnd : K
  mvrs : List M
  executingIdx : ℕ

def newFutureManeuver {K : Type} (M : Type) (startDist endDist : K) : FutureManeuver K M :=
  ⟨startDist, endDist, startDist, [], 0⟩

variable {K M : Type} [LinearOrder K] [Field K]

/-- In meters. -/
def CONCATENATION_TOLERANCE : K := 1 / (1000 : ℕ)

variable [SimpleManeuver K M]

namespace FutureManeuver

/-- `addManeuver` of the class of this name: what it answers, and the container after it. -/
def addManeuver (className : String) (f : FutureManeuver K M) (mvr : M) :
    Except String K × FutureManeuver K M :=
  if getEndDistance mvr > f.endDist then
    (.error ("Attempting to add a maneuver that extends past end of " ++ className ++ "."), f)
  else if |getStartDistance mvr - f.maneuversEnd| > CONCATENATION_TOLERANCE then
    (.error ("Attempting to add a maneuver to a " ++ className ++ " with a gap or overlap"), f)
  else (.ok (getEndDistance mvr),
    { f with mvrs := f.mvrs ++ [mvr], maneuversEnd := getEndDistance mvr })

/-- The loop of `addManeuvers`. -/
def addEach (className : String) : FutureManeuver K M → List M → Except String K × FutureManeuver K M
  | f, [] => (.ok f.maneuversEnd, f)
  | f, m :: ms =>
    match f.addManeuver className m with
    | (.error e, f) => (.error e, f)
    | (.ok _, f) => f.addEach className ms

def addManeuvers (className : String) (f : FutureManeuver K M) (mvrs : List M) :
    Except String K × FutureManeuver K M :=
  addEach className { f with mvrs := [], maneuversEnd := f.startDist } mvrs

end FutureManeuver

/-! ## What fits -/

/-- A maneuver fits where it joins on to the end of what is there, and ends within the
container. -/
def Fits (endDist maneuversEnd : K) (mvr : M) : Prop :=
  getEndDistance mvr ≤ endDist ∧
    |getStartDistance mvr - maneuversEnd| ≤ CONCATENATION_TOLERANCE

instance decidableFits (endDist maneuversEnd : K) (mvr : M) :
    Decidable (Fits endDist maneuversEnd mvr) :=
  inferInstanceAs (Decidable (_ ∧ _))

/-- The maneuvers of a list before the first one that does not fit on to those before it. -/
def fitting (endDist : K) : K → List M → List M
  | _, [] => []
  | maneuversEnd, m :: ms =>
    if Fits endDist maneuversEnd m then m :: fitting endDist (getEndDistance m) ms else []

/-- Where maneuvers end that start here. -/
def endOf (startDist : K) (ms : List M) : K := ms.foldl (fun _ m => getEndDistance m) startDist

/-- From here on each maneuver starts where the one before it ends, up to the tolerance. -/
def Joined : K → List M → Prop
  | _, [] => True
  | maneuversEnd, m :: ms =>
    |getStartDistance m - maneuversEnd| ≤ CONCATENATION_TOLERANCE ∧ Joined (getEndDistance m) ms

theorem joined_snoc {startDist : K} {ms : List M} {m : M} :
    Joined startDist (ms ++ [m]) ↔ Joined startDist ms ∧
      |getStartDistance m - endOf startDist ms| ≤ CONCATENATION_TOLERANCE := by
  induction ms generalizing startDist with
  | nil => simp [Joined, endOf]
  | cons m' ms ih =>
    rw [List.cons_append]
    unfold Joined
    rw [ih, and_assoc]
    rfl

theorem fitting_joined (endDist startDist : K) (ms : List M) :
    Joined startDist (fitting endDist startDist ms) := by
  induction ms generalizing startDist with
  | nil => trivial
  | cons m ms ih =>
    unfold fitting
    split
    · rename_i hfits
      exact ⟨hfits.2, ih _⟩
    · trivial

theorem fitting_within (endDist startDist : K) (ms : List M) :
    ∀ m ∈ fitting endDist startDist ms, getEndDistance m ≤ endDist := by
  induction ms generalizing startDist with
  | nil => exact fun m hm => absurd hm List.not_mem_nil
  | cons m ms ih =>
    unfold fitting
    split
    · rename_i hfits
      exact List.forall_mem_cons.mpr ⟨hfits.1, ih _⟩
    · exact fun m hm => absurd hm List.not_mem_nil

theorem addManeuver_fits (className : String) {f : FutureManeuver K M} {m : M}
    (h : Fits f.endDist f.maneuversEnd m) :
    f.addManeuver className m = (.ok (getEndDistance m),
      { f with mvrs := f.mvrs ++ [m], maneuversEnd := getEndDistance m }) := by
  unfold FutureManeuver.addManeuver
  rw [if_neg (not_lt.mpr h.1), if_neg (not_lt.mpr h.2)]

theorem addManeuver_refused (className : String) {f : FutureManeuver K M} {m : M}
    (h : ¬ Fits f.endDist f.maneuversEnd m) : ∃ text, f.addManeuver className m = (.error text, f) := by
  unfold FutureManeuver.addManeuver
  by_cases hend : getEndDistance m > f.endDist
  · exact ⟨_, if_pos hend⟩
  · rw [if_neg hend]
    exact ⟨_, if_pos (not_le.mp (fun hgap => h ⟨not_lt.mp hend, hgap⟩))⟩

theorem addEach_spec (className : String) (f : FutureManeuver K M) (ms : List M) :
    (f.addEach className ms).2 =
        { f with
          mvrs := f.mvrs ++ fitting f.endDist f.maneuversEnd ms
          maneuversEnd := endOf f.maneuversEnd (fitting f.endDist f.maneuversEnd ms) } ∧
      ((∃ text, (f.addEach className ms).1 = .error text) ↔
        (fitting f.endDist f.maneuversEnd ms).length < ms.length) := by
  induction ms generalizing f with
  | nil => simp [FutureManeuver.addEach, fitting, endOf]
  | cons m ms ih =>
    by_cases hfits : Fits f.endDist f.maneuversEnd m
    · obtain ⟨hstate, hthrows⟩ :=
        ih { f with mvrs := f.mvrs ++ [m], maneuversEnd := getEndDistance m }
      unfold FutureManeuver.addEach fitting
      rw [addManeuver_fits className hfits, if_pos hfits]
      dsimp only at hstate hthrows ⊢
      rw [hstate, hthrows, List.length_cons, List.length_cons, Nat.succ_lt_succ_iff,
        List.append_assoc]
      exact ⟨rfl, Iff.rfl⟩
    · obtain ⟨text, hrefused⟩ := addManeuver_refused className hfits
      unfold FutureManeuver.addEach fitting
      rw [hrefused, if_neg hfits]
      simp [endOf]

/-! ## Calls -/

/-- The calls that fill a container. -/
inductive FillCall (M : Type)
  | addManeuver (mvr : M)
  | addManeuvers (mvrs : List M)

def FutureManeuver.fill (className : String) (f : FutureManeuver K M) :
    FillCall M → Except String K × FutureManeuver K M
  | .addManeuver mvr => f.addManeuver className mvr
  | .addManeuvers mvrs => f.addManeuvers className mvrs

abbrev FutureLongitudinalManeuver (K : Type) := FutureManeuver K (LongitudinalManeuver K)

abbrev FutureLateralManeuver (K : Type) := FutureManeuver K (LateralManeuver K)

/-- `addManeuver` and `addManeuvers` of `FutureLongitudinalManeuver`. -/
def FutureLongitudinalManeuver.fill (f : FutureLongitudinalManeuver K) :
    FillCall (LongitudinalManeuver K) → Except String K × FutureLongitudinalManeuver K :=
  FutureManeuver.fill "FutureLongitudinalManeuver" f

/-- `addManeuver` and `addManeuvers` of `FutureLateralManeuver`. -/
def FutureLateralManeuver.fill (f : FutureLateralManeuver K) :
    FillCall (LateralManeuver K) → Except String K × FutureLateralManeuver K :=
  FutureManeuver.fill "FutureLateralManeuver" f

/-! ## What every call keeps -/

/-- A container that knows where its constituents end, as the checks of a call need it. -/
structure Kept (f : FutureManeuver K M) : Prop where
  maneuversEnd : f.maneuversEnd = endOf f.startDist f.mvrs
  joined : Joined f.startDist f.mvrs
  within : ∀ m ∈ f.mvrs, getEndDistance m ≤ f.endDist

theorem fill_refused (className : String) {f : FutureManeuver K M} {m : M}
    (h : ¬ Fits f.endDist f.maneuversEnd m) : (f.fill className (.addManeuver m)).2 = f := by
  obtain ⟨text, hrefused⟩ := addManeuver_refused className h
  exact congrArg Prod.snd hrefused

theorem fill_fits (className : String) {f : FutureManeuver K M} {m : M}
    (h : Fits f.endDist f.maneuversEnd m) : (f.fill className (.addManeuver m)).2 =
      { f with mvrs := f.mvrs ++ [m], maneuversEnd := getEndDistance m } :=
  congrArg Prod.snd (addManeuver_fits className h)

/-- A batch leaves those of its maneuvers that fit from the start of the container on. -/
theorem fill_batch (className : String) (f : FutureManeuver K M) (ms : List M) :
    (f.fill className (.addManeuvers ms)).2 =
      { f with
        mvrs := fitting f.endDist f.startDist ms
        maneuversEnd := endOf f.startDist (fitting f.endDist f.startDist ms) } :=
  (addEach_spec className { f with mvrs := [], maneuversEnd := f.startDist } ms).1

theorem fill_kept (className : String) (f : FutureManeuver K M) (c : FillCall M) (h : Kept f) :
    Kept (f.fill className c).2 := by
  cases c with
  | addManeuver m =>
    by_cases hfits : Fits f.endDist f.maneuversEnd m
    · rw [fill_fits className hfits]
      refine ⟨?_, ?_, ?_⟩
      · unfold endOf
        rw [List.foldl_append]
        rfl
      · refine joined_snoc.mpr ⟨h.joined, ?_⟩
        rw [← h.maneuversEnd]
        exact hfits.2
      · intro m' hm'
        rcases List.mem_append.mp hm' with hold | hnew
        · exact h.within m' hold
        · rw [List.mem_singleton.mp hnew]
          exact hfits.1
    · rwa [fill_refused className hfits]
  | addManeuvers ms =>
    rw [fill_batch]
    exact ⟨rfl, fitting_joined _ _ _, fitting_within _ _ _⟩

/-! ## The law -/

/-- The constituents start where the container does, without a gap or an overlap, and lie inside
it, all of this within the tolerance. -/
structure Filled (f : FutureManeuver K M) : Prop where
  joined : Joined f.startDist f.mvrs
  inside : ∀ m ∈ f.mvrs, f.startDist - CONCATENATION_TOLERANCE ≤ getStartDistance m ∧
    getEndDistance m ≤ f.endDist

/-- In a run of calls what is stored is in its place in each state, and a call that throws leaves
it as it was. -/
def StoresInPlace (fill : FutureManeuver K M → FillCall M → Except String K × FutureManeuver K M)
    (f : FutureManeuver K M) (calls : List (FillCall M)) : Prop :=
  (∀ f' ∈ states (fun f c => (fill f c).2) f calls, Filled f') ∧
    EachCall (fun f c => (fill f c).2)
      (fun f c => (∃ text, (fill f c).1 = .error text) → (fill f c).2.mvrs = f.mvrs) f calls

/-- The maneuvers of a call that fit do not start before the container. -/
def StartsInside (f : FutureManeuver K M) : FillCall M → Prop
  | .addManeuver mvr => Fits f.endDist f.maneuversEnd mvr →
      f.startDist - CONCATENATION_TOLERANCE ≤ getStartDistance mvr
  | .addManeuvers mvrs => ∀ m ∈ fitting f.endDist f.startDist mvrs,
      f.startDist - CONCATENATION_TOLERANCE ≤ getStartDistance m

/-- All maneuvers of a batch fit, unless those that do are what is stored anyway. -/
def FitsWhole (f : FutureManeuver K M) : FillCall M → Prop
  | .addManeuver _ => True
  | .addManeuvers mvrs =>
      (fitting f.endDist f.startDist mvrs).length < mvrs.length →
        fitting f.endDist f.startDist mvrs = f.mvrs

theorem fill_filled_iff (className : String) {f : FutureManeuver K M} (c : FillCall M)
    (hkept : Kept f) (h : Filled f) : Filled (f.fill className c).2 ↔ StartsInside f c := by
  have hnext := fill_kept className f c hkept
  have hiff : Filled (f.fill className c).2 ↔ ∀ m ∈ (f.fill className c).2.mvrs,
      (f.fill className c).2.startDist - CONCATENATION_TOLERANCE ≤ getStartDistance m :=
    ⟨fun hfilled m hm => (hfilled.inside m hm).1,
      fun hstarts => ⟨hnext.joined, fun m hm => ⟨hstarts m hm, hnext.within m hm⟩⟩⟩
  rw [hiff]
  cases c with
  | addManeuver m =>
    unfold StartsInside
    dsimp only
    by_cases hfits : Fits f.endDist f.maneuversEnd m
    · rw [fill_fits className hfits, imp_iff_right hfits]
      constructor
      · exact fun hall => hall m (List.mem_append_right _ (List.mem_singleton_self m))
      · intro hstart m' hm'
        rcases List.mem_append.mp hm' with hold | hnew
        · exact (h.inside m' hold).1
        · rw [List.mem_singleton.mp hnew]
          exact hstart
    · rw [fill_refused className hfits]
      exact iff_of_true (fun m' hm' => (h.inside m' hm').1) (fun hc => absurd hc hfits)
  | addManeuvers ms =>
    rw [fill_batch]
    rfl

theorem fill_leaves_iff (className : String) (f : FutureManeuver K M) (c : FillCall M) :
    ((∃ text, (f.fill className c).1 = .error text) → (f.fill className c).2.mvrs = f.mvrs) ↔
      FitsWhole f c := by
  cases c with
  | addManeuver m =>
    refine iff_of_true ?_ trivial
    by_cases hfits : Fits f.endDist f.maneuversEnd m
    · rintro ⟨text, htext⟩
      have hok := congrArg Prod.fst (addManeuver_fits className hfits)
      cases hok.symm.trans htext
    · intro _
      rw [fill_refused className hfits]
  | addManeuvers ms =>
    have hthrows :=
      (addEach_spec className { f with mvrs := [], maneuversEnd := f.startDist } ms).2
    rw [fill_batch]
    exact imp_congr_left hthrows

theorem stores_in_place_iff (className : String) {f : FutureManeuver K M} (hkept : Kept f)
    (h : Filled f) (calls : List (FillCall M)) :
    StoresInPlace (FutureManeuver.fill className) f calls ↔
      EachCall (fun f c => (f.fill className c).2) StartsInside f calls ∧
        EachCall (fun f c => (f.fill className c).2) FitsWhole f calls := by
  unfold StoresInPlace
  refine and_congr ?_ ?_
  · exact states_iff (fun f c hf (_ : True) => fill_kept className f c hf)
      (fun f c hf _ hfilled => fill_filled_iff className c hf hfilled) hkept h (fun _ _ => trivial)
  · exact eachCall_iff (I := fun _ => True) (fun _ _ _ => trivial)
      (fun f c _ => fill_leaves_iff className f c) trivial calls

theorem newFutureManeuver_kept (startDist endDist : K) :
    Kept (newFutureManeuver M startDist endDist) :=
  ⟨rfl, trivial, fun _ hm => absurd hm List.not_mem_nil⟩

theorem newFutureManeuver_filled (startDist endDist : K) :
    Filled (newFutureManeuver M startDist endDist) :=
  ⟨trivial, fun _ hm => absurd hm List.not_mem_nil⟩

/-- Over all calls, the constituents are in their places and a call that throws leaves them, just
when no maneuver that fits starts before the container and each batch fits as a whole. -/
theorem constituents_are_kept_exactly (startDist endDist : K) :
    (∀ calls, StoresInPlace FutureLongitudinalManeuver.fill
        (newFutureManeuver (LongitudinalManeuver K) startDist endDist) calls ↔
      EachCall (fun f c => (FutureLongitudinalManeuver.fill f c).2) StartsInside
          (newFutureManeuver (LongitudinalManeuver K) startDist endDist) calls ∧
        EachCall (fun f c => (FutureLongitudinalManeuver.fill f c).2) FitsWhole
          (newFutureManeuver (LongitudinalManeuver K) startDist endDist) calls) ∧
    ∀ calls, StoresInPlace FutureLateralManeuver.fill
        (newFutureManeuver (LateralManeuver K) startDist endDist) calls ↔
      EachCall (fun f c => (FutureLateralManeuver.fill f c).2) StartsInside
          (newFutureManeuver (LateralManeuver K) startDist endDist) calls ∧
        EachCall (fun f c => (FutureLateralManeuver.fill f c).2) FitsWhole
          (newFutureManeuver (LateralManeuver K) startDist endDist) calls :=
  ⟨stores_in_place_iff _ (newFutureManeuver_kept _ _) (newFutureManeuver_filled _ _),
    stores_in_place_iff _ (newFutureManeuver_kept _ _) (newFutureManeuver_filled _ _)⟩

/-! ## A batch with a gap -/

/-- A steady speed between two places. -/
def steadyOver (startDist endDist : ℚ) : LongitudinalManeuver ℚ :=
  .single .steadySpeed ⟨startDist, endDist, 10, 10⟩

/-- A batch with a gap throws when what was stored is gone, with its first maneuver in its place. -/
theorem a_batch_with_a_gap_replaces_what_was_stored :
    ¬ ∀ (startDist endDist : ℚ) (calls : List (FillCall (LongitudinalManeuver ℚ))),
      StoresInPlace FutureLongitudinalManeuver.fill
        (newFutureManeuver (LongitudinalManeuver ℚ) startDist endDist) calls := by
  intro hall
  obtain ⟨-, -, hleaves, -⟩ := hall 0 100 [.addManeuver (steadyOver 0 50),
    .addManeuvers [steadyOver 0 10, steadyOver 20 30]]
  have hsame := (fill_leaves_iff "FutureLongitudinalManeuver" _ _).mp hleaves
  have hends := congrArg (List.map LongitudinalManeuver.endDist) (hsame (by decide +kernel))
  exact absurd hends (by decide +kernel)

end carma.maneuvers
