-- The arbitrator: where the next trajectory is to end, and the planning of a trajectory by
-- the strategic plugins. The plugins, the validator and the clock are an environment. The end
-- of the trajectory is snapped from one end of a segment to the next while these are near each
-- other, so short segments can take it past the snap threshold.
import Carma.Lib.Hops
import Carma.Lib.Retries
import Carma.Route
import Carma.Trajectory
import Mathlib.Algebra.Order.Ring.Rat

open lib lib.hops
open carma.maneuvers
open carma.route
open carma.trajectory

namespace carma.arbitrator

/-! ## Responses of plugins -/

inductive PlanningRequest
  | REQUEST_LONGER_TRAJECTORY
  | REQUEST_DELAY_REPLAN
  | REQUEST_HIGHER_PRIORITY
deriving DecidableEq

structure TrajectoryPlanningResponse (K : Type) where
  proposedTrajectoryEnd : K
  proposedReplanDelay : ℤ
  requests : List PlanningRequest

section planning

variable {K P W : Type}

def TrajectoryPlanningResponse.getProposedTrajectoryEnd (resp : TrajectoryPlanningResponse K) :
    Option K :=
  if .REQUEST_LONGER_TRAJECTORY ∈ resp.requests then some resp.proposedTrajectoryEnd else none

def TrajectoryPlanningResponse.getProposedReplanDelay (resp : TrajectoryPlanningResponse K) :
    Option ℤ :=
  if .REQUEST_DELAY_REPLAN ∈ resp.requests then some resp.proposedReplanDelay else none

def TrajectoryPlanningResponse.higherPriorityRequested (resp : TrajectoryPlanningResponse K) :
    Bool := decide (.REQUEST_HIGHER_PRIORITY ∈ resp.requests)

/-! ## The arbitrator -/

/-- The fields of `Arbitrator` that its planning reads. The route is the lengths of its
segments, and empty before one has come. -/
structure Arbitrator (K P : Type) [LE K] where
  plugins : List P
  planningWindow : K
  planningWindowSnapThreshold : K
  numAcceptableFailures : ℤ
  trajectory : Option (Trajectory K)
  routeLength : K
  currentRoute : List K
  routeRecvd : Bool

variable [LinearOrder K]

section endpoint

variable [Field K]

/-- The callback of the route topic: only the first route counts. -/
def Arbitrator.onRoute (a : Arbitrator K P) (msg : List K) : Arbitrator K P :=
  if a.routeRecvd then a
  else { a with
    routeRecvd := true
    currentRoute := msg
    routeLength := msg.foldl (fun length segment => length + segment) 0 }

/-- The loop of `getNextTrajectoryEndpoint`. -/
def snapToSegments (planningWindowSnapThreshold : K) : K → K → List K → K
  | _, trajectoryEnd, [] => trajectoryEnd
  | dtdAccum, trajectoryEnd, length :: segments =>
    let dtdAccum := dtdAccum + length
    if dtdAccum > trajectoryEnd then
      if |dtdAccum - trajectoryEnd| < planningWindowSnapThreshold then
        snapToSegments planningWindowSnapThreshold dtdAccum dtdAccum segments
      else trajectoryEnd
    else snapToSegments planningWindowSnapThreshold dtdAccum trajectoryEnd segments

def Arbitrator.getNextTrajectoryEndpoint (a : Arbitrator K P) (trajectoryStart : K) : K :=
  let trajectoryEnd := trajectoryStart + a.planningWindow
  if a.routeLength > 0 then
    min a.routeLength
      (snapToSegments a.planningWindowSnapThreshold 0 trajectoryEnd a.currentRoute)
  else trajectoryEnd

end endpoint

/-! ## Planning -/

/-- What the planning meets: the speed of the vehicle, the plugins, which change the trajectory
that they are handed, the clock, the validator, and the handler of exceptions. -/
structure Environment (K P W : Type) [LE K] where
  currentSpeed : W → K
  getActivation : P → W → Bool
  getAvailability : P → W → Bool
  planTrajectory : P → Trajectory K → K → W → TrajectoryPlanningResponse K × Trajectory K × W
  sleep : ℤ → W → W
  validate : Trajectory K → W → Bool × W
  handleException : W → W

/-- What changes from one attempt to the next. -/
structure Planning (K P W : Type) where
  trajectoryEnd : K
  plugins : List P
  world : W

/-- How an attempt ended, and with which candidate. -/
inductive Attempt (K : Type) [LE K]
  | threw
  | requested (traj : Trajectory K)
  | validated (traj : Trajectory K) (verdict : Bool)

/-- `expectedEntrySpeed`. It throws when the last trajectory has no longitudinal maneuver. -/
def expectedEntrySpeed (trajectory : Option (Trajectory K)) (currentSpeed : K) : Option K :=
  match trajectory with
  | none => some currentSpeed
  | some trajectory =>
    if trajectory.complexManeuver.isSome then some currentSpeed
    else trajectory.getLongitudinalManeuvers.getLast?.map (·.motion.endSpeed)

variable [DecidableEq P]

/-- What comes of the requests of a plugin. -/
def grant (env : Environment K P W) (p : P) (resp : TrajectoryPlanningResponse K)
    (s : Planning K P W) : Planning K P W :=
  let s := match resp.getProposedTrajectoryEnd with
    | some proposedEndDistance => { s with trajectoryEnd := max proposedEndDistance s.trajectoryEnd }
    | none => s
  let s := match resp.getProposedReplanDelay with
    | some delay => { s with world := env.sleep delay s.world }
    | none => s
  if resp.higherPriorityRequested then { s with plugins := p :: s.plugins.erase p } else s

/-- The loop over the plugins. The answer is whether one of them had requests. -/
def askPlugins (env : Environment K P W) (entrySpeed : K) :
    List P → Trajectory K → Planning K P W → Bool × Trajectory K × Planning K P W
  | [], traj, s => (false, traj, s)
  | p :: ps, traj, s =>
    if env.getActivation p s.world && env.getAvailability p s.world then
      let (resp, traj, world) := env.planTrajectory p traj entrySpeed s.world
      let s := { s with world := world }
      if !resp.requests.isEmpty then (true, traj, grant env p resp s)
      else askPlugins env entrySpeed ps traj s
    else askPlugins env entrySpeed ps traj s

/-- One turn of the planning loop, without its counter. -/
def attempt (env : Environment K P W) (trajectory : Option (Trajectory K)) (trajectoryStart : K)
    (s : Planning K P W) : Attempt K × Planning K P W :=
  match expectedEntrySpeed trajectory (env.currentSpeed s.world) with
  | none => (.threw, s)
  | some entrySpeed =>
    match askPlugins env entrySpeed s.plugins (newTrajectory trajectoryStart s.trajectoryEnd) s with
    | (true, traj, s) => (.requested traj, s)
    | (false, traj, s) =>
      let (valid, world) := env.validate traj s.world
      (.validated traj valid, { s with world := world })

/-- The loop is left at once. -/
def Attempt.ends : Attempt K → Bool
  | threw => true
  | requested _ => false
  | validated _ valid => valid

/-- `failures` after a failed attempt. A request counts in the body of the loop and once more
in its header. -/
def nextFailures (attempt : Attempt K) (failures : ℤ) : ℤ :=
  match attempt with
  | .requested _ => wrapInt (wrapInt (failures + 1) + 1)
  | _ => wrapInt (failures + 1)

inductive Outcome (K : Type) [LE K]
  | threw
  | returned (out : Option (Trajectory K))

/-- A call of `planTrajectory`: how it ended, its attempts, and what it left. -/
structure Planned (K P W : Type) [LE K] where
  outcome : Outcome K
  attempts : List (Attempt K)
  plugins : List P
  world : W

/-- What the first attempt starts from. -/
def Arbitrator.firstPlanning (a : Arbitrator K P) (trajectoryEnd : K) (world : W) :
    Planning K P W := ⟨trajectoryEnd, a.plugins, world⟩

/-- `planTrajectory`. `none` stands for a loop of more than `fuel` turns. -/
def Arbitrator.planTrajectory (a : Arbitrator K P) (env : Environment K P W) (fuel : ℕ)
    (trajectoryStart trajectoryEnd : K) (world : W) : Option (Planned K P W) :=
  match retries.retry (attempt env a.trajectory trajectoryStart) Attempt.ends nextFailures
      a.numAcceptableFailures fuel 0 (a.firstPlanning trajectoryEnd world) with
  | none => none
  | some (some (.validated traj _), attempts, s) =>
    some ⟨.returned (some traj), attempts, s.plugins, s.world⟩
  | some (some _, attempts, s) => some ⟨.threw, attempts, s.plugins, s.world⟩
  | some (none, attempts, s) =>
    some ⟨.returned none, attempts, s.plugins, env.handleException s.world⟩

end planning

/-! ## The loop that snaps the end -/

section snapping

variable {K P : Type} [LinearOrder K] [Field K]

/-- Where the segments of the route end. -/
def Arbitrator.boundaries (a : Arbitrator K P) : List K := ends 0 a.currentRoute

theorem snapToSegments_eq (threshold dtdAccum trajectoryEnd : K) (segments : List K) :
    snapToSegments threshold dtdAccum trajectoryEnd segments =
      hop threshold trajectoryEnd (ends dtdAccum segments) := by
  induction segments generalizing dtdAccum trajectoryEnd with
  | nil => rfl
  | cons length segments ih =>
    unfold snapToSegments ends hop
    simp only [ih, gt_iff_lt]

/-- The length of the route is that of its segments. -/
def Loaded (a : Arbitrator K P) : Prop := a.routeLength = a.currentRoute.sum

omit [LinearOrder K] in
theorem foldl_add_eq_sum (length : K) (segments : List K) :
    segments.foldl (fun length segment => length + segment) length = length + segments.sum := by
  induction segments generalizing length with
  | nil => simp
  | cons l segments ih => rw [List.foldl_cons, ih, List.sum_cons, add_assoc]

theorem onRoute_loaded {a : Arbitrator K P} (h : a.routeRecvd = false) (msg : List K) :
    Loaded (a.onRoute msg) ∧ (a.onRoute msg).currentRoute = msg := by
  unfold Loaded Arbitrator.onRoute
  rw [h, if_neg Bool.false_ne_true, foldl_add_eq_sum, zero_add]
  exact ⟨rfl, rfl⟩

variable [IsStrictOrderedRing K]

theorem loaded_length {a : Arbitrator K P} (h : Loaded a) (hpos : ∀ l ∈ a.currentRoute, 0 < l) :
    0 < a.routeLength ↔ a.currentRoute ≠ [] := by
  rw [h]
  constructor
  · rintro hlt hnil
    rw [hnil] at hlt
    exact absurd hlt (lt_irrefl _)
  · exact fun hne => List.sum_pos _ hpos hne

theorem boundary_le_length {a : Arbitrator K P} (h : Loaded a)
    (hpos : ∀ l ∈ a.currentRoute, 0 < l) : ∀ b ∈ a.boundaries, b ≤ a.routeLength := by
  intro b hb
  have hle := ends_le_total hpos 0 b hb
  rwa [zero_add, ← h] at hle

/-! ## The law -/

/-- The endpoint is at most a snap threshold past the planning window, and within the route. -/
def Bounded (a : Arbitrator K P) (trajectoryStart : K) : Prop :=
  a.getNextTrajectoryEndpoint trajectoryStart ≤
      trajectoryStart + a.planningWindow + a.planningWindowSnapThreshold ∧
    a.getNextTrajectoryEndpoint trajectoryStart ≤ a.routeLength

/-- No segment ends less than a snap threshold after the planning window, or no two ends after
the window, one up to a snap threshold past it and one later, are as near to each other. -/
def SegmentsClear (a : Arbitrator K P) (trajectoryStart : K) : Prop :=
  let windowEnd := trajectoryStart + a.planningWindow
  (¬ ∃ b ∈ a.boundaries, windowEnd < b ∧ b < windowEnd + a.planningWindowSnapThreshold) ∨
    ¬ Bridged a.planningWindowSnapThreshold (windowEnd + a.planningWindowSnapThreshold)
      (a.boundaries.filter (fun b => decide (windowEnd < b)))

/-- On a route with segments the endpoint is bounded just when they are clear of the window, and
without one when the window does not reach past 0. -/
theorem endpoint_is_bounded_exactly {a : Arbitrator K P} (h : Loaded a)
    (hpos : ∀ l ∈ a.currentRoute, 0 < l) (hsnap : 0 < a.planningWindowSnapThreshold)
    (trajectoryStart : K) :
    Bounded a trajectoryStart ↔
      if a.currentRoute = [] then trajectoryStart + a.planningWindow ≤ 0
      else SegmentsClear a trajectoryStart := by
  unfold Bounded Arbitrator.getNextTrajectoryEndpoint
  dsimp only
  by_cases hroute : a.currentRoute = []
  · have hno : ¬ a.routeLength > 0 := fun hlt => (loaded_length h hpos).mp hlt hroute
    have hzero : a.routeLength = 0 := by rw [h, hroute, List.sum_nil]
    rw [if_neg hno, if_pos hroute, hzero]
    exact and_iff_right (le_add_of_nonneg_right hsnap.le)
  · rw [if_pos ((loaded_length h hpos).mpr hroute), if_neg hroute, and_iff_left (min_le_left _ _),
      snapToSegments_eq]
    have hmarks : a.boundaries.Pairwise (· < ·) := (ends_increasing hpos 0).of_cons
    have hbeyond := hop_beyond_iff hsnap (trajectoryStart + a.planningWindow) hmarks
    have hin : ∀ limit, hop a.planningWindowSnapThreshold (trajectoryStart + a.planningWindow)
          a.boundaries > limit → trajectoryStart + a.planningWindow ≤ limit →
        a.routeLength > limit := by
      intro limit hlt hle
      rcases hop_mem a.planningWindowSnapThreshold (trajectoryStart + a.planningWindow)
          a.boundaries with hsame | hmem
      · rw [hsame] at hlt
        exact absurd hle (not_le.mpr hlt)
      · exact hlt.trans_le (boundary_le_length h hpos _ hmem)
    unfold SegmentsClear
    dsimp only
    rw [← not_and_or, ← hbeyond, min_le_iff, not_lt]
    refine or_iff_right_of_imp (fun hlength => ?_)
    by_contra hlate
    exact absurd (hin _ (not_le.mp hlate) (le_add_of_nonneg_right hsnap.le)) (not_lt.mpr hlength)

/-- An arbitrator with a window of 10 meters and a snap threshold of 20, before its route. -/
def beforeTheRoute : Arbitrator ℚ Unit where
  plugins := []
  planningWindow := 10
  planningWindowSnapThreshold := 20
  numAcceptableFailures := 3
  trajectory := none
  routeLength := -1
  currentRoute := []
  routeRecvd := false

theorem endpoint_on_long_segments_is_bounded_exactly :
    Bounded (beforeTheRoute.onRoute [25, 30, 30]) 0 ↔
      if (beforeTheRoute.onRoute [25, 30, 30]).currentRoute = [] then
        0 + (beforeTheRoute.onRoute [25, 30, 30]).planningWindow ≤ 0
      else SegmentsClear (beforeTheRoute.onRoute [25, 30, 30]) 0 :=
  endpoint_is_bounded_exactly (onRoute_loaded rfl _).1 (by decide +kernel) (by decide +kernel) 0

/-- On a route of five segments of 15 meters the endpoint is the end of the route. -/
theorem endpoint_runs_on_along_short_segments :
    ¬ ∀ (a : Arbitrator ℚ Unit) (trajectoryStart : ℚ), Loaded a → (∀ l ∈ a.currentRoute, 0 < l) →
      0 < a.planningWindow → 0 < a.planningWindowSnapThreshold → Bounded a trajectoryStart := by
  intro hall
  have hbounded := hall (beforeTheRoute.onRoute [15, 15, 15, 15, 15]) 0 (onRoute_loaded rfl _).1
    (by decide +kernel) (by decide +kernel) (by decide +kernel)
  exact absurd hbounded.1 (by decide +kernel)

end snapping

end carma.arbitrator
