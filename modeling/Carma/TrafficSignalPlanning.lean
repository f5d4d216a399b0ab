-- How the traffic signal plugin turns the nodes of a plan into maneuvers. The answers of the
-- trajectory are not looked at, so a hop that runs past its end leaves nothing behind.
import Carma.Arbitrator
import Carma.AStarSolver
import Carma.Lib.Legs
import Carma.ManeuverPlanner
import Carma.TrajectorySpecs

open lib.legs
open carma.arbitrator
open carma.interval_tree
open carma.maneuver_planner
open carma.maneuvers
open carma.trajectory
open carma.trajectory_tree (Node)

namespace carma.traffic_signal_plugin

variable {K : Type} [Field K] [LinearOrder K]

/-! ## The code -/

def speedCommandQuantizationFactor : K := 1 / ((10 : ℕ) : K)

def MAX_DTSB : K := ((2147483642 : ℕ) : K)

/-- What the plugin has from its services. -/
structure PluginInputs (K : Type) where
  maneuverInputs : Inputs K
  maxAccelLimit : K

def newSteadySpeed (inputs : PluginInputs K) (speed : K) : PlannedManeuver K :=
  ((newManeuver .steadySpeed).setMaxAccel (inputs.maxAccelLimit * ((2 : ℕ) : K))).setSpeeds
    speed speed

/-- The maneuver of one hop, and whether the loop ends with it. None where the planner throws. -/
def hopManeuver (inputs : PluginInputs K) (startDist endLocation : K) (prev cur : Node) :
    Option (PlannedManeuver K × Bool) :=
  let plan := planManeuverTo inputs.maneuverInputs
  let prevDist : K := startDist + prev.distance
  let curDist : K := startDist + cur.distance
  if |(prev.speed : K) - cur.speed| < speedCommandQuantizationFactor then
    if (cur.speed : K) > speedCommandQuantizationFactor then
      (plan (newSteadySpeed inputs cur.speed) prevDist curDist).map (·, false)
    else
      -- a stop of indefinite length
      (plan (newSteadySpeed inputs 0) prevDist endLocation).map (·, true)
  else if (prev.speed : K) < cur.speed then
    (plan ((newManeuver .speedUp).setSpeeds prev.speed cur.speed) prevDist curDist).map (·, false)
  else
    (plan ((newManeuver .slowDown).setSpeeds prev.speed cur.speed) prevDist curDist).map (·, false)

/-- The loop, from a node that is done with. What it returns is the answers of `addManeuver`, which
the source drops, and the trajectory. None where a call throws. -/
def convertNodes (inputs : PluginInputs K) (startDist : K) :
    Trajectory K → Node → List Node → Option (List Bool × Trajectory K)
  | traj, _, [] => some ([], traj)
  | traj, prev, cur :: rest =>
    (hopManeuver inputs startDist traj.endLocation prev cur).bind fun (maneuver, stops) =>
      let (answer, traj) := traj.addManeuver (.longitudinal maneuver.toManeuver)
      answer.bind fun ok =>
        if stops then some ([ok], traj)
        else (convertNodes inputs startDist traj cur rest).map fun (oks, traj) => (ok :: oks, traj)

/-- The conversion of a plan. -/
def convertPlan (inputs : PluginInputs K) (traj : Trajectory K) :
    List Node → Option (List Bool × Trajectory K)
  | [] => some ([], traj)
  | first :: rest => convertNodes inputs traj.startLocation traj first rest

/-- What the plugin knows when it is asked: the state of the light, the distance to the stop bar,
and what each attempt of the planner gives. -/
structure SignalState (K : Type) where
  stoppedForLight : Bool
  phaseIsGreen : Bool
  awaitingUserConfirmation : Bool
  dtsb : K
  plan : ℕ → Option (List Node)

def newResponse : TrajectoryPlanningResponse K := ⟨0, 0, []⟩

/-- `planTrajectory`. None where it throws. -/
def planTrajectory (inputs : PluginInputs K) (state : SignalState K) (traj : Trajectory K) :
    Option (TrajectoryPlanningResponse K × Trajectory K) :=
  let higher : TrajectoryPlanningResponse K := ⟨0, 0, [.REQUEST_HIGHER_PRIORITY]⟩
  let reach := traj.startLocation + state.dtsb * (((11 : ℕ) : K) / ((10 : ℕ) : K))
  if state.stoppedForLight ∧ ¬ state.phaseIsGreen ∧ state.awaitingUserConfirmation then
    if traj.longitudinalManeuvers.intervals ≠ [] then some (higher, traj)
    else
      (planManeuverTo inputs.maneuverInputs (newSteadySpeed inputs 0) traj.startLocation
        traj.endLocation).bind fun steadySpeed =>
          let (answer, traj) := traj.addManeuver (.longitudinal steadySpeed.toManeuver)
          answer.map fun _ => (newResponse, traj)
  else if ¬ state.dtsb < MAX_DTSB then some (newResponse, traj)
  else if reach > traj.endLocation then
    some (⟨reach, 0, [.REQUEST_LONGER_TRAJECTORY]⟩, traj)
  else if traj.longitudinalManeuvers.intervals ≠ [] then some (higher, traj)
  else
    match [0, 1, 2].findSome? state.plan with
    | none => some (newResponse, traj)
    | some eadResult => (convertPlan inputs traj eadResult).map fun (_, traj) => (newResponse, traj)

/-! ## Hops -/

def ComesToStop (prev cur : Node) : Prop := prev.speed = cur.speed ∧ cur.speed ≤ 0

instance (prev cur : Node) : Decidable (ComesToStop prev cur) := instDecidableAnd

/-- The nodes that hops lead to before the plan stops, after a first node. -/
def nodesBeforeStop : Node → List Node → List Node
  | _, [] => []
  | prev, cur :: rest => if ComesToStop prev cur then [] else cur :: nodesBeforeStop cur rest

def PlanStops : Node → List Node → Prop
  | _, [] => False
  | prev, cur :: rest => ComesToStop prev cur ∨ PlanStops cur rest

instance : (prev : Node) → (rest : List Node) → Decidable (PlanStops prev rest)
  | _, [] => inferInstanceAs (Decidable False)
  | _, cur :: rest =>
    have := instDecidablePlanStops cur rest
    inferInstanceAs (Decidable (_ ∨ _))

section hops

variable [IsStrictOrderedRing K]

theorem same_speed_iff (a b : ℤ) :
    |(a : K) - b| < speedCommandQuantizationFactor ↔ a = b := by
  unfold speedCommandQuantizationFactor
  constructor
  · intro h
    by_contra hne
    have hone : (1 : K) ≤ |(a : K) - b| := by
      exact_mod_cast Int.one_le_abs (sub_ne_zero.mpr hne)
    have htenth : (1 : K) / ((10 : ℕ) : K) < 1 := by norm_num
    linarith
  · rintro rfl
    simp

theorem moving_iff (a : ℤ) : (a : K) > speedCommandQuantizationFactor ↔ 0 < a := by
  unfold speedCommandQuantizationFactor
  constructor
  · intro h
    have hpos : (0 : K) < a := lt_trans (by positivity) h
    exact_mod_cast hpos
  · intro h
    have hone : (1 : K) ≤ a := by exact_mod_cast h
    have htenth : (1 : K) / ((10 : ℕ) : K) < 1 := by norm_num
    linarith

/-- Where the maneuver of a hop lies. -/
theorem hopManeuver_ends {inputs : PluginInputs K} {startDist endLocation : K} {prev cur : Node}
    {m : PlannedManeuver K} {stops : Bool}
    (h : hopManeuver inputs startDist endLocation prev cur = some (m, stops)) :
    (stops = true ↔ ComesToStop prev cur) ∧ m.motion.startDist = startDist + prev.distance ∧
      m.motion.endDist = if stops then endLocation else startDist + cur.distance := by
  unfold hopManeuver at h
  unfold ComesToStop
  dsimp only at h
  split at h
  · rename_i hsame
    rw [same_speed_iff] at hsame
    split at h
    · rename_i hmoving
      rw [moving_iff] at hmoving
      obtain ⟨p, hp, heq⟩ := Option.map_eq_some_iff.mp h
      obtain ⟨hstart, hend, -⟩ := planManeuverTo_some hp
      cases heq
      exact ⟨by simp [hmoving], hstart, by simp [hend]⟩
    · rename_i hmoving
      rw [moving_iff, not_lt] at hmoving
      obtain ⟨p, hp, heq⟩ := Option.map_eq_some_iff.mp h
      obtain ⟨hstart, hend, -⟩ := planManeuverTo_some hp
      cases heq
      exact ⟨by simp [hsame, hmoving], hstart, by simp [hend]⟩
  · rename_i hother
    rw [same_speed_iff] at hother
    split at h
    all_goals
      obtain ⟨p, hp, heq⟩ := Option.map_eq_some_iff.mp h
      obtain ⟨hstart, hend, -⟩ := planManeuverTo_some hp
      cases heq
      exact ⟨by simp [hother], hstart, by simp [hend]⟩

end hops

/-! ## The loop -/

/-- The trajectory has just these longitudinal maneuvers, which lie end to end. -/
structure Holds (t : Trajectory K) (ms : List (LongitudinalManeuver K)) (stop : K) : Prop where
  oneEach : OneEach t.longitudinalManeuvers.root
  labeled : ∀ x ∈ t.longitudinalManeuvers.intervals, ∃ m ∈ ms, x.data = some m ∧
    x.start = m.startDist ∧ x.end_ = m.endDist
  stored : t.getLongitudinalManeuvers.Perm ms
  forward : ∀ m ∈ ms, m.startDist ≤ m.endDist
  linked : Linked (·.startDist) (·.endDist) t.startLocation ms stop

omit [Field K] in
theorem holds_nothing {t : Trajectory K} (h : t.longitudinalManeuvers.intervals = []) :
    Holds t [] t.startLocation where
  oneEach := by
    cases hroot : t.longitudinalManeuvers.root with
    | null => trivial
    | node center left right first rest =>
      unfold IntervalTree.intervals at h
      simp [hroot, IntervalTreeNode.inorder] at h
  labeled := by simp [h]
  stored := by
    unfold Trajectory.getLongitudinalManeuvers IntervalTree.toSortedList
    simp [h]
  forward := by simp
  linked := rfl

section loop

variable [IsStrictOrderedRing K]

/-- A maneuver that goes on where the others end is taken, where the call does not throw. -/
theorem Holds.add {t : Trajectory K} {ms : List (LongitudinalManeuver K)} {reached : K}
    (h : Holds t ms reached) {m : LongitudinalManeuver K} (hstart : m.startDist = reached)
    (hend : m.endDist ≤ t.endLocation) {ok : Bool}
    (hok : (t.addManeuver (.longitudinal m)).1 = some ok) :
    ok = true ∧ Holds (t.addManeuver (.longitudinal m)).2 (ms ++ [m]) m.endDist ∧
      (t.addManeuver (.longitudinal m)).2.startLocation = t.startLocation ∧
      (t.addManeuver (.longitudinal m)).2.endLocation = t.endLocation := by
  have hreached : t.startLocation ≤ m.startDist := by
    rw [hstart]
    exact h.linked.le h.forward
  have hadd : t.addManeuver (.longitudinal m) = _ := put_longitudinal ⟨hreached, hend⟩
  rw [hadd] at hok ⊢
  have hle : m.startDist ≤ m.endDist := by
    by_contra hinverted
    unfold insertManeuver newInterval at hok
    rw [dif_neg hinverted] at hok
    cases hok
  rw [insertManeuver_eq _ m hle] at hok ⊢
  obtain ⟨x, hx⟩ : ∃ x : Interval K (LongitudinalManeuver K),
      x = ⟨some m, m.startDist, m.endDist, hle⟩ := ⟨_, rfl⟩
  rw [← hx] at hok ⊢
  have hxstart : x.start = m.startDist := by rw [hx]
  have htaken : (t.longitudinalManeuvers.root.insert x).1 = true := by
    apply insert_of_fits x h.oneEach
    intro y hy hoverlap
    obtain ⟨n, hn, -, -, hyend⟩ := h.labeled y hy
    have hbefore := (h.linked.between h.forward n hn).2
    rw [overlap_iff, max_lt_iff, lt_min_iff, hxstart, hyend, hstart] at hoverlap
    exact absurd hoverlap.1.2 (not_lt.mpr hbefore)
  have hperm := insert_taken _ x htaken
  refine ⟨?_, ⟨insert_oneEach _ x h.oneEach, ?_, ?_, ?_, ?_⟩, rfl, rfl⟩
  · simpa [htaken] using hok.symm
  · intro y hy
    rcases List.mem_cons.mp (hperm.mem_iff.mp hy) with rfl | hy
    · exact ⟨m, by simp, by rw [hx], hxstart, by rw [hx]⟩
    · obtain ⟨n, hn, hdata⟩ := h.labeled y hy
      exact ⟨n, List.mem_append_left _ hn, hdata⟩
  · apply (hperm.filterMap _).trans
    rw [List.filterMap_cons_some (by rw [hx])]
    exact (h.stored.cons m).trans (List.perm_append_singleton m ms).symm
  · intro n hn
    rcases List.mem_append.mp hn with hn | hn
    · exact h.forward n hn
    · rw [List.mem_singleton.mp hn]
      exact hle
  · exact linked_append h.linked ⟨hstart, rfl⟩

omit [IsStrictOrderedRing K] in
theorem ends_within_of_taken {t : Trajectory K} {m : LongitudinalManeuver K}
    (h : (t.addManeuver (.longitudinal m)).1 = some true) : m.endDist ≤ t.endLocation := by
  by_contra hout
  have hput : t.addManeuver (.longitudinal m) = (some false, t) := put_outside fun hin => hout hin.2
  rw [hput] at h
  cases h

omit [IsStrictOrderedRing K] in
theorem addManeuver_endLocation (t : Trajectory K) (m : ISimpleManeuver K) :
    (t.addManeuver m).2.endLocation = t.endLocation := by
  unfold Trajectory.addManeuver
  split
  · cases m <;> rfl
  · rfl

omit [IsStrictOrderedRing K] in
/-- One turn of the loop. -/
theorem convertNodes_cons {inputs : PluginInputs K} {startDist : K} {t t' : Trajectory K}
    {prev cur : Node} {rest : List Node} {answers : List Bool}
    (h : convertNodes inputs startDist t prev (cur :: rest) = some (answers, t')) :
    ∃ m stops ok, hopManeuver inputs startDist t.endLocation prev cur = some (m, stops) ∧
      (t.addManeuver (.longitudinal m.toManeuver)).1 = some ok ∧
      (stops = true ∧ answers = [ok] ∧ t' = (t.addManeuver (.longitudinal m.toManeuver)).2 ∨
        stops = false ∧ ∃ oks, answers = ok :: oks ∧
          convertNodes inputs startDist (t.addManeuver (.longitudinal m.toManeuver)).2 cur rest =
            some (oks, t')) := by
  unfold convertNodes at h
  obtain ⟨⟨m, stops⟩, hhop, h⟩ := Option.bind_eq_some_iff.mp h
  obtain ⟨ok, hok, h⟩ := Option.bind_eq_some_iff.mp h
  refine ⟨m, stops, ok, hhop, hok, ?_⟩
  split at h
  · rename_i hstops
    cases h
    exact Or.inl ⟨hstops, rfl, rfl⟩
  · rename_i hstops
    obtain ⟨⟨oks, t''⟩, hrest, heq⟩ := Option.map_eq_some_iff.mp h
    cases heq
    exact Or.inr ⟨by simpa using hstops, oks, rfl, hrest⟩

/-- Where all is taken, no node before the stop lies past the end of the trajectory. -/
theorem nodes_within_of_taken {inputs : PluginInputs K} {startDist : K} {t t' : Trajectory K}
    {prev : Node} {rest : List Node} {answers : List Bool}
    (h : convertNodes inputs startDist t prev rest = some (answers, t'))
    (htaken : ∀ ok ∈ answers, ok = true) :
    ∀ n ∈ nodesBeforeStop prev rest, startDist + n.distance ≤ t.endLocation := by
  induction rest generalizing t prev answers with
  | nil => simp [nodesBeforeStop]
  | cons cur rest ih =>
    obtain ⟨m, stops, ok, hhop, hok, hturn⟩ := convertNodes_cons h
    obtain ⟨hstops, -, hend⟩ := hopManeuver_ends hhop
    rcases hturn with ⟨rfl, -, -⟩ | ⟨rfl, oks, rfl, hrest⟩
    · unfold nodesBeforeStop
      simp [hstops.mp rfl]
    · obtain ⟨rfl, hoks⟩ := List.forall_mem_cons.mp htaken
      have hmoves : ¬ ComesToStop prev cur := by simpa using hstops
      have hcur : startDist + cur.distance ≤ t.endLocation := by
        have hle : m.motion.endDist ≤ t.endLocation := ends_within_of_taken hok
        simpa [hend] using hle
      have hothers := ih hrest hoks
      rw [addManeuver_endLocation] at hothers
      unfold nodesBeforeStop
      rw [if_neg hmoves, List.forall_mem_cons]
      exact ⟨hcur, hothers⟩

/-- Where the plan ends: with the trajectory when it stops, else at its last node. -/
def reachOf (startDist endLocation : K) (prev : Node) (rest : List Node) : K :=
  if PlanStops prev rest then endLocation else startDist + (rest.getLast?.getD prev).distance

/-- Where no node before the stop lies past the end, all is taken, end to end. -/
theorem taken_of_nodes_within {inputs : PluginInputs K} {startDist : K} {t t' : Trajectory K}
    {prev : Node} {rest : List Node} {answers : List Bool} {ms : List (LongitudinalManeuver K)}
    (h : convertNodes inputs startDist t prev rest = some (answers, t'))
    (hholds : Holds t ms (startDist + prev.distance))
    (hwithin : ∀ n ∈ nodesBeforeStop prev rest, startDist + n.distance ≤ t.endLocation) :
    (∀ ok ∈ answers, ok = true) ∧ t'.startLocation = t.startLocation ∧
      ∃ ms', Holds t' ms' (reachOf startDist t.endLocation prev rest) := by
  induction rest generalizing t prev answers ms with
  | nil =>
    unfold convertNodes at h
    cases h
    refine ⟨by simp, rfl, ms, ?_⟩
    simpa [reachOf, PlanStops] using hholds
  | cons cur rest ih =>
    obtain ⟨m, stops, ok, hhop, hok, hturn⟩ := convertNodes_cons h
    obtain ⟨hstops, hstart, hend⟩ := hopManeuver_ends hhop
    unfold nodesBeforeStop at hwithin
    rcases hturn with ⟨rfl, rfl, rfl⟩ | ⟨rfl, oks, rfl, hrest⟩
    · rw [if_pos rfl] at hend
      obtain ⟨rfl, hadded, hsame, -⟩ := hholds.add (m := m.toManeuver) hstart hend.le hok
      have hreach : reachOf startDist t.endLocation prev (cur :: rest) = m.toManeuver.endDist := by
        have hplan : PlanStops prev (cur :: rest) := Or.inl (hstops.mp rfl)
        unfold reachOf
        rw [if_pos hplan]
        exact hend.symm
      exact ⟨by simp, hsame, ms ++ [m.toManeuver], hreach ▸ hadded⟩
    · have hmoves : ¬ ComesToStop prev cur := by simpa using hstops
      rw [if_neg hmoves, List.forall_mem_cons] at hwithin
      rw [if_neg Bool.false_ne_true] at hend
      obtain ⟨rfl, hadded, hsame, hsameEnd⟩ :=
        hholds.add (m := m.toManeuver) hstart (hend.trans_le hwithin.1) hok
      have hreached : m.toManeuver.endDist = startDist + cur.distance := hend
      rw [hreached] at hadded
      obtain ⟨hoks, hstarts, ms', hms'⟩ := ih hrest hadded (by rw [hsameEnd]; exact hwithin.2)
      refine ⟨List.forall_mem_cons.mpr ⟨rfl, hoks⟩, hstarts.trans hsame, ms', ?_⟩
      rw [hsameEnd] at hms'
      have hreach : reachOf startDist t.endLocation prev (cur :: rest) =
          reachOf startDist t.endLocation cur rest := by
        unfold reachOf
        rw [List.getLast?_cons, Option.getD_some]
        simp [PlanStops, hmoves]
      rw [hreach]
      exact hms'

end loop

/-! ## What is covered -/

/-- The longitudinal maneuvers cover the way from the start up to here, without gap or overlap. -/
structure CoveredUpTo (t : Trajectory K) (stop : K) : Prop where
  covers : ∀ p, (∃ m ∈ t.getLongitudinalManeuvers, m.startDist ≤ p ∧ p < m.endDist) ↔
    t.startLocation ≤ p ∧ p < stop
  apart : t.getLongitudinalManeuvers.Pairwise fun m m' =>
    ¬ Clash m.startDist m.endDist m'.startDist m'.endDist

omit [Field K] in
theorem Holds.covered {t : Trajectory K} {ms : List (LongitudinalManeuver K)} {stop : K}
    (h : Holds t ms stop) : CoveredUpTo t stop where
  covers := by
    intro p
    simp only [h.stored.mem_iff]
    constructor
    · rintro ⟨m, hm, hlow, hhigh⟩
      obtain ⟨hfrom, hto⟩ := h.linked.between h.forward m hm
      exact ⟨hfrom.trans hlow, hhigh.trans_le hto⟩
    · rintro ⟨hlow, hhigh⟩
      exact h.linked.covers hlow hhigh
  apart := by
    have hsymm : ∀ m m' : LongitudinalManeuver K,
        ¬ Clash m.startDist m.endDist m'.startDist m'.endDist →
          ¬ Clash m'.startDist m'.endDist m.startDist m.endDist := by
      intro m m' hno hclash
      unfold Clash at *
      rw [max_comm, min_comm] at hclash
      exact hno hclash
    rw [h.stored.pairwise_iff fun {m m'} => hsymm m m']
    apply (h.linked.pairwise h.forward).imp
    intro m m' hbefore hclash
    unfold Clash at hclash
    rw [max_lt_iff, lt_min_iff] at hclash
    exact absurd hclash.2 (by simp [hbefore])

omit [Field K] in
theorem CoveredUpTo.congr {t : Trajectory K} {stop stop' : K} (h : CoveredUpTo t stop)
    (hsame : ∀ p, t.startLocation ≤ p → (p < stop ↔ p < stop')) : CoveredUpTo t stop' where
  covers := by
    intro p
    rw [h.covers p]
    exact and_congr_right (hsame p)
  apart := h.apart

/-- Where the plan promises to end: with the trajectory when it stops, else at its last node or
with the trajectory. -/
def promisedEnd (t : Trajectory K) (first : Node) (rest : List Node) : K :=
  if PlanStops first rest then t.endLocation
  else min (t.startLocation + (rest.getLast?.getD first).distance) t.endLocation

theorem nodesBeforeStop_eq {prev : Node} {rest : List Node} (h : ¬ PlanStops prev rest) :
    nodesBeforeStop prev rest = rest := by
  induction rest generalizing prev with
  | nil => rfl
  | cons cur rest ih =>
    obtain ⟨hmoves, hrest⟩ := not_or.mp h
    unfold nodesBeforeStop
    rw [if_neg hmoves, ih hrest]

/-- Up to the promised end is as far as the plan reaches, when its nodes are within. -/
theorem lt_reachOf_iff {t : Trajectory K} {first : Node} {rest : List Node}
    (hfirst : first.distance = 0)
    (hwithin : ∀ n ∈ nodesBeforeStop first rest, t.startLocation + n.distance ≤ t.endLocation)
    {p : K} (hp : t.startLocation ≤ p) :
    p < reachOf t.startLocation t.endLocation first rest ↔ p < promisedEnd t first rest := by
  unfold reachOf promisedEnd
  by_cases hstops : PlanStops first rest
  · rw [if_pos hstops, if_pos hstops]
  · rw [if_neg hstops, if_neg hstops, lt_min_iff]
    refine (and_iff_left_of_imp ?_).symm
    intro hlt
    cases hlast : rest.getLast? with
    | none =>
      rw [hlast, Option.getD_none, hfirst, Int.cast_zero, add_zero] at hlt
      exact absurd hlt (not_lt.mpr hp)
    | some last =>
      rw [hlast, Option.getD_some] at hlt
      rw [nodesBeforeStop_eq hstops] at hwithin
      exact hlt.trans_le (hwithin last (List.mem_of_getLast? hlast))

/-- Once the plugin is free to plan, it converts the plan of its first attempt that has one. -/
theorem planTrajectory_granted {inputs : PluginInputs K} {state : SignalState K}
    {t : Trajectory K} {eadResult : List Node}
    (hlight : ¬ (state.stoppedForLight ∧ ¬ state.phaseIsGreen ∧ state.awaitingUserConfirmation))
    (hdtsb : state.dtsb < MAX_DTSB)
    (hreach : t.startLocation + state.dtsb * (((11 : ℕ) : K) / ((10 : ℕ) : K)) ≤ t.endLocation)
    (hempty : t.longitudinalManeuvers.intervals = [])
    (hplan : [0, 1, 2].findSome? state.plan = some eadResult) :
    planTrajectory inputs state t =
      (convertPlan inputs t eadResult).map fun r => (newResponse, r.2) := by
  unfold planTrajectory
  simp only [if_neg hlight, hdtsb, not_true, if_false, not_lt.mpr hreach, hempty, ne_eq,
    hplan]

/-- The maneuvers of a plan are all taken, and cover it, just when no node before its stop lies
past the end of the trajectory. -/
theorem conversion_covers_the_plan_iff [IsStrictOrderedRing K] {inputs : PluginInputs K}
    {t t' : Trajectory K} {first : Node} {rest : List Node} {answers : List Bool}
    (hempty : t.longitudinalManeuvers.intervals = []) (hfirst : first.distance = 0)
    (h : convertPlan inputs t (first :: rest) = some (answers, t')) :
    (∀ ok ∈ answers, ok = true) ∧ CoveredUpTo t' (promisedEnd t first rest) ↔
      ∀ n ∈ nodesBeforeStop first rest, t.startLocation + n.distance ≤ t.endLocation := by
  constructor
  · rintro ⟨htaken, -⟩
    exact nodes_within_of_taken h htaken
  · intro hwithin
    have hholds : Holds t [] (t.startLocation + first.distance) := by
      simpa [hfirst] using holds_nothing hempty
    obtain ⟨htaken, hstart, ms, hms⟩ := taken_of_nodes_within h hholds hwithin
    refine ⟨htaken, hms.covered.congr ?_⟩
    intro p hp
    exact lt_reachOf_iff hfirst hwithin (hstart ▸ hp)

/-- Ten meters at 10 m/s, and then up to 12 m/s and back to 10 before 80 meters. -/
def upAndDown : List Node := [⟨10, 1, 10⟩, ⟨45, 4, 12⟩, ⟨80, 7, 10⟩]

theorem a_plan_of_three_hops_is_covered :
    ∃ answers t', convertPlan (K := ℚ) ⟨⟨0, id⟩, 2⟩ (newTrajectory 0 100)
        (⟨0, 0, 10⟩ :: upAndDown) = some (answers, t') ∧ (∀ ok ∈ answers, ok = true) ∧
      CoveredUpTo t' 80 := by
  obtain ⟨⟨answers, t'⟩, h⟩ : ∃ r, convertPlan (K := ℚ) ⟨⟨0, id⟩, 2⟩ (newTrajectory 0 100)
      (⟨0, 0, 10⟩ :: upAndDown) = some r := Option.isSome_iff_exists.mp (by decide +kernel)
  have hend : promisedEnd (K := ℚ) (newTrajectory 0 100) ⟨0, 0, 10⟩ upAndDown = 80 := by
    decide +kernel
  obtain ⟨htaken, hcovered⟩ := (conversion_covers_the_plan_iff rfl rfl h).mpr (by decide +kernel)
  rw [hend] at hcovered
  exact ⟨answers, t', h, htaken, hcovered⟩

/-- The hop from 80 m to 120 m is not taken by a trajectory of 100 m, and its last 20 m are left
without a maneuver. -/
theorem a_hop_past_the_end_is_dropped :
    ∃ t', convertPlan (K := ℚ) ⟨⟨0, id⟩, 2⟩ (newTrajectory 0 100)
        [⟨0, 0, 10⟩, ⟨80, 8, 10⟩, ⟨120, 12, 10⟩] = some ([true, false], t') ∧
      promisedEnd (K := ℚ) (newTrajectory 0 100) ⟨0, 0, 10⟩ [⟨80, 8, 10⟩, ⟨120, 12, 10⟩] = 100 ∧
      ¬ CoveredUpTo t' 100 := by
  have hspans : (convertPlan (K := ℚ) ⟨⟨0, id⟩, 2⟩ (newTrajectory 0 100)
      [⟨0, 0, 10⟩, ⟨80, 8, 10⟩, ⟨120, 12, 10⟩]).map (fun r => (r.1, r.2.startLocation,
        r.2.getLongitudinalManeuvers.map (·.endDist))) = some ([true, false], 0, [80]) := by
    decide +kernel
  obtain ⟨⟨answers, t'⟩, hconvert, heq⟩ := Option.map_eq_some_iff.mp hspans
  simp only [Prod.mk.injEq] at heq
  obtain ⟨rfl, hstart, hends⟩ := heq
  refine ⟨t', hconvert, by decide +kernel, ?_⟩
  intro h
  obtain ⟨m, hm, -, hend⟩ := (h.covers 90).mpr ⟨by rw [hstart]; norm_num, by norm_num⟩
  have hmem : m.endDist ∈ t'.getLongitudinalManeuvers.map (·.endDist) := List.mem_map_of_mem hm
  rw [hends, List.mem_singleton] at hmem
  rw [hmem] at hend
  norm_num at hend

end carma.traffic_signal_plugin
