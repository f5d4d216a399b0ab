-- The law of negotiated lane changes: a negotiation ends with both reserved maneuvers
-- filled once, as long as it does not run out of its own waiting time first.
import Carma.LaneChangePlugin
import Carma.Lib.Runs
import Mathlib.Algebra.Order.Field.Basic

open lib.runs
open carma.mobility_router (MobilityResponse)
open carma.trajectory

namespace carma.lane_change

variable {K : Type}

/-! ## Filled reservations -/

def LateralMvr.isLaneChange : LateralMvr K → Bool
  | laneChange _ _ _ _ => true
  | laneKeeping _ _ => false

/-- A lateral maneuver from end to end: a lane change if nobody refused, and a stay in
the lane otherwise. -/
def FilledLat (f : FutureManeuver K (LateralMvr K)) (nacked : Bool) : Prop :=
  ∃ m, f.mvrs = [m] ∧ m.startDist = f.startDist ∧ m.endDist = f.endDist ∧
    m.isLaneChange = !nacked

/-- A steady speed from end to end. -/
def FilledLon (f : FutureManeuver K (SteadySpeed K)) : Prop :=
  ∃ ss, f.mvrs = [ss] ∧ ss.startDist = f.startDist ∧ ss.endDist = f.endDist

/-- Both maneuvers of a reservation are filled once. -/
structure Filled (r : Reservation K) (nacked : Bool) : Prop where
  lat : FilledLat r.lat nacked
  lon : FilledLon r.lon

/-- Nothing was added to a future maneuver yet. -/
structure Unused {M : Type} (f : FutureManeuver K M) : Prop where
  mvrs : f.mvrs = []
  maneuversEnd : f.maneuversEnd = f.startDist

/-- A reservation that is still empty, and has room. -/
structure Fresh [LT K] (r : Reservation K) : Prop where
  lat : Unused r.lat
  lon : Unused r.lon
  room : r.lat.startDist < r.lat.endDist

variable [LinearOrder K] [Field K] [IsStrictOrderedRing K]

theorem addManeuver_unused {M : Type} {f : FutureManeuver K M}
    (h : Unused f) (mvr : M) :
    f.addManeuver mvr f.startDist f.endDist =
      some { f with mvrs := [mvr], maneuversEnd := f.endDist } := by
  have hnear : ¬ |f.startDist - f.maneuversEnd| > (CONCATENATION_TOLERANCE : K) := by
    rw [h.maneuversEnd, sub_self, abs_zero]
    apply not_lt.mpr
    unfold CONCATENATION_TOLERANCE
    positivity
  unfold FutureManeuver.addManeuver
  rw [if_neg (lt_irrefl _), if_neg hnear, h.mvrs]
  rfl

/-- The lateral maneuver is filled, and the other one stays as it is. -/
theorem fillLat_unused {r : Reservation K} (h : Unused r.lat)
    (hroom : r.lat.startDist < r.lat.endDist) {mvr : K → K → LateralMvr K} {nacked : Bool}
    (hmvr : ∀ a b, (mvr a b).startDist = a ∧ (mvr a b).endDist = b ∧
      (mvr a b).isLaneChange = !nacked) :
    ∃ r', r.fillLat mvr = some r' ∧ FilledLat r'.lat nacked ∧ r'.lon = r.lon := by
  obtain ⟨hstart, hend, hkind⟩ := hmvr r.lat.startDist r.lat.endDist
  refine ⟨{ r with lat := { r.lat with
    mvrs := [mvr r.lat.startDist r.lat.endDist], maneuversEnd := r.lat.endDist } }, ?_,
    ⟨_, rfl, hstart, hend, hkind⟩, rfl⟩
  unfold Reservation.fillLat planLateral
  rw [if_neg (not_le.mpr hroom)]
  simp only [Option.bind_eq_bind, Option.bind_some, hstart, hend, addManeuver_unused h]
  rfl

/-- The longitudinal maneuver is filled, and the other one stays as it is. -/
theorem fillLon_unused {r : Reservation K} (h : Unused r.lon) (maxAccel startSpeed : K) :
    ∃ r', r.fillLon maxAccel startSpeed = some r' ∧ FilledLon r'.lon ∧ r'.lat = r.lat := by
  have hsteady : ¬ |startSpeed - startSpeed| > (SPEED_EPSILON : K) := by
    rw [sub_self, abs_zero]
    apply not_lt.mpr
    unfold SPEED_EPSILON
    positivity
  refine ⟨{ r with lon := { r.lon with
    mvrs := [⟨startSpeed, startSpeed, maxAccelOf maxAccel / (2 : ℕ), r.lon.startDist, r.lon.endDist⟩]
    maneuversEnd := r.lon.endDist } }, ?_, ⟨_, rfl, rfl, rfl⟩, rfl⟩
  unfold Reservation.fillLon planSteadySpeed
  rw [if_neg hsteady]
  simp only [Option.bind_eq_bind, Option.bind_some, addManeuver_unused h]
  rfl

theorem populate_with_lane_change {r : Reservation K} (h : Fresh r) (maxAccel : K)
    (params : LaneChangeParameters K) :
    ∃ r', populateFutureManeuverWithLaneChange maxAccel params r = (r', true) ∧ Filled r' false := by
  obtain ⟨r₁, hlat, hfilled, hlon⟩ := fillLat_unused h.lat h.room
    fun a b => (⟨rfl, rfl, rfl⟩ : LateralMvr.startDist
      (.laneChange r.endingRelativeLane params.targetLane a b) = a ∧ _ ∧ _ = !false)
  obtain ⟨r₂, hlon', hfilled', hlat'⟩ := fillLon_unused (hlon ▸ h.lon) maxAccel params.startSpeed
  refine ⟨r₂, ?_, hlat' ▸ hfilled, hfilled'⟩
  unfold populateFutureManeuverWithLaneChange Worked.andThen
  simp only [if_true, hlat, hlon']

theorem populate_with_steady_speed {r : Reservation K} (h : Fresh r) (maxAccel : K)
    (params : LaneChangeParameters K) :
    ∃ r', populateFutureManeuverWithSteadySpeed maxAccel params r = (r', true) ∧ Filled r' true := by
  obtain ⟨r₁, hlon, hfilled, hlat⟩ := fillLon_unused h.lon maxAccel params.startSpeed
  obtain ⟨r₂, hlat', hfilled', hlon'⟩ := fillLat_unused (hlat ▸ h.lat) (hlat ▸ h.room)
    fun a b => (⟨rfl, rfl, rfl⟩ : LateralMvr.startDist (.laneKeeping a b) = a ∧ _ ∧ _ = !true)
  refine ⟨r₂, ?_, hfilled', hlon' ▸ hfilled⟩
  unfold populateFutureManeuverWithSteadySpeed Worked.andThen
  simp only [if_true, hlon, hlat']

/-! ## Negotiations -/

namespace LaneChangePlugin

omit [LinearOrder K] [Field K] [IsStrictOrderedRing K] in
theorem dropLast_keeps {reservations : List (Reservation K)} {i : ℕ} {r : Reservation K}
    (h : reservations[i]? = some r) (hlast : i + 1 < reservations.length) (new : Reservation K) :
    (reservations.dropLast ++ [new])[i]? = some r := by
  have hlt : i < reservations.dropLast.length := by
    rw [List.length_dropLast]
    omega
  rw [List.getElem?_append_left hlt, List.getElem?_dropLast, if_pos (by omega), h]

/-- What holds of the reservation that is negotiated, by the phase. Before the request is
out there is no plan, and after it the reservation is empty just as long as there is one. -/
def CurrentFine (s : LaneChangePlugin K) : Prop :=
  match s.phase with
  | .idle => s.plan = none
  | .reserved | .built _ =>
    s.plan = none ∧ s.nacked = false ∧ ∃ r, s.reservations.getLast? = some r ∧ Fresh r
  | .published | .inBody _ | .beforeCondition _ => ∃ r, s.reservations.getLast? = some r ∧
    (s.plan.isSome = true ∧ s.nacked = false ∧ Fresh r ∨ s.plan = none ∧ Filled r s.nacked)

/-- The request is out, and the negotiation is not over. -/
def isOpen : Phase → Prop
  | .published | .inBody _ | .beforeCondition _ => True
  | _ => False

omit [Field K] [IsStrictOrderedRing K] in
theorem currentFine_iff {s : LaneChangePlugin K} (h : isOpen s.phase) :
    s.CurrentFine ↔ ∃ r, s.reservations.getLast? = some r ∧
      (s.plan.isSome = true ∧ s.nacked = false ∧ Fresh r ∨ s.plan = none ∧ Filled r s.nacked) := by
  unfold CurrentFine
  cases hphase : s.phase with
  | idle => rw [hphase] at h; exact h.elim
  | reserved => rw [hphase] at h; exact h.elim
  | built _ => rw [hphase] at h; exact h.elim
  | published => rfl
  | inBody _ => rfl
  | beforeCondition _ => rfl

omit [Field K] [IsStrictOrderedRing K] in
theorem CurrentFine.isOpen {s : LaneChangePlugin K} (h : s.CurrentFine)
    (hplan : s.plan.isSome = true) : isOpen s.phase := by
  unfold CurrentFine at h
  cases hphase : s.phase with
  | idle => rw [hphase] at h; rw [h] at hplan; cases hplan
  | reserved => rw [hphase] at h; rw [h.1] at hplan; cases hplan
  | built _ => rw [hphase] at h; rw [h.1] at hplan; cases hplan
  | published => trivial
  | inBody _ => trivial
  | beforeCondition _ => trivial

/-- A negotiation that ended has its reservation filled, and nobody works on it any more. -/
structure EndedFine (s : LaneChangePlugin K) (e : Ended) : Prop where
  filled : ∃ r, s.reservations[e.reservation]? = some r ∧ Filled r e.nacked
  behind : s.phase ≠ .idle → e.reservation + 1 < s.reservations.length

structure Inv (s : LaneChangePlugin K) : Prop where
  current : s.CurrentFine
  ended : ∀ e ∈ s.ended, s.EndedFine e

omit [IsStrictOrderedRing K] in
theorem newPlugin_inv : Inv (newPlugin : LaneChangePlugin K) := ⟨rfl, by simp [newPlugin]⟩

omit [LinearOrder K] [Field K] [IsStrictOrderedRing K] in
theorem EndedFine.goes_on {s t : LaneChangePlugin K} {e : Ended} (h : s.EndedFine e)
    (hreservations : t.reservations = s.reservations) (hphase : t.phase ≠ .idle → s.phase ≠ .idle) :
    t.EndedFine e := by
  obtain ⟨⟨r, hr, hfilled⟩, hbehind⟩ := h
  refine ⟨⟨r, hreservations ▸ hr, hfilled⟩, ?_⟩
  intro ht
  rw [hreservations]
  exact hbehind (hphase ht)

omit [Field K] [IsStrictOrderedRing K] in
theorem Inv.within {s t : LaneChangePlugin K} (h : Inv s) (hbusy : s.phase ≠ .idle)
    (hended : t.ended = s.ended) (hreservations : t.reservations = s.reservations)
    (hcurrent : t.CurrentFine) : Inv t where
  current := hcurrent
  ended := by
    intro e he
    rw [hended] at he
    exact (h.ended e he).goes_on hreservations fun _ => hbusy

omit [Field K] [IsStrictOrderedRing K] in
theorem Inv.finish {s : LaneChangePlugin K} (hended : ∀ e ∈ s.ended, s.EndedFine e)
    (hplan : s.plan = none) {r : Reservation K} (hlast : s.reservations.getLast? = some r)
    (hfilled : Filled r s.nacked) : Inv s.finish := by
  refine ⟨hplan, ?_⟩
  intro e he
  rcases List.mem_append.mp he with he | he
  · obtain ⟨hr, _⟩ := hended e he
    exact ⟨hr, fun hidle => absurd rfl hidle⟩
  · rw [List.mem_singleton.mp he]
    refine ⟨⟨r, ?_, hfilled⟩, fun hidle => absurd rfl hidle⟩
    rw [List.getLast?_eq_getElem?] at hlast
    exact hlast

omit [LinearOrder K] [Field K] [IsStrictOrderedRing K] in
theorem workOn_last {s : LaneChangePlugin K} {r r' : Reservation K}
    (hlast : s.reservations.getLast? = some r) {work : Reservation K → Worked K}
    (hwork : work r = (r', true)) :
    s.workOn work = ({ s with reservations := s.reservations.dropLast ++ [r'] }, true) := by
  unfold workOn
  rw [hlast]
  dsimp only
  rw [hwork]

omit [Field K] [IsStrictOrderedRing K] in
/-- The reservation that is negotiated is replaced by one that was worked on, and what
ended before stays filled. -/
theorem workOn_spec {s : LaneChangePlugin K} (h : Inv s) (hphase : s.phase ≠ .idle)
    {r r' : Reservation K} (hlast : s.reservations.getLast? = some r) {t : LaneChangePlugin K}
    (ht : t.reservations = s.reservations.dropLast ++ [r']) :
    t.reservations.getLast? = some r' ∧
      ∀ e ∈ s.ended, (∃ q, t.reservations[e.reservation]? = some q ∧ Filled q e.nacked) ∧
        e.reservation + 1 < t.reservations.length := by
  have hne : s.reservations ≠ [] := by
    intro hnil
    rw [hnil] at hlast
    cases hlast
  have hpos := List.length_pos_iff.mpr hne
  have hlength : t.reservations.length = s.reservations.length := by
    rw [ht, List.length_append, List.length_dropLast, List.length_singleton]
    omega
  refine ⟨by rw [ht, List.getLast?_concat], ?_⟩
  intro e he
  obtain ⟨⟨q, hq, hfilled⟩, hbehind⟩ := h.ended e he
  refine ⟨⟨q, ?_, hfilled⟩, ?_⟩
  · rw [ht]
    exact dropLast_keeps hq (hbehind hphase) r'
  · rw [hlength]
    exact hbehind hphase

/-- The wait is not over while the plan is still open when the loop asks, and a lane
change has some length. -/
def EndsInTime (cfg : Settings K) (s : LaneChangePlugin K) : Call K → Prop
  | .planSubtrajectory _ startDistance endDistance _ _ => startDistance < endDistance
  | .condition now => ∀ startWait, s.phase = .beforeCondition startWait → s.plan.isSome = true →
      now - startWait < cfg.EXPIRATION_TIME
  | _ => True

omit [Field K] [IsStrictOrderedRing K] in
/-- What the invariant says in a phase. -/
theorem Inv.currentAt {s : LaneChangePlugin K} (h : Inv s) {phase : Phase}
    (hphase : s.phase = phase) : ({ s with phase := phase } : LaneChangePlugin K).CurrentFine := by
  subst hphase
  exact h.current

theorem waitBody_inv (cfg : Settings K) {s : LaneChangePlugin K} (h : Inv s) {startWait now : ℤ}
    (hphase : s.phase = .inBody startWait) : Inv (s.waitBody cfg startWait now) := by
  obtain ⟨r, hlast, hopen⟩ := h.currentAt hphase
  dsimp only at hlast hopen
  have hstays : Inv { s with phase := .beforeCondition startWait } :=
    h.within (by simp [hphase]) rfl rfl ⟨r, hlast, hopen⟩
  unfold waitBody
  split
  · exact hstays
  · rename_i plan hplan
    by_cases hexpired : now - plan.timestamp > cfg.EXPIRATION_TIME
    · rw [if_pos hexpired]
      rcases hopen with ⟨_, hnacked, hfresh⟩ | ⟨hnone, _⟩
      · obtain ⟨r', hwork, hfilled⟩ := populate_with_lane_change hfresh cfg.maxAccel s.params
        rw [workOn_last hlast hwork]
        obtain ⟨hlast', hended⟩ := workOn_spec h (by rw [hphase]; simp) hlast
          (t := { s with
            reservations := s.reservations.dropLast ++ [r']
            plan := none
            phase := .beforeCondition startWait }) rfl
        refine ⟨⟨r', hlast', .inr ⟨rfl, ?_⟩⟩, fun e he => ⟨(hended e he).1, fun _ => (hended e he).2⟩⟩
        change Filled r' s.nacked
        rw [hnacked]
        exact hfilled
      · rw [hplan] at hnone
        cases hnone
    · rw [if_neg hexpired]
      exact hstays

omit [Field K] [IsStrictOrderedRing K] in
theorem waitCondition_inv (cfg : Settings K) {s : LaneChangePlugin K} (h : Inv s)
    {startWait now : ℤ} (hphase : s.phase = .beforeCondition startWait)
    (hintime : s.plan.isSome = true → now - startWait < cfg.EXPIRATION_TIME) :
    Inv (s.waitCondition cfg startWait now) := by
  obtain ⟨r, hlast, hopen⟩ := h.currentAt hphase
  unfold waitCondition
  by_cases hagain : now - startWait < cfg.EXPIRATION_TIME ∧ s.plan.isSome
  · rw [if_pos hagain]
    exact h.within (by simp [hphase]) rfl rfl ⟨r, hlast, hopen⟩
  · rw [if_neg hagain]
    rcases hopen with ⟨hsome, _⟩ | ⟨hnone, hfilled⟩
    · exact absurd ⟨hintime hsome, hsome⟩ hagain
    · exact Inv.finish h.ended hnone hlast hfilled

theorem handleLocked_inv (cfg : Settings K) {s : LaneChangePlugin K} (h : Inv s)
    (msg : MobilityResponse) : Inv (s.handleLocked cfg msg) := by
  unfold handleLocked
  by_cases hnack : s.plan.isSome ∧ msg.isAccepted = false
  · rw [if_pos hnack]
    have hopen := h.current.isOpen hnack.1
    obtain ⟨r, hlast, ⟨_, _, hfresh⟩ | ⟨hnone, _⟩⟩ := (currentFine_iff hopen).mp h.current
    · obtain ⟨r', hwork, hfilled⟩ := populate_with_steady_speed hfresh cfg.maxAccel s.params
      rw [workOn_last hlast hwork]
      have hphase : s.phase ≠ .idle := fun hidle => by
        rw [hidle] at hopen
        exact hopen
      let t : LaneChangePlugin K := { s with
        reservations := s.reservations.dropLast ++ [r']
        plan := none
        nacked := true }
      obtain ⟨hlast', hended⟩ := workOn_spec h hphase hlast (t := t) rfl
      have hcurrent : t.CurrentFine :=
        (currentFine_iff (s := t) hopen).mpr ⟨r', hlast', .inr ⟨rfl, hfilled⟩⟩
      exact ⟨hcurrent, fun e he => ⟨(hended e he).1, fun _ => (hended e he).2⟩⟩
    · rw [hnone] at hnack
      cases hnack.1
  · rw [if_neg hnack]
    exact h

omit [IsStrictOrderedRing K] in
theorem planSubtrajectory_inv {s : LaneChangePlugin K} (h : Inv s) (hidle : s.phase = .idle)
    (traj : Trajectory K) {startDistance endDistance : K} (hroom : startDistance < endDistance)
    (startingLane : ℤ) (currentSpeed : K) :
    Inv (s.planSubtrajectory traj startDistance endDistance startingLane currentSpeed) := by
  have hplan : s.plan = none := h.currentAt hidle
  have hended : ∀ (new : Reservation K), ∀ e ∈ s.ended,
      (∃ r, (s.reservations ++ [new])[e.reservation]? = some r ∧ Filled r e.nacked) ∧
        e.reservation + 1 < (s.reservations ++ [new]).length := by
    intro new e he
    obtain ⟨⟨r, hr, hfilled⟩, _⟩ := h.ended e he
    have hlt := (List.getElem?_eq_some_iff.mp hr).1
    refine ⟨⟨r, by rw [List.getElem?_append_left hlt, hr], hfilled⟩, ?_⟩
    rw [List.length_append, List.length_singleton]
    omega
  unfold planSubtrajectory
  split
  · dsimp only
    split
    · refine ⟨⟨hplan, rfl, _, List.getLast?_concat, ?_⟩,
        fun e he => ⟨(hended _ e he).1, fun _ => (hended _ e he).2⟩⟩
      exact ⟨⟨rfl, rfl⟩, ⟨rfl, rfl⟩, hroom⟩
    · refine ⟨?_, fun e he => ⟨(hended _ e he).1, fun _ => (hended _ e he).2⟩⟩
      unfold CurrentFine
      dsimp only
      rw [hidle]
      exact hplan
  · exact h

/-- The step lemma. -/
theorem step_inv (cfg : Settings K) (s : LaneChangePlugin K) (call : Call K) (h : Inv s)
    (hok : EndsInTime cfg s call) : Inv (s.step cfg call) := by
  cases call with
  | setLaneChangeParameters params =>
    exact ⟨h.current, fun e he => (h.ended e he).goes_on rfl id⟩
  | planSubtrajectory traj startDistance endDistance startingLane currentSpeed =>
    dsimp only [step]
    split
    · rename_i hidle
      exact planSubtrajectory_inv h hidle traj hok startingLane currentSpeed
    · exact h
  | fails =>
    dsimp only [step]
    split
    · rename_i hphase
      have hplan : s.plan = none := (h.currentAt hphase).1
      exact ⟨hplan, fun e he => (h.ended e he).goes_on rfl fun hidle => absurd rfl hidle⟩
    · exact h
  | buildRequest planId now =>
    dsimp only [step]
    split
    · rename_i hphase
      exact h.within (by simp [hphase]) rfl rfl (h.currentAt hphase)
    · exact h
  | publish =>
    dsimp only [step]
    split
    · rename_i hphase
      obtain ⟨_, hnacked, r, hlast, hfresh⟩ := h.currentAt hphase
      exact h.within (by simp [hphase]) rfl rfl ⟨r, hlast, .inl ⟨rfl, hnacked, hfresh⟩⟩
    · exact h
  | startWait now =>
    dsimp only [step]
    split
    · rename_i hphase
      obtain ⟨r, hlast, hopen⟩ := h.currentAt hphase
      exact h.within (by simp [hphase]) rfl rfl ⟨r, hlast, hopen⟩
    · exact h
  | body now =>
    dsimp only [step]
    split
    · rename_i startWait hphase
      exact waitBody_inv cfg h hphase
    · exact h
  | condition now =>
    dsimp only [step]
    split
    · rename_i startWait hphase
      exact waitCondition_inv cfg h hphase (hok startWait hphase)
    · exact h
  | response msg =>
    dsimp only [step]
    split
    · exact ⟨h.current, fun e he => (h.ended e he).goes_on rfl id⟩
    · exact h
  | getsLock i =>
    dsimp only [step]
    split
    · exact h
    · rename_i msg _
      have hlocked := handleLocked_inv cfg h msg
      exact ⟨hlocked.current, fun e he => (hlocked.ended e he).goes_on rfl id⟩

/-- In every run in which no wait runs out while the plan is still open, each negotiation
that has ended has both of its reserved maneuvers filled once: with the lane change if
nobody refused before the end, and with the stay in the lane otherwise. -/
theorem a_negotiation_that_ends_in_time_fills_both_maneuvers (cfg : Settings K)
    (calls : List (Call K)) (h : EachCall (step cfg) (EndsInTime cfg) newPlugin calls) :
    ∀ s ∈ states (step cfg) newPlugin calls, ∀ e ∈ s.ended,
      ∃ r, s.reservations[e.reservation]? = some r ∧ Filled r e.nacked := by
  intro s hs e he
  have hinv := states_of_keeps (I := Inv) (step_inv cfg) newPlugin_inv h s hs
  exact (hinv.ended e he).filled

/-! ## Half a second -/

def halfASecond : Settings ℚ := ⟨500, 2⟩

/-- A lane change to the left over fifty meters of an empty trajectory. -/
def toTheLeft : List (Call ℚ) :=
  [.setLaneChangeParameters ⟨1, 10, 10⟩, .planSubtrajectory (newTrajectory 0 200) 50 100 0 10]

def refusal (planId : String) : MobilityResponse := ⟨⟨"other", "host", "", planId, 0⟩, false⟩

/-- Nobody refuses a first lane change, and somebody a second one. -/
def quietThenRefused : List (Call ℚ) :=
  toTheLeft ++ [.buildRequest "first" 0, .publish, .startWait 1, .body 501, .condition 501] ++
    toTheLeft ++ [.buildRequest "second" 1000, .publish, .startWait 1000,
      .response (refusal "second"), .getsLock 0, .body 1050, .condition 1050]

/-- The request was built in the millisecond in which the wait began. -/
def sameMillisecond : List (Call ℚ) :=
  toTheLeft ++ [.buildRequest "plan" 0, .publish, .startWait 0, .body 500, .condition 500]

theorem a_refused_negotiation_fills_both_maneuvers :
    ∃ r, (run (step halfASecond) newPlugin quietThenRefused).reservations[1]? = some r ∧
      Filled r true := by
  refine a_negotiation_that_ends_in_time_fills_both_maneuvers halfASecond quietThenRefused ?_ _
    (run_mem_states _ _ _) ⟨1, true⟩ (by decide +kernel)
  have hroom : (50 : ℚ) < 100 := by norm_num
  refine ⟨trivial, hroom, trivial, trivial, trivial, trivial, ?_, trivial, hroom, trivial, trivial,
    trivial, trivial, trivial, trivial, ?_, trivial⟩
  · intro _ _ hopen
    exact absurd hopen (by decide +kernel)
  · intro _ _ hopen
    exact absurd hopen (by decide +kernel)

/-- The wait runs out before the plan expires, and both maneuvers stay empty. -/
theorem a_negotiation_ends_with_empty_maneuvers :
    ∃ e ∈ (run (step halfASecond) newPlugin sameMillisecond).ended,
      ¬ ∃ r, (run (step halfASecond) newPlugin sameMillisecond).reservations[e.reservation]? =
        some r ∧ Filled r e.nacked := by
  have hended : (⟨0, false⟩ : Ended) ∈ (run (step halfASecond) newPlugin sameMillisecond).ended := by
    decide +kernel
  have hempty : ((run (step halfASecond) newPlugin sameMillisecond).reservations[0]?.map
      fun r => r.lat.mvrs.length) = some 0 := by decide +kernel
  refine ⟨_, hended, ?_⟩
  rintro ⟨r, hr, ⟨m, hm, _⟩, _⟩
  rw [hr, Option.map_some, hm] at hempty
  cases hempty

end LaneChangePlugin

end carma.lane_change
