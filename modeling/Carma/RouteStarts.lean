-- When a start that is answered without an error is followed by the worker: whenever
-- the route was waiting to be started. A route that is over is still the active one,
-- and a start of it is answered without an error too.
import Carma.RouteProgress

open lib.runs

namespace carma.route_node

namespace RouteWorker

variable {K P F : Type} [LinearOrder K] [Field K] [FloorRing K]

/-! ## Before the first route -/

theorem transition_loading {event : WorkerEvent} {state : WorkerState}
    (h : transition event state = .LOADING_ROUTES) :
    state = .LOADING_ROUTES ∧ event ≠ .FILES_LOADED := by
  revert h
  cases event <;> cases state <;> decide

/-- Before the first route is loaded there is none to select, and none is active. -/
def Unloaded (w : RouteWorker K P F) : Prop :=
  w.state = .LOADING_ROUTES → w.availableRoutes = [] ∧ w.activeRoute = none

omit [LinearOrder K] [Field K] [FloorRing K] in
theorem unloaded_of_same {w w' : RouteWorker K P F} (h : w.Unloaded)
    (hstate : w'.state = .LOADING_ROUTES → w.state = .LOADING_ROUTES)
    (havail : w'.availableRoutes = w.availableRoutes) (hactive : w'.activeRoute = w.activeRoute) :
    w'.Unloaded := by
  intro hload
  rw [havail, hactive]
  exact h (hstate hload)

omit [LinearOrder K] [Field K] [FloorRing K] in
theorem unloaded_of_state {w : RouteWorker K P F} (h : w.state ≠ .LOADING_ROUTES) : w.Unloaded :=
  fun hload => absurd hload h

omit [LinearOrder K] [FloorRing K] in
theorem loadAdditionalRoute_unloaded {w : RouteWorker K P F} (h : w.Unloaded)
    (loaded : Option (Route K F)) : (w.loadAdditionalRoute loaded).Unloaded := by
  unfold loadAdditionalRoute
  split
  · exact h
  · apply unloaded_of_state
    intro hload
    rw [handleEvent_state] at hload
    exact (transition_loading hload).2 rfl

omit [LinearOrder K] [FloorRing K] in
theorem setActiveRoute_unloaded {w : RouteWorker K P F} (h : w.Unloaded) (routeID : String) :
    (w.setActiveRoute routeID).1.Unloaded := by
  unfold setActiveRoute
  split
  · exact h
  · rename_i ref hfound
    apply unloaded_of_state
    intro hload
    rw [handleEvent_state] at hload
    rw [(h (transition_loading hload).1).1] at hfound
    cases hfound

omit [FloorRing K] in
theorem CanJoin.loaded {geo : Geodesy K P F} {w : RouteWorker K P F}
    (hcan : w.CanJoin geo) (h : w.Unloaded) : w.state ≠ .LOADING_ROUTES := by
  intro hload
  obtain ⟨ref, route, -, hactive, -⟩ := hcan
  have hact := ((active_eq_some_iff _ _ _).mp hactive).1
  rw [(h hload).2] at hact
  cases hact

theorem startActiveRoute_unloaded (geo : Geodesy K P F) {w : RouteWorker K P F} (h : w.Unloaded) :
    (w.startActiveRoute geo).1.Unloaded := by
  cases hstart : w.startActiveRoute geo with
  | mk w' answer =>
    rcases startActiveRoute_spec geo hstart with ⟨-, -, hcan, hstate, -⟩ | ⟨-, -, hsame⟩
    · apply unloaded_of_state
      intro hload
      rw [hstate] at hload
      exact hcan.loaded h (transition_loading hload).1
    · rw [hsame]
      exact h

omit [LinearOrder K] [FloorRing K] in
theorem abortActiveRoute_unloaded {w : RouteWorker K P F} (h : w.Unloaded) :
    w.abortActiveRoute.1.Unloaded := by
  unfold abortActiveRoute
  split
  · exact h
  · intro hload
    rw [handleEvent_state] at hload
    exact ⟨(h (transition_loading hload).1).1, rfl⟩

/-! ## Following never goes back before the first route -/

omit [FloorRing K] in
theorem checkVicinity_loading {w : RouteWorker K P F} {seg : RouteSegment K F}
    (h : (w.checkVicinity seg).state = .LOADING_ROUTES) : w.state = .LOADING_ROUTES := by
  unfold checkVicinity at h
  split at h
  · simp only at h
    split at h
    · rw [handleEvent_state] at h
      exact (transition_loading h).1
    · exact h
  · exact h

omit [LinearOrder K] [Field K] [FloorRing K] in
@[simp] theorem updateLane_state (w : RouteWorker K P F) (tempLane : ℤ) :
    (w.updateLane tempLane).state = w.state := by
  unfold updateLane
  split
  · split <;> rfl
  · rfl

theorem updateDistances_loading {geo : Geodesy K P F} {w : RouteWorker K P F} {route : Route K F}
    {host : P} (h : (w.updateDistances geo route host).state = .LOADING_ROUTES) :
    w.state = .LOADING_ROUTES := by
  unfold updateDistances at h
  split at h
  · exact h
  · simp only at h
    split at h
    · exact h
    · have hlane := checkVicinity_loading h
      rwa [updateLane_state] at hlane

theorem updateRouteProgress_loaded (geo : Geodesy K P F) {w : RouteWorker K P F}
    {route : Route K F} (hstate : w.state = .FOLLOWING_ROUTE) (hat : w.AtSegment route) (host : P) :
    (w.updateRouteProgress geo route host).state ≠ .LOADING_ROUTES := by
  unfold updateRouteProgress
  rcases advance_spec geo host hat (le_refl _) with
    ⟨w', hadv, -, hsame, -⟩ | ⟨w', hadv, hdone⟩
  · simp only [hadv]
    intro hload
    have hload' := updateDistances_loading hload
    rw [hsame, hstate] at hload'
    cases hload'
  · simp only [hadv, hdone, hstate]
    decide

theorem loop_unloaded (geo : Geodesy K P F) {w : RouteWorker K P F} (hfollow : w.Following)
    (h : w.Unloaded) (earthToHostVehicle : Option P) :
    (w.loop geo earthToHostVehicle).Unloaded := by
  unfold loop
  split
  · exact h
  · rename_i host
    simp only
    split_ifs with hstate
    · exact h
    · obtain ⟨ref, route, hactive, hat⟩ := hfollow (not_not.mp hstate)
      have hv : ({ w with hostVehicleInECEF := some host } : RouteWorker K P F).active =
          some (ref, route) := hactive
      simp only [hv]
      apply unloaded_of_state
      apply updateRouteProgress_loaded
      · exact not_not.mp hstate
      · exact hat

omit [LinearOrder K] [FloorRing K] in
theorem handleSystemAlertMsg_unloaded {w : RouteWorker K P F} (h : w.Unloaded)
    (type : SystemAlert) : (w.handleSystemAlertMsg type).Unloaded := by
  unfold handleSystemAlertMsg
  split
  · exact unloaded_of_same h (fun hload => (transition_loading hload).1) rfl rfl
  · exact unloaded_of_same h (fun hload => (transition_loading hload).1) rfl rfl
  · exact h
  · exact h

theorem call_unloaded (geo : Geodesy K P F) {w : RouteWorker K P F} (hfollow : w.Following)
    (h : w.Unloaded) (c : Call K P F) : (w.call geo c).Unloaded := by
  cases c with
  | loadAdditionalRoute loaded => exact loadAdditionalRoute_unloaded h loaded
  | setActiveRoute routeID => exact setActiveRoute_unloaded h routeID
  | startActiveRoute => exact startActiveRoute_unloaded geo h
  | abortActiveRoute => exact abortActiveRoute_unloaded h
  | loop earthToHostVehicle => exact loop_unloaded geo hfollow h earthToHostVehicle
  | handleSystemAlertMsg type => exact handleSystemAlertMsg_unloaded h type

/-! ## Starts -/

/-- A start that is answered without an error is followed by the worker. -/
def StartFollows (geo : Geodesy K P F) (w : RouteWorker K P F) (c : Call K P F) : Prop :=
  c = .startActiveRoute → (w.startActiveRoute geo).2 = some .NO_ERROR →
    (w.startActiveRoute geo).1.state = .FOLLOWING_ROUTE

/-- The call does not start a route that is over: one that is still active, and that
the vehicle could join, while the worker waits for the next selection. -/
def NotOver (geo : Geodesy K P F) (w : RouteWorker K P F) (c : Call K P F) : Prop :=
  c = .startActiveRoute → ¬ (w.state = .ROUTE_SELECTION ∧ w.CanJoin geo)

theorem startFollows_iff (geo : Geodesy K P F) {w : RouteWorker K P F} (h : w.Unloaded)
    (c : Call K P F) : StartFollows geo w c ↔ NotOver geo w c := by
  apply imp_congr_right
  intro _
  cases hstart : w.startActiveRoute geo with
  | mk w' answer =>
    rcases startActiveRoute_spec geo hstart with
      ⟨hanswer, hnot, hcan, hstate, -⟩ | ⟨hanswer, hcannot, hsame⟩
    · have hloaded := hcan.loaded h
      rw [forall_prop_of_true hanswer, hstate]
      simp only [hcan, and_true]
      cases hw : w.state with
      | LOADING_ROUTES => exact absurd hw hloaded
      | ROUTE_SELECTION => decide
      | WAITING_TO_START => decide
      | FOLLOWING_ROUTE => exact absurd hw hnot
    · apply iff_of_true (fun hno => absurd hno hanswer)
      rintro ⟨hselect, hcan⟩
      rcases hcannot with hfollow | hcannot
      · rw [hfollow] at hselect
        cases hselect
      · exact hcannot hcan

/-! ## Runs -/

/-- In a run, each start that is answered without an error is followed by the worker
just when none of them starts a route that is over. -/
theorem a_start_without_error_is_followed_unless_the_route_is_over (geo : Geodesy K P F)
    (requiredLeftRouteCount : ℤ) (calls : List (Call K P F)) :
    EachCall (call geo) (StartFollows geo) (new requiredLeftRouteCount) calls ↔
      EachCall (call geo) (NotOver geo) (new requiredLeftRouteCount) calls := by
  have h0 : (new requiredLeftRouteCount : RouteWorker K P F).Following ∧
      (new requiredLeftRouteCount : RouteWorker K P F).Unloaded :=
    ⟨not_following (by simp [new]), fun _ => ⟨rfl, rfl⟩⟩
  have hkeep : ∀ (w : RouteWorker K P F) (c : Call K P F), w.Following ∧ w.Unloaded →
      (w.call geo c).Following ∧ (w.call geo c).Unloaded :=
    fun w c h => ⟨call_following geo h.1 c, call_unloaded geo h.1 h.2 c⟩
  exact eachCall_iff hkeep (fun w c h => startFollows_iff geo h.2 c) h0 calls

/-- The vehicle runs past the end of its route, comes back and starts it again. -/
def startAgain : List (Call ℚ ℚ ℚ) := startOnRoute ++ [.loop (some 25), .loop (some 5)]

theorem a_completed_route_is_started_but_not_followed :
    ¬ ∀ calls : List (Call ℚ ℚ ℚ),
      (startActiveRoute flatEarth (run (call flatEarth) (new 3) calls)).2 = some .NO_ERROR →
      (startActiveRoute flatEarth (run (call flatEarth) (new 3) calls)).1.state =
        .FOLLOWING_ROUTE := by
  intro h
  have hstate := h startAgain (by decide +kernel)
  exact absurd hstate (by decide +kernel)

end RouteWorker

end carma.route_node
