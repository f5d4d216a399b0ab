-- Where a worker is on the route that it follows: at a segment of the route, with the
-- waypoint at the end of it, through every run. The loop to the current segment ends.
import Carma.Lib.Runs
import Carma.RouteWorker

open lib.runs

namespace carma.route_node

namespace RouteWorker

variable {K P F : Type} [LinearOrder K] [Field K] [FloorRing K]

/-! ## Transitions -/

theorem transition_following_iff (event : WorkerEvent) (state : WorkerState) :
    transition event state = .FOLLOWING_ROUTE ↔
      event = .FILES_LOADED ∧ state = .FOLLOWING_ROUTE ∨
      event = .ROUTE_STARTED ∧ (state = .WAITING_TO_START ∨ state = .FOLLOWING_ROUTE) := by
  cases event <;> cases state <;> decide

omit [LinearOrder K] [FloorRing K] in
@[simp] theorem handleEvent_state (w : RouteWorker K P F) (event : WorkerEvent) :
    (w.handleEvent event).state = transition event w.state := by
  cases event <;> rfl

/-! ## The place on a route -/

/-- The current segment is the one at the current index, and the waypoint index is
that of its end. -/
def AtSegment (w : RouteWorker K P F) (route : Route K F) : Prop :=
  ∃ seg, route.getSegment w.currentSegmentIndex = some seg ∧ w.currentSegment = some seg ∧
    w.currentWaypointIndex = w.currentSegmentIndex + 1

omit [LinearOrder K] [Field K] [FloorRing K] in
theorem AtSegment.bounds {w : RouteWorker K P F} {route : Route K F} (h : w.AtSegment route) :
    0 ≤ w.currentSegmentIndex ∧ w.currentSegmentIndex < route.segments.length := by
  obtain ⟨seg, hseg, -⟩ := h
  obtain ⟨hlow, hget⟩ := (Route.getSegment_eq_some_iff _ _ _).mp hseg
  obtain ⟨hlt, -⟩ := List.getElem?_eq_some_iff.mp hget
  omega

/-- A worker that follows a route is at a segment of it. -/
def Following (w : RouteWorker K P F) : Prop :=
  w.state = .FOLLOWING_ROUTE → ∃ ref route, w.active = some (ref, route) ∧ w.AtSegment route

omit [LinearOrder K] [Field K] [FloorRing K] in
theorem active_eq_some_iff (w : RouteWorker K P F) (ref : ℕ) (route : Route K F) :
    w.active = some (ref, route) ↔ w.activeRoute = some ref ∧ w.routes[ref]? = some route := by
  simp only [active, Option.bind_eq_bind, Option.bind_eq_some_iff, Option.pure_def,
    Option.some_inj, Prod.mk.injEq]
  constructor
  · rintro ⟨r, hr, t, ht, rfl, rfl⟩
    exact ⟨hr, ht⟩
  · rintro ⟨hr, ht⟩
    exact ⟨ref, hr, route, ht, rfl, rfl⟩

/-! ## Starting -/

omit [FloorRing K] in
/-- The index to start at is -1, or 0, or that of a segment's end. -/
theorem validStartingWPIndex_cases (geo : Geodesy K P F) (maxJoinDistance : K) (host : P) {count : ℤ}
    (hcount : 0 ≤ count) (segs : List (RouteSegment K F)) :
    validStartingWPIndex geo maxJoinDistance host count segs = -1 ∨
    validStartingWPIndex geo maxJoinDistance host count segs = 0 ∨
    1 ≤ validStartingWPIndex geo maxJoinDistance host count segs ∧
      validStartingWPIndex geo maxJoinDistance host count segs ≤ count + segs.length := by
  induction segs generalizing count with
  | nil => exact Or.inl rfl
  | cons seg segs ih =>
    unfold validStartingWPIndex
    rw [List.length_cons]
    simp only
    split_ifs with hon hbefore
    · omega
    · omega
    · have hrest := ih (by omega : 0 ≤ count + 1)
      omega

omit [LinearOrder K] [FloorRing K] in
theorem insertWaypoint_front (geo : Geodesy K P F) {route inserted : Route K F}
    {waypoint : RouteWaypoint K} (h : route.insertWaypoint geo waypoint 0 = .ok inserted) :
    1 ≤ (inserted.segments.length : ℤ) := by
  unfold Route.insertWaypoint at h
  simp only at h
  split at h
  · cases h
  · split at h
    · cases h
      simp
    · cases h

omit [FloorRing K] in
/-- Joining keeps everything but the routes, and the index that it gives is that of a
segment's end. -/
theorem joinRoute_spec (geo : Geodesy K P F) {w w' : RouteWorker K P F} {ref : ℕ}
    {route route' : Route K F} {host : P} {index' : ℤ} (href : w.routes[ref]? = some route)
    (hjoin : w.joinRoute geo ref route host (getValidStartingWPIndex geo route host) =
      some (w', route', index')) :
    w' = { w with routes := w'.routes } ∧ w'.routes[ref]? = some route' ∧
      1 ≤ index' ∧ index' ≤ route'.segments.length := by
  have hindex := validStartingWPIndex_cases geo route.maxJoinDistance host (le_refl 0)
    route.segments
  unfold joinRoute getValidStartingWPIndex at hjoin
  split_ifs at hjoin with hzero hminus
  · -- the waypoint of the vehicle goes in front
    split at hjoin
    · cases hjoin
    · split at hjoin
      · cases hjoin
      · rename_i hins
        cases hjoin
        have hlen := insertWaypoint_front geo hins
        have hlt := (List.getElem?_eq_some_iff.mp href).1
        refine ⟨rfl, ?_, le_refl 1, hlen⟩
        simp [hlt]
  · cases hjoin
    exact ⟨rfl, href, by omega, by omega⟩

omit [LinearOrder K] [FloorRing K] in
theorem joinRoute_eq_none_iff (geo : Geodesy K P F) (w : RouteWorker K P F) (ref : ℕ)
    (route : Route K F) (host : P) (index : ℤ) :
    w.joinRoute geo ref route host index = none ↔
      index = -1 ∨ index = 0 ∧ route.waypoints = [] := by
  unfold joinRoute
  split_ifs with hzero hminus
  · subst hzero
    cases hwps : route.waypoints with
    | nil => simp
    | cons first rest =>
      have hlane : (startingWaypoint geo first host).laneIndex = first.laneIndex := rfl
      simp [Route.insertWaypoint, hwps, hlane]
  · simp [hminus]
  · simp [hzero, hminus]

/-- A start that is answered with true leaves the worker at the segment it starts at;
any other leaves it as it was. -/
theorem startRouteAtIndex_spec (geo : Geodesy K P F) {w w' : RouteWorker K P F} {ref : ℕ}
    {route : Route K F} {host : P} {answer : Option Bool} (hactive : w.active = some (ref, route))
    (hstart : w.startRouteAtIndex geo ref route host (getValidStartingWPIndex geo route host) =
      (w', answer)) :
    (w.joinRoute geo ref route host (getValidStartingWPIndex geo route host) = none ∧
      w' = w ∧ answer = some false) ∨
    (w.joinRoute geo ref route host (getValidStartingWPIndex geo route host) ≠ none ∧
      answer = some true ∧ w'.state = transition .ROUTE_STARTED w.state ∧
      ∃ route', w'.active = some (ref, route') ∧ w'.AtSegment route') := by
  obtain ⟨href, hroute⟩ := (active_eq_some_iff _ _ _).mp hactive
  unfold startRouteAtIndex at hstart
  cases hjoin : w.joinRoute geo ref route host (getValidStartingWPIndex geo route host) with
  | none =>
    rw [hjoin] at hstart
    cases hstart
    exact Or.inl ⟨rfl, rfl, rfl⟩
  | some joined =>
    obtain ⟨v, route', index'⟩ := joined
    obtain ⟨hsame, hroute', hlow, hhigh⟩ := joinRoute_spec geo hroute hjoin
    have hfirst : 0 ≤ index' - 1 := by omega
    have hlast : index' - 1 - 1 < route'.segments.length := by omega
    obtain ⟨seg, hseg⟩ := route'.getSegment_isSome hfirst (by omega)
    obtain ⟨before, hbefore⟩ := route'.lengthOfSegments_isSome hlast
    have hact : v.activeRoute = some ref := by
      rw [hsame]
      exact href
    have hst : v.state = w.state := by
      rw [hsame]
    simp only [hjoin, hseg, hbefore] at hstart
    cases hstart
    refine Or.inr ⟨by simp, rfl, ?_, route', ?_, ?_⟩
    · rw [handleEvent_state]
      exact congrArg _ hst
    · rw [active_eq_some_iff]
      exact ⟨hact, hroute'⟩
    · exact ⟨seg, hseg, rfl, by simp [handleEvent, next]⟩

/-- There is an active route, and the vehicle is where it can join it. -/
def CanJoin (geo : Geodesy K P F) (w : RouteWorker K P F) : Prop :=
  ∃ ref route host, w.active = some (ref, route) ∧ w.hostVehicleInECEF = some host ∧
    getValidStartingWPIndex geo route host ≠ -1 ∧
    (getValidStartingWPIndex geo route host = 0 → route.waypoints ≠ [])

omit [FloorRing K] in
theorem canJoin_iff (geo : Geodesy K P F) {w : RouteWorker K P F} {ref : ℕ} {route : Route K F}
    {host : P} (hactive : w.active = some (ref, route))
    (hhost : w.hostVehicleInECEF = some host) :
    w.CanJoin geo ↔
      w.joinRoute geo ref route host (getValidStartingWPIndex geo route host) ≠ none := by
  rw [ne_eq, joinRoute_eq_none_iff]
  constructor
  · rintro ⟨r, t, h, hact, hh, hvalid, hwps⟩
    rw [hactive] at hact
    rw [hhost] at hh
    cases hact
    cases hh
    tauto
  · intro hnot
    exact ⟨ref, route, host, hactive, hhost, by tauto, by tauto⟩

/-- What a start does: it is answered without an error and starts the route, or it
leaves the worker as it was. -/
theorem startActiveRoute_spec (geo : Geodesy K P F) {w w' : RouteWorker K P F}
    {answer : Option StartActiveRouteResponse} (hstart : w.startActiveRoute geo = (w', answer)) :
    (answer = some .NO_ERROR ∧ w.state ≠ .FOLLOWING_ROUTE ∧ w.CanJoin geo ∧
      w'.state = transition .ROUTE_STARTED w.state ∧
      ∃ ref route', w'.active = some (ref, route') ∧ w'.AtSegment route') ∨
    (answer ≠ some .NO_ERROR ∧ (w.state = .FOLLOWING_ROUTE ∨ ¬ w.CanJoin geo) ∧ w' = w) := by
  unfold startActiveRoute at hstart
  cases hactive : w.active with
  | none =>
    simp only [hactive] at hstart
    cases hstart
    refine Or.inr ⟨by decide, Or.inr ?_, rfl⟩
    rintro ⟨ref, route, host, hact, -⟩
    rw [hactive] at hact
    cases hact
  | some kept =>
    obtain ⟨ref, route⟩ := kept
    simp only [hactive] at hstart
    split_ifs at hstart with hfollow
    · cases hstart
      exact Or.inr ⟨by decide, Or.inl hfollow, rfl⟩
    · cases hhost : w.hostVehicleInECEF with
      | none =>
        simp only [hhost] at hstart
        cases hstart
        refine Or.inr ⟨by decide, Or.inr ?_, rfl⟩
        rintro ⟨-, -, host, -, hsome, -⟩
        rw [hhost] at hsome
        cases hsome
      | some host =>
        simp only [hhost] at hstart
        have hcan := canJoin_iff geo hactive hhost
        split_ifs at hstart with hminus
        · cases hstart
          refine Or.inr ⟨by decide, Or.inr ?_, rfl⟩
          rw [hcan, ne_eq, joinRoute_eq_none_iff]
          simp [hminus]
        · cases hrun : w.startRouteAtIndex geo ref route host
            (getValidStartingWPIndex geo route host) with
          | mk v started =>
            rw [hrun] at hstart
            rcases startRouteAtIndex_spec geo hactive hrun with
              ⟨hnone, rfl, rfl⟩ | ⟨hsome, rfl, hstate, hat⟩
            · cases hstart
              refine Or.inr ⟨by decide, Or.inr ?_, rfl⟩
              rw [hcan]
              exact not_not.mpr hnone
            · cases hstart
              exact Or.inl ⟨rfl, hfollow, hcan.mpr hsome, hstate, ref, hat⟩

/-! ## Following -/

omit [FloorRing K] in
/-- The loop to the current segment ends at a segment of the route, or at the end of
the route, which it never reads past. -/
theorem advance_spec (geo : Geodesy K P F) {route : Route K F} (host : P) {turns : ℕ}
    {w : RouteWorker K P F} (hat : w.AtSegment route) (hturns : w.turnsLeft route ≤ turns) :
    (∃ w', advance geo route host turns w = .onSegment w' ∧ w'.AtSegment route ∧
      w'.state = w.state ∧ w'.activeRoute = w.activeRoute ∧ w'.routes = w.routes) ∨
    (∃ w', advance geo route host turns w = .completed w' ∧
      w'.state = transition .ROUTE_COMPLETED w.state) := by
  induction turns generalizing w with
  | zero =>
    unfold turnsLeft at hturns
    omega
  | succ turns ih =>
    obtain ⟨hlow, hhigh⟩ := hat.bounds
    have hkept := hat
    obtain ⟨seg, hseg, hcur, hwp⟩ := hat
    unfold advance
    simp only [hcur]
    split_ifs with hnext hend
    · exact Or.inr ⟨_, rfl, by simp⟩
    · have hlow : 0 ≤ w.currentSegmentIndex + 1 := by omega
      obtain ⟨seg', hseg'⟩ := route.getSegment_isSome hlow (by omega)
      simp only [hseg']
      apply ih
      · exact ⟨seg', hseg', rfl, by simp [hwp]⟩
      · unfold turnsLeft at *
        simp only
        omega
    · exact Or.inl ⟨w, rfl, hkept, rfl, rfl, rfl⟩

omit [LinearOrder K] [Field K] [FloorRing K] in
theorem following_of_same {w w' : RouteWorker K P F} (h : w.Following)
    (hstate : w'.state = w.state) (hactive : w'.active = w.active)
    (hat : ∀ route, w.AtSegment route → w'.AtSegment route) : w'.Following := by
  intro hfollow
  obtain ⟨ref, route, hact, hseg⟩ := h (hstate.symm.trans hfollow)
  exact ⟨ref, route, hactive.trans hact, hat route hseg⟩

omit [LinearOrder K] [Field K] [FloorRing K] in
theorem not_following {w : RouteWorker K P F} (h : w.state ≠ .FOLLOWING_ROUTE) : w.Following :=
  fun hfollow => absurd hfollow h

omit [FloorRing K] in
theorem checkVicinity_following {w : RouteWorker K P F} (h : w.Following)
    (seg : RouteSegment K F) : (w.checkVicinity seg).Following := by
  unfold checkVicinity
  split
  · simp only
    split
    · apply not_following
      simp [transition_following_iff]
    · exact following_of_same h rfl rfl (fun _ hat => hat)
  · exact following_of_same h rfl rfl (fun _ hat => hat)

theorem updateDistances_following (geo : Geodesy K P F) {w : RouteWorker K P F} (h : w.Following)
    (route : Route K F) (host : P) : (w.updateDistances geo route host).Following := by
  unfold updateDistances
  split
  · exact h
  · simp only
    split
    · exact following_of_same h rfl rfl (fun _ hat => hat)
    · apply checkVicinity_following
      unfold updateLane
      split
      · split <;> exact following_of_same h rfl rfl (fun _ hat => hat)
      · exact following_of_same h rfl rfl (fun _ hat => hat)

theorem updateRouteProgress_following (geo : Geodesy K P F) {w : RouteWorker K P F} {ref : ℕ}
    {route : Route K F} (hactive : w.active = some (ref, route)) (hat : w.AtSegment route)
    (host : P) : (w.updateRouteProgress geo route host).Following := by
  unfold updateRouteProgress
  rcases advance_spec geo host hat (le_refl _) with
    ⟨w', hadv, hat', -, hact, hroutes⟩ | ⟨w', hadv, hstate⟩
  · simp only [hadv]
    apply updateDistances_following
    intro _
    refine ⟨ref, route, ?_, hat'⟩
    unfold active at *
    rw [hact, hroutes]
    exact hactive
  · simp only [hadv]
    apply not_following
    simp [hstate, transition_following_iff]

theorem loop_following (geo : Geodesy K P F) {w : RouteWorker K P F} (h : w.Following)
    (earthToHostVehicle : Option P) : (w.loop geo earthToHostVehicle).Following := by
  unfold loop
  split
  · exact h
  · rename_i host
    have hv : ({ w with hostVehicleInECEF := some host } : RouteWorker K P F).Following :=
      following_of_same h rfl rfl (fun _ hat => hat)
    generalize ({ w with hostVehicleInECEF := some host } : RouteWorker K P F) = v at hv ⊢
    simp only
    split_ifs with hstate
    · exact hv
    · obtain ⟨ref, route, hactive, hat⟩ := hv (not_not.mp hstate)
      simp only [hactive]
      exact updateRouteProgress_following geo hactive hat host

omit [LinearOrder K] [FloorRing K] in
theorem loadAdditionalRoute_following {w : RouteWorker K P F} (h : w.Following)
    (loaded : Option (Route K F)) : (w.loadAdditionalRoute loaded).Following := by
  unfold loadAdditionalRoute
  split
  · exact h
  · intro hfollow
    rw [handleEvent_state, transition_following_iff] at hfollow
    simp only [true_and, reduceCtorEq, false_and, or_false] at hfollow
    obtain ⟨ref, route, hactive, hat⟩ := h hfollow
    refine ⟨ref, route, ?_, hat⟩
    rw [active_eq_some_iff] at hactive ⊢
    refine ⟨hactive.1, ?_⟩
    have hlt := (List.getElem?_eq_some_iff.mp hactive.2).1
    simp only [handleEvent, next]
    rw [List.getElem?_append_left hlt]
    exact hactive.2

omit [LinearOrder K] [FloorRing K] in
theorem setActiveRoute_following {w : RouteWorker K P F} (h : w.Following) (routeID : String) :
    (w.setActiveRoute routeID).1.Following := by
  unfold setActiveRoute
  split
  · exact h
  · apply not_following
    simp [transition_following_iff]

theorem startActiveRoute_following (geo : Geodesy K P F) {w : RouteWorker K P F}
    (h : w.Following) : (w.startActiveRoute geo).1.Following := by
  cases hstart : w.startActiveRoute geo with
  | mk w' answer =>
    rcases startActiveRoute_spec geo hstart with ⟨-, -, -, -, hat⟩ | ⟨-, -, hsame⟩
    · exact fun _ => hat
    · rw [hsame]
      exact h

omit [LinearOrder K] [FloorRing K] in
theorem abortActiveRoute_following {w : RouteWorker K P F} (h : w.Following) :
    w.abortActiveRoute.1.Following := by
  unfold abortActiveRoute
  split
  · exact h
  · apply not_following
    simp [transition_following_iff]

omit [LinearOrder K] [FloorRing K] in
theorem handleSystemAlertMsg_following {w : RouteWorker K P F} (h : w.Following)
    (type : SystemAlert) : (w.handleSystemAlertMsg type).Following := by
  unfold handleSystemAlertMsg
  split
  · apply not_following
    simp [transition_following_iff]
  · apply not_following
    simp [transition_following_iff]
  · exact following_of_same h rfl rfl (fun _ hat => hat)
  · exact h

theorem call_following (geo : Geodesy K P F) {w : RouteWorker K P F} (h : w.Following)
    (c : Call K P F) : (w.call geo c).Following := by
  cases c with
  | loadAdditionalRoute loaded => exact loadAdditionalRoute_following h loaded
  | setActiveRoute routeID => exact setActiveRoute_following h routeID
  | startActiveRoute => exact startActiveRoute_following geo h
  | abortActiveRoute => exact abortActiveRoute_following h
  | loop earthToHostVehicle => exact loop_following geo h earthToHostVehicle
  | handleSystemAlertMsg type => exact handleSystemAlertMsg_following h type

/-! ## Runs -/

/-- In every run, a worker that follows a route has an active route, is at a segment of
it and has the waypoint at the end of that. Wherever the vehicle is, the loop to the
current segment ends there or at the end of the route, without an exception. -/
theorem a_followed_route_is_at_its_segment (geo : Geodesy K P F) (requiredLeftRouteCount : ℤ)
    (calls : List (Call K P F)) (w : RouteWorker K P F)
    (hrun : w = run (call geo) (new requiredLeftRouteCount) calls)
    (hfollow : w.state = .FOLLOWING_ROUTE) :
    ∃ ref route, w.activeRoute = some ref ∧ w.routes[ref]? = some route ∧
      0 ≤ w.currentSegmentIndex ∧ w.currentSegmentIndex < route.segments.length ∧
      (∃ seg, w.currentSegment = some seg ∧
        route.segments[w.currentSegmentIndex.toNat]? = some seg) ∧
      w.currentWaypointIndex = w.currentSegmentIndex + 1 ∧
      ∀ host, ∃ enough, ∀ turns ≥ enough, ∃ w',
        advance geo route host turns w = .onSegment w' ∨
        advance geo route host turns w = .completed w' := by
  have h0 : (new requiredLeftRouteCount : RouteWorker K P F).Following :=
    not_following (by simp [new])
  have hstep : ∀ (v : RouteWorker K P F) (c : Call K P F), v.Following → (v.call geo c).Following :=
    fun _ c h => call_following geo h c
  have hinv : w.Following := by
    rw [hrun]
    exact run_keeps_always hstep h0 calls
  obtain ⟨ref, route, hactive, hat⟩ := hinv hfollow
  obtain ⟨hact, hroute⟩ := (active_eq_some_iff _ _ _).mp hactive
  obtain ⟨hlow, hhigh⟩ := hat.bounds
  refine ⟨ref, route, hact, hroute, hlow, hhigh, ?_, ?_, ?_⟩
  · obtain ⟨seg, hseg, hcur, -⟩ := hat
    exact ⟨seg, hcur, ((Route.getSegment_eq_some_iff _ _ _).mp hseg).2⟩
  · obtain ⟨-, -, -, hwp⟩ := hat
    exact hwp
  · intro host
    refine ⟨w.turnsLeft route, ?_⟩
    intro turns hturns
    rcases advance_spec geo host hat hturns with ⟨w', hadv, -⟩ | ⟨w', hadv, -⟩
    · exact ⟨w', Or.inl hadv⟩
    · exact ⟨w', Or.inr hadv⟩

/-- A route of the flat earth is loaded and selected, and started from halfway to its
second waypoint. -/
def startOnRoute : List (Call ℚ ℚ ℚ) :=
  [.loadAdditionalRoute (some (newRoute flatEarth
      [flatWaypoint 0 0, flatWaypoint 10 0, flatWaypoint 20 0] "" "road")),
    .setActiveRoute "road", .loop (some 5), .startActiveRoute]

theorem a_started_route_is_at_its_segment :
    ∃ ref route, (run (call flatEarth) (new 3) startOnRoute).activeRoute = some ref ∧
      (run (call flatEarth) (new 3) startOnRoute).routes[ref]? = some route ∧
      (run (call flatEarth) (new 3) startOnRoute).currentSegmentIndex < route.segments.length := by
  have hfollow : (run (call flatEarth) (new 3) startOnRoute).state = .FOLLOWING_ROUTE := by decide +kernel
  obtain ⟨ref, route, href, hroute, -, hlt, -⟩ :=
    a_followed_route_is_at_its_segment flatEarth 3 startOnRoute _ rfl hfollow
  exact ⟨ref, route, href, hroute, hlt⟩

end RouteWorker

end carma.route_node
