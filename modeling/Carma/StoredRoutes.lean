-- The stored routes: the active route is one of them, so a start that puts in a
-- waypoint for the vehicle changes the route that the next selection gives.
import Carma.RouteProgress

open lib.exact_double lib.runs

namespace carma.route_node

namespace RouteWorker

variable {K P F : Type} [LinearOrder K] [Field K] [FloorRing K]

/-! ## Calls that keep the routes -/

/-- The routes, and which of them can be selected, are the same. -/
def SameRoutes (w w' : RouteWorker K P F) : Prop :=
  w'.routes = w.routes ∧ w'.availableRoutes = w.availableRoutes

omit [LinearOrder K] [Field K] [FloorRing K] in
theorem SameRoutes.trans {w w' w'' : RouteWorker K P F} (h : w.SameRoutes w')
    (h' : w'.SameRoutes w'') : w.SameRoutes w'' := ⟨h'.1.trans h.1, h'.2.trans h.2⟩

omit [LinearOrder K] [FloorRing K] in
theorem handleEvent_sameRoutes (w : RouteWorker K P F) (event : WorkerEvent) :
    w.SameRoutes (w.handleEvent event) := by
  cases event <;> exact ⟨rfl, rfl⟩

omit [LinearOrder K] [FloorRing K] in
theorem setActiveRoute_sameRoutes (w : RouteWorker K P F) (routeID : String) :
    w.SameRoutes (w.setActiveRoute routeID).1 := by
  unfold setActiveRoute
  split
  · exact ⟨rfl, rfl⟩
  · exact handleEvent_sameRoutes _ _

omit [LinearOrder K] [FloorRing K] in
theorem abortActiveRoute_sameRoutes (w : RouteWorker K P F) :
    w.SameRoutes w.abortActiveRoute.1 := by
  unfold abortActiveRoute
  split
  · exact ⟨rfl, rfl⟩
  · exact handleEvent_sameRoutes _ _

omit [LinearOrder K] [FloorRing K] in
theorem handleSystemAlertMsg_sameRoutes (w : RouteWorker K P F) (type : SystemAlert) :
    w.SameRoutes (w.handleSystemAlertMsg type) := by
  unfold handleSystemAlertMsg
  split
  · exact handleEvent_sameRoutes _ _
  · exact handleEvent_sameRoutes _ _
  · exact ⟨rfl, rfl⟩
  · exact ⟨rfl, rfl⟩

/-- The worker with which the loop to the current segment ends. -/
def Advance.worker : Advance K P F → RouteWorker K P F
  | .onSegment w => w
  | .completed w => w
  | .threw w => w
  | .running w => w

omit [FloorRing K] in
theorem advance_sameRoutes (geo : Geodesy K P F) (route : Route K F) (host : P) (turns : ℕ)
    (w : RouteWorker K P F) : w.SameRoutes (advance geo route host turns w).worker := by
  induction turns generalizing w with
  | zero => exact ⟨rfl, rfl⟩
  | succ turns ih =>
    unfold advance
    split
    · exact ⟨rfl, rfl⟩
    · split
      · simp only
        split
        · simp only [Advance.worker]
          exact SameRoutes.trans ⟨rfl, rfl⟩ (handleEvent_sameRoutes _ _)
        · split
          · exact ⟨rfl, rfl⟩
          · exact SameRoutes.trans ⟨rfl, rfl⟩ (ih _)
      · exact ⟨rfl, rfl⟩

omit [FloorRing K] in
theorem checkVicinity_sameRoutes (w : RouteWorker K P F) (seg : RouteSegment K F) :
    w.SameRoutes (w.checkVicinity seg) := by
  unfold checkVicinity
  split
  · simp only
    split
    · exact SameRoutes.trans ⟨rfl, rfl⟩ (handleEvent_sameRoutes _ _)
    · exact ⟨rfl, rfl⟩
  · exact ⟨rfl, rfl⟩

omit [LinearOrder K] [Field K] [FloorRing K] in
theorem updateLane_sameRoutes (w : RouteWorker K P F) (tempLane : ℤ) :
    w.SameRoutes (w.updateLane tempLane) := by
  unfold updateLane
  split
  · split <;> exact ⟨rfl, rfl⟩
  · exact ⟨rfl, rfl⟩

theorem updateDistances_sameRoutes (geo : Geodesy K P F) (w : RouteWorker K P F)
    (route : Route K F) (host : P) : w.SameRoutes (w.updateDistances geo route host) := by
  unfold updateDistances
  split
  · exact ⟨rfl, rfl⟩
  · simp only
    split
    · exact ⟨rfl, rfl⟩
    · refine SameRoutes.trans ?_ (checkVicinity_sameRoutes _ _)
      exact SameRoutes.trans ⟨rfl, rfl⟩ (updateLane_sameRoutes _ _)

theorem loop_sameRoutes (geo : Geodesy K P F) (w : RouteWorker K P F)
    (earthToHostVehicle : Option P) : w.SameRoutes (w.loop geo earthToHostVehicle) := by
  unfold loop
  split
  · exact ⟨rfl, rfl⟩
  · rename_i host
    simp only
    split_ifs
    · exact ⟨rfl, rfl⟩
    · split
      · exact ⟨rfl, rfl⟩
      · rename_i route _
        have hhost : w.SameRoutes { w with hostVehicleInECEF := some host } := ⟨rfl, rfl⟩
        refine hhost.trans ?_
        generalize ({ w with hostVehicleInECEF := some host } : RouteWorker K P F) = v
        unfold updateRouteProgress
        have hadv := advance_sameRoutes geo route host (v.turnsLeft route) v
        split <;> rename_i hend <;> rw [hend] at hadv
        · exact hadv.trans (updateDistances_sameRoutes geo _ route host)
        · exact hadv
        · exact hadv
        · exact hadv

/-! ## Starting -/

/-- The vehicle is in front of the first segment of the route, near enough to join. -/
def InFrontOf (geo : Geodesy K P F) (route : Route K F) (host : P) : Prop :=
  ∃ seg ∈ route.segments.head?, seg.downTrackDistance geo host < 0 ∧
    |seg.downTrackDistance geo host| < route.maxJoinDistance ∧
    withinCrossTrack geo seg host = true

omit [FloorRing K] in
theorem validStartingWPIndex_pos (geo : Geodesy K P F) (maxJoinDistance : K) (host : P) {count : ℤ}
    (hcount : 0 < count) (segs : List (RouteSegment K F)) :
    validStartingWPIndex geo maxJoinDistance host count segs ≠ 0 := by
  induction segs generalizing count with
  | nil => simp [validStartingWPIndex]
  | cons seg segs ih =>
    unfold validStartingWPIndex
    simp only
    split_ifs with hon hbefore
    · omega
    · omega
    · exact ih (by omega)

omit [FloorRing K] in
theorem getValidStartingWPIndex_eq_zero_iff (geo : Geodesy K P F) (route : Route K F) (host : P) :
    getValidStartingWPIndex geo route host = 0 ↔ InFrontOf geo route host := by
  unfold getValidStartingWPIndex InFrontOf
  cases hsegs : route.segments with
  | nil => simp [validStartingWPIndex]
  | cons seg segs =>
    have hrest := validStartingWPIndex_pos geo route.maxJoinDistance host (zero_lt_one' ℤ) segs
    unfold validStartingWPIndex
    simp only [List.head?_cons, Option.mem_some_iff, exists_eq_left']
    by_cases hon : 0 ≤ seg.downTrackDistance geo host ∧
        seg.downTrackDistance geo host ≤ seg.length ∧ withinCrossTrack geo seg host = true
    · rw [if_pos hon]
      exact iff_of_false (by omega) (fun h => absurd hon.1 (not_le.mpr h.1))
    · rw [if_neg hon]
      by_cases hfront : seg.downTrackDistance geo host < 0 ∧
          |seg.downTrackDistance geo host| < route.maxJoinDistance ∧
          withinCrossTrack geo seg host = true
      · rw [if_pos ⟨trivial, hfront⟩]
        exact iff_of_true rfl hfront
      · rw [if_neg (fun h => hfront h.2)]
        exact iff_of_false hrest hfront

/-- The routes after a waypoint was put in front of the one at `ref`. -/
def FrontAdded (w w' : RouteWorker K P F) (ref : ℕ) (route : Route K F) : Prop :=
  ∃ longer : Route K F, longer.waypoints.length = route.waypoints.length + 1 ∧
    w'.routes = w.routes.set ref longer ∧ w'.availableRoutes = w.availableRoutes

omit [LinearOrder K] [FloorRing K] in
theorem insertWaypoint_longer (geo : Geodesy K P F) {route inserted : Route K F}
    {waypoint : RouteWaypoint K} (h : route.insertWaypoint geo waypoint 0 = .ok inserted) :
    inserted.waypoints.length = route.waypoints.length + 1 := by
  unfold Route.insertWaypoint at h
  simp only at h
  split at h
  · cases h
  · split at h
    · cases h
      simp
    · cases h

/-- What a start does to the stored routes. -/
theorem startRouteAtIndex_routes (geo : Geodesy K P F) (w : RouteWorker K P F) (ref : ℕ)
    (route : Route K F) (host : P) (index : ℤ) :
    (index = 0 ∧ route.waypoints ≠ [] ∧
      w.FrontAdded (w.startRouteAtIndex geo ref route host index).1 ref route) ∨
    (¬ (index = 0 ∧ route.waypoints ≠ []) ∧
      w.SameRoutes (w.startRouteAtIndex geo ref route host index).1) := by
  have hkept : ∀ v r i, w.joinRoute geo ref route host index = some (v, r, i) →
      v.SameRoutes (w.startRouteAtIndex geo ref route host index).1 := by
    intro v r i hjoin
    unfold startRouteAtIndex
    simp only [hjoin]
    split
    · exact ⟨rfl, rfl⟩
    · split
      · exact ⟨rfl, rfl⟩
      · exact SameRoutes.trans ⟨rfl, rfl⟩ (handleEvent_sameRoutes _ _)
  cases hjoin : w.joinRoute geo ref route host index with
  | none =>
    right
    have hnone := (joinRoute_eq_none_iff geo w ref route host index).mp hjoin
    refine ⟨?_, ?_⟩
    · rintro ⟨hzero, hwps⟩
      rcases hnone with hminus | ⟨_, hnil⟩
      · omega
      · exact hwps hnil
    · unfold startRouteAtIndex
      rw [hjoin]
      exact ⟨rfl, rfl⟩
  | some joined =>
    obtain ⟨v, r, i⟩ := joined
    obtain ⟨hroutes, havailable⟩ := hkept v r i hjoin
    unfold joinRoute at hjoin
    split_ifs at hjoin with hzero hminus
    · left
      split at hjoin
      · cases hjoin
      · rename_i first hfirst
        split at hjoin
        · cases hjoin
        · rename_i hins
          cases hjoin
          refine ⟨hzero, ?_, r, insertWaypoint_longer geo hins, hroutes, havailable⟩
          intro hnil
          rw [hnil] at hfirst
          cases hfirst
    · right
      cases hjoin
      exact ⟨fun h => hzero h.1, hroutes, havailable⟩

/-- A call of `startActiveRoute` that puts a waypoint into the active route. -/
def JoinsInFront (geo : Geodesy K P F) (w : RouteWorker K P F) (ref : ℕ) (route : Route K F) :
    Prop :=
  w.state ≠ .FOLLOWING_ROUTE ∧ w.active = some (ref, route) ∧ route.waypoints ≠ [] ∧
    ∃ host ∈ w.hostVehicleInECEF, InFrontOf geo route host

/-- A start that gets to its last check leaves what `startRouteAtIndex` leaves. -/
theorem startActiveRoute_run (geo : Geodesy K P F) {w : RouteWorker K P F} {ref : ℕ}
    {route : Route K F} {host : P} (hactive : w.active = some (ref, route))
    (hstate : w.state ≠ .FOLLOWING_ROUTE) (hhost : w.hostVehicleInECEF = some host)
    (hvalid : getValidStartingWPIndex geo route host ≠ -1) :
    (w.startActiveRoute geo).1 =
      (w.startRouteAtIndex geo ref route host (getValidStartingWPIndex geo route host)).1 := by
  unfold startActiveRoute
  simp only [hactive, if_neg hstate, hhost, if_neg hvalid]
  split <;> rename_i hrun <;> rw [hrun]

theorem startActiveRoute_routes (geo : Geodesy K P F) (w : RouteWorker K P F) :
    (∃ ref route, w.JoinsInFront geo ref route ∧
      w.FrontAdded (w.startActiveRoute geo).1 ref route) ∨
    ((∀ ref route, ¬ w.JoinsInFront geo ref route) ∧
      w.SameRoutes (w.startActiveRoute geo).1) := by
  unfold JoinsInFront
  cases hactive : w.active with
  | none => exact Or.inr ⟨by simp, by simp [startActiveRoute, hactive, SameRoutes]⟩
  | some kept =>
    obtain ⟨ref, route⟩ := kept
    by_cases hstate : w.state = .FOLLOWING_ROUTE
    · exact Or.inr ⟨fun _ _ h => h.1 hstate,
        by simp [startActiveRoute, hactive, hstate, SameRoutes]⟩
    · cases hhost : w.hostVehicleInECEF with
      | none =>
        exact Or.inr ⟨by simp, by simp [startActiveRoute, hactive, hstate, hhost, SameRoutes]⟩
      | some host =>
        have hfront := getValidStartingWPIndex_eq_zero_iff geo route host
        by_cases hminus : getValidStartingWPIndex geo route host = -1
        · refine Or.inr ⟨?_, by
            simp [startActiveRoute, hactive, hstate, hhost, hminus, SameRoutes]⟩
          rintro r t ⟨_, hact, _, h, hh, hin⟩
          cases hact
          cases hh
          have hzero := hfront.mpr hin
          omega
        · rw [startActiveRoute_run geo hactive hstate hhost hminus]
          rcases startRouteAtIndex_routes geo w ref route host
            (getValidStartingWPIndex geo route host) with ⟨hzero, hwps, hadded⟩ | ⟨hno, hsame⟩
          · exact Or.inl ⟨ref, route, ⟨hstate, rfl, hwps, host, rfl, hfront.mp hzero⟩, hadded⟩
          · refine Or.inr ⟨?_, hsame⟩
            rintro r t ⟨_, hact, hwps, h, hh, hin⟩
            cases hact
            cases hh
            exact hno ⟨hfront.mpr hin, hwps⟩

/-! ## One call -/

omit [LinearOrder K] [FloorRing K] in
/-- A route that is loaded goes behind the others, and is the one of its name. -/
theorem loadAdditionalRoute_routes (w : RouteWorker K P F) (loaded : Option (Route K F)) :
    w.SameRoutes (w.loadAdditionalRoute loaded) ∨
    ∃ route : Route K F, (w.loadAdditionalRoute loaded).routes = w.routes ++ [route] ∧
      (w.loadAdditionalRoute loaded).availableRoutes =
        (route.routeName, w.routes.length) ::
          w.availableRoutes.filter (·.1 ≠ route.routeName) := by
  cases loaded with
  | none => exact Or.inl ⟨rfl, rfl⟩
  | some route => exact Or.inr ⟨{ route with routeID := route.routeName }, rfl, rfl⟩

/-- All that a call can do to the stored routes. -/
theorem call_routes (geo : Geodesy K P F) (w : RouteWorker K P F) (c : Call K P F) :
    (w.SameRoutes (w.call geo c) ∧
      (c = .startActiveRoute → ∀ ref route, ¬ w.JoinsInFront geo ref route)) ∨
    (c ≠ .startActiveRoute ∧ ∃ route : Route K F, (w.call geo c).routes = w.routes ++ [route] ∧
      (w.call geo c).availableRoutes = (route.routeName, w.routes.length) ::
        w.availableRoutes.filter (·.1 ≠ route.routeName)) ∨
    (c = .startActiveRoute ∧ ∃ ref route, w.JoinsInFront geo ref route ∧
      w.FrontAdded (w.call geo c) ref route) := by
  cases c with
  | loadAdditionalRoute loaded =>
    rcases w.loadAdditionalRoute_routes loaded with hsame | hadded
    · exact Or.inl ⟨hsame, nofun⟩
    · exact Or.inr (Or.inl ⟨nofun, hadded⟩)
  | setActiveRoute routeID => exact Or.inl ⟨setActiveRoute_sameRoutes w routeID, nofun⟩
  | startActiveRoute =>
    rcases startActiveRoute_routes geo w with hadded | ⟨hno, hsame⟩
    · exact Or.inr (Or.inr ⟨rfl, hadded⟩)
    · exact Or.inl ⟨hsame, fun _ => hno⟩
  | abortActiveRoute => exact Or.inl ⟨abortActiveRoute_sameRoutes w, nofun⟩
  | loop earthToHostVehicle => exact Or.inl ⟨loop_sameRoutes geo w earthToHostVehicle, nofun⟩
  | handleSystemAlertMsg type => exact Or.inl ⟨handleSystemAlertMsg_sameRoutes w type, nofun⟩

end RouteWorker

/-! ## Runs -/

/-- A worker, and the routes as they were when they came in. -/
structure Stores (K P F : Type) where
  worker : RouteWorker K P F
  loaded : List (Route K F)

namespace Stores

variable {K P F : Type} [LinearOrder K] [Field K] [FloorRing K]

def new (requiredLeftRouteCount : ℤ) : Stores K P F where
  worker := .new requiredLeftRouteCount
  loaded := []

def call (geo : Geodesy K P F) (s : Stores K P F) (c : RouteWorker.Call K P F) : Stores K P F where
  worker := s.worker.call geo c
  loaded := s.loaded ++ (s.worker.call geo c).routes.drop s.worker.routes.length

/-- Each route that can be selected has the waypoints and the segments it was loaded with. -/
def Kept (s : Stores K P F) : Prop :=
  ∀ entry ∈ s.worker.availableRoutes, ∃ route ∈ s.worker.routes[entry.2]?,
    ∃ first ∈ s.loaded[entry.2]?,
      route.waypoints = first.waypoints ∧ route.segments = first.segments

/-- The call does not start a stored route from in front of its first waypoint. -/
def LeavesRoutes (geo : Geodesy K P F) (s : Stores K P F) (c : RouteWorker.Call K P F) : Prop :=
  c = .startActiveRoute → ∀ ref route, s.worker.JoinsInFront geo ref route →
    ref ∉ s.worker.availableRoutes.map Prod.snd

omit [LinearOrder K] [Field K] [FloorRing K] in
theorem kept_congr {s s' : Stores K P F} (h : s.Kept)
    (hroutes : s.worker.SameRoutes s'.worker) (hloaded : s'.loaded = s.loaded) : s'.Kept := by
  unfold Kept
  rw [hroutes.1, hroutes.2, hloaded]
  exact h

theorem length_call (geo : Geodesy K P F) {s : Stores K P F} (c : RouteWorker.Call K P F)
    (h : s.worker.routes.length = s.loaded.length) :
    (s.call geo c).worker.routes.length = (s.call geo c).loaded.length := by
  simp only [call, List.length_append, List.length_drop]
  rcases RouteWorker.call_routes geo s.worker c with
    ⟨hsame, _⟩ | ⟨_, route, hroutes, _⟩ | ⟨_, ref, route, _, longer, _, hroutes, _⟩
  · rw [hsame.1]
    omega
  · rw [hroutes, List.length_append]
    omega
  · rw [hroutes, List.length_set]
    omega

/-- A route that is loaded is kept as it came in, and the others as they were. -/
theorem kept_added (geo : Geodesy K P F) {s : Stores K P F} {c : RouteWorker.Call K P F}
    (hlen : s.worker.routes.length = s.loaded.length) (h : s.Kept) {route : Route K F}
    (hroutes : (s.worker.call geo c).routes = s.worker.routes ++ [route])
    (havailable : (s.worker.call geo c).availableRoutes =
      (route.routeName, s.worker.routes.length) ::
        s.worker.availableRoutes.filter (·.1 ≠ route.routeName)) : (s.call geo c).Kept := by
  have hloaded : (s.call geo c).loaded = s.loaded ++ [route] := by simp [call, hroutes]
  unfold Kept
  rw [hloaded]
  simp only [call, hroutes, havailable, List.forall_mem_cons]
  constructor
  · exact ⟨route, by simp, route, by simp [hlen], rfl, rfl⟩
  · intro entry hentry
    obtain ⟨kept, hkept, first, hfirst, hsame⟩ := h entry (List.mem_of_mem_filter hentry)
    have hlt := (List.getElem?_eq_some_iff.mp hkept).1
    have hlt' := (List.getElem?_eq_some_iff.mp hfirst).1
    exact ⟨kept, by rw [List.getElem?_append_left hlt]; exact hkept,
      first, by rw [List.getElem?_append_left hlt']; exact hfirst, hsame⟩

theorem kept_front_iff (geo : Geodesy K P F) {s : Stores K P F} (h : s.Kept) {ref : ℕ}
    {route : Route K F} (hroute : s.worker.routes[ref]? = some route)
    (hfront : s.worker.FrontAdded (s.worker.call geo .startActiveRoute) ref route) :
    (s.call geo .startActiveRoute).Kept ↔ ref ∉ s.worker.availableRoutes.map Prod.snd := by
  obtain ⟨longer, hlonger, hroutes, havailable⟩ := hfront
  have hloaded : (s.call geo .startActiveRoute).loaded = s.loaded := by simp [call, hroutes]
  have hlt := (List.getElem?_eq_some_iff.mp hroute).1
  constructor
  · intro hkept hlisted
    -- the longer route is still listed, under the waypoints that it had
    obtain ⟨entry, hentry, hentryref⟩ := List.mem_map.mp hlisted
    obtain ⟨old, hold, first, hfirst, hwps, _⟩ := h entry hentry
    obtain ⟨now, hnow, first', hfirst', hwps', _⟩ :=
      hkept entry (by simp only [call, havailable]; exact hentry)
    simp only [call, hroutes, hentryref, List.getElem?_set_self hlt] at hnow
    rw [hloaded] at hfirst'
    rw [hentryref] at hold hfirst hfirst'
    cases hroute.symm.trans hold
    cases hfirst.symm.trans hfirst'
    cases hnow
    have hsame : longer.waypoints.length = route.waypoints.length := by
      rw [hwps', hwps]
    omega
  · intro hleaves entry hentry
    simp only [call, havailable] at hentry
    have hne : ref ≠ entry.2 := by
      rintro rfl
      exact hleaves (List.mem_map_of_mem hentry)
    obtain ⟨old, hold, first, hfirst, hsame⟩ := h entry hentry
    refine ⟨old, ?_, first, by rw [hloaded]; exact hfirst, hsame⟩
    simp only [call, hroutes, List.getElem?_set_ne hne]
    exact hold

/-- A call keeps the stored routes unless it starts one of them from in front. -/
theorem kept_call_iff (geo : Geodesy K P F) {s : Stores K P F} (c : RouteWorker.Call K P F)
    (hlen : s.worker.routes.length = s.loaded.length) (h : s.Kept) :
    (s.call geo c).Kept ↔ s.LeavesRoutes geo c := by
  rcases RouteWorker.call_routes geo s.worker c with
    ⟨hsame, hno⟩ | ⟨hne, route, hroutes, havailable⟩ | ⟨rfl, ref, route, hjoins, hfront⟩
  · apply iff_of_true
    · apply kept_congr h hsame
      simp [call, hsame.1]
    · intro hc ref route hjoins
      exact absurd hjoins (hno hc ref route)
  · apply iff_of_true
    · exact kept_added geo hlen h hroutes havailable
    · exact fun hc => absurd hc hne
  · obtain ⟨_, hroute⟩ := (RouteWorker.active_eq_some_iff _ _ _).mp hjoins.2.1
    rw [kept_front_iff geo h hroute hfront]
    constructor
    · intro hunlisted _ ref' route' hjoins'
      cases hjoins.2.1.symm.trans hjoins'.2.1
      exact hunlisted
    · intro hleaves
      exact hleaves rfl ref route hjoins

/-- In every run the stored routes stay as they were loaded just when no call starts one
of them from in front of its first waypoint. -/
theorem stored_routes_stay_unless_started_from_in_front (geo : Geodesy K P F)
    (requiredLeftRouteCount : ℤ) (calls : List (RouteWorker.Call K P F)) :
    (∀ s ∈ lib.runs.states (call geo) (new requiredLeftRouteCount) calls, s.Kept) ↔
      EachCall (call geo) (LeavesRoutes geo) (new requiredLeftRouteCount) calls := by
  refine states_iff
    (I := fun s : Stores K P F => s.worker.routes.length = s.loaded.length)
    (fun s c hlen (_ : True) => length_call geo c hlen)
    (fun s c hlen _ h => kept_call_iff geo c hlen h) rfl ?_ (fun _ _ => trivial)
  intro entry hentry
  cases hentry

/-- The vehicle starts from in front of the first waypoint, stops and selects the route
again. -/
def startInFront : List (RouteWorker.Call ℚ ℚ ℚ) :=
  [.loadAdditionalRoute (some (newRoute flatEarth
      [flatWaypoint 0 0, flatWaypoint 10 0, flatWaypoint 20 0] "" "road")),
    .setActiveRoute "road", .loop (some (-5)), .startActiveRoute, .abortActiveRoute,
    .setActiveRoute "road"]

/-- The route that is selected again has one waypoint more than the one that was loaded. -/
theorem a_route_started_from_in_front_grows :
    ¬ ∀ calls : List (RouteWorker.Call ℚ ℚ ℚ),
      ∀ s ∈ lib.runs.states (call flatEarth) (new 3) calls, s.Kept := by
  intro h
  have hlast : run (call flatEarth) (new 3) startInFront ∈
      lib.runs.states (call flatEarth) (new 3) startInFront := by
    simp [startInFront, lib.runs.states]
  obtain ⟨route, hroute, first, hfirst, hwps, _⟩ :=
    h startInFront _ hlast ("road", 0) (by decide +kernel)
  have hnow : ((run (call flatEarth) (new 3) startInFront).worker.routes[0]?).map
      (fun r => r.waypoints.length) = some 4 := by decide +kernel
  have hthen : ((run (call flatEarth) (new 3) startInFront).loaded[0]?).map
      (fun r => r.waypoints.length) = some 3 := by decide +kernel
  rw [hroute, Option.map_some, hwps] at hnow
  rw [hfirst, Option.map_some] at hthen
  exact absurd (hnow.symm.trans hthen) (by decide)

end Stores

end carma.route_node
