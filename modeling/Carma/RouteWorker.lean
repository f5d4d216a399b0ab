-- The worker of the route node: it loads routes, selects, starts and aborts one, and
-- follows the vehicle along it. The functions are those of `RouteWorker`, less what
-- they log and publish.
import Carma.RouteBuilding

open lib.exact_double

namespace carma.route_node

/-! ## States and events -/

inductive WorkerState where
  | LOADING_ROUTES
  | ROUTE_SELECTION
  | WAITING_TO_START
  | FOLLOWING_ROUTE
deriving DecidableEq

inductive WorkerEvent where
  | FILES_LOADED
  | ROUTE_SELECTED
  | ROUTE_COMPLETED
  | LEFT_ROUTE
  | SYSTEM_FAILURE
  | SYSTEM_NOT_READY
  | ROUTE_STARTED
  | ROUTE_ABORTED
deriving DecidableEq

def states : List WorkerState :=
  [.LOADING_ROUTES, .ROUTE_SELECTION, .WAITING_TO_START, .FOLLOWING_ROUTE]

def WorkerState.index : WorkerState → ℕ
  | .LOADING_ROUTES => 0
  | .ROUTE_SELECTION => 1
  | .WAITING_TO_START => 2
  | .FOLLOWING_ROUTE => 3

/-- A row of `transition`: the next state, by the state before. -/
def row : WorkerEvent → List ℕ
  | .FILES_LOADED => [1, 1, 2, 3]
  | .ROUTE_SELECTED => [0, 2, 2, 2]
  | .ROUTE_COMPLETED => [0, 1, 1, 1]
  | .LEFT_ROUTE => [0, 1, 1, 1]
  | .SYSTEM_FAILURE => [0, 1, 1, 1]
  | .SYSTEM_NOT_READY => [0, 1, 1, 1]
  | .ROUTE_STARTED => [0, 1, 3, 3]
  | .ROUTE_ABORTED => [0, 1, 1, 1]

def transition (event : WorkerEvent) (state : WorkerState) : WorkerState :=
  states.getD ((row event).getD state.index 0) .LOADING_ROUTES

inductive StartActiveRouteResponse where
  | NO_ERROR
  | NO_ACTIVE_ROUTE
  | INVALID_STARTING_LOCATION
  | ALREADY_FOLLOWING_ROUTE
  | INTERNAL_ERROR
deriving DecidableEq

inductive SystemAlert where
  | CAUTION
  | WARNING
  | FATAL
  | NOT_READY
  | DRIVERS_READY
  | SHUTDOWN
deriving DecidableEq

/-! ## The worker -/

/-- `RouteWorker`. The routes are objects that `availableRoutes` and `activeRoute`
refer to by their place in `routes`. -/
structure RouteWorker (K P F : Type) where
  state : WorkerState
  routes : List (Route K F)
  activeRoute : Option ℕ
  availableRoutes : List (String × ℕ)
  currentSegment : Option (RouteSegment K F)
  currentSegmentIndex : ℤ
  currentWaypointIndex : ℤ
  downtrackDistance : K
  crossTrackDistance : K
  systemOkay : Bool
  requiredLeftRouteCount : ℤ
  recievedLeftRouteEvents : ℤ
  currentSegmentDowntrack : K
  currentLane : ℤ
  laneChangeCount : ℤ
  hostVehicleInECEF : Option P

namespace RouteWorker

variable {K P F : Type} [LinearOrder K] [Field K] [FloorRing K]

def new (requiredLeftRouteCount : ℤ) : RouteWorker K P F where
  state := .LOADING_ROUTES
  routes := []
  activeRoute := none
  availableRoutes := []
  currentSegment := none
  currentSegmentIndex := 0
  currentWaypointIndex := 0
  downtrackDistance := 0
  crossTrackDistance := 0
  systemOkay := false
  requiredLeftRouteCount := requiredLeftRouteCount
  recievedLeftRouteEvents := 0
  currentSegmentDowntrack := 0
  currentLane := 0
  laneChangeCount := 0
  hostVehicleInECEF := none

def active (w : RouteWorker K P F) : Option (ℕ × Route K F) := do
  let ref ← w.activeRoute
  let route ← w.routes[ref]?
  pure (ref, route)

def resetRouteStateVariables (w : RouteWorker K P F) : RouteWorker K P F :=
  { w with
    activeRoute := none
    currentSegment := none
    currentSegmentIndex := 0
    currentWaypointIndex := 0
    downtrackDistance := 0
    crossTrackDistance := 0
    recievedLeftRouteEvents := 0
    currentSegmentDowntrack := 0
    currentLane := 0
    laneChangeCount := 0 }

def next (w : RouteWorker K P F) (event : WorkerEvent) : RouteWorker K P F :=
  { w with state := transition event w.state }

def handleEvent (w : RouteWorker K P F) (event : WorkerEvent) : RouteWorker K P F :=
  match event with
  | .LEFT_ROUTE => { w with recievedLeftRouteEvents := 0 }.next event
  | .ROUTE_ABORTED => w.resetRouteStateVariables.next event
  | _ => w.next event

/-! ## Loading and selecting -/

/-- `loadAdditionalRoute`. `loaded` is what the strategy gives, and a route that
comes in replaces the one of its name in the map. -/
def loadAdditionalRoute (w : RouteWorker K P F) (loaded : Option (Route K F)) :
    RouteWorker K P F :=
  match loaded with
  | none => w
  | some route =>
    { w with
      routes := w.routes ++ [{ route with routeID := route.routeName }]
      availableRoutes := (route.routeName, w.routes.length) ::
        w.availableRoutes.filter (·.1 ≠ route.routeName) }.handleEvent .FILES_LOADED

/-- `setActiveRoute`. The answer says whether there is such a route. -/
def setActiveRoute (w : RouteWorker K P F) (routeID : String) : RouteWorker K P F × Bool :=
  match w.availableRoutes.lookup routeID with
  | none => (w, false)
  | some ref =>
    ({ w.resetRouteStateVariables with activeRoute := some ref }.handleEvent .ROUTE_SELECTED, true)

/-! ## Starting -/

def withinCrossTrack (geo : Geodesy K P F) (seg : RouteSegment K F) (host : P) : Bool :=
  decide (seg.downtrackWP.minCrossTrack < seg.crossTrackDistance geo host) &&
    decide (seg.crossTrackDistance geo host < seg.downtrackWP.maxCrossTrack)

def validStartingWPIndex (geo : Geodesy K P F) (maxJoinDistance : K) (host : P) :
    ℤ → List (RouteSegment K F) → ℤ
  | _, [] => -1
  | count, seg :: segs =>
    let downTrack := seg.downTrackDistance geo host
    if 0 ≤ downTrack ∧ downTrack ≤ seg.length ∧ withinCrossTrack geo seg host then count + 1
    else if count = 0 ∧ downTrack < 0 ∧ |downTrack| < maxJoinDistance ∧
        withinCrossTrack geo seg host then count
    else validStartingWPIndex geo maxJoinDistance host (count + 1) segs

def getValidStartingWPIndex (geo : Geodesy K P F) (route : Route K F) (host : P) : ℤ :=
  validStartingWPIndex geo route.maxJoinDistance host 0 route.segments

/-- The waypoint that is put in where the vehicle is: like the first, but for its place. -/
def startingWaypoint (geo : Geodesy K P F) (downtrackWP : RouteWaypoint K) (host : P) :
    RouteWaypoint K :=
  { downtrackWP.copy with location := geo.cartesian2Geodesic host }

/-- The first part of `startRouteAtIndex`: the index to start at, once the waypoint of
a vehicle in front of the route is put in. None where it answers false. -/
def joinRoute (geo : Geodesy K P F) (w : RouteWorker K P F) (ref : ℕ) (route : Route K F) (host : P)
    (index : ℤ) : Option (RouteWorker K P F × Route K F × ℤ) :=
  if index = 0 then
    match route.waypoints.head? with
    | none => none
    | some downtrackWP =>
      match route.insertWaypoint geo (startingWaypoint geo downtrackWP host) 0 with
      | .error _ => none
      | .ok route => some ({ w with routes := w.routes.set ref route }, route, 1)
  else if index = -1 then none
  else some (w, route, index)

/-- `startRouteAtIndex`, with its answer, none where it throws. -/
def startRouteAtIndex (geo : Geodesy K P F) (w : RouteWorker K P F) (ref : ℕ) (route : Route K F)
    (host : P) (index : ℤ) : RouteWorker K P F × Option Bool :=
  match w.joinRoute geo ref route host index with
  | none => (w, some false)
  | some (w, route, index) =>
    let w := { w with currentSegmentIndex := index - 1 }
    match route.getSegment w.currentSegmentIndex with
    | none => (w, none)
    | some seg =>
      let w := { w with currentSegment := some seg, currentWaypointIndex := index }
      match route.lengthOfSegments 0 (w.currentSegmentIndex - 1) with
      | none => (w, none)
      | some before =>
        let crossTrackDistance := seg.crossTrackDistance geo host
        ({ w with
          downtrackDistance := max 0 (before + seg.downTrackDistance geo host)
          crossTrackDistance := crossTrackDistance
          currentLane := seg.toGuidance.determinePrimaryLane crossTrackDistance }.handleEvent
            .ROUTE_STARTED, some true)

/-- `startActiveRoute`, with its answer, none where it throws. -/
def startActiveRoute (geo : Geodesy K P F) (w : RouteWorker K P F) :
    RouteWorker K P F × Option StartActiveRouteResponse :=
  match w.active with
  | none => (w, some .NO_ACTIVE_ROUTE)
  | some (ref, route) =>
    if w.state = .FOLLOWING_ROUTE then (w, some .ALREADY_FOLLOWING_ROUTE)
    else
      match w.hostVehicleInECEF with
      | none => (w, some .INVALID_STARTING_LOCATION)
      | some host =>
        let startingIndex := getValidStartingWPIndex geo route host
        if startingIndex = -1 then (w, some .INVALID_STARTING_LOCATION)
        else
          match w.startRouteAtIndex geo ref route host startingIndex with
          | (w, none) => (w, none)
          | (w, some true) => (w, some .NO_ERROR)
          | (w, some false) => (w, some .INTERNAL_ERROR)

/-- `abortActiveRoute`. The answer says whether there was a route. -/
def abortActiveRoute (w : RouteWorker K P F) : RouteWorker K P F × Bool :=
  match w.active with
  | none => (w, false)
  | some _ => (w.handleEvent .ROUTE_ABORTED, true)

/-! ## Following -/

/-- How the loop to the current segment ends. -/
inductive Advance (K P F : Type) where
  | onSegment (w : RouteWorker K P F)
  | completed (w : RouteWorker K P F)
  | threw (w : RouteWorker K P F)
  | running (w : RouteWorker K P F)

def atNextSegment (geo : Geodesy K P F) (seg : RouteSegment K F) (host : P) : Bool :=
  decide (seg.length < seg.downTrackDistance geo host)

/-- The loop of `updateRouteProgress`, for at most so many turns. -/
def advance (geo : Geodesy K P F) (route : Route K F) (host : P) :
    ℕ → RouteWorker K P F → Advance K P F
  | 0, w => .running w
  | turns + 1, w =>
    match w.currentSegment with
    | none => .threw w
    | some seg =>
      if atNextSegment geo seg host then
        let w := { w with
          currentSegmentIndex := w.currentSegmentIndex + 1
          currentWaypointIndex := w.currentWaypointIndex + 1 }
        if (route.segments.length : ℤ) ≤ w.currentSegmentIndex then
          .completed ({ w with
            currentSegmentIndex := w.currentSegmentIndex - 1
            currentWaypointIndex := w.currentWaypointIndex - 1 }.handleEvent .ROUTE_COMPLETED)
        else
          match route.getSegment w.currentSegmentIndex with
          | none => .threw w
          | some seg => advance geo route host turns { w with currentSegment := some seg }
      else .onSegment w

/-- Enough turns for the loop to end. -/
def turnsLeft (w : RouteWorker K P F) (route : Route K F) : ℕ :=
  (route.segments.length - w.currentSegmentIndex).toNat + 1

def leftRouteVicinity (seg : RouteSegment K F) (crossTrackDistance : K) : Bool :=
  decide (crossTrackDistance < seg.downtrackWP.minCrossTrack) ||
    decide (seg.downtrackWP.maxCrossTrack < crossTrackDistance)

def updateLane (w : RouteWorker K P F) (tempLane : ℤ) : RouteWorker K P F :=
  if tempLane ≠ w.currentLane then
    if w.laneChangeCount ≥ w.requiredLeftRouteCount then
      { w with currentLane := tempLane, laneChangeCount := 0 }
    else { w with laneChangeCount := w.laneChangeCount + 1 }
  else { w with laneChangeCount := 0 }

/-- The check of `updateRouteProgress` on whether the route was left. -/
def checkVicinity (w : RouteWorker K P F) (seg : RouteSegment K F) : RouteWorker K P F :=
  if leftRouteVicinity seg w.crossTrackDistance then
    let w := { w with recievedLeftRouteEvents := w.recievedLeftRouteEvents + 1 }
    if w.recievedLeftRouteEvents ≥ w.requiredLeftRouteCount then w.handleEvent .LEFT_ROUTE else w
  else { w with recievedLeftRouteEvents := 0 }

/-- `updateRouteProgress` after its loop. -/
def updateDistances (geo : Geodesy K P F) (w : RouteWorker K P F) (route : Route K F) (host : P) :
    RouteWorker K P F :=
  match w.currentSegment with
  | none => w
  | some seg =>
    let w := { w with currentSegmentDowntrack := seg.downTrackDistance geo host }
    match route.lengthOfSegments 0 (w.currentSegmentIndex - 1) with
    | none => w
    | some before =>
      let crossTrackDistance := seg.crossTrackDistance geo host
      let w := { w with
        downtrackDistance := max 0 (before + w.currentSegmentDowntrack)
        crossTrackDistance := crossTrackDistance }
      (w.updateLane (seg.toGuidance.determinePrimaryLane crossTrackDistance)).checkVicinity seg

/-- `updateRouteProgress`. The turns that are left are enough for the loop to end, and
where it throws the worker stays as it is then. -/
def updateRouteProgress (geo : Geodesy K P F) (w : RouteWorker K P F) (route : Route K F)
    (host : P) : RouteWorker K P F :=
  match advance geo route host (w.turnsLeft route) w with
  | .onSegment w => w.updateDistances geo route host
  | .completed w => w
  | .threw w => w
  | .running w => w

/-- `loop`. `earthToHostVehicle` is where the vehicle is, if there is a transform. -/
def loop (geo : Geodesy K P F) (w : RouteWorker K P F) (earthToHostVehicle : Option P) :
    RouteWorker K P F :=
  match earthToHostVehicle with
  | none => w
  | some host =>
    let w := { w with hostVehicleInECEF := some host }
    if w.state ≠ .FOLLOWING_ROUTE then w
    else
      match w.active with
      | none => w
      | some (_, route) => w.updateRouteProgress geo route host

def handleSystemAlertMsg (w : RouteWorker K P F) (type : SystemAlert) : RouteWorker K P F :=
  match type with
  | .FATAL => w.handleEvent .SYSTEM_FAILURE
  | .NOT_READY => w.handleEvent .SYSTEM_NOT_READY
  | .DRIVERS_READY => { w with systemOkay := true }
  | _ => w

/-! ## Calls -/

inductive Call (K P F : Type) where
  | loadAdditionalRoute (loaded : Option (Route K F))
  | setActiveRoute (routeID : String)
  | startActiveRoute
  | abortActiveRoute
  | loop (earthToHostVehicle : Option P)
  | handleSystemAlertMsg (type : SystemAlert)

def call (geo : Geodesy K P F) (w : RouteWorker K P F) : Call K P F → RouteWorker K P F
  | .loadAdditionalRoute loaded => w.loadAdditionalRoute loaded
  | .setActiveRoute routeID => (w.setActiveRoute routeID).1
  | .startActiveRoute => (w.startActiveRoute geo).1
  | .abortActiveRoute => w.abortActiveRoute.1
  | .loop earthToHostVehicle => w.loop geo earthToHostVehicle
  | .handleSystemAlertMsg type => w.handleSystemAlertMsg type

end RouteWorker

end carma.route_node
