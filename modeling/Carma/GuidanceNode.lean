-- The guidance node: the state machine, the ten components that follow it
-- through their job queues, and the handler that turns messages into events.
-- The functions are those of `GuidanceStateMachine`, `GuidanceComponent`,
-- `GuidanceStateHandler` and of the components' `onStateChange`.
import Mathlib.Logic.Function.Basic
import Carma.Lib.Runs

open lib.runs

namespace carma.guidance_node

/-! ## The state machine -/

inductive GuidanceState
  | STARTUP
  | DRIVERS_READY
  | ACTIVE
  | INACTIVE
  | ENGAGED
  | SHUTDOWN
deriving DecidableEq, Repr

inductive GuidanceEvent
  | FOUND_DRIVERS
  | ACTIVATE
  | START_ROUTE
  | FINISH_ROUTE
  | LEFT_ROUTE
  | DISENGAGE
  | ROBOT_DISABLED
  | PANIC
  | SHUTDOWN
deriving DecidableEq, Repr

inductive GuidanceAction
  | INTIALIZE
  | ACTIVATE
  | ENGAGE
  | DEACTIVATE
  | SHUTDOWN
  | PANIC_SHUTDOWN
  | RESTART
deriving DecidableEq, Repr

/-- The switch of `processEvent`: the new state and the action, where the event is one
that the old state handles. -/
def transition : GuidanceState → GuidanceEvent → GuidanceState × Option GuidanceAction
  | _, .PANIC => (.SHUTDOWN, some .PANIC_SHUTDOWN)
  | _, .SHUTDOWN => (.SHUTDOWN, some .SHUTDOWN)
  | .STARTUP, .FOUND_DRIVERS => (.DRIVERS_READY, some .INTIALIZE)
  | .DRIVERS_READY, .ACTIVATE => (.ACTIVE, some .ACTIVATE)
  | .ACTIVE, .START_ROUTE => (.ENGAGED, some .ENGAGE)
  | .ACTIVE, .LEFT_ROUTE => (.DRIVERS_READY, some .RESTART)
  | .ACTIVE, .DISENGAGE => (.DRIVERS_READY, some .RESTART)
  | .ACTIVE, .FINISH_ROUTE => (.DRIVERS_READY, some .RESTART)
  | .INACTIVE, .START_ROUTE => (.ENGAGED, some .ENGAGE)
  | .INACTIVE, .LEFT_ROUTE => (.DRIVERS_READY, some .RESTART)
  | .INACTIVE, .DISENGAGE => (.DRIVERS_READY, some .RESTART)
  | .INACTIVE, .FINISH_ROUTE => (.DRIVERS_READY, some .RESTART)
  | .ENGAGED, .ROBOT_DISABLED => (.INACTIVE, some .DEACTIVATE)
  | .ENGAGED, .LEFT_ROUTE => (.DRIVERS_READY, some .RESTART)
  | .ENGAGED, .DISENGAGE => (.DRIVERS_READY, some .RESTART)
  | .ENGAGED, .FINISH_ROUTE => (.DRIVERS_READY, some .RESTART)
  | s, _ => (s, none)

/-- The action that the listeners are given: none where the state is the old one. -/
def actionOf (s : GuidanceState) (e : GuidanceEvent) : Option GuidanceAction :=
  if (transition s e).1 = s then none else (transition s e).2

/-! ## The components -/

/-- The components in the order in which they are built, which is the order in which the
machine tells them. -/
inductive Component
  | stateHandler
  | maneuverInputs
  | guidanceCommands
  | tracking
  | trajectoryExecutor
  | lightBarManager
  | vehicleAwareness
  | router
  | pluginManager
  | arbitrator
deriving DecidableEq, Repr

inductive Job
  | onStartup
  | onSystemReady
  | onActive
  | onEngaged
  | onCleanRestart
  | onDeactivate
  | onShutdown
  | onPanic
deriving DecidableEq, Repr

/-- The jobs that a constructor puts into the queue. The light bar, the awareness of the
vehicle and the router put none. -/
def startJobs : Component → List Job
  | .lightBarManager | .vehicleAwareness | .router => []
  | _ => [.onStartup]

/-- `onStateChange`: the jobs that a component posts to itself. -/
def onStateChange : Component → GuidanceAction → List Job
  | .vehicleAwareness, .INTIALIZE | .router, .INTIALIZE => [.onStartup, .onSystemReady]
  | _, .INTIALIZE => [.onSystemReady]
  | _, .ACTIVATE => [.onActive]
  | _, .DEACTIVATE => [.onDeactivate]
  | _, .ENGAGE => [.onEngaged]
  | _, .SHUTDOWN => [.onShutdown]
  | _, .RESTART => [.onCleanRestart]
  | _, .PANIC_SHUTDOWN => [.onPanic]

/-- Whether the jobs of a component write its copy of the state. The others write it only
when they shut down. -/
def keepsState : Component → Bool
  | .lightBarManager | .vehicleAwareness | .router => false
  | _ => true

/-- Whether a job ends the component. -/
def Job.isShutdown : Job → Bool
  | .onShutdown | .onPanic => true
  | _ => false

/-- The state that a job writes. -/
def Job.state : Job → GuidanceState
  | .onStartup => .STARTUP
  | .onSystemReady => .DRIVERS_READY
  | .onActive => .ACTIVE
  | .onEngaged => .ENGAGED
  | .onCleanRestart => .DRIVERS_READY
  | .onDeactivate => .INACTIVE
  | .onShutdown => .SHUTDOWN
  | .onPanic => .SHUTDOWN

/-- A component's copy of the state after a job. -/
def afterJob (c : Component) (s : GuidanceState) (j : Job) : GuidanceState :=
  if keepsState c || j.isShutdown then j.state else s

/-- `GuidanceComponent`, with the thread that runs the jobs. Its queue is that of the jobs which
follow the machine: the arbitrator posts jobs for its planning between them. -/
structure GuidanceComponent where
  currentState : GuidanceState
  jobQueue : List Job
  looping : Bool

namespace GuidanceComponent

/-- Put jobs at the end of the queue. -/
def post (w : GuidanceComponent) (jobs : List Job) : GuidanceComponent :=
  { w with jobQueue := w.jobQueue ++ jobs }

@[simp] theorem post_jobQueue (w : GuidanceComponent) (jobs : List Job) :
    (w.post jobs).jobQueue = w.jobQueue ++ jobs := rfl

@[simp] theorem post_currentState (w : GuidanceComponent) (jobs : List Job) :
    (w.post jobs).currentState = w.currentState := rfl

@[simp] theorem post_looping (w : GuidanceComponent) (jobs : List Job) :
    (w.post jobs).looping = w.looping := rfl

end GuidanceComponent

/-- A component after its constructor. -/
def newComponent (c : Component) : GuidanceComponent where
  currentState := .STARTUP
  jobQueue := startJobs c
  looping := true

/-! ## The node -/

inductive SystemAlert
  | CAUTION
  | WARNING
  | FATAL
  | NOT_READY
  | DRIVERS_READY
  | SHUTDOWN
deriving DecidableEq, Repr

inductive RouteEvent
  | NONE
  | ROUTE_SELECTED
  | ROUTE_STARTED
  | ROUTE_COMPLETED
  | LEFT_ROUTE
  | ROUTE_ABORTED
deriving DecidableEq, Repr

/-- How a job ends: it returns, or it throws, after or before its write of the state. A
thrown exception ends the thread. The handler's `onSystemReady` may find no topic
for the status of the robot. -/
inductive Ending
  | returned (robotTopic : Bool)
  | threw (wrote : Bool)
deriving DecidableEq, Repr

namespace Ending

def hasReturned : Ending → Bool
  | .returned _ => true
  | .threw _ => false

def wrote : Ending → Bool
  | .returned _ => true
  | .threw wrote => wrote

/-- Whether the callback on the robot is registered, as it may be before a job throws. -/
def robotTopic : Ending → Bool
  | .returned robotTopic => robotTopic
  | .threw _ => true

end Ending

/-- What the threads of the node do, one call after the other. -/
inductive Call
  | systemAlert (type : SystemAlert)
  | routeEvent (event : RouteEvent)
  | setGuidanceActive (guidanceActive : Bool)
  | guidanceStatusRead
  | robotEnabled (robotActive : Bool)
  | robotStatusWritten
  | handleException
  | runJobQueue (c : Component) (ending : Ending)
  | runPlanningJob (returned : Bool)
deriving DecidableEq, Repr

/-- What can be seen from outside, with the messages on the robot that the handler hears. -/
inductive Event
  | action (a : GuidanceAction)
  | heardRobot (robotActive : Bool)
  | ran (c : Component) (j : Job)
  | alert (type : SystemAlert)
  | guidanceStatus (active : Bool)
  | enableRobotic (set : Bool)
deriving DecidableEq, Repr

/-- The node. `registered` and `robotRegistered` say which callbacks of the handler are
there, `statusesToRead` counts the requests that have still to read the state of the machine,
and `robotCallback` is what a callback on the robot has still to write. -/
structure GuidanceNode where
  guidanceState : GuidanceState
  components : Component → GuidanceComponent
  robotStatus : Bool
  robotCallback : Option Bool
  registered : Bool
  robotRegistered : Bool
  statusesToRead : ℕ

/-- The node when its components are built. -/
def newGuidanceNode : GuidanceNode where
  guidanceState := .STARTUP
  components := newComponent
  robotStatus := false
  robotCallback := none
  registered := false
  robotRegistered := false
  statusesToRead := 0

namespace GuidanceNode

/-- `GuidanceStateMachine.processEvent`. -/
def processEvent (n : GuidanceNode) (e : GuidanceEvent) : GuidanceNode × List Event :=
  match actionOf n.guidanceState e with
  | none => (n, [])
  | some a =>
    ({ n with
        guidanceState := (transition n.guidanceState e).1
        components := fun c => (n.components c).post (onStateChange c a) },
      [.action a])

/-- The callback on system alerts. -/
def systemAlert (n : GuidanceNode) : SystemAlert → GuidanceNode × List Event
  | .DRIVERS_READY => n.processEvent .FOUND_DRIVERS
  | .FATAL => n.processEvent .PANIC
  | .SHUTDOWN => n.processEvent .SHUTDOWN
  | _ => (n, [])

/-- The callback on events of the route. It publishes an alert before it tells the machine. -/
def routeEvent (n : GuidanceNode) : RouteEvent → GuidanceNode × List Event
  | .LEFT_ROUTE =>
    let (n', events) := n.processEvent .LEFT_ROUTE
    (n', .alert .CAUTION :: events)
  | .ROUTE_COMPLETED | .ROUTE_ABORTED =>
    let (n', events) := n.processEvent .FINISH_ROUTE
    (n', .alert .CAUTION :: events)
  | _ => (n, [])

/-- The service `set_guidance_active`, up to the read of the machine's state. The guard reads
the handler's own copy. -/
def setGuidanceActive (n : GuidanceNode) (guidanceActive : Bool) : GuidanceNode × List Event :=
  if guidanceActive && (n.components .stateHandler).currentState == .DRIVERS_READY then
    let (n', events) := n.processEvent .ACTIVATE
    ({ n' with statusesToRead := n'.statusesToRead + 1 }, events)
  else if !guidanceActive then
    let (n', events) := n.processEvent .DISENGAGE
    (n', events ++ [.guidanceStatus false])
  else
    (n, [.guidanceStatus false])

/-- The answer of the service, once the machine has taken its event. -/
def guidanceStatusRead (n : GuidanceNode) : GuidanceNode × List Event :=
  if n.statusesToRead = 0 then
    (n, [])
  else
    ({ n with statusesToRead := n.statusesToRead - 1 },
      [.guidanceStatus (n.guidanceState == .ACTIVE)])

/-- The callback on the status of the robot, up to its write of `robotStatus`. -/
def robotEnabled (n : GuidanceNode) (robotActive : Bool) : GuidanceNode × List Event :=
  if !n.robotStatus && robotActive then
    let (n', events) := n.processEvent .START_ROUTE
    ({ n' with robotCallback := some true }, .heardRobot robotActive :: events)
  else if n.robotStatus && !robotActive then
    let (n', events) := n.processEvent .ROBOT_DISABLED
    ({ n' with robotCallback := some false }, .heardRobot robotActive :: events)
  else
    (n, [.heardRobot robotActive])

/-- The last line of the callback on the status of the robot. -/
def robotStatusWritten (n : GuidanceNode) : GuidanceNode :=
  match n.robotCallback with
  | none => n
  | some robotStatus => { n with robotStatus := robotStatus, robotCallback := none }

/-- What a job that returns publishes: the handler and the plugins their alerts on shutdown,
and the commands their requests to the controller. -/
def published : Component → Job → List Event
  | .stateHandler, .onShutdown => [.alert .SHUTDOWN]
  | .stateHandler, .onPanic => [.alert .FATAL]
  | .pluginManager, .onShutdown => [.alert .FATAL]
  | .guidanceCommands, .onActive => [.enableRobotic true]
  | .guidanceCommands, .onCleanRestart => [.enableRobotic false]
  | _, _ => []

/-- The callbacks that a job of the handler registers. -/
def register (n : GuidanceNode) (c : Component) (j : Job) (robotTopic : Bool) : GuidanceNode :=
  match c, j with
  | .stateHandler, .onStartup => { n with registered := true }
  | .stateHandler, .onSystemReady =>
    { n with robotRegistered := n.robotRegistered || robotTopic }
  | _, _ => n

/-- Replace one component. -/
def setComponent (n : GuidanceNode) (c : Component) (w : GuidanceComponent) : GuidanceNode :=
  { n with components := Function.update n.components c w }

/-- `runJobQueue`: a component takes the first job of its queue and runs it. -/
def runJobQueue (n : GuidanceNode) (c : Component) (ending : Ending) :
    GuidanceNode × List Event :=
  let w := n.components c
  match w.looping, w.jobQueue with
  | true, j :: rest =>
    let w' : GuidanceComponent :=
      { currentState := if ending.wrote then afterJob c w.currentState j else w.currentState
        jobQueue := rest
        looping := ending.hasReturned && !j.isShutdown }
    ((n.setComponent c w').register c j ending.robotTopic,
      .ran c j :: if ending.hasReturned then published c j else [])
  | _, _ => (n, [])

/-- The arbitrator takes a job for its planning from its queue and runs it. Such a job writes no
copy of the state, and like the others it ends the thread where it throws. -/
def runPlanningJob (n : GuidanceNode) (returned : Bool) : GuidanceNode :=
  let w := n.components .arbitrator
  if w.looping then n.setComponent .arbitrator { w with looping := returned } else n

/-- One call. A message comes only where its callback is registered, and the callback on the
robot is not run twice at once. -/
def call (n : GuidanceNode) : Call → GuidanceNode × List Event
  | .systemAlert type => if n.registered then n.systemAlert type else (n, [])
  | .routeEvent event => if n.registered then n.routeEvent event else (n, [])
  | .setGuidanceActive active => if n.registered then n.setGuidanceActive active else (n, [])
  | .guidanceStatusRead => n.guidanceStatusRead
  | .robotEnabled robotActive =>
    if n.robotRegistered && n.robotCallback.isNone then n.robotEnabled robotActive else (n, [])
  | .robotStatusWritten => (n.robotStatusWritten, [])
  | .handleException => n.processEvent .PANIC
  | .runJobQueue c ending => n.runJobQueue c ending
  | .runPlanningJob returned => (n.runPlanningJob returned, [])

end GuidanceNode

/-! ## Runs -/

/-- The node after calls. -/
def nodeAfter (calls : List Call) : GuidanceNode :=
  stateAfter GuidanceNode.call newGuidanceNode calls

/-- What calls leave to be seen. -/
def nodeLog (calls : List Call) : List Event := logged GuidanceNode.call newGuidanceNode calls

theorem nodeAfter_snoc (calls : List Call) (k : Call) :
    nodeAfter (calls ++ [k]) = ((nodeAfter calls).call k).1 := stateAfter_snoc _ _ _ _

theorem nodeLog_snoc (calls : List Call) (k : Call) :
    nodeLog (calls ++ [k]) = nodeLog calls ++ ((nodeAfter calls).call k).2 := logged_snoc _ _ _ _

theorem nodeLog_append (calls more : List Call) :
    nodeLog (calls ++ more) = nodeLog calls ++ logged GuidanceNode.call (nodeAfter calls) more :=
  logged_append _ _ _ _

def Event.actions : Event → List GuidanceAction
  | .action a => [a]
  | _ => []

def Event.jobsRun (c : Component) : Event → List Job
  | .ran c' j => if c' = c then [j] else []
  | _ => []

def Event.requests : Event → List Bool
  | .enableRobotic set => [set]
  | _ => []

def Event.robotMessages : Event → List Bool
  | .heardRobot robotActive => [robotActive]
  | _ => []

/-- The actions of a log. -/
def actions (l : List Event) : List GuidanceAction := l.flatMap Event.actions

/-- The jobs of a component in a log. -/
def jobsRun (c : Component) (l : List Event) : List Job := l.flatMap (Event.jobsRun c)

/-- The requests to the controller in a log. -/
def requests (l : List Event) : List Bool := l.flatMap Event.requests

/-- The messages on the robot in a log. -/
def robotMessages (l : List Event) : List Bool := l.flatMap Event.robotMessages

@[simp] theorem actions_nil : actions [] = [] := rfl

@[simp] theorem actions_cons (e : Event) (l : List Event) :
    actions (e :: l) = e.actions ++ actions l := List.flatMap_cons

@[simp] theorem actions_append (l l' : List Event) : actions (l ++ l') = actions l ++ actions l' :=
  List.flatMap_append

@[simp] theorem jobsRun_nil (c : Component) : jobsRun c [] = [] := rfl

@[simp] theorem jobsRun_cons (c : Component) (e : Event) (l : List Event) :
    jobsRun c (e :: l) = e.jobsRun c ++ jobsRun c l := List.flatMap_cons

@[simp] theorem jobsRun_append (c : Component) (l l' : List Event) :
    jobsRun c (l ++ l') = jobsRun c l ++ jobsRun c l' := List.flatMap_append

@[simp] theorem requests_nil : requests [] = [] := rfl

@[simp] theorem requests_cons (e : Event) (l : List Event) :
    requests (e :: l) = e.requests ++ requests l := List.flatMap_cons

@[simp] theorem requests_append (l l' : List Event) :
    requests (l ++ l') = requests l ++ requests l' := List.flatMap_append

@[simp] theorem robotMessages_nil : robotMessages [] = [] := rfl

@[simp] theorem robotMessages_cons (e : Event) (l : List Event) :
    robotMessages (e :: l) = e.robotMessages ++ robotMessages l := List.flatMap_cons

@[simp] theorem robotMessages_append (l l' : List Event) :
    robotMessages (l ++ l') = robotMessages l ++ robotMessages l' := List.flatMap_append

end carma.guidance_node
