-- The worker of the interface manager: the drivers that it knows, and whether
-- they are enough to operate. The functions are those of `InterfaceWorker` and
-- `DriverInfo`, less what they log.
import Mathlib.Algebra.Group.Nat.Defs
import Mathlib.Data.Int.Notation
import Carma.Lib.Runs

open lib.runs

namespace carma.interface_manager

/-! ## Drivers -/

inductive DriverState where
  | OFF
  | OPERATIONAL
  | DEGRADED
  | FAULT
deriving DecidableEq, Repr

inductive AlertSeverity where
  | CAUTION
  | WARNING
  | FATAL
  | NOT_READY
  | DRIVERS_READY
  | SHUTDOWN
deriving DecidableEq, Repr

/-- `DriverInfo`. A driver may cover more than one category. -/
structure DriverInfo where
  name : String
  state : DriverState
  capabilities : Option (List String)
  can : Bool
  sensor : Bool
  position : Bool
  comms : Bool
  lonController : Bool
  latController : Bool
deriving DecidableEq, Repr

namespace DriverInfo

def equalCategoryAndState (d b : DriverInfo) : Bool :=
  if d.name ≠ b.name then false
  else if d.state ≠ b.state then false
  else if d.can ≠ b.can then false
  else if d.comms ≠ b.comms then false
  else if d.lonController ≠ b.lonController then false
  else if d.latController ≠ b.latController then false
  else if d.position ≠ b.position then false
  else if d.sensor ≠ b.sensor then false
  else true

/-- The categories without which the system does not start. -/
def Critical (d : DriverInfo) : Prop := d.position = true ∨ d.lonController = true

/-- The states of a driver that is of no use any more. -/
def Down (d : DriverInfo) : Prop := d.state = .FAULT ∨ d.state = .OFF

instance (d : DriverInfo) : Decidable d.Critical := inferInstanceAs (Decidable (_ ∨ _))

instance (d : DriverInfo) : Decidable d.Down := inferInstanceAs (Decidable (_ ∨ _))

end DriverInfo

/-! ## The worker -/

/-- `InterfaceWorker`. Times are in milliseconds, `waitTime` is in seconds. -/
structure InterfaceWorker where
  drivers : List DriverInfo
  waitTime : ℤ
  startedWaiting : ℤ
  systemReadyTime : ℤ
  systemOperational : Bool
  lonControllerReady : Bool
  positionReady : Bool
deriving DecidableEq, Repr

/-- What the worker asks its manager to do. -/
inductive Request where
  | bindWithDriver (name : String)
  | errorShutdown (msg : String)
  | publishSystemAlert (sev : AlertSeverity) (msg : Option String)
deriving DecidableEq, Repr

/-- A request to shut the system down. -/
def Request.isShutdown : Request → Bool
  | .errorShutdown _ => true
  | _ => false

namespace InterfaceWorker

def new (now : ℤ) : InterfaceWorker where
  drivers := []
  waitTime := 10
  startedWaiting := now
  systemReadyTime := 0
  systemOperational := false
  lonControllerReady := false
  positionReady := false

def setWaitTime (w : InterfaceWorker) (wait : ℤ) : InterfaceWorker := { w with waitTime := wait }

def getDriverIndex (w : InterfaceWorker) (givenName : String) : Option ℕ :=
  w.drivers.findIdx? (fun d => d.name = givenName)

def updateDriver (w : InterfaceWorker) (index : ℕ) (newDriver : DriverInfo)
    (driverApi : Option (List String)) : InterfaceWorker × List Request :=
  if w.drivers[index]?.any newDriver.equalCategoryAndState then (w, [])
  else
    ({ w with drivers := w.drivers.set index { newDriver with capabilities := driverApi } },
      if newDriver.Critical ∧ newDriver.Down then
        [.errorShutdown ("FAULT detected in critical driver: " ++ newDriver.name)]
      else [])

/-- The status of a driver that was not known, and has capabilities. -/
def discoverDriver (w : InterfaceWorker) (newDriver : DriverInfo) (cap : List String) (now : ℤ) :
    InterfaceWorker × List Request :=
  let drivers := w.drivers ++ [{ newDriver with capabilities := some cap }]
  if newDriver.state = .OPERATIONAL then
    ({ w with
        drivers := drivers
        positionReady := if newDriver.position then true else w.positionReady
        -- a driver that covers both categories sets the flag of the position only
        lonControllerReady :=
          if newDriver.position then w.lonControllerReady
          else if newDriver.lonController then true else w.lonControllerReady
        startedWaiting := now }, [.bindWithDriver newDriver.name])
  else if newDriver.state = .DEGRADED ∧ newDriver.position = true then
    ({ w with drivers := drivers, positionReady := true, startedWaiting := now },
      [.bindWithDriver newDriver.name])
  else (w, [])

/-- `handleNewDriverStatus`, where `driverApi` is the answer of `getDriverApi`. -/
def handleNewDriverStatus (w : InterfaceWorker) (newDriver : DriverInfo)
    (driverApi : Option (List String)) (now : ℤ) : InterfaceWorker × List Request :=
  match w.getDriverIndex newDriver.name, driverApi with
  | some index, _ => w.updateDriver index newDriver driverApi
  | none, none => (w, [])
  | none, some cap => w.discoverDriver newDriver cap now

/-- The alert for a driver that broke its bond while the system operates. -/
def bondAlert (driver : DriverInfo) : AlertSeverity × Option String :=
  let alert : AlertSeverity × Option String :=
    if driver.lonController then
      if driver.Down then
        (.FATAL, some ("Controller driver " ++ driver.name ++ " is no longer available."))
      else if driver.state = .DEGRADED then
        (.WARNING,
          some ("Controller driver " ++ driver.name ++ " is operating at degraded capability."))
      else (.CAUTION, none)
    else (.CAUTION, none)
  let level := if driver.state = .DEGRADED then "degraded" else "gone"
  let alert :=
    if driver.position then
      (.WARNING, some ("Position driver " ++ driver.name ++ " is " ++ level)) else alert
  let alert :=
    if driver.comms then
      (.WARNING, some ("Comms driver " ++ driver.name ++ " is " ++ level)) else alert
  if driver.sensor || driver.can then
    (.CAUTION, some ("Driver " ++ driver.name ++ " is " ++ level)) else alert

/-- `handleBrokenBond`. The error is its `IndexOutOfBoundsException`. -/
def handleBrokenBond (w : InterfaceWorker) (driverName : String) :
    Except String (InterfaceWorker × List Request) :=
  match (w.getDriverIndex driverName).bind (fun index => w.drivers[index]?.map (index, ·)) with
  | none =>
    .error ("InterfaceWorker.handleBrokenBond can't find driver" ++ driverName ++ ". ABORTING.")
  | some (index, driver) =>
    .ok
      (if driver.Down then { w with drivers := w.drivers.eraseIdx index } else w,
        if w.systemOperational = true ∧ driver.state ≠ .OPERATIONAL then
          [.publishSystemAlert (bondAlert driver).1 (bondAlert driver).2]
        else [])

/-- `isSystemReady`: its answer, and what it changes. The clock is read twice, the
second time when the system becomes operational. -/
def isSystemReady (w : InterfaceWorker) (now readyAt : ℤ) :
    Bool × InterfaceWorker × List Request :=
  if w.systemOperational then (true, w, [])
  -- the difference is a `long`, and the product of two `int`s is an `int`
  else if (now - w.startedWaiting).bmod (2 ^ 64) > (1000 * w.waitTime).bmod (2 ^ 32) then
    if w.lonControllerReady && w.positionReady then
      (true, { w with systemOperational := true, systemReadyTime := readyAt }, [])
    else
      (false, w, [.errorShutdown
        "Unable to discover essential device drivers.  INITIATING SYSTEM SHUTDOWN."])
  else (false, w, [])

end InterfaceWorker

/-! ## Runs -/

/-- A call to the worker, with what it reads from outside. -/
inductive Call where
  | setWaitTime (wait : ℤ)
  | handleNewDriverStatus (newDriver : DriverInfo) (driverApi : Option (List String)) (now : ℤ)
  | handleBrokenBond (driverName : String)
  | isSystemReady (now readyAt : ℤ)
deriving DecidableEq, Repr

/-- The worker after a call, and what it asked for. An exception changes nothing. -/
def InterfaceWorker.call (w : InterfaceWorker) : Call → InterfaceWorker × List Request
  | .setWaitTime wait => (w.setWaitTime wait, [])
  | .handleNewDriverStatus newDriver driverApi now =>
    w.handleNewDriverStatus newDriver driverApi now
  | .handleBrokenBond driverName =>
    match w.handleBrokenBond driverName with
    | .ok result => result
    | .error _ => (w, [])
  | .isSystemReady now readyAt => (w.isSystemReady now readyAt).2

def InterfaceWorker.answers (w : InterfaceWorker) : Call → List Bool
  | .isSystemReady now readyAt => [(w.isSystemReady now readyAt).1]
  | _ => []

/-- A worker and its past: what it asked for, its answers, and each driver that
came into its list under a name that was not there. -/
structure History where
  worker : InterfaceWorker
  asked : List Request
  answers : List Bool
  added : List DriverInfo
deriving DecidableEq, Repr

namespace History

def new (now : ℤ) : History where
  worker := .new now
  asked := []
  answers := []
  added := []

def call (h : History) (c : Call) : History where
  worker := (h.worker.call c).1
  asked := h.asked ++ (h.worker.call c).2
  answers := h.answers ++ h.worker.answers c
  added := h.added ++
    (h.worker.call c).1.drivers.filter (fun d => h.worker.getDriverIndex d.name = none)

/-- `errorShutdown` was requested. -/
def ShutdownAsked (h : History) : Prop := ∃ r ∈ h.asked, r.isShutdown = true

instance (h : History) : Decidable h.ShutdownAsked :=
  inferInstanceAs (Decidable (∃ r ∈ h.asked, r.isShutdown = true))

end History

end carma.interface_manager
