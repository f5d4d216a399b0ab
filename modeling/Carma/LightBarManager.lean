-- The manager of the light bar: which component controls which indicator, and
-- the handler that is told when control is lost. The functions are those of
-- `LightBarManager`.
import Mathlib.Data.List.Basic
import Mathlib.Logic.Function.Basic
import Mathlib.Order.WithBot

namespace carma.light_bar

/-! ## The state -/

inductive LightBarIndicator
  | GREEN
  | YELLOW
deriving DecidableEq, Repr

inductive IndicatorStatus
  | LEFT_ARROW
  | RIGHT_ARROW
  | SOLID
  | FLASH
  | OFF
deriving DecidableEq, Repr

structure LightBarStatus where
  greenFlash : Bool
  greenSolid : Bool
  flash : Bool
  leftArrow : Bool
  rightArrow : Bool
  takedown : Bool
deriving DecidableEq, Repr

/-- `LightBarManager`. A component is its name, and `H` is the type of the
handlers. `lightBarService` says whether there is a service to call. -/
structure LightBarManager (H : Type) where
  controlPriorities : List String
  lightControlMap : LightBarIndicator → Option String
  handlerMap : String → Option H
  lightBarService : Bool
  statusMsg : Option LightBarStatus

/-- What a call does that can be seen from outside: the handler of a component is
told that it lost an indicator, or the lights are set. -/
inductive Event (H : Type)
  | controlLost (component : String) (handler : H) (indicator : LightBarIndicator)
  | setLights (status : LightBarStatus)
deriving DecidableEq

variable {H : Type}

/-- The manager after its constructor. -/
def newLightBarManager (controlPriorities : List String) : LightBarManager H where
  controlPriorities := controlPriorities
  lightControlMap := fun _ => none
  handlerMap := fun _ => none
  lightBarService := false
  statusMsg := none

namespace LightBarManager

/-! ## Control -/

/-- `hasHigherPriority`. A component that is not in the list has the lowest
priority. -/
def hasHigherPriority (m : LightBarManager H) (requester controller : String) : Bool :=
  match m.controlPriorities.idxOf? requester, m.controlPriorities.idxOf? controller with
  | none, _ => false
  | some _, none => true
  | some requesterPriority, some controllerPriority =>
    decide (requesterPriority < controllerPriority)

def addController (m : LightBarManager H) (indicator : LightBarIndicator) (component : String)
    (handler : H) : LightBarManager H :=
  { m with
    lightControlMap := Function.update m.lightControlMap indicator (some component)
    handlerMap := Function.update m.handlerMap component (some handler) }

/-- The loop of `requestControl`: the denied indicators, none when it throws, the
manager and the events. Null stands for an indicator that is not there. -/
def requestEach (component : String) (handler : H) :
    List LightBarIndicator → LightBarManager H → List (Option LightBarIndicator) →
      Option (List LightBarIndicator) × LightBarManager H × List (Event H)
  | denied, m, [] => (some denied, m, [])
  | denied, m, none :: indicators => requestEach component handler denied m indicators
  | denied, m, some indicator :: indicators =>
    match m.lightControlMap indicator with
    | none =>
      requestEach component handler denied (m.addController indicator component handler) indicators
    | some controlling =>
      if controlling ≠ component then
        if m.hasHigherPriority component controlling then
          let m' := m.addController indicator component handler
          match m'.handlerMap controlling with
          | none => (none, m', [])
          | some previous =>
            let (answer, m'', events) := requestEach component handler denied m' indicators
            (answer, m'', .controlLost controlling previous indicator :: events)
        else requestEach component handler (denied ++ [indicator]) m indicators
      else requestEach component handler denied m indicators

def requestControl (m : LightBarManager H) (indicators : List (Option LightBarIndicator))
    (component : String) (handler : H) :
    Option (List LightBarIndicator) × LightBarManager H × List (Event H) :=
  requestEach component handler [] m indicators

/-- `lightControlMap.containsValue`. -/
def controls (m : LightBarManager H) (component : String) : Bool :=
  decide (m.lightControlMap .GREEN = some component) ||
    decide (m.lightControlMap .YELLOW = some component)

/-- Remove a controller, and its handler when it controls nothing any more. -/
def removeController (m : LightBarManager H) (indicator : LightBarIndicator) (component : String) :
    LightBarManager H :=
  let m' := { m with lightControlMap := Function.update m.lightControlMap indicator none }
  if m'.controls component then m'
  else { m' with handlerMap := Function.update m'.handlerMap component none }

def releaseControl (component : String) :
    LightBarManager H → List (Option LightBarIndicator) → LightBarManager H
  | m, [] => m
  | m, none :: indicators => releaseControl component m indicators
  | m, some indicator :: indicators =>
    if m.lightControlMap indicator = some component then
      releaseControl component (m.removeController indicator component) indicators
    else releaseControl component m indicators

/-! ## Lights -/

/-- The switch of `setIndicator`: the new status, or none for one that the
indicator does not support. -/
def switchStatus (msg : LightBarStatus) (indicator : LightBarIndicator) :
    IndicatorStatus → Option LightBarStatus
  | .FLASH =>
    match indicator with
    | .GREEN => some { msg with greenFlash := true, greenSolid := false }
    | .YELLOW => some { msg with flash := true, leftArrow := false, rightArrow := false }
  | .LEFT_ARROW =>
    if indicator ≠ .YELLOW then none
    else some { msg with flash := false, rightArrow := false, leftArrow := true }
  | .RIGHT_ARROW =>
    if indicator ≠ .YELLOW then none
    else some { msg with flash := false, rightArrow := true, leftArrow := false }
  | .SOLID =>
    if indicator ≠ .GREEN then none
    else some { msg with greenSolid := true, greenFlash := false }
  | .OFF =>
    match indicator with
    | .GREEN => some { msg with greenSolid := false, greenFlash := false }
    | .YELLOW => some { msg with leftArrow := false, rightArrow := false, flash := false }

/-- A status message as the service makes it. -/
def newMessage : LightBarStatus := ⟨false, false, false, false, false, false⟩

def setIndicator (m : LightBarManager H) (indicator : LightBarIndicator) (status : IndicatorStatus)
    (component : String) : Bool × LightBarManager H × List (Event H) :=
  if m.lightControlMap indicator ≠ none ∧ m.lightControlMap indicator ≠ some component then
    (false, m, [])
  else if !m.lightBarService then (false, m, [])
  else
    let msg := m.statusMsg.getD newMessage
    match switchStatus msg indicator status with
    | none => (false, { m with statusMsg := some msg }, [])
    | some msg =>
      let msg := { msg with takedown := false }
      (true, { m with statusMsg := some msg }, [.setLights msg])

end LightBarManager

/-! ## Calls -/

/-- The calls of the components. `initLightBarService` is the one of the manager
itself that finds the service, or does not. -/
inductive Call (H : Type)
  | requestControl (indicators : List (Option LightBarIndicator)) (component : String) (handler : H)
  | releaseControl (indicators : List (Option LightBarIndicator)) (component : String)
  | setIndicator (indicator : LightBarIndicator) (status : IndicatorStatus) (component : String)
  | initLightBarService (found : Bool)

def call (m : LightBarManager H) : Call H → LightBarManager H × List (Event H)
  | .requestControl indicators component handler => (m.requestControl indicators component handler).2
  | .releaseControl indicators component => (m.releaseControl component indicators, [])
  | .setIndicator indicator status component => (m.setIndicator indicator status component).2
  | .initLightBarService found => ({ m with lightBarService := m.lightBarService || found }, [])

end carma.light_bar
