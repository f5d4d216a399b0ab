-- Service connections of JAUS: a component asks another one for a message at some rate and
-- gets it until it ends the connection or has heard nothing for too long. The functions are
-- those of `scManager.c`, with what `ojCmpt.c` and `nodeManagerInterface.c` do with them.
import Carma.LargeMessageHandler
import Carma.Lib.ExactDouble
import Carma.Lib.Handshakes
import Mathlib.Data.List.Basic

open lib.exact_double
open lib.handshakes
open lib.runs

namespace carma.sc_manager

open carma.large_message_handler (JausAddress)

inductive ResponseCode
  | JAUS_SC_SUCCESSFUL
  | JAUS_SC_NODE_NOT_CAPABLE
  | JAUS_SC_COMPONENT_NOT_CAPABLE
  | JAUS_SC_INSUFFICIENT_AUTHORITY
  | JAUS_SC_CONNECTION_REFUSED
  | JAUS_SC_INVALID_PARAMETER
  | JAUS_SC_COMMAND_NOT_SUPPORTED
deriving DecidableEq, Repr

/-- A message with the flag of service connections: one that controls them, or one of a
service. -/
inductive Message (K M : Type)
  | create (serviceConnectionCommandCode : UInt16) (requestedPeriodicUpdateRateHertz : K)
      (presenceVector : UInt32)
  | confirm (serviceConnectionCommandCode : UInt16) (instanceId : UInt8)
      (confirmedPeriodicUpdateRateHertz : K) (responseCode : ResponseCode)
  | activate (serviceConnectionCommandCode : UInt16) (instanceId : UInt8)
  | suspend (serviceConnectionCommandCode : UInt16) (instanceId : UInt8)
  | terminate (serviceConnectionCommandCode : UInt16) (instanceId : UInt8)
  | service (commandCode sequenceNumber : UInt16) (data : M)

/-- `ServiceConnectionStruct`, of either side. The queue holds numbers and data. -/
structure ServiceConnection (K M : Type) where
  requestedUpdateRateHz : K
  confirmedUpdateRateHz : K
  lastSentTime : K
  timeoutSec : K
  nextRequestTimeSec : K
  address : JausAddress
  presenceVector : UInt32
  commandCode : UInt16
  sequenceNumber : UInt16
  instanceId : ℤ
  isActive : Bool
  queue : List (UInt16 × M)
  queueSize : ℕ

structure SupportedScMessage (K M : Type) where
  commandCode : UInt16
  scList : List (ServiceConnection K M)

variable {K M : Type}

/-! ## Outgoing connections -/

/-- The manager's side of the connections that others asked for. -/
structure Outgoing (K M : Type) where
  supportedScMsgList : List (SupportedScMessage K M)
  supportedScMsgCount : ℤ
  outgoingScCount : ℤ

namespace Outgoing

def scFindSupportedScMsgInList (o : Outgoing K M) (commandCode : UInt16) :
    Option (SupportedScMessage K M) :=
  o.supportedScMsgList.find? (·.commandCode = commandCode)

def connections (o : Outgoing K M) (commandCode : UInt16) : List (ServiceConnection K M) :=
  match o.scFindSupportedScMsgInList commandCode with
  | none => []
  | some s => s.scList

/-- The first entry of a command code gets another list. -/
def setScList (o : Outgoing K M) (commandCode : UInt16) (scList : List (ServiceConnection K M)) :
    Outgoing K M :=
  { o with
    supportedScMsgList := o.supportedScMsgList.replaceF fun s =>
      if s.commandCode = commandCode then some { s with scList } else none }

end Outgoing

/-- The test of `scFindScInList`. -/
def ServiceConnection.isOf (sc : ServiceConnection K M) (address : JausAddress) (instanceId : ℤ) :
    Bool :=
  sc.address = address ∧ sc.instanceId = instanceId

def scGetAvailableInstanceId (scList : List (ServiceConnection K M)) (address : JausAddress)
    (presenceVector : UInt32) : ℤ :=
  match scList.find? fun sc => sc.address = address ∧ sc.presenceVector = presenceVector with
  | some sc => sc.instanceId
  | none =>
    match (List.range 256).find? fun (i : ℕ) => !scList.any (·.isOf address i) with
    | some i => (i : ℤ)
    | none => -1

namespace Outgoing

variable [Zero K]

/-- A message that makes a connection, or starts it again. The second part is the answer. -/
def scManagerProcessCreateScMessage (o : Outgoing K M) (source : JausAddress)
    (commandCode : UInt16) (rate : K) (presenceVector : UInt32) : Outgoing K M × Message K M :=
  match o.scFindSupportedScMsgInList commandCode with
  | none => (o, .confirm commandCode 0 0 .JAUS_SC_COMPONENT_NOT_CAPABLE)
  | some s =>
    let instanceId := scGetAvailableInstanceId s.scList source presenceVector
    if instanceId = -1 then (o, .confirm commandCode 0 0 .JAUS_SC_CONNECTION_REFUSED)
    else
      let restart (sc : ServiceConnection K M) : ServiceConnection K M :=
        { sc with
          requestedUpdateRateHz := rate
          lastSentTime := 0
          sequenceNumber := 0
          isActive := true
          confirmedUpdateRateHz := rate }
      let answer : Message K M :=
        .confirm commandCode (UInt8.ofInt instanceId) rate .JAUS_SC_SUCCESSFUL
      if s.scList.any (·.isOf source instanceId) then
        (o.setScList commandCode (s.scList.replaceF fun sc =>
          if sc.isOf source instanceId then some (restart sc) else none), answer)
      else
        let newSc : ServiceConnection K M := restart
          { requestedUpdateRateHz := 0, confirmedUpdateRateHz := 0, lastSentTime := 0
            timeoutSec := 0, nextRequestTimeSec := 0, address := source
            presenceVector, commandCode, sequenceNumber := 0, instanceId
            isActive := false, queue := [], queueSize := 0 }
        ({ o.setScList commandCode (newSc :: s.scList) with
            outgoingScCount := o.outgoingScCount + 1 }, answer)

omit [Zero K] in
/-- The connection that a message names is switched on or off. -/
def setActive (o : Outgoing K M) (source : JausAddress) (commandCode : UInt16)
    (instanceId : UInt8) (isActive : Bool) : Outgoing K M :=
  match o.scFindSupportedScMsgInList commandCode with
  | none => o
  | some s =>
    o.setScList commandCode (s.scList.replaceF fun sc =>
      if sc.isOf source instanceId.toNat then some { sc with isActive } else none)

omit [Zero K] in
def scManagerProcessActivateScMessage (o : Outgoing K M) (source : JausAddress)
    (commandCode : UInt16) (instanceId : UInt8) : Outgoing K M :=
  o.setActive source commandCode instanceId true

omit [Zero K] in
def scManagerProcessSuspendScMessage (o : Outgoing K M) (source : JausAddress)
    (commandCode : UInt16) (instanceId : UInt8) : Outgoing K M :=
  o.setActive source commandCode instanceId false

omit [Zero K] in
def scManagerProcessTerminateScMessage (o : Outgoing K M) (source : JausAddress)
    (commandCode : UInt16) (instanceId : UInt8) : Outgoing K M :=
  match o.scFindSupportedScMsgInList commandCode with
  | none => o
  | some s =>
    let named (sc : ServiceConnection K M) : Bool :=
      sc.isOf source instanceId.toNat && sc.commandCode = commandCode
    if s.scList.any named then
      { o.setScList commandCode (s.scList.eraseP named) with
        outgoingScCount := o.outgoingScCount - 1 }
    else o

omit [Zero K] in
/-- The first loop of `scManagerProcessUpdatedSubystem`; `verify` is what the node manager
says of an address. -/
def dropUnverified (o : Outgoing K M) (verify : JausAddress → Bool) : Outgoing K M :=
  { o with
    supportedScMsgList := o.supportedScMsgList.map fun s =>
      { s with scList := s.scList.filter (verify ·.address) }
    outgoingScCount := o.outgoingScCount -
      ((o.supportedScMsgList.flatMap (·.scList)).countP (!verify ·.address) : ℕ) }

omit [Zero K] in
def scManagerAddSupportedMessage (o : Outgoing K M) (commandCode : UInt16) : Outgoing K M :=
  match o.scFindSupportedScMsgInList commandCode with
  | none =>
    { o with
      supportedScMsgList := ⟨commandCode, []⟩ :: o.supportedScMsgList
      supportedScMsgCount := o.supportedScMsgCount + 1 }
  | some _ => o

omit [Zero K] in
/-- The connections of a message that is no longer supported are ended, each with a message. -/
def scManagerRemoveSupportedMessage (o : Outgoing K M) (commandCode : UInt16) :
    Outgoing K M × List (JausAddress × Message K M) :=
  match o.scFindSupportedScMsgInList commandCode with
  | none => (o, [])
  | some s =>
    ({ o with
        supportedScMsgList := o.supportedScMsgList.eraseP (·.commandCode = commandCode)
        supportedScMsgCount := o.supportedScMsgCount - 1 },
      s.scList.map fun sc => (sc.address, .terminate sc.commandCode (UInt8.ofInt sc.instanceId)))

end Outgoing

section Sending

variable [Field K] [LinearOrder K]

/-- The check for the update rate. -/
def ServiceConnection.isDue (sc : ServiceConnection K M) (currentTime : K) : Bool :=
  sc.isActive && (Dbl.fin sc.lastSentTime).lt
    (Dbl.sub (.fin currentTime) (Dbl.div (.fin 1) (.fin sc.confirmedUpdateRateHz)))

/-- The connections that are due are copied for sending, and counted on. -/
def Outgoing.scManagerGetSendList (o : Outgoing K M) (commandCode : UInt16) (currentTime : K) :
    Outgoing K M × List (ServiceConnection K M) :=
  match o.scFindSupportedScMsgInList commandCode with
  | none => (o, [])
  | some s =>
    (o.setScList commandCode (s.scList.map fun sc =>
      if sc.isDue currentTime then
        { sc with lastSentTime := currentTime, sequenceNumber := sc.sequenceNumber + 1 }
      else sc),
    (s.scList.filter (·.isDue currentTime)).map fun sc => { sc with lastSentTime := currentTime })

/-- What a component sends to a send list, as in `nodeManagerSendCoreServiceConnections`. -/
def sendToList (commandCode : UInt16) (data : M) (scList : List (ServiceConnection K M)) :
    List (JausAddress × Message K M) :=
  scList.map fun sc => (sc.address, .service commandCode sc.sequenceNumber data)

end Sending

/-! ## Incoming connections -/

def OJ_CMPT_MAX_INCOMING_SC_COUNT : ℕ := 32

/-- A place among the connections of a component. The manager's list of incoming connections
has pointers to these, here their places. -/
abbrev Slot := Fin OJ_CMPT_MAX_INCOMING_SC_COUNT

/-- The connections that a component asks others for, and the manager's side of them. -/
structure Incoming (K M : Type) where
  inConnection : Slot → Option (ServiceConnection K M)
  incomingSc : List Slot
  incomingScCount : ℤ

namespace Incoming

def findSc (n : Incoming K M) (commandCode : UInt16) (address : JausAddress) :
    Option (Slot × ServiceConnection K M) :=
  n.incomingSc.findSome? fun i =>
    match n.inConnection i with
    | some sc => if sc.commandCode = commandCode ∧ sc.address = address then some (i, sc) else none
    | none => none

def setSc (n : Incoming K M) (i : Slot) (sc : Option (ServiceConnection K M)) : Incoming K M :=
  { n with inConnection := Function.update n.inConnection i sc }

/-- An entry is removed from the list. -/
def unlist (n : Incoming K M) (i : Slot) : Incoming K M :=
  { n with incomingSc := n.incomingSc.erase i, incomingScCount := n.incomingScCount - 1 }

/-- The loop that removes a connection wherever it stands in the list. -/
def unlistAll (n : Incoming K M) (i : Slot) : Incoming K M :=
  { n with
    incomingSc := n.incomingSc.filter (· ≠ i)
    incomingScCount := n.incomingScCount - (n.incomingSc.count i : ℕ) }

/-- The second part is a message back to the source: an end for what was not asked for. -/
def scManagerProcessConfirmScMessage (n : Incoming K M) (source : JausAddress)
    (commandCode : UInt16) (instanceId : UInt8) (rate : K) (responseCode : ResponseCode)
    (time : K) : Incoming K M × Option (Message K M) :=
  match n.findSc commandCode source with
  | some (i, sc) =>
    if responseCode = .JAUS_SC_SUCCESSFUL then
      (n.setSc i (some { sc with
        confirmedUpdateRateHz := rate
        instanceId := instanceId.toNat
        isActive := true
        sequenceNumber := 65535
        lastSentTime := time }), none)
    else ((n.setSc i (some { sc with isActive := false })).unlist i, none)
  | none =>
    (n, if responseCode = .JAUS_SC_SUCCESSFUL then some (.terminate commandCode instanceId)
      else none)

/-- The second loop of `scManagerProcessUpdatedSubystem`. -/
def dropUnverified (n : Incoming K M) (verify : JausAddress → Bool) : Incoming K M :=
  n.incomingSc.foldl (fun n i =>
    match n.inConnection i with
    | some sc =>
      if verify sc.address then n
      else (n.setSc i (some { sc with isActive := false, queue := [] })).unlist i
    | none => n) n

/-- Where a connection is asked for: at its address, or, when the subsystem is not known, at
what the node manager finds for the component in the own subsystem. -/
def destination (self : JausAddress) (lookup : JausAddress → Option JausAddress)
    (sc : ServiceConnection K M) : Option JausAddress :=
  if sc.address.subsystem ≠ 0 then some sc.address
  else lookup ⟨self.subsystem, 0, sc.address.component, 0⟩

def scManagerCreateServiceConnection [Zero K] (n : Incoming K M) (self : JausAddress)
    (lookup : JausAddress → Option JausAddress) (i : Slot) (sc : ServiceConnection K M) :
    Incoming K M × List (JausAddress × Message K M) :=
  let n := n.unlistAll i
  let sc := { sc with
    confirmedUpdateRateHz := 0
    lastSentTime := 0
    sequenceNumber := 65535
    instanceId := -1
    isActive := false }
  match destination self lookup sc with
  | some address =>
    ({ n.setSc i (some { sc with address }) with
        incomingSc := i :: n.incomingSc
        incomingScCount := n.incomingScCount + 1 },
      [(address, .create sc.commandCode sc.requestedUpdateRateHz sc.presenceVector)])
  | none => (n.setSc i (some sc), [])

/-- The first connection of the list with the key of `deadSc` is ended, with the instance of
`deadSc`. -/
def scManagerTerminateServiceConnection (n : Incoming K M) (deadSc : ServiceConnection K M) :
    Incoming K M × List (JausAddress × Message K M) :=
  match n.findSc deadSc.commandCode deadSc.address with
  | some (i, sc) =>
    ((n.setSc i (some { sc with isActive := false, queue := [] })).unlist i,
      if -1 < sc.instanceId then
        [(deadSc.address, .terminate deadSc.commandCode (UInt8.ofInt deadSc.instanceId))]
      else [])
  | none => (n, [])

def serviceConnectionDestroy (n : Incoming K M) (i : Slot) : Incoming K M :=
  (n.unlistAll i).setSc i none

/-- What `scManagerReceiveServiceConnection` has for a component. -/
inductive Received (M : Type)
  | nothing
  | timedOut
  | message (sequenceNumber : UInt16) (data : M)

def scManagerReceiveServiceConnection [Add K] [LinearOrder K] (n : Incoming K M)
    (requestSc : ServiceConnection K M) (time : K) : Incoming K M × Received M :=
  match n.findSc requestSc.commandCode requestSc.address with
  | some (i, sc) =>
    if sc.lastSentTime + sc.timeoutSec < time then
      ((n.setSc i (some { sc with isActive := false, queue := [] })).unlist i, .timedOut)
    else
      match sc.queue with
      | (number, data) :: queue => (n.setSc i (some { sc with queue }), .message number data)
      | [] => (n, .nothing)
  | none => (n, .nothing)

/-- A message of a service goes to the first connection of its command code and source, if
that is active. A full queue loses its oldest message. -/
def scManagerReceiveMessage (n : Incoming K M) (source : JausAddress)
    (commandCode sequenceNumber : UInt16) (data : M) (time : K) : Incoming K M :=
  match n.findSc commandCode source with
  | some (i, sc) =>
    if sc.isActive then
      let queue := if sc.queueSize ≠ 0 ∧ sc.queueSize = sc.queue.length then sc.queue.tail
        else sc.queue
      n.setSc i (some { sc with lastSentTime := time, queue := queue ++ [(sequenceNumber, data)] })
    else n
  | none => n

def ojCmptManageServiceConnections [Field K] [LinearOrder K] (n : Incoming K M)
    (self : JausAddress) (lookup : JausAddress → Option JausAddress) (i : Slot) (time : K) :
    Incoming K M × List (JausAddress × Message K M) :=
  match n.inConnection i with
  | some sc =>
    if !sc.isActive && sc.nextRequestTimeSec < time then
      n.scManagerCreateServiceConnection self lookup i
        { sc with nextRequestTimeSec := time + sc.timeoutSec }
    else (n, [])
  | none => (n, [])

/-- The first free place gets a connection that is not asked for yet. -/
def ojCmptEstablishSc [Zero K] (n : Incoming K M) (cCode : UInt16) (pv : UInt32)
    (address : JausAddress) (rateHz timeoutSec : K) (qSize : ℕ) : Incoming K M :=
  match (List.finRange OJ_CMPT_MAX_INCOMING_SC_COUNT).find? fun i => (n.inConnection i).isNone with
  | some i =>
    n.setSc i (some
      { requestedUpdateRateHz := rateHz, confirmedUpdateRateHz := 0, lastSentTime := 0
        timeoutSec, nextRequestTimeSec := 0, address, presenceVector := pv
        commandCode := cCode, sequenceNumber := 0, instanceId := -1
        isActive := false, queue := [], queueSize := qSize })
  | none => n

def ojCmptTerminateSc (n : Incoming K M) (i : Slot) :
    Incoming K M × List (JausAddress × Message K M) :=
  match n.inConnection i with
  | some sc =>
    let (n, out) := if sc.isActive then n.scManagerTerminateServiceConnection sc else (n, [])
    (n.serviceConnectionDestroy i, out)
  | none => (n, [])

/-- The check of one connection in `ojCmptThread`. -/
def receiveActive [Add K] [LinearOrder K] (n : Incoming K M) (i : Slot) (time : K) :
    Incoming K M × Received M :=
  match n.inConnection i with
  | some sc => if sc.isActive then n.scManagerReceiveServiceConnection sc time else (n, .nothing)
  | none => (n, .nothing)

end Incoming

/-! ## Components -/

/-- What a component does that others can see, or that decides about its connections. -/
inductive Deed (K M : Type)
  | sent (destination : JausAddress) (m : Message K M)
  | timedOut (commandCode : UInt16) (address : JausAddress)

/-- `OjCmpt` with its manager, and the messages that wait to be processed, each with its
source. -/
structure OjCmpt (K M : Type) where
  outgoing : Outgoing K M
  incoming : Incoming K M
  receiveQueue : List (JausAddress × Message K M)

/-- A component that was just created. -/
def newOjCmpt : OjCmpt K M where
  outgoing := ⟨[], 0, 0⟩
  incoming := ⟨fun _ => none, [], 0⟩
  receiveQueue := []

def sentAll (out : List (JausAddress × Message K M)) : List (Deed K M) :=
  out.map fun x => .sent x.1 x.2

/-- What a component may do: the turns of its thread, and the functions that its program calls.
`time` is the time of the call. -/
inductive Call (K M : Type)
  | addSupported (commandCode : UInt16)
  | removeSupported (commandCode : UInt16)
  | send (commandCode : UInt16) (data : M) (time : K)
  | switch (destination : JausAddress) (commandCode : UInt16) (instanceId : UInt8)
      (isActive : Bool)
  | establish (cCode : UInt16) (pv : UInt32) (address : JausAddress) (rateHz timeoutSec : K)
      (qSize : ℕ)
  | manage (lookup : JausAddress → Option JausAddress) (i : Slot) (time : K)
  | terminate (i : Slot)
  | receive (i : Slot) (time : K)
  | updatedSubsystem (verify : JausAddress → Bool)
  | process (time : K)

namespace OjCmpt

variable [Field K] [LinearOrder K]

/-- The cases of `defaultJausMessageProcessor` for service connections. -/
def processMessage (c : OjCmpt K M) (source : JausAddress) (m : Message K M) (time : K) :
    OjCmpt K M × List (Deed K M) :=
  match m with
  | .create commandCode rate presenceVector =>
    let (outgoing, answer) :=
      c.outgoing.scManagerProcessCreateScMessage source commandCode rate presenceVector
    ({ c with outgoing }, [.sent source answer])
  | .confirm commandCode instanceId rate responseCode =>
    let (incoming, answer) :=
      c.incoming.scManagerProcessConfirmScMessage source commandCode instanceId rate responseCode
        time
    ({ c with incoming }, answer.toList.map (.sent source))
  | .activate commandCode instanceId =>
    ({ c with
        outgoing := c.outgoing.scManagerProcessActivateScMessage source commandCode instanceId },
      [])
  | .suspend commandCode instanceId =>
    ({ c with
        outgoing := c.outgoing.scManagerProcessSuspendScMessage source commandCode instanceId },
      [])
  | .terminate commandCode instanceId =>
    ({ c with
        outgoing := c.outgoing.scManagerProcessTerminateScMessage source commandCode instanceId },
      [])
  | .service .. => (c, [])

def call (self : JausAddress) (c : OjCmpt K M) : Call K M → OjCmpt K M × List (Deed K M)
  | .addSupported commandCode =>
    ({ c with outgoing := c.outgoing.scManagerAddSupportedMessage commandCode }, [])
  | .removeSupported commandCode =>
    let (outgoing, out) := c.outgoing.scManagerRemoveSupportedMessage commandCode
    ({ c with outgoing }, sentAll out)
  | .send commandCode data time =>
    let (outgoing, scList) := c.outgoing.scManagerGetSendList commandCode time
    ({ c with outgoing }, sentAll (sendToList commandCode data scList))
  | .switch destination commandCode instanceId isActive =>
    (c, [.sent destination
      (if isActive then .activate commandCode instanceId else .suspend commandCode instanceId)])
  | .establish cCode pv address rateHz timeoutSec qSize =>
    ({ c with
        incoming := c.incoming.ojCmptEstablishSc cCode pv address rateHz timeoutSec qSize }, [])
  | .manage lookup i time =>
    let (incoming, out) := c.incoming.ojCmptManageServiceConnections self lookup i time
    ({ c with incoming }, sentAll out)
  | .terminate i =>
    let (incoming, out) := c.incoming.ojCmptTerminateSc i
    ({ c with incoming }, sentAll out)
  | .receive i time =>
    let (incoming, received) := c.incoming.receiveActive i time
    ({ c with incoming },
      match received, c.incoming.inConnection i with
      | .timedOut, some sc => [.timedOut sc.commandCode sc.address]
      | _, _ => [])
  | .updatedSubsystem verify =>
    ({ c with
        outgoing := c.outgoing.dropUnverified verify
        incoming := c.incoming.dropUnverified verify }, [])
  | .process time =>
    match c.receiveQueue with
    | (source, m) :: rest => { c with receiveQueue := rest }.processMessage source m time
    | [] => (c, [])

end OjCmpt

/-! ## The network -/

/-- The components by their addresses, and what is under way from one to another, the oldest
first. The network keeps the order and loses nothing. -/
structure Network (K M : Type) where
  cmpt : JausAddress → OjCmpt K M
  link : JausAddress → JausAddress → List (Message K M)

def newNetwork : Network K M := ⟨fun _ => newOjCmpt, fun _ _ => []⟩

inductive Event (K M : Type)
  | arrive (source destination : JausAddress) (time : K)
  | call (self : JausAddress) (k : Call K M)

def Deed.message? (destination : JausAddress) : Deed K M → Option (Message K M)
  | .sent d m => if d = destination then some m else none
  | .timedOut .. => none

namespace Network

/-- A component takes a new state, and its messages are under way. -/
def act (s : Network K M) (self : JausAddress) (c : OjCmpt K M) (deeds : List (Deed K M)) :
    Network K M where
  cmpt := Function.update s.cmpt self c
  link source destination :=
    if source = self then s.link source destination ++ deeds.filterMap (Deed.message? destination)
    else s.link source destination

/-- The oldest message of a link is taken off. -/
def shift (s : Network K M) (source destination : JausAddress) : Network K M :=
  { s with
    link := Function.update s.link source
      (Function.update (s.link source) destination (s.link source destination).tail) }

variable [Field K] [LinearOrder K]

/-- The turn of `receiveThread` for the next message of a link: one of a service goes to the
manager at once, one that controls connections to the receive queue. -/
def arrive (s : Network K M) (source destination : JausAddress) (time : K) : Network K M :=
  let c := s.cmpt destination
  match s.link source destination with
  | [] => s
  | .service commandCode sequenceNumber data :: _ =>
    (s.shift source destination).act destination
      { c with
        incoming :=
          c.incoming.scManagerReceiveMessage source commandCode sequenceNumber data time } []
  | m :: _ =>
    (s.shift source destination).act destination
      { c with receiveQueue := c.receiveQueue ++ [(source, m)] } []

/-- One event of the network, and what components do at it. -/
def step (s : Network K M) : Event K M → Network K M × List (JausAddress × Deed K M)
  | .arrive source destination time => (s.arrive source destination time, [])
  | .call self k =>
    let (c, deeds) := (s.cmpt self).call self k
    (s.act self c deeds, deeds.map (self, ·))

end Network

end carma.sc_manager
