-- The CAN client of the radar: it gathers the frames of a burst and hands the burst on
-- when the last one came. The functions are those of `DelphiESRCANClient` and of its
-- message definitions, less the commands that it sends.
import Mathlib.Data.Fintype.Pi
import Mathlib.Data.Int.Notation
import Mathlib.Data.List.FinRange
import Carma.Lib.Runs

open lib.runs

namespace carma.delphi_esr

/-! ## Frames and definitions -/

/-- The eight bytes of a frame, or of a message definition, the first one first. -/
abbrev Bytes := Fin 8 → BitVec 8

def Bytes.zero : Bytes := fun _ => 0

structure CANFrame where
  stamp : ℤ
  id : ℕ
  isError : Bool
  dlc : ℕ
  data : Bytes
deriving DecidableEq

/-- `CANMessageDefinition::setData`: a short frame leaves the bytes behind it as they
were. -/
def setData (old : Bytes) (msg : CANFrame) : Except String Bytes :=
  if 8 < msg.dlc then .error "CanMessage::setData() data_lenth exceeds 8 bytes"
  else .ok (fun i => if i.val < msg.dlc then msg.data i else old i)

structure TrackMovePower where
  movableFast : Bool
  movableSlow : Bool
  moving : Bool
  power : ℤ
deriving DecidableEq

def group (definition : Bytes) : ℕ := (definition 0).toNat % 16

/-- `track` of the definition of the motion power, for the track `i` of its seven. -/
def movePower (definition : Bytes) (i : Fin 7) : TrackMovePower :=
  let value := (definition i.succ).toNat
  { movableFast := value.testBit 7
    movableSlow := value.testBit 6
    moving := value.testBit 5
    power := (value % 32 : ℕ) - 10 }

/-- A part of the burst, and the number of the frame that wrote it last, which the code
does not keep. What the fields of a status or a track are is a matter of its bytes. -/
structure Block (α : Type) where
  content : α
  writtenBy : Option ℕ
deriving DecidableEq

def Block.write {α : Type} (content : α) (number : ℕ) : Block α := ⟨content, some number⟩

structure ESRTrack where
  definition : Block Bytes
  motion : Block TrackMovePower
deriving DecidableEq

def ESRTrack.setFromDefinition (definition : Bytes) (number : ℕ) (t : ESRTrack) : ESRTrack :=
  { t with definition := .write definition number }

def ESRTrack.setMovePower (movePower : TrackMovePower) (number : ℕ) (t : ESRTrack) : ESRTrack :=
  { t with motion := .write movePower number }

/-- `BurstData`, with the nine status blocks in a list. -/
structure BurstData where
  stamp : ℤ
  esrStatus : List (Block Bytes)
  tracks : List ESRTrack
deriving DecidableEq

/-! ## The client -/

/-- `DelphiESRCANClient`, with the statics of `isExpectedID` and `process`. -/
structure Client where
  burstData : BurstData
  esrStatusDefinitions : List Bytes
  trackDefinition : Bytes
  trackPowerDefinition : Bytes
  lastId : ℕ
  inSync : Bool
  invalidData : Bool
deriving DecidableEq

namespace Client

def init : Client where
  burstData :=
    { stamp := 0
      esrStatus := List.replicate 9 ⟨.zero, none⟩
      tracks := List.replicate 64 ⟨⟨.zero, none⟩, ⟨⟨false, false, false, 0⟩, none⟩⟩ }
  esrStatusDefinitions := List.replicate 9 .zero
  trackDefinition := .zero
  trackPowerDefinition := .zero
  lastId := 0
  inSync := true
  invalidData := false

/-- The test of `isExpectedID` on an id that is not out of its range. -/
def follows (lastId canId : ℕ) : Bool :=
  if canId = 0x500 then lastId == 0x4E3
  else if canId = 0x540 then lastId == 0x53F || lastId == 0x540
  else if canId = 0x5D0 then lastId == 0x540
  else if canId = 0x5E4 then lastId == 0x540 || lastId == 0x5D1
  else lastId == canId - 1

/-- `isExpectedID`: its answer is `inSync`. -/
def isExpectedID (c : Client) (canId : ℕ) : Client :=
  let inSync :=
    if 0x4E0 ≤ canId ∧ canId ≤ 0x5E8 ∧ ¬ (0x5B0 ≤ canId ∧ canId ≤ 0x5BE) then
      if canId = 0x4E0 then true else c.inSync && follows c.lastId canId
    else c.inSync
  { c with inSync := inSync, lastId := canId }

/-- The start of each case of `process`: whether the frame was expected. -/
def checkID (c : Client) (canId : ℕ) : Client :=
  let c := c.isExpectedID canId
  { c with invalidData := !c.inSync }

/-- The ids of the status frames, the first status first. -/
def statusIds : List ℕ := [0x4E0, 0x4E1, 0x4E2, 0x4E3, 0x5E4, 0x5E5, 0x5E6, 0x5E7, 0x5E8]

def readStatus (c : Client) (number index : ℕ) (msg : CANFrame) : Except String Client :=
  match setData (c.esrStatusDefinitions.getD index .zero) msg with
  | .error e => .error e
  | .ok definition =>
    .ok { c with
      esrStatusDefinitions := c.esrStatusDefinitions.set index definition
      burstData := { c.burstData with
        stamp := if index = 0 then msg.stamp else c.burstData.stamp
        esrStatus := c.burstData.esrStatus.set index (.write definition number) } }

def readTrack (c : Client) (number : ℕ) (msg : CANFrame) : Except String Client :=
  match setData c.trackDefinition msg with
  | .error e => .error e
  | .ok definition =>
    .ok { c with
      trackDefinition := definition
      burstData := { c.burstData with
        tracks := c.burstData.tracks.modify (msg.id - 0x500)
          (ESRTrack.setFromDefinition definition number) } }

/-- The tracks after a power frame: seven in a row get their motion power. -/
def setMovePowers (tracks : List ESRTrack) (definition : Bytes) (number : ℕ) : List ESRTrack :=
  (List.finRange 7).foldl
    (fun tracks (i : Fin 7) => tracks.modify (group definition * 7 + i.val)
      (ESRTrack.setMovePower (movePower definition i) number)) tracks

def readPower (c : Client) (number : ℕ) (msg : CANFrame) : Except String Client :=
  match setData c.trackPowerDefinition msg with
  | .error e => .error e
  | .ok definition =>
    .ok { c with
      trackPowerDefinition := definition
      burstData := { c.burstData with
        tracks := setMovePowers c.burstData.tracks definition number } }

/-- The frame that a client does not look at: an error, or one in a burst that is invalid. -/
def skips (c : Client) (msg : CANFrame) : Bool :=
  msg.isError || (c.invalidData && msg.id != 0x4E0)

/-- `process` of the frame with the number `number`: the client after it, and the burst of
`onBurstReceived` if that is called. The error is the exception. -/
def process (c : Client) (number : ℕ) (msg : CANFrame) :
    Except String (Client × Option BurstData) :=
  if c.skips msg then .ok (c, none)
  else
    match statusIds.idxOf? msg.id with
    | some index => do
      let c ← (c.checkID msg.id).readStatus number index msg
      pure (c, if msg.id = 0x5E8 ∧ c.invalidData = false then some c.burstData else none)
    | none =>
      if 0x500 ≤ msg.id ∧ msg.id ≤ 0x53F then do
        let c ← (c.checkID msg.id).readTrack number msg
        pure (c, none)
      else if msg.id = 0x540 then do
        let c ← (c.checkID msg.id).readPower number msg
        pure (c, none)
      else .ok (c, none)

end Client

/-! ## Runs -/

/-- A client and its past. An exception of `process` ends the program, and then there is no
client. `start` is the number of the last 0x4E0 frame, and `groups` has the groups of
the power frames after it. -/
structure Receiver where
  client : Option Client
  received : ℕ
  start : Option ℕ
  groups : List ℕ
deriving DecidableEq

namespace Receiver

def init : Receiver where
  client := some .init
  received := 0
  start := none
  groups := []

/-- The group that a power frame names, for a client that holds the last one. -/
def groupOf (c : Client) (msg : CANFrame) : Option ℕ :=
  if msg.id = 0x540 ∧ msg.isError = false then
    (setData c.trackPowerDefinition msg).toOption.map group
  else none

def receive (r : Receiver) (msg : CANFrame) : Receiver where
  client := r.client.bind fun c => (c.process r.received msg).toOption.map Prod.fst
  received := r.received + 1
  start := if msg.id = 0x4E0 ∧ msg.isError = false then some r.received else r.start
  groups :=
    if msg.id = 0x4E0 ∧ msg.isError = false then []
    else (r.client.bind (groupOf · msg)).toList ++ r.groups

def burst (r : Receiver) (msg : CANFrame) : Option BurstData :=
  r.client.bind fun c => (c.process r.received msg).toOption.bind Prod.snd

end Receiver

end carma.delphi_esr
