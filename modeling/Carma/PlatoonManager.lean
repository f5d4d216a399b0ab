-- The manager of a platoon: the members that the host vehicle hears of, front
-- vehicle first, and the role that the host plays. The functions are those of
-- `PlatoonManager`.
import Mathlib.Data.List.Sort
import Mathlib.Order.Defs.LinearOrder

namespace carma.platoon_manager

/-! ## The state -/

/-- `PlatoonMember`. The timestamp is in milliseconds. -/
structure PlatoonMember (K : Type) where
  staticId : String
  bsmId : String
  commandSpeed : K
  vehicleSpeed : K
  vehiclePosition : K
  timestamp : ℤ
deriving DecidableEq

/-- `PlatoonManager`. `hostMobilityId` is what the mobility router answers, and
`platoonSize` is read by a follower only. -/
structure PlatoonManager (K : Type) where
  hostMobilityId : String
  leaderID : String
  currentPlatoonID : String
  isFollower : Bool
  platoonSize : ℤ
  previousFunctionalLeaderID : String
  previousFunctionalLeaderIndex : ℤ
  memberInfoTimeout : ℤ
  platoon : List (PlatoonMember K)
deriving DecidableEq

/-- The numbers in the parameters of a STATUS message. -/
structure StatusParams (K : Type) where
  cmdSpeed : K
  dtDistance : K
  curSpeed : K
deriving DecidableEq

variable {K : Type}

/-- `new PlatoonManager`. `uuid` is the random platoon id. -/
def newPlatoonManager (hostMobilityId uuid : String) (memberInfoTimeout : ℤ) : PlatoonManager K where
  hostMobilityId := hostMobilityId
  leaderID := hostMobilityId
  currentPlatoonID := uuid
  isFollower := false
  platoonSize := (2 : ℕ)
  previousFunctionalLeaderID := ""
  previousFunctionalLeaderIndex := -1
  memberInfoTimeout := memberInfoTimeout
  platoon := []

/-! ## Updates of a member -/

/-- The new data of a listed member. -/
def PlatoonMember.update (pm : PlatoonMember K) (senderBsmId : String) (params : StatusParams K)
    (now : ℤ) : PlatoonMember K :=
  { pm with
    bsmId := senderBsmId
    commandSpeed := params.cmdSpeed
    vehiclePosition := params.dtDistance
    vehicleSpeed := params.curSpeed
    timestamp := now }

/-- The loop of `updatesOrAddMemberInfo`: it changes the first member with the id,
and leaves that member where it is in the list. -/
def updateFirst (senderId senderBsmId : String) (params : StatusParams K) (now : ℤ) :
    List (PlatoonMember K) → List (PlatoonMember K)
  | [] => []
  | pm :: pms =>
    if pm.staticId = senderId then pm.update senderBsmId params now :: pms
    else pm :: updateFirst senderId senderBsmId params now pms

section order

variable [LinearOrder K]

/-- `a` may stand before `b` in the sorted list. -/
def NotBehind (a b : PlatoonMember K) : Prop := b.vehiclePosition ≤ a.vehiclePosition

instance : DecidableRel (NotBehind (K := K)) := fun a b =>
  inferInstanceAs (Decidable (b.vehiclePosition ≤ a.vehiclePosition))

namespace PlatoonManager

/-- The member that `updatesOrAddMemberInfo` adds. -/
def newMember (senderId senderBsmId : String) (params : StatusParams K) (now : ℤ) :
    PlatoonMember K :=
  ⟨senderId, senderBsmId, params.cmdSpeed, params.curSpeed, params.dtDistance, now⟩

/-- `updatesOrAddMemberInfo`. The list is sorted only when a member is added, by
a sort that is stable. -/
def updatesOrAddMemberInfo (m : PlatoonManager K) (senderId senderBsmId : String)
    (params : StatusParams K) (now : ℤ) : PlatoonManager K :=
  if senderId ∈ m.platoon.map (·.staticId) then
    { m with platoon := updateFirst senderId senderBsmId params now m.platoon }
  else
    { m with platoon :=
        (m.platoon ++ [newMember senderId senderBsmId params now]).insertionSort NotBehind }

/-- The first vehicle of the list, or the host when the list is empty. -/
def firstVehicle (m : PlatoonManager K) : String :=
  match m.platoon with
  | [] => m.hostMobilityId
  | pm :: _ => pm.staticId

/-- `memberUpdates`, with the numbers that it parses. Parameters that do not parse
throw before anything is changed. `downtrack` is where the host is, and `now` is the time. -/
def memberUpdates (m : PlatoonManager K) (downtrack : K) (now : ℤ)
    (senderId platoonId senderBsmId : String) (params : StatusParams K) : PlatoonManager K :=
  if m.isFollower then
    let isFromLeader := decide (m.leaderID = senderId)
    let needPlatoonIdChange := isFromLeader && !decide (m.currentPlatoonID = platoonId)
    let isVehicleInFrontOf := decide (params.dtDistance ≥ downtrack)
    if needPlatoonIdChange then
      { m with currentPlatoonID := platoonId }.updatesOrAddMemberInfo senderId senderBsmId params now
    else if decide (m.currentPlatoonID = platoonId) && isVehicleInFrontOf then
      let m := m.updatesOrAddMemberInfo senderId senderBsmId params now
      { m with leaderID := m.firstVehicle }
    else m
  else if m.currentPlatoonID = platoonId then
    m.updatesOrAddMemberInfo senderId senderBsmId params now
  else m

end PlatoonManager

end order

namespace PlatoonManager

/-! ## Answers -/

def getTotalPlatooningSize (m : PlatoonManager K) : ℤ :=
  if m.isFollower then m.platoonSize else m.platoon.length + 1

def getNumberOfVehicleInFront (m : PlatoonManager K) : ℕ :=
  if m.isFollower then m.platoon.length else 0

/-- `getPlatoonRearDowntrackDistance`: where the last member is, or the host when
there is none. -/
def getPlatoonRearDowntrackDistance (m : PlatoonManager K) (downtrack : K) : K :=
  match m.platoon.getLast? with
  | none => downtrack
  | some rear => rear.vehiclePosition

def getPlatoonRearBsmId (m : PlatoonManager K) (hostBsmId : String) : String :=
  match m.platoon.getLast? with
  | none => hostBsmId
  | some rear => rear.bsmId

/-- `getCurrentPlatoonLength`: from the front of the host to the rear of the last member. -/
def getCurrentPlatoonLength [Add K] [Sub K] (m : PlatoonManager K) (downtrack vehicleLength : K) : K :=
  match m.platoon.getLast? with
  | none => vehicleLength
  | some rear => downtrack - rear.vehiclePosition + vehicleLength

/-! ## Roles and time -/

def changeFromLeaderToFollower (m : PlatoonManager K) (newPlatoonId : String) : PlatoonManager K :=
  { m with isFollower := true, currentPlatoonID := newPlatoonId, platoon := [] }

/-- `changeFromFollowerToLeader`. `uuid` is the random platoon id. -/
def changeFromFollowerToLeader (m : PlatoonManager K) (uuid : String) : PlatoonManager K :=
  { m with
    isFollower := false
    platoon := []
    leaderID := m.hostMobilityId
    currentPlatoonID := uuid
    previousFunctionalLeaderID := ""
    previousFunctionalLeaderIndex := -1 }

/-- The members that are not expired. The clock is read for each member. -/
def unexpired (timeout : ℤ) : (ℕ → ℤ) → List (PlatoonMember K) → List (PlatoonMember K)
  | _, [] => []
  | clock, pm :: pms =>
    if clock 0 - pm.timestamp > timeout then unexpired timeout (fun i => clock (i + 1)) pms
    else pm :: unexpired timeout (fun i => clock (i + 1)) pms

def removeExpiredMember (m : PlatoonManager K) (clock : ℕ → ℤ) : PlatoonManager K :=
  let m := { m with platoon := unexpired m.memberInfoTimeout clock m.platoon }
  if m.isFollower then
    match m.platoon with
    | [] => { m with leaderID := m.hostMobilityId, platoonSize := 1 }
    | pm :: _ => { m with leaderID := pm.staticId }
  else m

end PlatoonManager

end carma.platoon_manager
