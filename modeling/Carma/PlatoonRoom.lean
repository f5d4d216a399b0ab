-- How many vehicles a leader lets into its platoon. The size test of a join request
-- counts the members whose STATUS the leader has heard and not forgotten. The platoon
-- may hold more: vehicles that were accepted and are not on the list (yet, or any more),
-- and vehicles that come along unannounced.
import Carma.Lib.Narrowing
import Carma.PlatoonOrder
import Carma.PlatooningLaws
import Mathlib.Data.Finset.Card

open lib.narrowing lib.runs carma.platoon_manager

namespace carma.platooning

/-! ## The platoon of a leader -/

variable {K : Type}

def PlatooningState.isLeading : PlatooningState → Bool
  | .leader _ => true
  | _ => false

def PlatooningState.isWaiting : PlatooningState → Bool
  | .leaderWaiting _ => true
  | _ => false

/-- A leader with its platoon as it is on the road: `joined` are the vehicles that it
accepted and that have not left since, and `awaited` those that come with the applicant
it waits for. -/
structure Platoon (K : Type) where
  leader : PlatooningPlugin K
  joined : Finset String
  awaited : Finset String

/-- The ids on the list of the manager. -/
def listed (m : PlatoonManager K) : Finset String := (m.platoon.map (·.staticId)).toFinset

/-- The platoon once all accepted vehicles have joined. -/
def Platoon.vehicles (p : Platoon K) : Finset String :=
  insert p.leader.hostMobilityId (listed p.leader.platoonManager ∪ p.joined ∪ p.awaited)

/-- An event reaches the leader, or an accepted vehicle leaves. `followers` are the
vehicles that come along with the sender, if the event is a join request. -/
inductive Turn (K : Type) where
  | event (r : Readings K) (followers : Finset String) (e : Event K)
  | leaves (vehicleId : String)

section

variable [Field K] [LinearOrder K]

/-- The request that the event makes the leader acknowledge. -/
def acked (plugin : PlatooningPlugin K) (r : Readings K) : Event K → Option (MobilityRequest K)
  | .receive (.request msg) =>
    if (plugin.handleMobilityRequestMessage r msg).2 = .ack then some msg else none
  | _ => none

namespace Platoon

def turn (p : Platoon K) : Turn K → Platoon K
  | .leaves vehicleId => { p with joined := p.joined.erase vehicleId }
  | .event r followers e =>
    let leader := (p.leader.step r e).plugin
    match acked p.leader r e with
    | some ⟨header, .joinPlatoonAtRear _⟩ =>
      ⟨leader, p.joined, insert header.senderId followers⟩
    | some _ => ⟨leader, p.joined ∪ p.awaited, ∅⟩
    | none => ⟨leader, p.joined, if leader.state.isWaiting then p.awaited else ∅⟩

/-- An ACK lets the platoon hold no more than `maxPlatoonSize` vehicles. -/
def AcksFit (p : Platoon K) : Turn K → Prop
  | .leaves _ => True
  | .event r followers e => acked p.leader r e ≠ none →
    ((p.turn (.event r followers e)).vehicles.card : ℤ) ≤ p.leader.params.maxPlatoonSize

/-! ## When there is room -/

/-- The size test counts every vehicle of the platoon: the manager plays the leader and
lists whom it accepted, the announced size covers those who come, and the sum is an `int`. -/
def CountsEveryone (p : Platoon K) (coming : Finset String) (params : JoinParams K) : Prop :=
  p.leader.platoonManager.isFollower = false ∧ p.joined ⊆ listed p.leader.platoonManager ∧
    (coming.card : ℤ) ≤ params.size ∧
    params.size + p.leader.platoonManager.getTotalPlatooningSize < 2 ^ 31

/-- A join request that passes the tests of the leader is counted right. While an applicant is
awaited, a vehicle that turns up on the list is one of the platoon, or there is still room for
one. -/
def LeavesRoom (p : Platoon K) : Turn K → Prop
  | .event r followers (.receive (.request ⟨header, .joinPlatoonAtRear params⟩)) =>
    let gap := LeaderState.currentGap p.leader r params
    p.leader.state.isLeading = true →
    LeaderState.hasEnoughRoomInPlatoon p.leader params.size = true → 0 ≤ gap →
    LeaderState.isDistanceCloseEnough p.leader gap params.speed = true →
      p.CountsEveryone (insert header.senderId followers) params
  | .event r _ (.receive (.operation ⟨header, .status params⟩)) =>
    p.leader.state.isWaiting = true →
    Heeds p.leader.platoonManager r.downtrack header.senderId header.planId params →
      header.senderId ∈ p.vehicles ∨ (p.vehicles.card : ℤ) < p.leader.params.maxPlatoonSize
  | _ => True

/-- What a run keeps: a leader that waits has room for the vehicles it waits for. -/
def Fits (p : Platoon K) : Prop :=
  p.leader.state.isWaiting = true → (p.vehicles.card : ℤ) ≤ p.leader.params.maxPlatoonSize

end Platoon

/-! ## The list -/

omit [Field K] [LinearOrder K] in
theorem card_listed_le (m : PlatoonManager K) : (listed m).card ≤ m.platoon.length := by
  have h := List.toFinset_card_le (m.platoon.map (·.staticId))
  rwa [List.length_map] at h

omit [Field K] [LinearOrder K] in
theorem listed_of_sublist {m n : PlatoonManager K} (h : n.platoon.Sublist m.platoon) :
    listed n ⊆ listed m := by
  intro x hx
  unfold listed at *
  rw [List.mem_toFinset] at *
  exact (h.map _).subset hx

omit [Field K] [LinearOrder K] in
theorem updateFirst_ids (senderId senderBsmId : String) (params : StatusParams K) (now : ℤ)
    (ms : List (PlatoonMember K)) :
    (updateFirst senderId senderBsmId params now ms).map (·.staticId) = ms.map (·.staticId) := by
  induction ms with
  | nil => rfl
  | cons pm pms ih =>
    unfold updateFirst
    split
    · rfl
    · rw [List.map_cons, ih, List.map_cons]

omit [Field K] in
/-- A STATUS puts its sender on the list, and nobody else. -/
theorem listed_updatesOrAddMemberInfo (m : PlatoonManager K) (senderId senderBsmId : String)
    (params : StatusParams K) (now : ℤ) :
    listed (m.updatesOrAddMemberInfo senderId senderBsmId params now) ⊆
      insert senderId (listed m) := by
  unfold PlatoonManager.updatesOrAddMemberInfo
  split
  · unfold listed
    rw [updateFirst_ids]
    exact Finset.subset_insert _ _
  · intro x hx
    unfold listed at *
    rw [List.mem_toFinset, List.mem_map] at hx
    obtain ⟨pm, hpm, rfl⟩ := hx
    have hmem := (List.perm_insertionSort NotBehind _).mem_iff.mp hpm
    rcases List.mem_append.mp hmem with hold | hnew
    · exact Finset.mem_insert_of_mem (List.mem_toFinset.mpr (List.mem_map_of_mem hold))
    · rw [List.mem_singleton.mp hnew]
      exact Finset.mem_insert_self _ _

/-- An event lists nobody new, or it is a STATUS that is heeded and lists its sender. -/
theorem listed_step (plugin : PlatooningPlugin K) (r : Readings K) (e : Event K) :
    listed (plugin.step r e).plugin.platoonManager ⊆ listed plugin.platoonManager ∨
    ∃ header params, e = .receive (.operation ⟨header, .status params⟩) ∧
      Heeds plugin.platoonManager r.downtrack header.senderId header.planId params ∧
      listed (plugin.step r e).plugin.platoonManager ⊆
        insert header.senderId (listed plugin.platoonManager) := by
  cases e with
  | host e =>
    left
    apply listed_of_sublist
    dsimp only [PlatooningPlugin.step]
    rcases plugin.hostStep_platoonManager r e with h | h | ⟨clock, h⟩ | h
    · rw [h]
    · rw [h]
      exact List.nil_sublist _
    · rw [h, removeExpiredMember_platoon]
      exact unexpired_sublist _ _ _
    · rw [h]
      exact List.nil_sublist _
  | receive msg =>
    have hreact := plugin.receive_reaction r msg
    dsimp only [PlatooningPlugin.step]
    generalize plugin.receive r msg = out at hreact
    cases hreact with
    | updates header params =>
      rcases memberUpdates_platoon plugin.platoonManager r.downtrack r.now header.senderId
        header.planId header.senderBsmId params with ⟨hheed, hlist⟩ | ⟨-, hlist⟩
      · right
        refine ⟨header, params, rfl, hheed, ?_⟩
        unfold listed PlatooningPlugin.memberUpdates
        dsimp only
        rw [hlist]
        exact listed_updatesOrAddMemberInfo _ _ _ _ _
      · left
        unfold listed PlatooningPlugin.memberUpdates
        dsimp only
        rw [hlist]
    | follows => exact .inl (listed_of_sublist (List.nil_sublist _))
    | _ => exact .inl subset_rfl

/-! ## Acknowledgements -/

/-- What is known of a request that is acknowledged. -/
theorem acked_cases {plugin : PlatooningPlugin K} {r : Readings K} {e : Event K}
    {msg : MobilityRequest K} (h : acked plugin r e = some msg) :
    e = .receive (.request msg) ∧
    ((∃ params, msg.type = .joinPlatoonAtRear params ∧ plugin.state.isLeading = true ∧
      LeaderState.hasEnoughRoomInPlatoon plugin params.size = true ∧
      0 ≤ LeaderState.currentGap plugin r params ∧
      LeaderState.isDistanceCloseEnough plugin (LeaderState.currentGap plugin r params)
        params.speed = true ∧
      (plugin.step r e).plugin = plugin.setState (.leaderWaiting ⟨msg.header.senderId, r.now⟩)) ∨
    (msg.type = .platoonFollowerJoin ∧ plugin.state.isWaiting = true ∧
      (plugin.step r e).plugin = plugin.setState newLeaderState)) := by
  unfold acked at h
  split at h
  · rename_i m
    split at h
    · rename_i hack
      obtain rfl := Option.some.inj h
      refine ⟨rfl, ?_⟩
      dsimp only [PlatooningPlugin.step, PlatooningPlugin.receive]
      rcases plugin.handleMobilityRequestMessage_cases r m with
        ⟨hno, -⟩ | ⟨s, params, hs, htype, hroom, hgap, hclose, heq⟩ | ⟨s, hs, htype, -, heq⟩
      · exact absurd hack hno
      · left
        rw [heq, hs]
        exact ⟨params, htype, rfl, hroom, hgap, hclose, rfl⟩
      · right
        rw [heq, hs]
        exact ⟨htype, rfl, rfl⟩
    · cases h
  · cases h

omit [Field K] [LinearOrder K] in
theorem PlatooningPlugin.HostMove.isWaiting {r : Readings K} {s s' : PlatooningState}
    (h : HostMove r s s')
    (hw : s'.isWaiting = true) : s.isWaiting = true := by
  cases h with
  | stays => exact hw
  | leads => cases hw
  | standsBy => cases hw
  | leader => cases hw
  | candidate => cases hw
  | follower => cases hw

theorem waiting_of_not_acked {plugin : PlatooningPlugin K} {r : Readings K} {e : Event K}
    (h : acked plugin r e = none) (hw : (plugin.step r e).plugin.state.isWaiting = true) :
    plugin.state.isWaiting = true := by
  cases e with
  | host e => exact (plugin.hostStep_move r e).isWaiting hw
  | receive msg =>
    have hreact := plugin.receive_reaction r msg
    dsimp only [PlatooningPlugin.step] at hw
    cases msg with
    | request msg =>
      dsimp only [PlatooningPlugin.receive] at hw
      rcases plugin.handleMobilityRequestMessage_cases r msg with
        ⟨-, heq⟩ | ⟨s, params, -, -, -, -, -, heq⟩ | ⟨s, hs, -, -, -⟩
      · rwa [heq] at hw
      · simp [acked, heq] at h
      · rw [hs]
        rfl
    | operation msg =>
      generalize plugin.receive r (.operation msg) = out at hreact hw
      cases hreact with
      | asks => cases hw
      | _ => exact hw
    | response msg =>
      generalize plugin.receive r (.response msg) = out at hreact hw
      cases hreact with
      | ignores => exact hw
      | _ => cases hw

namespace Platoon

theorem turn_of_join {p : Platoon K} {r : Readings K} {followers : Finset String} {e : Event K}
    {msg : MobilityRequest K} (h : acked p.leader r e = some msg) {params : JoinParams K}
    (htype : msg.type = .joinPlatoonAtRear params) :
    p.turn (.event r followers e) =
      ⟨(p.leader.step r e).plugin, p.joined, insert msg.header.senderId followers⟩ := by
  obtain ⟨header, type⟩ := msg
  obtain rfl : type = .joinPlatoonAtRear params := htype
  unfold turn
  simp only [h]

theorem turn_of_followerJoin {p : Platoon K} {r : Readings K} {followers : Finset String}
    {e : Event K} {msg : MobilityRequest K} (h : acked p.leader r e = some msg)
    (htype : msg.type = .platoonFollowerJoin) :
    p.turn (.event r followers e) =
      ⟨(p.leader.step r e).plugin, p.joined ∪ p.awaited, ∅⟩ := by
  obtain ⟨header, type⟩ := msg
  obtain rfl : type = .platoonFollowerJoin := htype
  unfold turn
  simp only [h]

theorem turn_of_not_acked {p : Platoon K} {r : Readings K} {followers : Finset String}
    {e : Event K} (h : acked p.leader r e = none) :
    p.turn (.event r followers e) =
      ⟨(p.leader.step r e).plugin, p.joined,
        if (p.leader.step r e).plugin.state.isWaiting then p.awaited else ∅⟩ := by
  unfold turn
  simp only [h]

/-! ## One turn -/

/-- There is room for those who come beside the listed and the accepted vehicles. -/
def HasRoom (p : Platoon K) (coming : Finset String) : Prop :=
  ((1 + (listed p.leader.platoonManager ∪ p.joined).card + coming.card : ℕ) : ℤ) ≤
    p.leader.params.maxPlatoonSize

omit [Field K] [LinearOrder K] in
theorem hasRoom_of_countsEveryone {p : Platoon K} {coming : Finset String} {params : JoinParams K}
    (h : p.CountsEveryone coming params)
    (htest : LeaderState.hasEnoughRoomInPlatoon p.leader params.size = true) :
    p.HasRoom coming := by
  obtain ⟨hrole, hsub, hsize, hint⟩ := h
  have htotal : p.leader.platoonManager.getTotalPlatooningSize =
      p.leader.platoonManager.platoon.length + 1 := by
    simp [PlatoonManager.getTotalPlatooningSize, hrole]
  have hsum : (BitVec.ofInt 32
      (params.size + p.leader.platoonManager.getTotalPlatooningSize)).toInt =
        params.size + p.leader.platoonManager.getTotalPlatooningSize := by
    apply (toInt_ofInt_eq_self_iff 31 _).mpr
    omega
  have htest := of_decide_eq_true htest
  rw [hsum, htotal] at htest
  have hlist := card_listed_le p.leader.platoonManager
  unfold HasRoom
  rw [Finset.union_eq_left.mpr hsub]
  omega

/-- A join request is acknowledged with room for those who come. -/
theorem join_fits {p : Platoon K} {r : Readings K} {followers : Finset String} {e : Event K}
    {msg : MobilityRequest K} (hok : p.LeavesRoom (.event r followers e))
    (hack : acked p.leader r e = some msg) {params : JoinParams K}
    (htype : msg.type = .joinPlatoonAtRear params) :
    ((p.turn (.event r followers e)).vehicles.card : ℤ) ≤ p.leader.params.maxPlatoonSize := by
  obtain ⟨rfl, ⟨params', htype', hlead, hroom, hgap, hclose, heq⟩ | ⟨htype', -, -⟩⟩ :=
    acked_cases hack
  · obtain ⟨header, type⟩ := msg
    obtain rfl : type = .joinPlatoonAtRear params' := htype'
    have hhas : p.HasRoom (insert header.senderId followers) :=
      hasRoom_of_countsEveryone (hok hlead hroom hgap hclose) hroom
    rw [turn_of_join hack rfl, heq]
    unfold vehicles
    dsimp only [PlatooningPlugin.setState_platoonManager]
    have hinsert := Finset.card_insert_le
      (p.leader.setState (.leaderWaiting ⟨header.senderId, r.now⟩)).hostMobilityId
      (listed p.leader.platoonManager ∪ p.joined ∪ insert header.senderId followers)
    have hunion := Finset.card_union_le (listed p.leader.platoonManager ∪ p.joined)
      (insert header.senderId followers)
    unfold HasRoom at hhas
    omega
  · rw [htype] at htype'
    cases htype'

/-- A follower join is acknowledged with the vehicles that were awaited. -/
theorem followerJoin_vehicles {p : Platoon K} {r : Readings K} {e : Event K}
    {msg : MobilityRequest K} (hack : acked p.leader r e = some msg)
    (htype : msg.type = .platoonFollowerJoin)
    (heq : (p.leader.step r e).plugin = p.leader.setState newLeaderState)
    (followers : Finset String) :
    (p.turn (.event r followers e)).vehicles = p.vehicles := by
  rw [turn_of_followerJoin hack htype, heq]
  unfold vehicles
  rw [Finset.union_empty, ← Finset.union_assoc]
  rfl

/-- What is not acknowledged brings in nobody, but for the sender of a STATUS. -/
theorem not_acked_vehicles {p : Platoon K} {r : Readings K} {e : Event K}
    (hack : acked p.leader r e = none) (followers : Finset String) :
    (p.turn (.event r followers e)).vehicles ⊆ p.vehicles ∨
    ∃ header params, e = .receive (.operation ⟨header, .status params⟩) ∧
      Heeds p.leader.platoonManager r.downtrack header.senderId header.planId params ∧
      (p.turn (.event r followers e)).vehicles ⊆ insert header.senderId p.vehicles := by
  rw [turn_of_not_acked hack]
  have hawaited : (if (p.leader.step r e).plugin.state.isWaiting = true then p.awaited else ∅) ⊆
      p.awaited := by
    split
    · exact subset_rfl
    · exact Finset.empty_subset _
  unfold vehicles
  dsimp only
  rw [PlatooningPlugin.step_hostMobilityId]
  rcases listed_step p.leader r e with hlist | ⟨header, params, heq, hheed, hlist⟩
  · left
    exact Finset.insert_subset_insert _
      (Finset.union_subset_union (Finset.union_subset_union hlist subset_rfl) hawaited)
  · right
    refine ⟨header, params, heq, hheed, ?_⟩
    rw [Finset.insert_comm]
    apply Finset.insert_subset_insert
    rw [← Finset.insert_union, ← Finset.insert_union]
    exact Finset.union_subset_union (Finset.union_subset_union hlist subset_rfl) hawaited

theorem turn_fits {p : Platoon K} (hfits : p.Fits) (t : Turn K) (hok : p.LeavesRoom t) :
    p.AcksFit t ∧ (p.turn t).Fits := by
  cases t with
  | leaves vehicleId =>
    refine ⟨trivial, ?_⟩
    intro hw
    have hsub : (p.turn (.leaves vehicleId)).vehicles ⊆ p.vehicles := by
      apply Finset.insert_subset_insert
      apply Finset.union_subset_union _ subset_rfl
      exact Finset.union_subset_union subset_rfl (Finset.erase_subset _ _)
    have hcard := Finset.card_le_card hsub
    have hold := hfits hw
    dsimp only [turn] at *
    omega
  | event r followers e =>
    rcases hack : acked p.leader r e with _ | msg
    · refine ⟨fun h => absurd hack h, ?_⟩
      intro hw
      have hleader : (p.turn (.event r followers e)).leader = (p.leader.step r e).plugin := by
        rw [turn_of_not_acked hack]
      rw [hleader] at hw
      rw [hleader, PlatooningPlugin.step_params]
      have hwait := waiting_of_not_acked hack hw
      have hold := hfits hwait
      rcases not_acked_vehicles hack followers with
        hsub | ⟨header, params, rfl, hheed, hsub⟩
      · have hcard := Finset.card_le_card hsub
        omega
      · have hcard := Finset.card_le_card hsub
        rcases hok hwait hheed with hmem | hless
        · rw [Finset.insert_eq_of_mem hmem] at hcard
          omega
        · have hnew := Finset.card_insert_le header.senderId p.vehicles
          omega
    · obtain ⟨-, ⟨params, htype, -⟩ | ⟨htype, hwait, heq⟩⟩ := acked_cases hack
      · have hfit := join_fits hok hack htype
        refine ⟨fun _ => hfit, ?_⟩
        intro _
        rw [turn_of_join hack htype] at *
        rwa [PlatooningPlugin.step_params]
      · have hsame := followerJoin_vehicles hack htype heq followers
        refine ⟨fun _ => ?_, ?_⟩
        · rw [hsame]
          exact hfits hwait
        · intro hw
          rw [turn_of_followerJoin hack htype, heq] at hw
          cases hw

/-! ## Runs -/

/-- A new plugin leads nobody. -/
def alone (params : PlatooningParams K) (hostMobilityId uuid : String) : Platoon K :=
  ⟨newPlugin params hostMobilityId uuid, ∅, ∅⟩

/-- In a run whose join requests and STATUS messages leave room, the leader sends no ACK
that lets the platoon grow past its size. -/
theorem the_platoon_keeps_its_size_while_there_is_room (params : PlatooningParams K)
    (hostMobilityId uuid : String) (turns : List (Turn K))
    (h : EachCall turn LeavesRoom (alone params hostMobilityId uuid) turns) :
    EachCall turn AcksFit (alone params hostMobilityId uuid) turns := by
  have hstep : ∀ (p : Platoon K) (t : Turn K),
      p.Fits → p.LeavesRoom t → p.AcksFit t ∧ (p.turn t).Fits := fun _ t hf => turn_fits hf t
  have h0 : (alone params hostMobilityId uuid).Fits := fun hw => by cases hw
  exact eachCall_of_keeps hstep h0 h

end Platoon

end

/-! ## Two vehicles that apply to a platoon of two -/

def platoonsOfTwo : PlatooningParams ℚ := { defaultParams with maxPlatoonSize := 2 }

/-- The leader is 100 m down the route. -/
def leaderReadings : Readings ℚ where
  tsStart := 1000
  now := 1000
  uuid := "uuid"
  bsmId := "bsm"
  downtrack := 100
  currentSpeed := 10
  lastSpeedCmd := 10
  distanceToFrontVehicle := none

def entersWindow : Turn ℚ := .event leaderReadings ∅ (.host (.planTrajectory true none))

/-- A single vehicle, 50 m down the route, asks to join at the rear. -/
def applies (vehicleId : String) : Turn ℚ :=
  .event leaderReadings ∅ (.receive (.request
    ⟨⟨vehicleId, "host", "bsm", "join " ++ vehicleId⟩, .joinPlatoonAtRear ⟨1, 10, 50⟩⟩))

def comes (vehicleId : String) : Turn ℚ :=
  .event leaderReadings ∅ (.receive (.request
    ⟨⟨vehicleId, "host", "bsm", "follow " ++ vehicleId⟩, .platoonFollowerJoin⟩))

def isHeard (vehicleId : String) : Turn ℚ :=
  .event leaderReadings ∅ (.receive (.operation
    ⟨⟨vehicleId, "", "bsm", "platoon"⟩, .status ⟨10, 80, 10⟩⟩))

open Platoon in
/-- The second vehicle applies after the first was heard, and is refused. -/
theorem the_second_is_refused_once_the_first_is_heard :
    EachCall turn AcksFit (alone platoonsOfTwo "host" "platoon")
      [entersWindow, applies "first", comes "first", isHeard "first", applies "second"] := by
  apply the_platoon_keeps_its_size_while_there_is_room
  refine ⟨trivial, ?_, trivial, ?_, ?_, trivial⟩
  · intro _ _ _ _
    unfold CountsEveryone
    decide +kernel
  · intro hw
    exact absurd hw (by decide +kernel)
  · intro _ hroom
    exact absurd hroom (by decide +kernel)

open Platoon in
/-- The second vehicle applies before the first was heard, and is accepted: the platoon
of two becomes one of three. -/
theorem the_second_is_accepted_before_the_first_is_heard :
    ¬ ∀ turns : List (Turn ℚ), EachCall turn AcksFit (alone platoonsOfTwo "host" "platoon") turns := by
  intro h
  have hlast := (h [entersWindow, applies "first", comes "first", applies "second"]).2.2.2.1
  have hthree := hlast (by decide +kernel)
  revert hthree
  decide +kernel

end carma.platooning
