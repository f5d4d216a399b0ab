-- What an event can do to the platooning plugin, said once for each kind of event, and
-- what no event changes.
import Carma.Platooning

open carma.platoon_manager

namespace carma.platoon_manager

/-! ## What the manager keeps -/

namespace PlatoonManager

variable {K : Type}

@[simp] theorem updatesOrAddMemberInfo_hostMobilityId [LinearOrder K] (m : PlatoonManager K)
    (senderId senderBsmId : String) (params : StatusParams K) (now : ℤ) :
    (m.updatesOrAddMemberInfo senderId senderBsmId params now).hostMobilityId =
      m.hostMobilityId := by
  unfold updatesOrAddMemberInfo
  split <;> rfl

@[simp] theorem memberUpdates_hostMobilityId [LinearOrder K] (m : PlatoonManager K)
    (downtrack : K) (now : ℤ) (senderId platoonId senderBsmId : String)
    (params : StatusParams K) :
    (m.memberUpdates downtrack now senderId platoonId senderBsmId params).hostMobilityId =
      m.hostMobilityId := by
  unfold memberUpdates
  simp only
  split_ifs <;> simp

@[simp] theorem removeExpiredMember_hostMobilityId (m : PlatoonManager K) (clock : ℕ → ℤ) :
    (m.removeExpiredMember clock).hostMobilityId = m.hostMobilityId := by
  unfold removeExpiredMember
  simp only
  split
  · split <;> rfl
  · rfl

end PlatoonManager

end carma.platoon_manager

namespace carma.platooning

variable {K : Type}

namespace PlatooningPlugin

/-! ## A change of state -/

@[simp] theorem setState_platoonManager (plugin : PlatooningPlugin K) (state : PlatooningState) :
    (plugin.setState state).platoonManager = plugin.platoonManager := rfl

section

variable [Field K] [LinearOrder K]

/-! ## What each event can do -/

/-- A request changes the plugin only when it is acknowledged: a leader that waits then
for the applicant, or a waiting leader whose applicant has come. -/
theorem handleMobilityRequestMessage_cases (plugin : PlatooningPlugin K) (r : Readings K)
    (msg : MobilityRequest K) :
    ((plugin.handleMobilityRequestMessage r msg).2 ≠ .ack ∧
      (plugin.handleMobilityRequestMessage r msg).1 = plugin) ∨
    (∃ s params, plugin.state = .leader s ∧ msg.type = .joinPlatoonAtRear params ∧
      LeaderState.hasEnoughRoomInPlatoon plugin params.size = true ∧
      0 ≤ LeaderState.currentGap plugin r params ∧
      LeaderState.isDistanceCloseEnough plugin (LeaderState.currentGap plugin r params)
        params.speed = true ∧
      plugin.handleMobilityRequestMessage r msg =
        (plugin.setState (.leaderWaiting ⟨msg.header.senderId, r.now⟩), .ack)) ∨
    (∃ s, plugin.state = .leaderWaiting s ∧ msg.type = .platoonFollowerJoin ∧
      msg.header.senderId = s.applicantId ∧
      plugin.handleMobilityRequestMessage r msg = (plugin.setState newLeaderState, .ack)) := by
  unfold handleMobilityRequestMessage
  cases hstate : plugin.state with
  | standby => simp
  | candidateFollower s => simp
  | follower s => simp
  | leader s =>
    unfold LeaderState.onMobilityRequestMessage
    cases htype : msg.type with
    | platoonFollowerJoin => simp
    | other => simp
    | joinPlatoonAtRear params =>
      dsimp only
      by_cases hroom : LeaderState.hasEnoughRoomInPlatoon plugin params.size = true
      · by_cases hgap : LeaderState.currentGap plugin r params < 0
        · simp [hroom, hgap]
        · by_cases hclose : LeaderState.isDistanceCloseEnough plugin
              (LeaderState.currentGap plugin r params) params.speed = true
          · rw [if_pos hroom, if_neg hgap, if_pos hclose]
            exact .inr (.inl ⟨s, params, rfl, rfl, hroom, not_lt.mp hgap, hclose, rfl⟩)
          · simp [hroom, hgap, hclose]
      · simp [hroom]
  | leaderWaiting s =>
    unfold LeaderWaitingState.onMobilityRequestMessage
    cases htype : msg.type with
    | joinPlatoonAtRear params => simp
    | other => simp
    | platoonFollowerJoin =>
      dsimp only
      by_cases happlicant : msg.header.senderId = s.applicantId
      · rw [if_pos happlicant]
        exact .inr (.inr ⟨s, rfl, rfl, happlicant, rfl⟩)
      · simp [happlicant]

/-- How a plugin reacts to a message: what it is afterwards, and what it publishes. -/
inductive Reaction (plugin : PlatooningPlugin K) (r : Readings K) :
    Message K → Outcome K → Prop where
  | ignores (msg : Message K) : Reaction plugin r msg ⟨plugin, []⟩
  | refuses (msg : MobilityRequest K) :
      Reaction plugin r (.request msg) ⟨plugin, plugin.respond r msg .nack⟩
  | accepts {l : LeaderState} (hstate : plugin.state = .leader l) {msg : MobilityRequest K}
      {params : JoinParams K} (htype : msg.type = .joinPlatoonAtRear params) :
      Reaction plugin r (.request msg)
        ⟨plugin.setState (.leaderWaiting ⟨msg.header.senderId, r.now⟩), plugin.respond r msg .ack⟩
  | admits {l : LeaderWaitingState} (hstate : plugin.state = .leaderWaiting l)
      {msg : MobilityRequest K} (htype : msg.type = .platoonFollowerJoin)
      (happlicant : msg.header.senderId = l.applicantId) :
      Reaction plugin r (.request msg) ⟨plugin.setState newLeaderState, plugin.respond r msg .ack⟩
  | updates (header : MobilityHeader) (params : StatusParams K) :
      Reaction plugin r (.operation ⟨header, .status params⟩)
        ⟨plugin.memberUpdates r header params, []⟩
  | asks {l : LeaderState} (hstate : plugin.state = .leader l) (hplan : l.currentPlan = none)
      (info : MobilityOperation K) :
      Reaction plugin r (.operation info)
        ⟨{ plugin with
            state := .leader { l with
              currentPlan := some ⟨r.now, r.uuid, info.header.senderId⟩
              potentialNewPlatoonId := info.header.planId } },
          [plugin.joinRequest r info.header.senderId]⟩
  | learnsSize {f : FollowerState} (hstate : plugin.state = .follower f)
      (info : MobilityOperation K) (size : ℤ) :
      Reaction plugin r (.operation info)
        ⟨{ plugin with platoonManager := { plugin.platoonManager with platoonSize := size } }, []⟩
  | approaches {l : LeaderState} {plan : PlatoonPlan} (hstate : plugin.state = .leader l)
      (hplan : l.currentPlan = some plan) (msg : MobilityResponse) :
      Reaction plugin r (.response msg)
        ⟨plugin.setState
          (.candidateFollower ⟨plan.peerId, l.potentialNewPlatoonId, none, r.now⟩), []⟩
  | forgets {l : LeaderState} (hstate : plugin.state = .leader l) (msg : MobilityResponse) :
      Reaction plugin r (.response msg)
        ⟨{ plugin with state := .leader { l with currentPlan := none } }, []⟩
  | follows {c : CandidateFollowerState} {plan : PlatoonPlan}
      (hstate : plugin.state = .candidateFollower c) (hplan : c.currentPlan = some plan)
      {msg : MobilityResponse} (hid : msg.header.planId = plan.planId)
      (hsender : msg.header.senderId = c.targetLeaderId) (haccepted : msg.isAccepted = true) :
      Reaction plugin r (.response msg)
        ⟨{ plugin with
          platoonManager :=
            plugin.platoonManager.changeFromLeaderToFollower c.targetPlatoonId }.setState
          (.follower ⟨0⟩), []⟩
  | givesUp {c : CandidateFollowerState} (hstate : plugin.state = .candidateFollower c)
      (msg : MobilityResponse) :
      Reaction plugin r (.response msg) ⟨plugin.setState newLeaderState, []⟩

theorem request_reaction (plugin : PlatooningPlugin K) (r : Readings K)
    (msg : MobilityRequest K) :
    Reaction plugin r (.request msg) (plugin.receive r (.request msg)) := by
  dsimp only [receive]
  rcases handleMobilityRequestMessage_cases plugin r msg with
    ⟨hno, h⟩ | ⟨l, params, hstate, htype, -, -, -, h⟩ | ⟨l, hstate, htype, happlicant, h⟩
  · rw [h]
    cases hanswer : (plugin.handleMobilityRequestMessage r msg).2 with
    | ack => exact absurd hanswer hno
    | nack => exact .refuses msg
    | noResponse => exact .ignores _
  · rw [h]
    exact .accepts hstate htype
  · rw [h]
    exact .admits hstate htype happlicant

omit [Field K] in
theorem operation_reaction (plugin : PlatooningPlugin K) (r : Readings K)
    (msg : MobilityOperation K) :
    Reaction plugin r (.operation msg) (plugin.handleMobilityOperationMessage r msg) := by
  obtain ⟨header, params⟩ := msg
  unfold handleMobilityOperationMessage
  cases hstate : plugin.state with
  | standby => exact .ignores _
  | leader l =>
    dsimp only
    unfold LeaderState.onMobilityOperationMessage
    cases params with
    | other => cases l.currentPlan <;> exact .ignores _
    | status params => cases l.currentPlan <;> exact .updates header params
    | info params =>
      dsimp only
      cases hplan : l.currentPlan with
      | some plan => exact .ignores _
      | none =>
        dsimp only
        split_ifs
        · exact .ignores _
        · exact .asks hstate hplan _
        · exact .ignores _
  | leaderWaiting l =>
    cases params with
    | other => exact .ignores _
    | status params => exact .updates header params
    | info params => exact .ignores _
  | candidateFollower c =>
    cases params with
    | other => exact .ignores _
    | status params => exact .updates header params
    | info params => exact .ignores _
  | follower f =>
    dsimp only
    unfold FollowerState.onMobilityOperationMessage
    cases params with
    | other => exact .ignores _
    | status params => exact .updates header params
    | info params =>
      dsimp only
      split_ifs
      · exact .learnsSize hstate _ _
      · exact .ignores _

omit [Field K] in
theorem response_reaction (plugin : PlatooningPlugin K) (r : Readings K) (msg : MobilityResponse) :
    Reaction plugin r (.response msg) ⟨plugin.handleMobilityResponseMessage r msg, []⟩ := by
  unfold handleMobilityResponseMessage
  cases hstate : plugin.state with
  | standby => exact .ignores _
  | leaderWaiting l => exact .ignores _
  | follower f => exact .ignores _
  | leader l =>
    dsimp only
    unfold LeaderState.onMobilityResponseMessage
    cases hplan : l.currentPlan with
    | none => exact .ignores _
    | some plan =>
      dsimp only
      split
      · split
        · exact .approaches hstate hplan msg
        · exact .forgets hstate msg
      · exact .ignores _
  | candidateFollower c =>
    dsimp only
    unfold CandidateFollowerState.onMobilityResponseMessage
    cases hplan : c.currentPlan with
    | none => exact .ignores _
    | some plan =>
      dsimp only
      split
      · rename_i hmatch
        split
        · rename_i haccepted
          exact .follows hstate hplan hmatch.1 hmatch.2 haccepted
        · exact .givesUp hstate msg
      · exact .ignores _

theorem receive_reaction (plugin : PlatooningPlugin K) (r : Readings K) (msg : Message K) :
    Reaction plugin r msg (plugin.receive r msg) := by
  cases msg with
  | request msg => exact request_reaction plugin r msg
  | operation msg => exact operation_reaction plugin r msg
  | response msg => exact response_reaction plugin r msg

/-- The moves that an event of the vehicle can make: a new leader's state, standby, or
the old state with its plan dropped or, for a candidate, made. -/
inductive HostMove (r : Readings K) : PlatooningState → PlatooningState → Prop where
  | stays (s : PlatooningState) : HostMove r s s
  | leads (s : PlatooningState) : HostMove r s newLeaderState
  | standsBy (s : PlatooningState) : HostMove r s .standby
  | leader {s s' : LeaderState} (hplatoon : s'.potentialNewPlatoonId = s.potentialNewPlatoonId)
      (hplan : s'.currentPlan = s.currentPlan ∨ s'.currentPlan = none) :
      HostMove r (.leader s) (.leader s')
  | candidate {c c' : CandidateFollowerState} (hleader : c'.targetLeaderId = c.targetLeaderId)
      (hplatoon : c'.targetPlatoonId = c.targetPlatoonId)
      (hplan : c'.currentPlan = c.currentPlan ∨ c'.currentPlan = none ∨
        c'.currentPlan = some ⟨r.now, r.uuid, c.targetLeaderId⟩) :
      HostMove r (.candidateFollower c) (.candidateFollower c')
  | follower (f f' : FollowerState) : HostMove r (.follower f) (.follower f')

theorem run_move (plugin : PlatooningPlugin K) (r : Readings K) :
    HostMove r plugin.state (plugin.run r).plugin.state := by
  unfold run
  cases hstate : plugin.state with
  | standby =>
    dsimp only
    rw [hstate]
    exact .stays _
  | leader s =>
    apply HostMove.leader
    · rfl
    · dsimp only
      split
      · exact .inr rfl
      · exact .inl rfl
  | leaderWaiting s =>
    dsimp only [LeaderWaitingState.run]
    split
    · exact .leads _
    · rw [hstate]
      exact .stays _
  | candidateFollower c =>
    dsimp only [CandidateFollowerState.run]
    split
    · exact .leads _
    · apply HostMove.candidate
      · rfl
      · rfl
      · dsimp only
        split_ifs <;> simp
  | follower f =>
    dsimp only [FollowerState.run]
    split
    · split
      · exact .leads _
      · exact .follower _ _
    · exact .follower _ _

theorem hostStep_move (plugin : PlatooningPlugin K) (r : Readings K) (e : HostEvent K) :
    HostMove r plugin.state (plugin.hostStep r e).plugin.state := by
  cases e with
  | run =>
    dsimp only [hostStep]
    split
    · exact run_move plugin r
    · exact .stays _
  | removeExpiredMember clock =>
    dsimp only [hostStep]
    split <;> exact .stays _
  | planTrajectory enabled window =>
    dsimp only [hostStep]
    unfold planTrajectory
    split
    · exact .leads _
    · exact .stays _
    · split
      · exact .standsBy _
      · exact .stays _
    · exact .stays _
    · exact .standsBy _
  | onSuspend => exact .stays _
  | onResume =>
    dsimp only [hostStep, onResume]
    split <;> exact .standsBy _

/-- A pass of a loop leaves the manager alone, but for a follower that takes the lead. -/
theorem run_platoonManager (plugin : PlatooningPlugin K) (r : Readings K) :
    (plugin.run r).plugin.platoonManager = plugin.platoonManager ∨
    (plugin.run r).plugin.platoonManager =
      plugin.platoonManager.changeFromFollowerToLeader r.uuid := by
  unfold run
  cases hstate : plugin.state with
  | standby => exact .inl rfl
  | leader s => exact .inl rfl
  | leaderWaiting s =>
    dsimp only [LeaderWaitingState.run]
    split <;> exact .inl rfl
  | candidateFollower c =>
    dsimp only [CandidateFollowerState.run]
    split <;> exact .inl rfl
  | follower f =>
    dsimp only [FollowerState.run]
    split
    · split
      · exact .inr rfl
      · exact .inl rfl
    · exact .inl rfl

/-- What an event of the vehicle does to the manager. -/
theorem hostStep_platoonManager (plugin : PlatooningPlugin K) (r : Readings K) (e : HostEvent K) :
    (plugin.hostStep r e).plugin.platoonManager = plugin.platoonManager ∨
    (plugin.hostStep r e).plugin.platoonManager =
      plugin.platoonManager.changeFromFollowerToLeader r.uuid ∨
    (∃ clock, (plugin.hostStep r e).plugin.platoonManager =
      plugin.platoonManager.removeExpiredMember clock) ∨
    (plugin.hostStep r e).plugin.platoonManager =
      newPlatoonManager plugin.hostMobilityId r.uuid plugin.params.memberInfoTimeout := by
  cases e with
  | run =>
    dsimp only [hostStep]
    split
    · rcases run_platoonManager plugin r with h | h
      · exact .inl h
      · exact .inr (.inl h)
    · exact .inl rfl
  | removeExpiredMember clock =>
    dsimp only [hostStep]
    split
    · exact .inr (.inr (.inl ⟨clock, rfl⟩))
    · exact .inl rfl
  | planTrajectory enabled window =>
    dsimp only [hostStep]
    unfold planTrajectory
    split
    · exact .inl rfl
    · exact .inl rfl
    · split <;> exact .inl rfl
    · exact .inl rfl
    · exact .inl rfl
  | onSuspend => exact .inl rfl
  | onResume =>
    dsimp only [hostStep, onResume]
    split
    · exact .inl rfl
    · exact .inr (.inr (.inr rfl))

/-! ## What no event changes -/

/-- The vehicle that a plugin is on: its parameters and its id. -/
def vehicle (plugin : PlatooningPlugin K) : PlatooningParams K × String :=
  (plugin.params, plugin.hostMobilityId)

theorem run_params (plugin : PlatooningPlugin K) (r : Readings K) :
    (plugin.run r).plugin.params = plugin.params := by
  unfold run
  cases hstate : plugin.state with
  | standby => rfl
  | leader s => rfl
  | leaderWaiting s =>
    dsimp only [LeaderWaitingState.run]
    split <;> rfl
  | candidateFollower c =>
    dsimp only [CandidateFollowerState.run]
    split <;> rfl
  | follower f =>
    dsimp only [FollowerState.run]
    split
    · split <;> rfl
    · rfl

theorem hostStep_params (plugin : PlatooningPlugin K) (r : Readings K) (e : HostEvent K) :
    (plugin.hostStep r e).plugin.params = plugin.params := by
  cases e with
  | run =>
    dsimp only [hostStep]
    split
    · exact run_params plugin r
    · rfl
  | removeExpiredMember clock =>
    dsimp only [hostStep]
    split <;> rfl
  | planTrajectory enabled window =>
    dsimp only [hostStep]
    unfold planTrajectory
    split
    · rfl
    · rfl
    · split <;> rfl
    · rfl
    · rfl
  | onSuspend => rfl
  | onResume =>
    dsimp only [hostStep, onResume]
    split <;> rfl

theorem hostStep_hostMobilityId (plugin : PlatooningPlugin K) (r : Readings K)
    (e : HostEvent K) : (plugin.hostStep r e).plugin.hostMobilityId = plugin.hostMobilityId := by
  unfold hostMobilityId
  rcases hostStep_platoonManager plugin r e with h | h | ⟨clock, h⟩ | h
  · rw [h]
  · rw [h]
    rfl
  · rw [h, PlatoonManager.removeExpiredMember_hostMobilityId]
  · rw [h]
    rfl

theorem receive_vehicle (plugin : PlatooningPlugin K) (r : Readings K) (msg : Message K) :
    (plugin.receive r msg).plugin.vehicle = plugin.vehicle := by
  have hreact := receive_reaction plugin r msg
  generalize plugin.receive r msg = out at hreact
  cases hreact with
  | updates header params =>
    exact Prod.ext rfl (PlatoonManager.memberUpdates_hostMobilityId _ _ _ _ _ _ _)
  | _ => rfl

theorem step_vehicle (plugin : PlatooningPlugin K) (r : Readings K) (e : Event K) :
    (plugin.step r e).plugin.vehicle = plugin.vehicle := by
  cases e with
  | receive msg => exact receive_vehicle plugin r msg
  | host e =>
    exact Prod.ext (hostStep_params plugin r e) (hostStep_hostMobilityId plugin r e)

@[simp] theorem step_params (plugin : PlatooningPlugin K) (r : Readings K) (e : Event K) :
    (plugin.step r e).plugin.params = plugin.params := congrArg Prod.fst (step_vehicle plugin r e)

@[simp] theorem step_hostMobilityId (plugin : PlatooningPlugin K) (r : Readings K) (e : Event K) :
    (plugin.step r e).plugin.hostMobilityId = plugin.hostMobilityId :=
  congrArg Prod.snd (step_vehicle plugin r e)

/-! ## What an event publishes -/

/-- How a message came to be sent: an operation message under the platoon id of the host,
the join request that answers an INFO, the request of a candidate, or the response of a
leader to a request. -/
inductive Publishes (plugin : PlatooningPlugin K) (r : Readings K) :
    Event K → Message K → Prop where
  | operation (e : Event K) (params : OperationParams K) :
      Publishes plugin r e
        (.operation ⟨plugin.header r "" plugin.platoonManager.currentPlatoonID, params⟩)
  | join {l : LeaderState} (hstate : plugin.state = .leader l) (hplan : l.currentPlan = none)
      (info : MobilityOperation K) :
      Publishes plugin r (.receive (.operation info)) (plugin.joinRequest r info.header.senderId)
  | followerJoin {c : CandidateFollowerState} (hstate : plugin.state = .candidateFollower c)
      (e : HostEvent K) :
      Publishes plugin r (.host e) (plugin.followerJoinRequest r c.targetLeaderId)
  | nack (msg : MobilityRequest K) :
      Publishes plugin r (.receive (.request msg))
        (.response ⟨plugin.header r msg.header.senderId msg.header.planId, false⟩)
  | ack {l : LeaderState} (hstate : plugin.state = .leader l) {msg : MobilityRequest K}
      {params : JoinParams K} (htype : msg.type = .joinPlatoonAtRear params) :
      Publishes plugin r (.receive (.request msg))
        (.response ⟨plugin.header r msg.header.senderId msg.header.planId, true⟩)
  | followerAck {l : LeaderWaitingState} (hstate : plugin.state = .leaderWaiting l)
      {msg : MobilityRequest K} (htype : msg.type = .platoonFollowerJoin)
      (happlicant : msg.header.senderId = l.applicantId) :
      Publishes plugin r (.receive (.request msg))
        (.response ⟨plugin.header r msg.header.senderId msg.header.planId, true⟩)

theorem run_publishes (plugin : PlatooningPlugin K) (r : Readings K) :
    ∀ m ∈ (plugin.run r).published, Publishes plugin r (.host .run) m := by
  intro m hm
  unfold run at hm
  cases hstate : plugin.state with
  | standby => simp [hstate] at hm
  | leader s =>
    simp only [hstate, LeaderState.run, List.mem_append, List.mem_ite_nil_right,
      List.mem_singleton] at hm
    rcases hm with ⟨-, rfl⟩ | ⟨-, rfl⟩
    · exact .operation _ _
    · exact .operation _ _
  | leaderWaiting s =>
    simp only [hstate, LeaderWaitingState.run, List.mem_singleton] at hm
    rw [hm]
    exact .operation _ _
  | candidateFollower c =>
    simp only [hstate, CandidateFollowerState.run, List.mem_append, List.mem_ite_nil_right,
      List.mem_singleton] at hm
    rcases hm with ⟨-, rfl⟩ | ⟨-, rfl⟩
    · exact .followerJoin hstate _
    · exact .operation _ _
  | follower s =>
    simp only [hstate, FollowerState.run, List.mem_singleton] at hm
    rw [hm]
    exact .operation _ _

/-- Every message that is published is one of these. -/
theorem step_publishes (plugin : PlatooningPlugin K) (r : Readings K) (e : Event K) :
    ∀ m ∈ (plugin.step r e).published, Publishes plugin r e m := by
  intro m hm
  cases e with
  | host e =>
    cases e with
    | run =>
      dsimp only [step, hostStep] at hm
      split at hm
      · exact run_publishes plugin r m hm
      · cases hm
    | removeExpiredMember clock => cases hm
    | planTrajectory enabled window => cases hm
    | onSuspend => cases hm
    | onResume => cases hm
  | receive msg =>
    have hreact := receive_reaction plugin r msg
    dsimp only [step] at hm
    generalize plugin.receive r msg = out at hreact hm
    cases hreact with
    | refuses req =>
      rw [List.mem_singleton.mp hm]
      exact .nack req
    | accepts hstate htype =>
      rw [List.mem_singleton.mp hm]
      exact .ack hstate htype
    | admits hstate htype happlicant =>
      rw [List.mem_singleton.mp hm]
      exact .followerAck hstate htype happlicant
    | asks hstate hplan info =>
      rw [List.mem_singleton.mp hm]
      exact .join hstate hplan info
    | _ => cases hm

/-! ## Where a state comes from -/

theorem step_host_move {plugin : PlatooningPlugin K} {r : Readings K} {e : HostEvent K}
    {s' : PlatooningState} (h : (plugin.step r (.host e)).plugin.state = s') :
    HostMove r plugin.state s' := by
  rw [← h]
  exact plugin.hostStep_move r e

/-- A candidate was one before, for the same leader and platoon, or has come from the
leader's state with what its plan was made for. -/
theorem candidate_after {plugin : PlatooningPlugin K} {r : Readings K} {e : Event K}
    {c' : CandidateFollowerState} (h : (plugin.step r e).plugin.state = .candidateFollower c') :
    (∃ c, plugin.state = .candidateFollower c ∧ c'.targetLeaderId = c.targetLeaderId ∧
      c'.targetPlatoonId = c.targetPlatoonId ∧
      (c'.currentPlan = c.currentPlan ∨ c'.currentPlan = none ∨
        c'.currentPlan = some ⟨r.now, r.uuid, c.targetLeaderId⟩)) ∨
    (∃ l plan, plugin.state = .leader l ∧ l.currentPlan = some plan ∧
      c'.targetPlatoonId = l.potentialNewPlatoonId ∧ c'.currentPlan = none) := by
  cases e with
  | host e =>
    have hmove := step_host_move h
    generalize plugin.state = s at hmove
    left
    cases hmove with
    | stays => exact ⟨c', rfl, rfl, rfl, .inl rfl⟩
    | candidate hleader hplatoon hplan => exact ⟨_, rfl, hleader, hplatoon, hplan⟩
  | receive msg =>
    have hreact := receive_reaction plugin r msg
    dsimp only [step] at h
    generalize plugin.receive r msg = out at hreact h
    cases hreact with
    | ignores => exact .inl ⟨c', h, rfl, rfl, .inl rfl⟩
    | refuses => exact .inl ⟨c', h, rfl, rfl, .inl rfl⟩
    | updates => exact .inl ⟨c', h, rfl, rfl, .inl rfl⟩
    | learnsSize => exact .inl ⟨c', h, rfl, rfl, .inl rfl⟩
    | approaches hstate hplan =>
      cases h
      exact .inr ⟨_, _, hstate, hplan, rfl, rfl⟩
    | _ => cases h

/-- A leader that waits for an answer was waiting before, or has just answered an INFO. -/
theorem asking_after {plugin : PlatooningPlugin K} {r : Readings K} {e : Event K}
    {l' : LeaderState} {plan' : PlatoonPlan} (h : (plugin.step r e).plugin.state = .leader l')
    (hplan' : l'.currentPlan = some plan') :
    (∃ l plan, plugin.state = .leader l ∧ l.currentPlan = some plan ∧
      l'.potentialNewPlatoonId = l.potentialNewPlatoonId) ∨
    (∃ info, e = .receive (.operation info) ∧ l'.potentialNewPlatoonId = info.header.planId ∧
      plugin.joinRequest r info.header.senderId ∈ (plugin.step r e).published) := by
  have hnew : newLeaderState = .leader l' → False := by
    intro heq
    cases heq
    cases hplan'
  cases e with
  | host e =>
    have hmove := step_host_move h
    generalize plugin.state = s at hmove
    left
    cases hmove with
    | stays => exact ⟨l', plan', rfl, hplan', rfl⟩
    | leads => cases hplan'
    | leader hplatoon hplan =>
      rcases hplan with hplan | hplan
      · exact ⟨_, plan', rfl, hplan ▸ hplan', hplatoon⟩
      · rw [hplan] at hplan'
        cases hplan'
  | receive msg =>
    have hreact := receive_reaction plugin r msg
    dsimp only [step] at h ⊢
    generalize plugin.receive r msg = out at hreact h ⊢
    cases hreact with
    | ignores => exact .inl ⟨l', plan', h, hplan', rfl⟩
    | refuses => exact .inl ⟨l', plan', h, hplan', rfl⟩
    | updates => exact .inl ⟨l', plan', h, hplan', rfl⟩
    | learnsSize => exact .inl ⟨l', plan', h, hplan', rfl⟩
    | asks hstate hplan info =>
      cases h
      exact .inr ⟨info, rfl, rfl, List.mem_singleton_self _⟩
    | admits => exact (hnew h).elim
    | givesUp => exact (hnew h).elim
    | forgets =>
      cases h
      cases hplan'
    | _ => cases h

/-- A candidate becomes a follower by the accepted response of its target leader to its
plan, and takes the platoon id that it was a candidate for. -/
theorem follower_after {plugin : PlatooningPlugin K} {r : Readings K} {e : Event K}
    {c : CandidateFollowerState} {f : FollowerState} (hc : plugin.state = .candidateFollower c)
    (hf : (plugin.step r e).plugin.state = .follower f) :
    ∃ msg plan, e = .receive (.response msg) ∧ msg.isAccepted = true ∧ c.currentPlan = some plan ∧
      msg.header.planId = plan.planId ∧ msg.header.senderId = c.targetLeaderId ∧
      (plugin.step r e).plugin.platoonManager.currentPlatoonID = c.targetPlatoonId := by
  have hstays : plugin.state = .follower f → False := by
    intro h
    rw [hc] at h
    cases h
  cases e with
  | host e =>
    have hmove := step_host_move hf
    rw [hc] at hmove
    cases hmove
  | receive msg =>
    have hreact := receive_reaction plugin r msg
    dsimp only [step] at hf ⊢
    generalize plugin.receive r msg = out at hreact hf ⊢
    cases hreact with
    | ignores => exact (hstays hf).elim
    | refuses => exact (hstays hf).elim
    | updates => exact (hstays hf).elim
    | learnsSize => exact (hstays hf).elim
    | follows hstate hplan hid hsender haccepted =>
      rw [hc] at hstate
      cases hstate
      exact ⟨_, _, rfl, haccepted, hplan, hid, hsender, rfl⟩
    | _ => cases hf

end

end PlatooningPlugin

end carma.platooning
