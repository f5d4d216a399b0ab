-- Vehicles that run the platooning plugin and hear of each other by messages, which may
-- come late, out of order, twice or never. Each message is kept with the platoon id that
-- its sender held when it sent it, and each vehicle with the INFO that its last join
-- request answered. The code keeps neither: they are there to speak of the past.
import Carma.Lib.Network
import Carma.Lib.Runs
import Carma.PlatooningLaws

open lib.network lib.runs carma.platoon_manager

namespace carma.platooning

/-! ## The network -/

/-- A message, with the platoon id that its sender held when it sent it. -/
structure Sent (K : Type) where
  msg : Message K
  held : String
deriving DecidableEq

/-- A vehicle, with the INFO that its last join request answered. -/
structure Vehicle (K : Type) where
  plugin : PlatooningPlugin K
  answered : Option (Sent K)

/-- All vehicles and messages, and the random ids that were drawn. -/
structure World (K : Type) extends Network String (Vehicle K) (Sent K) where
  drawn : List String

/-- What an act comes from. -/
inductive Cause (K : Type) where
  | message (s : Sent K)
  | host (e : HostEvent K)

structure Act (K : Type) where
  vehicleId : String
  r : Readings K
  cause : Cause K

variable {K : Type}

def Message.header : Message K → MobilityHeader
  | .request msg => msg.header
  | .operation msg => msg.header
  | .response msg => msg.header

def Message.isJoinRequest : Message K → Bool
  | .request ⟨_, .joinPlatoonAtRear _⟩ => true
  | _ => false

def Cause.event : Cause K → Event K
  | .message s => .receive s.msg
  | .host e => .host e

/-- The INFO to recall after an act: the message, if a join request answers it. -/
def Cause.answered (published : List (Message K)) (old : Option (Sent K)) :
    Cause K → Option (Sent K)
  | .message s => if published.any Message.isJoinRequest then some s else old
  | .host _ => old

namespace World

/-- A message is delivered to its recipient, or to anybody if it is a broadcast. -/
def Allows (w : World K) (a : Act K) : Prop :=
  match a.cause with
  | .message s => s ∈ w.sent ∧
    (s.msg.header.recipientId = a.vehicleId ∨ s.msg.header.recipientId = "")
  | .host _ => True

instance [DecidableEq K] (w : World K) : (a : Act K) → Decidable (w.Allows a)
  | ⟨_, _, .message _⟩ => inferInstanceAs (Decidable (_ ∧ _))
  | ⟨_, _, .host _⟩ => inferInstanceAs (Decidable True)

/-- Every vehicle is new. -/
def start (params : String → PlatooningParams K) (uuid : String → String) : World K where
  node := fun v => ⟨newPlugin (params v) v (uuid v), none⟩
  sent := []
  drawn := []

variable [Field K] [LinearOrder K]

/-- What the plugin of the acting vehicle does. -/
def outcome (w : World K) (a : Act K) : Outcome K :=
  (w.node a.vehicleId).plugin.step a.r a.cause.event

def perform (w : World K) (a : Act K) : World K :=
  let old := w.node a.vehicleId
  let out := w.outcome a
  { toNetwork := w.toNetwork.act a.vehicleId
      ⟨out.plugin, a.cause.answered out.published old.answered⟩
      (out.published.map fun msg => ⟨msg, old.plugin.platoonManager.currentPlatoonID⟩)
    drawn := a.r.uuid :: w.drawn }

def step (w : World K) (a : Act K) : World K := if w.Allows a then w.perform a else w

/-! ## What is said of an act -/

omit [Field K] [LinearOrder K] in
/-- The ids that `UUID.randomUUID` draws do not repeat. -/
def DrawsFresh (w : World K) (a : Act K) : Prop := a.r.uuid ∉ w.drawn

/-- A candidate that becomes a follower does so on the response by which its target leader
accepts it, and takes the platoon id that this leader held when it sent the response. -/
def Agrees (w : World K) (a : Act K) : Prop :=
  ∀ v c f, (w.node v).plugin.state = .candidateFollower c →
    ((w.step a).node v).plugin.state = .follower f →
    ∃ s msg, a.vehicleId = v ∧ a.cause = .message s ∧ s ∈ w.sent ∧ s.msg = .response msg ∧
      msg.isAccepted = true ∧ msg.header.senderId = c.targetLeaderId ∧
      ((w.step a).node v).plugin.platoonManager.currentPlatoonID = s.held

end World

/-- A waiting leader acknowledges the request of the vehicle that it waits for. -/
def Acknowledges (leader : PlatooningPlugin K) (msg : MobilityRequest K) : Prop :=
  msg.type = .platoonFollowerJoin ∧
    ∃ l, leader.state = .leaderWaiting l ∧ msg.header.senderId = l.applicantId

/-- The vehicle is a candidate, and has asked to follow under this plan. -/
def AsksUnder (plugin : PlatooningPlugin K) (c : CandidateFollowerState) (planId : String) : Prop :=
  plugin.state = .candidateFollower c ∧ ∃ plan, c.currentPlan = some plan ∧ plan.planId = planId

/-- A leader that acknowledges a candidate still holds the platoon id that it held when it
sent the INFO which that candidate answered. -/
def World.KeepsItsPlatoon (w : World K) (a : Act K) : Prop :=
  ∀ s msg c info, w.Allows a → a.cause = .message s → s.msg = .request msg →
    Acknowledges (w.node a.vehicleId).plugin msg →
    AsksUnder (w.node msg.header.senderId).plugin c msg.header.planId →
    c.targetLeaderId = a.vehicleId → (w.node msg.header.senderId).answered = some info →
      (w.node a.vehicleId).plugin.platoonManager.currentPlatoonID = info.held

/-! ## What every world keeps -/

/-- What a vehicle negotiates for goes back to the INFO that it answered. -/
def Vehicle.Recalls (x : Vehicle K) : Prop :=
  (∀ l plan, x.plugin.state = .leader l → l.currentPlan = some plan →
    ∃ info, x.answered = some info ∧ info.held = l.potentialNewPlatoonId) ∧
  (∀ c, x.plugin.state = .candidateFollower c →
    ∃ info, x.answered = some info ∧ info.held = c.targetPlatoonId)

/-- An operation message carries the platoon id of its sender, and a request or a response
a plan id that was drawn. -/
def Sent.Marked (drawn : List String) (s : Sent K) : Prop :=
  match s.msg with
  | .operation msg => s.held = msg.header.planId
  | .request msg => msg.header.planId ∈ drawn
  | .response msg => msg.header.planId ∈ drawn

/-- A plan of a candidate is on its own request only, and on responses that were sent under
the platoon id that it is a candidate for. -/
def Sent.Matches (v : String) (x : Vehicle K) (s : Sent K) : Prop :=
  ∀ c, AsksUnder x.plugin c s.msg.header.planId →
    match s.msg with
    | .operation _ => True
    | .request msg => msg.header.senderId = v ∧ msg.type = .platoonFollowerJoin
    | .response msg => msg.isAccepted = true → msg.header.senderId = c.targetLeaderId →
      s.held = c.targetPlatoonId

/-- The invariant of the network. -/
structure World.Traced (w : World K) : Prop where
  host : ∀ v, (w.node v).plugin.hostMobilityId = v
  recalls : ∀ v, (w.node v).Recalls
  plans : ∀ v c planId, AsksUnder (w.node v).plugin c planId → planId ∈ w.drawn
  marked : ∀ s ∈ w.sent, s.Marked w.drawn
  matched : ∀ v, ∀ s ∈ w.sent, s.Matches v (w.node v)

/-! ## One act, as the acting vehicle sees it

A candidate learns the id of its platoon from an INFO, and the leader does not send it again:
the two agree for as long as the leader, when it acknowledges the candidate, still holds the id
that it announced. -/

variable [Field K] [LinearOrder K]

namespace World

omit [Field K] [LinearOrder K] in
theorem received {w : World K} {a : Act K} (hallows : w.Allows a) {msg : Message K}
    (hevent : a.cause.event = .receive msg) :
    ∃ s, a.cause = .message s ∧ s ∈ w.sent ∧ s.msg = msg := by
  unfold Allows at hallows
  cases hcause : a.cause with
  | host e =>
    rw [hcause] at hevent
    cases hevent
  | message s =>
    rw [hcause] at hevent hallows
    injection hevent with hmsg
    exact ⟨s, rfl, hallows.1, hmsg⟩

theorem join_published {w : World K} {a : Act K} {msg : Message K}
    (hmem : msg ∈ (w.outcome a).published) (hjoin : msg.isJoinRequest = true) :
    ∃ l info, (w.node a.vehicleId).plugin.state = .leader l ∧ l.currentPlan = none ∧
      a.cause.event = .receive (.operation info) := by
  have hpub := PlatooningPlugin.step_publishes _ a.r a.cause.event msg hmem
  generalize a.cause.event = e at hpub
  cases hpub with
  | operation => cases hjoin
  | join hstate hplan info => exact ⟨_, info, hstate, hplan, rfl⟩
  | followerJoin => cases hjoin
  | nack => cases hjoin
  | ack => cases hjoin
  | followerAck => cases hjoin

theorem answered_same {w : World K} {a : Act K}
    (h : ∀ l, (w.node a.vehicleId).plugin.state = .leader l → l.currentPlan ≠ none)
    (old : Option (Sent K)) : a.cause.answered (w.outcome a).published old = old := by
  unfold Cause.answered
  split
  · split
    · rename_i hany
      obtain ⟨msg, hmem, hjoin⟩ := List.any_eq_true.mp hany
      obtain ⟨l, -, hstate, hplan, -⟩ := join_published hmem hjoin
      exact absurd hplan (h l hstate)
    · rfl
  · rfl

theorem answered_of_asking {w : World K} {a : Act K} {l : LeaderState} {plan : PlatoonPlan}
    (hstate : (w.node a.vehicleId).plugin.state = .leader l) (hplan : l.currentPlan = some plan)
    (old : Option (Sent K)) : a.cause.answered (w.outcome a).published old = old := by
  apply answered_same
  intro k hk
  rw [hstate] at hk
  cases hk
  simp [hplan]

theorem answered_of_candidate {w : World K} {a : Act K} {c : CandidateFollowerState}
    (hstate : (w.node a.vehicleId).plugin.state = .candidateFollower c)
    (old : Option (Sent K)) : a.cause.answered (w.outcome a).published old = old := by
  apply answered_same
  intro k hk
  rw [hstate] at hk
  cases hk

/-- A vehicle that answers an INFO recalls that it held the platoon id of its sender. -/
theorem answered_of_info {w : World K} (h : w.Traced) {a : Act K} (hallows : w.Allows a)
    {info : MobilityOperation K} (hevent : a.cause.event = .receive (.operation info))
    {msg : Message K} (hmem : msg ∈ (w.outcome a).published) (hjoin : msg.isJoinRequest = true)
    (old : Option (Sent K)) :
    ∃ s, a.cause.answered (w.outcome a).published old = some s ∧
      s.held = info.header.planId := by
  obtain ⟨s, hcause, hsent, hmsg⟩ := received hallows hevent
  have hmark := h.marked s hsent
  unfold Sent.Marked at hmark
  rw [hmsg] at hmark
  have hany : (w.outcome a).published.any Message.isJoinRequest = true :=
    List.any_eq_true.mpr ⟨msg, hmem, hjoin⟩
  rw [hcause]
  exact ⟨s, by simp only [Cause.answered, hany, if_true], hmark⟩

theorem outcome_recalls {w : World K} (h : w.Traced) {a : Act K} (hallows : w.Allows a) :
    Vehicle.Recalls ⟨(w.outcome a).plugin,
      a.cause.answered (w.outcome a).published (w.node a.vehicleId).answered⟩ := by
  have hold := h.recalls a.vehicleId
  constructor
  · intro l' plan' hstate' hplan'
    rcases PlatooningPlugin.asking_after hstate' hplan' with
      ⟨l, plan, hstate, hplan, hid⟩ | ⟨info, hevent, hid, hmem⟩
    · dsimp only
      rw [answered_of_asking hstate hplan, hid]
      exact hold.1 l plan hstate hplan
    · rw [hid]
      exact answered_of_info h hallows hevent hmem rfl _
  · intro c' hstate'
    rcases PlatooningPlugin.candidate_after hstate' with
      ⟨c, hstate, -, hid, -⟩ | ⟨l, plan, hstate, hplan, hid, -⟩
    · dsimp only
      rw [answered_of_candidate hstate, hid]
      exact hold.2 c hstate
    · dsimp only
      rw [answered_of_asking hstate hplan, hid]
      exact hold.1 l plan hstate hplan

/-- A candidate asks under a plan of before, or under the id that it has just drawn. -/
theorem asks_after {w : World K} {a : Act K} {c' : CandidateFollowerState} {planId : String}
    (h : AsksUnder (w.outcome a).plugin c' planId) :
    (∃ c, AsksUnder (w.node a.vehicleId).plugin c planId ∧
      c'.targetLeaderId = c.targetLeaderId ∧ c'.targetPlatoonId = c.targetPlatoonId) ∨
    (planId = a.r.uuid ∧ ∃ c, (w.node a.vehicleId).plugin.state = .candidateFollower c) := by
  obtain ⟨hstate', plan', hplan', rfl⟩ := h
  rcases PlatooningPlugin.candidate_after hstate' with
    ⟨c, hstate, hleader, hid, hsame | hnone | hnew⟩ | ⟨l, plan, -, -, -, hnone⟩
  · exact .inl ⟨c, ⟨hstate, plan', hsame ▸ hplan', rfl⟩, hleader, hid⟩
  · rw [hnone] at hplan'
    cases hplan'
  · rw [hnew] at hplan'
    cases hplan'
    exact .inr ⟨rfl, c, hstate⟩
  · rw [hnone] at hplan'
    cases hplan'

theorem published_marked {w : World K} (h : w.Traced) {a : Act K} (hallows : w.Allows a)
    {msg : Message K} (hmem : msg ∈ (w.outcome a).published) :
    Sent.Marked (a.r.uuid :: w.drawn)
      ⟨msg, (w.node a.vehicleId).plugin.platoonManager.currentPlatoonID⟩ := by
  have hreq : ∀ m, a.cause.event = .receive (.request m) → m.header.planId ∈ w.drawn := by
    intro m hevent
    obtain ⟨s, -, hsent, hmsg⟩ := received hallows hevent
    have hmark := h.marked s hsent
    unfold Sent.Marked at hmark
    rwa [hmsg] at hmark
  have hpub := PlatooningPlugin.step_publishes _ a.r a.cause.event msg hmem
  generalize a.cause.event = e at hpub hreq
  cases hpub with
  | operation => rfl
  | join => exact List.mem_cons_self
  | followerJoin => exact List.mem_cons_self
  | nack m => exact List.mem_cons_of_mem _ (hreq m rfl)
  | ack hstate htype => exact List.mem_cons_of_mem _ (hreq _ rfl)
  | followerAck hstate htype happlicant => exact List.mem_cons_of_mem _ (hreq _ rfl)

omit [Field K] [LinearOrder K] in
theorem marked_of_cons {s : Sent K} {drawn : List String} (h : s.Marked drawn) (uuid : String) :
    s.Marked (uuid :: drawn) := by
  unfold Sent.Marked at *
  split <;> simp_all

/-! ## Plans and messages -/

omit [Field K] [LinearOrder K] in
theorem operation_of_not_drawn {s : Sent K} {drawn : List String} (hmark : s.Marked drawn)
    (h : s.msg.header.planId ∉ drawn) : ∃ msg, s.msg = .operation msg := by
  unfold Sent.Marked at hmark
  split at hmark
  · rename_i msg hmsg
    exact ⟨msg, hmsg⟩
  · rename_i msg hmsg
    rw [hmsg] at h
    exact absurd hmark h
  · rename_i msg hmsg
    rw [hmsg] at h
    exact absurd hmark h

theorem old_matches_self {w : World K} (h : w.Traced) {a : Act K} (hfresh : w.DrawsFresh a)
    {s : Sent K} (hs : s ∈ w.sent) (answered : Option (Sent K)) :
    s.Matches a.vehicleId ⟨(w.outcome a).plugin, answered⟩ := by
  intro c' hasks'
  rcases asks_after hasks' with ⟨c, hasks, hleader, hid⟩ | ⟨huuid, -⟩
  · have hold := h.matched a.vehicleId s hs c hasks
    rw [hleader, hid]
    exact hold
  · unfold DrawsFresh at hfresh
    rw [← huuid] at hfresh
    obtain ⟨msg, hmsg⟩ := operation_of_not_drawn (h.marked s hs) hfresh
    rw [hmsg]
    trivial

theorem new_matches_self {w : World K} (h : w.Traced) {a : Act K} {msg : Message K}
    (hmem : msg ∈ (w.outcome a).published) (answered : Option (Sent K)) (held : String) :
    Sent.Matches a.vehicleId ⟨(w.outcome a).plugin, answered⟩ ⟨msg, held⟩ := by
  intro c' hasks'
  have hcandidate : ∃ c, (w.node a.vehicleId).plugin.state = .candidateFollower c := by
    rcases asks_after hasks' with ⟨c, hasks, -, -⟩ | ⟨-, hc⟩
    · exact ⟨c, hasks.1⟩
    · exact hc
  obtain ⟨c, hstate⟩ := hcandidate
  have hpub := PlatooningPlugin.step_publishes _ a.r a.cause.event msg hmem
  generalize a.cause.event = e at hpub
  cases hpub with
  | operation => trivial
  | followerJoin => exact ⟨h.host a.vehicleId, rfl⟩
  | nack => exact fun hno => by cases hno
  | join hleader =>
    rw [hstate] at hleader
    cases hleader
  | ack hleader =>
    rw [hstate] at hleader
    cases hleader
  | followerAck hleader =>
    rw [hstate] at hleader
    cases hleader

/-- A new message matches every other vehicle: it is under a new plan id, or it answers the
request of that vehicle, from a leader that keeps its platoon. -/
theorem new_matches_other {w : World K} (h : w.Traced) {a : Act K} (hallows : w.Allows a)
    (hfresh : w.DrawsFresh a) (hkeeps : w.KeepsItsPlatoon a) {msg : Message K}
    (hmem : msg ∈ (w.outcome a).published) (v : String) :
    Sent.Matches v (w.node v)
      ⟨msg, (w.node a.vehicleId).plugin.platoonManager.currentPlatoonID⟩ := by
  intro c hasks
  have hdrawn := h.plans v c _ hasks
  -- a request that is answered was sent by this vehicle, and is no request to join
  have hown : ∀ m : MobilityRequest K, a.cause.event = .receive (.request m) →
      m.header.planId = msg.header.planId →
      ∃ s, a.cause = .message s ∧ s.msg = .request m ∧ m.header.senderId = v ∧
        m.type = .platoonFollowerJoin := by
    intro m hevent hid
    obtain ⟨s, hcause, hsent, hmsg⟩ := received hallows hevent
    have hmatch := h.matched v s hsent c
    rw [hmsg] at hmatch
    rw [← hid] at hasks
    obtain ⟨hsender, htype⟩ := hmatch hasks
    exact ⟨s, hcause, hmsg, hsender, htype⟩
  have hpub := PlatooningPlugin.step_publishes _ a.r a.cause.event msg hmem
  generalize a.cause.event = e at hpub hown
  cases hpub with
  | operation => trivial
  | join => exact absurd hdrawn hfresh
  | followerJoin => exact absurd hdrawn hfresh
  | nack => exact fun hno => by cases hno
  | ack hleader htype =>
    obtain ⟨s, -, -, -, hjoin⟩ := hown _ rfl rfl
    rw [htype] at hjoin
    cases hjoin
  | @followerAck l hleader m htype happlicant =>
    intro _ htarget
    obtain ⟨s, hcause, hmsg, hsender, -⟩ := hown m rfl rfl
    obtain ⟨info, hinfo, hheld⟩ := (h.recalls v).2 c hasks.1
    have hhost : c.targetLeaderId = a.vehicleId := htarget.symm.trans (h.host a.vehicleId)
    rw [← hheld]
    apply hkeeps s m c info hallows hcause hmsg ⟨htype, l, hleader, happlicant⟩
    · rw [hsender]
      exact hasks
    · exact hhost
    · rw [hsender]
      exact hinfo

/-! ## One act -/

theorem perform_traced {w : World K} (h : w.Traced) {a : Act K} (hallows : w.Allows a)
    (hfresh : w.DrawsFresh a) (hkeeps : w.KeepsItsPlatoon a) : (w.perform a).Traced where
  host := by
    apply Network.act_forall_node (P := fun v (x : Vehicle K) => x.plugin.hostMobilityId = v) h.host
    exact (PlatooningPlugin.step_hostMobilityId _ _ _).trans (h.host a.vehicleId)
  recalls := by
    apply Network.act_forall_node (P := fun _ (x : Vehicle K) => x.Recalls) h.recalls
    exact outcome_recalls h hallows
  plans := by
    apply Network.act_forall_node (P := fun _ (x : Vehicle K) => ∀ c planId,
      AsksUnder x.plugin c planId → planId ∈ a.r.uuid :: w.drawn)
    · intro v c planId hasks
      exact List.mem_cons_of_mem _ (h.plans v c planId hasks)
    · intro c' planId hasks'
      rcases asks_after hasks' with ⟨c, hasks, -, -⟩ | ⟨rfl, -⟩
      · exact List.mem_cons_of_mem _ (h.plans _ c planId hasks)
      · exact List.mem_cons_self
  marked := by
    apply Network.act_forall_sent (Q := fun s : Sent K => s.Marked (a.r.uuid :: w.drawn))
    · intro s hs
      exact marked_of_cons (h.marked s hs) _
    · intro s hs
      obtain ⟨msg, hmem, rfl⟩ := List.mem_map.mp hs
      exact published_marked h hallows hmem
  matched := by
    apply Network.act_forall_pair h.matched
    · intro s hs
      rcases hs with hs | hs
      · exact old_matches_self h hfresh hs _
      · obtain ⟨msg, hmem, rfl⟩ := List.mem_map.mp hs
        exact new_matches_self h hmem _ _
    · intro v _ s hs
      obtain ⟨msg, hmem, rfl⟩ := List.mem_map.mp hs
      exact new_matches_other h hallows hfresh hkeeps hmem v

theorem step_traced {w : World K} (h : w.Traced) (a : Act K) (hfresh : w.DrawsFresh a)
    (hkeeps : w.KeepsItsPlatoon a) : (w.step a).Traced := by
  unfold step
  split
  · rename_i hallows
    exact perform_traced h hallows hfresh hkeeps
  · exact h

/-- In a traced world a candidate that becomes a follower takes the platoon id of its leader. -/
theorem agrees_of_traced {w : World K} (h : w.Traced) (a : Act K) : w.Agrees a := by
  intro v c f hc hf
  unfold step at hf ⊢
  split at hf
  · rename_i hallows
    rw [if_pos hallows]
    by_cases hv : v = a.vehicleId
    · subst hv
      unfold perform at hf ⊢
      dsimp only at hf ⊢
      rw [Network.act_node_self] at hf ⊢
      obtain ⟨msg, plan, hevent, haccepted, hplan, hid, hsender, hplatoon⟩ :=
        PlatooningPlugin.follower_after hc hf
      obtain ⟨s, hcause, hsent, hmsg⟩ := received hallows hevent
      have hmatch := h.matched a.vehicleId s hsent c
      rw [hmsg] at hmatch
      have hheld := hmatch ⟨hc, plan, hplan, hid.symm⟩ haccepted hsender
      exact ⟨s, msg, rfl, hcause, hsent, hmsg, haccepted, hsender, hplatoon.trans hheld.symm⟩
    · unfold perform at hf
      dsimp only at hf
      rw [Network.act_node_ne _ hv, hc] at hf
      cases hf
  · rw [hc] at hf
    cases hf

/-! ## Runs -/

omit [Field K] [LinearOrder K] in
theorem start_traced (params : String → PlatooningParams K) (uuid : String → String) :
    (start params uuid).Traced where
  host := fun _ => rfl
  recalls := by
    intro v
    constructor
    · intro l plan hl
      cases hl
    · intro c hc
      cases hc
  plans := fun _ _ _ hasks => by cases hasks.1
  marked := fun _ hs => by cases hs
  matched := fun _ _ hs => by cases hs

/-- In every run in which the leaders that acknowledge a candidate keep their platoons, a
candidate that becomes a follower takes the platoon id that its leader held when it
acknowledged it. -/
theorem followers_take_the_platoon_of_leaders_that_keep_it (params : String → PlatooningParams K)
    (uuid : String → String) (acts : List (Act K))
    (hfresh : EachCall step DrawsFresh (start params uuid) acts)
    (hkeeps : EachCall step KeepsItsPlatoon (start params uuid) acts) :
    EachCall step Agrees (start params uuid) acts := by
  have hstep : ∀ (w : World K) (a : Act K), w.Traced → w.DrawsFresh a ∧ w.KeepsItsPlatoon a →
      w.Agrees a ∧ (w.step a).Traced := by
    intro w a h hok
    exact ⟨agrees_of_traced h a, step_traced h a hok.1 hok.2⟩
  exact eachCall_of_keeps hstep (start_traced params uuid) (eachCall_and hfresh hkeeps)

end World

/-! ## Three vehicles behind each other -/

/-- What a vehicle reads at this place when it draws this id. The vehicle in front is 20 m
ahead. -/
def readingsAt (downtrack : ℚ) (uuid : String) : Readings ℚ where
  tsStart := 1000
  now := 1000
  uuid := uuid
  bsmId := "bsm"
  downtrack := downtrack
  currentSpeed := 10
  lastSpeedCmd := 10
  distanceToFrontVehicle := some 20

/-- Every vehicle is alone in a platoon of its own name. -/
def allAlone : World ℚ := World.start (fun _ => defaultParams) id

def enters (v : String) (x : ℚ) : Act ℚ :=
  ⟨v, readingsAt x (v ++ " enters"), .host (.planTrajectory true none)⟩

def loops (v : String) (x : ℚ) (uuid : String) : Act ℚ := ⟨v, readingsAt x uuid, .host .run⟩

def hears (v : String) (x : ℚ) (uuid : String) (msg : Message ℚ) (held : String) : Act ℚ :=
  ⟨v, readingsAt x uuid, .message ⟨msg, held⟩⟩

/-- The vehicle `v` at `x`, which holds `mine`, hears that `l` at `y` leads the platoon
`announced`, asks to join, is accepted under the id `held`, and asks to follow. -/
def asks (v : String) (x : ℚ) (mine l : String) (y : ℚ) (announced held : String) :
    List (Act ℚ) := [
  hears v x (v ++ " 1") (.operation ⟨⟨l, "", "bsm", announced⟩, .info ⟨"bsm", 5, 10, 1, y⟩⟩)
    announced,
  hears l y (v ++ " 2") (.request ⟨⟨v, l, "bsm", v ++ " 1"⟩, .joinPlatoonAtRear ⟨1, 10, x⟩⟩) mine,
  hears v x (v ++ " 3") (.response ⟨⟨l, v, "bsm", v ++ " 1"⟩, true⟩) held,
  loops v x (v ++ " 4"),
  hears l y (v ++ " 5") (.request ⟨⟨v, l, "bsm", v ++ " 4"⟩, .platoonFollowerJoin⟩) mine]

/-- The answer of `l` to the last of these requests reaches `v`. -/
def isAccepted (v : String) (x : ℚ) (l held : String) : Act ℚ :=
  hears v x (v ++ " 6") (.response ⟨⟨l, v, "bsm", v ++ " 4"⟩, true⟩) held

/-- The rear vehicle joins the one in the middle, which keeps its platoon. -/
theorem the_rear_takes_the_platoon_of_the_middle :
    EachCall World.step World.Agrees allAlone
      ([enters "middle" 150, enters "rear" 100, loops "middle" 150 "announced"] ++
        asks "rear" 100 "rear" "middle" 150 "middle" "middle" ++
        [isAccepted "rear" 100 "middle" "middle"]) := by
  apply World.followers_take_the_platoon_of_leaders_that_keep_it
  · unfold World.DrawsFresh
    decide +kernel
  · refine ⟨?_, ?_, ?_, ?_, ?_, ?_, ?_, ?_, ?_, trivial⟩
    all_goals
      intro s msg c info _ hcause hmsg hack _ _ hinfo
      cases hcause
      try cases hmsg
      try cases hack.1
    -- what is left is the request to follow
    have hheld : ∀ i, (i : Option (Sent ℚ)) = some info → i.map (·.held) = some "middle" →
        info.held = "middle" := by
      rintro _ rfl h
      exact Option.some.inj h
    rw [hheld _ hinfo (by decide +kernel)]
    decide +kernel

/-- The middle vehicle announces its platoon, follows the front vehicle, loses it, and leads
a new platoon when the rear vehicle, which hears the announcement late, joins it. -/
theorem the_rear_takes_a_platoon_that_its_leader_has_left :
    ¬ ∀ run : List (Act ℚ), EachCall World.step World.DrawsFresh allAlone run →
      EachCall World.step World.Agrees allAlone run := by
  intro h
  let run := [enters "front" 200, enters "middle" 150, enters "rear" 100,
      loops "middle" 150 "announced", loops "front" 200 "announced too"] ++
    asks "middle" 150 "middle" "front" 200 "front" "front" ++
    [isAccepted "middle" 150 "front" "front",
      loops "middle" 150 "1", loops "middle" 150 "2", loops "middle" 150 "3",
      loops "middle" 150 "4", loops "middle" 150 "middle again"] ++
    asks "rear" 100 "rear" "middle" 150 "middle" "middle again"
  have hrun := h (run ++ [isAccepted "rear" 100 "middle" "middle again"])
    (by unfold World.DrawsFresh; decide +kernel)
  have hagrees := eachCall_snoc hrun
  obtain ⟨s, msg, -, hcause, -, -, -, -, hid⟩ := hagrees "rear"
    ⟨"middle", "middle", some ⟨1000, "rear 4", "middle"⟩, 1000⟩ ⟨0⟩
    (by decide +kernel) (by decide +kernel)
  cases hcause
  revert hid
  decide +kernel

end carma.platooning
