-- The loop of `CandidateFollowerState.run` next to the other threads of the plugin: what
-- comes between two of its tasks, and whether a join request is still sent by the state
-- that the plugin is in.
import Carma.Platooning
import Carma.PlatooningLaws

open carma.platoon_manager

namespace carma.platooning

variable {K : Type}

/-- The thread of a candidate. The object and the plugin are apart, as the loop goes on with
its object when the plugin has another state. -/
structure CandidateThread (K : Type) where
  plugin : PlatooningPlugin K
  candidate : CandidateFollowerState
  -- `plugin.state` is this object
  inCharge : Bool
  interrupted : Bool
  -- what the loop has published, and whether the plugin was in this state then
  published : List (Message K × Bool)

/-- One pass of the loop: what it reads, and what other threads do before each task, between
the test of the third task and its request, and while it sleeps. -/
structure Pass (K : Type) where
  readings : Readings K
  beforeTimeout : List (Readings K × Event K)
  beforeAbort : List (Readings K × Event K)
  beforeGap : List (Readings K × Event K)
  beforeRequest : List (Readings K × Event K)
  beforeStatus : List (Readings K × Event K)
  asleep : List (Readings K × Event K)

def PlatooningState.isCandidate : PlatooningState → Bool
  | .candidateFollower _ => true
  | _ => false

/-- A pass of the loop of the plugin's state. -/
def Event.isPass : Event K → Bool
  | .host .run => true
  | _ => false

namespace CandidateFollowerState

variable [Field K] [LinearOrder K]

/-- The test of the first task. -/
def isCurrentStateTimeout (s : CandidateFollowerState) (plugin : PlatooningPlugin K)
    (tsStart : ℤ) : Bool :=
  decide (((tsStart - s.stateStartTime : ℤ) : K) >
    plugin.params.waitingStateTimeout * ((1000 : ℕ) : K))

/-- The test of the second task. -/
def isPlanTimeout (s : CandidateFollowerState) (tsStart : ℤ) : Bool :=
  s.currentPlan.any fun plan => decide (tsStart - plan.planStartTime > NEGOTIATION_TIMEOUT)

end CandidateFollowerState

namespace CandidateThread

variable [Field K] [LinearOrder K]

omit [Field K] [LinearOrder K] in
/-- `new CandidateFollowerState`, and the plugin changes to it. -/
def start (plugin : PlatooningPlugin K) (targetId newPlatoonId : String) (now : ℤ) :
    CandidateThread K where
  plugin := plugin.setState (.candidateFollower ⟨targetId, newPlatoonId, none, now⟩)
  candidate := ⟨targetId, newPlatoonId, none, now⟩
  inCharge := true
  interrupted := false
  published := []

omit [Field K] [LinearOrder K] in
/-- `plugin.setState`, called from the loop. The thread of the plugin's state is interrupted,
which is this one as long as the plugin is in this state. -/
def setState (t : CandidateThread K) (state : PlatooningState) : CandidateThread K :=
  { t with
    plugin := t.plugin.setState state
    inCharge := false
    interrupted := t.interrupted || (t.inCharge && t.plugin.stateThread) }

omit [Field K] [LinearOrder K] in
/-- `this.currentPlan = plan`. -/
def setPlan (t : CandidateThread K) (plan : Option PlatoonPlan) : CandidateThread K :=
  let candidate := { t.candidate with currentPlan := plan }
  { t with
    candidate
    plugin := if t.inCharge then { t.plugin with state := .candidateFollower candidate }
      else t.plugin }

/-- Another thread comes in. A pass of the plugin's own loop is one of this thread while the
plugin is in this state. -/
def handle (t : CandidateThread K) : Readings K × Event K → CandidateThread K
  | (r, e) =>
    if t.inCharge && e.isPass then t
    else
      let plugin := (t.plugin.step r e).plugin
      { t with
        plugin
        inCharge := t.inCharge && plugin.state.isCandidate
        interrupted := t.interrupted || (t.inCharge && t.plugin.stateThread &&
          !(plugin.state.isCandidate && plugin.stateThread)) }

def handleAll (t : CandidateThread K) (events : List (Readings K × Event K)) :
    CandidateThread K :=
  events.foldl handle t

omit [Field K] [LinearOrder K] in
def publish (t : CandidateThread K) (message : Message K) : CandidateThread K :=
  { t with published := t.published ++ [(message, t.inCharge)] }

/-- Task 1. -/
def checkStateTimeout (t : CandidateThread K) (tsStart : ℤ) : CandidateThread K :=
  if t.candidate.isCurrentStateTimeout t.plugin tsStart then t.setState newLeaderState else t

omit [Field K] [LinearOrder K] in
/-- Task 2. -/
def abortPlan (t : CandidateThread K) (tsStart : ℤ) : CandidateThread K :=
  if t.candidate.isPlanTimeout tsStart then (t.setPlan none).setState newLeaderState else t

/-- The test of task 3. -/
def asks (t : CandidateThread K) (r : Readings K) : Bool :=
  CandidateFollowerState.isGapClosed t.plugin r && t.candidate.currentPlan.isNone

omit [Field K] [LinearOrder K] in
/-- Task 3. -/
def requestJoin (t : CandidateThread K) (r : Readings K) : CandidateThread K :=
  (t.publish (t.plugin.followerJoinRequest r t.candidate.targetLeaderId)).setPlan
    (some ⟨r.now, r.uuid, t.candidate.targetLeaderId⟩)

omit [Field K] [LinearOrder K] in
/-- Task 4. -/
def publishStatus (t : CandidateThread K) (r : Readings K) : CandidateThread K :=
  if t.plugin.platoonManager.getTotalPlatooningSize > 1 then t.publish (t.plugin.composeStatus r)
  else t

/-- The first two tasks. -/
def checkTimeouts (t : CandidateThread K) (p : Pass K) : CandidateThread K :=
  let t := (t.handleAll p.beforeTimeout).checkStateTimeout p.readings.tsStart
  ((t.handleAll p.beforeAbort).abortPlan p.readings.tsStart).handleAll p.beforeGap

/-- The third task. -/
def closeGap (t : CandidateThread K) (p : Pass K) : CandidateThread K :=
  if t.asks p.readings then (t.handleAll p.beforeRequest).requestJoin p.readings else t

/-- One pass of `run`. An interrupted thread does not begin one, and leaves the loop when it
is to sleep. -/
def pass (t : CandidateThread K) (p : Pass K) : CandidateThread K :=
  if t.interrupted then t
  else
    let t := (t.checkTimeouts p).closeGap p
    ((t.handleAll p.beforeStatus).publishStatus p.readings).handleAll p.asleep

def run (t : CandidateThread K) (passes : List (Pass K)) : CandidateThread K := passes.foldl pass t

end CandidateThread

/-! ## When the thread sends in the name of a state that the plugin has left

The passes of the loop are taken one by one: the thread is interrupted by a change of state, so
the pass in which that happens is the last one. -/

namespace CandidateFollowerState

/-- What another thread does replaces the state of the plugin. -/
def switches (s : CandidateFollowerState) : Event K → Bool
  | .receive (.response msg) => s.currentPlan.any fun plan =>
      decide (msg.header.planId = plan.planId ∧ msg.header.senderId = s.targetLeaderId)
  | .host (.planTrajectory enabled _) => !enabled
  | .host .onResume => true
  | _ => false

variable [Field K] [LinearOrder K]

theorem step_switches {plugin : PlatooningPlugin K} {s : CandidateFollowerState}
    (hstate : plugin.state = .candidateFollower s) (r : Readings K) {e : Event K}
    (hrun : e.isPass = false) (h : s.switches e = true) :
    (plugin.step r e).plugin.state.isCandidate = false := by
  cases e with
  | receive msg =>
    cases msg with
    | request msg => cases h
    | operation msg => cases h
    | response msg =>
      have hstep : (plugin.step r (.receive (.response msg))).plugin =
          s.onMobilityResponseMessage plugin msg := by
        show plugin.handleMobilityResponseMessage r msg = _
        unfold PlatooningPlugin.handleMobilityResponseMessage
        rw [hstate]
      rw [hstep]
      unfold onMobilityResponseMessage
      obtain ⟨plan, hplan, hmine⟩ := (Option.any_eq_true _ _).mp h
      rw [hplan]
      dsimp only
      rw [if_pos (of_decide_eq_true hmine)]
      split <;> rfl
  | host e =>
    cases e with
    | run => cases hrun
    | removeExpiredMember clock => cases h
    | planTrajectory enabled window =>
      cases enabled with
      | true => cases h
      | false =>
        show (plugin.planTrajectory false window).state.isCandidate = false
        unfold PlatooningPlugin.planTrajectory
        rw [hstate]
        rfl
    | onSuspend => cases h
    | onResume =>
      show (plugin.onResume r).state.isCandidate = false
      unfold PlatooningPlugin.onResume
      dsimp only
      split <;> rfl

theorem step_keeps {plugin : PlatooningPlugin K} {s : CandidateFollowerState}
    (hstate : plugin.state = .candidateFollower s) (r : Readings K) {e : Event K}
    (hrun : e.isPass = false) (h : s.switches e = false) :
    (plugin.step r e).plugin.state = .candidateFollower s := by
  cases e with
  | receive msg =>
    cases msg with
    | request msg =>
      show (plugin.handleMobilityRequestMessage r msg).1.state = _
      unfold PlatooningPlugin.handleMobilityRequestMessage
      rw [hstate]
      exact hstate
    | operation msg =>
      show (plugin.handleMobilityOperationMessage r msg).plugin.state = _
      unfold PlatooningPlugin.handleMobilityOperationMessage
      rw [hstate]
      dsimp only
      split
      · exact hstate
      · exact hstate
    | response msg =>
      show (plugin.handleMobilityResponseMessage r msg).state = _
      unfold PlatooningPlugin.handleMobilityResponseMessage
      rw [hstate]
      show (s.onMobilityResponseMessage plugin msg).state = _
      unfold onMobilityResponseMessage
      cases hplan : s.currentPlan with
      | none => exact hstate
      | some plan =>
        have hother := (Option.any_eq_false _ _).mp h plan hplan
        dsimp only
        rw [if_neg (by simpa using hother)]
        exact hstate
  | host e =>
    cases e with
    | run => cases hrun
    | removeExpiredMember clock =>
      show (if plugin.platoonManagerThread then _ else plugin).state = _
      split <;> exact hstate
    | planTrajectory enabled window =>
      cases enabled with
      | false => cases h
      | true =>
        show (plugin.planTrajectory true window).state = _
        unfold PlatooningPlugin.planTrajectory
        rw [hstate]
        exact hstate
    | onSuspend => exact hstate
    | onResume => cases h

end CandidateFollowerState

namespace CandidateThread

/-! ## The invariant -/

/-- The object of the thread and the state of the plugin are one as long as the plugin is in
this state, and a thread that is not interrupted is that of the plugin's state. -/
structure Inv (t : CandidateThread K) : Prop where
  state : t.inCharge = true → t.plugin.state = .candidateFollower t.candidate
  running : t.interrupted = false → t.inCharge = true ∧ t.plugin.stateThread = true

theorem start_inv (plugin : PlatooningPlugin K) (targetId newPlatoonId : String) (now : ℤ) :
    (start plugin targetId newPlatoonId now).Inv where
  state _ := rfl
  running _ := ⟨rfl, rfl⟩

theorem setState_inv {t : CandidateThread K} (h : t.Inv) (state : PlatooningState) :
    (t.setState state).Inv where
  state hcharge := by cases hcharge
  running hrunning := by
    obtain ⟨hbefore, hthread⟩ := Bool.or_eq_false_iff.mp hrunning
    obtain ⟨hcharge, hstate⟩ := h.running hbefore
    rw [hcharge, hstate] at hthread
    cases hthread

theorem setPlan_inv {t : CandidateThread K} (h : t.Inv) (plan : Option PlatoonPlan) :
    (t.setPlan plan).Inv where
  state hcharge := by
    have hcharge' : t.inCharge = true := hcharge
    simp only [setPlan, if_pos hcharge']
  running hrunning := by
    obtain ⟨hcharge, hstate⟩ := h.running hrunning
    refine ⟨hcharge, ?_⟩
    simp only [setPlan, if_pos hcharge]
    exact hstate

theorem publish_inv {t : CandidateThread K} (h : t.Inv) (message : Message K) :
    (t.publish message).Inv where
  state := h.state
  running := h.running

theorem abortPlan_inv {t : CandidateThread K} (h : t.Inv) (tsStart : ℤ) :
    (t.abortPlan tsStart).Inv := by
  unfold abortPlan
  split
  · exact setState_inv (setPlan_inv h none) _
  · exact h

theorem abortPlan_published (t : CandidateThread K) (tsStart : ℤ) :
    (t.abortPlan tsStart).published = t.published := by
  unfold abortPlan
  split <;> rfl

theorem abortPlan_params (t : CandidateThread K) (tsStart : ℤ) :
    (t.abortPlan tsStart).plugin.params = t.plugin.params := by
  unfold abortPlan setPlan setState PlatooningPlugin.setState
  dsimp only
  split
  · dsimp only
    split <;> rfl
  · rfl

theorem abortPlan_candidate (t : CandidateThread K) (tsStart : ℤ) :
    (t.abortPlan tsStart).candidate =
      if t.candidate.isPlanTimeout tsStart then { t.candidate with currentPlan := none }
      else t.candidate := by
  unfold abortPlan
  split <;> rfl

theorem abortPlan_inCharge (t : CandidateThread K) (tsStart : ℤ) :
    (t.abortPlan tsStart).inCharge = (t.inCharge && !t.candidate.isPlanTimeout tsStart) := by
  unfold abortPlan
  cases t.candidate.isPlanTimeout tsStart with
  | true => exact (Bool.and_false _).symm
  | false => exact (Bool.and_true _).symm

/-! ## What is published -/

/-- A request of a candidate for its place. -/
def isJoin : Message K → Bool
  | .request ⟨_, .platoonFollowerJoin⟩ => true
  | _ => false

/-- Every join request was published while the plugin was in this state. -/
def OnlyInCharge (t : CandidateThread K) : Prop :=
  ∀ m ∈ t.published, isJoin m.1 = true → m.2 = true

theorem onlyInCharge_congr {t t' : CandidateThread K} (h : t'.published = t.published) :
    t'.OnlyInCharge ↔ t.OnlyInCharge := by
  unfold OnlyInCharge
  rw [h]

theorem onlyInCharge_requestJoin (t : CandidateThread K) (r : Readings K) :
    (t.requestJoin r).OnlyInCharge ↔ t.OnlyInCharge ∧ t.inCharge = true := by
  have hpublished : (t.requestJoin r).published = t.published ++
      [(t.plugin.followerJoinRequest r t.candidate.targetLeaderId, t.inCharge)] := rfl
  unfold OnlyInCharge
  rw [hpublished, List.forall_mem_append, List.forall_mem_singleton]
  exact and_congr_right fun _ => ⟨fun h => h rfl, fun h _ => h⟩

theorem onlyInCharge_publishStatus (t : CandidateThread K) (r : Readings K) :
    (t.publishStatus r).OnlyInCharge ↔ t.OnlyInCharge := by
  unfold publishStatus
  split
  · have hpublished : (t.publish (t.plugin.composeStatus r)).published = t.published ++
        [(t.plugin.composeStatus r, t.inCharge)] := rfl
    unfold OnlyInCharge
    rw [hpublished, List.forall_mem_append, List.forall_mem_singleton]
    exact and_iff_left fun h => by cases h
  · exact Iff.rfl

theorem requestJoin_inv {t : CandidateThread K} (h : t.Inv) (r : Readings K) :
    (t.requestJoin r).Inv := setPlan_inv (publish_inv h _) _

theorem publishStatus_inv {t : CandidateThread K} (h : t.Inv) (r : Readings K) :
    (t.publishStatus r).Inv := by
  unfold publishStatus
  split
  · exact publish_inv h _
  · exact h

/-! ## The other threads -/

variable [Field K] [LinearOrder K]

/-- What another thread does never touches the object, nor what the loop has published. -/
theorem handle_frame (t : CandidateThread K) (e : Readings K × Event K) :
    (t.handle e).candidate = t.candidate ∧ (t.handle e).published = t.published ∧
      (t.handle e).plugin.params = t.plugin.params := by
  obtain ⟨r, e⟩ := e
  unfold handle
  dsimp only
  split
  · exact ⟨rfl, rfl, rfl⟩
  · exact ⟨rfl, rfl, PlatooningPlugin.step_params _ _ _⟩

theorem handle_inCharge {t : CandidateThread K} (h : t.Inv) (e : Readings K × Event K) :
    (t.handle e).inCharge = (t.inCharge && !t.candidate.switches e.2) := by
  obtain ⟨r, e⟩ := e
  unfold handle
  dsimp only
  by_cases hcharge : t.inCharge = true
  · have hstate := h.state hcharge
    rw [hcharge, Bool.true_and, Bool.true_and]
    split
    · rename_i hpass
      rw [hcharge]
      cases e with
      | receive msg => cases hpass
      | host e => cases e <;> first | rfl | cases hpass
    · rename_i hpass
      rw [Bool.not_eq_true] at hpass
      show (true && (t.plugin.step r e).plugin.state.isCandidate) = _
      rw [Bool.true_and]
      by_cases hswitch : t.candidate.switches e = true
      · rw [CandidateFollowerState.step_switches hstate r hpass hswitch, hswitch]
        rfl
      · rw [Bool.not_eq_true] at hswitch
        rw [CandidateFollowerState.step_keeps hstate r hpass hswitch, hswitch]
        rfl
  · rw [Bool.not_eq_true] at hcharge
    rw [hcharge, Bool.false_and, Bool.false_and, if_neg Bool.false_ne_true]
    rfl

theorem handle_inv {t : CandidateThread K} (h : t.Inv) (e : Readings K × Event K) :
    (t.handle e).Inv := by
  have hin := handle_inCharge h e
  obtain ⟨r, e⟩ := e
  unfold handle at hin ⊢
  dsimp only at hin ⊢
  split
  · exact h
  · rename_i hpass
    rw [if_neg hpass] at hin
    constructor
    · intro hcharge
      rw [hin] at hcharge
      obtain ⟨hbefore, hkeeps⟩ := Bool.and_eq_true_iff.mp hcharge
      rw [hbefore, Bool.true_and, Bool.not_eq_true] at hpass
      exact CandidateFollowerState.step_keeps (h.state hbefore) r hpass
        ((Bool.not_eq_true' _).mp hkeeps)
    · intro hrunning
      obtain ⟨hbefore, hthread⟩ := Bool.or_eq_false_iff.mp hrunning
      obtain ⟨hcharge, hstate⟩ := h.running hbefore
      rw [hcharge, hstate, Bool.and_self, Bool.true_and, Bool.not_eq_false'] at hthread
      obtain ⟨hcandidate, hthread⟩ := Bool.and_eq_true_iff.mp hthread
      exact ⟨by rw [hcharge]; exact hcandidate, hthread⟩

theorem handleAll_inv {t : CandidateThread K} (h : t.Inv) (events : List (Readings K × Event K)) :
    (t.handleAll events).Inv := by
  induction events generalizing t with
  | nil => exact h
  | cons e rest ih => exact ih (handle_inv h e)

theorem handleAll_frame (t : CandidateThread K) (events : List (Readings K × Event K)) :
    (t.handleAll events).candidate = t.candidate ∧
      (t.handleAll events).published = t.published ∧
      (t.handleAll events).plugin.params = t.plugin.params := by
  induction events generalizing t with
  | nil => exact ⟨rfl, rfl, rfl⟩
  | cons e rest ih =>
    obtain ⟨hcandidate, hpublished, hparams⟩ := handle_frame t e
    obtain ⟨hcandidate', hpublished', hparams'⟩ := ih (t.handle e)
    exact ⟨hcandidate'.trans hcandidate, hpublished'.trans hpublished, hparams'.trans hparams⟩

theorem handleAll_inCharge {t : CandidateThread K} (h : t.Inv)
    (events : List (Readings K × Event K)) :
    (t.handleAll events).inCharge =
      (t.inCharge && events.all fun e => !t.candidate.switches e.2) := by
  induction events generalizing t with
  | nil => exact (Bool.and_true _).symm
  | cons e rest ih =>
    show ((t.handle e).handleAll rest).inCharge = _
    rw [ih (handle_inv h e), handle_inCharge h e, (handle_frame t e).1, List.all_cons,
      Bool.and_assoc]

/-! ## One pass -/

/-- The third task of this pass has a reason to ask: the gap is small enough, and no request
waits any more. -/
def Asks (t : CandidateThread K) (p : Pass K) : Prop :=
  CandidateFollowerState.isGapClosed t.plugin p.readings = true ∧
    (t.candidate.currentPlan = none ∨ t.candidate.isPlanTimeout p.readings.tsStart = true)

/-- Up to the request nothing in this pass makes the plugin leave the state: neither of the
two timeouts, nor another thread. -/
structure Stays (t : CandidateThread K) (p : Pass K) : Prop where
  inTime : t.candidate.isCurrentStateTimeout t.plugin p.readings.tsStart = false
  planInTime : t.candidate.isPlanTimeout p.readings.tsStart = false
  undisturbed : ∀ e ∈ p.beforeTimeout ++ p.beforeAbort ++ p.beforeGap ++ p.beforeRequest,
    t.candidate.switches e.2 = false

theorem isCurrentStateTimeout_congr (s : CandidateFollowerState) {plugin plugin' : PlatooningPlugin K}
    (h : plugin'.params = plugin.params) (tsStart : ℤ) :
    s.isCurrentStateTimeout plugin' tsStart = s.isCurrentStateTimeout plugin tsStart := by
  unfold CandidateFollowerState.isCurrentStateTimeout
  rw [h]

theorem isGapClosed_congr {plugin plugin' : PlatooningPlugin K} (h : plugin'.params = plugin.params)
    (r : Readings K) : CandidateFollowerState.isGapClosed plugin' r =
      CandidateFollowerState.isGapClosed plugin r := by
  unfold CandidateFollowerState.isGapClosed
  rw [h]

theorem checkStateTimeout_inv {t : CandidateThread K} (h : t.Inv) (tsStart : ℤ) :
    (t.checkStateTimeout tsStart).Inv := by
  unfold checkStateTimeout
  split
  · exact setState_inv h _
  · exact h

theorem checkStateTimeout_frame (t : CandidateThread K) (tsStart : ℤ) :
    (t.checkStateTimeout tsStart).candidate = t.candidate ∧
      (t.checkStateTimeout tsStart).published = t.published ∧
      (t.checkStateTimeout tsStart).plugin.params = t.plugin.params := by
  unfold checkStateTimeout
  split <;> exact ⟨rfl, rfl, rfl⟩

theorem checkStateTimeout_inCharge (t : CandidateThread K) (tsStart : ℤ) :
    (t.checkStateTimeout tsStart).inCharge =
      (t.inCharge && !t.candidate.isCurrentStateTimeout t.plugin tsStart) := by
  unfold checkStateTimeout
  cases t.candidate.isCurrentStateTimeout t.plugin tsStart with
  | true => exact (Bool.and_false _).symm
  | false => exact (Bool.and_true _).symm

theorem checkTimeouts_inv {t : CandidateThread K} (h : t.Inv) (p : Pass K) :
    (t.checkTimeouts p).Inv :=
  handleAll_inv (abortPlan_inv (handleAll_inv (checkStateTimeout_inv (handleAll_inv h _) _) _) _) _

theorem checkTimeouts_frame (t : CandidateThread K) (p : Pass K) :
    (t.checkTimeouts p).candidate = (if t.candidate.isPlanTimeout p.readings.tsStart
        then { t.candidate with currentPlan := none } else t.candidate) ∧
      (t.checkTimeouts p).published = t.published ∧
      (t.checkTimeouts p).plugin.params = t.plugin.params := by
  unfold checkTimeouts
  dsimp only
  generalize hfirst : t.handleAll p.beforeTimeout = t₁
  generalize hsecond : t₁.checkStateTimeout p.readings.tsStart = t₂
  generalize hthird : t₂.handleAll p.beforeAbort = t₃
  obtain ⟨c₁, s₁, q₁⟩ := hfirst ▸ handleAll_frame t p.beforeTimeout
  obtain ⟨c₂, s₂, q₂⟩ := hsecond ▸ checkStateTimeout_frame t₁ p.readings.tsStart
  obtain ⟨c₃, s₃, q₃⟩ := hthird ▸ handleAll_frame t₂ p.beforeAbort
  obtain ⟨c₄, s₄, q₄⟩ := handleAll_frame (t₃.abortPlan p.readings.tsStart) p.beforeGap
  refine ⟨?_, ?_, ?_⟩
  · rw [c₄, abortPlan_candidate, c₃, c₂, c₁]
  · rw [s₄, abortPlan_published, s₃, s₂, s₁]
  · rw [q₄, abortPlan_params, q₃, q₂, q₁]

/-- The plugin is still in this state after the two timeouts and what came before the gap is
looked at. -/
theorem checkTimeouts_inCharge {t : CandidateThread K} (h : t.Inv) (p : Pass K) :
    (t.checkTimeouts p).inCharge = true ↔ t.inCharge = true ∧
      t.candidate.isCurrentStateTimeout t.plugin p.readings.tsStart = false ∧
      t.candidate.isPlanTimeout p.readings.tsStart = false ∧
      ∀ e ∈ p.beforeTimeout ++ p.beforeAbort ++ p.beforeGap, t.candidate.switches e.2 = false := by
  unfold checkTimeouts
  dsimp only
  generalize hfirst : t.handleAll p.beforeTimeout = t₁
  have i₁ : t₁.Inv := hfirst ▸ handleAll_inv h _
  obtain ⟨c₁, -, q₁⟩ := hfirst ▸ handleAll_frame t p.beforeTimeout
  have n₁ := hfirst ▸ handleAll_inCharge h p.beforeTimeout
  generalize hsecond : t₁.checkStateTimeout p.readings.tsStart = t₂
  have i₂ : t₂.Inv := hsecond ▸ checkStateTimeout_inv i₁ _
  obtain ⟨c₂, -, q₂⟩ := hsecond ▸ checkStateTimeout_frame t₁ p.readings.tsStart
  have n₂ := hsecond ▸ checkStateTimeout_inCharge t₁ p.readings.tsStart
  generalize hthird : t₂.handleAll p.beforeAbort = t₃
  have i₃ : t₃.Inv := hthird ▸ handleAll_inv i₂ _
  obtain ⟨c₃, -, q₃⟩ := hthird ▸ handleAll_frame t₂ p.beforeAbort
  have n₃ := hthird ▸ handleAll_inCharge i₂ p.beforeAbort
  rw [handleAll_inCharge (abortPlan_inv i₃ _), abortPlan_inCharge, abortPlan_candidate, n₃, n₂, n₁,
    c₃, c₂, c₁, isCurrentStateTimeout_congr _ q₁]
  cases t.candidate.isPlanTimeout p.readings.tsStart with
  | true => simp
  | false =>
    simp only [Bool.false_eq_true, if_false, Bool.and_eq_true, Bool.not_eq_true', Bool.not_false,
      List.all_eq_true, List.mem_append, true_and, and_true]
    constructor
    · rintro ⟨⟨⟨⟨hcharge, hone⟩, htime⟩, htwo⟩, hthree⟩
      refine ⟨hcharge, htime, ?_⟩
      rintro e ((he | he) | he)
      exacts [hone e he, htwo e he, hthree e he]
    · rintro ⟨hcharge, htime, hall⟩
      exact ⟨⟨⟨⟨hcharge, fun e he => hall e (.inl (.inl he))⟩, htime⟩,
        fun e he => hall e (.inl (.inr he))⟩, fun e he => hall e (.inr he)⟩

theorem asks_iff (t : CandidateThread K) (p : Pass K) :
    (t.checkTimeouts p).asks p.readings = true ↔ t.Asks p := by
  obtain ⟨hcandidate, -, hparams⟩ := checkTimeouts_frame t p
  unfold asks Asks
  rw [Bool.and_eq_true, isGapClosed_congr hparams, hcandidate]
  cases t.candidate.isPlanTimeout p.readings.tsStart with
  | true => simp
  | false => simp

theorem closeGap_inv {t : CandidateThread K} (h : t.Inv) (p : Pass K) : (t.closeGap p).Inv := by
  unfold closeGap
  split
  · exact requestJoin_inv (handleAll_inv h _) _
  · exact h

theorem pass_inv {t : CandidateThread K} (h : t.Inv) (p : Pass K) : (t.pass p).Inv := by
  unfold pass
  split
  · exact h
  · exact handleAll_inv (publishStatus_inv (handleAll_inv
      (closeGap_inv (checkTimeouts_inv h p) p) _) _) _

theorem onlyInCharge_pass {t : CandidateThread K} (h : t.Inv) (p : Pass K) :
    (t.pass p).OnlyInCharge ↔
      t.OnlyInCharge ∧ (t.interrupted = false → t.Asks p → t.Stays p) := by
  unfold pass
  by_cases hrunning : t.interrupted = true
  · rw [if_pos hrunning, hrunning]
    exact (and_iff_left fun h => by cases h).symm
  · rw [if_neg hrunning]
    rw [Bool.not_eq_true] at hrunning
    have hinv := checkTimeouts_inv h p
    obtain ⟨hcandidate, hpublished, -⟩ := checkTimeouts_frame t p
    rw [onlyInCharge_congr (handleAll_frame _ _).2.1, onlyInCharge_publishStatus,
      onlyInCharge_congr (handleAll_frame _ _).2.1]
    unfold closeGap
    by_cases hasks : t.Asks p
    · rw [if_pos ((asks_iff t p).mpr hasks), onlyInCharge_requestJoin,
        onlyInCharge_congr ((handleAll_frame _ _).2.1.trans hpublished),
        handleAll_inCharge hinv, Bool.and_eq_true, checkTimeouts_inCharge h p, hcandidate]
      apply and_congr_right
      intro _
      constructor
      · rintro ⟨⟨-, htime, hplan, hbefore⟩, hlast⟩ - -
        rw [hplan, if_neg Bool.false_ne_true, List.all_eq_true] at hlast
        refine ⟨htime, hplan, ?_⟩
        intro e he
        rcases List.mem_append.mp he with he | he
        · exact hbefore e he
        · exact (Bool.not_eq_true' _).mp (hlast e he)
      · intro hstays
        obtain ⟨htime, hplan, hall⟩ := hstays hrunning hasks
        refine ⟨⟨(h.running hrunning).1, htime, hplan, ?_⟩, ?_⟩
        · exact fun e he => hall e (List.mem_append_left _ he)
        · rw [hplan, if_neg Bool.false_ne_true, List.all_eq_true]
          exact fun e he => (Bool.not_eq_true' _).mpr (hall e (List.mem_append_right _ he))
    · rw [if_neg (mt (asks_iff t p).mp hasks), onlyInCharge_congr hpublished]
      exact (and_iff_left fun _ h => absurd h hasks).symm

/-! ## The loop on its own -/

omit [Field K] [LinearOrder K] in
theorem publishStatus_alone (t : CandidateThread K) (r : Readings K) :
    (t.publishStatus r).plugin = t.plugin ∧
      (t.publishStatus r).published.map Prod.fst = t.published.map Prod.fst ++
        (if decide (t.plugin.platoonManager.getTotalPlatooningSize > 1) then
          [t.plugin.composeStatus r] else []) := by
  unfold publishStatus
  by_cases hsize : t.plugin.platoonManager.getTotalPlatooningSize > 1
  · rw [if_pos hsize, decide_eq_true hsize, if_pos rfl]
    exact ⟨rfl, List.map_append⟩
  · rw [if_neg hsize, decide_eq_false hsize, if_neg Bool.false_ne_true, List.append_nil]
    exact ⟨rfl, rfl⟩

theorem timeouts_alone (t : CandidateThread K) (tsStart : ℤ) :
    ((t.checkStateTimeout tsStart).abortPlan tsStart).plugin =
      if t.candidate.isCurrentStateTimeout t.plugin tsStart || t.candidate.isPlanTimeout tsStart then
        t.plugin.setState newLeaderState
      else t.plugin := by
  have hcandidate := (checkStateTimeout_frame t tsStart).1
  unfold abortPlan
  rw [hcandidate]
  unfold checkStateTimeout
  cases t.candidate.isCurrentStateTimeout t.plugin tsStart with
  | true =>
    cases t.candidate.isPlanTimeout tsStart with
    | true => rfl
    | false => rfl
  | false =>
    cases t.candidate.isPlanTimeout tsStart with
    | true =>
      show ((t.setPlan none).setState newLeaderState).plugin = t.plugin.setState newLeaderState
      unfold setPlan setState PlatooningPlugin.setState
      dsimp only
      split <;> rfl
    | false => rfl

theorem closeGap_alone (t : CandidateThread K) (r : Readings K) :
    (t.closeGap ⟨r, [], [], [], [], [], []⟩).plugin = (if t.asks r && t.inCharge then
        { t.plugin with state := .candidateFollower { t.candidate with
          currentPlan := some ⟨r.now, r.uuid, t.candidate.targetLeaderId⟩ } }
      else t.plugin) ∧
    (t.closeGap ⟨r, [], [], [], [], [], []⟩).published.map Prod.fst = t.published.map Prod.fst ++
      (if t.asks r then [t.plugin.followerJoinRequest r t.candidate.targetLeaderId] else []) := by
  unfold closeGap
  dsimp only
  cases t.asks r with
  | false => exact ⟨rfl, (List.append_nil _).symm⟩
  | true =>
    refine ⟨?_, List.map_append⟩
    show (if t.inCharge then _ else t.plugin) = _
    rw [Bool.true_and]
    rfl

theorem run_eq (s : CandidateFollowerState) (plugin : PlatooningPlugin K) (r : Readings K) :
    s.run plugin r =
      let currentPlan := if s.isPlanTimeout r.tsStart then none else s.currentPlan
      let asks := CandidateFollowerState.isGapClosed plugin r && currentPlan.isNone
      ⟨if s.isCurrentStateTimeout plugin r.tsStart || s.isPlanTimeout r.tsStart then
          plugin.setState newLeaderState
        else { plugin with
          state := .candidateFollower { s with
            currentPlan := if asks then some ⟨r.now, r.uuid, s.targetLeaderId⟩ else currentPlan } },
        (if asks then [plugin.followerJoinRequest r s.targetLeaderId] else []) ++
        (if decide (plugin.platoonManager.getTotalPlatooningSize > 1) then
          [plugin.composeStatus r] else [])⟩ := rfl

theorem asks_alone (t : CandidateThread K) (r : Readings K) :
    ((t.checkStateTimeout r.tsStart).abortPlan r.tsStart).asks r =
      (CandidateFollowerState.isGapClosed t.plugin r &&
        (if t.candidate.isPlanTimeout r.tsStart then none else t.candidate.currentPlan).isNone) := by
  obtain ⟨hcandidate, -, hparams⟩ := checkTimeouts_frame t ⟨r, [], [], [], [], [], []⟩
  change ((t.checkStateTimeout r.tsStart).abortPlan r.tsStart).candidate = _ at hcandidate
  change ((t.checkStateTimeout r.tsStart).abortPlan r.tsStart).plugin.params = _ at hparams
  unfold asks
  rw [isGapClosed_congr hparams, hcandidate]
  dsimp only
  split <;> rfl

/-- The state stays in charge unless a timeout ends it. -/
theorem inCharge_alone {t : CandidateThread K} (h : t.Inv) (hcharge : t.inCharge = true)
    (r : Readings K) :
    ((t.checkStateTimeout r.tsStart).abortPlan r.tsStart).inCharge =
      !(t.candidate.isCurrentStateTimeout t.plugin r.tsStart ||
        t.candidate.isPlanTimeout r.tsStart) := by
  have hin := checkTimeouts_inCharge h ⟨r, [], [], [], [], [], []⟩
  change ((t.checkStateTimeout r.tsStart).abortPlan r.tsStart).inCharge = true ↔ _ at hin
  rw [Bool.eq_iff_iff, hin]
  simp [hcharge]

/-- A pass without other threads does to the plugin what `CandidateFollowerState.run` says. -/
theorem pass_alone {t : CandidateThread K} (h : t.Inv) (hrunning : t.interrupted = false)
    (r : Readings K) :
    (t.pass ⟨r, [], [], [], [], [], []⟩).plugin = (t.candidate.run t.plugin r).plugin ∧
      (t.pass ⟨r, [], [], [], [], [], []⟩).published.map Prod.fst =
        t.published.map Prod.fst ++ (t.candidate.run t.plugin r).published := by
  have hcharge := (h.running hrunning).1
  have hstate := h.state hcharge
  have hpass : t.pass ⟨r, [], [], [], [], [], []⟩ =
      (((t.checkStateTimeout r.tsStart).abortPlan r.tsStart).closeGap
        ⟨r, [], [], [], [], [], []⟩).publishStatus r := by
    unfold pass
    rw [hrunning]
    rfl
  obtain ⟨hcandidate, hpublished, -⟩ := checkTimeouts_frame t ⟨r, [], [], [], [], [], []⟩
  have hin := inCharge_alone h hcharge r
  have hplugin := timeouts_alone t r.tsStart
  have hasks := asks_alone t r
  change ((t.checkStateTimeout r.tsStart).abortPlan r.tsStart).candidate = _ at hcandidate
  change ((t.checkStateTimeout r.tsStart).abortPlan r.tsStart).published = _ at hpublished
  rw [hpass, (publishStatus_alone _ _).1, (publishStatus_alone _ _).2, (closeGap_alone _ _).1,
    (closeGap_alone _ _).2]
  generalize (t.checkStateTimeout r.tsStart).abortPlan r.tsStart = t' at *
  rw [hasks, hpublished, hin]
  have htarget : t'.candidate.targetLeaderId = t.candidate.targetLeaderId := by
    rw [hcandidate]
    split <;> rfl
  rw [run_eq]
  dsimp only
  generalize hplan : (if t.candidate.isPlanTimeout r.tsStart then none
    else t.candidate.currentPlan) = currentPlan at *
  generalize hgap : (CandidateFollowerState.isGapClosed t.plugin r && currentPlan.isNone) = asks at *
  cases htimeout : t.candidate.isCurrentStateTimeout t.plugin r.tsStart ||
    t.candidate.isPlanTimeout r.tsStart with
  | true =>
    rw [htimeout, if_pos rfl] at hplugin
    rw [Bool.not_true, Bool.and_false, if_neg Bool.false_ne_true, if_pos rfl, hplugin, htarget,
      List.append_assoc]
    exact ⟨rfl, rfl⟩
  | false =>
    obtain ⟨htime, hinTime⟩ := Bool.or_eq_false_iff.mp htimeout
    rw [htimeout, if_neg Bool.false_ne_true] at hplugin
    rw [hinTime, if_neg Bool.false_ne_true] at hplan
    have hsame : t'.candidate = t.candidate := by
      rw [hcandidate, hinTime]
      exact if_neg Bool.false_ne_true
    rw [Bool.not_false, Bool.and_true, if_neg Bool.false_ne_true, hplugin, hsame, ← hplan]
    cases asks with
    | true => exact ⟨rfl, List.append_assoc _ _ _⟩
    | false =>
      refine ⟨?_, List.append_assoc _ _ _⟩
      show t.plugin = { t.plugin with state := .candidateFollower t.candidate }
      rw [← hstate]

/-! ## The whole run -/

theorem run_cons (t : CandidateThread K) (p : Pass K) (rest : List (Pass K)) :
    t.run (p :: rest) = (t.pass p).run rest := rfl

theorem onlyInCharge_run {t : CandidateThread K} (h : t.Inv) (passes : List (Pass K)) :
    (t.run passes).OnlyInCharge ↔ t.OnlyInCharge ∧
      ∀ earlier p later, passes = earlier ++ p :: later →
        (t.run earlier).interrupted = false → (t.run earlier).Asks p → (t.run earlier).Stays p := by
  induction passes generalizing t with
  | nil =>
    refine (and_iff_left ?_).symm
    intro earlier p later hsplit
    cases earlier <;> cases hsplit
  | cons p rest ih =>
    rw [run_cons, ih (pass_inv h p), onlyInCharge_pass h p, and_assoc]
    apply and_congr_right
    intro _
    constructor
    · rintro ⟨hfirst, hrest⟩ earlier q later hsplit
      cases earlier with
      | nil =>
        obtain ⟨rfl, -⟩ := List.cons.inj hsplit
        exact hfirst
      | cons e earlier =>
        obtain ⟨rfl, htail⟩ := List.cons.inj hsplit
        exact hrest earlier q later htail
    · intro hall
      refine ⟨hall [] p rest rfl, ?_⟩
      rintro earlier q later rfl
      exact hall (p :: earlier) q later rfl

/-- Every join request is sent from the state that the plugin is in just when no pass that has
a reason to ask makes the plugin leave that state first. -/
theorem join_requests_come_from_the_state_just_where_passes_that_ask_stay
    (plugin : PlatooningPlugin K) (targetId newPlatoonId : String) (now : ℤ)
    (passes : List (Pass K)) :
    ((start plugin targetId newPlatoonId now).run passes).OnlyInCharge ↔
      ∀ earlier p later, passes = earlier ++ p :: later →
        ((start plugin targetId newPlatoonId now).run earlier).interrupted = false →
        ((start plugin targetId newPlatoonId now).run earlier).Asks p →
        ((start plugin targetId newPlatoonId now).run earlier).Stays p := by
  rw [onlyInCharge_run (start_inv _ _ _ _)]
  apply and_iff_right
  intro m hm
  cases hm

/-- A pass of the loop every 0.1 s, 35 m behind the platoon at 10 m/s. No answer comes. -/
def passAt (time : ℤ) : Pass ℚ where
  readings := ⟨time, time, "", "", 0, 10, 10, some 35⟩
  beforeTimeout := []
  beforeAbort := []
  beforeGap := []
  beforeRequest := []
  beforeStatus := []
  asleep := []

/-- After 5 s without an answer the plugin is a leader again, and the request is repeated. -/
theorem a_request_is_repeated_by_a_candidate_that_gave_up :
    ¬ ((start (newPlugin defaultParams "host" "platoon") "leader" "front" 0).run
      ((List.range 52).map fun k => passAt (100 * k))).OnlyInCharge := by
  unfold OnlyInCharge
  decide +kernel

end CandidateThread

end carma.platooning
