-- Guidance and the status of the robot: the machine is engaged only while the
-- robot was last heard to be active, and engages again only after it was heard
-- to be inactive.
import Carma.GuidanceNodeLaws

open lib.runs

namespace carma.guidance_node

/-! ## The robot -/

/-- What the handler knows of the robot, or is about to write. -/
def GuidanceNode.knownRobot (n : GuidanceNode) : Bool := n.robotCallback.getD n.robotStatus

theorem actionOf_eq_engage {s : GuidanceState} {e : GuidanceEvent}
    (h : actionOf s e = some .ENGAGE) : e = .START_ROUTE := by
  cases s <;> cases e <;> simp [actionOf, transition] at h ⊢

namespace GuidanceNode

@[simp] theorem processEvent_robotStatus (n : GuidanceNode) (e : GuidanceEvent) :
    (n.processEvent e).1.robotStatus = n.robotStatus := by
  unfold processEvent
  split <;> rfl

@[simp] theorem processEvent_robotCallback (n : GuidanceNode) (e : GuidanceEvent) :
    (n.processEvent e).1.robotCallback = n.robotCallback := by
  unfold processEvent
  split <;> rfl

@[simp] theorem processEvent_robotMessages (n : GuidanceNode) (e : GuidanceEvent) :
    robotMessages (n.processEvent e).2 = [] := by
  unfold processEvent
  split <;> rfl

/-- What a call can do about the robot, where an engaged machine knows of an active robot: it
hears nothing and does not engage, or it hears one message. The machine engages only on a
message that the robot is active, where it was known as inactive before. -/
inductive RobotEffect (n n' : GuidanceNode) (events : List Event) : Prop
  | deaf (hmessages : robotMessages events = []) (hknown : n'.knownRobot = n.knownRobot)
      (hengaged : n'.guidanceState = .ENGAGED → n.guidanceState = .ENGAGED)
      (hengage : Event.action .ENGAGE ∉ events)
  | heard (robotActive : Bool) (hmessages : robotMessages events = [robotActive])
      (hknown : n'.knownRobot = robotActive)
      (hengaged : n'.guidanceState = .ENGAGED → robotActive = true)
      (hengage : Event.action .ENGAGE ∈ events →
        n.knownRobot = false ∧ events = [.heardRobot true, .action .ENGAGE])

theorem processEvent_engages {n : GuidanceNode} {e : GuidanceEvent} (he : e ≠ .START_ROUTE) :
    ((n.processEvent e).1.guidanceState = .ENGAGED → n.guidanceState = .ENGAGED) ∧
      Event.action .ENGAGE ∉ (n.processEvent e).2 := by
  unfold processEvent
  rcases hact : actionOf n.guidanceState e with _ | a
  · simp
  · have ha : a ≠ .ENGAGE := by
      rintro rfl
      exact he (actionOf_eq_engage hact)
    simp only [transition_of_actionOf hact, List.mem_singleton, Event.action.injEq]
    refine ⟨fun h => ?_, fun h => ha h.symm⟩
    cases a <;> simp [GuidanceAction.state] at h ha

theorem robotEffect_processEvent {n n' : GuidanceNode} {e : GuidanceEvent}
    (before after : List Event) (he : e ≠ .START_ROUTE)
    (hstate : n'.guidanceState = (n.processEvent e).1.guidanceState)
    (hknown : n'.knownRobot = n.knownRobot)
    (hbefore : robotMessages before = [] ∧ Event.action .ENGAGE ∉ before)
    (hafter : robotMessages after = [] ∧ Event.action .ENGAGE ∉ after) :
    RobotEffect n n' (before ++ (n.processEvent e).2 ++ after) := by
  obtain ⟨hengaged, hengage⟩ := processEvent_engages (n := n) he
  apply RobotEffect.deaf
  · simp [hbefore.1, hafter.1]
  · exact hknown
  · rwa [hstate]
  · simp [hbefore.2, hengage, hafter.2]

theorem robotEffect_event {n n' : GuidanceNode} {e : GuidanceEvent} (he : e ≠ .START_ROUTE)
    (hstate : n'.guidanceState = (n.processEvent e).1.guidanceState)
    (hknown : n'.knownRobot = n.knownRobot) : RobotEffect n n' (n.processEvent e).2 := by
  simpa using robotEffect_processEvent [] [] he hstate hknown
    (by simp) (by simp)

theorem knownRobot_processEvent (n : GuidanceNode) (e : GuidanceEvent) :
    (n.processEvent e).1.knownRobot = n.knownRobot := by
  simp [knownRobot]

theorem robotEffect_robotEnabled {n : GuidanceNode} (robotActive : Bool)
    (hcallback : n.robotCallback = none)
    (hinv : n.guidanceState = .ENGAGED → n.knownRobot = true) :
    RobotEffect n (n.robotEnabled robotActive).1 (n.robotEnabled robotActive).2 := by
  have hknown : n.knownRobot = n.robotStatus := by simp [knownRobot, hcallback]
  unfold robotEnabled
  split_ifs with hrises hfalls
  · -- The message is active and the known status is not.
    simp only [Bool.and_eq_true, Bool.not_eq_true'] at hrises
    obtain ⟨hstatus, rfl⟩ := hrises
    apply RobotEffect.heard true
    · simp [Event.robotMessages]
    · simp [knownRobot]
    · intro _
      rfl
    · intro hengage
      refine ⟨hknown.trans hstatus, ?_⟩
      unfold processEvent at hengage ⊢
      rcases hact : actionOf n.guidanceState .START_ROUTE with _ | a
      · simp [hact] at hengage
      · simp only [hact, List.mem_cons, List.not_mem_nil, or_false, reduceCtorEq, false_or,
          Event.action.injEq] at hengage
        simp [← hengage]
  · simp only [Bool.and_eq_true, Bool.not_eq_true'] at hfalls
    obtain ⟨hstatus, rfl⟩ := hfalls
    obtain ⟨-, hengage⟩ := processEvent_engages (n := n) (e := .ROBOT_DISABLED) (by simp)
    apply RobotEffect.heard false
    · simp [Event.robotMessages]
    · simp [knownRobot]
    · -- An engaged machine is inactive once it has heard that the robot is.
      intro hstate
      unfold processEvent at hstate
      cases hs : n.guidanceState <;> simp [hs, actionOf, transition] at hstate
    · intro hmem
      simp [hengage] at hmem
  · apply RobotEffect.heard robotActive
    · simp [Event.robotMessages]
    · cases hs : n.robotStatus <;> cases robotActive <;> simp_all
    · intro hstate
      have hactive := hinv hstate
      cases robotActive <;> simp_all
    · simp

/-- The inversion of a call, as to the robot. -/
theorem robotEffect_call {n : GuidanceNode} (k : Call)
    (hinv : n.guidanceState = .ENGAGED → n.knownRobot = true) :
    RobotEffect n (n.call k).1 (n.call k).2 := by
  have hnothing : RobotEffect n n [] := .deaf rfl rfl id (by simp)
  cases k with
  | systemAlert type =>
    simp only [call]
    split
    · cases type <;> first
        | exact hnothing
        | exact robotEffect_event (by simp) rfl (knownRobot_processEvent n _)
    · exact hnothing
  | routeEvent event =>
    simp only [call]
    split
    · have halert : ∀ e ≠ GuidanceEvent.START_ROUTE,
          RobotEffect n (n.processEvent e).1 (.alert .CAUTION :: (n.processEvent e).2) := by
        intro e he
        simpa using robotEffect_processEvent [.alert .CAUTION] [] he rfl
          (knownRobot_processEvent n e) (by simp [Event.robotMessages]) (by simp)
      cases event <;> first | exact hnothing | exact halert _ (by simp)
    · exact hnothing
  | setGuidanceActive active =>
    simp only [call]
    split
    · unfold setGuidanceActive
      split_ifs
      · exact robotEffect_event (by simp) rfl (knownRobot_processEvent n _)
      · simpa using robotEffect_processEvent (e := .DISENGAGE) [] [.guidanceStatus false]
          (by simp) rfl (knownRobot_processEvent n _) (by simp) (by simp [Event.robotMessages])
      · exact .deaf rfl rfl id (by simp)
    · exact hnothing
  | guidanceStatusRead =>
    simp only [call, guidanceStatusRead]
    split
    · exact hnothing
    · exact .deaf rfl rfl id (by simp)
  | robotEnabled robotActive =>
    simp only [call]
    split
    · rename_i hguard
      simp only [Bool.and_eq_true, Option.isNone_iff_eq_none] at hguard
      exact robotEffect_robotEnabled robotActive hguard.2 hinv
    · exact hnothing
  | robotStatusWritten =>
    simp only [call, robotStatusWritten]
    split
    · exact hnothing
    · rename_i b hcallback
      exact .deaf rfl (by simp [knownRobot, hcallback]) id (by simp)
  | handleException => exact robotEffect_event (by simp) rfl (knownRobot_processEvent n _)
  | runJobQueue c ending =>
    simp only [call, runJobQueue]
    split
    · rename_i j rest hloop hqueue
      have hpublished : robotMessages (published c j) = [] ∧
          Event.action .ENGAGE ∉ published c j := by
        cases c <;> cases j <;> simp [published, Event.robotMessages]
      have hregister : ∀ m : GuidanceNode, (m.register c j ending.robotTopic).knownRobot =
          m.knownRobot := by
        intro m
        unfold register
        split <;> rfl
      apply RobotEffect.deaf
      · cases ending.hasReturned <;> simp [Event.robotMessages, hpublished.1]
      · rw [hregister]
        rfl
      · rw [register_guidanceState]
        exact id
      · cases ending.hasReturned <;> simp [hpublished.2]
    · exact hnothing
  | runPlanningJob returned =>
    simp only [call, runPlanningJob]
    split
    · exact .deaf rfl rfl id (by simp)
    · exact hnothing

end GuidanceNode

theorem robotEffect_next {calls : List Call} (k : Call)
    (hinv : (nodeAfter calls).guidanceState = .ENGAGED → (nodeAfter calls).knownRobot = true) :
    GuidanceNode.RobotEffect (nodeAfter calls) (nodeAfter (calls ++ [k]))
      ((nodeAfter calls).call k).2 := by
  simpa only [nodeAfter_snoc] using GuidanceNode.robotEffect_call k hinv

theorem robot_invariant (calls : List Call) :
    (nodeAfter calls).knownRobot = (robotMessages (nodeLog calls)).getLast?.getD false ∧
      ((nodeAfter calls).guidanceState = .ENGAGED → (nodeAfter calls).knownRobot = true) := by
  induction calls using List.reverseRecOn with
  | nil => exact ⟨rfl, by simp [nodeAfter, newGuidanceNode]⟩
  | append_singleton calls k ih =>
    obtain ⟨hlast, hinv⟩ := ih
    rw [nodeLog_snoc, robotMessages_append]
    cases robotEffect_next k hinv with
    | deaf hmessages hknown hengaged hengage =>
      rw [hmessages, hknown, List.append_nil]
      exact ⟨hlast, fun h => hinv (hengaged h)⟩
    | heard robotActive hmessages hknown hengaged hengage =>
      rw [hmessages, hknown]
      exact ⟨by simp, hengaged⟩

/-- Guidance is engaged only while the robot was last heard to be active. -/
theorem an_engaged_machine_has_heard_an_active_robot (calls : List Call)
    (h : (nodeAfter calls).guidanceState = .ENGAGED) :
    (robotMessages (nodeLog calls)).getLast? = some true := by
  obtain ⟨hlast, hinv⟩ := robot_invariant calls
  rw [hinv h] at hlast
  cases hget : (robotMessages (nodeLog calls)).getLast? with
  | none => simp [hget] at hlast
  | some b => simpa [hget] using hlast.symm

/-- An engagement follows at once on the message that the robot is active, which the handler
did not know before. -/
theorem an_engagement_follows_a_new_active_message {calls : List Call} {pre post : List Event}
    (hlog : nodeLog calls = pre ++ .action .ENGAGE :: post) :
    ∃ before, pre = nodeLog before ++ [.heardRobot true] ∧
      (nodeAfter before).knownRobot = false := by
  obtain ⟨before, k, after, l, r, -, hpre, hk⟩ := logged_split hlog
  have hmem : Event.action .ENGAGE ∈ ((nodeAfter before).call k).2 := by
    unfold nodeAfter
    simp [hk]
  cases robotEffect_next k (robot_invariant before).2 with
  | deaf hmessages hknown hengaged hengage => exact absurd hmem hengage
  | heard robotActive hmessages hknown hengaged hengage =>
    obtain ⟨hinactive, hevents⟩ := hengage hmem
    have hfirst : l = [.heardRobot true] := by
      have hsplit : l ++ .action .ENGAGE :: r = [.heardRobot true, .action .ENGAGE] :=
        hk.symm.trans hevents
      rcases l with _ | ⟨e, _ | ⟨f, l⟩⟩ <;> simp_all
    exact ⟨before, by rw [hpre, hfirst, nodeLog], hinactive⟩

/-- Guidance is engaged, the robot is disabled, and it is engaged again. -/
def engagedTwice : List Call :=
  activated ++ [.robotEnabled true, .robotStatusWritten, .robotEnabled false, .robotStatusWritten,
    .robotEnabled true]

theorem engaged_twice_has_heard_an_active_robot :
    (robotMessages (nodeLog engagedTwice)).getLast? = some true :=
  an_engaged_machine_has_heard_an_active_robot engagedTwice rfl

theorem mem_robotMessages {b : Bool} {l : List Event} :
    b ∈ robotMessages l ↔ Event.heardRobot b ∈ l := by
  unfold robotMessages
  rw [List.mem_flatMap]
  constructor
  · rintro ⟨e, he, hb⟩
    cases e <;> simp [Event.robotMessages] at hb
    rwa [hb]
  · intro h
    exact ⟨_, h, by simp [Event.robotMessages]⟩

/-- As long as the handler has not heard since an engagement that the robot is inactive, it
knows the robot as active. -/
theorem knownRobot_of_engaged_since {calls : List Call} {pre mid : List Event}
    (hlog : nodeLog calls = pre ++ .action .ENGAGE :: mid) (hmid : Event.heardRobot false ∉ mid) :
    (nodeAfter calls).knownRobot = true := by
  obtain ⟨before, rfl, -⟩ := an_engagement_follows_a_new_active_message hlog
  rw [(robot_invariant calls).1, hlog]
  rcases List.eq_nil_or_concat (robotMessages mid) with hnone | ⟨bs, b, hsome⟩
  · simp [hnone, Event.robotMessages]
  · have hb : b ∈ robotMessages mid := by simp [hsome]
    cases b with
    | false => exact absurd (mem_robotMessages.mp hb) hmid
    | true => simp [hsome]

/-- Between two engagements the handler has heard that the robot is inactive. -/
theorem the_robot_is_inactive_between_two_engagements (calls : List Call)
    (pre mid post : List Event)
    (hlog : nodeLog calls = pre ++ .action .ENGAGE :: mid ++ .action .ENGAGE :: post) :
    Event.heardRobot false ∈ mid := by
  by_contra hmid
  obtain ⟨before, hpre, hinactive⟩ := an_engagement_follows_a_new_active_message hlog
  rcases List.eq_nil_or_concat mid with rfl | ⟨mid', e, rfl⟩
  · have hlast := (List.append_inj' hpre rfl).2
    simp at hlast
  · rw [List.concat_eq_append, ← List.cons_append, ← List.append_assoc] at hpre
    obtain ⟨hbefore, -⟩ := List.append_inj' hpre rfl
    have hknown := knownRobot_of_engaged_since hbefore.symm (fun h => hmid (by simp [h]))
    rw [hinactive] at hknown
    cases hknown

theorem the_robot_is_inactive_within_engaged_twice :
    Event.heardRobot false ∈ [.heardRobot false, .action .DEACTIVATE, .heardRobot true] :=
  the_robot_is_inactive_between_two_engagements engagedTwice
    [.ran .stateHandler .onStartup, .action .INTIALIZE, .ran .stateHandler .onSystemReady,
      .action .ACTIVATE, .heardRobot true] _ [] rfl

end carma.guidance_node
