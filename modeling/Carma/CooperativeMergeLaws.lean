-- The law of remote control: a roadside unit gets control of the vehicle only after it
-- accepted the plan of the vehicle, as long as no planning state finds a maneuver of an
-- earlier state still executed.
import Carma.CooperativeMerge
import Carma.Lib.Runs
import Carma.PathErrors

open lib.runs
open carma.maneuvers
open carma.mobility_router (MobilityHeader MobilityResponse)
open carma.path_messages
open carma.trajectory

namespace carma.cooperative_merge

variable {K F : Type}

/-! ## Consent -/

/-- The roadside unit has accepted the plan. -/
def Consented (received : List MobilityResponse) (data : RampMeterData K) (planId : String) : Prop :=
  ∃ msg ∈ received, isAbout msg.header data planId ∧ msg.isAccepted = true

theorem Consented.mono {received more : List MobilityResponse} {data : RampMeterData K}
    {planId : String} (h : Consented received data planId) (hsub : received ⊆ more) :
    Consented more data planId := by
  obtain ⟨msg, hmsg, hspec⟩ := h
  exact ⟨msg, hsub hmsg, hspec⟩

/-- A state of control, or on the way to it, has the consent that it needs. -/
def Sound (received : List MobilityResponse) : ICooperativeMergeState K → Prop
  | .standby _ => True
  | .planning p => p.replanningForMerge = true → Consented received p.rampMeterData p.planId
  | .execution e => Consented received e.rampMeterData e.planId

theorem Sound.mono {received more : List MobilityResponse} {x : ICooperativeMergeState K}
    (h : Sound received x) (hsub : received ⊆ more) : Sound more x := by
  cases x with
  | standby _ => trivial
  | planning p => exact fun hp => (h hp).mono hsub
  | execution e => exact Consented.mono h hsub

/-- Two states of one kind that talk with the same roadside unit about the same plan. -/
inductive SameTalk : ICooperativeMergeState K → ICooperativeMergeState K → Prop
  | standby (a b : List (RampMeterData K)) : SameTalk (.standby a) (.standby b)
  | planning {p q : PlanningState K} (hdata : q.rampMeterData = p.rampMeterData)
      (hplan : q.planId = p.planId) : SameTalk (.planning p) (.planning q)
  | execution {e f : ExecutionState K} (hdata : f.rampMeterData = e.rampMeterData)
      (hplan : f.planId = e.planId) : SameTalk (.execution e) (.execution f)

theorem SameTalk.refl (x : ICooperativeMergeState K) : SameTalk x x := by
  cases x with
  | standby _ => exact .standby _ _
  | planning _ => exact .planning rfl rfl
  | execution _ => exact .execution rfl rfl

/-! ## What a method does -/

/-- A method keeps the talk of its state, and does with the vehicle only what the
roadside unit consented to. -/
structure Fair (received : List MobilityResponse) (current : Prop)
    (self : ICooperativeMergeState K) (r : Outcome K) : Prop where
  same : SameTalk self r.self
  sound : Sound received r.self
  new_sound : ∀ new ∈ r.newState, current → Sound received new
  planted : r.planted.isSome = true →
    ∃ p, self = .planning p ∧ Consented received p.rampMeterData p.planId
  command : ∀ c ∈ r.command, ∃ e, self = .execution e ∧ isAbout c.1 e.rampMeterData e.planId

variable {received : List MobilityResponse} {current : Prop}

theorem idle_fair {self : ICooperativeMergeState K} (h : Sound received self) :
    Fair received current self (idle self) where
  same := .refl self
  sound := h
  new_sound := by simp [idle]
  planted := by simp [idle]
  command := by simp [idle]

/-- A method that changes its state, may go to a new one, and does nothing else. -/
theorem turn_fair {self next : ICooperativeMergeState K} (hsame : SameTalk self next)
    (hnext : Sound received next) {new : Option (ICooperativeMergeState K)}
    (hnew : ∀ x ∈ new, current → Sound received x) (out : List (Output K)) :
    Fair received current self { idle next with newState := new, out := out } where
  same := hsame
  sound := hnext
  new_sound := hnew
  planted := by simp [idle]
  command := by simp [idle]

theorem settles_fair {self next : ICooperativeMergeState K} (hsame : SameTalk self next)
    (hnext : Sound received next) : Fair received current self (idle next) :=
  turn_fair hsame hnext (fun _ hx => by cases hx) []

theorem stays_fair {self next : ICooperativeMergeState K} (hsame : SameTalk self next)
    (hnext : Sound received next) (out : List (Output K)) :
    Fair received current self { idle next with out := out } :=
  turn_fair hsame hnext (fun _ hx => by cases hx) out

theorem leaves_fair {self next : ICooperativeMergeState K} (hsame : SameTalk self next)
    (hnext : Sound received next) (out : List (Output K)) :
    Fair received current self { idle next with newState := some (.standby []), out := out } := by
  apply turn_fair hsame hnext
  intro x hx _
  obtain rfl := Option.some.inj hx
  trivial

theorem requestNewPlan_keeps (v : Vehicle K) (p : PlanningState K) :
    (p.requestNewPlan v).1.rampMeterData = p.rampMeterData ∧
      (p.requestNewPlan v).1.planId = p.planId ∧
      (p.requestNewPlan v).1.replanningForMerge = p.replanningForMerge := by
  unfold PlanningState.requestNewPlan
  split <;> exact ⟨rfl, rfl, rfl⟩

theorem onMobilityResponseMessage_fair (v : Vehicle K) {msg : MobilityResponse}
    (hmsg : msg ∈ received) {self : ICooperativeMergeState K} (h : Sound received self) :
    Fair received current self (onMobilityResponseMessage v msg self) := by
  cases self with
  | standby _ => exact idle_fair h
  | planning p =>
    change Fair received current _ (p.onMobilityResponseMessage v msg)
    unfold PlanningState.onMobilityResponseMessage
    split
    · rename_i hyes
      refine stays_fair ?_ ?_ _
      · exact .planning rfl rfl
      · exact fun _ => ⟨msg, hmsg, hyes.1, hyes.2.2⟩
    · exact idle_fair h
  | execution e =>
    change Fair received current _ (e.onMobilityResponseMessage msg)
    unfold ExecutionState.onMobilityResponseMessage
    split
    · exact leaves_fair (.refl _) h _
    · exact idle_fair h

variable [Field K]

theorem onMobilityOperationMessage_fair (v : Vehicle K) (msg : MobilityOperation K)
    {self : ICooperativeMergeState K} (h : Sound received self) :
    Fair received current self (onMobilityOperationMessage v msg self) := by
  cases self with
  | standby _ => exact idle_fair h
  | planning p => exact idle_fair h
  | execution e =>
    change Fair received current _ (e.onMobilityOperationMessage v msg)
    unfold ExecutionState.onMobilityOperationMessage
    split
    · rename_i habout
      split
      · exact stays_fair (.refl _) h _
      · exact idle_fair h
      · refine ⟨.execution rfl rfl, h, by simp [idle], by simp [idle], ?_⟩
        intro c hc
        obtain rfl := Option.some.inj hc
        exact ⟨e, rfl, habout⟩
    · exact idle_fair h

/-- A loop that goes to execution has the consent for it. -/
def Consents (cfg : Settings K F) (v : Vehicle K) (executing : Executing K)
    (received : List MobilityResponse) (self : ICooperativeMergeState K) : Prop :=
  ∀ p, self = .planning p → v.currentTimeMillis - p.requestTime ≤ cfg.commsTimeoutMS →
    executing.maneuver.isSome = true → Consented received p.rampMeterData p.planId

theorem loop_fair (cfg : Settings K F) (v : Vehicle K) (executing : Executing K)
    {self : ICooperativeMergeState K} (h : Sound received self)
    (hconsents : current → Consents cfg v executing received self) :
    Fair received current self (loop cfg v executing self) := by
  cases self with
  | standby _ => exact idle_fair h
  | planning p =>
    change Fair received current _ (p.loop cfg v executing.maneuver)
    unfold PlanningState.loop
    split
    · exact leaves_fair (.refl _) h []
    · rename_i hintime
      obtain ⟨hdata, hplan, hreplanning⟩ := requestNewPlan_keeps v p
      dsimp only
      apply turn_fair (.planning hdata hplan)
      · intro hp
        rw [hreplanning] at hp
        rw [hdata, hplan]
        exact h hp
      · intro x hx hcurrent
        obtain ⟨m, hm, rfl⟩ := Option.map_eq_some_iff.mp hx
        have hsome : executing.maneuver.isSome = true := by rw [hm, Option.isSome_some]
        have hconsent := hconsents hcurrent p rfl (not_lt.mp hintime) hsome
        change Consented received (p.requestNewPlan v).1.rampMeterData (p.requestNewPlan v).1.planId
        rw [hdata, hplan]
        exact hconsent
  | execution e =>
    change Fair received current _ (e.loop cfg v executing.maneuver.isSome)
    unfold ExecutionState.loop
    have hsame : ∀ executing : Bool, SameTalk (.execution e)
        (.execution { e with executingMergeManeuver := executing }) :=
      fun _ => .execution rfl rfl
    split
    · dsimp only
      split
      · exact leaves_fair (hsame true) h _
      · exact stays_fair (hsame true) h _
    · split
      · exact leaves_fair (hsame false) h []
      · exact idle_fair h

variable [LinearOrder K]

theorem planTrajectory_fair (cfg : Settings K F) (v : Vehicle K) (traj : Trajectory K)
    {self : ICooperativeMergeState K} (h : Sound received self) :
    Fair received current self (planTrajectory cfg v traj self) := by
  cases self with
  | standby _ => exact idle_fair h
  | planning p =>
    change Fair received current _ (p.planTrajectory cfg v traj)
    unfold PlanningState.planTrajectory
    have hgiveUp : Fair received current (.planning p)
        (idle (.planning { p with replanningForMerge := false })) := by
      apply settles_fair
      · exact .planning rfl rfl
      · intro hp
        cases hp
    split
    · exact hgiveUp
    · split
      · exact idle_fair h
      · rename_i hreplanning
        have hconsent := h (not_not.mp hreplanning)
        dsimp only
        split
        · exact hgiveUp
        · split
          · exact hgiveUp
          · split
            · exact stays_fair (.refl _) h _
            · split
              · exact stays_fair (.refl _) h _
              · split
                · exact idle_fair h
                · unfold plant
                  split
                  · exact idle_fair h
                  · dsimp only
                    split
                    · exact ⟨.refl _, h, by simp [idle], fun _ => ⟨p, rfl, hconsent⟩,
                        by simp [idle]⟩
                    · exact idle_fair h
  | execution e =>
    change Fair received current _ (e.planTrajectory traj)
    unfold ExecutionState.planTrajectory
    split
    · exact leaves_fair (.refl _) h []
    · exact idle_fair h

variable [FloorRing K]

theorem newPlanningState_waits {cfg : Settings K F} {v : Vehicle K} {data : RampMeterData K}
    {planId : String} {p : PlanningState K} {request : Output K}
    (h : newPlanningState cfg v data planId = some (p, request)) : p.replanningForMerge = false := by
  obtain ⟨_, _, h⟩ := Option.bind_eq_some_iff.mp h
  obtain ⟨rfl, _⟩ := Prod.mk.inj (Option.some.inj h)
  rfl

theorem onMobilityRequestMessage_fair (cfg : Settings K F) (v : Vehicle K) (planId : String)
    (msg : MobilityRequest K) {self : ICooperativeMergeState K} (h : Sound received self) :
    Fair received current self (onMobilityRequestMessage cfg v planId msg self) := by
  cases self with
  | standby rampMeters =>
    change Fair received current _ (standbyOnRequest cfg v planId rampMeters msg)
    unfold standbyOnRequest
    have hkept : ∀ after : List (RampMeterData K),
        Fair received current (.standby rampMeters) (idle (.standby after)) := by
      intro after
      exact settles_fair (.standby _ _) trivial
    split
    · exact hkept _
    · exact hkept _
    · split
      · exact hkept _
      · split
        · split
          · exact hkept _
          · rename_i p request hnew
            apply turn_fair (.standby _ _) trivial
            intro x hx _
            obtain rfl := Option.some.inj hx
            intro hreplanning
            rw [newPlanningState_waits hnew] at hreplanning
            cases hreplanning
        · exact hkept _
  | planning p => exact idle_fair h
  | execution e => exact idle_fair h

/-! ## The plugin -/

namespace CooperativeMergePlugin

omit [LinearOrder K] [Field K] [FloorRing K]

/-- What holds as long as nobody finds a leftover. -/
structure Inv (s : CooperativeMergePlugin K) : Prop where
  nonempty : s.history ≠ []
  history : ∀ x ∈ s.history, Sound s.received x
  calling : ∀ c ∈ s.pending, c.1 < s.history.length
  pending : ∀ c ∈ s.pending, c.1 + 1 = s.history.length → Sound s.received c.2
  planted : ∀ m ∈ s.planted, ∃ p, s.history[m.plannedBy]? = some (.planning p) ∧
    Consented s.received p.rampMeterData p.planId
  executing : ∀ m, s.executing = .merge m → m ∈ s.planted
  commands : ∀ c ∈ s.commands, ∃ e, s.history[c.givenBy]? = some (.execution e) ∧
    c.senderId = e.rampMeterData.rsuId ∧ c.planId = e.planId

theorem newPlugin_inv : Inv (newPlugin : CooperativeMergePlugin K) where
  nonempty := List.cons_ne_nil _ _
  history := by
    intro x hx
    rw [List.mem_singleton.mp hx]
    trivial
  calling := by simp [newPlugin]
  pending := by simp [newPlugin]
  planted := by simp [newPlugin]
  executing := by simp [newPlugin]
  commands := by simp [newPlugin]

theorem on_of_some {s : CooperativeMergePlugin K} {state : ℕ} {self : ICooperativeMergeState K}
    (h : s.history[state]? = some self) (method : ICooperativeMergeState K → Outcome K) :
    s.on state method =
      { s with
        history := s.history.set state (method self).self
        pending := s.pending ++ ((method self).newState.map fun new => (state, new)).toList
        planted := s.planted ++ ((method self).planted.map fun m => ⟨m, state⟩).toList
        commands := s.commands ++
          ((method self).command.map fun c => ⟨state, c.1.senderId, c.1.planId, c.2⟩).toList
        log := s.log ++ (method self).out } := by
  unfold on
  rw [h]

theorem on_hears (s : CooperativeMergePlugin K) (state : ℕ)
    (method : ICooperativeMergeState K → Outcome K) (received : List MobilityResponse) :
    { s.on state method with received := received } =
      { s with received := received }.on state method := by
  cases hself : s.history[state]? with
  | none =>
    unfold on
    rw [hself]
  | some self => rw [on_of_some hself, on_of_some (s := { s with received := received }) hself]

theorem set_talk {history : List (ICooperativeMergeState K)} {state : ℕ}
    {self after : ICooperativeMergeState K} (hself : history[state]? = some self)
    (hsame : SameTalk self after) {i : ℕ} {x : ICooperativeMergeState K}
    (hx : history[i]? = some x) : ∃ y, (history.set state after)[i]? = some y ∧ SameTalk x y := by
  by_cases hi : state = i
  · subst hi
    rw [hself] at hx
    obtain rfl := Option.some.inj hx
    have hlt := (List.getElem?_eq_some_iff.mp hself).1
    exact ⟨after, List.getElem?_set_self hlt, hsame⟩
  · exact ⟨x, by rw [List.getElem?_set_ne hi, hx], .refl x⟩

/-- A state that planned with consent is still there when a method of some state has run. -/
theorem set_planning {history : List (ICooperativeMergeState K)} {state : ℕ}
    {self after : ICooperativeMergeState K} (hself : history[state]? = some self)
    (hsame : SameTalk self after) {received : List MobilityResponse} {i : ℕ}
    {p : PlanningState K} (hp : history[i]? = some (.planning p))
    (hconsent : Consented received p.rampMeterData p.planId) :
    ∃ q, (history.set state after)[i]? = some (.planning q) ∧
      Consented received q.rampMeterData q.planId := by
  obtain ⟨y, hy, htalk⟩ := set_talk hself hsame hp
  cases htalk with
  | @planning _ q hdata hplan =>
    refine ⟨q, hy, ?_⟩
    rw [hdata, hplan]
    exact hconsent

/-- A state that gave a command is still there when a method of some state has run. -/
theorem set_execution {history : List (ICooperativeMergeState K)} {state : ℕ}
    {self after : ICooperativeMergeState K} (hself : history[state]? = some self)
    (hsame : SameTalk self after) {i : ℕ} {e : ExecutionState K}
    (he : history[i]? = some (.execution e)) :
    ∃ f, (history.set state after)[i]? = some (.execution f) ∧
      f.rampMeterData = e.rampMeterData ∧ f.planId = e.planId := by
  obtain ⟨y, hy, htalk⟩ := set_talk hself hsame he
  cases htalk with
  | @execution _ f hdata hplan => exact ⟨f, hy, hdata, hplan⟩

/-- The step lemma of the methods. -/
theorem Inv.on {s : CooperativeMergePlugin K} (h : Inv s) {state : ℕ}
    {method : ICooperativeMergeState K → Outcome K}
    (hfair : ∀ self, s.history[state]? = some self → Sound s.received self →
      Fair s.received (state + 1 = s.history.length) self (method self)) :
    Inv (s.on state method) := by
  cases hself : s.history[state]? with
  | none =>
    unfold CooperativeMergePlugin.on
    rw [hself]
    exact h
  | some self =>
    obtain ⟨hsame, hsound, hnew, hplanted, hcommand⟩ :=
      hfair self hself (h.history self (List.mem_of_getElem? hself))
    have hlt := (List.getElem?_eq_some_iff.mp hself).1
    rw [on_of_some hself]
    constructor
    case nonempty => simpa using h.nonempty
    case history =>
      intro x hx
      rcases List.mem_or_eq_of_mem_set hx with hx | rfl
      · exact h.history x hx
      · exact hsound
    case calling =>
      intro c hc
      dsimp only at hc ⊢
      rw [List.length_set]
      rcases List.mem_append.mp hc with hc | hc
      · exact h.calling c hc
      · obtain ⟨new, _, rfl⟩ := Option.map_eq_some_iff.mp (Option.mem_toList.mp hc)
        exact hlt
    case pending =>
      intro c hc hcurrent
      dsimp only at hc hcurrent ⊢
      rw [List.length_set] at hcurrent
      rcases List.mem_append.mp hc with hc | hc
      · exact h.pending c hc hcurrent
      · obtain ⟨new, hnewState, rfl⟩ := Option.map_eq_some_iff.mp (Option.mem_toList.mp hc)
        exact hnew new hnewState hcurrent
    case planted =>
      intro m hm
      rcases List.mem_append.mp hm with hm | hm
      · obtain ⟨p, hp, hconsent⟩ := h.planted m hm
        exact set_planning hself hsame hp hconsent
      · obtain ⟨new, hnewPlanted, rfl⟩ := Option.map_eq_some_iff.mp (Option.mem_toList.mp hm)
        obtain ⟨p, rfl, hconsent⟩ := hplanted (Option.isSome_of_mem hnewPlanted)
        exact set_planning hself hsame hself hconsent
    case executing =>
      intro m hm
      exact List.mem_append_left _ (h.executing m hm)
    case commands =>
      intro c hc
      have hold : ∃ e, s.history[c.givenBy]? = some (.execution e) ∧
          c.senderId = e.rampMeterData.rsuId ∧ c.planId = e.planId := by
        rcases List.mem_append.mp hc with hc | hc
        · exact h.commands c hc
        · obtain ⟨new, hnewCommand, rfl⟩ := Option.map_eq_some_iff.mp (Option.mem_toList.mp hc)
          obtain ⟨e, rfl, habout⟩ := hcommand new hnewCommand
          exact ⟨e, hself, habout⟩
      obtain ⟨e, he, habout⟩ := hold
      obtain ⟨f, hf, hdata, hplan⟩ := set_execution hself hsame he
      rw [← hdata, ← hplan] at habout
      exact ⟨f, hf, habout⟩

theorem Inv.hears {s : CooperativeMergePlugin K} (h : Inv s) (msg : MobilityResponse) :
    Inv { s with received := s.received ++ [msg] } where
  nonempty := h.nonempty
  history := fun x hx => (h.history x hx).mono (List.subset_append_left _ _)
  calling := h.calling
  pending := fun c hc hcurrent => (h.pending c hc hcurrent).mono (List.subset_append_left _ _)
  planted := by
    intro m hm
    obtain ⟨p, hp, hconsent⟩ := h.planted m hm
    exact ⟨p, hp, hconsent.mono (List.subset_append_left _ _)⟩
  executing := h.executing
  commands := h.commands

theorem history_stays {history : List (ICooperativeMergeState K)} {i : ℕ}
    {x : ICooperativeMergeState K} (h : history[i]? = some x)
    (more : List (ICooperativeMergeState K)) : (history ++ more)[i]? = some x := by
  rw [List.getElem?_append_left (List.getElem?_eq_some_iff.mp h).1, h]

/-- The step lemma of `setState`. -/
theorem Inv.compareAndSet {s : CooperativeMergePlugin K} (h : Inv s) (i : ℕ) :
    Inv (s.compareAndSet i) := by
  unfold CooperativeMergePlugin.compareAndSet
  cases hpending : s.pending[i]? with
  | none => exact h
  | some call =>
    obtain ⟨callingState, new⟩ := call
    have hmem := List.mem_of_getElem? hpending
    have hrest : ∀ c ∈ s.pending.eraseIdx i, c ∈ s.pending := fun c hc => List.mem_of_mem_eraseIdx hc
    dsimp only
    by_cases hcurrent : callingState + 1 = s.history.length
    · rw [if_pos hcurrent]
      constructor
      case nonempty => simp
      case history =>
        intro x hx
        rcases List.mem_append.mp hx with hx | hx
        · exact h.history x hx
        · rw [List.mem_singleton.mp hx]
          exact h.pending _ hmem hcurrent
      case calling =>
        intro c hc
        have hlt := h.calling c (hrest c hc)
        simp only [List.length_append, List.length_singleton]
        omega
      case pending =>
        -- who called before is not in the current state any more
        intro c hc hlast
        have hlt := h.calling c (hrest c hc)
        simp only [List.length_append, List.length_singleton] at hlast
        omega
      case planted =>
        intro m hm
        obtain ⟨p, hp, hconsent⟩ := h.planted m hm
        exact ⟨p, history_stays hp _, hconsent⟩
      case executing => exact h.executing
      case commands =>
        intro c hc
        obtain ⟨e, he, habout⟩ := h.commands c hc
        exact ⟨e, history_stays he _, habout⟩
    · rw [if_neg hcurrent]
      exact ⟨h.nonempty, h.history, fun c hc => h.calling c (hrest c hc),
        fun c hc => h.pending c (hrest c hc), h.planted, h.executing, h.commands⟩

/-- A planning state that the plugin is in, that is not out of time and that has no
consent yet, does not find a maneuver of another state executed in its loop. -/
def FindsNoLeftover (cfg : Settings K F) (s : CooperativeMergePlugin K) : Call K → Prop
  | .loop state v => ∀ p m, state + 1 = s.history.length →
      s.history[state]? = some (.planning p) →
      v.currentTimeMillis - p.requestTime ≤ cfg.commsTimeoutMS →
      ¬ Consented s.received p.rampMeterData p.planId →
      s.executing = .merge m → m.plannedBy = state
  | _ => True

/-- A roadside unit controls the vehicle only with consent: each execution state that
was entered is about a plan that its unit accepted, and each command came from the unit
of the execution state that passed it on, for its plan. -/
structure ControlledByConsent (s : CooperativeMergePlugin K) : Prop where
  entered : ∀ e, .execution e ∈ s.history → Consented s.received e.rampMeterData e.planId
  commanded : ∀ c ∈ s.commands, ∃ e, s.history[c.givenBy]? = some (.execution e) ∧
    c.senderId = e.rampMeterData.rsuId ∧ c.planId = e.planId

variable [LinearOrder K] [Field K] [FloorRing K]

/-- The step lemma. -/
theorem step_inv (cfg : Settings K F) (s : CooperativeMergePlugin K) (call : Call K) (h : Inv s)
    (hok : FindsNoLeftover cfg s call) : Inv (s.step cfg call) := by
  cases call with
  | onResume =>
    refine ⟨h.nonempty, h.history, ?_, ?_, h.planted, h.executing, h.commands⟩
    · intro c hc
      rcases List.mem_append.mp hc with hc | hc
      · exact h.calling c hc
      · rw [List.mem_singleton.mp hc]
        have hpos := List.length_pos_iff.mpr h.nonempty
        change s.history.length - 1 < s.history.length
        omega
    · intro c hc hcurrent
      rcases List.mem_append.mp hc with hc | hc
      · exact h.pending c hc hcurrent
      · rw [List.mem_singleton.mp hc]
        trivial
  | request state v planId msg =>
    exact h.on fun self _ hsound => onMobilityRequestMessage_fair cfg v planId msg hsound
  | response state v msg =>
    change Inv { s.on state (onMobilityResponseMessage v msg) with
      received := s.received ++ [msg] }
    rw [on_hears]
    exact (h.hears msg).on fun self _ hsound =>
      onMobilityResponseMessage_fair v (List.mem_append_right _ (List.mem_singleton_self _)) hsound
  | operation state v msg =>
    exact h.on fun self _ hsound => onMobilityOperationMessage_fair v msg hsound
  | planTrajectory state v traj =>
    exact h.on fun self _ hsound => planTrajectory_fair cfg v traj hsound
  | loop state v =>
    apply h.on
    intro self hself hsound
    apply loop_fair cfg v s.executing hsound
    rintro hcurrent p rfl hintime hexecuting
    -- the maneuver was planned by this state, so it had consent already
    by_contra hnone
    cases hm : s.executing with
    | none => rw [hm] at hexecuting; cases hexecuting
    | other => rw [hm] at hexecuting; cases hexecuting
    | merge m =>
      have hown := hok p m hcurrent hself hintime hnone hm
      obtain ⟨q, hq, hconsent⟩ := h.planted m (h.executing m hm)
      rw [hown, hself] at hq
      obtain rfl : p = q := by simpa using hq
      exact hnone hconsent
  | compareAndSet i => exact h.compareAndSet i
  | execute i =>
    cases hm : s.planted[i]? with
    | none =>
      have hstep : s.step cfg (.execute i) = s := by simp [step, hm]
      rw [hstep]
      exact h
    | some m =>
      have hstep : s.step cfg (.execute i) = { s with executing := .merge m } := by
        simp [step, hm]
      rw [hstep]
      refine ⟨h.nonempty, h.history, h.calling, h.pending, h.planted, ?_, h.commands⟩
      intro n hn
      obtain rfl : m = n := by simpa using hn
      exact List.mem_of_getElem? hm
  | executeOther =>
    exact ⟨h.nonempty, h.history, h.calling, h.pending, h.planted, by simp [step], h.commands⟩
  | finish =>
    exact ⟨h.nonempty, h.history, h.calling, h.pending, h.planted, by simp [step], h.commands⟩

/-- In every run in which no planning state finds a leftover of another state, a roadside
unit controls the vehicle only with consent. -/
theorem a_unit_controls_with_consent_where_no_leftover_is_found (cfg : Settings K F)
    (calls : List (Call K)) (h : EachCall (step cfg) (FindsNoLeftover cfg) newPlugin calls) :
    ∀ s ∈ states (step cfg) newPlugin calls, ControlledByConsent s := by
  intro s hs
  have hinv := states_of_keeps (I := Inv) (step_inv cfg) newPlugin_inv h s hs
  exact ⟨fun e he => hinv.history _ he, hinv.commands⟩

end CooperativeMergePlugin

/-! ## Two roadside units -/

/-- The roadside unit and the plan of an execution state. -/
def ICooperativeMergeState.control : ICooperativeMergeState K → Option (String × String)
  | .execution e => some (e.rampMeterData.rsuId, e.planId)
  | _ => none

/-- The place of the state that planned the maneuver that is executed. -/
def Executing.plannedBy : Executing K → Option ℕ
  | .merge m => some m.plannedBy
  | _ => Option.none

/-- A vehicle on a flat road. -/
def onFlatRoad : Settings ℚ ℚ where
  vehicleId := "car"
  maxAccel := 5 / 2
  lagTime := 1 / 10
  minimumManeuverLength := 10
  commsTimeoutMS := 500
  converter := path_messages.flatRoad

/-- The vehicle stands twenty meters before the meter. -/
def beforeTheMeter : Vehicle ℚ where
  currentTimeMillis := 0
  currentDTD := 80
  currentCrosstrack := 0
  currentSegmentDTD := 80
  currentSegmentIdx := 0
  currentSpeed := 0
  currentLane := 0
  maxAccelLimit := 2
  isAlgorithmEnabledInRange _ _ := true
  lastSpeedLimitInRange _ _ := some 20

def headerFrom (senderId planId : String) : MobilityHeader := ⟨senderId, "car", "", planId, 0⟩

/-- A roadside unit tells about its meter, a hundred meters down the road. -/
def infoFrom (rsuId : String) : MobilityRequest ℚ where
  header := headerFrom rsuId ""
  params := .numbers ⟨50, 100, 50⟩
  location := ⟨10000, 0, 0, 0⟩

def answerFrom (rsuId planId : String) (isAccepted : Bool) : MobilityResponse :=
  ⟨headerFrom rsuId planId, isAccepted⟩

def commandFrom (rsuId planId : String) : MobilityOperation ℚ where
  header := headerFrom rsuId planId
  params := .numbers ⟨.fin 5, .fin 1, .fin 0⟩

/-- The unit `A` accepts, a maneuver is planned and executed, and `A` commands. -/
def mergeWithA : List (Call ℚ) :=
  [.request 0 beforeTheMeter "plan A" (infoFrom "A"), .compareAndSet 0,
    .response 1 beforeTheMeter (answerFrom "A" "plan A" true),
    .planTrajectory 1 beforeTheMeter (newTrajectory 80 400), .execute 0,
    .loop 1 beforeTheMeter, .compareAndSet 0,
    .operation 2 beforeTheMeter (commandFrom "A" "plan A")]

/-- `A` withdraws, and the vehicle hears of `B` before it has a new trajectory. -/
def thenHearOfB : List (Call ℚ) :=
  [.response 2 beforeTheMeter (answerFrom "A" "plan A" false), .compareAndSet 0,
    .request 3 beforeTheMeter "plan B" (infoFrom "B"), .compareAndSet 0,
    .loop 4 beforeTheMeter, .compareAndSet 0,
    .operation 5 beforeTheMeter (commandFrom "B" "plan B")]

open CooperativeMergePlugin

theorem a_merge_with_consent :
    ControlledByConsent (run (step onFlatRoad) newPlugin mergeWithA) := by
  refine a_unit_controls_with_consent_where_no_leftover_is_found _ mergeWithA ?_ _
    (run_mem_states _ _ _)
  refine ⟨trivial, trivial, trivial, trivial, trivial, ?_, trivial, trivial, trivial⟩
  intro p m _ _ _ _ hm
  have hown : (run (step onFlatRoad) newPlugin (mergeWithA.take 5)).executing.plannedBy =
      some 1 := by decide +kernel
  have hrun : (run (step onFlatRoad) newPlugin (mergeWithA.take 5)).executing = .merge m := hm
  rw [hrun] at hown
  exact Option.some.inj hown

/-- `B` never accepted anything, and controls the vehicle by the maneuver of `A`. -/
theorem a_leftover_gives_control_without_consent :
    ((run (step onFlatRoad) newPlugin (mergeWithA ++ thenHearOfB)).commands.map fun c =>
        (c.senderId, c.planId)) = [("A", "plan A"), ("B", "plan B")] ∧
      ¬ ControlledByConsent (run (step onFlatRoad) newPlugin (mergeWithA ++ thenHearOfB)) := by
  refine ⟨by decide +kernel, ?_⟩
  intro h
  have hcontrol : ("B", "plan B") ∈ (run (step onFlatRoad) newPlugin
      (mergeWithA ++ thenHearOfB)).history.filterMap ICooperativeMergeState.control := by
    decide +kernel
  have hreceived : ∀ msg ∈ (run (step onFlatRoad) newPlugin
      (mergeWithA ++ thenHearOfB)).received, msg.header.senderId = "A" := by
    decide +kernel
  obtain ⟨x, hx, hids⟩ := List.mem_filterMap.mp hcontrol
  cases x with
  | standby _ => cases hids
  | planning _ => cases hids
  | execution e =>
    obtain ⟨msg, hmsg, ⟨hsender, _⟩, _⟩ := h.entered e hx
    obtain ⟨hrsu, _⟩ := Prod.mk.inj (Option.some.inj hids)
    rw [hreceived msg hmsg, hrsu] at hsender
    exact absurd hsender (by decide)

end carma.cooperative_merge
