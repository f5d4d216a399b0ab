-- The answers to a request: the vehicle answers at most once, and does not keep a
-- path that it refused, just when one thread at most has something to say.
import Carma.MobilityRouter
import Carma.PathErrors

open lib.interleavings
open carma.conflict_manager

namespace carma.mobility_router

variable {K F H : Type}

/-! ## What was done -/

/-- The response that is published, if one is. -/
def Effect.response : Effect K → Option MobilityResponse
  | .publish response => some response
  | _ => none

/-- The responses that were published, the first one first. -/
def responses (done : List (Effect K)) : List MobilityResponse := done.filterMap Effect.response

def Effect.isAdd : Effect K → Bool
  | .addRequestedPath _ _ _ => true
  | _ => false

/-- At most one response went out, and the path is not kept if that refused it. -/
structure AnsweredOnce (done : List (Effect K)) : Prop where
  once : (responses done).length ≤ 1
  refused_not_added : (∃ a ∈ responses done, a.isAccepted = false) → ∀ e ∈ done, e.isAdd = false

theorem AnsweredOnce.of_prefix {done trace : List (Effect K)} (h : done <+: trace)
    (hall : AnsweredOnce trace) : AnsweredOnce done := by
  have hsub : (responses done).Sublist (responses trace) := h.sublist.filterMap _
  refine ⟨hsub.length_le.trans hall.once, ?_⟩
  rintro ⟨a, ha, hrefused⟩ e he
  exact hall.refused_not_added ⟨a, hsub.subset ha, hrefused⟩ e (h.subset he)

theorem mem_responses {done : List (Effect K)} {a : MobilityResponse} :
    a ∈ responses done ↔ Effect.publish a ∈ done := by
  unfold responses
  rw [List.mem_filterMap]
  constructor
  · rintro ⟨e, he, ha⟩
    cases e with
    | publish b =>
      obtain rfl := Option.some.inj ha
      exact he
    | addRequestedPath _ _ _ => cases ha
    | requestNewPlan _ => cases ha
  · intro h
    exact ⟨_, h, rfl⟩

/-! ## What a thread will do -/

variable [LinearOrder K] [Field K] [FloorRing K]

/-- The handler accepts the request, and its path can be kept. -/
def accepts (r : MobilityRouter K F H) (msg : MobilityRequest)
    (t : Callback K H × Surroundings K H) : Bool :=
  decide (t.2.handle t.1.handler msg t.1.hasConflict t.1.conflictSpace = some .ACK) &&
    (addPathOf r msg t.2).isSome

/-- The handler refuses the request. -/
def refuses (msg : MobilityRequest) (t : Callback K H × Surroundings K H) : Bool :=
  decide (t.2.handle t.1.handler msg t.1.hasConflict t.1.conflictSpace = some .NACK)

/-- The handler does not respond to a broadcast, and its path is kept. -/
def keepsQuietly (r : MobilityRouter K F H) (msg : MobilityRequest)
    (t : Callback K H × Surroundings K H) : Bool :=
  decide (t.2.handle t.1.handler msg t.1.hasConflict t.1.conflictSpace = some .NO_RESPONSE) &&
    (isBroadcast msg.header && (addPathOf r msg t.2).isSome)

/-- The path goes beyond the end of the trajectory, and it can be kept. -/
def goesBeyond (r : MobilityRouter K F H) (msg : MobilityRequest) (otherPath : List (PathPoint K))
    (s : Surroundings K H) : Bool :=
  decide (∃ currentTrajEnd ∈ s.totalTrajectoryEnd, ∃ last ∈ otherPath.getLast?,
    last.downtrack > currentTrajEnd ∧ otherPath.length > 1) && (addPathOf r msg s).isSome

theorem addPathOf_spec {r : MobilityRouter K F H} {msg : MobilityRequest} {s : Surroundings K H}
    {e : Effect K} (h : addPathOf r msg s = some e) : e.isAdd = true ∧ e.response = none := by
  obtain ⟨path, _, h⟩ := Option.bind_eq_some_iff.mp h
  obtain ⟨_, _, h⟩ := Option.bind_eq_some_iff.mp h
  obtain rfl := Option.some.inj h
  exact ⟨rfl, rfl⟩

/-- What a thread can have done about a request. -/
inductive Did (done : List (Effect K)) : Bool → Bool → Bool → Prop
  | nothing (hresponses : responses done = []) (hadds : ∀ e ∈ done, e.isAdd = false) :
      Did done false false false
  | accepted (a : MobilityResponse) (hresponses : responses done = [a])
      (haccepted : a.isAccepted = true) (hadds : ∃ e ∈ done, e.isAdd = true) :
      Did done true false false
  | refused (a : MobilityResponse) (hresponses : responses done = [a])
      (hrefused : a.isAccepted = false) (hadds : ∀ e ∈ done, e.isAdd = false) :
      Did done false true false
  | kept (hresponses : responses done = []) (hadds : ∃ e ∈ done, e.isAdd = true) :
      Did done false false true

/-- The thread of a handler does what the answer of the handler says. -/
theorem fireMobilityRequestCallback_did (r : MobilityRouter K F H) (msg : MobilityRequest)
    (t : Callback K H × Surroundings K H) :
    Did (fireMobilityRequestCallback r msg t.1 t.2) (accepts r msg t) (refuses msg t)
      (keepsQuietly r msg t) := by
  unfold fireMobilityRequestCallback accepts refuses keepsQuietly
  cases t.2.handle t.1.handler msg t.1.hasConflict t.1.conflictSpace with
  | none => exact .nothing rfl (by simp)
  | some answer =>
    cases answer with
    | ACK =>
      cases hadd : addPathOf r msg t.2 with
      | none => exact .nothing rfl (by simp)
      | some e =>
        obtain ⟨hisAdd, hresponse⟩ := addPathOf_spec hadd
        refine .accepted (respMsg r.hostMobilityStaticId msg t.2 true) ?_ rfl ?_
        · rw [responses, List.filterMap_cons_none hresponse]
          rfl
        · exact ⟨e, List.mem_cons_self .., hisAdd⟩
    | NACK =>
      refine .refused (respMsg r.hostMobilityStaticId msg t.2 false) rfl rfl ?_
      intro e he
      rw [List.mem_singleton.mp he]
      rfl
    | NO_RESPONSE =>
      by_cases hbroadcast : isBroadcast msg.header = true
      · cases hadd : addPathOf r msg t.2 with
        | none =>
          simp only [hbroadcast]
          exact .nothing rfl (by simp)
        | some e =>
          obtain ⟨hisAdd, hresponse⟩ := addPathOf_spec hadd
          simp only [hbroadcast]
          refine .kept ?_ ?_
          · simp [responses, hresponse]
          · exact ⟨e, List.mem_cons_self .., hisAdd⟩
      · simp only [hbroadcast]
        exact .nothing rfl (by simp)

theorem extendPlan_did (r : MobilityRouter K F H) (msg : MobilityRequest)
    (otherPath : List (PathPoint K)) (s : Surroundings K H) :
    Did (extendPlan r msg otherPath s) (goesBeyond r msg otherPath s) false false := by
  unfold extendPlan goesBeyond
  cases s.totalTrajectoryEnd with
  | none => exact .nothing rfl (by simp)
  | some currentTrajEnd =>
    cases otherPath.getLast? with
    | none => exact .nothing rfl (by simp)
    | some last =>
      dsimp only
      by_cases hbeyond : last.downtrack > currentTrajEnd ∧ otherPath.length > 1
      · rw [if_pos hbeyond]
        cases hadd : addPathOf r msg s with
        | none =>
          rw [Option.isSome_none, Bool.and_false]
          exact .nothing rfl (by simp)
        | some e =>
          obtain ⟨hisAdd, hresponse⟩ := addPathOf_spec hadd
          have hdecide : decide (∃ c ∈ some currentTrajEnd, ∃ l ∈ some last,
              l.downtrack > c ∧ otherPath.length > 1) = true :=
            decide_eq_true ⟨_, rfl, _, rfl, hbeyond⟩
          rw [hdecide]
          refine .accepted (respMsg r.hostMobilityStaticId msg s true) ?_ rfl ?_
          · rw [responses, List.filterMap_cons_none hresponse]
            rfl
          · exact ⟨e, List.mem_cons_self .., hisAdd⟩
      · rw [if_neg hbeyond]
        have hdecide : decide (∃ c ∈ some currentTrajEnd, ∃ l ∈ some last,
            l.downtrack > c ∧ otherPath.length > 1) = false := by
          apply decide_eq_false
          rintro ⟨c, hc, l, hl, h⟩
          obtain rfl := Option.some.inj hc
          obtain rfl := Option.some.inj hl
          exact hbeyond h
        rw [hdecide]
        exact .nothing rfl (by simp)

/-! ## All threads together -/

section together

omit [LinearOrder K] [Field K] [FloorRing K]

variable {done : List (Effect K)} {accepted refused kept : Bool}

theorem Did.length (h : Did done accepted refused kept) :
    (responses done).length = if accepted || refused then 1 else 0 := by
  cases h with
  | nothing hresponses _ => simp [hresponses]
  | accepted a hresponses _ _ => simp [hresponses]
  | refused a hresponses _ _ => simp [hresponses]
  | kept hresponses _ => simp [hresponses]

theorem Did.refused_iff (h : Did done accepted refused kept) :
    (∃ a ∈ responses done, a.isAccepted = false) ↔ refused = true := by
  cases h with
  | nothing hresponses _ => simp [hresponses]
  | accepted a hresponses haccepted _ => simp [hresponses, haccepted]
  | refused a hresponses hrefused _ => simp [hresponses, hrefused]
  | kept hresponses _ => simp [hresponses]

theorem Did.adds_iff (h : Did done accepted refused kept) :
    (∃ e ∈ done, e.isAdd = true) ↔ accepted = true ∨ kept = true := by
  cases h with
  | nothing _ hadds => simpa using hadds
  | accepted a _ _ hadds => simpa using hadds
  | refused a _ _ hadds => simpa using hadds
  | kept _ hadds => simpa using hadds

theorem responses_length {threads : List (List (Effect K))} {trace : List (Effect K)}
    (h : Interleaving threads trace) :
    (responses trace).length = (threads.map fun t => (responses t).length).sum := by
  unfold responses
  simp only [List.length_filterMap_eq_countP]
  exact h.countP_eq _

theorem exists_response_iff {threads : List (List (Effect K))} {trace : List (Effect K)}
    (h : Interleaving threads trace) (p : MobilityResponse → Prop) :
    (∃ a ∈ responses trace, p a) ↔ ∃ t ∈ threads, ∃ a ∈ responses t, p a := by
  simp only [mem_responses, h.mem_iff]
  constructor
  · rintro ⟨a, ⟨t, ht, ha⟩, hp⟩
    exact ⟨t, ht, a, ha, hp⟩
  · rintro ⟨t, ht, a, ha, hp⟩
    exact ⟨a, ⟨t, ht, ha⟩, hp⟩

theorem exists_effect_iff {threads : List (List (Effect K))} {trace : List (Effect K)}
    (h : Interleaving threads trace) (p : Effect K → Prop) :
    (∃ e ∈ trace, p e) ↔ ∃ t ∈ threads, ∃ e ∈ t, p e := by
  simp only [h.mem_iff]
  constructor
  · rintro ⟨e, ⟨t, ht, he⟩, hp⟩
    exact ⟨t, ht, e, he, hp⟩
  · rintro ⟨t, ht, e, he, hp⟩
    exact ⟨e, ⟨t, ht, he⟩, hp⟩

end together

/-- Where at most one of a list is counted, two that are counted are the same. -/
theorem eq_of_countP_le_one {α : Type} {p : α → Bool} {l : List α} (h : l.countP p ≤ 1) {a b : α}
    (ha : a ∈ l) (hb : b ∈ l) (hpa : p a = true) (hpb : p b = true) : a = b := by
  have ha' := List.mem_filter.mpr ⟨ha, hpa⟩
  have hb' := List.mem_filter.mpr ⟨hb, hpb⟩
  rw [List.countP_eq_length_filter] at h
  match hl : l.filter p with
  | [] => rw [hl] at ha'; cases ha'
  | [c] =>
    rw [hl] at ha' hb'
    rw [List.mem_singleton.mp ha', List.mem_singleton.mp hb']
  | c :: d :: rest =>
    rw [hl] at h
    simp at h

/-- The handler responds to the request. -/
def responds (r : MobilityRouter K F H) (msg : MobilityRequest)
    (t : Callback K H × Surroundings K H) : Bool := accepts r msg t || refuses msg t

/-- How many threads respond: the one that takes the message, and those of handlers. -/
def speakers (r : MobilityRouter K F H) (msg : MobilityRequest) (otherPath : List (PathPoint K))
    (atTheEnd : Surroundings K H) (ts : List (Callback K H × Surroundings K H)) : ℕ :=
  (if goesBeyond r msg otherPath atTheEnd then 1 else 0) + ts.countP (responds r msg)

/-- One thread at most responds, and if it refuses no handler keeps the path quietly. -/
def OneSpeaks (r : MobilityRouter K F H) (msg : MobilityRequest) (found : Reading K H) : Prop :=
  ∀ otherPath conflictSpace, analyse r msg found.onArrival = some (otherPath, conflictSpace) →
    speakers r msg otherPath found.atTheEnd
        (tasks (callbacks r msg conflictSpace) found.ofTask) ≤ 1 ∧
      ((∃ t ∈ tasks (callbacks r msg conflictSpace) found.ofTask, refuses msg t = true) →
        ∀ t ∈ tasks (callbacks r msg conflictSpace) found.ofTask, keepsQuietly r msg t = false)

theorem not_accepts_of_refuses {r : MobilityRouter K F H} {msg : MobilityRequest}
    {t : Callback K H × Surroundings K H} (h : refuses msg t = true) : accepts r msg t = false := by
  unfold accepts
  rw [of_decide_eq_true h]
  rfl

/-- What is in the trace of a request, by what its threads will do. -/
theorem trace_spec (r : MobilityRouter K F H) (msg : MobilityRequest)
    (otherPath : List (PathPoint K)) (s : Surroundings K H)
    (ts : List (Callback K H × Surroundings K H)) {trace : List (Effect K)}
    (h : Interleaving (extendPlan r msg otherPath s ::
      ts.map fun t => fireMobilityRequestCallback r msg t.1 t.2) trace) :
    (responses trace).length = speakers r msg otherPath s ts ∧
      ((∃ a ∈ responses trace, a.isAccepted = false) ↔ ∃ t ∈ ts, refuses msg t = true) ∧
      ((∃ e ∈ trace, e.isAdd = true) ↔ goesBeyond r msg otherPath s = true ∨
        ∃ t ∈ ts, accepts r msg t = true ∨ keepsQuietly r msg t = true) := by
  have hextend := extendPlan_did r msg otherPath s
  have hfire := fireMobilityRequestCallback_did r msg
  refine ⟨?_, ?_, ?_⟩
  · rw [responses_length h, List.map_cons, List.sum_cons, hextend.length, Bool.or_false,
      List.map_map]
    unfold speakers
    congr 1
    clear h
    induction ts with
    | nil => rfl
    | cons t ts ih =>
      rw [List.map_cons, List.sum_cons, List.countP_cons, ih, Nat.add_comm]
      congr 1
      exact (hfire t).length
  · rw [exists_response_iff h]
    simp only [List.mem_cons, List.mem_map, exists_eq_or_imp, hextend.refused_iff,
      Bool.false_eq_true, false_or]
    constructor
    · rintro ⟨_, ⟨t, ht, rfl⟩, ha⟩
      exact ⟨t, ht, (hfire t).refused_iff.mp ha⟩
    · rintro ⟨t, ht, href⟩
      exact ⟨_, ⟨t, ht, rfl⟩, (hfire t).refused_iff.mpr href⟩
  · rw [exists_effect_iff h]
    simp only [List.mem_cons, List.mem_map, exists_eq_or_imp, hextend.adds_iff,
      Bool.false_eq_true, or_false]
    apply or_congr_right
    constructor
    · rintro ⟨_, ⟨t, ht, rfl⟩, he⟩
      exact ⟨t, ht, (hfire t).adds_iff.mp he⟩
    · rintro ⟨t, ht, hadd⟩
      exact ⟨_, ⟨t, ht, rfl⟩, (hfire t).adds_iff.mpr hadd⟩

/-- Whatever the order of the threads, a request has one answer at most at any moment,
and a path that was refused is not kept, just when one thread at most speaks. -/
theorem a_request_is_answered_once_when_one_speaks (r : MobilityRouter K F H)
    (msg : MobilityRequest) (found : Reading K H) {trace : List (Effect K)}
    (h : Interleaving (handleMobilityRequest r msg found) trace) :
    (∀ done, done <+: trace → AnsweredOnce done) ↔ OneSpeaks r msg found := by
  have hlast : (∀ done, done <+: trace → AnsweredOnce done) ↔ AnsweredOnce trace :=
    ⟨fun hall => hall trace List.prefix_rfl, fun hall done hdone => hall.of_prefix hdone⟩
  rw [hlast]
  unfold handleMobilityRequest at h
  cases hanalyse : analyse r msg found.onArrival with
  | none =>
    rw [hanalyse] at h
    have hnil : trace = [] := List.perm_nil.mp h.perm
    subst hnil
    refine iff_of_true ⟨by simp [responses], by simp⟩ ?_
    intro otherPath conflictSpace hsome
    rw [hanalyse] at hsome
    cases hsome
  | some analysed =>
    obtain ⟨otherPath, conflictSpace⟩ := analysed
    rw [hanalyse] at h
    obtain ⟨hlength, hrefused, hadds⟩ := trace_spec r msg otherPath found.atTheEnd _ h
    generalize hts : tasks (callbacks r msg conflictSpace) found.ofTask = ts at *
    constructor
    · rintro ⟨honce, hnotAdded⟩ otherPath' conflictSpace' hsome
      rw [hanalyse] at hsome
      obtain ⟨rfl, rfl⟩ := Prod.mk.inj (Option.some.inj hsome)
      rw [hts]
      refine ⟨hlength ▸ honce, ?_⟩
      intro hrefuses t ht
      by_contra hkept
      obtain ⟨e, he, hisAdd⟩ := hadds.mpr (.inr ⟨t, ht, .inr (Bool.not_eq_false _ ▸ hkept)⟩)
      rw [hnotAdded (hrefused.mpr hrefuses) e he] at hisAdd
      cases hisAdd
    · intro hone
      obtain ⟨hspeakers, hquiet⟩ := hone otherPath conflictSpace hanalyse
      rw [hts] at hspeakers hquiet
      refine ⟨hlength ▸ hspeakers, ?_⟩
      intro hrefusal e he
      obtain ⟨t, ht, hrefuses⟩ := hrefused.mp hrefusal
      have hresponds : responds r msg t = true := by
        unfold responds
        rw [hrefuses, Bool.or_true]
      have hpos : 0 < ts.countP (responds r msg) := List.countP_pos_iff.mpr ⟨t, ht, hresponds⟩
      unfold speakers at hspeakers
      by_contra hisAdd
      rcases hadds.mp ⟨e, he, Bool.not_eq_false _ ▸ hisAdd⟩ with hbeyond | ⟨u, hu, haccepts | hkept⟩
      · rw [if_pos hbeyond] at hspeakers
        omega
      · -- the one that refuses is not the one that accepts, so two respond
        have hle : ts.countP (responds r msg) ≤ 1 := by omega
        have hsame : u = t := eq_of_countP_le_one hle hu ht (by simp [responds, haccepts]) hresponds
        rw [hsame, not_accepts_of_refuses hrefuses] at haccepts
        cases haccepts
      · rw [hquiet ⟨t, ht, hrefuses⟩ u hu] at hkept
        cases hkept

/-! ## Two handlers -/

/-- Cells and margins of one meter and one second, and a flat road. -/
def roadManager : ConflictManager ℚ String :=
  newConflictManager ⟨[1, 1, 1], List.cons_ne_nil _ _, by simp⟩ ⟨1, 1, 1, 0, 0, 0⟩ ⟨[]⟩

/-- An engaged vehicle without a trajectory. The handler `true` accepts what it is
asked, and the handler `false` refuses it. -/
def engaged : Surroundings ℚ Bool where
  guidanceState := .ENGAGED
  pathPrediction := []
  totalTrajectoryEnd := none
  currentSegmentIdx := 0
  currentSegDowntrack := 0
  conflictManager := roadManager
  currentBSMId := "bsm"
  currentTimeMillis := 0
  handle handler _ _ _ := some (if handler then .ACK else .NACK)

/-- A router whose handlers are registered for a strategy and for the end of it. -/
def routerOf (handlers : List (String × Bool)) : MobilityRouter ℚ ℚ Bool where
  requestMap := handlers.foldl (fun m e => registerMobilityRequestHandler m e.1 e.2) newRequestMap
  defaultConflictHandler := none
  trajectoryConverter := path_messages.flatRoad
  hostMobilityStaticId := "host"

def yieldRequest : MobilityRequest where
  header :=
    { senderId := "other"
      recipientId := "host"
      senderBsmId := ""
      planId := "plan"
      timestamp := 0 }
  strategy := "yield"
  trajectory := ⟨⟨0, 0, 0, 0⟩, []⟩

def always (s : Surroundings ℚ Bool) : Reading ℚ Bool := ⟨s, s, fun _ => s⟩

theorem one_handler_speaks :
    OneSpeaks (routerOf [("mobility/yield", true)]) yieldRequest (always engaged) := by
  have hanswered : AnsweredOnce (handleMobilityRequest (routerOf [("mobility/yield", true)])
      yieldRequest (always engaged)).flatten := ⟨by decide +kernel, by decide +kernel⟩
  apply (a_request_is_answered_once_when_one_speaks _ _ _ (interleaving_flatten _)).mp
  intro done hdone
  exact hanswered.of_prefix hdone

/-- With a handler for the strategy and another one for its end, a request is both
accepted and refused, and its path is kept. -/
theorem a_request_is_accepted_and_refused :
    ∃ trace, Interleaving (handleMobilityRequest
        (routerOf [("mobility/yield", true), ("yield", false)]) yieldRequest (always engaged)) trace ∧
      (responses trace).map (·.isAccepted) = [true, false] ∧ (∃ e ∈ trace, e.isAdd = true) ∧
      ¬ AnsweredOnce trace := by
  refine ⟨_, interleaving_flatten _, by decide +kernel, by decide +kernel, ?_⟩
  intro h
  exact absurd h.once (by decide +kernel)

end carma.mobility_router
