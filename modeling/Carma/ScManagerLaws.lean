-- What a component serves and what others count on: across any order of the events of a
-- network, a component streams to another, once nothing is under way between the two, just if
-- the other one holds the connection or has let it time out and not asked again. The messages of
-- a connection are numbered from its grant on.
import Carma.ScManagerIncoming
import Carma.ScManagerOutgoing
import Mathlib.Algebra.Field.Rat
import Mathlib.Algebra.Order.Ring.Unbundled.Rat

open lib.handshakes
open lib.runs

namespace carma.sc_manager

open carma.large_message_handler (JausAddress)

variable {K M : Type}

/-! ## Components -/

/-- A message of one component to another names the first instance, and asks for the presence
vector of the two. -/
def Message.Proper (presence : UInt16 → UInt32) : Message K M → Prop
  | .create code _ pv => pv = presence code
  | .confirm _ instanceId _ responseCode =>
    responseCode = .JAUS_SC_SUCCESSFUL → instanceId = 0
  | .terminate _ instanceId => instanceId = 0
  | _ => True

/-- The presence vector that one component asks another for, by the command code. -/
abbrev Presence := JausAddress → JausAddress → UInt16 → UInt32

structure OjCmpt.Sound (presence : Presence) (own : JausAddress) (c : OjCmpt K M) : Prop where
  outgoing : c.outgoing.Sound fun source code => presence source own code
  incoming : c.incoming.Sound

/-- What the law is about: components that support a message once support it on, that do not
lose each other's addresses, and that ask with one connection for a command code and address. -/
def Call.Ok (presence : Presence) (self : JausAddress) (c : OjCmpt K M) : Call K M → Prop
  | .removeSupported _ => False
  | .manage lookup i _ =>
    c.incoming.MayManage (fun address code => presence self address code) self lookup i
  | .updatedSubsystem verify =>
    (∀ code, ∀ sc ∈ c.outgoing.connections code, verify sc.address = true) ∧
      ∀ i ∈ c.incoming.incomingSc, ∀ sc, c.incoming.inConnection i = some sc →
        verify sc.address = true
  | _ => True

/-- What a component does by itself, without a control message. -/
structure OwnStep (presence : Presence) (own : JausAddress) (c : OjCmpt K M)
    (r : OjCmpt K M × List (Deed K M)) : Prop where
  sound : r.1.Sound presence own
  queue : r.1.receiveQueue = c.receiveQueue
  effect : Incoming.Effect c.incoming r.1.incoming r.2
  same : Outgoing.SameService c.outgoing r.1.outgoing
  numbers : ∀ code a, NumberEffect (c.outgoing.numbers code a)
    (r.2.filterMap (Deed.numbering? code a)) (r.1.outgoing.numbers code a)
  proper : ∀ d m, Deed.sent d m ∈ r.2 → m.Proper (presence own d)
  unanswering : ∀ d m, Deed.sent d m ∈ r.2 → ∀ code, m.answer? code = none

theorem mem_sentAll {out : List (JausAddress × Message K M)} {d : JausAddress} {m : Message K M} :
    Deed.sent d m ∈ sentAll out ↔ (d, m) ∈ out := by
  simp [sentAll]

namespace OjCmpt

variable {presence : Presence} {self : JausAddress} {c : OjCmpt K M}

/-- Only what the component serves is changed, without a message that controls connections. -/
theorem ownStep_outgoing (h : c.Sound presence self) {o : Outgoing K M}
    (hsame : c.outgoing.SameService o) {deeds : List (Deed K M)}
    (hnumbers : ∀ code a, NumberEffect (c.outgoing.numbers code a)
      (deeds.filterMap (Deed.numbering? code a)) (o.numbers code a))
    (hdeeds : ∀ d ∈ deeds, ∃ dest m, d = Deed.sent dest m ∧ m.Proper (presence self dest) ∧
      ∀ code, m.answer? code = none ∧ m.request? code = none) :
    OwnStep presence self c ({ c with outgoing := o }, deeds) where
  sound := ⟨h.outgoing.of_same hsame, h.incoming⟩
  queue := rfl
  effect code address := by
    have hnone : deeds.filterMap (Deed.turn? code address) = [] := by
      rw [List.filterMap_eq_nil_iff]
      intro d hd
      obtain ⟨dest, m, rfl, -, hm⟩ := hdeeds d hd
      simp [Deed.turn?, (hm code).2]
    rw [hnone]
    exact .same
  same := hsame
  numbers := hnumbers
  proper d m hd := by
    obtain ⟨dest, m', heq, hm, -⟩ := hdeeds _ hd
    obtain ⟨rfl, rfl⟩ := Deed.sent.inj heq
    exact hm
  unanswering d m hd code := by
    obtain ⟨dest, m', heq, -, hm⟩ := hdeeds _ hd
    obtain ⟨rfl, rfl⟩ := Deed.sent.inj heq
    exact (hm code).1

/-- What the component serves stays as it is, but for what nobody can name. -/
theorem ownStep_silent (h : c.Sound presence self) {o : Outgoing K M}
    (hsame : c.outgoing.SameService o)
    (hnumbers : ∀ code a, o.numbers code a = c.outgoing.numbers code a) :
    OwnStep presence self c ({ c with outgoing := o }, []) := by
  apply ownStep_outgoing h hsame
  · intro code a
    rw [hnumbers]
    exact .same
  · simp

/-- Only what the component counts on is changed. -/
theorem ownStep_incoming (h : c.Sound presence self) {n : Incoming K M} {deeds : List (Deed K M)}
    (hn : n.Sound) (heffect : Incoming.Effect c.incoming n deeds)
    (hdeeds : ∀ d m, Deed.sent d m ∈ deeds → (∃ code rate, m = .create code rate
      (presence self d code)) ∨ ∃ code, m = .terminate code 0) :
    OwnStep presence self c ({ c with incoming := n }, deeds) where
  sound := ⟨h.outgoing, hn⟩
  queue := rfl
  effect := heffect
  same := .refl _
  numbers code a := by
    have hnone : deeds.filterMap (Deed.numbering? code a) = [] := by
      rw [List.filterMap_eq_nil_iff]
      intro d hd
      cases d with
      | sent dest m => rcases hdeeds dest m hd with ⟨c, rate, rfl⟩ | ⟨c, rfl⟩ <;> rfl
      | timedOut => rfl
    rw [hnone]
    exact .same
  proper d m hd := by
    rcases hdeeds d m hd with ⟨code, rate, rfl⟩ | ⟨code, rfl⟩ <;> rfl
  unanswering d m hd code := by
    rcases hdeeds d m hd with ⟨code, rate, rfl⟩ | ⟨code, rfl⟩ <;> rfl

variable [Field K] [LinearOrder K]

/-- The step lemma of a component that does not take a control message. -/
theorem ownStep_call (h : c.Sound presence self) {k : Call K M} (hok : k.Ok presence self c)
    (hk : ∀ time, k ≠ .process time) : OwnStep presence self c (c.call self k) := by
  cases k with
  | addSupported code =>
    apply ownStep_silent h (Outgoing.same_addSupported c.outgoing code)
    intro c' a
    simp [Outgoing.numbers, Outgoing.connectionsTo_addSupported]
  | removeSupported code => exact absurd hok id
  | send code data time =>
    apply ownStep_outgoing h (Outgoing.same_getSendList c.outgoing code time)
      (Outgoing.send_numbers h.outgoing code data time)
    intro d hd
    obtain ⟨x, hx, rfl⟩ := List.mem_map.mp hd
    obtain ⟨sc, -, rfl⟩ := List.mem_map.mp hx
    exact ⟨_, _, rfl, trivial, fun _ => ⟨rfl, rfl⟩⟩
  | switch destination code i isActive =>
    apply ownStep_outgoing h (.refl _)
    · intro c' a
      cases isActive <;> exact .same
    · intro d hd
      rw [List.mem_singleton.mp hd]
      cases isActive <;> exact ⟨_, _, rfl, trivial, fun _ => ⟨rfl, rfl⟩⟩
  | establish cCode pv address rateHz timeoutSec qSize =>
    obtain ⟨hn, heffect⟩ :=
      Incoming.establish_spec h.incoming cCode pv address rateHz timeoutSec qSize
    exact ownStep_incoming h hn heffect (by simp)
  | manage lookup i time =>
    obtain ⟨hn, heffect, hout⟩ := Incoming.manage_spec h.incoming hok time
    apply ownStep_incoming h hn heffect
    intro d m hd
    obtain ⟨code, rate, hm⟩ := hout _ (mem_sentAll.mp hd)
    exact .inl ⟨code, rate, hm⟩
  | terminate i =>
    obtain ⟨hn, heffect, hout⟩ := Incoming.terminateSc_spec h.incoming i
    apply ownStep_incoming h hn heffect
    intro d m hd
    exact .inr (hout _ (mem_sentAll.mp hd))
  | receive i time =>
    obtain ⟨hn, heffect⟩ := Incoming.receive_spec h.incoming i time
    apply ownStep_incoming h hn heffect
    intro d m hd
    split at hd <;> simp at hd
  | updatedSubsystem verify =>
    have hin := Incoming.dropUnverified_of_verified hok.2
    have hstep : OwnStep presence self c
        ({ c with outgoing := c.outgoing.dropUnverified verify }, []) := by
      apply ownStep_silent h (Outgoing.same_dropUnverified hok.1)
      intro c' a
      simp [Outgoing.numbers, Outgoing.connectionsTo,
        Outgoing.connections_dropUnverified (hok.1 c')]
    simp only [call, hin]
    exact hstep
  | process time => exact absurd rfl (hk time)

/-- Only a message that is removed with connections changes what the count is off by. -/
theorem surplus_call (c : OjCmpt K M) (self : JausAddress) (k : Call K M) :
    (c.call self k).1.outgoing.surplus = c.outgoing.surplus +
      match k with
      | .removeSupported code => ((c.outgoing.connections code).length : ℤ)
      | _ => 0 := by
  cases k with
  | addSupported code => exact (c.outgoing.surplus_addSupported code).trans (add_zero _).symm
  | removeSupported code => exact c.outgoing.surplus_removeSupported code
  | send code data time =>
    exact (c.outgoing.surplus_getSendList code time).trans (add_zero _).symm
  | updatedSubsystem verify =>
    exact (c.outgoing.surplus_dropUnverified verify).trans (add_zero _).symm
  | process time =>
    simp only [add_zero]
    unfold call
    cases hqueue : c.receiveQueue with
    | nil => rfl
    | cons next rest =>
      obtain ⟨source, m⟩ := next
      simp only
      cases m with
      | create code rate pv => exact c.outgoing.surplus_create source code rate pv
      | confirm code i rate responseCode => rfl
      | activate code i => exact c.outgoing.surplus_setActive source code i true
      | suspend code i => exact c.outgoing.surplus_setActive source code i false
      | terminate code i => exact c.outgoing.surplus_terminate source code i
      | service code number data => rfl
  | _ => simp [call]

end OjCmpt

/-! ## The network -/

namespace Network

/-- What is under way from one component to another, the oldest first: what waits in the
receive queue, then what is on the link. -/
def underWay (s : Network K M) (source destination : JausAddress) : List (Message K M) :=
  ((s.cmpt destination).receiveQueue.filter (·.1 = source)).map (·.2) ++ s.link source destination

theorem underWay_act_of_same {s : Network K M} {self : JausAddress} {c : OjCmpt K M}
    (hqueue : c.receiveQueue = (s.cmpt self).receiveQueue) (deeds : List (Deed K M))
    (a b : JausAddress) :
    (s.act self c deeds).underWay a b =
      s.underWay a b ++ if a = self then deeds.filterMap (Deed.message? b) else [] := by
  have hq : ((s.act self c deeds).cmpt b).receiveQueue = (s.cmpt b).receiveQueue := by
    by_cases hb : b = self
    · subst hb
      simp [act, hqueue]
    · simp [act, hb]
  unfold underWay
  rw [hq]
  by_cases ha : a = self <;> simp [act, ha]

/-- A component takes the next message of its queue. -/
theorem underWay_act_of_next {s : Network K M} {self source : JausAddress} {m : Message K M}
    {c : OjCmpt K M} (hqueue : (s.cmpt self).receiveQueue = (source, m) :: c.receiveQueue)
    (deeds : List (Deed K M)) (a b : JausAddress) :
    ∃ rest, s.underWay a b = (if a = source ∧ b = self then m :: rest else rest) ∧
      (s.act self c deeds).underWay a b =
        rest ++ if a = self then deeds.filterMap (Deed.message? b) else [] := by
  unfold underWay
  have hlink : (s.act self c deeds).link a b =
      s.link a b ++ if a = self then deeds.filterMap (Deed.message? b) else [] := by
    by_cases ha : a = self <;> simp [act, ha]
  rw [hlink]
  by_cases hb : b = self
  · subst hb
    refine ⟨(c.receiveQueue.filter (·.1 = a)).map (·.2) ++ s.link a b, ?_, by simp [act]⟩
    rw [hqueue]
    by_cases ha : a = source
    · subst ha
      simp
    · rw [if_neg (fun h => ha h.1), List.filter_cons_of_neg (by simpa using Ne.symm ha)]
  · exact ⟨((s.cmpt b).receiveQueue.filter (·.1 = a)).map (·.2) ++ s.link a b,
      by simp [hb], by simp [act, hb]⟩

/-- What is read of the deeds of one component. -/
def deedsOf {α : Type} (f : Deed K M → Option α) (log : List (JausAddress × Deed K M))
    (a : JausAddress) : List α :=
  log.filterMap fun x => if x.1 = a then f x.2 else none

theorem deedsOf_append {α : Type} (f : Deed K M → Option α) (log : List (JausAddress × Deed K M))
    (self : JausAddress) (deeds : List (Deed K M)) (a : JausAddress) :
    deedsOf f (log ++ deeds.map (self, ·)) a =
      deedsOf f log a ++ if a = self then deeds.filterMap f else [] := by
  unfold deedsOf
  rw [List.filterMap_append, List.filterMap_map]
  congr 1
  by_cases ha : a = self
  · subst ha
    simp
  · simp [ha, Ne.symm ha]

/-- What `a` asks of `b` and drops, as it sees it itself. -/
def turns (log : List (JausAddress × Deed K M)) (a b : JausAddress) (code : UInt16) : List Turn :=
  deedsOf (Deed.turn? code b) log a

/-- The numbers of a message that `b` sends to `a`, and its grants. -/
def numberings (log : List (JausAddress × Deed K M)) (b a : JausAddress) (code : UInt16) :
    List Numbering :=
  deedsOf (Deed.numbering? code a) log b

/-- The last thing that `a` did about a service of `b` was to let it time out. -/
def GaveUp (log : List (JausAddress × Deed K M)) (a b : JausAddress) (code : UInt16) : Prop :=
  (turns log a b code).getLast? = some .timedOut

def shown : Standing → Option Bool
  | .waiting => some false
  | .active => some true
  | .idle | .gaveUp => none

/-- What a network and its history show of the handshake of `a` with `b` about a message. -/
structure Shows (s : Network K M) (log : List (JausAddress × Deed K M)) (a b : JausAddress)
    (code : UInt16) (h : Handshake) : Prop where
  asker : (s.cmpt a).incoming.standing code b = shown h.asker
  gaveUp : GaveUp log a b code ↔ h.asker = .gaveUp
  requests : (s.underWay a b).filterMap (Message.request? code) = h.requests
  able : (s.cmpt b).outgoing.able code = h.able
  served : ((s.cmpt b).outgoing.subscriptions code a).isEmpty = !h.served
  answers : (s.underWay b a).filterMap (Message.answer? code) = h.answers

/-- The requests of some turns. -/
def requestsOf (ts : List Turn) : List Request :=
  ts.filterMap fun
    | .asked => some .ask
    | .dropped => some .drop
    | .timedOut => none

/-- The requests that are sent are what the component sees itself do. -/
theorem requests_of_turns (deeds : List (Deed K M)) (b : JausAddress) (code : UInt16) :
    (deeds.filterMap (Deed.message? b)).filterMap (Message.request? code) =
      requestsOf (deeds.filterMap (Deed.turn? code b)) := by
  rw [requestsOf, List.filterMap_filterMap, List.filterMap_filterMap]
  apply List.filterMap_congr
  intro d _
  cases d with
  | sent destination m =>
    by_cases hd : destination = b
    · simp only [Deed.message?, Deed.turn?, hd, if_true, Option.bind_some]
      cases hm : m.request? code with
      | none => rfl
      | some r => cases r <;> rfl
    · simp [Deed.message?, Deed.turn?, hd]
  | timedOut c address =>
    simp only [Deed.message?, Deed.turn?, Option.bind_none]
    split_ifs <;> rfl

theorem coherent_of_effect {h : Handshake} (hc : h.Coherent) {ts l : List Turn} {v : Option Bool}
    (heffect : AskerEffect (shown h.asker) ts v)
    (hgaveUp : l.getLast? = some .timedOut ↔ h.asker = .gaveUp) :
    ∃ asker, Handshake.Coherent { h with asker, requests := h.requests ++ requestsOf ts } ∧
      v = shown asker ∧ ((l ++ ts).getLast? = some .timedOut ↔ asker = .gaveUp) := by
  cases heffect with
  | same => exact ⟨h.asker, by simpa [requestsOf] using hc, rfl, by simpa using hgaveUp⟩
  | asked => exact ⟨.waiting, Handshake.Step.asks.coherent hc, rfl, by simp⟩
  | withdrew hv =>
    have hasker : h.asker = .waiting := by
      cases hs : h.asker <;> simp [shown, hs] at hv ⊢
    refine ⟨.idle, ?_, rfl, ?_⟩
    · simpa [requestsOf] using (Handshake.Step.withdraws hasker).coherent hc
    · simp [hgaveUp, hasker]
  | dropped hv =>
    have hasker : h.asker = .active := by
      cases hs : h.asker <;> simp [shown, hs] at hv ⊢
    exact ⟨.idle, (Handshake.Step.drops hasker).coherent hc, rfl, by simp⟩
  | timedOut hv =>
    have hasker : h.asker = .active := by
      cases hs : h.asker <;> simp [shown, hs] at hv ⊢
    refine ⟨.gaveUp, ?_, rfl, by simp⟩
    simpa [requestsOf] using (Handshake.Step.givesUp hasker).coherent hc

/-- What an asker does at an answer is a step of the handshake. -/
theorem coherent_of_answer {h : Handshake} (hc : h.Coherent) {granted : Bool} {bs : List Bool}
    (hanswers : h.answers = granted :: bs) {ts l : List Turn} {v : Option Bool}
    (heffect : AnswerEffect granted (shown h.asker) ts v)
    (hgaveUp : l.getLast? = some .timedOut ↔ h.asker = .gaveUp) :
    ∃ asker,
      Handshake.Coherent
        { h with asker, requests := h.requests ++ requestsOf ts, answers := bs } ∧
      v = shown asker ∧ ((l ++ ts).getLast? = some .timedOut ↔ asker = .gaveUp) := by
  have hasks (hv : shown h.asker ≠ none) : h.asker.asks = true ∧ h.asker ≠ .gaveUp := by
    cases hs : h.asker <;> simp [shown, hs, Standing.asks] at hv ⊢
  have hasksNot (hv : shown h.asker = none) : h.asker.asks = false := by
    cases hs : h.asker <;> simp [shown, hs, Standing.asks] at hv ⊢
  cases heffect with
  | granted hg hv =>
    subst hg
    refine ⟨.active, ?_, rfl, ?_⟩
    · simpa [requestsOf] using (Handshake.Step.granted hanswers (hasks hv).1).coherent hc
    · simp [hgaveUp, (hasks hv).2]
  | declined hg hv =>
    subst hg
    exact ⟨.idle, (Handshake.Step.declines hanswers (hasksNot hv)).coherent hc, rfl, by simp⟩
  | refused hg hv =>
    subst hg
    refine ⟨.idle, ?_, rfl, ?_⟩
    · simpa [requestsOf] using (Handshake.Step.refused hanswers (hasks hv).1).coherent hc
    · simp [hgaveUp, (hasks hv).2]
  | ignored hg hv =>
    subst hg
    refine ⟨h.asker, ?_, hv.symm, by simpa using hgaveUp⟩
    simpa [requestsOf] using (Handshake.Step.ignores hanswers (hasksNot hv)).coherent hc

/-! ### The step lemma -/

/-- What holds of every component, and of every message under way. -/
structure Tidy (presence : Presence) (s : Network K M) : Prop where
  sound : ∀ x, (s.cmpt x).Sound presence x
  proper : ∀ a b, ∀ m ∈ s.underWay a b, m.Proper (presence a b)

theorem mem_sent_of_message? {deeds : List (Deed K M)} {b : JausAddress} {m : Message K M}
    (h : m ∈ deeds.filterMap (Deed.message? b)) : Deed.sent b m ∈ deeds := by
  obtain ⟨d, hd, hm⟩ := List.mem_filterMap.mp h
  cases d with
  | sent destination m' =>
    simp only [Deed.message?] at hm
    split_ifs at hm with heq
    rwa [← heq, ← Option.some.inj hm]
  | timedOut => cases hm

section Own

variable {presence : Presence} {s : Network K M} {x : JausAddress} {r : OjCmpt K M × List (Deed K M)}

theorem sound_act (h : ∀ y, (s.cmpt y).Sound presence y) (hr : r.1.Sound presence x) :
    ∀ y, ((s.act x r.1 r.2).cmpt y).Sound presence y := by
  intro y
  by_cases hy : y = x
  · subst hy
    simpa [act] using hr
  · simpa [act, hy] using h y

theorem tidy_own (h : Tidy presence s) (hown : OwnStep presence x (s.cmpt x) r) :
    Tidy presence (s.act x r.1 r.2) where
  sound := sound_act h.sound hown.sound
  proper a b m hm := by
    rw [underWay_act_of_same hown.queue, List.mem_append] at hm
    rcases hm with hm | hm
    · exact h.proper a b m hm
    · by_cases ha : a = x
      · subst ha
        rw [if_pos rfl] at hm
        exact hown.proper b m (mem_sent_of_message? hm)
      · simp [ha] at hm

theorem shows_own {log : List (JausAddress × Deed K M)} {a b : JausAddress} {code : UInt16}
    {h : Handshake} (hown : OwnStep presence x (s.cmpt x) r) (hs : Shows s log a b code h)
    (hc : h.Coherent) :
    ∃ h', h'.Coherent ∧ Shows (s.act x r.1 r.2) (log ++ r.2.map (x, ·)) a b code h' := by
  have heffect : AskerEffect (shown h.asker)
      (if a = x then r.2.filterMap (Deed.turn? code b) else [])
      (((s.act x r.1 r.2).cmpt a).incoming.standing code b) := by
    rw [← hs.asker]
    by_cases ha : a = x
    · subst ha
      simpa [act] using hown.effect code b
    · simpa [act, ha] using AskerEffect.same
  obtain ⟨asker, hcoherent, hshown, hgaveUp⟩ := coherent_of_effect hc heffect hs.gaveUp
  have hserver : (h.able = true → ((s.act x r.1 r.2).cmpt b).outgoing.able code = true) ∧
      ((s.act x r.1 r.2).cmpt b).outgoing.subscriptions code a =
        (s.cmpt b).outgoing.subscriptions code a := by
    rw [← hs.able]
    by_cases hb : b = x
    · subst hb
      simpa [act] using ⟨hown.same.able code, hown.same.subscriptions code a⟩
    · simp [act, hb]
  have hable : Handshake.Coherent
      { h with
        asker
        requests := h.requests ++
          requestsOf (if a = x then r.2.filterMap (Deed.turn? code b) else [])
        able := ((s.act x r.1 r.2).cmpt b).outgoing.able code } := by
    cases hold : h.able with
    | true =>
      rw [hserver.1 hold]
      rw [hold] at hcoherent
      exact hcoherent
    | false =>
      cases hnew : ((s.act x r.1 r.2).cmpt b).outgoing.able code with
      | true => exact Handshake.Step.becomesAble.coherent hcoherent
      | false =>
        rw [hold] at hcoherent
        exact hcoherent
  refine ⟨_, hable, ⟨hshown, ?_, ?_, rfl, ?_, ?_⟩⟩
  · unfold GaveUp
    unfold turns
    rw [deedsOf_append]
    exact hgaveUp
  · rw [underWay_act_of_same hown.queue, List.filterMap_append, hs.requests]
    by_cases ha : a = x
    · simp [ha, requests_of_turns]
    · simp [ha, requestsOf]
  · rw [hserver.2]
    exact hs.served
  · rw [underWay_act_of_same hown.queue, List.filterMap_append, hs.answers]
    have hnone : (if b = x then r.2.filterMap (Deed.message? a) else []).filterMap
        (Message.answer? code) = [] := by
      rw [List.filterMap_eq_nil_iff]
      intro m hm
      split_ifs at hm
      · exact hown.unanswering a m (mem_sent_of_message? hm) code
      · cases hm
    rw [hnone, List.append_nil]

end Own

/-- The answers about a message that are sent to a component. -/
def answersTo (deeds : List (Deed K M)) (a : JausAddress) (code : UInt16) : List Bool :=
  (deeds.filterMap (Deed.message? a)).filterMap (Message.answer? code)

/-- What a component does with a control message `m` from `source`. -/
structure Takes (presence : Presence) (own source : JausAddress) (m : Message K M)
    (c : OjCmpt K M) (r : OjCmpt K M × List (Deed K M)) : Prop where
  sound : r.1.Sound presence own
  queue : r.1.receiveQueue = c.receiveQueue
  proper : ∀ d m', Deed.sent d m' ∈ r.2 → m'.Proper (presence own d)
  answered : ∀ code granted, m.answer? code = some granted →
    AnswerEffect granted (c.incoming.standing code source)
      (r.2.filterMap (Deed.turn? code source)) (r.1.incoming.standing code source)
  unanswered : ∀ code b, (b = source → m.answer? code = none) →
    r.1.incoming.standing code b = c.incoming.standing code b ∧
      r.2.filterMap (Deed.turn? code b) = []
  able : ∀ code, r.1.outgoing.able code = c.outgoing.able code
  asked : ∀ code, m.request? code = some .ask →
    (r.1.outgoing.subscriptions code source).isEmpty = !c.outgoing.able code ∧
      answersTo r.2 source code = [c.outgoing.able code]
  dropped : ∀ code, m.request? code = some .drop →
    r.1.outgoing.subscriptions code source = [] ∧ answersTo r.2 source code = []
  unasked : ∀ code a, (a = source → m.request? code = none) →
    r.1.outgoing.subscriptions code a = c.outgoing.subscriptions code a ∧
      answersTo r.2 a code = []
  numbers : ∀ code a, NumberEffect (c.outgoing.numbers code a)
    (r.2.filterMap (Deed.numbering? code a)) (r.1.outgoing.numbers code a)

section Takes

variable {presence : Presence} {own source : JausAddress} {c : OjCmpt K M}

/-- Only what the component serves is changed, and no message is sent. -/
theorem takes_silently (h : c.Sound presence own) {m : Message K M}
    (hrequest : ∀ code, m.request? code = none) (hanswer : ∀ code, m.answer? code = none)
    {o : Outgoing K M} (hable : ∀ code, o.able code = c.outgoing.able code)
    (hsame : ∀ code a, o.subscriptions code a = c.outgoing.subscriptions code a)
    (hnumbers : ∀ code a, o.numbers code a = c.outgoing.numbers code a) :
    Takes presence own source m c ({ c with outgoing := o }, []) where
  sound := ⟨h.outgoing.of_same ⟨fun code hc => by rwa [hable], hsame⟩, h.incoming⟩
  queue := rfl
  proper := by simp
  answered code granted hm := by simp [hanswer] at hm
  unanswered _ _ _ := ⟨rfl, rfl⟩
  able := hable
  asked code hm := by simp [hrequest] at hm
  dropped code hm := by simp [hrequest] at hm
  unasked code a _ := ⟨hsame code a, rfl⟩
  numbers code a := by
    rw [hnumbers]
    exact .same

variable [Field K]

theorem takes_create (h : c.Sound presence own) (code : UInt16) (rate time : K) :
    Takes presence own source (.create code rate (presence source own code)) c
      (c.processMessage source (.create code rate (presence source own code)) time) := by
  have hrequest {code' : UInt16} {q : Request}
      (hq : (Message.create code rate (presence source own code) : Message K M).request? code' =
        some q) : code = code' ∧ .ask = q := by
    simpa [Message.request?] using hq
  unfold OjCmpt.processMessage
  simp only
  cases hable : c.outgoing.able code with
  | false =>
    rw [Outgoing.create_unable hable]
    have hnone := Outgoing.subscriptions_of_not_able hable
    refine ⟨⟨h.outgoing, h.incoming⟩, rfl, ?_, by simp [Message.answer?], ?_, fun _ => rfl, ?_, ?_, ?_,
      ?_⟩
    · simp [Message.Proper]
    · simp [Deed.turn?, Message.request?]
    · intro code' hq
      obtain ⟨rfl, -⟩ := hrequest hq
      simp [hable, hnone, answersTo, Deed.message?, Message.answer?]
    · intro code' hq
      cases (hrequest hq).2
    · intro code' a hq
      refine ⟨rfl, ?_⟩
      by_cases ha : source = a
      · subst ha
        have hcode : ¬ code = code' := by simpa [Message.request?] using hq rfl
        simp [answersTo, Deed.message?, Message.answer?, hcode]
      · simp [answersTo, Deed.message?, ha]
    · intro code' a
      simpa [Deed.numbering?] using NumberEffect.same
  | true =>
    obtain ⟨o, hcreate, hables, ⟨sc, hone, hterms, hzero⟩, hothers⟩ :=
      Outgoing.create_able h.outgoing hable source rate
    have hnew : o.subscriptions code source = [(code, 0, presence source own code)] := by
      simp [Outgoing.subscriptions, hone, hterms]
    have hsame (c' : UInt16) (a : JausAddress) (hkey : (c', a) ≠ (code, source)) :=
      Outgoing.subscriptions_congr (hothers c' a hkey)
    rw [hcreate]
    have hsound : o.Sound fun source code => presence source own code := by
      intro code' a
      by_cases hkey : (code', a) = (code, source)
      · obtain ⟨rfl, rfl⟩ := Prod.mk.inj hkey
        exact .inr hnew
      · rw [hsame code' a hkey]
        exact h.outgoing code' a
    refine ⟨⟨hsound, h.incoming⟩, rfl, ?_, by simp [Message.answer?], ?_, hables, ?_, ?_, ?_, ?_⟩
    · simp [Message.Proper]
    · simp [Deed.turn?, Message.request?]
    · intro code' hq
      obtain ⟨rfl, -⟩ := hrequest hq
      simp [hable, hnew, answersTo, Deed.message?, Message.answer?]
    · intro code' hq
      cases (hrequest hq).2
    · intro code' a hq
      have hkey : (code', a) ≠ (code, source) := by
        rintro heq
        obtain ⟨rfl, rfl⟩ := Prod.mk.inj heq
        simpa [Message.request?] using hq rfl
      refine ⟨hsame code' a hkey, ?_⟩
      by_cases ha : source = a
      · subst ha
        have hcode : ¬ code = code' := fun heq => hkey (by rw [heq])
        simp [answersTo, Deed.message?, Message.answer?, hcode]
      · simp [answersTo, Deed.message?, ha]
    · intro code' a
      by_cases hkey : (code', a) = (code, source)
      · obtain ⟨rfl, rfl⟩ := Prod.mk.inj hkey
        simpa [Deed.numbering?, Outgoing.numbers, hone, hzero] using NumberEffect.granted
      · have hnot : ¬ (source = a ∧ code = code') := by
          rintro ⟨rfl, rfl⟩
          exact hkey rfl
        simpa [Deed.numbering?, Outgoing.numbers, hothers code' a hkey, hnot] using NumberEffect.same

theorem takes_confirm (h : c.Sound presence own) (code : UInt16) {instanceId : UInt8} (rate : K)
    {responseCode : ResponseCode}
    (hm : (Message.confirm code instanceId rate responseCode : Message K M).Proper
      (presence source own)) (time : K) :
    Takes presence own source (.confirm code instanceId rate responseCode) c
      (c.processMessage source (.confirm code instanceId rate responseCode) time) := by
  obtain ⟨hsound, hanswer, hother, hout⟩ := Incoming.confirm_spec h.incoming source code rate hm time
  unfold OjCmpt.processMessage
  simp only
  generalize c.incoming.scManagerProcessConfirmScMessage source code instanceId rate responseCode
    time = r at hsound hanswer hother hout
  obtain ⟨n, answer⟩ := r
  have hsent : ∀ d m', Deed.sent d m' ∈ answer.toList.map (Deed.sent source) →
      d = source ∧ m' = .terminate code 0 := by
    intro d m' hd
    obtain ⟨m, hm, heq⟩ := List.mem_map.mp hd
    obtain ⟨rfl, rfl⟩ := Deed.sent.inj heq
    exact ⟨rfl, hout m (by simpa using hm)⟩
  have hnoAnswer (a : JausAddress) (code' : UInt16) :
      answersTo (answer.toList.map (Deed.sent source)) a code' = [] := by
    unfold answersTo
    rw [List.filterMap_eq_nil_iff]
    intro m' hm'
    rw [(hsent a m' (mem_sent_of_message? hm')).2]
    rfl
  refine ⟨⟨h.outgoing, hsound⟩, rfl, ?_, ?_, ?_, fun _ => rfl, by simp [Message.request?],
    by simp [Message.request?], fun _ _ _ => ⟨rfl, hnoAnswer _ _⟩, ?_⟩
  · intro d m' hd
    rw [(hsent d m' hd).2]
    rfl
  · intro code' granted hg
    simp only [Message.answer?] at hg
    split_ifs at hg with hcode
    subst hcode
    rw [← Option.some.inj hg]
    exact hanswer
  · intro code' b hb
    have hkey : (code', b) ≠ (code, source) := by
      intro heq
      obtain ⟨rfl, rfl⟩ := Prod.mk.inj heq
      simpa [Message.answer?] using hb rfl
    refine ⟨hother code' b hkey, ?_⟩
    rw [List.filterMap_eq_nil_iff]
    intro d hd
    obtain ⟨m', -, rfl⟩ := List.mem_map.mp hd
    rw [(hsent source m' hd).2]
    simp only [Deed.turn?, Message.request?]
    split_ifs with hsource hcode
    · exact absurd (by rw [hsource, hcode]) hkey.symm
    · rfl
    · rfl
  · intro code' a
    have hnone : (answer.toList.map (Deed.sent source)).filterMap (Deed.numbering? code' a) = [] := by
      rw [List.filterMap_eq_nil_iff]
      intro d hd
      obtain ⟨m', -, rfl⟩ := List.mem_map.mp hd
      rw [(hsent source m' hd).2]
      rfl
    rw [hnone]
    exact .same

theorem takes_terminate (h : c.Sound presence own) (code : UInt16) (time : K) :
    Takes presence own source (.terminate code 0) c
      (c.processMessage source (.terminate code 0) time) := by
  obtain ⟨hable, hgone, hothers⟩ := Outgoing.terminate_spec h.outgoing code source
  unfold OjCmpt.processMessage
  simp only
  generalize c.outgoing.scManagerProcessTerminateScMessage source code 0 = o at hable hgone hothers
  have hnone : o.subscriptions code source = [] := by simp [Outgoing.subscriptions, hgone]
  have hsame (c' : UInt16) (a : JausAddress) (hkey : (c', a) ≠ (code, source)) :=
    Outgoing.subscriptions_congr (hothers c' a hkey)
  have hsound : o.Sound fun source code => presence source own code := by
    intro code' a
    by_cases hkey : (code', a) = (code, source)
    · obtain ⟨rfl, rfl⟩ := Prod.mk.inj hkey
      exact .inl hnone
    · rw [hsame code' a hkey]
      exact h.outgoing code' a
  refine ⟨⟨hsound, h.incoming⟩, rfl, by simp, by simp [Message.answer?], fun _ _ _ => ⟨rfl, rfl⟩,
    hable, ?_, ?_, ?_, ?_⟩
  · intro code' hq
    simp [Message.request?] at hq
  · intro code' hq
    simp only [Message.request?] at hq
    split_ifs at hq with hcode
    subst hcode
    exact ⟨hnone, rfl⟩
  · intro code' a hq
    refine ⟨hsame code' a ?_, rfl⟩
    intro heq
    obtain ⟨rfl, rfl⟩ := Prod.mk.inj heq
    simpa [Message.request?] using hq rfl
  · intro code' a
    by_cases hkey : (code', a) = (code, source)
    · obtain ⟨rfl, rfl⟩ := Prod.mk.inj hkey
      simpa [Outgoing.numbers, hgone] using NumberEffect.ended
    · simpa [Outgoing.numbers, hothers code' a hkey] using NumberEffect.same

/-- The step lemma of a component that takes a control message. -/
theorem takes_processMessage (h : c.Sound presence own) {m : Message K M}
    (hm : m.Proper (presence source own)) (time : K) :
    Takes presence own source m c (c.processMessage source m time) := by
  cases m with
  | create code rate pv =>
    obtain rfl : pv = presence source own code := hm
    exact takes_create h code rate time
  | confirm code instanceId rate responseCode => exact takes_confirm h code rate hm time
  | activate code instanceId =>
    exact takes_silently h (fun _ => rfl) (fun _ => rfl) (fun c => Outgoing.able_setActive ..)
      (Outgoing.same_setActive ..).subscriptions (fun _ _ => Outgoing.numbers_setActive ..)
  | suspend code instanceId =>
    exact takes_silently h (fun _ => rfl) (fun _ => rfl) (fun c => Outgoing.able_setActive ..)
      (Outgoing.same_setActive ..).subscriptions (fun _ _ => Outgoing.numbers_setActive ..)
  | terminate code instanceId =>
    obtain rfl : instanceId = 0 := hm
    exact takes_terminate h code time
  | service code number data =>
    exact takes_silently h (fun _ => rfl) (fun _ => rfl) (fun _ => rfl) (fun _ _ => rfl)
      (fun _ _ => rfl)

end Takes

section Process

variable {presence : Presence} {s : Network K M} {x y : JausAddress} {m : Message K M}
  {rest : List (JausAddress × Message K M)} {r : OjCmpt K M × List (Deed K M)}

theorem mem_underWay_of_next (hqueue : (s.cmpt x).receiveQueue = (y, m) :: rest) :
    m ∈ s.underWay y x := by
  simp [underWay, hqueue]

theorem tidy_take (h : Tidy presence s) (hqueue : (s.cmpt x).receiveQueue = (y, m) :: rest)
    (htakes : Takes presence x y m { s.cmpt x with receiveQueue := rest } r) :
    Tidy presence (s.act x r.1 r.2) where
  sound := sound_act h.sound htakes.sound
  proper a b m' hm := by
    have hnext : (s.cmpt x).receiveQueue = (y, m) :: r.1.receiveQueue := by
      rw [hqueue, htakes.queue]
    obtain ⟨under, hbefore, hafter⟩ := underWay_act_of_next hnext r.2 a b
    rw [hafter, List.mem_append] at hm
    rcases hm with hm | hm
    · apply h.proper a b m'
      rw [hbefore]
      split_ifs
      · exact List.mem_cons_of_mem m hm
      · exact hm
    · by_cases ha : a = x
      · subst ha
        rw [if_pos rfl] at hm
        exact htakes.proper b m' (mem_sent_of_message? hm)
      · simp [ha] at hm

theorem answer?_of_request? {code : UInt16} {q : Request} (hq : m.request? code = some q)
    (code' : UInt16) : m.answer? code' = none := by
  cases m <;> simp [Message.request?] at hq <;> rfl

/-- What is read of the messages under way, when the next one of a queue is taken. -/
theorem filterMap_take {α : Type} {f : Message K M → Option α}
    (hnext : (s.cmpt x).receiveQueue = (y, m) :: r.1.receiveQueue) (a b : JausAddress) :
    ∃ l, (s.underWay a b).filterMap f = (if a = y ∧ b = x then (f m).toList ++ l else l) ∧
      ((s.act x r.1 r.2).underWay a b).filterMap f =
        l ++ if a = x then (r.2.filterMap (Deed.message? b)).filterMap f else [] := by
  obtain ⟨under, hbefore, hafter⟩ := underWay_act_of_next hnext r.2 a b
  refine ⟨under.filterMap f, ?_, ?_⟩
  · rw [hbefore]
    split_ifs
    · cases hf : f m <;> simp [hf]
    · rfl
  · rw [hafter, List.filterMap_append]
    congr 1
    split_ifs <;> rfl

theorem shows_take {log : List (JausAddress × Deed K M)} {a b : JausAddress} {code : UInt16}
    {h : Handshake} (hqueue : (s.cmpt x).receiveQueue = (y, m) :: rest)
    (htakes : Takes presence x y m { s.cmpt x with receiveQueue := rest } r)
    (hs : Shows s log a b code h) (hc : h.Coherent) :
    ∃ h', h'.Coherent ∧ Shows (s.act x r.1 r.2) (log ++ r.2.map (x, ·)) a b code h' := by
  have hnext : (s.cmpt x).receiveQueue = (y, m) :: r.1.receiveQueue := by
    rw [hqueue, htakes.queue]
  obtain ⟨requests, hrequests, hrequests'⟩ := filterMap_take (f := Message.request? code) hnext a b
  obtain ⟨answers, hanswers, hanswers'⟩ := filterMap_take (f := Message.answer? code) hnext b a
  rw [hs.requests] at hrequests
  rw [hs.answers] at hanswers
  have hcmpt (z : JausAddress) : (s.act x r.1 r.2).cmpt z = if z = x then r.1 else s.cmpt z := by
    by_cases hz : z = x <;> simp [act, hz]
  have hable : ((s.act x r.1 r.2).cmpt b).outgoing.able code = h.able := by
    rw [← hs.able, hcmpt]
    split_ifs with hb
    · subst hb
      exact htakes.able code
    · rfl
  -- how the asker stands, when the message is no answer for it
  have hstill (hno : a = x → b = y → m.answer? code = none) :
      ((s.act x r.1 r.2).cmpt a).incoming.standing code b = shown h.asker ∧
        (if a = x then r.2.filterMap (Deed.turn? code b) else []) = [] := by
    rw [← hs.asker, hcmpt]
    by_cases ha : a = x
    · subst ha
      simpa using htakes.unanswered code b (hno rfl)
    · simp [ha]
  -- what the server does, when the message is no request of the asker
  have hserver (hno : a = y → b = x → m.request? code = none) :
      ((s.act x r.1 r.2).cmpt b).outgoing.subscriptions code a =
          (s.cmpt b).outgoing.subscriptions code a ∧
        (if b = x then answersTo r.2 a code else []) = [] := by
    rw [hcmpt]
    by_cases hb : b = x
    · subst hb
      simpa using htakes.unasked code a (fun ha => hno ha rfl)
    · simp [hb]
  have hlog : turns (log ++ r.2.map (x, ·)) a b code = turns log a b code ++
      if a = x then r.2.filterMap (Deed.turn? code b) else [] := deedsOf_append ..
  have hsent : (if a = x then (r.2.filterMap (Deed.message? b)).filterMap (Message.request? code)
      else []) = requestsOf (if a = x then r.2.filterMap (Deed.turn? code b) else []) := by
    split_ifs
    · exact requests_of_turns ..
    · rfl
  rw [hsent] at hrequests'
  change ((s.act x r.1 r.2).underWay b a).filterMap (Message.answer? code) =
    answers ++ if b = x then answersTo r.2 a code else [] at hanswers'
  by_cases hrequest : (a = y ∧ b = x) ∧ ∃ q, m.request? code = some q
  · -- a request of the asker arrives
    obtain ⟨⟨rfl, rfl⟩, q, hq⟩ := hrequest
    have hno := answer?_of_request? hq
    obtain ⟨hstanding, hturns⟩ := hstill fun _ _ => hno code
    rw [if_pos ⟨rfl, rfl⟩, hq] at hrequests
    have hkept : h.answers = answers := by
      rw [hanswers]
      split_ifs <;> simp [hno code]
    rw [hturns] at hrequests' hlog
    rw [if_pos rfl] at hanswers'
    have hsub : ((s.act b r.1 r.2).cmpt b).outgoing = r.1.outgoing := by simp [hcmpt]
    cases q with
    | ask =>
      have hfirst : h.requests = .ask :: requests := by simpa using hrequests
      obtain ⟨hserved, hanswered⟩ := htakes.asked code hq
      refine ⟨_, (Handshake.Step.answers hfirst).coherent hc,
        ⟨hstanding, ?_, by simpa [requestsOf] using hrequests', hable, ?_, ?_⟩⟩
      · simpa [GaveUp, hlog] using hs.gaveUp
      · rw [hsub, hserved]
        exact congrArg _ hs.able
      · rw [hanswers', hanswered, ← hkept]
        exact congrArg (fun v => h.answers ++ [v]) hs.able
    | drop =>
      have hfirst : h.requests = .drop :: requests := by simpa using hrequests
      obtain ⟨hnone, hanswered⟩ := htakes.dropped code hq
      refine ⟨_, (Handshake.Step.ends hfirst).coherent hc,
        ⟨hstanding, ?_, by simpa [requestsOf] using hrequests', hable, ?_, ?_⟩⟩
      · simpa [GaveUp, hlog] using hs.gaveUp
      · rw [hsub, hnone]
        rfl
      · rw [hanswers', hanswered, List.append_nil]
        exact hkept.symm
  · obtain ⟨hserved, hnoAnswers⟩ := hserver (by
      intro ha hb
      rw [Option.eq_none_iff_forall_ne_some]
      exact fun q hq => hrequest ⟨⟨ha, hb⟩, q, hq⟩)
    have hkept : h.requests = requests := by
      rw [hrequests]
      split_ifs with hab
      · cases hq : m.request? code with
        | none => rfl
        | some q => exact absurd ⟨hab, q, hq⟩ hrequest
      · rfl
    rw [hnoAnswers, List.append_nil] at hanswers'
    by_cases hanswer : (b = y ∧ a = x) ∧ ∃ g, m.answer? code = some g
    · -- an answer to the asker arrives
      obtain ⟨⟨rfl, rfl⟩, g, hg⟩ := hanswer
      rw [if_pos ⟨rfl, rfl⟩, hg] at hanswers
      have heffect := htakes.answered code g hg
      change AnswerEffect g ((s.cmpt a).incoming.standing code b) _ _ at heffect
      rw [hs.asker] at heffect
      have hfirst : h.answers = g :: answers := by simpa using hanswers
      obtain ⟨asker, hcoherent, hshown, hgaveUp⟩ := coherent_of_answer hc hfirst heffect hs.gaveUp
      rw [if_pos rfl] at hlog hrequests'
      refine ⟨_, hcoherent, ⟨?_, ?_, ?_, hable, ?_, hanswers'⟩⟩
      · rw [hcmpt, if_pos rfl]
        exact hshown
      · unfold GaveUp
        rw [hlog]
        exact hgaveUp
      · rw [hrequests', ← hkept]
      · rw [hserved]
        exact hs.served
    · -- the message is about something else
      have hno : a = x → b = y → m.answer? code = none := by
        intro ha hb
        rw [Option.eq_none_iff_forall_ne_some]
        exact fun g hg => hanswer ⟨⟨hb, ha⟩, g, hg⟩
      obtain ⟨hstanding, hturns⟩ := hstill hno
      rw [hturns] at hrequests' hlog
      refine ⟨h, hc, ⟨hstanding, ?_, ?_, hable, ?_, ?_⟩⟩
      · simpa [GaveUp, hlog] using hs.gaveUp
      · simpa [requestsOf, hkept] using hrequests'
      · rw [hserved]
        exact hs.served
      · rw [hanswers', hanswers]
        split_ifs with hba
        · simp [hno hba.2 hba.1]
        · rfl

end Process

/-! ### Messages that arrive -/

section Arrive

variable {s : Network K M} {a b : JausAddress} {m : Message K M} {rest : List (Message K M)}

theorem underWay_shift (hlink : s.link a b = m :: rest) (p q : JausAddress) :
    ∃ l, s.underWay p q = l ++ (if p = a ∧ q = b then m :: rest else s.link p q) ∧
      (s.shift a b).underWay p q = l ++ if p = a ∧ q = b then rest else s.link p q := by
  refine ⟨((s.cmpt q).receiveQueue.filter (·.1 = p)).map (·.2), ?_, ?_⟩
  · unfold underWay
    split_ifs with hpq
    · rw [hpq.1, hpq.2, hlink]
    · rfl
  · unfold underWay shift
    simp only
    congr 1
    by_cases hp : p = a
    · subst hp
      by_cases hq : q = b
      · subst hq
        simp [hlink]
      · simp [hq]
    · simp [hp]

theorem underWay_enqueue (hlink : s.link a b = m :: rest) (p q : JausAddress) :
    ((s.shift a b).act b
      { s.cmpt b with receiveQueue := (s.cmpt b).receiveQueue ++ [(a, m)] } []).underWay p q =
        s.underWay p q := by
  unfold underWay shift act
  simp only
  by_cases hq : q = b
  · subst hq
    by_cases hp : p = a
    · subst hp
      simp [hlink]
    · simp [hp, Ne.symm hp]
  · by_cases hp : p = a
    · subst hp
      simp [hq]
    · simp [hp, hq]

variable {presence : Presence}

theorem arrive_spec (h : Tidy presence s) (a b : JausAddress) (time : K) :
    Tidy presence (s.arrive a b time) ∧
      ∀ {log : List (JausAddress × Deed K M)} {p q : JausAddress} {code : UInt16} {hand : Handshake},
        Shows s log p q code hand → hand.Coherent →
          ∃ hand', hand'.Coherent ∧ Shows (s.arrive a b time) log p q code hand' := by
  have henqueue {m : Message K M} {rest : List (Message K M)} (hlink : s.link a b = m :: rest) :
      let s' := (s.shift a b).act b
        { s.cmpt b with receiveQueue := (s.cmpt b).receiveQueue ++ [(a, m)] } []
      Tidy presence s' ∧
        ∀ {log : List (JausAddress × Deed K M)} {p q : JausAddress} {code : UInt16}
          {hand : Handshake}, Shows s log p q code hand → hand.Coherent →
            ∃ hand', hand'.Coherent ∧ Shows s' log p q code hand' := by
    intro s'
    have hunder := underWay_enqueue hlink
    have hcmpt (z : JausAddress) : (s'.cmpt z).incoming = (s.cmpt z).incoming ∧
        (s'.cmpt z).outgoing = (s.cmpt z).outgoing := by
      by_cases hz : z = b
      · subst hz
        simp [s', act]
      · simp [s', act, hz, shift]
    refine ⟨⟨fun z => ?_, fun p q m' hm => ?_⟩, fun {log p q code hand} hs hc => ⟨hand, hc, ?_⟩⟩
    · obtain ⟨hin, hout⟩ := hcmpt z
      exact ⟨hout ▸ (h.sound z).outgoing, hin ▸ (h.sound z).incoming⟩
    · rw [hunder] at hm
      exact h.proper p q m' hm
    · obtain ⟨hin, -⟩ := hcmpt p
      obtain ⟨-, hout⟩ := hcmpt q
      exact ⟨hin ▸ hs.asker, hs.gaveUp, by rw [hunder]; exact hs.requests, hout ▸ hs.able,
        hout ▸ hs.served, by rw [hunder]; exact hs.answers⟩
  unfold arrive
  simp only
  cases hlink : s.link a b with
  | nil => exact ⟨h, fun hs hc => ⟨_, hc, hs⟩⟩
  | cons m rest =>
    cases m with
    | service code number data =>
      simp only
      have htidy : Tidy presence (s.shift a b) := by
        refine ⟨h.sound, fun p q m hm => h.proper p q m ?_⟩
        obtain ⟨l, hbefore, hafter⟩ := underWay_shift hlink p q
        rw [hafter] at hm
        rw [hbefore]
        split_ifs at hm ⊢
        · rcases List.mem_append.mp hm with hm | hm
          · exact List.mem_append_left _ hm
          · exact List.mem_append_right _ (List.mem_cons_of_mem _ hm)
        · exact hm
      obtain ⟨hn, heffect⟩ :=
        Incoming.receiveMessage_spec (h.sound b).incoming a code number data time
      have hown : OwnStep presence b ((s.shift a b).cmpt b)
          ({ s.cmpt b with
              incoming := (s.cmpt b).incoming.scManagerReceiveMessage a code number data time },
            []) :=
        OjCmpt.ownStep_incoming (htidy.sound b) hn heffect (by simp)
      refine ⟨tidy_own htidy hown, fun {log p q code' hand} hs hc => ?_⟩
      have hshift : Shows (s.shift a b) log p q code' hand := by
        refine ⟨hs.asker, hs.gaveUp, ?_, hs.able, hs.served, ?_⟩
        · rw [← hs.requests]
          obtain ⟨l, hbefore, hafter⟩ := underWay_shift hlink p q
          rw [hbefore, hafter]
          split_ifs
          · rw [List.filterMap_append, List.filterMap_append, List.filterMap_cons_none rfl]
          · rfl
        · rw [← hs.answers]
          obtain ⟨l, hbefore, hafter⟩ := underWay_shift hlink q p
          rw [hbefore, hafter]
          split_ifs
          · rw [List.filterMap_append, List.filterMap_append, List.filterMap_cons_none rfl]
          · rfl
      have hresult := shows_own hown hshift hc
      simp only [List.map_nil, List.append_nil] at hresult
      exact hresult
    | _ => exact henqueue hlink

end Arrive

/-! ### Runs -/

section Runs

theorem tidy_new (presence : Presence) : Tidy presence (newNetwork : Network K M) where
  sound x := by
    refine ⟨fun code address => .inl rfl, ⟨List.nodup_nil, by simp [newNetwork, newOjCmpt], ?_, ?_⟩⟩
    · intro i sc hsc
      cases hsc
    · intro i j k v w hi
      simp [newNetwork, newOjCmpt, Incoming.entry] at hi
  proper a b m hm := by simp [underWay, newNetwork, newOjCmpt] at hm

theorem shows_new (a b : JausAddress) (code : UInt16) :
    Shows (newNetwork : Network K M) [] a b code .start where
  asker := rfl
  gaveUp := by simp [GaveUp, turns, deedsOf, Handshake.start]
  requests := rfl
  able := rfl
  served := rfl
  answers := rfl

variable [Field K] [LinearOrder K]

def Event.Ok (presence : Presence) (s : Network K M) : Event K M → Prop
  | .arrive .. => True
  | .call self k => k.Ok presence self (s.cmpt self)

def after (events : List (Event K M)) : Network K M := stateAfter step newNetwork events

def history (events : List (Event K M)) : List (JausAddress × Deed K M) :=
  logged step newNetwork events

/-- The events keep to what the law is about. -/
def Proceeds (presence : Presence) (events : List (Event K M)) : Prop :=
  EachCall (fun s e => (step s e).1) (Event.Ok presence) newNetwork events

/-- What an event is for a component that acts: a step of its own, or a control message. -/
theorem call_cases {presence : Presence} {s : Network K M} (h : Tidy presence s) {x : JausAddress}
    {k : Call K M} (hok : k.Ok presence x (s.cmpt x)) :
    OwnStep presence x (s.cmpt x) ((s.cmpt x).call x k) ∨
      ∃ y m rest, (s.cmpt x).receiveQueue = (y, m) :: rest ∧
        Takes presence x y m { s.cmpt x with receiveQueue := rest } ((s.cmpt x).call x k) := by
  by_cases hk : ∀ time, k ≠ .process time
  · exact .inl (OjCmpt.ownStep_call (h.sound x) hok hk)
  · obtain ⟨time, rfl⟩ : ∃ time, k = .process time := by simpa using hk
    cases hqueue : (s.cmpt x).receiveQueue with
    | nil =>
      have hsame : OwnStep presence x (s.cmpt x) (s.cmpt x, []) :=
        OjCmpt.ownStep_silent (h.sound x) (.refl _) fun _ _ => rfl
      left
      simp only [OjCmpt.call, hqueue]
      exact hsame
    | cons next rest =>
      obtain ⟨y, m⟩ := next
      have hsound : OjCmpt.Sound presence x { s.cmpt x with receiveQueue := rest } :=
        ⟨(h.sound x).outgoing, (h.sound x).incoming⟩
      have htakes :=
        takes_processMessage hsound (h.proper y x m (mem_underWay_of_next hqueue)) time
      refine .inr ⟨y, m, rest, rfl, ?_⟩
      simp only [OjCmpt.call, hqueue]
      exact htakes

/-- The step lemma. -/
theorem step_spec {presence : Presence} {s : Network K M} (h : Tidy presence s) {e : Event K M}
    (hok : Event.Ok presence s e) :
    Tidy presence (s.step e).1 ∧
      ∀ {log : List (JausAddress × Deed K M)} {a b : JausAddress} {code : UInt16} {hand : Handshake},
        Shows s log a b code hand → hand.Coherent →
          ∃ hand', hand'.Coherent ∧ Shows (s.step e).1 (log ++ (s.step e).2) a b code hand' := by
  cases e with
  | arrive a b time =>
    obtain ⟨htidy, hshows⟩ := arrive_spec h a b time
    exact ⟨htidy, fun hs hc => by simpa [step] using hshows hs hc⟩
  | call x k =>
    rcases call_cases h hok with hown | ⟨y, m, rest, hqueue, htakes⟩
    · exact ⟨tidy_own h hown, fun hs hc => shows_own hown hs hc⟩
    · exact ⟨tidy_take h hqueue htakes, fun hs hc => shows_take hqueue htakes hs hc⟩

/-- The run lemma. -/
theorem shows_after {presence : Presence} {events : List (Event K M)}
    (hok : Proceeds presence events) : Tidy presence (after events) ∧
      ∀ a b code, ∃ h : Handshake, h.Coherent ∧ Shows (after events) (history events) a b code h := by
  have hstart : Tidy presence (newNetwork : Network K M) ∧ ∀ a b code,
      ∃ h : Handshake, h.Coherent ∧ Shows (newNetwork : Network K M) [] a b code h :=
    ⟨tidy_new presence, fun a b code => ⟨_, Handshake.coherent_start, shows_new a b code⟩⟩
  have hkeep : ∀ (s : Network K M) log e,
      (Tidy presence s ∧ ∀ a b code, ∃ h : Handshake, h.Coherent ∧ Shows s log a b code h) →
      Event.Ok presence s e →
      Tidy presence (s.step e).1 ∧ ∀ a b code, ∃ h : Handshake, h.Coherent ∧
        Shows (s.step e).1 (log ++ (s.step e).2) a b code h := by
    rintro s log e ⟨htidy, hshows⟩ he
    obtain ⟨htidy', hstep⟩ := step_spec htidy he
    refine ⟨htidy', fun a b code => ?_⟩
    obtain ⟨h, hc, hs⟩ := hshows a b code
    exact hstep hs hc
  exact history_keeps hkeep hstart hok

/-! ### Quiet pairs -/

/-- No request and no answer about a message is under way between two components. -/
structure Quiet (s : Network K M) (a b : JausAddress) (code : UInt16) : Prop where
  requests : ∀ m ∈ s.underWay a b, m.request? code = none
  answers : ∀ m ∈ s.underWay b a, m.answer? code = none

/-- A component has a connection of a message for another one. -/
def Serves (s : Network K M) (b a : JausAddress) (code : UInt16) : Prop :=
  ∃ sc ∈ (s.cmpt b).outgoing.connections code, sc.address = a

/-- A component has an active connection of a message of another one. -/
def CountsOn (s : Network K M) (a b : JausAddress) (code : UInt16) : Prop :=
  ∃ i sc, (s.cmpt a).incoming.inConnection i = some sc ∧
    (sc.commandCode, sc.address) = (code, b) ∧ sc.isActive = true

/-- A component has asked another one for a message, and has no answer yet. -/
def WaitsFor (s : Network K M) (a b : JausAddress) (code : UInt16) : Prop :=
  ∃ i ∈ (s.cmpt a).incoming.incomingSc, ∃ sc, (s.cmpt a).incoming.inConnection i = some sc ∧
    (sc.commandCode, sc.address) = (code, b) ∧ sc.isActive = false

omit [Field K] [LinearOrder K] in
theorem countsOn_iff {s : Network K M} {a : JausAddress} (h : (s.cmpt a).incoming.Sound)
    (b : JausAddress) (code : UInt16) :
    s.CountsOn a b code ↔ (s.cmpt a).incoming.standing code b = some true := by
  refine Iff.trans ?_ (h.standing_iff (k := (code, b))).symm
  constructor
  · rintro ⟨i, sc, hsc, hkey, hactive⟩
    refine ⟨i, ?_⟩
    rw [Incoming.entry_of_mem (h.active i sc hsc hactive).1 hsc, hkey, hactive]
  · rintro ⟨i, hi⟩
    obtain ⟨-, sc, hsc, heq⟩ := Incoming.entry_eq_some.mp hi
    obtain ⟨hkey, hactive⟩ := Prod.mk.inj heq
    exact ⟨i, sc, hsc, hkey, hactive⟩

omit [Field K] [LinearOrder K] in
theorem waitsFor_iff {s : Network K M} {a : JausAddress} (h : (s.cmpt a).incoming.Sound)
    (b : JausAddress) (code : UInt16) :
    s.WaitsFor a b code ↔ (s.cmpt a).incoming.standing code b = some false := by
  refine Iff.trans ?_ (h.standing_iff (k := (code, b))).symm
  constructor
  · rintro ⟨i, hi, sc, hsc, hkey, hactive⟩
    refine ⟨i, ?_⟩
    rw [Incoming.entry_of_mem hi hsc, hkey, hactive]
  · rintro ⟨i, hi⟩
    obtain ⟨hmem, sc, hsc, heq⟩ := Incoming.entry_eq_some.mp hi
    obtain ⟨hkey, hactive⟩ := Prod.mk.inj heq
    exact ⟨i, hmem, sc, hsc, hkey, hactive⟩

omit [Field K] [LinearOrder K] in
theorem Shows.serves_iff {s : Network K M} {log : List (JausAddress × Deed K M)}
    {a b : JausAddress} {code : UInt16} {h : Handshake} (hs : Shows s log a b code h) :
    s.Serves b a code ↔ h.served = true := by
  have hserved := hs.served
  rw [Bool.eq_iff_iff] at hserved
  simp only [List.isEmpty_iff, Bool.not_eq_true', Outgoing.subscriptions, List.map_eq_nil_iff,
    Outgoing.connectionsTo, ofAddress_eq_nil_iff] at hserved
  rw [← Bool.not_eq_false, ← hserved]
  simp [Serves]

omit [Field K] [LinearOrder K] in
theorem Shows.quiet {s : Network K M} {log : List (JausAddress × Deed K M)} {a b : JausAddress}
    {code : UInt16} {h : Handshake} (hs : Shows s log a b code h) (hquiet : s.Quiet a b code) :
    h.Quiet := by
  constructor
  · rw [← hs.requests, List.filterMap_eq_nil_iff]
    exact hquiet.requests
  · rw [← hs.answers, List.filterMap_eq_nil_iff]
    exact hquiet.answers

/-- Once nothing about a message is under way between two components, the one does not wait, and
the other serves it just if it counts on that, or has let it time out and not asked again. -/
theorem a_component_is_served_iff {presence : Presence} {events : List (Event K M)}
    (hok : Proceeds presence events) {a b : JausAddress} {code : UInt16}
    (hquiet : (after events).Quiet a b code) :
    ¬ (after events).WaitsFor a b code ∧
      ((after events).Serves b a code ↔
        (after events).CountsOn a b code ∨ GaveUp (history events) a b code) := by
  obtain ⟨htidy, hshows⟩ := shows_after hok
  obtain ⟨h, hc, hs⟩ := hshows a b code
  obtain ⟨hwaits, hserved⟩ := hc.served_iff_of_quiet (hs.quiet hquiet)
  have hsound := (htidy.sound a).incoming
  rw [waitsFor_iff hsound, countsOn_iff hsound, hs.serves_iff, hs.gaveUp, hs.asker, hserved]
  cases hasker : h.asker <;> simp [shown, hasker] at hwaits ⊢

def aClient : JausAddress := ⟨1, 1, 40, 1⟩

def aServer : JausAddress := ⟨1, 1, 50, 1⟩

def aSlot : Slot := ⟨0, by decide⟩

/-- A client asks a server for a message and gets it granted. -/
def aGrant : List (Event ℚ Unit) :=
  [.call aServer (.addSupported 7), .call aClient (.establish 7 0 aServer 1 1 4),
    .call aClient (.manage (fun _ => none) aSlot 1), .arrive aClient aServer 1,
    .call aServer (.process 1), .arrive aServer aClient 1, .call aClient (.process 1)]

/-- The client then hears nothing for too long. -/
def aTimeout : List (Event ℚ Unit) := aGrant ++ [.call aClient (.receive aSlot 3)]

theorem aClient_mayManage :
    Incoming.MayManage (fun _ _ => 0) ((after (aGrant.take 2)).cmpt aClient).incoming aClient
      (fun _ => none) aSlot := by
  have hempty : ((after (aGrant.take 2)).cmpt aClient).incoming.incomingSc = [] := by decide +kernel
  have hpresence : (((after (aGrant.take 2)).cmpt aClient).incoming.inConnection aSlot).map
      (·.presenceVector) = some 0 := by decide +kernel
  intro sc address hsc _ _
  rw [hsc] at hpresence
  refine ⟨Option.some.inj hpresence, fun j _ w => ?_⟩
  rw [Incoming.entry_of_not_mem (by simp [hempty])]
  simp

theorem aTimeout_leaves_a_connection :
    GaveUp (history aTimeout) aClient aServer 7 ∧ (after aTimeout).Serves aServer aClient 7 := by
  have hgaveUp : GaveUp (history aTimeout) aClient aServer 7 := by
    unfold GaveUp
    decide +kernel
  have hok : Proceeds (fun _ _ _ => 0) aTimeout :=
    ⟨trivial, trivial, aClient_mayManage, trivial, trivial, trivial, trivial, trivial, trivial⟩
  have hquiet : (after aTimeout).Quiet aClient aServer 7 := by
    constructor <;> decide +kernel
  exact ⟨hgaveUp, (a_component_is_served_iff hok hquiet).2.mpr (.inr hgaveUp)⟩

/-- A component that counts on a message is served with the instance that it was told, by one
connection that has what it asked for, unless it has just asked again. -/
theorem what_is_counted_on_is_served {presence : Presence} {events : List (Event K M)}
    (hok : Proceeds presence events) {a : JausAddress} {i : Slot} {sc : ServiceConnection K M}
    (hsc : ((after events).cmpt a).incoming.inConnection i = some sc)
    (hactive : sc.isActive = true)
    (hrequests : ∀ m ∈ (after events).underWay a sc.address, m.request? sc.commandCode = none) :
    ∃ out, ((after events).cmpt sc.address).outgoing.connectionsTo sc.commandCode a = [out] ∧
      out.instanceId = sc.instanceId ∧
      out.presenceVector = presence a sc.address sc.commandCode := by
  obtain ⟨htidy, hshows⟩ := shows_after hok
  obtain ⟨h, hc, hs⟩ := hshows a sc.address sc.commandCode
  have hsound := (htidy.sound a).incoming
  have hasker : h.asker = .active := by
    have hcounts := (countsOn_iff hsound sc.address sc.commandCode).mp ⟨i, sc, hsc, rfl, hactive⟩
    rw [hs.asker] at hcounts
    cases hstanding : h.asker <;> simp [shown, hstanding] at hcounts ⊢
  have hserved : h.served = true := by
    apply hc.served_of_active hasker
    rw [← hs.requests, List.filterMap_eq_nil_iff]
    exact hrequests
  rcases (htidy.sound sc.address).outgoing.cases sc.commandCode a with
    hnone | ⟨out, hout, -, hinstance, hpresence⟩
  · have hempty := hs.served
    rw [Outgoing.subscriptions, hnone, hserved] at hempty
    cases hempty
  · refine ⟨out, hout, ?_, hpresence⟩
    rw [hinstance, (hsound.active i sc hsc hactive).2]

theorem aGrant_is_kept : ∃ out,
    ((after aGrant).cmpt aServer).outgoing.connectionsTo 7 aClient = [out] ∧
      out.presenceVector = 0 := by
  have hslot : (((after aGrant).cmpt aClient).incoming.inConnection aSlot).map
      (fun sc => (sc.commandCode, sc.address, sc.isActive)) = some (7, aServer, true) := by
    decide +kernel
  obtain ⟨sc, hsc, hshown⟩ := Option.map_eq_some_iff.mp hslot
  simp only [Prod.mk.injEq] at hshown
  obtain ⟨hcode, haddress, hactive⟩ := hshown
  have hok : Proceeds (fun _ _ _ => 0) aGrant :=
    ⟨trivial, trivial, aClient_mayManage, trivial, trivial, trivial, trivial, trivial⟩
  have hrequests : ∀ m ∈ (after aGrant).underWay aClient sc.address,
      m.request? sc.commandCode = none := by
    rw [hcode, haddress]
    decide +kernel
  obtain ⟨out, hout, -, hpresence⟩ := what_is_counted_on_is_served hok hsc hactive hrequests
  rw [hcode, haddress] at hout
  exact ⟨out, hout, hpresence⟩

/-! ### Numbers and counts -/

omit [Field K] [LinearOrder K] in
/-- What arrives does not change what a component serves. -/
theorem arrive_outgoing (s : Network K M) (a b : JausAddress) (time : K) (x : JausAddress) :
    ((s.arrive a b time).cmpt x).outgoing = (s.cmpt x).outgoing := by
  have hact (c : OjCmpt K M) (hc : c.outgoing = (s.cmpt b).outgoing) :
      (((s.shift a b).act b c []).cmpt x).outgoing = (s.cmpt x).outgoing := by
    by_cases hx : x = b
    · subst hx
      simpa [act] using hc
    · simp [act, hx, shift]
  unfold arrive
  cases s.link a b with
  | nil => rfl
  | cons m rest => cases m <;> exact hact _ rfl

theorem step_numbers {presence : Presence} {s : Network K M} (h : Tidy presence s) {e : Event K M}
    (hok : Event.Ok presence s e) (b a : JausAddress) (code : UInt16) :
    NumberEffect ((s.cmpt b).outgoing.numbers code a) (numberings (s.step e).2 b a code)
      (((s.step e).1.cmpt b).outgoing.numbers code a) := by
  cases e with
  | arrive p q time =>
    change NumberEffect _ [] (((s.arrive p q time).cmpt b).outgoing.numbers code a)
    rw [arrive_outgoing]
    exact .same
  | call x k =>
    have hlog : numberings (s.step (.call x k)).2 b a code =
        if b = x then ((s.cmpt x).call x k).2.filterMap (Deed.numbering? code a) else [] :=
      deedsOf_append _ [] x _ b
    rw [hlog]
    by_cases hb : b = x
    · subst hb
      rw [if_pos rfl]
      simp only [step, act, Function.update_self]
      rcases call_cases h hok with hown | ⟨y, m, rest, -, htakes⟩
      · exact hown.numbers code a
      · exact htakes.numbers code a
    · rw [if_neg hb]
      simpa [step, act, hb] using NumberEffect.same

/-- A message that a component sends for a connection has the number of those that it sent since
the last grant, and these had all numbers before that one, in order. -/
theorem messages_are_numbered_from_the_grant {presence : Presence} {events : List (Event K M)}
    (hok : Proceeds presence events) {b a : JausAddress} {code : UInt16}
    {before later : List Numbering} {n : UInt16}
    (hn : numberings (history events) b a code = before ++ .numbered n :: later) :
    ∃ k, UpTo k before ∧ n = UInt16.ofNat k := by
  have hstart : Tidy presence (newNetwork : Network K M) ∧
      Counts (((newNetwork : Network K M).cmpt b).outgoing.numbers code a)
        (numberings ([] : List (JausAddress × Deed K M)) b a code) := by
    refine ⟨tidy_new presence, ⟨fun n hn => ?_, fun before n later hl => ?_⟩⟩
    · cases hn
    · simp [numberings, deedsOf] at hl
  have hkeep : ∀ (s : Network K M) log e,
      (Tidy presence s ∧ Counts ((s.cmpt b).outgoing.numbers code a) (numberings log b a code)) →
      Event.Ok presence s e →
      Tidy presence (s.step e).1 ∧ Counts (((s.step e).1.cmpt b).outgoing.numbers code a)
        (numberings (log ++ (s.step e).2) b a code) := by
    rintro s log e ⟨htidy, hcounts⟩ he
    have hnext := hcounts.effect (step_numbers htidy he b a code)
    unfold numberings deedsOf at hnext ⊢
    rw [List.filterMap_append]
    exact ⟨(step_spec htidy he).1, hnext⟩
  have hcounts := (history_keeps (I := fun s log => Tidy presence s ∧
    Counts ((s.cmpt b).outgoing.numbers code a) (numberings log b a code)) hkeep hstart hok).2
  exact hcounts.past before n later hn

/-- The message is then due twice. -/
def aStream : List (Event ℚ Unit) :=
  aGrant ++ [.call aServer (.send 7 () 2), .call aServer (.send 7 () 4)]

theorem aStream_is_numbered : ∃ k, UpTo k [.granted, .numbered 0] ∧ (1 : UInt16) = UInt16.ofNat k := by
  have hok : Proceeds (fun _ _ _ => 0) aStream :=
    ⟨trivial, trivial, aClient_mayManage, trivial, trivial, trivial, trivial, trivial, trivial, trivial⟩
  have hn : numberings (history aStream) aServer aClient 7 =
      [.granted, .numbered 0] ++ .numbered 1 :: [] := by
    decide +kernel
  exact messages_are_numbered_from_the_grant hok hn

/-- The count of the outgoing connections is right just when no message was removed while it had
connections. -/
theorem the_outgoing_count_is_right_iff (events : List (Event K M)) (x : JausAddress) :
    ((after events).cmpt x).outgoing.outgoingScCount =
        (((after events).cmpt x).outgoing.allSc.length : ℕ) ↔
      EachCall (fun s e => (step s e).1)
        (fun s e => ∀ code, e = .call x (.removeSupported code) →
          (s.cmpt x).outgoing.connections code = [])
        newNetwork events := by
  have hstep (s : Network K M) (e : Event K M) :
      (∃ code, e = .call x (.removeSupported code) ∧
        (((step s e).1).cmpt x).outgoing.surplus =
          (s.cmpt x).outgoing.surplus + ((s.cmpt x).outgoing.connections code).length) ∨
      ((∀ code, e ≠ .call x (.removeSupported code)) ∧
        (((step s e).1).cmpt x).outgoing.surplus = (s.cmpt x).outgoing.surplus) := by
    cases e with
    | arrive a b time =>
      refine .inr ⟨fun _ => by simp, ?_⟩
      simp only [step]
      rw [arrive_outgoing]
    | call y k =>
      by_cases hy : y = x
      · subst hy
        have hcall := (s.cmpt y).surplus_call y k
        have hnext : ((step s (.call y k)).1.cmpt y) = ((s.cmpt y).call y k).1 := by
          simp [step, act]
        rw [hnext]
        cases k with
        | removeSupported code => exact .inl ⟨code, rfl, hcall⟩
        | _ => exact .inr ⟨by simp, by simpa using hcall⟩
      · exact .inr ⟨by simp [hy], by simp [step, act, Ne.symm hy]⟩
  have hright (s : Network K M) : (s.cmpt x).outgoing.outgoingScCount =
      ((s.cmpt x).outgoing.allSc.length : ℕ) ↔ (s.cmpt x).outgoing.surplus = 0 := by
    unfold Outgoing.surplus
    omega
  rw [hright]
  apply run_iff (I := fun s : Network K M => 0 ≤ (s.cmpt x).outgoing.surplus)
    (P := fun s : Network K M => (s.cmpt x).outgoing.surplus = 0)
  · intro s e hs
    rcases hstep s e with ⟨code, -, hnext⟩ | ⟨-, hnext⟩ <;> rw [hnext]
    · exact add_nonneg hs (Int.natCast_nonneg _)
    · exact hs
  · intro s e hs h0
    rcases hstep s e with ⟨code, rfl, hnext⟩ | ⟨hno, hnext⟩ <;> rw [hnext, h0]
    · simp
    · simp [hno]
  · intro s e hs hlost
    rcases hstep s e with ⟨code, rfl, hnext⟩ | ⟨hno, hnext⟩ <;> rw [hnext]
    · omega
    · exact hlost
  · exact le_refl _
  · rfl

end Runs

end Network

end carma.sc_manager
