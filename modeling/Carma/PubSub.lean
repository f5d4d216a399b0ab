-- The subscribers of one topic share one subscription of the ROS node: the last
-- of them to close shuts it down, and the next to come opens another. The
-- functions are those of `PubSubManager`, `RosSubscriptionChannel` and `RosSubscriber`, up to the
-- listeners that they leave with ROS, which calls them on its own.
import Carma.Lib.Runs
import Mathlib.Data.Finset.Card
import Mathlib.Logic.Function.Basic

open lib.runs

namespace carma.pub_sub

variable {T : Type} [DecidableEq T]

/-- A listener at the subscriber of ROS: of a `RosSubscriber` for its own last message, or of the
callback of this number. -/
structure Listener where
  client : ℕ
  callback : Option ℕ
deriving DecidableEq, Repr

/-- A channel, with the listeners of its ROS subscriber, which is shut down when the channel is not
open. -/
structure RosSubscriptionChannel (T : Type) where
  topicUrl : T
  numOpenChannels : ℤ
  isOpen : Bool
  listeners : List Listener

/-- What a component holds: its channel, and the number of its callbacks. -/
structure RosSubscriber where
  parent : ℕ
  callbacks : ℕ

/-- The channels in the order of their creation, and the map from topics to them. -/
structure PubSubManager (T : Type) where
  channels : List (RosSubscriptionChannel T)
  clients : List RosSubscriber
  subChannelManagers : T → Option ℕ

def newPubSubManager : PubSubManager T where
  channels := []
  clients := []
  subChannelManagers := fun _ => none

/-- A call of a component. -/
inductive Call (T : Type)
  | getSubscriberForTopic (topicUrl : T)
  | registerOnMessageCallback (client : ℕ)
  | close (client : ℕ)
deriving DecidableEq, Repr

namespace RosSubscriptionChannel

/-- A channel of the factory. -/
def new (topicUrl : T) : RosSubscriptionChannel T where
  topicUrl := topicUrl
  numOpenChannels := 0
  isOpen := true
  listeners := []

def getSubscriber (ch : RosSubscriptionChannel T) (client : ℕ) : RosSubscriptionChannel T :=
  { ch with
    numOpenChannels := ch.numOpenChannels + 1
    listeners := ch.listeners ++ [⟨client, none⟩] }

def addMessageListener (ch : RosSubscriptionChannel T) (l : Listener) : RosSubscriptionChannel T :=
  { ch with listeners := ch.listeners ++ [l] }

/-- Once the count is down the channel is shut, and shut again by each further close. -/
def notifyClientShutdown (ch : RosSubscriptionChannel T) : RosSubscriptionChannel T :=
  { ch with
    numOpenChannels := ch.numOpenChannels - 1
    isOpen := ch.isOpen && decide (0 < ch.numOpenChannels - 1) }

/-- `close` of a `RosSubscriber`: the callbacks of the client go, the listener for its last
message stays. -/
def closeClient (ch : RosSubscriptionChannel T) (client : ℕ) : RosSubscriptionChannel T :=
  { ch with
    listeners := ch.listeners.filter fun l => l.client ≠ client ∨ l.callback = none
    }.notifyClientShutdown

end RosSubscriptionChannel

namespace PubSubManager

/-- The channel of a topic, where there is one that is open. -/
def openChannel (s : PubSubManager T) (topicUrl : T) : Option ℕ :=
  (s.subChannelManagers topicUrl).filter fun p => (s.channels[p]?).any (·.isOpen)

def getSubscriberForTopic (s : PubSubManager T) (topicUrl : T) : PubSubManager T :=
  match s.openChannel topicUrl with
  | some p =>
    { s with
      channels := s.channels.modify p (·.getSubscriber s.clients.length)
      clients := s.clients ++ [⟨p, 0⟩] }
  | none =>
    { channels := s.channels ++ [(RosSubscriptionChannel.new topicUrl).getSubscriber s.clients.length]
      clients := s.clients ++ [⟨s.channels.length, 0⟩]
      subChannelManagers := Function.update s.subChannelManagers topicUrl (some s.channels.length) }

def registerOnMessageCallback (s : PubSubManager T) (client : ℕ) : PubSubManager T :=
  match s.clients[client]? with
  | some x =>
    { s with
      channels := s.channels.modify x.parent (·.addMessageListener ⟨client, some x.callbacks⟩)
      clients := s.clients.modify client fun x => { x with callbacks := x.callbacks + 1 } }
  | none => s

def close (s : PubSubManager T) (client : ℕ) : PubSubManager T :=
  match s.clients[client]? with
  | some x => { s with channels := s.channels.modify x.parent (·.closeClient client) }
  | none => s

/-- The listeners at the subscribers of ROS that are open on a topic. -/
def listenersOn (s : PubSubManager T) (topicUrl : T) : List Listener :=
  s.channels.flatMap fun ch => if ch.topicUrl = topicUrl ∧ ch.isOpen then ch.listeners else []

def step (s : PubSubManager T) : Call T → PubSubManager T
  | .getSubscriberForTopic t => s.getSubscriberForTopic t
  | .registerOnMessageCallback c => s.registerOnMessageCallback c
  | .close c => s.close c

end PubSubManager

/-! ## Subscriptions that are not shared -/

/-- A subscription of one client's own. -/
structure Subscription (T : Type) where
  topicUrl : T
  live : Bool
  callbacks : ℕ
deriving DecidableEq

/-- The callback of this number is one for the topic. -/
def Subscription.Hears (topicUrl : T) (k : ℕ) (y : Subscription T) : Bool :=
  y.live && y.topicUrl = topicUrl && k < y.callbacks

namespace Subscriptions

def step (a : List (Subscription T)) : Call T → List (Subscription T)
  | .getSubscriberForTopic t => a ++ [⟨t, true, 0⟩]
  | .registerOnMessageCallback c => a.modify c fun y => { y with callbacks := y.callbacks + 1 }
  | .close c => a.modify c fun y => { y with live := false }

def isLive (a : List (Subscription T)) (c : ℕ) : Bool := (a[c]?).any (·.live)

/-- A client that has closed does nothing more. -/
def Proper (a : List (Subscription T)) : Call T → Prop
  | .registerOnMessageCallback c | .close c => isLive a c
  | _ => True

instance (a : List (Subscription T)) : DecidablePred (Proper a)
  | .registerOnMessageCallback c => inferInstanceAs (Decidable (isLive a c = true))
  | .close c => inferInstanceAs (Decidable (isLive a c = true))
  | .getSubscriberForTopic _ => isTrue trivial

end Subscriptions

/-! ## One open channel of a topic -/

theorem getElem?_snoc {α : Type} (l : List α) (a : α) (q : ℕ) :
    (l ++ [a])[q]? = if q = l.length then some a else l[q]? := by
  grind

/-- Where one element alone gives anything, it gives all. -/
theorem flatMap_of_only {α β : Type} {l : List α} {f : α → List β} {p : ℕ} {a : α}
    (hp : l[p]? = some a) (hothers : ∀ q b, l[q]? = some b → q ≠ p → f b = []) :
    l.flatMap f = f a := by
  induction l generalizing p with
  | nil => simp at hp
  | cons b l ih =>
    cases p with
    | zero =>
      obtain rfl : b = a := by simpa using hp
      have hnil : l.flatMap f = [] := by
        rw [List.flatMap_eq_nil_iff]
        intro x hx
        obtain ⟨q, hq⟩ := List.mem_iff_getElem?.mp hx
        exact hothers (q + 1) x (by simpa using hq) (by omega)
      simp [hnil]
    | succ p =>
      have hb : f b = [] := hothers 0 b rfl (by omega)
      have hrest : l.flatMap f = f a := by
        apply ih (p := p) (by simpa using hp)
        intro q c hq hne
        exact hothers (q + 1) c (by simpa using hq) (by omega)
      simp [hb, hrest]

theorem filter_eq_flatMap {α : Type} (P : α → Bool) (l : List α) :
    l.filter P = l.flatMap fun a => if P a then [a] else [] := by
  induction l with
  | nil => rfl
  | cons a l ih =>
    rw [List.filter_cons, List.flatMap_cons, ih]
    split_ifs <;> rfl

namespace PubSubManager

/-- The map leads to each open channel, and from a topic to a channel of it. -/
structure Registered (s : PubSubManager T) : Prop where
  ofOpen : ∀ p ch, s.channels[p]? = some ch → ch.isOpen → s.subChannelManagers ch.topicUrl = some p
  ofTopic : ∀ t p, s.subChannelManagers t = some p →
    ∃ ch, s.channels[p]? = some ch ∧ ch.topicUrl = t

omit [DecidableEq T] in
theorem openChannel_eq_some_iff {s : PubSubManager T} (h : s.Registered) {t : T} {p : ℕ} :
    s.openChannel t = some p ↔ ∃ ch, s.channels[p]? = some ch ∧ ch.topicUrl = t ∧ ch.isOpen := by
  unfold openChannel
  rw [Option.filter_eq_some_iff, Option.any_eq_true]
  constructor
  · rintro ⟨hmap, ch, hch, hopen⟩
    obtain ⟨ch', hch', htopic⟩ := h.ofTopic t p hmap
    obtain rfl : ch = ch' := by simpa [hch] using hch'
    exact ⟨ch, hch, htopic, hopen⟩
  · rintro ⟨ch, hch, rfl, hopen⟩
    exact ⟨h.ofOpen p ch hch hopen, ch, hch, hopen⟩

theorem listenersOn_of_open {s : PubSubManager T} (h : s.Registered) {p : ℕ}
    {ch : RosSubscriptionChannel T} (hch : s.channels[p]? = some ch) (hopen : ch.isOpen) :
    s.listenersOn ch.topicUrl = ch.listeners := by
  unfold listenersOn
  rw [flatMap_of_only hch, if_pos ⟨rfl, hopen⟩]
  intro q other hother hne
  rw [if_neg]
  rintro ⟨htopic, hother'⟩
  have hq := h.ofOpen q other hother hother'
  rw [htopic, h.ofOpen p ch hch hopen] at hq
  exact hne (Option.some.inj hq).symm

omit [DecidableEq T] in
theorem registered_modify {s : PubSubManager T} (h : s.Registered) {p : ℕ}
    {f : RosSubscriptionChannel T → RosSubscriptionChannel T} {clients : List (RosSubscriber)}
    (htopic : ∀ ch, (f ch).topicUrl = ch.topicUrl) (hopen : ∀ ch, (f ch).isOpen → ch.isOpen) :
    Registered { s with channels := s.channels.modify p f, clients := clients } := by
  constructor
  · intro q ch hch hisOpen
    simp only [List.getElem?_modify, Option.map_eq_map, Option.map_eq_some_iff] at hch
    obtain ⟨old, hold, rfl⟩ := hch
    split_ifs at hisOpen ⊢
    · rw [htopic]
      exact h.ofOpen q old hold (hopen old hisOpen)
    · exact h.ofOpen q old hold hisOpen
  · intro t q hmap
    obtain ⟨ch, hch, rfl⟩ := h.ofTopic t q hmap
    refine ⟨if p = q then f ch else ch, by simp [List.getElem?_modify, hch], ?_⟩
    split_ifs
    · exact htopic ch
    · rfl

theorem getSubscriberForTopic_of_some {s : PubSubManager T} {t : T} {p : ℕ}
    (hopen : s.openChannel t = some p) :
    s.getSubscriberForTopic t = { s with
      channels := s.channels.modify p (·.getSubscriber s.clients.length)
      clients := s.clients ++ [⟨p, 0⟩] } := by
  unfold getSubscriberForTopic
  rw [hopen]

theorem getSubscriberForTopic_of_none {s : PubSubManager T} {t : T}
    (hopen : s.openChannel t = none) :
    s.getSubscriberForTopic t =
      { channels := s.channels ++ [(RosSubscriptionChannel.new t).getSubscriber s.clients.length]
        clients := s.clients ++ [⟨s.channels.length, 0⟩]
        subChannelManagers :=
          Function.update s.subChannelManagers t (some s.channels.length) } := by
  unfold getSubscriberForTopic
  rw [hopen]

theorem registered_step {s : PubSubManager T} (h : s.Registered) (k : Call T) :
    (s.step k).Registered := by
  cases k with
  | getSubscriberForTopic t =>
    simp only [step]
    cases hopen : s.openChannel t with
    | some p =>
      rw [getSubscriberForTopic_of_some hopen]
      exact registered_modify h (fun _ => rfl) (fun _ h => h)
    | none =>
      rw [getSubscriberForTopic_of_none hopen]
      constructor
      · intro q ch hch hisOpen
        rw [getElem?_snoc] at hch
        split_ifs at hch with hq
        · obtain rfl := Option.some.inj hch
          simp [RosSubscriptionChannel.new, RosSubscriptionChannel.getSubscriber, hq]
        · have hne : ch.topicUrl ≠ t := by
            rintro rfl
            rw [(openChannel_eq_some_iff h).mpr ⟨ch, hch, rfl, hisOpen⟩] at hopen
            cases hopen
          change Function.update s.subChannelManagers t _ ch.topicUrl = some q
          rw [Function.update_of_ne hne]
          exact h.ofOpen q ch hch hisOpen
      · intro u q hmap
        change Function.update s.subChannelManagers t _ u = some q at hmap
        by_cases hu : u = t
        · subst hu
          obtain rfl : s.channels.length = q := by simpa using hmap
          exact ⟨_, List.getElem?_concat_length, rfl⟩
        · rw [Function.update_of_ne hu] at hmap
          obtain ⟨ch, hch, htopic⟩ := h.ofTopic u q hmap
          refine ⟨ch, ?_, htopic⟩
          obtain ⟨hlt, -⟩ := List.getElem?_eq_some_iff.mp hch
          rw [getElem?_snoc, if_neg (by omega), hch]
  | registerOnMessageCallback c =>
    simp only [step, registerOnMessageCallback]
    cases s.clients[c]? with
    | none => exact h
    | some x => exact registered_modify h (fun _ => rfl) (fun _ h => h)
  | close c =>
    simp only [step, close]
    cases s.clients[c]? with
    | none => exact h
    | some x =>
      apply registered_modify (f := (·.closeClient c)) h (fun _ => rfl)
      intro ch hopen
      simp only [RosSubscriptionChannel.closeClient, RosSubscriptionChannel.notifyClientShutdown,
        Bool.and_eq_true] at hopen
      exact hopen.1

end PubSubManager

/-! ## Shared channels against subscriptions of one's own -/

namespace PubSubManager

def parentOf (s : PubSubManager T) (c : ℕ) : Option ℕ := (s.clients[c]?).map (·.parent)

/-- The live clients of a channel. -/
def liveOn (s : PubSubManager T) (a : List (Subscription T)) (p : ℕ) : Finset ℕ :=
  (Finset.range a.length).filter fun c => s.parentOf c = some p ∧ Subscriptions.isLive a c

omit [DecidableEq T] in
@[simp] theorem mem_liveOn {s : PubSubManager T} {a : List (Subscription T)} {p c : ℕ} :
    c ∈ s.liveOn a p ↔ c < a.length ∧ s.parentOf c = some p ∧ Subscriptions.isLive a c = true := by
  simp [liveOn]

/-- The callback of this number of a client is one that its subscription would call. -/
def registers (a : List (Subscription T)) (c k : ℕ) : Bool :=
  (a[c]?).any fun y => y.live && decide (k < y.callbacks)

/-- The channels do for each client what a subscription of its own would do. -/
structure Shares (s : PubSubManager T) (a : List (Subscription T)) : Prop where
  registered : s.Registered
  length : s.clients.length = a.length
  same : ∀ (c : ℕ) x y, s.clients[c]? = some x → a[c]? = some y → x.callbacks = y.callbacks
  channel : ∀ (c : ℕ) x y, s.clients[c]? = some x → a[c]? = some y →
    ∃ ch, s.channels[x.parent]? = some ch ∧ ch.topicUrl = y.topicUrl ∧ ⟨c, none⟩ ∈ ch.listeners
  parent : ∀ (p : ℕ) ch, s.channels[p]? = some ch → ∀ l ∈ ch.listeners, s.parentOf l.client = some p
  called : ∀ (p : ℕ) ch, s.channels[p]? = some ch → ∀ c k, s.parentOf c = some p →
    ch.listeners.count ⟨c, some k⟩ = if registers a c k then 1 else 0
  counted : ∀ (p : ℕ) ch, s.channels[p]? = some ch →
    ch.numOpenChannels = (s.liveOn a p).card ∧ ch.isOpen = decide (0 < ch.numOpenChannels)

omit [DecidableEq T] in
theorem shares_new : Shares (newPubSubManager : PubSubManager T) [] := by
  constructor <;> simp [newPubSubManager]
  constructor <;> simp

variable {s s' : PubSubManager T} {a : List (Subscription T)}

omit [DecidableEq T] in
theorem parentOf_snoc {p : ℕ} (hclients : s'.clients = s.clients ++ [⟨p, 0⟩]) (c : ℕ) :
    s'.parentOf c = if c = s.clients.length then some p else s.parentOf c := by
  unfold parentOf
  rw [hclients, getElem?_snoc]
  split_ifs <;> rfl

omit [DecidableEq T] in
theorem registers_snoc (y : Subscription T) {c : ℕ} (hc : c ≠ a.length) (k : ℕ) :
    registers (a ++ [y]) c k = registers a c k := by
  unfold registers
  rw [getElem?_snoc, if_neg hc]

omit [DecidableEq T] in
/-- A new client is live on its channel, and on no other. -/
theorem liveOn_snoc (hn : s.clients.length = a.length) {p : ℕ}
    (hclients : s'.clients = s.clients ++ [⟨p, 0⟩]) (t : T) (q : ℕ) :
    s'.liveOn (a ++ [⟨t, true, 0⟩]) q =
      if q = p then insert a.length (s.liveOn a q) else s.liveOn a q := by
  ext c
  have hisLive : Subscriptions.isLive (a ++ [⟨t, true, 0⟩]) c =
      if c = a.length then true else Subscriptions.isLive a c := by
    unfold Subscriptions.isLive
    rw [getElem?_snoc]
    split_ifs <;> rfl
  rw [mem_liveOn, parentOf_snoc hclients, hn, hisLive]
  by_cases hc : c = a.length
  · have hfresh : s.parentOf a.length = none := by simp [parentOf, ← hn]
    by_cases hq : q = p
    · simp [hc, hq]
    · simp [hc, hq, hfresh, Ne.symm hq]
  · have hlt : c < a.length + 1 ↔ c < a.length := by omega
    by_cases hq : q = p <;> simp [hc, hlt, hq]

omit [DecidableEq T] in
/-- A client comes to a channel, which may itself be new. -/
theorem shares_newClient (h : Shares s a) {t : T} {p : ℕ} {b : RosSubscriptionChannel T}
    (hreg : s'.Registered) (hclients : s'.clients = s.clients ++ [⟨p, 0⟩])
    (hp : s'.channels[p]? = some (b.getSubscriber s.clients.length))
    (hothers : ∀ q, q ≠ p → s'.channels[q]? = s.channels[q]?)
    (htopic : b.topicUrl = t) (hopen : b.isOpen)
    (hold : ∀ ch, s.channels[p]? = some ch → ch = b)
    (hparent : ∀ l ∈ b.listeners, s.parentOf l.client = some p)
    (hcalled : ∀ c k, s.parentOf c = some p →
      b.listeners.count ⟨c, some k⟩ = if registers a c k then 1 else 0)
    (hcounted : b.numOpenChannels = (s.liveOn a p).card) :
    Shares s' (a ++ [⟨t, true, 0⟩]) := by
  have hn := h.length
  have hparentOf : ∀ c, s'.parentOf c = if c = a.length then some p else s.parentOf c := by
    intro c
    rw [parentOf_snoc hclients, hn]
  have hfresh : s.parentOf a.length = none := by
    simp [parentOf, ← hn]
  have hkeeps : ∀ c q, s.parentOf c = some q → s'.parentOf c = some q := by
    intro c q hc
    rw [hparentOf, if_neg, hc]
    rintro rfl
    simp [hfresh] at hc
  refine ⟨hreg, by simp [hclients, hn], ?_, ?_, ?_, ?_, ?_⟩
  · intro c x y hx hy
    rw [hclients, getElem?_snoc] at hx
    rw [getElem?_snoc, ← hn] at hy
    split_ifs at hx hy
    · obtain rfl := Option.some.inj hx
      obtain rfl := Option.some.inj hy
      simp
    · exact h.same c x y hx hy
  · intro c x y hx hy
    rw [hclients, getElem?_snoc] at hx
    rw [getElem?_snoc, ← hn] at hy
    split_ifs at hx hy with hc
    · obtain rfl := Option.some.inj hx
      obtain rfl := Option.some.inj hy
      exact ⟨_, hp, htopic, by simp [RosSubscriptionChannel.getSubscriber, hc]⟩
    · obtain ⟨ch, hch, hsame, hmem⟩ := h.channel c x y hx hy
      by_cases hxp : x.parent = p
      · obtain rfl := hold ch (by rw [← hxp, hch])
        exact ⟨ch.getSubscriber _, by rw [hxp, hp], hsame,
          by simp [RosSubscriptionChannel.getSubscriber, hmem]⟩
      · exact ⟨ch, by rw [hothers _ hxp, hch], hsame, hmem⟩
  · intro q ch hch l hl
    by_cases hq : q = p
    · subst hq
      obtain rfl : b.getSubscriber s.clients.length = ch := by simpa [hp] using hch
      simp only [RosSubscriptionChannel.getSubscriber, List.mem_append, List.mem_singleton] at hl
      rcases hl with hl | rfl
      · exact hkeeps _ _ (hparent l hl)
      · simp [hparentOf, hn]
    · rw [hothers q hq] at hch
      exact hkeeps _ _ (h.parent q ch hch l hl)
  · intro q ch hch c k hc
    rw [hparentOf] at hc
    split_ifs at hc with hnew
    · obtain rfl := Option.some.inj hc
      subst hnew
      obtain rfl : b.getSubscriber s.clients.length = ch := by simpa [hp] using hch
      have hno : ⟨a.length, some k⟩ ∉ b.listeners := by
        intro hmem
        simpa [hfresh] using hparent _ hmem
      simp [RosSubscriptionChannel.getSubscriber, List.count_append, registers,
        List.count_eq_zero_of_not_mem hno]
    · rw [registers_snoc _ hnew]
      by_cases hq : q = p
      · subst hq
        obtain rfl : b.getSubscriber s.clients.length = ch := by simpa [hp] using hch
        simp [RosSubscriptionChannel.getSubscriber, List.count_append, hcalled c k hc]
      · rw [hothers q hq] at hch
        exact h.called q ch hch c k hc
  · intro q ch hch
    rw [liveOn_snoc hn hclients]
    by_cases hq : q = p
    · subst hq
      obtain rfl : b.getSubscriber s.clients.length = ch := by simpa [hp] using hch
      have hnot : a.length ∉ s.liveOn a q := by simp
      rw [if_pos rfl, Finset.card_insert_of_notMem hnot]
      simp only [RosSubscriptionChannel.getSubscriber, hcounted, hopen]
      refine ⟨by push_cast; rfl, ?_⟩
      simp only [true_eq_decide_iff]
      omega
    · rw [hothers q hq] at hch
      rw [if_neg hq]
      exact h.counted q ch hch

theorem shares_getSubscriberForTopic (h : Shares s a) (t : T) :
    Shares (s.getSubscriberForTopic t) (a ++ [⟨t, true, 0⟩]) := by
  have hreg : (s.getSubscriberForTopic t).Registered :=
    registered_step h.registered (.getSubscriberForTopic t)
  cases hopen : s.openChannel t with
  | some p =>
    obtain ⟨ch, hch, htopic, hisOpen⟩ := (openChannel_eq_some_iff h.registered).mp hopen
    rw [getSubscriberForTopic_of_some hopen] at hreg ⊢
    apply shares_newClient h (b := ch) hreg rfl (by simp [hch]) _ htopic hisOpen
    · intro ch' hch'
      simpa [hch] using hch'.symm
    · exact h.parent p ch hch
    · exact h.called p ch hch
    · exact (h.counted p ch hch).1
    · intro q hq
      simp [Ne.symm hq]
  | none =>
    rw [getSubscriberForTopic_of_none hopen] at hreg ⊢
    have hfresh : s.channels[s.channels.length]? = none := by simp
    have hnone : ∀ c, s.parentOf c ≠ some s.channels.length := by
      intro c hc
      obtain ⟨x, hx, hparent⟩ := Option.map_eq_some_iff.mp hc
      obtain ⟨hlt, -⟩ := List.getElem?_eq_some_iff.mp hx
      obtain ⟨ch, hch, -⟩ := h.channel c x _ hx (List.getElem?_eq_getElem (h.length ▸ hlt))
      rw [hparent, hfresh] at hch
      cases hch
    apply shares_newClient h (b := RosSubscriptionChannel.new t) hreg rfl (by simp) _ rfl rfl
    · intro ch hch
      rw [hfresh] at hch
      cases hch
    · simp [RosSubscriptionChannel.new]
    · intro c k hc
      exact absurd hc (hnone c)
    · have hempty : s.liveOn a s.channels.length = ∅ := by
        ext c
        simp [hnone c]
      simp [hempty, RosSubscriptionChannel.new]
    · intro q hq
      rw [getElem?_snoc, if_neg hq]

omit [DecidableEq T] in
theorem exists_of_isLive (h : Shares s a) {c : ℕ} (hlive : Subscriptions.isLive a c) :
    ∃ x y ch, s.clients[c]? = some x ∧ a[c]? = some y ∧ y.live ∧
      s.channels[x.parent]? = some ch ∧ ch.topicUrl = y.topicUrl ∧ ⟨c, none⟩ ∈ ch.listeners := by
  obtain ⟨y, hy, hlive⟩ := (Option.any_eq_true _ _).mp hlive
  obtain ⟨hlt, -⟩ := List.getElem?_eq_some_iff.mp hy
  rw [← h.length] at hlt
  have hx := List.getElem?_eq_getElem hlt
  obtain ⟨ch, hch, htopic, hmem⟩ := h.channel c _ y hx hy
  exact ⟨_, y, ch, hx, hy, hlive, hch, htopic, hmem⟩

omit [DecidableEq T] in
theorem isOpen_of_isLive (h : Shares s a) {c : ℕ} (hlive : Subscriptions.isLive a c)
    {x : RosSubscriber} {ch : RosSubscriptionChannel T} (hx : s.clients[c]? = some x)
    (hch : s.channels[x.parent]? = some ch) : ch.isOpen := by
  obtain ⟨hcount, hopen⟩ := h.counted x.parent ch hch
  have hmem : c ∈ s.liveOn a x.parent := by
    obtain ⟨hlt, -⟩ := List.getElem?_eq_some_iff.mp hx
    rw [mem_liveOn, ← h.length]
    exact ⟨hlt, by simp [parentOf, hx], hlive⟩
  have hpos := Finset.card_pos.mpr ⟨c, hmem⟩
  rw [hopen, decide_eq_true_iff]
  omega

omit [DecidableEq T] in
/-- What a client does to its own channel: the listeners for last messages stay, and the other
channels and their clients are as before. -/
theorem shares_modify {a' : List (Subscription T)} (h : Shares s a) {p : ℕ}
    {f : RosSubscriptionChannel T → RosSubscriptionChannel T} (hreg : s'.Registered)
    (hlength : s'.clients.length = a'.length) (hparentOf : ∀ d, s'.parentOf d = s.parentOf d)
    (hchannels : s'.channels = s.channels.modify p f)
    (htopic : ∀ ch, (f ch).topicUrl = ch.topicUrl)
    (hkept : ∀ ch d, ⟨d, none⟩ ∈ ch.listeners → ⟨d, none⟩ ∈ (f ch).listeners)
    (hown : ∀ ch, ∀ l ∈ (f ch).listeners, l ∈ ch.listeners ∨ s.parentOf l.client = some p)
    (htopics : ∀ (d : ℕ) y', a'[d]? = some y' → ∃ y, a[d]? = some y ∧ y.topicUrl = y'.topicUrl)
    (hsame : ∀ (d : ℕ) x y, s'.clients[d]? = some x → a'[d]? = some y →
      x.callbacks = y.callbacks)
    (hcalled : ∀ ch, s.channels[p]? = some ch → ∀ d k, s.parentOf d = some p →
      (f ch).listeners.count ⟨d, some k⟩ = if registers a' d k then 1 else 0)
    (hcalledElse : ∀ d k, s.parentOf d ≠ some p → registers a' d k = registers a d k)
    (hcounted : ∀ ch, s.channels[p]? = some ch →
      (f ch).numOpenChannels = (s'.liveOn a' p).card ∧
        (f ch).isOpen = decide (0 < (f ch).numOpenChannels))
    (hcountedElse : ∀ q, q ≠ p → s'.liveOn a' q = s.liveOn a q) : Shares s' a' := by
  have hlookup : ∀ q, s'.channels[q]? = (s.channels[q]?).map fun ch => if p = q then f ch else ch := by
    intro q
    rw [hchannels, List.getElem?_modify, Option.map_eq_map]
  refine ⟨hreg, hlength, hsame, ?_, ?_, ?_, ?_⟩
  · intro d x y hx hy
    obtain ⟨y0, hy0, htopic0⟩ := htopics d y hy
    have hparent := hparentOf d
    simp only [parentOf, hx, Option.map_some] at hparent
    obtain ⟨x0, hx0, hparent0⟩ := Option.map_eq_some_iff.mp hparent.symm
    obtain ⟨ch, hch, htop, hmem⟩ := h.channel d x0 y0 hx0 hy0
    rw [hparent0] at hch
    refine ⟨if p = x.parent then f ch else ch, by rw [hlookup, hch]; rfl, ?_, ?_⟩
    · split_ifs
      · rw [htopic, htop, htopic0]
      · rw [htop, htopic0]
    · split_ifs
      · exact hkept ch d hmem
      · exact hmem
  · intro q ch hch l hl
    rw [hlookup] at hch
    obtain ⟨old, hold, rfl⟩ := Option.map_eq_some_iff.mp hch
    rw [hparentOf]
    split_ifs at hl with hq
    · subst hq
      rcases hown old l hl with hmem | hparent
      · exact h.parent p old hold l hmem
      · exact hparent
    · exact h.parent q old hold l hl
  · intro q ch hch d k hd
    rw [hlookup] at hch
    obtain ⟨old, hold, rfl⟩ := Option.map_eq_some_iff.mp hch
    rw [hparentOf] at hd
    by_cases hq : p = q
    · subst hq
      rw [if_pos rfl]
      exact hcalled old hold d k hd
    · have hne : s.parentOf d ≠ some p := by
        rw [hd]
        simpa [eq_comm] using hq
      rw [if_neg hq, hcalledElse d k hne]
      exact h.called q old hold d k hd
  · intro q ch hch
    rw [hlookup] at hch
    obtain ⟨old, hold, rfl⟩ := Option.map_eq_some_iff.mp hch
    split_ifs with hq
    · subst hq
      exact hcounted old hold
    · rw [hcountedElse q (Ne.symm hq)]
      exact h.counted q old hold

omit [DecidableEq T] in
/-- What does not change whether clients are live does not change which are. -/
theorem liveOn_congr {a' : List (Subscription T)} (hlength : a'.length = a.length)
    (hparentOf : ∀ d, s'.parentOf d = s.parentOf d)
    (hlive : ∀ d, Subscriptions.isLive a' d = Subscriptions.isLive a d) (q : ℕ) :
    s'.liveOn a' q = s.liveOn a q := by
  ext d
  rw [mem_liveOn, mem_liveOn, hlength, hparentOf, hlive]

omit [DecidableEq T] in
theorem registers_modify (a : List (Subscription T)) (c : ℕ)
    (g : Subscription T → Subscription T) {d : ℕ} (hd : d ≠ c) (k : ℕ) :
    registers (a.modify c g) d k = registers a d k := by
  unfold registers
  simp [Ne.symm hd]

omit [DecidableEq T] in
theorem topics_modify {c : ℕ} {g : Subscription T → Subscription T}
    (hg : ∀ y, (g y).topicUrl = y.topicUrl) (d : ℕ) (y' : Subscription T)
    (hy' : (a.modify c g)[d]? = some y') : ∃ y, a[d]? = some y ∧ y.topicUrl = y'.topicUrl := by
  rw [List.getElem?_modify, Option.map_eq_map] at hy'
  obtain ⟨y, hy, rfl⟩ := Option.map_eq_some_iff.mp hy'
  refine ⟨y, hy, ?_⟩
  split_ifs
  · exact (hg y).symm
  · rfl

theorem shares_registerOnMessageCallback (h : Shares s a) {c : ℕ}
    (hlive : Subscriptions.isLive a c) :
    Shares (s.registerOnMessageCallback c)
      (a.modify c fun y => { y with callbacks := y.callbacks + 1 }) := by
  have hreg : (s.registerOnMessageCallback c).Registered :=
    registered_step h.registered (.registerOnMessageCallback c)
  obtain ⟨x, y, ch, hx, hy, hylive, hch, -⟩ := exists_of_isLive h hlive
  have hcallbacks := h.same c x y hx hy
  have hc : s.parentOf c = some x.parent := by simp [parentOf, hx]
  have heq : s.registerOnMessageCallback c = { s with
      channels := s.channels.modify x.parent (·.addMessageListener ⟨c, some x.callbacks⟩)
      clients := s.clients.modify c fun x => { x with callbacks := x.callbacks + 1 } } := by
    unfold registerOnMessageCallback
    rw [hx]
  have hparentOf : ∀ d, (s.registerOnMessageCallback c).parentOf d = s.parentOf d := by
    intro d
    rw [heq]
    unfold parentOf
    rw [List.getElem?_modify]
    cases s.clients[d]? with
    | none => rfl
    | some z =>
      simp only [Option.map_eq_map, Option.map_some]
      split_ifs <;> rfl
  have hisLive : ∀ d, Subscriptions.isLive
      (a.modify c fun y => { y with callbacks := y.callbacks + 1 }) d =
        Subscriptions.isLive a d := by
    intro d
    unfold Subscriptions.isLive
    rw [List.getElem?_modify]
    cases a[d]? with
    | none => rfl
    | some z =>
      simp only [Option.map_eq_map, Option.map_some, Option.any_some]
      split_ifs <;> rfl
  have hliveOn := liveOn_congr (a := a) (List.length_modify ..) hparentOf hisLive
  apply shares_modify (f := (·.addMessageListener ⟨c, some x.callbacks⟩)) h hreg _ hparentOf
    (by rw [heq]) (fun _ => rfl)
  · intro ch d hd
    simp [RosSubscriptionChannel.addMessageListener, hd]
  · intro ch l hl
    simp only [RosSubscriptionChannel.addMessageListener, List.mem_append,
      List.mem_singleton] at hl
    rcases hl with hl | rfl
    · exact Or.inl hl
    · exact Or.inr hc
  · exact topics_modify fun _ => rfl
  · intro d x' y' hx' hy'
    rw [heq] at hx'
    simp only [List.getElem?_modify, Option.map_eq_map, Option.map_eq_some_iff] at hx' hy'
    obtain ⟨x0, hx0, rfl⟩ := hx'
    obtain ⟨y0, hy0, rfl⟩ := hy'
    have hsame := h.same d x0 y0 hx0 hy0
    split_ifs
    · simp [hsame]
    · exact hsame
  · -- The number of the new callback is the one that no listener has yet.
    intro ch0 hch0 d k hd
    have hbefore := h.called x.parent ch0 hch0 d k hd
    simp only [RosSubscriptionChannel.addMessageListener, List.count_append, hbefore]
    by_cases hdc : d = c
    · subst hdc
      by_cases hk : k = x.callbacks
      · simp [registers, hy, hylive, hk, hcallbacks]
      · have hlt : k < y.callbacks + 1 ↔ k < y.callbacks := by omega
        simp [registers, hy, hylive, hlt, Ne.symm hk]
    · rw [registers_modify a c _ hdc]
      simp [Ne.symm hdc]
  · intro d k hd
    apply registers_modify
    rintro rfl
    exact hd hc
  · intro ch0 hch0
    rw [hliveOn]
    exact h.counted x.parent ch0 hch0
  · intro q _
    exact hliveOn q
  · rw [heq]
    simp [h.length]

theorem shares_close (h : Shares s a) {c : ℕ} (hlive : Subscriptions.isLive a c) :
    Shares (s.close c) (a.modify c fun y => { y with live := false }) := by
  have hreg : (s.close c).Registered := registered_step h.registered (.close c)
  obtain ⟨x, y, ch, hx, hy, hylive, hch, -⟩ := exists_of_isLive h hlive
  have hopen := isOpen_of_isLive h hlive hx hch
  have hc : s.parentOf c = some x.parent := by simp [parentOf, hx]
  have heq : s.close c =
      { s with channels := s.channels.modify x.parent (·.closeClient c) } := by
    unfold close
    rw [hx]
  have hparentOf : ∀ d, (s.close c).parentOf d = s.parentOf d := by
    intro d
    rw [heq]
    rfl
  have hisLive : ∀ d, Subscriptions.isLive (a.modify c fun y => { y with live := false }) d =
      if d = c then false else Subscriptions.isLive a d := by
    intro d
    by_cases hd : d = c
    · subst hd
      simp [Subscriptions.isLive, hy]
    · simp [Subscriptions.isLive, hd, Ne.symm hd]
  have hliveOn : ∀ q, (s.close c).liveOn (a.modify c fun y => { y with live := false }) q =
      (s.liveOn a q).erase c := by
    intro q
    ext d
    rw [Finset.mem_erase, mem_liveOn, mem_liveOn, List.length_modify, hparentOf, hisLive]
    by_cases hd : d = c <;> simp [hd]
  apply shares_modify (f := (·.closeClient c)) h hreg _ hparentOf (by rw [heq]) (fun _ => rfl)
  · intro ch d hd
    simp [RosSubscriptionChannel.closeClient, RosSubscriptionChannel.notifyClientShutdown, hd]
  · intro ch l hl
    left
    exact (List.mem_filter.mp hl).1
  · exact topics_modify fun _ => rfl
  · intro d x' y' hx' hy'
    rw [heq] at hx'
    simp only [List.getElem?_modify, Option.map_eq_map, Option.map_eq_some_iff] at hy'
    obtain ⟨y0, hy0, rfl⟩ := hy'
    have hsame := h.same d x' y0 hx' hy0
    split_ifs <;> exact hsame
  · intro ch0 hch0 d k hd
    have hbefore := h.called x.parent ch0 hch0 d k hd
    by_cases hdc : d = c
    · subst hdc
      have hgone : registers (a.modify d fun y => { y with live := false }) d k = false := by
        simp [registers, hy]
      rw [hgone]
      apply List.count_eq_zero_of_not_mem
      simp [RosSubscriptionChannel.closeClient, RosSubscriptionChannel.notifyClientShutdown]
    · rw [registers_modify a c _ hdc, ← hbefore]
      apply List.count_filter
      simp [hdc]
  · intro d k hd
    apply registers_modify
    rintro rfl
    exact hd hc
  · -- One live client less; the channel stays open just when others are left.
    intro ch0 hch0
    obtain rfl : ch = ch0 := by simpa [hch] using hch0
    obtain ⟨hcount, -⟩ := h.counted x.parent ch hch
    have hmem : c ∈ s.liveOn a x.parent := by
      obtain ⟨hlt, -⟩ := List.getElem?_eq_some_iff.mp hx
      rw [mem_liveOn, ← h.length]
      exact ⟨hlt, hc, hlive⟩
    have hpos := Finset.card_pos.mpr ⟨c, hmem⟩
    rw [hliveOn, Finset.card_erase_of_mem hmem]
    simp only [RosSubscriptionChannel.closeClient, RosSubscriptionChannel.notifyClientShutdown,
      hopen, Bool.true_and, and_true]
    omega
  · intro q hq
    rw [hliveOn]
    apply Finset.erase_eq_of_notMem
    rw [mem_liveOn, hc]
    rintro ⟨-, hparent, -⟩
    exact hq (Option.some.inj hparent).symm
  · rw [heq]
    simp [h.length]

theorem mem_listenersOn {l : Listener} {t : T} (hl : l ∈ s.listenersOn t) :
    ∃ (p : ℕ) (ch : RosSubscriptionChannel T), s.channels[p]? = some ch ∧ ch.topicUrl = t ∧
      ch.isOpen ∧ l ∈ ch.listeners := by
  obtain ⟨ch, hch, hl⟩ := List.mem_flatMap.mp hl
  obtain ⟨p, hp⟩ := List.mem_iff_getElem?.mp hch
  split_ifs at hl with h
  · exact ⟨p, ch, hp, h.1, h.2, hl⟩
  · cases hl

theorem mem_listenersOn_iff (h : Shares s a) {c : ℕ} {y : Subscription T} (hy : a[c]? = some y)
    (hylive : y.live) (t : T) : ⟨c, none⟩ ∈ s.listenersOn t ↔ y.topicUrl = t := by
  have hlive : Subscriptions.isLive a c := by simp [Subscriptions.isLive, hy, hylive]
  obtain ⟨x, y', ch, hx, hy', -, hch, htopic, hmem⟩ := exists_of_isLive h hlive
  obtain rfl : y = y' := by simpa [hy] using hy'
  constructor
  · intro hl
    obtain ⟨p, ch', hch', ht, -, hmem'⟩ := mem_listenersOn hl
    have hp := h.parent p ch' hch' _ hmem'
    obtain rfl : x.parent = p := by simpa [parentOf, hx] using hp
    obtain rfl : ch = ch' := by simpa [hch] using hch'
    rw [← htopic, ht]
  · rintro rfl
    rw [← htopic, listenersOn_of_open h.registered hch (isOpen_of_isLive h hlive hx hch)]
    exact hmem

/-- A callback is at the listeners of a topic once just when it is one for the topic. -/
theorem count_listenersOn (h : Shares s a) (t : T) (c k : ℕ) :
    (s.listenersOn t).count ⟨c, some k⟩ = if (a[c]?).any (·.Hears t k) then 1 else 0 := by
  by_cases hmem : ⟨c, some k⟩ ∈ s.listenersOn t
  · obtain ⟨p, ch, hch, ht, hopen, hl⟩ := mem_listenersOn hmem
    subst ht
    have hc := h.parent p ch hch _ hl
    have hcount := h.called p ch hch c k hc
    rw [listenersOn_of_open h.registered hch hopen, hcount]
    have hpos := List.count_pos_iff.mpr hl
    have hregisters : registers a c k = true := by
      by_contra hno
      rw [hcount, if_neg hno] at hpos
      omega
    obtain ⟨y, hy, hylive⟩ := (Option.any_eq_true _ _).mp hregisters
    obtain ⟨x, hx, rfl⟩ := Option.map_eq_some_iff.mp hc
    obtain ⟨ch', hch', htopic, -⟩ := h.channel c x y hx hy
    obtain rfl : ch = ch' := by simpa [hch] using hch'
    simp only [Bool.and_eq_true, decide_eq_true_eq] at hylive
    simp [hregisters, hy, Subscription.Hears, htopic, hylive.1, hylive.2]
  · have hno : ¬ (a[c]?).any (·.Hears t k) := by
      intro hhears
      obtain ⟨y, hy, hhears⟩ := (Option.any_eq_true _ _).mp hhears
      simp only [Subscription.Hears, Bool.and_eq_true, decide_eq_true_eq] at hhears
      obtain ⟨⟨hylive, rfl⟩, hk⟩ := hhears
      have hlive : Subscriptions.isLive a c := by simp [Subscriptions.isLive, hy, hylive]
      obtain ⟨x, y', ch, hx, hy', -, hch, htopic, -⟩ := exists_of_isLive h hlive
      obtain rfl : y = y' := by simpa [hy] using hy'
      apply hmem
      rw [← htopic, listenersOn_of_open h.registered hch (isOpen_of_isLive h hlive hx hch),
        ← List.count_pos_iff, h.called x.parent ch hch c k (by simp [parentOf, hx])]
      simp [registers, hy, hylive, hk]
    rw [List.count_eq_zero_of_not_mem hmem, if_neg hno]

/-! ## Runs -/

/-- The step lemma: a call of clients that are live keeps the two in step. -/
theorem shares_step (h : Shares s a) (e : Call T) (hproper : Subscriptions.Proper a e) :
    Shares (s.step e) (Subscriptions.step a e) := by
  cases e with
  | getSubscriberForTopic t => exact shares_getSubscriberForTopic h t
  | registerOnMessageCallback c => exact shares_registerOnMessageCallback h hproper
  | close c => exact shares_close h hproper

/-- The run lemma. -/
theorem shares_run {calls : List (Call T)}
    (hproper : EachCall Subscriptions.step Subscriptions.Proper [] calls) :
    Shares (run step newPubSubManager calls) (run Subscriptions.step [] calls) :=
  run_simulates (R := Shares) (fun _ _ e h hok => shares_step h e hok) shares_new hproper

end PubSubManager

/-- As long as no client does anything once it has closed, the listeners on a topic are those that
subscriptions of the clients' own would have: the callbacks of the live clients of the topic, each
of them once. And a live client listens for its last message on its own topic alone. -/
theorem each_callback_is_registered_on_its_topic {calls : List (Call T)}
    (hproper : EachCall Subscriptions.step Subscriptions.Proper [] calls) (t : T) :
    (∀ c k, ((run PubSubManager.step newPubSubManager calls).listenersOn t).count ⟨c, some k⟩ =
      if ((run Subscriptions.step [] calls)[c]?).any (·.Hears t k) then 1 else 0) ∧
    ∀ (c : ℕ) y, (run Subscriptions.step [] calls)[c]? = some y → y.live →
      (⟨c, none⟩ ∈ (run PubSubManager.step newPubSubManager calls).listenersOn t ↔
        y.topicUrl = t) := by
  have h := PubSubManager.shares_run hproper
  exact ⟨PubSubManager.count_listenersOn h t,
    fun c y hy hylive => PubSubManager.mem_listenersOn_iff h hy hylive t⟩

/-- Two clients of topic 7 and one of topic 8; the first has gone, and the second registers another
callback. -/
def threeClients : List (Call ℕ) :=
  [.getSubscriberForTopic 7, .registerOnMessageCallback 0, .getSubscriberForTopic 7,
    .registerOnMessageCallback 1, .getSubscriberForTopic 8, .close 0, .registerOnMessageCallback 1]

theorem the_second_client_has_both_callbacks :
    ((run PubSubManager.step newPubSubManager threeClients).listenersOn 7).count ⟨0, some 0⟩ = 0 ∧
      ((run PubSubManager.step newPubSubManager threeClients).listenersOn 7).count ⟨1, some 0⟩ = 1 ∧
      ((run PubSubManager.step newPubSubManager threeClients).listenersOn 7).count
        ⟨1, some 1⟩ = 1 := by
  have hcounts := (@each_callback_is_registered_on_its_topic _ _ threeClients (by decide) 7).1
  rw [hcounts 0 0, hcounts 1 0, hcounts 1 1]
  decide

/-- In such a run the node holds one open subscription to a topic while some client of the topic
is live, and none else. -/
theorem a_topic_is_subscribed_while_a_client_is_live {calls : List (Call T)}
    (hproper : EachCall Subscriptions.step Subscriptions.Proper [] calls) (t : T) :
    ((run PubSubManager.step newPubSubManager calls).channels.filter fun ch =>
        ch.topicUrl = t ∧ ch.isOpen).length =
      if (run Subscriptions.step [] calls).any (fun y => y.topicUrl = t ∧ y.live)
      then 1 else 0 := by
  have h := PubSubManager.shares_run hproper
  set s := run PubSubManager.step newPubSubManager calls
  split_ifs with hlive
  · simp only [List.any_eq_true, decide_eq_true_eq] at hlive
    obtain ⟨y, hmem, rfl, hylive⟩ := hlive
    obtain ⟨c, hy⟩ := List.mem_iff_getElem?.mp hmem
    have hisLive : Subscriptions.isLive (run Subscriptions.step [] calls) c := by
      simp [Subscriptions.isLive, hy, hylive]
    obtain ⟨x, y', ch, hx, hy', -, hch, htopic, -⟩ := PubSubManager.exists_of_isLive h hisLive
    obtain rfl : y = y' := by simpa [hy] using hy'
    have hopen := PubSubManager.isOpen_of_isLive h hisLive hx hch
    rw [filter_eq_flatMap, flatMap_of_only hch]
    · simp [htopic, hopen]
    · -- The map leads to one channel of the topic.
      intro q other hother hne
      rw [if_neg]
      simp only [decide_eq_true_eq]
      rintro ⟨hothertopic, hotheropen⟩
      have hq := h.registered.ofOpen q other hother hotheropen
      rw [hothertopic, ← htopic, h.registered.ofOpen x.parent ch hch hopen] at hq
      exact hne (Option.some.inj hq).symm
  · rw [List.length_eq_zero_iff, List.filter_eq_nil_iff]
    intro ch hmem
    simp only [decide_eq_true_eq]
    rintro ⟨htopic, hopen⟩
    obtain ⟨p, hch⟩ := List.mem_iff_getElem?.mp hmem
    obtain ⟨hcount, hisOpen⟩ := h.counted p ch hch
    rw [hopen, eq_comm, decide_eq_true_iff, hcount] at hisOpen
    obtain ⟨c, hc⟩ := Finset.card_pos.mp (by exact_mod_cast hisOpen)
    obtain ⟨-, hparent, hisLive⟩ := PubSubManager.mem_liveOn.mp hc
    obtain ⟨x, y, ch', hx, hy, hylive, hch', htop, -⟩ := PubSubManager.exists_of_isLive h hisLive
    obtain rfl : x.parent = p := by simpa [PubSubManager.parentOf, hx] using hparent
    obtain rfl : ch = ch' := by simpa [hch] using hch'
    apply hlive
    simp only [List.any_eq_true, decide_eq_true_eq]
    exact ⟨y, List.mem_of_getElem? hy, by rw [← htop, htopic], hylive⟩

theorem one_subscription_is_left :
    ((run PubSubManager.step newPubSubManager threeClients).channels.filter fun ch =>
      ch.topicUrl = 8 ∧ ch.isOpen).length = 1 := by
  rw [a_topic_is_subscribed_while_a_client_is_live (by decide)]
  decide

end carma.pub_sub
