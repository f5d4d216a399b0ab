-- The history of twists of `sensor_fusion`: a buffer for each frame that keeps the last
-- seconds of twists, and a value between two of them for a time in between. The entries stay
-- in order and within the period, and a query finds the two around it.
import Mathlib.Data.Set.Function
import Mathlib.Algebra.Order.Field.Rat
import Mathlib.Tactic.LinearCombination
import Mathlib.Tactic.Linarith

namespace carma.twist_history_buffer

/-- The stamps of ROS. What the buffer keeps of one is a `ptime`: whole microseconds in
64 bits, never before the epoch. -/
class RosTime (Time : Type) where
  toBoost : Time → ℤ
  fromBoost : ℤ → Time
  toBoost_bounds : ∀ time, 0 ≤ toBoost time ∧ toBoost time < 2 ^ 63

open RosTime

structure ExtrapolationException where
  what : String
deriving DecidableEq, Repr

def intoPast : ExtrapolationException := ⟨"Lookup would require extrapolation into past"⟩

def intoFuture : ExtrapolationException := ⟨"Lookup would require extrapolation into future"⟩

/-! ## One history -/

/-- `LinearHistoryBuffer<T>`: values with the microsecond of each, the oldest in front. -/
structure LinearHistoryBuffer (T : Type) where
  history_buffer : List (ℤ × T)
  buffer_period_length : ℤ

section model

variable {T : Type}

/-- The loop that pops the front as long as it is before `limit`. There is no front of an
empty deque. -/
def popBefore (limit : ℤ) : List (ℤ × T) → Option (List (ℤ × T))
  | [] => none
  | e :: es => if e.1 < limit then popBefore limit es else some (e :: es)

/-- What is left for an entry at `t` to be put behind: nothing, when the last entry is later. -/
def clearedFor (t : ℤ) (history : List (ℤ × T)) : List (ℤ × T) :=
  match history.getLast? with
  | some back => if t < back.1 then [] else history
  | none => history

def LinearHistoryBuffer.addEntry (b : LinearHistoryBuffer T) (e : T) (t : ℤ) :
    Option (LinearHistoryBuffer T) :=
  (popBefore (t - b.buffer_period_length) (clearedFor t b.history_buffer ++ [(t, e)])).map
    fun history => { b with history_buffer := history }

/-- The search of `getLerp` from one entry on, with the entry before it, and what is made of
the place where it stops. -/
def lerpAt (lerp : T → T → ℤ → T) (t : ℤ) :
    Option (ℤ × T) → List (ℤ × T) → Except ExtrapolationException (Option T)
  | _, [] => .error intoFuture
  | last, it :: rest =>
    if it.1 < t then
      if it.1 = t then .ok (some it.2) else lerpAt lerp t (some it) rest
    else
      match last with
      | none => .ok (some it.2)
      | some last => .ok (some (lerp last.2 it.2 (t - last.1)))

/-- `getLerp`: `none` where it returns `false`. -/
def LinearHistoryBuffer.getLerp (lerp : T → T → ℤ → T) (b : LinearHistoryBuffer T) (t : ℤ) :
    Except ExtrapolationException (Option T) :=
  match b.history_buffer with
  | [] => .ok none
  | front :: rest =>
    if t < front.1 then .error intoPast else lerpAt lerp t none (front :: rest)

/-! ## The twists -/

structure Vector3 (K : Type) where
  x : K
  y : K
  z : K
deriving DecidableEq, Repr

structure Twist (K : Type) where
  linear : Vector3 K
  angular : Vector3 K
deriving DecidableEq, Repr

structure Header (Time : Type) where
  stamp : Time
  frame_id : String
deriving DecidableEq, Repr

structure TwistStamped (Time K : Type) where
  header : Header Time
  twist : Twist K
deriving DecidableEq, Repr

section Arithmetic

variable {K : Type} [Field K]

/-- `a + (b - a) * part`. -/
def Vector3.along (a b : Vector3 K) (part : K) : Vector3 K where
  x := a.x + (b.x - a.x) * part
  y := a.y + (b.y - a.y) * part
  z := a.z + (b.z - a.z) * part

def Twist.along (a b : Twist K) (part : K) : Twist K where
  linear := a.linear.along b.linear part
  angular := a.angular.along b.angular part

/-- `dt.total_microseconds() / 1000000UL`: a quotient of unsigned 64 bit numbers. -/
def delta_t (dt : ℤ) : ℕ := (dt % 2 ^ 64).toNat / 1000000

/-- `lerp<geometry_msgs::TwistStamped>`. -/
def lerp {Time : Type} [RosTime Time] (t0 t1 : TwistStamped Time K) (dt : ℤ) :
    TwistStamped Time K where
  header := ⟨fromBoost (toBoost t0.header.stamp + dt), t0.header.frame_id⟩
  twist := t0.twist.along t1.twist ((delta_t dt : ℕ) : K)

end Arithmetic

/-- `TwistHistoryBuffer`, with the length of time that it keeps in microseconds. -/
structure TwistHistoryBuffer (Time K : Type) where
  q_ : String → Option (LinearHistoryBuffer (TwistStamped Time K))
  q_duration_length_ : ℤ

variable {Time K : Type} [RosTime Time]

def TwistHistoryBuffer.new (length : ℤ) : TwistHistoryBuffer Time K := ⟨fun _ => none, length⟩

def TwistHistoryBuffer.addTwist (b : TwistHistoryBuffer Time K) (twist : TwistStamped Time K) :
    Option (TwistHistoryBuffer Time K) :=
  let q := (b.q_ twist.header.frame_id).getD ⟨[], b.q_duration_length_⟩
  (q.addEntry twist (toBoost twist.header.stamp)).map fun q =>
    { b with q_ := Function.update b.q_ twist.header.frame_id (some q) }

def TwistHistoryBuffer.getTwist [Field K] (b : TwistHistoryBuffer Time K) (frame_id : String)
    (time : Time) : Except ExtrapolationException (Option (TwistStamped Time K)) :=
  match b.q_ frame_id with
  | none => .ok none
  | some q => q.getLerp lerp (toBoost time)

def TwistHistoryBuffer.getLatest (b : TwistHistoryBuffer Time K) (frame_id : String) :
    Option (TwistStamped Time K) :=
  match b.q_ frame_id with
  | none => none
  | some q => q.history_buffer.getLast?.map Prod.snd

/-- A run of `addTwist`. -/
def addTwists (b : TwistHistoryBuffer Time K) (twists : List (TwistStamped Time K)) :
    Option (TwistHistoryBuffer Time K) :=
  twists.foldlM TwistHistoryBuffer.addTwist b

end model

/-! ## The entries of one history -/

section laws

variable {T : Type}

/-- The entries are in order and none is further than `period` before the last one. -/
structure Fresh (period : ℤ) (history : List (ℤ × T)) : Prop where
  ordered : history.Pairwise (fun e f => e.1 ≤ f.1)
  recent : ∀ e ∈ history, ∀ newest ∈ history.getLast?, newest.1 - period ≤ e.1

theorem fresh_nil (period : ℤ) : Fresh period ([] : List (ℤ × T)) where
  ordered := List.Pairwise.nil
  recent := by simp

/-- An entry that is not before `limit` ends the popping. -/
theorem popBefore_some {limit : ℤ} {history : List (ℤ × T)} {e : ℤ × T} (he : e ∈ history)
    (hlimit : limit ≤ e.1) :
    popBefore limit history = some (history.dropWhile fun e => decide (e.1 < limit)) := by
  induction history with
  | nil => simp at he
  | cons first rest ih =>
    unfold popBefore
    by_cases hlt : first.1 < limit
    · have hmem : e ∈ rest := by
        rcases List.mem_cons.mp he with rfl | he
        · exact absurd hlimit (not_le.mpr hlt)
        · exact he
      simp [hlt, ih hmem]
    · simp [hlt]

theorem clearedFor_sublist (t : ℤ) (history : List (ℤ × T)) :
    (clearedFor t history).Sublist history := by
  unfold clearedFor
  cases history.getLast? with
  | none => simp
  | some back => simp only; split <;> simp

/-- In order, every entry that is left for `t` is not after it. -/
theorem clearedFor_le {t : ℤ} {history : List (ℤ × T)}
    (h : history.Pairwise (fun e f => e.1 ≤ f.1)) : ∀ e ∈ clearedFor t history, e.1 ≤ t := by
  intro e he
  rcases List.eq_nil_or_concat history with rfl | ⟨before, back, rfl⟩
  · simp [clearedFor] at he
  · unfold clearedFor at he
    rw [List.concat_eq_append] at h he
    simp only [List.getLast?_concat] at he
    split at he
    · simp at he
    · rename_i hback
      rw [List.pairwise_append] at h
      rcases List.mem_append.mp he with he | he
      · have := h.2.2 e he back (by simp)
        linarith
      · simp only [List.mem_singleton] at he
        subst he
        exact not_lt.mp hback

/-- The entries that an `addEntry` leaves: those that are left for it, less the ones that
are too old, and the entry itself. -/
theorem addEntry_eq {b : LinearHistoryBuffer T} (hperiod : 0 ≤ b.buffer_period_length) (e : T)
    (t : ℤ) :
    b.addEntry e t = some { b with
      history_buffer := (clearedFor t b.history_buffer ++ [(t, e)]).dropWhile
        fun e => decide (e.1 < t - b.buffer_period_length) } := by
  unfold LinearHistoryBuffer.addEntry
  have hlast : (t, e) ∈ clearedFor t b.history_buffer ++ [(t, e)] := by simp
  rw [popBefore_some hlast (by simp only; linarith)]
  rfl

/-- What is left of ordered entries when the ones before `limit` are popped. -/
theorem le_of_mem_dropWhile (limit : ℤ) {history : List (ℤ × T)}
    (h : history.Pairwise (fun e f => e.1 ≤ f.1)) :
    ∀ e ∈ history.dropWhile (fun e => decide (e.1 < limit)), limit ≤ e.1 := by
  induction history with
  | nil => simp
  | cons first rest ih =>
    rw [List.pairwise_cons] at h
    intro e he
    by_cases hlt : first.1 < limit
    · apply ih h.2
      simpa [hlt] using he
    · rw [List.dropWhile_cons_of_neg (by simpa using hlt)] at he
      rcases List.mem_cons.mp he with rfl | he
      · exact not_lt.mp hlt
      · exact (not_lt.mp hlt).trans (h.1 e he)

theorem dropWhile_concat {limit : ℤ} (history : List (ℤ × T)) {newest : ℤ × T}
    (h : limit ≤ newest.1) :
    (history ++ [newest]).dropWhile (fun e => decide (e.1 < limit)) =
      history.dropWhile (fun e => decide (e.1 < limit)) ++ [newest] := by
  induction history with
  | nil => simp [not_lt.mpr h]
  | cons first rest ih =>
    by_cases hlt : first.1 < limit
    · simp [hlt, ih]
    · simp [hlt]

theorem addEntry_fresh {b : LinearHistoryBuffer T} (hperiod : 0 ≤ b.buffer_period_length)
    (h : Fresh b.buffer_period_length b.history_buffer) (e : T) (t : ℤ) :
    ∃ kept, kept.Sublist b.history_buffer ∧
      b.addEntry e t = some { b with history_buffer := kept ++ [(t, e)] } ∧
      Fresh b.buffer_period_length (kept ++ [(t, e)]) := by
  have hcleared := clearedFor_sublist t b.history_buffer
  have hordered : (clearedFor t b.history_buffer ++ [(t, e)]).Pairwise
      (fun e f => e.1 ≤ f.1) := by
    rw [List.pairwise_append]
    refine ⟨h.ordered.sublist hcleared, by simp, ?_⟩
    intro f hf g hg
    simp only [List.mem_singleton] at hg
    subst hg
    exact clearedFor_le h.ordered f hf
  have hlimit : t - b.buffer_period_length ≤ ((t, e) : ℤ × T).1 := by simp only; linarith
  have hrecent := le_of_mem_dropWhile (t - b.buffer_period_length) hordered
  have hsub := hordered.sublist
    (List.dropWhile_sublist fun e => decide (e.1 < t - b.buffer_period_length))
  rw [dropWhile_concat _ hlimit] at hrecent hsub
  refine ⟨_, (List.dropWhile_sublist _).trans hcleared, ?_, hsub, ?_⟩
  · rw [addEntry_eq hperiod, dropWhile_concat _ hlimit]
  · intro f hf newest hnewest
    rw [List.getLast?_concat, Option.mem_some_iff] at hnewest
    subst hnewest
    exact hrecent f hf

/-! ## A search -/

variable {f : T → T → ℤ → T} {t : ℤ}

/-- The search goes over what is before `t`. -/
theorem lerpAt_append {before : List (ℤ × T)} (h : ∀ e ∈ before, e.1 < t) (e : ℤ × T)
    (he : e.1 < t) (last : Option (ℤ × T)) (after : List (ℤ × T)) :
    lerpAt f t last (before ++ e :: after) = lerpAt f t (some e) after := by
  induction before generalizing last with
  | nil => simp [lerpAt, he, he.ne]
  | cons first before ih =>
    have hfirst : first.1 < t := h first (by simp)
    simp only [List.cons_append, lerpAt, hfirst, hfirst.ne, if_true, if_false]
    exact ih (fun e he => h e (List.mem_cons_of_mem first he)) (some first)

/-- A time before which an ordered history has its entry `e`, and not the next one. -/
theorem getLerp_between {b : LinearHistoryBuffer T}
    (h : b.history_buffer.Pairwise (fun e f => e.1 ≤ f.1)) {before after : List (ℤ × T)}
    {e next : ℤ × T} (hb : b.history_buffer = before ++ e :: next :: after) (he : e.1 < t)
    (hnext : t ≤ next.1) :
    b.getLerp f t = .ok (some (f e.2 next.2 (t - e.1))) := by
  rw [hb, List.pairwise_append] at h
  have hbefore : ∀ p ∈ before, p.1 < t := by
    intro p hp
    exact (h.2.2 p hp e (by simp)).trans_lt he
  have hfound : lerpAt f t none (before ++ e :: next :: after) =
      .ok (some (f e.2 next.2 (t - e.1))) := by
    rw [lerpAt_append hbefore e he]
    simp [lerpAt, not_lt.mpr hnext]
  unfold LinearHistoryBuffer.getLerp
  rw [hb]
  cases before with
  | nil =>
    rw [List.nil_append] at hfound ⊢
    simp only [not_lt.mpr he.le, if_false]
    exact hfound
  | cons front rest =>
    have hfront : front.1 < t := hbefore front (by simp)
    rw [List.cons_append] at hfound ⊢
    simp only [not_lt.mpr hfront.le, if_false]
    exact hfound

/-- At the time of the oldest entry it is that entry. -/
theorem getLerp_oldest {b : LinearHistoryBuffer T} {oldest : ℤ × T}
    (hb : oldest ∈ b.history_buffer.head?) : b.getLerp f oldest.1 = .ok (some oldest.2) := by
  unfold LinearHistoryBuffer.getLerp
  cases hh : b.history_buffer with
  | nil => simp [hh] at hb
  | cons front rest =>
    simp only [hh, List.head?_cons, Option.mem_some_iff] at hb
    subst hb
    simp [lerpAt]

theorem getLerp_past {b : LinearHistoryBuffer T} {oldest : ℤ × T}
    (hb : oldest ∈ b.history_buffer.head?) (ht : t < oldest.1) :
    b.getLerp f t = .error intoPast := by
  unfold LinearHistoryBuffer.getLerp
  cases hh : b.history_buffer with
  | nil => simp [hh] at hb
  | cons front rest =>
    simp only [hh, List.head?_cons, Option.mem_some_iff] at hb
    subst hb
    simp [ht]

theorem getLerp_future {b : LinearHistoryBuffer T}
    (h : b.history_buffer.Pairwise (fun e f => e.1 ≤ f.1)) {newest : ℤ × T}
    (hb : newest ∈ b.history_buffer.getLast?) (ht : newest.1 < t) :
    b.getLerp f t = .error intoFuture := by
  obtain ⟨before, hbefore⟩ := List.getLast?_eq_some_iff.mp hb
  rw [hbefore, List.pairwise_append] at h
  have hold : ∀ e ∈ before, e.1 < t := by
    intro e he
    exact (h.2.2 e he newest (by simp)).trans_lt ht
  have hfound : lerpAt f t none (before ++ [newest]) = .error intoFuture := by
    rw [lerpAt_append hold newest ht]
    rfl
  unfold LinearHistoryBuffer.getLerp
  rw [hbefore]
  cases before with
  | nil =>
    simp only [List.nil_append] at hfound ⊢
    simpa [not_lt.mpr ht.le] using hfound
  | cons front rest =>
    have hfront : front.1 < t := hold front (by simp)
    simp only [List.cons_append] at hfound ⊢
    simpa [not_lt.mpr hfront.le] using hfound

/-! ## What is kept of the twists -/

variable {Time K : Type}

/-- What is held for a frame. -/
def held (b : TwistHistoryBuffer Time K) (frame_id : String) :
    List (ℤ × TwistStamped Time K) :=
  match b.q_ frame_id with
  | none => []
  | some q => q.history_buffer

/-- The buffers with other entries for one frame. -/
def withEntries (b : TwistHistoryBuffer Time K) (frame : String)
    (history : List (ℤ × TwistStamped Time K)) : TwistHistoryBuffer Time K :=
  { b with q_ := Function.update b.q_ frame (some ⟨history, b.q_duration_length_⟩) }

@[simp] theorem held_withEntries (b : TwistHistoryBuffer Time K) (frame : String)
    (history : List (ℤ × TwistStamped Time K)) :
    held (withEntries b frame history) frame = history := by
  simp [held, withEntries]

theorem held_withEntries_of_ne (b : TwistHistoryBuffer Time K) {frame other : String}
    (h : other ≠ frame) (history : List (ℤ × TwistStamped Time K)) :
    held (withEntries b frame history) other = held b other := by
  simp [held, withEntries, Function.update_of_ne h]

variable [RosTime Time]

/-- The buffers of all frames have the same period, their entries are fresh, and the
microsecond of an entry is that of a stamp. -/
structure Kept (b : TwistHistoryBuffer Time K) : Prop where
  period : ∀ frame q, b.q_ frame = some q → q.buffer_period_length = b.q_duration_length_
  fresh : ∀ frame, Fresh b.q_duration_length_ (held b frame)
  stamped : ∀ frame, ∀ e ∈ held b frame, ∃ time : Time, e.1 = toBoost time

theorem new_kept (length : ℤ) :
    Kept (TwistHistoryBuffer.new length : TwistHistoryBuffer Time K) where
  period := by simp [TwistHistoryBuffer.new]
  fresh _ := fresh_nil length
  stamped _ := by simp [held, TwistHistoryBuffer.new]

theorem withEntries_kept {b : TwistHistoryBuffer Time K} (hb : Kept b) {frame : String}
    {history : List (ℤ × TwistStamped Time K)} (hfresh : Fresh b.q_duration_length_ history)
    (hstamped : ∀ e ∈ history, ∃ time : Time, e.1 = toBoost time) :
    Kept (withEntries b frame history) := by
  refine ⟨?_, ?_, ?_⟩
  · intro other q hq
    by_cases h : other = frame
    · subst h
      simp only [withEntries, Function.update_self, Option.some.injEq] at hq
      subst hq
      rfl
    · simp only [withEntries, Function.update_of_ne h] at hq
      exact hb.period other q hq
  · intro other
    by_cases h : other = frame
    · subst h
      rw [held_withEntries]
      exact hfresh
    · rw [held_withEntries_of_ne b h]
      exact hb.fresh other
  · intro other
    by_cases h : other = frame
    · subst h
      simpa using hstamped
    · rw [held_withEntries_of_ne b h]
      exact hb.stamped other

/-- `addTwist` puts the twist behind what it leaves of the entries of its frame. -/
theorem addTwist_spec {b : TwistHistoryBuffer Time K} (hlength : 0 ≤ b.q_duration_length_)
    (hb : Kept b) (twist : TwistStamped Time K) :
    ∃ kept, kept.Sublist (held b twist.header.frame_id) ∧
      Fresh b.q_duration_length_ (kept ++ [(toBoost twist.header.stamp, twist)]) ∧
      b.addTwist twist = some (withEntries b twist.header.frame_id
        (kept ++ [(toBoost twist.header.stamp, twist)])) := by
  have hq : (b.q_ twist.header.frame_id).getD ⟨[], b.q_duration_length_⟩ =
      ⟨held b twist.header.frame_id, b.q_duration_length_⟩ := by
    unfold held
    cases hq : b.q_ twist.header.frame_id with
    | none => simp
    | some q => simp [← hb.period _ q hq]
  obtain ⟨kept, hsub, hadd, hkept⟩ := addEntry_fresh
    (b := ⟨held b twist.header.frame_id, b.q_duration_length_⟩) hlength
    (hb.fresh twist.header.frame_id) twist (toBoost twist.header.stamp)
  refine ⟨kept, hsub, hkept, ?_⟩
  simp only [TwistHistoryBuffer.addTwist, hq, hadd, Option.map_some]
  rfl

/-- `addTwist` keeps the invariant; the twist is the latest of its frame and the other
frames are as before. -/
theorem addTwist_kept {b : TwistHistoryBuffer Time K} (hlength : 0 ≤ b.q_duration_length_)
    (hb : Kept b) (twist : TwistStamped Time K) :
    ∃ b', b.addTwist twist = some b' ∧ b'.q_duration_length_ = b.q_duration_length_ ∧ Kept b' ∧
      b'.getLatest twist.header.frame_id = some twist ∧
      ∀ frame ≠ twist.header.frame_id, held b' frame = held b frame := by
  obtain ⟨kept, hsub, hfresh, hadd⟩ := addTwist_spec hlength hb twist
  refine ⟨_, hadd, rfl, withEntries_kept hb hfresh ?_, ?_, ?_⟩
  · intro e he
    rcases List.mem_append.mp he with he | he
    · exact hb.stamped _ e (hsub.subset he)
    · rw [List.mem_singleton.mp he]
      exact ⟨twist.header.stamp, rfl⟩
  · simp [TwistHistoryBuffer.getLatest, withEntries]
  · intro frame hframe
    exact held_withEntries_of_ne b hframe _

/-- Every run goes through and keeps the invariant. -/
theorem addTwists_kept {b : TwistHistoryBuffer Time K} (hlength : 0 ≤ b.q_duration_length_)
    (hb : Kept b) (twists : List (TwistStamped Time K)) :
    ∃ b', addTwists b twists = some b' ∧ b'.q_duration_length_ = b.q_duration_length_ ∧
      Kept b' := by
  induction twists generalizing b with
  | nil => exact ⟨b, rfl, rfl, hb⟩
  | cons twist twists ih =>
    obtain ⟨b1, hadd, hlength1, hb1, -⟩ := addTwist_kept hlength hb twist
    obtain ⟨b2, hrun, hlength2, hb2⟩ := ih (hlength1 ▸ hlength) hb1
    refine ⟨b2, ?_, hlength2.trans hlength1, hb2⟩
    unfold addTwists at hrun ⊢
    rw [List.foldlM_cons, hadd]
    exact hrun

end laws

end carma.twist_history_buffer
