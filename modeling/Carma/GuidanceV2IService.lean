-- The intersections that guidance knows from MAP and SPAT messages: what is kept of
-- them, when they are reported, and when they are dropped. The functions are those
-- of `GuidanceV2IService` and `IntersectionData`.
import Carma.Lib.ExactDouble
import Carma.Lib.Runs
import Mathlib.Data.List.TakeWhile
import Mathlib.Data.Rat.Cast.Order
import Mathlib.Logic.Function.Basic

open lib.exact_double
open lib.runs

namespace carma.guidance_v2i_service

variable {K G S : Type}

/-- The receipts of one kind of message for one intersection. -/
structure DsrcCommsCheck (K : Type) where
  stamps : List ℤ
  commsReliabilityCheckThreshold : ℕ
  minMsgsPerSec : K

/-- A geometry of a MAP message, and a state of a SPAT message if there is one. -/
structure IntersectionData (G S : Type) where
  geometry : G
  mapRxTimestamp : ℤ
  state : Option S
  stateRxTimestamp : Option ℤ
deriving DecidableEq

/-- What is kept of an intersection. -/
structure I2VData (K G S : Type) where
  creationTime : ℤ
  intersection : Option (IntersectionData G S)
  mapComms : Option (DsrcCommsCheck K)
  spatComms : Option (DsrcCommsCheck K)

/-- The settings of the service. No check works with a threshold of 0: it asks for the first of no
receipts. -/
structure Settings (K : Type) where
  mapThreshold : ℕ
  spatThreshold : ℕ
  minMapMsgsPerSec : K
  minSpatMsgsPerSec : K
  expiryTimeoutMs : ℤ
  mapThreshold_pos : 0 < mapThreshold
  spatThreshold_pos : 0 < spatThreshold

/-- One intersection of a message, with the time stamp of the message and the time of its receipt;
or one look of the expiry thread at an intersection. -/
inductive Call (G S : Type)
  | map (id : ℤ) (ts : ℤ) (geometry : G) (now : ℤ)
  | spat (id : ℤ) (ts : ℤ) (state : S) (now : ℤ)
  | expiryCheck (id : ℤ) (now : ℤ)
deriving DecidableEq

def Call.id : Call G S → ℤ
  | .map id _ _ _ | .spat id _ _ _ | .expiryCheck id _ => id

namespace DsrcCommsCheck

/-- The receipt is recorded, and the oldest one forgotten where there are too many. -/
def recordNewCommsRx (c : DsrcCommsCheck K) (rxTs : ℤ) : DsrcCommsCheck K :=
  { c with
    stamps :=
      if c.commsReliabilityCheckThreshold < (c.stamps ++ [rxTs]).length then
        (c.stamps ++ [rxTs]).tail
      else c.stamps ++ [rxTs] }

variable [Field K] [LinearOrder K]

def isReliable (c : DsrcCommsCheck K) (now : ℤ) : Bool :=
  if c.stamps.length < c.commsReliabilityCheckThreshold then false
  else
    let messagesPerSec : Dbl K :=
      Dbl.div (.fin c.stamps.length) (.fin (((now - c.stamps.headD 0 : ℤ) : K) / (1000 : ℕ)))
    !messagesPerSec.lt (.fin c.minMsgsPerSec)

end DsrcCommsCheck

namespace Settings

def newMapCheck (s : Settings K) : DsrcCommsCheck K := ⟨[], s.mapThreshold, s.minMapMsgsPerSec⟩

def newSpatCheck (s : Settings K) : DsrcCommsCheck K := ⟨[], s.spatThreshold, s.minSpatMsgsPerSec⟩

/-- `reportNewMapComms` on the entry of the intersection. What makes the entry is not recorded. -/
def reportNewMapComms (s : Settings K) (entry : Option (I2VData K G S)) (ts : ℤ) (geometry : G)
    (now : ℤ) : I2VData K G S :=
  match entry with
  | none =>
    { creationTime := now
      intersection := some ⟨geometry, ts, none, none⟩
      mapComms := some s.newMapCheck
      spatComms := none }
  | some existingData =>
    { existingData with
      mapComms := some ((existingData.mapComms.getD s.newMapCheck).recordNewCommsRx ts)
      intersection :=
        match existingData.intersection with
        | none => some ⟨geometry, ts, none, none⟩
        | some cur => some ⟨geometry, ts, cur.state, cur.stateRxTimestamp⟩ }

/-- `reportNewSPATComms` on the entry. A state without a geometry to it is not kept. -/
def reportNewSPATComms (s : Settings K) (entry : Option (I2VData K G S)) (ts : ℤ) (state : S)
    (now : ℤ) : I2VData K G S :=
  match entry with
  | none =>
    { creationTime := now
      intersection := none
      mapComms := none
      spatComms := some s.newSpatCheck }
  | some existingData =>
    { existingData with
      spatComms := some ((existingData.spatComms.getD s.newSpatCheck).recordNewCommsRx ts)
      intersection := existingData.intersection.map fun cur =>
        ⟨cur.geometry, cur.mapRxTimestamp, some state, some ts⟩ }

variable [Field K] [LinearOrder K]

/-- Whether messages of both kinds come often enough. -/
def bothReliable (data : I2VData K G S) (now : ℤ) : Bool :=
  match data.mapComms, data.spatComms with
  | some mapComms, some spatComms => mapComms.isReliable now && spatComms.isReliable now
  | _, _ => false

/-- The expiry thread: an entry that is old enough goes if it is not reliable. -/
def expiryCheck (s : Settings K) (entry : Option (I2VData K G S)) (now : ℤ) :
    Option (I2VData K G S) :=
  entry.filter fun data =>
    !(decide (data.creationTime < now - s.expiryTimeoutMs) && !bothReliable data now)

/-- One call, on the map from ids to entries. -/
def step (s : Settings K) (trackedI2Vs : ℤ → Option (I2VData K G S)) (c : Call G S) :
    ℤ → Option (I2VData K G S) :=
  Function.update trackedI2Vs c.id
    (match c with
      | .map id ts geometry now => some (s.reportNewMapComms (trackedI2Vs id) ts geometry now)
      | .spat id ts state now => some (s.reportNewSPATComms (trackedI2Vs id) ts state now)
      | .expiryCheck id now => s.expiryCheck (trackedI2Vs id) now)

end Settings

/-- `getV2IData`: the intersection of this id in the list, if it is there. -/
def getV2IData [Field K] [LinearOrder K] (trackedI2Vs : ℤ → Option (I2VData K G S)) (now id : ℤ) :
    Option (IntersectionData G S) :=
  (trackedI2Vs id).bind fun data =>
    if Settings.bothReliable data now then data.intersection else none

/-! ## What has been heard of an intersection -/

/-- A message, with its time stamp. -/
inductive Message (G S : Type)
  | map (ts : ℤ) (geometry : G)
  | spat (ts : ℤ) (state : S)
deriving DecidableEq

namespace Message

def asMap : Message G S → Option (ℤ × G)
  | .map ts geometry => some (ts, geometry)
  | .spat _ _ => none

def asSpat : Message G S → Option (ℤ × S)
  | .map _ _ => none
  | .spat ts state => some (ts, state)

end Message

/-- The messages since an entry was made. -/
structure History (G S : Type) where
  creationTime : ℤ
  first : Message G S
  rest : List (Message G S)
deriving DecidableEq

namespace History

def messages (h : History G S) : List (Message G S) := h.first :: h.rest

/-- Those from the first MAP on. -/
def fromMap (h : History G S) : List (Message G S) := h.messages.dropWhile (·.asMap.isNone)

def add (h : History G S) (m : Message G S) : History G S := { h with rest := h.rest ++ [m] }

/-- The last `n` of some receipts. -/
def lastStamps (n : ℕ) (stamps : List ℤ) : List ℤ := stamps.drop (stamps.length - n)

/-- The receipts of MAP messages that count. -/
def mapStamps (h : History G S) : List ℤ := (h.rest.filterMap (·.asMap)).map Prod.fst

def spatStamps (h : History G S) : List ℤ := (h.rest.filterMap (·.asSpat)).map Prod.fst

/-- The last geometry, with the last state that came after a geometry. -/
def intersection (h : History G S) : Option (IntersectionData G S) :=
  (h.messages.filterMap (·.asMap)).getLast?.map fun (ts, geometry) =>
    { geometry := geometry
      mapRxTimestamp := ts
      state := (h.fromMap.filterMap (·.asSpat)).getLast?.map Prod.snd
      stateRxTimestamp := (h.fromMap.filterMap (·.asSpat)).getLast?.map Prod.fst }

/-- What is kept of the messages. -/
def summary (s : Settings K) (h : History G S) : I2VData K G S where
  creationTime := h.creationTime
  intersection := h.intersection
  mapComms := if (h.messages.filterMap (·.asMap)).isEmpty then none else
    some { s.newMapCheck with stamps := lastStamps s.mapThreshold h.mapStamps }
  spatComms := if (h.messages.filterMap (·.asSpat)).isEmpty then none else
    some { s.newSpatCheck with stamps := lastStamps s.spatThreshold h.spatStamps }

/-- A message to the messages so far. -/
def heard (h : Option (History G S)) (m : Message G S) (now : ℤ) : History G S :=
  match h with
  | none => ⟨now, m, []⟩
  | some h => h.add m

variable [Field K] [LinearOrder K]

/-- A call on the messages of its id: an entry that expires takes them with it. -/
def step (s : Settings K) (h : Option (History G S)) : Call G S → Option (History G S)
  | .map _ ts geometry now => some (heard h (.map ts geometry) now)
  | .spat _ ts state now => some (heard h (.spat ts state) now)
  | .expiryCheck _ now => h.filter fun h =>
    !(decide (h.creationTime < now - s.expiryTimeoutMs) && !Settings.bothReliable (h.summary s) now)

end History

/-! ## The entries are those of the messages -/

theorem lastStamps_snoc {n : ℕ} (hn : 0 < n) (stamps : List ℤ) (ts : ℤ) :
    History.lastStamps n (stamps ++ [ts]) =
      if n < (History.lastStamps n stamps ++ [ts]).length then
        (History.lastStamps n stamps ++ [ts]).tail
      else History.lastStamps n stamps ++ [ts] := by
  unfold History.lastStamps
  simp only [List.length_append, List.length_drop, List.length_singleton]
  by_cases hfull : n ≤ stamps.length
  · have hcut : stamps.length + 1 - n = stamps.length - n + 1 := by omega
    rw [if_pos (by omega), hcut, ← List.drop_one, ← List.drop_append_of_le_length (by omega),
      List.drop_drop]
  · have hzero : stamps.length - n = 0 := by omega
    have hone : stamps.length + 1 - n = 0 := by omega
    rw [if_neg (by omega), hzero, hone, List.drop_zero, List.drop_zero]

namespace History

theorem messages_add (h : History G S) (m : Message G S) :
    (h.add m).messages = h.messages ++ [m] := rfl

theorem fromMap_add (h : History G S) (m : Message G S) :
    (h.add m).fromMap = if (h.messages.filterMap (·.asMap)).isEmpty then
      [m].dropWhile (·.asMap.isNone) else h.fromMap ++ [m] := by
  unfold fromMap
  rw [messages_add, List.dropWhile_append]
  have hiff : (h.messages.dropWhile (·.asMap.isNone)).isEmpty =
      (h.messages.filterMap (·.asMap)).isEmpty := by
    rw [Bool.eq_iff_iff, List.isEmpty_iff, List.isEmpty_iff, List.dropWhile_eq_nil_iff,
      List.filterMap_eq_nil_iff]
    simp
  rw [hiff]

theorem summary_first_map (s : Settings K) (ts : ℤ) (geometry : G) (now : ℤ) :
    summary s (⟨now, .map ts geometry, []⟩ : History G S) =
      s.reportNewMapComms none ts geometry now := by
  simp [summary, Settings.reportNewMapComms, intersection, messages, fromMap, Message.asMap,
    Message.asSpat, mapStamps, lastStamps, Settings.newMapCheck]

theorem summary_first_spat (s : Settings K) (ts : ℤ) (state : S) (now : ℤ) :
    summary s (⟨now, .spat ts state, []⟩ : History G S) =
      s.reportNewSPATComms none ts state now := by
  simp [summary, Settings.reportNewSPATComms, intersection, messages, Message.asMap,
    Message.asSpat, spatStamps, lastStamps, Settings.newSpatCheck]

/-- What is kept of one kind of message, after one more of the kind. -/
theorem comms_add (c : DsrcCommsCheck K) (hpos : 0 < c.commsReliabilityCheckThreshold)
    (stamps : List ℤ) (ts : ℤ) :
    ({ c with stamps := lastStamps c.commsReliabilityCheckThreshold (stamps ++ [ts]) } :
      DsrcCommsCheck K) =
      DsrcCommsCheck.recordNewCommsRx
        { c with stamps := lastStamps c.commsReliabilityCheckThreshold stamps } ts := by
  simp [DsrcCommsCheck.recordNewCommsRx, lastStamps_snoc hpos]

/-- Before the first message of a kind no receipt of it counts. -/
theorem mapStamps_of_none {h : History G S} (hnone : h.messages.filterMap (·.asMap) = []) :
    h.mapStamps = [] := by
  unfold messages at hnone
  rw [List.filterMap_eq_nil_iff] at hnone
  unfold mapStamps
  rw [List.filterMap_eq_nil_iff.mpr fun m hm => hnone m (List.mem_cons_of_mem _ hm), List.map_nil]

theorem spatStamps_of_none {h : History G S} (hnone : h.messages.filterMap (·.asSpat) = []) :
    h.spatStamps = [] := by
  unfold messages at hnone
  rw [List.filterMap_eq_nil_iff] at hnone
  unfold spatStamps
  rw [List.filterMap_eq_nil_iff.mpr fun m hm => hnone m (List.mem_cons_of_mem _ hm), List.map_nil]

theorem summary_add_map (s : Settings K) (h : History G S) (ts : ℤ) (geometry : G) (now : ℤ) :
    (h.add (.map ts geometry)).summary s =
      s.reportNewMapComms (some (h.summary s)) ts geometry now := by
  have hmap : (h.add (.map ts geometry)).messages.filterMap (·.asMap) =
      h.messages.filterMap (·.asMap) ++ [(ts, geometry)] := by
    simp [messages_add, Message.asMap]
  have hspat : (h.add (.map ts geometry)).messages.filterMap (·.asSpat) =
      h.messages.filterMap (·.asSpat) := by
    simp [messages_add, Message.asSpat]
  have hstamps : (h.add (.map ts geometry)).mapStamps = h.mapStamps ++ [ts] := by
    simp [mapStamps, add, Message.asMap]
  have hother : (h.add (.map ts geometry)).spatStamps = h.spatStamps := by
    simp [spatStamps, add, Message.asSpat]
  have hstates : (h.add (.map ts geometry)).fromMap.filterMap (·.asSpat) =
      if (h.messages.filterMap (·.asMap)).isEmpty then [] else
        h.fromMap.filterMap (·.asSpat) := by
    rw [fromMap_add]
    split_ifs <;> simp [Message.asMap, Message.asSpat]
  have hrecorded := comms_add s.newMapCheck s.mapThreshold_pos h.mapStamps ts
  simp only [Settings.newMapCheck] at hrecorded
  simp only [summary, Settings.reportNewMapComms, intersection, hmap, hspat, hstamps, hother,
    hstates, I2VData.mk.injEq, and_true]
  refine ⟨rfl, ?_⟩
  cases hmaps : (h.messages.filterMap (·.asMap)).getLast? with
  | none =>
    have hnone := List.getLast?_eq_none_iff.mp hmaps
    have hnil := mapStamps_of_none hnone
    rw [hnil] at hrecorded ⊢
    rw [hnone]
    constructor
    · rfl
    · simpa [Settings.newMapCheck, lastStamps] using hrecorded
  | some last =>
    have hne : h.messages.filterMap (·.asMap) ≠ [] := by
      intro hnil
      simp [hnil] at hmaps
    have hsome : (h.messages.filterMap (·.asMap)).isEmpty = false := by simpa using hne
    rw [hsome]
    constructor
    · simp
    · simpa [Settings.newMapCheck] using hrecorded

theorem summary_add_spat (s : Settings K) (h : History G S) (ts : ℤ) (state : S) (now : ℤ) :
    (h.add (.spat ts state)).summary s =
      s.reportNewSPATComms (some (h.summary s)) ts state now := by
  have hmap : (h.add (.spat ts state)).messages.filterMap (·.asMap) =
      h.messages.filterMap (·.asMap) := by
    simp [messages_add, Message.asMap]
  have hspat : (h.add (.spat ts state)).messages.filterMap (·.asSpat) =
      h.messages.filterMap (·.asSpat) ++ [(ts, state)] := by
    simp [messages_add, Message.asSpat]
  have hstamps : (h.add (.spat ts state)).spatStamps = h.spatStamps ++ [ts] := by
    simp [spatStamps, add, Message.asSpat]
  have hother : (h.add (.spat ts state)).mapStamps = h.mapStamps := by
    simp [mapStamps, add, Message.asMap]
  have hstates : (h.add (.spat ts state)).fromMap.filterMap (·.asSpat) =
      if (h.messages.filterMap (·.asMap)).isEmpty then [] else
        h.fromMap.filterMap (·.asSpat) ++ [(ts, state)] := by
    rw [fromMap_add]
    split_ifs <;> simp [Message.asMap, Message.asSpat]
  have hrecorded := comms_add s.newSpatCheck s.spatThreshold_pos h.spatStamps ts
  simp only [Settings.newSpatCheck] at hrecorded
  simp only [summary, Settings.reportNewSPATComms, intersection, hmap, hspat, hstamps, hother,
    hstates, I2VData.mk.injEq, true_and]
  refine ⟨rfl, ?_, ?_⟩
  · cases hmaps : (h.messages.filterMap (·.asMap)).getLast? with
    | none => rfl
    | some last =>
      have hne : h.messages.filterMap (·.asMap) ≠ [] := by
        intro hnil
        simp [hnil] at hmaps
      have hsome : (h.messages.filterMap (·.asMap)).isEmpty = false := by simpa using hne
      simp [hsome]
  · by_cases hnone : h.messages.filterMap (·.asSpat) = []
    · rw [spatStamps_of_none hnone] at hrecorded ⊢
      rw [hnone]
      simpa [Settings.newSpatCheck, lastStamps] using hrecorded
    · have hsome : (h.messages.filterMap (·.asSpat)).isEmpty = false := by simpa using hnone
      rw [hsome]
      simpa [Settings.newSpatCheck] using hrecorded

theorem summary_heard_map (s : Settings K) (h : Option (History G S)) (ts : ℤ) (geometry : G)
    (now : ℤ) : (heard h (.map ts geometry) now).summary s =
      s.reportNewMapComms (h.map (summary s)) ts geometry now := by
  cases h with
  | none => exact summary_first_map s ts geometry now
  | some h => exact summary_add_map s h ts geometry now

theorem summary_heard_spat (s : Settings K) (h : Option (History G S)) (ts : ℤ) (state : S)
    (now : ℤ) : (heard h (.spat ts state) now).summary s =
      s.reportNewSPATComms (h.map (summary s)) ts state now := by
  cases h with
  | none => exact summary_first_spat s ts state now
  | some h => exact summary_add_spat s h ts state now

end History

section Runs

variable [Field K] [LinearOrder K]

/-- The step lemma: the entry of an id changes with the calls of the id, and no other does. -/
theorem step_summary (s : Settings K) {trackedI2Vs : ℤ → Option (I2VData K G S)}
    {h : Option (History G S)} {id : ℤ} (hid : trackedI2Vs id = h.map (History.summary s))
    (c : Call G S) : s.step trackedI2Vs c id =
      (if c.id = id then History.step s h c else h).map (History.summary s) := by
  unfold Settings.step
  split_ifs with hc
  · subst hc
    rw [Function.update_self]
    cases c with
    | map id ts geometry now =>
      change trackedI2Vs id = _ at hid
      simp only [History.step, Option.map_some, hid, History.summary_heard_map]
    | spat id ts state now =>
      change trackedI2Vs id = _ at hid
      simp only [History.step, Option.map_some, hid, History.summary_heard_spat]
    | expiryCheck id now =>
      change trackedI2Vs id = _ at hid
      simp only [History.step, Settings.expiryCheck, hid]
      cases h with
      | none => rfl
      | some h =>
        simp only [Option.map_some, Option.filter_some]
        split_ifs with h1 h2 h2
        · rfl
        · exact absurd h1 h2
        · exact absurd h2 h1
        · rfl
  · rw [Function.update_of_ne (Ne.symm hc), hid]

/-- The messages since the entry of an intersection was made, after some calls. -/
def heardOf (s : Settings K) (id : ℤ) (calls : List (Call G S)) : Option (History G S) :=
  (calls.filter fun c => c.id = id).foldl (History.step s) none

/-- The entry of an intersection is made of the messages on it since the entry was there, all but
the first counting for how often they come; those on other intersections do nothing to it. -/
theorem entry_is_of_the_messages_since_it_was_made (s : Settings K) (calls : List (Call G S))
    (id : ℤ) : run s.step (fun _ => none) calls id =
      (heardOf s id calls).map (History.summary s) := by
  have hrun : ∀ (trackedI2Vs : ℤ → Option (I2VData K G S)) (h : Option (History G S)),
      trackedI2Vs id = h.map (History.summary s) → run s.step trackedI2Vs calls id =
        ((calls.filter fun c => c.id = id).foldl (History.step s) h).map (History.summary s) := by
    induction calls with
    | nil =>
      intro trackedI2Vs h hid
      exact hid
    | cons c calls ih =>
      intro trackedI2Vs h hid
      rw [run_cons, ih _ _ (step_summary s hid c)]
      by_cases hc : c.id = id <;> simp [hc]
  exact hrun _ none rfl

/-- Enough receipts, and the last of them dense enough. -/
def Frequent (n : ℕ) (minMsgsPerSec : K) (stamps : List ℤ) (now : ℤ) : Prop :=
  n ≤ stamps.length ∧
    (Dbl.div (.fin (n : K))
      (.fin (((now - stamps.getD (stamps.length - n) 0 : ℤ) : K) / (1000 : ℕ)))).lt
        (.fin minMsgsPerSec) = false

theorem isReliable_iff (c : DsrcCommsCheck K) {stamps : List ℤ}
    (hstamps : c.stamps = History.lastStamps c.commsReliabilityCheckThreshold stamps) (now : ℤ) :
    c.isReliable now = true ↔
      Frequent c.commsReliabilityCheckThreshold c.minMsgsPerSec stamps now := by
  have hlength : c.stamps.length = min stamps.length c.commsReliabilityCheckThreshold := by
    rw [hstamps, History.lastStamps, List.length_drop]
    omega
  unfold DsrcCommsCheck.isReliable Frequent
  rw [hlength]
  by_cases hfew : stamps.length < c.commsReliabilityCheckThreshold
  · rw [if_pos (by omega)]
    simp only [Bool.false_eq_true, false_iff, not_and]
    intro hmany
    omega
  · have hmany : c.commsReliabilityCheckThreshold ≤ stamps.length := by omega
    have hhead : c.stamps.headD 0 =
        stamps.getD (stamps.length - c.commsReliabilityCheckThreshold) 0 := by
      rw [hstamps, History.lastStamps, List.headD_eq_head?_getD, List.head?_drop,
        List.getD_eq_getElem?_getD]
    rw [if_neg (by omega), min_eq_right hmany, hhead]
    simp [hmany]

/-- An intersection is reported just when, since its entry was made, the messages of both kinds
have come often enough; and it is reported with the last geometry, and with the last state that
came after some geometry. -/
theorem reported_iff (s : Settings K) (calls : List (Call G S)) (now id : ℤ)
    (d : IntersectionData G S) :
    getV2IData (run s.step (fun _ => none) calls) now id = some d ↔
      ∃ h, heardOf s id calls = some h ∧ Frequent s.mapThreshold s.minMapMsgsPerSec h.mapStamps now ∧
        Frequent s.spatThreshold s.minSpatMsgsPerSec h.spatStamps now ∧ h.intersection = some d := by
  unfold getV2IData
  rw [entry_is_of_the_messages_since_it_was_made]
  cases heardOf s id calls with
  | none => simp
  | some h =>
    have hboth : Settings.bothReliable (h.summary s) now = true ↔
        Frequent s.mapThreshold s.minMapMsgsPerSec h.mapStamps now ∧
          Frequent s.spatThreshold s.minSpatMsgsPerSec h.spatStamps now := by
      unfold Settings.bothReliable History.summary
      by_cases hmaps : h.messages.filterMap (·.asMap) = []
      · have hno : ¬ Frequent s.mapThreshold s.minMapMsgsPerSec h.mapStamps now := by
          rintro ⟨hmany, -⟩
          rw [History.mapStamps_of_none hmaps] at hmany
          exact absurd (Nat.le_zero.mp hmany) s.mapThreshold_pos.ne'
        simp [hmaps, hno]
      · by_cases hspats : h.messages.filterMap (·.asSpat) = []
        · have hno : ¬ Frequent s.spatThreshold s.minSpatMsgsPerSec h.spatStamps now := by
            rintro ⟨hmany, -⟩
            rw [History.spatStamps_of_none hspats] at hmany
            exact absurd (Nat.le_zero.mp hmany) s.spatThreshold_pos.ne'
          simp [hspats, hno]
        · rw [if_neg (by simpa using hmaps), if_neg (by simpa using hspats), Bool.and_eq_true]
          exact and_congr (isReliable_iff { s.newMapCheck with
            stamps := History.lastStamps s.mapThreshold h.mapStamps } rfl now)
            (isReliable_iff { s.newSpatCheck with
              stamps := History.lastStamps s.spatThreshold h.spatStamps } rfl now)
    simp only [Option.map_some, Option.bind_some, Option.some.injEq, exists_eq_left']
    rw [← and_assoc, ← hboth]
    cases Settings.bothReliable (h.summary s) now <;> simp [History.summary]

/-- Some SPAT has come after some MAP. -/
def History.HasState (h : History G S) : Prop :=
  ∃ before m after, h.messages = before ++ m :: after ∧ m.asMap.isSome ∧
    ∃ x ∈ after, x.asSpat.isSome

omit [Field K] [LinearOrder K] in
theorem state_iff {h : History G S} {d : IntersectionData G S} (hd : h.intersection = some d) :
    d.state.isSome ↔ h.HasState := by
  obtain ⟨last, -, rfl⟩ := Option.map_eq_some_iff.mp hd
  rw [Option.isSome_map, Option.isSome_iff_ne_none, ne_eq, List.getLast?_eq_none_iff,
    List.filterMap_eq_nil_iff, not_forall]
  unfold History.fromMap
  constructor
  · rintro ⟨x, hx⟩
    obtain ⟨hmem, hspat⟩ : x ∈ h.messages.dropWhile (·.asMap.isNone) ∧ x.asSpat ≠ none := by
      simpa using hx
    cases hdrop : h.messages.dropWhile (·.asMap.isNone) with
    | nil => simp [hdrop] at hmem
    | cons m after =>
      have hm : m.asMap.isSome := by
        have hhead := List.head?_dropWhile_not (fun m : Message G S => m.asMap.isNone) h.messages
        simpa [hdrop] using hhead
      refine ⟨h.messages.takeWhile (·.asMap.isNone), m, after, ?_, hm, x, ?_, ?_⟩
      · rw [← hdrop, List.takeWhile_append_dropWhile]
      · rw [hdrop] at hmem
        rcases List.mem_cons.mp hmem with rfl | hmem
        · -- A MAP is no SPAT.
          cases x with
          | map ts geometry => exact absurd rfl hspat
          | spat ts state => cases hm
        · exact hmem
      · exact Option.isSome_iff_ne_none.mpr hspat
  · rintro ⟨before, m, after, hsplit, hm, x, hx, hspat⟩
    have hmem : x ∈ h.messages.dropWhile (·.asMap.isNone) := by
      have hstop : (m :: after).dropWhile (·.asMap.isNone) = m :: after := by
        rw [List.dropWhile_cons_of_neg]
        simpa using Option.isSome_iff_ne_none.mp hm
      rw [hsplit, List.dropWhile_append, hstop]
      split_ifs <;> simp [hx]
    exact ⟨x, by simpa [hmem] using Option.isSome_iff_ne_none.mp hspat⟩

/-- The state of a reported intersection is there just when a SPAT has come after a MAP since the
entry was made. The check on the receipts does not see to it. -/
theorem reported_state_iff {s : Settings K} {calls : List (Call G S)} {now id : ℤ}
    {d : IntersectionData G S} (hd : getV2IData (run s.step (fun _ => none) calls) now id = some d) :
    d.state.isSome ↔ ∃ h, heardOf s id calls = some h ∧ h.HasState := by
  obtain ⟨h, hh, -, -, hdata⟩ := (reported_iff s calls now id d).mp hd
  rw [state_iff hdata]
  constructor
  · intro hstate
    exact ⟨h, hh, hstate⟩
  · rintro ⟨h', hh', hstate⟩
    obtain rfl : h = h' := by simpa [hh] using hh'
    exact hstate

end Runs

/-- One message of each kind is enough for these. -/
def anyMessage : Settings ℚ where
  mapThreshold := 1
  spatThreshold := 1
  minMapMsgsPerSec := 1
  minSpatMsgsPerSec := 1
  expiryTimeoutMs := 5000
  mapThreshold_pos := by decide
  spatThreshold_pos := by decide

/-- Two states come, and then a geometry. -/
def statesFirst : List (Call ℕ ℕ) := [.spat 12 0 1 0, .spat 12 100 2 100, .map 12 200 7 200]

theorem reported_without_a_state :
    getV2IData (run anyMessage.step (fun _ => none) statesFirst) 300 12 =
        some ⟨7, 200, none, none⟩ ∧
      ¬ ∃ h, heardOf anyMessage 12 statesFirst = some h ∧ h.HasState := by
  have hd : getV2IData (run anyMessage.step (fun _ => none) statesFirst) 300 12 =
      some ⟨7, 200, none, none⟩ := by decide +kernel
  refine ⟨hd, ?_⟩
  rw [← reported_state_iff hd]
  simp

end carma.guidance_v2i_service
