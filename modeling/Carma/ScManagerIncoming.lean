-- What a component counts on: the list of the connections that it asks others for, as one command
-- code and address sees it, and what each function does to that.
import Carma.ScManager

open lib.handshakes

namespace carma.sc_manager

open carma.large_message_handler (JausAddress)

variable {K M : Type}

/-! ## What a component counts on -/

/-- A step of a component that asks for a service, for one command code and address. -/
inductive Turn
  | asked
  | dropped
  | timedOut
deriving DecidableEq

def Message.request? (code : UInt16) : Message K M → Option Request
  | .create c _ _ => if c = code then some .ask else none
  | .terminate c _ => if c = code then some .drop else none
  | _ => none

def Message.answer? (code : UInt16) : Message K M → Option Bool
  | .confirm c _ _ responseCode =>
    if c = code then some (responseCode = .JAUS_SC_SUCCESSFUL) else none
  | _ => none

def Request.turn : Request → Turn
  | .ask => .asked
  | .drop => .dropped

def Deed.turn? (code : UInt16) (address : JausAddress) : Deed K M → Option Turn
  | .sent destination m =>
    if destination = address then (m.request? code).map Request.turn else none
  | .timedOut c a => if c = code ∧ a = address then some .timedOut else none

/-- What happens to a connection that is asked for: whether it is in the list and active. -/
inductive AskerEffect (v : Option Bool) : List Turn → Option Bool → Prop
  | same : AskerEffect v [] v
  | asked : AskerEffect v [.asked] (some false)
  | withdrew (hv : v = some false) : AskerEffect v [] none
  | dropped (hv : v = some true) : AskerEffect v [.dropped] none
  | timedOut (hv : v = some true) : AskerEffect v [.timedOut] none

/-- What an answer does to the command code and address that it is about. -/
inductive AnswerEffect (granted : Bool) (v : Option Bool) : List Turn → Option Bool → Prop
  | granted (hg : granted = true) (hv : v ≠ none) : AnswerEffect granted v [] (some true)
  | declined (hg : granted = true) (hv : v = none) : AnswerEffect granted v [.dropped] none
  | refused (hg : granted = false) (hv : v ≠ none) : AnswerEffect granted v [] none
  | ignored (hg : granted = false) (hv : v = none) : AnswerEffect granted v [] none

namespace Incoming

/-- A place of the list: its command code and address, and whether it is active. -/
def entry (n : Incoming K M) (i : Slot) : Option ((UInt16 × JausAddress) × Bool) :=
  if i ∈ n.incomingSc then
    (n.inConnection i).map fun sc => ((sc.commandCode, sc.address), sc.isActive)
  else none

theorem entry_eq_some {n : Incoming K M} {i : Slot} {e : (UInt16 × JausAddress) × Bool} :
    n.entry i = some e ↔ i ∈ n.incomingSc ∧ ∃ sc, n.inConnection i = some sc ∧
      ((sc.commandCode, sc.address), sc.isActive) = e := by
  unfold entry
  split_ifs with hi
  · rw [Option.map_eq_some_iff]
    exact ⟨fun h => ⟨hi, h⟩, fun h => h.2⟩
  · simp [hi]

/-- An entry as one command code and address sees it. -/
def entryOf (k : UInt16 × JausAddress) : Option ((UInt16 × JausAddress) × Bool) → Option Bool
  | some (k', v) => if k' = k then some v else none
  | none => none

theorem entryOf_eq_some {k : UInt16 × JausAddress} {e : Option ((UInt16 × JausAddress) × Bool)}
    {v : Bool} : entryOf k e = some v ↔ e = some (k, v) := by
  unfold entryOf
  split <;> simp

/-- Whether a command code and address is in the list, and whether it is active. -/
def standing (n : Incoming K M) (code : UInt16) (address : JausAddress) : Option Bool :=
  (n.findSc code address).map (·.2.isActive)

/-- The list has each connection once and one connection of a command code and address. The
active ones are in it, and have the first instance. -/
structure Sound (n : Incoming K M) : Prop where
  nodup : n.incomingSc.Nodup
  filled : ∀ i ∈ n.incomingSc, (n.inConnection i).isSome = true
  active : ∀ i sc, n.inConnection i = some sc → sc.isActive = true →
    i ∈ n.incomingSc ∧ sc.instanceId = 0
  apart : ∀ i j k v w, n.entry i = some (k, v) → n.entry j = some (k, w) → i = j

theorem findSc_some {n : Incoming K M} {code : UInt16} {address : JausAddress} {i : Slot}
    {sc : ServiceConnection K M} (h : n.findSc code address = some (i, sc)) :
    i ∈ n.incomingSc ∧ n.inConnection i = some sc ∧ sc.commandCode = code ∧
      sc.address = address := by
  obtain ⟨j, hj, hsc⟩ := List.exists_of_findSome?_eq_some h
  cases hslot : n.inConnection j with
  | none => simp [hslot] at hsc
  | some x =>
    simp only [hslot] at hsc
    split_ifs at hsc with hkey
    obtain ⟨rfl, rfl⟩ := Prod.mk.inj (Option.some.inj hsc)
    exact ⟨hj, hslot, hkey.1, hkey.2⟩

theorem entry_of_find {n : Incoming K M} {code : UInt16} {address : JausAddress} {i : Slot}
    {sc : ServiceConnection K M} (h : n.findSc code address = some (i, sc)) :
    n.entry i = some ((code, address), sc.isActive) := by
  obtain ⟨hi, hslot, rfl, rfl⟩ := findSc_some h
  simp [entry, hi, hslot]

theorem find_isSome_of_entry {n : Incoming K M} {code : UInt16} {address : JausAddress} {i : Slot}
    {v : Bool} (h : n.entry i = some ((code, address), v)) :
    (n.findSc code address).isSome = true := by
  obtain ⟨hi, sc, hslot, heq⟩ := entry_eq_some.mp h
  unfold findSc
  rw [List.findSome?_isSome_iff]
  refine ⟨i, hi, ?_⟩
  obtain ⟨hkey, -⟩ := Prod.mk.inj heq
  obtain ⟨hcode, haddress⟩ := Prod.mk.inj hkey
  simp [hslot, hcode, haddress]

theorem Sound.standing_iff {n : Incoming K M} (h : n.Sound) {k : UInt16 × JausAddress} {v : Bool} :
    n.standing k.1 k.2 = some v ↔ ∃ i, n.entry i = some (k, v) := by
  unfold standing
  constructor
  · intro hv
    obtain ⟨⟨i, sc⟩, hfind, rfl⟩ := Option.map_eq_some_iff.mp hv
    exact ⟨i, entry_of_find hfind⟩
  · rintro ⟨i, hi⟩
    obtain ⟨⟨j, sc⟩, hfind⟩ := Option.isSome_iff_exists.mp (find_isSome_of_entry hi)
    have hj := entry_of_find hfind
    obtain rfl := h.apart i j k v sc.isActive hi hj
    rw [hi] at hj
    simp [hfind, (Prod.mk.inj (Option.some.inj hj)).2]

theorem Sound.standing_of_entryOf {n : Incoming K M} (h : n.Sound) {k : UInt16 × JausAddress}
    {i : Slot} {v : Bool} (hv : entryOf k (n.entry i) = some v) : n.standing k.1 k.2 = some v :=
  h.standing_iff.mpr ⟨i, entryOf_eq_some.mp hv⟩

/-- A step that changes one place of the list tells by that place what stands after it. -/
theorem standing_change {n n' : Incoming K M} (h : n.Sound) (h' : n'.Sound) {i : Slot}
    (hother : ∀ j ≠ i, n'.entry j = n.entry j) (k : UInt16 × JausAddress) :
    n'.standing k.1 k.2 =
      match entryOf k (n'.entry i), entryOf k (n.entry i) with
      | some v, _ => some v
      | none, some _ => none
      | none, none => n.standing k.1 k.2 := by
  cases hv' : entryOf k (n'.entry i) with
  | some v => exact h'.standing_of_entryOf hv'
  | none =>
    -- only another place could be of `k` now, and that one was before
    have hfrom {v : Bool} (hstanding : n'.standing k.1 k.2 = some v) :
        ∃ j ≠ i, n.entry j = some (k, v) := by
      obtain ⟨j, hj⟩ := h'.standing_iff.mp hstanding
      have hji : j ≠ i := by
        rintro rfl
        rw [entryOf_eq_some.mpr hj] at hv'
        cases hv'
      exact ⟨j, hji, by rw [← hother j hji, hj]⟩
    cases hv : entryOf k (n.entry i) with
    | some v =>
      rw [Option.eq_none_iff_forall_ne_some]
      intro w hstanding
      obtain ⟨j, hji, hj⟩ := hfrom hstanding
      exact hji (h.apart j i k w v hj (entryOf_eq_some.mp hv))
    | none =>
      apply Option.ext
      intro v
      constructor
      · intro hstanding
        obtain ⟨j, -, hj⟩ := hfrom hstanding
        exact h.standing_iff.mpr ⟨j, hj⟩
      · intro hstanding
        obtain ⟨j, hj⟩ := h.standing_iff.mp hstanding
        have hji : j ≠ i := by
          rintro rfl
          rw [entryOf_eq_some.mpr hj] at hv
          cases hv
        exact h'.standing_iff.mpr ⟨j, by rw [hother j hji, hj]⟩

theorem effect_of_entry {n n' : Incoming K M} (h : n.Sound) (h' : n'.Sound) {i : Slot}
    (hother : ∀ j ≠ i, n'.entry j = n.entry j) {k : UInt16 × JausAddress} {turns : List Turn}
    (heffect : AskerEffect (entryOf k (n.entry i)) turns (entryOf k (n'.entry i))) :
    AskerEffect (n.standing k.1 k.2) turns (n'.standing k.1 k.2) := by
  have hchange := standing_change h h' hother k
  generalize hv : entryOf k (n.entry i) = v at heffect hchange
  generalize hv' : entryOf k (n'.entry i) = v' at heffect hchange
  cases heffect with
  | same =>
    cases v with
    | none =>
      rw [hchange]
      exact .same
    | some v =>
      rw [h.standing_of_entryOf hv, hchange]
      exact .same
  | asked =>
    rw [hchange]
    exact .asked
  | withdrew heq =>
    subst heq
    rw [h.standing_of_entryOf hv, hchange]
    exact .withdrew rfl
  | dropped heq =>
    subst heq
    rw [h.standing_of_entryOf hv, hchange]
    exact .dropped rfl
  | timedOut heq =>
    subst heq
    rw [h.standing_of_entryOf hv, hchange]
    exact .timedOut rfl

/-! ### One place of the list changes -/

/-- All places but one are in the list as before, with the same connections. -/
structure ChangesOnly (i : Slot) (n n' : Incoming K M) : Prop where
  mem : ∀ j ≠ i, (j ∈ n'.incomingSc ↔ j ∈ n.incomingSc)
  slot : ∀ j ≠ i, n'.inConnection j = n.inConnection j
  nodup : n.incomingSc.Nodup → n'.incomingSc.Nodup

theorem ChangesOnly.entry {i : Slot} {n n' : Incoming K M} (h : ChangesOnly i n n') :
    ∀ j ≠ i, n'.entry j = n.entry j := by
  intro j hj
  unfold Incoming.entry
  rw [h.slot j hj]
  by_cases hmem : j ∈ n.incomingSc
  · rw [if_pos hmem, if_pos ((h.mem j hj).mpr hmem)]
  · rw [if_neg hmem, if_neg (fun hmem' => hmem ((h.mem j hj).mp hmem'))]

theorem ChangesOnly.trans {i : Slot} {l m n : Incoming K M} (h : ChangesOnly i l m)
    (h' : ChangesOnly i m n) : ChangesOnly i l n where
  mem j hj := (h'.mem j hj).trans (h.mem j hj)
  slot j hj := (h'.slot j hj).trans (h.slot j hj)
  nodup hnodup := h'.nodup (h.nodup hnodup)

theorem changesOnly_setSc (n : Incoming K M) (i : Slot) (sc : Option (ServiceConnection K M)) :
    ChangesOnly i n (n.setSc i sc) where
  mem _ _ := Iff.rfl
  slot _ hj := Function.update_of_ne hj ..
  nodup := id

theorem changesOnly_unlist (n : Incoming K M) (i : Slot) : ChangesOnly i n (n.unlist i) where
  mem _ hj := List.mem_erase_of_ne hj
  slot _ _ := rfl
  nodup hnodup := hnodup.erase i

theorem changesOnly_unlistAll (n : Incoming K M) (i : Slot) : ChangesOnly i n (n.unlistAll i) where
  mem j hj := by simp [unlistAll, hj]
  slot _ _ := rfl
  nodup hnodup := hnodup.filter _

@[simp] theorem setSc_inConnection (n : Incoming K M) (i : Slot)
    (sc : Option (ServiceConnection K M)) : (n.setSc i sc).inConnection i = sc :=
  Function.update_self ..

@[simp] theorem setSc_incomingSc (n : Incoming K M) (i : Slot)
    (sc : Option (ServiceConnection K M)) : (n.setSc i sc).incomingSc = n.incomingSc := rfl

@[simp] theorem unlist_inConnection (n : Incoming K M) (i : Slot) :
    (n.unlist i).inConnection = n.inConnection := rfl

@[simp] theorem unlistAll_inConnection (n : Incoming K M) (i : Slot) :
    (n.unlistAll i).inConnection = n.inConnection := rfl

theorem not_mem_unlistAll (n : Incoming K M) (i : Slot) : i ∉ (n.unlistAll i).incomingSc := by
  simp [unlistAll]

theorem not_mem_unlist {n : Incoming K M} (h : n.incomingSc.Nodup) (i : Slot) :
    i ∉ (n.unlist i).incomingSc := h.not_mem_erase

theorem entry_of_not_mem {n : Incoming K M} {i : Slot} (h : i ∉ n.incomingSc) :
    n.entry i = none := if_neg h

theorem entry_of_mem {n : Incoming K M} {i : Slot} {sc : ServiceConnection K M}
    (h : i ∈ n.incomingSc) (hsc : n.inConnection i = some sc) :
    n.entry i = some ((sc.commandCode, sc.address), sc.isActive) := by
  simp [entry, h, hsc]

theorem Sound.of_unlisted {n n' : Incoming K M} (h : n.Sound) {i : Slot} (hc : ChangesOnly i n n')
    (hmem : i ∉ n'.incomingSc)
    (hactive : ∀ sc, n'.inConnection i = some sc → sc.isActive = false) : n'.Sound where
  nodup := hc.nodup h.nodup
  filled j hj := by
    have hji : j ≠ i := fun heq => hmem (heq ▸ hj)
    rw [hc.slot j hji]
    exact h.filled j ((hc.mem j hji).mp hj)
  active j sc hsc hact := by
    by_cases hji : j = i
    · subst hji
      rw [hactive sc hsc] at hact
      cases hact
    · rw [hc.slot j hji] at hsc
      rw [hc.mem j hji]
      exact h.active j sc hsc hact
  apart j l k v w hj hl := by
    have hne {x : Slot} {u : Bool} (hx : n'.entry x = some (k, u)) : x ≠ i := by
      rintro rfl
      rw [entry_of_not_mem hmem] at hx
      cases hx
    have hji := hne hj
    have hli := hne hl
    rw [hc.entry j hji] at hj
    rw [hc.entry l hli] at hl
    exact h.apart j l k v w hj hl

/-- A place that is in the list has a connection whose command code and address no other one
has. -/
theorem Sound.of_listed {n n' : Incoming K M} (h : n.Sound) {i : Slot} (hc : ChangesOnly i n n')
    (hmem : i ∈ n'.incomingSc) {sc : ServiceConnection K M} (hsc : n'.inConnection i = some sc)
    (hactive : sc.isActive = true → sc.instanceId = 0)
    (hapart : ∀ j ≠ i, ∀ w, n.entry j ≠ some ((sc.commandCode, sc.address), w)) : n'.Sound where
  nodup := hc.nodup h.nodup
  filled j hj := by
    by_cases hji : j = i
    · subst hji
      simp [hsc]
    · rw [hc.slot j hji]
      exact h.filled j ((hc.mem j hji).mp hj)
  active j x hx hact := by
    by_cases hji : j = i
    · subst hji
      obtain rfl := Option.some.inj (hsc.symm.trans hx)
      exact ⟨hmem, hactive hact⟩
    · rw [hc.slot j hji] at hx
      rw [hc.mem j hji]
      exact h.active j x hx hact
  apart j l k v w hj hl := by
    have hself := entry_of_mem hmem hsc
    by_cases hji : j = i <;> by_cases hli : l = i
    · rw [hji, hli]
    · subst hji
      rw [hself] at hj
      obtain ⟨rfl, -⟩ := Prod.mk.inj (Option.some.inj hj)
      exact absurd (hc.entry l hli ▸ hl) (hapart l hli w)
    · subst hli
      rw [hself] at hl
      obtain ⟨rfl, -⟩ := Prod.mk.inj (Option.some.inj hl)
      exact absurd (hc.entry j hji ▸ hj) (hapart j hji v)
    · rw [hc.entry j hji] at hj
      rw [hc.entry l hli] at hl
      exact h.apart j l k v w hj hl

theorem Sound.apart_of_mem {n : Incoming K M} (h : n.Sound) {i : Slot}
    {sc : ServiceConnection K M} (hmem : i ∈ n.incomingSc) (hsc : n.inConnection i = some sc) :
    ∀ j ≠ i, ∀ w, n.entry j ≠ some ((sc.commandCode, sc.address), w) := by
  intro j hj w heq
  exact hj (h.apart j i _ w sc.isActive heq (entry_of_mem hmem hsc))

theorem Sound.find_active {n : Incoming K M} (h : n.Sound) {i : Slot}
    {sc : ServiceConnection K M} (hsc : n.inConnection i = some sc)
    (hactive : sc.isActive = true) : n.findSc sc.commandCode sc.address = some (i, sc) := by
  have hentry := entry_of_mem (h.active i sc hsc hactive).1 hsc
  obtain ⟨⟨j, x⟩, hfind⟩ := Option.isSome_iff_exists.mp (find_isSome_of_entry hentry)
  obtain rfl := h.apart i j _ _ _ hentry (entry_of_find hfind)
  obtain ⟨-, hx, -⟩ := findSc_some hfind
  obtain rfl := Option.some.inj (hsc.symm.trans hx)
  exact hfind

/-! ### The functions on incoming connections -/

/-- What a step does to every command code and address. -/
def Effect (n n' : Incoming K M) (deeds : List (Deed K M)) : Prop :=
  ∀ code address, AskerEffect (n.standing code address)
    (deeds.filterMap (Deed.turn? code address)) (n'.standing code address)

theorem effect_silent {n n' : Incoming K M} (h : n.Sound) (h' : n'.Sound) {i : Slot}
    (hc : ChangesOnly i n n') (hentry : n'.entry i = n.entry i) : Effect n n' [] := by
  intro code address
  apply effect_of_entry h h' hc.entry (k := (code, address))
  rw [hentry]
  exact .same

theorem effect_withdrawn {n n' : Incoming K M} (h : n.Sound) (h' : n'.Sound) {i : Slot}
    (hc : ChangesOnly i n n') (hmem : i ∉ n'.incomingSc) {sc : ServiceConnection K M}
    (hsc : n.inConnection i = some sc) (hactive : sc.isActive = false) : Effect n n' [] := by
  intro code address
  apply effect_of_entry h h' hc.entry (k := (code, address))
  rw [entry_of_not_mem hmem]
  by_cases hi : i ∈ n.incomingSc
  · rw [entry_of_mem hi hsc, hactive, entryOf]
    split_ifs
    · exact .withdrew rfl
    · exact .same
  · rw [entry_of_not_mem hi]
    exact .same

/-- An active connection goes out of the list with a deed for its command code and address. -/
theorem effect_ended {n n' : Incoming K M} (h : n.Sound) (h' : n'.Sound) {i : Slot}
    (hc : ChangesOnly i n n') (hmem : i ∉ n'.incomingSc) {sc : ServiceConnection K M}
    (hsc : n.inConnection i = some sc) (hactive : sc.isActive = true) {d : Deed K M} {t : Turn}
    (hd : ∀ code address, d.turn? code address =
      if (sc.commandCode, sc.address) = (code, address) then some t else none)
    (ht : t = .dropped ∨ t = .timedOut) : Effect n n' [d] := by
  intro code address
  apply effect_of_entry h h' hc.entry (k := (code, address))
  rw [entry_of_not_mem hmem, entry_of_mem (h.active i sc hsc hactive).1 hsc, hactive, entryOf,
    List.filterMap_cons, hd]
  split_ifs with hkey
  · rcases ht with rfl | rfl
    · exact .dropped rfl
    · exact .timedOut rfl
  · exact .same

section Functions

variable {n : Incoming K M}

/-- A connection that is not active is removed wherever it stands, and may be replaced. -/
theorem unlistAll_spec (h : n.Sound) {i : Slot} {sc : ServiceConnection K M}
    (hsc : n.inConnection i = some sc) (hactive : sc.isActive = false)
    {x : Option (ServiceConnection K M)} (hx : ∀ y, x = some y → y.isActive = false) :
    ((n.unlistAll i).setSc i x).Sound ∧ Effect n ((n.unlistAll i).setSc i x) [] := by
  have hc : ChangesOnly i n ((n.unlistAll i).setSc i x) :=
    (changesOnly_unlistAll n i).trans (changesOnly_setSc _ i x)
  have hmem : i ∉ ((n.unlistAll i).setSc i x).incomingSc := not_mem_unlistAll n i
  have h' : ((n.unlistAll i).setSc i x).Sound := by
    apply h.of_unlisted hc hmem
    intro y hy
    rw [setSc_inConnection] at hy
    exact hx y hy
  exact ⟨h', effect_withdrawn h h' hc hmem hsc hactive⟩

theorem destroy_spec (h : n.Sound) {i : Slot} {sc : ServiceConnection K M}
    (hsc : n.inConnection i = some sc) (hactive : sc.isActive = false) :
    (n.serviceConnectionDestroy i).Sound ∧ Effect n (n.serviceConnectionDestroy i) [] :=
  unlistAll_spec h hsc hactive (by simp)

/-- A connection that is switched off and taken out of the list. -/
theorem sound_leave (h : n.Sound) {i : Slot} {sc : ServiceConnection K M}
    (hactive : sc.isActive = false) : ((n.setSc i (some sc)).unlist i).Sound := by
  apply h.of_unlisted ((changesOnly_setSc n i _).trans (changesOnly_unlist _ i))
  · exact not_mem_unlist h.nodup i
  · intro x hx
    simp only [unlist_inConnection, setSc_inConnection, Option.some.injEq] at hx
    rwa [← hx]

theorem terminateSc_spec (h : n.Sound) (i : Slot) :
    (n.ojCmptTerminateSc i).1.Sound ∧
      Effect n (n.ojCmptTerminateSc i).1 (sentAll (n.ojCmptTerminateSc i).2) ∧
      ∀ x ∈ (n.ojCmptTerminateSc i).2, ∃ code, x.2 = .terminate code 0 := by
  unfold ojCmptTerminateSc
  cases hsc : n.inConnection i with
  | none => exact ⟨h, fun _ _ => .same, by simp⟩
  | some sc =>
    cases hactive : sc.isActive with
    | false =>
      obtain ⟨hsound, heffect⟩ := destroy_spec h hsc hactive
      simpa [hactive, sentAll] using ⟨hsound, heffect⟩
    | true =>
      have hzero := (h.active i sc hsc hactive).2
      have hend : n.scManagerTerminateServiceConnection sc =
          ((n.setSc i (some { sc with isActive := false, queue := [] })).unlist i,
            [(sc.address, .terminate sc.commandCode 0)]) := by
        unfold scManagerTerminateServiceConnection
        rw [h.find_active hsc hactive]
        simp only [hzero]
        rw [if_pos (by decide)]
        rfl
      simp only [hactive, hend, if_true]
      set m := (n.setSc i (some { sc with isActive := false, queue := [] })).unlist i
      have hm : m.Sound := sound_leave h rfl
      have hcm : ChangesOnly i n m := (changesOnly_setSc n i _).trans (changesOnly_unlist _ i)
      have hslot : m.inConnection i = some { sc with isActive := false, queue := [] } := by simp [m]
      obtain ⟨h', -⟩ := destroy_spec hm hslot rfl
      have hc : ChangesOnly i n (m.serviceConnectionDestroy i) :=
        hcm.trans ((changesOnly_unlistAll m i).trans (changesOnly_setSc _ i none))
      refine ⟨h', ?_, by simp⟩
      apply effect_ended h h' hc (not_mem_unlistAll m i) hsc hactive (t := .dropped)
      · intro code address
        simp only [Deed.turn?, Message.request?, Prod.mk.injEq]
        split_ifs <;> simp_all [Request.turn]
      · exact .inl rfl

/-- A connection of the list gets other data. -/
theorem replace_spec (h : n.Sound) {i : Slot} {sc sc' : ServiceConnection K M}
    (hmem : i ∈ n.incomingSc) (hsc : n.inConnection i = some sc)
    (hkey : (sc'.commandCode, sc'.address) = (sc.commandCode, sc.address))
    (hactive : sc'.isActive = sc.isActive) (hinstance : sc'.instanceId = sc.instanceId) :
    (n.setSc i (some sc')).Sound ∧ Effect n (n.setSc i (some sc')) [] := by
  have hc := changesOnly_setSc n i (some sc')
  have h' : (n.setSc i (some sc')).Sound := by
    apply h.of_listed hc hmem (setSc_inConnection ..)
    · intro hact
      rw [hinstance]
      exact (h.active i sc hsc (hactive ▸ hact)).2
    · rw [hkey]
      exact h.apart_of_mem hmem hsc
  refine ⟨h', effect_silent h h' hc ?_⟩
  rw [entry_of_mem hmem hsc, ← hkey, ← hactive]
  exact entry_of_mem (n := n.setSc i (some sc')) hmem (setSc_inConnection ..)

theorem receive_spec [Field K] [LinearOrder K] (h : n.Sound) (i : Slot) (time : K) :
    (n.receiveActive i time).1.Sound ∧
      Effect n (n.receiveActive i time).1
        (match (n.receiveActive i time).2, n.inConnection i with
        | .timedOut, some sc => [.timedOut sc.commandCode sc.address]
        | _, _ => []) := by
  unfold receiveActive
  cases hsc : n.inConnection i with
  | none => exact ⟨h, fun _ _ => .same⟩
  | some sc =>
    simp only
    cases hactive : sc.isActive with
    | false => exact ⟨h, fun _ _ => .same⟩
    | true =>
      rw [if_pos rfl]
      unfold scManagerReceiveServiceConnection
      rw [h.find_active hsc hactive]
      simp only
      split_ifs with hlate
      · have h' : ((n.setSc i (some { sc with isActive := false, queue := [] })).unlist i).Sound :=
          sound_leave h rfl
        refine ⟨h', ?_⟩
        apply effect_ended h h' ((changesOnly_setSc n i _).trans (changesOnly_unlist _ i))
          (not_mem_unlist h.nodup i) hsc hactive (t := .timedOut)
        · intro code address
          simp [Deed.turn?]
        · exact .inr rfl
      · cases hqueue : sc.queue with
        | nil => exact ⟨h, fun _ _ => .same⟩
        | cons x queue =>
          exact replace_spec h (h.active i sc hsc hactive).1 hsc rfl rfl rfl

theorem establish_spec [Zero K] (h : n.Sound) (cCode : UInt16) (pv : UInt32)
    (address : JausAddress) (rateHz timeoutSec : K) (qSize : ℕ) :
    let n' := n.ojCmptEstablishSc cCode pv address rateHz timeoutSec qSize
    n'.Sound ∧ Effect n n' [] := by
  unfold ojCmptEstablishSc
  cases hfind : (List.finRange OJ_CMPT_MAX_INCOMING_SC_COUNT).find?
      fun i => (n.inConnection i).isNone with
  | none => exact ⟨h, fun _ _ => .same⟩
  | some i =>
    have hfree : (n.inConnection i).isNone = true := by simpa using List.find?_some hfind
    have hout : i ∉ n.incomingSc := by
      intro hi
      have := h.filled i hi
      rw [← Option.not_isNone, hfree] at this
      cases this
    simp only
    generalize hsc : (some _ : Option (ServiceConnection K M)) = x
    have hc := changesOnly_setSc n i x
    have h' : (n.setSc i x).Sound := by
      apply h.of_unlisted hc hout
      intro y hy
      rw [setSc_inConnection, ← hsc] at hy
      rw [← Option.some.inj hy]
    refine ⟨h', effect_silent h h' hc ?_⟩
    rw [entry_of_not_mem hout]
    exact entry_of_not_mem hout

theorem receiveMessage_spec (h : n.Sound) (source : JausAddress) (code number : UInt16) (data : M)
    (time : K) :
    let n' := n.scManagerReceiveMessage source code number data time
    n'.Sound ∧ Effect n n' [] := by
  unfold scManagerReceiveMessage
  cases hfind : n.findSc code source with
  | none => exact ⟨h, fun _ _ => .same⟩
  | some x =>
    obtain ⟨i, sc⟩ := x
    obtain ⟨hmem, hsc, -, -⟩ := findSc_some hfind
    simp only
    cases hactive : sc.isActive with
    | false => exact ⟨h, fun _ _ => .same⟩
    | true =>
      rw [if_pos rfl]
      exact replace_spec h hmem hsc rfl hactive.symm rfl

/-- A connection is only asked for when no other one of the list has its command code and
destination, and with the presence vector of the two. -/
def MayManage (presence : JausAddress → UInt16 → UInt32) (n : Incoming K M) (self : JausAddress)
    (lookup : JausAddress → Option JausAddress) (i : Slot) : Prop :=
  ∀ sc address, n.inConnection i = some sc → sc.isActive = false →
    destination self lookup sc = some address →
      sc.presenceVector = presence address sc.commandCode ∧
        ∀ j ≠ i, ∀ w, n.entry j ≠ some ((sc.commandCode, address), w)

theorem create_spec [Field K] [LinearOrder K] (h : n.Sound)
    {presence : JausAddress → UInt16 → UInt32} {self : JausAddress}
    {lookup : JausAddress → Option JausAddress} {i : Slot} (hok : MayManage presence n self lookup i)
    {sc : ServiceConnection K M} (hsc : n.inConnection i = some sc) (hactive : sc.isActive = false)
    (next : K) :
    let r := n.scManagerCreateServiceConnection self lookup i { sc with nextRequestTimeSec := next }
    r.1.Sound ∧ Effect n r.1 (sentAll r.2) ∧
      ∀ x ∈ r.2, ∃ code rate, x.2 = .create code rate (presence x.1 code) := by
  unfold scManagerCreateServiceConnection
  have hdestination : destination self lookup { sc with
      nextRequestTimeSec := next, confirmedUpdateRateHz := 0, lastSentTime := 0
      sequenceNumber := 65535, instanceId := -1, isActive := false } =
      destination self lookup sc := rfl
  simp only [hdestination]
  cases hto : destination self lookup sc with
  | none =>
    simp only
    obtain ⟨h', heffect⟩ := unlistAll_spec h hsc hactive (x := some { sc with
      nextRequestTimeSec := next, confirmedUpdateRateHz := 0, lastSentTime := 0
      sequenceNumber := 65535, instanceId := -1, isActive := false }) (by
        intro y hy
        rw [← Option.some.inj hy])
    exact ⟨h', heffect, by simp⟩
  | some address =>
    obtain ⟨hpresence, hapart⟩ := hok sc address hsc hactive hto
    simp only
    generalize hasked : ({ sc with
      nextRequestTimeSec := next, confirmedUpdateRateHz := 0, lastSentTime := 0
      sequenceNumber := 65535, instanceId := -1, isActive := false, address } :
        ServiceConnection K M) = asked
    have hkey : (asked.commandCode, asked.address) = (sc.commandCode, address) := by rw [← hasked]
    have hinactive : asked.isActive = false := by rw [← hasked]
    set n' : Incoming K M :=
      { (n.unlistAll i).setSc i (some asked) with
        incomingSc := i :: (n.unlistAll i).incomingSc
        incomingScCount := (n.unlistAll i).incomingScCount + 1 } with hn'
    have hc : ChangesOnly i n n' := by
      refine ⟨fun j hj => ?_, fun j hj => ?_, fun hnodup => ?_⟩
      · simp [hn', unlistAll, hj]
      · exact Function.update_of_ne hj ..
      · exact List.nodup_cons.mpr ⟨not_mem_unlistAll n i, (changesOnly_unlistAll n i).nodup hnodup⟩
    have hmem : i ∈ n'.incomingSc := List.mem_cons_self
    have hslot : n'.inConnection i = some asked := Function.update_self ..
    have h' : n'.Sound := by
      apply h.of_listed hc hmem hslot
      · intro hact
        rw [hinactive] at hact
        cases hact
      · rw [hkey]
        exact hapart
    refine ⟨h', ?_, ?_⟩
    · intro code b
      apply effect_of_entry h h' hc.entry (k := (code, b))
      rw [entry_of_mem hmem hslot, hkey, hinactive, entryOf]
      by_cases hk : (sc.commandCode, address) = (code, b)
      · obtain ⟨rfl, rfl⟩ := Prod.mk.inj hk
        simp only [sentAll, Deed.turn?, Message.request?, List.map_cons, List.map_nil, if_true,
          List.filterMap_cons, List.filterMap_nil, Option.map_some, Request.turn]
        exact .asked
      · have hturn : Deed.turn? code b (.sent address (.create sc.commandCode
            sc.requestedUpdateRateHz sc.presenceVector) : Deed K M) = none := by
          simp only [Deed.turn?, Message.request?]
          split_ifs with hb hcode
          · exact absurd (by rw [hb, hcode]) hk
          · rfl
          · rfl
        rw [if_neg hk, sentAll, List.map_cons, List.map_nil, List.filterMap_cons_none hturn,
          List.filterMap_nil]
        by_cases hi : i ∈ n.incomingSc
        · rw [entry_of_mem hi hsc, hactive, entryOf]
          split_ifs
          · exact .withdrew rfl
          · exact .same
        · rw [entry_of_not_mem hi]
          exact .same
    · simp [hpresence]

theorem manage_spec [Field K] [LinearOrder K] (h : n.Sound)
    {presence : JausAddress → UInt16 → UInt32} {self : JausAddress}
    {lookup : JausAddress → Option JausAddress} {i : Slot} (hok : MayManage presence n self lookup i)
    (time : K) :
    let r := n.ojCmptManageServiceConnections self lookup i time
    r.1.Sound ∧ Effect n r.1 (sentAll r.2) ∧
      ∀ x ∈ r.2, ∃ code rate, x.2 = .create code rate (presence x.1 code) := by
  unfold ojCmptManageServiceConnections
  cases hsc : n.inConnection i with
  | none => exact ⟨h, fun _ _ => .same, by simp⟩
  | some sc =>
    simp only
    split_ifs with hdue
    · have hactive : sc.isActive = false := by
        simp only [Bool.and_eq_true, Bool.not_eq_true'] at hdue
        exact hdue.1
      exact create_spec h hok hsc hactive _
    · exact ⟨h, fun _ _ => .same, by simp⟩

theorem confirm_spec (h : n.Sound) (source : JausAddress) (code : UInt16) {instanceId : UInt8}
    (rate : K) {responseCode : ResponseCode}
    (hinstance : responseCode = .JAUS_SC_SUCCESSFUL → instanceId = 0) (time : K) :
    let r := n.scManagerProcessConfirmScMessage source code instanceId rate responseCode time
    r.1.Sound ∧
      AnswerEffect (responseCode = .JAUS_SC_SUCCESSFUL) (n.standing code source)
        ((r.2.toList.map (Deed.sent source)).filterMap (Deed.turn? code source))
        (r.1.standing code source) ∧
      (∀ c address, (c, address) ≠ (code, source) →
        r.1.standing c address = n.standing c address) ∧
      ∀ m ∈ r.2, m = .terminate code 0 := by
  unfold scManagerProcessConfirmScMessage
  cases hfind : n.findSc code source with
  | none =>
    have hstanding : n.standing code source = none := by simp [standing, hfind]
    by_cases hr : responseCode = .JAUS_SC_SUCCESSFUL
    · subst hr
      rw [hinstance rfl]
      refine ⟨h, ?_, fun _ _ _ => rfl, by simp⟩
      rw [hstanding]
      simpa [Deed.turn?, Message.request?, Request.turn] using
        (AnswerEffect.declined rfl rfl : AnswerEffect true none [.dropped] none)
    · refine ⟨h, ?_, fun _ _ _ => rfl, by simp [hr]⟩
      rw [hstanding]
      simpa [hr] using (AnswerEffect.ignored rfl rfl : AnswerEffect false none [] none)
  | some x =>
    obtain ⟨i, sc⟩ := x
    obtain ⟨hmem, hsc, rfl, rfl⟩ := findSc_some hfind
    have hv : n.standing sc.commandCode sc.address ≠ none := by simp [standing, hfind]
    have hold := entry_of_mem hmem hsc
    by_cases hr : responseCode = .JAUS_SC_SUCCESSFUL
    · simp only [hr, if_true]
      generalize hgranted : ({ sc with
        confirmedUpdateRateHz := rate, instanceId := (instanceId.toNat : ℤ), isActive := true
        sequenceNumber := 65535, lastSentTime := time } : ServiceConnection K M) = granted
      have hkey : (granted.commandCode, granted.address) = (sc.commandCode, sc.address) := by
        rw [← hgranted]
      have hzero : granted.instanceId = 0 := by
        rw [← hgranted, hinstance hr]
        rfl
      have hactive : granted.isActive = true := by rw [← hgranted]
      have hc := changesOnly_setSc n i (some granted)
      have h' : (n.setSc i (some granted)).Sound := by
        apply h.of_listed hc hmem (setSc_inConnection ..) (fun _ => hzero)
        rw [hkey]
        exact h.apart_of_mem hmem hsc
      have hnew : (n.setSc i (some granted)).entry i =
          some ((sc.commandCode, sc.address), true) := by
        rw [← hkey, ← hactive]
        exact entry_of_mem (n := n.setSc i (some granted)) hmem (setSc_inConnection ..)
      refine ⟨h', ?_, ?_, by simp⟩
      · rw [h'.standing_iff.mpr ⟨i, hnew⟩]
        exact .granted (by simp) hv
      · intro c address hne
        have hchange := standing_change h h' hc.entry (c, address)
        simp only [hnew, hold, entryOf, if_neg (Ne.symm hne)] at hchange
        exact hchange
    · simp only [hr, if_false]
      have h' : ((n.setSc i (some { sc with isActive := false })).unlist i).Sound :=
        sound_leave h rfl
      have hc := (changesOnly_setSc n i (some { sc with isActive := false })).trans
        (changesOnly_unlist _ i)
      have hnew := entry_of_not_mem (not_mem_unlist (n := n.setSc i (some { sc with
        isActive := false })) h.nodup i)
      refine ⟨h', ?_, ?_, by simp⟩
      · have hchange := standing_change h h' hc.entry (sc.commandCode, sc.address)
        rw [hnew, hold, entryOf, entryOf, if_pos rfl] at hchange
        rw [hchange]
        exact .refused (by simp) hv
      · intro c address hne
        have hchange := standing_change h h' hc.entry (c, address)
        simp only [hnew, hold, entryOf, if_neg (Ne.symm hne)] at hchange
        exact hchange

theorem dropUnverified_of_verified {verify : JausAddress → Bool}
    (hverify : ∀ i ∈ n.incomingSc, ∀ sc, n.inConnection i = some sc → verify sc.address = true) :
    n.dropUnverified verify = n := by
  unfold dropUnverified
  generalize n.incomingSc = l at hverify
  induction l with
  | nil => rfl
  | cons i l ih =>
    rw [List.foldl_cons]
    have hrest := ih fun j hj => hverify j (List.mem_cons_of_mem _ hj)
    cases hsc : n.inConnection i with
    | none => exact hrest
    | some sc =>
      simp only [hverify i List.mem_cons_self sc hsc, if_true]
      exact hrest

end Functions

end Incoming

end carma.sc_manager
