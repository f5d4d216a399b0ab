-- What a component serves: each address has one connection of a command code at most, a request
-- makes it or starts it again, an end takes it away, and nothing else changes who is served.
import Carma.ScManager

namespace carma.sc_manager

open carma.large_message_handler (JausAddress)

variable {K M : Type}

/-! ## The connections of an address -/

theorem map_replaceF {α β : Type} {p : α → Bool} {f : α → α} {g : α → β} (hg : ∀ x, g (f x) = g x) (l : List α) :
    (l.replaceF fun x => if p x then some (f x) else none).map g = l.map g := by
  induction l with
  | nil => rfl
  | cons x l ih =>
    by_cases hp : p x = true
    · simp [List.replaceF, hp, hg]
    · simp [List.replaceF, hp, ih]

def ofAddress (scList : List (ServiceConnection K M)) (address : JausAddress) :
    List (ServiceConnection K M) :=
  scList.filter (·.address = address)

theorem ofAddress_eq_nil_iff {l : List (ServiceConnection K M)} {address : JausAddress} :
    ofAddress l address = [] ↔ ∀ sc ∈ l, sc.address ≠ address := by
  simp [ofAddress]

theorem mem_ofAddress {l : List (ServiceConnection K M)} {address : JausAddress}
    {sc : ServiceConnection K M} : sc ∈ ofAddress l address ↔ sc ∈ l ∧ sc.address = address := by
  simp [ofAddress]

/-- What is changed is of one address. -/
theorem ofAddress_replaceF {p : ServiceConnection K M → Bool}
    {f : ServiceConnection K M → ServiceConnection K M} {source : JausAddress}
    (hf : ∀ sc, (f sc).address = sc.address) (hp : ∀ sc, p sc = true → sc.address = source)
    (l : List (ServiceConnection K M)) (address : JausAddress) :
    ofAddress (l.replaceF fun sc => if p sc then some (f sc) else none) address =
      if address = source then
        (ofAddress l source).replaceF fun sc => if p sc then some (f sc) else none
      else ofAddress l address := by
  induction l with
  | nil => simp [ofAddress]
  | cons sc l ih =>
    by_cases hsc : p sc = true
    · by_cases haddress : address = source
      · subst haddress
        simp [ofAddress, List.replaceF, hsc, hf, hp sc hsc]
      · simp [ofAddress, List.replaceF, hsc, hf, hp sc hsc, Ne.symm haddress, haddress]
    · rw [List.replaceF_cons, if_neg hsc]
      simp only [ofAddress, List.filter_cons] at ih ⊢
      rw [ih]
      by_cases haddress : address = source
      · subst haddress
        by_cases h : sc.address = address <;> simp [h, List.replaceF, hsc]
      · simp [haddress]

theorem ofAddress_eraseP {p : ServiceConnection K M → Bool} {source : JausAddress}
    (hp : ∀ sc, p sc = true → sc.address = source) (l : List (ServiceConnection K M))
    (address : JausAddress) :
    ofAddress (l.eraseP p) address =
      if address = source then (ofAddress l source).eraseP p else ofAddress l address := by
  induction l with
  | nil => simp [ofAddress]
  | cons sc l ih =>
    by_cases hsc : p sc = true
    · by_cases haddress : address = source
      · subst haddress
        simp [ofAddress, hsc, hp sc hsc]
      · simp [ofAddress, hsc, hp sc hsc, Ne.symm haddress, haddress]
    · rw [List.eraseP_cons_of_neg hsc]
      simp only [ofAddress, List.filter_cons] at ih ⊢
      rw [ih]
      by_cases haddress : address = source
      · subst haddress
        by_cases h : sc.address = address <;> simp [h, hsc]
      · simp [haddress]

theorem isOf_address {sc : ServiceConnection K M} {address : JausAddress} {i : ℤ}
    (h : sc.isOf address i = true) : sc.address = address := by
  simp only [ServiceConnection.isOf, decide_eq_true_eq] at h
  exact h.1

theorem any_isOf (l : List (ServiceConnection K M)) (address : JausAddress) (i : ℤ) :
    l.any (·.isOf address i) = (ofAddress l address).any (·.instanceId = i) := by
  rw [ofAddress, List.any_filter]
  apply congrArg (fun f => l.any f)
  funext sc
  simp [ServiceConnection.isOf]

theorem scGetAvailableInstanceId_new {l : List (ServiceConnection K M)} {address : JausAddress}
    (hl : ofAddress l address = []) (pv : UInt32) : scGetAvailableInstanceId l address pv = 0 := by
  have hfind : l.find? (fun sc => sc.address = address ∧ sc.presenceVector = pv) = none := by
    rw [List.find?_eq_none]
    intro sc hsc
    simp [ofAddress_eq_nil_iff.mp hl sc hsc]
  have hany : l.any (·.isOf address ((0 : ℕ) : ℤ)) = false := by
    rw [any_isOf, hl]
    rfl
  unfold scGetAvailableInstanceId
  rw [hfind, show (256 : ℕ) = 255 + 1 from rfl, List.range_succ_eq_map,
    List.find?_cons_of_pos (by simpa using hany)]
  rfl

theorem scGetAvailableInstanceId_only {l : List (ServiceConnection K M)} {address : JausAddress}
    {sc : ServiceConnection K M} (hl : ofAddress l address = [sc]) :
    scGetAvailableInstanceId l address sc.presenceVector = sc.instanceId := by
  have hfind : l.find? (fun x => x.address = address ∧ x.presenceVector = sc.presenceVector) =
      some sc := by
    have hfilter : (ofAddress l address).find? (·.presenceVector = sc.presenceVector) = some sc := by
      simp [hl]
    rw [ofAddress, List.find?_filter] at hfilter
    simpa using hfilter
  unfold scGetAvailableInstanceId
  rw [hfind]

/-! ## What a component serves -/

/-- What another component can name of a connection. -/
def ServiceConnection.terms (sc : ServiceConnection K M) : UInt16 × ℤ × UInt32 :=
  (sc.commandCode, sc.instanceId, sc.presenceVector)

namespace Outgoing

/-- The connections of a command code and an address. -/
def connectionsTo (o : Outgoing K M) (code : UInt16) (address : JausAddress) :
    List (ServiceConnection K M) :=
  ofAddress (o.connections code) address

/-- What a component serves to an address of a command code. -/
def subscriptions (o : Outgoing K M) (code : UInt16) (address : JausAddress) :
    List (UInt16 × ℤ × UInt32) :=
  (o.connectionsTo code address).map (·.terms)

/-- The numbers that the next messages to an address get. -/
def numbers (o : Outgoing K M) (code : UInt16) (address : JausAddress) : List UInt16 :=
  (o.connectionsTo code address).map (·.sequenceNumber)

theorem find_setScList (o : Outgoing K M) (commandCode code : UInt16)
    (l : List (ServiceConnection K M)) :
    (o.setScList commandCode l).scFindSupportedScMsgInList code =
      (o.scFindSupportedScMsgInList code).map fun s =>
        if s.commandCode = commandCode then { s with scList := l } else s := by
  unfold setScList scFindSupportedScMsgInList
  simp only
  induction o.supportedScMsgList with
  | nil => rfl
  | cons s rest ih =>
    by_cases hs : s.commandCode = commandCode
    · rw [List.replaceF_cons, if_pos hs]
      by_cases hcode : s.commandCode = code
      · simp [hcode, ← hs]
      · rw [List.find?_cons_of_neg (by simpa using hcode),
          List.find?_cons_of_neg (by simpa using hcode)]
        cases hfind : rest.find? (·.commandCode = code) with
        | none => rfl
        | some t =>
          have ht : t.commandCode = code := by simpa using List.find?_some hfind
          have hne : ¬ t.commandCode = commandCode := by
            rw [ht, ← hs]
            exact fun h => hcode h.symm
          simp [hne]
    · rw [List.replaceF_cons, if_neg hs]
      by_cases hcode : s.commandCode = code
      · simp [hcode] at hs ⊢
        simp [hs]
      · rw [List.find?_cons_of_neg (by simpa using hcode),
          List.find?_cons_of_neg (by simpa using hcode)]
        exact ih

theorem find_code {o : Outgoing K M} {code : UInt16} {s : SupportedScMessage K M}
    (hs : o.scFindSupportedScMsgInList code = some s) : s.commandCode = code := by
  simpa using List.find?_some hs

/-- A supported message is supported still. -/
def able (o : Outgoing K M) (code : UInt16) : Bool := (o.scFindSupportedScMsgInList code).isSome

@[simp] theorem able_setScList (o : Outgoing K M) (commandCode code : UInt16)
    (l : List (ServiceConnection K M)) : (o.setScList commandCode l).able code = o.able code := by
  simp [able, find_setScList]

theorem connections_of_find {o : Outgoing K M} {code : UInt16} {s : SupportedScMessage K M}
    (hs : o.scFindSupportedScMsgInList code = some s) : o.connections code = s.scList := by
  simp [connections, hs]

theorem connectionsTo_of_find {o : Outgoing K M} {code : UInt16} {s : SupportedScMessage K M}
    (hs : o.scFindSupportedScMsgInList code = some s) (address : JausAddress) :
    o.connectionsTo code address = ofAddress s.scList address := by
  rw [connectionsTo, connections_of_find hs]

theorem connectionsTo_setScList {o : Outgoing K M} {commandCode : UInt16}
    {s : SupportedScMessage K M} (hs : o.scFindSupportedScMsgInList commandCode = some s)
    (l : List (ServiceConnection K M)) (code : UInt16) (address : JausAddress) :
    (o.setScList commandCode l).connectionsTo code address =
      if code = commandCode then ofAddress l address else o.connectionsTo code address := by
  unfold connectionsTo connections
  rw [find_setScList]
  by_cases hcode : code = commandCode
  · subst hcode
    simp [hs, find_code hs]
  · rw [if_neg hcode]
    cases hfind : o.scFindSupportedScMsgInList code with
    | none => rfl
    | some t => simp [find_code hfind, hcode]

/-- The list of a message is changed at one address only. -/
theorem connectionsTo_setScList_at {o : Outgoing K M} {commandCode : UInt16}
    {s : SupportedScMessage K M} (hs : o.scFindSupportedScMsgInList commandCode = some s)
    {l : List (ServiceConnection K M)} {source : JausAddress}
    (hl : ∀ address ≠ source, ofAddress l address = ofAddress s.scList address) (code : UInt16)
    (address : JausAddress) : (o.setScList commandCode l).connectionsTo code address =
      if (code, address) = (commandCode, source) then ofAddress l source
      else o.connectionsTo code address := by
  rw [connectionsTo_setScList hs]
  by_cases hcode : code = commandCode
  · subst hcode
    by_cases haddress : address = source
    · subst haddress
      simp
    · simp [haddress, hl address haddress, connectionsTo_of_find hs]
  · simp [hcode]

theorem connectionsTo_of_not_able {o : Outgoing K M} {code : UInt16} (h : o.able code = false)
    (address : JausAddress) : o.connectionsTo code address = [] := by
  unfold able at h
  rw [Option.isSome_eq_false_iff, Option.isNone_iff_eq_none] at h
  simp [connectionsTo, connections, h, ofAddress]

theorem subscriptions_of_not_able {o : Outgoing K M} {code : UInt16} (h : o.able code = false)
    (address : JausAddress) : o.subscriptions code address = [] := by
  rw [subscriptions, connectionsTo_of_not_able h, List.map_nil]

theorem subscriptions_congr {o o' : Outgoing K M} {code : UInt16} {address : JausAddress}
    (h : o'.connectionsTo code address = o.connectionsTo code address) :
    o'.subscriptions code address = o.subscriptions code address := by
  rw [subscriptions, h, subscriptions]

/-- Each address has one connection of a command code at most: the first instance, with the
presence vector that it always asks for. -/
def Sound (presence : JausAddress → UInt16 → UInt32) (o : Outgoing K M) : Prop :=
  ∀ code address, o.subscriptions code address = [] ∨
    o.subscriptions code address = [(code, 0, presence address code)]

theorem Sound.cases {presence : JausAddress → UInt16 → UInt32} {o : Outgoing K M}
    (h : Sound presence o) (code : UInt16) (address : JausAddress) :
    o.connectionsTo code address = [] ∨ ∃ sc, o.connectionsTo code address = [sc] ∧
      sc.commandCode = code ∧ sc.instanceId = 0 ∧ sc.presenceVector = presence address code := by
  rcases h code address with hnone | hone
  · exact .inl (List.map_eq_nil_iff.mp hnone)
  · obtain ⟨sc, hsc, hterms⟩ := List.map_eq_singleton_iff.mp hone
    obtain ⟨hcode, hrest⟩ := Prod.mk.inj hterms
    exact .inr ⟨sc, hsc, hcode, Prod.mk.inj hrest⟩

/-- A step keeps what is served, and goes on being able. -/
structure SameService (o o' : Outgoing K M) : Prop where
  able : ∀ code, o.able code = true → o'.able code = true
  subscriptions : ∀ code address, o'.subscriptions code address = o.subscriptions code address

theorem SameService.refl (o : Outgoing K M) : SameService o o := ⟨fun _ => id, fun _ _ => rfl⟩

theorem Sound.of_same {presence : JausAddress → UInt16 → UInt32} {o o' : Outgoing K M}
    (h : Sound presence o) (hsame : SameService o o') : Sound presence o' := by
  intro code address
  rw [hsame.subscriptions]
  exact h code address

/-! ### Switching on and off -/

@[simp] theorem able_setActive (o : Outgoing K M) (source : JausAddress) (code : UInt16)
    (i : UInt8) (isActive : Bool) (c : UInt16) :
    (o.setActive source code i isActive).able c = o.able c := by
  unfold setActive
  cases o.scFindSupportedScMsgInList code with
  | none => rfl
  | some s => simp

/-- A connection that is switched on or off keeps all else. -/
theorem map_setActive {β : Type} {g : ServiceConnection K M → β}
    (hg : ∀ sc v, g { sc with isActive := v } = g sc) (o : Outgoing K M) (source : JausAddress)
    (code : UInt16) (i : UInt8) (isActive : Bool) (c : UInt16) (address : JausAddress) :
    ((o.setActive source code i isActive).connectionsTo c address).map g =
      (o.connectionsTo c address).map g := by
  unfold setActive
  cases hs : o.scFindSupportedScMsgInList code with
  | none => rfl
  | some s =>
    have hl := ofAddress_replaceF (f := fun sc => { sc with isActive }) (fun _ => rfl)
      (fun sc (h : sc.isOf source i.toNat = true) => isOf_address h) s.scList
    simp only
    rw [connectionsTo_setScList_at hs (fun a ha => (hl a).trans (if_neg ha))]
    split_ifs with hkey
    · obtain ⟨rfl, rfl⟩ := Prod.mk.inj hkey
      rw [hl, if_pos rfl, map_replaceF fun sc => hg sc isActive, connectionsTo_of_find hs]
    · rfl

theorem same_setActive (o : Outgoing K M) (source : JausAddress) (code : UInt16) (i : UInt8)
    (isActive : Bool) : SameService o (o.setActive source code i isActive) :=
  ⟨fun c h => by simpa using h, fun c address => map_setActive (fun _ _ => rfl) ..⟩

theorem numbers_setActive (o : Outgoing K M) (source : JausAddress) (code : UInt16) (i : UInt8)
    (isActive : Bool) (c : UInt16) (address : JausAddress) :
    (o.setActive source code i isActive).numbers c address = o.numbers c address :=
  map_setActive (fun _ _ => rfl) ..

/-! ### Supported messages -/

theorem able_addSupported {o : Outgoing K M} {c : UInt16} (h : o.able c = true) (code : UInt16) :
    (o.scManagerAddSupportedMessage code).able c = true := by
  unfold scManagerAddSupportedMessage
  cases o.scFindSupportedScMsgInList code with
  | some s => exact h
  | none =>
    unfold able scFindSupportedScMsgInList at h ⊢
    rw [List.find?_cons]
    split
    · rfl
    · exact h

theorem connectionsTo_addSupported (o : Outgoing K M) (code c : UInt16) (address : JausAddress) :
    (o.scManagerAddSupportedMessage code).connectionsTo c address = o.connectionsTo c address := by
  unfold scManagerAddSupportedMessage
  cases hs : o.scFindSupportedScMsgInList code with
  | some s => rfl
  | none =>
    unfold scFindSupportedScMsgInList at hs
    unfold connectionsTo connections scFindSupportedScMsgInList
    by_cases hc : code = c
    · subst hc
      simp [hs]
    · simp [hc]

theorem same_addSupported (o : Outgoing K M) (code : UInt16) :
    SameService o (o.scManagerAddSupportedMessage code) where
  able _ h := able_addSupported h code
  subscriptions c address := subscriptions_congr (connectionsTo_addSupported o code c address)

/-! ### The node manager's word -/

theorem find_dropUnverified (o : Outgoing K M) (verify : JausAddress → Bool) (code : UInt16) :
    (o.dropUnverified verify).scFindSupportedScMsgInList code =
      (o.scFindSupportedScMsgInList code).map fun s =>
        { s with scList := s.scList.filter (verify ·.address) } := by
  unfold dropUnverified scFindSupportedScMsgInList
  rw [List.find?_map]
  rfl

theorem connections_dropUnverified {o : Outgoing K M} {verify : JausAddress → Bool} {code : UInt16}
    (hverify : ∀ sc ∈ o.connections code, verify sc.address = true) :
    (o.dropUnverified verify).connections code = o.connections code := by
  unfold connections at hverify ⊢
  rw [find_dropUnverified]
  cases hs : o.scFindSupportedScMsgInList code with
  | none => rfl
  | some s =>
    simp only [hs] at hverify
    simp only [Option.map_some]
    rw [List.filter_eq_self.mpr hverify]

theorem same_dropUnverified {o : Outgoing K M} {verify : JausAddress → Bool}
    (hverify : ∀ code, ∀ sc ∈ o.connections code, verify sc.address = true) :
    SameService o (o.dropUnverified verify) where
  able code h := by
    unfold able at h ⊢
    rw [find_dropUnverified, Option.isSome_map]
    exact h
  subscriptions code address := by
    simp [subscriptions, connectionsTo, connections_dropUnverified (hverify code)]

/-! ### Sending -/

section Sending

variable [Field K] [LinearOrder K]

/-- What sending does to a connection. -/
def counted (currentTime : K) (sc : ServiceConnection K M) : ServiceConnection K M :=
  if sc.isDue currentTime then
    { sc with lastSentTime := currentTime, sequenceNumber := sc.sequenceNumber + 1 }
  else sc

theorem counted_address (time : K) (sc : ServiceConnection K M) :
    (counted time sc).address = sc.address := by
  unfold counted
  split_ifs <;> rfl

theorem counted_terms (time : K) (sc : ServiceConnection K M) :
    (counted time sc).terms = sc.terms := by
  unfold counted
  split_ifs <;> rfl

@[simp] theorem able_getSendList (o : Outgoing K M) (code : UInt16) (time : K) (c : UInt16) :
    (o.scManagerGetSendList code time).1.able c = o.able c := by
  unfold scManagerGetSendList
  cases o.scFindSupportedScMsgInList code with
  | none => rfl
  | some s => simp

theorem connectionsTo_getSendList (o : Outgoing K M) (code : UInt16) (time : K) (c : UInt16)
    (address : JausAddress) :
    (o.scManagerGetSendList code time).1.connectionsTo c address =
      if c = code then (o.connectionsTo c address).map (counted time)
      else o.connectionsTo c address := by
  unfold scManagerGetSendList
  cases hs : o.scFindSupportedScMsgInList code with
  | none =>
    split_ifs with hc
    · subst hc
      rw [connectionsTo_of_not_able (by simp [able, hs]), List.map_nil]
    · rfl
  | some s =>
    simp only
    rw [connectionsTo_setScList hs]
    split_ifs with hc
    · subst hc
      rw [connectionsTo_of_find hs]
      change ofAddress (s.scList.map (counted time)) address = _
      simp [ofAddress, List.filter_map, Function.comp_def, counted_address]
    · rfl

theorem same_getSendList (o : Outgoing K M) (code : UInt16) (time : K) :
    SameService o (o.scManagerGetSendList code time).1 where
  able c h := by simpa using h
  subscriptions c address := by
    unfold subscriptions
    rw [connectionsTo_getSendList]
    split_ifs
    · simp [Function.comp_def, counted_terms]
    · rfl

end Sending

/-! ### Requests -/

section Requests

variable {presence : JausAddress → UInt16 → UInt32} {o : Outgoing K M}

theorem create_unable [Zero K] {code : UInt16} (hable : o.able code = false)
    (source : JausAddress) (rate : K) (pv : UInt32) :
    o.scManagerProcessCreateScMessage source code rate pv =
      (o, .confirm code 0 0 .JAUS_SC_COMPONENT_NOT_CAPABLE) := by
  unfold able at hable
  rw [Option.isSome_eq_false_iff, Option.isNone_iff_eq_none] at hable
  unfold scManagerProcessCreateScMessage
  rw [hable]

/-- A request is granted with the first instance, whether the connection is there or not, and its
messages are numbered from the start. -/
theorem create_able [Zero K] (h : Sound presence o) {code : UInt16} (hable : o.able code = true)
    (source : JausAddress) (rate : K) :
    ∃ o', o.scManagerProcessCreateScMessage source code rate (presence source code) =
        (o', .confirm code 0 rate .JAUS_SC_SUCCESSFUL) ∧
      (∀ c, o'.able c = o.able c) ∧
      (∃ sc, o'.connectionsTo code source = [sc] ∧
        sc.terms = (code, 0, presence source code) ∧ sc.sequenceNumber = 0) ∧
      ∀ c address, (c, address) ≠ (code, source) →
        o'.connectionsTo c address = o.connectionsTo c address := by
  obtain ⟨s, hs⟩ := Option.isSome_iff_exists.mp hable
  unfold scManagerProcessCreateScMessage
  simp only [hs]
  have hlist := connectionsTo_of_find hs source
  rcases h.cases code source with hnone | ⟨sc, hone, hcode, hinstance, hpresence⟩
  · rw [hlist] at hnone
    have hany : s.scList.any (·.isOf source 0) = false := by
      rw [any_isOf, hnone]
      rfl
    rw [scGetAvailableInstanceId_new hnone, if_neg (by decide), hany, if_neg Bool.false_ne_true]
    generalize hnew : (_ : ServiceConnection K M) :: s.scList = l
    have hl : ∀ address ≠ source, ofAddress l address = ofAddress s.scList address := by
      intro address haddress
      rw [← hnew]
      simp [ofAddress, haddress.symm]
    refine ⟨_, rfl, fun c => able_setScList o code c _, ?_, fun c address hne => ?_⟩
    · change ∃ sc, (o.setScList code l).connectionsTo code source = [sc] ∧ _
      rw [connectionsTo_setScList_at hs hl, if_pos rfl, ← hnew]
      unfold ofAddress at hnone ⊢
      rw [List.filter_cons_of_pos (by simp), hnone]
      exact ⟨_, rfl, rfl, rfl⟩
    · change (o.setScList code l).connectionsTo c address = _
      rw [connectionsTo_setScList_at hs hl, if_neg hne]
  · rw [hlist] at hone
    have hany : s.scList.any (·.isOf source 0) = true := by
      rw [any_isOf, hone]
      simp [hinstance]
    rw [← hpresence, scGetAvailableInstanceId_only hone, hinstance, if_neg (by decide), hany,
      if_pos rfl]
    have hl := ofAddress_replaceF
      (f := fun sc =>
        { sc with
          requestedUpdateRateHz := rate
          lastSentTime := 0
          sequenceNumber := 0
          isActive := true
          confirmedUpdateRateHz := rate })
      (fun _ => rfl) (fun sc (h : sc.isOf source 0 = true) => isOf_address h) s.scList
    have hat (c : UInt16) (address : JausAddress) :=
      connectionsTo_setScList_at hs (fun a ha => (hl a).trans (if_neg ha)) c address
    have hsc : sc.isOf source 0 = true := by
      have hmem : sc ∈ ofAddress s.scList source := by simp [hone]
      simp [ServiceConnection.isOf, (mem_ofAddress.mp hmem).2, hinstance]
    refine ⟨_, rfl, fun c => able_setScList o code c _, ?_, fun c address hne => ?_⟩
    · rw [hat, if_pos rfl, hl, if_pos rfl, hone]
      simp [List.replaceF, hsc, ServiceConnection.terms, hcode, hinstance]
    · rw [hat, if_neg hne]

/-- The first instance is ended, if it is there. -/
theorem terminate_spec (h : Sound presence o) (code : UInt16) (source : JausAddress) :
    let o' := o.scManagerProcessTerminateScMessage source code 0
    (∀ c, o'.able c = o.able c) ∧ o'.connectionsTo code source = [] ∧
      ∀ c address, (c, address) ≠ (code, source) →
        o'.connectionsTo c address = o.connectionsTo c address := by
  unfold scManagerProcessTerminateScMessage
  cases hs : o.scFindSupportedScMsgInList code with
  | none =>
    exact ⟨fun _ => rfl, connectionsTo_of_not_able (by simp [able, hs]) source, fun _ _ _ => rfl⟩
  | some s =>
    have hlist := connectionsTo_of_find hs source
    simp only
    generalize hnamed : (fun sc : ServiceConnection K M =>
      sc.isOf source (0 : UInt8).toNat && decide (sc.commandCode = code)) = named
    have hof (x : ServiceConnection K M) (hx : named x = true) : x.address = source := by
      rw [← hnamed, Bool.and_eq_true] at hx
      exact isOf_address hx.1
    have hl := ofAddress_eraseP hof s.scList
    have hat (c : UInt16) (address : JausAddress) :=
      connectionsTo_setScList_at hs (fun a ha => (hl a).trans (if_neg ha)) c address
    have honly {sc : ServiceConnection K M} (hone : ofAddress s.scList source = [sc]) :
        sc ∈ s.scList ∧ named sc = true := by
      have hmem : sc ∈ ofAddress s.scList source := by simp [hone]
      obtain ⟨hmem, haddress⟩ := mem_ofAddress.mp hmem
      rcases h.cases code source with hnone | ⟨x, hx, hcode, hinstance, -⟩
      · rw [hlist, hone] at hnone
        cases hnone
      · rw [hlist, hone] at hx
        obtain rfl := List.singleton_inj.mp hx
        rw [← hnamed]
        exact ⟨hmem, by simp [ServiceConnection.isOf, haddress, hcode, hinstance]⟩
    split_ifs with hany
    · refine ⟨fun c => able_setScList o code c _, ?_, fun c address hne => ?_⟩
      · change (o.setScList code _).connectionsTo code source = []
        rw [hat, if_pos rfl, hl, if_pos rfl]
        rcases h.cases code source with hnone | ⟨sc, hone, -⟩
        · rw [← hlist, hnone]
          rfl
        · rw [hlist] at hone
          rw [hone, List.eraseP_cons_of_pos (honly hone).2]
      · change (o.setScList code _).connectionsTo c address = _
        rw [hat, if_neg hne]
    · refine ⟨fun _ => rfl, ?_, fun _ _ _ => rfl⟩
      rcases h.cases code source with hnone | ⟨sc, hone, -⟩
      · exact hnone
      · exfalso
        rw [hlist] at hone
        apply hany
        rw [List.any_eq_true]
        exact ⟨sc, honly hone⟩

end Requests

end Outgoing

/-! ## The numbers of the messages -/

/-- What an address sees of the numbers of a message. -/
inductive Numbering
  | granted
  | numbered (n : UInt16)
deriving DecidableEq

def Deed.numbering? (code : UInt16) (address : JausAddress) : Deed K M → Option Numbering
  | .sent d (.confirm c _ _ responseCode) =>
    if d = address ∧ c = code ∧ responseCode = .JAUS_SC_SUCCESSFUL then some .granted else none
  | .sent d (.service c n _) => if d = address ∧ c = code then some (.numbered n) else none
  | _ => none

/-- What happens to the number that an address gets next. -/
inductive NumberEffect (v : List UInt16) : List Numbering → List UInt16 → Prop
  | same : NumberEffect v [] v
  | ended : NumberEffect v [] []
  | granted : NumberEffect v [.granted] [0]
  | numbered {n : UInt16} (hv : v = [n]) : NumberEffect v [.numbered n] [n + 1]

theorem numberings_of_send (commandCode : UInt16) (data : M) (time : K)
    (p : ServiceConnection K M → Bool) (l : List (ServiceConnection K M)) (code : UInt16)
    (address : JausAddress) :
    (sentAll (sendToList commandCode data ((l.filter p).map fun sc =>
        { sc with lastSentTime := time }))).filterMap (Deed.numbering? code address) =
      if code = commandCode then
        ((ofAddress l address).filter p).map fun sc => .numbered sc.sequenceNumber
      else [] := by
  induction l with
  | nil => simp [sentAll, sendToList, ofAddress]
  | cons sc l ih =>
    simp only [sentAll, sendToList, ofAddress, List.map_map] at ih ⊢
    by_cases hp : p sc = true
    · rw [List.filter_cons_of_pos hp, List.map_cons, List.filterMap_cons, ih]
      by_cases hcode : code = commandCode
      · subst hcode
        by_cases haddress : sc.address = address <;> simp [Deed.numbering?, haddress, hp]
      · simp [Deed.numbering?, hcode, Ne.symm hcode]
    · rw [List.filter_cons_of_neg hp, ih]
      by_cases haddress : sc.address = address <;> simp [haddress, hp]

section Sending

variable [Field K] [LinearOrder K]

/-- A message that is sent has the next number, and the one after it is next. -/
theorem Outgoing.send_numbers {presence : JausAddress → UInt16 → UInt32} {o : Outgoing K M}
    (h : Outgoing.Sound presence o) (commandCode : UInt16) (data : M) (time : K) (code : UInt16)
    (address : JausAddress) :
    let r := o.scManagerGetSendList commandCode time
    NumberEffect (o.numbers code address)
      ((sentAll (sendToList commandCode data r.2)).filterMap (Deed.numbering? code address))
      (r.1.numbers code address) := by
  have hnext : (o.scManagerGetSendList commandCode time).1.numbers code address =
      if code = commandCode then
        (o.connectionsTo code address).map fun sc => (counted time sc).sequenceNumber
      else o.numbers code address := by
    unfold numbers
    rw [connectionsTo_getSendList]
    split_ifs
    · rw [List.map_map]
      rfl
    · rfl
  have hsent : (sentAll (sendToList commandCode data
      (o.scManagerGetSendList commandCode time).2)).filterMap (Deed.numbering? code address) =
      if code = commandCode then
        ((o.connectionsTo code address).filter (·.isDue time)).map fun sc =>
          .numbered sc.sequenceNumber
      else [] := by
    unfold scManagerGetSendList
    cases hs : o.scFindSupportedScMsgInList commandCode with
    | none =>
      have hable : o.able commandCode = false := by simp [able, hs]
      have hnone := connectionsTo_of_not_able hable
      split_ifs with hcode
      · subst hcode
        simp [hnone, sentAll, sendToList]
      · rfl
    | some s =>
      simp only
      rw [numberings_of_send]
      split_ifs with hcode
      · subst hcode
        rw [connectionsTo_of_find hs]
      · rfl
  simp only
  rw [hnext, hsent]
  split_ifs with hcode
  · unfold numbers
    rcases h.cases code address with hnone | ⟨sc, hone, -⟩
    · rw [hnone]
      exact .same
    · rw [hone]
      by_cases hdue : sc.isDue time = true
      · simpa [counted, hdue] using NumberEffect.numbered rfl
      · simpa [counted, hdue] using NumberEffect.same
  · exact .same

end Sending

/-- A grant, and the numbers that follow it: all up to `k`, in order. -/
def UpTo (k : ℕ) (l : List Numbering) : Prop :=
  ∃ before, l = before ++ .granted :: (List.range k).map fun i => .numbered (UInt16.ofNat i)

/-- The invariant of the numbers that an address got and gets next. -/
structure Counts (v : List UInt16) (l : List Numbering) : Prop where
  next : ∀ n ∈ v, ∃ k, UpTo k l ∧ n = UInt16.ofNat k
  past : ∀ before n later, l = before ++ .numbered n :: later →
    ∃ k, UpTo k before ∧ n = UInt16.ofNat k

theorem Counts.past_snoc {v : List UInt16} {l : List Numbering} (h : Counts v l) {x : Numbering}
    (hx : ∀ n, x = .numbered n → n ∈ v) {before later : List Numbering} {n : UInt16}
    (heq : l ++ [x] = before ++ .numbered n :: later) :
    ∃ k, UpTo k before ∧ n = UInt16.ofNat k := by
  rcases List.eq_nil_or_concat later with rfl | ⟨later, y, rfl⟩
  · obtain ⟨rfl, hlast⟩ := List.append_inj' heq rfl
    exact h.next n (hx n (List.singleton_inj.mp hlast))
  · rw [List.concat_eq_append, ← List.cons_append, ← List.append_assoc] at heq
    exact h.past before n later (List.append_inj' heq rfl).1

/-- The step lemma of the numbers. -/
theorem Counts.effect {v v' : List UInt16} {l ns : List Numbering} (h : Counts v l)
    (heffect : NumberEffect v ns v') : Counts v' (l ++ ns) := by
  cases heffect with
  | same => simpa using h
  | ended => exact ⟨by simp, by simpa using h.past⟩
  | granted =>
    refine ⟨?_, fun before n later => h.past_snoc (by simp)⟩
    intro n hn
    exact ⟨0, ⟨l, by simp⟩, by simpa using hn⟩
  | @numbered n hv =>
    subst hv
    refine ⟨?_, fun before m later => h.past_snoc (by simp)⟩
    intro m hm
    obtain ⟨k, ⟨before, hl⟩, hk⟩ := h.next n (List.mem_singleton_self n)
    refine ⟨k + 1, ⟨before, ?_⟩, ?_⟩
    · rw [hl, hk, List.range_succ]
      simp
    · rw [List.mem_singleton.mp hm, hk, UInt16.ofNat_add]
      rfl

/-! ## The count -/

namespace Outgoing

/-- The connections that others have, of all messages. -/
def allSc (o : Outgoing K M) : List (ServiceConnection K M) :=
  o.supportedScMsgList.flatMap (·.scList)

/-- How far the count is above the connections. -/
def surplus (o : Outgoing K M) : ℤ := o.outgoingScCount - (o.allSc.length : ℕ)

theorem length_allSc_setScList {o : Outgoing K M} {commandCode : UInt16}
    {s : SupportedScMessage K M} (hs : o.scFindSupportedScMsgInList commandCode = some s)
    (l : List (ServiceConnection K M)) :
    (o.setScList commandCode l).allSc.length + s.scList.length = o.allSc.length + l.length := by
  unfold scFindSupportedScMsgInList at hs
  unfold allSc setScList
  simp only
  generalize o.supportedScMsgList = messages at hs
  induction messages with
  | nil => cases hs
  | cons x rest ih =>
    by_cases hx : x.commandCode = commandCode
    · rw [List.find?_cons_of_pos (by simpa using hx)] at hs
      obtain rfl := Option.some.inj hs
      rw [List.replaceF_cons, if_pos hx]
      simp only [List.flatMap_cons, List.length_append]
      omega
    · rw [List.find?_cons_of_neg (by simpa using hx)] at hs
      have hrest := ih hs
      rw [List.replaceF_cons, if_neg hx]
      simp only [List.flatMap_cons, List.length_append]
      omega

theorem surplus_setScList {o : Outgoing K M} {commandCode : UInt16} {s : SupportedScMessage K M}
    (hs : o.scFindSupportedScMsgInList commandCode = some s) (l : List (ServiceConnection K M))
    {count : ℤ} (hcount : count - o.outgoingScCount = (l.length : ℤ) - s.scList.length) :
    surplus { o.setScList commandCode l with outgoingScCount := count } = o.surplus := by
  have hlength := length_allSc_setScList hs l
  have hall : (allSc { o.setScList commandCode l with outgoingScCount := count }) =
      (o.setScList commandCode l).allSc := rfl
  unfold surplus
  rw [hall]
  simp only
  omega

theorem surplus_setActive (o : Outgoing K M) (source : JausAddress) (code : UInt16) (i : UInt8)
    (isActive : Bool) : (o.setActive source code i isActive).surplus = o.surplus := by
  unfold setActive
  cases hs : o.scFindSupportedScMsgInList code with
  | none => rfl
  | some s => exact surplus_setScList hs _ (by simp)

theorem surplus_create [Zero K] (o : Outgoing K M) (source : JausAddress) (code : UInt16) (rate : K)
    (pv : UInt32) :
    (o.scManagerProcessCreateScMessage source code rate pv).1.surplus = o.surplus := by
  unfold scManagerProcessCreateScMessage
  cases hs : o.scFindSupportedScMsgInList code with
  | none => rfl
  | some s =>
    simp only
    split_ifs
    · rfl
    · exact surplus_setScList hs _ (by simp)
    · exact surplus_setScList hs _ (by simp)

theorem surplus_terminate (o : Outgoing K M) (source : JausAddress) (code : UInt16) (i : UInt8) :
    (o.scManagerProcessTerminateScMessage source code i).surplus = o.surplus := by
  unfold scManagerProcessTerminateScMessage
  cases hs : o.scFindSupportedScMsgInList code with
  | none => rfl
  | some s =>
    simp only
    split_ifs with hany
    · apply surplus_setScList hs
      obtain ⟨sc, hsc, hnamed⟩ := List.any_eq_true.mp hany
      have hpos := List.length_pos_of_mem hsc
      rw [List.length_eraseP_of_mem hsc hnamed]
      omega
    · rfl

theorem surplus_getSendList [Field K] [LinearOrder K] (o : Outgoing K M) (code : UInt16)
    (time : K) : (o.scManagerGetSendList code time).1.surplus = o.surplus := by
  unfold scManagerGetSendList
  cases hs : o.scFindSupportedScMsgInList code with
  | none => rfl
  | some s => exact surplus_setScList hs _ (by simp)

theorem surplus_addSupported (o : Outgoing K M) (code : UInt16) :
    (o.scManagerAddSupportedMessage code).surplus = o.surplus := by
  unfold scManagerAddSupportedMessage
  cases o.scFindSupportedScMsgInList code <;> rfl

theorem surplus_dropUnverified (o : Outgoing K M) (verify : JausAddress → Bool) :
    (o.dropUnverified verify).surplus = o.surplus := by
  have hall : (o.dropUnverified verify).allSc = o.allSc.filter (verify ·.address) := by
    unfold allSc dropUnverified
    rw [List.flatMap_map, List.filter_flatMap]
  have hlength := List.length_eq_countP_add_countP (fun sc => verify sc.address) (l := o.allSc)
  simp only [Bool.not_eq_true, Bool.decide_eq_false] at hlength
  have hcount : (o.dropUnverified verify).outgoingScCount =
      o.outgoingScCount - (o.allSc.countP (!verify ·.address) : ℕ) := rfl
  unfold surplus
  rw [hall, hcount, ← List.countP_eq_length_filter]
  omega

theorem surplus_removeSupported (o : Outgoing K M) (code : UInt16) :
    (o.scManagerRemoveSupportedMessage code).1.surplus =
      o.surplus + ((o.connections code).length : ℕ) := by
  unfold scManagerRemoveSupportedMessage
  cases hs : o.scFindSupportedScMsgInList code with
  | none => simp [connections, hs]
  | some s =>
    have hlength : (((o.supportedScMsgList.eraseP (·.commandCode = code)).flatMap
        (·.scList)).length) + s.scList.length = o.allSc.length := by
      unfold scFindSupportedScMsgInList at hs
      unfold allSc
      generalize o.supportedScMsgList = messages at hs
      induction messages with
      | nil => cases hs
      | cons x rest ih =>
        by_cases hx : x.commandCode = code
        · rw [List.find?_cons_of_pos (by simpa using hx)] at hs
          obtain rfl := Option.some.inj hs
          rw [List.eraseP_cons_of_pos (by simpa using hx)]
          simp only [List.flatMap_cons, List.length_append]
          omega
        · rw [List.find?_cons_of_neg (by simpa using hx)] at hs
          have hrest := ih hs
          rw [List.eraseP_cons_of_neg (by simpa using hx)]
          simp only [List.flatMap_cons, List.length_append]
          omega
    rw [connections_of_find hs]
    unfold surplus
    change o.outgoingScCount - _ = _
    unfold allSc at hlength ⊢
    simp only
    omega

end Outgoing

end carma.sc_manager
