-- The laws of the radar's bursts: a burst that is handed on has each status and each
-- track of its own, and the motion power of the tracks whose group came.
import Mathlib.Tactic.IntervalCases
import Carma.DelphiESRCANClient

open lib.runs

namespace carma.delphi_esr

/-! ## Who wrote what -/

/-- The frame that wrote the status `k`. -/
def statusWriter (esrStatus : List (Block Bytes)) (k : ℕ) : Option ℕ :=
  esrStatus[k]?.bind Block.writtenBy

/-- The frame that wrote the track `i`. -/
def trackWriter (tracks : List ESRTrack) (i : ℕ) : Option ℕ :=
  tracks[i]?.bind (·.definition.writtenBy)

/-- The frame that wrote the motion power of the track `i`. -/
def motionWriter (tracks : List ESRTrack) (i : ℕ) : Option ℕ :=
  tracks[i]?.bind (·.motion.writtenBy)

/-- The writer came at the frame `s` or later. -/
def Since (s : ℕ) (writer : Option ℕ) : Prop := ∃ n ∈ writer, s ≤ n

/-- Every part of the burst was written since the frame `start`. -/
def Unmixed (start : Option ℕ) (b : BurstData) : Prop :=
  ∃ s ∈ start, (∀ k < 9, Since s (statusWriter b.esrStatus k)) ∧
    ∀ i < 64, Since s (trackWriter b.tracks i) ∧ Since s (motionWriter b.tracks i)

theorem since_some {s n : ℕ} : Since s (some n) ↔ s ≤ n := by
  simp [Since]

theorem statusWriter_set {esrStatus : List (Block Bytes)} {k : ℕ} (hk : k < esrStatus.length)
    (content : Bytes) (n j : ℕ) :
    statusWriter (esrStatus.set k (.write content n)) j =
      if j = k then some n else statusWriter esrStatus j := by
  unfold statusWriter
  by_cases hj : j = k
  · subst hj
    simp [hk, Block.write]
  · rw [List.getElem?_set_ne (Ne.symm hj), if_neg hj]

theorem trackWriter_set {tracks : List ESRTrack} {k : ℕ} (hk : k < tracks.length)
    (content : Bytes) (n i : ℕ) :
    trackWriter (tracks.modify k (.setFromDefinition content n)) i =
      if i = k then some n else trackWriter tracks i := by
  unfold trackWriter
  rw [List.getElem?_modify]
  by_cases hi : i = k
  · subst hi
    simp [hk, ESRTrack.setFromDefinition, Block.write]
  · simp [hi, Ne.symm hi]

theorem motionWriter_set (tracks : List ESRTrack) (k : ℕ) (content : Bytes) (n i : ℕ) :
    motionWriter (tracks.modify k (.setFromDefinition content n)) i = motionWriter tracks i := by
  unfold motionWriter
  rw [List.getElem?_modify]
  cases tracks[i]? with
  | none => simp
  | some t => by_cases hi : k = i <;> simp [hi, ESRTrack.setFromDefinition]

/-- One motion power goes to one track. -/
theorem setMovePower_writers (tracks : List ESRTrack) (k : ℕ) (power : TrackMovePower)
    (n i : ℕ) :
    trackWriter (tracks.modify k (.setMovePower power n)) i = trackWriter tracks i ∧
    (i < tracks.length → motionWriter (tracks.modify k (.setMovePower power n)) i =
      if i = k then some n else motionWriter tracks i) := by
  unfold trackWriter motionWriter
  rw [List.getElem?_modify]
  constructor
  · cases tracks[i]? with
    | none => simp
    | some t => by_cases hi : k = i <;> simp [hi, ESRTrack.setMovePower]
  · intro hlen
    by_cases hi : i = k
    · subst hi
      simp [hlen, ESRTrack.setMovePower, Block.write]
    · simp [hi, Ne.symm hi]

/-- A power frame writes the motion power of the tracks of its group, and nothing else. -/
theorem setMovePowers_writers (tracks : List ESRTrack) (definition : Bytes) (n : ℕ) :
    (Client.setMovePowers tracks definition n).length = tracks.length ∧
    ∀ i, trackWriter (Client.setMovePowers tracks definition n) i = trackWriter tracks i ∧
      (i < tracks.length → motionWriter (Client.setMovePowers tracks definition n) i =
        if i / 7 = group definition then some n else motionWriter tracks i) := by
  have hfold : ∀ (l : List (Fin 7)) (ts : List ESRTrack), ts.length = tracks.length →
      let out := l.foldl (fun ts (j : Fin 7) => ts.modify (group definition * 7 + j.val)
        (ESRTrack.setMovePower (movePower definition j) n)) ts
      out.length = tracks.length ∧ ∀ i, trackWriter out i = trackWriter ts i ∧
        (i < tracks.length → motionWriter out i =
          if ∃ j ∈ l, i = group definition * 7 + j.val then some n else motionWriter ts i) := by
    intro l
    induction l with
    | nil => exact fun ts hlen => ⟨hlen, fun i => ⟨rfl, fun _ => by simp⟩⟩
    | cons j l ih =>
      intro ts hlen
      obtain ⟨houtlen, hout⟩ := ih (ts.modify (group definition * 7 + j.val)
        (ESRTrack.setMovePower (movePower definition j) n)) (by simpa using hlen)
      refine ⟨houtlen, fun i => ?_⟩
      obtain ⟨htrack, hmotion⟩ := hout i
      obtain ⟨htrack', hmotion'⟩ := setMovePower_writers ts (group definition * 7 + j.val)
        (movePower definition j) n i
      refine ⟨htrack.trans htrack', fun hi => ?_⟩
      refine (hmotion hi).trans ?_
      have hcons : (∃ a ∈ j :: l, i = group definition * 7 + a.val) ↔
          i = group definition * 7 + j.val ∨ ∃ a ∈ l, i = group definition * 7 + a.val := by
        simp only [List.mem_cons, or_and_right, exists_or, exists_eq_left]
      rw [hmotion' (by omega), if_congr hcons rfl rfl]
      by_cases hl : ∃ a ∈ l, i = group definition * 7 + a.val
      · rw [if_pos hl, if_pos (Or.inr hl)]
      · rw [if_neg hl]
        by_cases hj : i = group definition * 7 + j.val
        · rw [if_pos hj, if_pos (Or.inl hj)]
        · rw [if_neg hj, if_neg (not_or.mpr ⟨hj, hl⟩)]
  obtain ⟨hlen, hwriters⟩ := hfold (List.finRange 7) tracks rfl
  refine ⟨hlen, fun i => ⟨(hwriters i).1, fun hi => ?_⟩⟩
  refine ((hwriters i).2 hi).trans ?_
  have hgroup : (∃ j ∈ List.finRange 7, i = group definition * 7 + j.val) ↔
      i / 7 = group definition := by
    constructor
    · rintro ⟨j, _, hj⟩
      omega
    · intro hdiv
      exact ⟨⟨i % 7, by omega⟩, List.mem_finRange _, by simp only; omega⟩
  simp only [hgroup]

/-! ## The order of the ids -/

/-- The id of the status frame `k`. -/
def statusId (k : ℕ) : ℕ := if k < 4 then 0x4E0 + k else 0x5E0 + k

/-- The ids that `process` has a case for. -/
def Listed (id : ℕ) : Prop :=
  (0x4E0 ≤ id ∧ id ≤ 0x4E3) ∨ (0x500 ≤ id ∧ id ≤ 0x540) ∨ (0x5E4 ≤ id ∧ id ≤ 0x5E8)

theorem statusIds_idxOf (id : ℕ) :
    Client.statusIds.idxOf? id =
      if 0x4E0 ≤ id ∧ id ≤ 0x4E3 then some (id - 0x4E0)
      else if 0x5E4 ≤ id ∧ id ≤ 0x5E8 then some (id - 0x5E0) else none := by
  by_cases hfirst : 0x4E0 ≤ id ∧ id ≤ 0x4E3
  · obtain ⟨hlow, hhigh⟩ := hfirst
    interval_cases id <;> rfl
  · rw [if_neg hfirst]
    by_cases hlast : 0x5E4 ≤ id ∧ id ≤ 0x5E8
    · obtain ⟨hlow, hhigh⟩ := hlast
      interval_cases id <;> rfl
    · rw [if_neg hlast, List.idxOf?_eq_none_iff]
      simp only [Client.statusIds, List.mem_cons, List.not_mem_nil, or_false]
      omega

theorem statusIds_eq_some {id k : ℕ} (h : Client.statusIds.idxOf? id = some k) :
    k < 9 ∧ id = statusId k ∧ Listed id := by
  rw [statusIds_idxOf] at h
  unfold statusId Listed
  split_ifs at h with hfirst hlast
  · have hk := Option.some.inj h
    rw [if_pos (by omega)]
    omega
  · have hk := Option.some.inj h
    rw [if_neg (by omega)]
    omega

theorem follows_gap {lastId id x : ℕ} (h : Client.follows lastId id = true) (hx : Listed x) (hle : x ≤ id) (hne : x ≠ id) :
    x ≤ lastId := by
  unfold Client.follows at h
  unfold Listed at *
  split_ifs at h with h1 h2 h3 h4
  · simp only [beq_iff_eq] at h
    omega
  · simp only [Bool.or_eq_true, beq_iff_eq] at h
    omega
  · simp only [beq_iff_eq] at h
    omega
  · simp only [Bool.or_eq_true, beq_iff_eq] at h
    omega
  · simp only [beq_iff_eq] at h
    omega

/-! ## One frame -/

/-- What each case of `process` does besides its writes. -/
structure Checked (c c' : Client) (msg : CANFrame) : Prop where
  listed : Listed msg.id
  lastId : c'.lastId = msg.id
  invalid : c'.invalidData = !c'.inSync
  inSync : c'.inSync = true → msg.id = 0x4E0 ∨ c.inSync = true ∧ Client.follows c.lastId msg.id = true

theorem checkID_checked {c : Client} {msg : CANFrame} (hlisted : Listed msg.id) :
    Checked c (c.checkID msg.id) msg := by
  refine ⟨hlisted, rfl, rfl, ?_⟩
  intro hsync
  have hrange : 0x4E0 ≤ msg.id ∧ msg.id ≤ 0x5E8 ∧ ¬ (0x5B0 ≤ msg.id ∧ msg.id ≤ 0x5BE) := by
    unfold Listed at hlisted
    omega
  simp only [Client.checkID, Client.isExpectedID, if_pos hrange] at hsync
  split_ifs at hsync with hfirst
  · exact Or.inl hfirst
  · exact Or.inr ((Bool.and_eq_true _ _).mp hsync)

theorem checkID_burstData (c : Client) (id : ℕ) : (c.checkID id).burstData = c.burstData := rfl

/-- All that a frame can do: nothing, write a status, write a track, or write the motion
power of the tracks of its group. -/
inductive Effect (c : Client) (n : ℕ) (msg : CANFrame) : Client → Option BurstData → Prop
  | nothing (h : c.skips msg = true ∨ ¬ Listed msg.id) : Effect c n msg c none
  | status {c' : Client} {k : ℕ} (definition : Bytes) (hfirst : c.skips msg = false)
      (hk : k < 9) (hid : msg.id = statusId k) (hchecked : Checked c c' msg)
      (hstatus : c'.burstData.esrStatus = c.burstData.esrStatus.set k (.write definition n))
      (htracks : c'.burstData.tracks = c.burstData.tracks) :
      Effect c n msg c'
        (if msg.id = 0x5E8 ∧ c'.invalidData = false then some c'.burstData else none)
  | track {c' : Client} (definition : Bytes) (hfirst : c.skips msg = false)
      (hid : 0x500 ≤ msg.id ∧ msg.id ≤ 0x53F) (hchecked : Checked c c' msg)
      (hstatus : c'.burstData.esrStatus = c.burstData.esrStatus)
      (htracks : c'.burstData.tracks = c.burstData.tracks.modify (msg.id - 0x500)
        (.setFromDefinition definition n)) :
      Effect c n msg c' none
  | power {c' : Client} (definition : Bytes) (hfirst : c.skips msg = false)
      (hid : msg.id = 0x540) (hchecked : Checked c c' msg)
      (hgroup : Receiver.groupOf c msg = some (group definition))
      (hstatus : c'.burstData.esrStatus = c.burstData.esrStatus)
      (htracks : c'.burstData.tracks =
        Client.setMovePowers c.burstData.tracks definition n) :
      Effect c n msg c' none

theorem ok_of_bind {ε α β : Type} {x : Except ε α} {f : α → Except ε β} {r : β}
    (h : x >>= f = .ok r) : ∃ a, x = .ok a ∧ f a = .ok r := by
  cases x with
  | error e => cases h
  | ok a => exact ⟨a, rfl, h⟩

theorem Checked.of_frame {c c1 c' : Client} {msg : CANFrame} (h : Checked c c1 msg)
    (hlastId : c'.lastId = c1.lastId) (hinvalid : c'.invalidData = c1.invalidData)
    (hinSync : c'.inSync = c1.inSync) : Checked c c' msg where
  listed := h.listed
  lastId := hlastId.trans h.lastId
  invalid := by rw [hinvalid, hinSync, h.invalid]
  inSync := by
    rw [hinSync]
    exact h.inSync

theorem readStatus_effect {c c' : Client} {n k : ℕ} {msg : CANFrame} (hfirst : c.skips msg = false)
    (hk : Client.statusIds.idxOf? msg.id = some k)
    (h : (c.checkID msg.id).readStatus n k msg = .ok c') :
    Effect c n msg c'
      (if msg.id = 0x5E8 ∧ c'.invalidData = false then some c'.burstData else none) := by
  obtain ⟨hlt, hid, hlisted⟩ := statusIds_eq_some hk
  have hchecked : Checked c (c.checkID msg.id) msg := checkID_checked hlisted
  unfold Client.readStatus at h
  rw [checkID_burstData] at h
  split at h
  · cases h
  · rename_i definition hset
    cases h
    exact .status definition hfirst hlt hid (hchecked.of_frame rfl rfl rfl) rfl rfl

theorem readTrack_effect {c c' : Client} {n : ℕ} {msg : CANFrame} (hfirst : c.skips msg = false)
    (htrack : 0x500 ≤ msg.id ∧ msg.id ≤ 0x53F)
    (h : (c.checkID msg.id).readTrack n msg = .ok c') : Effect c n msg c' none := by
  have hlisted : Listed msg.id := by
    unfold Listed
    omega
  have hchecked : Checked c (c.checkID msg.id) msg := checkID_checked hlisted
  unfold Client.readTrack at h
  rw [checkID_burstData] at h
  split at h
  · cases h
  · rename_i definition hset
    cases h
    exact .track definition hfirst htrack (hchecked.of_frame rfl rfl rfl) rfl (by simp only)

theorem readPower_effect {c c' : Client} {n : ℕ} {msg : CANFrame} (hfirst : c.skips msg = false)
    (hpower : msg.id = 0x540) (h : (c.checkID msg.id).readPower n msg = .ok c') :
    Effect c n msg c' none := by
  have hlisted : Listed msg.id := by
    unfold Listed
    omega
  have hchecked : Checked c (c.checkID msg.id) msg := checkID_checked hlisted
  have herror : msg.isError = false := by
    unfold Client.skips at hfirst
    exact (Bool.or_eq_false_iff.mp hfirst).1
  unfold Client.readPower at h
  rw [checkID_burstData] at h
  split at h
  · cases h
  · rename_i definition hset
    cases h
    have hset' : setData c.trackPowerDefinition msg = .ok definition := hset
    refine .power definition hfirst hpower (hchecked.of_frame rfl rfl rfl) ?_ rfl rfl
    unfold Receiver.groupOf
    rw [if_pos ⟨hpower, herror⟩, hset']
    rfl

theorem process_effect {c c' : Client} {n : ℕ} {msg : CANFrame} {b : Option BurstData}
    (h : c.process n msg = .ok (c', b)) : Effect c n msg c' b := by
  unfold Client.process at h
  by_cases hskip : c.skips msg = true
  · rw [if_pos hskip] at h
    cases h
    exact .nothing (Or.inl hskip)
  · rw [if_neg hskip] at h
    have hfirst : c.skips msg = false := by simpa using hskip
    cases hk : Client.statusIds.idxOf? msg.id with
    | some k =>
      simp only [hk] at h
      obtain ⟨c1, hread, hend⟩ := ok_of_bind h
      cases hend
      exact readStatus_effect hfirst hk hread
    | none =>
      simp only [hk] at h
      by_cases htrack : 0x500 ≤ msg.id ∧ msg.id ≤ 0x53F
      · rw [if_pos htrack] at h
        obtain ⟨c1, hread, hend⟩ := ok_of_bind h
        cases hend
        exact readTrack_effect hfirst htrack hread
      · rw [if_neg htrack] at h
        by_cases hpower : msg.id = 0x540
        · rw [if_pos hpower] at h
          obtain ⟨c1, hread, hend⟩ := ok_of_bind h
          cases hend
          exact readPower_effect hfirst hpower hread
        · rw [if_neg hpower] at h
          cases h
          refine .nothing (Or.inr ?_)
          rw [statusIds_idxOf] at hk
          unfold Listed
          split_ifs at hk
          omega

/-! ## Runs -/

/-- What a client that is in sync has of the burst that began at the frame `s`. -/
structure UpTo (c : Client) (s : ℕ) (groups : List ℕ) : Prop where
  listed : Listed c.lastId
  status : ∀ k < 9, statusId k ≤ c.lastId → Since s (statusWriter c.burstData.esrStatus k)
  track : ∀ i < 64, 0x500 + i ≤ c.lastId → Since s (trackWriter c.burstData.tracks i)
  motion : ∀ i < 64, Since s (motionWriter c.burstData.tracks i) ↔ i / 7 ∈ groups

/-- What holds of a client between two frames. -/
structure Fit (c : Client) (r : Receiver) : Prop where
  statuses : c.burstData.esrStatus.length = 9
  tracks : c.burstData.tracks.length = 64
  past : ∀ i < 64, ∀ n ∈ motionWriter c.burstData.tracks i, n < r.received
  started : ∀ s ∈ r.start, s < r.received
  invalid : c.invalidData = !c.inSync
  synced : c.inSync = true → c.lastId = 0 ∨ ∃ s ∈ r.start, UpTo c s r.groups

/-- A frame that is expected, but does not start a burst, comes in a burst that is in
sync, and after every frame of it with a lower id. -/
theorem synced_follows {c c' : Client} {r : Receiver} {msg : CANFrame} (hf : Fit c r)
    (hchecked : Checked c c' msg) (hsync : c'.inSync = true) (hnot : msg.id ≠ 0x4E0) :
    ∃ s ∈ r.start, UpTo c s r.groups ∧
      ∀ x, Listed x → x ≤ msg.id → x ≠ msg.id → x ≤ c.lastId := by
  rcases hchecked.inSync hsync with hfirst | ⟨hsynced, hfollows⟩
  · exact absurd hfirst hnot
  · rcases hf.synced hsynced with hzero | ⟨s, hs, hup⟩
    · -- no frame follows the id that stands for none
      rw [hzero] at hfollows
      have hlisted := hchecked.listed
      unfold Listed at hlisted
      unfold Client.follows at hfollows
      split_ifs at hfollows with h1 h2 h3 h4
      · simp at hfollows
      · simp at hfollows
      · simp at hfollows
      · simp at hfollows
      · simp only [beq_iff_eq] at hfollows
        omega
    · exact ⟨s, hs, hup, fun x hx hle hne => follows_gap hfollows hx hle hne⟩

theorem listed_statusId {k : ℕ} (hk : k < 9) : Listed (statusId k) := by
  unfold Listed statusId
  split_ifs <;> omega

theorem statusId_inj {j k : ℕ} (hj : j < 9) (hk : k < 9) (h : statusId j = statusId k) :
    j = k := by
  unfold statusId at h
  split_ifs at h <;> omega

theorem skips_isError {c : Client} {msg : CANFrame} (h : c.skips msg = false) :
    msg.isError = false := by
  unfold Client.skips at h
  exact (Bool.or_eq_false_iff.mp h).1

/-- A frame that does not start a burst adds to the one before. -/
theorem fit_later {c c' : Client} {r : Receiver} {msg : CANFrame} (hf : Fit c r)
    (hchecked : Checked c c' msg) (hnot : msg.id ≠ 0x4E0)
    (hstatuses : c'.burstData.esrStatus.length = 9) (htracks : c'.burstData.tracks.length = 64)
    (hpast : ∀ i < 64, ∀ n ∈ motionWriter c'.burstData.tracks i, n ≤ r.received)
    (hup : ∀ s < r.received, UpTo c s r.groups →
      (∀ x, Listed x → x ≤ msg.id → x ≠ msg.id → x ≤ c.lastId) →
      UpTo c' s (r.receive msg).groups) : Fit c' (r.receive msg) := by
  have hstart : (r.receive msg).start = r.start := by simp [Receiver.receive, hnot]
  refine ⟨hstatuses, htracks, ?_, ?_, hchecked.invalid, ?_⟩
  · intro i hi n hn
    exact Nat.lt_succ_of_le (hpast i hi n hn)
  · rw [hstart]
    intro s hs
    exact (hf.started s hs).trans (Nat.lt_succ_self _)
  · intro hsync
    obtain ⟨s, hs, hold, hgap⟩ := synced_follows hf hchecked hsync hnot
    exact Or.inr ⟨s, by rw [hstart]; exact hs, hup s (hf.started s hs) hold hgap⟩

/-- A frame that is no power frame names no group. -/
theorem groups_receive {r : Receiver} {msg : CANFrame} (hnot : msg.id ≠ 0x4E0)
    (hpower : msg.id ≠ 0x540) : (r.receive msg).groups = r.groups := by
  have hnone : r.client.bind (Receiver.groupOf · msg) = none := by
    cases r.client <;> simp [Receiver.groupOf, hpower]
  simp [Receiver.receive, hnot, hnone]

/-- The first frame of a burst: it has its first status and nothing else. -/
theorem fit_start {c c' : Client} {r : Receiver} {msg : CANFrame} {definition : Bytes}
    (hf : Fit c r) (hstart : msg.id = 0x4E0) (hfirst : c.skips msg = false)
    (hchecked : Checked c c' msg)
    (hstatus : c'.burstData.esrStatus = c.burstData.esrStatus.set 0 (.write definition r.received))
    (htracks : c'.burstData.tracks = c.burstData.tracks) : Fit c' (r.receive msg) := by
  have herror := skips_isError hfirst
  have hreceive : (r.receive msg).start = some r.received ∧ (r.receive msg).groups = [] := by
    simp [Receiver.receive, hstart, herror]
  have hwriter := statusWriter_set (by rw [hf.statuses]; decide :
    0 < c.burstData.esrStatus.length) definition r.received
  rw [← hstatus] at hwriter
  refine ⟨by rw [hstatus, List.length_set, hf.statuses], by rw [htracks, hf.tracks], ?_, ?_,
    hchecked.invalid, fun _ => Or.inr ⟨r.received, hreceive.1, ?_, ?_, ?_, ?_⟩⟩
  · intro i hi n hn
    rw [htracks] at hn
    exact (hf.past i hi n hn).trans (Nat.lt_succ_self _)
  · rw [hreceive.1]
    intro s hs
    cases hs
    exact Nat.lt_succ_self _
  · rw [hchecked.lastId]
    exact hchecked.listed
  · intro k hk hle
    have hzero : k = 0 := by
      rw [hchecked.lastId, hstart] at hle
      unfold statusId at hle
      split_ifs at hle <;> omega
    rw [hwriter, if_pos hzero]
    exact since_some.mpr (le_refl _)
  · intro i _ hle
    rw [hchecked.lastId, hstart] at hle
    omega
  · intro i hi
    rw [htracks, hreceive.2]
    apply iff_of_false
    · rintro ⟨n, hn, hle⟩
      have hlt := hf.past i hi n hn
      omega
    · exact List.not_mem_nil

theorem fit_status {c c' : Client} {r : Receiver} {msg : CANFrame} {k : ℕ} {definition : Bytes}
    (hf : Fit c r) (hk : k < 9) (hid : msg.id = statusId k) (hnot : msg.id ≠ 0x4E0)
    (hchecked : Checked c c' msg)
    (hstatus : c'.burstData.esrStatus = c.burstData.esrStatus.set k (.write definition r.received))
    (htracks : c'.burstData.tracks = c.burstData.tracks) : Fit c' (r.receive msg) := by
  have hwriter := statusWriter_set (by rw [hf.statuses]; exact hk :
    k < c.burstData.esrStatus.length) definition r.received
  rw [← hstatus] at hwriter
  have hother : ¬ (0x500 ≤ msg.id ∧ msg.id ≤ 0x540) := by
    rw [hid]
    unfold statusId
    split_ifs <;> omega
  refine fit_later hf hchecked hnot (by rw [hstatus, List.length_set, hf.statuses])
    (by rw [htracks, hf.tracks]) ?_ ?_
  · intro i hi n hn
    rw [htracks] at hn
    exact (hf.past i hi n hn).le
  · intro s hs hup hgap
    refine ⟨?_, ?_, ?_, ?_⟩
    · rw [hchecked.lastId]
      exact hchecked.listed
    · intro j hj hle
      rw [hwriter]
      by_cases hjk : j = k
      · rw [if_pos hjk]
        exact since_some.mpr hs.le
      · rw [if_neg hjk]
        rw [hchecked.lastId] at hle
        apply hup.status j hj
        apply hgap _ (listed_statusId hj) hle
        intro heq
        exact hjk (statusId_inj hj hk (heq.trans hid))
    · intro i hi hle
      rw [htracks]
      rw [hchecked.lastId] at hle
      exact hup.track i hi (hgap _ (by unfold Listed; omega) hle (by omega))
    · intro i hi
      rw [htracks, hup.motion i hi, groups_receive hnot (by omega)]

theorem fit_track {c c' : Client} {r : Receiver} {msg : CANFrame} {definition : Bytes}
    (hf : Fit c r) (hid : 0x500 ≤ msg.id ∧ msg.id ≤ 0x53F) (hchecked : Checked c c' msg)
    (hstatus : c'.burstData.esrStatus = c.burstData.esrStatus)
    (htracks : c'.burstData.tracks = c.burstData.tracks.modify (msg.id - 0x500)
      (.setFromDefinition definition r.received)) : Fit c' (r.receive msg) := by
  have hlen : msg.id - 0x500 < c.burstData.tracks.length := by
    rw [hf.tracks]
    omega
  have htrack := trackWriter_set hlen definition r.received
  have hmotion := motionWriter_set c.burstData.tracks (msg.id - 0x500) definition r.received
  rw [← htracks] at htrack hmotion
  refine fit_later hf hchecked (by omega) (by rw [hstatus, hf.statuses])
    (by rw [htracks, List.length_modify, hf.tracks]) ?_ ?_
  · intro i hi n hn
    rw [hmotion] at hn
    exact (hf.past i hi n hn).le
  · intro s hs hup hgap
    refine ⟨?_, ?_, ?_, ?_⟩
    · rw [hchecked.lastId]
      exact hchecked.listed
    · intro k hk hle
      rw [hstatus]
      rw [hchecked.lastId] at hle
      apply hup.status k hk
      apply hgap _ (listed_statusId hk) hle
      unfold statusId
      split_ifs <;> omega
    · intro i hi hle
      rw [htrack]
      rw [hchecked.lastId] at hle
      by_cases hself : i = msg.id - 0x500
      · rw [if_pos hself]
        exact since_some.mpr hs.le
      · rw [if_neg hself]
        exact hup.track i hi (hgap _ (by unfold Listed; omega) hle (by omega))
    · intro i hi
      rw [hmotion, hup.motion i hi, groups_receive (by omega) (by omega)]

theorem fit_power {c c' : Client} {r : Receiver} {msg : CANFrame} {definition : Bytes}
    (hf : Fit c r) (hclient : r.client = some c) (hid : msg.id = 0x540)
    (hchecked : Checked c c' msg) (hgroup : Receiver.groupOf c msg = some (group definition))
    (hstatus : c'.burstData.esrStatus = c.burstData.esrStatus)
    (htracks : c'.burstData.tracks =
      Client.setMovePowers c.burstData.tracks definition r.received) : Fit c' (r.receive msg) := by
  obtain ⟨hlen, hwriters⟩ := setMovePowers_writers c.burstData.tracks definition r.received
  rw [← htracks, hf.tracks] at hlen
  rw [← htracks, hf.tracks] at hwriters
  have hgroups : (r.receive msg).groups = group definition :: r.groups := by
    simp [Receiver.receive, hid, hclient, hgroup]
  refine fit_later hf hchecked (by omega) (by rw [hstatus, hf.statuses]) hlen ?_ ?_
  · intro i hi n hn
    rw [(hwriters i).2 hi] at hn
    split_ifs at hn
    · cases hn
      exact le_refl _
    · exact (hf.past i hi n hn).le
  · intro s hs hup hgap
    refine ⟨?_, ?_, ?_, ?_⟩
    · rw [hchecked.lastId]
      exact hchecked.listed
    · intro k hk hle
      rw [hstatus]
      rw [hchecked.lastId] at hle
      apply hup.status k hk
      apply hgap _ (listed_statusId hk) hle
      unfold statusId
      split_ifs <;> omega
    · intro i hi hle
      rw [(hwriters i).1]
      rw [hchecked.lastId] at hle
      exact hup.track i hi (hgap _ (by unfold Listed; omega) hle (by omega))
    · intro i hi
      rw [(hwriters i).2 hi, hgroups, List.mem_cons, ← hup.motion i hi]
      by_cases hself : i / 7 = group definition
      · rw [if_pos hself]
        exact iff_of_true (since_some.mpr hs.le) (Or.inl hself)
      · rw [if_neg hself]
        exact (or_iff_right hself).symm

theorem fit_nothing {c : Client} {r : Receiver} {msg : CANFrame} (hf : Fit c r)
    (hskip : c.skips msg = true ∨ ¬ Listed msg.id) : Fit c (r.receive msg) := by
  by_cases hsync : c.inSync = true
  · -- in sync it skips errors only, and those count neither as a start nor as a group
    have hkept : (r.receive msg).start = r.start ∧ (r.receive msg).groups = r.groups := by
      rcases hskip with hskip | hlisted
      · have hvalid : c.invalidData = false := by rw [hf.invalid, hsync]; rfl
        have herror : msg.isError = true := by simpa [Client.skips, hvalid] using hskip
        have hnone : r.client.bind (Receiver.groupOf · msg) = none := by
          cases r.client <;> simp [Receiver.groupOf, herror]
        simp [Receiver.receive, herror, hnone]
      · unfold Listed at hlisted
        have hnot : msg.id ≠ 0x4E0 := by omega
        exact ⟨by simp [Receiver.receive, hnot], groups_receive hnot (by omega)⟩
    refine ⟨hf.statuses, hf.tracks, ?_, ?_, hf.invalid, ?_⟩
    · exact fun i hi n hn => (hf.past i hi n hn).trans (Nat.lt_succ_self _)
    · rw [hkept.1]
      exact fun s hs => (hf.started s hs).trans (Nat.lt_succ_self _)
    · rw [hkept.1, hkept.2]
      exact hf.synced
  · refine ⟨hf.statuses, hf.tracks, ?_, ?_, hf.invalid, fun h => absurd h hsync⟩
    · exact fun i hi n hn => (hf.past i hi n hn).trans (Nat.lt_succ_self _)
    · intro s hs
      simp only [Receiver.receive] at hs ⊢
      split_ifs at hs
      · cases hs
        exact Nat.lt_succ_self _
      · exact (hf.started s hs).trans (Nat.lt_succ_self _)

theorem fit_effect {c c' : Client} {r : Receiver} {msg : CANFrame} {b : Option BurstData}
    (hf : Fit c r) (hclient : r.client = some c) (h : Effect c r.received msg c' b) :
    Fit c' (r.receive msg) := by
  cases h with
  | nothing hskip => exact fit_nothing hf hskip
  | status definition hfirst hk hid hchecked hstatus htracks =>
    by_cases hstart : msg.id = 0x4E0
    · rename_i k
      have hzero : k = 0 := by
        rw [hstart] at hid
        unfold statusId at hid
        split_ifs at hid <;> omega
      subst hzero
      exact fit_start hf hstart hfirst hchecked hstatus htracks
    · exact fit_status hf hk hid hstart hchecked hstatus htracks
  | track definition hfirst hid hchecked hstatus htracks =>
    exact fit_track hf hid hchecked hstatus htracks
  | power definition hfirst hid hchecked hgroup hstatus htracks =>
    exact fit_power hf hclient hid hchecked hgroup hstatus htracks

theorem fit_receive (r : Receiver) (msg : CANFrame) (hf : ∀ c ∈ r.client, Fit c r) :
    ∀ c' ∈ (r.receive msg).client, Fit c' (r.receive msg) := by
  intro c' hc'
  obtain ⟨c, hclient, hc⟩ := Option.bind_eq_some_iff.mp hc'
  cases hprocess : c.process r.received msg with
  | error e =>
    rw [hprocess] at hc
    cases hc
  | ok result =>
    rw [hprocess] at hc
    cases hc
    exact fit_effect (hf c hclient) hclient (process_effect hprocess)

theorem fit_init : ∀ c ∈ Receiver.init.client, Fit c .init := by
  intro c hc
  cases hc
  refine ⟨rfl, rfl, ?_, nofun, rfl, fun _ => Or.inl rfl⟩
  intro i _ n hn
  simp only [motionWriter, Client.init, List.getElem?_replicate] at hn
  split at hn <;> cases hn

theorem burst_spec {r : Receiver} {msg : CANFrame} {b : BurstData} (hf : ∀ c ∈ r.client, Fit c r)
    (hb : r.burst msg = some b) :
    ∃ c s, s ∈ r.start ∧ UpTo c s r.groups ∧ c.burstData = b ∧ c.lastId = 0x5E8 := by
  obtain ⟨c, hclient, hc⟩ := Option.bind_eq_some_iff.mp hb
  cases hprocess : c.process r.received msg with
  | error e =>
    rw [hprocess] at hc
    cases hc
  | ok result =>
    obtain ⟨c', burst⟩ := result
    rw [hprocess] at hc
    cases hc
    have heffect := process_effect hprocess
    have hfit := fit_effect (hf c hclient) hclient heffect
    generalize hburst : some b = burst at heffect
    cases heffect with
    | nothing hskip => cases hburst
    | status definition hfirst hk hid hchecked hstatus htracks =>
      split_ifs at hburst with hlast
      cases hburst
      have hsync : c'.inSync = true := by
        have hinvalid := hchecked.invalid
        rw [hlast.2] at hinvalid
        simpa using hinvalid
      have hnot : msg.id ≠ 0x4E0 := by omega
      have hpast : (r.receive msg).start = r.start ∧ (r.receive msg).groups = r.groups :=
        ⟨by simp [Receiver.receive, hnot], groups_receive hnot (by omega)⟩
      have hlastId := hchecked.lastId.trans hlast.1
      rcases hfit.synced hsync with hzero | ⟨s, hs, hup⟩
      · omega
      · rw [hpast.1] at hs
        rw [hpast.2] at hup
        exact ⟨c', s, hs, hup, rfl, hlastId⟩
    | track definition hfirst hid hchecked hstatus htracks => cases hburst
    | power definition hfirst hid hchecked hgroup hstatus htracks => cases hburst

theorem fit_run (frames : List CANFrame) :
    ∀ c ∈ (run Receiver.receive .init frames).client, Fit c (run Receiver.receive .init frames) :=
  run_keeps_always (I := fun r : Receiver => ∀ c ∈ r.client, Fit c r)
    (fun r msg h => fit_receive r msg h) fit_init frames

/-- The nine statuses and the 64 tracks of a burst are always its own, and so is the motion
power of each track whose group came. -/
theorem burst_parts (frames : List CANFrame) (msg : CANFrame) (b : BurstData)
    (hb : (run Receiver.receive .init frames).burst msg = some b) :
    ∃ s ∈ (run Receiver.receive .init frames).start,
      (∀ k < 9, Since s (statusWriter b.esrStatus k)) ∧
      ∀ i < 64, Since s (trackWriter b.tracks i) ∧
        (Since s (motionWriter b.tracks i) ↔
          i / 7 ∈ (run Receiver.receive .init frames).groups) := by
  obtain ⟨c, s, hs, hup, rfl, hlast⟩ := burst_spec (fit_run frames) hb
  refine ⟨s, hs, ?_, fun i hi => ⟨hup.track i hi (by rw [hlast]; omega), hup.motion i hi⟩⟩
  intro k hk
  apply hup.status k hk
  rw [hlast]
  unfold statusId
  split_ifs <;> omega

/-- For every sequence of frames, a burst that is handed on is of one burst of the radar
just when a power frame of each of its ten groups came since the first frame of it. -/
theorem a_burst_is_unmixed_iff_every_group_came (frames : List CANFrame) (msg : CANFrame)
    (b : BurstData) (hb : (run Receiver.receive .init frames).burst msg = some b) :
    Unmixed (run Receiver.receive .init frames).start b ↔
      ∀ g < 10, g ∈ (run Receiver.receive .init frames).groups := by
  obtain ⟨s, hs, hstatus, hparts⟩ := burst_parts frames msg b hb
  constructor
  · rintro ⟨s', hs', _, htracks⟩ g hg
    cases hs.symm.trans hs'
    have hmotion := (htracks (g * 7) (by omega)).2
    rw [(hparts (g * 7) (by omega)).2] at hmotion
    rwa [Nat.mul_div_cancel g (by decide)] at hmotion
  · intro hgroups
    refine ⟨s, hs, hstatus, fun i hi => ⟨(hparts i hi).1, ?_⟩⟩
    rw [(hparts i hi).2]
    exact hgroups (i / 7) (by omega)

/-! ## Two bursts -/

/-- A frame with the group `g` in its first byte. -/
def frame (id g : ℕ) : CANFrame := ⟨0, id, false, 8, fun i => if i.val = 0 then .ofNat 8 g else 0⟩

/-- The frames of a burst before its last one, with power frames of the first `powers`
groups. -/
def burstFrames (powers : ℕ) : List CANFrame :=
  (List.range 4).map (fun k => frame (0x4E0 + k) 0) ++
    (List.range 64).map (fun i => frame (0x500 + i) 0) ++
    (List.range powers).map (fun g => frame 0x540 g) ++
    (List.range 4).map (fun k => frame (0x5E4 + k) 0)

theorem a_burst_is_unmixed_with_ten_groups :
    ∃ b, (run Receiver.receive .init (burstFrames 10)).burst (frame 0x5E8 0) = some b ∧
      Unmixed (run Receiver.receive .init (burstFrames 10)).start b := by
  obtain ⟨b, hb⟩ := Option.isSome_iff_exists.mp
    (by decide +kernel :
      ((run Receiver.receive .init (burstFrames 10)).burst (frame 0x5E8 0)).isSome = true)
  exact ⟨b, hb, (a_burst_is_unmixed_iff_every_group_came _ _ b hb).mpr (by decide +kernel)⟩

/-- One power frame is enough for a burst to be handed on. Its second group of tracks has
the motion power of the burst before. -/
theorem a_burst_keeps_old_motion_power :
    ∃ b, (run Receiver.receive .init
        (burstFrames 10 ++ [frame 0x5E8 0] ++ burstFrames 1)).burst (frame 0x5E8 0) = some b ∧
      ¬ Unmixed (run Receiver.receive .init
        (burstFrames 10 ++ [frame 0x5E8 0] ++ burstFrames 1)).start b := by
  obtain ⟨b, hb⟩ := Option.isSome_iff_exists.mp
    (by decide +kernel : ((run Receiver.receive .init
      (burstFrames 10 ++ [frame 0x5E8 0] ++ burstFrames 1)).burst (frame 0x5E8 0)).isSome = true)
  have hwriter : ((run Receiver.receive .init
      (burstFrames 10 ++ [frame 0x5E8 0] ++ burstFrames 1)).burst (frame 0x5E8 0)).bind
      (fun b => motionWriter b.tracks 7) = some 69 := by decide +kernel
  have hstart : (run Receiver.receive .init
      (burstFrames 10 ++ [frame 0x5E8 0] ++ burstFrames 1)).start = some 83 := by decide +kernel
  refine ⟨b, hb, ?_⟩
  rintro ⟨s, hs, _, htracks⟩
  rw [hstart] at hs
  cases hs
  rw [hb] at hwriter
  obtain ⟨n, hn, hle⟩ := (htracks 7 (by decide)).2
  cases hwriter.symm.trans hn
  omega

end carma.delphi_esr
