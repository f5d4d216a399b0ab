-- A datagram of the DSRC radio, in which the first whole message is looked for. The bound
-- of the search is `size - 3` in unsigned arithmetic, so with fewer than three bytes it is
-- no bound at all.
import Mathlib.Data.List.Basic
import Mathlib.Data.Nat.Bitwise

namespace carma.dsrc

abbrev Byte := BitVec 8

/-- The bytes of a datagram, no more than a vector can hold. -/
structure Datagram where
  bytes : List Byte
  size_lt : bytes.length < 2 ^ 63

def Datagram.size (entry : Datagram) : ℕ := entry.bytes.length

/-- A value of type `size_t`. -/
def size_t (x : ℤ) : ℕ := (x % 2 ^ 64).toNat

/-- What `onMessageReceived` is called with. -/
structure Message where
  msg_vec : List Byte
  msg_id : BitVec 16
deriving DecidableEq, Repr

/-- A read outside of the datagram, at this place. -/
structure ReadPastEnd where
  index : ℕ
deriving DecidableEq, Repr

/-! ## The program -/

def read (entry : Datagram) (i : ℕ) : Except ReadPastEnd Byte :=
  match entry.bytes[i]? with
  | some b => .ok b
  | none => .error ⟨i⟩

/-- The vector of the bytes from `start` on, up to `stop`. -/
def copy (entry : Datagram) (start stop : ℕ) : Except ReadPastEnd (List Byte) :=
  if stop ≤ entry.size then .ok ((entry.bytes.take stop).drop start) else .error ⟨entry.size⟩

def msgIdAt (entry : Datagram) (i : ℕ) : Except ReadPastEnd (BitVec 16) := do
  let high ← read entry i
  let low ← read entry (i + 1)
  return (high.setWidth 16 <<< 8) ||| low.setWidth 16

/-- `len` and `len_bytes` at a place, `none` where the loop goes on at once. -/
def lengthAt (entry : Datagram) (i : ℕ) : Except ReadPastEnd (Option (ℕ × ℕ)) := do
  let len_byte_1 := (← read entry (i + 2)).toNat
  if len_byte_1 &&& 0x80 = 0 then
    return if len_byte_1 = 0 then none else some (len_byte_1, 1)
  else if len_byte_1 &&& 0x40 = 0 then
    if i + 3 < entry.size then
      let len_byte_2 := (← read entry (i + 3)).toNat
      return some (((len_byte_1 &&& 0x3f) <<< 8) ||| len_byte_2, 2)
    else
      return some (0, 0)
  else
    return none

/-- The loop from `i` on, with the turns that its bound leaves. -/
def scan (entry : Datagram) : ℕ → ℕ → Except ReadPastEnd (Option Message)
  | 0, _ => return none
  | turns + 1, i => do
    let msg_id ← msgIdAt entry i
    match ← lengthAt entry i with
    | none => scan entry turns (i + 1)
    | some (len, len_bytes) =>
      if len = size_t (-1) then scan entry turns (i + 1)
      else if size_t (i + 1 + len + len_bytes) < entry.size then
        let msg_vec ← copy entry i (size_t (i + 2 + len + len_bytes))
        return some ⟨msg_vec, msg_id⟩
      else scan entry turns (i + 1)

/-- `DSRCOBUClient::process`: what it delivers. -/
def process (entry : Datagram) : Except ReadPastEnd (Option Message) :=
  scan entry (size_t (entry.size - 3)) 0

/-! ## Messages -/

/-- Two bytes of id, a length in one byte or in fourteen bits of two, and so many bytes. -/
inductive IsMessage : List Byte → Prop
  | short (id0 id1 l : Byte) (body : List Byte) : 0 < l.toNat → l.toNat < 128 →
      body.length = l.toNat → IsMessage (id0 :: id1 :: l :: body)
  | long (id0 id1 high low : Byte) (body : List Byte) : 128 ≤ high.toNat → high.toNat < 192 →
      body.length = (high.toNat - 128) * 256 + low.toNat →
      IsMessage (id0 :: id1 :: high :: low :: body)

/-- A message stands at `i`. -/
def StartsAt (bytes : List Byte) (i : ℕ) (m : List Byte) : Prop :=
  IsMessage m ∧ m <+: bytes.drop i

/-- The id of a message: its first two bytes. -/
def idOf (m : List Byte) : BitVec 16 := (m.getD 0 0).append (m.getD 1 0)

/-- What is delivered is the first message, or nothing where there is none. -/
def Delivers (bytes : List Byte) : Option Message → Prop
  | none => ∀ i m, ¬ StartsAt bytes i m
  | some msg => ∃ i, StartsAt bytes i msg.msg_vec ∧ msg.msg_id = idOf msg.msg_vec ∧
      ∀ j < i, ∀ m, ¬ StartsAt bytes j m

/-- The length that two bytes after the id give, with the size of the length itself. -/
def formOf (b2 b3 : Byte) : Option (ℕ × ℕ) :=
  if b2.toNat < 128 then if b2.toNat = 0 then none else some (b2.toNat, 1)
  else if b2.toNat < 192 then some ((b2.toNat - 128) * 256 + b3.toNat, 2)
  else none

theorem IsMessage.four_le {m : List Byte} (h : IsMessage m) : 4 ≤ m.length := by
  cases h with
  | short id0 id1 l body hpos hlt hbody => simp only [List.length_cons]; omega
  | long id0 id1 high low body hlow hhigh hbody => simp

theorem startsAt_fits {bytes : List Byte} {i : ℕ} {m : List Byte} (h : StartsAt bytes i m) :
    i + 4 ≤ bytes.length := by
  have hfour := h.1.four_le
  have hle := h.2.length_le
  rw [List.length_drop] at hle
  omega

theorem isMessage_take (b0 b1 : Byte) {b2 b3 : Byte} (rest : List Byte) {len len_bytes : ℕ}
    (hform : formOf b2 b3 = some (len, len_bytes)) (hfits : len + len_bytes ≤ rest.length + 2) :
    IsMessage ((b0 :: b1 :: b2 :: b3 :: rest).take (2 + len + len_bytes)) := by
  unfold formOf at hform
  split_ifs at hform with hlt hzero hhigh
  · cases hform
    have htake : (b0 :: b1 :: b2 :: b3 :: rest).take (2 + b2.toNat + 1) =
        b0 :: b1 :: b2 :: (b3 :: rest).take b2.toNat := by
      rw [show 2 + b2.toNat + 1 = b2.toNat + 1 + 1 + 1 by omega]
      rfl
    rw [htake]
    apply IsMessage.short _ _ _ _ (by omega) hlt
    simp only [List.length_take, List.length_cons]
    omega
  · cases hform
    have htake : (b0 :: b1 :: b2 :: b3 :: rest).take
        (2 + ((b2.toNat - 128) * 256 + b3.toNat) + 2) =
        b0 :: b1 :: b2 :: b3 :: rest.take ((b2.toNat - 128) * 256 + b3.toNat) := by
      rw [show 2 + ((b2.toNat - 128) * 256 + b3.toNat) + 2 =
        (b2.toNat - 128) * 256 + b3.toNat + 1 + 1 + 1 + 1 by omega]
      rfl
    rw [htake]
    apply IsMessage.long _ _ _ _ _ (by omega) hhigh
    simp only [List.length_take]
    omega

theorem message_prefix_iff (b0 b1 b2 b3 : Byte) (rest m : List Byte) :
    (IsMessage m ∧ m <+: b0 :: b1 :: b2 :: b3 :: rest) ↔
      ∃ len len_bytes, formOf b2 b3 = some (len, len_bytes) ∧ len + len_bytes ≤ rest.length + 2 ∧
        m = (b0 :: b1 :: b2 :: b3 :: rest).take (2 + len + len_bytes) := by
  constructor
  · rintro ⟨hm, hprefix⟩
    have hlen := hprefix.length_le
    have htake := List.prefix_iff_eq_take.mp hprefix
    cases hm with
    | short id0 id1 l body hpos hlt hbody =>
      simp only [List.cons_prefix_cons] at hprefix
      obtain ⟨rfl, rfl, rfl, hprefix⟩ := hprefix
      refine ⟨l.toNat, 1, by simp [formOf, hlt, hpos.ne'], ?_, ?_⟩
      · simp only [List.length_cons] at hlen
        omega
      · rw [htake]
        congr 1
        simp only [List.length_cons]
        omega
    | long id0 id1 high low body hlow hhigh hbody =>
      simp only [List.cons_prefix_cons] at hprefix
      obtain ⟨rfl, rfl, rfl, rfl, hprefix⟩ := hprefix
      refine ⟨(high.toNat - 128) * 256 + low.toNat, 2, by simp [formOf, not_lt.mpr hlow, hhigh],
        ?_, ?_⟩
      · simp only [List.length_cons] at hlen
        omega
      · rw [htake]
        congr 1
        simp only [List.length_cons]
        omega
  · rintro ⟨len, len_bytes, hform, hfits, rfl⟩
    exact ⟨isMessage_take b0 b1 rest hform hfits, List.take_prefix _ _⟩

/-! ## One turn -/

/-- Four bytes stand from a place on that leaves three behind it. -/
theorem exists_four {bytes : List Byte} {i : ℕ} (h : i + 3 < bytes.length) :
    ∃ b0 b1 b2 b3 rest, bytes.drop i = b0 :: b1 :: b2 :: b3 :: rest := by
  have hlen : 4 ≤ (bytes.drop i).length := by
    rw [List.length_drop]
    omega
  rcases hd : bytes.drop i with _ | ⟨b0, _ | ⟨b1, _ | ⟨b2, _ | ⟨b3, rest⟩⟩⟩⟩
  · simp [hd] at hlen
  · simp [hd] at hlen
  · simp [hd] at hlen
  · simp [hd] at hlen
  · exact ⟨b0, b1, b2, b3, rest, rfl⟩

theorem read_drop (entry : Datagram) {i k : ℕ} {b : Byte} (h : (entry.bytes.drop i)[k]? = some b) :
    read entry (i + k) = .ok b := by
  rw [List.getElem?_drop] at h
  simp [read, h]

/-- `b & 2^k`: the bit of `b` at `k`. -/
theorem and_two_pow_eq_zero (x k : ℕ) : x &&& 2 ^ k = 0 ↔ x / 2 ^ k % 2 = 0 := by
  rw [Nat.and_two_pow, Nat.testBit_eq_decide_div_mod_eq]
  by_cases h : x / 2 ^ k % 2 = 1
  · simp [h]
  · have hzero : x / 2 ^ k % 2 = 0 := by omega
    simp [hzero]

section Turn

variable {entry : Datagram} {i : ℕ} {b0 b1 b2 b3 : Byte} {rest : List Byte}

theorem msgIdAt_eq (h : entry.bytes.drop i = b0 :: b1 :: b2 :: b3 :: rest) :
    msgIdAt entry i = .ok (b0.append b1) := by
  have h0 : read entry i = .ok b0 := read_drop entry (k := 0) (by simp [h])
  have h1 : read entry (i + 1) = .ok b1 := read_drop entry (by simp [h])
  have hid : (b0.setWidth 16 <<< 8) ||| b1.setWidth 16 = b0.append b1 := by
    apply BitVec.eq_of_getLsbD_eq
    intro k hk
    change _ = (b0 ++ b1).getLsbD k
    rw [BitVec.getLsbD_append]
    by_cases hlow : k < 8
    · simp [hlow, hk]
    · have hhigh : b1.getLsbD k = false := BitVec.getLsbD_of_ge b1 k (by omega)
      simp [hlow, hk, hhigh]
  simp only [msgIdAt, h0, h1, bind, Except.bind, pure, Except.pure, hid]

theorem lengthAt_eq (h : entry.bytes.drop i = b0 :: b1 :: b2 :: b3 :: rest) :
    lengthAt entry i = .ok (formOf b2 b3) := by
  have h2 : read entry (i + 2) = .ok b2 := read_drop entry (by simp [h])
  have h3 : read entry (i + 3) = .ok b3 := read_drop entry (by simp [h])
  have hlen : i + 3 < entry.size := by
    have := congrArg List.length h
    simp only [List.length_drop, List.length_cons] at this
    unfold Datagram.size
    omega
  have hb2 := b2.isLt
  have htop : b2.toNat &&& 0x80 = 0 ↔ b2.toNat < 128 := by
    rw [show 0x80 = 2 ^ 7 by rfl, and_two_pow_eq_zero]
    omega
  unfold lengthAt formOf
  simp only [h2, h3, bind, Except.bind, pure, Except.pure, htop, hlen, if_true]
  by_cases hlt : b2.toNat < 128
  · simp [hlt]
  · have hnext : b2.toNat &&& 0x40 = 0 ↔ b2.toNat < 192 := by
      rw [show 0x40 = 2 ^ 6 by rfl, and_two_pow_eq_zero]
      omega
    have hvalue : ((b2.toNat &&& 0x3f) <<< 8) ||| b3.toNat =
        b2.toNat % 64 * 256 + b3.toNat := by
      rw [show 0x3f = 2 ^ 6 - 1 by rfl, Nat.and_two_pow_sub_one_eq_mod,
        ← Nat.shiftLeft_add_eq_or_of_lt b3.isLt, Nat.shiftLeft_eq]
    simp only [hlt, if_false, hnext, hvalue]
    split_ifs with hlong
    · rw [show b2.toNat % 64 = b2.toNat - 128 by omega]
    · rfl

theorem formOf_lt {len len_bytes : ℕ} (h : formOf b2 b3 = some (len, len_bytes)) :
    len < 2 ^ 14 ∧ len_bytes ≤ 2 := by
  have hb3 := b3.isLt
  unfold formOf at h
  split_ifs at h <;> cases h <;> constructor <;> omega

/-- What one turn does: it delivers the message at its place, or goes on. -/
theorem scan_succ (h : entry.bytes.drop i = b0 :: b1 :: b2 :: b3 :: rest) (turns : ℕ) :
    scan entry (turns + 1) i =
      match formOf b2 b3 with
      | none => scan entry turns (i + 1)
      | some (len, len_bytes) =>
        if i + 2 + len + len_bytes ≤ entry.size then
          .ok (some ⟨(b0 :: b1 :: b2 :: b3 :: rest).take (2 + len + len_bytes), b0.append b1⟩)
        else scan entry turns (i + 1) := by
  rw [scan]
  simp only [msgIdAt_eq h, lengthAt_eq h, bind, Except.bind, pure, Except.pure]
  cases hform : formOf b2 b3 with
  | none => rfl
  | some form =>
    obtain ⟨len, len_bytes⟩ := form
    obtain ⟨hlen, hbytes⟩ := formOf_lt hform
    have hsize := entry.size_lt
    have hi : i < entry.bytes.length := by
      by_contra hge
      rw [List.drop_eq_nil_of_le (by omega)] at h
      cases h
    have hnever : len ≠ size_t (-1) := by
      have : size_t (-1) = 2 ^ 64 - 1 := rfl
      omega
    have hfit : size_t ((i : ℤ) + 1 + len + len_bytes) = i + 1 + len + len_bytes := by
      unfold size_t
      omega
    have hend : size_t ((i : ℤ) + 2 + len + len_bytes) = i + 2 + len + len_bytes := by
      unfold size_t
      omega
    simp only [hnever, if_false, hfit, hend]
    by_cases hfits : i + 2 + len + len_bytes ≤ entry.size
    · rw [if_pos (by omega), if_pos hfits]
      have hslice : (entry.bytes.take (i + 2 + len + len_bytes)).drop i =
          (b0 :: b1 :: b2 :: b3 :: rest).take (2 + len + len_bytes) := by
        rw [← h, List.drop_take]
        congr 1
        omega
      simp only [copy, hfits, if_true, hslice]
    · rw [if_neg (by omega), if_neg hfits]

theorem scan_starts (h : entry.bytes.drop i = b0 :: b1 :: b2 :: b3 :: rest) {m : List Byte}
    (hm : StartsAt entry.bytes i m) (turns : ℕ) :
    scan entry (turns + 1) i = .ok (some ⟨m, idOf m⟩) := by
  obtain ⟨len, len_bytes, hform, hfits, rfl⟩ :=
    (message_prefix_iff b0 b1 b2 b3 rest m).mp (h ▸ hm)
  have hsize := congrArg List.length h
  simp only [List.length_drop, List.length_cons] at hsize
  have hid : idOf ((b0 :: b1 :: b2 :: b3 :: rest).take (2 + len + len_bytes)) = b0.append b1 := by
    rw [show 2 + len + len_bytes = len + len_bytes + 1 + 1 by omega]
    rfl
  rw [scan_succ h, hform, hid]
  simp only
  rw [if_pos (by unfold Datagram.size; omega)]

theorem scan_next (h : entry.bytes.drop i = b0 :: b1 :: b2 :: b3 :: rest)
    (hnone : ∀ m, ¬ StartsAt entry.bytes i m) (turns : ℕ) :
    scan entry (turns + 1) i = scan entry turns (i + 1) := by
  rw [scan_succ h]
  cases hform : formOf b2 b3 with
  | none => rfl
  | some form =>
    obtain ⟨len, len_bytes⟩ := form
    simp only
    apply if_neg
    intro hfits
    have hsize := congrArg List.length h
    simp only [List.length_drop, List.length_cons] at hsize
    apply hnone ((b0 :: b1 :: b2 :: b3 :: rest).take (2 + len + len_bytes))
    unfold StartsAt
    rw [h, message_prefix_iff]
    refine ⟨len, len_bytes, hform, ?_, rfl⟩
    unfold Datagram.size at hfits
    omega

end Turn

/-! ## A datagram -/

theorem scan_delivers {entry : Datagram} (turns i : ℕ) (hturns : i + turns + 3 = entry.size)
    (hbefore : ∀ j < i, ∀ m, ¬ StartsAt entry.bytes j m) :
    ∃ r, scan entry turns i = .ok r ∧ Delivers entry.bytes r := by
  unfold Datagram.size at hturns
  induction turns generalizing i with
  | zero =>
    refine ⟨none, rfl, ?_⟩
    intro j m hm
    have hfits := startsAt_fits hm
    exact hbefore j (by omega) m hm
  | succ turns ih =>
    obtain ⟨b0, b1, b2, b3, rest, hdrop⟩ := exists_four (show i + 3 < entry.bytes.length by omega)
    by_cases hstart : ∃ m, StartsAt entry.bytes i m
    · obtain ⟨m, hm⟩ := hstart
      exact ⟨_, scan_starts hdrop hm turns, i, hm, rfl, hbefore⟩
    · rw [not_exists] at hstart
      rw [scan_next hdrop hstart]
      apply ih (i + 1) (by omega)
      intro j hj
      rcases Nat.lt_succ_iff_lt_or_eq.mp hj with hj | rfl
      · exact hbefore j hj
      · exact hstart

/-- With fewer than three bytes the first turn reads past the end. -/
theorem process_short {entry : Datagram} (h : entry.size < 3) :
    process entry = .error ⟨entry.size⟩ := by
  obtain ⟨bytes, hbytes⟩ := entry
  simp only [Datagram.size] at h ⊢
  obtain ⟨turns, hturns⟩ : ∃ turns, size_t ((bytes.length : ℤ) - 3) = turns + 1 := by
    refine ⟨size_t ((bytes.length : ℤ) - 3) - 1, ?_⟩
    unfold size_t
    omega
  unfold process
  simp only [Datagram.size]
  rw [hturns]
  rcases bytes with _ | ⟨b0, _ | ⟨b1, _ | ⟨b2, rest⟩⟩⟩
  · rfl
  · rfl
  · rfl
  · simp only [List.length_cons] at h
    omega

/-- A datagram is read within its bounds and its first message delivered, if it has one,
just when it has three bytes. -/
theorem process_delivers_iff (entry : Datagram) :
    (∃ r, process entry = .ok r ∧ Delivers entry.bytes r) ↔ 3 ≤ entry.size := by
  constructor
  · rintro ⟨r, hr, -⟩
    by_contra hlt
    rw [process_short (by omega)] at hr
    cases hr
  · intro h
    have hsize := entry.size_lt
    have hbound : size_t ((entry.size : ℤ) - 3) = entry.size - 3 := by
      unfold size_t Datagram.size at *
      omega
    unfold process
    rw [hbound]
    apply scan_delivers
    · omega
    · intro j hj
      omega

theorem an_empty_datagram_is_read :
    ¬ ∀ entry : Datagram, ∃ r, process entry = .ok r ∧ Delivers entry.bytes r := by
  intro h
  obtain ⟨r, hr, -⟩ := h ⟨[], by decide⟩
  rw [process_short (by decide)] at hr
  cases hr

end carma.dsrc
