-- A packet from the ASD device, in which the first whole MAP or SPAT message is looked
-- for. A read outside of the buffer throws; the four header bytes are read before it is
-- known that the buffer holds them.
import Mathlib.Data.List.Basic
import Mathlib.Data.Nat.Bitwise

namespace carma.asd

abbrev Byte := BitVec 8

def ASD_MAX_PACKET_SIZE : ℕ := 1472

def LEADING_BYTES : ℕ := 500

inductive AsdMessageType where
  | MAP_MSG_ID
  | SPAT_MSG_ID
deriving DecidableEq, Repr

def AsdMessageType.getType : AsdMessageType → ℕ
  | .MAP_MSG_ID => 0x87
  | .SPAT_MSG_ID => 0x8D

/-! ## Bytes as ints -/

/-- `b & 0x000000ff`, where a byte widens with its sign. -/
def unsigned (b : Byte) : ℕ := (b.signExtend 32 &&& 0x000000ff#32).toNat

/-- `((high << 8) & 0x0000ff00) | (low & 0x000000ff)`. -/
def lengthOf (high low : Byte) : ℕ :=
  (((high.signExtend 32 <<< 8) &&& 0x0000ff00#32) ||| (low.signExtend 32 &&& 0x000000ff#32)).toNat

@[simp] theorem unsigned_eq (b : Byte) : unsigned b = b.toNat := by
  revert b
  decide +kernel

@[simp] theorem lengthOf_eq (high low : Byte) :
    lengthOf high low = 256 * high.toNat + low.toNat := by
  have hhigh : ∀ b : Byte,
      ((b.signExtend 32 <<< 8) &&& 0x0000ff00#32).toNat = 2 ^ 8 * b.toNat := by
    decide +kernel
  unfold lengthOf
  rw [BitVec.toNat_or, hhigh, ← unsigned, unsigned_eq]
  exact (Nat.two_pow_add_eq_or_of_lt low.isLt high.toNat).symm

/-! ## The reader -/

structure AsdDataPacket where
  buffer_ : Vector Byte ASD_MAX_PACKET_SIZE
  contentVersion_ : ℕ
  payloadLength_ : ℕ
  msgType_ : AsdMessageType

namespace AsdDataPacket

/-- The packet before it has read anything. -/
def new (msgType : AsdMessageType) : AsdDataPacket where
  buffer_ := Vector.replicate ASD_MAX_PACKET_SIZE 0
  contentVersion_ := 0
  payloadLength_ := 0
  msgType_ := msgType

def payloadLength (p : AsdDataPacket) : ℕ := p.payloadLength_

def getBuffer (p : AsdDataPacket) : List Byte := p.buffer_.toList

/-- `validateMessage`. The version and the length are kept also of what is not valid. -/
def validateMessage (p : AsdDataPacket) (buf : List Byte) (byte0 : ℕ) :
    Option (Bool × AsdDataPacket) := do
  let header ← (List.range 4).mapM fun i => buf[byte0 + i]?
  let nonZero := header.countP (· != 0)
  if 2 ≤ nonZero then
    let version ← buf[byte0 + 1]?
    let high ← buf[byte0 + 2]?
    let low ← buf[byte0 + 3]?
    let p := { p with
      contentVersion_ := unsigned version
      payloadLength_ := lengthOf high low }
    if byte0 + p.payloadLength_ + 4 ≤ buf.length then
      let last ← buf[byte0 + p.payloadLength_ + 3]?
      return (unsigned last == 0xff, p)
    else return (false, p)
  else return (false, p)

def store (p : AsdDataPacket) (i : ℕ) (b : Byte) : Option AsdDataPacket :=
  if h : i < ASD_MAX_PACKET_SIZE then some { p with buffer_ := p.buffer_.set i b h } else none

/-- The first `n` bytes of the buffer are those of `buf` from `start` on. -/
def copyMessage (buf : List Byte) (start n : ℕ) (p : AsdDataPacket) : Option AsdDataPacket :=
  (List.range n).foldlM (fun p i => do p.store i (← buf[start + i]?)) p

/-- The loop of `findMessageBegin` over the starts that are left. -/
def tryStarts (buf : List Byte) : List ℕ → AsdDataPacket → Option (Bool × AsdDataPacket)
  | [], p => some (false, p)
  | start :: starts, p => do
    let b ← buf[start]?
    if unsigned b = p.msgType_.getType then
      let (valid, p) ← p.validateMessage buf start
      if valid then
        let p ← copyMessage buf start (p.payloadLength_ + 4) p
        return (true, p)
      else tryStarts buf starts p
    else tryStarts buf starts p

/-- `findMessageBegin`; there is no result where it throws. -/
def findMessageBegin (p : AsdDataPacket) (buf : List Byte) : Option (Bool × AsdDataPacket) :=
  tryStarts buf (List.range (min buf.length LEADING_BYTES)) p

end AsdDataPacket

/-! ## What is to be found -/

/-- The first byte at `s` is that of the message type, and `s` is in the part that is searched. -/
def StartAt (type : AsdMessageType) (buf : List Byte) (s : ℕ) : Prop :=
  s < min buf.length LEADING_BYTES ∧ ∃ b, buf[s]? = some b ∧ b.toNat = type.getType

/-- A whole message starts at `s`, with `L` bytes after its header. -/
structure MessageAt (type : AsdMessageType) (buf : List Byte) (s L : ℕ) : Prop where
  start : StartAt type buf s
  nonZero : 2 ≤ ((buf.drop s).take 4).countP (· != 0)
  announced : ∃ high low, buf[s + 2]? = some high ∧ buf[s + 3]? = some low ∧
    L = 256 * high.toNat + low.toNat
  fits : s + L + 4 ≤ buf.length
  ends : buf[s + L + 3]? = some 0xff#8

/-- What a search gives: whether there is a message, and the first one of them. -/
structure Finds (type : AsdMessageType) (buf : List Byte) (result : Bool × AsdDataPacket) :
    Prop where
  found_iff : result.1 = true ↔ ∃ s L, MessageAt type buf s L
  first : ∀ s L, MessageAt type buf s L → (∀ s' L', MessageAt type buf s' L' → s ≤ s') →
    result.2.payloadLength = L ∧ result.2.getBuffer.take (L + 4) = (buf.drop s).take (L + 4)

/-! ## One start -/

theorem MessageAt.header_fits {type : AsdMessageType} {buf : List Byte} {s L : ℕ}
    (h : MessageAt type buf s L) : s + 4 ≤ buf.length := by
  have hfits := h.fits
  omega

/-- Two bytes of the header say how long the message at a place is. -/
theorem MessageAt.length_eq {type : AsdMessageType} {buf : List Byte} {s L : ℕ} {b2 b3 : Byte}
    (h : MessageAt type buf s L) (h2 : buf[s + 2]? = some b2) (h3 : buf[s + 3]? = some b3) :
    L = 256 * b2.toNat + b3.toNat := by
  obtain ⟨high, low, hhigh, hlow, hL⟩ := h.announced
  rw [h2] at hhigh
  rw [h3] at hlow
  cases hhigh
  cases hlow
  exact hL

/-- The four bytes of a header that the buffer holds. -/
theorem exists_header {buf : List Byte} {s : ℕ} (h : s + 4 ≤ buf.length) :
    ∃ b0 b1 b2 b3, (buf.drop s).take 4 = [b0, b1, b2, b3] ∧ buf[s]? = some b0 ∧
      buf[s + 1]? = some b1 ∧ buf[s + 2]? = some b2 ∧ buf[s + 3]? = some b3 := by
  have hread : ∀ i, buf[s + i]? = (buf.drop s)[i]? := fun i => by rw [List.getElem?_drop]
  rw [← Nat.add_zero s, hread 0, Nat.add_zero, hread 1, hread 2, hread 3]
  have hlength : 4 ≤ (buf.drop s).length := by
    rw [List.length_drop]
    omega
  match hrest : buf.drop s, hlength with
  | b0 :: b1 :: b2 :: b3 :: rest, _ => exact ⟨b0, b1, b2, b3, rfl, rfl, rfl, rfl, rfl⟩

/-- A header that the buffer does not hold is read past its end. -/
theorem validateMessage_throws (p : AsdDataPacket) {buf : List Byte} {s : ℕ}
    (h : buf.length < s + 4) : p.validateMessage buf s = none := by
  have hlast : buf[s + 3]? = none := by
    apply List.getElem?_eq_none
    omega
  have hread : (List.range 4).mapM (fun i => buf[s + i]?) = none := by
    simp [List.range_succ, hlast]
  simp [AsdDataPacket.validateMessage, hread]

/-- A validation of a header that the buffer holds, with all reads done. -/
theorem validateMessage_eq (p : AsdDataPacket) {buf : List Byte} {s : ℕ} {b0 b1 b2 b3 : Byte}
    (h0 : buf[s]? = some b0) (h1 : buf[s + 1]? = some b1) (h2 : buf[s + 2]? = some b2)
    (h3 : buf[s + 3]? = some b3) :
    let L := 256 * b2.toNat + b3.toNat
    p.validateMessage buf s =
      if 2 ≤ [b0, b1, b2, b3].countP (· != 0) then
        some (decide (buf[s + L + 3]? = some 0xff#8),
          { p with contentVersion_ := b1.toNat, payloadLength_ := L })
      else some (false, p) := by
  intro L
  have hread : (List.range 4).mapM (fun i => buf[s + i]?) = some [b0, b1, b2, b3] := by
    simp [List.range_succ, h0, h1, h2, h3]
  unfold AsdDataPacket.validateMessage
  simp only [hread, h1, h2, h3, Option.bind_eq_bind, Option.bind_some, unsigned_eq, lengthOf_eq]
  by_cases hcount : 2 ≤ [b0, b1, b2, b3].countP (· != 0)
  · rw [if_pos hcount, if_pos hcount]
    by_cases hfits : s + L + 4 ≤ buf.length
    · have hlast := List.getElem?_eq_getElem (by omega : s + L + 3 < buf.length)
      rw [if_pos hfits, hlast]
      simp [BitVec.toNat_eq, beq_eq_decide, L]
    · rw [if_neg hfits, List.getElem?_eq_none (by omega)]
      rfl
  · rw [if_neg hcount, if_neg hcount]
    rfl

/-- What a validation says of a header that the buffer holds. -/
theorem validateMessage_spec (p : AsdDataPacket) {buf : List Byte} {s : ℕ}
    (hstart : StartAt p.msgType_ buf s) (h : s + 4 ≤ buf.length) :
    ∃ valid p', p.validateMessage buf s = some (valid, p') ∧ p'.msgType_ = p.msgType_ ∧
      (valid = true ↔ MessageAt p.msgType_ buf s p'.payloadLength_) ∧
      ∀ L, MessageAt p.msgType_ buf s L → p'.payloadLength_ = L := by
  obtain ⟨b0, b1, b2, b3, htake, h0, h1, h2, h3⟩ := exists_header h
  rw [validateMessage_eq p h0 h1 h2 h3]
  by_cases hcount : 2 ≤ [b0, b1, b2, b3].countP (· != 0)
  · rw [if_pos hcount]
    refine ⟨_, _, rfl, rfl, ?_, ?_⟩
    · rw [decide_eq_true_iff]
      constructor
      · intro hends
        have hlt := (List.getElem?_eq_some_iff.mp hends).1
        have hfits : s + (256 * b2.toNat + b3.toNat) + 4 ≤ buf.length := by omega
        exact ⟨hstart, htake ▸ hcount, ⟨b2, b3, h2, h3, rfl⟩, hfits, hends⟩
      · intro hmessage
        exact hmessage.ends
    · intro L hmessage
      exact (hmessage.length_eq h2 h3).symm
  · rw [if_neg hcount]
    have hnone : ∀ L, ¬ MessageAt p.msgType_ buf s L := by
      intro L hmessage
      apply hcount
      rw [← htake]
      exact hmessage.nonZero
    refine ⟨_, _, rfl, rfl, ?_, fun L hmessage => absurd hmessage (hnone L)⟩
    simp [hnone]

/-! ## The copy -/

theorem copyMessage_spec {buf : List Byte} {start n : ℕ} (hread : start + n ≤ buf.length)
    (hroom : n ≤ ASD_MAX_PACKET_SIZE) (p : AsdDataPacket) :
    ∃ v, AsdDataPacket.copyMessage buf start n p = some { p with buffer_ := v } ∧
      v.toList.take n = (buf.drop start).take n := by
  induction n with
  | zero => exact ⟨p.buffer_, rfl, by simp⟩
  | succ n ih =>
    obtain ⟨v, hcopy, htake⟩ := ih (by omega) (by omega)
    have hn : n < ASD_MAX_PACKET_SIZE := hroom
    have hbyte : start + n < buf.length := by omega
    refine ⟨v.set n buf[start + n] hn, ?_, ?_⟩
    · unfold AsdDataPacket.copyMessage at *
      rw [List.range_succ, List.foldlM_append, hcopy]
      simp [AsdDataPacket.store, List.getElem?_eq_getElem hbyte, hn]
    · rw [Vector.toList_set, List.take_add_one, List.take_add_one,
        List.take_set_of_le (le_refl n), htake]
      simp [hn, List.getElem?_drop, List.getElem?_eq_getElem hbyte]

/-! ## The search -/

/-- The search ends without an exception: there is a message, or no start of one stands in
the last three bytes. -/
def SearchEnds (type : AsdMessageType) (buf : List Byte) : Prop :=
  (∃ s L, MessageAt type buf s L) ∨ ∀ s, StartAt type buf s → s + 4 ≤ buf.length

/-- What a search has passed by before it comes to `s`. -/
structure PassedBy (type : AsdMessageType) (buf : List Byte) (s : ℕ) : Prop where
  headers_fit : ∀ s' < s, StartAt type buf s' → s' + 4 ≤ buf.length
  no_message : ∀ s' < s, ∀ L, ¬ MessageAt type buf s' L

theorem PassedBy.next {type : AsdMessageType} {buf : List Byte} {s : ℕ}
    (h : PassedBy type buf s) (hfits : StartAt type buf s → s + 4 ≤ buf.length)
    (hnone : ∀ L, ¬ MessageAt type buf s L) : PassedBy type buf (s + 1) := by
  constructor
  · intro s' hs' hstart
    rcases Nat.lt_succ_iff_lt_or_eq.mp hs' with hlt | rfl
    · exact h.headers_fit s' hlt hstart
    · exact hfits hstart
  · intro s' hs'
    rcases Nat.lt_succ_iff_lt_or_eq.mp hs' with hlt | rfl
    · exact h.no_message s' hlt
    · exact hnone

/-- At a valid start the message is copied, and it is the first one. -/
theorem finds_of_messageAt {buf : List Byte} (hfits : buf.length ≤ ASD_MAX_PACKET_SIZE) {s : ℕ}
    {p : AsdDataPacket} {type : AsdMessageType} (hpassed : PassedBy type buf s)
    (hmessage : MessageAt type buf s p.payloadLength_) :
    ∃ p', AsdDataPacket.copyMessage buf s (p.payloadLength_ + 4) p = some p' ∧
      Finds type buf (true, p') := by
  have hend := hmessage.fits
  obtain ⟨v, hcopy, htake⟩ := copyMessage_spec (n := p.payloadLength_ + 4) (by omega) (by omega) p
  refine ⟨_, hcopy, ⟨by simpa using ⟨s, _, hmessage⟩, ?_⟩⟩
  intro s' L' hmessage' hleast
  have hle := hleast s _ hmessage
  have hs : s' = s := by
    by_contra hne
    exact hpassed.no_message s' (by omega) L' hmessage'
  subst hs
  obtain ⟨high, low, hhigh, hlow, hlength⟩ := hmessage.announced
  have hL : p.payloadLength_ = L' := by rw [hlength, hmessage'.length_eq hhigh hlow]
  rw [← hL]
  exact ⟨rfl, htake⟩

/-- In the buffer of a whole packet, as `read` gives it, the last start is far from the end. -/
theorem searchEnds_of_long (type : AsdMessageType) {buf : List Byte}
    (h : LEADING_BYTES + 3 ≤ buf.length) : SearchEnds type buf := by
  right
  intro s hstart
  have hearly := hstart.1
  omega

/-- After the last place there is no message. -/
theorem PassedBy.ends {p : AsdDataPacket} {buf : List Byte} {s : ℕ}
    (hpassed : PassedBy p.msgType_ buf s) (hs : s = min buf.length LEADING_BYTES) :
    Finds p.msgType_ buf (false, p) ∧ SearchEnds p.msgType_ buf := by
  have hnone : ∀ s' L, ¬ MessageAt p.msgType_ buf s' L := by
    intro s' L hmessage
    have hearly := hmessage.start.1
    exact hpassed.no_message s' (by omega) L hmessage
  constructor
  · refine ⟨?_, fun s' L hmessage => absurd hmessage (hnone s' L)⟩
    simp [hnone]
  · right
    intro s' hstart
    have hearly := hstart.1
    exact hpassed.headers_fit s' (by omega) hstart

theorem PassedBy.throws {msgType : AsdMessageType} {buf : List Byte} {s : ℕ}
    (hpassed : PassedBy msgType buf s) (hstart : StartAt msgType buf s)
    (hheader : ¬ s + 4 ≤ buf.length) : ¬ SearchEnds msgType buf := by
  rintro (⟨s', L, hmessage⟩ | hall)
  · have hheader' := hmessage.header_fits
    exact hpassed.no_message s' (by omega) L hmessage
  · exact hheader (hall s hstart)

/-- The loop from any place on, after what it has passed by. -/
theorem tryStarts_iff {buf : List Byte} (hfits : buf.length ≤ ASD_MAX_PACKET_SIZE) (n : ℕ) :
    ∀ (s : ℕ) (p : AsdDataPacket), s + n = min buf.length LEADING_BYTES →
      PassedBy p.msgType_ buf s →
      ((∃ result, AsdDataPacket.tryStarts buf (List.range' s n) p = some result ∧
        Finds p.msgType_ buf result) ↔ SearchEnds p.msgType_ buf) := by
  induction n with
  | zero =>
    intro s p hs hpassed
    obtain ⟨hfinds, hends⟩ := hpassed.ends hs
    exact iff_of_true ⟨(false, p), rfl, hfinds⟩ hends
  | succ n ih =>
    intro s p hs hpassed
    have hlt : s < buf.length := by omega
    have hbyte := List.getElem?_eq_getElem hlt
    rw [List.range'_succ]
    unfold AsdDataPacket.tryStarts
    simp only [hbyte, Option.bind_eq_bind, Option.bind_some, unsigned_eq]
    by_cases htype : buf[s].toNat = p.msgType_.getType
    · have hstart : StartAt p.msgType_ buf s := ⟨by omega, buf[s], hbyte, htype⟩
      rw [if_pos htype]
      by_cases hheader : s + 4 ≤ buf.length
      · obtain ⟨valid, p', hvalidate, htype', hvalid, hunique⟩ :=
          validateMessage_spec p hstart hheader
        rw [hvalidate, Option.bind_some]
        dsimp only
        by_cases hmessage : MessageAt p.msgType_ buf s p'.payloadLength_
        · obtain ⟨p'', hcopy, hfinds⟩ := finds_of_messageAt hfits hpassed hmessage
          rw [if_pos (hvalid.mpr hmessage), hcopy]
          exact iff_of_true ⟨_, rfl, hfinds⟩ (Or.inl ⟨s, _, hmessage⟩)
        · rw [if_neg (mt hvalid.mp hmessage), ← htype']
          apply ih (s + 1) p' (by omega)
          rw [htype']
          apply hpassed.next (fun _ => hheader)
          intro L hL
          exact hmessage (hunique L hL ▸ hL)
      · rw [validateMessage_throws p (by omega)]
        apply iff_of_false
        · simp
        · exact hpassed.throws hstart hheader
    · have hnostart : ¬ StartAt p.msgType_ buf s := by
        rintro ⟨-, b, hb, hbtype⟩
        rw [hbyte] at hb
        cases hb
        exact htype hbtype
      rw [if_neg htype]
      apply ih (s + 1) p (by omega)
      exact hpassed.next (fun hstart => absurd hstart hnostart)
        (fun L hmessage => hnostart hmessage.start)

/-- For a buffer of a packet: the search ends, says whether there is a message and keeps the
first one, just when there is one or each byte of the type has a whole header. -/
theorem findMessageBegin_finds_iff (p : AsdDataPacket) {buf : List Byte}
    (hfits : buf.length ≤ ASD_MAX_PACKET_SIZE) :
    (∃ result, p.findMessageBegin buf = some result ∧ Finds p.msgType_ buf result) ↔
      SearchEnds p.msgType_ buf := by
  unfold AsdDataPacket.findMessageBegin
  rw [List.range_eq_range']
  have hpassed : PassedBy p.msgType_ buf 0 := by
    constructor <;> intro s' hs' <;> omega
  exact tryStarts_iff hfits _ 0 p (Nat.zero_add _) hpassed

/-- A SPAT message with a payload of one byte. -/
theorem findMessageBegin_finds_a_short_message :
    ∃ result, (AsdDataPacket.new .SPAT_MSG_ID).findMessageBegin [0x8D, 1, 0, 1, 0xff] =
        some result ∧
      Finds .SPAT_MSG_ID [0x8D, 1, 0, 1, 0xff] result := by
  apply (findMessageBegin_finds_iff (AsdDataPacket.new .SPAT_MSG_ID) (by decide)).mpr
  left
  exact ⟨0, 1, ⟨by decide, 0x8D, rfl, rfl⟩, by decide, ⟨0, 1, rfl, rfl, rfl⟩, by decide, rfl⟩

/-- Six bytes, of which the last one is that of the type. -/
theorem a_start_at_the_end_throws :
    ¬ ∀ (p : AsdDataPacket) (buf : List Byte), buf.length ≤ ASD_MAX_PACKET_SIZE →
      ∃ result, p.findMessageBegin buf = some result ∧ Finds p.msgType_ buf result := by
  intro h
  obtain ⟨result, hresult, -⟩ :=
    h (AsdDataPacket.new .SPAT_MSG_ID) [0, 0, 0, 0, 0, 0x8D] (by decide)
  have hthrows : (AsdDataPacket.new .SPAT_MSG_ID).findMessageBegin [0, 0, 0, 0, 0, 0x8D] = none :=
    rfl
  rw [hthrows] at hresult
  cases hresult

end carma.asd
