-- What the parts of a mobility message are after a round trip: a string, a timestamp and a
-- header come back, and a location with zero for each coordinate that is out of range.
import Carma.MobilityHelpers

open lib.text
open carma.path_messages

namespace carma.message

/-! ## Strings -/

/-- Characters that the wire has, but for NUL. -/
def Ascii (s : Text) : Prop := ∀ c ∈ s, 0 < c.toNat ∧ c.toNat < 128

instance (s : Text) : Decidable (Ascii s) :=
  List.decidableBAll (fun c : Char => 0 < c.toNat ∧ c.toNat < 128) s

/-- A string of at most some length that is not the placeholder of the empty one. -/
structure IsDynamicString (maxLength : ℕ) (s : Text) : Prop where
  length : s.length ≤ maxLength
  ascii : Ascii s
  ne : s ≠ DYNAMIC_STRING_DEFAULT

theorem toChar_toByte {c : Char} (h : c.toNat < 128) : toChar (toByte c) = c := by
  have hextend : ∀ n < 128, ((BitVec.ofNat 8 n).signExtend 16).toNat = n := by decide
  unfold toChar toByte
  rw [hextend _ h, Char.ofNat_toNat]

theorem toByte_ne_zero {c : Char} (hpos : 0 < c.toNat) (h : c.toNat < 128) : toByte c ≠ 0 := by
  have hne : ∀ n < 128, 0 < n → BitVec.ofNat 8 n ≠ 0 := by decide
  exact hne _ h hpos

theorem toByte_lt {c : Char} (h : c.toNat < 128) : (toByte c).toNat < 128 := by
  unfold toByte
  rw [BitVec.toNat_ofNat]
  omega

theorem newString_map {s : Text} (h : Ascii s) : newString (s.map toByte) = s := by
  unfold newString
  rw [List.map_map]
  exact (List.map_congr_left fun c hc => toChar_toByte (h c hc).2).trans (List.map_id s)

theorem ascii_of_isDigit {s : Text} (h : ∀ c ∈ s, c.isDigit = true) : Ascii s := by
  intro c hc
  have hdigit := h c hc
  unfold Char.isDigit at hdigit
  rw [Bool.and_eq_true, decide_eq_true_eq, decide_eq_true_eq] at hdigit
  have hlow : 48 ≤ c.val.toNat := hdigit.1
  have hhigh : c.val.toNat ≤ 57 := hdigit.2
  constructor
  · show 0 < c.val.toNat
    omega
  · show c.val.toNat < 128
    omega

theorem setRegion_full {A : Type} {array content : List A} (h : content.length = array.length) :
    setRegion array content = content := by
  unfold setRegion
  rw [h, List.drop_length, List.append_nil]

/-- The zeros after a string end it. -/
theorem read_region {s : Text} (h : Ascii s) (n : ℕ) :
    ((setRegion (List.replicate n 0) (s.map toByte)).takeWhile
      fun ch => decide (ch ≠ 0)).map toChar = s := by
  have hbytes : ∀ b ∈ s.map toByte, decide (b ≠ 0) = true := by
    intro b hb
    obtain ⟨c, hc, rfl⟩ := List.mem_map.mp hb
    exact decide_eq_true (toByte_ne_zero (h c hc).1 (h c hc).2)
  have hzeros : (List.replicate (n - (s.map toByte).length) (0 : BitVec 8)).takeWhile
      (fun ch => decide (ch ≠ 0)) = [] := by
    cases n - (s.map toByte).length with
    | zero => rfl
    | succ k => rfl
  unfold setRegion
  rw [List.drop_replicate, List.takeWhile_append_of_pos hbytes, hzeros, List.append_nil]
  exact newString_map h

/-- A string of at most some length. -/
structure IsLegalString (maxLength : ℕ) (s : Text) : Prop where
  length : s.length ≤ maxLength
  ascii : Ascii s

theorem IsDynamicString.legal {maxLength : ℕ} {s : Text} (h : IsDynamicString maxLength s) :
    IsLegalString maxLength s := ⟨h.length, h.ascii⟩

theorem ascii_default : Ascii DYNAMIC_STRING_DEFAULT := by decide

/-- The bytes of a string, with the placeholder for the empty one. -/
theorem setDynamicLengthString_eq {maxLength : ℕ} {s : Text} (h : IsLegalString maxLength s) :
    setDynamicLengthString s maxLength =
      (if s = [] then DYNAMIC_STRING_DEFAULT else s).map toByte := by
  unfold setDynamicLengthString
  by_cases hempty : s = []
  · simp [hempty]
  · simp [hempty, h.length]

/-- A string as it arrives: the placeholder is taken for the empty one. -/
def receivedString (s : Text) : Text := if s = DYNAMIC_STRING_DEFAULT then [] else s

theorem receivedString_eq_iff (s : Text) : receivedString s = s ↔ s ≠ DYNAMIC_STRING_DEFAULT := by
  unfold receivedString
  by_cases h : s = DYNAMIC_STRING_DEFAULT
  · simp [h, DYNAMIC_STRING_DEFAULT]
  · simp [h]

theorem readDynamicLengthString_legal {maxLength : ℕ} {s : Text} (h : IsLegalString maxLength s)
    (n : ℕ) : readDynamicLengthString
      (setRegion (List.replicate n 0) (setDynamicLengthString s maxLength)) =
        receivedString s := by
  rw [setDynamicLengthString_eq h]
  unfold readDynamicLengthString receivedString
  dsimp only
  by_cases hempty : s = []
  · rw [if_pos hempty, read_region ascii_default, if_pos rfl, hempty]
    rfl
  · rw [if_neg hempty, read_region h.ascii]

theorem readDynamicLengthString_set {maxLength : ℕ} {s : Text} (h : IsDynamicString maxLength s)
    (n : ℕ) : readDynamicLengthString
      (setRegion (List.replicate n 0) (setDynamicLengthString s maxLength)) = s := by
  rw [readDynamicLengthString_legal h.legal]
  exact (receivedString_eq_iff s).mpr h.ne

/-- `IA5String (SIZE (low..high))`. -/
structure IsIA5String (low high : ℕ) (bytes : Bytes) : Prop where
  low : low ≤ bytes.length
  high : bytes.length ≤ high
  ascii : ∀ b ∈ bytes, b.toNat < 128

theorem setDynamicLengthString_ascii {maxLength : ℕ} {s : Text} (h : Ascii s) :
    ∀ b ∈ setDynamicLengthString s maxLength, b.toNat < 128 := by
  intro b hb
  unfold setDynamicLengthString at hb
  obtain ⟨c, hc, rfl⟩ := List.mem_map.mp hb
  apply toByte_lt
  split at hc
  · exact (h c hc).2
  · exact (ascii_default c hc).2

theorem isIA5String_dynamic {maxLength : ℕ} (hmax : 2 ≤ maxLength) {s : Text} (h : Ascii s) :
    IsIA5String 1 maxLength (setDynamicLengthString s maxLength) := by
  have hlengths : 1 ≤ (setDynamicLengthString s maxLength).length ∧
      (setDynamicLengthString s maxLength).length ≤ maxLength := by
    unfold setDynamicLengthString
    rw [List.length_map]
    split
    · rename_i hboth
      exact ⟨Nat.one_le_iff_ne_zero.mpr hboth.2, hboth.1⟩
    · exact ⟨by decide, hmax⟩
  exact ⟨hlengths.1, hlengths.2, setDynamicLengthString_ascii h⟩

/-- A string of exactly some length. -/
structure IsFixedString (length : ℕ) (s : Text) : Prop where
  length : s.length = length
  ascii : Ascii s

theorem setFixedLengthString_eq {length : ℕ} {s : Text} (h : IsFixedString length s)
    (defaultString : Text) : (setFixedLengthString s length defaultString).take length =
      s.map toByte := by
  unfold setFixedLengthString
  rw [if_pos h.length]
  apply List.take_of_length_le
  rw [List.length_map, h.length]

theorem newString_fixed {length : ℕ} {s : Text} (h : IsFixedString length s) :
    newString (setRegion (List.replicate length 0) ((s.map toByte).take length)) = s := by
  have htake : (s.map toByte).take length = s.map toByte := by
    apply List.take_of_length_le
    rw [List.length_map, h.length]
  rw [htake, setRegion_full (by rw [List.length_map, List.length_replicate, h.length])]
  exact newString_map h.ascii

theorem isIA5String_map {s : Text} (h : Ascii s) :
    IsIA5String s.length s.length (s.map toByte) := by
  refine ⟨(List.length_map _).ge, (List.length_map _).le, ?_⟩
  intro b hb
  obtain ⟨c, hc, rfl⟩ := List.mem_map.mp hb
  exact toByte_lt (h c hc).2

/-! ## Timestamps -/

theorem setTimestamp_eq {time : ℤ} (h : 0 ≤ time) :
    setTimestamp time = (padded 19 time.toNat).map toByte := by
  obtain ⟨n, rfl⟩ := Int.eq_ofNat_of_zero_le h
  unfold setTimestamp formatInt padded
  rw [if_neg (by omega)]
  rfl

/-- A long that is not negative. -/
structure IsTimestamp (time : ℤ) : Prop where
  nonneg : 0 ≤ time
  long : time < 2 ^ 63

theorem padded_ascii (width n : ℕ) : Ascii (padded width n) :=
  ascii_of_isDigit fun _ hc => padded_isDigit hc

theorem padded_timestamp {time : ℤ} (h : IsTimestamp time) :
    (padded 19 time.toNat).length = 19 := by
  have hlong := h.long
  exact padded_length (by decide) (by omega)

theorem isIA5String_timestamp {time : ℤ} (h : IsTimestamp time) :
    IsIA5String 19 19 ((setTimestamp time).take 19) := by
  have hmap := isIA5String_map (padded_ascii 19 time.toNat)
  rw [padded_timestamp h] at hmap
  rw [setTimestamp_eq h.nonneg, List.take_of_length_le hmap.high]
  exact hmap

/-- A timestamp that is not negative comes back. -/
theorem readTimestamp_set {time : ℤ} (h : IsTimestamp time) :
    readTimestamp (some ((setTimestamp time).take 19)) = some time := by
  have hlong := h.long
  have hlength : ((padded 19 time.toNat).map toByte).length = 19 := by
    rw [List.length_map, padded_timestamp h]
  unfold readTimestamp
  dsimp only
  rw [setTimestamp_eq h.nonneg, List.take_take, min_self, List.take_of_length_le hlength.le,
    setRegion_full (by rw [hlength, List.length_replicate]), newString_map (padded_ascii _ _),
    parseLong_padded 19 (by omega), Int.toNat_of_nonneg h.nonneg]

theorem readTimestamp_none : readTimestamp none = some 0 := by
  decide +kernel

/-! ## Headers -/

/-- A header that the wire can carry. -/
structure MobilityHeader.InRange (header : MobilityHeader) : Prop where
  senderId : IsDynamicString STATIC_ID_MAX_LENGTH header.senderId
  recipientId : IsDynamicString STATIC_ID_MAX_LENGTH header.recipientId
  senderBsmId : IsFixedString 8 header.senderBsmId
  planId : IsFixedString 36 header.planId
  timestamp : IsTimestamp header.timestamp

/-- The constraints of the header of the C structure. -/
structure Header.WellFormed (header : Header) : Prop where
  hostStaticId : IsIA5String 1 16 header.hostStaticId
  targetStaticId : IsIA5String 1 16 header.targetStaticId
  hostBSMId : IsIA5String 8 8 header.hostBSMId
  planId : IsIA5String 36 36 header.planId
  timestamp : IsIA5String 19 19 header.timestamp

theorem isIA5String_fixed {length : ℕ} {s : Text} (h : IsFixedString length s)
    (defaultString : Text) :
    IsIA5String length length ((setFixedLengthString s length defaultString).take length) := by
  rw [setFixedLengthString_eq h]
  have hmap := isIA5String_map h.ascii
  rwa [h.length] at hmap

/-- A header whose ids fit, the placeholder among them. -/
structure MobilityHeader.Legal (header : MobilityHeader) : Prop where
  senderId : IsLegalString STATIC_ID_MAX_LENGTH header.senderId
  recipientId : IsLegalString STATIC_ID_MAX_LENGTH header.recipientId
  senderBsmId : IsFixedString 8 header.senderBsmId
  planId : IsFixedString 36 header.planId
  timestamp : IsTimestamp header.timestamp

theorem MobilityHeader.InRange.legal {header : MobilityHeader} (h : header.InRange) :
    header.Legal :=
  ⟨h.senderId.legal, h.recipientId.legal, h.senderBsmId, h.planId, h.timestamp⟩

theorem MobilityHeader.Legal.wellFormed {header : MobilityHeader} (h : header.Legal) :
    (MobilityHeaderHelper header).WellFormed where
  hostStaticId := isIA5String_dynamic (by decide) h.senderId.ascii
  targetStaticId := isIA5String_dynamic (by decide) h.recipientId.ascii
  hostBSMId := isIA5String_fixed h.senderBsmId BSM_ID_DEFAULT
  planId := isIA5String_fixed h.planId GUID_DEFAULT
  timestamp := isIA5String_timestamp h.timestamp

theorem header_wellFormed {header : MobilityHeader} (h : header.InRange) :
    (MobilityHeaderHelper header).WellFormed := h.legal.wellFormed

/-- A header as it arrives. -/
def MobilityHeader.received (header : MobilityHeader) : MobilityHeader :=
  { header with
    senderId := receivedString header.senderId
    recipientId := receivedString header.recipientId }

theorem readHeader_legal {header : MobilityHeader} (h : header.Legal) :
    readHeader (MobilityHeaderHelper header) = some header.received := by
  have hbsm : (setFixedLengthString header.senderBsmId BSM_ID_DEFAULT.length
      BSM_ID_DEFAULT).take 8 = header.senderBsmId.map toByte :=
    setFixedLengthString_eq h.senderBsmId BSM_ID_DEFAULT
  have hplan : (setFixedLengthString header.planId GUID_DEFAULT.length GUID_DEFAULT).take 36 =
      header.planId.map toByte := setFixedLengthString_eq h.planId GUID_DEFAULT
  unfold readHeader MobilityHeaderHelper
  dsimp only
  rw [readTimestamp_set h.timestamp, readDynamicLengthString_legal h.senderId,
    readDynamicLengthString_legal h.recipientId, hbsm, hplan, newString_fixed h.senderBsmId,
    newString_fixed h.planId]
  rfl

theorem readHeader_helper {header : MobilityHeader} (h : header.InRange) :
    readHeader (MobilityHeaderHelper header) = some header := by
  rw [readHeader_legal h.legal]
  unfold MobilityHeader.received
  rw [(receivedString_eq_iff _).mpr h.senderId.ne, (receivedString_eq_iff _).mpr h.recipientId.ne]

/-- A header without a recipient. -/
def broadcastHeader : MobilityHeader where
  senderId := "USDOT-45100".toList
  recipientId := []
  senderBsmId := "10ABCDEF".toList
  planId := "11111111-2222-3333-AAAA-111111111111".toList
  timestamp := 123456789

theorem broadcastHeader_inRange : broadcastHeader.InRange where
  senderId := ⟨by decide, by decide, by decide⟩
  recipientId := ⟨by decide, by decide, by decide⟩
  senderBsmId := ⟨by decide, by decide⟩
  planId := ⟨by decide, by decide⟩
  timestamp := ⟨by decide, by decide⟩

/-! ## Locations -/

theorem withinOrZero_mem {bound x : ℤ} (hbound : 0 ≤ bound) :
    -bound ≤ withinOrZero bound x ∧ withinOrZero bound x ≤ bound := by
  unfold withinOrZero
  split
  · assumption
  · omega

/-- Only what is in its range is left alone. -/
theorem withinOrZero_eq_iff {bound x : ℤ} (hbound : 0 ≤ bound) :
    withinOrZero bound x = x ↔ -bound ≤ x ∧ x ≤ bound := by
  unfold withinOrZero
  split
  · rename_i h
    exact iff_of_true rfl h
  · rename_i h
    constructor
    · intro hzero
      omega
    · intro hin
      exact absurd hin h

/-- A location, with zero for each coordinate that is out of range. -/
def receivedLocation (location : LocationECEF) : LocationECEF where
  ecefX := withinOrZero ECEF_XY_MAX location.ecefX
  ecefY := withinOrZero ECEF_XY_MAX location.ecefY
  ecefZ := withinOrZero ECEF_Z_MAX location.ecefZ
  timestamp := location.timestamp

/-- The coordinates of a location in their ranges. -/
structure LocationInRange (location : LocationECEF) : Prop where
  ecefX : -ECEF_XY_MAX ≤ location.ecefX ∧ location.ecefX ≤ ECEF_XY_MAX
  ecefY : -ECEF_XY_MAX ≤ location.ecefY ∧ location.ecefY ≤ ECEF_XY_MAX
  ecefZ : -ECEF_Z_MAX ≤ location.ecefZ ∧ location.ecefZ ≤ ECEF_Z_MAX

theorem receivedLocation_eq_iff {location : LocationECEF} :
    receivedLocation location = location ↔ LocationInRange location := by
  have hxy : 0 ≤ ECEF_XY_MAX := by decide
  have hz : 0 ≤ ECEF_Z_MAX := by decide
  constructor
  · intro h
    exact ⟨(withinOrZero_eq_iff hxy).mp (congrArg LocationECEF.ecefX h),
      (withinOrZero_eq_iff hxy).mp (congrArg LocationECEF.ecefY h),
      (withinOrZero_eq_iff hz).mp (congrArg LocationECEF.ecefZ h)⟩
  · intro h
    unfold receivedLocation
    rw [(withinOrZero_eq_iff hxy).mpr h.ecefX, (withinOrZero_eq_iff hxy).mpr h.ecefY,
      (withinOrZero_eq_iff hz).mpr h.ecefZ]

/-- The constraints of a location of the C structure. -/
structure MobilityLocation.WellFormed (location : MobilityLocation) : Prop where
  ecefX : -ECEF_XY_MAX ≤ location.ecefX ∧ location.ecefX ≤ ECEF_XY_MAX
  ecefY : -ECEF_XY_MAX ≤ location.ecefY ∧ location.ecefY ≤ ECEF_XY_MAX
  ecefZ : -ECEF_Z_MAX ≤ location.ecefZ ∧ location.ecefZ ≤ ECEF_Z_MAX
  timestamp : IsIA5String 19 19 location.timestamp

theorem location_wellFormed {location : LocationECEF} (h : IsTimestamp location.timestamp) :
    (MobilityECEFLocationHelper location).WellFormed where
  ecefX := withinOrZero_mem (by decide)
  ecefY := withinOrZero_mem (by decide)
  ecefZ := withinOrZero_mem (by decide)
  timestamp := isIA5String_timestamp h

theorem readLocation_helper {location : LocationECEF} (h : IsTimestamp location.timestamp) :
    readLocation (MobilityECEFLocationHelper location) = some (receivedLocation location) := by
  unfold readLocation MobilityECEFLocationHelper
  dsimp only
  rw [readTimestamp_set h]
  rfl

end carma.message
