-- A mobility operation on its way over the wire, and what its strings are when they arrive. The
-- placeholder of the empty string is a string too, and the two are the same bytes.
import Carma.MobilityHelperLaws

open lib.text

namespace carma.message

/-! ## The code -/

/-- `cav_msgs.MobilityOperation`. -/
structure MobilityOperation where
  header : MobilityHeader
  strategy : Text
  strategyParams : Text
deriving DecidableEq

/-- The C structure of an operation. -/
structure TestMessage03 where
  header : Header
  strategy : Bytes
  operationParams : Bytes
deriving DecidableEq

namespace MobilityOperation

def STRATEGY_MAX_LENGTH : ℕ := 50

def STRATEGY_PARAMS_MAX_LENGTH : ℕ := 100

/-- The structure that `encodeMobilityOperation` fills from what `callJniEncode` hands it. -/
def encodeMobilityOperation (msg : MobilityOperation) : TestMessage03 where
  header := MobilityHeaderHelper msg.header
  strategy := setDynamicLengthString msg.strategy STRATEGY_MAX_LENGTH
  operationParams := setDynamicLengthString msg.strategyParams STRATEGY_PARAMS_MAX_LENGTH

/-- What `decodeMobilityOperation` and `decode` make of a structure, none where they throw. -/
def decodeMobilityOperation (message : TestMessage03) : Option MobilityOperation :=
  (readHeader message.header).map fun header =>
    { header
      strategy := readDynamicLengthString (setRegion (List.replicate 50 0) message.strategy)
      strategyParams :=
        readDynamicLengthString (setRegion (List.replicate 100 0) message.operationParams) }

variable {W : Type}

def encode (asn : Asn1c TestMessage03 W) (msg : MobilityOperation) : Option W :=
  asn.uperEncode msg.encodeMobilityOperation

def decode (asn : Asn1c TestMessage03 W) (encoded : W) : Option MobilityOperation :=
  (asn.uperDecode encoded).bind decodeMobilityOperation

end MobilityOperation

/-! ## Strings -/

theorem map_toByte_inj {s s' : Text} (h : Ascii s) (h' : Ascii s') :
    s.map toByte = s'.map toByte ↔ s = s' := by
  constructor
  · intro hbytes
    rw [← newString_map h, hbytes, newString_map h']
  · apply congrArg

/-- One string is empty and the other is the placeholder. -/
def MarkerAndEmpty (s s' : Text) : Prop := s = [] ∧ s' = DYNAMIC_STRING_DEFAULT

/-- Strings are the same bytes only where one is empty and the other is its placeholder. -/
theorem setDynamicLengthString_inj {maxLength : ℕ} {s s' : Text} (h : IsLegalString maxLength s)
    (h' : IsLegalString maxLength s') :
    setDynamicLengthString s maxLength = setDynamicLengthString s' maxLength ↔
      s = s' ∨ MarkerAndEmpty s s' ∨ MarkerAndEmpty s' s := by
  have hascii : ∀ {s : Text}, Ascii s → Ascii (if s = [] then DYNAMIC_STRING_DEFAULT else s) := by
    intro s hs
    split
    · exact ascii_default
    · exact hs
  rw [setDynamicLengthString_eq h, setDynamicLengthString_eq h',
    map_toByte_inj (hascii h.ascii) (hascii h'.ascii)]
  unfold MarkerAndEmpty
  have hmarker : DYNAMIC_STRING_DEFAULT ≠ [] := by decide
  by_cases hs : s = [] <;> by_cases hs' : s' = []
  · simp [hs, hs']
  · simp [hs, hs', eq_comm]
  · simp [hs, hs']
  · simp [hs, hs']

/-! ## Ids -/

/-- An id of the wrong length arrives as the default one. -/
theorem newString_setFixedLengthString {id defaultString : Text} (h : Ascii id)
    (hdefault : Ascii defaultString) :
    newString (setRegion (List.replicate defaultString.length 0)
      ((setFixedLengthString id defaultString.length defaultString).take defaultString.length)) =
        if id.length = defaultString.length then id else defaultString := by
  unfold setFixedLengthString
  split
  · rename_i hlength
    apply newString_fixed ⟨hlength, h⟩
  · apply newString_fixed ⟨rfl, hdefault⟩

/-! ## Operations -/

/-- An operation whose strings fit. -/
structure MobilityOperation.Legal (msg : MobilityOperation) : Prop where
  header : msg.header.Legal
  strategy : IsLegalString MobilityOperation.STRATEGY_MAX_LENGTH msg.strategy
  strategyParams : IsLegalString MobilityOperation.STRATEGY_PARAMS_MAX_LENGTH msg.strategyParams

/-- The constraints of the C structure. -/
structure TestMessage03.WellFormed (message : TestMessage03) : Prop where
  header : message.header.WellFormed
  strategy : IsIA5String 1 50 message.strategy
  operationParams : IsIA5String 1 100 message.operationParams

/-- An operation as it arrives. -/
def MobilityOperation.received (msg : MobilityOperation) : MobilityOperation where
  header := msg.header.received
  strategy := receivedString msg.strategy
  strategyParams := receivedString msg.strategyParams

theorem MobilityOperation.Legal.wellFormed {msg : MobilityOperation} (h : msg.Legal) :
    msg.encodeMobilityOperation.WellFormed where
  header := h.header.wellFormed
  strategy := isIA5String_dynamic (by decide) h.strategy.ascii
  operationParams := isIA5String_dynamic (by decide) h.strategyParams.ascii

/-- An operation arrives but for the strings that look like the placeholder. -/
theorem MobilityOperation.operation_received {W : Type} {asn : Asn1c TestMessage03 W}
    (hasn : asn.Faithful TestMessage03.WellFormed) {msg : MobilityOperation} (h : msg.Legal) :
    ∃ w, msg.encode asn = some w ∧ MobilityOperation.decode asn w = some msg.received := by
  obtain ⟨w, hencode, hdecode⟩ := hasn _ h.wellFormed
  refine ⟨w, hencode, ?_⟩
  unfold MobilityOperation.decode
  rw [hdecode, Option.bind_some]
  unfold decodeMobilityOperation encodeMobilityOperation
  dsimp only
  rw [readHeader_legal h.header, readDynamicLengthString_legal h.strategy,
    readDynamicLengthString_legal h.strategyParams]
  rfl

/-! ## The codecs -/

/-- A string comes back unless it is the placeholder, an id when its length is right, and a
timestamp always; only the empty string and its placeholder are the same bytes. -/
theorem codecs_come_back (maxLength : ℕ) :
    (∀ s, IsLegalString maxLength s →
      readDynamicLengthString (setRegion (List.replicate maxLength 0)
        (setDynamicLengthString s maxLength)) = receivedString s ∧
      (receivedString s = s ↔ s ≠ DYNAMIC_STRING_DEFAULT)) ∧
    (∀ s s', IsLegalString maxLength s → IsLegalString maxLength s' →
      (setDynamicLengthString s maxLength = setDynamicLengthString s' maxLength ↔
        s = s' ∨ MarkerAndEmpty s s' ∨ MarkerAndEmpty s' s)) ∧
    (∀ id defaultString, Ascii id → Ascii defaultString →
      newString (setRegion (List.replicate defaultString.length 0) ((setFixedLengthString id
        defaultString.length defaultString).take defaultString.length)) =
          if id.length = defaultString.length then id else defaultString) ∧
    (∀ time, IsTimestamp time →
      readTimestamp (some ((setTimestamp time).take TIMESTAMP_LENGTH)) = some time) := by
  refine ⟨?_, ?_, ?_, ?_⟩
  · intro s hs
    exact ⟨readDynamicLengthString_legal hs maxLength, receivedString_eq_iff s⟩
  · intro s s' hs hs'
    exact setDynamicLengthString_inj hs hs'
  · intro id defaultString hid hdefault
    exact newString_setFixedLengthString hid hdefault
  · intro time htime
    exact readTimestamp_set htime

theorem a_strategy_an_id_and_a_time_come_back :
    readDynamicLengthString (setRegion (List.replicate 50 0)
        (setDynamicLengthString "Carma/Platooning".toList 50)) = "Carma/Platooning".toList ∧
      ¬ setDynamicLengthString "Carma/Platooning".toList 50 =
        setDynamicLengthString "Carma/Cooperation".toList 50 ∧
      newString (setRegion (List.replicate BSM_ID_DEFAULT.length 0) ((setFixedLengthString
        "10ABCDEF".toList BSM_ID_DEFAULT.length BSM_ID_DEFAULT).take BSM_ID_DEFAULT.length)) =
          "10ABCDEF".toList ∧
      readTimestamp (some ((setTimestamp 1523372528957).take TIMESTAMP_LENGTH)) =
        some 1523372528957 := by
  obtain ⟨hread, hsame, hid, htime⟩ := codecs_come_back 50
  have hplatooning : IsLegalString 50 "Carma/Platooning".toList := ⟨by decide, by decide⟩
  have hcooperation : IsLegalString 50 "Carma/Cooperation".toList := ⟨by decide, by decide⟩
  refine ⟨?_, ?_, ?_, ?_⟩
  · rw [(hread _ hplatooning).1, (hread _ hplatooning).2]
    decide
  · rw [hsame _ _ hplatooning hcooperation]
    rintro (hsame | ⟨hempty, -⟩ | ⟨hempty, -⟩)
    · exact absurd hsame (by decide)
    · exact absurd hempty (by decide)
    · exact absurd hempty (by decide)
  · rw [hid _ BSM_ID_DEFAULT (by decide) (by decide)]
    rfl
  · exact htime _ ⟨by decide, by decide⟩

/-- The strategy "[]" arrives as no strategy and is sent as such, and an id of four characters
arrives as zeros. -/
theorem the_placeholder_arrives_empty :
    IsLegalString 50 DYNAMIC_STRING_DEFAULT ∧
      readDynamicLengthString (setRegion (List.replicate 50 0)
        (setDynamicLengthString DYNAMIC_STRING_DEFAULT 50)) = [] ∧
      setDynamicLengthString DYNAMIC_STRING_DEFAULT 50 = setDynamicLengthString [] 50 ∧
      newString (setFixedLengthString "10AB".toList BSM_ID_DEFAULT.length BSM_ID_DEFAULT) =
        BSM_ID_DEFAULT :=
  ⟨⟨by decide, by decide⟩, by decide, by decide, by decide⟩

end carma.message
