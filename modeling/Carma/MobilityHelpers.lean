-- The parts that the mobility messages share on their way to the wire and back: strings,
-- timestamps, headers, locations and offsets, as the helper classes and `wrapper.c` turn
-- them into arrays and C structures. The coder of asn1c is a parameter.
import Carma.Lib.Text
import Carma.PathMessages

open lib.text
open carma.path_messages

namespace carma.message

deriving instance DecidableEq for LocationECEF

deriving instance DecidableEq for LocationOffsetECEF

deriving instance DecidableEq for TrajectoryMsg

abbrev Bytes := List (BitVec 8)

/-- `uper_encode_to_buffer` and `uper_decode` of asn1c, for a structure `M` and what goes over
the air. None where they fail. -/
structure Asn1c (M W : Type) where
  uperEncode : M → Option W
  uperDecode : W → Option M

/-- What the coder is for: a structure that keeps its constraints comes back. -/
def Asn1c.Faithful {M W : Type} (asn : Asn1c M W) (wellFormed : M → Prop) : Prop :=
  ∀ m, wellFormed m → ∃ w, asn.uperEncode m = some w ∧ asn.uperDecode w = some m

/-! ## Strings -/

/-- `(byte) c`. -/
def toByte (c : Char) : BitVec 8 := BitVec.ofNat 8 c.toNat

/-- `(char) b`. -/
def toChar (b : BitVec 8) : Char := Char.ofNat (b.signExtend 16).toNat

def DYNAMIC_STRING_DEFAULT : Text := "[]".toList

def setDynamicLengthString (inputString : Text) (maxLength : ℕ) : Bytes :=
  let tmp := if inputString.length ≤ maxLength ∧ inputString.length ≠ 0 then inputString
    else DYNAMIC_STRING_DEFAULT
  tmp.map toByte

def setFixedLengthString (inputString : Text) (length : ℕ) (defaultString : Text) : Bytes :=
  (if inputString.length = length then inputString else defaultString).map toByte

def TIMESTAMP_LENGTH : ℕ := 19

/-- `setTimestamp`: the digits of a long, with zeros before them. -/
def setTimestamp (time : ℤ) : Bytes :=
  let number := formatInt time
  (List.replicate (TIMESTAMP_LENGTH - number.length) '0' ++ number).map toByte

def readDynamicLengthString (input : Bytes) : Text :=
  let bufferString := (input.takeWhile fun ch => ch ≠ 0).map toChar
  if bufferString = DYNAMIC_STRING_DEFAULT then [] else bufferString

/-- `new String(bytes)`, of ASCII. -/
def newString (bytes : Bytes) : Text := bytes.map toChar

/-- `SetByteArrayRegion` and `SetIntArrayRegion`, from the start of an array. -/
def setRegion {A : Type} (array content : List A) : List A := content ++ array.drop content.length

/-! ## The header -/

/-- `cav_msgs.MobilityHeader`. -/
structure MobilityHeader where
  senderId : Text
  recipientId : Text
  senderBsmId : Text
  planId : Text
  timestamp : ℤ
deriving DecidableEq

/-- The header of the C structure. -/
structure Header where
  hostStaticId : Bytes
  targetStaticId : Bytes
  hostBSMId : Bytes
  planId : Bytes
  timestamp : Bytes
deriving DecidableEq

def STATIC_ID_MAX_LENGTH : ℕ := 16

def BSM_ID_DEFAULT : Text := "00000000".toList

def GUID_DEFAULT : Text := "00000000-0000-0000-0000-000000000000".toList

/-- `new MobilityHeaderHelper(header)`, and the copies that `wrapper.c` makes of its arrays. -/
def MobilityHeaderHelper (header : MobilityHeader) : Header where
  hostStaticId := setDynamicLengthString header.senderId STATIC_ID_MAX_LENGTH
  targetStaticId := setDynamicLengthString header.recipientId STATIC_ID_MAX_LENGTH
  hostBSMId := (setFixedLengthString header.senderBsmId BSM_ID_DEFAULT.length BSM_ID_DEFAULT).take 8
  planId := (setFixedLengthString header.planId GUID_DEFAULT.length GUID_DEFAULT).take 36
  timestamp := (setTimestamp header.timestamp).take 19

/-- A timestamp as the decoder gets it: 19 bytes, zeros where none is written. -/
def readTimestamp (content : Option Bytes) : Option ℤ :=
  let array := List.replicate 19 (toByte '0')
  parseLong (newString (match content with
    | some bytes => setRegion array (bytes.take 19)
    | none => array))

/-- What the decoders make of a header. None where it throws. -/
def readHeader (header : Header) : Option MobilityHeader :=
  (readTimestamp (some header.timestamp)).map fun timestamp =>
    { senderId := readDynamicLengthString (setRegion (List.replicate 16 0) header.hostStaticId)
      recipientId := readDynamicLengthString (setRegion (List.replicate 16 0) header.targetStaticId)
      senderBsmId := newString (setRegion (List.replicate 8 0) (header.hostBSMId.take 8))
      planId := newString (setRegion (List.replicate 36 0) (header.planId.take 36))
      timestamp }

/-! ## Locations -/

/-- `MobilityLocation_t`, and `MobilityECEFLocationHelper`. -/
structure MobilityLocation where
  ecefX : ℤ
  ecefY : ℤ
  ecefZ : ℤ
  timestamp : Bytes
deriving DecidableEq

/-- A coordinate out of its range becomes zero. -/
def withinOrZero (bound x : ℤ) : ℤ := if -bound ≤ x ∧ x ≤ bound then x else 0

def ECEF_XY_MAX : ℤ := 638363700

def ECEF_Z_MAX : ℤ := 636225200

def MobilityECEFLocationHelper (location : LocationECEF) : MobilityLocation where
  ecefX := withinOrZero ECEF_XY_MAX location.ecefX
  ecefY := withinOrZero ECEF_XY_MAX location.ecefY
  ecefZ := withinOrZero ECEF_Z_MAX location.ecefZ
  timestamp := (setTimestamp location.timestamp).take 19

def readLocation (location : MobilityLocation) : Option LocationECEF :=
  (readTimestamp (some location.timestamp)).map fun timestamp =>
    ⟨location.ecefX, location.ecefY, location.ecefZ, timestamp⟩

/-! ## Offsets -/

/-- `MobilityECEFOffset_t`. -/
structure MobilityECEFOffset where
  offsetX : ℤ
  offsetY : ℤ
  offsetZ : ℤ
deriving DecidableEq

/-- `int[3][]`. -/
structure OffsetArrays where
  x : List ℤ
  y : List ℤ
  z : List ℤ
deriving DecidableEq

def XYZ_MAX : ℤ := 500

def OFFSETS_LIST_MAX_LENGTH : ℕ := 60

def setOffsets (offsetList : List LocationOffsetECEF) : OffsetArrays :=
  let offsets := offsetList.take OFFSETS_LIST_MAX_LENGTH
  ⟨offsets.map fun o => withinOrZero XYZ_MAX o.offsetX.toInt,
    offsets.map fun o => withinOrZero XYZ_MAX o.offsetY.toInt,
    offsets.map fun o => withinOrZero XYZ_MAX o.offsetZ.toInt⟩

/-- The points of three arrays, as the loops of `wrapper.c` add them to a list. -/
def OffsetArrays.points (a : OffsetArrays) : List MobilityECEFOffset :=
  List.zipWith3 MobilityECEFOffset.mk a.x a.y a.z

/-- The arrays of the decoders, filled with 501. -/
def unavailable : OffsetArrays :=
  ⟨List.replicate 60 501, List.replicate 60 501, List.replicate 60 501⟩

/-- `temp_offsets`: 60 zeros, with the values at their start. -/
def tempOffsets (values : List ℤ) : List ℤ := setRegion (List.replicate 60 0) values

/-- The first `n` entries of the temporary arrays are copied to the arrays of Java. -/
def copyOffsets (n : ℕ) (list : List MobilityECEFOffset) (a : OffsetArrays) : OffsetArrays :=
  ⟨setRegion a.x ((tempOffsets (list.map (·.offsetX))).take n),
    setRegion a.y ((tempOffsets (list.map (·.offsetY))).take n),
    setRegion a.z ((tempOffsets (list.map (·.offsetZ))).take n)⟩

/-- An offset of Java, narrowed to shorts. -/
def toOffset (p : MobilityECEFOffset) : LocationOffsetECEF :=
  ⟨BitVec.ofInt 16 p.offsetX, BitVec.ofInt 16 p.offsetY, BitVec.ofInt 16 p.offsetZ⟩

/-- `intArrayOffsetsToOffsetList`: up to the first point that is unavailable. -/
def intArrayOffsetsToOffsetList (a : OffsetArrays) : List LocationOffsetECEF :=
  let size := (a.points.findIdx? fun p => p = ⟨501, 501, 501⟩).getD 60
  (a.points.take size).map toOffset

end carma.message
