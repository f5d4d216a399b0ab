-- A cyclic redundancy check, worked out bit by bit, with the parameters that tell such
-- checks apart: the polynomial, the first remainder, what is added to the last one, and
-- whether bytes and remainder are reflected.
import Mathlib.Data.List.Basic
import Mathlib.Logic.Function.Basic

namespace lib.crc

abbrev Byte := BitVec 8

/-- A check with remainders of `w` bits. -/
structure Crc (w : ℕ) where
  polynomial : BitVec w
  initialRemainder : BitVec w
  finalXor : BitVec w
  reflectInput : Bool
  reflectRemainder : Bool

variable {w : ℕ}

/-! ## Bits -/

/-- The remainder moves up by one place, and the polynomial is taken off what falls out. -/
def divide (polynomial rem : BitVec w) : BitVec w :=
  if rem.msb then (rem <<< 1) ^^^ polynomial else rem <<< 1

def processBit (polynomial rem : BitVec w) (bit : Bool) : BitVec w :=
  divide polynomial (if bit then rem ^^^ BitVec.twoPow w (w - 1) else rem)

/-- The bit of a byte that is processed at a place: the lowest one first if it is reflected. -/
def placeOf (reflectInput : Bool) (i : ℕ) : ℕ := if reflectInput then i else 7 - i

def bitsOf (reflectInput : Bool) (byte : Byte) : List Bool :=
  (List.range 8).map fun i => byte.getLsbD (placeOf reflectInput i)

theorem divide_lowest {polynomial : BitVec w} (hw : 0 < w) (hodd : polynomial.getLsbD 0 = true)
    (rem : BitVec w) : (divide polynomial rem).getLsbD 0 = rem.msb := by
  unfold divide
  cases h : rem.msb
  · simp
  · simp [hodd, hw]

/-- With an odd polynomial nothing is lost. -/
theorem divide_injective {polynomial : BitVec w} (hw : 0 < w)
    (hodd : polynomial.getLsbD 0 = true) : Function.Injective (divide polynomial) := by
  intro a b h
  have hmsb : a.msb = b.msb := by
    rw [← divide_lowest hw hodd a, ← divide_lowest hw hodd b, h]
  have hshift : a <<< 1 = b <<< 1 := by
    unfold divide at h
    rw [hmsb] at h
    split at h
    · simpa using congrArg (· ^^^ polynomial) h
    · exact h
  apply BitVec.eq_of_getLsbD_eq
  intro i hi
  by_cases htop : i = w - 1
  · rw [BitVec.msb_eq_getLsbD_last, BitVec.msb_eq_getLsbD_last] at hmsb
    rw [htop, hmsb]
  · have hbit := congrArg (fun x => x.getLsbD (i + 1)) hshift
    rw [BitVec.getLsbD_eq_getElem hi, BitVec.getLsbD_eq_getElem hi]
    simpa [show i + 1 < w by omega] using hbit

theorem processBit_injective {polynomial : BitVec w} (hw : 0 < w)
    (hodd : polynomial.getLsbD 0 = true) (bit : Bool) :
    Function.Injective (processBit polynomial · bit) := by
  intro a b h
  have h := divide_injective hw hodd h
  cases bit with
  | false => exact h
  | true => simpa using congrArg (· ^^^ BitVec.twoPow w (w - 1)) h

theorem processBit_not {polynomial : BitVec w} (hw : 0 < w)
    (hodd : polynomial.getLsbD 0 = true) (rem : BitVec w) (bit : Bool) :
    processBit polynomial rem bit ≠ processBit polynomial rem (!bit) := by
  have hne : rem ^^^ BitVec.twoPow w (w - 1) ≠ rem := by
    intro h
    have htop := congrArg (fun x => x.getLsbD (w - 1)) h
    simp [show w - 1 < w by omega] at htop
  intro h
  have h := divide_injective hw hodd h
  cases bit with
  | false => exact hne h.symm
  | true => exact hne h

theorem processBits_injective {polynomial : BitVec w} (hw : 0 < w)
    (hodd : polynomial.getLsbD 0 = true) (bits : List Bool) :
    Function.Injective fun rem => bits.foldl (processBit polynomial) rem := by
  induction bits with
  | nil => exact fun _ _ h => h
  | cons bit bits ih => exact fun a b h => processBit_injective hw hodd bit (ih h)

/-- Bits that differ in one place leave other remainders. -/
theorem processBits_not {polynomial : BitVec w} (hw : 0 < w)
    (hodd : polynomial.getLsbD 0 = true) (rem : BitVec w) (earlier later : List Bool)
    (bit : Bool) :
    (earlier ++ bit :: later).foldl (processBit polynomial) rem ≠
      (earlier ++ (!bit) :: later).foldl (processBit polynomial) rem := by
  rw [List.foldl_append, List.foldl_append, List.foldl_cons, List.foldl_cons]
  intro h
  exact processBit_not hw hodd _ bit (processBits_injective hw hodd later h)

theorem placeOf_placeOf (reflectInput : Bool) {i : ℕ} (hi : i < 8) :
    placeOf reflectInput (placeOf reflectInput i) = i := by
  cases reflectInput <;> simp [placeOf]
  omega

theorem placeOf_lt (reflectInput : Bool) {i : ℕ} (hi : i < 8) : placeOf reflectInput i < 8 := by
  unfold placeOf
  split <;> omega

theorem getLsbD_flip (byte : Byte) {i j : ℕ} (hj : j < 8) :
    (byte ^^^ BitVec.twoPow 8 i).getLsbD j = if j = i then !byte.getLsbD j else byte.getLsbD j := by
  rw [BitVec.getLsbD_xor, BitVec.getLsbD_twoPow]
  by_cases h : j = i
  · subst h
    simp [hj]
  · simp [h, Ne.symm h]

theorem bitsOf_split (reflectInput : Bool) (byte : Byte) {i : ℕ} (hi : i < 8) :
    ∃ earlier bit later,
      bitsOf reflectInput byte = earlier ++ bit :: later ∧
      bitsOf reflectInput (byte ^^^ BitVec.twoPow 8 i) = earlier ++ (!bit) :: later := by
  have hplace := placeOf_lt reflectInput hi
  set place := placeOf reflectInput i with hdef
  have hsplit : List.range 8 =
      (List.range 8).take place ++ place :: (List.range 8).drop (place + 1) := by
    conv_lhs => rw [← List.take_append_drop place (List.range 8)]
    rw [List.drop_eq_getElem_cons (by simpa using hplace), List.getElem_range]
  have hother : ∀ j ∈ (List.range 8).take place ++ (List.range 8).drop (place + 1),
      (byte ^^^ BitVec.twoPow 8 i).getLsbD (placeOf reflectInput j) =
        byte.getLsbD (placeOf reflectInput j) := by
    intro j hj
    have hne : j ≠ place := by
      rintro rfl
      have hnodup := List.nodup_range (n := 8)
      rw [hsplit] at hnodup
      exact (List.nodup_cons.mp (List.perm_middle.nodup_iff.mp hnodup)).1 hj
    have hj : j < 8 := by
      have hmem : j ∈ List.range 8 := by
        rcases List.mem_append.mp hj with h | h
        · exact List.mem_of_mem_take h
        · exact List.mem_of_mem_drop h
      exact List.mem_range.mp hmem
    rw [getLsbD_flip _ (placeOf_lt _ hj), if_neg]
    intro h
    apply hne
    rw [hdef, ← h, placeOf_placeOf _ hj]
  refine ⟨((List.range 8).take place).map fun j => byte.getLsbD (placeOf reflectInput j),
    byte.getLsbD i,
    ((List.range 8).drop (place + 1)).map fun j => byte.getLsbD (placeOf reflectInput j), ?_, ?_⟩
  · unfold bitsOf
    conv_lhs => rw [hsplit]
    rw [List.map_append, List.map_cons, hdef, placeOf_placeOf _ hi]
  · unfold bitsOf
    conv_lhs => rw [hsplit]
    rw [List.map_append, List.map_cons, List.map_congr_left fun j hj => hother j
        (List.mem_append_left _ hj), List.map_congr_left fun j hj => hother j
        (List.mem_append_right _ hj), hdef, placeOf_placeOf _ hi, getLsbD_flip _ hi, if_pos rfl]

/-! ## Bytes -/

namespace Crc

variable (crc : Crc w)

def processByte (rem : BitVec w) (byte : Byte) : BitVec w :=
  (bitsOf crc.reflectInput byte).foldl (processBit crc.polynomial) rem

def checksum (message : List Byte) : BitVec w :=
  let rem := message.foldl crc.processByte crc.initialRemainder
  (if crc.reflectRemainder then rem.reverse else rem) ^^^ crc.finalXor

/-- A polynomial of at least one bit, with its lowest one set. -/
def IsOdd : Prop := 0 < w ∧ crc.polynomial.getLsbD 0 = true

variable {crc}

theorem processByte_injective (hodd : crc.IsOdd) (byte : Byte) :
    Function.Injective (crc.processByte · byte) :=
  processBits_injective hodd.1 hodd.2 _

theorem processBytes_injective (hodd : crc.IsOdd) (message : List Byte) :
    Function.Injective fun rem => message.foldl crc.processByte rem := by
  induction message with
  | nil => exact fun _ _ h => h
  | cons byte message ih => exact fun a b h => processByte_injective hodd byte (ih h)

theorem processByte_flip (hodd : crc.IsOdd) (rem : BitVec w) (byte : Byte) {i : ℕ} (hi : i < 8) :
    crc.processByte rem byte ≠ crc.processByte rem (byte ^^^ BitVec.twoPow 8 i) := by
  obtain ⟨earlier, bit, later, hbits, hflipped⟩ := bitsOf_split crc.reflectInput byte hi
  unfold processByte
  rw [hbits, hflipped]
  exact processBits_not hodd.1 hodd.2 rem earlier later bit

/-- The checksum tells whether the remainders are the same. -/
theorem finish_injective : Function.Injective fun rem : BitVec w =>
    (if crc.reflectRemainder then rem.reverse else rem) ^^^ crc.finalXor := by
  intro a b h
  have h : (if crc.reflectRemainder then a.reverse else a) =
      if crc.reflectRemainder then b.reverse else b := by
    simpa using congrArg (· ^^^ crc.finalXor) h
  split at h
  · simpa using congrArg BitVec.reverse h
  · exact h

theorem checksum_flip (hodd : crc.IsOdd) (before : List Byte) (byte : Byte) (after : List Byte)
    {i : ℕ} (hi : i < 8) :
    crc.checksum (before ++ byte :: after) ≠
      crc.checksum (before ++ (byte ^^^ BitVec.twoPow 8 i) :: after) := by
  intro h
  have h := finish_injective h
  rw [List.foldl_append, List.foldl_append, List.foldl_cons, List.foldl_cons] at h
  exact processByte_flip hodd _ byte hi (processBytes_injective hodd after h)

end Crc

end lib.crc
