-- What the frames to the truck are worth: whether the receiver's checks let them through,
-- and what the echo of a command says of it.
import Carma.TruckTypes
import Mathlib.Algebra.Order.Field.Rat
import Mathlib.Tactic.IntervalCases
import Mathlib.Tactic.Linarith
import Mathlib.Tactic.NormNum

open lib.crc
open lib.exact_double

namespace carma.truck

variable {K : Type}

/-- A checksum finds every flipped bit. -/
def FindsFlips (crc8 : List Byte → Byte) : Prop :=
  ∀ (before : List Byte) (byte : Byte) (after : List Byte) (i : ℕ), i < 8 →
    crc8 (before ++ byte :: after) ≠ crc8 (before ++ (byte ^^^ BitVec.twoPow 8 i) :: after)

/-- `boost::crc_basic<8> crc8(0xD5, 0xFF, 0, true, true)`. -/
def boostCrc8 : Crc 8 where
  polynomial := 0xD5
  initialRemainder := 0xFF
  finalXor := 0
  reflectInput := true
  reflectRemainder := true

theorem boostCrc8_findsFlips : FindsFlips boostCrc8.checksum := fun before byte after _ hi =>
  Crc.checksum_flip ⟨by decide, by decide⟩ before byte after hi

/-! ## Counters -/

theorem getNextCounter_lt (counter : Byte) : (getNextCounter counter).toNat < 16 := by
  unfold getNextCounter
  split
  · decide
  · rename_i h
    rw [BitVec.toNat_add]
    have hone : (1 : Byte).toNat = 1 := rfl
    omega

theorem next_counter_is_ahead {data : List Byte} {size : ℕ} {counter : Byte}
    (hcounter : counter.toNat < 16) (hcount : msgCount data size = getNextCounter counter) :
    checkMessageCounter data size counter = true := by
  unfold checkMessageCounter
  rw [hcount]
  unfold getNextCounter
  have hone : (1 : Byte).toNat = 1 := rfl
  have hzero : (0 : Byte).toNat = 0 := rfl
  split
  · rename_i h
    rw [hzero, if_pos (by omega), if_neg (by omega), if_pos (by omega)]
  · rename_i h
    have hsum : (counter + 1).toNat = counter.toNat + 1 := by
      rw [BitVec.toNat_add]
      omega
    rw [hsum]
    dsimp only
    split
    · rw [if_pos (by omega)]
    · rw [if_pos (by omega)]

/-! ## The byte of three fields -/

theorem upper_half (a b c : Byte) :
    (((a &&& 0x03) ||| ((b <<< 2) &&& 0x0C) ||| ((c <<< 4) &&& 0xF0)) >>> 4) &&& 0x0F =
      c &&& 0x0F := by
  ext i hi
  interval_cases i <;> simp

theorem middle_bits (a b c : Byte) :
    (((a &&& 0x03) ||| ((b <<< 2) &&& 0x0C) ||| ((c <<< 4) &&& 0xF0)) >>> 2) &&& 0x03 =
      b &&& 0x03 := by
  ext i hi
  interval_cases i <;> simp

/-! ## The checks -/

theorem checkMessageCrc_append (crc8 : List Byte → Byte) (payload : List Byte) (c : Byte) {size : ℕ}
    (hsize : size = payload.length + 1) :
    checkMessageCrc crc8 (payload ++ [c]) size = (crc8 payload == c) := by
  subst hsize
  simp [checkMessageCrc]

section propb_10

variable [Field K] [LinearOrder K] (crc8 : List Byte → Byte) (toInt16 : Dbl K → BitVec 16)

theorem packData_crc (m : PropB_10_Message K) :
    checkMessageCrc crc8 (m.packData toInt16 crc8).1.data propb_10_size = true := by
  show checkMessageCrc crc8 (m.payload toInt16 ++ [_]) _ = true
  rw [checkMessageCrc_append crc8 (m.payload toInt16) _ (show propb_10_size = _ from rfl)]
  simp

theorem packData_msgCount (m : PropB_10_Message K) :
    msgCount (m.packData toInt16 crc8).1.data propb_10_size =
      getNextCounter m.propb_10_cur_count_ := by
  show ((_ ||| _ ||| ((getNextCounter m.propb_10_cur_count_ <<< 4) &&& 0xF0)) >>> 4) &&& 0x0F = _
  rw [upper_half]
  apply BitVec.eq_of_toNat_eq
  rw [BitVec.toNat_and]
  exact Nat.and_two_pow_sub_one_of_lt_two_pow (n := 4) (getNextCounter_lt _)

/-! ## The echo -/

theorem wordAt_bytes (x : BitVec 16) : (lowByte x).toNat + (highByte x).toNat * 2 ^ 8 = x.toNat := by
  have hlow : (lowByte x).toNat = x.toNat % 2 ^ 8 := BitVec.toNat_setWidth _ _
  have hhigh : (highByte x).toNat = x.toNat / 2 ^ 8 := by
    have hbits : highByte x = (x >>> 8).setWidth 8 := by
      apply BitVec.eq_of_getLsbD_eq
      intro i hi
      simp [highByte, BitVec.getLsbD_sshiftRight, hi, show 8 + i < 16 by omega]
      omega
    rw [hbits, BitVec.toNat_setWidth, BitVec.toNat_ushiftRight, Nat.shiftRight_eq_div_pow]
    omega
  rw [hlow, hhigh]
  omega

/-- What a receiver has after the frame of a command. -/
def echoOf (m : PropB_10_Message K) (echo : PropB_12_Message K) : PropB_12_Message K :=
  echo.setData crc8 (m.packData toInt16 crc8).1.data

/-- Two numbers at most a step apart. -/
def Within (step : K) (x y : Dbl K) : Prop := ∃ a b, x = .fin a ∧ y = .fin b ∧ |a - b| ≤ step

/-- The echo gives back what was commanded to one step of each field, in the units of the
command. -/
def EchoAgrees (m : PropB_10_Message K) (e : PropB_12_Message K) : Prop :=
  Within (1 / (40 : ℕ) : K) e.wrench_effort_echo m.wrench_effort ∧
    Within (1 / (32 : ℕ) / ((18 : ℕ) / (5 : ℕ)) : K) e.speed_control_echo m.speed_control ∧
    Within (1 / (32 : ℕ) / ((18 : ℕ) / (5 : ℕ)) : K) e.max_accel_echo m.max_accel ∧
    e.ctrl_type_cmd_mode = m.control_type_command_mode

variable {crc8} {toInt16} {m : PropB_10_Message K} {echo : PropB_12_Message K}

theorem echo_isValid (hcounter : checkMessageCounter (m.packData toInt16 crc8).1.data propb_12_size
    echo.rolling_counter = true) : (echoOf crc8 toInt16 m echo).is_valid = true := by
  show (checkMessageCrc crc8 (m.packData toInt16 crc8).1.data propb_10_size && _) = true
  rw [packData_crc crc8 toInt16 m, hcounter]
  rfl

theorem echo_effort (hcounter : checkMessageCounter (m.packData toInt16 crc8).1.data propb_12_size
    echo.rolling_counter = true) : (echoOf crc8 toInt16 m echo).wrench_effort_echo =
      .fin (((m.wrenchEff toInt16).toNat : K) * (1 / (40 : ℕ)) - (4000 : ℕ)) := by
  have hvalid := echo_isValid hcounter
  unfold echoOf PropB_12_Message.setData at hvalid ⊢
  dsimp only at hvalid ⊢
  rw [hvalid, if_pos rfl, ← wordAt_bytes]
  rfl

theorem echo_mode (hcounter : checkMessageCounter (m.packData toInt16 crc8).1.data propb_12_size
    echo.rolling_counter = true) :
    (echoOf crc8 toInt16 m echo).ctrl_type_cmd_mode = m.control_type_command_mode := by
  have hvalid := echo_isValid hcounter
  unfold echoOf PropB_12_Message.setData at hvalid ⊢
  dsimp only at hvalid ⊢
  rw [hvalid, if_pos rfl]
  show ControlTypeCommandMode.ofValue ((((m.reserved_propb_10 &&& 0x03) |||
    ((m.control_type_command_mode.value <<< 2) &&& 0x0C) |||
    ((getNextCounter m.propb_10_cur_count_ <<< 4) &&& 0xF0)) >>> 2) &&& 0x03) = _
  rw [middle_bits]
  cases m.control_type_command_mode <;> rfl

/-- The offset is taken off after the scaling, so an echo is never above -2361. -/
theorem echo_effort_low [IsStrictOrderedRing K]
    (hcounter : checkMessageCounter (m.packData toInt16 crc8).1.data propb_12_size
      echo.rolling_counter = true) {x : K}
    (hx : (echoOf crc8 toInt16 m echo).wrench_effort_echo = .fin x) : x < -2361 := by
  rw [echo_effort hcounter] at hx
  have hx := (Dbl.fin.inj hx).symm
  have hword : ((m.wrenchEff toInt16).toNat : K) < 2 ^ 16 := by
    exact_mod_cast (m.wrenchEff toInt16).isLt
  push_cast at hx
  linarith

/-- No command is echoed with its wrench effort. -/
theorem no_echo_agrees_with_its_command [IsStrictOrderedRing K] (crc8 : List Byte → Byte)
    (toInt16 : Dbl K → BitVec 16) (m : PropB_10_Message K) (echo : PropB_12_Message K) (w : K)
    (heffort : m.wrench_effort = .fin w) (hrange : -100 ≤ w ∧ w ≤ 100)
    (hcounter : checkMessageCounter (m.packData toInt16 crc8).1.data propb_12_size
      echo.rolling_counter = true) :
    ¬ EchoAgrees m (echoOf crc8 toInt16 m echo) := by
  rintro ⟨⟨x, w', hx, hw', hclose⟩, -⟩
  rw [heffort] at hw'
  obtain rfl := Dbl.fin.inj hw'
  have hlow := echo_effort_low hcounter hx
  have hstep : (1 : K) / (40 : ℕ) ≤ 1 := by
    rw [Nat.cast_ofNat, div_le_one (by norm_num)]
    norm_num
  have hnear := (abs_le.mp hclose).1
  linarith [hrange.1]

end propb_10

/-- The cast of a double that is in range: towards zero. -/
def truncate : Dbl ℚ → BitVec 16
  | .fin x => .ofInt 16 (if 0 ≤ x then x.floor else x.ceil)
  | _ => 0

/-- A receiver that has seen nothing yet. -/
def newPropB_12_Message : PropB_12_Message ℚ where
  wrench_effort_echo := .fin 0
  speed_control_echo := .fin 0
  max_accel_echo := .fin 0
  reserved_propb_12 := 0xFF
  ctrl_type_cmd_mode := .Disable_ACC_System
  rolling_counter := 0
  check_value := 0xFF
  is_valid := false

/-- A quarter of the effort, 20 meters a second and at most 2 more in each second. -/
def aCommand : PropB_10_Message ℚ :=
  { newPropB_10_Message (K := ℚ) with
    wrench_effort := .fin 25
    speed_control := .fin 20
    max_accel := .fin 2
    control_type_command_mode := .Robotic_Speed_Ctrl }

theorem the_first_command_agrees_not :
    ¬ EchoAgrees aCommand (echoOf boostCrc8.checksum truncate aCommand newPropB_12_Message) :=
  no_echo_agrees_with_its_command boostCrc8.checksum truncate aCommand
    newPropB_12_Message 25 rfl (by norm_num) (by decide +kernel)

/-- No effort is commanded, and -3900% is echoed. -/
theorem no_effort_is_echoed_as_minus_3900 :
    checkMessageCounter ((newPropB_10_Message (K := ℚ)).packData truncate boostCrc8.checksum).1.data
        propb_12_size newPropB_12_Message.rolling_counter = true ∧
      (echoOf boostCrc8.checksum truncate newPropB_10_Message
        newPropB_12_Message).wrench_effort_echo = .fin (-3900) ∧
      ¬ EchoAgrees newPropB_10_Message
        (echoOf boostCrc8.checksum truncate newPropB_10_Message newPropB_12_Message) := by
  have hcounter : checkMessageCounter
      ((newPropB_10_Message (K := ℚ)).packData truncate boostCrc8.checksum).1.data
      propb_12_size newPropB_12_Message.rolling_counter = true := by decide +kernel
  have heffort : (echoOf boostCrc8.checksum truncate newPropB_10_Message
      newPropB_12_Message).wrench_effort_echo = .fin (-3900) := by decide +kernel
  refine ⟨hcounter, heffort, ?_⟩
  rintro ⟨⟨x, w, hx, hw, hclose⟩, -⟩
  rw [heffort] at hx
  obtain rfl := Dbl.fin.inj hx
  obtain rfl : (0 : ℚ) = w := Dbl.fin.inj hw
  norm_num at hclose

/-! ## The frames of a run -/

/-- A frame passes both checks of its receiver, after a frame with counter `prev`. Its
checksum is that of all its bytes but the last. -/
def Passes (crc8 : List Byte → Byte) (prev : Byte) (f : CANFrameStamped) : Prop :=
  checkMessageCrc crc8 f.data f.dlc = true ∧ checkMessageCounter f.data f.dlc prev = true ∧
    f.data.getD (f.dlc - 1) 0 = crc8 (f.data.take (f.dlc - 1))

/-- Every frame passes after the one before it. -/
def AllPass (crc8 : List Byte → Byte) : Byte → List CANFrameStamped → Prop
  | _, [] => True
  | prev, f :: fs => Passes crc8 prev f ∧ AllPass crc8 (msgCount f.data f.dlc) fs

/-- The frames of one message. -/
def ofMessage (id : BitVec 32) (fs : List CANFrameStamped) : List CANFrameStamped :=
  fs.filter fun f => f.id = id

/-- Both messages' frames pass the checks, whatever is in memory after their arrays. The
counters of both start at zero. -/
def FramesPass [Field K] [LinearOrder K] (crc8 : List Byte → Byte) (toInt16 : Dbl K → BitVec 16)
    (calls : List (Call K)) : Prop :=
  ∀ beyond : ℕ → Fin 4 → Byte,
    let fs := frames crc8 toInt16 ⟨newPropB_10_Message, newPropB_26_Message⟩ calls beyond
    AllPass crc8 0 (ofMessage 0x0CFF1027 fs) ∧ AllPass crc8 0 (ofMessage 0x0CFF265A fs)

theorem allPass_mem {crc8 : List Byte → Byte} {prev : Byte} {fs : List CANFrameStamped}
    (h : AllPass crc8 prev fs) {f : CANFrameStamped} (hf : f ∈ fs) :
    f.data.getD (f.dlc - 1) 0 = crc8 (f.data.take (f.dlc - 1)) := by
  induction fs generalizing prev with
  | nil => cases hf
  | cons g fs ih =>
    rcases List.mem_cons.mp hf with rfl | hf
    · exact h.1.2.2
    · exact ih h.2 hf

section runs

variable [Field K] [LinearOrder K] {crc8 : List Byte → Byte} {toInt16 : Dbl K → BitVec 16}

theorem packData_passes (m : PropB_10_Message K) (hcount : m.propb_10_cur_count_.toNat < 16) :
    Passes crc8 m.propb_10_cur_count_ (m.packData toInt16 crc8).1 := by
  have hcrc := packData_crc crc8 toInt16 m
  refine ⟨hcrc, next_counter_is_ahead hcount (packData_msgCount crc8 toInt16 m), ?_⟩
  exact (beq_iff_eq.mp hcrc).symm

theorem frames_propB_10 (s : TruckSend K) (call : PropB_10_Call K) (calls : List (Call K))
    (beyond : ℕ → Fin 4 → Byte) :
    frames crc8 toInt16 s (.propB_10 call :: calls) beyond =
      (s.propB_10_message.call crc8 toInt16 call).1.toList ++
        frames crc8 toInt16
          { s with propB_10_message := (s.propB_10_message.call crc8 toInt16 call).2 } calls
          fun n => beyond (n + 1) := rfl

theorem frames_propB_26 (s : TruckSend K) (call : PropB_26_Call) (calls : List (Call K))
    (beyond : ℕ → Fin 4 → Byte) :
    frames crc8 toInt16 s (.propB_26 call :: calls) beyond =
      (s.propB_26_message.call crc8 (beyond 0) call).1.toList ++
        frames crc8 toInt16
          { s with propB_26_message := (s.propB_26_message.call crc8 (beyond 0) call).2 } calls
          fun n => beyond (n + 1) := rfl

theorem ofMessage_append (id : BitVec 32) (fs gs : List CANFrameStamped) :
    ofMessage id (fs ++ gs) = ofMessage id fs ++ ofMessage id gs := List.filter_append _ _

theorem propB_26_other (m : PropB_26_Message) (beyond : Fin 4 → Byte) (call : PropB_26_Call) :
    ofMessage 0x0CFF1027 (m.call crc8 beyond call).1.toList = [] := by
  cases call <;> rfl

theorem propB_10_other (m : PropB_10_Message K) (call : PropB_10_Call K) :
    ofMessage 0x0CFF265A (m.call crc8 toInt16 call).1.toList = [] := by
  cases call <;> rfl

theorem propB_26_frame {m : PropB_26_Message} {beyond : Fin 4 → Byte} {call : PropB_26_Call}
    (h : call ≠ .packData) : (m.call crc8 beyond call).1 = none := by
  cases call <;> first | rfl | exact absurd rfl h

/-- One call leaves a counter that the frame before it has. -/
theorem propB_10_passes (m : PropB_10_Message K) (hcount : m.propb_10_cur_count_.toNat < 16)
    (call : PropB_10_Call K) {fs : List CANFrameStamped}
    (hrest : AllPass crc8 (m.call crc8 toInt16 call).2.propb_10_cur_count_ fs) :
    AllPass crc8 m.propb_10_cur_count_
      (ofMessage 0x0CFF1027 (m.call crc8 toInt16 call).1.toList ++ fs) := by
  cases call with
  | packData =>
    refine ⟨packData_passes m hcount, ?_⟩
    have hnext := packData_msgCount crc8 toInt16 m
    show AllPass crc8 (msgCount (m.packData toInt16 crc8).1.data propb_10_size) fs
    rw [hnext]
    exact hrest
  | _ => exact hrest

theorem propB_10_count (m : PropB_10_Message K) (hcount : m.propb_10_cur_count_.toNat < 16)
    (call : PropB_10_Call K) :
    (m.call crc8 toInt16 call).2.propb_10_cur_count_.toNat < 16 := by
  cases call with
  | packData => exact getNextCounter_lt _
  | _ => exact hcount

theorem propB_10_frames_pass (s : TruckSend K) (calls : List (Call K)) (beyond : ℕ → Fin 4 → Byte)
    (hcount : s.propB_10_message.propb_10_cur_count_.toNat < 16) :
    AllPass crc8 s.propB_10_message.propb_10_cur_count_
      (ofMessage 0x0CFF1027 (frames crc8 toInt16 s calls beyond)) := by
  induction calls generalizing s beyond with
  | nil => trivial
  | cons call calls ih =>
    cases call with
    | propB_10 call =>
      rw [frames_propB_10, ofMessage_append]
      apply propB_10_passes _ hcount
      exact ih { s with propB_10_message := _ } _ (propB_10_count _ hcount call)
    | propB_26 call =>
      rw [frames_propB_26, ofMessage_append, propB_26_other, List.nil_append]
      exact ih { s with propB_26_message := (s.propB_26_message.call crc8 (beyond 0) call).2 } _
        hcount

theorem no_propB_26_frames (s : TruckSend K) (calls : List (Call K)) (beyond : ℕ → Fin 4 → Byte)
    (hnone : .propB_26 .packData ∉ calls) :
    ofMessage 0x0CFF265A (frames crc8 toInt16 s calls beyond) = [] := by
  induction calls generalizing s beyond with
  | nil => rfl
  | cons call calls ih =>
    obtain ⟨hcall, hlater⟩ := not_or.mp (mt List.mem_cons.mpr hnone)
    cases call with
    | propB_10 call =>
      rw [frames_propB_10, ofMessage_append, propB_10_other, List.nil_append]
      exact ih _ _ hlater
    | propB_26 call =>
      have hframe : call ≠ .packData := fun h => hcall (by rw [h])
      rw [frames_propB_26, propB_26_frame hframe]
      exact ih _ _ hlater

theorem propB_26_next (m : PropB_26_Message) (beyond beyond' : Fin 4 → Byte) (call : PropB_26_Call) :
    (m.call crc8 beyond call).2 = (m.call crc8 beyond' call).2 := by
  cases call <;> rfl

variable (crc8 toInt16) in
/-- A frame of the other message is made somewhere in the run: its payload does not depend on
what is in memory after the array, its checksum is made of that too. -/
theorem propB_26_frame_of_mem (s : TruckSend K) {calls : List (Call K)}
    (hcall : .propB_26 .packData ∈ calls) :
    ∃ d₀ d₁ : Byte, ∀ beyond : Fin 4 → Byte,
      ∃ f ∈ ofMessage 0x0CFF265A (frames crc8 toInt16 s calls fun _ => beyond),
        f.dlc = 3 ∧ f.data = [d₀, d₁, crc8 (d₀ :: d₁ :: 0 :: List.ofFn beyond)] := by
  induction calls generalizing s with
  | nil => cases hcall
  | cons call calls ih =>
    by_cases hpack : call = .propB_26 .packData
    · subst hpack
      refine ⟨_, _, fun beyond => ⟨(s.propB_26_message.packData crc8 beyond).1, ?_, rfl, rfl⟩⟩
      rw [frames_propB_26, ofMessage_append]
      exact List.mem_append_left _ (List.mem_filter.mpr ⟨List.mem_cons_self, rfl⟩)
    · have hlater : .propB_26 .packData ∈ calls :=
        (List.mem_cons.mp hcall).resolve_left fun h => hpack h.symm
      cases call with
      | propB_10 call =>
        obtain ⟨d₀, d₁, h⟩ := ih
          { s with propB_10_message := (s.propB_10_message.call crc8 toInt16 call).2 } hlater
        refine ⟨d₀, d₁, fun beyond => ?_⟩
        obtain ⟨f, hf, hdata⟩ := h beyond
        refine ⟨f, ?_, hdata⟩
        rw [frames_propB_10, ofMessage_append]
        exact List.mem_append_right _ hf
      | propB_26 call =>
        obtain ⟨d₀, d₁, h⟩ := ih
          { s with propB_26_message := (s.propB_26_message.call crc8 (fun _ => 0) call).2 } hlater
        refine ⟨d₀, d₁, fun beyond => ?_⟩
        obtain ⟨f, hf, hdata⟩ := h beyond
        refine ⟨f, ?_, hdata⟩
        rw [frames_propB_26, ofMessage_append, propB_26_next _ beyond fun _ => 0]
        exact List.mem_append_right _ hf

end runs

/-- The frames of a run pass their checks exactly if no engine brake command is packed. -/
theorem frames_pass_unless_an_engine_brake_command_is_packed [Field K] [LinearOrder K]
    (crc8 : List Byte → Byte) (hcrc : FindsFlips crc8) (toInt16 : Dbl K → BitVec 16)
    (calls : List (Call K)) :
    FramesPass crc8 toInt16 calls ↔ .propB_26 .packData ∉ calls := by
  constructor
  · intro h hcall
    obtain ⟨d₀, d₁, hframe⟩ := propB_26_frame_of_mem crc8 toInt16
      ⟨newPropB_10_Message, newPropB_26_Message⟩ hcall
    have hpayload : ∀ beyond : Fin 4 → Byte,
        crc8 (d₀ :: d₁ :: 0 :: List.ofFn beyond) = crc8 [d₀, d₁] := by
      intro beyond
      obtain ⟨f, hf, hdlc, hdata⟩ := hframe beyond
      have hpass := allPass_mem (h fun _ => beyond).2 hf
      rw [hdlc, hdata] at hpass
      exact hpass
    -- what is in memory may differ in one bit
    have hzero := hpayload fun _ => 0
    have hone := hpayload fun i => if i = 3 then 1 else 0
    exact hcrc [d₀, d₁, 0, 0, 0, 0] 0 [] 0 (by decide) (hzero.trans hone.symm)
  · intro hnone beyond
    refine ⟨propB_10_frames_pass ⟨newPropB_10_Message, newPropB_26_Message⟩ calls beyond
      (show (0 : Byte).toNat < 16 by decide), ?_⟩
    rw [no_propB_26_frames _ calls beyond hnone]
    trivial

theorem two_commands_pass :
    FramesPass (K := ℚ) boostCrc8.checksum truncate
      [.propB_10 .packData, .propB_26 (.setCheckValue 7), .propB_10 .packData] := by
  apply (frames_pass_unless_an_engine_brake_command_is_packed boostCrc8.checksum
    boostCrc8_findsFlips truncate _).mpr
  simp

/-- The first engine brake command fails, with zeros in memory after its array. -/
theorem an_engine_brake_command_fails :
    checkMessageCrc boostCrc8.checksum
        (newPropB_26_Message.packData boostCrc8.checksum fun _ => 0).1.data propb_26_size = false ∧
      ¬ FramesPass (K := ℚ) boostCrc8.checksum truncate [.propB_26 .packData] := by
  have hcrc : checkMessageCrc boostCrc8.checksum
      (newPropB_26_Message.packData boostCrc8.checksum fun _ => 0).1.data propb_26_size = false := by
    decide +kernel
  refine ⟨hcrc, fun h => ?_⟩
  have hpass : checkMessageCrc boostCrc8.checksum
      (newPropB_26_Message.packData boostCrc8.checksum fun _ => 0).1.data propb_26_size = true :=
    (h fun _ _ => 0).2.1.1
  rw [hcrc] at hpass
  cases hpass

end carma.truck
