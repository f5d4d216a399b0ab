-- What the radar reads of its commands. The steering wheel angle is masked away, a negative
-- offset fills all bits above it, and two flags share a bit; the other fields stand apart.
import Carma.DelphiESRCommands

open lib.bit_fields

namespace carma.delphi_esr

/-! ## The terms of the words -/

theorem can_mask_eq (n : ℕ) : can_mask n = mask 64 n := by
  simp [can_mask, mask, Nat.one_shiftLeft]

theorem masked_eq (v : BitVec 64) (start width : ℕ) :
    (v &&& can_mask width) <<< start = put ⟨start, width⟩ v := by
  rw [can_mask_eq]
  rfl

theorem one_eq (start : ℕ) : 1#64 <<< start = put ⟨start, 1⟩ (uint64 1) := by
  have hone : uint64 1 &&& mask 64 1 = 1#64 := by decide
  unfold put
  rw [hone]

theorem flag_eq (condition : Bool) {start : ℕ} (hstart : start < 64) :
    flag condition start = put ⟨start, 1⟩ (uint64 (bit condition)) := by
  cases condition with
  | true => exact one_eq start
  | false =>
    apply BitVec.eq_of_getLsbD_eq
    intro k _
    rw [Bool.eq_iff_iff, getLsbD_put _ (by simp only; omega)]
    simp [flag, uint64, bit]

/-- A value whose mask is shifted in its place has only bits that it has no more. -/
theorem mask_shifted_eq {n : ℤ} {start width : ℕ} (hn : Fits false width n) (hstart : width ≤ start) :
    uint64 n &&& (can_mask width <<< start) = 0 := by
  apply BitVec.eq_of_getLsbD_eq
  intro k _
  by_cases hk : k < start
  · simp [hk]
  · have hbit : (uint64 n).getLsbD k = false := getLsbD_ofInt_of_fits hn (by omega)
    simp [hbit]

/-- What a negative offset leaves above its own bits. -/
def spill (n : ℤ) (start : ℕ) : BitVec 64 := if n < 0 then BitVec.allOnes 64 <<< start else 0

theorem getLsbD_spill (n : ℤ) (start k : ℕ) :
    (spill n start).getLsbD k = true ↔ n < 0 ∧ start ≤ k ∧ k < 64 := by
  unfold spill
  split_ifs with hn
  · rw [BitVec.getLsbD_shiftLeft, BitVec.getLsbD_allOnes]
    simp only [Bool.and_eq_true, decide_eq_true_eq, Bool.not_eq_true', decide_eq_false_iff_not,
      hn, true_and]
    omega
  · simp [hn]

theorem unmasked_eq {n : ℤ} (hn : Fits true 8 n) {start : ℕ} (hstart : start + 8 ≤ 64) :
    (BitVec.ofInt 8 n).signExtend 64 <<< start = put ⟨start, 8⟩ (uint64 n) ||| spill n (start + 8) := by
  have hmsb : (BitVec.ofInt 8 n).msb = true ↔ n < 0 := by
    simp only [Fits, if_true] at hn
    rw [BitVec.msb_eq_toInt, BitVec.toInt_ofInt, decide_eq_true_eq,
      Int.bmod_eq_of_le (by norm_num at hn ⊢; omega) (by norm_num at hn ⊢; omega)]
  apply BitVec.eq_of_getLsbD_eq
  intro k hk
  rw [Bool.eq_iff_iff, BitVec.getLsbD_or, Bool.or_eq_true, getLsbD_put _ (by simpa using hstart),
    getLsbD_spill, BitVec.getLsbD_shiftLeft, BitVec.getLsbD_signExtend]
  unfold Place.covers
  by_cases hlow : k < start
  · simp [hlow]
    omega
  · by_cases hown : k - start < 8
    · have hbit : (BitVec.ofInt 8 n).getLsbD (k - start) = (uint64 n).getLsbD (k - start) :=
        getLsbD_ofInt_of_le (by omega) n hown
      have hend : k < start + 8 := by omega
      have hsize : k - start < 64 := by omega
      rw [if_pos hown, hbit]
      simp [hk, hlow, hend, hsize, not_lt.mp hlow, not_le.mpr hend]
    · rw [if_neg hown]
      simp [hk, hlow, hmsb]
      omega

/-! ## The words -/

variable {K : Type} [Field K] [LinearOrder K] [FloorRing K]

/-- What stands in 0x4f0: the fields, and the bit for a valid yaw rate, which is always set. -/
def place0 : Option Field0 → Place
  | none => ⟨can_bit 31, 1⟩
  | some f => f.place

def all0 : List (Option Field0) :=
  [some .speed, some .speed_direction, some .yaw_rate, none, some .radius_curvature,
    some .steering_wheel_angle, some .steering_wheel_sign, some .steering_wheel_angle_rate,
    some .steering_wheel_angle_rate_sign, some .steering_angle_validity]

/-- The steering wheel angle is not put there. -/
def value0 (rx0 : DelphiRX4F0 K) : Option Field0 → BitVec 64
  | none => uint64 1
  | some .steering_wheel_angle => 0
  | some f => uint64 (f.commanded rx0)

theorem value0_eq (rx0 : DelphiRX4F0 K) {f : Field0} (hf : f ≠ .steering_wheel_angle) :
    value0 rx0 (some f) = uint64 (f.commanded rx0) := by
  cases f <;> first | rfl | exact absurd rfl hf

theorem mem_all0 (i : Option Field0) : i ∈ all0 := by
  rcases i with _ | f
  · simp [all0]
  · cases f <;> simp [all0]

theorem place0_le (i : Option Field0) : (place0 i).start + (place0 i).width ≤ 64 := by
  rcases i with _ | f
  · decide
  · cases f <;> decide

theorem place0_apart {i j : Option Field0} (h : j ≠ i) : (place0 i).Apart (place0 j) := by
  have hall : ∀ i ∈ all0, ∀ j ∈ all0, j ≠ i → (place0 i).Apart (place0 j) := by decide
  exact hall i (mem_all0 i) j (mem_all0 j) h

/-- All values fit into their fields. -/
def Fits0 (rx0 : DelphiRX4F0 K) : Prop :=
  ∀ f : Field0, Fits f.signed f.place.width (f.commanded rx0)

theorem rx0Data_eq {rx0 : DelphiRX4F0 K} (h : Fits0 rx0) :
    rx0Data rx0 = assemble place0 (value0 rx0) all0 := by
  have hangle : uint64 rx0.steering_wheel_angle &&& (can_mask 11 <<< can_bit 51) = 0 :=
    mask_shifted_eq (h .steering_wheel_angle) (by decide)
  have hrate : uint64 rx0.steering_wheel_angle_rate &&& (can_mask 11 <<< can_bit 56) =
      put ⟨can_bit 56, 11⟩ (uint64 rx0.steering_wheel_angle_rate) := by
    rw [← masked_eq]
    simp [can_bit]
  have hspeed (n : ℤ) : put ⟨can_bit 13, 11⟩ ((BitVec.ofInt 16 n).setWidth 64) =
      put ⟨can_bit 13, 11⟩ (uint64 n) := put_setWidth (by decide) n (by decide) (by decide)
  have hyaw (n : ℤ) : put ⟨can_bit 16, 12⟩ ((BitVec.ofInt 16 n).signExtend 64) =
      put ⟨can_bit 16, 12⟩ (uint64 n) := put_signExtend (by decide) n (by decide) (by decide)
  have hempty : put (place0 (some .steering_wheel_angle)) (0 : BitVec 64) = 0 := by decide
  unfold rx0Data assemble all0
  rw [hangle, hrate]
  simp only [masked_eq, hspeed, hyaw, one_eq, flag_eq _ (show can_bit 12 < 64 by decide),
    flag_eq _ (show can_bit 46 < 64 by decide), flag_eq _ (show can_bit 30 < 64 by decide),
    flag_eq _ (show can_bit 47 < 64 by decide), List.foldl_cons, List.foldl_nil]
  rw [show value0 rx0 (some .steering_wheel_angle) = 0 from rfl, hempty]
  rfl

/-- The fields of 0x4f1 in the order of the code. -/
def all1 : List Field1 :=
  [.scan_index_ack, .lateral_mounting_offset, .angle_misalignment, .maximum_tracks,
    .radiate_command, .wiper_status, .raw_data_enable, .grouping_mode, .mmr_upside_down,
    .vehicle_speed_validity, .turn_signal_status, .blockage_disable, .use_angle_misalignment,
    .clear_faults, .lr_transmit, .mr_transmit, .high_yaw_angle, .short_track_roc]

def value1 (rx1 : DelphiRX4F1 K) (f : Field1) : BitVec 64 := uint64 (f.commanded rx1)

theorem mem_all1 (f : Field1) : f ∈ all1 := by
  cases f <;> simp [all1]

theorem place1_le (f : Field1) : f.place.start + f.place.width ≤ 64 := by
  cases f <;> decide

/-- The two flags that are put at the same bit. -/
def SharesBit (f : Field1) : Prop := f = .mmr_upside_down ∨ f = .vehicle_speed_validity

instance (f : Field1) : Decidable (SharesBit f) := inferInstanceAs (Decidable (_ ∨ _))

theorem place1_apart {f g : Field1} (hf : ¬ SharesBit f) (h : g ≠ f) : f.place.Apart g.place := by
  have hall : ∀ f ∈ all1, ¬ SharesBit f → ∀ g ∈ all1, g ≠ f → f.place.Apart g.place := by decide
  exact hall f (mem_all1 f) hf g (mem_all1 g) h

def Fits1 (rx1 : DelphiRX4F1 K) : Prop :=
  ∀ f : Field1, Fits f.signed f.place.width (f.commanded rx1)

/-- The offset and the angle of a command, as they are sent. -/
abbrev lateral (rx1 : DelphiRX4F1 K) : ℤ := Field1.commanded rx1 .lateral_mounting_offset

abbrev angle (rx1 : DelphiRX4F1 K) : ℤ := Field1.commanded rx1 .angle_misalignment

/-- The terms of 0x4f1, field by field. -/
def part1 (rx1 : DelphiRX4F1 K) : Field1 → BitVec 64
  | .scan_index_ack => uint64 rx1.scan_index_ack <<< can_bit 8
  | .lateral_mounting_offset => (BitVec.ofInt 8 (lateral rx1)).signExtend 64 <<< can_bit 40
  | .angle_misalignment => (BitVec.ofInt 8 (angle rx1)).signExtend 64 <<< can_bit 32
  | .short_track_roc =>
    ((BitVec.ofInt 8 (rx1.short_track_roc.tdiv 500)).signExtend 64 &&& can_mask 4) <<< can_bit 28
  | .maximum_tracks => (uint64 rx1.maximum_tracks &&& can_mask 6) <<< can_bit 48
  | .grouping_mode => (uint64 rx1.grouping_mode.value &&& can_mask 2) <<< can_bit 58
  | .turn_signal_status => (uint64 rx1.turn_signal_status.value &&& can_mask 2) <<< can_bit 62
  | .high_yaw_angle => (uint64 rx1.high_yaw_angle &&& can_mask 6) <<< can_bit 16
  | .radiate_command => flag (rx1.radiate_command == .Radiate) (can_bit 55)
  | .wiper_status => flag (rx1.wiper_status == .On) (can_bit 57)
  | .raw_data_enable => flag (rx1.raw_data_enable == .Raw) (can_bit 56)
  | .mmr_upside_down => flag rx1.mmr_upside_down (can_bit 60)
  | .vehicle_speed_validity =>
    flag (rx1.vehicle_speed_validity == .AvailableAndValid) (can_bit 60)
  | .blockage_disable => flag rx1.blockage_disable (can_bit 54)
  | .use_angle_misalignment => flag rx1.use_angle_misalignment (can_bit 23)
  | .clear_faults => flag rx1.clear_faults (can_bit 22)
  | .lr_transmit => flag rx1.lr_transmit (can_bit 24)
  | .mr_transmit => flag rx1.mr_transmit (can_bit 25)

theorem rx1Data_eq_foldl (rx1 : DelphiRX4F1 K) :
    rx1Data rx1 = all1.foldl (fun word f => word ||| part1 rx1 f) 0 := rfl

/-- What a term sets beyond its own field. -/
def beyond1 (rx1 : DelphiRX4F1 K) : Field1 → BitVec 64
  | .lateral_mounting_offset => spill (lateral rx1) 24
  | .angle_misalignment => spill (angle rx1) 32
  | _ => 0#64

theorem scan_index_eq (n : ℤ) : uint64 n <<< can_bit 8 = put ⟨can_bit 8, 16⟩ (uint64 n) := by
  apply BitVec.eq_of_getLsbD_eq
  intro k hk
  have hstart : can_bit 8 = 48 := rfl
  rw [Bool.eq_iff_iff, getLsbD_put _ (by decide), BitVec.getLsbD_shiftLeft, hstart]
  unfold Place.covers
  by_cases hlow : k < 48
  · simp [hlow, not_le.mpr hlow]
  · simp [hlow, hk, not_lt.mp hlow]

theorem part1_eq {rx1 : DelphiRX4F1 K} (h : Fits1 rx1) (f : Field1) :
    part1 rx1 f = put f.place (value1 rx1 f) ||| beyond1 rx1 f := by
  cases f with
  | lateral_mounting_offset => exact unmasked_eq (h .lateral_mounting_offset) (by decide)
  | angle_misalignment => exact unmasked_eq (h .angle_misalignment) (by decide)
  | scan_index_ack =>
    simp only [part1, scan_index_eq, beyond1, BitVec.or_zero]
    rfl
  | short_track_roc =>
    simp only [part1, masked_eq, beyond1, BitVec.or_zero]
    exact put_signExtend (by decide) _ (by decide) (by decide)
  | maximum_tracks | grouping_mode | turn_signal_status | high_yaw_angle =>
    simp only [part1, masked_eq, beyond1, BitVec.or_zero]
    rfl
  | radiate_command | wiper_status | raw_data_enable | mmr_upside_down | vehicle_speed_validity
  | blockage_disable | use_angle_misalignment | clear_faults | lr_transmit | mr_transmit =>
    simp only [part1, beyond1, BitVec.or_zero]
    exact flag_eq _ (by decide)

/-- The bits that negative offsets set above themselves. -/
def Spilled (rx1 : DelphiRX4F1 K) (k : ℕ) : Prop :=
  k < 64 ∧ (lateral rx1 < 0 ∧ 24 ≤ k ∨ angle rx1 < 0 ∧ 32 ≤ k)

theorem getLsbD_rx1Data {rx1 : DelphiRX4F1 K} (h : Fits1 rx1) (k : ℕ) :
    (rx1Data rx1).getLsbD k = true ↔
      (assemble Field1.place (value1 rx1) all1).getLsbD k = true ∨ Spilled rx1 k := by
  have hbeyond : (∃ f, (beyond1 rx1 f).getLsbD k = true) ↔ Spilled rx1 k := by
    unfold Spilled
    constructor
    · rintro ⟨f, hf⟩
      cases f with
      | lateral_mounting_offset =>
        obtain ⟨hneg, hstart, hk⟩ := (getLsbD_spill _ _ _).mp hf
        exact ⟨hk, Or.inl ⟨hneg, hstart⟩⟩
      | angle_misalignment =>
        obtain ⟨hneg, hstart, hk⟩ := (getLsbD_spill _ _ _).mp hf
        exact ⟨hk, Or.inr ⟨hneg, hstart⟩⟩
      | _ => simp [beyond1] at hf
    · rintro ⟨hk, ⟨hneg, hstart⟩ | ⟨hneg, hstart⟩⟩
      · exact ⟨.lateral_mounting_offset, (getLsbD_spill _ _ _).mpr ⟨hneg, hstart, hk⟩⟩
      · exact ⟨.angle_misalignment, (getLsbD_spill _ _ _).mpr ⟨hneg, hstart, hk⟩⟩
  have hzero : (0 : BitVec 64).getLsbD k = false := BitVec.getLsbD_zero
  rw [rx1Data_eq_foldl, ← hbeyond]
  unfold assemble
  rw [getLsbD_foldl, getLsbD_foldl]
  simp only [part1_eq h, BitVec.getLsbD_or, Bool.or_eq_true, hzero, Bool.false_eq_true, false_or,
    mem_all1, true_and]
  exact exists_or

/-! ## Reading back -/

def Field0.read (f : Field0) (word : BitVec 64) : ℤ := number f.signed (get f.place word)

def Field1.read (f : Field1) (word : BitVec 64) : ℤ := number f.signed (get f.place word)

theorem read0_iff {f : Field0} {n : ℤ} (hn : Fits f.signed f.place.width n) (word : BitVec 64) :
    f.read word = n ↔
      ∀ j < f.place.width, word.getLsbD (f.place.start + j) = (uint64 n).getLsbD j := by
  apply number_get_iff _ _ hn
  · cases f <;> decide
  · cases f <;> decide

theorem read1_iff {f : Field1} {n : ℤ} (hn : Fits f.signed f.place.width n) (word : BitVec 64) :
    f.read word = n ↔
      ∀ j < f.place.width, word.getLsbD (f.place.start + j) = (uint64 n).getLsbD j := by
  apply number_get_iff _ _ hn
  · cases f <;> decide
  · cases f <;> decide

/-- In 0x4f0 all fields but the steering wheel angle are read back. -/
theorem readsBack0_iff {rx0 : DelphiRX4F0 K} (h : Fits0 rx0) :
    (∀ f : Field0, f.read (rx0Data rx0) = f.commanded rx0) ↔ rx0.steering_wheel_angle = 0 := by
  have hbits (f : Field0) (j : ℕ) (hj : j < f.place.width) :
      (rx0Data rx0).getLsbD (f.place.start + j) = (value0 rx0 (some f)).getLsbD j := by
    rw [rx0Data_eq h]
    exact getLsbD_assemble_of_apart (i := some f) place0_le (value0 rx0) mem_all0
      (fun _ hother => place0_apart hother) hj
  have hangle : Field0.steering_wheel_angle.read (rx0Data rx0) = 0 := by
    have hfits : Fits Field0.steering_wheel_angle.signed
        Field0.steering_wheel_angle.place.width 0 := by
      simp [Fits, Field0.signed]
    rw [read0_iff hfits]
    intro j hj
    rw [hbits _ j hj]
    simp [value0, uint64]
  constructor
  · intro hread
    exact (hread .steering_wheel_angle).symm.trans hangle
  · intro hzero f
    by_cases hf : f = .steering_wheel_angle
    · subst hf
      exact hangle.trans hzero.symm
    · rw [read0_iff (h f)]
      intro j hj
      rw [hbits f j hj, value0_eq rx0 hf]

/-- All bits of a field are set in its value. -/
def AllOnes (rx1 : DelphiRX4F1 K) (f : Field1) : Prop :=
  ∀ j < f.place.width, (uint64 (f.commanded rx1)).getLsbD j = true

/-- A field lies above an offset altogether, or not at all. -/
theorem spilled_field (rx1 : DelphiRX4F1 K) (f : Field1) {j : ℕ} (hj : j < f.place.width) :
    Spilled rx1 (f.place.start + j) ↔ Spilled rx1 f.place.start := by
  unfold Spilled
  have hle := place1_le f
  have h24 : 24 ≤ f.place.start + j ↔ 24 ≤ f.place.start := by
    cases f <;> simp [Field1.place, can_bit] at hj ⊢ <;> omega
  have h32 : 32 ≤ f.place.start + j ↔ 32 ≤ f.place.start := by
    cases f <;> simp [Field1.place, can_bit] at hj ⊢ <;> omega
  have hsize : f.place.start + j < 64 ↔ f.place.start < 64 := by omega
  rw [h24, h32, hsize]

theorem read1_apart_iff {rx1 : DelphiRX4F1 K} (h : Fits1 rx1) {f : Field1} (hf : ¬ SharesBit f) :
    f.read (rx1Data rx1) = f.commanded rx1 ↔ (Spilled rx1 f.place.start → AllOnes rx1 f) := by
  have hbits (j : ℕ) (hj : j < f.place.width) :
      (rx1Data rx1).getLsbD (f.place.start + j) = true ↔
        (uint64 (f.commanded rx1)).getLsbD j = true ∨ Spilled rx1 f.place.start := by
    rw [getLsbD_rx1Data h, spilled_field rx1 f hj,
      getLsbD_assemble_of_apart place1_le (value1 rx1) mem_all1
        (fun _ hother => place1_apart hf hother) hj]
    rfl
  rw [read1_iff (h f)]
  constructor
  · intro hread hspilled j hj
    rw [← hread j hj]
    exact (hbits j hj).mpr (Or.inr hspilled)
  · intro hones j hj
    rw [Bool.eq_iff_iff, hbits j hj]
    constructor
    · rintro (hbit | hspilled)
      · exact hbit
      · exact hones hspilled j hj
    · exact Or.inl

theorem getLsbD_bit (condition : Bool) : (uint64 (bit condition)).getLsbD 0 = condition := by
  cases condition <;> rfl

theorem one_bit_iff (word : BitVec 64) (start : ℕ) (condition : Bool) :
    (∀ j < 1, word.getLsbD (start + j) = (uint64 (bit condition)).getLsbD j) ↔
      word.getLsbD start = condition := by
  constructor
  · intro hall
    rw [← getLsbD_bit condition]
    exact hall 0 one_pos
  · rintro hstart j hj
    obtain rfl : j = 0 := by omega
    rw [getLsbD_bit]
    exact hstart

theorem shared_bit {rx1 : DelphiRX4F1 K} (h : Fits1 rx1) :
    (rx1Data rx1).getLsbD 4 =
      (rx1.mmr_upside_down || (rx1.vehicle_speed_validity == .AvailableAndValid)) := by
  have hnot : ¬ Spilled rx1 4 := by
    rintro ⟨-, ⟨-, hstart⟩ | ⟨-, hstart⟩⟩ <;> omega
  have hcovers : ∀ f ∈ all1, f.place.covers 4 → SharesBit f := by decide
  rw [Bool.eq_iff_iff, getLsbD_rx1Data h, or_iff_left hnot,
    getLsbD_assemble place1_le (value1 rx1) mem_all1, Bool.or_eq_true]
  constructor
  · rintro ⟨f, hf, hbit⟩
    rcases hcovers f (mem_all1 f) hf with rfl | rfl
    · left
      rw [← getLsbD_bit rx1.mmr_upside_down]
      exact hbit
    · right
      rw [← getLsbD_bit (rx1.vehicle_speed_validity == .AvailableAndValid)]
      exact hbit
  · rintro (hflag | hflag)
    · refine ⟨.mmr_upside_down, by decide, ?_⟩
      rw [← getLsbD_bit rx1.mmr_upside_down] at hflag
      exact hflag
    · refine ⟨.vehicle_speed_validity, by decide, ?_⟩
      rw [← getLsbD_bit (rx1.vehicle_speed_validity == .AvailableAndValid)] at hflag
      exact hflag

/-- The two flags of one bit are commanded alike. -/
def FlagsAlike (rx1 : DelphiRX4F1 K) : Prop :=
  rx1.mmr_upside_down = (rx1.vehicle_speed_validity == .AvailableAndValid)

theorem read1_shared_iff {rx1 : DelphiRX4F1 K} (h : Fits1 rx1) :
    (∀ f, SharesBit f → f.read (rx1Data rx1) = f.commanded rx1) ↔ FlagsAlike rx1 := by
  have hbit := shared_bit h
  have hmmr := read1_iff (h .mmr_upside_down) (rx1Data rx1)
  have hspeed := read1_iff (h .vehicle_speed_validity) (rx1Data rx1)
  have hmmr' := hmmr.trans (one_bit_iff _ 4 rx1.mmr_upside_down)
  have hspeed' := hspeed.trans
    (one_bit_iff _ 4 (rx1.vehicle_speed_validity == .AvailableAndValid))
  rw [hbit] at hmmr' hspeed'
  unfold FlagsAlike
  constructor
  · intro hread
    have h1 := hmmr'.mp (hread _ (Or.inl rfl))
    have h2 := hspeed'.mp (hread _ (Or.inr rfl))
    exact h1.symm.trans h2
  · rintro halike f (rfl | rfl)
    · exact hmmr'.mpr (by rw [← halike, Bool.or_self])
    · exact hspeed'.mpr (by rw [halike, Bool.or_self])

theorem readsBack1_iff {rx1 : DelphiRX4F1 K} (h : Fits1 rx1) :
    (∀ f : Field1, f.read (rx1Data rx1) = f.commanded rx1) ↔
      FlagsAlike rx1 ∧ ∀ f : Field1, Spilled rx1 f.place.start → AllOnes rx1 f := by
  rw [← read1_shared_iff h]
  constructor
  · intro hread
    refine ⟨fun f _ => hread f, fun f hspilled => ?_⟩
    by_cases hf : SharesBit f
    · have hstart : ¬ Spilled rx1 f.place.start := by
        rcases hf with rfl | rfl <;> rintro ⟨-, ⟨-, hlow⟩ | ⟨-, hlow⟩⟩ <;>
          simp [Field1.place, can_bit] at hlow
      exact absurd hspilled hstart
    · exact (read1_apart_iff h hf).mp (hread f) hspilled
  · rintro ⟨hshared, hones⟩ f
    by_cases hf : SharesBit f
    · exact hshared f hf
    · exact (read1_apart_iff h hf).mpr (hones f)

end carma.delphi_esr
