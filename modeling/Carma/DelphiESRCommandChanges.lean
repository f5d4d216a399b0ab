-- What a change of one commanded value does to the frames. Only its own bits change, unless
-- an offset changes its sign, which stands in all bits above it.
import Carma.DelphiESRCommandLaws

open lib.bit_fields

namespace carma.delphi_esr

variable {K : Type} [Field K] [LinearOrder K] [FloorRing K]

/-! ## Changes -/

/-- Two commands have the same values but for one. -/
def DifferOnly (f : Field0 ⊕ Field1) (rx0 rx0' : DelphiRX4F0 K) (rx1 rx1' : DelphiRX4F1 K) : Prop :=
  (∀ g : Field0, f ≠ .inl g → g.commanded rx0' = g.commanded rx0) ∧
    ∀ g : Field1, f ≠ .inr g → g.commanded rx1' = g.commanded rx1

/-- Two commands are sent in the same bits outside of a field. -/
def ChangesOnly (f : Field0 ⊕ Field1) (frames frames' : CommandFrame × CommandFrame) : Prop :=
  (∀ k, (∀ g, f = .inl g → ¬ g.place.covers k) →
      frames'.1.data.getLsbD k = frames.1.data.getLsbD k) ∧
    ∀ k, (∀ g, f = .inr g → ¬ g.place.covers k) →
      frames'.2.data.getLsbD k = frames.2.data.getLsbD k

/-- The sign of an offset stays, or all bits above it are set by the other offset anyway. -/
def SignKept (f : Field0 ⊕ Field1) (rx1 rx1' : DelphiRX4F1 K) : Prop :=
  (f = .inr .lateral_mounting_offset →
      angle rx1 = -1 ∨ (lateral rx1' < 0 ↔ lateral rx1 < 0)) ∧
    (f = .inr .angle_misalignment →
      lateral rx1 < 0 ∨ (angle rx1' < 0 ↔ angle rx1 < 0))

/-! ## 0x4f0 -/

theorem rx0_changesOnly {rx0 rx0' : DelphiRX4F0 K} (h : Fits0 rx0) (h' : Fits0 rx0')
    {f : Field0 ⊕ Field1} (hsame : ∀ g : Field0, f ≠ .inl g → g.commanded rx0' = g.commanded rx0)
    {k : ℕ} (hk : ∀ g, f = .inl g → ¬ g.place.covers k) :
    (rx0Data rx0').getLsbD k = (rx0Data rx0).getLsbD k := by
  have hvalue (g : Field0) (hg : f ≠ .inl g) : value0 rx0' (some g) = value0 rx0 (some g) := by
    by_cases hangle : g = .steering_wheel_angle
    · subst hangle
      rfl
    · rw [value0_eq rx0' hangle, value0_eq rx0 hangle, hsame g hg]
  rw [rx0Data_eq h, rx0Data_eq h']
  rcases f with f | f
  · apply getLsbD_assemble_of_same (i := some f) place0_le _ mem_all0
    · rintro (_ | g) hg
      · rfl
      · apply hvalue g
        rintro ⟨⟩
        exact hg rfl
    · exact hk f rfl
  · have hall : value0 rx0' = value0 rx0 := by
      funext i
      rcases i with _ | g
      · rfl
      · exact hvalue g (by simp)
    rw [hall]

/-! ## 0x4f1 -/

/-- Outside of a field that is changed, a bit is changed when the spilled signs are, and no
field has set it anyway. -/
theorem rx1_bit_iff {rx1 rx1' : DelphiRX4F1 K} (h : Fits1 rx1) (h' : Fits1 rx1')
    {f : Field0 ⊕ Field1} (hsame : ∀ g : Field1, f ≠ .inr g → g.commanded rx1' = g.commanded rx1)
    {k : ℕ} (hk : ∀ g, f = .inr g → ¬ g.place.covers k) :
    (rx1Data rx1').getLsbD k = (rx1Data rx1).getLsbD k ↔
      (assemble Field1.place (value1 rx1) all1).getLsbD k = true ∨
        (Spilled rx1' k ↔ Spilled rx1 k) := by
  have hfields : (assemble Field1.place (value1 rx1') all1).getLsbD k =
      (assemble Field1.place (value1 rx1) all1).getLsbD k := by
    rcases f with f | f
    · have hall : value1 rx1' = value1 rx1 := by
        funext g
        exact congrArg uint64 (hsame g (by simp))
      rw [hall]
    · apply getLsbD_assemble_of_same place1_le _ mem_all1
      · intro g hg
        exact congrArg uint64 (hsame g (by simpa using Ne.symm hg))
      · exact hk f rfl
  rw [Bool.eq_iff_iff, getLsbD_rx1Data h, getLsbD_rx1Data h', hfields]
  by_cases hset : (assemble Field1.place (value1 rx1) all1).getLsbD k = true
  · simp [hset]
  · simp [hset]

theorem angle_allOnes_iff {rx1 : DelphiRX4F1 K} (h : Fits1 rx1) :
    AllOnes rx1 .angle_misalignment ↔ angle rx1 = -1 := by
  have hread := number_eq_iff (by decide) (h .angle_misalignment)
    (BitVec.ofInt Field1.angle_misalignment.place.width (-1))
  have hones : number Field1.angle_misalignment.signed
      (BitVec.ofInt Field1.angle_misalignment.place.width (-1)) = -1 := by decide
  have hbit (j : ℕ) (hj : j < Field1.angle_misalignment.place.width) :
      (BitVec.ofInt Field1.angle_misalignment.place.width (-1)).getLsbD j = true := by
    revert j
    decide
  rw [hones] at hread
  rw [eq_comm, hread]
  constructor
  · intro hall
    apply BitVec.eq_of_getLsbD_eq
    intro j hj
    rw [hbit j hj, getLsbD_ofInt_of_le (n := 64) (by decide) _ hj]
    exact (hall j hj).symm
  · intro heq j hj
    have := hbit j hj
    rw [heq, getLsbD_ofInt_of_le (n := 64) (by decide) _ hj] at this
    exact this

theorem angle_bit (rx1 : DelphiRX4F1 K) {j : ℕ} (hj : j < 8) :
    (assemble Field1.place (value1 rx1) all1).getLsbD (24 + j) =
      (uint64 (angle rx1)).getLsbD j :=
  getLsbD_assemble_of_apart (i := .angle_misalignment) place1_le (value1 rx1) mem_all1
    (fun _ hother => place1_apart (by decide) hother) hj

theorem free_bit (rx1 : DelphiRX4F1 K) :
    ¬ (assemble Field1.place (value1 rx1) all1).getLsbD 34 = true := by
  have hfree : ∀ f ∈ all1, ¬ f.place.covers 34 := by decide
  rw [getLsbD_assemble place1_le (value1 rx1) mem_all1]
  rintro ⟨f, hcovers, -⟩
  exact hfree f (mem_all1 f) hcovers

theorem signKept_of_changesOnly {rx1 rx1' : DelphiRX4F1 K} (h : Fits1 rx1) (h' : Fits1 rx1')
    {f : Field0 ⊕ Field1} (hsame : ∀ g : Field1, f ≠ .inr g → g.commanded rx1' = g.commanded rx1)
    (hbits : ∀ k, (∀ g, f = .inr g → ¬ g.place.covers k) →
      (rx1Data rx1').getLsbD k = (rx1Data rx1).getLsbD k) : SignKept f rx1 rx1' := by
  have hspilled {k : ℕ} (hk : ∀ g, f = .inr g → ¬ g.place.covers k)
      (hnot : ¬ (assemble Field1.place (value1 rx1) all1).getLsbD k = true) :
      Spilled rx1' k ↔ Spilled rx1 k :=
    ((rx1_bit_iff h h' hsame hk).mp (hbits k hk)).resolve_left hnot
  constructor
  · -- Among the bits of the angle one is clear, where only the offset is seen.
    rintro rfl
    by_cases hangle : angle rx1 = -1
    · exact Or.inl hangle
    · right
      rw [← angle_allOnes_iff h] at hangle
      unfold AllOnes at hangle
      push Not at hangle
      obtain ⟨j, hj, hclear⟩ := hangle
      have hj8 : j < 8 := hj
      have hsign := hspilled (k := 24 + j) (by
        rintro _ ⟨⟩ ⟨-, hend⟩
        simp [Field1.place, can_bit] at hend) (by
        rw [angle_bit rx1 hj8]
        exact hclear)
      unfold Spilled at hsign
      omega
  · -- The free bit is above both offsets.
    rintro rfl
    by_cases hlateral : lateral rx1 < 0
    · exact Or.inl hlateral
    · right
      have hlateral' : lateral rx1' = lateral rx1 := hsame .lateral_mounting_offset (by simp)
      have hsign := hspilled (k := 34) (by
        rintro _ ⟨⟩ ⟨-, hend⟩
        simp [Field1.place, can_bit] at hend) (free_bit rx1)
      unfold Spilled at hsign
      omega

theorem changesOnly_of_signKept {rx1 rx1' : DelphiRX4F1 K} (h : Fits1 rx1) (h' : Fits1 rx1')
    {f : Field0 ⊕ Field1} (hsame : ∀ g : Field1, f ≠ .inr g → g.commanded rx1' = g.commanded rx1)
    (hkept : SignKept f rx1 rx1') {k : ℕ} (hk : ∀ g, f = .inr g → ¬ g.place.covers k) :
    (rx1Data rx1').getLsbD k = (rx1Data rx1).getLsbD k := by
  have hlateral := hsame .lateral_mounting_offset
  have hangle := hsame .angle_misalignment
  rw [rx1_bit_iff h h' hsame hk]
  by_cases hf : f = .inr .lateral_mounting_offset
  · have hangle' : angle rx1' = angle rx1 := hangle (by simp [hf])
    rcases hkept.1 hf with hone | hsign
    · by_cases hown : 24 ≤ k ∧ k < 32
      · left
        obtain ⟨j, rfl⟩ := Nat.exists_eq_add_of_le hown.1
        rw [angle_bit rx1 (by omega)]
        exact (angle_allOnes_iff h).mpr hone j (by simp [Field1.place]; omega)
      · right
        unfold Spilled
        omega
    · right
      unfold Spilled
      omega
  · have hlateral' : lateral rx1' = lateral rx1 := hlateral hf
    right
    unfold Spilled
    by_cases hg : f = .inr .angle_misalignment
    · rcases hkept.2 hg with hneg | hsign
      · omega
      · omega
    · have hangle' : angle rx1' = angle rx1 := hangle hg
      omega

/-! ## The frames -/

/-- The commands that are sent as they are commanded, one field being changed: the steering
wheel angle is zero, the flags of one bit are alike, what lies above a negative offset is all
ones, and no sign is switched. -/
theorem sendCommands_places_iff {rx0 rx0' : DelphiRX4F0 K} {rx1 rx1' : DelphiRX4F1 K}
    (h0 : Fits0 rx0) (h0' : Fits0 rx0') (h1 : Fits1 rx1) (h1' : Fits1 rx1')
    {f : Field0 ⊕ Field1} (hdiffer : DifferOnly f rx0 rx0' rx1 rx1') :
    ((∀ g : Field0, g.read (sendCommands rx0 rx1).1.data = g.commanded rx0) ∧
        (∀ g : Field1, g.read (sendCommands rx0 rx1).2.data = g.commanded rx1) ∧
        ChangesOnly f (sendCommands rx0 rx1) (sendCommands rx0' rx1')) ↔
      rx0.steering_wheel_angle = 0 ∧
        (FlagsAlike rx1 ∧ ∀ g : Field1, Spilled rx1 g.place.start → AllOnes rx1 g) ∧
        SignKept f rx1 rx1' := by
  have hchanges : ChangesOnly f (sendCommands rx0 rx1) (sendCommands rx0' rx1') ↔
      SignKept f rx1 rx1' := by
    constructor
    · intro hchanges
      exact signKept_of_changesOnly h1 h1' hdiffer.2 hchanges.2
    · intro hkept
      constructor
      · intro k hk
        exact rx0_changesOnly h0 h0' hdiffer.1 hk
      · intro k hk
        exact changesOnly_of_signKept h1 h1' hdiffer.2 hkept hk
  rw [hchanges, ← readsBack0_iff h0, ← readsBack1_iff h1]
  rfl

/-- Driving at 20 m/s, with the wheel turned by one unit. -/
def turned : DelphiRX4F0 ℚ where
  speed := 20
  speed_direction := .Forward
  yaw_rate := -1
  radius_curvature := -100
  steering_wheel_angle := 1
  steering_wheel_sign := .Clockwise
  steering_angle_validity := .AvailableAndValid
  steering_wheel_angle_rate := 3
  steering_wheel_angle_rate_sign := .CounterClockwise

def straight : DelphiRX4F0 ℚ := { turned with steering_wheel_angle := 0 }

def radiating : DelphiRX4F1 ℚ where
  lateral_mounting_offset := 1
  angle_misalignment := 0
  vehicle_speed_validity := .AvailableAndValid
  mmr_upside_down := true
  blockage_disable := false
  use_angle_misalignment := true
  clear_faults := false
  lr_transmit := true
  mr_transmit := true
  short_track_roc := -1000
  turn_signal_status := .Left
  radiate_command := .Radiate
  wiper_status := .Off
  raw_data_enable := .Filtered
  grouping_mode := .MovingTargetsOnly
  scan_index_ack := 515
  maximum_tracks := 63
  high_yaw_angle := -2

theorem fits_turned : Fits0 turned := by
  intro f
  cases f <;> decide +kernel

theorem fits_straight : Fits0 straight := by
  intro f
  cases f <;> decide +kernel

theorem fits_radiating : Fits1 radiating := by
  intro f
  cases f <;> decide +kernel

/-- The wheel goes back to the middle. -/
theorem straight_is_placed :
    (∀ g : Field0, g.read (sendCommands straight radiating).1.data = g.commanded straight) ∧
      (∀ g : Field1, g.read (sendCommands straight radiating).2.data = g.commanded radiating) ∧
      ChangesOnly (.inl .steering_wheel_angle) (sendCommands straight radiating)
        (sendCommands turned radiating) := by
  have hdiffer : DifferOnly (.inl .steering_wheel_angle) straight turned radiating radiating := by
    constructor
    · intro g hg
      cases g <;> first | rfl | exact absurd rfl hg
    · simp
  have hspilled (k : ℕ) : ¬ Spilled radiating k := by
    have hlateral : ¬ lateral radiating < 0 := by decide +kernel
    have hangle : ¬ angle radiating < 0 := by decide +kernel
    simp [Spilled, hlateral, hangle]
  apply (sendCommands_places_iff fits_straight fits_turned fits_radiating fits_radiating
    hdiffer).mpr
  refine ⟨rfl, ⟨rfl, fun g hg => absurd hg (hspilled _)⟩, ?_, ?_⟩
  · simp
  · simp

/-- An angle of the steering wheel is not sent. -/
theorem the_steering_wheel_angle_is_lost :
    Fits0 turned ∧ Fits1 radiating ∧ Field0.steering_wheel_angle.commanded turned = 1 ∧
      Field0.steering_wheel_angle.read (sendCommands turned radiating).1.data = 0 := by
  refine ⟨fits_turned, fits_radiating, rfl, ?_⟩
  decide +kernel

end carma.delphi_esr
