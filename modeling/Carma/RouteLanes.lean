-- The lanes of a road across its route: the lane of a crosstrack against the crosstrack of a lane's
-- middle, and the lanes that lie between two crosstracks.
import Mathlib.Algebra.Order.Ring.Rat
import Mathlib.Data.Rat.Floor
import Carma.Lib.Strips
import Carma.TrajectoryConverter

open lib.exact_double
open lib.strips
open carma.trajectory_converter (startingCrosstrack)

namespace carma.route

variable {K : Type} [LinearOrder K] [Field K] [FloorRing K]

/-! ## Secondary lanes -/

/-- The turns of the loop of `determineSecondaryLanes` from lane `i` on. -/
def secondaryLanes (primaryLane : ℤ) : ℕ → ℤ → List (BitVec 8)
  | 0, _ => []
  | n + 1, i =>
    if i ≠ primaryLane then BitVec.ofInt 8 i :: secondaryLanes primaryLane n (i + 1)
    else secondaryLanes primaryLane n (i + 1)

/-- `determineSecondaryLanes`, none where its loop up to the largest int does not end. -/
def RouteSegment.determineSecondaryLanes (seg : RouteSegment K) (minY maxY : K)
    (primaryLane : ℤ) : Option (List (BitVec 8)) :=
  let minLane := seg.determinePrimaryLane maxY
  let maxLane := seg.determinePrimaryLane minY
  if maxLane = 2 ^ 31 - 1 then none
  else some (secondaryLanes primaryLane (maxLane + 1 - minLane).toNat minLane)

theorem toInt_lane {i : ℤ} (hlow : -128 ≤ i) (hhigh : i ≤ 127) :
    (BitVec.ofInt 8 i).toInt = i := by
  rw [BitVec.toInt_ofInt, Int.bmod_eq_of_le]
  · omega
  · omega

/-- Of lanes that fit a byte, the loop lists each but the primary one, in order. -/
theorem secondaryLanes_spec (primaryLane : ℤ) {n : ℕ} {i : ℤ} (hlow : -128 ≤ i)
    (hhigh : i + n ≤ 128) :
    ((secondaryLanes primaryLane n i).map BitVec.toInt).Pairwise (· < ·) ∧
      ∀ j, j ∈ (secondaryLanes primaryLane n i).map BitVec.toInt ↔
        i ≤ j ∧ j < i + n ∧ j ≠ primaryLane := by
  induction n generalizing i with
  | zero =>
    refine ⟨List.Pairwise.nil, fun j => iff_of_false List.not_mem_nil ?_⟩
    omega
  | succ n ih =>
    obtain ⟨horder, hmem⟩ := ih (i := i + 1) (by omega) (by omega)
    unfold secondaryLanes
    split
    · rename_i hother
      rw [List.map_cons, toInt_lane hlow (by omega), List.pairwise_cons]
      refine ⟨⟨fun j hj => ?_, horder⟩, fun j => ?_⟩
      · have hbounds := (hmem j).mp hj
        omega
      · rw [List.mem_cons, hmem j]
        constructor
        · rintro (rfl | hj)
          · exact ⟨le_rfl, by omega, hother⟩
          · omega
        · intro hj
          rcases hj.1.eq_or_lt with rfl | hlt
          · exact Or.inl rfl
          · exact Or.inr ⟨hlt, by omega, hj.2.2⟩
    · rename_i hsame
      obtain rfl := not_not.mp hsame
      refine ⟨horder, fun j => ?_⟩
      rw [hmem j]
      constructor
      · intro hj
        omega
      · rintro ⟨hle, hlt, hne⟩
        exact ⟨lt_of_le_of_ne hle hne.symm, by omega, hne⟩

/-! ## The primary lane -/

section laws

variable [IsStrictOrderedRing K]

def RouteSegment.fromRightEdge (seg : RouteSegment K) (crossTrack : K) : K :=
  (seg.downtrackWaypoint.laneCount : K) * seg.downtrackWaypoint.laneWidth / (2 : ℕ) - crossTrack

/-- A crosstrack less than 2^31 lanes to the left of the right edge. -/
def RouteSegment.WithinInts (seg : RouteSegment K) (crossTrack : K) : Prop :=
  seg.fromRightEdge crossTrack < ((2 ^ 31 : ℕ) : K) * seg.downtrackWaypoint.laneWidth

/-- To the right the lanes are counted down, no further than an int tells. -/
theorem across_right {segLane crossed : ℤ} (hlow : 0 ≤ segLane) (hhigh : segLane < 2 ^ 31)
    (hcrossed : 0 ≤ crossed) :
    wrapInt (segLane - max (-2 ^ 31) (min (2 ^ 31 - 1) crossed)) =
      max (segLane - crossed) (segLane + 1 - 2 ^ 31) := by
  rw [wrapInt_of_fits]
  · omega
  · omega
  · omega

theorem across_left {segLane crossed : ℤ} (hlow : 0 ≤ segLane) (hcrossed : 0 ≤ crossed)
    (hfits : segLane + crossed < 2 ^ 31) :
    wrapInt (segLane + max (-2 ^ 31) (min (2 ^ 31 - 1) crossed)) = segLane + crossed := by
  rw [wrapInt_of_fits]
  · omega
  · omega
  · omega

/-- An even number of lanes: the middle of the road is an edge. -/
theorem even_lane {seg : RouteSegment K} {m : ℤ} (hm : 0 < m)
    (hcount : seg.downtrackWaypoint.laneCount = 2 * m) (hint : 2 * m < 2 ^ 31)
    (hwidth : 0 < seg.downtrackWaypoint.laneWidth) {crossTrack : K}
    (hnear : seg.WithinInts crossTrack) :
    ∃ lane, Strip seg.downtrackWaypoint.laneWidth lane (seg.fromRightEdge crossTrack) ∧
      seg.determinePrimaryLane crossTrack = max lane (m - 2 ^ 31) := by
  have hedge : seg.fromRightEdge crossTrack =
      m * seg.downtrackWaypoint.laneWidth + -crossTrack := by
    unfold RouteSegment.fromRightEdge
    rw [hcount]
    push_cast
    ring
  unfold RouteSegment.WithinInts at hnear
  rw [hedge] at hnear ⊢
  push_cast at hnear
  have heven : (2 * m).tmod 2 = 0 := by
    rw [Int.tmod_eq_emod_of_nonneg (by omega)]
    omega
  have hhalf : (2 * m).tdiv 2 = m := by
    rw [Int.tdiv_eq_ediv_of_nonneg (by omega)]
    omega
  unfold RouteSegment.determinePrimaryLane
  dsimp only
  rw [hcount, if_pos heven, hhalf, Dbl.fin_div _ hwidth.ne']
  unfold toInt
  dsimp only
  by_cases hright : 0 ≤ crossTrack
  · rw [if_pos hright, if_pos hright, abs_of_nonneg hright]
    have hcrossed : 0 ≤ ⌊crossTrack / seg.downtrackWaypoint.laneWidth⌋ :=
      Int.floor_nonneg.mpr (div_nonneg hright hwidth.le)
    refine ⟨_, (strip_floor hwidth crossTrack).flip.shift m, ?_⟩
    rw [across_right (by omega) (by omega) hcrossed]
    omega
  · rw [if_neg hright, if_neg hright, abs_of_neg (not_le.mp hright)]
    have hleft := neg_pos.mpr (not_le.mp hright)
    have hcrossed : 0 ≤ ⌊-crossTrack / seg.downtrackWaypoint.laneWidth⌋ :=
      Int.floor_nonneg.mpr (div_nonneg hleft.le hwidth.le)
    have hfits : ⌊-crossTrack / seg.downtrackWaypoint.laneWidth⌋ < 2 ^ 31 - m := by
      apply Int.floor_lt.mpr
      apply (div_lt_iff₀ hwidth).mpr
      push_cast
      linarith
    refine ⟨_, (strip_floor hwidth (-crossTrack)).shift m, ?_⟩
    rw [across_left hm.le hcrossed (by omega)]
    omega

section odd

variable {w crossTrack : K} (hw : 0 < w) (m : ℤ)

omit [FloorRing K] in
theorem middle_strip (hmiddle : |crossTrack| < w / 2) :
    Strip w m (m * w + (w / 2 - crossTrack)) := by
  obtain ⟨hlow, hhigh⟩ := abs_lt.mp hmiddle
  constructor
  · linarith
  · linarith

include hw

theorem right_strip (hright : 0 ≤ crossTrack) :
    Strip w (m - ⌈(|crossTrack| - w / 2) / w⌉) (m * w + (w / 2 - crossTrack)) := by
  have hlane := (strip_ceil hw (|crossTrack| - w / 2)).flip.shift m
  generalize ⌈(|crossTrack| - w / 2) / w⌉ = crossed at hlane ⊢
  rw [abs_of_nonneg hright] at hlane
  convert hlane using 1
  · ring
  · ring

theorem left_strip (hleft : crossTrack < 0) :
    Strip w (m + ⌈(|crossTrack| - w / 2) / w⌉) (m * w + (w / 2 - crossTrack)) := by
  have hlane := (strip_ceil hw (|crossTrack| - w / 2)).shift (m + 1)
  generalize ⌈(|crossTrack| - w / 2) / w⌉ = crossed at hlane ⊢
  rw [abs_of_neg hleft] at hlane
  convert hlane using 1
  · ring
  · push_cast
    ring

end odd

/-- An odd number of lanes: the middle of the road is that of a lane. -/
theorem odd_lane {seg : RouteSegment K} {m : ℤ} (hm : 0 ≤ m)
    (hcount : seg.downtrackWaypoint.laneCount = 2 * m + 1) (hint : 2 * m + 1 < 2 ^ 31)
    (hwidth : 0 < seg.downtrackWaypoint.laneWidth) {crossTrack : K}
    (hnear : seg.WithinInts crossTrack) :
    ∃ lane, Strip seg.downtrackWaypoint.laneWidth lane (seg.fromRightEdge crossTrack) ∧
      seg.determinePrimaryLane crossTrack = max lane (m + 1 - 2 ^ 31) := by
  have hedge : seg.fromRightEdge crossTrack =
      m * seg.downtrackWaypoint.laneWidth + (seg.downtrackWaypoint.laneWidth / 2 - crossTrack) := by
    unfold RouteSegment.fromRightEdge
    rw [hcount]
    push_cast
    ring
  unfold RouteSegment.WithinInts at hnear
  rw [hedge] at hnear ⊢
  push_cast at hnear
  have hodd : ¬ (2 * m + 1).tmod 2 = 0 := by
    rw [Int.tmod_eq_emod_of_nonneg (by omega)]
    omega
  have hhalf : (2 * m + 1).tdiv 2 = m := by
    rw [Int.tdiv_eq_ediv_of_nonneg (by omega)]
    omega
  unfold RouteSegment.determinePrimaryLane
  dsimp only
  rw [hcount, if_neg hodd, hhalf, Dbl.fin_div _ hwidth.ne']
  push_cast
  rw [abs_of_pos (half_pos hwidth)]
  unfold toInt
  dsimp only
  by_cases hmiddle : |crossTrack| < seg.downtrackWaypoint.laneWidth / 2
  · rw [if_pos hmiddle]
    exact ⟨m, middle_strip m hmiddle, by omega⟩
  · rw [if_neg hmiddle]
    have hfar := sub_nonneg.mpr (not_lt.mp hmiddle)
    have hcrossed := Int.ceil_nonneg (div_nonneg hfar hwidth.le)
    by_cases hright : 0 ≤ crossTrack
    · rw [if_pos hright]
      exact ⟨_, right_strip hwidth m hright, across_right hm (by omega) hcrossed⟩
    · rw [if_neg hright]
      have hfits : ⌈(|crossTrack| - seg.downtrackWaypoint.laneWidth / 2) /
          seg.downtrackWaypoint.laneWidth⌉ ≤ 2 ^ 31 - 1 - m := by
        apply Int.ceil_le.mpr
        apply (div_le_iff₀ hwidth).mpr
        rw [abs_of_neg (not_le.mp hright)]
        push_cast
        linarith
      refine ⟨_, left_strip hwidth m (not_le.mp hright), ?_⟩
      rw [across_left hm hcrossed (by omega)]
      exact (max_eq_left (by omega)).symm

/-- The lane of a crosstrack that is less than 2^31 lanes from the right edge is a strip that it
is in, or the lowest one that an int can tell from the middle. -/
theorem determinePrimaryLane_spec {seg : RouteSegment K}
    (hcount : 1 ≤ seg.downtrackWaypoint.laneCount)
    (hint : seg.downtrackWaypoint.laneCount < 2 ^ 31) (hwidth : 0 < seg.downtrackWaypoint.laneWidth)
    {crossTrack : K}
    (hnear : seg.WithinInts crossTrack) :
    ∃ lane, Strip seg.downtrackWaypoint.laneWidth lane (seg.fromRightEdge crossTrack) ∧
      seg.determinePrimaryLane crossTrack =
        max lane ((seg.downtrackWaypoint.laneCount + 1) / 2 - 2 ^ 31) := by
  obtain ⟨m, hm⟩ := Int.even_or_odd' seg.downtrackWaypoint.laneCount
  rcases hm with heven | hodd
  · obtain ⟨lane, hstrip, hlane⟩ := even_lane (by omega) heven (by omega) hwidth hnear
    refine ⟨lane, hstrip, hlane.trans ?_⟩
    omega
  · obtain ⟨lane, hstrip, hlane⟩ := odd_lane (by omega) hodd (by omega) hwidth hnear
    refine ⟨lane, hstrip, hlane.trans ?_⟩
    omega

def RouteSegment.OnRoad (seg : RouteSegment K) (crossTrack : K) : Prop :=
  |crossTrack| <
    (seg.downtrackWaypoint.laneCount : K) * seg.downtrackWaypoint.laneWidth / (2 : ℕ)

/-! ## The law -/

/-- What the lanes of a segment are right about. -/
structure LanesRight (seg : RouteSegment K) : Prop where
  /-- The middle of a lane is in that lane. -/
  middle : ∀ lane, 0 ≤ lane → lane < seg.downtrackWaypoint.laneCount →
    seg.determinePrimaryLane (startingCrosstrack seg lane) = lane
  /-- Further to the left the lanes are no lower, as far as there are ints for them. -/
  antitone : ∀ c c', seg.WithinInts c → c ≤ c' →
    seg.determinePrimaryLane c' ≤ seg.determinePrimaryLane c
  /-- A crosstrack on the road is in its lane, or on an edge of it. -/
  inside : ∀ c, seg.OnRoad c → 0 ≤ seg.determinePrimaryLane c ∧
    seg.determinePrimaryLane c < seg.downtrackWaypoint.laneCount ∧
      |c - startingCrosstrack seg (seg.determinePrimaryLane c)| ≤
        seg.downtrackWaypoint.laneWidth / (2 : ℕ)
  /-- The secondary lanes are those between, as far as there are bytes for them. -/
  secondary : ∀ minY maxY primaryLane, minY ≤ maxY → seg.OnRoad minY → seg.OnRoad maxY →
    seg.determinePrimaryLane minY ≤ 127 →
    ∃ lanes, seg.determineSecondaryLanes minY maxY primaryLane = some lanes ∧
      (lanes.map BitVec.toInt).Nodup ∧
      ∀ j, j ∈ lanes.map BitVec.toInt ↔ seg.determinePrimaryLane maxY ≤ j ∧
        j ≤ seg.determinePrimaryLane minY ∧ j ≠ primaryLane

omit [IsStrictOrderedRing K] in
theorem fromRightEdge_middle (seg : RouteSegment K) (lane : ℤ) :
    seg.fromRightEdge (startingCrosstrack seg lane) =
      lane * seg.downtrackWaypoint.laneWidth + seg.downtrackWaypoint.laneWidth / 2 := by
  unfold RouteSegment.fromRightEdge startingCrosstrack trajectory_converter.half
  push_cast
  ring

theorem onRoad_edges {seg : RouteSegment K} {c : K} (h : seg.OnRoad c) :
    0 < seg.fromRightEdge c ∧ seg.fromRightEdge c <
      (seg.downtrackWaypoint.laneCount : K) * seg.downtrackWaypoint.laneWidth := by
  obtain ⟨hlow, hhigh⟩ := abs_lt.mp h
  unfold RouteSegment.fromRightEdge
  constructor
  · linarith
  · linarith

section lanes

variable {seg : RouteSegment K} (hcount : 1 ≤ seg.downtrackWaypoint.laneCount)
  (hint : seg.downtrackWaypoint.laneCount < 2 ^ 31) (hwidth : 0 < seg.downtrackWaypoint.laneWidth)

include hcount hint hwidth

/-- Between the edges of the road the lane is a strip of the road. -/
theorem road_lane {c : K} (hlow : 0 < seg.fromRightEdge c)
    (hhigh : seg.fromRightEdge c <
      (seg.downtrackWaypoint.laneCount : K) * seg.downtrackWaypoint.laneWidth) :
    Strip seg.downtrackWaypoint.laneWidth (seg.determinePrimaryLane c) (seg.fromRightEdge c) ∧
      0 ≤ seg.determinePrimaryLane c ∧
      seg.determinePrimaryLane c < seg.downtrackWaypoint.laneCount := by
  have hcast : (seg.downtrackWaypoint.laneCount : K) < ((2 ^ 31 : ℕ) : K) := by exact_mod_cast hint
  obtain ⟨lane, hstrip, hlane⟩ := determinePrimaryLane_spec hcount hint hwidth
    (hhigh.trans (mul_lt_mul_of_pos_right hcast hwidth))
  have hnonneg : 0 ≤ lane := by
    have hpos : (0 : K) < (lane + 1) * seg.downtrackWaypoint.laneWidth := hlow.trans_le hstrip.2
    have hone : (0 : K) < ((lane + 1 : ℤ) : K) := by
      push_cast
      exact (mul_pos_iff_of_pos_right hwidth).mp hpos
    exact Int.lt_add_one_iff.mp (Int.cast_pos.mp hone)
  have hlt : lane < seg.downtrackWaypoint.laneCount :=
    Int.cast_lt.mp (lt_of_mul_lt_mul_right (hstrip.1.trans_lt hhigh) hwidth.le)
  have hsame : seg.determinePrimaryLane c = lane := hlane.trans (max_eq_left (by omega))
  rw [hsame]
  exact ⟨hstrip, hnonneg, hlt⟩

theorem lane_of_middle {lane : ℤ} (hlow : 0 ≤ lane)
    (hhigh : lane < seg.downtrackWaypoint.laneCount) :
    seg.determinePrimaryLane (startingCrosstrack seg lane) = lane := by
  have hedge := fromRightEdge_middle seg lane
  have hhalf := half_pos hwidth
  have hzero : (0 : K) ≤ lane := Int.cast_nonneg hlow
  have hnext : ((lane + 1 : ℤ) : K) ≤ (seg.downtrackWaypoint.laneCount : K) :=
    Int.cast_le.mpr (Int.add_one_le_iff.mpr hhigh)
  push_cast at hnext
  have hwithin := mul_le_mul_of_nonneg_right hnext hwidth.le
  have hbefore := mul_nonneg hzero hwidth.le
  obtain ⟨hstrip, -, -⟩ := road_lane hcount hint hwidth (c := startingCrosstrack seg lane)
    (by linarith) (by linarith)
  rw [hedge] at hstrip
  exact hstrip.unique hwidth (by linarith) (by linarith)

theorem lane_antitone {c c' : K} (hnear : seg.WithinInts c) (hle : c ≤ c') :
    seg.determinePrimaryLane c' ≤ seg.determinePrimaryLane c := by
  rcases hle.eq_or_lt with rfl | hlt
  · exact le_rfl
  · have hbefore : seg.fromRightEdge c' < seg.fromRightEdge c := sub_lt_sub_left hlt _
    obtain ⟨lane, hstrip, hlane⟩ := determinePrimaryLane_spec hcount hint hwidth hnear
    obtain ⟨lane', hstrip', hlane'⟩ :=
      determinePrimaryLane_spec hcount hint hwidth (hbefore.trans hnear)
    rw [hlane, hlane']
    exact max_le_max_right _ (hstrip'.le hwidth hstrip hbefore)

/-- The lanes of a segment are right, as far as there are ints and bytes for them. -/
theorem lanes_are_right : LanesRight seg where
  middle := fun _ hlow hhigh => lane_of_middle hcount hint hwidth hlow hhigh
  antitone := fun _ _ hnear hle => lane_antitone hcount hint hwidth hnear hle
  inside := by
    intro c hroad
    obtain ⟨hlow, hhigh⟩ := onRoad_edges hroad
    obtain ⟨hstrip, hnonneg, hlt⟩ := road_lane hcount hint hwidth hlow hhigh
    refine ⟨hnonneg, hlt, ?_⟩
    have hmiddle := fromRightEdge_middle seg (seg.determinePrimaryLane c)
    obtain ⟨hright, hleft⟩ := hstrip
    unfold RouteSegment.fromRightEdge at hmiddle hright hleft
    rw [abs_le]
    constructor
    · linarith
    · linarith
  secondary := by
    intro minY maxY primaryLane hle hmin hmax hbyte
    obtain ⟨hlow, hhigh⟩ := onRoad_edges hmax
    obtain ⟨-, hnonneg, -⟩ := road_lane hcount hint hwidth hlow hhigh
    have hcast : (seg.downtrackWaypoint.laneCount : K) < ((2 ^ 31 : ℕ) : K) := by
      exact_mod_cast hint
    have hwide := mul_lt_mul_of_pos_right hcast hwidth
    have hle' := lane_antitone hcount hint hwidth ((onRoad_edges hmin).2.trans hwide) hle
    unfold RouteSegment.determineSecondaryLanes
    dsimp only
    rw [if_neg (by omega)]
    obtain ⟨horder, hmem⟩ := secondaryLanes_spec primaryLane
      (n := (seg.determinePrimaryLane minY + 1 - seg.determinePrimaryLane maxY).toNat)
      (i := seg.determinePrimaryLane maxY) (by omega) (by omega)
    refine ⟨_, rfl, horder.imp (fun h => h.ne), fun j => ?_⟩
    rw [hmem j]
    omega

end lanes

end laws

/-! ## Too many lanes -/

/-- A road of this many lanes of one meter. -/
def roadOf (laneCount : ℤ) : RouteSegment ℚ := ⟨100, ⟨0, laneCount, 1⟩, ⟨1, laneCount, 1⟩⟩

theorem three_lanes_are_right : LanesRight (roadOf 3) :=
  lanes_are_right (by decide) (by decide) (by decide +kernel)

/-- 2^31 meters to the left of the route the lane is negative. And of 200 lanes those past 127 are
listed as negative bytes. -/
theorem lanes_past_ints_and_bytes_are_wrong :
    (¬ ∀ seg : RouteSegment ℚ, 1 ≤ seg.downtrackWaypoint.laneCount →
        seg.downtrackWaypoint.laneCount < 2 ^ 31 → 0 < seg.downtrackWaypoint.laneWidth →
        ∀ c c' : ℚ, c ≤ c' → seg.determinePrimaryLane c' ≤ seg.determinePrimaryLane c) ∧
      ¬ ∀ seg : RouteSegment ℚ, 1 ≤ seg.downtrackWaypoint.laneCount →
        seg.downtrackWaypoint.laneCount < 2 ^ 31 → 0 < seg.downtrackWaypoint.laneWidth →
        ∀ (minY maxY : ℚ) (primaryLane : ℤ), minY ≤ maxY → seg.OnRoad minY → seg.OnRoad maxY →
          ∃ lanes, seg.determineSecondaryLanes minY maxY primaryLane = some lanes ∧
            ∀ j, j ∈ lanes.map BitVec.toInt ↔ seg.determinePrimaryLane maxY ≤ j ∧
              j ≤ seg.determinePrimaryLane minY ∧ j ≠ primaryLane := by
  constructor
  · intro hall
    have hlane := hall (roadOf 2) (by decide) (by decide) (by decide +kernel) (-2 ^ 31) 0
      (by decide +kernel)
    exact absurd hlane (by decide +kernel)
  · intro hall
    obtain ⟨lanes, hlanes, hmem⟩ := hall (roadOf 200) (by decide) (by decide) (by decide +kernel)
      (-50) (-50) 0 le_rfl (by unfold RouteSegment.OnRoad; decide +kernel)
      (by unfold RouteSegment.OnRoad; decide +kernel)
    have hbyte : (roadOf 200).determineSecondaryLanes (-50) (-50) 0 = some [BitVec.ofInt 8 150] := by
      decide +kernel
    obtain rfl := Option.some.inj (hbyte.symm.trans hlanes)
    exact absurd ((hmem 150).mpr (by decide +kernel)) (by decide +kernel)

end carma.route
