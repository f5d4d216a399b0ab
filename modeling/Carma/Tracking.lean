-- Tracking: the plan as a tree of states by time, and the errors of the vehicle against it. The
-- times are longs, and so is the quotient that says how far a maneuver has got.
import Carma.Lib.ExactDouble
import Carma.Lib.SortedMap
import Carma.TrajectoryInvariant
import Mathlib.Algebra.Order.Floor.Ring
import Mathlib.Data.Rat.Floor
import Mathlib.Tactic.Ring

open lib.exact_double
open lib.sorted_map
open carma.maneuvers
open carma.trajectory

namespace carma.tracking

/-! ## Longs -/

/-- The value of a long after an overflow. -/
def wrapLong (x : ℤ) : ℤ := x.bmod (2 ^ 64)

/-- Whole turns of the longs do not change whether a number is one of the eights. -/
theorem eight_dvd_wrapLong {x y : ℤ} (h : 8 ∣ x - y) : 8 ∣ wrapLong x - y := by
  have hturns := Int.bmod_add_bdiv x (2 ^ 64)
  unfold wrapLong
  omega

section cast

variable {K : Type} [LinearOrder K] [Field K] [FloorRing K]

/-- The cast of a double to a long. -/
def toLong : Dbl K → ℤ
  | .fin x => max (-2 ^ 63) (min (2 ^ 63 - 1) (if 0 ≤ x then ⌊x⌋ else ⌈x⌉))
  | .inf true => -2 ^ 63
  | .inf false => 2 ^ 63 - 1
  | .nan => 0

end cast

/-! ## The tree -/

/-- What is stored for a time: a speed and a distance. -/
structure State (K : Type) where
  speed : K
  distance : K
deriving DecidableEq

structure SpeedTimeTree (K : Type) where
  entries : List (ℤ × State K)
  sorted : entries.Pairwise (fun a b => a.1 < b.1)

variable {K : Type}

def noEntries : SpeedTimeTree K := ⟨[], List.Pairwise.nil⟩

def SpeedTimeTree.put (tree : SpeedTimeTree K) (time : ℤ) (state : State K) : SpeedTimeTree K :=
  ⟨lib.sorted_map.put time state tree.entries, put_pairwise tree.sorted time state⟩

variable [LinearOrder K] [Field K] [FloorRing K]

def SECONDS_TO_MILLISECONDS : ℤ := 1000

/-- `durationTime` of a maneuver: its seconds, cast to a long. -/
def durationTime (m : LongitudinalManeuver K) : ℤ :=
  toLong (Dbl.fin |m.startDist - m.endDist| /
    Dbl.fin (1 / (2 : ℕ) * (m.motion.startSpeed + m.motion.endSpeed)))

/-- The loop of `constructSpeedTimeTree`, after the state of the start. -/
def endStates (lastEntryTime : ℤ) (tree : SpeedTimeTree K) :
    List (LongitudinalManeuver K) → SpeedTimeTree K
  | [] => tree
  | m :: maneuvers =>
    let predictFinishTime :=
      wrapLong (lastEntryTime + wrapLong (durationTime m * SECONDS_TO_MILLISECONDS))
    endStates predictFinishTime (tree.put predictFinishTime ⟨m.motion.endSpeed, m.endDist⟩) maneuvers

def constructSpeedTimeTree (trajectoryStartLocation : K) (trajectoryStartTime : ℤ)
    (maneuvers : List (LongitudinalManeuver K)) : SpeedTimeTree K :=
  match maneuvers with
  | [] => noEntries
  | m :: _ =>
    endStates trajectoryStartTime
      (noEntries.put trajectoryStartTime ⟨m.motion.startSpeed, trajectoryStartLocation⟩) maneuvers

/-! ## The errors -/

/-- What `Tracking` compares the vehicle with. -/
structure Tracking (K : Type) where
  speed_error_limit : K
  downtrack_error_limit : K
  speedTimeTree : SpeedTimeTree K

def Tracking.onTrajectoryStart (tracking : Tracking K) (t : Trajectory K) (now : ℤ) : Tracking K :=
  { tracking with
    speedTimeTree := constructSpeedTimeTree t.startLocation now t.getLongitudinalManeuvers }

/-- `factor`: how much of the way between two entries is done, as a quotient of longs. -/
def factor (currentT floorKey ceilingKey : ℤ) : ℤ :=
  if wrapLong (ceilingKey - floorKey) ≠ 0 then
    wrapLong ((wrapLong (currentT - floorKey)).tdiv (wrapLong (ceilingKey - floorKey)))
  else 1

/-- The error of a speed or a distance against the two entries. -/
def errorOf (part : State K → K) (currentT : ℤ) (floorEntry ceilingEntry : ℤ × State K)
    (current : K) : K :=
  let change := part ceilingEntry.2 - part floorEntry.2
  let target := part floorEntry.2 + (factor currentT floorEntry.1 ceilingEntry.1 : K) * change
  current - target

def Tracking.hasTrajectoryError (tracking : Tracking K) (currentT : ℤ) (currentD currentV : K) :
    Bool :=
  match floorEntry currentT tracking.speedTimeTree.entries,
    ceilingEntry currentT tracking.speedTimeTree.entries with
  | some floorEntry, some ceilingEntry =>
    let speed_error := errorOf State.speed currentT floorEntry ceilingEntry currentV
    let distance_error := errorOf State.distance currentT floorEntry ceilingEntry currentD
    decide (|speed_error| > tracking.speed_error_limit) ||
      decide (|distance_error| > tracking.downtrack_error_limit)
  | _, _ => false

/-! ## A vehicle that follows its plan -/

/-- A speed or a distance between two entries, by linear interpolation. -/
def interpolated (part : State K → K) (currentT : ℤ) (floorEntry ceilingEntry : ℤ × State K) : K :=
  part floorEntry.2 + ((currentT - floorEntry.1 : ℤ) : K) / ((ceilingEntry.1 - floorEntry.1 : ℤ) : K) *
    (part ceilingEntry.2 - part floorEntry.2)

/-- The states of a plan: that of its start and those of the ends of its maneuvers. -/
def planStates (startLocation : K) (maneuvers : List (LongitudinalManeuver K)) : List (State K) :=
  match maneuvers with
  | [] => []
  | m :: _ => ⟨m.motion.startSpeed, startLocation⟩ ::
    maneuvers.map fun m => ⟨m.motion.endSpeed, m.endDist⟩

/-- The tree has an entry for each state of the plan, in their order; and a vehicle that is at each
time between two entries where the plan has it has no error, and none is reported. -/
structure TracksExactly (tracking : Tracking K) (startLocation : K)
    (maneuvers : List (LongitudinalManeuver K)) : Prop where
  entries : tracking.speedTimeTree.entries.map Prod.snd = planStates startLocation maneuvers
  exact : ∀ currentT f c, floorEntry currentT tracking.speedTimeTree.entries = some f →
    ceilingEntry currentT tracking.speedTimeTree.entries = some c →
    errorOf State.speed currentT f c (interpolated State.speed currentT f c) = 0 ∧
      errorOf State.distance currentT f c (interpolated State.distance currentT f c) = 0 ∧
      tracking.hasTrajectoryError currentT (interpolated State.distance currentT f c)
        (interpolated State.speed currentT f c) = false

/-! ## The law -/

theorem endStates_times {start lastEntryTime : ℤ} {tree : SpeedTimeTree K}
    (htree : ∀ e ∈ tree.entries, 8 ∣ e.1 - start) (hlast : 8 ∣ lastEntryTime - start)
    (maneuvers : List (LongitudinalManeuver K)) :
    ∀ e ∈ (endStates lastEntryTime tree maneuvers).entries, 8 ∣ e.1 - start := by
  induction maneuvers generalizing lastEntryTime tree with
  | nil => exact htree
  | cons m maneuvers ih =>
    have hduration : 8 ∣ wrapLong (durationTime m * SECONDS_TO_MILLISECONDS) - 0 := by
      apply eight_dvd_wrapLong
      unfold SECONDS_TO_MILLISECONDS
      omega
    have hfinish := eight_dvd_wrapLong (x := lastEntryTime +
      wrapLong (durationTime m * SECONDS_TO_MILLISECONDS)) (y := start) (by omega)
    refine ih (fun e he => ?_) hfinish
    rcases mem_put he with rfl | he
    · exact hfinish
    · exact htree e he

theorem constructSpeedTimeTree_times (startLocation : K) (start : ℤ)
    (maneuvers : List (LongitudinalManeuver K)) :
    ∀ e ∈ (constructSpeedTimeTree startLocation start maneuvers).entries, 8 ∣ e.1 - start := by
  unfold constructSpeedTimeTree
  cases maneuvers with
  | nil => exact fun e he => absurd he List.not_mem_nil
  | cons m maneuvers =>
    refine endStates_times (fun e he => ?_) (by omega) _
    rw [List.mem_singleton.mp he]
    simp

section errors

omit [LinearOrder K] [FloorRing K]

theorem errorOf_interpolated (part : State K → K) (currentT : ℤ) (f c : ℤ × State K) :
    errorOf part currentT f c (interpolated part currentT f c) =
      (((currentT - f.1 : ℤ) : K) / ((c.1 - f.1 : ℤ) : K) - (factor currentT f.1 c.1 : K)) *
        (part c.2 - part f.2) := by
  unfold errorOf interpolated
  ring

/-- Between two entries the factor is zero. -/
theorem factor_between {currentT floorKey ceilingKey : ℤ} (hlow : floorKey < currentT)
    (hhigh : currentT < ceilingKey) (hfits : ceilingKey - floorKey < 2 ^ 63) :
    factor currentT floorKey ceilingKey = 0 := by
  have hsmall : ∀ x : ℤ, 0 ≤ x → x < 2 ^ 63 → wrapLong x = x := by
    intro x hx hlt
    unfold wrapLong
    exact Int.bmod_eq_of_le (by omega) (by omega)
  unfold factor
  rw [hsmall (ceilingKey - floorKey) (by omega) hfits, hsmall (currentT - floorKey) (by omega)
    (by omega), if_pos (by omega), Int.tdiv_eq_zero_of_lt (by omega) (by omega)]
  exact hsmall 0 le_rfl (by norm_num)

end errors

omit [FloorRing K] in
/-- Between two entries, a vehicle that follows its plan is reported where more has changed since
the first of them than the limits allow. -/
theorem reported_between (tracking : Tracking K) {before after : List (ℤ × State K)}
    {f c : ℤ × State K} (hentries : tracking.speedTimeTree.entries = before ++ f :: c :: after)
    {currentT : ℤ} (hlow : f.1 < currentT) (hhigh : currentT < c.1) (hfits : c.1 - f.1 < 2 ^ 63) :
    tracking.hasTrajectoryError currentT (interpolated State.distance currentT f c)
        (interpolated State.speed currentT f c) = true ↔
      |((currentT - f.1 : ℤ) : K) / ((c.1 - f.1 : ℤ) : K) * (c.2.speed - f.2.speed)| >
          tracking.speed_error_limit ∨
        |((currentT - f.1 : ℤ) : K) / ((c.1 - f.1 : ℤ) : K) * (c.2.distance - f.2.distance)| >
          tracking.downtrack_error_limit := by
  have hsorted := tracking.speedTimeTree.sorted
  rw [hentries] at hsorted
  obtain ⟨hfloor, hceiling⟩ := floor_ceiling_between hsorted hlow.le hhigh
  unfold Tracking.hasTrajectoryError
  rw [hentries, hfloor, hceiling hlow]
  dsimp only
  rw [errorOf_interpolated, errorOf_interpolated, factor_between hlow hhigh hfits, Int.cast_zero,
    sub_zero, Bool.or_eq_true, decide_eq_true_eq, decide_eq_true_eq]

/-- The factor is a whole number, so at no time between two entries that are more than one
millisecond apart does it get to a distance that the plan has come to in part. -/
theorem errorOf_distance_ne [IsStrictOrderedRing K] {f c : ℤ × State K} {currentT : ℤ}
    (hlow : f.1 < currentT) (hhigh : currentT < c.1) (hmoves : f.2.distance ≠ c.2.distance) :
    errorOf State.distance currentT f c (interpolated State.distance currentT f c) ≠ 0 := by
  rw [errorOf_interpolated]
  refine mul_ne_zero ?_ (sub_ne_zero.mpr hmoves.symm)
  have hspan : (0 : K) < ((c.1 - f.1 : ℤ) : K) := Int.cast_pos.mpr (by omega)
  have hpos : 0 < ((currentT - f.1 : ℤ) : K) / ((c.1 - f.1 : ℤ) : K) :=
    div_pos (Int.cast_pos.mpr (by omega)) hspan
  have hlt : ((currentT - f.1 : ℤ) : K) / ((c.1 - f.1 : ℤ) : K) < 1 := by
    rw [div_lt_one hspan, Int.cast_lt]
    omega
  intro hzero
  have heq := sub_eq_zero.mp hzero
  rw [heq] at hpos hlt
  have hlo : 0 < factor currentT f.1 c.1 := Int.cast_pos.mp hpos
  have hhi : factor currentT f.1 c.1 < 1 := by exact_mod_cast hlt
  omega

/-- No vehicle that moves is tracked exactly: a tree that has an entry for each state of the plan
has none of its errors zero between the first two. -/
theorem no_plan_is_tracked_exactly [IsStrictOrderedRing K] (tracking : Tracking K)
    (t : Trajectory K) (h : Kept t) (hplanned : t.getLongitudinalManeuvers ≠ []) (now : ℤ) :
    ¬ TracksExactly (tracking.onTrajectoryStart t now) t.startLocation t.getLongitudinalManeuvers := by
  rintro ⟨hstates, hexact⟩
  have htimes := constructSpeedTimeTree_times t.startLocation now t.getLongitudinalManeuvers
  have hsorted := (tracking.onTrajectoryStart t now).speedTimeTree.sorted
  obtain ⟨m, maneuvers, hlist⟩ := List.exists_cons_of_ne_nil hplanned
  have hstored : ofLongitudinal m ∈ t.stored .LONGITUDINAL :=
    List.mem_map_of_mem (by rw [hlist]; exact List.mem_cons_self)
  have hmoves : t.startLocation ≠ m.endDist :=
    ((h.within _ _ hstored).1.trans_lt (stored_lt h (by decide) _ hstored)).ne
  change ∀ e ∈ (tracking.onTrajectoryStart t now).speedTimeTree.entries, 8 ∣ e.1 - now at htimes
  rw [hlist] at hstates
  obtain ⟨f, rest, hentries, hf, hrest⟩ := List.map_eq_cons_iff.mp hstates
  obtain ⟨c, after, rfl, hc, -⟩ := List.map_eq_cons_iff.mp hrest
  rw [hentries] at hexact hsorted htimes
  -- a whole number of seconds lies between the two, so there is a millisecond between them
  have hlt : f.1 < c.1 := (List.pairwise_cons.mp hsorted).1 c List.mem_cons_self
  have hfirst := htimes f List.mem_cons_self
  have hsecond := htimes c (List.mem_cons_of_mem f List.mem_cons_self)
  have hlow : f.1 < f.1 + 1 := by omega
  have hhigh : f.1 + 1 < c.1 := by omega
  rw [← List.nil_append (f :: c :: after)] at hsorted hexact
  obtain ⟨hfloor, hceiling⟩ := floor_ceiling_between hsorted hlow.le hhigh
  refine errorOf_distance_ne hlow hhigh ?_ (hexact _ f c hfloor (hceiling hlow)).2.1
  rw [hf, hc]
  exact hmoves

/-! ## A steady drive -/

/-- Tracking with limits of five metres a second and five metres. -/
def fiveAndFive : Tracking ℚ := ⟨5, 5, noEntries⟩

/-- A steady drive at twenty metres a second. -/
def steadyDrive (length : ℚ) : Trajectory ℚ :=
  ((newTrajectory 0 length).put (ofLongitudinal (.single .steadySpeed ⟨0, length, 20, 20⟩))).2

theorem steadyDrive_kept {length : ℚ} (h : 0 < length) : Kept (steadyDrive length) :=
  put_kept (newTrajectory_kept 0 length) (show (0 : ℚ) < length from h)

theorem a_steady_drive_is_not_tracked_exactly :
    ¬ TracksExactly (fiveAndFive.onTrajectoryStart (steadyDrive 100) 0)
      (steadyDrive 100).startLocation (steadyDrive 100).getLongitudinalManeuvers :=
  no_plan_is_tracked_exactly fiveAndFive (steadyDrive 100) (steadyDrive_kept (by norm_num))
    (by decide +kernel) 0

/-- After four of five seconds the vehicle has come eighty metres, as planned, and is reported:
it is compared with the start. And ten metres, which take half a second, leave one entry. -/
theorem a_steady_drive_is_reported :
    ¬ TracksExactly (fiveAndFive.onTrajectoryStart (steadyDrive 100) 0)
        (steadyDrive 100).startLocation (steadyDrive 100).getLongitudinalManeuvers ∧
      (fiveAndFive.onTrajectoryStart (steadyDrive 100) 0).hasTrajectoryError 4000 80 20 = true ∧
      (fiveAndFive.onTrajectoryStart (steadyDrive 10) 0).speedTimeTree.entries = [(0, ⟨20, 10⟩)] := by
  have hreported :
      (fiveAndFive.onTrajectoryStart (steadyDrive 100) 0).hasTrajectoryError 4000 80 20 = true := by
    decide +kernel
  refine ⟨fun hexact => ?_, hreported, by decide +kernel⟩
  have hquiet := (hexact.exact 4000 (0, ⟨20, 0⟩) (5000, ⟨20, 100⟩) (by decide +kernel)
    (by decide +kernel)).2.2
  have hdistance : interpolated State.distance 4000 (0, (⟨20, 0⟩ : State ℚ)) (5000, ⟨20, 100⟩) =
      80 := by decide +kernel
  have hspeed : interpolated State.speed 4000 (0, (⟨20, 0⟩ : State ℚ)) (5000, ⟨20, 100⟩) = 20 := by
    decide +kernel
  rw [hdistance, hspeed, hreported] at hquiet
  cases hquiet

end carma.tracking
