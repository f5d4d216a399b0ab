-- The times of the tracker. The stamps of its track lists never go back, and a
-- correction divides by the time that has passed since the last one. That is
-- zero when a measurement has just the stamp of the tracks that it meets.
import Mathlib.Algebra.Order.Field.Basic
import Mathlib.Tactic.NormNum
import Carma.Lib.Runs
import Carma.ObjectTracker

open lib.runs

namespace carma.object_tracker

open DoubleOps

variable {R Q : Type}

/-! ## The stamps of the sensors -/

/-- The time stamp of the tracks of a sensor. -/
def stampOf (src_id : ℕ) (tracks : List (SensorObjects R Q)) : Option ℤ :=
  (tracks.find? (fun track => decide (track.src_id = src_id))).map (·.time_stamp)

/-- The tracks have the order of the ids of their sensors, one entry for each sensor. -/
def Keyed (tracks : List (SensorObjects R Q)) : Prop :=
  tracks.Pairwise (fun left right => left.src_id < right.src_id)

/-- No sensor is lost, and the stamp of no sensor goes back. -/
def StampsForward (before after : List (SensorObjects R Q)) : Prop :=
  ∀ src_id, ∀ x ∈ stampOf src_id before, ∃ y ∈ stampOf src_id after, x ≤ y

theorem StampsForward.refl (tracks : List (SensorObjects R Q)) : StampsForward tracks tracks :=
  fun _ x hx => ⟨x, hx, Int.le_refl x⟩

theorem StampsForward.trans {a b d : List (SensorObjects R Q)} (hab : StampsForward a b)
    (hbd : StampsForward b d) : StampsForward a d := by
  intro src_id x hx
  obtain ⟨y, hy, hxy⟩ := hab src_id x hx
  obtain ⟨z, hz, hyz⟩ := hbd src_id y hy
  exact ⟨z, hz, Int.le_trans hxy hyz⟩

/-- The entry of a sensor, in its place among the others. -/
theorem stampOf_around {before after : List (SensorObjects R Q)} {track : SensorObjects R Q}
    (hbefore : ∀ other ∈ before, other.src_id ≠ track.src_id) (src_id : ℕ) :
    stampOf src_id (before ++ track :: after) =
      if track.src_id = src_id then some track.time_stamp
      else stampOf src_id (before ++ after) := by
  unfold stampOf
  by_cases hsame : track.src_id = src_id
  · have hnone : before.find? (fun other => decide (other.src_id = src_id)) = none := by
      rw [List.find?_eq_none]
      intro other hother
      simpa [← hsame] using hbefore other hother
    rw [if_pos hsame, List.find?_append, hnone, List.find?_cons_of_pos (by simpa using hsame)]
    rfl
  · rw [if_neg hsame, List.find?_append, List.find?_append,
      List.find?_cons_of_neg (by simpa using hsame)]

/-- Some stamp of the tracks is not before `x`. -/
def Reaches (tracks : List (SensorObjects R Q)) (x : ℤ) : Prop :=
  ∃ track ∈ tracks, x ≤ track.time_stamp

theorem reaches_cons {track : SensorObjects R Q} {tracks : List (SensorObjects R Q)} {x : ℤ} :
    Reaches (track :: tracks) x ↔ x ≤ track.time_stamp ∨ Reaches tracks x :=
  List.exists_mem_cons_iff ..

theorem reaches_around {before after : List (SensorObjects R Q)} {track : SensorObjects R Q}
    {x : ℤ} : Reaches (before ++ track :: after) x ↔
      x ≤ track.time_stamp ∨ Reaches (before ++ after) x := by
  unfold Reaches
  constructor
  · rintro ⟨other, hmem, hx⟩
    rcases List.mem_append.mp hmem with hmem | hmem
    · exact Or.inr ⟨other, List.mem_append_left _ hmem, hx⟩
    · rcases List.mem_cons.mp hmem with rfl | hmem
      · exact Or.inl hx
      · exact Or.inr ⟨other, List.mem_append_right _ hmem, hx⟩
  · rintro (hx | ⟨other, hmem, hx⟩)
    · exact ⟨track, by simp, hx⟩
    · rcases List.mem_append.mp hmem with hmem | hmem
      · exact ⟨other, List.mem_append_left _ hmem, hx⟩
      · exact ⟨other, List.mem_append_right _ (List.mem_cons_of_mem _ hmem), hx⟩

theorem findTrack_keys (src_id : ℕ) (time_stamp : ℤ) {tracks : List (SensorObjects R Q)}
    (h : Keyed tracks) :
    let found := findTrack src_id time_stamp tracks
    found.2.1.src_id = src_id ∧ (∀ track ∈ found.1, track.src_id < src_id) ∧
      (∀ track ∈ found.2.2, src_id < track.src_id) ∧ Keyed (found.1 ++ found.2.2) := by
  induction tracks with
  | nil => exact ⟨rfl, by simp [findTrack], by simp [findTrack], h⟩
  | cons track tracks ih =>
    obtain ⟨hfirst, hrest⟩ := List.pairwise_cons.mp h
    unfold findTrack
    split
    · rename_i hlt
      obtain ⟨hfound, hbefore, hafter, hkeyed⟩ := ih hrest
      refine ⟨hfound, ?_, hafter, ?_⟩
      · exact List.forall_mem_cons.mpr ⟨hlt, hbefore⟩
      · refine List.pairwise_cons.mpr ⟨?_, hkeyed⟩
        intro other hother
        rcases List.mem_append.mp hother with hmem | hmem
        · apply hfirst
          rcases findTrack_spec src_id time_stamp tracks with hspec | ⟨hspec, -⟩
          · rw [hspec]
            exact List.mem_append_left _ hmem
          · rw [hspec]
            exact List.mem_append_left _ hmem
        · exact Nat.lt_trans hlt (hafter other hmem)
    · rename_i hge
      split
      · rename_i hsame
        refine ⟨hsame, by simp, ?_, hrest⟩
        intro other hother
        rw [← hsame]
        exact hfirst other hother
      · rename_i hne
        have hlt : src_id < track.src_id := by omega
        refine ⟨rfl, by simp, ?_, h⟩
        exact List.forall_mem_cons.mpr ⟨hlt, fun other hother => Nat.lt_trans hlt (hfirst other hother)⟩

/-! ## The stamps of a call -/

variable [Add R] [Sub R] [Mul R] [Div R] [DoubleOps R]

@[simp] theorem processObjects_src_id (c : Config R) (E : Geometry R Q) (last_id : BitVec 16)
    (measurement sensor_track : SensorObjects R Q) :
    (processObjects c E last_id measurement sensor_track).2.src_id = sensor_track.src_id := by
  unfold processObjects
  split
  · rfl
  · rfl

theorem processObjects_time_stamp (c : Config R) (E : Geometry R Q) (last_id : BitVec 16)
    (measurement sensor_track : SensorObjects R Q) :
    (processObjects c E last_id measurement sensor_track).2.time_stamp =
      max sensor_track.time_stamp measurement.time_stamp := by
  unfold processObjects
  split
  · show sensor_track.time_stamp = _
    omega
  · show measurement.time_stamp = _
    omega

section around

omit [Add R] [Sub R] [Mul R] [Div R] [DoubleOps R]

variable {before after : List (SensorObjects R Q)} {old next : SensorObjects R Q}

theorem Keyed.around (h : Keyed (before ++ after))
    (hbefore : ∀ track ∈ before, track.src_id < next.src_id)
    (hafter : ∀ track ∈ after, next.src_id < track.src_id) : Keyed (before ++ next :: after) := by
  obtain ⟨hleft, hright, hcross⟩ := List.pairwise_append.mp h
  refine List.pairwise_append.mpr ⟨hleft, List.pairwise_cons.mpr ⟨hafter, hright⟩, ?_⟩
  intro left hleft' right hright'
  rcases List.mem_cons.mp hright' with rfl | hmem
  · exact hbefore left hleft'
  · exact hcross left hleft' right hmem

/-- The entry of a sensor is replaced by one that is not older. -/
theorem stampsForward_replace (hbefore : ∀ track ∈ before, track.src_id < next.src_id)
    (hsame : old.src_id = next.src_id) (hle : old.time_stamp ≤ next.time_stamp) :
    StampsForward (before ++ old :: after) (before ++ next :: after) := by
  intro src_id x hx
  rw [stampOf_around (fun track htrack => by have := hbefore track htrack; omega), hsame] at hx
  rw [stampOf_around (fun track htrack => by have := hbefore track htrack; omega)]
  split
  · rename_i hsensor
    rw [if_pos hsensor, Option.mem_some_iff] at hx
    exact ⟨next.time_stamp, rfl, by omega⟩
  · rename_i hsensor
    rw [if_neg hsensor] at hx
    exact ⟨x, hx, Int.le_refl x⟩

/-- A sensor that is new gets an entry. -/
theorem stampsForward_insert (hbefore : ∀ track ∈ before, track.src_id < next.src_id)
    (hafter : ∀ track ∈ after, next.src_id < track.src_id) :
    StampsForward (before ++ after) (before ++ next :: after) := by
  intro src_id x hx
  rw [stampOf_around (fun track htrack => by have := hbefore track htrack; omega)]
  split
  · rename_i hsensor
    exfalso
    obtain ⟨track, hfind, -⟩ := Option.map_eq_some_iff.mp hx
    have hkey := List.find?_some hfind
    rw [decide_eq_true_eq] at hkey
    rcases List.mem_append.mp (List.mem_of_find?_eq_some hfind) with hmem | hmem
    · have := hbefore track hmem
      omega
    · have := hafter track hmem
      omega
  · exact ⟨x, hx, Int.le_refl x⟩

end around

theorem processMeasurement_stamps (c : Config R) (E : Geometry R Q) {t : ObjectTracker R Q}
    (h : Keyed t.internal_tracks_) (obj : SensorObjects R Q) :
    let after := (t.processMeasurement c E obj).internal_tracks_
    Keyed after ∧ StampsForward t.internal_tracks_ after ∧
      ∀ x, Reaches after x ↔ Reaches t.internal_tracks_ x ∨ x ≤ obj.time_stamp := by
  have hspec := findTrack_spec obj.src_id obj.time_stamp t.internal_tracks_
  have hkeys := findTrack_keys obj.src_id obj.time_stamp h
  unfold ObjectTracker.processMeasurement
  generalize findTrack obj.src_id obj.time_stamp t.internal_tracks_ = found at hspec hkeys ⊢
  obtain ⟨before, internal_track, after⟩ := found
  dsimp only at hspec hkeys ⊢
  obtain ⟨hsame, hbefore, hafter, hkeyed⟩ := hkeys
  have hstamp := processObjects_time_stamp c E t.last_id_ obj internal_track
  have hsrc := processObjects_src_id c E t.last_id_ obj internal_track
  generalize (processObjects c E t.last_id_ obj internal_track).2 = next at hstamp hsrc ⊢
  rw [← hsame, ← hsrc] at hbefore hafter
  refine ⟨hkeyed.around hbefore hafter, ?_, ?_⟩
  · rcases hspec with hspec | ⟨hspec, -⟩
    · rw [hspec]
      exact stampsForward_replace hbefore hsrc.symm (by omega)
    · rw [hspec]
      exact stampsForward_insert hbefore hafter
  · intro x
    rw [reaches_around, hstamp]
    rcases hspec with hspec | ⟨hspec, hnew⟩
    · rw [hspec, reaches_around, le_max_iff]
      tauto
    · rw [hspec, hnew, le_max_iff]
      tauto

theorem processQueue_stamps (c : Config R) (E : Geometry R Q) (choices : Choices R Q)
    {t : ObjectTracker R Q} (h : Keyed t.internal_tracks_) :
    let after := (t.processQueue c E choices).internal_tracks_
    Keyed after ∧ StampsForward t.internal_tracks_ after ∧
      ∀ x, Reaches after x ↔
        Reaches t.internal_tracks_ x ∨ ∃ obj ∈ t.process_q_, x ≤ obj.time_stamp := by
  have hrun : ∀ (queue : List (SensorObjects R Q)) (t : ObjectTracker R Q),
      Keyed t.internal_tracks_ →
      let after := (run (ObjectTracker.processMeasurement c E) t queue).internal_tracks_
      Keyed after ∧ StampsForward t.internal_tracks_ after ∧
        ∀ x, Reaches after x ↔
          Reaches t.internal_tracks_ x ∨ ∃ obj ∈ queue, x ≤ obj.time_stamp := by
    intro queue
    induction queue with
    | nil =>
      intro t ht
      exact ⟨ht, StampsForward.refl _, by simp⟩
    | cons obj queue ih =>
      intro t ht
      obtain ⟨hkeyed, hforward, hreaches⟩ := processMeasurement_stamps c E ht obj
      obtain ⟨hkeyed', hforward', hreaches'⟩ := ih _ hkeyed
      refine ⟨hkeyed', hforward.trans hforward', ?_⟩
      intro x
      rw [run_cons, hreaches' x, hreaches x]
      simp only [List.exists_mem_cons_iff]
      tauto
  obtain ⟨hkeyed, hforward, hreaches⟩ := hrun (choices.sort t.process_q_) t h
  refine ⟨hkeyed, hforward, ?_⟩
  intro x
  simp only [(choices.sort_perm t.process_q_).mem_iff] at hreaches
  exact hreaches x

/-! ## Merged stamps -/

omit [Add R] [Sub R] [Mul R] [Div R] [DoubleOps R] in
theorem le_latestStamp_iff (first : SensorObjects R Q) (tracks : List (SensorObjects R Q)) (x : ℤ) :
    x ≤ latestStamp first tracks ↔ Reaches (first :: tracks) x := by
  have hfold : ∀ (tracks : List (SensorObjects R Q)) (latest : ℤ),
      x ≤ tracks.foldl (fun latest track =>
        if latest < track.time_stamp then track.time_stamp else latest) latest ↔
      x ≤ latest ∨ Reaches tracks x := by
    intro tracks
    induction tracks with
    | nil => simp [Reaches]
    | cons track tracks ih =>
      intro latest
      rw [List.foldl_cons, ih, reaches_cons, ← or_assoc]
      apply or_congr_left
      split
      · omega
      · omega
  rw [reaches_cons]
  exact hfold tracks first.time_stamp

theorem le_merged_iff {c : Config R} {E : Geometry R Q}
    {iterate : ℕ → Iteration (TrackedObject R Q × Option ℕ)} {tracks : List (SensorObjects R Q)}
    {merged : SensorObjects R Q} (h : mergeTracks c E iterate tracks = some merged) (x : ℤ) :
    x ≤ merged.time_stamp ↔ Reaches tracks x := by
  cases tracks with
  | nil => cases h
  | cons first tracks =>
    unfold mergeTracks at h
    rw [Option.some.injEq] at h
    rw [← h]
    exact le_latestStamp_iff first tracks x

/-! ## Corrections -/

/-- A call of `correct`: the track, the measurement, and the microseconds that have passed. -/
structure Correction (R Q : Type) where
  track : TrackedObject R Q
  measurement : TrackedObject R Q
  elapsed : ℤ

/-- The measurement has a linear and an angular velocity of its own. -/
def HasVelocities (measurement : TrackedObject R Q) : Prop :=
  measurement.has pv_LinearVelocity = true ∧ measurement.has pv_AngularVelocity = true

/-- Time has passed, or the correction does not divide by it. -/
def Correction.Safe (k : Correction R Q) : Prop := HasVelocities k.measurement ∨ 0 < k.elapsed

/-- The calls of `correct` in a call of `processObjects`. -/
def corrections (c : Config R) (measurement sensor_track : SensorObjects R Q) :
    List (Correction R Q) :=
  if measurement.time_stamp < sensor_track.time_stamp then []
  else (survivors c measurement sensor_track).filterMap (fun track =>
    (bestCandidate c measurement.objects track).map (fun candidate =>
      ⟨track, candidate, measurement.time_stamp - sensor_track.time_stamp⟩))

/-- Each of them gives one of the tracks afterwards. -/
theorem corrected_mem (c : Config R) (E : Geometry R Q) (last_id : BitVec 16)
    (measurement sensor_track : SensorObjects R Q) {k : Correction R Q}
    (h : k ∈ corrections c measurement sensor_track) :
    correct E k.track k.measurement (ofInt k.elapsed / ofInt 1000000) ∈
      (processObjects c E last_id measurement sensor_track).2.objects := by
  unfold corrections at h
  unfold processObjects
  split at h
  · cases h
  · rename_i hnow
    obtain ⟨track, htrack, hmap⟩ := List.mem_filterMap.mp h
    obtain ⟨candidate, hcandidate, rfl⟩ := Option.map_eq_some_iff.mp hmap
    rw [if_neg hnow]
    apply List.mem_append_left
    refine List.mem_map.mpr ⟨track, htrack, ?_⟩
    unfold matchTrack
    rw [hcandidate]
    rfl

/-- In exact arithmetic the seconds are positive just when the microseconds are. -/
theorem deltaTime_pos_iff {K : Type} [Field K] [LinearOrder K] [IsStrictOrderedRing K]
    (time_stamp since : ℤ) : 0 < (deltaTime time_stamp since : K) ↔ 0 < time_stamp - since := by
  have hmillion : (0 : K) < ((1000000 : ℤ) : K) := by norm_num
  unfold deltaTime
  rw [show (ofInt (time_stamp - since) : K) = ((time_stamp - since : ℤ) : K) from rfl,
    show (ofInt 1000000 : K) = ((1000000 : ℤ) : K) from rfl, div_pos_iff_of_pos_right hmillion]
  exact Int.cast_pos

/-- With one stamp on both sides, the nearest measured object in range of each track
has velocities. -/
def ClearOfTie (c : Config R) (measurement sensor_track : SensorObjects R Q) : Prop :=
  measurement.time_stamp = sensor_track.time_stamp →
    ∀ track ∈ survivors c measurement sensor_track,
      ∀ candidate ∈ bestCandidate c measurement.objects track, HasVelocities candidate

theorem corrections_safe_iff (c : Config R) (measurement sensor_track : SensorObjects R Q) :
    (∀ k ∈ corrections c measurement sensor_track, k.Safe) ↔
      ClearOfTie c measurement sensor_track := by
  unfold corrections ClearOfTie
  split
  · rename_i hstale
    constructor
    · intro _ htie
      omega
    · intro _ k hk
      cases hk
  · rename_i hnow
    constructor
    · intro hsafe htie track htrack candidate hcandidate
      have hk := hsafe ⟨track, candidate, measurement.time_stamp - sensor_track.time_stamp⟩
        (List.mem_filterMap.mpr ⟨track, htrack, by rw [hcandidate]; rfl⟩)
      rcases hk with hvelocities | hpassed
      · exact hvelocities
      · dsimp only at hpassed
        omega
    · intro hclear k hk
      obtain ⟨track, htrack, hmap⟩ := List.mem_filterMap.mp hk
      obtain ⟨candidate, hcandidate, rfl⟩ := Option.map_eq_some_iff.mp hmap
      by_cases htie : measurement.time_stamp = sensor_track.time_stamp
      · exact Or.inl (hclear htie track htrack candidate hcandidate)
      · right
        dsimp only
        omega

/-- The tracks that a measurement meets. -/
def metBy (t : ObjectTracker R Q) (obj : SensorObjects R Q) : SensorObjects R Q :=
  (findTrack obj.src_id obj.time_stamp t.internal_tracks_).2.1

/-- The calls of `correct` in a call of the tracker, in their order. -/
def correctionsOf (c : Config R) (E : Geometry R Q) (t : ObjectTracker R Q) :
    Call R Q → List (Correction R Q)
  | .addObjects _ _ _ => []
  | .process choices =>
    if t.process_q_.isEmpty then []
    else
      let emptied := t.processQueue c E choices
      logged (fun t obj => (t.processMeasurement c E obj, corrections c obj (metBy t obj))) t
        (choices.sort t.process_q_) ++
      match mergeTracks c E choices.iterate emptied.internal_tracks_ with
      | none => []
      | some merged =>
        corrections c merged (ObjectTracker.fusedBefore emptied.tracked_sensor_ merged)

/-- With one stamp on both sides in a call of `process`, the nearest measured object in range
of each track has velocities. -/
def ClearOfTies (c : Config R) (E : Geometry R Q) (t : ObjectTracker R Q) (choices : Choices R Q) :
    Prop :=
  EachCall (ObjectTracker.processMeasurement c E) (fun t obj => ClearOfTie c obj (metBy t obj)) t
      (choices.sort t.process_q_) ∧
    ∀ merged ∈ mergeTracks c E choices.iterate (t.processQueue c E choices).internal_tracks_,
      ClearOfTie c merged (ObjectTracker.fusedBefore t.tracked_sensor_ merged)

theorem correctionsOf_safe_iff (c : Config R) (E : Geometry R Q) (t : ObjectTracker R Q)
    (choices : Choices R Q) :
    (∀ k ∈ correctionsOf c E t (.process choices), k.Safe) ↔
      t.process_q_.isEmpty = true ∨ ClearOfTies c E t choices := by
  unfold correctionsOf ClearOfTies
  by_cases hqueue : t.process_q_.isEmpty = true
  · simp [hqueue]
  · dsimp only
    rw [if_neg hqueue, or_iff_right hqueue, List.forall_mem_append, forall_logged_iff]
    simp only [corrections_safe_iff, processQueue_tracked_sensor_]
    apply and_congr_right
    intro _
    cases mergeTracks c E choices.iterate (t.processQueue c E choices).internal_tracks_ with
    | none => simp
    | some merged => simp [corrections_safe_iff]

/-! ## Ties -/

omit [Div R] in
theorem bestCandidate_mem {c : Config R} {measured : List (TrackedObject R Q)}
    {track candidate : TrackedObject R Q} (h : candidate ∈ bestCandidate c measured track) :
    candidate ∈ measured := by
  have hfold : ∀ (rest : List (TrackedObject R Q)) (best : Option (R × TrackedObject R Q)),
      (∀ b ∈ best, b.2 ∈ measured) → rest ⊆ measured →
      ∀ b ∈ rest.foldl (fun best measurement =>
        let distSquared := measurement.distanceToSquared track
        if lt distSquared c.tracker_out_of_range_dist && beats distSquared (best.map (·.1)) then
          some (distSquared, measurement)
        else best) best, b.2 ∈ measured := by
    intro rest
    induction rest with
    | nil => exact fun best hbest _ => hbest
    | cons o rest ih =>
      intro best hbest hrest
      obtain ⟨ho, hrest⟩ := List.cons_subset.mp hrest
      refine ih _ ?_ hrest
      intro b hb
      dsimp only at hb
      split at hb
      · obtain rfl := Option.mem_some_iff.mp hb
        exact ho
      · exact hbest b hb
  obtain ⟨b, hb, rfl⟩ := Option.map_eq_some_iff.mp h
  exact hfold measured none nofun (List.Subset.refl _) b hb

/-- All objects in a list of tracks have velocities of their own. -/
def AllHaveVelocities (objects : List (TrackedObject R Q)) : Prop :=
  ∀ o ∈ objects, HasVelocities o

omit [Sub R] in
/-- A mean object has both flags, whatever it is made of. -/
theorem mergedObject_hasVelocities (E : Geometry R Q) (members : List (TrackedObject R Q)) :
    HasVelocities (mergedObject E members) := by
  have hflags : (mergedObject E members).presence_vector = pv_ID ||| pv_Position |||
      pv_Orientation ||| pv_LinearVelocity ||| pv_AngularVelocity ||| pv_Confidence := rfl
  unfold HasVelocities TrackedObject.has
  rw [hflags]
  decide

theorem mergeObject_hasVelocities {c : Config R} {E : Geometry R Q}
    {groups : List (Neighbours R Q)} {entry : TrackedObject R Q × Option ℕ}
    (hgroups : ∀ g ∈ groups, HasVelocities g.out) (hentry : HasVelocities entry.1) :
    ∀ g ∈ mergeObject c E groups entry, HasVelocities g.out := by
  obtain ⟨o, nearest⟩ := entry
  have halone : ∀ g ∈ groups ++ [⟨o, [o]⟩], HasVelocities g.out := by
    intro g hg
    rcases List.mem_append.mp hg with hg | hg
    · exact hgroups g hg
    · rw [List.mem_singleton.mp hg]
      exact hentry
  unfold mergeObject
  dsimp only
  split
  · exact halone
  · split
    · exact halone
    · split
      · intro g hg
        rcases List.mem_or_eq_of_mem_set hg with hg | rfl
        · exact hgroups g hg
        · exact mergedObject_hasVelocities E _
      · exact halone

/-- The merged objects have velocities where all tracks do. -/
theorem merged_hasVelocities {c : Config R} {E : Geometry R Q}
    {iterate : ℕ → Iteration (TrackedObject R Q × Option ℕ)} {tracks : List (SensorObjects R Q)}
    {merged : SensorObjects R Q} (h : mergeTracks c E iterate tracks = some merged)
    (htracks : ∀ track ∈ tracks, AllHaveVelocities track.objects) :
    AllHaveVelocities merged.objects := by
  have hsensor : ∀ (latest : ℤ) (track : SensorObjects R Q) (groups : List (Neighbours R Q)),
      AllHaveVelocities track.objects → (∀ g ∈ groups, HasVelocities g.out) →
      ∀ g ∈ mergeSensor c E latest (iterate track.src_id) groups track, HasVelocities g.out := by
    intro latest track groups htrack hgroups
    refine List.foldlRecOn _ _ (motive := fun groups : List (Neighbours R Q) =>
      ∀ g ∈ groups, HasVelocities g.out) hgroups ?_
    intro groups hgroups entry hentry
    refine mergeObject_hasVelocities hgroups ?_
    have hmem := ((iterate track.src_id).perm _).mem_iff.mp hentry
    obtain ⟨o, ho, rfl⟩ := List.mem_map.mp hmem
    obtain ⟨old, hold, rfl⟩ := List.mem_map.mp (List.mem_filter.mp ho).1
    exact htrack old hold
  cases tracks with
  | nil => cases h
  | cons first tracks =>
    obtain rfl := Option.some.inj h
    intro o ho
    obtain ⟨g, hg, rfl⟩ := List.mem_map.mp ho
    refine List.foldlRecOn (first :: tracks) _ (motive := fun groups =>
      ∀ g ∈ groups, HasVelocities g.out) nofun ?_ g hg
    intro groups hgroups track htrack
    exact hsensor _ track groups (htracks track htrack) hgroups

/-- Where a measurement has the stamp of the tracks that it meets, all its objects have
velocities. -/
def TieHasVelocities (measurement sensor_track : SensorObjects R Q) : Prop :=
  measurement.time_stamp = sensor_track.time_stamp → sensor_track.objects ≠ [] →
    AllHaveVelocities measurement.objects

theorem clearOfTie_of_velocities {c : Config R} {measurement sensor_track : SensorObjects R Q}
    (h : TieHasVelocities measurement sensor_track) : ClearOfTie c measurement sensor_track := by
  intro htie track htrack candidate hcandidate
  refine h htie ?_ candidate (bestCandidate_mem hcandidate)
  intro hnil
  unfold survivors at htrack
  rw [hnil] at htrack
  cases htrack

/-- Where no sensor has tracks that are newer than the fused ones, the tracks that are
merged have velocities. -/
def FusedTieHasVelocities (t : ObjectTracker R Q) : Prop :=
  (∀ track ∈ t.internal_tracks_, track.time_stamp ≤ t.tracked_sensor_.time_stamp) →
    t.tracked_sensor_.objects ≠ [] → ∀ track ∈ t.internal_tracks_, AllHaveVelocities track.objects

theorem clearOfTie_fused {c : Config R} {E : Geometry R Q}
    {iterate : ℕ → Iteration (TrackedObject R Q × Option ℕ)} {t : ObjectTracker R Q}
    {merged : SensorObjects R Q} (h : FusedTieHasVelocities t)
    (hmerged : mergeTracks c E iterate t.internal_tracks_ = some merged) :
    ClearOfTie c merged (ObjectTracker.fusedBefore t.tracked_sensor_ merged) := by
  apply clearOfTie_of_velocities
  intro htie hobjects
  unfold ObjectTracker.fusedBefore at htie hobjects
  split at hobjects
  · rename_i hempty
    exact absurd (List.isEmpty_iff.mp hempty) hobjects
  · rename_i hsome
    rw [if_neg hsome] at htie
    refine merged_hasVelocities hmerged (h ?_ (by simpa using hsome))
    -- the merged objects have the stamp of the newest tracks
    intro track htrack
    rw [← show merged.time_stamp = t.tracked_sensor_.time_stamp from htie, le_merged_iff hmerged]
    exact ⟨track, htrack, Int.le_refl _⟩

/-! ## Runs -/

/-- What holds between the calls: once there are tracks, the fused list has the latest
of their stamps. -/
structure Settled (t : ObjectTracker R Q) : Prop where
  keyed : Keyed t.internal_tracks_
  unfused : t.internal_tracks_ = [] → t.tracked_sensor_.objects = []
  latest : t.internal_tracks_ ≠ [] →
    ∀ x, x ≤ t.tracked_sensor_.time_stamp ↔ Reaches t.internal_tracks_ x

omit [Add R] [Sub R] [Mul R] [Div R] [DoubleOps R] in
theorem newObjectTracker_settled (now : ℤ) :
    Settled (ObjectTracker.newObjectTracker now : ObjectTracker R Q) where
  keyed := List.Pairwise.nil
  unfused _ := rfl
  latest h := absurd rfl h

omit [Add R] [Sub R] [Mul R] [Div R] in
theorem fusedBefore_time_stamp_le {tracked merged : SensorObjects R Q}
    (h : tracked.objects ≠ [] → tracked.time_stamp ≤ merged.time_stamp) :
    (ObjectTracker.fusedBefore tracked merged).time_stamp ≤ merged.time_stamp := by
  unfold ObjectTracker.fusedBefore
  split
  · exact Int.le_refl _
  · rename_i hobjects
    exact h (by simpa using hobjects)

/-- Once tracks remain and the fused list is no newer than them, fusing stamps it with the latest
of them. -/
theorem le_fuse_iff (c : Config R) (E : Geometry R Q) (choices : Choices R Q)
    {t : ObjectTracker R Q} (hsome : t.internal_tracks_ ≠ [])
    (hmeets : t.tracked_sensor_.objects ≠ [] →
      Reaches t.internal_tracks_ t.tracked_sensor_.time_stamp) (x : ℤ) :
    x ≤ (t.fuse c E choices).tracked_sensor_.time_stamp ↔ Reaches t.internal_tracks_ x := by
  obtain ⟨first, rest, htracks⟩ := List.exists_cons_of_ne_nil hsome
  have hmerged : ∃ merged, mergeTracks c E choices.iterate t.internal_tracks_ = some merged := by
    rw [htracks]
    exact ⟨_, rfl⟩
  obtain ⟨merged, hmerged⟩ := hmerged
  have hlatest := le_merged_iff hmerged
  have hbefore : (ObjectTracker.fusedBefore t.tracked_sensor_ merged).time_stamp ≤
      merged.time_stamp := by
    apply fusedBefore_time_stamp_le
    intro hobjects
    exact (hlatest _).mpr (hmeets hobjects)
  have hstamp : (t.fuse c E choices).tracked_sensor_.time_stamp = merged.time_stamp := by
    unfold ObjectTracker.fuse
    rw [hmerged]
    dsimp only
    rw [processObjects_time_stamp, max_eq_right hbefore]
  rw [hstamp]
  exact hlatest x

/-- After a call of `process` with something in the queue there are tracks, the fused
list has the latest of their stamps, and this is as late as before or as the queue. -/
theorem process_settles (c : Config R) (E : Geometry R Q) {t : ObjectTracker R Q}
    (hsettled : Settled t) (hqueue : ¬ t.process_q_.isEmpty = true) (choices : Choices R Q) :
    let after := step c E t (.process choices)
    Settled after ∧ StampsForward t.internal_tracks_ after.internal_tracks_ ∧
      ∀ x, x ≤ after.tracked_sensor_.time_stamp ↔
        Reaches t.internal_tracks_ x ∨ ∃ obj ∈ t.process_q_, x ≤ obj.time_stamp := by
  obtain ⟨hkeyed, hforward, hreaches⟩ := processQueue_stamps c E choices hsettled.keyed
  dsimp only
  rw [step_process c E hqueue]
  have hfused := processQueue_tracked_sensor_ c E choices t
  generalize t.processQueue c E choices = emptied at hkeyed hforward hreaches hfused ⊢
  have hsome : emptied.internal_tracks_ ≠ [] := by
    obtain ⟨obj, queue, hobj⟩ := List.exists_cons_of_ne_nil (by simpa using hqueue)
    have hreach := (hreaches obj.time_stamp).mpr (Or.inr ⟨obj, by simp [hobj], Int.le_refl _⟩)
    rintro hnil
    rw [hnil] at hreach
    obtain ⟨track, hmem, -⟩ := hreach
    cases hmem
  have hlatest := le_fuse_iff c E choices hsome (by
    -- the fused list was not ahead of the tracks it was made of
    intro hobjects
    rw [hfused] at hobjects ⊢
    have hbefore : t.internal_tracks_ ≠ [] := fun hnil => hobjects (hsettled.unfused hnil)
    exact (hreaches _).mpr (Or.inl ((hsettled.latest hbefore _).mp (Int.le_refl _))))
  refine ⟨⟨?_, ?_, ?_⟩, ?_, ?_⟩
  · rw [fuse_internal_tracks_]
    exact hkeyed
  · rw [fuse_internal_tracks_]
    exact fun hnil => absurd hnil hsome
  · intro _ x
    rw [fuse_internal_tracks_]
    exact hlatest x
  · rw [fuse_internal_tracks_]
    exact hforward
  · intro x
    rw [hlatest, hreaches]

def Call.isProcess : Call R Q → Bool
  | .addObjects _ _ _ => false
  | .process _ => true

/-- A call of the tracker, next to which it is kept whether `process` was called before. -/
def seenStep (c : Config R) (E : Geometry R Q) (s : Bool × ObjectTracker R Q) (call : Call R Q) :
    Bool × ObjectTracker R Q :=
  (s.1 || call.isProcess, step c E s.2 call)

/-- All corrections of the call are safe, no stamp of a sensor goes back, and that of the
fused list does not go back either once `process` was called. -/
def SafeCall (c : Config R) (E : Geometry R Q) (s : Bool × ObjectTracker R Q) (call : Call R Q) :
    Prop :=
  (∀ k ∈ correctionsOf c E s.2 call, k.Safe) ∧
    StampsForward s.2.internal_tracks_ (step c E s.2 call).internal_tracks_ ∧
    (s.1 = true →
      s.2.tracked_sensor_.time_stamp ≤ (step c E s.2 call).tracked_sensor_.time_stamp)

/-- The call is clear of ties, and the first measurements of all do not come too late
after a `process` with nothing to do: one of them has at least the stamp of the tracker. -/
def ClearCall (c : Config R) (E : Geometry R Q) (s : Bool × ObjectTracker R Q) :
    Call R Q → Prop
  | .addObjects _ _ _ => True
  | .process choices =>
    s.2.process_q_.isEmpty = true ∨
      ClearOfTies c E s.2 choices ∧
        (s.1 = true → s.2.internal_tracks_ = [] →
          ∃ obj ∈ s.2.process_q_, s.2.tracked_sensor_.time_stamp ≤ obj.time_stamp)

theorem step_settled (c : Config R) (E : Geometry R Q) {t : ObjectTracker R Q}
    (hsettled : Settled t) (call : Call R Q) : Settled (step c E t call) := by
  cases call with
  | addObjects objects src_id time_stamp =>
    exact ⟨hsettled.keyed, hsettled.unfused, hsettled.latest⟩
  | process choices =>
    by_cases hqueue : t.process_q_.isEmpty = true
    · rw [step_process_idle c E hqueue]
      exact hsettled
    · exact (process_settles c E hsettled hqueue choices).1

theorem safeCall_iff (c : Config R) (E : Geometry R Q) {s : Bool × ObjectTracker R Q}
    (hsettled : Settled s.2) (call : Call R Q) : SafeCall c E s call ↔ ClearCall c E s call := by
  cases call with
  | addObjects objects src_id time_stamp =>
    refine iff_of_true ⟨?_, StampsForward.refl _, fun _ => Int.le_refl _⟩ trivial
    intro k hk
    cases hk
  | process choices =>
    unfold SafeCall ClearCall
    dsimp only
    rw [correctionsOf_safe_iff]
    by_cases hqueue : s.2.process_q_.isEmpty = true
    · rw [step_process_idle c E hqueue]
      exact iff_of_true ⟨Or.inl hqueue, StampsForward.refl _, fun _ => Int.le_refl _⟩
        (Or.inl hqueue)
    · obtain ⟨-, hforward, hstamp⟩ := process_settles c E hsettled hqueue choices
      rw [or_iff_right hqueue, or_iff_right hqueue, and_iff_right hforward, hstamp]
      apply and_congr_right
      intro _
      apply imp_congr_right
      intro _
      by_cases hnone : s.2.internal_tracks_ = []
      · have hno : ¬ Reaches s.2.internal_tracks_ s.2.tracked_sensor_.time_stamp := by
          rw [hnone]
          rintro ⟨track, hmem, -⟩
          cases hmem
        rw [or_iff_right hno]
        exact ⟨fun hlate _ => hlate, fun hlate => hlate hnone⟩
      · have hyes := (hsettled.latest hnone _).mp (Int.le_refl s.2.tracked_sensor_.time_stamp)
        exact iff_of_true (Or.inl hyes) (fun h => absurd h hnone)

/-- Each measurement with the stamp of the tracks that it meets has velocities, the tracks
have them where the fused ones have the newest stamp already, and the first measurements of
all do not come too late after a `process` with nothing to do. -/
def InTime (c : Config R) (E : Geometry R Q) (s : Bool × ObjectTracker R Q) : Call R Q → Prop
  | .addObjects _ _ _ => True
  | .process choices =>
    s.2.process_q_.isEmpty = true ∨
      EachCall (ObjectTracker.processMeasurement c E) (fun t obj => TieHasVelocities obj (metBy t obj))
          s.2 (choices.sort s.2.process_q_) ∧
        FusedTieHasVelocities (s.2.processQueue c E choices) ∧
        (s.1 = true → s.2.internal_tracks_ = [] →
          ∃ obj ∈ s.2.process_q_, s.2.tracked_sensor_.time_stamp ≤ obj.time_stamp)

theorem clearCall_of_inTime {c : Config R} {E : Geometry R Q} {s : Bool × ObjectTracker R Q}
    {call : Call R Q} (h : InTime c E s call) : ClearCall c E s call := by
  cases call with
  | addObjects objects src_id time_stamp => trivial
  | process choices =>
    refine h.imp id ?_
    rintro ⟨hties, hfused, hfirst⟩
    refine ⟨⟨?_, ?_⟩, hfirst⟩
    · exact (eachCall_of_keeps (I := fun _ => True)
        (fun _ _ _ htie => ⟨clearOfTie_of_velocities htie, trivial⟩) trivial hties)
    · intro merged hmerged
      rw [← processQueue_tracked_sensor_ c E choices s.2]
      exact clearOfTie_fused hfused hmerged

/-- In a run of calls that are in time, every correction that divides by the time has some
to divide by, and no stamp goes back. -/
theorem times_go_forward_where_ties_have_velocities (c : Config R) (E : Geometry R Q) (now : ℤ)
    (calls : List (Call R Q))
    (h : EachCall (seenStep c E) (InTime c E) (false, .newObjectTracker now) calls) :
    EachCall (seenStep c E) (SafeCall c E) (false, .newObjectTracker now) calls := by
  have hstep : ∀ (s : Bool × ObjectTracker R Q) (call : Call R Q), Settled s.2 →
      InTime c E s call → SafeCall c E s call ∧ Settled (seenStep c E s call).2 := by
    intro s call hsettled hin
    exact ⟨(safeCall_iff c E hsettled call).mpr (clearCall_of_inTime hin),
      step_settled c E hsettled call⟩
  exact eachCall_of_keeps (I := fun s => Settled s.2) hstep (newObjectTracker_settled now) h

instance (measurement : TrackedObject R Q) : Decidable (HasVelocities measurement) :=
  inferInstanceAs (Decidable (_ ∧ _))

instance (k : Correction R Q) : Decidable k.Safe := inferInstanceAs (Decidable (_ ∨ _))

instance (objects : List (TrackedObject R Q)) : Decidable (AllHaveVelocities objects) :=
  inferInstanceAs (Decidable (∀ o ∈ objects, _))

instance (objects : List (TrackedObject R Q)) : Decidable (objects = []) :=
  decidable_of_iff (objects.isEmpty = true) List.isEmpty_iff

instance (measurement sensor_track : SensorObjects R Q) :
    Decidable (TieHasVelocities measurement sensor_track) :=
  inferInstanceAs (Decidable (_ → _ ≠ [] → _))

instance (t : ObjectTracker R Q) : Decidable (FusedTieHasVelocities t) :=
  inferInstanceAs (Decidable ((∀ track ∈ _, _) → _ ≠ [] → ∀ track ∈ _, _))

instance (tracks : List (SensorObjects R Q)) : Decidable (tracks = []) :=
  decidable_of_iff (tracks.isEmpty = true) List.isEmpty_iff

instance decidableInTime (c : Config R) (E : Geometry R Q) (s : Bool × ObjectTracker R Q)
    (call : Call R Q) : Decidable (InTime c E s call) :=
  match call with
  | .addObjects _ _ _ => isTrue trivial
  | .process _ => inferInstanceAs (Decidable (_ ∨ _ ∧ _ ∧ (_ → _ → ∃ obj ∈ _, _)))

/-- After a `process` with nothing to do a sensor sees a vehicle with velocities twice at one
time, then without them later, and another sensor sees one at an older time. -/
theorem times_go_forward_two_sensors :
    let moving := pv_LinearVelocity ||| pv_AngularVelocity
    EachCall (seenStep defaultConfig straightGeometry) (SafeCall defaultConfig straightGeometry)
      (false, .newObjectTracker 0)
      [.process plainChoices, .addObjects [standing 0 moving] 7 5,
        .addObjects [standing 0 moving] 7 5, .process plainChoices,
        .addObjects [standing 0 pv_Position] 7 100000, .process plainChoices,
        .addObjects [standing 50 moving] 8 50000, .process plainChoices] := by
  intro moving
  apply times_go_forward_where_ties_have_velocities
  decide +kernel

/-- Two measurements of one object with one stamp, both without velocities. -/
theorem two_measurements_at_one_time :
    ¬ ∀ (c : Config ℚ) (E : Geometry ℚ Quaternion) (now : ℤ) (calls : List (Call ℚ Quaternion)),
      EachCall (seenStep c E) (SafeCall c E) (false, .newObjectTracker now) calls := by
  intro h
  have hsafe := (h defaultConfig straightGeometry 0
    [.addObjects [standing 0 pv_Position] 7 5, .addObjects [standing 0 pv_Position] 7 5,
      .process plainChoices]).2.2.1.1
  exact absurd hsafe (by decide +kernel)

end carma.object_tracker
