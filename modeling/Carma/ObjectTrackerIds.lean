-- The ids of the tracks. They come from one counter of 16 bits, which wraps: the
-- tracks of all sensors keep apart, and so do the fused ones, for as long as none
-- of them lives through a turn of the counter.
import Mathlib.Algebra.Field.Rat
import Mathlib.Algebra.Order.Ring.Rat
import Mathlib.Data.List.Sort
import Mathlib.Tactic.Linarith
import Carma.Lib.Runs
import Carma.Lib.WrappingIds
import Carma.ObjectTrackerTimes

open lib.runs lib.wrapping_ids

namespace carma.object_tracker

open DoubleOps

variable {R Q : Type}

/-! ## The ids of objects -/

/-- The ids in a list of objects. -/
def ids (objects : List (TrackedObject R Q)) : List ℕ := objects.map (·.id)

@[simp] theorem ids_nil : ids ([] : List (TrackedObject R Q)) = [] := rfl

@[simp] theorem ids_cons (o : TrackedObject R Q) (objects : List (TrackedObject R Q)) :
    ids (o :: objects) = o.id :: ids objects := rfl

@[simp] theorem ids_append (a b : List (TrackedObject R Q)) : ids (a ++ b) = ids a ++ ids b :=
  List.map_append

/-- The ids in the lists of several sensors. -/
def allIds (tracks : List (SensorObjects R Q)) : List ℕ := tracks.flatMap (fun t => ids t.objects)

@[simp] theorem allIds_nil : allIds ([] : List (SensorObjects R Q)) = [] := rfl

@[simp] theorem allIds_cons (track : SensorObjects R Q) (tracks : List (SensorObjects R Q)) :
    allIds (track :: tracks) = ids track.objects ++ allIds tracks := List.flatMap_cons

@[simp] theorem allIds_append (a b : List (SensorObjects R Q)) :
    allIds (a ++ b) = allIds a ++ allIds b := List.flatMap_append

theorem ids_of_map {f : TrackedObject R Q → TrackedObject R Q} (h : ∀ o, (f o).id = o.id)
    (objects : List (TrackedObject R Q)) : ids (objects.map f) = ids objects := by
  unfold ids
  rw [List.map_map]
  apply List.map_congr_left
  intro o _
  exact h o

theorem addUnassociated_ids [DoubleOps R] (last_id : BitVec 16) (objs : List (TrackedObject R Q)) :
    ids (addUnassociated last_id objs).2 = handedOut last_id objs.length := by
  induction objs generalizing last_id with
  | nil => rfl
  | cons o objs ih =>
    rw [List.length_cons, handedOut_succ, ← ih]
    rfl

theorem findTrack_ids (src_id : ℕ) (time_stamp : ℤ) (tracks : List (SensorObjects R Q)) :
    let found := findTrack src_id time_stamp tracks
    allIds tracks = allIds found.1 ++ ids found.2.1.objects ++ allIds found.2.2 := by
  dsimp only
  rcases findTrack_spec src_id time_stamp tracks with hfound | ⟨hfound, hnew⟩
  · conv_lhs => rw [hfound]
    simp
  · conv_lhs => rw [hfound]
    rw [hnew]
    simp

variable [Add R] [Sub R] [Mul R] [Div R] [DoubleOps R]

theorem matchTrack_id (c : Config R) (E : Geometry R Q) (measured : List (TrackedObject R Q))
    (delta_time : R) (track : TrackedObject R Q) :
    (matchTrack c E measured delta_time track).id = track.id := by
  unfold matchTrack
  split
  · rfl
  · rfl

/-! ## One measurement -/

/-- The ids of the tracks that are left when a measurement has been taken in. -/
def keptIds (c : Config R) (measurement sensor_track : SensorObjects R Q) : List ℕ :=
  if measurement.time_stamp < sensor_track.time_stamp then ids sensor_track.objects
  else ids (survivors c measurement sensor_track)

/-- The number of tracks that a measurement starts. -/
def births (c : Config R) (measurement sensor_track : SensorObjects R Q) : ℕ :=
  if measurement.time_stamp < sensor_track.time_stamp then 0
  else (unassociatedTracks c measurement.objects (survivors c measurement sensor_track)).length

theorem survivors_ids_sublist (c : Config R) (measurement sensor_track : SensorObjects R Q) :
    (ids (survivors c measurement sensor_track)).Sublist (ids sensor_track.objects) := by
  have hupdated : ids (sensor_track.objects.map (TrackedObject.update c
      (deltaTime measurement.time_stamp sensor_track.time_stamp))) = ids sensor_track.objects :=
    ids_of_map (fun o => by rfl) _
  rw [← hupdated]
  exact (purgeExpiredTracks_sublist c _).map _

theorem keptIds_sublist (c : Config R) (measurement sensor_track : SensorObjects R Q) :
    (keptIds c measurement sensor_track).Sublist (ids sensor_track.objects) := by
  unfold keptIds
  split
  · exact List.Sublist.refl _
  · exact survivors_ids_sublist c measurement sensor_track

/-- What a measurement does to the ids: some go, the rest stay in order, and the
new ones are the next ones of the counter. -/
theorem processObjects_ids (c : Config R) (E : Geometry R Q) (last_id : BitVec 16)
    (measurement sensor_track : SensorObjects R Q) :
    ids (processObjects c E last_id measurement sensor_track).2.objects =
      keptIds c measurement sensor_track ++
        handedOut last_id (births c measurement sensor_track) := by
  unfold processObjects keptIds births
  split
  · simp
  · simp only [ids_append, addUnassociated_ids]
    rw [ids_of_map (matchTrack_id c E _ _)]

/-! ## The tracker -/

/-- No two tracks of the sensors have one id, and no two fused tracks. -/
def Unique (t : ObjectTracker R Q) : Prop :=
  (allIds t.internal_tracks_).Nodup ∧ (ids t.tracked_sensor_.objects).Nodup

/-- The ids that the tracks of all sensors keep, and those that a measurement hands
out to its sensor, are apart. -/
def FreshMeasurement (c : Config R) (t : ObjectTracker R Q) (obj : SensorObjects R Q) : Prop :=
  let found := findTrack obj.src_id obj.time_stamp t.internal_tracks_
  Fresh t.last_id_ (births c obj found.2.1)
    (allIds found.1 ++ keptIds c obj found.2.1 ++ allIds found.2.2)

/-- The same for the fused tracks and the merged objects. -/
def FreshFuse (c : Config R) (E : Geometry R Q) (choices : Choices R Q) (t : ObjectTracker R Q) :
    Prop :=
  ∀ merged ∈ mergeTracks c E choices.iterate t.internal_tracks_,
    Fresh t.last_id_ (births c merged (ObjectTracker.fusedBefore t.tracked_sensor_ merged))
      (keptIds c merged (ObjectTracker.fusedBefore t.tracked_sensor_ merged))

instance (c : Config R) (t : ObjectTracker R Q) (obj : SensorObjects R Q) :
    Decidable (FreshMeasurement c t obj) :=
  inferInstanceAs (Decidable (Fresh _ _ _))

instance (c : Config R) (E : Geometry R Q) (choices : Choices R Q) (t : ObjectTracker R Q) :
    Decidable (FreshFuse c E choices t) :=
  Option.decidableForallMem (mergeTracks c E choices.iterate t.internal_tracks_)

/-- No id is handed out in a call that a track still has. -/
def FreshCall (c : Config R) (E : Geometry R Q) (t : ObjectTracker R Q) : Call R Q → Prop
  | .addObjects _ _ _ => True
  | .process choices =>
    t.process_q_.isEmpty = true ∨
      EachCall (ObjectTracker.processMeasurement c E) (FreshMeasurement c) t
        (choices.sort t.process_q_) ∧
      FreshFuse c E choices (t.processQueue c E choices)

theorem processMeasurement_apart_iff (c : Config R) (E : Geometry R Q) {t : ObjectTracker R Q}
    (h : (allIds t.internal_tracks_).Nodup) (obj : SensorObjects R Q) :
    (allIds (t.processMeasurement c E obj).internal_tracks_).Nodup ↔ FreshMeasurement c t obj := by
  have hbefore := findTrack_ids obj.src_id obj.time_stamp t.internal_tracks_
  unfold ObjectTracker.processMeasurement FreshMeasurement
  generalize findTrack obj.src_id obj.time_stamp t.internal_tracks_ = found at hbefore ⊢
  obtain ⟨before, internal_track, after⟩ := found
  dsimp only at hbefore ⊢
  have hkept : (allIds before ++ keptIds c obj internal_track ++ allIds after).Nodup := by
    rw [hbefore] at h
    have hsublist := keptIds_sublist c obj internal_track
    exact h.sublist (((List.Sublist.refl _).append hsublist).append (List.Sublist.refl _))
  rw [allIds_append, allIds_cons, processObjects_ids, ← List.append_assoc,
    insert_handedOut_nodup_iff]
  exact and_iff_right hkept

omit [Add R] [Sub R] [Mul R] [Div R] in
theorem fusedBefore_ids (tracked merged : SensorObjects R Q) :
    ids (ObjectTracker.fusedBefore tracked merged).objects = ids tracked.objects := by
  unfold ObjectTracker.fusedBefore
  split
  · rfl
  · exact ids_of_map (fun o => by rfl) _

theorem fuse_apart_iff (c : Config R) (E : Geometry R Q) (choices : Choices R Q)
    {t : ObjectTracker R Q} (h : (ids t.tracked_sensor_.objects).Nodup) :
    (ids (t.fuse c E choices).tracked_sensor_.objects).Nodup ↔ FreshFuse c E choices t := by
  unfold ObjectTracker.fuse FreshFuse
  cases mergeTracks c E choices.iterate t.internal_tracks_ with
  | none => simpa using h
  | some merged =>
    have hkept : (keptIds c merged (ObjectTracker.fusedBefore t.tracked_sensor_ merged)).Nodup := by
      apply List.Nodup.sublist (keptIds_sublist c merged _)
      rw [fusedBefore_ids]
      exact h
    simp only [Option.mem_def, Option.some.injEq, forall_eq']
    rw [processObjects_ids, append_handedOut_nodup_iff]
    exact and_iff_right hkept

/-! ## Runs -/

theorem step_keeps_unique (c : Config R) (E : Geometry R Q) {t : ObjectTracker R Q}
    (hunique : Unique t) {call : Call R Q} (hfresh : FreshCall c E t call) :
    Unique (step c E t call) := by
  obtain ⟨hinternal, hfused⟩ := hunique
  cases call with
  | addObjects objects src_id time_stamp => exact ⟨hinternal, hfused⟩
  | process choices =>
    by_cases hqueue : t.process_q_.isEmpty = true
    · rw [step_process_idle c E hqueue]
      exact ⟨hinternal, hfused⟩
    · rw [step_process c E hqueue]
      obtain ⟨hmeasurements, hfuse⟩ := hfresh.resolve_left hqueue
      have hrun := states_of_keeps (I := fun s => (allIds s.internal_tracks_).Nodup)
        (fun s obj h hok => (processMeasurement_apart_iff c E h obj).mpr hok) hinternal hmeasurements
        _ (run_mem_states _ _ _)
      constructor
      · rw [fuse_internal_tracks_, processQueue_eq_run]
        exact hrun
      · rw [← processQueue_tracked_sensor_ c E choices t] at hfused
        exact (fuse_apart_iff c E choices hfused).mpr hfuse

/-- In a run that never hands out an id that a track still has, no two tracks of the
sensors and no two fused tracks ever have one id. -/
theorem unique_of_fresh (c : Config R) (E : Geometry R Q) (now : ℤ) (calls : List (Call R Q))
    (h : EachCall (step c E) (FreshCall c E) (ObjectTracker.newObjectTracker now) calls) :
    ∀ t ∈ states (step c E) (ObjectTracker.newObjectTracker now) calls, Unique t := by
  have hstart : Unique (ObjectTracker.newObjectTracker (R := R) (Q := Q) now) :=
    ⟨List.nodup_nil, List.nodup_nil⟩
  have hstep : ∀ (t : ObjectTracker R Q) (call : Call R Q), Unique t → FreshCall c E t call →
      Unique (step c E t call) := by
    intro t call hunique hfresh
    exact step_keeps_unique c E hunique hfresh
  exact states_of_keeps hstep hstart h

/-! ## Numbers in place of ids -/

section purge

variable {α β : Type}

/-- `purgeExpiredTracks` for tracks that carry something along. -/
def purgeBy (expired : α → Bool) : List α → List α
  | [] => []
  | [o] => if expired o then [] else [o]
  | o :: next :: objs =>
    if expired o then next :: purgeBy expired objs else o :: purgeBy expired (next :: objs)

theorem purgeBy_map (expired : β → Bool) (f : α → β) (objs : List α) :
    (purgeBy (fun a => expired (f a)) objs).map f = purgeBy expired (objs.map f) := by
  induction objs using purgeBy.induct (fun a => expired (f a)) with
  | case1 => rfl
  | case2 o h => simp [purgeBy, h]
  | case3 o h => simp [purgeBy, h]
  | case4 o next objs h ih => simp [purgeBy, h, ih]
  | case5 o next objs h ih =>
    rw [List.map_cons] at ih
    simp [purgeBy, h, ih]

theorem purgeBy_sublist (expired : α → Bool) (objs : List α) :
    (purgeBy expired objs).Sublist objs := by
  induction objs using purgeBy.induct expired with
  | case1 => exact List.Sublist.refl _
  | case2 o h => simp [purgeBy, h]
  | case3 o h => simp [purgeBy, h]
  | case4 o next objs h ih =>
    simp only [purgeBy, h, if_true]
    exact (ih.cons_cons next).cons o
  | case5 o next objs h ih =>
    simp only [purgeBy, h]
    exact ih.cons_cons o

omit [Add R] [Sub R] [Mul R] [Div R] in
theorem purgeExpiredTracks_eq (c : Config R) (objs : List (TrackedObject R Q)) :
    purgeExpiredTracks c objs = purgeBy (expired c) objs := by
  induction objs using purgeExpiredTracks.induct c with
  | case1 => rfl
  | case2 o h => simp [purgeExpiredTracks, purgeBy, expired, h]
  | case3 o h => simp [purgeExpiredTracks, purgeBy, expired, h]
  | case4 o next objs h ih => simp [purgeExpiredTracks, purgeBy, expired, h, ih]
  | case5 o next objs h ih => simp [purgeExpiredTracks, purgeBy, expired, h, ih]

end purge

/-- What the ids do not tell: how many tracks were started, and for each track how many
of them before it. -/
structure History where
  started : ℕ
  ofSensor : ℕ → List ℕ
  ofFused : List ℕ

/-- No track was started. -/
def History.begin : History := ⟨0, fun _ => [], []⟩

/-- The numbers of the tracks that are left when a measurement has been taken in. -/
def keptNumbers (c : Config R) (measurement sensor_track : SensorObjects R Q)
    (numbers : List ℕ) : List ℕ :=
  if measurement.time_stamp < sensor_track.time_stamp then numbers
  else
    let delta_time := deltaTime measurement.time_stamp sensor_track.time_stamp
    let updated := sensor_track.objects.map (TrackedObject.update c delta_time)
    (purgeBy (fun track => expired c track.1) (updated.zip numbers)).map (·.2)

/-- The history of a sensor after a measurement. -/
def History.measure (c : Config R) (t : ObjectTracker R Q) (h : History) (obj : SensorObjects R Q) :
    History :=
  let internal_track := (findTrack obj.src_id obj.time_stamp t.internal_tracks_).2.1
  { h with
    started := h.started + births c obj internal_track
    ofSensor := Function.update h.ofSensor obj.src_id
      (keptNumbers c obj internal_track (h.ofSensor obj.src_id) ++
        List.range' h.started (births c obj internal_track)) }

/-- The history of the fused tracks after the merged objects. -/
def History.fuse (c : Config R) (E : Geometry R Q) (choices : Choices R Q) (t : ObjectTracker R Q)
    (h : History) : History :=
  match mergeTracks c E choices.iterate t.internal_tracks_ with
  | none => h
  | some merged =>
    let tracked := ObjectTracker.fusedBefore t.tracked_sensor_ merged
    { h with
      started := h.started + births c merged tracked
      ofFused := keptNumbers c merged tracked h.ofFused ++
        List.range' h.started (births c merged tracked) }

/-- A measurement, with the history kept beside the tracker. -/
def measureStep (c : Config R) (E : Geometry R Q) (s : ObjectTracker R Q × History)
    (obj : SensorObjects R Q) : ObjectTracker R Q × History :=
  (s.1.processMeasurement c E obj, s.2.measure c s.1 obj)

/-- A call, with the history kept beside the tracker. -/
def historyStep (c : Config R) (E : Geometry R Q) (s : ObjectTracker R Q × History)
    (call : Call R Q) : ObjectTracker R Q × History :=
  (step c E s.1 call,
    match call with
    | .addObjects _ _ _ => s.2
    | .process choices =>
      if s.1.process_q_.isEmpty then s.2
      else
        let emptied := run (measureStep c E) s (choices.sort s.1.process_q_)
        emptied.2.fuse c E choices emptied.1)

omit [Add R] [Sub R] [Mul R] [Div R] [DoubleOps R] in
/-- The tracks of the sensors are all among the last 2^16 that were started. -/
def SensorsRecent (s : ObjectTracker R Q × History) : Prop :=
  ∀ track ∈ s.1.internal_tracks_, ∀ b ∈ s.2.ofSensor track.src_id, s.2.started ≤ b + 2 ^ 16

/-- And so are the fused ones. -/
def History.FusedRecent (h : History) : Prop := ∀ b ∈ h.ofFused, h.started ≤ b + 2 ^ 16

/-- No track lives through a turn of the counter: whenever tracks are started, those of the
sensors, or the fused ones, are among the last 2^16. -/
def NoneLivesLong (c : Config R) (E : Geometry R Q) (s : ObjectTracker R Q × History) :
    Call R Q → Prop
  | .addObjects _ _ _ => True
  | .process choices =>
    s.1.process_q_.isEmpty = true ∨
      EachCall (measureStep c E) (fun s obj => SensorsRecent (measureStep c E s obj)) s
          (choices.sort s.1.process_q_) ∧
        (historyStep c E s (.process choices)).2.FusedRecent

/-- What the history says of the tracker. -/
structure Tells (s : ObjectTracker R Q × History) : Prop where
  counter : s.1.last_id_ = 1 + BitVec.ofNat 16 s.2.started
  keyed : Keyed s.1.internal_tracks_
  sensors : ∀ track ∈ s.1.internal_tracks_,
    ids track.objects = (s.2.ofSensor track.src_id).map (idAt (1 : BitVec 16))
  unseen : ∀ src_id, (∀ track ∈ s.1.internal_tracks_, track.src_id ≠ src_id) →
    s.2.ofSensor src_id = []
  fused : ids s.1.tracked_sensor_.objects = s.2.ofFused.map (idAt (1 : BitVec 16))
  before : ∀ src_id, ∀ b ∈ s.2.ofSensor src_id, b < s.2.started
  fusedBefore : ∀ b ∈ s.2.ofFused, b < s.2.started

/-- The tracks that are kept have the ids of the numbers that are kept. -/
theorem keptIds_eq (c : Config R) (measurement : SensorObjects R Q) {sensor_track : SensorObjects R Q}
    {numbers : List ℕ} (h : ids sensor_track.objects = numbers.map (idAt (1 : BitVec 16))) :
    keptIds c measurement sensor_track =
        (keptNumbers c measurement sensor_track numbers).map (idAt (1 : BitVec 16)) ∧
      keptNumbers c measurement sensor_track numbers ⊆ numbers := by
  unfold keptIds keptNumbers survivors
  split
  · exact ⟨h, List.Subset.refl _⟩
  · dsimp only
    generalize hupdated : sensor_track.objects.map (TrackedObject.update c
      (deltaTime measurement.time_stamp sensor_track.time_stamp)) = updated
    have hids : ids updated = numbers.map (idAt (1 : BitVec 16)) := by
      rw [← hupdated, ← h]
      exact ids_of_map (fun o => by rfl) _
    have hlength : updated.length = numbers.length := by
      simpa [ids] using congrArg List.length hids
    have hfst : (updated.zip numbers).map (·.1) = updated := List.map_fst_zip hlength.le
    have hsnd : (updated.zip numbers).map (·.2) = numbers := List.map_snd_zip hlength.ge
    have hpairs : ∀ track ∈ updated.zip numbers, track.1.id = idAt (1 : BitVec 16) track.2 := by
      rw [← List.map_inj_left]
      calc (updated.zip numbers).map (fun track => track.1.id)
          = ids ((updated.zip numbers).map (·.1)) := by rw [ids, List.map_map]; rfl
        _ = ((updated.zip numbers).map (·.2)).map (idAt (1 : BitVec 16)) := by rw [hfst, hsnd, hids]
        _ = (updated.zip numbers).map (fun track => idAt (1 : BitVec 16) track.2) := List.map_map
    have hsub := purgeBy_sublist (fun track => expired c track.1) (updated.zip numbers)
    constructor
    · rw [purgeExpiredTracks_eq, ← hfst, ← purgeBy_map, hfst, ids, List.map_map, List.map_map]
      apply List.map_congr_left
      intro track htrack
      exact hpairs track (hsub.subset htrack)
    · intro b hb
      rw [← hsnd]
      exact (hsub.map _).subset hb

omit [Add R] [Sub R] [Mul R] [Div R] in
theorem addUnassociated_next (last_id : BitVec 16) (objs : List (TrackedObject R Q)) :
    (addUnassociated last_id objs).1 = last_id + BitVec.ofNat 16 objs.length := by
  induction objs generalizing last_id with
  | nil => exact (BitVec.add_zero last_id).symm
  | cons o objs ih =>
    have hnext : BitVec.ofNat 16 (objs.length + 1) = 1 + BitVec.ofNat 16 objs.length := by
      rw [Nat.add_comm, BitVec.ofNat_add]
      rfl
    rw [List.length_cons, hnext, ← BitVec.add_assoc, ← ih]
    rfl

theorem processObjects_next (c : Config R) (E : Geometry R Q) (last_id : BitVec 16)
    (measurement sensor_track : SensorObjects R Q) :
    (processObjects c E last_id measurement sensor_track).1 =
      last_id + BitVec.ofNat 16 (births c measurement sensor_track) := by
  unfold processObjects births
  split
  · exact (BitVec.add_zero last_id).symm
  · exact addUnassociated_next last_id _

/-- The ids after a measurement are those of the numbers after it. -/
theorem processObjects_numbers (c : Config R) (E : Geometry R Q) (started : ℕ)
    (measurement : SensorObjects R Q) {sensor_track : SensorObjects R Q} {numbers : List ℕ}
    (h : ids sensor_track.objects = numbers.map (idAt (1 : BitVec 16))) :
    ids (processObjects c E (1 + BitVec.ofNat 16 started) measurement sensor_track).2.objects =
      (keptNumbers c measurement sensor_track numbers ++
        List.range' started (births c measurement sensor_track)).map (idAt (1 : BitVec 16)) := by
  rw [processObjects_ids, (keptIds_eq c measurement h).1, handedOut_after, List.map_append]

/-- The numbers after a measurement are of tracks that were started before. -/
theorem numbers_lt (c : Config R) {started : ℕ} (measurement : SensorObjects R Q)
    {sensor_track : SensorObjects R Q} {numbers : List ℕ}
    (h : ids sensor_track.objects = numbers.map (idAt (1 : BitVec 16)))
    (hbefore : ∀ b ∈ numbers, b < started) :
    ∀ b ∈ keptNumbers c measurement sensor_track numbers ++
        List.range' started (births c measurement sensor_track),
      b < started + births c measurement sensor_track := by
  intro b hb
  rcases List.mem_append.mp hb with hb | hb
  · have := hbefore b ((keptIds_eq c measurement h).2 hb)
    omega
  · exact (List.mem_range'_1.mp hb).2

omit [Add R] [Sub R] [Mul R] [Div R] [DoubleOps R] in
theorem findTrack_others (src_id : ℕ) (time_stamp : ℤ) {tracks : List (SensorObjects R Q)}
    (h : Keyed tracks) : ∀ track ∈ (findTrack src_id time_stamp tracks).1 ++
      (findTrack src_id time_stamp tracks).2.2, track ∈ tracks ∧ track.src_id ≠ src_id := by
  intro track htrack
  obtain ⟨-, hbefore, hafter, -⟩ := findTrack_keys src_id time_stamp h
  have hspec := findTrack_spec src_id time_stamp tracks
  constructor
  · rcases hspec with hspec | ⟨hspec, -⟩
    · rw [hspec]
      rcases List.mem_append.mp htrack with hmem | hmem
      · exact List.mem_append_left _ hmem
      · exact List.mem_append_right _ (List.mem_cons_of_mem _ hmem)
    · rw [hspec]
      exact htrack
  · rcases List.mem_append.mp htrack with hmem | hmem
    · exact (hbefore track hmem).ne
    · exact (hafter track hmem).ne'

omit [Add R] [Sub R] [Mul R] [Div R] [DoubleOps R] in
theorem mem_findTrack (src_id : ℕ) (time_stamp : ℤ) {tracks : List (SensorObjects R Q)}
    {track : SensorObjects R Q} (h : track ∈ tracks) :
    track = (findTrack src_id time_stamp tracks).2.1 ∨
      track ∈ (findTrack src_id time_stamp tracks).1 ++ (findTrack src_id time_stamp tracks).2.2 := by
  rcases findTrack_spec src_id time_stamp tracks with hspec | ⟨hspec, -⟩
  · rw [hspec] at h
    simp only [List.mem_append, List.mem_cons] at h ⊢
    tauto
  · exact Or.inr (hspec ▸ h)

omit [Add R] [Sub R] [Mul R] [Div R] [DoubleOps R] in
theorem Tells.found {s : ObjectTracker R Q × History} (h : Tells s) (src_id : ℕ) (time_stamp : ℤ) :
    ids (findTrack src_id time_stamp s.1.internal_tracks_).2.1.objects =
      (s.2.ofSensor src_id).map (idAt (1 : BitVec 16)) := by
  have hspec := findTrack_spec src_id time_stamp s.1.internal_tracks_
  have hsame := (findTrack_keys src_id time_stamp h.keyed).1
  have hothers := findTrack_others src_id time_stamp h.keyed
  generalize findTrack src_id time_stamp s.1.internal_tracks_ = found at hspec hsame hothers ⊢
  rcases hspec with hspec | ⟨hspec, hnew⟩
  · have hmem : found.2.1 ∈ s.1.internal_tracks_ := by
      rw [hspec]
      simp
    rw [h.sensors _ hmem, hsame]
  · have hnone : s.2.ofSensor src_id = [] := by
      apply h.unseen
      intro track htrack
      rw [hspec] at htrack
      exact (hothers track htrack).2
    rw [hnew, hnone]
    rfl

theorem tells_measureStep (c : Config R) (E : Geometry R Q) {s : ObjectTracker R Q × History}
    (h : Tells s) (obj : SensorObjects R Q) : Tells (measureStep c E s obj) := by
  have hfound := h.found obj.src_id obj.time_stamp
  have hkeyed := (processMeasurement_stamps c E h.keyed obj).1
  have hkeys := findTrack_keys obj.src_id obj.time_stamp h.keyed
  have hold := findTrack_others obj.src_id obj.time_stamp h.keyed
  have hmem := fun track (htrack : track ∈ s.1.internal_tracks_) =>
    mem_findTrack obj.src_id obj.time_stamp htrack
  have hlt := numbers_lt c obj hfound (h.before obj.src_id)
  have hcounter := processObjects_next c E s.1.last_id_ obj
    (findTrack obj.src_id obj.time_stamp s.1.internal_tracks_).2.1
  have hnumbers := processObjects_numbers c E s.2.started obj hfound
  have hsrc := processObjects_src_id c E s.1.last_id_ obj
    (findTrack obj.src_id obj.time_stamp s.1.internal_tracks_).2.1
  rw [← h.counter] at hnumbers
  unfold measureStep History.measure
  unfold ObjectTracker.processMeasurement at hkeyed ⊢
  generalize findTrack obj.src_id obj.time_stamp s.1.internal_tracks_ = found at *
  obtain ⟨before, internal_track, after⟩ := found
  dsimp only at *
  have hsame := hkeys.1
  rw [hsame] at hsrc
  have haround : ∀ track,
      track ∈ before ++ (processObjects c E s.1.last_id_ obj internal_track).2 :: after ↔
        track = (processObjects c E s.1.last_id_ obj internal_track).2 ∨ track ∈ before ++ after := by
    intro track
    simp only [List.mem_append, List.mem_cons]
    tauto
  refine ⟨?_, hkeyed, ?_, ?_, h.fused, ?_, ?_⟩
  · show (processObjects c E s.1.last_id_ obj internal_track).1 = _
    rw [hcounter, h.counter, BitVec.add_assoc, ← BitVec.ofNat_add]
  · intro track htrack
    dsimp only
    rcases (haround track).mp htrack with rfl | hother
    · rw [hsrc, Function.update_self]
      exact hnumbers
    · obtain ⟨hmem, hne⟩ := hold track hother
      rw [Function.update_of_ne hne]
      exact h.sensors track hmem
  · intro src_id hnone
    dsimp only at hnone ⊢
    have hne : src_id ≠ obj.src_id := by
      rintro rfl
      exact hnone _ ((haround _).mpr (Or.inl rfl)) hsrc
    rw [Function.update_of_ne hne]
    apply h.unseen
    intro track htrack
    rcases hmem track htrack with rfl | hother
    · rw [hsame]
      exact hne.symm
    · exact hnone track ((haround track).mpr (Or.inr hother))
  · intro src_id b hb
    dsimp only at hb ⊢
    by_cases hne : src_id = obj.src_id
    · subst hne
      rw [Function.update_self] at hb
      exact hlt b hb
    · rw [Function.update_of_ne hne] at hb
      have := h.before src_id b hb
      omega
  · intro b hb
    have := h.fusedBefore b hb
    dsimp only
    omega

/-- And so do the merged objects. -/
theorem tells_fuse (c : Config R) (E : Geometry R Q) (choices : Choices R Q)
    {s : ObjectTracker R Q × History} (h : Tells s) :
    Tells (s.1.fuse c E choices, s.2.fuse c E choices s.1) := by
  unfold ObjectTracker.fuse History.fuse
  cases mergeTracks c E choices.iterate s.1.internal_tracks_ with
  | none => exact h
  | some merged =>
    have hids : ids (ObjectTracker.fusedBefore s.1.tracked_sensor_ merged).objects =
        s.2.ofFused.map (idAt (1 : BitVec 16)) := (fusedBefore_ids _ _).trans h.fused
    have hnumbers := processObjects_numbers c E s.2.started merged hids
    rw [← h.counter] at hnumbers
    refine ⟨?_, h.keyed, h.sensors, h.unseen, hnumbers, ?_, numbers_lt c _ hids h.fusedBefore⟩
    · dsimp only
      rw [processObjects_next, h.counter, BitVec.add_assoc, ← BitVec.ofNat_add]
    · intro src_id b hb
      have := h.before src_id b hb
      dsimp only
      omega

/-! ## Fresh ids -/

/-- No more tracks are started at once than there are ids where the new ones are all among
the last. -/
theorem births_le {started n : ℕ} (h : ∀ b ∈ List.range' started n, started + n ≤ b + 2 ^ 16) :
    n ≤ 2 ^ 16 := by
  by_cases hn : n = 0
  · omega
  · have := h started (List.mem_range'_1.mpr ⟨le_rfl, by omega⟩)
    omega

theorem fresh_of_sensorsRecent (c : Config R) (E : Geometry R Q) {s : ObjectTracker R Q × History}
    (h : Tells s) {obj : SensorObjects R Q} (hrecent : SensorsRecent (measureStep c E s obj)) :
    FreshMeasurement c s.1 obj := by
  have hfound := h.found obj.src_id obj.time_stamp
  have hkeys := findTrack_keys obj.src_id obj.time_stamp h.keyed
  have hold := findTrack_others obj.src_id obj.time_stamp h.keyed
  have hsrc := processObjects_src_id c E s.1.last_id_ obj
    (findTrack obj.src_id obj.time_stamp s.1.internal_tracks_).2.1
  unfold FreshMeasurement
  unfold SensorsRecent measureStep History.measure ObjectTracker.processMeasurement at hrecent
  generalize findTrack obj.src_id obj.time_stamp s.1.internal_tracks_ = found at *
  obtain ⟨before, internal_track, after⟩ := found
  dsimp only at *
  obtain ⟨hkept, hsub⟩ := keptIds_eq c obj hfound
  rw [hkeys.1] at hsrc
  generalize (processObjects c E s.1.last_id_ obj internal_track).2 = next at hrecent hsrc
  generalize births c obj internal_track = n at hrecent ⊢
  have hmine := hrecent next (by simp)
  rw [hsrc, Function.update_self] at hmine
  have hothers : ∀ track ∈ before ++ after, ∃ born : List ℕ,
      ids track.objects = born.map (idAt (1 : BitVec 16)) ∧
        ∀ b ∈ born, b < s.2.started ∧ s.2.started + n ≤ b + 2 ^ 16 := by
    intro track htrack
    obtain ⟨hmem, hne⟩ := hold track htrack
    have hin : track ∈ before ++ next :: after := by
      simp only [List.mem_append, List.mem_cons] at htrack ⊢
      tauto
    refine ⟨_, h.sensors track hmem, fun b hb => ⟨h.before _ b hb, ?_⟩⟩
    exact hrecent track hin b (by rw [Function.update_of_ne hne]; exact hb)
  rw [h.counter]
  refine ⟨births_le fun b hb => hmine b (List.mem_append_right _ hb), ?_⟩
  intro k hk hheld
  -- the id belongs to a track that one of the numbers stands for
  have hborn : ∃ born : List ℕ, (1 + BitVec.ofNat 16 s.2.started + BitVec.ofNat 16 k).toNat ∈
      born.map (idAt (1 : BitVec 16)) ∧
        ∀ b ∈ born, b < s.2.started ∧ s.2.started + n ≤ b + 2 ^ 16 := by
    rw [List.mem_append, List.mem_append] at hheld
    rcases hheld with (hheld | hheld) | hheld
    · obtain ⟨track, htrack, hid⟩ := List.mem_flatMap.mp hheld
      obtain ⟨born, hids, hnumbers⟩ := hothers track (List.mem_append_left _ htrack)
      exact ⟨born, hids ▸ hid, hnumbers⟩
    · refine ⟨_, hkept ▸ hheld, fun b hb => ⟨h.before _ b (hsub hb), ?_⟩⟩
      exact hmine b (List.mem_append_left _ hb)
    · obtain ⟨track, htrack, hid⟩ := List.mem_flatMap.mp hheld
      obtain ⟨born, hids, hnumbers⟩ := hothers track (List.mem_append_right _ htrack)
      exact ⟨born, hids ▸ hid, hnumbers⟩
  obtain ⟨born, hid, hnumbers⟩ := hborn
  have hfresh := fresh_of_recent (1 : BitVec 16) (n := n)
    (births_le fun b hb => hmine b (List.mem_append_right _ hb)) hnumbers
  exact hfresh.2 k hk hid

theorem fresh_of_fusedRecent (c : Config R) (E : Geometry R Q) (choices : Choices R Q)
    {s : ObjectTracker R Q × History} (h : Tells s)
    (hrecent : (s.2.fuse c E choices s.1).FusedRecent) : FreshFuse c E choices s.1 := by
  intro merged hmerged
  have hids : ids (ObjectTracker.fusedBefore s.1.tracked_sensor_ merged).objects =
      s.2.ofFused.map (idAt (1 : BitVec 16)) := (fusedBefore_ids _ _).trans h.fused
  obtain ⟨hkept, hsub⟩ := keptIds_eq c merged hids
  unfold History.fuse at hrecent
  rw [Option.mem_def.mp hmerged] at hrecent
  unfold History.FusedRecent at hrecent
  dsimp only at hrecent
  rw [h.counter, hkept]
  refine fresh_of_recent _ (births_le fun b hb => hrecent b (List.mem_append_right _ hb)) ?_
  intro b hb
  exact ⟨h.fusedBefore b (hsub hb), hrecent b (List.mem_append_left _ hb)⟩

theorem run_measureStep (c : Config R) (E : Geometry R Q) (s : ObjectTracker R Q × History)
    (queue : List (SensorObjects R Q)) :
    (run (measureStep c E) s queue).1 = run (ObjectTracker.processMeasurement c E) s.1 queue := by
  induction queue generalizing s with
  | nil => rfl
  | cons obj queue ih => exact ih _

/-- A queue of measurements after each of which the tracks are recent. -/
theorem fresh_of_queue (c : Config R) (E : Geometry R Q) {queue : List (SensorObjects R Q)}
    {s : ObjectTracker R Q × History} (h : Tells s)
    (hrecent : EachCall (measureStep c E) (fun s obj => SensorsRecent (measureStep c E s obj)) s
      queue) :
    EachCall (ObjectTracker.processMeasurement c E) (FreshMeasurement c) s.1 queue ∧
      Tells (run (measureStep c E) s queue) := by
  induction queue generalizing s with
  | nil => exact ⟨trivial, h⟩
  | cons obj queue ih =>
    obtain ⟨hnow, hlater⟩ := hrecent
    obtain ⟨hrest, htells⟩ := ih (tells_measureStep c E h obj) hlater
    exact ⟨⟨fresh_of_sensorsRecent c E h hnow, hrest⟩, htells⟩

theorem fresh_of_noneLivesLong (c : Config R) (E : Geometry R Q) {s : ObjectTracker R Q × History}
    (h : Tells s) {call : Call R Q} (hshort : NoneLivesLong c E s call) :
    FreshCall c E s.1 call ∧ Tells (historyStep c E s call) := by
  cases call with
  | addObjects objects src_id time_stamp =>
    exact ⟨trivial, h.counter, h.keyed, h.sensors, h.unseen, h.fused, h.before, h.fusedBefore⟩
  | process choices =>
    by_cases hqueue : s.1.process_q_.isEmpty = true
    · refine ⟨Or.inl hqueue, ?_⟩
      unfold historyStep
      simp only [hqueue, if_true]
      rw [step_process_idle c E hqueue]
      exact h
    · obtain ⟨hmeasurements, hfused⟩ := hshort.resolve_left hqueue
      obtain ⟨hfresh, htells⟩ := fresh_of_queue c E h hmeasurements
      unfold historyStep at hfused ⊢
      simp only [if_neg hqueue] at hfused ⊢
      have hemptied := run_measureStep c E s (choices.sort s.1.process_q_)
      rw [step_process c E hqueue, processQueue_eq_run, ← hemptied]
      generalize run (measureStep c E) s (choices.sort s.1.process_q_) = emptied at *
      have htells' : Tells ({ emptied.1 with process_q_ := [] }, emptied.2) :=
        ⟨htells.counter, htells.keyed, htells.sensors, htells.unseen, htells.fused, htells.before,
          htells.fusedBefore⟩
      refine ⟨Or.inr ⟨hfresh, ?_⟩, tells_fuse c E choices htells'⟩
      rw [processQueue_eq_run, ← hemptied]
      have hfuse := fresh_of_fusedRecent c E choices htells' hfused
      exact hfuse

omit [Add R] [Sub R] [Mul R] [Div R] [DoubleOps R] in
theorem tells_new [DoubleOps R] (now : ℤ) :
    Tells ((ObjectTracker.newObjectTracker now : ObjectTracker R Q), History.begin) where
  counter := rfl
  keyed := List.Pairwise.nil
  sensors := nofun
  unseen _ _ := rfl
  fused := rfl
  before _ := nofun
  fusedBefore := nofun

/-- In a run in which no track lives through a turn of the counter, no two tracks of the
sensors and no two fused tracks ever have one id. -/
theorem ids_stay_apart (c : Config R) (E : Geometry R Q) (now : ℤ) (calls : List (Call R Q))
    (h : EachCall (historyStep c E) (NoneLivesLong c E) (.newObjectTracker now, .begin) calls) :
    ∀ t ∈ states (step c E) (ObjectTracker.newObjectTracker now) calls, Unique t := by
  have hfresh : ∀ (calls : List (Call R Q)) (s : ObjectTracker R Q × History), Tells s →
      EachCall (historyStep c E) (NoneLivesLong c E) s calls →
      EachCall (step c E) (FreshCall c E) s.1 calls := by
    intro calls
    induction calls with
    | nil => exact fun _ _ _ => trivial
    | cons call calls ih =>
      intro s htells hshort
      obtain ⟨hnow, hnext⟩ := fresh_of_noneLivesLong c E htells hshort.1
      exact ⟨hnow, ih _ hnext hshort.2⟩
  exact unique_of_fresh c E now calls (hfresh calls _ (tells_new now) h)

instance (s : ObjectTracker R Q × History) : Decidable (SensorsRecent s) :=
  inferInstanceAs (Decidable (∀ track ∈ _, ∀ b ∈ _, _))

instance (h : History) : Decidable h.FusedRecent := inferInstanceAs (Decidable (∀ b ∈ _, _))

instance decidableNoneLivesLong (c : Config R) (E : Geometry R Q)
    (s : ObjectTracker R Q × History) (call : Call R Q) : Decidable (NoneLivesLong c E s call) :=
  match call with
  | .addObjects _ _ _ => isTrue trivial
  | .process _ => inferInstanceAs (Decidable (_ ∨ _))

/-- Two vehicles that a sensor sees twice: first they get tracks, then fused tracks. -/
theorem ids_stay_apart_two_vehicles :
    let seen := [standing 0 (pv_LinearVelocity ||| pv_AngularVelocity),
      standing 100 (pv_LinearVelocity ||| pv_AngularVelocity)]
    let calls := [Call.addObjects seen 7 0, .process plainChoices, .addObjects seen 7 10000,
      .process plainChoices]
    (run (step defaultConfig straightGeometry) (.newObjectTracker 0) calls).last_id_ = 5 ∧
      ∀ t ∈ states (step defaultConfig straightGeometry) (.newObjectTracker 0) calls, Unique t := by
  refine ⟨by decide +kernel, ids_stay_apart _ _ _ _ ?_⟩
  decide +kernel

/-! ## When the counter gets round -/

/-- The measured objects are pairwise too far apart for one track. -/
def FarApart (c : Config R) (objects : List (TrackedObject R Q)) : Prop :=
  objects.Pairwise (fun earlier later =>
    lt (later.distanceToSquared earlier) c.tracker_unassociated_group_dist = false)

omit [Div R] in
theorem foldl_of_farApart (c : Config R) {started rest : List (TrackedObject R Q)}
    (h : FarApart c (started ++ rest)) :
    rest.foldl (considerMeasurement c []) started = started ++ rest := by
  induction rest generalizing started with
  | nil => simp
  | cons o rest ih =>
    have hfar : started.any (fun other =>
        lt (o.distanceToSquared other) c.tracker_unassociated_group_dist) = false := by
      rw [List.any_eq_false]
      intro other hother
      have := (List.pairwise_append.mp h).2.2 other hother o List.mem_cons_self
      simp [this]
    have hstarted : considerMeasurement c [] started o = started ++ [o] := by
      unfold considerMeasurement
      simp [hfar]
    rw [List.foldl_cons, hstarted, ih (by simpa using h)]
    simp

theorem births_of_farApart (c : Config R) (measurement : SensorObjects R Q)
    (h : FarApart c measurement.objects) :
    births c measurement ⟨measurement.src_id, measurement.time_stamp, []⟩ =
      measurement.objects.length := by
  have hnone : survivors c measurement ⟨measurement.src_id, measurement.time_stamp, []⟩ = [] := rfl
  have hall : measurement.objects.foldl (considerMeasurement c []) [] = measurement.objects :=
    foldl_of_farApart c h
  unfold births unassociatedTracks
  rw [if_neg (Int.lt_irrefl _), hnone, hall]

/-- A first measurement of more objects than there are ids, all far apart, gives two
tracks of one id. -/
theorem crowd_repeats_an_id (c : Config R) (E : Geometry R Q) (now : ℤ)
    {objects : List (TrackedObject R Q)} (src_id : ℕ) (time_stamp : ℤ) (choices : Choices R Q)
    (hcrowd : 2 ^ 16 < objects.length) (hapart : FarApart c objects) :
    ¬ Unique (run (step c E) (.newObjectTracker now)
      [.addObjects objects src_id time_stamp, .process choices]) := by
  rw [run_cons, run_cons, run_nil]
  generalize hadded : step c E (.newObjectTracker now) (.addObjects objects src_id time_stamp) = t
  have hqueue : t.process_q_ =
      [⟨src_id, time_stamp, objects.map (fun o => { o with src_id := src_id })⟩] := by
    rw [← hadded]
    rfl
  have htracks : t.internal_tracks_ = [] := by
    rw [← hadded]
    rfl
  have hsorted := (choices.sort_perm t.process_q_).trans (List.Perm.of_eq hqueue)
  rw [List.perm_singleton] at hsorted
  rw [step_process c E (by rw [hqueue]; simp)]
  rintro ⟨hinternal, -⟩
  rw [fuse_internal_tracks_, processQueue_eq_run, hsorted, run_cons, run_nil] at hinternal
  have hfresh := (processMeasurement_apart_iff c E (by rw [htracks]; exact List.nodup_nil) _).mp
    hinternal
  unfold FreshMeasurement at hfresh
  rw [htracks] at hfresh
  have hsent : FarApart c (objects.map (fun o => { o with src_id := src_id })) := by
    unfold FarApart
    rw [List.pairwise_map]
    exact hapart
  have hbirths := births_of_farApart c ⟨src_id, time_stamp, _⟩ hsent
  have hfew := hfresh.1
  simp only [findTrack] at hfew
  rw [hbirths, List.length_map] at hfew
  omega

/-- Standing objects ten metres from one to the next. -/
def row (n : ℕ) : List (TrackedObject ℚ Quaternion) :=
  (List.range n).map (fun i : ℕ =>
    standing (mkRat (10 * (i : ℤ)) 1) (pv_LinearVelocity ||| pv_AngularVelocity))

theorem row_length (n : ℕ) : (row n).length = n := by simp [row]

theorem row_farApart (n : ℕ) : FarApart defaultConfig (row n) := by
  unfold FarApart row
  rw [List.pairwise_map]
  refine List.pairwise_lt_range.imp ?_
  intro i j hij
  have hgap : (1 : ℚ) ≤ (j : ℚ) - i := by
    have : (i : ℚ) + 1 ≤ j := by exact_mod_cast hij
    linarith
  have hfar : ¬ ((10 * (j : ℚ) - 10 * i) * (10 * (j : ℚ) - 10 * i) < 2) := by nlinarith
  have hplace : ∀ k : ℕ, mkRat (10 * (k : ℤ)) 1 = 10 * (k : ℚ) := by
    intro k
    rw [Rat.mkRat_one]
    push_cast
    rfl
  simpa [standing, defaultConfig, TrackedObject.distanceToSquared, Vector3d.sub,
    Vector3d.squaredNorm, lt, hplace] using hfar

/-- A sensor that sees one object more than there are ids gets one id twice. -/
theorem ids_come_back :
    ¬ ∀ (c : Config ℚ) (E : Geometry ℚ Quaternion) (now : ℤ) (calls : List (Call ℚ Quaternion)),
      ∀ t ∈ states (step c E) (.newObjectTracker now) calls, Unique t := by
  intro h
  refine crowd_repeats_an_id defaultConfig straightGeometry 0 7 0 plainChoices ?_
    (row_farApart 65537) (h _ _ _ _ _ (run_mem_states _ _ _))
  rw [row_length]
  decide

end carma.object_tracker
