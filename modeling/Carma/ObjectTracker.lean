-- The object tracker of sensor fusion: the tracks that it keeps for each sensor,
-- the merged objects, and the fused tracks. The functions are those of
-- `ObjectTracker`, less the raw sensor data that the objects carry along.
import Mathlib.Data.Int.Notation
import Mathlib.Data.List.Basic
import Mathlib.Order.Defs.LinearOrder
import Mathlib.Algebra.Field.Rat
import Mathlib.Algebra.Order.Ring.Rat
import Mathlib.Data.List.Sort
import Carma.Lib.Runs

open lib.runs

namespace carma.object_tracker

/-! ## Numbers -/

/-- What the tracker asks of a double, next to its arithmetic. Nothing is
assumed of the answers. -/
class DoubleOps (R : Type) where
  /-- The double of an integer. -/
  ofInt : ℤ → R
  lt : R → R → Bool
  le : R → R → Bool
  /-- `d < std::numeric_limits<double>::infinity()`. -/
  belowInfinity : R → Bool
  /-- What a float keeps of a double. -/
  toFloat : R → R

open DoubleOps

/-- The exact numbers of a field. -/
instance exactDoubles {K : Type} [Field K] [LinearOrder K] : DoubleOps K where
  ofInt i := (i : K)
  lt x y := decide (x < y)
  le x y := decide (x ≤ y)
  belowInfinity _ := true
  toFloat x := x

structure Vector3d (R : Type) where
  x : R
  y : R
  z : R
deriving DecidableEq, Repr

/-- What the tracker uses of Eigen's quaternions, and of cmath. -/
structure Geometry (R Q : Type) where
  identity : Q
  /-- `setFromTwoVectors` with `UnitX` as the second vector. -/
  setFromTwoVectors : Vector3d R → Q
  /-- `toRotationMatrix().hasNaN()`. -/
  hasNaN : Q → Bool
  mul : Q → Q → Q
  inverse : Q → Q
  w : Q → R
  /-- The axis of `AngleAxisd`. -/
  axis : Q → Vector3d R
  isZero : Vector3d R → Bool
  normalized : Vector3d R → Vector3d R
  acos : R → R
  pi : R

/-! ## Objects -/

structure TrackedObject (R Q : Type) where
  object_life : R
  presence_vector : BitVec 16
  id : ℕ
  position : Vector3d R
  dimensions : Vector3d R
  orientation : Q
  linear_velocity : Vector3d R
  angular_velocity : Vector3d R
  confidence : R
  tracked_score : R
  src_id : ℕ
deriving DecidableEq

def pv_ID : BitVec 16 := 1 <<< 0
def pv_Position : BitVec 16 := 1 <<< 1
def pv_Dimensions : BitVec 16 := 1 <<< 2
def pv_Orientation : BitVec 16 := 1 <<< 3
def pv_LinearVelocity : BitVec 16 := 1 <<< 4
def pv_AngularVelocity : BitVec 16 := 1 <<< 5
def pv_Confidence : BitVec 16 := 1 <<< 6

/-- `ObjectTrackerSensorObjects`. Time stamps are in microseconds. -/
structure SensorObjects (R Q : Type) where
  src_id : ℕ
  time_stamp : ℤ
  objects : List (TrackedObject R Q)
deriving DecidableEq

structure Config (R : Type) where
  tracker_life_time_decay : R
  tracker_life_time_divider : R
  tracker_life_time_threshold : R
  tracker_out_of_range_dist : R
  tracker_unassociated_group_dist : R
  tracker_score_threshold : R

section tracker

variable {R Q : Type} [Add R] [Sub R] [Mul R] [Div R] [DoubleOps R]

namespace Vector3d

def zero : Vector3d R := ⟨ofInt 0, ofInt 0, ofInt 0⟩

def add (u v : Vector3d R) : Vector3d R := ⟨u.x + v.x, u.y + v.y, u.z + v.z⟩

def sub (u v : Vector3d R) : Vector3d R := ⟨u.x - v.x, u.y - v.y, u.z - v.z⟩

def scale (r : R) (v : Vector3d R) : Vector3d R := ⟨r * v.x, r * v.y, r * v.z⟩

def divide (v : Vector3d R) (r : R) : Vector3d R := ⟨v.x / r, v.y / r, v.z / r⟩

def squaredNorm (v : Vector3d R) : R := v.x * v.x + v.y * v.y + v.z * v.z

end Vector3d

namespace TrackedObject

/-- `presence_vector & flag`. -/
def has (o : TrackedObject R Q) (flag : BitVec 16) : Bool := o.presence_vector &&& flag != 0

def distanceToSquared (o other : TrackedObject R Q) : R :=
  (o.position.sub other.position).squaredNorm

/-- `update`: a step of time with the velocity as it is. -/
def update (c : Config R) (delta_time : R) (obj : TrackedObject R Q) : TrackedObject R Q :=
  let confidence := obj.confidence - c.tracker_life_time_decay * delta_time
  { obj with
    position := obj.position.add (obj.linear_velocity.scale delta_time)
    object_life := toFloat (obj.object_life - c.tracker_life_time_decay * delta_time)
    confidence := if lt confidence (ofInt 0) then ofInt 0 else confidence }

end TrackedObject

/-- The orientation of an object with this velocity. -/
def facing (E : Geometry R Q) (velocity : Vector3d R) : Q :=
  if E.isZero velocity then E.identity
  else if E.hasNaN (E.setFromTwoVectors velocity) then E.identity
  else E.setFromTwoVectors velocity

/-- The angular velocity from a change of the orientation. -/
def turnRate (E : Geometry R Q) (orientation old_orientation : Q) (dt : R) : Vector3d R :=
  let r := E.mul orientation (E.inverse old_orientation)
  let theta := ofInt 2 * E.acos (E.w r)
  let theta := if lt E.pi theta then theta - ofInt 2 * E.pi else theta
  (E.normalized (E.axis r)).scale (theta / dt)

/-- `correct`: an alpha-beta filter on the measurement. -/
def correct (E : Geometry R Q) (track measurement : TrackedObject R Q) (dt : R) :
    TrackedObject R Q :=
  let position_error := measurement.position.sub track.position
  let smoothing := track.tracked_score
  let alpha := ofInt 1 - smoothing * smoothing
  let beta := (ofInt 1 - smoothing) * (ofInt 1 - smoothing)
  let linear_velocity :=
    if measurement.has pv_LinearVelocity then measurement.linear_velocity
    else track.linear_velocity.add ((position_error.scale beta).divide dt)
  let orientation := facing E linear_velocity
  { track with
    position := track.position.add (position_error.scale alpha)
    linear_velocity := linear_velocity
    dimensions :=
      if measurement.has pv_Dimensions then measurement.dimensions else track.dimensions
    orientation := orientation
    angular_velocity :=
      if measurement.has pv_AngularVelocity then measurement.angular_velocity
      else turnRate E orientation track.orientation dt
    object_life := ofInt 1
    tracked_score :=
      (track.tracked_score + track.confidence + measurement.confidence) / ofInt 3
    confidence := measurement.confidence }

/-! ## Measurements against tracks -/

/-- `purgeExpiredTracks`. The place of an erased object is taken by the next
one, which the loop does not look at. -/
def purgeExpiredTracks (c : Config R) : List (TrackedObject R Q) → List (TrackedObject R Q)
  | [] => []
  | [o] => if le o.object_life c.tracker_life_time_threshold then [] else [o]
  | o :: next :: objs =>
    if le o.object_life c.tracker_life_time_threshold then next :: purgeExpiredTracks c objs
    else o :: purgeExpiredTracks c (next :: objs)

/-- `distSquared < best_score`, where no score yet stands for infinity. -/
def beats (distSquared : R) : Option R → Bool
  | none => belowInfinity distSquared
  | some best_score => lt distSquared best_score

/-- `track_best_candidate`: the nearest measured object in range of a track. -/
def bestCandidate (c : Config R) (measured : List (TrackedObject R Q)) (track : TrackedObject R Q) :
    Option (TrackedObject R Q) :=
  (measured.foldl (fun best measurement =>
    let distSquared := measurement.distanceToSquared track
    if lt distSquared c.tracker_out_of_range_dist && beats distSquared (best.map (·.1)) then
      some (distSquared, measurement)
    else best) none).map (·.2)

/-- The `unassociated_tracks` after one more measured object: it is one of them when it
is out of range of all tracks, and not near to one of them. -/
def considerMeasurement (c : Config R) (tracked unassociated : List (TrackedObject R Q))
    (measurement : TrackedObject R Q) : List (TrackedObject R Q) :=
  if tracked.any (fun track =>
      lt (measurement.distanceToSquared track) c.tracker_out_of_range_dist) then unassociated
  else if unassociated.any (fun other =>
      lt (measurement.distanceToSquared other) c.tracker_unassociated_group_dist) then unassociated
  else unassociated ++ [measurement]

def unassociatedTracks (c : Config R) (measured tracked : List (TrackedObject R Q)) :
    List (TrackedObject R Q) :=
  measured.foldl (considerMeasurement c tracked) []

/-- The new objects with their ids, and the id for the next one. -/
def addUnassociated (last_id : BitVec 16) :
    List (TrackedObject R Q) → BitVec 16 × List (TrackedObject R Q)
  | [] => (last_id, [])
  | new_object :: objs =>
    let (next_id, rest) := addUnassociated (last_id + 1) objs
    (next_id, { new_object with
      object_life := ofInt 1
      tracked_score := ofInt 0
      id := last_id.toNat } :: rest)

/-- The seconds between two time stamps. -/
def deltaTime (time_stamp since : ℤ) : R := ofInt (time_stamp - since) / ofInt 1000000

/-- The tracks that a measurement finds: brought up to its time, less those that expired. -/
def survivors (c : Config R) (measurement sensor_track : SensorObjects R Q) :
    List (TrackedObject R Q) :=
  let delta_time := deltaTime measurement.time_stamp sensor_track.time_stamp
  purgeExpiredTracks c (sensor_track.objects.map (TrackedObject.update c delta_time))

/-- What becomes of one track: it is corrected, or its life runs out faster. -/
def matchTrack (c : Config R) (E : Geometry R Q) (measured : List (TrackedObject R Q))
    (delta_time : R) (track : TrackedObject R Q) : TrackedObject R Q :=
  match bestCandidate c measured track with
  | some candidate => correct E track candidate delta_time
  | none => { track with object_life := toFloat (track.object_life / c.tracker_life_time_divider) }

/-- `processObjects`. It gives the next id, and the tracks. -/
def processObjects (c : Config R) (E : Geometry R Q) (last_id : BitVec 16)
    (measurement sensor_track : SensorObjects R Q) : BitVec 16 × SensorObjects R Q :=
  if measurement.time_stamp < sensor_track.time_stamp then (last_id, sensor_track)
  else
    let delta_time := deltaTime measurement.time_stamp sensor_track.time_stamp
    let tracked := survivors c measurement sensor_track
    let unassociated := unassociatedTracks c measurement.objects tracked
    let (next_id, new_objects) := addUnassociated last_id unassociated
    (next_id, { sensor_track with
      objects := tracked.map (matchTrack c E measurement.objects delta_time) ++ new_objects
      time_stamp := measurement.time_stamp })

/-! ## Merging -/

def weightedSum (vector : TrackedObject R Q → Vector3d R) (list : List (TrackedObject R Q)) :
    Vector3d R :=
  list.foldl (fun sum o => Vector3d.add sum ((vector o).scale o.tracked_score)) .zero

def totalScore (list : List (TrackedObject R Q)) : R :=
  list.foldl (fun sum o => sum + o.tracked_score) (ofInt 0)

def computeMeanObject (E : Geometry R Q) (list : List (TrackedObject R Q)) : TrackedObject R Q :=
  let weight := totalScore list
  let linear_velocity := (weightedSum (·.linear_velocity) list).divide weight
  let tracked_score := weight / ofInt list.length
  { object_life := ofInt 0
    presence_vector := pv_ID ||| pv_Position ||| pv_Orientation ||| pv_LinearVelocity |||
      pv_AngularVelocity ||| pv_Confidence
    id := 0
    position := (weightedSum (·.position) list).divide weight
    dimensions := .zero
    orientation := facing E linear_velocity
    linear_velocity := linear_velocity
    angular_velocity := (weightedSum (·.angular_velocity) list).divide weight
    confidence := tracked_score
    tracked_score := tracked_score
    src_id := 0 }

/-- The id of `std::min_element` by the ids. -/
def minId : List (TrackedObject R Q) → ℕ
  | [] => 0
  | o :: list => list.foldl (fun least other => if other.id < least then other.id else least) o.id

/-- What stands for several objects: their mean, under the least of their ids. -/
def mergedObject (E : Geometry R Q) (members : List (TrackedObject R Q)) : TrackedObject R Q :=
  { computeMeanObject E members with src_id := 0, id := minId members }

/-- An element of `out_track`, with the element of `neighbours_track` at its index. -/
structure Neighbours (R Q : Type) where
  out : TrackedObject R Q
  members : List (TrackedObject R Q)

/-- The best candidate so far for `o`, with its score, after one more object and its index. -/
def nearer (o : TrackedObject R Q) (best : Option (R × ℕ)) (candidate : TrackedObject R Q × ℕ) :
    Option (R × ℕ) :=
  let distSquared := o.distanceToSquared candidate.1
  if beats distSquared (best.map (·.1)) then some (distSquared, candidate.2) else best

/-- The entry of `getDisjointNeighbours` for one object: the index of the nearest one. -/
def nearestNeighbour (second : List (TrackedObject R Q)) (o : TrackedObject R Q) : Option ℕ :=
  (second.zipIdx.foldl (nearer o) none).map (·.2)

/-- `getDisjointNeighbours`, each object with the index of the one nearest to it. -/
def getDisjointNeighbours (first second : List (TrackedObject R Q)) :
    List (TrackedObject R Q × Option ℕ) :=
  first.map (fun o => (o, nearestNeighbour second o))

/-- An object goes to its nearest neighbours when these are still near to it,
and else it starts a group of its own. -/
def mergeObject (c : Config R) (E : Geometry R Q) (groups : List (Neighbours R Q))
    (neighbour_pair : TrackedObject R Q × Option ℕ) : List (Neighbours R Q) :=
  let (o, nearest) := neighbour_pair
  let alone := groups ++ [⟨o, [o]⟩]
  match nearest with
  | none => alone
  | some j =>
    match groups[j]? with
    | none => alone
    | some group =>
      if lt (o.distanceToSquared group.out) c.tracker_score_threshold then
        let members := group.members ++ [o]
        groups.set j ⟨mergedObject E members, members⟩
      else alone

/-- The copy of a sensor's objects that is merged: brought up to the time of
the latest sensor, less those without a score. -/
def currentObjects (c : Config R) (latest : ℤ) (track : SensorObjects R Q) :
    List (TrackedObject R Q) :=
  (track.objects.map (TrackedObject.update c (deltaTime latest track.time_stamp))).filter
    (fun o => !le o.tracked_score (ofInt 0))

/-- An order of iteration of an unordered map. -/
structure Iteration (α : Type) where
  run : List α → List α
  perm : ∀ entries, (run entries).Perm entries

/-- What is merged of one sensor. `iteration` is the order of its neighbour map. -/
def mergeSensor (c : Config R) (E : Geometry R Q) (latest : ℤ)
    (iteration : Iteration (TrackedObject R Q × Option ℕ)) (groups : List (Neighbours R Q))
    (track : SensorObjects R Q) : List (Neighbours R Q) :=
  (iteration.run (getDisjointNeighbours (currentObjects c latest track) (groups.map (·.out)))).foldl
    (mergeObject c E) groups

/-- The latest time stamp of the tracks. -/
def latestStamp (first : SensorObjects R Q) (tracks : List (SensorObjects R Q)) : ℤ :=
  tracks.foldl (fun latest track =>
    if latest < track.time_stamp then track.time_stamp else latest) first.time_stamp

/-- The groups that `mergeTracks` makes of the tracks, sensor by sensor. -/
def mergeGroups (c : Config R) (E : Geometry R Q)
    (iterate : ℕ → Iteration (TrackedObject R Q × Option ℕ)) (latest : ℤ)
    (tracks : List (SensorObjects R Q)) : List (Neighbours R Q) :=
  tracks.foldl (fun groups track => mergeSensor c E latest (iterate track.src_id) groups track) []

/-- `mergeTracks`, nothing where there are no tracks. `iterate` gives the order
of the neighbour map of each sensor. -/
def mergeTracks (c : Config R) (E : Geometry R Q)
    (iterate : ℕ → Iteration (TrackedObject R Q × Option ℕ)) :
    List (SensorObjects R Q) → Option (SensorObjects R Q)
  | [] => none
  | first :: tracks =>
    let latest := latestStamp first tracks
    some ⟨0, latest, (mergeGroups c E iterate latest (first :: tracks)).map (·.out)⟩

/-! ## The tracker -/

/-- `ObjectTracker`. `internal_tracks_` has an entry for each sensor, by the order
of their ids. -/
structure ObjectTracker (R Q : Type) where
  last_id_ : BitVec 16
  process_q_ : List (SensorObjects R Q)
  internal_tracks_ : List (SensorObjects R Q)
  tracked_sensor_ : SensorObjects R Q

/-- The orders that the library chooses in one call of `process`: one of the queue by
the time stamps, and those of the neighbour maps. -/
structure Choices (R Q : Type) where
  sort : List (SensorObjects R Q) → List (SensorObjects R Q)
  sort_perm : ∀ queue, (sort queue).Perm queue
  sort_sorted : ∀ queue, (sort queue).Pairwise (fun left right => left.time_stamp ≤ right.time_stamp)
  iterate : ℕ → Iteration (TrackedObject R Q × Option ℕ)

/-- `find`, and `insert` where nothing is found: the tracks before those of the
sensor, its own, and those after. -/
def findTrack (src_id : ℕ) (time_stamp : ℤ) : List (SensorObjects R Q) →
    List (SensorObjects R Q) × SensorObjects R Q × List (SensorObjects R Q)
  | [] => ([], ⟨src_id, time_stamp, []⟩, [])
  | track :: tracks =>
    if track.src_id < src_id then
      let (before, internal_track, after) := findTrack src_id time_stamp tracks
      (track :: before, internal_track, after)
    else if track.src_id = src_id then ([], track, tracks)
    else ([], ⟨src_id, time_stamp, []⟩, track :: tracks)

namespace ObjectTracker

/-- `new ObjectTracker`. `now` is the time of the timer. -/
def newObjectTracker (now : ℤ) : ObjectTracker R Q where
  last_id_ := 1
  process_q_ := []
  internal_tracks_ := []
  tracked_sensor_ := ⟨0, now, []⟩

def addObjects (t : ObjectTracker R Q) (objects : List (TrackedObject R Q)) (src_id : ℕ)
    (time_stamp : ℤ) : ObjectTracker R Q :=
  { t with process_q_ :=
      t.process_q_ ++ [⟨src_id, time_stamp, objects.map (fun o => { o with src_id := src_id })⟩] }

/-- The body of the loop over the queue. -/
def processMeasurement (c : Config R) (E : Geometry R Q) (t : ObjectTracker R Q)
    (obj : SensorObjects R Q) : ObjectTracker R Q :=
  let (before, internal_track, after) := findTrack obj.src_id obj.time_stamp t.internal_tracks_
  let (next_id, internal_track) := processObjects c E t.last_id_ obj internal_track
  { t with last_id_ := next_id, internal_tracks_ := before ++ internal_track :: after }

/-- The loop over the queue, which is empty afterwards. -/
def processQueue (c : Config R) (E : Geometry R Q) (choices : Choices R Q) (t : ObjectTracker R Q) :
    ObjectTracker R Q :=
  { (choices.sort t.process_q_).foldl (processMeasurement c E) t with process_q_ := [] }

/-- The fused list as it meets the merged measurement. -/
def fusedBefore (tracked merged : SensorObjects R Q) : SensorObjects R Q :=
  if tracked.objects.isEmpty then
    { tracked with src_id := merged.src_id, time_stamp := merged.time_stamp }
  else { tracked with objects := tracked.objects.map (fun o => { o with tracked_score := ofInt 0 }) }

/-- What `process` does once the queue is empty. There always are tracks then. -/
def fuse (c : Config R) (E : Geometry R Q) (choices : Choices R Q) (t : ObjectTracker R Q) :
    ObjectTracker R Q :=
  match mergeTracks c E choices.iterate t.internal_tracks_ with
  | none => t
  | some merged =>
    let (next_id, tracked) :=
      processObjects c E t.last_id_ merged (fusedBefore t.tracked_sensor_ merged)
    { t with last_id_ := next_id, tracked_sensor_ := tracked }

/-- `process`. It gives the number of measurements in the queue. -/
def process (c : Config R) (E : Geometry R Q) (choices : Choices R Q) (t : ObjectTracker R Q) :
    ℕ × ObjectTracker R Q :=
  if t.process_q_.isEmpty then (0, t)
  else (t.process_q_.length, (t.processQueue c E choices).fuse c E choices)

end ObjectTracker

/-- A call of the tracker. -/
inductive Call (R Q : Type) where
  | addObjects (objects : List (TrackedObject R Q)) (src_id : ℕ) (time_stamp : ℤ)
  | process (choices : Choices R Q)

/-- The tracker after a call. -/
def step (c : Config R) (E : Geometry R Q) (t : ObjectTracker R Q) :
    Call R Q → ObjectTracker R Q
  | .addObjects objects src_id time_stamp => t.addObjects objects src_id time_stamp
  | .process choices => (t.process c E choices).2

/-! ## What the parts leave as it was -/

section frames

omit [Add R] [Sub R] [Mul R] [Div R] in
/-- What is left after a purge stands in the order that it had. -/
theorem purgeExpiredTracks_sublist (c : Config R) (objs : List (TrackedObject R Q)) :
    (purgeExpiredTracks c objs).Sublist objs := by
  induction objs using purgeExpiredTracks.induct c with
  | case1 => exact List.Sublist.refl _
  | case2 o h => simp [purgeExpiredTracks, h]
  | case3 o h => simp [purgeExpiredTracks, h]
  | case4 o next objs h ih =>
    simp only [purgeExpiredTracks, h, if_true]
    exact (ih.cons_cons next).cons o
  | case5 o next objs h ih =>
    simp only [purgeExpiredTracks, h]
    exact ih.cons_cons o

omit [Add R] [Sub R] [Mul R] [Div R] [DoubleOps R] in
theorem findTrack_spec (src_id : ℕ) (time_stamp : ℤ) (tracks : List (SensorObjects R Q)) :
    let found := findTrack src_id time_stamp tracks
    tracks = found.1 ++ found.2.1 :: found.2.2 ∨
      tracks = found.1 ++ found.2.2 ∧ found.2.1 = ⟨src_id, time_stamp, []⟩ := by
  induction tracks with
  | nil => exact Or.inr ⟨rfl, rfl⟩
  | cons track tracks ih =>
    unfold findTrack
    split
    · rcases ih with hfound | ⟨hfound, hnew⟩
      · left
        conv_lhs => rw [hfound]
        rfl
      · right
        refine ⟨?_, hnew⟩
        conv_lhs => rw [hfound]
        rfl
    · split
      · exact Or.inl rfl
      · exact Or.inr ⟨rfl, rfl⟩

@[simp] theorem fuse_internal_tracks_ (c : Config R) (E : Geometry R Q) (choices : Choices R Q)
    (t : ObjectTracker R Q) : (t.fuse c E choices).internal_tracks_ = t.internal_tracks_ := by
  unfold ObjectTracker.fuse
  split
  · rfl
  · rfl

theorem processQueue_eq_run (c : Config R) (E : Geometry R Q) (choices : Choices R Q)
    (t : ObjectTracker R Q) :
    t.processQueue c E choices =
      { run (ObjectTracker.processMeasurement c E) t (choices.sort t.process_q_) with
        process_q_ := [] } := rfl

@[simp] theorem processQueue_tracked_sensor_ (c : Config R) (E : Geometry R Q)
    (choices : Choices R Q) (t : ObjectTracker R Q) :
    (t.processQueue c E choices).tracked_sensor_ = t.tracked_sensor_ := by
  rw [processQueue_eq_run]
  have hframe : ∀ (s : ObjectTracker R Q) obj,
      s.tracked_sensor_ = t.tracked_sensor_ →
      (s.processMeasurement c E obj).tracked_sensor_ = t.tracked_sensor_ := fun s obj h => h
  exact run_keeps_always hframe rfl (choices.sort t.process_q_)

theorem step_process_idle (c : Config R) (E : Geometry R Q) {t : ObjectTracker R Q}
    (h : t.process_q_.isEmpty = true) (choices : Choices R Q) :
    step c E t (.process choices) = t := by
  unfold step ObjectTracker.process
  simp only [if_pos h]

theorem step_process (c : Config R) (E : Geometry R Q) {t : ObjectTracker R Q}
    (h : ¬ t.process_q_.isEmpty = true) (choices : Choices R Q) :
    step c E t (.process choices) = (t.processQueue c E choices).fuse c E choices := by
  unfold step ObjectTracker.process
  simp only [if_neg h]

end frames

/-! ## A setting to run it in -/

def defaultConfig : Config ℚ where
  tracker_life_time_decay := Rat.ofInt 10
  tracker_life_time_divider := Rat.ofInt 2
  tracker_life_time_threshold := mkRat 1 10
  tracker_out_of_range_dist := Rat.ofInt 5
  tracker_unassociated_group_dist := Rat.ofInt 2
  tracker_score_threshold := mkRat 35 100

/-- A quaternion with rational parts. -/
structure Quaternion where
  w : ℚ
  axis : Vector3d ℚ
deriving DecidableEq

/-- The geometry of objects that stand, or move along the x axis: they never turn. -/
def straightGeometry : Geometry ℚ Quaternion where
  identity := ⟨Rat.ofInt 1, ⟨Rat.ofInt 0, Rat.ofInt 0, Rat.ofInt 0⟩⟩
  setFromTwoVectors _ := ⟨Rat.ofInt 1, ⟨Rat.ofInt 0, Rat.ofInt 0, Rat.ofInt 0⟩⟩
  hasNaN _ := false
  mul q _ := q
  inverse q := q
  w q := q.w
  axis _ := ⟨Rat.ofInt 1, Rat.ofInt 0, Rat.ofInt 0⟩
  isZero v := decide (v = ⟨Rat.ofInt 0, Rat.ofInt 0, Rat.ofInt 0⟩)
  normalized v := v
  acos _ := Rat.ofInt 0
  pi := mkRat 314159265 100000000

/-- The queue in a stable order, and the neighbour maps in that of their keys. -/
def plainChoices : Choices R Q where
  sort queue := queue.insertionSort (fun left right => left.time_stamp ≤ right.time_stamp)
  sort_perm queue := List.perm_insertionSort _ queue
  sort_sorted queue := by
    have : Std.Total (fun left right : SensorObjects R Q => left.time_stamp ≤ right.time_stamp) :=
      ⟨fun a b => Int.le_total _ _⟩
    have : IsTrans (SensorObjects R Q) (fun left right => left.time_stamp ≤ right.time_stamp) :=
      ⟨fun a b c => Int.le_trans⟩
    exact List.pairwise_insertionSort _ queue
  iterate _ := ⟨fun entries => entries, fun _ => List.Perm.refl _⟩

/-- An object that stands at `x` on the x axis, with the given parts present. -/
def standing (x : ℚ) (presence_vector : BitVec 16) : TrackedObject ℚ Quaternion where
  object_life := Rat.ofInt 1
  presence_vector := presence_vector
  id := 0
  position := ⟨x, Rat.ofInt 0, Rat.ofInt 0⟩
  dimensions := ⟨Rat.ofInt 0, Rat.ofInt 0, Rat.ofInt 0⟩
  orientation := ⟨Rat.ofInt 1, ⟨Rat.ofInt 0, Rat.ofInt 0, Rat.ofInt 0⟩⟩
  linear_velocity := ⟨Rat.ofInt 0, Rat.ofInt 0, Rat.ofInt 0⟩
  angular_velocity := ⟨Rat.ofInt 0, Rat.ofInt 0, Rat.ofInt 0⟩
  confidence := Rat.ofInt 1
  tracked_score := Rat.ofInt 0
  src_id := 0

end tracker

/-! ## Expired tracks

The loop that purges them goes on past the place of the one that it erased, so of two that stand
side by side the second one stays, and measurements are matched with it. -/

section expired

variable {R Q : Type} [DoubleOps R]

/-- `object_life <= tracker_life_time_threshold`: what a purge is to take out. -/
def expired (c : Config R) (o : TrackedObject R Q) : Bool :=
  le o.object_life c.tracker_life_time_threshold

/-- No two tracks that stand side by side have both expired. -/
def ExpiredApart (c : Config R) (objs : List (TrackedObject R Q)) : Prop :=
  objs.IsChain (fun o next => ¬ (expired c o ∧ expired c next))

theorem purgeExpiredTracks_keeps_live (c : Config R) (objs : List (TrackedObject R Q)) :
    (purgeExpiredTracks c objs).filter (! expired c ·) = objs.filter (! expired c ·) := by
  induction objs using purgeExpiredTracks.induct c with
  | case1 => rfl
  | case2 o h => simp [purgeExpiredTracks, expired, h]
  | case3 o h => simp [purgeExpiredTracks, h]
  | case4 o next objs h ih =>
    have ho : expired c o = true := h
    simp only [purgeExpiredTracks, h, if_true]
    rw [List.filter_cons, List.filter_cons, List.filter_cons, ih]
    simp [ho]
  | case5 o next objs h ih =>
    simp only [purgeExpiredTracks, h]
    rw [if_neg Bool.false_ne_true, List.filter_cons, ih, List.filter_cons (x := o)]

theorem expiredApart_cons_live {c : Config R} {o : TrackedObject R Q}
    (h : ¬ expired c o) (objs : List (TrackedObject R Q)) :
    ExpiredApart c (o :: objs) ↔ ExpiredApart c objs := by
  cases objs with
  | nil => simp [ExpiredApart]
  | cons next objs => simp [ExpiredApart, h]

theorem purgeExpiredTracks_live_iff (c : Config R) (objs : List (TrackedObject R Q)) :
    (∀ o ∈ purgeExpiredTracks c objs, ¬ expired c o) ↔ ExpiredApart c objs := by
  induction objs using purgeExpiredTracks.induct c with
  | case1 => simp [purgeExpiredTracks, ExpiredApart]
  | case2 o h => simp [purgeExpiredTracks, ExpiredApart, h]
  | case3 o h => simp [purgeExpiredTracks, ExpiredApart, expired, h]
  | case4 o next objs h ih =>
    have ho : expired c o := h
    simp only [purgeExpiredTracks, h, if_true]
    rw [List.forall_mem_cons, ih]
    have hpair : ExpiredApart c (o :: next :: objs) ↔
        ¬ expired c next ∧ ExpiredApart c (next :: objs) := by
      simp [ExpiredApart, ho]
    rw [hpair]
    apply and_congr_right
    intro hnext
    exact (expiredApart_cons_live hnext objs).symm
  | case5 o next objs h ih =>
    have ho : ¬ expired c o := h
    simp only [purgeExpiredTracks, h]
    rw [if_neg Bool.false_ne_true, List.forall_mem_cons, ih, expiredApart_cons_live ho]
    exact and_iff_right ho

variable [Add R] [Sub R] [Mul R] [Div R]

/-- A purge leaves just the live tracks, in their order, when no two that stand side
by side have expired, and only then; and only then are the tracks all live that
`processObjects` compares the measurements with. -/
theorem purge_leaves_the_live_tracks_iff (c : Config R) (objs : List (TrackedObject R Q))
    (measurement sensor_track : SensorObjects R Q) :
    (purgeExpiredTracks c objs = objs.filter (! expired c ·) ↔ ExpiredApart c objs) ∧
    ((∀ track ∈ survivors c measurement sensor_track, ¬ expired c track) ↔
      ExpiredApart c (sensor_track.objects.map (TrackedObject.update c
        (deltaTime measurement.time_stamp sensor_track.time_stamp)))) := by
  refine ⟨?_, purgeExpiredTracks_live_iff c _⟩
  rw [← purgeExpiredTracks_live_iff, ← purgeExpiredTracks_keeps_live, eq_comm,
    List.filter_eq_self]
  simp

/-- An object at `x` whose life has run out. -/
def gone (x : ℚ) : TrackedObject ℚ Quaternion :=
  { standing x pv_Position with object_life := Rat.ofInt 0 }

/-- Two expired tracks side by side: the second one stays, and a measurement at its
place would be taken for it. -/
theorem an_expired_track_stays :
    ¬ ∀ (c : Config ℚ) (objs : List (TrackedObject ℚ Quaternion))
      (measurement sensor_track : SensorObjects ℚ Quaternion),
      purgeExpiredTracks c objs = objs.filter (! expired c ·) ∧
      ∀ track ∈ survivors c measurement sensor_track, ¬ expired c track := by
  intro h
  have hlive := (h defaultConfig [gone 0, gone 9] ⟨0, 0, [standing 9 pv_Position]⟩
    ⟨0, 0, [gone 0, gone 9]⟩).2
  exact absurd hlive (by decide +kernel)

end expired

end carma.object_tracker
