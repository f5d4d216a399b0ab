-- Merging of the sensors in exact arithmetic. Each object with a score goes to one
-- group. Which one depends on the order of the objects, as a group moves with each
-- object that joins it, unless the verdict on each object stays the same whatever
-- comes before it.
import Mathlib.Algebra.Order.Field.Basic
import Mathlib.Data.List.Forall2
import Mathlib.Tactic.Ring
import Carma.Lib.GreedyGroups
import Carma.ObjectTracker

open lib.greedy_groups

namespace carma.object_tracker

open DoubleOps

variable {K Q : Type} [Field K] [LinearOrder K]

/-! ## Means -/

theorem weightedSum_perm (vector : TrackedObject K Q → Vector3d K) {a b : List (TrackedObject K Q)}
    (h : a.Perm b) : weightedSum vector a = weightedSum vector b := by
  unfold weightedSum
  refine h.foldl_eq' ?_ _
  intro o _ other _ sum
  simp only [Vector3d.add, Vector3d.mk.injEq]
  refine ⟨?_, ?_, ?_⟩ <;> ring

theorem totalScore_perm {a b : List (TrackedObject K Q)} (h : a.Perm b) :
    totalScore a = totalScore b := by
  unfold totalScore
  refine h.foldl_eq' ?_ _
  intro o _ other _ sum
  ring

section ids

omit [Field K] [LinearOrder K]

theorem min?_ids {members : List (TrackedObject K Q)} (h : members ≠ []) :
    (members.map (·.id)).min? = some (minId members) := by
  cases members with
  | nil => exact absurd rfl h
  | cons first rest =>
    have hmin : (fun (least : ℕ) (other : TrackedObject K Q) => min least other.id) =
        fun least other => if other.id < least then other.id else least := by
      funext least other
      split <;> omega
    rw [List.map_cons, List.min?_cons', List.foldl_map, hmin]
    rfl

theorem minId_perm {a b : List (TrackedObject K Q)} (h : a.Perm b) : minId a = minId b := by
  by_cases ha : a = []
  · rw [ha] at h ⊢
    rw [h.nil_eq]
  · have hb : b ≠ [] := fun hb => ha (by rw [hb] at h; exact h.eq_nil)
    have hids := h.map (·.id)
    obtain ⟨hmem, hle⟩ := List.min?_eq_some_iff.mp (min?_ids ha)
    obtain ⟨hmem', hle'⟩ := List.min?_eq_some_iff.mp (min?_ids hb)
    exact Nat.le_antisymm (hle _ (hids.mem_iff.mpr hmem')) (hle' _ (hids.mem_iff.mp hmem))

end ids

theorem mergedObject_perm (E : Geometry K Q) {a b : List (TrackedObject K Q)} (h : a.Perm b) :
    mergedObject E a = mergedObject E b := by
  unfold mergedObject computeMeanObject
  rw [totalScore_perm h, minId_perm h, h.length_eq, weightedSum_perm (·.position) h,
    weightedSum_perm (·.linear_velocity) h, weightedSum_perm (·.angular_velocity) h]

/-! ## What stands for a group -/

/-- The object that stands for a group: its only member, or what its members make. -/
def outOf (E : Geometry K Q) : List (TrackedObject K Q) → TrackedObject K Q
  | [o] => o
  | members => mergedObject E members

theorem outOf_perm (E : Geometry K Q) {a b : List (TrackedObject K Q)} (h : a.Perm b) :
    outOf E a = outOf E b := by
  match a, b, h with
  | [o], b, h => rw [List.singleton_perm.mp h]
  | [], b, h => rw [h.nil_eq]
  | o :: o' :: a, [], h => exact absurd h.length_eq (by simp)
  | o :: o' :: a, [p], h => exact absurd h.length_eq (by simp)
  | o :: o' :: a, p :: p' :: b, h => exact mergedObject_perm E h

/-- The same without an order of the members. -/
def outOfGroup (E : Geometry K Q) (members : Multiset (TrackedObject K Q)) : TrackedObject K Q :=
  Quot.lift (outOf E) (fun _ _ h => outOf_perm E h) members

def distTo (E : Geometry K Q) (o : TrackedObject K Q) (members : Multiset (TrackedObject K Q)) : K :=
  o.distanceToSquared (outOfGroup E members)

def nearTo (c : Config K) (E : Geometry K Q) (o : TrackedObject K Q)
    (members : Multiset (TrackedObject K Q)) : Bool :=
  lt (distTo E o members) c.tracker_score_threshold

/-- The group that an element of `out_track` and `neighbours_track` shows. -/
structure Shows (E : Geometry K Q) (n : Neighbours K Q) (g : Cluster (TrackedObject K Q)) : Prop where
  members : (↑n.members : Multiset (TrackedObject K Q)) = g.members
  some_member : n.members ≠ []
  out : n.out = outOf E n.members

theorem Shows.out_eq {E : Geometry K Q} {n : Neighbours K Q} {g : Cluster (TrackedObject K Q)}
    (h : Shows E n g) : n.out = outOfGroup E g.members := by
  rw [← h.members]
  exact h.out

section lists

variable {α β : Type*} {rel : α → β → Prop}

theorem forall₂_getElem? {as : List α} {bs : List β} (h : List.Forall₂ rel as bs) (j : ℕ) :
    (as[j]? = none ∧ bs[j]? = none) ∨ ∃ a b, as[j]? = some a ∧ bs[j]? = some b ∧ rel a b := by
  induction h generalizing j with
  | nil => simp
  | cons hab _ ih =>
    cases j with
    | zero => simp [hab]
    | succ j => simpa using ih j

theorem forall₂_set {as : List α} {bs : List β} (h : List.Forall₂ rel as bs) (j : ℕ) {a : α} {b : β}
    (hab : rel a b) : List.Forall₂ rel (as.set j a) (bs.set j b) := by
  induction h generalizing j with
  | nil => simp
  | cons hfirst hrest ih =>
    cases j with
    | zero => exact List.Forall₂.cons hab hrest
    | succ j => exact List.Forall₂.cons hfirst (ih j)

end lists

theorem mergeObject_shows (c : Config K) (E : Geometry K Q) (n : ℕ) {groups : List (Neighbours K Q)}
    {clusters : List (Cluster (TrackedObject K Q))} (h : List.Forall₂ (Shows E) groups clusters)
    (pair : TrackedObject K Q × Option ℕ) :
    List.Forall₂ (Shows E) (mergeObject c E groups pair) (place (nearTo c E) n clusters pair) := by
  obtain ⟨o, nearest⟩ := pair
  have halone : List.Forall₂ (Shows E) (groups ++ [⟨o, [o]⟩]) (clusters ++ [⟨n, {o}⟩]) := by
    apply List.rel_append h
    exact List.Forall₂.cons ⟨rfl, by simp, rfl⟩ List.Forall₂.nil
  unfold mergeObject place
  cases nearest with
  | none => exact halone
  | some j =>
    dsimp only
    rcases forall₂_getElem? h j with ⟨hgroup, hcluster⟩ | ⟨group, cluster, hgroup, hcluster, hshows⟩
    · rw [hgroup, hcluster]
      exact halone
    · rw [hgroup, hcluster]
      dsimp only
      have hnear : lt (o.distanceToSquared group.out) c.tracker_score_threshold =
          nearTo c E o cluster.members := by
        rw [hshows.out_eq]
        rfl
      rw [hnear]
      split
      · apply forall₂_set h
        refine ⟨?_, by simp, ?_⟩
        · show (↑(group.members ++ [o]) : Multiset (TrackedObject K Q)) = o ::ₘ cluster.members
          rw [← hshows.members]
          exact Multiset.coe_eq_coe.mpr (List.perm_append_singleton o group.members)
        · -- a group that had a member now has two at least
          obtain ⟨first, rest, hmembers⟩ := List.exists_cons_of_ne_nil hshows.some_member
          rw [hmembers]
          cases rest with
          | nil => rfl
          | cons second rest => rfl
      · exact halone

/-! ## The nearest neighbour -/

/-- The score and the index are those of the first of the nearest objects. -/
def BestOf (o : TrackedObject K Q) (second : List (TrackedObject K Q)) : Option (K × ℕ) → Prop
  | none => second = []
  | some (score, j) => ∃ best, second[j]? = some best ∧ score = o.distanceToSquared best ∧
    ∀ i other, second[i]? = some other →
      score ≤ o.distanceToSquared other ∧ (i < j → score < o.distanceToSquared other)

theorem bestOf_snoc {o : TrackedObject K Q} {second : List (TrackedObject K Q)}
    {found : Option (K × ℕ)} (h : BestOf o second found) (last : TrackedObject K Q) :
    BestOf o (second ++ [last]) (nearer o found (last, second.length)) := by
  cases found with
  | none =>
    rw [show second = [] from h]
    refine ⟨last, rfl, rfl, ?_⟩
    intro i other hother
    cases i with
    | zero =>
      rw [show last = other by simpa using hother]
      exact ⟨le_refl _, fun hlt => absurd hlt (Nat.not_lt_zero 0)⟩
    | succ i => simp at hother
  | some found =>
    obtain ⟨score, j⟩ := found
    obtain ⟨best, hbest, hscore, hall⟩ := h
    have hj := (List.getElem?_eq_some_iff.mp hbest).1
    unfold nearer
    by_cases hbeats : o.distanceToSquared last < score
    · rw [if_pos (by simpa [beats, lt] using hbeats)]
      refine ⟨last, by simp, rfl, ?_⟩
      intro i other hother
      rcases Nat.lt_trichotomy i second.length with hi | rfl | hi
      · rw [List.getElem?_append_left hi] at hother
        have hlt := lt_of_lt_of_le hbeats (hall i other hother).1
        exact ⟨hlt.le, fun _ => hlt⟩
      · rw [show last = other by simpa using hother]
        exact ⟨le_refl _, fun hlt => absurd hlt (Nat.lt_irrefl _)⟩
      · rw [List.getElem?_eq_none (by simp; omega)] at hother
        cases hother
    · rw [if_neg (by simpa [beats, lt] using hbeats)]
      refine ⟨best, by rw [List.getElem?_append_left hj]; exact hbest, hscore, ?_⟩
      intro i other hother
      rcases Nat.lt_trichotomy i second.length with hi | rfl | hi
      · rw [List.getElem?_append_left hi] at hother
        exact hall i other hother
      · rw [← show last = other by simpa using hother]
        exact ⟨not_lt.mp hbeats, fun hlt => absurd hlt (by omega)⟩
      · rw [List.getElem?_eq_none (by simp; omega)] at hother
        cases hother

theorem nearestNeighbour_bestOf (second : List (TrackedObject K Q)) (o : TrackedObject K Q) :
    BestOf o second (second.zipIdx.foldl (nearer o) none) := by
  induction second using List.reverseRecOn with
  | nil => rfl
  | append_singleton second last ih =>
    rw [List.zipIdx_append, List.foldl_append]
    have hstep := bestOf_snoc ih last
    simpa using hstep

theorem nearestNeighbour_firstNearest {E : Geometry K Q} {groups : List (Neighbours K Q)}
    {clusters : List (Cluster (TrackedObject K Q))} (h : List.Forall₂ (Shows E) groups clusters)
    (o : TrackedObject K Q) :
    FirstNearest (distTo E) clusters o (nearestNeighbour (groups.map (·.out)) o) := by
  have hout : ∀ {i : ℕ} {cluster : Cluster (TrackedObject K Q)}, clusters[i]? = some cluster →
      (groups.map (·.out))[i]? = some (outOfGroup E cluster.members) := by
    intro i cluster hcluster
    rcases forall₂_getElem? h i with ⟨-, hnone⟩ | ⟨group, cluster', hgroup, hcluster', hshows⟩
    · rw [hnone] at hcluster
      cases hcluster
    · rw [hcluster', Option.some.injEq] at hcluster
      rw [List.getElem?_map, hgroup, ← hcluster, ← hshows.out_eq]
      rfl
  have hbest := nearestNeighbour_bestOf (groups.map (·.out)) o
  unfold nearestNeighbour
  cases hfound : (groups.map (·.out)).zipIdx.foldl (nearer o) none with
  | none =>
    rw [hfound] at hbest
    have hnone : groups = [] := by simpa [BestOf] using hbest
    rw [hnone, List.forall₂_nil_left_iff] at h
    exact h
  | some found =>
    obtain ⟨score, j⟩ := found
    rw [hfound] at hbest
    obtain ⟨best, hj, hscore, hall⟩ := hbest
    rcases forall₂_getElem? h j with ⟨hnone, -⟩ | ⟨group, cluster, hgroup, hcluster, hshows⟩
    · rw [List.getElem?_map, hnone] at hj
      cases hj
    · refine ⟨cluster, hcluster, ?_⟩
      rw [hout hcluster, Option.some.injEq] at hj
      have hdist : distTo E o cluster.members = score := by
        rw [hscore, ← hj]
        rfl
      intro i cluster' hcluster'
      rw [hdist]
      exact hall i _ (hout hcluster')

/-! ## Merging as a sorting -/

/-- The objects that are merged, sensor by sensor. -/
def batchesOf (c : Config K) (latest : ℤ) (tracks : List (SensorObjects K Q)) :
    List (Multiset (TrackedObject K Q)) :=
  tracks.map (fun track => ↑(currentObjects c latest track))

/-- Merging is a sorting of the objects into groups, with some order in each sensor. -/
theorem mergeGroups_sorting (c : Config K) (E : Geometry K Q)
    (iterate : ℕ → Iteration (TrackedObject K Q × Option ℕ)) (latest : ℤ)
    (tracks : List (SensorObjects K Q)) (n : ℕ) {groups : List (Neighbours K Q)}
    {clusters : List (Cluster (TrackedObject K Q))} (h : List.Forall₂ (Shows E) groups clusters) :
    ∃ result, List.Forall₂ (Shows E)
        (tracks.foldl (fun groups track => mergeSensor c E latest (iterate track.src_id) groups track)
          groups) result ∧
      Sorting (distTo E) (nearTo c E) n clusters (batchesOf c latest tracks) result := by
  induction tracks generalizing n groups clusters with
  | nil => exact ⟨clusters, h, Sorting.done n clusters⟩
  | cons track tracks ih =>
    have hperm := (iterate track.src_id).perm
      (getDisjointNeighbours (currentObjects c latest track) (groups.map (·.out)))
    generalize hitems : (iterate track.src_id).run
      (getDisjointNeighbours (currentObjects c latest track) (groups.map (·.out))) = items at hperm
    have hshows : ∀ (items : List (TrackedObject K Q × Option ℕ)) {groups : List (Neighbours K Q)}
        {clusters : List (Cluster (TrackedObject K Q))}, List.Forall₂ (Shows E) groups clusters →
        List.Forall₂ (Shows E) (items.foldl (mergeObject c E) groups)
          (items.foldl (place (nearTo c E) n) clusters) := by
      intro items
      induction items with
      | nil => exact fun h => h
      | cons pair items ih => exact fun h => ih (mergeObject_shows c E n h pair)
    obtain ⟨result, hresult, hsorting⟩ := ih (n + 1) (hshows items h)
    refine ⟨result, ?_, ?_⟩
    · rw [List.foldl_cons]
      unfold mergeSensor
      rw [hitems]
      exact hresult
    · refine Sorting.batch ?_ ?_ hsorting
      · have hfst := hperm.map Prod.fst
        unfold getDisjointNeighbours at hfst
        rw [List.map_map] at hfst
        have hall : (currentObjects c latest track).map
            (Prod.fst ∘ fun o => (o, nearestNeighbour (groups.map (·.out)) o)) =
            currentObjects c latest track := List.map_id _
        rw [hall] at hfst
        exact Multiset.coe_eq_coe.mpr hfst
      · intro item hitem
        obtain ⟨o, -, rfl⟩ := List.mem_map.mp (hperm.mem_iff.mp hitem)
        exact nearestNeighbour_firstNearest h o

/-! ## Two merges -/

/-- The latest stamp of the tracks, of no use where there are none. -/
def latestOf : List (SensorObjects K Q) → ℤ
  | [] => 0
  | first :: tracks => latestStamp first tracks

/-- The groups that a merge makes of the tracks. -/
def mergedGroups (c : Config K) (E : Geometry K Q)
    (iterate : ℕ → Iteration (TrackedObject K Q × Option ℕ)) (tracks : List (SensorObjects K Q)) :
    List (Neighbours K Q) :=
  mergeGroups c E iterate (latestOf tracks) tracks

def mergedObjects (c : Config K) (E : Geometry K Q)
    (iterate : ℕ → Iteration (TrackedObject K Q × Option ℕ)) (tracks : List (SensorObjects K Q)) :
    List (TrackedObject K Q) :=
  match mergeTracks c E iterate tracks with
  | none => []
  | some merged => merged.objects

theorem mergedObjects_eq (c : Config K) (E : Geometry K Q)
    (iterate : ℕ → Iteration (TrackedObject K Q × Option ℕ)) (tracks : List (SensorObjects K Q)) :
    mergedObjects c E iterate tracks = (mergedGroups c E iterate tracks).map (·.out) := by
  cases tracks with
  | nil => rfl
  | cons first tracks => rfl

/-- The tracks are the same but for the order of the objects of each sensor. -/
def SameTracks (tracks tracks' : List (SensorObjects K Q)) : Prop :=
  List.Forall₂ (fun a b => a.src_id = b.src_id ∧ a.time_stamp = b.time_stamp ∧
    a.objects.Perm b.objects) tracks tracks'

section same

omit [Field K] [LinearOrder K]

theorem SameTracks.latestOf_eq {tracks tracks' : List (SensorObjects K Q)}
    (h : SameTracks tracks tracks') : latestOf tracks = latestOf tracks' := by
  have hfold : ∀ {tracks tracks' : List (SensorObjects K Q)}, SameTracks tracks tracks' →
      ∀ latest : ℤ,
      tracks.foldl (fun latest track =>
        if latest < track.time_stamp then track.time_stamp else latest) latest =
      tracks'.foldl (fun latest track =>
        if latest < track.time_stamp then track.time_stamp else latest) latest := by
    intro tracks tracks' h
    induction h with
    | nil => exact fun _ => rfl
    | cons hfirst _ ih =>
      intro latest
      rw [List.foldl_cons, List.foldl_cons, hfirst.2.1]
      exact ih _
  cases h with
  | nil => rfl
  | cons hfirst hrest =>
    show latestStamp _ _ = latestStamp _ _
    unfold latestStamp
    rw [hfirst.2.1]
    exact hfold hrest _

end same

theorem SameTracks.batchesOf_eq {tracks tracks' : List (SensorObjects K Q)}
    (h : SameTracks tracks tracks') (c : Config K) (latest : ℤ) :
    batchesOf c latest tracks = batchesOf c latest tracks' := by
  unfold batchesOf
  induction h with
  | nil => rfl
  | cons hfirst _ ih =>
    rw [List.map_cons, List.map_cons, ih]
    congr 1
    unfold currentObjects
    rw [hfirst.2.1]
    exact Multiset.coe_eq_coe.mpr ((hfirst.2.2.map _).filter _)

/-- In each batch of the sensors' objects the verdict on every object is the same, whatever
comes before it. -/
def SteadyTracks (c : Config K) (E : Geometry K Q) (tracks : List (SensorObjects K Q)) : Prop :=
  SteadyRun (distTo E) (nearTo c E) 0 0 (batchesOf c (latestOf tracks) tracks)

theorem everyone_of_shows {E : Geometry K Q} {groups : List (Neighbours K Q)}
    {clusters : List (Cluster (TrackedObject K Q))} (h : List.Forall₂ (Shows E) groups clusters) :
    (↑(groups.flatMap (·.members)) : Multiset (TrackedObject K Q)) = everyone clusters := by
  induction h with
  | nil => rfl
  | cons hfirst _ ih =>
    unfold everyone at ih ⊢
    rw [List.flatMap_cons, ← Multiset.coe_add, ih, hfirst.members, List.map_cons, List.sum_cons]

theorem outs_of_shows {E : Geometry K Q} {groups : List (Neighbours K Q)}
    {clusters : List (Cluster (TrackedObject K Q))} (h : List.Forall₂ (Shows E) groups clusters) :
    groups.map (·.out) = clusters.map (fun cluster => outOfGroup E cluster.members) := by
  induction h with
  | nil => rfl
  | cons hfirst _ ih => rw [List.map_cons, List.map_cons, ih, hfirst.out_eq]

theorem batchesOf_sum (c : Config K) (latest : ℤ) (tracks : List (SensorObjects K Q)) :
    (batchesOf c latest tracks).sum = ↑(tracks.flatMap (currentObjects c latest)) := by
  unfold batchesOf
  induction tracks with
  | nil => rfl
  | cons track tracks ih =>
    rw [List.map_cons, List.sum_cons, ih, List.flatMap_cons, Multiset.coe_add]

/-- A merge puts every object with a score into one group, in any order. -/
theorem every_object_in_one_group (c : Config K) (E : Geometry K Q)
    (iterate : ℕ → Iteration (TrackedObject K Q × Option ℕ)) (tracks : List (SensorObjects K Q)) :
    ((mergedGroups c E iterate tracks).flatMap (·.members)).Perm
      (tracks.flatMap (currentObjects c (latestOf tracks))) := by
  obtain ⟨result, hshows, hsorting⟩ := mergeGroups_sorting c E iterate (latestOf tracks) tracks 0
    (List.Forall₂.nil (R := Shows E))
  have hall := hsorting.everyone_eq
  rw [← everyone_of_shows hshows] at hall
  rw [batchesOf_sum, show everyone ([] : List (Cluster (TrackedObject K Q))) = 0 from rfl,
    zero_add] at hall
  exact Multiset.coe_eq_coe.mp hall

/-- Where the verdict on every object is the same whatever comes before it, each object with
a score goes to one group and the merged objects are the same, in any order of the objects
of each sensor and of its neighbour map. -/
theorem steady_merge_ignores_the_order (c : Config K) (E : Geometry K Q)
    {tracks tracks' : List (SensorObjects K Q)} (hsteady : SteadyTracks c E tracks)
    (hsame : SameTracks tracks tracks')
    (iterate iterate' : ℕ → Iteration (TrackedObject K Q × Option ℕ)) :
    ((mergedGroups c E iterate' tracks').flatMap (·.members)).Perm
        (tracks'.flatMap (currentObjects c (latestOf tracks'))) ∧
      (mergedObjects c E iterate tracks).Perm (mergedObjects c E iterate' tracks') := by
  refine ⟨every_object_in_one_group c E iterate' tracks', ?_⟩
  have hnil : List.Forall₂ (Shows E) [] [] := List.Forall₂.nil
  obtain ⟨result, hshows, hsorting⟩ :=
    mergeGroups_sorting c E iterate (latestOf tracks) tracks 0 hnil
  obtain ⟨result', hshows', hsorting'⟩ :=
    mergeGroups_sorting c E iterate' (latestOf tracks') tracks' 0 hnil
  rw [← hsame.latestOf_eq, ← hsame.batchesOf_eq] at hsorting'
  have haged : Aged 0 ([] : List (Cluster (TrackedObject K Q))) :=
    ⟨List.Pairwise.nil, by simp⟩
  have hclusters := sorting_of_steadyRun (distTo E) (nearTo c E) hsteady rfl haged haged hsorting
    hsorting'
  rw [mergedObjects_eq, mergedObjects_eq]
  unfold mergedGroups mergeGroups
  rw [outs_of_shows hshows, outs_of_shows hshows']
  exact (Multiset.coe_eq_coe.mp hclusters).map _

/-! ## Two sensors -/

/-- A standing object with an id and a score. -/
def scored (x : ℚ) (id : ℕ) : TrackedObject ℚ Quaternion :=
  { standing x (pv_LinearVelocity ||| pv_AngularVelocity) with
    id := id
    tracked_score := mkRat 1 2 }

/-- The verdicts on an object near to another one, and on one far from both. -/
def nearOneJoins (o : TrackedObject ℚ Quaternion) :
    Option (Cluster (TrackedObject ℚ Quaternion)) :=
  if o = scored (mkRat 2 5) 2 then some ⟨0, {scored 0 1}⟩ else none

theorem joiners_nearOne :
    joiners nearOneJoins {scored (mkRat 2 5) 2, scored 5 3} ⟨0, {scored 0 1}⟩ =
      {scored (mkRat 2 5) 2} := by
  have hnear : nearOneJoins (scored (mkRat 2 5) 2) = some ⟨0, {scored 0 1}⟩ := if_pos rfl
  have hfar : nearOneJoins (scored 5 3) = none := if_neg (by decide +kernel)
  unfold joiners
  simp [Multiset.filter_singleton, hnear, hfar]

theorem steady_two_sensors :
    SteadyTracks defaultConfig straightGeometry
      [⟨1, 0, [scored 0 1]⟩, ⟨2, 0, [scored (mkRat 2 5) 2, scored 5 3]⟩] := by
  have hbatches : batchesOf defaultConfig 0
      [⟨1, 0, [scored 0 1]⟩, ⟨2, 0, [scored (mkRat 2 5) 2, scored 5 3]⟩] =
      [{scored 0 1}, {scored (mkRat 2 5) 2, scored 5 3}] := by
    have hfirst : currentObjects defaultConfig 0 ⟨1, 0, [scored 0 1]⟩ = [scored 0 1] := by
      decide +kernel
    have hsecond : currentObjects defaultConfig 0 ⟨2, 0, [scored (mkRat 2 5) 2, scored 5 3]⟩ =
        [scored (mkRat 2 5) 2, scored 5 3] := by decide +kernel
    unfold batchesOf
    rw [List.map_cons, List.map_cons, List.map_nil, hfirst, hsecond]
    rfl
  unfold SteadyTracks
  rw [show latestOf _ = 0 from rfl, hbatches]
  refine ⟨fun _ => none, ⟨fun o _ g hg => by simp at hg, fun o _ _ g hg => by simp at hg⟩, ?_⟩
  have houtcome : outcome (fun _ => none) 0 0 {scored 0 1} =
      ({⟨0, {scored 0 1}⟩} : Multiset (Cluster (TrackedObject ℚ Quaternion))) := by
    simp [outcome, loners]
  rw [houtcome]
  refine ⟨nearOneJoins, ⟨?_, ?_⟩, trivial⟩
  · intro o _ g hjoins
    unfold nearOneJoins at hjoins
    split at hjoins
    · rename_i ho
      rw [Option.some.injEq] at hjoins
      subst ho hjoins
      refine ⟨⟨0, rfl, by simp⟩, ?_⟩
      intro early hearly
      rw [joiners_nearOne] at hearly
      have hnone : early = 0 := by
        have := Multiset.card_le_card hearly
        rw [Multiset.card_cons, Multiset.card_singleton] at this
        exact Multiset.card_eq_zero.mp (by omega)
      rw [hnone]
      decide +kernel
    · cases hjoins
  · intro o ho hjoins g hg _ early hearly
    rw [Multiset.mem_singleton] at hg
    subst hg
    rw [joiners_nearOne, Multiset.le_singleton] at hearly
    have hfar : o = scored 5 3 := by
      rcases Multiset.mem_cons.mp ho with rfl | ho
      · exact absurd hjoins (by decide +kernel)
      · exact Multiset.mem_singleton.mp ho
    subst hfar
    rcases hearly with rfl | rfl
    · decide +kernel
    · decide +kernel

/-- The merge of two sensors, one with an object near to that of the other. -/
theorem steady_merge_ignores_the_order_two_sensors :
    (mergedObjects defaultConfig straightGeometry (plainChoices (R := ℚ) (Q := Quaternion)).iterate
        [⟨1, 0, [scored 0 1]⟩, ⟨2, 0, [scored (mkRat 2 5) 2, scored 5 3]⟩]).Perm
      (mergedObjects defaultConfig straightGeometry
        (plainChoices (R := ℚ) (Q := Quaternion)).iterate
        [⟨1, 0, [scored 0 1]⟩, ⟨2, 0, [scored 5 3, scored (mkRat 2 5) 2]⟩]) := by
  have hsame : SameTracks
      [⟨1, 0, [scored 0 1]⟩, ⟨2, 0, [scored (mkRat 2 5) 2, scored 5 3]⟩]
      [⟨1, 0, [scored 0 1]⟩, ⟨2, 0, [scored 5 3, scored (mkRat 2 5) 2]⟩] :=
    List.Forall₂.cons ⟨rfl, rfl, List.Perm.refl _⟩
      (List.Forall₂.cons ⟨rfl, rfl, List.Perm.swap _ _ _⟩ List.Forall₂.nil)
  exact (steady_merge_ignores_the_order defaultConfig straightGeometry steady_two_sensors hsame
    _ _).2

/-- Two objects that are both near to a third one, but not both near to what the third makes
with one of them. -/
theorem merge_depends_on_the_order :
    ¬ ∀ (c : Config ℚ) (E : Geometry ℚ Quaternion) (tracks tracks' : List (SensorObjects ℚ Quaternion))
        (iterate iterate' : ℕ → Iteration (TrackedObject ℚ Quaternion × Option ℕ)),
      ((tracks.flatMap (·.objects)).map (·.id)).Nodup → SameTracks tracks tracks' →
        (mergedObjects c E iterate tracks).Perm (mergedObjects c E iterate' tracks') := by
  intro h
  have hsame : SameTracks
      [⟨1, 0, [scored 0 1]⟩, ⟨2, 0, [scored (mkRat 2 5) 2, scored (mkRat 3 5) 3]⟩]
      [⟨1, 0, [scored 0 1]⟩, ⟨2, 0, [scored (mkRat 3 5) 3, scored (mkRat 2 5) 2]⟩] :=
    List.Forall₂.cons ⟨rfl, rfl, List.Perm.refl _⟩
      (List.Forall₂.cons ⟨rfl, rfl, List.Perm.swap _ _ _⟩ List.Forall₂.nil)
  have hperm := h defaultConfig straightGeometry _ _ (plainChoices (R := ℚ) (Q := Quaternion)).iterate
    (plainChoices (R := ℚ) (Q := Quaternion)).iterate (by decide +kernel) hsame
  exact absurd hperm.length_eq (by decide +kernel)

end carma.object_tracker
