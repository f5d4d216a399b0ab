-- The bookkeeping of requested paths: the plans that have a path are the plans that
-- have a vehicle, whatever calls came before.
import Carma.ConflictAttribution

open carma.cartesian_object
open carma.n_spatial_hash_map
open carma.route

namespace carma.conflict_manager

variable {K : Type} [LinearOrder K] [Field K] [FloorRing K]
variable {V : Type} [DecidableEq V]

/-! ## Calls -/

/-- A call of the manager. A search for collisions goes through some of the paths: all of
them, or those up to one at which it throws. -/
inductive Call (K V : Type)
  | addMobilityPath (path : List (PathPoint K)) (vehicleStaticId : V)
  | addRequestedPath (path : List (PathPoint K)) (planId vehicleId : V)
  | removeMobilityPath (vehicleStaticId : V)
  | removeRequestedPath (planId : V)
  | setRoute (route : Route K)
  | hasCollision (requested : Bool) (minTime : K) (visited : List V)

namespace ConflictManager

/-- A path is expired: `hasCollision` removes it when it comes to it. -/
def isExpired (minTime : K) (maps : List (V × TrackedPath K)) (id : V) : Bool :=
  (maps.lookup id).any fun t => expired minTime t = some true

/-- One turn of the loop of `hasCollision`. -/
def visit (requested : Bool) (minTime : K) (m : ConflictManager K V) (id : V) :
    ConflictManager K V :=
  if requested then
    if isExpired minTime m.requestedPathSpatialMaps id then (m.removeRequestedPath id).2 else m
  else
    if isExpired minTime m.mobilityPathSpatialMaps id then (m.removeMobilityPath id).2 else m

/-- A call. None where it does not return. -/
def call (m : ConflictManager K V) : Call K V → Option (ConflictManager K V)
  | .addMobilityPath path vehicleStaticId => (m.addMobilityPath path vehicleStaticId).map Prod.snd
  | .addRequestedPath path planId vehicleId =>
    (m.addRequestedPath path planId vehicleId).map Prod.snd
  | .removeMobilityPath vehicleStaticId => some (m.removeMobilityPath vehicleStaticId).2
  | .removeRequestedPath planId => some (m.removeRequestedPath planId).2
  | .setRoute route => some (m.setRoute route)
  | .hasCollision requested minTime visited => some (visited.foldl (visit requested minTime) m)

/-! ## Keys -/

/-- The plans with a requested path. -/
def requestedIds (m : ConflictManager K V) : List V := m.requestedPathSpatialMaps.map Prod.fst

/-- The plans with a path are the plans with a vehicle. -/
def InStep (m : ConflictManager K V) : Prop := ∀ id, (m.planIdMap id).isSome ↔ id ∈ m.requestedIds

omit [FloorRing K] [Field K] in
theorem mem_keys_filter [Zero K] {maps : List (V × TrackedPath K)} {key id : V} :
    id ∈ (maps.filter fun e => decide (e.1 ≠ key)).map Prod.fst ↔
      id ∈ maps.map Prod.fst ∧ id ≠ key := by
  simp only [List.mem_map, List.mem_filter, decide_eq_true_eq]
  constructor
  · rintro ⟨e, ⟨he, hne⟩, rfl⟩
    exact ⟨⟨e, he, rfl⟩, hne⟩
  · rintro ⟨⟨e, he, rfl⟩, hne⟩
    exact ⟨e, ⟨he, hne⟩, rfl⟩

theorem addPath_keys {m : ConflictManager K V} {path : List (PathPoint K)} {key : V}
    {maps maps' : List (V × TrackedPath K)} (h : m.addPath path key maps = some maps') (id : V) :
    id ∈ maps'.map Prod.fst ↔ id ∈ maps.map Prod.fst ∨ id = key := by
  obtain ⟨t, -, h⟩ := Option.bind_eq_some_iff.mp h
  obtain rfl := Option.some.inj h
  rw [List.map_append, List.mem_append, mem_keys_filter]
  by_cases hid : id = key
  · simp [hid]
  · simp [hid]

omit [FloorRing K] in
theorem removeRequestedPath_inStep {m : ConflictManager K V} (h : m.InStep) (planId : V) :
    (m.removeRequestedPath planId).2.InStep := by
  intro id
  show (Function.update m.planIdMap planId none id).isSome ↔
    id ∈ (m.requestedPathSpatialMaps.filter fun e => decide (e.1 ≠ planId)).map Prod.fst
  rw [mem_keys_filter]
  by_cases hid : id = planId
  · simp [hid]
  · rw [Function.update_of_ne hid]
    exact (h id).trans (by simp [hid, requestedIds])

theorem addRequestedPath_inStep {m m' : ConflictManager K V} (h : m.InStep)
    {path : List (PathPoint K)} {planId vehicleId : V} {added : Bool}
    (hadd : m.addRequestedPath path planId vehicleId = some (added, m')) : m'.InStep := by
  unfold addRequestedPath at hadd
  split at hadd
  · obtain ⟨-, rfl⟩ := Prod.mk.inj (Option.some.inj hadd)
    exact h
  · split at hadd
    · cases hadd
    · rename_i maps hmaps
      obtain ⟨-, rfl⟩ := Prod.mk.inj (Option.some.inj hadd)
      intro id
      show (Function.update m.planIdMap planId (some vehicleId) id).isSome ↔ id ∈ maps.map Prod.fst
      rw [addPath_keys hmaps id]
      by_cases hid : id = planId
      · simp [hid]
      · rw [Function.update_of_ne hid]
        exact (h id).trans (by simp [hid, requestedIds])

theorem addMobilityPath_inStep {m m' : ConflictManager K V} (h : m.InStep)
    {path : List (PathPoint K)} {vehicleStaticId : V} {added : Bool}
    (hadd : m.addMobilityPath path vehicleStaticId = some (added, m')) : m'.InStep := by
  unfold addMobilityPath at hadd
  split at hadd
  · obtain ⟨-, rfl⟩ := Prod.mk.inj (Option.some.inj hadd)
    exact h
  · split at hadd
    · cases hadd
    · obtain ⟨-, rfl⟩ := Prod.mk.inj (Option.some.inj hadd)
      exact h

omit [FloorRing K] in
theorem visit_inStep {m : ConflictManager K V} (h : m.InStep) (requested : Bool) (minTime : K)
    (id : V) : (visit requested minTime m id).InStep := by
  unfold visit
  split
  · split
    · exact removeRequestedPath_inStep h id
    · exact h
  · split
    · exact h
    · exact h

theorem call_inStep {m m' : ConflictManager K V} (h : m.InStep) {c : Call K V}
    (hcall : m.call c = some m') : m'.InStep := by
  cases c with
  | addMobilityPath path vehicleStaticId =>
    obtain ⟨⟨added, m''⟩, hadd, rfl⟩ := Option.map_eq_some_iff.mp hcall
    exact addMobilityPath_inStep h hadd
  | addRequestedPath path planId vehicleId =>
    obtain ⟨⟨added, m''⟩, hadd, rfl⟩ := Option.map_eq_some_iff.mp hcall
    exact addRequestedPath_inStep h hadd
  | removeMobilityPath vehicleStaticId =>
    obtain rfl := Option.some.inj hcall
    exact h
  | removeRequestedPath planId =>
    obtain rfl := Option.some.inj hcall
    exact removeRequestedPath_inStep h planId
  | setRoute route =>
    obtain rfl := Option.some.inj hcall
    exact h
  | hasCollision requested minTime visited =>
    obtain rfl := Option.some.inj hcall
    exact List.foldlRecOn visited _ h fun m hm id _ => visit_inStep hm requested minTime id

theorem calls_inStep {m m' : ConflictManager K V} (h : m.InStep) {calls : List (Call K V)}
    (hcalls : calls.foldlM call m = some m') : m'.InStep := by
  induction calls generalizing m with
  | nil =>
    obtain rfl := Option.some.inj hcalls
    exact h
  | cons c calls ih =>
    rw [List.foldlM_cons] at hcalls
    obtain ⟨m₁, hfirst, hrest⟩ := Option.bind_eq_some_iff.mp hcalls
    exact ih (call_inStep h hfirst) hrest

/-! ## What a search reports -/

omit [DecidableEq V] in
theorem collisionsIn_mem {mg : Margins K} {minTime : K} {idOf : V → Option V} {p : PathPoint K}
    {maps : List (V × TrackedPath K)} {vehicles : List (Option V)}
    (h : collisionsIn mg minTime idOf p maps = some vehicles) :
    ∀ v ∈ vehicles, ∃ id ∈ maps.map Prod.fst, idOf id = v := by
  induction maps generalizing vehicles with
  | nil =>
    obtain rfl := Option.some.inj h
    simp
  | cons e maps ih =>
    obtain ⟨id, t⟩ := e
    have hlater : ∀ vs, collisionsIn mg minTime idOf p maps = some vs →
        ∀ v ∈ vs, ∃ id' ∈ ((id, t) :: maps).map Prod.fst, idOf id' = v := by
      intro vs hvs v hv
      obtain ⟨id', hid', rfl⟩ := ih hvs v hv
      exact ⟨id', List.mem_cons_of_mem _ hid', rfl⟩
    obtain ⟨gone, -, h⟩ := Option.bind_eq_some_iff.mp h
    split at h
    · exact hlater vehicles h
    · obtain ⟨collides, -, h⟩ := Option.bind_eq_some_iff.mp h
      obtain ⟨vs, hvs, h⟩ := Option.bind_eq_some_iff.mp h
      obtain rfl := Option.some.inj h
      intro v hv
      split at hv
      · rcases List.mem_cons.mp hv with rfl | hv
        · exact ⟨id, List.mem_cons_self, rfl⟩
        · exact hlater vs hvs v hv
      · exact hlater vs hvs v hv

/-- After calls that return, the plans with a path are the plans with a vehicle, so a
search never reports that a vehicle is missing. -/
theorem a_requested_path_always_has_its_vehicle (structureFactory : SimpleHashStrategy K)
    (mg : Margins K) (route : Route K) (calls : List (Call K V)) (m : ConflictManager K V)
    (h : calls.foldlM call (newConflictManager structureFactory mg route) = some m) :
    (∀ id, (m.planIdMap id).isSome ↔ id ∈ m.requestedIds) ∧
      ∀ minTime p vehicles, m.reports true minTime p = some vehicles → none ∉ vehicles := by
  have hnew : (newConflictManager structureFactory mg route : ConflictManager K V).InStep :=
    fun id => by simp [newConflictManager, requestedIds]
  have hstep := calls_inStep hnew h
  refine ⟨hstep, ?_⟩
  intro minTime p vehicles hreport hnone
  obtain ⟨id, hid, hmissing⟩ := collisionsIn_mem hreport none hnone
  have hsome := (hstep id).mpr hid
  rw [hmissing] at hsome
  cases hsome

/-- A plan gets a path twice, then the path expires and is removed. -/
def comesAndGoes : List (Call ℚ ℕ) :=
  [.addRequestedPath [onRoad 0 0] 7 1, .addMobilityPath [onRoad 0 0] 2,
    .addRequestedPath [onRoad 10 10] 7 1, .hasCollision true 100 [7], .removeMobilityPath 2]

theorem a_path_that_comes_and_goes_always_has_its_vehicle :
    ∃ m, comesAndGoes.foldlM call emptyRoad = some m ∧
      (∀ id, (m.planIdMap id).isSome ↔ id ∈ m.requestedIds) ∧
        ∀ minTime p vehicles, m.reports true minTime p = some vehicles → none ∉ vehicles := by
  have hreturns : (comesAndGoes.foldlM call emptyRoad).isSome = true := by decide +kernel
  obtain ⟨m, h⟩ := Option.isSome_iff_exists.mp hreturns
  exact ⟨m, h, a_requested_path_always_has_its_vehicle _ _ _ comesAndGoes m h⟩

/-! ## A search that goes through -/

omit [FloorRing K] in
theorem isExpired_iff {minTime : K} {maps : List (V × TrackedPath K)}
    (hnodup : (maps.map Prod.fst).Nodup) (id : V) :
    isExpired minTime maps id = true ↔ ∃ e ∈ maps, e.1 = id ∧ expired minTime e.2 = some true := by
  induction maps with
  | nil => simp [isExpired]
  | cons e maps ih =>
    rw [List.map_cons, List.nodup_cons] at hnodup
    unfold isExpired at *
    rw [List.lookup_cons]
    by_cases hid : id = e.1
    · have hno : ∀ e' ∈ maps, e'.1 ≠ id := by
        rintro e' he' rfl
        exact hnodup.1 (hid ▸ List.mem_map_of_mem he')
      subst hid
      simp only [beq_self_eq_true, Option.any_some, decide_eq_true_eq, List.mem_cons]
      constructor
      · exact fun hexp => ⟨e, Or.inl rfl, rfl, hexp⟩
      · rintro ⟨e', rfl | he', hsame, hexp⟩
        · exact hexp
        · exact absurd hsame (hno e' he')
    · rw [beq_eq_false_iff_ne.mpr hid, ih hnodup.2]
      simp only [List.mem_cons]
      constructor
      · rintro ⟨e', he', hsame⟩
        exact ⟨e', Or.inr he', hsame⟩
      · rintro ⟨e', rfl | he', hsame, hexp⟩
        · exact absurd hsame.symm hid
        · exact ⟨e', he', hsame, hexp⟩

omit [FloorRing K] in
theorem visits_requested (minTime : K) (ids : List V) (m : ConflictManager K V) :
    (ids.foldl (visit true minTime) m).requestedPathSpatialMaps =
      m.requestedPathSpatialMaps.filter fun e =>
        decide ¬ (e.1 ∈ ids ∧ expired minTime e.2 = some true) := by
  induction ids generalizing m with
  | nil => simp
  | cons id ids ih =>
    rw [List.foldl_cons, ih]
    have hvisit : (visit true minTime m id).requestedPathSpatialMaps =
        m.requestedPathSpatialMaps.filter fun e =>
          decide ¬ (e.1 = id ∧ expired minTime e.2 = some true) := by
      unfold visit
      rw [if_pos rfl]
      split
      · rename_i hexp
        obtain ⟨e, he, rfl, hover⟩ := (isExpired_iff m.requested_nodup id).mp hexp
        apply List.filter_congr
        intro e' he'
        rw [decide_eq_decide]
        constructor
        · exact fun hne h => hne h.1
        · intro hno hsame
          -- the ids are distinct
          obtain rfl := List.inj_on_of_nodup_map m.requested_nodup he' he hsame
          exact hno ⟨rfl, hover⟩
      · rename_i hlive
        symm
        rw [List.filter_eq_self]
        intro e he
        rw [decide_eq_true_iff]
        exact fun h => hlive ((isExpired_iff m.requested_nodup id).mpr ⟨e, he, h⟩)
    rw [hvisit, List.filter_filter]
    apply List.filter_congr
    intro e _
    simp only [List.mem_cons]
    grind

omit [FloorRing K] in
/-- A search that goes through all paths leaves the entries that `prune` leaves. -/
theorem visits_eq_unexpired (minTime : K) (m : ConflictManager K V) :
    (m.requestedIds.foldl (visit true minTime) m).requestedPathSpatialMaps =
      (m.prune true minTime).requestedPathSpatialMaps := by
  rw [visits_requested]
  apply List.filter_congr
  intro e he
  have hin : e.1 ∈ m.requestedIds := List.mem_map_of_mem he
  simp [hin]

end ConflictManager

end carma.conflict_manager
