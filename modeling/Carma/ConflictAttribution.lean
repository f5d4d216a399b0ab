-- The law of the vehicles of a conflict: a conflict names just the vehicles that
-- were reported at the point that opened it, so it names all vehicles of its points
-- only if these were all there at the first one.
import Mathlib.Algebra.Field.Rat
import Mathlib.Algebra.Order.Ring.Rat
import Mathlib.Data.Rat.Floor
import Carma.ConflictManager
import Carma.Lib.Stretches

open lib.stretch
open carma.n_spatial_hash_map
open carma.route

namespace carma.conflict_manager

open ConflictManager

variable {K V : Type} [LinearOrder K] [Field K] [FloorRing K]

/-! ## Expired maps -/

/-- Maps that are expired report nothing, so it makes no difference if they are
there or not. -/
theorem collisionsIn_unexpired (mg : Margins K) (minTime : K) (idOf : V → Option V)
    (p : PathPoint K) (maps : List (V × TrackedPath K)) :
    collisionsIn mg minTime idOf p (unexpired minTime maps) =
      collisionsIn mg minTime idOf p maps := by
  induction maps with
  | nil => rfl
  | cons e rest ih =>
    obtain ⟨id, t⟩ := e
    unfold unexpired at ih ⊢
    rw [List.filter_cons]
    cases hexp : expired minTime t with
    | none => simp [collisionsIn, hexp]
    | some ended =>
      cases ended with
      | true => simpa [collisionsIn, hexp] using ih
      | false =>
        rw [if_pos (by simp)]
        simp only [collisionsIn, ih]

theorem collisionsIn_congr (mg : Margins K) (minTime : K) {idOf idOf' : V → Option V}
    (p : PathPoint K) {maps : List (V × TrackedPath K)} (h : ∀ e ∈ maps, idOf e.1 = idOf' e.1) :
    collisionsIn mg minTime idOf p maps = collisionsIn mg minTime idOf' p maps := by
  induction maps with
  | nil => rfl
  | cons e rest ih =>
    obtain ⟨hid, hrest⟩ := List.forall_mem_cons.mp h
    simp only [collisionsIn, hid, ih hrest]

variable [DecidableEq V]

omit [FloorRing K] in
/-- The vehicle of a plan that stays is not forgotten. -/
theorem prune_idOf (m : ConflictManager K V) (minTime : K) :
    ∀ e ∈ unexpired minTime m.requestedPathSpatialMaps,
      (m.prune true minTime).planIdMap e.1 = m.planIdMap e.1 := by
  intro e he
  obtain ⟨hin, hlive⟩ := List.mem_filter.mp he
  refine if_neg ?_
  rintro ⟨d, hd, hid, hexp⟩
  -- the ids are distinct
  obtain rfl := List.inj_on_of_nodup_map m.requested_nodup hd hin hid
  simp [hexp] at hlive

theorem prune_reports (m : ConflictManager K V) (requested requested' : Bool) (minTime : K)
    (p : PathPoint K) :
    (m.prune requested minTime).reports requested' minTime p = m.reports requested' minTime p := by
  cases requested with
  | false =>
    cases requested' with
    | false => exact collisionsIn_unexpired _ _ _ _ _
    | true => rfl
  | true =>
    cases requested' with
    | false => rfl
    | true =>
      exact (collisionsIn_congr m.margins minTime p (prune_idOf m minTime)).trans
        (collisionsIn_unexpired _ _ _ _ _)

/-! ## What a turn goes by -/

/-- The vehicles that a turn gets: those of mobility paths, and where there are none
those of requested paths. -/
def asked (m : ConflictManager K V) (minTime : K) (p : PathPoint K) : Option (List (Option V)) := do
  let vehicles ← m.reports false minTime p
  if vehicles.isEmpty then m.reports true minTime p else some vehicles

def vehiclesAt (m : ConflictManager K V) (minTime : K) (p : PathPoint K) : List (Option V) :=
  (asked m minTime p).getD []

def laneAt (route : Route K) (p : PathPoint K) : ℤ :=
  ((route.getSegment p.segmentIdx).map (·.determinePrimaryLane p.crosstrack)).getD 0

/-- A point that collides has its lane as its mark. -/
def collisionMark (m : ConflictManager K V) (minTime : K) (p : PathPoint K) : Option ℤ :=
  if (vehiclesAt m minTime p).isEmpty then none else some (laneAt m.route p)

/-- Both managers report the same. -/
structure Alike (minTime : K) (m m' : ConflictManager K V) : Prop where
  margins : m'.margins = m.margins
  route : m'.route = m.route
  reports : ∀ requested p, m'.reports requested minTime p = m.reports requested minTime p

theorem alike_prune {minTime : K} {m m' : ConflictManager K V} (h : Alike minTime m m')
    (requested : Bool) : Alike minTime m (m'.prune requested minTime) := by
  refine ⟨?_, ?_, fun r p => (prune_reports m' requested r minTime p).trans (h.reports r p)⟩
  · cases requested <;> exact h.margins
  · cases requested <;> exact h.route

theorem hasCollision_spec {minTime : K} {m m' m'' : ConflictManager K V} (h : Alike minTime m m')
    {requested : Bool} {p : PathPoint K} {vehicles : List (Option V)}
    (hc : m'.hasCollision requested minTime p = some (vehicles, m'')) :
    m.reports requested minTime p = some vehicles ∧ Alike minTime m m'' := by
  obtain ⟨vs, hvs, hc⟩ := Option.bind_eq_some_iff.mp hc
  obtain ⟨rfl, rfl⟩ := Prod.mk.inj (Option.some.inj hc)
  exact ⟨(h.reports requested p).symm.trans hvs, alike_prune h requested⟩

theorem findVehicles_spec {minTime : K} {m m' m'' : ConflictManager K V} (h : Alike minTime m m')
    {p : PathPoint K} {vehicles : List (Option V)}
    (hc : m'.findVehicles minTime p = some (vehicles, m'')) :
    vehiclesAt m minTime p = vehicles ∧ Alike minTime m m'' := by
  obtain ⟨⟨vs, m1⟩, hvs, hc⟩ := Option.bind_eq_some_iff.mp hc
  obtain ⟨hreport, halike⟩ := hasCollision_spec h hvs
  unfold vehiclesAt asked
  rw [hreport, Option.bind_eq_bind, Option.bind_some]
  dsimp only at hc
  split at hc
  · rename_i hempty
    obtain ⟨hreport', halike'⟩ := hasCollision_spec halike hc
    rw [if_pos hempty, hreport']
    exact ⟨rfl, halike'⟩
  · rename_i hempty
    obtain ⟨rfl, rfl⟩ := Prod.mk.inj (Option.some.inj hc)
    rw [if_neg hempty]
    exact ⟨rfl, halike⟩

/-- A turn on a point that counts: the second half, with what the manager of the start
says about the point. -/
theorem checkPoint_spec {minTime : K} {m m' m'' : ConflictManager K V} (h : Alike minTime m m')
    {st st' : Tracking K V} {p : PathPoint K} (hp : minTime ≤ p.stamp)
    (hc : checkPoint minTime (m', st) p = some (m'', st')) :
    turn m.margins st p (laneAt m.route p) (!(vehiclesAt m minTime p).isEmpty)
        (vehiclesAt m minTime p).toFinset = some st' ∧ Alike minTime m m'' := by
  unfold checkPoint at hc
  rw [if_neg (not_lt.mpr hp)] at hc
  obtain ⟨seg, hseg, hc⟩ := Option.bind_eq_some_iff.mp hc
  obtain ⟨⟨vehicles, m1⟩, hvehicles, hc⟩ := Option.bind_eq_some_iff.mp hc
  obtain ⟨st1, hturn, hc⟩ := Option.bind_eq_some_iff.mp hc
  obtain ⟨rfl, rfl⟩ := Prod.mk.inj (Option.some.inj hc)
  obtain ⟨hsame, halike⟩ := findVehicles_spec h hvehicles
  have hlane : laneAt m.route p = seg.determinePrimaryLane p.crosstrack := by
    unfold laneAt
    rw [← h.route, hseg]
    rfl
  rw [hlane, hsame, ← halike.margins]
  exact ⟨hturn, halike⟩

/-! ## Conflicts and stretches -/

/-- The conflict of a stretch that goes on: it has its lane, the vehicles of its first point,
and starts where the stretch starts. -/
structure Opened (vehicles : PathPoint K → List (Option V)) (s : Stretch (PathPoint K) ℤ)
    (c : ConflictSpace K V) : Prop where
  lane : c.lane = s.mark
  conflictingVehicles : c.conflictingVehicles = (vehicles s.first).toFinset
  startDowntrack : c.startDowntrack = s.start.downtrack
  startTime : c.startTime = s.start.stamp

/-- How far a range goes that starts and ends at two points: it is as long as the margin at
least. -/
def reach (margin start last : K) : K := if last - start < margin then start + margin else last

/-- The conflict of a stretch that is over: it goes as far as the last point. -/
structure Closed (mg : Margins K) (vehicles : PathPoint K → List (Option V))
    (s : Stretch (PathPoint K) ℤ) (c : ConflictSpace K V) : Prop extends Opened vehicles s c where
  endDowntrack : c.endDowntrack = reach mg.downtrackMargin s.start.downtrack s.last.downtrack
  endTime : c.endTime = reach mg.timeMargin s.start.stamp s.last.stamp

/-- The conflicts so far are those of the stretches so far. -/
structure Follows (mg : Margins K) (vehicles : PathPoint K → List (Option V))
    (w : Walk (PathPoint K) ℤ) (st : Tracking K V) : Prop where
  done : List.Forall₂ (Closed mg vehicles) w.done st.conflicts
  current : Option.Rel (Opened vehicles) w.current st.currentConflict
  prevPoint : ∀ s ∈ w.current, st.prevPoint = some s.last

omit [FloorRing K] in
theorem closed_snoc {mg : Margins K} {vehicles : PathPoint K → List (Option V)}
    {done : List (Stretch (PathPoint K) ℤ)} {conflicts : List (ConflictSpace K V)}
    (hdone : List.Forall₂ (Closed mg vehicles) done conflicts) {s : Stretch (PathPoint K) ℤ}
    {c : ConflictSpace K V} (hs : Opened vehicles s c) :
    List.Forall₂ (Closed mg vehicles) (done ++ [s])
      (conflicts ++ [closeConflict mg c s.last.downtrack s.last.stamp]) := by
  apply List.rel_append hdone
  apply List.Forall₂.cons _ List.Forall₂.nil
  constructor
  · exact ⟨hs.lane, hs.conflictingVehicles, hs.startDowntrack, hs.startTime⟩
  · simp only [closeConflict, reach, hs.startDowntrack]
  · simp only [closeConflict, reach, hs.startTime]

omit [FloorRing K] in
/-- A turn does to the conflicts what the walk does to the stretches. -/
theorem turn_follows {mg : Margins K} {vehicles : PathPoint K → List (Option V)}
    {mark : PathPoint K → Option ℤ} {w : Walk (PathPoint K) ℤ} {st st' : Tracking K V}
    (h : Follows mg vehicles w st) {p : PathPoint K} {lane : ℤ}
    (hmark : mark p = if (vehicles p).isEmpty then none else some lane)
    (hturn : turn mg st p lane (!(vehicles p).isEmpty) (vehicles p).toFinset = some st') :
    Follows mg vehicles (walkOn mark w p) st' := by
  obtain ⟨conflicts, currentConflict, prevPoint⟩ := st
  obtain ⟨done, current⟩ := w
  obtain ⟨hdone, hcurrent, hprev⟩ := h
  unfold turn at hturn
  cases hempty : (vehicles p).isEmpty with
  | true =>
    rw [hempty, if_pos rfl] at hmark
    simp only [hempty, Bool.not_true] at hturn
    cases hcurrent with
    | none =>
      obtain rfl := Option.some.inj hturn
      rw [walkOn_gap hmark]
      exact ⟨hdone, Option.Rel.none, by simp⟩
    | @some s c hs =>
      obtain rfl : prevPoint = some s.last := hprev s rfl
      obtain rfl := Option.some.inj hturn
      rw [walkOn_end hmark]
      exact ⟨closed_snoc hdone hs, Option.Rel.none, by simp⟩
  | false =>
    rw [hempty, if_neg Bool.false_ne_true] at hmark
    simp only [hempty, Bool.not_false] at hturn
    cases hcurrent with
    | none =>
      obtain rfl := Option.some.inj hturn
      rw [walkOn_start hmark]
      refine ⟨hdone, Option.Rel.some ⟨rfl, rfl, rfl, rfl⟩, ?_⟩
      simp [Stretch.last]
    | @some s c hs =>
      simp only [hs.lane] at hturn
      by_cases hlane : lane = s.mark
      · rw [if_neg (not_not_intro hlane)] at hturn
        obtain rfl := Option.some.inj hturn
        rw [walkOn_same (hlane ▸ hmark)]
        refine ⟨hdone, Option.Rel.some ?_, ?_⟩
        · exact ⟨hs.lane, hs.conflictingVehicles, hs.startDowntrack, hs.startTime⟩
        · simp
      · rw [if_pos hlane] at hturn
        obtain rfl : prevPoint = some s.last := hprev s rfl
        obtain rfl := Option.some.inj hturn
        rw [walkOn_switch hmark hlane]
        refine ⟨closed_snoc hdone hs, Option.Rel.some ⟨rfl, rfl, rfl, rfl⟩, ?_⟩
        simp [Stretch.last]

/-- The loop over the host path. -/
theorem loop_follows {minTime : K} {m m' m'' : ConflictManager K V} (h : Alike minTime m m')
    {hostPath : List (PathPoint K)} (hstamps : ∀ p ∈ hostPath, minTime ≤ p.stamp)
    {w : Walk (PathPoint K) ℤ} {st st' : Tracking K V}
    (hw : Follows m.margins (vehiclesAt m minTime) w st)
    (hloop : hostPath.foldlM (checkPoint minTime) (m', st) = some (m'', st')) :
    Follows m.margins (vehiclesAt m minTime)
        (hostPath.foldl (walkOn (collisionMark m minTime)) w) st' ∧ Alike minTime m m'' := by
  induction hostPath generalizing m' st w with
  | nil =>
    obtain ⟨rfl, rfl⟩ := Prod.mk.inj (Option.some.inj hloop)
    exact ⟨hw, h⟩
  | cons p rest ih =>
    obtain ⟨hp, hrest⟩ := List.forall_mem_cons.mp hstamps
    obtain ⟨⟨m1, st1⟩, hone, hloop⟩ := Option.bind_eq_some_iff.mp hloop
    obtain ⟨hturn, halike⟩ := checkPoint_spec h hp hone
    exact ih halike hrest (turn_follows hw rfl hturn) hloop

/-- The conflicts are those of the stretches of colliding points in one lane. -/
theorem getConflicts_spec {minTime : K} {m m' : ConflictManager K V}
    {hostPath : List (PathPoint K)} (hstamps : ∀ p ∈ hostPath, minTime ≤ p.stamp)
    {conflicts : List (ConflictSpace K V)}
    (h : m.getConflicts minTime hostPath = some (conflicts, m')) :
    List.Forall₂ (Closed m.margins (vehiclesAt m minTime))
      (stretches (collisionMark m minTime) hostPath) conflicts := by
  unfold ConflictManager.getConflicts at h
  split at h
  · rename_i hempty
    obtain ⟨rfl, rfl⟩ := Prod.mk.inj (Option.some.inj h)
    rw [List.isEmpty_iff.mp hempty]
    exact List.Forall₂.nil
  · obtain ⟨⟨m1, st⟩, hloop, h⟩ := Option.bind_eq_some_iff.mp h
    obtain ⟨cs, hfinish, h⟩ := Option.bind_eq_some_iff.mp h
    obtain ⟨rfl, rfl⟩ := Prod.mk.inj (Option.some.inj h)
    obtain ⟨hfollows, halike⟩ := loop_follows (w := ⟨[], none⟩) ⟨rfl, rfl, fun _ _ => rfl⟩ hstamps
      ⟨List.Forall₂.nil, Option.Rel.none, by simp⟩ hloop
    obtain ⟨hdone, hcurrent, hprev⟩ := hfollows
    unfold stretches walk Walk.all
    unfold finish at hfinish
    rw [halike.margins] at hfinish
    generalize hostPath.foldl (walkOn (collisionMark m minTime)) ⟨[], none⟩ = w
      at hdone hcurrent hprev
    obtain ⟨done, current⟩ := w
    obtain ⟨cs', cur, prev⟩ := st
    cases hcurrent with
    | none =>
      obtain rfl := Option.some.inj hfinish
      rw [Option.toList_none, List.append_nil]
      exact hdone
    | @some s c hs =>
      obtain rfl : prev = some s.last := hprev s rfl
      obtain rfl := Option.some.inj hfinish
      exact closed_snoc hdone hs

/-! ## The law -/

/-- The vehicles reported at a point: those that `getConflicts` asks for, or those of
all mobility paths and requested paths. -/
def reportedAt (m : ConflictManager K V) (minTime : K) (onlyAsked : Bool) (p : PathPoint K) :
    List (Option V) :=
  if onlyAsked then vehiclesAt m minTime p
  else (m.reports false minTime p).getD [] ++ (m.reports true minTime p).getD []

/-- A point of the host lies in the ranges of a conflict, and if so required in its lane. -/
structure Covers (route : Route K) (inLane : Bool) (c : ConflictSpace K V) (p : PathPoint K) :
    Prop where
  startDowntrack : c.startDowntrack ≤ p.downtrack
  endDowntrack : p.downtrack ≤ c.endDowntrack
  startTime : c.startTime ≤ p.stamp
  endTime : p.stamp ≤ c.endTime
  lane : inLane = true → laneAt route p = c.lane

/-- Each conflict names all vehicles that are reported at the host points that it covers. -/
def AttributesAll (m : ConflictManager K V) (minTime : K) (onlyAsked inLane : Bool)
    (hostPath : List (PathPoint K)) (conflicts : List (ConflictSpace K V)) : Prop :=
  ∀ c ∈ conflicts, ∀ p ∈ hostPath, Covers m.route inLane c p →
    ∀ v ∈ reportedAt m minTime onlyAsked p, v ∈ c.conflictingVehicles

def WithinReach (m : ConflictManager K V) (inLane : Bool) (s : Stretch (PathPoint K) ℤ)
    (p : PathPoint K) : Prop :=
  (s.start.downtrack ≤ p.downtrack ∧
    p.downtrack ≤ reach m.margins.downtrackMargin s.start.downtrack s.last.downtrack) ∧
  (s.start.stamp ≤ p.stamp ∧
    p.stamp ≤ reach m.margins.timeMargin s.start.stamp s.last.stamp) ∧
  (inLane = true → laneAt m.route p = s.mark)

/-- Nobody joins a conflict: the vehicles that are reported at a point within the reach of a
stretch were asked for at its first point. -/
def NobodyJoins (m : ConflictManager K V) (minTime : K) (onlyAsked inLane : Bool)
    (hostPath : List (PathPoint K)) : Prop :=
  ∀ s ∈ stretches (collisionMark m minTime) hostPath, ∀ p ∈ hostPath, WithinReach m inLane s p →
    ∀ v ∈ reportedAt m minTime onlyAsked p, v ∈ vehiclesAt m minTime s.first

theorem Closed.covers_iff {m : ConflictManager K V} {vehicles : PathPoint K → List (Option V)}
    {s : Stretch (PathPoint K) ℤ} {c : ConflictSpace K V} (h : Closed m.margins vehicles s c)
    (inLane : Bool) (p : PathPoint K) : Covers m.route inLane c p ↔ WithinReach m inLane s p := by
  unfold WithinReach
  rw [← h.endDowntrack, ← h.endTime, ← h.startDowntrack, ← h.startTime, ← h.lane]
  constructor
  · rintro ⟨h1, h2, h3, h4, h5⟩
    exact ⟨⟨h1, h2⟩, ⟨h3, h4⟩, h5⟩
  · rintro ⟨⟨h1, h2⟩, ⟨h3, h4⟩, h5⟩
    exact ⟨h1, h2, h3, h4, h5⟩

theorem attributesAll_iff {m : ConflictManager K V} {minTime : K} {onlyAsked inLane : Bool}
    {hostPath : List (PathPoint K)} {conflicts : List (ConflictSpace K V)}
    (h : List.Forall₂ (Closed m.margins (vehiclesAt m minTime))
      (stretches (collisionMark m minTime) hostPath) conflicts) :
    AttributesAll m minTime onlyAsked inLane hostPath conflicts ↔
      NobodyJoins m minTime onlyAsked inLane hostPath := by
  unfold AttributesAll NobodyJoins
  generalize stretches (collisionMark m minTime) hostPath = ss at h
  induction h with
  | nil => simp
  | cons hs _ ih =>
    rw [List.forall_mem_cons, List.forall_mem_cons, ih]
    simp only [hs.covers_iff, hs.conflictingVehicles, List.mem_toFinset]

/-- In each answer the conflicts name all vehicles of the points that they cover just when nobody
joins a conflict after its first point. -/
theorem a_conflict_names_all_vehicles_when_nobody_joins (m : ConflictManager K V) (minTime : K)
    (hostPath : List (PathPoint K)) (hstamps : ∀ p ∈ hostPath, minTime ≤ p.stamp)
    {conflicts : List (ConflictSpace K V)} {m' : ConflictManager K V}
    (h : m.getConflicts minTime hostPath = some (conflicts, m')) (onlyAsked inLane : Bool) :
    AttributesAll m minTime onlyAsked inLane hostPath conflicts ↔
      NobodyJoins m minTime onlyAsked inLane hostPath :=
  attributesAll_iff (getConflicts_spec hstamps h)

/-! ## Two vehicles -/

/-- A point in the middle of a road of one lane. -/
def onRoad (downtrack stamp : ℚ) : PathPoint ℚ := ⟨downtrack, 0, stamp, 0, downtrack⟩

/-- Boxes of one meter and one second to each side. -/
def unitMargins : Margins ℚ := ⟨1, 1, 1, 0, 0, 0⟩

def tenMeters : SimpleHashStrategy ℚ := ⟨[10, 10, 10], List.cons_ne_nil _ _, by simp⟩

/-- A manager that tracks no path yet. -/
def emptyRoad : ConflictManager ℚ ℕ :=
  newConflictManager tenMeters unitMargins ⟨[⟨100, ⟨0, 1, 4⟩, ⟨1, 1, 4⟩⟩]⟩

def track (m : ConflictManager ℚ ℕ) (id : ℕ) (path : List (PathPoint ℚ)) : ConflictManager ℚ ℕ :=
  ((m.addMobilityPath path id).map (·.2)).getD m

/-- Vehicle 1 is where the host is all the time, vehicle 2 only at the end. -/
def twoVehicles : ConflictManager ℚ ℕ :=
  track (track emptyRoad 1 [onRoad 0 0, onRoad 10 10]) 2 [onRoad 10 10]

def hostPath : List (PathPoint ℚ) := [onRoad 0 0, onRoad 10 10]

def oneVehicleAnswer : List (ConflictSpace ℚ ℕ) × ConflictManager ℚ ℕ :=
  ((track emptyRoad 1 hostPath).getConflicts 0 hostPath).get (by decide +kernel)

theorem oneVehicle_is_named_when_nobody_joins :
    AttributesAll (track emptyRoad 1 hostPath) 0 true false hostPath oneVehicleAnswer.1 ∧
      oneVehicleAnswer.1.length = 1 := by
  have hanswer : (track emptyRoad 1 hostPath).getConflicts 0 hostPath =
      some (oneVehicleAnswer.1, oneVehicleAnswer.2) := (Option.some_get _).symm
  have hnobody : NobodyJoins (track emptyRoad 1 hostPath) 0 true false hostPath := by
    unfold NobodyJoins WithinReach
    decide +kernel
  exact ⟨(a_conflict_names_all_vehicles_when_nobody_joins _ 0 hostPath (by decide +kernel) hanswer
    true false).mpr hnobody, by decide +kernel⟩

/-- Vehicle 2 joins the conflict with vehicle 1, and is not named. -/
theorem a_vehicle_that_joins_is_not_named :
    ¬ ∀ conflicts m', twoVehicles.getConflicts 0 hostPath = some (conflicts, m') →
      ∃ onlyAsked inLane, AttributesAll twoVehicles 0 onlyAsked inLane hostPath conflicts := by
  intro hall
  have hreturns : (twoVehicles.getConflicts 0 hostPath).isSome = true := by decide +kernel
  obtain ⟨⟨conflicts, m'⟩, h⟩ := Option.isSome_iff_exists.mp hreturns
  have hstamps : ∀ p ∈ hostPath, (0 : ℚ) ≤ p.stamp := by decide +kernel
  have hjoins : ∀ onlyAsked inLane, ¬ NobodyJoins twoVehicles 0 onlyAsked inLane hostPath := by
    unfold NobodyJoins WithinReach
    decide +kernel
  obtain ⟨onlyAsked, inLane, hnames⟩ := hall conflicts m' h
  exact hjoins onlyAsked inLane ((attributesAll_iff (getConflicts_spec hstamps h)).mp hnames)

end carma.conflict_manager
