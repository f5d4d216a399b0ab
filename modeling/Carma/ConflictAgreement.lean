-- The two searches for conflicts, with one tracked path: they find the same
-- conflicts as long as the centre of each box that collides is inside the bounds of
-- the path, and both take the same lane for its point.
import Carma.ConflictAttribution
import Carma.ConflictDecisions
import Carma.NSpatialHashMapSpecs

open lib.boxes
open carma.cartesian_object
open carma.n_spatial_hash_map
open carma.route

namespace carma.conflict_manager

open ConflictManager

variable {K V : Type} [LinearOrder K] [Field K]

/-! ## The map of the other path -/

section maps

variable [FloorRing K]

/-- The bounds of the map hold the box of each of these points. -/
def Holds (mg : Margins K) (t : TrackedPath K) (path : List (PathPoint K)) : Prop :=
  ∃ bounds, t.map.bounds = some bounds ∧ bounds.rows.length = 3 ∧
    ∀ p ∈ path, Within (mg.boxAround p).ownBounds bounds.rows

theorem insertPoint_holds {mg : Margins K} {t t' : TrackedPath K} {path : List (PathPoint K)}
    (hdim : t.map.numDimensions = 3) (hnew : path = [] → t.map.bounds = none)
    (hpath : path ≠ [] → Holds mg t path) {p : PathPoint K} (h : insertPoint mg t p = some t') :
    Holds mg t' (path ++ [p]) := by
  obtain ⟨⟨answer, map⟩, hinsert, h⟩ := Option.bind_eq_some_iff.mp h
  obtain rfl := Option.some.inj h
  have hown : (mg.boxAround p).ownBounds.length = 3 := CartesianObject.ownBounds_length _
  have hsame : (mg.boxAround p).numDimensions = t.map.numDimensions := hdim.symm
  refine ⟨_, insert_bounds hsame hinsert, ?_⟩
  by_cases hempty : path = []
  · subst hempty
    rw [hnew rfl, Option.getD_none, around_self]
    exact ⟨hown, by simp [within_refl]⟩
  · obtain ⟨bounds, hb, hlen, hin⟩ := hpath hempty
    rw [hb, Option.getD_some]
    have hlens : bounds.rows.length = (mg.boxAround p).ownBounds.length := hlen.trans hown.symm
    refine ⟨(around_length hlens).trans hlen, ?_⟩
    intro q hq
    rcases List.mem_append.mp hq with hq | hq
    · exact within_trans (hin q hq) (within_around_left hlens)
    · rw [List.mem_singleton.mp hq]
      exact within_around_right hlens

theorem insertPoints_snoc (mg : Margins K) (t : TrackedPath K) (path : List (PathPoint K))
    (p : PathPoint K) :
    insertPoints mg t (path ++ [p]) = (insertPoints mg t path).bind fun t => insertPoint mg t p := by
  unfold insertPoints
  rw [List.foldlM_append]
  simp

theorem insertPoints_strategy {mg : Margins K} {s : SimpleHashStrategy K}
    {path : List (PathPoint K)} {t : TrackedPath K}
    (h : insertPoints mg (newTrackedPath s) path = some t) : t.map.spatialHashStrategy = s := by
  induction path using List.reverseRecOn generalizing t with
  | nil =>
    obtain rfl := Option.some.inj h
    rfl
  | append_singleton path p ih =>
    rw [insertPoints_snoc] at h
    obtain ⟨t1, h1, h⟩ := Option.bind_eq_some_iff.mp h
    obtain ⟨⟨answer, map⟩, hinsert, h⟩ := Option.bind_eq_some_iff.mp h
    obtain rfl := Option.some.inj h
    exact (insert_strategy hinsert).trans (ih h1)

theorem insertPoints_holds {mg : Margins K} {s : SimpleHashStrategy K} (hdims : s.cellDims.length = 3)
    {path : List (PathPoint K)} (hne : path ≠ []) {t : TrackedPath K}
    (h : insertPoints mg (newTrackedPath s) path = some t) : Holds mg t path := by
  induction path using List.reverseRecOn generalizing t with
  | nil => exact absurd rfl hne
  | append_singleton path p ih =>
    rw [insertPoints_snoc] at h
    obtain ⟨t1, h1, h⟩ := Option.bind_eq_some_iff.mp h
    refine insertPoint_holds ?_ ?_ (fun hpath => ih hpath h1) h
    · unfold NSpatialHashMap.numDimensions
      rw [insertPoints_strategy h1, hdims]
    · rintro rfl
      obtain rfl := Option.some.inj h1
      rfl

omit [FloorRing K] in
theorem expired_holds {mg : Margins K} {t : TrackedPath K} {path : List (PathPoint K)}
    (h : Holds mg t path) [IsStrictOrderedRing K] (hmargin : 0 < mg.timeMargin) {p : PathPoint K}
    (hp : p ∈ path) {minTime : K} (htime : minTime ≤ p.stamp) : expired minTime t = some false := by
  obtain ⟨bounds, hb, hlen, hin⟩ := h
  obtain ⟨r0, r1, r2, hrows⟩ := List.length_eq_three.mp hlen
  have hupper := (CartesianObject.ownBounds_within_iff _ _).mp (hin p hp)
    [p.downtrack + mg.downtrackMargin, p.crosstrack + mg.crosstrackMargin, p.stamp + mg.timeMargin]
    (List.mem_cons_of_mem _ (List.mem_cons_self ..))
  rw [hrows] at hupper
  obtain ⟨-, hupper⟩ := List.forall₂_cons.mp hupper
  obtain ⟨-, hupper⟩ := List.forall₂_cons.mp hupper
  obtain ⟨hrow, -⟩ := List.forall₂_cons.mp hupper
  have hlater : minTime ≤ r2.2 := htime.trans ((le_add_of_nonneg_right hmargin.le).trans hrow.2)
  unfold expired
  rw [hb]
  simp [hrows, hlater]

/-! ## The two searches -/

/-- At this point both searches come to the same: it is on the route, the call for its
box comes back, and if the box collides then the map surrounds its centre, and the
lane of the point is the one on segment 0 at the crosstrack of the centre. -/
def SameAt (mg : Margins K) (route : Route K) (t : TrackedPath K) (p : PathPoint K) : Prop :=
  ∃ seg seg0 found, route.getSegment p.segmentIdx = some seg ∧ route.getSegment 0 = some seg0 ∧
    (t.map.getCollisionsOfNew Prod.snd (mg.boxAround (mg.transformed p))).join = some found ∧
    (found ≠ ∅ → t.map.surrounds (location (mg.transformed p)) = true ∧
      seg.determinePrimaryLane p.crosstrack =
        seg0.determinePrimaryLane (mg.transformed p).crosstrack)

/-- The manager tracks this path only. -/
structure TracksOnly (m : ConflictManager K V) (mg : Margins K) (route : Route K) (id : V)
    (t : TrackedPath K) : Prop where
  margins : m.margins = mg
  route_set : m.route = route
  mobility : m.mobilityPathSpatialMaps = [(id, t)]
  requested : m.requestedPathSpatialMaps = []

theorem collidesWith_same {mg : Margins K} {t : TrackedPath K} {p : PathPoint K}
    {found : Finset (Stored K)}
    (hfound : (t.map.getCollisionsOfNew Prod.snd (mg.boxAround (mg.transformed p))).join =
      some found)
    (hsurrounds : found ≠ ∅ → t.map.surrounds (location (mg.transformed p)) = true) :
    collidesWith mg t p = some (decide (found ≠ ∅)) := by
  unfold collidesWith
  rw [hfound]
  split
  · rfl
  · rename_i hout
    rw [decide_eq_false (fun hne => hout (hsurrounds hne))]

variable [DecidableEq V]

omit [FloorRing K] in
theorem tracksOnly_prune {m : ConflictManager K V} {mg : Margins K} {route : Route K} {id : V}
    {t : TrackedPath K} (h : TracksOnly m mg route id t) {minTime : K}
    (hlive : expired minTime t = some false) (requested : Bool) :
    TracksOnly (m.prune requested minTime) mg route id t := by
  obtain ⟨hmargins, hroute, hmobility, hrequested⟩ := h
  cases requested with
  | false =>
    refine ⟨hmargins, hroute, ?_, hrequested⟩
    unfold prune unexpired
    simp [hmobility, hlive]
  | true =>
    refine ⟨hmargins, hroute, hmobility, ?_⟩
    unfold prune unexpired
    simp [hrequested]

/-- The checks of a point report the path, if it collides. -/
theorem findVehicles_only {m : ConflictManager K V} {mg : Margins K} {route : Route K} {id : V}
    {t : TrackedPath K} (h : TracksOnly m mg route id t) {minTime : K}
    (hlive : expired minTime t = some false) {p : PathPoint K} {collides : Bool}
    (hcollides : collidesWith mg t p = some collides) :
    ∃ m', m.findVehicles minTime p = some (if collides then [some id] else [], m') ∧
      TracksOnly m' mg route id t := by
  have hreports : m.reports false minTime p = some (if collides then [some id] else []) := by
    unfold reports
    rw [if_neg Bool.false_ne_true, h.margins, h.mobility]
    simp [collisionsIn, hlive, hcollides]
  have hpruned := tracksOnly_prune h hlive false
  unfold findVehicles hasCollision
  rw [hreports]
  cases collides with
  | true => exact ⟨_, rfl, hpruned⟩
  | false =>
    have hnone : (m.prune false minTime).reports true minTime p = some [] := by
      unfold reports
      rw [if_pos rfl, hpruned.requested]
      rfl
    refine ⟨_, ?_, tracksOnly_prune hpruned hlive true⟩
    simp [hnone]

/-- One turn of both loops. -/
theorem turns_same {m m0 : ConflictManager K V} {mg : Margins K} {route : Route K} {id : V}
    {t : TrackedPath K} (h : TracksOnly m mg route id t) (h0 : TracksOnly m0 mg route id t)
    {minTime : K} (hlive : expired minTime t = some false) {p : PathPoint K}
    (hp : minTime ≤ p.stamp) (hsame : SameAt mg route t p) {st : Tracking K V} (hst : Sound st) :
    ∃ m' st', checkPoint minTime (m, st) p = some (m', st') ∧ TracksOnly m' mg route id t ∧
      Sound st' ∧ m0.checkPair t st.bare p = some st'.bare := by
  obtain ⟨seg, seg0, found, hseg, hseg0, hfound, hagree⟩ := hsame
  have hcollides := collidesWith_same hfound (fun hne => (hagree hne).1)
  obtain ⟨m', hfind, htracks⟩ := findVehicles_only h hlive hcollides
  have hlane : decide (found ≠ ∅) = true → seg.determinePrimaryLane p.crosstrack =
      seg0.determinePrimaryLane (mg.transformed p).crosstrack :=
    fun hne => (hagree (of_decide_eq_true hne)).2
  obtain ⟨st', hturn, hsound, hbare⟩ := turn_bare mg hst p hlane
    (if decide (found ≠ ∅) then [some id] else []).toFinset
  refine ⟨m', st', ?_, htracks, hsound, ?_⟩
  · have hempty : (!(if decide (found ≠ ∅) then [some id] else []).isEmpty) =
        decide (found ≠ ∅) := by
      cases decide (found ≠ ∅) <;> rfl
    unfold checkPoint
    rw [if_neg (not_lt.mpr hp), h.route_set, hseg]
    simp only [Option.bind_eq_bind, Option.bind_some, hfind, htracks.margins]
    rw [hempty, hturn]
    rfl
  · unfold checkPair
    simp only [h0.margins, h0.route_set]
    rw [show (mg.transformed p).segmentIdx = 0 from rfl, hseg0, hfound]
    exact hbare

/-- Both loops over the host path. -/
theorem loops_same {m m0 : ConflictManager K V} {mg : Margins K} {route : Route K} {id : V}
    {t : TrackedPath K} (h : TracksOnly m mg route id t) (h0 : TracksOnly m0 mg route id t)
    {minTime : K} (hlive : expired minTime t = some false) {hostPath : List (PathPoint K)}
    (hstamps : ∀ p ∈ hostPath, minTime ≤ p.stamp) (hsame : ∀ p ∈ hostPath, SameAt mg route t p)
    {st : Tracking K V} (hst : Sound st) :
    ∃ m' st', hostPath.foldlM (checkPoint minTime) (m, st) = some (m', st') ∧
      TracksOnly m' mg route id t ∧ Sound st' ∧
      hostPath.foldlM (m0.checkPair t) st.bare = some st'.bare := by
  induction hostPath generalizing m st with
  | nil => exact ⟨m, st, rfl, h, hst, rfl⟩
  | cons p rest ih =>
    obtain ⟨hp, hrest⟩ := List.forall_mem_cons.mp hstamps
    obtain ⟨hsamep, hsamerest⟩ := List.forall_mem_cons.mp hsame
    obtain ⟨m1, st1, hone, htracks, hsound, hpair⟩ := turns_same h h0 hlive hp hsamep hst
    obtain ⟨m', st', hloop, hend⟩ := ih htracks hrest hsamerest hsound
    refine ⟨m', st', ?_, hend.1, hend.2.1, ?_⟩
    · rw [List.foldlM_cons, hone]
      exact hloop
    · rw [List.foldlM_cons, hpair]
      exact hend.2.2

/-! ## The law -/

/-- Both searches come back with the same ranges, lanes and segments. -/
def BothAgree (m : ConflictManager K V) (minTime : K) (hostPath otherPath : List (PathPoint K)) :
    Prop :=
  ∃ conflicts m' pairConflicts, m.getConflicts minTime hostPath = some (conflicts, m') ∧
    m.getPairConflicts hostPath otherPath = some pairConflicts ∧
    conflicts.map (·.bare) = pairConflicts.map (·.bare)

theorem addMobilityPath_tracksOnly {s : SimpleHashStrategy K} {mg : Margins K} {route : Route K}
    {id : V} {path : List (PathPoint K)} (hne : path ≠ []) {m : ConflictManager K V}
    (h : (newConflictManager s mg route).addMobilityPath path id = some (true, m)) :
    m.structureFactory = s ∧ ∃ t, insertPoints mg (newTrackedPath s) path = some t ∧
      TracksOnly m mg route id t := by
  unfold addMobilityPath at h
  rw [if_neg (fun hc => hne (List.isEmpty_iff.mp hc))] at h
  split at h
  · cases h
  · rename_i maps hmaps
    obtain rfl := (Prod.mk.inj (Option.some.inj h)).2
    obtain ⟨t, ht, hmaps⟩ := Option.bind_eq_some_iff.mp hmaps
    exact ⟨rfl, t, ht, rfl, rfl, (Option.some.inj hmaps).symm, rfl⟩

section agreement

variable [IsStrictOrderedRing K] {s : SimpleHashStrategy K} {mg : Margins K} {route : Route K}
  {id : V} {minTime : K} {otherPath : List (PathPoint K)} {m : ConflictManager K V}
  {t : TrackedPath K}

omit [IsStrictOrderedRing K] in
/-- A call for a host box that comes back has cells of three dimensions. -/
theorem dims_of_found (ht : insertPoints mg (newTrackedPath s) otherPath = some t)
    {p : PathPoint K} {found : Finset (Stored K)}
    (hfound : (t.map.getCollisionsOfNew Prod.snd (mg.boxAround p)).join = some found) :
    s.cellDims.length = 3 := by
  by_contra hne
  unfold NSpatialHashMap.getCollisionsOfNew NSpatialHashMap.getCollisionsOf at hfound
  rw [if_pos] at hfound
  · cases hfound
  · unfold NSpatialHashMap.numDimensions
    rw [insertPoints_strategy ht]
    exact fun hc => hne hc.symm

theorem live_of_found (ht : insertPoints mg (newTrackedPath s) otherPath = some t)
    (hmargin : 0 < mg.timeMargin) (hother : otherPath ≠ [])
    (hstamps : ∀ p ∈ otherPath, minTime ≤ p.stamp) {p : PathPoint K} {found : Finset (Stored K)}
    (hfound : (t.map.getCollisionsOfNew Prod.snd (mg.boxAround p)).join = some found) :
    expired minTime t = some false := by
  obtain ⟨q, others, rfl⟩ := List.exists_cons_of_ne_nil hother
  exact expired_holds (insertPoints_holds (dims_of_found ht hfound) hother ht) hmargin
    (List.mem_cons_self ..) (hstamps q (List.mem_cons_self ..))

theorem agree_of_same (hfactory : m.structureFactory = s)
    (ht : insertPoints mg (newTrackedPath s) otherPath = some t)
    (htracks : TracksOnly m mg route id t) (hmargin : 0 < mg.timeMargin) (hother : otherPath ≠ [])
    (hotherStamps : ∀ p ∈ otherPath, minTime ≤ p.stamp) {hostPath : List (PathPoint K)}
    (hstamps : ∀ p ∈ hostPath, minTime ≤ p.stamp) (hsame : ∀ p ∈ hostPath, SameAt mg route t p) :
    BothAgree m minTime hostPath otherPath := by
  unfold BothAgree ConflictManager.getConflicts getPairConflicts
  cases hostPath with
  | nil => exact ⟨[], m, [], rfl, rfl, rfl⟩
  | cons p rest =>
    obtain ⟨_, _, found, -, -, hfound, -⟩ := hsame p (List.mem_cons_self ..)
    have hlive := live_of_found ht hmargin hother hotherStamps hfound
    have hnew : Sound (⟨[], none, none⟩ : Tracking K V) := fun hc => absurd hc Bool.false_ne_true
    obtain ⟨m', st', hloop, htracks', hsound, hpair⟩ :=
      loops_same htracks htracks hlive hstamps hsame hnew
    obtain ⟨cs, hfinish, hfinishBare⟩ := finish_bare mg hsound
    refine ⟨cs, m', cs.map (·.bare), ?_, ?_, ?_⟩
    · rw [if_neg (by simp), hloop]
      simp [htracks'.margins, hfinish]
    · rw [if_neg (by simp [hother]), htracks.margins, hfactory, ht]
      exact (congrArg (Option.bind · (finish mg)) hpair).trans hfinishBare
    · rw [List.map_map]
      rfl

/-! ## From the conflicts to the points -/

omit [IsStrictOrderedRing K] [DecidableEq V] in
/-- A turn of the search with two paths. -/
theorem checkPair_spec (htracks : TracksOnly m mg route id t) {st st' : Tracking K V}
    {p : PathPoint K} (h : m.checkPair t st p = some st') :
    ∃ seg0 found, route.getSegment 0 = some seg0 ∧
      (t.map.getCollisionsOfNew Prod.snd (mg.boxAround (mg.transformed p))).join = some found ∧
      turn mg st p (seg0.determinePrimaryLane (mg.transformed p).crosstrack)
        (decide (found ≠ ∅)) ∅ = some st' := by
  unfold checkPair at h
  simp only [htracks.margins, htracks.route_set] at h
  obtain ⟨seg0, hseg0, h⟩ := Option.bind_eq_some_iff.mp h
  obtain ⟨found, hfound, h⟩ := Option.bind_eq_some_iff.mp h
  exact ⟨seg0, found, hseg0, hfound, h⟩

omit [IsStrictOrderedRing K] in
/-- A turn of the search with the tracked path. -/
theorem checkPoint_only (htracks : TracksOnly m mg route id t)
    (hlive : expired minTime t = some false) {p : PathPoint K} (hp : minTime ≤ p.stamp)
    {st st' : Tracking K V} {m' : ConflictManager K V}
    (h : checkPoint minTime (m, st) p = some (m', st')) :
    ∃ seg collides vehicles, route.getSegment p.segmentIdx = some seg ∧
      collidesWith mg t p = some collides ∧
      turn mg st p (seg.determinePrimaryLane p.crosstrack) collides vehicles = some st' ∧
      TracksOnly m' mg route id t := by
  unfold checkPoint at h
  rw [if_neg (not_lt.mpr hp), htracks.route_set] at h
  obtain ⟨seg, hseg, h⟩ := Option.bind_eq_some_iff.mp h
  obtain ⟨⟨vehicles, m1⟩, hfind, h⟩ := Option.bind_eq_some_iff.mp h
  obtain ⟨st1, hturn, h⟩ := Option.bind_eq_some_iff.mp h
  obtain ⟨rfl, rfl⟩ := Prod.mk.inj (Option.some.inj h)
  -- the check of the only map came back
  obtain ⟨collides, hcollides⟩ : ∃ collides, collidesWith mg t p = some collides := by
    cases hc : collidesWith mg t p with
    | some collides => exact ⟨collides, rfl⟩
    | none =>
      have hreports : m.reports false minTime p = none := by
        unfold reports
        rw [if_neg Bool.false_ne_true, htracks.margins, htracks.mobility]
        simp [collisionsIn, hlive, hc]
      unfold findVehicles hasCollision at hfind
      rw [hreports] at hfind
      cases hfind
  obtain ⟨m2, hfound, htracks'⟩ := findVehicles_only htracks hlive hcollides
  rw [hfound] at hfind
  obtain ⟨rfl, rfl⟩ := Prod.mk.inj (Option.some.inj hfind)
  have hempty : (!(if collides then [some id] else []).isEmpty) = collides := by
    cases collides <;> rfl
  rw [htracks'.margins, hempty] at hturn
  exact ⟨seg, collides, _, hseg, hcollides, hturn, htracks'⟩

omit [IsStrictOrderedRing K] [DecidableEq V] in
theorem pairLoop_leads (htracks : TracksOnly m mg route id t) {hostPath : List (PathPoint K)}
    {st st' : Tracking K V} (hloop : hostPath.foldlM (m.checkPair t) st = some st')
    {out : List (ConflictSpace K V)} (hfinish : finish mg st' = some out) :
    Leads mg st hostPath out := by
  induction hostPath generalizing st with
  | nil =>
    obtain rfl := Option.some.inj hloop
    exact Leads.finished hfinish
  | cons p rest ih =>
    obtain ⟨st1, hone, hloop⟩ := Option.bind_eq_some_iff.mp hloop
    obtain ⟨seg0, found, -, -, hturn⟩ := checkPair_spec htracks hone
    exact Leads.turned hturn (ih hloop)

omit [IsStrictOrderedRing K] in
theorem loop_leads (htracks : TracksOnly m mg route id t) (hlive : expired minTime t = some false)
    {hostPath : List (PathPoint K)} (hstamps : ∀ p ∈ hostPath, minTime ≤ p.stamp)
    {st st' : Tracking K V} {m' : ConflictManager K V}
    (hloop : hostPath.foldlM (checkPoint minTime) (m, st) = some (m', st')) :
    TracksOnly m' mg route id t ∧ ∀ out, finish mg st' = some out → Leads mg st hostPath out := by
  induction hostPath generalizing m st with
  | nil =>
    obtain ⟨rfl, rfl⟩ := Prod.mk.inj (Option.some.inj hloop)
    exact ⟨htracks, fun out hfinish => Leads.finished hfinish⟩
  | cons p rest ih =>
    obtain ⟨hp, hrest⟩ := List.forall_mem_cons.mp hstamps
    obtain ⟨⟨m1, st1⟩, hone, hloop⟩ := Option.bind_eq_some_iff.mp hloop
    obtain ⟨seg, collides, vehicles, -, -, hturn, htracks'⟩ := checkPoint_only htracks hlive hp hone
    obtain ⟨hlast, hleads⟩ := ih htracks' hrest hloop
    exact ⟨hlast, fun out hfinish => Leads.turned hturn (hleads out hfinish)⟩

/-- Loops that lead to the same conflicts came to the same at each point. -/
theorem same_of_loops {m0 : ConflictManager K V} (hmargin : 0 < mg.downtrackMargin)
    (h : TracksOnly m mg route id t) (h0 : TracksOnly m0 mg route id t)
    (hlive : expired minTime t = some false) {hostPath : List (PathPoint K)}
    (hstamps : ∀ p ∈ hostPath, minTime ≤ p.stamp) (hfar : FarApart mg hostPath)
    {st stPair st1 stPair1 : Tracking K V} {m1 : ConflictManager K V}
    (hst : Sound st) (hstPair : Sound stPair) (hbefore : Before mg st.bare hostPath)
    (hbare : st.bare = stPair.bare)
    (hloop : hostPath.foldlM (checkPoint minTime) (m, st) = some (m1, st1))
    (hpair : hostPath.foldlM (m0.checkPair t) stPair = some stPair1)
    {out outPair : List (ConflictSpace K V)} (hfinish : finish mg st1 = some out)
    (hfinishPair : finish mg stPair1 = some outPair)
    (hout : out.map (·.bare) = outPair.map (·.bare)) :
    ∀ p ∈ hostPath, SameAt mg route t p := by
  induction hostPath generalizing m st stPair with
  | nil => simp
  | cons p rest ih =>
    obtain ⟨hp, hrest⟩ := List.forall_mem_cons.mp hstamps
    obtain ⟨⟨m2, st2⟩, hone, hloop⟩ := Option.bind_eq_some_iff.mp hloop
    obtain ⟨stPair2, honePair, hpair⟩ := Option.bind_eq_some_iff.mp hpair
    obtain ⟨seg, collides, vehicles, hseg, hcollides, hturn, htracks⟩ :=
      checkPoint_only h hlive hp hone
    obtain ⟨seg0, found, hseg0, hfound, hturnPair⟩ := checkPair_spec h0 honePair
    -- without their vehicles, both turns start from one state
    obtain ⟨hsound, hA⟩ := turned_bare hst hturn
    obtain ⟨hsoundPair, hB⟩ := turned_bare hstPair hturnPair
    rw [← hbare] at hB
    have hAout := leads_bare ((loop_leads htracks hlive hrest hloop).2 out hfinish) hsound
    have hBout := leads_bare (pairLoop_leads h0 hpair hfinishPair) hsoundPair
    rw [← hout] at hBout
    obtain ⟨rfl, hlane⟩ := decisions_same hmargin hfar hbefore hA hAout hB hBout
    have hnext : st2.bare = stPair2.bare := by
      obtain ⟨st3, hA', -, hB'⟩ := turn_bare mg hst p hlane vehicles
      obtain rfl := Option.some.inj (hturn.symm.trans hA')
      exact Option.some.inj (hB'.symm.trans hB)
    refine List.forall_mem_cons.mpr ⟨⟨seg, seg0, found, hseg, hseg0, hfound, fun hne => ?_⟩, ?_⟩
    · refine ⟨?_, hlane (decide_eq_true hne)⟩
      by_contra hout
      unfold collidesWith at hcollides
      rw [if_neg hout] at hcollides
      exact absurd hne (of_decide_eq_false (Option.some.inj hcollides).symm)
    · exact ih htracks hrest (List.pairwise_cons.mp hfar).2 hsound hsoundPair
        (turn_before hmargin hfar hbefore hA) hnext hloop hpair

theorem same_of_agree (hfactory : m.structureFactory = s)
    (ht : insertPoints mg (newTrackedPath s) otherPath = some t)
    (htracks : TracksOnly m mg route id t) (hdowntrack : 0 < mg.downtrackMargin)
    (htime : 0 < mg.timeMargin) (hother : otherPath ≠ [])
    (hotherStamps : ∀ p ∈ otherPath, minTime ≤ p.stamp) {hostPath : List (PathPoint K)}
    (hstamps : ∀ p ∈ hostPath, minTime ≤ p.stamp) (hfar : FarApart mg hostPath)
    (h : BothAgree m minTime hostPath otherPath) : ∀ p ∈ hostPath, SameAt mg route t p := by
  obtain ⟨conflicts, m', pairConflicts, hsearch, hpair, hbare⟩ := h
  cases hostPath with
  | nil => simp
  | cons p rest =>
    unfold ConflictManager.getConflicts at hsearch
    unfold getPairConflicts at hpair
    rw [if_neg (by simp)] at hsearch
    rw [if_neg (by simp [hother]), htracks.margins, hfactory, ht] at hpair
    obtain ⟨⟨m1, st1⟩, hloop, hsearch⟩ := Option.bind_eq_some_iff.mp hsearch
    obtain ⟨out, hfinish, hsearch⟩ := Option.bind_eq_some_iff.mp hsearch
    obtain ⟨rfl, rfl⟩ := Prod.mk.inj (Option.some.inj hsearch)
    obtain ⟨t1, ht1, hpair⟩ := Option.bind_eq_some_iff.mp hpair
    obtain rfl := Option.some.inj ht1
    obtain ⟨stPair1, hloopPair, hfinishPair⟩ := Option.bind_eq_some_iff.mp hpair
    -- the first turn has a call for a box that came back
    obtain ⟨_, hone, -⟩ := Option.bind_eq_some_iff.mp hloopPair
    obtain ⟨_, found, -, hfound, -⟩ := checkPair_spec htracks hone
    have hlive := live_of_found ht htime hother hotherStamps hfound
    rw [(loop_leads htracks hlive hstamps hloop).1.margins] at hfinish
    have hnew : Sound (⟨[], none, none⟩ : Tracking K V) := fun hc => absurd hc Bool.false_ne_true
    have hbefore : Before mg (⟨[], none, none⟩ : Tracking K V).bare (p :: rest) :=
      fun c hc => absurd hc.symm (Option.some_ne_none c)
    exact same_of_loops hdowntrack htracks htracks hlive hstamps hfar hnew hnew hbefore rfl hloop
      hloopPair hfinish hfinishPair hbare

/-- With one tracked path, both searches agree on a host path where they come to the
same at each point, and if its points are far apart on no other. -/
theorem both_searches_agree_when_each_point_is_the_same (s : SimpleHashStrategy K)
    (mg : Margins K) (hdowntrack : 0 < mg.downtrackMargin) (htime : 0 < mg.timeMargin)
    (route : Route K) (id : V) (minTime : K) (otherPath : List (PathPoint K))
    (hother : otherPath ≠ []) (hotherStamps : ∀ p ∈ otherPath, minTime ≤ p.stamp)
    {m : ConflictManager K V}
    (hadd : (newConflictManager s mg route).addMobilityPath otherPath id = some (true, m)) :
    ∃ t, insertPoints mg (newTrackedPath s) otherPath = some t ∧
      ∀ hostPath, (∀ p ∈ hostPath, minTime ≤ p.stamp) →
        ((∀ p ∈ hostPath, SameAt mg route t p) → BothAgree m minTime hostPath otherPath) ∧
        (FarApart mg hostPath →
          (BothAgree m minTime hostPath otherPath ↔ ∀ p ∈ hostPath, SameAt mg route t p)) := by
  obtain ⟨hfactory, t, ht, htracks⟩ := addMobilityPath_tracksOnly hother hadd
  refine ⟨t, ht, fun hostPath hstamps => ?_⟩
  have henough := agree_of_same hfactory ht htracks htime hother hotherStamps hstamps
  exact ⟨henough, fun hfar => ⟨same_of_agree hfactory ht htracks hdowntrack htime hother
    hotherStamps hstamps hfar, henough⟩⟩

end agreement

end maps

/-! ## A road that gets wider -/

/-- A segment of one lane, and then one of three. -/
def wideningRoad : Route ℚ :=
  ⟨[⟨10, ⟨0, 1, 4⟩, ⟨1, 1, 4⟩⟩, ⟨10, ⟨1, 1, 4⟩, ⟨2, 3, 4⟩⟩]⟩

/-- A manager on this road that tracks one path. -/
def tracked (path : List (PathPoint ℚ)) : ConflictManager ℚ ℕ :=
  (((newConflictManager tenMeters unitMargins wideningRoad).addMobilityPath path 1).map
    (·.2)).getD (newConflictManager tenMeters unitMargins wideningRoad)

/-- Points on the first segment that are far from each other. -/
def firstPoints : List (PathPoint ℚ) := [onRoad (9 / 2) 0, onRoad (23 / 4) 0]

theorem firstSegment_is_searched_alike :
    BothAgree (tracked [onRoad 5 0]) 0 firstPoints [onRoad 5 0] := by
  have hreturns : ((newConflictManager (V := ℕ) tenMeters unitMargins wideningRoad).addMobilityPath
      [onRoad 5 0] 1).map (·.1) = some true := by decide +kernel
  obtain ⟨⟨_, m⟩, hadd, rfl⟩ := Option.map_eq_some_iff.mp hreturns
  have htracked : tracked [onRoad 5 0] = m := by
    unfold tracked
    rw [hadd]
    rfl
  rw [htracked]
  obtain ⟨t, ht, hlaw⟩ := both_searches_agree_when_each_point_is_the_same tenMeters unitMargins
    (by decide +kernel) (by decide +kernel) wideningRoad 1 0 [onRoad 5 0] (List.cons_ne_nil _ _)
    (by decide +kernel) hadd
  have hfar : FarApart unitMargins firstPoints := by unfold FarApart; decide +kernel
  refine ((hlaw firstPoints (by decide +kernel)).2 hfar).mpr ?_
  have hchecks : (insertPoints unitMargins (newTrackedPath tenMeters) [onRoad 5 0]).all (fun t =>
      firstPoints.all fun p =>
        (t.map.getCollisionsOfNew Prod.snd
          (unitMargins.boxAround (unitMargins.transformed p))).join.isSome &&
        t.map.surrounds (location (unitMargins.transformed p))) = true := by
    decide +kernel
  rw [ht, Option.all_some, List.all_eq_true] at hchecks
  intro p hp
  have hsegment : p.segmentIdx = 0 ∧ p.crosstrack = (unitMargins.transformed p).crosstrack := by
    revert p
    decide +kernel
  obtain ⟨hreturns, hsurrounds⟩ := Bool.and_eq_true_iff.mp (hchecks p hp)
  obtain ⟨found, hfound⟩ := Option.isSome_iff_exists.mp hreturns
  rw [SameAt, hsegment.1, hsegment.2]
  exact ⟨_, _, found, rfl, rfl, hfound, fun _ => ⟨hsurrounds, rfl⟩⟩

/-- A point on the second segment. -/
def onSecond : PathPoint ℚ := ⟨15, 0, 0, 1, 5⟩

/-- The search with tracked paths finds the conflict in lane 1, the other in lane 0. -/
theorem the_second_segment_is_searched_with_the_lanes_of_the_first :
    ¬ BothAgree (tracked [onSecond]) 0 [onSecond] [onSecond] := by
  rintro ⟨conflicts, m', pairConflicts, h, hpair, hsame⟩
  have hlanes : ((tracked [onSecond]).getConflicts 0 [onSecond]).map
      (fun r => r.1.map (·.lane)) = some [1] := by decide +kernel
  have hpairLanes : ((tracked [onSecond]).getPairConflicts [onSecond] [onSecond]).map
      (fun cs => cs.map (·.lane)) = some [0] := by decide +kernel
  rw [h] at hlanes
  rw [hpair] at hpairLanes
  have hboth := congrArg (List.map (·.lane)) hsame
  rw [List.map_map, List.map_map] at hboth
  exact absurd ((Option.some.inj hlanes).symm.trans (hboth.trans (Option.some.inj hpairLanes)))
    (by decide)

end carma.conflict_manager
