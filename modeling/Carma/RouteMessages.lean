-- What a route is after it went through its message. The message keeps the first
-- waypoint and the downtrack waypoint of each segment, and the segments are built
-- again from these.
import Carma.RouteBuilding
import Carma.WaypointMessages
import Mathlib.Data.List.Chain

namespace carma.route_node

variable {K P F : Type}

/-! ## The segments of the loop -/

/-- The segments between each waypoint and the next. -/
def pairsFrom (geo : Geodesy K P F) : RouteWaypoint K → List (RouteWaypoint K) → List (RouteSegment K F)
  | _, [] => []
  | wp, next :: wps => RouteSegment.new geo wp next :: pairsFrom geo next wps

/-- Both waypoints are in one lane. -/
def SameLane (a b : RouteWaypoint K) : Prop := a.laneIndex = b.laneIndex

@[simp] theorem placed_laneIndex (geo : Geodesy K P F) (b : Building K F)
    (prevWaypoint waypoint : RouteWaypoint K) :
    (b.placed geo prevWaypoint waypoint).laneIndex = prevWaypoint.laneIndex := by
  unfold Building.placed
  split <;> rfl

theorem placed_of_sameLane (geo : Geodesy K P F) {b : Building K F}
    (h : b.updatePreviousWP = false) (prevWaypoint waypoint : RouteWaypoint K) :
    b.placed geo prevWaypoint waypoint = prevWaypoint := by
  unfold Building.placed
  rw [h]

theorem turn_sameLane (geo : Geodesy K P F) {b : Building K F} {prev wp : RouteWaypoint K}
    (hprev : b.prevWaypoint = some prev) (hlane : SameLane prev wp) :
    b.turn geo wp = ⟨b.segments ++ [RouteSegment.new geo (b.placed geo prev wp) wp],
      b.passed ++ [b.placed geo prev wp], some wp, false⟩ := by
  unfold Building.turn
  rw [hprev]
  exact if_pos hlane

theorem turn_otherLane (geo : Geodesy K P F) {b : Building K F} {prev wp : RouteWaypoint K}
    (hprev : b.prevWaypoint = some prev) (hlane : ¬ SameLane prev wp) :
    b.turn geo wp = ⟨b.segments, b.passed ++ [prev], some wp, true⟩ := by
  unfold Building.turn
  rw [hprev]
  exact if_neg hlane

theorem turns_sameLane (geo : Geodesy K P F) {b : Building K F} {prev : RouteWaypoint K}
    (hprev : b.prevWaypoint = some prev) (hup : b.updatePreviousWP = false)
    {wps : List (RouteWaypoint K)} (hlane : (prev :: wps).IsChain SameLane) :
    (wps.foldl (Building.turn geo) b).segments = b.segments ++ pairsFrom geo prev wps := by
  induction wps generalizing b prev with
  | nil => simp [pairsFrom]
  | cons wp wps ih =>
    rw [List.isChain_cons_cons] at hlane
    rw [List.foldl_cons, turn_sameLane geo hprev hlane.1, ih rfl rfl hlane.2,
      placed_of_sameLane geo hup]
    simp [pairsFrom]

/-- There is never more than one segment for a further waypoint, and where the lane
changes there is none. -/
theorem turns_length (geo : Geodesy K P F) {b : Building K F} {prev : RouteWaypoint K}
    (hprev : b.prevWaypoint = some prev) (wps : List (RouteWaypoint K)) :
    (wps.foldl (Building.turn geo) b).segments.length ≤ b.segments.length + wps.length ∧
    (¬ (prev :: wps).IsChain SameLane →
      (wps.foldl (Building.turn geo) b).segments.length < b.segments.length + wps.length) := by
  induction wps generalizing b prev with
  | nil => simp
  | cons wp wps ih =>
    rw [List.foldl_cons, List.isChain_cons_cons, List.length_cons]
    by_cases hlane : SameLane prev wp
    · rw [turn_sameLane geo hprev hlane]
      obtain ⟨hle, hlt⟩ := ih (b := ⟨b.segments ++ [RouteSegment.new geo (b.placed geo prev wp) wp],
        b.passed ++ [b.placed geo prev wp], some wp, false⟩) rfl
      simp only [List.length_append, List.length_singleton] at hle hlt
      refine ⟨by omega, ?_⟩
      intro hnot
      have hrest := hlt (fun hchain => hnot ⟨hlane, hchain⟩)
      omega
    · rw [turn_otherLane geo hprev hlane]
      have hle := (ih (b := ⟨b.segments, b.passed ++ [prev], some wp, true⟩) rfl).1
      simp only at hle
      exact ⟨by omega, fun _ => by omega⟩

theorem build_cons (geo : Geodesy K P F) (wp : RouteWaypoint K) (wps : List (RouteWaypoint K)) :
    build geo (wp :: wps) = wps.foldl (Building.turn geo) ⟨[], [], some wp, false⟩ := rfl

theorem build_sameLane (geo : Geodesy K P F) {wp : RouteWaypoint K} {wps : List (RouteWaypoint K)}
    (hlane : (wp :: wps).IsChain SameLane) :
    (build geo (wp :: wps)).segments = pairsFrom geo wp wps := by
  rw [build_cons, turns_sameLane geo rfl rfl hlane]
  rfl

/-- A list that changes lanes gives fewer. -/
theorem build_length_lt (geo : Geodesy K P F) {wp : RouteWaypoint K} {wps : List (RouteWaypoint K)}
    (hlane : ¬ (wp :: wps).IsChain SameLane) :
    (build geo (wp :: wps)).segments.length < wps.length := by
  rw [build_cons]
  have hlt := (turns_length geo (b := ⟨[], [], some wp, false⟩) rfl wps).2 hlane
  simpa using hlt

theorem turn_inLane (geo : Geodesy K P F) {b : Building K F}
    (h : ∀ seg ∈ b.segments, SameLane seg.uptrackWP seg.downtrackWP) (wp : RouteWaypoint K) :
    ∀ seg ∈ (b.turn geo wp).segments, SameLane seg.uptrackWP seg.downtrackWP := by
  unfold Building.turn
  split
  · exact h
  · split
    · rename_i hlane
      intro seg hseg
      rcases List.mem_append.mp hseg with hold | hnew
      · exact h seg hold
      · rw [List.mem_singleton.mp hnew]
        unfold SameLane
        simpa only [RouteSegment.new, placed_laneIndex] using hlane
    · exact h

theorem build_inLane (geo : Geodesy K P F) (waypointList : List (RouteWaypoint K)) :
    ∀ seg ∈ (build geo waypointList).segments, SameLane seg.uptrackWP seg.downtrackWP := by
  have hloop : ∀ (wps : List (RouteWaypoint K)) (b : Building K F),
      (∀ seg ∈ b.segments, SameLane seg.uptrackWP seg.downtrackWP) →
      ∀ seg ∈ (wps.foldl (Building.turn geo) b).segments,
        SameLane seg.uptrackWP seg.downtrackWP := by
    intro wps
    induction wps with
    | nil => exact fun b h => h
    | cons wp wps ih => exact fun b h => ih _ (turn_inLane geo h wp)
  apply hloop
  intro seg hseg
  cases hseg

/-! ## Waypoints and segments that are the same -/

/-- The waypoints are the same but for their ids. -/
def SameWaypoint (a b : RouteWaypoint K) : Prop := b = { a with waypointId := b.waypointId }

theorem SameWaypoint.symm {a b : RouteWaypoint K} (h : SameWaypoint a b) : SameWaypoint b a := by
  unfold SameWaypoint at *
  rw [h]

theorem SameWaypoint.trans {a b c : RouteWaypoint K} (hab : SameWaypoint a b)
    (hbc : SameWaypoint b c) : SameWaypoint a c := by
  unfold SameWaypoint at *
  rw [hbc, hab]

theorem SameWaypoint.sameLane {a b : RouteWaypoint K} (h : SameWaypoint a b) : SameLane a b := by
  unfold SameLane
  rw [h]

/-- The segments have the same waypoints. -/
def SameSegment (s t : RouteSegment K F) : Prop :=
  SameWaypoint s.uptrackWP t.uptrackWP ∧ SameWaypoint s.downtrackWP t.downtrackWP

/-- The second segment starts where the first ends. -/
def Joined (s t : RouteSegment K F) : Prop := SameWaypoint s.downtrackWP t.uptrackWP

section messages

variable [LinearOrder K] [Field K] [FloorRing K]

omit [LinearOrder K] [FloorRing K] in
theorem survives_of_same {toFloat : K → K} {a b : RouteWaypoint K} (hab : SameWaypoint a b)
    (h : Survives toFloat a) : Survives toFloat b := by
  rw [hab]
  exact ⟨h.roadType, h.lowerSpeedLimit, h.laneCount, h.upperSpeedLimit, h.laneIndex,
    h.requiredLaneIndex, h.laneClosures, h.laneWidth, h.nearestMileMarker⟩

/-- `b` is what comes back of `a`. -/
def ComesBack (toFloat : K → K) (a b : RouteWaypoint K) : Prop :=
  a.roadType ≠ none ∧ ∃ waypointIndex, b = a.reread toFloat waypointIndex

variable [IsStrictOrderedRing K]

theorem same_iff_survives {toFloat : K → K} {a b : RouteWaypoint K} (h : ComesBack toFloat a b) :
    SameWaypoint a b ↔ Survives toFloat a := by
  obtain ⟨hroad, i, rfl⟩ := h
  rw [← reread_eq_iff toFloat a i, and_iff_right hroad]
  rfl

theorem toMessage_comesBack {toFloat : K → K} {wp : RouteWaypoint K} {i : ℤ}
    {msg : RouteWaypointMsg K} (h : wp.toMessage toFloat i = some msg) :
    ComesBack toFloat wp (RouteWaypoint.fromMessage msg) := by
  have hread := fromMessage_toMessage toFloat wp i
  rw [h, Option.map_some] at hread
  split at hread
  · cases hread
  · rename_i hroad
    exact ⟨hroad, i, Option.some_inj.mp hread⟩

theorem toMessage_isSome (toFloat : K → K) {wp : RouteWaypoint K} (h : wp.roadType ≠ none)
    (i : ℤ) : ∃ msg, wp.toMessage toFloat i = some msg := by
  have hread := fromMessage_toMessage toFloat wp i
  rw [if_neg h, Option.map_eq_some_iff] at hread
  obtain ⟨msg, hmsg, -⟩ := hread
  exact ⟨msg, hmsg⟩

/-! ## The waypoints that the message keeps -/

/-- Each waypoint that the messages give comes back from the one that went in. -/
theorem segmentMsgs_comeBack {toFloat : K → K} {i : ℤ} {segs : List (RouteSegment K F)}
    {msgs : List (RouteSegmentMsg K F)} (h : segmentMsgs toFloat i segs = some msgs) :
    List.Forall₂ (fun seg msg =>
      ComesBack toFloat seg.uptrackWP (RouteWaypoint.fromMessage msg.prevWaypoint) ∧
      ComesBack toFloat seg.downtrackWP (RouteWaypoint.fromMessage msg.waypoint)) segs msgs := by
  induction segs generalizing i msgs with
  | nil =>
    cases h
    exact List.Forall₂.nil
  | cons seg segs ih =>
    simp only [segmentMsgs, RouteSegment.toMessage, Option.bind_eq_bind, Option.pure_def,
      Option.bind_eq_some_iff, Option.some_inj] at h
    obtain ⟨msg, ⟨prev, hprev, wp, hwp, rfl⟩, rest, hrest, rfl⟩ := h
    exact List.Forall₂.cons ⟨toMessage_comesBack hprev, toMessage_comesBack hwp⟩ (ih hrest)

theorem segmentMsgs_isSome (toFloat : K → K) (i : ℤ) {segs : List (RouteSegment K F)}
    (h : ∀ seg ∈ segs, seg.uptrackWP.roadType ≠ none ∧ seg.downtrackWP.roadType ≠ none) :
    ∃ msgs, segmentMsgs toFloat i segs = some msgs := by
  induction segs generalizing i with
  | nil => exact ⟨[], rfl⟩
  | cons seg segs ih =>
    obtain ⟨hup, hdown⟩ := h seg (by simp)
    obtain ⟨prev, hprev⟩ := toMessage_isSome toFloat hup i
    obtain ⟨wp, hwp⟩ := toMessage_isSome toFloat hdown (i + 1)
    obtain ⟨rest, hrest⟩ := ih (i + 1) (fun s hs => h s (by simp [hs]))
    refine ⟨⟨wp, prev, seg.length, seg.ecefToUptrackWP⟩ :: rest, ?_⟩
    simp [segmentMsgs, RouteSegment.toMessage, hprev, hwp, hrest]

/-! ## There and back -/

/-- The segments between waypoints that came back are the same as those that went in
just when these were joined and their downtrack waypoints survived. -/
theorem pairs_same_iff (geo : Geodesy K P F) {toFloat : K → K} (prev : RouteWaypoint K)
    {segs : List (RouteSegment K F)} {wps : List (RouteWaypoint K)}
    (h : List.Forall₂ (fun seg wp => ComesBack toFloat seg.downtrackWP wp) segs wps) :
    List.Forall₂ SameSegment segs (pairsFrom geo prev wps) ↔
      (∀ seg ∈ segs.head?, SameWaypoint seg.uptrackWP prev) ∧ segs.IsChain Joined ∧
      ∀ seg ∈ segs, Survives toFloat seg.downtrackWP := by
  induction h generalizing prev with
  | nil => simp [pairsFrom]
  | @cons seg wp segs wps hback _ ih =>
    have hsame := same_iff_survives hback
    rw [pairsFrom, List.forall₂_cons, ih]
    simp only [SameSegment, RouteSegment.new, hsame, List.head?_cons, Option.mem_some_iff,
      forall_eq', List.forall_mem_cons, List.isChain_cons]
    constructor
    · rintro ⟨⟨hup, hdown⟩, hhead, hchain, hall⟩
      refine ⟨hup, ⟨?_, hchain⟩, hdown, hall⟩
      intro next hnext
      exact (hsame.mpr hdown).trans (hhead next hnext).symm
    · rintro ⟨hup, ⟨hhead, hchain⟩, hdown, hall⟩
      refine ⟨⟨hup, hdown⟩, ?_, hchain, hall⟩
      intro next hnext
      exact (hhead next hnext).symm.trans (hsame.mpr hdown)

/-- What the segments must be for the message to keep them: each starts where the one
before it ends, and their waypoints survive their own messages. -/
structure Unbroken (toFloat : K → K) (segs : List (RouteSegment K F)) : Prop where
  joined : segs.IsChain Joined
  survive : ∀ seg ∈ segs, Survives toFloat seg.uptrackWP ∧ Survives toFloat seg.downtrackWP

omit [LinearOrder K] [FloorRing K] [IsStrictOrderedRing K] in
theorem unbroken_of_downtrack {toFloat : K → K} {segs : List (RouteSegment K F)}
    (hhead : ∀ seg ∈ segs.head?, Survives toFloat seg.uptrackWP) (hchain : segs.IsChain Joined)
    (hdown : ∀ seg ∈ segs, Survives toFloat seg.downtrackWP) : Unbroken toFloat segs := by
  refine ⟨hchain, ?_⟩
  induction segs with
  | nil =>
    intro seg hseg
    cases hseg
  | cons seg segs ih =>
    rw [List.isChain_cons] at hchain
    rw [List.forall_mem_cons] at hdown ⊢
    refine ⟨⟨hhead seg rfl, hdown.1⟩, ih ?_ hchain.2 hdown.2⟩
    intro next hnext
    exact survives_of_same (hchain.1 next hnext) hdown.1

omit [LinearOrder K] [Field K] [FloorRing K] [IsStrictOrderedRing K] in
theorem sameLane_of_pairs (geo : Geodesy K P F) {prev : RouteWaypoint K}
    {wps : List (RouteWaypoint K)}
    (h : ∀ seg ∈ pairsFrom geo prev wps, SameLane seg.uptrackWP seg.downtrackWP) :
    (prev :: wps).IsChain SameLane := by
  induction wps generalizing prev with
  | nil => exact List.isChain_singleton prev
  | cons wp wps ih =>
    rw [pairsFrom, List.forall_mem_cons] at h
    exact List.isChain_cons_cons.mpr ⟨h.1, ih h.2⟩

omit [LinearOrder K] [Field K] [FloorRing K] [IsStrictOrderedRing K] in
theorem same_inLane {segs ts : List (RouteSegment K F)} (h : List.Forall₂ SameSegment segs ts)
    (hlane : ∀ seg ∈ segs, SameLane seg.uptrackWP seg.downtrackWP) :
    ∀ t ∈ ts, SameLane t.uptrackWP t.downtrackWP := by
  induction h with
  | nil =>
    intro t ht
    cases ht
  | cons hsame _ ih =>
    rw [List.forall_mem_cons] at hlane ⊢
    refine ⟨?_, ih hlane.2⟩
    exact (hsame.1.symm.sameLane.trans hlane.1).trans hsame.2.sameLane

/-- What is built from the messages is the same as what went in just when that is
unbroken. -/
theorem rebuilt_same_iff (geo : Geodesy K P F) {toFloat : K → K} {i : ℤ}
    {segs : List (RouteSegment K F)} {msgs : List (RouteSegmentMsg K F)}
    (hmsgs : segmentMsgs toFloat i segs = some msgs)
    (hlane : ∀ seg ∈ segs, SameLane seg.uptrackWP seg.downtrackWP) :
    List.Forall₂ SameSegment segs (build geo (waypointsOfMsgs msgs)).segments ↔
      Unbroken toFloat segs := by
  have hback := segmentMsgs_comeBack hmsgs
  cases hback with
  | nil => exact iff_of_true List.Forall₂.nil ⟨List.isChain_nil, fun seg hseg => (by cases hseg)⟩
  | @cons seg msg segs msgs hfirst hrest =>
    set prev := RouteWaypoint.fromMessage msg.prevWaypoint
    set wps := (msg :: msgs).map (fun msg => RouteWaypoint.fromMessage msg.waypoint)
    have hwps : List.Forall₂ (fun seg wp => ComesBack toFloat seg.downtrackWP wp)
        (seg :: segs) wps := by
      apply List.forall₂_map_right_iff.mpr
      exact List.Forall₂.imp (fun _ _ h => h.2) (segmentMsgs_comeBack hmsgs)
    have hpairs := pairs_same_iff geo prev hwps
    have hread : waypointsOfMsgs (msg :: msgs) = prev :: wps := rfl
    rw [hread]
    have hup := same_iff_survives hfirst.1
    constructor
    · intro hsame
      -- as many segments as there were: no two neighbours differ in lane
      have hin : (prev :: wps).IsChain SameLane := by
        by_contra hnot
        have hlt := build_length_lt geo hnot
        rw [← hsame.length_eq, hwps.length_eq] at hlt
        exact lt_irrefl _ hlt
      rw [build_sameLane geo hin] at hsame
      obtain ⟨hhead, hchain, hdown⟩ := hpairs.mp hsame
      apply unbroken_of_downtrack _ hchain hdown
      intro first hfirst'
      obtain rfl := Option.mem_some_iff.mp hfirst'
      exact hup.mp (hhead seg rfl)
    · rintro ⟨hchain, hall⟩
      have hsame := hpairs.mpr ⟨by
        intro first hfirst'
        obtain rfl := Option.mem_some_iff.mp hfirst'
        exact hup.mpr (hall seg (by simp)).1, hchain, fun s hs => (hall s hs).2⟩
      rw [build_sameLane geo (sameLane_of_pairs geo (same_inLane hsame hlane))]
      exact hsame

omit [LinearOrder K] [FloorRing K] [IsStrictOrderedRing K] in
theorem pairs_unbroken (geo : Geodesy K P F) {toFloat : K → K} {wp : RouteWaypoint K}
    {wps : List (RouteWaypoint K)} (h : ∀ w ∈ wp :: wps, Survives toFloat w) :
    Unbroken toFloat (pairsFrom geo wp wps) := by
  induction wps generalizing wp with
  | nil => exact ⟨List.isChain_nil, fun seg hseg => (by cases hseg)⟩
  | cons next wps ih =>
    rw [List.forall_mem_cons] at h
    obtain ⟨hchain, hall⟩ := ih h.2
    refine ⟨List.isChain_cons.mpr ⟨?_, hchain⟩, ?_⟩
    · intro seg hseg
      cases wps with
      | nil => cases hseg
      | cons after wps =>
        cases hseg
        rfl
    · rw [pairsFrom, List.forall_mem_cons]
      exact ⟨⟨h.1, h.2 next (by simp)⟩, hall⟩

omit [LinearOrder K] [FloorRing K] [IsStrictOrderedRing K] in
theorem oneLane_unbroken (geo : Geodesy K P F) {toFloat : K → K}
    {waypointList : List (RouteWaypoint K)} (hlane : waypointList.IsChain SameLane)
    (h : ∀ wp ∈ waypointList, Survives toFloat wp) :
    Unbroken toFloat (build geo waypointList).segments := by
  cases waypointList with
  | nil => exact ⟨List.isChain_nil, fun seg hseg => (by cases hseg)⟩
  | cons wp wps =>
    rw [build_sameLane geo hlane]
    exact pairs_unbroken geo h

/-- A route comes back from its message with the same segments just when each segment
starts where the one before it ends, and its waypoints survive their messages. -/
theorem a_route_comes_back_when_it_is_unbroken (geo : Geodesy K P F) (toFloat : K → K)
    (waypointList : List (RouteWaypoint K)) (routeID routeName : String) :
    (∃ msg, (newRoute geo waypointList routeID routeName).toMessage toFloat = some msg ∧
      List.Forall₂ SameSegment (newRoute geo waypointList routeID routeName).segments
        (Route.fromMessage geo msg).segments) ↔
    Unbroken toFloat (newRoute geo waypointList routeID routeName).segments := by
  have hlane := build_inLane geo waypointList
  constructor
  · rintro ⟨msg, hmsg, hsame⟩
    obtain ⟨msgs, hmsgs, rfl⟩ := Option.map_eq_some_iff.mp hmsg
    exact (rebuilt_same_iff geo hmsgs hlane).mp hsame
  · intro h
    obtain ⟨msgs, hmsgs⟩ := segmentMsgs_isSome toFloat 0
      (fun seg hseg => ⟨(h.survive seg hseg).1.roadType, (h.survive seg hseg).2.roadType⟩)
    refine ⟨_, Option.map_eq_some_iff.mpr ⟨msgs, hmsgs, rfl⟩, ?_⟩
    exact (rebuilt_same_iff geo hmsgs hlane).mpr h

end messages

/-! ## A change of lane -/

/-- Two waypoints in one lane, then two in the next. -/
def laneChange : List (RouteWaypoint ℚ) :=
  [flatWaypoint 0 0, flatWaypoint 10 0, flatWaypoint 20 1, flatWaypoint 30 1]

theorem flatWaypoint_survives (latitude : ℚ) {laneIndex : ℤ}
    (h : -128 ≤ laneIndex ∧ laneIndex < 128) : Survives id (flatWaypoint latitude laneIndex) where
  roadType := by simp [flatWaypoint, newRouteWaypoint]
  lowerSpeedLimit := rfl
  laneCount := by simp [flatWaypoint, newRouteWaypoint]
  upperSpeedLimit := by simp [flatWaypoint, newRouteWaypoint]
  laneIndex := h
  requiredLaneIndex := by simp [flatWaypoint, newRouteWaypoint]
  laneClosures := by simp [flatWaypoint, newRouteWaypoint]
  laneWidth := rfl
  nearestMileMarker := ⟨-1, by simp [flatWaypoint, newRouteWaypoint]⟩

/-- Three waypoints in one lane. -/
def straight : List (RouteWaypoint ℚ) :=
  [flatWaypoint 0 0, flatWaypoint 10 0, flatWaypoint 20 0]

theorem the_straight_route_comes_back :
    ∃ msg, (newRoute flatEarth straight "route" "route").toMessage id = some msg ∧
      List.Forall₂ SameSegment (newRoute flatEarth straight "route" "route").segments
        (Route.fromMessage flatEarth msg).segments := by
  apply (a_route_comes_back_when_it_is_unbroken flatEarth id straight "route" "route").mpr
  have hlane : straight.IsChain SameLane := by simp [straight, SameLane, flatWaypoint]
  apply oneLane_unbroken flatEarth hlane
  intro wp hwp
  simp only [straight, List.mem_cons, List.not_mem_nil, or_false] at hwp
  rcases hwp with rfl | rfl | rfl <;> exact flatWaypoint_survives _ (by decide)

/-- The segment after the change of lane is lost: of two segments one comes back. -/
theorem the_segment_after_a_lane_change_is_lost :
    ¬ ∀ (geo : Geodesy ℚ ℚ ℚ) (waypointList : List (RouteWaypoint ℚ)), 2 ≤ waypointList.length →
      (∀ wp ∈ waypointList, Survives id wp) →
      ∃ msg, (newRoute geo waypointList "route" "route").toMessage id = some msg ∧
        List.Forall₂ SameSegment (newRoute geo waypointList "route" "route").segments
          (Route.fromMessage geo msg).segments := by
  intro h
  have hsurvive : ∀ wp ∈ laneChange, Survives id wp := by
    intro wp hwp
    simp only [laneChange, List.mem_cons, List.not_mem_nil, or_false] at hwp
    rcases hwp with rfl | rfl | rfl | rfl <;> exact flatWaypoint_survives _ (by decide)
  obtain ⟨msg, hmsg, hsame⟩ := h flatEarth laneChange (by decide) hsurvive
  obtain ⟨msgs, hmsgs, rfl⟩ := Option.map_eq_some_iff.mp hmsg
  have hchain := ((rebuilt_same_iff flatEarth hmsgs (build_inLane _ _)).mp hsame).joined
  -- the second segment does not start in the lane where the first ends
  have hlanes : ((build flatEarth laneChange).segments.map
      (fun seg => (seg.uptrackWP.laneIndex, seg.downtrackWP.laneIndex))).IsChain
      (fun s t => s.2 = t.1) := by
    rw [List.isChain_map]
    exact hchain.imp (fun _ _ hjoin => hjoin.sameLane)
  revert hlanes
  decide

end carma.route_node
