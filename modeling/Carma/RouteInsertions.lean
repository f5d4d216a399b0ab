-- Waypoints that are put into a route later: the segments are changed in one place, which is the
-- right one while the segments and the waypoints of the route are in step.
import Carma.RouteMessages

namespace carma.route_node

variable {K P F : Type}

/-! ## The segments of a list -/

/-- One segment for each two waypoints in a row that are in one lane. -/
def lanePairs (geo : Geodesy K P F) : List (RouteWaypoint K) → List (RouteSegment K F)
  | a :: b :: wps =>
    if a.laneIndex = b.laneIndex then RouteSegment.new geo a b :: lanePairs geo (b :: wps)
    else lanePairs geo (b :: wps)
  | _ => []

section pairs

variable (geo : Geodesy K P F)

theorem lanePairs_sameLane {a b : RouteWaypoint K} (h : SameLane a b) :
    lanePairs geo [a, b] = [RouteSegment.new geo a b] := if_pos h

theorem lanePairs_otherLane {a b : RouteWaypoint K} (h : ¬ SameLane a b) : lanePairs geo [a, b] = [] :=
  if_neg h

theorem lanePairs_cons (a b : RouteWaypoint K) (wps : List (RouteWaypoint K)) :
    lanePairs geo (a :: b :: wps) = lanePairs geo [a, b] ++ lanePairs geo (b :: wps) := by
  by_cases h : SameLane a b
  · rw [lanePairs_sameLane geo h]
    exact if_pos h
  · rw [lanePairs_otherLane geo h]
    exact if_neg h

/-- The segments up to a waypoint, that to the next one, and those from there. -/
theorem lanePairs_append (wps rest : List (RouteWaypoint K)) (a b : RouteWaypoint K) :
    lanePairs geo (wps ++ a :: b :: rest) =
      lanePairs geo (wps ++ [a]) ++ (lanePairs geo [a, b] ++ lanePairs geo (b :: rest)) := by
  induction wps with
  | nil => exact lanePairs_cons geo a b rest
  | cons wp wps ih =>
    cases wps with
    | nil =>
      show lanePairs geo (wp :: a :: b :: rest) = lanePairs geo [wp, a] ++ _
      rw [lanePairs_cons geo wp, ← lanePairs_cons geo a]
    | cons next wps =>
      simp only [List.cons_append] at ih ⊢
      rw [lanePairs_cons geo wp next, ih, lanePairs_cons geo wp next (wps ++ [a]), List.append_assoc]

theorem lanePairs_concat (wps : List (RouteWaypoint K)) (a b : RouteWaypoint K) :
    lanePairs geo (wps ++ [a, b]) = lanePairs geo (wps ++ [a]) ++ lanePairs geo [a, b] := by
  rw [lanePairs_append]
  exact congrArg (_ ++ ·) (List.append_nil _)

theorem lanePairs_changed {wps : List (RouteWaypoint K)} {a : RouteWaypoint K}
    (h : ∀ prev ∈ wps.getLast?, ¬ SameLane prev a) : lanePairs geo (wps ++ [a]) = lanePairs geo wps := by
  rcases List.eq_nil_or_concat' wps with rfl | ⟨earlier, prev, rfl⟩
  · rfl
  · rw [List.append_assoc, List.singleton_append, lanePairs_concat,
      lanePairs_otherLane geo (h prev (by rw [List.getLast?_concat]; rfl)), List.append_nil]

end pairs

theorem lanePairs_length (geo : Geodesy K P F) (wp : RouteWaypoint K) (wps : List (RouteWaypoint K)) :
    (lanePairs geo (wp :: wps)).length ≤ wps.length ∧
      ((lanePairs geo (wp :: wps)).length = wps.length ↔ (wp :: wps).IsChain SameLane) := by
  induction wps generalizing wp with
  | nil => simp [lanePairs]
  | cons next wps ih =>
    obtain ⟨hle, hiff⟩ := ih next
    rw [List.isChain_cons_cons, ← hiff, List.length_cons, lanePairs]
    by_cases h : wp.laneIndex = next.laneIndex
    · rw [if_pos h, List.length_cons]
      exact ⟨Nat.succ_le_succ hle, by simp [SameLane, h]⟩
    · rw [if_neg h]
      refine ⟨hle.trans (Nat.le_succ _), ⟨fun heq => ?_, fun hsame => absurd hsame.1 h⟩⟩
      omega

/-- The loop so far: its segments are those of its waypoints, and the flag says that the lane
has changed. -/
structure Walked (geo : Geodesy K P F) (b : Building K F) : Prop where
  segments : b.segments = lanePairs geo b.waypoints
  changed : b.updatePreviousWP = true → ∀ prev ∈ b.prevWaypoint, ∀ prevPrev ∈ b.passed.getLast?,
    ¬ SameLane prevPrev prev
  fresh : b.prevWaypoint = none → b.passed = []

theorem Walked.turn {geo : Geodesy K P F} {b : Building K F} (h : Walked geo b)
    (wp : RouteWaypoint K) : Walked geo (b.turn geo wp) := by
  cases hprev : b.prevWaypoint with
  | none =>
    have hturn : b.turn geo wp = { b with prevWaypoint := some wp } := by
      unfold Building.turn
      rw [hprev]
    have hpassed := h.fresh hprev
    have hsegments := h.segments
    rw [Building.waypoints, hprev, hpassed] at hsegments
    rw [hturn]
    refine ⟨?_, ?_, nofun⟩
    · rw [Building.waypoints, hsegments, hpassed]
      rfl
    · rintro - prev - prevPrev hlast
      rw [hpassed] at hlast
      cases hlast
  | some prev =>
    have hsegments := h.segments
    rw [Building.waypoints, hprev] at hsegments
    by_cases hlane : SameLane prev wp
    · have hplaced : lanePairs geo (b.passed ++ [b.placed geo prev wp]) =
          lanePairs geo (b.passed ++ [prev]) := by
        cases hup : b.updatePreviousWP with
        | false => rw [placed_of_sameLane geo hup]
        | true =>
          have hchanged := h.changed hup prev hprev
          rw [lanePairs_changed geo hchanged]
          refine lanePairs_changed geo fun prevPrev hlast hsame => hchanged prevPrev hlast ?_
          exact hsame.trans (placed_laneIndex geo b prev wp)
      have hsame : SameLane (b.placed geo prev wp) wp :=
        (placed_laneIndex geo b prev wp).trans hlane
      rw [turn_sameLane geo hprev hlane]
      refine ⟨?_, nofun, nofun⟩
      show b.segments ++ [_] = lanePairs geo (b.passed ++ [_] ++ [wp])
      rw [List.append_assoc, List.singleton_append, lanePairs_concat, lanePairs_sameLane geo hsame,
        hplaced]
      exact congrArg (· ++ _) hsegments
    · rw [turn_otherLane geo hprev hlane]
      refine ⟨?_, ?_, nofun⟩
      · show b.segments = lanePairs geo (b.passed ++ [prev] ++ [wp])
        rw [List.append_assoc, List.singleton_append, lanePairs_concat,
          lanePairs_otherLane geo hlane, List.append_nil]
        exact hsegments
      · rintro - next hnext prevPrev hlast
        obtain rfl : wp = next := Option.some.inj hnext
        dsimp only at hlast
        rw [List.getLast?_concat] at hlast
        obtain rfl : prev = prevPrev := Option.some.inj hlast
        exact hlane

theorem build_walked (geo : Geodesy K P F) (waypointList : List (RouteWaypoint K)) :
    Walked geo (build geo waypointList) := by
  unfold build
  refine List.foldlRecOn waypointList _ ?_ (fun b hb wp _ => hb.turn wp)
  exact ⟨rfl, nofun, fun _ => rfl⟩

theorem build_segments (geo : Geodesy K P F) (waypointList : List (RouteWaypoint K)) :
    (build geo waypointList).segments = lanePairs geo (build geo waypointList).waypoints :=
  (build_walked geo waypointList).segments

/-! ## Lists that go on alike -/

/-- The two loops go on alike: what the next turns read is the same. -/
structure GoesOnAlike (b b' : Building K F) : Prop where
  prevWaypoint : b'.prevWaypoint = b.prevWaypoint
  updatePreviousWP : b'.updatePreviousWP = b.updatePreviousWP
  prevPrevWaypoint : b.updatePreviousWP = true → b'.prevPrevWaypoint = b.prevPrevWaypoint

theorem GoesOnAlike.placed (geo : Geodesy K P F) {b b' : Building K F} (h : GoesOnAlike b b')
    (prev wp : RouteWaypoint K) : b'.placed geo prev wp = b.placed geo prev wp := by
  cases hup : b.updatePreviousWP with
  | false => rw [placed_of_sameLane geo hup, placed_of_sameLane geo (h.updatePreviousWP.trans hup)]
  | true =>
    unfold Building.placed
    rw [h.updatePreviousWP, h.prevPrevWaypoint hup]

theorem GoesOnAlike.turn (geo : Geodesy K P F) {b b' : Building K F} (h : GoesOnAlike b b')
    (wp : RouteWaypoint K) : GoesOnAlike (b.turn geo wp) (b'.turn geo wp) ∧
      ∃ more, (b.turn geo wp).passed = b.passed ++ more ∧
        (b'.turn geo wp).passed = b'.passed ++ more := by
  cases hprev : b.prevWaypoint with
  | none =>
    unfold Building.turn
    rw [h.prevWaypoint, hprev]
    exact ⟨⟨rfl, h.updatePreviousWP, h.prevPrevWaypoint⟩, [], (List.append_nil _).symm,
      (List.append_nil _).symm⟩
  | some prev =>
    have hprev' := h.prevWaypoint.trans hprev
    by_cases hlane : SameLane prev wp
    · rw [turn_sameLane geo hprev hlane, turn_sameLane geo hprev' hlane, h.placed geo]
      exact ⟨⟨rfl, rfl, nofun⟩, _, rfl, rfl⟩
    · rw [turn_otherLane geo hprev hlane, turn_otherLane geo hprev' hlane]
      refine ⟨⟨rfl, rfl, fun _ => ?_⟩, _, rfl, rfl⟩
      show (b'.passed ++ [prev]).getLast? = (b.passed ++ [prev]).getLast?
      rw [List.getLast?_concat, List.getLast?_concat]

theorem GoesOnAlike.turns (geo : Geodesy K P F) {b b' : Building K F} (h : GoesOnAlike b b')
    (wps : List (RouteWaypoint K)) :
    GoesOnAlike (wps.foldl (Building.turn geo) b) (wps.foldl (Building.turn geo) b') ∧
      ∃ more, (wps.foldl (Building.turn geo) b).passed = b.passed ++ more ∧
        (wps.foldl (Building.turn geo) b').passed = b'.passed ++ more := by
  induction wps generalizing b b' with
  | nil => exact ⟨h, [], (List.append_nil _).symm, (List.append_nil _).symm⟩
  | cons wp wps ih =>
    obtain ⟨hnext, first, hb, hb'⟩ := h.turn geo wp
    obtain ⟨hlast, more, hmore, hmore'⟩ := ih hnext
    refine ⟨hlast, first ++ more, ?_, ?_⟩
    · rw [List.foldl_cons, hmore, hb, List.append_assoc]
    · rw [List.foldl_cons, hmore', hb', List.append_assoc]

/-! ## Waypoints that are placed -/

theorem turn_prevWaypoint (geo : Geodesy K P F) (b : Building K F) (wp : RouteWaypoint K) :
    (b.turn geo wp).prevWaypoint = some wp := by
  unfold Building.turn
  split
  · rfl
  · split <;> rfl

theorem build_concat (geo : Geodesy K P F) (wps : List (RouteWaypoint K)) (wp : RouteWaypoint K) :
    build geo (wps ++ [wp]) = (build geo wps).turn geo wp := List.foldl_concat _ _ _ _

theorem build_prevWaypoint (geo : Geodesy K P F) (wps : List (RouteWaypoint K))
    (wp : RouteWaypoint K) : (build geo (wps ++ [wp])).prevWaypoint = some wp := by
  rw [build_concat, turn_prevWaypoint]

/-- From a waypoint in the lane of the one before it the loop goes on as from the start. -/
theorem build_resumed (geo : Geodesy K P F) (earlier rest : List (RouteWaypoint K))
    {x y : RouteWaypoint K} (hlane : SameLane x y) :
    (build geo (earlier ++ [x] ++ y :: rest)).waypoints =
      (build geo (earlier ++ [x])).passed ++ [(build geo (earlier ++ [x])).placed geo x y] ++
        (build geo (y :: rest)).waypoints := by
  have hturn := turn_sameLane geo (build_prevWaypoint geo earlier x) hlane
  have halike : GoesOnAlike (⟨[], [], some y, false⟩ : Building K F)
      ((build geo (earlier ++ [x])).turn geo y) := by
    rw [hturn]
    exact ⟨rfl, rfl, nofun⟩
  obtain ⟨hlast, more, hmore, hmore'⟩ := halike.turns geo rest
  have hall : build geo (earlier ++ [x] ++ y :: rest) =
      rest.foldl (Building.turn geo) ((build geo (earlier ++ [x])).turn geo y) := List.foldl_append
  rw [hall, build_cons, Building.waypoints, Building.waypoints, hlast.prevWaypoint, hmore, hmore',
    hturn, List.append_assoc, List.nil_append]

theorem turn_waypoints_length (geo : Geodesy K P F) (b : Building K F) (wp : RouteWaypoint K) :
    (b.turn geo wp).waypoints.length = b.waypoints.length + 1 := by
  cases hprev : b.prevWaypoint with
  | none =>
    unfold Building.turn Building.waypoints
    rw [hprev]
    simp
  | some prev =>
    by_cases hlane : SameLane prev wp
    · rw [turn_sameLane geo hprev hlane]
      simp [Building.waypoints, hprev]
    · rw [turn_otherLane geo hprev hlane]
      simp [Building.waypoints, hprev]

theorem build_waypoints_length (geo : Geodesy K P F) (wps : List (RouteWaypoint K)) :
    (build geo wps).waypoints.length = wps.length := by
  induction wps using List.reverseRecOn with
  | nil => rfl
  | append_singleton wps wp ih =>
    rw [build_concat, turn_waypoints_length, ih, List.length_append, List.length_singleton]

/-- All waypoints but the last are passed. -/
theorem build_passed_length (geo : Geodesy K P F) (wps : List (RouteWaypoint K))
    (wp : RouteWaypoint K) : (build geo (wps ++ [wp])).passed.length = wps.length := by
  have hlength := build_waypoints_length geo (wps ++ [wp])
  rw [Building.waypoints, build_prevWaypoint, List.length_append, List.length_append] at hlength
  exact Nat.add_right_cancel hlength

/-- The waypoints stay where they are when they are set again. -/
def Settled (geo : Geodesy K P F) (waypoints : List (RouteWaypoint K)) : Prop :=
  (build geo waypoints).waypoints = waypoints

theorem settled_concat_iff {geo : Geodesy K P F} {earlier : List (RouteWaypoint K)}
    {x : RouteWaypoint K} :
    Settled geo (earlier ++ [x]) ↔ (build geo (earlier ++ [x])).passed = earlier := by
  unfold Settled Building.waypoints
  rw [build_prevWaypoint]
  exact List.append_left_inj _

/-- Waypoints are settled if those before are, the last of these stays, and those from there are. -/
theorem settled_append_iff {geo : Geodesy K P F} {earlier rest : List (RouteWaypoint K)}
    {x y : RouteWaypoint K} (hlane : SameLane x y) : Settled geo (earlier ++ [x] ++ y :: rest) ↔
      Settled geo (earlier ++ [x]) ∧ (build geo (earlier ++ [x])).placed geo x y = x ∧
        Settled geo (y :: rest) := by
  have hlength := build_passed_length geo earlier x
  rw [settled_concat_iff]
  unfold Settled
  rw [build_resumed geo earlier rest hlane]
  constructor
  · intro h
    obtain ⟨hfront, hrest⟩ := List.append_inj h (by simp [hlength])
    obtain ⟨hearlier, hx⟩ := List.append_inj hfront hlength
    exact ⟨hearlier, List.head_eq_of_cons_eq hx, hrest⟩
  · rintro ⟨hearlier, hx, hrest⟩
    rw [hearlier, hx, hrest]

theorem settled_cons_iff {geo : Geodesy K P F} {rest : List (RouteWaypoint K)}
    {w first : RouteWaypoint K} (hlane : SameLane w first) :
    Settled geo (w :: first :: rest) ↔ Settled geo (first :: rest) := by
  rw [show w :: first :: rest = [] ++ [w] ++ first :: rest from rfl, settled_append_iff hlane]
  exact ⟨fun h => h.2.2, fun h => ⟨rfl, rfl, h⟩⟩

/-! ## Insertion -/

/-- The new waypoint connects to its neighbours: it is in their lane. -/
def Connects (waypoints : List (RouteWaypoint K)) (waypoint : RouteWaypoint K) (index : ℕ) : Prop :=
  (∀ before, index = before + 1 → ∀ up ∈ waypoints[before]?, SameLane up waypoint) ∧
    ∀ down ∈ waypoints[index]?, SameLane waypoint down

/-- The waypoint is inserted, and the route is the one that is built from the new list. -/
def InsertsConsistently [Field K] (geo : Geodesy K P F) (route : Route K F)
    (waypoint : RouteWaypoint K) (index : ℕ) : Prop :=
  ∃ route', route.insertWaypoint geo waypoint index = .ok route' ∧
    route'.waypoints = route.waypoints.insertIdx index waypoint ∧
    route'.setWaypoints geo route'.waypoints = route'

/-- A last waypoint that is alone in its lane is in line already with the one before it, as seen
from the new waypoint. -/
def StaysAtEnd (geo : Geodesy K P F) (waypoints : List (RouteWaypoint K))
    (waypoint : RouteWaypoint K) : Prop :=
  ∀ earlier prevPrev last, waypoints = earlier ++ [prevPrev] ++ [last] → SameLane prevPrev last ∨
    (RouteSegment.new geo last waypoint).projectOntoSegment geo prevPrev.location = last.location

/-- The segments from that of the two neighbours up to the one that is taken for it are all of no
length, at the new waypoint itself. -/
def AllAt (geo : Geodesy K P F) (route : Route K F) (waypoint : RouteWaypoint K) (index : ℕ) : Prop :=
  index ≤ route.segments.length ∧
    ∀ seg ∈ (route.segments.take index).drop (lanePairs geo (route.waypoints.take index)).length,
      seg = RouteSegment.new geo waypoint waypoint

/-- The place in the waypoints is the right one in the segments: at the front; at the end, if the
last waypoint stays; and between two waypoints, if the lane does not change before them. -/
def InStep (geo : Geodesy K P F) (route : Route K F) (waypoint : RouteWaypoint K) (index : ℕ) : Prop :=
  (index = 0 ∧ route.waypoints ≠ []) ∨
  (0 < index ∧ index = route.waypoints.length ∧ StaysAtEnd geo route.waypoints waypoint) ∨
  (0 < index ∧ index < route.waypoints.length ∧
    ((route.waypoints.take index).IsChain SameLane ∨ AllAt geo route waypoint index))

/-! ## Where the place is the right one -/

/-- A list with an element put in front is the list with one put at its end only where all of it is
the same. -/
theorem cons_eq_concat_iff {α : Type} {a b : α} {l : List α} :
    a :: l = l ++ [b] ↔ a = b ∧ ∀ x ∈ l, x = b := by
  induction l generalizing a with
  | nil => simp
  | cons c l ih =>
    rw [List.cons_append, List.cons.injEq, ih, List.forall_mem_cons]
    constructor
    · rintro ⟨rfl, hc, hall⟩
      exact ⟨hc, hc, hall⟩
    · rintro ⟨hac, hc, hall⟩
      exact ⟨hac.trans hc.symm, hc, hall⟩

theorem insertIdx_append {α : Type} (front rest : List α) (a : α) :
    (front ++ rest).insertIdx front.length a = front ++ a :: rest := by
  induction front with
  | nil => rfl
  | cons b front ih => exact congrArg (b :: ·) ih

/-- Two elements are put in a place too far on. That is no matter only where all up to there are
the same. -/
theorem misplaced_iff {α : Type} {front rest : List α} {old a a' b : α} {n : ℕ}
    (hn : n < rest.length) :
    (front ++ old :: rest).take (front.length + (n + 1)) ++ [a', b] ++
        (front ++ old :: rest).drop (front.length + (n + 1) + 1) = front ++ a :: b :: rest ↔
      a = old ∧ a' = b ∧ ∀ x ∈ rest.take (n + 1), x = b := by
  have hrest : rest = rest.take n ++ rest[n] :: rest.drop (n + 1) := by
    rw [← List.drop_eq_getElem_cons hn, List.take_append_drop]
  have htake : rest.take (n + 1) = rest.take n ++ [rest[n]] := List.take_succ_eq_append_getElem hn
  have hparts : b :: rest = (b :: rest.take n) ++ rest[n] :: rest.drop (n + 1) := by
    rw [List.cons_append, ← hrest]
  rw [Nat.add_assoc, List.take_length_add_append, List.drop_length_add_append, List.take_succ_cons,
    List.drop_succ_cons, List.append_assoc, List.append_assoc, List.append_cancel_left_eq,
    List.cons_append, List.cons.injEq, hparts, htake]
  have hmiddle : rest.take n ++ ([a', b] ++ rest.drop (n + 1)) =
      (b :: rest.take n) ++ rest[n] :: rest.drop (n + 1) ↔
        b :: rest.take n = rest.take n ++ [a'] ∧ rest[n] = b := by
    rw [show rest.take n ++ ([a', b] ++ rest.drop (n + 1)) =
      (rest.take n ++ [a']) ++ b :: rest.drop (n + 1) by simp]
    constructor
    · intro heq
      obtain ⟨hfirst, hlast⟩ := List.append_inj heq (by simp)
      exact ⟨hfirst.symm, (List.head_eq_of_cons_eq hlast).symm⟩
    · rintro ⟨hfirst, hlast⟩
      rw [hfirst, hlast]
  rw [hmiddle, cons_eq_concat_iff, List.forall_mem_append, List.forall_mem_singleton]
  constructor
  · rintro ⟨rfl, ⟨rfl, hall⟩, hlast⟩
    exact ⟨rfl, rfl, hall, hlast⟩
  · rintro ⟨rfl, rfl, hall, hlast⟩
    exact ⟨rfl, ⟨rfl, hall⟩, hlast⟩

theorem new_eq_new_iff (geo : Geodesy K P F) {a b c d : RouteWaypoint K} :
    RouteSegment.new geo a b = RouteSegment.new geo c d ↔ a = c ∧ b = d := by
  refine ⟨fun h => ⟨congrArg RouteSegment.uptrackWP h, congrArg RouteSegment.downtrackWP h⟩, ?_⟩
  rintro ⟨rfl, rfl⟩
  rfl

theorem Walked.placed_stays {geo : Geodesy K P F} {b : Building K F} (h : Walked geo b)
    {prev : RouteWaypoint K} (hprev : b.prevWaypoint = some prev)
    (hlane : ∀ prevPrev ∈ b.passed.getLast?, SameLane prevPrev prev) (wp : RouteWaypoint K) :
    b.placed geo prev wp = prev := by
  cases hup : b.updatePreviousWP with
  | false => exact placed_of_sameLane geo hup prev wp
  | true =>
    unfold Building.placed Building.prevPrevWaypoint
    cases hlast : b.passed.getLast? with
    | none => rw [hup]
    | some prevPrev => exact absurd (hlane prevPrev hlast) (h.changed hup prev hprev prevPrev hlast)

theorem placed_end_iff {geo : Geodesy K P F} {w : RouteWaypoint K} {earlier : List (RouteWaypoint K)}
    {last : RouteWaypoint K} (hsettled : Settled geo (earlier ++ [last])) :
    (build geo (earlier ++ [last])).placed geo last w = last ↔
      StaysAtEnd geo (earlier ++ [last]) w := by
  have hprev := build_prevWaypoint geo earlier last
  have hpassed := settled_concat_iff.mp hsettled
  rcases List.eq_nil_or_concat' earlier with rfl | ⟨earlier, prevPrev, rfl⟩
  · refine iff_of_true ((build_walked geo _).placed_stays hprev (fun _ hnone => ?_) w) ?_
    · rw [hpassed] at hnone
      cases hnone
    · intro earlier prevPrev last' heq
      have hlength := congrArg List.length heq
      simp at hlength
  · have hends : ∀ earlier' prevPrev' last', earlier ++ [prevPrev] ++ [last] =
        earlier' ++ [prevPrev'] ++ [last'] → prevPrev' = prevPrev ∧ last' = last := by
      intro earlier' prevPrev' last' heq
      obtain ⟨hrest, hlast'⟩ := List.append_inj' heq rfl
      obtain ⟨-, hprevPrev⟩ := List.append_inj' hrest rfl
      exact ⟨(List.head_eq_of_cons_eq hprevPrev).symm, (List.head_eq_of_cons_eq hlast').symm⟩
    by_cases hsame : SameLane prevPrev last
    · refine iff_of_true ((build_walked geo _).placed_stays hprev ?_ w) ?_
      · intro before hbefore
        rw [hpassed, List.getLast?_concat] at hbefore
        rw [← Option.some.inj hbefore]
        exact hsame
      · intro earlier' prevPrev' last' heq
        obtain ⟨rfl, rfl⟩ := hends _ _ _ heq
        exact Or.inl hsame
    · have hchanged : (build geo (earlier ++ [prevPrev] ++ [last])).updatePreviousWP = true := by
        rw [build_concat, turn_otherLane geo (build_prevWaypoint geo earlier prevPrev) hsame]
      have hplaced : (build geo (earlier ++ [prevPrev] ++ [last])).placed geo last w =
          { last with location :=
            (RouteSegment.new geo last w).projectOntoSegment geo prevPrev.location } := by
        unfold Building.placed Building.prevPrevWaypoint
        rw [hchanged, hpassed, List.getLast?_concat]
      rw [hplaced]
      constructor
      · intro hstays earlier' prevPrev' last' heq
        obtain ⟨rfl, rfl⟩ := hends _ _ _ heq
        exact Or.inr (congrArg RouteWaypoint.location hstays)
      · intro hstays
        rw [(hstays earlier prevPrev last rfl).resolve_left hsame]

/-- The waypoints stay with the new one as they did without it, if the one before it is placed alike. -/
theorem settled_middle_iff {geo : Geodesy K P F} {earlier rest : List (RouteWaypoint K)}
    {x w y : RouteWaypoint K} (hx : SameLane x w) (hy : SameLane w y)
    (hplaced : Settled geo (earlier ++ [x]) → (build geo (earlier ++ [x])).placed geo x w =
      (build geo (earlier ++ [x])).placed geo x y) :
    Settled geo (earlier ++ [x] ++ w :: y :: rest) ↔ Settled geo (earlier ++ [x] ++ y :: rest) := by
  rw [settled_append_iff hx, settled_append_iff (hx.trans hy), settled_cons_iff hy]
  refine and_congr_right fun hsettled => ?_
  rw [hplaced hsettled]

/-- The segments of the route are those of its waypoints, and its length is theirs. -/
structure Route.Fits [AddCommMonoid K] (geo : Geodesy K P F) (route : Route K F) : Prop where
  segments : route.segments = lanePairs geo route.waypoints
  routeLength : route.routeLength = calculateLength route.segments

theorem setWaypoints_fits [AddCommMonoid K] (geo : Geodesy K P F) (r : Route K F)
    (waypointList : List (RouteWaypoint K)) : (r.setWaypoints geo waypointList).Fits geo where
  segments := build_segments geo waypointList
  routeLength := rfl

theorem setWaypoints_self_iff [AddCommMonoid K] {geo : Geodesy K P F} {route : Route K F} :
    route.setWaypoints geo route.waypoints = route ↔
      Settled geo route.waypoints ∧ route.Fits geo := by
  constructor
  · intro h
    refine ⟨congrArg Route.waypoints h, ?_⟩
    rw [← h]
    exact setWaypoints_fits geo route _
  · rintro ⟨hsettled, hsegments, hlength⟩
    have hbuilt : (build geo route.waypoints).segments = route.segments := by
      rw [build_segments, hsettled, hsegments]
    unfold Route.setWaypoints
    dsimp only
    rw [hbuilt, hsettled, ← hlength]

section cases

variable [Field K] {geo : Geodesy K P F} {route : Route K F} {w : RouteWaypoint K} {index : ℕ}

/-- Where the call returns, the new waypoints are to stay and the new segments are to be theirs. -/
theorem insertsConsistently_of_ok {segments : List (RouteSegment K F)}
    (hcall : route.insertWaypoint geo w index = .ok { route with
      segments := segments
      waypoints := route.waypoints.insertIdx index w
      routeLength := calculateLength segments }) : InsertsConsistently geo route w index ↔
    Settled geo (route.waypoints.insertIdx index w) ∧
      segments = lanePairs geo (route.waypoints.insertIdx index w) := by
  unfold InsertsConsistently
  constructor
  · rintro ⟨route', hok, hwaypoints, hself⟩
    obtain rfl := Except.ok.inj (hcall.symm.trans hok)
    obtain ⟨hsettled, hfits⟩ := setWaypoints_self_iff.mp hself
    exact ⟨hsettled, hfits.segments⟩
  · rintro ⟨hsettled, hsegments⟩
    exact ⟨_, hcall, rfl, setWaypoints_self_iff.mpr ⟨hsettled, hsegments, rfl⟩⟩

theorem insertsConsistently_empty (hwaypoints : route.waypoints = []) :
    ¬ InsertsConsistently geo route w 0 := by
  have hcall : route.insertWaypoint geo w 0 = .error .indexOutOfBounds := by
    unfold Route.insertWaypoint
    rw [hwaypoints]
  rintro ⟨route', hok, -⟩
  rw [hcall] at hok
  cases hok

theorem insertsConsistently_front {first : RouteWaypoint K} {rest : List (RouteWaypoint K)}
    (hwaypoints : route.waypoints = first :: rest)
    (hsegments : route.segments = lanePairs geo route.waypoints) (hfirst : SameLane w first) :
    InsertsConsistently geo route w 0 ↔ Settled geo route.waypoints := by
  have hcall : route.insertWaypoint geo w 0 = .ok { route with
      segments := RouteSegment.new geo w first :: route.segments
      waypoints := route.waypoints.insertIdx 0 w
      routeLength := calculateLength (RouteSegment.new geo w first :: route.segments) } := by
    unfold Route.insertWaypoint
    rw [hwaypoints]
    exact if_pos hfirst
  rw [insertsConsistently_of_ok hcall, List.insertIdx_zero, hsegments, hwaypoints,
    settled_cons_iff hfirst, lanePairs_cons, lanePairs_sameLane geo hfirst]
  exact and_iff_left rfl

/-- What is inserted at the end is right where the last waypoint stays. -/
theorem insertsConsistently_end {last : RouteWaypoint K} {earlier : List (RouteWaypoint K)}
    (hwaypoints : route.waypoints = earlier ++ [last])
    (hsegments : route.segments = lanePairs geo route.waypoints) (hlast : SameLane last w) :
    InsertsConsistently geo route w (earlier.length + 1) ↔
      Settled geo route.waypoints ∧ StaysAtEnd geo route.waypoints w := by
  have hup : route.waypoints[earlier.length]? = some last := by
    rw [hwaypoints, List.getElem?_append_right le_rfl, Nat.sub_self]
    rfl
  have hdown : route.waypoints[earlier.length + 1]? = none := by
    rw [hwaypoints, List.getElem?_eq_none]
    simp
  have hcall : route.insertWaypoint geo w (earlier.length + 1) = .ok { route with
      segments := route.segments ++ [RouteSegment.new geo last w]
      waypoints := route.waypoints.insertIdx (earlier.length + 1) w
      routeLength := calculateLength (route.segments ++ [RouteSegment.new geo last w]) } := by
    unfold Route.insertWaypoint
    dsimp only
    rw [hup, hdown]
    exact if_pos hlast.symm
  have hinserted : route.waypoints.insertIdx (earlier.length + 1) w =
      earlier ++ [last] ++ [w] := by
    rw [hwaypoints]
    have hinsert := insertIdx_append (earlier ++ [last]) [] w
    rwa [List.length_append, List.length_singleton, List.append_nil] at hinsert
  have hnew : lanePairs geo (earlier ++ [last] ++ [w]) =
      lanePairs geo (earlier ++ [last]) ++ [RouteSegment.new geo last w] := by
    rw [List.append_assoc, List.singleton_append, lanePairs_concat, lanePairs_sameLane geo hlast]
  rw [insertsConsistently_of_ok hcall, hinserted, hnew, hsegments, hwaypoints,
    and_iff_left rfl, settled_append_iff hlast]
  constructor
  · rintro ⟨hsettled, hstays, -⟩
    exact ⟨hsettled, (placed_end_iff hsettled).mp hstays⟩
  · rintro ⟨hsettled, hstays⟩
    exact ⟨hsettled, (placed_end_iff hsettled).mpr hstays, rfl⟩

end cases

section middle

variable {geo : Geodesy K P F} {route : Route K F} {earlier rest : List (RouteWaypoint K)}
  {x w y : RouteWaypoint K}

theorem insertIdx_middle (hwaypoints : route.waypoints = earlier ++ [x] ++ y :: rest) :
    route.waypoints.insertIdx (earlier.length + 1) w = earlier ++ [x] ++ w :: y :: rest := by
  have hinsert := insertIdx_append (earlier ++ [x]) (y :: rest) w
  rwa [List.length_append, List.length_singleton, ← hwaypoints] at hinsert

theorem segments_middle (hwaypoints : route.waypoints = earlier ++ [x] ++ y :: rest)
    (hsegments : route.segments = lanePairs geo route.waypoints) (hxy : SameLane x y) :
    route.segments = lanePairs geo (earlier ++ [x]) ++
      RouteSegment.new geo x y :: lanePairs geo (y :: rest) := by
  rw [hsegments, hwaypoints, List.append_assoc, List.singleton_append, lanePairs_append,
    lanePairs_sameLane geo hxy, List.singleton_append]

theorem lanePairs_middle (hx : SameLane x w) (hy : SameLane w y) :
    lanePairs geo (earlier ++ [x] ++ w :: y :: rest) = lanePairs geo (earlier ++ [x]) ++
      RouteSegment.new geo x w :: RouteSegment.new geo w y :: lanePairs geo (y :: rest) := by
  rw [List.append_assoc, List.singleton_append, lanePairs_append, lanePairs_cons geo w y,
    lanePairs_sameLane geo hx, lanePairs_sameLane geo hy]
  rfl

variable (geo earlier x) in
theorem lanePairs_upTo : (lanePairs geo (earlier ++ [x])).length ≤ earlier.length ∧
    ((lanePairs geo (earlier ++ [x])).length = earlier.length ↔
      (earlier ++ [x]).IsChain SameLane) := by
  cases earlier with
  | nil => exact lanePairs_length geo x []
  | cons first earlier =>
    have hpairs := lanePairs_length geo first (earlier ++ [x])
    rwa [List.length_append, List.length_singleton] at hpairs

variable [Field K]

variable (geo) in
theorem insertWaypoint_middle (hwaypoints : route.waypoints = earlier ++ [x] ++ y :: rest)
    (hx : SameLane x w) (hy : SameLane w y) :
    route.insertWaypoint geo w (earlier.length + 1) =
      if earlier.length < route.segments.length then
        let segments := route.segments.take earlier.length ++
          [RouteSegment.new geo x w, RouteSegment.new geo w y] ++
          route.segments.drop (earlier.length + 1)
        .ok { route with
          segments := segments
          waypoints := route.waypoints.insertIdx (earlier.length + 1) w
          routeLength := calculateLength segments }
      else .error .indexOutOfBounds := by
  have hup : route.waypoints[earlier.length]? = some x := by
    rw [hwaypoints, List.append_assoc, List.getElem?_append_right le_rfl, Nat.sub_self]
    rfl
  have hdown : route.waypoints[earlier.length + 1]? = some y := by
    rw [hwaypoints, List.getElem?_append_right (by simp)]
    simp
  unfold Route.insertWaypoint
  dsimp only
  rw [hup, hdown]
  exact if_pos ⟨hx.symm, hy⟩

/-- Where the lane has not changed before it, the place is the right one. -/
theorem insertsConsistently_in_step (hwaypoints : route.waypoints = earlier ++ [x] ++ y :: rest)
    (hsegments : route.segments = lanePairs geo route.waypoints) (hx : SameLane x w)
    (hy : SameLane w y) (hchain : (earlier ++ [x]).IsChain SameLane) :
    InsertsConsistently geo route w (earlier.length + 1) ↔ Settled geo route.waypoints := by
  have hold := segments_middle hwaypoints hsegments (hx.trans hy)
  have hlength := (lanePairs_upTo geo earlier x).2.mpr hchain
  have hcall := insertWaypoint_middle geo hwaypoints hx hy
  have hroom : earlier.length < route.segments.length := by
    rw [hold, List.length_append, hlength, List.length_cons]
    omega
  have hstays : Settled geo (earlier ++ [x]) →
      ∀ wp, (build geo (earlier ++ [x])).placed geo x wp = x := by
    intro hsettled wp
    refine (build_walked geo _).placed_stays (build_prevWaypoint geo earlier x) ?_ wp
    intro prevPrev hlast
    rw [settled_concat_iff.mp hsettled] at hlast
    exact (List.isChain_append.mp hchain).2.2 prevPrev hlast x rfl
  rw [if_pos hroom] at hcall
  rw [insertsConsistently_of_ok hcall, insertIdx_middle hwaypoints, hwaypoints,
    settled_middle_iff hx hy fun hsettled => (hstays hsettled w).trans (hstays hsettled y).symm]
  refine and_iff_left ?_
  rw [hold, lanePairs_middle hx hy, ← hlength, List.take_left, List.drop_length_add_append]
  simp only [List.drop_succ_cons, List.drop_zero, List.append_assoc, List.cons_append,
    List.nil_append]

/-- Where it has, the place is too far on, and that is seen unless the waypoints and segments from
the right place up to there are all alike. -/
theorem insertsConsistently_out_of_step (hwaypoints : route.waypoints = earlier ++ [x] ++ y :: rest)
    (hsegments : route.segments = lanePairs geo route.waypoints) (hx : SameLane x w)
    (hy : SameLane w y) (hchain : ¬ (earlier ++ [x]).IsChain SameLane) :
    InsertsConsistently geo route w (earlier.length + 1) ↔
      Settled geo route.waypoints ∧ AllAt geo route w (earlier.length + 1) := by
  have hold := segments_middle hwaypoints hsegments (hx.trans hy)
  have hnotPast := lanePairs_upTo geo earlier x
  have hcall := insertWaypoint_middle geo hwaypoints hx hy
  have htake : route.waypoints.take (earlier.length + 1) = earlier ++ [x] := by
    rw [hwaypoints]
    exact List.take_left' (by simp)
  have hshort : (lanePairs geo (earlier ++ [x])).length < earlier.length :=
    lt_of_le_of_ne hnotPast.1 (fun heq => hchain (hnotPast.2.mp heq))
  obtain ⟨n, hn⟩ : ∃ n, earlier.length = (lanePairs geo (earlier ++ [x])).length + (n + 1) :=
    ⟨earlier.length - (lanePairs geo (earlier ++ [x])).length - 1, by omega⟩
  have hpart : (route.segments.take (earlier.length + 1)).drop
      (lanePairs geo (earlier ++ [x])).length =
        RouteSegment.new geo x y :: (lanePairs geo (y :: rest)).take (n + 1) := by
    rw [hold, hn, Nat.add_assoc, List.take_length_add_append, List.drop_left]
    rfl
  have hroom : earlier.length < route.segments.length ↔
      n < (lanePairs geo (y :: rest)).length := by
    rw [hold, List.length_append, List.length_cons]
    omega
  have hall : AllAt geo route w (earlier.length + 1) ↔ n < (lanePairs geo (y :: rest)).length ∧
      (x = w ∧ y = w) ∧ ∀ seg ∈ (lanePairs geo (y :: rest)).take (n + 1),
        seg = RouteSegment.new geo w w := by
    unfold AllAt
    rw [htake, hpart, List.forall_mem_cons, Nat.succ_le_iff, hroom, new_eq_new_iff]
  rw [hall]
  by_cases hlt : n < (lanePairs geo (y :: rest)).length
  · rw [if_pos (hroom.mpr hlt)] at hcall
    rw [insertsConsistently_of_ok hcall, insertIdx_middle hwaypoints, hold, lanePairs_middle hx hy,
      hn, misplaced_iff hlt, new_eq_new_iff, new_eq_new_iff, hwaypoints]
    constructor
    · rintro ⟨hsettled, ⟨-, rfl⟩, ⟨rfl, -⟩, hall⟩
      exact ⟨(settled_middle_iff hx hy fun _ => rfl).mp hsettled, hlt, ⟨rfl, rfl⟩, hall⟩
    · rintro ⟨hsettled, -, ⟨rfl, rfl⟩, hall⟩
      exact ⟨(settled_middle_iff hx hy fun _ => rfl).mpr hsettled, ⟨rfl, rfl⟩, ⟨rfl, rfl⟩, hall⟩
  · rw [if_neg (fun h => hlt (hroom.mp h))] at hcall
    refine iff_of_false ?_ (fun h => hlt h.2.1)
    rintro ⟨route', hok, -⟩
    rw [hcall] at hok
    cases hok

/-- In the middle the place is the right one where the lane has not changed before it. -/
theorem insertsConsistently_middle (hwaypoints : route.waypoints = earlier ++ [x] ++ y :: rest)
    (hsegments : route.segments = lanePairs geo route.waypoints) (hx : SameLane x w)
    (hy : SameLane w y) :
    InsertsConsistently geo route w (earlier.length + 1) ↔ Settled geo route.waypoints ∧
      ((earlier ++ [x]).IsChain SameLane ∨ AllAt geo route w (earlier.length + 1)) := by
  by_cases hchain : (earlier ++ [x]).IsChain SameLane
  · rw [insertsConsistently_in_step hwaypoints hsegments hx hy hchain]
    exact (and_iff_left (Or.inl hchain)).symm
  · rw [insertsConsistently_out_of_step hwaypoints hsegments hx hy hchain, or_iff_right hchain]

end middle

/-- A waypoint that is inserted next to waypoints of its lane leaves the route as it is built from
the new list just where the waypoints stay as they are, and its place in the waypoints is the right
one in the segments. -/
theorem an_insertion_is_consistent_where_the_segments_are_in_step [Field K] (geo : Geodesy K P F)
    (r : Route K F) (waypointList : List (RouteWaypoint K)) (waypoint : RouteWaypoint K)
    (index : ℕ) (hindex : index ≤ (r.setWaypoints geo waypointList).waypoints.length)
    (hconnects : Connects (r.setWaypoints geo waypointList).waypoints waypoint index) :
    InsertsConsistently geo (r.setWaypoints geo waypointList) waypoint index ↔
      Settled geo (r.setWaypoints geo waypointList).waypoints ∧
        InStep geo (r.setWaypoints geo waypointList) waypoint index := by
  have hsegments := (setWaypoints_fits geo r waypointList).segments
  generalize r.setWaypoints geo waypointList = route at *
  obtain ⟨hup, hdown⟩ := hconnects
  unfold InStep
  cases index with
  | zero =>
    cases hwaypoints : route.waypoints with
    | nil => exact iff_of_false (insertsConsistently_empty hwaypoints) (by simp)
    | cons first rest =>
      have hfirst : SameLane waypoint first := hdown first (by rw [hwaypoints]; rfl)
      rw [insertsConsistently_front hwaypoints hsegments hfirst, hwaypoints]
      exact (and_iff_left (Or.inl ⟨rfl, List.cons_ne_nil first rest⟩)).symm
  | succ before =>
    rw [or_iff_right (fun h => Nat.succ_ne_zero before h.1)]
    have hbefore : before < route.waypoints.length := hindex
    have hlength : (route.waypoints.take before).length = before :=
      List.length_take_of_le hbefore.le
    have hfront : route.waypoints.take (before + 1) =
        route.waypoints.take before ++ [route.waypoints[before]] :=
      List.take_succ_eq_append_getElem hbefore
    have hparts := List.take_append_drop (before + 1) route.waypoints
    have hx : SameLane route.waypoints[before] waypoint :=
      hup before rfl _ (List.getElem?_eq_getElem hbefore)
    rw [hfront] at hparts
    rcases hindex.eq_or_lt with hend | hlt
    · rw [List.drop_eq_nil_of_le hend.ge, List.append_nil] at hparts
      have hlast := insertsConsistently_end hparts.symm hsegments hx
      rw [hlength] at hlast
      rw [hlast]
      refine and_congr_right fun _ => ⟨fun hstays => Or.inl ⟨Nat.succ_pos _, hend, hstays⟩, ?_⟩
      rintro (⟨-, -, hstays⟩ | ⟨-, hlt, -⟩)
      · exact hstays
      · exact absurd hend hlt.ne
    · rw [List.drop_eq_getElem_cons hlt] at hparts
      have hy : SameLane waypoint route.waypoints[before + 1] :=
        hdown _ (List.getElem?_eq_getElem hlt)
      have hmiddle := insertsConsistently_middle hparts.symm hsegments hx hy
      rw [hlength, ← hfront] at hmiddle
      rw [hmiddle]
      refine and_congr_right fun _ => ⟨fun hplace => Or.inr ⟨Nat.succ_pos _, hlt, hplace⟩, ?_⟩
      rintro (⟨-, hend, -⟩ | ⟨-, -, hplace⟩)
      · exact absurd hend hlt.ne
      · exact hplace

/-- Into a route in one lane a waypoint is put between any two others. -/
theorem a_waypoint_is_put_into_the_straight_route :
    InsertsConsistently flatEarth (newRoute flatEarth straight "route" "route")
      (flatWaypoint 15 0) 2 := by
  refine (an_insertion_is_consistent_where_the_segments_are_in_step flatEarth
    ⟨"route", "route", 0, (20 : ℕ), [], [], false⟩ straight (flatWaypoint 15 0) 2
    (by decide) ?_).mpr ⟨rfl, ?_⟩
  · constructor
    · rintro before hbefore up hup
      obtain rfl : before = 1 := (Nat.succ.inj hbefore).symm
      obtain rfl : flatWaypoint 10 0 = up := Option.some.inj hup
      rfl
    · rintro down hdown
      obtain rfl : flatWaypoint 20 0 = down := Option.some.inj hdown
      rfl
  · refine Or.inr (Or.inr ⟨by decide, by decide, Or.inl ?_⟩)
    exact List.isChain_cons_cons.mpr ⟨rfl, List.isChain_singleton _⟩

/-- After a change of lane the segment that is to be replaced is not there. -/
theorem behind_a_lane_change_no_waypoint_is_inserted :
    ¬ ∀ (waypointList : List (RouteWaypoint ℚ)) (waypoint : RouteWaypoint ℚ) (index : ℕ),
      Settled flatEarth (newRoute flatEarth waypointList "route" "route").waypoints →
      index ≤ (newRoute flatEarth waypointList "route" "route").waypoints.length →
      Connects (newRoute flatEarth waypointList "route" "route").waypoints waypoint index →
      InsertsConsistently flatEarth (newRoute flatEarth waypointList "route" "route") waypoint
        index := by
  intro h
  obtain ⟨route', hok, -⟩ := h laneChange (flatWaypoint 25 1) 3 rfl (by decide) (by
    constructor
    · rintro before hbefore up hup
      obtain rfl : before = 2 := (Nat.succ.inj hbefore).symm
      obtain rfl : flatWaypoint 10 1 = up := Option.some.inj hup
      rfl
    · rintro down hdown
      obtain rfl : flatWaypoint 30 1 = down := Option.some.inj hdown
      rfl)
  -- there are two segments only, and the third is to be removed
  have hthrown : (newRoute flatEarth laneChange "route" "route").insertWaypoint flatEarth
      (flatWaypoint 25 1) 3 = .error .indexOutOfBounds := rfl
  rw [hthrown] at hok
  cases hok

end carma.route_node
