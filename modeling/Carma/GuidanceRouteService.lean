-- The route service of guidance, as plugins ask it about speed limits: the limits along
-- the route that it follows, in a set that is sorted by place, and what it says of a place against
-- the segments of the route. A place is in the first segment that ends at or past it.
import Carma.Lib.SortedSet
import Carma.RouteBuilding
import Carma.RouteSubsections
import Mathlib.Algebra.Order.Field.Basic

open lib
open carma.route_node (Route RouteSegment calculateLength calculateLength_cons)

namespace carma.route_service

/-- `SpeedLimit`: the limit of a part of the route, and the place where the part ends. -/
structure SpeedLimit (K : Type) where
  location : K
  limit : K
deriving DecidableEq

/-- A set of speed limits. No two are at one place. -/
structure SpeedLimits (K : Type) [LT K] where
  limits : List (SpeedLimit K)
  sorted : limits.Pairwise (fun a b => a.location < b.location)

variable {K F : Type} [LinearOrder K]

/-- `add` of the set. -/
def SpeedLimits.add (s : SpeedLimits K) (limit : SpeedLimit K) : SpeedLimits K where
  limits := sorted_set.add (sorted_set.byKey SpeedLimit.location) s.limits limit
  sorted := sorted_set.add_pairwise s.sorted limit

def noLimits : SpeedLimits K := ⟨[], List.Pairwise.nil⟩

/-- `getSpeedLimitAtLocation`. It throws where there are no limits, and null is `some none`. -/
def SpeedLimits.getSpeedLimitAtLocation (s : SpeedLimits K) (location : K) :
    Option (Option (SpeedLimit K)) :=
  match s.limits.getLast? with
  | none => none
  | some last =>
    if location > last.limit then some (some last)
    else some (s.limits.find? fun limit => decide (limit.location ≥ location))

/-- The loop of `getSpeedLimitsInRange`. -/
def limitsInRange (start end_ : K) (out : SpeedLimits K) : List (SpeedLimit K) → SpeedLimits K
  | [] => out
  | limit :: limits =>
    let out := if limit.location > start ∧ limit.location ≤ end_ then out.add limit else out
    if limit.location > end_ then out else limitsInRange start end_ out limits

def SpeedLimits.getSpeedLimitsInRange (s : SpeedLimits K) (start end_ : K) : SpeedLimits K :=
  limitsInRange start end_ noLimits s.limits

section route

variable [Field K]

def convertMphToMps (mph : K) : K := mph * ((44704 : ℕ) / (100000 : ℕ))

/-- The limits that `processRoute` finds, from `dtdAccum` on. -/
def segmentLimits (dtdAccum : K) (out : SpeedLimits K) : List (RouteSegment K F) → SpeedLimits K
  | [] => out
  | seg :: segs =>
    let dtdAccum := dtdAccum + seg.length
    let limit := convertMphToMps ((seg.downtrackWP.upperSpeedLimit : ℤ) : K)
    segmentLimits dtdAccum (out.add ⟨dtdAccum, limit⟩) segs

/-- `processRoute`, as far as speed limits go. -/
def processRoute (route : Route K F) : SpeedLimits K := segmentLimits 0 noLimits route.segments

end route

/-! ## What is found -/

theorem limitsInRange_mem {start end_ : K} {out : SpeedLimits K} {limits : List (SpeedLimit K)}
    {x : SpeedLimit K} (h : x ∈ (limitsInRange start end_ out limits).limits) :
    x ∈ out.limits ∨ (x ∈ limits ∧ start < x.location ∧ x.location ≤ end_) := by
  induction limits generalizing out with
  | nil => exact Or.inl h
  | cons limit limits ih =>
    unfold limitsInRange at h
    dsimp only at h
    have hout : x ∈ (if limit.location > start ∧ limit.location ≤ end_ then out.add limit
        else out).limits → x ∈ out.limits ∨
        (x ∈ limit :: limits ∧ start < x.location ∧ x.location ≤ end_) := by
      intro hx
      split at hx
      · rename_i hin
        rcases sorted_set.mem_of_mem_add _ hx with hx | rfl
        · exact Or.inl hx
        · exact Or.inr ⟨List.mem_cons_self, hin⟩
      · exact Or.inl hx
    split at h
    · exact hout h
    · rcases ih h with hx | ⟨hx, hin⟩
      · exact hout hx
      · exact Or.inr ⟨List.mem_cons_of_mem _ hx, hin⟩

theorem SpeedLimits.mem_inRange {s : SpeedLimits K} {start end_ : K} {x : SpeedLimit K}
    (h : x ∈ (s.getSpeedLimitsInRange start end_).limits) :
    x ∈ s.limits ∧ start < x.location ∧ x.location ≤ end_ := by
  rcases limitsInRange_mem h with hnone | hin
  · cases hnone
  · exact hin

theorem SpeedLimits.inRange_le {s : SpeedLimits K} {start end_ : K} {ending x : SpeedLimit K}
    (h : s.getSpeedLimitAtLocation end_ = some (some ending))
    (hx : x ∈ (s.getSpeedLimitsInRange start end_).limits) : x.location ≤ ending.location := by
  obtain ⟨hmem, -, hle⟩ := s.mem_inRange hx
  unfold SpeedLimits.getSpeedLimitAtLocation at h
  split at h
  · cases h
  · rename_i last hlast
    split at h
    · obtain rfl : last = ending := Option.some.inj (Option.some.inj h)
      obtain ⟨before, hbefore⟩ := List.getLast?_eq_some_iff.mp hlast
      rw [hbefore] at hmem
      rcases List.mem_append.mp hmem with hmem | hmem
      · have hsorted := s.sorted
        rw [hbefore, List.pairwise_append] at hsorted
        exact (hsorted.2.2 x hmem last (List.mem_singleton_self last)).le
      · rw [List.mem_singleton.mp hmem]
    · have hfound := List.find?_some (Option.some.inj h)
      exact hle.trans (of_decide_eq_true hfound)

/-! ## Where the segments end -/

section ends

variable {α : Type} {location : α → K} [Field K]

/-- What is stored of the segments, in their order, each with the place where it ends. -/
def segmentEnds (store : K → RouteSegment K F → α) : K → List (RouteSegment K F) → List α
  | _, [] => []
  | dtdAccum, seg :: segs =>
    store (dtdAccum + seg.length) seg :: segmentEnds store (dtdAccum + seg.length) segs

theorem built_lengths {P : Type} {geo : route_node.Geodesy K P F}
    (hgeo : ∀ p q, 0 ≤ geo.lineLength p q) (waypoints : List (route_node.RouteWaypoint K)) :
    ∀ seg ∈ (route_node.build geo waypoints).segments, 0 ≤ seg.length := by
  have hturn : ∀ (b : route_node.Building K F) (wp : route_node.RouteWaypoint K),
      (∀ seg ∈ b.segments, 0 ≤ seg.length) → ∀ seg ∈ (b.turn geo wp).segments, 0 ≤ seg.length := by
    intro b wp hb
    unfold route_node.Building.turn
    split
    · exact hb
    · split
      · intro seg hseg
        rcases List.mem_append.mp hseg with hseg | hseg
        · exact hb seg hseg
        · rw [List.mem_singleton.mp hseg]
          exact hgeo _ _
      · exact hb
  unfold route_node.build
  refine List.foldlRecOn waypoints _ ?_ (fun b hb wp _ => hturn b wp hb)
  exact fun seg hseg => absurd hseg List.not_mem_nil

/-- A loop that adds what it stores of each segment to some set adds it to the elements of the
set. -/
theorem segmentEnds_of_loop {σ : Type*} {elements : σ → List α} {push : σ → α → σ}
    {loop : K → σ → List (RouteSegment K F) → σ} {store : K → RouteSegment K F → α}
    (hpush : ∀ out x,
      elements (push out x) = sorted_set.add (sorted_set.byKey location) (elements out) x)
    (hnil : ∀ dtdAccum out, loop dtdAccum out [] = out)
    (hcons : ∀ dtdAccum out seg segs, loop dtdAccum out (seg :: segs) =
      loop (dtdAccum + seg.length) (push out (store (dtdAccum + seg.length) seg)) segs)
    (dtdAccum : K) (out : σ) (segs : List (RouteSegment K F)) :
    elements (loop dtdAccum out segs) =
      sorted_set.addAll (sorted_set.byKey location) (elements out)
        (segmentEnds store dtdAccum segs) := by
  induction segs generalizing dtdAccum out with
  | nil => exact congrArg elements (hnil dtdAccum out)
  | cons seg segs ih => rw [hcons, ih, hpush, segmentEnds, sorted_set.addAll_cons]

section order

variable [IsStrictOrderedRing K]

theorem segmentEnds_ge {store : K → RouteSegment K F → α}
    (hstore : ∀ place seg, location (store place seg) = place) {segs : List (RouteSegment K F)}
    (hlengths : ∀ seg ∈ segs, 0 ≤ seg.length) (dtdAccum : K) :
    ∀ x ∈ segmentEnds store dtdAccum segs, dtdAccum ≤ location x := by
  induction segs generalizing dtdAccum with
  | nil => exact fun x hx => absurd hx List.not_mem_nil
  | cons seg segs ih =>
    rw [List.forall_mem_cons] at hlengths
    have hstep : dtdAccum ≤ dtdAccum + seg.length := le_add_of_nonneg_right hlengths.1
    rintro x (_ | ⟨_, hx⟩)
    · rw [hstore]
      exact hstep
    · exact hstep.trans (ih hlengths.2 _ x hx)

theorem segmentEnds_pairwise {store : K → RouteSegment K F → α}
    (hstore : ∀ place seg, location (store place seg) = place) {segs : List (RouteSegment K F)}
    (hlengths : ∀ seg ∈ segs, 0 ≤ seg.length) (dtdAccum : K) :
    (segmentEnds store dtdAccum segs).Pairwise (fun a b => location a ≤ location b) := by
  induction segs generalizing dtdAccum with
  | nil => exact List.Pairwise.nil
  | cons seg segs ih =>
    rw [List.forall_mem_cons] at hlengths
    refine List.pairwise_cons.mpr ⟨?_, ih hlengths.2 _⟩
    rw [hstore]
    exact segmentEnds_ge hstore hlengths.2 _

end order

theorem segmentEnds_isSome {store : K → RouteSegment K F → α}
    (hstore : ∀ place seg, location (store place seg) = place) {segs : List (RouteSegment K F)}
    (hne : segs ≠ []) {dtdAccum place : K} (hplace : place ≤ dtdAccum + calculateLength segs) :
    ((segmentEnds store dtdAccum segs).find? fun x => decide (place ≤ location x)).isSome := by
  induction segs generalizing dtdAccum with
  | nil => exact absurd rfl hne
  | cons seg segs ih =>
    rw [calculateLength_cons, ← add_assoc] at hplace
    unfold segmentEnds
    by_cases hhere : place ≤ dtdAccum + seg.length
    · rw [List.find?_cons_of_pos (by simpa only [hstore, decide_eq_true_eq] using hhere)]
      rfl
    · rw [List.find?_cons_of_neg (by simpa only [hstore, decide_eq_true_eq] using hhere)]
      refine ih ?_ hplace
      rintro rfl
      rw [calculateLength, List.map_nil, List.sum_nil, add_zero] at hplace
      exact hhere hplace

end ends

/-! ## Speed limits -/

section limits

theorem limitsInRange_eq (start end_ : K) (out : SpeedLimits K) (limits : List (SpeedLimit K)) :
    (limitsInRange start end_ out limits).limits =
      sorted_set.copyRange SpeedLimit.location start end_ out.limits limits := by
  exact sorted_set.copyRange_of_loop (fun _ _ => rfl) (fun _ => rfl) (fun _ _ _ => rfl) out limits

theorem SpeedLimits.inRange_eq (s : SpeedLimits K) (start end_ : K) :
    (s.getSpeedLimitsInRange start end_).limits =
      s.limits.filter (fun x => decide (x.location > start) && decide (x.location ≤ end_)) := by
  unfold SpeedLimits.getSpeedLimitsInRange
  rw [limitsInRange_eq]
  exact sorted_set.copyRange_eq start end_ s.sorted

theorem SpeedLimits.find?_eq_last {s : SpeedLimits K} {last : SpeedLimit K}
    (h : s.limits.getLast? = some last) (place : K) :
    s.limits.find? (fun x => decide (place ≤ x.location)) = some last ↔
      place ≤ last.location ∧ ∀ x ∈ s.limits.dropLast, x.location < place := by
  have hsorted := s.sorted
  rw [← List.dropLast_append_getLast? last h] at hsorted ⊢
  rw [List.dropLast_concat, List.find?_append]
  constructor
  · intro hfound
    have hnone : s.limits.dropLast.find? (fun x => decide (place ≤ x.location)) = none := by
      rw [← Option.not_isSome_iff_eq_none]
      intro hsome
      obtain ⟨x, hx⟩ := Option.isSome_iff_exists.mp hsome
      rw [hx, Option.some_or] at hfound
      obtain rfl : x = last := Option.some.inj hfound
      exact absurd ((List.pairwise_append.mp hsorted).2.2 x (List.mem_of_find?_eq_some hx) x
        List.mem_cons_self) (lt_irrefl _)
    rw [hnone, Option.none_or] at hfound
    refine ⟨sorted_set.le_of_find? hfound, fun x hx => ?_⟩
    simpa using List.find?_eq_none.mp hnone x hx
  · rintro ⟨hplace, hbefore⟩
    have hnone : s.limits.dropLast.find? (fun x => decide (place ≤ x.location)) = none :=
      List.find?_eq_none.mpr fun x hx => by simpa using hbefore x hx
    rw [hnone, Option.none_or, List.find?_cons_of_pos (by simpa using hplace)]

variable [Field K]

/-- The limit of a segment that ends at a place. -/
def limitOf (place : K) (seg : RouteSegment K F) : SpeedLimit K :=
  ⟨place, convertMphToMps ((seg.downtrackWP.upperSpeedLimit : ℤ) : K)⟩

theorem segmentLimits_eq (dtdAccum : K) (out : SpeedLimits K) (segs : List (RouteSegment K F)) :
    (segmentLimits dtdAccum out segs).limits =
      sorted_set.addAll (sorted_set.byKey SpeedLimit.location) out.limits
        (segmentEnds limitOf dtdAccum segs) := by
  exact segmentEnds_of_loop (fun _ _ => rfl) (fun _ _ => rfl) (fun _ _ _ _ => rfl) dtdAccum out segs

/-- The limit of the segment that a place is in, by its place on the route. -/
def SegmentLimitAt (route : Route K F) (location : K) (limit : SpeedLimit K) : Prop :=
  (segmentEnds limitOf 0 route.segments).find? (fun x => decide (location ≤ x.location)) = some limit

/-- The limit of the segment that a place is in. It is the first that is stored for the place or
for one past it, and the first of each range from the place on that reaches it. -/
structure RightLimit (route : Route K F) (location : K) (limit : SpeedLimit K) : Prop where
  ofSegment : SegmentLimitAt route location limit
  stored : (processRoute route).limits.find? (fun x => decide (location ≤ x.location)) = some limit
  notAfter : ∀ end_, ∀ x ∈ ((processRoute route).getSpeedLimitsInRange location end_).limits,
    limit.location ≤ x.location
  first : ∀ end_, limit.location ≤ end_ →
    ((processRoute route).getSpeedLimitsInRange location end_).limits.head? = some limit

variable [IsStrictOrderedRing K]

theorem stored_eq {route : Route K F} (hlengths : ∀ seg ∈ route.segments, 0 ≤ seg.length)
    (location : K) :
    (processRoute route).limits.find? (fun x => decide (location ≤ x.location)) =
      (segmentEnds limitOf 0 route.segments).find? (fun x => decide (location ≤ x.location)) := by
  unfold processRoute
  rw [segmentLimits_eq]
  exact sorted_set.find?_addAll List.Pairwise.nil
    (segmentEnds_pairwise (fun _ _ => rfl) hlengths 0) location

omit [IsStrictOrderedRing K] in
/-- No limit of a range is at its start, so a right limit is past its place. -/
theorem RightLimit.past {route : Route K F} {location : K} {limit : SpeedLimit K}
    (h : RightLimit route location limit) : location < limit.location := by
  have hhead := h.first limit.location le_rfl
  exact ((processRoute route).mem_inRange (List.mem_of_mem_head? hhead)).2.1

theorem rightLimit_of_stored {route : Route K F} (hlengths : ∀ seg ∈ route.segments, 0 ≤ seg.length)
    {location : K} {limit : SpeedLimit K}
    (h : (processRoute route).limits.find? (fun x => decide (location ≤ x.location)) = some limit)
    (hlt : location < limit.location) : RightLimit route location limit := by
  obtain ⟨hplace, before, after, hparts, hbefore⟩ := List.find?_eq_some_iff_append.mp h
  have hsorted := (processRoute route).sorted
  rw [hparts, List.pairwise_append, List.pairwise_cons] at hsorted
  have hnone : ∀ end_, before.filter
      (fun x => decide (x.location > location) && decide (x.location ≤ end_)) = [] := by
    intro end_
    rw [List.filter_eq_nil_iff]
    intro x hx hin
    have hpast := hbefore x hx
    simp only [Bool.not_eq_true', decide_eq_false_iff_not, not_le] at hpast
    simp [not_lt.mpr hpast.le] at hin
  have hrange : ∀ end_, ((processRoute route).getSpeedLimitsInRange location end_).limits =
      (limit :: after).filter
        (fun x => decide (x.location > location) && decide (x.location ≤ end_)) := by
    intro end_
    rw [SpeedLimits.inRange_eq, hparts, List.filter_append, hnone end_, List.nil_append]
  refine ⟨(stored_eq hlengths location).symm.trans h, h, ?_, ?_⟩
  · intro end_ x hx
    rw [hrange end_] at hx
    rcases List.mem_cons.mp (List.mem_of_mem_filter hx) with rfl | hafter
    · exact le_rfl
    · exact (hsorted.2.1.1 x hafter).le
  · intro end_ hle
    rw [hrange end_, List.filter_cons_of_pos (by simp [hlt, hle]), List.head?_cons]

omit [Field K] [IsStrictOrderedRing K] in
theorem SpeedLimits.past_iff {s : SpeedLimits K} {location : K} {limit : SpeedLimit K}
    (h : s.limits.find? (fun x => decide (location ≤ x.location)) = some limit) :
    location < limit.location ↔ ∀ x ∈ s.limits, x.location ≠ location := by
  obtain ⟨hplace, before, after, hparts, hbefore⟩ := List.find?_eq_some_iff_append.mp h
  have hsorted := s.sorted
  rw [hparts, List.pairwise_append, List.pairwise_cons] at hsorted
  constructor
  · intro hlt x hx
    rw [hparts] at hx
    rcases List.mem_append.mp hx with hx | hx
    · have hpast := hbefore x hx
      simp only [Bool.not_eq_true', decide_eq_false_iff_not, not_le] at hpast
      exact hpast.ne
    · rcases List.mem_cons.mp hx with rfl | hafter
      · exact hlt.ne'
      · exact (hlt.trans (hsorted.2.1.1 x hafter)).ne'
  · intro hnone
    exact lt_of_le_of_ne (sorted_set.le_of_find? h) (hnone limit (List.mem_of_find?_eq_some h)).symm

/-- A place gets the limit of its segment just where no segment ends at it, and it is not past the
number that the last limit is, or is past the places of all the limits but the last. -/
theorem a_place_gets_its_limit_unless_it_is_past_the_last_speed (route : Route K F)
    (hlengths : ∀ seg ∈ route.segments, 0 ≤ seg.length) (location : K)
    (hlocation : location ≤ calculateLength route.segments) :
    (∃ limit, (processRoute route).getSpeedLimitAtLocation location = some (some limit) ∧
      RightLimit route location limit) ↔
    (∀ x ∈ (processRoute route).limits, x.location ≠ location) ∧
      ∃ last, (processRoute route).limits.getLast? = some last ∧ (location ≤ last.limit ∨
        ∀ x ∈ (processRoute route).limits.dropLast, x.location < location) := by
  constructor
  · rintro ⟨limit, hget, hright⟩
    refine ⟨(SpeedLimits.past_iff hright.stored).mp hright.past, ?_⟩
    unfold SpeedLimits.getSpeedLimitAtLocation at hget
    split at hget
    · cases hget
    · rename_i last hlast
      refine ⟨last, hlast, ?_⟩
      split at hget
      · obtain rfl : last = limit := Option.some.inj (Option.some.inj hget)
        exact Or.inr ((SpeedLimits.find?_eq_last hlast location).mp hright.stored).2
      · rename_i hguard
        exact Or.inl (not_lt.mp hguard)
  · rintro ⟨hnone, last, hlast, hguard⟩
    have hne : route.segments ≠ [] := by
      intro hnil
      rw [processRoute, hnil] at hlast
      cases hlast
    have hsome : ((segmentEnds limitOf 0 route.segments).find?
        fun x => decide (location ≤ x.location)).isSome :=
      segmentEnds_isSome (fun _ _ => rfl) hne (hlocation.trans_eq (zero_add _).symm)
    rw [← stored_eq hlengths location] at hsome
    obtain ⟨limit, hfound⟩ := Option.isSome_iff_exists.mp hsome
    refine ⟨limit, ?_, rightLimit_of_stored hlengths hfound
      ((SpeedLimits.past_iff hfound).mpr hnone)⟩
    unfold SpeedLimits.getSpeedLimitAtLocation
    rw [hlast]
    dsimp only
    by_cases hpast : location > last.limit
    · have hbefore := hguard.resolve_left (not_le.mpr hpast)
      have hlimit : limit.location ≤ last.location := by
        rcases List.mem_append.mp (List.dropLast_append_getLast? last hlast ▸
          List.mem_of_find?_eq_some hfound) with hmem | hmem
        · exact absurd (sorted_set.le_of_find? hfound) (not_le.mpr (hbefore limit hmem))
        · rw [List.mem_singleton.mp hmem]
      have hplace : location ≤ last.location := (sorted_set.le_of_find? hfound).trans hlimit
      rw [if_pos hpast, ← hfound, (SpeedLimits.find?_eq_last hlast location).mpr ⟨hplace, hbefore⟩]
    · rw [if_neg hpast]
      exact congrArg some hfound

end limits

/-- Two segments of such a length, at twenty-five miles an hour and at sixty-five. -/
def speedsUp (length : ℚ) : Route ℚ ℚ :=
  route_node.newRoute route_node.flatEarth
    [route_node.flatWaypoint 0 0,
      { route_node.flatWaypoint length 0 with upperSpeedLimit := 25 },
      { route_node.flatWaypoint (2 * length) 0 with upperSpeedLimit := 65 }] "speeds_up" "Speeds Up"

theorem near_the_start_the_limit_is_right :
    (∃ limit, (processRoute (speedsUp 100)).getSpeedLimitAtLocation 20 = some (some limit) ∧
      RightLimit (speedsUp 100) 20 limit) ↔
    (∀ x ∈ (processRoute (speedsUp 100)).limits, x.location ≠ 20) ∧
      ∃ last, (processRoute (speedsUp 100)).limits.getLast? = some last ∧ (20 ≤ last.limit ∨
        ∀ x ∈ (processRoute (speedsUp 100)).limits.dropLast, x.location < 20) :=
  a_place_gets_its_limit_unless_it_is_past_the_last_speed (speedsUp 100)
    (built_lengths (fun p q => abs_nonneg (q - p)) _) 20 (by decide +kernel)

/-- Fifty metres are more than the last limit in metres a second, and get that limit. And where the
first segment ends, its limit is not in the ranges from there on. -/
theorem the_last_limit_is_given_on_the_first_segment :
    (¬ ∃ limit, (processRoute (speedsUp 100)).getSpeedLimitAtLocation 50 = some (some limit) ∧
      RightLimit (speedsUp 100) 50 limit) ∧
    ¬ ∃ limit, (processRoute (speedsUp 10)).getSpeedLimitAtLocation 10 = some (some limit) ∧
      RightLimit (speedsUp 10) 10 limit := by
  constructor
  · rintro ⟨limit, hget, hright⟩
    have hfast : (processRoute (speedsUp 100)).getSpeedLimitAtLocation 50 =
        some (some ⟨200, convertMphToMps 65⟩) := by decide +kernel
    have hslow : (processRoute (speedsUp 100)).limits.find? (fun x => decide (50 ≤ x.location)) =
        some ⟨100, convertMphToMps 25⟩ := by decide +kernel
    have hlimit : limit = ⟨200, convertMphToMps 65⟩ :=
      Option.some.inj (Option.some.inj (hget.symm.trans hfast))
    have hsame := Option.some.inj (hright.stored.symm.trans hslow)
    rw [hlimit] at hsame
    revert hsame
    decide +kernel
  · rintro ⟨limit, hget, hright⟩
    have hslow : (processRoute (speedsUp 10)).getSpeedLimitAtLocation 10 =
        some (some ⟨10, convertMphToMps 25⟩) := by decide +kernel
    have hrange : ((processRoute (speedsUp 10)).getSpeedLimitsInRange 10 20).limits.head? =
        some ⟨20, convertMphToMps 65⟩ := by decide +kernel
    obtain rfl : (⟨10, convertMphToMps 25⟩ : SpeedLimit ℚ) = limit :=
      Option.some.inj (Option.some.inj (hslow.symm.trans hget))
    have hsame := (hright.first 20 (by decide)).symm.trans hrange
    revert hsame
    decide +kernel

end carma.route_service
