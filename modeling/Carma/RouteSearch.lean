-- The segments of a route around a place on it, and the one of them that a point is
-- considered in. The functions are those of `Route`.
import Carma.RouteBuilding

namespace carma.route_node

variable {K P F : Type}

/-! ## Around a segment -/

section around

variable [LinearOrder K] [Field K]

/-- A loop of `findRouteSubsection`: segments, until the distance before one is past the bound. -/
def within (bound : K) : K → List (RouteSegment K F) → List (RouteSegment K F)
  | _, [] => []
  | distance, seg :: segs =>
    if distance > bound then [] else seg :: within bound (distance + seg.length) segs

def Route.findRouteSubsection (route : Route K F) (startingIndex : ℤ)
    (segmentDowntrack distBackward distForward : K) : List (RouteSegment K F) :=
  if startingIndex < 0 then []
  else
    match route.segments[startingIndex.toNat]? with
    | none => []
    | some seg =>
      let behind := within distBackward segmentDowntrack
        (route.segments.take startingIndex.toNat).reverse
      let ahead := within distForward (seg.length - segmentDowntrack)
        (route.segments.drop (startingIndex.toNat + 1))
      (seg :: behind).reverse ++ ahead

theorem within_subset (bound distance : K) (segs : List (RouteSegment K F)) :
    ∀ seg ∈ within bound distance segs, seg ∈ segs := by
  induction segs generalizing distance with
  | nil =>
    intro seg hseg
    cases hseg
  | cons first segs ih =>
    intro seg hseg
    unfold within at hseg
    split at hseg
    · cases hseg
    · rcases List.mem_cons.mp hseg with rfl | hrest
      · exact List.mem_cons_self
      · exact List.mem_cons_of_mem _ (ih _ seg hrest)

theorem findRouteSubsection_subset (route : Route K F) (startingIndex : ℤ)
    (segmentDowntrack distBackward distForward : K) :
    ∀ seg ∈ route.findRouteSubsection startingIndex segmentDowntrack distBackward distForward,
      seg ∈ route.segments := by
  intro seg hseg
  unfold Route.findRouteSubsection at hseg
  split at hseg
  · cases hseg
  · split at hseg
    · cases hseg
    · rename_i first hfirst
      simp only [List.mem_append, List.mem_reverse, List.mem_cons] at hseg
      rcases hseg with (rfl | hbehind) | hahead
      · exact List.mem_of_getElem? hfirst
      · have hmem := within_subset _ _ _ seg hbehind
        exact List.mem_of_mem_take (List.mem_reverse.mp hmem)
      · exact List.mem_of_mem_drop (within_subset _ _ _ seg hahead)

theorem findRouteSubsection_ne_nil (route : Route K F) {startingIndex : ℤ}
    (hlow : 0 ≤ startingIndex) (hhigh : startingIndex < route.segments.length)
    (segmentDowntrack distBackward distForward : K) :
    route.findRouteSubsection startingIndex segmentDowntrack distBackward distForward ≠ [] := by
  have hlt : startingIndex.toNat < route.segments.length := by omega
  unfold Route.findRouteSubsection
  rw [if_neg (not_lt.mpr hlow), List.getElem?_eq_getElem hlt]
  simp

end around

/-! ## The segment of a point -/

variable [LinearOrder K] [Field K]

/-- The loop of `routeSegmentOfPoint`. -/
def searchSegment (geo : Geodesy K P F) (point : P) :
    K → RouteSegment K F → List (RouteSegment K F) → RouteSegment K F
  | _, bestSegment, [] => bestSegment
  | prevMaxCrosstrack, bestSegment, seg :: segs =>
    let wp := seg.downtrackWP
    let maxCrosstrackAllowed := max |wp.minCrossTrack| |wp.maxCrossTrack|
    let crossTrack := seg.crossTrackDistance geo point
    let downTrack := seg.downTrackDistance geo point
    if -prevMaxCrosstrack < downTrack ∧ downTrack ≤ seg.length then
      if |crossTrack| ≤ maxCrosstrackAllowed then seg
      else searchSegment geo point maxCrosstrackAllowed seg segs
    else searchSegment geo point maxCrosstrackAllowed bestSegment segs

/-- `routeSegmentOfPoint`, none where it throws. -/
def routeSegmentOfPoint (geo : Geodesy K P F) (point : P) (segments : List (RouteSegment K F)) :
    Option (RouteSegment K F) :=
  segments.head?.map fun bestSegment => searchSegment geo point 0 bestSegment segments

theorem searchSegment_mem (geo : Geodesy K P F) (point : P) (prevMaxCrosstrack : K)
    (bestSegment : RouteSegment K F) (segs : List (RouteSegment K F)) :
    searchSegment geo point prevMaxCrosstrack bestSegment segs = bestSegment ∨
      searchSegment geo point prevMaxCrosstrack bestSegment segs ∈ segs := by
  induction segs generalizing prevMaxCrosstrack bestSegment with
  | nil => exact Or.inl rfl
  | cons seg segs ih =>
    unfold searchSegment
    simp only
    split
    · split
      · exact Or.inr List.mem_cons_self
      · rcases ih _ seg with hbest | hmem
        · rw [hbest]
          exact Or.inr List.mem_cons_self
        · exact Or.inr (List.mem_cons_of_mem _ hmem)
    · rcases ih _ bestSegment with hbest | hmem
      · exact Or.inl hbest
      · exact Or.inr (List.mem_cons_of_mem _ hmem)

theorem routeSegmentOfPoint_isSome (geo : Geodesy K P F) (point : P)
    {segments : List (RouteSegment K F)} (h : segments ≠ []) :
    ∃ seg ∈ segments, routeSegmentOfPoint geo point segments = some seg := by
  cases segments with
  | nil => exact absurd rfl h
  | cons first segs =>
    refine ⟨searchSegment geo point 0 first (first :: segs), ?_, rfl⟩
    rcases searchSegment_mem geo point 0 first (first :: segs) with hbest | hmem
    · rw [hbest]
      exact List.mem_cons_self
    · exact hmem

end carma.route_node
