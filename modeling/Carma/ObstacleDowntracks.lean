-- Obstacles along the route: the roadway node tells how far an object is along its segment, and
-- goes from the place of the host to the place of the object. The functions are those of
-- `EnvironmentWorker`, and the sum over segments of `Route`.
import Carma.MessagePlaces
import Carma.RouteSubsections

open lib.places

namespace carma.route_node

variable {K F : Type} [Field K]

/-! ## The lengths of some segments -/

/-- The loop of `lengthOfSegments`, with so many segments to go. -/
def Route.addLengths (route : Route K F) : ℕ → ℤ → K → Option K
  | 0, _, totalLength => some totalLength
  | togo + 1, i, totalLength => do
    let seg ← route.getSegment i
    route.addLengths togo (i + 1) (totalLength + seg.length)

/-- The loop adds the way from the start of its first segment to the end of its last one. -/
theorem Route.addLengths_eq (route : Route K F) {togo : ℕ} {i : ℤ} (hi : 0 ≤ i)
    (hlast : i + togo ≤ route.segments.length) (totalLength : K) :
    route.addLengths togo i totalLength =
      some (totalLength + (before route.lengths (i + togo) - before route.lengths i)) := by
  induction togo generalizing i totalLength with
  | zero => simp [addLengths]
  | succ togo ih =>
    push_cast at hlast
    obtain ⟨seg, hseg⟩ := route.getSegment_isSome hi (by omega)
    have hnext := before_next hi (Route.lengths_get hseg).2
    have hend : i + 1 + togo = i + ((togo + 1 : ℕ) : ℤ) := by
      push_cast
      ring
    simp only [addLengths, hseg, Option.bind_eq_bind, Option.bind_some]
    rw [ih (by omega) (by omega), hend, hnext]
    congr 1
    ring

/-- The loop throws when it goes past the last segment. -/
theorem Route.addLengths_eq_none (route : Route K F) {togo : ℕ} {i : ℤ}
    (htogo : 0 < togo) (hlast : route.segments.length < i + togo) (totalLength : K) :
    route.addLengths togo i totalLength = none := by
  induction togo generalizing i totalLength with
  | zero => exact absurd htogo (lt_irrefl 0)
  | succ togo ih =>
    push_cast at hlast
    cases hseg : route.getSegment i with
    | none => simp [addLengths, hseg]
    | some seg =>
      obtain ⟨hpos, hget⟩ := (route.getSegment_eq_some_iff i seg).mp hseg
      obtain ⟨hlt, -⟩ := List.getElem?_eq_some_iff.mp hget
      simp only [addLengths, hseg, Option.bind_eq_bind, Option.bind_some]
      apply ih
      · omega
      · omega

theorem sum_drop_take (lengths : List K) {i j : ℕ} (hij : i ≤ j) :
    ((lengths.take j).drop i).sum = (lengths.take j).sum - (lengths.take i).sum := by
  have hsplit := List.sum_take_add_sum_drop (lengths.take j) i
  rw [List.take_take, min_eq_left hij] at hsplit
  exact eq_sub_of_add_eq' hsplit

theorem Route.lengthOfSegments_eq_addLengths (route : Route K F) (startIndex finalIndex : ℤ) :
    route.lengthOfSegments startIndex finalIndex =
      route.addLengths (finalIndex + 1 - startIndex).toNat startIndex 0 := by
  unfold Route.lengthOfSegments
  split_ifs with hempty hneg hlast
  · have hnone : (finalIndex + 1 - startIndex).toNat = 0 := by omega
    rw [hnone]
    rfl
  · obtain ⟨togo, htogo⟩ : ∃ togo, (finalIndex + 1 - startIndex).toNat = togo + 1 :=
      ⟨(finalIndex - startIndex).toNat, by omega⟩
    have hseg : route.getSegment startIndex = none := by
      simp [getSegment, hneg]
    simp [htogo, addLengths, hseg]
  · have hend : startIndex + ((finalIndex + 1 - startIndex).toNat : ℤ) = finalIndex + 1 := by omega
    have hnext : (finalIndex + 1).toNat = finalIndex.toNat + 1 := by omega
    rw [route.addLengths_eq (by omega) (by omega), hend, zero_add]
    unfold calculateLength before Route.lengths
    rw [List.map_drop, List.map_take, hnext, sum_drop_take _ (by omega)]
  · apply Eq.symm
    apply route.addLengths_eq_none
    · omega
    · omega

theorem Route.lengthOfSegments_between (route : Route K F) {i j : ℤ} (hi : 0 ≤ i) (hij : i ≤ j)
    (hj : j ≤ route.segments.length) :
    route.lengthOfSegments i (j - 1) = some (before route.lengths j - before route.lengths i) := by
  have htogo : (j - 1 + 1 - i).toNat = (j - i).toNat := by omega
  have hend : i + ((j - i).toNat : ℤ) = j := by omega
  rw [route.lengthOfSegments_eq_addLengths, htogo, route.addLengths_eq hi (by omega), hend,
    zero_add]

end carma.route_node

namespace carma.roadway

open carma.route_node

variable {K P F : Type} [Field K]

/-! ## The worker -/

structure RouteState (K : Type) where
  segmentDownTrack : K
  downTrack : K

/-- `EnvironmentWorker`, when it has a route and a state of it. -/
structure EnvironmentWorker (K F : Type) where
  activeRoute : Route K F
  currentSegment : RouteSegment K F
  routeState : RouteState K
  distBackward : K
  distForward : K

namespace EnvironmentWorker

/-- `objDowntrack`, none where a segment is not there. -/
def objDowntrack (w : EnvironmentWorker K F) (objSegmentIndex hostSegmentIndex : ℤ)
    (objSegDowntrack hostSegDowntrack hostDowntrack : K) : Option K :=
  if objSegmentIndex = hostSegmentIndex then
    some (hostDowntrack + (objSegDowntrack - hostSegDowntrack))
  else if objSegmentIndex < hostSegmentIndex then do
    let intermediateDist ←
      w.activeRoute.lengthOfSegments (objSegmentIndex + 1) (hostSegmentIndex - 1)
    let objSegment ← w.activeRoute.getSegment objSegmentIndex
    let remainingObjSegDist := objSegment.length - objSegDowntrack
    return hostDowntrack - remainingObjSegDist - intermediateDist - hostSegDowntrack
  else do
    let intermediateDist ←
      w.activeRoute.lengthOfSegments (hostSegmentIndex + 1) (objSegmentIndex - 1)
    let hostSegment ← w.activeRoute.getSegment hostSegmentIndex
    let remainingHostSegDist := hostSegment.length - hostSegDowntrack
    return hostDowntrack + remainingHostSegDist + intermediateDist + objSegDowntrack

/-! ## Where an object is -/

theorem lengthOfSegments_after {route : Route K F} {i j : ℤ} {seg : RouteSegment K F}
    (hseg : route.getSegment i = some seg) (hij : i < j) (hj : j < route.segments.length) :
    route.lengthOfSegments (i + 1) (j - 1) =
      some (before route.lengths j - (before route.lengths i + seg.length)) := by
  obtain ⟨hi, hlength⟩ := Route.lengths_get hseg
  rw [route.lengthOfSegments_between (by omega) (by omega) (by omega), before_next hi hlength]

section branches

variable (w : EnvironmentWorker K F) {objSegmentIndex hostSegmentIndex : ℤ}
  (objSegDowntrack : K) {hostSegDowntrack hostDowntrack : K}
  (hplace : hostDowntrack = before w.activeRoute.lengths hostSegmentIndex + hostSegDowntrack)

include hplace

theorem objDowntrack_here : w.objDowntrack hostSegmentIndex hostSegmentIndex objSegDowntrack
    hostSegDowntrack hostDowntrack =
      some (before w.activeRoute.lengths hostSegmentIndex + objSegDowntrack) := by
  unfold objDowntrack
  rw [if_pos rfl, hplace]
  congr 1
  ring

theorem objDowntrack_behind (hobj : 0 ≤ objSegmentIndex) (hlt : objSegmentIndex < hostSegmentIndex)
    (hhost : hostSegmentIndex < w.activeRoute.segments.length) :
    w.objDowntrack objSegmentIndex hostSegmentIndex objSegDowntrack hostSegDowntrack
      hostDowntrack = some (before w.activeRoute.lengths objSegmentIndex + objSegDowntrack) := by
  obtain ⟨seg, hseg⟩ := w.activeRoute.getSegment_isSome hobj (by omega)
  have hbetween := lengthOfSegments_after hseg hlt hhost
  unfold objDowntrack
  simp only [if_neg hlt.ne, if_pos hlt, hbetween, hseg, Option.bind_eq_bind, Option.bind_some,
    Option.pure_def]
  rw [hplace]
  congr 1
  ring

theorem objDowntrack_ahead (hhost : 0 ≤ hostSegmentIndex) (hgt : hostSegmentIndex < objSegmentIndex)
    (hobj : objSegmentIndex < w.activeRoute.segments.length) :
    w.objDowntrack objSegmentIndex hostSegmentIndex objSegDowntrack hostSegDowntrack
      hostDowntrack = some (before w.activeRoute.lengths objSegmentIndex + objSegDowntrack) := by
  obtain ⟨seg, hseg⟩ := w.activeRoute.getSegment_isSome hhost (by omega)
  have hbetween := lengthOfSegments_after hseg hgt hobj
  unfold objDowntrack
  simp only [if_neg hgt.ne', if_neg hgt.not_gt, hbetween, hseg, Option.bind_eq_bind,
    Option.bind_some, Option.pure_def]
  rw [hplace]
  congr 1
  ring

end branches

/-- An object is as far along the route as the segments before its own are long, and as far
again as it is along its own. -/
theorem objDowntrack_eq (w : EnvironmentWorker K F) {objSegmentIndex hostSegmentIndex : ℤ}
    (hobj : 0 ≤ objSegmentIndex ∧ objSegmentIndex < w.activeRoute.segments.length)
    (hhost : 0 ≤ hostSegmentIndex ∧ hostSegmentIndex < w.activeRoute.segments.length)
    (objSegDowntrack : K) {hostSegDowntrack hostDowntrack : K}
    (hplace : hostDowntrack = before w.activeRoute.lengths hostSegmentIndex + hostSegDowntrack) :
    w.objDowntrack objSegmentIndex hostSegmentIndex objSegDowntrack hostSegDowntrack
      hostDowntrack = some (before w.activeRoute.lengths objSegmentIndex + objSegDowntrack) := by
  rcases lt_trichotomy objSegmentIndex hostSegmentIndex with hlt | rfl | hgt
  · exact w.objDowntrack_behind objSegDowntrack hplace hobj.1 hlt hhost.2
  · exact w.objDowntrack_here objSegDowntrack hplace
  · exact w.objDowntrack_ahead objSegDowntrack hplace hhost.1 hgt hobj.2

/-- Three metres along the last of three segments, seen from the first one. -/
theorem an_object_two_segments_ahead :
    (⟨threeTens, ⟨flatWaypoint 0 0, flatWaypoint 10 0, 10, 0⟩, ⟨4, 4⟩, 20, 20⟩ :
        EnvironmentWorker ℚ ℚ).objDowntrack 2 0 3 4 4 = some 23 := by
  have hbefore : before threeTens.lengths 2 + 3 = (23 : ℚ) := by decide +kernel
  rw [← hbefore]
  apply objDowntrack_eq
  · exact ⟨by decide, by decide +kernel⟩
  · exact ⟨by decide, by decide +kernel⟩
  · decide +kernel

end EnvironmentWorker

end carma.roadway
