-- What the planner gets from `EadIntersectionManager`: the valid intersections and no
-- others, but in the order of the heap's array. That is by distance where they come so, or
-- where no more than one of them is nearer than another.
import Mathlib
import Carma.EadIntersectionManager

open lib.binary_heap

namespace carma.ead

namespace EadIntersectionManager

variable {L K : Type} {distanceFrom : L → L → Centimeters}

/-! ## What the list has to be -/

section spec

variable (distanceFrom) (m : EadIntersectionManager L K) (vehicleLoc : L)

/-- MAP and SPAT are there with the same id, which is not zero, wanted and not completed,
and the vehicle is associated with a lane. -/
def Valid (input : IntersectionData L K) (map : MapMessage L K) (spat : SpatMessage K)
    (geometry : IntersectionGeometry K) : Prop :=
  input.map = some map ∧ input.spat = some spat ∧ map.intersectionId = spat.intersectionId ∧
    map.intersectionId ≠ 0 ∧ map.intersectionId ∈ m.intersectionIds ∧
    map.intersectionId ∉ m.completedIntersections ∧ map.geometryAt vehicleLoc = some geometry

/-- The valid ones of the inputs, with the data of this call, in the order of the inputs. -/
def validInputs (inputs : List (IntersectionData L K)) : List (IntersectionData L K) :=
  inputs.filterMap (m.keep distanceFrom vehicleLoc)

/-- The nearest one of some intersections, the first of them if there are several. The order
of the integers is named, so that it is one that computes. -/
def nearestOf (intersections : List (IntersectionData L K)) : Option (IntersectionData L K) :=
  @List.argmin _ ℤ Int.instLinearOrder.toPreorder Int.instLinearOrder.toDecidableLT
    (fun i => i.roughDist.value) intersections

def nearest (inputs : List (IntersectionData L K)) : Option (IntersectionData L K) :=
  nearestOf (m.validInputs distanceFrom vehicleLoc inputs)

variable [Field K] [LinearOrder K]

/-- The nearest one was judged completed. -/
def nearestPassed (inputs : List (IntersectionData L K)) : Bool :=
  (m.nearest distanceFrom vehicleLoc inputs).any fun i =>
    i.geometry.any fun g => hasPassed m.prevApproachLaneId g i.dtsb

/-- The list is sorted by distance, and it has all valid inputs, but for the nearest one
when that was judged completed. -/
structure ListsTheValid (inputs list : List (IntersectionData L K)) : Prop where
  sorted : list.Pairwise fun i1 i2 => i1.roughDist.value ≤ i2.roughDist.value
  content : (m.validInputs distanceFrom vehicleLoc inputs).Perm
    (if m.nearestPassed distanceFrom vehicleLoc inputs then
      (m.nearest distanceFrom vehicleLoc inputs).toList ++ list else list)

end spec

theorem keep_eq_some_iff {m : EadIntersectionManager L K} {vehicleLoc : L}
    {input i : IntersectionData L K} : m.keep distanceFrom vehicleLoc input = some i ↔
      ∃ map spat geometry, m.Valid vehicleLoc input map spat geometry ∧
        i = refresh distanceFrom vehicleLoc input map spat geometry := by
  unfold keep validIntersection wantThisIntersection Valid
  cases hmap : input.map with
  | none => simp
  | some map =>
    cases hspat : input.spat with
    | none => simp
    | some spat =>
      by_cases hids : map.intersectionId = spat.intersectionId
      · by_cases hzero : spat.intersectionId = 0
        · simp [hids, hzero]
        · by_cases hwanted : spat.intersectionId ∈ m.intersectionIds
          · by_cases hdone : spat.intersectionId ∈ m.completedIntersections
            · simp [hids, hzero, hdone]
            · simp [hzero, hwanted, hdone, hids, eq_comm (a := i)]
          · simp [hids, hzero, hwanted]
      · simp [hids]

theorem sortInputs_eq (m : EadIntersectionManager L K) (vehicleLoc : L)
    (inputs : List (IntersectionData L K)) : m.sortInputs distanceFrom inputs vehicleLoc =
      (m.validInputs distanceFrom vehicleLoc inputs).foldl (offer byRoughDist) [] := by
  unfold sortInputs validInputs
  rw [List.foldl_filterMap]
  congr 1
  funext queue input
  cases m.keep distanceFrom vehicleLoc input with
  | none => rfl
  | some i => rfl

/-! ## The queue -/

theorem byRoughDist_respects : Respects (fun i : IntersectionData L K => i.roughDist.value)
    byRoughDist fun _ => True := by
  intro a b _ _
  unfold byRoughDist
  constructor
  · intro h
    dsimp only
    omega
  · intro h
    dsimp only
    omega

/-- The root is the nearest one, the first of them if there are several. -/
theorem offers_head (kept : List (IntersectionData L K)) :
    (kept.foldl (offer byRoughDist) []).head? = nearestOf kept := by
  induction kept using List.reverseRecOn with
  | nil => rfl
  | append_singleton kept i ih =>
    obtain ⟨-, hordered⟩ := offers_spec _ byRoughDist_respects kept
    unfold nearestOf at ih ⊢
    rw [List.foldl_append, List.foldl_cons, List.foldl_nil, List.argmin_concat, ← ih]
    generalize kept.foldl (offer byRoughDist) [] = queue at hordered
    cases queue with
    | nil => rfl
    | cons root rest =>
      have hcmp : ∀ a b : IntersectionData L K,
          byRoughDist a b < 0 ↔ a.roughDist.value < b.roughDist.value := by
        intro a b
        unfold byRoughDist
        omega
      rw [offer_head byRoughDist_respects (fun a b h => not_le.mpr ((hcmp a b).mp h)) hordered]
      dsimp only [List.head?_cons]
      by_cases hlt : i.roughDist.value < root.roughDist.value
      · rw [if_pos ((hcmp i root).mpr hlt), if_pos hlt]
      · rw [if_neg (mt (hcmp i root).mp hlt), if_neg hlt]

/-- The array of the queue after the kept distances came in, and after the root was taken
out if that one was completed. -/
def heapArray (distances : List ℤ) (completed : Bool) : List ℤ :=
  let queue := distances.foldl (offer (· - ·)) []
  if completed then ((poll (· - ·) queue).map Prod.snd).getD [] else queue

/-- From the third on each distance is at least those before it. -/
def InOrder (distances : List ℤ) : Prop :=
  (∀ e ∈ distances.take 2, ∀ d ∈ distances.drop 2, e ≤ d) ∧ (distances.drop 2).Pairwise (· ≤ ·)

/-- At most `n` of the distances are less than another. -/
def FewNearer (distances : List ℤ) (n : ℕ) : Prop :=
  distances.countP (fun e => distances.any (e < ·)) ≤ n

/-- The distances come in order and none is taken out, or no more than one of those that
are left is less than another. -/
def NearestFirst (distances : List ℤ) (completed : Bool) : Prop :=
  completed = false ∧ InOrder distances ∨ FewNearer distances (if completed then 2 else 1)

theorem subtract_respects : Respects (fun d : ℤ => d) (· - ·) fun _ => True := by
  intro a b _ _
  dsimp only
  omega

/-- The distances as a heap, less the least one if that was taken out. -/
theorem heapArray_spec (distances : List ℤ) (completed : Bool) :
    Ordered (fun d : ℤ => d) (heapArray distances completed) ∧
      ∃ gone : List ℤ, gone.length = (if completed ∧ distances ≠ [] then 1 else 0) ∧
        distances.Perm (gone ++ heapArray distances completed) ∧
        ∀ g ∈ gone, ∀ e ∈ heapArray distances completed, g ≤ e := by
  obtain ⟨hperm, hordered⟩ := offers_spec _ subtract_respects distances
  unfold heapArray
  dsimp only
  cases completed with
  | false => exact ⟨hordered, [], by simp, hperm.symm, nofun⟩
  | true =>
    rw [if_pos rfl]
    cases hpoll : poll (· - ·) (distances.foldl (offer (· - ·)) []) with
    | none =>
      rw [poll_eq_none.mp hpoll] at hperm
      obtain rfl := List.nil_perm.mp hperm
      exact ⟨ordered_nil _, [], by simp, List.Perm.refl _, nofun⟩
    | some polled =>
      obtain ⟨root, rest⟩ := polled
      obtain ⟨hroot, hperm'⟩ := poll_perm hpoll
      refine ⟨poll_ordered _ subtract_respects hpoll (fun _ _ => trivial) hordered, [root], ?_,
        hperm.symm.trans hperm', ?_⟩
      · have hne : distances ≠ [] := by
          rintro rfl
          cases hpoll
        simp [hne]
      · rintro g hg e he
        rw [List.mem_singleton.mp hg]
        exact root_le _ hordered hroot (hperm'.mem_iff.mpr (List.mem_cons_of_mem root he))

/-- An array in order is sorted where no more than its root is less than another. -/
theorem heapArray_sorted_of_fewNearer {distances : List ℤ} {completed : Bool}
    (h : FewNearer distances (if completed then 2 else 1)) :
    (heapArray distances completed).Pairwise (· ≤ ·) := by
  obtain ⟨hordered, gone, hgone, hperm, hnearest⟩ := heapArray_spec distances completed
  generalize heapArray distances completed = array at *
  cases array with
  | nil => exact List.Pairwise.nil
  | cons root rest =>
    have hroot : ∀ e ∈ rest, root ≤ e := fun e he =>
      root_le _ hordered rfl (List.mem_cons_of_mem root he)
    refine List.pairwise_cons.mpr ⟨hroot, ?_⟩
    rw [List.pairwise_iff_forall_sublist]
    intro a b hab
    by_contra hlt
    have ha := hab.subset List.mem_cons_self
    have hb := hab.subset (List.mem_cons_of_mem a List.mem_cons_self)
    -- the second is less than the first, and so are the root and what was taken out
    have hless : ∀ e, e ≤ b → distances.any (e < ·) = true := by
      intro e he
      rw [List.any_eq_true]
      refine ⟨a, hperm.mem_iff.mpr (List.mem_append_right _ (List.mem_cons_of_mem _ ha)), ?_⟩
      exact decide_eq_true (by omega)
    have hall : gone.countP (fun e => distances.any (e < ·)) = gone.length := by
      rw [List.countP_eq_length]
      exact fun g hg => hless g (hnearest g hg b (List.mem_cons_of_mem _ hb))
    have hmore : 0 < rest.countP (fun e => distances.any (e < ·)) :=
      List.countP_pos_iff.mpr ⟨b, hb, hless b le_rfl⟩
    unfold FewNearer at h
    have hcons : (root :: rest).countP (fun e => distances.any (e < ·)) =
        rest.countP (fun e => distances.any (e < ·)) + 1 :=
      List.countP_cons_of_pos (hless root (hroot b hb))
    have hne : distances ≠ [] := by
      rintro rfl
      have hlength := hperm.length_eq
      rw [List.length_append, List.length_cons, List.length_nil] at hlength
      omega
    rw [hperm.countP_eq, List.countP_append, hall, hgone, hcons] at h
    cases completed with
    | false =>
      simp only [Bool.false_eq_true, false_and, if_false] at h
      omega
    | true =>
      simp only [hne, ne_eq, not_false_eq_true, and_true, if_true] at h
      omega

theorem heapArray_sorted_of_inOrder {distances : List ℤ} (h : InOrder distances) :
    (heapArray distances false).Pairwise (· ≤ ·) := by
  obtain ⟨hfirst, hrest⟩ := h
  obtain ⟨hperm, hordered⟩ := offers_spec _ subtract_respects (distances.take 2)
  have hlength : ((distances.take 2).foldl (offer (· - ·)) []).length ≤ 2 := by
    rw [hperm.length_eq, List.length_take]
    exact min_le_left _ _
  have htwo := hordered.pairwise_of_length_le_two _ hlength
  show (distances.foldl (offer (· - ·)) []).Pairwise (· ≤ ·)
  rw [← List.take_append_drop 2 distances, List.foldl_append, offers_last]
  · rw [List.pairwise_append]
    exact ⟨htwo, hrest, fun e he d hd => hfirst e (hperm.mem_iff.mp he) d hd⟩
  · exact fun d hd e he => sub_nonneg.mpr (hfirst e (hperm.mem_iff.mp he) d hd)
  · exact hrest.imp fun h => sub_nonneg.mpr h

theorem heapArray_sorted {distances : List ℤ} {completed : Bool}
    (h : NearestFirst distances completed) : (heapArray distances completed).Pairwise (· ≤ ·) := by
  rcases h with ⟨rfl, hin⟩ | hfew
  · exact heapArray_sorted_of_inOrder hin
  · exact heapArray_sorted_of_fewNearer hfew

/-- A third distance goes to the end, or to the root if it is nearer than the one there. -/
theorem offer_third (a b c : ℤ) : offer (· - ·) [a, b] c = if a ≤ c then [a, b, c] else [c, b, a] := by
  by_cases h : a ≤ c
  · simp [offer, siftUp, parent, h]
  · simp [offer, siftUp, parent, h]

theorem heapArray_three (a b c : ℤ) : heapArray [a, b, c] false =
    if a ≤ b then if a ≤ c then [a, b, c] else [c, b, a]
    else if b ≤ c then [b, a, c] else [c, a, b] := by
  have htwo : offer (· - ·) (offer (· - ·) [] a) b = if a ≤ b then [a, b] else [b, a] := by
    simp [offer, siftUp, parent]
  show offer (· - ·) (offer (· - ·) (offer (· - ·) [] a) b) c = _
  rw [htwo]
  by_cases h : a ≤ b
  · rw [if_pos h, if_pos h, offer_third]
  · rw [if_neg h, if_neg h, offer_third]

/-- Of some distances one at least is less than no other. -/
theorem fewNearer_of_length {distances : List ℤ} {n : ℕ} (h : distances.length ≤ n + 1) :
    FewNearer distances n := by
  unfold FewNearer
  by_contra hmore
  have hle := List.countP_le_length (l := distances) (p := fun e => distances.any (e < ·))
  have hall : distances.countP (fun e => distances.any (e < ·)) = distances.length := by omega
  rw [List.countP_eq_length] at hall
  have hne : distances ≠ [] := by
    rintro rfl
    exact hmore (Nat.zero_le n)
  obtain ⟨m, hm⟩ := Option.ne_none_iff_exists'.mp (mt List.max?_eq_none_iff.mp hne)
  obtain ⟨hmem, hmax⟩ := List.max?_eq_some_iff.mp hm
  obtain ⟨d, hd, hlt⟩ := List.any_eq_true.mp (hall m hmem)
  exact absurd (hmax d hd) (not_le.mpr (of_decide_eq_true hlt))

theorem nearestFirst_of_sorted {distances : List ℤ} {completed : Bool}
    (hlength : distances.length ≤ 3) (h : (heapArray distances completed).Pairwise (· ≤ ·)) :
    NearestFirst distances completed := by
  cases completed with
  | true => exact Or.inr (fewNearer_of_length hlength)
  | false =>
    by_cases htwo : distances.length ≤ 2
    · exact Or.inr (fewNearer_of_length htwo)
    · obtain ⟨a, b, c, rfl⟩ := List.length_eq_three.mp (by omega : distances.length = 3)
      have hsorted : ∀ x y z : ℤ, [x, y, z].Pairwise (· ≤ ·) ↔ x ≤ y ∧ y ≤ z := by
        intro x y z
        simp only [List.pairwise_cons, List.mem_cons, List.not_mem_nil, or_false, forall_eq_or_imp,
          forall_eq, IsEmpty.forall_iff, implies_true, List.Pairwise.nil, and_true]
        omega
      have hcases : a = b ∧ c ≤ a ∨ a ≤ c ∧ b ≤ c := by
        rw [heapArray_three] at h
        by_cases hab : a ≤ b
        · by_cases hac : a ≤ c
          · rw [if_pos hab, if_pos hac, hsorted] at h
            omega
          · rw [if_pos hab, if_neg hac, hsorted] at h
            omega
        · by_cases hbc : b ≤ c
          · rw [if_neg hab, if_pos hbc, hsorted] at h
            omega
          · rw [if_neg hab, if_neg hbc, hsorted] at h
            omega
      rcases hcases with ⟨rfl, hca⟩ | ⟨hac, hbc⟩
      · right
        unfold FewNearer
        have hno : [a, a, c].any (a < ·) = false := by simp [hca]
        rw [List.countP_cons_of_neg (by simp [hno]), List.countP_cons_of_neg (by simp [hno])]
        exact List.countP_le_length
      · left
        refine ⟨rfl, ?_, List.pairwise_singleton _ c⟩
        simp [hac, hbc]

/-! ## A call -/

variable [Field K] [LinearOrder K] {m : EadIntersectionManager L K} {vehicleLoc : L}
variable {inputs : List (IntersectionData L K)}

/-- After a call the list is the heap of the valid inputs, less its root if the nearest one
was judged completed. -/
theorem updateIntersections_list :
    (m.updateIntersections distanceFrom inputs vehicleLoc).2.getSortedIntersections =
      if m.nearestPassed distanceFrom vehicleLoc inputs then
        ((poll byRoughDist (m.sortInputs distanceFrom inputs vehicleLoc)).map Prod.snd).getD []
      else m.sortInputs distanceFrom inputs vehicleLoc := by
  have hhead : (m.sortInputs distanceFrom inputs vehicleLoc).head? =
      m.nearest distanceFrom vehicleLoc inputs := by
    rw [sortInputs_eq]
    exact offers_head _
  unfold updateIntersections getSortedIntersections nearestPassed
  rw [← hhead]
  split
  · rename_i hnil
    subst hnil
    rfl
  · dsimp only
    cases hnear : (m.sortInputs distanceFrom inputs vehicleLoc).head? with
    | none => rfl
    | some near =>
      simp only [Option.any_some]
      split
      · rename_i hgeometry
        simp only [hgeometry, Option.any_none, Bool.false_eq_true, if_false]
      · rename_i geometry hgeometry
        simp only [hgeometry, Option.any_some]
        split
        · cases hpoll : poll byRoughDist (m.sortInputs distanceFrom inputs vehicleLoc) with
          | none =>
            rw [poll_eq_none.mp hpoll] at hnear
            cases hnear
          | some polled => rfl
        · split
          · -- the lane id that is written is the one that is there
            obtain ⟨rest, hqueue⟩ := List.head?_eq_some_iff.mp hnear
            have hlane : near.laneId = geometry.laneId := by
              have hmem : near ∈ m.validInputs distanceFrom vehicleLoc inputs := by
                rw [← (offers_spec _ byRoughDist_respects _).1.mem_iff, ← sortInputs_eq, hqueue]
                exact List.mem_cons_self
              obtain ⟨input, -, hkeep⟩ := List.mem_filterMap.mp hmem
              obtain ⟨_, _, g, -, rfl⟩ := keep_eq_some_iff.mp hkeep
              obtain rfl := Option.some.inj hgeometry
              rfl
            rw [hqueue, List.modifyHead_cons, ← hlane]
          · rfl

/-- The list has all valid inputs, but for the nearest one when that was completed. -/
theorem updateIntersections_content :
    (m.validInputs distanceFrom vehicleLoc inputs).Perm
      (if m.nearestPassed distanceFrom vehicleLoc inputs then
        (m.nearest distanceFrom vehicleLoc inputs).toList ++
          (m.updateIntersections distanceFrom inputs vehicleLoc).2.getSortedIntersections
      else (m.updateIntersections distanceFrom inputs vehicleLoc).2.getSortedIntersections) := by
  rw [updateIntersections_list, sortInputs_eq]
  obtain ⟨hperm, -⟩ := offers_spec _ byRoughDist_respects
    (m.validInputs distanceFrom vehicleLoc inputs)
  have hhead := offers_head (m.validInputs distanceFrom vehicleLoc inputs)
  by_cases hpassed : m.nearestPassed distanceFrom vehicleLoc inputs
  · rw [if_pos hpassed, if_pos hpassed]
    cases hpoll : poll byRoughDist
        ((m.validInputs distanceFrom vehicleLoc inputs).foldl (offer byRoughDist) []) with
    | none =>
      rw [poll_eq_none.mp hpoll] at hhead
      unfold nearestPassed nearest at hpassed
      rw [← hhead] at hpassed
      cases hpassed
    | some polled =>
      obtain ⟨root, rest⟩ := polled
      obtain ⟨hroot, hperm'⟩ := poll_perm hpoll
      rw [hroot] at hhead
      unfold nearest
      rw [← hhead]
      exact hperm.symm.trans hperm'
  · rw [if_neg hpassed, if_neg hpassed]
    exact hperm.symm

theorem updateIntersections_distances :
    (m.updateIntersections distanceFrom inputs vehicleLoc).2.getSortedIntersections.map
        (fun i => i.roughDist.value) =
      heapArray ((m.validInputs distanceFrom vehicleLoc inputs).map fun i => i.roughDist.value)
        (m.nearestPassed distanceFrom vehicleLoc inputs) := by
  have hcmp : ∀ a b : IntersectionData L K,
      byRoughDist a b = a.roughDist.value - b.roughDist.value := fun _ _ => rfl
  have hqueue := offers_map hcmp (m.validInputs distanceFrom vehicleLoc inputs) []
  rw [updateIntersections_list, sortInputs_eq]
  unfold heapArray
  rw [List.map_nil] at hqueue
  dsimp only
  rw [← hqueue]
  split
  · rw [poll_map hcmp]
    cases poll byRoughDist
        ((m.validInputs distanceFrom vehicleLoc inputs).foldl (offer byRoughDist) []) with
    | none => rfl
    | some polled => rfl
  · rfl

/-- The list has what it has to and is sorted where the distances of the valid inputs come
in order, or no more than one of those that are left is nearer than another. For up to three
valid inputs it is sorted only then. -/
theorem the_list_is_nearest_first_where_the_distances_come_so
    (distanceFrom : L → L → Centimeters) (m : EadIntersectionManager L K)
    (inputs : List (IntersectionData L K)) (vehicleLoc : L) :
    let distances := (m.validInputs distanceFrom vehicleLoc inputs).map fun i => i.roughDist.value
    let completed := m.nearestPassed distanceFrom vehicleLoc inputs
    let list := (m.updateIntersections distanceFrom inputs vehicleLoc).2.getSortedIntersections
    (NearestFirst distances completed → m.ListsTheValid distanceFrom vehicleLoc inputs list) ∧
      (distances.length ≤ 3 → m.ListsTheValid distanceFrom vehicleLoc inputs list →
        NearestFirst distances completed) := by
  intro distances completed list
  have hdistances : list.map (fun i => i.roughDist.value) = heapArray distances completed :=
    updateIntersections_distances
  constructor
  · intro h
    have hsorted := heapArray_sorted h
    rw [← hdistances, List.pairwise_map] at hsorted
    exact ⟨hsorted, updateIntersections_content⟩
  · intro hlength h
    apply nearestFirst_of_sorted hlength
    rw [← hdistances, List.pairwise_map]
    exact h.sorted

/-- An intersection with a lane for every location, at a distance. -/
def inView (id : ℤ) (refPoint : Centimeters) : IntersectionData Centimeters ℚ where
  map := some ⟨id, refPoint, fun _ => some ⟨refPoint.value / 100, 1, 10, fun _ => true⟩⟩
  spat := some ⟨id, fun _ => (some 5, some .GREEN)⟩
  roughDist := ⟨2 ^ 31 - 1, by decide⟩
  intersectionId := id
  laneId := -1
  dtsb := 0
  currentPhase := .NONE
  timeToNextPhase := -1
  geometry := none
  stopBoxWidth := -1

/-- Five of which the first two come the wrong way round, and the next two are equally far. -/
def fiveInView : List (IntersectionData Centimeters ℚ) :=
  [inView 7 ⟨200, by decide⟩, inView 8 ⟨100, by decide⟩, inView 9 ⟨300, by decide⟩,
    inView 10 ⟨300, by decide⟩, inView 11 ⟨400, by decide⟩]

theorem five_in_view_are_nearest_first : ListsTheValid (fun refPoint _ => refPoint)
    ⟨[7, 8, 9, 10, 11], [], [], -1⟩ ⟨0, by decide⟩ fiveInView
    (updateIntersections (fun refPoint _ => refPoint) ⟨[7, 8, 9, 10, 11], [], [], -1⟩ fiveInView
      ⟨0, by decide⟩).2.getSortedIntersections := by
  refine (the_list_is_nearest_first_where_the_distances_come_so (fun refPoint _ => refPoint)
    ⟨[7, 8, 9, 10, 11], [], [], -1⟩ fiveInView ⟨0, by decide⟩).1 (Or.inl ⟨by decide +kernel, ?_⟩)
  unfold InOrder
  decide +kernel

/-- Intersections at 1 m, 3 m and 2 m stay in this order. -/
theorem the_third_of_three_is_not_moved : ¬ ListsTheValid (fun refPoint _ => refPoint)
    ⟨[7, 8, 9], [], [], -1⟩ ⟨0, by decide⟩
    [inView 7 ⟨100, by decide⟩, inView 8 ⟨300, by decide⟩, inView 9 ⟨200, by decide⟩]
    (updateIntersections (fun refPoint _ => refPoint) ⟨[7, 8, 9], [], [], -1⟩
      [inView 7 ⟨100, by decide⟩, inView 8 ⟨300, by decide⟩, inView 9 ⟨200, by decide⟩]
      ⟨0, by decide⟩).2.getSortedIntersections := by
  intro h
  have hsorted := List.pairwise_map.mpr h.sorted
  rw [updateIntersections_distances] at hsorted
  revert hsorted
  decide +kernel

end EadIntersectionManager

end carma.ead
