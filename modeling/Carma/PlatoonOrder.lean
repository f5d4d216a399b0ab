-- The order of the platoon list over runs of STATUS messages, expiries and role
-- changes. The ids in it stay distinct. It runs from front to rear for as long as no
-- STATUS takes its sender past, or level with, another listed member: the list is
-- sorted only when a member is added.
import Carma.Lib.Descents
import Carma.Lib.Runs
import Carma.PlatoonManager
import Mathlib.Algebra.Order.Ring.Rat

open lib.descents lib.runs

namespace carma.platoon_manager

/-! ## Calls -/

inductive Call (K : Type) where
  | memberUpdates (downtrack : K) (now : ℤ) (senderId platoonId senderBsmId : String)
      (params : StatusParams K)
  | removeExpiredMember (clock : ℕ → ℤ)
  | changeFromLeaderToFollower (newPlatoonId : String)
  | changeFromFollowerToLeader (uuid : String)

variable {K : Type} [LinearOrder K]

def call (m : PlatoonManager K) : Call K → PlatoonManager K
  | .memberUpdates downtrack now senderId platoonId senderBsmId params =>
    m.memberUpdates downtrack now senderId platoonId senderBsmId params
  | .removeExpiredMember clock => m.removeExpiredMember clock
  | .changeFromLeaderToFollower newPlatoonId => m.changeFromLeaderToFollower newPlatoonId
  | .changeFromFollowerToLeader uuid => m.changeFromFollowerToLeader uuid

/-! ## What is said of the list -/

/-- No two members of the list have one id. -/
def DistinctIds (ms : List (PlatoonMember K)) : Prop := (ms.map (·.staticId)).Nodup

/-- The ids are distinct, and the list runs from front to rear. -/
def FrontToRear (ms : List (PlatoonMember K)) : Prop :=
  DistinctIds ms ∧ Descending (·.vehiclePosition) ms

/-- The manager enters this STATUS in its list. -/
def Heeds (m : PlatoonManager K) (downtrack : K) (senderId platoonId : String)
    (params : StatusParams K) : Prop :=
  if m.isFollower then
    m.leaderID = senderId ∧ m.currentPlatoonID ≠ platoonId ∨
      m.currentPlatoonID = platoonId ∧ downtrack ≤ params.dtDistance
  else m.currentPlatoonID = platoonId

/-- The sender is level with no other listed member and, if it is listed, it is
ahead of those it was ahead of. -/
def KeepsItsPlace (ms : List (PlatoonMember K)) (senderId : String) (dtDistance : K) : Prop :=
  ∀ other ∈ ms, other.staticId ≠ senderId → dtDistance ≠ other.vehiclePosition ∧
    ∀ sender ∈ ms, sender.staticId = senderId →
      (sender.vehiclePosition < other.vehiclePosition ↔ dtDistance < other.vehiclePosition)

/-- A STATUS that is heeded keeps its sender in its place. -/
def KeepsPlaces (m : PlatoonManager K) : Call K → Prop
  | .memberUpdates downtrack _ senderId platoonId _ params =>
    Heeds m downtrack senderId platoonId params →
      KeepsItsPlace m.platoon senderId params.dtDistance
  | _ => True

/-! ## An update of a listed member -/

omit [LinearOrder K] in
@[simp] theorem update_staticId (pm : PlatoonMember K) (senderBsmId : String)
    (params : StatusParams K) (now : ℤ) :
    (pm.update senderBsmId params now).staticId = pm.staticId := rfl

omit [LinearOrder K] in
@[simp] theorem update_vehiclePosition (pm : PlatoonMember K) (senderBsmId : String)
    (params : StatusParams K) (now : ℤ) :
    (pm.update senderBsmId params now).vehiclePosition = params.dtDistance := rfl

/-- The update as it meets any one member. -/
def updateIf (senderId senderBsmId : String) (params : StatusParams K) (now : ℤ)
    (pm : PlatoonMember K) : PlatoonMember K :=
  if pm.staticId = senderId then pm.update senderBsmId params now else pm

omit [LinearOrder K] in
@[simp] theorem updateIf_staticId (senderId senderBsmId : String) (params : StatusParams K)
    (now : ℤ) (pm : PlatoonMember K) :
    (updateIf senderId senderBsmId params now pm).staticId = pm.staticId := by
  unfold updateIf
  split <;> simp

omit [LinearOrder K] in
theorem updateFirst_eq_map {ms : List (PlatoonMember K)} (h : DistinctIds ms)
    (senderId senderBsmId : String) (params : StatusParams K) (now : ℤ) :
    updateFirst senderId senderBsmId params now ms =
      ms.map (updateIf senderId senderBsmId params now) := by
  induction ms with
  | nil => rfl
  | cons pm pms ih =>
    simp only [DistinctIds, List.map_cons, List.nodup_cons] at h
    unfold updateFirst
    rw [List.map_cons]
    split
    · rename_i hid
      have hrest : pms.map (updateIf senderId senderBsmId params now) = pms := by
        apply (List.map_congr_left _).trans (List.map_id pms)
        intro x hx
        have hne : x.staticId ≠ senderId := by
          rintro rfl
          exact h.1 (List.mem_map.mpr ⟨x, hx, hid.symm⟩)
        simp [updateIf, hne]
      rw [hrest]
      simp [updateIf, hid]
    · rename_i hid
      rw [ih h.2]
      simp [updateIf, hid]

omit [LinearOrder K] in
theorem updateFirst_distinct {ms : List (PlatoonMember K)} (h : DistinctIds ms)
    (senderId senderBsmId : String) (params : StatusParams K) (now : ℤ) :
    DistinctIds (updateFirst senderId senderBsmId params now ms) := by
  unfold DistinctIds at *
  rw [updateFirst_eq_map h, List.map_map]
  have hids : (·.staticId) ∘ updateIf senderId senderBsmId params now =
      (·.staticId : PlatoonMember K → String) := by
    funext pm
    simp
  rw [hids]
  exact h

/-- The list runs from front to rear after the update just when the sender kept its place. -/
theorem updateFirst_frontToRear_iff {ms : List (PlatoonMember K)} (h : FrontToRear ms)
    {senderId : String} (hmem : senderId ∈ ms.map (·.staticId)) (senderBsmId : String)
    (params : StatusParams K) (now : ℤ) :
    FrontToRear (updateFirst senderId senderBsmId params now ms) ↔
      KeepsItsPlace ms senderId params.dtDistance := by
  obtain ⟨hids, hdown⟩ := h
  obtain ⟨s, hs, rfl⟩ := List.mem_map.mp hmem
  have hone : ∀ a ∈ ms, a.staticId = s.staticId → a = s := by
    intro a ha hid
    exact List.inj_on_of_nodup_map hids ha hs hid
  unfold FrontToRear
  rw [and_iff_right (updateFirst_distinct hids _ _ _ _), updateFirst_eq_map hids,
    descending_map_iff hdown]
  constructor
  · intro hkeep b hb hne
    have hpair : (s.vehiclePosition < b.vehiclePosition → params.dtDistance < b.vehiclePosition) ∧
        (b.vehiclePosition < s.vehiclePosition → b.vehiclePosition < params.dtDistance) := by
      have hup := hkeep s hs b hb
      have hdn := hkeep b hb s hs
      simp only [updateIf, if_pos, if_neg hne, update_vehiclePosition] at hup hdn
      exact ⟨hup, hdn⟩
    have hapart : s.vehiclePosition ≠ b.vehiclePosition := by
      intro heq
      exact hne (congrArg _ (List.inj_on_of_nodup_map (descending_nodup hdown) hb hs heq.symm))
    rcases lt_or_gt_of_ne hapart with hlt | hgt
    · have hnew := hpair.1 hlt
      refine ⟨ne_of_lt hnew, ?_⟩
      intro e he hid
      rw [hone e he hid]
      exact iff_of_true hlt hnew
    · have hnew := hpair.2 hgt
      refine ⟨ne_of_gt hnew, ?_⟩
      intro e he hid
      rw [hone e he hid]
      exact iff_of_false (not_lt_of_gt hgt) (not_lt_of_gt hnew)
  · intro hkeep a ha b hb hlt
    unfold updateIf
    split_ifs with hsa hsb hsb
    · -- both are the sender
      rw [hone a ha hsa, hone b hb hsb] at hlt
      exact absurd hlt (lt_irrefl _)
    · exact ((hkeep b hb hsb).2 a ha hsa).mp hlt
    · have hrest := hkeep a ha hsa
      have hnot : ¬ params.dtDistance < a.vehiclePosition := by
        rw [← hrest.2 b hb hsb]
        exact not_lt_of_gt hlt
      exact lt_of_le_of_ne (not_lt.mp hnot) (Ne.symm hrest.1)
    · exact hlt

/-! ## A new member -/

omit [LinearOrder K] in
theorem snoc_distinct {ms : List (PlatoonMember K)} (h : DistinctIds ms) {new : PlatoonMember K}
    (hmem : new.staticId ∉ ms.map (·.staticId)) : DistinctIds (ms ++ [new]) := by
  unfold DistinctIds at *
  rw [List.map_append, List.map_singleton, ← List.concat_eq_append]
  exact h.concat hmem

theorem sort_distinct {ms : List (PlatoonMember K)} (h : DistinctIds ms) :
    DistinctIds (ms.insertionSort NotBehind) := by
  unfold DistinctIds at *
  exact ((List.perm_insertionSort NotBehind ms).map _).nodup_iff.mpr h

theorem add_frontToRear_iff {ms : List (PlatoonMember K)} (h : FrontToRear ms)
    {new : PlatoonMember K} (hmem : new.staticId ∉ ms.map (·.staticId)) :
    FrontToRear ((ms ++ [new]).insertionSort NotBehind) ↔
      KeepsItsPlace ms new.staticId new.vehiclePosition := by
  obtain ⟨hids, hdown⟩ := h
  have hother : ∀ pm ∈ ms, pm.staticId ≠ new.staticId := by
    intro pm hpm hid
    exact hmem (List.mem_map.mpr ⟨pm, hpm, hid⟩)
  unfold FrontToRear
  rw [and_iff_right (sort_distinct (snoc_distinct hids hmem)),
    descending_sort_iff (r := NotBehind) (fun _ _ => Iff.rfl), List.map_append, List.map_singleton,
    List.nodup_append]
  constructor
  · rintro ⟨-, -, hlevel⟩ pm hpm _
    refine ⟨Ne.symm (hlevel _ (List.mem_map_of_mem hpm) _ (by simp)), ?_⟩
    intro e he hid
    exact absurd hid (hother e he)
  · intro hkeep
    refine ⟨descending_nodup hdown, by simp, ?_⟩
    intro x hx y hy
    obtain ⟨pm, hpm, rfl⟩ := List.mem_map.mp hx
    rw [List.mem_singleton.mp hy]
    exact Ne.symm (hkeep pm hpm (hother pm hpm)).1

/-! ## One call -/

theorem updatesOrAddMemberInfo_distinct {m : PlatoonManager K} (h : DistinctIds m.platoon)
    (senderId senderBsmId : String) (params : StatusParams K) (now : ℤ) :
    DistinctIds (m.updatesOrAddMemberInfo senderId senderBsmId params now).platoon := by
  unfold PlatoonManager.updatesOrAddMemberInfo
  split
  · exact updateFirst_distinct h _ _ _ _
  · rename_i hnew
    exact sort_distinct (snoc_distinct h hnew)

theorem updatesOrAddMemberInfo_frontToRear_iff {m : PlatoonManager K} (h : FrontToRear m.platoon)
    (senderId senderBsmId : String) (params : StatusParams K) (now : ℤ) :
    FrontToRear (m.updatesOrAddMemberInfo senderId senderBsmId params now).platoon ↔
      KeepsItsPlace m.platoon senderId params.dtDistance := by
  unfold PlatoonManager.updatesOrAddMemberInfo
  split
  · rename_i hold
    exact updateFirst_frontToRear_iff h hold _ _ _
  · rename_i hnew
    exact add_frontToRear_iff h hnew

/-- The list that comes out depends on the list that goes in, and on no other field. -/
theorem updatesOrAddMemberInfo_congr {m n : PlatoonManager K} (h : m.platoon = n.platoon)
    (senderId senderBsmId : String) (params : StatusParams K) (now : ℤ) :
    (m.updatesOrAddMemberInfo senderId senderBsmId params now).platoon =
      (n.updatesOrAddMemberInfo senderId senderBsmId params now).platoon := by
  unfold PlatoonManager.updatesOrAddMemberInfo
  rw [h]
  split <;> rfl

/-- What `memberUpdates` does to the list. -/
theorem memberUpdates_platoon (m : PlatoonManager K) (downtrack : K) (now : ℤ)
    (senderId platoonId senderBsmId : String) (params : StatusParams K) :
    (Heeds m downtrack senderId platoonId params ∧
      (m.memberUpdates downtrack now senderId platoonId senderBsmId params).platoon =
        (m.updatesOrAddMemberInfo senderId senderBsmId params now).platoon) ∨
    (¬ Heeds m downtrack senderId platoonId params ∧
      (m.memberUpdates downtrack now senderId platoonId senderBsmId params).platoon =
        m.platoon) := by
  unfold PlatoonManager.memberUpdates Heeds
  by_cases hf : m.isFollower = true <;> simp only [hf, if_true, Bool.false_eq_true, if_false]
  · by_cases hl : m.leaderID = senderId <;> by_cases hp : m.currentPlatoonID = platoonId <;>
      by_cases hd : downtrack ≤ params.dtDistance <;> simp [hl, hp, hd]
    all_goals
      apply updatesOrAddMemberInfo_congr
      rfl
  · by_cases hp : m.currentPlatoonID = platoonId <;> simp [hp]

omit [LinearOrder K] in
theorem unexpired_sublist (timeout : ℤ) (clock : ℕ → ℤ) (ms : List (PlatoonMember K)) :
    (PlatoonManager.unexpired timeout clock ms).Sublist ms := by
  induction ms generalizing clock with
  | nil => exact List.Sublist.slnil
  | cons pm pms ih =>
    unfold PlatoonManager.unexpired
    split
    · exact (ih _).cons pm
    · exact (ih _).cons_cons pm

omit [LinearOrder K] in
theorem removeExpiredMember_platoon (m : PlatoonManager K) (clock : ℕ → ℤ) :
    (m.removeExpiredMember clock).platoon =
      PlatoonManager.unexpired m.memberInfoTimeout clock m.platoon := by
  unfold PlatoonManager.removeExpiredMember
  simp only
  split
  · split <;> simp_all
  · rfl

omit [LinearOrder K] in
theorem sublist_distinct {ms ns : List (PlatoonMember K)} (hsub : ns.Sublist ms)
    (h : DistinctIds ms) : DistinctIds ns :=
  List.Nodup.sublist (hsub.map _) h

theorem sublist_frontToRear {ms ns : List (PlatoonMember K)} (hsub : ns.Sublist ms)
    (h : FrontToRear ms) : FrontToRear ns :=
  ⟨sublist_distinct hsub h.1, descending_sublist hsub h.2⟩

@[simp] theorem frontToRear_nil : FrontToRear ([] : List (PlatoonMember K)) :=
  ⟨List.nodup_nil, descending_nil _⟩

theorem call_distinct {m : PlatoonManager K} (h : DistinctIds m.platoon) (c : Call K) :
    DistinctIds (call m c).platoon := by
  cases c with
  | memberUpdates downtrack now senderId platoonId senderBsmId params =>
    unfold call
    rcases memberUpdates_platoon m downtrack now senderId platoonId senderBsmId params with
      ⟨-, heq⟩ | ⟨-, heq⟩
    · rw [heq]
      exact updatesOrAddMemberInfo_distinct h _ _ _ _
    · rw [heq]
      exact h
  | removeExpiredMember clock =>
    unfold call
    rw [removeExpiredMember_platoon]
    exact sublist_distinct (unexpired_sublist _ _ _) h
  | changeFromLeaderToFollower newPlatoonId => exact List.nodup_nil
  | changeFromFollowerToLeader uuid => exact List.nodup_nil

theorem call_frontToRear_iff {m : PlatoonManager K} (h : FrontToRear m.platoon) (c : Call K) :
    FrontToRear (call m c).platoon ↔ KeepsPlaces m c := by
  cases c with
  | memberUpdates downtrack now senderId platoonId senderBsmId params =>
    unfold call KeepsPlaces
    rcases memberUpdates_platoon m downtrack now senderId platoonId senderBsmId params with
      ⟨hheed, heq⟩ | ⟨hnot, heq⟩
    · rw [heq, updatesOrAddMemberInfo_frontToRear_iff h]
      exact ⟨fun hkeep _ => hkeep, fun hkeep => hkeep hheed⟩
    · rw [heq]
      exact iff_of_true h (fun hheed => absurd hheed hnot)
  | removeExpiredMember clock =>
    unfold call
    rw [removeExpiredMember_platoon]
    exact iff_of_true (sublist_frontToRear (unexpired_sublist _ _ _) h) trivial
  | changeFromLeaderToFollower newPlatoonId => exact iff_of_true frontToRear_nil trivial
  | changeFromFollowerToLeader uuid => exact iff_of_true frontToRear_nil trivial

/-! ## Runs -/

theorem ids_stay_distinct (hostMobilityId uuid : String) (memberInfoTimeout : ℤ)
    (calls : List (Call K)) :
    DistinctIds
      (run call (newPlatoonManager hostMobilityId uuid memberInfoTimeout) calls).platoon := by
  have hstep : ∀ (m : PlatoonManager K) (c : Call K),
      DistinctIds m.platoon → DistinctIds (call m c).platoon := fun _ c h => call_distinct h c
  have h0 : DistinctIds
      (newPlatoonManager hostMobilityId uuid memberInfoTimeout : PlatoonManager K).platoon :=
    List.nodup_nil
  apply run_keeps_always hstep h0

/-- Through a run the ids stay distinct and the list runs from front to rear just
when every STATUS that is heeded keeps its sender in its place. -/
theorem the_list_runs_from_front_to_rear_while_nobody_overtakes (hostMobilityId uuid : String)
    (memberInfoTimeout : ℤ) (calls : List (Call K)) :
    (∀ m ∈ states call (newPlatoonManager hostMobilityId uuid memberInfoTimeout) calls,
      FrontToRear m.platoon) ↔
    EachCall call KeepsPlaces (newPlatoonManager hostMobilityId uuid memberInfoTimeout) calls :=
  states_iff (fun _ _ (_ : True) (_ : True) => trivial)
    (fun _ c _ _ h => call_frontToRear_iff h c) trivial frontToRear_nil (fun _ _ => trivial)

/-- The second member reports that it has passed the first, and stays second in
the list. -/
theorem an_overtaking_member_stays_behind :
    ¬ ∀ calls : List (Call ℚ), FrontToRear
      (run call (newPlatoonManager "host" "platoon" 1250) calls).platoon := by
  intro h
  have hrun := (h [
    .memberUpdates 120 0 "first" "platoon" "a" ⟨10, 100, 10⟩,
    .memberUpdates 120 0 "second" "platoon" "b" ⟨10, 90, 10⟩,
    .memberUpdates 120 0 "second" "platoon" "b" ⟨10, 110, 10⟩]).2
  unfold Descending at hrun
  revert hrun
  decide

end carma.platoon_manager
