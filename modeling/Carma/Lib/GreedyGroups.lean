-- Items sorted into groups one after the other. The items come in batches. Each looks
-- for the group nearest to it among those that are there when its batch begins, and
-- joins it if it is near to what has become of that group when its turn comes; else it
-- starts a group of its own. The order within a batch is free: here is when it does
-- not matter.
import Mathlib.Algebra.BigOperators.Group.Multiset.Basic
import Mathlib.Data.List.Basic
import Mathlib.Data.Multiset.Filter
import Mathlib.Data.Prod.Lex
import Mathlib.Tactic.Common

namespace lib.greedy_groups

variable {α κ : Type*}

/-- A group, and the batch in which it was started. -/
structure Cluster (α : Type*) where
  birth : ℕ
  members : Multiset α

/-- The turn of one item in batch `n`. The index is that of its nearest group. -/
def place (near : α → Multiset α → Bool) (n : ℕ) (groups : List (Cluster α))
    (item : α × Option ℕ) : List (Cluster α) :=
  let alone := groups ++ [⟨n, {item.1}⟩]
  match item.2 with
  | none => alone
  | some j =>
    match groups[j]? with
    | none => alone
    | some g =>
      if near item.1 g.members then groups.set j ⟨g.birth, item.1 ::ₘ g.members⟩ else alone

/-- The members of all groups. -/
def everyone (groups : List (Cluster α)) : Multiset α := (groups.map (·.members)).sum

theorem everyone_set {groups : List (Cluster α)} {j : ℕ} {g : Cluster α} (h : groups[j]? = some g)
    (o : α) : everyone (groups.set j ⟨g.birth, o ::ₘ g.members⟩) = everyone groups + {o} := by
  induction groups generalizing j with
  | nil => simp at h
  | cons first groups ih =>
    cases j with
    | zero =>
      have hfirst : first = g := by simpa using h
      simp only [everyone, hfirst, List.set_cons_zero, List.map_cons, List.sum_cons,
        Multiset.cons_add]
      rw [← Multiset.singleton_add, add_comm]
    | succ j =>
      have hrest := ih (j := j) (by simpa using h)
      unfold everyone at hrest ⊢
      rw [List.set_cons_succ, List.map_cons, List.map_cons, List.sum_cons, List.sum_cons, hrest,
        add_assoc]

theorem everyone_place (near : α → Multiset α → Bool) (n : ℕ) (groups : List (Cluster α))
    (item : α × Option ℕ) : everyone (place near n groups item) = everyone groups + {item.1} := by
  have halone : everyone (groups ++ [⟨n, {item.1}⟩]) = everyone groups + {item.1} := by
    simp [everyone]
  unfold place
  dsimp only
  split
  · exact halone
  · split
    · exact halone
    · rename_i g hg
      split
      · exact everyone_set hg item.1
      · exact halone

theorem everyone_batch (near : α → Multiset α → Bool) (n : ℕ) (items : List (α × Option ℕ))
    (groups : List (Cluster α)) :
    everyone (items.foldl (place near n) groups) = everyone groups + ↑(items.map Prod.fst) := by
  induction items generalizing groups with
  | nil => simp
  | cons item items ih =>
    rw [List.foldl_cons, ih, everyone_place, add_assoc]
    rfl

variable [LinearOrder κ] (dist : α → Multiset α → κ) (near : α → Multiset α → Bool)

/-- The index is that of the first of the nearest groups. -/
def FirstNearest (groups : List (Cluster α)) (o : α) : Option ℕ → Prop
  | none => groups = []
  | some j => ∃ g, groups[j]? = some g ∧ ∀ i g', groups[i]? = some g' →
      dist o g.members ≤ dist o g'.members ∧ (i < j → dist o g.members < dist o g'.members)

/-- The groups after all batches, each with its items in some order. -/
inductive Sorting : ℕ → List (Cluster α) → List (Multiset α) → List (Cluster α) → Prop
  | done (n : ℕ) (groups : List (Cluster α)) : Sorting n groups [] groups
  | batch {n : ℕ} {groups result : List (Cluster α)} {items : List (α × Option ℕ)}
      {batch : Multiset α} {rest : List (Multiset α)} (hitems : ↑(items.map Prod.fst) = batch)
      (hnearest : ∀ item ∈ items, FirstNearest dist groups item.1 item.2)
      (hrest : Sorting (n + 1) (items.foldl (place near n) groups) rest result) :
      Sorting n groups (batch :: rest) result

theorem Sorting.everyone_eq {n : ℕ} {groups result : List (Cluster α)} {batches : List (Multiset α)}
    (h : Sorting dist near n groups batches result) :
    everyone result = everyone groups + batches.sum := by
  induction h with
  | done n groups => simp
  | batch hitems hnearest hrest ih => rw [ih, everyone_batch, hitems, List.sum_cons, add_assoc]

/-! ## Steady batches -/

/-- How near a group is to an item: of two at one distance, the older one counts. -/
def rank (o : α) (g : Cluster α) : κ ×ₗ ℕ := toLex (dist o g.members, g.birth)

/-- The items that join a group. -/
noncomputable def joiners (joins : α → Option (Cluster α)) (batch : Multiset α) (g : Cluster α) :
    Multiset α :=
  open Classical in batch.filter (fun o => joins o = some g)

/-- The items that join no group. -/
noncomputable def loners (joins : α → Option (Cluster α)) (batch : Multiset α) : Multiset α :=
  open Classical in batch.filter (fun o => joins o = none)

/-- The verdict on each item of a batch is the same whatever comes before it: an item that
joins a group has no other group as near, and is near to it with any of the other joiners in;
an item that joins none is not near to any of its nearest groups, with any of their joiners in. -/
structure Steady (groups : Multiset (Cluster α)) (batch : Multiset α)
    (joins : α → Option (Cluster α)) : Prop where
  joined : ∀ o ∈ batch, ∀ g, joins o = some g →
    (∃ others, groups = g ::ₘ others ∧ ∀ g' ∈ others, rank dist o g < rank dist o g') ∧
    ∀ early, o ::ₘ early ≤ joiners joins batch g → near o (g.members + early) = true
  alone : ∀ o ∈ batch, joins o = none → ∀ g ∈ groups, (∀ g' ∈ groups, rank dist o g ≤ rank dist o g') →
    ∀ early ≤ joiners joins batch g, near o (g.members + early) = false

/-- A group with the items of `done` that join it. -/
noncomputable def grown (joins : α → Option (Cluster α)) (done : List α) (g : Cluster α) : Cluster α :=
  ⟨g.birth, g.members + joiners joins done g⟩

/-- The groups when the items of `done` have had their turn. -/
noncomputable def groupsAfter (joins : α → Option (Cluster α)) (n : ℕ) (groups : List (Cluster α))
    (done : List α) : List (Cluster α) :=
  open Classical in
  groups.map (grown joins done) ++
    (done.filter (fun o => joins o = none)).map (fun o => ⟨n, {o}⟩)

section

omit [LinearOrder κ]

variable {joins : α → Option (Cluster α)}

theorem coe_snoc (done : List α) (o : α) : (↑(done ++ [o]) : Multiset α) = o ::ₘ ↑done :=
  Multiset.coe_eq_coe.mpr (List.perm_append_singleton o done)

theorem joiners_snoc_of_eq {done : List α} {o : α} {g : Cluster α} (h : joins o = some g) :
    joiners joins ↑(done ++ [o]) g = o ::ₘ joiners joins done g := by
  unfold joiners
  rw [coe_snoc]
  classical exact Multiset.filter_cons_of_pos _ h

theorem joiners_snoc_of_ne {done : List α} {o : α} {g : Cluster α} (h : joins o ≠ some g) :
    joiners joins ↑(done ++ [o]) g = joiners joins done g := by
  unfold joiners
  rw [coe_snoc]
  classical exact Multiset.filter_cons_of_neg _ h

theorem joiners_mono {early batch : Multiset α} (h : early ≤ batch) (g : Cluster α) :
    joiners joins early g ≤ joiners joins batch g := by
  unfold joiners
  classical exact Multiset.filter_le_filter _ h

/-- An item joins the group at `k`, which is found at no other place. -/
theorem groupsAfter_snoc_of_joined {n : ℕ} {groups : List (Cluster α)} {done : List α} {o : α}
    {k : ℕ} {g : Cluster α} (hk : groups[k]? = some g) (hjoins : joins o = some g)
    (honly : ∀ i, groups[i]? = some g → i = k) :
    groupsAfter joins n groups (done ++ [o]) =
      (groupsAfter joins n groups done).set k
        ⟨g.birth, o ::ₘ (g.members + joiners joins done g)⟩ := by
  have hlt := (List.getElem?_eq_some_iff.mp hk).1
  unfold groupsAfter
  rw [List.filter_append, List.set_append_left _ _ (by simpa using hlt)]
  congr 1
  · apply List.ext_getElem?
    intro i
    rw [List.getElem?_set, List.getElem?_map, List.length_map]
    by_cases hi : k = i
    · subst hi
      simp only [hk, hlt, if_true, Option.map_some, grown]
      rw [joiners_snoc_of_eq hjoins, Multiset.add_cons]
    · rw [if_neg hi, List.getElem?_map]
      cases hg' : groups[i]? with
      | none => rfl
      | some g' =>
        have hother : joins o ≠ some g' := by
          rintro hsame
          rw [hjoins, Option.some.injEq] at hsame
          rw [← hsame] at hg'
          exact hi (honly i hg').symm
        simp only [Option.map_some, grown]
        rw [joiners_snoc_of_ne hother]
  · simp [hjoins]

theorem groupsAfter_snoc_of_alone {n : ℕ} {groups : List (Cluster α)} {done : List α} {o : α}
    (hjoins : joins o = none) :
    groupsAfter joins n groups (done ++ [o]) =
      groupsAfter joins n groups done ++ [⟨n, {o}⟩] := by
  have hgrown : grown joins (done ++ [o]) = grown joins done := by
    funext g
    unfold grown
    rw [joiners_snoc_of_ne (by rw [hjoins]; simp)]
  unfold groupsAfter
  rw [hgrown, List.filter_append, List.map_append, ← List.append_assoc]
  simp [hjoins]

theorem getElem?_groupsAfter {n : ℕ} {groups : List (Cluster α)} {done : List α} {k : ℕ}
    {g : Cluster α} (hk : groups[k]? = some g) :
    (groupsAfter joins n groups done)[k]? = some (grown joins done g) := by
  have hlt := (List.getElem?_eq_some_iff.mp hk).1
  unfold groupsAfter
  rw [List.getElem?_append_left (by simpa using hlt), List.getElem?_map, hk]
  rfl

end

theorem FirstNearest.rank_le {groups : List (Cluster α)} {o : α} {k : ℕ} {g : Cluster α}
    (h : FirstNearest dist groups o (some k)) (hk : groups[k]? = some g)
    (hages : groups.Pairwise (fun a b => a.birth ≤ b.birth)) :
    ∀ g' ∈ groups, rank dist o g ≤ rank dist o g' := by
  intro g' hg'
  obtain ⟨best, hbest, hnearest⟩ := h
  rw [hk, Option.some.injEq] at hbest
  subst hbest
  obtain ⟨i, hi⟩ := List.mem_iff_getElem?.mp hg'
  obtain ⟨hle, hfirst⟩ := hnearest i g' hi
  unfold rank
  rw [Prod.Lex.toLex_le_toLex]
  rcases lt_or_eq_of_le hle with hlt | heq
  · exact Or.inl hlt
  · refine Or.inr ⟨heq, ?_⟩
    rcases Nat.lt_trichotomy i k with hik | rfl | hki
    · exact absurd heq (hfirst hik).ne
    · rw [hk, Option.some.injEq] at hi
      rw [hi]
    · obtain ⟨hklt, hkeq⟩ := List.getElem?_eq_some_iff.mp hk
      obtain ⟨hilt, hieq⟩ := List.getElem?_eq_some_iff.mp hi
      rw [← hkeq, ← hieq]
      exact List.pairwise_iff_getElem.mp hages k i hklt hilt hki

theorem nearest_eq_of_lt {groups : List (Cluster α)} {others : Multiset (Cluster α)} {o : α}
    {g best : Cluster α} (hgroups : (↑groups : Multiset (Cluster α)) = g ::ₘ others)
    (hfar : ∀ g' ∈ others, rank dist o g < rank dist o g') (hbest : best ∈ groups)
    (hle : ∀ g' ∈ groups, rank dist o best ≤ rank dist o g') : best = g := by
  have hg : g ∈ groups := by
    rw [← Multiset.mem_coe, hgroups]
    exact Multiset.mem_cons_self g others
  rw [← Multiset.mem_coe, hgroups] at hbest
  rcases Multiset.mem_cons.mp hbest with hsame | hother
  · exact hsame
  · exact absurd (hle g hg) (not_le_of_gt (hfar best hother))

theorem index_eq_of_lt {groups : List (Cluster α)} {others : Multiset (Cluster α)} {o : α}
    {g : Cluster α} (hgroups : (↑groups : Multiset (Cluster α)) = g ::ₘ others)
    (hfar : ∀ g' ∈ others, rank dist o g < rank dist o g') {i k : ℕ} (hk : groups[k]? = some g)
    (hi : groups[i]? = some g) : i = k := by
  by_contra hne
  obtain ⟨hklt, hkeq⟩ := List.getElem?_eq_some_iff.mp hk
  have hsplit : (↑groups : Multiset (Cluster α)) = g ::ₘ ↑(groups.eraseIdx k) := by
    rw [← hkeq]
    exact Multiset.coe_eq_coe.mpr (List.getElem_cons_eraseIdx_perm hklt).symm
  have hothers : others = ↑(groups.eraseIdx k) :=
    (Multiset.cons_inj_right g).mp (hgroups.symm.trans hsplit)
  have htwice : g ∈ others := by
    rw [hothers, Multiset.mem_coe, List.mem_eraseIdx_iff_getElem?]
    exact ⟨i, hne, hi⟩
  exact lt_irrefl _ (hfar g htwice)

section turns

variable {dist near} {joins : α → Option (Cluster α)} {n : ℕ} {groups : List (Cluster α)}
  {batch : Multiset α}

/-- The turn of an item that joins a group. -/
theorem place_joined (hsteady : Steady dist near ↑groups batch joins)
    (hages : groups.Pairwise (fun a b => a.birth ≤ b.birth)) {done : List α} {o : α}
    (hdone : ↑(done ++ [o]) ≤ batch) {nearest : Option ℕ}
    (hnearest : FirstNearest dist groups o nearest) {g : Cluster α} (hjoins : joins o = some g) :
    place near n (groupsAfter joins n groups done) (o, nearest) =
      groupsAfter joins n groups (done ++ [o]) := by
  have hmem : o ∈ batch := Multiset.mem_of_le hdone (by simp)
  obtain ⟨⟨others, hgroups, hfar⟩, hnear⟩ := hsteady.joined o hmem g hjoins
  cases nearest with
  | none =>
    rw [show groups = [] from hnearest] at hgroups
    exact absurd hgroups.symm (Multiset.cons_ne_zero)
  | some k =>
    have hfound := hnearest
    obtain ⟨best, hbest, -⟩ := hfound
    have hsame := nearest_eq_of_lt dist hgroups hfar (List.mem_of_getElem? hbest)
      (hnearest.rank_le dist hbest hages)
    subst hsame
    have hearly : o ::ₘ joiners joins ↑done best ≤ joiners joins batch best := by
      rw [← joiners_snoc_of_eq hjoins]
      exact joiners_mono hdone best
    have hjoined : near o (grown joins done best).members = true := hnear _ hearly
    unfold place
    dsimp only
    rw [getElem?_groupsAfter hbest]
    dsimp only
    rw [hjoined, if_pos rfl, groupsAfter_snoc_of_joined hbest hjoins
      (fun i hi => index_eq_of_lt dist hgroups hfar hbest hi)]
    rfl

/-- The turn of an item that stays alone. -/
theorem place_alone (hsteady : Steady dist near ↑groups batch joins)
    (hages : groups.Pairwise (fun a b => a.birth ≤ b.birth)) {done : List α} {o : α}
    (hdone : ↑(done ++ [o]) ≤ batch) {nearest : Option ℕ}
    (hnearest : FirstNearest dist groups o nearest) (hjoins : joins o = none) :
    place near n (groupsAfter joins n groups done) (o, nearest) =
      groupsAfter joins n groups (done ++ [o]) := by
  have hmem : o ∈ batch := Multiset.mem_of_le hdone (by simp)
  rw [groupsAfter_snoc_of_alone hjoins]
  unfold place
  cases nearest with
  | none => rfl
  | some k =>
    have hfound := hnearest
    obtain ⟨best, hbest, -⟩ := hfound
    have hearly : (↑done : Multiset α) ≤ batch := by
      rw [coe_snoc] at hdone
      exact (Multiset.le_cons_self _ o).trans hdone
    have hfar : near o (grown joins done best).members = false :=
      hsteady.alone o hmem hjoins best (List.mem_of_getElem? hbest)
        (hnearest.rank_le dist hbest hages) _ (joiners_mono hearly best)
    dsimp only
    rw [getElem?_groupsAfter hbest]
    dsimp only
    rw [hfar, if_neg (by simp)]

/-- In a steady batch the turn of one more item adds it to the groups as the verdict says. -/
theorem place_groupsAfter (hsteady : Steady dist near ↑groups batch joins)
    (hages : groups.Pairwise (fun a b => a.birth ≤ b.birth)) {done : List α} {o : α}
    (hdone : ↑(done ++ [o]) ≤ batch) {nearest : Option ℕ}
    (hnearest : FirstNearest dist groups o nearest) :
    place near n (groupsAfter joins n groups done) (o, nearest) =
      groupsAfter joins n groups (done ++ [o]) := by
  cases hjoins : joins o with
  | none => exact place_alone hsteady hages hdone hnearest hjoins
  | some g => exact place_joined hsteady hages hdone hnearest hjoins

end turns

/-! ## Steady runs -/

/-- The groups after a steady batch, without an order. -/
noncomputable def outcome (joins : α → Option (Cluster α)) (n : ℕ) (groups : Multiset (Cluster α))
    (batch : Multiset α) : Multiset (Cluster α) :=
  groups.map (fun g => ⟨g.birth, g.members + joiners joins batch g⟩) +
    (loners joins batch).map (fun o => ⟨n, {o}⟩)

omit [LinearOrder κ] in
theorem coe_groupsAfter (joins : α → Option (Cluster α)) (n : ℕ) (groups : List (Cluster α))
    (done : List α) :
    (↑(groupsAfter joins n groups done) : Multiset (Cluster α)) = outcome joins n ↑groups ↑done := by
  unfold groupsAfter outcome loners
  rw [← Multiset.coe_add, ← Multiset.map_coe, ← Multiset.map_coe]
  rfl

/-- A steady batch gives the same groups in any order of its items. -/
theorem batch_of_steady {joins : α → Option (Cluster α)} (n : ℕ) {groups : List (Cluster α)}
    {items : List (α × Option ℕ)}
    (hsteady : Steady dist near ↑groups ↑(items.map Prod.fst) joins)
    (hages : groups.Pairwise (fun a b => a.birth ≤ b.birth))
    (hnearest : ∀ item ∈ items, FirstNearest dist groups item.1 item.2) :
    items.foldl (place near n) groups = groupsAfter joins n groups (items.map Prod.fst) := by
  have hturns : ∀ done rest, items = done ++ rest →
      rest.foldl (place near n) (groupsAfter joins n groups (done.map Prod.fst)) =
        groupsAfter joins n groups (items.map Prod.fst) := by
    intro done rest
    induction rest generalizing done with
    | nil =>
      rintro hitems
      simp [hitems]
    | cons item rest ih =>
      intro hitems
      have hsplit : items = (done ++ [item]) ++ rest := by simp [hitems]
      have hle : (↑(done.map Prod.fst ++ [item.1]) : Multiset α) ≤ ↑(items.map Prod.fst) := by
        rw [hsplit, List.map_append, List.map_append]
        exact (List.sublist_append_left _ _).subperm
      have hturn := place_groupsAfter (n := n) hsteady hages hle
        (hnearest item (by simp [hitems]))
      rw [List.foldl_cons, hturn]
      have hrest := ih (done ++ [item]) hsplit
      rw [List.map_append] at hrest
      exact hrest
  have hstart : groupsAfter joins n groups [] = groups := by
    have hgrown : ∀ g : Cluster α, grown joins [] g = g := by
      intro g
      simp [grown, joiners]
    simp [groupsAfter, List.map_id'' hgrown]
  simpa [hstart] using hturns [] items rfl

/-- Every batch of a run is steady. -/
def SteadyRun : ℕ → Multiset (Cluster α) → List (Multiset α) → Prop
  | _, _, [] => True
  | n, groups, batch :: rest =>
    ∃ joins, Steady dist near groups batch joins ∧
      SteadyRun (n + 1) (outcome joins n groups batch) rest

/-- The groups stand by their age, and none was started in batch `n` or later. -/
def Aged (n : ℕ) (groups : List (Cluster α)) : Prop :=
  groups.Pairwise (fun a b => a.birth ≤ b.birth) ∧ ∀ g ∈ groups, g.birth < n

omit [LinearOrder κ] in
theorem Aged.groupsAfter {n : ℕ} {groups : List (Cluster α)} (h : Aged n groups)
    (joins : α → Option (Cluster α)) (done : List α) :
    Aged (n + 1) (groupsAfter joins n groups done) := by
  obtain ⟨hages, hborn⟩ := h
  unfold Aged lib.greedy_groups.groupsAfter
  constructor
  · rw [List.pairwise_append, List.pairwise_map, List.pairwise_map]
    refine ⟨hages, ?_, ?_⟩
    · exact List.pairwise_of_forall (fun _ _ => Nat.le_refl n)
    · intro a ha b hb
      obtain ⟨g, hg, rfl⟩ := List.mem_map.mp ha
      obtain ⟨o, -, rfl⟩ := List.mem_map.mp hb
      exact Nat.le_of_lt (hborn g hg)
  · intro a ha
    rcases List.mem_append.mp ha with ha | ha
    · obtain ⟨g, hg, rfl⟩ := List.mem_map.mp ha
      exact Nat.lt_succ_of_lt (hborn g hg)
    · obtain ⟨o, -, rfl⟩ := List.mem_map.mp ha
      exact Nat.lt_succ_self n

/-- Two steady runs over the same batches end with the same groups, whatever the order of
the items in each batch. -/
theorem sorting_of_steadyRun {n : ℕ} {groups groups' result result' : List (Cluster α)}
    {batches : List (Multiset α)} (hsteady : SteadyRun dist near n ↑groups batches)
    (hsame : (↑groups : Multiset (Cluster α)) = ↑groups') (haged : Aged n groups)
    (haged' : Aged n groups') (h : Sorting dist near n groups batches result)
    (h' : Sorting dist near n groups' batches result') :
    (↑result : Multiset (Cluster α)) = ↑result' := by
  induction h generalizing groups' with
  | done n groups =>
    cases h'
    exact hsame
  | @batch m groups result items batch rest hitems hnearest hrest ih =>
    cases h' with
    | batch hitems' hnearest' hrest' =>
      obtain ⟨joins, hsteady, hnext⟩ := hsteady
      have hbatch := hsteady
      have hbatch' := hsteady
      rw [← hitems] at hbatch
      rw [hsame, ← hitems'] at hbatch'
      have hrun := batch_of_steady dist near m hbatch haged.1 hnearest
      have hrun' := batch_of_steady dist near m hbatch' haged'.1 hnearest'
      refine ih ?_ ?_ ?_ ?_ hrest'
      · rw [hrun, coe_groupsAfter, hitems]
        exact hnext
      · rw [hrun, hrun', coe_groupsAfter, coe_groupsAfter, hitems, hitems', hsame]
      · rw [hrun]
        exact haged.groupsAfter joins _
      · rw [hrun']
        exact haged'.groupsAfter joins _

end lib.greedy_groups
