-- The law of the interval tree: it acts as the plain list of the intervals
-- that it took, as long as no interval is put around, or to the left of, a
-- zero-length one with nothing between them.
import Mathlib.Tactic.NormNum
import Mathlib.Algebra.Order.Ring.Rat
import Carma.Lib.Runs
import Carma.IntervalTreeSpecs

open lib

namespace carma.interval_tree

variable {K V : Type} [LinearOrder K]

open IntervalTreeNode

theorem clear_perm {s stored : List (Interval K V)} (h : s.Perm stored) (x : Interval K V) :
    Clear s x ↔ Clear stored x := by
  unfold Clear
  simp only [h.mem_iff]

theorem fits_perm {s stored : List (Interval K V)} (h : s.Perm stored) (x : Interval K V) :
    packing.Fits Overlap s x ↔ packing.Fits Overlap stored x := by
  unfold packing.Fits
  simp only [h.mem_iff]

/-! ## The list that the tree stands for -/

/-- The intervals of a list that overlap none of those accepted before them. -/
def accepted (xs : List (Interval K V)) : List (Interval K V) := packing.packed Overlap xs

theorem accepted_snoc (xs : List (Interval K V)) (x : Interval K V) :
    accepted (xs ++ [x]) = packing.pack Overlap (accepted xs) x := packing.packed_snoc _ _ _

theorem accepted_pairwise (xs : List (Interval K V)) :
    (accepted xs).Pairwise (fun x y => ¬ Overlap x y) :=
  packing.packed_pairwise Overlap (fun _ _ => overlap_symm) xs

/-- No accepted interval of positive length comes in around a zero-length one
that is there, or before it with nothing between them. -/
def HidesNothing (xs : List (Interval K V)) : Prop :=
  ∀ pre x post, xs = pre ++ x :: post → ¬ x.Empty → packing.Fits Overlap (accepted pre) x →
    Clear (accepted pre) x

theorem hidesNothing_snoc (xs : List (Interval K V)) (x : Interval K V) :
    HidesNothing (xs ++ [x]) ↔ HidesNothing xs ∧
      (¬ x.Empty → packing.Fits Overlap (accepted xs) x → Clear (accepted xs) x) := by
  constructor
  · intro h
    refine ⟨?_, fun hne hfit => h xs x [] rfl hne hfit⟩
    intro pre y post he
    exact h pre y (post ++ [x]) (by simp [he])
  · rintro ⟨h1, h2⟩ pre y post he
    rcases List.eq_nil_or_concat post with rfl | ⟨post', z, rfl⟩
    · obtain ⟨rfl, hlast⟩ := List.append_inj' he rfl
      obtain rfl := List.singleton_injective hlast
      exact h2
    · refine h1 pre y post' ?_
      rw [List.concat_eq_append, ← List.cons_append, ← List.append_assoc] at he
      exact (List.append_inj' he rfl).1

variable [Field K]

/-- The tree after a list of inserts. -/
def inserted (xs : List (Interval K V)) : IntervalTree K V :=
  runs.run (fun t x => (t.insert x).2) buildIntervalTree xs

theorem inserted_snoc (xs : List (Interval K V)) (x : Interval K V) :
    inserted (xs ++ [x]) = ((inserted xs).insert x).2 := runs.run_snoc _ _ _ _

/-- The tree acts as the list of accepted intervals: in the answer of every
insert, in what `toSortedList` lists and in which order, and in both searches. -/
structure ActsAsList (xs : List (Interval K V)) : Prop where
  answers : ∀ pre x post, xs = pre ++ x :: post →
    (((inserted pre).insert x).1 = true ↔ packing.Fits Overlap (accepted pre) x)
  listed : ∃ s : List (Interval K V), s.Perm (accepted xs) ∧ s.Pairwise (fun x y => x.start ≤ y.start) ∧
    (inserted xs).toSortedList = s.filterMap (·.data)
  points : ∀ p x, x ∈ (inserted xs).findIntersectionsWithPt p ↔ x ∈ accepted xs ∧ p ∈ x.points
  searches : ∀ q x, x ∈ (inserted xs).findIntersectionsWith q ↔ x ∈ accepted xs ∧ Overlap q x

/-! ## The tree after a list of inserts -/

variable [IsStrictOrderedRing K]

theorem inserted_oneEach {xs : List (Interval K V)} (hd : ∀ x ∈ xs, x.data.isSome) :
    OneEach (inserted xs).root := by
  induction xs using List.reverseRecOn with
  | nil => trivial
  | append_singleton xs x ih =>
    rw [inserted_snoc, tree_insert_eq _ x (hd x (by simp))]
    exact insert_oneEach _ x (ih (fun y hy => hd y (by simp [hy])))

theorem inserted_good {xs : List (Interval K V)} (hd : ∀ x ∈ xs, x.data.isSome)
    (h : HidesNothing xs) :
    Good (inserted xs).root ∧ (inserted xs).intervals.Perm (accepted xs) := by
  induction xs using List.reverseRecOn with
  | nil => exact ⟨trivial, List.Perm.refl _⟩
  | append_singleton xs x ih =>
    obtain ⟨hrest, hlast⟩ := (hidesNothing_snoc xs x).mp h
    have hd' : ∀ y ∈ xs, y.data.isSome := fun y hy => hd y (by simp [hy])
    obtain ⟨hgood, hperm⟩ := ih hd' hrest
    have hone := inserted_oneEach hd'
    have hiff : ((inserted xs).root.insert x).1 = true ↔ packing.Fits Overlap (accepted xs) x :=
      (insert_iff x hone hgood).trans (fits_perm hperm x)
    rw [inserted_snoc, tree_insert_eq _ x (hd x (by simp)), accepted_snoc]
    unfold IntervalTree.intervals packing.pack
    by_cases hfit : packing.Fits Overlap (accepted xs) x
    · rw [if_pos hfit]
      refine ⟨?_, (insert_taken _ x (hiff.mpr hfit)).trans ?_⟩
      · by_cases hne : x.Empty
        · exact insert_good_empty _ x hone hgood hne
        · exact insert_good_clear _ x hone hgood hne ((clear_perm hperm x).mpr (hlast hne hfit))
      · exact (hperm.cons x).trans (List.perm_append_singleton x _).symm
    · have hno : ((inserted xs).root.insert x).1 = false := by
        rw [← Bool.not_eq_true, hiff]
        exact hfit
      rw [if_neg hfit, insert_refused _ x hno]
      exact ⟨hgood, hperm⟩

theorem inserted_spoiled {xs : List (Interval K V)} (hd : ∀ x ∈ xs, x.data.isSome)
    (h : ¬ HidesNothing xs) : Spoiled (inserted xs).root := by
  induction xs using List.reverseRecOn with
  | nil => exact absurd (fun pre x post he => by simp at he) h
  | append_singleton xs x ih =>
    have hd' : ∀ y ∈ xs, y.data.isSome := fun y hy => hd y (by simp [hy])
    rw [inserted_snoc, tree_insert_eq _ x (hd x (by simp))]
    rw [hidesNothing_snoc, not_and_or] at h
    by_cases hrest : HidesNothing xs
    · obtain ⟨hgood, hperm⟩ := inserted_good hd' hrest
      have hlast := h.resolve_left (fun hc => hc hrest)
      push Not at hlast
      obtain ⟨hne, hfit, hclear⟩ := hlast
      have hone := inserted_oneEach hd'
      have htake := (insert_iff x hone hgood).mpr ((fits_perm hperm x).mpr hfit)
      exact insert_spoils _ x hone hgood hne htake (fun hc => hclear ((clear_perm hperm x).mp hc))
    · exact insert_spoiled _ x (ih hd' hrest)

/-- Right answers alone make the tree hold the accepted intervals. -/
theorem inserted_perm {xs : List (Interval K V)} (hd : ∀ x ∈ xs, x.data.isSome)
    (h : ∀ pre x post, xs = pre ++ x :: post →
      (((inserted pre).insert x).1 = true ↔ packing.Fits Overlap (accepted pre) x)) :
    (inserted xs).intervals.Perm (accepted xs) := by
  induction xs using List.reverseRecOn with
  | nil => exact List.Perm.refl _
  | append_singleton xs x ih =>
    have hperm := ih (fun y hy => hd y (by simp [hy]))
      (fun pre y post he => h pre y (post ++ [x]) (by simp [he]))
    have hiff := h xs x [] rfl
    rw [inserted_snoc, accepted_snoc]
    rw [tree_insert_eq _ x (hd x (by simp))] at hiff ⊢
    unfold IntervalTree.intervals packing.pack
    by_cases hfit : packing.Fits Overlap (accepted xs) x
    · rw [if_pos hfit]
      exact ((insert_taken _ x (hiff.mpr hfit)).trans (hperm.cons x)).trans
        (List.perm_append_singleton x _).symm
    · have hno : ((inserted xs).root.insert x).1 = false := by
        rw [← Bool.not_eq_true]
        exact fun hc => hfit (hiff.mp hc)
      rw [if_neg hfit, insert_refused _ x hno]
      exact hperm

theorem spoiled_misses {t : IntervalTreeNode K V} (hone : OneEach t) (hsp : Spoiled t)
    (hno : t.inorder.Pairwise (fun x y => ¬ Overlap x y)) :
    ∃ q, ∃ x ∈ t.inorder, Overlap q x ∧ x ∉ t.findIntersectionsWith q := by
  induction t with
  | null => cases hsp
  | node c l r f rest ihl ihr =>
    obtain ⟨rfl, hl1, hr1⟩ := hone
    simp only [IntervalTreeNode.inorder, List.append_assoc, List.cons_append, List.nil_append,
      List.pairwise_append, List.pairwise_cons, List.mem_cons] at hno
    obtain ⟨hnol, ⟨hnof, hnor⟩, hnolr⟩ := hno
    rcases hsp with ⟨hf, ⟨x, hx, hne, hle⟩ | ⟨x, hx, hne, hlt⟩⟩ | hsp | hsp
    · -- a search that starts with `x` and ends past the zero-length interval goes right
      have hxf : x.start ≤ f.start := x.start_le_end.trans hle
      have hfs : f.start < f.start + 1 := lt_add_one f.start
      let q : Interval K V := ⟨none, x.start, f.start + 1, (hxf.trans_lt hfs).le⟩
      have hqx : Overlap q x := by
        rw [overlap_iff, max_lt_iff, lt_min_iff]
        exact ⟨⟨hxf.trans_lt hfs, Interval.lt_of_not_empty hne⟩, hxf.trans_lt hfs,
          Interval.lt_of_not_empty hne⟩
      have hcmp : compareIntervals q f = .gt :=
        (compareIntervals_gt q f).mpr ⟨fun ho => not_empty_of_overlap ho hf, hfs⟩
      refine ⟨q, x, mem_inorder_left hx, hqx, ?_⟩
      rw [find_node, hcmp]
      intro hmem
      rcases sorted_set.mem_of_mem_addAll _ hmem with h | h
      · cases h
      · exact hnolr x hx x (Or.inr (find_sound hr1 h).1) (overlap_self hne)
    · -- a search that starts with `x` and ends at the zero-length interval goes left
      let q : Interval K V := ⟨none, x.start, f.start, hlt.le⟩
      have hqx : Overlap q x := by
        rw [overlap_iff, max_lt_iff, lt_min_iff]
        exact ⟨⟨hlt, Interval.lt_of_not_empty hne⟩, hlt, Interval.lt_of_not_empty hne⟩
      have hcmp : compareIntervals q f = .lt :=
        (compareIntervals_lt q f).mpr ⟨fun ho => not_empty_of_overlap ho hf, le_rfl⟩
      refine ⟨q, x, mem_inorder_right hx, hqx, ?_⟩
      rw [find_node, hcmp]
      intro hmem
      rcases sorted_set.mem_of_mem_addAll _ hmem with h | h
      · cases h
      · exact hnolr x (find_sound hl1 h).1 x (Or.inr hx) (overlap_self hne)
    · obtain ⟨q, x, hx, hqx, hmiss⟩ := ihl hl1 hsp hnol
      refine ⟨q, x, mem_inorder_left hx, hqx, ?_⟩
      intro hmem
      have hxx := overlap_self (not_empty_of_overlap hqx)
      rcases find_parts hmem with h | ⟨rfl, _⟩ | h
      · exact hmiss h
      · exact hnolr x hx x (Or.inl rfl) hxx
      · exact hnolr x hx x (Or.inr (find_sound hr1 h).1) hxx
    · obtain ⟨q, x, hx, hqx, hmiss⟩ := ihr hr1 hsp hnor
      refine ⟨q, x, mem_inorder_right hx, hqx, ?_⟩
      intro hmem
      have hxx := overlap_self (not_empty_of_overlap hqx)
      rcases find_parts hmem with h | ⟨rfl, _⟩ | h
      · exact hnolr x (find_sound hl1 h).1 x (Or.inr hx) hxx
      · exact hnof x hx hxx
      · exact hmiss h

/-! ## The law -/

theorem actsAsList_of_hidesNothing {xs : List (Interval K V)} (hd : ∀ x ∈ xs, x.data.isSome)
    (h : HidesNothing xs) : ActsAsList xs := by
  have hone := inserted_oneEach hd
  obtain ⟨hgood, hperm⟩ := inserted_good hd h
  have hap : Apart (inserted xs).root.inorder :=
    apart_mono (apart_of_pairwise (accepted_pairwise xs)) (fun x hx => hperm.mem_iff.mp hx)
  refine ⟨?_, ⟨_, hperm, good_sorted hone hgood, rfl⟩, ?_, ?_⟩
  · intro pre x post he
    have hdp : ∀ y ∈ pre, y.data.isSome := fun y hy => hd y (by simp [he, hy])
    have hpre : HidesNothing pre :=
      fun p y q hpq => h p y (q ++ x :: post) (by simp [he, hpq])
    obtain ⟨hgp, hpp⟩ := inserted_good hdp hpre
    rw [tree_insert_eq _ x (hd x (by simp [he])), insert_iff x (inserted_oneEach hdp) hgp]
    exact fits_perm hpp x
  · intro p x
    rw [← hperm.mem_iff]
    exact ⟨findPt_sound hone, fun hx => findPt_complete hone hgood hap hx.1 hx.2⟩
  · intro q x
    rw [← hperm.mem_iff]
    exact ⟨find_sound hone, fun hx => find_complete hone hgood hap hx.1 hx.2⟩

/-- The tree acts as the list of the intervals that it took just when no insert
hides an interval behind a zero-length one. -/
theorem the_tree_acts_as_a_list_when_nothing_is_hidden (xs : List (Interval K V))
    (hd : ∀ x ∈ xs, x.data.isSome) : ActsAsList xs ↔ HidesNothing xs := by
  refine ⟨?_, actsAsList_of_hidesNothing hd⟩
  intro h
  by_contra hc
  have hperm := inserted_perm hd h.answers
  have hno : (inserted xs).root.inorder.Pairwise (fun x y => ¬ Overlap x y) :=
    (hperm.pairwise_iff (fun ho hc => ho (overlap_symm hc))).mpr (accepted_pairwise xs)
  obtain ⟨q, x, hx, hqx, hmiss⟩ :=
    spoiled_misses (inserted_oneEach hd) (inserted_spoiled hd hc) hno
  exact hmiss ((h.searches q x).mpr ⟨hperm.mem_iff.mp hx, hqx⟩)

/-- A zero-length interval between two others that touch it. -/
def touching : List (Interval ℚ ℕ) :=
  [⟨some 1, 0, 5, by norm_num⟩, ⟨some 2, 5, 5, by norm_num⟩, ⟨some 3, 5, 9, by norm_num⟩]

theorem touching_acts_as_a_list_when_nothing_is_hidden :
    ActsAsList touching ↔ HidesNothing touching :=
  the_tree_acts_as_a_list_when_nothing_is_hidden touching (by decide)

/-- A steady speed of length zero at 5, and then a maneuver on `[0, 10)`. -/
def aroundZeroLength : List (Interval ℚ ℕ) :=
  [⟨some 1, 5, 5, le_rfl⟩, ⟨some 2, 0, 10, by norm_num⟩]

/-- A search on `[0, 3)` goes left of the first and misses the second. -/
theorem an_interval_around_a_zero_length_one_is_missed : ¬ ActsAsList aroundZeroLength :=
  fun h => absurd ((h.searches ⟨none, 0, 3, by norm_num⟩ ⟨some 2, 0, 10, by norm_num⟩).mpr
    (by decide)) (by decide)

end carma.interval_tree
