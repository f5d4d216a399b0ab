-- What the operations of the interval tree do to the intervals that it
-- stores. A zero-length interval in a node hides what stands to its left, so
-- the specs keep apart the trees in good order from the spoiled ones.
import Mathlib.Data.List.Pairwise
import Mathlib.Tactic.FieldSimp
import Mathlib.Tactic.Ring
import Carma.IntervalTree

open lib

namespace carma.interval_tree

variable {K V : Type} [LinearOrder K]

open IntervalTreeNode

/-- Each node holds one interval. -/
def OneEach : IntervalTreeNode K V → Prop
  | null => True
  | node _ left right _ rest => rest = [] ∧ OneEach left ∧ OneEach right

theorem mem_inorder_node {c : K} {l r : IntervalTreeNode K V} {f y : Interval K V} :
    y ∈ (node c l r f []).inorder ↔ y ∈ l.inorder ∨ y = f ∨ y ∈ r.inorder := by
  simp [IntervalTreeNode.inorder]

theorem mem_inorder_left {c : K} {l r : IntervalTreeNode K V} {f y : Interval K V}
    (hy : y ∈ l.inorder) : y ∈ (node c l r f []).inorder :=
  mem_inorder_node.mpr (Or.inl hy)

theorem mem_inorder_own {c : K} {l r : IntervalTreeNode K V} {f : Interval K V} :
    f ∈ (node c l r f []).inorder :=
  mem_inorder_node.mpr (Or.inr (Or.inl rfl))

theorem mem_inorder_right {c : K} {l r : IntervalTreeNode K V} {f y : Interval K V}
    (hy : y ∈ r.inorder) : y ∈ (node c l r f []).inorder :=
  mem_inorder_node.mpr (Or.inr (Or.inr hy))

/-! ## Trees in good order -/

/-- `x` may stand left of the node of `d`. Left of a zero-length interval there
is nothing but zero-length intervals. -/
def LeftOf (d x : Interval K V) : Prop := x.end_ ≤ d.start ∧ (d.Empty → x.Empty)

/-- `x` may stand right of the node of `d`. A zero-length interval may stand
there inside `d`. -/
def RightOf (d x : Interval K V) : Prop :=
  d.start ≤ x.start ∧ (¬ x.Empty → d.end_ ≤ x.start) ∧ (x.Empty → d.start < x.start)

/-- Every interval stands on its side of each node above it. -/
def Good : IntervalTreeNode K V → Prop
  | null => True
  | node _ left right first _ =>
    (∀ x ∈ left.inorder, LeftOf first x) ∧ (∀ x ∈ right.inorder, RightOf first x) ∧
      Good left ∧ Good right

/-- What overlaps `x` stands on the side of the node where the insert goes. -/
theorem not_overlap_right {d x y : Interval K V} (hy : RightOf d y) (hx : x.end_ ≤ d.start) :
    ¬ Overlap x y := by
  rw [overlap_iff, not_lt, min_le_iff, le_max_iff, le_max_iff]
  exact Or.inl (Or.inr (hx.trans hy.1))

theorem not_overlap_left {d x y : Interval K V} (hy : LeftOf d y) (hxd : ¬ Overlap x d)
    (hx : d.start < x.end_) : ¬ Overlap x y := by
  rw [overlap_iff, not_lt] at hxd ⊢
  by_cases hd : d.Empty
  · have he : y.start = y.end_ := hy.2 hd
    rw [min_le_iff, le_max_iff, le_max_iff]
    exact Or.inr (Or.inr he.ge)
  · have hlt := Interval.lt_of_not_empty hd
    rw [min_le_iff, le_max_iff, le_max_iff] at hxd ⊢
    have hds : d.end_ ≤ x.start ∨ x.end_ ≤ x.start := by
      rcases hxd with (h | h) | (h | h)
      · exact Or.inr h
      · exact absurd h (not_le.mpr hx)
      · exact Or.inl h
      · exact absurd h (not_le.mpr hlt)
    rcases hds with h | h
    · exact Or.inr (Or.inl (hy.1.trans (hlt.le.trans h)))
    · exact Or.inl (Or.inl h)

theorem good_sorted {t : IntervalTreeNode K V} (hone : OneEach t) (hgood : Good t) :
    t.inorder.Pairwise (fun x y => x.start ≤ y.start) := by
  induction t with
  | null => exact List.Pairwise.nil
  | node c l r f rest ihl ihr =>
    obtain ⟨rfl, hl1, hr1⟩ := hone
    obtain ⟨hleft, hright, hl2, hr2⟩ := hgood
    have hlf : ∀ x ∈ l.inorder, x.start ≤ f.start :=
      fun x hx => x.start_le_end.trans (hleft x hx).1
    have hfr : ∀ y ∈ r.inorder, f.start ≤ y.start := fun y hy => (hright y hy).1
    simp only [IntervalTreeNode.inorder, List.append_assoc, List.cons_append, List.nil_append]
    rw [List.pairwise_append, List.pairwise_cons]
    refine ⟨ihl hl1 hl2, ⟨hfr, ihr hr1 hr2⟩, ?_⟩
    intro x hx y hy
    rcases List.mem_cons.mp hy with rfl | hy
    · exact hlf x hx
    · exact (hlf x hx).trans (hfr y hy)

/-! ## The searches -/

/-- Overlapping intervals of the list are one and the same. -/
def Apart (stored : List (Interval K V)) : Prop :=
  ∀ x ∈ stored, ∀ y ∈ stored, Overlap x y → x = y

theorem apart_of_pairwise {stored : List (Interval K V)}
    (h : stored.Pairwise (fun x y => ¬ Overlap x y)) : Apart stored := by
  have himp : stored.Pairwise (fun x y => Overlap x y → x = y) :=
    h.imp (fun hno ho => absurd ho hno)
  have hsymm : Std.Symm (fun x y : Interval K V => Overlap x y → x = y) :=
    ⟨fun _ _ hxy ho => (hxy (overlap_symm ho)).symm⟩
  exact fun x hx y hy => himp.forall_of_forall (fun _ _ _ => rfl) hx hy

theorem apart_mono {s stored : List (Interval K V)} (h : Apart stored)
    (hs : ∀ x ∈ s, x ∈ stored) : Apart s :=
  fun x hx y hy => h x (hs x hx) y (hs y hy)

theorem mem_addAll_of_apart {stored s xs : List (Interval K V)} (h : Apart stored)
    (hs : ∀ x ∈ s, x ∈ stored) (hxs : ∀ x ∈ xs, x ∈ stored) (y : Interval K V) :
    y ∈ sorted_set.addAll compareIntervals s xs ↔ y ∈ s ∨ y ∈ xs := by
  apply sorted_set.mem_addAll
  intro x hx z hz hxz
  have hz' : z ∈ stored := by
    rcases hz with hz | hz
    · exact hs z hz
    · exact hxs z hz
  exact h x (hxs x hx) z hz' ((compareIntervals_eq x z).mp hxz)

theorem mem_collect_one {test : Interval K V → Bool} {f y : Interval K V} :
    y ∈ collect test [f] ↔ y = f ∧ test y = true := by
  unfold collect
  by_cases h : test f = true
  · simp only [List.filter_cons, h, if_true, List.filter_nil, sorted_set.addAll_cons,
      sorted_set.add, sorted_set.addAll_nil, List.mem_singleton]
    exact ⟨fun he => ⟨he, he ▸ h⟩, fun he => he.1⟩
  · simp only [List.filter_cons, h, List.filter_nil]
    exact ⟨fun he => by simp at he, fun he => absurd (he.1 ▸ he.2) h⟩

/-- The part of a search that goes on into a child, if it does. -/
theorem mem_of_mem_ite_addAll {p : Prop} [Decidable p] {s xs : List (Interval K V)}
    {y : Interval K V} (h : y ∈ if p then sorted_set.addAll compareIntervals s xs else s) :
    y ∈ s ∨ y ∈ xs := by
  split at h
  · exact sorted_set.mem_of_mem_addAll _ h
  · exact Or.inl h

theorem mem_ite_addAll {p : Prop} [Decidable p] {stored s xs : List (Interval K V)}
    (hap : Apart stored) (hs : ∀ x ∈ s, x ∈ stored) (hxs : ∀ x ∈ xs, x ∈ stored)
    {y : Interval K V} (h : y ∈ s ∨ (p ∧ y ∈ xs)) :
    y ∈ if p then sorted_set.addAll compareIntervals s xs else s := by
  rcases h with h | ⟨hp, h⟩
  · split
    · exact sorted_set.subset_addAll _ _ _ y h
    · exact h
  · rw [if_pos hp, mem_addAll_of_apart hap hs hxs]
    exact Or.inr h

/-- What a node gathers from itself and, where it looks, from its two children. -/
theorem mem_gathered {p p' : Prop} [Decidable p] [Decidable p'] {stored own ls rs : List (Interval K V)}
    (hap : Apart stored) (hown : ∀ x ∈ own, x ∈ stored) (hls : ∀ x ∈ ls, x ∈ stored)
    (hrs : ∀ x ∈ rs, x ∈ stored) {y : Interval K V}
    (h : y ∈ own ∨ (p ∧ y ∈ ls) ∨ (p' ∧ y ∈ rs)) :
    y ∈ if p' then sorted_set.addAll compareIntervals
        (if p then sorted_set.addAll compareIntervals own ls else own) rs
      else if p then sorted_set.addAll compareIntervals own ls else own := by
  have hmid : ∀ x ∈ (if p then sorted_set.addAll compareIntervals own ls else own),
      x ∈ stored := by
    intro x hx
    rcases mem_of_mem_ite_addAll hx with hx | hx
    · exact hown x hx
    · exact hls x hx
  apply mem_ite_addAll hap hmid hrs
  rcases h with h | h | h
  · exact Or.inl (mem_ite_addAll hap hown hls (Or.inl h))
  · exact Or.inl (mem_ite_addAll hap hown hls (Or.inr h))
  · exact Or.inr h

theorem collect_mem_node {c : K} {l r : IntervalTreeNode K V} {f x : Interval K V}
    {check : Interval K V → Bool} (hx : x ∈ collect check [f]) :
    x ∈ (node c l r f []).inorder := by
  rw [(mem_collect_one.mp hx).1]
  exact mem_inorder_own

/-- A search for an interval at a node with one interval. -/
theorem find_node (c : K) (l r : IntervalTreeNode K V) (f q : Interval K V) :
    (node c l r f []).findIntersectionsWith q =
      match compareIntervals q f with
      | .lt => sorted_set.addAll compareIntervals [] (l.findIntersectionsWith q)
      | .eq =>
        let own := collect (checkIntersection q) [f]
        let result := if q.start ≤ f.start then
          sorted_set.addAll compareIntervals own (l.findIntersectionsWith q) else own
        if q.end_ ≥ f.end_ then
          sorted_set.addAll compareIntervals result (r.findIntersectionsWith q) else result
      | .gt => sorted_set.addAll compareIntervals [] (r.findIntersectionsWith q) := rfl

theorem find_parts {c : K} {l r : IntervalTreeNode K V} {f q y : Interval K V}
    (hy : y ∈ (node c l r f []).findIntersectionsWith q) :
    y ∈ l.findIntersectionsWith q ∨ (y = f ∧ Overlap q y) ∨ y ∈ r.findIntersectionsWith q := by
  rw [find_node] at hy
  split at hy
  · exact Or.inl ((sorted_set.mem_of_mem_addAll _ hy).resolve_left List.not_mem_nil)
  · rcases mem_of_mem_ite_addAll hy with h | h
    · rcases mem_of_mem_ite_addAll h with h | h
      · rw [mem_collect_one, checkIntersection_iff] at h
        exact Or.inr (Or.inl h)
      · exact Or.inl h
    · exact Or.inr (Or.inr h)
  · exact Or.inr (Or.inr ((sorted_set.mem_of_mem_addAll _ hy).resolve_left List.not_mem_nil))

theorem find_sound {t : IntervalTreeNode K V} {q y : Interval K V} (hone : OneEach t)
    (hy : y ∈ t.findIntersectionsWith q) : y ∈ t.inorder ∧ Overlap q y := by
  induction t with
  | null => cases hy
  | node c l r f rest ihl ihr =>
    obtain ⟨rfl, hl1, hr1⟩ := hone
    rw [mem_inorder_node]
    rcases find_parts hy with h | h | h
    · exact ⟨Or.inl (ihl hl1 h).1, (ihl hl1 h).2⟩
    · exact ⟨Or.inr (Or.inl h.1), h.2⟩
    · exact ⟨Or.inr (Or.inr (ihr hr1 h).1), (ihr hr1 h).2⟩

theorem find_complete {t : IntervalTreeNode K V} {q y : Interval K V} (hone : OneEach t)
    (hgood : Good t) (hap : Apart t.inorder) (hy : y ∈ t.inorder) (hqy : Overlap q y) :
    y ∈ t.findIntersectionsWith q := by
  induction t with
  | null => cases hy
  | node c l r f rest ihl ihr =>
    obtain ⟨rfl, hl1, hr1⟩ := hone
    obtain ⟨hleft, hright, hl2, hr2⟩ := hgood
    have hls : ∀ x ∈ l.findIntersectionsWith q, x ∈ (node c l r f []).inorder :=
      fun x hx => mem_inorder_left (find_sound hl1 hx).1
    have hrs : ∀ x ∈ r.findIntersectionsWith q, x ∈ (node c l r f []).inorder :=
      fun x hx => mem_inorder_right (find_sound hr1 hx).1
    have hfl := ihl hl1 hl2 (apart_mono hap (fun x => mem_inorder_left))
    have hfr := ihr hr1 hr2 (apart_mono hap (fun x => mem_inorder_right))
    have hne := not_empty_of_overlap hqy
    rw [mem_inorder_node] at hy
    rw [find_node]
    split
    · rename_i hcmp
      obtain ⟨hf, hle⟩ := (compareIntervals_lt q f).mp hcmp
      rw [mem_addAll_of_apart hap (by simp) hls]
      rcases hy with hy | rfl | hy
      · exact Or.inr (hfl hy)
      · exact absurd hqy hf
      · exact absurd hqy (not_overlap_right (hright y hy) hle)
    · rename_i hcmp
      have hf := (compareIntervals_eq q f).mp hcmp
      apply mem_gathered hap (fun x hx => collect_mem_node hx) hls hrs
      rw [overlap_iff, max_lt_iff, lt_min_iff, lt_min_iff] at hqy
      rcases hy with hy | rfl | hy
      · exact Or.inr (Or.inl ⟨(hqy.1.2.trans_le (hleft y hy).1).le, hfl hy⟩)
      · exact Or.inl (mem_collect_one.mpr ⟨rfl, (checkIntersection_iff q y).mpr hf⟩)
      · exact Or.inr (Or.inr ⟨(((hright y hy).2.1 hne).trans_lt hqy.2.1).le, hfr hy⟩)
    · rename_i hcmp
      obtain ⟨hf, hlt⟩ := (compareIntervals_gt q f).mp hcmp
      rw [mem_addAll_of_apart hap (by simp) hrs]
      rcases hy with hy | rfl | hy
      · exact absurd hqy (not_overlap_left (hleft y hy) hf hlt)
      · exact absurd hqy hf
      · exact Or.inr (hfr hy)

theorem findPt_node (c : K) (l r : IntervalTreeNode K V) (f : Interval K V) (p : K) :
    (node c l r f []).findIntersectionsWithPt p =
      let own := collect (checkIntersectionPt · p) [f]
      let result := if p ≤ f.start then
        sorted_set.addAll compareIntervals own (l.findIntersectionsWithPt p) else own
      if p ≥ f.end_ then
        sorted_set.addAll compareIntervals result (r.findIntersectionsWithPt p) else result := rfl

theorem findPt_sound {t : IntervalTreeNode K V} {p : K} {y : Interval K V} (hone : OneEach t)
    (hy : y ∈ t.findIntersectionsWithPt p) : y ∈ t.inorder ∧ p ∈ y.points := by
  induction t with
  | null => cases hy
  | node c l r f rest ihl ihr =>
    obtain ⟨rfl, hl1, hr1⟩ := hone
    rw [findPt_node] at hy
    rw [mem_inorder_node]
    rcases mem_of_mem_ite_addAll hy with h | h
    · rcases mem_of_mem_ite_addAll h with h | h
      · rw [mem_collect_one, checkIntersectionPt_iff] at h
        exact ⟨Or.inr (Or.inl h.1), h.2⟩
      · exact ⟨Or.inl (ihl hl1 h).1, (ihl hl1 h).2⟩
    · exact ⟨Or.inr (Or.inr (ihr hr1 h).1), (ihr hr1 h).2⟩

theorem findPt_complete {t : IntervalTreeNode K V} {p : K} {y : Interval K V} (hone : OneEach t)
    (hgood : Good t) (hap : Apart t.inorder) (hy : y ∈ t.inorder) (hp : p ∈ y.points) :
    y ∈ t.findIntersectionsWithPt p := by
  induction t with
  | null => cases hy
  | node c l r f rest ihl ihr =>
    obtain ⟨rfl, hl1, hr1⟩ := hone
    obtain ⟨hleft, hright, hl2, hr2⟩ := hgood
    have hls : ∀ x ∈ l.findIntersectionsWithPt p, x ∈ (node c l r f []).inorder :=
      fun x hx => mem_inorder_left (findPt_sound hl1 hx).1
    have hrs : ∀ x ∈ r.findIntersectionsWithPt p, x ∈ (node c l r f []).inorder :=
      fun x hx => mem_inorder_right (findPt_sound hr1 hx).1
    rw [mem_inorder_node] at hy
    rw [findPt_node]
    apply mem_gathered hap (fun x hx => collect_mem_node hx) hls hrs
    rcases hy with hy | rfl | hy
    · refine Or.inr (Or.inl ⟨(hp.2.trans_le (hleft y hy).1).le, ?_⟩)
      exact ihl hl1 hl2 (apart_mono hap (fun x => mem_inorder_left)) hy
    · exact Or.inl (mem_collect_one.mpr ⟨rfl, (checkIntersectionPt_iff y p).mpr hp⟩)
    · have hne : ¬ y.Empty := fun he => absurd (hp.1.trans_lt hp.2) (not_lt.mpr (le_of_eq he.symm))
      refine Or.inr (Or.inr ⟨((hright y hy).2.1 hne).trans hp.1, ?_⟩)
      exact ihr hr1 hr2 (apart_mono hap (fun x => mem_inorder_right)) hy

/-! ## The order of what is found -/

theorem addAll_in_order {stored s xs : List (Interval K V)} (hpos : ∀ x ∈ stored, ¬ x.Empty)
    (hs : ∀ x ∈ s, x ∈ stored) (hxs : ∀ x ∈ xs, x ∈ stored)
    (h : s.Pairwise (fun x y => x.end_ ≤ y.start)) :
    (sorted_set.addAll compareIntervals s xs).Pairwise (fun x y => x.end_ ≤ y.start) := by
  have hmem : ∀ y, y ∈ s ∨ y ∈ xs → y ∈ stored := by
    rintro y (hy | hy)
    · exact hs y hy
    · exact hxs y hy
  apply sorted_set.addAll_ordered _ _ _ _ h
  · exact fun x y z hxy hyz => hxy.trans (y.start_le_end.trans hyz)
  · exact fun x _ y _ hcmp => ((compareIntervals_lt x y).mp hcmp).2
  · intro x hx y hy hcmp
    obtain ⟨hno, hlt⟩ := (compareIntervals_gt x y).mp hcmp
    have hxpos := Interval.lt_of_not_empty (hpos x (hxs x hx))
    have hypos := Interval.lt_of_not_empty (hpos y (hmem y hy))
    rw [overlap_iff, not_lt, min_le_iff, le_max_iff, le_max_iff] at hno
    rcases hno with (h | h) | (h | h)
    · exact absurd h (not_le.mpr hxpos)
    · exact absurd h (not_le.mpr hlt)
    · exact h
    · exact absurd h (not_le.mpr hypos)

theorem ite_addAll_in_order {p : Prop} [Decidable p] {stored s xs : List (Interval K V)}
    (hpos : ∀ x ∈ stored, ¬ x.Empty) (hs : ∀ x ∈ s, x ∈ stored) (hxs : ∀ x ∈ xs, x ∈ stored)
    (h : s.Pairwise (fun x y => x.end_ ≤ y.start)) :
    (if p then sorted_set.addAll compareIntervals s xs else s).Pairwise
      (fun x y => x.end_ ≤ y.start) := by
  split
  · exact addAll_in_order hpos hs hxs h
  · exact h

theorem find_in_order {t : IntervalTreeNode K V} {q : Interval K V} (hone : OneEach t)
    (hpos : ∀ x ∈ t.inorder, ¬ x.Empty) :
    (t.findIntersectionsWith q).Pairwise (fun x y => x.end_ ≤ y.start) := by
  cases t with
  | null => exact List.Pairwise.nil
  | node c l r f rest =>
    obtain ⟨rfl, hl1, hr1⟩ := hone
    have hls : ∀ x ∈ l.findIntersectionsWith q, x ∈ (node c l r f []).inorder :=
      fun x hx => mem_inorder_left (find_sound hl1 hx).1
    have hrs : ∀ x ∈ r.findIntersectionsWith q, x ∈ (node c l r f []).inorder :=
      fun x hx => mem_inorder_right (find_sound hr1 hx).1
    have hown : ∀ x ∈ collect (checkIntersection q) [f], x ∈ (node c l r f []).inorder :=
      fun x hx => collect_mem_node hx
    rw [find_node]
    split
    · exact addAll_in_order hpos (by simp) hls List.Pairwise.nil
    · refine ite_addAll_in_order hpos ?_ hrs (ite_addAll_in_order hpos hown hls ?_)
      · intro x hx
        rcases mem_of_mem_ite_addAll hx with hx | hx
        · exact hown x hx
        · exact hls x hx
      · refine addAll_in_order hpos (by simp) ?_ List.Pairwise.nil
        intro x hx
        obtain rfl := List.mem_singleton.mp (List.mem_of_mem_filter hx)
        exact mem_inorder_own
    · exact addAll_in_order hpos (by simp) hrs List.Pairwise.nil

/-! ## What an insert changes -/

variable [Field K]

theorem insert_oneEach (t : IntervalTreeNode K V) (x : Interval K V) (h : OneEach t) :
    OneEach (t.insert x).2 := by
  induction t with
  | null => exact ⟨rfl, trivial, trivial⟩
  | node c l r f rest ihl ihr =>
    obtain ⟨h1, h2, h3⟩ := h
    unfold IntervalTreeNode.insert
    split
    · exact ⟨h1, ihl h2, h3⟩
    · exact ⟨h1, h2, h3⟩
    · exact ⟨h1, h2, ihr h3⟩

theorem insert_refused (t : IntervalTreeNode K V) (x : Interval K V)
    (h : (t.insert x).1 = false) : (t.insert x).2 = t := by
  induction t with
  | null => cases h
  | node c l r f rest ihl ihr =>
    unfold IntervalTreeNode.insert at h ⊢
    split at h
    · simp only [ihl h]
    · rfl
    · simp only [ihr h]

/-- A taken interval joins those that are there, and nothing else changes. -/
theorem insert_taken (t : IntervalTreeNode K V) (x : Interval K V)
    (h : (t.insert x).1 = true) : (t.insert x).2.inorder.Perm (x :: t.inorder) := by
  induction t with
  | null => exact List.Perm.refl _
  | node c l r f rest ihl ihr =>
    unfold IntervalTreeNode.insert at h ⊢
    split at h
    · simp only [IntervalTreeNode.inorder]
      exact ((ihl h).append_right _).append_right _
    · cases h
    · simp only [IntervalTreeNode.inorder]
      exact ((ihr h).append_left _).trans List.perm_middle

theorem mem_insert_of_mem {t : IntervalTreeNode K V} {x y : Interval K V}
    (hy : y ∈ t.inorder) : y ∈ (t.insert x).2.inorder := by
  cases h : (t.insert x).1 with
  | false => rwa [insert_refused t x h]
  | true => exact (insert_taken t x h).mem_iff.mpr (List.mem_cons_of_mem _ hy)

theorem mem_of_mem_insert {t : IntervalTreeNode K V} {x y : Interval K V}
    (hy : y ∈ (t.insert x).2.inorder) : y = x ∨ y ∈ t.inorder := by
  cases h : (t.insert x).1 with
  | false => exact Or.inr (insert_refused t x h ▸ hy)
  | true => exact List.mem_cons.mp ((insert_taken t x h).mem_iff.mp hy)

theorem mem_insert_self {t : IntervalTreeNode K V} {x : Interval K V}
    (h : (t.insert x).1 = true) : x ∈ (t.insert x).2.inorder :=
  (insert_taken t x h).mem_iff.mpr (by simp)

theorem insert_of_fits {t : IntervalTreeNode K V} (x : Interval K V) (hone : OneEach t)
    (hfit : packing.Fits Overlap t.inorder x) : (t.insert x).1 = true := by
  unfold packing.Fits at hfit
  induction t with
  | null => simp [IntervalTreeNode.insert]
  | node c l r f rest ihl ihr =>
    obtain ⟨rfl, hl1, hr1⟩ := hone
    simp only [mem_inorder_node] at hfit
    unfold IntervalTreeNode.insert
    split
    · exact ihl hl1 (fun y hy => hfit y (Or.inl hy))
    · rename_i hcmp
      exact absurd ((compareIntervals_eq x f).mp hcmp) (hfit f (Or.inr (Or.inl rfl)))
    · exact ihr hr1 (fun y hy => hfit y (Or.inr (Or.inr hy)))

theorem insert_iff {t : IntervalTreeNode K V} (x : Interval K V) (hone : OneEach t)
    (hgood : Good t) : (t.insert x).1 = true ↔ packing.Fits Overlap t.inorder x := by
  unfold packing.Fits
  induction t with
  | null => simp [IntervalTreeNode.insert, IntervalTreeNode.inorder]
  | node c l r f rest ihl ihr =>
    obtain ⟨rfl, hl1, hr1⟩ := hone
    obtain ⟨hleft, hright, hl2, hr2⟩ := hgood
    simp only [mem_inorder_node]
    unfold IntervalTreeNode.insert
    split
    · rename_i hcmp
      obtain ⟨hf, hle⟩ := (compareIntervals_lt x f).mp hcmp
      simp only [ihl hl1 hl2]
      constructor
      · rintro h y (hy | rfl | hy)
        · exact h y hy
        · exact hf
        · exact not_overlap_right (hright y hy) hle
      · exact fun h y hy => h y (Or.inl hy)
    · rename_i hcmp
      have hf := (compareIntervals_eq x f).mp hcmp
      simp only [Bool.false_eq_true, false_iff]
      exact fun h => h f (Or.inr (Or.inl rfl)) hf
    · rename_i hcmp
      obtain ⟨hf, hlt⟩ := (compareIntervals_gt x f).mp hcmp
      simp only [ihr hr1 hr2]
      constructor
      · rintro h y (hy | rfl | hy)
        · exact not_overlap_left (hleft y hy) hf hlt
        · exact hf
        · exact h y hy
      · exact fun h y hy => h y (Or.inr (Or.inr hy))

/-! ## Good order kept, or spoiled -/

/-- Every zero-length interval of the list that `x` starts before is cut off
from `x` by an interval of positive length that starts between them. -/
def Clear (stored : List (Interval K V)) (x : Interval K V) : Prop :=
  ∀ a ∈ stored, a.Empty → x.start < a.start →
    ∃ c ∈ stored, ¬ c.Empty ∧ x.end_ ≤ c.start ∧ c.start < a.start

/-- A node with a zero-length interval hides an interval of positive length:
one to its left, or one to its right that starts before it. -/
def Spoiled : IntervalTreeNode K V → Prop
  | null => False
  | node _ left right first _ =>
    (first.Empty ∧ ((∃ x ∈ left.inorder, ¬ x.Empty ∧ x.end_ ≤ first.start) ∨
      ∃ x ∈ right.inorder, ¬ x.Empty ∧ x.start < first.start)) ∨
    Spoiled left ∨ Spoiled right

theorem insert_spoiled (t : IntervalTreeNode K V) (x : Interval K V) (h : Spoiled t) :
    Spoiled (t.insert x).2 := by
  induction t with
  | null => cases h
  | node c l r f rest ihl ihr =>
    unfold IntervalTreeNode.insert
    rcases h with ⟨hf, ⟨y, hy, hne⟩ | ⟨y, hy, hne⟩⟩ | h | h
    · split
      · exact Or.inl ⟨hf, Or.inl ⟨y, mem_insert_of_mem hy, hne⟩⟩
      · exact Or.inl ⟨hf, Or.inl ⟨y, hy, hne⟩⟩
      · exact Or.inl ⟨hf, Or.inl ⟨y, hy, hne⟩⟩
    · split
      · exact Or.inl ⟨hf, Or.inr ⟨y, hy, hne⟩⟩
      · exact Or.inl ⟨hf, Or.inr ⟨y, hy, hne⟩⟩
      · exact Or.inl ⟨hf, Or.inr ⟨y, mem_insert_of_mem hy, hne⟩⟩
    · split
      · exact Or.inr (Or.inl (ihl h))
      · exact Or.inr (Or.inl h)
      · exact Or.inr (Or.inl h)
    · split
      · exact Or.inr (Or.inr h)
      · exact Or.inr (Or.inr h)
      · exact Or.inr (Or.inr (ihr h))

theorem insert_good_empty (t : IntervalTreeNode K V) (x : Interval K V) (hone : OneEach t)
    (hgood : Good t) (hx : x.Empty) : Good (t.insert x).2 := by
  induction t with
  | null => exact ⟨by simp [IntervalTreeNode.inorder], by simp [IntervalTreeNode.inorder],
      trivial, trivial⟩
  | node c l r f rest ihl ihr =>
    obtain ⟨rfl, hl1, hr1⟩ := hone
    obtain ⟨hleft, hright, hl2, hr2⟩ := hgood
    unfold IntervalTreeNode.insert
    split
    · rename_i hcmp
      refine ⟨?_, hright, ihl hl1 hl2, hr2⟩
      intro y hy
      rcases mem_of_mem_insert hy with rfl | hy
      · exact ⟨((compareIntervals_lt y f).mp hcmp).2, fun _ => hx⟩
      · exact hleft y hy
    · exact ⟨hleft, hright, hl2, hr2⟩
    · rename_i hcmp
      refine ⟨hleft, ?_, hl2, ihr hr1 hr2⟩
      intro y hy
      rcases mem_of_mem_insert hy with rfl | hy
      · have hlt : f.start < y.start := by
          rw [show y.start = y.end_ from hx]
          exact ((compareIntervals_gt y f).mp hcmp).2
        exact ⟨hlt.le, fun hne => absurd hx hne, fun _ => hlt⟩
      · exact hright y hy

omit [Field K] in
theorem not_empty_of_clear {c : K} {l r : IntervalTreeNode K V} {f x : Interval K V}
    (hgood : Good (node c l r f [])) (hx : ¬ x.Empty) (hclear : Clear (node c l r f []).inorder x)
    (hle : x.end_ ≤ f.start) : ¬ f.Empty := by
  obtain ⟨hleft, hright, -, -⟩ := hgood
  intro hf
  obtain ⟨d, hd, hdne, -, hda⟩ := hclear f mem_inorder_own hf
    ((Interval.lt_of_not_empty hx).trans_le hle)
  rcases mem_inorder_node.mp hd with hd | rfl | hd
  · exact hdne ((hleft d hd).2 hf)
  · exact hdne hf
  · exact absurd (hright d hd).1 (not_le.mpr hda)

omit [Field K] in
theorem clear_left {c : K} {l r : IntervalTreeNode K V} {f x : Interval K V}
    (hgood : Good (node c l r f [])) (hclear : Clear (node c l r f []).inorder x) :
    Clear l.inorder x := by
  obtain ⟨hleft, hright, -, -⟩ := hgood
  intro a ha hae hxa
  obtain ⟨d, hd, hdne, hxd, hda⟩ := hclear a (mem_inorder_left ha) hae hxa
  have haf : a.start ≤ f.start := a.start_le_end.trans (hleft a ha).1
  rcases mem_inorder_node.mp hd with hd | rfl | hd
  · exact ⟨d, hd, hdne, hxd, hda⟩
  · exact absurd haf (not_le.mpr hda)
  · exact absurd ((hright d hd).1.trans_lt hda) (not_lt.mpr haf)

omit [Field K] in
theorem clear_right {c : K} {l r : IntervalTreeNode K V} {f x : Interval K V}
    (hgood : Good (node c l r f [])) (hx : ¬ x.Empty) (hclear : Clear (node c l r f []).inorder x)
    (hfs : f.end_ ≤ x.start) : Clear r.inorder x := by
  obtain ⟨hleft, -, -, -⟩ := hgood
  have hlt := Interval.lt_of_not_empty hx
  intro a ha hae hxa
  obtain ⟨d, hd, hdne, hxd, hda⟩ :=
    hclear a (mem_inorder_right ha) hae hxa
  rcases mem_inorder_node.mp hd with hd | rfl | hd
  · have hend := (hleft d hd).1
    have hdlt := Interval.lt_of_not_empty hdne
    exact absurd (hdlt.trans_le hend) (not_lt.mpr (f.start_le_end.trans
      (hfs.trans (hlt.le.trans hxd))))
  · exact absurd (hlt.trans_le hxd) (not_lt.mpr (d.start_le_end.trans hfs))
  · exact ⟨d, hd, hdne, hxd, hda⟩

omit [Field K] in
theorem end_le_of_clear {c : K} {l r : IntervalTreeNode K V} {f x : Interval K V}
    (hx : ¬ x.Empty) (hclear : Clear (node c l r f []).inorder x) (hno : ¬ Overlap x f)
    (hfx : f.start < x.end_) : f.end_ ≤ x.start := by
  by_cases hf : f.Empty
  · by_contra hc
    have hxf : x.start < f.start := by
      rw [show f.start = f.end_ from hf]
      exact not_le.mp hc
    obtain ⟨d, hd, hdne, hxd, hda⟩ :=
      hclear f mem_inorder_own hf hxf
    exact absurd (hxd.trans_lt hda) (not_lt.mpr hfx.le)
  · rw [overlap_iff, not_lt, min_le_iff, le_max_iff, le_max_iff] at hno
    rcases hno with (h | h) | (h | h)
    · exact absurd h (not_le.mpr (Interval.lt_of_not_empty hx))
    · exact absurd h (not_le.mpr hfx)
    · exact h
    · exact absurd h (not_le.mpr (Interval.lt_of_not_empty hf))

theorem insert_good_clear (t : IntervalTreeNode K V) (x : Interval K V) (hone : OneEach t)
    (hgood : Good t) (hx : ¬ x.Empty) (hclear : Clear t.inorder x) : Good (t.insert x).2 := by
  induction t with
  | null => exact ⟨by simp [IntervalTreeNode.inorder], by simp [IntervalTreeNode.inorder],
      trivial, trivial⟩
  | node c l r f rest ihl ihr =>
    obtain ⟨rfl, hl1, hr1⟩ := hone
    have hnode := hgood
    obtain ⟨hleft, hright, hl2, hr2⟩ := hgood
    unfold IntervalTreeNode.insert
    split
    · rename_i hcmp
      obtain ⟨_, hle⟩ := (compareIntervals_lt x f).mp hcmp
      have hfne := not_empty_of_clear hnode hx hclear hle
      refine ⟨?_, hright, ihl hl1 hl2 (clear_left hnode hclear), hr2⟩
      intro y hy
      rcases mem_of_mem_insert hy with rfl | hy
      · exact ⟨hle, fun hf => absurd hf hfne⟩
      · exact hleft y hy
    · exact ⟨hleft, hright, hl2, hr2⟩
    · rename_i hcmp
      obtain ⟨hno, hfx⟩ := (compareIntervals_gt x f).mp hcmp
      have hfs := end_le_of_clear hx hclear hno hfx
      refine ⟨hleft, ?_, hl2, ihr hr1 hr2 (clear_right hnode hx hclear hfs)⟩
      intro y hy
      rcases mem_of_mem_insert hy with rfl | hy
      · exact ⟨f.start_le_end.trans hfs, fun _ => hfs, fun he => absurd he hx⟩
      · exact hright y hy

/-- An interval that is taken but is not clear spoils a good tree. -/
theorem insert_spoils (t : IntervalTreeNode K V) (x : Interval K V) (hone : OneEach t)
    (hgood : Good t) (hx : ¬ x.Empty) (htake : (t.insert x).1 = true)
    (hclear : ¬ Clear t.inorder x) : Spoiled (t.insert x).2 := by
  induction t with
  | null => exact absurd (by intro a ha; cases ha) hclear
  | node c l r f rest ihl ihr =>
    obtain ⟨rfl, hl1, hr1⟩ := hone
    obtain ⟨hleft, hright, hl2, hr2⟩ := hgood
    unfold Clear at hclear
    push Not at hclear
    obtain ⟨a, ha, hae, hxa, hcut⟩ := hclear
    have hends : a.end_ = a.start := hae.symm
    unfold IntervalTreeNode.insert at htake ⊢
    split at htake
    · rename_i hcmp
      obtain ⟨_, hle⟩ := (compareIntervals_lt x f).mp hcmp
      by_cases hf : f.Empty
      · exact Or.inl ⟨hf, Or.inl ⟨x, mem_insert_self htake, hx, hle⟩⟩
      · refine Or.inr (Or.inl (ihl hl1 hl2 htake ?_))
        intro hcl
        have hal : a ∈ l.inorder := by
          rcases mem_inorder_node.mp ha with h | rfl | h
          · exact h
          · exact absurd hae hf
          · exact absurd ((hright a h).2.2 hae)
              (not_lt.mpr (hcut f mem_inorder_own hf hle))
        obtain ⟨d, hd, hdne, hxd, hda⟩ := hcl a hal hae hxa
        exact absurd hda (not_lt.mpr (hcut d (mem_inorder_left hd) hdne hxd))
    · cases htake
    · rename_i hcmp
      obtain ⟨hno, hfx⟩ := (compareIntervals_gt x f).mp hcmp
      by_cases hsx : f.start ≤ x.start
      · refine Or.inr (Or.inr (ihr hr1 hr2 htake ?_))
        intro hcl
        have har : a ∈ r.inorder := by
          rcases mem_inorder_node.mp ha with h | rfl | h
          · exact absurd (hxa.trans_le (hends ▸ (hleft a h).1)) (not_lt.mpr hsx)
          · exact absurd hxa (not_lt.mpr hsx)
          · exact h
        obtain ⟨d, hd, hdne, hxd, hda⟩ := hcl a har hae hxa
        exact absurd hda (not_lt.mpr
          (hcut d (mem_inorder_right hd) hdne hxd))
      · have hxf := not_le.mp hsx
        have hf := empty_of_surrounded hno hxf hfx
        exact Or.inl ⟨hf, Or.inr ⟨x, mem_insert_self htake, hx, hxf⟩⟩

/-! ## The tree and its root -/

variable [IsStrictOrderedRing K]

theorem tree_insert_eq (t : IntervalTree K V) (x : Interval K V) (hx : x.data.isSome) :
    t.insert x = ((t.root.insert x).1, ⟨(t.root.insert x).2⟩) := by
  obtain ⟨d, hd⟩ := Option.isSome_iff_exists.mp hx
  unfold IntervalTree.insert
  rw [hd]
  cases h : t.root with
  | null =>
    have hmid : (x.start + x.end_) / 2 = x.start + (x.end_ - x.start) / 2 := by field_simp; ring
    simp only [IntervalTreeNode.insert, hmid]
  | node c l r f rest => rfl

end carma.interval_tree
