-- The interval tree of guidance: a binary tree of half-open intervals that
-- refuses an interval that overlaps one of its own. The functions are those
-- of `IntervalTree`, `IntervalTreeNode`, `NonOverlappingInsertStrategy` and
-- `ClosedStartOpenEndIntervalCalculator`.
import Mathlib.Algebra.Order.Field.Basic
import Mathlib.Order.Interval.Set.LinearOrder
import Carma.Lib.Packing
import Carma.Lib.SortedSet

open lib

namespace carma.interval_tree

/-! ## Intervals -/

/-- A datum on `[start, end)`. The constructor of the source throws on an
inverted interval, so there is none. An interval for a query has no datum. -/
structure Interval (K V : Type) [LE K] where
  data : Option V
  start : K
  end_ : K
  start_le_end : start ≤ end_
deriving DecidableEq

variable {K V : Type} [LinearOrder K]

/-- The points of an interval: closed at its start, open at its end. -/
def Interval.points (x : Interval K V) : Set K := Set.Ico x.start x.end_

/-- An interval of length zero holds no point. -/
def Interval.Empty (x : Interval K V) : Prop := x.start = x.end_

/-- Two intervals share a point. -/
def Overlap (x y : Interval K V) : Prop := (x.points ∩ y.points).Nonempty

theorem overlap_iff (x y : Interval K V) :
    Overlap x y ↔ max x.start y.start < min x.end_ y.end_ := by
  unfold Overlap Interval.points
  rw [Set.Ico_inter_Ico, Set.nonempty_Ico]

instance (x y : Interval K V) : Decidable (Overlap x y) := decidable_of_iff' _ (overlap_iff x y)

instance (x : Interval K V) : Decidable x.Empty := inferInstanceAs (Decidable (x.start = x.end_))

theorem overlap_symm {x y : Interval K V} (h : Overlap x y) : Overlap y x := by
  unfold Overlap at *
  rwa [Set.inter_comm]

theorem Interval.lt_of_not_empty {x : Interval K V} (h : ¬ x.Empty) : x.start < x.end_ :=
  lt_of_le_of_ne x.start_le_end h

theorem not_empty_of_overlap {x y : Interval K V} (h : Overlap x y) : ¬ y.Empty := by
  obtain ⟨p, _, hp⟩ := h
  exact (hp.1.trans_lt hp.2).ne

theorem overlap_self {x : Interval K V} (h : ¬ x.Empty) : Overlap x x := by
  rw [overlap_iff, max_self, min_self]
  exact Interval.lt_of_not_empty h

theorem empty_of_surrounded {x f : Interval K V} (hno : ¬ Overlap x f)
    (hxf : x.start < f.start) (hfx : f.start < x.end_) : f.Empty := by
  by_contra hf
  have hlt : f.start < f.end_ := Interval.lt_of_not_empty hf
  refine hno ((overlap_iff x f).mpr ?_)
  exact max_lt (lt_min (hxf.trans hfx) (hxf.trans hlt)) (lt_min hfx hlt)

/-! ## The interval calculator -/

/-- `checkIntersection` of two intervals, case by case as in the source. -/
def checkIntersection (inter1 inter2 : Interval K V) : Bool :=
  if inter1.start = inter1.end_ ∨ inter2.start = inter2.end_ then false
  else if inter1.end_ > inter2.start ∧ inter1.end_ ≤ inter2.end_ then true
  else if inter1.start ≥ inter2.start ∧ inter1.start < inter2.end_ then true
  else if inter1.start ≤ inter2.start ∧ inter1.end_ ≥ inter2.end_ then true
  else false

/-- `checkIntersection` of an interval and a point. -/
def checkIntersectionPt (inter : Interval K V) (pt : K) : Bool :=
  decide (pt ≥ inter.start) && decide (pt < inter.end_)

/-- `compareIntervals`: -1, 0 and 1 of the source are `lt`, `eq` and `gt`. -/
def compareIntervals (inter1 inter2 : Interval K V) : Ordering :=
  if checkIntersection inter1 inter2 then .eq
  else if inter1.end_ ≤ inter2.start then .lt
  else .gt

def compareIntervalAndPoint (inter1 : Interval K V) (pt : K) : Ordering :=
  if checkIntersectionPt inter1 pt then .eq
  else if inter1.end_ ≤ pt then .lt
  else .gt

theorem checkIntersection_iff (x y : Interval K V) :
    checkIntersection x y = true ↔ Overlap x y := by
  rw [overlap_iff, max_lt_iff, lt_min_iff, lt_min_iff]
  have hx := x.start_le_end
  have hy := y.start_le_end
  unfold checkIntersection
  split_ifs with h1 h2 h3 h4
  · simp only [false_iff]
    rintro ⟨⟨hxx, hxy⟩, hyx, hyy⟩
    rcases h1 with h1 | h1
    · exact absurd h1 (ne_of_lt hxx)
    · exact absurd h1 (ne_of_lt hyy)
  all_goals
    rw [not_or] at h1
    have hxx := lt_of_le_of_ne hx h1.1
    have hyy := lt_of_le_of_ne hy h1.2
  · exact iff_of_true rfl ⟨⟨hxx, lt_of_lt_of_le hxx h2.2⟩, h2.1, hyy⟩
  · exact iff_of_true rfl ⟨⟨hxx, h3.2⟩, lt_of_le_of_lt h3.1 hxx, hyy⟩
  · exact iff_of_true rfl ⟨⟨hxx, lt_of_le_of_lt h4.1 hyy⟩, lt_of_lt_of_le hyy h4.2, hyy⟩
  · simp only [false_iff]
    rintro ⟨⟨_, hxy⟩, hyx, _⟩
    rcases le_total x.end_ y.end_ with h | h
    · exact h2 ⟨hyx, h⟩
    · rcases le_total y.start x.start with h' | h'
      · exact h3 ⟨h', hxy⟩
      · exact h4 ⟨h', h⟩

theorem checkIntersectionPt_iff (x : Interval K V) (p : K) :
    checkIntersectionPt x p = true ↔ p ∈ x.points := by
  simp [checkIntersectionPt, Interval.points]

theorem compareIntervals_eq (x y : Interval K V) :
    compareIntervals x y = .eq ↔ Overlap x y := by
  rw [← checkIntersection_iff]
  unfold compareIntervals
  split
  · simp [*]
  · split <;> simp [*]

theorem compareIntervals_lt (x y : Interval K V) :
    compareIntervals x y = .lt ↔ ¬ Overlap x y ∧ x.end_ ≤ y.start := by
  rw [← checkIntersection_iff]
  unfold compareIntervals
  split
  · simp [*]
  · split <;> simp [*]

theorem compareIntervals_gt (x y : Interval K V) :
    compareIntervals x y = .gt ↔ ¬ Overlap x y ∧ y.start < x.end_ := by
  rw [← checkIntersection_iff, ← not_le]
  unfold compareIntervals
  split
  · simp [*]
  · split <;> simp [*]

/-! ## The tree -/

/-- `IntervalTreeNode`, with `null` for a child that is not there. A node gets
its first interval in the same call that creates it, so its sorted set is
written as its `first` interval and the `rest`. -/
inductive IntervalTreeNode (K V : Type) [LE K]
  | null
  | node (center : K) (left right : IntervalTreeNode K V) (first : Interval K V)
      (rest : List (Interval K V))

open IntervalTreeNode

/-- `IntervalTree`, as `IntervalTreeFactory` builds it. -/
structure IntervalTree (K V : Type) [LE K] where
  root : IntervalTreeNode K V

def buildIntervalTree : IntervalTree K V := ⟨null⟩

section insert

variable [Field K]

/-- `NonOverlappingInsertStrategy.insert`. A child that is not there is created
with its center, and the insert into the new child puts the interval in its
empty set. -/
def IntervalTreeNode.insert (datum : Interval K V) :
    IntervalTreeNode K V → Bool × IntervalTreeNode K V
  | null => (true, node (datum.start + (datum.end_ - datum.start) / 2) null null datum [])
  | node center left right first rest =>
    match compareIntervals datum first with
    | .lt =>
      let (ok, left') := left.insert datum
      (ok, node center left' right first rest)
    | .eq => (false, node center left right first rest)
    | .gt =>
      let (ok, right') := right.insert datum
      (ok, node center left right' first rest)

def IntervalTree.insert (t : IntervalTree K V) (value : Interval K V) : Bool × IntervalTree K V :=
  match value.data with
  | none => (false, t)
  | some _ =>
    match t.root with
    | null => (true, ⟨node ((value.start + value.end_) / 2) null null value []⟩)
    | node center left right first rest =>
      let (ok, root') := (node center left right first rest).insert value
      (ok, ⟨root'⟩)

end insert

/-- The intervals of a node's set that pass a test, as a sorted set. -/
def collect (test : Interval K V → Bool) (data : List (Interval K V)) : List (Interval K V) :=
  sorted_set.addAll compareIntervals [] (data.filter test)

/-- `leftSpan`: the least start in a node's set. -/
def leftSpan (first : Interval K V) (rest : List (Interval K V)) : K :=
  rest.foldl (fun span inter => min span inter.start) first.start

/-- `rightSpan`: the greatest end in a node's set. -/
def rightSpan (first : Interval K V) (rest : List (Interval K V)) : K :=
  rest.foldl (fun span inter => max span inter.end_) first.end_

def IntervalTreeNode.findIntersectionsWith (interval : Interval K V) :
    IntervalTreeNode K V → List (Interval K V)
  | null => []
  | node center left right first rest =>
    let cmp := if 0 < rest.length then compareIntervalAndPoint interval center
      else compareIntervals interval first
    match cmp with
    | .lt => sorted_set.addAll compareIntervals [] (left.findIntersectionsWith interval)
    | .eq =>
      let result := collect (checkIntersection interval) (first :: rest)
      let result := if interval.start ≤ leftSpan first rest then
        sorted_set.addAll compareIntervals result (left.findIntersectionsWith interval) else result
      if interval.end_ ≥ rightSpan first rest then
        sorted_set.addAll compareIntervals result (right.findIntersectionsWith interval) else result
    | .gt => sorted_set.addAll compareIntervals [] (right.findIntersectionsWith interval)

def IntervalTreeNode.findIntersectionsWithPt (point : K) :
    IntervalTreeNode K V → List (Interval K V)
  | null => []
  | node _ left right first rest =>
    let result := collect (checkIntersectionPt · point) (first :: rest)
    let result := if point ≤ leftSpan first rest then
      sorted_set.addAll compareIntervals result (left.findIntersectionsWithPt point) else result
    if point ≥ rightSpan first rest then
      sorted_set.addAll compareIntervals result (right.findIntersectionsWithPt point) else result

def IntervalTree.findIntersectionsWith (t : IntervalTree K V) (interval : Interval K V) :
    List (Interval K V) :=
  t.root.findIntersectionsWith interval

def IntervalTree.findIntersectionsWithPt (t : IntervalTree K V) (pt : K) : List (Interval K V) :=
  t.root.findIntersectionsWithPt pt

/-- The intervals below a node in the order of `toSortedList`: those on the
left, the node's own, those on the right. -/
def IntervalTreeNode.inorder : IntervalTreeNode K V → List (Interval K V)
  | null => []
  | node _ left right first rest => left.inorder ++ first :: rest ++ right.inorder

/-- The intervals of the tree in the order of `toSortedList`. -/
def IntervalTree.intervals (t : IntervalTree K V) : List (Interval K V) := t.root.inorder

/-- `toSortedList`: the data of the intervals. An inserted interval has a datum. -/
def IntervalTree.toSortedList (t : IntervalTree K V) : List V := t.intervals.filterMap (·.data)

end carma.interval_tree
