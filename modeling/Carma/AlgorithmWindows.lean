-- The algorithms that are disabled along the route, and the window of a range in which one is
-- enabled: whether there is one and which it is are two questions that have the same answer.
import Carma.Lib.Bands
import Carma.GuidanceRouteService
import Mathlib.Data.List.TakeWhile

open lib
open lib.bands
open carma.route_node (Route RouteSegment)

namespace carma.route_service

/-- `AlgorithmFlags`: what is disabled on a part of the route, and the place where the part
ends. -/
structure AlgorithmFlags (K : Type) where
  location : K
  disabledAlgorithms : List String
deriving DecidableEq

/-- A set of algorithm flags. No two are at one place. -/
structure FlagSet (K : Type) [LT K] where
  flags : List (AlgorithmFlags K)
  sorted : flags.Pairwise (fun a b => a.location < b.location)

variable {K F : Type} [LinearOrder K]

def FlagSet.add (s : FlagSet K) (flagset : AlgorithmFlags K) : FlagSet K where
  flags := sorted_set.add (sorted_set.byKey AlgorithmFlags.location) s.flags flagset
  sorted := sorted_set.add_pairwise s.sorted flagset

def noFlags : FlagSet K := ⟨[], List.Pairwise.nil⟩

/-! ## The queries -/

def FlagSet.getAlgorithmFlagsAtLocation (s : FlagSet K) (location : K) : Option (AlgorithmFlags K) :=
  s.flags.find? fun flagset => decide (flagset.location ≥ location)

/-- The loop of `getAlgorithmFlagsInRange`. -/
def flagsInRange (start end_ : K) (out : FlagSet K) : List (AlgorithmFlags K) → FlagSet K
  | [] => out
  | flagset :: flags =>
    let out := if flagset.location > start ∧ flagset.location ≤ end_ then out.add flagset else out
    if flagset.location > end_ then out else flagsInRange start end_ out flags

def FlagSet.getAlgorithmFlagsInRange (s : FlagSet K) (start end_ : K) : FlagSet K :=
  flagsInRange start end_ noFlags s.flags

def FlagSet.getAlgorithmFlagsInRangeIncludingEnd (s : FlagSet K) (start end_ : K) : FlagSet K :=
  let flags := s.getAlgorithmFlagsInRange start end_
  match s.getAlgorithmFlagsAtLocation end_ with
  | none => flags
  | some flagsAtEnd => flags.add flagsAtEnd

/-- The first loop of `getAlgorithmEnabledWindowInRange`. -/
def earliestLegalWindow (algorithm : String) (earliest : K) : List (AlgorithmFlags K) → K
  | [] => earliest
  | flagset :: flags =>
    if algorithm ∈ flagset.disabledAlgorithms then
      earliestLegalWindow algorithm flagset.location flags
    else earliest

/-- The second loop of `getAlgorithmEnabledWindowInRange`. -/
def endOfWindow (algorithm : String) (earliest end_ : K) : List (AlgorithmFlags K) → K
  | [] => end_
  | flagset :: flags =>
    if flagset.location > earliest then
      if algorithm ∉ flagset.disabledAlgorithms then
        endOfWindow algorithm earliest flagset.location flags
      else end_
    else endOfWindow algorithm earliest end_ flags

def FlagSet.getAlgorithmEnabledWindowInRange (s : FlagSet K) (start end_ : K) (algorithm : String) :
    Option (K × K) :=
  let flags := (s.getAlgorithmFlagsInRangeIncludingEnd start end_).flags
  let earliest := earliestLegalWindow algorithm start flags
  let endOfWindow := min (endOfWindow algorithm earliest earliest flags) end_
  if endOfWindow > earliest then some (earliest, endOfWindow) else none

def FlagSet.isAlgorithmEnabledInRange (s : FlagSet K) (start end_ : K) (algorithm : String) : Bool :=
  (s.getAlgorithmFlagsInRangeIncludingEnd start end_).flags.any fun flagset =>
    decide (algorithm ∉ flagset.disabledAlgorithms)

section route

variable [Field K]

/-- The flags that `processRoute` finds, from `dtdAccum` on. -/
def segmentFlags (dtdAccum : K) (out : FlagSet K) : List (RouteSegment K F) → FlagSet K
  | [] => out
  | seg :: segs =>
    let dtdAccum := dtdAccum + seg.length
    segmentFlags dtdAccum (out.add ⟨dtdAccum, seg.downtrackWP.disabledGuidanceAlgorithms⟩) segs

/-- `processRoute`, as far as algorithms go. -/
def processAlgorithms (route : Route K F) : FlagSet K := segmentFlags 0 noFlags route.segments

end route

/-! ## The flags of a range -/

theorem flagsInRange_eq (start end_ : K) (out : FlagSet K) (flags : List (AlgorithmFlags K)) :
    (flagsInRange start end_ out flags).flags =
      sorted_set.copyRange AlgorithmFlags.location start end_ out.flags flags := by
  exact sorted_set.copyRange_of_loop (fun _ _ => rfl) (fun _ => rfl) (fun _ _ _ => rfl) out flags

/-- The flags of a range are those between its start and its end, and the next. -/
structure RangeParts (flags : List (AlgorithmFlags K)) (start end_ : K)
    (before inside beyond : List (AlgorithmFlags K)) : Prop where
  all : flags = before ++ (inside ++ beyond)
  before_le : ∀ m ∈ before, m.location ≤ start
  inside_gt : ∀ m ∈ inside, start < m.location
  inside_lt : ∀ m ∈ inside, m.location < end_
  beyond_ge : ∀ m ∈ beyond, end_ ≤ m.location

theorem rangeParts {flags : List (AlgorithmFlags K)}
    (h : flags.Pairwise (fun a b => a.location < b.location)) (start end_ : K) :
    ∃ before inside beyond, RangeParts flags start end_ before inside beyond := by
  have hfirst : flags.Pairwise (fun a b => decide (b.location ≤ start) = true →
      decide (a.location ≤ start) = true) := by
    refine h.imp fun {a b} hab hb => ?_
    exact decide_eq_true (hab.le.trans (of_decide_eq_true hb))
  have hsecond : (flags.filter (fun m => !decide (m.location ≤ start))).Pairwise
      (fun a b => decide (b.location < end_) = true → decide (a.location < end_) = true) := by
    refine (h.filter _).imp fun {a b} hab hb => ?_
    exact decide_eq_true (hab.trans (of_decide_eq_true hb))
  refine ⟨flags.filter (fun m => decide (m.location ≤ start)),
    (flags.filter (fun m => !decide (m.location ≤ start))).filter
      (fun m => decide (m.location < end_)),
    (flags.filter (fun m => !decide (m.location ≤ start))).filter
      (fun m => !decide (m.location < end_)), ?_, ?_, ?_, ?_, ?_⟩
  · rw [sorted_set.filter_append_filter hsecond, sorted_set.filter_append_filter hfirst]
  · exact fun m hm => of_decide_eq_true (List.mem_filter.mp hm).2
  · intro m hm
    simpa using (List.mem_filter.mp (List.mem_of_mem_filter hm)).2
  · exact fun m hm => of_decide_eq_true (List.mem_filter.mp hm).2
  · intro m hm
    simpa using (List.mem_filter.mp hm).2

section parts

variable {s : FlagSet K} {start end_ : K} {before inside beyond : List (AlgorithmFlags K)}

theorem RangeParts.inRange_eq (h : RangeParts s.flags start end_ before inside beyond)
    (hlt : start < end_) : (s.getAlgorithmFlagsInRange start end_).flags =
      inside ++ beyond.filter (fun m => decide (m.location ≤ end_)) := by
  have hbefore : before.filter
      (fun m => decide (m.location > start) && decide (m.location ≤ end_)) = [] := by
    rw [List.filter_eq_nil_iff]
    intro m hm hin
    simp [not_lt.mpr (h.before_le m hm)] at hin
  have hinside : inside.filter
      (fun m => decide (m.location > start) && decide (m.location ≤ end_)) = inside := by
    rw [List.filter_eq_self]
    intro m hm
    simp [h.inside_gt m hm, (h.inside_lt m hm).le]
  have hbeyond : beyond.filter
      (fun m => decide (m.location > start) && decide (m.location ≤ end_)) =
        beyond.filter (fun m => decide (m.location ≤ end_)) := by
    refine List.filter_congr fun m hm => ?_
    simp [hlt.trans_le (h.beyond_ge m hm)]
  have hcopy : sorted_set.copyRange AlgorithmFlags.location start end_ [] s.flags =
      [] ++ s.flags.filter
        (fun m => decide (m.location > start) && decide (m.location ≤ end_)) :=
    sorted_set.copyRange_eq start end_ s.sorted
  unfold FlagSet.getAlgorithmFlagsInRange
  rw [flagsInRange_eq, noFlags, hcopy, List.nil_append, h.all, List.filter_append,
    List.filter_append, hbefore, hinside, hbeyond, List.nil_append]

theorem RangeParts.flagsAtEnd (h : RangeParts s.flags start end_ before inside beyond)
    (hlt : start < end_) : s.getAlgorithmFlagsAtLocation end_ = beyond.head? := by
  have hskip : ∀ m ∈ before ++ inside, m.location < end_ := by
    intro m hm
    rcases List.mem_append.mp hm with hm | hm
    · exact (h.before_le m hm).trans_lt hlt
    · exact h.inside_lt m hm
  have hband : bandAt AlgorithmFlags.location (before ++ inside ++ beyond) end_ =
      bandAt AlgorithmFlags.location beyond end_ := bandAt_append_of_lt hskip beyond
  rw [List.append_assoc, ← h.all] at hband
  refine hband.trans ?_
  cases hbeyond : beyond with
  | nil => rfl
  | cons m beyond =>
    have hge := h.beyond_ge m (by rw [hbeyond]; exact List.mem_cons_self)
    rw [bandAt, List.find?_cons_of_pos (by simpa using hge), List.head?_cons]

theorem RangeParts.includingEnd_eq (h : RangeParts s.flags start end_ before inside beyond)
    (hlt : start < end_) : (s.getAlgorithmFlagsInRangeIncludingEnd start end_).flags =
      inside ++ beyond.head?.toList := by
  have hrange := h.inRange_eq hlt
  have hsorted := s.sorted
  rw [h.all] at hsorted
  unfold FlagSet.getAlgorithmFlagsInRangeIncludingEnd
  rw [h.flagsAtEnd hlt]
  cases hbeyond : beyond with
  | nil =>
    rw [hbeyond, List.filter_nil] at hrange
    exact hrange
  | cons m rest =>
    rw [hbeyond] at hrange hsorted
    have hrest : ∀ n ∈ rest, m.location < n.location :=
      (List.pairwise_cons.mp (List.pairwise_append.mp (List.pairwise_append.mp hsorted).2.1).2.1).1
    have hge : end_ ≤ m.location := h.beyond_ge m (by rw [hbeyond]; exact List.mem_cons_self)
    have hinside : ∀ n ∈ inside, n.location < m.location := fun n hn =>
      (h.inside_lt n hn).trans_le hge
    have hnone : rest.filter (fun n => decide (n.location ≤ end_)) = [] := by
      rw [List.filter_eq_nil_iff]
      intro n hn hin
      simp [not_le.mpr (hge.trans_lt (hrest n hn))] at hin
    show sorted_set.add (sorted_set.byKey AlgorithmFlags.location)
      (s.getAlgorithmFlagsInRange start end_).flags m = inside ++ [m]
    by_cases hend : m.location ≤ end_
    · rw [List.filter_cons_of_pos (by simpa using hend), hnone] at hrange
      have hstored := (s.getAlgorithmFlagsInRange start end_).sorted
      rw [hrange] at hstored ⊢
      refine sorted_set.add_of_last hstored ?_ (List.mem_append_right inside List.mem_cons_self) rfl
      intro n hn
      rcases List.mem_append.mp hn with hn | hn
      · exact (hinside n hn).le
      · rw [List.mem_singleton.mp hn]
    · rw [List.filter_cons_of_neg (by simpa using hend), hnone, List.append_nil] at hrange
      rw [hrange]
      exact sorted_set.add_of_lt hinside

end parts

/-! ## The window -/

section window

variable (algorithm : String)

def AlgorithmFlags.enables (flagset : AlgorithmFlags K) : Bool :=
  decide (algorithm ∉ flagset.disabledAlgorithms)

omit [LinearOrder K] in
theorem earliestLegalWindow_eq (earliest : K) (flags : List (AlgorithmFlags K)) :
    earliestLegalWindow algorithm earliest flags =
      lastKey AlgorithmFlags.location earliest
        (flags.takeWhile fun m => !m.enables algorithm) := by
  induction flags generalizing earliest with
  | nil => rfl
  | cons m flags ih =>
    unfold earliestLegalWindow
    by_cases hm : algorithm ∈ m.disabledAlgorithms
    · rw [if_pos hm, ih, List.takeWhile_cons_of_pos (by simp [AlgorithmFlags.enables, hm]),
        lastKey_cons]
    · rw [if_neg hm, List.takeWhile_cons_of_neg (by simp [AlgorithmFlags.enables, hm]), lastKey_nil]

theorem endOfWindow_skip {earliest end_ : K} {skipped : List (AlgorithmFlags K)}
    (h : ∀ m ∈ skipped, m.location ≤ earliest) (flags : List (AlgorithmFlags K)) :
    endOfWindow algorithm earliest end_ (skipped ++ flags) =
      endOfWindow algorithm earliest end_ flags := by
  induction skipped with
  | nil => rfl
  | cons m skipped ih =>
    rw [List.forall_mem_cons] at h
    rw [List.cons_append, endOfWindow, if_neg (not_lt.mpr h.1), ih h.2]

theorem endOfWindow_eq {earliest : K} {flags : List (AlgorithmFlags K)}
    (h : ∀ m ∈ flags, earliest < m.location) (end_ : K) :
    endOfWindow algorithm earliest end_ flags =
      lastKey AlgorithmFlags.location end_ (flags.takeWhile fun m => m.enables algorithm) := by
  induction flags generalizing end_ with
  | nil => rfl
  | cons m flags ih =>
    rw [List.forall_mem_cons] at h
    rw [endOfWindow, if_pos h.1]
    by_cases hm : algorithm ∉ m.disabledAlgorithms
    · rw [if_pos hm, ih h.2, List.takeWhile_cons_of_pos (by simpa [AlgorithmFlags.enables] using hm),
        lastKey_cons]
    · rw [if_neg hm, List.takeWhile_cons_of_neg (by simpa [AlgorithmFlags.enables] using hm),
        lastKey_nil]

end window

section spec

variable {s : FlagSet K} {start end_ : K} {before inside beyond : List (AlgorithmFlags K)}

theorem RangeParts.before_end (h : RangeParts s.flags start end_ before inside beyond) :
    (inside ++ beyond.head?.toList).Pairwise (fun m _ => m.location < end_) := by
  refine List.pairwise_append.mpr ⟨?_, ?_, fun m hm _ _ => h.inside_lt m hm⟩
  · exact List.pairwise_of_forall_mem_list fun m hm _ _ => h.inside_lt m hm
  · cases beyond.head? with
    | none => exact List.Pairwise.nil
    | some m => exact List.pairwise_singleton _ m

/-- The two loops end where the flags of the range that disable the algorithm at first end, and
those that enable it then. -/
theorem FlagSet.window_eq (s : FlagSet K) (start end_ : K) (algorithm : String)
    {flags : List (AlgorithmFlags K)}
    (hflags : (s.getAlgorithmFlagsInRangeIncludingEnd start end_).flags = flags)
    (hstart : ∀ m ∈ flags, start < m.location) :
    s.getAlgorithmEnabledWindowInRange start end_ algorithm =
      let lo := lastKey AlgorithmFlags.location start (flags.takeWhile fun m => !m.enables algorithm)
      let hi := min (lastKey AlgorithmFlags.location lo
        ((flags.dropWhile fun m => !m.enables algorithm).takeWhile fun m => m.enables algorithm)) end_
      if hi > lo then some (lo, hi) else none := by
  have hsorted := (s.getAlgorithmFlagsInRangeIncludingEnd start end_).sorted
  rw [hflags] at hsorted
  have hparts := List.takeWhile_append_dropWhile (p := fun m : AlgorithmFlags K =>
    !m.enables algorithm) (l := flags)
  have hsortedParts := hsorted
  rw [← hparts] at hsortedParts
  have hlater := lastKey_lt hsortedParts (by rw [hparts]; exact hstart)
  have hskip := key_le_lastKey (List.pairwise_append.mp hsortedParts).1 start
  have hend : ∀ lo, (∀ m ∈ flags.takeWhile fun m => !m.enables algorithm, m.location ≤ lo) →
      (∀ m ∈ flags.dropWhile fun m => !m.enables algorithm, lo < m.location) →
      endOfWindow algorithm lo lo flags = lastKey AlgorithmFlags.location lo
        ((flags.dropWhile fun m => !m.enables algorithm).takeWhile
          fun m => m.enables algorithm) := by
    intro lo hskip hlater
    conv_lhs => rw [← hparts]
    rw [endOfWindow_skip algorithm hskip]
    exact endOfWindow_eq algorithm hlater lo
  unfold FlagSet.getAlgorithmEnabledWindowInRange
  dsimp only
  rw [hflags, earliestLegalWindow_eq, hend _ hskip hlater]

theorem RangeParts.all_parts (h : RangeParts s.flags start end_ before inside beyond)
    {bad good after : List (AlgorithmFlags K)}
    (hparts : inside ++ beyond.head?.toList = bad ++ (good ++ after)) :
    s.flags = before ++ (bad ++ (good ++ (after ++ beyond.tail))) := by
  rw [h.all, ← List.append_assoc good, ← List.append_assoc bad, ← hparts, List.append_assoc]
  cases beyond <;> rfl

theorem RangeParts.end_le_lastKey (h : RangeParts s.flags start end_ before inside beyond)
    (hmore : beyond.tail ≠ []) (a : K) :
    end_ ≤ lastKey AlgorithmFlags.location a (inside ++ beyond.head?.toList) := by
  cases hbeyond : beyond with
  | nil =>
    rw [hbeyond] at hmore
    exact absurd rfl hmore
  | cons last more =>
    rw [lastKey_append]
    exact h.beyond_ge last (by rw [hbeyond]; exact List.mem_cons_self)

/-- Where the flags of the range do not all disable the algorithm, the first stretch ends where the
two loops do. -/
theorem RangeParts.firstStretch (h : RangeParts s.flags start end_ before inside beyond)
    (hlt : start < end_)
    (hstart : ∀ m ∈ inside ++ beyond.head?.toList, start < m.location) {algorithm : String}
    {m : AlgorithmFlags K} {rest : List (AlgorithmFlags K)}
    (hrest : (inside ++ beyond.head?.toList).dropWhile (fun m => !m.enables algorithm) = m :: rest)
    (hm : m.enables algorithm = true) :
    let lo := lastKey AlgorithmFlags.location start
      ((inside ++ beyond.head?.toList).takeWhile fun m => !m.enables algorithm)
    IsFirstStretch AlgorithmFlags.location (AlgorithmFlags.enables algorithm) s.flags start end_ lo
      (min (lastKey AlgorithmFlags.location lo ((m :: rest).takeWhile fun m => m.enables algorithm))
        end_) := by
  intro lo
  have hparts := List.takeWhile_append_dropWhile (p := fun m : AlgorithmFlags K =>
    !m.enables algorithm) (l := inside ++ beyond.head?.toList)
  have hgoods := List.takeWhile_append_dropWhile (p := fun m : AlgorithmFlags K =>
    m.enables algorithm) (l := m :: rest)
  rw [hrest] at hparts
  have hsplit := hparts.symm
  rw [← hgoods] at hsplit
  have hsorted := s.sorted
  rw [h.all_parts hsplit] at hsorted ⊢
  apply isFirstStretch_of_parts hsorted h.before_le
  · intro n hn
    refine hstart n ?_
    rw [hsplit, ← List.append_assoc]
    exact List.mem_append_left _ hn
  · exact fun n hn => by simpa using List.mem_takeWhile_imp hn
  · exact fun n hn => List.mem_takeWhile_imp hn
  · rw [List.takeWhile_cons_of_pos hm]
    exact List.cons_ne_nil _ _
  · -- flags that others of the range come after end before the range does
    by_cases hnil : (inside ++ beyond.head?.toList).takeWhile (fun m => !m.enables algorithm) = []
    · rw [hnil]
      exact hlt
    · have hbefore := h.before_end
      rw [← hparts, List.pairwise_append] at hbefore
      obtain ⟨n, hn, hkey⟩ := lastKey_mem start hnil
      exact hkey.trans_lt (hbefore.2.2 n hn m List.mem_cons_self)
  · intro n hn
    cases hdrop : (m :: rest).dropWhile fun m => m.enables algorithm with
    | nil =>
      rw [hdrop, List.nil_append] at hn
      rw [hdrop, List.append_nil] at hsplit
      have hreach := h.end_le_lastKey (List.ne_nil_of_mem (List.mem_of_mem_head? hn)) start
      rw [hsplit, lastKey_append] at hreach
      exact Or.inr hreach
    | cons last more =>
      have hhead := List.head?_dropWhile_not (fun m : AlgorithmFlags K => m.enables algorithm)
        (m :: rest)
      rw [hdrop] at hhead hn
      obtain rfl : last = n := Option.some.inj hn
      exact Or.inl hhead

/-- There is a window just when the algorithm is enabled somewhere, and it is the first stretch of
the range where it is. -/
theorem FlagSet.window_spec (s : FlagSet K) {start end_ : K} (hlt : start < end_)
    (algorithm : String) :
    (s.getAlgorithmEnabledWindowInRange start end_ algorithm ≠ none ↔
      s.isAlgorithmEnabledInRange start end_ algorithm = true) ∧
    ∀ window, s.getAlgorithmEnabledWindowInRange start end_ algorithm = some window →
      IsFirstStretch AlgorithmFlags.location (AlgorithmFlags.enables algorithm) s.flags start end_
        window.1 window.2 := by
  obtain ⟨before, inside, beyond, h⟩ := rangeParts s.sorted start end_
  have hflags := h.includingEnd_eq hlt
  have hstart : ∀ m ∈ inside ++ beyond.head?.toList, start < m.location := by
    intro m hm
    rcases List.mem_append.mp hm with hm | hm
    · exact h.inside_gt m hm
    · exact hlt.trans_le (h.beyond_ge m (List.mem_of_mem_head? (Option.mem_toList.mp hm)))
  have hwindow := s.window_eq start end_ algorithm hflags hstart
  have henabled : s.isAlgorithmEnabledInRange start end_ algorithm =
      (inside ++ beyond.head?.toList).any (AlgorithmFlags.enables algorithm) := by
    unfold FlagSet.isAlgorithmEnabledInRange
    rw [hflags]
    rfl
  cases hrest : (inside ++ beyond.head?.toList).dropWhile fun m => !m.enables algorithm with
  | nil =>
    -- the algorithm is disabled in the whole range
    have hnone : s.getAlgorithmEnabledWindowInRange start end_ algorithm = none := by
      rw [hwindow, hrest]
      exact if_neg (not_lt.mpr (min_le_left _ _))
    have hfalse : s.isAlgorithmEnabledInRange start end_ algorithm = false := by
      rw [henabled, List.any_eq_false]
      intro m hm
      simpa using List.dropWhile_eq_nil_iff.mp hrest m hm
    rw [hnone, hfalse]
    exact ⟨by simp, fun window hsome => by cases hsome⟩
  | cons m rest =>
    have hm : m.enables algorithm = true := by
      have hhead := List.head?_dropWhile_not (fun m : AlgorithmFlags K => !m.enables algorithm)
        (inside ++ beyond.head?.toList)
      rw [hrest] at hhead
      simpa using hhead
    have hfirst := h.firstStretch hlt hstart hrest hm
    rw [hrest] at hwindow
    have hsome := hwindow.trans (if_pos hfirst.lt)
    have htrue : s.isAlgorithmEnabledInRange start end_ algorithm = true := by
      rw [henabled, List.any_eq_true]
      exact ⟨m, (List.dropWhile_sublist _).subset (hrest ▸ List.mem_cons_self), hm⟩
    rw [hsome, htrue]
    refine ⟨by simp, fun window heq => ?_⟩
    rw [← Option.some.inj heq]
    exact hfirst

end spec

/-! ## The window on the route -/

section route

variable [Field K]

/-- The flags of a segment that ends at a place. -/
def flagsOf (place : K) (seg : RouteSegment K F) : AlgorithmFlags K :=
  ⟨place, seg.downtrackWP.disabledGuidanceAlgorithms⟩

theorem segmentFlags_eq (dtdAccum : K) (out : FlagSet K) (segs : List (RouteSegment K F)) :
    (segmentFlags dtdAccum out segs).flags =
      sorted_set.addAll (sorted_set.byKey AlgorithmFlags.location) out.flags
        (segmentEnds flagsOf dtdAccum segs) := by
  exact segmentEnds_of_loop (fun _ _ => rfl) (fun _ _ => rfl) (fun _ _ _ _ => rfl) dtdAccum out segs

/-- The window is the first stretch of the range on which the segments of the route enable the
algorithm, as far as they do, and there is one just when `isAlgorithmEnabledInRange` says so. A
place where two segments meet is of the one that ends there. -/
theorem the_enabled_window_is_the_first_stretch_that_is_enabled [IsStrictOrderedRing K]
    (route : Route K F) (hlengths : ∀ seg ∈ route.segments, 0 ≤ seg.length) (start end_ : K)
    (hlt : start < end_) (algorithm : String) :
    ((processAlgorithms route).getAlgorithmEnabledWindowInRange start end_ algorithm ≠ none ↔
      (processAlgorithms route).isAlgorithmEnabledInRange start end_ algorithm = true) ∧
    ∀ window,
      (processAlgorithms route).getAlgorithmEnabledWindowInRange start end_ algorithm = some window →
      IsFirstStretch AlgorithmFlags.location (AlgorithmFlags.enables algorithm)
        (segmentEnds flagsOf 0 route.segments) start end_ window.1 window.2 := by
  obtain ⟨hiff, hfirst⟩ := (processAlgorithms route).window_spec hlt algorithm
  refine ⟨hiff, fun window hwindow => (hfirst window hwindow).congr fun place => ?_⟩
  unfold processAlgorithms bandAt
  rw [segmentFlags_eq]
  exact (sorted_set.find?_addAll List.Pairwise.nil
    (segmentEnds_pairwise (fun _ _ => rfl) hlengths 0) place).symm

end route

/-- Platooning is disabled on the first and the last of three segments. -/
def platooningBetween : Route ℚ ℚ :=
  route_node.newRoute route_node.flatEarth
    [route_node.flatWaypoint 0 0,
      { route_node.flatWaypoint 10 0 with disabledGuidanceAlgorithms := ["PLATOONING"] },
      route_node.flatWaypoint 20 0,
      { route_node.flatWaypoint 30 0 with disabledGuidanceAlgorithms := ["PLATOONING"] }]
    "platooning_between" "Platooning Between"

theorem the_middle_segment_is_the_window :
    ((processAlgorithms platooningBetween).getAlgorithmEnabledWindowInRange 5 28 "PLATOONING" ≠ none ↔
      (processAlgorithms platooningBetween).isAlgorithmEnabledInRange 5 28 "PLATOONING" = true) ∧
    ∀ window,
      (processAlgorithms platooningBetween).getAlgorithmEnabledWindowInRange 5 28 "PLATOONING" =
        some window →
      IsFirstStretch AlgorithmFlags.location (AlgorithmFlags.enables "PLATOONING")
        (segmentEnds flagsOf 0 platooningBetween.segments) 5 28 window.1 window.2 :=
  the_enabled_window_is_the_first_stretch_that_is_enabled platooningBetween
    (built_lengths (fun p q => abs_nonneg (q - p)) _) 5 28 (by norm_num) "PLATOONING"

example : (processAlgorithms platooningBetween).getAlgorithmEnabledWindowInRange 5 28 "PLATOONING" =
    some (10, 20) := by decide +kernel

end carma.route_service
