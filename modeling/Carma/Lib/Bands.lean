-- Bands along a line: each mark ends a band, and a place is in the band of the first mark at or
-- past it. Some bands are good, and the first stretch of good ones in a range is where a search
-- along the marks finds it.
import Mathlib.Data.List.Pairwise
import Mathlib.Order.MinMax

namespace lib.bands

variable {α K : Type*} (key : α → K)

/-- Where the last band ends, or `a` without one. -/
def lastKey (a : K) (marks : List α) : K := marks.foldl (fun _ m => key m) a

variable [LinearOrder K]

/-- The mark that ends the band of a place. -/
def bandAt (marks : List α) (place : K) : Option α := marks.find? fun m => decide (place ≤ key m)

/-- The place is in a good band. -/
def Good (p : α → Bool) (marks : List α) (place : K) : Prop :=
  ∃ m, bandAt key marks place = some m ∧ p m = true

/-- All is good from `lo` on, as far as `hi`. -/
def AllGood (p : α → Bool) (marks : List α) (lo hi : K) : Prop :=
  ∀ place, lo < place → place ≤ hi → Good key p marks place

/-- Between `a` and `b` all is good from `lo` to `hi`: nothing that is good starts before `lo`, and
from there it does not go on past `hi`. -/
structure IsFirstStretch (p : α → Bool) (marks : List α) (a b lo hi : K) : Prop where
  start_le : a ≤ lo
  lt : lo < hi
  le_end : hi ≤ b
  allGood : AllGood key p marks lo hi
  earliest : ∀ lo' hi', a ≤ lo' → lo' < hi' → hi' ≤ b → AllGood key p marks lo' hi' → lo ≤ lo'
  longest : ∀ hi', hi' ≤ b → AllGood key p marks lo hi' → hi' ≤ hi

variable {key}

section last

omit [LinearOrder K]

@[simp] theorem lastKey_nil (a : K) : lastKey key a [] = a := rfl

@[simp] theorem lastKey_cons (a : K) (m : α) (marks : List α) :
    lastKey key a (m :: marks) = lastKey key (key m) marks := rfl

theorem lastKey_append (a : K) (marks rest : List α) :
    lastKey key a (marks ++ rest) = lastKey key (lastKey key a marks) rest := List.foldl_append

theorem lastKey_mem (a : K) {marks : List α} (hne : marks ≠ []) :
    ∃ m ∈ marks, lastKey key a marks = key m := by
  induction marks generalizing a with
  | nil => exact absurd rfl hne
  | cons m marks ih =>
    by_cases hrest : marks = []
    · exact ⟨m, List.mem_cons_self, by rw [hrest, lastKey_cons, lastKey_nil]⟩
    · obtain ⟨last, hlast, hkey⟩ := ih (key m) hrest
      exact ⟨last, List.mem_cons_of_mem m hlast, hkey⟩

end last

theorem lt_lastKey {a : K} {marks : List α} (hne : marks ≠ []) (h : ∀ m ∈ marks, a < key m) :
    a < lastKey key a marks := by
  obtain ⟨m, hm, hkey⟩ := lastKey_mem a hne
  rw [hkey]
  exact h m hm

theorem le_lastKey {a : K} {marks : List α} (h : ∀ m ∈ marks, a < key m) :
    a ≤ lastKey key a marks := by
  by_cases hne : marks = []
  · rw [hne, lastKey_nil]
  · exact (lt_lastKey hne h).le

theorem key_le_lastKey {marks : List α} (h : marks.Pairwise fun m n => key m < key n) (a : K) :
    ∀ m ∈ marks, key m ≤ lastKey key a marks := by
  induction marks generalizing a with
  | nil => exact fun m hm => absurd hm List.not_mem_nil
  | cons m marks ih =>
    rw [List.pairwise_cons] at h
    rw [List.forall_mem_cons]
    exact ⟨le_lastKey h.1, ih h.2 (key m)⟩

theorem lastKey_lt {a : K} {marks rest : List α}
    (h : (marks ++ rest).Pairwise fun m n => key m < key n) (ha : ∀ m ∈ marks ++ rest, a < key m) :
    ∀ m ∈ rest, lastKey key a marks < key m := by
  intro m hm
  by_cases hnil : marks = []
  · rw [hnil, lastKey_nil]
    exact ha m (List.mem_append_right marks hm)
  · obtain ⟨n, hn, hkey⟩ := lastKey_mem a hnil
    rw [hkey]
    exact (List.pairwise_append.mp h).2.2 n hn m hm

theorem bandAt_append_of_le {a place : K} {marks : List α} (hpast : a < place)
    (hle : place ≤ lastKey key a marks) (rest : List α) :
    ∃ m ∈ marks, bandAt key (marks ++ rest) place = some m := by
  induction marks generalizing a with
  | nil => exact absurd hle (not_le.mpr hpast)
  | cons m marks ih =>
    unfold bandAt
    by_cases hhere : place ≤ key m
    · refine ⟨m, List.mem_cons_self, ?_⟩
      rw [List.cons_append, List.find?_cons_of_pos (by simpa using hhere)]
    · obtain ⟨n, hn, hband⟩ := ih (not_le.mp hhere) hle
      refine ⟨n, List.mem_cons_of_mem m hn, ?_⟩
      rw [List.cons_append, List.find?_cons_of_neg (by simpa using hhere)]
      exact hband

theorem bandAt_append_of_lt {place : K} {marks : List α} (h : ∀ m ∈ marks, key m < place)
    (rest : List α) : bandAt key (marks ++ rest) place = bandAt key rest place := by
  have hnone : marks.find? (fun m => decide (place ≤ key m)) = none :=
    List.find?_eq_none.mpr fun m hm => by simpa using h m hm
  unfold bandAt
  rw [List.find?_append, hnone, Option.none_or]

/-- A place past some marks, but not past the last of those after them, is in the band of one of
these. -/
theorem bandAt_middle {a place : K} {before marks : List α} (hbefore : ∀ m ∈ before, key m ≤ a)
    (hpast : a < place) (hle : place ≤ lastKey key a marks) (rest : List α) :
    ∃ m ∈ marks, bandAt key (before ++ (marks ++ rest)) place = some m := by
  obtain ⟨m, hm, hband⟩ := bandAt_append_of_le hpast hle rest
  refine ⟨m, hm, ?_⟩
  rw [bandAt_append_of_lt (fun n hn => (hbefore n hn).trans_lt hpast), hband]

theorem not_good_after {p : α → Bool} {marks : List α} {a place : K} (hpast : a < place)
    (hnext : ∀ m ∈ marks.head?, a < key m ∧ p m = false) :
    ∃ place', a < place' ∧ place' ≤ place ∧ ∀ m, bandAt key marks place' = some m → p m = false := by
  cases marks with
  | nil => exact ⟨place, hpast, le_rfl, nofun⟩
  | cons n marks =>
    obtain ⟨hlt, hn⟩ := hnext n rfl
    refine ⟨min place (key n), lt_min hpast hlt, min_le_left _ _, fun m hm => ?_⟩
    rw [bandAt, List.find?_cons_of_pos (by simp)] at hm
    rwa [← Option.some.inj hm]

/-- Past the bad bands at the start of a range come good ones, as far as the next bad one or the
end of the range: that is the first stretch. -/
theorem isFirstStretch_of_parts {p : α → Bool} {before bad good after : List α} {a b : K}
    (hsorted : (before ++ (bad ++ (good ++ after))).Pairwise fun m n => key m < key n)
    (hbefore : ∀ m ∈ before, key m ≤ a) (hstart : ∀ m ∈ bad ++ good, a < key m)
    (hbad : ∀ m ∈ bad, p m = false) (hgood : ∀ m ∈ good, p m = true) (hne : good ≠ [])
    (hroom : lastKey key a bad < b)
    (hafter : ∀ m ∈ after.head?, p m = false ∨ b ≤ lastKey key (lastKey key a bad) good) :
    IsFirstStretch key p (before ++ (bad ++ (good ++ after))) a b (lastKey key a bad)
      (min (lastKey key (lastKey key a bad) good) b) := by
  have hrest := (List.pairwise_append.mp hsorted).2.1
  have hgoods := (List.pairwise_append.mp hrest).2.1
  have hlo : a ≤ lastKey key a bad :=
    le_lastKey fun m hm => hstart m (List.mem_append_left good hm)
  have hbadGood : (bad ++ good).Pairwise fun m n => key m < key n := by
    rw [← List.append_assoc] at hrest
    exact (List.pairwise_append.mp hrest).1
  have hhi := lt_lastKey hne (lastKey_lt hbadGood hstart)
  -- no mark of the bad bands and before is past their last one, and so with the good ones
  have hskipBad : ∀ m ∈ before ++ bad, key m ≤ lastKey key a bad := by
    refine List.forall_mem_append.mpr ⟨fun m hm => (hbefore m hm).trans hlo, ?_⟩
    exact key_le_lastKey (List.pairwise_append.mp hrest).1 a
  have hskipGood : ∀ m ∈ before ++ bad ++ good, key m ≤ lastKey key (lastKey key a bad) good := by
    refine List.forall_mem_append.mpr ⟨fun m hm => (hskipBad m hm).trans hhi.le, ?_⟩
    exact key_le_lastKey (List.pairwise_append.mp hgoods).1 (lastKey key a bad)
  refine ⟨hlo, lt_min hhi hroom, min_le_right _ _, ?_, ?_, ?_⟩
  · intro place hpast hle
    obtain ⟨m, hm, hband⟩ := bandAt_middle hskipBad hpast (hle.trans (min_le_left _ _)) after
    rw [List.append_assoc] at hband
    exact ⟨m, hband, hgood m hm⟩
  · intro lo' hi' ha hlt hb hall
    by_contra hbeforeLo
    -- a place in a bad band, past `lo'` and not past `hi'`
    have hpast : lo' < min hi' (lastKey key a bad) := lt_min hlt (not_le.mp hbeforeLo)
    obtain ⟨m, hband, hm⟩ := hall _ hpast (min_le_left _ _)
    obtain ⟨n, hn, hbandBad⟩ := bandAt_middle hbefore (ha.trans_lt hpast)
      (min_le_right hi' (lastKey key a bad)) (good ++ after)
    rw [hbandBad] at hband
    rw [← Option.some.inj hband, hbad n hn] at hm
    cases hm
  · intro hi' hb hall
    by_contra hlonger
    have hlast : lastKey key (lastKey key a bad) good < hi' :=
      (min_lt_iff.mp (not_le.mp hlonger)).resolve_right (not_lt.mpr hb)
    have hnext : ∀ n ∈ after.head?, lastKey key (lastKey key a bad) good < key n ∧ p n = false := by
      intro n hn
      refine ⟨?_, (hafter n hn).resolve_right (not_le.mpr (hlast.trans_le hb))⟩
      obtain ⟨m, hm, hkey⟩ := lastKey_mem (lastKey key a bad) hne
      rw [hkey]
      exact (List.pairwise_append.mp hgoods).2.2 m hm n (List.mem_of_mem_head? hn)
    obtain ⟨place, hpast, hle, hfalse⟩ := not_good_after hlast hnext
    obtain ⟨m, hband, hm⟩ := hall place (hhi.trans hpast) hle
    rw [← List.append_assoc, ← List.append_assoc,
      bandAt_append_of_lt fun n hn => (hskipGood n hn).trans_lt hpast] at hband
    rw [hfalse m hband] at hm
    cases hm

theorem IsFirstStretch.congr {p : α → Bool} {marks marks' : List α} {a b lo hi : K}
    (h : IsFirstStretch key p marks a b lo hi)
    (hband : ∀ place, bandAt key marks' place = bandAt key marks place) :
    IsFirstStretch key p marks' a b lo hi := by
  have hall : AllGood key p marks' = AllGood key p marks := by
    funext lo hi
    unfold AllGood Good
    simp only [hband]
  obtain ⟨hstart, hlt, hend, hgood, hearliest, hlongest⟩ := h
  rw [← hall] at hgood hearliest hlongest
  exact ⟨hstart, hlt, hend, hgood, hearliest, hlongest⟩

end lib.bands
