-- Free windows between busy stretches: where a window of a given size fits into the
-- gaps that the stretches leave, first and last.
import Mathlib.Algebra.Order.Group.Defs
import Mathlib.Order.Bounds.Defs
import Mathlib.Data.List.Basic
import Mathlib.Algebra.Order.Sub.Defs
import Mathlib.Algebra.Order.Group.Unbundled.Basic

namespace lib.free_windows

variable {K : Type*}

/-! ## Stretches and gaps -/

/-- The gaps before, between and after the stretches. -/
def gaps (lo hi : K) : List (K × K) → List (K × K)
  | [] => [(lo, hi)]
  | (s, e) :: rest => (lo, s) :: gaps e hi rest

theorem gaps_append (lo hi s e : K) (busy : List (K × K)) :
    gaps lo hi (busy ++ [(s, e)]) = gaps lo s busy ++ [(e, hi)] := by
  induction busy generalizing lo with
  | nil => rfl
  | cons b rest ih =>
    rw [List.cons_append, gaps, ih]
    rfl

variable [LinearOrder K]

/-- The stretches follow each other between `lo` and `hi`. -/
def InOrder (lo hi : K) : List (K × K) → Prop
  | [] => True
  | (s, e) :: rest => lo ≤ s ∧ s ≤ e ∧ e ≤ hi ∧ InOrder e hi rest

theorem inOrder_le {lo hi : K} {busy : List (K × K)} (h : InOrder lo hi busy) :
    ∀ b ∈ busy, lo ≤ b.1 ∧ b.1 ≤ b.2 ∧ b.2 ≤ hi := by
  induction busy generalizing lo with
  | nil => simp
  | cons a rest ih =>
    obtain ⟨hlo, hse, hhi, hrest⟩ := h
    intro b hb
    rcases List.mem_cons.mp hb with rfl | hb
    · exact ⟨hlo, hse, hhi⟩
    · obtain ⟨hb1, hb2, hb3⟩ := ih hrest b hb
      exact ⟨hlo.trans (hse.trans hb1), hb2, hb3⟩

/-- A list whose members lie between the bounds, one after the other, is in order. -/
theorem inOrder_of_pairwise {lo hi : K} {busy : List (K × K)}
    (hin : ∀ b ∈ busy, lo ≤ b.1 ∧ b.1 ≤ b.2 ∧ b.2 ≤ hi)
    (hpair : busy.Pairwise (fun a b => a.2 ≤ b.1)) : InOrder lo hi busy := by
  induction busy generalizing lo with
  | nil => trivial
  | cons a rest ih =>
    obtain ⟨hfirst, hrest⟩ := List.pairwise_cons.mp hpair
    obtain ⟨h1, h2, h3⟩ := hin a List.mem_cons_self
    refine ⟨h1, h2, h3, ih ?_ hrest⟩
    intro b hb
    exact ⟨hfirst b hb, (hin b (List.mem_cons_of_mem a hb)).2⟩

/-- A gap after another starts where the other ends, or later. -/
theorem gaps_pairwise {lo hi : K} {busy : List (K × K)} (h : InOrder lo hi busy) :
    (gaps lo hi busy).Pairwise (fun g g' => g.2 ≤ g'.1) := by
  have hstart : ∀ {lo : K} {busy : List (K × K)}, InOrder lo hi busy →
      ∀ g ∈ gaps lo hi busy, lo ≤ g.1 := by
    intro lo busy
    induction busy generalizing lo with
    | nil =>
      intro _ g hg
      rw [List.mem_singleton.mp hg]
    | cons a rest ih =>
      rintro ⟨hlo, hse, -, hrest⟩ g hg
      rcases List.mem_cons.mp hg with rfl | hg
      · exact le_rfl
      · exact hlo.trans (hse.trans (ih hrest g hg))
  induction busy generalizing lo with
  | nil => exact List.pairwise_singleton _ _
  | cons a rest ih =>
    obtain ⟨-, hse, -, hrest⟩ := h
    refine List.pairwise_cons.mpr ⟨?_, ih hrest⟩
    intro g hg
    exact hse.trans (hstart hrest g hg)

/-! ## A gap that is filled -/

theorem inOrder_pairwise {lo hi : K} {busy : List (K × K)} (h : InOrder lo hi busy) :
    busy.Pairwise (fun a b => a.2 ≤ b.1) := by
  induction busy generalizing lo with
  | nil => exact List.Pairwise.nil
  | cons a rest ih =>
    obtain ⟨-, -, -, hrest⟩ := h
    exact List.pairwise_cons.mpr ⟨fun b hb => (inOrder_le hrest b hb).1, ih hrest⟩

theorem inOrder_unique {lo hi : K} {busy busy' : List (K × K)} (h : InOrder lo hi busy)
    (h' : InOrder lo hi busy') (hpos : ∀ b ∈ busy, b.1 < b.2) (hpos' : ∀ b ∈ busy', b.1 < b.2)
    (hmem : ∀ b, b ∈ busy ↔ b ∈ busy') : busy = busy' := by
  have hsorted : ∀ {l : List (K × K)}, InOrder lo hi l → (∀ b ∈ l, b.1 < b.2) →
      l.Pairwise (fun a b => a.1 < b.1) := fun hl hl' =>
    (inOrder_pairwise hl).imp_of_mem (fun ha _ hab => (hl' _ ha).trans_le hab)
  have hfirst := hsorted h hpos
  have hsecond := hsorted h' hpos'
  have hnodup : ∀ {l : List (K × K)}, l.Pairwise (fun a b => a.1 < b.1) → l.Nodup := fun hl =>
    hl.imp (fun hab heq => (heq ▸ hab).false)
  refine List.Perm.eq_of_pairwise ?_ hfirst hsecond
    ((List.perm_ext_iff_of_nodup (hnodup hfirst) (hnodup hsecond)).mpr hmem)
  exact fun a b _ _ hab hba => absurd hab hba.asymm

theorem gap_bounds {lo hi : K} {busy : List (K × K)} (h : InOrder lo hi busy) {g : K × K}
    (hg : g ∈ gaps lo hi busy) : lo ≤ g.1 ∧ g.2 ≤ hi ∧ (∀ b ∈ busy, b.2 ≤ g.1 ∨ g.2 ≤ b.1) ∧
      (g.2 = hi ∨ ∃ b ∈ busy, b.1 = g.2) := by
  induction busy generalizing lo with
  | nil =>
    obtain rfl := List.mem_singleton.mp hg
    exact ⟨le_rfl, le_rfl, nofun, Or.inl rfl⟩
  | cons a rest ih =>
    obtain ⟨hlo, hse, hhi, hrest⟩ := h
    rcases List.mem_cons.mp hg with rfl | hg
    · refine ⟨le_rfl, hse.trans hhi, ?_, Or.inr ⟨a, List.mem_cons_self, rfl⟩⟩
      refine List.forall_mem_cons.mpr ⟨Or.inr le_rfl, fun b hb => Or.inr ?_⟩
      exact hse.trans (inOrder_le hrest b hb).1
    · obtain ⟨hstart, hend, hclear, hupTo⟩ := ih hrest hg
      refine ⟨hlo.trans (hse.trans hstart), hend, ?_, ?_⟩
      · exact List.forall_mem_cons.mpr ⟨Or.inl hstart, hclear⟩
      · exact hupTo.imp_right (fun ⟨b, hb, heq⟩ => ⟨b, List.mem_cons_of_mem a hb, heq⟩)

/-- A gap that is filled leaves two of no length, one at each of its ends. -/
theorem gaps_fill {lo hi : K} {busy : List (K × K)} (h : InOrder lo hi busy)
    {before after : List (K × K)} {g : K × K} (hg : gaps lo hi busy = before ++ g :: after)
    (hle : g.1 ≤ g.2) : ∃ earlier later, busy = earlier ++ later ∧
      InOrder lo hi (earlier ++ g :: later) ∧
      gaps lo hi (earlier ++ g :: later) = before ++ (g.1, g.1) :: (g.2, g.2) :: after := by
  induction busy generalizing lo before with
  | nil =>
    rw [gaps, List.singleton_eq_append_iff] at hg
    rcases hg with ⟨rfl, heq⟩ | ⟨-, hnone⟩
    · obtain ⟨rfl, rfl⟩ := List.cons_eq_cons.mp heq
      exact ⟨[], [], rfl, ⟨le_rfl, hle, le_rfl, trivial⟩, rfl⟩
    · cases hnone
  | cons a rest ih =>
    obtain ⟨s, e⟩ := a
    obtain ⟨hlo, hse, hhi, hrest⟩ := h
    cases before with
    | nil =>
      obtain ⟨rfl, rfl⟩ := List.cons_eq_cons.mp hg
      exact ⟨[], (s, e) :: rest, rfl, ⟨le_rfl, hlo, hse.trans hhi, le_rfl, hse, hhi, hrest⟩, rfl⟩
    | cons b before =>
      obtain ⟨rfl, hlater⟩ := List.cons_eq_cons.mp hg
      obtain ⟨earlier, later, rfl, horder, hgaps⟩ := ih hrest hlater
      exact ⟨(s, e) :: earlier, later, rfl, ⟨hlo, hse, hhi, horder⟩, congrArg ((lo, s) :: ·) hgaps⟩

/-- However it is that the gap was filled. -/
theorem gaps_of_filled {lo hi : K} {busy busy' : List (K × K)} (h : InOrder lo hi busy)
    (h' : InOrder lo hi busy') (hpos' : ∀ b ∈ busy', b.1 < b.2) {g : K × K}
    (hmem : ∀ b, b ∈ busy' ↔ b = g ∨ b ∈ busy) {before after : List (K × K)}
    (hg : gaps lo hi busy = before ++ g :: after) :
    gaps lo hi busy' = before ++ (g.1, g.1) :: (g.2, g.2) :: after := by
  have hle := (hpos' g ((hmem g).mpr (Or.inl rfl))).le
  obtain ⟨earlier, later, hparts, horder, hgaps⟩ := gaps_fill h hg hle
  have hsame : ∀ b, b ∈ busy' ↔ b ∈ earlier ++ g :: later := by
    intro b
    rw [hmem, hparts, List.mem_append, List.mem_append, List.mem_cons]
    tauto
  rw [inOrder_unique h' horder hpos' (fun b hb => hpos' b ((hsame b).mpr hb)) hsame, hgaps]

/-! ## Windows -/

variable [AddCommGroup K]

/-- The window `[x, x + size)` lies between the bounds and meets no stretch. -/
def Free (lo hi : K) (busy : List (K × K)) (size x : K) : Prop :=
  lo ≤ x ∧ x + size ≤ hi ∧ ∀ b ∈ busy, x + size ≤ b.1 ∨ b.2 ≤ x

/-- A gap has room for a window. -/
def fits (size : K) (g : K × K) : Bool := decide (size ≤ g.2 - g.1)

theorem fits_iff [IsOrderedAddMonoid K] {size : K} {g : K × K} : fits size g = true ↔ g.1 + size ≤ g.2 := by
  unfold fits
  rw [decide_eq_true_eq, le_sub_iff_add_le']

theorem free_iff {lo hi : K} {busy : List (K × K)} (h : InOrder lo hi busy) (size x : K) :
    Free lo hi busy size x ↔ ∃ g ∈ gaps lo hi busy, g.1 ≤ x ∧ x + size ≤ g.2 := by
  induction busy generalizing lo with
  | nil => simp [Free, gaps]
  | cons b rest ih =>
    obtain ⟨s, e⟩ := b
    obtain ⟨hlo, hse, hhi, hrest⟩ := h
    have hlater : ∀ b ∈ rest, e ≤ b.1 := fun b hb => (inOrder_le hrest b hb).1
    have hstep : Free lo hi ((s, e) :: rest) size x ↔
        (lo ≤ x ∧ x + size ≤ s) ∨ Free e hi rest size x := by
      unfold Free
      rw [List.forall_mem_cons]
      constructor
      · rintro ⟨hx, hend, hbefore | hafter, hothers⟩
        · exact Or.inl ⟨hx, hbefore⟩
        · exact Or.inr ⟨hafter, hend, hothers⟩
      · rintro (⟨hx, hbefore⟩ | ⟨hafter, hend, hothers⟩)
        · refine ⟨hx, hbefore.trans (hse.trans hhi), Or.inl hbefore, ?_⟩
          exact fun b hb => Or.inl (hbefore.trans (hse.trans (hlater b hb)))
        · exact ⟨hlo.trans (hse.trans hafter), hend, Or.inr hafter, hothers⟩
    simp only [hstep, ih hrest, gaps, List.exists_mem_cons_iff]

/-- The first gap with room. -/
def firstFit (size : K) (gs : List (K × K)) : Option (K × K) := gs.find? (fits size)

/-- The last gap with room. -/
def lastFit (size : K) (gs : List (K × K)) : Option (K × K) := gs.reverse.find? (fits size)

theorem lastFit_cons (size : K) (g : K × K) (gs : List (K × K)) :
    lastFit size (g :: gs) = (lastFit size gs).or (if fits size g then some g else none) := by
  unfold lastFit
  rw [List.reverse_cons, List.find?_append, List.find?_singleton]

section search

variable [IsOrderedAddMonoid K] {lo hi : K} {busy : List (K × K)} (h : InOrder lo hi busy) {size : K}

include h

theorem free_fits {x : K} (hx : Free lo hi busy size x) :
    ∃ g ∈ gaps lo hi busy, fits size g = true ∧ g.1 ≤ x ∧ x + size ≤ g.2 := by
  obtain ⟨g, hg, hgx, hxg⟩ := (free_iff h size x).mp hx
  exact ⟨g, hg, fits_iff.mpr ((add_le_add_left hgx size).trans hxg), hgx, hxg⟩

theorem none_free_of_firstFit_none (hnone : firstFit size (gaps lo hi busy) = none) :
    ¬ Set.Nonempty {x | Free lo hi busy size x} := by
  rintro ⟨x, hx⟩
  obtain ⟨g, hg, hfit, -⟩ := free_fits h hx
  exact absurd hfit (List.find?_eq_none.mp hnone g hg)

theorem firstFit_isLeast (hsize : 0 < size) {g : K × K}
    (hfirst : firstFit size (gaps lo hi busy) = some g) :
    IsLeast {x | Free lo hi busy size x} g.1 := by
  obtain ⟨hfit, before, after, hsplit, hnone⟩ := List.find?_eq_some_iff_append.mp hfirst
  have hroom := fits_iff.mp hfit
  constructor
  · exact (free_iff h size g.1).mpr ⟨g, by rw [hsplit]; simp, le_rfl, hroom⟩
  · intro x hx
    obtain ⟨g', hg', hfit', hgx, -⟩ := free_fits h hx
    have hpair := gaps_pairwise h
    rw [hsplit] at hg' hpair
    rcases List.mem_append.mp hg' with hg' | hg'
    · simpa [hfit'] using hnone g' hg'
    · rcases List.mem_cons.mp hg' with rfl | hg'
      · exact hgx
      · have hlater := (List.pairwise_cons.mp (List.pairwise_append.mp hpair).2.1).1 g' hg'
        have hlong : g.1 ≤ g.2 := (le_add_of_nonneg_right hsize.le).trans hroom
        exact hlong.trans (hlater.trans hgx)

theorem none_free_of_lastFit_none (hnone : lastFit size (gaps lo hi busy) = none) :
    ¬ Set.Nonempty {x | Free lo hi busy size x} := by
  rintro ⟨x, hx⟩
  obtain ⟨g, hg, hfit, -⟩ := free_fits h hx
  exact absurd hfit (List.find?_eq_none.mp hnone g (List.mem_reverse.mpr hg))

theorem lastFit_isGreatest (hsize : 0 < size) {g : K × K}
    (hlast : lastFit size (gaps lo hi busy) = some g) :
    IsGreatest {x | Free lo hi busy size x} (g.2 - size) := by
  obtain ⟨hfit, after, before, hsplit, hnone⟩ := List.find?_eq_some_iff_append.mp hlast
  have hroom := fits_iff.mp hfit
  have hgaps : gaps lo hi busy = before.reverse ++ g :: after.reverse := by
    rw [← List.reverse_reverse (gaps lo hi busy), hsplit]
    simp
  constructor
  · refine (free_iff h size _).mpr ⟨g, by rw [hgaps]; simp, ?_, ?_⟩
    · exact le_sub_iff_add_le.mpr hroom
    · rw [sub_add_cancel]
  · intro x hx
    obtain ⟨g', hg', hfit', -, hxg⟩ := free_fits h hx
    apply le_sub_iff_add_le.mpr
    have hpair := gaps_pairwise h
    rw [hgaps] at hg' hpair
    rcases List.mem_append.mp hg' with hg' | hg'
    · have hlater := (List.pairwise_append.mp hpair).2.2 g' hg' g List.mem_cons_self
      have hlong : g.1 ≤ g.2 := (le_add_of_nonneg_right hsize.le).trans hroom
      exact hxg.trans (hlater.trans hlong)
    · rcases List.mem_cons.mp hg' with rfl | hg'
      · exact hxg
      · simpa [hfit'] using hnone g' (List.mem_reverse.mp hg')

theorem exists_free_iff :
    (∃ x, Free lo hi busy size x) ↔ (gaps lo hi busy).filter (fits size) ≠ [] := by
  rw [Ne, List.filter_eq_nil_iff]
  constructor
  · rintro ⟨x, hx⟩ hnone
    obtain ⟨g, hg, hfit, -⟩ := free_fits h hx
    exact hnone g hg hfit
  · intro hsome
    push Not at hsome
    obtain ⟨g, hg, hfit⟩ := hsome
    exact ⟨g.1, (free_iff h size g.1).mpr ⟨g, hg, le_rfl, fits_iff.mp hfit⟩⟩

end search

/-- A gap that is filled has no room any more, and the others keep theirs. -/
theorem filter_filled {size : K} (hsize : 0 < size) (before after : List (K × K)) (g : K × K) :
    (before ++ (g.1, g.1) :: (g.2, g.2) :: after).filter (fits size) =
      before.filter (fits size) ++ after.filter (fits size) := by
  have hnone : ∀ x : K, ¬ fits size (x, x) = true := by
    intro x hfit
    unfold fits at hfit
    rw [decide_eq_true_eq, sub_self] at hfit
    exact absurd hsize (not_lt.mpr hfit)
  rw [List.filter_append, List.filter_cons_of_neg (hnone g.1), List.filter_cons_of_neg (hnone g.2)]

end lib.free_windows
