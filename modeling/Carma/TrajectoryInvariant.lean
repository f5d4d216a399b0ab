-- The invariant of the container: the plan of a trajectory is in order, and every
-- maneuver of it ends after it starts. The calls keep it while nothing is put on the
-- complex maneuver, and the maneuvers of one kind then follow each other.
import Carma.TrajectoryLaws

open lib
open carma.interval_tree
open carma.maneuvers

namespace carma.trajectory

variable {K V : Type} [LinearOrder K]

/-! ## The invariant -/

structure ContainerInvariant (t : Trajectory K) : Prop where
  kept : Kept t
  planned : WellPlanned t
  complex_lt : ∀ c, t.complexManeuver = some c → c.startDist < c.endDist

theorem newTrajectory_invariant (startLocation endLocation : K) :
    ContainerInvariant (newTrajectory startLocation endLocation) :=
  ⟨newTrajectory_kept _ _, (wellPlanned_iff (newTrajectory_kept _ _)).mpr (fun c hc => by cases hc),
    fun c hc => by cases hc⟩

theorem ContainerInvariant.positive {t : Trajectory K} (h : ContainerInvariant t) {ty : ManeuverType}
    {m : IManeuver K} (hm : m ∈ t.stored ty) : m.startDist < m.endDist := by
  by_cases hty : ty = .COMPLEX
  · subst hty
    obtain ⟨c, hc, rfl⟩ := mem_stored_complex.mp hm
    exact h.complex_lt c hc
  · exact stored_lt h.kept hty m hm

theorem ContainerInvariant.copied_lt {src : Trajectory K} (h : ContainerInvariant src)
    {startDowntrack endDowntrack : K} {m : IManeuver K}
    (hm : m ∈ toBeCopied src startDowntrack endDowntrack) : m.startDist < m.endDist := by
  have hlisted := (List.mem_filter.mp hm).1
  rw [getManeuvers_eq, List.mem_append, List.mem_append] at hlisted
  rcases hlisted with (hm | hm) | hm
  · exact h.positive hm
  · exact h.positive hm
  · exact h.positive hm

/-! ## The order of what is stored -/

theorem upright_in_order {startOf endOf : V → K} {tree : IntervalTree K V}
    (h : Upright startOf endOf tree) :
    tree.toSortedList.Pairwise (fun m m' => endOf m ≤ startOf m') := by
  unfold IntervalTree.toSortedList
  rw [List.pairwise_filterMap]
  refine (h.apart.and (good_sorted h.oneEach h.good)).imp_of_mem ?_
  rintro x y hx hy ⟨hno, hle⟩ m hm m' hm'
  obtain ⟨a, ha, -, he⟩ := h.labeled x hx
  obtain ⟨b, hb, hs, -⟩ := h.labeled y hy
  obtain rfl : a = m := by simpa [ha] using hm
  obtain rfl : b = m' := by simpa [hb] using hm'
  have hposx := Interval.lt_of_not_empty (h.positive x hx)
  have hposy := Interval.lt_of_not_empty (h.positive y hy)
  rw [← he, ← hs]
  by_contra hlate
  rw [not_le] at hlate
  exact hno ((overlap_iff x y).mpr (max_lt (lt_min hposx (hle.trans_lt hposy))
    (lt_min hlate hposy)))

theorem ContainerInvariant.ends_before_complex {t : Trajectory K} (h : ContainerInvariant t)
    {c : IComplexManeuver K} (hc : t.complexManeuver = some c) {ty : ManeuverType}
    (hty : ty ≠ .COMPLEX) {m : IManeuver K} (hm : m ∈ t.stored ty) : m.endDist ≤ c.startDist := by
  obtain ⟨hno, hstart⟩ := h.planned.complex_is_last c hc ty hty m hm
  have hin : m.endDist ≤ c.endDist := h.kept.complex_ends c hc ▸ (h.planned.within ty m hm).2
  rw [not_le] at hstart
  by_contra hlate
  rw [not_le] at hlate
  exact hno (max_lt (lt_min (h.positive hm) (hlate.trans_le' hstart.le |>.trans_le hin))
    (lt_min hlate (hlate.trans_le hin)))

theorem ContainerInvariant.simple_in_order {t : Trajectory K} (h : ContainerInvariant t)
    {ty : ManeuverType} (hty : ty ≠ .COMPLEX) :
    (t.stored ty).Pairwise (fun m m' => m.endDist ≤ m'.startDist) := by
  cases ty with
  | LATERAL => exact List.pairwise_map.mpr (upright_in_order h.kept.laterals)
  | LONGITUDINAL => exact List.pairwise_map.mpr (upright_in_order h.kept.longitudinals)
  | COMPLEX => exact absurd rfl hty

theorem ContainerInvariant.in_order {t : Trajectory K} (h : ContainerInvariant t)
    {ty : ManeuverType} (hty : ty ≠ .COMPLEX) :
    (t.stored ty ++ t.stored .COMPLEX).Pairwise (fun m m' => m.endDist ≤ m'.startDist) := by
  refine List.pairwise_append.mpr ⟨h.simple_in_order hty, ?_, ?_⟩
  · unfold Trajectory.stored
    cases t.complexManeuver <;> simp
  · intro m hm m' hm'
    obtain ⟨c, hc, rfl⟩ := mem_stored_complex.mp hm'
    exact h.ends_before_complex hc hty hm

/-! ## The calls -/

variable [Field K]

theorem put_complexManeuver {t : Trajectory K} {m : IManeuver K} {c : IComplexManeuver K}
    (hc : (t.put m).2.complexManeuver = some c) : t.complexManeuver = some c ∨ m = .complex c := by
  rcases put_cases t m with ⟨a, rfl, he⟩ | ⟨a, rfl, he⟩ | ⟨d, rfl, -, he⟩ | ⟨-, hsame⟩
  · rw [he] at hc
    exact Or.inl hc
  · rw [he] at hc
    exact Or.inl hc
  · rw [he] at hc
    obtain rfl := Option.some.inj hc
    exact Or.inr rfl
  · rw [hsame] at hc
    exact Or.inl hc

theorem putAll_complexManeuver {t : Trajectory K} {ms : List (IManeuver K)} {c : IComplexManeuver K}
    (hc : (putAll t ms).2.complexManeuver = some c) :
    t.complexManeuver = some c ∨ .complex c ∈ ms := by
  induction ms generalizing t with
  | nil => exact Or.inl hc
  | cons m ms ih =>
    have hfirst : (t.put m).2.complexManeuver = some c →
        t.complexManeuver = some c ∨ .complex c ∈ m :: ms := by
      intro hput
      rcases put_complexManeuver hput with hold | rfl
      · exact Or.inl hold
      · exact Or.inr List.mem_cons_self
    unfold putAll at hc
    split at hc
    · rename_i heq
      exact hfirst (by rw [heq]; exact hc)
    · rename_i heq
      rcases ih hc with hold | hlater
      · exact hfirst (by rw [heq]; exact hold)
      · exact Or.inr (List.mem_cons_of_mem m hlater)

theorem call_complexManeuver {t : Trajectory K} {a : Call K} {c : IComplexManeuver K}
    (hc : (call t a).complexManeuver = some c) :
    t.complexManeuver = some c ∨ .complex c ∈ a.maneuvers := by
  cases a with
  | addManeuver m =>
    rcases put_complexManeuver (m := .simple m) hc with hold | hnew
    · exact Or.inl hold
    · cases hnew
  | setComplexManeuver m =>
    cases m with
    | none => exact Or.inl hc
    | some d =>
      rcases put_complexManeuver (m := .complex d) hc with hold | hnew
      · exact Or.inl hold
      · exact Or.inr (hnew ▸ List.mem_singleton.mpr rfl)
  | copyManeuvers src startDowntrack endDowntrack =>
    have hcopy : (t.copyManeuvers src startDowntrack endDowntrack).2.complexManeuver = some c := hc
    unfold Trajectory.copyManeuvers at hcopy
    dsimp only at hcopy
    split at hcopy
    · exact putAll_complexManeuver hcopy
    · exact Or.inl hcopy

variable [IsStrictOrderedRing K]

/-- A call keeps the invariant just when it puts nothing on the complex maneuver. -/
theorem call_invariant_iff {t : Trajectory K} (h : ContainerInvariant t) (a : Call K)
    (hms : ∀ m ∈ a.maneuvers, m.startDist < m.endDist) :
    ContainerInvariant (call t a) ↔ ClearsComplex t a := by
  have hkept := call_kept h.kept a hms
  have hlast := call_last h.kept h.planned.complex_is_last a hms
  constructor
  · exact fun hafter => hlast.mp hafter.planned.complex_is_last
  · intro hclear
    refine ⟨hkept, (wellPlanned_iff hkept).mpr (hlast.mpr hclear), ?_⟩
    intro c hc
    rcases call_complexManeuver hc with hold | hnew
    · exact h.complex_lt c hold
    · exact hms _ hnew

/-- The invariant holds all through a run just when no call puts something on the complex
maneuver. -/
theorem states_invariant_iff (startLocation endLocation : K) {calls : List (Call K)}
    (hcalls : ∀ a ∈ calls, ∀ m ∈ a.maneuvers, m.startDist < m.endDist) :
    (∀ t ∈ runs.states call (newTrajectory startLocation endLocation) calls, ContainerInvariant t) ↔
      runs.EachCall call ClearsComplex (newTrajectory startLocation endLocation) calls := by
  refine runs.states_iff (I := Kept) (fun t a h ha => call_kept h a ha) ?_
    (newTrajectory_kept _ _) (newTrajectory_invariant _ _) hcalls
  intro t a _ ha h
  exact call_invariant_iff h a ha

end carma.trajectory
