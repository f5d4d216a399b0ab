-- The laws of the trajectory: its maneuvers stay within it and keep apart, the
-- complex maneuver is the last one as long as what is added later clears it,
-- and when the listing of all maneuvers is in order.
import Mathlib.Algebra.Order.Ring.Rat
import Mathlib.Tactic.NormNum
import Carma.Lib.Runs
import Carma.TrajectorySpecs

open lib
open carma.interval_tree
open carma.maneuvers

namespace carma.trajectory

variable {K V : Type} [LinearOrder K]

/-! ## Trajectories that store the same -/

structure Alike (t t' : Trajectory K) : Prop where
  starts : t'.startLocation = t.startLocation
  ends : t'.endLocation = t.endLocation
  stored : ∀ ty m, m ∈ t'.stored ty ↔ m ∈ t.stored ty

theorem complexManeuver_none_iff {t : Trajectory K} :
    t.complexManeuver = none ↔ ∀ m, m ∉ t.stored .COMPLEX := by
  simp only [mem_stored_complex]
  cases t.complexManeuver with
  | none => simp
  | some c => simp

theorem alike_takes {t t' : Trajectory K} (h : Alike t t') (m : IManeuver K) :
    Takes t' m ↔ Takes t m := by
  unfold Takes Within
  rw [complexManeuver_none_iff, complexManeuver_none_iff, h.starts, h.ends]
  simp only [h.stored]

/-- All maneuvers of a list are taken where a complex one is there: each of
them is simple and taken, and those of one type keep apart. -/
def TakesAll (t : Trajectory K) (ms : List (IManeuver K)) : Prop :=
  (∀ m ∈ ms, Takes t m) ∧
    ms.Pairwise (fun m m' => kindOf m = kindOf m' → ¬ ManeuversOverlap m' m)

/-- With a complex maneuver there, what is taken later must keep apart from
what was taken before. -/
theorem takes_joined {t t' : Trajectory K} {c : IComplexManeuver K} {m m' : IManeuver K}
    (hc : t.complexManeuver = some c) (htake : Takes t m) (hj : Joined t m t') :
    Takes t' m' ↔ Takes t m' ∧ (kindOf m = kindOf m' → ¬ ManeuversOverlap m' m) := by
  cases m with
  | complex d =>
    rw [htake.2.1] at hc
    cases hc
  | simple s =>
    cases m' with
    | complex d =>
      have hc' : ¬ t'.complexManeuver = none := by
        rw [complexManeuver_none_iff]
        push Not
        exact ⟨.complex c, (hj.stored _ _).mpr (Or.inr (complex_mem_stored.mpr hc))⟩
      simp [Takes, hc, hc']
    | simple s' =>
      obtain ⟨_, ty, hty, _⟩ := htake
      unfold Takes Within
      rw [hj.starts, hj.ends]
      simp only [kindOf, hty, hj.stored]
      constructor
      · rintro ⟨hin, ty', hty', hno⟩
        refine ⟨⟨hin, ty', hty', fun m hm => hno m (Or.inr hm)⟩, ?_⟩
        intro he
        rw [hty', Option.some.injEq] at he
        exact hno _ (Or.inl ⟨rfl, by rw [he]⟩)
      · rintro ⟨⟨hin, ty', hty', hno⟩, hapart⟩
        refine ⟨hin, ty', hty', ?_⟩
        rintro m (⟨rfl, he⟩ | hm)
        · exact hapart (by rw [hty', he])
        · exact hno m hm

/-- In the list of a copy only the last maneuver may be complex. -/
theorem toBeCopied_simple (src : Trajectory K) (startDowntrack endDowntrack : K) :
    (toBeCopied src startDowntrack endDowntrack).Pairwise (fun m _ => ∃ s, m = .simple s) := by
  unfold toBeCopied
  refine List.Pairwise.filter _ ?_
  rw [getManeuvers_eq, List.pairwise_append, List.pairwise_append]
  have hlat : ∀ m ∈ src.stored .LATERAL, ∃ s, m = IManeuver.simple s := by
    intro m hm
    obtain ⟨a, _, rfl⟩ := List.mem_map.mp hm
    exact ⟨_, rfl⟩
  have hlon : ∀ m ∈ src.stored .LONGITUDINAL, ∃ s, m = IManeuver.simple s := by
    intro m hm
    obtain ⟨a, _, rfl⟩ := List.mem_map.mp hm
    exact ⟨_, rfl⟩
  refine ⟨⟨?_, ?_, fun m hm _ _ => hlat m hm⟩, ?_, ?_⟩
  · exact List.pairwise_of_forall_mem_list (fun m hm _ _ => hlat m hm)
  · exact List.pairwise_of_forall_mem_list (fun m hm _ _ => hlon m hm)
  · unfold Trajectory.stored
    cases src.complexManeuver <;> simp
  · intro m hm _ _
    rcases List.mem_append.mp hm with hm | hm
    · exact hlat m hm
    · exact hlon m hm

/-! ## Plans in order -/

/-- No stored simple maneuver overlaps the complex maneuver, or starts after its
start. -/
def ComplexIsLast (t : Trajectory K) : Prop :=
  ∀ c, t.complexManeuver = some c → ∀ ty ≠ ManeuverType.COMPLEX, ∀ m ∈ t.stored ty,
    ¬ ManeuversOverlap m (.complex c) ∧ ¬ c.startDist ≤ m.startDist

/-- The plan is in order: all within the trajectory, the maneuvers of one type
apart, and the complex maneuver last. -/
structure WellPlanned (t : Trajectory K) : Prop where
  within : ∀ ty, ∀ m ∈ t.stored ty, t.startLocation ≤ m.startDist ∧ m.endDist ≤ t.endLocation
  apart : ∀ ty, (t.stored ty).Pairwise (fun m m' => ¬ ManeuversOverlap m m')
  complex_is_last : ComplexIsLast t

theorem wellPlanned_iff {t : Trajectory K} (h : Kept t) : WellPlanned t ↔ ComplexIsLast t := by
  refine ⟨fun hw => hw.complex_is_last, fun hlast => ⟨h.within, ?_, hlast⟩⟩
  intro ty
  cases ty with
  | LATERAL => exact List.pairwise_map.mpr (upright_pairwise h.laterals)
  | LONGITUDINAL => exact List.pairwise_map.mpr (upright_pairwise h.longitudinals)
  | COMPLEX =>
    unfold Trajectory.stored
    cases t.complexManeuver <;> simp

theorem starts_before {t : Trajectory K} (h : Kept t) {c : IComplexManeuver K}
    (hc : t.complexManeuver = some c) {m : IManeuver K} (hm : m.startDist < m.endDist)
    (hin : Within t m) (hno : ¬ ManeuversOverlap m (.complex c)) : ¬ c.startDist ≤ m.startDist := by
  intro hle
  have hend : m.endDist ≤ c.endDist := h.complex_ends c hc ▸ hin.2
  refine hno ?_
  unfold ManeuversOverlap Clash
  exact max_lt (lt_min hm (hm.trans_le hend))
    (lt_min (hle.trans_lt hm) (hle.trans_lt (hm.trans_le hend)))

theorem stored_lt {t : Trajectory K} (h : Kept t) {ty : ManeuverType} (hty : ty ≠ .COMPLEX) :
    ∀ m ∈ t.stored ty, m.startDist < m.endDist := by
  cases ty with
  | LATERAL => exact forall_laterals (P := fun s e => s < e).mpr (upright_lt h.laterals)
  | LONGITUDINAL =>
    exact forall_longitudinals (P := fun s e => s < e).mpr (upright_lt h.longitudinals)
  | COMPLEX => exact absurd rfl hty

theorem clear_of_ended {c : IComplexManeuver K} {m : IManeuver K} (hm : m.startDist < m.endDist)
    (hend : m.endDist ≤ c.startDist) :
    ¬ ManeuversOverlap m (.complex c) ∧ ¬ c.startDist ≤ m.startDist := by
  refine ⟨?_, not_le.mpr (hm.trans_le hend)⟩
  intro ho
  exact absurd ((le_max_right _ _).trans_lt (ho.trans_le (min_le_left _ _))) (not_lt.mpr hend)

variable [Field K] [IsStrictOrderedRing K]

theorem alike_put {t t' : Trajectory K} (hk : Kept t) (hk' : Kept t') (h : Alike t t')
    {m : IManeuver K} (hm : m.startDist < m.endDist) : Alike (t.put m).2 (t'.put m).2 := by
  by_cases htake : Takes t m
  · have hj := put_joined hk hm htake
    have hj' := put_joined hk' hm ((alike_takes h m).mpr htake)
    refine ⟨by rw [hj.starts, hj'.starts, h.starts], by rw [hj.ends, hj'.ends, h.ends], ?_⟩
    intro ty m'
    rw [hj.stored, hj'.stored, h.stored]
  · have htake' : ¬ Takes t' m := fun hc => htake ((alike_takes h m).mp hc)
    rw [put_refused hk hm htake, put_refused hk' hm htake']
    exact h

theorem alike_putEach {t t' : Trajectory K} (hk : Kept t) (hk' : Kept t') (h : Alike t t')
    {ms : List (IManeuver K)} (hms : ∀ m ∈ ms, m.startDist < m.endDist) :
    putEach t' ms = some true ↔ putEach t ms = some true := by
  induction ms generalizing t t' with
  | nil => simp [putEach]
  | cons m ms ih =>
    have hm := hms m (by simp)
    have hiff : (t'.put m).1 = some true ↔ (t.put m).1 = some true := by
      rw [put_iff hk hm, put_iff hk' hm, alike_takes h m]
    have hrest := ih (put_kept hk hm) (put_kept hk' hm) (alike_put hk hk' h hm)
      (fun d hd => hms d (by simp [hd]))
    unfold putEach
    rcases ht : t.put m with ⟨_ | _ | _, s⟩ <;> rcases ht' : t'.put m with ⟨_ | _ | _, s'⟩ <;>
      simp_all

/-! ## The copy constructor -/

/-- Maneuvers that keep apart all get into the tree. -/
theorem insertEach_upright {startOf endOf : V → K} {tree : IntervalTree K V}
    (h : Upright startOf endOf tree) {ms : List V} (hlt : ∀ m ∈ ms, startOf m < endOf m)
    (hms : ms.Pairwise (fun m m' => ¬ Clash (startOf m) (endOf m) (startOf m') (endOf m')))
    (hno : ∀ m ∈ ms, ∀ m' ∈ tree.toSortedList,
      ¬ Clash (startOf m) (endOf m) (startOf m') (endOf m')) :
    Upright startOf endOf (insertEach startOf endOf tree ms) ∧
      ∀ m, m ∈ (insertEach startOf endOf tree ms).toSortedList ↔
        m ∈ ms ∨ m ∈ tree.toSortedList := by
  induction ms generalizing tree with
  | nil => exact ⟨h, by simp [insertEach]⟩
  | cons a ms ih =>
    have ha := hlt a (by simp)
    have hok := (insertManeuver_iff h ha).mpr (hno a (by simp))
    have hin := insertManeuver_taken ha hok
    obtain ⟨hfirst, hms⟩ := List.pairwise_cons.mp hms
    have hnext := ih (insertManeuver_upright h ha) (fun m hm => hlt m (by simp [hm])) hms (by
      intro m hm m' hm' hc
      rcases (hin m').mp hm' with rfl | hold
      · unfold Clash at hc
        rw [max_comm, min_comm] at hc
        exact hfirst m hm hc
      · exact hno m (by simp [hm]) m' hold hc)
    refine ⟨hnext.1, ?_⟩
    intro m
    unfold insertEach
    rw [hnext.2, hin, List.mem_cons]
    tauto

/-- The copy of a tree stores the same. -/
theorem copied_tree {startOf endOf : V → K} {tree : IntervalTree K V}
    (h : Upright startOf endOf tree) :
    Upright startOf endOf (insertEach startOf endOf buildIntervalTree tree.toSortedList) ∧
      ∀ m, m ∈ (insertEach startOf endOf buildIntervalTree tree.toSortedList).toSortedList ↔
        m ∈ tree.toSortedList := by
  have hcopy := insertEach_upright (upright_empty startOf endOf) (upright_lt h) (upright_pairwise h)
    (fun _ _ _ hm' => by cases hm')
  refine ⟨hcopy.1, ?_⟩
  intro m
  rw [hcopy.2]
  exact or_iff_left (fun hm => by cases hm)

theorem copyOf_alike {t : Trajectory K} (h : Kept t) : Kept (copyOf t) ∧ Alike t (copyOf t) := by
  have hlat := copied_tree h.laterals
  have hlon := copied_tree h.longitudinals
  have halike : Alike t (copyOf t) := by
    refine ⟨rfl, rfl, ?_⟩
    intro ty m
    cases ty with
    | LATERAL =>
      unfold Trajectory.stored Trajectory.getLateralManeuvers
      simp only [List.mem_map]
      exact exists_congr (fun a => and_congr_left (fun _ => hlat.2 a))
    | LONGITUDINAL =>
      unfold Trajectory.stored Trajectory.getLongitudinalManeuvers
      simp only [List.mem_map]
      exact exists_congr (fun a => and_congr_left (fun _ => hlon.2 a))
    | COMPLEX => rfl
  exact ⟨⟨hlat.1, hlon.1, fun ty m hm => h.within ty m ((halike.stored ty m).mp hm),
    h.complex_ends⟩, halike⟩

/-! ## Many calls -/

theorem putAll_kept {t : Trajectory K} (h : Kept t) {ms : List (IManeuver K)}
    (hms : ∀ m ∈ ms, m.startDist < m.endDist) : Kept (putAll t ms).2 := by
  induction ms generalizing t with
  | nil => exact h
  | cons m ms ih =>
    have hnext := put_kept h (hms m (by simp))
    unfold putAll
    split
    · rename_i heq
      rwa [heq] at hnext
    · rename_i heq
      rw [heq] at hnext
      exact ih hnext (fun d hd => hms d (by simp [hd]))

omit [IsStrictOrderedRing K] in
theorem putEach_go (t : Trajectory K) (m : IManeuver K) (ms : List (IManeuver K)) :
    putEach t (m :: ms) = some true ↔
      (t.put m).1 = some true ∧ putEach (t.put m).2 ms = some true := by
  conv_lhs => unfold putEach
  rcases t.put m with ⟨_ | _ | _, s⟩ <;> simp

theorem putEach_cons {t : Trajectory K} (h : Kept t) {m : IManeuver K} {ms : List (IManeuver K)}
    (hm : m.startDist < m.endDist) :
    putEach t (m :: ms) = some true ↔ Takes t m ∧ putEach (t.put m).2 ms = some true := by
  rw [← put_iff h hm]
  exact putEach_go t m ms

theorem putAll_cons {t : Trajectory K} (h : Kept t) {m : IManeuver K} {ms : List (IManeuver K)}
    (hm : m.startDist < m.endDist) (htake : Takes t m) :
    putAll t (m :: ms) = putAll (t.put m).2 ms := by
  have hok := (put_iff h hm).mpr htake
  conv_lhs => unfold putAll
  rcases hput : t.put m with ⟨_ | _, s⟩
  · simp [hput] at hok
  · rfl

/-- What a list that goes all the way leaves behind. -/
theorem putAll_stored {t : Trajectory K} (h : Kept t) {ms : List (IManeuver K)}
    (hms : ∀ m ∈ ms, m.startDist < m.endDist) (hgo : putEach t ms = some true)
    (ty : ManeuverType) (m' : IManeuver K) :
    m' ∈ (putAll t ms).2.stored ty ↔ (m' ∈ ms ∧ kindOf m' = some ty) ∨ m' ∈ t.stored ty := by
  induction ms generalizing t with
  | nil => simp [putAll]
  | cons m ms ih =>
    have hm := hms m (by simp)
    obtain ⟨htake, hgo⟩ := (putEach_cons h hm).mp hgo
    rw [putAll_cons h hm htake, ih (put_kept h hm) (fun d hd => hms d (by simp [hd])) hgo,
      (put_joined h hm htake).stored, List.mem_cons]
    constructor
    · rintro (⟨hin, hk⟩ | ⟨rfl, hk⟩ | hold)
      · exact Or.inl ⟨Or.inr hin, hk⟩
      · exact Or.inl ⟨Or.inl rfl, hk⟩
      · exact Or.inr hold
    · rintro (⟨rfl | hin, hk⟩ | hold)
      · exact Or.inr (Or.inl ⟨rfl, hk⟩)
      · exact Or.inl ⟨hin, hk⟩
      · exact Or.inr (Or.inr hold)

theorem putEach_iff {t : Trajectory K} (h : Kept t) {c : IComplexManeuver K}
    (hc : t.complexManeuver = some c) {ms : List (IManeuver K)}
    (hms : ∀ m ∈ ms, m.startDist < m.endDist) :
    putEach t ms = some true ↔ TakesAll t ms := by
  induction ms generalizing t with
  | nil => simp [putEach, TakesAll]
  | cons m ms ih =>
    have hm := hms m (by simp)
    rw [putEach_cons h hm]
    unfold TakesAll
    rw [List.forall_mem_cons, List.pairwise_cons, and_assoc]
    refine and_congr_right (fun htake => ?_)
    have hj := put_joined h hm htake
    have hc' : (t.put m).2.complexManeuver = some c :=
      complex_mem_stored.mp ((hj.stored _ _).mpr (Or.inr (complex_mem_stored.mpr hc)))
    rw [ih (put_kept h hm) hc' (fun d hd => hms d (by simp [hd]))]
    unfold TakesAll
    constructor
    · rintro ⟨hall, hpair⟩
      have hsplit := fun d hd => (takes_joined hc htake hj).mp (hall d hd)
      exact ⟨fun d hd => (hsplit d hd).1, fun d hd => (hsplit d hd).2, hpair⟩
    · rintro ⟨hall, hfirst, hpair⟩
      exact ⟨fun d hd => (takes_joined hc htake hj).mpr ⟨hall d hd, hfirst d hd⟩, hpair⟩

/-! ## The calls -/

/-- The calls that change a trajectory. -/
inductive Call (K : Type) [LE K]
  | addManeuver (m : ISimpleManeuver K)
  | setComplexManeuver (m : Option (IComplexManeuver K))
  | copyManeuvers (src : Trajectory K) (startDowntrack endDowntrack : K)

/-- The maneuvers that a call hands over. -/
def Call.maneuvers : Call K → List (IManeuver K)
  | addManeuver m => [.simple m]
  | setComplexManeuver m => (m.map .complex).toList
  | copyManeuvers src startDowntrack endDowntrack => toBeCopied src startDowntrack endDowntrack

def call (t : Trajectory K) : Call K → Trajectory K
  | .addManeuver m => (t.addManeuver m).2
  | .setComplexManeuver m => (t.setComplexManeuver m).2
  | .copyManeuvers src startDowntrack endDowntrack =>
    (t.copyManeuvers src startDowntrack endDowntrack).2

/-- Where a complex maneuver is there, no maneuver that the call would take
overlaps it. -/
def ClearsComplex (t : Trajectory K) : Call K → Prop
  | .addManeuver m => ∀ c, t.complexManeuver = some c → Takes t (.simple m) →
      ¬ ManeuversOverlap (.simple m) (.complex c)
  | .setComplexManeuver _ => True
  | .copyManeuvers src startDowntrack endDowntrack =>
    ∀ c, t.complexManeuver = some c → TakesAll t (toBeCopied src startDowntrack endDowntrack) →
      ∀ m ∈ toBeCopied src startDowntrack endDowntrack, ¬ ManeuversOverlap m (.complex c)

/-- A call with one simple maneuver keeps the complex maneuver last just when the
maneuver is not taken over it. -/
theorem put_simple_last {t : Trajectory K} (h : Kept t) (hlast : ComplexIsLast t)
    {s : ISimpleManeuver K} (hs : s.startDist < s.endDist) :
    ComplexIsLast (t.put (.simple s)).2 ↔
      ∀ c, t.complexManeuver = some c → Takes t (.simple s) →
        ¬ ManeuversOverlap (.simple s) (.complex c) := by
  by_cases htake : Takes t (.simple s)
  · have hj := put_joined h (m := .simple s) hs htake
    have hcomplex : ∀ c, (t.put (.simple s)).2.complexManeuver = some c ↔
        t.complexManeuver = some c := by
      intro c
      rw [← complex_mem_stored, hj.stored, complex_mem_stored]
      simp
    constructor
    · intro hafter c hc _
      obtain ⟨_, ty, hty, _⟩ := htake
      have hne : ty ≠ .COMPLEX := by
        rintro rfl
        cases s <;> cases hty
      exact (hafter c ((hcomplex c).mpr hc) ty hne _ ((hj.stored ty _).mpr (Or.inl ⟨rfl, hty⟩))).1
    · intro hclear c hc ty hty m hm
      have hc' := (hcomplex c).mp hc
      rcases (hj.stored ty m).mp hm with ⟨rfl, _⟩ | hold
      · have hno := hclear c hc' htake
        exact ⟨hno, starts_before h hc' hs htake.1 hno⟩
      · exact hlast c hc' ty hty m hold
  · rw [put_refused h (m := .simple s) hs htake]
    exact iff_of_true hlast (fun c _ hc => absurd hc htake)

theorem put_complex_last {t : Trajectory K} (h : Kept t) (hlast : ComplexIsLast t)
    {d : IComplexManeuver K} (hd : d.startDist < d.endDist) :
    ComplexIsLast (t.put (.complex d)).2 := by
  by_cases htake : Takes t (.complex d)
  · have hj := put_joined h (m := .complex d) hd htake
    intro c hc ty hty m hm
    have hcd : c = d := by
      rcases (hj.stored .COMPLEX (.complex c)).mp (complex_mem_stored.mpr hc) with ⟨he, _⟩ | hold
      · cases he
        rfl
      · rw [complex_mem_stored, htake.2.1] at hold
        cases hold
    subst hcd
    rcases (hj.stored ty m).mp hm with ⟨_, hk⟩ | hold
    · cases hk
      exact absurd rfl hty
    · exact clear_of_ended (stored_lt h hty m hold) (htake.2.2 ty m hold)
  · rw [put_refused h (m := .complex d) hd htake]
    exact hlast

/-! ## Copies of maneuvers -/

/-- A copy goes through when all goes well on the trajectory itself. -/
theorem copyManeuvers_eq {t src : Trajectory K} (h : Kept t) {startDowntrack endDowntrack : K}
    (hms : ∀ m ∈ toBeCopied src startDowntrack endDowntrack, m.startDist < m.endDist) :
    (t.copyManeuvers src startDowntrack endDowntrack).2 =
      if putEach t (toBeCopied src startDowntrack endDowntrack) = some true then
        (putAll t (toBeCopied src startDowntrack endDowntrack)).2
      else t := by
  obtain ⟨hkept, halike⟩ := copyOf_alike h
  have hiff := alike_putEach h hkept halike hms
  unfold Trajectory.copyManeuvers
  by_cases hgo : putEach t (toBeCopied src startDowntrack endDowntrack) = some true
  · simp only [hiff.mpr hgo, if_pos hgo]
  · rw [if_neg hgo]
    have hgo' := fun hc => hgo (hiff.mp hc)
    rcases hput : putEach (copyOf t) (toBeCopied src startDowntrack endDowntrack) with _ | _ | _
    · simp only
    · simp only
    · exact absurd hput hgo'

theorem putAll_last {t : Trajectory K} (h : Kept t) (hnone : t.complexManeuver = none)
    {ms : List (IManeuver K)} (hms : ∀ m ∈ ms, m.startDist < m.endDist)
    (hsimple : ms.Pairwise (fun m _ => ∃ s, m = .simple s)) (hgo : putEach t ms = some true) :
    ComplexIsLast (putAll t ms).2 := by
  induction ms generalizing t with
  | nil =>
    intro c hc
    rw [show (putAll t []).2 = t from rfl, hnone] at hc
    cases hc
  | cons m ms ih =>
    have hm := hms m (by simp)
    obtain ⟨htake, hgo⟩ := (putEach_cons h hm).mp hgo
    obtain ⟨hfirst, hrest⟩ := List.pairwise_cons.mp hsimple
    rw [putAll_cons h hm htake]
    cases m with
    | simple s =>
      refine ih (put_kept h hm) ?_ (fun d hd => hms d (by simp [hd])) hrest hgo
      rw [complexManeuver_none_iff] at hnone ⊢
      intro d hd
      rcases ((put_joined h hm htake).stored _ _).mp hd with ⟨_, hk⟩ | hold
      · cases s <;> cases hk
      · exact hnone d hold
    | complex d =>
      have hnil : ms = [] := by
        apply List.eq_nil_iff_forall_not_mem.mpr
        intro x hx
        obtain ⟨_, he⟩ := hfirst x hx
        cases he
      subst hnil
      exact put_complex_last h (fun c hc => by rw [hnone] at hc; cases hc) hm

theorem putAll_clears {t : Trajectory K} (h : Kept t) (hlast : ComplexIsLast t)
    {c : IComplexManeuver K} (hc : t.complexManeuver = some c) {ms : List (IManeuver K)}
    (hms : ∀ m ∈ ms, m.startDist < m.endDist) (hall : TakesAll t ms) :
    ComplexIsLast (putAll t ms).2 ↔ ∀ m ∈ ms, ¬ ManeuversOverlap m (.complex c) := by
  have hst := putAll_stored h hms ((putEach_iff h hc hms).mpr hall)
  have hkind : ∀ m ∈ ms, ∃ ty ≠ ManeuverType.COMPLEX, kindOf m = some ty := by
    intro m hm
    have htake := hall.1 m hm
    cases m with
    | simple s =>
      obtain ⟨_, ty, hty, _⟩ := htake
      refine ⟨ty, ?_, hty⟩
      rintro rfl
      cases s <;> cases hty
    | complex d =>
      rw [htake.2.1] at hc
      cases hc
  have hcomplex : ∀ d, (putAll t ms).2.complexManeuver = some d ↔ d = c := by
    intro d
    rw [← complex_mem_stored, hst, complex_mem_stored, hc, Option.some.injEq, @eq_comm _ c]
    refine or_iff_right ?_
    rintro ⟨hm, _⟩
    obtain ⟨ty, hne, hk⟩ := hkind _ hm
    cases hk
    exact hne rfl
  constructor
  · intro hafter m hm
    obtain ⟨ty, hne, hk⟩ := hkind m hm
    exact (hafter c ((hcomplex c).mpr rfl) ty hne m ((hst ty m).mpr (Or.inl ⟨hm, hk⟩))).1
  · intro hclear d hd ty hty m hm
    obtain rfl := (hcomplex d).mp hd
    rcases (hst ty m).mp hm with ⟨hin, _⟩ | hold
    · have hno := hclear m hin
      exact ⟨hno, starts_before h hc (hms m hin) (hall.1 m hin).1 hno⟩
    · exact hlast d hc ty hty m hold

/-! ## The laws of the plan -/

theorem call_kept {t : Trajectory K} (h : Kept t) (c : Call K)
    (hms : ∀ m ∈ c.maneuvers, m.startDist < m.endDist) : Kept (call t c) := by
  cases c with
  | addManeuver m => exact put_kept h (m := .simple m) (hms _ (by simp [Call.maneuvers]))
  | setComplexManeuver m =>
    cases m with
    | none => exact h
    | some c => exact put_kept h (m := .complex c) (hms _ (by simp [Call.maneuvers]))
  | copyManeuvers src startDowntrack endDowntrack =>
    unfold call
    simp only [copyManeuvers_eq h hms]
    split
    · exact putAll_kept h hms
    · exact h

theorem call_last {t : Trajectory K} (h : Kept t) (hlast : ComplexIsLast t) (c : Call K)
    (hms : ∀ m ∈ c.maneuvers, m.startDist < m.endDist) :
    ComplexIsLast (call t c) ↔ ClearsComplex t c := by
  cases c with
  | addManeuver m => exact put_simple_last h hlast (hms (.simple m) (by simp [Call.maneuvers]))
  | setComplexManeuver m =>
    refine iff_of_true ?_ trivial
    cases m with
    | none => exact hlast
    | some c => exact put_complex_last h hlast (hms (.complex c) (by simp [Call.maneuvers]))
  | copyManeuvers src startDowntrack endDowntrack =>
    have hms : ∀ m ∈ toBeCopied src startDowntrack endDowntrack, m.startDist < m.endDist := hms
    unfold call ClearsComplex
    simp only [copyManeuvers_eq h hms]
    cases hc : t.complexManeuver with
    | none =>
      refine iff_of_true ?_ (fun c hcc => by cases hcc)
      split
      · rename_i hgo
        exact putAll_last h hc hms (toBeCopied_simple _ _ _) hgo
      · exact hlast
    | some c =>
      simp only [Option.some.injEq, forall_eq']
      by_cases hgo : putEach t (toBeCopied src startDowntrack endDowntrack) = some true
      · have hall := (putEach_iff h hc hms).mp hgo
        rw [if_pos hgo, putAll_clears h hlast hc hms hall]
        exact ⟨fun hno _ => hno, fun hno => hno hall⟩
      · rw [if_neg hgo]
        exact iff_of_true hlast (fun hall => absurd ((putEach_iff h hc hms).mpr hall) hgo)

/-- In a run of calls every plan is in order just when no call takes a maneuver
over the complex maneuver that is there. -/
theorem a_plan_stays_in_order_while_its_complex_maneuver_is_clear (startLocation endLocation : K)
    (calls : List (Call K))
    (hcalls : ∀ c ∈ calls, ∀ m ∈ c.maneuvers, m.startDist < m.endDist) :
    (∀ t ∈ runs.states call (newTrajectory startLocation endLocation) calls, WellPlanned t) ↔
      runs.EachCall call ClearsComplex (newTrajectory startLocation endLocation) calls := by
  refine runs.states_iff (I := Kept) (fun t c h hc => call_kept h c hc) ?_
    (newTrajectory_kept _ _) ?_ hcalls
  · intro t c h hc hplan
    rw [wellPlanned_iff (call_kept h c hc)]
    exact call_last h hplan.complex_is_last c hc
  · rw [wellPlanned_iff (newTrajectory_kept _ _)]
    intro c hc
    cases hc

/-- A lane change, then a complex maneuver after it, then a speed up before it. -/
def plannedCalls : List (Call ℚ) :=
  [.addManeuver (.lateral (.single 0 4 1)), .setComplexManeuver (some ⟨5, 9, 3, 4⟩),
    .addManeuver (.longitudinal (.single .speedUp ⟨0, 5, 1, 2⟩))]

theorem plannedCalls_stay_in_order :
    (∀ t ∈ runs.states call (newTrajectory 0 10) plannedCalls, WellPlanned t) ↔
      runs.EachCall call ClearsComplex (newTrajectory 0 10) plannedCalls :=
  a_plan_stays_in_order_while_its_complex_maneuver_is_clear 0 10 plannedCalls (by decide +kernel)

/-- A complex maneuver on `[5, 10)`, and then a steady speed on it. -/
def overlappingCalls : List (Call ℚ) :=
  [.setComplexManeuver (some ⟨5, 10, 3, 4⟩),
    .addManeuver (.longitudinal (.single .steadySpeed ⟨5, 10, 3, 3⟩))]

theorem a_complex_maneuver_is_overlapped :
    ¬ ∀ t ∈ runs.states call (newTrajectory 0 10) overlappingCalls, WellPlanned t := by
  intro h
  have hplan := h (runs.run call (newTrajectory 0 10) overlappingCalls)
    (by simp [runs.states, runs.run, overlappingCalls])
  have hlast := hplan.complex_is_last ⟨5, 10, 3, 4⟩ rfl .LONGITUDINAL (by decide)
    (ofLongitudinal (.single .steadySpeed ⟨5, 10, 3, 3⟩)) (List.mem_singleton.mpr rfl)
  exact hlast.1 (by decide)

end carma.trajectory
