-- The law of cruising: after the plugin planned a trajectory, no gap is left in its
-- longitudinal maneuvers that is not below the tolerance, none of them overlap, and the
-- maneuvers of one gap follow each other at the same speed.
import Carma.CruisingPlugin
import Carma.Lib.Legs
import Carma.ManeuverListing
import Carma.TrajectoryLaws
import Mathlib.Data.Rat.Sqrt

open lib
open lib.legs
open carma.interval_tree
open carma.maneuver_listing (Labeled insertManeuver_labeled insertManeuver_cases)
open carma.maneuver_planner
open carma.maneuvers
open carma.route_service
open carma.trajectory

namespace carma.cruising

variable {K : Type} [LinearOrder K]

/-! ## Trajectories that can be planned -/

/-- The longitudinal maneuvers are stored as they are, and keep apart. -/
structure Stored (t : Trajectory K) : Prop where
  labeled : Labeled LongitudinalManeuver.startDist LongitudinalManeuver.endDist
    t.longitudinalManeuvers
  apart : t.getLongitudinalManeuvers.Pairwise
    (fun m m' => ¬ Clash m.startDist m.endDist m'.startDist m'.endDist)

/-- The invariant of a trajectory, as far as longitudinal maneuvers go: they keep apart,
each ends after it starts, they lie in the trajectory, and they end by the start of the
complex maneuver, with which the trajectory ends. -/
structure LongitudinalInvariant (t : Trajectory K) : Prop where
  stored : Stored t
  positive : ∀ m ∈ t.getLongitudinalManeuvers, m.startDist < m.endDist
  within : ∀ m ∈ t.getLongitudinalManeuvers,
    t.startLocation ≤ m.startDist ∧ m.endDist ≤ planEnd t
  order : t.startLocation ≤ planEnd t
  complex : ∀ c, t.complexManeuver = some c → c.startDist ≤ c.endDist ∧ t.endLocation = c.endDist

omit [LinearOrder K] in
theorem leftEnds_of_good [LinearOrder K] {V : Type} {t : IntervalTreeNode K V} (h : Good t) :
    maneuver_listing.LeftEnds t := by
  induction t with
  | null => trivial
  | node c l r f rest ihl ihr =>
    obtain ⟨hleft, -, hl, hr⟩ := h
    exact ⟨fun x hx => (hleft x hx).1, ihl hl, ihr hr⟩

/-- What calls with maneuvers that end after they start keep, while the complex maneuver
stays last, is the invariant. -/
theorem longitudinalInvariant_of_kept {t : Trajectory K} (h : Kept t) (hlast : ComplexIsLast t)
    (horder : t.startLocation ≤ t.endLocation)
    (hcomplex : ∀ c, t.complexManeuver = some c → c.startDist < c.endDist) :
    LongitudinalInvariant t where
  stored :=
    { labeled := ⟨h.longitudinals.oneEach, leftEnds_of_good h.longitudinals.good,
        h.longitudinals.labeled⟩
      apart := upright_pairwise h.longitudinals }
  positive := upright_lt h.longitudinals
  within := by
    intro m hm
    have hin := h.within .LONGITUDINAL (ofLongitudinal m) (List.mem_map_of_mem hm)
    refine ⟨hin.1, ?_⟩
    unfold planEnd
    split
    · exact hin.2
    · rename_i c hc
      obtain ⟨hno, hbefore⟩ := hlast c hc .LONGITUDINAL (by decide) (ofLongitudinal m)
        (List.mem_map_of_mem hm)
      have hle : m.startDist ≤ c.startDist := (not_le.mp hbefore).le
      by_contra hover
      apply hno
      show max m.startDist c.startDist < min m.endDist c.endDist
      rw [max_eq_right hle]
      exact lt_min (not_le.mp hover) (hcomplex c hc)
  order := by
    unfold planEnd
    split
    · exact horder
    · rename_i c hc
      exact (h.within .COMPLEX (.complex c) (complex_mem_stored.mpr hc)).1
  complex c hc := ⟨(hcomplex c hc).le, h.complex_ends c hc⟩

/-! ## More maneuvers -/

/-- The trajectory with more longitudinal maneuvers, and nothing else changed. -/
structure Grown (t : Trajectory K) (added : List (LongitudinalManeuver K)) (t' : Trajectory K) :
    Prop where
  starts : t'.startLocation = t.startLocation
  ends : t'.endLocation = t.endLocation
  complex : t'.complexManeuver = t.complexManeuver
  laterals : t'.lateralManeuvers = t.lateralManeuvers
  longitudinals : t'.getLongitudinalManeuvers.Perm (t.getLongitudinalManeuvers ++ added)

theorem Grown.refl (t : Trajectory K) : Grown t [] t :=
  ⟨rfl, rfl, rfl, rfl, by rw [List.append_nil]⟩

theorem Grown.trans {t t' t'' : Trajectory K} {added more : List (LongitudinalManeuver K)}
    (h : Grown t added t') (h' : Grown t' more t'') : Grown t (added ++ more) t'' where
  starts := h'.starts.trans h.starts
  ends := h'.ends.trans h.ends
  complex := h'.complex.trans h.complex
  laterals := h'.laterals.trans h.laterals
  longitudinals := by
    rw [← List.append_assoc]
    exact h'.longitudinals.trans (h.longitudinals.append_right more)

/-- No longitudinal maneuver is between `a` and `b`. -/
def Free (t : Trajectory K) (a b : K) : Prop :=
  ∀ m ∈ t.getLongitudinalManeuvers, m.endDist ≤ a ∨ b ≤ m.startDist

theorem Free.grown {t t' : Trajectory K} {a b : K} (h : Free t a b)
    {added : List (LongitudinalManeuver K)} (hgrown : Grown t added t')
    (hadded : ∀ m ∈ added, m.endDist ≤ a ∨ b ≤ m.startDist) : Free t' a b := by
  intro m hm
  rcases List.mem_append.mp (hgrown.longitudinals.mem_iff.mp hm) with hold | hnew
  · exact h m hold
  · exact hadded m hnew

theorem not_clash_of_sides {start end_ start' end_' : K} (h : end_' ≤ start ∨ end_ ≤ start') :
    ¬ Clash start end_ start' end_' := by
  unfold Clash
  rw [not_lt]
  rcases h with hleft | hright
  · exact (min_le_right _ _).trans (hleft.trans (le_max_left _ _))
  · exact (min_le_left _ _).trans (hright.trans (le_max_right _ _))

theorem clash_symm {start end_ start' end_' : K} (h : Clash start end_ start' end_') :
    Clash start' end_' start end_ := by
  unfold Clash at *
  rwa [max_comm, min_comm]

variable [Field K] [IsStrictOrderedRing K]

/-- A maneuver in a free part of the trajectory is taken. -/
theorem addManeuver_free {t : Trajectory K} (hs : Stored t) {m : LongitudinalManeuver K}
    (hle : m.startDist ≤ m.endDist)
    (hin : t.startLocation ≤ m.startDist ∧ m.endDist ≤ t.endLocation)
    (hfree : Free t m.startDist m.endDist) :
    ∃ t', t.addManeuver (.longitudinal m) = (some true, t') ∧ Grown t [m] t' ∧ Stored t' := by
  have hput : t.addManeuver (.longitudinal m) = _ := put_longitudinal (t := t) (m := m) hin
  have hclear : ∀ n ∈ t.getLongitudinalManeuvers,
      ¬ Clash m.startDist m.endDist n.startDist n.endDist :=
    fun n hn => not_clash_of_sides (hfree n hn)
  have htaken : (insertManeuver t.longitudinalManeuvers m m.startDist m.endDist).1 = some true := by
    rw [insertManeuver_eq _ m hle]
    apply congrArg some
    apply insert_of_fits _ hs.labeled.oneEach
    intro y hy
    obtain ⟨n, hn, hstart, hend⟩ := hs.labeled.labeled y hy
    rw [overlap_iff, hstart, hend]
    exact hclear n (mem_toSortedList.mpr ⟨y, hy, hn⟩)
  refine ⟨{ t with longitudinalManeuvers :=
    (insertManeuver t.longitudinalManeuvers m m.startDist m.endDist).2 }, by rw [hput, htaken], ?_⟩
  rcases insertManeuver_cases t.longitudinalManeuvers m m.startDist m.endDist with
    ⟨-, hperm⟩ | ⟨hno, -⟩
  · refine ⟨⟨rfl, rfl, rfl, rfl, hperm.trans (List.perm_append_singleton m _).symm⟩,
      insertManeuver_labeled hs.labeled m, ?_⟩
    refine (hperm.pairwise_iff (fun hno hc => hno (clash_symm hc))).mpr ?_
    exact List.pairwise_cons.mpr ⟨hclear, hs.apart⟩
  · exact absurd htaken hno

theorem addTo_free {t t' : Trajectory K} (hs : Stored t) {p : PlannedManeuver K}
    (hin : t.startLocation ≤ p.motion.startDist ∧ p.motion.endDist ≤ t.endLocation)
    (hfree : Free t p.motion.startDist p.motion.endDist) (h : addTo t p = some t') :
    p.motion.startDist ≤ p.motion.endDist ∧ Grown t [p.toManeuver] t' ∧ Stored t' := by
  unfold addTo at h
  by_cases hle : p.motion.startDist ≤ p.motion.endDist
  · obtain ⟨t₁, hadd, hgrown, hs₁⟩ := addManeuver_free hs (m := p.toManeuver) hle hin hfree
    rw [hadd] at h
    obtain rfl := Option.some.inj h
    exact ⟨hle, hgrown, hs₁⟩
  · have hadd : t.addManeuver (.longitudinal p.toManeuver) = _ :=
      put_longitudinal (t := t) (m := p.toManeuver) hin
    have hthrows : (insertManeuver t.longitudinalManeuvers p.toManeuver p.motion.startDist
        p.motion.endDist).1 = none := by
      unfold insertManeuver newInterval
      rw [dif_neg hle]
    rw [hadd] at h
    have hnone : (insertManeuver t.longitudinalManeuvers p.toManeuver p.toManeuver.startDist
        p.toManeuver.endDist).1 = none := hthrows
    rw [hnone] at h
    cases h

/-! ## One speed limit -/

/-- Where a maneuver starts, and at which speed. -/
def entry (m : LongitudinalManeuver K) : K × K := (m.startDist, m.motion.startSpeed)

/-- Where a maneuver ends, and at which speed. -/
def exit (m : LongitudinalManeuver K) : K × K := (m.endDist, m.motion.endSpeed)

/-- Maneuvers from one location and speed to another, each of which starts where and at
the speed at which the one before it ends. -/
structure Plan (a b : K × K) (plan : List (LongitudinalManeuver K)) : Prop where
  linked : Linked entry exit a plan b
  forward : ∀ m ∈ plan, m.startDist ≤ m.endDist

omit [Field K] [IsStrictOrderedRing K] in
theorem Plan.append {a b c : K × K} {plan more : List (LongitudinalManeuver K)}
    (h : Plan a b plan) (h' : Plan b c more) : Plan a c (plan ++ more) where
  linked := linked_append h.linked h'.linked
  forward := List.forall_mem_append.mpr ⟨h.forward, h'.forward⟩

omit [Field K] [IsStrictOrderedRing K] in
theorem Plan.between {a b : K × K} {plan : List (LongitudinalManeuver K)} (h : Plan a b plan) :
    ∀ m ∈ plan, a.1 ≤ m.startDist ∧ m.endDist ≤ b.1 :=
  (h.linked.map Prod.fst).between h.forward

omit [Field K] [IsStrictOrderedRing K] in
theorem Plan.single {m : LongitudinalManeuver K} (h : m.startDist ≤ m.endDist) :
    Plan (entry m) (exit m) [m] where
  linked := ⟨rfl, rfl⟩
  forward := List.forall_mem_singleton.mpr h

omit [IsStrictOrderedRing K] in
theorem planChange_some {c : CruisingPlugin K} {a b v u : K} {p : PlannedManeuver K}
    (h : c.planChange a b v u = some (some p)) :
    p.motion.startDist = a ∧ p.motion.startSpeed = v ∧ p.motion.endDist ≤ b := by
  unfold CruisingPlugin.planChange at h
  dsimp only at h
  split at h
  · obtain ⟨planned, hplanned, h⟩ := Option.bind_eq_some_iff.mp h
    obtain ⟨hstart, hspeed, -⟩ := planManeuver_some hplanned
    -- the end of a steady speed is overridden, which changes neither start nor speed
    have hkeep : ∀ q : PlannedManeuver K,
        q = (if planned.kind = .steadySpeed then planned.overrideEndDistance b else planned) →
          q.motion.startDist = a ∧ q.motion.startSpeed = v := by
      rintro q rfl
      split
      · exact ⟨hstart, hspeed.trans (congrArg Motion.startSpeed (setMaxAccel_motion _ _))⟩
      · exact ⟨hstart, hspeed.trans (congrArg Motion.startSpeed (setMaxAccel_motion _ _))⟩
    generalize (if planned.kind = .steadySpeed then planned.overrideEndDistance b else planned) = q
      at h hkeep
    obtain ⟨hqstart, hqspeed⟩ := hkeep q rfl
    split at h
    · obtain ⟨r, hr, h⟩ := Option.bind_eq_some_iff.mp h
      obtain rfl := Option.some.inj (Option.some.inj h)
      obtain ⟨hrstart, hrend, hrspeed⟩ := planManeuverTo_some hr
      exact ⟨hrstart, hrspeed.trans hqspeed, hrend.le⟩
    · rename_i hfits
      obtain rfl := Option.some.inj (Option.some.inj h)
      exact ⟨hqstart, hqspeed, not_lt.mp hfits⟩
  · cases h

/-- A steady speed fills what is left. -/
theorem fillUp_plan {c : CruisingPlugin K} {t t' : Trajectory K} (hs : Stored t) {a b v : K}
    (hle : a ≤ b) (hin : t.startLocation ≤ a ∧ b ≤ t.endLocation) (hfree : Free t a b)
    (h : c.fillUp t a b v = some t') :
    ∃ plan, Plan (a, v) (b, v) plan ∧ Grown t plan t' ∧ Stored t' := by
  unfold CruisingPlugin.fillUp at h
  split at h
  · obtain ⟨planned, hplanned, h⟩ := Option.bind_eq_some_iff.mp h
    obtain ⟨hstart, hspeed, hend⟩ := planManeuver_some hplanned
    have hmotion : (c.newManeuver v v).motion.startSpeed = v ∧
        (c.newManeuver v v).motion.endSpeed = v := by
      unfold CruisingPlugin.newManeuver
      rw [setMaxAccel_motion]
      exact ⟨rfl, rfl⟩
    obtain ⟨hforward, hgrown, hs'⟩ := addTo_free hs
      (p := planned.overrideEndDistance b) ⟨hstart ▸ hin.1, hin.2⟩ (by rw [show
        (planned.overrideEndDistance b).motion.startDist = a from hstart]; exact hfree) h
    refine ⟨_, ?_, hgrown, hs'⟩
    have hplan := Plan.single (m := (planned.overrideEndDistance b).toManeuver) hforward
    have hentry : entry (planned.overrideEndDistance b).toManeuver = (a, v) :=
      Prod.ext hstart (hspeed.trans hmotion.1)
    have hexit : exit (planned.overrideEndDistance b).toManeuver = (b, v) :=
      Prod.ext rfl (hend.trans hmotion.2)
    rwa [hentry, hexit] at hplan
  · rename_i hnothing
    obtain rfl := Option.some.inj h
    obtain rfl : a = b := le_antisymm hle (not_lt.mp hnothing)
    exact ⟨[], ⟨rfl, by simp⟩, .refl t, hs⟩

/-- The maneuvers for one limit go from where they should to where they should. -/
theorem planManeuvers_plan {c : CruisingPlugin K} {t t' : Trajectory K} (hs : Stored t)
    {a b v u w : K} (hle : a ≤ b) (hin : t.startLocation ≤ a ∧ b ≤ t.endLocation)
    (hfree : Free t a b) (h : c.planManeuvers t a b v u = some (t', w)) :
    ∃ plan, Plan (a, v) (b, w) plan ∧ Grown t plan t' ∧ Stored t' := by
  obtain ⟨change, hchange, h⟩ := Option.bind_eq_some_iff.mp h
  cases change with
  | none =>
    obtain ⟨t₁, hfill, h⟩ := Option.bind_eq_some_iff.mp h
    obtain ⟨rfl, rfl⟩ := Prod.mk.inj (Option.some.inj h)
    exact fillUp_plan hs hle hin hfree hfill
  | some p =>
    obtain ⟨t₁, hadd, h⟩ := Option.bind_eq_some_iff.mp h
    obtain ⟨t₂, hfill, h⟩ := Option.bind_eq_some_iff.mp h
    obtain ⟨rfl, rfl⟩ := Prod.mk.inj (Option.some.inj h)
    obtain ⟨hstart, hspeed, hend⟩ := planChange_some hchange
    have hfirst : Free t p.motion.startDist p.motion.endDist := by
      intro m hm
      rw [hstart]
      exact (hfree m hm).imp_right hend.trans
    obtain ⟨hforward, hgrown, hs₁⟩ := addTo_free hs
      ⟨hstart.symm ▸ hin.1, hend.trans hin.2⟩ hfirst hadd
    have hrest : Free t₁ p.motion.endDist b := by
      refine Free.grown ?_ hgrown (List.forall_mem_singleton.mpr (Or.inl le_rfl))
      intro m hm
      exact (hfree m hm).imp_left (fun hbefore => hbefore.trans (hstart ▸ hforward))
    obtain ⟨plan, hplan, hgrown', hs'⟩ := fillUp_plan hs₁ hend
      ⟨hgrown.starts ▸ hin.1.trans (hstart ▸ hforward), hgrown.ends ▸ hin.2⟩ hrest hfill
    have hentry : entry p.toManeuver = (a, v) := Prod.ext hstart hspeed
    have hone := Plan.single (m := p.toManeuver) hforward
    rw [hentry] at hone
    exact ⟨_, hone.append hplan, hgrown.trans hgrown', hs'⟩

/-! ## One gap -/

/-- Limits that go up from a location to a final one, where the last of them ends. -/
def Path (final : K) : K → List (SpeedLimit K) → Prop
  | at_, [] => at_ = final
  | at_, limit :: limits =>
    at_ ≤ limit.location ∧ limit.location ≤ final ∧ Path final limit.location limits

/-- Limits that go up, the last of which can be anywhere. -/
def Rising (final : K) : K → List (SpeedLimit K) → Prop
  | at_, [] => at_ ≤ final
  | at_, [_] => at_ ≤ final
  | at_, limit :: next :: limits =>
    at_ ≤ limit.location ∧ limit.location ≤ final ∧ Rising final limit.location (next :: limits)

omit [Field K] [IsStrictOrderedRing K] in
theorem rising_snoc {final at_ : K} (hle : at_ ≤ final) {limits : List (SpeedLimit K)}
    (hsorted : limits.Pairwise (fun a b => a.location < b.location))
    (hin : ∀ l ∈ limits, at_ ≤ l.location ∧ l.location ≤ final) (last : SpeedLimit K) :
    Rising final at_ (limits ++ [last]) := by
  induction limits generalizing at_ with
  | nil => exact hle
  | cons limit limits ih =>
    rw [List.forall_mem_cons] at hin
    rw [List.pairwise_cons] at hsorted
    have hrest : Rising final limit.location (limits ++ [last]) :=
      ih hin.1.2 hsorted.2 (fun l hl => ⟨(hsorted.1 l hl).le, (hin.2 l hl).2⟩)
    cases limits with
    | nil => exact ⟨hin.1.1, hin.1.2, hrest⟩
    | cons next limits => exact ⟨hin.1.1, hin.1.2, hrest⟩

omit [IsStrictOrderedRing K] in
theorem mergeLimits_path {final at_ : K} {limit_buffer : SpeedLimit K}
    {limits : List (SpeedLimit K)} (h : Rising final at_ (limit_buffer :: limits)) :
    Path final at_ (mergeLimits final limit_buffer limits) := by
  induction limits generalizing at_ limit_buffer with
  | nil => exact ⟨h, le_rfl, rfl⟩
  | cons followedLimit limits ih =>
    unfold mergeLimits
    split
    · apply ih
      cases limits with
      | nil => exact h.1.trans h.2.2
      | cons next limits => exact ⟨h.1.trans h.2.2.1, h.2.2.2⟩
    · exact ⟨h.1, h.2.1, ih h.2.2⟩

omit [IsStrictOrderedRing K] in
/-- The limits that are found for a gap go up, apart from the last of them. -/
theorem trajLimits_rising {c : CruisingPlugin K} {g : TrajectorySegment K}
    (hle : g.startLocation ≤ g.endLocation) {trajLimits : SpeedLimits K}
    (h : c.trajLimits g = some trajLimits) :
    Rising g.endLocation g.startLocation (trajLimits.limits.map c.followed) := by
  have hrise : ∀ (limits : List (SpeedLimit K)) (last : SpeedLimit K),
      limits.Pairwise (fun a b => a.location < b.location) →
      (∀ l ∈ limits, l ∈ (c.routeService.getSpeedLimitsInRange g.startLocation
        g.endLocation).limits) →
      Rising g.endLocation g.startLocation ((limits ++ [last]).map c.followed) := by
    intro limits last hsorted hsub
    rw [List.map_append, List.map_singleton]
    have hfollowed : (limits.map c.followed).Pairwise (fun a b => a.location < b.location) :=
      List.pairwise_map.mpr hsorted
    apply rising_snoc hle hfollowed
    rw [List.forall_mem_map]
    intro l hl
    obtain ⟨-, hstart, hend⟩ := SpeedLimits.mem_inRange (hsub l hl)
    exact ⟨hstart.le, hend⟩
  have hrange : Rising g.endLocation g.startLocation ((c.routeService.getSpeedLimitsInRange
      g.startLocation g.endLocation).limits.map c.followed) := by
    rcases List.eq_nil_or_concat' (c.routeService.getSpeedLimitsInRange g.startLocation
      g.endLocation).limits with hnil | ⟨limits, last, hlimits⟩
    · rw [hnil]
      exact hle
    · have hsorted := (c.routeService.getSpeedLimitsInRange g.startLocation g.endLocation).sorted
      rw [hlimits] at hsorted ⊢
      refine hrise limits last (List.pairwise_append.mp hsorted).1 ?_
      intro l hl
      rw [hlimits]
      exact List.mem_append_left _ hl
  obtain ⟨ending, hending, h⟩ := Option.bind_eq_some_iff.mp h
  cases ending with
  | none =>
    obtain rfl := Option.some.inj h
    exact hrange
  | some ending =>
    obtain rfl := Option.some.inj h
    have hlast : ∀ y ∈ (c.routeService.getSpeedLimitsInRange g.startLocation g.endLocation).limits,
        y.location ≤ ending.location := fun y hy => SpeedLimits.inRange_le hending hy
    rcases sorted_set.add_last hlast with hnew | ⟨hold, -⟩
    · show Rising _ _ (List.map _ (sorted_set.add _ _ _))
      rw [hnew]
      exact hrise _ ending (SpeedLimits.sorted _) (fun l hl => hl)
    · show Rising _ _ (List.map _ (sorted_set.add _ _ _))
      rw [hold]
      exact hrange

omit [IsStrictOrderedRing K] in
theorem mergedLimits_path {c : CruisingPlugin K} {g : TrajectorySegment K}
    (hle : g.startLocation ≤ g.endLocation) {merged : List (SpeedLimit K)}
    (h : c.mergedLimits g = some merged) : Path g.endLocation g.startLocation merged := by
  obtain ⟨trajLimits, htraj, h⟩ := Option.bind_eq_some_iff.mp h
  have hrising := trajLimits_rising hle htraj
  split at h
  · cases h
  · rename_i limit_buffer limits hlimits
    obtain rfl := Option.some.inj h
    rw [hlimits] at hrising
    exact mergeLimits_path hrising

theorem followLimits_plan {c : CruisingPlugin K} {limits : List (SpeedLimit K)} {final a v : K}
    {t t' : Trajectory K} (hs : Stored t) (hpath : Path final a limits)
    (hin : t.startLocation ≤ a ∧ final ≤ t.endLocation) (hfree : Free t a final)
    (h : c.followLimits t a v limits = some t') :
    ∃ plan w, Plan (a, v) (final, w) plan ∧ Grown t plan t' ∧ Stored t' := by
  induction limits generalizing t a v with
  | nil =>
    obtain rfl : a = final := hpath
    obtain rfl := Option.some.inj h
    exact ⟨[], v, ⟨rfl, by simp⟩, .refl t, hs⟩
  | cons limit limits ih =>
    obtain ⟨hup, hfinal, hpath⟩ := hpath
    obtain ⟨⟨t₁, u⟩, hfirst, h⟩ := Option.bind_eq_some_iff.mp h
    obtain ⟨plan, hplan, hgrown, hs₁⟩ := planManeuvers_plan hs hup
      ⟨hin.1, hfinal.trans hin.2⟩ (fun m hm => (hfree m hm).imp_right hfinal.trans) hfirst
    have hrest : Free t₁ limit.location final := by
      refine Free.grown ?_ hgrown (fun m hm => Or.inl (hplan.between m hm).2)
      exact fun m hm => (hfree m hm).imp_left (fun hbefore => hbefore.trans hup)
    obtain ⟨more, w, hmore, hgrown', hs'⟩ := ih hs₁ hpath
      ⟨hgrown.starts ▸ hin.1.trans hup, hgrown.ends ▸ hin.2⟩ hrest h
    exact ⟨_, w, hplan.append hmore, hgrown.trans hgrown', hs'⟩

/-- A plan for a gap goes from its start, at its speed, to its end. -/
def Fills (g : TrajectorySegment K) (plan : List (LongitudinalManeuver K)) : Prop :=
  ∃ w, Plan (g.startLocation, g.startSpeed) (g.endLocation, w) plan

/-- A gap of a trajectory, with nothing in it. -/
structure IsGap (t : Trajectory K) (g : TrajectorySegment K) : Prop where
  forward : g.startLocation ≤ g.endLocation
  within : t.startLocation ≤ g.startLocation ∧ g.endLocation ≤ t.endLocation
  free : Free t g.startLocation g.endLocation

theorem planTrajectoryGap_fills {c : CruisingPlugin K} {t t' : Trajectory K} (hs : Stored t)
    {g : TrajectorySegment K} (hg : IsGap t g) (h : c.planTrajectoryGap g t = some t') :
    ∃ plan, Fills g plan ∧ Grown t plan t' ∧ Stored t' := by
  obtain ⟨merged, hmerged, h⟩ := Option.bind_eq_some_iff.mp h
  obtain ⟨plan, w, hplan, hgrown, hs'⟩ := followLimits_plan hs
    (mergedLimits_path hg.forward hmerged) hg.within hg.free h
  exact ⟨plan, ⟨w, hplan⟩, hgrown, hs'⟩

/-! ## All gaps -/

/-- One gap is filled after the other, and none is in the way of the next. -/
theorem planGaps_fills {c : CruisingPlugin K} {gaps : List (TrajectorySegment K)}
    {t t' : Trajectory K} (hs : Stored t) (hgaps : ∀ g ∈ gaps, IsGap t g)
    (horder : gaps.Pairwise (fun g g' => g.endLocation ≤ g'.startLocation))
    (h : c.planGaps t gaps = some t') :
    ∃ plans, List.Forall₂ Fills gaps plans ∧ Grown t plans.flatten t' ∧ Stored t' := by
  induction gaps generalizing t with
  | nil =>
    obtain rfl := Option.some.inj h
    exact ⟨[], .nil, .refl t, hs⟩
  | cons g gaps ih =>
    obtain ⟨t₁, hfirst, h⟩ := Option.bind_eq_some_iff.mp h
    rw [List.forall_mem_cons] at hgaps
    rw [List.pairwise_cons] at horder
    obtain ⟨plan, hfills, hgrown, hs₁⟩ := planTrajectoryGap_fills hs hgaps.1 hfirst
    obtain ⟨w, hplan⟩ := hfills
    have hrest : ∀ g' ∈ gaps, IsGap t₁ g' := by
      intro g' hg'
      have hgap := hgaps.2 g' hg'
      refine ⟨hgap.forward, by rw [hgrown.starts, hgrown.ends]; exact hgap.within, ?_⟩
      apply hgap.free.grown hgrown
      exact fun m hm => Or.inl ((hplan.between m hm).2.trans (horder.1 g' hg'))
    obtain ⟨plans, hplans, hgrown', hs'⟩ := ih hs₁ hrest horder.2 h
    exact ⟨plan :: plans, .cons ⟨w, hplan⟩ hplans, hgrown.trans hgrown', hs'⟩

/-! ## The gaps that are found -/

/-- Maneuvers in a row, from a location on up to a final one. -/
structure InRow (last final : K) (lms : List (LongitudinalManeuver K)) : Prop where
  order : last ≤ final
  apart : lms.Pairwise (fun m m' => m.endDist ≤ m'.startDist)
  within : ∀ m ∈ lms, last ≤ m.startDist ∧ m.startDist < m.endDist ∧ m.endDist ≤ final

omit [Field K] [IsStrictOrderedRing K] in
theorem InRow.tail {last final : K} {m : LongitudinalManeuver K}
    {lms : List (LongitudinalManeuver K)} (h : InRow last final (m :: lms)) :
    InRow m.endDist final lms := by
  obtain ⟨-, hapart, hwithin⟩ := h
  rw [List.pairwise_cons] at hapart
  rw [List.forall_mem_cons] at hwithin
  exact ⟨hwithin.1.2.2, hapart.2, fun m' hm' => ⟨hapart.1 m' hm', (hwithin.2 m' hm').2⟩⟩

omit [Field K] [IsStrictOrderedRing K] in
theorem byStart_inRow {t : Trajectory K} (h : LongitudinalInvariant t) :
    InRow t.startLocation (planEnd t) (byStart t) := by
  have hperm : (byStart t).Perm t.getLongitudinalManeuvers := List.perm_insertionSort _ _
  have hwithin : ∀ m ∈ byStart t, t.startLocation ≤ m.startDist ∧ m.startDist < m.endDist ∧
      m.endDist ≤ planEnd t := by
    intro m hm
    have hmem := hperm.mem_iff.mp hm
    exact ⟨(h.within m hmem).1, h.positive m hmem, (h.within m hmem).2⟩
  refine ⟨h.order, ?_, hwithin⟩
  have hsorted : (byStart t).Pairwise (fun m m' => m.startDist ≤ m'.startDist) := by
    have htotal : Std.Total fun m m' : LongitudinalManeuver K => m.startDist ≤ m'.startDist :=
      ⟨fun m m' => le_total m.startDist m'.startDist⟩
    have htrans : IsTrans (LongitudinalManeuver K) fun m m' => m.startDist ≤ m'.startDist :=
      ⟨fun _ _ _ => le_trans⟩
    exact List.pairwise_insertionSort _ _
  have hapart := (hperm.pairwise_iff (fun hno hc => hno (clash_symm hc))).mpr h.stored.apart
  refine (hsorted.and hapart).imp_of_mem ?_
  rintro m m' hm hm' ⟨hle, hno⟩
  by_contra hover
  apply hno
  show max m.startDist m'.startDist < min m.endDist m'.endDist
  rw [max_eq_right hle]
  exact lt_min (not_le.mp hover) (hwithin m' hm').2.1

omit [IsStrictOrderedRing K] in
theorem mem_gapBetween {a v b : K} {g : TrajectorySegment K} (h : g ∈ gapBetween a v b) :
    g.startLocation = a ∧ g.endLocation = b := by
  unfold gapBetween at h
  split at h
  · cases h
  · obtain rfl := List.mem_singleton.mp h
    exact ⟨rfl, rfl⟩

omit [IsStrictOrderedRing K] in
theorem gapsFrom_between {last v final : K} {lms : List (LongitudinalManeuver K)}
    (h : InRow last final lms) : ∀ g ∈ gapsFrom final last v lms,
      last ≤ g.startLocation ∧ g.startLocation ≤ g.endLocation ∧ g.endLocation ≤ final ∧
        ∀ m ∈ lms, m.endDist ≤ g.startLocation ∨ g.endLocation ≤ m.startDist := by
  induction lms generalizing last v with
  | nil =>
    intro g hg
    obtain ⟨hstart, hend⟩ := mem_gapBetween hg
    rw [hstart, hend]
    exact ⟨le_rfl, h.order, le_rfl, by simp⟩
  | cons m lms ih =>
    obtain ⟨hlast, hpos, hfinal⟩ := h.within m List.mem_cons_self
    have hafter := (List.pairwise_cons.mp h.apart).1
    intro g hg
    rcases List.mem_append.mp hg with hfirst | hlater
    · obtain ⟨hstart, hend⟩ := mem_gapBetween hfirst
      rw [hstart, hend]
      refine ⟨le_rfl, hlast, hpos.le.trans hfinal, ?_⟩
      rw [List.forall_mem_cons]
      exact ⟨Or.inr le_rfl, fun m' hm' => Or.inr (hpos.le.trans (hafter m' hm'))⟩
    · obtain ⟨hstart, hforward, hend, hfree⟩ := ih h.tail g hlater
      refine ⟨(hlast.trans hpos.le).trans hstart, hforward, hend, ?_⟩
      rw [List.forall_mem_cons]
      exact ⟨Or.inl hstart, hfree⟩

omit [IsStrictOrderedRing K] in
theorem gapsFrom_pairwise {last v final : K} {lms : List (LongitudinalManeuver K)}
    (h : InRow last final lms) : (gapsFrom final last v lms).Pairwise
      (fun g g' => g.endLocation ≤ g'.startLocation) := by
  have hone : ∀ a v b : K, (gapBetween a v b).Pairwise
      (fun g g' => g.endLocation ≤ g'.startLocation) := by
    intro a v b
    unfold gapBetween
    split
    · exact List.Pairwise.nil
    · exact List.pairwise_singleton _ _
  induction lms generalizing last v with
  | nil => exact hone _ _ _
  | cons m lms ih =>
    obtain ⟨-, hpos, -⟩ := h.within m List.mem_cons_self
    refine List.pairwise_append.mpr ⟨hone _ _ _, ih h.tail, ?_⟩
    intro g hg g' hg'
    rw [(mem_gapBetween hg).2]
    exact hpos.le.trans (gapsFrom_between h.tail g' hg').1

theorem gapBetween_of_space {a v b : K} (hle : a ≤ b) :
    b - a < DISTANCE_EPSILON ∨ ∃ g ∈ gapBetween a v b, g.startLocation = a ∧ g.endLocation = b := by
  unfold gapBetween fpEquals
  split
  · rename_i hclose
    left
    rw [decide_eq_true_iff, abs_sub_comm, abs_of_nonneg (sub_nonneg.mpr hle)] at hclose
    exact hclose
  · exact Or.inr ⟨_, List.mem_singleton_self _, rfl, rfl⟩

theorem gapsFrom_spaces {last v final : K} {lms : List (LongitudinalManeuver K)}
    (h : InRow last final lms) :
    ∀ x ∈ spaces LongitudinalManeuver.startDist LongitudinalManeuver.endDist last lms final,
      x.2 - x.1 < DISTANCE_EPSILON ∨
        ∃ g ∈ gapsFrom final last v lms, g.startLocation = x.1 ∧ g.endLocation = x.2 := by
  induction lms generalizing last v with
  | nil => exact List.forall_mem_singleton.mpr (gapBetween_of_space h.order)
  | cons m lms ih =>
    unfold spaces
    rw [List.forall_mem_cons]
    refine ⟨?_, ?_⟩
    · refine (gapBetween_of_space (v := v) (h.within m List.mem_cons_self).1).imp_right ?_
      rintro ⟨g, hg, hplace⟩
      exact ⟨g, List.mem_append_left _ hg, hplace⟩
    · intro x hx
      refine (ih (v := m.motion.endSpeed) h.tail x hx).imp_right ?_
      rintro ⟨g, hg, hplace⟩
      exact ⟨g, List.mem_append_right _ hg, hplace⟩

/-! ## Planned trajectories -/

/-- A location on a longitudinal maneuver or on the complex maneuver. -/
def Covered (t : Trajectory K) (p : K) : Prop :=
  (∃ m ∈ t.getLongitudinalManeuvers, m.startDist ≤ p ∧ p < m.endDist) ∨
    ∃ c, t.complexManeuver = some c ∧ c.startDist ≤ p ∧ p < c.endDist

/-- `t'` is `t` after the plugin filled its gaps, with a plan for each. -/
structure Cruised (t : Trajectory K) (gaps : List (TrajectorySegment K))
    (plans : List (List (LongitudinalManeuver K))) (t' : Trajectory K) : Prop where
  grown : Grown t plans.flatten t'
  fills : List.Forall₂ Fills gaps plans
  covers : ∀ a b, t'.startLocation ≤ a → b ≤ t'.endLocation → Uncovered (Covered t') a b →
    b - a < DISTANCE_EPSILON
  apart : t'.getLongitudinalManeuvers.Pairwise
    (fun m m' => ¬ Clash m.startDist m.endDist m'.startDist m'.endDist)

omit [Field K] [IsStrictOrderedRing K] in
theorem exists_plan {gaps : List (TrajectorySegment K)}
    {plans : List (List (LongitudinalManeuver K))} (h : List.Forall₂ Fills gaps plans)
    {g : TrajectorySegment K} (hg : g ∈ gaps) : ∃ plan ∈ plans, Fills g plan := by
  induction h with
  | nil => cases hg
  | cons hfills _ ih =>
    rcases List.mem_cons.mp hg with rfl | hg
    · exact ⟨_, List.mem_cons_self, hfills⟩
    · obtain ⟨plan, hplan, hfills⟩ := ih hg
      exact ⟨plan, List.mem_cons_of_mem _ hplan, hfills⟩

/-- Where each gap is filled, what is not covered is below the tolerance. -/
theorem covers_of_fills {t t' : Trajectory K} (h : LongitudinalInvariant t) {v : K}
    {plans : List (List (LongitudinalManeuver K))} (hgrown : Grown t plans.flatten t')
    (hfills : List.Forall₂ Fills (findTrajectoryGaps t v) plans) {a b : K}
    (ha : t'.startLocation ≤ a) (hb : b ≤ t'.endLocation) (hno : Uncovered (Covered t') a b) :
    b - a < DISTANCE_EPSILON := by
  have hin : ∀ m ∈ byStart t, ∀ p, m.startDist ≤ p → p < m.endDist → Covered t' p := by
    intro m hm p hstart hend
    have hmem : m ∈ t.getLongitudinalManeuvers :=
      (List.perm_insertionSort _ _).mem_iff.mp hm
    exact Or.inl ⟨m, hgrown.longitudinals.mem_iff.mpr (List.mem_append_left _ hmem), hstart, hend⟩
  have hgap : ∀ g ∈ findTrajectoryGaps t v, ∀ p, g.startLocation ≤ p → p < g.endLocation →
      Covered t' p := by
    intro g hg p hstart hend
    obtain ⟨plan, hplan, w, hlinked⟩ := exists_plan hfills hg
    obtain ⟨m, hm, hp⟩ := (hlinked.linked.map Prod.fst).covers hstart hend
    have hmem : m ∈ plans.flatten := List.mem_flatten.mpr ⟨plan, hplan, hm⟩
    exact Or.inl ⟨m, hgrown.longitudinals.mem_iff.mpr (List.mem_append_right _ hmem), hp⟩
  have hrow := byStart_inRow h
  have hend : b ≤ planEnd t := by
    unfold planEnd
    split
    · exact hgrown.ends ▸ hb
    · rename_i c hc
      -- the complex maneuver covers the rest
      by_contra hover
      apply hno.2 (max a c.startDist) (le_max_left _ _) (max_lt hno.1 (not_le.mp hover))
      refine Or.inr ⟨c, hgrown.complex.trans hc, le_max_right _ _, ?_⟩
      rw [← (h.complex c hc).2, ← hgrown.ends]
      exact (max_lt hno.1 (not_le.mp hover)).trans_le hb
  refine uncovered_lt (fun m hm => (hrow.within m hm).2.1) hin ?_ (hgrown.starts ▸ ha) hend hno
  intro x hx
  refine (gapsFrom_spaces (v := v) hrow x hx).imp_right ?_
  rintro ⟨g, hg, hstart, hfinish⟩
  rw [← hstart, ← hfinish]
  exact hgap g hg

/-- After the plugin planned a trajectory, what is not covered is below the tolerance, no
longitudinal maneuvers overlap, and in each gap maneuvers follow each other at one speed. -/
theorem a_planned_trajectory_is_covered_and_linked (c : CruisingPlugin K) (t t' : Trajectory K)
    (h : LongitudinalInvariant t) (expectedEntrySpeed : K)
    (hplan : c.planTrajectory t expectedEntrySpeed = some t') :
    ∃ v plans, c.trajStartSpeed t expectedEntrySpeed = some v ∧
      Cruised t (findTrajectoryGaps t v) plans t' := by
  obtain ⟨v, hv, hplan⟩ := Option.bind_eq_some_iff.mp hplan
  have hrow := byStart_inRow h
  have hends : planEnd t ≤ t.endLocation := by
    unfold planEnd
    split
    · exact le_rfl
    · rename_i m hm
      obtain ⟨hforward, hlast⟩ := h.complex m hm
      exact hlast ▸ hforward
  have hgaps : ∀ g ∈ findTrajectoryGaps t v, IsGap t g := by
    intro g hg
    obtain ⟨hstart, hforward, hend, hfree⟩ := gapsFrom_between hrow g hg
    refine ⟨hforward, ⟨hstart, hend.trans hends⟩, ?_⟩
    exact fun m hm => hfree m ((List.perm_insertionSort _ _).mem_iff.mpr hm)
  obtain ⟨plans, hfills, hgrown, hs'⟩ :=
    planGaps_fills h.stored hgaps (gapsFrom_pairwise hrow) hplan
  exact ⟨v, plans, hv, hgrown, hfills, fun a b => covers_of_fills h hgrown hfills, hs'.apart⟩

/-! ## A maneuver further on -/

/-- The plugin on a route of a hundred meters, with a limit of five miles an hour. -/
def onShortRoute : CruisingPlugin ℚ :=
  onInitialize (5 / 2) 1
    (processRoute (route_node.newRoute route_node.flatEarth
      [route_node.flatWaypoint 0 0, route_node.flatWaypoint 100 0] "road" "road"))
    ⟨1 / 10, Rat.sqrt⟩

/-- A trajectory whose middle is planned already, at a meter a second. -/
def plannedAhead : Trajectory ℚ :=
  ((newTrajectory 0 100).put (ofLongitudinal (.single .steadySpeed ⟨50, 60, 1, 1⟩))).2

theorem plannedAhead_invariant : LongitudinalInvariant plannedAhead := by
  have hkept : Kept plannedAhead :=
    put_kept (newTrajectory_kept 0 100)
      (show (50 : ℚ) < 60 by norm_num)
  have hnone : plannedAhead.complexManeuver = none := by decide +kernel
  apply longitudinalInvariant_of_kept hkept
  · intro c hc
    rw [hnone] at hc
    cases hc
  · decide +kernel
  · intro c hc
    rw [hnone] at hc
    cases hc

theorem a_trajectory_planned_ahead_is_covered : ∃ t' v plans,
    onShortRoute.planTrajectory plannedAhead 0 = some t' ∧
      Cruised plannedAhead (findTrajectoryGaps plannedAhead v) plans t' := by
  have hsome : (onShortRoute.planTrajectory plannedAhead 0).isSome = true := by decide +kernel
  obtain ⟨t', ht'⟩ := Option.isSome_iff_exists.mp hsome
  obtain ⟨v, plans, -, hcruised⟩ := a_planned_trajectory_is_covered_and_linked onShortRoute
    plannedAhead t' plannedAhead_invariant 0 ht'
  exact ⟨t', v, plans, ht', hcruised⟩

/-- The gap before the maneuver is planned up to the speed limit, whatever the speed is at
which the maneuver starts. -/
theorem a_gap_does_not_end_at_the_speed_ahead : LongitudinalInvariant plannedAhead ∧
    ∃ t', onShortRoute.planTrajectory plannedAhead 0 = some t' ∧
      ∃ m ∈ t'.getLongitudinalManeuvers, m ∉ plannedAhead.getLongitudinalManeuvers ∧
        ∃ next ∈ plannedAhead.getLongitudinalManeuvers,
          m.endDist = next.startDist ∧ m.motion.endSpeed ≠ next.motion.startSpeed := by
  refine ⟨plannedAhead_invariant, ?_⟩
  have hsome : (onShortRoute.planTrajectory plannedAhead 0).isSome = true := by decide +kernel
  obtain ⟨t', ht'⟩ := Option.isSome_iff_exists.mp hsome
  have hmotion : ∃ x ∈ ((onShortRoute.planTrajectory plannedAhead 0).map fun t' =>
      t'.getLongitudinalManeuvers.map LongitudinalManeuver.motion).getD [],
      x.startDist < 50 ∧ x.endDist = 50 ∧ x.endSpeed ≠ 1 := by
    decide +kernel
  have hahead : plannedAhead.getLongitudinalManeuvers.map LongitudinalManeuver.motion =
      [⟨50, 60, 1, 1⟩] := by
    decide +kernel
  rw [ht', Option.map_some, Option.getD_some] at hmotion
  obtain ⟨x, hx, hstart, hend, hspeed⟩ := hmotion
  obtain ⟨m, hm, rfl⟩ := List.mem_map.mp hx
  have hnew : m ∉ plannedAhead.getLongitudinalManeuvers := by
    intro hold
    have hmem := List.mem_map_of_mem (f := LongitudinalManeuver.motion) hold
    rw [hahead, List.mem_singleton] at hmem
    rw [hmem] at hstart
    exact absurd hstart (lt_irrefl _)
  have hnext : (⟨50, 60, 1, 1⟩ : Motion ℚ) ∈
      plannedAhead.getLongitudinalManeuvers.map LongitudinalManeuver.motion := by
    rw [hahead]
    exact List.mem_singleton_self _
  obtain ⟨next, hnext, hplace⟩ := List.mem_map.mp hnext
  refine ⟨t', ht', m, hm, hnew, next, hnext, ?_, ?_⟩
  · exact hend.trans (congrArg Motion.startDist hplace).symm
  · rw [hplace]
    exact hspeed

end carma.cruising
