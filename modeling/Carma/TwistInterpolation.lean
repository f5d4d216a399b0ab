-- What the history of twists gives between two of them. The part of the way that `lerp`
-- goes is a count of whole seconds, so only a query at the later of two stamps that are
-- one second and less than two apart is answered as it should be.
import Carma.TwistHistoryBuffer

namespace carma.twist_history_buffer

open RosTime

section Arithmetic

variable {K : Type} [Field K]

theorem value_along_inj {a b p r : K} (h : a + (b - a) * p = a + (b - a) * r) : a = b ∨ p = r := by
  have hzero : (b - a) * (p - r) = 0 := by linear_combination h
  rcases mul_eq_zero.mp hzero with h | h
  · exact Or.inl (sub_eq_zero.mp h).symm
  · exact Or.inr (sub_eq_zero.mp h)

/-- Two parts of the way from one vector to another end at one place only when the vectors
are the same or the parts are. -/
theorem Vector3.along_inj (a b : Vector3 K) (p r : K) :
    a.along b p = a.along b r ↔ a = b ∨ p = r := by
  constructor
  · intro h
    simp only [Vector3.along, Vector3.mk.injEq] at h
    by_cases hpr : p = r
    · exact Or.inr hpr
    · left
      have hx := (value_along_inj h.1).resolve_right hpr
      have hy := (value_along_inj h.2.1).resolve_right hpr
      have hz := (value_along_inj h.2.2).resolve_right hpr
      cases a
      cases b
      simp_all
  · rintro (rfl | rfl)
    · simp [Vector3.along]
    · rfl

theorem Twist.along_inj (a b : Twist K) (p r : K) :
    a.along b p = a.along b r ↔ a = b ∨ p = r := by
  simp only [Twist.along, Twist.mk.injEq, Vector3.along_inj]
  cases a
  cases b
  simp only [Twist.mk.injEq]
  tauto

variable [LinearOrder K] [IsStrictOrderedRing K]

/-- Whole seconds are the part of the way only at the end of a way of one whole second and
less than two. -/
theorem delta_t_eq_iff {dt way : ℤ} (hdt : 0 < dt) (hway : dt ≤ way) (hlt : way < 2 ^ 63) :
    ((delta_t dt : ℕ) : K) = (dt : K) / (way : K) ↔
      dt = way ∧ 1000000 ≤ way ∧ way < 2000000 := by
  have hmod : dt % 2 ^ 64 = dt := Int.emod_eq_of_lt hdt.le (by omega)
  have hwayK : (way : K) ≠ 0 := by
    have : way ≠ 0 := by omega
    exact_mod_cast this
  rw [eq_div_iff hwayK]
  have hcast : ((delta_t dt : ℕ) : K) * (way : K) = (dt : K) ↔ (delta_t dt : ℤ) * way = dt := by
    rw [← Int.cast_natCast, ← Int.cast_mul, Int.cast_inj]
  have hdelta : (delta_t dt : ℤ) = dt / 1000000 := by
    unfold delta_t
    rw [hmod]
    omega
  rw [hcast, hdelta]
  constructor
  · intro h
    have hone : dt / 1000000 = 1 := by
      have hpos : 0 < dt / 1000000 := by
        by_contra hle
        have : dt / 1000000 * way ≤ 0 := mul_nonpos_of_nonpos_of_nonneg (by omega) (by omega)
        omega
      by_contra hne
      have : 2 * way ≤ dt / 1000000 * way := by
        apply mul_le_mul_of_nonneg_right <;> omega
      omega
    rw [hone] at h
    omega
  · rintro ⟨rfl, hlow, hhigh⟩
    have hone : dt / 1000000 = 1 := by omega
    rw [hone, one_mul]

end Arithmetic

variable {Time K : Type} [RosTime Time] [Field K]

theorem getTwist_eq (b : TwistHistoryBuffer Time K) (frame : String) (time : Time) :
    b.getTwist frame time =
      (LinearHistoryBuffer.mk (held b frame) b.q_duration_length_).getLerp lerp (toBoost time) := by
  unfold TwistHistoryBuffer.getTwist held
  cases b.q_ frame with
  | none => rfl
  | some q => rfl

/-- What the history of a frame is to be, and what it is to give for a time. -/
structure Interpolates (b : TwistHistoryBuffer Time K) (frame : String) (time : Time) : Prop where
  ordered : (held b frame).Pairwise (fun e f => e.1 ≤ f.1)
  recent : ∀ e ∈ held b frame, ∀ newest ∈ (held b frame).getLast?,
    newest.1 - b.q_duration_length_ ≤ e.1
  oldest : ∀ e ∈ (held b frame).head?, toBoost time = e.1 →
    b.getTwist frame time = .ok (some e.2)
  between : ∀ before e f after, held b frame = before ++ e :: f :: after →
    e.1 < toBoost time → toBoost time ≤ f.1 → ∃ out, b.getTwist frame time = .ok (some out) ∧
      out.twist = e.2.twist.along f.2.twist
        (((toBoost time - e.1 : ℤ) : K) / ((f.1 - e.1 : ℤ) : K))
  past : ∀ e ∈ (held b frame).head?, toBoost time < e.1 →
    b.getTwist frame time = .error intoPast
  future : ∀ e ∈ (held b frame).getLast?, e.1 < toBoost time →
    b.getTwist frame time = .error intoFuture

/-- The neighbours of a time have the same twist, or the time is that of the later one and
the two are a second apart and less than two. -/
def SecondApart (b : TwistHistoryBuffer Time K) (frame : String) (time : Time) : Prop :=
  ∀ before e f after, held b frame = before ++ e :: f :: after →
    e.1 < toBoost time → toBoost time ≤ f.1 → e.2.twist = f.2.twist ∨
      (toBoost time = f.1 ∧ 1000000 ≤ f.1 - e.1 ∧ f.1 - e.1 < 2000000)

variable [LinearOrder K] [IsStrictOrderedRing K]

/-- What is given between two neighbours is right just when they are alike or the whole
seconds are the part of the way. -/
theorem between_iff {b : TwistHistoryBuffer Time K} (hb : Kept b) {frame : String} {time : Time}
    {before after : List (ℤ × TwistStamped Time K)} {e f : ℤ × TwistStamped Time K}
    (heq : held b frame = before ++ e :: f :: after) (he : e.1 < toBoost time)
    (hf : toBoost time ≤ f.1) :
    (∃ out, b.getTwist frame time = .ok (some out) ∧ out.twist = e.2.twist.along f.2.twist
        (((toBoost time - e.1 : ℤ) : K) / ((f.1 - e.1 : ℤ) : K))) ↔
      e.2.twist = f.2.twist ∨
        (toBoost time = f.1 ∧ 1000000 ≤ f.1 - e.1 ∧ f.1 - e.1 < 2000000) := by
  have hget : b.getTwist frame time = .ok (some (lerp e.2 f.2 (toBoost time - e.1))) := by
    rw [getTwist_eq]
    exact getLerp_between (hb.fresh frame).ordered heq he hf
  obtain ⟨etime, hetime⟩ := hb.stamped frame e (by simp [heq])
  obtain ⟨ftime, hftime⟩ := hb.stamped frame f (by simp [heq])
  have helow := (toBoost_bounds etime).1
  have hfhigh := (toBoost_bounds ftime).2
  have hdt : 0 < toBoost time - e.1 := by omega
  have hway : toBoost time - e.1 ≤ f.1 - e.1 := by omega
  have hlt : f.1 - e.1 < 2 ^ 63 := by omega
  have hdelta := delta_t_eq_iff (K := K) hdt hway hlt
  rw [hget]
  simp only [Except.ok.injEq, Option.some.injEq, exists_eq_left', lerp, Twist.along_inj]
  rw [hdelta]
  constructor
  · exact Or.imp_right fun ⟨h, hapart⟩ => ⟨by omega, hapart⟩
  · exact Or.imp_right fun ⟨h, hapart⟩ => ⟨by omega, hapart⟩

/-- After any twists, the history of a frame is in order and within the period, its oldest
entry is given at its own time and nothing outside of what is held; and what is given in
between is the interpolation just when the neighbours are alike or a second apart. -/
theorem getTwist_interpolates_iff (length : ℤ) (hlength : 0 ≤ length)
    (twists : List (TwistStamped Time K)) :
    ∃ b, addTwists (TwistHistoryBuffer.new length) twists = some b ∧
      b.q_duration_length_ = length ∧
      ∀ frame time, Interpolates b frame time ↔ SecondApart b frame time := by
  obtain ⟨b, hrun, hlengthb, hb⟩ := addTwists_kept
    (b := (TwistHistoryBuffer.new length : TwistHistoryBuffer Time K)) hlength (new_kept length)
    twists
  refine ⟨b, hrun, hlengthb, ?_⟩
  intro frame time
  constructor
  · intro h before e f after heq he hf
    exact (between_iff hb heq he hf).mp (h.between before e f after heq he hf)
  · intro h
    refine ⟨(hb.fresh frame).ordered, (hb.fresh frame).recent, ?_, ?_, ?_, ?_⟩
    · intro e he htime
      rw [getTwist_eq, htime]
      exact getLerp_oldest he
    · intro before e f after heq he hf
      exact (between_iff hb heq he hf).mpr (h before e f after heq he hf)
    · intro e he htime
      rw [getTwist_eq]
      exact getLerp_past he htime
    · intro e he htime
      rw [getTwist_eq]
      exact getLerp_future (hb.fresh frame).ordered he htime

/-- `ros::Time`, and what `toBoost` makes of it: microseconds, cut off. -/
structure Stamp where
  sec : UInt32
  nsec : UInt32
deriving DecidableEq

instance : RosTime Stamp where
  toBoost time := time.sec.toNat * 1000000 + time.nsec.toNat / 1000
  fromBoost t := ⟨.ofNat (t / 1000000).toNat, .ofNat (t % 1000000 * 1000).toNat⟩
  toBoost_bounds time := by
    have hsec := time.sec.toNat_lt
    have hnsec := time.nsec.toNat_lt
    omega

def straight (stamp : Stamp) (speed : ℚ) : TwistStamped Stamp ℚ :=
  ⟨⟨stamp, "body"⟩, ⟨⟨speed, 0, 0⟩, ⟨0, 0, 0⟩⟩⟩

/-- Two twists half a second apart. -/
def speedingUp : List (TwistStamped Stamp ℚ) :=
  [straight ⟨10, 0⟩ 0, straight ⟨10, 500000000⟩ 1]

theorem getTwist_interpolates_speedingUp :
    ∃ b, addTwists (TwistHistoryBuffer.new 2000000) speedingUp = some b ∧
      b.q_duration_length_ = 2000000 ∧
      ∀ frame time, Interpolates b frame time ↔ SecondApart b frame time :=
  getTwist_interpolates_iff 2000000 (by decide) speedingUp

/-- Half way between them it is still the first one that is given. -/
theorem half_a_second_is_no_way :
    ¬ ∀ (length : ℤ) (twists : List (TwistStamped Stamp ℚ)), 0 ≤ length →
      ∃ b, addTwists (TwistHistoryBuffer.new length) twists = some b ∧
        ∀ frame time, Interpolates b frame time := by
  intro h
  obtain ⟨b, hrun, hb⟩ := h 2000000 speedingUp (by decide)
  have hheld : held b "body" =
      [] ++ (10000000, straight ⟨10, 0⟩ 0) :: (10500000, straight ⟨10, 500000000⟩ 1) :: [] := by
    cases hrun
    rfl
  obtain ⟨out, hget, hout⟩ := (hb "body" ⟨10, 250000000⟩).between _ _ _ _ hheld (by decide)
    (by decide)
  rw [getTwist_eq, getLerp_between (by simp [hheld]) hheld (by decide) (by decide)] at hget
  simp only [Except.ok.injEq, Option.some.injEq] at hget
  subst hget
  have htime : toBoost (⟨10, 250000000⟩ : Stamp) = 10250000 := rfl
  have hx := congrArg (fun twist => twist.linear.x) hout
  simp only [htime, lerp, straight, Twist.along, Vector3.along] at hx
  have hwhole : delta_t 250000 = 0 := by decide
  norm_num [hwhole] at hx

end carma.twist_history_buffer
