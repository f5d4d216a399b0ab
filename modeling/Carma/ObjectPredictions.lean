-- Where the prediction of the collision checker starts. The predictor takes the last place of the
-- history for the newest observation. The history is a heap, which has its oldest at the first place
-- and says little about the last one: it is the newest where it came last and nothing was removed
-- since, or where there are two observations at most.
import Carma.ObjectCollisionChecker
import Mathlib.Data.Int.ConditionallyCompleteOrder
import Mathlib.Data.Rat.Floor

open lib.binary_heap lib.runs
open carma.conflict_manager (PathPoint)

namespace carma.object_collision_checker

/-! ## The predictor -/

section predictor

variable {K : Type} [Field K] [LinearOrder K]

theorem epsilon_pos [IsStrictOrderedRing K] : (0 : K) < FLOATING_POINT_EPSILON := by
  unfold FLOATING_POINT_EPSILON
  positivity

theorem standing_enough [IsStrictOrderedRing K] {d endTime t : K} {turns : ℕ}
    (h : endTime ≤ t + turns * (1 / ((10 : ℤ) : K))) (more : ℕ) :
    standing d endTime t (turns + more) = standing d endTime t turns := by
  have heps : (0 : K) < FLOATING_POINT_EPSILON := epsilon_pos
  induction turns generalizing t with
  | zero =>
    rw [Nat.cast_zero, zero_mul, add_zero] at h
    cases more with
    | zero => rfl
    | succ more =>
      rw [Nat.zero_add]
      unfold standing
      rw [if_neg (by linarith)]
  | succ turns ih =>
    rw [Nat.succ_add]
    unfold standing
    split
    · dsimp only
      rw [ih]
      push_cast at h ⊢
      linarith
    · rfl

theorem moving_enough [IsStrictOrderedRing K] {distanceStep timeStep endDist d t : K} {turns : ℕ}
    (h : endDist ≤ d + turns * distanceStep) (more : ℕ) :
    moving distanceStep timeStep endDist d t (turns + more) =
      moving distanceStep timeStep endDist d t turns := by
  have heps : (0 : K) < FLOATING_POINT_EPSILON := epsilon_pos
  induction turns generalizing d t with
  | zero =>
    rw [Nat.cast_zero, zero_mul, add_zero] at h
    cases more with
    | zero => rfl
    | succ more =>
      rw [Nat.zero_add]
      unfold moving
      rw [if_neg (by linarith)]
  | succ turns ih =>
    rw [Nat.succ_add]
    unfold moving
    split
    · rw [ih]
      push_cast at h
      linarith
    · rfl

variable [FloorRing K]

theorem self_le_ceil_toNat [IsStrictOrderedRing K] (x : K) : x ≤ (⌈x⌉.toNat : K) := by
  have hle : (⌈x⌉ : K) ≤ ((⌈x⌉.toNat : ℤ) : K) := by exact_mod_cast Int.self_le_toNat ⌈x⌉
  exact (Int.le_ceil x).trans (by exact_mod_cast hle)

/-- Both loops of the predictor end by their own condition: more turns change nothing. -/
theorem predictMotion_ends [IsStrictOrderedRing K] (p : Params K) {speed d t : K} (more : ℕ) :
    (standing d (p.timeDuration + t) t (⌈p.timeDuration * ((10 : ℤ) : K)⌉.toNat + more) =
      standing d (p.timeDuration + t) t ⌈p.timeDuration * ((10 : ℤ) : K)⌉.toNat) ∧
    (moving p.distanceStep (p.distanceStep / speed) (d + p.timeDuration * speed) d t
        (⌈p.timeDuration * speed / p.distanceStep⌉.toNat + more) =
      moving p.distanceStep (p.distanceStep / speed) (d + p.timeDuration * speed) d t
        ⌈p.timeDuration * speed / p.distanceStep⌉.toNat) := by
  have hstep := p.stepPositive
  constructor
  · apply standing_enough
    have h := self_le_ceil_toNat (p.timeDuration * ((10 : ℤ) : K))
    push_cast at h ⊢
    linarith
  · apply moving_enough
    have h := self_le_ceil_toNat (p.timeDuration * speed / p.distanceStep)
    rw [div_le_iff₀ hstep] at h
    linarith

theorem predictMotion_head (objTrajectory : List (RoadwayObstacle K)) (distanceStep timeDuration : K) :
    (predictMotion objTrajectory distanceStep timeDuration).head? =
      objTrajectory.getLast?.map RoadwayObstacle.place := by
  unfold predictMotion
  cases objTrajectory.getLast? with
  | none => rfl
  | some last => rfl

end predictor

/-! ## The history -/

section history

variable {K : Type} [Field K] [LinearOrder K]

omit [Field K] [LinearOrder K] in
theorem byStamp_respects :
    Respects (fun o : RoadwayObstacle K => o.stamp) byStamp fun _ => True := by
  intro a b _ _
  unfold byStamp compareTo
  constructor
  · intro h
    split_ifs at h with hlt heq
    · exact hlt.le
    · exact heq.le
    · omega
  · intro h
    split_ifs at h with hlt heq
    · omega
    · exact heq.ge
    · dsimp only
      omega

omit [Field K] [LinearOrder K] in
theorem compareTo_neg {t1 t2 : ℤ} : compareTo t1 t2 < 0 ↔ t1 < t2 := by
  unfold compareTo
  split_ifs <;> omega

/-- The observations of a call that are tracked, in the order in which they arrive. -/
def Update.tracked (u : Update K) : List (RoadwayObstacle K) := u.obstacles.filter u.tracks

theorem addObstacles_eq (u : Update K) (obstacles : List (RoadwayObstacle K))
    (history : Option (List (RoadwayObstacle K))) :
    (obstacles.foldl (addObstacle u) history).getD [] =
      (obstacles.filter u.tracks).foldl (offer byStamp) (history.getD []) := by
  induction obstacles generalizing history with
  | nil => rfl
  | cons obs obstacles ih =>
    rw [List.foldl_cons, ih]
    unfold addObstacle
    by_cases htracks : u.tracks obs = true
    · rw [if_pos htracks, List.filter_cons_of_pos htracks, List.foldl_cons, Option.getD_some]
    · rw [if_neg htracks, List.filter_cons_of_neg htracks]

omit [Field K] [LinearOrder K] in
/-- Expiry takes the expired observations out of a heap and no others. -/
theorem removeExpiredData_spec (minObjStamp : ℤ) {turns : ℕ} {queue : List (RoadwayObstacle K)}
    (hturns : queue.length ≤ turns) (h : Ordered (fun o => o.stamp) queue) :
    (removeExpiredData minObjStamp turns queue).Perm
        (queue.filter fun o => decide (minObjStamp ≤ o.stamp)) ∧
      Ordered (fun o => o.stamp) (removeExpiredData minObjStamp turns queue) := by
  induction turns generalizing queue with
  | zero =>
    have hempty : queue = [] := List.eq_nil_of_length_eq_zero (Nat.le_zero.mp hturns)
    subst hempty
    exact ⟨List.Perm.refl _, h⟩
  | succ turns ih =>
    unfold removeExpiredData
    cases hpoll : poll byStamp queue with
    | none =>
      rw [poll_eq_none.mp hpoll]
      exact ⟨List.Perm.refl _, ordered_nil _⟩
    | some polled =>
      obtain ⟨obs, rest⟩ := polled
      obtain ⟨hhead, hperm⟩ := poll_perm hpoll
      dsimp only
      split
      · rename_i hexpired
        rw [compareTo_neg] at hexpired
        have hlength := hperm.length_eq
        rw [List.length_cons] at hlength
        have hrest := poll_ordered _ byStamp_respects hpoll (fun _ _ => trivial) h
        obtain ⟨hleft, hordered⟩ := ih (by omega) hrest
        refine ⟨hleft.trans ?_, hordered⟩
        have hfilter := hperm.filter fun o => decide (minObjStamp ≤ o.stamp)
        rw [List.filter_cons_of_neg (by simp; omega)] at hfilter
        exact hfilter.symm
      · -- the root is not expired, and it is the oldest
        rename_i hkept
        rw [compareTo_neg] at hkept
        refine ⟨?_, h⟩
        rw [List.filter_eq_self.mpr]
        intro o ho
        have hroot : obs.stamp ≤ o.stamp := root_le _ h hhead ho
        simp only [decide_eq_true_eq]
        omega

omit [Field K] [LinearOrder K] in
/-- Where nothing is expired, the heap stays as it is. -/
theorem removeExpiredData_none {minObjStamp : ℤ} {queue : List (RoadwayObstacle K)}
    (h : ∀ o ∈ queue, minObjStamp ≤ o.stamp) (turns : ℕ) :
    removeExpiredData minObjStamp turns queue = queue := by
  cases turns with
  | zero => rfl
  | succ turns =>
    unfold removeExpiredData
    cases hpoll : poll byStamp queue with
    | none => rfl
    | some polled =>
      obtain ⟨obs, rest⟩ := polled
      have hmem : obs ∈ queue := List.mem_of_head? (poll_perm hpoll).1
      dsimp only
      rw [if_neg]
      rw [compareTo_neg]
      exact not_lt.mpr (h obs hmem)

end history

/-! ## What was seen -/

/-- The checker, and beside it the observations that were tracked and have not expired since, in
the order in which they arrived. -/
structure Watch (K : Type) where
  checker : ObjectCollisionChecker K
  seen : List (RoadwayObstacle K)

/-- Before the first call. -/
def Watch.new {K : Type} : Watch K where
  checker := { history := none, predictions := none, ncvDetectionTime := none }
  seen := []

section watch

variable {K : Type} [Field K] [LinearOrder K]

/-- The observation is not expired at the call. -/
def Update.Fresh (p : Params K) (u : Update K) (obs : RoadwayObstacle K) : Prop :=
  u.minObjStamp p ≤ obs.stamp

instance (p : Params K) (u : Update K) : DecidablePred (u.Fresh p) :=
  fun obs => inferInstanceAs (Decidable (u.minObjStamp p ≤ obs.stamp))

/-- What a call finds: the stored observations, and those that it brings. -/
def Watch.found (w : Watch K) (u : Update K) : List (RoadwayObstacle K) :=
  w.checker.history.getD [] ++ u.tracked

/-- At most two observations are left after the call, or it expires none and the one that it brings
last, if any, is not older than the others. -/
def Watch.NewestStaysLast (p : Params K) (w : Watch K) (u : Update K) : Prop :=
  u.routeDataAvailable = true →
    ((w.found u).filter fun o => decide (u.Fresh p o)).length ≤ 2 ∨
      ((∀ o ∈ w.found u, u.Fresh p o) ∧
        ∀ last ∈ u.tracked.getLast?, ∀ o ∈ w.found u, o.stamp ≤ last.stamp)

instance (p : Params K) (w : Watch K) (u : Update K) : Decidable (w.NewestStaysLast p u) :=
  inferInstanceAs (Decidable (_ → _ ∨ (_ ∧ _)))

/-- The prediction starts at the downtrack and the stamp of the newest observation that is not
expired, and there is none where there is no such observation. -/
def Watch.StartsAtNewest (w : Watch K) : Prop :=
  (w.seen = [] ∧ w.checker.predictions = none) ∨
    ∃ newest ∈ w.seen, (∀ o ∈ w.seen, o.stamp ≤ newest.stamp) ∧
      w.checker.predictions.bind List.head? = some newest.place

instance (w : Watch K) : Decidable w.StartsAtNewest :=
  inferInstanceAs (Decidable (_ ∨ ∃ newest ∈ w.seen, _ ∧ _))

/-- No observation of the history is newer than the one at its last place. -/
def ObjectCollisionChecker.NewestLast (c : ObjectCollisionChecker K) : Prop :=
  ∀ last ∈ (c.history.getD []).getLast?, ∀ o ∈ c.history.getD [], o.stamp ≤ last.stamp

variable [FloorRing K]

def Watch.updateObjects (p : Params K)
    (getConflicts : List (PathPoint K) → List (PathPoint K) → K → Bool) (w : Watch K)
    (u : Update K) : Watch K where
  checker := w.checker.updateObjects p getConflicts u
  seen :=
    if u.routeDataAvailable then (w.seen ++ u.tracked).filter fun o => decide (u.Fresh p o)
    else w.seen

/-- What every call keeps: the history is a heap of what was seen, and the prediction is made of
it. -/
structure Watch.Consistent (p : Params K) (w : Watch K) : Prop where
  perm : (w.checker.history.getD []).Perm w.seen
  ordered : Ordered (fun o => o.stamp) (w.checker.history.getD [])
  notEmpty : w.checker.history ≠ some []
  predicted : w.checker.predictions =
    w.checker.history.map fun q => predictMotion q p.distanceStep p.timeDuration

variable {p : Params K} {getConflicts : List (PathPoint K) → List (PathPoint K) → K → Bool}

/-- The array of the history after the offers of a call. -/
def Watch.offered (w : Watch K) (u : Update K) : List (RoadwayObstacle K) :=
  u.tracked.foldl (offer byStamp) (w.checker.history.getD [])

theorem Watch.Consistent.offered_spec {w : Watch K} (h : w.Consistent p) (u : Update K) :
    (w.offered u).Perm (w.found u) ∧ Ordered (fun o => o.stamp) (w.offered u) :=
  offers_from_spec _ byStamp_respects h.ordered u.tracked

theorem updateObjects_refreshes (p : Params K)
    (getConflicts : List (PathPoint K) → List (PathPoint K) → K → Bool)
    (c : ObjectCollisionChecker K) {u : Update K} (hroute : u.routeDataAvailable = true) :
    (c.updateObjects p getConflicts u).history =
      (refresh p u (u.obstacles.foldl (addObstacle u) c.history) c.predictions).1 ∧
    (c.updateObjects p getConflicts u).predictions =
      (refresh p u (u.obstacles.foldl (addObstacle u) c.history) c.predictions).2 := by
  unfold ObjectCollisionChecker.updateObjects
  rw [hroute]
  exact ⟨rfl, rfl⟩

/-- What a call makes of the history and the prediction. -/
theorem Watch.Consistent.updated {w : Watch K} (h : w.Consistent p)
    (getConflicts : List (PathPoint K) → List (PathPoint K) → K → Bool) {u : Update K}
    (hroute : u.routeDataAvailable = true) :
    ((w.updateObjects p getConflicts u).checker.history.getD [] =
      removeExpiredData (u.minObjStamp p) (w.offered u).length (w.offered u)) ∧
    (w.updateObjects p getConflicts u).checker.history ≠ some [] ∧
    (w.updateObjects p getConflicts u).checker.predictions =
      (w.updateObjects p getConflicts u).checker.history.map
        fun q => predictMotion q p.distanceStep p.timeDuration := by
  have hoffered : (u.obstacles.foldl (addObstacle u) w.checker.history).getD [] = w.offered u :=
    addObstacles_eq u u.obstacles w.checker.history
  obtain ⟨hhistory, hpredictions⟩ := updateObjects_refreshes p getConflicts w.checker hroute
  unfold Watch.updateObjects
  dsimp only
  rw [hhistory, hpredictions]
  unfold refresh
  cases hfold : u.obstacles.foldl (addObstacle u) w.checker.history with
  | none =>
    -- nothing was stored before the call
    rw [hfold, Option.getD_none] at hoffered
    have hnil : w.found u = [] := by
      have hperm := (h.offered_spec u).1
      rw [← hoffered] at hperm
      exact hperm.symm.eq_nil
    have hnone : w.checker.history = none := by
      cases hcase : w.checker.history with
      | none => rfl
      | some q =>
        unfold Watch.found at hnil
        rw [hcase, Option.getD_some] at hnil
        have hq : q = [] := (List.append_eq_nil_iff.mp hnil).1
        rw [hq] at hcase
        exact absurd hcase h.notEmpty
    rw [← hoffered]
    refine ⟨rfl, (Option.some_ne_none _).symm, ?_⟩
    rw [h.predicted, hnone]
  | some q =>
    rw [hfold, Option.getD_some] at hoffered
    dsimp only
    rw [hoffered]
    generalize removeExpiredData (u.minObjStamp p) (w.offered u).length (w.offered u) = left
    cases left with
    | nil => exact ⟨rfl, (Option.some_ne_none _).symm, rfl⟩
    | cons o os => exact ⟨rfl, fun hsome => List.cons_ne_nil o os (Option.some.inj hsome), rfl⟩

/-- Every call keeps what is consistent. -/
theorem Watch.Consistent.updateObjects {w : Watch K} (h : w.Consistent p) (u : Update K) :
    (w.updateObjects p getConflicts u).Consistent p := by
  by_cases hroute : u.routeDataAvailable = true
  · obtain ⟨hhistory, hne, hpredicted⟩ := h.updated getConflicts hroute
    obtain ⟨hperm, hordered⟩ := h.offered_spec u
    obtain ⟨hleft, hordered'⟩ :=
      removeExpiredData_spec (u.minObjStamp p) (le_refl (w.offered u).length) hordered
    refine ⟨?_, by rwa [hhistory], hne, hpredicted⟩
    rw [hhistory]
    refine hleft.trans ?_
    unfold Watch.updateObjects
    dsimp only
    rw [if_pos hroute]
    exact (hperm.trans (h.perm.append_right _)).filter _
  · have hsame : w.updateObjects p getConflicts u = w := by
      unfold Watch.updateObjects ObjectCollisionChecker.updateObjects
      rw [Bool.not_eq_true] at hroute
      rw [hroute]
      rfl
    rwa [hsame]

/-! ## The newest at the last place -/

omit [Field K] [LinearOrder K] [FloorRing K] in
theorem newest_last_of_pairwise {queue : List (RoadwayObstacle K)}
    (h : queue.Pairwise fun a b => a.stamp ≤ b.stamp) :
    ∀ last ∈ queue.getLast?, ∀ o ∈ queue, o.stamp ≤ last.stamp := by
  intro last hlast o ho
  have hsplit : queue = queue.dropLast ++ [last] := (List.dropLast_append_getLast? last hlast).symm
  rw [hsplit, List.pairwise_append] at h
  rw [hsplit] at ho
  rcases List.mem_append.mp ho with ho | ho
  · exact h.2.2 o ho last (List.mem_singleton_self last)
  · rw [List.mem_singleton.mp ho]

omit [Field K] [LinearOrder K] [FloorRing K] in
/-- The newest of all stays where it is put, at the end. -/
theorem offers_newest_last {queue tracked : List (RoadwayObstacle K)}
    (hqueue : ∀ last ∈ queue.getLast?, ∀ o ∈ queue, o.stamp ≤ last.stamp)
    (htracked : ∀ last ∈ tracked.getLast?, ∀ o ∈ queue ++ tracked, o.stamp ≤ last.stamp)
    (hordered : Ordered (fun o => o.stamp) queue) :
    ∀ last ∈ (tracked.foldl (offer byStamp) queue).getLast?,
      ∀ o ∈ tracked.foldl (offer byStamp) queue, o.stamp ≤ last.stamp := by
  cases tracked using List.reverseRecOn with
  | nil => exact hqueue
  | append_singleton earlier newest =>
    have hnewest := htracked newest (by simp)
    obtain ⟨hperm, -⟩ := offers_from_spec _ byStamp_respects hordered earlier
    have hle : ∀ o ∈ earlier.foldl (offer byStamp) queue, o.stamp ≤ newest.stamp := by
      intro o ho
      apply hnewest
      rw [← List.append_assoc]
      exact List.mem_append_left _ (hperm.subset ho)
    have hoffer : offer byStamp (earlier.foldl (offer byStamp) queue) newest =
        earlier.foldl (offer byStamp) queue ++ [newest] := by
      apply offer_last
      intro o ho
      have h := hle o ho
      unfold byStamp compareTo
      split_ifs <;> omega
    rw [List.foldl_append, List.foldl_cons, List.foldl_nil, hoffer]
    intro last hlast o ho
    rw [List.getLast?_concat] at hlast
    obtain rfl := Option.some.inj hlast
    rcases List.mem_append.mp ho with ho | ho
    · exact hle o ho
    · rw [List.mem_singleton.mp ho]

/-- The step: a call that meets the condition keeps the newest at the last place. -/
theorem Watch.Consistent.newestLast {w : Watch K} (h : w.Consistent p)
    (hlast : w.checker.NewestLast) {u : Update K} (hok : w.NewestStaysLast p u) :
    (w.updateObjects p getConflicts u).checker.NewestLast := by
  by_cases hroute : u.routeDataAvailable = true
  · obtain ⟨hperm, hordered⟩ := h.offered_spec u
    obtain ⟨hleft, hordered'⟩ :=
      removeExpiredData_spec (u.minObjStamp p) (le_refl (w.offered u).length) hordered
    unfold ObjectCollisionChecker.NewestLast
    rw [(h.updated _ hroute).1]
    rcases hok hroute with hfew | ⟨hfresh, hnewest⟩
    · apply newest_last_of_pairwise
      apply hordered'.pairwise_of_length_le_two
      rw [(hleft.trans (hperm.filter _)).length_eq]
      exact hfew
    · rw [removeExpiredData_none (fun o ho => hfresh o (hperm.subset ho))]
      exact offers_newest_last hlast hnewest h.ordered
  · have hsame : (w.updateObjects p getConflicts u).checker = w.checker := by
      unfold Watch.updateObjects ObjectCollisionChecker.updateObjects
      rw [Bool.not_eq_true] at hroute
      rw [hroute]
      rfl
    rwa [hsame]

theorem Watch.Consistent.startsAtNewest {w : Watch K} (h : w.Consistent p)
    (hlast : w.checker.NewestLast) : w.StartsAtNewest := by
  have hperm := h.perm
  have hpredicted := h.predicted
  unfold ObjectCollisionChecker.NewestLast at hlast
  unfold Watch.StartsAtNewest
  cases hhistory : w.checker.history with
  | none =>
    rw [hhistory] at hperm hpredicted
    exact Or.inl ⟨hperm.symm.eq_nil, hpredicted⟩
  | some queue =>
    rw [hhistory, Option.getD_some] at hperm hlast
    rw [hhistory, Option.map_some] at hpredicted
    have hne : queue ≠ [] := fun hempty => h.notEmpty (hempty ▸ hhistory)
    have hgetLast := List.getLast?_eq_some_getLast hne
    refine Or.inr ⟨queue.getLast hne, hperm.subset (List.getLast_mem hne), ?_, ?_⟩
    · intro o ho
      exact hlast _ hgetLast o (hperm.symm.subset ho)
    · rw [hpredicted, Option.bind_some, predictMotion_head, hgetLast, Option.map_some]

theorem Watch.new_consistent : (Watch.new : Watch K).Consistent p where
  perm := List.Perm.refl _
  ordered := ordered_nil _
  notEmpty := fun h => nomatch h
  predicted := rfl

/-- The run rule: in a run whose calls meet the condition, every prediction starts at the newest
observation. -/
theorem Watch.predictions_start_at_the_newest (p : Params K)
    (getConflicts : List (PathPoint K) → List (PathPoint K) → K → Bool) (updates : List (Update K))
    (h : EachCall (Watch.updateObjects p getConflicts) (Watch.NewestStaysLast p) Watch.new updates) :
    ∀ w ∈ states (Watch.updateObjects p getConflicts) Watch.new updates, w.StartsAtNewest := by
  have hkeeps : ∀ w ∈ states (Watch.updateObjects p getConflicts) Watch.new updates,
      w.Consistent p ∧ w.checker.NewestLast := by
    refine states_of_keeps (fun w u hw hok => ?_) ?_ h
    · exact ⟨hw.1.updateObjects u, hw.1.newestLast hw.2 hok⟩
    · exact ⟨Watch.new_consistent, fun last hlast => nomatch hlast⟩
  intro w hw
  obtain ⟨hconsistent, hlast⟩ := hkeeps w hw
  exact hconsistent.startsAtNewest hlast

end watch

/-! ## Runs -/

/-- Three seconds of history, and predictions of five seconds in steps of five meters. -/
def exampleParams : Params ℚ where
  maxHistoricalDataAge := 3000
  distanceStep := 5
  timeDuration := 5
  timeMargin := 1 / 10
  stepPositive := by norm_num

/-- A call that brings observations of a vehicle ahead, made at these times in seconds: at the
start it is 10 m ahead, and it drives 1 m/s. -/
def exampleUpdate (now : ℤ) (seconds : List ℤ) : Update ℚ where
  routeDataAvailable := true
  currentLane := 0
  currentDowntrack := 0
  currentTimeMillis := now
  interpolatedHostPlan := []
  obstacles := seconds.map fun (s : ℤ) =>
    { downTrack := 10 + s, primaryLane := 0, stamp := s * (10 ^ 9 : ℤ), linearX := 1 }

theorem Watch.predictions_start_at_the_newest_of_three :
    (run (Watch.updateObjects exampleParams fun _ _ _ => false) Watch.new
      [exampleUpdate 1000 [1], exampleUpdate 2000 [2], exampleUpdate 3000 [3]]).StartsAtNewest :=
  Watch.predictions_start_at_the_newest _ _ _ (by decide +kernel) _ (run_mem_states _ _ _)

/-- Of four observations the oldest expires: the newest of the others is taken up to the root,
and then down to the second place. -/
theorem Watch.expiry_moves_the_newest_inside :
    ¬ (run (Watch.updateObjects exampleParams fun _ _ _ => false) Watch.new
      [exampleUpdate 1000 [1], exampleUpdate 2000 [2], exampleUpdate 3000 [3],
        exampleUpdate 4000 [4], exampleUpdate 4500 []]).StartsAtNewest := by
  decide +kernel

end carma.object_collision_checker
