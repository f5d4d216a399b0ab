-- When the nodes of a coarse plan at a light are served: in the middle of a green, at a speed that is
-- allowed, and later than the node before. The green is right wherever the buffers fit into it. The
-- speed is not: only the first arrival in the next green is held to the limit, and those a time
-- increment later are not.
import Carma.CoarseArrivals

open lib.exact_double
open carma.ead
open carma.plan_interpolator (mathSqrt)

namespace carma.trajectory_tree

namespace CoarsePathNeighbors

open FinePathNeighbors (Surroundings)

variable {L : Type}

/-- The calculator on this road. -/
def on (c : CoarsePathNeighbors L ℝ) (road : Surroundings L ℝ) : CoarsePathNeighbors L ℝ :=
  { c with
    intersections := road.intersections
    history := road.history
    hasConflict := road.hasConflict }

@[simp] theorem on_timeBuffer (c : CoarsePathNeighbors L ℝ) (road : Surroundings L ℝ) :
    (c.on road).timeBuffer = c.timeBuffer := rfl

@[simp] theorem on_operSpeed (c : CoarsePathNeighbors L ℝ) (road : Surroundings L ℝ) :
    (c.on road).operSpeed = c.operSpeed := rfl

@[simp] theorem on_barTime (c : CoarsePathNeighbors L ℝ) (road : Surroundings L ℝ) (node : Node)
    (d : ℤ) : (c.on road).barTime node d = c.barTime node d := rfl

@[simp] theorem on_barSpeed (c : CoarsePathNeighbors L ℝ) (road : Surroundings L ℝ) (node : Node)
    (d : ℤ) : (c.on road).barSpeed node d = c.barSpeed node d := rfl

/-- The time is in a green that began at least a time buffer ago, and lasts at least as long. -/
def InGreen (c : CoarsePathNeighbors L ℝ) (index : Fin c.intersections.length) (t : ℝ) : Prop :=
  ∃ left green : ℝ, c.phaseAtTime index (.fin t) = some ⟨.GREEN, .fin left⟩ ∧
    c.durationOf index .GREEN = some green ∧ c.timeBuffer ≤ green - left ∧ c.timeBuffer ≤ left

/-- What is asked of a node at a light. -/
structure Served (c : CoarsePathNeighbors L ℝ) (index : Fin c.intersections.length) (node n : Node) :
    Prop where
  green : ∃ t, mathRound (.fin t) = n.time ∧ c.InGreen index t
  allowed : (n.speed : ℝ) ≤ c.speedLimit
  later : node.time < n.time

/-! ## The greens -/

section greens

variable {c : CoarsePathNeighbors L ℝ} {node : Node} {d : ℤ} {index : Fin c.intersections.length}
  {h : IntersectionHistory ℝ}

theorem durationOf_eq (hhist : c.getHistoricalData index = some h) (phase : SignalPhase) :
    c.durationOf index phase = some (NeighborBase.phaseDuration h phase) := by
  unfold durationOf
  rw [hhist]
  rfl

/-- A green lasts at least 27 s. -/
theorem buffers_fit (hc : c.Settings) (h : IntersectionHistory ℝ) :
    2 * c.timeBuffer ≤ NeighborBase.phaseDuration h .GREEN := by
  have hlong : ((27 : ℕ) : ℝ) ≤ NeighborBase.phaseDuration h .GREEN := le_max_right _ _
  have hfit := hc.buffersFit
  push_cast at hlong
  linarith

/-- What is green at a time is so until that ends. -/
theorem inGreen_until (hhist : c.getHistoricalData index = some h) {t left u : ℝ}
    (hstate : c.phaseAtTime index (.fin t) = some ⟨.GREEN, .fin left⟩)
    (helapsed : c.timeBuffer ≤ NeighborBase.phaseDuration h .GREEN - left) (htu : t ≤ u)
    (hu : u ≤ t + left - c.timeBuffer) (hbuffer : 0 ≤ c.timeBuffer) : c.InGreen index u := by
  obtain ⟨k, hat, hcode⟩ := NeighborBase.phaseAtTime_at hhist t
  rw [hstate, Option.some.injEq, SignalState.mk.injEq, Dbl.fin.injEq] at hcode
  obtain ⟨hphase, hleft⟩ := hcode
  have hat' : (c.scheduleOf index h).At k u :=
    ⟨fun j hj => (hat.1 j hj).trans_le htu, by linarith⟩
  refine ⟨(c.scheduleOf index h).ends k - u, _, ?_, durationOf_eq hhist .GREEN, ?_, ?_⟩
  · rw [NeighborBase.phaseAtTime_of_at hhist hat', ← hphase]
  · linarith
  · linarith

/-- The next green, between its buffers. -/
theorem inGreen_next (hc : c.Settings) (hhist : c.getHistoricalData index = some h) {k : ℕ} {t u : ℝ}
    (hfirst : (c.scheduleOf index h).FirstRed k t)
    (hlow : (c.scheduleOf index h).ends k + c.timeBuffer ≤ u)
    (hhigh : u ≤ (c.scheduleOf index h).ends k + NeighborBase.phaseDuration h .GREEN - c.timeBuffer) :
    c.InGreen index u := by
  have hbuffer := hc.timeBuffer
  have hphase := hfirst.green_after
  have hends : (c.scheduleOf index h).ends (k + 1) =
      (c.scheduleOf index h).ends k + NeighborBase.phaseDuration h .GREEN := by
    rw [← hphase]
    rfl
  have hat : (c.scheduleOf index h).At (k + 1) u :=
    LightSchedule.at_succ.mpr ⟨by linarith, by linarith⟩
  refine ⟨(c.scheduleOf index h).ends (k + 1) - u, _, ?_, durationOf_eq hhist .GREEN, ?_, ?_⟩
  · rw [NeighborBase.phaseAtTime_of_at hhist hat, hphase]
  · linarith
  · linarith

/-- An arrival that is put off: a vehicle that was speeding up ends slower. -/
theorem putOff_eq (hc : c.Settings) (node : Node) (d : ℤ) (extraTime : ℝ) :
    (c.putOff node d (c.arrive node d) (.fin extraTime)).timeAtNext =
        .fin (c.barTime node d + extraTime) ∧
      (c.putOff node d (c.arrive node d) (.fin extraTime)).speedAtNext =
        if c.barSpeed node d < c.operSpeed then
          c.speedToReach node d (.fin (c.barTime node d + extraTime))
        else .fin (c.barSpeed node d) := by
  obtain ⟨hspeed, htime⟩ := arrive_eq hc node d
  unfold putOff
  dsimp only
  rw [hspeed, htime, Dbl.fin_add]
  simp only [Dbl.lt_fin, decide_eq_true_eq]
  split
  · exact ⟨rfl, rfl⟩
  · exact ⟨rfl, rfl⟩

/-- What the check of the time buffer gives: the arrival may be later, and where the green can be
used it is one between its buffers. -/
theorem checkBuffer_spec (hc : c.Settings) (hhist : c.getHistoricalData index = some h)
    {a : Arrival ℝ} {state : SignalState ℝ} {validGreen : Bool}
    (hcheck : c.checkBuffer node index d (c.arrive node d) = some (a, state, validGreen)) :
    ∃ t left : ℝ, a.timeAtNext = .fin t ∧ c.barTime node d ≤ t ∧ state.timeRemaining = .fin left ∧
      (validGreen = true → c.phaseAtTime index (.fin t) = some ⟨.GREEN, .fin left⟩ ∧
        c.timeBuffer ≤ NeighborBase.phaseDuration h .GREEN - left ∧ c.timeBuffer ≤ left ∧
        (a.speedAtNext = .fin (c.barSpeed node d) ∨ (c.barSpeed node d < c.operSpeed ∧
          a.speedAtNext = c.speedToReach node d (.fin t)))) := by
  obtain ⟨hspeed, htime⟩ := arrive_eq hc node d
  have hbuffer := hc.timeBuffer
  have hfit := buffers_fit hc h
  obtain ⟨k, hat, hstate⟩ := NeighborBase.phaseAtTime_at hhist (c.barTime node d)
  unfold checkBuffer at hcheck
  rw [htime, hstate, Option.bind_some] at hcheck
  split at hcheck
  · rename_i hgreen
    obtain ⟨hphase, hlong⟩ := hgreen
    change (c.scheduleOf index h).phase k = .GREEN at hphase
    rw [hphase] at hstate
    rw [Dbl.lt_fin, decide_eq_true_eq] at hlong
    rw [durationOf_eq hhist, Option.bind_some] at hcheck
    dsimp only at hcheck
    rw [Dbl.fin_sub, Dbl.fin_sub] at hcheck
    split at hcheck
    · rename_i helapsed
      rw [Dbl.lt_fin, decide_eq_true_eq] at helapsed
      obtain ⟨rfl, rfl, rfl⟩ : c.arrive node d = a ∧ _ = state ∧ true = validGreen := by
        simpa using hcheck
      exact ⟨_, _, htime, le_rfl, rfl, fun _ => ⟨hstate, helapsed.le, hlong.le, Or.inl hspeed⟩⟩
    · rename_i hearly
      rw [Dbl.lt_fin, decide_eq_true_eq, not_lt] at hearly
      -- put off to where the buffer has passed
      obtain ⟨hput, hputSpeed⟩ := putOff_eq hc node d (c.timeBuffer -
        (NeighborBase.phaseDuration h .GREEN - ((c.scheduleOf index h).ends k - c.barTime node d)))
      have hat' : (c.scheduleOf index h).At k (c.barTime node d + (c.timeBuffer -
          (NeighborBase.phaseDuration h .GREEN -
            ((c.scheduleOf index h).ends k - c.barTime node d)))) :=
        ⟨fun j hj => (hat.1 j hj).trans_le (by linarith), by linarith⟩
      have hstate' := NeighborBase.phaseAtTime_of_at hhist hat'
      rw [hphase] at hstate'
      rw [hput, hstate', Option.map_some] at hcheck
      obtain ⟨rfl, rfl, rfl⟩ : _ = a ∧ _ = state ∧ true = validGreen := by
        simpa using hcheck
      refine ⟨_, _, hput, by linarith, rfl, fun _ => ⟨hstate', by linarith, by linarith, ?_⟩⟩
      rw [hputSpeed]
      split
      · rename_i hslower
        exact Or.inr ⟨hslower, rfl⟩
      · exact Or.inl rfl
  · obtain ⟨rfl, rfl, rfl⟩ : c.arrive node d = a ∧ _ = state ∧ false = validGreen := by
      simpa using hcheck
    exact ⟨_, _, htime, le_rfl, rfl, fun hfalse => absurd hfalse Bool.false_ne_true⟩

/-- The first speed in the next green, which is held to the limit. -/
noncomputable def nextSpeed (c : CoarsePathNeighbors L ℝ) (node : Node) (d : ℤ) (t : ℝ) : ℝ :=
  max (min (c.speedFor node d t) c.speedLimit) 0

/-- The same as it is computed: a vehicle that is too near to change its speed is to stop. -/
noncomputable def firstSpeed (c : CoarsePathNeighbors L ℝ) (node : Node) (d : ℤ) (t : ℝ) : Dbl ℝ :=
  if (d : ℝ) < c.lagDist node ∨ (Dbl.fin (t - node.time)).le (.fin c.lagTime) = true then .fin 0
  else
    Dbl.maxOf (Dbl.minOf (.fin (((2 : ℕ) : ℝ) * (d - c.lagDist node)) /
      .fin (t - node.time - c.lagTime) - .fin (node.speed : ℝ)) (.fin c.speedLimit)) (.fin 0)

theorem firstSpeed_eq {t : ℝ} (hroom : 0 ≤ c.room node d) (ht : c.responds node < t) :
    c.firstSpeed node d t = .fin (c.nextSpeed node d t) := by
  have hway : t - node.time - c.lagTime = t - c.responds node := by
    unfold responds
    ring
  have hfar : ¬ ((d : ℝ) < c.lagDist node ∨
      (Dbl.fin (t - node.time)).le (.fin c.lagTime) = true) := by
    rintro (hnear | hnear)
    · exact absurd (sub_nonneg.mp hroom) (not_le.mpr hnear)
    · rw [Dbl.le_fin, decide_eq_true_eq] at hnear
      unfold responds at ht
      linarith
  unfold firstSpeed
  rw [if_neg hfar, hway, Dbl.fin_div _ (sub_pos.mpr ht).ne', Dbl.fin_sub, Dbl.minOf_fin,
    Dbl.maxOf_fin, Nat.cast_ofNat]
  rfl

/-- Only a vehicle that still can change its speed gets one that is not too slow. -/
theorem firstSpeed_crawls (hc : c.Settings) {t : ℝ}
    (h : (Dbl.fin c.crawlingSpeed).le (c.firstSpeed node d t) = true) :
    0 ≤ c.room node d ∧ c.responds node < t := by
  by_contra hnear
  unfold firstSpeed at h
  rw [if_pos, Dbl.le_fin, decide_eq_true_eq] at h
  · exact absurd h (not_le.mpr hc.crawlingSpeed)
  · by_contra hfar
    obtain ⟨hroom, hlag⟩ := not_or.mp hfar
    rw [Dbl.le_fin, decide_eq_true_eq] at hlag
    refine hnear ⟨sub_nonneg.mpr (not_lt.mp hroom), ?_⟩
    unfold responds
    linarith

noncomputable def greenNodes (c : CoarsePathNeighbors L ℝ) (steps : ℕ) (node : Node) (d : ℤ)
    (a : Arrival ℝ) (state : SignalState ℝ) (validGreen : Bool) : Option (List Node) :=
  if validGreen then
    c.sliceGreen node d (a.timeAtNext + state.timeRemaining - .fin c.timeBuffer) steps
      a.intermediateNode a.timeAtNext a.speedAtNext
  else some []

/-- When the last node in a next green may be, where `t` is the first time that may. -/
noncomputable def greenExpiration (c : CoarsePathNeighbors L ℝ) (t green : ℝ) : ℝ :=
  t + green - ((2 : ℕ) : ℝ) * c.timeBuffer

noncomputable def nextGreenNodes (c : CoarsePathNeighbors L ℝ) (steps : ℕ) (node : Node) (d : ℤ)
    (t green : ℝ) : Option (List Node) :=
  if (Dbl.fin c.crawlingSpeed).le (c.firstSpeed node d t) = true ∧
      (Dbl.fin t).le (.fin (c.greenExpiration t green)) = true then
    c.sliceGreen node d (.fin (c.greenExpiration t green)) steps none (.fin t)
      (c.firstSpeed node d t)
  else some []

theorem approach_eq (hhist : c.getHistoricalData index = some h) {a : Arrival ℝ}
    {state : SignalState ℝ} {validGreen : Bool} {u : ℝ}
    (hcheck : c.checkBuffer node index d (c.arrive node d) = some (a, state, validGreen))
    (hbegin : c.timeOfGreenBegin index a.timeAtNext = some (.fin u)) (steps : ℕ) :
    c.approach steps node index d = (c.greenNodes steps node d a state validGreen).bind
      fun onGreen => (c.nextGreenNodes steps node d (u + c.timeBuffer)
        (NeighborBase.phaseDuration h .GREEN)).map
          fun onNextGreen => (onGreen ++ onNextGreen, .fin (u + c.timeBuffer)) := by
  unfold approach
  rw [hcheck, Option.bind_some]
  refine congrArg (c.greenNodes steps node d a state validGreen).bind (funext fun onGreen => ?_)
  rw [hbegin, Option.bind_some, durationOf_eq hhist, Option.bind_some]
  dsimp only
  rw [Dbl.fin_add, Dbl.fin_add, Dbl.fin_sub, Dbl.fin_sub, Dbl.fin_sub]
  rfl

/-- How an arrival at a time, at a speed, comes to be offered. -/
inductive Offered (c : CoarsePathNeighbors L ℝ) (node : Node) (d : ℤ) : ℝ → Dbl ℝ → Prop
  /-- The earliest arrival, maybe put off. -/
  | earliest {t : ℝ} (ht : c.barTime node d ≤ t) : Offered c node d t (.fin (c.barSpeed node d))
  /-- It is put off, and was speeding up. -/
  | putOff {t : ℝ} (ht : c.barTime node d ≤ t) (hslower : c.barSpeed node d < c.operSpeed) :
    Offered c node d t (c.speedToReach node d (.fin t))
  /-- It is some time increments after the first one in a green. -/
  | slice {t : ℝ} (ht : c.barTime node d + c.timeInc ≤ t)
    (hcrawl : (Dbl.fin c.crawlingSpeed).le (c.speedToReach node d (.fin t)) = true) :
    Offered c node d t (c.speedToReach node d (.fin t))
  /-- It is the first one in the next green. -/
  | nextGreen {t : ℝ} (ht : c.barTime node d + c.timeBuffer ≤ t) (hresponds : c.responds node < t)
    (hroom : 0 ≤ c.room node d) (hcrawl : c.crawlingSpeed ≤ c.nextSpeed node d t) :
    Offered c node d t (.fin (c.nextSpeed node d t))

/-- In a green that can be used the nodes are from the arrival on. -/
theorem greenNodes_cases (hc : c.Settings) (hhist : c.getHistoricalData index = some h) {steps : ℕ}
    {a : Arrival ℝ} {state : SignalState ℝ} {validGreen : Bool} {found : List Node}
    (hcheck : c.checkBuffer node index d (c.arrive node d) = some (a, state, validGreen))
    (hfound : c.greenNodes steps node d a state validGreen = some found) {n : Node}
    (hn : n ∈ found) :
    ∃ t v, c.InGreen index t ∧ n = .ofDoubles (.fin ((node.distance : ℝ) + d)) (.fin t) v ∧
      c.Offered node d t v := by
  have hinc := hc.timeInc
  have hbuffer := hc.timeBuffer
  obtain ⟨t, left, htime, hlate, hleft, hvalid⟩ := checkBuffer_spec hc hhist hcheck
  unfold greenNodes at hfound
  cases validGreen with
  | false =>
    obtain rfl := Option.some.inj hfound
    cases hn
  | true =>
    obtain ⟨hstate, helapsed, hlong, hspeed⟩ := hvalid rfl
    rw [if_pos rfl, htime, hleft, Dbl.fin_add, Dbl.fin_sub] at hfound
    rcases mem_sliceGreen (by linarith) hfound hn with rfl | ⟨t', hle, hexp, hcrawl, rfl⟩
    · refine ⟨t, _, inGreen_until hhist hstate helapsed le_rfl (by linarith) (by linarith), rfl, ?_⟩
      rcases hspeed with hspeed | ⟨hslower, hspeed⟩
      · exact hspeed ▸ .earliest hlate
      · exact hspeed ▸ .putOff hlate hslower
    · rw [Dbl.le_fin, decide_eq_true_eq] at hexp
      exact ⟨t', _, inGreen_until hhist hstate helapsed (by linarith) hexp (by linarith), rfl,
        .slice (by linarith) hcrawl⟩

/-- In the next green they are from its buffer on. -/
theorem nextGreenNodes_cases (hc : c.Settings) (hhist : c.getHistoricalData index = some h)
    {steps k : ℕ} {found : List Node} {t : ℝ} (hlate : c.barTime node d ≤ t)
    (hfirst : (c.scheduleOf index h).FirstRed k t)
    (hfound : c.nextGreenNodes steps node d ((c.scheduleOf index h).ends k + c.timeBuffer)
      (NeighborBase.phaseDuration h .GREEN) = some found) {n : Node} (hn : n ∈ found) :
    ∃ t v, c.InGreen index t ∧ n = .ofDoubles (.fin ((node.distance : ℝ) + d)) (.fin t) v ∧
      c.Offered node d t v := by
  have hinc := hc.timeInc
  have hbuffer := hc.timeBuffer
  have hfit := buffers_fit hc h
  have hafter := hfirst.2.1
  unfold nextGreenNodes greenExpiration at hfound
  split at hfound
  · rename_i hoffered
    obtain ⟨hcrawl, -⟩ := hoffered
    obtain ⟨hroom, hresponds⟩ := firstSpeed_crawls hc hcrawl
    rw [firstSpeed_eq hroom hresponds, Dbl.le_fin, decide_eq_true_eq] at hcrawl
    rw [firstSpeed_eq hroom hresponds] at hfound
    rcases mem_sliceGreen (by linarith) hfound hn with rfl | ⟨t', hle, hexp, hcrawl', rfl⟩
    · exact ⟨_, _, inGreen_next hc hhist hfirst le_rfl (by linarith), rfl,
        .nextGreen (by linarith) hresponds hroom hcrawl⟩
    · rw [Dbl.le_fin, decide_eq_true_eq, Nat.cast_ofNat] at hexp
      exact ⟨t', _, inGreen_next hc hhist hfirst (by linarith) (by linarith), rfl,
        .slice (by linarith) hcrawl'⟩
  · obtain rfl := Option.some.inj hfound
    cases hn

/-- All nodes at the light are in a green between its buffers. -/
theorem approach_cases (hc : c.Settings) {steps : ℕ} {found : List Node} {timeOfNextGreen : Dbl ℝ}
    (happroach : c.approach steps node index d = some (found, timeOfNextGreen)) {n : Node}
    (hn : n ∈ found) :
    ∃ t v, c.InGreen index t ∧ n = .ofDoubles (.fin ((node.distance : ℝ) + d)) (.fin t) v ∧
      c.Offered node d t v := by
  have hparts := happroach
  obtain ⟨⟨a, state, validGreen⟩, hcheck, hparts⟩ := Option.bind_eq_some_iff.mp hparts
  obtain ⟨_, -, hparts⟩ := Option.bind_eq_some_iff.mp hparts
  obtain ⟨_, -, hparts⟩ := Option.bind_eq_some_iff.mp hparts
  obtain ⟨_, hgreen, -⟩ := Option.bind_eq_some_iff.mp hparts
  obtain ⟨h, hhist, -⟩ := Option.map_eq_some_iff.mp hgreen
  obtain ⟨t, _, htime, hlate, -, -⟩ := checkBuffer_spec hc hhist hcheck
  obtain ⟨k, hfirst, hbegin⟩ := timeOfGreenBegin_at hhist t
  rw [← htime] at hbegin
  rw [approach_eq hhist hcheck hbegin] at happroach
  obtain ⟨onGreen, honGreen, happroach⟩ := Option.bind_eq_some_iff.mp happroach
  obtain ⟨onNextGreen, honNextGreen, happroach⟩ := Option.map_eq_some_iff.mp happroach
  obtain ⟨rfl, -⟩ := Prod.mk.inj happroach
  rcases List.mem_append.mp hn with hn | hn
  · exact greenNodes_cases hc hhist hcheck honGreen hn
  · exact nextGreenNodes_cases hc hhist hlate hfirst honNextGreen hn

end greens

/-! ## The numbers decide -/

/-- The numbers leave no way to be too fast or too soon at the bar. -/
structure Clear (c : CoarsePathNeighbors L ℝ) (node : Node) (d : ℤ) : Prop where
  -- the earliest arrival is not rounded past the limit, nor down to the time of the node
  arrives : 1 / 2 ≤ c.barSpeed node d →
    c.barSpeed node d < c.topSpeed ∧ node.time + 1 / 2 ≤ c.barTime node d
  -- nor is one that is put off while the vehicle speeds up
  putOff : c.barSpeed node d < c.operSpeed → c.StaysSlow node d (1 / 2) (c.barTime node d)
  -- nor one that is a time increment later
  slices : c.StaysSlow node d c.crawlingSpeed (c.barTime node d + c.timeInc)
  -- nor the first one in the next green, where the limit itself is rounded up
  nextGreen : 0 < c.room node d → c.topSpeed ≤ c.speedLimit → c.crawlingSpeed ≤ c.speedLimit →
    c.StaysSlow node d c.crawlingSpeed (c.barTime node d + c.timeBuffer)

section clear

variable {c : CoarsePathNeighbors L ℝ} {node : Node} {d : ℤ} {index : Fin c.intersections.length}

theorem later_of {t : ℝ} (h : node.time + 1 / 2 ≤ t) : node.time < mathRound (.fin t) := by
  have hnext : node.time + 1 ≤ mathRound (.fin t) := by
    rw [le_mathRound]
    push_cast
    linarith
  omega

theorem half_le_of_fin {v : ℝ} (h : 0 < mathRound (.fin v)) : 1 / 2 ≤ v := by
  have hle := half_le_of_round h
  rwa [Dbl.le_fin, decide_eq_true_eq] at hle

/-- A node at a light that is not a stop is one of those that are offered. -/
theorem mem_found {steps : ℕ} {ns : List Node} {n : Node}
    (hnext : c.nextIntersection (node.distance : ℝ) = some (index, d))
    (h : c.neighbors steps node = some ns) (hn : n ∈ ns) (hspeed : 0 < n.speed) :
    ∃ found timeOfNextGreen, c.approach steps node index d = some (found, timeOfNextGreen) ∧
      n ∈ found := by
  have hstop : mathRound (.fin (0 : ℝ)) = 0 := by exact_mod_cast mathRound_intCast (K := ℝ) 0
  unfold neighbors at h
  rw [hnext] at h
  obtain ⟨⟨found, timeOfNextGreen⟩, happroach, rfl⟩ := Option.map_eq_some_iff.mp h
  dsimp only at hn
  refine ⟨found, timeOfNextGreen, happroach, ?_⟩
  split at hn
  · exfalso
    split at hn
    · rw [List.mem_singleton.mp hn] at hspeed
      exact absurd hstop hspeed.ne'
    · rw [List.mem_singleton.mp hn] at hspeed
      exact absurd hstop hspeed.ne'
  · exact hn

/-- Where the numbers are clear every node that is not a stop is served. -/
theorem served_of_clear (hc : c.Settings) (hclear : c.Clear node d) (hspeed : 0 ≤ node.speed)
    (hd : 1 ≤ d) {steps : ℕ} {ns : List Node} {n : Node}
    (hnext : c.nextIntersection (node.distance : ℝ) = some (index, d))
    (h : c.neighbors steps node = some ns) (hn : n ∈ ns) (hpos : 0 < n.speed) :
    c.Served index node n := by
  have hinc := hc.timeInc
  have hbuffer := hc.timeBuffer
  have hstart := time_le_barTime hc node d
  obtain ⟨found, timeOfNextGreen, happroach, hfound⟩ := mem_found hnext h hn hpos
  obtain ⟨t, v, hgreen, rfl, hoffered⟩ := approach_cases hc happroach hfound
  change 0 < mathRound v at hpos
  suffices hgood : ((mathRound v : ℤ) : ℝ) ≤ c.speedLimit ∧ node.time + 1 / 2 ≤ t from
    ⟨⟨t, rfl, hgreen⟩, hgood.1, later_of hgood.2⟩
  cases hoffered with
  | earliest ht =>
    obtain ⟨hallowed, htime⟩ := hclear.arrives (half_le_of_fin hpos)
    exact ⟨round_le_limit_iff.mpr hallowed, by linarith⟩
  | putOff ht hslower =>
    refine ⟨(hclear.putOff hslower).allowed hspeed ht (half_le_of_round hpos) hpos, ?_⟩
    by_cases hslow : c.barSpeed node d < 1 / 2
    · linarith [slow_is_late hc hspeed hd hslower hslow]
    · linarith [(hclear.arrives (not_lt.mp hslow)).2]
  | slice ht hcrawl => exact ⟨hclear.slices.allowed hspeed ht hcrawl hpos, by linarith⟩
  | nextGreen ht hresponds hroom hcrawl =>
    refine ⟨?_, by linarith⟩
    rw [round_le_limit_iff]
    have hcrawling := hc.crawlingSpeed
    have hcapped : c.nextSpeed node d t ≤ c.speedLimit :=
      max_le (min_le_right _ _) (hc.operSpeed.le.trans hc.allowed)
    by_cases htop : c.topSpeed ≤ c.speedLimit
    · have hmin : c.nextSpeed node d t = min (c.speedFor node d t) c.speedLimit := by
        unfold nextSpeed at hcrawl ⊢
        rcases le_total (min (c.speedFor node d t) c.speedLimit) 0 with hneg | hnonneg
        · rw [max_eq_right hneg] at hcrawl
          linarith
        · exact max_eq_left hnonneg
      have hle : c.nextSpeed node d t ≤ c.speedFor node d t := hmin ▸ min_le_left _ _
      have hroom' : 0 < c.room node d := by
        refine lt_of_le_of_ne hroom (fun hzero => ?_)
        have hcur : (0 : ℝ) ≤ node.speed := Int.cast_nonneg hspeed
        have hstill : c.speedFor node d t = -node.speed := by
          unfold speedFor
          rw [Nat.cast_ofNat]
          rw [← hzero, mul_zero, zero_div, zero_sub]
        linarith
      obtain ⟨hlate, hslow⟩ :=
        (hclear.nextGreen hroom' htop (hcrawl.trans hcapped)).2 hroom'
      have hanti := speedFor_anti hroom' hlate ht
      rcases hslow with hslow | hslow
      · linarith
      · linarith
    · exact hcapped.trans_lt (not_le.mp htop)

end clear

/-! ## Roads that show it -/

/-- On every road with the next bar at this distance, all nodes that are not stops are served. -/
def AllServed (c : CoarsePathNeighbors L ℝ) (node : Node) (d : ℤ) : Prop :=
  ∀ (road : Surroundings L ℝ) (index : Fin (c.on road).intersections.length) steps ns n,
    (c.on road).nextIntersection (node.distance : ℝ) = some (index, d) →
    (c.on road).neighbors steps node = some ns → n ∈ ns → 0 < n.speed →
    (c.on road).Served index node n

/-- A light with its bar at a place, the phase it is in and for how long. -/
def lightAt (dtsb : ℝ) (phase : SignalPhase) (left : ℝ) : IntersectionData L ℝ where
  map := none
  spat := none
  roughDist := .none
  intersectionId := 1
  laneId := 0
  dtsb := dtsb
  currentPhase := phase
  timeToNextPhase := left
  geometry := some ⟨dtsb, 0, 0, fun _ => false⟩
  stopBoxWidth := 0

/-- A road with one light at this distance, and no traffic. -/
def roadTo (node : Node) (d : ℤ) (phase : SignalPhase) (left green : ℝ) : Surroundings L ℝ where
  intersections := [lightAt (node.distance + d) phase left]
  history := [⟨1, green, 0, 0⟩]
  hasConflict := fun _ _ => false

section roads

variable {c : CoarsePathNeighbors L ℝ} {node : Node} {d : ℤ}

section offers

variable {index : Fin c.intersections.length} {h : IntersectionHistory ℝ}

theorem rounds_enough (hc : c.Settings) (t exp : ℝ) :
    ∃ rounds : ℕ, ∀ more, exp < t + ((rounds + more + 1 : ℕ) : ℝ) * c.timeInc := by
  have hinc : 0 < c.timeInc := by linarith [hc.timeInc]
  obtain ⟨rounds, hrounds⟩ := exists_nat_gt ((exp - t) / c.timeInc)
  refine ⟨rounds, fun more => ?_⟩
  rw [div_lt_iff₀ hinc] at hrounds
  have hmore : 0 ≤ ((more + 1 : ℕ) : ℝ) * c.timeInc := mul_nonneg (Nat.cast_nonneg _) hinc.le
  push_cast at hmore ⊢
  linarith

/-- What the loop of the present green gives, with rounds enough for it. -/
theorem greenNodes_offers (hfree : ∀ a b, c.hasConflict a b = false) {a : Arrival ℝ}
    {state : SignalState ℝ} {t left : ℝ} (htime : a.timeAtNext = .fin t)
    (hleft : state.timeRemaining = .fin left) {rounds : ℕ} (hpos : 0 < rounds)
    (hrounds : t + left - c.timeBuffer < t + rounds * c.timeInc) (validGreen : Bool) :
    ∃ onGreen, c.greenNodes rounds node d a state validGreen = some onGreen ∧
      (validGreen = true →
        .ofDoubles (.fin ((node.distance : ℝ) + d)) (.fin t) a.speedAtNext ∈ onGreen ∧
          ((Dbl.fin c.crawlingSpeed).le (c.speedToReach node d (.fin (t + c.timeInc))) = true →
            t + c.timeInc ≤ t + left - c.timeBuffer →
            .ofDoubles (.fin ((node.distance : ℝ) + d)) (.fin (t + c.timeInc))
              (c.speedToReach node d (.fin (t + c.timeInc))) ∈ onGreen)) := by
  unfold greenNodes
  cases validGreen with
  | false => exact ⟨[], rfl, fun hvalid => by cases hvalid⟩
  | true =>
    rw [if_pos rfl, htime, hleft, Dbl.fin_add, Dbl.fin_sub]
    obtain ⟨onGreen, honGreen⟩ := Option.isSome_iff_exists.mp (sliceGreen_isSome hrounds hpos)
    obtain ⟨hfirst, hsecond⟩ := sliceGreen_offers hfree honGreen
    refine ⟨onGreen, honGreen, fun _ => ⟨hfirst, fun hcrawl hwindow => ?_⟩⟩
    exact hsecond hcrawl (by rwa [Dbl.le_fin, decide_eq_true_eq])

/-- And the one of the next green, which takes a node when it can be driven to it in time. -/
theorem nextGreenNodes_offers (hfree : ∀ a b, c.hasConflict a b = false) {t green : ℝ}
    {rounds : ℕ} (hpos : 0 < rounds)
    (hrounds : c.greenExpiration t green < t + rounds * c.timeInc)
    (hgreen : t ≤ c.greenExpiration t green) :
    ∃ onNextGreen, c.nextGreenNodes rounds node d t green = some onNextGreen ∧
      (0 ≤ c.room node d → c.responds node < t → c.crawlingSpeed ≤ c.nextSpeed node d t →
        .ofDoubles (.fin ((node.distance : ℝ) + d)) (.fin t) (.fin (c.nextSpeed node d t)) ∈
          onNextGreen) := by
  unfold nextGreenNodes
  split
  · obtain ⟨onNextGreen, honNextGreen⟩ :=
      Option.isSome_iff_exists.mp (sliceGreen_isSome hrounds hpos)
    refine ⟨onNextGreen, honNextGreen, fun hroom hresponds _ => ?_⟩
    rw [firstSpeed_eq hroom hresponds] at honNextGreen
    exact (sliceGreen_offers hfree honNextGreen).1
  · rename_i hnone
    refine ⟨[], rfl, fun hroom hresponds hcrawl => absurd ?_ hnone⟩
    rw [firstSpeed_eq hroom hresponds, Dbl.le_fin, Dbl.le_fin, decide_eq_true_eq,
      decide_eq_true_eq]
    exact ⟨hcrawl, hgreen⟩

/-- Where nothing is in the way, the calculator offers what it finds in the two greens. -/
theorem approach_offers (hc : c.Settings) (hhist : c.getHistoricalData index = some h)
    (hfree : ∀ a b, c.hasConflict a b = false) {a : Arrival ℝ} {state : SignalState ℝ}
    {validGreen : Bool} {t left u : ℝ}
    (hcheck : c.checkBuffer node index d (c.arrive node d) = some (a, state, validGreen))
    (htime : a.timeAtNext = .fin t) (hleft : state.timeRemaining = .fin left)
    (hbegin : c.timeOfGreenBegin index (.fin t) = some (.fin u)) :
    ∃ steps found timeOfNextGreen,
      c.approach steps node index d = some (found, timeOfNextGreen) ∧
      (validGreen = true →
        .ofDoubles (.fin ((node.distance : ℝ) + d)) (.fin t) a.speedAtNext ∈ found ∧
          ((Dbl.fin c.crawlingSpeed).le (c.speedToReach node d (.fin (t + c.timeInc))) = true →
            t + c.timeInc ≤ t + left - c.timeBuffer →
            .ofDoubles (.fin ((node.distance : ℝ) + d)) (.fin (t + c.timeInc))
              (c.speedToReach node d (.fin (t + c.timeInc))) ∈ found)) ∧
      (0 ≤ c.room node d → c.responds node < u + c.timeBuffer →
        c.crawlingSpeed ≤ c.nextSpeed node d (u + c.timeBuffer) →
        .ofDoubles (.fin ((node.distance : ℝ) + d)) (.fin (u + c.timeBuffer))
          (.fin (c.nextSpeed node d (u + c.timeBuffer))) ∈ found) := by
  have hfit := buffers_fit hc h
  rw [← htime] at hbegin
  obtain ⟨rounds₁, hrounds₁⟩ := rounds_enough hc t (t + left - c.timeBuffer)
  obtain ⟨rounds₂, hrounds₂⟩ := rounds_enough hc (u + c.timeBuffer)
    (c.greenExpiration (u + c.timeBuffer) (NeighborBase.phaseDuration h .GREEN))
  obtain ⟨onGreen, honGreen, hoffersGreen⟩ := greenNodes_offers hfree htime hleft
    (Nat.succ_pos (rounds₁ + rounds₂)) (hrounds₁ rounds₂) validGreen
  have hmore := hrounds₂ rounds₁
  rw [Nat.add_comm rounds₂ rounds₁] at hmore
  have hgreen : u + c.timeBuffer ≤
      c.greenExpiration (u + c.timeBuffer) (NeighborBase.phaseDuration h .GREEN) := by
    unfold greenExpiration
    rw [Nat.cast_ofNat]
    linarith
  obtain ⟨onNextGreen, honNextGreen, hoffersNext⟩ := nextGreenNodes_offers hfree
    (Nat.succ_pos (rounds₁ + rounds₂)) hmore hgreen
  refine ⟨rounds₁ + rounds₂ + 1, onGreen ++ onNextGreen, .fin (u + c.timeBuffer), ?_, ?_, ?_⟩
  · rw [approach_eq hhist hcheck hbegin, honGreen, Option.bind_some, honNextGreen]
    rfl
  · intro hvalid
    obtain ⟨hfirst, hsecond⟩ := hoffersGreen hvalid
    exact ⟨List.mem_append_left _ hfirst,
      fun hcrawl hwindow => List.mem_append_left _ (hsecond hcrawl hwindow)⟩
  · intro hroom hresponds hcrawl
    exact List.mem_append_right _ (hoffersNext hroom hresponds hcrawl)

end offers

/-- The index of the one light. -/
def theLight (c : CoarsePathNeighbors L ℝ) (node : Node) (d : ℤ) (phase : SignalPhase)
    (left green : ℝ) : Fin (c.on (roadTo node d phase left green)).intersections.length :=
  ⟨0, Nat.one_pos⟩

theorem roadTo_next (hd : 1 ≤ d) (phase : SignalPhase) (left green : ℝ) :
    (c.on (roadTo node d phase left green)).nextIntersection (node.distance : ℝ) =
      some (theLight c node d phase left green, d) := by
  have hbar : (c.on (roadTo node d phase left green)).stopBar (theLight c node d phase left green) =
      node.distance + d := by
    rw [NeighborBase.stopBar_eq]
    show ⌊(node.distance : ℝ) + d + 1 / 2⌋ = _
    exact_mod_cast mathRound_intCast (K := ℝ) (node.distance + d)
  have hnext := nextIntersection_start (c := c.on (roadTo node d phase left green)) Nat.one_pos
    (d := node.distance) (by
      change _ ≤ (c.on (roadTo node d phase left green)).stopBar (theLight c node d phase left green)
      rw [hbar]
      omega)
  rw [hnext]
  change some (theLight c node d phase left green, (c.on (roadTo node d phase left green)).stopBar
    (theLight c node d phase left green) - node.distance) = _
  rw [hbar, add_sub_cancel_left]

theorem roadTo_phase {phase : SignalPhase} {left green t : ℝ} (ht : t ≤ left) :
    (c.on (roadTo node d phase left green)).phaseAtTime (theLight c node d phase left green) (.fin t) =
      some ⟨phase, .fin (left - t)⟩ := by
  unfold NeighborBase.phaseAtTime
  dsimp only
  change (if (Dbl.fin t).le (.fin left) = true then
    some (⟨phase, .fin left - .fin t⟩ : SignalState ℝ) else _) = _
  rw [if_pos (by rwa [Dbl.le_fin, decide_eq_true_eq]), Dbl.fin_sub]

/-- The neighbors are what is offered, if that is not nothing. -/
theorem roadTo_neighbors (hd : 1 ≤ d) {phase : SignalPhase} {left green : ℝ} {steps : ℕ}
    {found : List Node} {timeOfNextGreen : Dbl ℝ}
    (happroach : (c.on (roadTo node d phase left green)).approach steps node
      (theLight c node d phase left green) d = some (found, timeOfNextGreen)) {n : Node}
    (hn : n ∈ found) : (c.on (roadTo node d phase left green)).neighbors steps node = some found := by
  have hne : ¬ found.length = 0 := (List.length_pos_of_mem hn).ne'
  unfold neighbors
  rw [roadTo_next hd]
  dsimp only
  rw [happroach, Option.map_some]
  dsimp only
  rw [if_neg hne]

/-- What is offered on the road is served, if all is. -/
theorem AllServed.of_offered (hall : c.AllServed node d) (hd : 1 ≤ d) {phase : SignalPhase}
    {left green : ℝ} {steps : ℕ} {found : List Node} {timeOfNextGreen : Dbl ℝ}
    (happroach : (c.on (roadTo node d phase left green)).approach steps node
      (theLight c node d phase left green) d = some (found, timeOfNextGreen)) {n : Node}
    (hn : n ∈ found) (hpos : 0 < n.speed) :
    (n.speed : ℝ) ≤ c.speedLimit ∧ node.time < n.time := by
  have hserved := hall _ _ _ _ n (roadTo_next hd phase left green)
    (roadTo_neighbors hd happroach hn) hn hpos
  exact ⟨hserved.allowed, hserved.later⟩

theorem on_settings (hc : c.Settings) (road : Surroundings L ℝ) : (c.on road).Settings :=
  ⟨hc.maxAccel, hc.lagTime, hc.timeInc, hc.crawlingSpeed, hc.timeBuffer, hc.buffersFit, hc.operSpeed,
    hc.allowed, hc.sqrt⟩

/-- A green of this length has room for both buffers and a time increment. -/
def longGreen (c : CoarsePathNeighbors L ℝ) : ℝ := (2 : ℕ) * c.timeBuffer + (28 : ℕ) + c.timeInc

theorem le_longGreen (hc : c.Settings) : 2 * c.timeBuffer + 28 ≤ c.longGreen := by
  have hinc := hc.timeInc
  unfold longGreen
  push_cast
  linarith

theorem green_duration {green : ℝ} (hgreen : 27 ≤ green) :
    NeighborBase.phaseDuration (⟨1, green, 0, 0⟩ : IntersectionHistory ℝ) .GREEN = green := by
  apply max_eq_left
  push_cast
  exact hgreen

theorem roadTo_history (c : CoarsePathNeighbors L ℝ) (node : Node) (d : ℤ) (phase : SignalPhase)
    (left green : ℝ) :
    (c.on (roadTo node d phase left green)).getHistoricalData (theLight c node d phase left green) =
      some ⟨1, green, 0, 0⟩ := by
  unfold NeighborBase.getHistoricalData
  exact List.find?_cons_of_pos (by simp [theLight, on, roadTo, lightAt])

/-- A green that at the arrival has been on for longer than its buffer, and goes on for longer. -/
theorem checkBuffer_on_green (hc : c.Settings) (node : Node) (d : ℤ) (left green : ℝ)
    (hgreen : 27 ≤ green)
    (hlong : c.barTime node d + c.timeBuffer < left)
    (helapsed : c.timeBuffer < green - (left - c.barTime node d)) :
    (c.on (roadTo node d .GREEN left green)).checkBuffer node (theLight c node d .GREEN left green) d
      ((c.on (roadTo node d .GREEN left green)).arrive node d) =
      some ((c.on (roadTo node d .GREEN left green)).arrive node d,
        ⟨.GREEN, .fin (left - c.barTime node d)⟩, true) := by
  have hbuffer := hc.timeBuffer
  obtain ⟨-, htime⟩ := arrive_eq (on_settings hc (roadTo node d .GREEN left green)) node d
  rw [on_barTime] at htime
  unfold checkBuffer
  rw [htime, roadTo_phase (by linarith), Option.bind_some]
  rw [if_pos ⟨rfl, by
    rw [Dbl.lt_fin, decide_eq_true_eq, on_timeBuffer]
    linarith⟩, durationOf_eq (roadTo_history _ _ _ _ _ _), Option.bind_some, green_duration hgreen]
  dsimp only
  rw [Dbl.fin_sub, if_pos]
  rwa [Dbl.lt_fin, decide_eq_true_eq, on_timeBuffer]

/-- A green that has to last some time more until its buffer has passed. -/
theorem checkBuffer_put_off (hc : c.Settings) {extra : ℝ} (hextra : 0 ≤ extra) :
    (c.on (roadTo node d .GREEN (c.barTime node d + extra + c.longGreen - c.timeBuffer)
      c.longGreen)).checkBuffer node
      (theLight c node d .GREEN (c.barTime node d + extra + c.longGreen - c.timeBuffer) c.longGreen) d
      ((c.on (roadTo node d .GREEN (c.barTime node d + extra + c.longGreen - c.timeBuffer)
        c.longGreen)).arrive node d) =
      some ((c.on (roadTo node d .GREEN (c.barTime node d + extra + c.longGreen - c.timeBuffer)
        c.longGreen)).putOff node d ((c.on (roadTo node d .GREEN (c.barTime node d + extra +
          c.longGreen - c.timeBuffer) c.longGreen)).arrive node d) (.fin extra),
        ⟨.GREEN, .fin (c.longGreen - c.timeBuffer)⟩, true) := by
  have hbuffer := hc.timeBuffer
  have hlong := le_longGreen hc
  have hon := on_settings hc (roadTo node d .GREEN (c.barTime node d + extra + c.longGreen -
    c.timeBuffer) c.longGreen)
  obtain ⟨-, htime⟩ := arrive_eq hon node d
  obtain ⟨hput, -⟩ := putOff_eq hon node d extra
  rw [on_barTime] at htime
  rw [on_barTime] at hput
  have helapsed : c.longGreen - (c.barTime node d + extra + c.longGreen - c.timeBuffer -
      c.barTime node d) = c.timeBuffer - extra := by ring
  unfold checkBuffer
  rw [htime, roadTo_phase (by linarith), Option.bind_some]
  rw [if_pos ⟨rfl, by
    rw [Dbl.lt_fin, decide_eq_true_eq, on_timeBuffer]
    linarith⟩, durationOf_eq (roadTo_history _ _ _ _ _ _), Option.bind_some,
    green_duration (by linarith)]
  dsimp only
  rw [Dbl.fin_sub, helapsed, if_neg]
  · rw [on_timeBuffer, Dbl.fin_sub, sub_sub_cancel, hput, roadTo_phase (by linarith), Option.map_some]
    have hleft : c.barTime node d + extra + c.longGreen - c.timeBuffer -
        (c.barTime node d + extra) = c.longGreen - c.timeBuffer := by ring
    rw [hleft]
  · rw [Dbl.lt_fin, decide_eq_true_eq, on_timeBuffer]
    linarith

/-- A red light, until a time after the arrival. -/
theorem checkBuffer_on_red (hc : c.Settings) {left : ℝ} (hleft : c.barTime node d ≤ left)
    (green : ℝ) :
    (c.on (roadTo node d .RED left green)).checkBuffer node (theLight c node d .RED left green) d
      ((c.on (roadTo node d .RED left green)).arrive node d) =
      some ((c.on (roadTo node d .RED left green)).arrive node d,
        ⟨.RED, .fin (left - c.barTime node d)⟩, false) := by
  obtain ⟨-, htime⟩ := arrive_eq (on_settings hc (roadTo node d .RED left green)) node d
  rw [on_barTime] at htime
  unfold checkBuffer
  rw [htime, roadTo_phase hleft, Option.bind_some, if_neg]
  rintro ⟨hphase, -⟩
  cases hphase

theorem timeOfGreenBegin_on_red {left t : ℝ} (ht : t ≤ left) (green : ℝ) :
    (c.on (roadTo node d .RED left green)).timeOfGreenBegin (theLight c node d .RED left green)
      (.fin t) = some (.fin left) := by
  unfold timeOfGreenBegin
  rw [roadTo_phase ht, Option.bind_some, Dbl.fin_add, add_sub_cancel]
  rfl

/-! ## What the roads show -/

theorem half_later_of {t : ℝ} (h : node.time < mathRound (.fin t)) : node.time + 1 / 2 ≤ t := by
  have hnext : node.time + 1 ≤ mathRound (.fin t) := h
  rw [le_mathRound] at hnext
  push_cast at hnext
  linarith

theorem round_pos {v : ℝ} (h : 1 / 2 ≤ v) : 0 < mathRound (.fin v) := by
  have hone : (1 : ℤ) ≤ mathRound (.fin v) := by
    rw [le_mathRound]
    push_cast
    linarith
  exact hone

theorem half_le_topSpeed (hc : c.Settings) : 1 / 2 ≤ c.topSpeed := by
  have hlimit : (0 : ℤ) ≤ ⌊c.speedLimit⌋ := Int.floor_nonneg.mpr (hc.operSpeed.le.trans hc.allowed)
  have hlimit' : (0 : ℝ) ≤ (⌊c.speedLimit⌋ : ℤ) := Int.cast_nonneg hlimit
  unfold topSpeed
  rw [Nat.cast_ofNat]
  linarith

/-- The earliest arrival is served in a green that has been on for long enough. -/
theorem AllServed.arrives (hall : c.AllServed node d) (hc : c.Settings) (hd : 1 ≤ d)
    (hpos : 1 / 2 ≤ c.barSpeed node d) :
    c.barSpeed node d < c.topSpeed ∧ node.time + 1 / 2 ≤ c.barTime node d := by
  have hlong := le_longGreen hc
  have hbuffer := hc.timeBuffer
  have hon := on_settings hc (roadTo node d .GREEN (c.barTime node d + c.timeBuffer + 1) c.longGreen)
  obtain ⟨hspeed, htime⟩ := arrive_eq hon node d
  have hhist := roadTo_history c node d .GREEN
    (c.barTime node d + c.timeBuffer + 1) c.longGreen
  obtain ⟨k, -, hbegin⟩ := timeOfGreenBegin_at hhist (c.barTime node d)
  obtain ⟨steps, found, timeOfNextGreen, happroach, hgreen, -⟩ := approach_offers hon hhist
    (fun _ _ => rfl) (checkBuffer_on_green hc node d _ _ (by linarith) (by linarith) (by linarith))
      htime rfl hbegin
  have hoffered := (hgreen rfl).1
  rw [hspeed] at hoffered
  obtain ⟨hallowed, hlater⟩ := hall.of_offered hd happroach hoffered (round_pos hpos)
  exact ⟨round_le_limit_iff.mp hallowed, half_later_of hlater⟩

/-- So is one that is put off, and one a time increment later. -/
theorem AllServed.late (hall : c.AllServed node d) (hc : c.Settings) (hd : 1 ≤ d) {t : ℝ}
    (hlate : c.barTime node d ≤ t) :
    (c.barSpeed node d < c.operSpeed → 0 < mathRound (c.speedToReach node d (.fin t)) →
      ((mathRound (c.speedToReach node d (.fin t)) : ℤ) : ℝ) ≤ c.speedLimit) ∧
    ((Dbl.fin c.crawlingSpeed).le (c.speedToReach node d (.fin (t + c.timeInc))) = true →
      0 < mathRound (c.speedToReach node d (.fin (t + c.timeInc))) →
      ((mathRound (c.speedToReach node d (.fin (t + c.timeInc))) : ℤ) : ℝ) ≤ c.speedLimit) := by
  obtain ⟨extra, hextra, rfl⟩ : ∃ extra, 0 ≤ extra ∧ c.barTime node d + extra = t :=
    ⟨t - c.barTime node d, sub_nonneg.mpr hlate, by ring⟩
  have hon := on_settings hc (roadTo node d .GREEN (c.barTime node d + extra + c.longGreen -
    c.timeBuffer) c.longGreen)
  obtain ⟨hput, hputSpeed⟩ := putOff_eq hon node d extra
  have hhist := roadTo_history c node d .GREEN
    (c.barTime node d + extra + c.longGreen - c.timeBuffer) c.longGreen
  obtain ⟨k, -, hbegin⟩ := timeOfGreenBegin_at hhist (c.barTime node d + extra)
  obtain ⟨steps, found, timeOfNextGreen, happroach, hgreen, -⟩ := approach_offers hon hhist
    (fun _ _ => rfl) (checkBuffer_put_off hc hextra) hput rfl hbegin
  obtain ⟨hfirst, hsecond⟩ := hgreen rfl
  rw [hputSpeed] at hfirst
  constructor
  · intro hslower hpos
    rw [on_barSpeed, on_operSpeed, if_pos hslower] at hfirst
    exact (hall.of_offered hd happroach hfirst hpos).1
  · intro hcrawl hpos
    refine (hall.of_offered hd happroach (hsecond hcrawl ?_) hpos).1
    rw [on_timeBuffer]
    show c.barTime node d + extra + c.timeInc ≤ c.barTime node d + extra + _ - c.timeBuffer
    unfold longGreen
    push_cast
    linarith

theorem AllServed.next (hall : c.AllServed node d) (hc : c.Settings) (hd : 1 ≤ d) {t : ℝ}
    (hlate : c.barTime node d + c.timeBuffer ≤ t) (hresponds : c.responds node < t)
    (hroom : 0 ≤ c.room node d) (hcrawl : c.crawlingSpeed ≤ c.nextSpeed node d t)
    (hpos : 1 / 2 ≤ c.nextSpeed node d t) : c.nextSpeed node d t < c.topSpeed := by
  obtain ⟨left, hleft, rfl⟩ : ∃ left, c.barTime node d ≤ left ∧ left + c.timeBuffer = t :=
    ⟨t - c.timeBuffer, by linarith, by ring⟩
  have hon := on_settings hc (roadTo node d .RED left c.longGreen)
  obtain ⟨-, htime⟩ := arrive_eq hon node d
  have hhist := roadTo_history c node d .RED left c.longGreen
  obtain ⟨steps, found, timeOfNextGreen, happroach, -, hnext⟩ := approach_offers hon hhist
    (fun _ _ => rfl) (checkBuffer_on_red hc hleft c.longGreen) htime rfl
    (timeOfGreenBegin_on_red hleft c.longGreen)
  have hoffered := hnext hroom hresponds hcrawl
  exact round_le_limit_iff.mp (hall.of_offered hd happroach hoffered (round_pos hpos)).1

theorem clear_of_allServed (hc : c.Settings) (hd : 1 ≤ d) (hspeed : 0 ≤ node.speed)
    (hall : c.AllServed node d) : c.Clear node d := by
  have htop := half_le_topSpeed hc
  constructor
  · exact hall.arrives hc hd
  · intro hslower
    apply staysSlow_of
    intro t ht hne
    have hallowed := (hall.late hc hd ht).1 hslower
    rw [speedToReach_fin hne] at hallowed
    rcases lt_or_ge (c.speedFor node d t) (1 / 2) with hslow | hpos
    · exact Or.inr hslow
    · exact Or.inl (round_le_limit_iff.mp (hallowed (round_pos hpos)))
  · apply staysSlow_of
    intro t ht hne
    have hallowed := (hall.late hc hd (t := t - c.timeInc) (by linarith)).2
    rw [sub_add_cancel, speedToReach_fin hne, Dbl.le_fin, decide_eq_true_eq] at hallowed
    rcases lt_or_ge (c.speedFor node d t) c.crawlingSpeed with hslow | hcrawl
    · exact Or.inr hslow
    · rcases lt_or_ge (c.speedFor node d t) (1 / 2) with hslow | hpos
      · exact Or.inl (hslow.trans_le htop)
      · exact Or.inl (round_le_limit_iff.mp (hallowed hcrawl (round_pos hpos)))
  · intro hroom hlimit hcrawling
    apply staysSlow_of
    intro t ht hne
    rcases lt_or_gt_of_ne hne with hearly | hresponds
    · right
      have hquot := div_nonpos_of_nonneg_of_nonpos (by linarith : 0 ≤ 2 * c.room node d)
        (sub_neg.mpr hearly).le
      have hcur : (0 : ℝ) ≤ node.speed := Int.cast_nonneg hspeed
      unfold speedFor
      rw [Nat.cast_ofNat]
      linarith [hc.crawlingSpeed]
    · rcases lt_or_ge (c.speedFor node d t) c.crawlingSpeed with hslow | hcrawl
      · exact Or.inr hslow
      · left
        by_contra hfast
        have hcapped : c.topSpeed ≤ min (c.speedFor node d t) c.speedLimit :=
          le_min (not_lt.mp hfast) hlimit
        have hnext : min (c.speedFor node d t) c.speedLimit ≤ c.nextSpeed node d t := le_max_left _ _
        have hlt := hall.next hc hd ht hresponds hroom.le ((le_min hcrawl hcrawling).trans hnext)
          (by linarith)
        linarith

/-- With given numbers, the nodes at the next light are served on every road just when the numbers
are clear. -/
theorem nodes_at_lights_are_served_iff (hc : c.Settings) (hd : 1 ≤ d) (hspeed : 0 ≤ node.speed) :
    c.AllServed node d ↔ c.Clear node d := by
  constructor
  · exact clear_of_allServed hc hd hspeed
  · intro hclear road index steps ns n hnext h hn hpos
    have hclear' : (c.on road).Clear node d :=
      ⟨hclear.arrives, hclear.putOff, hclear.slices, hclear.nextGreen⟩
    exact served_of_clear (on_settings hc road) hclear' hspeed hd hnext h hn hpos

end roads

/-- A planner that may drive up to 10 m/s, and means to. -/
noncomputable def atTheLimit : CoarsePathNeighbors Unit ℝ where
  intersections := []
  timeInc := (5 : ℕ)
  speedInc := 1
  history := []
  maxAccel := (2 : ℕ)
  speedLimit := (10 : ℕ)
  crawlingSpeed := (3 : ℕ)
  timeBuffer := (4 : ℕ)
  operSpeed := (10 : ℕ)
  hasConflict := fun _ _ => false
  lagTime := 0
  sqrt := mathSqrt

theorem atTheLimit_settings : atTheLimit.Settings := by
  constructor <;> norm_num [atTheLimit]

/-- At the speed limit all is well. -/
theorem nodes_at_lights_are_served_at_the_limit : atTheLimit.AllServed ⟨0, 0, 10⟩ 50 := by
  refine (nodes_at_lights_are_served_iff atTheLimit_settings (by decide) (by decide)).mpr ?_
  have hdelta : atTheLimit.deltaSpeed ⟨0, 0, 10⟩ = 0 := by
    norm_num [deltaSpeed, atTheLimit]
  have hway : atTheLimit.wayToOperSpeed ⟨0, 0, 10⟩ = 0 := by
    norm_num [wayToOperSpeed, hdelta]
  have hspeed : atTheLimit.barSpeed ⟨0, 0, 10⟩ 50 = 10 := by
    unfold barSpeed
    rw [hway, if_neg (by norm_num)]
    rfl
  have htime : atTheLimit.barTime ⟨0, 0, 10⟩ 50 = 5 := by
    unfold barTime
    rw [hway, hdelta]
    norm_num [atTheLimit]
  have htop : atTheLimit.topSpeed = 10 + 1 / 2 := by
    norm_num [topSpeed, atTheLimit]
  constructor
  · rw [hspeed, htime, htop]
    norm_num
  · rw [hspeed]
    norm_num [atTheLimit]
  · rw [htime]
    norm_num [StaysSlow, htop, room, responds, speedFor, lagDist, atTheLimit]
  · rw [htop]
    norm_num [atTheLimit]

/-- From a stop, 525 m before the bar, it is there after 55 s at 10 m/s. The node five seconds
later in the green is at 18 m/s, as if the change of speed had been steady all the way. -/
theorem a_start_from_a_stop_ends_above_the_limit :
    (∃ steps ns, (atTheLimit.on (roadTo ⟨0, 0, 0⟩ 525 .GREEN 80 80)).neighbors steps ⟨0, 0, 0⟩ =
        some ns ∧ ⟨525, 60, 18⟩ ∈ ns) ∧
      atTheLimit.speedLimit < 18 ∧ ¬ atTheLimit.AllServed ⟨0, 0, 0⟩ 525 := by
  have hdelta : atTheLimit.deltaSpeed ⟨0, 0, 0⟩ = 10 := by
    norm_num [deltaSpeed, atTheLimit]
  have hway : atTheLimit.wayToOperSpeed ⟨0, 0, 0⟩ = 25 := by
    unfold wayToOperSpeed
    rw [hdelta]
    norm_num [lagDist, atTheLimit]
  have htime : atTheLimit.barTime ⟨0, 0, 0⟩ 525 = 55 := by
    unfold barTime
    rw [hway, hdelta]
    norm_num [responds, atTheLimit]
  have hreach : atTheLimit.speedToReach ⟨0, 0, 0⟩ 525 (.fin (55 + 5)) = .fin (35 / 2) := by
    rw [speedToReach_fin (by norm_num [responds, atTheLimit])]
    norm_num [speedFor, room, lagDist, responds, atTheLimit]
  have hc := atTheLimit_settings
  have hon := on_settings hc (roadTo ⟨0, 0, 0⟩ 525 .GREEN 80 80)
  obtain ⟨-, harrive⟩ := arrive_eq hon ⟨0, 0, 0⟩ 525
  have hhist := roadTo_history atTheLimit ⟨0, 0, 0⟩ 525 .GREEN 80 80
  obtain ⟨k, -, hbegin⟩ := timeOfGreenBegin_at hhist (atTheLimit.barTime ⟨0, 0, 0⟩ 525)
  have hcheck := checkBuffer_on_green hc ⟨0, 0, 0⟩ 525 80 80 (by norm_num)
    (by rw [htime]; norm_num [atTheLimit]) (by rw [htime]; norm_num [atTheLimit])
  obtain ⟨steps, found, timeOfNextGreen, happroach, hgreen, -⟩ := approach_offers hon hhist
    (fun _ _ => rfl) hcheck harrive rfl hbegin
  have hsecond := (hgreen rfl).2
  rw [on_barTime, htime, on_timeBuffer] at hsecond
  change (Dbl.fin 3).le (atTheLimit.speedToReach ⟨0, 0, 0⟩ 525 (.fin (55 + 5))) = true →
    (55 : ℝ) + 5 ≤ 55 + (80 - 55) - 4 →
    .ofDoubles (.fin (((0 : ℤ) : ℝ) + ((525 : ℤ) : ℝ))) (.fin (55 + 5))
      (atTheLimit.speedToReach ⟨0, 0, 0⟩ 525 (.fin (55 + 5))) ∈ found at hsecond
  rw [hreach] at hsecond
  have hnode : (.ofDoubles (.fin (((0 : ℤ) : ℝ) + ((525 : ℤ) : ℝ))) (.fin (55 + 5))
      (.fin (35 / 2)) : Node) = ⟨525, 60, 18⟩ := by
    norm_num [Node.ofDoubles, mathRound]
  rw [hnode] at hsecond
  have hoffered := hsecond (by norm_num [Dbl.le_fin]) (by norm_num)
  refine ⟨⟨steps, found, roadTo_neighbors (by decide) happroach hoffered, hoffered⟩, ?_, ?_⟩
  · norm_num [atTheLimit]
  · intro hall
    have hallowed := (hall.of_offered (by decide) happroach hoffered (by decide)).1
    norm_num [atTheLimit] at hallowed

end CoarsePathNeighbors

end carma.trajectory_tree
