-- The law of ramp metering: a vehicle is let go only behind the next platoon, as long as
-- no platoon stands and no time is past the end of a long.
import Carma.Lib.Runs
import Carma.RSUMeterWorker

open lib.exact_double
open lib.narrowing
open lib.runs
open carma.mobility_router (MobilityHeader MobilityResponse)

namespace carma.rsu_metering

variable {K P F : Type} [LinearOrder K] [Field K]

/-! ## Exact arrivals -/

/-- The arrival of a platoon at the merge, without a cast. -/
def TrackedPlatoon.arrival (cfg : Settings K P F) (p : TrackedPlatoon K) : Dbl K :=
  Dbl.fin ((p.sent : ℤ) : K) +
    Dbl.fin (cfg.mainRouteMergeDTD - p.rearDTD) / p.speed * MS_PER_S

/-- The arrival of a vehicle that was let go, without a cast. -/
def Release.arrival (r : Release K) : Dbl K :=
  Dbl.fin ((r.now : ℤ) : K) + travelTime r.mergeDist r.speed r.platoon.speed
    r.vehicle.combinedLagTime r.vehicle.vehMaxAccel * MS_PER_S

/-- Whoever is commanded was let go, and whoever was let go is behind the platoon. A
platoon that is not at the merge yet arrives after it told about itself. -/
structure BehindPlatoons (cfg : Settings K P F) (s : RSUMeterWorker K) : Prop where
  stored : ∀ p ∈ s.platoonMap, p.rearDTD < cfg.mainRouteMergeDTD → p.sent ≤ p.expectedTimeOfArrival
  commanded : ∀ c, s.state = .commanding c →
    ∃ r ∈ s.releases, r.vehicle.vehicleId = c.vehicleId ∧ r.vehicle.planId = c.planId
  behind : ∀ r ∈ s.releases, (r.platoon.arrival cfg).lt r.arrival = true
  moving : ∀ r ∈ s.releases, r.platoon.speed ≠ .fin 0

/-! ## Travel times -/

/-- The vehicle is not past the merge, and does not stand at it. -/
def BeforeMerge (mergeDist speed : Dbl K) : Prop :=
  ∃ d v, mergeDist = .fin d ∧ speed = .fin v ∧ 0 ≤ d ∧ 0 ≤ v ∧ (d ≠ 0 ∨ v ≠ 0)

/-- The vehicle can accelerate, and does not answer before it is told. -/
def CanFollow (combinedLagTime vehMaxAccel : Dbl K) : Prop :=
  ∃ l a, combinedLagTime = .fin l ∧ vehMaxAccel = .fin a ∧ 0 ≤ l ∧ 0 < a

section times

variable [IsStrictOrderedRing K]

theorem speedUp_le {v m T : K} (hle : v ≤ m) (hT : 0 ≤ T) : half * (m - v) * T + v * T ≤ m * T := by
  have hhalf : (half : K) ≤ 1 := by
    unfold half
    norm_num
  have hpart : half * (m - v) ≤ m - v := mul_le_of_le_one_left (sub_nonneg.mpr hle) hhalf
  rw [← add_mul]
  apply mul_le_mul_of_nonneg_right _ hT
  linarith

/-- A vehicle that can follow a platoon needs some time to the merge, or forever. -/
theorem travelTime_nonneg {mergeDist speed combinedLagTime vehMaxAccel : Dbl K}
    (hvehicle : BeforeMerge mergeDist speed) (hfollow : CanFollow combinedLagTime vehMaxAccel)
    {m : K} (hm : 0 < m) :
    travelTime mergeDist speed (.fin m) combinedLagTime vehMaxAccel = .inf false ∨
      ∃ t, 0 ≤ t ∧ travelTime mergeDist speed (.fin m) combinedLagTime vehMaxAccel = .fin t := by
  obtain ⟨d, v, rfl, rfl, hd, hv, hne⟩ := hvehicle
  obtain ⟨l, a, rfl, rfl, hl, ha⟩ := hfollow
  unfold travelTime
  rw [Dbl.fin_sub, Dbl.lt_fin]
  split
  · by_cases hzero : v = 0
    · subst hzero
      have hdne : d ≠ 0 := hne.resolve_right (not_not.mpr rfl)
      exact Or.inl (Dbl.fin_div_zero (lt_of_le_of_ne hd hdne.symm))
    · exact Or.inr ⟨d / v, div_nonneg hd hv, Dbl.fin_div d hzero⟩
  · rename_i hslow
    have hle : v ≤ m := by
      have htenth : (0 : K) ≤ tenth := by
        unfold tenth
        positivity
      have hnot : ¬ m - tenth < v := by simpa using hslow
      linarith
    have hT : 0 ≤ (m - v) / a := div_nonneg (sub_nonneg.mpr hle) ha.le
    simp only [Dbl.fin_sub, Dbl.fin_mul, Dbl.fin_add, Dbl.fin_div _ ha.ne', Dbl.fin_div _ hm.ne']
    refine Or.inr ⟨_, ?_, rfl⟩
    have hrest : -((m - v) / a) ≤
        (d - (half * (m - v) * ((m - v) / a) + v * ((m - v) / a))) / m := by
      rw [le_div_iff₀ hm]
      have hcovered := speedUp_le hle hT
      linarith
    linarith

end times

/-! ## What is known of a platoon -/

/-- A platoon that moves. The arrival that is stored for it is less than a millisecond
early, and the margin after it is a long. -/
structure Known (cfg : Settings K P F) (p : TrackedPlatoon K) : Prop where
  moves : ∃ v, p.speed = .fin v ∧ 0 < v
  early : ∃ a, p.arrival cfg = .fin a ∧ a < (p.expectedTimeOfArrival + 1 : ℤ)
  margin : wrapLong (p.expectedTimeOfArrival + cfg.timeMargin) =
    p.expectedTimeOfArrival + cfg.timeMargin
  later : p.rearDTD < cfg.mainRouteMergeDTD → p.sent ≤ p.expectedTimeOfArrival

theorem milliseconds_left (cfg : Settings K P F) (rearDTD : K) {v : K} (hv : 0 < v) :
    Dbl.fin (cfg.mainRouteMergeDTD - rearDTD) / Dbl.fin v * MS_PER_S =
      Dbl.fin ((cfg.mainRouteMergeDTD - rearDTD) / v * ((1000 : ℕ) : K)) := by
  unfold MS_PER_S
  rw [Dbl.fin_div _ hv.ne', Dbl.fin_mul]

theorem earlierPlatoon_cases (cfg : Settings K P F) (ignoredPlatoon : String)
    (best : Option (TrackedPlatoon K)) (p : TrackedPlatoon K) :
    earlierPlatoon cfg ignoredPlatoon best p = best ∨
      earlierPlatoon cfg ignoredPlatoon best p = some p := by
  unfold earlierPlatoon
  split
  · exact Or.inl rfl
  · split
    · exact Or.inr rfl
    · split
      · exact Or.inr rfl
      · exact Or.inl rfl

theorem getNextPlatoon_mem {cfg : Settings K P F} {platoons : List (TrackedPlatoon K)}
    {ignoredPlatoon : String} {p : TrackedPlatoon K}
    (h : getNextPlatoon cfg platoons ignoredPlatoon = some p) : p ∈ platoons := by
  have hloop : ∀ (ps : List (TrackedPlatoon K)) (best : Option (TrackedPlatoon K)),
      ps.foldl (earlierPlatoon cfg ignoredPlatoon) best = some p → best = some p ∨ p ∈ ps := by
    intro ps
    induction ps with
    | nil => exact fun best hbest => Or.inl hbest
    | cons q ps ih =>
      intro best hbest
      rcases ih _ hbest with hfirst | hlater
      · rcases earlierPlatoon_cases cfg ignoredPlatoon best q with hkeep | hnew
        · exact Or.inl (hkeep ▸ hfirst)
        · rw [hnew] at hfirst
          exact Or.inr (Option.some.inj hfirst ▸ List.mem_cons_self)
      · exact Or.inr (List.mem_cons_of_mem _ hlater)
  rcases hloop _ none h with hnone | hmem
  · cases hnone
  · exact (cfg.values_perm platoons).mem_iff.mp hmem

/-! ## What every call keeps -/

/-- A state that the worker is in by right: a vehicle that is held can follow, and one
that is commanded was let go. -/
def Fits (releases : List (Release K)) : IRSUMeteringState K → Prop
  | .standby => True
  | .holding h => CanFollow h.combinedLagTime h.vehMaxAccel
  | .commanding c =>
    ∃ r ∈ releases, r.vehicle.vehicleId = c.vehicleId ∧ r.vehicle.planId = c.planId

/-- What the worker keeps as long as all comes in time. -/
structure Inv (cfg : Settings K P F) (s : RSUMeterWorker K) : Prop where
  known : ∀ p ∈ s.platoonMap, Known cfg p
  fits : Fits s.releases s.state
  behind : ∀ r ∈ s.releases, (r.platoon.arrival cfg).lt r.arrival = true
  moving : ∀ r ∈ s.releases, r.platoon.speed ≠ .fin 0

theorem newRSUMeterWorker_inv (cfg : Settings K P F) : Inv cfg newRSUMeterWorker := by
  refine ⟨?_, trivial, ?_, ?_⟩ <;> simp [newRSUMeterWorker]

theorem Inv.behindPlatoons {cfg : Settings K P F} {s : RSUMeterWorker K} (h : Inv cfg s) :
    BehindPlatoons cfg s where
  stored p hp := (h.known p hp).later
  commanded c hc := by
    have hfits := h.fits
    rw [hc] at hfits
    exact hfits
  behind := h.behind
  moving := h.moving

theorem Inv.withState {cfg : Settings K P F} {s : RSUMeterWorker K} (h : Inv cfg s)
    {state : IRSUMeteringState K} (hfits : Fits s.releases state) :
    Inv cfg { s with state := state } := ⟨h.known, hfits, h.behind, h.moving⟩

theorem Inv.withLog {cfg : Settings K P F} {s : RSUMeterWorker K} (h : Inv cfg s)
    (log : List (Output K)) : Inv cfg { s with log := log } :=
  ⟨h.known, h.fits, h.behind, h.moving⟩

theorem Inv.withMap {cfg : Settings K P F} {s : RSUMeterWorker K} (h : Inv cfg s)
    {platoonMap : List (TrackedPlatoon K)} (hknown : ∀ p ∈ platoonMap, Known cfg p) :
    Inv cfg { s with platoonMap := platoonMap } := ⟨hknown, h.fits, h.behind, h.moving⟩

theorem Inv.withBSMs {cfg : Settings K P F} {s : RSUMeterWorker K} (h : Inv cfg s)
    (bsmMap : List (String × BSM K)) : Inv cfg { s with bsmMap := bsmMap } :=
  ⟨h.known, h.fits, h.behind, h.moving⟩

variable [FloorRing K]

/-! ## Conditions on messages -/

/-- The platoon moves, and the time of its arrival is a long, with the margin too. -/
def ArrivesInTime (cfg : Settings K P F) (timestamp : ℤ) (rearDTD : K) (speed : Dbl K) : Prop :=
  0 ≤ timestamp ∧ ∃ v, speed = .fin v ∧ 0 < v ∧
    max 0 (trunc ((cfg.mainRouteMergeDTD - rearDTD) / v * (1000 : ℕ))) + timestamp +
      cfg.timeMargin < 2 ^ 63

/-- Each platoon that is stored arrives in time, a vehicle that stands at the meter is
before the merge, and one that asks can follow. What is not for the unit may say anything. -/
def InTime (cfg : Settings K P F) (s : RSUMeterWorker K) : Call K → Prop
  | .operation _ ⟨header, strategy, .info rear (some speed)⟩ =>
    isForUs cfg header = true → strategy = PLATOONING_STRATEGY →
      ∀ bsm rearDTD, s.bsmMap.lookup rear = some bsm →
        getDowntrackDistanceFromLocation cfg bsm.location = some rearDTD →
        ¬ cfg.mainRouteMergeDTD + cfg.mergeLength < rearDTD →
        ArrivesInTime cfg header.timestamp rearDTD speed
  | .operation now ⟨header, _, .status (some meterDist) (some mergeDist) (some speed) _⟩ =>
    isForUs cfg header = true → meterDist.lt (.fin 1) = true → speed.lt (.fin tenth) = true →
      0 ≤ now ∧ BeforeMerge mergeDist speed
  | .request _ ⟨header, some ⟨some maxAccel, some lagTime, some _⟩⟩ =>
    header.recipientId = cfg.rsuId → s.state = .standby →
      CanFollow (Dbl.fin (cfg.driverLagTime + cfg.commsLagTime) + lagTime) maxAccel
  | _ => True

/-! ## The casts -/

section casts

variable [IsStrictOrderedRing K]

/-- A whole number of milliseconds that was cut is not later. -/
theorem now_add_toLong_le {now : ℤ} (hnow : 0 ≤ now) {x : K} (hx : 0 ≤ x) :
    ((wrapLong (now + toLong (.fin x)) : ℤ) : K) ≤ now + x := by
  have hcut : 0 ≤ trunc x := trunc_nonneg hx
  have hlong : saturate 63 (trunc x) ≤ trunc x := saturate_le (by omega)
  have hnonneg : 0 ≤ saturate 63 (trunc x) := saturate_nonneg hcut
  have hwrap : wrapLong (now + saturate 63 (trunc x)) ≤ now + saturate 63 (trunc x) :=
    wrap_le (by omega)
  have hexact : ((now + trunc x : ℤ) : K) ≤ now + x := by
    push_cast
    linarith [trunc_le_of_nonneg hx]
  exact (Int.cast_le.mpr (hwrap.trans (by omega))).trans hexact

/-- The exact arrival of a vehicle is not before the one that is found for it, and it is
not before anything that this one is after. -/
theorem arrival_lt {now : ℤ} (hnow : 0 ≤ now) {time : Dbl K}
    (htime : time = .inf false ∨ ∃ t, 0 ≤ t ∧ time = .fin t) {a : K}
    (ha : a < (wrapLong (now + toLong (time * MS_PER_S)) : ℤ)) :
    (Dbl.fin a).lt (Dbl.fin ((now : ℤ) : K) + time * MS_PER_S) = true := by
  rcases htime with rfl | ⟨t, ht, rfl⟩
  · have hinf : Dbl.inf false * MS_PER_S = (Dbl.inf false : Dbl K) := by
      show Dbl.mul (.inf false) (.fin ((1000 : ℕ) : K)) = _
      have hpos : (0 : K) < ((1000 : ℕ) : K) := by positivity
      simp only [Dbl.mul, if_neg hpos.ne', decide_eq_false hpos.le.not_gt, Bool.false_xor]
    rw [hinf]
    rfl
  · unfold MS_PER_S at *
    rw [Dbl.fin_mul] at *
    have hx : 0 ≤ t * ((1000 : ℕ) : K) := mul_nonneg ht (by positivity)
    rw [Dbl.fin_add, Dbl.lt_fin]
    exact decide_eq_true (ha.trans_le (now_add_toLong_le hnow hx))

end casts

/-! ## The messages of platoons -/

theorem newPlatoon_known [IsStrictOrderedRing K] {cfg : Settings K P F}
    (hmargin : 0 ≤ cfg.timeMargin) {now : ℤ} {header : MobilityHeader} {rearBsmId : String}
    {speed : Dbl K} {rearDTD : K} (h : ArrivesInTime cfg header.timestamp rearDTD speed) :
    Known cfg (newPlatoon cfg now header rearBsmId speed rearDTD) := by
  obtain ⟨hsent, v, rfl, hv, hlong⟩ := h
  have hleft := milliseconds_left cfg rearDTD hv
  generalize hx : (cfg.mainRouteMergeDTD - rearDTD) / v * ((1000 : ℕ) : K) = x at hleft hlong
  have hbetween := saturate_between 63 (trunc x)
  have hcut : trunc x ≤ saturate 63 (trunc x) := le_saturate (by omega)
  have hsat : saturate 63 (trunc x) ≤ max 0 (trunc x) := by
    unfold saturate
    omega
  have heta : timeOfArrival cfg header.timestamp rearDTD (.fin v) =
      saturate 63 (trunc x) + header.timestamp := by
    unfold timeOfArrival
    simp only
    rw [hleft, toLong_fin]
    exact wrap_eq_self (by omega) (by omega)
  refine ⟨⟨v, rfl, hv⟩, ⟨header.timestamp + x, ?_, ?_⟩, ?_, ?_⟩
  · unfold TrackedPlatoon.arrival newPlatoon
    simp only
    rw [hleft, Dbl.fin_add]
  · show (header.timestamp : K) + x < ((timeOfArrival cfg header.timestamp rearDTD (.fin v) + 1 : ℤ) : K)
    have hle : (trunc x : K) ≤ (saturate 63 (trunc x) : ℤ) := Int.cast_le.mpr hcut
    rw [heta]
    push_cast
    linarith [lt_trunc_add_one x]
  · show wrapLong (timeOfArrival cfg header.timestamp rearDTD (.fin v) + cfg.timeMargin) =
      timeOfArrival cfg header.timestamp rearDTD (.fin v) + cfg.timeMargin
    rw [heta]
    exact wrap_eq_self (by omega) (by omega)
  · intro hbefore
    show header.timestamp ≤ timeOfArrival cfg header.timestamp rearDTD (.fin v)
    have hahead : 0 ≤ x := by
      rw [← hx]
      exact mul_nonneg (div_nonneg (sub_nonneg.mpr hbefore.le) hv.le) (by positivity)
    have hnonneg : 0 ≤ saturate 63 (trunc x) := saturate_nonneg (trunc_nonneg hahead)
    omega

theorem updatePlatoonWithOperationMsg_inv [IsStrictOrderedRing K] {cfg : Settings K P F}
    (hmargin : 0 ≤ cfg.timeMargin) {now : ℤ} {s s' : RSUMeterWorker K} {msg : MobilityOperation K}
    (h : Inv cfg s) (hus : isForUs cfg msg.header = true) (hstrategy : msg.strategy = PLATOONING_STRATEGY)
    (hok : InTime cfg s (.operation now msg))
    (hs' : updatePlatoonWithOperationMsg cfg now s msg = some s') : Inv cfg s' := by
  obtain ⟨header, strategy, params⟩ := msg
  cases params with
  | status _ _ _ _ => exact Option.some.inj hs' ▸ h
  | malformed => exact Option.some.inj hs' ▸ h
  | info rear speed =>
    cases speed with
    | none => cases hs'
    | some speed =>
      simp only [updatePlatoonWithOperationMsg, Option.bind_eq_bind, Option.bind_some] at hs'
      split at hs'
      · exact Option.some.inj hs' ▸ h
      · rename_i bsm hbsm
        obtain ⟨rearDTD, hrear, hs'⟩ := Option.bind_eq_some_iff.mp hs'
        have hothers : ∀ p ∈ removePlatoon header.senderId s.platoonMap, Known cfg p :=
          fun p hp => h.known p (List.mem_filter.mp hp).1
        split at hs'
        · exact Option.some.inj hs' ▸ h.withMap hothers
        · rename_i hpast
          have hnew : Known cfg (newPlatoon cfg now header rear speed rearDTD) :=
            newPlatoon_known hmargin (hok hus hstrategy bsm rearDTD hbsm hrear hpast)
          refine Option.some.inj hs' ▸ h.withMap ?_
          intro p hp
          rcases List.mem_cons.mp hp with rfl | hp
          · exact hnew
          · exact hothers p hp

/-! ## The messages of vehicles -/

/-- The platoon that a vehicle is let go for is one whose stored arrival is before the
arrival that is found for the vehicle. -/
theorem arrivesBehind_lt {cfg : Settings K P F} (hmargin : 0 ≤ cfg.timeMargin) {now : ℤ}
    {h : HoldingState K} {p : TrackedPlatoon K} (hp : Known cfg p) {mergeDist speed : Dbl K}
    (hgo : arrivesBehind cfg now h p mergeDist speed = true) :
    p.expectedTimeOfArrival < wrapLong (now +
      expectedTravelTime mergeDist speed p.speed h.combinedLagTime h.vehMaxAccel) := by
  simp only [arrivesBehind, hp.margin] at hgo
  split at hgo
  · rename_i hwithin
    exact hwithin.1
  · have hlatest := of_decide_eq_true hgo
    omega

/-- A vehicle that is let go is behind the platoon. -/
theorem release_behind [IsStrictOrderedRing K] {cfg : Settings K P F}
    (hmargin : 0 ≤ cfg.timeMargin) {now : ℤ} (hnow : 0 ≤ now) {h : HoldingState K}
    (hfollow : CanFollow h.combinedLagTime h.vehMaxAccel) {p : TrackedPlatoon K} (hp : Known cfg p)
    {mergeDist speed : Dbl K} (hvehicle : BeforeMerge mergeDist speed)
    (hgo : arrivesBehind cfg now h p mergeDist speed = true) :
    (p.arrival cfg).lt (Release.arrival ⟨h, p, mergeDist, speed, now⟩) = true := by
  obtain ⟨a, ha, hearly⟩ := hp.early
  obtain ⟨m, hm, hmoves⟩ := hp.moves
  have hlt := arrivesBehind_lt hmargin hp hgo
  unfold expectedTravelTime at hlt
  have hnext : a < (wrapLong (now + toLong (travelTime mergeDist speed p.speed h.combinedLagTime
      h.vehMaxAccel * MS_PER_S)) : ℤ) := hearly.trans_le (Int.cast_le.mpr hlt)
  rw [ha]
  apply arrival_lt hnow _ hnext
  rw [hm]
  exact travelTime_nonneg hvehicle hfollow hmoves

theorem holdAtMeter_inv [IsStrictOrderedRing K] {cfg : Settings K P F}
    (hmargin : 0 ≤ cfg.timeMargin) {now : ℤ} {s : RSUMeterWorker K} (hs : Inv cfg s)
    {h : HoldingState K} (hfollow : CanFollow h.combinedLagTime h.vehMaxAccel)
    {mergeDist speed : Dbl K}
    (hok : speed.lt (.fin tenth) = true → 0 ≤ now ∧ BeforeMerge mergeDist speed) :
    Inv cfg (holdAtMeter cfg now s h mergeDist speed) := by
  have hheld : Inv cfg { s with
      state := .holding { h with commands := updateCommands (.fin 0) h.vehMaxAccel (.fin 0) } } :=
    hs.withState hfollow
  unfold holdAtMeter
  dsimp only
  split
  · rename_i hstops
    obtain ⟨hnow, hvehicle⟩ := hok hstops
    split
    · exact hheld
    · rename_i p hnext
      have hp := hs.known p (getNextPlatoon_mem hnext)
      split
      · rename_i hgo
        have hbehind := release_behind hmargin hnow hfollow hp hvehicle hgo
        obtain ⟨m, hm, hmoves⟩ := hp.moves
        refine ⟨hs.known, ⟨_, List.mem_append_right _ List.mem_cons_self, rfl, rfl⟩, ?_, ?_⟩
        · rw [List.forall_mem_append, List.forall_mem_singleton]
          exact ⟨hs.behind, hbehind⟩
        · rw [List.forall_mem_append, List.forall_mem_singleton]
          refine ⟨hs.moving, ?_⟩
          intro hzero
          rw [hm] at hzero
          exact hmoves.ne' (Dbl.fin.inj hzero)
      · exact hheld
  · exact hheld

theorem holdingOnOperation_inv [IsStrictOrderedRing K] {cfg : Settings K P F}
    (hmargin : 0 ≤ cfg.timeMargin) {now : ℤ} {s s₀ : RSUMeterWorker K} (hs : Inv cfg s)
    {h : HoldingState K} (hfollow : CanFollow h.combinedLagTime h.vehMaxAccel)
    {msg : MobilityOperation K} (hus : isForUs cfg msg.header = true)
    (hok : InTime cfg s₀ (.operation now msg)) :
    Inv cfg (holdingOnOperation cfg now s h msg) := by
  obtain ⟨header, strategy, params⟩ := msg
  unfold holdingOnOperation
  split
  · exact hs
  · split
    · rename_i meterDist mergeDist speed lane hparams
      dsimp only at hparams ⊢
      subst hparams
      split
      · split
        · rename_i hmeter
          exact holdAtMeter_inv (h := { h with lastMessageTime := now }) hmargin hs hfollow
            (hok hus hmeter)
        · exact hs.withState hfollow
      · exact hs.withState hfollow
    · exact hs

omit [FloorRing K] in
theorem commandingOnOperation_inv {cfg : Settings K P F} {now : ℤ} {s : RSUMeterWorker K}
    (hs : Inv cfg s) {c : CommandingState K} (hc : Fits s.releases (.commanding c))
    (msg : MobilityOperation K) : Inv cfg (commandingOnOperation cfg now s c msg) := by
  unfold commandingOnOperation
  split
  · exact hs
  · split
    · dsimp only
      split
      · exact hs.withState hc
      · exact hs.withState hc
    · exact hs

theorem handleMobilityOperationMsg_inv [IsStrictOrderedRing K] {cfg : Settings K P F}
    (hmargin : 0 ≤ cfg.timeMargin) {now : ℤ} {s : RSUMeterWorker K} (hs : Inv cfg s)
    {msg : MobilityOperation K} (hok : InTime cfg s (.operation now msg)) :
    Inv cfg (handleMobilityOperationMsg cfg now s msg) := by
  unfold handleMobilityOperationMsg
  split
  · exact hs
  · rename_i hus
    rw [not_not] at hus
    dsimp only
    split
    · exact hs
    · rename_i s' hupdated
      have hs' : Inv cfg s' := by
        split at hupdated
        · rename_i hstrategy
          exact updatePlatoonWithOperationMsg_inv hmargin hs hus hstrategy hok hupdated
        · exact Option.some.inj hupdated ▸ hs
      have hfits := hs'.fits
      split
      · exact hs'
      · rename_i h hstate
        rw [hstate] at hfits
        exact holdingOnOperation_inv hmargin hs' hfits hus hok
      · rename_i c hstate
        rw [hstate] at hfits
        exact commandingOnOperation_inv hs' hfits msg

/-- A vehicle that is held from now on can follow. -/
theorem standbyOnRequest_fits {cfg : Settings K P F} {now : ℤ} {s : RSUMeterWorker K}
    {msg : MobilityRequest K} (hus : msg.header.recipientId = cfg.rsuId) (hstate : s.state = .standby)
    (hok : InTime cfg s (.request now msg)) {state : IRSUMeteringState K} {accepted : Bool}
    (h : standbyOnRequest cfg now msg = some (state, accepted)) : Fits s.releases state := by
  obtain ⟨header, params⟩ := msg
  unfold standbyOnRequest at h
  rcases params with _ | ⟨maxAccel, lagTime, vehicleDistToMerge⟩
  · obtain rfl := (Prod.mk.inj (Option.some.inj h)).1
    trivial
  · obtain ⟨a, rfl, h⟩ := Option.bind_eq_some_iff.mp h
    obtain ⟨l, rfl, h⟩ := Option.bind_eq_some_iff.mp h
    obtain ⟨d, rfl, h⟩ := Option.bind_eq_some_iff.mp h
    dsimp only at h
    split at h
    · obtain rfl := (Prod.mk.inj (Option.some.inj h)).1
      trivial
    · obtain rfl := (Prod.mk.inj (Option.some.inj h)).1
      exact hok hus hstate

theorem handleMobilityRequestMsg_inv {cfg : Settings K P F} {now : ℤ} {s : RSUMeterWorker K}
    (hs : Inv cfg s) {msg : MobilityRequest K} (hok : InTime cfg s (.request now msg)) :
    Inv cfg (handleMobilityRequestMsg cfg now s msg) := by
  unfold handleMobilityRequestMsg
  split
  · exact hs
  · rename_i hus
    rw [not_not] at hus
    dsimp only
    split
    · exact hs
    · rename_i state accepted hhandled
      have hfits : Fits s.releases state := by
        split at hhandled
        · rename_i hstandby
          exact standbyOnRequest_fits hus hstandby hok hhandled
        · have hsame : s.state = state := (Prod.mk.inj (Option.some.inj hhandled)).1
          exact hsame ▸ hs.fits
      exact (hs.withState hfits).withLog _

/-! ## Every run -/

omit [FloorRing K] in
theorem checkTimeout_inv {cfg : Settings K P F} {now lastMessageTime : ℤ}
    {vehicleId planId : String} {s : RSUMeterWorker K} (hs : Inv cfg s) :
    Inv cfg (checkTimeout cfg now lastMessageTime vehicleId planId s) := by
  unfold checkTimeout
  split
  · have hnack : Inv cfg { s with state := .standby } := hs.withState trivial
    exact hnack.withLog _
  · exact hs

omit [FloorRing K] in
theorem loop_inv {cfg : Settings K P F} {s : RSUMeterWorker K} (hs : Inv cfg s) (now : ℤ) :
    Inv cfg (loop cfg now s) := by
  have hstate : Inv cfg (loopState cfg now s) := by
    unfold loopState
    split
    · exact hs.withLog _
    · exact checkTimeout_inv (hs.withLog _)
    · exact checkTimeout_inv (hs.withLog _)
  apply (hstate.withBSMs _).withMap
  intro p hp
  exact hstate.known p (List.mem_filter.mp hp).1

theorem step_inv [IsStrictOrderedRing K] {cfg : Settings K P F} (hmargin : 0 ≤ cfg.timeMargin)
    (s : RSUMeterWorker K) (c : Call K) (hs : Inv cfg s) (hok : InTime cfg s c) :
    Inv cfg (step cfg s c) := by
  cases c with
  | bsm msg =>
    dsimp only [step]
    unfold handleBSMMsg
    split
    · exact hs
    · exact hs.withBSMs _
  | operation now msg => exact handleMobilityOperationMsg_inv hmargin hs hok
  | request now msg => exact handleMobilityRequestMsg_inv hs hok
  | response msg =>
    dsimp only [step]
    unfold handleMobilityResponseMsg
    split
    · exact hs.withState trivial
    · exact hs
  | loop now => exact loop_inv hs now

/-- In every run in which no platoon stands and all arrivals are longs, a vehicle is let
go only behind the next platoon. -/
theorem a_vehicle_is_let_go_behind_platoons_that_move [IsStrictOrderedRing K]
    (cfg : Settings K P F) (hmargin : 0 ≤ cfg.timeMargin) (calls : List (Call K))
    (h : EachCall (step cfg) (InTime cfg) newRSUMeterWorker calls) :
    ∀ s ∈ states (step cfg) newRSUMeterWorker calls, BehindPlatoons cfg s := by
  intro s hs
  have hinv := states_of_keeps (I := Inv cfg) (step_inv hmargin) (newRSUMeterWorker_inv cfg) h s hs
  exact hinv.behindPlatoons

/-! ## Platoons that move and platoons that stand -/

/-- A ramp on the flat earth, with the merge 500 meters down the road. -/
def flatRamp : Settings ℚ ℚ ℚ where
  rsuId := "rsu"
  geo := route_node.flatEarth
  mainRoadRoute := route_node.newRoute route_node.flatEarth
    [route_node.flatWaypoint 0 0, route_node.flatWaypoint 1000 0] "road" "road"
  distToMerge := 50
  mainRouteMergeDTD := 500
  mergeLength := 100
  meterRadius := 20
  targetLane := 0
  minApproachAccel := 1
  targetApproachSpeed := 1
  driverLagTime := 1
  commsLagTime := 1 / 2
  timeMargin := 2000
  commsTimeout := 1000
  values := id
  values_perm := List.Perm.refl

/-- The rear of a platoon is 150 meters before the merge, and a vehicle that asked to merge
stands at the meter. -/
def atTheMeter (platoonSpeed : ℚ) : List (Call ℚ) :=
  [.bsm ⟨[0, 0, 0, 1], ⟨350, 0, 0⟩, 0⟩,
    .operation 1000 ⟨⟨"leader", "", "", "", 1000⟩, "Carma/Platooning",
      .info "00000001" (some (.fin platoonSpeed))⟩,
    .request 1000 ⟨⟨"car", "rsu", "", "merge", 1000⟩,
      some ⟨some (.fin (5 / 2)), some (.fin (1 / 2)), some (.fin 55)⟩⟩,
    .operation 1100 ⟨⟨"car", "rsu", "", "merge", 1100⟩, "Carma/CooperativeMerge",
      .status (some (.fin 0)) (some (.fin 50)) (some (.fin 0)) (some 1)⟩]

theorem a_vehicle_is_let_go_behind_a_platoon :
    (run (step flatRamp) newRSUMeterWorker (atTheMeter 20)).releases.length = 1 ∧
      BehindPlatoons flatRamp (run (step flatRamp) newRSUMeterWorker (atTheMeter 20)) := by
  refine ⟨by decide +kernel, ?_⟩
  refine a_vehicle_is_let_go_behind_platoons_that_move flatRamp (by decide) (atTheMeter 20) ?_ _
    (run_mem_states _ _ _)
  refine ⟨trivial, ?_, ?_, ?_, trivial⟩
  · intro _ _ bsm rearDTD hbsm hrear _
    have hfound : (run (step flatRamp) newRSUMeterWorker ((atTheMeter 20).take 1)).bsmMap.lookup
        "00000001" = some ⟨[0, 0, 0, 1], ⟨350, 0, 0⟩, 0⟩ := by
      decide +kernel
    have hplace : getDowntrackDistanceFromLocation flatRamp ⟨350, 0, 0⟩ = some 350 := by
      decide +kernel
    obtain rfl := Option.some.inj (hfound.symm.trans hbsm)
    obtain rfl := Option.some.inj (hplace.symm.trans hrear)
    exact ⟨by decide, 20, rfl, by norm_num, by decide +kernel⟩
  · exact fun _ _ => ⟨2, 5 / 2, by decide +kernel, rfl, by norm_num, by norm_num⟩
  · intro _ _ _
    exact ⟨by decide, 50, 0, rfl, rfl, by norm_num, by norm_num, Or.inl (by norm_num)⟩

/-- The platoon stands, its arrival is past the end of a long, and the vehicle is let go
in front of it. -/
theorem a_vehicle_is_let_go_before_a_platoon_that_stands :
    (run (step flatRamp) newRSUMeterWorker (atTheMeter 0)).releases.length = 1 ∧
      ¬ BehindPlatoons flatRamp (run (step flatRamp) newRSUMeterWorker (atTheMeter 0)) := by
  refine ⟨by decide +kernel, ?_⟩
  intro h
  have hstands : ∃ r ∈ (run (step flatRamp) newRSUMeterWorker (atTheMeter 0)).releases,
      r.platoon.speed = .fin 0 := by
    decide +kernel
  obtain ⟨r, hr, hzero⟩ := hstands
  exact h.moving r hr hzero

end carma.rsu_metering
