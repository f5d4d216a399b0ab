-- Which lane of an intersection a vehicle is on, from one position to the next. A late change of
-- the lane keeps the distances of the lane before it, and deep in the box the code looks up a lane
-- that it may never have remembered.
import Carma.Lib.Narrowing

open lib.narrowing

namespace carma.ead.intersection_geometry

variable {P : Type}

/-! ## The code -/

/-- `THRESHOLD_DIST`, in cm. -/
def THRESHOLD_DIST : ℤ := 600

def MAX_VALUE : ℤ := 2 ^ 31 - 1

/-- A lane of the map with its geometry. What it answers depends on the position alone. -/
structure Lane (P : Type) where
  isApproach : Bool
  inBoundingBox : P → Bool
  dtsb : P → ℤ
  cte : P → ℤ

structure Candidate where
  index : ℤ
  approach : Bool
  dtsb : ℤ
  cte : ℤ
deriving DecidableEq

/-- What stays the same of an initialized `IntersectionGeometry`. -/
structure Intersection (P : Type) where
  lanes : List (Lane P)
  cteThreshold : ℤ
  largeMovement : ℤ

/-- What changes of it. -/
structure Association where
  laneIndex : ℤ
  laneDtsb : ℤ
  cte : ℤ
  prevLaneIndex : ℤ
  prevLaneIndexInBox : ℤ
  prevLaneApproach : Bool
  prevDtsb : ℤ
  lastApproachDtsb : ℤ
  firstEgressDtsb : ℤ
deriving DecidableEq

/-- `new IntersectionGeometry`. -/
def Association.new : Association where
  laneIndex := -1
  laneDtsb := MAX_VALUE
  cte := MAX_VALUE
  prevLaneIndex := -1
  prevLaneIndexInBox := -1
  prevLaneApproach := false
  prevDtsb := MAX_VALUE
  lastApproachDtsb := 0
  firstEgressDtsb := 0

namespace Intersection

/-- An access to the arrays of the lanes. None where it throws. -/
def laneAt (x : Intersection P) (index : ℤ) : Option (Lane P) :=
  if 0 ≤ index then x.lanes[index.toNat]? else none

/-- The candidates whose bounding box the vehicle is in. -/
def candidateLanes (x : Intersection P) (vehicle : P) : List Candidate :=
  (x.lanes.zipIdx.filter fun lane => lane.1.inBoundingBox vehicle).map fun lane =>
    ⟨lane.2, lane.1.isApproach, lane.1.dtsb vehicle, lane.1.cte vehicle⟩

def prevLane (x : Intersection P) (s : Association) (vehicle : P) : Option Candidate :=
  (x.laneAt s.prevLaneIndex).map fun lane =>
    ⟨s.prevLaneIndex, s.prevLaneApproach, lane.dtsb vehicle, lane.cte vehicle⟩

/-- The approach lane, or the egress lane, with the smallest CTE; the first of several. -/
def smallestCte (approach : Bool) (candidateLanes : List Candidate) : Option Candidate :=
  (candidateLanes.foldl (fun (chosen : Option Candidate × ℤ) c =>
    if c.approach = approach ∧ c.cte < chosen.2 then (some c, c.cte) else chosen)
      (none, MAX_VALUE)).1

/-- The index that is kept for the case that no lane is found in the box. -/
def rememberInBox (s : Association) : ℤ := max s.prevLaneIndex s.prevLaneIndexInBox

/-- The screening of a single candidate: the lane that is chosen, where there is success, and the
index that is kept. -/
def screenOne (x : Intersection P) (s : Association) (c : Candidate) : Option Candidate × ℤ :=
  if c.index = s.prevLaneIndex ∨ (!c.approach && s.prevLaneApproach) = true then
    (some c, s.prevLaneIndexInBox)
  else if c.cte < x.cteThreshold then
    if s.prevDtsb < -THRESHOLD_DIST then
      (if !c.approach then some c else none, rememberInBox s)
    else (some c, s.prevLaneIndexInBox)
  else (none, s.prevLaneIndexInBox)

/-- The lane that is chosen of several candidates, before its CTE is looked at. None where an
access throws. -/
def chooseOfMany (x : Intersection P) (s : Association) (vehicle : P)
    (candidateLanes : List Candidate) : Option (Option Candidate × ℤ) :=
  if s.prevDtsb ≥ 0 then
    if s.prevDtsb < THRESHOLD_DIST ∧ s.prevLaneIndex ≥ 0 then
      (x.prevLane s vehicle).map fun c => (some c, s.prevLaneIndexInBox)
    else some (smallestCte true candidateLanes, s.prevLaneIndexInBox)
  else if s.prevDtsb < -THRESHOLD_DIST then
    some (smallestCte false candidateLanes, rememberInBox s)
  else if s.prevLaneIndex ≥ 0 then
    (x.laneAt s.prevLaneIndex).bind fun lane =>
      if lane.isApproach then
        (x.prevLane s vehicle).map fun c => (some c, s.prevLaneIndexInBox)
      else some (none, s.prevLaneIndexInBox)
  else some (none, s.prevLaneIndexInBox)

/-- The screening of all candidates. -/
def screen (x : Intersection P) (s : Association) (vehicle : P) :
    List Candidate → Option (Option Candidate × ℤ)
  | [] => some (none, s.prevLaneIndexInBox)
  | [c] => some (x.screenOne s c)
  | c :: d :: rest =>
    (x.chooseOfMany s vehicle (c :: d :: rest)).map fun (chosenLane, inBox) =>
      (chosenLane.filter (·.cte < x.cteThreshold), inBox)

/-- The DTSB is way different from that of the previous time step. -/
def Jumped (x : Intersection P) (s : Association) (c : Candidate) : Prop :=
  let diff := wrap 31 (s.prevDtsb - c.dtsb)
  diff < -100 ∨ diff > x.largeMovement

instance (x : Intersection P) (s : Association) (c : Candidate) : Decidable (x.Jumped s c) :=
  instDecidableOr

/-- The final polish of the lane that was chosen: the lane, where success is left, and the
baselines. -/
def polish (x : Intersection P) (s : Association) (vehicle : P) (candidateLanes : List Candidate)
    (chosenLane : Candidate) : Option (Option Candidate × Association) :=
  if !chosenLane.approach then
    if s.prevLaneApproach then
      (x.laneAt s.prevLaneIndex).map fun lane =>
        (some chosenLane,
          { s with lastApproachDtsb := lane.dtsb vehicle, firstEgressDtsb := chosenLane.dtsb })
    else some (some chosenLane, s)
  else if s.prevLaneIndex ≥ 0 ∧ x.Jumped s chosenLane then
    if chosenLane.index ≠ s.prevLaneIndex then
      if candidateLanes.any (·.index = s.prevLaneIndex) then
        -- only the index is changed
        (x.laneAt s.prevLaneIndex).map fun lane =>
          (if lane.cte vehicle > x.cteThreshold then none
            else some { chosenLane with index := s.prevLaneIndex }, s)
      else some (none, s)
    else some (none, s)
  else some (some chosenLane, s)

/-- The lane that is settled on, where there is success. -/
def settle (x : Intersection P) (s : Association) (vehicle : P) :
    Option (Option Candidate × Association) :=
  (x.screen s vehicle (x.candidateLanes vehicle)).bind fun (chosenLane, inBox) =>
    let s := { s with prevLaneIndexInBox := inBox }
    match chosenLane with
    | some c => x.polish s vehicle (x.candidateLanes vehicle) c
    | none => some (none, s)

/-- Just beyond the stop bar the approach lane of the previous step is kept. -/
def stay (x : Intersection P) (s : Association) (vehicle : P) :
    Option Candidate → Option (Option Candidate)
  | some c => some (some c)
  | none =>
    if s.prevDtsb < 0 ∧ s.prevLaneApproach ∧ s.prevDtsb > -THRESHOLD_DIST then
      (x.prevLane s vehicle).map some
    else some none

def computeDtsb (s : Association) : Association :=
  { s with
    prevDtsb :=
      if s.laneIndex ≥ 0 then
        if s.prevLaneApproach then s.laneDtsb
        else wrap 31 (s.lastApproachDtsb - wrap 31 (s.laneDtsb - s.firstEgressDtsb))
      else if s.laneDtsb < 0 then s.laneDtsb
      else MAX_VALUE }

/-- The values that are stored for other methods and for the next step. -/
def store (x : Intersection P) (s : Association) (vehicle : P) :
    Option Candidate → Option Association
  | some c =>
    (if c.index ≥ 0 then (x.laneAt c.index).map (·.isApproach) else some false).map
      fun prevLaneApproach =>
        { s with
          laneIndex := c.index
          laneDtsb := c.dtsb
          cte := c.cte
          prevLaneIndex := c.index
          prevLaneApproach }
  | none =>
    (if s.prevDtsb < -THRESHOLD_DIST then
      (x.laneAt s.prevLaneIndexInBox).map fun lane => lane.dtsb vehicle
    else some MAX_VALUE).map fun laneDtsb =>
      { s with
        laneIndex := -1
        laneDtsb
        cte := MAX_VALUE
        prevLaneIndex := -1
        prevLaneApproach := false }

/-- `computeGeometry`. None where an access throws. -/
def computeGeometry (x : Intersection P) (s : Association) (vehicle : P) :
    Option (Bool × Association) :=
  (x.settle s vehicle).bind fun (settled, s) =>
    (x.stay s vehicle settled).bind fun chosenLane =>
      (x.store s vehicle chosenLane).map fun s => (chosenLane.isSome, computeDtsb s)

/-! ## What holds between the calls -/

/-- What holds of the stored values between the calls. -/
structure Inv (x : Intersection P) (s : Association) : Prop where
  index : s.prevLaneIndex = -1 ∨ (x.laneAt s.prevLaneIndex).isSome
  approach : s.prevLaneApproach = true → (x.laneAt s.prevLaneIndex).isSome
  inBox : s.prevLaneIndexInBox = -1 ∨ (x.laneAt s.prevLaneIndexInBox).isSome
  behind : s.prevDtsb < 0 → 0 ≤ s.prevLaneIndex ∨ 0 ≤ s.prevLaneIndexInBox

theorem inv_new (x : Intersection P) : x.Inv .new := by
  refine ⟨Or.inl rfl, ?_, Or.inl rfl, ?_⟩
  · intro h
    cases h
  · intro h
    simp [Association.new, MAX_VALUE] at h

/-- The distances are those of the lane. -/
def Genuine (x : Intersection P) (vehicle : P) (c : Candidate) : Prop :=
  ∃ lane, x.laneAt c.index = some lane ∧ c.dtsb = lane.dtsb vehicle ∧ c.cte = lane.cte vehicle

/-- The stored distances are those of the stored lane. -/
def Belongs (x : Intersection P) (vehicle : P) (s : Association) : Prop :=
  ∃ lane, x.laneAt s.laneIndex = some lane ∧ s.laneDtsb = lane.dtsb vehicle ∧
    s.cte = lane.cte vehicle

section facts

variable {x : Intersection P} {s : Association} {vehicle : P}

theorem laneAt_nonneg {index : ℤ} (h : (x.laneAt index).isSome) : 0 ≤ index := by
  unfold laneAt at h
  by_contra hneg
  rw [if_neg hneg] at h
  cases h

theorem Inv.prev (h : x.Inv s) (hprev : 0 ≤ s.prevLaneIndex) :
    (x.laneAt s.prevLaneIndex).isSome :=
  h.index.resolve_left (by omega)

theorem mem_candidateLanes {c : Candidate} (h : c ∈ x.candidateLanes vehicle) :
    x.Genuine vehicle c ∧ 0 ≤ c.index := by
  unfold candidateLanes at h
  obtain ⟨⟨lane, i⟩, hlane, rfl⟩ := List.mem_map.mp h
  have hget := List.mem_zipIdx_iff_getElem?.mp (List.mem_filter.mp hlane).1
  refine ⟨⟨lane, ?_, rfl, rfl⟩, Int.natCast_nonneg i⟩
  unfold laneAt
  rw [if_pos (Int.natCast_nonneg i), Int.toNat_natCast]
  exact hget

variable (vehicle) in
theorem prevLane_spec (h : (x.laneAt s.prevLaneIndex).isSome) :
    ∃ c, x.prevLane s vehicle = some c ∧ x.Genuine vehicle c := by
  obtain ⟨lane, hlane⟩ := Option.isSome_iff_exists.mp h
  unfold prevLane
  rw [hlane]
  exact ⟨_, rfl, lane, hlane, rfl, rfl⟩

theorem prevLane_index {c : Candidate} (h : x.prevLane s vehicle = some c) :
    c.index = s.prevLaneIndex := by
  obtain ⟨lane, -, rfl⟩ := Option.map_eq_some_iff.mp h
  rfl

theorem smallestCte_mem {approach : Bool} {cs : List Candidate} {c : Candidate}
    (h : smallestCte approach cs = some c) : c ∈ cs ∧ c.approach = approach := by
  unfold smallestCte at h
  have hkeep : ∀ (rest : List Candidate) (chosen : Option Candidate × ℤ),
      (∀ d ∈ rest, d ∈ cs) → (∀ d ∈ chosen.1, d ∈ cs ∧ d.approach = approach) →
      ∀ d ∈ (rest.foldl (fun (chosen : Option Candidate × ℤ) c =>
        if c.approach = approach ∧ c.cte < chosen.2 then (some c, c.cte) else chosen) chosen).1,
        d ∈ cs ∧ d.approach = approach := by
    intro rest
    induction rest with
    | nil => exact fun chosen _ hchosen => hchosen
    | cons e rest ih =>
      intro chosen hrest hchosen
      rw [List.foldl_cons]
      apply ih _ fun d hd => hrest d (List.mem_cons_of_mem e hd)
      intro d hd
      split at hd
      · rename_i hbetter
        obtain rfl := Option.mem_some_iff.mp hd
        exact ⟨hrest _ List.mem_cons_self, hbetter.1⟩
      · exact hchosen d hd
  exact hkeep cs _ (fun d hd => hd) (by simp) c h

/-! ## Screening -/

/-- The index that the code keeps for the box is left as it is, or the one to remember. -/
def Keeps (s : Association) (inBox : ℤ) : Prop :=
  inBox = s.prevLaneIndexInBox ∨ inBox = rememberInBox s

theorem chooseOfMany_spec (h : x.Inv s) {cs : List Candidate}
    (hcs : ∀ c ∈ cs, x.Genuine vehicle c) :
    ∃ chosen inBox, x.chooseOfMany s vehicle cs = some (chosen, inBox) ∧
      (∀ c ∈ chosen, x.Genuine vehicle c) ∧ Keeps s inBox := by
  have hsmallest : ∀ approach, ∀ c ∈ smallestCte approach cs, x.Genuine vehicle c :=
    fun approach c hc => hcs c (smallestCte_mem hc).1
  unfold chooseOfMany
  split
  · split
    · rename_i hclose
      obtain ⟨c, hc, hgenuine⟩ := prevLane_spec vehicle (h.prev hclose.2)
      exact ⟨some c, _, by rw [hc]; rfl, by simpa using hgenuine, Or.inl rfl⟩
    · exact ⟨_, _, rfl, hsmallest true, Or.inl rfl⟩
  · split
    · exact ⟨_, _, rfl, hsmallest false, Or.inr rfl⟩
    · split
      · rename_i hindex
        obtain ⟨lane, hlane⟩ := Option.isSome_iff_exists.mp (h.prev hindex)
        obtain ⟨c, hc, hgenuine⟩ := prevLane_spec vehicle (h.prev hindex)
        rw [hlane, Option.bind_some]
        split
        · exact ⟨some c, _, by rw [hc]; rfl, by simpa using hgenuine, Or.inl rfl⟩
        · exact ⟨none, _, rfl, by simp, Or.inl rfl⟩
      · exact ⟨none, _, rfl, by simp, Or.inl rfl⟩

theorem screenOne_spec (s : Association) {c : Candidate} (hc : x.Genuine vehicle c) :
    (∀ d ∈ (x.screenOne s c).1, x.Genuine vehicle d) ∧ Keeps s (x.screenOne s c).2 := by
  have hsome : ∀ d ∈ some c, x.Genuine vehicle d := by simpa using hc
  unfold screenOne
  split
  · exact ⟨hsome, Or.inl rfl⟩
  · split
    · split
      · refine ⟨?_, Or.inr rfl⟩
        intro d hd
        exact hsome d (Option.mem_ite_none_right.mp hd).2
      · exact ⟨hsome, Or.inl rfl⟩
    · exact ⟨by simp, Or.inl rfl⟩

/-- The screening does not throw, and chooses a lane with its own distances. -/
theorem screen_spec (h : x.Inv s) {cs : List Candidate} (hcs : ∀ c ∈ cs, x.Genuine vehicle c) :
    ∃ chosen inBox, x.screen s vehicle cs = some (chosen, inBox) ∧
      (∀ c ∈ chosen, x.Genuine vehicle c) ∧ Keeps s inBox := by
  match cs with
  | [] => exact ⟨none, _, rfl, by simp, Or.inl rfl⟩
  | [c] =>
    obtain ⟨hgenuine, hkeeps⟩ := screenOne_spec s (hcs c List.mem_cons_self)
    exact ⟨_, _, rfl, hgenuine, hkeeps⟩
  | c :: d :: rest =>
    obtain ⟨chosen, inBox, hchoose, hgenuine, hkeeps⟩ := chooseOfMany_spec h hcs
    refine ⟨_, inBox, by rw [screen, hchoose]; rfl, ?_, hkeeps⟩
    intro e he
    exact hgenuine e (Option.mem_filter_iff.mp he).1

/-- The code goes back to the lane of the previous step, but keeps the distances of this one. -/
structure Switches (x : Intersection P) (s : Association) (cs : List Candidate)
    (c : Candidate) : Prop where
  approach : c.approach = true
  prev : 0 ≤ s.prevLaneIndex
  jumped : x.Jumped s c
  other : c.index ≠ s.prevLaneIndex
  found : ∃ d ∈ cs, d.index = s.prevLaneIndex

/-- Before the stop bar the approach lane with the smallest CTE is chosen. -/
structure Nearest (x : Intersection P) (s : Association) (cs : List Candidate)
    (c : Candidate) : Prop where
  before : THRESHOLD_DIST ≤ s.prevDtsb
  smallest : smallestCte true cs = some c
  near : c.cte < x.cteThreshold

variable (vehicle) in
theorem chooseOfMany_switches {cs : List Candidate} {c : Candidate} (hs : x.Switches s cs c) :
    (∃ inBox, x.chooseOfMany s vehicle cs = some (some c, inBox)) ↔
      THRESHOLD_DIST ≤ s.prevDtsb ∧ smallestCte true cs = some c := by
  have hprev : ∀ inBox b : ℤ, (x.prevLane s vehicle).map (fun c => (some c, inBox)) ≠
      some (some c, b) := by
    intro inBox b hmap
    obtain ⟨p, hp, heq⟩ := Option.map_eq_some_iff.mp hmap
    obtain rfl := Option.some.inj (Prod.mk.inj heq).1
    exact hs.other (prevLane_index hp)
  unfold chooseOfMany
  split
  · split
    · rename_i hclose
      apply iff_of_false
      · rintro ⟨inBox, hchoose⟩
        exact hprev _ _ hchoose
      · intro hnear
        omega
    · rename_i hfar
      have hbefore : THRESHOLD_DIST ≤ s.prevDtsb := by
        by_contra hnot
        exact hfar ⟨by omega, hs.prev⟩
      simp [hbefore]
  · rename_i hbeyond
    have hnot : ¬ THRESHOLD_DIST ≤ s.prevDtsb := by
      unfold THRESHOLD_DIST
      omega
    apply iff_of_false _ fun hnear => hnot hnear.1
    rintro ⟨inBox, hchoose⟩
    split at hchoose
    · have hegress := (smallestCte_mem (Prod.mk.inj (Option.some.inj hchoose)).1).2
      rw [hs.approach] at hegress
      cases hegress
    · split at hchoose
      · obtain ⟨lane, -, hlane⟩ := Option.bind_eq_some_iff.mp hchoose
        split at hlane
        · exact hprev _ _ hlane
        · cases hlane
      · cases hchoose

variable (vehicle) in
theorem screen_switches {cs : List Candidate} {c : Candidate} (hs : x.Switches s cs c) :
    (∃ inBox, x.screen s vehicle cs = some (some c, inBox)) ↔ x.Nearest s cs c := by
  obtain ⟨d, hd, hindex⟩ := hs.found
  match cs, hd with
  | [e], hd =>
    -- the only candidate is the previous lane
    obtain rfl := List.mem_singleton.mp hd
    apply iff_of_false
    · rintro ⟨inBox, hscreen⟩
      have hone : x.screenOne s d = (some d, s.prevLaneIndexInBox) := if_pos (Or.inl hindex)
      rw [screen, hone] at hscreen
      cases hscreen
      exact hs.other hindex
    · intro hnear
      have hmem := (smallestCte_mem hnear.smallest).1
      rw [List.mem_singleton.mp hmem] at hs
      exact hs.other hindex
  | e :: f :: rest, hd =>
    have hchoose := chooseOfMany_switches vehicle hs
    constructor
    · rintro ⟨inBox, hscreen⟩
      obtain ⟨⟨chosen, b⟩, hchosen, heq⟩ := Option.map_eq_some_iff.mp hscreen
      obtain ⟨rfl, hnear⟩ := Option.filter_eq_some_iff.mp (Prod.mk.inj heq).1
      obtain ⟨hbefore, hsmallest⟩ := hchoose.mp ⟨b, hchosen⟩
      exact ⟨hbefore, hsmallest, by simpa using hnear⟩
    · rintro ⟨hbefore, hsmallest, hnear⟩
      obtain ⟨inBox, hchosen⟩ := hchoose.mpr ⟨hbefore, hsmallest⟩
      refine ⟨inBox, ?_⟩
      rw [screen, hchosen]
      simp [hnear]

/-! ## What is settled -/

/-- Going back changes nothing: the previous lane is too far off, or has the same distances. -/
def Harmless (x : Intersection P) (s : Association) (vehicle : P) (c : Candidate) : Prop :=
  ∀ lane, x.laneAt s.prevLaneIndex = some lane → lane.cte vehicle ≤ x.cteThreshold →
    c.dtsb = lane.dtsb vehicle ∧ c.cte = lane.cte vehicle

variable (vehicle) in
/-- The index of the previous lane is put in the place of the chosen one. -/
theorem polish_switches (h : x.Inv s) {cs : List Candidate} {c : Candidate}
    (hs : x.Switches s cs c) :
    ∃ lane, x.laneAt s.prevLaneIndex = some lane ∧ x.polish s vehicle cs c =
      some (if lane.cte vehicle > x.cteThreshold then none
        else some { c with index := s.prevLaneIndex }, s) := by
  obtain ⟨lane, hprev⟩ := Option.isSome_iff_exists.mp (h.prev hs.prev)
  refine ⟨lane, hprev, ?_⟩
  unfold polish
  rw [if_neg (by simp [hs.approach]), if_pos ⟨hs.prev, hs.jumped⟩, if_pos hs.other,
    if_pos (by simpa using hs.found), hprev]
  rfl

variable (vehicle) in
/-- In all other cases the chosen lane is left as it is, or is lost. -/
theorem polish_stays (h : x.Inv s) {cs : List Candidate} {c : Candidate}
    (hno : ¬ x.Switches s cs c) :
    ∃ settled a b, x.polish s vehicle cs c =
        some (settled, { s with lastApproachDtsb := a, firstEgressDtsb := b }) ∧
      ∀ d ∈ settled, d = c := by
  unfold polish
  split
  · split
    · rename_i happroach
      obtain ⟨lane, hprev⟩ := Option.isSome_iff_exists.mp (h.approach happroach)
      exact ⟨_, _, _, by rw [hprev]; rfl, by simp⟩
    · exact ⟨_, _, _, rfl, by simp⟩
  · rename_i happroach
    split
    · rename_i hjumped
      split
      · rename_i hother
        split
        · rename_i hany
          exact absurd ⟨by simpa using happroach, hjumped.1, hjumped.2, hother,
            by simpa using hany⟩ hno
        · exact ⟨none, _, _, rfl, by simp⟩
      · exact ⟨none, _, _, rfl, by simp⟩
    · exact ⟨some c, _, _, rfl, by simp⟩

/-- The polish does not throw. What it leaves is genuine unless a lane is switched. -/
theorem polish_spec (h : x.Inv s) (cs : List Candidate) {c : Candidate}
    (hc : x.Genuine vehicle c) :
    ∃ settled a b, x.polish s vehicle cs c =
        some (settled, { s with lastApproachDtsb := a, firstEgressDtsb := b }) ∧
      (∀ d ∈ settled, (x.laneAt d.index).isSome) ∧
      ((∀ d ∈ settled, x.Genuine vehicle d) ↔ (x.Switches s cs c → x.Harmless s vehicle c)) := by
  have hlane : (x.laneAt c.index).isSome := by
    obtain ⟨lane, hlane, -⟩ := hc
    simp [hlane]
  by_cases hs : x.Switches s cs c
  · obtain ⟨lane, hprev, hpolish⟩ := polish_switches vehicle h hs
    refine ⟨_, s.lastApproachDtsb, s.firstEgressDtsb, hpolish, ?_, ?_⟩
    · intro d hd
      obtain ⟨-, hd⟩ := Option.mem_ite_none_left.mp hd
      obtain rfl := Option.mem_some_iff.mp hd
      simp [hprev]
    · rw [imp_iff_right hs]
      unfold Harmless Genuine
      by_cases hfar : lane.cte vehicle > x.cteThreshold
      · simp [hprev, hfar]
      · simp [hprev, hfar, not_lt.mp hfar]
  · obtain ⟨settled, a, b, hpolish, hsame⟩ := polish_stays vehicle h hs
    refine ⟨settled, a, b, hpolish, ?_, iff_of_true ?_ fun hs' => absurd hs' hs⟩
    · intro d hd
      rw [hsame d hd]
      exact hlane
    · intro d hd
      rw [hsame d hd]
      exact hc

/-- The step changes a lane back only where that is harmless. -/
def SwitchFine (x : Intersection P) (s : Association) (vehicle : P) : Prop :=
  ∀ c, x.Nearest s (x.candidateLanes vehicle) c → x.Switches s (x.candidateLanes vehicle) c →
    x.Harmless s vehicle c

theorem Inv.keep (h : x.Inv s) {inBox : ℤ} (hkeeps : Keeps s inBox) :
    x.Inv { s with prevLaneIndexInBox := inBox } := by
  refine ⟨h.index, h.approach, ?_, ?_⟩
  · rcases hkeeps with rfl | rfl
    · exact h.inBox
    · unfold rememberInBox
      rcases max_choice s.prevLaneIndex s.prevLaneIndexInBox with hmax | hmax
      · rw [hmax]
        exact h.index
      · rw [hmax]
        exact h.inBox
  · intro hneg
    unfold Keeps rememberInBox at hkeeps
    have hbehind := h.behind hneg
    dsimp only
    omega

variable (vehicle) in
theorem settle_spec (h : x.Inv s) :
    ∃ settled inBox a b, x.settle s vehicle = some (settled, { s with
        prevLaneIndexInBox := inBox, lastApproachDtsb := a, firstEgressDtsb := b }) ∧
      Keeps s inBox ∧ (∀ d ∈ settled, (x.laneAt d.index).isSome) ∧
      ((∀ d ∈ settled, x.Genuine vehicle d) ↔ x.SwitchFine s vehicle) := by
  have hcs : ∀ c ∈ x.candidateLanes vehicle, x.Genuine vehicle c :=
    fun c hc => (mem_candidateLanes hc).1
  obtain ⟨chosen, inBox, hscreen, hgenuine, hkeeps⟩ := screen_spec h hcs
  unfold settle
  rw [hscreen, Option.bind_some]
  cases chosen with
  | none =>
    refine ⟨none, inBox, _, _, rfl, hkeeps, by simp, iff_of_true (by simp) ?_⟩
    intro c hnearest hs
    obtain ⟨b, hb⟩ := (screen_switches vehicle hs).mpr hnearest
    rw [hscreen] at hb
    cases hb
  | some c =>
    obtain ⟨settled, a, b, hpolish, hlanes, hiff⟩ :=
      polish_spec (h.keep hkeeps) (x.candidateLanes vehicle) (hgenuine c rfl)
    refine ⟨settled, inBox, a, b, hpolish, hkeeps, hlanes, hiff.trans ?_⟩
    constructor
    · intro hharmless d hnearest hs
      obtain ⟨b, hb⟩ := (screen_switches vehicle hs).mpr hnearest
      rw [hscreen] at hb
      cases hb
      exact hharmless ⟨hs.approach, hs.prev, hs.jumped, hs.other, hs.found⟩
    · intro hfine hs
      have hs' : x.Switches s (x.candidateLanes vehicle) c :=
        ⟨hs.approach, hs.prev, hs.jumped, hs.other, hs.found⟩
      exact hfine c ((screen_switches vehicle hs').mp ⟨inBox, hscreen⟩) hs'

/-! ## Deep in the box -/

/-- No lane is found and none is to be remembered: there is no candidate, or a single one that is
the previous lane after a jump, or is another with too large a CTE. -/
def Lost (x : Intersection P) (s : Association) : List Candidate → Prop
  | [] => True
  | [c] => if c.index = s.prevLaneIndex then c.approach = true ∧ x.Jumped s c
    else (c.approach = true ∨ s.prevLaneApproach = false) ∧ x.cteThreshold ≤ c.cte
  | _ :: _ :: _ => False

/-- Where the step is deep in the box, a lane was remembered, or one is found. -/
def BoxFine (x : Intersection P) (s : Association) (vehicle : P) : Prop :=
  s.prevDtsb < -THRESHOLD_DIST → s.prevLaneIndexInBox < 0 →
    ¬ x.Lost s (x.candidateLanes vehicle)

theorem polish_egress {cs : List Candidate} {c : Candidate} {settled : Option Candidate}
    {s' : Association} (h : x.polish s vehicle cs c = some (settled, s'))
    (hegress : c.approach = false) : settled = some c := by
  unfold polish at h
  rw [if_pos (by simp [hegress])] at h
  split at h
  · obtain ⟨lane, -, heq⟩ := Option.map_eq_some_iff.mp h
    exact (Prod.mk.inj heq).1.symm
  · exact (Prod.mk.inj (Option.some.inj h)).1.symm

theorem polish_same {cs : List Candidate} {c : Candidate} {settled : Option Candidate}
    {s' : Association} (h : x.polish s vehicle cs c = some (settled, s'))
    (hindex : c.index = s.prevLaneIndex) (hprev : 0 ≤ c.index) :
    settled = none ↔ c.approach = true ∧ x.Jumped s c := by
  by_cases happroach : c.approach = true
  · unfold polish at h
    rw [if_neg (by simp [happroach])] at h
    by_cases hjumped : x.Jumped s c
    · rw [if_pos ⟨hindex ▸ hprev, hjumped⟩, if_neg (not_not.mpr hindex)] at h
      obtain rfl := (Prod.mk.inj (Option.some.inj h)).1
      exact iff_of_true rfl ⟨happroach, hjumped⟩
    · rw [if_neg fun hboth => hjumped hboth.2] at h
      obtain rfl := (Prod.mk.inj (Option.some.inj h)).1
      exact iff_of_false (by simp) fun hboth => hjumped hboth.2
  · have hsome := polish_egress h (by simpa using happroach)
    rw [hsome]
    exact iff_of_false (by simp) fun hboth => happroach hboth.1

/-- The screening of a single candidate deep in the box. -/
theorem screenOne_deep (hdeep : s.prevDtsb < -THRESHOLD_DIST) (c : Candidate) :
    (c.index = s.prevLaneIndex ∨ c.approach = false ∧ s.prevLaneApproach = true) ∧
        x.screenOne s c = (some c, s.prevLaneIndexInBox) ∨
      (x.screenOne s c).2 = rememberInBox s ∧ c.index ≠ s.prevLaneIndex ∧ c.cte < x.cteThreshold ∨
      x.screenOne s c = (none, s.prevLaneIndexInBox) ∧ c.index ≠ s.prevLaneIndex ∧
        (c.approach = true ∨ s.prevLaneApproach = false) ∧ x.cteThreshold ≤ c.cte := by
  unfold screenOne
  by_cases hkept : c.index = s.prevLaneIndex ∨ (!c.approach && s.prevLaneApproach) = true
  · rw [if_pos hkept]
    exact Or.inl ⟨by simpa using hkept, rfl⟩
  · rw [if_neg hkept]
    obtain ⟨hother, happroach⟩ := not_or.mp hkept
    by_cases hnear : c.cte < x.cteThreshold
    · rw [if_pos hnear, if_pos hdeep]
      exact Or.inr (Or.inl ⟨rfl, hother, hnear⟩)
    · rw [if_neg hnear]
      refine Or.inr (Or.inr ⟨rfl, hother, ?_, not_lt.mp hnear⟩)
      cases hc : c.approach <;> simp_all

/-- What is settled on is what is left of the screening. -/
theorem settle_screened (h : x.Inv s) {settled : Option Candidate} {s' : Association}
    (hsettle : x.settle s vehicle = some (settled, s')) :
    ∃ chosen, x.screen s vehicle (x.candidateLanes vehicle) =
        some (chosen, s'.prevLaneIndexInBox) ∧ (chosen = none → settled = none) ∧
      ∀ c, chosen = some c → x.polish { s with prevLaneIndexInBox := s'.prevLaneIndexInBox } vehicle
        (x.candidateLanes vehicle) c = some (settled, s') := by
  unfold settle at hsettle
  obtain ⟨⟨chosen, inBox⟩, hscreen, hrest⟩ := Option.bind_eq_some_iff.mp hsettle
  obtain ⟨chosen', inBox', hscreen', hgenuine, hkeeps⟩ :=
    screen_spec h fun c (hc : c ∈ x.candidateLanes vehicle) => (mem_candidateLanes hc).1
  rw [hscreen] at hscreen'
  cases hscreen'
  cases chosen with
  | none =>
    cases hrest
    exact ⟨none, hscreen, by simp, by simp⟩
  | some c =>
    obtain ⟨_, a, b, hpolish, -⟩ :=
      polish_spec (h.keep hkeeps) (x.candidateLanes vehicle) (hgenuine c rfl)
    dsimp only at hrest
    have hbox : s'.prevLaneIndexInBox = inBox := by
      rw [hpolish] at hrest
      cases hrest
      rfl
    refine ⟨some c, by rw [hbox, hscreen], by simp, ?_⟩
    intro d hd
    cases hd
    rw [hbox, hrest]

/-- A single candidate deep in the box. -/
theorem screenOne_lost_iff (hdeep : s.prevDtsb < -THRESHOLD_DIST)
    (hremember : 0 ≤ rememberInBox s) {c : Candidate} (hc : 0 ≤ c.index)
    {chosen settled : Option Candidate} {inBox : ℤ} {s' : Association}
    (hone : x.screenOne s c = (chosen, inBox)) (hnone : chosen = none → settled = none)
    (hsome : ∀ d, chosen = some d → x.polish { s with prevLaneIndexInBox := inBox } vehicle [c] d =
      some (settled, s')) :
    settled = none ∧ inBox < 0 ↔ s.prevLaneIndexInBox < 0 ∧ x.Lost s [c] := by
  rw [Lost]
  rcases screenOne_deep (x := x) hdeep c with ⟨hkept, heq⟩ | ⟨heq, hother, hnear⟩ |
      ⟨heq, hother, happroach, hfar⟩
  · rw [hone] at heq
    cases heq
    by_cases hindex : c.index = s.prevLaneIndex
    · have hsame := polish_same (hsome c rfl) hindex hc
      rw [if_pos hindex, hsame, and_comm]
    · obtain ⟨hegress, hprev⟩ := hkept.resolve_left hindex
      rw [if_neg hindex, polish_egress (hsome c rfl) hegress]
      simp [hegress, hprev]
  · rw [hone] at heq
    obtain rfl : inBox = rememberInBox s := heq
    rw [if_neg hother]
    apply iff_of_false <;> omega
  · rw [hone] at heq
    cases heq
    rw [if_neg hother, hnone rfl]
    simp [happroach, hfar]

theorem settle_lost_iff (h : x.Inv s) (hdeep : s.prevDtsb < -THRESHOLD_DIST)
    {settled : Option Candidate} {s' : Association}
    (hsettle : x.settle s vehicle = some (settled, s')) :
    settled = none ∧ s'.prevLaneIndexInBox < 0 ↔
      s.prevLaneIndexInBox < 0 ∧ x.Lost s (x.candidateLanes vehicle) := by
  have hneg : s.prevDtsb < 0 := by
    unfold THRESHOLD_DIST at hdeep
    omega
  have hremember : 0 ≤ rememberInBox s := by
    have hbehind := h.behind hneg
    unfold rememberInBox
    omega
  have hcs : ∀ c ∈ x.candidateLanes vehicle, 0 ≤ c.index := fun c hc => (mem_candidateLanes hc).2
  obtain ⟨chosen, hscreen, hnone, hsome⟩ := settle_screened h hsettle
  generalize s'.prevLaneIndexInBox = inBox at *
  generalize x.candidateLanes vehicle = cs at *
  match cs with
  | [] =>
    cases hscreen
    simp [Lost, hnone rfl]
  | [c] =>
    exact screenOne_lost_iff hdeep hremember (hcs c List.mem_cons_self)
      (Option.some.inj hscreen) hnone hsome
  | c :: d :: rest =>
    have hdeepBox : inBox = rememberInBox s := by
      obtain ⟨⟨chosen', b⟩, hchoose, heq⟩ := Option.map_eq_some_iff.mp hscreen
      unfold chooseOfMany at hchoose
      rw [if_neg (by omega), if_pos hdeep] at hchoose
      cases hchoose
      exact (Prod.mk.inj heq).2.symm
    rw [Lost]
    apply iff_of_false
    · omega
    · simp

/-! ## Calls -/

variable (vehicle) in
theorem store_some {c : Candidate} (hlane : (x.laneAt c.index).isSome) :
    ∃ approach, x.store s vehicle (some c) = some { s with
      laneIndex := c.index, laneDtsb := c.dtsb, cte := c.cte, prevLaneIndex := c.index,
      prevLaneApproach := approach } := by
  obtain ⟨lane, hlane'⟩ := Option.isSome_iff_exists.mp hlane
  have hpos := laneAt_nonneg hlane
  refine ⟨lane.isApproach, ?_⟩
  unfold store
  dsimp only
  rw [if_pos hpos, hlane']
  rfl

variable (vehicle) in
theorem stay_spec (h : x.Inv s) (settled : Option Candidate) :
    ∃ chosen, x.stay s vehicle settled = some chosen ∧
      (settled = none → ∀ c ∈ chosen, x.Genuine vehicle c) ∧ (settled.isSome → chosen = settled) ∧
      (s.prevDtsb < -THRESHOLD_DIST → chosen = settled) := by
  cases settled with
  | some c => exact ⟨some c, rfl, by simp, fun _ => rfl, fun _ => rfl⟩
  | none =>
    unfold stay
    dsimp only
    split
    · rename_i hkept
      obtain ⟨c, hc, hgenuine⟩ := prevLane_spec vehicle (h.approach hkept.2.1)
      refine ⟨some c, by rw [hc]; rfl, by simpa using hgenuine, by simp, ?_⟩
      intro hdeep
      omega
    · exact ⟨none, rfl, by simp, by simp, fun _ => rfl⟩

/-- A call with a lane stores the lane. -/
theorem computeGeometry_some {s' : Association} {c : Candidate}
    (hlane : (x.laneAt c.index).isSome) {settled : Option Candidate}
    (hsettle : x.settle s vehicle = some (settled, s'))
    (hstay : x.stay s' vehicle settled = some (some c)) :
    ∃ approach, x.computeGeometry s vehicle = some (true, computeDtsb { s' with
      laneIndex := c.index, laneDtsb := c.dtsb, cte := c.cte, prevLaneIndex := c.index,
      prevLaneApproach := approach }) := by
  obtain ⟨approach, hstore⟩ := store_some (s := s') vehicle hlane
  refine ⟨approach, ?_⟩
  unfold computeGeometry
  rw [hsettle, Option.bind_some]
  dsimp only
  rw [hstay, Option.bind_some, hstore]
  rfl

/-- A call without a lane throws where it looks up a lane for the box and has none. -/
theorem computeGeometry_none {s' : Association} (h : x.Inv s') {settled : Option Candidate}
    (hsettle : x.settle s vehicle = some (settled, s'))
    (hstay : x.stay s' vehicle settled = some none) :
    (¬ (s'.prevDtsb < -THRESHOLD_DIST ∧ s'.prevLaneIndexInBox < 0) → ∃ laneDtsb,
      x.computeGeometry s vehicle = some (false, computeDtsb { s' with
        laneIndex := -1, laneDtsb, cte := MAX_VALUE, prevLaneIndex := -1,
        prevLaneApproach := false }) ∧ (laneDtsb < 0 → 0 ≤ s'.prevLaneIndexInBox)) ∧
    (s'.prevDtsb < -THRESHOLD_DIST ∧ s'.prevLaneIndexInBox < 0 →
      x.computeGeometry s vehicle = none) := by
  unfold computeGeometry
  rw [hsettle, Option.bind_some]
  dsimp only
  rw [hstay, Option.bind_some]
  unfold store
  dsimp only
  constructor
  · intro hfine
    split
    · rename_i hdeep
      have hbox : 0 ≤ s'.prevLaneIndexInBox := by
        by_contra hneg
        exact hfine ⟨hdeep, by omega⟩
      obtain ⟨lane, hlane⟩ := Option.isSome_iff_exists.mp (h.inBox.resolve_left (by omega))
      rw [hlane]
      exact ⟨_, rfl, fun _ => hbox⟩
    · refine ⟨MAX_VALUE, rfl, ?_⟩
      intro hneg
      simp [MAX_VALUE] at hneg
  · rintro ⟨hdeep, hneg⟩
    rw [if_pos hdeep]
    unfold laneAt
    rw [if_neg (by omega)]
    rfl

/-- The step neither goes back to a lane with other distances, nor loses itself in the box. -/
structure Fine (x : Intersection P) (s : Association) (vehicle : P) : Prop where
  switch : x.SwitchFine s vehicle
  box : x.BoxFine s vehicle

/-- A call returns, and where it has success it stores a lane with its own distances. -/
def Right (x : Intersection P) (s : Association) (vehicle : P) : Prop :=
  ∃ r, x.computeGeometry s vehicle = some r ∧ (r.1 = true → x.Belongs vehicle r.2)

variable (vehicle) in
/-- The two ends of a call: with a lane, and without. -/
theorem computeGeometry_cases (h : x.Inv s) :
    ∃ settled s', x.settle s vehicle = some (settled, s') ∧ x.Inv s' ∧
      s'.prevDtsb = s.prevDtsb ∧
      ((∀ d ∈ settled, x.Genuine vehicle d) ↔ x.SwitchFine s vehicle) ∧
      ((∃ c, x.stay s' vehicle settled = some (some c) ∧ (x.laneAt c.index).isSome ∧
          (settled = some c ∨ settled = none ∧ x.Genuine vehicle c ∧
            ¬ s.prevDtsb < -THRESHOLD_DIST)) ∨
        settled = none ∧ x.stay s' vehicle settled = some none) := by
  obtain ⟨settled, inBox, a, b, hsettle, hkeeps, hlanes, hiff⟩ := settle_spec vehicle h
  have hkept := h.keep hkeeps
  obtain ⟨chosen, hstay, hgenuine, hsame, hdeep⟩ := stay_spec vehicle (s := { s with
    prevLaneIndexInBox := inBox, lastApproachDtsb := a, firstEgressDtsb := b })
    ⟨hkept.index, hkept.approach, hkept.inBox, hkept.behind⟩ settled
  refine ⟨settled, _, hsettle, ⟨hkept.index, hkept.approach, hkept.inBox, hkept.behind⟩, rfl, hiff,
    ?_⟩
  cases settled with
  | some c =>
    obtain rfl := hsame rfl
    exact Or.inl ⟨c, hstay, hlanes c rfl, Or.inl rfl⟩
  | none =>
    cases chosen with
    | none => exact Or.inr ⟨rfl, hstay⟩
    | some c =>
      have hc := hgenuine rfl c rfl
      obtain ⟨lane, hlane, -⟩ := hc
      refine Or.inl ⟨c, hstay, by simp [hlane], Or.inr ⟨rfl, hgenuine rfl c rfl, ?_⟩⟩
      intro hlt
      cases hdeep hlt

theorem step_iff (h : x.Inv s) : x.Right s vehicle ↔ x.Fine s vehicle := by
  obtain ⟨settled, s', hsettle, hinv, hdtsb, hswitch, hend⟩ :=
    computeGeometry_cases vehicle h
  rcases hend with ⟨c, hstay, hlane, hsettled⟩ | ⟨rfl, hstay⟩
  · obtain ⟨approach, hcompute⟩ := computeGeometry_some hlane hsettle hstay
    have hright : x.Right s vehicle ↔ x.Genuine vehicle c := by
      unfold Right
      rw [hcompute]
      simp [Belongs, Genuine, computeDtsb]
    have hbox : x.BoxFine s vehicle := by
      intro hdeep hneg hlost
      obtain ⟨hnone, -⟩ := (settle_lost_iff h hdeep hsettle).mpr ⟨hneg, hlost⟩
      rcases hsettled with hsome | ⟨-, -, hnot⟩
      · rw [hnone] at hsome
        cases hsome
      · exact hnot hdeep
    rw [hright]
    constructor
    · intro hgenuine
      refine ⟨hswitch.mp ?_, hbox⟩
      rcases hsettled with rfl | ⟨rfl, -⟩
      · simpa using hgenuine
      · simp
    · rintro ⟨hfine, -⟩
      rcases hsettled with rfl | ⟨-, hgenuine, -⟩
      · exact hswitch.mpr hfine c rfl
      · exact hgenuine
  · obtain ⟨hreturns, hthrows⟩ := computeGeometry_none hinv hsettle hstay
    rw [hdtsb] at hreturns hthrows
    constructor
    · rintro ⟨r, hr, -⟩
      refine ⟨hswitch.mp (by simp), ?_⟩
      intro hdeep hneg hlost
      obtain ⟨-, hbox⟩ := (settle_lost_iff h hdeep hsettle).mpr ⟨hneg, hlost⟩
      rw [hthrows ⟨hdeep, hbox⟩] at hr
      cases hr
    · rintro ⟨-, hfine⟩
      obtain ⟨laneDtsb, hcompute, -⟩ := hreturns fun ⟨hdeep, hbox⟩ => by
        obtain ⟨hneg, hlost⟩ := (settle_lost_iff h hdeep hsettle).mp ⟨rfl, hbox⟩
        exact hfine hdeep hneg hlost
      exact ⟨_, hcompute, by simp⟩

/-- A call keeps what holds between the calls. -/
theorem step_inv (h : x.Inv s) {r : Bool × Association}
    (hr : x.computeGeometry s vehicle = some r) : x.Inv r.2 := by
  obtain ⟨settled, s', hsettle, hinv, -, -, hend⟩ := computeGeometry_cases vehicle h
  rcases hend with ⟨c, hstay, hlane, -⟩ | ⟨rfl, hstay⟩
  · obtain ⟨approach, hcompute⟩ := computeGeometry_some hlane hsettle hstay
    rw [hr] at hcompute
    obtain rfl := Option.some.inj hcompute
    exact ⟨Or.inr hlane, fun _ => hlane, hinv.inBox, fun _ => Or.inl (laneAt_nonneg hlane)⟩
  · obtain ⟨hreturns, hthrows⟩ := computeGeometry_none hinv hsettle hstay
    by_cases hlost : s'.prevDtsb < -THRESHOLD_DIST ∧ s'.prevLaneIndexInBox < 0
    · rw [hthrows hlost] at hr
      cases hr
    · obtain ⟨laneDtsb, hcompute, hbox⟩ := hreturns hlost
      rw [hr] at hcompute
      obtain rfl := Option.some.inj hcompute
      refine ⟨Or.inl rfl, ?_, hinv.inBox, ?_⟩
      · intro happroach
        cases happroach
      · intro hneg
        right
        apply hbox
        by_contra hpos
        simp [computeDtsb, hpos, MAX_VALUE] at hneg

end facts

/-! ## Drives -/

/-- Each call of a drive has `ok` in the state that the calls before it leave. -/
def EachStep (x : Intersection P) (ok : Association → P → Prop) : Association → List P → Prop
  | _, [] => True
  | s, vehicle :: rest =>
    ok s vehicle ∧ ∀ r ∈ x.computeGeometry s vehicle, x.EachStep ok r.2 rest

theorem eachStep_iff {x : Intersection P} {s : Association} (h : x.Inv s) (drive : List P) :
    x.EachStep x.Right s drive ↔ x.EachStep x.Fine s drive := by
  induction drive generalizing s with
  | nil => exact Iff.rfl
  | cons vehicle rest ih =>
    unfold EachStep
    rw [step_iff h]
    apply and_congr_right'
    constructor
    · intro hrest r hr
      exact (ih (step_inv h hr)).mp (hrest r hr)
    · intro hrest r hr
      exact (ih (step_inv h hr)).mpr (hrest r hr)

/-- In a drive all calls return, and store a lane with its own distances after success, just when
no step goes back to a lane with other distances or loses itself in the box. -/
theorem lanes_keep_their_distances_iff (x : Intersection P) (drive : List P) :
    x.EachStep x.Right .new drive ↔ x.EachStep x.Fine .new drive :=
  eachStep_iff x.inv_new drive

end Intersection

/-! ## Two approach lanes -/

/-- A straight approach lane that runs to the east of its stop bar, 100 m long. -/
def eastLane (stopBar : ℤ × ℤ) : Lane (ℤ × ℤ) where
  isApproach := true
  inBoundingBox p := stopBar.1 - 2400 < p.1 ∧ p.1 < stopBar.1 + 12400 ∧
    stopBar.2 - 2400 < p.2 ∧ p.2 < stopBar.2 + 2400
  dtsb p := p.1 - stopBar.1
  cte p := |p.2 - stopBar.2|

/-- Two lanes next to each other. The stop bar of the second one is 20 m back. -/
def staggered : Intersection (ℤ × ℤ) where
  lanes := [eastLane (0, 0), eastLane (2000, 60)]
  cteThreshold := 400
  largeMovement := 782

/-- A vehicle that drifts to the second lane is on the first with the distances of the second, and
one that leaves the box without another lane makes the lookup throw. -/
theorem the_distances_of_another_lane_are_kept :
    ¬ staggered.EachStep staggered.Right .new [(5000, 0), (4990, 55)] ∧
      ¬ staggered.EachStep staggered.Right .new [(-700, 0), (-2500, 0)] := by
  have hfirst : staggered.computeGeometry .new (5000, 0) =
      some (true, ⟨0, 5000, 0, 0, -1, true, 5000, 0, 0⟩) := by decide +kernel
  have hdrift : staggered.computeGeometry ⟨0, 5000, 0, 0, -1, true, 5000, 0, 0⟩ (4990, 55) =
      some (true, ⟨0, 2990, 5, 0, -1, true, 2990, 0, 0⟩) := by decide +kernel
  have hbox : staggered.computeGeometry .new (-700, 0) =
      some (true, ⟨0, -700, 0, 0, -1, true, -700, 0, 0⟩) := by decide +kernel
  have hlost : staggered.computeGeometry ⟨0, -700, 0, 0, -1, true, -700, 0, 0⟩ (-2500, 0) =
      none := by decide +kernel
  constructor
  · rintro ⟨-, hrest⟩
    obtain ⟨⟨r, hr, hbelongs⟩, -⟩ := hrest _ hfirst
    rw [hdrift] at hr
    obtain rfl := Option.some.inj hr
    obtain ⟨lane, hlane, hdtsb, -⟩ := hbelongs rfl
    have hzero : lane = eastLane (0, 0) := (Option.some.inj hlane).symm
    rw [hzero] at hdtsb
    exact absurd hdtsb (by decide)
  · rintro ⟨-, hrest⟩
    obtain ⟨⟨r, hr, -⟩, -⟩ := hrest _ hbox
    rw [hlost] at hr
    cases hr

end carma.ead.intersection_geometry
