-- What a list of conflicts says about the points of a host path: where each point is
-- more than a margin further than the one before, the conflicts tell which points
-- collided, and in which lane.
import Mathlib.Tactic.Linarith
import Carma.ConflictManager

open carma.route

namespace carma.conflict_manager

variable {K V : Type} [LinearOrder K] [Field K]

/-! ## Conflicts without their vehicles -/

/-- The ranges of a conflict, its lane and its segment. -/
def ConflictSpace.bare (c : ConflictSpace K V) : ConflictSpace K V :=
  { c with conflictingVehicles := ∅ }

def Tracking.bare (st : Tracking K V) : Tracking K V where
  conflicts := st.conflicts.map (·.bare)
  currentConflict := st.currentConflict.map (·.bare)
  prevPoint := st.prevPoint

/-- A conflict that is open has a point before. -/
def Sound (st : Tracking K V) : Prop := st.currentConflict.isSome → st.prevPoint.isSome

theorem closeConflict_bare (mg : Margins K) (c : ConflictSpace K V) (endDowntrack endTime : K) :
    (closeConflict mg c endDowntrack endTime).bare =
      closeConflict mg c.bare endDowntrack endTime := rfl

omit [LinearOrder K] in
theorem newConflictSpace_bare (startDowntrack startTime : K) (lane segmentIdx : ℤ)
    (vehicles : Finset (Option V)) :
    (newConflictSpace startDowntrack startTime lane segmentIdx vehicles).bare =
      newConflictSpace startDowntrack startTime lane segmentIdx ∅ := rfl

/-- A turn comes back, and the vehicles make no difference to the rest. The lane makes
one only if the point collides. -/
theorem turn_bare (mg : Margins K) {st : Tracking K V} (h : Sound st) (p : PathPoint K)
    {lane lane' : ℤ} {collides : Bool} (hlane : collides = true → lane = lane')
    (vehicles : Finset (Option V)) :
    ∃ st', turn mg st p lane collides vehicles = some st' ∧ Sound st' ∧
      turn mg st.bare p lane' collides ∅ = some st'.bare := by
  obtain ⟨conflicts, currentConflict, prevPoint⟩ := st
  cases collides with
  | false =>
    cases currentConflict with
    | none => exact ⟨_, rfl, fun hc => absurd hc Bool.false_ne_true, rfl⟩
    | some c =>
      obtain ⟨prev, rfl⟩ := Option.isSome_iff_exists.mp (h rfl)
      refine ⟨_, rfl, fun _ => rfl, ?_⟩
      simp [turn, Tracking.bare, closeConflict_bare]
  | true =>
    obtain rfl := hlane rfl
    cases currentConflict with
    | none => exact ⟨_, rfl, fun _ => rfl, rfl⟩
    | some c =>
      obtain ⟨prev, rfl⟩ := Option.isSome_iff_exists.mp (h rfl)
      have hsame : c.bare.lane = c.lane := rfl
      by_cases hl : lane = c.lane
      · refine ⟨_, if_neg (not_not_intro hl), fun _ => rfl, ?_⟩
        simp [turn, Tracking.bare, hsame, hl]
      · refine ⟨_, if_pos hl, fun _ => rfl, ?_⟩
        simp [turn, Tracking.bare, hsame, hl, closeConflict_bare, newConflictSpace_bare]

theorem turned_bare {mg : Margins K} {st st' : Tracking K V} (hst : Sound st) {p : PathPoint K}
    {lane : ℤ} {collides : Bool} {vehicles : Finset (Option V)}
    (h : turn mg st p lane collides vehicles = some st') :
    Sound st' ∧ turn mg st.bare p lane collides ∅ = some st'.bare := by
  have hlane : collides = true → lane = lane := fun _ => rfl
  obtain ⟨st1, hturn, hsound, hbare⟩ := turn_bare mg hst p hlane vehicles
  obtain rfl := Option.some.inj (h.symm.trans hturn)
  exact ⟨hsound, hbare⟩

theorem finish_bare (mg : Margins K) {st : Tracking K V} (h : Sound st) :
    ∃ cs, finish mg st = some cs ∧ finish mg st.bare = some (cs.map (·.bare)) := by
  obtain ⟨conflicts, currentConflict, prevPoint⟩ := st
  cases currentConflict with
  | none => exact ⟨_, rfl, rfl⟩
  | some c =>
    obtain ⟨prev, rfl⟩ := Option.isSome_iff_exists.mp (h rfl)
    refine ⟨_, rfl, ?_⟩
    simp [finish, Tracking.bare, closeConflict_bare]

/-! ## What a turn leaves -/

/-- Turns over these points lead from this state to these conflicts. -/
inductive Leads (mg : Margins K) : Tracking K V → List (PathPoint K) → List (ConflictSpace K V) → Prop
  | finished {st : Tracking K V} {out : List (ConflictSpace K V)} (h : finish mg st = some out) :
      Leads mg st [] out
  | turned {st st' : Tracking K V} {p : PathPoint K} {rest : List (PathPoint K)}
      {out : List (ConflictSpace K V)} {lane : ℤ} {collides : Bool} {vehicles : Finset (Option V)}
      (h : turn mg st p lane collides vehicles = some st') (hrest : Leads mg st' rest out) :
      Leads mg st (p :: rest) out

section turns

variable {mg : Margins K} {cs out : List (ConflictSpace K V)} {c : ConflictSpace K V}
  {prev p : PathPoint K} {st' : Tracking K V} {lane : ℤ} {collides : Bool}
  {vehicles : Finset (Option V)} {rest path : List (PathPoint K)}

theorem turn_none {prevPoint : Option (PathPoint K)}
    (h : turn mg ⟨cs, none, prevPoint⟩ p lane collides vehicles = some st') :
    st' = ⟨cs, if collides then
      some (newConflictSpace p.downtrack p.stamp lane p.segmentIdx vehicles) else none, some p⟩ := by
  cases collides <;> exact (Option.some.inj h).symm

/-- A turn where a conflict is open: it goes on, or it is closed, and perhaps a new one
is opened. -/
theorem turn_some {prevPoint : Option (PathPoint K)}
    (h : turn mg ⟨cs, some c, prevPoint⟩ p lane collides vehicles = some st') :
    (collides = true ∧ lane = c.lane ∧ st' = ⟨cs, some c, some p⟩) ∨
      (¬ (collides = true ∧ lane = c.lane) ∧ ∃ prev, prevPoint = some prev ∧
        st' = ⟨cs ++ [closeConflict mg c prev.downtrack prev.stamp], if collides then
          some (newConflictSpace prev.downtrack prev.stamp lane p.segmentIdx vehicles)
          else none, some p⟩) := by
  cases collides with
  | false =>
    obtain ⟨prev, hprev, h⟩ := Option.bind_eq_some_iff.mp h
    exact Or.inr ⟨fun hc => absurd hc.1 Bool.false_ne_true, prev, hprev, (Option.some.inj h).symm⟩
  | true =>
    simp only [turn] at h
    split at h
    · rename_i hlane
      obtain ⟨prev, hprev, h⟩ := Option.bind_eq_some_iff.mp h
      exact Or.inr ⟨fun hc => hlane hc.2, prev, hprev, (Option.some.inj h).symm⟩
    · rename_i hlane
      exact Or.inl ⟨rfl, not_not.mp hlane, (Option.some.inj h).symm⟩

/-! ## What is found later -/

/-- The conflicts so far stay. -/
theorem leads_prefix {st : Tracking K V} (h : Leads mg st path out) : st.conflicts <+: out := by
  induction h with
  | @finished st out h =>
    obtain ⟨conflicts, currentConflict, prevPoint⟩ := st
    cases currentConflict with
    | none => exact Option.some.inj h ▸ List.prefix_rfl
    | some c =>
      obtain ⟨prev, -, h⟩ := Option.bind_eq_some_iff.mp h
      exact Option.some.inj h ▸ List.prefix_append _ _
  | @turned st st' p rest out lane collides vehicles h hrest ih =>
    obtain ⟨conflicts, currentConflict, prevPoint⟩ := st
    cases currentConflict with
    | none =>
      obtain rfl := turn_none h
      exact ih
    | some c =>
      rcases turn_some h with ⟨-, -, rfl⟩ | ⟨-, prev, -, rfl⟩
      · exact ih
      · exact (List.prefix_append _ _).trans ih

theorem leads_open (h : Leads mg ⟨cs, some c, some prev⟩ path out) :
    ∃ q ∈ prev :: path, ∃ tail, out = cs ++ closeConflict mg c q.downtrack q.stamp :: tail := by
  induction path generalizing prev with
  | nil =>
    cases h with
    | finished h => exact ⟨prev, List.mem_cons_self .., [], (Option.some.inj h).symm⟩
  | cons p rest ih =>
    cases h with
    | turned h hrest =>
      rcases turn_some h with ⟨-, -, rfl⟩ | ⟨-, prev', hprev, rfl⟩
      · obtain ⟨q, hq, hout⟩ := ih hrest
        exact ⟨q, List.mem_cons_of_mem _ hq, hout⟩
      · obtain rfl := Option.some.inj hprev
        obtain ⟨tail, rfl⟩ := leads_prefix hrest
        exact ⟨prev, List.mem_cons_self .., tail, by simp⟩

theorem leads_none {prevPoint : Option (PathPoint K)} (h : Leads mg ⟨cs, none, prevPoint⟩ path out) :
    ∃ tail, out = cs ++ tail ∧ ∀ d ∈ tail.head?, ∃ q ∈ path, d.startDowntrack = q.downtrack := by
  induction path generalizing prevPoint with
  | nil =>
    cases h with
    | finished h =>
      obtain rfl := Option.some.inj h
      exact ⟨[], by simp, by simp⟩
  | cons p rest ih =>
    cases h with
    | @turned _ _ _ _ _ lane collides vehicles h hrest =>
      obtain rfl := turn_none h
      cases collides with
      | false =>
        obtain ⟨tail, hout, hstart⟩ := ih hrest
        refine ⟨tail, hout, fun d hd => ?_⟩
        obtain ⟨q, hq, hd⟩ := hstart d hd
        exact ⟨q, List.mem_cons_of_mem _ hq, hd⟩
      | true =>
        obtain ⟨q, -, tail, rfl⟩ := leads_open hrest
        refine ⟨_, rfl, fun d hd => ⟨p, List.mem_cons_self .., ?_⟩⟩
        obtain rfl := Option.some.inj hd
        rfl

theorem leads_bare {st : Tracking K V} (h : Leads mg st path out) (hst : Sound st) :
    Leads mg st.bare path (out.map (·.bare)) := by
  induction h with
  | finished h =>
    obtain ⟨cs', hfinish, hbare⟩ := finish_bare mg hst
    obtain rfl := Option.some.inj (h.symm.trans hfinish)
    exact Leads.finished hbare
  | @turned st st' p rest out lane collides vehicles h hrest ih =>
    obtain ⟨hsound, hbare⟩ := turned_bare hst h
    exact Leads.turned hbare (ih hsound)

end turns

/-! ## Paths whose points are far apart -/

/-- Each later point is more than the downtrack margin further. -/
def FarApart (mg : Margins K) (path : List (PathPoint K)) : Prop :=
  path.Pairwise fun p q => p.downtrack + mg.downtrackMargin < q.downtrack

/-- The state before these points: an open conflict starts no later than the point
before, and this one is far from the others. -/
def Before (mg : Margins K) (st : Tracking K V) (path : List (PathPoint K)) : Prop :=
  ∀ c, st.currentConflict = some c → ∃ prev, st.prevPoint = some prev ∧
    c.startDowntrack ≤ prev.downtrack ∧ FarApart mg (prev :: path)

/-- The conflicts that are found tell that the next point collides in this lane. -/
def Tells (mg : Margins K) (st : Tracking K V) (p : PathPoint K) (out : List (ConflictSpace K V))
    (lane : ℤ) : Prop :=
  match st.currentConflict, st.prevPoint with
  | some c, some prev =>
    if lane = c.lane then ∃ d tail, out = st.conflicts ++ d :: tail ∧
      (closeConflict mg c prev.downtrack prev.stamp).endDowntrack < d.endDowntrack
    else ∃ d tail, out = st.conflicts ++ closeConflict mg c prev.downtrack prev.stamp :: d :: tail ∧
      d.startDowntrack = prev.downtrack ∧ d.lane = lane
  | _, _ => ∃ d tail, out = st.conflicts ++ d :: tail ∧ d.startDowntrack = p.downtrack ∧ d.lane = lane

section reading

variable [IsStrictOrderedRing K] {mg : Margins K}

theorem closeConflict_later (hmargin : 0 < mg.downtrackMargin) {c : ConflictSpace K V}
    {prev q : PathPoint K} (hstart : c.startDowntrack ≤ prev.downtrack)
    (hfar : prev.downtrack + mg.downtrackMargin < q.downtrack) :
    (closeConflict mg c prev.downtrack prev.stamp).endDowntrack <
      (closeConflict mg c q.downtrack q.stamp).endDowntrack := by
  have hq : ¬ q.downtrack - c.startDowntrack < mg.downtrackMargin := by linarith
  simp only [closeConflict, if_neg hq]
  split
  · linarith
  · linarith

omit [IsStrictOrderedRing K] in
theorem closed_not_told {cs out : List (ConflictSpace K V)} {c : ConflictSpace K V}
    {prev p : PathPoint K} {later : List (ConflictSpace K V)}
    (hout : out = cs ++ closeConflict mg c prev.downtrack prev.stamp :: later) :
    ¬ Tells mg ⟨cs, some c, some prev⟩ p out c.lane := by
  intro ht
  obtain ⟨d, tail, hd, hend⟩ := (if_pos rfl).mp ht
  obtain ⟨rfl, -⟩ := List.cons.inj (List.append_cancel_left (hout.symm.trans hd))
  exact lt_irrefl _ hend

section next

variable {cs out : List (ConflictSpace K V)} {c : ConflictSpace K V} {prev p : PathPoint K}
  {rest : List (PathPoint K)} {st' : Tracking K V} {lane : ℤ} {collides : Bool}
  {vehicles : Finset (Option V)}

/-- The next point opens a conflict just when one starts at it. -/
theorem tells_iff_opens (hmargin : 0 < mg.downtrackMargin) {prevPoint : Option (PathPoint K)}
    (hfar : FarApart mg (p :: rest))
    (h : turn mg ⟨cs, none, prevPoint⟩ p lane collides vehicles = some st')
    (hrest : Leads mg st' rest out) (l : ℤ) :
    collides = true ∧ lane = l ↔ Tells mg ⟨cs, none, prevPoint⟩ p out l := by
  obtain rfl := turn_none h
  cases collides with
  | false =>
    obtain ⟨tail, rfl, hstarts⟩ := leads_none hrest
    refine ⟨fun hc => absurd hc.1 Bool.false_ne_true, ?_⟩
    rintro ⟨d, tail', hout, hstart, -⟩
    obtain rfl := List.append_cancel_left hout
    obtain ⟨q, hq, hd⟩ := hstarts d rfl
    have hlt := (List.pairwise_cons.mp hfar).1 q hq
    linarith
  | true =>
    obtain ⟨q, -, tail, rfl⟩ := leads_open hrest
    constructor
    · rintro ⟨-, rfl⟩
      exact ⟨_, tail, rfl, rfl, rfl⟩
    · rintro ⟨d, tail', hout, -, rfl⟩
      obtain ⟨rfl, -⟩ := List.cons.inj (List.append_cancel_left hout)
      exact ⟨rfl, rfl⟩

/-- A conflict that goes on at the next point ends later than at the point before. -/
theorem tells_iff_goes_on (hmargin : 0 < mg.downtrackMargin)
    (hstart : c.startDowntrack ≤ prev.downtrack)
    (hlater : ∀ q ∈ p :: rest, prev.downtrack + mg.downtrackMargin < q.downtrack)
    (hrest : Leads mg ⟨cs, some c, some p⟩ rest out) (l : ℤ) :
    c.lane = l ↔ Tells mg ⟨cs, some c, some prev⟩ p out l := by
  obtain ⟨q, hq, tail, rfl⟩ := leads_open hrest
  have hend := closeConflict_later hmargin hstart (hlater q hq)
  constructor
  · rintro rfl
    exact (if_pos rfl).mpr ⟨_, tail, rfl, hend⟩
  · intro ht
    by_contra hl
    obtain ⟨d, tail', hout, -⟩ := (if_neg (Ne.symm hl)).mp ht
    obtain ⟨hsame, -⟩ := List.cons.inj (List.append_cancel_left hout)
    exact hend.ne (congrArg ConflictSpace.endDowntrack hsame).symm

/-- After a conflict that is closed, the next point opens one just when one starts at
the point before. -/
theorem tells_iff_closed (hmargin : 0 < mg.downtrackMargin)
    (hlater : ∀ q ∈ p :: rest, prev.downtrack + mg.downtrackMargin < q.downtrack)
    (hnot : ¬ (collides = true ∧ lane = c.lane))
    (hrest : Leads mg ⟨cs ++ [closeConflict mg c prev.downtrack prev.stamp], if collides then
      some (newConflictSpace prev.downtrack prev.stamp lane p.segmentIdx vehicles)
      else none, some p⟩ rest out) (l : ℤ) :
    collides = true ∧ lane = l ↔ Tells mg ⟨cs, some c, some prev⟩ p out l := by
  obtain ⟨later, hlaterOut⟩ := leads_prefix hrest
  have hother : Tells mg ⟨cs, some c, some prev⟩ p out l → l ≠ c.lane := by
    rintro ht rfl
    exact closed_not_told (hlaterOut.symm.trans (List.append_assoc ..)) ht
  cases collides with
  | false =>
    obtain ⟨tail, rfl, hstarts⟩ := leads_none hrest
    refine ⟨fun hc => absurd hc.1 Bool.false_ne_true, fun ht => ?_⟩
    obtain ⟨d, tail', hout, hd, -⟩ := (if_neg (hother ht)).mp ht
    rw [List.append_assoc] at hout
    obtain ⟨-, rfl⟩ := List.cons.inj (List.append_cancel_left hout)
    obtain ⟨q, hq, hdq⟩ := hstarts d rfl
    have hlt := hlater q (List.mem_cons_of_mem _ hq)
    linarith
  | true =>
    obtain ⟨q, -, tail, rfl⟩ := leads_open hrest
    constructor
    · rintro ⟨-, rfl⟩
      have hl : lane ≠ c.lane := fun hc => hnot ⟨rfl, hc⟩
      exact (if_neg hl).mpr ⟨_, tail, List.append_assoc .., rfl, rfl⟩
    · intro ht
      obtain ⟨d, tail', hout, -, rfl⟩ := (if_neg (hother ht)).mp ht
      rw [List.append_assoc] at hout
      obtain ⟨-, hout⟩ := List.cons.inj (List.append_cancel_left hout)
      obtain ⟨rfl, -⟩ := List.cons.inj hout
      exact ⟨rfl, rfl⟩

/-- What the conflicts tell of the next point is so. -/
theorem tells_iff (hmargin : 0 < mg.downtrackMargin) {st : Tracking K V}
    (hfar : FarApart mg (p :: rest)) (hbefore : Before mg st (p :: rest))
    (h : turn mg st p lane collides vehicles = some st') (hrest : Leads mg st' rest out) (l : ℤ) :
    collides = true ∧ lane = l ↔ Tells mg st p out l := by
  obtain ⟨cs, currentConflict, prevPoint⟩ := st
  cases currentConflict with
  | none => exact tells_iff_opens hmargin hfar h hrest l
  | some c =>
    obtain ⟨prev, hprev, hstart, hfar'⟩ := hbefore c rfl
    obtain rfl : prevPoint = some prev := hprev
    obtain ⟨hlater, -⟩ := List.pairwise_cons.mp hfar'
    rcases turn_some h with ⟨rfl, rfl, rfl⟩ | ⟨hnot, prev', hprev, rfl⟩
    · rw [and_iff_right rfl]
      exact tells_iff_goes_on hmargin hstart hlater hrest l
    · obtain rfl := Option.some.inj hprev
      exact tells_iff_closed hmargin hlater hnot hrest l

end next

/-- Two turns from one state that lead to the same conflicts are alike. -/
theorem decisions_same (hmargin : 0 < mg.downtrackMargin) {st stA stB : Tracking K V}
    {p : PathPoint K} {rest : List (PathPoint K)} {out : List (ConflictSpace K V)}
    {lane lane' : ℤ} {collides collides' : Bool} {vehicles vehicles' : Finset (Option V)}
    (hfar : FarApart mg (p :: rest)) (hbefore : Before mg st (p :: rest))
    (hA : turn mg st p lane collides vehicles = some stA) (hAout : Leads mg stA rest out)
    (hB : turn mg st p lane' collides' vehicles' = some stB) (hBout : Leads mg stB rest out) :
    collides = collides' ∧ (collides = true → lane = lane') := by
  have hsame (l : ℤ) : collides = true ∧ lane = l ↔ collides' = true ∧ lane' = l :=
    (tells_iff hmargin hfar hbefore hA hAout l).trans (tells_iff hmargin hfar hbefore hB hBout l).symm
  refine ⟨?_, fun hc => ((hsame lane).mp ⟨hc, rfl⟩).2.symm⟩
  rw [Bool.eq_iff_iff]
  exact ⟨fun hc => ((hsame lane).mp ⟨hc, rfl⟩).1, fun hc => ((hsame lane').mpr ⟨hc, rfl⟩).1⟩

theorem turn_before (hmargin : 0 < mg.downtrackMargin) {st st' : Tracking K V} {p : PathPoint K}
    {rest : List (PathPoint K)} {lane : ℤ} {collides : Bool} {vehicles : Finset (Option V)}
    (hfar : FarApart mg (p :: rest)) (hbefore : Before mg st (p :: rest))
    (h : turn mg st p lane collides vehicles = some st') : Before mg st' rest := by
  obtain ⟨cs, currentConflict, prevPoint⟩ := st
  cases currentConflict with
  | none =>
    obtain rfl := turn_none h
    intro d hd
    split at hd
    · obtain rfl := Option.some.inj hd
      exact ⟨p, rfl, le_rfl, hfar⟩
    · cases hd
  | some c =>
    obtain ⟨prev, hprev, hstart, hfar'⟩ := hbefore c rfl
    obtain rfl : prevPoint = some prev := hprev
    have hlt := (List.pairwise_cons.mp hfar').1 p (List.mem_cons_self ..)
    rcases turn_some h with ⟨-, -, rfl⟩ | ⟨-, prev', hprev, rfl⟩
    · intro d hd
      obtain rfl := Option.some.inj hd
      exact ⟨p, rfl, by linarith, hfar⟩
    · obtain rfl := Option.some.inj hprev
      intro d hd
      simp only at hd
      split at hd
      · obtain rfl := Option.some.inj hd
        refine ⟨p, rfl, ?_, hfar⟩
        simp only [newConflictSpace]
        linarith
      · cases hd

end reading

end carma.conflict_manager
