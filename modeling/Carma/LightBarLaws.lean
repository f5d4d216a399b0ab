-- The laws of the light bar: every controller has a handler, control goes only
-- by release or to a component of higher priority, and a take-over is told to
-- the component that loses, once.
import Carma.Lib.Runs
import Carma.LightBarManager

open lib

namespace carma.light_bar

variable {H : Type}

/-! ## Priorities -/

/-- The place of a component in the list, with ⊤ for one that is not in it. A
lower rank is a higher priority. -/
def LightBarManager.rank (m : LightBarManager H) (component : String) : WithTop ℕ :=
  match m.controlPriorities.idxOf? component with
  | none => ⊤
  | some i => WithTop.some i

theorem hasHigherPriority_iff (m : LightBarManager H) (requester controller : String) :
    m.hasHigherPriority requester controller = true ↔ m.rank requester < m.rank controller := by
  unfold LightBarManager.hasHigherPriority LightBarManager.rank
  cases m.controlPriorities.idxOf? requester with
  | none => simp
  | some r => cases m.controlPriorities.idxOf? controller <;> simp

/-! ## One request -/

/-- Each controller has a handler. -/
def Consistent (m : LightBarManager H) : Prop :=
  ∀ i c, m.lightControlMap i = some c → m.handlerMap c ≠ none

/-- A request of the component gets the indicator: nobody controls it, or itself,
or one of lower priority. -/
def Gets (m : LightBarManager H) (component : String) (i : LightBarIndicator) : Prop :=
  ∀ p, m.lightControlMap i = some p → p ≠ component → m.hasHigherPriority component p = true

/-- The event says that the indicator is lost. -/
def Event.loses (i : LightBarIndicator) : Event H → Bool
  | .controlLost _ _ j => decide (j = i)
  | .setLights _ => false

/-- The losses of an indicator among the events of a call. -/
def losses (i : LightBarIndicator) (events : List (Event H)) : List (Event H) :=
  events.filter (·.loses i)

theorem addController_consistent {m : LightBarManager H} (h : Consistent m) (i : LightBarIndicator)
    (component : String) (handler : H) : Consistent (m.addController i component handler) := by
  intro j c hj
  simp only [LightBarManager.addController, Function.update_apply] at hj ⊢
  split
  · simp
  · rename_i hne
    split at hj
    · exact absurd (Option.some.inj hj).symm hne
    · exact h j c hj

@[simp] theorem addController_at (m : LightBarManager H) (i j : LightBarIndicator)
    (component : String) (handler : H) :
    (m.addController i component handler).lightControlMap j =
      if j = i then some component else m.lightControlMap j := Function.update_apply ..

@[simp] theorem addController_priority (m : LightBarManager H) (i : LightBarIndicator)
    (component : String) (handler : H) :
    (m.addController i component handler).hasHigherPriority = m.hasHigherPriority := rfl

theorem addController_handler (m : LightBarManager H) (i : LightBarIndicator)
    {component p : String} (handler : H) (hne : p ≠ component) :
    (m.addController i component handler).handlerMap p = m.handlerMap p :=
  Function.update_of_ne hne ..

/-- What a request does to one indicator: it goes to the component if the
component asked for it and gets it, and then a controller that loses it is told
so. -/
structure Served (m : LightBarManager H) (indicators : List (Option LightBarIndicator))
    (component : String) (m' : LightBarManager H) (events : List (Event H)) : Prop where
  taken : ∀ i, some i ∈ indicators → Gets m component i → m'.lightControlMap i = some component
  kept : ∀ i, ¬ (some i ∈ indicators ∧ Gets m component i) →
    m'.lightControlMap i = m.lightControlMap i
  told : ∀ i p, some i ∈ indicators → Gets m component i → m.lightControlMap i = some p →
    p ≠ component → ∃ previous, m.handlerMap p = some previous ∧
      losses i events = [.controlLost p previous i]
  silent : ∀ i, (¬ (some i ∈ indicators ∧ Gets m component i) ∨
    ∀ p, m.lightControlMap i = some p → p = component) → losses i events = []

theorem gets_own {m : LightBarManager H} {component : String} {i : LightBarIndicator}
    (h : m.lightControlMap i = some component) : Gets m component i := by
  intro p hp hne
  rw [h, Option.some.injEq] at hp
  exact absurd hp.symm hne

theorem gets_addController {m : LightBarManager H} {component : String} {i : LightBarIndicator}
    (hget : Gets m component i) (handler : H) (j : LightBarIndicator) :
    Gets (m.addController i component handler) component j ↔ Gets m component j := by
  by_cases hji : j = i
  · subst hji
    refine iff_of_true (gets_own ?_) hget
    simp
  · unfold Gets
    simp [hji]

/-- An indicator that is denied, or that the component has, changes nothing. -/
theorem served_skip {m m' : LightBarManager H} {component : String} {events : List (Event H)}
    {x : Option LightBarIndicator} {indicators : List (Option LightBarIndicator)}
    (hskip : ∀ i, x = some i → ¬ Gets m component i ∨ m.lightControlMap i = some component)
    (h : Served m indicators component m' events) :
    Served m (x :: indicators) component m' events := by
  -- asked for in the head only means that the head was skipped
  have hhead : ∀ i, some i ∈ x :: indicators → some i ∈ indicators ∨
      (¬ Gets m component i ∨ m.lightControlMap i = some component) := by
    intro i hi
    rcases List.mem_cons.mp hi with hi | hi
    · exact Or.inr (hskip i hi.symm)
    · exact Or.inl hi
  refine ⟨?_, ?_, ?_, ?_⟩
  · intro i hi hget
    by_cases htail : some i ∈ indicators
    · exact h.taken i htail hget
    · rcases (hhead i hi).resolve_left htail with hno | hown
      · exact absurd hget hno
      · rw [h.kept i (fun hc => htail hc.1), hown]
  · intro i hno
    exact h.kept i (fun hc => hno ⟨List.mem_cons_of_mem _ hc.1, hc.2⟩)
  · intro i p hi hget hp hne
    rcases hhead i hi with htail | hno | hown
    · exact h.told i p htail hget hp hne
    · exact absurd hget hno
    · rw [hown, Option.some.injEq] at hp
      exact absurd hp.symm hne
  · intro i hquiet
    rcases hquiet with hno | hown
    · exact h.silent i (Or.inl (fun hc => hno ⟨List.mem_cons_of_mem _ hc.1, hc.2⟩))
    · exact h.silent i (Or.inr hown)

/-- The component gets the head of its list, and the rest is served after that. -/
theorem served_take (told : List (Event H)) {m m' : LightBarManager H} {component : String}
    {handler : H} {events : List (Event H)} {i : LightBarIndicator}
    {indicators : List (Option LightBarIndicator)} (hget : Gets m component i)
    (htold : ∀ p, m.lightControlMap i = some p → p ≠ component → ∃ previous,
      m.handlerMap p = some previous ∧ told = [.controlLost p previous i])
    (hquiet : (∀ p, m.lightControlMap i = some p → p = component) → told = [])
    (hother : ∀ j, j ≠ i → losses j told = [])
    (h : Served (m.addController i component handler) indicators component m' events) :
    Served m (some i :: indicators) component m' (told ++ events) := by
  have hsame := gets_addController hget handler
  have hown : (m.addController i component handler).lightControlMap i = some component := by simp
  have hrest : losses i events = [] := by
    refine h.silent i (Or.inr (fun p hp => ?_))
    rw [hown, Option.some.injEq] at hp
    exact hp.symm
  have hafter : m'.lightControlMap i = some component := by
    by_cases hi : some i ∈ indicators
    · exact h.taken i hi ((hsame i).mpr hget)
    · rw [h.kept i (fun hc => hi hc.1), hown]
  have hsplit : ∀ j, losses j (told ++ events) = losses j told ++ losses j events := fun j =>
    List.filter_append ..
  refine ⟨?_, ?_, ?_, ?_⟩
  · intro j hj hjget
    by_cases hji : j = i
    · rw [hji, hafter]
    · have htail : some j ∈ indicators := by simpa [hji] using hj
      exact h.taken j htail ((hsame j).mpr hjget)
  · intro j hno
    have hji : j ≠ i := by
      rintro rfl
      exact hno ⟨List.mem_cons_self .., hget⟩
    rw [h.kept j (fun hc => hno ⟨List.mem_cons_of_mem _ hc.1, (hsame j).mp hc.2⟩)]
    simp [hji]
  · intro j p hj hjget hp hne
    by_cases hji : j = i
    · subst hji
      obtain ⟨previous, hprev, rfl⟩ := htold p hp hne
      refine ⟨previous, hprev, ?_⟩
      rw [hsplit, hrest]
      simp [losses, Event.loses]
    · have htail : some j ∈ indicators := by simpa [hji] using hj
      obtain ⟨previous, hprev, hloss⟩ := h.told j p htail ((hsame j).mpr hjget) (by simp [hji, hp]) hne
      rw [addController_handler m i handler hne] at hprev
      refine ⟨previous, hprev, ?_⟩
      rw [hsplit, hother j hji, hloss, List.nil_append]
  · intro j hj
    rw [hsplit]
    by_cases hji : j = i
    · subst hji
      rcases hj with hno | hown'
      · exact absurd ⟨List.mem_cons_self .., hget⟩ hno
      · rw [hquiet hown', hrest]
        rfl
    · rw [hother j hji, List.nil_append]
      refine h.silent j ?_
      rcases hj with hno | hown'
      · exact Or.inl (fun hc => hno ⟨List.mem_cons_of_mem _ hc.1, (hsame j).mp hc.2⟩)
      · refine Or.inr (fun p hp => hown' p ?_)
        simpa [hji] using hp

/-- Nobody is told when the indicator was free. -/
theorem served_free {m m' : LightBarManager H} {component : String} {handler : H}
    {events : List (Event H)} {i : LightBarIndicator} {indicators : List (Option LightBarIndicator)}
    (hfree : m.lightControlMap i = none)
    (h : Served (m.addController i component handler) indicators component m' events) :
    Served m (some i :: indicators) component m' events := by
  apply served_take [] _ _ (fun _ => rfl) (fun _ _ => rfl) h
  · intro p hp
    rw [hfree] at hp
    cases hp
  · intro p hp
    rw [hfree] at hp
    cases hp

/-- The component before is told when it has a lower priority. -/
theorem served_override {m m' : LightBarManager H} {component controlling : String}
    {handler previous : H} {events : List (Event H)} {i : LightBarIndicator}
    {indicators : List (Option LightBarIndicator)}
    (hc : m.lightControlMap i = some controlling) (hne : controlling ≠ component)
    (hhigher : m.hasHigherPriority component controlling = true)
    (hprev : m.handlerMap controlling = some previous)
    (h : Served (m.addController i component handler) indicators component m' events) :
    Served m (some i :: indicators) component m' (.controlLost controlling previous i :: events) := by
  apply served_take [.controlLost controlling previous i] _ _ _ _ h
  · intro p hp _
    rw [hc, Option.some.injEq] at hp
    rwa [← hp]
  · intro p hp _
    rw [hc, Option.some.injEq] at hp
    subst hp
    exact ⟨previous, hprev, rfl⟩
  · intro hown
    exact absurd (hown controlling hc) hne
  · intro j hji
    simp [losses, Event.loses, Ne.symm hji]

theorem requestEach_served {m : LightBarManager H} (h : Consistent m) (component : String)
    (handler : H) (denied : List LightBarIndicator) (indicators : List (Option LightBarIndicator)) :
    let r := LightBarManager.requestEach component handler denied m indicators
    r.1 ≠ none ∧ Consistent r.2.1 ∧ Served m indicators component r.2.1 r.2.2 := by
  induction indicators generalizing denied m with
  | nil =>
    refine ⟨by simp [LightBarManager.requestEach], h, ?_⟩
    exact ⟨fun i hi => (by cases hi), fun i _ => rfl, fun i p hi => (by cases hi), fun i _ => rfl⟩
  | cons x indicators ih =>
    cases x with
    | none =>
      obtain ⟨hans, hcons, hserved⟩ := ih h denied
      exact ⟨hans, hcons, served_skip (fun i hi => by cases hi) hserved⟩
    | some i =>
      have hadd := addController_consistent h i component handler
      unfold LightBarManager.requestEach
      cases hc : m.lightControlMap i with
      | none =>
        obtain ⟨hans, hcons, hserved⟩ := ih hadd denied
        exact ⟨hans, hcons, served_free hc hserved⟩
      | some controlling =>
        by_cases hne : controlling = component
        · obtain ⟨hans, hcons, hserved⟩ := ih h denied
          simp only [hne, ne_eq, not_true_eq_false, if_false]
          refine ⟨hans, hcons, served_skip ?_ hserved⟩
          rintro j ⟨⟩
          exact Or.inr (by rw [hc, hne])
        · by_cases hhigher : m.hasHigherPriority component controlling = true
          · obtain ⟨previous, hprev⟩ := Option.ne_none_iff_exists'.mp (h i controlling hc)
            obtain ⟨hans, hcons, hserved⟩ := ih hadd denied
            simp only [ne_eq, hne, not_false_eq_true, if_true, hhigher,
              addController_handler m i handler hne, hprev]
            exact ⟨hans, hcons, served_override hc hne hhigher hprev hserved⟩
          · obtain ⟨hans, hcons, hserved⟩ := ih h (denied ++ [i])
            simp only [ne_eq, hne, not_false_eq_true, if_true, hhigher]
            refine ⟨hans, hcons, served_skip ?_ hserved⟩
            rintro j ⟨⟩
            exact Or.inl (fun hget => hhigher (hget controlling hc hne))

/-! ## One release -/

theorem controls_iff (m : LightBarManager H) (component : String) :
    m.controls component = true ↔ ∃ i, m.lightControlMap i = some component := by
  unfold LightBarManager.controls
  rw [Bool.or_eq_true, decide_eq_true_iff, decide_eq_true_iff]
  constructor
  · rintro (h | h)
    · exact ⟨_, h⟩
    · exact ⟨_, h⟩
  · rintro ⟨i, h⟩
    cases i with
    | GREEN => exact Or.inl h
    | YELLOW => exact Or.inr h

theorem removeController_at (m : LightBarManager H) (i j : LightBarIndicator) (component : String) :
    (m.removeController i component).lightControlMap j =
      if j = i then none else m.lightControlMap j := by
  unfold LightBarManager.removeController
  simp only
  split
  · exact Function.update_apply ..
  · exact Function.update_apply ..

theorem removeController_consistent {m : LightBarManager H} (h : Consistent m)
    (i : LightBarIndicator) (component : String) : Consistent (m.removeController i component) := by
  intro j c hj
  have hold : m.lightControlMap j = some c := by
    rw [removeController_at] at hj
    split at hj
    · cases hj
    · exact hj
  unfold LightBarManager.removeController at hj ⊢
  simp only at hj ⊢
  split
  · exact h j c hold
  · rename_i hlast
    rw [if_neg hlast] at hj
    have hne : c ≠ component := by
      rintro rfl
      exact hlast ((controls_iff _ _).mpr ⟨j, hj⟩)
    simp only [ne_eq, hne, not_false_eq_true, Function.update_of_ne]
    exact h j c hold

/-- A release keeps the manager consistent, and frees what the component names
and controls. -/
theorem releaseControl_frees {m : LightBarManager H} (h : Consistent m) (component : String)
    (indicators : List (Option LightBarIndicator)) :
    Consistent (m.releaseControl component indicators) ∧ ∀ i,
      (m.releaseControl component indicators).lightControlMap i =
        if some i ∈ indicators ∧ m.lightControlMap i = some component then none
        else m.lightControlMap i := by
  induction indicators generalizing m with
  | nil => exact ⟨h, fun i => by simp [LightBarManager.releaseControl]⟩
  | cons x indicators ih =>
    cases x with
    | none =>
      unfold LightBarManager.releaseControl
      simpa using ih h
    | some j =>
      unfold LightBarManager.releaseControl
      split
      · rename_i hown
        obtain ⟨hcons, hfree⟩ := ih (removeController_consistent h j component)
        refine ⟨hcons, fun i => ?_⟩
        rw [hfree, removeController_at]
        by_cases hij : i = j
        · simp [hij, hown]
        · simp [hij]
      · rename_i hother
        obtain ⟨hcons, hfree⟩ := ih h
        refine ⟨hcons, fun i => ?_⟩
        rw [hfree]
        by_cases hij : i = j
        · simp [hij, hother]
        · simp [hij]

/-! ## The laws -/

/-- The call is a release of the indicator by the component. -/
def ReleasedBy (k : Call H) (i : LightBarIndicator) (component : String) : Prop :=
  ∃ indicators, k = .releaseControl indicators component ∧ some i ∈ indicators

/-- The call is a request for the indicator by the component. -/
def RequestedBy (k : Call H) (i : LightBarIndicator) (component : String) : Prop :=
  ∃ indicators handler, k = .requestControl indicators component handler ∧ some i ∈ indicators

/-- The call passes control on in order. -/
structure Orderly (m : LightBarManager H) (k : Call H) : Prop where
  passes : ∀ i c, m.lightControlMap i = some c → (call m k).1.lightControlMap i ≠ some c →
    (ReleasedBy k i c ∧ (call m k).1.lightControlMap i = none) ∨
      ∃ c', RequestedBy k i c' ∧ m.rank c' < m.rank c ∧
        (call m k).1.lightControlMap i = some c'
  told_once : ∀ i c c', m.lightControlMap i = some c → (call m k).1.lightControlMap i = some c' →
    c' ≠ c → ∃ handler, m.handlerMap c = some handler ∧
      losses i (call m k).2 = [.controlLost c handler i]
  silent : ∀ i, (∀ c c', m.lightControlMap i = some c →
    (call m k).1.lightControlMap i = some c' → c' = c) → losses i (call m k).2 = []
  answered : ∀ indicators c handler, k = .requestControl indicators c handler →
    (m.requestControl indicators c handler).1 ≠ none

theorem orderly_of_same {m : LightBarManager H} {k : Call H}
    (hsame : (call m k).1.lightControlMap = m.lightControlMap)
    (hquiet : ∀ i, losses i (call m k).2 = [])
    (hno : ∀ indicators c handler, k ≠ .requestControl indicators c handler) : Orderly m k := by
  refine ⟨?_, ?_, fun i _ => hquiet i, fun is c handler hk => absurd hk (hno is c handler)⟩
  · intro i c hc hchange
    rw [hsame] at hchange
    exact absurd hc hchange
  · intro i c c' hc hc' hne
    rw [hsame, hc, Option.some.injEq] at hc'
    exact absurd hc'.symm hne

theorem setIndicator_same (m : LightBarManager H) (i : LightBarIndicator) (status : IndicatorStatus)
    (component : String) :
    (m.setIndicator i status component).2.1.lightControlMap = m.lightControlMap ∧
      (m.setIndicator i status component).2.1.handlerMap = m.handlerMap ∧
      ∀ j, losses j (m.setIndicator i status component).2.2 = [] := by
  unfold LightBarManager.setIndicator
  split
  · exact ⟨rfl, rfl, fun _ => rfl⟩
  · split
    · exact ⟨rfl, rfl, fun _ => rfl⟩
    · simp only
      split
      · exact ⟨rfl, rfl, fun _ => rfl⟩
      · exact ⟨rfl, rfl, fun _ => rfl⟩

theorem request_orderly {m : LightBarManager H} (h : Consistent m)
    (indicators : List (Option LightBarIndicator)) (component : String) (handler : H) :
    Orderly m (.requestControl indicators component handler) := by
  obtain ⟨hans, _, hserved⟩ := requestEach_served h component handler [] indicators
  -- control of an indicator changes only where the component asked for it and gets it
  have hchange : ∀ i c, m.lightControlMap i = some c →
      (call m (.requestControl indicators component handler)).1.lightControlMap i ≠ some c →
      (some i ∈ indicators ∧ Gets m component i) ∧ c ≠ component := by
    intro i c hc hne
    have hgot : some i ∈ indicators ∧ Gets m component i := by
      by_contra hno
      exact hne ((hserved.kept i hno).trans hc)
    refine ⟨hgot, ?_⟩
    rintro rfl
    exact hne (hserved.taken i hgot.1 hgot.2)
  refine ⟨?_, ?_, ?_, ?_⟩
  · intro i c hc hne
    obtain ⟨⟨hi, hget⟩, hother⟩ := hchange i c hc hne
    exact Or.inr ⟨component, ⟨indicators, handler, rfl, hi⟩,
      (hasHigherPriority_iff m component c).mp (hget c hc hother), hserved.taken i hi hget⟩
  · intro i c c' hc hc' hne
    have hlost : (call m (.requestControl indicators component handler)).1.lightControlMap i ≠
        some c := by
      rw [hc', ne_eq, Option.some.injEq]
      exact hne
    obtain ⟨⟨hi, hget⟩, hother⟩ := hchange i c hc hlost
    exact hserved.told i c hi hget hc hother
  · intro i hsame
    refine hserved.silent i ?_
    by_cases hgot : some i ∈ indicators ∧ Gets m component i
    · refine Or.inr (fun p hp => ?_)
      exact (hsame p component hp (hserved.taken i hgot.1 hgot.2)).symm
    · exact Or.inl hgot
  · rintro is c h' ⟨⟩
    exact hans

theorem release_orderly {m : LightBarManager H} (h : Consistent m)
    (indicators : List (Option LightBarIndicator)) (component : String) :
    Orderly m (.releaseControl indicators component) := by
  obtain ⟨_, hfree⟩ := releaseControl_frees h component indicators
  have hafter : ∀ i c, (call m (.releaseControl indicators component)).1.lightControlMap i =
      some c → m.lightControlMap i = some c := by
    intro i c hc
    have hi := hfree i
    split at hi
    · exact absurd (hi.symm.trans hc) (by simp)
    · exact hi.symm.trans hc
  refine ⟨?_, ?_, fun i _ => rfl, fun is c handler hk => by cases hk⟩
  · intro i c hc hne
    have hi := hfree i
    split at hi
    · rename_i hown
      rw [hc, Option.some.injEq] at hown
      exact Or.inl ⟨⟨indicators, by rw [hown.2], hown.1⟩, hi⟩
    · exact absurd (hi.trans hc) hne
  · intro i c c' hc hc' hne
    have hold := hafter i c' hc'
    rw [hc, Option.some.injEq] at hold
    exact absurd hold.symm hne

theorem call_consistent {m : LightBarManager H} (h : Consistent m) (k : Call H) :
    Consistent (call m k).1 := by
  cases k with
  | requestControl indicators component handler =>
    exact (requestEach_served h component handler [] indicators).2.1
  | releaseControl indicators component => exact (releaseControl_frees h component indicators).1
  | setIndicator i status component =>
    obtain ⟨hmap, hhandlers, _⟩ := setIndicator_same m i status component
    intro j c hj
    unfold call at hj ⊢
    simp only at hj ⊢
    rw [hmap] at hj
    rw [hhandlers]
    exact h j c hj
  | initLightBarService found => exact h

theorem call_orderly {m : LightBarManager H} (h : Consistent m) (k : Call H) : Orderly m k := by
  cases k with
  | requestControl indicators component handler => exact request_orderly h indicators component handler
  | releaseControl indicators component => exact release_orderly h indicators component
  | setIndicator i status component =>
    obtain ⟨hmap, _, hquiet⟩ := setIndicator_same m i status component
    exact orderly_of_same hmap hquiet (fun _ _ _ hk => by cases hk)
  | initLightBarService found =>
    exact orderly_of_same rfl (fun _ => rfl) (fun _ _ _ hk => by cases hk)

/-- After any calls each controller has a handler, and any next call passes control
on by a release or to a higher priority, and tells who loses it once. -/
theorem control_of_the_light_bar_passes_in_order (controlPriorities : List String)
    (calls : List (Call H)) :
    Consistent (runs.stateAfter call (newLightBarManager controlPriorities) calls) ∧
      ∀ k, Orderly (runs.stateAfter call (newLightBarManager controlPriorities) calls) k := by
  have hcons : Consistent (runs.stateAfter call (newLightBarManager (H := H) controlPriorities)
      calls) :=
    runs.run_keeps_always (I := Consistent) (fun m k h => call_consistent h k)
      (fun i c hc => by cases hc) calls
  exact ⟨hcons, fun k => call_orderly hcons k⟩

/-- A component of higher priority takes the green light, and the one that had it
is told. -/
example : (call (call (newLightBarManager ["a", "b"])
    (.requestControl [some .GREEN] "b" 7)).1 (.requestControl [some .GREEN] "a" 8)).2 =
      [Event.controlLost "b" 7 .GREEN] := by decide

end carma.light_bar
