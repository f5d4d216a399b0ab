-- Runs of a step function: the state after a list of calls, and the rules
-- that carry a fact from one call to every run.
import Mathlib.Data.List.Basic

namespace lib.runs

variable {σ ι : Type*}

/-- The state after a list of calls. -/
def run (step : σ → ι → σ) (s : σ) (calls : List ι) : σ := calls.foldl step s

@[simp] theorem run_nil (step : σ → ι → σ) (s : σ) : run step s [] = s := rfl

@[simp] theorem run_cons (step : σ → ι → σ) (s : σ) (c : ι) (cs : List ι) :
    run step s (c :: cs) = run step (step s c) cs := rfl

theorem run_append (step : σ → ι → σ) (s : σ) (cs ds : List ι) :
    run step s (cs ++ ds) = run step (run step s cs) ds := List.foldl_append

@[simp] theorem run_snoc (step : σ → ι → σ) (s : σ) (cs : List ι) (c : ι) :
    run step s (cs ++ [c]) = step (run step s cs) c := by
  rw [run_append, run_cons, run_nil]

/-- Each call of the list meets `ok` in the state that it finds. -/
def EachCall (step : σ → ι → σ) (ok : σ → ι → Prop) : σ → List ι → Prop
  | _, [] => True
  | s, c :: cs => ok s c ∧ EachCall step ok (step s c) cs

/-- The run rule for a fact that every call keeps. -/
theorem run_keeps_always {step : σ → ι → σ} {I : σ → Prop} (hstep : ∀ s c, I s → I (step s c))
    {s : σ} (h0 : I s) (cs : List ι) : I (run step s cs) := by
  induction cs generalizing s with
  | nil => exact h0
  | cons c cs ih => exact ih (hstep s c h0)

theorem run_iff {step : σ → ι → σ} {ok : σ → ι → Prop} {I P : σ → Prop}
    (hkeep : ∀ s c, I s → I (step s c)) (hstep : ∀ s c, I s → P s → (P (step s c) ↔ ok s c))
    (hlost : ∀ s c, I s → ¬ P s → ¬ P (step s c)) {s : σ} (h0 : I s) (hp : P s) (cs : List ι) :
    P (run step s cs) ↔ EachCall step ok s cs := by
  have hgone : ∀ t, I t → ¬ P t → ∀ ds, ¬ P (run step t ds) := by
    intro t ht hno ds
    induction ds generalizing t with
    | nil => exact hno
    | cons d ds ih => exact ih _ (hkeep t d ht) (hlost t d ht hno)
  induction cs generalizing s with
  | nil => exact iff_of_true hp trivial
  | cons c cs ih =>
    unfold EachCall
    rw [run_cons, ← hstep s c h0 hp]
    by_cases hnext : P (step s c)
    · have hrest := ih (hkeep s c h0) hnext
      exact ⟨fun h => ⟨hnext, hrest.mp h⟩, fun h => hrest.mpr h.2⟩
    · exact iff_of_false (hgone _ (hkeep s c h0) hnext cs) (fun h => hnext h.1)

theorem eachCall_snoc {step : σ → ι → σ} {ok : σ → ι → Prop} {s : σ} {cs : List ι} {c : ι}
    (h : EachCall step ok s (cs ++ [c])) : ok (run step s cs) c := by
  induction cs generalizing s with
  | nil => exact h.1
  | cons d cs ih => exact ih h.2

instance decidableEachCall (step : σ → ι → σ) (ok : σ → ι → Prop) [∀ s c, Decidable (ok s c)] :
    ∀ s cs, Decidable (EachCall step ok s cs)
  | _, [] => isTrue trivial
  | s, c :: cs => @instDecidableAnd _ _ _ (decidableEachCall step ok (step s c) cs)

theorem eachCall_and {step : σ → ι → σ} {A B : σ → ι → Prop} {s : σ} {cs : List ι}
    (ha : EachCall step A s cs) (hb : EachCall step B s cs) :
    EachCall step (fun s c => A s c ∧ B s c) s cs := by
  induction cs generalizing s with
  | nil => trivial
  | cons c cs ih => exact ⟨⟨ha.1, hb.1⟩, ih ha.2 hb.2⟩

theorem eachCall_of_keeps {step : σ → ι → σ} {ok P : σ → ι → Prop} {I : σ → Prop}
    (hstep : ∀ s c, I s → ok s c → P s c ∧ I (step s c)) {s : σ} (h0 : I s) {cs : List ι}
    (h : EachCall step ok s cs) : EachCall step P s cs := by
  induction cs generalizing s with
  | nil => trivial
  | cons c cs ih =>
    have hnow := hstep s c h0 h.1
    exact ⟨hnow.1, ih hnow.2 h.2⟩

/-- Two facts about a call that are the same in every state with `I` are the same for
each call of a run. -/
theorem eachCall_iff {step : σ → ι → σ} {A B : σ → ι → Prop} {I : σ → Prop}
    (hkeep : ∀ s c, I s → I (step s c)) (hsame : ∀ s c, I s → (A s c ↔ B s c)) {s : σ} (h0 : I s)
    (cs : List ι) : EachCall step A s cs ↔ EachCall step B s cs := by
  induction cs generalizing s with
  | nil => exact Iff.rfl
  | cons c cs ih => exact and_congr (hsame s c h0) (ih (hkeep s c h0))

/-- The states that a run goes through, the first one too. -/
def states (step : σ → ι → σ) : σ → List ι → List σ
  | s, [] => [s]
  | s, c :: cs => s :: states step (step s c) cs

theorem run_mem_states (step : σ → ι → σ) (s : σ) (cs : List ι) :
    run step s cs ∈ states step s cs := by
  induction cs generalizing s with
  | nil => simp [states]
  | cons c cs ih => exact List.mem_cons_of_mem _ (ih (step s c))

/-- Where one call keeps `P` just when it is `ok`, every state of a run has `P`
just when each call of it is `ok`. -/
theorem states_iff {step : σ → ι → σ} {ok : σ → ι → Prop} {fair : ι → Prop} {I P : σ → Prop}
    (hkeep : ∀ s c, I s → fair c → I (step s c))
    (hstep : ∀ s c, I s → fair c → P s → (P (step s c) ↔ ok s c)) {s : σ} {cs : List ι} (h0 : I s)
    (hp : P s) (hfair : ∀ c ∈ cs, fair c) :
    (∀ t ∈ states step s cs, P t) ↔ EachCall step ok s cs := by
  induction cs generalizing s with
  | nil => simp [states, EachCall, hp]
  | cons c cs ih =>
    have hc := hfair c (by simp)
    have hcs : ∀ d ∈ cs, fair d := fun d hd => hfair d (by simp [hd])
    unfold states EachCall
    rw [List.forall_mem_cons]
    constructor
    · rintro ⟨_, h⟩
      have hnext : P (step s c) := h _ (by cases cs <;> simp [states])
      exact ⟨(hstep s c h0 hc hp).mp hnext, (ih (hkeep s c h0 hc) hnext hcs).mp h⟩
    · rintro ⟨hok, h⟩
      exact ⟨hp, (ih (hkeep s c h0 hc) ((hstep s c h0 hc hp).mpr hok) hcs).mpr h⟩

/-- The run rule for a fact that a call keeps where it is `ok`. -/
theorem states_of_keeps {step : σ → ι → σ} {ok : σ → ι → Prop} {I : σ → Prop}
    (hstep : ∀ s c, I s → ok s c → I (step s c)) {s : σ} (h0 : I s) {cs : List ι}
    (h : EachCall step ok s cs) : ∀ t ∈ states step s cs, I t := by
  induction cs generalizing s with
  | nil => simpa [states] using h0
  | cons c cs ih =>
    unfold states
    rw [List.forall_mem_cons]
    exact ⟨h0, ih (hstep s c h0 h.1) h.2⟩

/-! ## Runs that leave a log -/

variable {ε : Type*}

/-- The state after a list of calls, where a call also gives its events. -/
def stateAfter (step : σ → ι → σ × List ε) (s : σ) (calls : List ι) : σ :=
  run (fun s c => (step s c).1) s calls

/-- The events of a list of calls, oldest first. -/
def logged (step : σ → ι → σ × List ε) : σ → List ι → List ε
  | _, [] => []
  | s, c :: cs => (step s c).2 ++ logged step (step s c).1 cs

@[simp] theorem stateAfter_nil (step : σ → ι → σ × List ε) (s : σ) : stateAfter step s [] = s := rfl

@[simp] theorem stateAfter_snoc (step : σ → ι → σ × List ε) (s : σ) (cs : List ι) (c : ι) :
    stateAfter step s (cs ++ [c]) = (step (stateAfter step s cs) c).1 := run_snoc _ _ _ _

@[simp] theorem logged_snoc (step : σ → ι → σ × List ε) (s : σ) (cs : List ι) (c : ι) :
    logged step s (cs ++ [c]) = logged step s cs ++ (step (stateAfter step s cs) c).2 := by
  induction cs generalizing s with
  | nil => simp [logged]
  | cons d cs ih =>
    rw [List.cons_append]
    simp only [logged, ih, List.append_assoc]
    rfl

theorem stateAfter_append (step : σ → ι → σ × List ε) (s : σ) (cs ds : List ι) :
    stateAfter step s (cs ++ ds) = stateAfter step (stateAfter step s cs) ds := run_append _ _ _ _

theorem logged_append (step : σ → ι → σ × List ε) (s : σ) (cs ds : List ι) :
    logged step s (cs ++ ds) = logged step s cs ++ logged step (stateAfter step s cs) ds := by
  induction cs generalizing s with
  | nil => rfl
  | cons c cs ih =>
    rw [List.cons_append]
    simp only [logged, ih, List.append_assoc]
    rfl

/-- An event of a run is one of some call of it, with what was logged before. -/
theorem logged_split {step : σ → ι → σ × List ε} {s : σ} {cs : List ι} {l r : List ε} {e : ε}
    (h : logged step s cs = l ++ e :: r) : ∃ before c after l' r', cs = before ++ c :: after ∧
      l = logged step s before ++ l' ∧ (step (stateAfter step s before) c).2 = l' ++ e :: r' := by
  induction cs generalizing s l with
  | nil => simp [logged] at h
  | cons c cs ih =>
    simp only [logged] at h
    rcases List.append_eq_append_iff.mp h with ⟨l', hl, hrest⟩ | ⟨r', hnow, hr⟩
    · obtain ⟨before, d, after, a, b, rfl, rfl, hstep⟩ := ih hrest
      exact ⟨c :: before, d, after, a, b, rfl, by simp [logged, hl], hstep⟩
    · cases r' with
      | nil =>
        obtain ⟨before, d, after, a, b, rfl, ha, hstep⟩ := ih (l := []) (by simpa using hr.symm)
        refine ⟨c :: before, d, after, a, b, rfl, ?_, hstep⟩
        simp only [List.append_nil] at hnow
        simp [logged, ← hnow, ← ha]
      | cons f r' =>
        obtain ⟨rfl, -⟩ := List.cons.inj hr
        exact ⟨[], c, cs, l, r', rfl, by simp [logged], hnow⟩

/-- The run rule for a fact about the state and what was logged up to it, which every call that
is `ok` keeps. -/
theorem history_keeps {step : σ → ι → σ × List ε} {ok : σ → ι → Prop} {I : σ → List ε → Prop}
    (hkeep : ∀ s l c, I s l → ok s c → I (step s c).1 (l ++ (step s c).2)) {s : σ} {l : List ε}
    (h0 : I s l) {cs : List ι} (hok : EachCall (fun s c => (step s c).1) ok s cs) :
    I (stateAfter step s cs) (l ++ logged step s cs) := by
  induction cs generalizing s l with
  | nil => simpa [logged] using h0
  | cons c cs ih =>
    have hnext := ih (hkeep s l c h0 hok.1) hok.2
    rw [List.append_assoc] at hnext
    exact hnext

theorem forall_logged_iff {step : σ → ι → σ × List ε} {ok : ε → Prop} {s : σ} {cs : List ι} :
    (∀ e ∈ logged step s cs, ok e) ↔
      EachCall (fun s c => (step s c).1) (fun s c => ∀ e ∈ (step s c).2, ok e) s cs := by
  induction cs generalizing s with
  | nil => simp [logged, EachCall]
  | cons c cs ih =>
    unfold logged EachCall
    rw [List.forall_mem_append, ih]

/-- The rule for logs: where every call keeps `I` and has only events that are
`ok`, so has every run. -/
theorem logged_keeps {step : σ → ι → σ × List ε} {I : σ → Prop} {ok : ε → Prop}
    (hkeep : ∀ s c, I s → I (step s c).1) (hok : ∀ s c, I s → ∀ e ∈ (step s c).2, ok e) {s : σ}
    (h0 : I s) (cs : List ι) : ∀ e ∈ logged step s cs, ok e := by
  induction cs generalizing s with
  | nil =>
    intro e he
    cases he
  | cons c cs ih =>
    intro e he
    rcases List.mem_append.mp he with he | he
    · exact hok s c h0 e he
    · exact ih (hkeep s c h0) e he

/-- Where some calls do to a part of the state what they do to a state that is that part alone,
and the others do nothing to it, the events of the part are those of its own calls. -/
theorem logged_part {step : σ → ι → σ × List ε} {part : σ → σ} {own : ι → Bool} {pick : ε → Bool}
    (hown : ∀ s c, own c = true → part (step s c).1 = (step (part s) c).1 ∧
      (step s c).2.filter pick = (step (part s) c).2)
    (hother : ∀ s c, own c = false → part (step s c).1 = part s ∧ (step s c).2.filter pick = [])
    (s : σ) (cs : List ι) :
    (logged step s cs).filter pick = logged step (part s) (cs.filter own) := by
  induction cs generalizing s with
  | nil => rfl
  | cons c cs ih =>
    change ((step s c).2 ++ logged step (step s c).1 cs).filter pick = _
    rw [List.filter_append, ih]
    cases hc : own c with
    | true =>
      obtain ⟨hstate, hlog⟩ := hown s c hc
      rw [List.filter_cons_of_pos hc, hlog, hstate]
      rfl
    | false =>
      obtain ⟨hstate, hlog⟩ := hother s c hc
      rw [List.filter_cons_of_neg (by simp [hc]), hlog, hstate, List.nil_append]

/-! ## Two runs side by side -/

variable {τ κ δ : Type*}

/-- Where calls keep two states related and give the same events, the two runs give the same. -/
theorem logged_eq_of_simulates {step : σ → ι → σ × List ε} {step' : τ → ι → τ × List ε}
    {R : σ → τ → Prop}
    (hstep : ∀ s t c, R s t → R (step s c).1 (step' t c).1 ∧ (step s c).2 = (step' t c).2) {s : σ}
    {t : τ} (h0 : R s t) (cs : List ι) : logged step s cs = logged step' t cs := by
  induction cs generalizing s t with
  | nil => rfl
  | cons c cs ih =>
    obtain ⟨hnext, hsame⟩ := hstep s t c h0
    unfold logged
    rw [hsame, ih hnext]

/-- Where calls that are `ok` keep two states related, so do runs of such calls. -/
theorem run_simulates {step : σ → ι → σ} {f : τ → ι → τ} {R : σ → τ → Prop} {ok : τ → ι → Prop}
    (hkeep : ∀ s t c, R s t → ok t c → R (step s c) (f t c)) {s : σ} {t : τ} (h0 : R s t)
    {cs : List ι} (hok : EachCall f ok t cs) : R (run step s cs) (run f t cs) := by
  induction cs generalizing s t with
  | nil => exact h0
  | cons c cs ih => exact ih (hkeep s t c h0 hok.1) hok.2

/-- Where a call and its image give matching events just when the call is `ok`, a run and its
image do just when each call of it is. -/
theorem logged_map_iff {step : σ → ι → σ × List ε} {step' : τ → κ → τ × List δ} {f : ι → κ}
    {g : ε → δ} {R : σ → τ → Prop} {ok : σ → ι → Prop}
    (hkeep : ∀ s t c, R s t → R (step s c).1 (step' t (f c)).1)
    (hlength : ∀ s t c, R s t → (step' t (f c)).2.length = (step s c).2.length)
    (hsame : ∀ s t c, R s t → ((step' t (f c)).2 = (step s c).2.map g ↔ ok s c)) {s : σ} {t : τ}
    (h0 : R s t) (cs : List ι) :
    logged step' t (cs.map f) = (logged step s cs).map g ↔
      EachCall (fun s c => (step s c).1) ok s cs := by
  induction cs generalizing s t with
  | nil => exact iff_of_true rfl trivial
  | cons c cs ih =>
    unfold EachCall
    rw [← hsame s t c h0, ← ih (hkeep s t c h0), List.map_cons]
    simp only [logged, List.map_append]
    constructor
    · intro h
      refine List.append_inj h ?_
      rw [hlength s t c h0, List.length_map]
    · rintro ⟨hnow, hrest⟩
      rw [hnow, hrest]

end lib.runs
