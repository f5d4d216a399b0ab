-- A service that one side asks another for, over two links that keep the order: the
-- asker's requests one way, the answers the other way. The asker may withdraw before it
-- has an answer, may drop the service with a request, or may give it up without a word.
-- An answer that nobody waits for is met with a drop.
import Mathlib.Data.List.Basic

namespace lib.handshakes

/-- Where the asker stands. -/
inductive Standing
  | idle
  | waiting
  | active
  | gaveUp
deriving DecidableEq, Repr

/-- The asker still counts on the service. -/
def Standing.asks : Standing → Bool
  | .waiting | .active => true
  | .idle | .gaveUp => false

inductive Request
  | ask
  | drop
deriving DecidableEq, Repr

/-- The asker, the two links with the oldest first, and the server: whether it has the
service at all, and whether it serves the asker. -/
structure Handshake where
  asker : Standing
  requests : List Request
  able : Bool
  served : Bool
  answers : List Bool
deriving DecidableEq, Repr

namespace Handshake

/-- Before anything is asked. -/
def start : Handshake := ⟨.idle, [], false, false, []⟩

/-- What may happen next. -/
inductive Step (h : Handshake) : Handshake → Prop
  | asks : Step h { h with asker := .waiting, requests := h.requests ++ [.ask] }
  | withdraws (hasker : h.asker = .waiting) : Step h { h with asker := .idle }
  | drops (hasker : h.asker = .active) :
      Step h { h with asker := .idle, requests := h.requests ++ [.drop] }
  | givesUp (hasker : h.asker = .active) : Step h { h with asker := .gaveUp }
  | becomesAble : Step h { h with able := true }
  | answers {rs : List Request} (hrequests : h.requests = .ask :: rs) :
      Step h { h with requests := rs, served := h.able, answers := h.answers ++ [h.able] }
  | ends {rs : List Request} (hrequests : h.requests = .drop :: rs) :
      Step h { h with requests := rs, served := false }
  | granted {bs : List Bool} (hanswers : h.answers = true :: bs) (hasker : h.asker.asks = true) :
      Step h { h with asker := .active, answers := bs }
  | declines {bs : List Bool} (hanswers : h.answers = true :: bs) (hasker : h.asker.asks = false) :
      Step h { h with asker := .idle, requests := h.requests ++ [.drop], answers := bs }
  | refused {bs : List Bool} (hanswers : h.answers = false :: bs) (hasker : h.asker.asks = true) :
      Step h { h with asker := .idle, answers := bs }
  | ignores {bs : List Bool} (hanswers : h.answers = false :: bs) (hasker : h.asker.asks = false) :
      Step h { h with answers := bs }

/-- The last request under way is an ask, or none is under way and `done` holds. -/
def AskedOr (requests : List Request) (done : Prop) : Prop :=
  requests.getLast? = some .ask ∨ requests = [] ∧ done

/-- What the asker's standing says about the rest. -/
def Fits (h : Handshake) : Prop :=
  match h.asker with
  | .idle => h.requests = [] → h.served = true → true ∈ h.answers
  | .waiting => AskedOr h.requests (h.answers.getLast? = some h.served)
  | .active | .gaveUp =>
    h.able = true ∧ false ∉ h.answers ∧ AskedOr h.requests (h.served = true)

/-- The invariant. A server that is able once stays so, so no refusal comes after a grant. -/
structure Coherent (h : Handshake) : Prop where
  able_of_served : h.served = true → h.able = true
  able_of_granted : true ∈ h.answers → h.able = true
  inOrder : h.answers.Pairwise fun x y => x = true → y = true
  fits : h.Fits

theorem coherent_start : start.Coherent where
  able_of_served := by simp [start]
  able_of_granted := by simp [start]
  inOrder := List.Pairwise.nil
  fits := by simp [Fits, start]

theorem Coherent.granted_only {h : Handshake} (hc : h.Coherent) {bs : List Bool}
    (hanswers : h.answers = true :: bs) : false ∉ bs := by
  intro hf
  have hle := hc.inOrder
  rw [hanswers, List.pairwise_cons] at hle
  exact Bool.false_ne_true (hle.1 false hf rfl)

theorem askedOr_append_ask (rs : List Request) (done : Prop) : AskedOr (rs ++ [.ask]) done := by
  left
  simp

/-- A request is taken off: the ask at the end is still there, unless it was the one. -/
theorem AskedOr.tail {done : Prop} {r : Request} {rs : List Request} (ha : AskedOr (r :: rs) done) :
    rs.getLast? = some .ask ∨ rs = [] ∧ r = .ask := by
  rcases ha with hlast | ⟨hnil, -⟩
  · cases rs with
    | nil => exact .inr ⟨rfl, by simpa using hlast⟩
    | cons x xs => exact .inl (by simpa using hlast)
  · cases hnil

/-- The step lemma. -/
theorem Step.coherent {h h' : Handshake} (hs : h.Step h') (hc : h.Coherent) : h'.Coherent := by
  obtain ⟨hserved, hgranted, horder, hfits⟩ := hc
  cases hs with
  | asks => exact ⟨hserved, hgranted, horder, askedOr_append_ask _ _⟩
  | withdraws hasker =>
    refine ⟨hserved, hgranted, horder, ?_⟩
    simp only [Fits, hasker] at hfits ⊢
    intro hnil hs
    rcases hfits with hlast | ⟨-, hlast⟩
    · simp [hnil] at hlast
    · rw [hs] at hlast
      exact List.mem_of_getLast? hlast
  | drops hasker => exact ⟨hserved, hgranted, horder, fun hnil => by simp at hnil⟩
  | givesUp hasker =>
    refine ⟨hserved, hgranted, horder, ?_⟩
    simpa only [Fits, hasker] using hfits
  | becomesAble =>
    refine ⟨fun _ => rfl, fun _ => rfl, horder, ?_⟩
    unfold Fits at hfits ⊢
    cases hasker : h.asker <;> simp only [hasker] at hfits ⊢
    · exact hfits
    · exact hfits
    · exact ⟨trivial, hfits.2⟩
    · exact ⟨trivial, hfits.2⟩
  | @answers rs hrequests =>
    have hpairs : (h.answers ++ [h.able]).Pairwise fun x y => x = true → y = true := by
      rw [List.pairwise_append]
      refine ⟨horder, List.pairwise_singleton _ _, ?_⟩
      intro x hx y hy htrue
      rw [List.mem_singleton.mp hy]
      exact hgranted (htrue ▸ hx)
    refine ⟨id, ?_, hpairs, ?_⟩
    · intro hmem
      rcases List.mem_append.mp hmem with hmem | hmem
      · exact hgranted hmem
      · exact (List.mem_singleton.mp hmem).symm
    · unfold Fits at hfits ⊢
      rw [hrequests] at hfits
      cases hasker : h.asker <;> simp only [hasker] at hfits ⊢
      · intro _ hable
        simp [hable]
      · rcases hfits.tail with hlast | ⟨rfl, -⟩
        · exact .inl hlast
        · exact .inr ⟨rfl, by simp⟩
      all_goals
        obtain ⟨hable, hnone, hasked⟩ := hfits
        refine ⟨hable, by simp [hnone, hable], ?_⟩
        rcases hasked.tail with hlast | ⟨rfl, -⟩
        · exact .inl hlast
        · exact .inr ⟨rfl, hable⟩
  | @ends rs hrequests =>
    refine ⟨by simp, hgranted, horder, ?_⟩
    unfold Fits at hfits ⊢
    rw [hrequests] at hfits
    cases hasker : h.asker <;> simp only [hasker] at hfits ⊢
    · simp
    · rcases hfits.tail with hlast | ⟨-, heq⟩
      · exact .inl hlast
      · cases heq
    all_goals
      obtain ⟨hable, hnone, hasked⟩ := hfits
      refine ⟨hable, hnone, ?_⟩
      rcases hasked.tail with hlast | ⟨-, heq⟩
      · exact .inl hlast
      · cases heq
  | @granted bs hanswers hasker =>
    have hnone : false ∉ bs := Coherent.granted_only ⟨hserved, hgranted, horder, hfits⟩ hanswers
    have hable : h.able = true := hgranted (by simp [hanswers])
    rw [hanswers] at horder
    refine ⟨hserved, fun _ => hable, horder.of_cons, hable, hnone, ?_⟩
    unfold Fits at hfits
    cases hstanding : h.asker <;> simp only [hstanding] at hfits hasker
    · cases hasker
    · rcases hfits with hlast | ⟨hnil, hlast⟩
      · exact .inl hlast
      · refine .inr ⟨hnil, ?_⟩
        -- all that is under way are grants, and the last one tells what the server does
        have hmem := List.mem_of_getLast? hlast
        rw [hanswers] at hmem
        rcases List.mem_cons.mp hmem with heq | hmem
        · exact heq
        · cases hs : h.served with
          | true => rfl
          | false => exact absurd (hs ▸ hmem) hnone
    · exact hfits.2.2
    · cases hasker
  | @declines bs hanswers hasker =>
    rw [hanswers] at horder
    refine ⟨hserved, fun _ => hgranted (by simp [hanswers]), horder.of_cons, ?_⟩
    intro hnil
    simp at hnil
  | @refused bs hanswers hasker =>
    rw [hanswers] at horder
    refine ⟨hserved, fun hmem => hgranted (by simp [hanswers, hmem]), horder.of_cons, ?_⟩
    unfold Fits at hfits
    cases hstanding : h.asker <;> simp only [hstanding] at hfits hasker
    · cases hasker
    · intro hnil hs
      rcases hfits with hlast | ⟨-, hlast⟩
      · simp [show h.requests = [] from hnil] at hlast
      · rw [hanswers, show h.served = true from hs] at hlast
        have hmem := List.mem_of_getLast? hlast
        simpa using hmem
    · simp [hanswers] at hfits
    · cases hasker
  | @ignores bs hanswers hasker =>
    rw [hanswers] at horder
    refine ⟨hserved, fun hmem => hgranted (by simp [hanswers, hmem]), horder.of_cons, ?_⟩
    unfold Fits at hfits ⊢
    cases hstanding : h.asker <;> simp only [hstanding] at hfits hasker ⊢
    · intro hnil hs
      simpa [hanswers] using hfits hnil hs
    · cases hasker
    · cases hasker
    · simp [hanswers] at hfits

/-- An active asker is served, unless it has just asked again. -/
theorem Coherent.served_of_active {h : Handshake} (hc : h.Coherent) (hasker : h.asker = .active)
    (hrequests : h.requests = []) : h.served = true := by
  have hfits := hc.fits
  simp only [Fits, hasker, AskedOr, hrequests] at hfits
  simpa using hfits.2.2

/-- Nothing is under way. -/
def Quiet (h : Handshake) : Prop := h.requests = [] ∧ h.answers = []

theorem Coherent.served_iff_of_quiet {h : Handshake} (hc : h.Coherent) (hquiet : h.Quiet) :
    h.asker ≠ .waiting ∧ (h.served = true ↔ h.asker = .active ∨ h.asker = .gaveUp) := by
  obtain ⟨hrequests, hanswers⟩ := hquiet
  have hfits := hc.fits
  unfold Fits AskedOr at hfits
  cases hstanding : h.asker <;> simp [hstanding, hrequests, hanswers] at hfits ⊢
  · exact hfits
  · exact hfits.2
  · exact hfits.2

end Handshake

end lib.handshakes
