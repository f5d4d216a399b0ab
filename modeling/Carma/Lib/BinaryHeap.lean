-- A binary heap in an array, as java.util.PriorityQueue keeps it: the element that
-- compares least is at place 0, and the children of place `k` are at `2k + 1` and `2k + 2`.
import Mathlib.Data.Int.Basic
import Mathlib.Data.List.Induction
import Mathlib.Data.List.Perm.Basic
import Mathlib.Order.Defs.PartialOrder

namespace lib.binary_heap

variable {α : Type*}

def parent (k : ℕ) : ℕ := (k - 1) / 2

theorem parent_lt {k : ℕ} (h : k ≠ 0) : parent k < k := by
  unfold parent
  omega

section operations

variable (cmp : α → α → ℤ)

/-- `siftUp`: from place `k` on, the elements above that compare greater than `x` move
down, and `x` takes the place that is left. The last argument bounds the steps. -/
def siftUp (x : α) : List α → ℕ → ℕ → List α
  | queue, k, 0 => queue.set k x
  | queue, k, steps + 1 =>
    if k = 0 then queue.set k x
    else
      match queue[parent k]? with
      | none => queue.set k x
      | some e =>
        if cmp x e ≥ 0 then queue.set k x else siftUp x (queue.set k e) (parent k) steps

def offer (queue : List α) (x : α) : List α :=
  siftUp cmp x (queue ++ [x]) queue.length queue.length

/-- The child of a place that compares least: the left one, unless it compares greater
than the right one. None where there is no child. -/
def least (queue : List α) (k : ℕ) : Option (ℕ × α) :=
  match queue[2 * k + 1]?, queue[2 * k + 2]? with
  | none, _ => none
  | some c, none => some (2 * k + 1, c)
  | some c, some r => if cmp c r > 0 then some (2 * k + 2, r) else some (2 * k + 1, c)

/-- `siftDown`: from place `k` on, the lesser children that compare less than `x` move
up, and `x` takes the place that is left. The last argument bounds the steps. -/
def siftDown (x : α) : List α → ℕ → ℕ → List α
  | queue, k, 0 => queue.set k x
  | queue, k, steps + 1 =>
    match least cmp queue k with
    | none => queue.set k x
    | some (child, c) =>
      if cmp x c ≤ 0 then queue.set k x else siftDown x (queue.set k c) child steps

/-- `poll`: the element at the root, and the queue without it. -/
def poll : List α → Option (α × List α)
  | [] => none
  | result :: rest =>
    match rest.getLast? with
    | none => some (result, [])
    | some x => some (result, siftDown cmp x (result :: rest.dropLast) 0 rest.length)

end operations

/-! ## What is in the queue -/

/-- An element at a hole moves to another place when the one there moves into the hole. -/
theorem swap_perm {queue : List α} {k p : ℕ} (hk : k < queue.length) (hne : k ≠ p) {x e : α}
    (he : queue[p]? = some e) : ((queue.set k e).set p x).Perm (queue.set k x) := by
  obtain ⟨hp, hpe⟩ := List.getElem?_eq_some_iff.mp he
  have hk' : k < (queue.set k x).length := by rwa [List.length_set]
  have hp' : p < (queue.set k x).length := by rwa [List.length_set]
  have hswap := List.set_set_perm hk' hp'
  rwa [List.getElem_set_self, List.getElem_set_ne hne, hpe, List.set_set] at hswap

section contents

variable {cmp : α → α → ℤ} {x : α}

theorem siftUp_perm {steps : ℕ} {queue : List α} {k : ℕ} (hk : k < queue.length) :
    (siftUp cmp x queue k steps).Perm (queue.set k x) := by
  induction steps generalizing queue k with
  | zero => exact List.Perm.refl _
  | succ steps ih =>
    unfold siftUp
    split
    · exact List.Perm.refl _
    · rename_i hzero
      have hlt := parent_lt hzero
      split
      · exact List.Perm.refl _
      · rename_i e he
        split
        · exact List.Perm.refl _
        · have hp : parent k < (queue.set k e).length := by
            rw [List.length_set]
            omega
          exact (ih hp).trans (swap_perm hk (Nat.ne_of_gt hlt) he)

theorem offer_perm (queue : List α) (x : α) : (offer cmp queue x).Perm (x :: queue) := by
  have hk : queue.length < (queue ++ [x]).length := by simp
  refine (siftUp_perm hk).trans ?_
  rw [List.set_append_right _ _ le_rfl, Nat.sub_self, List.set_cons_zero]
  exact List.perm_append_singleton x queue

theorem offers_perm (queue xs : List α) : (xs.foldl (offer cmp) queue).Perm (queue ++ xs) := by
  induction xs using List.reverseRecOn with
  | nil => simp
  | append_singleton xs x ih =>
    rw [List.foldl_append, List.foldl_cons, List.foldl_nil, ← List.append_assoc]
    apply (offer_perm _ x).trans
    exact (ih.cons x).trans (List.perm_append_singleton x (queue ++ xs)).symm

theorem set_last (queue : List α) (x : α) :
    (queue ++ [x]).set queue.length x = queue ++ [x] := by
  rw [List.set_append_right _ _ le_rfl, Nat.sub_self, List.set_cons_zero]

/-- What does not go before any element stays at the end. -/
theorem offer_last {queue : List α} {x : α} (h : ∀ e ∈ queue, 0 ≤ cmp x e) :
    offer cmp queue x = queue ++ [x] := by
  have hset := set_last queue x
  have hsift : ∀ steps, siftUp cmp x (queue ++ [x]) queue.length steps = queue ++ [x] := by
    intro steps
    cases steps with
    | zero => exact hset
    | succ steps =>
      unfold siftUp
      split
      · exact hset
      · rename_i hzero
        rw [List.getElem?_append_left (parent_lt hzero)]
        split
        · exact hset
        · rename_i e he
          rw [if_pos (h e (List.mem_of_getElem? he))]
          exact hset
  exact hsift queue.length

/-- What comes in order, and not before any element of the queue, is put behind it. -/
theorem offers_last {queue xs : List α} (h : ∀ x ∈ xs, ∀ e ∈ queue, 0 ≤ cmp x e)
    (hxs : xs.Pairwise fun a b => 0 ≤ cmp b a) : xs.foldl (offer cmp) queue = queue ++ xs := by
  induction xs generalizing queue with
  | nil => simp
  | cons x xs ih =>
    obtain ⟨hx, hrest⟩ := List.pairwise_cons.mp hxs
    rw [List.foldl_cons, offer_last (h x List.mem_cons_self), ih ?_ hrest, List.append_assoc,
      List.singleton_append]
    intro y hy e he
    rcases List.mem_append.mp he with he | he
    · exact h y (List.mem_cons_of_mem x hy) e he
    · rw [List.mem_singleton.mp he]
      exact hx y hy

theorem least_some {queue : List α} {k child : ℕ} {c : α}
    (h : least cmp queue k = some (child, c)) :
    queue[child]? = some c ∧ parent child = k ∧ k < child := by
  unfold least at h
  split at h
  · cases h
  · rename_i c' hc _
    obtain ⟨rfl, rfl⟩ := Prod.mk.inj (Option.some.inj h)
    refine ⟨hc, ?_, ?_⟩
    · unfold parent
      omega
    · omega
  · rename_i c' r hc hr
    split at h
    · obtain ⟨rfl, rfl⟩ := Prod.mk.inj (Option.some.inj h)
      refine ⟨hr, ?_, ?_⟩
      · unfold parent
        omega
      · omega
    · obtain ⟨rfl, rfl⟩ := Prod.mk.inj (Option.some.inj h)
      refine ⟨hc, ?_, ?_⟩
      · unfold parent
        omega
      · omega

theorem siftDown_perm {steps : ℕ} {queue : List α} {k : ℕ} (hk : k < queue.length) :
    (siftDown cmp x queue k steps).Perm (queue.set k x) := by
  induction steps generalizing queue k with
  | zero => exact List.Perm.refl _
  | succ steps ih =>
    unfold siftDown
    split
    · exact List.Perm.refl _
    · rename_i child c hleast
      obtain ⟨hc, -, hlt⟩ := least_some hleast
      have hchild := (List.getElem?_eq_some_iff.mp hc).1
      split
      · exact List.Perm.refl _
      · exact (ih (by rwa [List.length_set])).trans (swap_perm hk (Nat.ne_of_lt hlt) hc)

/-- What is polled was at the root, and the rest stays. -/
theorem poll_perm {queue queue' : List α} {result : α} (h : poll cmp queue = some (result, queue')) :
    queue.head? = some result ∧ queue.Perm (result :: queue') := by
  cases queue with
  | nil => cases h
  | cons y rest =>
    unfold poll at h
    dsimp only at h
    split at h
    · rename_i hempty
      obtain ⟨rfl, rfl⟩ := Prod.mk.inj (Option.some.inj h)
      rw [List.getLast?_eq_none_iff] at hempty
      subst hempty
      exact ⟨rfl, List.Perm.refl _⟩
    · rename_i x hlast
      obtain ⟨rfl, rfl⟩ := Prod.mk.inj (Option.some.inj h)
      refine ⟨rfl, List.Perm.cons y ?_⟩
      have hrest : rest = rest.dropLast ++ [x] := (List.dropLast_append_getLast? x hlast).symm
      have hsift : (siftDown cmp x (y :: rest.dropLast) 0 rest.length).Perm
          ((y :: rest.dropLast).set 0 x) := siftDown_perm (by simp)
      refine List.Perm.trans ?_ hsift.symm
      rw [List.set_cons_zero]
      nth_rewrite 1 [hrest]
      exact List.perm_append_singleton x rest.dropLast

theorem poll_eq_none {queue : List α} : poll cmp queue = none ↔ queue = [] := by
  cases queue with
  | nil => exact iff_of_true rfl rfl
  | cons y rest =>
    refine iff_of_false ?_ (List.cons_ne_nil _ _)
    unfold poll
    dsimp only
    split
    · exact Option.some_ne_none _
    · exact Option.some_ne_none _

end contents

/-! ## Order -/

section order

variable {κ : Type*} [Preorder κ] (key : α → κ)

/-- No element is before the one above it. -/
def Ordered (queue : List α) : Prop :=
  ∀ k e above, k ≠ 0 → queue[k]? = some e → queue[parent k]? = some above → key above ≤ key e

theorem root_le {queue : List α} (h : Ordered key queue) {root : α} (hroot : queue.head? = some root)
    {e : α} (he : e ∈ queue) : key root ≤ key e := by
  obtain ⟨k, hk⟩ := List.mem_iff_getElem?.mp he
  induction k using Nat.strong_induction_on generalizing e with
  | _ k ih =>
    by_cases hzero : k = 0
    · rw [List.head?_eq_getElem?, ← hzero, hk] at hroot
      rw [Option.some.inj hroot]
    · have hlt := parent_lt hzero
      have hin : parent k < queue.length := by
        have := (List.getElem?_eq_some_iff.mp hk).1
        omega
      have habove : queue[parent k]? = some queue[parent k] := List.getElem?_eq_getElem hin
      exact le_trans (ih (parent k) hlt (List.getElem_mem hin) habove) (h k e _ hzero hk habove)

/-- What the comparator says about elements with `P` is what their keys say. -/
def Respects (cmp : α → α → ℤ) (P : α → Prop) : Prop :=
  ∀ a b, P a → P b → (cmp a b ≤ 0 → key a ≤ key b) ∧ (0 ≤ cmp a b → key b ≤ key a)

theorem Ordered.lower [DecidableEq α] {key key' : α → κ} {queue : List α}
    (h : Ordered key queue) {x : α} (hsame : ∀ e, e ≠ x → key' e = key e) (hle : key' x ≤ key x)
    (habove : ∀ k above, k ≠ 0 → queue[k]? = some x → queue[parent k]? = some above →
      key above ≤ key' x) : Ordered key' queue := by
  intro k e above hk he hab
  by_cases hex : e = x
  · subst hex
    by_cases hax : above = e
    · rw [hax]
    · rw [hsame above hax]
      exact habove k above hk he hab
  · rw [hsame e hex]
    by_cases hax : above = x
    · subst hax
      exact le_trans hle (h k e above hk he hab)
    · rw [hsame above hax]
      exact h k e above hk he hab

/-- All is in order but for the element at place `k`, which may be before those above it. -/
structure UpReady (queue : List α) (k : ℕ) : Prop where
  others : ∀ i e above, i ≠ 0 → i ≠ k → queue[i]? = some e → queue[parent i]? = some above →
    key above ≤ key e
  below : k ≠ 0 → ∀ i e above, i ≠ 0 → parent i = k → queue[i]? = some e →
    queue[parent k]? = some above → key above ≤ key e

/-- All is in order but for the element at place `k`, which may be after those below it. -/
structure DownReady (queue : List α) (k : ℕ) : Prop where
  others : ∀ i e above, i ≠ 0 → parent i ≠ k → queue[i]? = some e → queue[parent i]? = some above →
    key above ≤ key e
  above : k ≠ 0 → ∀ i e above, i ≠ 0 → parent i = k → queue[i]? = some e →
    queue[parent k]? = some above → key above ≤ key e

theorem UpReady.ordered {queue : List α} {k : ℕ} (h : UpReady key queue k)
    (hk : k ≠ 0 → ∀ e above, queue[k]? = some e → queue[parent k]? = some above →
      key above ≤ key e) : Ordered key queue := by
  intro i e above hi he habove
  by_cases hik : i = k
  · subst hik
    exact hk hi e above he habove
  · exact h.others i e above hi hik he habove

theorem DownReady.ordered {queue : List α} {k : ℕ} (h : DownReady key queue k)
    (hk : ∀ i e above, i ≠ 0 → parent i = k → queue[i]? = some e → queue[k]? = some above →
      key above ≤ key e) : Ordered key queue := by
  intro i e above hi he habove
  by_cases hik : parent i = k
  · exact hk i e above hi hik he (hik ▸ habove)
  · exact h.others i e above hi hik he habove

theorem moved_get {queue : List α} {k p : ℕ} (hk : k < queue.length) (hp : p < queue.length)
    (x e : α) (i : ℕ) : ((queue.set k e).set p x)[i]? =
      if i = p then some x else if i = k then some e else (queue.set k x)[i]? := by
  simp only [List.getElem?_set, List.length_set]
  grind

/-- An element that goes before the one above it may change places with it. -/
theorem UpReady.move {queue : List α} {k : ℕ} (hk : k < queue.length) (hzero : k ≠ 0) {x e : α}
    (h : UpReady key (queue.set k x) k) (he : queue[parent k]? = some e) (hle : key x ≤ key e) :
    UpReady key ((queue.set k e).set (parent k) x) (parent k) := by
  have hlt := parent_lt hzero
  have hp : parent k < queue.length := by omega
  have heq : (queue.set k x)[parent k]? = some e := by
    rw [List.getElem?_set_ne (Nat.ne_of_gt hlt)]
    exact he
  constructor
  · intro i a b hi hip ha hb
    rw [moved_get hk hp] at ha hb
    rw [if_neg hip] at ha
    by_cases hik : i = k
    · subst hik
      rw [if_pos rfl] at ha hb
      obtain rfl := Option.some.inj ha
      obtain rfl := Option.some.inj hb
      exact hle
    · rw [if_neg hik] at ha
      split at hb
      · rename_i hpar
        obtain rfl := Option.some.inj hb
        exact le_trans hle (h.others i a e hi hik ha (hpar ▸ heq))
      · split at hb
        · rename_i hpar
          obtain rfl := Option.some.inj hb
          exact h.below hzero i a e hi hpar ha heq
        · exact h.others i a b hi hik ha hb
  · intro hpzero i a b hi hpar ha hb
    have hpp := parent_lt hpzero
    rw [moved_get hk hp] at ha hb
    rw [if_neg (by omega), if_neg (by omega)] at hb
    have hbe : key b ≤ key e := h.others (parent k) e b hpzero (by omega) heq hb
    have hlti := parent_lt hi
    rw [if_neg (by omega)] at ha
    split at ha
    · obtain rfl := Option.some.inj ha
      exact hbe
    · rename_i hik
      exact le_trans hbe (h.others i a e hi hik ha (hpar ▸ heq))

theorem siftUp_ordered {cmp : α → α → ℤ} {P : α → Prop} (hcmp : Respects key cmp P) {x : α}
    (hx : P x) {steps : ℕ} {queue : List α} {k : ℕ} (hk : k < queue.length) (hsteps : k ≤ steps)
    (hP : ∀ e ∈ queue, P e) (h : UpReady key (queue.set k x) k) :
    Ordered key (siftUp cmp x queue k steps) := by
  induction steps generalizing queue k with
  | zero => exact h.ordered key (fun hzero => absurd (Nat.le_zero.mp hsteps) hzero)
  | succ steps ih =>
    unfold siftUp
    split
    · rename_i hzero
      exact h.ordered key (fun hne => absurd hzero hne)
    · rename_i hzero
      have hlt := parent_lt hzero
      have hp : parent k < queue.length := by omega
      split
      · rename_i hnone
        rw [List.getElem?_eq_none_iff] at hnone
        omega
      · rename_i e he
        have hPe : P e := hP e (List.mem_of_getElem? he)
        split
        · rename_i hge
          refine h.ordered key (fun _ a b ha hb => ?_)
          rw [List.getElem?_set_self hk] at ha
          rw [List.getElem?_set_ne (Nat.ne_of_gt hlt), he] at hb
          obtain rfl := Option.some.inj ha
          obtain rfl := Option.some.inj hb
          exact (hcmp _ _ hx hPe).2 hge
        · rename_i hlt'
          have hle : key x ≤ key e := (hcmp x e hx hPe).1 (by omega)
          apply ih
          · rwa [List.length_set]
          · omega
          · intro a ha
            rcases List.mem_or_eq_of_mem_set ha with ha | rfl
            · exact hP a ha
            · exact hPe
          · exact h.move key hk hzero he hle

theorem offer_ordered {cmp : α → α → ℤ} {P : α → Prop} (hcmp : Respects key cmp P) {x : α}
    (hx : P x) {queue : List α} (hP : ∀ e ∈ queue, P e) (h : Ordered key queue) :
    Ordered key (offer cmp queue x) := by
  have hset := set_last queue x
  have hin : ∀ {i : ℕ} {e : α}, i ≠ queue.length → (queue ++ [x])[i]? = some e →
      i < queue.length ∧ queue[i]? = some e := by
    intro i e hi he
    have hlt := (List.getElem?_eq_some_iff.mp he).1
    rw [List.length_append, List.length_singleton] at hlt
    have hi' : i < queue.length := by omega
    rw [List.getElem?_append_left hi'] at he
    exact ⟨hi', he⟩
  apply siftUp_ordered key hcmp hx
  · simp
  · exact le_rfl
  · intro e he
    rcases List.mem_append.mp he with he | he
    · exact hP e he
    · rwa [List.mem_singleton.mp he]
  · rw [hset]
    constructor
    · intro i e above hi hk he habove
      obtain ⟨hlt, he⟩ := hin hk he
      have hpar := parent_lt hi
      obtain ⟨-, habove⟩ := hin (by omega) habove
      exact h i e above hi he habove
    · intro _ i e _ hi hpar he _
      have hlt := (List.getElem?_eq_some_iff.mp he).1
      have hlti := parent_lt hi
      rw [List.length_append, List.length_singleton] at hlt
      omega

theorem parent_eq_iff {i k : ℕ} (hi : i ≠ 0) : parent i = k ↔ i = 2 * k + 1 ∨ i = 2 * k + 2 := by
  unfold parent
  omega

theorem least_eq_none {cmp : α → α → ℤ} {queue : List α} {k : ℕ} (h : least cmp queue k = none)
    {i : ℕ} (hi : i ≠ 0) (hpar : parent i = k) : queue[i]? = none := by
  rw [parent_eq_iff hi] at hpar
  unfold least at h
  split at h
  · rename_i hleft
    rw [List.getElem?_eq_none_iff] at *
    omega
  · cases h
  · split at h
    · cases h
    · cases h

theorem least_le {cmp : α → α → ℤ} {P : α → Prop} (hcmp : Respects key cmp P) {queue : List α}
    (hP : ∀ e ∈ queue, P e) {k child : ℕ} {c : α} (h : least cmp queue k = some (child, c))
    {i : ℕ} (hi : i ≠ 0) (hpar : parent i = k) {e : α} (he : queue[i]? = some e) :
    key c ≤ key e := by
  rw [parent_eq_iff hi] at hpar
  unfold least at h
  split at h
  · cases h
  · rename_i c' hc hr
    obtain ⟨rfl, rfl⟩ := Prod.mk.inj (Option.some.inj h)
    rcases hpar with rfl | rfl
    · rw [hc] at he
      rw [Option.some.inj he]
    · rw [hr] at he
      cases he
  · rename_i c' r hc hr
    have hPc : P c' := hP c' (List.mem_of_getElem? hc)
    have hPr : P r := hP r (List.mem_of_getElem? hr)
    split at h
    · rename_i hgt
      obtain ⟨rfl, rfl⟩ := Prod.mk.inj (Option.some.inj h)
      rcases hpar with rfl | rfl
      · rw [hc] at he
        obtain rfl := Option.some.inj he
        exact (hcmp _ _ hPc hPr).2 (by omega)
      · rw [hr] at he
        rw [Option.some.inj he]
    · rename_i hle
      obtain ⟨rfl, rfl⟩ := Prod.mk.inj (Option.some.inj h)
      rcases hpar with rfl | rfl
      · rw [hc] at he
        rw [Option.some.inj he]
      · rw [hr] at he
        obtain rfl := Option.some.inj he
        exact (hcmp _ _ hPc hPr).1 (by omega)

/-- The least element below one that goes after it may change places with it. -/
theorem DownReady.move {queue : List α} {k child : ℕ} (hk : k < queue.length) {x c : α}
    (h : DownReady key (queue.set k x) k) (hc : queue[child]? = some c) (hpar : parent child = k)
    (hlt : k < child) (hle : key c ≤ key x)
    (hleast : ∀ i e, i ≠ 0 → parent i = k → queue[i]? = some e → key c ≤ key e) :
    DownReady key ((queue.set k c).set child x) child := by
  have hchild := (List.getElem?_eq_some_iff.mp hc).1
  have hceq : (queue.set k x)[child]? = some c := by
    rw [List.getElem?_set_ne (Nat.ne_of_lt hlt)]
    exact hc
  have hold : ∀ {i : ℕ}, i ≠ k → (queue.set k x)[i]? = queue[i]? :=
    fun hik => List.getElem?_set_ne (Ne.symm hik)
  constructor
  · intro i a b hi hic ha hb
    have hlti := parent_lt hi
    rw [moved_get hk hchild] at ha hb
    rw [if_neg hic] at hb
    by_cases hchi : i = child
    · subst hchi
      rw [if_pos rfl] at ha
      rw [if_pos hpar] at hb
      obtain rfl := Option.some.inj ha
      obtain rfl := Option.some.inj hb
      exact hle
    · rw [if_neg hchi] at ha
      by_cases hik : i = k
      · subst hik
        rw [if_pos rfl] at ha
        rw [if_neg (by omega)] at hb
        obtain rfl := Option.some.inj ha
        exact h.above hi child _ b (by omega) hpar hceq hb
      · rw [if_neg hik] at ha
        by_cases hpk : parent i = k
        · rw [if_pos hpk] at hb
          obtain rfl := Option.some.inj hb
          rw [hold hik] at ha
          exact hleast i a hi hpk ha
        · rw [if_neg hpk] at hb
          exact h.others i a b hi hpk ha hb
  · intro _ i a b hi hpi ha hb
    have hlti := parent_lt hi
    rw [moved_get hk hchild] at ha hb
    rw [if_neg (by omega), if_neg (by omega)] at ha
    rw [if_neg (by omega), if_pos hpar] at hb
    obtain rfl := Option.some.inj hb
    exact h.others i a _ hi (by omega) ha (hpi ▸ hceq)

theorem siftDown_ordered {cmp : α → α → ℤ} {P : α → Prop} (hcmp : Respects key cmp P) {x : α}
    (hx : P x) {steps : ℕ} {queue : List α} {k : ℕ} (hk : k < queue.length)
    (hsteps : queue.length ≤ k + steps) (hP : ∀ e ∈ queue, P e)
    (h : DownReady key (queue.set k x) k) : Ordered key (siftDown cmp x queue k steps) := by
  induction steps generalizing queue k with
  | zero => omega
  | succ steps ih =>
    have hold : ∀ {i : ℕ}, i ≠ 0 → parent i = k → (queue.set k x)[i]? = queue[i]? := by
      intro i hi hpar
      have hlti := parent_lt hi
      exact List.getElem?_set_ne (by omega)
    unfold siftDown
    split
    · rename_i hnone
      refine h.ordered key (fun i e _ hi hpar he _ => ?_)
      rw [hold hi hpar, least_eq_none hnone hi hpar] at he
      cases he
    · rename_i child c hleast
      obtain ⟨hc, hpar, hlt⟩ := least_some hleast
      have hchild := (List.getElem?_eq_some_iff.mp hc).1
      have hPc : P c := hP c (List.mem_of_getElem? hc)
      split
      · rename_i hle
        refine h.ordered key (fun i e above hi hpi he habove => ?_)
        rw [hold hi hpi] at he
        rw [List.getElem?_set_self hk] at habove
        obtain rfl := Option.some.inj habove
        exact le_trans ((hcmp _ _ hx hPc).1 hle) (least_le key hcmp hP hleast hi hpi he)
      · rename_i hgt
        have hle : key c ≤ key x := (hcmp x c hx hPc).2 (by omega)
        apply ih
        · rwa [List.length_set]
        · rw [List.length_set]
          omega
        · intro a ha
          rcases List.mem_or_eq_of_mem_set ha with ha | rfl
          · exact hP a ha
          · exact hPc
        · exact h.move key hk hc hpar hlt hle
            (fun i e hi hpi he => least_le key hcmp hP hleast hi hpi he)

theorem poll_ordered {cmp : α → α → ℤ} {P : α → Prop} (hcmp : Respects key cmp P)
    {queue queue' : List α} {result : α} (hpoll : poll cmp queue = some (result, queue'))
    (hP : ∀ e ∈ queue, P e) (h : Ordered key queue) : Ordered key queue' := by
  cases queue with
  | nil => cases hpoll
  | cons y rest =>
    unfold poll at hpoll
    dsimp only at hpoll
    split at hpoll
    · obtain ⟨-, rfl⟩ := Prod.mk.inj (Option.some.inj hpoll)
      intro k e above _ he
      cases he
    · rename_i x hlast
      obtain ⟨-, rfl⟩ := Prod.mk.inj (Option.some.inj hpoll)
      have hxmem : x ∈ rest := List.mem_of_getLast? hlast
      have hpos : 0 < rest.length := List.length_pos_of_mem hxmem
      -- but for the root, what is left is what was there
      have hsame : ∀ {i : ℕ} {e : α}, i ≠ 0 → ((y :: rest.dropLast).set 0 x)[i]? = some e →
          (y :: rest)[i]? = some e := by
        intro i e hi he
        rw [List.getElem?_set_ne (Ne.symm hi)] at he
        obtain ⟨i, rfl⟩ := Nat.exists_eq_succ_of_ne_zero hi
        rw [Nat.succ_eq_add_one, List.getElem?_cons_succ] at he ⊢
        rw [List.getElem?_dropLast] at he
        split at he
        · exact he
        · cases he
      apply siftDown_ordered key hcmp (hP x (List.mem_cons_of_mem y hxmem))
      · simp
      · rw [List.length_cons, List.length_dropLast]
        omega
      · intro e he
        rcases List.mem_cons.mp he with rfl | he
        · exact hP _ List.mem_cons_self
        · exact hP e (List.mem_cons_of_mem y ((List.dropLast_sublist rest).subset he))
      · constructor
        · intro i e above hi hpar he habove
          exact h i e above hi (hsame hi he) (hsame hpar habove)
        · intro hne
          exact absurd rfl hne

theorem offers_from_spec {cmp : α → α → ℤ} (hcmp : Respects key cmp fun _ => True) {queue : List α}
    (h : Ordered key queue) (xs : List α) :
    (xs.foldl (offer cmp) queue).Perm (queue ++ xs) ∧ Ordered key (xs.foldl (offer cmp) queue) := by
  apply And.intro (offers_perm queue xs)
  induction xs using List.reverseRecOn with
  | nil => exact h
  | append_singleton xs x ih =>
    rw [List.foldl_append, List.foldl_cons, List.foldl_nil]
    exact offer_ordered key hcmp trivial (fun _ _ => trivial) ih

theorem ordered_nil : Ordered key ([] : List α) := by
  intro k e above _ he
  simp at he

theorem offers_spec {cmp : α → α → ℤ} (hcmp : Respects key cmp fun _ => True) (xs : List α) :
    (xs.foldl (offer cmp) []).Perm xs ∧ Ordered key (xs.foldl (offer cmp) []) :=
  offers_from_spec key hcmp (ordered_nil key) xs

/-- Two elements in order are sorted. -/
theorem Ordered.pairwise_of_length_le_two {queue : List α} (h : Ordered key queue)
    (hlength : queue.length ≤ 2) : queue.Pairwise (fun a b => key a ≤ key b) := by
  match queue, hlength with
  | [], _ => exact List.Pairwise.nil
  | [a], _ => exact List.pairwise_singleton _ a
  | [a, b], _ =>
    rw [List.pairwise_pair]
    exact h 1 b a Nat.one_ne_zero rfl rfl

end order

/-! ## The queue of the keys -/

section keys

variable {β : Type*} {f : α → β} {cmp : α → α → ℤ} {cmp' : β → β → ℤ}

theorem siftUp_map (h : ∀ a b, cmp a b = cmp' (f a) (f b)) (x : α) (steps : ℕ) (queue : List α)
    (k : ℕ) : (siftUp cmp x queue k steps).map f = siftUp cmp' (f x) (queue.map f) k steps := by
  induction steps generalizing queue k with
  | zero => exact List.map_set
  | succ steps ih =>
    unfold siftUp
    rw [List.getElem?_map]
    split
    · exact List.map_set
    · cases queue[parent k]? with
      | none => exact List.map_set
      | some e =>
        dsimp only [Option.map_some]
        rw [h x e]
        split
        · exact List.map_set
        · rw [ih, List.map_set]

theorem offer_map (h : ∀ a b, cmp a b = cmp' (f a) (f b)) (queue : List α) (x : α) :
    (offer cmp queue x).map f = offer cmp' (queue.map f) (f x) := by
  unfold offer
  rw [siftUp_map h, List.map_append, List.length_map]
  rfl

theorem offers_map (h : ∀ a b, cmp a b = cmp' (f a) (f b)) (xs queue : List α) :
    (xs.foldl (offer cmp) queue).map f = (xs.map f).foldl (offer cmp') (queue.map f) := by
  induction xs generalizing queue with
  | nil => rfl
  | cons x xs ih => rw [List.foldl_cons, ih, offer_map h, List.map_cons, List.foldl_cons]

theorem least_map (h : ∀ a b, cmp a b = cmp' (f a) (f b)) (queue : List α) (k : ℕ) :
    least cmp' (queue.map f) k = (least cmp queue k).map fun c => (c.1, f c.2) := by
  unfold least
  rw [List.getElem?_map, List.getElem?_map]
  cases queue[2 * k + 1]? with
  | none => rfl
  | some c =>
    cases queue[2 * k + 2]? with
    | none => rfl
    | some r =>
      dsimp only [Option.map_some]
      rw [h c r]
      split
      · rfl
      · rfl

theorem siftDown_map (h : ∀ a b, cmp a b = cmp' (f a) (f b)) (x : α) (steps : ℕ) (queue : List α)
    (k : ℕ) : (siftDown cmp x queue k steps).map f = siftDown cmp' (f x) (queue.map f) k steps := by
  induction steps generalizing queue k with
  | zero => exact List.map_set
  | succ steps ih =>
    unfold siftDown
    rw [least_map h]
    cases least cmp queue k with
    | none => exact List.map_set
    | some c =>
      dsimp only [Option.map_some]
      rw [h x c.2]
      split
      · exact List.map_set
      · rw [ih, List.map_set]

theorem poll_map (h : ∀ a b, cmp a b = cmp' (f a) (f b)) (queue : List α) :
    poll cmp' (queue.map f) = (poll cmp queue).map fun p => (f p.1, p.2.map f) := by
  cases queue with
  | nil => rfl
  | cons y rest =>
    unfold poll
    rw [List.map_cons]
    dsimp only
    rw [List.getLast?_map]
    cases rest.getLast? with
    | none => rfl
    | some x =>
      dsimp only [Option.map_some]
      rw [siftDown_map h, List.map_cons, List.map_dropLast, List.length_map]

end keys

/-! ## What comes to the root -/

section roots

/-- All elements above a place, on the way to the root, have `P`. The last argument bounds
the steps. -/
def AboveAll (P : α → Prop) (queue : List α) : ℕ → ℕ → Prop
  | _, 0 => True
  | k, steps + 1 =>
    k = 0 ∨ (∀ e ∈ queue[parent k]?, P e) ∧ AboveAll P queue (parent k) steps

instance (P : α → Prop) [DecidablePred P] (queue : List α) (k steps : ℕ) :
    Decidable (AboveAll P queue k steps) := by
  induction steps generalizing k with
  | zero => exact isTrue trivial
  | succ steps ih =>
    have := ih (parent k)
    exact inferInstanceAs (Decidable (_ ∨ _))

theorem aboveAll_congr {P : α → Prop} {queue queue' : List α} {k : ℕ}
    (h : ∀ i < k, queue[i]? = queue'[i]?) (steps : ℕ) :
    AboveAll P queue k steps ↔ AboveAll P queue' k steps := by
  induction steps generalizing k with
  | zero => exact Iff.rfl
  | succ steps ih =>
    unfold AboveAll
    apply or_congr_right'
    intro hk
    have hp := parent_lt hk
    rw [h _ hp, ih fun i hi => h i (lt_trans hi hp)]

theorem AboveAll.root {P : α → Prop} {queue : List α} {k steps : ℕ} (h : AboveAll P queue k steps)
    (hk : k ≠ 0) (hsteps : k ≤ steps) {root : α} (hroot : queue[0]? = some root) : P root := by
  induction steps generalizing k with
  | zero => omega
  | succ steps ih =>
    obtain ⟨hparent, hrest⟩ := h.resolve_left hk
    have hp := parent_lt hk
    by_cases hzero : parent k = 0
    · rw [hzero] at hparent
      exact hparent root hroot
    · exact ih hrest hzero (by omega)

/-- The element that is sifted comes to the root just when it goes before all above it. -/
theorem siftUp_root (cmp : α → α → ℤ) {x root : α} {steps : ℕ} {queue : List α} {k : ℕ}
    (hlength : k < queue.length) (hk : k ≠ 0) (hsteps : k ≤ steps)
    (hroot : queue[0]? = some root) :
    (siftUp cmp x queue k steps)[0]? =
      some (if AboveAll (cmp x · < 0) queue k steps then x else root) := by
  induction steps generalizing queue k with
  | zero => omega
  | succ steps ih =>
    have hp := parent_lt hk
    obtain ⟨e, he⟩ : ∃ e, queue[parent k]? = some e :=
      ⟨_, List.getElem?_eq_getElem (by omega : parent k < queue.length)⟩
    have hall : AboveAll (cmp x · < 0) queue k (steps + 1) ↔
        cmp x e < 0 ∧ AboveAll (cmp x · < 0) queue (parent k) steps := by
      rw [AboveAll, or_iff_right hk, he]
      simp
    unfold siftUp
    rw [if_neg hk, he]
    dsimp only
    by_cases hge : cmp x e ≥ 0
    · rw [if_pos hge, List.getElem?_set_ne hk, hroot, if_neg fun h => by have := (hall.mp h).1; omega]
    · rw [if_neg hge]
      have hkept : ∀ i < parent k, queue[i]? = (queue.set k e)[i]? := fun i hi => by
        rw [List.getElem?_set_ne (by omega)]
      by_cases hzero : parent k = 0
      · have hfinal : siftUp cmp x (queue.set k e) 0 steps = (queue.set k e).set 0 x := by
          cases steps with
          | zero => rfl
          | succ steps => rw [siftUp, if_pos rfl]
        have htrue : AboveAll (cmp x · < 0) queue k (steps + 1) := by
          rw [hall, hzero]
          refine ⟨by omega, ?_⟩
          cases steps with
          | zero => trivial
          | succ steps => exact Or.inl rfl
        rw [hzero, hfinal, if_pos htrue, List.getElem?_set_self (by rw [List.length_set]; omega)]
      · have hroot' : (queue.set k e)[0]? = some root := by rw [List.getElem?_set_ne hk, hroot]
        have hlt : cmp x e < 0 := by omega
        have hsame := (aboveAll_congr (P := (cmp x · < 0)) hkept steps).symm.trans
          ((and_iff_right hlt).symm.trans hall.symm)
        rw [ih (by rw [List.length_set]; omega) hzero (by omega) hroot', if_congr hsame rfl rfl]

/-- An element that is offered goes before all that is above its place. -/
def Rises (cmp : α → α → ℤ) (queue : List α) (x : α) : Prop :=
  AboveAll (cmp x · < 0) queue queue.length queue.length

instance (cmp : α → α → ℤ) (queue : List α) (x : α) : Decidable (Rises cmp queue x) :=
  inferInstanceAs (Decidable (AboveAll _ _ _ _))

theorem offer_root (cmp : α → α → ℤ) (queue : List α) (x : α) :
    (offer cmp queue x).head? = if Rises cmp queue x then some x else queue.head? := by
  cases queue with
  | nil => rfl
  | cons root rest =>
    have hkept : ∀ i < (root :: rest).length, (root :: rest ++ [x])[i]? = (root :: rest)[i]? :=
      fun i hi => List.getElem?_append_left hi
    have hfirst : (root :: rest ++ [x])[0]? = some root := rfl
    have hsift := siftUp_root cmp (x := x) (k := (root :: rest).length) (by simp)
      (Nat.succ_ne_zero _) le_rfl hfirst
    rw [List.head?_eq_getElem?, offer, hsift]
    have hsame := aboveAll_congr (P := (cmp x · < 0)) hkept (root :: rest).length
    by_cases hrises : Rises cmp (root :: rest) x
    · rw [if_pos hrises, if_pos (hsame.mpr hrises)]
    · rw [if_neg hrises, if_neg (mt hsame.mp hrises)]
      rfl

theorem Rises.root {cmp : α → α → ℤ} {queue : List α} {x root : α} (h : Rises cmp queue x)
    (hroot : queue.head? = some root) : cmp x root < 0 := by
  cases queue with
  | nil => cases hroot
  | cons r rest =>
    exact AboveAll.root h (Nat.succ_ne_zero _) le_rfl (by rwa [List.head?_eq_getElem?] at hroot)

theorem aboveAll_of_forall {P : α → Prop} {queue : List α} (h : ∀ e ∈ queue, P e) (k steps : ℕ) :
    AboveAll P queue k steps := by
  induction steps generalizing k with
  | zero => trivial
  | succ steps ih => exact Or.inr ⟨fun e he => h e (List.mem_of_getElem? he), ih (parent k)⟩

theorem offer_head {κ : Type*} [Preorder κ] {key : α → κ} {cmp : α → α → ℤ}
    (hcmp : Respects key cmp fun _ => True) (hlt : ∀ a b, cmp a b < 0 → ¬ key b ≤ key a)
    {root : α} {rest : List α} (h : Ordered key (root :: rest)) (x : α) :
    (offer cmp (root :: rest) x).head? = some (if cmp x root < 0 then x else root) := by
  have hrises : Rises cmp (root :: rest) x ↔ cmp x root < 0 := by
    constructor
    · intro hrises
      exact hrises.root rfl
    · intro hbefore
      apply aboveAll_of_forall
      intro e he
      by_contra hge
      have hroot := root_le key h rfl he
      have hafter := (hcmp x e trivial trivial).2 (by omega)
      exact hlt x root hbefore (le_trans hroot hafter)
  rw [offer_root, if_congr hrises rfl rfl, apply_ite some]
  rfl

theorem root_rises (cmp : α → α → ℤ) {xs : List α} {r : α}
    (h : (xs.foldl (offer cmp) []).head? = some r) :
    ∃ before after, xs = before ++ r :: after ∧ Rises cmp (before.foldl (offer cmp) []) r := by
  induction xs using List.reverseRecOn with
  | nil => cases h
  | append_singleton xs x ih =>
    rw [List.foldl_append, List.foldl_cons, List.foldl_nil, offer_root] at h
    split at h
    · rename_i hrises
      obtain rfl := Option.some.inj h
      exact ⟨xs, [], rfl, hrises⟩
    · obtain ⟨before, after, rfl, hrises⟩ := ih h
      exact ⟨before, after ++ [x], by simp, hrises⟩

theorem root_stays {cmp : α → α → ℤ} {queue xs : List α} {root : α}
    (hroot : queue.head? = some root) (h : ∀ x ∈ xs, 0 ≤ cmp x root) :
    (xs.foldl (offer cmp) queue).head? = some root := by
  induction xs generalizing queue with
  | nil => exact hroot
  | cons x xs ih =>
    rw [List.foldl_cons]
    apply ih _ fun y hy => h y (List.mem_cons_of_mem x hy)
    rw [offer_root, if_neg, hroot]
    intro hrises
    have hlt := hrises.root hroot
    have hge := h x List.mem_cons_self
    omega

end roots

end lib.binary_heap
