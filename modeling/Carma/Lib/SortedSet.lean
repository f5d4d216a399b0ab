-- A sorted set ordered by a comparator, as java.util.TreeSet: an element that
-- compares equal to one already in the set is not added.
import Mathlib.Data.List.Basic
import Mathlib.Order.Compare
import Mathlib.Order.Lattice

namespace lib.sorted_set

section comparator

variable {α : Type*} (cmp : α → α → Ordering)

/-- Add one element. -/
def add : List α → α → List α
  | [], x => [x]
  | y :: ys, x =>
    match cmp x y with
    | .lt => x :: y :: ys
    | .eq => y :: ys
    | .gt => y :: add ys x

/-- Add the elements of a list, one after the other. -/
def addAll (s xs : List α) : List α := xs.foldl (add cmp) s

@[simp] theorem addAll_nil (s : List α) : addAll cmp s [] = s := rfl

@[simp] theorem addAll_cons (s xs : List α) (x : α) :
    addAll cmp s (x :: xs) = addAll cmp (add cmp s x) xs := rfl

theorem mem_of_mem_add {s : List α} {x z : α} (h : z ∈ add cmp s x) : z ∈ s ∨ z = x := by
  induction s with
  | nil => exact Or.inr (List.mem_singleton.mp h)
  | cons y ys ih =>
    unfold add at h
    split at h
    · rcases List.mem_cons.mp h with rfl | h
      · exact Or.inr rfl
      · exact Or.inl h
    · exact Or.inl h
    · rcases List.mem_cons.mp h with rfl | h
      · simp
      · rcases ih h with h | h
        · simp [h]
        · exact Or.inr h

theorem subset_add (s : List α) (x : α) : ∀ z ∈ s, z ∈ add cmp s x := by
  induction s with
  | nil => simp
  | cons y ys ih =>
    intro z hz
    unfold add
    split
    · simp [hz]
    · exact hz
    · rcases List.mem_cons.mp hz with rfl | hz
      · simp
      · simp [ih z hz]

/-- A new element gets in, unless one that compares equal is there. -/
theorem mem_add_self (s : List α) (x : α) : x ∈ add cmp s x ∨ ∃ y ∈ s, cmp x y = .eq := by
  induction s with
  | nil => simp [add]
  | cons y ys ih =>
    unfold add
    split
    · simp
    · rename_i h
      exact Or.inr ⟨y, by simp, h⟩
    · rcases ih with h | ⟨z, hz, h⟩
      · simp [h]
      · exact Or.inr ⟨z, by simp [hz], h⟩

theorem mem_of_mem_addAll {s xs : List α} {z : α} (h : z ∈ addAll cmp s xs) :
    z ∈ s ∨ z ∈ xs := by
  induction xs generalizing s with
  | nil => exact Or.inl h
  | cons x xs ih =>
    rcases ih h with h | h
    · rcases mem_of_mem_add cmp h with h | rfl
      · exact Or.inl h
      · simp
    · simp [h]

theorem subset_addAll (s xs : List α) : ∀ z ∈ s, z ∈ addAll cmp s xs := by
  induction xs generalizing s with
  | nil => simp
  | cons x xs ih => exact fun z hz => ih _ z (subset_add cmp s x z hz)

/-- Where only equal elements compare equal, the set holds just what was
added. -/
theorem mem_addAll {s xs : List α} (hne : ∀ x ∈ xs, ∀ y, y ∈ s ∨ y ∈ xs → cmp x y = .eq → x = y)
    (z : α) : z ∈ addAll cmp s xs ↔ z ∈ s ∨ z ∈ xs := by
  refine ⟨mem_of_mem_addAll cmp, ?_⟩
  rintro (hz | hz)
  · exact subset_addAll cmp s xs z hz
  · induction xs generalizing s with
    | nil => simp at hz
    | cons x xs ih =>
      rw [addAll_cons]
      rcases List.mem_cons.mp hz with rfl | hz
      · apply subset_addAll
        rcases mem_add_self cmp s z with h | ⟨y, hy, hzy⟩
        · exact h
        · rw [hne z (by simp) y (Or.inl hy) hzy]
          exact subset_add cmp s _ y hy
      · refine ih ?_ hz
        intro w hw y hy hwy
        apply hne w (by simp [hw]) y _ hwy
        rcases hy with hy | hy
        · rcases mem_of_mem_add cmp hy with h | rfl
          · exact Or.inl h
          · simp
        · simp [hy]

/-- A comparator whose answers follow an order keeps the set in that order. -/
theorem add_ordered {r : α → α → Prop} (htrans : ∀ a b c, r a b → r b c → r a c) {s : List α} {x : α}
    (hlt : ∀ y ∈ s, cmp x y = .lt → r x y) (hgt : ∀ y ∈ s, cmp x y = .gt → r y x)
    (h : s.Pairwise r) : (add cmp s x).Pairwise r := by
  induction s with
  | nil => exact List.pairwise_singleton _ x
  | cons y ys ih =>
    rw [List.forall_mem_cons] at hlt hgt
    rw [List.pairwise_cons] at h
    unfold add
    split
    · rename_i hcmp
      have hxy := hlt.1 hcmp
      refine List.pairwise_cons.mpr ⟨?_, List.pairwise_cons.mpr h⟩
      rw [List.forall_mem_cons]
      exact ⟨hxy, fun z hz => htrans x y z hxy (h.1 z hz)⟩
    · exact List.pairwise_cons.mpr h
    · rename_i hcmp
      refine List.pairwise_cons.mpr ⟨?_, ih hlt.2 hgt.2 h.2⟩
      intro z hz
      rcases mem_of_mem_add _ hz with hz | rfl
      · exact h.1 z hz
      · exact hgt.1 hcmp

theorem addAll_ordered {r : α → α → Prop} (htrans : ∀ a b c, r a b → r b c → r a c) {s xs : List α}
    (hlt : ∀ x ∈ xs, ∀ y, y ∈ s ∨ y ∈ xs → cmp x y = .lt → r x y)
    (hgt : ∀ x ∈ xs, ∀ y, y ∈ s ∨ y ∈ xs → cmp x y = .gt → r y x) (h : s.Pairwise r) :
    (addAll cmp s xs).Pairwise r := by
  induction xs generalizing s with
  | nil => exact h
  | cons x xs ih =>
    have hold : ∀ y, y ∈ add cmp s x ∨ y ∈ xs → y ∈ s ∨ y ∈ x :: xs := by
      rintro y (hy | hy)
      · rcases mem_of_mem_add cmp hy with hy | rfl
        · exact Or.inl hy
        · exact Or.inr List.mem_cons_self
      · exact Or.inr (List.mem_cons_of_mem x hy)
    apply ih
    · exact fun z hz y hy => hlt z (List.mem_cons_of_mem x hz) y (hold y hy)
    · exact fun z hz y hy => hgt z (List.mem_cons_of_mem x hz) y (hold y hy)
    · apply add_ordered cmp htrans
      · exact fun y hy => hlt x List.mem_cons_self y (Or.inl hy)
      · exact fun y hy => hgt x List.mem_cons_self y (Or.inl hy)
      · exact h

end comparator

/-! ## Sets ordered by a key -/

section key

variable {α κ : Type*} [LinearOrder κ] {key : α → κ}

/-- Elements compared by their keys. -/
def byKey (key : α → κ) (a b : α) : Ordering := cmp (key a) (key b)

theorem add_pairwise {s : List α} (h : s.Pairwise (fun a b => key a < key b)) (x : α) :
    (add (byKey key) s x).Pairwise (fun a b => key a < key b) := by
  apply add_ordered _ _ _ _ h
  · exact fun a b c => lt_trans
  · exact fun y _ hlt => (cmp_eq_lt_iff _ _).mp hlt
  · exact fun y _ hgt => (cmp_eq_gt_iff _ _).mp hgt

/-- An element that no key is past joins at the end, if it is new. -/
theorem add_last {s : List α} {x : α} (h : ∀ y ∈ s, key y ≤ key x) :
    add (byKey key) s x = s ++ [x] ∨ (add (byKey key) s x = s ∧ s ≠ []) := by
  induction s with
  | nil => exact Or.inl rfl
  | cons y ys ih =>
    rw [List.forall_mem_cons] at h
    unfold add
    split
    · rename_i hlt
      exact absurd ((cmp_eq_lt_iff _ _).mp hlt) (not_lt.mpr h.1)
    · exact Or.inr ⟨rfl, List.cons_ne_nil y ys⟩
    · rcases ih h.2 with hnew | ⟨hold, -⟩
      · exact Or.inl (by rw [hnew, List.cons_append])
      · exact Or.inr ⟨by rw [hold], List.cons_ne_nil y ys⟩

/-- An element past all the keys joins at the end. -/
theorem add_of_lt {s : List α} {x : α} (h : ∀ y ∈ s, key y < key x) :
    add (byKey key) s x = s ++ [x] := by
  induction s with
  | nil => rfl
  | cons y ys ih =>
    rw [List.forall_mem_cons] at h
    have hgt : byKey key x y = .gt := (cmp_eq_gt_iff _ _).mpr h.1
    rw [add, hgt, List.cons_append]
    exact congrArg (y :: ·) (ih h.2)

theorem add_of_last {s : List α} (hs : s.Pairwise (fun a b => key a < key b)) {x y : α}
    (h : ∀ z ∈ s, key z ≤ key x) (hy : y ∈ s) (hkey : key y = key x) :
    add (byKey key) s x = s := by
  rcases add_last h with hnew | ⟨hold, -⟩
  · have hsorted := add_pairwise hs x
    rw [hnew, List.pairwise_append] at hsorted
    exact absurd hkey (hsorted.2.2 y hy x List.mem_cons_self).ne
  · exact hold

theorem le_of_find? {s : List α} {place : κ} {x : α}
    (h : s.find? (fun y => decide (place ≤ key y)) = some x) : place ≤ key x := by
  simpa using List.find?_some h

theorem find?_addAll {s xs : List α} (hs : s.Pairwise (fun a b => key a < key b))
    (h : (s ++ xs).Pairwise (fun a b => key a ≤ key b)) (place : κ) :
    (addAll (byKey key) s xs).find? (fun y => decide (place ≤ key y)) =
      (s ++ xs).find? (fun y => decide (place ≤ key y)) := by
  induction xs generalizing s with
  | nil => rw [addAll_nil, List.append_nil]
  | cons x xs ih =>
    have hle : ∀ y ∈ s, key y ≤ key x := fun y hy =>
      (List.pairwise_append.mp h).2.2 y hy x List.mem_cons_self
    by_cases hlast : ∃ y ∈ s, key y = key x
    · obtain ⟨y, hy, hkey⟩ := hlast
      have hsub : (s ++ xs).Sublist (s ++ x :: xs) :=
        (List.Sublist.refl s).append (List.sublist_cons_self x xs)
      rw [addAll_cons, add_of_last hs hle hy hkey, ih hs (h.sublist hsub), List.find?_append,
        List.find?_append]
      by_cases hplace : place ≤ key x
      · have hfound : (s.find? (fun y => decide (place ≤ key y))).isSome :=
          List.find?_isSome.mpr ⟨y, hy, decide_eq_true (hplace.trans_eq hkey.symm)⟩
        rw [Option.or_of_isSome hfound, Option.or_of_isSome hfound]
      · rw [List.find?_cons_of_neg (by simpa using hplace)]
    · have hlt : ∀ y ∈ s, key y < key x := fun y hy =>
        (hle y hy).lt_of_ne (fun heq => hlast ⟨y, hy, heq⟩)
      have hadd := add_pairwise hs x
      rw [add_of_lt hlt] at hadd
      rw [List.append_cons s x xs] at h ⊢
      rw [addAll_cons, add_of_lt hlt]
      exact ih hadd h

/-- In order, what is not past a place comes first. -/
theorem filter_append_filter {s : List α} {p : α → Bool}
    (h : s.Pairwise (fun a b => p b = true → p a = true)) :
    s.filter p ++ s.filter (fun x => !p x) = s := by
  induction s with
  | nil => rfl
  | cons x xs ih =>
    rw [List.pairwise_cons] at h
    by_cases hx : p x = true
    · rw [List.filter_cons_of_pos hx, List.filter_cons_of_neg (by simpa using hx), List.cons_append,
        ih h.2]
    · have hlater : ∀ y ∈ xs, ¬ p y = true := fun y hy hpy => hx (h.1 y hy hpy)
      have hnone : (x :: xs).filter p = [] :=
        List.filter_eq_nil_iff.mpr (List.forall_mem_cons.mpr ⟨hx, hlater⟩)
      rw [hnone, List.nil_append, List.filter_eq_self]
      exact List.forall_mem_cons.mpr ⟨by simpa using hx, fun y hy => by simpa using hlater y hy⟩

/-! ## The part of a set between two places -/

/-- Copy the elements past `start` and not past `end_`, and stop past `end_`. -/
def copyRange (key : α → κ) (start end_ : κ) (out : List α) : List α → List α
  | [] => out
  | x :: xs =>
    let out := if key x > start ∧ key x ≤ end_ then add (byKey key) out x else out
    if key x > end_ then out else copyRange key start end_ out xs

theorem copyRange_eq (start end_ : κ) {out xs : List α}
    (h : (out ++ xs).Pairwise (fun a b => key a < key b)) :
    copyRange key start end_ out xs =
      out ++ xs.filter (fun x => decide (key x > start) && decide (key x ≤ end_)) := by
  induction xs generalizing out with
  | nil => rw [List.filter_nil, List.append_nil, copyRange]
  | cons x xs ih =>
    have hlater : ∀ y ∈ xs, key x < key y :=
      (List.pairwise_cons.mp (List.pairwise_append.mp h).2.1).1
    unfold copyRange
    dsimp only
    by_cases hend : key x > end_
    · have hnone : (x :: xs).filter (fun x => decide (key x > start) && decide (key x ≤ end_)) = [] := by
        rw [List.filter_eq_nil_iff]
        rintro y (_ | ⟨_, hy⟩) hin
        · simp [not_le.mpr hend] at hin
        · simp [not_le.mpr (lt_trans hend (hlater y hy))] at hin
      rw [if_pos hend, if_neg (fun hin => not_le.mpr hend hin.2), hnone, List.append_nil]
    · rw [if_neg hend]
      by_cases hin : key x > start ∧ key x ≤ end_
      · have hlt : ∀ y ∈ out, key y < key x := fun y hy =>
          (List.pairwise_append.mp h).2.2 y hy x List.mem_cons_self
        rw [List.append_cons out x xs] at h
        rw [if_pos hin, add_of_lt hlt, ih h, List.filter_cons_of_pos (by simpa using hin),
          List.append_assoc, List.singleton_append]
      · have hsub : (out ++ xs).Sublist (out ++ x :: xs) :=
          (List.Sublist.refl out).append (List.sublist_cons_self x xs)
        rw [if_neg hin, ih (h.sublist hsub), List.filter_cons_of_neg (by simpa using hin)]

/-- A loop that copies elements into some set does so with the elements of the set. -/
theorem copyRange_of_loop {σ : Type*} {elements : σ → List α} {push : σ → α → σ}
    {loop : σ → List α → σ} {start end_ : κ}
    (hpush : ∀ out x, elements (push out x) = add (byKey key) (elements out) x)
    (hnil : ∀ out, loop out [] = out)
    (hcons : ∀ out x xs, loop out (x :: xs) =
      let out := if key x > start ∧ key x ≤ end_ then push out x else out
      if key x > end_ then out else loop out xs) (out : σ) (xs : List α) :
    elements (loop out xs) = copyRange key start end_ (elements out) xs := by
  induction xs generalizing out with
  | nil => rw [hnil, copyRange]
  | cons x xs ih =>
    rw [hcons, copyRange]
    dsimp only
    have hout : elements (if key x > start ∧ key x ≤ end_ then push out x else out) =
        if key x > start ∧ key x ≤ end_ then add (byKey key) (elements out) x else elements out := by
      rw [apply_ite elements, hpush]
    split
    · exact hout
    · rw [ih, hout]

end key

end lib.sorted_set
