-- A sorted map, as java.util.TreeMap: its entries in the order of their keys, each key once. A
-- new value for a key takes the place of the old one.
import Mathlib.Data.List.Pairwise
import Mathlib.Order.Lattice

namespace lib.sorted_map

variable {κ V : Type*} [LinearOrder κ]

def put (key : κ) (value : V) : List (κ × V) → List (κ × V)
  | [] => [(key, value)]
  | e :: es =>
    if key < e.1 then (key, value) :: e :: es
    else if key = e.1 then (key, value) :: es
    else e :: put key value es

/-- `floorEntry`: the last entry that is not past a key. -/
def floorEntry (key : κ) (es : List (κ × V)) : Option (κ × V) :=
  (es.filter fun e => decide (e.1 ≤ key)).getLast?

/-- `ceilingEntry`: the first entry that is not before a key. -/
def ceilingEntry (key : κ) (es : List (κ × V)) : Option (κ × V) := es.find? fun e => decide (key ≤ e.1)

theorem mem_put {key : κ} {value : V} {es : List (κ × V)} {e : κ × V} (h : e ∈ put key value es) :
    e = (key, value) ∨ e ∈ es := by
  induction es with
  | nil => exact Or.inl (List.mem_singleton.mp h)
  | cons first es ih =>
    unfold put at h
    split_ifs at h with hlt heq
    · exact List.mem_cons.mp h
    · exact (List.mem_cons.mp h).imp_right (List.mem_cons_of_mem first)
    · rcases List.mem_cons.mp h with rfl | h
      · exact Or.inr List.mem_cons_self
      · exact (ih h).imp_right (List.mem_cons_of_mem first)

theorem put_pairwise {es : List (κ × V)} (h : es.Pairwise (fun a b => a.1 < b.1)) (key : κ)
    (value : V) : (put key value es).Pairwise (fun a b => a.1 < b.1) := by
  induction es with
  | nil => exact List.pairwise_singleton _ _
  | cons first es ih =>
    rw [List.pairwise_cons] at h
    unfold put
    split_ifs with hlt heq
    · refine List.pairwise_cons.mpr ⟨?_, List.pairwise_cons.mpr h⟩
      exact List.forall_mem_cons.mpr ⟨hlt, fun e he => hlt.trans (h.1 e he)⟩
    · exact List.pairwise_cons.mpr ⟨fun e he => heq ▸ h.1 e he, h.2⟩
    · refine List.pairwise_cons.mpr ⟨fun e he => ?_, ih h.2⟩
      rcases mem_put he with rfl | he
      · exact lt_of_le_of_ne (not_lt.mp hlt) (Ne.symm heq)
      · exact h.1 e he

/-- Between the keys of two entries in a row, these two are the neighbours. -/
theorem floor_ceiling_between {before after : List (κ × V)} {f c : κ × V} {key : κ}
    (h : (before ++ f :: c :: after).Pairwise (fun a b => a.1 < b.1)) (hf : f.1 ≤ key)
    (hc : key < c.1) :
    floorEntry key (before ++ f :: c :: after) = some f ∧
      (f.1 < key → ceilingEntry key (before ++ f :: c :: after) = some c) := by
  rw [List.pairwise_append, List.pairwise_cons, List.pairwise_cons] at h
  obtain ⟨-, ⟨-, hlater, -⟩, hbefore⟩ := h
  constructor
  · have hnone : (c :: after).filter (fun e => decide (e.1 ≤ key)) = [] := by
      rw [List.filter_eq_nil_iff]
      rintro e (_ | ⟨_, he⟩) hle
      · exact not_le.mpr hc (of_decide_eq_true hle)
      · exact not_le.mpr (hc.trans (hlater e he)) (of_decide_eq_true hle)
    unfold floorEntry
    rw [List.filter_append, List.filter_cons_of_pos (by simpa using hf), hnone,
      List.getLast?_concat]
  · intro hlt
    have hnone : before.find? (fun e => decide (key ≤ e.1)) = none := by
      rw [List.find?_eq_none]
      intro e he hle
      exact not_le.mpr ((hbefore e he f List.mem_cons_self).trans hlt) (of_decide_eq_true hle)
    unfold ceilingEntry
    rw [List.find?_append, hnone, Option.none_or, List.find?_cons_of_neg (by simpa using hlt),
      List.find?_cons_of_pos (by simpa using hc.le)]

end lib.sorted_map
