-- The stretches of a list: its longest parts whose items stand next to each other
-- and have one mark. Items without a mark are in none of them.
import Mathlib.Data.List.Induction

namespace lib.stretch

variable {α L : Type*}

/-- A part of a list that is not empty, and the mark of its items. It starts at its first item,
or at the last one of the stretch that it takes over from. -/
structure Stretch (α L : Type*) where
  mark : L
  start : α
  first : α
  rest : List α

def Stretch.last (s : Stretch α L) : α := s.rest.getLastD s.first

@[simp] theorem Stretch.last_snoc (s : Stretch α L) (x : α) :
    Stretch.last { s with rest := s.rest ++ [x] } = x := by
  simp [Stretch.last]

/-- The stretches that are over, and the one that may still go on. -/
structure Walk (α L : Type*) where
  done : List (Stretch α L)
  current : Option (Stretch α L)

variable [DecidableEq L] (mark : α → Option L)

/-- One more item. -/
def walkOn (w : Walk α L) (x : α) : Walk α L :=
  match mark x, w.current with
  | none, none => w
  | none, some s => ⟨w.done ++ [s], none⟩
  | some l, none => ⟨w.done, some ⟨l, x, x, []⟩⟩
  | some l, some s =>
    if l = s.mark then ⟨w.done, some { s with rest := s.rest ++ [x] }⟩
    else ⟨w.done ++ [s], some ⟨l, s.last, x, []⟩⟩

section turns

variable {mark} {x : α} {l : L} {s : Stretch α L}

theorem walkOn_gap (h : mark x = none) (done : List (Stretch α L)) :
    walkOn mark ⟨done, none⟩ x = ⟨done, none⟩ := by
  simp only [walkOn, h]

theorem walkOn_end (h : mark x = none) (done : List (Stretch α L)) (s : Stretch α L) :
    walkOn mark ⟨done, some s⟩ x = ⟨done ++ [s], none⟩ := by
  simp only [walkOn, h]

theorem walkOn_start (h : mark x = some l) (done : List (Stretch α L)) :
    walkOn mark ⟨done, none⟩ x = ⟨done, some ⟨l, x, x, []⟩⟩ := by
  simp only [walkOn, h]

theorem walkOn_same (h : mark x = some s.mark) (done : List (Stretch α L)) :
    walkOn mark ⟨done, some s⟩ x = ⟨done, some { s with rest := s.rest ++ [x] }⟩ := by
  simp only [walkOn, h, if_true]

theorem walkOn_switch (h : mark x = some l) (hne : l ≠ s.mark) (done : List (Stretch α L)) :
    walkOn mark ⟨done, some s⟩ x = ⟨done ++ [s], some ⟨l, s.last, x, []⟩⟩ := by
  simp only [walkOn, h, if_neg hne]

end turns

/-- The walk along a list. -/
def walk (xs : List α) : Walk α L := xs.foldl (walkOn mark) ⟨[], none⟩

def Walk.all (w : Walk α L) : List (Stretch α L) := w.done ++ w.current.toList

def stretches (xs : List α) : List (Stretch α L) := (walk mark xs).all

end lib.stretch
