-- The laws of `AStarSolver.solve` that do not rest on the scores: it returns when only
-- finitely many nodes can be reached, it finds a path just when there is one, and the
-- path is one. Every node waits once, and the parent of a node was closed before it.
import Carma.AStarSolver
import Mathlib.Algebra.Field.Rat
import Mathlib.Algebra.Order.Ring.Rat
import Mathlib.Data.Set.Card
import Mathlib.Logic.Relation

open lib.binary_heap
open lib.exact_double

namespace carma.trajectory_tree

variable {N D : Type} [DecidableEq N] [Doubles D]
variable {costModel : ICostModel N D} {neighbors : N → List N} {start : N}

/-- An edge that the search goes along: out of a node that is usable and no goal. -/
def Opens (costModel : ICostModel N D) (neighbors : N → List N) (a b : N) : Prop :=
  costModel.isGoal a = false ∧ costModel.isUnusable a = false ∧ b ∈ neighbors a

/-- What the variables of `solve` keep between its steps. -/
structure Inv (costModel : ICostModel N D) (neighbors : N → List N) (start : N)
    (s : Search N D) : Prop where
  once : (s.closedSet ++ s.openSetQueue).Nodup
  scored : ∀ n, (s.gScore n).isSome ↔ n ∈ s.closedSet ∨ n ∈ s.openSetQueue
  fScored : ∀ n, (s.fScore n).isSome ↔ (s.gScore n).isSome
  root : s.cameFrom start = none
  started : start ∈ s.closedSet ∨ s.closedSet = [] ∧ s.openSetQueue = [start]
  parent : ∀ n, n ≠ start → (s.gScore n).isSome →
    ∃ p ∈ s.closedSet, s.cameFrom n = some p ∧ Opens costModel neighbors p n
  -- the closed set grows at its head, so a parent that was closed before is further on in it
  earlier : ∀ l n r, s.closedSet = l ++ n :: r → n ≠ start → ∃ p ∈ r, s.cameFrom n = some p

/-- A closed node is no goal, and if it is usable its neighbors were all found. -/
def Covered (costModel : ICostModel N D) (neighbors : N → List N) (s : Search N D) : Prop :=
  ∀ n ∈ s.closedSet, costModel.isGoal n = false ∧
    (costModel.isUnusable n = false → ∀ m ∈ neighbors n, (s.gScore m).isSome)

/-! ## One step -/

theorem begin_inv : Inv costModel neighbors start (begin costModel start) := by
  have hscored : ∀ n, ((begin costModel start).gScore n).isSome ↔ n = start := by
    intro n
    by_cases hn : n = start
    · simp [begin, hn]
    · simp [begin, hn, Function.update_of_ne]
  constructor
  · simp [begin]
  · intro n
    rw [hscored]
    simp [begin]
  · intro n
    rw [hscored]
    by_cases hn : n = start
    · simp [begin, hn]
    · simp [begin, hn, Function.update_of_ne]
  · rfl
  · exact Or.inr ⟨rfl, rfl⟩
  · intro n hn hs
    exact absurd ((hscored n).mp hs) hn
  · intro l n r h
    simp [begin] at h

omit [DecidableEq N] in
theorem poll_some {s s' : Search N D} {current : N} (h : s.poll = some (current, s')) :
    s.openSetQueue.head? = some current ∧ s.openSetQueue.Perm (current :: s'.openSetQueue) ∧
      s' = { s with openSetQueue := s'.openSetQueue, closedSet := current :: s.closedSet } := by
  unfold Search.poll at h
  split at h
  · cases h
  · rename_i c queue hpoll
    obtain ⟨rfl, rfl⟩ := Prod.mk.inj (Option.some.inj h)
    obtain ⟨hhead, hperm⟩ := poll_perm hpoll
    exact ⟨hhead, hperm, rfl⟩

omit [DecidableEq N] in
theorem poll_none {s : Search N D} (h : s.poll = none) : s.openSetQueue = [] := by
  unfold Search.poll at h
  split at h
  · rename_i hpoll
    exact poll_eq_none.mp hpoll
  · cases h

omit [DecidableEq N] in
theorem poll_inv {s s' : Search N D} {current : N} (hinv : Inv costModel neighbors start s)
    (h : s.poll = some (current, s')) :
    Inv costModel neighbors start s' ∧ start ∈ s'.closedSet ∧ current ∉ s.closedSet := by
  obtain ⟨hhead, hperm, hs'⟩ := poll_some h
  rw [hs']
  have hmem : current ∈ s.openSetQueue := hperm.mem_iff.mpr List.mem_cons_self
  have hall : (current :: s.closedSet ++ s'.openSetQueue).Perm (s.closedSet ++ s.openSetQueue) := by
    refine List.Perm.trans ?_ (List.Perm.append_left s.closedSet hperm).symm
    exact List.perm_middle.symm
  have hstarted : start ∈ current :: s.closedSet := by
    rcases hinv.started with hin | ⟨-, hqueue⟩
    · exact List.mem_cons_of_mem current hin
    · rw [hqueue] at hmem
      rw [List.mem_singleton.mp hmem]
      exact List.mem_cons_self
  have hfresh : current ∉ s.closedSet := fun hin =>
    (List.disjoint_of_nodup_append hinv.once) hin hmem
  refine ⟨?_, hstarted, hfresh⟩
  constructor
  · exact hall.nodup_iff.mpr hinv.once
  · intro n
    have := hall.mem_iff (a := n)
    rw [List.mem_append, List.mem_append] at this
    exact (hinv.scored n).trans this.symm
  · exact hinv.fScored
  · exact hinv.root
  · exact Or.inl hstarted
  · intro n hn hscored
    obtain ⟨p, hp, hfrom⟩ := hinv.parent n hn hscored
    exact ⟨p, List.mem_cons_of_mem current hp, hfrom⟩
  · intro l n r hsplit hn
    cases l with
    | nil =>
      obtain ⟨rfl, rfl⟩ := List.cons.inj hsplit
      have hscored := (hinv.scored current).mpr (Or.inr hmem)
      obtain ⟨p, hp, hfrom, -⟩ := hinv.parent current hn hscored
      exact ⟨p, hp, hfrom⟩
    | cons c l =>
      obtain ⟨-, hrest⟩ := List.cons.inj hsplit
      exact hinv.earlier l n r hrest hn

omit [DecidableEq N] [Doubles D] in
theorem mem_requeued {s : Search N D} {neighbor : N} {queue : List N}
    (hqueue : queue.Perm s.openSetQueue ∧ neighbor ∈ s.openSetQueue ∨
      queue.Perm (neighbor :: s.openSetQueue) ∧ neighbor ∉ s.openSetQueue) (n : N) :
    n ∈ queue ↔ n = neighbor ∨ n ∈ s.openSetQueue := by
  rcases hqueue with ⟨hperm, hin⟩ | ⟨hperm, -⟩
  · rw [hperm.mem_iff]
    constructor
    · exact Or.inr
    · rintro (rfl | h)
      · exact hin
      · exact h
  · rw [hperm.mem_iff, List.mem_cons]

omit [DecidableEq N] [Doubles D] in
/-- No node is twice in the queue or the closed set then. -/
theorem requeued_once {s : Search N D} {neighbor : N} {queue : List N}
    (honce : (s.closedSet ++ s.openSetQueue).Nodup) (hnew : neighbor ∉ s.closedSet)
    (hqueue : queue.Perm s.openSetQueue ∧ neighbor ∈ s.openSetQueue ∨
      queue.Perm (neighbor :: s.openSetQueue) ∧ neighbor ∉ s.openSetQueue) :
    (s.closedSet ++ queue).Nodup := by
  rcases hqueue with ⟨hperm, -⟩ | ⟨hperm, hout⟩
  · exact (List.Perm.append_left s.closedSet hperm).nodup_iff.mpr honce
  · have hcons : (neighbor :: (s.closedSet ++ s.openSetQueue)).Nodup := by
      refine List.nodup_cons.mpr ⟨?_, honce⟩
      rw [List.mem_append]
      exact not_or.mpr ⟨hnew, hout⟩
    refine List.Perm.nodup_iff ?_ |>.mpr hcons
    exact (List.Perm.append_left s.closedSet hperm).trans List.perm_middle

/-- A neighbor that gets a score for the first time, or a better one, keeps `Inv`. -/
theorem record_inv {s : Search N D} {current neighbor : N} (hinv : Inv costModel neighbors start s)
    (hstart : start ∈ s.closedSet) (hcurrent : current ∈ s.closedSet)
    (hopens : Opens costModel neighbors current neighbor) (hnew : neighbor ∉ s.closedSet) (g h : D)
    {queue : List N} (hqueue : queue.Perm s.openSetQueue ∧ neighbor ∈ s.openSetQueue ∨
      queue.Perm (neighbor :: s.openSetQueue) ∧ neighbor ∉ s.openSetQueue) :
    Inv costModel neighbors start { s.record current neighbor g h with openSetQueue := queue } := by
  have hmem := mem_requeued hqueue
  have hne : start ≠ neighbor := fun h => hnew (h ▸ hstart)
  have hsome : ∀ n, (Function.update s.gScore neighbor (some g) n).isSome ↔
      n = neighbor ∨ (s.gScore n).isSome := by
    intro n
    by_cases hn : n = neighbor
    · simp [hn]
    · simp [hn, Function.update_of_ne]
  constructor
  · show (s.closedSet ++ queue).Nodup
    exact requeued_once hinv.once hnew hqueue
  · intro n
    show (Function.update s.gScore neighbor (some g) n).isSome ↔ n ∈ s.closedSet ∨ n ∈ queue
    rw [hsome, hmem, hinv.scored n]
    exact or_left_comm
  · intro n
    show (Function.update s.fScore neighbor _ n).isSome ↔
      (Function.update s.gScore neighbor (some g) n).isSome
    rw [hsome]
    by_cases hn : n = neighbor
    · simp [hn]
    · rw [Function.update_of_ne hn, hinv.fScored]
      simp [hn]
  · show Function.update s.cameFrom neighbor (some current) start = none
    rw [Function.update_of_ne hne]
    exact hinv.root
  · exact Or.inl hstart
  · intro n hn hscored
    show ∃ p ∈ s.closedSet, Function.update s.cameFrom neighbor (some current) n = some p ∧ _
    by_cases heq : n = neighbor
    · subst heq
      rw [Function.update_self]
      exact ⟨current, hcurrent, rfl, hopens⟩
    · rw [Function.update_of_ne heq]
      rcases (hsome n).mp hscored with h | h
      · exact absurd h heq
      · exact hinv.parent n hn h
  · intro l n r hsplit hn
    show ∃ p ∈ r, Function.update s.cameFrom neighbor (some current) n = some p
    have hin : n ∈ s.closedSet := by
      rw [show s.closedSet = l ++ n :: r from hsplit]
      simp
    rw [Function.update_of_ne (ne_of_mem_of_not_mem hin hnew)]
    exact hinv.earlier l n r hsplit hn

/-- All that the body of the inner loop can do: leave all as it is, put a new neighbor
into the queue, or give one that waits a better score. -/
theorem relax_cases {s s' : Search N D} {current neighbor : N}
    (h : relax costModel s current neighbor = some s') :
    (neighbor ∈ s.closedSet ∧ s' = s) ∨
    ∃ g, s.gScore current = some g ∧ neighbor ∉ s.closedSet ∧
      ((s.gScore neighbor = none ∧ s' = (s.record current neighbor
          (Doubles.plus g (costModel.cost current neighbor))
          (costModel.heuristic neighbor)).add neighbor) ∨
      ∃ old, s.gScore neighbor = some old ∧
        ((Doubles.le old (Doubles.plus g (costModel.cost current neighbor)) = true ∧ s' = s) ∨
        (Doubles.le old (Doubles.plus g (costModel.cost current neighbor)) = false ∧
          s' = s.record current neighbor (Doubles.plus g (costModel.cost current neighbor))
            (costModel.heuristic neighbor)))) := by
  unfold relax at h
  split at h
  · rename_i hin
    exact Or.inl ⟨hin, (Option.some.inj h).symm⟩
  · rename_i hout
    split at h
    · cases h
    · rename_i g hg
      refine Or.inr ⟨g, hg, hout, ?_⟩
      dsimp only at h
      split at h
      · rename_i hnone
        exact Or.inl ⟨hnone, (Option.some.inj h).symm⟩
      · rename_i old hold
        refine Or.inr ⟨old, hold, ?_⟩
        split at h
        · rename_i hle
          exact Or.inl ⟨hle, (Option.some.inj h).symm⟩
        · rename_i hle
          exact Or.inr ⟨Bool.eq_false_iff.mpr hle, (Option.some.inj h).symm⟩

theorem relax_isSome {s : Search N D} {current : N} (h : (s.gScore current).isSome) (neighbor : N) :
    ∃ s', relax costModel s current neighbor = some s' := by
  obtain ⟨g, hg⟩ := Option.isSome_iff_exists.mp h
  unfold relax
  rw [hg]
  split
  · exact ⟨s, rfl⟩
  · dsimp only
    split
    · exact ⟨_, rfl⟩
    · split
      · exact ⟨_, rfl⟩
      · exact ⟨_, rfl⟩

/-- What the inner loop keeps while it works on the neighbors of a closed node. -/
structure Grows (s s' : Search N D) : Prop where
  closed : s'.closedSet = s.closedSet
  found : ∀ n, (s.gScore n).isSome → (s'.gScore n).isSome

omit [DecidableEq N] [Doubles D] in
theorem Grows.refl (s : Search N D) : Grows s s := ⟨rfl, fun _ => id⟩

omit [DecidableEq N] [Doubles D] in
theorem Grows.trans {s s' s'' : Search N D} (h : Grows s s') (h' : Grows s' s'') : Grows s s'' :=
  ⟨h'.closed.trans h.closed, fun n hn => h'.found n (h.found n hn)⟩

omit [DecidableEq N] in
theorem add_gScore (s : Search N D) (neighbor : N) : (s.add neighbor).gScore = s.gScore := rfl

theorem record_found {s : Search N D} {current neighbor : N} {g h : D} (n : N)
    (hn : n = neighbor ∨ (s.gScore n).isSome) :
    ((s.record current neighbor g h).gScore n).isSome := by
  show (Function.update s.gScore neighbor (some g) n).isSome
  by_cases heq : n = neighbor
  · simp [heq]
  · rw [Function.update_of_ne heq]
    exact hn.resolve_left heq

theorem relax_inv {s s' : Search N D} {current neighbor : N} (hinv : Inv costModel neighbors start s)
    (hstart : start ∈ s.closedSet) (hcurrent : current ∈ s.closedSet)
    (hopens : Opens costModel neighbors current neighbor)
    (h : relax costModel s current neighbor = some s') :
    Inv costModel neighbors start s' ∧ Grows s s' ∧ (s'.gScore neighbor).isSome := by
  rcases relax_cases h with ⟨hin, rfl⟩ | ⟨g, -, hout, ⟨hnone, rfl⟩ | ⟨old, hold, ⟨-, rfl⟩ | ⟨-, rfl⟩⟩⟩
  · exact ⟨hinv, Grows.refl _, (hinv.scored neighbor).mpr (Or.inl hin)⟩
  · have hwait : neighbor ∉ s.openSetQueue := by
      intro hin
      have := (hinv.scored neighbor).mpr (Or.inr hin)
      rw [hnone] at this
      cases this
    refine ⟨record_inv hinv hstart hcurrent hopens hout _ _ (Or.inr ⟨offer_perm _ _, hwait⟩),
      ⟨rfl, ?_⟩, ?_⟩
    · intro n hn
      rw [add_gScore]
      exact record_found n (Or.inr hn)
    · rw [add_gScore]
      exact record_found neighbor (Or.inl rfl)
  · exact ⟨hinv, Grows.refl _, by rw [hold]; rfl⟩
  · have hwait : neighbor ∈ s.openSetQueue := by
      have hfound : (s.gScore neighbor).isSome := by rw [hold]; rfl
      exact ((hinv.scored neighbor).mp hfound).resolve_left hout
    exact ⟨record_inv hinv hstart hcurrent hopens hout _ _ (Or.inl ⟨List.Perm.refl _, hwait⟩),
      ⟨rfl, fun n hn => record_found n (Or.inr hn)⟩, record_found neighbor (Or.inl rfl)⟩

/-- The inner loop does not throw, and it finds all neighbors. -/
theorem expand_inv {current : N} {ns : List N} {s : Search N D} (hinv : Inv costModel neighbors start s)
    (hstart : start ∈ s.closedSet) (hcurrent : current ∈ s.closedSet)
    (hopens : ∀ n ∈ ns, Opens costModel neighbors current n) :
    ∃ s', expand costModel current ns s = some s' ∧ Inv costModel neighbors start s' ∧ Grows s s' ∧
      ∀ n ∈ ns, (s'.gScore n).isSome := by
  induction ns generalizing s with
  | nil => exact ⟨s, rfl, hinv, Grows.refl s, by simp⟩
  | cons n ns ih =>
    have hscored := (hinv.scored current).mpr (Or.inl hcurrent)
    obtain ⟨s₁, hrelax⟩ : ∃ s', relax costModel s current n = some s' := relax_isSome hscored n
    obtain ⟨hinv₁, hgrows, hn⟩ := relax_inv hinv hstart hcurrent (hopens n List.mem_cons_self) hrelax
    obtain ⟨s', hexpand, hinv', hgrows', hns⟩ := ih hinv₁ (hgrows.closed ▸ hstart)
      (hgrows.closed ▸ hcurrent) (fun m hm => hopens m (List.mem_cons_of_mem n hm))
    refine ⟨s', ?_, hinv', hgrows.trans hgrows', ?_⟩
    · unfold expand
      rw [hrelax]
      exact hexpand
    · intro m hm
      rcases List.mem_cons.mp hm with rfl | hm
      · exact hgrows'.found m hn
      · exact hns m hm

/-! ## A run of the main loop -/

/-- The states that the main loop comes to, at the head of a round. -/
inductive Visits (costModel : ICostModel N D) (neighbors : N → List N) (start : N) :
    Search N D → Prop
  | begins : Visits costModel neighbors start (begin costModel start)
  | tosses {s s' : Search N D} {current : N} (hs : Visits costModel neighbors start s)
      (hpoll : s.poll = some (current, s')) (hgoal : costModel.isGoal current = false)
      (hunusable : costModel.isUnusable current = true) : Visits costModel neighbors start s'
  | expands {s s₁ s' : Search N D} {current : N} (hs : Visits costModel neighbors start s)
      (hpoll : s.poll = some (current, s₁)) (hgoal : costModel.isGoal current = false)
      (husable : costModel.isUnusable current = false)
      (hexpand : expand costModel current (neighbors current) s₁ = some s') :
      Visits costModel neighbors start s'

omit [DecidableEq N] in
theorem poll_covered {s s' : Search N D} {current : N} (h : s.poll = some (current, s'))
    (hcovered : Covered costModel neighbors s) (hgoal : costModel.isGoal current = false)
    (hns : costModel.isUnusable current = false → ∀ m ∈ neighbors current, (s'.gScore m).isSome) :
    Covered costModel neighbors s' := by
  obtain ⟨-, -, hs'⟩ := poll_some h
  intro n hn
  rw [hs'] at hn
  rcases List.mem_cons.mp hn with rfl | hn
  · exact ⟨hgoal, hns⟩
  · rw [hs']
    exact hcovered n hn

omit [Doubles D] in
theorem Grows.covered {s s' : Search N D} {current : N} (hgrows : Grows s s')
    (hcovered : ∀ n ∈ s.closedSet, n ≠ current → costModel.isGoal n = false ∧
      (costModel.isUnusable n = false → ∀ m ∈ neighbors n, (s.gScore m).isSome))
    (hgoal : costModel.isGoal current = false)
    (hns : ∀ m ∈ neighbors current, (s'.gScore m).isSome) : Covered costModel neighbors s' := by
  intro n hn
  rw [hgrows.closed] at hn
  by_cases heq : n = current
  · subst heq
    exact ⟨hgoal, fun _ => hns⟩
  · obtain ⟨hno, hold⟩ := hcovered n hn heq
    exact ⟨hno, fun husable m hm => hgrows.found m (hold husable m hm)⟩

/-- Every state that the main loop comes to is sound. -/
theorem Visits.inv {s : Search N D} (h : Visits costModel neighbors start s) :
    Inv costModel neighbors start s ∧ Covered costModel neighbors s := by
  induction h with
  | begins => exact ⟨begin_inv, by simp [Covered, begin]⟩
  | tosses hs hpoll hgoal hunusable ih =>
    obtain ⟨hinv, hcovered⟩ := ih
    refine ⟨(poll_inv hinv hpoll).1, poll_covered hpoll hcovered hgoal ?_⟩
    intro husable
    rw [hunusable] at husable
    cases husable
  | @expands s s₁ s' current hs hpoll hgoal husable hexpand ih =>
    obtain ⟨hinv, hcovered⟩ := ih
    obtain ⟨hinv₁, hstart, hfresh⟩ := poll_inv hinv hpoll
    obtain ⟨-, -, hs₁⟩ := poll_some hpoll
    have hcurrent : current ∈ s₁.closedSet := by
      rw [hs₁]
      exact List.mem_cons_self
    have hopens : ∀ n ∈ neighbors current, Opens costModel neighbors current n :=
      fun n hn => ⟨hgoal, husable, hn⟩
    obtain ⟨s'', hexpand', hinv', hgrows, hns⟩ := expand_inv hinv₁ hstart hcurrent hopens
    rw [hexpand] at hexpand'
    obtain rfl := Option.some.inj hexpand'
    refine ⟨hinv', hgrows.covered ?_ hgoal hns⟩
    intro n hn hne
    rw [hs₁] at hn ⊢
    exact hcovered n ((List.mem_cons.mp hn).resolve_left hne)

theorem visits_expand {s s₁ : Search N D} {current : N} (hs : Visits costModel neighbors start s)
    (hpoll : s.poll = some (current, s₁)) (hgoal : costModel.isGoal current = false)
    (husable : costModel.isUnusable current = false) :
    ∃ s', expand costModel current (neighbors current) s₁ = some s' ∧
      Visits costModel neighbors start s' ∧ s'.closedSet = current :: s.closedSet := by
  obtain ⟨hinv₁, hstart, -⟩ := poll_inv hs.inv.1 hpoll
  obtain ⟨-, -, hs₁⟩ := poll_some hpoll
  have hclosed : s₁.closedSet = current :: s.closedSet := by rw [hs₁]
  have hopens : ∀ n ∈ neighbors current, Opens costModel neighbors current n :=
    fun n hn => ⟨hgoal, husable, hn⟩
  obtain ⟨s', hexpand, -, hgrows, -⟩ := expand_inv hinv₁ hstart (hclosed ▸ List.mem_cons_self)
    hopens
  exact ⟨s', hexpand, .expands hs hpoll hgoal husable hexpand, hgrows.closed.trans hclosed⟩

/-- A search that returns does so in a state that the loop comes to, where nothing waits
or the node that comes out is a goal. -/
theorem search_ends {bound steps : ℕ} {s : Search N D} {path : List N}
    (hs : Visits costModel neighbors start s)
    (h : search costModel neighbors bound steps s = some path) :
    ∃ t, Visits costModel neighbors start t ∧ (t.openSetQueue = [] ∧ path = [] ∨
      ∃ goal t', t.poll = some (goal, t') ∧ costModel.isGoal goal = true ∧
        rebuildPath t'.cameFrom bound goal [goal] = some path) := by
  induction steps generalizing s with
  | zero => cases h
  | succ steps ih =>
    unfold search at h
    split at h
    · rename_i hpoll
      exact ⟨s, hs, Or.inl ⟨poll_none hpoll, (Option.some.inj h).symm⟩⟩
    · rename_i current s₁ hpoll
      split at h
      · rename_i hgoal
        exact ⟨s, hs, Or.inr ⟨current, s₁, hpoll, hgoal, h⟩⟩
      · rename_i hgoal
        rw [Bool.not_eq_true] at hgoal
        split at h
        · rename_i hunusable
          exact ih (.tosses hs hpoll hgoal hunusable) h
        · rename_i husable
          obtain ⟨s', hexpand, hrest⟩ := Option.bind_eq_some_iff.mp h
          exact ih (.expands hs hpoll hgoal (Bool.eq_false_iff.mpr husable) hexpand) hrest

/-! ## The way back -/

omit [DecidableEq N] [Doubles D] in
theorem closed_parent {s : Search N D} (hinv : Inv costModel neighbors start s) {l r : List N} {n : N}
    (hsplit : s.closedSet = l ++ n :: r) (hn : n ≠ start) :
    ∃ p l' r', r = l' ++ p :: r' ∧ s.closedSet = (l ++ n :: l') ++ p :: r' ∧
      s.cameFrom n = some p ∧ Opens costModel neighbors p n := by
  obtain ⟨p, hp, hfrom⟩ := hinv.earlier l n r hsplit hn
  have hscored : (s.gScore n).isSome := by
    apply (hinv.scored n).mpr (Or.inl _)
    rw [hsplit]
    simp
  obtain ⟨q, -, hq, hopens⟩ := hinv.parent n hn hscored
  rw [hfrom] at hq
  obtain rfl := Option.some.inj hq
  obtain ⟨l', r', rfl⟩ := List.append_of_mem hp
  exact ⟨p, l', r', rfl, by simp [hsplit], hfrom, hopens⟩

omit [Doubles D] in
/-- From a closed node the parents lead to the start, over nodes that were closed before. -/
theorem rebuildPath_climbs {s : Search N D} (hinv : Inv costModel neighbors start s) {l r : List N}
    {n : N} (hsplit : s.closedSet = l ++ n :: r) : ∃ up : List N,
      (∀ steps path, r.length < steps →
        rebuildPath s.cameFrom steps n path = some (path ++ up).reverse) ∧
      up.Sublist r ∧ (n :: up).getLast? = some start ∧
      (n :: up).IsChain (fun b a => s.cameFrom b = some a ∧ Opens costModel neighbors a b) := by
  induction hk : r.length using Nat.strong_induction_on generalizing l n r with
  | _ k ih =>
    by_cases hn : n = start
    · subst hn
      refine ⟨[], ?_, List.nil_sublist r, rfl, List.isChain_singleton n⟩
      intro steps path hsteps
      obtain ⟨steps, rfl⟩ := Nat.exists_eq_succ_of_ne_zero (by omega : steps ≠ 0)
      unfold rebuildPath
      rw [hinv.root, List.append_nil]
    · obtain ⟨p, l', r', rfl, hsplit', hfrom, hopens⟩ := closed_parent hinv hsplit hn
      rw [List.length_append, List.length_cons] at hk
      obtain ⟨up, hup, hsub, hlast, hchain⟩ := ih r'.length (by omega) hsplit' rfl
      refine ⟨p :: up, ?_, ?_, ?_, List.isChain_cons_cons.mpr ⟨⟨hfrom, hopens⟩, hchain⟩⟩
      · intro steps path hsteps
        obtain ⟨steps, rfl⟩ := Nat.exists_eq_succ_of_ne_zero (by omega : steps ≠ 0)
        unfold rebuildPath
        rw [hfrom]
        simpa using hup steps (path ++ [p]) (by omega)
      · exact (hsub.cons_cons p).trans (List.sublist_append_right l' (p :: r'))
      · rw [List.getLast?_cons_cons]
        exact hlast

omit [Doubles D] in
theorem closed_reached {s : Search N D} (hinv : Inv costModel neighbors start s) {n : N}
    (hn : n ∈ s.closedSet) : Relation.ReflTransGen (Opens costModel neighbors) start n := by
  obtain ⟨l, r, hsplit⟩ := List.append_of_mem hn
  clear hn
  induction hk : r.length using Nat.strong_induction_on generalizing l n r with
  | _ k ih =>
    by_cases hne : n = start
    · rw [hne]
    · obtain ⟨p, l', r', rfl, hsplit', -, hopens⟩ := closed_parent hinv hsplit hne
      rw [List.length_append, List.length_cons] at hk
      exact (ih r'.length (by omega) _ r' hsplit' rfl).tail hopens

omit [DecidableEq N] [Doubles D] in
theorem nothing_waits {s : Search N D} (hinv : Inv costModel neighbors start s)
    (hcovered : Covered costModel neighbors s) (hempty : s.openSetQueue = []) {n : N}
    (hn : Relation.ReflTransGen (Opens costModel neighbors) start n) :
    n ∈ s.closedSet ∧ costModel.isGoal n = false := by
  have hclosed : n ∈ s.closedSet := by
    induction hn with
    | refl =>
      rcases hinv.started with hin | ⟨-, hqueue⟩
      · exact hin
      · rw [hempty] at hqueue
        cases hqueue
    | tail _ hopens ih =>
      obtain ⟨-, husable, hmem⟩ := hopens
      have hfound := (hcovered _ ih).2 husable _ hmem
      rw [hinv.scored, hempty] at hfound
      exact hfound.resolve_right List.not_mem_nil
  exact ⟨hclosed, (hcovered n hclosed).1⟩

/-! ## The search returns -/

theorem closed_length_lt {R : Finset N}
    (hR : ∀ n, Relation.ReflTransGen (Opens costModel neighbors) start n → n ∈ R)
    {s s' : Search N D} {current : N} (hs : Visits costModel neighbors start s)
    (hpoll : s.poll = some (current, s')) : s.closedSet.length < R.card := by
  obtain ⟨hinv', -, -⟩ := poll_inv hs.inv.1 hpoll
  obtain ⟨-, -, hs'⟩ := poll_some hpoll
  have hnodup : s'.closedSet.Nodup := (List.nodup_append.mp hinv'.once).1
  have hsub : s'.closedSet.toFinset ⊆ R := by
    intro n hn
    exact hR n (closed_reached hinv' (List.mem_toFinset.mp hn))
  have hcard := Finset.card_le_card hsub
  rw [List.toFinset_card_of_nodup hnodup] at hcard
  have hlength : s'.closedSet.length = s.closedSet.length + 1 := by rw [hs', List.length_cons]
  omega

/-- The way back from the node that comes out of the queue. -/
theorem polled_climbs {s s' : Search N D} {current : N} (hs : Visits costModel neighbors start s)
    (hpoll : s.poll = some (current, s')) : ∃ up : List N,
      (∀ bound, s.closedSet.length < bound →
        rebuildPath s'.cameFrom bound current [current] = some (current :: up).reverse) ∧
      up.Sublist s.closedSet ∧ (current :: up).getLast? = some start ∧
      (current :: up).IsChain
        (fun b a => s'.cameFrom b = some a ∧ Opens costModel neighbors a b) := by
  obtain ⟨-, -, hs'⟩ := poll_some hpoll
  have hsplit : s'.closedSet = [] ++ current :: s.closedSet := by rw [hs', List.nil_append]
  obtain ⟨up, hup, hrest⟩ := rebuildPath_climbs (poll_inv hs.inv.1 hpoll).1 hsplit
  exact ⟨up, fun bound hbound => hup bound [current] hbound, hrest⟩

/-- Where only the nodes of a finite set can be reached, as many rounds are enough. -/
theorem search_returns {R : Finset N}
    (hR : ∀ n, Relation.ReflTransGen (Opens costModel neighbors) start n → n ∈ R) {left : ℕ}
    {s : Search N D} (hs : Visits costModel neighbors start s)
    (hleft : R.card ≤ s.closedSet.length + left) : ∃ path, ∀ bound steps, R.card ≤ bound →
      left < steps → search costModel neighbors bound steps s = some path := by
  induction left generalizing s with
  | zero =>
    refine ⟨[], fun bound steps _ hsteps => ?_⟩
    obtain ⟨steps, rfl⟩ := Nat.exists_eq_succ_of_ne_zero (Nat.ne_of_gt hsteps)
    unfold search
    split
    · rfl
    · rename_i current s₁ hpoll
      have := closed_length_lt hR hs hpoll
      omega
  | succ left ih =>
    -- one round, and then the rest
    have hround : ∀ path, (∀ bound steps, R.card ≤ bound → left < steps →
        search costModel neighbors bound (steps + 1) s = some path) →
        ∃ path, ∀ bound steps, R.card ≤ bound → left + 1 < steps →
          search costModel neighbors bound steps s = some path := by
      intro path hpath
      refine ⟨path, fun bound steps hbound hsteps => ?_⟩
      obtain ⟨steps, rfl⟩ := Nat.exists_eq_succ_of_ne_zero (by omega : steps ≠ 0)
      exact hpath bound steps hbound (by omega)
    cases hpoll : s.poll with
    | none =>
      apply hround []
      intro bound steps _ _
      simp [search, hpoll]
    | some polled =>
      obtain ⟨current, s₁⟩ := polled
      have hlt := closed_length_lt hR hs hpoll
      obtain ⟨-, -, hs₁⟩ := poll_some hpoll
      cases hgoal : costModel.isGoal current with
      | true =>
        obtain ⟨up, hup, -⟩ := polled_climbs hs hpoll
        apply hround (current :: up).reverse
        intro bound steps hbound _
        simpa [search, hpoll, hgoal] using hup bound (by omega)
      | false =>
        cases hunusable : costModel.isUnusable current with
        | true =>
          have hlength : s₁.closedSet.length = s.closedSet.length + 1 := by
            rw [hs₁, List.length_cons]
          obtain ⟨path, hpath⟩ := ih (.tosses hs hpoll hgoal hunusable) (by omega)
          apply hround path
          intro bound steps hbound hsteps
          simpa [search, hpoll, hgoal, hunusable] using hpath bound steps hbound hsteps
        | false =>
          obtain ⟨s', hexpand, hs', hclosed⟩ := visits_expand hs hpoll hgoal hunusable
          have hlength : s'.closedSet.length = s.closedSet.length + 1 := by
            rw [hclosed, List.length_cons]
          obtain ⟨path, hpath⟩ := ih hs' (by omega)
          apply hround path
          intro bound steps hbound hsteps
          simpa [search, hpoll, hgoal, hunusable, hexpand] using hpath bound steps hbound hsteps

/-- A way from the start to a goal, over edges out of usable nodes. -/
structure Walk (costModel : ICostModel N D) (neighbors : N → List N) (start : N)
    (path : List N) : Prop where
  starts : path.head? = some start
  ends : ∃ goal, path.getLast? = some goal ∧ costModel.isGoal goal = true
  edges : path.IsChain fun a b => b ∈ neighbors a ∧ costModel.isUnusable a = false

/-- A way that comes to no node twice. -/
structure Leads (costModel : ICostModel N D) (neighbors : N → List N) (start : N)
    (path : List N) : Prop extends Walk costModel neighbors start path where
  once : path.Nodup

theorem polled_leads {s s' : Search N D} {goal : N} (hs : Visits costModel neighbors start s)
    (hpoll : s.poll = some (goal, s')) (hgoal : costModel.isGoal goal = true) {up : List N}
    (hsub : up.Sublist s.closedSet) (hlast : (goal :: up).getLast? = some start)
    (hchain : (goal :: up).IsChain
      (fun b a => s'.cameFrom b = some a ∧ Opens costModel neighbors a b)) :
    Leads costModel neighbors start (goal :: up).reverse := by
  obtain ⟨hinv, -⟩ := hs.inv
  obtain ⟨-, -, hfresh⟩ := poll_inv hinv hpoll
  refine ⟨⟨?_, ?_, ?_⟩, ?_⟩
  · rw [List.head?_reverse, hlast]
  · exact ⟨goal, by rw [List.getLast?_reverse]; rfl, hgoal⟩
  · rw [List.isChain_reverse]
    apply List.IsChain.imp _ hchain
    intro b a h
    exact ⟨h.2.2.2, h.2.2.1⟩
  · rw [List.nodup_reverse, List.nodup_cons]
    have hclosed : s.closedSet.Nodup := (List.nodup_append.mp hinv.once).1
    exact ⟨fun hin => hfresh (hsub.subset hin), hclosed.sublist hsub⟩

/-- A search with enough steps comes to its end, and what it returns says how. -/
theorem solve_ends (costModel : ICostModel N D) (neighbors : N → List N) (start : N)
    (hfinite : {n | Relation.ReflTransGen (fun a b => b ∈ neighbors a) start n}.Finite) :
    ∃ path bound, (∀ steps, bound ≤ steps → solve costModel neighbors start steps = some path) ∧
      ∃ s, Visits costModel neighbors start s ∧ (s.openSetQueue = [] ∧ path = [] ∨
        ∃ goal s' up, s.poll = some (goal, s') ∧ costModel.isGoal goal = true ∧
          path = (goal :: up).reverse ∧ up.Sublist s.closedSet ∧
          (goal :: up).getLast? = some start ∧ (goal :: up).IsChain
            (fun b a => s'.cameFrom b = some a ∧ Opens costModel neighbors a b)) := by
  have hR : ∀ n, Relation.ReflTransGen (Opens costModel neighbors) start n →
      n ∈ hfinite.toFinset := by
    intro n hn
    rw [Set.Finite.mem_toFinset]
    have hedge : Opens costModel neighbors ≤ fun a b => b ∈ neighbors a :=
      fun _ _ hopens => hopens.2.2
    exact Relation.ReflTransGen.mono hedge start n hn
  have hbegins : Visits costModel neighbors start (begin costModel start) := .begins
  have hleft : hfinite.toFinset.card ≤
      (begin costModel start).closedSet.length + hfinite.toFinset.card := by omega
  obtain ⟨path, hpath⟩ := search_returns hR hbegins hleft
  have hsolve : ∀ steps, hfinite.toFinset.card + 1 ≤ steps →
      solve costModel neighbors start steps = some path :=
    fun steps hsteps => hpath steps steps (by omega) (by omega)
  refine ⟨path, hfinite.toFinset.card + 1, hsolve, ?_⟩
  obtain ⟨s, hs, hend⟩ := search_ends hbegins (hsolve _ le_rfl)
  refine ⟨s, hs, ?_⟩
  rcases hend with hempty | ⟨goal, s', hpoll, hgoal, hback⟩
  · exact Or.inl hempty
  · have hlt := closed_length_lt hR hs hpoll
    obtain ⟨up, hup, hrest⟩ := polled_climbs hs hpoll
    rw [hup _ (by omega)] at hback
    exact Or.inr ⟨goal, s', up, hpoll, hgoal, (Option.some.inj hback).symm, hrest⟩

/-- `solve` returns whenever only finitely many nodes can be reached. The list is empty
just when no goal can be reached over usable nodes, and leads to one otherwise. -/
theorem solve_finds_a_path_just_when_there_is_one (costModel : ICostModel N D)
    (neighbors : N → List N) (start : N)
    (hfinite : {n | Relation.ReflTransGen (fun a b => b ∈ neighbors a) start n}.Finite) :
    ∃ path bound, (∀ steps, bound ≤ steps → solve costModel neighbors start steps = some path) ∧
      (path = [] ↔ ¬ ∃ n, costModel.isGoal n = true ∧
        Relation.ReflTransGen (Opens costModel neighbors) start n) ∧
      (path ≠ [] → Leads costModel neighbors start path) := by
  obtain ⟨path, bound, hsolve, s, hs, hend⟩ := solve_ends costModel neighbors start hfinite
  refine ⟨path, bound, hsolve, ?_⟩
  obtain ⟨hinv, hcovered⟩ := hs.inv
  rcases hend with ⟨hempty, rfl⟩ | ⟨goal, s', up, hpoll, hgoal, rfl, hsub, hlast, hchain⟩
  · constructor
    · refine iff_of_true rfl ?_
      rintro ⟨n, hn, hreach⟩
      rw [(nothing_waits hinv hcovered hempty hreach).2] at hn
      cases hn
    · exact fun hne => absurd rfl hne
  · constructor
    · refine iff_of_false (by simp) (not_not.mpr ⟨goal, hgoal, ?_⟩)
      obtain ⟨hinv', -, -⟩ := poll_inv hinv hpoll
      obtain ⟨-, -, hs'⟩ := poll_some hpoll
      apply closed_reached hinv'
      rw [hs']
      exact List.mem_cons_self
    · exact fun _ => polled_leads hs hpoll hgoal hsub hlast hchain

/-- The two ways from 0 to 3 of four nodes, and one node that is not usable. -/
def fourNodes : ICostModel ℕ (Dbl ℚ) where
  cost := fun a b => .fin (a + b)
  heuristic := fun _ => .inf false
  isGoal := fun n => n = 3
  isUnusable := fun n => n = 1

/-- Four nodes in a ring are finitely many. -/
theorem a_path_around_a_ring_is_found :
    ∃ path bound, (∀ steps, bound ≤ steps →
        solve fourNodes (fun n => [(n + 1) % 4, (n + 2) % 4]) 0 steps = some path) ∧
      (path = [] ↔ ¬ ∃ n, fourNodes.isGoal n = true ∧
        Relation.ReflTransGen (Opens fourNodes (fun n => [(n + 1) % 4, (n + 2) % 4])) 0 n) ∧
      (path ≠ [] → Leads fourNodes (fun n => [(n + 1) % 4, (n + 2) % 4]) 0 path) := by
  apply solve_finds_a_path_just_when_there_is_one
  apply Set.Finite.subset (Set.finite_lt_nat 4)
  intro n hn
  rcases Relation.ReflTransGen.cases_tail hn with rfl | ⟨m, -, hm⟩
  · exact Nat.zero_lt_succ 3
  · rcases List.mem_pair.mp hm with rfl | rfl
    · exact Nat.mod_lt _ (by omega)
    · exact Nat.mod_lt _ (by omega)

example : solve fourNodes (fun n => [(n + 1) % 4, (n + 2) % 4]) 0 9 = some [0, 2, 3] := by
  decide +kernel

end carma.trajectory_tree
