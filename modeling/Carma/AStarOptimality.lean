-- When `AStarSolver.solve` finds a cheapest path. The heuristic is consistent, so a node
-- that comes out with the least score of all that wait has its final cost. But a better
-- score of a node that waits is written under the queue: the node is not moved up, so the
-- one at the root may not be the least any more, and a cheaper path is missed.
import Carma.AStarLaws
import Mathlib.Algebra.Order.Field.Basic

open lib.binary_heap
open lib.exact_double

namespace carma.trajectory_tree

section costs

variable {N K : Type} [DecidableEq N] [Field K] [LinearOrder K]

/-- The heuristic is a number or the positive infinity, falls along an edge by no more
than its cost, and is zero at a goal. -/
structure Consistent (costModel : ICostModel N (Dbl K)) (neighbors : N → List N) : Prop where
  above : ∀ n, (costModel.heuristic n).Above
  edge : ∀ n, ∀ m ∈ neighbors n,
    (costModel.heuristic n).le ((costModel.cost n m).add (costModel.heuristic m)) = true
  goal : ∀ n, costModel.isGoal n = true → costModel.heuristic n = .fin 0

/-- The total cost of a path. -/
def pathCost (costModel : ICostModel N (Dbl K)) : List N → Dbl K
  | a :: b :: rest => (costModel.cost a b).add (pathCost costModel (b :: rest))
  | _ => .fin 0

/-- If `neighbor` waits and gets a better score from `current`, that score is not less than
the one of the node above it in the queue. -/
def KeepsPlace (costModel : ICostModel N (Dbl K)) (s : Search N (Dbl K)) (current neighbor : N) :
    Prop :=
  ∀ g old k above score, s.gScore current = some g → s.gScore neighbor = some old →
    old.le (g.add (costModel.cost current neighbor)) = false → k ≠ 0 →
    s.openSetQueue[k]? = some neighbor → s.openSetQueue[parent k]? = some above →
    s.fScore above = some score →
    score.le ((g.add (costModel.cost current neighbor)).add (costModel.heuristic neighbor)) = true

/-- All that get a better score in a run while they wait keep their places. -/
def KeepsPlaces (costModel : ICostModel N (Dbl K)) (neighbors : N → List N) (start : N) : Prop :=
  ∀ s s₁ current, Visits costModel neighbors start s → s.poll = some (current, s₁) →
    costModel.isGoal current = false → costModel.isUnusable current = false →
    ∀ before n after s₂, neighbors current = before ++ n :: after →
      expand costModel current before s₁ = some s₂ → KeepsPlace costModel s₂ current n

end costs

/-! ## The scores of a state -/

section scores

variable {N K : Type} [DecidableEq N] [Field K] [LinearOrder K]
variable {costModel : ICostModel N (Dbl K)} {neighbors : N → List N} {start : N}

/-- A score that is there, and the top for one that is not. -/
def scoreOf (score : Option (Dbl K)) : WithTop K := (score.map Dbl.topped).getD ⊤

/-- The scores of a state are in order: they add up, and the queue is a heap of them. -/
structure Ranked (costModel : ICostModel N (Dbl K)) (start : N) (s : Search N (Dbl K)) :
    Prop where
  above : ∀ n x, s.gScore n = some x → x.Above
  sum : ∀ n x, s.gScore n = some x → s.fScore n = some (x.add (costModel.heuristic n))
  ordered : Ordered (fun n => scoreOf (s.fScore n)) s.openSetQueue
  zero : s.gScore start = some (.fin 0)
  along : ∀ n p y, s.gScore n = some y → s.cameFrom n = some p →
    ∃ x, s.gScore p = some x ∧ y = x.add (costModel.cost p n)

theorem begin_ranked : Ranked costModel start (begin costModel start) := by
  have honly : ∀ n x, (begin costModel start).gScore n = some x → n = start ∧ x = .fin 0 := by
    intro n x hx
    by_cases hn : n = start
    · subst hn
      simp only [begin, Function.update_self, Option.some.injEq] at hx
      exact ⟨rfl, hx.symm⟩
    · simp only [begin, Function.update_of_ne hn] at hx
      cases hx
  constructor
  · intro n x hx
    rw [(honly n x hx).2]
    trivial
  · intro n x hx
    obtain ⟨rfl, rfl⟩ := honly n x hx
    simp only [begin, Function.update_self]
    congr 1
    cases costModel.heuristic n <;> simp [Dbl.add]
  · intro k e above hk he
    have hlt := (List.getElem?_eq_some_iff.mp he).1
    simp only [begin, List.length_singleton] at hlt
    omega
  · simp only [begin, Function.update_self]
    rfl
  · intro n p y _ hfrom
    simp [begin] at hfrom

omit [DecidableEq N] in
/-- What the comparator says is what the scores say. -/
theorem compare_respects (fScore : N → Option (Dbl K)) :
    Respects (fun n => scoreOf (fScore n)) (compare fScore)
      (fun n => ∃ x, fScore n = some x ∧ x.Above) := by
  rintro a b ⟨x, hx, hxa⟩ ⟨y, hy, hya⟩
  unfold compare scoreOf
  simp only [hx, hy, Option.map_some, Option.getD_some]
  have hlt := Dbl.lt_iff_topped hxa hya
  constructor
  · intro h
    split at h
    · rename_i hxy
      exact le_of_lt (hlt.mp hxy)
    · omega
  · intro h
    split at h
    · omega
    · rename_i hxy
      exact not_lt.mp (fun hc => hxy (hlt.mpr hc))

omit [DecidableEq N] in
theorem waiting_above {s : Search N (Dbl K)} (hinv : Inv costModel neighbors start s)
    (hranked : Ranked costModel start s) (hh : ∀ n, (costModel.heuristic n).Above) :
    ∀ n ∈ s.openSetQueue, ∃ x, s.fScore n = some x ∧ x.Above := by
  intro n hn
  obtain ⟨x, hx⟩ := Option.isSome_iff_exists.mp ((hinv.scored n).mpr (Or.inr hn))
  exact ⟨_, hranked.sum n x hx, Dbl.add_above (hranked.above n x hx) (hh n)⟩

omit [DecidableEq N] in
theorem poll_ranked {s s' : Search N (Dbl K)} {current : N}
    (hinv : Inv costModel neighbors start s) (hranked : Ranked costModel start s)
    (hh : ∀ n, (costModel.heuristic n).Above) (hpoll : s.poll = some (current, s')) :
    Ranked costModel start s' ∧
      ∀ n ∈ s.openSetQueue, scoreOf (s.fScore current) ≤ scoreOf (s.fScore n) := by
  have hwaiting := waiting_above hinv hranked hh
  obtain ⟨hhead, -, -⟩ := poll_some hpoll
  refine ⟨?_, fun n hn => root_le _ hranked.ordered hhead hn⟩
  unfold Search.poll at hpoll
  split at hpoll
  · cases hpoll
  · rename_i c queue hheap
    obtain ⟨-, rfl⟩ := Prod.mk.inj (Option.some.inj hpoll)
    exact ⟨hranked.above, hranked.sum,
      poll_ordered _ (compare_respects s.fScore) hheap hwaiting hranked.ordered,
      hranked.zero, hranked.along⟩

/-- The new score of a neighbor adds up, if its queue is in order by the new scores. -/
theorem record_ranked {s : Search N (Dbl K)} {current neighbor : N} {g : Dbl K}
    (hinv : Inv costModel neighbors start s) (hranked : Ranked costModel start s)
    (hstart : start ∈ s.closedSet) (hcurrent : current ∈ s.closedSet) (hnew : neighbor ∉ s.closedSet)
    (hg : s.gScore current = some g) (hcost : (costModel.cost current neighbor).Above)
    {queue : List N} (hordered : Ordered (fun m => scoreOf ((s.record current neighbor
      (g.add (costModel.cost current neighbor)) (costModel.heuristic neighbor)).fScore m)) queue) :
    Ranked costModel start { s.record current neighbor (g.add (costModel.cost current neighbor))
      (costModel.heuristic neighbor) with openSetQueue := queue } := by
  have hgScore : ∀ m, m ≠ neighbor → Function.update s.gScore neighbor
      (some (g.add (costModel.cost current neighbor))) m = s.gScore m :=
    fun m hm => Function.update_of_ne hm _ _
  constructor
  · intro n x hx
    dsimp only [Search.record] at hx
    by_cases hn : n = neighbor
    · subst hn
      rw [Function.update_self] at hx
      obtain rfl := Option.some.inj hx
      exact Dbl.add_above (hranked.above current g hg) hcost
    · rw [hgScore n hn] at hx
      exact hranked.above n x hx
  · intro n x hx
    dsimp only [Search.record] at hx ⊢
    by_cases hn : n = neighbor
    · subst hn
      rw [Function.update_self] at hx ⊢
      obtain rfl := Option.some.inj hx
      rfl
    · rw [hgScore n hn] at hx
      rw [Function.update_of_ne hn]
      exact hranked.sum n x hx
  · exact hordered
  · exact (hgScore start (ne_of_mem_of_not_mem hstart hnew)).trans hranked.zero
  · intro n p y hy hfrom
    dsimp only [Search.record] at hy hfrom ⊢
    by_cases hn : n = neighbor
    · subst hn
      rw [Function.update_self] at hy hfrom
      obtain rfl := Option.some.inj hy
      obtain rfl := Option.some.inj hfrom
      exact ⟨g, (hgScore _ (ne_of_mem_of_not_mem hcurrent hnew)).trans hg, rfl⟩
    · rw [hgScore n hn] at hy
      rw [Function.update_of_ne hn] at hfrom
      have hns : n ≠ start := by
        rintro rfl
        rw [hinv.root] at hfrom
        cases hfrom
      obtain ⟨q, hq, hq', -⟩ := hinv.parent n hns (by rw [hy]; rfl)
      rw [hfrom] at hq'
      obtain rfl := Option.some.inj hq'
      rw [hgScore p (ne_of_mem_of_not_mem hq hnew)]
      exact hranked.along n p y hy hfrom

/-- What a neighbor does to the scores: none gets greater, and none that is closed changes. -/
structure Lowers (s s' : Search N (Dbl K)) : Prop where
  closed : s'.closedSet = s.closedSet
  same : ∀ n ∈ s.closedSet, s'.gScore n = s.gScore n
  le : ∀ n, scoreOf (s'.gScore n) ≤ scoreOf (s.gScore n)

theorem record_lowers {s : Search N (Dbl K)} {current neighbor : N} {t h : Dbl K}
    (hnew : neighbor ∉ s.closedSet) (hle : t.topped ≤ scoreOf (s.gScore neighbor))
    (queue : List N) : Lowers s { s.record current neighbor t h with openSetQueue := queue } := by
  constructor
  · rfl
  · intro n hn
    exact Function.update_of_ne (ne_of_mem_of_not_mem hn hnew) _ _
  · intro n
    dsimp only [Search.record]
    by_cases hn : n = neighbor
    · subst hn
      rw [Function.update_self]
      exact hle
    · rw [Function.update_of_ne hn]

/-- The edge from `x` to `m` gives `m` no better score than it has. -/
def Tight (costModel : ICostModel N (Dbl K)) (s : Search N (Dbl K)) (x m : N) : Prop :=
  m ∉ s.closedSet →
    scoreOf (s.gScore m) ≤ scoreOf (s.gScore x) + (costModel.cost x m).topped

omit [DecidableEq N] in
theorem Lowers.tight {s s' : Search N (Dbl K)} (h : Lowers s s') {x m : N} (hx : x ∈ s.closedSet)
    (htight : Tight costModel s x m) : Tight costModel s' x m := by
  intro hm
  rw [h.closed] at hm
  rw [h.same x hx]
  exact le_trans (h.le m) (htight hm)

/-- A node that is new to the queue goes to its place in it. -/
theorem offered_ordered {s : Search N (Dbl K)} {current neighbor : N} {t : Dbl K}
    (hinv : Inv costModel neighbors start s) (hranked : Ranked costModel start s)
    (hh : ∀ n, (costModel.heuristic n).Above) (hta : t.Above) (hwait : neighbor ∉ s.openSetQueue) :
    Ordered (fun m => scoreOf
        ((s.record current neighbor t (costModel.heuristic neighbor)).fScore m))
      (offer (compare (s.record current neighbor t (costModel.heuristic neighbor)).fScore)
        s.openSetQueue neighbor) := by
  have hqueue : ∀ e ∈ s.openSetQueue,
      (s.record current neighbor t (costModel.heuristic neighbor)).fScore e = s.fScore e :=
    fun e he => Function.update_of_ne (ne_of_mem_of_not_mem he hwait) _ _
  apply offer_ordered _ (compare_respects _)
  · exact ⟨_, Function.update_self _ _ _, Dbl.add_above hta (hh neighbor)⟩
  · intro e he
    rw [hqueue e he]
    exact waiting_above hinv hranked hh e he
  · intro k e above hk he habove
    dsimp only
    rw [hqueue e (List.mem_of_getElem? he), hqueue above (List.mem_of_getElem? habove)]
    exact hranked.ordered k e above hk he habove

/-- A node that gets a better score may stay where it is when it is not better than the
node above it. -/
theorem lowered_ordered [IsStrictOrderedRing K] {s : Search N (Dbl K)} (current : N) {neighbor : N}
    {t old : Dbl K} (hinv : Inv costModel neighbors start s) (hranked : Ranked costModel start s)
    (hh : ∀ n, (costModel.heuristic n).Above) (hta : t.Above)
    (hold : s.gScore neighbor = some old) (hlt : t.topped ≤ old.topped)
    (hplace : ∀ k above score, k ≠ 0 → s.openSetQueue[k]? = some neighbor →
      s.openSetQueue[parent k]? = some above → s.fScore above = some score →
      score.le (t.add (costModel.heuristic neighbor)) = true) :
    Ordered (fun m => scoreOf
      ((s.record current neighbor t (costModel.heuristic neighbor)).fScore m)) s.openSetQueue := by
  have holda : old.Above := hranked.above neighbor old hold
  apply hranked.ordered.lower (x := neighbor)
  · intro e he
    dsimp only [Search.record]
    rw [Function.update_of_ne he]
  · dsimp only [Search.record]
    rw [Function.update_self, hranked.sum neighbor old hold]
    show Dbl.topped _ ≤ Dbl.topped _
    rw [Dbl.topped_add holda (hh neighbor)]
    refine le_of_eq_of_le (Dbl.topped_add hta (hh neighbor)) ?_
    exact add_le_add_left hlt _
  · intro k above hk hn habove
    obtain ⟨score, hscore, hscorea⟩ :=
      waiting_above hinv hranked hh above (List.mem_of_getElem? habove)
    have hle := hplace k above score hk hn habove hscore
    dsimp only [Search.record]
    rw [Function.update_self, hscore]
    exact (Dbl.le_iff_topped hscorea (Dbl.add_above hta (hh neighbor))).mp hle

/-- The body of the inner loop, where the neighbor keeps its place. -/
theorem relax_ranked [IsStrictOrderedRing K] {s s' : Search N (Dbl K)} {current neighbor : N}
    (hinv : Inv costModel neighbors start s) (hranked : Ranked costModel start s)
    (hh : ∀ n, (costModel.heuristic n).Above) (hcost : (costModel.cost current neighbor).Above)
    (hstart : start ∈ s.closedSet) (hcurrent : current ∈ s.closedSet)
    (hplace : KeepsPlace costModel s current neighbor)
    (h : relax costModel s current neighbor = some s') :
    Ranked costModel start s' ∧ Lowers s s' ∧ Tight costModel s' current neighbor := by
  have hsame : Lowers s s := ⟨rfl, fun _ _ => rfl, fun _ => le_rfl⟩
  rcases relax_cases h with ⟨hin, rfl⟩ | ⟨g, hg, hout, hcases⟩
  · exact ⟨hranked, hsame, fun hout => absurd hin hout⟩
  have hga : g.Above := hranked.above current g hg
  have hta : (g.add (costModel.cost current neighbor)).Above := Dbl.add_above hga hcost
  -- after the new score is recorded the edge is tight
  have htight : ∀ queue, Tight costModel { s.record current neighbor
      (g.add (costModel.cost current neighbor)) (costModel.heuristic neighbor) with
        openSetQueue := queue } current neighbor := by
    intro queue _
    dsimp only [Search.record]
    rw [Function.update_self, Function.update_of_ne (ne_of_mem_of_not_mem hcurrent hout), hg]
    exact le_of_eq (Dbl.topped_add hga hcost)
  rcases hcases with ⟨hnone, rfl⟩ | ⟨old, hold, ⟨hle, rfl⟩ | ⟨hbetter, rfl⟩⟩
  · have hwait : neighbor ∉ s.openSetQueue := by
      intro hin
      have := (hinv.scored neighbor).mpr (Or.inr hin)
      rw [hnone] at this
      cases this
    refine ⟨record_ranked hinv hranked hstart hcurrent hout hg hcost
      (offered_ordered hinv hranked hh hta hwait), record_lowers hout ?_ _, htight _⟩
    rw [hnone]
    exact le_top
  · refine ⟨hranked, hsame, fun _ => ?_⟩
    rw [hold, hg]
    have := (Dbl.le_iff_topped (hranked.above neighbor old hold) hta).mp hle
    exact le_of_le_of_eq this (Dbl.topped_add hga hcost)
  · have holda : old.Above := hranked.above neighbor old hold
    have hlt : (g.add (costModel.cost current neighbor)).topped ≤ old.topped := by
      apply le_of_lt
      apply not_le.mp
      intro hc
      rw [← Dbl.le_iff_topped holda hta] at hc
      exact absurd (hbetter.symm.trans hc) Bool.false_ne_true
    have hlower := lowered_ordered current hinv hranked hh hta hold hlt
      (fun k above score => hplace g old k above score hg hold hbetter)
    exact ⟨record_ranked hinv hranked hstart hcurrent hout hg hcost hlower,
      record_lowers hout (by rw [hold]; exact hlt) _, htight _⟩

theorem expand_ranked [IsStrictOrderedRing K] {current : N} {ns : List N} {s s' : Search N (Dbl K)}
    (hinv : Inv costModel neighbors start s) (hranked : Ranked costModel start s)
    (hh : ∀ n, (costModel.heuristic n).Above) (hcost : ∀ a b, (costModel.cost a b).Above)
    (hstart : start ∈ s.closedSet) (hcurrent : current ∈ s.closedSet)
    (hopens : ∀ n ∈ ns, Opens costModel neighbors current n)
    (hplaces : ∀ before n after s₂, ns = before ++ n :: after →
      expand costModel current before s = some s₂ → KeepsPlace costModel s₂ current n)
    (h : expand costModel current ns s = some s') :
    Ranked costModel start s' ∧ Lowers s s' ∧ ∀ n ∈ ns, Tight costModel s' current n := by
  induction ns generalizing s with
  | nil =>
    obtain rfl := Option.some.inj h
    exact ⟨hranked, ⟨rfl, fun _ _ => rfl, fun _ => le_rfl⟩, by simp⟩
  | cons n ns ih =>
    obtain ⟨s₁, hrelax, hrest⟩ := Option.bind_eq_some_iff.mp h
    obtain ⟨hinv₁, hgrows, -⟩ := relax_inv hinv hstart hcurrent (hopens n List.mem_cons_self) hrelax
    obtain ⟨hranked₁, hlowers, htight⟩ := relax_ranked hinv hranked hh (hcost current n) hstart
      hcurrent (hplaces [] n ns s rfl rfl) hrelax
    have hplaces₁ : ∀ before m after s₂, ns = before ++ m :: after →
        expand costModel current before s₁ = some s₂ → KeepsPlace costModel s₂ current m := by
      intro before m after s₂ hns hs₂
      apply hplaces (n :: before) m after s₂ (by rw [hns, List.cons_append])
      unfold expand
      rw [hrelax]
      exact hs₂
    have hcurrent₁ : current ∈ s₁.closedSet := hgrows.closed ▸ hcurrent
    obtain ⟨hranked', hlowers', htight'⟩ := ih hinv₁ hranked₁ (hgrows.closed ▸ hstart) hcurrent₁
      (fun m hm => hopens m (List.mem_cons_of_mem n hm)) hplaces₁ hrest
    refine ⟨hranked', ⟨?_, ?_, ?_⟩, ?_⟩
    · exact hlowers'.closed.trans hlowers.closed
    · intro m hm
      exact (hlowers'.same m (hlowers.closed.symm ▸ hm)).trans (hlowers.same m hm)
    · intro m
      exact le_trans (hlowers'.le m) (hlowers.le m)
    · intro m hm
      rcases List.mem_cons.mp hm with rfl | hm
      · exact hlowers'.tight hcurrent₁ htight
      · exact htight' m hm

end scores

/-! ## The closed nodes have their final scores -/

section optimality

variable {N K : Type} [Field K] [LinearOrder K]
variable {costModel : ICostModel N (Dbl K)} {neighbors : N → List N} {start : N}

/-- A way from the start to a node, over edges out of usable nodes, and its cost. -/
inductive Way (costModel : ICostModel N (Dbl K)) (neighbors : N → List N) (start : N) :
    N → WithTop K → Prop
  | starts : Way costModel neighbors start start 0
  | goesOn {x m : N} {c : WithTop K} (hx : Way costModel neighbors start x c)
      (husable : costModel.isUnusable x = false) (hm : m ∈ neighbors x) :
      Way costModel neighbors start m (c + (costModel.cost x m).topped)

/-- No way to a closed node from which a goal can be near is cheaper than its score. -/
def Final (costModel : ICostModel N (Dbl K)) (neighbors : N → List N) (start : N)
    (s : Search N (Dbl K)) (n : N) : Prop :=
  (costModel.heuristic n).topped ≠ ⊤ → ∀ c, Way costModel neighbors start n c →
    scoreOf (s.gScore n) ≤ c

/-- The scores at the head of a round. -/
structure Best (costModel : ICostModel N (Dbl K)) (neighbors : N → List N) (start : N)
    (s : Search N (Dbl K)) : Prop extends Ranked costModel start s where
  tight : ∀ x ∈ s.closedSet, costModel.isUnusable x = false → ∀ m ∈ neighbors x,
    Tight costModel s x m
  final : ∀ n ∈ s.closedSet, Final costModel neighbors start s n

/-- The step of the frontier: along an edge to a node that is not closed. -/
theorem edge_frontier [IsStrictOrderedRing K] (hconsistent : Consistent costModel neighbors)
    (hcost : ∀ a b, (costModel.cost a b).Above) {s : Search N (Dbl K)}
    (hranked : Ranked costModel start s) {x m : N} {c y : WithTop K} (hm : m ∈ neighbors x)
    (hwait : ∃ g, s.gScore m = some g)
    (htight : scoreOf (s.gScore m) ≤ scoreOf (s.gScore x) + (costModel.cost x m).topped)
    (hfinal : (costModel.heuristic x).topped ≠ ⊤ → scoreOf (s.gScore x) ≤ c)
    (hy : y ≤ scoreOf (s.fScore m)) :
    y ≤ c + (costModel.cost x m).topped + (costModel.heuristic m).topped := by
  have hedge := (Dbl.le_iff_topped (hconsistent.above x)
    (Dbl.add_above (hcost x m) (hconsistent.above m))).mp (hconsistent.edge x m hm)
  rw [Dbl.topped_add (hcost x m) (hconsistent.above m)] at hedge
  obtain ⟨g, hg⟩ := hwait
  have hsum : scoreOf (s.fScore m) = scoreOf (s.gScore m) + (costModel.heuristic m).topped := by
    rw [hranked.sum m g hg, hg]
    exact Dbl.topped_add (hranked.above m g hg) (hconsistent.above m)
  by_cases htop : (costModel.heuristic x).topped = ⊤
  · rw [htop, top_le_iff] at hedge
    rw [add_assoc, hedge, add_top]
    exact le_top
  · calc y ≤ scoreOf (s.gScore m) + (costModel.heuristic m).topped := hsum ▸ hy
      _ ≤ scoreOf (s.gScore x) + (costModel.cost x m).topped +
          (costModel.heuristic m).topped := add_le_add_left htight _
      _ ≤ c + (costModel.cost x m).topped + (costModel.heuristic m).topped :=
        add_le_add_left (add_le_add_left (hfinal htop) _) _

/-- The node that comes out has a score that no way to a node that is not closed beats. -/
theorem frontier [IsStrictOrderedRing K] (hconsistent : Consistent costModel neighbors)
    (hcost : ∀ a b, (costModel.cost a b).Above) {s s' : Search N (Dbl K)} {current : N}
    (hinv : Inv costModel neighbors start s) (hcovered : Covered costModel neighbors s)
    (hbest : Best costModel neighbors start s) (hpoll : s.poll = some (current, s')) {v : N}
    {c : WithTop K} (hway : Way costModel neighbors start v c) :
    v ∈ s.closedSet ∨ scoreOf (s.fScore current) ≤ c + (costModel.heuristic v).topped := by
  obtain ⟨-, hleast⟩ := poll_ranked hinv hbest.toRanked hconsistent.above hpoll
  induction hway with
  | starts =>
    rcases hinv.started with hin | ⟨-, hqueue⟩
    · exact Or.inl hin
    · right
      have hstart : start ∈ s.openSetQueue := by
        rw [hqueue]
        exact List.mem_cons_self
      refine le_trans (hleast start hstart) (le_of_eq ?_)
      rw [hbest.sum start _ hbest.zero]
      exact Dbl.topped_add (a := .fin 0) trivial (hconsistent.above start)
  | @goesOn x m c hx husable hm ih =>
    by_cases hclosed : m ∈ s.closedSet
    · exact Or.inl hclosed
    · right
      rcases ih with hin | hle
      · have hfound := (hcovered x hin).2 husable m hm
        have hwait := ((hinv.scored m).mp hfound).resolve_left hclosed
        exact edge_frontier hconsistent hcost hbest.toRanked hm
          (Option.isSome_iff_exists.mp hfound) (hbest.tight x hin husable m hm hclosed)
          (fun htop => hbest.final x hin htop c hx) (hleast m hwait)
      · have hedge := (Dbl.le_iff_topped (hconsistent.above x)
          (Dbl.add_above (hcost x m) (hconsistent.above m))).mp (hconsistent.edge x m hm)
        rw [Dbl.topped_add (hcost x m) (hconsistent.above m)] at hedge
        rw [add_assoc]
        exact le_trans hle (add_le_add_right hedge c)

/-- The node that comes out has its final score. -/
theorem polled_final [IsStrictOrderedRing K] (hconsistent : Consistent costModel neighbors)
    (hcost : ∀ a b, (costModel.cost a b).Above) {s s' : Search N (Dbl K)} {current : N}
    (hinv : Inv costModel neighbors start s) (hcovered : Covered costModel neighbors s)
    (hbest : Best costModel neighbors start s) (hpoll : s.poll = some (current, s')) :
    Final costModel neighbors start s current := by
  intro htop c hway
  obtain ⟨hhead, -, -⟩ := poll_some hpoll
  obtain ⟨-, -, hfresh⟩ := poll_inv hinv hpoll
  have hle := (frontier hconsistent hcost hinv hcovered hbest hpoll hway).resolve_left hfresh
  have hwait : current ∈ s.openSetQueue := List.mem_of_mem_head? hhead
  obtain ⟨g, hg⟩ := Option.isSome_iff_exists.mp ((hinv.scored current).mpr (Or.inr hwait))
  rw [hbest.sum current g hg] at hle
  rw [hg]
  refine (WithTop.add_le_add_iff_right htop).mp (le_of_eq_of_le ?_ hle)
  exact (Dbl.topped_add (hbest.above current g hg) (hconsistent.above current)).symm

theorem poll_best [IsStrictOrderedRing K] (hconsistent : Consistent costModel neighbors)
    (hcost : ∀ a b, (costModel.cost a b).Above) {s s' : Search N (Dbl K)} {current : N}
    (hinv : Inv costModel neighbors start s) (hcovered : Covered costModel neighbors s)
    (hbest : Best costModel neighbors start s) (hpoll : s.poll = some (current, s')) :
    Ranked costModel start s' ∧ (∀ n ∈ s'.closedSet, Final costModel neighbors start s' n) ∧
      ∀ x ∈ s'.closedSet, x ≠ current → costModel.isUnusable x = false → ∀ m ∈ neighbors x,
        Tight costModel s' x m := by
  obtain ⟨hranked, -⟩ := poll_ranked hinv hbest.toRanked hconsistent.above hpoll
  have hfinal := polled_final hconsistent hcost hinv hcovered hbest hpoll
  obtain ⟨-, -, hs'⟩ := poll_some hpoll
  refine ⟨hranked, ?_, ?_⟩
  · intro n hn
    rw [hs'] at hn ⊢
    rcases List.mem_cons.mp hn with rfl | hn
    · exact hfinal
    · exact hbest.final n hn
  · intro x hx hne husable m hm hout
    rw [hs'] at hx hout ⊢
    exact hbest.tight x ((List.mem_cons.mp hx).resolve_left hne) husable m hm
      (fun hin => hout (List.mem_cons_of_mem current hin))

theorem Visits.best [DecidableEq N] [IsStrictOrderedRing K]
    (hconsistent : Consistent costModel neighbors) (hcost : ∀ a b, (costModel.cost a b).Above)
    (hplaces : KeepsPlaces costModel neighbors start) {s : Search N (Dbl K)}
    (hs : Visits costModel neighbors start s) : Best costModel neighbors start s := by
  induction hs with
  | begins => exact ⟨begin_ranked, by simp [begin], by simp [begin]⟩
  | @tosses s s' current hs hpoll hgoal hunusable ih =>
    obtain ⟨hinv, hcovered⟩ := hs.inv
    obtain ⟨hranked, hfinal, htight⟩ := poll_best hconsistent hcost hinv hcovered ih hpoll
    refine ⟨hranked, ?_, hfinal⟩
    intro x hx husable
    apply htight x hx _ husable
    rintro rfl
    rw [hunusable] at husable
    cases husable
  | @expands s s₁ s' current hs hpoll hgoal husable hexpand ih =>
    obtain ⟨hinv, hcovered⟩ := hs.inv
    obtain ⟨hranked, hfinal, htight⟩ := poll_best hconsistent hcost hinv hcovered ih hpoll
    obtain ⟨hinv₁, hstart, -⟩ := poll_inv hinv hpoll
    obtain ⟨-, -, hs₁⟩ := poll_some hpoll
    have hcurrent : current ∈ s₁.closedSet := by
      rw [hs₁]
      exact List.mem_cons_self
    have hopens : ∀ n ∈ neighbors current, Opens costModel neighbors current n :=
      fun n hn => ⟨hgoal, husable, hn⟩
    obtain ⟨hranked', hlowers, hnew⟩ := expand_ranked hinv₁ hranked hconsistent.above hcost hstart
      hcurrent hopens (hplaces s s₁ current hs hpoll hgoal husable) hexpand
    refine ⟨hranked', ?_, ?_⟩
    · intro x hx husable' m hm
      rw [hlowers.closed] at hx
      by_cases hxc : x = current
      · subst hxc
        exact hnew m hm
      · exact hlowers.tight hx (htight x hx hxc husable' m hm)
    · intro n hn htop c hway
      rw [hlowers.closed] at hn
      rw [hlowers.same n hn]
      exact hfinal n hn htop c hway

/-! ## Total costs -/

omit [LinearOrder K] in
theorem pathCost_above (hcost : ∀ a b, (costModel.cost a b).Above) (path : List N) :
    (pathCost costModel path).Above := by
  induction path with
  | nil => trivial
  | cons a rest ih =>
    cases rest with
    | nil => trivial
    | cons b rest => exact Dbl.add_above (hcost a b) ih

omit [LinearOrder K] in
theorem pathCost_cons (hcost : ∀ a b, (costModel.cost a b).Above) (a b : N) (rest : List N) :
    (pathCost costModel (a :: b :: rest)).topped =
      (costModel.cost a b).topped + (pathCost costModel (b :: rest)).topped :=
  Dbl.topped_add (hcost a b) (pathCost_above hcost (b :: rest))

theorem pathCost_snoc [IsStrictOrderedRing K] (hcost : ∀ a b, (costModel.cost a b).Above)
    (path : List N) (a b : N) : (pathCost costModel (path ++ [a, b])).topped =
      (pathCost costModel (path ++ [a])).topped + (costModel.cost a b).topped := by
  induction path with
  | nil =>
    show (pathCost costModel [a, b]).topped = (pathCost costModel [a]).topped + _
    rw [pathCost_cons hcost, add_comm]
    rfl
  | cons x rest ih =>
    cases rest with
    | nil =>
      show (pathCost costModel [x, a, b]).topped = (pathCost costModel [x, a]).topped + _
      rw [pathCost_cons hcost, pathCost_cons hcost x a [], pathCost_cons hcost]
      show _ + (_ + (0 : WithTop K)) = _ + (0 : WithTop K) + _
      rw [add_zero, add_zero]
    | cons y rest =>
      simp only [List.cons_append] at ih ⊢
      rw [pathCost_cons hcost, pathCost_cons hcost, ih, add_assoc]

/-- The way over the parents costs what the score says. -/
theorem climb_cost [IsStrictOrderedRing K] (hcost : ∀ a b, (costModel.cost a b).Above)
    {s : Search N (Dbl K)} (hranked : Ranked costModel start s) {up : List N} {b : N} {g : Dbl K}
    (hg : s.gScore b = some g) (hlast : (b :: up).getLast? = some start)
    (hchain : (b :: up).IsChain
      (fun b a => s.cameFrom b = some a ∧ Opens costModel neighbors a b)) :
    (pathCost costModel (b :: up).reverse).topped = g.topped := by
  induction up generalizing b g with
  | nil =>
    obtain rfl : b = start := Option.some.inj hlast
    rw [hranked.zero] at hg
    rw [← Option.some.inj hg]
    rfl
  | cons p up ih =>
    rw [List.isChain_cons_cons] at hchain
    obtain ⟨⟨hfrom, -⟩, hrest⟩ := hchain
    obtain ⟨x, hx, rfl⟩ := hranked.along b p g hg hfrom
    rw [List.getLast?_cons_cons] at hlast
    have hup := ih hx hlast hrest
    rw [List.reverse_cons] at hup
    rw [List.reverse_cons, List.reverse_cons, List.append_assoc]
    exact (pathCost_snoc hcost up.reverse p b).trans
      (hup ▸ (Dbl.topped_add (hranked.above p x hx) (hcost p b)).symm)

/-- A list of edges goes on from a way. -/
theorem Way.append [IsStrictOrderedRing K] (hcost : ∀ a b, (costModel.cost a b).Above)
    {path : List N} {a v : N} {c : WithTop K} (hway : Way costModel neighbors start a c)
    (hchain : (a :: path).IsChain fun a b => b ∈ neighbors a ∧ costModel.isUnusable a = false)
    (hlast : (a :: path).getLast? = some v) :
    Way costModel neighbors start v (c + (pathCost costModel (a :: path)).topped) := by
  induction path generalizing a c with
  | nil =>
    obtain rfl : a = v := Option.some.inj hlast
    show Way costModel neighbors start a (c + (0 : WithTop K))
    rwa [add_zero]
  | cons b path ih =>
    rw [List.isChain_cons_cons] at hchain
    obtain ⟨⟨hmem, husable⟩, hrest⟩ := hchain
    rw [List.getLast?_cons_cons] at hlast
    rw [pathCost_cons hcost, ← add_assoc]
    exact ih (.goesOn hway husable hmem) hrest hlast

theorem walk_way [IsStrictOrderedRing K] (hcost : ∀ a b, (costModel.cost a b).Above)
    {path : List N} (hwalk : Walk costModel neighbors start path) :
    ∃ goal, costModel.isGoal goal = true ∧
      Way costModel neighbors start goal (pathCost costModel path).topped := by
  obtain ⟨⟩ | ⟨a, rest⟩ := path
  · cases hwalk.starts
  · obtain rfl : a = start := Option.some.inj hwalk.starts
    obtain ⟨goal, hlast, hgoal⟩ := hwalk.ends
    have hway := Way.append hcost .starts hwalk.edges hlast
    rw [zero_add] at hway
    exact ⟨goal, hgoal, hway⟩

omit [LinearOrder K] in
theorem way_closed {s : Search N (Dbl K)} (hinv : Inv costModel neighbors start s)
    (hcovered : Covered costModel neighbors s) (hempty : s.openSetQueue = []) {v : N}
    {c : WithTop K} (hway : Way costModel neighbors start v c) : v ∈ s.closedSet := by
  induction hway with
  | starts =>
    rcases hinv.started with hin | ⟨-, hqueue⟩
    · exact hin
    · rw [hempty] at hqueue
      cases hqueue
  | @goesOn x m c hx husable hm ih =>
    have hfound := (hcovered x ih).2 husable m hm
    rw [hinv.scored, hempty] at hfound
    exact hfound.resolve_right List.not_mem_nil

end optimality

/-- Where costs are not negative, the heuristic is consistent and every node that gets a
better score while it waits keeps its place in the queue, the path that `solve` returns
costs no more than any way from the start to a goal. -/
theorem solve_is_optimal_where_better_scores_keep_their_places {N K : Type} [DecidableEq N]
    [Field K] [LinearOrder K] [IsStrictOrderedRing K] (costModel : ICostModel N (Dbl K))
    (neighbors : N → List N) (start : N)
    (hfinite : {n | Relation.ReflTransGen (fun a b => b ∈ neighbors a) start n}.Finite)
    (hcost : ∀ a b, Dbl.le (.fin 0) (costModel.cost a b) = true)
    (hconsistent : Consistent costModel neighbors)
    (hplaces : KeepsPlaces costModel neighbors start) :
    ∃ path bound, (∀ steps, bound ≤ steps → solve costModel neighbors start steps = some path) ∧
      ∀ other, Walk costModel neighbors start other →
        path ≠ [] ∧ (pathCost costModel path).le (pathCost costModel other) = true := by
  have habove : ∀ a b, (costModel.cost a b).Above := fun a b => Dbl.above_of_zero_le (hcost a b)
  obtain ⟨path, bound, hsolve, s, hs, hend⟩ := solve_ends costModel neighbors start hfinite
  refine ⟨path, bound, hsolve, ?_⟩
  intro other hother
  obtain ⟨goal', hgoal', hway⟩ := walk_way habove hother
  obtain ⟨hinv, hcovered⟩ := hs.inv
  have hbest := hs.best hconsistent habove hplaces
  have hopen : goal' ∉ s.closedSet := by
    intro hin
    rw [(hcovered goal' hin).1] at hgoal'
    cases hgoal'
  rcases hend with ⟨hempty, -⟩ | ⟨goal, s', up, hpoll, hgoal, rfl, -, hlast, hchain⟩
  · exact absurd (way_closed hinv hcovered hempty hway) hopen
  · refine ⟨by simp, ?_⟩
    rw [Dbl.le_iff_topped (pathCost_above habove _) (pathCost_above habove _)]
    have hle := (frontier hconsistent habove hinv hcovered hbest hpoll hway).resolve_left hopen
    obtain ⟨hhead, -, hs'⟩ := poll_some hpoll
    obtain ⟨hranked', -⟩ := poll_ranked hinv hbest.toRanked hconsistent.above hpoll
    have hwait : goal ∈ s.openSetQueue := List.mem_of_mem_head? hhead
    obtain ⟨g, hg⟩ := Option.isSome_iff_exists.mp ((hinv.scored goal).mpr (Or.inr hwait))
    have hg' : s'.gScore goal = some g := by rw [hs', hg]
    have hzero : ∀ n, costModel.isGoal n = true → (costModel.heuristic n).topped = 0 := by
      intro n hn
      rw [hconsistent.goal n hn]
      rfl
    have hf : scoreOf (s.fScore goal) = g.topped := by
      rw [hbest.sum goal g hg]
      refine (Dbl.topped_add (hbest.above goal g hg) (hconsistent.above goal)).trans ?_
      rw [hzero goal hgoal, add_zero]
    rw [hzero goal' hgoal', add_zero, hf] at hle
    rwa [climb_cost habove hranked' hg' hlast hchain]

/-! ## Where it holds, and where it fails -/

section check

variable {N K : Type} [DecidableEq N] [Field K] [LinearOrder K]

def keepsPlace (costModel : ICostModel N (Dbl K)) (s : Search N (Dbl K)) (current neighbor : N) :
    Bool :=
  match s.gScore current, s.gScore neighbor with
  | some g, some old =>
    let tentative_gScore := g.add (costModel.cost current neighbor)
    old.le tentative_gScore || (List.range s.openSetQueue.length).all fun k =>
      decide (k = 0) || decide (s.openSetQueue[k]? ≠ some neighbor) ||
        match s.openSetQueue[parent k]?.bind s.fScore with
        | some score => score.le (tentative_gScore.add (costModel.heuristic neighbor))
        | none => true
  | _, _ => true

theorem keepsPlace_of_test {costModel : ICostModel N (Dbl K)} {s : Search N (Dbl K)}
    {current neighbor : N} (h : keepsPlace costModel s current neighbor = true) :
    KeepsPlace costModel s current neighbor := by
  intro g old k above score hg hold hbetter hk hneighbor habove hscore
  unfold keepsPlace at h
  simp only [hg, hold, hbetter, Bool.false_or, List.all_eq_true, List.mem_range] at h
  have hlt : k < s.openSetQueue.length := (List.getElem?_eq_some_iff.mp hneighbor).1
  simpa [hk, hneighbor, habove, hscore] using h k hlt

/-- The test of each neighbor in the loop over the neighbors of `current`. -/
def expandKeeps (costModel : ICostModel N (Dbl K)) (current : N) :
    List N → Search N (Dbl K) → Bool
  | [], _ => true
  | neighbor :: rest, s => keepsPlace costModel s current neighbor &&
    ((relax costModel s current neighbor).map (expandKeeps costModel current rest)).getD true

theorem keepsPlace_of_expandKeeps {costModel : ICostModel N (Dbl K)} {current n : N}
    {before after : List N} {s s' : Search N (Dbl K)}
    (h : expandKeeps costModel current (before ++ n :: after) s = true)
    (hexpand : expand costModel current before s = some s') : KeepsPlace costModel s' current n := by
  induction before generalizing s with
  | nil =>
    obtain rfl := Option.some.inj hexpand
    exact keepsPlace_of_test (Bool.and_eq_true_iff.mp h).1
  | cons m before ih =>
    obtain ⟨t, hrelax, hrest⟩ := Option.bind_eq_some_iff.mp hexpand
    have hlater := (Bool.and_eq_true_iff.mp h).2
    rw [hrelax] at hlater
    exact ih hlater hrest

/-- The test of each round of the main loop. It fails where the bound on the rounds is too
low. -/
def searchKeeps (costModel : ICostModel N (Dbl K)) (neighbors : N → List N) :
    ℕ → Search N (Dbl K) → Bool
  | 0, _ => false
  | steps + 1, s =>
    match s.poll with
    | none => true
    | some (current, s) =>
      if costModel.isGoal current then true
      else if costModel.isUnusable current then searchKeeps costModel neighbors steps s
      else expandKeeps costModel current (neighbors current) s &&
        ((expand costModel current (neighbors current) s).map
          (searchKeeps costModel neighbors steps)).getD true

/-- A run that passes the test keeps the places of the nodes that wait. -/
theorem keepsPlaces_of_searchKeeps {costModel : ICostModel N (Dbl K)} {neighbors : N → List N}
    {start : N} {steps : ℕ}
    (h : searchKeeps costModel neighbors steps (begin costModel start) = true) :
    KeepsPlaces costModel neighbors start := by
  have hvisits : ∀ s, Visits costModel neighbors start s →
      ∃ steps, searchKeeps costModel neighbors steps s = true := by
    intro s hs
    induction hs with
    | begins => exact ⟨steps, h⟩
    | tosses _ hpoll hgoal hunusable ih =>
      obtain ⟨steps, hkeeps⟩ := ih
      cases steps with
      | zero => cases hkeeps
      | succ steps =>
        simp only [searchKeeps, hpoll, hgoal, hunusable, Bool.false_eq_true, if_false,
          if_true] at hkeeps
        exact ⟨steps, hkeeps⟩
    | expands _ hpoll hgoal husable hexpand ih =>
      obtain ⟨steps, hkeeps⟩ := ih
      cases steps with
      | zero => cases hkeeps
      | succ steps =>
        simp only [searchKeeps, hpoll, hgoal, husable, hexpand, Bool.false_eq_true, if_false,
          Bool.and_eq_true] at hkeeps
        exact ⟨steps, hkeeps.2⟩
  intro s s₁ current hs hpoll hgoal husable before n after s₂ hneighbors hexpand
  obtain ⟨steps, hkeeps⟩ := hvisits s hs
  cases steps with
  | zero => cases hkeeps
  | succ steps =>
    simp only [searchKeeps, hpoll, hgoal, husable, Bool.false_eq_true, if_false,
      Bool.and_eq_true] at hkeeps
    rw [hneighbors] at hkeeps
    exact keepsPlace_of_expandKeeps hkeeps.1 hexpand

end check

theorem consistent_of_no_heuristic {N K : Type} [Field K] [LinearOrder K] [IsStrictOrderedRing K]
    {costModel : ICostModel N (Dbl K)} (hcost : ∀ a b, Dbl.le (.fin 0) (costModel.cost a b) = true)
    (hnone : ∀ n, costModel.heuristic n = .fin 0) (neighbors : N → List N) :
    Consistent costModel neighbors := by
  constructor
  · intro n
    rw [hnone]
    trivial
  · intro n m _
    have habove := Dbl.above_of_zero_le (hcost n m)
    have hzero : (Dbl.fin (0 : K)).Above := trivial
    rw [hnone, hnone, Dbl.le_iff_topped hzero (Dbl.add_above habove hzero),
      Dbl.topped_add habove hzero]
    refine le_trans ((Dbl.le_iff_topped hzero habove).mp (hcost n m)) (le_of_eq ?_)
    exact (add_zero _).symm
  · exact fun n _ => hnone n

theorem reached_finite {N : Type} {neighbors : N → List N} {start : N} (nodes : List N)
    (hstart : start ∈ nodes) (hclosed : ∀ n ∈ nodes, neighbors n ⊆ nodes) :
    {n | Relation.ReflTransGen (fun a b => b ∈ neighbors a) start n}.Finite := by
  apply Set.Finite.subset (List.finite_toSet nodes)
  intro n hn
  induction hn with
  | refl => exact hstart
  | tail _ hedge ih => exact hclosed _ ih hedge

/-- The nodes 0 to 4, by their distances. -/
def places : List Node := [⟨0, 0, 0⟩, ⟨1, 0, 0⟩, ⟨2, 0, 0⟩, ⟨3, 0, 0⟩, ⟨4, 0, 0⟩]

/-- The edges of three ways: from 0 to 1, 2 and 3, from 1 to 3, and from 2 and 3 to the
goal at 4. -/
def threeWays (n : Node) : List Node :=
  match n.distance with
  | 0 => [⟨1, 0, 0⟩, ⟨2, 0, 0⟩, ⟨3, 0, 0⟩]
  | 1 => [⟨3, 0, 0⟩]
  | 2 => [⟨4, 0, 0⟩]
  | 3 => [⟨4, 0, 0⟩]
  | _ => []

def threeWaysCosts : ICostModel Node (Dbl ℚ) where
  cost a b :=
    match a.distance, b.distance with
    | 0, 2 => .fin 3
    | 0, 3 => .fin 6
    | 1, 3 => .fin 3
    | 2, 4 => .fin 5
    | _, _ => .fin 1
  heuristic _ := .fin 0
  isGoal n := n.distance = 4
  isUnusable _ := false

theorem threeWaysCosts_nonneg (a b : Node) :
    Dbl.le (.fin 0) (threeWaysCosts.cost a b) = true := by
  dsimp only [threeWaysCosts]
  split <;> decide

/-- The score of 3 falls from 6 to 4 while it waits below 2, which has 3, and the score of
4 falls from 8 to 5 at the root. The way over 1 and 3 is found for 5. -/
theorem the_cheapest_of_three_ways_is_found :
    solve threeWaysCosts threeWays ⟨0, 0, 0⟩ 9 =
        some [⟨0, 0, 0⟩, ⟨1, 0, 0⟩, ⟨3, 0, 0⟩, ⟨4, 0, 0⟩] ∧
      ∃ path bound, (∀ steps, bound ≤ steps →
          solve threeWaysCosts threeWays ⟨0, 0, 0⟩ steps = some path) ∧
        ∀ other, Walk threeWaysCosts threeWays ⟨0, 0, 0⟩ other →
          path ≠ [] ∧
            (pathCost threeWaysCosts path).le (pathCost threeWaysCosts other) = true := by
  refine ⟨by decide +kernel, ?_⟩
  have hkeeps : searchKeeps threeWaysCosts threeWays 9 (begin threeWaysCosts ⟨0, 0, 0⟩) = true := by
    decide +kernel
  exact solve_is_optimal_where_better_scores_keep_their_places threeWaysCosts threeWays ⟨0, 0, 0⟩
    (reached_finite places (by decide) (by decide)) threeWaysCosts_nonneg
    (consistent_of_no_heuristic threeWaysCosts_nonneg (fun _ => rfl) _)
    (keepsPlaces_of_searchKeeps hkeeps)

/-- The edges of a way ahead and a detour: from 0 to 1, 2 and 3, from 1 to 3, from 3 to 2
and from 2 to the goal at 4. -/
def detour (n : Node) : List Node :=
  match n.distance with
  | 0 => [⟨1, 0, 0⟩, ⟨2, 0, 0⟩, ⟨3, 0, 0⟩]
  | 1 => [⟨3, 0, 0⟩]
  | 3 => [⟨2, 0, 0⟩]
  | 2 => [⟨4, 0, 0⟩]
  | _ => []

def detourCosts : ICostModel Node (Dbl ℚ) where
  cost a b :=
    match a.distance, b.distance with
    | 0, 2 => .fin 5
    | 0, 3 => .fin 6
    | _, _ => .fin 1
  heuristic _ := .fin 0
  isGoal n := n.distance = 4
  isUnusable _ := false

theorem detourCosts_nonneg (a b : Node) : Dbl.le (.fin 0) (detourCosts.cost a b) = true := by
  dsimp only [detourCosts]
  split
  · decide
  · decide
  · decide

/-- Node 3 waits below node 2 when its score falls from 6 to 2. Node 2 comes out before it
with the score 5, so the path is the one over 2 for 6, not the one over 1, 3 and 2 for 4. -/
theorem a_better_score_in_the_queue_is_overlooked :
    {n | Relation.ReflTransGen (fun a b => b ∈ detour a) ⟨0, 0, 0⟩ n}.Finite ∧
      (∀ a b, Dbl.le (.fin 0) (detourCosts.cost a b) = true) ∧ Consistent detourCosts detour ∧
      solve detourCosts detour ⟨0, 0, 0⟩ 9 = some [⟨0, 0, 0⟩, ⟨2, 0, 0⟩, ⟨4, 0, 0⟩] ∧
      Walk detourCosts detour ⟨0, 0, 0⟩
        [⟨0, 0, 0⟩, ⟨1, 0, 0⟩, ⟨3, 0, 0⟩, ⟨2, 0, 0⟩, ⟨4, 0, 0⟩] ∧
      pathCost detourCosts [⟨0, 0, 0⟩, ⟨2, 0, 0⟩, ⟨4, 0, 0⟩] = .fin 6 ∧
      pathCost detourCosts [⟨0, 0, 0⟩, ⟨1, 0, 0⟩, ⟨3, 0, 0⟩, ⟨2, 0, 0⟩, ⟨4, 0, 0⟩] = .fin 4 := by
  refine ⟨reached_finite places (by decide) (by decide), detourCosts_nonneg,
    consistent_of_no_heuristic detourCosts_nonneg (fun _ => rfl) detour, by decide +kernel, ?_,
    by decide +kernel, by decide +kernel⟩
  exact ⟨rfl, ⟨⟨4, 0, 0⟩, rfl, rfl⟩, by decide⟩

end carma.trajectory_tree
