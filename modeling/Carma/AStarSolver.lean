-- `AStarSolver.java`, `ICostModel.java` and `Node.java` of the signal plugin: the search
-- for a cheapest path. A node is a distance, a time and a speed in whole units, but the
-- search only asks whether two nodes are equal, so it is over any type of nodes. Of Java's
-- doubles it uses a sum and two comparisons, so it is over any type that has these.
import Carma.Lib.BinaryHeap
import Carma.Lib.ExactDouble
import Mathlib.Logic.Function.Basic

open lib.binary_heap
open lib.exact_double

namespace carma.trajectory_tree

/-- A `Node`, in internal units: meters, seconds, and meters in a second. -/
structure Node where
  distance : ℤ
  time : ℤ
  speed : ℤ
deriving DecidableEq

/-- What the search does with doubles: `0.0`, `a + b`, `a < b` and `a <= b`. -/
class Doubles (D : Type) where
  zero : D
  plus : D → D → D
  lt : D → D → Bool
  le : D → D → Bool

instance {K : Type} [Field K] [LinearOrder K] : Doubles (Dbl K) where
  zero := .fin 0
  plus := Dbl.add
  lt := Dbl.lt
  le := Dbl.le

structure ICostModel (N D : Type) where
  cost : N → N → D
  heuristic : N → D
  isGoal : N → Bool
  isUnusable : N → Bool

/-- The local variables of `solve`. The closed set is a list, the node that was visited
last is its head. -/
structure Search (N D : Type) where
  closedSet : List N
  cameFrom : N → Option N
  gScore : N → Option D
  fScore : N → Option D
  openSetQueue : List N

variable {N D : Type} [DecidableEq N] [Doubles D]

/-- The comparator of the queue. It reads the scores as they are at the time of a call,
and a node in the queue always has one (`Inv.scored`, `Inv.fScored`). -/
def compare (fScore : N → Option D) (n1 n2 : N) : ℤ :=
  match fScore n1, fScore n2 with
  | some f1, some f2 => if Doubles.lt f1 f2 then -1 else 1
  | _, _ => 1

namespace Search

/-- `openSetQueue.poll()`, and the node that comes out is closed. -/
def poll (s : Search N D) : Option (N × Search N D) :=
  match lib.binary_heap.poll (compare s.fScore) s.openSetQueue with
  | none => none
  | some (current, openSetQueue) =>
    some (current, { s with openSetQueue, closedSet := current :: s.closedSet })

/-- The best path so far to a neighbor is through `current`. -/
def record (s : Search N D) (current neighbor : N) (tentative_gScore hScore : D) : Search N D :=
  { s with
    cameFrom := Function.update s.cameFrom neighbor (some current)
    gScore := Function.update s.gScore neighbor (some tentative_gScore)
    fScore := Function.update s.fScore neighbor (some (Doubles.plus tentative_gScore hScore)) }

/-- `openSetQueue.add(neighbor)`. -/
def add (s : Search N D) (neighbor : N) : Search N D :=
  { s with openSetQueue := offer (compare s.fScore) s.openSetQueue neighbor }

end Search

section solver

variable (costModel : ICostModel N D) (neighbors : N → List N)

/-- The body of the loop over the neighbors of `current`. None where Java throws, for the
score of `current` is read without a look whether it is there. -/
def relax (s : Search N D) (current neighbor : N) : Option (Search N D) :=
  if neighbor ∈ s.closedSet then some s
  else
    match s.gScore current with
    | none => none
    | some g =>
      let tentative_gScore := Doubles.plus g (costModel.cost current neighbor)
      let best := s.record current neighbor tentative_gScore (costModel.heuristic neighbor)
      match s.gScore neighbor with
      | none => some (best.add neighbor)
      | some neighborGScore =>
        -- a node that waits already is not put into the queue again, nor moved in it
        if Doubles.le neighborGScore tentative_gScore then some s else some best

/-- The loop over the neighbors of `current`. -/
def expand (current : N) : List N → Search N D → Option (Search N D)
  | [], s => some s
  | neighbor :: rest, s => (relax costModel s current neighbor).bind (expand current rest)

/-- The loop of `rebuildPath`, with the path from the goal on. The first argument bounds
the steps. -/
def rebuildPath (cameFrom : N → Option N) : ℕ → N → List N → Option (List N)
  | 0, _, _ => none
  | steps + 1, current, path =>
    match cameFrom current with
    | none => some path.reverse
    | some p => rebuildPath cameFrom steps p (path ++ [p])

/-- The main loop of `solve`. -/
def search (bound : ℕ) : ℕ → Search N D → Option (List N)
  | 0, _ => none
  | steps + 1, s =>
    match s.poll with
    | none => some []
    | some (current, s) =>
      if costModel.isGoal current then rebuildPath s.cameFrom bound current [current]
      else if costModel.isUnusable current then search bound steps s
      else (expand costModel current (neighbors current) s).bind (search bound steps)

/-- The variables before the first round. -/
def begin (start : N) : Search N D where
  closedSet := []
  cameFrom := fun _ => none
  gScore := Function.update (fun _ => none) start (some Doubles.zero)
  fScore := Function.update (fun _ => none) start (some (costModel.heuristic start))
  openSetQueue := [start]

/-- `solve`, with a bound on the rounds of its loops: none where the bound is too low. -/
def solve (start : N) (steps : ℕ) : Option (List N) :=
  search costModel neighbors steps steps (begin costModel start)

end solver

end carma.trajectory_tree
