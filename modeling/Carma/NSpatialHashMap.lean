-- The spatial hash map: objects in the cells of a grid, and the search for the
-- objects that meet a given one.
import Mathlib.Algebra.Order.Floor.Ring
import Mathlib.Algebra.Order.Field.Basic
import Mathlib.Data.Finset.Union
import Mathlib.Logic.Function.Basic
import Carma.CartesianObject

open lib.boxes
open carma.cartesian_object

namespace carma.n_spatial_hash_map

/-! ## Keys -/

def maxLong : ℤ := 2 ^ 63 - 1

def minLong : ℤ := -2 ^ 63

/-- `SimpleHashStrategy`, with cells of positive size. -/
structure SimpleHashStrategy (K : Type) [LT K] [Zero K] where
  cellDims : List K
  nonempty : cellDims ≠ []
  positive : ∀ d ∈ cellDims, 0 < d

variable {K : Type} [LinearOrder K] [Field K]

section cast

variable [FloorRing K]

/-- The cast of a double to a long: toward zero, and to the nearest long when
there is none for it. -/
def toLong (x : K) : ℤ := max minLong (min maxLong (if 0 ≤ x then ⌊x⌋ else ⌈x⌉))

/-- `getKey`. The key is null when the dimensions do not match. -/
def SimpleHashStrategy.getKey (s : SimpleHashStrategy K) (point : Point K) : Option (List ℤ) :=
  if point.length ≠ s.cellDims.length then none
  else some (List.zipWith (fun x d => toLong (x / d)) point s.cellDims)

/-- The keys of the two corners of an object, one row for each dimension. It is
null when a key is. -/
def SimpleHashStrategy.getKeys (s : SimpleHashStrategy K) (obj : CartesianObject K) :
    Option (Box ℤ) := do
  let minKey ← s.getKey obj.getMinMaxCoordinates.1
  let maxKey ← s.getKey obj.getMinMaxCoordinates.2
  return minKey.zip maxKey

end cast

/-! ## The map -/

/-- The rows of bounds that the map writes to. `Arrays.copyOf` copies the outer
array only, so they are the rows of the object that came first. -/
structure SharedBounds (K Obj : Type) where
  owner : Obj
  rows : Box K

/-- `NSpatialHashMap`. A cell that was never used has no list. -/
structure NSpatialHashMap (K Obj : Type) [LT K] [Zero K] where
  spatialHashStrategy : SimpleHashStrategy K
  map : List ℤ → Option (List Obj)
  bounds : Option (SharedBounds K Obj)

def buildSpatialStructure {Obj : Type} (cellDims : SimpleHashStrategy K) : NSpatialHashMap K Obj where
  spatialHashStrategy := cellDims
  map := fun _ => none
  bounds := none

/-- The nested loops over cells, one for each dimension. They never end when one
runs up to the greatest long. -/
def forCells {σ : Type} (act : List ℤ → σ → σ) : Box ℤ → List ℤ → σ → Option σ
  | [], _, s => some s
  | (lo, hi) :: rows, iterators, s =>
    if hi = maxLong then none
    else
      (Int.range lo (hi + 1)).foldlM (fun s i => do
        let s ← forCells act rows (iterators ++ [i]) s
        -- only the innermost loop works on the cell
        if rows.isEmpty then some (act (iterators ++ [i]) s) else some s) s

section calls

variable {Obj : Type} [DecidableEq Obj]

def addToCell (obj : Obj) (key : List ℤ) (map : List ℤ → Option (List Obj)) :
    List ℤ → Option (List Obj) :=
  Function.update map key (some ((map key).getD [] ++ [obj]))

def removeFromCell (obj : Obj) (key : List ℤ) (map : List ℤ → Option (List Obj)) :
    List ℤ → Option (List Obj) :=
  match map key with
  | none => map
  | some objects => Function.update map key (some (objects.erase obj))

/-- `updateBounds`, on one row. -/
def updateRow (row minMax : K × K) : K × K :=
  (if minMax.1 < row.1 then minMax.1 else row.1, if minMax.2 > row.2 then minMax.2 else row.2)

def updateBounds (bounds : SharedBounds K Obj) (minMaxCoordinates : Point K × Point K) :
    SharedBounds K Obj :=
  { bounds with
    rows := List.zipWith updateRow bounds.rows (minMaxCoordinates.1.zip minMaxCoordinates.2) }

namespace NSpatialHashMap

def numDimensions (m : NSpatialHashMap K Obj) : ℕ := m.spatialHashStrategy.cellDims.length

variable (objects : Obj → CartesianObject K)

/-- `getBounds` of an object: the rows that the map writes to, if they are its own. -/
def getBounds (m : NSpatialHashMap K Obj) (obj : Obj) : Box K :=
  match m.bounds with
  | some bounds => if obj = bounds.owner then bounds.rows else (objects obj).ownBounds
  | none => (objects obj).ownBounds

def surrounds (m : NSpatialHashMap K Obj) (p : Point K) : Bool :=
  match m.bounds with
  | none => false
  | some bounds =>
    if p.length ≠ m.numDimensions then false else intersectsPoint bounds.rows p

variable [FloorRing K]

/-- `insert`. The answer is none when the call does not return. -/
def insert (m : NSpatialHashMap K Obj) (obj : Obj) : Option (Bool × NSpatialHashMap K Obj) :=
  if (objects obj).numDimensions ≠ m.numDimensions then some (false, m)
  else do
    let bounds := m.bounds.getD ⟨obj, (objects obj).ownBounds⟩
    let keys ← m.spatialHashStrategy.getKeys (objects obj)
    let map ← forCells (addToCell obj) keys [] m.map
    return (true, { m with
      map := map
      bounds := some (updateBounds bounds (objects obj).getMinMaxCoordinates) })

def remove (m : NSpatialHashMap K Obj) (obj : Obj) : Option (Bool × NSpatialHashMap K Obj) :=
  if m.bounds.isNone ∨ (objects obj).numDimensions ≠ m.numDimensions then some (false, m)
  else do
    let keys ← m.spatialHashStrategy.getKeys (objects obj)
    let map ← forCells (removeFromCell obj) keys [] m.map
    return (true, { m with map := map })

/-- `getCollisionsInCells`, on one cell, for an object with these bounds. -/
def collisionsInCell (m : NSpatialHashMap K Obj) (bounds : Box K) (key : List ℤ)
    (collidedObjects : Finset Obj) : Finset Obj :=
  match m.map key with
  | none => collidedObjects
  | some others => collidedObjects ∪ (others.filter fun otherObject =>
      intersects bounds (m.getBounds objects otherObject)).toFinset

/-- `getCollisions` of an object whose bounds are now `bounds`. The inner answer is
none for null. -/
def getCollisionsOf (m : NSpatialHashMap K Obj) (obj : CartesianObject K) (bounds : Box K) :
    Option (Option (Finset Obj)) :=
  if obj.numDimensions ≠ m.numDimensions then some none
  else if m.bounds.isNone then some (some ∅)
  else do
    let keys ← m.spatialHashStrategy.getKeys obj
    let collidedObjects ← forCells (m.collisionsInCell objects bounds) keys [] ∅
    return some collidedObjects

/-- `getCollisions` of an object that the map may hold. -/
def getCollisions (m : NSpatialHashMap K Obj) (obj : Obj) : Option (Option (Finset Obj)) :=
  m.getCollisionsOf objects (objects obj) (m.getBounds objects obj)

/-- `getCollisions` of a new object, which no map holds. -/
def getCollisionsOfNew (m : NSpatialHashMap K Obj) (obj : CartesianObject K) :
    Option (Option (Finset Obj)) := m.getCollisionsOf objects obj obj.ownBounds

def getCollisionsAt (m : NSpatialHashMap K Obj) (p : Point K) : Option (List Obj) :=
  if p.length ≠ m.numDimensions then none
  else if m.bounds.isNone then some []
  else
    match (m.spatialHashStrategy.getKey p).bind m.map with
    | none => some []
    | some others =>
      some (others.filter fun otherObject => intersectsPoint (m.getBounds objects otherObject) p)

end NSpatialHashMap

/-! ## Calls -/

inductive Call (Obj : Type)
  | insert (obj : Obj)
  | remove (obj : Obj)

variable [FloorRing K] (objects : Obj → CartesianObject K)

def call (m : NSpatialHashMap K Obj) : Call Obj → Option (NSpatialHashMap K Obj)
  | .insert obj => (m.insert objects obj).map (·.2)
  | .remove obj => (m.remove objects obj).map (·.2)

def afterCalls (m : NSpatialHashMap K Obj) (calls : List (Call Obj)) :
    Option (NSpatialHashMap K Obj) := calls.foldlM (call objects) m

end calls

end carma.n_spatial_hash_map
