-- What the parts of the spatial hash map do: the keys keep the order of the
-- points, and the loops work once on each cell of the box of keys.
import Mathlib.Data.Int.ConditionallyCompleteOrder
import Mathlib.Data.List.Count
import Carma.NSpatialHashMap

open lib.boxes
open carma.cartesian_object

namespace carma.n_spatial_hash_map

variable {K : Type} [LinearOrder K] [Field K] [FloorRing K]

/-! ## Keys -/

/-- The cast keeps the order, also from the negative numbers to the others. -/
theorem toLong_mono : Monotone (toLong : K → ℤ) := by
  intro x y hxy
  refine max_le_max (le_refl _) (min_le_min (le_refl _) ?_)
  split
  · rename_i hx
    rw [if_pos (hx.trans hxy)]
    exact Int.floor_mono hxy
  · rename_i hx
    rw [not_le] at hx
    split
    · rename_i hy
      exact (Int.ceil_le.mpr (by simpa using hx.le)).trans (Int.floor_nonneg.mpr hy)
    · exact Int.ceil_mono hxy

/-- The key in each dimension, as a function of the value. -/
def keyOf (s : SimpleHashStrategy K) : List (K → ℤ) :=
  s.cellDims.map fun d x => toLong (x / d)

/-- The box of the keys of an object. -/
def keyBox (s : SimpleHashStrategy K) (obj : CartesianObject K) : Box ℤ :=
  image (keyOf s) obj.ownBounds

theorem corner_keys (dims : List K) (b : Box K) :
    (List.zipWith (fun x d => toLong (x / d)) (b.map (·.1)) dims).zip
      (List.zipWith (fun x d => toLong (x / d)) (b.map (·.2)) dims) =
        image (dims.map fun d x => toLong (x / d)) b := by
  induction b generalizing dims with
  | nil =>
    unfold image
    rw [List.zipWith_nil_right]
    rfl
  | cons r b ih =>
    cases dims with
    | nil => rfl
    | cons d dims => exact congrArg _ (ih dims)

theorem getKeys_eq {s : SimpleHashStrategy K} {obj : CartesianObject K}
    (h : obj.numDimensions = s.cellDims.length) : s.getKeys obj = some (keyBox s obj) := by
  have hlen : ∀ f : K × K → K, ¬ (obj.ownBounds.map f).length ≠ s.cellDims.length := by
    intro f
    rw [List.length_map, obj.ownBounds_length, h]
    exact fun hne => hne rfl
  unfold SimpleHashStrategy.getKeys SimpleHashStrategy.getKey CartesianObject.getMinMaxCoordinates
  rw [if_neg (hlen _), if_neg (hlen _)]
  exact congrArg some (corner_keys _ _)

theorem keyBox_ne_nil {s : SimpleHashStrategy K} {obj : CartesianObject K}
    (h : obj.numDimensions = s.cellDims.length) : keyBox s obj ≠ [] := by
  have hdims : 0 < s.cellDims.length := List.length_pos_of_ne_nil s.nonempty
  have hlen : (keyBox s obj).length = s.cellDims.length := by
    unfold keyBox image keyOf
    rw [List.length_zipWith, List.length_map, obj.ownBounds_length, h, min_self]
  rw [← hlen] at hdims
  exact List.ne_nil_of_length_pos hdims

section ordered

variable [IsStrictOrderedRing K]

theorem keyOf_mono (s : SimpleHashStrategy K) : ∀ f ∈ keyOf s, Monotone f := by
  intro f hf
  obtain ⟨d, hd, rfl⟩ := List.mem_map.mp hf
  intro x y hxy
  exact toLong_mono (div_le_div_of_nonneg_right hxy (s.positive d hd).le)

theorem keyBox_proper (s : SimpleHashStrategy K) (obj : CartesianObject K) :
    Proper (keyBox s obj) := image_proper (keyOf_mono s) obj.ownBounds_proper

theorem keys_meet (s : SimpleHashStrategy K) {obj obj' : CartesianObject K}
    (h : Meets obj.ownBounds obj'.ownBounds) : Meets (keyBox s obj) (keyBox s obj') :=
  meets_image (keyOf_mono s) h

end ordered

/-! ## Loops -/

/-- No loop runs up to the greatest long. -/
def Ends (rows : Box ℤ) : Prop := ∀ r ∈ rows, r.2 ≠ maxLong

instance (rows : Box ℤ) : Decidable (Ends rows) :=
  inferInstanceAs (Decidable (∀ r ∈ rows, r.2 ≠ maxLong))

theorem ends_cons {lo hi : ℤ} {rows : Box ℤ} :
    Ends ((lo, hi) :: rows) ↔ hi ≠ maxLong ∧ Ends rows := List.forall_mem_cons

theorem forCells_cons {σ : Type} (act : List ℤ → σ → σ) {lo hi : ℤ} (h : hi ≠ maxLong)
    (rows : Box ℤ) (iterators : List ℤ) (s : σ) :
    forCells act ((lo, hi) :: rows) iterators s =
      (Int.range lo (hi + 1)).foldlM (fun s i => do
        let s ← forCells act rows (iterators ++ [i]) s
        if rows.isEmpty then some (act (iterators ++ [i]) s) else some s) s := by
  rw [forCells, if_neg h]

theorem forCells_ends {σ : Type} (act : List ℤ → σ → σ) {rows : Box ℤ} (hne : rows ≠ [])
    (hends : Ends rows) (iterators : List ℤ) (s : σ) :
    forCells act rows iterators s =
      some ((cells rows).foldl (fun s key => act (iterators ++ key) s) s) := by
  induction rows generalizing iterators s with
  | nil => exact absurd rfl hne
  | cons r rows ih =>
    obtain ⟨lo, hi⟩ := r
    obtain ⟨hhi, hrows⟩ := ends_cons.mp hends
    rw [forCells_cons act hhi]
    unfold cells
    rw [List.foldl_flatMap]
    refine Eq.trans ?_ List.foldlM_pure
    refine congrArg (fun f => List.foldlM f s (Int.range lo (hi + 1))) ?_
    funext s i
    rw [List.foldl_map]
    cases rows with
    | nil => rfl
    | cons r rows =>
      rw [ih (List.cons_ne_nil _ _) hrows]
      simp [List.append_assoc]

/-- If a loop does not end, nothing comes back. -/
theorem forCells_endless {σ : Type} (act : List ℤ → σ → σ) {rows : Box ℤ} (hproper : Proper rows)
    (hends : ¬ Ends rows) (iterators : List ℤ) (s : σ) : forCells act rows iterators s = none := by
  induction rows generalizing iterators s with
  | nil => exact absurd (fun r hr => absurd hr List.not_mem_nil) hends
  | cons r rows ih =>
    obtain ⟨lo, hi⟩ := r
    obtain ⟨hle, hproper⟩ := List.forall_mem_cons.mp hproper
    by_cases hhi : hi = maxLong
    · rw [forCells, if_pos hhi]
    · rw [ends_cons, not_and] at hends
      rw [forCells_cons act hhi]
      -- the outer loop has a first turn, and it does not come back
      have hfirst : lo ∈ Int.range lo (hi + 1) :=
        Int.mem_range_iff.mpr ⟨le_refl _, Int.lt_add_one_of_le hle⟩
      obtain ⟨i, is, hrange⟩ := List.exists_cons_of_ne_nil (List.ne_nil_of_mem hfirst)
      rw [hrange, List.foldlM_cons, ih hproper (hends hhi)]
      rfl

/-! ## Cells -/

variable {Obj : Type}

theorem addToCells_at (obj : Obj) {keys : List (List ℤ)} (hnodup : keys.Nodup)
    (map : List ℤ → Option (List Obj)) (key : List ℤ) :
    (keys.foldl (fun map key => addToCell obj key map) map key).getD [] =
      if key ∈ keys then (map key).getD [] ++ [obj] else (map key).getD [] := by
  induction keys generalizing map with
  | nil => rfl
  | cons k keys ih =>
    obtain ⟨hk, hnodup⟩ := List.nodup_cons.mp hnodup
    rw [List.foldl_cons, ih hnodup]
    unfold addToCell
    by_cases hkey : key = k
    · subst hkey
      simp [hk]
    · simp [hkey]

variable [DecidableEq Obj]

theorem removeFromCell_at (obj : Obj) (k : List ℤ) (map : List ℤ → Option (List Obj))
    (key : List ℤ) :
    (removeFromCell obj k map key).getD [] =
      if key = k then ((map key).getD []).erase obj else (map key).getD [] := by
  unfold removeFromCell
  by_cases hkey : key = k
  · subst hkey
    cases hmap : map key with
    | none => simp [hmap]
    | some os => simp
  · rw [if_neg hkey]
    cases map k with
    | none => rfl
    | some os => exact congrArg (Option.getD · []) (Function.update_of_ne hkey _ _)

theorem removeFromCells_at (obj : Obj) {keys : List (List ℤ)} (hnodup : keys.Nodup)
    (map : List ℤ → Option (List Obj)) (key : List ℤ) :
    (keys.foldl (fun map key => removeFromCell obj key map) map key).getD [] =
      if key ∈ keys then ((map key).getD []).erase obj else (map key).getD [] := by
  induction keys generalizing map with
  | nil => rfl
  | cons k keys ih =>
    obtain ⟨hk, hnodup⟩ := List.nodup_cons.mp hnodup
    rw [List.foldl_cons, ih hnodup, removeFromCell_at]
    by_cases hkey : key = k
    · subst hkey
      simp [hk]
    · simp [hkey]

omit [FloorRing K] in
theorem mem_collisionsInCells (objects : Obj → CartesianObject K) (m : NSpatialHashMap K Obj)
    (bounds : Box K) (r : Obj) (keys : List (List ℤ)) (collidedObjects : Finset Obj) :
    r ∈ keys.foldl (fun c key => m.collisionsInCell objects bounds key c) collidedObjects ↔
      r ∈ collidedObjects ∨ ∃ key ∈ keys, r ∈ (m.map key).getD [] ∧
        intersects bounds (m.getBounds objects r) = true := by
  induction keys generalizing collidedObjects with
  | nil => simp
  | cons k keys ih =>
    rw [List.foldl_cons, ih, List.exists_mem_cons_iff, ← or_assoc]
    refine or_congr_left ?_
    unfold NSpatialHashMap.collisionsInCell
    split
    · rename_i hnone
      simp [hnone]
    · rename_i others hsome
      simp [hsome]

omit [FloorRing K] [Field K] [DecidableEq Obj] in
/-- The bounds of the map are widened to the smallest box around them and the object. -/
theorem updateBounds_eq (bounds : SharedBounds K Obj) (obj : CartesianObject K) :
    updateBounds bounds obj.getMinMaxCoordinates =
      { bounds with rows := around bounds.rows obj.ownBounds } := by
  have hrow : (updateRow : K × K → K × K → K × K) = fun r s => (min r.1 s.1, max r.2 s.2) := by
    funext r s
    unfold updateRow
    rw [min_comm, min_def_lt, max_def_lt]
  unfold updateBounds around
  rw [CartesianObject.corners_zip, hrow]

/-! ## Calls -/

section returns

variable {objects : Obj → CartesianObject K} {m : NSpatialHashMap K Obj} {obj : Obj}

omit [DecidableEq Obj] in
theorem insert_ends (hdim : (objects obj).numDimensions = m.numDimensions)
    (hends : Ends (keyBox m.spatialHashStrategy (objects obj))) :
    m.insert objects obj = some (true, { m with
      map := (cells (keyBox m.spatialHashStrategy (objects obj))).foldl
        (fun map key => addToCell obj key map) m.map
      bounds := some (updateBounds (m.bounds.getD ⟨obj, (objects obj).ownBounds⟩)
        (objects obj).getMinMaxCoordinates) }) := by
  unfold NSpatialHashMap.insert
  rw [if_neg (not_not_intro hdim), getKeys_eq hdim]
  simp only [Option.bind_eq_bind, Option.bind_some, forCells_ends _ (keyBox_ne_nil hdim) hends,
    List.nil_append]
  rfl

omit [DecidableEq Obj] in
theorem insert_strategy {m' : NSpatialHashMap K Obj} {answer : Bool}
    (h : m.insert objects obj = some (answer, m')) :
    m'.spatialHashStrategy = m.spatialHashStrategy := by
  unfold NSpatialHashMap.insert at h
  split at h
  · rw [← (Prod.mk.inj (Option.some.inj h)).2]
  · obtain ⟨keys, -, h⟩ := Option.bind_eq_some_iff.mp h
    obtain ⟨map, -, h⟩ := Option.bind_eq_some_iff.mp h
    rw [← (Prod.mk.inj (Option.some.inj h)).2]

omit [DecidableEq Obj] in
/-- An insert that comes back widens the bounds. -/
theorem insert_bounds {m' : NSpatialHashMap K Obj} {answer : Bool}
    (hdim : (objects obj).numDimensions = m.numDimensions)
    (h : m.insert objects obj = some (answer, m')) :
    m'.bounds = some { m.bounds.getD ⟨obj, (objects obj).ownBounds⟩ with
      rows := around (m.bounds.getD ⟨obj, (objects obj).ownBounds⟩).rows
        (objects obj).ownBounds } := by
  unfold NSpatialHashMap.insert at h
  rw [if_neg (not_not_intro hdim)] at h
  obtain ⟨keys, -, h⟩ := Option.bind_eq_some_iff.mp h
  obtain ⟨map, -, h⟩ := Option.bind_eq_some_iff.mp h
  rw [← (Prod.mk.inj (Option.some.inj h)).2]
  exact congrArg some (updateBounds_eq _ _)

theorem remove_unused (hb : m.bounds = none) : m.remove objects obj = some (false, m) := by
  unfold NSpatialHashMap.remove
  rw [hb]
  exact if_pos (Or.inl rfl)

theorem remove_ends (hdim : (objects obj).numDimensions = m.numDimensions)
    (hends : Ends (keyBox m.spatialHashStrategy (objects obj))) (hb : m.bounds.isNone = false) :
    m.remove objects obj = some (true, { m with
      map := (cells (keyBox m.spatialHashStrategy (objects obj))).foldl
        (fun map key => removeFromCell obj key map) m.map }) := by
  unfold NSpatialHashMap.remove
  rw [if_neg (not_or_intro (ne_true_of_eq_false hb) (not_not_intro hdim)), getKeys_eq hdim]
  simp only [Option.bind_eq_bind, Option.bind_some, forCells_ends _ (keyBox_ne_nil hdim) hends,
    List.nil_append]
  rfl

theorem getCollisions_unused (hdim : (objects obj).numDimensions = m.numDimensions)
    (hb : m.bounds = none) : m.getCollisions objects obj = some (some ∅) := by
  unfold NSpatialHashMap.getCollisions NSpatialHashMap.getCollisionsOf
  rw [if_neg (not_not_intro hdim), hb]
  rfl

theorem getCollisions_ends
    (hdim : (objects obj).numDimensions = m.numDimensions)
    (hends : Ends (keyBox m.spatialHashStrategy (objects obj))) (hb : m.bounds.isNone = false) :
    m.getCollisions objects obj = some (some
      ((cells (keyBox m.spatialHashStrategy (objects obj))).foldl
        (fun c key => m.collisionsInCell objects (m.getBounds objects obj) key c) ∅)) := by
  unfold NSpatialHashMap.getCollisions NSpatialHashMap.getCollisionsOf
  rw [if_neg (not_not_intro hdim), if_neg (ne_true_of_eq_false hb), getKeys_eq hdim]
  simp only [Option.bind_eq_bind, Option.bind_some, forCells_ends _ (keyBox_ne_nil hdim) hends,
    List.nil_append]
  rfl

variable [IsStrictOrderedRing K]

omit [DecidableEq Obj] in
theorem insert_endless
    (hdim : (objects obj).numDimensions = m.numDimensions)
    (hends : ¬ Ends (keyBox m.spatialHashStrategy (objects obj))) : m.insert objects obj = none := by
  unfold NSpatialHashMap.insert
  rw [if_neg (not_not_intro hdim), getKeys_eq hdim]
  simp only [Option.bind_eq_bind, Option.bind_some,
    forCells_endless _ (keyBox_proper _ _) hends, Option.bind_none]

theorem remove_endless
    (hdim : (objects obj).numDimensions = m.numDimensions)
    (hends : ¬ Ends (keyBox m.spatialHashStrategy (objects obj))) (hb : m.bounds.isNone = false) :
    m.remove objects obj = none := by
  unfold NSpatialHashMap.remove
  rw [if_neg (not_or_intro (ne_true_of_eq_false hb) (not_not_intro hdim)), getKeys_eq hdim]
  simp only [Option.bind_eq_bind, Option.bind_some,
    forCells_endless _ (keyBox_proper _ _) hends, Option.bind_none]

theorem getCollisions_endless
    (hdim : (objects obj).numDimensions = m.numDimensions)
    (hends : ¬ Ends (keyBox m.spatialHashStrategy (objects obj))) (hb : m.bounds.isNone = false) :
    m.getCollisions objects obj = none := by
  unfold NSpatialHashMap.getCollisions NSpatialHashMap.getCollisionsOf
  rw [if_neg (not_not_intro hdim), if_neg (ne_true_of_eq_false hb), getKeys_eq hdim]
  simp only [Option.bind_eq_bind, Option.bind_some,
    forCells_endless _ (keyBox_proper _ _) hends, Option.bind_none]

end returns

end carma.n_spatial_hash_map
