-- The law of the spatial hash map: its answers are those of a search through all
-- stored objects, apart from the object that was inserted first. The map writes
-- to the bounds of that object, so it counts as the box around all objects.
import Mathlib.Algebra.Order.Ring.Rat
import Mathlib.Data.Rat.Floor
import Carma.NSpatialHashMapSpecs

open lib.boxes
open carma.cartesian_object

namespace carma.n_spatial_hash_map

/-! ## What the calls stand for -/

section calls

variable {Obj : Type}

def Call.obj : Call Obj → Obj
  | .insert obj => obj
  | .remove obj => obj

def Call.isRemove : Call Obj → Bool
  | .insert _ => false
  | .remove _ => true

/-- The objects that were ever inserted, oldest first. -/
def inserted (calls : List (Call Obj)) : List Obj :=
  calls.filterMap fun c => if c.isRemove then none else some c.obj

/-- The objects of the calls that reach a loop: removals from an unused map do not. -/
def looped : List (Call Obj) → List Obj
  | [] => []
  | .remove _ :: calls => looped calls
  | .insert obj :: calls => obj :: calls.map (·.obj)

variable [DecidableEq Obj]

def store (stored : List Obj) : Call Obj → List Obj
  | .insert obj => stored ++ [obj]
  | .remove obj => stored.erase obj

/-- The objects that are stored after the calls, each as often as it is stored. -/
def stored (calls : List (Call Obj)) : List Obj := calls.foldl store []

theorem stored_snoc (calls : List (Call Obj)) (c : Call Obj) :
    stored (calls ++ [c]) = store (stored calls) c := by
  simp [stored]

omit [DecidableEq Obj] in
theorem inserted_snoc (calls : List (Call Obj)) (c : Call Obj) :
    inserted (calls ++ [c]) = if c.isRemove then inserted calls else inserted calls ++ [c.obj] := by
  unfold inserted
  rw [List.filterMap_append]
  cases c <;> simp [Call.isRemove]

theorem stored_subset (calls : List (Call Obj)) : ∀ r ∈ stored calls, r ∈ inserted calls := by
  induction calls using List.reverseRecOn with
  | nil => exact fun r hr => hr
  | append_singleton calls c ih =>
    intro r hr
    rw [stored_snoc] at hr
    rw [inserted_snoc]
    cases c with
    | insert obj =>
      rcases List.mem_append.mp hr with hr | hr
      · exact List.mem_append_left _ (ih r hr)
      · exact List.mem_append_right _ hr
    | remove obj => exact ih r (List.mem_of_mem_erase hr)

omit [DecidableEq Obj] in
theorem looped_snoc (calls : List (Call Obj)) (c : Call Obj) :
    looped (calls ++ [c]) =
      if inserted calls = [] ∧ c.isRemove then looped calls else looped calls ++ [c.obj] := by
  induction calls with
  | nil => cases c <;> rfl
  | cons d calls ih =>
    cases d with
    | insert obj => simp [looped, inserted, Call.isRemove]
    | remove obj => exact ih

end calls

/-! ## The map and the calls -/

variable {K Obj : Type} [LinearOrder K] [Field K] [FloorRing K] [DecidableEq Obj]
variable (objects : Obj → CartesianObject K)

/-- The box around all of the objects. -/
def boxAround : List Obj → Box K
  | [] => []
  | f :: rest => rest.foldl (fun b r => around b (objects r).ownBounds) (objects f).ownBounds

/-- The map is the one of the calls: in each cell an object is as often as it is
stored, if it reaches the cell, and the bounds are the box around all objects,
in the rows of the first one. -/
structure Mirrors (s : SimpleHashStrategy K) (m : NSpatialHashMap K Obj)
    (calls : List (Call Obj)) : Prop where
  strategy : m.spatialHashStrategy = s
  in_cells : ∀ key r, ((m.map key).getD []).count r =
    if key ∈ cells (keyBox s (objects r)) then (stored calls).count r else 0
  bounds : m.bounds =
    (inserted calls).head?.map fun f => ⟨f, boxAround objects (inserted calls)⟩

variable {objects}

omit [FloorRing K] [Field K] [DecidableEq Obj] in
theorem boxAround_snoc {rs : List Obj} (h : rs ≠ []) (r : Obj) :
    boxAround objects (rs ++ [r]) = around (boxAround objects rs) (objects r).ownBounds := by
  obtain ⟨f, rest, rfl⟩ := List.exists_cons_of_ne_nil h
  unfold boxAround
  rw [List.cons_append]
  simp

theorem mirrors_insert {s : SimpleHashStrategy K} {m : NSpatialHashMap K Obj}
    {calls : List (Call Obj)} (h : Mirrors objects s m calls) {obj : Obj}
    (hdim : (objects obj).numDimensions = s.cellDims.length)
    (hends : Ends (keyBox s (objects obj))) :
    ∃ m', call objects m (.insert obj) = some m' ∧
      Mirrors objects s m' (calls ++ [.insert obj]) := by
  obtain ⟨rfl, hcells, hbounds⟩ := h
  refine ⟨_, congrArg (Option.map Prod.snd) (insert_ends hdim hends), rfl, ?_, ?_⟩
  · intro key r
    rw [addToCells_at obj (cells_nodup _), stored_snoc, store, List.count_append]
    by_cases hr : r = obj
    · subst hr
      split
      · rename_i hkey
        rw [List.count_append, hcells, if_pos hkey]
      · rename_i hkey
        rw [hcells, if_neg hkey]
    · have hzero : [obj].count r = 0 := List.count_eq_zero.mpr (by simpa using hr)
      rw [hzero, Nat.add_zero, ← hcells]
      split
      · rw [List.count_append, hzero, Nat.add_zero]
      · rfl
  · dsimp only
    rw [updateBounds_eq, inserted_snoc, hbounds]
    cases hins : inserted calls with
    | nil => simp [Call.isRemove, Call.obj, boxAround, around_self]
    | cons f rest =>
      have hsnoc : boxAround objects (f :: rest ++ [obj]) =
          around (boxAround objects (f :: rest)) (objects obj).ownBounds :=
        boxAround_snoc (List.cons_ne_nil f rest) obj
      simp [Call.isRemove, Call.obj, ← hsnoc]

theorem mirrors_remove {s : SimpleHashStrategy K} {m : NSpatialHashMap K Obj}
    {calls : List (Call Obj)} (h : Mirrors objects s m calls) {obj : Obj}
    (hdim : (objects obj).numDimensions = s.cellDims.length)
    (hends : inserted calls ≠ [] → Ends (keyBox s (objects obj))) :
    ∃ m', call objects m (.remove obj) = some m' ∧
      Mirrors objects s m' (calls ++ [.remove obj]) := by
  obtain ⟨rfl, hcells, hbounds⟩ := h
  by_cases hins : inserted calls = []
  · -- nothing was inserted, so the call changes nothing
    have hstored : stored calls = [] :=
      List.eq_nil_iff_forall_not_mem.mpr (fun r hr => by simpa [hins] using stored_subset calls r hr)
    have hsame : stored (calls ++ [.remove obj]) = stored calls := by
      rw [stored_snoc, hstored]
      rfl
    have hnone : m.bounds = none := by rw [hbounds, hins]; rfl
    refine ⟨m, congrArg (Option.map Prod.snd) (remove_unused hnone), rfl, ?_, ?_⟩
    · rw [hsame]
      exact hcells
    · rw [inserted_snoc]
      exact hbounds
  · have hb : m.bounds.isNone = false := by
      obtain ⟨f, rest, hf⟩ := List.exists_cons_of_ne_nil hins
      rw [hbounds, hf]
      rfl
    refine ⟨_, congrArg (Option.map Prod.snd) (remove_ends hdim (hends hins) hb), rfl, ?_, ?_⟩
    · intro key r
      rw [removeFromCells_at obj (cells_nodup _), stored_snoc, store]
      by_cases hr : r = obj
      · subst hr
        split
        · rename_i hkey
          rw [List.count_erase_self, List.count_erase_self, hcells, if_pos hkey]
        · rename_i hkey
          rw [hcells, if_neg hkey]
      · rw [List.count_erase_of_ne hr, ← hcells]
        split
        · rw [List.count_erase_of_ne hr]
        · rfl
    · rw [inserted_snoc]
      exact hbounds

/-! ## Runs -/

variable (objects) in
/-- Every call that reaches a loop comes back. -/
def CallsEnd (s : SimpleHashStrategy K) (calls : List (Call Obj)) : Prop :=
  ∀ o ∈ looped calls, Ends (keyBox s (objects o))

omit [DecidableEq Obj] in
theorem callsEnd_snoc (s : SimpleHashStrategy K) (calls : List (Call Obj)) (c : Call Obj) :
    CallsEnd objects s (calls ++ [c]) ↔ CallsEnd objects s calls ∧
      (inserted calls = [] ∧ c.isRemove ∨ Ends (keyBox s (objects c.obj))) := by
  unfold CallsEnd
  rw [looped_snoc]
  split
  · rename_i hskip
    exact (and_iff_left (Or.inl hskip)).symm
  · rename_i hskip
    rw [or_iff_right hskip, List.forall_mem_append, List.forall_mem_singleton]

theorem afterCalls_snoc (m : NSpatialHashMap K Obj) (calls : List (Call Obj)) (c : Call Obj) :
    afterCalls objects m (calls ++ [c]) =
      (afterCalls objects m calls).bind fun m => call objects m c := by
  unfold afterCalls
  rw [List.foldlM_append]
  simp

/-- Calls that come back leave the map that mirrors them. -/
theorem afterCalls_mirrors {s : SimpleHashStrategy K} {calls : List (Call Obj)}
    (hdims : ∀ c ∈ calls, (objects c.obj).numDimensions = s.cellDims.length)
    (hends : CallsEnd objects s calls) :
    ∃ m, afterCalls objects (buildSpatialStructure s) calls = some m ∧
      Mirrors objects s m calls := by
  induction calls using List.reverseRecOn with
  | nil => exact ⟨_, rfl, rfl, fun key r => by simp [buildSpatialStructure, stored], rfl⟩
  | append_singleton calls c ih =>
    obtain ⟨hcalls, hc⟩ := (callsEnd_snoc s calls c).mp hends
    obtain ⟨m, hm, hmirrors⟩ := ih (fun d hd => hdims d (List.mem_append_left _ hd)) hcalls
    have hdim := hdims c (by simp)
    rw [afterCalls_snoc, hm, Option.bind_some]
    cases c with
    | insert obj =>
      exact mirrors_insert hmirrors hdim (hc.resolve_left (fun h => absurd h.2 Bool.false_ne_true))
    | remove obj =>
      exact mirrors_remove hmirrors hdim (fun hins => hc.resolve_left (fun h => hins h.1))

theorem bounds_isNone {s : SimpleHashStrategy K} {m : NSpatialHashMap K Obj}
    {calls : List (Call Obj)} (h : Mirrors objects s m calls) (hins : inserted calls ≠ []) :
    m.bounds.isNone = false := by
  obtain ⟨f, rest, hf⟩ := List.exists_cons_of_ne_nil hins
  rw [h.bounds, hf]
  rfl

section laws

variable [IsStrictOrderedRing K]

/-- If one call does not come back, the run does not. -/
theorem afterCalls_endless {s : SimpleHashStrategy K} {calls : List (Call Obj)}
    (hdims : ∀ c ∈ calls, (objects c.obj).numDimensions = s.cellDims.length)
    (hends : ¬ CallsEnd objects s calls) :
    afterCalls objects (buildSpatialStructure s) calls = none := by
  induction calls using List.reverseRecOn with
  | nil => exact absurd (fun o ho => absurd ho List.not_mem_nil) hends
  | append_singleton calls c ih =>
    have hrest : ∀ d ∈ calls, (objects d.obj).numDimensions = s.cellDims.length :=
      fun d hd => hdims d (List.mem_append_left _ hd)
    have hdim := hdims c (by simp)
    rw [callsEnd_snoc, not_and] at hends
    rw [afterCalls_snoc]
    by_cases hcalls : CallsEnd objects s calls
    · obtain ⟨m, hm, hmirrors⟩ := afterCalls_mirrors hrest hcalls
      have hlast := hends hcalls
      rw [not_or] at hlast
      obtain ⟨hreach, hlast⟩ := hlast
      obtain rfl := hmirrors.strategy
      rw [hm, Option.bind_some]
      cases c with
      | insert obj => exact congrArg (Option.map Prod.snd) (insert_endless hdim hlast)
      | remove obj =>
        have hins : inserted calls ≠ [] := fun h => hreach ⟨h, rfl⟩
        exact congrArg (Option.map Prod.snd)
          (remove_endless hdim hlast (bounds_isNone hmirrors hins))
    · rw [ih hrest hcalls, Option.bind_none]

/-! ## The box around all objects -/

omit [Field K] [FloorRing K] [DecidableEq Obj] [IsStrictOrderedRing K] in
theorem boxAround_around {n : ℕ} {rs : List Obj} (hdims : ∀ r ∈ rs, (objects r).numDimensions = n)
    (hne : rs ≠ []) : (boxAround objects rs).length = n ∧
      ∀ r ∈ rs, Within (objects r).ownBounds (boxAround objects rs) := by
  induction rs using List.reverseRecOn with
  | nil => exact absurd rfl hne
  | append_singleton rs x ih =>
    have hx := hdims x (by simp)
    rcases List.eq_nil_or_concat rs with rfl | ⟨rs', y, rfl⟩
    · refine ⟨(objects x).ownBounds_length.trans hx, ?_⟩
      intro r hr
      rw [List.mem_singleton.mp hr]
      exact within_refl _
    · have hne' : rs'.concat y ≠ [] := by simp
      obtain ⟨hlen, hin⟩ := ih (fun r hr => hdims r (List.mem_append_left _ hr)) hne'
      have hsame : (boxAround objects (rs'.concat y)).length = (objects x).ownBounds.length := by
        rw [hlen, CartesianObject.ownBounds_length, hx]
      rw [boxAround_snoc hne']
      refine ⟨(around_length hsame).trans hlen, ?_⟩
      intro r hr
      rcases List.mem_append.mp hr with hr | hr
      · exact within_trans (hin r hr) (within_around_left hsame)
      · rw [List.mem_singleton.mp hr]
        exact within_around_right hsame

/-! ## The law -/

variable (objects) in
/-- A query gives just the stored objects whose own box meets that of the query. -/
def AgreesWithBruteForce (s : SimpleHashStrategy K) (calls : List (Call Obj)) (query : Obj) : Prop :=
  ∃ m found, afterCalls objects (buildSpatialStructure s) calls = some m ∧
    m.getCollisions objects query = some (some found) ∧
    ∀ r, r ∈ found ↔ r ∈ stored calls ∧ Meets (objects r).ownBounds (objects query).ownBounds

variable (objects) in
/-- No loop of the calls or of the query runs up to the greatest long. -/
def LoopsEnd (s : SimpleHashStrategy K) (calls : List (Call Obj)) (query : Obj) : Prop :=
  CallsEnd objects s calls ∧ (inserted calls ≠ [] → Ends (keyBox s (objects query)))

variable (objects) in
/-- Where the box around all objects stands for that of the first one, the own
boxes of the two objects meet too. -/
def FirstIsExact (s : SimpleHashStrategy K) (calls : List (Call Obj)) (query : Obj) : Prop :=
  ∀ f, (inserted calls).head? = some f → ∀ r ∈ stored calls,
    (query = f ∨ r = f ∧ Meets (boxAround objects (inserted calls)) (objects query).ownBounds) →
    Meets (keyBox s (objects r)) (keyBox s (objects query)) →
      Meets (objects r).ownBounds (objects query).ownBounds

theorem stored_nil {calls : List (Call Obj)} (h : inserted calls = []) : stored calls = [] := by
  refine List.eq_nil_iff_forall_not_mem.mpr (fun r hr => ?_)
  have hin := stored_subset calls r hr
  rw [h] at hin
  exact List.not_mem_nil hin

omit [IsStrictOrderedRing K] in
/-- A query on a used map gives the stored objects that share a cell with it and
whose bounds, as they are now, meet its bounds. -/
theorem getCollisions_used {s : SimpleHashStrategy K} {m : NSpatialHashMap K Obj}
    {calls : List (Call Obj)} (h : Mirrors objects s m calls) {query : Obj}
    (hdim : (objects query).numDimensions = s.cellDims.length) (hins : inserted calls ≠ [])
    (hends : Ends (keyBox s (objects query))) :
    ∃ found, m.getCollisions objects query = some (some found) ∧
      ∀ r, r ∈ found ↔ (r ∈ stored calls ∧ Meets (keyBox s (objects r)) (keyBox s (objects query))) ∧
        intersects (m.getBounds objects query) (m.getBounds objects r) = true := by
  have hb := bounds_isNone h hins
  obtain ⟨rfl, hcells, -⟩ := h
  refine ⟨_, getCollisions_ends hdim hends hb, ?_⟩
  intro r
  have hcell : ∀ key, r ∈ (m.map key).getD [] ↔
      key ∈ cells (keyBox m.spatialHashStrategy (objects r)) ∧ r ∈ stored calls := by
    intro key
    rw [← List.count_pos_iff, ← List.count_pos_iff, hcells]
    split <;> simp [*]
  rw [mem_collisionsInCells, or_iff_right (Finset.notMem_empty r), meets_iff_cell]
  simp only [hcell]
  constructor
  · rintro ⟨key, hkey, ⟨hkey', hr⟩, hmeet⟩
    exact ⟨⟨hr, key, hkey', hkey⟩, hmeet⟩
  · rintro ⟨⟨hr, key, hkey', hkey⟩, hmeet⟩
    exact ⟨key, hkey, ⟨hkey', hr⟩, hmeet⟩

omit [IsStrictOrderedRing K] in
/-- The bounds of a stored object meet those of the query if their own boxes do,
or if the box around all objects stands for one of them. -/
theorem bounds_meet_iff {s : SimpleHashStrategy K} {m : NSpatialHashMap K Obj}
    {calls : List (Call Obj)} (h : Mirrors objects s m calls)
    (hdims : ∀ c ∈ calls, (objects c.obj).numDimensions = s.cellDims.length) {query : Obj}
    (hdim : (objects query).numDimensions = s.cellDims.length) {f : Obj}
    (hf : (inserted calls).head? = some f) {r : Obj} (hr : r ∈ stored calls) :
    intersects (m.getBounds objects query) (m.getBounds objects r) = true ↔
      Meets (objects r).ownBounds (objects query).ownBounds ∨
        (query = f ∨
          r = f ∧ Meets (boxAround objects (inserted calls)) (objects query).ownBounds) := by
  have hins : inserted calls ≠ [] := by
    rintro he
    rw [he] at hf
    cases hf
  have hall : ∀ o ∈ inserted calls, (objects o).numDimensions = s.cellDims.length := by
    intro o ho
    obtain ⟨c, hc, he⟩ := List.mem_filterMap.mp ho
    split at he
    · cases he
    · cases he
      exact hdims c hc
  obtain ⟨hlen, hin⟩ := boxAround_around hall hins
  have hfin : f ∈ inserted calls := List.mem_of_mem_head? hf
  have hrin := stored_subset calls r hr
  have hbounds : ∀ o, m.getBounds objects o =
      if o = f then boxAround objects (inserted calls) else (objects o).ownBounds := by
    intro o
    unfold NSpatialHashMap.getBounds
    rw [h.bounds, hf]
    rfl
  have hlens : ∀ o, (objects o).numDimensions = s.cellDims.length →
      (m.getBounds objects o).length = s.cellDims.length := by
    intro o ho
    rw [hbounds]
    split
    · exact hlen
    · rw [CartesianObject.ownBounds_length, ho]
  rw [intersects_iff ((hlens query hdim).trans (hlens r (hall r hrin)).symm), hbounds, hbounds]
  by_cases hq : query = f
  · -- the box around all objects meets the bounds of each of them
    refine iff_of_true ?_ (Or.inr (Or.inl hq))
    rw [if_pos hq]
    split
    · have hown := meets_of_within (objects f).ownBounds_proper (hin f hfin)
      exact meets_mono (hin f hfin) (meets_symm hown)
    · exact meets_of_within (objects r).ownBounds_proper (hin r hrin)
  · rw [if_neg hq, meets_comm, or_iff_right hq]
    by_cases hrf : r = f
    · rw [if_pos hrf, and_iff_right hrf, or_iff_right_of_imp]
      exact meets_mono (hin r hrin)
    · rw [if_neg hrf, or_iff_left (fun hc => hrf hc.1)]

/-- On a used map whose calls end, a query agrees just when the first object is
exact for it. -/
theorem agrees_iff_exact {s : SimpleHashStrategy K} {m : NSpatialHashMap K Obj}
    {calls : List (Call Obj)} (hm : afterCalls objects (buildSpatialStructure s) calls = some m)
    (hmirrors : Mirrors objects s m calls)
    (hdims : ∀ c ∈ calls, (objects c.obj).numDimensions = s.cellDims.length) {query : Obj}
    (hdim : (objects query).numDimensions = s.cellDims.length) (hins : inserted calls ≠ [])
    (hends : Ends (keyBox s (objects query))) :
    AgreesWithBruteForce objects s calls query ↔ FirstIsExact objects s calls query := by
  obtain ⟨found, hfound, hmem⟩ := getCollisions_used hmirrors hdim hins hends
  constructor
  · rintro ⟨m', found', hm', hfound', hagree⟩ f hf r hr hbig hshare
    obtain rfl : m = m' := Option.some.inj (hm.symm.trans hm')
    obtain rfl : found = found' := Option.some.inj (Option.some.inj (hfound.symm.trans hfound'))
    have hmeet := (bounds_meet_iff hmirrors hdims hdim hf hr).mpr (Or.inr hbig)
    exact ((hagree r).mp ((hmem r).mpr ⟨⟨hr, hshare⟩, hmeet⟩)).2
  · intro hexact
    refine ⟨m, found, hm, hfound, ?_⟩
    obtain ⟨f, rest, hrest⟩ := List.exists_cons_of_ne_nil hins
    have hf : (inserted calls).head? = some f := by rw [hrest]; rfl
    intro r
    rw [hmem]
    constructor
    · rintro ⟨⟨hr, hshare⟩, hmeet⟩
      rcases (bounds_meet_iff hmirrors hdims hdim hf hr).mp hmeet with hown | hbig
      · exact ⟨hr, hown⟩
      · exact ⟨hr, hexact f hf r hr hbig hshare⟩
    · rintro ⟨hr, hown⟩
      exact ⟨⟨hr, keys_meet s hown⟩,
        (bounds_meet_iff hmirrors hdims hdim hf hr).mpr (Or.inl hown)⟩

/-- A query agrees with a search through all stored objects just when its loops
end and the box around all objects gives nothing that the first one would not. -/
theorem a_query_agrees_when_the_first_object_is_exact (s : SimpleHashStrategy K)
    (calls : List (Call Obj)) (query : Obj)
    (hdims : ∀ c ∈ calls, (objects c.obj).numDimensions = s.cellDims.length)
    (hdim : (objects query).numDimensions = s.cellDims.length) :
    AgreesWithBruteForce objects s calls query ↔
      LoopsEnd objects s calls query ∧ FirstIsExact objects s calls query := by
  by_cases hcalls : CallsEnd objects s calls
  · obtain ⟨m, hm, hmirrors⟩ := afterCalls_mirrors hdims hcalls
    have hstrategy := hmirrors.strategy
    by_cases hins : inserted calls = []
    · have hb : m.bounds = none := by
        rw [hmirrors.bounds, hins]
        rfl
      refine iff_of_true ⟨m, ∅, hm, getCollisions_unused ?_ hb, ?_⟩
        ⟨⟨hcalls, fun h => absurd hins h⟩, ?_⟩
      · rw [hdim, ← hstrategy]
        rfl
      · simp [stored_nil hins]
      · intro f hf
        rw [hins] at hf
        cases hf
    · by_cases hends : Ends (keyBox s (objects query))
      · rw [and_iff_right (show LoopsEnd objects s calls query from ⟨hcalls, fun _ => hends⟩)]
        exact agrees_iff_exact hm hmirrors hdims hdim hins hends
      · refine iff_of_false ?_ (fun h => hends (h.1.2 hins))
        rintro ⟨m', found, hm', hfound, -⟩
        obtain rfl : m = m' := Option.some.inj (hm.symm.trans hm')
        obtain rfl := hstrategy
        rw [getCollisions_endless hdim hends (bounds_isNone hmirrors hins)] at hfound
        cases hfound
  · refine iff_of_false ?_ (fun h => hcalls h.1.1)
    rintro ⟨m, found, hm, -⟩
    rw [afterCalls_endless hdims hcalls] at hm
    cases hm

end laws

/-! ## A box in one dimension -/

/-- The object from `lo` to `hi` on a line. -/
def onLine (b : ℚ × ℚ) : CartesianObject ℚ where
  pointCloud := [[b.1], [b.2]]
  numDimensions := 1
  nonempty := List.cons_ne_nil _ _
  same_dimensions := by simp

/-- Cells of length 10. -/
def tens : SimpleHashStrategy ℚ := ⟨[10], List.cons_ne_nil _ _, by simp⟩

/-- Two objects in one cell, and a third that is inserted and removed. -/
def lineCalls : List (Call (ℚ × ℚ)) :=
  [.insert (0, 1), .insert (5, 6), .insert (-12, 3), .remove (-12, 3)]

theorem lineCalls_agree_when_the_first_object_is_exact :
    AgreesWithBruteForce onLine tens lineCalls (0, 5) ↔
      LoopsEnd onLine tens lineCalls (0, 5) ∧ FirstIsExact onLine tens lineCalls (0, 5) :=
  a_query_agrees_when_the_first_object_is_exact tens lineCalls (0, 5) (fun _ _ => rfl) rfl

/-- After an object from 0 to 1 and one from 5 to 6, the query from 3 to 4 finds
the first of them. -/
theorem the_first_object_is_found_where_it_is_not :
    ¬ AgreesWithBruteForce onLine tens [.insert (0, 1), .insert (5, 6)] (3, 4) := by
  rintro ⟨m, found, hm, hfound, hagree⟩
  have hanswer : (afterCalls onLine (buildSpatialStructure tens)
      [.insert (0, 1), .insert (5, 6)]).bind (fun m => m.getCollisions onLine (3, 4)) =
        some (some {(0, 1)}) := by decide +kernel
  rw [hm, Option.bind_some, hfound] at hanswer
  obtain rfl := Option.some.inj (Option.some.inj hanswer)
  exact absurd ((hagree (0, 1)).mp (Finset.mem_singleton_self _)).2 (by decide +kernel)

end carma.n_spatial_hash_map
