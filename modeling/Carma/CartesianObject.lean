-- Objects in space, each a cloud of points, and the check of two objects by
-- their axis-aligned boxes.
import Mathlib.Order.Lattice
import Carma.Lib.Boxes

open lib.boxes

namespace carma.cartesian_object

/-! ## Objects -/

/-- `Point`: one value for each dimension. -/
abbrev Point (K : Type) := List K

/-- `CartesianObject`. The cloud has a point, and all of its points have the same
number of dimensions, as `validateInput` checks. -/
structure CartesianObject (K : Type) where
  pointCloud : List (Point K)
  numDimensions : ℕ
  nonempty : pointCloud ≠ []
  same_dimensions : ∀ p ∈ pointCloud, p.length = numDimensions
deriving DecidableEq

variable {K : Type} [LinearOrder K]

/-- The bounds of one dimension after one more point. -/
def growRow (row : K × K) (x : K) : K × K :=
  if x < row.1 then (x, row.2) else if x > row.2 then (row.1, x) else row

/-- `calculateBounds`, and so `getBounds` of an object that nobody wrote to. -/
def boundsOf : List (Point K) → Box K
  | [] => []
  | p :: ps => ps.foldl (fun bounds q => List.zipWith growRow bounds q) (p.map fun x => (x, x))

/-- The box of an object, computed from its point cloud. -/
def CartesianObject.ownBounds (obj : CartesianObject K) : Box K := boundsOf obj.pointCloud

/-- `getMinMaxCoordinates`: the least values, and then the greatest. -/
def CartesianObject.getMinMaxCoordinates (obj : CartesianObject K) : Point K × Point K :=
  (obj.ownBounds.map (·.1), obj.ownBounds.map (·.2))

/-! ## The check of two boxes -/

/-- `AxisAlignedBoundingBox.intersects` of two objects with these bounds. -/
def intersects (bounds1 bounds2 : Box K) : Bool :=
  (bounds1.zip bounds2).all fun (r, s) => !decide (max r.1 s.1 > min r.2 s.2)

/-- `AxisAlignedBoundingBox.intersects` of an object with these bounds and a point. -/
def intersectsPoint (objBounds : Box K) (p : Point K) : Bool :=
  (objBounds.zip p).all fun (r, x) => decide (r.1 < x ∧ x < r.2)

theorem intersects_iff {b c : Box K} (h : b.length = c.length) :
    intersects b c = true ↔ Meets b c := by
  unfold intersects Meets
  rw [List.all_eq_true, List.forall₂_iff_zip]
  simp only [Bool.not_eq_true', decide_eq_false_iff_not, gt_iff_lt, not_lt]
  exact ⟨fun hall => ⟨h, fun hm => hall _ hm⟩, fun hall x hx => hall.2 hx⟩

/-! ## The box of a point cloud -/

theorem growRow_eq {row : K × K} (h : row.1 ≤ row.2) (x : K) :
    growRow row x = (min row.1 x, max row.2 x) := by
  unfold growRow
  split
  · rename_i hx
    rw [min_eq_right hx.le, max_eq_left (hx.le.trans h)]
  · rename_i hx
    rw [not_lt] at hx
    split
    · rename_i hx'
      rw [min_eq_left hx, max_eq_right hx'.le]
    · rename_i hx'
      rw [min_eq_left hx, max_eq_left (not_lt.mp hx')]

def pointBox (p : Point K) : Box K := p.map fun x => (x, x)

omit [LinearOrder K] in
@[simp] theorem pointBox_length (p : Point K) : (pointBox p).length = p.length := List.length_map _

theorem pointBox_proper (p : Point K) : Proper (pointBox p) := by
  intro r hr
  obtain ⟨x, _, rfl⟩ := List.mem_map.mp hr
  exact le_refl x

theorem grow_eq {b : Box K} (h : Proper b) (p : Point K) :
    List.zipWith growRow b p = around b (pointBox p) := by
  unfold around pointBox
  rw [List.zipWith_map_right]
  induction b generalizing p with
  | nil => rfl
  | cons r b ih =>
    obtain ⟨hr, hb⟩ := List.forall_mem_cons.mp h
    cases p with
    | nil => rfl
    | cons x p =>
      rw [List.zipWith_cons_cons, List.zipWith_cons_cons, growRow_eq hr, ih hb]

theorem boundsOf_grown {ps : List (Point K)} {b : Box K} {n : ℕ} (hb : Proper b)
    (hlen : b.length = n) (hps : ∀ p ∈ ps, p.length = n) :
    Proper (ps.foldl (fun b q => List.zipWith growRow b q) b) ∧
      (ps.foldl (fun b q => List.zipWith growRow b q) b).length = n := by
  induction ps generalizing b with
  | nil => exact ⟨hb, hlen⟩
  | cons p ps ih =>
    obtain ⟨hp, hps⟩ := List.forall_mem_cons.mp hps
    have hsame : b.length = (pointBox p).length := by rw [hlen, pointBox_length, hp]
    rw [List.foldl_cons, grow_eq hb]
    exact ih (around_proper hsame hb) (by rw [around_length hsame, hlen]) hps

namespace CartesianObject

theorem ownBounds_grown (obj : CartesianObject K) :
    Proper obj.ownBounds ∧ obj.ownBounds.length = obj.numDimensions := by
  obtain ⟨cloud, n, hne, hsame⟩ := obj
  obtain ⟨p, ps, rfl⟩ := List.exists_cons_of_ne_nil hne
  obtain ⟨hp, hps⟩ := List.forall_mem_cons.mp hsame
  exact boundsOf_grown (pointBox_proper p) ((pointBox_length p).trans hp) hps

theorem ownBounds_proper (obj : CartesianObject K) : Proper obj.ownBounds :=
  obj.ownBounds_grown.1

@[simp] theorem ownBounds_length (obj : CartesianObject K) :
    obj.ownBounds.length = obj.numDimensions := obj.ownBounds_grown.2

@[simp] theorem corners_zip (obj : CartesianObject K) :
    obj.getMinMaxCoordinates.1.zip obj.getMinMaxCoordinates.2 = obj.ownBounds := by
  unfold getMinMaxCoordinates
  rw [List.zip_map', List.map_id'']
  exact fun _ => rfl

theorem ownBounds_within_iff (obj : CartesianObject K) (b : Box K) :
    Within obj.ownBounds b ↔ ∀ p ∈ obj.pointCloud, Within (pointBox p) b := by
  obtain ⟨cloud, n, hne, hsame⟩ := obj
  obtain ⟨p, ps, rfl⟩ := List.exists_cons_of_ne_nil hne
  obtain ⟨hp, hps⟩ := List.forall_mem_cons.mp hsame
  have hgrown : ∀ (qs : List (Point K)) (c : Box K), Proper c → c.length = n →
      (∀ q ∈ qs, q.length = n) →
      (Within (qs.foldl (fun c q => List.zipWith growRow c q) c) b ↔
        Within c b ∧ ∀ q ∈ qs, Within (pointBox q) b) := by
    intro qs
    induction qs with
    | nil => intro c _ _ _; simp
    | cons q qs ih =>
      intro c hc hlen hqs
      obtain ⟨hq, hqs⟩ := List.forall_mem_cons.mp hqs
      have heq : c.length = (pointBox q).length := by rw [hlen, pointBox_length, hq]
      rw [List.foldl_cons, grow_eq hc, ih _ (around_proper heq hc)
        (by rw [around_length heq, hlen]) hqs, List.forall_mem_cons, ← and_assoc]
      refine and_congr_left (fun _ => ?_)
      exact ⟨fun h => ⟨within_trans (within_around_left heq) h,
        within_trans (within_around_right heq) h⟩, fun h => around_within h.1 h.2⟩
  rw [List.forall_mem_cons]
  exact hgrown ps (pointBox p) (pointBox_proper p) (by rw [pointBox_length, hp]) hps

end CartesianObject

end carma.cartesian_object
