-- Places along pieces that lie end to end: how far it is to the start of a piece, and when a place
-- is told right by a piece and the way that is done of it.
import Mathlib.Algebra.BigOperators.Group.List.Basic
import Mathlib.Algebra.Order.Group.Defs

namespace lib.places

variable {K : Type*} [AddCommGroup K]

/-- The total length of the pieces before this one. -/
def before (lengths : List K) (i : ℤ) : K := (lengths.take i.toNat).sum

theorem before_next {lengths : List K} {i : ℤ} {length : K} (hi : 0 ≤ i)
    (h : lengths[i.toNat]? = some length) :
    before lengths (i + 1) = before lengths i + length := by
  obtain ⟨hlt, rfl⟩ := List.getElem?_eq_some_iff.mp h
  unfold before
  have hnext : (i + 1).toNat = i.toNat + 1 := by omega
  rw [hnext, List.take_add_one, List.getElem?_eq_getElem hlt, List.sum_append]
  simp

variable [LinearOrder K]

/-- A way done lies within a piece: it does not fall short of it, and it is no longer than the
piece unless that is the last one. -/
structure Within (lengths : List K) (i : ℤ) (done : K) : Prop where
  nonneg : 0 ≤ done
  inside : i + 1 < lengths.length → ∀ length ∈ lengths[i.toNat]?, done ≤ length

/-- A place is told by a piece and the way done of it: the pieces before and that way make up the
place, and the way lies within the piece. -/
structure Told (lengths : List K) (place : K) (i : ℤ) (done : K) : Prop where
  nonneg : 0 ≤ i
  piece : i < lengths.length
  place_eq : place = before lengths i + done
  within : Within lengths i done

/-- Where places are off by so much, piece `j` starts where piece `i` is taken to. -/
structure Names (lengths : List K) (off : K) (i j : ℤ) : Prop where
  nonneg : 0 ≤ j
  piece : j < lengths.length
  before_eq : before lengths j = before lengths i + off

/-- A way done from the start of a piece of this length lies within piece `j`, or, where it goes
past its piece, what is left of it is no longer than piece `j` unless that is the last one. -/
structure Reaches (lengths : List K) (length : K) (j : ℤ) (done : K) : Prop where
  here : done ≤ length → Within lengths j done
  past : length < done → j + 1 < lengths.length →
    ∀ next ∈ lengths[j.toNat]?, done ≤ length + next

theorem told_by_name {lengths : List K} {off place done : K} {i j : ℤ}
    (hplace : place = before lengths i + done + off) :
    Told lengths place j done ↔ Names lengths off i j ∧ Within lengths j done := by
  have hstart : place = before lengths j + done ↔
      before lengths j = before lengths i + off := by
    rw [hplace, add_right_comm, add_left_inj]
    exact eq_comm
  constructor
  · exact fun h => ⟨⟨h.nonneg, h.piece, hstart.mp h.place_eq⟩, h.within⟩
  · rintro ⟨hnames, hin⟩
    exact ⟨hnames.nonneg, hnames.piece, hstart.mpr hnames.before_eq, hin⟩

theorem reaches_here {lengths : List K} {length done : K} {j : ℤ} (hin : done ≤ length) :
    Reaches lengths length j done ↔ Within lengths j done :=
  ⟨fun h => h.here hin, fun h => ⟨fun _ => h, fun hover => absurd hin (not_le.mpr hover)⟩⟩

theorem reaches_past [IsOrderedAddMonoid K] {lengths : List K} {length done : K} {j : ℤ}
    (hover : length < done) :
    Reaches lengths length j done ↔ Within lengths j (done - length) := by
  constructor
  · intro h
    refine ⟨(sub_pos.mpr hover).le, fun hlast next hnext => ?_⟩
    exact sub_le_iff_le_add'.mpr (h.past hover hlast next hnext)
  · intro h
    refine ⟨fun hin => absurd hover (not_lt.mpr hin), fun _ hlast next hnext => ?_⟩
    exact sub_le_iff_le_add'.mp (h.inside hlast next hnext)

end lib.places
