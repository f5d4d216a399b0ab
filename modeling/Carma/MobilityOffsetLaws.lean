-- The offsets of a mobility message after a round trip: they come back with zero for each
-- component that is out of range. A path has no others, and a request has zeros after them.
import Carma.MobilityHelperLaws

open carma.path_messages

namespace carma.message

/-! ## Arrays of points -/

/-- Three arrays of some points. -/
def columns (points : List MobilityECEFOffset) : OffsetArrays :=
  ⟨points.map (·.offsetX), points.map (·.offsetY), points.map (·.offsetZ)⟩

theorem points_columns (points : List MobilityECEFOffset) : (columns points).points = points := by
  induction points with
  | nil => rfl
  | cons p points ih => exact congrArg (p :: ·) ih

/-! ## What is received -/

/-- An offset, with zero for each component that is out of range. -/
def clip (o : LocationOffsetECEF) : MobilityECEFOffset :=
  ⟨withinOrZero XYZ_MAX o.offsetX.toInt, withinOrZero XYZ_MAX o.offsetY.toInt,
    withinOrZero XYZ_MAX o.offsetZ.toInt⟩

/-- The same, narrowed to shorts. -/
def receivedOffset (o : LocationOffsetECEF) : LocationOffsetECEF := toOffset (clip o)

theorem setOffsets_eq (offsetList : List LocationOffsetECEF) :
    setOffsets offsetList = columns ((offsetList.take OFFSETS_LIST_MAX_LENGTH).map clip) := by
  unfold setOffsets columns
  dsimp only
  rw [List.map_map, List.map_map, List.map_map]
  rfl

theorem setRegion_map {A B : Type} (f : A → B) (array content : List A) :
    setRegion (array.map f) (content.map f) = (setRegion array content).map f := by
  unfold setRegion
  rw [List.length_map, ← List.map_drop, ← List.map_append]

theorem setRegion_replicate {A : Type} (n : ℕ) (a : A) (content : List A) :
    setRegion (List.replicate n a) content =
      content ++ List.replicate (n - content.length) a := by
  unfold setRegion
  rw [List.drop_replicate]

/-- The values of temporary arrays are points, too. -/
theorem copyOffsets_columns (n : ℕ) (list array : List MobilityECEFOffset) :
    copyOffsets n list (columns array) = columns (setRegion array
      ((setRegion (List.replicate 60 ⟨0, 0, 0⟩) list).take n)) := by
  have htemp : ∀ f : MobilityECEFOffset → ℤ, f ⟨0, 0, 0⟩ = 0 → setRegion (array.map f)
      ((tempOffsets (list.map f)).take n) = (setRegion array
        ((setRegion (List.replicate 60 ⟨0, 0, 0⟩) list).take n)).map f := by
    intro f hf
    have hzeros : List.replicate 60 0 =
        (List.replicate 60 (⟨0, 0, 0⟩ : MobilityECEFOffset)).map f := by
      rw [List.map_replicate, hf]
    unfold tempOffsets
    rw [hzeros, setRegion_map, ← List.map_take, setRegion_map]
  unfold copyOffsets columns
  rw [htemp _ rfl, htemp _ rfl, htemp _ rfl]

theorem unavailable_eq : unavailable = columns (List.replicate 60 ⟨501, 501, 501⟩) := by
  unfold unavailable columns
  rw [List.map_replicate, List.map_replicate, List.map_replicate]

/-- A copy of as many points as there are leaves the rest of the arrays unavailable. -/
theorem copyOffsets_length {list : List MobilityECEFOffset} :
    copyOffsets list.length list unavailable =
      columns (list ++ List.replicate (60 - list.length) ⟨501, 501, 501⟩) := by
  have htemp : (setRegion (List.replicate 60 (⟨0, 0, 0⟩ : MobilityECEFOffset)) list).take
      list.length = list := by
    rw [setRegion_replicate, List.take_left]
  rw [unavailable_eq, copyOffsets_columns, htemp, setRegion_replicate]

/-- A copy of all 60 points has zeros after the real ones. -/
theorem copyOffsets_all {list : List MobilityECEFOffset} (h : list.length ≤ 60) :
    copyOffsets 60 list unavailable =
      columns (list ++ List.replicate (60 - list.length) ⟨0, 0, 0⟩) := by
  have hlength : (list ++ List.replicate (60 - list.length)
      (⟨0, 0, 0⟩ : MobilityECEFOffset)).length = 60 := by
    rw [List.length_append, List.length_replicate]
    omega
  have htemp : (setRegion (List.replicate 60 (⟨0, 0, 0⟩ : MobilityECEFOffset)) list).take 60 =
      list ++ List.replicate (60 - list.length) ⟨0, 0, 0⟩ := by
    rw [setRegion_replicate, List.take_of_length_le hlength.le]
  rw [unavailable_eq, copyOffsets_columns, htemp,
    setRegion_full (by rw [hlength, List.length_replicate])]

/-- A point that is not all unavailable. -/
def Available (p : MobilityECEFOffset) : Prop := p ≠ ⟨501, 501, 501⟩

theorem findIdx?_available {points : List MobilityECEFOffset} (h : ∀ p ∈ points, Available p) :
    points.findIdx? (fun p => decide (p = ⟨501, 501, 501⟩)) = none := by
  rw [List.findIdx?_eq_none_iff]
  intro p hp
  exact decide_eq_false (h p hp)

theorem read_all {points : List MobilityECEFOffset} (hlength : points.length ≤ 60)
    (h : ∀ p ∈ points, Available p) :
    intArrayOffsetsToOffsetList (columns points) = points.map toOffset := by
  unfold intArrayOffsetsToOffsetList
  rw [points_columns, findIdx?_available h]
  exact congrArg (List.map toOffset) (List.take_of_length_le hlength)

theorem read_until {points : List MobilityECEFOffset} (h : ∀ p ∈ points, Available p)
    (rest : List MobilityECEFOffset) :
    intArrayOffsetsToOffsetList (columns (points ++ ⟨501, 501, 501⟩ :: rest)) =
      points.map toOffset := by
  have hsome : (points ++ ⟨501, 501, 501⟩ :: rest).findIdx?
      (fun p => decide (p = ⟨501, 501, 501⟩)) = some points.length := by
    rw [List.findIdx?_append, findIdx?_available h, List.findIdx?_cons]
    simp
  unfold intArrayOffsetsToOffsetList
  rw [points_columns, hsome]
  exact congrArg (List.map toOffset) (List.take_left' rfl)

theorem clip_available (o : LocationOffsetECEF) : Available (clip o) := by
  intro heq
  have hx : withinOrZero XYZ_MAX o.offsetX.toInt ≤ XYZ_MAX := (withinOrZero_mem (by decide)).2
  have hne : withinOrZero XYZ_MAX o.offsetX.toInt = 501 := congrArg MobilityECEFOffset.offsetX heq
  rw [hne] at hx
  exact absurd hx (by decide)

theorem clips_available {offsets : List LocationOffsetECEF} :
    ∀ p ∈ offsets.map clip, Available p := by
  intro p hp
  obtain ⟨o, -, rfl⟩ := List.mem_map.mp hp
  exact clip_available o

theorem length_clips_le (offsets : List LocationOffsetECEF) :
    ((offsets.take OFFSETS_LIST_MAX_LENGTH).map clip).length ≤ 60 := by
  rw [List.length_map, List.length_take]
  exact Nat.min_le_left _ _

theorem read_path_offsets (offsets : List LocationOffsetECEF) :
    intArrayOffsetsToOffsetList (copyOffsets (setOffsets offsets).points.length
      (setOffsets offsets).points unavailable) =
        (offsets.take OFFSETS_LIST_MAX_LENGTH).map receivedOffset := by
  have hlength := length_clips_le offsets
  have hreceived : (offsets.take OFFSETS_LIST_MAX_LENGTH).map receivedOffset =
      ((offsets.take OFFSETS_LIST_MAX_LENGTH).map clip).map toOffset := by
    rw [List.map_map]
    rfl
  rw [setOffsets_eq, points_columns, copyOffsets_length, hreceived]
  rcases Nat.eq_zero_or_pos (60 - ((offsets.take OFFSETS_LIST_MAX_LENGTH).map clip).length) with
    hfull | hrest
  · rw [hfull, List.replicate_zero, List.append_nil]
    exact read_all hlength clips_available
  · obtain ⟨k, hk⟩ := Nat.exists_eq_succ_of_ne_zero hrest.ne'
    rw [hk, List.replicate_succ]
    exact read_until clips_available _

theorem read_request_offsets (offsets : List LocationOffsetECEF) :
    intArrayOffsetsToOffsetList (copyOffsets 60 (setOffsets offsets).points unavailable) =
      (offsets.take OFFSETS_LIST_MAX_LENGTH).map receivedOffset ++
        List.replicate (60 - offsets.length) ⟨0, 0, 0⟩ := by
  have hlength := length_clips_le offsets
  have hzeros : ∀ p ∈ (offsets.take OFFSETS_LIST_MAX_LENGTH).map clip ++ List.replicate
      (60 - ((offsets.take OFFSETS_LIST_MAX_LENGTH).map clip).length) ⟨0, 0, 0⟩, Available p := by
    intro p hp
    rcases List.mem_append.mp hp with hclip | hzero
    · exact clips_available p hclip
    · rw [List.eq_of_mem_replicate hzero]
      exact fun heq => absurd heq (by decide)
  have hrest : 60 - ((offsets.take OFFSETS_LIST_MAX_LENGTH).map clip).length =
      60 - offsets.length := by
    rw [List.length_map, List.length_take]
    show 60 - min 60 offsets.length = 60 - offsets.length
    omega
  have hzero : toOffset ⟨0, 0, 0⟩ = ⟨0, 0, 0⟩ := by decide
  rw [setOffsets_eq, points_columns, copyOffsets_all hlength, read_all _ hzeros, List.map_append,
    List.map_map, List.map_replicate, hrest, hzero]
  · rfl
  · rw [List.length_append, List.length_replicate]
    omega

/-- A component comes back just where it is in range. -/
theorem narrowed_eq_iff (v : BitVec 16) :
    BitVec.ofInt 16 (withinOrZero XYZ_MAX v.toInt) = v ↔
      -XYZ_MAX ≤ v.toInt ∧ v.toInt ≤ XYZ_MAX := by
  have hbound : 0 ≤ XYZ_MAX := by decide
  constructor
  · intro h
    rw [← withinOrZero_eq_iff hbound]
    by_contra hne
    have hzero : withinOrZero XYZ_MAX v.toInt = 0 := by
      unfold withinOrZero at hne ⊢
      split at hne
      · exact absurd rfl hne
      · rename_i hout
        exact if_neg hout
    rw [hzero] at h
    rw [← h] at hne
    exact hne (by decide)
  · intro h
    rw [(withinOrZero_eq_iff hbound).mpr h]
    exact BitVec.ofInt_toInt

/-- The components of an offset in their range. -/
structure OffsetInRange (o : LocationOffsetECEF) : Prop where
  offsetX : -XYZ_MAX ≤ o.offsetX.toInt ∧ o.offsetX.toInt ≤ XYZ_MAX
  offsetY : -XYZ_MAX ≤ o.offsetY.toInt ∧ o.offsetY.toInt ≤ XYZ_MAX
  offsetZ : -XYZ_MAX ≤ o.offsetZ.toInt ∧ o.offsetZ.toInt ≤ XYZ_MAX

theorem receivedOffset_eq_iff {o : LocationOffsetECEF} :
    receivedOffset o = o ↔ OffsetInRange o := by
  constructor
  · intro h
    exact ⟨(narrowed_eq_iff _).mp (congrArg LocationOffsetECEF.offsetX h),
      (narrowed_eq_iff _).mp (congrArg LocationOffsetECEF.offsetY h),
      (narrowed_eq_iff _).mp (congrArg LocationOffsetECEF.offsetZ h)⟩
  · intro h
    unfold receivedOffset toOffset clip
    dsimp only
    rw [(narrowed_eq_iff _).mpr h.offsetX, (narrowed_eq_iff _).mpr h.offsetY,
      (narrowed_eq_iff _).mpr h.offsetZ]

theorem map_receivedOffset_eq_iff {offsets : List LocationOffsetECEF} :
    offsets.map receivedOffset = offsets ↔ ∀ o ∈ offsets, OffsetInRange o := by
  have hpointwise : offsets.map receivedOffset = offsets.map id ↔
      ∀ o ∈ offsets, receivedOffset o = id o := List.map_inj_left
  rw [List.map_id] at hpointwise
  exact hpointwise.trans (forall₂_congr fun o _ => receivedOffset_eq_iff)

/-- The constraints of the offsets of the C structure. -/
structure OffsetsWellFormed (list : List MobilityECEFOffset) : Prop where
  length : list.length ≤ OFFSETS_LIST_MAX_LENGTH
  range : ∀ p ∈ list, (-500 ≤ p.offsetX ∧ p.offsetX ≤ 501) ∧
    (-500 ≤ p.offsetY ∧ p.offsetY ≤ 501) ∧ (-500 ≤ p.offsetZ ∧ p.offsetZ ≤ 501)

theorem offsets_wellFormed (offsets : List LocationOffsetECEF) :
    OffsetsWellFormed (setOffsets offsets).points := by
  have hclip : ∀ x, -500 ≤ withinOrZero XYZ_MAX x ∧ withinOrZero XYZ_MAX x ≤ 501 := by
    intro x
    have hmem : -XYZ_MAX ≤ withinOrZero XYZ_MAX x ∧ withinOrZero XYZ_MAX x ≤ XYZ_MAX :=
      withinOrZero_mem (by decide)
    unfold XYZ_MAX at hmem ⊢
    omega
  rw [setOffsets_eq, points_columns]
  refine ⟨length_clips_le offsets, ?_⟩
  intro p hp
  obtain ⟨o, -, rfl⟩ := List.mem_map.mp hp
  exact ⟨hclip _, hclip _, hclip _⟩

end carma.message
