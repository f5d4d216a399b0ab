-- The strategy strings of the platooning plugin: how the states write them, how the states
-- that receive them take them apart, and when what is read is what was meant.
import Carma.Lib.Text
import Carma.Platooning
import Mathlib.Data.Rat.Floor

open lib.exact_double lib.text
open carma.platoon_manager

namespace carma.platooning

variable {K : Type} [Field K] [LinearOrder K] [FloorRing K]

/-! ## Writing -/

/-- `OPERATION_STATUS_PARAMS`. -/
def statusParams (cmdSpeed dtd speed : K) : Text :=
  "STATUS|CMDSPEED:".toList ++ formatFixed 2 cmdSpeed ++ ",DTD:".toList ++ formatFixed 2 dtd ++
    ",SPEED:".toList ++ formatFixed 2 speed

/-- `OPERATION_INFO_PARAMS`. -/
def infoParams (rear : Text) (length speed : K) (size : ℤ) (dtd : K) : Text :=
  "INFO|REAR:".toList ++ rear ++ ",LENGTH:".toList ++ formatFixed 2 length ++
    ",SPEED:".toList ++ formatFixed 2 speed ++ ",SIZE:".toList ++ formatInt size ++
    ",DTD:".toList ++ formatFixed 2 dtd

def joinAtRearParams (size : ℤ) (speed dtd : K) : Text :=
  "SIZE:".toList ++ formatInt size ++ ",SPEED:".toList ++ formatFixed 2 speed ++
    ",DTD:".toList ++ formatFixed 2 dtd

/-! ## Reading -/

def OPERATION_INFO_TYPE : Text := "INFO".toList

def OPERATION_STATUS_TYPE : Text := "STATUS".toList

/-- `strategyParams.substring(type.length() + 1)` of a message that starts with the type. -/
def paramsOf (type strategyParams : Text) : Option Text :=
  if type.isPrefixOf strategyParams then some (strategyParams.drop (type.length + 1)) else none

/-- `Double.parseDouble(params.split(",")[i].split(":")[1])`. -/
def doubleAt {K : Type} [Field K] (i : ℕ) (params : Text) : Option (Dbl K) :=
  (field ',' ':' i params).bind parseDouble

/-- `Integer.parseInt(params.split(",")[i].split(":")[1])`. -/
def intAt (i : ℕ) (params : Text) : Option ℤ := (field ',' ':' i params).bind parseInt

/-- What `memberUpdates` takes from its parameters. None where it throws. -/
def statusOf {K : Type} [Field K] (params : Text) : Option (StatusParams (Dbl K)) := do
  let cmdSpeed ← doubleAt 0 params
  let dtDistance ← doubleAt 1 params
  let curSpeed ← doubleAt 2 params
  return ⟨cmdSpeed, dtDistance, curSpeed⟩

/-- A STATUS message, as all states but standby take it. -/
def receiveStatus {K : Type} [Field K] (strategyParams : Text) : Option (StatusParams (Dbl K)) :=
  (paramsOf OPERATION_STATUS_TYPE strategyParams).bind statusOf

namespace LeaderState

/-- What `onMobilityOperationMessage` takes from an INFO message: the id and the downtrack
distance of the rear vehicle. The type is still before the first key. -/
def receiveInfo {K : Type} [Field K] (strategyParams : Text) : Option (Text × Dbl K) :=
  if OPERATION_INFO_TYPE.isPrefixOf strategyParams then do
    let rearVehicleBsmId ← field ',' ':' 0 strategyParams
    let rearVehicleDtd ← doubleAt 4 strategyParams
    return (rearVehicleBsmId, rearVehicleDtd)
  else none

/-- What `onMobilityRequestMessage` takes from a request to join at the rear. -/
def receiveJoin {K : Type} [Field K] (params : Text) : Option (JoinParams (Dbl K)) := do
  let applicantSize ← intAt 0 params
  let applicantCurrentSpeed ← doubleAt 1 params
  let applicantCurrentDtd ← doubleAt 2 params
  return ⟨applicantSize, applicantCurrentSpeed, applicantCurrentDtd⟩

end LeaderState

/-- What a follower takes from an INFO message: the size of the platoon. -/
def FollowerState.receiveInfo (strategyParams : Text) : Option ℤ :=
  (paramsOf OPERATION_INFO_TYPE strategyParams).bind (intAt 3)

/-! ## The entries -/

theorem statusParams_eq (cmdSpeed dtd speed : K) :
    statusParams cmdSpeed dtd speed = "STATUS|".toList ++ joined ',' ':'
      [("CMDSPEED".toList, formatFixed 2 cmdSpeed), ("DTD".toList, formatFixed 2 dtd),
        ("SPEED".toList, formatFixed 2 speed)] := by
  unfold statusParams
  generalize formatFixed 2 cmdSpeed = a, formatFixed 2 dtd = b, formatFixed 2 speed = c
  simp [joined, entry]

/-- After the type and its bar the parameters follow. -/
theorem infoParams_eq (rear : Text) (length speed : K) (size : ℤ) (dtd : K) :
    infoParams rear length speed size dtd = joined ',' ':'
      [("INFO|REAR".toList, rear), ("LENGTH".toList, formatFixed 2 length),
        ("SPEED".toList, formatFixed 2 speed), ("SIZE".toList, formatInt size),
        ("DTD".toList, formatFixed 2 dtd)] := by
  unfold infoParams
  generalize formatFixed 2 length = a, formatFixed 2 speed = b, formatFixed 2 dtd = c,
    formatInt size = d
  simp [joined, entry]

theorem infoParams_drop (rear : Text) (length speed : K) (size : ℤ) (dtd : K) :
    infoParams rear length speed size dtd = "INFO|".toList ++ joined ',' ':'
      [("REAR".toList, rear), ("LENGTH".toList, formatFixed 2 length),
        ("SPEED".toList, formatFixed 2 speed), ("SIZE".toList, formatInt size),
        ("DTD".toList, formatFixed 2 dtd)] := by
  unfold infoParams
  generalize formatFixed 2 length = a, formatFixed 2 speed = b, formatFixed 2 dtd = c,
    formatInt size = d
  simp [joined, entry]

theorem joinAtRearParams_eq (size : ℤ) (speed dtd : K) :
    joinAtRearParams size speed dtd = joined ',' ':'
      [("SIZE".toList, formatInt size), ("SPEED".toList, formatFixed 2 speed),
        ("DTD".toList, formatFixed 2 dtd)] := by
  unfold joinAtRearParams
  generalize formatInt size = a, formatFixed 2 speed = b, formatFixed 2 dtd = c
  simp [joined, entry]

/-- A value that neither separator cuts. -/
def Plain (value : Text) : Prop := value ≠ [] ∧ ',' ∉ value ∧ ':' ∉ value

theorem plain_formatFixed (x : K) : Plain (formatFixed 2 x) := by
  refine ⟨formatFixed_ne_nil 2 x, fun h => ?_, fun h => ?_⟩
  · have := formatFixed_chars h
    revert this
    decide
  · have := formatFixed_chars h
    revert this
    decide

theorem plain_formatInt (n : ℤ) : Plain (formatInt n) := by
  refine ⟨formatInt_ne_nil n, fun h => ?_, fun h => ?_⟩
  · have := formatInt_chars h
    revert this
    decide
  · have := formatInt_chars h
    revert this
    decide

omit [Field K] [LinearOrder K] [FloorRing K] in
/-- A plain value is found where the keys and the other values are without separators. -/
theorem field_plain {entries : List (Text × Text)} {i : ℕ} {e : Text × Text}
    (hkeys : ∀ e ∈ entries, ',' ∉ e.1 ∧ ':' ∉ e.1) (hvalues : ∀ e ∈ entries, ',' ∉ e.2)
    (hi : entries[i]? = some e) (hplain : Plain e.2) :
    field ',' ':' i (joined ',' ':' entries) = some e.2 :=
  field_joined (by decide) hkeys hvalues hi hplain.2.2 hplain.1

theorem doubleAt_formatFixed {entries : List (Text × Text)} {i : ℕ} {key : Text} {x : K}
    (hkeys : ∀ e ∈ entries, ',' ∉ e.1 ∧ ':' ∉ e.1) (hvalues : ∀ e ∈ entries, ',' ∉ e.2)
    (hi : entries[i]? = some (key, formatFixed 2 x)) :
    doubleAt i (joined ',' ':' entries) = some (.fin (rounded 2 x)) := by
  unfold doubleAt
  rw [field_plain hkeys hvalues hi (plain_formatFixed x)]
  exact parseDouble_formatFixed (by decide) x

omit [Field K] [LinearOrder K] [FloorRing K] in
theorem intAt_formatInt {entries : List (Text × Text)} {i : ℕ} {key : Text} {n : ℤ}
    (hkeys : ∀ e ∈ entries, ',' ∉ e.1 ∧ ':' ∉ e.1) (hvalues : ∀ e ∈ entries, ',' ∉ e.2)
    (hi : entries[i]? = some (key, formatInt n)) (hlow : -2 ^ 31 ≤ n) (hhigh : n < 2 ^ 31) :
    intAt i (joined ',' ':' entries) = some n := by
  unfold intAt
  rw [field_plain hkeys hvalues hi (plain_formatInt n)]
  exact parseInt_formatInt hlow hhigh

/-! ## The three strings -/

/-- Every STATUS message is read as it was meant. -/
theorem receiveStatus_statusParams (cmdSpeed dtd speed : K) :
    receiveStatus (statusParams cmdSpeed dtd speed) =
      some ⟨.fin (rounded 2 cmdSpeed), .fin (rounded 2 dtd), .fin (rounded 2 speed)⟩ := by
  have hkeys : ∀ e ∈ [("CMDSPEED".toList, formatFixed 2 cmdSpeed),
      ("DTD".toList, formatFixed 2 dtd), ("SPEED".toList, formatFixed 2 speed)],
      ',' ∉ e.1 ∧ ':' ∉ e.1 := by
    simp only [List.forall_mem_cons]
    decide
  have hvalues : ∀ e ∈ [("CMDSPEED".toList, formatFixed 2 cmdSpeed),
      ("DTD".toList, formatFixed 2 dtd), ("SPEED".toList, formatFixed 2 speed)], ',' ∉ e.2 := by
    simp [(plain_formatFixed _).2.1]
  have hparams : paramsOf OPERATION_STATUS_TYPE (statusParams cmdSpeed dtd speed) =
      some (joined ',' ':' [("CMDSPEED".toList, formatFixed 2 cmdSpeed),
        ("DTD".toList, formatFixed 2 dtd), ("SPEED".toList, formatFixed 2 speed)]) := by
    rw [statusParams_eq]
    rfl
  unfold receiveStatus
  rw [hparams, Option.bind_some]
  unfold statusOf
  rw [doubleAt_formatFixed hkeys hvalues rfl, doubleAt_formatFixed hkeys hvalues rfl,
    doubleAt_formatFixed hkeys hvalues rfl]
  rfl

/-- Every request to join is read as it was meant. -/
theorem receiveJoin_joinAtRearParams {size : ℤ} (hlow : -2 ^ 31 ≤ size) (hhigh : size < 2 ^ 31)
    (speed dtd : K) : LeaderState.receiveJoin (joinAtRearParams size speed dtd) =
      some ⟨size, .fin (rounded 2 speed), .fin (rounded 2 dtd)⟩ := by
  have hkeys : ∀ e ∈ [("SIZE".toList, formatInt size), ("SPEED".toList, formatFixed 2 speed),
      ("DTD".toList, formatFixed 2 dtd)], ',' ∉ e.1 ∧ ':' ∉ e.1 := by
    simp only [List.forall_mem_cons]
    decide
  have hvalues : ∀ e ∈ [("SIZE".toList, formatInt size), ("SPEED".toList, formatFixed 2 speed),
      ("DTD".toList, formatFixed 2 dtd)], ',' ∉ e.2 := by
    simp [(plain_formatFixed _).2.1, (plain_formatInt _).2.1]
  unfold LeaderState.receiveJoin
  rw [joinAtRearParams_eq, intAt_formatInt hkeys hvalues rfl hlow hhigh,
    doubleAt_formatFixed hkeys hvalues rfl, doubleAt_formatFixed hkeys hvalues rfl]
  rfl

/-- The entries of an INFO message, with the first key as it is read. -/
def infoEntries (key rear : Text) (length speed : K) (size : ℤ) (dtd : K) : List (Text × Text) :=
  [(key, rear), ("LENGTH".toList, formatFixed 2 length), ("SPEED".toList, formatFixed 2 speed),
    ("SIZE".toList, formatInt size), ("DTD".toList, formatFixed 2 dtd)]

theorem infoEntries_keys {key : Text} (hkey : ',' ∉ key ∧ ':' ∉ key) (rear : Text)
    (length speed : K) (size : ℤ) (dtd : K) :
    ∀ e ∈ infoEntries key rear length speed size dtd, ',' ∉ e.1 ∧ ':' ∉ e.1 := by
  unfold infoEntries
  simp only [List.forall_mem_cons]
  exact ⟨hkey, by decide⟩

theorem infoEntries_values (key : Text) {rear : Text} (hrear : ',' ∉ rear) (length speed : K)
    (size : ℤ) (dtd : K) : ∀ e ∈ infoEntries key rear length speed size dtd, ',' ∉ e.2 := by
  unfold infoEntries
  simp [hrear, (plain_formatFixed _).2.1, (plain_formatInt _).2.1]

theorem receiveInfo_leader {rear : Text} (hplain : Plain rear) (length speed : K) (size : ℤ)
    (dtd : K) : LeaderState.receiveInfo (infoParams rear length speed size dtd) =
      some (rear, .fin (rounded 2 dtd)) := by
  have hkey : ',' ∉ "INFO|REAR".toList ∧ ':' ∉ "INFO|REAR".toList := by decide
  have hkeys := infoEntries_keys hkey rear length speed size dtd
  have hvalues := infoEntries_values "INFO|REAR".toList hplain.2.1 length speed size dtd
  have htype : OPERATION_INFO_TYPE.isPrefixOf (infoParams rear length speed size dtd) = true := by
    rw [infoParams_drop]
    rfl
  unfold LeaderState.receiveInfo
  rw [if_pos htype, infoParams_eq]
  show (do
    let rearVehicleBsmId ← field ',' ':' 0 (joined ',' ':' (infoEntries _ rear length speed size dtd))
    let rearVehicleDtd ← doubleAt 4 (joined ',' ':' (infoEntries _ rear length speed size dtd))
    return (rearVehicleBsmId, rearVehicleDtd) : Option (Text × Dbl K)) = _
  rw [field_plain hkeys hvalues rfl hplain, doubleAt_formatFixed hkeys hvalues rfl]
  rfl

/-- It reads no other id right. -/
theorem plain_of_receiveInfo {rear : Text} {length speed : K} {size : ℤ} {dtd : K} {x : Dbl K}
    (h : LeaderState.receiveInfo (infoParams rear length speed size dtd) = some (rear, x)) :
    Plain rear := by
  unfold LeaderState.receiveInfo at h
  split at h
  · obtain ⟨value, hvalue, h⟩ := Option.bind_eq_some_iff.mp h
    obtain ⟨dtd', -, h⟩ := Option.bind_eq_some_iff.mp h
    obtain ⟨rfl, -⟩ := Prod.mk.inj (Option.some.inj h)
    obtain ⟨hcomma, hcolon⟩ := field_some hvalue
    refine ⟨?_, hcomma, hcolon⟩
    rintro rfl
    -- nothing is left after the colon
    have hne : infoEntries "INFO|REAR".toList [] length speed size dtd ≠ [] := by
      simp [infoEntries]
    have hsep : ',' ≠ ':' := by decide
    have hsplit := split_joined hne hsep
      (fun e he => (infoEntries_keys (by decide) _ _ _ _ _ e he).1)
      (infoEntries_values _ List.not_mem_nil _ _ _ _)
    rw [infoParams_eq] at hvalue
    unfold field at hvalue
    change ((split ',' (joined ',' ':' (infoEntries _ _ length speed size dtd)))[0]?.bind _) = _
      at hvalue
    rw [hsplit] at hvalue
    change (split ':' (entry ':' "INFO|REAR".toList []))[1]? = some [] at hvalue
    rw [split_entry_nil (by decide) (by decide)] at hvalue
    cases hvalue
  · cases h

theorem receiveInfo_follower {rear : Text} (hrear : ',' ∉ rear) (length speed : K) {size : ℤ}
    (hlow : -2 ^ 31 ≤ size) (hhigh : size < 2 ^ 31) (dtd : K) :
    FollowerState.receiveInfo (infoParams rear length speed size dtd) = some size := by
  have hparams : paramsOf OPERATION_INFO_TYPE (infoParams rear length speed size dtd) =
      some (joined ',' ':' (infoEntries "REAR".toList rear length speed size dtd)) := by
    rw [infoParams_drop]
    rfl
  unfold FollowerState.receiveInfo
  rw [hparams, Option.bind_some]
  exact intAt_formatInt (infoEntries_keys (by decide) _ _ _ _ _)
    (infoEntries_values _ hrear _ _ _ _) rfl hlow hhigh

/-! ## All of them -/

/-- What goes into the strings. -/
structure StrategyValues (K : Type) where
  cmdSpeed : K
  downtrack : K
  speed : K
  size : ℤ
  rear : Text
  length : K
  rearDtd : K

/-- Every string is read into the same id and size, and into the numbers rounded to two
decimals. -/
def RoundTrips (v : StrategyValues K) : Prop :=
  receiveStatus (statusParams v.cmdSpeed v.downtrack v.speed) =
      some ⟨.fin (rounded 2 v.cmdSpeed), .fin (rounded 2 v.downtrack), .fin (rounded 2 v.speed)⟩ ∧
    LeaderState.receiveInfo (infoParams v.rear v.length v.speed v.size v.rearDtd) =
      some (v.rear, .fin (rounded 2 v.rearDtd)) ∧
    FollowerState.receiveInfo (infoParams v.rear v.length v.speed v.size v.rearDtd) =
      some v.size ∧
    LeaderState.receiveJoin (joinAtRearParams v.size v.speed v.downtrack) =
      some ⟨v.size, .fin (rounded 2 v.speed), .fin (rounded 2 v.downtrack)⟩

/-- The strings round trip just when the id of the rear is neither empty nor has a separator. -/
theorem strategy_strings_round_trip_just_where_the_rear_id_is_plain (v : StrategyValues K)
    (hlow : -2 ^ 31 ≤ v.size) (hhigh : v.size < 2 ^ 31) : RoundTrips v ↔ Plain v.rear := by
  constructor
  · rintro ⟨-, hinfo, -, -⟩
    exact plain_of_receiveInfo hinfo
  · intro hplain
    exact ⟨receiveStatus_statusParams _ _ _, receiveInfo_leader hplain _ _ _ _,
      receiveInfo_follower hplain.2.1 _ _ hlow hhigh _,
      receiveJoin_joinAtRearParams hlow hhigh _ _⟩

theorem the_strings_of_a_platoon_of_three_round_trip :
    RoundTrips ⟨(12345 / 1000 : ℚ), 120, -1 / 1000, 3, "1A2B3C4D".toList, 36, 95⟩ := by
  apply (strategy_strings_round_trip_just_where_the_rear_id_is_plain _ (by decide)
    (by decide)).mpr
  show Plain "1A2B3C4D".toList
  exact ⟨by decide, by decide, by decide⟩

/-- With the empty id nothing follows the first colon, and the index is out of range. -/
theorem an_empty_rear_id_is_not_read :
    (LeaderState.receiveInfo (infoParams [] (5 : ℚ) 10 1 100) : Option (Text × Dbl ℚ)) = none ∧
      ¬ RoundTrips ⟨(10 : ℚ), 100, 10, 1, [], 5, 100⟩ := by
  have hnone : (LeaderState.receiveInfo (infoParams [] (5 : ℚ) 10 1 100) :
      Option (Text × Dbl ℚ)) = none := by
    decide +kernel
  refine ⟨hnone, ?_⟩
  rintro ⟨-, hinfo, -, -⟩
  rw [hnone] at hinfo
  cases hinfo

/-! ## The messages of the plugin -/

/-- The numbers of a STATUS message are those that its string is read into. -/
theorem composeStatus_strategyParams {plugin : PlatooningPlugin K}
    (hdecimals : plugin.params.twoDecimals = rounded 2) (r : Readings K) :
    ∃ header params, plugin.composeStatus r = .operation ⟨header, .status params⟩ ∧
      receiveStatus (statusParams r.lastSpeedCmd r.downtrack r.currentSpeed) =
        some ⟨.fin params.cmdSpeed, .fin params.dtDistance, .fin params.curSpeed⟩ := by
  refine ⟨_, _, rfl, ?_⟩
  rw [hdecimals]
  exact receiveStatus_statusParams _ _ _

theorem joinRequest_strategyParams {plugin : PlatooningPlugin K}
    (hdecimals : plugin.params.twoDecimals = rounded 2) (r : Readings K) (leaderId : String)
    (hlow : -2 ^ 31 ≤ (plugin.platoonManager.getTotalPlatooningSize : ℤ))
    (hhigh : (plugin.platoonManager.getTotalPlatooningSize : ℤ) < 2 ^ 31) :
    ∃ header params, plugin.joinRequest r leaderId = .request ⟨header, .joinPlatoonAtRear params⟩ ∧
      LeaderState.receiveJoin (joinAtRearParams plugin.platoonManager.getTotalPlatooningSize
        r.currentSpeed r.downtrack) = some ⟨params.size, .fin params.speed, .fin params.dtd⟩ := by
  refine ⟨_, _, rfl, ?_⟩
  rw [hdecimals]
  exact receiveJoin_joinAtRearParams hlow hhigh _ _

/-- An INFO message with a plain id is read into the id and the distance that it has. -/
theorem composeInfo_strategyParams {plugin : PlatooningPlugin K}
    (hdecimals : plugin.params.twoDecimals = rounded 2) (r : Readings K)
    (hplain : Plain (plugin.platoonManager.getPlatoonRearBsmId r.bsmId).toList) :
    ∃ header params, plugin.composeInfo r = .operation ⟨header, .info params⟩ ∧
      LeaderState.receiveInfo (infoParams (plugin.platoonManager.getPlatoonRearBsmId r.bsmId).toList
        (plugin.platoonManager.getCurrentPlatoonLength r.downtrack plugin.params.vehicleLength)
        r.currentSpeed plugin.platoonManager.getTotalPlatooningSize
        (plugin.platoonManager.getPlatoonRearDowntrackDistance r.downtrack)) =
        some (params.rear.toList, .fin params.dtd) := by
  refine ⟨_, _, rfl, ?_⟩
  rw [hdecimals]
  exact receiveInfo_leader hplain _ _ _ _

end carma.platooning
