-- The commands of guidance: three threads on one set of atomic values. The jobs
-- follow the state machine, the maneuvers set speed and steering, and the timing
-- loop latches what is set and publishes it. The functions are those of
-- `GuidanceCommands`; a call here is one access to the shared values.
import Carma.GuidanceNode
import Carma.Lib.ExactDouble
import Mathlib.Algebra.Order.Field.Rat
import Mathlib.Data.List.Induction
import Mathlib.Tactic.NormNum

open lib.exact_double
open lib.runs

namespace carma.guidance_commands

open carma.guidance_node (GuidanceState Job)

variable {K : Type} [Field K] [LinearOrder K]

/-! ## The constants -/

def maxSpeedCmd : K := (357632 : ℕ) / (10000 : ℕ)

def sixMph : K := (268224 : ℕ) / (100000 : ℕ)

/-- `Math.PI / 2.0`, as the double is. -/
def halfPi : K := 884279719003555 / 562949953421312

/-- The value that stands for unset. -/
def unset : Dbl K := .fin (-1)

/-! ## The state -/

/-- Where a pass of the timing loop is. -/
inductive Pass (K : Type)
  | start
  | notEngaged
  | notActive
  | engaged
  | cached (speed accel : Dbl K)
  | speedRead (speed : Dbl K)
  | lateral
  | idle
  | idleAccel
  | idleSpeed
  | idleSpeedRead (speed : Dbl K)

/-- Where the job of a clean restart is: the writes that are still to come. -/
inductive Restart
  | done
  | speedNext
  | accelNext
deriving DecidableEq

/-- `GuidanceCommands`. `setting` is what a call of `setSpeedCommand`, which holds the lock,
has still to write. -/
structure GuidanceCommands (K : Type) where
  currentState : GuidanceState
  speedCommand : Dbl K
  maxAccel : Dbl K
  steeringCommand : Dbl K
  lateralAccel : Dbl K
  yawRate : Dbl K
  vehicleAccelLimit : Dbl K
  useWrenchEffortStoppingOverride : Bool
  usingWrenchEffort : Bool
  setting : Option (Dbl K)
  restart : Restart
  pass : Pass K

/-- The commands after their constructor. -/
def newGuidanceCommands : GuidanceCommands K where
  currentState := .STARTUP
  speedCommand := unset
  maxAccel := unset
  steeringCommand := .fin 0
  lateralAccel := .fin 0
  yawRate := .fin 0
  vehicleAccelLimit := .fin ((5 : ℕ) / (2 : ℕ))
  useWrenchEffortStoppingOverride := false
  usingWrenchEffort := false
  setting := none
  restart := .done
  pass := .start

/-- What is published to the controller. -/
inductive Event (K : Type)
  | speedAccel (speed maxAccel : Dbl K)
  | wrenchEffort (data : ℤ)
  | lateralControl (axleAngle maxAccel maxAxleAngleRate : Dbl K)

/-- What a step of the timing loop reads elsewhere: the last message on the velocity, and
the speed and the limit of the maneuver inputs. -/
structure Inputs (K : Type) where
  velocity : Option (Dbl K)
  currentSpeed : Dbl K
  maxAccelLimit : Dbl K

/-- The parameters that `onStartup` reads. -/
structure Params (K : Type) where
  vehicleAccelLimit : Dbl K
  useWrenchEffortStoppingOverride : Bool

/-- One access of one of the threads. -/
inductive Call (K : Type)
  | job (j : Job) (params : Params K)
  | restartStep
  | setSpeedCommand (speed accel : Dbl K)
  | setMaxAccel
  | setSteeringCommand (axleAngle lateralAccel yawRate : Dbl K)
  | timingLoop (inputs : Inputs K)

namespace GuidanceCommands

/-! ## The jobs -/

/-- A job up to its write of the state, and with its other writes where it has no more than
that to write afterwards. -/
def job (g : GuidanceCommands K) (j : Job) (params : Params K) : GuidanceCommands K :=
  match j with
  | .onStartup =>
    { g with
      vehicleAccelLimit := params.vehicleAccelLimit
      useWrenchEffortStoppingOverride := params.useWrenchEffortStoppingOverride
      currentState := .STARTUP }
  | .onCleanRestart => { g with currentState := .DRIVERS_READY, restart := .speedNext }
  | j => { g with currentState := j.state }

/-- The resets of a clean restart, which take no lock. -/
def restartStep (g : GuidanceCommands K) : GuidanceCommands K :=
  match g.restart with
  | .done => g
  | .speedNext => { g with speedCommand := .fin 0, restart := .accelNext }
  | .accelNext => { g with maxAccel := .fin 0, restart := .done }

/-! ## The setters -/

/-- `setSpeedCommand` up to its first write. It takes the lock. -/
def setSpeedCommand (g : GuidanceCommands K) (speed accel : Dbl K) : GuidanceCommands K :=
  let speed :=
    if (Dbl.fin maxSpeedCmd).lt speed then .fin maxSpeedCmd
    else if speed.lt (.fin 0) then .fin 0
    else speed
  { g with speedCommand := speed, setting := some accel }

/-- The second write of `setSpeedCommand`, which gives the lock back. -/
def setMaxAccel (g : GuidanceCommands K) : GuidanceCommands K :=
  match g.setting with
  | none => g
  | some accel =>
    { g with
      maxAccel := Dbl.minOf accel.abs g.vehicleAccelLimit.abs
      setting := none }

def setSteeringCommand (g : GuidanceCommands K) (axleAngle lateralAccel yawRate : Dbl K) :
    GuidanceCommands K :=
  { g with
    steeringCommand := Dbl.minOf (Dbl.maxOf axleAngle (.fin (-halfPi))) (.fin halfPi)
    lateralAccel := lateralAccel
    yawRate := yawRate }

/-! ## The timing loop -/

/-- When the wrench effort takes the place of a speed command. -/
def stopsWithWrench (g : GuidanceCommands K) (speed accel : Dbl K) (inputs : Inputs K) : Bool :=
  g.useWrenchEffortStoppingOverride && speed.abs.lt (.fin (1 / (10 : ℕ))) &&
    (accel.abs - inputs.maxAccelLimit).lt (.fin (1 / (100000 : ℕ))) &&
    inputs.currentSpeed.lt (.fin sixMph)

/-- The speed that an idle pass latches. -/
def currentSpeedOf (inputs : Inputs K) : Dbl K :=
  match inputs.velocity with
  | none => .fin 0
  | some x => Dbl.minOf (Dbl.maxOf x (.fin 0)) (.fin maxSpeedCmd)

/-- The next access of `timingLoop`. The two synchronized blocks wait for the lock. -/
def timingLoop (g : GuidanceCommands K) (inputs : Inputs K) : GuidanceCommands K × List (Event K) :=
  match g.pass with
  | .start =>
    ({ g with pass := if g.currentState = .ENGAGED then .engaged else .notEngaged }, [])
  | .engaged =>
    if g.setting.isSome then (g, [])
    else ({ g with pass := .cached g.speedCommand g.maxAccel }, [])
  | .cached speed accel =>
    if g.stopsWithWrench speed accel inputs then
      ({ g with usingWrenchEffort := true, pass := .lateral }, [.wrenchEffort (-100)])
    else
      ({ g with pass := .speedRead g.speedCommand }, [])
  | .speedRead speed => ({ g with pass := .lateral }, [.speedAccel speed g.maxAccel])
  | .lateral =>
    if g.setting.isSome then (g, [])
    else
      ({ g with pass := .start },
        [.lateralControl g.steeringCommand g.lateralAccel g.yawRate])
  | .notEngaged =>
    ({ g with pass := if g.currentState = .ACTIVE then .idle else .notActive }, [])
  | .notActive =>
    ({ g with pass := if g.currentState = .INACTIVE then .idle else .start }, [])
  | .idle =>
    -- A compare and set, as are the accesses of the next pass.
    ({ g with
        speedCommand := if g.speedCommand = unset then currentSpeedOf inputs else g.speedCommand
        pass := .idleAccel }, [])
  | .idleAccel =>
    ({ g with
        maxAccel := if g.maxAccel = unset then inputs.maxAccelLimit else g.maxAccel
        pass := .idleSpeed }, [])
  | .idleSpeed => ({ g with pass := .idleSpeedRead g.speedCommand }, [])
  | .idleSpeedRead speed =>
    ({ g with pass := .start },
      [.speedAccel speed g.maxAccel, .lateralControl (.fin 0) (.fin 0) (.fin 0)])

/-! ## The threads together -/

/-- One access. A job waits for the resets of the one before it, and a setter for the lock. -/
def call (g : GuidanceCommands K) : Call K → GuidanceCommands K × List (Event K)
  | .job j params => if g.restart = .done then (g.job j params, []) else (g, [])
  | .restartStep => (g.restartStep, [])
  | .setSpeedCommand speed accel =>
    if g.setting.isSome then (g, []) else (g.setSpeedCommand speed accel, [])
  | .setMaxAccel => (g.setMaxAccel, [])
  | .setSteeringCommand axleAngle lateralAccel yawRate =>
    if g.setting.isSome then (g, [])
    else (g.setSteeringCommand axleAngle lateralAccel yawRate, [])
  | .timingLoop inputs => g.timingLoop inputs

end GuidanceCommands

/-- What the threads have published. -/
def published (calls : List (Call K)) : List (Event K) :=
  logged GuidanceCommands.call newGuidanceCommands calls

/-- The commands after the accesses of the threads. -/
def commandsAfter (calls : List (Call K)) : GuidanceCommands K :=
  stateAfter GuidanceCommands.call newGuidanceCommands calls

/-! ## Where a speed comes from -/

/-- The pairs of a speed and a limit that are published. -/
def Event.commands : Event K → List (Dbl K × Dbl K)
  | .speedAccel speed maxAccel => [(speed, maxAccel)]
  | _ => []

def commands (l : List (Event K)) : List (Dbl K × Dbl K) := l.flatMap Event.commands

omit [Field K] [LinearOrder K] in
@[simp] theorem commands_append (l l' : List (Event K)) :
    commands (l ++ l') = commands l ++ commands l' := List.flatMap_append

/-- What `setSpeedCommand` makes of a speed. -/
def capped (speed : Dbl K) : Dbl K := speed.clampTo 0 maxSpeedCmd

/-- The speed that a pass has read and has still to publish. -/
def Pass.speed : Pass K → List (Dbl K)
  | .speedRead speed | .idleSpeedRead speed => [speed]
  | _ => []

namespace GuidanceCommands

/-- All that an access can do to the speed and to what is published. -/
inductive SpeedEffect (k : Call K) (g g' : GuidanceCommands K) (events : List (Event K)) : Prop
  | kept (hspeed : g'.speedCommand = g.speedCommand) (hpass : ∀ s ∈ g'.pass.speed, s ∈ g.pass.speed)
      (hevents : commands events = [])
  | read (hspeed : g'.speedCommand = g.speedCommand) (hpass : g'.pass.speed = [g.speedCommand])
      (hevents : commands events = [])
  | publishes (speed : Dbl K) (hspeed : g'.speedCommand = g.speedCommand)
      (hpass : g.pass.speed = [speed]) (hpass' : g'.pass.speed = [])
      (hevents : commands events = [(speed, g.maxAccel)])
  | set (speed accel : Dbl K) (hcall : k = .setSpeedCommand speed accel)
      (hspeed : g'.speedCommand = capped speed) (hpass : g'.pass = g.pass)
      (hevents : commands events = [])
  | reset (hspeed : g'.speedCommand = .fin 0) (hpass : g'.pass = g.pass)
      (hevents : commands events = [])
  | latched (inputs : Inputs K) (hcall : k = .timingLoop inputs) (hunset : g.speedCommand = unset)
      (hspeed : g'.speedCommand = currentSpeedOf inputs) (hpass' : g'.pass.speed = [])
      (hevents : commands events = [])

theorem speedEffect_timingLoop (g : GuidanceCommands K) (inputs : Inputs K) :
    SpeedEffect (.timingLoop inputs) g (g.timingLoop inputs).1 (g.timingLoop inputs).2 := by
  unfold timingLoop
  cases hpass : g.pass with
  | start => exact .kept rfl (by simp only; split_ifs <;> simp [Pass.speed]) rfl
  | notEngaged => exact .kept rfl (by simp only; split_ifs <;> simp [Pass.speed]) rfl
  | notActive => exact .kept rfl (by simp only; split_ifs <;> simp [Pass.speed]) rfl
  | engaged =>
    simp only
    split_ifs
    · exact .kept rfl (fun s hs => hs) rfl
    · exact .kept rfl (by simp [Pass.speed]) rfl
  | cached speed accel =>
    simp only
    split_ifs
    · exact .kept rfl (by simp [Pass.speed]) rfl
    · exact .read rfl rfl rfl
  | speedRead speed => exact .publishes speed rfl (by simp [hpass, Pass.speed]) rfl rfl
  | lateral =>
    simp only
    split_ifs
    · exact .kept rfl (fun s hs => hs) rfl
    · exact .kept rfl (by simp [Pass.speed]) rfl
  | idle =>
    simp only
    split_ifs with hunset
    · exact .latched inputs rfl hunset rfl rfl rfl
    · exact .kept rfl (by simp [Pass.speed]) rfl
  | idleAccel => exact .kept rfl (by simp [Pass.speed]) rfl
  | idleSpeed => exact .read rfl rfl rfl
  | idleSpeedRead speed => exact .publishes speed rfl (by simp [hpass, Pass.speed]) rfl rfl

/-- The inversion of an access, as to the speed. -/
theorem speedEffect_call (g : GuidanceCommands K) (k : Call K) :
    SpeedEffect k g (g.call k).1 (g.call k).2 := by
  have hnothing : SpeedEffect k g g [] := .kept rfl (fun s hs => hs) rfl
  cases k with
  | job j params =>
    simp only [call]
    split_ifs
    · cases j <;> exact .kept rfl (fun s hs => hs) rfl
    · exact hnothing
  | restartStep =>
    simp only [call, restartStep]
    split
    · exact hnothing
    · exact .reset rfl rfl rfl
    · exact .kept rfl (fun s hs => hs) rfl
  | setSpeedCommand speed accel =>
    simp only [call]
    split_ifs
    · exact hnothing
    · exact .set speed accel rfl rfl rfl rfl
  | setMaxAccel =>
    simp only [call, setMaxAccel]
    split
    · exact hnothing
    · exact .kept rfl (fun s hs => hs) rfl
  | setSteeringCommand axleAngle lateralAccel yawRate =>
    simp only [call]
    split_ifs
    · exact hnothing
    · exact .kept rfl (fun s hs => hs) rfl
  | timingLoop inputs => exact speedEffect_timingLoop g inputs

end GuidanceCommands

open GuidanceCommands (currentSpeedOf)

theorem speedEffect_next (calls : List (Call K)) (k : Call K) :
    GuidanceCommands.SpeedEffect k (commandsAfter calls) (commandsAfter (calls ++ [k]))
      ((commandsAfter calls).call k).2 := by
  simpa only [commandsAfter, stateAfter_snoc] using
    GuidanceCommands.speedEffect_call (commandsAfter calls) k

theorem published_snoc (calls : List (Call K)) (k : Call K) :
    published (calls ++ [k]) = published calls ++ ((commandsAfter calls).call k).2 :=
  logged_snoc _ _ _ _

/-- A speed that is published comes from nowhere, from a restart, from the one velocity that
was latched, or from a maneuver. -/
def ComesFrom (calls : List (Call K)) (latch speed : Dbl K) : Prop :=
  speed = unset ∨ speed = .fin 0 ∨ speed = latch ∨
    ∃ asked accel, Call.setSpeedCommand asked accel ∈ calls ∧ speed = capped asked

/-- Nothing is latched, or a velocity that a pass has read. -/
def IsLatch (calls : List (Call K)) (latch : Dbl K) : Prop :=
  latch = unset ∨ ∃ inputs, Call.timingLoop inputs ∈ calls ∧ latch = currentSpeedOf inputs

theorem comesFrom_snoc {calls : List (Call K)} {latch speed : Dbl K}
    (h : ComesFrom calls latch speed) (k : Call K) : ComesFrom (calls ++ [k]) latch speed := by
  rcases h with h | h | h | ⟨asked, accel, hmem, h⟩
  · exact Or.inl h
  · exact Or.inr (Or.inl h)
  · exact Or.inr (Or.inr (Or.inl h))
  · exact Or.inr (Or.inr (Or.inr ⟨asked, accel, List.mem_append_left _ hmem, h⟩))

theorem isLatch_snoc {calls : List (Call K)} {latch : Dbl K} (h : IsLatch calls latch)
    (k : Call K) : IsLatch (calls ++ [k]) latch := by
  rcases h with h | ⟨inputs, hmem, h⟩
  · exact Or.inl h
  · exact Or.inr ⟨inputs, List.mem_append_left _ hmem, h⟩

/-- The speed, what a pass has read of it, and what was published of it. -/
def speedsOf (calls : List (Call K)) : List (Dbl K) :=
  (commandsAfter calls).speedCommand :: (commandsAfter calls).pass.speed ++
    (commands (published calls)).map Prod.fst

section sign

variable [IsStrictOrderedRing K]

theorem maxSpeedCmd_nonneg : (0 : K) ≤ maxSpeedCmd := by
  unfold maxSpeedCmd
  positivity

theorem capped_ne_unset (speed : Dbl K) : capped speed ≠ (unset : Dbl K) := by
  intro h
  have hnan : speed ≠ .nan := by
    rintro rfl
    simp [capped, Dbl.clampTo, Dbl.lt, unset] at h
  obtain ⟨z, hz, hlow, -⟩ := Dbl.clampTo_between hnan (maxSpeedCmd_nonneg (K := K))
  rw [capped, hz] at h
  have hminus : z = -1 := Dbl.fin.inj h
  rw [hminus] at hlow
  exact absurd hlow (by norm_num)

/-- What is latched is a speed that may be asked for, unless it is no number. -/
theorem currentSpeedOf_between {inputs : Inputs K} (h : inputs.velocity ≠ some .nan) :
    ∃ z, currentSpeedOf inputs = .fin z ∧ 0 ≤ z ∧ z ≤ (maxSpeedCmd : K) := by
  have hmax := maxSpeedCmd_nonneg (K := K)
  unfold currentSpeedOf
  rcases hv : inputs.velocity with _ | x | neg | _
  · exact ⟨0, rfl, le_refl _, hmax⟩
  · refine ⟨min (max x 0) maxSpeedCmd, ?_, le_min (le_max_right x 0) hmax, min_le_right _ _⟩
    simp only [Dbl.maxOf_fin, Dbl.minOf_fin]
  · cases neg
    · exact ⟨maxSpeedCmd, by simp [Dbl.maxOf, Dbl.minOf, Dbl.le], hmax, le_refl _⟩
    · refine ⟨0, by simp [Dbl.maxOf, Dbl.minOf, Dbl.le, hmax], le_refl _, hmax⟩
  · exact absurd hv h

theorem currentSpeedOf_ne_unset (inputs : Inputs K) : currentSpeedOf inputs ≠ (unset : Dbl K) := by
  by_cases hv : inputs.velocity = some .nan
  · simp [currentSpeedOf, hv, Dbl.maxOf, Dbl.minOf, unset]
  · obtain ⟨z, hz, hlow, -⟩ := currentSpeedOf_between hv
    intro h
    have hminus : z = -1 := Dbl.fin.inj (hz.symm.trans h)
    rw [hminus] at hlow
    exact absurd hlow (by norm_num)

omit [IsStrictOrderedRing K] in
/-- An access brings no speed but the one that is now commanded. -/
theorem mem_speedsOf_snoc {calls : List (Call K)} {k : Call K} {s : Dbl K}
    (h : s ∈ speedsOf (calls ++ [k])) :
    s ∈ speedsOf calls ∨ s = (commandsAfter (calls ++ [k])).speedCommand := by
  unfold speedsOf at h ⊢
  rw [published_snoc, commands_append] at h
  simp only [List.mem_append, List.mem_cons, List.map_append] at h ⊢
  rcases h with (h | h) | h | h
  · exact Or.inr h
  · cases speedEffect_next calls k with
    | kept hspeed hpass hevents => exact Or.inl (Or.inl (Or.inr (hpass s h)))
    | read hspeed hpass hevents =>
      rw [hpass, List.mem_singleton] at h
      exact Or.inl (Or.inl (Or.inl h))
    | publishes speed hspeed hpass hpass' hevents => simp [hpass'] at h
    | set speed accel hcall hspeed hpass hevents =>
      rw [hpass] at h
      exact Or.inl (Or.inl (Or.inr h))
    | reset hspeed hpass hevents =>
      rw [hpass] at h
      exact Or.inl (Or.inl (Or.inr h))
    | latched inputs hcall hnone hspeed hpass' hevents => simp [hpass'] at h
  · exact Or.inl (Or.inr h)
  · cases speedEffect_next calls k with
    | publishes speed hspeed hpass hpass' hevents =>
      simp only [hevents, List.map_cons, List.map_nil, List.mem_singleton] at h
      exact Or.inl (Or.inl (Or.inr (by simp [hpass, h])))
    | kept hspeed hpass hevents => simp [hevents] at h
    | read hspeed hpass hevents => simp [hevents] at h
    | set speed accel hcall hspeed hpass hevents => simp [hevents] at h
    | reset hspeed hpass hevents => simp [hevents] at h
    | latched inputs hcall hnone hspeed hpass' hevents => simp [hevents] at h

theorem speedsOf_comeFrom (calls : List (Call K)) :
    ∃ latch, IsLatch calls latch ∧ (∀ s ∈ speedsOf calls, ComesFrom calls latch s) ∧
      ((commandsAfter calls).speedCommand = unset → ∀ s ∈ speedsOf calls, s = unset) := by
  induction calls using List.reverseRecOn with
  | nil =>
    have hnone : ∀ s ∈ speedsOf ([] : List (Call K)), s = unset := by
      intro s hs
      simpa [speedsOf, commandsAfter, newGuidanceCommands, Pass.speed, published, logged,
        commands] using hs
    exact ⟨unset, Or.inl rfl, fun s hs => Or.inl (hnone s hs), fun _ => hnone⟩
  | append_singleton calls k ih =>
    obtain ⟨latch, hlatch, hfrom, hunset⟩ := ih
    have hold : ∀ s ∈ speedsOf calls, ComesFrom (calls ++ [k]) latch s := fun s hs =>
      comesFrom_snoc (hfrom s hs) k
    -- Where the access leaves the speed as it was, nothing is new.
    have hkept : (commandsAfter (calls ++ [k])).speedCommand = (commandsAfter calls).speedCommand →
        ∃ latch, IsLatch (calls ++ [k]) latch ∧
          (∀ s ∈ speedsOf (calls ++ [k]), ComesFrom (calls ++ [k]) latch s) ∧
          ((commandsAfter (calls ++ [k])).speedCommand = unset →
            ∀ s ∈ speedsOf (calls ++ [k]), s = unset) := by
      intro hspeed
      have hsame : ∀ s ∈ speedsOf (calls ++ [k]), s ∈ speedsOf calls := by
        intro s hs
        rcases mem_speedsOf_snoc hs with hs | hs
        · exact hs
        · rw [hs, hspeed]
          simp [speedsOf]
      exact ⟨latch, isLatch_snoc hlatch k, fun s hs => hold s (hsame s hs),
        fun hnone s hs => hunset (hspeed ▸ hnone) s (hsame s hs)⟩
    cases speedEffect_next calls k with
    | kept hspeed hpass hevents => exact hkept hspeed
    | read hspeed hpass hevents => exact hkept hspeed
    | publishes speed hspeed hpass hpass' hevents => exact hkept hspeed
    | set speed accel hcall hspeed hpass hevents =>
      refine ⟨latch, isLatch_snoc hlatch k, fun s hs => ?_, fun hnone => ?_⟩
      · rcases mem_speedsOf_snoc hs with hs | hs
        · exact hold s hs
        · exact Or.inr (Or.inr (Or.inr ⟨speed, accel, by simp [hcall], hs.trans hspeed⟩))
      · exact absurd (hspeed.symm.trans hnone) (capped_ne_unset speed)
    | reset hspeed hpass hevents =>
      refine ⟨latch, isLatch_snoc hlatch k, fun s hs => ?_, fun hnone => ?_⟩
      · rcases mem_speedsOf_snoc hs with hs | hs
        · exact hold s hs
        · exact Or.inr (Or.inl (hs.trans hspeed))
      · rw [hspeed] at hnone
        exact absurd (Dbl.fin.inj hnone) (by norm_num)
    | latched inputs hcall hnone hspeed hpass' hevents =>
      refine ⟨currentSpeedOf inputs, Or.inr ⟨inputs, by simp [hcall], rfl⟩, fun s hs => ?_,
        fun hstill => ?_⟩
      · rcases mem_speedsOf_snoc hs with hs | hs
        · exact Or.inl (hunset hnone s hs)
        · exact Or.inr (Or.inr (Or.inl (hs.trans hspeed)))
      · exact absurd (hspeed.symm.trans hstill) (currentSpeedOf_ne_unset inputs)

/-- At most one velocity of the vehicle is ever sent to the controller, over all the times that
guidance is activated: every other speed is unset, a standstill or asked for by a maneuver. -/
theorem only_one_velocity_is_ever_latched (calls : List (Call K)) :
    ∃ latch, IsLatch calls latch ∧
      ∀ c ∈ commands (published calls), ComesFrom calls latch c.1 := by
  obtain ⟨latch, hlatch, hfrom, -⟩ := speedsOf_comeFrom calls
  refine ⟨latch, hlatch, fun c hc => hfrom c.1 ?_⟩
  exact List.mem_append_right _ (List.mem_map_of_mem hc)

/-! ## What is published is legal -/

/-- A number from zero to a bound. -/
def Legal (high : K) (x : Dbl K) : Prop := ∃ z, x = .fin z ∧ 0 ≤ z ∧ z ≤ high

omit [IsStrictOrderedRing K] in
theorem not_legal_unset_of_lt {high : K} (h : (-1 : K) < 0) : ¬ Legal high (unset : Dbl K) := by
  rintro ⟨z, hz, hlow, -⟩
  rw [← Dbl.fin.inj hz] at hlow
  exact absurd hlow (not_le.mpr h)

/-- What the accesses may bring: no NaN, and acceleration limits within one limit. -/
def Call.Sane (limit : K) : Call K → Prop
  | .job _ params => ∃ v, params.vehicleAccelLimit = .fin v ∧ |v| ≤ limit
  | .setSpeedCommand speed accel => speed ≠ .nan ∧ accel ≠ .nan
  | .timingLoop inputs => inputs.velocity ≠ some .nan ∧ Legal limit inputs.maxAccelLimit
  | _ => True

structure Limited (limit : K) (g : GuidanceCommands K) (l : List (Dbl K × Dbl K)) : Prop where
  vehicle : ∃ v, g.vehicleAccelLimit = .fin v ∧ |v| ≤ limit
  setting : g.setting ≠ some .nan
  accel : g.maxAccel = unset ∨ Legal limit g.maxAccel
  published : ∀ c ∈ l, c.2 = unset ∨ Legal limit c.2
  unsetFirst : g.maxAccel = unset → ∀ c ∈ l, c.2 = unset

namespace GuidanceCommands

theorem setMaxAccel_legal {limit v : K} {accel lim : Dbl K} (hv : lim = .fin v) (hle : |v| ≤ limit)
    (haccel : accel ≠ .nan) : Legal limit (Dbl.minOf accel.abs lim.abs) := by
  subst hv
  rcases accel with x | neg | _
  · exact ⟨min |x| |v|, by simp [Dbl.abs, Dbl.minOf_fin], le_min (abs_nonneg x) (abs_nonneg v),
      (min_le_right _ _).trans hle⟩
  · exact ⟨|v|, by simp [Dbl.abs, Dbl.minOf, Dbl.le], abs_nonneg v, hle⟩
  · exact absurd rfl haccel

/-- A sane access keeps the limit on the acceleration unset, or as it was, or makes it legal. -/
theorem call_maxAccel {limit : K} {g : GuidanceCommands K} {l : List (Dbl K × Dbl K)}
    (h : Limited limit g l) {k : Call K} (hk : k.Sane limit) :
    ((g.call k).1.maxAccel = g.maxAccel ∨ Legal limit (g.call k).1.maxAccel) ∧
      (g.call k).1.setting ≠ some .nan ∧
      ∃ v, (g.call k).1.vehicleAccelLimit = .fin v ∧ |v| ≤ limit := by
  have hnothing : (g.maxAccel = g.maxAccel ∨ Legal limit g.maxAccel) ∧ g.setting ≠ some .nan ∧
      ∃ v, g.vehicleAccelLimit = .fin v ∧ |v| ≤ limit := ⟨Or.inl rfl, h.setting, h.vehicle⟩
  cases k with
  | job j params =>
    simp only [call]
    split_ifs
    · cases j <;> first | exact hnothing | exact ⟨Or.inl rfl, h.setting, hk⟩
    · exact hnothing
  | restartStep =>
    simp only [call, restartStep]
    split
    · exact hnothing
    · exact hnothing
    · obtain ⟨v, -, hle⟩ := h.vehicle
      exact ⟨Or.inr ⟨0, rfl, le_refl _, (abs_nonneg v).trans hle⟩, h.setting, h.vehicle⟩
  | setSpeedCommand speed accel =>
    simp only [call]
    split_ifs
    · exact hnothing
    · exact ⟨Or.inl rfl, by simpa [setSpeedCommand] using hk.2, h.vehicle⟩
  | setMaxAccel =>
    simp only [call, setMaxAccel]
    split
    · exact hnothing
    · rename_i accel hset
      obtain ⟨v, hv, hle⟩ := h.vehicle
      have haccel : accel ≠ .nan := by
        rintro rfl
        exact h.setting hset
      exact ⟨Or.inr (setMaxAccel_legal hv hle haccel), by simp, h.vehicle⟩
  | setSteeringCommand axleAngle lateralAccel yawRate =>
    simp only [call]
    split_ifs <;> exact hnothing
  | timingLoop inputs =>
    simp only [call, timingLoop]
    split
    case h_9 =>
      simp only
      split_ifs
      · exact ⟨Or.inr hk.2, h.setting, h.vehicle⟩
      · exact hnothing
    all_goals first | exact hnothing | (split_ifs <;> exact hnothing)

end GuidanceCommands

theorem legal_ne_unset {high : K} {x : Dbl K} (h : Legal high x) : x ≠ unset := by
  rintro rfl
  exact not_legal_unset_of_lt (by norm_num) h

omit [IsStrictOrderedRing K] in
theorem snd_of_published {calls : List (Call K)} {k : Call K} {c : Dbl K × Dbl K}
    (h : c ∈ commands ((commandsAfter calls).call k).2) :
    c.2 = (commandsAfter calls).maxAccel ∧ c.1 ∈ (commandsAfter calls).pass.speed := by
  cases speedEffect_next calls k with
  | publishes speed hspeed hpass hpass' hevents =>
    rw [hevents, List.mem_singleton] at h
    simp [h, hpass]
  | kept hspeed hpass hevents => simp [hevents] at h
  | read hspeed hpass hevents => simp [hevents] at h
  | set speed accel hcall hspeed hpass hevents => simp [hevents] at h
  | reset hspeed hpass hevents => simp [hevents] at h
  | latched inputs hcall hnone hspeed hpass' hevents => simp [hevents] at h

theorem limited_of_sane {limit : K} (hlimit : 5 / 2 ≤ limit) (calls : List (Call K))
    (hsane : ∀ k ∈ calls, k.Sane limit) :
    Limited limit (commandsAfter calls) (commands (published calls)) := by
  induction calls using List.reverseRecOn with
  | nil =>
    exact
      { vehicle := ⟨5 / 2, by simp [commandsAfter, newGuidanceCommands], by rwa [abs_of_pos (by norm_num)]⟩
        setting := by simp [commandsAfter, newGuidanceCommands]
        accel := Or.inl rfl
        published := by simp [published, logged, commands]
        unsetFirst := by simp [published, logged, commands] }
  | append_singleton calls k ih =>
    have hbefore := ih fun j hj => hsane j (by simp [hj])
    obtain ⟨haccel, hsetting, hvehicle⟩ :=
      GuidanceCommands.call_maxAccel hbefore (hsane k (by simp))
    have hafter : commandsAfter (calls ++ [k]) = ((commandsAfter calls).call k).1 :=
      stateAfter_snoc _ _ _ _
    rw [← hafter] at haccel hsetting hvehicle
    have hmem : ∀ c ∈ commands (published (calls ++ [k])),
        c ∈ commands (published calls) ∨ c.2 = (commandsAfter calls).maxAccel := by
      intro c hc
      rw [published_snoc, commands_append, List.mem_append] at hc
      exact hc.imp id fun h => (snd_of_published h).1
    refine ⟨hvehicle, hsetting, ?_, fun c hc => ?_, fun hunset c hc => ?_⟩
    · rcases haccel with hsame | hlegal
      · rw [hsame]
        exact hbefore.accel
      · exact Or.inr hlegal
    · rcases hmem c hc with hold | hnow
      · exact hbefore.published c hold
      · rw [hnow]
        exact hbefore.accel
    · rcases haccel with hsame | hlegal
      · rw [hsame] at hunset
        rcases hmem c hc with hold | hnow
        · exact hbefore.unsetFirst hunset c hold
        · rw [hnow, hunset]
      · exact absurd hunset (legal_ne_unset hlegal)

/-- A pass holds an unset speed only where none but unset ones were published. -/
theorem unset_pass_first (calls : List (Call K)) (h : unset ∈ (commandsAfter calls).pass.speed) :
    ∀ c ∈ commands (published calls), c.1 = unset := by
  induction calls using List.reverseRecOn with
  | nil => simp [published, logged, commands]
  | append_singleton calls k ih =>
    intro c hc
    rw [published_snoc, commands_append, List.mem_append] at hc
    cases speedEffect_next calls k with
    | kept hspeed hpass hevents =>
      rw [hevents] at hc
      exact ih (hpass _ h) c (by simpa using hc)
    | read hspeed hpass hevents =>
      rw [hevents] at hc
      rw [hpass, List.mem_singleton] at h
      obtain ⟨latch, -, -, hunset⟩ := speedsOf_comeFrom calls
      apply hunset h.symm
      exact List.mem_append_right _ (List.mem_map_of_mem (by simpa using hc))
    | publishes speed hspeed hpass hpass' hevents => simp [hpass'] at h
    | set speed accel hcall hspeed hpass hevents =>
      rw [hevents] at hc
      exact ih (hpass ▸ h) c (by simpa using hc)
    | reset hspeed hpass hevents =>
      rw [hevents] at hc
      exact ih (hpass ▸ h) c (by simpa using hc)
    | latched inputs hcall hnone hspeed hpass' hevents => simp [hpass'] at h

/-- What is published: a legal speed and a legal limit, or unset ones, and these only before
the first that is set. -/
theorem what_is_published_is_legal_once_it_is_set {limit : K} (hlimit : 5 / 2 ≤ limit)
    (calls : List (Call K)) (hsane : ∀ k ∈ calls, k.Sane limit) :
    (∀ c ∈ commands (published calls), (c.1 = unset ∨ Legal maxSpeedCmd c.1) ∧
        (c.2 = unset ∨ Legal limit c.2)) ∧
      (commands (published calls)).Pairwise fun c d =>
        (d.1 = unset → c.1 = unset) ∧ (d.2 = unset → c.2 = unset) := by
  constructor
  · intro c hc
    refine ⟨?_, (limited_of_sane hlimit calls hsane).published c hc⟩
    obtain ⟨latch, hlatch, hfrom, -⟩ := speedsOf_comeFrom calls
    have hspeed : c.1 ∈ speedsOf calls := List.mem_append_right _ (List.mem_map_of_mem hc)
    rcases hfrom c.1 hspeed with h | h | h | ⟨asked, accel, hmem, h⟩
    · exact Or.inl h
    · exact Or.inr ⟨0, h, le_refl _, maxSpeedCmd_nonneg⟩
    · rcases hlatch with hl | ⟨inputs, hmem, hl⟩
      · exact Or.inl (h.trans hl)
      · rw [h, hl]
        exact Or.inr (currentSpeedOf_between (hsane _ hmem).1)
    · rw [h]
      exact Or.inr (Dbl.clampTo_between (hsane _ hmem).1 maxSpeedCmd_nonneg)
  · induction calls using List.reverseRecOn with
    | nil => simp [published, logged, commands]
    | append_singleton calls k ih =>
      have hsane' : ∀ j ∈ calls, j.Sane limit := fun j hj => hsane j (by simp [hj])
      rw [published_snoc, commands_append, List.pairwise_append]
      refine ⟨ih hsane', ?_, ?_⟩
      · cases speedEffect_next calls k with
        | publishes speed hspeed hpass hpass' hevents => simp [hevents]
        | kept hspeed hpass hevents => simp [hevents]
        | read hspeed hpass hevents => simp [hevents]
        | set speed accel hcall hspeed hpass hevents => simp [hevents]
        | reset hspeed hpass hevents => simp [hevents]
        | latched inputs hcall hnone hspeed hpass' hevents => simp [hevents]
      · intro c hc d hd
        obtain ⟨hsnd, hfst⟩ := snd_of_published hd
        refine ⟨fun hunset => ?_, fun hunset => ?_⟩
        · rw [hunset] at hfst
          exact unset_pass_first calls hfst c hc
        · exact (limited_of_sane hlimit calls hsane').unsetFirst (hsnd ▸ hunset) c hc

end sign

/-- Guidance is activated at 10 m/s, an idle pass is made, and a maneuver asks for 50 m/s. -/
def aDrive : List (Call ℚ) :=
  let inputs : Inputs ℚ := ⟨some (.fin 10), .fin 10, .fin (5 / 2)⟩
  .job .onActive ⟨.fin (5 / 2), false⟩ :: List.replicate 6 (.timingLoop inputs) ++
    [.setSpeedCommand (.fin 50) (.fin (-1)), .setMaxAccel, .job .onEngaged ⟨.fin (5 / 2), false⟩] ++
    List.replicate 5 (.timingLoop inputs)

theorem aDrive_sane : ∀ k ∈ aDrive, k.Sane (5 / 2) := by
  have hpos : (0 : ℚ) ≤ 5 / 2 := by norm_num
  intro k hk
  simp only [aDrive, List.replicate, List.cons_append, List.nil_append, List.mem_cons,
    List.not_mem_nil, or_false] at hk
  rcases hk with rfl | rfl | rfl | rfl | rfl | rfl | rfl | rfl | rfl | rfl | rfl | rfl | rfl | rfl | rfl
  all_goals simp [Call.Sane, Legal, hpos, abs_of_nonneg]

theorem aDrive_latches_its_velocity :
    ∃ latch, IsLatch aDrive latch ∧ ∀ c ∈ commands (published aDrive), ComesFrom aDrive latch c.1 :=
  only_one_velocity_is_ever_latched aDrive

theorem aDrive_is_legal :
    commands (published aDrive) =
        [(.fin 10, .fin (5 / 2)), (.fin maxSpeedCmd, .fin 1)] ∧
      (commands (published aDrive)).Pairwise fun c d =>
        (d.1 = unset → c.1 = unset) ∧ (d.2 = unset → c.2 = unset) :=
  ⟨by decide +kernel, (what_is_published_is_legal_once_it_is_set (le_refl _) aDrive aDrive_sane).2⟩

end carma.guidance_commands
