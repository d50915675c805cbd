import FrcRobot.AngleControl
import FrcRobot.Interleaving

set_option autoImplicit false

/- One tick of the angle controller on the timer thread, while other threads set
its target. The guards in execute and setControlTarget are unnamed or declare a
new variable named `_mutex`, so none of them acquires the mutex, and the tick
reads `_targetAngle` once for each place where the source names it. -/
namespace FrcRobot.AngleTargetTick

open Interleaving LinearAngleTarget RobotMath

variable {K : Type*} [Field K] [LinearOrder K]

/-- The place that execute has got to. -/
inductive Tick (K : Type*) where
  | isComplete
  | speedControlStep
  | dirToTarget (error : K)
  | setSpeedForce (pow : K)
  deriving DecidableEq

deriving instance DecidableEq for LinearAngleTarget

/-- `stores` holds what each call of setControlTarget under way has evaluated and
not yet assigned. `shown` and `reads` are no part of the program: the targets
that have been current during the tick, and what it has read of them. -/
structure Execution (K : Type*) [Field K] [LinearOrder K] where
  control : LinearAngleTarget K
  encoderAngle : K
  stores : List K
  tick : Option (Tick K)
  sent : Option K
  shown : List K
  reads : List K
  deriving DecidableEq

/-- A call of setControlTarget evaluates its conditional, which may read the
target, or the call at an index assigns it. -/
inductive Action (K : Type*) where
  | evaluate (val : K)
  | assign (index : Nat)
  | advance

/-- A tick begins, whatever calls are under way. -/
def begin (control : LinearAngleTarget K) (encoderAngle : K) (stores : List K) : Execution K :=
  ⟨control, encoderAngle, stores, some .isComplete, none, [control.targetAngle], []⟩

/-- The end of speedControlStep. -/
def result (control : LinearAngleTarget K) (error pGain : K) : K :=
  if |error| < control.threshold then 0 else pGain

variable [FloorRing K]

/-- What a read of the target is used for. -/
def Tick.read (control : LinearAngleTarget K) (encoderAngle : K) : Tick K → Option (Tick K)
  | .isComplete =>
      some (if control.isComplete encoderAngle then .setSpeedForce 0 else .speedControlStep)
  | .speedControlStep =>
      let error := angleDistance encoderAngle control.targetAngle
      let pGain := sgn error * |error| * ((1 - control.minSpeed) / 90) + control.minSpeed
      some (if control.minSpeed < |pGain| then .setSpeedForce (result control error pGain)
        else .dirToTarget error)
  | .dirToTarget error =>
      let dir := getMotorDirToTarget encoderAngle control.targetAngle
      some (.setSpeedForce (result control error (dir.value * control.minSpeed)))
  | .setSpeedForce _ => none

/-- The next read of the tick, or the call that ends it. -/
def Execution.advance (execution : Execution K) : Option (Execution K) :=
  match execution.tick with
  | none => none
  | some (.setSpeedForce pow) => some { execution with tick := none, sent := some pow }
  | some tick => (tick.read execution.control execution.encoderAngle).map fun next =>
      { execution with
        tick := some next
        reads := execution.reads ++ [execution.control.targetAngle] }

def step (execution : Execution K) : Action K → Option (Execution K)
  | .evaluate val =>
      let store := (execution.control.setControlTargetImpl val).targetAngle
      some { execution with stores := execution.stores ++ [store] }
  | .assign index => execution.stores[index]?.map fun store =>
      { execution with
        control := { execution.control with targetAngle := store }
        stores := execution.stores.eraseIdx index
        shown := if execution.tick.isSome then store :: execution.shown else execution.shown }
  | .advance => execution.advance

/-- The power sent is that of one target that was current meanwhile. -/
def OneTarget (execution : Execution K) : Prop :=
  ∃ target ∈ execution.shown,
    execution.sent = some (execution.control.power execution.encoderAngle target)

instance (execution : Execution K) : Decidable (OneTarget execution) :=
  inferInstanceAs (Decidable (∃ target ∈ execution.shown, _ = _))

/-- With this target the step goes by the direction, at the minimum power. -/
def ByDirection (control : LinearAngleTarget K) (encoderAngle target : K) : Prop :=
  control.threshold ≤ |angleDistance encoderAngle target| ∧
    |control.gain (angleDistance encoderAngle target)| ≤ control.minSpeed

/-- What the reads have made of the power. After three of them it is the minimum
power in the direction of the last, unless the second was within the threshold. -/
def Answered (execution : Execution K) (pow : K) : Prop :=
  match execution.reads with
  | [_, aim, turn] =>
      aim ∈ execution.shown ∧
        |execution.control.gain (angleDistance execution.encoderAngle aim)| ≤
          execution.control.minSpeed ∧
        pow = result execution.control (angleDistance execution.encoderAngle aim)
          ((getMotorDirToTarget execution.encoderAngle turn).value * execution.control.minSpeed)
  | _ => ∃ target ∈ execution.shown,
      pow = execution.control.power execution.encoderAngle target

/-- Where the record of the reads stands when the tick does. -/
def Recorded (execution : Execution K) : Prop :=
  match execution.tick with
  | some .isComplete => execution.reads = []
  | some .speedControlStep => ∃ tested, execution.reads = [tested]
  | some (.dirToTarget error) => ∃ tested aim, execution.reads = [tested, aim] ∧
      aim ∈ execution.shown ∧ error = angleDistance execution.encoderAngle aim ∧
      |execution.control.gain error| ≤ execution.control.minSpeed
  | some (.setSpeedForce pow) => Answered execution pow
  | none => ∃ pow, execution.sent = some pow ∧ Answered execution pow

/-- A target agrees with a direction: it is one for which the direction matters
and is the same, or it is reached and there is no direction. -/
def Agrees (control : LinearAngleTarget K) (encoderAngle target : K) (dir : MotorDir) : Prop :=
  ByDirection control encoderAngle target ∧ getMotorDirToTarget encoderAngle target = dir ∨
    |angleDistance encoderAngle target| < control.threshold ∧ dir = .dirNone

instance (control : LinearAngleTarget K) (encoderAngle target : K) (dir : MotorDir) :
    Decidable (Agrees control encoderAngle target dir) :=
  inferInstanceAs (Decidable ((_ ∧ _) ∧ _ ∨ _ ∧ _))

/-- A third read is made for the direction only. Unless the error of the second
one was within the threshold, or there is no minimum power to give a direction
to, that direction agrees with a target that was current meanwhile. -/
def Unmixed (execution : Execution K) : Prop :=
  match execution.reads with
  | [_, aim, turn] =>
      |angleDistance execution.encoderAngle aim| < execution.control.threshold ∨
        execution.control.minSpeed = 0 ∨
        ∃ target ∈ execution.shown, Agrees execution.control execution.encoderAngle target
          (getMotorDirToTarget execution.encoderAngle turn)
  | _ => True

instance (execution : Execution K) : Decidable (Unmixed execution) := by
  unfold Unmixed
  split <;> infer_instance

/-- While the tick runs, the target that is current is recorded as one that was. -/
structure Inv (execution : Execution K) : Prop where
  current : execution.tick.isSome = true → execution.control.targetAngle ∈ execution.shown
  recorded : Recorded execution

theorem Answered.assign {execution : Execution K} {pow store : K} {stores shown : List K}
    (answered : Answered execution pow) (more : execution.shown ⊆ shown) :
    Answered { execution with
      control := { execution.control with targetAngle := store }
      stores := stores
      shown := shown } pow := by
  unfold Answered at answered ⊢
  dsimp only
  split at answered
  · exact ⟨more answered.1, answered.2⟩
  · obtain ⟨target, member, same⟩ := answered
    exact ⟨target, more member, same⟩

theorem Inv.assign {execution : Execution K} (inv : Inv execution) (store : K)
    (stores : List K) :
    Inv { execution with
      control := { execution.control with targetAngle := store }
      stores := stores
      shown := if execution.tick.isSome then store :: execution.shown
        else execution.shown } := by
  have more : execution.shown ⊆
      if execution.tick.isSome then store :: execution.shown else execution.shown := by
    split
    · exact List.subset_cons_self ..
    · exact List.Subset.refl _
  refine ⟨fun running => ?_, ?_⟩
  · dsimp only at running ⊢
    rw [if_pos running]
    exact List.mem_cons_self ..
  have recorded := inv.recorded
  unfold Recorded at recorded ⊢
  dsimp only
  split at recorded
  · exact recorded
  · exact recorded
  · obtain ⟨tested, aim, reads, member, rest⟩ := recorded
    exact ⟨tested, aim, reads, more member, rest⟩
  · exact recorded.assign more
  · obtain ⟨pow, sent, answered⟩ := recorded
    exact ⟨pow, sent, answered.assign more⟩

/-- No call has assigned its target yet. -/
structure Undisturbed (control : LinearAngleTarget K) (encoderAngle : K)
    (execution : Execution K) : Prop where
  sameControl : execution.control = control
  sameAngle : execution.encoderAngle = encoderAngle
  shown : ∀ target ∈ execution.shown, target = control.targetAngle
  reads : ∀ target ∈ execution.reads, target = control.targetAngle

theorem Undisturbed.step {control : LinearAngleTarget K} {encoderAngle : K}
    {execution next : Execution K} {action : Action K}
    (undisturbed : Undisturbed control encoderAngle execution)
    (other : ∀ index, action ≠ .assign index) (taken : step execution action = some next) :
    Undisturbed control encoderAngle next := by
  obtain ⟨rfl, rfl, shown, reads⟩ := undisturbed
  cases action with
  | evaluate val =>
      cases taken
      exact ⟨rfl, rfl, shown, reads⟩
  | assign index => exact absurd rfl (other index)
  | advance =>
      change execution.advance = some next at taken
      unfold Execution.advance at taken
      split at taken
      · cases taken
      · cases taken
        exact ⟨rfl, rfl, shown, reads⟩
      · obtain ⟨after, _, rfl⟩ := Option.map_eq_some_iff.mp taken
        refine ⟨rfl, rfl, shown, List.forall_mem_append.mpr ⟨reads, ?_⟩⟩
        exact List.forall_mem_singleton.mpr rfl

theorem value_injective : Function.Injective fun dir : MotorDir => (dir.value : K) := by
  intro dir other same
  have equal : dir.value = other.value := Int.cast_injective same
  cases dir <;> cases other <;> first | rfl | exact absurd equal (by decide)

variable [IsStrictOrderedRing K]

/-- What a target's own step comes to. -/
theorem power_eq_result (control : LinearAngleTarget K) (encoderAngle target : K) :
    control.power encoderAngle target =
      result control (angleDistance encoderAngle target)
        (if control.minSpeed < |control.gain (angleDistance encoderAngle target)| then
          control.gain (angleDistance encoderAngle target)
        else (getMotorDirToTarget encoderAngle target).value * control.minSpeed) := by
  simp only [power, speedControlStep, sgn_mul_abs]
  rfl

theorem power_of_complete {control : LinearAngleTarget K} {encoderAngle target : K}
    (complete : |angleDistance encoderAngle target| < control.threshold) :
    control.power encoderAngle target = 0 := by
  rw [power_eq_result, result, if_pos complete]

theorem power_of_within {control : LinearAngleTarget K} {encoderAngle target : K}
    (within : |control.gain (angleDistance encoderAngle target)| ≤ control.minSpeed) :
    control.power encoderAngle target =
      result control (angleDistance encoderAngle target)
        ((getMotorDirToTarget encoderAngle target).value * control.minSpeed) := by
  rw [power_eq_result, if_neg (not_lt.mpr within)]

/-- Beyond the minimum power no direction makes up for the gain. -/
theorem ne_of_beyond {control : LinearAngleTarget K} {gain : K}
    (beyond : control.minSpeed < |gain|) (dir : MotorDir) :
    gain ≠ dir.value * control.minSpeed := by
  rintro rfl
  have nonneg := control.minSpeed_nonneg
  rw [abs_mul, abs_of_nonneg nonneg] at beyond
  have atMost : |(dir.value : K)| ≤ 1 := by
    cases dir <;> simp [MotorDir.value]
  have scaled := mul_le_mul_of_nonneg_right atMost nonneg
  linarith

/-- The targets whose own step gives the minimum power in a direction are those
that agree with it. -/
theorem power_eq_iff_agrees {control : LinearAngleTarget K} (present : control.minSpeed ≠ 0)
    (encoderAngle target : K) (dir : MotorDir) :
    control.power encoderAngle target = dir.value * control.minSpeed ↔
      Agrees control encoderAngle target dir := by
  unfold Agrees ByDirection
  by_cases complete : |angleDistance encoderAngle target| < control.threshold
  · rw [power_of_complete complete]
    have none : (0 : K) = dir.value * control.minSpeed ↔ dir = .dirNone := by
      rw [zero_eq_mul, or_iff_left present]
      cases dir <;> simp [MotorDir.value]
    simp [complete, not_le.mpr complete, none]
  · have far := not_lt.mp complete
    rw [power_eq_result, result, if_neg complete]
    split
    · rename_i beyond
      simp [complete, not_le.mpr beyond, ne_of_beyond beyond dir]
    · rename_i within
      rw [mul_left_inj' present, value_injective.eq_iff]
      simp [complete, far, not_lt.mp within]

/-- The read of the error. -/
theorem read_speedControlStep (control : LinearAngleTarget K) (encoderAngle : K) :
    Tick.read control encoderAngle .speedControlStep =
      some (if control.minSpeed <
          |control.gain (angleDistance encoderAngle control.targetAngle)| then
        .setSpeedForce (control.power encoderAngle control.targetAngle)
      else .dirToTarget (angleDistance encoderAngle control.targetAngle)) := by
  simp only [Tick.read, sgn_mul_abs]
  change some (if control.minSpeed <
      |control.gain (angleDistance encoderAngle control.targetAngle)| then _ else _) = _
  by_cases beyond : control.minSpeed <
      |control.gain (angleDistance encoderAngle control.targetAngle)|
  · rw [if_pos beyond, if_pos beyond, power_eq_result, if_pos beyond]
    rfl
  · rw [if_neg beyond, if_neg beyond]

theorem Inv.advance {execution next : Execution K} (inv : Inv execution)
    (taken : execution.advance = some next) : Inv next := by
  obtain ⟨current, recorded⟩ := inv
  obtain ⟨control, encoderAngle, stores, tick, sent, shown, reads⟩ := execution
  match tick with
  | none => cases taken
  | some .isComplete =>
      obtain rfl : reads = [] := recorded
      have here : control.targetAngle ∈ shown := current rfl
      cases taken
      refine ⟨fun _ => here, ?_⟩
      by_cases complete : control.isComplete encoderAngle
      · rw [if_pos complete]
        exact ⟨control.targetAngle, here, (power_of_complete complete).symm⟩
      · rw [if_neg complete]
        exact ⟨control.targetAngle, rfl⟩
  | some .speedControlStep =>
      obtain ⟨tested, rfl⟩ : ∃ tested, reads = [tested] := recorded
      simp only [Execution.advance, read_speedControlStep, Option.map_some,
        Option.some.injEq] at taken
      have here : control.targetAngle ∈ shown := current rfl
      subst taken
      refine ⟨fun _ => here, ?_⟩
      split
      · exact ⟨control.targetAngle, here, rfl⟩
      · rename_i within
        exact ⟨tested, control.targetAngle, rfl, here, rfl, not_lt.mp within⟩
  | some (.dirToTarget error) =>
      obtain ⟨tested, aim, rfl, member, rfl, within⟩ :
        ∃ tested aim, reads = [tested, aim] ∧ aim ∈ shown ∧
          error = angleDistance encoderAngle aim ∧ |control.gain error| ≤ control.minSpeed :=
        recorded
      cases taken
      exact ⟨fun _ => current rfl, member, within, rfl⟩
  | some (.setSpeedForce pow) =>
      cases taken
      exact ⟨fun _ => current rfl, pow, rfl, recorded⟩

theorem step_inv {execution next : Execution K} {action : Action K} (inv : Inv execution)
    (taken : step execution action = some next) : Inv next := by
  cases action with
  | evaluate val =>
      cases taken
      exact ⟨inv.current, inv.recorded⟩
  | assign index =>
      obtain ⟨store, _, rfl⟩ := Option.map_eq_some_iff.mp taken
      exact inv.assign store _
  | advance => exact inv.advance taken

theorem answered_of_returned {control : LinearAngleTarget K} {encoderAngle : K}
    {stores : List K} {actions : List (Action K)} {last : Execution K}
    (ran : run step (begin control encoderAngle stores) actions = some last)
    (returned : last.tick = none) : ∃ pow, last.sent = some pow ∧ Answered last pow := by
  have first : Inv (begin control encoderAngle stores) := ⟨fun _ => List.mem_singleton_self _, rfl⟩
  have recorded := (run_invariant Inv (fun _ _ _ => step_inv) first ran).recorded
  rwa [Recorded, returned] at recorded

/-- A tick that no assignment gets into sends what `execute` computes. -/
theorem execute_undisturbed (control : LinearAngleTarget K) (encoderAngle : K)
    (stores : List K) (actions : List (Action K)) (last : Execution K)
    (others : ∀ action ∈ actions, ∀ index, action ≠ .assign index)
    (ran : run step (begin control encoderAngle stores) actions = some last)
    (returned : last.tick = none) : last.sent = some (control.execute encoderAngle) := by
  have fresh : Undisturbed control encoderAngle (begin control encoderAngle stores) :=
    ⟨rfl, rfl, List.forall_mem_singleton.mpr rfl, List.forall_mem_nil _⟩
  have undisturbed := run_invariant_along _ (fun _ _ _ before other => before.step other)
    fresh (Along.of_forall (fun action member _ => others action member) _) ran
  obtain ⟨pow, sent, answered⟩ := answered_of_returned ran returned
  obtain ⟨rfl, rfl, shown, reads⟩ := undisturbed
  rw [sent, execute_eq]
  change some pow = some (last.control.power last.encoderAngle last.control.targetAngle)
  congr 1
  unfold Answered at answered
  split at answered
  · rename_i tested aim turn same
    obtain rfl : aim = last.control.targetAngle := reads aim (by simp [same])
    obtain rfl : turn = last.control.targetAngle := reads turn (by simp [same])
    rw [power_of_within answered.2.1]
    exact answered.2.2
  · obtain ⟨target, member, rfl⟩ := answered
    rw [shown target member]

/-- A tick sends the power of one target exactly when its last read is in
agreement with some target that was current meanwhile. -/
theorem oneTarget_iff_unmixed (control : LinearAngleTarget K) (encoderAngle : K)
    (stores : List K) (actions : List (Action K)) (last : Execution K)
    (ran : run step (begin control encoderAngle stores) actions = some last)
    (returned : last.tick = none) : OneTarget last ↔ Unmixed last := by
  obtain ⟨pow, sent, answered⟩ := answered_of_returned ran returned
  unfold OneTarget Unmixed
  simp only [sent, Option.some.injEq]
  unfold Answered at answered
  split at answered
  · rename_i tested aim turn reads
    obtain ⟨member, within, rfl⟩ := answered
    unfold result
    by_cases complete :
        |angleDistance last.encoderAngle aim| < last.control.threshold
    · rw [if_pos complete]
      exact iff_of_true ⟨aim, member, (power_of_complete complete).symm⟩ (.inl complete)
    rw [if_neg complete, or_iff_right complete]
    by_cases absent : last.control.minSpeed = 0
    · refine iff_of_true ⟨aim, member, ?_⟩ (.inl absent)
      rw [power_of_within within, result, if_neg complete, absent, mul_zero, mul_zero]
    · rw [or_iff_right absent]
      refine exists_congr fun target => and_congr_right fun _ => ?_
      rw [eq_comm, power_eq_iff_agrees absent]
  · exact iff_of_true answered trivial

/-- The target goes on below the encoder while the tick reads it. -/
def moving : List (Action ℚ) :=
  [.advance, .evaluate (-80), .advance, .assign 0, .advance, .advance]

def moved : Execution ℚ :=
  ⟨fourTenths (-80), 0, [], none, some (-2 / 5), [-80, -60], [-60, -60, -80]⟩

theorem oneTarget_iff_unmixed_moving :
    run step (begin (fourTenths (-60)) 0 []) moving = some moved ∧ OneTarget moved :=
  have ran : run step (begin (fourTenths (-60)) 0 []) moving = some moved := by decide +kernel
  ⟨ran, (oneTarget_iff_unmixed (fourTenths (-60)) 0 [] moving moved ran rfl).mpr
    (by decide +kernel)⟩

/-- The target changes sides between the reads of the error and of the direction. -/
def turning : List (Action ℚ) :=
  [.advance, .advance, .evaluate 60, .assign 0, .advance, .advance]

/-- The minimum power is sent forward. Back to -60 degrees it is that power
backward, and forward to 60 degrees it is twice as much. -/
def turned : Execution ℚ :=
  ⟨fourTenths 60, 0, [], none, some (2 / 5), [60, -60], [-60, -60, 60]⟩

theorem not_oneTarget_turned :
    run step (begin (fourTenths (-60)) 0 []) turning = some turned ∧ turned.tick = none ∧
      ¬OneTarget turned := by decide +kernel

end FrcRobot.AngleTargetTick
