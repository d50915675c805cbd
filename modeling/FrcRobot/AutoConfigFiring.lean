import FrcRobot.AutoConfig
import FrcRobot.Interleaving
import FrcRobot.LastWrite

set_option autoImplicit false

/- One run of the autonomous sequence, with the touch sensor it does not read and
the requests it makes. -/
namespace FrcRobot.AutoConfigFiring

open AutoConfig Interleaving LastWrite PollingScript

/-- `requests` is no part of the program. -/
structure Execution where
  sequence : Sequence
  localTime : Nat
  requests : List AutoRequest
  deriving DecidableEq

/-- What a statement finds: the milliseconds since the one before, the angle of the
gyro and what DigitalInput::Get returns. -/
structure Sample where
  elapsed : Nat
  angle : ℚ
  touch : Nat

def start (localTime : Nat) : Execution := ⟨Sequence.start, localTime, []⟩

/-- Global has created the sensor before it starts the thread. -/
def Execution.reading (execution : Execution) (sample : Sample) : Reading :=
  ⟨execution.localTime + sample.elapsed, sample.angle, true⟩

def step (execution : Execution) (sample : Sample) : Option Execution :=
  (execution.sequence.step (execution.reading sample)).map fun taken =>
    ⟨taken.2, execution.localTime + sample.elapsed, execution.requests ++
      (taken.1.bind fun command => command.request (execution.reading sample)).toList⟩

def speedOf (motor : Motor) : AutoRequest → Option (Option ℚ)
  | .setSpeed other pow => if other = motor then some (some pow) else none
  | .setControlTarget _ _ | .cockShooterCancel | .cockShooterStart => none

def Execution.lastSpeed (execution : Execution) (motor : Motor) : Option ℚ :=
  lastValue (speedOf motor) none execution.requests

/-- The sequence is about to evaluate the test of the firing stage. -/
def Execution.atFiringTest (execution : Execution) : Bool :=
  match execution.sequence.code with
  | .spinUntil .shooterTSensor _ :: _ => true
  | _ => false

def Execution.Returned (execution : Execution) : Prop := execution.sequence.code = []

/-- As CockArm::execute has it, where the comment stands next to `!Get()`. -/
def Pressed (sample : Sample) : Prop := sample.touch = 0

/-- Each turn of the firing stage asks the shooter for -1, and leaves the stage
only while the sensor is pressed. -/
def Fires (execution : Execution) (sample : Sample) : Prop :=
  execution.atFiringTest = true → execution.lastSpeed .mShooter = some (-1) ∧
    (execution.sequence.holds (execution.reading sample) .shooterTSensor = true → Pressed sample)

/-- A sequence that has returned leaves nothing running. -/
def Stops (execution : Execution) : Prop :=
  execution.Returned → ∀ motor ∈ [Motor.drvBk, .drvFL, .drvFR, .mShooter],
    execution.lastSpeed motor = some 0

def PressedAtTest (execution : Execution) (sample : Sample) : Prop :=
  execution.atFiringTest = true → Pressed sample

instance (execution : Execution) : Decidable execution.Returned :=
  inferInstanceAs (Decidable (_ = _))

instance (sample : Sample) : Decidable (Pressed sample) := inferInstanceAs (Decidable (_ = _))

instance (execution : Execution) (sample : Sample) : Decidable (Fires execution sample) :=
  inferInstanceAs (Decidable (_ = _ → _ ∧ (_ = _ → Pressed _)))

instance (execution : Execution) (sample : Sample) : Decidable (PressedAtTest execution sample) :=
  inferInstanceAs (Decidable (_ = _ → Pressed _))

/-- A command that sets the motor to no other speed. -/
def Agrees (motor : Motor) (pow : ℚ) : Command → Prop
  | .setSpeed other value => other = motor → value = pow
  | _ => True

instance (motor : Motor) (pow : ℚ) : (command : Command) → Decidable (Agrees motor pow command)
  | .setSpeed _ _ => inferInstanceAs (Decidable (_ = _ → _ = _))
  | .sequenceStartTime | .desiredFinishTime _ | .setControlTarget _ _
  | .setControlTargetFromAngle _ _ | .cockShooterCancel | .cockShooterStart | .lightChange _
  | .sleep _ => .isTrue trivial

/-- The motor is still to be set to the speed, or stays at it to the end. -/
def Settles (motor : Motor) (pow : ℚ) (passed : Test → Prop) (execution : Execution) : Prop :=
  Before (.setSpeed motor pow) passed (Agrees motor pow) execution.sequence.code ∨
    execution.lastSpeed motor = some pow ∧
      ∀ command, Mentions execution.sequence.code command → Agrees motor pow command

theorem step_inv {execution next : Execution} {sample : Sample}
    (taken : step execution sample = some next) :
    ∃ emitted, advance (execution.sequence.holds (execution.reading sample))
        execution.sequence.code = some (emitted, next.sequence.code) ∧
      next.requests = execution.requests ++
        (emitted.bind fun command => command.request (execution.reading sample)).toList := by
  obtain ⟨⟨emitted, sequence⟩, stepped, rfl⟩ := Option.map_eq_some_iff.mp taken
  exact ⟨emitted, step_code stepped, rfl⟩

/-- The requests of a command that agrees leave a motor at its speed. -/
theorem lastValue_agrees {requests : List AutoRequest} {motor : Motor} {pow : ℚ}
    (settled : lastValue (speedOf motor) none requests = some pow) (reading : Reading)
    {command : Command} (agrees : Agrees motor pow command) :
    lastValue (speedOf motor) none (requests ++ (command.request reading).toList) = some pow := by
  cases command with
  | setSpeed other value =>
      simp only [Command.request, Option.toList_some, lastValue_append_singleton, speedOf]
      by_cases same : other = motor
      · rw [if_pos same, agrees same]
        rfl
      · rw [if_neg same]
        exact settled
  | setControlTarget | setControlTargetFromAngle | cockShooterCancel | cockShooterStart =>
      exact (lastValue_append_singleton ..).trans settled
  | sequenceStartTime | desiredFinishTime | lightChange | sleep =>
      exact (congrArg _ (List.append_nil requests)).trans settled

theorem Settles.step {motor : Motor} {pow : ℚ} {passed : Test → Prop} {execution next : Execution}
    {sample : Sample} (settles : Settles motor pow passed execution)
    (taken : step execution sample = some next) : Settles motor pow passed next := by
  obtain ⟨emitted, advanced, requested⟩ := step_inv taken
  rcases settles with before | ⟨settled, agrees⟩
  · rcases before_advance before advanced with ahead | ⟨rfl, agrees⟩
    · exact .inl ahead
    · refine .inr ⟨?_, agrees⟩
      rw [Execution.lastSpeed, requested]
      exact (lastValue_append_singleton ..).trans (by simp [speedOf])
  · refine .inr ⟨?_, fun command ahead =>
      agrees command (mentions_advance advanced command (.inr ahead))⟩
    rw [Execution.lastSpeed, requested]
    rcases emitted with _ | command
    · exact (congrArg _ (List.append_nil execution.requests)).trans settled
    · have mentioned := mentions_advance advanced command (.inl rfl)
      exact lastValue_agrees settled _ (agrees command mentioned)

/-- The motor is set to the speed by the statement at this place of initialize. -/
theorem settles_start {motor : Motor} {pow : ℚ} {passed : Test → Prop} (place localTime : Nat)
    (there : initializeCode[place]? = some (.run (.setSpeed motor pow)))
    (front : ∀ test ∈ tests (initializeCode.take place), passed test)
    (later : ∀ command ∈ (initializeCode.drop (place + 1)).flatMap Instr.commands,
      Agrees motor pow command) : Settles motor pow passed (start localTime) := by
  obtain ⟨within, here⟩ := List.getElem?_eq_some_iff.mp there
  refine .inl ⟨initializeCode.take place, initializeCode.drop (place + 1), ?_, front, ?_⟩
  · rw [← here, List.getElem_cons_drop, List.take_append_drop]
    rfl
  · exact fun command mentioned => later command ((mentions_iff _ _).mp mentioned)

/-- The shooter is set before the test of the firing stage, the wheels at the end. -/
structure Inv (execution : Execution) : Prop where
  shooter : Settles .mShooter (-1) (· ≠ .shooterTSensor) execution
  drvBk : Settles .drvBk 0 (fun _ => True) execution
  drvFL : Settles .drvFL 0 (fun _ => True) execution
  drvFR : Settles .drvFR 0 (fun _ => True) execution

theorem inv_start (localTime : Nat) : Inv (start localTime) where
  shooter := settles_start 13 localTime rfl (by decide +kernel) (by decide +kernel)
  drvBk := settles_start 24 localTime rfl (fun _ _ => trivial) (by decide +kernel)
  drvFL := settles_start 25 localTime rfl (fun _ _ => trivial) (by decide +kernel)
  drvFR := settles_start 26 localTime rfl (fun _ _ => trivial) (by decide +kernel)

theorem Inv.step {execution next : Execution} {sample : Sample} (inv : Inv execution)
    (taken : step execution sample = some next) : Inv next :=
  ⟨inv.shooter.step taken, inv.drvBk.step taken, inv.drvFL.step taken, inv.drvFR.step taken⟩

theorem Settles.returned {motor : Motor} {pow : ℚ} {passed : Test → Prop} {execution : Execution}
    (settles : Settles motor pow passed execution) (returned : execution.Returned) :
    execution.lastSpeed motor = some pow := by
  rcases settles with ⟨front, rest, ahead, _⟩ | ⟨settled, _⟩
  · rw [returned] at ahead
    exact absurd ahead.symm (List.append_ne_nil_of_right_ne_nil _ (List.cons_ne_nil _ _))
  · exact settled

/-- The wheels stand when the sequence returns, and the shooter runs. -/
theorem Inv.returned {execution : Execution} (inv : Inv execution)
    (returned : execution.Returned) :
    (∀ motor ∈ [Motor.drvBk, .drvFL, .drvFR], execution.lastSpeed motor = some 0) ∧
      execution.lastSpeed .mShooter = some (-1) := by
  refine ⟨?_, inv.shooter.returned returned⟩
  simp only [List.forall_mem_cons]
  exact ⟨inv.drvBk.returned returned, inv.drvFL.returned returned, inv.drvFR.returned returned,
    nofun⟩

theorem Inv.not_stops {execution : Execution} (inv : Inv execution)
    (returned : execution.Returned) : ¬Stops execution := by
  intro stops
  have runs := (inv.returned returned).2
  rw [stops returned .mShooter (by decide)] at runs
  exact absurd runs (by decide +kernel)

theorem Inv.atFiringTest {execution : Execution} (inv : Inv execution)
    (firing : execution.atFiringTest = true) : execution.lastSpeed .mShooter = some (-1) := by
  rcases inv.shooter with ⟨front, rest, ahead, passed, _⟩ | ⟨settled, _⟩
  · unfold Execution.atFiringTest at firing
    split at firing
    · rename_i body code first
      rw [first] at ahead
      cases front with
      | nil => cases ahead
      | cons instr others =>
          cases ahead
          exact absurd rfl (passed .shooterTSensor (List.mem_cons_self ..))
    · cases firing
  · exact settled

/-- The pointer is set, so the stage is left at its first test. -/
theorem fires_iff {execution : Execution} (inv : Inv execution) (sample : Sample) :
    Fires execution sample ↔ PressedAtTest execution sample := by
  constructor
  · exact fun fires firing => (fires firing).2 rfl
  · exact fun pressed firing => ⟨inv.atFiringTest firing, fun _ => pressed firing⟩

/-- As time goes on the sequence returns, whatever the sensor says. -/
theorem reach_returned (execution : Execution) :
    CanReach step (fun _ _ => True) Execution.Returned execution := by
  induction ahead : execution.sequence.code generalizing execution with
  | nil => exact .here ahead
  | cons instr rest ih =>
      obtain ⟨elapsed, passes⟩ := passes_eventually execution.sequence execution.localTime instr
      obtain ⟨emitted, advanced⟩ : ∃ emitted,
          advance (execution.sequence.holds (execution.reading ⟨elapsed, 0, 0⟩)) (instr :: rest) =
            some (emitted, rest) := advance_passing passes
      rw [← ahead] at advanced
      obtain ⟨sequence, stepped, code⟩ := step_of_advance advanced
      have taken : step execution ⟨elapsed, 0, 0⟩ = some _ := congrArg (Option.map _) stepped
      exact .cons trivial taken (ih _ code)

/-- A run fires and stops as it should exactly when it evaluates the test of the
firing stage only while the sensor is pressed, and has not returned; and every run
can go on until it returns, and then the shooter is left running. -/
theorem fires_and_stops_iff (localTime : Nat) (samples : List Sample) (last : Execution)
    (ran : run step (start localTime) samples = some last) :
    (Along step Fires (start localTime) samples ∧ Stops last ↔
      Along step PressedAtTest (start localTime) samples ∧ ¬last.Returned) ∧
    CanReach step (fun _ _ => True) (fun finish => finish.Returned ∧ ¬Stops finish) last := by
  have initially := inv_start localTime
  have inv : Inv last :=
    run_invariant Inv (fun _ _ _ before taken => before.step taken) initially ran
  constructor
  · constructor
    · rintro ⟨fires, stops⟩
      refine ⟨?_, fun returned => inv.not_stops returned stops⟩
      exact Along.of_invariant Inv (fun _ _ _ before _ taken => before.step taken)
        (fun _ sample before fires => (fires_iff before sample).mp fires) initially fires
    · rintro ⟨pressed, running⟩
      refine ⟨?_, fun returned => absurd returned running⟩
      exact Along.of_invariant Inv (fun _ _ _ before _ taken => before.step taken)
        (fun _ sample before pressed => (fires_iff before sample).mpr pressed) initially pressed
  · obtain ⟨more, finish, along, later, returned⟩ := reach_returned last
    have still : Inv finish :=
      run_invariant Inv (fun _ _ _ before taken => before.step taken) inv later
    exact ⟨more, finish, along, later, returned, still.not_stops returned⟩

/-- Time passes in time for the first two tests, and the last one; the touch sensor
says the same all along. -/
def sequenceSamples (touch : Nat) : List Sample :=
  List.replicate 7 ⟨0, 0, touch⟩ ++ [⟨750, 0, touch⟩] ++ List.replicate 3 ⟨0, 0, touch⟩ ++
    [⟨1250, 0, touch⟩] ++ List.replicate 11 ⟨0, 0, touch⟩ ++ [⟨2500, 0, touch⟩] ++
    List.replicate 7 ⟨0, 0, touch⟩

/-- Where the samples lead from the start. -/
def after (samples : List Sample) : Execution := (run step (start 0) samples).getD (start 0)

/-- The sensor is pressed, and the sequence has just left the firing stage. -/
theorem fires_and_stops_iff_pressed :
    Along step Fires (start 0) ((sequenceSamples 0).take 15) ∧
      Stops (after ((sequenceSamples 0).take 15)) :=
  (fires_and_stops_iff 0 ((sequenceSamples 0).take 15) (after ((sequenceSamples 0).take 15))
    (by decide +kernel)).1.mpr (by decide +kernel)

/-- The sensor is never pressed, and the sequence returns all the same. -/
theorem not_fires_and_stops_unpressed :
    run step (start 0) (sequenceSamples 1) = some (after (sequenceSamples 1)) ∧
      (after (sequenceSamples 1)).Returned ∧
      ¬Along step Fires (start 0) (sequenceSamples 1) ∧ ¬Stops (after (sequenceSamples 1)) := by
  have returned : (after (sequenceSamples 1)).Returned := by decide +kernel
  refine ⟨by decide +kernel, returned, by decide +kernel, fun stops => ?_⟩
  exact absurd (stops returned .mShooter (by decide)) (by decide +kernel)

end FrcRobot.AutoConfigFiring
