import FrcRobot.ArcadeDriveSnapshot
import FrcRobot.RobotMath

set_option autoImplicit false

/- The powers that one call of steerHandler asks of the two sides. -/
namespace FrcRobot.ArcadeDrive

open ArcadeDriveSnapshot Interleaving RobotMath

variable {K : Type*} [Field K] [LinearOrder K]

/-- The two speeds at the end of so many reads of one snapshot, left first. -/
def SteerHandler.speeds (values : ControlValues K) : ℕ → SteerHandler K → Option (K × K)
  | _, .driveLeft spdL spdR => some (spdL, spdR)
  | 0, _ => none
  | reads + 1, handler => (handler.read values).bind (SteerHandler.speeds values reads)

/-- What the handler passes to setSpeed: it reads each axis at most twice. -/
def steerHandler (values : ControlValues K) : Option (K × K) :=
  SteerHandler.speeds values 4 .testX

theorem steerHandler_eq (values : ControlValues K) :
    steerHandler values =
      some (leftSpeed (values.axisAt 11) (values.axisAt 14),
        rightSpeed (values.axisAt 11) (values.axisAt 14)) := by
  by_cases beyondX : thresh < |values.axisAt 11|
  · by_cases beyondY : thresh < |values.axisAt 14|
    · simp [steerHandler, SteerHandler.speeds, leftSpeed, rightSpeed, spdL, spdR,
        deadband_beyond, beyondX, beyondY]
    · simp [steerHandler, SteerHandler.speeds, leftSpeed, rightSpeed, spdL, spdR,
        deadband_beyond beyondX, deadband_within beyondY, beyondX, beyondY]
  · by_cases beyondY : thresh < |values.axisAt 14|
    · simp [steerHandler, SteerHandler.speeds, leftSpeed, rightSpeed, spdL, spdR,
        deadband_within beyondX, deadband_beyond beyondY, beyondX, beyondY]
    · simp [steerHandler, SteerHandler.speeds, leftSpeed, rightSpeed, spdL, spdR,
        deadband_within beyondX, deadband_within beyondY, beyondX, beyondY]

theorem advance_of_read {execution : Execution K} {handler next : SteerHandler K}
    (running : execution.handler = some handler)
    (read : handler.read execution.values = some next) :
    ∃ after, step execution .advance = some after ∧ after.values = execution.values ∧
      after.handler = some next := by
  refine ⟨{ execution.note handler with handler := some next }, ?_, ?_, rfl⟩
  · cases handler with
    | driveLeft | driveRight => cases read
    | testX | readX | testY | readY =>
        simp only [step, Execution.advance, running, read, Option.map_some]
  · cases handler <;> rfl

theorem run_driveLeft {execution : Execution K} {left right : K}
    (running : execution.handler = some (.driveLeft left right)) :
    ∃ last, run step execution (List.replicate 2 .advance) = some last ∧
      last.handler = none ∧ last.driveLeft = some left ∧ last.driveRight = some right := by
  refine ⟨{ execution with driveLeft := some left, driveRight := some right, handler := none },
    ?_, rfl, rfl, rfl⟩
  simp only [List.replicate, run_cons, run_nil, step, Execution.advance, running, Option.bind_some]

/-- An execution that nothing is published in sends these speeds. -/
theorem speeds_sent {execution : Execution K} {handler : SteerHandler K} {reads : ℕ}
    {left right : K} (running : execution.handler = some handler)
    (returned : SteerHandler.speeds execution.values reads handler = some (left, right)) :
    ∃ accesses last, run step execution (List.replicate accesses .advance) = some last ∧
      last.handler = none ∧ last.driveLeft = some left ∧ last.driveRight = some right := by
  induction reads generalizing execution handler with
  | zero =>
      cases handler with
      | driveLeft spdL spdR =>
          obtain ⟨rfl, rfl⟩ := Prod.mk.inj (Option.some.inj returned)
          exact ⟨2, run_driveLeft running⟩
      | testX | readX | testY | readY | driveRight => cases returned
  | succ reads ih =>
      cases handler with
      | driveLeft spdL spdR =>
          obtain ⟨rfl, rfl⟩ := Prod.mk.inj (Option.some.inj returned)
          exact ⟨2, run_driveLeft running⟩
      | testX | readX | testY | readY | driveRight =>
          obtain ⟨next, read, later⟩ := Option.bind_eq_some_iff.mp returned
          obtain ⟨after, taken, same, there⟩ := advance_of_read running read
          rw [← same] at later
          obtain ⟨accesses, last, ran, sent⟩ := ih there later
          refine ⟨accesses + 1, last, ?_, sent⟩
          rw [List.replicate_succ, run_cons, taken, Option.bind_some, ran]

/-- Where no snapshot is published meanwhile, the two sides get the speeds that
the handler finds in the one it has. -/
theorem steerHandler_sent (values : ControlValues K) :
    ∃ accesses last, run step (begin values) (List.replicate accesses .advance) = some last ∧
      last.handler = none ∧ last.driveLeft = some (leftSpeed (axisX values) (axisY values)) ∧
      last.driveRight = some (rightSpeed (axisX values) (axisY values)) :=
  speeds_sent rfl (steerHandler_eq values)

/-- The handler returns two valid powers. -/
def SpeedsValid (values : ControlValues K) : Prop :=
  ∃ spdL spdR, steerHandler values = some (spdL, spdR) ∧ isValidPower spdL ∧ isValidPower spdR

theorem speedsValid_iff_speeds (values : ControlValues K) :
    SpeedsValid values ↔
      isValidPower (leftSpeed (values.axisAt 11) (values.axisAt 14)) ∧
        isValidPower (rightSpeed (values.axisAt 11) (values.axisAt 14)) := by
  constructor
  · rintro ⟨spdL, spdR, returned, left, right⟩
    rw [steerHandler_eq, Option.some.injEq, Prod.mk.injEq] at returned
    obtain ⟨rfl, rfl⟩ := returned
    exact ⟨left, right⟩
  · intro valid
    exact ⟨_, _, steerHandler_eq values, valid⟩

variable [IsStrictOrderedRing K]

theorem isValidPower_iff_abs (pow : K) : isValidPower pow ↔ |pow| ≤ 1 :=
  abs_le.symm

/-- Sum and difference are within a bound just when the magnitudes add up to it. -/
theorem abs_sub_and_add_le_iff (a b bound : K) :
    |a - b| ≤ bound ∧ |a + b| ≤ bound ↔ |a| + |b| ≤ bound := by
  constructor
  · rintro ⟨apart, together⟩
    have difference := abs_le.mp apart
    have sum := abs_le.mp together
    rcases abs_cases a with ⟨first, _⟩ | ⟨first, _⟩ <;>
      rcases abs_cases b with ⟨second, _⟩ | ⟨second, _⟩ <;>
      rw [first, second] <;> linarith
  · intro within
    exact ⟨(abs_sub a b).trans within, (abs_add_le a b).trans within⟩

theorem speedsValid_iff_deadband (values : ControlValues K) :
    SpeedsValid values ↔
      |deadband (values.axisAt 11)| + |deadband (values.axisAt 14)| ≤ 1 := by
  rw [speedsValid_iff_speeds, isValidPower_iff_abs, isValidPower_iff_abs, leftSpeed, rightSpeed,
    abs_sub_and_add_le_iff, abs_neg]

/-- The powers are valid unless both axes are beyond the threshold and further
out together than one alone can be. -/
theorem speedsValid_iff {values : ControlValues K} (xAxis : |values.axisAt 11| ≤ 1)
    (yAxis : |values.axisAt 14| ≤ 1) :
    SpeedsValid values ↔
      |values.axisAt 11| ≤ 1 / 5 ∨ |values.axisAt 14| ≤ 1 / 5 ∨
        |values.axisAt 11| + |values.axisAt 14| ≤ 1 := by
  rw [speedsValid_iff_deadband]
  by_cases beyondX : thresh < |values.axisAt 11|
  · by_cases beyondY : thresh < |values.axisAt 14|
    · have outX : ¬|values.axisAt 11| ≤ 1 / 5 := not_le.mpr beyondX
      have outY : ¬|values.axisAt 14| ≤ 1 / 5 := not_le.mpr beyondY
      rw [deadband_beyond beyondX, deadband_beyond beyondY, or_iff_right outX, or_iff_right outY]
    · rw [deadband_beyond beyondX, deadband_within beyondY, abs_zero, add_zero]
      exact iff_of_true xAxis (.inr (.inl (not_lt.mp beyondY)))
  · rw [deadband_within beyondX, abs_zero, zero_add]
    refine iff_of_true ?_ (.inl (not_lt.mp beyondX))
    by_cases beyondY : thresh < |values.axisAt 14|
    · rwa [deadband_beyond beyondY]
    · rw [deadband_within beyondY, abs_zero]
      exact zero_le_one

/-- Half ahead and a quarter aside. -/
theorem speedsValid_iff_half : SpeedsValid (axes (1 / 2) (1 / 4)) :=
  (speedsValid_iff (by decide +kernel) (by decide +kernel)).mpr (.inr (.inr (by decide +kernel)))

/-- The stick in a corner asks twice the full power of one side. -/
theorem not_speedsValid_corner :
    |(axes 1 1).axisAt 11| ≤ 1 ∧ |(axes 1 1).axisAt 14| ≤ 1 ∧
      steerHandler (axes 1 1) = some (2, 0) ∧ ¬SpeedsValid (axes 1 1) := by
  refine ⟨by decide +kernel, by decide +kernel, by decide +kernel, ?_⟩
  rw [speedsValid_iff_deadband]
  decide +kernel

end FrcRobot.ArcadeDrive
