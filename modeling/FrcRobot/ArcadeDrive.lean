import FrcRobot.ListenerManager
import Mathlib.Algebra.Field.Defs
import Mathlib.Algebra.Order.Group.Unbundled.Abs

set_option autoImplicit false

namespace FrcRobot.ArcadeDrive

open ListenerManager (getRawDouble getRawDouble_joy1X getRawDouble_joy1Y)

variable {K : Type*}

/-- Where steerHandler stands: the next axis it looks at, or the next motor it
drives. An axis beyond the threshold is read a second time for its value. -/
inductive SteerHandler (K : Type*) where
  | testX
  | readX
  | testY (x1 : K)
  | readY (x1 : K)
  | driveLeft (spdL spdR : K)
  | driveRight (spdR : K)

variable [Field K] [LinearOrder K]

/-- The threshold below which joystick movements are ignored. -/
def thresh : K := 1 / 5

def spdL (x1 y1 : K) : K := x1 - y1

def spdR (x1 y1 : K) : K := x1 + y1

/-- One read of a published axis. -/
def SteerHandler.read (values : ControlValues K) : SteerHandler K → Option (SteerHandler K)
  | .testX => (getRawDouble values .joy1X).map fun value =>
      if thresh < |value| then .readX else .testY 0
  | .readX => (getRawDouble values .joy1X).map fun value => .testY value
  | .testY x1 => (getRawDouble values .joy1Y).map fun value =>
      if thresh < |value| then .readY x1 else .driveLeft (spdL x1 0) (spdR x1 0)
  | .readY x1 => (getRawDouble values .joy1Y).map fun value =>
      .driveLeft (spdL x1 (-value)) (spdR x1 (-value))
  | .driveLeft _ _ | .driveRight _ => none

section Read

variable (values : ControlValues K)

@[simp] theorem read_testX :
    SteerHandler.read values .testX =
      some (if thresh < |values.axisAt 11| then .readX else .testY 0) := rfl

@[simp] theorem read_readX :
    SteerHandler.read values .readX = some (.testY (values.axisAt 11)) := rfl

@[simp] theorem read_testY (x1 : K) :
    SteerHandler.read values (.testY x1) =
      some (if thresh < |values.axisAt 14| then .readY x1
        else .driveLeft (spdL x1 0) (spdR x1 0)) := rfl

@[simp] theorem read_readY (x1 : K) :
    SteerHandler.read values (.readY x1) = some (.driveLeft
      (spdL x1 (-values.axisAt 14)) (spdR x1 (-values.axisAt 14))) := rfl

end Read

/-- What steering is to make of one axis: nothing up to a fifth. -/
def deadband (value : K) : K := if |value| ≤ 1 / 5 then 0 else value

theorem deadband_beyond {value : K} (beyond : thresh < |value|) : deadband value = value :=
  if_neg (not_le.mpr beyond)

theorem deadband_within {value : K} (within : ¬thresh < |value|) : deadband value = 0 :=
  if_pos (not_lt.mp within)

/-- The speeds the two sides owe the axes. -/
def leftSpeed (x y : K) : K := deadband x - -deadband y

def rightSpeed (x y : K) : K := deadband x + -deadband y

/-- Everything the handler has found out is still true of the axes. -/
def SteerHandler.UpToDate (x y : K) : SteerHandler K → Prop
  | .testX => True
  | .readX => thresh < |x|
  | .testY x1 => x1 = deadband x
  | .readY x1 => x1 = deadband x ∧ thresh < |y|
  | .driveLeft spdL spdR => spdL = leftSpeed x y ∧ spdR = rightSpeed x y
  | .driveRight spdR => spdR = rightSpeed x y

theorem upToDate_read {values : ControlValues K} {handler next : SteerHandler K}
    (before : handler.UpToDate (values.axisAt 11) (values.axisAt 14))
    (taken : handler.read values = some next) :
    next.UpToDate (values.axisAt 11) (values.axisAt 14) := by
  cases handler with
  | testX =>
      rw [read_testX, Option.some.injEq] at taken
      subst taken
      split
      · assumption
      · rename_i within
        exact (deadband_within within).symm
  | readX =>
      rw [read_readX, Option.some.injEq] at taken
      subst taken
      exact (deadband_beyond before).symm
  | testY x1 =>
      rw [read_testY, Option.some.injEq] at taken
      subst taken
      obtain rfl : x1 = deadband (values.axisAt 11) := before
      split
      · rename_i beyond
        exact ⟨rfl, beyond⟩
      · rename_i within
        simp only [SteerHandler.UpToDate, leftSpeed, rightSpeed, spdL, spdR, deadband_within within,
          neg_zero, and_self]
  | readY x1 =>
      rw [read_readY, Option.some.injEq] at taken
      subst taken
      obtain ⟨rfl, beyond⟩ := before
      simp only [SteerHandler.UpToDate, leftSpeed, rightSpeed, spdL, spdR, deadband_beyond beyond,
        and_self]
  | driveLeft | driveRight => cases taken

/-- Reading never gets ahead of the first motor. -/
theorem read_ne_driveRight {values : ControlValues K} {handler : SteerHandler K} {speed : K} :
    handler.read values ≠ some (.driveRight speed) := by
  cases handler with
  | testX =>
      rw [read_testX]
      split <;> simp
  | testY x1 =>
      rw [read_testY]
      split <;> simp
  | readX | readY => simp
  | driveLeft | driveRight => simp [SteerHandler.read]

end FrcRobot.ArcadeDrive
