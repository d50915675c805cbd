import Mathlib.Data.Rat.Defs

set_option autoImplicit false

namespace FrcRobot

/-- The shooter arm: its switch, and whether its timer is armed. -/
structure CockArm where
  cockArmActive : Bool
  timerIsRunning : Bool
  deriving DecidableEq

namespace CockArm

/-- The timer expires once for each time it is started. -/
def expire (arm : CockArm) : CockArm := { arm with timerIsRunning := false }

def startRelative (arm : CockArm) : CockArm := { arm with timerIsRunning := true }

/-- The body of execute up to its setSpeed, for a reading of the touch sensor:
the speed it asks of the shooter, or none when it returns early. -/
def execute (arm : CockArm) (armEnabled : Bool) (shooterTSensor : Nat) : Option ℚ :=
  if !arm.cockArmActive || armEnabled then none
  else if shooterTSensor = 0 then some (-1)
  else some 0

def start (arm : CockArm) : CockArm :=
  if !arm.timerIsRunning then arm.startRelative else arm

def cancel (arm : CockArm) : CockArm :=
  if arm.timerIsRunning then { arm with timerIsRunning := false } else arm

def stopArmCock (arm : CockArm) : CockArm := { arm with cockArmActive := false }

def startArmCock (arm : CockArm) : CockArm := { arm with cockArmActive := true }

@[simp] theorem start_timerIsRunning (arm : CockArm) : arm.start.timerIsRunning = true := by
  unfold start
  split
  · rfl
  · rename_i running
    simpa using running

@[simp] theorem cancel_timerIsRunning (arm : CockArm) : arm.cancel.timerIsRunning = false := by
  unfold cancel
  split
  · rfl
  · rename_i stopped
    simpa using stopped

@[simp] theorem start_cockArmActive (arm : CockArm) :
    arm.start.cockArmActive = arm.cockArmActive := by
  unfold start
  split <;> rfl

@[simp] theorem cancel_cockArmActive (arm : CockArm) :
    arm.cancel.cockArmActive = arm.cockArmActive := by
  unfold cancel
  split <;> rfl

theorem execute_active {arm : CockArm} (active : arm.cockArmActive = true) (sensor : Nat) :
    ∃ speed, arm.execute false sensor = some speed := by
  by_cases touched : sensor = 0
  · exact ⟨-1, by simp [execute, active, touched]⟩
  · exact ⟨0, by simp [execute, active, touched]⟩

end CockArm

end FrcRobot
