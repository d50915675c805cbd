import FrcRobot.MotorLink
import Mathlib.Data.Sign.Basic

set_option autoImplicit false

namespace FrcRobot

open RobotMath

/-- The controller that turns a motor to an angle. Only a valid minimum power
gets past the constructor, which keeps its magnitude. -/
structure LinearAngleTarget (K : Type*) [Field K] [LinearOrder K] where
  minSpeed : K
  targetAngle : K
  threshold : K
  kP : K
  minSpeed_nonneg : 0 ≤ minSpeed
  minSpeed_le : minSpeed ≤ 1

namespace LinearAngleTarget

variable {K : Type*} [Field K] [LinearOrder K]

section Steps

variable [FloorRing K]

/-- An invalid minimum power throws. -/
def construct [IsStrictOrderedRing K] (minSpeed threshold kP : K) : Option (LinearAngleTarget K) :=
  if valid : isValidPower minSpeed then
    some ⟨|minSpeed|, 0, threshold, kP, abs_nonneg minSpeed, abs_le.mpr valid⟩
  else none

def setControlTargetImpl (control : LinearAngleTarget K) (val : K) : LinearAngleTarget K :=
  { control with targetAngle := if fmod val 180 = 0 then control.targetAngle else val }

def isComplete (control : LinearAngleTarget K) (encoderAngle : K) : Prop :=
  |angleDistance encoderAngle control.targetAngle| < control.threshold

def speedControlStep (control : LinearAngleTarget K) (encoderAngle : K) : K :=
  let error := angleDistance encoderAngle control.targetAngle
  let sgn := sgn error
  let pGain := sgn * |error| * ((1 - control.minSpeed) / 90) + control.minSpeed
  let pGain := if control.minSpeed < |pGain| then pGain
    else (getMotorDirToTarget encoderAngle control.targetAngle).value * control.minSpeed
  if |error| < control.threshold then 0 else pGain

/-- The same once the error and the direction have been measured, one after the
other. -/
def stepPower (control : LinearAngleTarget K) (error : K) (dir : MotorDir) : K :=
  let sgn := sgn error
  let pGain := sgn * |error| * ((1 - control.minSpeed) / 90) + control.minSpeed
  let pGain := if control.minSpeed < |pGain| then pGain else dir.value * control.minSpeed
  if |error| < control.threshold then 0 else pGain

theorem speedControlStep_eq_stepPower (control : LinearAngleTarget K) (encoderAngle : K) :
    control.speedControlStep encoderAngle =
      control.stepPower (angleDistance encoderAngle control.targetAngle)
        (getMotorDirToTarget encoderAngle control.targetAngle) := rfl

instance (control : LinearAngleTarget K) (encoderAngle : K) :
    Decidable (control.isComplete encoderAngle) := by
  unfold isComplete
  infer_instance

/-- The power a tick of MotorControl hands to setSpeedForce. -/
def execute (control : LinearAngleTarget K) (encoderAngle : K) : K :=
  if control.isComplete encoderAngle then 0 else control.speedControlStep encoderAngle

/-- A link with this controller drops the targets the controller drops. -/
theorem setControlTargetImpl_targetAngle (control : LinearAngleTarget K) (val : K) :
    (control.setControlTargetImpl val).targetAngle =
      (linearAngleTarget : TargetRule K).setControlTargetImpl control.targetAngle val := rfl

end Steps

/-- The proportional term with its offset. The sign is the error's in the first
summand alone. -/
def gain (control : LinearAngleTarget K) (error : K) : K :=
  error * ((1 - control.minSpeed) / 90) + control.minSpeed

section Gain

variable [IsStrictOrderedRing K] (control : LinearAngleTarget K) {error : K}

/-- A positive error gains power over the minimum, unless the minimum is full power. -/
theorem minSpeed_lt_gain (positive : 0 < error) (slack : control.minSpeed < 1) :
    control.minSpeed < control.gain error := by
  have slope : 0 < (1 - control.minSpeed) / 90 := by linarith
  have gained := mul_pos positive slope
  unfold gain
  linarith

theorem gain_le_minSpeed (negative : error ≤ 0) : control.gain error ≤ control.minSpeed := by
  have slope : 0 ≤ (1 - control.minSpeed) / 90 := by linarith [control.minSpeed_le]
  have lost := mul_nonpos_of_nonpos_of_nonneg negative slope
  unfold gain
  linarith

/-- Beyond the minimum power the gain of a negative error is negative. -/
theorem gain_neg_of_minSpeed_lt (negative : error ≤ 0)
    (beyond : control.minSpeed < |control.gain error|) :
    control.gain error < -control.minSpeed := by
  have below := control.gain_le_minSpeed negative
  rcases lt_abs.mp beyond with above | under
  · linarith
  · linarith

theorem gain_le_one_iff (error : K) :
    control.gain error ≤ 1 ↔ error ≤ 90 ∨ control.minSpeed = 1 := by
  have shape : 1 - control.gain error = (90 - error) * (1 - control.minSpeed) / 90 := by
    unfold gain
    ring
  rw [← sub_nonneg, shape]
  constructor
  · intro within
    by_contra outside
    obtain ⟨far, slack⟩ := not_or.mp outside
    have below : 90 - error < 0 := by linarith
    have above : 0 < 1 - control.minSpeed :=
      sub_pos.mpr (lt_of_le_of_ne control.minSpeed_le slack)
    have negative := mul_neg_of_neg_of_pos below above
    linarith
  · rintro (near | full)
    · have product := mul_nonneg (sub_nonneg.mpr near) (sub_nonneg.mpr control.minSpeed_le)
      linarith
    · simp [full]

theorem neg_one_le_gain_iff (error : K) :
    -1 ≤ control.gain error ↔ -error * (1 - control.minSpeed) ≤ 90 * (1 + control.minSpeed) := by
  have shape : control.gain error - -1 =
      (90 * (1 + control.minSpeed) - -error * (1 - control.minSpeed)) / 90 := by
    unfold gain
    ring
  rw [← sub_nonneg, shape]
  constructor
  · intro within
    linarith
  · intro within
    linarith

/-- What the fallback returns is no more than the minimum power. -/
theorem fallback_valid (dir : MotorDir) :
    isValidPower ((dir.value : K) * control.minSpeed) := by
  have nonneg := control.minSpeed_nonneg
  have atMost := control.minSpeed_le
  cases dir <;> simp only [MotorDir.value, isValidPower] <;> push_cast <;> constructor <;> linarith

end Gain

variable [FloorRing K]

theorem speedControlStep_complete {control : LinearAngleTarget K} {encoderAngle : K}
    (complete : control.isComplete encoderAngle) : control.speedControlStep encoderAngle = 0 := by
  unfold isComplete at complete
  simp only [speedControlStep, complete, ↓reduceIte]

theorem execute_eq (control : LinearAngleTarget K) (encoderAngle : K) :
    control.execute encoderAngle = control.speedControlStep encoderAngle := by
  unfold execute
  split
  · rename_i complete
    exact (speedControlStep_complete complete).symm
  · rfl

/-- What a step comes to while the target is not reached. -/
theorem speedControlStep_eq [IsStrictOrderedRing K] {control : LinearAngleTarget K} {encoderAngle : K}
    (incomplete : ¬control.isComplete encoderAngle) :
    control.speedControlStep encoderAngle =
      if control.minSpeed < |control.gain (angleDistance encoderAngle control.targetAngle)| then
        control.gain (angleDistance encoderAngle control.targetAngle)
      else (getMotorDirToTarget encoderAngle control.targetAngle).value * control.minSpeed := by
  unfold isComplete at incomplete
  simp only [speedControlStep, sgn_mul_abs, incomplete, ↓reduceIte]
  rfl

end LinearAngleTarget

end FrcRobot
