import FrcRobot.MotorLink
import Mathlib.Algebra.Order.Field.Basic
import Mathlib.Data.Rat.Defs
import Mathlib.Tactic.FieldSimp
import Mathlib.Tactic.NormNum

set_option autoImplicit false

namespace FrcRobot

open RobotMath

/-- The controller of a motor that rotates continuously. -/
structure LinearSpeedTarget (K : Type*) where
  tgtSpeed : K
  dtAccum : K
  refreshTime : K
  lastEncoderAngle : K

namespace LinearSpeedTarget

variable {K : Type*} [Field K]

/-- The refresh time given here becomes the accumulated time. -/
def construct (tgtSpeed refreshTime : K) : LinearSpeedTarget K :=
  ⟨tgtSpeed, refreshTime, 50, -1⟩

/-- The encoder angle is the one this reads through the linked motor. -/
def setControlTargetImpl (control : LinearSpeedTarget K) (d encoderAngle : K) :
    LinearSpeedTarget K :=
  { control with tgtSpeed := d, lastEncoderAngle := encoderAngle }

def clearControlRunImpl (control : LinearSpeedTarget K) (encoderAngle : K) :
    LinearSpeedTarget K :=
  { control with tgtSpeed := 0, lastEncoderAngle := encoderAngle }

def setRefreshTime (control : LinearSpeedTarget K) (refreshTime : K) : LinearSpeedTarget K :=
  { control with refreshTime := refreshTime / 1000 }

/-- The accumulated time of a step that comes so many milliseconds after the last. -/
def accumulated (control : LinearSpeedTarget K) (milliseconds : ℤ) : K :=
  control.dtAccum + milliseconds

variable [LinearOrder K]

def Recomputes (control : LinearSpeedTarget K) (milliseconds : ℤ) : Prop :=
  ¬control.accumulated milliseconds < control.refreshTime

instance (control : LinearSpeedTarget K) (milliseconds : ℤ) :
    Decidable (control.Recomputes milliseconds) :=
  inferInstanceAs (Decidable (¬_))

/-- One step, with what it reads of the linked motor: its speed, and the encoder's
angle once for the quotient and once for the next step. Where a divisor is 0 the
source's quotient is undefined. -/
def speedControlStep (control : LinearSpeedTarget K) (milliseconds : ℤ)
    (speed angle angleAgain : K) : K × LinearSpeedTarget K :=
  let control := { control with dtAccum := control.accumulated milliseconds }
  if control.dtAccum < control.refreshTime then (speed, control)
  else
    (makeValidPower ((speed / control.tgtSpeed) *
      ((angle - control.lastEncoderAngle) / control.dtAccum)),
      { control with dtAccum := 0, lastEncoderAngle := angleAgain })

theorem speedControlStep_waiting {control : LinearSpeedTarget K} {milliseconds : ℤ}
    (waiting : ¬control.Recomputes milliseconds) (speed angle angleAgain : K) :
    control.speedControlStep milliseconds speed angle angleAgain =
      (speed, { control with dtAccum := control.accumulated milliseconds }) :=
  if_pos (not_not.mp waiting)

theorem speedControlStep_recomputing {control : LinearSpeedTarget K} {milliseconds : ℤ}
    (recomputes : control.Recomputes milliseconds) (speed angle angleAgain : K) :
    control.speedControlStep milliseconds speed angle angleAgain =
      (makeValidPower ((speed / control.tgtSpeed) *
        ((angle - control.lastEncoderAngle) / control.accumulated milliseconds)),
        { control with dtAccum := 0, lastEncoderAngle := angleAgain }) :=
  if_neg recomputes

section Direction

variable [IsStrictOrderedRing K]

/-- A power that leads from the measured rate toward the target, and that stays
where it is once the target is reached. -/
def Corrects (pow target rate next : K) : Prop :=
  (rate < target → pow ≤ next) ∧ (target < rate → next ≤ pow) ∧ (rate = target → next = pow)

theorem makeValidPower_of_nonneg {pow : K} (nonneg : 0 ≤ pow) :
    makeValidPower pow = min pow 1 := by
  unfold makeValidPower
  rw [if_neg (by linarith)]
  split
  · rename_i above
    rw [min_eq_right above.le]
  · rename_i within
    rw [min_eq_left (not_lt.mp within)]

/-- A gain of 1 at a rate of a thousand times the target. -/
theorem corrects_gain_iff {pow target rate : K} (positive : 0 < pow) (atMost : pow ≤ 1)
    (wanted : 0 < target) (moving : 0 < rate) :
    Corrects pow target rate (makeValidPower (pow * (rate / (1000 * target)))) ↔
      target < rate ∧ (rate ≤ 1000 * target ∨ pow = 1) := by
  have scale : 0 < 1000 * target := by linarith
  have gain : 0 < rate / (1000 * target) := div_pos moving scale
  rw [makeValidPower_of_nonneg (mul_pos positive gain).le]
  -- Up to the target the gain is below 1, so the power falls.
  have falls : rate ≤ target → min (pow * (rate / (1000 * target))) 1 < pow := by
    intro slow
    have small : rate / (1000 * target) < 1 := (div_lt_one scale).mpr (by linarith)
    exact min_lt_of_left_lt (mul_lt_of_lt_one_right positive small)
  constructor
  · rintro ⟨slow, fast, level⟩
    have beyond : target < rate := by
      by_contra within
      have atMostTarget := not_lt.mp within
      rcases lt_or_eq_of_le atMostTarget with below | same
      · linarith [slow below, falls atMostTarget]
      · linarith [level same, falls atMostTarget]
    refine ⟨beyond, ?_⟩
    rcases min_le_iff.mp (fast beyond) with within | full
    · left
      rw [← div_le_one scale]
      by_contra steep
      linarith [lt_mul_of_one_lt_right positive (not_le.mp steep)]
    · exact .inr (le_antisymm atMost full)
  · rintro ⟨beyond, bounded⟩
    refine ⟨fun slow => absurd slow beyond.not_gt, fun _ => ?_, fun same => absurd same beyond.ne'⟩
    rcases bounded with within | full
    · have small : rate / (1000 * target) ≤ 1 := (div_le_one scale).mpr within
      exact min_le_of_left_le (mul_le_of_le_one_right positive.le small)
    · exact full ▸ min_le_right _ _

/-- The rate measured over the accumulated time, in degrees a second. -/
def measuredRate (control : LinearSpeedTarget K) (milliseconds : ℤ) (angle : K) : K :=
  1000 * (angle - control.lastEncoderAngle) / control.accumulated milliseconds

theorem recomputed_eq {control : LinearSpeedTarget K} {milliseconds : ℤ}
    (recomputes : control.Recomputes milliseconds) (speed angle angleAgain : K) :
    (control.speedControlStep milliseconds speed angle angleAgain).1 =
      makeValidPower (speed *
        (control.measuredRate milliseconds angle / (1000 * control.tgtSpeed))) := by
  have cancelled : speed / control.tgtSpeed *
      ((angle - control.lastEncoderAngle) / control.accumulated milliseconds) =
      speed * (control.measuredRate milliseconds angle / (1000 * control.tgtSpeed)) := by
    unfold measuredRate
    ring
  rw [speedControlStep_recomputing recomputes, cancelled]

/-- With a target in degrees a second and a time in milliseconds, a power is
corrected the right way from above the target up to a thousand times of it, or
at full power, and never at the target or below it. -/
theorem speedControlStep_corrects_iff {control : LinearSpeedTarget K} {milliseconds : ℤ}
    {speed angle : K} (recomputes : control.Recomputes milliseconds) (positive : 0 < speed)
    (atMost : speed ≤ 1) (wanted : 0 < control.tgtSpeed)
    (elapsed : 0 < control.accumulated milliseconds)
    (moved : control.lastEncoderAngle < angle) (angleAgain : K) :
    Corrects speed control.tgtSpeed (control.measuredRate milliseconds angle)
        (control.speedControlStep milliseconds speed angle angleAgain).1 ↔
      control.tgtSpeed < control.measuredRate milliseconds angle ∧
        (control.measuredRate milliseconds angle ≤ 1000 * control.tgtSpeed ∨ speed = 1) := by
  have moving : 0 < control.measuredRate milliseconds angle :=
    div_pos (mul_pos (by norm_num) (sub_pos.mpr moved)) elapsed
  rw [recomputed_eq recomputes]
  exact corrects_gain_iff positive atMost wanted moving

end Direction

instance (pow target rate next : K) : Decidable (Corrects pow target rate next) := by
  unfold Corrects
  infer_instance

/-- A controller that has just recomputed, for a motor that is to turn by 90
degrees a second. -/
def quarterTurn : LinearSpeedTarget ℚ := ⟨90, 0, 50, 0⟩

/-- The motor turns twice as fast as it should. -/
theorem speedControlStep_corrects_iff_fast :
    Corrects (1 / 2) 90 180 (quarterTurn.speedControlStep 100 (1 / 2) 18 18).1 := by
  have corrects := (speedControlStep_corrects_iff (by decide +kernel : quarterTurn.Recomputes 100)
    (by norm_num : (0 : ℚ) < 1 / 2) (by norm_num) (by decide +kernel) (by decide +kernel)
    (by decide +kernel : quarterTurn.lastEncoderAngle < 18) 18).mpr (by decide +kernel)
  have rate : quarterTurn.measuredRate 100 18 = 180 := by decide +kernel
  rwa [rate] at corrects

/-- The motor turns as fast as it should, and its power falls to a thousandth. -/
theorem not_corrects_atTarget :
    quarterTurn.measuredRate 100 9 = quarterTurn.tgtSpeed ∧
      (quarterTurn.speedControlStep 100 (1 / 2) 9 9).1 = 1 / 2000 ∧
      ¬Corrects (1 / 2) 90 90 (quarterTurn.speedControlStep 100 (1 / 2) 9 9).1 := by
  decide +kernel

end LinearSpeedTarget

end FrcRobot
