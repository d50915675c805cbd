import FrcRobot.LinearAngleTarget

set_option autoImplicit false

/- What one step of the angle controller does with the motor: its direction, its
size, and what becomes of it when current and target angle change places. -/
namespace FrcRobot.LinearAngleTarget

open RobotMath

variable {K : Type*} [Field K] [LinearOrder K] [IsStrictOrderedRing K] [FloorRing K]

/-- A positive distance always gets its gain. With full power as the minimum the
fallback comes to the same. -/
theorem step_of_pos {control : LinearAngleTarget K} {encoderAngle : K}
    (incomplete : ¬control.isComplete encoderAngle)
    (ahead : 0 < angleDistance encoderAngle control.targetAngle) :
    control.speedControlStep encoderAngle =
      control.gain (angleDistance encoderAngle control.targetAngle) := by
  rw [speedControlStep_eq incomplete]
  split
  · rfl
  · rename_i within
    have full : control.minSpeed = 1 := by
      by_contra slack
      have gained := control.minSpeed_lt_gain ahead (lt_of_le_of_ne control.minSpeed_le slack)
      exact within (lt_abs.mpr (.inl gained))
    have other : normalizeAngle encoderAngle - normalizeAngle control.targetAngle ≠ 180 := by
      intro half
      rw [angleDistance_of_half half] at ahead
      linarith
    rw [getMotorDirToTarget_eq, if_neg other]
    simp [MotorDir.along, MotorDir.value, ahead, gain, full]

theorem step_of_neg {control : LinearAngleTarget K} {encoderAngle : K}
    (incomplete : ¬control.isComplete encoderAngle)
    (back : angleDistance encoderAngle control.targetAngle < 0) :
    control.speedControlStep encoderAngle =
      if control.minSpeed < |control.gain (angleDistance encoderAngle control.targetAngle)| then
        control.gain (angleDistance encoderAngle control.targetAngle)
      else if normalizeAngle encoderAngle - normalizeAngle control.targetAngle = 180 then 0
      else -control.minSpeed := by
  rw [speedControlStep_eq incomplete, getMotorDirToTarget_eq]
  split
  · rfl
  · split
    · simp [MotorDir.value]
    · simp [MotorDir.along, MotorDir.value, back, back.not_gt]

section Direction

/-- The step stops the motor exactly when the target is reached, and turns it
toward the target otherwise. -/
structure DrivesTowardTarget (control : LinearAngleTarget K) (encoderAngle : K) : Prop where
  stops : control.speedControlStep encoderAngle = 0 ↔ control.isComplete encoderAngle
  toward : ¬control.isComplete encoderAngle →
    SignType.sign (control.speedControlStep encoderAngle) =
      SignType.sign (angleDistance encoderAngle control.targetAngle)

/-- The target lies half a turn below the encoder's angle, where the fallback
knows no direction, and the minimum power is so high that it is needed there. -/
structure Stalls (control : LinearAngleTarget K) (encoderAngle : K) : Prop where
  half : normalizeAngle encoderAngle - normalizeAngle control.targetAngle = 180
  strong : 1 / 2 ≤ control.minSpeed
  narrow : control.threshold ≤ 180

theorem distance_ne_zero {control : LinearAngleTarget K} {encoderAngle : K}
    (positive : 0 < control.threshold) (incomplete : ¬control.isComplete encoderAngle) :
    angleDistance encoderAngle control.targetAngle ≠ 0 := by
  intro none
  apply incomplete
  rw [isComplete, none, abs_zero]
  exact positive

theorem step_sign_of_pos {control : LinearAngleTarget K} {encoderAngle : K}
    (incomplete : ¬control.isComplete encoderAngle)
    (ahead : 0 < angleDistance encoderAngle control.targetAngle) :
    0 < control.speedControlStep encoderAngle := by
  rw [step_of_pos incomplete ahead]
  rcases lt_or_eq_of_le control.minSpeed_le with slack | full
  · exact control.minSpeed_nonneg.trans_lt (control.minSpeed_lt_gain ahead slack)
  · simp [gain, full]

theorem step_sign_of_neg {control : LinearAngleTarget K} {encoderAngle : K}
    (incomplete : ¬control.isComplete encoderAngle)
    (back : angleDistance encoderAngle control.targetAngle < 0)
    (moves : ¬Stalls control encoderAngle) : control.speedControlStep encoderAngle < 0 := by
  rw [step_of_neg incomplete back]
  split
  · rename_i beyond
    have under := control.gain_neg_of_minSpeed_lt back.le beyond
    linarith [control.minSpeed_nonneg]
  · rename_i within
    have near := abs_le.mp (not_lt.mp within)
    have present : 0 < control.minSpeed := by
      apply lt_of_le_of_ne control.minSpeed_nonneg
      intro none
      have lost : control.gain (angleDistance encoderAngle control.targetAngle) =
          angleDistance encoderAngle control.targetAngle / 90 := by
        simp only [gain, ← none]
        ring
      rw [lost, ← none] at near
      linarith [near.1]
    split
    · rename_i half
      have distance := angleDistance_of_half half
      exfalso
      refine moves ⟨half, ?_, ?_⟩
      · rw [distance] at near
        unfold gain at near
        linarith [near.1]
      · rw [isComplete, distance] at incomplete
        simpa using incomplete
    · linarith

theorem step_of_stalls {control : LinearAngleTarget K} {encoderAngle : K}
    (stalls : Stalls control encoderAngle) :
    ¬control.isComplete encoderAngle ∧ control.speedControlStep encoderAngle = 0 := by
  have distance := angleDistance_of_half stalls.half
  have incomplete : ¬control.isComplete encoderAngle := by
    rw [isComplete, distance]
    simpa using stalls.narrow
  refine ⟨incomplete, ?_⟩
  have back : angleDistance encoderAngle control.targetAngle < 0 := by linarith
  have within : |control.gain (angleDistance encoderAngle control.targetAngle)| ≤
      control.minSpeed := by
    have strong := stalls.strong
    have full := control.minSpeed_le
    rw [distance, abs_le]
    unfold gain
    constructor <;> linarith
  rw [step_of_neg incomplete back, if_neg (not_lt.mpr within), if_pos stalls.half]

/-- The controller drives toward its target from every angle but the one where
it stalls. -/
theorem drivesTowardTarget_iff (control : LinearAngleTarget K) (encoderAngle : K)
    (positive : 0 < control.threshold) :
    DrivesTowardTarget control encoderAngle ↔ ¬Stalls control encoderAngle := by
  constructor
  · intro drives stalls
    obtain ⟨incomplete, still⟩ := step_of_stalls stalls
    exact incomplete (drives.stops.mp still)
  · intro moves
    by_cases complete : control.isComplete encoderAngle
    · have still := speedControlStep_complete complete
      exact ⟨⟨fun _ => complete, fun _ => still⟩, fun incomplete => absurd complete incomplete⟩
    · rcases lt_or_gt_of_ne (distance_ne_zero positive complete) with back | ahead
      · have turns := step_sign_of_neg complete back moves
        refine ⟨⟨fun still => absurd still turns.ne, fun reached => absurd reached complete⟩, ?_⟩
        intro _
        rw [sign_neg turns, sign_neg back]
      · have turns := step_sign_of_pos complete ahead
        refine ⟨⟨fun still => absurd still turns.ne', fun reached => absurd reached complete⟩, ?_⟩
        intro _
        rw [sign_pos turns, sign_pos ahead]

/-- A controller whose minimum is half power, on its way to -90 degrees. -/
def halfPower : LinearAngleTarget ℚ where
  minSpeed := 1 / 2
  targetAngle := -90
  threshold := 4
  kP := 1 / 200
  minSpeed_nonneg := by norm_num
  minSpeed_le := by norm_num

theorem drivesTowardTarget_iff_quarter : DrivesTowardTarget halfPower 0 :=
  (drivesTowardTarget_iff halfPower 0 (by decide +kernel)).mpr
    fun stalls => absurd stalls.half (by decide +kernel)

/-- At 90 degrees it stands still, half a turn away from its target. -/
theorem not_drivesTowardTarget_opposite : ¬DrivesTowardTarget halfPower 90 := by
  intro drives
  have still : halfPower.speedControlStep 90 = 0 := by decide +kernel
  exact absurd (drives.stops.mp still) (by decide +kernel)

end Direction

section Size

/-- The gain is scaled for distances of up to 90 degrees, and its negative side
has to make up for the offset first. -/
theorem execute_valid_iff (control : LinearAngleTarget K) (encoderAngle : K) :
    isValidPower (control.execute encoderAngle) ↔
      control.isComplete encoderAngle ∨
        (angleDistance encoderAngle control.targetAngle ≤ 90 ∨ control.minSpeed = 1) ∧
          -angleDistance encoderAngle control.targetAngle * (1 - control.minSpeed) ≤
            90 * (1 + control.minSpeed) := by
  rw [execute_eq]
  by_cases complete : control.isComplete encoderAngle
  · rw [speedControlStep_complete complete]
    simp [complete, isValidPower]
  · rw [speedControlStep_eq complete, ← gain_le_one_iff, ← neg_one_le_gain_iff]
    split
    · simp only [complete, isValidPower, false_or]
      exact and_comm
    · rename_i within
      have near := abs_le.mp (not_lt.mp within)
      have atMost := control.minSpeed_le
      refine iff_of_true (control.fallback_valid _) (.inr ⟨?_, ?_⟩) <;> linarith

/-- The controllers that Global gives the three steering motors. -/
def fourTenths (targetAngle : ℚ) : LinearAngleTarget ℚ where
  minSpeed := 2 / 5
  targetAngle := targetAngle
  threshold := 4
  kP := 1 / 200
  minSpeed_nonneg := by norm_num
  minSpeed_le := by norm_num

theorem execute_valid_iff_near : isValidPower ((fourTenths 60).execute 0) :=
  (execute_valid_iff (fourTenths 60) 0).mpr (by decide +kernel)

/-- From 0 degrees to 170 degrees more than full power is asked for. -/
theorem not_execute_valid_far : ¬isValidPower ((fourTenths 170).execute 0) := by decide +kernel

end Size

section Swap

/-- The power at one angle with the other as the target. -/
def power (control : LinearAngleTarget K) (current target : K) : K :=
  speedControlStep { control with targetAngle := target } current

/-- One direction of a pair of angles has a positive error, and its offset adds
to the gain there and takes from it on the way back. -/
theorem power_swap_of_pos (control : LinearAngleTarget K) {current target : K}
    (far : control.threshold ≤ |angleDistance current target|)
    (ahead : 0 < angleDistance current target)
    (apart : normalizeAngle target - normalizeAngle current ≠ 180) :
    control.power current target = -control.power target current ↔
      control.minSpeed = 0 ∨ control.minSpeed = 1 := by
  have swapped := angleDistance_swap current target
  have back : angleDistance target current < 0 := by linarith
  have forth : control.power current target = control.gain (angleDistance current target) :=
    step_of_pos (not_lt.mpr far) ahead
  have farBack : control.threshold ≤ |angleDistance target current| := by
    rwa [swapped, abs_neg]
  have reverse : control.power target current =
      if control.minSpeed < |control.gain (angleDistance target current)| then
        control.gain (angleDistance target current)
      else -control.minSpeed := by
    let reversed : LinearAngleTarget K := { control with targetAngle := current }
    have turns : reversed.speedControlStep target = _ := step_of_neg (not_lt.mpr farBack) back
    rwa [if_neg apart] at turns
  rw [forth, reverse, swapped]
  generalize angleDistance current target = error at ahead
  constructor
  · intro same
    split at same
    · left
      unfold gain at same
      linarith
    · right
      have flat : error * ((1 - control.minSpeed) / 90) = 0 := by
        unfold gain at same
        linarith
      rcases mul_eq_zero.mp flat with none | level
      · exact absurd none ahead.ne'
      · linarith
  · rintro (none | full)
    · have beyond : 0 < |-error / 90| := abs_pos.mpr (by linarith)
      have lost : control.gain (-error) = -error / 90 := by
        simp only [gain, none]
        ring
      rw [lost, none, if_pos beyond]
      simp only [gain, none]
      ring
    · simp [gain, full]

/-- Swapping two angles that are not opposite negates the power only where the
offset, which does not change its sign, is nothing or everything. -/
theorem power_swap_iff (control : LinearAngleTarget K) (current target : K)
    (apart : ∀ turns : ℤ, target - current ≠ 180 + 360 * turns)
    (positive : 0 < control.threshold) :
    control.power current target = -control.power target current ↔
      |angleDistance current target| < control.threshold ∨
        control.minSpeed = 0 ∨ control.minSpeed = 1 := by
  have swapped := angleDistance_swap current target
  by_cases complete : |angleDistance current target| < control.threshold
  · have forth : control.power current target = 0 := speedControlStep_complete complete
    have reverse : control.power target current = 0 :=
      speedControlStep_complete (by rwa [isComplete, swapped, abs_neg])
    simp [forth, reverse, complete]
  · have far := not_lt.mp complete
    have above : normalizeAngle target - normalizeAngle current ≠ 180 := fun half =>
      (opposite_of_normalizeAngle half).elim apart
    have below : normalizeAngle current - normalizeAngle target ≠ 180 := by
      intro half
      obtain ⟨turns, opposite⟩ := opposite_of_normalizeAngle half
      apply apart (-turns - 1)
      push_cast
      linarith
    have distance : angleDistance current target ≠ 0 := by
      intro none
      rw [none, abs_zero] at complete
      exact complete positive
    simp only [complete, false_or]
    rcases lt_or_gt_of_ne distance with back | ahead
    · have reverse : 0 < angleDistance target current := by linarith
      have farBack : control.threshold ≤ |angleDistance target current| := by
        rwa [swapped, abs_neg]
      rw [← power_swap_of_pos control farBack reverse below]
      constructor <;> intro same <;> linarith
    · exact power_swap_of_pos control far ahead above

theorem power_swap_iff_near : (fourTenths 0).power 90 92 = -(fourTenths 0).power 92 90 := by
  refine (power_swap_iff (fourTenths 0) 90 92 ?_ (by decide +kernel)).mpr (.inl (by decide +kernel))
  intro turns opposite
  have same : (2 : ℤ) = 180 + 360 * turns := by
    have difference : (92 : ℚ) - 90 = 2 := by norm_num
    rw [difference] at opposite
    exact_mod_cast opposite
  omega

/-- The way back starts no faster than the minimum power. -/
theorem not_power_swap_quarter :
    (fourTenths 0).power 30 75 ≠ -(fourTenths 0).power 75 30 := by decide +kernel

end Swap

end FrcRobot.LinearAngleTarget
