import FrcRobot.SwerveOptimize

set_option autoImplicit false

/- What the two angle comparisons of RobotMath owe each other. -/
namespace FrcRobot.RobotMath

variable {K : Type*} [Field K] [LinearOrder K]

theorem value_along (distance : K) :
    (MotorDir.along distance).value = (SignType.sign distance : ℤ) := by
  rw [MotorDir.along, sign_apply]
  split
  · rfl
  · split <;> rfl

theorem value_along_neg [IsStrictOrderedRing K] (distance : K) :
    (MotorDir.along (-distance)).value = -(MotorDir.along distance).value := by
  rw [value_along, value_along, Left.sign_neg, SignType.coe_neg]

/-- The sign, where its quotient is a number. -/
def sgnChecked (n : K) : Option K := if n = 0 then none else some (|n| / n)

variable [FloorRing K]

/-- The distance with the division of sgn checked. -/
def angleDistanceChecked (angle1 angle2 : K) : Option K :=
  let dist := normalizeAngle angle2 - normalizeAngle angle1
  if 180 < |dist| then (sgnChecked dist).map fun sgnval => -sgnval * (360 - |dist|)
  else some dist

variable [IsStrictOrderedRing K]

/-- sgn is only asked about distances beyond half a turn. -/
theorem angleDistanceChecked_eq (angle1 angle2 : K) :
    angleDistanceChecked angle1 angle2 = some (angleDistance angle1 angle2) := by
  simp only [angleDistanceChecked, angleDistance]
  split
  · rename_i far
    have apart : normalizeAngle angle2 - normalizeAngle angle1 ≠ 0 := by
      apply abs_pos.mp
      linarith
    rw [sgnChecked, if_neg apart]
    rfl
  · rfl

/-- No rotation from the first angle to the second is shorter. -/
theorem abs_angleDistance_le_abs (angle1 angle2 : K) (turns : ℤ) :
    |angleDistance angle1 angle2| ≤ |angle2 - angle1 + 360 * turns| := by
  have turn : (360 : K) = 2 * 180 := by norm_num
  apply Turn.abs_le_abs_of_modEq (abs_angleDistance_le angle1 angle2)
  rw [← turn]
  exact (angleDistance_modEq angle1 angle2).trans (add_turns_modEq _ turns).symm

/-- The distance is the shortest signed rotation from the first angle to the
second, and sgn never divides by zero on the way to it. -/
theorem angleDistance_shortest (angle1 angle2 : K) :
    (-180 ≤ angleDistance angle1 angle2 ∧ angleDistance angle1 angle2 ≤ 180) ∧
    angle1 + angleDistance angle1 angle2 ≡ angle2 [PMOD 360] ∧
    (∀ turns : ℤ, |angleDistance angle1 angle2| ≤ |angle2 - angle1 + 360 * turns|) ∧
    angleDistance angle2 angle1 = -angleDistance angle1 angle2 ∧
    angleDistanceChecked angle1 angle2 = some (angleDistance angle1 angle2) := by
  refine ⟨abs_le.mp (abs_angleDistance_le angle1 angle2), ?_,
    abs_angleDistance_le_abs angle1 angle2, angleDistance_swap angle1 angle2,
    angleDistanceChecked_eq angle1 angle2⟩
  have there := (angleDistance_modEq angle1 angle2).add_left angle1
  rwa [add_sub_cancel] at there

/-- From 170 degrees the short way to 190 leads across half a turn. -/
theorem angleDistance_shortest_across :
    angleDistance (170 : ℚ) (-170) = 20 ∧
      |angleDistance (170 : ℚ) (-170)| ≤ |-170 - 170 + 360 * ((1 : ℤ) : ℚ)| :=
  ⟨by decide +kernel, (angleDistance_shortest (170 : ℚ) (-170)).2.2.1 1⟩

theorem abs_angleDistance_of_opposite {currentAngle targetAngle : K}
    (opposite : currentAngle ≡ targetAngle + 180 [PMOD 360]) :
    |angleDistance currentAngle targetAngle| = 180 := by
  have turn : (360 : K) = 2 * 180 := by norm_num
  have flipped : |(180 : K)| = 180 := abs_of_pos (by norm_num)
  have back := angleDistance_modEq targetAngle currentAngle
  have half : angleDistance targetAngle currentAngle ≡ 180 [PMOD 360] := by
    apply back.trans
    rwa [AddCommGroup.sub_modEq_iff_modEq_add, add_comm]
  rw [turn] at half
  rw [angleDistance_swap, abs_neg, Turn.abs_eq_of_modEq (abs_angleDistance_le _ _) flipped.le half,
    flipped]

/-- Opposite angles have normal forms half a turn apart, one way or the other. -/
theorem opposite_iff (currentAngle targetAngle : K) :
    currentAngle ≡ targetAngle + 180 [PMOD 360] ↔
      normalizeAngle currentAngle - normalizeAngle targetAngle = 180 ∨
        normalizeAngle targetAngle - normalizeAngle currentAngle = 180 := by
  constructor
  · intro opposite
    have half := abs_angleDistance_of_opposite opposite
    have current := normalizeAngle_bounds currentAngle
    have target := normalizeAngle_bounds targetAngle
    rcases angleDistance_cases currentAngle targetAngle with ⟨_, same⟩ | ⟨_, same⟩ | ⟨_, same⟩
    · rw [same, abs_of_neg (by linarith)] at half
      linarith
    · rw [same, abs_of_pos (by linarith)] at half
      linarith
    · rw [same] at half
      rcases eq_or_eq_neg_of_abs_eq half with ahead | behind
      · exact .inr ahead
      · exact .inl (by linarith)
  · have current := normalizeAngle_modEq currentAngle
    have target := (normalizeAngle_modEq targetAngle).add_right 180
    rintro (half | half)
    · rw [← sub_eq_iff_eq_add'.mp half] at target
      exact current.symm.trans target
    · have below : normalizeAngle currentAngle + 360 * ((1 : ℤ) : K) =
          normalizeAngle targetAngle + 180 := by
        rw [Int.cast_one]
        linarith
      rw [← below] at target
      exact current.symm.trans ((add_turns_modEq _ 1).symm.trans target)

theorem getMotorDirToTarget_of_not_opposite {currentAngle targetAngle : K}
    (apart : ¬currentAngle ≡ targetAngle + 180 [PMOD 360]) :
    getMotorDirToTarget currentAngle targetAngle =
      .along (angleDistance currentAngle targetAngle) := by
  rw [getMotorDirToTarget_eq, if_neg]
  intro half
  exact apart ((opposite_iff currentAngle targetAngle).mpr (.inl half))

theorem getMotorDirToTarget_of_congr {currentAngle targetAngle : K}
    (same : currentAngle ≡ targetAngle [PMOD 360]) :
    getMotorDirToTarget currentAngle targetAngle = .dirNone := by
  have level : normalizeAngle currentAngle - normalizeAngle targetAngle = 0 :=
    sub_eq_zero.mpr ((normalizeAngle_eq_iff currentAngle targetAngle).mpr same)
  simp only [getMotorDirToTarget, level, true_or, ↓reduceIte]

/-- Half a turn below the current angle there is no direction, half a turn above
it there is one. -/
theorem getMotorDirToTarget_of_half {currentAngle targetAngle : K}
    (half : normalizeAngle currentAngle - normalizeAngle targetAngle = 180) :
    getMotorDirToTarget currentAngle targetAngle = .dirNone ∧
      getMotorDirToTarget targetAngle currentAngle = .dirCw := by
  constructor
  · rw [getMotorDirToTarget_eq, if_pos half]
  · have other : normalizeAngle targetAngle - normalizeAngle currentAngle ≠ 180 := by linarith
    have ahead : 0 < angleDistance targetAngle currentAngle := by
      rw [angleDistance_swap, angleDistance_of_half half]
      norm_num
    rw [getMotorDirToTarget_eq, if_neg other, MotorDir.along, if_pos ahead]

/-- The direction makes up for the distance, and is turned round with it. -/
structure AlongDistance (currentAngle targetAngle : K) : Prop where
  none : currentAngle ≡ targetAngle [PMOD 360] →
    getMotorDirToTarget currentAngle targetAngle = .dirNone
  sign : ¬currentAngle ≡ targetAngle [PMOD 360] → ¬currentAngle ≡ targetAngle + 180 [PMOD 360] →
    (getMotorDirToTarget currentAngle targetAngle).value =
      (SignType.sign (angleDistance currentAngle targetAngle) : ℤ)
  antisymm : (getMotorDirToTarget currentAngle targetAngle).value =
    -(getMotorDirToTarget targetAngle currentAngle).value

/-- Only between opposite angles are the two directions not each other's
opposite. -/
theorem alongDistance_iff (currentAngle targetAngle : K) :
    AlongDistance currentAngle targetAngle ↔
      ¬currentAngle ≡ targetAngle + 180 [PMOD 360] := by
  constructor
  · intro along opposite
    have turned := along.antisymm
    rcases (opposite_iff currentAngle targetAngle).mp opposite with half | half
    · obtain ⟨none, ahead⟩ := getMotorDirToTarget_of_half half
      rw [none, ahead] at turned
      exact absurd turned (by decide)
    · obtain ⟨none, ahead⟩ := getMotorDirToTarget_of_half half
      rw [none, ahead] at turned
      exact absurd turned (by decide)
  · intro apart
    have back : ¬targetAngle ≡ currentAngle + 180 [PMOD 360] := by
      rw [opposite_iff, or_comm, ← opposite_iff]
      exact apart
    refine ⟨getMotorDirToTarget_of_congr, fun _ _ => ?_, ?_⟩
    · rw [getMotorDirToTarget_of_not_opposite apart, value_along]
    · rw [getMotorDirToTarget_of_not_opposite apart, getMotorDirToTarget_of_not_opposite back,
        angleDistance_swap currentAngle, value_along_neg, neg_neg]

theorem alongDistance_iff_quarter : AlongDistance (350 : ℚ) 80 := by
  apply (alongDistance_iff (350 : ℚ) 80).mpr
  rw [opposite_iff]
  decide +kernel

/-- From half a turn to 0 there is no direction, back there is one. -/
theorem not_alongDistance_half : ¬AlongDistance (180 : ℚ) 0 := by
  intro along
  exact absurd along.antisymm (by decide +kernel)

end FrcRobot.RobotMath
