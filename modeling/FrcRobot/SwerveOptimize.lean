import FrcRobot.NormalizeAngle
import FrcRobot.SwerveDrive
import FrcRobot.Turn

set_option autoImplicit false

namespace FrcRobot

open RobotMath

variable {K : Type*} [Field K] [LinearOrder K] [FloorRing K]

namespace RobotMath

variable [IsStrictOrderedRing K]

theorem fmod_eq_zero_iff {x y : K} (positive : 0 < y) : fmod x y = 0 ↔ x ≡ 0 [PMOD y] := by
  rw [AddCommGroup.modEq_zero_iff_eq_zsmul]
  constructor
  · intro whole
    refine ⟨trunc (x / y), ?_⟩
    rw [zsmul_eq_mul]
    exact sub_eq_zero.mp whole
  · rintro ⟨turns, rfl⟩
    rw [zsmul_eq_mul, fmod, mul_div_assoc, div_self positive.ne', mul_one, trunc_intCast, sub_self]

/-- Going the distance from the first angle leads to the second. -/
theorem angleDistance_modEq (angle1 angle2 : K) :
    angleDistance angle1 angle2 ≡ angle2 - angle1 [PMOD 360] := by
  have plain : normalizeAngle angle2 - normalizeAngle angle1 ≡ angle2 - angle1 [PMOD 360] :=
    (normalizeAngle_modEq angle2).sub (normalizeAngle_modEq angle1)
  rcases angleDistance_cases angle1 angle2 with ⟨_, same⟩ | ⟨_, same⟩ | ⟨_, same⟩
  · rw [same, AddCommGroup.sub_modEq_iff_modEq_add]
    exact plain.trans (AddCommGroup.add_modEq_left.mpr AddCommGroup.self_modEq_zero).symm
  · rw [same]
    exact (AddCommGroup.add_modEq_left.mpr AddCommGroup.self_modEq_zero).trans plain
  · rw [same]
    exact plain

/-- The distance between two directions does not depend on the angles that
stand for them. -/
theorem abs_angleDistance_congr {angle1 angle2 other : K} (same : other ≡ angle2 [PMOD 360]) :
    |angleDistance angle1 other| = |angleDistance angle1 angle2| := by
  have turn : (360 : K) = 2 * 180 := by norm_num
  refine Turn.abs_eq_of_modEq (abs_angleDistance_le _ _) (abs_angleDistance_le _ _) ?_
  rw [← turn]
  exact (angleDistance_modEq angle1 other).trans
    ((same.sub_right angle1).trans (angleDistance_modEq angle1 angle2).symm)

theorem abs_angleDistance_opposite (angle1 angle2 : K) :
    |angleDistance angle1 angle2| + |angleDistance angle1 (angle2 + 180)| = 180 := by
  have turn : (360 : K) = 2 * 180 := by norm_num
  refine Turn.abs_add_abs_of_opposite (abs_angleDistance_le _ _) (abs_angleDistance_le _ _) ?_
  rw [← turn]
  have ahead := (angleDistance_modEq angle1 angle2).add_right 180
  refine (angleDistance_modEq angle1 (angle2 + 180)).trans ?_
  rw [add_sub_right_comm]
  exact ahead.symm

end RobotMath

namespace SwerveDrive

/-- The source measures from the wanted angle to the current one. -/
theorem optimizeSwerve_eq (ang1 ang2 vel : K) :
    optimizeSwerve ang1 ang2 vel =
      if 90 < |angleDistance ang1 ang2| then (ang2 + 180, -vel) else (ang2, vel) := by
  rw [optimizeSwerve, angleDistance_swap, abs_neg]

variable [IsStrictOrderedRing K]

/-- A flip turns the wheel by the rest of the half turn. -/
theorem abs_angleDistance_optimizeSwerve (ang1 ang2 vel : K) :
    |angleDistance ang1 (optimizeSwerve ang1 ang2 vel).1| =
      min |angleDistance ang1 ang2| (180 - |angleDistance ang1 ang2|) := by
  have halves := abs_angleDistance_opposite ang1 ang2
  rw [optimizeSwerve_eq]
  split
  · rename_i far
    rw [min_eq_right (by linarith)]
    linarith
  · rename_i near
    rw [min_eq_left (by linarith)]

/-- The wheel drives the velocity it was given, turned by at most a quarter
turn, and is only flipped where the plain turn is longer. -/
theorem optimizeSwerve_correct (ang1 ang2 vel : K) :
    ((optimizeSwerve ang1 ang2 vel).1 ≡ ang2 [PMOD 360] ∧ (optimizeSwerve ang1 ang2 vel).2 = vel ∨
      (optimizeSwerve ang1 ang2 vel).1 ≡ ang2 + 180 [PMOD 360] ∧
        (optimizeSwerve ang1 ang2 vel).2 = -vel) ∧
    |angleDistance ang1 (optimizeSwerve ang1 ang2 vel).1| ≤ 90 ∧
    (optimizeSwerve ang1 ang2 vel = (ang2 + 180, -vel) ↔ 90 < |angleDistance ang1 ang2|) := by
  refine ⟨?_, ?_, ?_⟩
  · rw [optimizeSwerve_eq]
    split
    · exact .inr ⟨AddCommGroup.modEq_rfl, rfl⟩
    · exact .inl ⟨AddCommGroup.modEq_rfl, rfl⟩
  · rw [abs_angleDistance_optimizeSwerve, min_le_iff]
    rcases le_total |angleDistance ang1 ang2| 90 with near | far
    · exact .inl near
    · exact .inr (by linarith)
  · rw [optimizeSwerve_eq]
    have apart : ang2 ≠ ang2 + 180 := by
      intro same
      linarith
    split
    · rename_i far
      exact ⟨fun _ => far, fun _ => rfl⟩
    · rename_i near
      exact ⟨fun same => absurd (Prod.mk.inj same).1 apart, fun far => absurd far near⟩

/-- A wheel at 350 degrees that is to drive at 100 degrees goes backwards. -/
theorem optimizeSwerve_correct_back :
    |angleDistance (350 : ℚ) (optimizeSwerve 350 100 1).1| ≤ 90 ∧
      optimizeSwerve (350 : ℚ) 100 1 = (280, -1) :=
  ⟨(optimizeSwerve_correct (350 : ℚ) 100 1).2.1, by
    rw [((optimizeSwerve_correct (350 : ℚ) 100 1).2.2).mpr (by decide +kernel)]
    norm_num⟩

end SwerveDrive

end FrcRobot
