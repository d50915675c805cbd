import FrcRobot.RobotMath
import Mathlib.Algebra.Order.ToIntervalMod

set_option autoImplicit false

/- The two truncated remainders of normalizeAngle as one reduction to an interval. -/
namespace FrcRobot.RobotMath

variable {K : Type*} [Field K]

theorem add_turns_modEq (angle : K) (turns : ℤ) : angle + 360 * turns ≡ angle [PMOD 360] := by
  rw [mul_comm, ← zsmul_eq_mul]
  exact AddCommGroup.add_zsmul_modEq turns

variable [LinearOrder K]

/-- What normal angles are for: each direction is stood for by just one of them,
and every angle is taken to the one of its direction. -/
structure NormalForm (normal : K → K) : Prop where
  above : ∀ angle, -180 < normal angle
  atMost : ∀ angle, normal angle ≤ 180
  turned : ∀ angle, ∃ turns : ℤ, normal angle = angle + 360 * turns
  unique : ∀ angle other, -180 < other → other ≤ 180 → other ≡ angle [PMOD 360] →
    other = normal angle
  idempotent : ∀ angle, normal (normal angle) = normal angle
  periodic : ∀ angle (turns : ℤ), normal (angle + 360 * turns) = normal angle
  eq_iff : ∀ angle other, normal angle = normal other ↔ angle ≡ other [PMOD 360]

theorem mem_turn_iff [IsStrictOrderedRing K] (angle : K) :
    angle ∈ Set.Ioc (-180) (-180 + 360) ↔ -180 < angle ∧ angle ≤ 180 := by
  have right : (-180 : K) + 360 = 180 := by norm_num
  rw [right, Set.mem_Ioc]

theorem turn_pos [IsStrictOrderedRing K] : (0 : K) < 360 := by norm_num

variable [FloorRing K]

theorem normalizeAngle_modEq (angle : K) : normalizeAngle angle ≡ angle [PMOD 360] := by
  obtain ⟨turns, same⟩ := normalizeAngle_congr angle
  rw [same]
  exact add_turns_modEq angle turns

variable [IsStrictOrderedRing K]

/-- Whatever the sign of the angle, C's remainders reduce it as Mathlib's
`toIocMod` does. -/
theorem toIocMod_eq_normalizeAngle (angle : K) :
    toIocMod turn_pos (-180) angle = normalizeAngle angle := by
  rw [toIocMod_eq_iff, mem_turn_iff]
  refine ⟨normalizeAngle_bounds angle, ?_⟩
  exact AddCommGroup.modEq_iff_eq_add_zsmul.mp (normalizeAngle_modEq angle)

theorem normalizeAngle_eq_iff (angle other : K) :
    normalizeAngle angle = normalizeAngle other ↔ angle ≡ other [PMOD 360] := by
  rw [← toIocMod_eq_normalizeAngle, ← toIocMod_eq_normalizeAngle, toIocMod_eq_toIocMod,
    AddCommGroup.modEq_iff_zsmul']

/-- An angle that is normal already stays as it is. -/
theorem normalizeAngle_eq_self_iff (angle : K) :
    normalizeAngle angle = angle ↔ -180 < angle ∧ angle ≤ 180 := by
  rw [← toIocMod_eq_normalizeAngle, toIocMod_eq_self, mem_turn_iff]

theorem normalForm_normalizeAngle : NormalForm (normalizeAngle : K → K) where
  above angle := (normalizeAngle_bounds angle).1
  atMost angle := (normalizeAngle_bounds angle).2
  turned := normalizeAngle_congr
  unique angle other above atMost same := by
    rw [← (normalizeAngle_eq_self_iff other).mpr ⟨above, atMost⟩, normalizeAngle_eq_iff]
    exact same
  idempotent angle := (normalizeAngle_eq_self_iff _).mpr (normalizeAngle_bounds angle)
  periodic angle turns := (normalizeAngle_eq_iff _ _).mpr (add_turns_modEq angle turns)
  eq_iff := normalizeAngle_eq_iff

/-- Half a turn is normal from above only, and so it is after many turns back. -/
theorem normalForm_normalizeAngle_half :
    normalizeAngle (-180 : ℚ) = 180 ∧
      normalizeAngle (-180 + 360 * ((-1000000 : ℤ) : ℚ)) = normalizeAngle (-180) :=
  ⟨by decide +kernel, normalForm_normalizeAngle.periodic (-180) (-1000000)⟩

end FrcRobot.RobotMath
