import FrcRobot.Literals
import FrcRobot.Turn
import Mathlib.Analysis.SpecialFunctions.Complex.Arg

set_option autoImplicit false

/- The direction of a vector of the plane, in degrees. -/
namespace Bearing

open Complex (I)

noncomputable def degrees (rad : ℝ) : ℝ := rad * (180 / Real.pi)

theorem degrees_add (first second : ℝ) :
    degrees (first + second) = degrees first + degrees second := by
  unfold degrees
  ring

theorem degrees_pi : degrees Real.pi = 180 :=
  mul_div_cancel₀ 180 Real.pi_ne_zero

/-- From degrees to radians and back. -/
theorem degrees_radians (angle : ℝ) : degrees (Real.pi * angle / 180) = angle := by
  unfold degrees
  field_simp

theorem degrees_modEq_half_iff (rad : ℝ) : degrees rad ≡ 0 [PMOD 180] ↔ Real.sin rad = 0 := by
  rw [AddCommGroup.modEq_zero_iff_eq_zsmul, Real.sin_eq_zero_iff]
  refine exists_congr fun turns => ?_
  rw [zsmul_eq_mul, degrees]
  constructor
  · intro whole
    field_simp at whole
    linarith
  · intro whole
    rw [← whole]
    field_simp

theorem degrees_modEq_iff (rad : ℝ) : degrees rad ≡ 0 [PMOD 360] ↔ Real.cos rad = 1 := by
  rw [AddCommGroup.modEq_zero_iff_eq_zsmul, Real.cos_eq_one_iff]
  refine exists_congr fun turns => ?_
  rw [zsmul_eq_mul, degrees]
  constructor
  · intro whole
    field_simp at whole
    linarith
  · intro whole
    rw [← whole]
    field_simp
    ring

/-- On the line through both half turns the cosine tells the two directions apart. -/
theorem degrees_modEq_of_sin {rad : ℝ} (level : Real.sin rad = 0) :
    degrees rad ≡ (if 0 ≤ Real.cos rad then 0 else 180) [PMOD 360] := by
  have turn : (360 : ℝ) = 2 * 180 := by norm_num
  rcases Turn.modEq_zero_half_iff.mp ((degrees_modEq_half_iff rad).mpr level) with zero | half
  · rw [← turn] at zero
    rw [(degrees_modEq_iff rad).mp zero, if_pos zero_le_one]
    exact zero
  · rw [← turn] at half
    have back : degrees (rad - Real.pi) ≡ 0 [PMOD 360] := by
      have split := degrees_add (rad - Real.pi) Real.pi
      rw [sub_add_cancel, degrees_pi] at split
      have shifted := half.sub_right 180
      rwa [split, add_sub_cancel_right, sub_self] at shifted
    have behind := (degrees_modEq_iff _).mp back
    rw [Real.cos_sub_pi] at behind
    rw [if_neg (by linarith)]
    exact half

/-- Turning a vector turns its direction. -/
theorem turned_eq (z : ℂ) (rad : ℝ) :
    z * Complex.exp (rad * I) = ‖z‖ * Complex.exp ((z.arg + rad : ℝ) * I) := by
  conv_lhs => rw [← Complex.norm_mul_exp_arg_mul_I z]
  rw [mul_assoc, ← Complex.exp_add, Complex.ofReal_add, add_mul]

theorem turned_re (z : ℂ) (rad : ℝ) :
    (z * Complex.exp (rad * I)).re = ‖z‖ * Real.cos (z.arg + rad) := by
  rw [turned_eq, Complex.re_ofReal_mul, Complex.exp_ofReal_mul_I_re]

theorem turned_im (z : ℂ) (rad : ℝ) :
    (z * Complex.exp (rad * I)).im = ‖z‖ * Real.sin (z.arg + rad) := by
  rw [turned_eq, Complex.im_ofReal_mul, Complex.exp_ofReal_mul_I_im]

end Bearing
