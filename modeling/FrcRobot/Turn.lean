import Mathlib.Algebra.Group.ModEq
import Mathlib.Algebra.Order.Field.Basic
import Mathlib.Tactic.Linarith
import Mathlib.Tactic.Ring

set_option autoImplicit false

/- Angles up to full turns, measured by offsets of at most half a turn. -/
namespace Turn

variable {K : Type*} [Field K] {half : K}

/-- The multiples of half a turn are two directions. -/
theorem modEq_zero_half_iff {a : K} :
    a ≡ 0 [PMOD half] ↔ a ≡ 0 [PMOD (2 * half)] ∨ a ≡ half [PMOD (2 * half)] := by
  rw [two_mul, ← two_nsmul, AddCommGroup.modEq_nsmul_cases 2 two_ne_zero]
  constructor
  · rintro ⟨times, below, there⟩
    obtain rfl | rfl : times = 0 ∨ times = 1 := by omega
    · left
      rwa [zero_nsmul, add_zero] at there
    · right
      rwa [one_nsmul, zero_add] at there
  · rintro (there | there)
    · exact ⟨0, two_pos, by rwa [zero_nsmul, add_zero]⟩
    · exact ⟨1, one_lt_two, by rwa [one_nsmul, zero_add]⟩

variable [LinearOrder K] [IsStrictOrderedRing K] {d e : K}

/-- No offset to the same direction is shorter. -/
theorem abs_le_abs_of_modEq (near : |d| ≤ half) (same : d ≡ e [PMOD (2 * half)]) : |d| ≤ |e| := by
  obtain ⟨turns, gap⟩ := AddCommGroup.modEq_iff_eq_add_zsmul.mp same
  rw [zsmul_eq_mul] at gap
  have bounds := abs_le.mp near
  have nonneg : 0 ≤ 2 * half := by linarith
  rcases lt_trichotomy turns 0 with back | rfl | forth
  · have atMost : (turns : K) ≤ -1 := by exact_mod_cast Int.le_sub_one_of_lt back
    have far := mul_le_mul_of_nonneg_right atMost nonneg
    have beyond : half ≤ -e := by linarith
    exact near.trans (beyond.trans (neg_le_abs e))
  · rw [Int.cast_zero, zero_mul, add_zero] at gap
    rw [gap]
  · have atLeast : 1 ≤ (turns : K) := by exact_mod_cast forth
    have far := mul_le_mul_of_nonneg_right atLeast nonneg
    have beyond : half ≤ e := by linarith
    exact near.trans (beyond.trans (le_abs_self e))

/-- Two offsets of at most half a turn to the same direction are as long as each
other. -/
theorem abs_eq_of_modEq (near : |d| ≤ half) (close : |e| ≤ half)
    (same : d ≡ e [PMOD (2 * half)]) : |d| = |e| :=
  le_antisymm (abs_le_abs_of_modEq near same) (abs_le_abs_of_modEq close same.symm)

/-- The offset to the opposite direction makes up for half a turn. -/
theorem abs_add_abs_of_opposite (near : |d| ≤ half) (close : |e| ≤ half)
    (opposite : e ≡ d + half [PMOD (2 * half)]) : |d| + |e| = half := by
  rcases le_total 0 d with ahead | behind
  · have back : |d - half| = half - d := by
      rw [abs_of_nonpos (by linarith [le_abs_self d])]
      ring
    have turned : e ≡ d - half [PMOD (2 * half)] := by
      refine opposite.trans (AddCommGroup.modEq_iff_eq_add_zsmul.mpr ⟨-1, ?_⟩)
      rw [zsmul_eq_mul]
      push_cast
      ring
    rw [abs_eq_of_modEq close (by rw [back]; linarith) turned, back, abs_of_nonneg ahead]
    ring
  · have forth : |d + half| = d + half := by
      rw [abs_of_nonneg (by linarith [neg_abs_le d])]
    rw [abs_eq_of_modEq close (by rw [forth]; linarith) opposite, forth,
      abs_of_nonpos behind]
    ring

end Turn
