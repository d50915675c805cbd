import FrcRobot.Literals
import Mathlib.Algebra.Order.Floor.Ring
import Mathlib.Data.Rat.Floor
import Mathlib.Tactic.Linarith
import Mathlib.Tactic.Ring

set_option autoImplicit false

namespace FrcRobot

/-- The direction a motor turns in, with the number the source gives it. -/
inductive MotorDir where
  | dirCcw | dirNone | dirCw
  deriving DecidableEq

def MotorDir.value : MotorDir → ℤ
  | .dirCcw => -1
  | .dirNone => 0
  | .dirCw => 1

/-- The direction that makes up for a distance. -/
def MotorDir.along {K : Type*} [Zero K] [LinearOrder K] (distance : K) : MotorDir :=
  if 0 < distance then .dirCw else if distance < 0 then .dirCcw else .dirNone

namespace RobotMath

variable {K : Type*} [Field K] [LinearOrder K]

section Power

/-- At 0 the source's quotient is not a number, and 0 here; what its callers
return does not depend on it. -/
def sgn (n : K) : K := |n| / n

theorem sgn_neg (n : K) : sgn (-n) = -sgn n := by
  rw [sgn, sgn, abs_neg, div_neg]

def isValidPower (pow : K) : Prop := -1 ≤ pow ∧ pow ≤ 1

instance (pow : K) : Decidable (isValidPower pow) := by
  unfold isValidPower
  infer_instance

def makeValidPower (pow : K) : K := if pow < -1 then -1 else if 1 < pow then 1 else pow

end Power

section Angles

variable [FloorRing K]

/-- The integer part, rounding toward zero as C does. -/
def trunc (x : K) : ℤ := if 0 ≤ x then ⌊x⌋ else ⌈x⌉

/-- C's fmod in exact arithmetic: the remainder has the sign of the dividend. -/
def fmod (x y : K) : K := x - trunc (x / y) * y

example : fmod (-450 : ℚ) 360 = -90 := by decide +kernel

theorem fmod_eq (x : K) {y : K} (positive : 0 < y) : fmod x y = (x / y - trunc (x / y)) * y := by
  rw [fmod, sub_mul, div_mul_cancel₀ x positive.ne']

def normalizeAngle (angle : K) : K :=
  let theta := fmod (fmod angle 360 + 360) 360
  if 180 < theta then theta - 360 else theta

theorem normalizeAngle_congr (angle : K) :
    ∃ turns : ℤ, normalizeAngle angle = angle + 360 * turns := by
  have plain : ∃ turns : ℤ, fmod (fmod angle 360 + 360) 360 = angle + 360 * turns := by
    refine ⟨1 - trunc (angle / 360) - trunc ((fmod angle 360 + 360) / 360), ?_⟩
    simp only [fmod]
    push_cast
    ring
  obtain ⟨turns, same⟩ := plain
  simp only [normalizeAngle]
  split
  · refine ⟨turns - 1, ?_⟩
    rw [same]
    push_cast
    ring
  · exact ⟨turns, same⟩

def angleDistance (angle1 angle2 : K) : K :=
  let dist := normalizeAngle angle2 - normalizeAngle angle1
  if 180 < |dist| then -sgn dist * (360 - |dist|) else dist

theorem angleDistance_swap (angle1 angle2 : K) :
    angleDistance angle2 angle1 = -angleDistance angle1 angle2 := by
  have turned : normalizeAngle angle1 - normalizeAngle angle2 =
      -(normalizeAngle angle2 - normalizeAngle angle1) := (neg_sub _ _).symm
  simp only [angleDistance, turned, abs_neg]
  split
  · rw [sgn_neg]
    ring
  · rfl

def getMotorDirToTarget (currentAngle targetAngle : K) : MotorDir :=
  let currentAngle := normalizeAngle currentAngle
  let targetAngle := normalizeAngle targetAngle
  let retDir : ℤ := 1 * (if 180 < |currentAngle - targetAngle| then 1 else -1) *
    (if currentAngle - targetAngle < 0 then -1 else 1)
  if currentAngle - targetAngle = 0 ∨ currentAngle - targetAngle = 180 then .dirNone
  else if retDir = 1 then .dirCw else .dirCcw

end Angles

variable [IsStrictOrderedRing K]

theorem sgn_of_pos {n : K} (positive : 0 < n) : sgn n = 1 := by
  rw [sgn, abs_of_pos positive, div_self positive.ne']

theorem sgn_of_neg {n : K} (negative : n < 0) : sgn n = -1 := by
  rw [sgn, abs_of_neg negative, neg_div, div_self negative.ne]

theorem sgn_mul_abs (n : K) : sgn n * |n| = n := by
  rcases lt_trichotomy n 0 with negative | rfl | positive
  · rw [sgn_of_neg negative, abs_of_neg negative, neg_one_mul, neg_neg]
  · rw [abs_zero, mul_zero]
  · rw [sgn_of_pos positive, abs_of_pos positive, one_mul]

theorem makeValidPower_valid (pow : K) : isValidPower (makeValidPower pow) := by
  unfold isValidPower makeValidPower
  split
  · constructor <;> linarith
  · split
    · constructor <;> linarith
    · constructor <;> linarith

variable [FloorRing K]

theorem abs_sub_trunc_lt (x : K) : |x - trunc x| < 1 := by
  unfold trunc
  split
  · rw [abs_of_nonneg (sub_nonneg.mpr (Int.floor_le x))]
    linarith [Int.lt_floor_add_one x]
  · have below := Int.le_ceil x
    have close := Int.ceil_lt_add_one x
    rw [abs_lt]
    constructor <;> linarith

theorem trunc_intCast (whole : ℤ) : trunc (whole : K) = whole := by
  unfold trunc
  split
  · exact Int.floor_intCast whole
  · exact Int.ceil_intCast whole

theorem sub_trunc_nonneg {x : K} (nonneg : 0 ≤ x) : 0 ≤ x - trunc x := by
  rw [trunc, if_pos nonneg]
  exact sub_nonneg.mpr (Int.floor_le x)

theorem abs_fmod_lt (x : K) {y : K} (positive : 0 < y) : |fmod x y| < y := by
  rw [fmod_eq x positive, abs_mul, abs_of_pos positive]
  exact mul_lt_of_lt_one_left positive (abs_sub_trunc_lt (x / y))

theorem fmod_nonneg {x y : K} (nonneg : 0 ≤ x) (positive : 0 < y) : 0 ≤ fmod x y := by
  rw [fmod_eq x positive]
  exact mul_nonneg (sub_trunc_nonneg (div_nonneg nonneg positive.le)) positive.le

/-- Normalizing picks the one angle of a full turn that lies above -180 and not
above 180. -/
theorem normalizeAngle_bounds (angle : K) :
    -180 < normalizeAngle angle ∧ normalizeAngle angle ≤ 180 := by
  have turn : (0 : K) < 360 := by norm_num
  have inner := abs_lt.mp (abs_fmod_lt angle turn)
  have lower : 0 ≤ fmod (fmod angle 360 + 360) 360 := fmod_nonneg (by linarith) turn
  have upper := (abs_lt.mp (abs_fmod_lt (fmod angle 360 + 360) turn)).2
  simp only [normalizeAngle]
  split <;> constructor <;> linarith

/-- The three ways the distance comes about. -/
theorem angleDistance_cases (angle1 angle2 : K) :
    (180 < normalizeAngle angle2 - normalizeAngle angle1 ∧
      angleDistance angle1 angle2 = normalizeAngle angle2 - normalizeAngle angle1 - 360) ∨
    (normalizeAngle angle2 - normalizeAngle angle1 < -180 ∧
      angleDistance angle1 angle2 = normalizeAngle angle2 - normalizeAngle angle1 + 360) ∨
    (|normalizeAngle angle2 - normalizeAngle angle1| ≤ 180 ∧
      angleDistance angle1 angle2 = normalizeAngle angle2 - normalizeAngle angle1) := by
  simp only [angleDistance]
  split
  · rename_i far
    rcases lt_abs.mp far with ahead | behind
    · left
      have positive : 0 < normalizeAngle angle2 - normalizeAngle angle1 := by linarith
      refine ⟨ahead, ?_⟩
      rw [sgn_of_pos positive, abs_of_pos positive]
      ring
    · right
      left
      have negative : normalizeAngle angle2 - normalizeAngle angle1 < 0 := by linarith
      refine ⟨by linarith, ?_⟩
      rw [sgn_of_neg negative, abs_of_neg negative]
      ring
  · rename_i near
    exact .inr (.inr ⟨not_lt.mp near, rfl⟩)

theorem abs_angleDistance_le (angle1 angle2 : K) : |angleDistance angle1 angle2| ≤ 180 := by
  have first := normalizeAngle_bounds angle1
  have second := normalizeAngle_bounds angle2
  rcases angleDistance_cases angle1 angle2 with ⟨far, same⟩ | ⟨far, same⟩ | ⟨near, same⟩
  · rw [same, abs_le]
    constructor <;> linarith
  · rw [same, abs_le]
    constructor <;> linarith
  · rwa [same]

/-- At half a turn the distance has the sign of the difference. -/
theorem angleDistance_of_half {angle1 angle2 : K}
    (half : normalizeAngle angle1 - normalizeAngle angle2 = 180) :
    angleDistance angle1 angle2 = -180 := by
  rcases angleDistance_cases angle1 angle2 with ⟨far, _⟩ | ⟨far, _⟩ | ⟨_, same⟩
  · linarith
  · linarith
  · linarith

/-- Angles whose normal forms are half a turn apart are opposite. -/
theorem opposite_of_normalizeAngle {angle1 angle2 : K}
    (half : normalizeAngle angle2 - normalizeAngle angle1 = 180) :
    ∃ turns : ℤ, angle2 - angle1 = 180 + 360 * turns := by
  obtain ⟨first, same1⟩ := normalizeAngle_congr angle1
  obtain ⟨second, same2⟩ := normalizeAngle_congr angle2
  refine ⟨first - second, ?_⟩
  push_cast
  linarith

/-- The direction is the distance's, except half a turn below the current angle,
where there is none. -/
theorem getMotorDirToTarget_eq (currentAngle targetAngle : K) :
    getMotorDirToTarget currentAngle targetAngle =
      if normalizeAngle currentAngle - normalizeAngle targetAngle = 180 then .dirNone
      else .along (angleDistance currentAngle targetAngle) := by
  have current := normalizeAngle_bounds currentAngle
  have target := normalizeAngle_bounds targetAngle
  have turned : normalizeAngle targetAngle - normalizeAngle currentAngle =
      -(normalizeAngle currentAngle - normalizeAngle targetAngle) := (neg_sub _ _).symm
  have within : |normalizeAngle currentAngle - normalizeAngle targetAngle| < 360 := by
    rw [abs_lt]
    constructor <;> linarith
  have cases := angleDistance_cases currentAngle targetAngle
  rw [turned] at cases
  simp only [getMotorDirToTarget, MotorDir.along]
  generalize normalizeAngle currentAngle - normalizeAngle targetAngle = gap at within cases ⊢
  have bounds := abs_lt.mp within
  rcases cases with ⟨far, same⟩ | ⟨far, same⟩ | ⟨near, same⟩
  · have beyond : 180 < |gap| := lt_abs.mpr (.inr far)
    have negative : gap < 0 := by linarith
    have back : angleDistance currentAngle targetAngle < 0 := by linarith
    have other : gap ≠ 180 := by linarith
    simp [beyond, negative, negative.ne, back, back.not_gt, other]
  · have beyond : 180 < |gap| := lt_abs.mpr (.inl (by linarith))
    have positive : 0 < gap := by linarith
    have ahead : 0 < angleDistance currentAngle targetAngle := by linarith
    have other : gap ≠ 180 := by linarith
    simp [beyond, positive.not_gt, positive.ne', ahead, other]
  · have close : ¬180 < |gap| := by rwa [abs_neg, ← not_lt] at near
    rcases lt_trichotomy gap 0 with negative | none | positive
    · have ahead : 0 < angleDistance currentAngle targetAngle := by linarith
      have other : gap ≠ 180 := by linarith
      simp [close, negative, negative.ne, ahead, other]
    · simp [same, none]
    · have back : angleDistance currentAngle targetAngle < 0 := by linarith
      simp [close, positive.not_gt, positive.ne', back, back.not_gt]

end RobotMath

end FrcRobot
