import FrcRobot.SwerveScaling

set_option autoImplicit false

/- How the wheels of the swerve drive roll under the requests of its handler, next
to the motion of the whole body that the stick asks for. -/
namespace FrcRobot.SwerveDrive

open Bearing RobotMath
open Complex (I)

def drvMotor : SwerveModule → Motor
  | .L => .drvFL
  | .R => .drvFR
  | .B => .drvBk

/-- The left wheel's motor is mounted the other way round. -/
def mounted : SwerveModule → ℝ
  | .L => -1
  | .R | .B => 1

/-- The target that a motor is sent, if any. -/
def sentTarget (requests : List (SwerveRequest ℝ)) (motor : Motor) : Option ℝ :=
  requests.findSome? fun
    | .setControlTarget other target => if other = motor then some target else none
    | .setSpeed _ _ => none

def sentSpeed (requests : List (SwerveRequest ℝ)) (motor : Motor) : Option ℝ :=
  requests.findSome? fun
    | .setSpeed other pow => if other = motor then some pow else none
    | .setControlTarget _ _ => none

/-- A wheel that has turned to its target and rolls with the power it is sent. -/
noncomputable def rolling (requests : List (SwerveRequest ℝ)) (wheel : SwerveModule) : ℂ :=
  mounted wheel * (sentSpeed requests (drvMotor wheel)).getD 0 *
    Complex.exp (dTR realLibrary ((sentTarget requests (rotMotor wheel)).getD 0) * I)

/-- All three wheels roll as the stick asks them to, up to the nudge and one factor. -/
def FollowsStick (values : ControlValues ℝ) (gyroAngle : ℝ) (requests : List (SwerveRequest ℝ)) :
    Prop :=
  ∃ factor : ℝ, 0 < factor ∧
    ∀ wheel, rolling requests wheel = factor * nudged values gyroAngle wheel

/-- Turning a wheel round and driving it backwards changes nothing. -/
theorem optimizeSwerve_rolls (ang1 ang2 vel : ℝ) :
    ((optimizeSwerve ang1 ang2 vel).2 : ℂ) *
        Complex.exp (dTR realLibrary (optimizeSwerve ang1 ang2 vel).1 * I) =
      vel * Complex.exp (dTR realLibrary ang2 * I) := by
  have round : dTR realLibrary (ang2 + 180) = dTR realLibrary ang2 + Real.pi := by
    simp only [dTR, realLibrary]
    ring
  simp only [optimizeSwerve]
  split
  · rw [round, Complex.ofReal_add, add_mul, Complex.exp_add, Complex.exp_pi_mul_I]
    push_cast
    ring
  · rfl

theorem rolling_steerRequests (target speed : SwerveModule → ℝ) (wheel : SwerveModule) :
    rolling (steerRequests target (speed .R) (-speed .L) (speed .B)) wheel =
      speed wheel * Complex.exp (dTR realLibrary (target wheel) * I) := by
  cases wheel <;>
    simp [rolling, sentSpeed, sentTarget, steerRequests, drvMotor, rotMotor, mounted]

theorem dTR_degrees (rad : ℝ) : dTR realLibrary (degrees rad) = rad := by
  have same := dTR_degrees_add rad 0
  have none : dTR realLibrary 0 = 0 := by simp [dTR]
  rwa [none, add_zero, add_zero] at same

theorem dTR_add (first second : ℝ) :
    dTR realLibrary (first + second) = dTR realLibrary first + dTR realLibrary second := by
  simp only [dTR]
  ring

/-- The divisor of the speeds, where they have one. -/
noncomputable def divisor (speeds : SwerveModule → ℝ) : ℝ :=
  if TooFast speeds then scl speeds else 1

theorem divisor_pos (speeds : SwerveModule → ℝ) : 0 < divisor speeds := by
  unfold divisor
  split
  · rename_i fast
    exact one_pos.trans ((tooFast_iff speeds).mp fast)
  · exact one_pos

theorem scaled_mul_divisor (speeds : SwerveModule → ℝ) (wheel : SwerveModule) :
    scaled speeds wheel * divisor speeds = speeds wheel := by
  rw [scaled_eq]
  exact div_mul_cancel₀ _ (divisor_pos speeds).ne'

section Handler

variable {drive next : SwerveDrive ℝ} {values : ControlValues ℝ} {gyroAngle : ℝ}
  {encoderAngle : Motor → ℝ} {requests : List (SwerveRequest ℝ)}

theorem deadband_eq_zero_iff (value : ℝ) : deadband value = 0 ↔ |value| ≤ thresh := by
  constructor
  · intro none
    by_contra beyond
    rw [deadband, if_pos (not_le.mp beyond)] at none
    rw [none, abs_zero] at beyond
    exact beyond (by norm_num [thresh])
  · exact deadband_idle

theorem stick_eq_zero_iff : stick values = 0 ↔ ¬Moving values := by
  rw [Moving, not_or, not_lt, not_lt, ← deadband_eq_zero_iff, ← deadband_eq_zero_iff,
    Complex.ext_iff]
  simp [stick]

/-- The velocities and the requests of the handler, for any stick. -/
theorem steerHandler_eq
    (steered : steerHandler realLibrary drive values gyroAngle encoderAngle =
      some (next, requests)) :
    next.xVel = -(stick values * Complex.exp (dTR realLibrary gyroAngle * I)).re ∧
      next.yVel = -(stick values * Complex.exp (dTR realLibrary gyroAngle * I)).im ∧
      next.rot = rotation values ∧
      requests = steerRequests (fun wheel => (optimized encoderAngle next wheel).1 + nudge values)
        (scaled (optimizedSpeed encoderAngle next) .R)
        (-scaled (optimizedSpeed encoderAngle next) .L)
        (scaled (optimizedSpeed encoderAngle next) .B) := by
  have norm : realLibrary.sqrt (deadband (values.axisAt 11) ^ 2 +
      (-deadband (values.axisAt 14)) ^ 2) = ‖stick values‖ :=
    (Complex.norm_eq_sqrt_sq_add_sq (stick values)).symm
  have direction : realLibrary.atan2 (-deadband (values.axisAt 14))
      (deadband (values.axisAt 11)) = (stick values).arg := rfl
  simp only [steerHandler, axis_joy1X, axis_joy1Y, axis_joy2X, Option.map_some,
    Option.bind_eq_bind, Option.bind_some, norm, direction, degrees_eq,
    Option.some.injEq, Prod.mk.injEq] at steered
  obtain ⟨rfl, rfl⟩ := steered
  have fast : stick values ≠ 0 → 1 / 10 < |-‖stick values‖| := by
    intro pushed
    rw [abs_neg, abs_of_nonneg (norm_nonneg _)]
    exact moving_norm (not_not.mp (mt stick_eq_zero_iff.mpr pushed))
  have vel : (if 1 / 10 < |-‖stick values‖| then -‖stick values‖ else 0) = -‖stick values‖ := by
    by_cases still : stick values = 0
    · simp [still]
    · exact if_pos (fast still)
  have theta : stick values ≠ 0 → dTR realLibrary (if 1 / 10 < |-‖stick values‖| then
      degrees (stick values).arg + gyroAngle else drive.theta) =
      (stick values).arg + dTR realLibrary gyroAngle := by
    intro pushed
    rw [if_pos (fast pushed), dTR_degrees_add]
  obtain ⟨along, across⟩ := velocity_eq values gyroAngle
  refine ⟨?_, ?_, rfl, ?_⟩
  · show (if _ then _ else _) * Real.cos _ = _
    rw [vel]
    by_cases still : stick values = 0
    · simp [still]
    · exact theta still ▸ along
  · show (if _ then _ else _) * Real.sin _ = _
    rw [vel]
    by_cases still : stick values = 0
    · simp [still]
    · exact theta still ▸ across
  · simp only [scaled_eq]
    rfl

/-- A wheel rolls along the velocity it is to have, with the speed that the
handler has computed for it. -/
theorem rolling_eq
    (steered : steerHandler realLibrary drive values gyroAngle encoderAngle =
      some (next, requests)) (wheel : SwerveModule) :
    rolling requests wheel * divisor (optimizedSpeed encoderAngle next) =
      next.spd wheel * Complex.exp ((wheelVelocity values gyroAngle wheel).arg * I) *
        Complex.exp (dTR realLibrary (nudge values) * I) := by
  obtain ⟨xVel, yVel, rot, sent⟩ := steerHandler_eq steered
  have ang : next.ang wheel = degrees (wheelVelocity values gyroAngle wheel).arg := by
    rw [(steerHandler_modules realLibrary steered).2, xVel, yVel, rot, moduleAng, angleVector_eq]
    rfl
  have direction :
      dTR realLibrary (next.ang wheel) = (wheelVelocity values gyroAngle wheel).arg := by
    rw [ang, dTR_degrees]
  have rolls :=
    optimizeSwerve_rolls (encoderAngle (rotMotor wheel)) (next.ang wheel) (next.spd wheel)
  rw [direction] at rolls
  have undone :=
    congrArg Complex.ofReal (scaled_mul_divisor (optimizedSpeed encoderAngle next) wheel)
  rw [Complex.ofReal_mul] at undone
  rw [sent, rolling_steerRequests, dTR_add, Complex.ofReal_add, add_mul, Complex.exp_add,
    mul_right_comm, undone, ← mul_assoc]
  exact congrArg (· * Complex.exp (dTR realLibrary (nudge values) * I)) rolls

/-- Rolling as asked is a matter of the speeds alone. -/
theorem followsStick_iff_spd
    (steered : steerHandler realLibrary drive values gyroAngle encoderAngle =
      some (next, requests)) :
    FollowsStick values gyroAngle requests ↔ ∃ factor : ℝ, 0 < factor ∧
      ∀ wheel, next.spd wheel = factor * ‖wheelVelocity values gyroAngle wheel‖ := by
  have positive := divisor_pos (optimizedSpeed encoderAngle next)
  have whole : (divisor (optimizedSpeed encoderAngle next) : ℂ) ≠ 0 :=
    Complex.ofReal_ne_zero.mpr positive.ne'
  have along : ∀ factor : ℝ, ∀ wheel,
      (rolling requests wheel = factor * nudged values gyroAngle wheel ↔
        next.spd wheel = factor * divisor (optimizedSpeed encoderAngle next) *
          ‖wheelVelocity values gyroAngle wheel‖) := by
    intro factor wheel
    have polar := Complex.norm_mul_exp_arg_mul_I (wheelVelocity values gyroAngle wheel)
    rw [← mul_left_inj' whole, rolling_eq steered, nudged]
    conv_lhs => rhs; rw [← polar]
    rw [← Complex.ofReal_inj]
    push_cast
    constructor
    · intro same
      apply mul_right_cancel₀ (Complex.exp_ne_zero ((wheelVelocity values gyroAngle wheel).arg * I))
      apply mul_right_cancel₀ (Complex.exp_ne_zero (dTR realLibrary (nudge values) * I))
      linear_combination same
    · intro same
      rw [same]
      ring
  constructor
  · rintro ⟨factor, some, rolls⟩
    exact ⟨_, mul_pos some positive, fun wheel => (along factor wheel).mp (rolls wheel)⟩
  · rintro ⟨factor, some, speeds⟩
    refine ⟨factor / divisor (optimizedSpeed encoderAngle next), div_pos some positive,
      fun wheel => (along _ wheel).mpr ?_⟩
    rw [div_mul_cancel₀ _ positive.ne']
    exact speeds wheel

/-- The centre of the three wheels is the origin, so over all of them speeds and
velocities have the same squares. -/
theorem sum_spd_sq
    (steered : steerHandler realLibrary drive values gyroAngle encoderAngle =
      some (next, requests)) :
    (∀ wheel, next.spd wheel ^ 2 = moduleSpd realLibrary next.xVel next.yVel next.rot wheel ^ 2) ∧
    (∀ wheel, ‖wheelVelocity values gyroAngle wheel‖ ^ 2 =
      (angleVector next.xVel next.yVel next.rot wheel).1 ^ 2 +
        (angleVector next.xVel next.yVel next.rot wheel).2 ^ 2) ∧
    next.spd .L ^ 2 + next.spd .R ^ 2 + next.spd .B ^ 2 =
      ‖wheelVelocity values gyroAngle .L‖ ^ 2 + ‖wheelVelocity values gyroAngle .R‖ ^ 2 +
        ‖wheelVelocity values gyroAngle .B‖ ^ 2 := by
  obtain ⟨xVel, yVel, rot, _⟩ := steerHandler_eq steered
  have spd : ∀ wheel, next.spd wheel ^ 2 =
      moduleSpd realLibrary next.xVel next.yVel next.rot wheel ^ 2 := by
    intro wheel
    rw [(steerHandler_modules realLibrary steered).1]
  have norm : ∀ wheel, ‖wheelVelocity values gyroAngle wheel‖ ^ 2 =
      (angleVector next.xVel next.yVel next.rot wheel).1 ^ 2 +
        (angleVector next.xVel next.yVel next.rot wheel).2 ^ 2 := by
    intro wheel
    rw [xVel, yVel, rot, angleVector_eq, ← Complex.normSq_eq_norm_sq, Complex.normSq_apply]
    ring
  refine ⟨spd, norm, ?_⟩
  have apart : ∀ wheel, next.spd wheel ^ 2 - ‖wheelVelocity values gyroAngle wheel‖ ^ 2 =
      4 * next.rot * (next.xVel * yPos wheel - next.yVel * xPos wheel) := by
    intro wheel
    rw [spd, norm, moduleSpd_sq, sq_sub_sq]
  have centred : (yPos .L + yPos .R + yPos .B : ℝ) = 0 ∧ (xPos .L + xPos .R + xPos .B : ℝ) = 0 := by
    constructor <;> norm_num [xPos, yPos, dimConst]
  linear_combination apart .L + apart .R + apart .B +
    4 * next.rot * (next.xVel * centred.1 - next.yVel * centred.2)

theorem followsStick_iff_still
    (steered : steerHandler realLibrary drive values gyroAngle encoderAngle =
      some (next, requests)) :
    FollowsStick values gyroAngle requests ↔ rotation values = 0 ∨ stick values = 0 := by
  obtain ⟨xVel, yVel, rot, _⟩ := steerHandler_eq steered
  obtain ⟨spd, norm, total⟩ := sum_spd_sq steered
  have one : (∀ wheel, OneVelocity realLibrary next.xVel next.yVel next.rot wheel) ↔
      rotation values = 0 ∨ stick values = 0 := by
    rw [(oneVelocity_iff realLibrary next.xVel next.yVel next.rot).2, rot, xVel, yVel, neg_eq_zero,
      neg_eq_zero]
    have turned : stick values * Complex.exp (dTR realLibrary gyroAngle * I) = 0 ↔
        stick values = 0 := by
      simp [Complex.exp_ne_zero]
    rw [← turned, Complex.ext_iff, Complex.zero_re, Complex.zero_im]
  rw [followsStick_iff_spd steered, ← one]
  constructor
  · rintro ⟨factor, positive, speeds⟩ wheel
    rw [OneVelocity, ← norm, ← spd]
    -- One factor for all three has to be 1, unless nothing is to move at all.
    rw [speeds .L, speeds .R, speeds .B] at total
    have product : (factor ^ 2 - 1) * (‖wheelVelocity values gyroAngle .L‖ ^ 2 +
        ‖wheelVelocity values gyroAngle .R‖ ^ 2 + ‖wheelVelocity values gyroAngle .B‖ ^ 2) = 0 := by
      linear_combination total
    rw [speeds wheel, mul_pow]
    rcases mul_eq_zero.mp product with same | still
    · rw [sub_eq_zero.mp same, one_mul]
    · have none : ‖wheelVelocity values gyroAngle wheel‖ ^ 2 = 0 := by
        have left := sq_nonneg ‖wheelVelocity values gyroAngle .L‖
        have right := sq_nonneg ‖wheelVelocity values gyroAngle .R‖
        have back := sq_nonneg ‖wheelVelocity values gyroAngle .B‖
        cases wheel <;> linarith
      rw [none, mul_zero]
  · intro each
    refine ⟨1, one_pos, fun wheel => ?_⟩
    have nonneg : 0 ≤ next.spd wheel := by
      rw [(steerHandler_modules realLibrary steered).1]
      exact Real.sqrt_nonneg _
    have squares := each wheel
    rw [OneVelocity, ← norm, ← spd] at squares
    rw [one_mul]
    exact (pow_left_inj₀ nonneg (norm_nonneg _) two_ne_zero).mp squares

/-- The body moves as the sticks ask it to exactly when they do not ask it to turn
and to move at once. -/
theorem followsStick_iff
    (steered : steerHandler realLibrary drive values gyroAngle encoderAngle =
      some (next, requests)) :
    FollowsStick values gyroAngle requests ↔
      |values.axisAt 12| ≤ thresh ∨ |values.axisAt 11| ≤ thresh ∧ |values.axisAt 14| ≤ thresh := by
  rw [followsStick_iff_still steered, rotation, deadband_eq_zero_iff, stick_eq_zero_iff, Moving,
    not_or, not_lt, not_lt]

theorem followsStick_iff_ahead : ∃ next requests,
    steerHandler realLibrary ⟨0, 0, 0, 0, 0, 0, 0, 0, 0, 0, 0⟩ (oneAxis 14) 0 (fun _ => 90) =
      some (next, requests) ∧ FollowsStick (oneAxis 14) 0 requests := by
  obtain ⟨next, requests, steered⟩ := steerHandler_exists ⟨0, 0, 0, 0, 0, 0, 0, 0, 0, 0, 0⟩
    (oneAxis 14) 0 fun _ => 90
  have straight : |(oneAxis 14).axisAt 12| ≤ thresh := by
    simp [oneAxis, ListenerManager.initialValues_axisAt, thresh]
  exact ⟨next, requests, steered, (followsStick_iff steered).mpr (.inl straight)⟩

end Handler

end FrcRobot.SwerveDrive
