import FrcRobot.Bearing
import FrcRobot.SwerveSteering

set_option autoImplicit false

/- Which steering targets of the moving drive its controllers accept. -/
namespace FrcRobot.SwerveDrive

open Bearing Interleaving MotorLink RobotMath
open Complex (I)

/-- The joystick asks for a translation. -/
def Moving (values : ControlValues ℝ) : Prop :=
  thresh < |values.axisAt 11| ∨ thresh < |values.axisAt 14|

/-- The left stick as the handler takes it, with its second axis turned round. -/
noncomputable def stick (values : ControlValues ℝ) : ℂ :=
  ⟨deadband (values.axisAt 11), -deadband (values.axisAt 14)⟩

noncomputable def rotation (values : ControlValues ℝ) : ℝ := deadband (values.axisAt 12)

noncomputable def position (wheel : SwerveModule) : ℂ := ⟨xPos wheel, yPos wheel⟩

/-- What the handler adds to a steering target. -/
noncomputable def nudge (values : ControlValues ℝ) : ℝ :=
  if (stick values).re = 0 ∧ rotation values ≠ 0 then 1 / 10 else 0

/-- The velocity of a wheel of a rigid body: a quarter turn from its position,
less the stick turned by the gyro. -/
noncomputable def wheelVelocity (values : ControlValues ℝ) (gyroAngle : ℝ) (wheel : SwerveModule) :
    ℂ :=
  rotation values * I * position wheel -
    stick values * Complex.exp (dTR realLibrary gyroAngle * I)

theorem moving_norm {values : ControlValues ℝ} (moving : Moving values) :
    1 / 10 < ‖stick values‖ := by
  rcases moving with across | along
  · have kept : (stick values).re = values.axisAt 11 := if_pos across
    have below := Complex.abs_re_le_norm (stick values)
    rw [kept] at below
    norm_num [thresh] at across
    linarith
  · have kept : (stick values).im = -values.axisAt 14 := by
      simp only [stick, deadband, along, ↓reduceIte]
    have below := Complex.abs_im_le_norm (stick values)
    rw [kept, abs_neg] at below
    norm_num [thresh] at along
    linarith

theorem degrees_eq (rad : ℝ) : rTD realLibrary rad = degrees rad := rfl

theorem dTR_degrees_add (rad angle : ℝ) :
    dTR realLibrary (degrees rad + angle) = rad + dTR realLibrary angle := by
  simp only [dTR, realLibrary, degrees]
  field_simp

/-- The two components the handler keeps are the stick's, turned and reversed. -/
theorem velocity_eq (values : ControlValues ℝ) (gyroAngle : ℝ) :
    -‖stick values‖ * Real.cos ((stick values).arg + dTR realLibrary gyroAngle) =
        -(stick values * Complex.exp (dTR realLibrary gyroAngle * I)).re ∧
      -‖stick values‖ * Real.sin ((stick values).arg + dTR realLibrary gyroAngle) =
        -(stick values * Complex.exp (dTR realLibrary gyroAngle * I)).im := by
  rw [turned_re, turned_im, neg_mul, neg_mul]
  exact ⟨rfl, rfl⟩

theorem angleVector_eq (values : ControlValues ℝ) (gyroAngle : ℝ) (wheel : SwerveModule) :
    angleVector (-(stick values * Complex.exp (dTR realLibrary gyroAngle * I)).re)
        (-(stick values * Complex.exp (dTR realLibrary gyroAngle * I)).im) (rotation values) wheel =
      ((wheelVelocity values gyroAngle wheel).im, (wheelVelocity values gyroAngle wheel).re) := by
  simp only [angleVector, wheelVelocity, position, Complex.sub_re, Complex.sub_im, Prod.mk.injEq]
  constructor
  · simp
    ring
  · simp
    ring

theorem moduleAng_eq (values : ControlValues ℝ) (gyroAngle : ℝ) (wheel : SwerveModule) :
    moduleAng realLibrary
        (-‖stick values‖ * Real.cos ((stick values).arg + dTR realLibrary gyroAngle))
        (-‖stick values‖ * Real.sin ((stick values).arg + dTR realLibrary gyroAngle))
        (rotation values) wheel =
      degrees (wheelVelocity values gyroAngle wheel).arg := by
  rw [(velocity_eq values gyroAngle).1, (velocity_eq values gyroAngle).2, moduleAng,
    angleVector_eq]
  rfl

/-- The six requests, of which three steer and three drive. -/
def steerRequests (target : SwerveModule → ℝ) (right left back : ℝ) : List (SwerveRequest ℝ) :=
  [.setControlTarget .rotFR (target .R), .setControlTarget .rotFL (target .L),
    .setControlTarget .rotBk (target .B),
    .setSpeed .drvFR right, .setSpeed .drvFL left, .setSpeed .drvBk back]

/-- What the handler makes of a wheel's angle. -/
noncomputable def optimized (encoderAngle : Motor → ℝ) (drive : SwerveDrive ℝ)
    (wheel : SwerveModule) : ℝ × ℝ :=
  optimizeSwerve (encoderAngle (rotMotor wheel)) (drive.ang wheel) (drive.spd wheel)

theorem steerHandler_moving {drive next : SwerveDrive ℝ} {values : ControlValues ℝ}
    {gyroAngle : ℝ} {encoderAngle : Motor → ℝ} {requests : List (SwerveRequest ℝ)}
    (moving : Moving values)
    (steered : steerHandler realLibrary drive values gyroAngle encoderAngle =
      some (next, requests)) :
    (∀ wheel, next.ang wheel = degrees (wheelVelocity values gyroAngle wheel).arg) ∧
    ∃ right left back, requests = steerRequests
      (fun wheel => (optimized encoderAngle next wheel).1 + nudge values) right left back := by
  have fast : 1 / 10 < |-‖stick values‖| := by
    rw [abs_neg, abs_of_nonneg (norm_nonneg _)]
    exact moving_norm moving
  have norm : realLibrary.sqrt (deadband (values.axisAt 11) ^ 2 +
      (-deadband (values.axisAt 14)) ^ 2) = ‖stick values‖ :=
    (Complex.norm_eq_sqrt_sq_add_sq (stick values)).symm
  have direction : realLibrary.atan2 (-deadband (values.axisAt 14))
      (deadband (values.axisAt 11)) = (stick values).arg := rfl
  simp only [steerHandler, axis_joy1X, axis_joy1Y, axis_joy2X, Option.map_some,
    Option.bind_eq_bind, Option.bind_some, norm, direction, fast, ↓reduceIte, degrees_eq,
    dTR_degrees_add, Option.some.injEq, Prod.mk.injEq] at steered
  obtain ⟨rfl, rfl⟩ := steered
  constructor
  · intro wheel
    cases wheel <;> exact moduleAng_eq values gyroAngle _
  · exact ⟨_, _, _, rfl⟩

theorem run_steerRequests {links last : Motor → Processor ℝ} {old target : SwerveModule → ℝ}
    {right left back : ℝ}
    (controlled : ∀ wheel, AngleControlled (links (rotMotor wheel)) (old wheel))
    (taken : run perform links (steerRequests target right left back) = some last)
    (wheel : SwerveModule) :
    AngleControlled (last (rotMotor wheel))
      (if fmod (target wheel) 180 = 0 then old wheel else target wheel) := by
  cases wheel with
  | R =>
      exact run_perform_setControlTarget [] (controlled .R) (by simp)
        (by simp [rotMotor, SwerveRequest.motor]) taken
  | L =>
      exact run_perform_setControlTarget [.setControlTarget .rotFR (target .R)] (controlled .L)
        (by simp [rotMotor, SwerveRequest.motor]) (by simp [rotMotor, SwerveRequest.motor]) taken
  | B =>
      exact run_perform_setControlTarget
        [.setControlTarget .rotFR (target .R), .setControlTarget .rotFL (target .L)]
        (controlled .B) (by simp [rotMotor, SwerveRequest.motor])
        (by simp [rotMotor, SwerveRequest.motor]) taken

/-- A wheel's velocity after the turn by the nudge. -/
noncomputable def nudged (values : ControlValues ℝ) (gyroAngle : ℝ) (wheel : SwerveModule) : ℂ :=
  wheelVelocity values gyroAngle wheel * Complex.exp (dTR realLibrary (nudge values) * I)

/-- The velocity leads off the line of the multiples of 180 degrees. Without a
velocity the wheel is to go where only the nudge leads off that line. -/
def OffLine (values : ControlValues ℝ) (gyroAngle : ℝ) (wheel : SwerveModule) : Prop :=
  (wheelVelocity values gyroAngle wheel = 0 → nudge values ≠ 0) ∧
    (wheelVelocity values gyroAngle wheel ≠ 0 → (nudged values gyroAngle wheel).im ≠ 0)

/-- The multiple of 180 degrees that a velocity on the line comes to, at the end
of the line that is nearer to the wheel. -/
noncomputable def lineTarget (values : ControlValues ℝ) (gyroAngle ang : ℝ)
    (wheel : SwerveModule) : ℝ :=
  let axis := if 0 ≤ (nudged values gyroAngle wheel).re then 0 else 180
  if 90 < |angleDistance ang (axis - nudge values)| then axis + 180 else axis

theorem nudge_cases (values : ControlValues ℝ) : nudge values = 0 ∨ nudge values = 1 / 10 := by
  unfold nudge
  split
  · exact .inr rfl
  · exact .inl rfl

theorem sin_nudge_iff (values : ControlValues ℝ) :
    Real.sin (dTR realLibrary (nudge values)) = 0 ↔ nudge values = 0 := by
  rw [← degrees_modEq_half_iff, dTR, realLibrary, degrees_radians]
  rcases nudge_cases values with none | some
  · simp [none]
  · rw [some, ← fmod_eq_zero_iff (by norm_num)]
    norm_num [fmod, trunc]

/-- Off the line is where the direction, nudged, is no multiple of 180 degrees. -/
theorem offLine_iff (values : ControlValues ℝ) (gyroAngle : ℝ) (wheel : SwerveModule) :
    OffLine values gyroAngle wheel ↔
      Real.sin ((wheelVelocity values gyroAngle wheel).arg + dTR realLibrary (nudge values)) ≠
        0 := by
  by_cases still : wheelVelocity values gyroAngle wheel = 0
  · simp only [OffLine, still, forall_const, ne_eq, not_true_eq_false, false_implies, and_true,
      Complex.arg_zero, zero_add, sin_nudge_iff]
  · have length : ‖wheelVelocity values gyroAngle wheel‖ ≠ 0 := norm_ne_zero_iff.mpr still
    simp only [OffLine, still, false_implies, true_and, ne_eq, not_false_eq_true, forall_const,
      nudged, turned_im, mul_eq_zero, length, false_or]

theorem optimizeSwerve_modEq_half (ang1 ang2 vel : ℝ) :
    (optimizeSwerve ang1 ang2 vel).1 ≡ ang2 [PMOD 180] := by
  rw [optimizeSwerve_eq]
  split
  · exact AddCommGroup.add_modEq_left.mpr AddCommGroup.self_modEq_zero
  · exact AddCommGroup.modEq_rfl

theorem degrees_add_nudge (values : ControlValues ℝ) (rad : ℝ) :
    degrees (rad + dTR realLibrary (nudge values)) = degrees rad + nudge values := by
  rw [degrees_add, dTR, realLibrary, degrees_radians]

/-- The controller drops a target exactly on the line, and it is then the one
that the line comes to. -/
theorem dropped_iff (values : ControlValues ℝ) (gyroAngle ang spd : ℝ) (wheel : SwerveModule) :
    fmod ((optimizeSwerve ang (degrees (wheelVelocity values gyroAngle wheel).arg) spd).1 +
      nudge values) 180 = 0 ↔ ¬OffLine values gyroAngle wheel := by
  have flipped := (optimizeSwerve_modEq_half ang
    (degrees (wheelVelocity values gyroAngle wheel).arg) spd).add_right (nudge values)
  rw [fmod_eq_zero_iff (by norm_num), offLine_iff, not_not, ← degrees_modEq_half_iff,
    degrees_add_nudge]
  exact ⟨flipped.symm.trans, flipped.trans⟩

/-- On the line, the cosine's sign is that of the velocity along it. -/
theorem cos_nonneg_iff {values : ControlValues ℝ} {gyroAngle : ℝ} {wheel : SwerveModule}
    (onLine : ¬OffLine values gyroAngle wheel) :
    0 ≤ Real.cos ((wheelVelocity values gyroAngle wheel).arg + dTR realLibrary (nudge values)) ↔
      0 ≤ (nudged values gyroAngle wheel).re := by
  by_cases still : wheelVelocity values gyroAngle wheel = 0
  · have unturned : nudge values = 0 := by
      by_contra turned
      exact onLine ⟨fun _ => turned, fun moved => absurd still moved⟩
    simp [nudged, still, unturned, dTR]
  · have length : 0 < ‖wheelVelocity values gyroAngle wheel‖ := norm_pos_iff.mpr still
    rw [nudged, turned_re, mul_nonneg_iff_of_pos_left length]

theorem dropped_modEq {values : ControlValues ℝ} {gyroAngle : ℝ} {wheel : SwerveModule}
    (onLine : ¬OffLine values gyroAngle wheel) (ang spd : ℝ) :
    (optimizeSwerve ang (degrees (wheelVelocity values gyroAngle wheel).arg) spd).1 +
      nudge values ≡ lineTarget values gyroAngle ang wheel [PMOD 360] := by
  have level : Real.sin ((wheelVelocity values gyroAngle wheel).arg +
      dTR realLibrary (nudge values)) = 0 := by rwa [offLine_iff, not_not] at onLine
  have direction := degrees_modEq_of_sin level
  rw [degrees_add_nudge, if_congr (cos_nonneg_iff onLine) rfl rfl] at direction
  have turn : |angleDistance ang ((if 0 ≤ (nudged values gyroAngle wheel).re then 0 else 180) -
      nudge values)| = |angleDistance ang (degrees (wheelVelocity values gyroAngle wheel).arg)| :=
    abs_angleDistance_congr (by simpa using direction.symm.sub_right (nudge values))
  simp only [optimizeSwerve_eq, lineTarget, turn]
  split
  · rw [add_right_comm]
    exact direction.add_right 180
  · exact direction

/-- After the handler every wheel's controller has the target it was sent. -/
def TargetsApplied (values : ControlValues ℝ) (encoderAngle : Motor → ℝ) (drive : SwerveDrive ℝ)
    (links : Motor → Processor ℝ) : Prop :=
  ∀ wheel, ∃ target, AngleTarget (links (rotMotor wheel)) target ∧
    target ≡ (optimized encoderAngle drive wheel).1 + nudge values [PMOD 360]

theorem angleTarget_unique {processor : Processor ℝ} {first second : ℝ}
    (one : AngleTarget processor first) (other : AngleTarget processor second) :
    first = second := by
  obtain ⟨id, attached, _, rfl⟩ := one
  obtain ⟨same, held, _, rfl⟩ := other
  rw [attached] at held
  rw [Option.some.inj held]

section Driving

variable {drive next : SwerveDrive ℝ} {values : ControlValues ℝ} {gyroAngle : ℝ}
  {encoderAngle : Motor → ℝ} {requests : List (SwerveRequest ℝ)}
  {links last : Motor → Processor ℝ} {old : SwerveModule → ℝ}

theorem applied_at_iff (moving : Moving values)
    (controlled : ∀ wheel, AngleControlled (links (rotMotor wheel)) (old wheel))
    (steered : steerHandler realLibrary drive values gyroAngle encoderAngle =
      some (next, requests))
    (performed : run perform links requests = some last) (wheel : SwerveModule) :
    (∃ target, AngleTarget (last (rotMotor wheel)) target ∧
      target ≡ (optimized encoderAngle next wheel).1 + nudge values [PMOD 360]) ↔
      OffLine values gyroAngle wheel ∨
        old wheel ≡ lineTarget values gyroAngle (encoderAngle (rotMotor wheel)) wheel
          [PMOD 360] := by
  obtain ⟨ang, right, left, back, rfl⟩ := steerHandler_moving moving steered
  have held := (run_steerRequests controlled performed wheel).2
  have dropped := dropped_iff values gyroAngle (encoderAngle (rotMotor wheel)) (next.spd wheel)
    wheel
  simp only [optimized, ang] at held ⊢
  by_cases offLine : OffLine values gyroAngle wheel
  · rw [if_neg (by rw [dropped]; exact not_not.mpr offLine)] at held
    exact ⟨fun _ => .inl offLine, fun _ => ⟨_, held, AddCommGroup.modEq_rfl⟩⟩
  · rw [if_pos (dropped.mpr offLine)] at held
    have onto := dropped_modEq offLine (encoderAngle (rotMotor wheel)) (next.spd wheel)
    constructor
    · rintro ⟨target, kept, same⟩
      rw [angleTarget_unique kept held] at same
      exact .inr (same.trans onto)
    · rintro (off | same)
      · exact absurd off offLine
      · exact ⟨_, held, same.trans onto.symm⟩

/-- Driving with a stick out of the dead band, the handler gets its target
through to a wheel that is to go off the line, and to one on the line only if
the line's target is what the controller had before. -/
theorem targetsApplied_iff (moving : Moving values)
    (controlled : ∀ wheel, AngleControlled (links (rotMotor wheel)) (old wheel))
    (steered : steerHandler realLibrary drive values gyroAngle encoderAngle =
      some (next, requests))
    (performed : run perform links requests = some last) :
    TargetsApplied values encoderAngle next last ↔
      ∀ wheel, OffLine values gyroAngle wheel ∨
        old wheel ≡ lineTarget values gyroAngle (encoderAngle (rotMotor wheel)) wheel
          [PMOD 360] :=
  forall_congr' fun wheel => applied_at_iff moving controlled steered performed wheel

end Driving

theorem lineTarget_modEq_half (values : ControlValues ℝ) (gyroAngle ang : ℝ)
    (wheel : SwerveModule) : lineTarget values gyroAngle ang wheel ≡ 0 [PMOD 180] := by
  have half : (180 : ℝ) ≡ 0 [PMOD 180] := AddCommGroup.self_modEq_zero
  have axis : (if 0 ≤ (nudged values gyroAngle wheel).re then (0 : ℝ) else 180) ≡ 0 [PMOD 180] := by
    split
    · exact AddCommGroup.modEq_rfl
    · exact half
  simp only [lineTarget]
  generalize (if 0 ≤ (nudged values gyroAngle wheel).re then (0 : ℝ) else 180) = line at axis ⊢
  split
  · exact (AddCommGroup.add_modEq_left.mpr half).trans axis
  · exact axis

/-- Without rotation and without a turn of the robot every wheel follows the stick. -/
theorem nudged_straight {values : ControlValues ℝ} (straight : rotation values = 0)
    (wheel : SwerveModule) :
    wheelVelocity values 0 wheel = -stick values ∧ nudged values 0 wheel = -stick values := by
  have unturned : nudge values = 0 := if_neg fun both => both.2 straight
  simp [nudged, wheelVelocity, straight, unturned, dTR]

/-- One axis of the joystick at its end, without rotation. -/
noncomputable def oneAxis (axis : Fin 16) : ControlValues ℝ :=
  ListenerManager.initialValues.setAxis axis 1

theorem steerHandler_exists (drive : SwerveDrive ℝ) (values : ControlValues ℝ) (gyroAngle : ℝ)
    (encoderAngle : Motor → ℝ) : ∃ next requests,
      steerHandler realLibrary drive values gyroAngle encoderAngle = some (next, requests) :=
  ⟨_, _, rfl⟩

/-- A drive whose wheels and steering targets are all at 90 degrees takes the
handler's requests. -/
theorem steered_exists (values : ControlValues ℝ) : ∃ next requests last,
    steerHandler realLibrary ⟨0, 0, 0, 0, 0, 0, 0, 0, 0, 0, 0⟩ values 0 (fun _ => 90) =
      some (next, requests) ∧ run perform (angleLinks 90) requests = some last := by
  obtain ⟨next, requests, steered⟩ :=
    steerHandler_exists ⟨0, 0, 0, 0, 0, 0, 0, 0, 0, 0, 0⟩ values 0 fun _ => 90
  obtain ⟨last, performed⟩ :=
    run_perform_attached (fun motor => (rfl : Attached (angleLinks (90 : ℝ) motor))) requests
  exact ⟨next, requests, last, steered, performed⟩

/-- The stick pushed ahead. -/
theorem targetsApplied_iff_ahead : ∃ next requests last,
    steerHandler realLibrary ⟨0, 0, 0, 0, 0, 0, 0, 0, 0, 0, 0⟩ (oneAxis 14) 0 (fun _ => 90) =
      some (next, requests) ∧ run perform (angleLinks 90) requests = some last ∧
      TargetsApplied (oneAxis 14) (fun _ => 90) next last := by
  obtain ⟨next, requests, last, steered, performed⟩ := steered_exists (oneAxis 14)
  refine ⟨next, requests, last, steered, performed, ?_⟩
  have moving : Moving (oneAxis 14) := by
    norm_num [Moving, oneAxis, thresh]
  refine (targetsApplied_iff moving
    (fun wheel => angleLinks_controlled 90 (rotMotor wheel)) steered performed).mpr ?_
  intro wheel
  left
  have straight : rotation (oneAxis 14) = 0 := by simp [rotation, oneAxis, deadband]
  have ahead : (stick (oneAxis 14)).im = -1 := by norm_num [stick, oneAxis, deadband, thresh]
  obtain ⟨velocity, turned⟩ := nudged_straight straight wheel
  constructor
  · intro still
    rw [velocity, neg_eq_zero] at still
    simp [still] at ahead
  · intro _
    simp [turned, ahead]

/-- The stick pushed aside: the wheels keep their old target. -/
theorem not_targetsApplied_aside : ∃ next requests last,
    steerHandler realLibrary ⟨0, 0, 0, 0, 0, 0, 0, 0, 0, 0, 0⟩ (oneAxis 11) 0 (fun _ => 90) =
      some (next, requests) ∧ run perform (angleLinks 90) requests = some last ∧
      ¬TargetsApplied (oneAxis 11) (fun _ => 90) next last := by
  obtain ⟨next, requests, last, steered, performed⟩ := steered_exists (oneAxis 11)
  refine ⟨next, requests, last, steered, performed, fun applied => ?_⟩
  have moving : Moving (oneAxis 11) := by
    norm_num [Moving, oneAxis, thresh]
  have straight : rotation (oneAxis 11) = 0 := by simp [rotation, oneAxis, deadband]
  have level : (stick (oneAxis 11)).im = 0 := by simp [stick, oneAxis, deadband]
  have norm := moving_norm moving
  obtain ⟨velocity, turned⟩ := nudged_straight straight .L
  rcases (applied_at_iff moving (fun wheel => angleLinks_controlled 90 (rotMotor wheel)) steered
    performed .L).mp (applied .L) with off | onto
  · refine off.2 ?_ ?_
    · rw [velocity, neg_ne_zero]
      intro still
      norm_num [still] at norm
    · simp [turned, level]
  · have turn : (360 : ℝ) = 2 • 180 := by norm_num
    rw [turn] at onto
    have half := onto.of_nsmul.trans (lineTarget_modEq_half _ _ _ _)
    rw [← fmod_eq_zero_iff (by norm_num)] at half
    norm_num [fmod, trunc] at half

end FrcRobot.SwerveDrive
