import FrcRobot.SwerveTargets

set_option autoImplicit false

/- What the swerve drive's handler does to speeds that are not valid powers. -/
namespace FrcRobot.SwerveDrive

open RobotMath

variable {K : Type*} [Field K] [LinearOrder K]

/-- What the speeds are divided by where one of them is too high. -/
def scl (speeds : SwerveModule → K) : K :=
  max |speeds .R| (max |speeds .L| |speeds .B|)

def TooFast (speeds : SwerveModule → K) : Prop :=
  1 < |speeds .R| ∨ 1 < |speeds .L| ∨ 1 < |speeds .B|

instance (speeds : SwerveModule → K) : Decidable (TooFast speeds) := by
  unfold TooFast
  infer_instance

def scaled (speeds : SwerveModule → K) (wheel : SwerveModule) : K :=
  if TooFast speeds then speeds wheel / scl speeds else speeds wheel

theorem scaled_eq (speeds : SwerveModule → K) (wheel : SwerveModule) :
    scaled speeds wheel = speeds wheel / if TooFast speeds then scl speeds else 1 := by
  rw [scaled]
  split
  · rfl
  · rw [div_one]

/-- The powers that the requests set, in their order. -/
def sentSpeeds (requests : List (SwerveRequest K)) : List (Motor × K) :=
  requests.filterMap fun
    | .setSpeed motor pow => some (motor, pow)
    | .setControlTarget _ _ => none

/-- A module's speed, backwards where its wheel is not turned all the way. -/
def optimizedSpeed [FloorRing K] (encoderAngle : Motor → K) (drive : SwerveDrive K)
    (wheel : SwerveModule) : K :=
  (optimizeSwerve (encoderAngle (rotMotor wheel)) (drive.ang wheel) (drive.spd wheel)).2

/-- The handler sends the optimized speeds, scaled, the left one reversed. -/
theorem steerHandler_sentSpeeds [FloorRing K] {library : MathLibrary K} {drive next : SwerveDrive K}
    {values : ControlValues K} {gyroAngle : K} {encoderAngle : Motor → K}
    {requests : List (SwerveRequest K)}
    (steered : steerHandler library drive values gyroAngle encoderAngle = some (next, requests)) :
    sentSpeeds requests =
      [(.drvFR, scaled (optimizedSpeed encoderAngle next) .R),
        (.drvFL, -scaled (optimizedSpeed encoderAngle next) .L),
        (.drvBk, scaled (optimizedSpeed encoderAngle next) .B)] := by
  simp only [steerHandler, Option.bind_eq_bind, Option.bind_eq_some_iff, Option.some.injEq,
    Prod.mk.injEq] at steered
  obtain ⟨x1, _, y1, _, x2, _, rfl, rfl⟩ := steered
  simp only [scaled_eq]
  rfl

/-- What scaling owes the speeds. -/
structure Desaturated (speeds sent : SwerveModule → K) : Prop where
  valid : ∀ wheel, isValidPower (sent wheel)
  ratio : ∃ factor, 0 < factor ∧ factor ≤ 1 ∧ ∀ wheel, sent wheel = speeds wheel * factor
  kept : (∀ wheel, |speeds wheel| ≤ 1) → sent = speeds
  full : ¬(∀ wheel, |speeds wheel| ≤ 1) → ∃ wheel, |sent wheel| = 1
  divisor : TooFast speeds → scl speeds ≠ 0

theorem abs_le_scl (speeds : SwerveModule → K) (wheel : SwerveModule) :
    |speeds wheel| ≤ scl speeds := by
  cases wheel with
  | L => exact (le_max_left _ _).trans (le_max_right _ _)
  | R => exact le_max_left _ _
  | B => exact (le_max_right _ _).trans (le_max_right _ _)

/-- Some wheel is the fastest. -/
theorem scl_attained (speeds : SwerveModule → K) : ∃ wheel, scl speeds = |speeds wheel| := by
  rcases max_choice |speeds .R| (max |speeds .L| |speeds .B|) with right | other
  · exact ⟨.R, right⟩
  · rcases max_choice |speeds .L| |speeds .B| with left | back
    · exact ⟨.L, other.trans left⟩
    · exact ⟨.B, other.trans back⟩

theorem tooFast_iff (speeds : SwerveModule → K) : TooFast speeds ↔ 1 < scl speeds := by
  rw [TooFast, scl, lt_max_iff, lt_max_iff]

theorem tooFast_iff_exists (speeds : SwerveModule → K) :
    TooFast speeds ↔ ¬∀ wheel, |speeds wheel| ≤ 1 := by
  rw [tooFast_iff]
  constructor
  · intro fast slow
    obtain ⟨wheel, fastest⟩ := scl_attained speeds
    rw [fastest] at fast
    exact absurd (slow wheel) (not_le.mpr fast)
  · intro fast
    obtain ⟨wheel, beyond⟩ := not_forall.mp fast
    exact (not_le.mp beyond).trans_le (abs_le_scl speeds wheel)

variable [IsStrictOrderedRing K]

theorem abs_div_scl {speeds : SwerveModule → K} (positive : 0 < scl speeds)
    (wheel : SwerveModule) : |speeds wheel / scl speeds| = |speeds wheel| / scl speeds := by
  rw [abs_div, abs_of_pos positive]

theorem desaturated_scaled (speeds : SwerveModule → K) : Desaturated speeds (scaled speeds) := by
  by_cases fast : TooFast speeds
  · have beyond : 1 < scl speeds := (tooFast_iff speeds).mp fast
    have positive : 0 < scl speeds := one_pos.trans beyond
    have divided : scaled speeds = fun wheel => speeds wheel / scl speeds := by
      funext wheel
      rw [scaled, if_pos fast]
    rw [divided]
    refine ⟨fun wheel => ?_, ⟨(scl speeds)⁻¹, inv_pos.mpr positive, inv_le_one_of_one_le₀ beyond.le,
      fun wheel => div_eq_mul_inv _ _⟩, fun slow => ?_, fun _ => ?_, fun _ => positive.ne'⟩
    · apply abs_le.mp
      rw [abs_div_scl positive, div_le_one positive]
      exact abs_le_scl speeds wheel
    · exact absurd slow ((tooFast_iff_exists speeds).mp fast)
    · obtain ⟨wheel, fastest⟩ := scl_attained speeds
      refine ⟨wheel, ?_⟩
      rw [abs_div_scl positive, ← fastest, div_self positive.ne']
  · have slow : ∀ wheel, |speeds wheel| ≤ 1 := by
      rwa [tooFast_iff_exists, not_not] at fast
    have same : scaled speeds = speeds := by
      funext wheel
      rw [scaled, if_neg fast]
    rw [same]
    exact ⟨fun wheel => abs_le.mp (slow wheel), ⟨1, one_pos, le_rfl, fun wheel => (mul_one _).symm⟩,
      fun _ => rfl, fun notSlow => absurd slow notSlow, fun isFast => absurd isFast fast⟩

/-- The handler's three speeds are the optimized ones, and what scaling makes of
any three speeds keeps their ratio within the valid powers. -/
theorem steerHandler_desaturates [FloorRing K] {library : MathLibrary K}
    {drive next : SwerveDrive K} {values : ControlValues K} {gyroAngle : K}
    {encoderAngle : Motor → K} {requests : List (SwerveRequest K)}
    (steered : steerHandler library drive values gyroAngle encoderAngle = some (next, requests)) :
    sentSpeeds requests =
      [(.drvFR, scaled (optimizedSpeed encoderAngle next) .R),
        (.drvFL, -scaled (optimizedSpeed encoderAngle next) .L),
        (.drvBk, scaled (optimizedSpeed encoderAngle next) .B)] ∧
    ∀ speeds : SwerveModule → K, Desaturated speeds (scaled speeds) :=
  ⟨steerHandler_sentSpeeds steered, desaturated_scaled⟩

/-- The stick pushed ahead. -/
theorem steerHandler_desaturates_ahead : ∃ next requests,
    steerHandler realLibrary ⟨0, 0, 0, 0, 0, 0, 0, 0, 0, 0, 0⟩ (oneAxis 14) 0 (fun _ => 90) =
      some (next, requests) ∧
    sentSpeeds requests =
      [(.drvFR, scaled (optimizedSpeed (fun _ => 90) next) .R),
        (.drvFL, -scaled (optimizedSpeed (fun _ => 90) next) .L),
        (.drvBk, scaled (optimizedSpeed (fun _ => 90) next) .B)] := by
  obtain ⟨next, requests, steered⟩ :=
    steerHandler_exists ⟨0, 0, 0, 0, 0, 0, 0, 0, 0, 0, 0⟩ (oneAxis 14) 0 fun _ => 90
  exact ⟨next, requests, steered, (steerHandler_desaturates steered).1⟩

end FrcRobot.SwerveDrive
