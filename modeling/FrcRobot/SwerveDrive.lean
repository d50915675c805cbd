import FrcRobot.AutoConfig
import FrcRobot.ListenerManager
import FrcRobot.RobotMath
import Mathlib.Analysis.Real.Sqrt
import Mathlib.Analysis.SpecialFunctions.Complex.Arg

set_option autoImplicit false

namespace FrcRobot

open ListenerManager (getRawDouble)
open RobotMath

/-- The functions the drive takes from the math library. Of the square root it
is known what it is a root of. -/
structure MathLibrary (K : Type*) [Field K] [LinearOrder K] where
  sqrt : K → K
  cos : K → K
  sin : K → K
  atan2 : K → K → K
  pi : K
  sqrt_sq : ∀ x, 0 ≤ x → sqrt x ^ 2 = x

noncomputable def realLibrary : MathLibrary ℝ where
  sqrt := Real.sqrt
  cos := Real.cos
  sin := Real.sin
  atan2 y x := Complex.arg ⟨x, y⟩
  pi := Real.pi
  sqrt_sq _ nonneg := Real.sq_sqrt nonneg

/-- The wheel modules, by the suffix the source gives them. -/
inductive SwerveModule where
  | L | R | B

/-- What the drive asks of its motors. -/
inductive SwerveRequest (K : Type*) where
  | setControlTarget (motor : Motor) (target : K)
  | setSpeed (motor : Motor) (pow : K)

/-- The values the handler keeps from one call to the next. -/
structure SwerveDrive (K : Type*) where
  vel : K
  theta : K
  rot : K
  xVel : K
  yVel : K
  spdL : K
  spdR : K
  spdB : K
  angL : K
  angR : K
  angB : K

namespace SwerveDrive

variable {K : Type*}

def spd (drive : SwerveDrive K) : SwerveModule → K
  | .L => drive.spdL
  | .R => drive.spdR
  | .B => drive.spdB

def ang (drive : SwerveDrive K) : SwerveModule → K
  | .L => drive.angL
  | .R => drive.angR
  | .B => drive.angB

variable [Field K]

def dimConst : K := 10

def xPos : SwerveModule → K
  | .L => -(1277374 / 100000) / dimConst
  | .R => 1277374 / 100000 / dimConst
  | .B => 0 / dimConst

def yPos : SwerveModule → K
  | .L => 7375 / 1000 / dimConst
  | .R => 7375 / 1000 / dimConst
  | .B => -(1475 / 100) / dimConst

/-- The two components whose squares spdL, spdB and spdR sum up. -/
def speedVector (xVel yVel rot : K) (wheel : SwerveModule) : K × K :=
  (xVel + rot * yPos wheel, yVel - rot * xPos wheel)

/-- The two arguments, in their order, of the atan2 in angL, angB and angR. -/
def angleVector (xVel yVel rot : K) (wheel : SwerveModule) : K × K :=
  (yVel + rot * xPos wheel, xVel - rot * yPos wheel)

/-- The two vectors turn the opposite way round, so their lengths differ by how
far the velocity is from pointing along the module's position. -/
theorem sq_sub_sq (xVel yVel rot : K) (wheel : SwerveModule) :
    (speedVector xVel yVel rot wheel).1 ^ 2 + (speedVector xVel yVel rot wheel).2 ^ 2 -
        ((angleVector xVel yVel rot wheel).1 ^ 2 + (angleVector xVel yVel rot wheel).2 ^ 2) =
      4 * rot * (xVel * yPos wheel - yVel * xPos wheel) := by
  simp only [speedVector, angleVector]
  ring

variable [LinearOrder K] (library : MathLibrary K)

def dTR (angle : K) : K := library.pi * angle / 180

def rTD (rad : K) : K := rad * (180 / library.pi)

def moduleSpd (xVel yVel rot : K) (wheel : SwerveModule) : K :=
  library.sqrt ((speedVector xVel yVel rot wheel).1 ^ 2 + (speedVector xVel yVel rot wheel).2 ^ 2)

def moduleAng (xVel yVel rot : K) (wheel : SwerveModule) : K :=
  rTD library (library.atan2 (angleVector xVel yVel rot wheel).1
    (angleVector xVel yVel rot wheel).2)

section Handler

variable [FloorRing K]

def optimizeSwerve (ang1 ang2 vel : K) : K × K :=
  let a := angleDistance ang2 ang1
  if 90 < |a| then (ang2 + 180, -vel) else (ang2, vel)

def thresh : K := 1 / 5

/-- An axis below the threshold counts as released. -/
def axis (values : ControlValues K) (listenable : Listenable) : Option K :=
  (getRawDouble values listenable).map fun value => if thresh < |value| then value else 0

/-- The handler on one published snapshot, the gyro's angle and the angles of
the three encoders. -/
def steerHandler (drive : SwerveDrive K) (values : ControlValues K) (gyroAngle : K)
    (encoderAngle : Motor → K) : Option (SwerveDrive K × List (SwerveRequest K)) := do
  let x1 ← axis values .joy1X
  let y1 ← (axis values .joy1Y).map fun value => -value
  let x2 ← axis values .joy2X
  let fastest := -library.sqrt (x1 ^ 2 + y1 ^ 2)
  let rot := x2
  let theta := if 1 / 10 < |fastest| then rTD library (library.atan2 y1 x1) + gyroAngle
    else drive.theta
  let vel := if 1 / 10 < |fastest| then fastest else 0
  let xVel := vel * library.cos (dTR library theta)
  let yVel := vel * library.sin (dTR library theta)
  let next : SwerveDrive K := {
    vel := vel, theta := theta, rot := rot, xVel := xVel, yVel := yVel
    spdL := moduleSpd library xVel yVel rot .L
    spdR := moduleSpd library xVel yVel rot .R
    spdB := moduleSpd library xVel yVel rot .B
    angL := moduleAng library xVel yVel rot .L
    angR := moduleAng library xVel yVel rot .R
    angB := moduleAng library xVel yVel rot .B }
  let r := optimizeSwerve (encoderAngle .rotFR) next.angR next.spdR
  let l := optimizeSwerve (encoderAngle .rotFL) next.angL next.spdL
  let b := optimizeSwerve (encoderAngle .rotBk) next.angB next.spdB
  let nudge := if x1 = 0 ∧ x2 ≠ 0 then 1 / 10 else 0
  let scl := if 1 < |r.2| ∨ 1 < |l.2| ∨ 1 < |b.2| then max |r.2| (max |l.2| |b.2|) else 1
  some (next, [
    .setControlTarget .rotFR (r.1 + nudge),
    .setControlTarget .rotFL (l.1 + nudge),
    .setControlTarget .rotBk (b.1 + nudge),
    .setSpeed .drvFR (r.2 / scl),
    .setSpeed .drvFL (-(l.2 / scl)),
    .setSpeed .drvBk (b.2 / scl)])

/-- What the handler keeps as the speed and angle of a module is made of the
velocities it keeps. -/
theorem steerHandler_modules {drive next : SwerveDrive K} {values : ControlValues K}
    {gyroAngle : K} {encoderAngle : Motor → K} {requests : List (SwerveRequest K)}
    (steered : steerHandler library drive values gyroAngle encoderAngle = some (next, requests)) :
    next.spd = moduleSpd library next.xVel next.yVel next.rot ∧
      next.ang = moduleAng library next.xVel next.yVel next.rot := by
  simp only [steerHandler, Option.bind_eq_bind, Option.bind_eq_some_iff, Option.some.injEq,
    Prod.mk.injEq] at steered
  obtain ⟨x1, _, y1, _, x2, _, rfl, _⟩ := steered
  constructor <;> funext wheel <;> cases wheel <;> rfl

end Handler

/-- The speed of a module is the length of the vector that its angle points along. -/
def OneVelocity (xVel yVel rot : K) (wheel : SwerveModule) : Prop :=
  moduleSpd library xVel yVel rot wheel ^ 2 =
    (angleVector xVel yVel rot wheel).1 ^ 2 + (angleVector xVel yVel rot wheel).2 ^ 2

variable [IsStrictOrderedRing K]

theorem moduleSpd_sq (xVel yVel rot : K) (wheel : SwerveModule) :
    moduleSpd library xVel yVel rot wheel ^ 2 =
      (speedVector xVel yVel rot wheel).1 ^ 2 + (speedVector xVel yVel rot wheel).2 ^ 2 :=
  library.sqrt_sq _ (add_nonneg (sq_nonneg _) (sq_nonneg _))

theorem oneVelocity_iff_along (xVel yVel rot : K) (wheel : SwerveModule) :
    OneVelocity library xVel yVel rot wheel ↔
      rot = 0 ∨ xVel * yPos wheel = yVel * xPos wheel := by
  rw [OneVelocity, moduleSpd_sq, ← sub_eq_zero, sq_sub_sq, ← sub_eq_zero (a := xVel * _)]
  simp

/-- Speed and angle of a module describe one velocity only without rotation or
when the body moves along the module's position, and those of all three only
without rotation or without translation. -/
theorem oneVelocity_iff (xVel yVel rot : K) :
    (∀ wheel, OneVelocity library xVel yVel rot wheel ↔
      rot = 0 ∨ xVel * yPos wheel = yVel * xPos wheel) ∧
    ((∀ wheel, OneVelocity library xVel yVel rot wheel) ↔
      rot = 0 ∨ xVel = 0 ∧ yVel = 0) := by
  constructor
  · exact oneVelocity_iff_along library xVel yVel rot
  · simp only [oneVelocity_iff_along]
    constructor
    · intro along
      rcases along .B with still | back
      · exact .inl still
      · rcases along .L with still | left
        · exact .inl still
        · right
          have noX : xVel = 0 := by simpa [xPos, yPos, dimConst] using back
          refine ⟨noX, ?_⟩
          simpa [xPos, yPos, dimConst, noX] using left
    · rintro (still | ⟨noX, noY⟩) wheel
      · exact .inl still
      · simp [noX, noY]

/-- Turning on the spot. -/
theorem oneVelocity_iff_spot : OneVelocity realLibrary 0 0 1 .B :=
  (oneVelocity_iff realLibrary 0 0 1).2.mpr (.inr ⟨rfl, rfl⟩) .B

/-- Driving ahead while turning. -/
theorem not_oneVelocity_turning : ¬OneVelocity realLibrary 1 0 1 .B := by
  rw [OneVelocity, moduleSpd_sq]
  simp only [speedVector, angleVector, xPos, yPos, dimConst]
  norm_num

end SwerveDrive

end FrcRobot
