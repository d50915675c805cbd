import FrcRobot.AngleControl
import FrcRobot.MagneticPotEncoder

set_option autoImplicit false

/- The angle controller, its encoder and the wheel in a closed loop. -/
namespace FrcRobot.LinearAngleTarget

open RobotMath

variable {K : Type*} [Field K] [LinearOrder K] [FloorRing K]

/-- A tick reads the encoder up to three times: for the test, for the error and for
the direction. -/
inductive Moment where
  | test
  | error
  | direction
  deriving DecidableEq

/-- The power of a tick, from the angles that it reads. -/
def tickPower (control : LinearAngleTarget K) (encoderAngle : Moment → K) : K :=
  if control.isComplete (encoderAngle .test) then 0
  else control.stepPower (angleDistance (encoderAngle .error) control.targetAngle)
    (getMotorDirToTarget (encoderAngle .direction) control.targetAngle)

/-- Where all reads agree it is the power of execute. -/
theorem tickPower_const (control : LinearAngleTarget K) (encoderAngle : K) :
    control.tickPower (fun _ => encoderAngle) = control.execute encoderAngle := rfl

/-- What a wheel may make of a power until the next tick: it turns the way it is
driven, and by so many degrees for full power. -/
structure Responds (slow fast pow turned : K) : Prop where
  forth : 0 ≤ pow → slow * pow ≤ turned ∧ turned ≤ fast * pow
  back : pow ≤ 0 → fast * pow ≤ turned ∧ turned ≤ slow * pow

/-- The wheel is fast enough for the noise and slow enough for the threshold, and
the minimum power is so low that the fallback always knows its direction. -/
structure Tuned (control : LinearAngleTarget K) (slow fast noise : K) : Prop where
  nonneg : 0 ≤ noise
  order : slow ≤ fast
  gains : 2 * noise < slow * control.minSpeed
  stops : fast * control.minSpeed < control.threshold
  damped : fast * (1 - control.minSpeed) ≤ 90
  decided : 180 * control.minSpeed + 2 * noise * (1 - control.minSpeed) <
    180 * (1 - control.minSpeed)

theorem Tuned.threshold_pos [IsStrictOrderedRing K] {control : LinearAngleTarget K}
    {slow fast noise : K} (tuned : Tuned control slow fast noise) : 0 < control.threshold := by
  have order := mul_le_mul_of_nonneg_right tuned.order control.minSpeed_nonneg
  linarith [tuned.nonneg, tuned.gains, tuned.stops]

section Distance

variable [IsStrictOrderedRing K]

theorem abs_angleDistance_le_of_modEq {angle1 angle2 d : K}
    (same : d ≡ angle2 - angle1 [PMOD 360]) :
    |angleDistance angle1 angle2| ≤ |d| := by
  have turn : (360 : K) = 2 * 180 := by norm_num
  apply Turn.abs_le_abs_of_modEq (abs_angleDistance_le angle1 angle2)
  rw [← turn]
  exact (angleDistance_modEq angle1 angle2).trans same.symm

/-- Short of half a turn there is only one distance. -/
theorem angleDistance_eq_of_modEq {angle1 angle2 d : K} (same : d ≡ angle2 - angle1 [PMOD 360])
    (short : |d| < 180) : angleDistance angle1 angle2 = d := by
  have near := abs_le.mp (abs_angleDistance_le angle1 angle2)
  have close := abs_lt.mp short
  obtain ⟨turns, gap⟩ := AddCommGroup.modEq_iff_eq_add_zsmul.mp
    ((angleDistance_modEq angle1 angle2).trans same.symm)
  rw [zsmul_eq_mul] at gap
  have none : turns = 0 := by
    by_contra some
    rcases lt_or_gt_of_ne some with back | forth
    · have atMost : (turns : K) ≤ -1 := by exact_mod_cast Int.le_sub_one_of_lt back
      linarith
    · have atLeast : (1 : K) ≤ turns := by exact_mod_cast forth
      linarith
  rw [none, Int.cast_zero, zero_mul, add_zero] at gap
  exact gap.symm

end Distance

section Tick

variable [IsStrictOrderedRing K] {control : LinearAngleTarget K} {slow fast noise angle : K}

/-- The angles that a tick reads are those of the wheel, up to the noise. -/
def Reads (noise angle : K) (encoderAngle : Moment → K) : Prop :=
  ∀ moment, ∃ gap, |gap| ≤ noise ∧ encoderAngle moment ≡ angle + gap [PMOD 360]

theorem measured_modEq {encoderAngle gap : K} (target : K)
    (reads : encoderAngle ≡ angle + gap [PMOD 360]) :
    angleDistance encoderAngle target + gap ≡ target - angle [PMOD 360] := by
  have error := (angleDistance_modEq encoderAngle target).add_right gap
  have there := (reads.sub_left target).add_right gap
  rw [← sub_sub, sub_add_cancel] at there
  exact error.trans there

theorem abs_angleDistance_le_measured {encoderAngle gap : K} (target : K) (small : |gap| ≤ noise)
    (reads : encoderAngle ≡ angle + gap [PMOD 360]) :
    |angleDistance angle target| ≤ |angleDistance encoderAngle target| + noise := by
  refine (abs_angleDistance_le_of_modEq (measured_modEq target reads)).trans ?_
  exact (abs_add_le _ _).trans (add_le_add_right small _)

theorem measured_le_abs_angleDistance {encoderAngle gap : K} (target : K) (small : |gap| ≤ noise)
    (reads : encoderAngle ≡ angle + gap [PMOD 360]) :
    |angleDistance encoderAngle target| ≤ |angleDistance angle target| + noise := by
  have back := reads.symm.add_right (-gap)
  rw [add_neg_cancel_right] at back
  exact abs_angleDistance_le_measured target (by rwa [abs_neg]) back

/-- A negative error within reach of the fallback is read with the same sign when
the direction is asked for. -/
theorem direction_of_fallback (tuned : Tuned control slow fast noise) {atError atDirection d e : K}
    (small : |d| ≤ noise) (close : |e| ≤ noise)
    (reads : atError ≡ angle + d [PMOD 360]) (rereads : atDirection ≡ angle + e [PMOD 360])
    (beyond : control.threshold ≤ |angleDistance atError control.targetAngle|)
    (back : angleDistance atError control.targetAngle < 0)
    (within : |control.gain (angleDistance atError control.targetAngle)| ≤ control.minSpeed) :
    getMotorDirToTarget atDirection control.targetAngle = .dirCcw := by
  have smallBounds := abs_le.mp small
  have closeBounds := abs_le.mp close
  rw [abs_of_neg back] at beyond
  have atMost := control.minSpeed_le
  have present : 0 < 1 - control.minSpeed := by
    have reach := tuned.decided
    have nonneg := tuned.nonneg
    by_contra none
    have full : control.minSpeed = 1 := by linarith
    rw [full] at reach
    linarith
  have limits := tuned.stops
  have gains := tuned.gains
  have order := mul_le_mul_of_nonneg_right tuned.order control.minSpeed_nonneg
  -- The error that the direction is taken from differs by two noises at most.
  have shifted : angleDistance atError control.targetAngle + d - e ≡
      control.targetAngle - atDirection [PMOD 360] := by
    have error := (measured_modEq control.targetAngle reads).sub_right e
    have there := (rereads.sub_left control.targetAngle).symm
    rw [← sub_sub] at there
    exact error.trans there
  have reach : 180 * control.minSpeed ≥
      -angleDistance atError control.targetAngle * (1 - control.minSpeed) := by
    have lower := (abs_le.mp within).1
    unfold gain at lower
    linarith
  have short : -(180 - 2 * noise) < angleDistance atError control.targetAngle := by
    by_contra far
    have scaled := mul_le_mul_of_nonneg_right (not_lt.mp far) present.le
    linarith [tuned.decided]
  have moved : angleDistance atDirection control.targetAngle =
      angleDistance atError control.targetAngle + d - e := by
    refine angleDistance_eq_of_modEq shifted (abs_lt.mpr ⟨?_, ?_⟩)
    · linarith
    · linarith
  have negative : angleDistance atDirection control.targetAngle < 0 := by linarith
  rw [getMotorDirToTarget_eq, if_neg, MotorDir.along, if_neg negative.not_gt, if_pos negative]
  intro half
  have opposite := angleDistance_of_half half
  linarith

/-- What a tick does while it is not done: it drives toward the target, with the
minimum power at least. -/
structure Drives (control : LinearAngleTarget K) (error pow : K) : Prop where
  ahead : 0 < error → control.minSpeed ≤ pow ∧ pow ≤ control.gain error
  back : error ≤ 0 → control.minSpeed ≤ -pow ∧ -pow ≤ control.gain (-error)

theorem tickPower_cases (tuned : Tuned control slow fast noise) {encoderAngle : Moment → K}
    (reads : Reads noise angle encoderAngle) :
    control.tickPower encoderAngle = 0 ∧
        |angleDistance angle control.targetAngle| < control.threshold + noise ∨
      control.threshold ≤ |angleDistance (encoderAngle .error) control.targetAngle| ∧
        Drives control (angleDistance (encoderAngle .error) control.targetAngle)
          (control.tickPower encoderAngle) := by
  obtain ⟨test, testSmall, testReads⟩ := reads .test
  obtain ⟨d, small, errorReads⟩ := reads .error
  obtain ⟨e, close, directionReads⟩ := reads .direction
  unfold tickPower
  by_cases complete : control.isComplete (encoderAngle .test)
  · rw [if_pos complete]
    refine .inl ⟨rfl, (abs_angleDistance_le_measured _ testSmall testReads).trans_lt ?_⟩
    exact add_lt_add_left complete noise
  · rw [if_neg complete, stepPower, sgn_mul_abs]
    by_cases within : |angleDistance (encoderAngle .error) control.targetAngle| < control.threshold
    · rw [if_pos within]
      refine .inl ⟨rfl, (abs_angleDistance_le_measured _ small errorReads).trans_lt ?_⟩
      exact add_lt_add_left within noise
    · rw [if_neg within]
      have beyond := not_lt.mp within
      refine .inr ⟨beyond, ?_⟩
      show Drives control _ (if control.minSpeed < |control.gain _| then control.gain _ else _)
      constructor
      · intro ahead
        have slack : control.minSpeed < 1 := by
          have decided := tuned.decided
          have product := mul_nonneg tuned.nonneg (sub_nonneg.mpr control.minSpeed_le)
          linarith
        have gained := control.minSpeed_lt_gain ahead slack
        rw [if_pos (lt_abs.mpr (.inl gained))]
        exact ⟨gained.le, le_rfl⟩
      · intro back
        have turned : control.gain (-angleDistance (encoderAngle .error) control.targetAngle) =
            -control.gain (angleDistance (encoderAngle .error) control.targetAngle) +
              2 * control.minSpeed := by
          unfold gain
          ring
        rw [turned]
        split
        · rename_i far
          have under := control.gain_neg_of_minSpeed_lt back far
          have nonneg := control.minSpeed_nonneg
          constructor <;> linarith
        · rename_i near
          have within := not_lt.mp near
          have negative : angleDistance (encoderAngle .error) control.targetAngle < 0 := by
            refine lt_of_le_of_ne back fun none => ?_
            rw [none, abs_zero] at beyond
            linarith [tuned.threshold_pos]
          rw [direction_of_fallback tuned small close errorReads directionReads beyond negative
            within]
          simp only [MotorDir.value, Int.cast_neg, Int.cast_one, neg_mul, one_mul, neg_neg]
          exact ⟨le_rfl, by linarith [(abs_le.mp within).2]⟩

theorem Tuned.slow_pos (tuned : Tuned control slow fast noise) : 0 < slow := by
  by_contra none
  have lost := mul_nonpos_of_nonpos_of_nonneg (not_lt.mp none) control.minSpeed_nonneg
  linarith [tuned.nonneg, tuned.gains]

/-- Of an error ahead the wheel makes up for a part, or passes the target by less
than the threshold. -/
theorem approach (tuned : Tuned control slow fast noise) {error pow turned : K}
    (ahead : 0 ≤ error) (least : control.minSpeed ≤ pow) (most : pow ≤ control.gain error)
    (slowest : slow * pow ≤ turned) (fastest : turned ≤ fast * pow) :
    |error - turned| < control.threshold ∨ |error - turned| + slow * control.minSpeed ≤ error := by
  have moved : slow * control.minSpeed ≤ turned :=
    (mul_le_mul_of_nonneg_left least tuned.slow_pos.le).trans slowest
  rcases le_total turned error with short | past
  · right
    rw [abs_of_nonneg (sub_nonneg.mpr short)]
    linarith
  · left
    have fastPos : 0 ≤ fast := tuned.slow_pos.le.trans tuned.order
    have limit := fastest.trans (mul_le_mul_of_nonneg_left most fastPos)
    have damped : fast * control.gain error ≤ error + fast * control.minSpeed := by
      have product := mul_le_mul_of_nonneg_left tuned.damped ahead
      unfold gain
      linarith
    rw [abs_of_nonpos (sub_nonpos.mpr past)]
    linarith [tuned.stops]

/-- The wheel comes closer, or gets within reach of the threshold. -/
theorem nearer (tuned : Tuned control slow fast noise) {encoderAngle : Moment → K} {next : K}
    (reads : Reads noise angle encoderAngle)
    (responds : Responds slow fast (control.tickPower encoderAngle) (next - angle)) :
    |angleDistance next control.targetAngle| < control.threshold + noise ∨
      |angleDistance next control.targetAngle| + (slow * control.minSpeed - 2 * noise) ≤
        |angleDistance angle control.targetAngle| := by
  rcases tickPower_cases tuned reads with ⟨still, close⟩ | ⟨beyond, drives⟩
  · have stays : next = angle := by
      have forth := responds.forth still.ge
      rw [still, mul_zero, mul_zero] at forth
      linarith
    rw [stays]
    exact .inl close
  · obtain ⟨d, small, errorReads⟩ := reads .error
    have measured := measured_le_abs_angleDistance control.targetAngle small errorReads
    set error := angleDistance (encoderAngle .error) control.targetAngle with sameError
    -- What is left of the error that was measured, up to the noise.
    have left : |angleDistance next control.targetAngle| ≤ |error - (next - angle)| + noise := by
      have shifted : error - (next - angle) + d ≡ control.targetAngle - next [PMOD 360] := by
        have there := (measured_modEq control.targetAngle errorReads).sub_right
          (next - angle)
        rw [sub_sub_sub_cancel_right, add_sub_right_comm] at there
        exact there
      refine (abs_angleDistance_le_of_modEq shifted).trans ?_
      exact (abs_add_le _ _).trans (add_le_add_right small _)
    have part : |error - (next - angle)| < control.threshold ∨
        |error - (next - angle)| + slow * control.minSpeed ≤ |error| := by
      rcases lt_or_ge 0 error with ahead | back
      · obtain ⟨least, most⟩ := drives.ahead ahead
        obtain ⟨slowest, fastest⟩ := responds.forth (control.minSpeed_nonneg.trans least)
        rw [abs_of_pos ahead]
        exact approach tuned ahead.le least most slowest fastest
      · obtain ⟨least, most⟩ := drives.back back
        have nonpos := neg_nonneg.mp (control.minSpeed_nonneg.trans least)
        obtain ⟨fastest, slowest⟩ := responds.back nonpos
        have slowest' : slow * -control.tickPower encoderAngle ≤ -(next - angle) := by linarith
        have fastest' : -(next - angle) ≤ fast * -control.tickPower encoderAngle := by linarith
        have turned := approach tuned (neg_nonneg.mpr back) least most slowest' fastest'
        rwa [neg_sub_neg, abs_sub_comm, ← abs_of_nonpos back] at turned
    rcases part with close | closer
    · left
      linarith
    · right
      linarith

end Tick

section Loop

variable [IsStrictOrderedRing K]

/-- The wheel tick by tick. Each time an angle is read, all ten voltages are near
the one that stands for it, give or take full turns. -/
structure Loop (control : LinearAngleTarget K) (encoder : MagneticPotEncoder K)
    (slow fast noise : K) (angle : ℕ → K) (readings : ℕ → Moment → ℕ → K) : Prop where
  reads : ∀ tick moment, ∃ turns : ℤ, ∃ voltage,
    encoder.angleAt voltage = angle tick + 360 * turns ∧
      ∀ i < 10, |readings tick moment i - voltage| ≤ noise
  responds : ∀ tick, Responds slow fast
    (control.tickPower fun moment => encoder.getAngle (readings tick moment))
    (angle (tick + 1) - angle tick)

variable {control : LinearAngleTarget K} {encoder : MagneticPotEncoder K}
  {slow fast noise : K} {angle : ℕ → K} {readings : ℕ → Moment → ℕ → K}

theorem Loop.angles (loop : Loop control encoder slow fast noise angle readings) (tick : ℕ) :
    Reads (72 * noise) (angle tick) fun moment => encoder.getAngle (readings tick moment) := by
  intro moment
  obtain ⟨turns, voltage, there, near⟩ := loop.reads tick moment
  have off := encoder.abs_getAngle_sub_le near
  rw [MagneticPotEncoder.averageVoltage_const, there] at off
  refine ⟨_, off, ?_⟩
  have turned := add_turns_modEq
    (angle tick + (encoder.getAngle (readings tick moment) - (angle tick + 360 * turns))) turns
  rwa [add_right_comm, add_sub_cancel] at turned

/-- Where every step either ends below a bound or gains on it, enough steps do. -/
theorem below_of_gaining (x : ℕ → K) {bound gain : K} (positive : 0 < bound) (gains : 0 ≤ gain)
    (each : ∀ n, x (n + 1) < bound ∨ x (n + 1) + gain ≤ x n) {n steps : ℕ}
    (enough : x 0 ≤ steps * gain) (late : steps ≤ n) : x n < bound := by
  have reached : x n < bound ∨ x n + n * gain ≤ x 0 := by
    clear late
    induction n with
    | zero => right; simp
    | succ n ih =>
        rcases each n with below | closer
        · exact .inl below
        · rcases ih with below | gained
          · exact .inl (by linarith)
          · right
            push_cast
            linarith
  rcases reached with below | gained
  · exact below
  · have more : (steps : K) * gain ≤ n * gain :=
      mul_le_mul_of_nonneg_right (by exact_mod_cast late) gains
    linarith

/-- Whatever the noise and the response within these bounds, after so many ticks the
wheel is at its target and stays there. -/
theorem loop_settles (tuned : Tuned control slow fast (72 * noise))
    (loop : Loop control encoder slow fast noise angle readings) {ticks tick : ℕ}
    (enough : 180 ≤ ticks * (slow * control.minSpeed - 144 * noise)) (late : ticks ≤ tick) :
    |angleDistance (angle tick) control.targetAngle| < control.threshold + 72 * noise := by
  have gains := tuned.gains
  have gained : 0 ≤ slow * control.minSpeed - 144 * noise := by linarith
  refine below_of_gaining (fun tick => |angleDistance (angle tick) control.targetAngle|) ?_ gained
    ?_ ((abs_angleDistance_le _ _).trans enough) late
  · linarith [tuned.threshold_pos, tuned.nonneg]
  · intro tick
    refine (nearer tuned (loop.angles tick) (loop.responds tick)).imp_right fun closer => ?_
    linarith

/-- The voltages at an angle, which are too high for the error and too low else. -/
def voltages (angle : ℚ) (moment : Moment) (_i : ℕ) : ℚ :=
  (angle + 60) / 72 + if moment = .error then 1 / 720 else -(1 / 720)

/-- A wheel that turns by five degrees for full power, from 0 on. -/
def wheel : ℕ → ℚ
  | 0 => 0
  | tick + 1 => wheel tick + 5 * (fourTenths 90).tickPower fun moment =>
      MagneticPotEncoder.encFR.getAngle (voltages (wheel tick) moment)

theorem loop_wheel : Loop (fourTenths 90) MagneticPotEncoder.encFR 5 5 (1 / 720) wheel
    fun tick => voltages (wheel tick) where
  reads tick moment := by
    refine ⟨0, (wheel tick + 60) / 72, ?_, fun i _ => ?_⟩
    · simp only [MagneticPotEncoder.angleAt, MagneticPotEncoder.encFR,
        MagneticPotEncoder.construct, Int.cast_zero]
      ring
    · rw [voltages, add_sub_cancel_left]
      split <;> norm_num
  responds tick := by
    rw [wheel, add_sub_cancel_left]
    exact ⟨fun _ => ⟨le_rfl, le_rfl⟩, fun _ => ⟨le_rfl, le_rfl⟩⟩

theorem loop_settles_wheel : |angleDistance (wheel 100) 90| < 4 + 72 * (1 / 720) :=
  have enough : (180 : ℚ) ≤ (100 : ℕ) * (5 * (fourTenths 90).minSpeed - 144 * (1 / 720)) := by
    norm_num [fourTenths]
  loop_settles (by constructor <;> norm_num [fourTenths]) loop_wheel enough le_rfl

end Loop

end FrcRobot.LinearAngleTarget
