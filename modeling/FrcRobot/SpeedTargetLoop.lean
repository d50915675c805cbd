import FrcRobot.LinearSpeedTarget

set_option autoImplicit false

/- The speed controller and a wheel in a closed loop. -/
namespace FrcRobot.SpeedTargetLoop

open RobotMath

variable {K : Type*} [Field K] [LinearOrder K]

/-- What a tick finds of the wheel: the power it is driven with and the encoder's
angle. `recomputed` is no part of the program: how many ticks have recomputed the
power. -/
structure Wheel (K : Type*) where
  control : LinearSpeedTarget K
  speed : K
  encoderAngle : K
  recomputed : ℕ

/-- Until the next tick, so many milliseconds later, the wheel turns at a rate in
proportion to its power. -/
def tick (gain : K) (wheel : Wheel K) (milliseconds : ℤ) : Wheel K :=
  let encoderAngle := wheel.encoderAngle + gain * wheel.speed * milliseconds
  let step := wheel.control.speedControlStep milliseconds wheel.speed encoderAngle encoderAngle
  { control := step.2
    speed := step.1
    encoderAngle := encoderAngle
    recomputed := wheel.recomputed + if wheel.control.Recomputes milliseconds then 1 else 0 }

def run (gain : K) (wheel : Wheel K) (intervals : List ℤ) : Wheel K :=
  intervals.foldl (tick gain) wheel

/-- A controller that is given its target right after a refresh, on a wheel with some
power. -/
def started (tgtSpeed refreshTime speed encoderAngle : K) : Wheel K :=
  ⟨⟨tgtSpeed, 0, refreshTime, encoderAngle⟩, speed, encoderAngle, 0⟩

section Squares

/-- The size that a power in proportion to its own square has after so many steps. -/
def squared (factor size : K) (steps : ℕ) : K := min 1 ((factor * size) ^ 2 ^ steps / factor)

theorem squared_zero {factor size : K} (positive : 0 < factor) (valid : size ≤ 1) :
    squared factor size 0 = size := by
  rw [squared, pow_zero, pow_one, mul_div_cancel_left₀ size positive.ne', min_eq_right valid]

variable [IsStrictOrderedRing K]

/-- Once it has reached 1 the power stays there. -/
theorem squared_succ {factor size : K} (positive : 0 < factor) (nonneg : 0 ≤ size)
    (valid : size ≤ 1) (steps : ℕ) :
    min 1 (factor * squared factor size steps ^ 2) = squared factor size (steps + 1) := by
  have doubled : (factor * size) ^ 2 ^ (steps + 1) / factor =
      factor * ((factor * size) ^ 2 ^ steps / factor) ^ 2 := by
    rw [pow_succ, pow_mul]
    field_simp
  have start : 0 ≤ factor * size := mul_nonneg positive.le nonneg
  have most : factor * size ≤ factor := mul_le_of_le_one_right positive.le valid
  rcases le_or_gt ((factor * size) ^ 2 ^ steps / factor) 1 with within | beyond
  · rw [squared, squared, min_eq_right within, doubled]
  · have grows : 1 < factor * size := by
      by_contra small
      have shrinks := pow_le_of_le_one start (not_lt.mp small) (pow_ne_zero steps two_ne_zero)
      rw [lt_div_iff₀ positive, one_mul] at beyond
      linarith
    have large : 1 ≤ factor := (grows.trans_le most).le
    have next : 1 ≤ factor * ((factor * size) ^ 2 ^ steps / factor) ^ 2 :=
      one_le_mul_of_one_le_of_one_le large (one_le_pow₀ beyond.le)
    rw [squared, squared, min_eq_left beyond.le, doubled, min_eq_left next, one_pow, mul_one,
      min_eq_left large]

/-- Only a power that was in equilibrium from the beginning ever is. -/
theorem factor_mul_squared_eq_one_iff {factor size : K} (positive : 0 < factor) (nonneg : 0 ≤ size)
    (valid : size ≤ 1) (steps : ℕ) :
    factor * squared factor size steps = 1 ↔ factor * size = 1 := by
  have start : 0 ≤ factor * size := mul_nonneg positive.le nonneg
  have most : factor * size ≤ factor := mul_le_of_le_one_right positive.le valid
  have scaled : factor * squared factor size steps = min factor ((factor * size) ^ 2 ^ steps) := by
    rw [squared, mul_min_of_nonneg _ _ positive.le, mul_one, mul_div_cancel₀ _ positive.ne']
  have unit := pow_eq_one_iff_of_nonneg start (pow_ne_zero steps two_ne_zero)
  rw [scaled]
  constructor
  · intro level
    rcases min_eq_iff.mp level with ⟨same, above⟩ | ⟨same, _⟩
    · have small : factor * size ≤ 1 := same ▸ most
      exact unit.mp (le_antisymm (pow_le_one₀ start small) (same ▸ above))
    · exact unit.mp same
  · intro level
    rw [unit.mpr level, min_eq_right (level ▸ most)]

end Squares

section Powers

variable [IsStrictOrderedRing K]

theorem abs_makeValidPower (pow : K) : |makeValidPower pow| = min 1 |pow| := by
  unfold makeValidPower
  split
  · rename_i below
    have size : 1 ≤ |pow| := le_abs.mpr (.inr (by linarith))
    rw [abs_neg, abs_one, min_eq_left size]
  split
  · rename_i above
    have size : 1 ≤ |pow| := le_abs.mpr (.inl above.le)
    rw [abs_one, min_eq_left size]
  · rename_i low high
    rw [min_eq_right (abs_le.mpr ⟨not_lt.mp low, not_lt.mp high⟩)]

/-- A power keeps its direction when it is made valid. -/
theorem mul_makeValidPower_nonneg {direction pow : K} (along : 0 ≤ direction * pow) :
    0 ≤ direction * makeValidPower pow := by
  unfold makeValidPower
  split
  · rename_i below
    nlinarith
  split
  · rename_i above
    nlinarith
  · exact along

end Powers

section Loop

variable [IsStrictOrderedRing K]

/-- What every tick keeps. -/
structure Inv (gain tgtSpeed refreshTime speed : K) (wheel : Wheel K) : Prop where
  target : wheel.control.tgtSpeed = tgtSpeed
  refresh : wheel.control.refreshTime = refreshTime
  /-- The angle covered since the last recomputation is the accumulated time's. -/
  covered : wheel.encoderAngle - wheel.control.lastEncoderAngle =
    gain * wheel.speed * wheel.control.dtAccum
  size : |wheel.speed| = squared (gain / |tgtSpeed|) |speed| wheel.recomputed
  direction : 0 < wheel.recomputed → 0 ≤ tgtSpeed * wheel.speed

theorem inv_started {gain tgtSpeed refreshTime speed : K} (turns : 0 < gain)
    (wanted : tgtSpeed ≠ 0) (valid : |speed| ≤ 1) (encoderAngle : K) :
    Inv gain tgtSpeed refreshTime speed (started tgtSpeed refreshTime speed encoderAngle) where
  target := rfl
  refresh := rfl
  covered := by
    simp only [started]
    rw [sub_self, mul_zero]
  size := (squared_zero (div_pos turns (abs_pos.mpr wanted)) valid).symm
  direction := fun none => absurd none (lt_irrefl 0)

/-- A power that is recomputed is multiplied with itself: the measured rate is in
proportion to the power that the rate is divided into. -/
theorem recomputed_speed {gain speed tgtSpeed dtAccum : K} (elapsed : dtAccum ≠ 0) :
    speed / tgtSpeed * (gain * speed * dtAccum / dtAccum) = gain * speed ^ 2 / tgtSpeed := by
  rw [mul_div_cancel_right₀ _ elapsed]
  ring

theorem Inv.tick {gain tgtSpeed refreshTime speed : K} {wheel : Wheel K} (turns : 0 < gain)
    (wanted : tgtSpeed ≠ 0) (waits : 0 < refreshTime) (valid : |speed| ≤ 1)
    (inv : Inv gain tgtSpeed refreshTime speed wheel) (milliseconds : ℤ) :
    Inv gain tgtSpeed refreshTime speed (tick gain wheel milliseconds) := by
  have positive : 0 < gain / |tgtSpeed| := div_pos turns (abs_pos.mpr wanted)
  have covered : wheel.encoderAngle + gain * wheel.speed * milliseconds -
      wheel.control.lastEncoderAngle =
      gain * wheel.speed * wheel.control.accumulated milliseconds := by
    rw [LinearSpeedTarget.accumulated, mul_add, ← inv.covered]
    ring
  by_cases recomputes : wheel.control.Recomputes milliseconds
  · have elapsed : wheel.control.accumulated milliseconds ≠ 0 :=
      (waits.trans_le (inv.refresh ▸ not_lt.mp recomputes)).ne'
    have power : wheel.speed / wheel.control.tgtSpeed *
        ((wheel.encoderAngle + gain * wheel.speed * milliseconds -
          wheel.control.lastEncoderAngle) / wheel.control.accumulated milliseconds) =
        gain * wheel.speed ^ 2 / tgtSpeed := by
      rw [covered, inv.target, recomputed_speed elapsed]
    unfold SpeedTargetLoop.tick
    dsimp only
    rw [LinearSpeedTarget.speedControlStep_recomputing recomputes, power, if_pos recomputes]
    constructor
    case target => exact inv.target
    case refresh => exact inv.refresh
    case covered =>
      dsimp only
      rw [sub_self, mul_zero]
    case size =>
      have size : |gain * wheel.speed ^ 2 / tgtSpeed| =
          gain / |tgtSpeed| * |wheel.speed| ^ 2 := by
        rw [abs_div, abs_mul, abs_of_pos turns, abs_pow]
        ring
      dsimp only
      rw [abs_makeValidPower, size, inv.size, squared_succ positive (abs_nonneg speed) valid]
    case direction =>
      intro _
      apply mul_makeValidPower_nonneg
      rw [mul_div_cancel₀ _ wanted]
      exact mul_nonneg turns.le (sq_nonneg wheel.speed)
  · unfold SpeedTargetLoop.tick
    dsimp only
    rw [LinearSpeedTarget.speedControlStep_waiting recomputes, if_neg recomputes, add_zero]
    exact ⟨inv.target, inv.refresh, covered, inv.size, inv.direction⟩

theorem Inv.run {gain tgtSpeed refreshTime speed : K} {wheel : Wheel K} (turns : 0 < gain)
    (wanted : tgtSpeed ≠ 0) (waits : 0 < refreshTime) (valid : |speed| ≤ 1)
    (inv : Inv gain tgtSpeed refreshTime speed wheel) (intervals : List ℤ) :
    Inv gain tgtSpeed refreshTime speed (run gain wheel intervals) := by
  induction intervals generalizing wheel with
  | nil => exact inv
  | cons milliseconds intervals continues =>
    exact continues (inv.tick turns wanted waits valid milliseconds)

/-- The wheel turns at its target. -/
def AtTarget (gain tgtSpeed speed : K) : Prop := gain * speed = tgtSpeed

/-- A power in the target's direction is at the target just if its size is. -/
theorem atTarget_iff {gain tgtSpeed speed : K} (turns : 0 < gain) (wanted : tgtSpeed ≠ 0)
    (along : 0 ≤ tgtSpeed * speed) :
    AtTarget gain tgtSpeed speed ↔ gain / |tgtSpeed| * |speed| = 1 := by
  have size : 0 < |tgtSpeed| := abs_pos.mpr wanted
  have turned : |gain * speed| = gain * |speed| := by rw [abs_mul, abs_of_pos turns]
  rw [div_mul_eq_mul_div, div_eq_one_iff_eq size.ne', ← turned, AtTarget]
  constructor
  · intro level
    rw [level]
  · intro level
    rcases abs_eq_abs.mp level with same | opposite
    · exact same
    · have square : 0 < tgtSpeed * tgtSpeed := mul_self_pos.mpr wanted
      have against : tgtSpeed * (gain * speed) = -(tgtSpeed * tgtSpeed) := by
        rw [opposite, mul_neg]
      have nonneg : 0 ≤ gain * (tgtSpeed * speed) := mul_nonneg turns.le along
      linarith

/-- Each recomputation squares the power, so the loop runs away from its target:
up to full power or down to a standstill. It is at the target just if the power it
was started with had the target's size. -/
theorem run_squares {gain tgtSpeed refreshTime speed : K} (turns : 0 < gain)
    (wanted : tgtSpeed ≠ 0) (waits : 0 < refreshTime) (valid : |speed| ≤ 1) (encoderAngle : K)
    (intervals : List ℤ) :
    let wheel := run gain (started tgtSpeed refreshTime speed encoderAngle) intervals
    |wheel.speed| = squared (gain / |tgtSpeed|) |speed| wheel.recomputed ∧
      (0 < wheel.recomputed → 0 ≤ tgtSpeed * wheel.speed ∧
        (AtTarget gain tgtSpeed wheel.speed ↔ gain * |speed| = |tgtSpeed|)) := by
  intro wheel
  have inv : Inv gain tgtSpeed refreshTime speed wheel :=
    (inv_started turns wanted valid encoderAngle).run turns wanted waits valid intervals
  refine ⟨inv.size, fun recomputed => ⟨inv.direction recomputed, ?_⟩⟩
  have size : 0 < |tgtSpeed| := abs_pos.mpr wanted
  rw [atTarget_iff turns wanted (inv.direction recomputed), inv.size,
    factor_mul_squared_eq_one_iff (div_pos turns size) (abs_nonneg speed) valid,
    div_mul_eq_mul_div, div_eq_one_iff_eq size.ne']

end Loop

/-- A wheel that can turn twice as fast as it is to, at half power for the first
refresh: it is at its target and stays there. -/
theorem run_squares_half :
    AtTarget 2 1 (run 2 (started (1 : ℚ) 50 (1 / 2) 7) [20, 30, 50]).speed := by
  have squares := run_squares (by norm_num : (0 : ℚ) < 2) (one_ne_zero) (by norm_num : (0 : ℚ) < 50)
    (by norm_num : |(1 / 2 : ℚ)| ≤ 1) 7 [20, 30, 50]
  exact (squares.2 (by decide +kernel)).2.mpr (by norm_num)

end FrcRobot.SpeedTargetLoop
