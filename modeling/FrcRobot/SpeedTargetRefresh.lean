import FrcRobot.IntervalClock
import FrcRobot.LinearSpeedTarget

set_option autoImplicit false

/- The two ways to a refresh time, compared over the ticks of a LinearSpeedTarget. -/
namespace FrcRobot.LinearSpeedTarget

open IntervalClock

variable {K : Type*}

/-- One call of speedControlStep, with what it reads of the linked motor. -/
structure Tick (K : Type*) where
  milliseconds : ℤ
  speed : K
  angle : K
  angleAgain : K

variable [Field K] [LinearOrder K]

def tick (control : LinearSpeedTarget K) (tick : Tick K) : K × LinearSpeedTarget K :=
  control.speedControlStep tick.milliseconds tick.speed tick.angle tick.angleAgain

/-- At which of the ticks the controller recomputes the power. -/
def refreshes : LinearSpeedTarget K → List (Tick K) → List Bool
  | _, [] => []
  | control, first :: rest =>
      decide (control.Recomputes first.milliseconds) :: refreshes (control.tick first).2 rest

/-- Every tick that does not recompute returns the motor's speed. -/
def Keeps : LinearSpeedTarget K → List (Tick K) → Prop
  | _, [] => True
  | control, first :: rest =>
      (¬control.Recomputes first.milliseconds → (control.tick first).1 = first.speed) ∧
        Keeps (control.tick first).2 rest

def intervals (ticks : List (Tick K)) : List K := ticks.map fun tick => (tick.milliseconds : K)

theorem keeps (control : LinearSpeedTarget K) (ticks : List (Tick K)) : Keeps control ticks := by
  induction ticks generalizing control with
  | nil => trivial
  | cons first rest ih =>
      refine ⟨fun waiting => ?_, ih _⟩
      rw [tick, speedControlStep_waiting waiting]

/-- The accumulated time is a clock of the refresh time. -/
theorem refreshes_eq_fires (control : LinearSpeedTarget K) (ticks : List (Tick K)) :
    control.refreshes ticks = fires control.refreshTime control.dtAccum (intervals ticks) := by
  induction ticks generalizing control with
  | nil => rfl
  | cons first rest ih =>
      show decide (control.Recomputes first.milliseconds) :: refreshes (control.tick first).2 rest =
        fires control.refreshTime control.dtAccum (first.milliseconds :: intervals rest)
      rw [ih, tick]
      by_cases recomputes : control.Recomputes first.milliseconds
      · rw [speedControlStep_recomputing recomputes, fires_firing recomputes,
          decide_eq_true recomputes]
      · rw [speedControlStep_waiting recomputes, fires_waiting (not_not.mp recomputes),
          decide_eq_false recomputes]
        rfl

/-- A controller that is constructed with a refresh time and one that is given it
later both recompute at the ticks at which it is over. -/
structure SameRefresh (tgtSpeed refreshTime other : K) (ticks : List (Tick K)) : Prop where
  constructed : (construct tgtSpeed refreshTime).refreshes ticks =
    fires refreshTime 0 (intervals ticks)
  given : ((construct tgtSpeed other).setRefreshTime refreshTime).refreshes ticks =
    fires refreshTime 0 (intervals ticks)
  keepsConstructed : Keeps (construct tgtSpeed refreshTime) ticks
  keepsGiven : Keeps ((construct tgtSpeed other).setRefreshTime refreshTime) ticks

variable [IsStrictOrderedRing K]

theorem constructed_iff (tgtSpeed refreshTime : K) (ticks : List (Tick K)) :
    (construct tgtSpeed refreshTime).refreshes ticks = fires refreshTime 0 (intervals ticks) ↔
      Undisputed refreshTime 50 refreshTime 0 (intervals ticks) := by
  rw [refreshes_eq_fires, ← fires_eq_iff, zero_add]
  rfl

theorem given_iff (tgtSpeed refreshTime other : K) (ticks : List (Tick K)) :
    ((construct tgtSpeed other).setRefreshTime refreshTime).refreshes ticks =
        fires refreshTime 0 (intervals ticks) ↔
      Undisputed refreshTime (refreshTime / 1000) other 0 (intervals ticks) := by
  rw [refreshes_eq_fires, ← fires_eq_iff, zero_add]
  rfl

/-- A tick of so many milliseconds, with a motor at rest. -/
def idle (milliseconds : ℤ) : Tick K := ⟨milliseconds, 0, 0, 0⟩

/-- From a refresh time of 49 milliseconds the constructed controller does not wait
at all at first, and below that it later waits longer than that. -/
theorem not_undisputed_constructed (refreshTime : K) :
    ¬Undisputed refreshTime 50 refreshTime 0 [1] ∨
      ¬Undisputed refreshTime 50 refreshTime 0 [49, 49] := by
  rcases le_or_gt 49 refreshTime with long | short
  · left
    rintro ⟨first, _⟩
    rw [not_disputed_iff, zero_add] at first
    have waits : 1 < refreshTime := by linarith
    have waitsToo := first.mp waits
    linarith
  · right
    rintro ⟨_, later⟩
    have reached : ¬(0 : K) + 49 < refreshTime := by linarith
    rw [if_neg reached] at later
    have second := later.1
    rw [not_disputed_iff] at second
    apply reached
    apply second.mpr
    norm_num

/-- Over given ticks both ways lead to the same refreshes just if no tick comes
while the time since the last one, or at first since the construction, lies
between the refresh time and what the controller compares with. Over all
sequences of ticks no refresh time does. -/
theorem sameRefresh_iff (tgtSpeed refreshTime other : K) :
    (∀ ticks, SameRefresh tgtSpeed refreshTime other ticks ↔
      Undisputed refreshTime 50 refreshTime 0 (intervals ticks) ∧
        Undisputed refreshTime (refreshTime / 1000) other 0 (intervals ticks)) ∧
    ¬∀ ticks : List (Tick K), (∀ tick ∈ ticks, 0 < tick.milliseconds) →
      SameRefresh tgtSpeed refreshTime other ticks := by
  constructor
  · intro ticks
    rw [← constructed_iff tgtSpeed, ← given_iff tgtSpeed]
    constructor
    · intro same
      exact ⟨same.constructed, same.given⟩
    · rintro ⟨constructed, given⟩
      exact ⟨constructed, given, keeps _ ticks, keeps _ ticks⟩
  · intro always
    have agrees (ticks : List (Tick K)) (forward : ∀ tick ∈ ticks, 0 < tick.milliseconds) :=
      (constructed_iff tgtSpeed refreshTime ticks).mp (always ticks forward).constructed
    rcases not_undisputed_constructed refreshTime with short | long
    · apply short
      simpa [intervals, idle] using agrees [idle 1] (by simp [idle])
    · apply long
      simpa [intervals, idle] using agrees [idle 49, idle 49] (by simp [idle])

/-- With a refresh time of 100 milliseconds, one tick after 150. -/
theorem sameRefresh_iff_late : SameRefresh (90 : ℚ) 100 50 [idle 150] :=
  ((sameRefresh_iff (90 : ℚ) 100 50).1 [idle 150]).mpr (by decide +kernel)

/-- With a refresh time of 20 milliseconds, one tick after 20: the constructed
controller still waits. With one of 100 and ticks after 10 each, both recompute
too early. -/
theorem not_sameRefresh_early :
    ((construct (90 : ℚ) 20).refreshes [idle 20] = [false] ∧ fires (20 : ℚ) 0 [20] = [true]) ∧
    (((construct (90 : ℚ) 50).setRefreshTime 100).refreshes [idle 10, idle 10] = [true, true] ∧
      (construct (90 : ℚ) 100).refreshes [idle 10, idle 10] = [true, false] ∧
      fires (100 : ℚ) 0 [10, 10] = [false, false]) ∧
    ¬SameRefresh (90 : ℚ) 100 50 [idle 10, idle 10] := by
  refine ⟨by decide +kernel, by decide +kernel, fun same => ?_⟩
  exact absurd same.given (by decide +kernel)

end FrcRobot.LinearSpeedTarget
