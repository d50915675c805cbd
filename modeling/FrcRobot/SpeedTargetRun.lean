import FrcRobot.Interleaving
import FrcRobot.LinearSpeedTarget
import Mathlib.Algebra.Order.Archimedean.Basic
import Mathlib.Algebra.Order.Floor.Ring

set_option autoImplicit false

/- The MotorControl around a LinearSpeedTarget, over runs of its operations. -/
namespace FrcRobot.SpeedTargetRun

open Interleaving RobotMath

variable {K : Type*}

/-- Times are in milliseconds. The last three are no part of the program: when the
encoder's last angle was read, whether a recomputation has read it, and the angle
that the last recomputation took for the current one. -/
structure Controller (K : Type*) where
  control : LinearSpeedTarget K
  lastRuntime : K
  /-- `_controlledMotor` is set. -/
  controlledMotor : Bool
  /-- `_speedSetScheduler` will expire once. -/
  timerArmed : Bool
  sampledAt : Option K
  sampledInTick : Bool
  lastUsed : Option K

/-- What execute reads, in this order: the clock for getLastRuntimeDist, the
motor's speed, the encoder's angle twice with the moments of these readings, and
the clock for `_lastRuntime`. -/
structure Readings (K : Type*) where
  distClock : K
  speed : K
  angle : K
  sampled : K
  angleAgain : K
  sampledAgain : K
  runtimeClock : K

inductive Action (K : Type*) where
  | setControlledMotor
  | clearControlRun (now angle : K)
  | setControlTarget (val now angle : K)
  | setRefreshTime (refreshTime : K)
  | start
  | cancel
  | tick (readings : Readings K)

variable [Field K]

/-- A controller as it is constructed, with the time that a default Timepoint stands for. -/
def construct (tgtSpeed refreshTime lastRuntime : K) : Controller K :=
  ⟨.construct tgtSpeed refreshTime, lastRuntime, false, false, none, false, none⟩

/-- The time accumulated is the one since the last sample, which is the one that the
last recomputation ended with. -/
structure Linked (controller : Controller K) : Prop where
  interval : ∀ moment, controller.sampledAt = some moment →
    moment + controller.control.dtAccum = controller.lastRuntime
  angle : ∀ used, controller.lastUsed = some used → controller.control.lastEncoderAngle = used

section Steps

variable [LinearOrder K] [FloorRing K]

/-- The total_milliseconds of the time since the last tick. -/
def lastRuntimeDist (controller : Controller K) (readings : Readings K) : ℤ :=
  trunc (readings.distClock - controller.lastRuntime)

def Recomputes (controller : Controller K) (readings : Readings K) : Prop :=
  controller.control.Recomputes (lastRuntimeDist controller readings)

instance (controller : Controller K) (readings : Readings K) :
    Decidable (Recomputes controller readings) :=
  inferInstanceAs (Decidable (LinearSpeedTarget.Recomputes _ _))

/-- The tick's step of the controller. It is never complete. -/
def speedControlStep (controller : Controller K) (readings : Readings K) :
    K × LinearSpeedTarget K :=
  controller.control.speedControlStep (lastRuntimeDist controller readings) readings.speed
    readings.angle readings.angleAgain

def execute (controller : Controller K) (readings : Readings K) : Controller K :=
  { controller with
    control := (speedControlStep controller readings).2
    lastRuntime := readings.runtimeClock
    timerArmed := true
    sampledAt := if Recomputes controller readings then some readings.sampledAgain
      else controller.sampledAt
    sampledInTick := decide (Recomputes controller readings) || controller.sampledInTick
    lastUsed := if Recomputes controller readings then some readings.angle
      else controller.lastUsed }

/-- Reading the encoder or the speed goes through `_controlledMotor`. -/
def step (controller : Controller K) : Action K → Option (Controller K)
  | .setControlledMotor => some { controller with controlledMotor := true }
  | .clearControlRun now angle =>
      if controller.controlledMotor then
        some { controller with
          control := controller.control.clearControlRunImpl angle
          sampledAt := some now
          sampledInTick := false }
      else none
  | .setControlTarget val now angle =>
      if controller.controlledMotor then
        some { controller with
          control := controller.control.setControlTargetImpl val angle
          sampledAt := some now
          sampledInTick := false }
      else none
  | .setRefreshTime refreshTime =>
      some { controller with control := controller.control.setRefreshTime refreshTime }
  | .start => some { controller with timerArmed := true }
  | .cancel => some { controller with timerArmed := false }
  | .tick readings =>
      if controller.controlledMotor && controller.timerArmed then
        some (execute controller readings)
      else none

/-- The time divided by is the one between the two samples, and the first of
them is the one the last recomputation ended with. -/
def Measures (controller : Controller K) : Action K → Prop
  | .tick readings => Recomputes controller readings →
      (∃ moment, controller.sampledAt = some moment ∧
        controller.control.accumulated (lastRuntimeDist controller readings) =
          readings.sampled - moment) ∧
      ∀ used, controller.lastUsed = some used → controller.control.lastEncoderAngle = used
  | _ => True

/-- The tick's first sample comes a whole number of milliseconds after the last run. -/
def Opens (controller : Controller K) (readings : Readings K) : Prop :=
  (lastRuntimeDist controller readings : K) = readings.sampled - controller.lastRuntime

/-- Nothing happens between the tick's two samples and its end. -/
structure Closes (readings : Readings K) : Prop where
  moment : readings.sampledAgain = readings.runtimeClock
  angle : readings.angleAgain = readings.angle

/-- A tick that comes a whole number of milliseconds after the last and reads
everything at once. -/
def Exact (controller : Controller K) (readings : Readings K) : Prop :=
  (Recomputes controller readings → Opens controller readings ∧ Closes readings) ∧
  (¬Recomputes controller readings →
    (lastRuntimeDist controller readings : K) = readings.runtimeClock - controller.lastRuntime)

/-- The encoder is not sampled outside a tick, and the ticks are exact. -/
def Undisturbed (controller : Controller K) : Action K → Prop
  | .clearControlRun _ _ | .setControlTarget _ _ _ => False
  | .tick readings => Exact controller readings
  | _ => True

/-- The clock goes forward, and the ticks are exact. -/
def Timed (controller : Controller K) : Action K → Prop
  | .clearControlRun now _ | .setControlTarget _ now _ => controller.lastRuntime < now
  | .tick readings =>
      controller.lastRuntime ≤ readings.distClock ∧ Exact controller readings
  | _ => True

theorem execute_waiting {controller : Controller K} {readings : Readings K}
    (waiting : ¬Recomputes controller readings) :
    execute controller readings =
      { controller with
        control := { controller.control with
          dtAccum := controller.control.accumulated (lastRuntimeDist controller readings) }
        lastRuntime := readings.runtimeClock
        timerArmed := true } := by
  simp only [execute, speedControlStep, LinearSpeedTarget.speedControlStep_waiting waiting, waiting,
    ↓reduceIte, decide_false, Bool.false_or]

theorem execute_recomputing {controller : Controller K} {readings : Readings K}
    (recomputes : Recomputes controller readings) :
    execute controller readings =
      { controller with
        control := { controller.control with
          dtAccum := 0, lastEncoderAngle := readings.angleAgain }
        lastRuntime := readings.runtimeClock
        timerArmed := true
        sampledAt := some readings.sampledAgain
        sampledInTick := true
        lastUsed := some readings.angle } := by
  simp only [execute, speedControlStep, LinearSpeedTarget.speedControlStep_recomputing recomputes,
    recomputes, ↓reduceIte, decide_true, Bool.true_or]

theorem step_tick {controller next : Controller K} {readings : Readings K}
    (taken : step controller (.tick readings) = some next) :
    controller.controlledMotor = true ∧ next = execute controller readings := by
  simp only [step] at taken
  obtain ⟨ready, ⟨⟩⟩ := Option.ite_none_right_eq_some.mp taken
  exact ⟨(Bool.and_eq_true_iff.mp ready).1, rfl⟩

/-- However the controller has got there, a recomputation that nothing comes
between leaves the interval in step. -/
theorem linked_recomputing {controller : Controller K} {readings : Readings K}
    (recomputes : Recomputes controller readings) (closes : Closes readings) :
    Linked (execute controller readings) := by
  rw [execute_recomputing recomputes]
  constructor
  · rintro _ ⟨⟩
    simpa using closes.moment
  · rintro _ ⟨⟩
    exact closes.angle

theorem execute_sampled {controller : Controller K} {readings : Readings K}
    (sampled : controller.sampledAt.isSome = true) :
    (execute controller readings).sampledAt.isSome = true := by
  simp only [execute]
  split
  · rfl
  · exact sampled

variable [IsStrictOrderedRing K]

theorem linked_waiting {controller : Controller K} {readings : Readings K}
    (linked : Linked controller) (waiting : ¬Recomputes controller readings)
    (exact : Exact controller readings) : Linked (execute controller readings) := by
  rw [execute_waiting waiting]
  refine ⟨?_, linked.angle⟩
  intro moment here
  have before := linked.interval moment here
  have passed := exact.2 waiting
  simp only [LinearSpeedTarget.accumulated]
  linarith

theorem linked_execute {controller : Controller K} {readings : Readings K}
    (linked : Linked controller) (exact : Exact controller readings) :
    Linked (execute controller readings) := by
  by_cases recomputes : Recomputes controller readings
  · exact linked_recomputing recomputes (exact.1 recomputes).2
  · exact linked_waiting linked recomputes exact

/-- The time accumulated up to a tick that opens in time is the one since the sample
just if the interval is in step. -/
theorem accumulated_eq_iff {controller : Controller K} {readings : Readings K} {moment : K}
    (opens : Opens controller readings) :
    controller.control.accumulated (lastRuntimeDist controller readings) =
        readings.sampled - moment ↔
      moment + controller.control.dtAccum = controller.lastRuntime := by
  unfold Opens at opens
  rw [LinearSpeedTarget.accumulated, opens]
  constructor <;> intro same <;> linarith

theorem measures_of_linked {controller : Controller K} {readings : Readings K}
    (linked : Linked controller) (sampled : controller.sampledAt.isSome = true)
    (opens : Opens controller readings) : Measures controller (.tick readings) := by
  intro _
  obtain ⟨moment, here⟩ := Option.isSome_iff_exists.mp sampled
  exact ⟨⟨moment, here, (accumulated_eq_iff opens).mpr (linked.interval moment here)⟩, linked.angle⟩

theorem Undisturbed.step {controller next : Controller K} {action : Action K}
    (undisturbed : Undisturbed controller action) (taken : step controller action = some next)
    (inv : Linked controller ∧ controller.sampledAt.isSome = true) :
    Linked next ∧ next.sampledAt.isSome = true := by
  obtain ⟨linked, sampled⟩ := inv
  cases action with
  | clearControlRun | setControlTarget => cases undisturbed
  | setControlledMotor | setRefreshTime | start | cancel =>
      cases taken
      exact ⟨⟨linked.interval, linked.angle⟩, sampled⟩
  | tick readings =>
      obtain ⟨_, rfl⟩ := step_tick taken
      exact ⟨linked_execute linked undisturbed, execute_sampled sampled⟩

/-- On a clock that goes forward: a sample outside a tick comes too late for the time
that has been accumulated by then. -/
structure Kept (controller : Controller K) : Prop where
  accumulated : 0 ≤ controller.control.dtAccum
  inTick : controller.sampledInTick = true →
    Linked controller ∧ controller.sampledAt.isSome = true
  outside : controller.sampledInTick = false → ∀ moment, controller.sampledAt = some moment →
    controller.lastRuntime < moment + controller.control.dtAccum

theorem lastRuntimeDist_nonneg {controller : Controller K} {readings : Readings K}
    (forward : controller.lastRuntime ≤ readings.distClock) :
    0 ≤ lastRuntimeDist controller readings := by
  have passed := sub_nonneg.mpr forward
  rw [lastRuntimeDist, trunc, if_pos passed]
  exact Int.floor_nonneg.mpr passed

theorem Kept.tick {controller : Controller K} {readings : Readings K} (kept : Kept controller)
    (forward : controller.lastRuntime ≤ readings.distClock) (exact : Exact controller readings) :
    Kept (execute controller readings) := by
  by_cases recomputes : Recomputes controller readings
  · have linked := linked_recomputing recomputes (exact.1 recomputes).2
    rw [execute_recomputing recomputes] at linked ⊢
    exact ⟨le_refl _, fun _ => ⟨linked, rfl⟩, nofun⟩
  · have passed : (0 : K) ≤ lastRuntimeDist controller readings :=
      Int.cast_nonneg (lastRuntimeDist_nonneg forward)
    have whole := exact.2 recomputes
    have linked := fun inside => linked_waiting (kept.inTick inside).1 recomputes exact
    rw [execute_waiting recomputes] at linked ⊢
    refine ⟨add_nonneg kept.accumulated passed,
      fun inside => ⟨linked inside, (kept.inTick inside).2⟩, ?_⟩
    intro outside moment sampled
    have late := kept.outside outside moment sampled
    simp only [LinearSpeedTarget.accumulated]
    linarith

theorem Kept.step {controller next : Controller K} {action : Action K} (kept : Kept controller)
    (timed : Timed controller action) (taken : step controller action = some next) : Kept next := by
  cases action with
  | clearControlRun now angle | setControlTarget val now angle =>
      obtain ⟨_, ⟨⟩⟩ := Option.ite_none_right_eq_some.mp taken
      refine ⟨kept.accumulated, nofun, ?_⟩
      rintro _ _ ⟨⟩
      exact lt_of_lt_of_le timed (le_add_of_nonneg_right kept.accumulated)
  | setControlledMotor | setRefreshTime | start | cancel =>
      cases taken
      exact ⟨kept.accumulated,
        fun inside => ⟨⟨(kept.inTick inside).1.interval, (kept.inTick inside).1.angle⟩,
          (kept.inTick inside).2⟩, kept.outside⟩
  | tick readings =>
      obtain ⟨_, rfl⟩ := step_tick taken
      exact kept.tick timed.1 timed.2

/-- Whatever has happened before, a recomputation measures over the time between its
two samples, and its differences telescope, if nobody has sampled the encoder since
the last recomputation and the ticks since are exact. On a clock that goes forward
no other recomputation does: not the first one, and none that comes next after a
start or a new target. -/
theorem measures_iff_undisturbed (tgtSpeed refreshTime lastRuntime : K) :
    (∀ (first : Controller K) opening middle between last readings,
      Recomputes first opening → Closes opening →
      step first (.tick opening) = some middle → Along step Undisturbed middle between →
      run step middle between = some last → Opens last readings →
      Measures last (.tick readings)) ∧
    (0 ≤ refreshTime → ∀ actions last readings,
      Along step Timed (construct tgtSpeed refreshTime lastRuntime) actions →
      run step (construct tgtSpeed refreshTime lastRuntime) actions = some last →
      Timed last (.tick readings) → Recomputes last readings →
      (Measures last (.tick readings) ↔ last.sampledInTick = true)) := by
  constructor
  · intro first opening middle between last readings recomputes closes taken undisturbed ran opens
    obtain ⟨_, rfl⟩ := step_tick taken
    have begun : Linked (execute first opening) ∧
        (execute first opening).sampledAt.isSome = true := by
      refine ⟨linked_recomputing recomputes closes, ?_⟩
      rw [execute_recomputing recomputes]
      rfl
    obtain ⟨linked, sampled⟩ := run_invariant_along
      (fun controller => Linked controller ∧ controller.sampledAt.isSome = true)
      (fun _ _ _ inv still first => still.step first inv) begun undisturbed ran
    exact measures_of_linked linked sampled opens
  · intro nonneg actions last readings timed ran tick recomputes
    have initially : Kept (construct tgtSpeed refreshTime lastRuntime) :=
      ⟨nonneg, nofun, fun _ _ => nofun⟩
    have kept : Kept last := run_invariant_along Kept
      (fun _ _ _ inv permitted first => inv.step permitted first) initially timed ran
    have opens := (tick.2.1 recomputes).1
    constructor
    · intro measures
      obtain ⟨⟨moment, sampled, passed⟩, _⟩ := measures recomputes
      by_contra outside
      have late := kept.outside (by simpa using outside) moment sampled
      exact absurd ((accumulated_eq_iff opens).mp passed) late.ne'
    · intro inside
      obtain ⟨linked, sampled⟩ := kept.inTick inside
      exact measures_of_linked linked sampled opens

/-- An exact tick late enough to recompute. -/
def lateReadings (controller : Controller K) : Readings K :=
  let late : K := controller.lastRuntime +
    (⌈controller.control.refreshTime - controller.control.dtAccum⌉ : ℤ)
  ⟨late, 0, 0, late, 0, late, late⟩

theorem lastRuntimeDist_late (controller : Controller K) :
    lastRuntimeDist controller (lateReadings controller) =
      ⌈controller.control.refreshTime - controller.control.dtAccum⌉ := by
  rw [lastRuntimeDist, lateReadings, add_sub_cancel_left, trunc_intCast]

theorem recomputes_late (controller : Controller K) :
    Recomputes controller (lateReadings controller) := by
  have late := Int.le_ceil (controller.control.refreshTime - controller.control.dtAccum)
  simp only [Recomputes, LinearSpeedTarget.Recomputes, LinearSpeedTarget.accumulated,
    lastRuntimeDist_late]
  linarith

end Steps

section Decidable

variable [LinearOrder K] [FloorRing K] (controller : Controller K)

instance (readings : Readings K) : Decidable (Opens controller readings) :=
  inferInstanceAs (Decidable (_ = _))

instance (readings : Readings K) : Decidable (Closes readings) :=
  decidable_of_iff (readings.sampledAgain = readings.runtimeClock ∧
      readings.angleAgain = readings.angle)
    ⟨fun ⟨moment, angle⟩ => ⟨moment, angle⟩, fun ⟨moment, angle⟩ => ⟨moment, angle⟩⟩

instance (readings : Readings K) : Decidable (Exact controller readings) :=
  inferInstanceAs (Decidable (_ ∧ _))

instance : (action : Action K) → Decidable (Undisturbed controller action)
  | .clearControlRun _ _ | .setControlTarget _ _ _ => .isFalse id
  | .tick _ => inferInstanceAs (Decidable (Exact _ _))
  | .setControlledMotor | .setRefreshTime _ | .start | .cancel => .isTrue trivial

instance : (action : Action K) → Decidable (Timed controller action)
  | .clearControlRun _ _ | .setControlTarget _ _ _ => inferInstanceAs (Decidable (_ < _))
  | .tick _ => inferInstanceAs (Decidable (_ ∧ _))
  | .setControlledMotor | .setRefreshTime _ | .start | .cancel => .isTrue trivial

instance : (action : Action K) → Decidable (Measures controller action)
  | .tick readings => inferInstanceAs (Decidable (Recomputes controller readings →
      (∃ moment ∈ controller.sampledAt,
        controller.control.accumulated (lastRuntimeDist controller readings) =
          readings.sampled - moment) ∧
      ∀ used ∈ controller.lastUsed, controller.control.lastEncoderAngle = used))
  | .setControlledMotor | .setRefreshTime _ | .start | .cancel | .clearControlRun _ _
  | .setControlTarget _ _ _ => .isTrue trivial

end Decidable

/-- All that a tick reads, it reads at once. -/
def atOnce (now angle : ℚ) : Readings ℚ := ⟨now, 1 / 2, angle, now, angle, now, now⟩

/-- A controller that has been started at 1000 milliseconds. -/
def started : List (Action ℚ) :=
  [.setControlledMotor, .clearControlRun 1000 0, .setControlTarget 90 1000 0, .start]

def startedController : Controller ℚ := ⟨⟨90, 1 / 20, 50, 0⟩, 0, true, true, some 1000, false, none⟩

/-- A first recomputation, a tick that waits, and a second recomputation. -/
theorem measures_iff_undisturbed_started :
    run step (construct 90 (1 / 20) 0) started = some startedController ∧
    (∃ middle last, step startedController (.tick (atOnce 1100 9)) = some middle ∧
      run step middle [.tick (atOnce 1140 12)] = some last ∧
      Recomputes last (atOnce 1200 18) ∧ Measures last (.tick (atOnce 1200 18))) ∧
    (Measures startedController (.tick (atOnce 1100 9)) ↔
      startedController.sampledInTick = true) := by
  refine ⟨rfl, ⟨_, _, rfl, rfl, by decide +kernel, ?_⟩, ?_⟩
  · exact (measures_iff_undisturbed 90 (1 / 20) 0).1 startedController (atOnce 1100 9) _
      [.tick (atOnce 1140 12)] _ _ (by decide +kernel) (by decide +kernel) rfl
      (by decide +kernel) rfl (by decide +kernel)
  · exact (measures_iff_undisturbed (90 : ℚ) (1 / 20) 0).2 (by decide +kernel) started _ _
      (by decide +kernel) rfl (by decide +kernel) (by decide +kernel)

/-- A start a second after the last run, and the first tick of the new one, which
divides by the second and more instead of its 100 milliseconds. -/
theorem not_measures_restarted :
    ¬Along step Measures (construct (90 : ℚ) (1 / 20) 0)
      [.setControlledMotor, .clearControlRun 1000 0, .setControlTarget 90 1000 0, .start,
        .tick (atOnce 1100 9)] := by
  decide +kernel

end FrcRobot.SpeedTargetRun
