import FrcRobot.SpeedTargetRun

set_option autoImplicit false

/- The requests of a MotorLink to its LinearSpeedTarget, with ticks anywhere
between the calls that a start request makes. -/
namespace FrcRobot.SpeedTargetDivisors

open Interleaving RobotMath SpeedTargetRun

variable {K : Type*}

/-- The next call of startSpeedControlImpl. -/
inductive Stage (K : Type*) where
  | clearControlRun (target : K)
  | setControlTarget (target : K)
  | setControlledMotor
  | start
  | enable

/-- `cleared` is no part of the program: a start request has cleared the target,
and none has been set since. -/
structure Parties (K : Type*) where
  controller : Controller K
  spdControlEnabled : Bool
  starting : Option (Stage K)
  cleared : Bool

inductive Request (K : Type*) where
  | setControlledMotor
  | setRefreshTime (refreshTime : K)
  | startSpeedControl (target : K)
  | advance (now angle : K)
  | stopSpeedControl
  | setControlTarget (target now angle : K)
  | tick (readings : Readings K)

def initial [Field K] (tgtSpeed refreshTime lastRuntime : K) : Parties K :=
  ⟨SpeedTargetRun.construct tgtSpeed refreshTime lastRuntime, false, none, false⟩

section Steps

variable [Field K] [LinearOrder K] [FloorRing K]

/-- An operation of the controller, whoever calls it. -/
def Parties.operate (parties : Parties K) (action : Action K) : Option (Parties K) :=
  (SpeedTargetRun.step parties.controller action).map fun controller =>
    { parties with controller := controller }

/-- One call of the start request that is under way, with the moment and the
angle that a sample reads. -/
def Parties.advance (parties : Parties K) (now angle : K) : Option (Parties K) :=
  match parties.starting with
  | none => none
  | some (.clearControlRun target) =>
      (parties.operate (.clearControlRun now angle)).map fun next =>
        { next with starting := some (.setControlTarget target), cleared := true }
  | some (.setControlTarget target) =>
      (parties.operate (.setControlTarget target now angle)).map fun next =>
        { next with starting := some .setControlledMotor, cleared := false }
  | some .setControlledMotor =>
      (parties.operate .setControlledMotor).map fun next => { next with starting := some .start }
  | some .start =>
      (parties.operate .start).map fun next => { next with starting := some .enable }
  | some .enable => some { parties with spdControlEnabled := true, starting := none }

/-- The link takes one start or stop request at a time; targets come from other
threads, and only an enabled controller gets them. -/
def step (parties : Parties K) : Request K → Option (Parties K)
  | .setControlledMotor => parties.operate .setControlledMotor
  | .setRefreshTime refreshTime => parties.operate (.setRefreshTime refreshTime)
  | .startSpeedControl target =>
      if parties.starting.isNone then
        some { parties with starting := some (.clearControlRun target) }
      else none
  | .advance now angle => parties.advance now angle
  | .stopSpeedControl =>
      if parties.starting.isNone then
        (parties.operate .cancel).map fun next => { next with spdControlEnabled := false }
      else none
  | .setControlTarget target now angle =>
      if parties.spdControlEnabled then
        (parties.operate (.setControlTarget target now angle)).map fun next =>
          { next with cleared := false }
      else some parties
  | .tick readings => parties.operate (.tick readings)

/-- The quotient of a step that recomputes has a divisor that is 0. -/
def ZeroDivisor (controller : Controller K) (readings : Readings K) : Prop :=
  Recomputes controller readings ∧ (controller.control.tgtSpeed = 0 ∨
    controller.control.accumulated (lastRuntimeDist controller readings) = 0)

/-- A tick of the armed timer divides by nothing that is 0, and sends a valid power. -/
def Defined (parties : Parties K) : Request K → Prop
  | .tick readings => parties.controller.timerArmed = true →
      ¬ZeroDivisor parties.controller readings ∧
        isValidPower (speedControlStep parties.controller readings).1
  | _ => True

/-- The target of this stage is still to be set. -/
def Stage.Sets : Stage K → K → Prop
  | .clearControlRun target, other | .setControlTarget target, other => target = other
  | _, _ => False

/-- The start request under way, if any, is not going to set the target 0. -/
def Targeted (parties : Parties K) : Prop :=
  ∀ stage ∈ parties.starting, ¬Stage.Sets stage 0

/-- From the moment at which the controller is given a motor: targets other than 0,
positive refresh times, and no recomputation while a start request has only cleared
the target. Before it no request gets as far as to arm the timer. -/
def Careful (parties : Parties K) : Request K → Prop
  | .setControlledMotor => 0 < parties.controller.control.refreshTime ∧ Targeted parties
  | .startSpeedControl target => parties.controller.controlledMotor = true → target ≠ 0
  | .setControlTarget target _ _ => parties.spdControlEnabled = true → target ≠ 0
  | .setRefreshTime refreshTime => parties.controller.controlledMotor = true → 0 < refreshTime
  | .tick readings => parties.cleared = true → ¬Recomputes parties.controller readings
  | _ => True

/-- The speed a motor reports is a power it can have. -/
def SpeedValid : Request K → Prop
  | .tick readings => isValidPower readings.speed
  | _ => True

/-- The timer is armed, or will be without another target being set. -/
def Ahead (parties : Parties K) : Prop :=
  parties.controller.timerArmed = true ∨ parties.starting = some .setControlledMotor ∨
    parties.starting = some .start ∨ parties.starting = some .enable

structure Inv (parties : Parties K) : Prop where
  refresh : parties.controller.controlledMotor = true →
    0 < parties.controller.control.refreshTime
  pending : parties.controller.controlledMotor = true → Targeted parties
  cleared : parties.cleared = true → parties.controller.control.tgtSpeed = 0
  target : parties.cleared = false → Ahead parties → parties.controller.control.tgtSpeed ≠ 0
  armed : parties.starting = some .enable ∨ parties.spdControlEnabled = true →
    parties.controller.timerArmed = true
  motor : parties.starting = some .setControlledMotor ∨ parties.starting = some .start ∨
      parties.controller.timerArmed = true →
    parties.controller.controlledMotor = true

theorem operate_inv {parties next : Parties K} {action : Action K}
    (taken : parties.operate action = some next) :
    ∃ controller, SpeedTargetRun.step parties.controller action = some controller ∧
      next = { parties with controller := controller } := by
  obtain ⟨controller, first, rfl⟩ := Option.map_eq_some_iff.mp taken
  exact ⟨controller, first, rfl⟩

theorem operate_clear {parties next : Parties K} {now angle : K}
    (taken : parties.operate (.clearControlRun now angle) = some next) :
    parties.controller.controlledMotor = true ∧
      next = { parties with controller := { parties.controller with
        control := parties.controller.control.clearControlRunImpl angle
        sampledAt := some now
        sampledInTick := false } } := by
  obtain ⟨controller, first, rfl⟩ := operate_inv taken
  obtain ⟨set, ⟨⟩⟩ := Option.ite_none_right_eq_some.mp first
  exact ⟨set, rfl⟩

theorem operate_set {parties next : Parties K} {target now angle : K}
    (taken : parties.operate (.setControlTarget target now angle) = some next) :
    parties.controller.controlledMotor = true ∧
      next = { parties with controller := { parties.controller with
        control := parties.controller.control.setControlTargetImpl target angle
        sampledAt := some now
        sampledInTick := false } } := by
  obtain ⟨controller, first, rfl⟩ := operate_inv taken
  obtain ⟨set, ⟨⟩⟩ := Option.ite_none_right_eq_some.mp first
  exact ⟨set, rfl⟩

theorem operate_tick {parties next : Parties K} {readings : Readings K}
    (taken : parties.operate (.tick readings) = some next) :
    parties.controller.controlledMotor = true ∧ parties.controller.timerArmed = true ∧
      next = { parties with controller := execute parties.controller readings } := by
  obtain ⟨controller, first, rfl⟩ := operate_inv taken
  obtain ⟨ready, ⟨⟩⟩ := Option.ite_none_right_eq_some.mp first
  obtain ⟨set, armed⟩ := Bool.and_eq_true_iff.mp ready
  exact ⟨set, armed, rfl⟩

/-- A tick leaves the target and the refresh time alone. -/
theorem execute_control (controller : Controller K) (readings : Readings K) :
    (execute controller readings).control.tgtSpeed = controller.control.tgtSpeed ∧
      (execute controller readings).control.refreshTime = controller.control.refreshTime := by
  by_cases recomputes : Recomputes controller readings
  · rw [execute_recomputing recomputes]
    exact ⟨rfl, rfl⟩
  · rw [execute_waiting recomputes]
    exact ⟨rfl, rfl⟩

/-- What each call of a start request does. -/
theorem advance_cases {parties next : Parties K} {now angle : K}
    (taken : parties.advance now angle = some next) :
    (∃ target cleared, parties.starting = some (.clearControlRun target) ∧
      parties.operate (.clearControlRun now angle) = some cleared ∧
      next = { cleared with starting := some (.setControlTarget target), cleared := true }) ∨
    (∃ target set, parties.starting = some (.setControlTarget target) ∧
      parties.operate (.setControlTarget target now angle) = some set ∧
      next = { set with starting := some .setControlledMotor, cleared := false }) ∨
    (parties.starting = some .setControlledMotor ∧
      next = { parties with
        controller := { parties.controller with controlledMotor := true }
        starting := some .start }) ∨
    (parties.starting = some .start ∧
      next = { parties with
        controller := { parties.controller with timerArmed := true }
        starting := some .enable }) ∨
    (parties.starting = some .enable ∧
      next = { parties with spdControlEnabled := true, starting := none }) := by
  unfold Parties.advance at taken
  split at taken
  · cases taken
  · rename_i target stage
    obtain ⟨cleared, first, rfl⟩ := Option.map_eq_some_iff.mp taken
    exact .inl ⟨target, cleared, stage, first, rfl⟩
  · rename_i target stage
    obtain ⟨set, first, rfl⟩ := Option.map_eq_some_iff.mp taken
    exact .inr (.inl ⟨target, set, stage, first, rfl⟩)
  · rename_i stage
    cases taken
    exact .inr (.inr (.inl ⟨stage, rfl⟩))
  · rename_i stage
    cases taken
    exact .inr (.inr (.inr (.inl ⟨stage, rfl⟩)))
  · rename_i stage
    cases taken
    exact .inr (.inr (.inr (.inr ⟨stage, rfl⟩)))

theorem Inv.advance {parties next : Parties K} {now angle : K} (inv : Inv parties)
    (taken : parties.advance now angle = some next) : Inv next := by
  rcases advance_cases taken with ⟨target, cleared, stage, first, rfl⟩ |
    ⟨target, set, stage, first, rfl⟩ | ⟨stage, rfl⟩ | ⟨stage, rfl⟩ | ⟨stage, rfl⟩
  · obtain ⟨motor, rfl⟩ := operate_clear first
    refine ⟨inv.refresh, ?_, fun _ => rfl, nofun, ?_, fun _ => motor⟩
    · rintro _ _ ⟨⟩ zero
      exact inv.pending motor _ stage zero
    · exact fun on => inv.armed (.inr (on.resolve_left nofun))
  · obtain ⟨motor, rfl⟩ := operate_set first
    have wanted : target ≠ 0 := inv.pending motor _ stage
    refine ⟨inv.refresh, ?_, nofun, fun _ _ => wanted, ?_, fun _ => motor⟩
    · rintro _ _ ⟨⟩ ⟨⟩
    · exact fun on => inv.armed (.inr (on.resolve_left nofun))
  · have motor := inv.motor (.inl stage)
    refine ⟨fun _ => inv.refresh motor, ?_, inv.cleared,
      fun set _ => inv.target set (.inr (.inl stage)), ?_, fun _ => rfl⟩
    · rintro _ _ ⟨⟩ ⟨⟩
    · exact fun on => inv.armed (.inr (on.resolve_left nofun))
  · have motor := inv.motor (.inr (.inl stage))
    refine ⟨inv.refresh, ?_, inv.cleared, fun set _ => inv.target set (.inr (.inr (.inl stage))),
      fun _ => rfl, fun _ => motor⟩
    rintro _ _ ⟨⟩ ⟨⟩
  · have armed := inv.armed (.inl stage)
    exact ⟨inv.refresh, fun _ => nofun, inv.cleared,
      fun set _ => inv.target set (.inr (.inr (.inr stage))), fun _ => armed,
      fun _ => inv.motor (.inr (.inr armed))⟩

theorem step_stop {parties next : Parties K}
    (taken : step parties .stopSpeedControl = some next) :
    parties.starting = none ∧
      next = { parties with
        controller := { parties.controller with timerArmed := false }
        spdControlEnabled := false } := by
  obtain ⟨idle, stopped⟩ := Option.ite_none_right_eq_some.mp taken
  exact ⟨Option.isNone_iff_eq_none.mp idle, (Option.some.inj stopped).symm⟩

theorem step_tick_eq {parties : Parties K} (motor : parties.controller.controlledMotor = true)
    (armed : parties.controller.timerArmed = true) (readings : Readings K) :
    step parties (.tick readings) =
      some { parties with controller := execute parties.controller readings } := by
  simp [step, Parties.operate, SpeedTargetRun.step, motor, armed]

variable [IsStrictOrderedRing K]

theorem Inv.step {parties next : Parties K} {request : Request K} (inv : Inv parties)
    (careful : Careful parties request) (taken : step parties request = some next) : Inv next := by
  cases request with
  | setControlledMotor =>
      cases taken
      exact ⟨fun _ => careful.1, fun _ => careful.2, inv.cleared, inv.target, inv.armed,
        fun _ => rfl⟩
  | setRefreshTime refreshTime =>
      cases taken
      refine ⟨fun motor => ?_, inv.pending, inv.cleared, inv.target, inv.armed, inv.motor⟩
      exact div_pos (careful motor) (by norm_num)
  | startSpeedControl target =>
      obtain ⟨idle, ⟨⟩⟩ := Option.ite_none_right_eq_some.mp taken
      refine ⟨inv.refresh, ?_, inv.cleared, ?_, ?_, ?_⟩
      · rintro motor _ ⟨⟩ zero
        exact careful motor zero
      · exact fun set ahead => inv.target set (.inl (ahead.resolve_right nofun))
      · exact fun on => inv.armed (.inr (on.resolve_left nofun))
      · exact fun on => inv.motor (.inr (.inr ((on.resolve_left nofun).resolve_left nofun)))
  | advance now angle => exact inv.advance taken
  | stopSpeedControl =>
      obtain ⟨idle, rfl⟩ := step_stop taken
      have busy : ∀ stage, parties.starting ≠ some stage := by
        intro stage begun
        rw [idle] at begun
        cases begun
      refine ⟨inv.refresh, inv.pending, inv.cleared, ?_, ?_, ?_⟩
      · intro _ ahead
        rcases ahead.resolve_left nofun with begun | begun | begun <;> exact absurd begun (busy _)
      · exact fun on => absurd (on.resolve_right nofun) (busy _)
      · rintro (begun | begun | begun)
        · exact absurd begun (busy _)
        · exact absurd begun (busy _)
        · cases begun
  | setControlTarget target now angle =>
      simp only [SpeedTargetDivisors.step] at taken
      split at taken
      · rename_i enabled
        obtain ⟨_, first, rfl⟩ := Option.map_eq_some_iff.mp taken
        obtain ⟨_, rfl⟩ := operate_set first
        exact ⟨inv.refresh, inv.pending, nofun, fun _ _ => careful enabled, inv.armed, inv.motor⟩
      · cases taken
        exact inv
  | tick readings =>
      obtain ⟨motor, armed, rfl⟩ := operate_tick taken
      obtain ⟨target, refresh⟩ := execute_control parties.controller readings
      refine ⟨?_, inv.pending, ?_, ?_, fun _ => rfl, fun _ => motor⟩
      · exact fun on => refresh ▸ inv.refresh on
      · exact fun cleared => target.trans (inv.cleared cleared)
      · exact fun set _ => target ▸ inv.target set (.inl armed)

theorem defined_of_careful {parties : Parties K} {request : Request K} (inv : Inv parties)
    (careful : Careful parties request) (valid : SpeedValid request) :
    Defined parties request := by
  cases request with
  | tick readings =>
      intro armed
      by_cases recomputes : Recomputes parties.controller readings
      · have set : parties.cleared = false := by
          by_contra cleared
          exact careful (by simpa using cleared) recomputes
        have waited := not_lt.mp recomputes
        refine ⟨?_, ?_⟩
        · rintro ⟨_, noTarget | noTime⟩
          · exact inv.target set (.inl armed) noTarget
          · rw [noTime] at waited
            exact absurd (inv.refresh (inv.motor (.inr (.inr armed)))) waited.not_gt
        · rw [speedControlStep, LinearSpeedTarget.speedControlStep_recomputing recomputes]
          exact makeValidPower_valid _
      · refine ⟨fun divides => recomputes divides.1, ?_⟩
        rw [speedControlStep, LinearSpeedTarget.speedControlStep_waiting recomputes]
        exact valid
  | _ => trivial

/-- A tick is due that divides by 0. -/
def DividesByZero (parties : Parties K) : Prop :=
  ∃ readings, (step parties (.tick readings)).isSome = true ∧
    ZeroDivisor parties.controller readings

theorem dividesByZero_of_target {parties : Parties K}
    (motor : parties.controller.controlledMotor = true)
    (armed : parties.controller.timerArmed = true)
    (noTarget : parties.controller.control.tgtSpeed = 0) : DividesByZero parties := by
  refine ⟨lateReadings parties.controller, ?_, recomputes_late _, .inl noTarget⟩
  rw [step_tick_eq motor armed]
  rfl

/-- Without a positive refresh time a tick that follows another at once divides
by the time between them. -/
theorem dividesByZero_of_refresh {parties : Parties K}
    (motor : parties.controller.controlledMotor = true)
    (armed : parties.controller.timerArmed = true)
    (never : parties.controller.control.refreshTime ≤ 0) :
    CanReach step (fun _ _ => True) DividesByZero parties := by
  refine CanReach.cons trivial (step_tick_eq motor armed (lateReadings parties.controller))
    (.here ?_)
  rw [execute_recomputing (recomputes_late _)]
  let late := (lateReadings parties.controller).runtimeClock
  have still : trunc (late - late) = 0 := by
    rw [sub_self]
    exact_mod_cast trunc_intCast (K := K) 0
  refine ⟨⟨late, 0, 0, late, 0, late, late⟩, ?_, ?_, .inr ?_⟩
  · simp [step, Parties.operate, SpeedTargetRun.step, motor]
  · simp only [Recomputes, LinearSpeedTarget.Recomputes, LinearSpeedTarget.accumulated,
      lastRuntimeDist, late, still]
    simpa using never
  · simp only [LinearSpeedTarget.accumulated, lastRuntimeDist, late, still]
    simp

/-- A start request for the target 0, finished but for its last call. -/
theorem reach_of_zero {parties : Parties K} (zero : ¬Targeted parties) :
    CanReach step (fun _ _ => True) DividesByZero parties := by
  obtain ⟨controller, enabled, starting, cleared⟩ := parties
  simp only [Targeted, not_forall, not_not] at zero
  obtain ⟨stage, pending, sets⟩ := zero
  cases pending
  cases stage with
  | clearControlRun target =>
      cases sets
      have ran : run step ⟨controller, enabled, some (.clearControlRun 0), cleared⟩
          [.setControlledMotor, .advance 0 0, .advance 0 0, .advance 0 0, .advance 0 0] =
            some _ := rfl
      exact CanReach.append (fun _ _ _ => trivial) ran (.here (dividesByZero_of_target rfl rfl rfl))
  | setControlTarget target =>
      cases sets
      have ran : run step ⟨controller, enabled, some (.setControlTarget 0), cleared⟩
          [.setControlledMotor, .advance 0 0, .advance 0 0, .advance 0 0] = some _ := rfl
      exact CanReach.append (fun _ _ _ => trivial) ran (.here (dividesByZero_of_target rfl rfl rfl))
  | setControlledMotor | start | enable => cases sets

/-- Whatever start request is under way, the timer can be armed. -/
theorem reach_of_refresh {parties : Parties K}
    (never : parties.controller.control.refreshTime ≤ 0) :
    CanReach step (fun _ _ => True) DividesByZero parties := by
  obtain ⟨controller, enabled, starting, cleared⟩ := parties
  have finish : ∀ {before after : Parties K} {requests}, run step before requests = some after →
      after.controller.controlledMotor = true → after.controller.timerArmed = true →
      after.controller.control.refreshTime ≤ 0 →
      CanReach step (fun _ _ => True) DividesByZero before :=
    fun ran motor armed late =>
      CanReach.append (fun _ _ _ => trivial) ran (dividesByZero_of_refresh motor armed late)
  match starting with
  | none =>
      have ran : run step ⟨controller, enabled, none, cleared⟩
          [.setControlledMotor, .startSpeedControl 1, .advance 0 0, .advance 0 0, .advance 0 0,
            .advance 0 0] = some _ := rfl
      exact finish ran rfl rfl never
  | some (.clearControlRun target) =>
      have ran : run step ⟨controller, enabled, some (.clearControlRun target), cleared⟩
          [.setControlledMotor, .advance 0 0, .advance 0 0, .advance 0 0, .advance 0 0] =
            some _ := rfl
      exact finish ran rfl rfl never
  | some (.setControlTarget target) =>
      have ran : run step ⟨controller, enabled, some (.setControlTarget target), cleared⟩
          [.setControlledMotor, .advance 0 0, .advance 0 0, .advance 0 0] = some _ := rfl
      exact finish ran rfl rfl never
  | some .setControlledMotor =>
      have ran : run step ⟨controller, enabled, some .setControlledMotor, cleared⟩
          [.advance 0 0, .advance 0 0] = some _ := rfl
      exact finish ran rfl rfl never
  | some .start =>
      have ran : run step ⟨controller, enabled, some .start, cleared⟩
          [.setControlledMotor, .advance 0 0] = some _ := rfl
      exact finish ran rfl rfl never
  | some .enable =>
      have ran : run step ⟨controller, enabled, some .enable, cleared⟩
          [.setControlledMotor, .advance 0 0, .startSpeedControl 1, .advance 0 0, .advance 0 0,
            .advance 0 0, .advance 0 0] = some _ := rfl
      exact finish ran rfl rfl never

theorem inv_initial (tgtSpeed refreshTime lastRuntime : K) :
    Inv (initial tgtSpeed refreshTime lastRuntime) := by
  refine ⟨fun _ => ?_, fun _ => nofun, nofun, nofun, nofun, nofun⟩
  exact (by norm_num : (0 : K) < 50)

/-- A step that is not careful divides by 0, or lets a later tick do so. -/
theorem reach_of_careless {parties next : Parties K} {request : Request K} (inv : Inv parties)
    (careless : ¬Careful parties request) (taken : step parties request = some next) :
    DividesByZero parties ∨ CanReach step (fun _ _ => True) DividesByZero next := by
  cases request with
  | setControlledMotor =>
      cases taken
      rcases not_and_or.mp careless with never | zero
      · exact .inr (reach_of_refresh (not_lt.mp never))
      · exact .inr (reach_of_zero zero)
  | startSpeedControl target =>
      obtain ⟨_, zero⟩ := Classical.not_imp.mp careless
      obtain rfl : target = 0 := not_not.mp zero
      obtain ⟨_, ⟨⟩⟩ := Option.ite_none_right_eq_some.mp taken
      exact .inr (reach_of_zero fun targeted => targeted _ rfl rfl)
  | setControlTarget target now angle =>
      obtain ⟨enabled, zero⟩ := Classical.not_imp.mp careless
      obtain rfl : target = 0 := not_not.mp zero
      have armed := inv.armed (.inr enabled)
      simp only [SpeedTargetDivisors.step, enabled, ↓reduceIte] at taken
      obtain ⟨_, first, rfl⟩ := Option.map_eq_some_iff.mp taken
      obtain ⟨motor, rfl⟩ := operate_set first
      exact .inr (.here (dividesByZero_of_target motor armed rfl))
  | setRefreshTime refreshTime =>
      cases taken
      obtain ⟨_, never⟩ := Classical.not_imp.mp careless
      refine .inr (reach_of_refresh ?_)
      exact div_nonpos_of_nonpos_of_nonneg (not_lt.mp never) (by norm_num)
  | tick readings =>
      obtain ⟨cleared, recomputes⟩ := Classical.not_imp.mp careless
      exact .inl ⟨readings, by rw [taken]; rfl, not_not.mp recomputes, .inl (inv.cleared cleared)⟩
  | advance | stopSpeedControl => exact absurd trivial careless

/-- Over every run of careful steps no tick divides by 0 and every tick sends a
valid power, and after any other step a tick can divide by 0. All steps are careful
as long as nobody has called setControlledMotor: the first call of a start request
then follows a null pointer, and no timer is ever armed. -/
theorem defined_iff_careful (tgtSpeed refreshTime lastRuntime : K) :
    (∀ requests, Along step Careful (initial tgtSpeed refreshTime lastRuntime) requests →
      Along step (fun _ => SpeedValid) (initial tgtSpeed refreshTime lastRuntime) requests →
      Along step Defined (initial tgtSpeed refreshTime lastRuntime) requests) ∧
    ∀ requests last request next,
      Along step Careful (initial tgtSpeed refreshTime lastRuntime) requests →
      run step (initial tgtSpeed refreshTime lastRuntime) requests = some last →
      step last request = some next → ¬Careful last request →
      DividesByZero last ∨ CanReach step (fun _ _ => True) DividesByZero next := by
  have initially := inv_initial tgtSpeed refreshTime lastRuntime
  constructor
  · intro requests careful valid
    refine Along.of_invariant Inv ?_ ?_ initially (careful.and valid)
    · exact fun _ _ _ inv permitted taken => inv.step permitted.1 taken
    · exact fun _ _ inv permitted => defined_of_careful inv permitted.1 permitted.2
  · intro requests last request next careful ran taken careless
    have inv : Inv last := run_invariant_along Inv
      (fun _ _ _ inv permitted first => inv.step permitted first) initially careful ran
    exact reach_of_careless inv careless taken

end Steps

section Decidable

variable [Field K] [LinearOrder K] [FloorRing K]

instance (controller : Controller K) (readings : Readings K) :
    Decidable (ZeroDivisor controller readings) :=
  inferInstanceAs (Decidable (_ ∧ (_ ∨ _)))

instance (stage : Stage K) (target : K) : Decidable (Stage.Sets stage target) := by
  unfold Stage.Sets
  split <;> infer_instance

instance (parties : Parties K) : Decidable (Targeted parties) :=
  inferInstanceAs (Decidable (∀ stage ∈ parties.starting, ¬Stage.Sets stage 0))

instance (parties : Parties K) : (request : Request K) → Decidable (Careful parties request)
  | .setControlledMotor => inferInstanceAs (Decidable (_ ∧ _))
  | .startSpeedControl _ => inferInstanceAs (Decidable (_ = _ → _ ≠ _))
  | .setControlTarget _ _ _ => inferInstanceAs (Decidable (_ = _ → _ ≠ _))
  | .setRefreshTime _ => inferInstanceAs (Decidable (_ = _ → _ < _))
  | .tick _ => inferInstanceAs (Decidable (_ = _ → ¬_))
  | .advance _ _ | .stopSpeedControl => .isTrue trivial

instance : (request : Request K) → Decidable (SpeedValid request)
  | .tick readings => inferInstanceAs (Decidable (isValidPower readings.speed))
  | .setControlledMotor | .advance _ _ | .stopSpeedControl | .startSpeedControl _
  | .setControlTarget _ _ _ | .setRefreshTime _ => .isTrue trivial

instance (parties : Parties K) : (request : Request K) → Decidable (Defined parties request)
  | .tick _ => inferInstanceAs (Decidable (_ = _ → ¬_ ∧ isValidPower _))
  | .setControlledMotor | .advance _ _ | .stopSpeedControl | .startSpeedControl _
  | .setControlTarget _ _ _ | .setRefreshTime _ => .isTrue trivial

end Decidable

/-- A controller that is given its motor, then a start request with all its calls,
and a tick after it. -/
def startAndTick (target : ℚ) : List (Request ℚ) :=
  [.setControlledMotor, .startSpeedControl target, .advance 0 0, .advance 0 0, .advance 0 0,
    .advance 0 0, .advance 0 0, .tick ⟨100, 1 / 2, 9, 100, 9, 100, 100⟩]

/-- A second start request, and a tick after its first call. -/
def restartAndTick : List (Request ℚ) :=
  startAndTick 90 ++
    [.startSpeedControl 90, .advance 100 9, .tick ⟨200, 1 / 2, 18, 200, 18, 200, 200⟩]

theorem defined_iff_careful_started :
    Along step Defined (initial (90 : ℚ) (1 / 20) 0) (startAndTick 90) ∧
      ∃ last next, run step (initial (90 : ℚ) (1 / 20) 0) [.setControlledMotor] = some last ∧
        step last (.startSpeedControl 0) = some next ∧
        (DividesByZero last ∨ CanReach step (fun _ _ => True) DividesByZero next) :=
  ⟨(defined_iff_careful (90 : ℚ) (1 / 20) 0).1 (startAndTick 90) (by decide +kernel)
      (by decide +kernel),
    _, _, rfl, rfl, (defined_iff_careful (90 : ℚ) (1 / 20) 0).2 [.setControlledMotor] _
      (.startSpeedControl 0) _ (by decide +kernel) rfl rfl (by decide +kernel)⟩

/-- The tick finds the target cleared. -/
theorem not_defined_restarted :
    ¬Along step Defined (initial (90 : ℚ) (1 / 20) 0) restartAndTick := by
  decide +kernel

end FrcRobot.SpeedTargetDivisors
