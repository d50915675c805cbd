import FrcRobot.Interleaving
import FrcRobot.MotorLink
import FrcRobot.SwerveOptimize

set_option autoImplicit false

/- The swerve drive's requests, carried out by the links of its six motors. -/
namespace FrcRobot.SwerveDrive

open Interleaving MotorLink RobotMath

variable {K : Type*}

/-- The motor that turns a module. -/
def rotMotor : SwerveModule → Motor
  | .L => .rotFL
  | .R => .rotFR
  | .B => .rotBk

def SwerveRequest.motor : SwerveRequest K → Motor
  | .setControlTarget motor _ | .setSpeed motor _ => motor

def SwerveRequest.call : SwerveRequest K → Call K
  | .setControlTarget _ target => .setControlTarget target
  | .setSpeed _ pow => .setSpeed pow

/-- A request is a call to the link of its motor. -/
def perform (links : Motor → Processor K) (request : SwerveRequest K) :
    Option (Motor → Processor K) :=
  (issue (links (SwerveRequest.motor request)) (SwerveRequest.call request)).map
    (Function.update links (SwerveRequest.motor request))

theorem perform_other {links next : Motor → Processor K} {request : SwerveRequest K} {motor : Motor}
    (taken : perform links request = some next) (other : motor ≠ SwerveRequest.motor request) :
    next motor = links motor := by
  obtain ⟨processor, _, rfl⟩ := Option.map_eq_some_iff.mp taken
  exact Function.update_of_ne other processor links

theorem run_perform_other {links last : Motor → Processor K} {requests : List (SwerveRequest K)}
    {motor : Motor} (others : ∀ request ∈ requests, motor ≠ SwerveRequest.motor request)
    (taken : run perform links requests = some last) : last motor = links motor := by
  induction requests generalizing links with
  | nil => rw [Option.some.inj taken]
  | cons request rest ih =>
      obtain ⟨next, first, later⟩ := Option.bind_eq_some_iff.mp taken
      rw [ih (fun other member => others other (List.mem_cons_of_mem _ member)) later]
      exact perform_other first (others request (List.mem_cons_self ..))

/-- The link has a controller, so no call to it ends the process. -/
def Attached (processor : Processor K) : Prop := processor.state.link.spdControl.isSome = true

theorem issue_attached {processor : Processor K} (attached : Attached processor)
    (request : SwerveRequest K) :
    ∃ next, issue processor (SwerveRequest.call request) = some next ∧ Attached next := by
  obtain ⟨id, here⟩ := Option.isSome_iff_exists.mp attached
  cases request with
  | setControlTarget motor target =>
      simp only [SwerveRequest.call, issue, LinkState.setControlTarget, here, Option.isNone_some,
        Bool.false_eq_true, ↓reduceIte]
      split
      · exact ⟨_, rfl, attached⟩
      · rw [LinkState.callControl_eq here]
        exact ⟨_, rfl, attached⟩
  | setSpeed motor pow =>
      simp only [SwerveRequest.call, issue, MotorLink.setSpeed, LinkState.releaseControl]
      split
      · rw [LinkState.callControl_eq here]
        exact ⟨_, rfl, attached⟩
      · exact ⟨_, rfl, attached⟩

theorem perform_attached {links : Motor → Processor K} (attached : ∀ motor, Attached (links motor))
    (request : SwerveRequest K) :
    ∃ next, perform links request = some next ∧ ∀ motor, Attached (next motor) := by
  obtain ⟨processor, issued, kept⟩ :=
    issue_attached (attached (SwerveRequest.motor request)) request
  refine ⟨_, by rw [perform, issued]; rfl, fun motor => ?_⟩
  by_cases same : motor = SwerveRequest.motor request
  · subst same
    rwa [Function.update_self]
  · rw [Function.update_of_ne same]
    exact attached motor

theorem run_perform_attached {links : Motor → Processor K}
    (attached : ∀ motor, Attached (links motor)) (requests : List (SwerveRequest K)) :
    ∃ last, run perform links requests = some last := by
  induction requests generalizing links with
  | nil => exact ⟨links, rfl⟩
  | cons request rest ih =>
      obtain ⟨next, first, kept⟩ := perform_attached attached request
      obtain ⟨last, later⟩ := ih kept
      exact ⟨last, by rw [run_cons, first]; exact later⟩

section Controllers

variable [Field K] [LinearOrder K]

/-- What steering makes of one axis. -/
def deadband (value : K) : K := if thresh < |value| then value else 0

theorem deadband_idle {value : K} (idle : |value| ≤ thresh) : deadband value = 0 :=
  if_neg (not_lt.mpr idle)

theorem sqrt_zero (library : MathLibrary K) : library.sqrt 0 = 0 :=
  pow_eq_zero_iff two_ne_zero |>.mp (library.sqrt_sq 0 le_rfl)

theorem moduleSpd_still (library : MathLibrary K) (wheel : SwerveModule) :
    moduleSpd library 0 0 0 wheel = 0 := by
  simp [moduleSpd, speedVector, sqrt_zero]

theorem moduleAng_still {library : MathLibrary K} (origin : library.atan2 0 0 = 0)
    (wheel : SwerveModule) : moduleAng library 0 0 0 wheel = 0 := by
  simp [moduleAng, angleVector, rTD, origin]

theorem axis_joy1X (values : ControlValues K) :
    axis values .joy1X = some (deadband (values.axisAt 11)) := rfl

theorem axis_joy1Y (values : ControlValues K) :
    axis values .joy1Y = some (deadband (values.axisAt 14)) := rfl

theorem axis_joy2X (values : ControlValues K) :
    axis values .joy2X = some (deadband (values.axisAt 12)) := rfl

variable [FloorRing K]

/-- The link's controller is a LinearAngleTarget with this target. -/
def AngleTarget (processor : Processor K) (target : K) : Prop :=
  ∃ id, processor.state.link.spdControl = some id ∧
    (processor.state.controls id).rule = linearAngleTarget ∧
    (processor.state.controls id).target = target

/-- Besides, speed control is enabled, so that targets get through to it. -/
def AngleControlled (processor : Processor K) (target : K) : Prop :=
  processor.state.link.spdControlEnabled = true ∧ AngleTarget processor target

/-- Of an enabled controller the link changes the target, if the controller does. -/
theorem issue_setControlTarget {processor next : Processor K} {old target : K}
    (controlled : AngleControlled processor old)
    (issued : issue processor (.setControlTarget target) = some next) :
    AngleControlled next (if fmod target 180 = 0 then old else target) := by
  obtain ⟨enabled, id, attached, rule, rfl⟩ := controlled
  simp only [issue, LinkState.setControlTarget, attached, Option.isNone_some, enabled,
    Bool.not_true, Bool.false_eq_true, ↓reduceIte, LinkState.callControl, Option.map_some,
    Option.some.injEq] at issued
  subst issued
  refine ⟨enabled, id, attached, ?_, ?_⟩
  · simp only [Function.update_self, MotorControl.setControlTarget, rule]
  · simp only [Function.update_self, MotorControl.setControlTarget, rule, linearAngleTarget]

/-- A target the controller drops leaves the whole link as it was. -/
theorem issue_setControlTarget_dropped {processor : Processor K} {old target : K}
    (angle : AngleTarget processor old) (dropped : fmod target 180 = 0) :
    issue processor (.setControlTarget target) = some processor := by
  obtain ⟨id, attached, rule, _⟩ := angle
  simp only [issue, LinkState.setControlTarget, attached, Option.isNone_some, Bool.false_eq_true,
    ↓reduceIte]
  split
  · rfl
  · have kept : (processor.state.controls id).rule.setControlTargetImpl
        (processor.state.controls id).target target = (processor.state.controls id).target := by
      rw [rule]
      exact if_pos dropped
    have same : (processor.state.controls id).setControlTarget target =
        processor.state.controls id := by
      rw [MotorControl.setControlTarget, kept]
    simp only [LinkState.callControl, attached, same, Function.update_eq_self, Option.map_some]

theorem perform_dropped {links : Motor → Processor K} {motor : Motor} {old target : K}
    (angle : AngleTarget (links motor) old) (dropped : fmod target 180 = 0) :
    perform links (.setControlTarget motor target) = some links := by
  simp only [perform, SwerveRequest.motor, SwerveRequest.call,
    issue_setControlTarget_dropped angle dropped, Option.map_some, Function.update_eq_self]

theorem perform_setControlTarget {links next : Motor → Processor K} {motor : Motor}
    {old target : K} (controlled : AngleControlled (links motor) old)
    (taken : perform links (.setControlTarget motor target) = some next) :
    AngleControlled (next motor) (if fmod target 180 = 0 then old else target) := by
  obtain ⟨processor, issued, rfl⟩ := Option.map_eq_some_iff.mp taken
  simp only [SwerveRequest.motor, Function.update_self]
  exact issue_setControlTarget controlled issued

/-- The one request that a motor gets decides about its target. -/
theorem run_perform_setControlTarget (front : List (SwerveRequest K))
    {back : List (SwerveRequest K)} {links last : Motor → Processor K} {motor : Motor}
    {old target : K} (controlled : AngleControlled (links motor) old)
    (before : ∀ request ∈ front, motor ≠ SwerveRequest.motor request)
    (after : ∀ request ∈ back, motor ≠ SwerveRequest.motor request)
    (taken : run perform links (front ++ .setControlTarget motor target :: back) = some last) :
    AngleControlled (last motor) (if fmod target 180 = 0 then old else target) := by
  induction front generalizing links with
  | nil =>
      obtain ⟨next, first, later⟩ := Option.bind_eq_some_iff.mp taken
      rw [run_perform_other after later]
      exact perform_setControlTarget controlled first
  | cons request rest ih =>
      obtain ⟨next, first, later⟩ := Option.bind_eq_some_iff.mp taken
      have kept := perform_other first (before request (List.mem_cons_self ..))
      exact ih (kept ▸ controlled)
        (fun other member => before other (List.mem_cons_of_mem _ member)) later

section Idle

variable [IsStrictOrderedRing K]

/-- Without speed the drive of a wheel stays where it is, and the angle the
wheel is turned to is one that its controller drops. -/
theorem optimizeSwerve_still (ang1 : K) :
    fmod (optimizeSwerve ang1 0 0).1 180 = 0 ∧ (optimizeSwerve ang1 0 0).2 = 0 := by
  rw [optimizeSwerve_eq]
  split
  · refine ⟨?_, neg_zero⟩
    rw [zero_add, fmod_eq_zero_iff (by norm_num)]
    exact AddCommGroup.self_modEq_zero
  · exact ⟨(fmod_eq_zero_iff (by norm_num)).mpr AddCommGroup.modEq_rfl, rfl⟩

variable (library : MathLibrary K)

/-- All the handler asks for when no axis is out of the dead band. -/
def idleRequests (encoderAngle : Motor → K) : List (SwerveRequest K) :=
  [.setControlTarget .rotFR (optimizeSwerve (encoderAngle .rotFR) 0 0).1,
    .setControlTarget .rotFL (optimizeSwerve (encoderAngle .rotFL) 0 0).1,
    .setControlTarget .rotBk (optimizeSwerve (encoderAngle .rotBk) 0 0).1,
    .setSpeed .drvFR 0, .setSpeed .drvFL 0, .setSpeed .drvBk 0]

structure Idle (values : ControlValues K) : Prop where
  joy1X : |values.axisAt 11| ≤ thresh
  joy1Y : |values.axisAt 14| ≤ thresh
  joy2X : |values.axisAt 12| ≤ thresh

theorem steerHandler_idle (origin : library.atan2 0 0 = 0) (drive : SwerveDrive K)
    {values : ControlValues K} (idle : Idle values) (gyroAngle : K) (encoderAngle : Motor → K) :
    ∃ next, steerHandler library drive values gyroAngle encoderAngle =
        some (next, idleRequests encoderAngle) ∧ next.theta = drive.theta := by
  have still := fun motor => (optimizeSwerve_still (encoderAngle motor)).2
  refine ⟨⟨0, drive.theta, 0, 0, 0, 0, 0, 0, 0, 0, 0⟩, ?_, rfl⟩
  simp [steerHandler, axis_joy1X, axis_joy1Y, axis_joy2X, deadband_idle idle.joy1X,
    deadband_idle idle.joy1Y, deadband_idle idle.joy2X, sqrt_zero, moduleSpd_still,
    moduleAng_still origin, still, idleRequests]

/-- Carrying them out comes to stopping the three drive motors. -/
theorem run_idleRequests {links : Motor → Processor K} {old : SwerveModule → K}
    (angle : ∀ wheel, AngleTarget (links (rotMotor wheel)) (old wheel))
    (encoderAngle : Motor → K) :
    run perform links (idleRequests encoderAngle) =
      run perform links [.setSpeed .drvFR 0, .setSpeed .drvFL 0, .setSpeed .drvBk 0] := by
  have dropped : ∀ {motor : Motor} {target : K}, AngleTarget (links motor) target →
      perform links (.setControlTarget motor (optimizeSwerve (encoderAngle motor) 0 0).1) =
        some links :=
    fun held => perform_dropped held (optimizeSwerve_still _).1
  have right := dropped (angle .R)
  have left := dropped (angle .L)
  have back := dropped (angle .B)
  simp only [rotMotor] at right left back
  rw [idleRequests, run_cons, right, Option.bind_some, run_cons, left, Option.bind_some, run_cons,
    back, Option.bind_some]

/-- An idle drive asks for standstill, keeps its theta, and leaves everything
about the motors that turn the wheels as it was, their targets among it. -/
theorem idle_holds (origin : library.atan2 0 0 = 0) (drive : SwerveDrive K)
    {values : ControlValues K} (idle : Idle values) (gyroAngle : K) (encoderAngle : Motor → K)
    {links : Motor → Processor K} {old : SwerveModule → K}
    (angle : ∀ wheel, AngleTarget (links (rotMotor wheel)) (old wheel)) :
    ∃ next,
      steerHandler library drive values gyroAngle encoderAngle =
        some (next, idleRequests encoderAngle) ∧
      next.theta = drive.theta ∧
      run perform links (idleRequests encoderAngle) =
        run perform links [.setSpeed .drvFR 0, .setSpeed .drvFL 0, .setSpeed .drvBk 0] ∧
      ∀ last, run perform links (idleRequests encoderAngle) = some last →
        ∀ wheel, last (rotMotor wheel) = links (rotMotor wheel) := by
  obtain ⟨next, steered, kept⟩ := steerHandler_idle library origin drive idle gyroAngle encoderAngle
  refine ⟨next, steered, kept, run_idleRequests angle encoderAngle, ?_⟩
  intro last taken wheel
  rw [run_idleRequests angle] at taken
  refine run_perform_other ?_ taken
  intro request member
  simp only [List.mem_cons, List.not_mem_nil, or_false] at member
  rcases member with rfl | rfl | rfl <;> cases wheel <;> simp [rotMotor, SwerveRequest.motor]

end Idle

/-- Links of which each has an enabled LinearAngleTarget. -/
def angleLinks (target : K) (_motor : Motor) : Processor K :=
  ⟨⟨⟨none, some 0, some 0, true, false, 1⟩, fun _ => ⟨linearAngleTarget, target, true, true⟩⟩, []⟩

theorem angleLinks_controlled (target : K) (motor : Motor) :
    AngleControlled (angleLinks target motor) target :=
  ⟨rfl, 0, rfl, rfl, rfl⟩

end Controllers

/-- A drive that has been turned, without any stick moved. -/
theorem idle_holds_turned :
    ∃ next, steerHandler realLibrary ⟨0, 7, 0, 0, 0, 0, 0, 0, 0, 0, 0⟩
        ListenerManager.initialValues 30 (fun _ => 170) = some (next, idleRequests fun _ => 170) ∧
      next.theta = 7 := by
  have idle : Idle (ListenerManager.initialValues : ControlValues ℝ) := by
    constructor <;> simp [thresh]
  obtain ⟨next, steered, kept, _⟩ := idle_holds realLibrary Complex.arg_zero
    ⟨0, 7, 0, 0, 0, 0, 0, 0, 0, 0, 0⟩ idle 30 (fun _ => 170)
    fun wheel => (angleLinks_controlled 45 (rotMotor wheel)).2
  exact ⟨next, steered, kept⟩

end FrcRobot.SwerveDrive
