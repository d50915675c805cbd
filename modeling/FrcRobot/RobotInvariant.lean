import FrcRobot.RobotWiring
import FrcRobot.TeleopMechanisms

set_option autoImplicit false

/- What every step of every thread of the robot keeps. -/
namespace FrcRobot.Robot

open ArcadeDrive (Poll SteerHandler)
open Attempt AutoConfig Interleaving LastWrite PollingScript
open Global (teleopBindings)
open MotorLink (Call Processor)
open TeleopMechanisms (teleopListeners mem_teleopListeners)

/-- Which thread may ask what of which link. -/
def Permitted (ranged : Prop) (armEnabled : Bool) (motor : Motor) : Source → Call ℚ → Prop
  | .main, .startSpeedControl target => rotates motor = true ∧ target = 90
  | .sequence _, .setControlTarget _ => rotates motor = true
  | .sequence _, .setSpeed pow =>
      motor ∈ [.drvFR, .drvFL, .drvBk] ∧ (pow = 0 ∨ pow = 1) ∨ motor = .mShooter ∧ pow = -1
  | .listener _, .setSpeed pow =>
      motor = .mShooter ∧ (pow = 0 ∨ pow = -1) ∨
        motor ∈ [.mArmRoll, .mArmMove] ∧ (pow = 1 / 10 ∨ pow = -1 / 10)
  | .tankDrive, .setSpeed pow => motor ∈ [.drvFL, .drvFR] ∧ (ranged → |pow| ≤ 2)
  | .cockArm, .setSpeed pow => armEnabled = false ∧ motor = .mShooter ∧ (pow = 0 ∨ pow = -1)
  | .controller own, .setSpeedForce pow => motor = own ∧ rotates motor = true ∧ TurnPower pow
  | _, _ => False

theorem Permitted.suits {ranged : Prop} {armEnabled : Bool} {motor : Motor} {source : Source}
    {call : Call ℚ} (permitted : Permitted ranged armEnabled motor source call) :
    Suits ranged motor call := by
  have half : ∀ pow : ℚ, pow = 0 ∨ pow = 1 → |pow| ≤ 2 := by
    rintro pow (rfl | rfl) <;> norm_num
  cases source with
  | main =>
      cases call with
      | startSpeedControl target => exact permitted.1
      | _ => exact permitted.elim
  | sequence thread =>
      cases call with
      | setControlTarget target => exact permitted
      | setSpeed pow =>
          rcases permitted with ⟨drives, speed⟩ | ⟨rfl, rfl⟩
          · simp only [List.mem_cons, List.not_mem_nil, or_false] at drives
            rcases drives with rfl | rfl | rfl
            · exact ⟨rfl, fun _ => half pow speed⟩
            · exact ⟨rfl, fun _ => half pow speed⟩
            · exact ⟨rfl, speed⟩
          · exact ⟨rfl, .inr rfl⟩
      | _ => exact permitted.elim
  | listener listener =>
      cases call with
      | setSpeed pow =>
          rcases permitted with ⟨rfl, speed⟩ | ⟨arms, speed⟩
          · exact ⟨rfl, speed⟩
          · simp only [List.mem_cons, List.not_mem_nil, or_false] at arms
            rcases arms with rfl | rfl
            · exact ⟨rfl, speed⟩
            · exact ⟨rfl, speed⟩
      | _ => exact permitted.elim
  | tankDrive =>
      cases call with
      | setSpeed pow =>
          obtain ⟨sides, speed⟩ := permitted
          simp only [List.mem_cons, List.not_mem_nil, or_false] at sides
          rcases sides with rfl | rfl
          · exact ⟨rfl, speed⟩
          · exact ⟨rfl, speed⟩
      | _ => exact permitted.elim
  | cockArm =>
      cases call with
      | setSpeed pow =>
          obtain ⟨_, rfl, speed⟩ := permitted
          exact ⟨rfl, speed⟩
      | _ => exact permitted.elim
  | controller own =>
      cases call with
      | setSpeedForce pow =>
          obtain ⟨_, turning, power⟩ := permitted
          refine ⟨turning, ?_⟩
          cases motor with
          | rotFR | rotFL | rotBk => exact power
          | drvFR | drvFL | drvBk | mShooter | mArmRoll | mArmMove => cases turning
      | _ => exact permitted.elim

/-- The statements of the autonomous sequence, by the links they turn to. -/
def Scripted : Command → Prop
  | .setControlTarget motor _ | .setControlTargetFromAngle motor _ => rotates motor = true
  | .setSpeed motor pow =>
      motor ∈ [.drvFR, .drvFL, .drvBk] ∧ (pow = 0 ∨ pow = 1) ∨ motor = .mShooter ∧ pow = -1
  | _ => True

instance : DecidablePred Scripted := fun command => by
  cases command <;> unfold Scripted <;> infer_instance

theorem start_scripted (command : Command) (mentioned : Mentions Sequence.start.code command) :
    Scripted command := by
  rw [mentions_iff] at mentioned
  revert command
  decide +kernel

/-- A sequence that asks for this may do so. -/
def Allows (ranged : Prop) (armEnabled : Bool) (thread : Nat) : AutoRequest → Prop
  | .setControlTarget motor target =>
      Permitted ranged armEnabled motor (.sequence thread) (.setControlTarget target)
  | .setSpeed motor pow => Permitted ranged armEnabled motor (.sequence thread) (.setSpeed pow)
  | .cockShooterCancel | .cockShooterStart => True

theorem Scripted.request {command : Command} (scripted : Scripted command) {reading : Reading}
    {request : AutoRequest} (asked : command.request reading = some request) (ranged : Prop)
    (armEnabled : Bool) (thread : Nat) : Allows ranged armEnabled thread request := by
  cases command with
  | setControlTarget | setControlTargetFromAngle | setSpeed =>
      cases asked
      exact scripted
  | cockShooterCancel | cockShooterStart =>
      cases asked
      trivial
  | sequenceStartTime | desiredFinishTime | lightChange | sleep => cases asked

/-- The listener is one of those that initializeTeleop registers. -/
def Bound (listener : SharedCmd) : Prop := ∃ key, (key, listener.call) ∈ teleopBindings

theorem Bound.permitted {ranged : Prop} {armEnabled : Bool} {listener : SharedCmd}
    (bound : Bound listener) {motor : Motor} {pow : ℚ}
    (calls : listener.call = .setSpeed motor pow) :
    Permitted ranged armEnabled motor (.listener listener) (.setSpeed pow) := by
  obtain ⟨key, member⟩ := bound
  rw [calls] at member
  simp only [teleopBindings, List.mem_cons, Prod.mk.injEq, reduceCtorEq, and_false, false_or,
    or_false, BoundCall.setSpeed.injEq, List.not_mem_nil] at member
  simp only [Permitted, List.mem_cons, List.not_mem_nil, or_false]
  rcases member with ⟨_, rfl, rfl⟩ | ⟨_, rfl, rfl⟩ | ⟨_, rfl, rfl⟩ | ⟨_, rfl, rfl⟩ |
    ⟨_, rfl, rfl⟩ | ⟨_, rfl, rfl⟩ | ⟨_, rfl, rfl⟩ | ⟨_, rfl, rfl⟩ <;> simp

section Callbacks

variable {robot : RobotTemplate}

theorem foldl_bind_speedControls (bindings : List (Listenable × BoundCall)) (global : Global) :
    (bindings.foldl Global.bind global).speedControls = global.speedControls := by
  induction bindings generalizing global with
  | nil => rfl
  | cons binding rest ih => exact ih (global.bind binding)

theorem call_speedControls (starts : ∀ entry ∈ robot.global.speedControls,
      rotates entry.1 = true ∧ entry.2 = 90) (callback : RobotTemplate.Callback) :
    ∀ entry ∈ (robot.call callback).global.speedControls,
      rotates entry.1 = true ∧ entry.2 = 90 := by
  cases callback with
  | robotInit =>
      intro entry member
      simp only [RobotTemplate.call, Global.initializeRobot, Global.startSpeedControl,
        Global.lightsOff, List.mem_append, List.mem_singleton] at member
      rcases member with ((old | rfl) | rfl) | rfl
      · exact starts entry old
      · exact ⟨rfl, rfl⟩
      · exact ⟨rfl, rfl⟩
      · exact ⟨rfl, rfl⟩
  | disabledInit => exact starts
  | autonomousInit =>
      show ∀ entry ∈ robot.autonomousInit.global.speedControls, _
      unfold RobotTemplate.autonomousInit
      split <;> exact starts
  | teleopInit =>
      show ∀ entry ∈ robot.teleopInit.global.speedControls, _
      unfold RobotTemplate.teleopInit
      split
      · intro entry member
        have same : robot.global.clearListeners.initializeTeleop.speedControls =
            robot.global.speedControls := by
          rw [Global.initializeTeleop, foldl_bind_speedControls]
          unfold Global.lightChange
          split <;> rfl
        rw [same] at member
        exact starts entry member
      · exact starts

theorem call_bound (table : ∀ entry ∈ robot.global.listeners, Bound entry.2)
    (callback : RobotTemplate.Callback) :
    ∀ entry ∈ (robot.call callback).global.listeners, Bound entry.2 := by
  cases callback with
  | robotInit | disabledInit => exact table
  | autonomousInit =>
      show ∀ entry ∈ robot.autonomousInit.global.listeners, _
      unfold RobotTemplate.autonomousInit
      split
      · exact fun entry member => absurd member (Multiset.notMem_zero entry)
      · exact table
  | teleopInit =>
      show ∀ entry ∈ robot.teleopInit.global.listeners, _
      unfold RobotTemplate.teleopInit
      split
      · intro entry member
        exact ⟨entry.1, (mem_teleopListeners robot.global _ _).mpr ⟨entry, member, rfl, rfl⟩⟩
      · exact table

end Callbacks

theorem advance_global {auto next : AutonomousSequences.Parties} {thread : Nat} {angle : ℚ}
    (taken : AutonomousSequences.step auto (.advance thread angle) = some next) :
    next.robot.global.listeners = auto.robot.global.listeners ∧
      next.robot.global.speedControls = auto.robot.global.speedControls := by
  simp only [AutonomousSequences.step] at taken
  split at taken
  · cases taken
  · obtain ⟨⟨emitted, later⟩, _, rfl⟩ := Option.map_eq_some_iff.mp taken
    cases emitted with
    | none => exact ⟨rfl, rfl⟩
    | some command =>
        cases command with
        | lightChange alliance =>
            refine ⟨Global.lightChange_listeners _ alliance, ?_⟩
            show (Global.lightChange _ alliance).speedControls = _
            unfold Global.lightChange
            split <;> rfl
        | sequenceStartTime | desiredFinishTime | sleep => exact ⟨rfl, rfl⟩
        | setControlTarget | setControlTargetFromAngle | setSpeed => exact ⟨rfl, rfl⟩
        | cockShooterCancel | cockShooterStart => exact ⟨rfl, rfl⟩

/-- What the drive's handler has found out, as far as the axes are in range. -/
def Steady (ranged : Prop) : SteerHandler ℚ → Prop
  | .testX | .readX => True
  | .testY x1 | .readY x1 => ranged → |x1| ≤ 1
  | .driveLeft spdL spdR => (ranged → |spdL| ≤ 2) ∧ (ranged → |spdR| ≤ 2)
  | .driveRight spdR => ranged → |spdR| ≤ 2

def InRange (values : ControlValues ℚ) : Prop := ∀ axis, |values.axisAt axis| ≤ 1

theorem spd_le_two {x1 y1 : ℚ} (xRange : |x1| ≤ 1) (yRange : |y1| ≤ 1) :
    |ArcadeDrive.spdL x1 y1| ≤ 2 ∧ |ArcadeDrive.spdR x1 y1| ≤ 2 := by
  obtain ⟨xLow, xHigh⟩ := abs_le.mp xRange
  obtain ⟨yLow, yHigh⟩ := abs_le.mp yRange
  simp only [ArcadeDrive.spdL, ArcadeDrive.spdR, abs_le]
  refine ⟨⟨?_, ?_⟩, ?_, ?_⟩ <;> linarith

theorem Steady.read {ranged : Prop} {handler : SteerHandler ℚ} {values : ControlValues ℚ}
    (steady : Steady ranged handler) (inRange : ranged → InRange values)
    (reads : ∀ spdL spdR, handler ≠ .driveLeft spdL spdR)
    (others : ∀ spdR, handler ≠ .driveRight spdR) :
    ∃ next, handler.read values = some next ∧ Steady ranged next := by
  cases handler with
  | testX =>
      refine ⟨_, ArcadeDrive.read_testX values, ?_⟩
      split
      · trivial
      · exact fun _ => by norm_num
  | readX => exact ⟨_, ArcadeDrive.read_readX values, fun within => inRange within 11⟩
  | testY x1 =>
      refine ⟨_, ArcadeDrive.read_testY values x1, ?_⟩
      split
      · exact steady
      · have still : |(0 : ℚ)| ≤ 1 := by norm_num
        have bounds := fun within => spd_le_two (steady within) still
        exact ⟨fun within => (bounds within).1, fun within => (bounds within).2⟩
  | readY x1 =>
      refine ⟨_, ArcadeDrive.read_readY values x1, ?_⟩
      have bounds := fun within => spd_le_two (steady within)
        ((abs_neg (values.axisAt 14)).le.trans (inRange within 14))
      exact ⟨fun within => (bounds within).1, fun within => (bounds within).2⟩
  | driveLeft spdL spdR => exact absurd rfl (reads spdL spdR)
  | driveRight spdR => exact absurd rfl (others spdR)

theorem pollControls_inRange {joystick : Joystick ℚ}
    (inRange : ∀ axis, |joystick.getRawAxis axis| ≤ 1) :
    InRange (ListenerManager.pollControls joystick) := by
  intro axis
  by_cases inLoop : axis ∈ ListenerManager.axisCounters
  · rw [ListenerManager.pollControls_axis joystick inLoop]
    exact inRange _
  · have unread : (ListenerManager.pollControls joystick).axisAt axis = 0 := by
      simp only [ControlValues.axisAt, ListenerManager.pollControls,
        ListenerManager.assignEach_get, inLoop, ↓reduceIte, Vector.getElem_replicate]
    rw [unread]
    norm_num

theorem setAxis_inRange {values newValues : ControlValues ℚ} (inRange : InRange values)
    (newInRange : InRange newValues) (counter : Fin 16) :
    InRange (values.setAxis counter (newValues.axisAt counter)) := by
  intro axis
  rw [ControlValues.setAxis_axisAt]
  split
  · exact newInRange counter
  · exact inRange axis

/-- An error that is measured is no more than half a turn. -/
def Tick.Measured : Tick → Prop
  | .aiming error => |error| ≤ 180
  | _ => True

theorem stepPower_turnPower (targetAngle : ℚ) {error : ℚ} (measured : |error| ≤ 180)
    (dir : MotorDir) : TurnPower ((controller targetAngle).stepPower error dir) := by
  obtain ⟨low, high⟩ := abs_le.mp measured
  simp only [LinearAngleTarget.stepPower, RobotMath.sgn_mul_abs, controller]
  split
  · exact .inl rfl
  · split
    · rename_i beyond
      refine .inr ⟨beyond.le, ?_, ?_⟩ <;> linarith
    · cases dir with
      | dirNone => exact .inl (by simp [MotorDir.value])
      | dirCw | dirCcw => exact .inr (by norm_num [MotorDir.value])

/-- The controller's timer is armed, or one of its ticks is under way. -/
def Alive (parties : Parties) (motor : Motor) : Prop :=
  (parties.control motor).timerArmed = true ∨ ∃ tick, (motor, tick) ∈ parties.ticks

/-- The speed that has been asked of a motor last, by any thread. -/
def askedLast (calls : List (Source × Motor × Call ℚ)) (motor : Motor) : Option ℚ :=
  lastValue (fun entry => if entry.2.1 = motor then callSpeed entry.2.2 else none) none calls

/-- `on` are motors whose controller has been started. -/
structure Inv (ranged : Prop) (armEnabled : Bool) (on : Motor → Prop) (parties : Parties) :
    Prop where
  options : parties.armEnabled = armEnabled
  links : ∀ motor, Wired ranged motor (parties.links motor)
  ticks : ∀ entry ∈ parties.ticks,
    (parties.control entry.1).controlledMotor = true ∧ entry.2.Measured
  alive : ∀ motor, (parties.links motor).state.link.spdControlEnabled = true →
    Alive parties motor
  enabled : ∀ motor, on motor → (parties.links motor).state.link.spdControlEnabled = true
  speedControls : ∀ entry ∈ parties.auto.robot.global.speedControls,
    rotates entry.1 = true ∧ entry.2 = 90
  scripts : ∀ sequence ∈ parties.sequences, ∀ command, Mentions sequence.code command →
    Scripted command
  table : ∀ entry ∈ parties.auto.robot.global.listeners, Bound entry.2
  collected : ∀ listener ∈ parties.poll.listeners, Bound listener
  values : ranged → InRange parties.values
  polled : ∀ newValues rest listeners, parties.poll = .publishing newValues rest listeners →
    ranged → InRange newValues
  handler : ∀ running, parties.handler = some running → Steady ranged running
  calls : ∀ entry ∈ parties.calls, Permitted ranged armEnabled entry.2.1 entry.1 entry.2.2
  follows : ∀ motor, comesTo (parties.links motor) = askedLast parties.calls motor

theorem inv_initial (ranged : Prop) (alliance : Alliance) (armEnabled : Bool) :
    Inv ranged armEnabled (fun _ => False) (initial alliance armEnabled) where
  options := rfl
  links := wired_initial ranged
  ticks := nofun
  alive motor enabled := by
    have fresh : (construction motor).link.spdControlEnabled = false := by cases motor <;> rfl
    exact absurd (enabled.symm.trans fresh) (by decide)
  enabled := nofun
  speedControls := nofun
  scripts := nofun
  table entry member := absurd member (Multiset.notMem_zero entry)
  collected := nofun
  values _ axis := by simp [initial]
  polled := nofun
  handler := nofun
  calls := List.forall_mem_nil _
  follows motor := by cases motor <;> rfl

section Steps

variable {ranged : Prop} {armEnabled : Bool} {on : Motor → Prop} {parties : Parties}

theorem control_setLink (motor other : Motor) (processor : Processor ℚ) :
    (parties.setLink motor processor).control other =
      if other = motor then processor.state.controls 0 else parties.control other := by
  unfold Parties.control Parties.setLink
  by_cases same : other = motor
  · subst same
    simp
  · simp [same]

theorem Inv.setLink (inv : Inv ranged armEnabled on parties) {motor : Motor}
    {processor : Processor ℚ}
    {calls : List (Source × Motor × Call ℚ)} (wired : Wired ranged motor processor)
    (onward : Onward (parties.links motor) processor)
    (permitted : ∀ entry ∈ calls, Permitted ranged armEnabled entry.2.1 entry.1 entry.2.2)
    (follows : comesTo processor = askedLast calls motor)
    (others : ∀ other, other ≠ motor → askedLast calls other = askedLast parties.calls other) :
    Inv ranged armEnabled on { parties.setLink motor processor with calls := calls } := by
  have elsewhere : ∀ other, other ≠ motor →
      (parties.setLink motor processor).links other = parties.links other :=
    fun other apart => Function.update_of_ne apart _ _
  have here : (parties.setLink motor processor).links motor = processor :=
    Function.update_self ..
  refine { inv with
    links := ?_, ticks := ?_, alive := ?_, enabled := ?_, calls := permitted, follows := ?_ }
  · intro other
    by_cases same : other = motor
    · subst same
      exact here.symm ▸ wired
    · exact (elsewhere other same).symm ▸ inv.links other
  · intro entry member
    obtain ⟨controlled, measured⟩ := inv.ticks entry member
    refine ⟨?_, measured⟩
    show ((parties.setLink motor processor).control entry.1).controlledMotor = true
    rw [control_setLink]
    split
    · rename_i same
      exact onward.controlled (same ▸ controlled)
    · exact controlled
  · intro other enabled
    show ((parties.setLink motor processor).control other).timerArmed = true ∨ _
    rw [control_setLink]
    by_cases same : other = motor
    · subst same
      rw [if_pos rfl]
      rcases onward.newly (here ▸ enabled) with before | armed
      · exact (inv.alive other before).imp_left onward.armed
      · exact .inl armed
    · rw [if_neg same]
      exact inv.alive other (elsewhere other same ▸ enabled)
  · intro other started
    by_cases same : other = motor
    · subst same
      exact here.symm ▸ onward.enabled (inv.enabled other started)
    · exact (elsewhere other same).symm ▸ inv.enabled other started
  · intro other
    by_cases same : other = motor
    · subst same
      exact here.symm ▸ follows
    · rw [others other same]
      exact (elsewhere other same).symm ▸ inv.follows other

theorem askedLast_append (calls : List (Source × Motor × Call ℚ)) (source : Source)
    (motor other : Motor) (call : Call ℚ) :
    askedLast (calls ++ [(source, motor, call)]) other =
      (if motor = other then callSpeed call else none).getD (askedLast calls other) :=
  lastValue_append_singleton ..

/-- A call that gets through is noted down, and changes no other link. -/
theorem ask_ok {next : Parties} {source : Source} {motor : Motor} {call : Call ℚ}
    (taken : parties.ask source motor call = .ok next) :
    ∃ processor, MotorLink.issue (parties.links motor) call = some processor ∧
      next = { parties.setLink motor processor with
        calls := parties.calls ++ [(source, motor, call)] } := by
  unfold Parties.ask at taken
  cases issued : MotorLink.issue (parties.links motor) call with
  | none =>
      rw [issued] at taken
      cases taken
  | some processor =>
      rw [issued] at taken
      cases taken
      exact ⟨processor, rfl, rfl⟩

/-- A call that is permitted gets through. -/
theorem Inv.ask (inv : Inv ranged armEnabled on parties) {source : Source} {motor : Motor}
    {call : Call ℚ}
    (permitted : Permitted ranged armEnabled motor source call) :
    Safe (Inv ranged armEnabled on) (parties.ask source motor call) := by
  obtain ⟨processor, issued, wired, onward, written⟩ := (inv.links motor).issue permitted.suits
  unfold Parties.ask
  rw [issued]
  refine inv.setLink wired onward ?_ ?_ ?_
  · intro entry member
    rcases List.mem_append.mp member with old | new
    · exact inv.calls entry old
    · rw [List.mem_singleton.mp new]
      exact permitted
  · rw [written, inv.follows motor, askedLast_append, if_pos rfl]
  · intro other apart
    rw [askedLast_append, if_neg (Ne.symm apart), Option.getD_none]

end Steps

end FrcRobot.Robot
