import FrcRobot.ArcadeDrivePipeline
import FrcRobot.Attempt
import FrcRobot.AutonomousSequences
import FrcRobot.CockArm
import FrcRobot.LinearAngleTarget
import FrcRobot.MotorLinkPointers

set_option autoImplicit false

namespace FrcRobot

/- Everything that Global builds, and all threads at once: the callbacks of the
field, the autonomous sequences, the polling thread, the drive's queue thread,
the arm's timer, the timers of the controllers and the queue thread of each link. -/
namespace Robot

open ArcadeDrive (Poll SteerHandler)
open Attempt (Refusal orRefuse)
open Interleaving ListenerManager MotorLinkPointers
open MotorLink (Call Processor)

/-- The thread that makes a call. -/
inductive Source where
  | main
  | sequence (thread : Nat)
  | listener (listener : SharedCmd)
  | tankDrive
  | cockArm
  | controller (motor : Motor)
  deriving DecidableEq

/-- How far a call of MotorControl::execute is: whether the target is reached is
asked first, then the error is measured and then the direction. -/
inductive Tick where
  | expired
  | stepping
  | aiming (error : ℚ)
  | sent
  deriving DecidableEq

/-- `started` counts the calls of startSpeedControl that the main thread has made,
`begun` and `sent` the calls of CockArm::execute before and after their setSpeed.
`calls` is no part of the program: what has been asked of the links, by whom. -/
structure Parties where
  auto : AutonomousSequences.Parties
  started : Nat
  values : ControlValues ℚ
  poll : Poll ℚ SharedCmd
  steers : Nat
  handler : Option (SteerHandler ℚ)
  arm : CockArm
  armEnabled : Bool
  begun : Nat
  sent : Nat
  links : Motor → Processor ℚ
  ticks : List (Motor × Tick)
  calls : List (Source × Motor × Call ℚ)

/-- Some threads interleave what is one action of another: `tick` takes the next
step of one of the running calls of MotorControl::execute. -/
inductive Action where
  | auto (action : AutonomousSequences.Action)
  | startSpeedControl
  | pollControls (joystick : Joystick ℚ) (listeners : List SharedCmd)
  | publish
  | invoke
  | steerHandler
  | advance
  | expireArm
  | executeArm (shooterTSensor : Nat)
  | rearmArm
  | expire (motor : Motor)
  | tick (index : Nat) (encoderAngle : ℚ)
  | serve (motor : Motor)

/-- The motors that turn the wheels; only these have an encoder and a controller. -/
def rotates : Motor → Bool
  | .rotFR | .rotFL | .rotBk => true
  | _ => false

def construction (motor : Motor) : Construction ℚ :=
  if rotates motor then .control (some 0) (some 0) else .talon

theorem minSpeed_range : (0 : ℚ) ≤ 2 / 5 ∧ (2 / 5 : ℚ) ≤ 1 := by norm_num

/-- The controller of such a motor, with its target. -/
def controller (targetAngle : ℚ) : LinearAngleTarget ℚ :=
  ⟨2 / 5, targetAngle, 4, 1 / 200, minSpeed_range.1, minSpeed_range.2⟩

namespace Parties

def sequences (parties : Parties) : List AutoConfig.Sequence := parties.auto.sequences

/-- The controller object of a link. -/
def control (parties : Parties) (motor : Motor) : MotorControl ℚ :=
  (parties.links motor).state.controls 0

def setLink (parties : Parties) (motor : Motor) (processor : Processor ℚ) : Parties :=
  { parties with links := Function.update parties.links motor processor }

def setControl (parties : Parties) (motor : Motor) (control : MotorControl ℚ) : Parties :=
  parties.setLink motor
    { parties.links motor with state := withControl (parties.links motor).state 0 control }

/-- The part of a call to a link that runs on its caller's thread. -/
def ask (parties : Parties) (source : Source) (motor : Motor) (call : Call ℚ) :
    Except Refusal Parties :=
  (orRefuse .crashed (MotorLink.issue (parties.links motor) call)).map fun processor =>
    { parties.setLink motor processor with calls := parties.calls ++ [(source, motor, call)] }

/-- What an autonomous sequence asks for is done at once. -/
def carryOut (parties : Parties) : Nat × AutoRequest → Except Refusal Parties
  | (thread, .setControlTarget motor target) =>
      parties.ask (.sequence thread) motor (.setControlTarget target)
  | (thread, .setSpeed motor pow) => parties.ask (.sequence thread) motor (.setSpeed pow)
  | (_, .cockShooterCancel) => .ok { parties with arm := parties.arm.cancel }
  | (_, .cockShooterStart) => .ok { parties with arm := parties.arm.start }

def invoke (parties : Parties) (listener : SharedCmd) : Except Refusal Parties :=
  match listener.call with
  | .gyroReset => .ok parties
  | .cockArmCancel => .ok { parties with arm := parties.arm.cancel }
  | .cockArmStart => .ok { parties with arm := parties.arm.start }
  | .stopArmCock => .ok { parties with arm := parties.arm.stopArmCock }
  | .startArmCock => .ok { parties with arm := parties.arm.startArmCock }
  | .setSpeed motor pow => parties.ask (.listener listener) motor (.setSpeed pow)
  | .steer => .ok { parties with steers := parties.steers + 1 }

/-- The main thread does not return from a callback before it has made its calls. -/
def autoStep (parties : Parties) (action : AutonomousSequences.Action) : Except Refusal Parties :=
  if AutonomousSequences.isCallback action ∧
      parties.started < parties.auto.robot.global.speedControls.length then .error .blocked
  else do
    let auto ← orRefuse .blocked (AutonomousSequences.step parties.auto action)
    (auto.requests.drop parties.auto.requests.length).foldlM carryOut { parties with auto := auto }

def startSpeedControl (parties : Parties) : Except Refusal Parties :=
  match parties.auto.robot.global.speedControls[parties.started]? with
  | none => .error .blocked
  | some (motor, target) =>
      ({ parties with started := parties.started + 1 } : Parties).ask .main motor
        (.startSpeedControl target)

def pollControls (parties : Parties) (joystick : Joystick ℚ) (listeners : List SharedCmd) :
    Except Refusal Parties :=
  match parties.poll with
  | .waiting =>
      let cycle := cycle parties.auto.robot.global.listeners parties.values
        (ListenerManager.pollControls joystick)
      if listeners.Nodup ∧ listeners.toFinset = cycle.2 then
        .ok { parties with
          values := { parties.values with buttonValues := cycle.1.buttonValues }
          poll := .publishing cycle.1 (List.finRange 16) listeners }
      else .error .blocked
  | _ => .error .blocked

def publish (parties : Parties) : Except Refusal Parties :=
  match parties.poll with
  | .publishing newValues (counter :: rest) listeners =>
      .ok { parties with
        values := parties.values.setAxis counter (newValues.axisAt counter)
        poll := .publishing newValues rest listeners }
  | .publishing _ [] listeners => .ok { parties with poll := .invoking listeners }
  | _ => .error .blocked

def invokeNext (parties : Parties) : Except Refusal Parties :=
  match parties.poll with
  | .invoking (listener :: rest) =>
      ({ parties with poll := .invoking rest } : Parties).invoke listener
  | .invoking [] => .ok { parties with poll := .waiting }
  | _ => .error .blocked

/-- The drive's left side is drvFL and its right one drvFR. -/
def advance (parties : Parties) : Except Refusal Parties :=
  match parties.handler with
  | none => .error .blocked
  | some (.driveLeft spdL spdR) =>
      ({ parties with handler := some (.driveRight spdR) } : Parties).ask .tankDrive .drvFL
        (.setSpeed spdL)
  | some (.driveRight spdR) =>
      ({ parties with handler := none } : Parties).ask .tankDrive .drvFR (.setSpeed spdR)
  | some handler =>
      (orRefuse .crashed (handler.read parties.values)).map fun next =>
        { parties with handler := some next }

def executeArm (parties : Parties) (shooterTSensor : Nat) : Except Refusal Parties :=
  if parties.begun = 0 then .error .blocked
  else
    match parties.arm.execute parties.armEnabled shooterTSensor with
    | none => .ok { parties with begun := parties.begun - 1 }
    | some speed =>
        ({ parties with begun := parties.begun - 1, sent := parties.sent + 1 } : Parties).ask
          .cockArm .mShooter (.setSpeed speed)

/-- A timer that repeats is still armed when it has expired. -/
def expired (repeats : Bool) (control : MotorControl ℚ) : MotorControl ℚ :=
  if repeats then control else control.cancel

def expire (repeats : Bool) (parties : Parties) (motor : Motor) : Except Refusal Parties :=
  if (parties.control motor).timerArmed then
    .ok { parties.setControl motor (expired repeats (parties.control motor)) with
      ticks := parties.ticks ++ [(motor, .expired)] }
  else .error .blocked

/-- The encoder is read through `_controlledMotor`, which must have one. -/
def encoderRead (parties : Parties) (motor : Motor) : Bool :=
  (parties.control motor).controlledMotor && (parties.links motor).state.link.encoder.isSome

def setTick (parties : Parties) (index : Nat) (motor : Motor) (tick : Tick) : Parties :=
  { parties with ticks := parties.ticks.set index (motor, tick) }

def tick (parties : Parties) (index : Nat) (encoderAngle : ℚ) : Except Refusal Parties :=
  match parties.ticks[index]? with
  | none => .error .blocked
  | some (motor, .sent) =>
      .ok { parties.setControl motor (parties.control motor).start with
        ticks := parties.ticks.eraseIdx index }
  | some (motor, step) =>
      let control := controller (parties.control motor).target
      if parties.encoderRead motor then
        match step with
        | .expired =>
            if control.isComplete encoderAngle then
              (parties.setTick index motor .sent).ask (.controller motor) motor (.setSpeedForce 0)
            else .ok (parties.setTick index motor .stepping)
        | .stepping =>
            .ok (parties.setTick index motor
              (.aiming (RobotMath.angleDistance encoderAngle control.targetAngle)))
        | .aiming error =>
            (parties.setTick index motor .sent).ask (.controller motor) motor (.setSpeedForce
              (control.stepPower error
                (RobotMath.getMotorDirToTarget encoderAngle control.targetAngle)))
        | .sent => .error .blocked
      else .error .crashed

def serve (parties : Parties) (motor : Motor) : Except Refusal Parties :=
  if (parties.links motor).queue = [] then .error .blocked
  else (orRefuse .crashed ((parties.links motor).serve LinkState.exec)).map
    (parties.setLink motor)

end Parties

/-- A PlatformCmdTimer may be of a kind that expires once for each time it is started,
or of one that repeats until it is cancelled. -/
def perform (repeats : Bool) (parties : Parties) : Action → Except Refusal Parties
  | .auto action => parties.autoStep action
  | .startSpeedControl => parties.startSpeedControl
  | .pollControls joystick listeners => parties.pollControls joystick listeners
  | .publish => parties.publish
  | .invoke => parties.invokeNext
  | .steerHandler =>
      if 0 < parties.steers ∧ parties.handler.isNone then
        .ok { parties with steers := parties.steers - 1, handler := some .testX }
      else .error .blocked
  | .advance => parties.advance
  | .expireArm =>
      if parties.arm.timerIsRunning then
        .ok { parties with
          arm := if repeats then parties.arm else parties.arm.expire
          begun := parties.begun + 1 }
      else .error .blocked
  | .executeArm shooterTSensor => parties.executeArm shooterTSensor
  | .rearmArm =>
      if 0 < parties.sent then
        .ok { parties with arm := parties.arm.startRelative, sent := parties.sent - 1 }
      else .error .blocked
  | .expire motor => parties.expire repeats motor
  | .tick index encoderAngle => parties.tick index encoderAngle
  | .serve motor => parties.serve motor

/-- The robot as Global's constructor leaves it, with these Options. -/
def initial (alliance : Alliance) (armEnabled : Bool) : Parties where
  auto := AutonomousSequences.initial alliance
  started := 0
  values := initialValues
  poll := .waiting
  steers := 0
  handler := none
  arm := ⟨true, false⟩
  armEnabled := armEnabled
  begun := 0
  sent := 0
  links := fun motor =>
    ⟨MotorLinkPointers.initial (fun _ => .linearAngleTarget) (fun _ => 0) (construction motor), []⟩
  ticks := []
  calls := []

end Robot

end FrcRobot
