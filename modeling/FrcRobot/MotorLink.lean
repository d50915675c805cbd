import FrcRobot.DeferredQueue
import FrcRobot.RobotMath
import Mathlib.Logic.Function.Basic

set_option autoImplicit false

namespace FrcRobot

open DeferredQueue (Server)

variable {K : Type*}

/-- What a subclass of MotorControl makes of its target, in the two virtual
functions a MotorLink reaches: the new target from the old one and the argument,
and the target a cleared run is left with. -/
structure TargetRule (K : Type*) where
  setControlTargetImpl : K → K → K
  clearControlRunImpl : K → K

/-- LinearAngleTarget keeps its old target when it is given a multiple of 180. -/
def linearAngleTarget [Field K] [LinearOrder K] [FloorRing K] : TargetRule K where
  setControlTargetImpl target val := if RobotMath.fmod val 180 = 0 then target else val
  clearControlRunImpl target := target

def linearSpeedTarget [Zero K] : TargetRule K where
  setControlTargetImpl _target val := val
  clearControlRunImpl _target := 0

structure MotorControl (K : Type*) where
  rule : TargetRule K
  target : K
  /-- `_controlledMotor` is set. -/
  controlledMotor : Bool
  /-- `_speedSetScheduler` will expire once. -/
  timerArmed : Bool

namespace MotorControl

def clearControlRun (control : MotorControl K) : MotorControl K :=
  { control with target := control.rule.clearControlRunImpl control.target }

def setControlTarget (control : MotorControl K) (val : K) : MotorControl K :=
  { control with target := control.rule.setControlTargetImpl control.target val }

def setControlledMotor (control : MotorControl K) : MotorControl K :=
  { control with controlledMotor := true }

def start (control : MotorControl K) : MotorControl K := { control with timerArmed := true }

def cancel (control : MotorControl K) : MotorControl K := { control with timerArmed := false }

@[simp] theorem cancel_timerArmed (control : MotorControl K) :
    control.cancel.timerArmed = false := rfl

@[simp] theorem start_timerArmed (control : MotorControl K) :
    control.start.timerArmed = true := rfl

end MotorControl

/-- The class-scope values of a MotorLink. Of the Talon, the last value written
to it; of the two shared pointers, which object they refer to, if any. -/
structure MotorLink (K : Type*) where
  talon : Option K
  encoder : Option Nat
  spdControl : Option Nat
  spdControlEnabled : Bool
  motorReversed : Bool
  speedScalar : K

/-- A MotorLink, and the MotorControl objects it may be given. -/
structure LinkState (K : Type*) where
  link : MotorLink K
  controls : Nat → MotorControl K

/-- The commands a MotorLink puts on its own queue. -/
inductive Request (K : Type*) where
  | setSpeedImpl (pow : K)
  | setEncoderImpl (enc : Option Nat)
  | reverseMotorImpl
  | setSpeedScalarImpl (powScl : K)
  | startSpeedControlImpl (target : K)
  | setSpeedControllerImpl (spdControl : Option Nat)
  | stopSpeedControlImpl

/-- A link as Global builds it, with one controller that has not run yet. -/
def freshLink (rule : TargetRule ℚ) : LinkState ℚ where
  link := ⟨none, some 0, some 0, false, false, 1⟩
  controls := fun _ => ⟨rule, 0, false, false⟩

namespace LinkState

/-- Calls through `_spdControl`; a null pointer has no next state. -/
def callControl (state : LinkState K) (method : MotorControl K → MotorControl K) :
    Option (LinkState K) :=
  state.link.spdControl.map fun control =>
    { state with
      controls := Function.update state.controls control (method (state.controls control)) }

theorem callControl_eq {state : LinkState K} {id : Nat} (attached : state.link.spdControl = some id)
    (method : MotorControl K → MotorControl K) :
    state.callControl method = some { state with
      controls := Function.update state.controls id (method (state.controls id)) } := by
  simp only [callControl, attached, Option.map_some]

def setEnabled (state : LinkState K) (enabled : Bool) : LinkState K :=
  { state with link := { state.link with spdControlEnabled := enabled } }

def startSpeedControlImpl (state : LinkState K) (target : K) : Option (LinkState K) :=
  (state.callControl fun control =>
    ((control.clearControlRun.setControlTarget target).setControlledMotor).start).map
      fun started => started.setEnabled true

def setSpeedControllerImpl (state : LinkState K) (spdControl : Option Nat) :
    Option (LinkState K) :=
  let attach := fun released : LinkState K =>
    { released with link := { released.link with spdControl := spdControl } }
  if state.link.spdControlEnabled then
    ((state.setEnabled false).callControl MotorControl.cancel).map attach
  else some (attach state)

/-- The block with which setSpeed, on its caller's thread, takes the motor away
from a running controller. -/
def releaseControl (state : LinkState K) : Option (LinkState K) :=
  if state.link.spdControlEnabled then
    (state.callControl MotorControl.cancel).map fun cancelled => cancelled.setEnabled false
  else some state

/-- On its caller's thread as well. Without a controller LOG_FATAL ends the
process; without an enabled one the target is dropped. -/
def setControlTarget (state : LinkState K) (target : K) : Option (LinkState K) :=
  if state.link.spdControl.isNone then none
  else if !state.link.spdControlEnabled then some state
  else state.callControl fun control => control.setControlTarget target

section Arithmetic

variable [Field K]

def setSpeedImpl (state : LinkState K) (pow : K) : LinkState K :=
  { state with link := { state.link with
      talon := some (pow * state.link.speedScalar * (if state.link.motorReversed then -1 else 1)) } }

def stopSpeedControlImpl (state : LinkState K) : Option (LinkState K) :=
  (({ state with link := { state.link with talon := some 0 } } : LinkState K).callControl
    MotorControl.cancel).map fun cancelled => cancelled.setEnabled false

/-- One command of the queue, run to its end. -/
def exec (state : LinkState K) : Request K → Option (LinkState K)
  | .setSpeedImpl pow => some (state.setSpeedImpl pow)
  | .setEncoderImpl enc => some { state with link := { state.link with encoder := enc } }
  | .reverseMotorImpl =>
      some { state with link := { state.link with motorReversed := !state.link.motorReversed } }
  | .setSpeedScalarImpl powScl =>
      some { state with link := { state.link with speedScalar := powScl } }
  | .startSpeedControlImpl target => state.startSpeedControlImpl target
  | .setSpeedControllerImpl spdControl => state.setSpeedControllerImpl spdControl
  | .stopSpeedControlImpl => state.stopSpeedControlImpl

end Arithmetic

end LinkState

namespace MotorLink

/-- What a client can ask of a MotorLink. -/
inductive Call (K : Type*) where
  | setSpeed (pow : K)
  | setSpeedForce (pow : K)
  | setEncoder (enc : Option Nat)
  | reverseMotor
  | setSpeedScalar (powScl : K)
  | startSpeedControl (target : K)
  | setSpeedController (spdControl : Option Nat)
  | stopSpeedControl
  | setControlTarget (target : K)

/-- A MotorLink with its CmdProcessor. -/
abbrev Processor (K : Type*) := Server (LinkState K) (Request K)

def setSpeed (processor : Processor K) (pow : K) : Option (Processor K) :=
  processor.state.releaseControl.map fun state =>
    Server.enqueue { processor with state := state } (.setSpeedImpl pow)

/-- The part of a call that runs on the client's thread. -/
def issue (processor : Processor K) : Call K → Option (Processor K)
  | .setSpeed pow => setSpeed processor pow
  | .setSpeedForce pow => some (processor.enqueue (.setSpeedImpl pow))
  | .setEncoder enc => some (processor.enqueue (.setEncoderImpl enc))
  | .reverseMotor => some (processor.enqueue .reverseMotorImpl)
  | .setSpeedScalar powScl => some (processor.enqueue (.setSpeedScalarImpl powScl))
  | .startSpeedControl target => some (processor.enqueue (.startSpeedControlImpl target))
  | .setSpeedController spdControl => some (processor.enqueue (.setSpeedControllerImpl spdControl))
  | .stopSpeedControl => some (processor.enqueue .stopSpeedControlImpl)
  | .setControlTarget target =>
      (processor.state.setControlTarget target).map fun state => { processor with state := state }

end MotorLink

end FrcRobot
