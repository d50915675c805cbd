import FrcRobot.LastWrite
import FrcRobot.Robot

set_option autoImplicit false

/- How Global wires the links, and what the calls and the queue threads leave of
that. -/
namespace FrcRobot.Robot

open ArcadeDrive (Poll SteerHandler)
open Attempt DeferredQueue Interleaving LastWrite MotorLinkPointers PollingScript
open MotorLink (Call Processor)

/-- The powers at which a controller turns its wheel: none, or enough to move it. -/
def TurnPower (pow : ℚ) : Prop := pow = 0 ∨ 2 / 5 ≤ |pow| ∧ -4 / 5 ≤ pow ∧ pow ≤ 8 / 5

/-- The powers that a motor is ever given. Those of the drive's two sides depend on
whether the joystick keeps to its range. -/
def Driven (ranged : Prop) : Motor → ℚ → Prop
  | .rotFR, pow | .rotFL, pow | .rotBk, pow => TurnPower pow
  | .drvFR, pow | .drvFL, pow => ranged → |pow| ≤ 2
  | .drvBk, pow => pow = 0 ∨ pow = 1
  | .mShooter, pow => pow = 0 ∨ pow = -1
  | .mArmRoll, pow | .mArmMove, pow => pow = 1 / 10 ∨ pow = -1 / 10

/-- The requests that a link's queue may hold. -/
def Queued (ranged : Prop) (motor : Motor) : Request ℚ → Prop
  | .startSpeedControlImpl _ => rotates motor = true
  | .setSpeedImpl pow => Driven ranged motor pow
  | _ => False

/-- The calls that the link of a motor is made for. -/
def Suits (ranged : Prop) (motor : Motor) : Call ℚ → Prop
  | .startSpeedControl _ | .setControlTarget _ => rotates motor = true
  | .setSpeedForce pow => rotates motor = true ∧ Driven ranged motor pow
  | .setSpeed pow => rotates motor = false ∧ Driven ranged motor pow
  | _ => False

/-- The speed that a call asks of its link. -/
def callSpeed : Call ℚ → Option (Option ℚ)
  | .setSpeed pow | .setSpeedForce pow => some (some pow)
  | _ => none

def requestSpeed : Request ℚ → Option (Option ℚ)
  | .setSpeedImpl pow => some (some pow)
  | _ => none

/-- The power that is left on the Talon when the queue has been worked off. -/
def comesTo (processor : Processor ℚ) : Option ℚ :=
  lastValue requestSpeed processor.state.link.talon processor.queue

theorem comesTo_enqueue (processor : Processor ℚ) (request : Request ℚ) :
    comesTo (processor.enqueue request) = (requestSpeed request).getD (comesTo processor) :=
  lastValue_append_singleton ..

/-- How Global has wired a link, and what may have happened to it since. -/
structure Wired (ranged : Prop) (motor : Motor) (processor : Processor ℚ) : Prop where
  spdControl : processor.state.link.spdControl = if rotates motor then some 0 else none
  encoder : rotates motor = true → processor.state.link.encoder.isSome = true
  enabled : processor.state.link.spdControlEnabled = true → rotates motor = true
  speedScalar : processor.state.link.speedScalar = 1
  motorReversed : processor.state.link.motorReversed = false
  armed : (processor.state.controls 0).timerArmed = true →
    (processor.state.controls 0).controlledMotor = true
  controlled : (processor.state.controls 0).controlledMotor = true → rotates motor = true
  talon : ∀ pow, processor.state.link.talon = some pow → Driven ranged motor pow
  queue : ∀ request ∈ processor.queue, Queued ranged motor request

/-- No thread but the timer's takes anything away from a controller. -/
structure Onward (processor next : Processor ℚ) : Prop where
  controlled : (processor.state.controls 0).controlledMotor = true →
    (next.state.controls 0).controlledMotor = true
  armed : (processor.state.controls 0).timerArmed = true →
    (next.state.controls 0).timerArmed = true
  enabled : processor.state.link.spdControlEnabled = true →
    next.state.link.spdControlEnabled = true
  newly : next.state.link.spdControlEnabled = true →
    processor.state.link.spdControlEnabled = true ∨ (next.state.controls 0).timerArmed = true

theorem Onward.refl (processor : Processor ℚ) : Onward processor processor :=
  ⟨id, id, id, .inl⟩

theorem wired_initial (ranged : Prop) (motor : Motor) :
    Wired ranged motor ⟨MotorLinkPointers.initial (fun _ => .linearAngleTarget) (fun _ => 0)
      (construction motor), []⟩ := by
  cases motor <;>
    exact ⟨rfl, fun _ => by first | rfl | contradiction, nofun, rfl, rfl, nofun, nofun, nofun,
      nofun⟩

section Wired

variable {ranged : Prop} {motor : Motor} {processor : Processor ℚ}

theorem Wired.enqueue (wired : Wired ranged motor processor) {request : Request ℚ}
    (fits : Queued ranged motor request) :
    Wired ranged motor (processor.enqueue request) := by
  refine { wired with queue := ?_ }
  intro other member
  rcases List.mem_append.mp member with old | new
  · exact wired.queue other old
  · rw [List.mem_singleton.mp new]
    exact fits

/-- The controller may be exchanged for one that has its motor wherever it must. -/
theorem Wired.withControl (wired : Wired ranged motor processor) {control : MotorControl ℚ}
    (same : control.controlledMotor = (processor.state.controls 0).controlledMotor)
    (armed : control.timerArmed = true → control.controlledMotor = true) :
    Wired ranged motor { processor with
      state := MotorLinkPointers.withControl processor.state 0 control } := by
  refine { wired with armed := ?_, controlled := ?_ }
  · simpa [MotorLinkPointers.withControl] using armed
  · simpa [MotorLinkPointers.withControl, same] using wired.controlled

theorem Wired.issue (wired : Wired ranged motor processor) {call : Call ℚ}
    (suits : Suits ranged motor call) :
    ∃ next, MotorLink.issue processor call = some next ∧ Wired ranged motor next ∧
      Onward processor next ∧ comesTo next = (callSpeed call).getD (comesTo processor) := by
  cases call with
  | startSpeedControl target =>
      have queued := wired.enqueue
        (show Queued ranged motor (.startSpeedControlImpl target) from suits)
      exact ⟨_, rfl, queued, ⟨id, id, id, .inl⟩, comesTo_enqueue ..⟩
  | setSpeedForce pow =>
      have queued := wired.enqueue (show Queued ranged motor (.setSpeedImpl pow) from suits.2)
      exact ⟨_, rfl, queued, ⟨id, id, id, .inl⟩, comesTo_enqueue ..⟩
  | setSpeed pow =>
      have released : processor.state.link.spdControlEnabled = false := by
        by_contra enabled
        have turning := wired.enabled (by simpa using enabled)
        exact absurd (turning.symm.trans suits.1) (by decide)
      have queued := wired.enqueue (show Queued ranged motor (.setSpeedImpl pow) from suits.2)
      refine ⟨processor.enqueue (.setSpeedImpl pow), ?_, queued, ⟨id, id, id, .inl⟩,
        comesTo_enqueue ..⟩
      simp only [MotorLink.issue, MotorLink.setSpeed, LinkState.releaseControl, released,
        Bool.false_eq_true, ↓reduceIte, Option.map_some]
  | setControlTarget target =>
      have turning : rotates motor = true := suits
      have attached : processor.state.link.spdControl = some 0 := by
        rw [wired.spdControl, if_pos turning]
      simp only [MotorLink.issue, LinkState.setControlTarget, attached, Option.isNone_some,
        Bool.false_eq_true, ↓reduceIte]
      split
      · exact ⟨_, rfl, wired, .refl processor, rfl⟩
      · rw [callControl_withControl attached]
        refine ⟨_, rfl, wired.withControl rfl wired.armed, ⟨?_, ?_, id, .inl⟩, rfl⟩
        · simp [MotorLinkPointers.withControl, MotorControl.setControlTarget]
        · simp [MotorLinkPointers.withControl, MotorControl.setControlTarget]
  | setEncoder | reverseMotor | setSpeedScalar | setSpeedController | stopSpeedControl =>
      exact suits.elim

theorem Wired.serve (wired : Wired ranged motor processor) (waiting : processor.queue ≠ []) :
    ∃ next, processor.serve LinkState.exec = some next ∧ Wired ranged motor next ∧
      Onward processor next ∧ comesTo next = comesTo processor := by
  obtain ⟨state, queue⟩ := processor
  cases queue with
  | nil => exact absurd rfl waiting
  | cons request rest =>
      have fits := wired.queue request (List.mem_cons_self ..)
      have later : ∀ other ∈ rest, Queued ranged motor other :=
        fun other member => wired.queue other (List.mem_cons_of_mem _ member)
      cases request with
      | setSpeedImpl pow =>
          -- The Talon gets the power as it was asked for.
          have unscaled : state.link.speedScalar = 1 := wired.speedScalar
          have forward : state.link.motorReversed = false := wired.motorReversed
          have plain : (state.setSpeedImpl pow).link.talon = some pow := by
            simp [LinkState.setSpeedImpl, unscaled, forward]
          refine ⟨⟨state.setSpeedImpl pow, rest⟩, rfl, { wired with talon := ?_, queue := later },
            ⟨id, id, id, .inl⟩, ?_⟩
          · intro written same
            rw [plain] at same
            exact Option.some.inj same ▸ fits
          · simp only [comesTo, plain, lastValue_cons, requestSpeed, Option.getD_some]
      | startSpeedControlImpl target =>
          have turning : rotates motor = true := fits
          have attached : state.link.spdControl = some 0 := by
            rw [wired.spdControl, if_pos turning]
          let running := MotorLinkPointers.withControl state 0
            (MotorLinkPointers.started (state.controls 0) target)
          have started : state.startSpeedControlImpl target = some (running.setEnabled true) := by
            rw [LinkState.startSpeedControlImpl, callControl_withControl attached]
            rfl
          have begun :
              running.controls 0 = MotorLinkPointers.started (state.controls 0) target := by
            simp [running, MotorLinkPointers.withControl]
          refine ⟨⟨running.setEnabled true, rest⟩, ?_, ?_, ⟨?_, ?_, fun _ => rfl, fun _ => .inr ?_⟩,
            rfl⟩
          · simp only [Server.serve, LinkState.exec, started, Option.map_some]
          · exact { wired with
              enabled := fun _ => turning
              armed := fun _ => congrArg MotorControl.controlledMotor begun
              controlled := fun _ => turning
              queue := later }
          · exact fun _ => congrArg MotorControl.controlledMotor begun
          · exact fun _ => congrArg MotorControl.timerArmed begun
          · exact congrArg MotorControl.timerArmed begun
      | setEncoderImpl | reverseMotorImpl | setSpeedScalarImpl | setSpeedControllerImpl
      | stopSpeedControlImpl => exact fits.elim

end Wired

end FrcRobot.Robot
