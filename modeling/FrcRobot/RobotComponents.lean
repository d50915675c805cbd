import FrcRobot.CockArmCancel
import FrcRobot.MotorLinkClients
import FrcRobot.RobotRuns

set_option autoImplicit false

/- The robot as it looks to those of its parts that have a model of their own: the
autonomous sequences, the cocking arm and the links without a controller. -/
namespace FrcRobot.Robot

open Attempt DeferredQueue Interleaving
open MotorLink (Call Processor)
open MotorLinkOutput (SpeedCall)

structure Components where
  auto : AutonomousSequences.Parties
  arm : CockArm
  armEnabled : Bool
  begun : Nat
  sent : Nat
  links : Motor → Processor ℚ
  calls : List (Source × Motor × Call ℚ)

def Parties.components (parties : Parties) : Components :=
  ⟨parties.auto, parties.arm, parties.armEnabled, parties.begun, parties.sent, parties.links,
    parties.calls⟩

/-- A call of a link that has got through. -/
def Components.asked (components : Components) (source : Source) (motor : Motor) (call : Call ℚ)
    (processor : Processor ℚ) : Components :=
  { components with
    links := Function.update components.links motor processor
    calls := components.calls ++ [(source, motor, call)] }

/-- The calls of the arm that other threads make. -/
inductive ArmCall where
  | start
  | cancel
  | stopArmCock
  | startArmCock

def ArmCall.apply (arm : CockArm) : ArmCall → CockArm
  | .start => arm.start
  | .cancel => arm.cancel
  | .stopArmCock => arm.stopArmCock
  | .startArmCock => arm.startArmCock

def ArmCall.action : ArmCall → CockArmCancel.Action
  | .start => .start
  | .cancel => .cancel
  | .stopArmCock => .stopArmCock
  | .startArmCock => .startArmCock

/-- The call of a link that a request of an autonomous sequence makes. -/
def linkCall : AutoRequest → Option (Motor × Call ℚ)
  | .setControlTarget motor target => some (motor, .setControlTarget target)
  | .setSpeed motor pow => some (motor, .setSpeed pow)
  | .cockShooterCancel | .cockShooterStart => none

def armCall : AutoRequest → Option ArmCall
  | .cockShooterCancel => some .cancel
  | .cockShooterStart => some .start
  | .setControlTarget _ _ | .setSpeed _ _ => none

/-- All that a step of the robot can mean to these parts. -/
inductive Move (repeats : Bool) (before : Components) : Components → Prop
  | elsewhere : Move repeats before before
  | auto {action : AutonomousSequences.Action} {auto : AutonomousSequences.Parties}
      (taken : AutonomousSequences.step before.auto action = some auto)
      (silent : auto.requests = before.auto.requests) :
      Move repeats before { before with auto := auto }
  | sequenceAsks {action : AutonomousSequences.Action} {auto : AutonomousSequences.Parties}
      {thread : Nat} {request : AutoRequest} {motor : Motor} {call : Call ℚ}
      {processor : Processor ℚ}
      (taken : AutonomousSequences.step before.auto action = some auto)
      (requested : auto.requests = before.auto.requests ++ [(thread, request)])
      (calls : linkCall request = some (motor, call))
      (issued : MotorLink.issue (before.links motor) call = some processor) :
      Move repeats before
        (({ before with auto := auto } : Components).asked (.sequence thread) motor call processor)
  | sequenceCallsArm {action : AutonomousSequences.Action} {auto : AutonomousSequences.Parties}
      {thread : Nat} {request : AutoRequest} {call : ArmCall}
      (taken : AutonomousSequences.step before.auto action = some auto)
      (requested : auto.requests = before.auto.requests ++ [(thread, request)])
      (calls : armCall request = some call) :
      Move repeats before { before with auto := auto, arm := call.apply before.arm }
  | ask {source : Source} {motor : Motor} {call : Call ℚ} {processor : Processor ℚ}
      (notSequence : ∀ thread, source ≠ .sequence thread) (notArm : source ≠ .cockArm)
      (issued : MotorLink.issue (before.links motor) call = some processor) :
      Move repeats before (before.asked source motor call processor)
  | callArm (call : ArmCall) : Move repeats before { before with arm := call.apply before.arm }
  | expireArm (running : before.arm.timerIsRunning = true) :
      Move repeats before { before with
        arm := if repeats then before.arm else before.arm.expire
        begun := before.begun + 1 }
  | armReturns {shooterTSensor : Nat} (waiting : 0 < before.begun)
      (early : before.arm.execute before.armEnabled shooterTSensor = none) :
      Move repeats before { before with begun := before.begun - 1 }
  | armAsks {shooterTSensor : Nat} {speed : ℚ} {processor : Processor ℚ}
      (waiting : 0 < before.begun)
      (asks : before.arm.execute before.armEnabled shooterTSensor = some speed)
      (issued : MotorLink.issue (before.links .mShooter) (.setSpeed speed) = some processor) :
      Move repeats before (({ before with begun := before.begun - 1, sent := before.sent + 1 } :
        Components).asked .cockArm .mShooter (.setSpeed speed) processor)
  | rearmArm (waiting : 0 < before.sent) :
      Move repeats before { before with arm := before.arm.startRelative, sent := before.sent - 1 }
  | control {motor : Motor} (turning : rotates motor = true) (processor : Processor ℚ) :
      Move repeats before { before with links := Function.update before.links motor processor }
  | serve {motor : Motor} {processor : Processor ℚ}
      (served : (before.links motor).serve LinkState.exec = some processor) :
      Move repeats before { before with links := Function.update before.links motor processor }

section Moves

variable {repeats : Bool} {parties next : Parties}

theorem ask_asked {source : Source} {motor : Motor} {call : Call ℚ}
    (taken : parties.ask source motor call = .ok next) :
    ∃ processor, MotorLink.issue (parties.links motor) call = some processor ∧
      next.components = parties.components.asked source motor call processor := by
  obtain ⟨processor, issued, rfl⟩ := ask_ok taken
  exact ⟨processor, issued, rfl⟩

/-- A call by any thread but these two. -/
theorem ask_move {source : Source} {motor : Motor} {call : Call ℚ}
    (taken : parties.ask source motor call = .ok next)
    (notSequence : ∀ thread, source ≠ .sequence thread) (notArm : source ≠ .cockArm) :
    Move repeats parties.components next.components := by
  obtain ⟨processor, issued, same⟩ := ask_asked taken
  exact same ▸ .ask notSequence notArm issued

theorem autoStep_move {action : AutonomousSequences.Action}
    (taken : parties.autoStep action = .ok next) :
    Move repeats parties.components next.components := by
  unfold Parties.autoStep at taken
  split at taken
  · cases taken
  cases stepped : AutonomousSequences.step parties.auto action with
  | none =>
      rw [stepped] at taken
      cases taken
  | some auto =>
      rw [stepped] at taken
      -- A step of a sequence makes one request at most, and a callback none.
      have requests : ∃ request : Option (Nat × AutoRequest),
          auto.requests = parties.auto.requests ++ request.toList := by
        cases action with
        | callback callback =>
            exact ⟨none, by
              rw [(AutonomousSequences.callback_sequences _ _ _ stepped).2]
              exact (List.append_nil _).symm⟩
        | elapse milliseconds =>
            cases stepped
            exact ⟨none, (List.append_nil _).symm⟩
        | advance thread angle =>
            obtain ⟨_, _, _, _, _, _, requested⟩ := AutonomousSequences.step_advance stepped
            exact ⟨_, requested⟩
      obtain ⟨request, requested⟩ := requests
      change (auto.requests.drop parties.auto.requests.length).foldlM Parties.carryOut
        { parties with auto := auto } = .ok next at taken
      rw [requested, List.drop_left] at taken
      cases request with
      | none =>
          cases taken
          exact .auto stepped (requested.trans (List.append_nil _))
      | some entry =>
          obtain ⟨thread, request⟩ := entry
          have carried : ({ parties with auto := auto } : Parties).carryOut (thread, request) =
              .ok next := by
            simpa using taken
          cases request with
          | setControlTarget motor target =>
              obtain ⟨processor, issued, same⟩ := ask_asked carried
              exact same ▸ .sequenceAsks stepped requested rfl issued
          | setSpeed motor pow =>
              obtain ⟨processor, issued, same⟩ := ask_asked carried
              exact same ▸ .sequenceAsks stepped requested rfl issued
          | cockShooterCancel =>
              have called : armCall .cockShooterCancel = some .cancel := rfl
              cases carried
              exact .sequenceCallsArm stepped requested called
          | cockShooterStart =>
              have called : armCall .cockShooterStart = some .start := rfl
              cases carried
              exact .sequenceCallsArm stepped requested called

theorem startSpeedControl_move (taken : parties.startSpeedControl = .ok next) :
    Move repeats parties.components next.components := by
  unfold Parties.startSpeedControl at taken
  split at taken
  · cases taken
  · have moved : Move repeats _ _ := ask_move taken nofun nofun
    exact moved

theorem pollControls_move {joystick : Joystick ℚ} {listeners : List SharedCmd}
    (taken : parties.pollControls joystick listeners = .ok next) :
    Move repeats parties.components next.components := by
  unfold Parties.pollControls at taken
  split at taken
  · dsimp only at taken
    split at taken
    · cases taken
      exact .elsewhere
    · cases taken
  · cases taken

theorem publish_move (taken : parties.publish = .ok next) :
    Move repeats parties.components next.components := by
  unfold Parties.publish at taken
  split at taken
  · cases taken
    exact .elsewhere
  · cases taken
    exact .elsewhere
  · cases taken

theorem invoke_move {listener : SharedCmd} (taken : parties.invoke listener = .ok next) :
    Move repeats parties.components next.components := by
  unfold Parties.invoke at taken
  split at taken
  · cases taken
    exact .elsewhere
  · cases taken
    exact .callArm .cancel
  · cases taken
    exact .callArm .start
  · cases taken
    exact .callArm .stopArmCock
  · cases taken
    exact .callArm .startArmCock
  · have moved : Move repeats _ _ := ask_move taken nofun nofun
    exact moved
  · cases taken
    exact .elsewhere

theorem invokeNext_move (taken : parties.invokeNext = .ok next) :
    Move repeats parties.components next.components := by
  unfold Parties.invokeNext at taken
  split at taken
  · have moved : Move repeats _ _ := invoke_move taken
    exact moved
  · cases taken
    exact .elsewhere
  · cases taken

theorem advance_move (taken : parties.advance = .ok next) :
    Move repeats parties.components next.components := by
  unfold Parties.advance at taken
  split at taken
  · cases taken
  · have moved : Move repeats _ _ := ask_move taken nofun nofun
    exact moved
  · have moved : Move repeats _ _ := ask_move taken nofun nofun
    exact moved
  · rename_i handler _ _ _
    cases read : handler.read parties.values with
    | none =>
        rw [read] at taken
        cases taken
    | some running =>
        rw [read] at taken
        cases taken
        exact .elsewhere

theorem executeArm_move {shooterTSensor : Nat}
    (taken : parties.executeArm shooterTSensor = .ok next) :
    Move repeats parties.components next.components := by
  unfold Parties.executeArm at taken
  split at taken
  · cases taken
  · rename_i some
    have waiting : 0 < parties.begun := Nat.pos_of_ne_zero some
    split at taken
    · rename_i early
      cases taken
      exact .armReturns waiting early
    · rename_i speed asks
      obtain ⟨processor, issued, same⟩ := ask_asked taken
      exact same ▸ .armAsks waiting asks issued

/-- Only the timer thread changes a controller, and only that of a motor that has one. -/
theorem setControl_move {motor : Motor} (turning : rotates motor = true) (control : MotorControl ℚ)
    (ticks : List (Motor × Tick)) : Move repeats parties.components
      ({ parties.setControl motor control with ticks := ticks } : Parties).components :=
  .control turning _

theorem expire_move (inv : Inv False parties.armEnabled (fun _ => False) parties) {motor : Motor}
    (taken : parties.expire repeats motor = .ok next) :
    Move repeats parties.components next.components := by
  unfold Parties.expire at taken
  split at taken
  · rename_i armed
    cases taken
    exact setControl_move ((inv.links motor).controlled ((inv.links motor).armed armed)) _ _
  · cases taken

theorem tick_move (inv : Inv False parties.armEnabled (fun _ => False) parties) {index : Nat}
    {encoderAngle : ℚ} (taken : parties.tick index encoderAngle = .ok next) :
    Move repeats parties.components next.components := by
  unfold Parties.tick at taken
  split at taken
  · cases taken
  · rename_i motor under
    have controlled := (inv.ticks _ (List.mem_of_getElem? under)).1
    cases taken
    exact setControl_move ((inv.links motor).controlled controlled) _ _
  · rename_i motor step notSent under
    dsimp only at taken
    split at taken
    · cases step with
      | expired =>
          dsimp only at taken
          split at taken
          · have moved : Move repeats _ _ := ask_move taken nofun nofun
            exact moved
          · cases taken
            exact .elsewhere
      | stepping =>
          cases taken
          exact .elsewhere
      | aiming error =>
          have moved : Move repeats _ _ := ask_move taken nofun nofun
          exact moved
      | sent => cases taken
    · cases taken

theorem serve_move {motor : Motor} (taken : parties.serve motor = .ok next) :
    Move repeats parties.components next.components := by
  unfold Parties.serve at taken
  split at taken
  · cases taken
  · cases served : (parties.links motor).serve LinkState.exec with
    | none =>
        rw [served] at taken
        cases taken
    | some processor =>
        rw [served] at taken
        cases taken
        exact .serve served

theorem perform_move (inv : Inv False parties.armEnabled (fun _ => False) parties) {action : Action}
    (taken : perform repeats parties action = .ok next) :
    Move repeats parties.components next.components := by
  cases action with
  | auto action => exact autoStep_move taken
  | startSpeedControl => exact startSpeedControl_move taken
  | pollControls joystick listeners => exact pollControls_move taken
  | publish => exact publish_move taken
  | invoke => exact invokeNext_move taken
  | steerHandler =>
      simp only [perform] at taken
      split at taken
      · cases taken
        exact .elsewhere
      · cases taken
  | advance => exact advance_move taken
  | expireArm =>
      simp only [perform] at taken
      split at taken
      · rename_i running
        cases taken
        exact .expireArm running
      · cases taken
  | executeArm shooterTSensor => exact executeArm_move taken
  | rearmArm =>
      simp only [perform] at taken
      split at taken
      · rename_i waiting
        cases taken
        exact .rearmArm waiting
      · cases taken
  | expire motor => exact expire_move inv taken
  | tick index encoderAngle => exact tick_move inv taken
  | serve motor => exact serve_move taken

end Moves

end FrcRobot.Robot
