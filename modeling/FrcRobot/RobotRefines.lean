import FrcRobot.CockArmTimer
import FrcRobot.RobotComponents

set_option autoImplicit false

/- Each of these parts of the robot goes through a run of the model of its own, and
what the autonomous sequences ask for arrives. -/
namespace FrcRobot.Robot

open Attempt DeferredQueue Interleaving LastWrite
open CockArmTimer (loopStep)
open MotorLink (Call Processor)
open MotorLinkOutput (SpeedCall)

/-- The calls that change only speeds. -/
def speedCall : Call ℚ → Option (SpeedCall ℚ)
  | .setSpeed pow => some (.setSpeed pow)
  | .setSpeedForce pow => some (.setSpeedForce pow)
  | .reverseMotor => some .reverseMotor
  | .setSpeedScalar powScl => some (.setSpeedScalar powScl)
  | _ => none

/-- The calls that one thread has made of one link, in their order. -/
def program (calls : List (Source × Motor × Call ℚ)) (motor : Motor) (source : Source) :
    List (SpeedCall ℚ) :=
  calls.filterMap fun entry =>
    if entry.1 = source ∧ entry.2.1 = motor then speedCall entry.2.2 else none

/-- The speed that the arm's timer has asked for last. -/
def armSpeed (calls : List (Source × Motor × Call ℚ)) : Option ℚ :=
  lastValue (fun entry => if entry.1 = .cockArm then callSpeed entry.2.2 else none) none calls

def sequenceCalls (calls : List (Source × Motor × Call ℚ)) : List (Nat × Motor × Call ℚ) :=
  calls.filterMap fun entry =>
    match entry.1 with
    | .sequence thread => some (thread, entry.2)
    | _ => none

def requestedCalls (requests : List (Nat × AutoRequest)) : List (Nat × Motor × Call ℚ) :=
  requests.filterMap fun entry => (linkCall entry.2).map fun call => (entry.1, call)

def assembledLink (motor : Motor) : Processor ℚ :=
  ⟨MotorLinkPointers.initial (fun _ => .linearAngleTarget) (fun _ => 0) (construction motor), []⟩

def assembledArm (armEnabled : Bool) : CockArmCancel.Parties :=
  ⟨⟨true, false⟩, armEnabled, 0, 0, none, false, 0⟩

/-- The arm as its own model has it. -/
structure SameArm (components : Components) (twin : CockArmCancel.Parties) : Prop where
  arm : twin.arm = components.arm
  armEnabled : twin.armEnabled = components.armEnabled
  begun : twin.begun = components.begun
  sent : twin.sent = components.sent
  requested : twin.requested = armSpeed components.calls

/-- The link has done nothing but the calls of its clients. -/
def LinkRuns (components : Components) (motor : Motor) : Prop :=
  Reaches MotorLinkClients.step ⟨program components.calls motor, assembledLink motor⟩
    ⟨fun _ => [], components.links motor⟩

structure Refines (repeats : Bool) (alliance : Alliance) (armEnabled : Bool)
    (components : Components) : Prop where
  auto : Reaches AutonomousSequences.step (AutonomousSequences.initial alliance) components.auto
  arm : ∃ twin, Reaches (loopStep repeats) (assembledArm armEnabled) twin ∧
    SameArm components twin
  links : ∀ motor, rotates motor = false → LinkRuns components motor
  requests : sequenceCalls components.calls = requestedCalls components.auto.requests

section Calls

variable {components : Components} {source : Source} {motor : Motor} {call : Call ℚ}
  {processor : Processor ℚ}

theorem program_append (calls : List (Source × Motor × Call ℚ)) (other : Motor) :
    program (calls ++ [(source, motor, call)]) other = fun thread => program calls other thread ++
      if source = thread ∧ motor = other then (speedCall call).toList else [] := by
  funext thread
  unfold program
  rw [List.filterMap_append]
  by_cases here : source = thread ∧ motor = other
  · cases speed : speedCall call <;> simp [here, speed]
  · simp [here]

theorem armSpeed_append (calls : List (Source × Motor × Call ℚ)) :
    armSpeed (calls ++ [(source, motor, call)]) =
      (if source = .cockArm then callSpeed call else none).getD (armSpeed calls) :=
  lastValue_append_singleton ..

theorem sequenceCalls_append (calls : List (Source × Motor × Call ℚ)) :
    sequenceCalls (calls ++ [(source, motor, call)]) = sequenceCalls calls ++
      match source with
      | .sequence thread => [(thread, motor, call)]
      | _ => [] := by
  unfold sequenceCalls
  rw [List.filterMap_append]
  cases source <;> rfl

theorem requestedCalls_append (requests : List (Nat × AutoRequest)) (thread : Nat)
    (request : AutoRequest) :
    requestedCalls (requests ++ [(thread, request)]) = requestedCalls requests ++
      ((linkCall request).map fun call => (thread, call)).toList := by
  unfold requestedCalls
  rw [List.filterMap_append]
  cases request <;> rfl

theorem linkCall_of_armCall {request : AutoRequest} {call : ArmCall}
    (calls : armCall request = some call) : linkCall request = none := by
  cases request with
  | setControlTarget | setSpeed => cases calls
  | cockShooterCancel | cockShooterStart => rfl

/-- A link without a controller is only asked for speeds. -/
theorem LinkRuns.asked {other : Motor} (runs : LinkRuns components other)
    (plain : rotates other = false)
    (issued : MotorLink.issue (components.links motor) call = some processor)
    (suits : Suits False motor call) :
    LinkRuns (components.asked source motor call processor) other := by
  by_cases same : motor = other
  · subst same
    -- Of all the calls only setSpeed is made of such a link.
    have speeds : ∃ pow, call = .setSpeed pow := by
      cases call with
      | setSpeed pow => exact ⟨pow, rfl⟩
      | startSpeedControl | setControlTarget =>
          exact absurd (plain.symm.trans suits) Bool.false_ne_true
      | setSpeedForce => exact absurd (plain.symm.trans suits.1) Bool.false_ne_true
      | _ => exact suits.elim
    obtain ⟨pow, rfl⟩ := speeds
    let more : Source → List (SpeedCall ℚ) := fun thread =>
      if source = thread then [.setSpeed pow] else []
    have extended : Reaches MotorLinkClients.step
        ⟨fun thread => program components.calls motor thread ++ more thread, assembledLink motor⟩
        ⟨more, components.links motor⟩ :=
      runs.simulates fun _ _ _ taken => MotorLinkClients.step_extended more taken
    have called : MotorLinkClients.step ⟨more, components.links motor⟩ (.call source) =
        some ⟨fun _ => [], processor⟩ := by
      have first : more source = [.setSpeed pow] := if_pos rfl
      have done : Function.update more source [] = fun _ => [] := by
        funext thread
        by_cases caller : thread = source
        · rw [caller, Function.update_self]
        · rw [Function.update_of_ne caller]
          exact if_neg (Ne.symm caller)
      simp only [MotorLinkClients.step, first, SpeedCall.call, issued, Option.map_some, done]
    unfold LinkRuns Components.asked
    dsimp only
    rw [program_append, Function.update_self]
    simp only [and_true, speedCall, Option.toList_some]
    exact extended.extend called
  · unfold LinkRuns Components.asked
    dsimp only
    rw [program_append, Function.update_of_ne (Ne.symm same)]
    simp only [same, and_false, if_false, List.append_nil]
    exact runs

end Calls

section Arm

variable {repeats : Bool} {components : Components} {twin : CockArmCancel.Parties}

theorem SameArm.asked (same : SameArm components twin) {source : Source} (motor : Motor)
    (call : Call ℚ) (processor : Processor ℚ) (notArm : source ≠ .cockArm) :
    SameArm (components.asked source motor call processor) twin := by
  refine { same with requested := ?_ }
  show twin.requested = armSpeed (components.calls ++ [(source, motor, call)])
  rw [armSpeed_append, if_neg notArm, Option.getD_none, same.requested]

theorem SameArm.callArm (same : SameArm components twin) (call : ArmCall) :
    ∃ next, loopStep repeats twin call.action = some next ∧
      SameArm { components with arm := call.apply components.arm } next := by
  have applied : call.apply twin.arm = call.apply components.arm := by rw [same.arm]
  cases call <;> exact ⟨_, rfl, { same with arm := applied }⟩

theorem SameArm.expire (same : SameArm components twin)
    (running : components.arm.timerIsRunning = true) :
    ∃ next, loopStep repeats twin .expire = some next ∧
      SameArm { components with
        arm := if repeats then components.arm else components.arm.expire
        begun := components.begun + 1 } next := by
  refine ⟨_, if_pos (same.arm ▸ running), { same with arm := ?_, begun := ?_ }⟩
  · rw [same.arm]
  · rw [same.begun]

theorem SameArm.returns (same : SameArm components twin) {shooterTSensor : Nat}
    (waiting : 0 < components.begun)
    (early : components.arm.execute components.armEnabled shooterTSensor = none) :
    ∃ next, loopStep repeats twin (.execute shooterTSensor) = some next ∧
      SameArm { components with begun := components.begun - 1 } next := by
  refine ⟨{ twin with begun := twin.begun - 1 }, ?_, { same with begun := ?_ }⟩
  · rw [CockArmTimer.loopStep_execute, CockArmCancel.step, if_pos (same.begun ▸ waiting), same.arm,
      same.armEnabled, early]
  · rw [same.begun]

theorem SameArm.asks (same : SameArm components twin) {shooterTSensor : Nat} {speed : ℚ}
    (waiting : 0 < components.begun)
    (asks : components.arm.execute components.armEnabled shooterTSensor = some speed)
    (processor : Processor ℚ) :
    ∃ next, loopStep repeats twin (.execute shooterTSensor) = some next ∧
      SameArm (({ components with begun := components.begun - 1, sent := components.sent + 1 } :
        Components).asked .cockArm .mShooter (.setSpeed speed) processor) next := by
  refine ⟨{ twin with begun := twin.begun - 1, sent := twin.sent + 1, requested := some speed }, ?_,
    { same with begun := ?_, sent := ?_, requested := ?_ }⟩
  · rw [CockArmTimer.loopStep_execute, CockArmCancel.step, if_pos (same.begun ▸ waiting), same.arm,
      same.armEnabled, asks]
  · show twin.begun - 1 = components.begun - 1
    rw [same.begun]
  · show twin.sent + 1 = components.sent + 1
    rw [same.sent]
  · show some speed = armSpeed (components.calls ++ [(.cockArm, .mShooter, .setSpeed speed)])
    rw [armSpeed_append]
    rfl

theorem SameArm.rearm (same : SameArm components twin) (waiting : 0 < components.sent) :
    ∃ next, loopStep repeats twin .rearm = some next ∧
      SameArm { components with
        arm := components.arm.startRelative, sent := components.sent - 1 } next := by
  refine ⟨_, if_pos (same.sent ▸ waiting), { same with arm := ?_, sent := ?_ }⟩
  · rw [same.arm]
  · rw [same.sent]

end Arm

section Run

variable {alliance : Alliance} {armEnabled repeats : Bool} {before after : Components}

/-- The arm's own model takes a step, and nothing else has changed. -/
theorem Refines.arm_step (refines : Refines repeats alliance armEnabled before)
    {action : CockArmCancel.Action}
    (matched : ∀ twin, SameArm before twin →
      ∃ next, loopStep repeats twin action = some next ∧ SameArm after next) :
    ∃ twin, Reaches (loopStep repeats) (assembledArm armEnabled) twin ∧ SameArm after twin := by
  obtain ⟨twin, reached, same⟩ := refines.arm
  obtain ⟨next, taken, kept⟩ := matched twin same
  exact ⟨next, reached.extend taken, kept⟩

theorem Refines.arm_kept (refines : Refines repeats alliance armEnabled before)
    (kept : ∀ twin, SameArm before twin → SameArm after twin) :
    ∃ twin, Reaches (loopStep repeats) (assembledArm armEnabled) twin ∧ SameArm after twin :=
  refines.arm.imp fun twin reached => ⟨reached.1, kept twin reached.2⟩

theorem Refines.move (refines : Refines repeats alliance armEnabled before)
    (moved : Move repeats before after)
    (suits : ∀ entry ∈ after.calls, Suits False entry.2.1 entry.2.2) :
    Refines repeats alliance armEnabled after := by
  cases moved with
  | elsewhere => exact refines
  | auto taken silent =>
      refine ⟨refines.auto.extend taken, ?_, refines.links, ?_⟩
      · exact refines.arm_kept fun _ same => { same with }
      · rw [silent]
        exact refines.requests
  | @sequenceAsks _ auto thread _ motor call processor taken requested calls issued =>
      have fits := suits (.sequence thread, motor, call)
        (List.mem_append_right _ (List.mem_singleton_self _))
      refine ⟨refines.auto.extend taken, ?_, ?_, ?_⟩
      · have unnoticed : ∀ twin, SameArm before twin → SameArm { before with auto := auto } twin :=
          fun _ same => { same with }
        exact refines.arm_kept fun twin same =>
          (unnoticed twin same).asked motor call processor nofun
      · exact fun other plain => (refines.links other plain).asked plain issued fits
      · show sequenceCalls (before.calls ++ [(.sequence thread, motor, call)]) =
          requestedCalls auto.requests
        rw [sequenceCalls_append, refines.requests, requested, requestedCalls_append, calls]
        rfl
  | @sequenceCallsArm _ auto thread request call taken requested calls =>
      refine ⟨refines.auto.extend taken, ?_, refines.links, ?_⟩
      · have unnoticed : ∀ twin, SameArm before twin → SameArm { before with auto := auto } twin :=
          fun _ same => { same with }
        exact refines.arm_step fun twin same => (unnoticed twin same).callArm call
      · show sequenceCalls before.calls = requestedCalls auto.requests
        rw [refines.requests, requested, requestedCalls_append, linkCall_of_armCall calls]
        exact (List.append_nil _).symm
  | @ask source motor call processor notSequence notArm issued =>
      have fits := suits (source, motor, call)
        (List.mem_append_right _ (List.mem_singleton_self _))
      refine ⟨refines.auto, ?_, ?_, ?_⟩
      · exact refines.arm_kept fun _ same => same.asked motor call processor notArm
      · exact fun other plain => (refines.links other plain).asked plain issued fits
      · show sequenceCalls (before.calls ++ [(source, motor, call)]) = _
        rw [sequenceCalls_append, refines.requests]
        cases source with
        | sequence thread => exact absurd rfl (notSequence thread)
        | _ => exact List.append_nil _
  | callArm call =>
      exact { refines with arm := refines.arm_step fun _ same => same.callArm call }
  | expireArm running =>
      exact { refines with arm := refines.arm_step fun _ same => same.expire running }
  | armReturns waiting early =>
      exact { refines with arm := refines.arm_step fun _ same => same.returns waiting early }
  | @armAsks _ speed processor waiting asks issued =>
      have fits := suits (.cockArm, .mShooter, .setSpeed speed)
        (List.mem_append_right _ (List.mem_singleton_self _))
      refine ⟨refines.auto, ?_, ?_, ?_⟩
      · exact refines.arm_step fun _ same => same.asks waiting asks processor
      · exact fun other plain => (refines.links other plain).asked plain issued fits
      · show sequenceCalls (before.calls ++ [(.cockArm, .mShooter, .setSpeed speed)]) = _
        rw [sequenceCalls_append, List.append_nil]
        exact refines.requests
  | rearmArm waiting =>
      exact { refines with arm := refines.arm_step fun _ same => same.rearm waiting }
  | @control motor turning processor =>
      refine ⟨refines.auto, refines.arm_kept fun _ same => { same with }, fun other plain => ?_,
        refines.requests⟩
      have apart : other ≠ motor := by
        rintro rfl
        exact absurd (plain.symm.trans turning) Bool.false_ne_true
      unfold LinkRuns
      dsimp only
      rw [Function.update_of_ne apart]
      exact refines.links other plain
  | @serve motor processor served =>
      refine ⟨refines.auto, refines.arm_kept fun _ same => { same with }, fun other plain => ?_,
        refines.requests⟩
      unfold LinkRuns
      dsimp only
      by_cases same : other = motor
      · subst same
        rw [Function.update_self]
        have taken : MotorLinkClients.step ⟨fun _ : Source => [], before.links other⟩ .serve =
            some ⟨fun _ => [], processor⟩ := by
          simp only [MotorLinkClients.step, served, Option.map_some]
        exact Reaches.extend (refines.links other plain) taken
      · rw [Function.update_of_ne same]
        exact refines.links other plain

theorem refines_initial (alliance : Alliance) (armEnabled : Bool) :
    Refines repeats alliance armEnabled (initial alliance armEnabled).components where
  auto := .refl _
  arm := ⟨assembledArm armEnabled, .refl _, ⟨rfl, rfl, rfl, rfl, rfl⟩⟩
  links _ _ := .refl _
  requests := rfl

theorem Refines.reach {parties : Parties} {actions : List Action}
    (taken : run (step (perform repeats)) (initial alliance armEnabled) actions = some parties) :
    Refines repeats alliance armEnabled parties.components := by
  have both : Inv False armEnabled (fun _ => False) parties ∧
      Refines repeats alliance armEnabled parties.components := by
    refine run_invariant
      (fun parties => Inv False armEnabled (fun _ => False) parties ∧
        Refines repeats alliance armEnabled parties.components) ?_
      ⟨inv_initial False alliance armEnabled, refines_initial alliance armEnabled⟩ taken
    rintro state action next ⟨inv, refines⟩ first
    have kept : Inv False armEnabled (fun _ => False) next := (inv.act nofun).of_step first
    have options : Inv False state.armEnabled (fun _ => False) state := by
      rw [inv.options]
      exact inv
    refine ⟨kept, refines.move (perform_move options (step_iff.mp first)) ?_⟩
    exact fun entry member => (kept.calls entry member).suits
  exact both.2

end Run

variable (alliance : Alliance) (armEnabled repeats : Bool) (actions : List Action) (last : Parties)

/-- A sequence has asked for its first target. -/
def aiming : List Action :=
  [.auto (.callback .autonomousInit), .auto (.advance 0 0), .auto (.advance 0 0)]

end FrcRobot.Robot
