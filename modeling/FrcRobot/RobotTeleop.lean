import FrcRobot.RobotDrive
import FrcRobot.RobotRefines

set_option autoImplicit false

/- In teleop the drive follows the stick. -/
namespace FrcRobot.Robot

open ArcadeDrive (KeepsSteering Registered deadband)
open Attempt Interleaving LastWrite
open MotorLink (Processor SpeedsOnly)

section Mode

variable {auto next : AutonomousSequences.Parties}

theorem advance_robot {thread : Nat} {angle : ℚ}
    (taken : AutonomousSequences.step auto (.advance thread angle) = some next) :
    next.robot.autonomousHasBeenInit = auto.robot.autonomousHasBeenInit ∧
      next.robot.teleopHasBeenInit = auto.robot.teleopHasBeenInit := by
  simp only [AutonomousSequences.step] at taken
  split at taken
  · cases taken
  · obtain ⟨⟨emitted, later⟩, _, rfl⟩ := Option.map_eq_some_iff.mp taken
    cases emitted with
    | none => exact ⟨rfl, rfl⟩
    | some command => cases command <;> exact ⟨rfl, rfl⟩

/-- Only the callbacks change the mode and the table. -/
theorem mode_step {mode : Option RobotTemplate.Callback} (inv : RobotTemplate.Inv mode auto.robot)
    {action : AutonomousSequences.Action}
    (taken : AutonomousSequences.step auto action = some next) :
    ∃ later, RobotTemplate.Inv later next.robot ∧
      (action ≠ .callback .autonomousInit → mode = some .teleopInit →
        later = some .teleopInit) := by
  cases action with
  | callback callback =>
      cases taken
      refine ⟨_, inv.call callback, fun stays teleop => ?_⟩
      cases callback with
      | robotInit | disabledInit => exact teleop
      | autonomousInit => exact absurd rfl stays
      | teleopInit => rfl
  | elapse milliseconds =>
      cases taken
      exact ⟨mode, inv, fun _ teleop => teleop⟩
  | advance thread angle =>
      obtain ⟨autonomous, teleop⟩ := advance_robot taken
      refine ⟨mode, ⟨autonomous.trans inv.autonomous, teleop.trans inv.teleop, ?_⟩, fun _ => id⟩
      rw [(advance_global taken).1]
      exact inv.table

theorem mode_reached {alliance : Alliance}
    (reaches : Reaches AutonomousSequences.step (AutonomousSequences.initial alliance) auto) :
    ∃ mode, RobotTemplate.Inv mode auto.robot := by
  obtain ⟨actions, taken⟩ := reaches
  refine run_invariant (fun auto => ∃ mode, RobotTemplate.Inv mode auto.robot) ?_
    ⟨none, RobotTemplate.initial_inv alliance⟩ taken
  rintro state action later ⟨mode, inv⟩ first
  exact (mode_step inv first).imp fun _ kept => kept.1

/-- Both axes of the stick are bound to steer. -/
theorem registered_teleop {robot : RobotTemplate}
    (inv : RobotTemplate.Inv (some .teleopInit) robot) :
    Registered callsSteer robot.global.listeners := by
  have table := inv.table
  rw [if_pos rfl] at table
  intro key axis
  have bound : (key, BoundCall.steer) ∈ Global.boundCalls robot.global.listeners := by
    rw [table.calls, Multiset.mem_coe]
    simp only [List.mem_cons, List.not_mem_nil, or_false] at axis
    rcases axis with rfl | rfl <;> simp [Global.teleopBindings]
  obtain ⟨entry, member, same⟩ := Multiset.mem_map.mp bound
  obtain ⟨same, steers⟩ := Prod.mk.inj same
  exact ⟨entry, member, same, decide_eq_true steers⟩

end Mode

/-- What a poll shows of an axis of the joystick. -/
def shown (axis : Fin 16) : Action → Option ℚ
  | .pollControls joystick _ => some ((ListenerManager.pollControls joystick).axisAt axis)
  | _ => none

/-- Where the stick stands along an axis after the polls among these actions. -/
def stick (axis : Fin 16) (start : ℚ) (actions : List Action) : ℚ :=
  lastValue (shown axis) start actions

section Published

variable {parties next : ArcadeDrive.Parties ℚ SharedCmd}

/-- What an axis is going to be when all of the snapshot has been published. -/
def coming (parties : ArcadeDrive.Parties ℚ SharedCmd) (axis : Fin 16) : ℚ :=
  match parties.poll with
  | .publishing newValues _ _ => newValues.axisAt axis
  | _ => parties.values.axisAt axis

/-- The axes that are not still to be published have been. -/
def Published (parties : ArcadeDrive.Parties ℚ SharedCmd) : Prop :=
  ∀ newValues rest listeners, parties.poll = .publishing newValues rest listeners →
    ∀ axis, axis ∉ rest → parties.values.axisAt axis = newValues.axisAt axis

def shownBy (axis : Fin 16) : ArcadeDrive.Action ℚ SharedCmd → Option ℚ
  | .pollControls _ joystick _ => some ((ListenerManager.pollControls joystick).axisAt axis)
  | _ => none

theorem published_calm (calm : ∀ newValues rest listeners,
    parties.poll ≠ .publishing newValues rest listeners) : Published parties :=
  fun newValues rest listeners same => absurd same (calm newValues rest listeners)

theorem Published.step {action : ArcadeDrive.Action ℚ SharedCmd} (published : Published parties)
    (taken : ArcadeDrive.step callsSteer parties action = some next) :
    Published next ∧
      ∀ axis, coming next axis = (shownBy axis action).getD (coming parties axis) := by
  cases action with
  | pollControls table joystick listeners =>
      simp only [ArcadeDrive.step, ListenerManager.cycle_values] at taken
      split at taken
      · split at taken
        · cases taken
          refine ⟨?_, fun _ => rfl⟩
          rintro _ _ _ ⟨⟩ axis missing
          exact absurd (List.mem_finRange axis) missing
        · cases taken
      · cases taken
  | publish =>
      simp only [ArcadeDrive.step] at taken
      split at taken
      · rename_i newValues counter rest listeners publishing
        cases taken
        refine ⟨?_, fun axis => ?_⟩
        · rintro _ _ _ ⟨⟩ axis missing
          show (parties.values.setAxis counter _).axisAt axis = _
          rw [ControlValues.setAxis_axisAt]
          split
          · rename_i here
            rw [here]
          · rename_i elsewhere
            have before := published newValues (counter :: rest) listeners publishing axis
            exact before (List.not_mem_cons_of_ne_of_not_mem (Ne.symm elsewhere) missing)
        · simp only [coming, publishing, shownBy, Option.getD_none]
      · rename_i newValues listeners publishing
        cases taken
        refine ⟨published_calm (by simp), fun axis => ?_⟩
        have done := published newValues [] listeners publishing axis List.not_mem_nil
        simp only [coming, publishing, shownBy, Option.getD_none, done]
      · cases taken
  | invoke =>
      have polled : (∀ newValues rest listeners,
          next.poll ≠ .publishing newValues rest listeners) ∧
          ∀ axis, coming next axis = coming parties axis := by
        simp only [ArcadeDrive.step] at taken
        split at taken
        · rename_i invoking
          split at taken <;> cases taken <;> simp [coming, invoking]
        · rename_i invoking
          cases taken
          simp [coming, invoking]
        · cases taken
      exact ⟨published_calm polled.1, polled.2⟩
  | steerHandler =>
      simp only [ArcadeDrive.step] at taken
      split at taken
      · cases taken
        exact ⟨published, fun _ => rfl⟩
      · cases taken
  | advance =>
      simp only [ArcadeDrive.step, ArcadeDrive.Parties.advance] at taken
      split at taken
      · cases taken
      · obtain ⟨_, _, rfl⟩ := Option.map_eq_some_iff.mp taken
        exact ⟨published, fun _ => rfl⟩
      · obtain ⟨_, _, rfl⟩ := Option.map_eq_some_iff.mp taken
        exact ⟨published, fun _ => rfl⟩
      · obtain ⟨_, _, rfl⟩ := Option.map_eq_some_iff.mp taken
        exact ⟨published, fun _ => rfl⟩
  | serveLeft | serveRight =>
      obtain ⟨_, _, rfl⟩ := Option.map_eq_some_iff.mp taken
      exact ⟨published, fun _ => rfl⟩

end Published

theorem Wired.plain {ranged : Prop} {motor : Motor} {processor : Processor ℚ}
    (wired : Wired ranged motor processor) : Plain processor.state :=
  ⟨wired.speedScalar, wired.motorReversed⟩

/-- A link without a controller is only sent speeds. -/
theorem Wired.speedsOnly {ranged : Prop} {motor : Motor} {processor : Processor ℚ}
    (wired : Wired ranged motor processor) (plain : rotates motor = false) :
    SpeedsOnly processor.state processor := by
  refine ⟨?_, rfl, rfl, ?_⟩
  · by_contra enabled
    have turning := wired.enabled (by simpa using enabled)
    exact absurd (turning.symm.trans plain) (by decide)
  · intro request member
    have queued := wired.queue request member
    cases request with
    | setSpeedImpl pow => exact ⟨pow, rfl⟩
    | startSpeedControlImpl target => exact absurd (plain.symm.trans queued) (by decide)
    | setEncoderImpl | reverseMotorImpl | setSpeedScalarImpl | setSpeedControllerImpl
    | stopSpeedControlImpl => exact queued.elim

/-- The drive is idle, between two polls. -/
structure DriveIdle (parties : Parties) : Prop where
  poll : parties.poll = .waiting
  steers : parties.steers = 0
  handler : parties.handler = none

section Kept

variable {armEnabled repeats : Bool} {left right : LinkState ℚ}
  {start : ArcadeDrive.Parties ℚ SharedCmd} {middle parties next : Parties}

/-- What the drive's pipeline keeps, in the robot that is in teleop. -/
structure Pipeline (left right : LinkState ℚ) (start parties : ArcadeDrive.Parties ℚ SharedCmd) :
    Prop where
  inv : ArcadeDrive.Inv callsSteer left right parties
  untouched : parties.dispatched = false → Untouched start parties
  published : Published parties

/-- The robot has stayed in teleop since a moment at which its drive was idle. -/
structure Driving (armEnabled : Bool) (middle parties : Parties) : Prop where
  inv : Inv False armEnabled (fun _ => False) parties
  teleop : RobotTemplate.Inv (some .teleopInit) parties.auto.robot
  pipeline : ∃ dispatched, Pipeline (middle.links .drvFL).state (middle.links .drvFR).state
    (middle.drive false) (parties.drive dispatched)

theorem Pipeline.run (plainLeft : Plain left) (plainRight : Plain right)
    {before after : ArcadeDrive.Parties ℚ SharedCmd} (pipeline : Pipeline left right start before)
    {labels : List (ArcadeDrive.Action ℚ SharedCmd)}
    (keeps : ∀ entry ∈ labels, KeepsSteering callsSteer entry)
    (ran : Interleaving.run (ArcadeDrive.step callsSteer) before labels = some after) :
    Pipeline left right start after ∧ ∀ axis, coming after axis =
      lastValue (shownBy axis) (coming before axis) labels := by
  have along : Along (ArcadeDrive.step callsSteer) (fun _ => KeepsSteering callsSteer) before
      labels :=
    Along.of_forall (fun entry member _ => keeps entry member) before
  have step : ∀ state entry next, Pipeline left right start state →
      KeepsSteering callsSteer entry → ArcadeDrive.step callsSteer state entry = some next →
      Pipeline left right start next := fun _ _ _ kept keeps taken =>
    ⟨kept.inv.step keeps taken, Untouched.step kept.inv plainLeft plainRight kept.untouched taken,
      (kept.published.step taken).1⟩
  refine ⟨run_invariant_along _ step pipeline along ran, fun axis => ?_⟩
  refine run_foldl (coming · axis) (fun value entry => (shownBy axis entry).getD value)
    (Pipeline left right start) ?_ pipeline along ran
  exact fun state entry next kept keeps taken =>
    ⟨step state entry next kept keeps taken, (kept.published.step taken).2 axis⟩

theorem shown_driveLabel (axis : Fin 16) (parties : Parties) (action : Action) (value : ℚ) :
    lastValue (shownBy axis) value (driveLabel parties action).toList =
      (shown axis action).getD value := by
  cases action with
  | serve motor =>
      simp only [driveLabel]
      split
      · rfl
      · split <;> rfl
  | _ => rfl

theorem driveLabel_keeps (registered : Registered callsSteer parties.auto.robot.global.listeners)
    (action : Action) :
    ∀ entry ∈ (driveLabel parties action).toList, KeepsSteering callsSteer entry := by
  intro entry member
  have label : driveLabel parties action = some entry := Option.mem_toList.mp member
  cases entry with
  | pollControls table joystick listeners =>
      cases action with
      | pollControls =>
          cases label
          exact registered
      | serve motor =>
          simp only [driveLabel] at label
          split at label
          · cases label
          · split at label <;> cases label
      | _ => cases label
  | publish | invoke | steerHandler | advance | serveLeft | serveRight => trivial

/-- A step of the robot, as far as the drive is concerned. -/
theorem Driving.step (plain : Inv False armEnabled (fun _ => False) middle)
    (driving : Driving armEnabled middle parties) {action : Action}
    (leaves : LeavesDrive parties action) (taken : perform repeats parties action = .ok next) :
    Driving armEnabled middle next ∧ ∀ axis, coming (next.drive false) axis =
      (shown axis action).getD (coming (parties.drive false) axis) := by
  have kept : Inv False armEnabled (fun _ => False) next :=
    (driving.inv.act nofun).of_step (step_iff.mpr taken)
  obtain ⟨dispatched, pipeline⟩ := driving.pipeline
  by_cases auto : ∃ auto, action = .auto auto
  · obtain ⟨auto, rfl⟩ := auto
    obtain ⟨stepped, unnoticed⟩ := autoStep_apart driving.inv leaves taken
    obtain ⟨mode, moded, stays⟩ := mode_step driving.teleop stepped
    refine ⟨⟨kept, stays leaves.1 rfl ▸ moded, dispatched, ?_⟩, fun axis => ?_⟩
    · rw [unnoticed]
      exact pipeline
    · rw [unnoticed]
      rfl
  · have matched := drive_matched driving.inv (fun other same => auto ⟨other, same⟩) taken
    have keeps := driveLabel_keeps (registered_teleop driving.teleop) action
    obtain ⟨later, ran⟩ := matched.ran dispatched
    obtain ⟨runs, comes⟩ := pipeline.run (plain.links .drvFL).plain (plain.links .drvFR).plain keeps
      ran
    refine ⟨⟨kept, matched.auto ▸ driving.teleop, later, runs⟩, fun axis => ?_⟩
    exact (comes axis).trans (shown_driveLabel axis parties action _)

end Kept

/-- The drive's two sides have been given the speeds that a stick at this place calls
for: with y negated, the left one x - y and the right one x + y, where values up to a
fifth count as zero. -/
def FollowsStick (parties : Parties) (x y : ℚ) : Prop :=
  (parties.links .drvFL).state.link.talon = some (deadband x - -deadband y) ∧
    (parties.links .drvFR).state.link.talon = some (deadband x + -deadband y)

/-- Neither the stick has moved nor has anything else been asked of the two sides. -/
def Unmoved (middle last : Parties) (x y : ℚ) : Prop :=
  x = middle.values.axisAt 11 ∧ y = middle.values.axisAt 14 ∧
    ∀ motor ∈ [Motor.drvFL, .drvFR],
      (last.links motor).state.link.talon = comesTo (middle.links motor)

section Driving

variable {armEnabled repeats : Bool} {middle last : Parties} {actions : List Action}

theorem driving_begun (inv : Inv False armEnabled (fun _ => False) middle)
    (teleop : RobotTemplate.Inv (some .teleopInit) middle.auto.robot) (idle : DriveIdle middle) :
    Driving armEnabled middle middle := by
  refine ⟨inv, teleop, false, ?_, fun _ => ?_, ?_⟩
  · refine ⟨(inv.links .drvFL).speedsOnly rfl, (inv.links .drvFR).speedsOnly rfl, ?_, nofun⟩
    intro newValues rest listeners publishing
    exact absurd (idle.poll.symm.trans publishing) nofun
  · exact ⟨idle.steers, idle.handler, .inr ⟨rfl, rfl⟩, rfl, rfl⟩
  · intro newValues rest listeners publishing
    exact absurd (idle.poll.symm.trans publishing) nofun

theorem Driving.run (driving : Driving armEnabled middle middle)
    (leaves : Along (Attempt.step (perform repeats)) LeavesDrive middle actions)
    (taken : Interleaving.run (Attempt.step (perform repeats)) middle actions = some last) :
    Driving armEnabled middle last ∧ ∀ axis,
      coming (last.drive false) axis = stick axis (coming (middle.drive false) axis) actions := by
  have steps : ∀ parties action next, Driving armEnabled middle parties →
      LeavesDrive parties action → Attempt.step (perform repeats) parties action = some next →
      Driving armEnabled middle next ∧ ∀ axis, coming (next.drive false) axis =
        (shown axis action).getD (coming (parties.drive false) axis) :=
    fun _ _ _ kept permitted first => kept.step driving.inv permitted (step_iff.mp first)
  constructor
  · exact run_invariant_along (Driving armEnabled middle)
      (fun parties action next kept permitted first =>
        (steps parties action next kept permitted first).1) driving leaves taken
  · intro axis
    refine run_foldl (fun parties => coming (parties.drive false) axis)
      (fun value action => (shown axis action).getD value) (Driving armEnabled middle) ?_ driving
      leaves taken
    intro parties action next kept permitted first
    obtain ⟨after, comes⟩ := steps parties action next kept permitted first
    exact ⟨after, comes axis⟩

theorem no_listeners {parties : Parties} (waiting : parties.poll = .waiting) (dispatched : Bool) :
    (parties.drive dispatched).poll.listeners = [] :=
  congrArg ArcadeDrive.Poll.listeners waiting

theorem Driving.settled (plain : Inv False armEnabled (fun _ => False) middle)
    (driving : Driving armEnabled middle last) (settled : Settled last) :
    FollowsStick last (last.values.axisAt 11) (last.values.axisAt 14) ∨
      Unmoved middle last (last.values.axisAt 11) (last.values.axisAt 14) := by
  obtain ⟨dispatched, pipeline⟩ := driving.pipeline
  cases dispatched with
  | true =>
      left
      have done : ¬ArcadeDrive.Pending callsSteer (last.drive true) := by
        rintro (waiting | ⟨listener, member, _⟩)
        · have none : last.steers = 0 := settled.steers
          exact absurd none (Nat.ne_of_gt waiting)
        · rw [no_listeners settled.poll] at member
          cases member
      have current := (pipeline.inv.steered rfl).resolve_left done
      have left := (current.left (.inl settled.handler)).drained pipeline.inv.left
        (settled.queue .drvFL)
      have right := (current.right settled.handler).drained pipeline.inv.right
        (settled.queue .drvFR)
      rw [(plain.links .drvFL).speedScalar, (plain.links .drvFL).motorReversed] at left
      rw [(plain.links .drvFR).speedScalar, (plain.links .drvFR).motorReversed] at right
      simp only [mul_one, Bool.false_eq_true, ↓reduceIte] at left right
      exact ⟨left, right⟩
  | false =>
      right
      have untouched := pipeline.untouched rfl
      have written : ∀ motor, (last.links motor).state.link.talon = comesTo (last.links motor) := by
        intro motor
        rw [comesTo, settled.queue motor, lastValue_nil]
      have axes : last.values.axisAt 11 = middle.values.axisAt 11 ∧
          last.values.axisAt 14 = middle.values.axisAt 14 := by
        refine untouched.axes.resolve_left ?_
        rintro ⟨listener, member, _⟩
        rw [no_listeners settled.poll] at member
        cases member
      refine ⟨axes.1, axes.2, fun motor member => ?_⟩
      rw [written]
      simp only [List.mem_cons, List.not_mem_nil, or_false] at member
      rcases member with rfl | rfl
      · exact untouched.left
      · exact untouched.right

end Driving

/-- Whatever the other threads of the robot do in teleop, wherever the robot comes to
rest after any number of polls the drive's two sides go as the last poll has found the
stick, or else the stick is where it was and they go as they had been asked before. -/
theorem drive_follows (alliance : Alliance) (armEnabled repeats : Bool)
    {before after : List Action} {middle last : Parties}
    (first : run (step (perform repeats)) (initial alliance armEnabled) before = some middle)
    (teleop : middle.auto.robot.teleopHasBeenInit = true) (idle : DriveIdle middle)
    (leaves : Along (step (perform repeats)) LeavesDrive middle after)
    (later : run (step (perform repeats)) middle after = some last) (settled : Settled last) :
    FollowsStick last (stick 11 (middle.values.axisAt 11) after)
        (stick 14 (middle.values.axisAt 14) after) ∨
      Unmoved middle last (stick 11 (middle.values.axisAt 11) after)
        (stick 14 (middle.values.axisAt 14) after) := by
  have inv : Inv False armEnabled (fun _ => False) (initial alliance armEnabled) := inv_initial ..
  have reached := (inv.reach nofun first).1
  obtain ⟨mode, moded⟩ := mode_reached (Refines.reach first).auto
  obtain rfl : mode = some .teleopInit := of_decide_eq_true (moded.teleop.symm.trans teleop)
  obtain ⟨driven, comes⟩ := (driving_begun reached moded idle).run leaves later
  have published : ∀ parties : Parties, parties.poll = .waiting → ∀ axis,
      coming (parties.drive false) axis = parties.values.axisAt axis := by
    intro parties waiting axis
    simp only [coming, Parties.drive, waiting]
  have stands : ∀ axis,
      stick axis (middle.values.axisAt axis) after = last.values.axisAt axis := by
    intro axis
    rw [← published middle idle.poll axis, ← comes axis, published last settled.poll axis]
  rw [stands 11, stands 14]
  exact driven.settled reached settled

/-- The robot in teleop, with its stick at rest. -/
def teleopBegun : Parties :=
  (run (step (perform true)) (initial .red true) [.auto (.callback .teleopInit)]).getD
    (initial .red true)

theorem drive_follows_pushed : ∃ last,
    run (step (perform true)) teleopBegun pushed = some last ∧ FollowsStick last (1 / 2) 0 := by
  have first : run (step (perform true)) (initial .red true) [.auto (.callback .teleopInit)] =
      some teleopBegun := rfl
  have leaves : Along (step (perform true)) LeavesDrive teleopBegun pushed := by
    refine Along.of_forall (fun action member parties => ?_) teleopBegun
    cases action with
    | auto action => simp [pushed] at member
    | _ => trivial
  have rests : ∃ last ∈ run (step (perform true)) teleopBegun pushed, Settled last := by
    decide +kernel
  obtain ⟨last, taken, settled⟩ := rests
  have stands : stick 11 (teleopBegun.values.axisAt 11) pushed = 1 / 2 ∧
      stick 14 (teleopBegun.values.axisAt 14) pushed = 0 := by
    decide +kernel
  have follows := drive_follows .red true true first rfl ⟨rfl, rfl, rfl⟩ leaves taken settled
  rw [stands.1, stands.2] at follows
  refine ⟨last, taken, follows.resolve_right ?_⟩
  rintro ⟨same, _⟩
  have still : teleopBegun.values.axisAt 11 = 0 := by decide +kernel
  rw [still] at same
  norm_num at same

end FrcRobot.Robot
