import FrcRobot.RobotSettles

set_option autoImplicit false

/- From the stick to the Talons of the drive's two sides, in the midst of all the
other threads. -/
namespace FrcRobot.Robot

open ArcadeDrive (KeepsSteering Registered)
open Attempt Interleaving LastWrite
open MotorLink (Call Processor SpeedsOnly)

def callsSteer (listener : SharedCmd) : Bool := listener.call = .steer

/-- The polling thread and the drive, with its two links. -/
def Parties.drive (parties : Parties) (dispatched : Bool) : ArcadeDrive.Parties ℚ SharedCmd :=
  ⟨parties.values, parties.poll, dispatched, parties.steers, parties.handler,
    parties.links .drvFL, parties.links .drvFR⟩

/-- The step of these that an action is. -/
def driveLabel (parties : Parties) : Action → Option (ArcadeDrive.Action ℚ SharedCmd)
  | .pollControls joystick listeners =>
      some (.pollControls parties.auto.robot.global.listeners joystick listeners)
  | .publish => some .publish
  | .invoke => some .invoke
  | .steerHandler => some .steerHandler
  | .advance => some .advance
  | .serve motor =>
      if motor = .drvFL then some .serveLeft
      else if motor = .drvFR then some .serveRight
      else none
  | _ => none

/-- Teleop is not left, and no autonomous sequence asks for a speed of the drive's
two sides. -/
def LeavesDrive (parties : Parties) : Action → Prop
  | .auto action => action ≠ .callback .autonomousInit ∧
      ∀ auto, AutonomousSequences.step parties.auto action = some auto →
        ∀ entry ∈ auto.requests.drop parties.auto.requests.length,
          ∀ motor ∈ [Motor.drvFL, .drvFR], ∀ pow, entry.2 ≠ .setSpeed motor pow
  | _ => True

section Untouched

variable {start parties next : ArcadeDrive.Parties ℚ SharedCmd} {left right : LinkState ℚ}

/-- As long as nobody has called for a steer, nothing has come of the drive. -/
structure Untouched (start parties : ArcadeDrive.Parties ℚ SharedCmd) : Prop where
  steers : parties.steers = 0
  handler : parties.handler = none
  axes : (∃ listener ∈ parties.poll.listeners, callsSteer listener = true) ∨
    parties.x = start.x ∧ parties.y = start.y
  left : comesTo parties.driveLeft = comesTo start.driveLeft
  right : comesTo parties.driveRight = comesTo start.driveRight

/-- A link that neither scales nor reverses. -/
structure Plain (state : LinkState ℚ) : Prop where
  speedScalar : state.link.speedScalar = 1
  motorReversed : state.link.motorReversed = false

theorem Plain.serve {start : LinkState ℚ} {processor served : Processor ℚ} (plain : Plain start)
    (only : SpeedsOnly start processor) (taken : processor.serve LinkState.exec = some served) :
    comesTo served = comesTo processor := by
  obtain ⟨pow, head, written⟩ := only.serve_state taken
  have talon : served.state.link.talon = some pow := by
    rw [written]
    simp [LinkState.setSpeedImpl, only.speedScalar, only.motorReversed, plain.speedScalar,
      plain.motorReversed]
  rw [comesTo, comesTo, head, talon, lastValue_cons]
  rfl

theorem Untouched.step {action : ArcadeDrive.Action ℚ SharedCmd}
    (inv : ArcadeDrive.Inv callsSteer left right parties) (plainLeft : Plain left)
    (plainRight : Plain right)
    (before : parties.dispatched = false → Untouched start parties)
    (taken : ArcadeDrive.step callsSteer parties action = some next) :
    next.dispatched = false → Untouched start next := by
  cases action with
  | pollControls table joystick listeners =>
      obtain ⟨newValues, waiting, _, rfl⟩ := ArcadeDrive.step_pollControls taken
      intro undispatched
      have untouched := before undispatched
      refine { untouched with axes := .inr ?_ }
      rcases untouched.axes with ⟨listener, member, _⟩ | same
      · rw [waiting] at member
        cases member
      · exact same
  | publish =>
      simp only [ArcadeDrive.step] at taken
      split at taken
      · rename_i newValues counter rest listeners publishing
        cases taken
        intro undispatched
        have untouched := before undispatched
        refine { untouched with axes := ?_ }
        by_cases called : ∃ listener ∈ listeners, callsSteer listener = true
        · exact .inl called
        · have silent : ∀ listener ∈ listeners, callsSteer listener = false := by
            simpa using called
          have unmoved := inv.unmoved newValues (counter :: rest) listeners publishing silent
          have same := untouched.axes.resolve_left (by rwa [publishing])
          refine .inr ⟨?_, ?_⟩
          · exact (ArcadeDrive.publish_axis parties newValues counter 11 unmoved.1).trans same.1
          · exact (ArcadeDrive.publish_axis parties newValues counter 14 unmoved.2).trans same.2
      · rename_i newValues listeners publishing
        cases taken
        intro undispatched
        have untouched := before undispatched
        have axes := untouched.axes
        rw [publishing] at axes
        exact { untouched with axes := axes }
      · cases taken
  | invoke =>
      simp only [ArcadeDrive.step] at taken
      split at taken
      · rename_i listener rest invoking
        split at taken
        · cases taken
          intro undispatched
          cases undispatched
        · rename_i other
          cases taken
          intro undispatched
          have untouched := before undispatched
          refine { untouched with axes := untouched.axes.imp_left ?_ }
          rintro ⟨called, member, steered⟩
          rw [invoking] at member
          rcases List.mem_cons.mp member with rfl | later
          · exact absurd steered other
          · exact ⟨called, later, steered⟩
      · rename_i invoking
        cases taken
        intro undispatched
        have untouched := before undispatched
        have axes := untouched.axes
        rw [invoking] at axes
        exact { untouched with axes := axes }
      · cases taken
  | steerHandler =>
      simp only [ArcadeDrive.step] at taken
      split at taken
      · rename_i waits
        cases taken
        intro undispatched
        have none := (before undispatched).steers
        omega
      · cases taken
  | advance =>
      intro undispatched
      have running : parties.handler ≠ none ∧ next.dispatched = parties.dispatched := by
        simp only [ArcadeDrive.step, ArcadeDrive.Parties.advance] at taken
        split at taken
        · cases taken
        · obtain ⟨_, _, rfl⟩ := Option.map_eq_some_iff.mp taken
          exact ⟨by simp [*], rfl⟩
        · obtain ⟨_, _, rfl⟩ := Option.map_eq_some_iff.mp taken
          exact ⟨by simp [*], rfl⟩
        · obtain ⟨_, _, rfl⟩ := Option.map_eq_some_iff.mp taken
          exact ⟨by simp [*], rfl⟩
      exact absurd (before (running.2.symm.trans undispatched)).handler running.1
  | serveLeft =>
      obtain ⟨processor, served, rfl⟩ := Option.map_eq_some_iff.mp taken
      intro undispatched
      have untouched := before undispatched
      exact { untouched with left := (plainLeft.serve inv.left served).trans untouched.left }
  | serveRight =>
      obtain ⟨processor, served, rfl⟩ := Option.map_eq_some_iff.mp taken
      intro undispatched
      have untouched := before undispatched
      exact { untouched with right := (plainRight.serve inv.right served).trans untouched.right }

end Untouched

section Matched

variable {repeats : Bool} {parties next : Parties}

/-- The step is none of the drive's. -/
structure Apart (parties next : Parties) : Prop where
  auto : next.auto = parties.auto
  drive : ∀ dispatched, next.drive dispatched = parties.drive dispatched

theorem Apart.setLink (motor : Motor) (processor : Processor ℚ) (apart : motor ≠ .drvFL)
    (other : motor ≠ .drvFR) : Apart parties (parties.setLink motor processor) := by
  refine ⟨rfl, fun dispatched => ?_⟩
  simp [Parties.drive, Parties.setLink, apart.symm, other.symm]

theorem turns_ne {motor : Motor} (turning : rotates motor = true) :
    motor ≠ .drvFL ∧ motor ≠ .drvFR := by
  constructor
  · rintro rfl
    cases turning
  · rintro rfl
    cases turning

theorem Apart.setControl {motor : Motor} (turning : rotates motor = true)
    (control : MotorControl ℚ) (ticks : List (Motor × Tick)) :
    Apart parties { parties.setControl motor control with ticks := ticks } := by
  obtain ⟨apart, other⟩ := turns_ne turning
  have moved : Apart parties (parties.setControl motor control) := .setLink motor _ apart other
  exact ⟨rfl, moved.drive⟩

theorem ask_apart {source : Source} {motor : Motor} {call : Call ℚ}
    (taken : parties.ask source motor call = .ok next) (apart : motor ≠ .drvFL)
    (other : motor ≠ .drvFR) : Apart parties next := by
  obtain ⟨processor, _, rfl⟩ := ask_ok taken
  have others : Apart parties (parties.setLink motor processor) :=
    .setLink motor processor apart other
  exact ⟨rfl, others.drive⟩

/-- What a sequence asks of the other motors, and of the arm. -/
theorem carryOut_apart {armEnabled : Bool} {entry : Nat × AutoRequest}
    (others : ∀ motor ∈ [Motor.drvFL, .drvFR], ∀ pow, entry.2 ≠ .setSpeed motor pow)
    (permitted : Allows False armEnabled entry.1 entry.2)
    (taken : parties.carryOut entry = .ok next) : Apart parties next := by
  obtain ⟨thread, request⟩ := entry
  cases request with
  | setControlTarget motor target =>
      obtain ⟨apart, other⟩ := turns_ne permitted
      exact ask_apart taken apart other
  | setSpeed motor pow =>
      refine ask_apart taken ?_ ?_
      · rintro rfl
        exact others _ (List.mem_cons_self ..) pow rfl
      · rintro rfl
        exact others _ (List.mem_cons_of_mem _ (List.mem_singleton_self _)) pow rfl
  | cockShooterCancel | cockShooterStart =>
      cases taken
      exact ⟨rfl, fun _ => rfl⟩

theorem Apart.trans {middle : Parties} (first : Apart parties middle) (second : Apart middle next) :
    Apart parties next :=
  ⟨second.auto.trans first.auto, fun dispatched =>
    (second.drive dispatched).trans (first.drive dispatched)⟩

theorem foldlM_apart {entries : List (Nat × AutoRequest)}
    (each : ∀ entry ∈ entries, ∀ before after : Parties, before.carryOut entry = .ok after →
      Apart before after)
    (taken : entries.foldlM Parties.carryOut parties = .ok next) : Apart parties next := by
  induction entries generalizing parties with
  | nil =>
      cases taken
      exact ⟨rfl, fun _ => rfl⟩
  | cons entry rest ih =>
      rw [List.foldlM_cons] at taken
      cases carried : parties.carryOut entry with
      | error refusal =>
          rw [carried] at taken
          cases taken
      | ok middle =>
          rw [carried] at taken
          have first := each entry (List.mem_cons_self ..) parties middle carried
          refine first.trans (ih (fun other member => ?_) taken)
          exact each other (List.mem_cons_of_mem _ member)

/-- An autonomous step that leaves the drive alone. -/
theorem autoStep_apart {armEnabled : Bool} (inv : Inv False armEnabled (fun _ => False) parties)
    {action : AutonomousSequences.Action} (leaves : LeavesDrive parties (.auto action))
    (taken : parties.autoStep action = .ok next) :
    AutonomousSequences.step parties.auto action = some next.auto ∧
      ∀ dispatched, next.drive dispatched = parties.drive dispatched := by
  unfold Parties.autoStep at taken
  split at taken
  · cases taken
  cases stepped : AutonomousSequences.step parties.auto action with
  | none =>
      rw [stepped] at taken
      cases taken
  | some auto =>
      rw [stepped] at taken
      change (auto.requests.drop parties.auto.requests.length).foldlM Parties.carryOut
        { parties with auto := auto } = .ok next at taken
      have allowed := (inv.auto stepped).2
      have apart := foldlM_apart (fun entry member _ _ carried =>
        carryOut_apart (leaves.2 auto stepped entry member) (allowed entry member) carried) taken
      exact ⟨congrArg some apart.auto.symm, apart.drive⟩

/-- The drive takes the step, or notices nothing of it. -/
structure Matched (parties next : Parties)
    (label : Option (ArcadeDrive.Action ℚ SharedCmd)) : Prop where
  auto : next.auto = parties.auto
  ran : ∀ dispatched, ∃ later,
    run (ArcadeDrive.step callsSteer) (parties.drive dispatched) label.toList =
      some (next.drive later)

theorem Apart.matched (apart : Apart parties next) : Matched parties next none :=
  ⟨apart.auto, fun dispatched => ⟨dispatched, congrArg some (apart.drive dispatched).symm⟩⟩

theorem matched_step {entry : ArcadeDrive.Action ℚ SharedCmd} (auto : next.auto = parties.auto)
    (taken : ∀ dispatched, ∃ later,
      ArcadeDrive.step callsSteer (parties.drive dispatched) entry = some (next.drive later)) :
    Matched parties next (some entry) := by
  refine ⟨auto, fun dispatched => ?_⟩
  obtain ⟨later, stepped⟩ := taken dispatched
  refine ⟨later, ?_⟩
  rw [Option.toList_some, run_cons, stepped]
  rfl

theorem matched_publish (taken : parties.publish = .ok next) :
    Matched parties next (some .publish) := by
  unfold Parties.publish at taken
  split at taken
  · cases taken
    refine matched_step rfl fun dispatched => ⟨dispatched, ?_⟩
    simp only [ArcadeDrive.step, Parties.drive, *]
    rfl
  · cases taken
    refine matched_step rfl fun dispatched => ⟨dispatched, ?_⟩
    simp only [ArcadeDrive.step, Parties.drive, *]
  · cases taken

/-- A listener that does not steer does not concern the drive. -/
theorem invoke_apart {listener : SharedCmd} (bound : Bound listener)
    (other : callsSteer listener = false) (taken : parties.invoke listener = .ok next) :
    Apart parties next := by
  unfold Parties.invoke at taken
  split at taken
  · cases taken
    exact ⟨rfl, fun _ => rfl⟩
  · cases taken
    exact ⟨rfl, fun _ => rfl⟩
  · cases taken
    exact ⟨rfl, fun _ => rfl⟩
  · cases taken
    exact ⟨rfl, fun _ => rfl⟩
  · cases taken
    exact ⟨rfl, fun _ => rfl⟩
  · rename_i motor pow calls
    have permitted : Permitted False false motor (.listener listener) (.setSpeed pow) :=
      bound.permitted calls
    refine ask_apart taken ?_ ?_
    · rintro rfl
      simp [Permitted] at permitted
    · rintro rfl
      simp [Permitted] at permitted
  · rename_i calls
    simp [callsSteer, calls] at other

theorem matched_invoke {armEnabled : Bool} (inv : Inv False armEnabled (fun _ => False) parties)
    (taken : parties.invokeNext = .ok next) : Matched parties next (some .invoke) := by
  unfold Parties.invokeNext at taken
  split at taken
  · rename_i listener rest invoking
    cases steered : callsSteer listener with
    | true =>
        have calls : listener.call = .steer := of_decide_eq_true steered
        simp only [Parties.invoke, calls] at taken
        cases taken
        refine matched_step rfl fun dispatched => ⟨true, ?_⟩
        simp only [ArcadeDrive.step, Parties.drive, invoking, steered, ↓reduceIte]
    | false =>
        have collected := inv.collected
        rw [invoking] at collected
        have apart := invoke_apart (collected listener (List.mem_cons_self ..)) steered taken
        refine matched_step apart.auto fun dispatched => ⟨dispatched, ?_⟩
        rw [apart.drive dispatched]
        simp only [ArcadeDrive.step, Parties.drive, invoking, steered, Bool.false_eq_true,
          ↓reduceIte]
  · cases taken
    refine matched_step rfl fun dispatched => ⟨dispatched, ?_⟩
    simp only [ArcadeDrive.step, Parties.drive, *]
  · cases taken

theorem matched_advance (taken : parties.advance = .ok next) :
    Matched parties next (some .advance) := by
  unfold Parties.advance at taken
  split at taken
  · cases taken
  · rename_i spdL spdR running
    obtain ⟨processor, issued, rfl⟩ := ask_ok taken
    have sent : MotorLink.setSpeed (parties.links .drvFL) spdL = some processor := issued
    refine matched_step rfl fun dispatched => ⟨dispatched, ?_⟩
    simp only [ArcadeDrive.step, ArcadeDrive.Parties.advance, Parties.drive, running, sent,
      Option.map_some]
    simp [Parties.setLink]
  · rename_i spdR running
    obtain ⟨processor, issued, rfl⟩ := ask_ok taken
    have sent : MotorLink.setSpeed (parties.links .drvFR) spdR = some processor := issued
    refine matched_step rfl fun dispatched => ⟨dispatched, ?_⟩
    simp only [ArcadeDrive.step, ArcadeDrive.Parties.advance, Parties.drive, running, sent,
      Option.map_some]
    simp [Parties.setLink]
  · rename_i handler _ _ running
    cases read : handler.read parties.values with
    | none =>
        rw [read] at taken
        cases taken
    | some later =>
        rw [read] at taken
        cases taken
        refine matched_step rfl fun dispatched => ⟨dispatched, ?_⟩
        cases handler with
        | driveLeft | driveRight => cases read
        | testX | readX | testY | readY =>
            simp only [ArcadeDrive.step, ArcadeDrive.Parties.advance, Parties.drive, running, read,
              Option.map_some]

theorem tick_apart {armEnabled : Bool} (inv : Inv False armEnabled (fun _ => False) parties)
    {index : Nat} {encoderAngle : ℚ} (taken : parties.tick index encoderAngle = .ok next) :
    Apart parties next := by
  unfold Parties.tick at taken
  split at taken
  · cases taken
  · rename_i motor under
    have controlled := (inv.ticks _ (List.mem_of_getElem? under)).1
    cases taken
    exact .setControl ((inv.links motor).controlled controlled) _ _
  · rename_i motor step notSent under
    obtain ⟨apart, other⟩ :=
      turns_ne ((inv.links motor).controlled (inv.ticks _ (List.mem_of_getElem? under)).1)
    have setTick : ∀ tick, Apart parties (parties.setTick index motor tick) :=
      fun _ => ⟨rfl, fun _ => rfl⟩
    dsimp only at taken
    split at taken
    · cases step with
      | expired =>
          dsimp only at taken
          split at taken
          · exact (setTick _).trans (ask_apart taken apart other)
          · cases taken
            exact setTick _
      | stepping =>
          cases taken
          exact setTick _
      | aiming error => exact (setTick _).trans (ask_apart taken apart other)
      | sent => cases taken
    · cases taken

theorem matched_serve {motor : Motor} (taken : parties.serve motor = .ok next) :
    Matched parties next (driveLabel parties (.serve motor)) := by
  unfold Parties.serve at taken
  split at taken
  · cases taken
  cases served : (parties.links motor).serve LinkState.exec with
  | none =>
      rw [served] at taken
      cases taken
  | some processor =>
      rw [served] at taken
      cases taken
      by_cases left : motor = .drvFL
      · subst left
        refine matched_step rfl fun dispatched => ⟨dispatched, ?_⟩
        simp [ArcadeDrive.step, Parties.drive, Parties.setLink, served]
      by_cases right : motor = .drvFR
      · subst right
        refine matched_step rfl fun dispatched => ⟨dispatched, ?_⟩
        simp [ArcadeDrive.step, Parties.drive, Parties.setLink, served]
      · rw [driveLabel, if_neg left, if_neg right]
        exact (Apart.setLink motor processor left right).matched

/-- A step of the robot is at most one of the drive's pipeline. -/
theorem drive_matched {armEnabled : Bool} (inv : Inv False armEnabled (fun _ => False) parties)
    {action : Action} (notAuto : ∀ auto, action ≠ .auto auto)
    (taken : perform repeats parties action = .ok next) :
    Matched parties next (driveLabel parties action) := by
  cases action with
  | auto action => exact absurd rfl (notAuto action)
  | startSpeedControl =>
      simp only [perform, Parties.startSpeedControl] at taken
      split at taken
      · cases taken
      · rename_i motor target found
        obtain ⟨apart, other⟩ := turns_ne (inv.speedControls _ (List.mem_of_getElem? found)).1
        have asked : Apart _ next := ask_apart taken apart other
        exact Apart.matched ⟨asked.auto, asked.drive⟩
  | pollControls joystick listeners =>
      simp only [perform, Parties.pollControls] at taken
      split at taken
      · rename_i waiting
        split at taken
        · rename_i complete
          cases taken
          refine matched_step rfl fun dispatched => ⟨dispatched, ?_⟩
          simp only [ArcadeDrive.step, Parties.drive, waiting]
          exact if_pos complete
        · cases taken
      · cases taken
  | publish => exact matched_publish taken
  | invoke => exact matched_invoke inv taken
  | steerHandler =>
      simp only [perform] at taken
      split at taken
      · rename_i waits
        cases taken
        exact matched_step rfl fun dispatched => ⟨dispatched, if_pos waits⟩
      · cases taken
  | advance => exact matched_advance taken
  | expireArm =>
      simp only [perform] at taken
      split at taken
      · cases taken
        exact Apart.matched ⟨rfl, fun _ => rfl⟩
      · cases taken
  | executeArm shooterTSensor =>
      simp only [perform, Parties.executeArm] at taken
      split at taken
      · cases taken
      · split at taken
        · cases taken
          exact Apart.matched ⟨rfl, fun _ => rfl⟩
        · have apart : Apart _ next := ask_apart taken (by decide) (by decide)
          exact Apart.matched ⟨apart.auto, apart.drive⟩
  | rearmArm =>
      simp only [perform] at taken
      split at taken
      · cases taken
        exact Apart.matched ⟨rfl, fun _ => rfl⟩
      · cases taken
  | expire motor =>
      simp only [perform, Parties.expire] at taken
      split at taken
      · rename_i armed
        cases taken
        have turning := (inv.links motor).controlled ((inv.links motor).armed armed)
        exact (Apart.setControl turning _ _).matched
      · cases taken
  | tick index encoderAngle => exact (tick_apart inv taken).matched
  | serve motor => exact matched_serve taken

end Matched

end FrcRobot.Robot
