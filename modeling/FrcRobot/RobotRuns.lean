import FrcRobot.RobotSteps

set_option autoImplicit false

/- What holds of the whole robot at every moment of every run, whatever the
order in which its threads take their steps. -/
namespace FrcRobot.Robot

open Attempt Interleaving
open MotorLink (Call)

/-- The axes that the joystick is read with keep to its range. -/
def Ranged : Action → Prop
  | .pollControls joystick _ => ∀ axis, |joystick.getRawAxis axis| ≤ 1
  | _ => True

theorem Inv.act {ranged : Prop} {armEnabled repeats : Bool} {on : Motor → Prop}
    {parties : Parties} (inv : Inv ranged armEnabled on parties) {action : Action}
    (inRange : ranged → Ranged action) :
    Safe (Inv ranged armEnabled on) (perform repeats parties action) := by
  cases action with
  | auto action => exact inv.autoStep action
  | startSpeedControl => exact inv.startSpeedControl
  | pollControls joystick listeners => exact inv.pollControls inRange listeners
  | publish => exact inv.publish
  | invoke => exact inv.invokeNext
  | steerHandler => exact inv.steerHandler
  | advance => exact inv.advance
  | expireArm => exact inv.expireArm
  | executeArm shooterTSensor => exact inv.executeArm shooterTSensor
  | rearmArm => exact inv.rearmArm
  | expire motor => exact inv.expire motor
  | tick index encoderAngle => exact inv.tick index encoderAngle
  | serve motor => exact inv.serve motor

/-- The invariant along a run, and that the run cannot go wrong from its end. -/
theorem Inv.reach {ranged : Prop} {armEnabled repeats : Bool} {on : Motor → Prop}
    {start last : Parties} {actions : List Action} (inv : Inv ranged armEnabled on start)
    (inRange : ranged → ∀ action ∈ actions, Ranged action)
    (taken : run (step (perform repeats)) start actions = some last) :
    Inv ranged armEnabled on last ∧
      ∀ action, (ranged → Ranged action) → perform repeats last action ≠ .error .crashed := by
  have along : Along (step (perform repeats)) (fun _ action => ranged → Ranged action) start
      actions :=
    Along.of_forall (fun action member _ within => inRange within action member) start
  exact run_safe (Inv ranged armEnabled on) (fun _ _ inv permitted => inv.act permitted) inv along
    taken

variable (alliance : Alliance) (armEnabled repeats : Bool) (actions : List Action) (last : Parties)

/-- No thread of the robot ever runs into a null pointer or a LOG_FATAL. -/
theorem never_crashes
    (taken : run (step (perform repeats)) (initial alliance armEnabled) actions = some last)
    (action : Action) : perform repeats last action ≠ .error .crashed := by
  have inv : Inv False armEnabled (fun _ => False) (initial alliance armEnabled) := inv_initial ..
  exact (inv.reach nofun taken).2 action nofun

/-- The robot has been started and one of its controllers, on a timer that repeats, has
written a power. -/
def turning : List Action :=
  [.auto (.callback .robotInit), .startSpeedControl, .serve .rotBk, .expire .rotBk, .tick 0 10,
    .tick 0 10, .tick 0 20, .serve .rotBk]

def turned : Parties :=
  (run (step (perform true)) (initial .red true) turning).getD (initial .red true)

theorem run_turning : run (step (perform true)) (initial .red true) turning = some turned := by
  have taken : (run (step (perform true)) (initial .red true) turning).isSome = true := by
    decide +kernel
  obtain ⟨last, ran⟩ := Option.isSome_iff_exists.mp taken
  rw [turned, ran, Option.getD_some]

theorem never_crashes_turning : perform true turned (.tick 0 5) ≠ .error .crashed :=
  never_crashes .red true true turning turned run_turning (.tick 0 5)

/-- A joystick within its range can bring no power to a Talon, nor onto a queue,
that the motor is not meant to be given. -/
theorem motors_driven (inRange : ∀ action ∈ actions, Ranged action)
    (taken : run (step (perform repeats)) (initial alliance armEnabled) actions = some last)
    (motor : Motor) :
    (∀ pow, (last.links motor).state.link.talon = some pow → Driven True motor pow) ∧
      ∀ pow, .setSpeedImpl pow ∈ (last.links motor).queue → Driven True motor pow := by
  have inv : Inv True armEnabled (fun _ => False) (initial alliance armEnabled) := inv_initial ..
  have wired := (inv.reach (fun _ => inRange) taken).1.links motor
  exact ⟨wired.talon, fun pow member => wired.queue _ member⟩

/-- The stick is pushed to the right, and everybody then does his part. -/
def pushed : List Action :=
  [.pollControls ⟨fun _ => false, fun axis => if axis = 1 then 1 / 2 else 0⟩ [⟨15, .steer⟩]] ++
    List.replicate 17 .publish ++ [.invoke, .invoke, .steerHandler] ++
    List.replicate 5 .advance ++ [.serve .drvFL, .serve .drvFR]

theorem motors_driven_pushed : ∃ last,
    run (step (perform true)) (initial .red true) (.auto (.callback .teleopInit) :: pushed) =
      some last ∧ (last.links .drvFL).state.link.talon = some (1 / 2) ∧
      Driven True .drvFL (1 / 2) := by
  have ranged : ∀ action ∈ .auto (.callback .teleopInit) :: pushed, Ranged action := by
    intro action member
    simp only [pushed, List.mem_cons, List.mem_append, List.mem_replicate, List.not_mem_nil,
      or_false] at member
    rcases member with rfl | (((rfl | ⟨_, rfl⟩) | rfl | rfl | rfl) | ⟨_, rfl⟩) | rfl | rfl
    case inr.inl.inl.inl.inl =>
      intro axis
      show |if axis = 1 then (1 / 2 : ℚ) else 0| ≤ 1
      split <;> norm_num
    all_goals trivial
  have drives : ∃ last ∈ run (step (perform true)) (initial .red true)
      (.auto (.callback .teleopInit) :: pushed),
      (last.links .drvFL).state.link.talon = some (1 / 2) := by
    decide +kernel
  obtain ⟨last, taken, talon⟩ := drives
  exact ⟨last, taken, talon,
    (motors_driven .red true true _ last ranged taken .drvFL).1 _ talon⟩

/-- Every call that any thread has made of a link was one it may make. -/
theorem calls_permitted
    (taken : run (step (perform repeats)) (initial alliance armEnabled) actions = some last) :
    ∀ entry ∈ last.calls, Permitted False armEnabled entry.2.1 entry.1 entry.2.2 := by
  have inv : Inv False armEnabled (fun _ => False) (initial alliance armEnabled) := inv_initial ..
  exact (inv.reach nofun taken).1.calls

theorem calls_permitted_turning : ∃ call,
    callSpeed call = some (some (14 / 15)) ∧
      Permitted False true .rotBk (.controller .rotBk) call := by
  have made : turned.calls.map (fun entry => (entry.1, entry.2.1, callSpeed entry.2.2)) =
      [(.main, .rotBk, none), (.controller .rotBk, .rotBk, some (some (14 / 15)))] := by
    decide +kernel
  have second : (Source.controller .rotBk, Motor.rotBk, some (some (14 / 15))) ∈
      turned.calls.map fun entry => (entry.1, entry.2.1, callSpeed entry.2.2) := by
    rw [made]
    exact List.mem_cons_of_mem _ (List.mem_singleton_self _)
  obtain ⟨⟨source, motor, call⟩, member, same⟩ := List.mem_map.mp second
  obtain ⟨rfl, rfl, speed⟩ : source = .controller .rotBk ∧ motor = .rotBk ∧ _ := by
    simpa only [Prod.mk.injEq] using same
  exact ⟨call, speed, calls_permitted .red true true turning turned run_turning _ member⟩

/-- A controller that has been enabled stays so, and never stops rechecking. -/
theorem controllers_stay {middle : Parties} {before after : List Action} (motor : Motor)
    (first : run (step (perform repeats)) (initial alliance armEnabled) before = some middle)
    (enabled : (middle.links motor).state.link.spdControlEnabled = true)
    (later : run (step (perform repeats)) middle after = some last) :
    (last.links motor).state.link.spdControlEnabled = true ∧ Alive last motor := by
  have inv : Inv False armEnabled (fun _ => False) (initial alliance armEnabled) := inv_initial ..
  have reached := (inv.reach nofun first).1
  have started : Inv False armEnabled (fun other => other = motor) middle :=
    { reached with enabled := fun other same => same ▸ enabled }
  have kept := (started.reach nofun later).1
  exact ⟨kept.enabled motor rfl, kept.alive motor (kept.enabled motor rfl)⟩

/-- The rest of the tick, and one that finds the wheel where it should be. -/
def rechecking : List Action :=
  [.tick 0 0, .expire .rotBk, .tick 0 90, .serve .rotBk]

theorem controllers_stay_rechecking : ∃ last,
    run (step (perform true)) turned rechecking = some last ∧
      (last.links .rotBk).state.link.talon = some 0 ∧
      (last.links .rotBk).state.link.spdControlEnabled = true ∧ Alive last .rotBk := by
  have stops : ∃ last ∈ run (step (perform true)) turned rechecking,
      (last.links .rotBk).state.link.talon = some 0 := by
    decide +kernel
  obtain ⟨last, taken, talon⟩ := stops
  exact ⟨last, taken, talon,
    controllers_stay .red true true last .rotBk run_turning (by decide +kernel) taken⟩

end FrcRobot.Robot
