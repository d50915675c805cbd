import FrcRobot.RobotRuns

set_option autoImplicit false

/- Left to itself, between two signals from outside, the robot comes to rest. -/
namespace FrcRobot.Robot

open ArcadeDrive (Poll SteerHandler)
open Attempt DeferredQueue Interleaving
open MotorLink (Call Processor)

/-- The actions that nothing from outside has to bring about. -/
def internal : Action → Bool
  | .auto _ | .pollControls _ _ | .expireArm | .expire _ => false
  | _ => true

def pollWork : Poll ℚ SharedCmd → Nat
  | .waiting => 0
  | .publishing _ rest listeners => 10 * listeners.length + rest.length + 2
  | .invoking listeners => 10 * listeners.length + 1

def handlerWork : SteerHandler ℚ → Nat
  | .testX => 8
  | .readX => 7
  | .testY _ => 6
  | .readY _ => 5
  | .driveLeft _ _ => 4
  | .driveRight _ => 2

def Tick.work : Tick → Nat
  | .expired => 5
  | .stepping => 4
  | .aiming _ => 3
  | .sent => 1

def motors : List Motor :=
  [.rotFR, .rotFL, .rotBk, .drvFR, .drvFL, .drvBk, .mShooter, .mArmRoll, .mArmMove]

def waiting (links : Motor → Processor ℚ) : Nat :=
  (motors.map fun motor => (links motor).queue.length).sum

/-- A bound on the internal actions that are still to come. -/
def work (parties : Parties) : Nat :=
  2 * (parties.auto.robot.global.speedControls.length - parties.started) + pollWork parties.poll +
    9 * parties.steers + (parties.handler.elim 0 handlerWork) + 3 * parties.begun + parties.sent +
    (parties.ticks.map fun entry => entry.2.work).sum + waiting parties.links

/-- Nothing is under way, and every Talon has the power that was asked for last. -/
structure Settled (parties : Parties) : Prop where
  started : parties.auto.robot.global.speedControls.length ≤ parties.started
  poll : parties.poll = .waiting
  steers : parties.steers = 0
  handler : parties.handler = none
  begun : parties.begun = 0
  sent : parties.sent = 0
  ticks : parties.ticks = []
  queue : ∀ motor, (parties.links motor).queue = []
  talon : ∀ motor, (parties.links motor).state.link.talon = askedLast parties.calls motor

theorem mem_motors (motor : Motor) : motor ∈ motors := by
  cases motor <;> decide

instance (parties : Parties) : Decidable (Settled parties) :=
  decidable_of_iff (parties.auto.robot.global.speedControls.length ≤ parties.started ∧
      parties.poll = .waiting ∧ parties.steers = 0 ∧ parties.handler.isNone ∧
      parties.begun = 0 ∧ parties.sent = 0 ∧ parties.ticks.isEmpty ∧ ∀ motor ∈ motors,
        (parties.links motor).queue.isEmpty ∧
          (parties.links motor).state.link.talon = askedLast parties.calls motor) (by
    simp only [Option.isNone_iff_eq_none, List.isEmpty_iff]
    constructor
    · rintro ⟨started, poll, steers, handler, begun, sent, ticks, links⟩
      exact ⟨started, poll, steers, handler, begun, sent, ticks,
        fun motor => (links motor (mem_motors motor)).1,
        fun motor => (links motor (mem_motors motor)).2⟩
    · intro settled
      exact ⟨settled.started, settled.poll, settled.steers, settled.handler, settled.begun,
        settled.sent, settled.ticks, fun motor _ => ⟨settled.queue motor, settled.talon motor⟩⟩)

section Work

variable {parties next : Parties}

theorem waiting_update (links : Motor → Processor ℚ) (motor : Motor) (processor : Processor ℚ) :
    waiting (Function.update links motor processor) + (links motor).queue.length =
      waiting links + processor.queue.length := by
  cases motor <;> simp [waiting, motors, Function.update] <;> omega

theorem issue_queue {processor issued : Processor ℚ} {call : Call ℚ}
    (taken : MotorLink.issue processor call = some issued) :
    issued.queue.length ≤ processor.queue.length + 1 := by
  cases call with
  | setSpeed pow =>
      obtain ⟨released, _, rfl⟩ := Option.map_eq_some_iff.mp taken
      simp
  | setControlTarget target =>
      obtain ⟨state, _, rfl⟩ := Option.map_eq_some_iff.mp taken
      exact Nat.le_succ _
  | setSpeedForce | setEncoder | reverseMotor | setSpeedScalar | startSpeedControl
  | setSpeedController | stopSpeedControl =>
      cases taken
      simp

theorem ask_work {source : Source} {motor : Motor} {call : Call ℚ}
    (taken : parties.ask source motor call = .ok next) : work next ≤ work parties + 1 := by
  obtain ⟨processor, issued, rfl⟩ := ask_ok taken
  have longer := issue_queue issued
  have update := waiting_update parties.links motor processor
  simp only [work, Parties.setLink]
  omega

theorem invoke_work {listener : SharedCmd} (taken : parties.invoke listener = .ok next) :
    work next ≤ work parties + 9 := by
  unfold Parties.invoke at taken
  split at taken
  · cases taken
    exact Nat.le_add_right ..
  · cases taken
    exact Nat.le_add_right ..
  · cases taken
    exact Nat.le_add_right ..
  · cases taken
    exact Nat.le_add_right ..
  · cases taken
    exact Nat.le_add_right ..
  · exact (ask_work taken).trans (by omega)
  · cases taken
    simp only [work]
    omega

theorem read_work {values : ControlValues ℚ} {handler later : SteerHandler ℚ}
    (taken : handler.read values = some later) : handlerWork later < handlerWork handler := by
  cases handler with
  | testX | testY =>
      simp only [ArcadeDrive.read_testX, ArcadeDrive.read_testY, Option.some.injEq] at taken
      subst taken
      split <;> simp [handlerWork]
  | readX | readY =>
      simp only [ArcadeDrive.read_readX, ArcadeDrive.read_readY, Option.some.injEq] at taken
      subst taken
      simp [handlerWork]
  | driveLeft | driveRight => cases taken

theorem advance_work (taken : parties.advance = .ok next) : work next < work parties := by
  unfold Parties.advance at taken
  split at taken
  · cases taken
  · rename_i spdL spdR running
    have asked := ask_work taken
    simp only [work, running, Option.elim_some, handlerWork] at asked ⊢
    omega
  · rename_i spdR running
    have asked := ask_work taken
    simp only [work, running, Option.elim_some, Option.elim_none, handlerWork] at asked ⊢
    omega
  · rename_i handler _ _ running
    cases read : handler.read parties.values with
    | none =>
        rw [read] at taken
        cases taken
    | some later =>
        rw [read] at taken
        cases taken
        have less := read_work read
        simp only [work, running, Option.elim_some]
        omega

theorem setTick_work {index : Nat} {motor : Motor} {before : Tick}
    (under : parties.ticks[index]? = some (motor, before)) (after : Tick) :
    work (parties.setTick index motor after) + before.work = work parties + after.work := by
  have changed := sum_map_set under (fun entry => entry.2.work) (motor, after)
  simp only [work, Parties.setTick] at changed ⊢
  omega

theorem tick_work {index : Nat} {encoderAngle : ℚ}
    (taken : parties.tick index encoderAngle = .ok next) : work next < work parties := by
  unfold Parties.tick at taken
  split at taken
  · cases taken
  · rename_i motor under
    cases taken
    have fewer := sum_map_eraseIdx under (fun entry => entry.2.work)
    have kept := waiting_update parties.links motor { parties.links motor with
      state := MotorLinkPointers.withControl (parties.links motor).state 0
        (parties.control motor).start }
    simp only [work, Parties.setControl, Parties.setLink, Tick.work] at fewer kept ⊢
    omega
  · rename_i motor before notSent under
    dsimp only at taken
    split at taken
    · cases before with
      | expired =>
          dsimp only at taken
          split at taken
          · have asked := ask_work taken
            have moved := setTick_work under .sent
            simp only [Tick.work] at moved
            omega
          · cases taken
            have moved := setTick_work under .stepping
            simp only [Tick.work] at moved
            omega
      | stepping =>
          cases taken
          have moved := setTick_work under (.aiming (RobotMath.angleDistance encoderAngle
            (controller (parties.control motor).target).targetAngle))
          simp only [Tick.work] at moved
          omega
      | aiming error =>
          have asked := ask_work taken
          have moved := setTick_work under .sent
          simp only [Tick.work] at moved
          omega
      | sent => exact absurd rfl notSent
    · cases taken

/-- Each internal action uses up some of the work. -/
theorem internal_work {repeats : Bool} {action : Action} (inside : internal action = true)
    (taken : perform repeats parties action = .ok next) : work next < work parties := by
  cases action with
  | auto | pollControls | expireArm | expire => cases inside
  | startSpeedControl =>
      simp only [perform, Parties.startSpeedControl] at taken
      split at taken
      · cases taken
      · rename_i motor target found
        have more := (List.getElem?_eq_some_iff.mp found).1
        have asked := ask_work taken
        simp only [work] at asked ⊢
        omega
  | publish =>
      simp only [perform, Parties.publish] at taken
      split at taken
      · rename_i newValues counter rest listeners publishing
        cases taken
        simp only [work, publishing, pollWork, List.length_cons]
        omega
      · rename_i newValues listeners publishing
        cases taken
        simp only [work, publishing, pollWork, List.length_nil]
        omega
      · cases taken
  | invoke =>
      simp only [perform, Parties.invokeNext] at taken
      split at taken
      · rename_i listener rest invoking
        have called := invoke_work taken
        simp only [work, invoking, pollWork, List.length_cons] at called ⊢
        omega
      · rename_i invoking
        cases taken
        simp only [work, invoking, pollWork, List.length_nil]
        omega
      · cases taken
  | steerHandler =>
      simp only [perform] at taken
      split at taken
      · rename_i waits
        cases taken
        have idle := Option.isNone_iff_eq_none.mp waits.2
        simp only [work, idle, Option.elim_some, Option.elim_none, handlerWork]
        omega
      · cases taken
  | advance => exact advance_work taken
  | executeArm shooterTSensor =>
      simp only [perform, Parties.executeArm] at taken
      split at taken
      · cases taken
      · split at taken
        · cases taken
          simp only [work]
          omega
        · have asked := ask_work taken
          simp only [work] at asked ⊢
          omega
  | rearmArm =>
      simp only [perform] at taken
      split at taken
      · cases taken
        simp only [work]
        omega
      · cases taken
  | tick index encoderAngle => exact tick_work taken
  | serve motor =>
      simp only [perform, Parties.serve] at taken
      split at taken
      · cases taken
      · cases served : (parties.links motor).serve LinkState.exec with
        | none =>
            rw [served] at taken
            cases taken
        | some processor =>
            rw [served] at taken
            cases taken
            obtain ⟨request, same, _⟩ := (serve_iff _ _ _).mp served
            have update := waiting_update parties.links motor processor
            rw [same, List.length_cons] at update
            simp only [work, Parties.setLink]
            omega

end Work

section Rest

variable {parties : Parties}

theorem ask_free (source : Source) (motor : Motor) (call : Call ℚ) :
    parties.ask source motor call ≠ .error .blocked := by
  unfold Parties.ask
  cases MotorLink.issue (parties.links motor) call <;> nofun

theorem invoke_free (listener : SharedCmd) : parties.invoke listener ≠ .error .blocked := by
  unfold Parties.invoke
  split
  · nofun
  · nofun
  · nofun
  · nofun
  · nofun
  · exact ask_free _ _ _
  · nofun

theorem poll_waiting (published : parties.publish = .error .blocked)
    (invoked : parties.invokeNext = .error .blocked) : parties.poll = .waiting := by
  unfold Parties.publish at published
  unfold Parties.invokeNext at invoked
  cases stands : parties.poll with
  | waiting => rfl
  | publishing newValues rest listeners => cases rest <;> simp [stands] at published
  | invoking listeners =>
      cases listeners with
      | nil => simp [stands] at invoked
      | cons listener rest =>
          simp only [stands] at invoked
          exact absurd invoked (invoke_free listener)

theorem handler_none (advanced : parties.advance = .error .blocked) : parties.handler = none := by
  unfold Parties.advance at advanced
  split at advanced
  · assumption
  · exact absurd advanced (ask_free _ _ _)
  · exact absurd advanced (ask_free _ _ _)
  · rename_i handler _ _ _
    cases read : handler.read parties.values <;> rw [read] at advanced <;> cases advanced

theorem begun_zero (executed : parties.executeArm 0 = .error .blocked) : parties.begun = 0 := by
  unfold Parties.executeArm at executed
  split at executed
  · assumption
  · split at executed
    · cases executed
    · exact absurd executed (ask_free _ _ _)

theorem ticks_nil (ticked : parties.tick 0 0 = .error .blocked) : parties.ticks = [] := by
  unfold Parties.tick at ticked
  split at ticked
  · rename_i none
    exact List.eq_nil_of_length_eq_zero (Nat.le_zero.mp (List.getElem?_eq_none_iff.mp none))
  · cases ticked
  · rename_i motor before notSent _
    dsimp only at ticked
    split at ticked
    · cases before with
      | expired =>
          dsimp only at ticked
          split at ticked
          · exact absurd ticked (ask_free _ _ _)
          · cases ticked
      | stepping => cases ticked
      | aiming error => exact absurd ticked (ask_free _ _ _)
      | sent => exact absurd rfl notSent
    · cases ticked

theorem queue_nil {motor : Motor} (served : parties.serve motor = .error .blocked) :
    (parties.links motor).queue = [] := by
  unfold Parties.serve at served
  split at served
  · assumption
  · cases done : (parties.links motor).serve LinkState.exec <;> rw [done] at served <;> cases served

/-- The robot is at rest exactly where no thread can go on by itself. -/
theorem Inv.settled_iff {ranged : Prop} {armEnabled repeats : Bool} {on : Motor → Prop}
    (inv : Inv ranged armEnabled on parties) :
    (∀ action, internal action = true → step (perform repeats) parties action = none) ↔
      Settled parties := by
  constructor
  · intro refused
    have blocked : ∀ action, internal action = true →
        perform repeats parties action = .error .blocked := by
      intro action inside
      have inRange : Ranged action := by
        cases action <;> trivial
      exact (inv.act fun _ => inRange).blocked (refused action inside)
    have handler := handler_none (blocked .advance rfl)
    have queue := fun motor => queue_nil (blocked (.serve motor) rfl)
    refine
      { poll := poll_waiting (blocked .publish rfl) (blocked .invoke rfl)
        handler := handler
        begun := begun_zero (blocked (.executeArm 0) rfl)
        ticks := ticks_nil (blocked (.tick 0 0) rfl)
        queue := queue
        started := ?_, steers := ?_, sent := ?_, talon := ?_ }
    · have all := blocked .startSpeedControl rfl
      simp only [perform, Parties.startSpeedControl] at all
      split at all
      · rename_i none
        exact List.getElem?_eq_none_iff.mp none
      · exact absurd all (ask_free _ _ _)
    · have steered := blocked .steerHandler rfl
      simp only [perform, handler] at steered
      split at steered
      · cases steered
      · rename_i none
        simpa using none
    · have rearmed := blocked .rearmArm rfl
      simp only [perform] at rearmed
      split at rearmed
      · cases rearmed
      · rename_i none
        omega
    · intro motor
      have follows := inv.follows motor
      rw [comesTo, queue motor] at follows
      exact follows
  · intro settled action inside
    apply step_blocked
    cases action with
    | auto | pollControls | expireArm | expire => cases inside
    | startSpeedControl =>
        simp only [perform, Parties.startSpeedControl, List.getElem?_eq_none settled.started]
    | publish => simp only [perform, Parties.publish, settled.poll]
    | invoke => simp only [perform, Parties.invokeNext, settled.poll]
    | steerHandler => simp [perform, settled.steers]
    | advance => simp only [perform, Parties.advance, settled.handler]
    | executeArm => simp only [perform, Parties.executeArm, settled.begun, ↓reduceIte]
    | rearmArm => simp [perform, settled.sent]
    | tick => simp [perform, Parties.tick, settled.ticks]
    | serve motor => simp only [perform, Parties.serve, settled.queue motor, ↓reduceIte]

end Rest

variable (alliance : Alliance) (armEnabled repeats : Bool)

/-- Whatever its threads are doing, between two signals from outside the robot
can only take so many steps, and where it can take no more every Talon has the
power that was asked for last. -/
theorem comes_to_rest {before after : List Action} {middle last : Parties}
    (first : run (step (perform repeats)) (initial alliance armEnabled) before = some middle)
    (alone : ∀ action ∈ after, internal action = true)
    (later : run (step (perform repeats)) middle after = some last) :
    after.length + work last ≤ work middle ∧
      ((∀ action, internal action = true → step (perform repeats) last action = none) ↔
        Settled last) := by
  have inv : Inv False armEnabled (fun _ => False) (initial alliance armEnabled) := inv_initial ..
  have started := (inv.reach nofun first).1
  refine ⟨?_, (started.reach nofun later).1.settled_iff⟩
  exact run_length_le (fun _ _ _ inside taken => internal_work inside (step_iff.mp taken))
    alone later

/-- What the threads that are left with something to do make of it. -/
def ending : List Action :=
  [.tick 0 0, .startSpeedControl, .startSpeedControl, .serve .rotFL, .serve .rotFR]

def ended : Parties := (run (step (perform true)) turned ending).getD turned

theorem run_ending : run (step (perform true)) turned ending = some ended := by
  have taken : (run (step (perform true)) turned ending).isSome = true := by decide +kernel
  obtain ⟨last, ran⟩ := Option.isSome_iff_exists.mp taken
  rw [ended, ran, Option.getD_some]

theorem comes_to_rest_ending :
    ending.length + work ended ≤ work turned ∧
      ((∀ action, internal action = true → step (perform true) ended action = none) ↔
        Settled ended) :=
  comes_to_rest .red true true run_turning (by decide) run_ending

end FrcRobot.Robot
