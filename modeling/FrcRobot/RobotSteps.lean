import FrcRobot.RobotInvariant

set_option autoImplicit false

/- Each step of each thread of the robot gets through without a fault and keeps the
invariant. -/
namespace FrcRobot.Robot

open ArcadeDrive (Poll SteerHandler)
open Attempt AutoConfig Interleaving ListenerManager PollingScript

variable {ranged : Prop} {armEnabled repeats : Bool} {on : Motor → Prop} {parties : Parties}

section Main

theorem Inv.carryOut (inv : Inv ranged armEnabled on parties) {entry : Nat × AutoRequest}
    (allowed : Allows ranged armEnabled entry.1 entry.2) :
    Safe (Inv ranged armEnabled on) (parties.carryOut entry) := by
  obtain ⟨thread, request⟩ := entry
  cases request with
  | setControlTarget motor target => exact inv.ask allowed
  | setSpeed motor pow => exact inv.ask allowed
  | cockShooterCancel | cockShooterStart => exact { inv with }

/-- What an autonomous step makes of the robot before its request is carried out. -/
theorem Inv.auto (inv : Inv ranged armEnabled on parties) {action : AutonomousSequences.Action}
    {auto : AutonomousSequences.Parties}
    (taken : AutonomousSequences.step parties.auto action = some auto) :
    Inv ranged armEnabled on { parties with auto := auto } ∧
      ∀ entry ∈ auto.requests.drop parties.auto.requests.length,
        Allows ranged armEnabled entry.1 entry.2 := by
  cases action with
  | callback callback =>
      obtain ⟨grown, same⟩ := AutonomousSequences.callback_sequences _ callback _ taken
      refine ⟨{ inv with speedControls := ?_, scripts := ?_, table := ?_ }, ?_⟩
      · cases taken
        exact call_speedControls inv.speedControls callback
      · intro sequence member command mentioned
        have member : sequence ∈ auto.sequences := member
        rw [grown] at member
        rcases List.mem_append.mp member with old | new
        · exact inv.scripts sequence old command mentioned
        · split at new
          · rw [List.mem_singleton.mp new] at mentioned
            exact start_scripted command mentioned
          · cases new
      · cases taken
        exact call_bound inv.table callback
      · rw [same, List.drop_length]
        nofun
  | elapse milliseconds =>
      cases taken
      refine ⟨{ inv with }, ?_⟩
      rw [List.drop_length]
      nofun
  | advance thread angle =>
      obtain ⟨sequence, emitted, later, running, stepped, moved, requested⟩ :=
        AutonomousSequences.step_advance taken
      obtain ⟨sameTable, sameControls⟩ := advance_global taken
      have scripted := inv.scripts sequence (List.mem_of_getElem? running)
      have advanced := step_code stepped
      refine ⟨{ inv with speedControls := ?_, scripts := ?_, table := ?_ }, ?_⟩
      · exact sameControls ▸ inv.speedControls
      · intro other member command mentioned
        have member : other ∈ auto.sequences := member
        rw [moved] at member
        rcases List.mem_or_eq_of_mem_set member with old | new
        · exact inv.scripts other old command mentioned
        · rw [new] at mentioned
          exact scripted command (mentions_advance advanced command (.inr mentioned))
      · exact sameTable ▸ inv.table
      · intro entry member
        rw [requested, List.drop_left] at member
        obtain ⟨request, asked, rfl⟩ := Option.map_eq_some_iff.mp (Option.mem_toList.mp member)
        obtain ⟨command, rfl, asks⟩ := Option.bind_eq_some_iff.mp asked
        exact (scripted command (mentions_advance advanced command (.inl rfl))).request asks ranged
          armEnabled thread

theorem Inv.autoStep (inv : Inv ranged armEnabled on parties)
    (action : AutonomousSequences.Action) :
    Safe (Inv ranged armEnabled on) (parties.autoStep action) := by
  unfold Parties.autoStep
  split
  · exact rfl
  · have stepped : Safe (fun auto => AutonomousSequences.step parties.auto action = some auto)
        (orRefuse .blocked (AutonomousSequences.step parties.auto action)) :=
      safe_blocked.mpr fun auto taken => taken
    refine stepped.bind fun auto taken => ?_
    obtain ⟨kept, allowed⟩ := inv.auto taken
    exact safe_foldlM (fun entry member _ inv => inv.carryOut (allowed entry member)) kept

theorem Inv.startSpeedControl (inv : Inv ranged armEnabled on parties) :
    Safe (Inv ranged armEnabled on) parties.startSpeedControl := by
  unfold Parties.startSpeedControl
  split
  · exact rfl
  · rename_i motor target next
    have counted : Inv ranged armEnabled on { parties with started := parties.started + 1 } :=
      { inv with }
    exact counted.ask (inv.speedControls _ (List.mem_of_getElem? next))

end Main

section Polling

theorem bound_of_collected {table : ListenerMap SharedCmd} (bound : ∀ entry ∈ table, Bound entry.2)
    {old new : ControlValues ℚ} {listener : SharedCmd}
    (collected : Collected table old new listener) :
    Bound listener := by
  have under : ∀ code, Under table code listener → Bound listener := by
    rintro code ⟨entry, member, _, rfl⟩
    exact bound entry member
  rcases collected with ⟨_, _, _, down | up⟩ | ⟨_, _, _, found⟩
  · exact under _ down
  · exact under _ up
  · exact under _ found

theorem Inv.pollControls (inv : Inv ranged armEnabled on parties) {joystick : Joystick ℚ}
    (inRange : ranged → ∀ axis, |joystick.getRawAxis axis| ≤ 1) (listeners : List SharedCmd) :
    Safe (Inv ranged armEnabled on) (parties.pollControls joystick listeners) := by
  unfold Parties.pollControls
  split
  · dsimp only
    split
    · rename_i waiting due
      refine { inv with collected := ?_, values := ?_, polled := ?_ }
      · intro listener member
        rw [Poll.listeners, ← List.mem_toFinset, due.2, mem_cycle] at member
        exact bound_of_collected inv.table member
      · exact inv.values
      · rintro newValues rest others same within
        cases same
        rw [cycle_values]
        exact pollControls_inRange (inRange within)
    · exact rfl
  · exact rfl

theorem Inv.publish (inv : Inv ranged armEnabled on parties) :
    Safe (Inv ranged armEnabled on) parties.publish := by
  unfold Parties.publish
  split
  · rename_i newValues counter rest listeners publishing
    have polled := inv.polled newValues (counter :: rest) listeners publishing
    refine { inv with collected := ?_, values := ?_, polled := ?_ }
    · have collected := inv.collected
      rw [publishing] at collected
      exact collected
    · exact fun within => setAxis_inRange (inv.values within) (polled within) counter
    · rintro _ _ _ same
      cases same
      exact polled
  · rename_i newValues listeners publishing
    refine { inv with collected := ?_, polled := nofun }
    have collected := inv.collected
    rw [publishing] at collected
    exact collected
  · exact rfl

theorem Inv.invoke (inv : Inv ranged armEnabled on parties) {listener : SharedCmd}
    (bound : Bound listener) :
    Safe (Inv ranged armEnabled on) (parties.invoke listener) := by
  unfold Parties.invoke
  split
  · exact inv
  · exact { inv with }
  · exact { inv with }
  · exact { inv with }
  · exact { inv with }
  · rename_i motor pow calls
    exact inv.ask (bound.permitted calls)
  · exact { inv with }

theorem Inv.invokeNext (inv : Inv ranged armEnabled on parties) :
    Safe (Inv ranged armEnabled on) parties.invokeNext := by
  unfold Parties.invokeNext
  split
  · rename_i listener rest invoking
    have collected := inv.collected
    rw [invoking] at collected
    have popped : Inv ranged armEnabled on { parties with poll := .invoking rest } :=
      { inv with
        collected := fun other member => collected other (List.mem_cons_of_mem _ member)
        polled := nofun }
    exact popped.invoke (collected listener (List.mem_cons_self ..))
  · exact { inv with collected := nofun, polled := nofun }
  · exact rfl

end Polling

section Drive

theorem Inv.steerHandler (inv : Inv ranged armEnabled on parties) :
    Safe (Inv ranged armEnabled on) (perform repeats parties .steerHandler) := by
  simp only [perform]
  split
  · refine { inv with handler := ?_ }
    rintro running same
    cases same
    trivial
  · exact rfl

theorem Inv.advance (inv : Inv ranged armEnabled on parties) :
    Safe (Inv ranged armEnabled on) parties.advance := by
  unfold Parties.advance
  split
  · exact rfl
  · rename_i spdL spdR running
    obtain ⟨left, right⟩ := inv.handler _ running
    have moved : Inv ranged armEnabled on { parties with handler := some (.driveRight spdR) } :=
      { inv with handler := fun _ same => by cases same; exact right }
    exact moved.ask ⟨by decide, left⟩
  · rename_i spdR running
    have moved : Inv ranged armEnabled on { parties with handler := none } :=
      { inv with handler := nofun }
    exact moved.ask ⟨by decide, inv.handler _ running⟩
  · rename_i handler noLeft noRight running
    rw [safe_map]
    refine safe_crashed.mpr ?_
    obtain ⟨next, read, steady⟩ :=
      (inv.handler handler running).read inv.values noLeft noRight
    exact ⟨next, read, { inv with handler := fun _ same => by cases same; exact steady }⟩

end Drive

section Arm

theorem Inv.expireArm (inv : Inv ranged armEnabled on parties) :
    Safe (Inv ranged armEnabled on) (perform repeats parties .expireArm) := by
  simp only [perform]
  split
  · exact { inv with }
  · exact rfl

theorem Inv.executeArm (inv : Inv ranged armEnabled on parties) (shooterTSensor : Nat) :
    Safe (Inv ranged armEnabled on) (parties.executeArm shooterTSensor) := by
  unfold Parties.executeArm
  split
  · exact rfl
  · split
    · exact { inv with }
    · rename_i speed asked
      have counted : Inv ranged armEnabled on { parties with
          begun := parties.begun - 1, sent := parties.sent + 1 } := { inv with }
      refine counted.ask ?_
      rw [inv.options, CockArm.execute] at asked
      split at asked
      · cases asked
      · rename_i enabled
        refine ⟨?_, rfl, ?_⟩
        · simp only [Bool.or_eq_true, not_or, Bool.not_eq_true] at enabled
          exact enabled.2
        · split at asked
          · cases asked
            exact .inr rfl
          · cases asked
            exact .inl rfl

theorem Inv.rearmArm (inv : Inv ranged armEnabled on parties) :
    Safe (Inv ranged armEnabled on) (perform repeats parties .rearmArm) := by
  simp only [perform]
  split
  · exact { inv with }
  · exact rfl

end Arm

section Controllers

/-- A controller and the calls of its execute change together. -/
theorem Inv.retick (inv : Inv ranged armEnabled on parties) {motor : Motor}
    {control : MotorControl ℚ}
    {ticks : List (Motor × Tick)}
    (same : control.controlledMotor = (parties.control motor).controlledMotor)
    (armed : control.timerArmed = true → control.controlledMotor = true)
    (measured : ∀ entry ∈ ticks,
      (parties.control entry.1).controlledMotor = true ∧ entry.2.Measured)
    (here : control.timerArmed = true ∨ ∃ tick, (motor, tick) ∈ ticks)
    (elsewhere : ∀ other, other ≠ motor → ∀ tick, (other, tick) ∈ parties.ticks →
      (other, tick) ∈ ticks) :
    Inv ranged armEnabled on { parties.setControl motor control with ticks := ticks } := by
  have link : ∀ other, ((parties.setControl motor control).links other).state.link =
      (parties.links other).state.link := by
    intro other
    by_cases apart : other = motor
    · subst apart
      simp [Parties.setControl, Parties.setLink, MotorLinkPointers.withControl]
    · simp [Parties.setControl, Parties.setLink, apart]
  have queue : ∀ other, ((parties.setControl motor control).links other).queue =
      (parties.links other).queue := by
    intro other
    by_cases apart : other = motor
    · subst apart
      simp [Parties.setControl, Parties.setLink]
    · simp [Parties.setControl, Parties.setLink, apart]
  have controls : ∀ other, (parties.setControl motor control).control other =
      if other = motor then control else parties.control other := by
    intro other
    rw [Parties.setControl, control_setLink]
    simp [MotorLinkPointers.withControl]
  refine { inv with links := ?_, ticks := ?_, alive := ?_, enabled := ?_, follows := ?_ }
  · intro other
    by_cases apart : other = motor
    · subst apart
      show Wired ranged other (Function.update parties.links other _ other)
      rw [Function.update_self]
      exact (inv.links other).withControl same armed
    · show Wired ranged other (Function.update parties.links motor _ other)
      rw [Function.update_of_ne apart]
      exact inv.links other
  · intro entry member
    obtain ⟨controlled, bounded⟩ := measured entry member
    refine ⟨?_, bounded⟩
    show ((parties.setControl motor control).control entry.1).controlledMotor = true
    rw [controls]
    split
    · rename_i equal
      rw [same, ← equal, controlled]
    · exact controlled
  · intro other enabled
    have before : Alive parties other := inv.alive other ((link other).symm ▸ enabled)
    show ((parties.setControl motor control).control other).timerArmed = true ∨ _
    rw [controls]
    by_cases apart : other = motor
    · subst apart
      rw [if_pos rfl]
      exact here
    · rw [if_neg apart]
      exact before.imp_right fun running => running.imp (elsewhere other apart)
  · intro other started
    exact (link other).symm ▸ inv.enabled other started
  · intro other
    refine Eq.trans ?_ (inv.follows other)
    unfold comesTo
    rw [← link other, ← queue other]

theorem Inv.setTick (inv : Inv ranged armEnabled on parties) {index : Nat} {motor : Motor}
    {step : Tick}
    (under : parties.ticks[index]? = some (motor, step)) (next : Tick) (measured : next.Measured) :
    Inv ranged armEnabled on (parties.setTick index motor next) := by
  obtain ⟨inside, _⟩ := List.getElem?_eq_some_iff.mp under
  have controlled := (inv.ticks _ (List.mem_of_getElem? under)).1
  refine { inv with ticks := ?_, alive := ?_ }
  · intro entry member
    rcases List.mem_or_eq_of_mem_set member with old | rfl
    · exact inv.ticks entry old
    · exact ⟨controlled, measured⟩
  · intro other enabled
    refine (inv.alive other enabled).imp_right ?_
    rintro ⟨tick, member⟩
    by_cases apart : other = motor
    · exact ⟨next, apart ▸ List.mem_set inside _⟩
    · exact ⟨tick, mem_set_of_ne under (fun same => apart (Prod.mk.inj same).1) member⟩

theorem Inv.expire (inv : Inv ranged armEnabled on parties) (motor : Motor) :
    Safe (Inv ranged armEnabled on) (parties.expire repeats motor) := by
  unfold Parties.expire
  split
  · rename_i armed
    have controlled := (inv.links motor).armed armed
    refine inv.retick ?_ ?_ ?_ (.inr ⟨.expired, ?_⟩) ?_
    · cases repeats <;> rfl
    · cases repeats with
      | false => nofun
      | true => exact fun _ => controlled
    · intro entry member
      rcases List.mem_append.mp member with old | new
      · exact inv.ticks entry old
      · rw [List.mem_singleton.mp new]
        exact ⟨controlled, trivial⟩
    · exact List.mem_append_right _ (List.mem_singleton_self _)
    · exact fun other _ tick member => List.mem_append_left _ member
  · exact rfl

theorem Inv.tick (inv : Inv ranged armEnabled on parties) (index : Nat) (encoderAngle : ℚ) :
    Safe (Inv ranged armEnabled on) (parties.tick index encoderAngle) := by
  unfold Parties.tick
  split
  · exact rfl
  · rename_i motor under
    have controlled := (inv.ticks _ (List.mem_of_getElem? under)).1
    refine inv.retick rfl (fun _ => controlled) ?_ (.inl rfl) ?_
    · exact fun entry member => inv.ticks entry (List.mem_of_mem_eraseIdx member)
    · exact fun other apart tick member =>
        mem_eraseIdx_of_ne under (fun same => apart (Prod.mk.inj same).1) member
  · rename_i motor step notSent under
    obtain ⟨controlled, measured⟩ := inv.ticks _ (List.mem_of_getElem? under)
    have turning : rotates motor = true := (inv.links motor).controlled controlled
    have read : parties.encoderRead motor = true := by
      simp only [Parties.encoderRead, controlled, (inv.links motor).encoder turning, Bool.and_self]
    dsimp only
    rw [if_pos read]
    cases step with
    | expired =>
        dsimp only
        split
        · have sent := inv.setTick under .sent trivial
          exact sent.ask ⟨rfl, turning, .inl rfl⟩
        · exact inv.setTick under .stepping trivial
    | stepping => exact inv.setTick under (.aiming _) (RobotMath.abs_angleDistance_le _ _)
    | aiming error =>
        have sent := inv.setTick under .sent trivial
        exact sent.ask ⟨rfl, turning, stepPower_turnPower _ measured _⟩
    | sent => exact absurd rfl notSent

theorem Inv.serve (inv : Inv ranged armEnabled on parties) (motor : Motor) :
    Safe (Inv ranged armEnabled on) (parties.serve motor) := by
  unfold Parties.serve
  split
  · exact rfl
  · rename_i waiting
    obtain ⟨next, served, wired, onward, written⟩ := (inv.links motor).serve waiting
    rw [served]
    exact inv.setLink wired onward inv.calls (written.trans (inv.follows motor)) fun _ _ => rfl

end Controllers

end FrcRobot.Robot
