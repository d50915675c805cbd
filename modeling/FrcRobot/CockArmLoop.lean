import FrcRobot.CockArm
import FrcRobot.Interleaving

set_option autoImplicit false

/- The arm's loop and its two switches, over runs whose ticks are not divided. -/
namespace FrcRobot.CockArmLoop

open Interleaving

/-- What a tick asked of the shooter, and what it found. -/
structure Asked where
  cockArmActive : Bool
  armEnabled : Bool
  shooterTSensor : Nat
  speed : ℚ
  deriving DecidableEq

/-- `started` and `asked` are no part of the program: whether the loop has been
started and not cancelled since, and the speeds that the ticks have asked for. -/
structure Loop where
  arm : CockArm
  armEnabled : Bool
  started : Bool
  asked : List Asked
  deriving DecidableEq

inductive Action where
  | start
  | cancel
  | stopArmCock
  | startArmCock
  | setArmEnabled (enabled : Bool)
  | tick (shooterTSensor : Nat)

/-- An arm as it is constructed. -/
def initial (armEnabled : Bool) : Loop := ⟨⟨true, false⟩, armEnabled, false, []⟩

/-- The timer expires, execute asks for a speed and arms the timer again, unless
it has returned early. -/
def Loop.tick (loop : Loop) (shooterTSensor : Nat) : Loop :=
  match loop.arm.execute loop.armEnabled shooterTSensor with
  | none => { loop with arm := loop.arm.expire }
  | some speed =>
      { loop with
        arm := loop.arm.expire.startRelative
        asked := ⟨loop.arm.cockArmActive, loop.armEnabled, shooterTSensor, speed⟩ :: loop.asked }

def step (loop : Loop) : Action → Option Loop
  | .start => some { loop with arm := loop.arm.start, started := true }
  | .cancel => some { loop with arm := loop.arm.cancel, started := false }
  | .stopArmCock => some { loop with arm := loop.arm.stopArmCock }
  | .startArmCock => some { loop with arm := loop.arm.startArmCock }
  | .setArmEnabled enabled => some { loop with armEnabled := enabled }
  | .tick shooterTSensor =>
      if loop.arm.timerIsRunning then some (loop.tick shooterTSensor) else none

/-- Every speed was asked for with both switches on, and is the sensor's. -/
def Switched (loop : Loop) : Prop :=
  ∀ asked ∈ loop.asked, asked.cockArmActive = true ∧ asked.armEnabled = true ∧
    asked.speed = if asked.shooterTSensor = 0 then -1 else 0

/-- A loop that has been started goes on. -/
def GoesOn (loop : Loop) : Prop := loop.started = true → loop.arm.timerIsRunning = true

def IsTick : Action → Prop
  | .tick _ => True
  | _ => False

/-- A tick finds the arm inactive or enabled. -/
def Silent (loop : Loop) : Action → Prop
  | .tick _ => loop.arm.cockArmActive = false ∨ loop.armEnabled = true
  | _ => True

/-- A tick finds the arm active and not enabled. -/
def Asking (loop : Loop) : Action → Prop
  | .tick _ => loop.arm.cockArmActive = true ∧ loop.armEnabled = false
  | _ => True

/-- The source tests for the arm being enabled where it returns early. -/
theorem tick_silent {loop : Loop} {sensor : Nat} (silent : Silent loop (.tick sensor)) :
    loop.tick sensor = { loop with arm := loop.arm.expire } := by
  have early : loop.arm.execute loop.armEnabled sensor = none := by
    rw [CockArm.execute, if_pos]
    simpa [Silent] using silent
  rw [Loop.tick, early]

theorem tick_asking {loop : Loop} {sensor : Nat} (asking : Asking loop (.tick sensor)) :
    loop.tick sensor = { loop with
      arm := loop.arm.expire.startRelative
      asked := ⟨true, false, sensor, if sensor = 0 then -1 else 0⟩ :: loop.asked } := by
  obtain ⟨active, disabled⟩ := asking
  have speed : loop.arm.execute loop.armEnabled sensor = some (if sensor = 0 then -1 else 0) := by
    rw [CockArm.execute, if_neg (by simp [active, disabled])]
    split <;> rfl
  rw [Loop.tick, speed]
  simp only [active, disabled]

theorem asking_or_silent (loop : Loop) (sensor : Nat) :
    Asking loop (.tick sensor) ∧ ¬Silent loop (.tick sensor) ∨
      Silent loop (.tick sensor) ∧ ¬Asking loop (.tick sensor) := by
  obtain ⟨⟨active, _⟩, enabled, _, _⟩ := loop
  cases active <;> cases enabled <;> simp [Asking, Silent]

theorem step_tick {loop next : Loop} {sensor : Nat}
    (taken : step loop (.tick sensor) = some next) :
    loop.arm.timerIsRunning = true ∧ next = loop.tick sensor := by
  obtain ⟨running, same⟩ := Option.ite_none_right_eq_some.mp taken
  exact ⟨running, (Option.some.inj same).symm⟩

theorem switched_iff_silent {loop next : Loop} {action : Action} (before : Switched loop)
    (taken : step loop action = some next) : Switched next ↔ Silent loop action := by
  cases action with
  | start | cancel | stopArmCock | startArmCock | setArmEnabled =>
      cases taken
      exact iff_of_true before trivial
  | tick sensor =>
      obtain ⟨_, rfl⟩ := step_tick taken
      rcases asking_or_silent loop sensor with ⟨asking, noise⟩ | ⟨silent, _⟩
      · rw [tick_asking asking]
        refine iff_of_false (fun switched => ?_) noise
        cases (switched _ (List.mem_cons_self ..)).2.1
      · rw [tick_silent silent]
        exact iff_of_true before silent

/-- The timer is armed just while the loop counts as started. -/
def Steady (loop : Loop) : Prop := loop.arm.timerIsRunning = loop.started

theorem goesOn_iff_asking {loop next : Loop} {action : Action} (steady : Steady loop)
    (taken : step loop action = some next) : GoesOn next ↔ Asking loop action := by
  cases action with
  | start =>
      cases taken
      exact iff_of_true (fun _ => loop.arm.start_timerIsRunning) trivial
  | cancel =>
      cases taken
      exact iff_of_true (fun started => absurd started Bool.false_ne_true) trivial
  | stopArmCock | startArmCock | setArmEnabled =>
      cases taken
      exact iff_of_true (fun started => steady.trans started) trivial
  | tick sensor =>
      obtain ⟨running, rfl⟩ := step_tick taken
      rcases asking_or_silent loop sensor with ⟨asking, _⟩ | ⟨silent, quiet⟩
      · rw [tick_asking asking]
        exact iff_of_true (fun _ => rfl) asking
      · rw [tick_silent silent]
        refine iff_of_false (fun goesOn => ?_) quiet
        cases goesOn (steady.symm.trans running)

theorem steady_step {loop next : Loop} {action : Action} (steady : Steady loop)
    (asking : Asking loop action) (taken : step loop action = some next) : Steady next := by
  cases action with
  | start =>
      cases taken
      exact loop.arm.start_timerIsRunning
  | cancel =>
      cases taken
      exact loop.arm.cancel_timerIsRunning
  | stopArmCock | startArmCock | setArmEnabled =>
      cases taken
      exact steady
  | tick sensor =>
      obtain ⟨running, rfl⟩ := step_tick taken
      rw [tick_asking asking]
      exact (steady.symm.trans running).symm

theorem not_isTick_iff (loop : Loop) (action : Action) :
    ¬IsTick action ↔ Silent loop action ∧ Asking loop action := by
  cases action with
  | start | cancel | stopArmCock | startArmCock | setArmEnabled => simp [IsTick, Silent, Asking]
  | tick sensor =>
      refine iff_of_false (fun other => other trivial) ?_
      rintro ⟨silent, asking⟩
      rcases asking_or_silent loop sensor with ⟨_, noise⟩ | ⟨_, quiet⟩
      · exact noise silent
      · exact quiet asking

/-- Speeds are asked for as they should be just if no tick finds the arm active
and not enabled, the loop goes on just if all ticks do, and so both are the case
only as long as there is no tick. -/
theorem switched_and_goesOn_iff {armEnabled : Bool} {actions : List Action} {last : Loop}
    (ran : run step (initial armEnabled) actions = some last) :
    (Always step (fun loop => Switched loop ∧ GoesOn loop) (initial armEnabled) actions ↔
      ∀ action ∈ actions, ¬IsTick action) ∧
    (Always step Switched (initial armEnabled) actions ↔
      Along step Silent (initial armEnabled) actions) ∧
    (Always step GoesOn (initial armEnabled) actions ↔
      Along step Asking (initial armEnabled) actions) := by
  have switched : Switched (initial armEnabled) := List.forall_mem_nil _
  have goesOn : GoesOn (initial armEnabled) := fun started => absurd started Bool.false_ne_true
  have steady : Steady (initial armEnabled) := rfl
  refine ⟨?_, ?_, ?_⟩
  · rw [← along_iff_forall ran]
    refine always_iff_along (fun loop => Switched loop ∧ Steady loop) ?_ ?_ ⟨switched, steady⟩
      ⟨switched, goesOn⟩ ran
    · intro loop action next before taken
      rw [switched_iff_silent before.1 taken, goesOn_iff_asking before.2 taken, ← not_isTick_iff]
    · intro loop action next before other taken
      obtain ⟨silent, asking⟩ := (not_isTick_iff loop action).mp other
      exact ⟨(switched_iff_silent before.1 taken).mpr silent, steady_step before.2 asking taken⟩
  · refine always_iff_along Switched ?_ ?_ switched switched ran
    · intro loop action next before taken
      exact switched_iff_silent before taken
    · intro loop action next before silent taken
      exact (switched_iff_silent before taken).mpr silent
  · refine always_iff_along Steady ?_ ?_ steady goesOn ran
    · intro loop action next before taken
      exact goesOn_iff_asking before taken
    · intro loop action next before asking taken
      exact steady_step before asking taken

theorem switched_and_goesOn_iff_started :
    Always step (fun loop => Switched loop ∧ GoesOn loop) (initial true)
      [.start, .stopArmCock, .startArmCock] :=
  have ran : run step (initial true) [.start, .stopArmCock, .startArmCock] =
      some ⟨⟨true, true⟩, true, true, []⟩ := rfl
  (switched_and_goesOn_iff ran).1.mpr (by simp [IsTick])

/-- With the arm enabled, as it is by default, the first tick ends the loop, and
switching the arm off and on does not bring it back; a disabled arm is driven. -/
theorem not_switched_and_goesOn :
    run step (initial true) [.start, .tick 0, .stopArmCock, .startArmCock] =
        some ⟨⟨true, false⟩, true, true, []⟩ ∧
      ¬GoesOn ⟨⟨true, false⟩, true, true, []⟩ ∧
      run step (initial false) [.start, .tick 0] =
        some ⟨⟨true, true⟩, false, true, [⟨true, false, 0, -1⟩]⟩ ∧
      ¬Switched ⟨⟨true, true⟩, false, true, [⟨true, false, 0, -1⟩]⟩ := by
  refine ⟨by decide +kernel, fun goesOn => ?_, by decide +kernel, fun switched => ?_⟩
  · cases goesOn rfl
  · cases (switched _ (List.mem_cons_self ..)).2.1

end FrcRobot.CockArmLoop
