import FrcRobot.CockArmCancel

set_option autoImplicit false

/- The cocking arm with a timer of either kind: one that expires once for each time
it is started, and one that goes on until it is cancelled. -/
namespace FrcRobot.CockArmTimer

open Interleaving

/-- The arm's loop. -/
def loopStep (repeats : Bool) (parties : CockArmCancel.Parties) :
    CockArmCancel.Action → Option CockArmCancel.Parties
  | .expire =>
      if parties.arm.timerIsRunning then
        some { parties with
          arm := if repeats then parties.arm else parties.arm.expire
          begun := parties.begun + 1
          newTicks := parties.newTicks + 1 }
      else none
  | action => CockArmCancel.step parties action

section Kinds

variable {repeats : Bool} {start last : CockArmCancel.Parties}
  {actions : List CockArmCancel.Action}

@[simp] theorem loopStep_execute (parties : CockArmCancel.Parties) (shooterTSensor : Nat) :
    loopStep repeats parties (.execute shooterTSensor) =
      CockArmCancel.step parties (.execute shooterTSensor) :=
  rfl

/-- A timer that repeats runs until it is cancelled. -/
theorem repeating_running (going : start.arm.timerIsRunning = true)
    (uncancelled : ∀ entry ∈ actions, entry ≠ .cancel)
    (taken : run (loopStep true) start actions = some last) :
    last.arm.timerIsRunning = true := by
  have along : Along (loopStep true) (fun _ entry => entry ≠ .cancel) start actions :=
    Along.of_forall (fun entry member _ => uncancelled entry member) start
  refine run_invariant_along (fun parties => parties.arm.timerIsRunning = true) ?_ going along taken
  intro parties entry next running permitted first
  cases entry with
  | start =>
      cases first
      exact CockArm.start_timerIsRunning _
  | cancel => exact absurd rfl permitted
  | stopArmCock | startArmCock | setArmEnabled =>
      cases first
      exact running
  | expire =>
      simp only [loopStep, running, ↓reduceIte] at first
      cases first
      exact running
  | execute shooterTSensor =>
      simp only [loopStep, CockArmCancel.step] at first
      split at first
      · split at first
        · cases first
          exact running
        · cases first
          exact running
      · cases first
  | rearm =>
      simp only [loopStep, CockArmCancel.step] at first
      split at first
      · cases first
        rfl
      · cases first

end Kinds

end FrcRobot.CockArmTimer
