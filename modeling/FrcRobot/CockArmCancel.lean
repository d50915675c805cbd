import FrcRobot.CockArm
import FrcRobot.Interleaving

set_option autoImplicit false

/- The arm's timer against its clients. A tick takes three steps: its timer
expires, execute asks for a speed, and it arms the timer again. -/
namespace FrcRobot.CockArmCancel

open Interleaving

/-- `begun` ticks have not asked for a speed yet, `sent` ones have not armed the
timer again. `cancelled` and `newTicks` are no part of the program: whether a
cancel has returned and no start since, and how many ticks began meanwhile. -/
structure Parties where
  arm : CockArm
  armEnabled : Bool
  begun : Nat
  sent : Nat
  requested : Option ℚ
  cancelled : Bool
  newTicks : Nat
  deriving DecidableEq

inductive Action where
  | start
  | cancel
  | stopArmCock
  | startArmCock
  | setArmEnabled (enabled : Bool)
  | expire
  | execute (shooterTSensor : Nat)
  | rearm

def step (parties : Parties) : Action → Option Parties
  | .start => some { parties with arm := parties.arm.start, cancelled := false, newTicks := 0 }
  | .cancel => some { parties with arm := parties.arm.cancel, cancelled := true, newTicks := 0 }
  | .stopArmCock => some { parties with arm := parties.arm.stopArmCock }
  | .startArmCock => some { parties with arm := parties.arm.startArmCock }
  | .setArmEnabled enabled => some { parties with armEnabled := enabled }
  | .expire =>
      if parties.arm.timerIsRunning then
        some { parties with
          arm := parties.arm.expire
          begun := parties.begun + 1
          newTicks := parties.newTicks + 1 }
      else none
  | .execute shooterTSensor =>
      if 0 < parties.begun then
        match parties.arm.execute parties.armEnabled shooterTSensor with
        | none => some { parties with begun := parties.begun - 1 }
        | some speed => some { parties with
            begun := parties.begun - 1
            sent := parties.sent + 1
            requested := some speed }
      else none
  | .rearm =>
      if 0 < parties.sent then
        some { parties with arm := parties.arm.startRelative, sent := parties.sent - 1 }
      else none

/-- Since the last cancel no tick has begun, and none is going to. -/
def CancelledForGood (parties : Parties) : Prop :=
  parties.cancelled = true → parties.arm.timerIsRunning = false ∧ parties.newTicks = 0

/-- No tick is under way when cancel is called. -/
def CancelsBetweenTicks (parties : Parties) : Action → Prop
  | .cancel => parties.begun = 0 ∧ parties.sent = 0
  | _ => True

instance (parties : Parties) : Decidable (CancelledForGood parties) := by
  unfold CancelledForGood
  infer_instance

instance (parties : Parties) (action : Action) :
    Decidable (CancelsBetweenTicks parties action) := by
  unfold CancelsBetweenTicks
  split <;> infer_instance

/-- Nothing is left that could arm the timer. -/
structure AtRest (parties : Parties) : Prop where
  stopped : parties.arm.timerIsRunning = false
  none : parties.newTicks = 0
  begun : parties.begun = 0
  sent : parties.sent = 0

theorem atRest_step {parties next : Parties} {action : Action}
    (resting : parties.cancelled = true → AtRest parties)
    (between : CancelsBetweenTicks parties action) (taken : step parties action = some next) :
    next.cancelled = true → AtRest next := by
  cases action with
  | start =>
      cases taken
      exact fun impossible => absurd impossible Bool.false_ne_true
  | cancel =>
      cases taken
      exact fun _ => ⟨parties.arm.cancel_timerIsRunning, rfl, between.1, between.2⟩
  | stopArmCock | startArmCock | setArmEnabled =>
      cases taken
      intro cancelled
      have rest := resting cancelled
      exact ⟨rest.stopped, rest.none, rest.begun, rest.sent⟩
  | expire =>
      simp only [step] at taken
      split at taken
      · rename_i running
        cases taken
        intro cancelled
        have rest := resting cancelled
        simp [rest.stopped] at running
      · cases taken
  | execute sensor =>
      simp only [step] at taken
      split at taken
      · rename_i waiting
        have same : next.cancelled = parties.cancelled := by
          split at taken <;> cases taken <;> rfl
        intro cancelled
        have rest := resting (same ▸ cancelled)
        have none := rest.begun
        omega
      · cases taken
  | rearm =>
      simp only [step] at taken
      split at taken
      · rename_i waiting
        cases taken
        intro cancelled
        have rest := resting cancelled
        have none := rest.sent
        omega
      · cases taken

/-- The arm is active and its ticks do not return early. -/
def Ticks (parties : Parties) : Prop :=
  parties.arm.cockArmActive = true ∧ parties.armEnabled = false

/-- A cancel that catches a tick under way is undone while it lasts: the tick
arms the timer again. -/
def Undone (parties : Parties) : Prop :=
  CanReach step (fun state _ => state.cancelled = true ∧ Ticks state)
    (fun state => ¬CancelledForGood state) parties

theorem undone_of_sent {parties : Parties} (cancelled : parties.cancelled = true)
    (ticks : Ticks parties) (waiting : 0 < parties.sent) : Undone parties := by
  have taken : step parties .rearm = some { parties with
      arm := parties.arm.startRelative, sent := parties.sent - 1 } := by
    simp only [step, waiting, ↓reduceIte]
  refine CanReach.cons ⟨cancelled, ticks⟩ taken (.here ?_)
  intro good
  have running := (good cancelled).1
  cases running

theorem undone_of_begun {parties : Parties} (cancelled : parties.cancelled = true)
    (ticks : Ticks parties) (waiting : 0 < parties.begun) : Undone parties := by
  obtain ⟨speed, asks⟩ := CockArm.execute_active ticks.1 0
  have taken : step parties (.execute 0) = some { parties with
      begun := parties.begun - 1
      sent := parties.sent + 1
      requested := some speed } := by
    simp only [step, waiting, ↓reduceIte, ticks.2, asks]
  refine CanReach.cons ⟨cancelled, ticks⟩ taken ?_
  exact undone_of_sent cancelled ticks (Nat.succ_pos _)

/-- The arm as Global builds it. -/
def initial (armEnabled : Bool) : Parties :=
  ⟨⟨true, false⟩, armEnabled, 0, 0, none, false, 0⟩

/-- In a run whose cancels come between ticks every cancel is final, and each
cancel that does not can still be undone. -/
theorem cancel_final_iff_between_ticks (armEnabled : Bool) :
    (∀ actions last, Along step CancelsBetweenTicks (initial armEnabled) actions →
      run step (initial armEnabled) actions = some last → CancelledForGood last) ∧
    ∀ actions last next, run step (initial armEnabled) actions = some last →
      Ticks last → ¬CancelsBetweenTicks last .cancel → step last .cancel = some next →
      Undone next := by
  constructor
  · intro actions last between taken
    have resting : last.cancelled = true → AtRest last :=
      run_invariant_along (fun parties => parties.cancelled = true → AtRest parties)
        (fun _ _ _ rest permitted first => atRest_step rest permitted first)
        (fun impossible => absurd impossible Bool.false_ne_true) between taken
    intro cancelled
    exact ⟨(resting cancelled).stopped, (resting cancelled).none⟩
  · intro actions last next taken ticks within cancels
    cases cancels
    have ticking : Ticks { last with
        arm := last.arm.cancel, cancelled := true, newTicks := 0 } := by
      refine ⟨?_, ticks.2⟩
      show last.arm.cancel.cockArmActive = true
      rw [CockArm.cancel_cockArmActive]
      exact ticks.1
    by_cases begun : last.begun = 0
    · have sent : last.sent ≠ 0 := fun none => within ⟨begun, none⟩
      exact undone_of_sent rfl ticking (Nat.pos_of_ne_zero sent)
    · exact undone_of_begun rfl ticking (Nat.pos_of_ne_zero begun)

/-- The cancel comes after a whole tick. -/
def cancelAfterTick : List Action := [.start, .expire, .execute 0, .rearm, .cancel]

/-- A tick has asked for its speed and not armed the timer yet. -/
def withinTick : List Action := [.start, .expire, .execute 0]

theorem cancel_final_iff_between_ticks_once :
    (∃ last, run step (initial false) cancelAfterTick = some last ∧ CancelledForGood last) ∧
    ∃ last next, run step (initial false) withinTick = some last ∧
      step last .cancel = some next ∧ Undone next :=
  ⟨⟨_, rfl, (cancel_final_iff_between_ticks false).1 cancelAfterTick _ (by decide +kernel) rfl⟩,
    _, _, rfl, rfl, (cancel_final_iff_between_ticks false).2 withinTick _ _ rfl ⟨rfl, rfl⟩
      (by decide +kernel) rfl⟩

/-- The cancel comes between the two steps of a tick. -/
theorem not_cancelledForGood_halfTick :
    ∃ last, run step (initial false) (withinTick ++ [.cancel, .rearm]) = some last ∧
      ¬CancelledForGood last :=
  ⟨_, rfl, by decide +kernel⟩

end FrcRobot.CockArmCancel
