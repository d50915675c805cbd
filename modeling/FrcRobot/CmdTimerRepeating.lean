import FrcRobot.CmdTimerOwner

set_option autoImplicit false

namespace FrcRobot

/-- A timer that goes on from when it is started until it is cancelled. `begun`
expiries have not invoked its command yet. -/
structure RepeatingTimer where
  running : Bool
  begun : Nat
  deriving DecidableEq

namespace RepeatingTimer

inductive Action where
  | start
  | cancel
  | expire
  | invoke
  deriving DecidableEq

def step (timer : RepeatingTimer) : Action → Option RepeatingTimer
  | .start => some { timer with running := true }
  | .cancel => some { timer with running := false }
  | .expire => if timer.running then some { timer with begun := timer.begun + 1 } else none
  | .invoke => if 0 < timer.begun then some { timer with begun := timer.begun - 1 } else none

def initial : RepeatingTimer := ⟨false, 0⟩

end RepeatingTimer

/- What a CmdTimerWin32 is to the only object that has a wrapper of it. -/
namespace CmdTimerWrappers.Owner

open Interleaving CmdTimerWin32

variable {platform : Platform} {owner : Owner} {parties after : Parties}

def view (owner : Owner) (parties : Parties) : RepeatingTimer :=
  ⟨owner.running parties, owner.begun parties⟩

/-- What a step does to the owner's timer. A Start with a delay below 0 throws. -/
def label (owner : Owner) (parties : Parties) : Action → Option RepeatingTimer.Action
  | .startRelative wrapper invocationDelay _ =>
      if wrapper = owner.wrapper ∧ 0 ≤ invocationDelay then some .start else none
  | .startAbsolute wrapper invocationTime currentTime _ =>
      if wrapper = owner.wrapper ∧ 0 ≤ invocationTime - currentTime then some .start else none
  | .cancel wrapper _ => if wrapper = owner.wrapper then some .cancel else none
  | .expire idEvent =>
      if parties.timers.timerHandler idEvent = some owner.timer then some .expire else none
  | .invoke index =>
      if parties.handlers[index]?.map Handler.timer = some owner.timer then some .invoke
      else none
  | _ => none

/-- The owner's wrapper stays what it is: nobody copies it, assigns from or to it,
destroys it or gives its timer another command. -/
def Private (owner : Owner) : Action → Prop
  | .copy wrapper | .destroy wrapper _ | .setCmd wrapper _ => wrapper ≠ owner.wrapper
  | .assign target source _ => target ≠ owner.wrapper ∧ source ≠ owner.wrapper
  | _ => True

/-- A step shows the timer the label that it has for it. -/
structure Shows (owner : Owner) (parties after : Parties)
    (label : Option RepeatingTimer.Action) : Prop where
  keeps : owner.Keeps after
  ran : run RepeatingTimer.step (owner.view parties) label.toList = some (owner.view after)

theorem Same.shows (same : owner.Same parties after) : owner.Shows parties after none := by
  refine ⟨same.keeps, ?_⟩
  rw [view, view, same.running, same.begun]
  rfl

theorem shows_one {action : RepeatingTimer.Action} (keeps : owner.Keeps after)
    (taken : RepeatingTimer.step (owner.view parties) action = some (owner.view after)) :
    owner.Shows parties after (some action) := by
  refine ⟨keeps, ?_⟩
  rw [Option.toList_some, run_cons, taken]
  rfl

/-- What the owner starts, or fails to. -/
theorem Keeps.shows_start (keeps : owner.Keeps parties) {invocationDelay : Int} {answer : Nat}
    (fresh : ∀ id, parties.newTimer owner.timer invocationDelay answer = some id →
      Fresh parties.timers id)
    (taken : parties.startRelative platform owner.timer invocationDelay answer = some after) :
    owner.Shows parties after (if 0 ≤ invocationDelay then some .start else none) := by
  split
  · rename_i later
    obtain ⟨kept, running, begun⟩ := keeps.startRelative later fresh taken
    refine shows_one kept ?_
    rw [view, view, running, begun]
    rfl
  · rename_i past
    rw [Parties.startRelative, if_neg fun startable => past startable.1] at taken
    cases taken
    exact Same.shows ⟨keeps, rfl, rfl⟩

theorem Sound.shows (sound : owner.Sound parties) {action : Action} (own : owner.Private action)
    (fresh : FreshAnswers parties action)
    (taken : CmdTimerWrappers.step platform parties action = some after) :
    owner.Shows parties after (owner.label parties action) := by
  have keeps := sound.keeps
  by_cases does : owner.Does parties action
  · cases action with
    | construct | constructStarted => exact does.elim
    | copy | destroy | setCmd => exact absurd does own
    | assign => exact absurd does (not_or.mpr own)
    | startRelative wrapper invocationDelay answer =>
        obtain rfl : wrapper = owner.wrapper := does
        simp only [FreshAnswers, answered, keeps.points, Option.bind_some] at fresh
        simp only [CmdTimerWrappers.step, keeps.points, Option.bind_some] at taken
        simp only [label, true_and]
        exact keeps.shows_start fresh taken
    | startAbsolute wrapper invocationTime currentTime answer =>
        obtain rfl : wrapper = owner.wrapper := does
        simp only [FreshAnswers, answered, keeps.points, Option.bind_some] at fresh
        simp only [CmdTimerWrappers.step, keeps.points, Option.bind_some] at taken
        simp only [label, true_and]
        exact keeps.shows_start fresh taken
    | cancel wrapper killed =>
        obtain rfl : wrapper = owner.wrapper := does
        obtain ⟨kept, running, begun⟩ := keeps.cancel taken
        simp only [label, ↓reduceIte]
        refine shows_one kept ?_
        rw [view, view, running, begun]
        rfl
    | expire idEvent =>
        obtain ⟨_, ⟨⟩⟩ := Option.ite_none_right_eq_some.mp taken
        obtain ⟨running, kept, still, begun⟩ := keeps.expire sound.tables does
        have shown : owner.label parties (.expire idEvent) = some .expire := if_pos does
        rw [shown]
        refine shows_one kept ?_
        rw [view, view, running, still, begun]
        rfl
    | invoke index =>
        obtain ⟨kept, running, begun⟩ := keeps.invoke does taken
        have shown : owner.label parties (.invoke index) = some .invoke := if_pos does
        rw [shown]
        refine shows_one kept ?_
        rw [view, view, running, ← begun]
        rfl
    | finish => exact (keeps.finish taken).shows
  · have silent : owner.label parties action = none := by
      cases action with
      | startRelative | startAbsolute => exact if_neg fun both => does both.1
      | cancel | expire | invoke => exact if_neg does
      | construct | constructStarted | copy | assign | destroy | setCmd | finish => rfl
    rw [silent]
    exact (keeps.others sound.allocated does taken).shows

/-- A timer that nobody else has is a repeating timer, whatever is done with the
others: it takes exactly the steps that its owner and its expiries show it. The O/S
can call back for it as long as it runs. -/
theorem owned_repeats {command : Nat} {earlier actions : List Action}
    {timers built last : Parties}
    (freshly : Along (CmdTimerWrappers.step platform) FreshAnswers .initial earlier)
    (before : run (CmdTimerWrappers.step platform) .initial earlier = some timers)
    (constructs : CmdTimerWrappers.step platform timers (.construct (some command)) = some built)
    (permitted : Along (CmdTimerWrappers.step platform)
      (fun parties action => FreshAnswers parties action ∧ (next timers).Private action) built
      actions)
    (taken : run (CmdTimerWrappers.step platform) built actions = some last) :
    run RepeatingTimer.step .initial
        (trace (CmdTimerWrappers.step platform) (next timers).label built actions) =
      some ((next timers).view last) ∧
    ((next timers).running last = true → ∃ idEvent, Fires last idEvent (next timers).timer) := by
  obtain ⟨sound, stopped, none⟩ := sound_constructed freshly before constructs
  have idle : (next timers).view built = .initial := by
    rw [view, stopped, none]
    rfl
  have steps : ∀ parties action after, (next timers).Sound parties →
      FreshAnswers parties action ∧ (next timers).Private action →
      CmdTimerWrappers.step platform parties action = some after →
      (next timers).Sound after ∧ run RepeatingTimer.step ((next timers).view parties)
        ((next timers).label parties action).toList = some ((next timers).view after) := by
    rintro parties action after sound ⟨fresh, own⟩ stepped
    have shown := sound.shows own fresh stepped
    exact ⟨sound.step fresh stepped shown.keeps, shown.ran⟩
  refine ⟨idle ▸ run_trace (next timers).Sound steps sound permitted taken, ?_⟩
  intro running
  have kept : (next timers).Sound last := run_invariant_along (next timers).Sound
    (fun parties action after sound permits stepped =>
      (steps parties action after sound permits stepped).1) sound permitted taken
  exact ⟨_, kept.tables.fires (of_decide_eq_true running) kept.keeps.command⟩

/-- Another timer is constructed, and the first one expires twice for one start. -/
def firedTwice : List Action :=
  [.construct (some 1), .startRelative 0 200 1, .expire 1, .invoke 0, .expire 1]

theorem firedTwice_permitted {built : Parties}
    (constructs :
      CmdTimerWrappers.step .unitTests .initial (.construct (some 0)) = some built) :
    Along (CmdTimerWrappers.step .unitTests)
      (fun parties action => FreshAnswers parties action ∧ (next .initial).Private action) built
      firedTwice := by
  cases constructs
  refine ⟨⟨nofun, trivial⟩, fun constructed taken => ?_⟩
  cases taken
  refine ⟨⟨?_, trivial⟩, fun started _ => Along.of_forall ?_ started⟩
  · rintro answer ⟨⟩
    exact ⟨Nat.one_ne_zero, fun _ => Nat.zero_ne_one⟩
  · intro action member state
    simp only [List.mem_cons, List.not_mem_nil, or_false] at member
    rcases member with rfl | rfl | rfl <;> exact ⟨nofun, trivial⟩

theorem owned_repeats_twice :
    ∃ built last,
      CmdTimerWrappers.step .unitTests .initial (.construct (some 0)) = some built ∧
      run (CmdTimerWrappers.step .unitTests) built firedTwice = some last ∧
      run RepeatingTimer.step .initial [.start, .expire, .invoke, .expire] =
        some ((next .initial).view last) ∧
      ∃ idEvent, Fires last idEvent 0 := by
  have none : Along (CmdTimerWrappers.step .unitTests) FreshAnswers .initial [] := trivial
  refine ⟨_, _, rfl, rfl, ?_⟩
  obtain ⟨shown, fires⟩ := owned_repeats none rfl rfl (firedTwice_permitted rfl) rfl
  exact ⟨shown, fires rfl⟩

end CmdTimerWrappers.Owner

end FrcRobot
