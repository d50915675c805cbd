import FrcRobot.CmdTimerMultiplex

set_option autoImplicit false

/- What becomes of the timers of a CmdTimerMultiplex that nobody outside the event
system points to any more. -/
namespace FrcRobot.CmdTimerMultiplex

open Interleaving CmdTimerWin32

def answered : Action → Option Nat
  | .startTimer time command answer _ => if Startable time command then some answer else none
  | .startTimerAt time currentTime command answer _ =>
      if Startable (time - currentTime) command then some answer else none
  | _ => none

/-- SetTimer answers with ids that no running timer has. -/
def FreshAnswers (parties : Parties) (action : Action) : Prop :=
  ∀ answer, answered action = some answer → Fresh parties.timers answer

/-- The timer was started, and the O/S has not called back for it. -/
def Pending (parties : Parties) (timer : Nat) : Prop :=
  timer ∈ parties.started ∧ parties.expiries timer = 0

/-- A timer that was started goes on running, and so lives on. -/
structure Running (parties : Parties) : Prop where
  consistent : Consistent parties.timers
  ids : ∀ timer ∈ parties.started, parties.timers.timerID timer ≠ 0
  alive : ∀ timer ∈ parties.started, timer ∈ parties.alive

theorem running_initial : Running Parties.initial :=
  ⟨consistent_initial, fun _ member => absurd member (Finset.notMem_empty _),
    fun _ member => absurd member (Finset.notMem_empty _)⟩

theorem Tracked.apart {parties : Parties} (tracked : Tracked parties) {timer : Nat}
    (member : timer ∈ parties.started) : timer ≠ parties.allocated :=
  (tracked.allocated timer member).ne

theorem Running.startTimer {platform : Platform} {parties next : Parties} {time : Int}
    {command : Option Nat} {answer : Nat} {killed : Bool} (running : Running parties)
    (tracked : Tracked parties)
    (fresh : Startable time command → Fresh parties.timers answer)
    (taken : parties.startTimer platform time command answer killed = some next) :
    Running next := by
  rcases startTimer_cases taken with ⟨startable, timers, set, rfl⟩ | ⟨timers, cancelled, rfl⟩
  · have free := fresh startable
    refine ⟨running.consistent.timerSetTime (fun _ => free) set, ?_, ?_⟩
    · intro timer member
      rcases Finset.mem_insert.mp member with rfl | before
      · exact timerSetTime_running (fun _ => free.nonzero) set
      · show timers.timerID timer ≠ 0
        rw [timerSetTime_other set (tracked.apart before)]
        exact running.ids timer before
    · intro timer member
      rcases Finset.mem_insert.mp member with rfl | before
      · exact Finset.mem_insert_self ..
      · exact Finset.mem_insert_of_mem (running.alive timer before)
  · refine ⟨running.consistent.cancel cancelled, ?_, ?_⟩
    · intro timer member
      show timers.timerID timer ≠ 0
      rw [cancel_other cancelled (tracked.apart member)]
      exact running.ids timer member
    · intro timer member
      refine Finset.mem_erase_of_ne_of_mem (tracked.apart member) ?_
      exact Finset.mem_insert_of_mem (running.alive timer member)

theorem owned_of_found {parties : Parties} {idEvent timer : Nat}
    (found : parties.timers.timerHandler idEvent = some timer) : parties.Owned timer :=
  .inr (.inr (.inl ⟨idEvent, Finmap.mem_keys.mpr (Finmap.mem_of_lookup_eq_some found), found⟩))

/-- The callback that erases a timer does not destroy it: the static map owns it. -/
theorem Running.erase {platform : Platform} {parties next : Parties} {index : Nat}
    {handler : Handler} {outcome : Outcome} {killed : Bool} (running : Running parties)
    (tracked : Tracked parties) (here : parties.handlers[index]? = some handler)
    (taken : parties.erase platform index handler outcome killed = some next) :
    next = parties.erased index handler := by
  obtain ⟨_, ⟨_, same⟩ | ⟨last, _⟩⟩ := erase_cases taken
  · exact same
  · have called := tracked.called handler.timer
    have counted : 0 < inProgress parties.handlers handler.timer :=
      inProgress_pos.mpr ⟨handler, List.mem_of_getElem? here, rfl⟩
    have member := tracked.expired handler.timer (by omega)
    have found : (parties.erased index handler).timers.timerHandler _ = some handler.timer :=
      running.consistent.mapped handler.timer (running.ids handler.timer member)
    exact absurd (owned_of_found found) last

theorem Running.step {platform : Platform} {parties next : Parties} {action : Action}
    (running : Running parties) (tracked : Tracked parties) (fresh : FreshAnswers parties action)
    (taken : step platform parties action = some next) : Running next := by
  cases action with
  | acquire | release =>
      obtain ⟨_, ⟨⟩⟩ := Option.ite_none_right_eq_some.mp taken
      exact ⟨running.consistent, running.ids, running.alive⟩
  | startTimer time command answer killed =>
      refine running.startTimer tracked ?_ (Option.ite_none_right_eq_some.mp taken).2
      exact fun startable => fresh answer (if_pos startable)
  | startTimerAt time currentTime command answer killed =>
      refine running.startTimer tracked ?_ (Option.ite_none_right_eq_some.mp taken).2
      exact fun startable => fresh answer (if_pos startable)
  | record timer =>
      obtain ⟨_, ⟨⟩⟩ := Option.ite_none_right_eq_some.mp taken
      exact ⟨running.consistent, running.ids, running.alive⟩
  | expire idEvent =>
      obtain ⟨_, ⟨⟩⟩ := Option.ite_none_right_eq_some.mp taken
      unfold Parties.expire
      split
      · exact running
      · exact ⟨running.consistent, running.ids, running.alive⟩
  | invoke index =>
      obtain ⟨handler, _, invoked⟩ := Option.bind_eq_some_iff.mp taken
      obtain ⟨_, rfl⟩ := invoke_cases invoked
      exact ⟨running.consistent, running.ids, running.alive⟩
  | erase index outcome killed =>
      obtain ⟨handler, here, erases⟩ := Option.bind_eq_some_iff.mp taken
      rw [running.erase tracked here erases]
      exact ⟨running.consistent, running.ids, running.alive⟩

theorem run_running {platform : Platform} {actions : List Action} {last : Parties}
    (fresh : Along (step platform) FreshAnswers Parties.initial actions)
    (taken : run (step platform) Parties.initial actions = some last) :
    Tracked last ∧ Running last :=
  run_invariant_along (fun parties => Tracked parties ∧ Running parties)
    (fun _ _ _ before permitted first => ⟨before.1.step first,
      before.2.step before.1 permitted first⟩)
    ⟨tracked_initial, running_initial⟩ fresh taken

/-- The callback of a running timer gets to its command. -/
theorem exists_invoked (platform : Platform) {parties : Parties} {timer : Nat}
    (running : Running parties) (member : timer ∈ parties.started) :
    ∃ later, run (step platform) parties
        [.expire (parties.timers.timerID timer), .invoke parties.handlers.length] = some later ∧
      later.runs timer = parties.runs timer + 1 := by
  have armed := running.consistent.armed timer (running.ids timer member)
  have found := running.consistent.mapped timer (running.ids timer member)
  let called : Handler := ⟨timer, false⟩
  have here : (parties.handlers ++ [called])[parties.handlers.length]? = some called :=
    List.getElem?_concat_length
  refine ⟨{ parties with
    handlers := (parties.handlers ++ [called]).set parties.handlers.length ⟨timer, true⟩
    expiries := Function.update parties.expiries timer (parties.expiries timer + 1)
    runs := Function.update parties.runs timer (parties.runs timer + 1) },
    ?_, Function.update_self timer (parties.runs timer + 1) parties.runs⟩
  simp only [run_cons, step, armed, ↓reduceIte, Option.bind_some, Parties.expire, found]
  rw [here]
  rfl

/-- When the last pointer outside the event system is released, the timers that are
still pending stay silent if and only if there are none. -/
theorem pending_silent_iff_none (platform : Platform) (actions : List Action) (last next : Parties)
    (fresh : Along (step platform) FreshAnswers Parties.initial actions)
    (taken : run (step platform) Parties.initial actions = some last)
    (released : step platform last .release = some next) (dropped : next.external = 0) :
    (∀ rest later, Along (step platform) FreshAnswers next rest →
      run (step platform) next rest = some later →
      ∀ timer, Pending last timer → later.runs timer = last.runs timer) ↔
    ∀ timer, ¬Pending last timer := by
  constructor
  · intro silent timer pending
    have after := (run_running fresh taken).2.step (run_running fresh taken).1
      (fun _ asked => (Option.some_ne_none _ asked.symm).elim) released
    obtain ⟨_, ⟨⟩⟩ := Option.ite_none_right_eq_some.mp released
    obtain ⟨later, ran, once⟩ := exists_invoked platform after pending.1
    have same := silent _ later ?_ ran timer pending
    · exact absurd (once.symm.trans same) (Nat.succ_ne_self _)
    · refine Along.of_forall ?_ _
      simp [FreshAnswers, answered]
  · intro idle rest later _ _ timer pending
    exact absurd pending (idle timer)

/-- A timer that has fired and been erased by the time the last pointer goes. -/
theorem pending_silent_iff_none_fired :
    ∃ last next, run (step .unitTests) Parties.initial
      [.startTimer 1000 (some 0) 1 false, .record 0, .expire 1, .invoke 0,
        .erase 0 .returns false] = some last ∧
      step .unitTests last .release = some next ∧ next.external = 0 ∧
      ∀ rest later, Along (step .unitTests) FreshAnswers next rest →
        run (step .unitTests) next rest = some later →
        ∀ timer, Pending last timer → later.runs timer = last.runs timer := by
  refine ⟨_, _, rfl, rfl, rfl, ?_⟩
  refine (pending_silent_iff_none .unitTests
    [.startTimer 1000 (some 0) 1 false, .record 0, .expire 1, .invoke 0, .erase 0 .returns false]
    _ _ ?_ rfl rfl rfl).mpr ?_
  · refine ⟨?_, fun started _ => Along.of_forall ?_ started⟩
    · intro answer asked
      cases asked
      exact ⟨Nat.one_ne_zero, fun _ => Nat.zero_ne_one⟩
    · simp [FreshAnswers, answered]
  · rintro timer ⟨member, idle⟩
    have only : timer = 0 := Finset.mem_singleton.mp member
    subst only
    exact absurd idle (by decide +kernel)

/-- The pointer is released while the timer is still to fire. -/
theorem not_silent_released :
    ∃ last next later, run (step .unitTests) Parties.initial
        [.startTimer 2000 (some 0) 1 false, .record 0] = some last ∧
      Pending last 0 ∧ step .unitTests last .release = some next ∧ next.external = 0 ∧
      run (step .unitTests) next [.expire 1, .invoke 0] = some later ∧
      later.runs 0 ≠ last.runs 0 :=
  ⟨_, _, _, rfl, ⟨by decide +kernel, rfl⟩, rfl, rfl, rfl, by decide +kernel⟩

end FrcRobot.CmdTimerMultiplex
