import FrcRobot.CmdTimerWrappers

set_option autoImplicit false

/- What becomes of a timer whose last wrapper is destroyed. -/
namespace FrcRobot.CmdTimerWrappers

open Interleaving CmdTimerWin32

/-- The step takes the timer's last wrapper away: it is destroyed, or assigned
another timer. -/
def TakesLast (parties : Parties) (timer : Nat) : Action → Prop
  | .assign target source _ => parties.pImpl target = some timer ∧
      ∃ new, parties.pImpl source = some new ∧
        some timer ∉ parties.wrappers.set target (some new)
  | .destroy wrapper _ => parties.pImpl wrapper = some timer ∧
      some timer ∉ parties.wrappers.set wrapper none
  | _ => False

/-- Only a timer that is not running loses its last wrapper. -/
def CancelledFirst (parties : Parties) (action : Action) : Prop :=
  ∀ timer, TakesLast parties timer action → parties.timers.timerIsRunning timer = false

instance (parties : Parties) : (action : Action) → Decidable (CancelledFirst parties action)
  | .assign target source _ =>
      match points : parties.pImpl target, other : parties.pImpl source with
      | some old, some new => decidable_of_iff
          (some old ∉ parties.wrappers.set target (some new) →
            parties.timers.timerIsRunning old = false)
          (by simp [CancelledFirst, TakesLast, points, other])
      | none, _ => .isTrue (by simp [CancelledFirst, TakesLast, points])
      | some _, none => .isTrue (by simp [CancelledFirst, TakesLast, other])
  | .destroy wrapper _ =>
      match points : parties.pImpl wrapper with
      | some old => decidable_of_iff
          (some old ∉ parties.wrappers.set wrapper none →
            parties.timers.timerIsRunning old = false)
          (by simp [CancelledFirst, TakesLast, points])
      | none => .isTrue (by simp [CancelledFirst, TakesLast, points])
  | .construct .. | .constructStarted .. | .copy .. | .setCmd .. | .startRelative ..
  | .startAbsolute .. | .cancel .. | .expire .. | .invoke .. | .finish .. =>
      .isTrue fun _ takes => takes.elim

/-- A started timer with a wrapper and a command can expire, and its command is
invoked when it does. -/
def FiresWhileShared (platform : Platform) (parties : Parties) : Prop :=
  ∀ wrapper timer, parties.pImpl wrapper = some timer → parties.started timer = true →
    (parties.cmdToInvoke timer).isSome = true →
    ∃ actions next, (∀ action ∈ actions, IsCallback action) ∧
      run (step platform) parties actions = some next ∧
      next.invocations timer = parties.invocations timer + 1

/-- The tables are in order, and a timer that was started runs. -/
structure Inv (parties : Parties) : Prop where
  consistent : Consistent parties.timers
  started : ∀ timer, parties.started timer = true → parties.timers.timerID timer ≠ 0

theorem inv_initial : Inv Parties.initial :=
  ⟨consistent_initial, fun _ started => absurd started Bool.false_ne_true⟩

theorem Inv.step {platform : Platform} {parties next : Parties} {action : Action}
    (inv : Inv parties) (fresh : FreshAnswers parties action)
    (taken : step platform parties action = some next) : Inv next := by
  cases step_timers taken with
  | same timers started => exact ⟨timers ▸ inv.consistent, by rw [timers, started]; exact inv.started⟩
  | create answer asked timers started =>
      refine ⟨inv.consistent.createTimer timers, ?_⟩
      rw [started, timerID_createTimer timers]
      exact inv.started
  | start timer answer asked timers started =>
      refine ⟨inv.consistent.timerSetTime (fun stopped => fresh answer (asked stopped)) timers, ?_⟩
      intro other was
      by_cases same : other = timer
      · subst same
        exact timerSetTime_running (fun stopped => (fresh answer (asked stopped)).nonzero) timers
      · rw [started, Function.update_of_ne same] at was
        rw [timerSetTime_other timers same]
        exact inv.started other was
  | cancel timer killed timers started =>
      refine ⟨inv.consistent.cancel timers, ?_⟩
      intro other was
      by_cases same : other = timer
      · subst same
        rw [started, Function.update_self] at was
        cases was
      · rw [started, Function.update_of_ne same] at was
        rw [cancel_other timers same]
        exact inv.started other was

theorem Inv.fires {parties : Parties} (inv : Inv parties) {timer : Nat}
    (running : parties.timers.timerID timer ≠ 0)
    (command : (parties.cmdToInvoke timer).isSome = true) :
    Fires parties (parties.timers.timerID timer) timer :=
  ⟨inv.consistent.armed timer running, inv.consistent.mapped timer running, command⟩

/-- Every timer that an expiry can find has a wrapper, and so had those that the
callbacks under way have found. -/
structure Silent (parties : Parties) : Prop where
  shared : ∀ id timer, id ≠ 0 → parties.timers.timerHandler id = some timer →
    some timer ∈ parties.wrappers
  called : ∀ handler ∈ parties.handlers, handler.orphaned = false
  late : parties.late = false

/-- A wrapper that is overwritten takes no other timer's wrapper away. -/
theorem mem_set_wrappers {parties : Parties} {wrapper old other : Nat}
    (points : parties.pImpl wrapper = some old) (member : some other ∈ parties.wrappers)
    (apart : other ≠ old) (new : Option Nat) : some other ∈ parties.wrappers.set wrapper new := by
  have here : parties.wrappers[wrapper]? = some (some old) := Option.join_eq_some_iff.mp points
  obtain ⟨index, there⟩ := List.mem_iff_getElem?.mp member
  have different : wrapper ≠ index := by
    rintro rfl
    rw [here] at there
    cases there
    exact apart rfl
  exact List.mem_of_getElem? ((List.getElem?_set_ne different).trans there)

/-- A step that lets an expiry find no more timers, and takes no wrapper away. -/
theorem Silent.mono {parties next : Parties} (silent : Silent parties)
    (fewer : ∀ id timer, next.timers.timerHandler id = some timer →
      parties.timers.timerHandler id = some timer)
    (kept : parties.wrappers ⊆ next.wrappers) (handlers : next.handlers = parties.handlers)
    (late : next.late = parties.late) : Silent next := by
  refine ⟨?_, ?_, ?_⟩
  · intro id timer nonzero found
    exact kept (silent.shared id timer nonzero (fewer id timer found))
  · rw [handlers]
    exact silent.called
  · rw [late]
    exact silent.late

theorem Silent.release {platform : Platform} {parties next : Parties} {timer : Nat} {killed : Bool}
    (silent : Silent parties) (taken : parties.release platform timer killed = some next) :
    Silent next := by
  rcases release_cases taken with ⟨_, rfl⟩ | ⟨_, timers, cancelled, rfl⟩
  · exact silent
  · exact silent.mono (fun _ _ => timerHandler_cancel cancelled) (List.Subset.refl _) rfl rfl

/-- Overwriting a wrapper leaves no timer that an expiry could find without one. -/
theorem Silent.overwrite {parties : Parties} {wrapper old : Nat} {new : Option Nat}
    (silent : Silent parties) (known : Known parties.timers)
    (points : parties.pImpl wrapper = some old)
    (stopped : some old ∉ parties.wrappers.set wrapper new →
      parties.timers.timerIsRunning old = false) :
    Silent { parties with wrappers := parties.wrappers.set wrapper new } := by
  refine ⟨?_, silent.called, silent.late⟩
  intro id timer nonzero found
  show some timer ∈ parties.wrappers.set wrapper new
  by_cases same : timer = old
  · subst same
    by_contra missing
    have its := known.owner id timer nonzero found
    have idle := stopped missing
    simp only [timerIsRunning, its, ne_eq, nonzero, not_false_eq_true, decide_true,
      Bool.true_eq_false] at idle
  · exact mem_set_wrappers points (silent.shared id timer nonzero found) same new

theorem Silent.startRelative {platform : Platform} {parties next : Parties} {timer answer : Nat}
    {invocationDelay : Int} (silent : Silent parties) (member : some timer ∈ parties.wrappers)
    (taken : parties.startRelative platform timer invocationDelay answer = some next) :
    Silent next := by
  rcases startRelative_cases taken with rfl | ⟨_, timers, set, rfl⟩
  · exact silent
  · refine ⟨?_, silent.called, silent.late⟩
    intro id other nonzero found
    rcases timerHandler_timerSetTime set found with before | rfl
    · exact silent.shared id other nonzero before
    · exact member

theorem Silent.expire {parties : Parties} {idEvent : Nat} (silent : Silent parties)
    (nonzero : idEvent ≠ 0) : Silent (parties.expire idEvent) := by
  unfold Parties.expire
  split
  · exact silent
  · rename_i timer found
    refine ⟨silent.shared, ?_, silent.late⟩
    intro handler member
    rcases List.mem_append.mp member with old | new
    · exact silent.called handler old
    · rw [List.mem_singleton.mp new]
      simpa using silent.shared idEvent timer nonzero found

theorem Silent.invoke {parties next : Parties} {index : Nat} {handler : Handler}
    (silent : Silent parties) (here : parties.handlers[index]? = some handler)
    (invoked : parties.invoke index handler = some next) : Silent next := by
  obtain ⟨_, _, rfl⟩ := invoke_cases invoked
  have shared := silent.called handler (List.mem_of_getElem? here)
  refine ⟨silent.shared, ?_, by simp [silent.late, shared]⟩
  intro other member
  rcases List.mem_or_eq_of_mem_set member with old | rfl
  · exact silent.called other old
  · exact shared

theorem Silent.step {platform : Platform} {parties next : Parties} {action : Action}
    (silent : Silent parties) (known : Known parties.timers)
    (cancelled : CancelledFirst parties action)
    (taken : step platform parties action = some next) : Silent next := by
  cases action with
  | construct command =>
      cases taken
      exact silent.mono (fun _ _ found => found) (List.subset_append_left _ _) rfl rfl
  | constructStarted command timeRelative answer =>
      rcases constructStarted_cases taken with rfl | ⟨_, timers, created, rfl⟩
      · exact silent
      · refine silent.mono (fun id timer found => ?_) (List.Subset.refl _) rfl rfl
        exact timerHandler_createTimer created ▸ found
  | copy source =>
      obtain ⟨timer, _, rfl⟩ := Option.map_eq_some_iff.mp taken
      exact silent.mono (fun _ _ found => found) (List.subset_append_left _ _) rfl rfl
  | setCmd wrapper cmdToInvoke =>
      obtain ⟨timer, _, rfl⟩ := Option.map_eq_some_iff.mp taken
      exact ⟨silent.shared, silent.called, silent.late⟩
  | assign target source killed =>
      obtain ⟨old, points, rest⟩ := Option.bind_eq_some_iff.mp taken
      obtain ⟨new, other, released⟩ := Option.bind_eq_some_iff.mp rest
      refine Silent.release ?_ released
      exact silent.overwrite known points fun missing => cancelled old ⟨points, new, other, missing⟩
  | destroy wrapper killed =>
      obtain ⟨old, points, released⟩ := Option.bind_eq_some_iff.mp taken
      refine Silent.release ?_ released
      exact silent.overwrite known points fun missing => cancelled old ⟨points, missing⟩
  | startRelative wrapper invocationDelay answer =>
      obtain ⟨timer, points, started⟩ := Option.bind_eq_some_iff.mp taken
      exact silent.startRelative (mem_wrappers points) started
  | startAbsolute wrapper invocationTime currentTime answer =>
      obtain ⟨timer, points, started⟩ := Option.bind_eq_some_iff.mp taken
      exact silent.startRelative (mem_wrappers points) started
  | cancel wrapper killed =>
      obtain ⟨timer, _, cancels⟩ := Option.bind_eq_some_iff.mp taken
      obtain ⟨timers, stopped, rfl⟩ := cancel_cases cancels
      exact silent.mono (fun _ _ => timerHandler_cancel stopped) (List.Subset.refl _) rfl rfl
  | expire idEvent =>
      obtain ⟨set, ⟨⟩⟩ := Option.ite_none_right_eq_some.mp taken
      exact silent.expire fun same => known.unset (same ▸ set)
  | invoke index =>
      obtain ⟨handler, here, invoked⟩ := Option.bind_eq_some_iff.mp taken
      exact silent.invoke here invoked
  | finish index outcome killed =>
      obtain ⟨handler, _, finished⟩ := Option.bind_eq_some_iff.mp taken
      refine Silent.release ?_ (finish_cases finished).2
      exact ⟨silent.shared, fun other member => silent.called other (List.mem_of_mem_eraseIdx member),
        silent.late⟩

theorem silent_initial : Silent Parties.initial :=
  ⟨fun _ _ _ found => (Option.some_ne_none _ found.symm).elim,
    fun _ member => absurd member List.not_mem_nil, rfl⟩

/-- The map alone keeps a timer from being destroyed. -/
theorem fires_release {platform : Platform} {parties next : Parties} {idEvent timer : Nat}
    {killed : Bool} (fires : Fires parties idEvent timer) (missing : some timer ∉ parties.wrappers)
    (taken : parties.release platform timer killed = some next) :
    Fires next idEvent timer ∧ some timer ∉ next.wrappers := by
  rcases release_cases taken with ⟨_, rfl⟩ | ⟨last, _⟩
  · exact ⟨fires, missing⟩
  · exact absurd (owned_of_found fires.found) last

/-- A running timer that loses its last wrapper goes on as before. -/
theorem fires_takesLast {platform : Platform} {parties next : Parties} {timer : Nat}
    {action : Action} (inv : Inv parties) (takes : TakesLast parties timer action)
    (running : parties.timers.timerIsRunning timer = true)
    (command : (parties.cmdToInvoke timer).isSome = true)
    (taken : step platform parties action = some next) :
    Fires next (parties.timers.timerID timer) timer ∧ some timer ∉ next.wrappers := by
  have fires := inv.fires (by simpa [timerIsRunning] using running) command
  cases action with
  | assign target source killed =>
      obtain ⟨points, new, other, missing⟩ := takes
      simp only [step, points, other, Option.bind_some] at taken
      refine fires_release ?_ missing taken
      exact ⟨fires.armed, fires.found, fires.command⟩
  | destroy wrapper killed =>
      obtain ⟨points, missing⟩ := takes
      simp only [step, points, Option.bind_some] at taken
      refine fires_release ?_ missing taken
      exact ⟨fires.armed, fires.found, fires.command⟩
  | construct | constructStarted | copy | setCmd | startRelative | startAbsolute | cancel | expire
  | invoke | finish => exact takes.elim

theorem run_inv {platform : Platform} {actions : List Action} {last : Parties}
    (fresh : Along (step platform) FreshAnswers Parties.initial actions)
    (taken : run (step platform) Parties.initial actions = some last) : Inv last :=
  run_invariant_along Inv (fun _ _ _ inv permitted first => inv.step permitted first) inv_initial
    fresh taken

/-- In a run in which timers are cancelled before they lose their last wrapper no
expiry without a wrapper invokes a command. A running timer that loses its last
wrapper can fire all the same, and so can, in every run, a started timer that has
a wrapper. -/
theorem silent_iff_cancelled_first (platform : Platform) :
    (∀ actions last, Along (step platform) FreshAnswers Parties.initial actions →
      run (step platform) Parties.initial actions = some last →
      FiresWhileShared platform last) ∧
    (∀ actions last, Along (step platform) CancelledFirst Parties.initial actions →
      run (step platform) Parties.initial actions = some last → last.late = false) ∧
    ∀ actions last action next timer,
      Along (step platform) FreshAnswers Parties.initial actions →
      run (step platform) Parties.initial actions = some last → TakesLast last timer action →
      last.timers.timerIsRunning timer = true → (last.cmdToInvoke timer).isSome = true →
      step platform last action = some next →
      CanReach (step platform) (fun _ action => IsCallback action)
        (fun later => later.late = true) next := by
  refine ⟨?_, ?_, ?_⟩
  · intro actions last fresh taken wrapper timer _ started command
    have inv := run_inv fresh taken
    obtain ⟨callbacks, next, quiet, ran, _, _, invoked, _⟩ :=
      exists_callback platform (inv.fires (inv.started timer started) command)
    exact ⟨callbacks, next, quiet, ran, invoked⟩
  · intro actions last cancelled taken
    have silent : Known last.timers ∧ Silent last :=
      run_invariant_along (fun parties => Known parties.timers ∧ Silent parties)
        (fun _ _ _ before permitted first => ⟨known_step before.1 first,
          before.2.step before.1 permitted first⟩)
        ⟨known_initial, silent_initial⟩ cancelled taken
    exact silent.2.late
  · intro actions last action next timer fresh taken takes running command destroyed
    obtain ⟨fires, missing⟩ :=
      fires_takesLast (run_inv fresh taken) takes running command destroyed
    obtain ⟨callbacks, later, quiet, ran, _, _, _, late⟩ := exists_callback platform fires
    exact CanReach.append (fun action member _ => quiet action member) ran (.here (late missing))

/-- A timer that has been started and is still to expire. -/
def startedOnce : List Action := [.construct (some 0), .startRelative 0 1000 1]

theorem silent_iff_cancelled_first_once :
    (∃ last, run (step .unitTests) Parties.initial startedOnce = some last ∧
      FiresWhileShared .unitTests last) ∧
    (∃ last, run (step .unitTests) Parties.initial
      (startedOnce ++ [.cancel 0 false, .destroy 0 false]) = some last ∧ last.late = false) ∧
    ∃ last next, run (step .unitTests) Parties.initial startedOnce = some last ∧
      step .unitTests last (.destroy 0 false) = some next ∧
      CanReach (step .unitTests) (fun _ action => IsCallback action)
        (fun later => later.late = true) next := by
  have fresh : Along (step .unitTests) FreshAnswers Parties.initial startedOnce := by
    refine ⟨fun answer asked => (Option.some_ne_none _ asked.symm).elim, ?_⟩
    intro constructed taken
    cases taken
    refine ⟨?_, fun _ _ => trivial⟩
    intro answer asked
    cases asked
    exact ⟨Nat.one_ne_zero, fun _ => Nat.zero_ne_one⟩
  refine ⟨⟨_, rfl, ?_⟩, ⟨_, rfl, ?_⟩, _, _, rfl, rfl, ?_⟩
  · exact (silent_iff_cancelled_first .unitTests).1 startedOnce _ fresh rfl
  · exact (silent_iff_cancelled_first .unitTests).2.1
      (startedOnce ++ [.cancel 0 false, .destroy 0 false]) _ (by decide +kernel) rfl
  · exact (silent_iff_cancelled_first .unitTests).2.2 startedOnce _ (.destroy 0 false) _ 0 fresh rfl
      ⟨rfl, by decide +kernel⟩ (by decide +kernel) rfl rfl

/-- Nobody has called Cancel. -/
theorem not_silent_destroyed :
    ∃ last, run (step .unitTests) Parties.initial
      (startedOnce ++ [.destroy 0 false, .expire 1, .invoke 0]) = some last ∧
        last.wrappers = [none] ∧ ¬last.late = false :=
  ⟨_, rfl, rfl, Bool.true_eq_false.mp⟩

end FrcRobot.CmdTimerWrappers
