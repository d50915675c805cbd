import FrcRobot.CmdTimerWrappers

set_option autoImplicit false

/- How often a timer's command is invoked, against how often it was started. -/
namespace FrcRobot.CmdTimerWrappers

open Interleaving CmdTimerWin32

/-- No timer has invoked its command more often than it was started. -/
def OneShot (parties : Parties) : Prop :=
  ∀ timer, parties.invocations timer ≤ parties.starts timer

/-- When the O/S calls back for a timer, a Start has been called on it since the
last time it did. -/
def Rearmed (parties : Parties) : Action → Prop
  | .expire idEvent => ∀ timer, parties.timers.timerHandler idEvent = some timer →
      parties.ready timer = true
  | _ => True

instance (parties : Parties) : (action : Action) → Decidable (Rearmed parties action)
  | .expire idEvent =>
      match found : parties.timers.timerHandler idEvent with
      | none => .isTrue (by simp [Rearmed, found])
      | some timer => decidable_of_iff (parties.ready timer = true) (by simp [Rearmed, found])
  | .construct .. | .constructStarted .. | .copy .. | .assign .. | .destroy .. | .setCmd ..
  | .startRelative .. | .startAbsolute .. | .cancel .. | .invoke .. | .finish .. => .isTrue trivial

/-- The calls of TimerHandler that are going to invoke the timer's command. -/
def waiting (handlers : List Handler) (timer : Nat) : Nat :=
  handlers.countP fun handler => handler.timer = timer && !handler.invoked

/-- The commands to come are covered by Start calls, and so is one more expiry of
a timer that was started since its last. -/
def Covered (parties : Parties) : Prop :=
  ∀ timer, parties.invocations timer + waiting parties.handlers timer +
    (parties.ready timer).toNat ≤ parties.starts timer

theorem waiting_append (handlers : List Handler) (handler : Handler) (timer : Nat) :
    waiting (handlers ++ [handler]) timer =
      waiting handlers timer + (handler.timer = timer && !handler.invoked : Bool).toNat :=
  countP_append_one _ handler

theorem waiting_invoke {handlers : List Handler} {index : Nat} {handler : Handler}
    (here : handlers[index]? = some handler) (waits : handler.invoked = false) (timer : Nat) :
    waiting (handlers.set index { handler with invoked := true }) timer +
      (decide (handler.timer = timer)).toNat = waiting handlers timer := by
  have counted := countP_set here (fun handler => handler.timer = timer && !handler.invoked)
    { handler with invoked := true }
  simpa only [waiting, waits, Bool.not_true, Bool.and_false, Bool.not_false, Bool.and_true,
    Bool.toNat_false, Nat.add_zero] using counted

theorem waiting_eraseIdx_le (handlers : List Handler) (index timer : Nat) :
    waiting (handlers.eraseIdx index) timer ≤ waiting handlers timer :=
  (List.eraseIdx_sublist handlers index).countP_le

theorem covered_startRelative {platform : Platform} {parties next : Parties} {timer answer : Nat}
    {invocationDelay : Int} (covered : Covered parties)
    (taken : parties.startRelative platform timer invocationDelay answer = some next) :
    Covered next := by
  rcases startRelative_cases taken with rfl | ⟨_, timers, _, rfl⟩
  · exact covered
  · intro other
    have before := covered other
    by_cases same : other = timer
    · subst same
      simp only [Function.update_self, Bool.toNat_true]
      omega
    · simpa only [Function.update_of_ne same] using before

theorem covered_release {platform : Platform} {parties next : Parties} {timer : Nat}
    {killed : Bool} (covered : Covered parties)
    (taken : parties.release platform timer killed = some next) : Covered next := by
  rw [release_frame taken]
  exact covered

/-- A callback for a timer that was started since the last one uses that start up. -/
theorem covered_expire {parties : Parties} {idEvent : Nat} (covered : Covered parties)
    (rearmed : Rearmed parties (.expire idEvent)) : Covered (parties.expire idEvent) := by
  unfold Parties.expire
  split
  · exact covered
  · rename_i timer found
    intro other
    have before := covered other
    by_cases same : other = timer
    · subst same
      have ready := rearmed other found
      rw [ready, Bool.toNat_true] at before
      simp only [waiting_append, Function.update_self, decide_true, Bool.not_false, Bool.and_self,
        Bool.toNat_true, Bool.toNat_false]
      omega
    · simpa [waiting_append, Function.update_of_ne same, Ne.symm same] using before

theorem covered_invoke {parties next : Parties} {index : Nat} {handler : Handler}
    (covered : Covered parties) (here : parties.handlers[index]? = some handler)
    (taken : parties.invoke index handler = some next) : Covered next := by
  obtain ⟨_, waits, rfl⟩ := invoke_cases taken
  intro other
  have before := covered other
  have moved := waiting_invoke here waits other
  by_cases same : other = handler.timer
  · subst same
    simp only [decide_true, Bool.toNat_true] at moved
    simp only [Function.update_self]
    omega
  · simp only [Ne.symm same, decide_false, Bool.toNat_false] at moved
    simp only [Function.update_of_ne same]
    omega

theorem covered_step {platform : Platform} {parties next : Parties} {action : Action}
    (covered : Covered parties) (rearmed : Rearmed parties action)
    (taken : step platform parties action = some next) : Covered next := by
  cases action with
  | construct command =>
      cases taken
      exact covered
  | constructStarted command timeRelative answer =>
      rcases constructStarted_cases taken with rfl | ⟨_, timers, _, rfl⟩
      · exact covered
      · exact covered
  | copy source =>
      obtain ⟨timer, _, rfl⟩ := Option.map_eq_some_iff.mp taken
      exact covered
  | setCmd wrapper cmdToInvoke =>
      obtain ⟨timer, _, rfl⟩ := Option.map_eq_some_iff.mp taken
      exact covered
  | assign target source killed =>
      obtain ⟨old, _, rest⟩ := Option.bind_eq_some_iff.mp taken
      obtain ⟨new, _, released⟩ := Option.bind_eq_some_iff.mp rest
      refine covered_release ?_ released
      exact covered
  | destroy wrapper killed =>
      obtain ⟨old, _, released⟩ := Option.bind_eq_some_iff.mp taken
      refine covered_release ?_ released
      exact covered
  | startRelative wrapper invocationDelay answer =>
      obtain ⟨timer, _, started⟩ := Option.bind_eq_some_iff.mp taken
      exact covered_startRelative covered started
  | startAbsolute wrapper invocationTime currentTime answer =>
      obtain ⟨timer, _, started⟩ := Option.bind_eq_some_iff.mp taken
      exact covered_startRelative covered started
  | cancel wrapper killed =>
      obtain ⟨timer, _, cancelled⟩ := Option.bind_eq_some_iff.mp taken
      obtain ⟨timers, _, rfl⟩ := cancel_cases cancelled
      exact covered
  | expire idEvent =>
      obtain ⟨_, ⟨⟩⟩ := Option.ite_none_right_eq_some.mp taken
      exact covered_expire covered rearmed
  | invoke index =>
      obtain ⟨handler, here, invoked⟩ := Option.bind_eq_some_iff.mp taken
      exact covered_invoke covered here invoked
  | finish index outcome killed =>
      obtain ⟨handler, _, finished⟩ := Option.bind_eq_some_iff.mp taken
      refine covered_release (fun timer => ?_) (finish_cases finished).2
      have fewer := waiting_eraseIdx_le parties.handlers index timer
      have before := covered timer
      show parties.invocations timer + waiting (parties.handlers.eraseIdx index) timer +
        (parties.ready timer).toNat ≤ parties.starts timer
      omega

/-- The O/S alone makes up for any number of Start calls. -/
theorem overfires (platform : Platform) {parties : Parties} {idEvent timer : Nat}
    (fires : Fires parties idEvent timer) :
    CanReach (step platform) (fun _ action => IsCallback action)
      (fun later => ¬OneShot later) parties := by
  obtain ⟨gap, within⟩ : ∃ gap, parties.starts timer < parties.invocations timer + gap :=
    ⟨parties.starts timer + 1, by omega⟩
  induction gap generalizing parties with
  | zero =>
      refine CanReach.here fun oneShot => ?_
      have fewer := oneShot timer
      omega
  | succ gap ih =>
      obtain ⟨actions, next, callbacks, taken, still, starts, invoked, _⟩ :=
        exists_callback platform fires
      have nearer : next.starts timer < next.invocations timer + gap := by
        rw [starts, invoked]
        omega
      exact CanReach.append (fun action member _ => callbacks action member) taken (ih still nearer)

theorem covered_initial : Covered Parties.initial := fun _ => Nat.le_refl 0

/-- In a run whose timers are all started again before they expire again no
command is invoked more often than its timer was started. Any other callback for
a timer can be followed by callbacks alone until there are too many. -/
theorem one_shot_iff_rearmed (platform : Platform) :
    (∀ actions last, Along (step platform) Rearmed Parties.initial actions →
      run (step platform) Parties.initial actions = some last → OneShot last) ∧
    ∀ actions last next idEvent, run (step platform) Parties.initial actions = some last →
      ¬Rearmed last (.expire idEvent) →
      (∀ timer, last.timers.timerHandler idEvent = some timer →
        (last.cmdToInvoke timer).isSome = true) →
      step platform last (.expire idEvent) = some next →
      CanReach (step platform) (fun _ action => IsCallback action)
        (fun later => ¬OneShot later) next := by
  constructor
  · intro actions last rearmed taken timer
    have covered : Covered last := run_invariant_along Covered
      (fun _ _ _ before permitted first => covered_step before permitted first) covered_initial
      rearmed taken
    have enough := covered timer
    omega
  · intro actions last next idEvent _ stale command taken
    simp only [Rearmed, Classical.not_forall] at stale
    obtain ⟨timer, found, _⟩ := stale
    obtain ⟨armed, ⟨⟩⟩ := Option.ite_none_right_eq_some.mp taken
    have fires : Fires (last.expire idEvent) idEvent timer := by
      simp only [Parties.expire, found]
      exact ⟨armed, found, command timer found⟩
    exact overfires platform fires

/-- A timer that is started and called back for, all the way. -/
def expiredOnce : List Action :=
  [.construct (some 0), .startRelative 0 1000 1, .expire 1, .invoke 0, .finish 0 .returns false]

theorem one_shot_iff_rearmed_once :
    (∃ last, run (step .unitTests) Parties.initial (expiredOnce ++ [.startRelative 0 1000 1]) =
      some last ∧ OneShot last) ∧
    ∃ last next, run (step .unitTests) Parties.initial expiredOnce = some last ∧
      step .unitTests last (.expire 1) = some next ∧
      CanReach (step .unitTests) (fun _ action => IsCallback action)
        (fun later => ¬OneShot later) next := by
  constructor
  · refine ⟨_, rfl, (one_shot_iff_rearmed .unitTests).1
      (expiredOnce ++ [.startRelative 0 1000 1]) _ (by decide +kernel) rfl⟩
  · refine ⟨_, _, rfl, rfl, ?_⟩
    refine (one_shot_iff_rearmed .unitTests).2 expiredOnce _ _ 1 rfl (by decide +kernel) ?_ rfl
    intro timer found
    have same : some 0 = some timer := found
    cases same
    rfl

/-- The second callback comes without a second start. -/
theorem not_oneShot_twice :
    ∃ last, run (step .unitTests) Parties.initial (expiredOnce ++ [.expire 1, .invoke 0]) =
      some last ∧ ¬OneShot last :=
  ⟨_, rfl, fun oneShot => absurd (oneShot 0) (by decide +kernel)⟩

end FrcRobot.CmdTimerWrappers
