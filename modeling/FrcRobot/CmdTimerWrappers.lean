import FrcRobot.CmdTimerWin32
import FrcRobot.Interleaving
import Mathlib.Data.Finset.Dedup

set_option autoImplicit false

/- Any number of CmdTimerWin32 wrappers, the implementation objects they share
with the static map, and the O/S that calls TimerHandler. -/
namespace FrcRobot.CmdTimerWrappers

open Interleaving CmdTimerWin32

/-- A call of TimerHandler that has found its timer, and shares it until it
returns. `orphaned` is no part of the program: whether the timer had no wrapper
left when the O/S called. -/
structure Handler where
  timer : Nat
  orphaned : Bool
  invoked : Bool
  deriving DecidableEq

/-- An implementation object is named by the order it was allocated in, and a
wrapper that has been destroyed leaves a gap. The last five are no part of the
program: the Start calls made on a timer and how often its command was invoked,
whether it was started since its last expiry, and since its last Cancel, and
whether an expiry without a wrapper has invoked a command. -/
structure Parties where
  timers : CmdTimerWin32
  cmdToInvoke : Nat → Option Nat
  allocated : Nat
  wrappers : List (Option Nat)
  handlers : List Handler
  starts : Nat → Nat
  invocations : Nat → Nat
  ready : Nat → Bool
  started : Nat → Bool
  late : Bool

/-- `answer` is what SetTimer answers if it is asked for a new timer, and `killed`
what KillTimer answers if it is called. -/
inductive Action where
  | construct (command : Option Nat)
  | constructStarted (command : Option Nat) (timeRelative : Int) (answer : Nat)
  | copy (source : Nat)
  | assign (target source : Nat) (killed : Bool)
  | destroy (wrapper : Nat) (killed : Bool)
  | setCmd (wrapper : Nat) (cmdToInvoke : Option Nat)
  | startRelative (wrapper : Nat) (invocationDelay : Int) (answer : Nat)
  | startAbsolute (wrapper : Nat) (invocationTime currentTime : Int) (answer : Nat)
  | cancel (wrapper : Nat) (killed : Bool)
  | expire (idEvent : Nat)
  | invoke (handler : Nat)
  | finish (handler : Nat) (outcome : Outcome) (killed : Bool)

namespace Parties

def initial : Parties :=
  ⟨CmdTimerWin32.initial, fun _ => none, 0, [], [], fun _ => 0, fun _ => 0, fun _ => false,
    fun _ => false, false⟩

/-- The object a living wrapper points to. -/
def pImpl (parties : Parties) (wrapper : Nat) : Option Nat := parties.wrappers[wrapper]?.join

/-- Some shared pointer to the object exists: of a wrapper, in the static map, or
in a call of TimerHandler. -/
def Owned (parties : Parties) (timer : Nat) : Prop :=
  some timer ∈ parties.wrappers ∨
    (∃ id ∈ parties.timers.idToTimerMap.keys, parties.timers.timerHandler id = some timer) ∨
    ∃ handler ∈ parties.handlers, handler.timer = timer

instance decidablePointed (wrappers : List (Option Nat)) (timer : Nat) :
    Decidable (some timer ∈ wrappers) :=
  inferInstance

instance (parties : Parties) (timer : Nat) : Decidable (parties.Owned timer) := by
  unfold Owned
  infer_instance

/-- The map may give up a timer that something else owns. -/
def Spares (parties : Parties) : Option Nat → Prop
  | none => True
  | some timer => parties.Owned timer

instance (parties : Parties) : (timer : Option Nat) → Decidable (parties.Spares timer)
  | none => .isTrue trivial
  | some timer => inferInstanceAs (Decidable (parties.Owned timer))

/-- Cancel erases from the map with the mutex locked. A timer destroyed by that would
wait for the mutex in its own Cancel, and there is no next state. -/
def cancel (platform : Platform) (parties : Parties) (timer : Nat) (killed : Bool) :
    Option Parties :=
  (parties.timers.cancel platform timer killed).bind fun timers =>
    let next := { parties with
      timers := timers, started := Function.update parties.started timer false }
    if next.Spares (parties.timers.timerHandler (parties.timers.timerID timer)) then some next
    else none

/-- A shared pointer to the object has gone, and the object with it if it was the
last. All the destructor does is to cancel. -/
def release (platform : Platform) (parties : Parties) (timer : Nat) (killed : Bool) :
    Option Parties :=
  if parties.Owned timer then some parties else parties.cancel platform timer killed

def startRelative (platform : Platform) (parties : Parties) (timer : Nat) (invocationDelay : Int)
    (answer : Nat) : Option Parties :=
  if Startable invocationDelay (parties.cmdToInvoke timer) then
    (parties.timers.timerSetTime platform timer answer).map fun timers =>
      { parties with
        timers := timers
        starts := Function.update parties.starts timer (parties.starts timer + 1)
        ready := Function.update parties.ready timer true
        started := Function.update parties.started timer true }
  else some parties

/-- TimerHandler ignores an id that is not in the map. -/
def expire (parties : Parties) (idEvent : Nat) : Parties :=
  match parties.timers.timerHandler idEvent with
  | none => parties
  | some timer =>
      { parties with
        handlers := parties.handlers ++ [⟨timer, decide (some timer ∉ parties.wrappers), false⟩]
        ready := Function.update parties.ready timer false }

/-- A timer without a command has nothing to be invoked with. -/
def invoke (parties : Parties) (index : Nat) (handler : Handler) : Option Parties :=
  if (parties.cmdToInvoke handler.timer).isSome ∧ handler.invoked = false then
    some { parties with
      handlers := parties.handlers.set index { handler with invoked := true }
      invocations := Function.update parties.invocations handler.timer
        (parties.invocations handler.timer + 1)
      late := parties.late || handler.orphaned }
  else none

def finish (platform : Platform) (parties : Parties) (index : Nat) (handler : Handler)
    (outcome : Outcome) (killed : Bool) : Option Parties :=
  if handler.invoked = true ∧ outcome.Caught then
    { parties with handlers := parties.handlers.eraseIdx index }.release platform handler.timer
      killed
  else none

end Parties

/-- The constructor with a duration starts the timer before any shared pointer
owns it: SetTimer has been called when shared_from_this throws, and no object
comes of it. -/
def step (platform : Platform) (parties : Parties) : Action → Option Parties
  | .construct command => some { parties with
      cmdToInvoke := Function.update parties.cmdToInvoke parties.allocated command
      allocated := parties.allocated + 1
      wrappers := parties.wrappers ++ [some parties.allocated] }
  | .constructStarted command timeRelative answer =>
      if Startable timeRelative command then
        (parties.timers.createTimer platform answer).map fun timers =>
          { parties with timers := timers }
      else some parties
  | .copy source => (parties.pImpl source).map fun timer =>
      { parties with wrappers := parties.wrappers ++ [some timer] }
  | .assign target source killed =>
      (parties.pImpl target).bind fun old => (parties.pImpl source).bind fun new =>
        { parties with wrappers := parties.wrappers.set target (some new) }.release platform old
          killed
  | .destroy wrapper killed => (parties.pImpl wrapper).bind fun old =>
      { parties with wrappers := parties.wrappers.set wrapper none }.release platform old killed
  | .setCmd wrapper cmdToInvoke => (parties.pImpl wrapper).map fun timer =>
      { parties with cmdToInvoke := Function.update parties.cmdToInvoke timer cmdToInvoke }
  | .startRelative wrapper invocationDelay answer => (parties.pImpl wrapper).bind fun timer =>
      parties.startRelative platform timer invocationDelay answer
  | .startAbsolute wrapper invocationTime currentTime answer =>
      (parties.pImpl wrapper).bind fun timer =>
        parties.startRelative platform timer (invocationTime - currentTime) answer
  | .cancel wrapper killed => (parties.pImpl wrapper).bind fun timer =>
      parties.cancel platform timer killed
  | .expire idEvent =>
      if idEvent ∈ parties.timers.setTimers then some (parties.expire idEvent) else none
  | .invoke index => parties.handlers[index]?.bind fun handler => parties.invoke index handler
  | .finish index outcome killed => parties.handlers[index]?.bind fun handler =>
      parties.finish platform index handler outcome killed

/-- The steps that the O/S takes, the clients being quiet. -/
def IsCallback : Action → Prop
  | .expire _ | .invoke _ | .finish .. => True
  | _ => False

theorem mem_wrappers {parties : Parties} {wrapper timer : Nat}
    (points : parties.pImpl wrapper = some timer) : some timer ∈ parties.wrappers := by
  have here : parties.wrappers[wrapper]? = some (some timer) := Option.join_eq_some_iff.mp points
  exact List.mem_of_getElem? here

theorem cancel_cases {platform : Platform} {parties next : Parties} {timer : Nat} {killed : Bool}
    (taken : parties.cancel platform timer killed = some next) :
    ∃ timers, parties.timers.cancel platform timer killed = some timers ∧
      next = { parties with
        timers := timers, started := Function.update parties.started timer false } := by
  obtain ⟨timers, cancelled, rest⟩ := Option.bind_eq_some_iff.mp taken
  refine ⟨timers, cancelled, ?_⟩
  simp only at rest
  split at rest
  · exact (Option.some.inj rest).symm
  · cases rest

theorem release_cases {platform : Platform} {parties next : Parties} {timer : Nat} {killed : Bool}
    (taken : parties.release platform timer killed = some next) :
    (parties.Owned timer ∧ next = parties) ∨
      ¬parties.Owned timer ∧ ∃ timers, parties.timers.cancel platform timer killed = some timers ∧
        next = { parties with
          timers := timers, started := Function.update parties.started timer false } := by
  unfold Parties.release at taken
  split at taken
  · rename_i owned
    exact .inl ⟨owned, (Option.some.inj taken).symm⟩
  · rename_i last
    exact .inr ⟨last, cancel_cases taken⟩

/-- A destructor changes the timers, and nothing else of the parties. -/
theorem release_frame {platform : Platform} {parties next : Parties} {timer : Nat} {killed : Bool}
    (taken : parties.release platform timer killed = some next) :
    next = { parties with timers := next.timers, started := next.started } := by
  rcases release_cases taken with ⟨_, rfl⟩ | ⟨_, timers, _, rfl⟩
  · rfl
  · rfl

theorem startRelative_cases {platform : Platform} {parties next : Parties} {timer answer : Nat}
    {invocationDelay : Int}
    (taken : parties.startRelative platform timer invocationDelay answer = some next) :
    next = parties ∨
      Startable invocationDelay (parties.cmdToInvoke timer) ∧
        ∃ timers, parties.timers.timerSetTime platform timer answer = some timers ∧
          next = { parties with
            timers := timers
            starts := Function.update parties.starts timer (parties.starts timer + 1)
            ready := Function.update parties.ready timer true
            started := Function.update parties.started timer true } := by
  unfold Parties.startRelative at taken
  split at taken
  · rename_i startable
    obtain ⟨timers, set, rfl⟩ := Option.map_eq_some_iff.mp taken
    exact .inr ⟨startable, timers, set, rfl⟩
  · exact .inl (Option.some.inj taken).symm

theorem constructStarted_cases {platform : Platform} {parties next : Parties}
    {command : Option Nat} {timeRelative : Int} {answer : Nat}
    (taken : step platform parties (.constructStarted command timeRelative answer) = some next) :
    next = parties ∨
      Startable timeRelative command ∧
        ∃ timers, parties.timers.createTimer platform answer = some timers ∧
          next = { parties with timers := timers } := by
  simp only [step] at taken
  split at taken
  · rename_i startable
    obtain ⟨timers, created, rfl⟩ := Option.map_eq_some_iff.mp taken
    exact .inr ⟨startable, timers, created, rfl⟩
  · exact .inl (Option.some.inj taken).symm

theorem invoke_cases {parties next : Parties} {index : Nat} {handler : Handler}
    (taken : parties.invoke index handler = some next) :
    (parties.cmdToInvoke handler.timer).isSome ∧ handler.invoked = false ∧
      next = { parties with
        handlers := parties.handlers.set index { handler with invoked := true }
        invocations := Function.update parties.invocations handler.timer
          (parties.invocations handler.timer + 1)
        late := parties.late || handler.orphaned } := by
  unfold Parties.invoke at taken
  split at taken
  · rename_i due
    exact ⟨due.1, due.2, (Option.some.inj taken).symm⟩
  · cases taken

theorem finish_cases {platform : Platform} {parties next : Parties} {index : Nat}
    {handler : Handler} {outcome : Outcome} {killed : Bool}
    (taken : parties.finish platform index handler outcome killed = some next) :
    handler.invoked = true ∧
      { parties with handlers := parties.handlers.eraseIdx index }.release platform handler.timer
        killed = some next := by
  unfold Parties.finish at taken
  split at taken
  · rename_i done
    exact ⟨done.1, taken⟩
  · cases taken

/-- The id that SetTimer answers, if the step asks it for a new timer. -/
def Parties.newTimer (parties : Parties) (timer : Nat) (invocationDelay : Int) (answer : Nat) :
    Option Nat :=
  if Startable invocationDelay (parties.cmdToInvoke timer) ∧ parties.timers.timerID timer = 0 then
    some answer
  else none

def answered (parties : Parties) : Action → Option Nat
  | .constructStarted command timeRelative answer =>
      if Startable timeRelative command then some answer else none
  | .startRelative wrapper invocationDelay answer => (parties.pImpl wrapper).bind fun timer =>
      parties.newTimer timer invocationDelay answer
  | .startAbsolute wrapper invocationTime currentTime answer =>
      (parties.pImpl wrapper).bind fun timer =>
        parties.newTimer timer (invocationTime - currentTime) answer
  | _ => none

/-- SetTimer answers with ids that no running timer has. -/
def FreshAnswers (parties : Parties) (action : Action) : Prop :=
  ∀ answer, answered parties action = some answer → Fresh parties.timers answer

/-- The four things a step can do to the timers. -/
inductive TimersStep (platform : Platform) (parties next : Parties) (action : Action) : Prop where
  | same (timers : next.timers = parties.timers) (started : next.started = parties.started)
  | create (answer : Nat) (asked : answered parties action = some answer)
      (timers : parties.timers.createTimer platform answer = some next.timers)
      (started : next.started = parties.started)
  | start (timer answer : Nat)
      (asked : parties.timers.timerID timer = 0 → answered parties action = some answer)
      (timers : parties.timers.timerSetTime platform timer answer = some next.timers)
      (started : next.started = Function.update parties.started timer true)
  | cancel (timer : Nat) (killed : Bool)
      (timers : parties.timers.cancel platform timer killed = some next.timers)
      (started : next.started = Function.update parties.started timer false)

theorem timersStep_release {platform : Platform} {parties released next : Parties} {timer : Nat}
    {killed : Bool} {action : Action} (timers : released.timers = parties.timers)
    (started : released.started = parties.started)
    (taken : released.release platform timer killed = some next) :
    TimersStep platform parties next action := by
  rcases release_cases taken with ⟨_, rfl⟩ | ⟨_, after, cancelled, rfl⟩
  · exact .same timers started
  · rw [timers] at cancelled
    exact .cancel timer killed cancelled (by rw [started])

theorem timersStep_startRelative {platform : Platform} {parties next : Parties}
    {timer answer : Nat} {invocationDelay : Int} {action : Action}
    (asks : answered parties action = parties.newTimer timer invocationDelay answer)
    (taken : parties.startRelative platform timer invocationDelay answer = some next) :
    TimersStep platform parties next action := by
  rcases startRelative_cases taken with rfl | ⟨startable, after, set, rfl⟩
  · exact .same rfl rfl
  · refine .start timer answer ?_ set rfl
    intro stopped
    rw [asks, Parties.newTimer, if_pos ⟨startable, stopped⟩]

theorem step_timers {platform : Platform} {parties next : Parties} {action : Action}
    (taken : step platform parties action = some next) :
    TimersStep platform parties next action := by
  cases action with
  | construct command =>
      cases taken
      exact .same rfl rfl
  | constructStarted command timeRelative answer =>
      rcases constructStarted_cases taken with rfl | ⟨startable, timers, created, rfl⟩
      · exact .same rfl rfl
      · exact .create answer (if_pos startable) created rfl
  | copy source =>
      obtain ⟨timer, _, rfl⟩ := Option.map_eq_some_iff.mp taken
      exact .same rfl rfl
  | setCmd wrapper cmdToInvoke =>
      obtain ⟨timer, _, rfl⟩ := Option.map_eq_some_iff.mp taken
      exact .same rfl rfl
  | assign target source killed =>
      obtain ⟨old, _, rest⟩ := Option.bind_eq_some_iff.mp taken
      obtain ⟨new, _, released⟩ := Option.bind_eq_some_iff.mp rest
      refine timersStep_release ?_ ?_ released <;> rfl
  | destroy wrapper killed =>
      obtain ⟨old, _, released⟩ := Option.bind_eq_some_iff.mp taken
      refine timersStep_release ?_ ?_ released <;> rfl
  | startRelative wrapper invocationDelay answer =>
      obtain ⟨timer, points, started⟩ := Option.bind_eq_some_iff.mp taken
      exact timersStep_startRelative (by simp only [answered, points, Option.bind_some]) started
  | startAbsolute wrapper invocationTime currentTime answer =>
      obtain ⟨timer, points, started⟩ := Option.bind_eq_some_iff.mp taken
      exact timersStep_startRelative (by simp only [answered, points, Option.bind_some]) started
  | cancel wrapper killed =>
      obtain ⟨timer, _, cancelled⟩ := Option.bind_eq_some_iff.mp taken
      obtain ⟨timers, cancels, rfl⟩ := cancel_cases cancelled
      exact .cancel timer killed cancels rfl
  | expire idEvent =>
      obtain ⟨_, ⟨⟩⟩ := Option.ite_none_right_eq_some.mp taken
      unfold Parties.expire
      split
      · exact .same rfl rfl
      · exact .same rfl rfl
  | invoke index =>
      obtain ⟨handler, _, invoked⟩ := Option.bind_eq_some_iff.mp taken
      obtain ⟨_, _, rfl⟩ := invoke_cases invoked
      exact .same rfl rfl
  | finish index outcome killed =>
      obtain ⟨handler, _, finished⟩ := Option.bind_eq_some_iff.mp taken
      refine timersStep_release ?_ ?_ (finish_cases finished).2 <;> rfl

theorem known_step {platform : Platform} {parties next : Parties} {action : Action}
    (known : Known parties.timers) (taken : step platform parties action = some next) :
    Known next.timers := by
  cases step_timers taken with
  | same timers _ => exact timers ▸ known
  | create answer _ timers _ => exact known.createTimer timers
  | start timer answer _ timers _ => exact known.timerSetTime timers
  | cancel timer killed timers _ => exact known.cancel timers

/-- What a callback needs to get to a timer's command: the O/S has a timer set
for the id, the map knows whose it is, and there is a command. -/
structure Fires (parties : Parties) (idEvent timer : Nat) : Prop where
  armed : idEvent ∈ parties.timers.setTimers
  found : parties.timers.timerHandler idEvent = some timer
  command : (parties.cmdToInvoke timer).isSome = true

/-- The call of TimerHandler for a timer that it finds now. -/
def Parties.called (parties : Parties) (timer : Nat) : Handler :=
  ⟨timer, decide (some timer ∉ parties.wrappers), false⟩

theorem owned_of_found {parties : Parties} {idEvent timer : Nat}
    (found : parties.timers.timerHandler idEvent = some timer) : parties.Owned timer :=
  .inr (.inl ⟨idEvent, Finmap.mem_keys.mpr (Finmap.mem_of_lookup_eq_some found), found⟩)

theorem step_expire (platform : Platform) {parties : Parties} {idEvent timer : Nat}
    (fires : Fires parties idEvent timer) :
    step platform parties (.expire idEvent) = some { parties with
      handlers := parties.handlers ++ [parties.called timer]
      ready := Function.update parties.ready timer false } := by
  simp only [step, fires.armed, ↓reduceIte, Parties.expire, fires.found]
  rfl

theorem step_invoke (platform : Platform) {parties : Parties} {index : Nat} {handler : Handler}
    (here : parties.handlers[index]? = some handler) (waits : handler.invoked = false)
    (command : (parties.cmdToInvoke handler.timer).isSome = true) :
    step platform parties (.invoke index) = some { parties with
      handlers := parties.handlers.set index { handler with invoked := true }
      invocations := Function.update parties.invocations handler.timer
        (parties.invocations handler.timer + 1)
      late := parties.late || handler.orphaned } := by
  simp only [step, here, Option.bind_some, Parties.invoke, waits, command, and_self, ↓reduceIte]

theorem step_finish (platform : Platform) {parties : Parties} {index : Nat} {handler : Handler}
    (here : parties.handlers[index]? = some handler) (done : handler.invoked = true)
    {idEvent : Nat} (found : parties.timers.timerHandler idEvent = some handler.timer) :
    step platform parties (.finish index .returns false) =
      some { parties with handlers := parties.handlers.eraseIdx index } := by
  have owned : { parties with handlers := parties.handlers.eraseIdx index }.Owned handler.timer :=
    owned_of_found found
  have caught : Outcome.returns.Caught := trivial
  simp only [step, here, Option.bind_some, Parties.finish, done, caught, and_self, ↓reduceIte,
    Parties.release, owned]

/-- The callback of a timer that fires gets to the command and back, the clients
being quiet, and leaves the timer as it was. -/
theorem exists_callback (platform : Platform) {parties : Parties} {idEvent timer : Nat}
    (fires : Fires parties idEvent timer) :
    ∃ actions next, (∀ action ∈ actions, IsCallback action) ∧
      run (step platform) parties actions = some next ∧ Fires next idEvent timer ∧
      next.starts = parties.starts ∧
      next.invocations timer = parties.invocations timer + 1 ∧
      (some timer ∉ parties.wrappers → next.late = true) := by
  let called := parties.called timer
  let expired : Parties := { parties with
    handlers := parties.handlers ++ [called], ready := Function.update parties.ready timer false }
  have here : expired.handlers[parties.handlers.length]? = some called :=
    List.getElem?_concat_length
  let invoked : Parties := { expired with
    handlers := expired.handlers.set parties.handlers.length { called with invoked := true }
    invocations := Function.update parties.invocations timer (parties.invocations timer + 1)
    late := parties.late || called.orphaned }
  have there : invoked.handlers[parties.handlers.length]? =
      some { called with invoked := true } := by
    simp [invoked, expired]
  let finished : Parties := { invoked with
    handlers := invoked.handlers.eraseIdx parties.handlers.length }
  have first : step platform parties (.expire idEvent) = some expired := step_expire platform fires
  have second : step platform expired (.invoke parties.handlers.length) = some invoked :=
    step_invoke platform here rfl fires.command
  have third : step platform invoked (.finish parties.handlers.length .returns false) =
      some finished := step_finish platform there rfl fires.found
  refine ⟨[.expire idEvent, .invoke parties.handlers.length,
    .finish parties.handlers.length .returns false], finished, ?_, ?_, ?_, rfl, ?_, ?_⟩
  · simp [IsCallback]
  · rw [run_cons, first, Option.bind_some, run_cons, second, Option.bind_some, run_cons, third]
    rfl
  · exact ⟨fires.armed, fires.found, fires.command⟩
  · exact Function.update_self ..
  · intro orphaned
    simp [finished, invoked, called, Parties.called, orphaned]

end FrcRobot.CmdTimerWrappers
