import FrcRobot.CmdTimerWin32
import FrcRobot.Interleaving

set_option autoImplicit false

/- A CmdTimerMultiplex, the timers that are started through it, and the O/S that
calls back when they expire. -/
namespace FrcRobot.CmdTimerMultiplex

open Interleaving CmdTimerWin32

/-- A call of TimerHandler that has found its timer, and shares it until it
returns; `ran` once onTimerFire has invoked the command. -/
structure Handler where
  timer : Nat
  ran : Bool
  deriving DecidableEq

/-- A timer is named by the order in which its implementation object was allocated.
`external` counts the shared pointers to the multiplex outside the event system,
`alive` are the implementation objects, each of which holds one more, and
`starting` are the calls of startTimer that have started their timer and have not
recorded it. The last three are no part of the program: which timers were started,
how often the O/S has called back for each, and how often its command ran. -/
structure Parties where
  timers : CmdTimerWin32
  external : Nat
  allocated : Nat
  alive : Finset Nat
  starting : Finset Nat
  timerMap : Finset Nat
  handlers : List Handler
  started : Finset Nat
  expiries : Nat → Nat
  runs : Nat → Nat

/-- `answer` is what SetTimer answers if it is asked for a new timer, and `killed`
what KillTimer answers if it is called. -/
inductive Action where
  | acquire
  | release
  | startTimer (time : Int) (command : Option Nat) (answer : Nat) (killed : Bool)
  | startTimerAt (time currentTime : Int) (command : Option Nat) (answer : Nat) (killed : Bool)
  | record (timer : Nat)
  | expire (idEvent : Nat)
  | invoke (handler : Nat)
  | erase (handler : Nat) (outcome : Outcome) (killed : Bool)

namespace Parties

/-- The multiplex has just been made, by the one who holds the only pointer. -/
def initial : Parties :=
  ⟨CmdTimerWin32.initial, 1, 0, ∅, ∅, ∅, [], ∅, fun _ => 0, fun _ => 0⟩

/-- Some shared pointer to the implementation object exists: of its wrapper, which
startTimer or the multiplex keeps, in the static map, or in a call of TimerHandler. -/
def Owned (parties : Parties) (timer : Nat) : Prop :=
  timer ∈ parties.starting ∨ timer ∈ parties.timerMap ∨
    (∃ id ∈ parties.timers.idToTimerMap.keys, parties.timers.timerHandler id = some timer) ∨
    ∃ handler ∈ parties.handlers, handler.timer = timer

instance (parties : Parties) (timer : Nat) : Decidable (parties.Owned timer) := by
  unfold Owned
  infer_instance

/-- The static map may give up a timer that something else owns. -/
def Spares (parties : Parties) : Option Nat → Prop
  | none => True
  | some timer => parties.Owned timer

instance (parties : Parties) : (timer : Option Nat) → Decidable (parties.Spares timer)
  | none => .isTrue trivial
  | some timer => inferInstanceAs (Decidable (parties.Owned timer))

/-- ~CmdTimerWin32Impl cancels, with the mutex locked that another timer destroyed
by it would wait for. -/
def destroyImpl (platform : Platform) (parties : Parties) (timer : Nat) (killed : Bool) :
    Option Parties :=
  (parties.timers.cancel platform timer killed).bind fun timers =>
    let next := { parties with timers := timers, alive := parties.alive.erase timer }
    if next.Spares (parties.timers.timerHandler (parties.timers.timerID timer)) then some next
    else none

/-- Up to the lock. When StartRelative throws, the new timer goes again. -/
def startTimer (platform : Platform) (parties : Parties) (time : Int) (command : Option Nat)
    (answer : Nat) (killed : Bool) : Option Parties :=
  let timer := parties.allocated
  let made := { parties with allocated := timer + 1, alive := insert timer parties.alive }
  if Startable time command then
    (made.timers.timerSetTime platform timer answer).map fun timers =>
      { made with
        timers := timers
        starting := insert timer made.starting
        started := insert timer made.started }
  else made.destroyImpl platform timer killed

/-- TimerHandler ignores an id that is not in the map. -/
def expire (parties : Parties) (idEvent : Nat) : Parties :=
  match parties.timers.timerHandler idEvent with
  | none => parties
  | some timer =>
      { parties with
        handlers := parties.handlers ++ [⟨timer, false⟩]
        expiries := Function.update parties.expiries timer (parties.expiries timer + 1) }

def invoke (parties : Parties) (index : Nat) (handler : Handler) : Option Parties :=
  if handler.ran = false then
    some { parties with
      handlers := parties.handlers.set index { handler with ran := true }
      runs := Function.update parties.runs handler.timer (parties.runs handler.timer + 1) }
  else none

/-- The rest of onTimerFire and of TimerHandler, which gives its pointer up. -/
def erase (platform : Platform) (parties : Parties) (index : Nat) (handler : Handler)
    (outcome : Outcome) (killed : Bool) : Option Parties :=
  if handler.ran = true ∧ outcome.Caught then
    let next := { parties with
      timerMap := parties.timerMap.erase handler.timer
      handlers := parties.handlers.eraseIdx index }
    if next.Owned handler.timer then some next
    else next.destroyImpl platform handler.timer killed
  else none

end Parties

/-- startTimer is called through a pointer to the multiplex, which it copies into
the timer. -/
def step (platform : Platform) (parties : Parties) : Action → Option Parties
  | .acquire =>
      if 0 < parties.external then some { parties with external := parties.external + 1 } else none
  | .release =>
      if 0 < parties.external then some { parties with external := parties.external - 1 } else none
  | .startTimer time command answer killed =>
      if 0 < parties.external then parties.startTimer platform time command answer killed else none
  | .startTimerAt time currentTime command answer killed =>
      if 0 < parties.external then
        parties.startTimer platform (time - currentTime) command answer killed
      else none
  | .record timer =>
      if timer ∈ parties.starting then
        some { parties with
          starting := parties.starting.erase timer
          timerMap := insert timer parties.timerMap }
      else none
  | .expire idEvent =>
      if idEvent ∈ parties.timers.setTimers then some (parties.expire idEvent) else none
  | .invoke index => parties.handlers[index]?.bind fun handler => parties.invoke index handler
  | .erase index outcome killed => parties.handlers[index]?.bind fun handler =>
      parties.erase platform index handler outcome killed

theorem destroyImpl_cases {platform : Platform} {parties next : Parties} {timer : Nat}
    {killed : Bool} (taken : parties.destroyImpl platform timer killed = some next) :
    ∃ timers, parties.timers.cancel platform timer killed = some timers ∧
      next = { parties with timers := timers, alive := parties.alive.erase timer } := by
  obtain ⟨timers, cancelled, rest⟩ := Option.bind_eq_some_iff.mp taken
  refine ⟨timers, cancelled, ?_⟩
  simp only at rest
  split at rest
  · exact (Option.some.inj rest).symm
  · cases rest

theorem startTimer_cases {platform : Platform} {parties next : Parties} {time : Int}
    {command : Option Nat} {answer : Nat} {killed : Bool}
    (taken : parties.startTimer platform time command answer killed = some next) :
    (Startable time command ∧ ∃ timers,
      parties.timers.timerSetTime platform parties.allocated answer = some timers ∧
      next = { parties with
        timers := timers
        allocated := parties.allocated + 1
        alive := insert parties.allocated parties.alive
        starting := insert parties.allocated parties.starting
        started := insert parties.allocated parties.started }) ∨
    ∃ timers, parties.timers.cancel platform parties.allocated killed = some timers ∧
      next = { parties with
        timers := timers
        allocated := parties.allocated + 1
        alive := (insert parties.allocated parties.alive).erase parties.allocated } := by
  unfold Parties.startTimer at taken
  simp only at taken
  split at taken
  · rename_i startable
    obtain ⟨timers, set, rfl⟩ := Option.map_eq_some_iff.mp taken
    exact .inl ⟨startable, timers, set, rfl⟩
  · exact .inr (destroyImpl_cases taken)

theorem invoke_cases {parties next : Parties} {index : Nat} {handler : Handler}
    (taken : parties.invoke index handler = some next) :
    handler.ran = false ∧ next = { parties with
      handlers := parties.handlers.set index { handler with ran := true }
      runs := Function.update parties.runs handler.timer (parties.runs handler.timer + 1) } := by
  unfold Parties.invoke at taken
  split at taken
  · rename_i waits
    exact ⟨waits, (Option.some.inj taken).symm⟩
  · cases taken

/-- The state between the erase and the end of TimerHandler. -/
def Parties.erased (parties : Parties) (index : Nat) (handler : Handler) : Parties :=
  { parties with
    timerMap := parties.timerMap.erase handler.timer
    handlers := parties.handlers.eraseIdx index }

theorem erase_cases {platform : Platform} {parties next : Parties} {index : Nat}
    {handler : Handler} {outcome : Outcome} {killed : Bool}
    (taken : parties.erase platform index handler outcome killed = some next) :
    handler.ran = true ∧
      (((parties.erased index handler).Owned handler.timer ∧
        next = parties.erased index handler) ∨
      ¬(parties.erased index handler).Owned handler.timer ∧ ∃ timers,
        parties.timers.cancel platform handler.timer killed = some timers ∧
        next = { parties.erased index handler with
          timers := timers, alive := parties.alive.erase handler.timer }) := by
  unfold Parties.erase at taken
  split at taken
  · rename_i done
    refine ⟨done.1, ?_⟩
    simp only at taken
    split at taken
    · rename_i owned
      exact .inl ⟨owned, (Option.some.inj taken).symm⟩
    · rename_i last
      exact .inr ⟨last, destroyImpl_cases taken⟩
  · cases taken

/-- The destructor changes nothing that the multiplex keeps. -/
theorem erase_frame {platform : Platform} {parties next : Parties} {index : Nat}
    {handler : Handler} {outcome : Outcome} {killed : Bool}
    (taken : parties.erase platform index handler outcome killed = some next) :
    next = { parties.erased index handler with timers := next.timers, alive := next.alive } := by
  obtain ⟨_, ⟨_, rfl⟩ | ⟨_, timers, _, rfl⟩⟩ := erase_cases taken
  · rfl
  · rfl

/-- The calls of TimerHandler for a timer that have its command still to run. -/
def waiting (handlers : List Handler) (timer : Nat) : Nat :=
  handlers.countP fun handler => handler.timer = timer && !handler.ran

def inProgress (handlers : List Handler) (timer : Nat) : Nat :=
  handlers.countP fun handler => handler.timer = timer

theorem waiting_invoke {handlers : List Handler} {index : Nat} {handler : Handler}
    (here : handlers[index]? = some handler) (waits : handler.ran = false) (timer : Nat) :
    waiting (handlers.set index { handler with ran := true }) timer +
      (decide (handler.timer = timer)).toNat = waiting handlers timer := by
  have counted := countP_set here (fun handler => handler.timer = timer && !handler.ran)
    { handler with ran := true }
  simpa only [waiting, waits, Bool.not_true, Bool.and_false, Bool.not_false, Bool.and_true,
    Bool.toNat_false, Nat.add_zero] using counted

theorem inProgress_invoke {handlers : List Handler} {index : Nat} {handler : Handler}
    (here : handlers[index]? = some handler) (timer : Nat) :
    inProgress (handlers.set index { handler with ran := true }) timer =
      inProgress handlers timer :=
  Nat.add_right_cancel (countP_set here (fun handler => handler.timer = timer)
    { handler with ran := true })

theorem waiting_erase {handlers : List Handler} {index : Nat} {handler : Handler}
    (here : handlers[index]? = some handler) (done : handler.ran = true) (timer : Nat) :
    waiting (handlers.eraseIdx index) timer = waiting handlers timer := by
  have counted := countP_eraseIdx here (fun handler => handler.timer = timer && !handler.ran)
  simpa only [waiting, done, Bool.not_true, Bool.and_false, Bool.toNat_false, Nat.add_zero]
    using counted

theorem inProgress_erase {handlers : List Handler} {index : Nat} {handler : Handler}
    (here : handlers[index]? = some handler) (timer : Nat) :
    inProgress (handlers.eraseIdx index) timer + (decide (handler.timer = timer)).toNat =
      inProgress handlers timer :=
  countP_eraseIdx here fun handler => handler.timer = timer

theorem inProgress_pos {handlers : List Handler} {timer : Nat} :
    0 < inProgress handlers timer ↔ ∃ handler ∈ handlers, handler.timer = timer := by
  simp [inProgress, List.countP_pos_iff]

/-- What is kept is what was started, and callbacks are counted as they expire, run
and return. -/
structure Tracked (parties : Parties) : Prop where
  allocated : ∀ timer ∈ parties.started, timer < parties.allocated
  starting : ∀ timer ∈ parties.starting, timer ∈ parties.started
  recorded : ∀ timer ∈ parties.timerMap, timer ∈ parties.started
  found : ∀ id timer, parties.timers.timerHandler id = some timer → timer ∈ parties.started
  expired : ∀ timer, parties.expiries timer ≠ 0 → timer ∈ parties.started
  ran : ∀ timer, parties.runs timer + waiting parties.handlers timer = parties.expiries timer
  called : ∀ timer, inProgress parties.handlers timer ≤ parties.expiries timer

theorem tracked_initial : Tracked Parties.initial := by
  refine ⟨?_, ?_, ?_, ?_, ?_, fun _ => rfl, fun _ => le_rfl⟩
  · exact fun _ member => absurd member (Finset.notMem_empty _)
  · exact fun _ member => absurd member (Finset.notMem_empty _)
  · exact fun _ member => absurd member (Finset.notMem_empty _)
  · exact fun _ _ found => (Option.some_ne_none _ found.symm).elim
  · exact fun _ expired => absurd rfl expired

theorem Tracked.startTimer {platform : Platform} {parties next : Parties} {time : Int}
    {command : Option Nat} {answer : Nat} {killed : Bool} (tracked : Tracked parties)
    (taken : parties.startTimer platform time command answer killed = some next) :
    Tracked next := by
  rcases startTimer_cases taken with ⟨_, timers, set, rfl⟩ | ⟨timers, cancelled, rfl⟩
  · refine ⟨?_, ?_, ?_, ?_, ?_, tracked.ran, tracked.called⟩
    · intro timer member
      rcases Finset.mem_insert.mp member with rfl | before
      · exact Nat.lt_succ_self _
      · exact Nat.lt_succ_of_lt (tracked.allocated timer before)
    · intro timer member
      rcases Finset.mem_insert.mp member with rfl | before
      · exact Finset.mem_insert_self ..
      · exact Finset.mem_insert_of_mem (tracked.starting timer before)
    · exact fun timer member => Finset.mem_insert_of_mem (tracked.recorded timer member)
    · intro id timer found
      rcases timerHandler_timerSetTime set found with before | rfl
      · exact Finset.mem_insert_of_mem (tracked.found id timer before)
      · exact Finset.mem_insert_self ..
    · exact fun timer expired => Finset.mem_insert_of_mem (tracked.expired timer expired)
  · refine ⟨?_, tracked.starting, tracked.recorded, ?_, tracked.expired, tracked.ran,
      tracked.called⟩
    · exact fun timer member => Nat.lt_succ_of_lt (tracked.allocated timer member)
    · exact fun id timer found => tracked.found id timer (timerHandler_cancel cancelled found)

theorem Tracked.expire {parties : Parties} {idEvent : Nat} (tracked : Tracked parties) :
    Tracked (parties.expire idEvent) := by
  unfold Parties.expire
  split
  · exact tracked
  · rename_i timer found
    refine ⟨tracked.allocated, tracked.starting, tracked.recorded, tracked.found, ?_, ?_, ?_⟩
    · intro other expired
      by_cases same : other = timer
      · exact same ▸ tracked.found idEvent timer found
      · change Function.update parties.expiries timer _ other ≠ 0 at expired
        rw [Function.update_of_ne same] at expired
        exact tracked.expired other expired
    · intro other
      have before := tracked.ran other
      simp only [waiting, countP_append_one] at before ⊢
      by_cases same : other = timer
      · subst same
        simp only [Function.update_self, decide_true, Bool.not_false, Bool.and_self,
          Bool.toNat_true]
        omega
      · simpa [Function.update_of_ne same, Ne.symm same] using before
    · intro other
      have before := tracked.called other
      simp only [inProgress, countP_append_one] at before ⊢
      by_cases same : other = timer
      · subst same
        simp only [Function.update_self, decide_true, Bool.toNat_true]
        omega
      · simpa [Function.update_of_ne same, Ne.symm same] using before

theorem Tracked.invoke {parties next : Parties} {index : Nat} {handler : Handler}
    (tracked : Tracked parties) (here : parties.handlers[index]? = some handler)
    (taken : parties.invoke index handler = some next) : Tracked next := by
  obtain ⟨waits, rfl⟩ := invoke_cases taken
  refine ⟨tracked.allocated, tracked.starting, tracked.recorded, tracked.found, tracked.expired,
    ?_, ?_⟩
  · intro other
    have before := tracked.ran other
    have moved := waiting_invoke here waits other
    by_cases same : other = handler.timer
    · subst same
      simp only [decide_true, Bool.toNat_true] at moved
      simp only [Function.update_self]
      omega
    · simp only [Ne.symm same, decide_false, Bool.toNat_false] at moved
      simp only [Function.update_of_ne same]
      omega
  · intro other
    have before := tracked.called other
    rwa [← inProgress_invoke here other] at before

theorem Tracked.erased {parties : Parties} {index : Nat} {handler : Handler}
    (tracked : Tracked parties) (here : parties.handlers[index]? = some handler)
    (done : handler.ran = true) : Tracked (parties.erased index handler) := by
  refine ⟨tracked.allocated, tracked.starting, ?_, tracked.found, tracked.expired, ?_, ?_⟩
  · exact fun timer member => tracked.recorded timer (Finset.mem_of_mem_erase member)
  · intro other
    have before := tracked.ran other
    rwa [← waiting_erase here done other] at before
  · intro other
    have before := tracked.called other
    have fewer := inProgress_erase here other
    show inProgress (parties.handlers.eraseIdx index) other ≤ parties.expiries other
    omega

theorem Tracked.erase {platform : Platform} {parties next : Parties} {index : Nat}
    {handler : Handler} {outcome : Outcome} {killed : Bool} (tracked : Tracked parties)
    (here : parties.handlers[index]? = some handler)
    (taken : parties.erase platform index handler outcome killed = some next) : Tracked next := by
  obtain ⟨done, ⟨_, rfl⟩ | ⟨_, timers, cancelled, rfl⟩⟩ := erase_cases taken
  · exact tracked.erased here done
  · have kept := tracked.erased here done
    refine ⟨kept.allocated, kept.starting, kept.recorded, ?_, kept.expired, kept.ran, kept.called⟩
    exact fun id timer found => tracked.found id timer (timerHandler_cancel cancelled found)

theorem Tracked.step {platform : Platform} {parties next : Parties} {action : Action}
    (tracked : Tracked parties) (taken : step platform parties action = some next) :
    Tracked next := by
  cases action with
  | acquire | release =>
      obtain ⟨_, ⟨⟩⟩ := Option.ite_none_right_eq_some.mp taken
      exact ⟨tracked.allocated, tracked.starting, tracked.recorded, tracked.found,
        tracked.expired, tracked.ran, tracked.called⟩
  | startTimer time command answer killed =>
      exact tracked.startTimer (Option.ite_none_right_eq_some.mp taken).2
  | startTimerAt time currentTime command answer killed =>
      exact tracked.startTimer (Option.ite_none_right_eq_some.mp taken).2
  | record timer =>
      obtain ⟨armed, ⟨⟩⟩ := Option.ite_none_right_eq_some.mp taken
      refine ⟨tracked.allocated, ?_, ?_, tracked.found, tracked.expired, tracked.ran,
        tracked.called⟩
      · exact fun other member => tracked.starting other (Finset.mem_of_mem_erase member)
      · intro other member
        rcases Finset.mem_insert.mp member with rfl | before
        · exact tracked.starting other armed
        · exact tracked.recorded other before
  | expire idEvent =>
      obtain ⟨_, ⟨⟩⟩ := Option.ite_none_right_eq_some.mp taken
      exact tracked.expire
  | invoke index =>
      obtain ⟨handler, here, invoked⟩ := Option.bind_eq_some_iff.mp taken
      exact tracked.invoke here invoked
  | erase index outcome killed =>
      obtain ⟨handler, here, erased⟩ := Option.bind_eq_some_iff.mp taken
      exact tracked.erase here erased

end FrcRobot.CmdTimerMultiplex
