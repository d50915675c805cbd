import FrcRobot.Interleaving
import FrcRobot.MotorLink

set_option autoImplicit false

/- The three parties around one MotorLink: its queue thread, the timer thread
of its controller, and any number of clients. -/
namespace FrcRobot.MotorControlStop

open DeferredQueue Interleaving

variable {K : Type*}

/-- Who has asked for a speed. -/
inductive Source where
  | client
  | controller
  deriving DecidableEq

/-- How far the timer thread is in MotorControl::execute. -/
inductive Tick where
  | expired
  | sent
  deriving DecidableEq

/-- What remains to be done of a setSpeed call. -/
inductive SetSpeed (K : Type*) where
  | cancel (pow : K)
  | clear (pow : K)
  | enqueue (pow : K)

/-- `stopped` and `lastWriter` are no part of the program: whether a stop has
been processed and no start since, and who asked for the last Talon write. -/
structure Parties (K : Type*) where
  server : Server (LinkState K) (Source × Request K)
  tick : Option Tick
  underway : List (SetSpeed K)
  stopped : Bool
  lastWriter : Option Source

inductive Action (K : Type*) where
  | startSpeedControl (target : K)
  | stopSpeedControl
  | setSpeed (pow : K)
  | advance (call : Nat)
  | expire
  | send (power : K)
  | rearm
  | serve

/-- The timer of the attached controller is armed. -/
def armed (state : LinkState K) : Bool :=
  (state.link.spdControl.map fun id => (state.controls id).timerArmed).getD false

def stoppedAfter (stopped : Bool) : Source × Request K → Bool
  | (_, .stopSpeedControlImpl) => true
  | (.client, .setSpeedImpl _) => true
  | (_, .startSpeedControlImpl _) => false
  | _ => stopped

def writerAfter (lastWriter : Option Source) : Source × Request K → Option Source
  | (_, .stopSpeedControlImpl) => some .client
  | (source, .setSpeedImpl _) => some source
  | _ => lastWriter

def Parties.enqueue (parties : Parties K) (source : Source) (request : Request K) : Parties K :=
  { parties with server := parties.server.enqueue (source, request) }

/-- A call through `_spdControl` from whichever thread. -/
def Parties.callControl (parties : Parties K) (method : MotorControl K → MotorControl K) :
    Option (Parties K) :=
  (parties.server.state.callControl method).map fun state =>
    { parties with server := { parties.server with state := state } }

/-- The next access of a setSpeed call that is under way. -/
def Parties.advance (parties : Parties K) (call : Nat) : Option (Parties K) :=
  match parties.underway[call]? with
  | none => none
  | some (.cancel pow) =>
      (parties.callControl MotorControl.cancel).map fun cancelled =>
        { cancelled with underway := cancelled.underway.set call (.clear pow) }
  | some (.clear pow) => some
      { parties with
        server := { parties.server with state := parties.server.state.setEnabled false }
        underway := parties.underway.set call (.enqueue pow) }
  | some (.enqueue pow) =>
      some { parties.enqueue .client (.setSpeedImpl pow) with
        underway := parties.underway.eraseIdx call }

section Steps

variable [Field K]

def Parties.serve (parties : Parties K) : Option (Parties K) :=
  match parties.server.queue with
  | [] => none
  | entry :: _ =>
      (parties.server.serve fun state entry => state.exec entry.2).map fun server =>
        { parties with
          server := server
          stopped := stoppedAfter parties.stopped entry
          lastWriter := writerAfter parties.lastWriter entry }

/-- A one-shot timer is disarmed when it expires. The tick then sends one speed,
whatever the controller computes, and arms the timer again. -/
def step (parties : Parties K) : Action K → Option (Parties K)
  | .startSpeedControl target => some (parties.enqueue .client (.startSpeedControlImpl target))
  | .stopSpeedControl => some (parties.enqueue .client .stopSpeedControlImpl)
  | .setSpeed pow =>
      let call := if parties.server.state.link.spdControlEnabled then .cancel pow else .enqueue pow
      some { parties with underway := parties.underway ++ [call] }
  | .advance call => parties.advance call
  | .expire =>
      if armed parties.server.state && parties.tick.isNone then
        (parties.callControl MotorControl.cancel).map fun begun =>
          { begun with tick := some .expired }
      else none
  | .send power =>
      if parties.tick = some .expired then
        some { parties.enqueue .controller (.setSpeedImpl power) with tick := some .sent }
      else none
  | .rearm =>
      if parties.tick = some .sent then
        (parties.callControl MotorControl.start).map fun ended => { ended with tick := none }
      else none
  | .serve => parties.serve

end Steps

/-- Since the last stop the controller has written nothing, and it is not going to. -/
def StoppedForGood (parties : Parties K) : Prop :=
  parties.stopped = true →
    armed parties.server.state = false ∧ parties.lastWriter ≠ some .controller

def isStart : Source × Request K → Bool
  | (_, .startSpeedControlImpl _) => true
  | _ => false

def isControllerWrite : Source × Request K → Bool
  | (.controller, .setSpeedImpl _) => true
  | _ => false

/-- A speed of the controller waits ahead of the next start. -/
def stale (queue : List (Source × Request K)) : Bool :=
  (queue.takeWhile fun entry => !isStart entry).any isControllerWrite

@[simp] theorem stale_nil : stale ([] : List (Source × Request K)) = false := rfl

theorem stale_cons (entry : Source × Request K) (rest : List (Source × Request K)) :
    stale (entry :: rest) = (!isStart entry && (isControllerWrite entry || stale rest)) := by
  unfold stale
  cases start : isStart entry <;> simp [start]

theorem stale_append {entry : Source × Request K} (client : isControllerWrite entry = false)
    (queue : List (Source × Request K)) : stale (queue ++ [entry]) = stale queue := by
  induction queue with
  | nil => simp [stale_cons, client]
  | cons head rest ih => simp only [List.cons_append, stale_cons, ih]

/-- The moment a stop is processed, or the Talon written for a setSpeed call, is
a quiet one: no tick is half done, no speed of the controller waits ahead of the
next start, and the timer is not armed unless the stop itself disarms it. -/
def QuietAt (parties : Parties K) (entry : Source × Request K)
    (rest : List (Source × Request K)) : Prop :=
  parties.tick = none ∧ stale rest = false ∧
    (entry.2 matches .stopSpeedControlImpl ∨ armed parties.server.state = false)

def isStop : Source × Request K → Bool
  | (_, .stopSpeedControlImpl) => true
  | (.client, .setSpeedImpl _) => true
  | _ => false

def StopsQuietly (parties : Parties K) : Action K → Prop
  | .serve =>
      match parties.server.queue with
      | [] => True
      | entry :: rest => isStop entry = true → QuietAt parties entry rest
  | _ => True

instance (parties : Parties K) (action : Action K) : Decidable (StopsQuietly parties action) := by
  unfold StopsQuietly
  split
  · split
    · infer_instance
    · unfold QuietAt
      infer_instance
  · infer_instance

@[simp] theorem armed_setEnabled (state : LinkState K) (enabled : Bool) :
    armed (state.setEnabled enabled) = armed state := rfl

theorem callControl_link {state next : LinkState K} {method : MotorControl K → MotorControl K}
    (called : state.callControl method = some next) : next.link = state.link := by
  obtain ⟨id, _, rfl⟩ := Option.map_eq_some_iff.mp called
  rfl

theorem callControl_armed {state next : LinkState K} {method : MotorControl K → MotorControl K}
    {on : Bool} (leaves : ∀ control, (method control).timerArmed = on)
    (called : state.callControl method = some next) : armed next = on := by
  obtain ⟨id, attached, rfl⟩ := Option.map_eq_some_iff.mp called
  simp [armed, attached, leaves]

/-- What the three parties put on the queue. -/
def isMotion : Request K → Bool
  | .setSpeedImpl _ | .startSpeedControlImpl _ | .stopSpeedControlImpl => true
  | _ => false

/-- The controller has come to rest: no tick will arm the timer again, and
nothing of it waits to be written. -/
structure AtRest (parties : Parties K) : Prop where
  disarmed : armed parties.server.state = false
  idle : parties.tick = none
  fresh : stale parties.server.queue = false
  writer : parties.lastWriter ≠ some .controller

structure Inv (parties : Parties K) : Prop where
  attached : parties.server.state.link.spdControl.isSome = true
  motion : ∀ entry ∈ parties.server.queue, isMotion entry.2 = true

theorem stoppedAfter_of_not_start {entry : Source × Request K} (other : isStart entry = false) :
    stoppedAfter true entry = true := by
  obtain ⟨source, request⟩ := entry
  cases source <;> cases request <;> first | rfl | cases other

theorem writerAfter_controller {entry : Source × Request K} (writes : isControllerWrite entry = true)
    (lastWriter : Option Source) : writerAfter lastWriter entry = some .controller := by
  obtain ⟨source, request⟩ := entry
  cases source <;> cases request <;> first | rfl | cases writes

theorem isStop_cases {entry : Source × Request K} (stop : isStop entry = true) :
    (∃ pow, entry = (.client, .setSpeedImpl pow)) ∨ entry.2 = .stopSpeedControlImpl := by
  obtain ⟨source, request⟩ := entry
  cases source <;> cases request <;> first | exact .inl ⟨_, rfl⟩ | exact .inr rfl | cases stop

theorem stoppedAfter_of_stop {entry : Source × Request K} (stop : isStop entry = true)
    (stopped : Bool) : stoppedAfter stopped entry = true := by
  obtain ⟨pow, rfl⟩ | same := isStop_cases stop
  · rfl
  · obtain ⟨source, request⟩ := entry
    cases same
    cases source <;> rfl

/-- Calls through the pointer keep everything but the controller. -/
theorem parties_callControl {parties next : Parties K} {method : MotorControl K → MotorControl K}
    (called : parties.callControl method = some next) :
    ∃ state, parties.server.state.callControl method = some state ∧
      next = { parties with server := { parties.server with state := state } } := by
  obtain ⟨state, reached, rfl⟩ := Option.map_eq_some_iff.mp called
  exact ⟨state, reached, rfl⟩

/-- The three accesses of a setSpeed call. -/
theorem advance_cases {parties next : Parties K} {call : Nat}
    (taken : parties.advance call = some next) :
    (∃ pow state, parties.server.state.callControl MotorControl.cancel = some state ∧
      next = { parties with
        server := { parties.server with state := state }
        underway := parties.underway.set call (.clear pow) }) ∨
    (∃ pow, next = { parties with
      server := { parties.server with state := parties.server.state.setEnabled false }
      underway := parties.underway.set call (.enqueue pow) }) ∨
    ∃ pow, next = { parties.enqueue .client (.setSpeedImpl pow) with
      underway := parties.underway.eraseIdx call } := by
  unfold Parties.advance at taken
  split at taken
  · cases taken
  · rename_i pow _
    obtain ⟨cancelled, called, rfl⟩ := Option.map_eq_some_iff.mp taken
    obtain ⟨state, reached, rfl⟩ := parties_callControl called
    exact .inl ⟨pow, state, reached, rfl⟩
  · rename_i pow _
    exact .inr (.inl ⟨pow, (Option.some.inj taken).symm⟩)
  · rename_i pow _
    exact .inr (.inr ⟨pow, (Option.some.inj taken).symm⟩)

theorem Inv.callControl {parties : Parties K} (inv : Inv parties)
    (method : MotorControl K → MotorControl K) :
    ∃ next, parties.callControl method = some next := by
  obtain ⟨id, attached⟩ := Option.isSome_iff_exists.mp inv.attached
  simp [Parties.callControl, LinkState.callControl, attached]

theorem Inv.enqueue {parties : Parties K} (inv : Inv parties) (source : Source)
    (request : Request K) (motion : isMotion request = true) :
    Inv (parties.enqueue source request) := by
  refine ⟨inv.attached, ?_⟩
  intro entry member
  rcases List.mem_append.mp member with old | new
  · exact inv.motion entry old
  · rw [List.mem_singleton.mp new]
    exact motion

theorem AtRest.enqueue {parties : Parties K} (rest : AtRest parties) (request : Request K) :
    AtRest (parties.enqueue .client request) := by
  refine ⟨rest.disarmed, rest.idle, ?_, rest.writer⟩
  exact (stale_append rfl _).trans rest.fresh

/-- A link with an attached controller, before anything has been asked of it. -/
def initial (state : LinkState K) : Parties K := ⟨⟨state, []⟩, none, [], false, none⟩

theorem initial_inv {state : LinkState K} (attached : state.link.spdControl.isSome = true) :
    Inv (initial state) := ⟨attached, fun _ member => absurd member List.not_mem_nil⟩

section Steps

variable [Field K]

theorem serve_inv {parties next : Parties K} (served : parties.serve = some next) :
    ∃ entry rest state, parties.server.queue = entry :: rest ∧
      parties.server.state.exec entry.2 = some state ∧
      next = { parties with
        server := ⟨state, rest⟩
        stopped := stoppedAfter parties.stopped entry
        lastWriter := writerAfter parties.lastWriter entry } := by
  unfold Parties.serve at served
  split at served
  · cases served
  · rename_i entry rest waiting
    obtain ⟨server, executed, rfl⟩ := Option.map_eq_some_iff.mp served
    obtain ⟨head, same, ran⟩ := (serve_iff _ _ _).mp executed
    rw [waiting, List.cons.injEq] at same
    obtain ⟨rfl, rfl⟩ := same
    exact ⟨entry, server.queue, server.state, waiting, ran, rfl⟩

theorem exec_attached {state next : LinkState K} {request : Request K}
    (motion : isMotion request = true) (executed : state.exec request = some next) :
    next.link.spdControl = state.link.spdControl := by
  cases request with
  | setSpeedImpl pow =>
      cases executed
      rfl
  | startSpeedControlImpl target =>
      obtain ⟨started, called, rfl⟩ := Option.map_eq_some_iff.mp executed
      change started.link.spdControl = state.link.spdControl
      rw [callControl_link called]
  | stopSpeedControlImpl =>
      obtain ⟨cancelled, called, rfl⟩ := Option.map_eq_some_iff.mp executed
      change cancelled.link.spdControl = state.link.spdControl
      rw [callControl_link called]
  | setEncoderImpl | reverseMotorImpl | setSpeedScalarImpl | setSpeedControllerImpl => cases motion

theorem exec_stop_armed {state next : LinkState K}
    (executed : state.exec .stopSpeedControlImpl = some next) : armed next = false := by
  obtain ⟨cancelled, called, rfl⟩ := Option.map_eq_some_iff.mp executed
  rw [armed_setEnabled]
  exact callControl_armed MotorControl.cancel_timerArmed called

theorem exec_setSpeed_armed {state next : LinkState K} {pow : K}
    (executed : state.exec (.setSpeedImpl pow) = some next) : armed next = armed state := by
  cases executed
  rfl

theorem step_expire {parties next : Parties K} (taken : step parties .expire = some next) :
    armed parties.server.state = true ∧ ∃ state,
      parties.server.state.callControl MotorControl.cancel = some state ∧
      next = { parties with
        server := { parties.server with state := state }
        tick := some .expired } := by
  simp only [step] at taken
  split at taken
  · rename_i due
    obtain ⟨begun, called, rfl⟩ := Option.map_eq_some_iff.mp taken
    obtain ⟨state, reached, rfl⟩ := parties_callControl called
    have running : armed parties.server.state = true := (Bool.and_eq_true_iff.mp due).1
    exact ⟨running, state, reached, rfl⟩
  · cases taken

theorem step_send {parties next : Parties K} {power : K}
    (taken : step parties (.send power) = some next) :
    parties.tick = some .expired ∧
      next = { parties.enqueue .controller (.setSpeedImpl power) with tick := some .sent } := by
  simp only [step] at taken
  split at taken
  · rename_i begun
    exact ⟨begun, (Option.some.inj taken).symm⟩
  · cases taken

theorem step_rearm {parties next : Parties K} (taken : step parties .rearm = some next) :
    parties.tick = some .sent ∧ ∃ state,
      parties.server.state.callControl MotorControl.start = some state ∧
      next = { parties with server := { parties.server with state := state }, tick := none } := by
  simp only [step] at taken
  split at taken
  · rename_i begun
    obtain ⟨ended, called, rfl⟩ := Option.map_eq_some_iff.mp taken
    obtain ⟨state, reached, rfl⟩ := parties_callControl called
    exact ⟨begun, state, reached, rfl⟩
  · cases taken

theorem Inv.step {parties next : Parties K} {action : Action K} (inv : Inv parties)
    (taken : step parties action = some next) : Inv next := by
  -- No call through the pointer changes the pointer.
  have called : ∀ {method : MotorControl K → MotorControl K} {state : LinkState K},
      parties.server.state.callControl method = some state →
      state.link.spdControl.isSome = true := by
    intro method state reached
    rw [callControl_link reached]
    exact inv.attached
  cases action with
  | startSpeedControl target =>
      cases taken
      exact inv.enqueue .client _ rfl
  | stopSpeedControl =>
      cases taken
      exact inv.enqueue .client _ rfl
  | setSpeed pow =>
      cases taken
      exact ⟨inv.attached, inv.motion⟩
  | advance call =>
      rcases advance_cases taken with ⟨pow, state, reached, rfl⟩ | ⟨pow, rfl⟩ | ⟨pow, rfl⟩
      · exact ⟨called reached, inv.motion⟩
      · exact ⟨inv.attached, inv.motion⟩
      · have kept := inv.enqueue .client (.setSpeedImpl pow) rfl
        exact ⟨kept.attached, kept.motion⟩
  | expire =>
      obtain ⟨_, state, reached, rfl⟩ := step_expire taken
      exact ⟨called reached, inv.motion⟩
  | send power =>
      obtain ⟨_, rfl⟩ := step_send taken
      have kept := inv.enqueue .controller (.setSpeedImpl power) rfl
      exact ⟨kept.attached, kept.motion⟩
  | rearm =>
      obtain ⟨_, state, reached, rfl⟩ := step_rearm taken
      exact ⟨called reached, inv.motion⟩
  | serve =>
      obtain ⟨entry, rest, state, waiting, executed, rfl⟩ := serve_inv taken
      have motion := inv.motion entry (by simp [waiting])
      constructor
      · change state.link.spdControl.isSome = true
        rw [exec_attached motion executed]
        exact inv.attached
      · intro other member
        apply inv.motion other
        rw [waiting]
        exact List.mem_cons_of_mem entry member

/-- A quiet stop brings the controller to rest, and nothing but a start that is
processed wakes it. -/
theorem atRest_serve {parties next : Parties K} (inv : Inv parties)
    (resting : parties.stopped = true → AtRest parties) (quiet : StopsQuietly parties .serve)
    (taken : parties.serve = some next) : next.stopped = true → AtRest next := by
  obtain ⟨⟨source, request⟩, rest, state, waiting, executed, rfl⟩ := serve_inv taken
  have motion := inv.motion _ (waiting ▸ List.mem_cons_self ..)
  simp only [StopsQuietly, waiting] at quiet
  cases request with
  | startSpeedControlImpl target =>
      intro stopped
      cases source <;> cases stopped
  | stopSpeedControlImpl =>
      intro _
      obtain ⟨idle, fresh, _⟩ := quiet (by cases source <;> rfl)
      exact ⟨exec_stop_armed executed, idle, fresh, by cases source <;> simp [writerAfter]⟩
  | setSpeedImpl pow =>
      cases source with
      | client =>
          intro _
          obtain ⟨idle, fresh, disarmed⟩ := quiet rfl
          have disarmed : armed parties.server.state = false := by simpa using disarmed
          exact ⟨(exec_setSpeed_armed executed).trans disarmed, idle, fresh, by
            simp [writerAfter]⟩
      | controller =>
          intro stopped
          have fresh := (resting stopped).fresh
          simp [waiting, stale_cons, isStart, isControllerWrite] at fresh
  | setEncoderImpl | reverseMotorImpl | setSpeedScalarImpl | setSpeedControllerImpl => cases motion

theorem atRest_step {parties next : Parties K} {action : Action K} (inv : Inv parties)
    (resting : parties.stopped = true → AtRest parties) (quiet : StopsQuietly parties action)
    (taken : step parties action = some next) : next.stopped = true → AtRest next := by
  cases action with
  | startSpeedControl target =>
      cases taken
      exact fun stopped => (resting stopped).enqueue _
  | stopSpeedControl =>
      cases taken
      exact fun stopped => (resting stopped).enqueue _
  | setSpeed pow =>
      cases taken
      intro stopped
      have rest := resting stopped
      exact ⟨rest.disarmed, rest.idle, rest.fresh, rest.writer⟩
  | advance call =>
      rcases advance_cases taken with ⟨pow, state, reached, rfl⟩ | ⟨pow, rfl⟩ | ⟨pow, rfl⟩
      · intro stopped
        have rest := resting stopped
        have disarmed := callControl_armed MotorControl.cancel_timerArmed reached
        exact ⟨disarmed, rest.idle, rest.fresh, rest.writer⟩
      · intro stopped
        have rest := resting stopped
        exact ⟨rest.disarmed, rest.idle, rest.fresh, rest.writer⟩
      · intro stopped
        have rest := (resting stopped).enqueue (.setSpeedImpl pow)
        exact ⟨rest.disarmed, rest.idle, rest.fresh, rest.writer⟩
  | expire =>
      obtain ⟨running, state, _, rfl⟩ := step_expire taken
      intro stopped
      have disarmed := (resting stopped).disarmed
      rw [running] at disarmed
      cases disarmed
  | send power =>
      obtain ⟨begun, rfl⟩ := step_send taken
      intro stopped
      have idle := (resting stopped).idle
      rw [begun] at idle
      cases idle
  | rearm =>
      obtain ⟨begun, state, _, rfl⟩ := step_rearm taken
      intro stopped
      have idle := (resting stopped).idle
      rw [begun] at idle
      cases idle
  | serve => exact atRest_serve inv resting quiet taken

/-- A stop in any other moment is undone while it lasts: the half-done tick arms
the timer again, or the speed it has sent is written. -/
def Undone : Parties K → Prop :=
  CanReach step (fun parties _ => parties.stopped = true) fun parties => ¬StoppedForGood parties

theorem undone_of_sent {parties : Parties K} (inv : Inv parties) (stopped : parties.stopped = true)
    (sent : parties.tick = some .sent) : Undone parties := by
  obtain ⟨ended, called⟩ := inv.callControl MotorControl.start
  obtain ⟨state, reached, rfl⟩ := parties_callControl called
  have taken : step parties .rearm =
      some { parties with server := { parties.server with state := state }, tick := none } := by
    simp only [step, sent, ↓reduceIte, called, Option.map_some]
  refine CanReach.cons stopped taken (.here ?_)
  intro good
  have rearmed := callControl_armed MotorControl.start_timerArmed reached
  have disarmed : armed state = false := (good stopped).1
  rw [rearmed] at disarmed
  cases disarmed

theorem undone_of_tick {parties : Parties K} (inv : Inv parties) (stopped : parties.stopped = true)
    {tick : Tick} (begun : parties.tick = some tick) : Undone parties := by
  cases tick with
  | sent => exact undone_of_sent inv stopped begun
  | expired =>
      have taken : step parties (.send 0) =
          some { parties.enqueue .controller (.setSpeedImpl 0) with tick := some .sent } := by
        simp only [step, begun, ↓reduceIte]
      exact CanReach.cons stopped taken (undone_of_sent (inv.step taken) stopped rfl)

theorem exec_enabled_of_attached {state : LinkState K} {request : Request K}
    (attached : state.link.spdControl.isSome = true) (motion : isMotion request = true) :
    ∃ next, state.exec request = some next := by
  obtain ⟨id, attached⟩ := Option.isSome_iff_exists.mp attached
  cases request with
  | setSpeedImpl pow => exact ⟨_, rfl⟩
  | startSpeedControlImpl target =>
      simp [LinkState.exec, LinkState.startSpeedControlImpl, LinkState.callControl, attached]
  | stopSpeedControlImpl =>
      simp [LinkState.exec, LinkState.stopSpeedControlImpl, LinkState.callControl, attached]
  | setEncoderImpl | reverseMotorImpl | setSpeedScalarImpl | setSpeedControllerImpl => cases motion

/-- The queue thread alone gets to a stale speed. -/
theorem undone_of_stale {queue : List (Source × Request K)} {parties : Parties K}
    (inv : Inv parties) (stopped : parties.stopped = true) (waiting : parties.server.queue = queue)
    (late : stale queue = true) : Undone parties := by
  induction queue generalizing parties with
  | nil => simp at late
  | cons entry rest ih =>
      have motion := inv.motion entry (waiting ▸ List.mem_cons_self ..)
      obtain ⟨state, executed⟩ := exec_enabled_of_attached inv.attached motion
      have taken : step parties .serve = some { parties with
          server := ⟨state, rest⟩
          stopped := stoppedAfter parties.stopped entry
          lastWriter := writerAfter parties.lastWriter entry } := by
        simp only [step, Parties.serve, waiting, Server.serve, executed, Option.map_some]
      simp only [stale_cons, Bool.and_eq_true, Bool.not_eq_true', Bool.or_eq_true] at late
      obtain ⟨other, writes | later⟩ := late
      · refine CanReach.cons stopped taken (.here fun good => ?_)
        have written := (good (by rw [stopped, stoppedAfter_of_not_start other])).2
        exact written (writerAfter_controller writes _)
      · exact CanReach.cons stopped taken (ih (inv.step taken)
          (by rw [stopped, stoppedAfter_of_not_start other]) rfl later)

theorem undone_of_unquiet {parties next : Parties K} (inv : Inv parties)
    (unquiet : ¬StopsQuietly parties .serve) (taken : step parties .serve = some next) :
    Undone next := by
  have kept := inv.step taken
  obtain ⟨entry, rest, state, waiting, executed, rfl⟩ := serve_inv taken
  simp only [StopsQuietly, waiting, Classical.not_imp, QuietAt, not_and_or] at unquiet
  obtain ⟨stop, ticking | late | running⟩ := unquiet
  all_goals have stopped := stoppedAfter_of_stop stop parties.stopped
  · obtain ⟨tick, begun⟩ := Option.ne_none_iff_exists'.mp ticking
    exact undone_of_tick kept stopped begun
  · exact undone_of_stale kept stopped rfl (by simpa using late)
  · obtain ⟨pow, rfl⟩ | same := isStop_cases stop
    · refine CanReach.here fun good => ?_
      have disarmed : armed state = false := (good stopped).1
      rw [exec_setSpeed_armed executed] at disarmed
      exact running (.inr disarmed)
    · exact absurd (.inl (by simp [same])) running

theorem run_inv {state : LinkState K} {actions : List (Action K)} {last : Parties K}
    (attached : state.link.spdControl.isSome = true)
    (taken : run step (initial state) actions = some last) : Inv last :=
  run_invariant Inv (fun _ _ _ inv first => inv.step first) (initial_inv attached) taken

/-- In a run whose stops are quiet every stop is final, and each stop that is
not quiet can still be undone. -/
theorem stop_final_iff_quiet (state : LinkState K)
    (attached : state.link.spdControl.isSome = true) :
    (∀ actions last, Along step StopsQuietly (initial state) actions →
      run step (initial state) actions = some last → StoppedForGood last) ∧
    ∀ actions last next, run step (initial state) actions = some last →
      ¬StopsQuietly last .serve → step last .serve = some next → Undone next := by
  constructor
  · intro actions last quiet taken
    have resting : Inv last ∧ (last.stopped = true → AtRest last) :=
      run_invariant_along (fun parties => Inv parties ∧ (parties.stopped = true → AtRest parties))
        (fun _ _ _ rest permitted first =>
          ⟨rest.1.step first, atRest_step rest.1 rest.2 permitted first⟩)
        ⟨initial_inv attached, fun stopped => absurd stopped Bool.false_ne_true⟩ quiet taken
    intro stopped
    exact ⟨(resting.2 stopped).disarmed, (resting.2 stopped).writer⟩
  · intro actions last next taken unquiet served
    exact undone_of_unquiet (run_inv attached taken) unquiet served

end Steps

instance (parties : Parties K) : Decidable (StoppedForGood parties) := by
  unfold StoppedForGood
  infer_instance

/-- A whole tick, and then a stop. -/
def stopAfterTick : List (Action ℚ) :=
  [.startSpeedControl 90, .serve, .expire, .send (1 / 2), .rearm, .serve, .stopSpeedControl, .serve]

/-- The stop is requested, and nothing more, while a tick has not sent its speed. -/
def stopWithinTick : List (Action ℚ) :=
  [.startSpeedControl 90, .serve, .expire, .stopSpeedControl]

theorem stop_final_iff_quiet_ticked :
    (∃ last, run step (initial (freshLink linearAngleTarget)) stopAfterTick = some last ∧
      StoppedForGood last) ∧
    ∃ last next, run step (initial (freshLink linearAngleTarget)) stopWithinTick = some last ∧
      step last .serve = some next ∧ Undone next :=
  ⟨⟨_, rfl, (stop_final_iff_quiet (freshLink linearAngleTarget) rfl).1 stopAfterTick _
      (by decide +kernel) rfl⟩,
    _, _, rfl, rfl, (stop_final_iff_quiet (freshLink linearAngleTarget) rfl).2 stopWithinTick _ _
      rfl (by decide +kernel) rfl⟩

/-- The stop is processed between the two steps of a tick. -/
theorem not_stoppedForGood_halfTick :
    ∃ last, run step (initial (freshLink linearAngleTarget))
        [.startSpeedControl 90, .serve, .expire, .send (1 / 2), .serve, .stopSpeedControl,
          .serve, .rearm] = some last ∧ ¬StoppedForGood last :=
  ⟨_, rfl, by decide +kernel⟩

end FrcRobot.MotorControlStop
