import FrcRobot.ArcadeDrive
import FrcRobot.Interleaving
import FrcRobot.ListenerManagerDispatch
import FrcRobot.MotorLinkSpeeds

set_option autoImplicit false

/- From the joystick to the two Talons: the polling thread, the queue thread of
the drive and the queue threads of its two motors. -/
namespace FrcRobot.ArcadeDrive

open Interleaving ListenerManager
open MotorLink (Processor SpeedsOnly Leaves)

variable {K L : Type*}

/-- Where the polling thread stands. Between two polls it assigns the new axes
one by one and then invokes the listeners it has collected, in some order. To
publish an unchanged snapshot, as is done here, has no effect. -/
inductive Poll (K L : Type*) where
  | waiting
  | publishing (newValues : ControlValues K) (rest : List (Fin 16)) (listeners : List L)
  | invoking (listeners : List L)
  deriving DecidableEq

def Poll.listeners : Poll K L → List L
  | .waiting => []
  | .publishing _ _ listeners => listeners
  | .invoking listeners => listeners

/-- `steers` commands wait in the queue of the drive. `dispatched` is no part of
the program: whether steer has been called at all. -/
structure Parties (K L : Type*) where
  values : ControlValues K
  poll : Poll K L
  dispatched : Bool
  steers : Nat
  handler : Option (SteerHandler K)
  driveLeft : Processor K
  driveRight : Processor K

inductive Action (K L : Type*) where
  | pollControls (table : ListenerMap L) (joystick : Joystick K) (listeners : List L)
  | publish
  | invoke
  | steerHandler
  | advance
  | serveLeft
  | serveRight

def Parties.x (parties : Parties K L) : K := parties.values.axisAt 11

def Parties.y (parties : Parties K L) : K := parties.values.axisAt 14

def Parties.publish (parties : Parties K L) (newValues : ControlValues K) (counter : Fin 16) :
    Parties K L :=
  { parties with values := parties.values.setAxis counter (newValues.axisAt counter) }

variable (steer : L → Bool)

/-- Some listener that steers is registered for each of the two axes. -/
def Registered (table : ListenerMap L) : Prop :=
  ∀ key ∈ [Listenable.joy1X, Listenable.joy1Y], ∃ entry ∈ table,
    entry.1 = key ∧ steer entry.2 = true

def KeepsSteering : Action K L → Prop
  | .pollControls table _ _ => Registered steer table
  | _ => True

instance (table : ListenerMap L) : Decidable (Registered steer table) :=
  have (key : Listenable) : Decidable (∃ entry ∈ table, entry.1 = key ∧ steer entry.2 = true) :=
    Multiset.decidableExistsMultiset
  inferInstanceAs (Decidable (∀ key ∈ [Listenable.joy1X, Listenable.joy1Y], ∃ entry ∈ table,
    entry.1 = key ∧ steer entry.2 = true))

instance : (action : Action K L) → Decidable (KeepsSteering steer action)
  | .pollControls table _ _ => inferInstanceAs (Decidable (Registered steer table))
  | .publish | .invoke | .steerHandler | .advance | .serveLeft | .serveRight => .isTrue trivial

/-- A steer is still to come: it waits in the queue, or is going to be called. -/
def Pending (parties : Parties K L) : Prop :=
  0 < parties.steers ∨ ∃ listener ∈ parties.poll.listeners, steer listener = true

/-- Axes that are being published without calling for a steer do not change. -/
def Unmoved (parties : Parties K L) : Prop :=
  ∀ newValues rest listeners, parties.poll = .publishing newValues rest listeners →
    (∀ listener ∈ listeners, steer listener = false) →
    newValues.axisAt 11 = parties.x ∧ newValues.axisAt 14 = parties.y

variable {steer}

theorem publish_axis (parties : Parties K L) (newValues : ControlValues K)
    (counter axis : Fin 16)
    (unmoved : newValues.axisAt axis = parties.values.axisAt axis) :
    (parties.publish newValues counter).values.axisAt axis = parties.values.axisAt axis := by
  rw [Parties.publish, ControlValues.setAxis_axisAt]
  by_cases here : counter = axis
  · rw [if_pos here, here, unmoved]
  · rw [if_neg here]

theorem silent_of_not_pending {parties : Parties K L} (done : ¬Pending steer parties) :
    parties.steers = 0 ∧ ∀ listener ∈ parties.poll.listeners, steer listener = false := by
  constructor
  · have none : ¬0 < parties.steers := fun waiting => done (.inl waiting)
    omega
  · intro listener member
    cases steers : steer listener with
    | false => rfl
    | true => exact absurd (.inr ⟨listener, member, steers⟩) done

/-- A steer to come is still to come if neither the queue nor the polling thread
has got rid of it. -/
theorem Pending.mono {parties next : Parties K L} (pending : Pending steer parties)
    (queued : parties.steers ≤ next.steers)
    (called : ∀ listener ∈ parties.poll.listeners, steer listener = true →
      listener ∈ next.poll.listeners) : Pending steer next := by
  rcases pending with waiting | ⟨listener, member, steers⟩
  · exact .inl (Nat.lt_of_lt_of_le waiting queued)
  · exact .inr ⟨listener, called listener member steers, steers⟩

section Cycle

variable [LinearOrder K] [DecidableEq L]

theorem registered_collected {table : ListenerMap L} (registered : Registered steer table)
    {old new : ControlValues K} {key : Listenable} (axis : key ∈ [Listenable.joy1X, .joy1Y])
    {counter : Fin 16} (code : counter.val = key.value) (moved : Moved old new counter) :
    ∃ listener ∈ (cycle table old new).2, steer listener = true := by
  obtain ⟨⟨_, listener⟩, member, rfl, steers⟩ := registered key axis
  refine ⟨listener, ?_, steers⟩
  rw [mem_cycle]
  refine .inr ⟨counter, ?_, moved, ⟨_, member, code.symm, rfl⟩⟩
  rw [mem_axisCounters_iff, code]
  have one := List.mem_cons.mp axis
  simp only [List.mem_singleton] at one
  rcases one with rfl | rfl <;> simp [Listenable.value]

/-- A cycle that calls no steer has found both axes as they were. -/
theorem unmoved_cycle {table : ListenerMap L} (registered : Registered steer table)
    (old new : ControlValues K)
    (silent : ∀ listener ∈ (cycle table old new).2, steer listener = false) :
    new.axisAt 11 = old.axisAt 11 ∧ new.axisAt 14 = old.axisAt 14 := by
  have still : ∀ key ∈ [Listenable.joy1X, Listenable.joy1Y], ∀ counter : Fin 16,
      counter.val = key.value → ¬Moved old new counter := by
    intro key axis counter code moved
    obtain ⟨listener, member, steers⟩ := registered_collected registered axis code moved
    rw [silent listener member] at steers
    cases steers
  have x := still .joy1X (by simp) 11 rfl
  have y := still .joy1Y (by simp) 14 rfl
  exact ⟨(not_not.mp x).symm, (not_not.mp y).symm⟩

end Cycle

variable [Field K] [LinearOrder K]

/-- The next access of a handler that runs. -/
def Parties.advance (parties : Parties K L) : Option (Parties K L) :=
  match parties.handler with
  | none => none
  | some (.driveLeft spdL spdR) =>
      (MotorLink.setSpeed parties.driveLeft spdL).map fun driveLeft =>
        { parties with driveLeft := driveLeft, handler := some (.driveRight spdR) }
  | some (.driveRight spdR) =>
      (MotorLink.setSpeed parties.driveRight spdR).map fun driveRight =>
        { parties with driveRight := driveRight, handler := none }
  | some handler =>
      (handler.read parties.values).map fun next => { parties with handler := some next }

variable [DecidableEq L] (steer)

/-- The listeners that steer put a command on the queue of the drive; what the
others do does not concern its motors. -/
def step (parties : Parties K L) : Action K L → Option (Parties K L)
  | .pollControls table joystick listeners =>
      match parties.poll with
      | .waiting =>
          let cycle := cycle table parties.values (pollControls joystick)
          if listeners.Nodup ∧ listeners.toFinset = cycle.2 then
            some { parties with
              values := { parties.values with buttonValues := cycle.1.buttonValues }
              poll := .publishing cycle.1 (List.finRange 16) listeners }
          else none
      | _ => none
  | .publish =>
      match parties.poll with
      | .publishing newValues (counter :: rest) listeners =>
          some { parties.publish newValues counter with
            poll := .publishing newValues rest listeners }
      | .publishing _ [] listeners => some { parties with poll := .invoking listeners }
      | _ => none
  | .invoke =>
      match parties.poll with
      | .invoking (listener :: rest) =>
          if steer listener then
            some { parties with
              poll := .invoking rest
              dispatched := true
              steers := parties.steers + 1 }
          else some { parties with poll := .invoking rest }
      | .invoking [] => some { parties with poll := .waiting }
      | _ => none
  | .steerHandler =>
      if 0 < parties.steers ∧ parties.handler.isNone then
        some { parties with steers := parties.steers - 1, handler := some .testX }
      else none
  | .advance => parties.advance
  | .serveLeft =>
      (parties.driveLeft.serve LinkState.exec).map fun driveLeft =>
        { parties with driveLeft := driveLeft }
  | .serveRight =>
      (parties.driveRight.serve LinkState.exec).map fun driveRight =>
        { parties with driveRight := driveRight }

/-- What has been read and sent since the last handler began is what the axes
call for. -/
structure Current (x y : K) (handler : Option (SteerHandler K))
    (driveLeft driveRight : Processor K) : Prop where
  reads : ∀ running, handler = some running → running.UpToDate x y
  left : (handler = none ∨ ∃ spdR, handler = some (.driveRight spdR)) →
    Leaves driveLeft (leftSpeed x y)
  right : handler = none → Leaves driveRight (rightSpeed x y)

structure Inv (left right : LinkState K) (parties : Parties K L) : Prop where
  left : SpeedsOnly left parties.driveLeft
  right : SpeedsOnly right parties.driveRight
  unmoved : Unmoved steer parties
  steered : parties.dispatched = true → Pending steer parties ∨
    Current parties.x parties.y parties.handler parties.driveLeft parties.driveRight

variable {steer}

theorem step_pollControls {parties next : Parties K L} {table : ListenerMap L}
    {joystick : Joystick K} {listeners : List L}
    (taken : step steer parties (.pollControls table joystick listeners) = some next) :
    ∃ newValues, parties.poll = .waiting ∧
      (∀ listener, listener ∈ listeners ↔ listener ∈ (cycle table parties.values newValues).2) ∧
      next = { parties with
        values := { parties.values with buttonValues := newValues.buttonValues }
        poll := .publishing newValues (List.finRange 16) listeners } := by
  simp only [step, cycle_values] at taken
  split at taken
  · rename_i waiting
    split at taken
    · rename_i complete
      refine ⟨ListenerManager.pollControls joystick, waiting, ?_, (Option.some.inj taken).symm⟩
      intro listener
      rw [← complete.2, List.mem_toFinset]
    · cases taken
  · cases taken

theorem Inv.pollControls {left right : LinkState K} {parties next : Parties K L}
    {table : ListenerMap L} {joystick : Joystick K} {listeners : List L}
    (inv : Inv steer left right parties) (registered : Registered steer table)
    (taken : step steer parties (.pollControls table joystick listeners) = some next) :
    Inv steer left right next := by
  obtain ⟨newValues, waiting, complete, rfl⟩ := step_pollControls taken
  refine ⟨inv.left, inv.right, ?_, ?_⟩
  · intro published rest order publishing silent
    cases publishing
    have cycle_silent : ∀ listener ∈ (cycle table parties.values newValues).2,
        steer listener = false :=
      fun listener member => silent listener ((complete listener).mpr member)
    exact unmoved_cycle registered parties.values newValues cycle_silent
  · intro dispatched
    have called : ∀ listener ∈ parties.poll.listeners, steer listener = true →
        listener ∈ listeners := by
      intro listener member
      rw [waiting] at member
      cases member
    rcases inv.steered dispatched with pending | current
    · exact .inl (pending.mono (Nat.le_refl _) called)
    · exact .inr current

theorem Inv.publish {left right : LinkState K} {parties next : Parties K L}
    (inv : Inv steer left right parties) (taken : step steer parties .publish = some next) :
    Inv steer left right next := by
  simp only [step] at taken
  split at taken
  · rename_i newValues counter rest listeners publishing
    cases taken
    have kept : (∀ listener ∈ listeners, steer listener = false) →
        (parties.publish newValues counter).x = parties.x ∧
        (parties.publish newValues counter).y = parties.y := by
      intro silent
      have unmoved := inv.unmoved newValues (counter :: rest) listeners publishing silent
      exact ⟨publish_axis parties newValues counter 11 unmoved.1,
        publish_axis parties newValues counter 14 unmoved.2⟩
    refine ⟨inv.left, inv.right, ?_, ?_⟩
    · intro newValues' rest' listeners' same silent
      cases same
      have unmoved := inv.unmoved newValues (counter :: rest) listeners publishing silent
      exact ⟨unmoved.1.trans (kept silent).1.symm, unmoved.2.trans (kept silent).2.symm⟩
    · intro dispatched
      by_cases pending : Pending steer parties
      · left
        refine pending.mono (Nat.le_refl parties.steers) ?_
        intro listener member _
        rw [publishing] at member
        exact member
      · right
        have silent := (silent_of_not_pending pending).2
        rw [publishing] at silent
        have current := (inv.steered dispatched).resolve_left pending
        rw [← (kept silent).1, ← (kept silent).2] at current
        exact current
  · rename_i newValues listeners publishing
    cases taken
    refine ⟨inv.left, inv.right, ?_, ?_⟩
    · intro newValues' rest' listeners' same
      cases same
    · intro dispatched
      have called : ∀ listener ∈ parties.poll.listeners, steer listener = true →
          listener ∈ listeners := by
        intro listener member _
        rw [publishing] at member
        exact member
      rcases inv.steered dispatched with pending | current
      · exact .inl (pending.mono (Nat.le_refl _) called)
      · exact .inr current
  · cases taken

theorem Inv.invoke {left right : LinkState K} {parties next : Parties K L}
    (inv : Inv steer left right parties) (taken : step steer parties .invoke = some next) :
    Inv steer left right next := by
  simp only [step] at taken
  split at taken
  · rename_i listener rest invoking
    split at taken
    · cases taken
      refine ⟨inv.left, inv.right, ?_, ?_⟩
      · intro newValues rest' listeners same
        cases same
      · intro _
        exact .inl (.inl (Nat.succ_pos _))
    · rename_i other
      cases taken
      refine ⟨inv.left, inv.right, ?_, ?_⟩
      · intro newValues rest' listeners same
        cases same
      · intro dispatched
        have called : ∀ listener ∈ parties.poll.listeners, steer listener = true →
            listener ∈ rest := by
          intro called member steers
          rw [invoking] at member
          rcases List.mem_cons.mp member with here | later
          · exact absurd (here ▸ steers) other
          · exact later
        rcases inv.steered dispatched with pending | current
        · exact .inl (pending.mono (Nat.le_refl _) called)
        · exact .inr current
  · rename_i invoking
    cases taken
    refine ⟨inv.left, inv.right, ?_, ?_⟩
    · intro newValues rest' listeners same
      cases same
    · intro dispatched
      have called : ∀ listener ∈ parties.poll.listeners, steer listener = true →
          listener ∈ (Poll.waiting : Poll K L).listeners := by
        intro listener member _
        rw [invoking] at member
        exact member
      rcases inv.steered dispatched with pending | current
      · exact .inl (pending.mono (Nat.le_refl _) called)
      · exact .inr current
  · cases taken

theorem current_begun (x y : K) (driveLeft driveRight : Processor K) :
    Current x y (some .testX) driveLeft driveRight := by
  refine ⟨?_, ?_, ?_⟩
  · intro running same
    cases same
    trivial
  · intro ended
    rcases ended with ended | ⟨spdR, ended⟩ <;> cases ended
  · intro ended
    cases ended

theorem Current.read {values : ControlValues K} {handler next : SteerHandler K}
    {driveLeft driveRight : Processor K}
    (current : Current (values.axisAt 11) (values.axisAt 14) (some handler)
      driveLeft driveRight) (taken : handler.read values = some next) :
    Current (values.axisAt 11) (values.axisAt 14) (some next)
      driveLeft driveRight := by
  refine ⟨?_, ?_, ?_⟩
  · intro running same
    cases same
    exact upToDate_read (current.reads handler rfl) taken
  · intro ended
    rcases ended with ended | ⟨spdR, ended⟩
    · cases ended
    · cases ended
      exact absurd taken read_ne_driveRight
  · intro ended
    cases ended

theorem Current.driveLeft {x y spdL spdR : K} {driveLeft driveRight sent : Processor K}
    (current : Current x y (some (.driveLeft spdL spdR)) driveLeft driveRight)
    (leaves : Leaves sent spdL) : Current x y (some (.driveRight spdR)) sent driveRight := by
  have speeds : spdL = leftSpeed x y ∧ spdR = rightSpeed x y := current.reads _ rfl
  refine ⟨?_, ?_, ?_⟩
  · intro running same
    cases same
    exact speeds.2
  · intro _
    rw [← speeds.1]
    exact leaves
  · intro ended
    cases ended

theorem Current.driveRight {x y spdR : K} {driveLeft driveRight sent : Processor K}
    (current : Current x y (some (.driveRight spdR)) driveLeft driveRight)
    (leaves : Leaves sent spdR) : Current x y none driveLeft sent := by
  have speed : spdR = rightSpeed x y := current.reads _ rfl
  refine ⟨?_, ?_, ?_⟩
  · intro running same
    cases same
  · intro _
    exact current.left (.inr ⟨spdR, rfl⟩)
  · intro _
    rw [← speed]
    exact leaves

theorem Inv.steerHandler {left right : LinkState K} {parties next : Parties K L}
    (inv : Inv steer left right parties) (taken : step steer parties .steerHandler = some next) :
    Inv steer left right next := by
  simp only [step] at taken
  split at taken
  · cases taken
    refine ⟨inv.left, inv.right, inv.unmoved, ?_⟩
    intro _
    exact .inr (current_begun _ _ _ _)
  · cases taken

theorem Inv.advance {left right : LinkState K} {parties next : Parties K L}
    (inv : Inv steer left right parties) (taken : step steer parties .advance = some next) :
    Inv steer left right next := by
  change parties.advance = some next at taken
  have steered := inv.steered
  unfold Parties.advance at taken
  split at taken
  · cases taken
  · rename_i spdL spdR sending
    obtain ⟨driveLeft, called, rfl⟩ := Option.map_eq_some_iff.mp taken
    have sent := inv.left.setSpeed called
    rw [sending] at steered
    refine ⟨sent.1, inv.right, inv.unmoved, ?_⟩
    intro dispatched
    exact (steered dispatched).imp id fun current => current.driveLeft sent.2
  · rename_i spdR sending
    obtain ⟨driveRight, called, rfl⟩ := Option.map_eq_some_iff.mp taken
    have sent := inv.right.setSpeed called
    rw [sending] at steered
    refine ⟨inv.left, sent.1, inv.unmoved, ?_⟩
    intro dispatched
    exact (steered dispatched).imp id fun current => current.driveRight sent.2
  · rename_i handler notLeft notRight running
    obtain ⟨later, read, rfl⟩ := Option.map_eq_some_iff.mp taken
    rw [running] at steered
    refine ⟨inv.left, inv.right, inv.unmoved, ?_⟩
    intro dispatched
    exact (steered dispatched).imp id fun current => current.read read

theorem Inv.serveLeft {left right : LinkState K} {parties next : Parties K L}
    (inv : Inv steer left right parties) (taken : step steer parties .serveLeft = some next) :
    Inv steer left right next := by
  obtain ⟨driveLeft, served, rfl⟩ := Option.map_eq_some_iff.mp taken
  refine ⟨inv.left.serve served, inv.right, inv.unmoved, ?_⟩
  intro dispatched
  refine (inv.steered dispatched).imp id ?_
  intro current
  exact ⟨current.reads, fun ended => (current.left ended).serve inv.left served, current.right⟩

theorem Inv.serveRight {left right : LinkState K} {parties next : Parties K L}
    (inv : Inv steer left right parties) (taken : step steer parties .serveRight = some next) :
    Inv steer left right next := by
  obtain ⟨driveRight, served, rfl⟩ := Option.map_eq_some_iff.mp taken
  refine ⟨inv.left, inv.right.serve served, inv.unmoved, ?_⟩
  intro dispatched
  refine (inv.steered dispatched).imp id ?_
  intro current
  exact ⟨current.reads, current.left, fun ended => (current.right ended).serve inv.right served⟩

theorem Inv.step {left right : LinkState K} {parties next : Parties K L} {action : Action K L}
    (inv : Inv steer left right parties) (keeps : KeepsSteering steer action)
    (taken : step steer parties action = some next) : Inv steer left right next := by
  cases action with
  | pollControls table joystick listeners => exact inv.pollControls keeps taken
  | publish => exact inv.publish taken
  | invoke => exact inv.invoke taken
  | steerHandler => exact inv.steerHandler taken
  | advance => exact inv.advance taken
  | serveLeft => exact inv.serveLeft taken
  | serveRight => exact inv.serveRight taken

/-- The polling thread is between two cycles, no steer waits or runs, and both
motors have done all that was asked of them. -/
structure Quiet (parties : Parties K L) : Prop where
  poll : parties.poll = .waiting
  steers : parties.steers = 0
  handler : parties.handler = none
  driveLeft : parties.driveLeft.queue = []
  driveRight : parties.driveRight.queue = []

instance (parties : Parties K L) : Decidable (Quiet parties) :=
  decidable_of_iff (parties.poll = .waiting ∧ parties.steers = 0 ∧ parties.handler.isNone ∧
      parties.driveLeft.queue.isEmpty ∧ parties.driveRight.queue.isEmpty) (by
    simp only [Option.isNone_iff_eq_none, List.isEmpty_iff]
    exact ⟨fun ⟨poll, steers, handler, left, right⟩ => ⟨poll, steers, handler, left, right⟩,
      fun quiet => ⟨quiet.poll, quiet.steers, quiet.handler, quiet.driveLeft, quiet.driveRight⟩⟩)

def initial (left right : LinkState K) : Parties K L where
  values := initialValues
  poll := .waiting
  dispatched := false
  steers := 0
  handler := none
  driveLeft := ⟨left, []⟩
  driveRight := ⟨right, []⟩

/-- What a link makes of a speed. -/
def written (link : MotorLink K) (pow : K) : K :=
  pow * link.speedScalar * (if link.motorReversed then -1 else 1)

/-- Whenever everything has come to rest after a steer, both Talons were last
written what the published axes call for: x - y and x + y, where y is the negated
value of the axis, and values up to a fifth count as zero. -/
theorem steering_not_lost (left right : LinkState K)
    (leftReleased : left.link.spdControlEnabled = false)
    (rightReleased : right.link.spdControlEnabled = false)
    (actions : List (Action K L)) (last : Parties K L)
    (keeps : ∀ action ∈ actions, KeepsSteering steer action)
    (taken : run (step steer) (initial left right) actions = some last)
    (dispatched : last.dispatched = true) (quiet : Quiet last) :
    last.driveLeft.state.link.talon =
        some (written left.link (deadband last.x - -deadband last.y)) ∧
      last.driveRight.state.link.talon =
        some (written right.link (deadband last.x + -deadband last.y)) := by
  have start : Inv steer left right (initial left right) := by
    refine ⟨SpeedsOnly.initial leftReleased, SpeedsOnly.initial rightReleased, ?_, ?_⟩
    · intro newValues rest listeners publishing
      cases publishing
    · intro impossible
      cases impossible
  have along : Along (step steer) (fun _ => KeepsSteering steer) (initial left right) actions :=
    Along.of_forall (fun action member _ => keeps action member) _
  have inv : Inv steer left right last :=
    run_invariant_along (Inv steer left right)
      (fun _ _ _ before permitted first => before.step permitted first) start along taken
  have done : ¬Pending steer last := by
    rintro (waiting | ⟨listener, member, _⟩)
    · have none := quiet.steers
      omega
    · rw [quiet.poll] at member
      cases member
  have current := (inv.steered dispatched).resolve_left done
  exact ⟨(current.left (.inl quiet.handler)).drained inv.left quiet.driveLeft,
    (current.right quiet.handler).drained inv.right quiet.driveRight⟩

/-- The stick is pushed to the right, and everybody then does his part. -/
def pushed : List (Action ℚ Nat) :=
  [.pollControls {(.joy1X, 0), (.joy1Y, 1)}
      ⟨fun _ => false, fun axis => if axis = 1 then 1 / 2 else 0⟩ [0]] ++
    List.replicate 17 .publish ++ [.invoke, .invoke, .steerHandler] ++
    List.replicate 5 .advance ++ [.serveLeft, .serveRight]

def reversedLink : LinkState ℚ :=
  { freshLink linearAngleTarget with link := ⟨none, some 0, some 0, false, true, 1 / 2⟩ }

theorem steering_not_lost_pushed :
    ∃ last, run (step fun listener => listener < 2)
        (initial (freshLink linearAngleTarget) reversedLink) pushed = some last ∧
      last.driveLeft.state.link.talon =
        some (written (freshLink linearAngleTarget).link (deadband last.x - -deadband last.y)) ∧
      last.driveRight.state.link.talon =
        some (written reversedLink.link (deadband last.x + -deadband last.y)) := by
  have rests : ∃ last ∈ run (step fun listener => listener < 2)
      (initial (freshLink linearAngleTarget) reversedLink) pushed,
      last.dispatched = true ∧ Quiet last := by decide +kernel
  have keeps : ∀ action ∈ pushed, KeepsSteering (fun listener => listener < 2) action := by
    decide +kernel
  obtain ⟨last, taken, dispatched, quiet⟩ := rests
  exact ⟨last, taken, steering_not_lost _ _ rfl rfl pushed last keeps taken dispatched quiet⟩

end FrcRobot.ArcadeDrive
