import FrcRobot.CmdProcessor
import FrcRobot.Interleaving
import FrcRobot.ListenerManagerDispatch

set_option autoImplicit false

/- The polling loop with what its listeners do: they read the controls, and they
may throw. -/
namespace FrcRobot.ListenerInvocation

open Interleaving ListenerManager

variable {K L : Type*}

/-- What a listener throws. The message of a RoboException is attached to it, and
may be missing. -/
inductive Thrown where
  | roboException (errMsg : Option String)
  | other
  deriving DecidableEq

/-- getRawBool as its callers see it. -/
def rawBool (values : ControlValues K) (listenable : Listenable) : Except Thrown Bool :=
  match getRawBool values listenable with
  | some value => .ok value
  | none => .error (.roboException (some ("Attempt to get boolean value of control listenable " ++
      toString listenable.value ++ " which is not a boolean")))

def rawDouble (values : ControlValues K) (listenable : Listenable) : Except Thrown K :=
  match getRawDouble values listenable with
  | some value => .ok value
  | none => .error (.roboException (some ("Attempt to get double value of control listenable " ++
      toString listenable.value ++ " which is not a double")))

/-- What the call of a listener does, as far as the loop can see it. How it goes on
after a read may depend on the value, or on what the read throws. -/
inductive Body (K : Type*) where
  | returns
  | throws (thrown : Thrown)
  | getRawBool (listenable : Listenable) (rest : Except Thrown Bool → Body K)
  | getRawDouble (listenable : Listenable) (rest : Except Thrown K → Body K)

inductive Event (K L : Type*) where
  | invoked (listener : L)
  | gotRawBool (listenable : Listenable) (answer : Except Thrown Bool)
  | gotRawDouble (listenable : Listenable) (answer : Except Thrown K)
  | logRecoverable (message : String)

/-- The reads of a call, and what leaves it. -/
def Body.call (values : ControlValues K) : Body K → List (Event K L) × Option Thrown
  | .returns => ([], none)
  | .throws thrown => ([], some thrown)
  | .getRawBool listenable rest =>
      let answer := rawBool values listenable
      let (events, thrown) := (rest answer).call values
      (.gotRawBool listenable answer :: events, thrown)
  | .getRawDouble listenable rest =>
      let answer := rawDouble values listenable
      let (events, thrown) := (rest answer).call values
      (.gotRawDouble listenable answer :: events, thrown)

/-- The message of each catch clause. The first one follows the pointer to the
message of the exception. -/
def caught : Thrown → Option String
  | .roboException (some errMsg) =>
      some ("Caught a RoboException from a control listener: \n" ++ errMsg)
  | .roboException none => none
  | .other => some "Caught... something from a control listener"

def logged : Option Thrown → Option (List (Event K L))
  | none => some []
  | some thrown => (caught thrown).map fun message => [.logRecoverable message]

/-- The loop over the collected listeners, or nothing if it follows a null
pointer. -/
def invokeEach (body : L → Body K) (values : ControlValues K) : List L → Option (List (Event K L))
  | [] => some []
  | listener :: rest =>
      let (events, thrown) := (body listener).call values
      (logged thrown).bind fun messages => (invokeEach body values rest).map fun later =>
        .invoked listener :: (events ++ messages ++ later)

/-- `events` is no part of the program: what the last cycle did. -/
structure Loop (K L : Type*) where
  values : ControlValues K
  thread : Thread
  events : List (Event K L)

/-- One turn of the loop: the table it finds, what it polls, what the listeners do
this time, the order in which it visits the collected ones, and whether the wait
after it is interrupted. -/
structure Iteration (K L : Type*) where
  listeners : ListenerMap L
  joystick : Joystick K
  body : L → Body K
  order : List L
  interrupted : Bool

section Step

variable [Zero K] [DecidableEq K] [DecidableEq L]

def initial : Loop K L := ⟨initialValues, .running, []⟩

/-- The order is one of the set's own elements, each visited once. -/
def Visits (loop : Loop K L) (iteration : Iteration K L) : Prop :=
  (iteration.order : Multiset L) =
    (cycle iteration.listeners loop.values (pollControls iteration.joystick)).2.val

instance (loop : Loop K L) (iteration : Iteration K L) : Decidable (Visits loop iteration) :=
  inferInstanceAs (Decidable (_ = _))

def step (loop : Loop K L) (iteration : Iteration K L) : Option (Loop K L) :=
  if loop.thread = .running ∧ Visits loop iteration then
    let published := (cycle iteration.listeners loop.values (pollControls iteration.joystick)).1
    match invokeEach iteration.body published iteration.order with
    | some events =>
        some ⟨published, if iteration.interrupted then .returned else .running, events⟩
    | none => some ⟨published, .terminated, []⟩
  else none

end Step

/-- The keys that the loop has no second rule for. -/
def DownOrAxis (listenable : Listenable) : Prop := listenable.value ≤ Listenable.joy2Y.value

instance (listenable : Listenable) : Decidable (DownOrAxis listenable) :=
  inferInstanceAs (Decidable (_ ≤ _))

/-- A DOWN key of the listener has gone from released to pressed, or an axis key
of it has changed. -/
def Called (listeners : ListenerMap L) (old new : ControlValues K) (listener : L) : Prop :=
  (∃ counter ∈ buttonCounters, Pressed old new counter ∧ Under listeners counter listener) ∨
  ∃ counter ∈ axisCounters, Moved old new counter ∧ Under listeners counter listener

def isInvoked [DecidableEq L] (listener : L) : Event K L → Bool
  | .invoked other => other = listener
  | _ => false

/-- The answers are the values of the snapshot. -/
def Fresh (values : ControlValues K) : Event K L → Prop
  | .gotRawBool listenable answer => ∀ counter ∈ buttonCounters,
      listenable.value = counter ∨ listenable.value = counter + 20 →
        answer = .ok (values.buttonAt counter)
  | .gotRawDouble listenable answer => ∀ counter ∈ axisCounters,
      listenable.value = counter → answer = .ok (values.axisAt counter)
  | .invoked _ | .logRecoverable _ => True

/-- A call with these reads, each of them fresh, that ends in this way. -/
inductive Follows (values : ControlValues K) :
    Body K → List (Event K L) → Option Thrown → Prop where
  | returns : Follows values .returns [] none
  | throws (thrown : Thrown) : Follows values (.throws thrown) [] (some thrown)
  | getRawBool {listenable : Listenable} {answer : Except Thrown Bool}
      {rest : Except Thrown Bool → Body K} {reads : List (Event K L)} {thrown : Option Thrown}
      (fresh : Fresh values (.gotRawBool listenable answer : Event K L))
      (later : Follows values (rest answer) reads thrown) :
      Follows values (.getRawBool listenable rest) (.gotRawBool listenable answer :: reads) thrown
  | getRawDouble {listenable : Listenable} {answer : Except Thrown K}
      {rest : Except Thrown K → Body K} {reads : List (Event K L)} {thrown : Option Thrown}
      (fresh : Fresh values (.gotRawDouble listenable answer : Event K L))
      (later : Follows values (rest answer) reads thrown) :
      Follows values (.getRawDouble listenable rest) (.gotRawDouble listenable answer :: reads)
        thrown

/-- What is seen of one listener: it is invoked, its body reads what it reads, and
what it throws is logged. -/
inductive Invocation (values : ControlValues K) (body : Body K) (listener : L) :
    List (Event K L) → Prop where
  | returned {reads : List (Event K L)} (follows : Follows values body reads none) :
      Invocation values body listener (.invoked listener :: reads)
  | threw {reads : List (Event K L)} {thrown : Thrown} {message : String}
      (follows : Follows values body reads (some thrown)) (logged : caught thrown = some message) :
      Invocation values body listener (.invoked listener :: (reads ++ [.logRecoverable message]))

theorem getRawBool_button (values : ControlValues K) {listenable : Listenable} {counter : Fin 11}
    (inLoop : counter ∈ buttonCounters)
    (key : listenable.value = counter ∨ listenable.value = counter + 20) :
    getRawBool values listenable = some (values.buttonAt counter) := by
  have range := (mem_buttonCounters_iff counter).mp inLoop
  change (if 1 ≤ listenable.value ∧ listenable.value ≤ 10 then _
    else if 21 ≤ listenable.value ∧ listenable.value ≤ 30 then _ else none) = _
  rcases key with down | up
  · rw [if_pos (by omega)]
    simp only [down, counter.isLt, Vector.getElem?_eq_getElem, ControlValues.buttonAt]
  · rw [if_neg (by omega), if_pos (by omega)]
    simp only [up, Nat.add_sub_cancel, counter.isLt, Vector.getElem?_eq_getElem,
      ControlValues.buttonAt]

theorem getRawDouble_axis (values : ControlValues K) {listenable : Listenable} {counter : Fin 16}
    (inLoop : counter ∈ axisCounters) (key : listenable.value = counter) :
    getRawDouble values listenable = some (values.axisAt counter) := by
  have range := (mem_axisCounters_iff counter).mp inLoop
  change (if 11 ≤ listenable.value ∧ listenable.value ≤ 15 then _ else none) = _
  rw [if_pos (by omega)]
  simp only [key, counter.isLt, Vector.getElem?_eq_getElem, ControlValues.axisAt]

theorem call_follows (values : ControlValues K) (body : Body K) :
    Follows values body (body.call (L := L) values).1 (body.call (L := L) values).2 := by
  induction body with
  | returns => exact .returns
  | throws thrown => exact .throws thrown
  | getRawBool listenable rest ih =>
      refine .getRawBool ?_ (ih _)
      intro counter inLoop key
      rw [rawBool, getRawBool_button values inLoop key]
  | getRawDouble listenable rest ih =>
      refine .getRawDouble ?_ (ih _)
      intro counter inLoop key
      rw [rawDouble, getRawDouble_axis values inLoop key]

/-- Whoever throws a RoboException has attached a message to it. -/
def CarriesMessages (body : L → Body K) (values : ControlValues K) : Prop :=
  ∀ listener, ((body listener).call values (L := L)).2 ≠ some (.roboException none)

section Spec

variable [DecidableEq L] {values : ControlValues K}

/-- A call invokes nobody else, and all its reads are fresh. -/
theorem Follows.spec {body : Body K} {reads : List (Event K L)} {thrown : Option Thrown}
    (follows : Follows values body reads thrown) (listener : L) :
    reads.countP (isInvoked listener) = 0 ∧ ∀ event ∈ reads, Fresh values event := by
  induction follows with
  | returns | throws => exact ⟨rfl, List.forall_mem_nil _⟩
  | getRawBool fresh _ ih | getRawDouble fresh _ ih =>
      exact ⟨by simpa [isInvoked] using ih.1, List.forall_mem_cons.mpr ⟨fresh, ih.2⟩⟩

theorem Invocation.spec {body : Body K} {listener : L} {part : List (Event K L)}
    (invocation : Invocation values body listener part) (other : L) :
    part.countP (isInvoked other) = [listener].count other ∧
      ∀ event ∈ part, Fresh values event := by
  cases invocation with
  | returned follows =>
      obtain ⟨silent, fresh⟩ := follows.spec other
      refine ⟨?_, List.forall_mem_cons.mpr ⟨trivial, fresh⟩⟩
      rw [List.countP_cons, silent]
      simp [isInvoked, List.count_singleton]
  | threw follows _ =>
      obtain ⟨silent, fresh⟩ := follows.spec other
      refine ⟨?_, List.forall_mem_cons.mpr ⟨trivial, List.forall_mem_append.mpr ⟨fresh, ?_⟩⟩⟩
      · rw [List.countP_cons, List.countP_append, silent]
        simp [isInvoked, List.count_singleton]
      · exact List.forall_mem_singleton.mpr trivial

/-- One invocation after the other. -/
theorem invocations_spec {body : L → Body K} {order : List L} {parts : List (List (Event K L))}
    (each : List.Forall₂ (fun listener => Invocation values (body listener) listener) order parts) :
    (∀ listener, parts.flatten.countP (isInvoked listener) = order.count listener) ∧
      ∀ event ∈ parts.flatten, Fresh values event := by
  induction each with
  | nil => exact ⟨fun _ => rfl, List.forall_mem_nil _⟩
  | @cons first part rest parts invocation _ ih =>
      constructor
      · intro listener
        rw [List.flatten_cons, List.countP_append, (invocation.spec listener).1, ih.1,
          ← List.count_append, List.singleton_append]
      · rw [List.flatten_cons]
        exact List.forall_mem_append.mpr ⟨(invocation.spec first).2, ih.2⟩

end Spec

/-- What the loop logs about a listener fits what it has thrown. -/
theorem logged_invocation {body : Body K} (values : ControlValues K) (listener : L)
    (carries : (body.call values (L := L)).2 ≠ some (.roboException none)) :
    ∃ messages, logged (body.call values (L := L)).2 = some messages ∧
      Invocation values body listener
        (.invoked listener :: ((body.call values).1 ++ messages)) := by
  have follows := call_follows (L := L) values body
  generalize body.call values (L := L) = called at carries follows ⊢
  obtain ⟨reads, thrown⟩ := called
  match thrown with
  | none => exact ⟨[], rfl, (List.append_nil reads).symm ▸ .returned follows⟩
  | some .other => exact ⟨_, rfl, .threw follows rfl⟩
  | some (.roboException (some errMsg)) => exact ⟨_, rfl, .threw follows rfl⟩
  | some (.roboException none) => exact absurd rfl carries

/-- Each listener of the list is invoked in its turn, whoever throws. -/
theorem invokeEach_spec {body : L → Body K} {values : ControlValues K}
    (carries : CarriesMessages body values) (order : List L) :
    ∃ parts, invokeEach body values order = some parts.flatten ∧
      List.Forall₂ (fun listener => Invocation values (body listener) listener) order parts := by
  induction order with
  | nil => exact ⟨[], rfl, .nil⟩
  | cons first rest ih =>
      obtain ⟨parts, visited, each⟩ := ih
      obtain ⟨messages, caught, invocation⟩ := logged_invocation values first (carries first)
      refine ⟨_ :: parts, ?_, .cons invocation each⟩
      simp only [invokeEach, caught, visited, Option.bind_some, Option.map_some, List.flatten_cons,
        List.cons_append, List.append_assoc]

theorem collected_iff_called {listeners : ListenerMap L}
    (keys : ∀ entry ∈ listeners, DownOrAxis entry.1) (old new : ControlValues K) (listener : L) :
    Collected listeners old new listener ↔ Called listeners old new listener := by
  constructor
  · rintro (⟨counter, inLoop, pressed, down | ⟨entry, member, up, _⟩⟩ | moved)
    · exact .inl ⟨counter, inLoop, pressed, down⟩
    · have low : entry.1.value ≤ 15 := keys entry member
      omega
    · exact .inr moved
  · rintro (⟨counter, inLoop, pressed, down⟩ | moved)
    · exact .inl ⟨counter, inLoop, pressed, .inl down⟩
    · exact .inr moved

section Cycles

variable [Zero K]

/-- The snapshot that the loop compares the next one with. -/
def baseline : ControlValues K → List (Iteration K L) → ControlValues K
  | values, [] => values
  | _, iteration :: rest => baseline (pollControls iteration.joystick) rest

variable [DecidableEq K] [DecidableEq L]

/-- What a cycle does between the baseline it has found and the next one. -/
structure Dispatches (old : ControlValues K) (iteration : Iteration K L) (next : Loop K L) :
    Prop where
  polled : ∀ counter ∈ buttonCounters,
    (pollControls iteration.joystick).buttonAt counter =
      iteration.joystick.getRawButton counter
  polledAxis : ∀ counter ∈ axisCounters,
    (pollControls iteration.joystick).axisAt counter =
      iteration.joystick.getRawAxis (counter.val - 10)
  once : ∀ listener,
    Called iteration.listeners old (pollControls iteration.joystick) listener →
      next.events.countP (isInvoked listener) = 1
  nobodyElse : ∀ listener,
    ¬Called iteration.listeners old (pollControls iteration.joystick) listener →
      next.events.countP (isInvoked listener) = 0
  fresh : ∀ event ∈ next.events, Fresh (pollControls iteration.joystick) event
  inTurn : ∃ parts, next.events = parts.flatten ∧
    List.Forall₂ (fun listener =>
        Invocation (pollControls iteration.joystick) (iteration.body listener) listener)
      iteration.order parts
  baseline : next.values = pollControls iteration.joystick
  continues : next.thread = if iteration.interrupted then .returned else .running

theorem step_values {loop next : Loop K L} {iteration : Iteration K L}
    (taken : step loop iteration = some next) :
    next.values = pollControls iteration.joystick := by
  obtain ⟨_, visited⟩ := Option.ite_none_right_eq_some.mp taken
  simp only [cycle_values] at visited
  split at visited <;> cases visited <;> rfl

theorem run_values {loop last : Loop K L} {iterations : List (Iteration K L)}
    (ran : run step loop iterations = some last) :
    last.values = baseline loop.values iterations := by
  induction iterations generalizing loop with
  | nil => exact Option.some.inj ran ▸ rfl
  | cons iteration rest ih =>
      obtain ⟨next, first, later⟩ := Option.bind_eq_some_iff.mp ran
      rw [ih later, step_values first]
      rfl

/-- Wherever a run has got to, each cycle invokes exactly the listeners that it
calls, once each, whatever they throw, shows them the snapshot that has called
them and goes on from there. -/
theorem dispatches (iterations : List (Iteration K L)) (loop : Loop K L)
    (ran : run step initial iterations = some loop) (running : loop.thread = .running)
    (iteration : Iteration K L) (keys : ∀ entry ∈ iteration.listeners, DownOrAxis entry.1)
    (carries : CarriesMessages iteration.body (pollControls iteration.joystick))
    (visits : Visits loop iteration) :
    ∃ next, step loop iteration = some next ∧
      Dispatches (baseline initialValues iterations) iteration next := by
  have old : loop.values = baseline initialValues iterations := run_values ran
  obtain ⟨parts, visited, each⟩ := invokeEach_spec carries iteration.order
  obtain ⟨counts, fresh⟩ := invocations_spec each
  refine ⟨⟨pollControls iteration.joystick, if iteration.interrupted then .returned else .running,
    parts.flatten⟩, ?_, ?_⟩
  · simp only [step, running, visits, and_self, ↓reduceIte, cycle_values, visited]
  have called (listener : L) : listener ∈ iteration.order ↔
      Called iteration.listeners (baseline initialValues iterations)
        (pollControls iteration.joystick) listener := by
    rw [← Multiset.mem_coe, visits, Finset.mem_val, mem_cycle, collected_iff_called keys, old]
  have once : iteration.order.Nodup := by
    rw [← Multiset.coe_nodup, visits]
    exact Finset.nodup _
  refine ⟨fun _ => pollControls_button iteration.joystick,
    fun _ => pollControls_axis iteration.joystick, ?_, ?_, fresh, ⟨parts, rfl, each⟩, rfl, rfl⟩
  · intro listener due
    exact (counts listener).trans (List.count_eq_one_of_mem once ((called listener).mpr due))
  · intro listener undue
    rw [counts, List.count_eq_zero]
    exact fun member => undue ((called listener).mp member)

/-- A goes down while the stick moves. Both listeners want to know of A, one of
them of the stick too, and both throw. -/
def pushed : Iteration ℚ Bool where
  listeners := {(.aDown, true), (.joy1X, true), (.aDown, false)}
  joystick := ⟨fun button => button == 1, fun axis => if axis = 1 then 1 / 2 else 0⟩
  body
    | true => .getRawBool .aUp fun _ => .throws .other
    | false => .getRawDouble .joy1X fun _ => .throws (.roboException (some "stuck"))
  order := [false, true]
  interrupted := false

theorem dispatches_pushed :
    ∃ next, step initial pushed = some next ∧ Dispatches initialValues pushed next :=
  dispatches [] initial rfl rfl pushed (by decide) (by rintro (_ | _) <;> nofun)
    (by decide +kernel)

end Cycles

end FrcRobot.ListenerInvocation
