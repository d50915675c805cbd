import FrcRobot.Interleaving
import FrcRobot.ListenerManagerDispatch

set_option autoImplicit false

/- A polling cycle against the threads that register and remove listeners. The
cycle collects, publishes and then invokes what it has collected, in any order. -/
namespace FrcRobot.ListenerRemoval

open Interleaving ListenerManager

variable {K L : Type*}

inductive Poll (K L : Type*) where
  | waiting
  | collected (newValues : ControlValues K) (listenersToInvoke : Finset L)
  | invoking (listenersToInvoke : Finset L)

/-- The listeners that the cycle under way still has to invoke. -/
def Poll.pending : Poll K L → Finset L
  | .waiting => ∅
  | .collected _ listenersToInvoke | .invoking listenersToInvoke => listenersToInvoke

structure Parties (K L : Type*) where
  listeners : ListenerMap L
  values : ControlValues K
  poll : Poll K L

inductive Action (K L : Type*) where
  | addListener (key : Listenable) (listener : L)
  | removeAllListeners
  | removeAllListenersForControl (control : Listenable)
  | collect (joystick : Joystick K)
  | publish
  | invoke (listener : L)
  | wait

variable [DecidableEq L]

/-- The invocations of a listener in a part of a run. -/
def invocations (listener : L) : List (Action K L) → Nat
  | [] => 0
  | .invoke other :: rest => (if other = listener then 1 else 0) + invocations listener rest
  | _ :: rest => invocations listener rest

theorem invocations_cons (listener : L) (action : Action K L) (rest : List (Action K L)) :
    invocations listener (action :: rest) =
      invocations listener [action] + invocations listener rest := by
  cases action <;> simp [invocations]

/-- No call registers the listener again. -/
def NeverAdded (listener : L) : Action K L → Prop
  | .addListener _ other => other ≠ listener
  | _ => True

def IsRemoval : Action K L → Prop
  | .removeAllListeners | .removeAllListenersForControl _ => True
  | _ => False

def Registered (listeners : ListenerMap L) (listener : L) : Prop :=
  ∃ entry ∈ listeners, entry.2 = listener

variable [DecidableEq K]

/-- What a cycle collects is registered when it collects. -/
theorem registered_of_mem_cycle {listeners : ListenerMap L} {old new : ControlValues K}
    {listener : L} (member : listener ∈ (cycle listeners old new).2) :
    Registered listeners listener := by
  rcases (mem_cycle listeners old new listener).mp member with
    ⟨_, _, _, ⟨entry, here, _, same⟩ | ⟨entry, here, _, same⟩⟩ | ⟨_, _, _, entry, here, _, same⟩
  all_goals exact ⟨entry, here, same⟩

variable [Zero K]

def step (parties : Parties K L) : Action K L → Option (Parties K L)
  | .addListener key listener =>
      some { parties with listeners := addListener parties.listeners key listener }
  | .removeAllListeners =>
      some { parties with listeners := removeAllListeners parties.listeners }
  | .removeAllListenersForControl control =>
      some { parties with listeners := removeAllListenersForControl parties.listeners control }
  | .collect joystick =>
      match parties.poll with
      | .waiting =>
          let cycle := cycle parties.listeners parties.values (pollControls joystick)
          some { parties with poll := .collected cycle.1 cycle.2 }
      | _ => none
  | .publish =>
      match parties.poll with
      | .collected newValues listenersToInvoke =>
          some { parties with values := newValues, poll := .invoking listenersToInvoke }
      | _ => none
  | .invoke listener =>
      match parties.poll with
      | .invoking listenersToInvoke =>
          if listener ∈ listenersToInvoke then
            some { parties with poll := .invoking (listenersToInvoke.erase listener) }
          else none
      | _ => none
  | .wait =>
      match parties.poll with
      | .invoking listenersToInvoke =>
          if listenersToInvoke = ∅ then some { parties with poll := .waiting } else none
      | _ => none

/-- Once a removal has taken the last registration of a listener, the listener
is not invoked before it is registered again. -/
def RemovedNotInvoked (start : Parties K L) (before : List (Action K L)) (removal : Action K L)
    (after : List (Action K L)) (listener : L) : Prop :=
  ∀ parties removed last, run step start before = some parties → IsRemoval removal →
    step parties removal = some removed → Registered parties.listeners listener →
    ¬Registered removed.listeners listener → run step removed after = some last →
    (∀ action ∈ after, NeverAdded listener action) → invocations listener after = 0

/-- A listener that is not registered and not added stays so, and an invocation
takes it from what is pending. -/
theorem step_unregistered {parties next : Parties K L} {action : Action K L} {listener : L}
    (gone : ¬Registered parties.listeners listener) (never : NeverAdded listener action)
    (taken : step parties action = some next) :
    ¬Registered next.listeners listener ∧
      invocations listener [action] + (if listener ∈ next.poll.pending then 1 else 0) =
        if listener ∈ parties.poll.pending then 1 else 0 := by
  cases action with
  | addListener key other =>
      cases taken
      refine ⟨?_, by simp [invocations]⟩
      rintro ⟨entry, member, same⟩
      rcases Multiset.mem_cons.mp member with rfl | old
      · exact never same
      · exact gone ⟨entry, old, same⟩
  | removeAllListeners =>
      cases taken
      refine ⟨?_, by simp [invocations]⟩
      rintro ⟨entry, member, _⟩
      exact absurd member (Multiset.notMem_zero entry)
  | removeAllListenersForControl control =>
      cases taken
      refine ⟨?_, by simp [invocations]⟩
      rintro ⟨entry, member, same⟩
      exact gone ⟨entry, (Multiset.mem_filter.mp member).1, same⟩
  | collect joystick =>
      simp only [step] at taken
      split at taken
      · rename_i idle
        cases taken
        refine ⟨gone, ?_⟩
        have fresh : listener ∉
            (cycle parties.listeners parties.values (pollControls joystick)).2 :=
          fun member => gone (registered_of_mem_cycle member)
        simp [invocations, Poll.pending, idle, fresh]
      · cases taken
  | publish =>
      simp only [step] at taken
      split at taken
      · rename_i newValues listenersToInvoke collected
        cases taken
        refine ⟨gone, ?_⟩
        rw [collected]
        exact Nat.zero_add _
      · cases taken
  | invoke other =>
      simp only [step] at taken
      split at taken
      · rename_i listenersToInvoke invoking
        split at taken
        · rename_i waits
          cases taken
          refine ⟨gone, ?_⟩
          by_cases same : other = listener
          · subst same
            simp [invocations, Poll.pending, invoking, waits]
          · simp [invocations, Poll.pending, invoking, same, Ne.symm same]
        · cases taken
      · cases taken
  | wait =>
      simp only [step] at taken
      split at taken
      · rename_i listenersToInvoke invoking
        split at taken
        · rename_i done
          cases taken
          exact ⟨gone, by simp [invocations, Poll.pending, invoking, done]⟩
        · cases taken
      · cases taken

theorem run_unregistered {parties last : Parties K L} {actions : List (Action K L)} {listener : L}
    (gone : ¬Registered parties.listeners listener)
    (never : ∀ action ∈ actions, NeverAdded listener action)
    (taken : run step parties actions = some last) :
    invocations listener actions + (if listener ∈ last.poll.pending then 1 else 0) =
      if listener ∈ parties.poll.pending then 1 else 0 := by
  induction actions generalizing parties with
  | nil =>
      cases taken
      simp [invocations]
  | cons action rest ih =>
      obtain ⟨next, first, later⟩ := Option.bind_eq_some_iff.mp taken
      have here := never action (List.mem_cons_self ..)
      have others : ∀ other ∈ rest, NeverAdded listener other :=
        fun other member => never other (List.mem_cons_of_mem _ member)
      obtain ⟨still, moved⟩ := step_unregistered gone here first
      rw [invocations_cons, add_assoc, ih still others later, moved]

theorem step_removal {parties removed : Parties K L} {removal : Action K L}
    (removes : IsRemoval removal) (taken : step parties removal = some removed) :
    removed.poll = parties.poll := by
  cases removal with
  | removeAllListeners | removeAllListenersForControl =>
      cases taken
      rfl
  | addListener | collect | publish | invoke | wait => cases removes

/-- A removed listener is left to the cycle that the removal interrupts: if it
waits there it is invoked once, as that cycle goes on, and otherwise never. -/
theorem removed_left_to_cycle {parties removed last : Parties K L} {removal : Action K L}
    {after : List (Action K L)} {listener : L} (removes : IsRemoval removal)
    (taken : step parties removal = some removed)
    (gone : ¬Registered removed.listeners listener)
    (continued : run step removed after = some last)
    (never : ∀ action ∈ after, NeverAdded listener action) :
    (listener ∉ parties.poll.pending → invocations listener after = 0) ∧
      (listener ∈ parties.poll.pending →
        invocations listener after = if listener ∈ last.poll.pending then 0 else 1) := by
  have left := run_unregistered gone never continued
  rw [step_removal removes taken] at left
  constructor
  · intro absent
    rw [if_neg absent] at left
    omega
  · intro waits
    rw [if_pos waits] at left
    split
    · rename_i still
      rw [if_pos still] at left
      omega
    · rename_i done
      rw [if_neg done] at left
      omega

/-- The last listener of a cycle waits to be invoked. -/
def lastOfCycle : Parties ℚ Nat := ⟨{(.aDown, 7)}, initialValues, .invoking {7}⟩

theorem removed_left_to_cycle_last :
    invocations (K := ℚ) 7 [.invoke 7, .wait] =
      if 7 ∈ (Poll.waiting : Poll ℚ Nat).pending then 0 else 1 := by
  have taken : step lastOfCycle .removeAllListeners = some ⟨0, initialValues, .invoking {7}⟩ := rfl
  have continued : run step (⟨0, initialValues, .invoking {7}⟩ : Parties ℚ Nat)
      [.invoke 7, .wait] = some ⟨0, initialValues, .waiting⟩ := rfl
  have gone : ¬Registered (0 : ListenerMap Nat) 7 := by simp [Registered]
  have never : ∀ action ∈ [Action.invoke 7, .wait], NeverAdded (K := ℚ) 7 action := by
    simp [NeverAdded]
  exact (removed_left_to_cycle (by trivial) taken gone continued never).2 (by decide)

/-- Nothing registered, nothing pressed. -/
def initial : Parties ℚ Nat := ⟨0, initialValues, .waiting⟩

def pressA : Joystick ℚ := ⟨fun button => button == 1, fun _ => 0⟩

/-- The removal comes between the collection and the invocation of a listener of A. -/
theorem not_removedNotInvoked_collected :
    ¬RemovedNotInvoked initial [.addListener .aDown 7, .collect pressA] .removeAllListeners
      [.publish, .invoke 7] 7 := by
  intro never
  have ran : (run step initial [.addListener .aDown 7, .collect pressA, .removeAllListeners,
      .publish, .invoke 7]).isSome := by decide +kernel
  obtain ⟨last, ran⟩ := Option.isSome_iff_exists.mp ran
  have none := never _ _ last rfl trivial rfl ⟨(.aDown, 7), by simp [addListener], rfl⟩
    (by simp [Registered, removeAllListeners]) ran (by simp [NeverAdded])
  cases none

end FrcRobot.ListenerRemoval
