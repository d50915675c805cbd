import FrcRobot.CmdProcessor
import FrcRobot.Interleaving

set_option autoImplicit false

namespace FrcRobot.CmdProcessor

open DeferredQueue Interleaving

variable {ι : Type*}

/-- A queue whose commands are executed whatever becomes of them. -/
def isolatedStep (ideal : Server (List (Cmd ι)) (Cmd ι)) :
    Action ι → Option (Server (List (Cmd ι)) (Cmd ι))
  | .call (.enqueue cmd) | .call (.enqueueLambda cmd) => some (ideal.enqueue cmd)
  | .call (.enqueueFront cmd) => some (ideal.enqueueFront cmd)
  | .process => ideal.serve record
  | .shutDown | .interrupt => some ideal

/-- What was executed and what waits. -/
def served (processor : CmdProcessor ι) : Server (List (Cmd ι)) (Cmd ι) :=
  ⟨processor.server.state.executed, processor.server.queue⟩

def callOf : Action ι → Option (Call ι)
  | .call call => some call
  | _ => none

def callsOf (actions : List (Action ι)) : List (Call ι) := actions.filterMap callOf

theorem callsOf_cons (action : Action ι) (rest : List (Action ι)) :
    callsOf (action :: rest) = (callOf action).toList ++ callsOf rest := by
  cases action <;> rfl

structure Isolated (actions : List (Action ι)) (last : CmdProcessor ι) : Prop where
  /-- Commands are executed in the order of the queue. -/
  ordered : run isolatedStep ⟨[], []⟩ actions = some last.served
  /-- None of them is lost or executed twice. -/
  once : (last.server.state.executed ++ last.server.queue).Perm ((callsOf actions).map Call.cmd)
  stops : last.server.state.thread ≠ .running →
    last.server.state.thread = .returned ∧ last.interrupted = true
  /-- Unless ShutDown has been called the loop goes on to execute what waits. -/
  completes : last.interrupted = false → ∃ finish,
    run step last (List.replicate last.server.queue.length .process) = some finish ∧
      finish.server.state.thread = .running ∧
      finish.served = ⟨last.server.state.executed ++ last.server.queue, []⟩

/-- Whenever the worker runs, whatever is queued by the calls given. -/
def Isolates (calls : List (Call ι)) : Prop :=
  ∀ actions last, callsOf actions = calls → run step initial actions = some last →
    Isolated actions last

theorem step_shutDown {processor next : CmdProcessor ι}
    (taken : step processor .shutDown = some next) : next = processor.shutDown := by
  unfold step at taken
  split at taken
  · cases taken
  · exact (Option.some.inj taken).symm

theorem step_call_inv {processor next : CmdProcessor ι} {call : Call ι}
    (taken : step processor (.call call) = some next) : next = processor.call call := by
  unfold step at taken
  split at taken
  · cases taken
  · exact (Option.some.inj taken).symm

theorem step_interrupt {processor next : CmdProcessor ι}
    (taken : step processor .interrupt = some next) : processor.interrupted = true ∧
      next = { processor with
        server := ⟨⟨.returned, processor.server.state.executed⟩, processor.server.queue⟩ } := by
  unfold step at taken
  split at taken
  · cases taken
  · simp only at taken
    split at taken
    · rename_i due
      exact ⟨due.2, (Option.some.inj taken).symm⟩
    · cases taken

/-- Failures never change which command comes next. -/
theorem isolatedStep_served (processor : CmdProcessor ι) (action : Action ι)
    (next : CmdProcessor ι) (taken : step processor action = some next) :
    isolatedStep processor.served action = some next.served := by
  cases action with
  | call call =>
      rw [step_call_inv taken]
      cases call <;> rfl
  | process =>
      obtain ⟨cmd, rest, _, head, rfl⟩ := (step_process_iff _ _).mp taken
      exact (serve_record _ _).mpr ⟨cmd, head, rfl⟩
  | shutDown =>
      rw [step_shutDown taken]
      rfl
  | interrupt =>
      rw [(step_interrupt taken).2]
      rfl

theorem isolatedStep_perm {ideal next : Server (List (Cmd ι)) (Cmd ι)} {action : Action ι}
    (taken : isolatedStep ideal action = some next) :
    (next.state ++ next.queue).Perm
      (ideal.state ++ ideal.queue ++ (callOf action).toList.map Call.cmd) := by
  cases action with
  | call call =>
      cases call with
      | enqueue cmd | enqueueLambda cmd =>
          cases taken
          simp [callOf, Call.cmd]
      | enqueueFront cmd =>
          cases taken
          show (ideal.state ++ cmd :: ideal.queue).Perm (ideal.state ++ ideal.queue ++ [cmd])
          rw [List.append_assoc]
          exact (List.perm_append_singleton cmd ideal.queue).symm.append_left ideal.state
  | process =>
      obtain ⟨cmd, head, executed⟩ := (serve_record _ _).mp taken
      simp [callOf, head, ← executed]
  | shutDown | interrupt =>
      cases taken
      simp [callOf]

theorem run_isolatedStep_perm {ideal last : Server (List (Cmd ι)) (Cmd ι)}
    {actions : List (Action ι)} (taken : run isolatedStep ideal actions = some last) :
    (last.state ++ last.queue).Perm
      (ideal.state ++ ideal.queue ++ (callsOf actions).map Call.cmd) := by
  induction actions generalizing ideal with
  | nil =>
      cases taken
      simp [callsOf]
  | cons action rest ih =>
      obtain ⟨next, first, later⟩ := Option.bind_eq_some_iff.mp taken
      rw [callsOf_cons, List.map_append, ← List.append_assoc]
      exact (ih later).trans ((isolatedStep_perm first).append_right _)

/-- What is left waiting can be handled, and only a shutdown ends the loop. -/
structure Inv (processor : CmdProcessor ι) : Prop where
  contained : ∀ cmd ∈ processor.server.queue, Contained cmd.outcome
  stops : processor.server.state.thread ≠ .running →
    processor.server.state.thread = .returned ∧ processor.interrupted = true

def CallContained (action : Action ι) : Prop :=
  ∀ call, callOf action = some call → Contained call.cmd.outcome

theorem Inv.call {processor : CmdProcessor ι} (inv : Inv processor) {call : Call ι}
    (contained : Contained call.cmd.outcome) : Inv (processor.call call) := by
  cases call with
  | enqueue cmd | enqueueLambda cmd =>
      refine ⟨?_, inv.stops⟩
      intro other member
      rcases List.mem_append.mp member with old | new
      · exact inv.contained other old
      · rw [List.mem_singleton.mp new]
        exact contained
  | enqueueFront cmd =>
      refine ⟨?_, inv.stops⟩
      intro other member
      rcases List.mem_cons.mp member with new | old
      · rw [new]
        exact contained
      · exact inv.contained other old

theorem Inv.step {processor next : CmdProcessor ι} {action : Action ι} (inv : Inv processor)
    (contained : CallContained action) (taken : step processor action = some next) : Inv next := by
  cases action with
  | call call =>
      rw [step_call_inv taken]
      exact inv.call (contained call rfl)
  | process =>
      obtain ⟨cmd, rest, running, head, rfl⟩ := (step_process_iff _ _).mp taken
      have first : Contained cmd.outcome := inv.contained cmd (by simp [head])
      constructor
      · intro other member
        exact inv.contained other (by simp [head, show other ∈ rest from member])
      · intro ended
        exact absurd ((threadAfter_running_iff _).mpr first) ended
  | shutDown =>
      rw [step_shutDown taken]
      exact ⟨inv.contained, fun ended => ⟨(inv.stops ended).1, rfl⟩⟩
  | interrupt =>
      obtain ⟨interrupted, rfl⟩ := step_interrupt taken
      exact ⟨inv.contained, fun _ => ⟨rfl, interrupted⟩⟩

theorem drains {queue : List (Cmd ι)} {processor : CmdProcessor ι}
    (running : processor.server.state.thread = .running) (waiting : processor.server.queue = queue)
    (contained : ∀ cmd ∈ queue, Contained cmd.outcome) :
    run step processor (List.replicate queue.length .process) =
      some { processor with
        server := ⟨⟨.running, processor.server.state.executed ++ queue⟩, []⟩ } := by
  induction queue generalizing processor with
  | nil =>
      obtain ⟨⟨⟨thread, executed⟩, rest⟩, interrupted⟩ := processor
      cases running
      cases waiting
      simp
  | cons cmd rest ih =>
      have first := (step_process_iff processor _).mpr ⟨cmd, rest, running, waiting, rfl⟩
      have survives : threadAfter cmd.outcome = .running :=
        (threadAfter_running_iff _).mpr (contained cmd (List.mem_cons_self ..))
      have tail : ∀ other ∈ rest, Contained other.outcome :=
        fun other member => contained other (List.mem_cons_of_mem _ member)
      rw [List.length_cons, List.replicate_succ, run_cons, first, Option.bind_some,
        ih survives rfl tail]
      simp

/-- A loop that has ended does not run again. -/
theorem ended_step (processor : CmdProcessor ι) (action : Action ι) (next : CmdProcessor ι)
    (ended : processor.server.state.thread ≠ .running)
    (taken : step processor action = some next) : next.server.state.thread ≠ .running := by
  cases action with
  | call call =>
      rw [step_call_inv taken]
      cases call <;> exact ended
  | process =>
      obtain ⟨cmd, rest, running, _⟩ := (step_process_iff _ _).mp taken
      exact absurd running ended
  | shutDown =>
      rw [step_shutDown taken]
      exact ended
  | interrupt =>
      rw [(step_interrupt taken).2]
      exact fun impossible => Thread.noConfusion impossible

theorem running_of_run {processor last : CmdProcessor ι} {actions : List (Action ι)}
    (taken : run step processor actions = some last)
    (running : last.server.state.thread = .running) : processor.server.state.thread = .running := by
  by_cases alive : processor.server.state.thread = .running
  · exact alive
  · have ended : last.server.state.thread ≠ .running :=
      run_invariant (fun state => state.server.state.thread ≠ .running) ended_step alive taken
    exact absurd running ended

theorem contained_of_drained {queue : List (Cmd ι)} {processor last : CmdProcessor ι}
    (waiting : processor.server.queue = queue)
    (taken : run step processor (List.replicate queue.length .process) = some last)
    (running : last.server.state.thread = .running) : ∀ cmd ∈ queue, Contained cmd.outcome := by
  induction queue generalizing processor with
  | nil => exact fun cmd member => absurd member List.not_mem_nil
  | cons cmd rest ih =>
      obtain ⟨next, first, later⟩ := Option.bind_eq_some_iff.mp taken
      have survives := running_of_run later running
      obtain ⟨head, tail, _, same, rfl⟩ := (step_process_iff _ _).mp first
      rw [waiting, List.cons.injEq] at same
      obtain ⟨rfl, rfl⟩ := same
      intro other member
      rcases List.mem_cons.mp member with here | there
      · rw [here]
        exact (threadAfter_running_iff _).mp survives
      · exact ih rfl later other there

theorem run_calls {calls : List (Call ι)} {processor : CmdProcessor ι}
    (running : processor.server.state.thread = .running)
    (before : processor.interrupted = false) :
    ∃ last, run step processor (calls.map .call) = some last ∧
      last.interrupted = false ∧
      last.server.state.executed = processor.server.state.executed := by
  induction calls generalizing processor with
  | nil => exact ⟨processor, rfl, before, rfl⟩
  | cons call rest ih =>
      have kept : (processor.call call).server.state = processor.server.state ∧
          (processor.call call).interrupted = processor.interrupted := by
        cases call <;> exact ⟨rfl, rfl⟩
      obtain ⟨last, later, closed, executed⟩ :=
        ih (kept.1 ▸ running) (kept.2.trans before)
      refine ⟨last, ?_, closed, executed.trans (by rw [kept.1])⟩
      rw [List.map_cons, run_cons, step_call running, Option.bind_some, later]

theorem callsOf_calls (calls : List (Call ι)) : callsOf (calls.map Action.call) = calls := by
  induction calls with
  | nil => rfl
  | cons call rest ih => exact congrArg (call :: ·) ih

theorem Inv.running {processor : CmdProcessor ι} (inv : Inv processor)
    (before : processor.interrupted = false) : processor.server.state.thread = .running := by
  by_cases running : processor.server.state.thread = .running
  · exact running
  · have interrupted := (inv.stops running).2
    rw [before] at interrupted
    cases interrupted

/-- The loop isolates the commands of its clients exactly if each of them
returns or throws what the second catch clause catches. -/
theorem isolates_iff_contained (calls : List (Call ι)) :
    Isolates calls ↔ ∀ call ∈ calls, Contained call.cmd.outcome := by
  constructor
  · intro isolates call member
    -- Everything is queued first, and then executed.
    have queued : ∃ last, run step initial (calls.map .call) = some last ∧
        last.interrupted = false ∧ last.server.state.executed = [] := run_calls rfl rfl
    obtain ⟨last, taken, before, fresh⟩ := queued
    have isolated := isolates _ last (callsOf_calls calls) taken
    obtain ⟨finish, drained, running, _⟩ := isolated.completes before
    have waiting : call.cmd ∈ last.server.queue := by
      have queued : call.cmd ∈ last.server.state.executed ++ last.server.queue := by
        apply isolated.once.mem_iff.mpr
        rw [callsOf_calls]
        exact List.mem_map_of_mem member
      rw [fresh] at queued
      exact queued
    exact contained_of_drained rfl drained running call.cmd waiting
  · intro contained actions last same taken
    have permitted : ∀ action ∈ actions, CallContained action := by
      intro action member call is
      apply contained call
      rw [← same]
      exact List.mem_filterMap.mpr ⟨action, member, is⟩
    have along : Along step (fun _ => CallContained) initial actions :=
      Along.of_forall (fun action member _ => permitted action member) initial
    have inv : Inv last :=
      run_invariant_along Inv (fun _ _ _ before permit first => before.step permit first)
        ⟨fun cmd member => absurd member List.not_mem_nil, fun ended => absurd rfl ended⟩
        along taken
    have ordered : run isolatedStep ⟨[], []⟩ actions = some last.served :=
      run_simulates isolatedStep_served taken
    refine ⟨ordered, run_isolatedStep_perm ordered, inv.stops, ?_⟩
    intro before
    exact ⟨_, drains (inv.running before) rfl inv.contained, rfl, rfl⟩

/-- A command that throws what only the queue was expected to throw, and one
that would return. -/
def interruptingCalls : List (Call Nat) :=
  [.enqueue ⟨0, .throws true true⟩, .enqueue ⟨1, .returns⟩]

theorem not_isolates_interruptingCalls : ¬Isolates interruptingCalls := by
  intro isolates
  have isolated := isolates (interruptingCalls.map .call ++ [.process]) _ rfl rfl
  have interrupted := (isolated.stops (by decide)).2
  cases interrupted

end FrcRobot.CmdProcessor
