import FrcRobot.DeferredQueue

set_option autoImplicit false

namespace FrcRobot

open DeferredQueue

/-- How the call of a functor ends. Of what it throws only the types named by
the catch clauses are kept. -/
inductive Outcome where
  | returns
  | throws (isThreadInterrupted isStdException : Bool)
  deriving DecidableEq

structure Cmd (ι : Type*) where
  functor : ι
  outcome : Outcome
  deriving DecidableEq

/-- A thread whose body an exception leaves terminates the program. -/
inductive Thread where
  | running
  | returned
  | terminated
  deriving DecidableEq

structure Worker (ι : Type*) where
  thread : Thread
  executed : List (Cmd ι)
  deriving DecidableEq

structure CmdProcessor (ι : Type*) where
  server : Server (Worker ι) (Cmd ι)
  interrupted : Bool

namespace CmdProcessor

variable {ι : Type*}

inductive Call (ι : Type*) where
  | enqueue (cmd : Cmd ι)
  | enqueueLambda (function : Cmd ι)
  | enqueueFront (cmd : Cmd ι)

def Call.cmd : Call ι → Cmd ι
  | .enqueue cmd | .enqueueLambda cmd | .enqueueFront cmd => cmd

def call (processor : CmdProcessor ι) : Call ι → CmdProcessor ι
  | .enqueue cmd | .enqueueLambda cmd =>
      { processor with server := processor.server.enqueue cmd }
  | .enqueueFront cmd => { processor with server := processor.server.enqueueFront cmd }

def shutDown (processor : CmdProcessor ι) : CmdProcessor ι := { processor with interrupted := true }

/-- The catch clauses in their order. -/
def threadAfter : Outcome → Thread
  | .returns => .running
  | .throws isThreadInterrupted isStdException =>
      if isThreadInterrupted then .returned
      else if isStdException then .running
      else .terminated

/-- The body of the loop once Dequeue has returned a command. -/
def execute (worker : Worker ι) (cmd : Cmd ι) : Option (Worker ι) :=
  if worker.thread = .running then some ⟨threadAfter cmd.outcome, worker.executed ++ [cmd]⟩
  else none

inductive Action (ι : Type*) where
  | call (call : Call ι)
  | process
  | shutDown
  | interrupt

/-- Dequeue blocks while nothing waits, and after ShutDown it may throw instead
of returning a command. -/
def step (processor : CmdProcessor ι) (action : Action ι) : Option (CmdProcessor ι) :=
  if processor.server.state.thread = .terminated then none
  else match action with
    | .call call => some (processor.call call)
    | .process =>
        (processor.server.serve execute).map fun server => { processor with server := server }
    | .shutDown => some processor.shutDown
    | .interrupt =>
        if processor.server.state.thread = .running ∧ processor.interrupted then
          some { processor with
            server := { processor.server with
              state := { processor.server.state with thread := .returned } } }
        else none

def initial : CmdProcessor ι := ⟨⟨⟨.running, []⟩, []⟩, false⟩

/-- The exceptions that the loop survives. -/
def Contained : Outcome → Prop
  | .returns => True
  | .throws isThreadInterrupted isStdException =>
      isThreadInterrupted = false ∧ isStdException = true

theorem threadAfter_running_iff (outcome : Outcome) :
    threadAfter outcome = .running ↔ Contained outcome := by
  cases outcome with
  | returns => simp [threadAfter, Contained]
  | throws isThreadInterrupted isStdException =>
      cases isThreadInterrupted <;> cases isStdException <;> simp [threadAfter, Contained]

theorem execute_iff (worker next : Worker ι) (cmd : Cmd ι) :
    execute worker cmd = some next ↔ worker.thread = .running ∧
      next = ⟨threadAfter cmd.outcome, worker.executed ++ [cmd]⟩ := by
  unfold execute
  split
  · rename_i running
    simp only [running, true_and, Option.some.injEq, eq_comm]
  · rename_i ended
    simp [ended]

theorem step_call {processor : CmdProcessor ι} (running : processor.server.state.thread = .running)
    (call : Call ι) : step processor (.call call) = some (processor.call call) := by
  simp [step, running]

theorem step_process_iff (processor next : CmdProcessor ι) :
    step processor .process = some next ↔ ∃ cmd rest,
      processor.server.state.thread = .running ∧ processor.server.queue = cmd :: rest ∧
      next = { processor with
        server := ⟨⟨threadAfter cmd.outcome, processor.server.state.executed ++ [cmd]⟩, rest⟩ } := by
  constructor
  · intro taken
    have alive : processor.server.state.thread ≠ .terminated := by
      intro dead
      simp [step, dead] at taken
    simp only [step, alive, ↓reduceIte] at taken
    obtain ⟨server, served, rfl⟩ := Option.map_eq_some_iff.mp taken
    obtain ⟨cmd, head, executed⟩ := (serve_iff execute _ _).mp served
    have ran := (execute_iff _ _ _).mp executed
    refine ⟨cmd, server.queue, ran.1, head, ?_⟩
    rw [← ran.2]
  · intro taken
    obtain ⟨cmd, rest, running, head, rfl⟩ := taken
    have alive : processor.server.state.thread ≠ .terminated := by simp [running]
    have executed := (execute_iff processor.server.state _ cmd).mpr ⟨running, rfl⟩
    have served := (serve_iff execute processor.server ⟨_, rest⟩).mpr ⟨cmd, head, executed⟩
    simp only [step, alive, ↓reduceIte, served, Option.map_some]

end CmdProcessor

end FrcRobot
