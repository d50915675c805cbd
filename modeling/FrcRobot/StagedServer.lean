import FrcRobot.DeferredQueue

set_option autoImplicit false

/- A server of a first-in first-out queue that executes a request in several
stages, so that others can change the state between them. -/
namespace StagedServer

open DeferredQueue

/-- The state, the next stage of the request that is being executed, if any, and
the requests that wait. -/
structure Worker (σ ρ τ : Type*) where
  state : σ
  executing : Option τ
  queue : List ρ

variable {σ ρ τ : Type*}

def Worker.enqueue (worker : Worker σ ρ τ) (request : ρ) : Worker σ ρ τ :=
  { worker with queue := worker.queue ++ [request] }

/-- Nothing waits and nothing is being executed. -/
structure Worker.Drained (worker : Worker σ ρ τ) : Prop where
  executing : worker.executing = none
  queue : worker.queue = []

instance (worker : Worker σ ρ τ) : Decidable worker.Drained :=
  decidable_of_iff (worker.executing.isNone ∧ worker.queue.isEmpty) (by
    simp only [Option.isNone_iff_eq_none, List.isEmpty_iff]
    exact ⟨fun ⟨executing, queue⟩ => ⟨executing, queue⟩,
      fun drained => ⟨drained.executing, drained.queue⟩⟩)

variable (begin : ρ → τ) (perform : σ → τ → Option (σ × Option τ))

/-- The next stage of the request under way, or else the beginning of the oldest
one that waits. -/
def Worker.serve (worker : Worker σ ρ τ) : Option (Worker σ ρ τ) :=
  match worker.executing, worker.queue with
  | some stage, _ => (perform worker.state stage).map fun (state, rest) =>
      { worker with state := state, executing := rest }
  | none, request :: rest =>
      some { worker with executing := some (begin request), queue := rest }
  | none, [] => none

theorem serve_cases {worker next : Worker σ ρ τ} (served : worker.serve begin perform = some next) :
    (∃ stage state rest, worker.executing = some stage ∧
      perform worker.state stage = some (state, rest) ∧
      next = { worker with state := state, executing := rest }) ∨
    ∃ request rest, worker.executing = none ∧ worker.queue = request :: rest ∧
      next = { worker with executing := some (begin request), queue := rest } := by
  cases executing : worker.executing with
  | some stage =>
      simp only [Worker.serve, executing] at served
      obtain ⟨⟨state, rest⟩, performed, rfl⟩ := Option.map_eq_some_iff.mp served
      exact .inl ⟨stage, state, rest, rfl, performed, rfl⟩
  | none =>
      cases queue : worker.queue with
      | nil => simp [Worker.serve, executing, queue] at served
      | cons request rest =>
          simp only [Worker.serve, executing, queue, Option.some.injEq] at served
          exact .inr ⟨request, rest, rfl, rfl, served.symm⟩

theorem serve_stage {worker : Worker σ ρ τ} {stage : τ}
    (executing : worker.executing = some stage) :
    worker.serve begin perform = (perform worker.state stage).map fun (state, rest) =>
      { worker with state := state, executing := rest } := by
  simp only [Worker.serve, executing]

theorem serve_begin {worker : Worker σ ρ τ} {request : ρ} {rest : List ρ}
    (idle : worker.executing = none) (queue : worker.queue = request :: rest) :
    worker.serve begin perform =
      some { worker with executing := some (begin request), queue := rest } := by
  simp only [Worker.serve, idle, queue]

/-- Left alone, the server works off everything and leaves this state. -/
inductive Drains : Worker σ ρ τ → σ → Prop where
  | done {worker : Worker σ ρ τ} (drained : worker.Drained) : Drains worker worker.state
  | serve {worker next : Worker σ ρ τ} {final : σ}
      (served : worker.serve begin perform = some next) (later : Drains next final) :
      Drains worker final

variable {begin perform}

theorem not_drained_of_serve {worker next : Worker σ ρ τ}
    (served : worker.serve begin perform = some next) : ¬worker.Drained := by
  intro drained
  rw [Worker.serve, drained.executing, drained.queue] at served
  cases served

namespace Drains

variable {worker : Worker σ ρ τ} {final : σ}

theorem state_eq (drains : Drains begin perform worker final) (drained : worker.Drained) :
    final = worker.state := by
  cases drains with
  | done _ => rfl
  | serve served _ => exact absurd drained (not_drained_of_serve served)

theorem stage {state after : σ} {stage : τ} {rest : Option τ} {queue : List ρ}
    (performed : perform state stage = some (after, rest))
    (later : Drains begin perform ⟨after, rest, queue⟩ final) :
    Drains begin perform ⟨state, some stage, queue⟩ final :=
  .serve (congrArg (Option.map _) performed) later

/-- Serving only brings the state that is left nearer. -/
theorem of_serve {next : Worker σ ρ τ} (drains : Drains begin perform worker final)
    (served : worker.serve begin perform = some next) : Drains begin perform next final := by
  cases drains with
  | done drained => exact absurd drained (not_drained_of_serve served)
  | serve first later =>
      rw [served] at first
      cases first
      exact later

theorem enqueue {request : ρ} {after : σ} (drains : Drains begin perform worker final)
    (executed : Drains begin perform ⟨final, some (begin request), []⟩ after) :
    Drains begin perform (worker.enqueue request) after := by
  induction drains with
  | @done worker drained =>
      obtain ⟨idle, empty⟩ := drained
      have queue : (worker.enqueue request).queue = [request] := by
        rw [Worker.enqueue, empty]
        rfl
      exact .serve (serve_begin begin perform idle queue) executed
  | @serve worker next final served _ ih =>
      refine .serve ?_ (ih executed)
      rcases serve_cases begin perform served with
        ⟨stage, state, rest, executing, performed, rfl⟩ | ⟨other, rest, idle, queue, rfl⟩
      · have same : (worker.enqueue request).executing = some stage := executing
        rw [serve_stage _ _ same]
        exact congrArg (Option.map _) performed
      · have same : (worker.enqueue request).executing = none := idle
        refine serve_begin _ _ same ?_
        rw [Worker.enqueue, queue]
        rfl

/-- What every step of the server keeps still holds in the end. -/
theorem invariant (Inv : Worker σ ρ τ → Prop)
    (keeps : ∀ worker next, Inv worker → worker.serve begin perform = some next → Inv next)
    (drains : Drains begin perform worker final) (initially : Inv worker) :
    Inv ⟨final, none, []⟩ := by
  induction drains with
  | @done worker drained =>
      obtain ⟨state, executing, queue⟩ := worker
      obtain ⟨idle, empty⟩ := drained
      cases idle
      cases empty
      exact initially
  | serve served _ ih => exact ih (keeps _ _ initially served)

/-- A server that can follow each step of another one, or has already taken it,
works off everything if that one does. -/
theorem followed (related : Worker σ ρ τ → Worker σ ρ τ → Prop) (agrees : σ → σ → Prop)
    (matched : ∀ worker next twin, related worker twin →
      worker.serve begin perform = some next →
      ∃ after, (after = twin ∨ twin.serve begin perform = some after) ∧ related next after)
    (ended : ∀ worker twin : Worker σ ρ τ, related worker twin → worker.Drained →
      twin.Drained ∧ agrees worker.state twin.state)
    (drains : Drains begin perform worker final) {twin : Worker σ ρ τ}
    (initially : related worker twin) :
    ∃ other, Drains begin perform twin other ∧ agrees final other := by
  induction drains generalizing twin with
  | @done worker drained =>
      obtain ⟨twinDrained, agree⟩ := ended worker twin initially drained
      exact ⟨twin.state, .done twinDrained, agree⟩
  | serve served _ ih =>
      obtain ⟨after, moved, onward⟩ := matched _ _ twin initially served
      obtain ⟨other, rest, agree⟩ := ih onward
      rcases moved with rfl | taken
      · exact ⟨other, rest, agree⟩
      · exact ⟨other, .serve taken rest, agree⟩

end Drains

end StagedServer
