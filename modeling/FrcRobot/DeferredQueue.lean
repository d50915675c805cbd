import Mathlib.Logic.Basic

set_option autoImplicit false

/- A server that works off a first-in first-out queue of requests, later than
the clients put them there. What the queue will have done once it is empty is
known at every moment. -/
namespace DeferredQueue

/-- The state the requests act on, and the requests still waiting. -/
@[ext] structure Server (σ ρ : Type*) where
  state : σ
  queue : List ρ

variable {σ ρ : Type*}

def Server.enqueue (server : Server σ ρ) (request : ρ) : Server σ ρ :=
  { server with queue := server.queue ++ [request] }

@[simp] theorem enqueue_state (server : Server σ ρ) (request : ρ) :
    (server.enqueue request).state = server.state := rfl

@[simp] theorem enqueue_queue (server : Server σ ρ) (request : ρ) :
    (server.enqueue request).queue = server.queue ++ [request] := rfl

/-- Puts a request ahead of everything that waits. -/
def Server.enqueueFront (server : Server σ ρ) (request : ρ) : Server σ ρ :=
  { server with queue := request :: server.queue }

variable (exec : σ → ρ → Option σ)

/-- Executes the oldest request; not enabled while the queue is empty. -/
def Server.serve (server : Server σ ρ) : Option (Server σ ρ) :=
  match server.queue with
  | [] => none
  | request :: rest => (exec server.state request).map fun state => ⟨state, rest⟩

theorem serve_iff (server next : Server σ ρ) :
    server.serve exec = some next ↔ ∃ request, server.queue = request :: next.queue ∧
      exec server.state request = some next.state := by
  obtain ⟨state, queue⟩ := server
  obtain ⟨after, rest⟩ := next
  cases queue with
  | nil => simp [Server.serve]
  | cons request waiting =>
      simp only [Server.serve, Option.map_eq_some_iff, Server.mk.injEq, List.cons.injEq]
      constructor
      · rintro ⟨_, executed, rfl, rfl⟩
        exact ⟨request, ⟨rfl, rfl⟩, executed⟩
      · rintro ⟨_, ⟨rfl, rfl⟩, executed⟩
        exact ⟨after, executed, rfl, rfl⟩

/-- Executes a list of requests one after the other. -/
def execAll (state : σ) (requests : List ρ) : Option σ := requests.foldlM exec state

@[simp] theorem execAll_nil (state : σ) : execAll exec state [] = some state := rfl

@[simp] theorem execAll_cons (state : σ) (request : ρ) (rest : List ρ) :
    execAll exec state (request :: rest) =
      (exec state request).bind fun next => execAll exec next rest := rfl

theorem execAll_append (state : σ) (first second : List ρ) :
    execAll exec state (first ++ second) =
      (execAll exec state first).bind fun middle => execAll exec middle second := by
  simp only [execAll, List.foldlM_append]
  rfl

/-- The state that is left when everything waiting has been executed. -/
def Server.settled (server : Server σ ρ) : Option σ := execAll exec server.state server.queue

theorem settled_enqueue (server : Server σ ρ) (request : ρ) :
    (server.enqueue request).settled exec =
      (server.settled exec).bind fun state => exec state request := by
  simp [Server.settled, execAll_append]

/-- Serving moves nothing: it only brings the settled state nearer. -/
theorem settled_serve {server next : Server σ ρ} (served : server.serve exec = some next) :
    next.settled exec = server.settled exec := by
  obtain ⟨request, head, executed⟩ := (serve_iff exec server next).mp served
  simp [Server.settled, head, executed]

theorem settled_of_drained {server : Server σ ρ} (drained : server.queue = []) :
    server.settled exec = some server.state := by
  simp [Server.settled, drained]

/-- The requests that have been executed, for a server that only keeps account. -/
def record (done : List ρ) (request : ρ) : Option (List ρ) := some (done ++ [request])

theorem serve_record (server next : Server (List ρ) ρ) :
    server.serve record = some next ↔
      ∃ request, server.queue = request :: next.queue ∧ server.state ++ [request] = next.state := by
  simp only [serve_iff, record, Option.some.injEq]

end DeferredQueue
