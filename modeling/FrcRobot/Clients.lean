import FrcRobot.DeferredQueue
import FrcRobot.Interleaving
import Mathlib.Algebra.BigOperators.Group.Finset.Piecewise
import Mathlib.Logic.Function.Basic

set_option autoImplicit false

/- Any number of clients that each put the requests of a program of their own on
one queue, while its server works it off. -/
namespace Clients

open DeferredQueue Interleaving

variable {ι σ ρ : Type*} [DecidableEq ι]

/-- What each client has still to ask for, and the server. -/
structure Parties (ι σ ρ : Type*) where
  programs : ι → List ρ
  server : Server σ ρ

inductive Action (ι : Type*) where
  | call (client : ι)
  | serve

section Step

variable (exec : σ → ρ → Option σ)

def step (parties : Parties ι σ ρ) : Action ι → Option (Parties ι σ ρ)
  | .call client =>
      match parties.programs client with
      | [] => none
      | request :: rest =>
          some ⟨Function.update parties.programs client rest, parties.server.enqueue request⟩
  | .serve => (parties.server.serve exec).map fun server => { parties with server := server }

end Step

/-- All programs have been run, and all that they have asked for is done. -/
def Finished (parties : Parties ι σ ρ) : Prop :=
  (∀ client, parties.programs client = []) ∧ parties.server.queue = []

/-- One of the lists that the programs can be merged into. -/
inductive Merges : (ι → List ρ) → List ρ → Prop where
  | done {programs : ι → List ρ} (empty : ∀ client, programs client = []) : Merges programs []
  | next {programs : ι → List ρ} (client : ι) {request : ρ} {rest merged : List ρ}
      (first : programs client = request :: rest)
      (later : Merges (Function.update programs client rest) merged) :
      Merges programs (request :: merged)

variable {exec : σ → ρ → Option σ}

/-- What is asked for is done, in an order in which the clients have asked. -/
theorem run_merges {parties last : Parties ι σ ρ} {actions : List (Action ι)}
    (taken : run (step exec) parties actions = some last) (finished : Finished last) :
    ∃ merged, Merges parties.programs merged ∧
      execAll exec parties.server.state (parties.server.queue ++ merged) =
        some last.server.state := by
  induction actions generalizing parties with
  | nil =>
      cases taken
      exact ⟨[], .done finished.1, by rw [finished.2]; rfl⟩
  | cons action rest ih =>
      obtain ⟨middle, first, later⟩ := Option.bind_eq_some_iff.mp taken
      obtain ⟨merged, merges, executed⟩ := ih later
      cases action with
      | call client =>
          simp only [step] at first
          split at first
          · cases first
          · rename_i request others program
            cases first
            refine ⟨request :: merged, .next client program merges, ?_⟩
            rw [enqueue_state, enqueue_queue, List.append_assoc] at executed
            exact executed
      | serve =>
          obtain ⟨server, served, rfl⟩ := Option.map_eq_some_iff.mp first
          obtain ⟨request, head, done⟩ := (serve_iff exec _ _).mp served
          refine ⟨merged, merges, ?_⟩
          rw [head, List.cons_append, execAll_cons, done]
          exact executed

/-- Every order in which the programs can be merged comes about. -/
theorem merges_run {programs : ι → List ρ} {merged : List ρ} (merges : Merges programs merged)
    {state finish : σ} (executed : execAll exec state merged = some finish) :
    ∃ actions last, run (step exec) ⟨programs, ⟨state, []⟩⟩ actions = some last ∧ Finished last ∧
      last.server.state = finish := by
  induction merges generalizing state with
  | done empty =>
      cases executed
      exact ⟨[], _, rfl, ⟨empty, rfl⟩, rfl⟩
  | @next programs client request rest merged first later ih =>
      obtain ⟨next, done, others⟩ := Option.bind_eq_some_iff.mp executed
      obtain ⟨actions, last, taken, finished, same⟩ := ih others
      refine ⟨.call client :: .serve :: actions, last, ?_, finished, same⟩
      have called : step exec ⟨programs, ⟨state, []⟩⟩ (.call client) =
          some ⟨Function.update programs client rest, ⟨state, [request]⟩⟩ := by
        simp only [step, first]
        rfl
      rw [run_cons, called, Option.bind_some, run_cons]
      simp only [step, Server.serve, done, Option.map_some, Option.bind_some]
      exact taken

variable (exec) in
/-- The outcomes are those of the merged programs. -/
theorem outcomes_iff (programs : ι → List ρ) (state finish : σ) :
    (∃ actions last, run (step exec) ⟨programs, ⟨state, []⟩⟩ actions = some last ∧ Finished last ∧
      last.server.state = finish) ↔
      ∃ merged, Merges programs merged ∧ execAll exec state merged = some finish := by
  constructor
  · rintro ⟨actions, last, taken, finished, rfl⟩
    exact run_merges taken finished
  · rintro ⟨merged, merges, executed⟩
    exact merges_run merges executed

section Count

variable [Fintype ι]

/-- A merged list has each program's requests as often as the program. -/
theorem Merges.countP {programs : ι → List ρ} {merged : List ρ} (merges : Merges programs merged)
    (counts : ρ → Bool) : merged.countP counts = ∑ client, (programs client).countP counts := by
  induction merges with
  | done empty => simp [empty]
  | @next programs client request rest merged first later ih =>
      have rest_count : ∀ other, (programs other).countP counts =
          (Function.update programs client rest other).countP counts +
            if other = client then (counts request).toNat else 0 := by
        intro other
        by_cases same : other = client
        · subst same
          rw [first, Function.update_self, if_pos rfl, List.countP_cons]
          cases counts request <;> rfl
        · rw [Function.update_of_ne same, if_neg same, Nat.add_zero]
      rw [List.countP_cons, ih]
      simp only [rest_count, Finset.sum_add_distrib, Finset.sum_ite_eq', Finset.mem_univ, if_true]
      cases counts request <;> rfl

end Count

end Clients
