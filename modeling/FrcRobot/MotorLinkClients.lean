import FrcRobot.Clients
import FrcRobot.MotorLinkOutput
import Mathlib.Data.Fintype.Basic

set_option autoImplicit false

/- A MotorLink without a running controller that several threads drive at once. -/
namespace FrcRobot.MotorLinkClients

open Clients (Action Merges outcomes_iff)
open DeferredQueue Interleaving
open MotorLink (Processor)
open MotorLinkOutput (SpeedCall issue_idle)

variable {ι : Type*} [DecidableEq ι] {K : Type} [Field K]

/-- The calls that each thread has still to make, and the link. -/
structure Parties (ι : Type*) (K : Type) where
  programs : ι → List (SpeedCall K)
  processor : Processor K

def step (parties : Parties ι K) : Action ι → Option (Parties ι K)
  | .call thread =>
      match parties.programs thread with
      | [] => none
      | call :: rest => (MotorLink.issue parties.processor call.call).map fun processor =>
          ⟨Function.update parties.programs thread rest, processor⟩
  | .serve => (parties.processor.serve LinkState.exec).map fun processor =>
      { parties with processor := processor }

def Finished (parties : Parties ι K) : Prop :=
  (∀ thread, parties.programs thread = []) ∧ parties.processor.queue = []

/-- A call that takes effect at once. -/
def atOnce (state : LinkState K) : SpeedCall K → LinkState K
  | .reverseMotor =>
      { state with link := { state.link with motorReversed := !state.link.motorReversed } }
  | .setSpeedScalar powScl => { state with link := { state.link with speedScalar := powScl } }
  | .setSpeed pow | .setSpeedForce pow => state.setSpeedImpl pow

theorem exec_request (state : LinkState K) (call : SpeedCall K) :
    state.exec call.request = some (atOnce state call) := by
  cases call <;> rfl

theorem atOnce_idle (state : LinkState K) (call : SpeedCall K) :
    (atOnce state call).link.spdControlEnabled = state.link.spdControlEnabled := by
  cases call <;> rfl

/-- The link against a server that executes the calls themselves. -/
structure Related (parties : Parties ι K) (twin : Clients.Parties ι (LinkState K) (SpeedCall K)) :
    Prop where
  programs : parties.programs = twin.programs
  state : parties.processor.state = twin.server.state
  queue : parties.processor.queue = twin.server.queue.map SpeedCall.request
  idle : parties.processor.state.link.spdControlEnabled = false

theorem step_related {parties : Parties ι K}
    {twin : Clients.Parties ι (LinkState K) (SpeedCall K)} (related : Related parties twin)
    (action : Action ι) :
    Option.Rel Related (step parties action)
      (Clients.step (fun state call => some (atOnce state call)) twin action) := by
  obtain ⟨programs, state, queue, idle⟩ := related
  cases action with
  | call thread =>
      simp only [step, Clients.step, ← programs]
      cases program : parties.programs thread with
      | nil => exact .none
      | cons call rest =>
          simp only [issue_idle idle, Option.map_some]
          refine .some ⟨rfl, state, ?_, idle⟩
          rw [enqueue_queue, enqueue_queue, queue, List.map_append, List.map_singleton]
  | serve =>
      obtain ⟨twinPrograms, twinState, twinQueue⟩ := twin
      obtain ⟨ours, linkState, linkQueue⟩ := parties
      cases twinQueue with
      | nil =>
          cases queue
          exact .none
      | cons call rest =>
          cases queue
          cases state
          simp only [step, Clients.step, Server.serve, exec_request, Option.map_some]
          exact .some ⟨programs, rfl, rfl, (atOnce_idle _ call).trans idle⟩

theorem run_related {parties : Parties ι K} {twin : Clients.Parties ι (LinkState K) (SpeedCall K)}
    (related : Related parties twin) (actions : List (Action ι)) :
    Option.Rel Related (run step parties actions)
      (run (Clients.step fun state call => some (atOnce state call)) twin actions) := by
  refine run_rel ?_ related actions
  exact fun _ _ action same => step_related same action

/-- Calls that come later change nothing of what the earlier ones do. -/
theorem step_extended (more : ι → List (SpeedCall K)) {parties next : Parties ι K}
    {action : Action ι} (taken : step parties action = some next) :
    step ⟨fun thread => parties.programs thread ++ more thread, parties.processor⟩ action =
      some ⟨fun thread => next.programs thread ++ more thread, next.processor⟩ := by
  cases action with
  | call thread =>
      simp only [step] at taken ⊢
      cases program : parties.programs thread with
      | nil =>
          rw [program] at taken
          cases taken
      | cons call rest =>
          rw [program] at taken
          obtain ⟨processor, issued, rfl⟩ := Option.map_eq_some_iff.mp taken
          simp only [List.cons_append, issued, Option.map_some]
          congr 2
          funext other
          by_cases same : other = thread
          · subst same
            rw [Function.update_self, Function.update_self]
          · rw [Function.update_of_ne same, Function.update_of_ne same]
  | serve =>
      obtain ⟨processor, served, rfl⟩ := Option.map_eq_some_iff.mp taken
      simp only [step, served, Option.map_some]

theorem execAll_atOnce (state : LinkState K) (calls : List (SpeedCall K)) :
    execAll (fun state call => some (atOnce state call)) state calls =
      some (calls.foldl atOnce state) := by
  induction calls generalizing state with
  | nil => rfl
  | cons call rest ih => rw [execAll_cons, Option.bind_some, ih, List.foldl_cons]

omit [DecidableEq ι] [Field K] in
theorem related_start {state : LinkState K} (idle : state.link.spdControlEnabled = false)
    (programs : ι → List (SpeedCall K)) :
    Related ⟨programs, ⟨state, []⟩⟩ ⟨programs, (⟨state, []⟩ : Server (LinkState K) (SpeedCall K))⟩ :=
  ⟨rfl, rfl, rfl, idle⟩

/-- A finished run leaves what one merged program leaves when each of its calls takes
effect at once. -/
theorem merged_of_run {state : LinkState K} (idle : state.link.spdControlEnabled = false)
    {programs : ι → List (SpeedCall K)} {actions : List (Action ι)} {last : Parties ι K}
    (taken : run step ⟨programs, ⟨state, []⟩⟩ actions = some last) (finished : Finished last) :
    ∃ merged, Merges programs merged ∧ merged.foldl atOnce state = last.processor.state := by
  obtain ⟨empty, drained⟩ := finished
  have matched := run_related (related_start idle programs) actions
  rw [taken] at matched
  cases found : run (Clients.step fun state call => some (atOnce state call))
      ⟨programs, ⟨state, []⟩⟩ actions with
  | none =>
      rw [found] at matched
      cases matched
  | some twin =>
      rw [found] at matched
      cases matched with
      | some same =>
          have twinFinished : Clients.Finished twin := by
            refine ⟨same.programs ▸ empty, ?_⟩
            exact List.map_eq_nil_iff.mp (same.queue.symm.trans drained)
          obtain ⟨merged, merges, executed⟩ :=
            (outcomes_iff (fun state call => some (atOnce state call)) programs state
              last.processor.state).mp ⟨actions, twin, found, twinFinished, same.state.symm⟩
          rw [execAll_atOnce, Option.some.injEq] at executed
          exact ⟨merged, merges, executed⟩

/-- Every merged program is that of a finished run. -/
theorem run_of_merged {state : LinkState K} (idle : state.link.spdControlEnabled = false)
    {programs : ι → List (SpeedCall K)} {merged : List (SpeedCall K)}
    (merges : Merges programs merged) :
    ∃ actions last, run step ⟨programs, ⟨state, []⟩⟩ actions = some last ∧ Finished last ∧
      last.processor.state = merged.foldl atOnce state := by
  obtain ⟨actions, twin, taken, ⟨empty, drained⟩, left⟩ :=
    (outcomes_iff (fun state call => some (atOnce state call)) programs state
      (merged.foldl atOnce state)).mpr ⟨merged, merges, execAll_atOnce state merged⟩
  have matched := run_related (related_start idle programs) actions
  rw [taken] at matched
  cases found : run step ⟨programs, ⟨state, []⟩⟩ actions with
  | none =>
      rw [found] at matched
      cases matched
  | some last =>
      rw [found] at matched
      cases matched with
      | some same =>
          refine ⟨actions, last, found, ⟨same.programs.symm ▸ empty, ?_⟩, same.state.trans left⟩
          rw [same.queue, drained, List.map_nil]

/-- However their calls are interleaved with each other and with the work of the
queue, the threads leave the link as if each call had taken effect at once, in one
of the orders in which their programs can be merged; and each of these comes about. -/
theorem link_outcomes {state : LinkState K} (idle : state.link.spdControlEnabled = false)
    (programs : ι → List (SpeedCall K)) (finish : LinkState K) :
    (∃ actions last, run step ⟨programs, ⟨state, []⟩⟩ actions = some last ∧ Finished last ∧
      last.processor.state = finish) ↔
      ∃ merged, Merges programs merged ∧ merged.foldl atOnce state = finish := by
  constructor
  · rintro ⟨actions, last, taken, finished, rfl⟩
    exact merged_of_run idle taken finished
  · rintro ⟨merged, merges, rfl⟩
    exact run_of_merged idle merges

/-- Two threads reverse a link that is to run with half its power. -/
def programs : Fin 2 → List (SpeedCall ℚ) := fun thread =>
  if thread = 0 then [.reverseMotor, .setSpeed 1] else [.setSpeedScalar (1 / 2), .reverseMotor]

def idleLink : LinkState ℚ := freshLink linearAngleTarget

theorem merges_programs : Merges programs
    [.reverseMotor, .setSpeedScalar (1 / 2), .setSpeed 1, .reverseMotor] := by
  refine .next 0 rfl (.next 1 rfl (.next 0 rfl (.next 1 rfl (.done ?_))))
  exact Fin.forall_fin_two.mpr ⟨rfl, rfl⟩

theorem link_outcomes_programs : ∃ actions last,
    run step ⟨programs, ⟨idleLink, []⟩⟩ actions = some last ∧ Finished last ∧
      last.processor.state = [.reverseMotor, .setSpeedScalar (1 / 2), .setSpeed 1,
        .reverseMotor].foldl atOnce idleLink :=
  (link_outcomes rfl programs _).mpr ⟨_, merges_programs, rfl⟩

section Reversals

variable [Fintype ι]

theorem foldl_atOnce_reversed (state : LinkState K) (calls : List (SpeedCall K)) :
    (calls.foldl atOnce state).link.motorReversed =
      (state.link.motorReversed ^^ decide (calls.countP SpeedCall.reverses % 2 = 1)) := by
  induction calls generalizing state with
  | nil => simp
  | cons call rest ih =>
      rw [List.foldl_cons, ih, List.countP_cons]
      cases call with
      | reverseMotor =>
          have flips : decide ((rest.countP SpeedCall.reverses + 1) % 2 = 1) =
              !decide (rest.countP SpeedCall.reverses % 2 = 1) := by
            rw [← decide_not]
            exact decide_eq_decide.mpr (by omega)
          simp [atOnce, SpeedCall.reverses, flips]
      | setSpeedScalar | setSpeed | setSpeedForce =>
          simp [atOnce, SpeedCall.reverses, LinkState.setSpeedImpl]

/-- No reversal of any thread gets lost. -/
theorem reversals_add_up {state : LinkState K} (idle : state.link.spdControlEnabled = false)
    {programs : ι → List (SpeedCall K)} {actions : List (Action ι)} {last : Parties ι K}
    (taken : run step ⟨programs, ⟨state, []⟩⟩ actions = some last) (finished : Finished last) :
    last.processor.state.link.motorReversed = (state.link.motorReversed ^^
      decide ((∑ thread, (programs thread).countP SpeedCall.reverses) % 2 = 1)) := by
  obtain ⟨merged, merges, same⟩ := merged_of_run idle taken finished
  rw [← same, foldl_atOnce_reversed, merges.countP]

/-- Both threads call before the queue is worked off. -/
def both : List (Action (Fin 2)) :=
  [.call 0, .call 1, .serve, .call 0, .call 1, .serve, .serve, .serve]

theorem reversals_add_up_both : ∃ last,
    run step ⟨programs, ⟨idleLink, []⟩⟩ both = some last ∧ Finished last ∧
      last.processor.state.link.motorReversed = (idleLink.link.motorReversed ^^
        decide ((∑ thread, (programs thread).countP SpeedCall.reverses) % 2 = 1)) := by
  have finished : ∃ last, run step ⟨programs, ⟨idleLink, []⟩⟩ both = some last ∧
      Finished last := by
    refine ⟨_, rfl, Fin.forall_fin_two.mpr ⟨rfl, rfl⟩, rfl⟩
  obtain ⟨last, taken, done⟩ := finished
  exact ⟨last, taken, done, reversals_add_up rfl taken done⟩

end Reversals

end FrcRobot.MotorLinkClients
