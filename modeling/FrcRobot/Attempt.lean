import FrcRobot.Interleaving

set_option autoImplicit false

/- Machines that tell an action that cannot be taken now from one that goes wrong. -/
namespace Attempt

open Interleaving

inductive Refusal where
  | blocked
  | crashed
  deriving DecidableEq

def orRefuse {α : Type*} (refusal : Refusal) : Option α → Except Refusal α
  | none => .error refusal
  | some value => .ok value

section Safe

variable {α β : Type*}

/-- The attempt does not go wrong, and where it gets through the value is as wanted. -/
def Safe (holds : α → Prop) : Except Refusal α → Prop
  | .ok value => holds value
  | .error refusal => refusal = .blocked

theorem Safe.mono {holds wanted : α → Prop} {attempt : Except Refusal α}
    (safe : Safe holds attempt) (weaker : ∀ value, holds value → wanted value) :
    Safe wanted attempt := by
  cases attempt with
  | ok value => exact weaker value safe
  | error refusal => exact safe

theorem Safe.bind {holds : α → Prop} {wanted : β → Prop} {attempt : Except Refusal α}
    {next : α → Except Refusal β} (safe : Safe holds attempt)
    (later : ∀ value, holds value → Safe wanted (next value)) :
    Safe wanted (attempt.bind next) := by
  cases attempt with
  | ok value => exact later value safe
  | error refusal => exact safe

theorem safe_map {holds : β → Prop} {attempt : Except Refusal α} {f : α → β} :
    Safe holds (attempt.map f) ↔ Safe (fun value => holds (f value)) attempt := by
  cases attempt <;> exact Iff.rfl

theorem safe_blocked {holds : α → Prop} {found : Option α} :
    Safe holds (orRefuse .blocked found) ↔ ∀ value, found = some value → holds value := by
  cases found with
  | none => simp [orRefuse, Safe]
  | some value => simp [orRefuse, Safe]

/-- What must not be missing is there. -/
theorem safe_crashed {holds : α → Prop} {found : Option α} :
    Safe holds (orRefuse .crashed found) ↔ ∃ value, found = some value ∧ holds value := by
  cases found with
  | none => simp [orRefuse, Safe]
  | some value => simp [orRefuse, Safe]

theorem safe_foldlM {holds : α → Prop} {next : α → β → Except Refusal α} {items : List β}
    (each : ∀ item ∈ items, ∀ value, holds value → Safe holds (next value item)) {start : α}
    (initially : holds start) : Safe holds (items.foldlM next start) := by
  induction items generalizing start with
  | nil => exact initially
  | cons item rest ih =>
      rw [List.foldlM_cons]
      refine Safe.bind (each item (List.mem_cons_self ..) start initially) fun value kept => ?_
      exact ih (fun other member => each other (List.mem_cons_of_mem _ member)) kept

end Safe

section Runs

variable {σ α : Type*} (perform : σ → α → Except Refusal σ)

def step (state : σ) (action : α) : Option σ := (perform state action).toOption

variable {perform}

theorem step_iff {state next : σ} {action : α} :
    step perform state action = some next ↔ perform state action = .ok next := by
  unfold step
  cases perform state action <;> simp [Except.toOption]

/-- A safe action that is not taken is one that cannot be taken now. -/
theorem Safe.blocked {holds : σ → Prop} {state : σ} {action : α}
    (safe : Safe holds (perform state action)) (refused : step perform state action = none) :
    perform state action = .error .blocked := by
  unfold step at refused
  cases outcome : perform state action with
  | ok value =>
      rw [outcome] at refused
      cases refused
  | error refusal =>
      rw [outcome] at safe
      exact congrArg Except.error safe

theorem step_blocked {state : σ} {action : α} (blocked : perform state action = .error .blocked) :
    step perform state action = none := by
  rw [step, blocked]
  rfl

theorem Safe.of_step {holds : σ → Prop} {state next : σ} {action : α}
    (safe : Safe holds (perform state action)) (taken : step perform state action = some next) :
    holds next := by
  rw [step_iff.mp taken] at safe
  exact safe

/-- Where permitted actions are safe and keep an invariant, no run of them gets to
a state in which a permitted action goes wrong. -/
theorem run_safe {permits : σ → α → Prop} (Inv : σ → Prop)
    (safe : ∀ state action, Inv state → permits state action → Safe Inv (perform state action))
    {start last : σ} {actions : List α} (initially : Inv start)
    (along : Along (step perform) permits start actions)
    (taken : run (step perform) start actions = some last) :
    Inv last ∧ ∀ action, permits last action → perform last action ≠ .error .crashed := by
  have reached : Inv last := run_invariant_along Inv
    (fun state action _ inv permitted first => (safe state action inv permitted).of_step first)
    initially along taken
  refine ⟨reached, fun action permitted crashes => ?_⟩
  have fine := safe last action reached permitted
  rw [crashes] at fine
  cases fine

end Runs

end Attempt
