import Mathlib.Algebra.GroupWithZero.Nat
import Mathlib.Data.List.Perm.Basic
import Mathlib.Logic.Basic

set_option autoImplicit false

/- Machines whose parties take one labelled step at a time, in any order.
An action that is not enabled has no successor. -/
namespace Interleaving

variable {σ α : Type*} (step : σ → α → Option σ)

/-- Performs the actions in the order given, refusing the whole list as soon as
one of them is not enabled. -/
def run : σ → List α → Option σ
  | state, [] => some state
  | state, action :: rest => (step state action).bind fun next => run next rest

@[simp] theorem run_nil (state : σ) : run step state [] = some state := rfl

@[simp] theorem run_cons (state : σ) (action : α) (rest : List α) :
    run step state (action :: rest) =
      (step state action).bind fun next => run step next rest := rfl

/-- Every action of the list is permitted in the state that takes it. -/
def Along (permits : σ → α → Prop) : σ → List α → Prop
  | _, [] => True
  | state, action :: rest =>
      permits state action ∧ ∀ next, step state action = some next → Along permits next rest

instance Along.decidable (permits : σ → α → Prop)
    [∀ state action, Decidable (permits state action)] :
    (state : σ) → (actions : List α) → Decidable (Along step permits state actions)
  | _, [] => .isTrue trivial
  | state, action :: rest =>
      match taken : step state action with
      | none => decidable_of_iff (permits state action) (by simp [Along, taken])
      | some next =>
          have := Along.decidable permits next rest
          decidable_of_iff (permits state action ∧ Along step permits next rest)
            (by simp [Along, taken])

variable {step}

theorem Along.mono {permits allows : σ → α → Prop} {state : σ} {actions : List α}
    (weaker : ∀ state action, permits state action → allows state action)
    (along : Along step permits state actions) : Along step allows state actions := by
  induction actions generalizing state with
  | nil => trivial
  | cons action rest ih =>
      exact ⟨weaker _ _ along.1, fun next taken => ih (along.2 next taken)⟩

theorem Along.and {permits allows : σ → α → Prop} {state : σ} {actions : List α}
    (first : Along step permits state actions) (second : Along step allows state actions) :
    Along step (fun state action => permits state action ∧ allows state action) state actions := by
  induction actions generalizing state with
  | nil => trivial
  | cons action rest ih =>
      exact ⟨⟨first.1, second.1⟩, fun next taken => ih (first.2 next taken) (second.2 next taken)⟩

/-- A condition on the actions alone. -/
theorem Along.of_forall {permits : σ → α → Prop} {actions : List α}
    (everywhere : ∀ action ∈ actions, ∀ state, permits state action) (state : σ) :
    Along step permits state actions := by
  induction actions generalizing state with
  | nil => trivial
  | cons action rest ih =>
      refine ⟨everywhere action (List.mem_cons_self ..) state, fun next _ => ?_⟩
      exact ih (fun other member => everywhere other (List.mem_cons_of_mem _ member)) next

/-- What every permitted step keeps, every run of permitted steps keeps. -/
theorem run_invariant_along {permits : σ → α → Prop} (Inv : σ → Prop)
    (keeps : ∀ state action next, Inv state → permits state action →
      step state action = some next → Inv next)
    {start finish : σ} {actions : List α} (initially : Inv start)
    (along : Along step permits start actions)
    (taken : run step start actions = some finish) : Inv finish := by
  induction actions generalizing start with
  | nil => exact Option.some.inj taken ▸ initially
  | cons action rest ih =>
      obtain ⟨next, first, later⟩ := Option.bind_eq_some_iff.mp taken
      exact ih (keeps start action next initially along.1 first) (along.2 next first) later

/-- A condition that an invariant turns into another one on every step. -/
theorem Along.of_invariant {permits allows : σ → α → Prop} (Inv : σ → Prop)
    (keeps : ∀ state action next, Inv state → permits state action →
      step state action = some next → Inv next)
    (yields : ∀ state action, Inv state → permits state action → allows state action)
    {start : σ} {actions : List α} (initially : Inv start)
    (along : Along step permits start actions) : Along step allows start actions := by
  induction actions generalizing start with
  | nil => trivial
  | cons action rest ih =>
      refine ⟨yields start action initially along.1, fun next taken => ?_⟩
      exact ih (keeps start action next initially along.1 taken) (along.2 next taken)

/-- The same without a side condition on the steps. -/
theorem run_invariant (Inv : σ → Prop)
    (keeps : ∀ state action next, Inv state → step state action = some next → Inv next)
    {start finish : σ} {actions : List α} (initially : Inv start)
    (taken : run step start actions = some finish) : Inv finish := by
  induction actions generalizing start with
  | nil => exact Option.some.inj taken ▸ initially
  | cons action rest ih =>
      obtain ⟨next, first, later⟩ := Option.bind_eq_some_iff.mp taken
      exact ih (keeps start action next initially first) later

/-- A run of steps that each use up some of a supply is no longer than that lasts. -/
theorem run_length_le {permits : α → Prop} {supply : σ → Nat}
    (falls : ∀ state action next, permits action → step state action = some next →
      supply next < supply state)
    {start finish : σ} {actions : List α} (permitted : ∀ action ∈ actions, permits action)
    (taken : run step start actions = some finish) :
    actions.length + supply finish ≤ supply start := by
  induction actions generalizing start with
  | nil => exact Option.some.inj taken ▸ Nat.le_of_eq (Nat.zero_add _)
  | cons action rest ih =>
      obtain ⟨next, first, later⟩ := Option.bind_eq_some_iff.mp taken
      have shorter := ih (fun other member => permitted other (List.mem_cons_of_mem _ member)) later
      have used := falls start action next (permitted action (List.mem_cons_self ..)) first
      rw [List.length_cons]
      omega

variable (step) in
/-- Every state that the actions lead through has the property. -/
def Always (holds : σ → Prop) : σ → List α → Prop
  | state, [] => holds state
  | state, action :: rest =>
      holds state ∧ ∀ next, step state action = some next → Always holds next rest

theorem Always.start {holds : σ → Prop} {state : σ} {actions : List α}
    (always : Always step holds state actions) : holds state := by
  cases actions with
  | nil => exact always
  | cons action rest => exact always.1

/-- Where a step leads to a state with the property just if it is permitted, a
run keeps to such states just if all its steps are permitted. -/
theorem always_iff_along {holds : σ → Prop} {permits : σ → α → Prop} (Inv : σ → Prop)
    (exact : ∀ state action next, Inv state → step state action = some next →
      (holds next ↔ permits state action))
    (keeps : ∀ state action next, Inv state → permits state action →
      step state action = some next → Inv next)
    {start finish : σ} {actions : List α} (initially : Inv start) (first : holds start)
    (taken : run step start actions = some finish) :
    Always step holds start actions ↔ Along step permits start actions := by
  induction actions generalizing start with
  | nil => exact iff_of_true first trivial
  | cons action rest ih =>
      obtain ⟨next, here, later⟩ := Option.bind_eq_some_iff.mp taken
      constructor
      · rintro ⟨_, always⟩
        have permitted := (exact start action next initially here).mp (always next here).start
        refine ⟨permitted, fun other there => ?_⟩
        rw [here, Option.some.injEq] at there
        subst there
        have inv := keeps start action next initially permitted here
        exact (ih inv (always next here).start later).mp (always next here)
      · rintro ⟨permitted, along⟩
        refine ⟨first, fun other there => ?_⟩
        rw [here, Option.some.injEq] at there
        subst there
        have inv := keeps start action next initially permitted here
        have reached := (exact start action next initially here).mpr permitted
        exact (ih inv reached later).mpr (along next here)

/-- A condition on the actions alone, of a run that takes all of them. -/
theorem along_iff_forall {permits : α → Prop} {start finish : σ} {actions : List α}
    (taken : run step start actions = some finish) :
    Along step (fun _ action => permits action) start actions ↔
      ∀ action ∈ actions, permits action := by
  constructor
  · intro along
    induction actions generalizing start with
    | nil => exact List.forall_mem_nil _
    | cons action rest ih =>
        obtain ⟨next, here, later⟩ := Option.bind_eq_some_iff.mp taken
        exact List.forall_mem_cons.mpr ⟨along.1, ih later (along.2 next here)⟩
  · intro everywhere
    exact Along.of_forall (fun action member _ => everywhere action member) start

/-- If each step is matched by one of another machine, so is each run. -/
theorem run_simulates {τ : Type*} {other : τ → α → Option τ} {abstraction : σ → τ}
    (matched : ∀ state action next, step state action = some next →
      other (abstraction state) action = some (abstraction next))
    {start finish : σ} {actions : List α} (taken : run step start actions = some finish) :
    run other (abstraction start) actions = some (abstraction finish) := by
  induction actions generalizing start with
  | nil => exact congrArg (Option.map abstraction) taken
  | cons action rest ih =>
      obtain ⟨next, first, later⟩ := Option.bind_eq_some_iff.mp taken
      rw [run_cons, matched start action next first]
      exact ih later

/-- Machines that match each other's steps match each other's runs. -/
theorem run_rel {τ : Type*} {other : τ → α → Option τ} {related : σ → τ → Prop}
    (matched : ∀ state twin action, related state twin →
      Option.Rel related (step state action) (other twin action))
    {state : σ} {twin : τ} (initially : related state twin) (actions : List α) :
    Option.Rel related (run step state actions) (run other twin actions) := by
  induction actions generalizing state twin with
  | nil => exact .some initially
  | cons action rest ih =>
      have first := matched state twin action initially
      rw [run_cons, run_cons]
      generalize step state action = next, other twin action = twinNext at first ⊢
      cases first with
      | none => exact .none
      | some here => exact ih here

variable (step) in
/-- Some run leads from one state to the other. -/
def Reaches (start finish : σ) : Prop := ∃ actions, run step start actions = some finish

theorem Reaches.refl (state : σ) : Reaches step state state := ⟨[], rfl⟩

theorem run_append (state : σ) (first second : List α) :
    run step state (first ++ second) =
      (run step state first).bind fun middle => run step middle second := by
  induction first generalizing state with
  | nil => rfl
  | cons action rest ih =>
      rw [List.cons_append, run_cons, run_cons, Option.bind_assoc]
      exact congrArg (Option.bind _) (funext ih)

theorem Reaches.extend {start middle finish : σ} {action : α}
    (reaches : Reaches step start middle) (taken : step middle action = some finish) :
    Reaches step start finish := by
  obtain ⟨actions, ran⟩ := reaches
  refine ⟨actions ++ [action], ?_⟩
  rw [run_append, ran, Option.bind_some, run_cons, taken]
  rfl

/-- What one machine reaches a machine reaches that matches its steps. -/
theorem Reaches.simulates {τ : Type*} {other : τ → α → Option τ} {abstraction : σ → τ}
    (matched : ∀ state action next, step state action = some next →
      other (abstraction state) action = some (abstraction next))
    {start finish : σ} (reaches : Reaches step start finish) :
    Reaches other (abstraction start) (abstraction finish) :=
  reaches.imp fun _ taken => run_simulates matched taken

/-- Where each permitted step is matched by a run of another machine, perhaps an
empty one, so is each run. The labels of that one may depend on the actions. -/
theorem run_matched {τ β : Type*} {other : τ → β → Option τ} {related : σ → τ → Prop}
    {permits : σ → α → Prop} {label : α → β → Prop}
    (matched : ∀ state action next twin, related state twin → permits state action →
      step state action = some next → ∃ labels twinNext, (∀ entry ∈ labels, label action entry) ∧
        run other twin labels = some twinNext ∧ related next twinNext)
    {start finish : σ} {twin : τ} {actions : List α} (initially : related start twin)
    (along : Along step permits start actions) (taken : run step start actions = some finish) :
    ∃ labels twinFinish, (∀ entry ∈ labels, ∃ action ∈ actions, label action entry) ∧
      run other twin labels = some twinFinish ∧ related finish twinFinish := by
  induction actions generalizing start twin with
  | nil => exact ⟨[], twin, nofun, rfl, Option.some.inj taken ▸ initially⟩
  | cons action rest ih =>
      obtain ⟨next, first, later⟩ := Option.bind_eq_some_iff.mp taken
      obtain ⟨front, middle, labelled, ran, reached⟩ :=
        matched start action next twin initially along.1 first
      obtain ⟨back, last, others, ranOn, related⟩ := ih reached (along.2 next first) later
      refine ⟨front ++ back, last, ?_, ?_, related⟩
      · intro entry member
        rcases List.mem_append.mp member with early | late
        · exact ⟨action, List.mem_cons_self .., labelled entry early⟩
        · obtain ⟨cause, among, because⟩ := others entry late
          exact ⟨cause, List.mem_cons_of_mem _ among, because⟩
      · rw [run_append, ran, Option.bind_some, ranOn]

variable (step) in
/-- What the labelled steps of a run show, in their order. -/
def trace {β : Type*} (label : σ → α → Option β) : σ → List α → List β
  | _, [] => []
  | state, action :: rest => (label state action).toList ++
      (step state action).elim [] fun next => trace label next rest

/-- What each permitted step makes of something that can be observed tells what a run
makes of it. -/
theorem run_foldl {ν : Type*} {permits : σ → α → Prop} (observe : σ → ν) (update : ν → α → ν)
    (Inv : σ → Prop)
    (steps : ∀ state action next, Inv state → permits state action →
      step state action = some next → Inv next ∧ observe next = update (observe state) action)
    {start finish : σ} {actions : List α} (initially : Inv start)
    (along : Along step permits start actions) (taken : run step start actions = some finish) :
    observe finish = actions.foldl update (observe start) := by
  induction actions generalizing start with
  | nil => exact Option.some.inj taken ▸ rfl
  | cons action rest ih =>
      obtain ⟨next, first, later⟩ := Option.bind_eq_some_iff.mp taken
      obtain ⟨kept, observed⟩ := steps start action next initially along.1 first
      rw [List.foldl_cons, ← observed]
      exact ih kept (along.2 next first) later

/-- Where each labelled step is one of another machine and no other step changes what
that machine knows of the state, it takes the labels of a run one after the other. -/
theorem run_trace {τ β : Type*} {other : τ → β → Option τ} {abstraction : σ → τ}
    {permits : σ → α → Prop} {label : σ → α → Option β} (Inv : σ → Prop)
    (matched : ∀ state action next, Inv state → permits state action →
      step state action = some next → Inv next ∧
        run other (abstraction state) (label state action).toList = some (abstraction next))
    {start finish : σ} {actions : List α} (initially : Inv start)
    (along : Along step permits start actions) (taken : run step start actions = some finish) :
    run other (abstraction start) (trace step label start actions) =
      some (abstraction finish) := by
  induction actions generalizing start with
  | nil => exact congrArg (Option.map abstraction) taken
  | cons action rest ih =>
      obtain ⟨next, first, later⟩ := Option.bind_eq_some_iff.mp taken
      obtain ⟨kept, ran⟩ := matched start action next initially along.1 first
      rw [trace, first, Option.elim_some, run_append, ran, Option.bind_some]
      exact ih kept (along.2 next first) later

variable (step) in
/-- Some run of permitted steps gets to the goal. -/
def CanReach (permits : σ → α → Prop) (goal : σ → Prop) (start : σ) : Prop :=
  ∃ actions finish, Along step permits start actions ∧
    run step start actions = some finish ∧ goal finish

theorem CanReach.here {permits : σ → α → Prop} {goal : σ → Prop} {state : σ}
    (already : goal state) : CanReach step permits goal state :=
  ⟨[], state, trivial, rfl, already⟩

theorem CanReach.cons {permits : σ → α → Prop} {goal : σ → Prop} {state next : σ} {action : α}
    (permitted : permits state action) (taken : step state action = some next)
    (later : CanReach step permits goal next) : CanReach step permits goal state := by
  obtain ⟨actions, finish, along, ran, reached⟩ := later
  refine ⟨action :: actions, finish, ⟨permitted, ?_⟩, ?_, reached⟩
  · intro other same
    rw [taken] at same
    exact Option.some.inj same ▸ along
  · rw [run_cons, taken]
    exact ran

/-- The same with several steps in front, permitted whatever the state. -/
theorem CanReach.append {permits : σ → α → Prop} {goal : σ → Prop} {state next : σ}
    {actions : List α} (permitted : ∀ action ∈ actions, ∀ state, permits state action)
    (taken : run step state actions = some next) (later : CanReach step permits goal next) :
    CanReach step permits goal state := by
  induction actions generalizing state with
  | nil => exact Option.some.inj taken ▸ later
  | cons action rest ih =>
      obtain ⟨middle, first, others⟩ := Option.bind_eq_some_iff.mp taken
      refine .cons (permitted action (List.mem_cons_self ..) state) first (ih ?_ others)
      exact fun other member => permitted other (List.mem_cons_of_mem _ member)

section Calls

/- Calls under way are kept in a list, in the order in which they were made. -/

variable {calls : List α} {index : Nat} {call : α}

/-- Without the call that returns the list counts one less, if that call counts. -/
theorem countP_eraseIdx (here : calls[index]? = some call) (counts : α → Bool) :
    (calls.eraseIdx index).countP counts + (counts call).toNat = calls.countP counts := by
  obtain ⟨within, rfl⟩ := List.getElem?_eq_some_iff.mp here
  rw [← (List.getElem_cons_eraseIdx_perm within).countP_eq counts, List.countP_cons]
  cases counts calls[index] <;> rfl

theorem countP_set (here : calls[index]? = some call) (counts : α → Bool) (next : α) :
    (calls.set index next).countP counts + (counts call).toNat =
      calls.countP counts + (counts next).toNat := by
  obtain ⟨within, _⟩ := List.getElem?_eq_some_iff.mp here
  rw [← countP_eraseIdx here counts, (List.set_perm_cons_eraseIdx within next).countP_eq counts,
    List.countP_cons]
  cases counts next <;> simp +arith

theorem countP_append_one (counts : α → Bool) (next : α) :
    (calls ++ [next]).countP counts = calls.countP counts + (counts next).toNat := by
  rw [List.countP_append, List.countP_singleton]
  cases counts next <;> rfl

/-- The same for calls that count for more than one. -/
theorem sum_map_eraseIdx (here : calls[index]? = some call) (weight : α → Nat) :
    ((calls.eraseIdx index).map weight).sum + weight call = (calls.map weight).sum := by
  obtain ⟨within, rfl⟩ := List.getElem?_eq_some_iff.mp here
  rw [← ((List.getElem_cons_eraseIdx_perm within).map weight).sum_nat, List.map_cons, List.sum_cons,
    Nat.add_comm]

theorem sum_map_set (here : calls[index]? = some call) (weight : α → Nat) (next : α) :
    ((calls.set index next).map weight).sum + weight call =
      (calls.map weight).sum + weight next := by
  obtain ⟨within, _⟩ := List.getElem?_eq_some_iff.mp here
  rw [← sum_map_eraseIdx here weight,
    ((List.set_perm_cons_eraseIdx within next).map weight).sum_nat, List.map_cons, List.sum_cons]
  omega

/-- The other calls do not notice that one of them moves on, or returns. -/
theorem mem_set_of_ne (here : calls[index]? = some call) {other next : α} (apart : other ≠ call)
    (member : other ∈ calls) : other ∈ calls.set index next := by
  obtain ⟨place, found⟩ := List.mem_iff_getElem?.mp member
  have elsewhere : index ≠ place := by
    rintro rfl
    exact apart (Option.some.inj (found.symm.trans here))
  refine List.mem_iff_getElem?.mpr ⟨place, ?_⟩
  rw [List.getElem?_set_ne elsewhere]
  exact found

theorem mem_eraseIdx_of_ne (here : calls[index]? = some call) {other : α} (apart : other ≠ call)
    (member : other ∈ calls) : other ∈ calls.eraseIdx index := by
  obtain ⟨place, found⟩ := List.mem_iff_getElem?.mp member
  refine List.mem_eraseIdx_iff_getElem?.mpr ⟨place, ?_, found⟩
  rintro rfl
  exact apart (Option.some.inj (found.symm.trans here))

end Calls

end Interleaving
