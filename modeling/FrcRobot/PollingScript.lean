import Mathlib.Data.List.Basic

set_option autoImplicit false

/- Sequences of commands with loops that repeat their body until a test holds
after it. The state of a script is the code that it still has to run. -/
namespace PollingScript

variable {κ τ : Type*}

inductive Instr (κ τ : Type*) where
  | run (command : κ)
  | spinUntil (test : τ) (body : List κ)
  deriving DecidableEq

/-- The loop that runs its body and then leaves if the test holds. -/
def loop (test : τ) (body : List κ) : List (Instr κ τ) :=
  body.map .run ++ [.spinUntil test body]

variable (holds : τ → Bool)

/-- The next command, if a command is next, and the code after it. -/
def advance : List (Instr κ τ) → Option (Option κ × List (Instr κ τ))
  | [] => none
  | .run command :: rest => some (some command, rest)
  | .spinUntil test body :: rest =>
      some (none, if holds test then rest else loop test body ++ rest)

/-- The command is still run somewhere ahead, whether or not a loop repeats. -/
def Mentions (code : List (Instr κ τ)) (command : κ) : Prop :=
  .run command ∈ code ∨ ∃ test body, .spinUntil test body ∈ code ∧ command ∈ body

theorem mentions_append (first second : List (Instr κ τ)) (command : κ) :
    Mentions (first ++ second) command ↔ Mentions first command ∨ Mentions second command := by
  simp only [Mentions, List.mem_append]
  grind

theorem mentions_loop (test : τ) (body : List κ) (command : κ) :
    Mentions (loop test body) command ↔ command ∈ body := by
  simp only [Mentions, loop, List.mem_append, List.mem_map, List.mem_singleton]
  grind

variable {holds}

/-- A script runs nothing that its code does not mention. -/
theorem mentions_advance {code rest : List (Instr κ τ)} {emitted : Option κ}
    (taken : advance holds code = some (emitted, rest)) (command : κ)
    (mentioned : emitted = some command ∨ Mentions rest command) : Mentions code command := by
  cases code with
  | nil => cases taken
  | cons instr after =>
      rw [← List.singleton_append, mentions_append]
      cases instr with
      | run first =>
          cases taken
          rcases mentioned with here | later
          · cases here
            exact .inl (.inl (List.mem_singleton_self _))
          · exact .inr later
      | spinUntil test body =>
          simp only [advance, Option.some.injEq, Prod.mk.injEq] at taken
          obtain ⟨rfl, rfl⟩ := taken
          rcases mentioned with here | later
          · cases here
          · split at later
            · exact .inr later
            · rw [mentions_append, mentions_loop] at later
              exact later.imp (fun inside => .inr ⟨test, body, List.mem_singleton_self _, inside⟩) id

/-- What comes later in the code does not matter to the next instruction. -/
theorem advance_append {front tail : List (Instr κ τ)} (more : front ≠ []) :
    advance holds (front ++ tail) =
      (advance holds front).map fun taken => (taken.1, taken.2 ++ tail) := by
  cases front with
  | nil => exact absurd rfl more
  | cons instr rest =>
      cases instr with
      | run command => rfl
      | spinUntil test body =>
          simp only [List.cons_append, advance, Option.map_some]
          split
          · rfl
          · rw [List.append_assoc]

/-- A test that holds lets the script pass. -/
theorem advance_passing {instr : Instr κ τ} {rest : List (Instr κ τ)}
    (passes : ∀ test body, instr = .spinUntil test body → holds test = true) :
    ∃ emitted, advance holds (instr :: rest) = some (emitted, rest) := by
  cases instr with
  | run command => exact ⟨some command, rfl⟩
  | spinUntil test body => exact ⟨none, by simp only [advance, passes test body rfl, ↓reduceIte]⟩

def Instr.commands : Instr κ τ → List κ
  | .run command => [command]
  | .spinUntil _ body => body

theorem mentions_iff (code : List (Instr κ τ)) (command : κ) :
    Mentions code command ↔ command ∈ code.flatMap Instr.commands := by
  rw [List.mem_flatMap]
  constructor
  · rintro (here | ⟨test, body, loops, inside⟩)
    · exact ⟨_, here, List.mem_singleton_self command⟩
    · exact ⟨_, loops, inside⟩
  · rintro ⟨instr, member, inside⟩
    cases instr with
    | run other =>
        rw [List.mem_singleton.mp inside]
        exact .inl member
    | spinUntil test body => exact .inr ⟨test, body, member, inside⟩

def Instr.test : Instr κ τ → Option τ
  | .run _ => none
  | .spinUntil test _ => some test

/-- The tests by which the loops of the code leave. -/
def tests (code : List (Instr κ τ)) : List τ := code.filterMap Instr.test

theorem tests_append (first second : List (Instr κ τ)) :
    tests (first ++ second) = tests first ++ tests second := List.filterMap_append

theorem tests_loop (test : τ) (body : List κ) : tests (loop test body) = [test] := by
  simp [tests, loop, Instr.test, List.filterMap_map, Function.comp_def]

theorem tests_advance {code rest : List (Instr κ τ)} {emitted : Option κ}
    (taken : advance holds code = some (emitted, rest)) : tests rest ⊆ tests code := by
  cases code with
  | nil => cases taken
  | cons instr after =>
      rw [← List.singleton_append, tests_append]
      cases instr with
      | run first =>
          cases taken
          exact List.subset_append_right ..
      | spinUntil test body =>
          simp only [advance, Option.some.injEq, Prod.mk.injEq] at taken
          obtain ⟨-, rfl⟩ := taken
          split
          · exact List.subset_append_right ..
          · rw [tests_append, tests_loop]
            exact List.Subset.refl _

/-- The command is still ahead, before any loop that leaves by a test of the other
kind, and every command after it is of the given kind. -/
def Before (command : κ) (passed : τ → Prop) (later : κ → Prop) (code : List (Instr κ τ)) :
    Prop :=
  ∃ front rest, code = front ++ .run command :: rest ∧ (∀ test ∈ tests front, passed test) ∧
    ∀ other, Mentions rest other → later other

/-- A milestone stays ahead until the script reaches it. -/
theorem before_advance {command : κ} {passed : τ → Prop} {later : κ → Prop}
    {code rest : List (Instr κ τ)} {emitted : Option κ} (before : Before command passed later code)
    (taken : advance holds code = some (emitted, rest)) :
    Before command passed later rest ∨
      emitted = some command ∧ ∀ other, Mentions rest other → later other := by
  obtain ⟨front, after, rfl, ahead, follow⟩ := before
  by_cases reached : front = []
  · subst reached
    cases taken
    exact .inr ⟨rfl, follow⟩
  · rw [advance_append reached] at taken
    obtain ⟨⟨first, remaining⟩, advanced, same⟩ := Option.map_eq_some_iff.mp taken
    cases same
    have passes := fun test member => ahead test (tests_advance advanced member)
    exact .inl ⟨remaining, after, rfl, passes, follow⟩

end PollingScript
