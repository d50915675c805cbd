import Mathlib.Data.Finset.Dedup
import Mathlib.Data.Finset.Erase

set_option autoImplicit false

/- One register, written by some of the commands of a list. Where the order of
the commands is not known, only writes that agree determine its value. -/
namespace LastWrite

variable {α ν : Type*} (writes : α → Option ν)

/-- The register after the commands, from what each of them writes to it. -/
def lastValue (start : ν) (commands : List α) : ν :=
  commands.foldl (fun value command => (writes command).getD value) start

@[simp] theorem lastValue_nil (start : ν) : lastValue writes start [] = start := rfl

@[simp] theorem lastValue_cons (start : ν) (command : α) (rest : List α) :
    lastValue writes start (command :: rest) =
      lastValue writes ((writes command).getD start) rest := rfl

theorem lastValue_append_singleton (start : ν) (front : List α) (command : α) :
    lastValue writes start (front ++ [command]) =
      (writes command).getD (lastValue writes start front) := by
  simp only [lastValue, List.foldl_append, List.foldl_cons, List.foldl_nil]

/-- The register keeps its value, or has the value of one of the writes. -/
theorem lastValue_cases (start : ν) (commands : List α) :
    (lastValue writes start commands = start ∧ ∀ command ∈ commands, writes command = none) ∨
      ∃ command ∈ commands, writes command = some (lastValue writes start commands) := by
  induction commands generalizing start with
  | nil => exact .inl ⟨rfl, fun command member => absurd member List.not_mem_nil⟩
  | cons command rest ih =>
      rw [lastValue_cons]
      rcases ih ((writes command).getD start) with ⟨kept, silent⟩ | ⟨later, member, written⟩
      · rw [kept]
        cases first : writes command with
        | none =>
            left
            refine ⟨rfl, ?_⟩
            intro other member
            rcases List.mem_cons.mp member with here | there
            · rw [here, first]
            · exact silent other there
        | some value => exact .inr ⟨command, List.mem_cons_self .., first⟩
      · exact .inr ⟨later, List.mem_cons_of_mem _ member, written⟩

variable {writes}

theorem lastValue_of_silent {start : ν} {commands : List α}
    (silent : ∀ command ∈ commands, writes command = none) :
    lastValue writes start commands = start := by
  rcases lastValue_cases writes start commands with ⟨kept, _⟩ | ⟨command, member, written⟩
  · exact kept
  · rw [silent command member] at written
    cases written

/-- If all writes agree, their order and multiplicity do not matter. -/
theorem lastValue_congr {first second : List α} (same : ∀ command, command ∈ first ↔ command ∈ second)
    (agree : ∀ one ∈ first, ∀ other ∈ first, ∀ value another,
      writes one = some value → writes other = some another → value = another) (start : ν) :
    lastValue writes start first = lastValue writes start second := by
  rcases lastValue_cases writes start first with ⟨kept, silent⟩ | ⟨one, inFirst, written⟩
  · have quiet : ∀ command ∈ second, writes command = none :=
      fun command member => silent command ((same command).mpr member)
    rw [kept, lastValue_of_silent quiet]
  · rcases lastValue_cases writes start second with ⟨_, silent⟩ | ⟨other, inSecond, rewritten⟩
    · have quiet := silent one ((same one).mp inFirst)
      rw [quiet] at written
      cases written
    · exact agree one inFirst other ((same other).mpr inSecond) _ _ written rewritten

/-- One of the orders in which the commands of a set can be taken. -/
def Enumerates [DecidableEq α] (order : List α) (commands : Finset α) : Prop :=
  order.Nodup ∧ order.toFinset = commands

theorem Enumerates.mem_iff [DecidableEq α] {order : List α} {commands : Finset α}
    (enumerates : Enumerates order commands) (command : α) :
    command ∈ order ↔ command ∈ commands := by
  rw [← enumerates.2, List.mem_toFinset]

theorem enumerates_toList [DecidableEq α] (commands : Finset α) :
    Enumerates commands.toList commands :=
  ⟨Finset.nodup_toList commands, Finset.toList_toFinset commands⟩

/-- Any command of a set can come last. -/
theorem exists_enumerates_ending [DecidableEq α] {commands : Finset α} {last : α}
    (member : last ∈ commands) : ∃ front, Enumerates (front ++ [last]) commands := by
  refine ⟨(commands.erase last).toList, ?_, ?_⟩
  · apply List.nodup_append.mpr
    refine ⟨Finset.nodup_toList _, List.nodup_singleton last, ?_⟩
    intro command before other single same
    rw [List.mem_singleton.mp single] at same
    rw [same, Finset.mem_toList] at before
    exact Finset.notMem_erase last commands before
  · ext command
    simp only [List.mem_toFinset, List.mem_append, Finset.mem_toList, Finset.mem_erase,
      List.mem_singleton]
    by_cases same : command = last
    · simp [same, member]
    · simp [same]

end LastWrite
