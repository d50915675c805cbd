import Mathlib.Order.Basic

set_option autoImplicit false

/- Edges of a boolean signal that is sampled at 0, 1, 2 and so on. -/
namespace SignalEdges

/-- The sample after `n` is the first one that is on again. -/
def Rises (signal : Nat → Bool) (n : Nat) : Prop :=
  signal n = false ∧ signal (n + 1) = true

def Falls (signal : Nat → Bool) (n : Nat) : Prop :=
  signal n = true ∧ signal (n + 1) = false

/-- Two kinds of events take turns, and the first kind begins. -/
structure Alternate (up down : Nat → Prop) : Prop where
  apart : ∀ n, ¬(up n ∧ down n)
  first : ∀ n, down n → ∃ m < n, up m
  downBetween : ∀ i j, i < j → up i → up j → ∃ m, i < m ∧ m < j ∧ down m
  upBetween : ∀ i j, i < j → down i → down j → ∃ m, i < m ∧ m < j ∧ up m

theorem Alternate.congr {up down rise fall : Nat → Prop} (turns : Alternate rise fall)
    (sameUp : ∀ n, up n ↔ rise n) (sameDown : ∀ n, down n ↔ fall n) : Alternate up down := by
  have ups : up = rise := funext fun n => propext (sameUp n)
  have downs : down = fall := funext fun n => propext (sameDown n)
  exact ups ▸ downs ▸ turns

theorem exists_falls (signal : Nat → Bool) {first last : Nat} (ordered : first ≤ last)
    (on : signal first = true) (off : signal last = false) :
    ∃ m, first ≤ m ∧ m < last ∧ Falls signal m := by
  induction ordered with
  | refl => simp [on] at off
  | @step last ordered ih =>
      cases here : signal last with
      | true => exact ⟨last, ordered, Nat.lt_succ_self last, here, off⟩
      | false =>
          obtain ⟨m, from_first, before, falls⟩ := ih here
          exact ⟨m, from_first, Nat.lt_succ_of_lt before, falls⟩

theorem exists_rises (signal : Nat → Bool) {first last : Nat} (ordered : first ≤ last)
    (off : signal first = false) (on : signal last = true) :
    ∃ m, first ≤ m ∧ m < last ∧ Rises signal m := by
  obtain ⟨m, from_first, before, falls⟩ :=
    exists_falls (fun n => !signal n) ordered (by simp [off]) (by simp [on])
  exact ⟨m, from_first, before, by simpa [Falls] using falls.1, by simpa [Falls] using falls.2⟩

/-- The edges of a signal that starts off alternate over its whole length. -/
theorem edges_alternate (signal : Nat → Bool) (off : signal 0 = false) :
    Alternate (Rises signal) (Falls signal) where
  apart := by
    rintro n ⟨⟨before, _⟩, after, _⟩
    exact absurd after (by simp [before])
  first := by
    rintro n ⟨on, _⟩
    obtain ⟨m, _, before, rises⟩ := exists_rises signal (Nat.zero_le n) off on
    exact ⟨m, before, rises⟩
  downBetween := by
    rintro i j ordered ⟨_, on⟩ ⟨again, _⟩
    obtain ⟨m, later, before, falls⟩ := exists_falls signal ordered on again
    exact ⟨m, later, before, falls⟩
  upBetween := by
    rintro i j ordered ⟨_, off⟩ ⟨again, _⟩
    obtain ⟨m, later, before, rises⟩ := exists_rises signal ordered off again
    exact ⟨m, later, before, rises⟩

end SignalEdges
