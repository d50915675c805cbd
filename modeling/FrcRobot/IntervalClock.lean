import Mathlib.Algebra.Order.Group.Defs
import Mathlib.Algebra.Order.Monoid.Unbundled.Basic
import Mathlib.Tactic.Abel

set_option autoImplicit false

/- Clocks that add up the intervals between ticks, fire at the first tick at which
the sum has reached a period, and then start from 0 again. -/
namespace IntervalClock

variable {K : Type*} [AddCommGroup K] [LinearOrder K]

/-- At which of the ticks a clock fires that has already added up so much. -/
def fires (period : K) : K → List K → List Bool
  | _, [] => []
  | elapsed, interval :: rest =>
      if elapsed + interval < period then false :: fires period (elapsed + interval) rest
      else true :: fires period 0 rest

@[simp] theorem fires_nil (period elapsed : K) : fires period elapsed [] = [] := rfl

theorem fires_waiting {period elapsed interval : K} (waiting : elapsed + interval < period)
    (rest : List K) :
    fires period elapsed (interval :: rest) = false :: fires period (elapsed + interval) rest :=
  if_pos waiting

theorem fires_firing {period elapsed interval : K} (reached : ¬elapsed + interval < period)
    (rest : List K) : fires period elapsed (interval :: rest) = true :: fires period 0 rest :=
  if_neg reached

/-- A time at which one of two periods is over and the other is not. -/
def Disputed (first second elapsed : K) : Prop :=
  min first second ≤ elapsed ∧ elapsed < max first second

instance (first second elapsed : K) : Decidable (Disputed first second elapsed) :=
  inferInstanceAs (Decidable (_ ∧ _))

omit [AddCommGroup K] in
theorem not_disputed_iff (first second elapsed : K) :
    ¬Disputed first second elapsed ↔ (elapsed < first ↔ elapsed < second) := by
  rw [Disputed, min_le_iff, lt_max_iff]
  constructor
  · intro clear
    constructor
    · intro before
      by_contra reached
      exact clear ⟨.inr (not_lt.mp reached), .inl before⟩
    · intro before
      by_contra reached
      exact clear ⟨.inl (not_lt.mp reached), .inr before⟩
  · rintro same ⟨first | second, before | before⟩
    · exact absurd first (not_le.mpr before)
    · exact absurd first (not_le.mpr (same.mpr before))
    · exact absurd second (not_le.mpr (same.mp before))
    · exact absurd second (not_le.mpr before)

/-- No tick of the clock comes while it is disputed whether a clock with another
period should fire, which is so far ahead of it until they have fired first. -/
def Undisputed (period other : K) : (ahead elapsed : K) → List K → Prop
  | _, _, [] => True
  | ahead, elapsed, interval :: rest =>
      ¬Disputed period (other - ahead) (elapsed + interval) ∧
        if elapsed + interval < period then
          Undisputed period other ahead (elapsed + interval) rest
        else Undisputed period other 0 0 rest

instance Undisputed.decidable (period other : K) :
    (ahead elapsed : K) → (intervals : List K) →
      Decidable (Undisputed period other ahead elapsed intervals)
  | _, _, [] => .isTrue trivial
  | ahead, elapsed, interval :: rest =>
      have := Undisputed.decidable period other ahead (elapsed + interval) rest
      have := Undisputed.decidable period other 0 0 rest
      inferInstanceAs (Decidable (¬Disputed period (other - ahead) (elapsed + interval) ∧
        if elapsed + interval < period then
          Undisputed period other ahead (elapsed + interval) rest
        else Undisputed period other 0 0 rest))

variable [IsOrderedAddMonoid K]

/-- Two clocks fire at the same ticks just if no tick is disputed. -/
theorem fires_eq_iff (period other ahead elapsed : K) (intervals : List K) :
    fires other (elapsed + ahead) intervals = fires period elapsed intervals ↔
      Undisputed period other ahead elapsed intervals := by
  induction intervals generalizing ahead elapsed with
  | nil => simp [Undisputed]
  | cons interval rest ih =>
      have shifted : elapsed + ahead + interval = elapsed + interval + ahead := by abel
      have moved : elapsed + ahead + interval < other ↔ elapsed + interval < other - ahead := by
        rw [shifted, lt_sub_iff_add_lt]
      have restart := ih 0 0
      rw [add_zero] at restart
      rw [Undisputed, not_disputed_iff, ← moved]
      by_cases waiting : elapsed + interval < period
      · rw [fires_waiting waiting, if_pos waiting, iff_true_left waiting]
        by_cases waits : elapsed + ahead + interval < other
        · rw [fires_waiting waits, shifted, List.cons.injEq, ih, ← shifted]
          simp [waits]
        · rw [fires_firing waits]
          simp [waits]
      · rw [fires_firing waiting, if_neg waiting, iff_false_left waiting]
        by_cases waits : elapsed + ahead + interval < other
        · rw [fires_waiting waits]
          simp [waits]
        · rw [fires_firing waits, List.cons.injEq, restart]
          simp [waits]

end IntervalClock
