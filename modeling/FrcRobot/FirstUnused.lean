import Mathlib.Data.Nat.ModEq
import Mathlib.Order.Interval.Finset.Nat

set_option autoImplicit false

/- Counting up from a number to the first one that is not in use, in a type with
finitely many values, where the count may come round to 0. -/
namespace FirstUnused

/-- There is no result when the fuel runs out on the way. -/
def search (values : Nat) (used : Finset Nat) : Nat → Nat → Option Nat
  | 0, _ => none
  | fuel + 1, candidate =>
      if candidate ∈ used then search values used fuel ((candidate + 1) % values)
      else some candidate

theorem search_notMem {values : Nat} {used : Finset Nat} {fuel start found : Nat}
    (searched : search values used fuel start = some found) : found ∉ used := by
  induction fuel generalizing start with
  | zero => cases searched
  | succ fuel ih =>
      simp only [search] at searched
      split at searched
      · exact ih searched
      · rename_i unused
        cases searched
        exact unused

theorem search_lt {values : Nat} {used : Finset Nat} {fuel start found : Nat}
    (within : start < values) (searched : search values used fuel start = some found) :
    found < values := by
  induction fuel generalizing start with
  | zero => cases searched
  | succ fuel ih =>
      simp only [search] at searched
      split at searched
      · exact ih (Nat.mod_lt _ (by omega)) searched
      · cases searched
        exact within

/-- A count that runs out of fuel has seen only numbers in use. -/
theorem mem_of_search_eq_none {values : Nat} {used : Finset Nat} {fuel start : Nat}
    (within : start < values) (exhausted : search values used fuel start = none) :
    ∀ n, n < fuel → (start + n) % values ∈ used := by
  induction fuel generalizing start with
  | zero => omega
  | succ fuel ih =>
      simp only [search] at exhausted
      split at exhausted
      · rename_i taken
        intro n below
        cases n with
        | zero => rwa [Nat.add_zero, Nat.mod_eq_of_lt within]
        | succ n =>
            have later := ih (Nat.mod_lt _ (by omega)) exhausted n (by omega)
            rwa [Nat.mod_add_mod, Nat.add_assoc, Nat.add_comm 1] at later
      · cases exhausted

/-- One unit of fuel more than there are numbers in use is enough, if those are
not all the values there are. -/
theorem exists_search {values : Nat} {used : Finset Nat} {start : Nat}
    (within : start < values) (left : used.card < values) :
    ∃ found, search values used (used.card + 1) start = some found := by
  by_contra missing
  have exhausted : search values used (used.card + 1) start = none :=
    Option.eq_none_iff_forall_ne_some.mpr fun found searched => missing ⟨found, searched⟩
  have seen := mem_of_search_eq_none within exhausted
  -- So far apart no two numbers of the count are the same value.
  have apart : Set.InjOn (fun n => (start + n) % values) (Finset.range (used.card + 1)) := by
    intro first early second late same
    simp only [Finset.coe_range, Set.mem_Iio] at early late
    have cancelled : first % values = second % values := Nat.ModEq.add_left_cancel' start same
    rwa [Nat.mod_eq_of_lt (by omega), Nat.mod_eq_of_lt (by omega)] at cancelled
  have few := Finset.card_le_card_of_injOn (fun n => (start + n) % values)
    (fun n member => seen n (Finset.mem_range.mp member)) apart
  rw [Finset.card_range] at few
  omega

/-- The numbers from `start` to `stop` are in use, and `stop` is not. -/
structure Stop (used : Finset Nat) (start stop : Nat) : Prop where
  ordered : start ≤ stop
  between : ∀ n, start ≤ n → n < stop → n ∈ used
  unused : stop ∉ used

theorem exists_stop (used : Finset Nat) (start : Nat) : ∃ stop, Stop used start stop := by
  have free : ∃ stop, start ≤ stop ∧ stop ∉ used := by
    refine ⟨start + used.sup id + 1, by omega, ?_⟩
    intro taken
    have below : start + used.sup id + 1 ≤ used.sup id := Finset.le_sup (f := id) taken
    omega
  obtain ⟨ordered, unused⟩ := Nat.find_spec free
  refine ⟨Nat.find free, ordered, ?_, unused⟩
  intro n above below
  by_contra missing
  exact Nat.find_min free below ⟨above, missing⟩

/-- Short of the largest value the count does not come round. -/
theorem search_eq {values : Nat} {used : Finset Nat} {fuel start stop : Nat}
    (stops : Stop used start stop) (within : stop < values) (enough : stop - start < fuel) :
    search values used fuel start = some stop := by
  induction fuel generalizing start with
  | zero => omega
  | succ fuel ih =>
      rcases Nat.eq_or_lt_of_le stops.ordered with rfl | later
      · simp only [search, stops.unused, ↓reduceIte]
      · have taken := stops.between start le_rfl later
        have next : (start + 1) % values = start + 1 := Nat.mod_eq_of_lt (by omega)
        simp only [search, taken, ↓reduceIte, next]
        apply ih
        · exact ⟨later, fun n above => stops.between n (by omega), stops.unused⟩
        · omega

/-- What the count passes is in use and below what it has still to pass. -/
theorem Stop.pass {used : Finset Nat} {start stop : Nat} (stops : Stop used start stop) :
    stop + (used.filter (stop < ·)).card ≤ start + (used.filter (start ≤ ·)).card := by
  have passed : Finset.Ico start stop ∪ used.filter (stop < ·) ⊆ used.filter (start ≤ ·) := by
    intro n member
    rcases Finset.mem_union.mp member with between | above
    · obtain ⟨from_start, below⟩ := Finset.mem_Ico.mp between
      exact Finset.mem_filter.mpr ⟨stops.between n from_start below, from_start⟩
    · obtain ⟨taken, beyond⟩ := Finset.mem_filter.mp above
      exact Finset.mem_filter.mpr ⟨taken, stops.ordered.trans beyond.le⟩
  have apart : Disjoint (Finset.Ico start stop) (used.filter (stop < ·)) := by
    rw [Finset.disjoint_left]
    intro n between above
    have below := (Finset.mem_Ico.mp between).2
    have beyond := (Finset.mem_filter.mp above).2
    omega
  have counted := Finset.card_le_card passed
  rw [Finset.card_union_of_disjoint apart, Nat.card_Ico] at counted
  have ordered := stops.ordered
  omega

/-- With room for everything in use above the start, one unit of fuel more than
there are numbers in use is enough. -/
theorem search_enough {values : Nat} {used : Finset Nat} {start : Nat}
    (room : start + (used.filter (start ≤ ·)).card < values) :
    ∃ stop, search values used (used.card + 1) start = some stop ∧ Stop used start stop := by
  obtain ⟨stop, stops⟩ := exists_stop used start
  have pass := stops.pass
  have part := Finset.card_filter_le used (start ≤ ·)
  refine ⟨stop, search_eq stops ?_ ?_, stops⟩
  · omega
  · omega

end FirstUnused
