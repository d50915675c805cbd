import FrcRobot.ListenerManager
import FrcRobot.SignalEdges
import Mathlib.Algebra.Ring.Rat

set_option autoImplicit false

namespace FrcRobot.ListenerManager

variable {K L : Type*}

def Pressed (old new : ControlValues K) (counter : Fin 11) : Prop :=
  old.buttonAt counter = false ∧ new.buttonAt counter = true

instance (old new : ControlValues K) (counter : Fin 11) : Decidable (Pressed old new counter) :=
  inferInstanceAs (Decidable (_ ∧ _))

def Released (old new : ControlValues K) (counter : Fin 11) : Prop :=
  old.buttonAt counter = true ∧ new.buttonAt counter = false

def Moved (old new : ControlValues K) (counter : Fin 16) : Prop :=
  old.axisAt counter ≠ new.axisAt counter

/-- The listener is registered under the key with this number. -/
def Under (listeners : ListenerMap L) (code : Nat) (listener : L) : Prop :=
  ∃ entry ∈ listeners, entry.1.value = code ∧ entry.2 = listener

/-- The listeners run collects for two consecutive snapshots: a press collects
the UP key of its button together with the DOWN key. -/
def Collected (listeners : ListenerMap L) (old new : ControlValues K) (listener : L) : Prop :=
  (∃ counter ∈ buttonCounters, Pressed old new counter ∧
    (Under listeners counter listener ∨ Under listeners (counter + 20) listener)) ∨
  ∃ counter ∈ axisCounters, Moved old new counter ∧ Under listeners counter listener

/-- The listeners an edge detector owes the two snapshots. -/
def Due (listeners : ListenerMap L) (old new : ControlValues K) (listener : L) : Prop :=
  (∃ counter ∈ buttonCounters, Pressed old new counter ∧ Under listeners counter listener) ∨
  (∃ counter ∈ buttonCounters, Released old new counter ∧
    Under listeners (counter + 20) listener) ∨
  ∃ counter ∈ axisCounters, Moved old new counter ∧ Under listeners counter listener

theorem not_pressed_self (values : ControlValues K) (counter : Fin 11) :
    ¬Pressed values values counter := by
  rintro ⟨up, down⟩
  exact absurd down (by simp [up])

theorem not_collected_self (listeners : ListenerMap L) (values : ControlValues K) (listener : L) :
    ¬Collected listeners values values listener := by
  rintro (⟨counter, _, pressed, _⟩ | ⟨counter, _, moved, _⟩)
  · exact not_pressed_self values counter pressed
  · exact moved rfl

section Cycle

variable [DecidableEq L]

theorem mem_equalRange (listeners : ListenerMap L) (code : Nat) (listener : L) :
    listener ∈ equalRange listeners code ↔ Under listeners code listener := by
  simp only [equalRange, Multiset.mem_toFinset, Multiset.mem_map, Multiset.mem_filter, Under,
    and_assoc]

theorem mem_buttonListeners (listeners : ListenerMap L) (old new : ControlValues K)
    (counter : Fin 11) (listener : L) :
    listener ∈ buttonListeners listeners old new counter ↔ Pressed old new counter ∧
      (Under listeners counter listener ∨ Under listeners (counter + 20) listener) := by
  simp only [buttonListeners, Finset.mem_union, Pressed, Bool.and_eq_true, Bool.not_eq_true']
  split
  · rename_i pressed
    simp only [mem_equalRange, pressed, and_self, true_and]
  · rename_i still
    simp only [Finset.notMem_empty, still, false_and, or_self]

theorem mem_foldl_union {α β : Type*} [DecidableEq β] (part : α → Finset β) (items : List α)
    (found : Finset β) (x : β) :
    x ∈ items.foldl (fun found item => found ∪ part item) found ↔
      x ∈ found ∨ ∃ item ∈ items, x ∈ part item := by
  induction items generalizing found with
  | nil => simp
  | cons item rest ih => simp [ih, or_assoc]

variable [DecidableEq K]

theorem mem_axisListeners (listeners : ListenerMap L) (old new : ControlValues K)
    (counter : Fin 16) (listener : L) :
    listener ∈ axisListeners listeners old new counter ↔
      Moved old new counter ∧ Under listeners counter listener := by
  simp only [axisListeners, Moved]
  split
  · rename_i moved
    simp only [mem_equalRange, moved, ne_eq, not_false_eq_true, true_and]
  · rename_i still
    simp only [Finset.notMem_empty, still, false_and]

theorem mem_listenersToInvoke (listeners : ListenerMap L) (old new : ControlValues K)
    (listener : L) :
    listener ∈ listenersToInvoke listeners old new ↔ Collected listeners old new listener := by
  simp only [listenersToInvoke, mem_foldl_union, Finset.notMem_empty, false_or,
    mem_buttonListeners, mem_axisListeners, Collected]

@[simp] theorem cycle_values (listeners : ListenerMap L) (old new : ControlValues K) :
    (cycle listeners old new).1 = new := by
  unfold cycle
  split
  · rfl
  · rename_i same
    simp only [ne_eq, not_or, not_not] at same
    cases old
    cases new
    rw [ControlValues.mk.injEq]
    exact ⟨same.1.symm, same.2.symm⟩

/-- The fast path loses nothing: equal snapshots would have collected nobody. -/
theorem mem_cycle (listeners : ListenerMap L) (old new : ControlValues K) (listener : L) :
    listener ∈ (cycle listeners old new).2 ↔ Collected listeners old new listener := by
  by_cases changed : new.buttonValues ≠ old.buttonValues ∨ new.joystickValues ≠ old.joystickValues
  · simp only [cycle, changed, ↓reduceIte, mem_listenersToInvoke]
  · have same : new = old := by
      have published := cycle_values listeners old new
      simpa only [cycle, changed, ↓reduceIte, eq_comm] using published
    subst same
    simpa only [cycle, changed, ↓reduceIte, Finset.notMem_empty, false_iff] using
      not_collected_self listeners new listener

end Cycle

section Run

variable [DecidableEq K] [Zero K] [DecidableEq L]

/-- The values the polling thread has published after so many cycles, and the
listeners it invokes in the cycle that follows. The table may be another one in
every cycle. -/
def valuesAfter (tables : Nat → ListenerMap L) (joysticks : Nat → Joystick K) :
    Nat → ControlValues K
  | 0 => initialValues
  | n + 1 => (cycle (tables n) (valuesAfter tables joysticks n) (pollControls (joysticks n))).1

def invoked (tables : Nat → ListenerMap L) (joysticks : Nat → Joystick K) (n : Nat) : Finset L :=
  (cycle (tables n) (valuesAfter tables joysticks n) (pollControls (joysticks n))).2

end Run

section Snapshots

variable [Zero K]

/-- All buttons released and all axes 0, and then what each poll has read. -/
def snapshot (joysticks : Nat → Joystick K) : Nat → ControlValues K
  | 0 => initialValues
  | n + 1 => pollControls (joysticks n)

theorem snapshot_edges_alternate (joysticks : Nat → Joystick K) (counter : Fin 11) :
    SignalEdges.Alternate
      (fun n => Pressed (snapshot joysticks n) (snapshot joysticks (n + 1)) counter)
      (fun n => Released (snapshot joysticks n) (snapshot joysticks (n + 1)) counter) :=
  SignalEdges.edges_alternate
    (fun n => (snapshot joysticks n).buttonAt counter) (initialValues_buttonAt counter)

variable [DecidableEq K] [DecidableEq L]

theorem valuesAfter_eq (tables : Nat → ListenerMap L) (joysticks : Nat → Joystick K) (n : Nat) :
    valuesAfter tables joysticks n = snapshot joysticks n := by
  cases n with
  | zero => rfl
  | succ n => exact cycle_values (tables n) _ _

theorem invoked_eq (tables : Nat → ListenerMap L) (joysticks : Nat → Joystick K) (n : Nat) :
    invoked tables joysticks n =
      (cycle (tables n) (snapshot joysticks n) (snapshot joysticks (n + 1))).2 := by
  unfold invoked
  rw [valuesAfter_eq]
  rfl

theorem mem_invoked (tables : Nat → ListenerMap L) (joysticks : Nat → Joystick K) (n : Nat)
    (listener : L) :
    listener ∈ invoked tables joysticks n ↔
      Collected (tables n) (snapshot joysticks n) (snapshot joysticks (n + 1)) listener := by
  rw [invoked_eq, mem_cycle]

/-- The listener is registered, and under no other key than the one given. -/
def OnlyUnder (listeners : ListenerMap L) (code : Nat) (listener : L) : Prop :=
  Under listeners code listener ∧ ∀ other, Under listeners other listener → other = code

/-- Every cycle invokes exactly the listeners that are due, and so the listeners
of one button's two keys take turns. -/
structure DispatchesEdges (tables : Nat → ListenerMap L) (joysticks : Nat → Joystick K) :
    Prop where
  exact : ∀ n listener, listener ∈ invoked tables joysticks n ↔
    Due (tables n) (snapshot joysticks n) (snapshot joysticks (n + 1)) listener
  alternate : ∀ counter ∈ buttonCounters, ∀ down up,
    (∀ n, OnlyUnder (tables n) counter down) → (∀ n, OnlyUnder (tables n) (counter + 20) up) →
    SignalEdges.Alternate (fun n => down ∈ invoked tables joysticks n)
      (fun n => up ∈ invoked tables joysticks n)

end Snapshots

/-- The registrations hide the difference between the two rules: whoever listens
to the UP key of a button that goes down is due for another reason, and whoever
listens to the UP key of a button that comes up is collected for another one. -/
structure Masked (listeners : ListenerMap L) (old new : ControlValues K) : Prop where
  pressed : ∀ counter ∈ buttonCounters, Pressed old new counter →
    ∀ listener, Under listeners (counter + 20) listener → Due listeners old new listener
  released : ∀ counter ∈ buttonCounters, Released old new counter →
    ∀ listener, Under listeners (counter + 20) listener → Collected listeners old new listener

theorem collected_iff_due_iff (listeners : ListenerMap L) (old new : ControlValues K) :
    (∀ listener, Collected listeners old new listener ↔ Due listeners old new listener) ↔
      Masked listeners old new := by
  constructor
  · intro same
    constructor
    · intro counter inLoop pressed listener under
      exact (same listener).mp (.inl ⟨counter, inLoop, pressed, .inr under⟩)
    · intro counter inLoop released listener under
      exact (same listener).mpr (.inr (.inl ⟨counter, inLoop, released, under⟩))
  · intro masked listener
    constructor
    · rintro (⟨counter, inLoop, pressed, down | up⟩ | moved)
      · exact .inl ⟨counter, inLoop, pressed, down⟩
      · exact masked.pressed counter inLoop pressed listener up
      · exact .inr (.inr moved)
    · rintro (⟨counter, inLoop, pressed, down⟩ | ⟨counter, inLoop, released, up⟩ | moved)
      · exact .inl ⟨counter, inLoop, pressed, .inl down⟩
      · exact masked.released counter inLoop released listener up
      · exact .inr moved

theorem mem_buttonCounters_iff (counter : Fin 11) :
    counter ∈ buttonCounters ↔ 1 ≤ counter.val ∧ counter.val ≤ 10 := by
  revert counter
  decide

theorem mem_axisCounters_iff (counter : Fin 16) :
    counter ∈ axisCounters ↔ 11 ≤ counter.val ∧ counter.val ≤ 15 := by
  revert counter
  decide

/-- A listener of one DOWN key alone is due exactly when its button goes down. -/
theorem due_down_iff {listeners : ListenerMap L} {counter : Fin 11} {listener : L}
    (inLoop : counter ∈ buttonCounters) (only : OnlyUnder listeners counter listener)
    (old new : ControlValues K) :
    Due listeners old new listener ↔ Pressed old new counter := by
  have bounds := (mem_buttonCounters_iff counter).mp inLoop
  constructor
  · rintro (⟨other, _, pressed, under⟩ | ⟨other, _, _, under⟩ | ⟨other, inAxes, _, under⟩)
    · have same : other = counter := Fin.ext (only.2 _ under)
      exact same ▸ pressed
    · have same := only.2 _ under
      omega
    · have same := only.2 _ under
      have range := (mem_axisCounters_iff other).mp inAxes
      omega
  · intro pressed
    exact .inl ⟨counter, inLoop, pressed, only.1⟩

theorem due_up_iff {listeners : ListenerMap L} {counter : Fin 11} {listener : L}
    (inLoop : counter ∈ buttonCounters) (only : OnlyUnder listeners (counter + 20) listener)
    (old new : ControlValues K) :
    Due listeners old new listener ↔ Released old new counter := by
  have bounds := (mem_buttonCounters_iff counter).mp inLoop
  constructor
  · rintro (⟨other, inButtons, _, under⟩ | ⟨other, _, released, under⟩ | ⟨other, inAxes, _, under⟩)
    · have same := only.2 _ under
      have range := (mem_buttonCounters_iff other).mp inButtons
      omega
    · have same : other = counter := Fin.ext (Nat.add_right_cancel (only.2 _ under))
      exact same ▸ released
    · have same := only.2 _ under
      have range := (mem_axisCounters_iff other).mp inAxes
      omega
  · intro released
    exact .inr (.inl ⟨counter, inLoop, released, only.1⟩)

section Runs

variable [Zero K] [DecidableEq K] [DecidableEq L]

/-- Over a whole run, the polling loop is an edge detector exactly when every
cycle's registrations mask its UP rule. -/
theorem dispatchesEdges_iff (tables : Nat → ListenerMap L) (joysticks : Nat → Joystick K) :
    DispatchesEdges tables joysticks ↔
      ∀ n, Masked (tables n) (snapshot joysticks n) (snapshot joysticks (n + 1)) := by
  constructor
  · intro dispatches n
    rw [← collected_iff_due_iff]
    intro listener
    rw [← mem_invoked, dispatches.exact]
  · intro masked
    have exact : ∀ n listener, listener ∈ invoked tables joysticks n ↔
        Due (tables n) (snapshot joysticks n) (snapshot joysticks (n + 1)) listener := by
      intro n listener
      rw [mem_invoked]
      exact (collected_iff_due_iff _ _ _).mpr (masked n) listener
    refine ⟨exact, ?_⟩
    intro counter inLoop down up onlyDown onlyUp
    refine (snapshot_edges_alternate joysticks counter).congr ?_ ?_
    · intro n
      exact (exact n down).trans (due_down_iff inLoop (onlyDown n) _ _)
    · intro n
      exact (exact n up).trans (due_up_iff inLoop (onlyUp n) _ _)

/-- One press of A, held for one cycle. -/
def tapA : Nat → Joystick ℚ
  | 0 => ⟨fun button => button == 1, fun _ => 0⟩
  | _ + 1 => ⟨fun _ => false, fun _ => 0⟩

/-- A listener of AUP runs when A goes down. -/
theorem not_dispatchesEdges_tapA :
    ¬DispatchesEdges (fun _ => {(Listenable.aUp, 0)} : Nat → ListenerMap Nat) tapA := by
  intro dispatches
  have due := (dispatches.exact 0 0).mp (by decide +kernel)
  have only : OnlyUnder ({(Listenable.aUp, 0)} : ListenerMap Nat) 21 0 := by
    refine ⟨⟨_, Multiset.mem_singleton_self _, rfl, rfl⟩, ?_⟩
    rintro other ⟨entry, member, code, _⟩
    rw [Multiset.mem_singleton.mp member] at code
    exact code.symm
  have released := (due_up_iff (by decide : (1 : Fin 11) ∈ buttonCounters) only _ _).mp due
  exact absurd released.1 (by decide +kernel)

end Runs

end FrcRobot.ListenerManager
