import FrcRobot.CockArm
import FrcRobot.Global
import FrcRobot.LastWrite
import FrcRobot.ListenerManagerDispatch

set_option autoImplicit false

/- What the bindings of initializeTeleop do to the mechanisms, cycle by cycle,
for whatever order the set of listeners is iterated in. -/
namespace FrcRobot.TeleopMechanisms

open Global LastWrite ListenerManager

variable {K : Type*}

/-- The speed last requested of each motor, if any, and the cocking arm. -/
structure Mechanisms where
  speeds : Motor → Option ℚ
  arm : CockArm

def perform (mechanisms : Mechanisms) : BoundCall → Mechanisms
  | .setSpeed motor pow =>
      { mechanisms with speeds := Function.update mechanisms.speeds motor (some pow) }
  | .cockArmCancel => { mechanisms with arm := mechanisms.arm.cancel }
  | .cockArmStart => { mechanisms with arm := mechanisms.arm.start }
  | .stopArmCock => { mechanisms with arm := mechanisms.arm.stopArmCock }
  | .startArmCock => { mechanisms with arm := mechanisms.arm.startArmCock }
  | .gyroReset | .steer => mechanisms

def invokeAll (mechanisms : Mechanisms) (listeners : List SharedCmd) : Mechanisms :=
  listeners.foldl (fun mechanisms listener => perform mechanisms listener.call) mechanisms

/-- The table after an initializeTeleop. -/
def teleopListeners (global : Global) : ListenerMap SharedCmd :=
  global.clearListeners.initializeTeleop.listeners

def speedWritten (motor : Motor) (listener : SharedCmd) : Option (Option ℚ) :=
  match listener.call with
  | .setSpeed other pow => if other = motor then some (some pow) else none
  | _ => none

def timerWritten (listener : SharedCmd) : Option Bool :=
  match listener.call with
  | .cockArmCancel => some false
  | .cockArmStart => some true
  | _ => none

theorem invokeAll_speeds (mechanisms : Mechanisms) (listeners : List SharedCmd) (motor : Motor) :
    (invokeAll mechanisms listeners).speeds motor =
      lastValue (speedWritten motor) (mechanisms.speeds motor) listeners := by
  induction listeners generalizing mechanisms with
  | nil => rfl
  | cons listener rest ih =>
      obtain ⟨address, call⟩ := listener
      have later := ih (perform mechanisms call)
      refine later.trans ?_
      rw [lastValue_cons]
      congr 1
      cases call with
      | setSpeed other pow =>
          by_cases same : other = motor
          · subst same
            simp [perform, speedWritten]
          · have apart : motor ≠ other := fun here => same here.symm
            simp [perform, speedWritten, same, apart]
      | gyroReset | cockArmCancel | cockArmStart | stopArmCock | startArmCock | steer => rfl

theorem invokeAll_timer (mechanisms : Mechanisms) (listeners : List SharedCmd) :
    (invokeAll mechanisms listeners).arm.timerIsRunning =
      lastValue timerWritten mechanisms.arm.timerIsRunning listeners := by
  induction listeners generalizing mechanisms with
  | nil => rfl
  | cons listener rest ih =>
      obtain ⟨address, call⟩ := listener
      have later := ih (perform mechanisms call)
      refine later.trans ?_
      rw [lastValue_cons]
      congr 1
      cases call with
      | cockArmCancel => exact mechanisms.arm.cancel_timerIsRunning
      | cockArmStart => exact mechanisms.arm.start_timerIsRunning
      | setSpeed | gyroReset | stopArmCock | startArmCock | steer => rfl

/-- The control of this key has done what run collects its listeners for. -/
def KeyFires (old new : ControlValues K) (key : Listenable) : Prop :=
  (∃ counter ∈ buttonCounters, Pressed old new counter ∧
    (key.value = counter ∨ key.value = counter + 20)) ∨
  ∃ counter ∈ axisCounters, Moved old new counter ∧ key.value = counter

theorem mem_teleopListeners (global : Global) (key : Listenable) (call : BoundCall) :
    (key, call) ∈ teleopBindings ↔
      ∃ entry ∈ teleopListeners global, entry.1 = key ∧ entry.2.call = call := by
  have exactly : HoldsExactly (teleopListeners global) teleopBindings :=
    initializeTeleop_holdsExactly rfl
  rw [← Multiset.mem_coe, ← exactly.calls, boundCalls, Multiset.mem_map]
  simp only [Prod.mk.injEq]

theorem collected_call {global : Global} {old new : ControlValues K} {listener : SharedCmd}
    (collected : Collected (teleopListeners global) old new listener) :
    ∃ key, (key, listener.call) ∈ teleopBindings ∧ KeyFires old new key := by
  have bound : ∀ code, Under (teleopListeners global) code listener →
      ∃ key, key.value = code ∧ (key, listener.call) ∈ teleopBindings := by
    intro code under
    obtain ⟨entry, member, same, here⟩ := under
    refine ⟨entry.1, same, (mem_teleopListeners global _ _).mpr ⟨entry, member, rfl, ?_⟩⟩
    rw [here]
  rcases collected with ⟨counter, inLoop, pressed, down | up⟩ | ⟨counter, inLoop, moved, under⟩
  · obtain ⟨key, code, member⟩ := bound counter down
    exact ⟨key, member, .inl ⟨counter, inLoop, pressed, .inl code⟩⟩
  · obtain ⟨key, code, member⟩ := bound (counter + 20) up
    exact ⟨key, member, .inl ⟨counter, inLoop, pressed, .inr code⟩⟩
  · obtain ⟨key, code, member⟩ := bound counter under
    exact ⟨key, member, .inr ⟨counter, inLoop, moved, code⟩⟩

theorem exists_collected (global : Global) {old new : ControlValues K} {key : Listenable}
    {call : BoundCall} (bound : (key, call) ∈ teleopBindings) (fires : KeyFires old new key) :
    ∃ listener, listener.call = call ∧ Collected (teleopListeners global) old new listener := by
  obtain ⟨entry, member, same, calls⟩ := (mem_teleopListeners global key call).mp bound
  have under : ∀ code, key.value = code → Under (teleopListeners global) code entry.2 :=
    fun code value => ⟨entry, member, same ▸ value, rfl⟩
  refine ⟨entry.2, calls, ?_⟩
  rcases fires with ⟨counter, inLoop, pressed, down | up⟩ | ⟨counter, inLoop, moved, value⟩
  · exact .inl ⟨counter, inLoop, pressed, .inl (under counter down)⟩
  · exact .inl ⟨counter, inLoop, pressed, .inr (under (counter + 20) up)⟩
  · exact .inr ⟨counter, inLoop, moved, under counter value⟩

/-- The counters at which run looks for these buttons. -/
abbrev aButton : Fin 11 := 1
abbrev bButton : Fin 11 := 2
abbrev lbButton : Fin 11 := 5
abbrev rbButton : Fin 11 := 6

/-- The buttons that the bindings of each motor stand under. -/
def triggers : Motor → List (Fin 11)
  | .mShooter => [aButton, bButton]
  | .mArmMove | .mArmRoll => [lbButton, rbButton]
  | _ => []

/-- The speed that a press of LB or RB asks of the arm. -/
def armSpeed (counter : Fin 11) : ℚ := if counter = lbButton then 1 / 10 else -1 / 10

theorem keyFires_button {old new : ControlValues K} {counter : Fin 11}
    (inLoop : counter ∈ buttonCounters) {key : Listenable}
    (code : key.value = counter ∨ key.value = counter + 20) :
    KeyFires old new key ↔ Pressed old new counter := by
  have range := (mem_buttonCounters_iff counter).mp inLoop
  constructor
  · intro fires
    rcases fires with ⟨other, inButtons, pressed, value⟩ | ⟨other, inAxes, _, value⟩
    · have bounds := (mem_buttonCounters_iff other).mp inButtons
      have same : other = counter := Fin.ext (by omega)
      exact same ▸ pressed
    · have bounds := (mem_axisCounters_iff other).mp inAxes
      omega
  · intro pressed
    exact .inl ⟨counter, inLoop, pressed, code⟩

/-- All bindings of speeds: which button each stands under, and its speed. -/
theorem speed_bindings {key : Listenable} {motor : Motor} {pow : ℚ}
    (bound : (key, .setSpeed motor pow) ∈ teleopBindings) :
    ∃ counter ∈ triggers motor, counter ∈ buttonCounters ∧
      (key.value = counter ∨ key.value = counter + 20) ∧
      (motor ≠ .mShooter → pow = armSpeed counter) := by
  simp only [teleopBindings, List.mem_cons, Prod.mk.injEq, reduceCtorEq, and_false, false_or,
    or_false, BoundCall.setSpeed.injEq, List.not_mem_nil] at bound
  rcases bound with ⟨rfl, rfl, rfl⟩ | ⟨rfl, rfl, rfl⟩ | ⟨rfl, rfl, rfl⟩ | ⟨rfl, rfl, rfl⟩ |
    ⟨rfl, rfl, rfl⟩ | ⟨rfl, rfl, rfl⟩ | ⟨rfl, rfl, rfl⟩ | ⟨rfl, rfl, rfl⟩
  · exact ⟨1, by decide, by decide, by decide, fun other => absurd rfl other⟩
  · exact ⟨1, by decide, by decide, by decide, fun other => absurd rfl other⟩
  · exact ⟨2, by decide, by decide, by decide, fun other => absurd rfl other⟩
  · exact ⟨2, by decide, by decide, by decide, fun other => absurd rfl other⟩
  · exact ⟨5, by decide, by decide, by decide, fun _ => rfl⟩
  · exact ⟨5, by decide, by decide, by decide, fun _ => rfl⟩
  · exact ⟨6, by decide, by decide, by decide, fun _ => rfl⟩
  · exact ⟨6, by decide, by decide, by decide, fun _ => rfl⟩

theorem speedWritten_iff (motor : Motor) (listener : SharedCmd) (value : Option ℚ) :
    speedWritten motor listener = some value ↔
      ∃ pow, listener.call = .setSpeed motor pow ∧ value = some pow := by
  obtain ⟨address, call⟩ := listener
  cases call with
  | setSpeed other pow =>
      by_cases same : other = motor
      · subst same
        simp [speedWritten, eq_comm]
      · simp [speedWritten, same]
  | gyroReset | cockArmCancel | cockArmStart | stopArmCock | startArmCock | steer =>
      simp [speedWritten]

/-- What a cycle writes to a motor comes from a press of one of its buttons. -/
theorem collected_speed {global : Global} {old new : ControlValues K} {listener : SharedCmd}
    {motor : Motor} {value : Option ℚ}
    (collected : Collected (teleopListeners global) old new listener)
    (written : speedWritten motor listener = some value) :
    ∃ counter ∈ triggers motor, Pressed old new counter ∧ ∃ pow, value = some pow ∧
      (motor ≠ .mShooter → pow = armSpeed counter) := by
  obtain ⟨key, bound, fires⟩ := collected_call collected
  obtain ⟨pow, calls, rfl⟩ := (speedWritten_iff motor listener value).mp written
  rw [calls] at bound
  obtain ⟨counter, trigger, inLoop, code, speeds⟩ := speed_bindings bound
  exact ⟨counter, trigger, (keyFires_button inLoop code).mp fires, pow, rfl, speeds⟩

/-- Only the shooter's buttons start or cancel the cocking arm. -/
theorem collected_timer {global : Global} {old new : ControlValues K} {listener : SharedCmd}
    {running : Bool} (collected : Collected (teleopListeners global) old new listener)
    (written : timerWritten listener = some running) :
    Pressed old new aButton ∨ Pressed old new bButton := by
  obtain ⟨key, bound, fires⟩ := collected_call collected
  have calls : listener.call = .cockArmCancel ∨ listener.call = .cockArmStart := by
    obtain ⟨address, call⟩ := listener
    cases call with
    | cockArmCancel => exact .inl rfl
    | cockArmStart => exact .inr rfl
    | setSpeed | gyroReset | stopArmCock | startArmCock | steer => cases written
  have keys : key ∈ [Listenable.aDown, .bDown, .aUp, .bUp] := by
    rcases calls with calls | calls
    · rw [calls] at bound
      simp only [teleopBindings, List.mem_cons, Prod.mk.injEq, reduceCtorEq, and_false, and_true,
        false_or, or_false, List.not_mem_nil] at bound
      rcases bound with rfl | rfl <;> decide
    · rw [calls] at bound
      simp only [teleopBindings, List.mem_cons, Prod.mk.injEq, reduceCtorEq, and_false, and_true,
        false_or, or_false, List.not_mem_nil] at bound
      rcases bound with rfl | rfl <;> decide
  simp only [List.mem_cons, List.not_mem_nil, or_false] at keys
  rcases keys with rfl | rfl | rfl | rfl
  · exact .inl ((keyFires_button (by decide) (.inl rfl)).mp fires)
  · exact .inr ((keyFires_button (by decide) (.inl rfl)).mp fires)
  · exact .inl ((keyFires_button (by decide) (.inr rfl)).mp fires)
  · exact .inr ((keyFires_button (by decide) (.inr rfl)).mp fires)

section Cycle

variable [DecidableEq K]

/-- One of the orders in which a cycle may invoke the listeners it has found. -/
def InvokesIn (global : Global) (old new : ControlValues K) (order : List SharedCmd) : Prop :=
  Enumerates order (cycle (teleopListeners global) old new).2

theorem InvokesIn.mem_iff {global : Global} {old new : ControlValues K} {order : List SharedCmd}
    (invokes : InvokesIn global old new order) (listener : SharedCmd) :
    listener ∈ order ↔ Collected (teleopListeners global) old new listener :=
  (Enumerates.mem_iff invokes listener).trans (mem_cycle _ _ _ _)

/-- Some order ends with a listener that writes the speed of a pressed button. -/
theorem exists_invokesIn_ending (global : Global) {old new : ControlValues K} {key : Listenable}
    {motor : Motor} {pow : ℚ} (bound : (key, .setSpeed motor pow) ∈ teleopBindings)
    (fires : KeyFires old new key) :
    ∃ order, InvokesIn global old new order ∧
      ∀ start, (invokeAll start order).speeds motor = some pow := by
  obtain ⟨listener, calls, collected⟩ := exists_collected global bound fires
  have found : listener ∈ (cycle (teleopListeners global) old new).2 :=
    (mem_cycle _ _ _ _).mpr collected
  obtain ⟨front, enumerates⟩ := exists_enumerates_ending found
  refine ⟨front ++ [listener], enumerates, ?_⟩
  intro start
  have written : speedWritten motor listener = some (some pow) :=
    (speedWritten_iff _ _ _).mpr ⟨pow, calls, rfl⟩
  rw [invokeAll_speeds, lastValue_append_singleton, written]
  rfl

theorem speed_kept {global : Global} {old new : ControlValues K} {order : List SharedCmd}
    (invokes : InvokesIn global old new order) {motor : Motor}
    (still : ∀ counter ∈ triggers motor, ¬Pressed old new counter) (start : Mechanisms) :
    (invokeAll start order).speeds motor = start.speeds motor := by
  rw [invokeAll_speeds]
  apply lastValue_of_silent
  intro listener member
  cases written : speedWritten motor listener with
  | none => rfl
  | some value =>
      obtain ⟨counter, trigger, pressed, _⟩ :=
        collected_speed ((invokes.mem_iff listener).mp member) written
      exact absurd pressed (still counter trigger)

/-- A press of LB or RB sets the arm moving, one way or the other. -/
theorem arm_moves {global : Global} {old new : ControlValues K} {order : List SharedCmd}
    (invokes : InvokesIn global old new order) (pressed : Pressed old new lbButton ∨ Pressed old new rbButton)
    (start : Mechanisms) :
    ∃ pow, (invokeAll start order).speeds .mArmMove = some pow ∧ pow ≠ 0 := by
  have writer : ∃ listener ∈ order, ∃ value, speedWritten .mArmMove listener = some value := by
    have binding : ∃ key pow, (key, .setSpeed .mArmMove pow) ∈ teleopBindings ∧
        KeyFires old new key := by
      rcases pressed with lb | rb
      · exact ⟨.lbDown, 1 / 10, by simp [teleopBindings],
          (keyFires_button (by decide) (.inl rfl)).mpr lb⟩
      · exact ⟨.rbDown, -1 / 10, by simp [teleopBindings],
          (keyFires_button (by decide) (.inl rfl)).mpr rb⟩
    obtain ⟨key, pow, bound, fires⟩ := binding
    obtain ⟨listener, calls, collected⟩ := exists_collected global bound fires
    exact ⟨listener, (invokes.mem_iff listener).mpr collected, some pow,
      (speedWritten_iff _ _ _).mpr ⟨pow, calls, rfl⟩⟩
  rw [invokeAll_speeds]
  rcases lastValue_cases (speedWritten .mArmMove) (start.speeds .mArmMove) order with
    ⟨_, silent⟩ | ⟨listener, member, written⟩
  · obtain ⟨listener, member, value, written⟩ := writer
    rw [silent listener member] at written
    cases written
  · obtain ⟨counter, _, _, pow, same, speed⟩ :=
      collected_speed ((invokes.mem_iff listener).mp member) written
    refine ⟨pow, same, ?_⟩
    rw [speed (by decide)]
    unfold armSpeed
    split <;> decide +kernel

end Cycle

end FrcRobot.TeleopMechanisms
