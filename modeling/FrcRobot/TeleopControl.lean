import FrcRobot.RobotTemplate
import FrcRobot.TeleopMechanisms

set_option autoImplicit false

namespace FrcRobot.TeleopMechanisms

open Global LastWrite ListenerManager

variable {K : Type*}

theorem trigger_cases {motor : Motor} {counter : Fin 11} (trigger : counter ∈ triggers motor) :
    motor = .mShooter ∧ (counter = aButton ∨ counter = bButton) ∨
      motor ≠ .mShooter ∧ (counter = lbButton ∨ counter = rbButton) := by
  cases motor with
  | mShooter => exact .inl ⟨rfl, by simpa [triggers] using trigger⟩
  | mArmMove | mArmRoll => exact .inr ⟨by decide, by simpa [triggers] using trigger⟩
  | rotFR | rotFL | rotBk | drvFR | drvFL | drvBk => cases trigger

theorem forall_bumpers {P : Fin 11 → Prop} :
    (∀ counter ∈ triggers .mArmMove, P counter) ↔ P lbButton ∧ P rbButton := by
  simp [triggers]

section Order

variable [DecidableEq K]

/-- The speeds and whether the cocking arm's loop has been started. -/
def SameOutcome (first second : Mechanisms) : Prop :=
  (∀ motor, first.speeds motor = second.speeds motor) ∧
    first.arm.timerIsRunning = second.arm.timerIsRunning

/-- Whichever order the set is iterated in, the cycle comes to the same. -/
def OrderIndependent (global : Global) (old new : ControlValues K) : Prop :=
  ∀ first second, InvokesIn global old new first → InvokesIn global old new second →
    ∀ start, SameOutcome (invokeAll start first) (invokeAll start second)

/-- The two bumpers ask opposite speeds of the arm. -/
theorem not_orderIndependent_of_both (global : Global) {old new : ControlValues K}
    (lb : Pressed old new lbButton) (rb : Pressed old new rbButton) : ¬OrderIndependent global old new := by
  intro independent
  have lbFires : KeyFires old new .lbDown := (keyFires_button (by decide) (.inl rfl)).mpr lb
  have rbFires : KeyFires old new .rbDown := (keyFires_button (by decide) (.inl rfl)).mpr rb
  have lbBound : (Listenable.lbDown, BoundCall.setSpeed .mArmMove (1 / 10)) ∈ teleopBindings := by
    simp [teleopBindings]
  have rbBound : (Listenable.rbDown, BoundCall.setSpeed .mArmMove (-1 / 10)) ∈ teleopBindings := by
    simp [teleopBindings]
  obtain ⟨first, firstInvokes, firstLast⟩ := exists_invokesIn_ending global lbBound lbFires
  obtain ⟨second, secondInvokes, secondLast⟩ := exists_invokesIn_ending global rbBound rbFires
  let start : Mechanisms := ⟨fun _ => none, ⟨true, false⟩⟩
  have same := (independent first second firstInvokes secondInvokes start).1 .mArmMove
  rw [firstLast, secondLast, Option.some.injEq] at same
  exact absurd same (by decide +kernel)

/-- As long as neither A nor B goes down, the order matters exactly when both
bumpers go down in one cycle. -/
theorem orderIndependent_iff (global : Global) (old new : ControlValues K)
    (a : ¬Pressed old new aButton) (b : ¬Pressed old new bButton) :
    OrderIndependent global old new ↔ ¬(Pressed old new lbButton ∧ Pressed old new rbButton) := by
  constructor
  · intro independent both
    exact not_orderIndependent_of_both global both.1 both.2 independent
  · intro apart first second firstInvokes secondInvokes start
    have same : ∀ listener, listener ∈ first ↔ listener ∈ second :=
      fun listener => (firstInvokes.mem_iff listener).trans (secondInvokes.mem_iff listener).symm
    constructor
    · intro motor
      rw [invokeAll_speeds, invokeAll_speeds]
      apply lastValue_congr same
      intro one inFirst other otherInFirst value another written rewritten
      obtain ⟨counter, trigger, pressed, pow, rfl, speed⟩ :=
        collected_speed ((firstInvokes.mem_iff one).mp inFirst) written
      obtain ⟨counter', trigger', pressed', pow', rfl, speed'⟩ :=
        collected_speed ((firstInvokes.mem_iff other).mp otherInFirst) rewritten
      rcases trigger_cases trigger with ⟨_, rfl | rfl⟩ | ⟨arm, buttons⟩
      · exact absurd pressed a
      · exact absurd pressed b
      · rcases trigger_cases trigger' with ⟨shooter, _⟩ | ⟨_, buttons'⟩
        · exact absurd shooter arm
        · have one : counter = counter' := by
            rcases buttons with rfl | rfl <;> rcases buttons' with rfl | rfl
            · rfl
            · exact absurd ⟨pressed, pressed'⟩ apart
            · exact absurd ⟨pressed', pressed⟩ apart
            · rfl
          rw [speed arm, speed' arm, one]
    · have silent : ∀ order, InvokesIn global old new order →
          ∀ listener ∈ order, timerWritten listener = none := by
        intro order invokes listener member
        cases written : timerWritten listener with
        | none => rfl
        | some running =>
            rcases collected_timer ((invokes.mem_iff listener).mp member) written with down | down
            · exact absurd down a
            · exact absurd down b
      rw [invokeAll_timer, invokeAll_timer, lastValue_of_silent (silent first firstInvokes),
        lastValue_of_silent (silent second secondInvokes)]

/-- A snapshot with all axes at rest. -/
def holding (buttons : List Nat) : ControlValues ℚ :=
  pollControls ⟨fun button => button ∈ buttons, fun _ => 0⟩

theorem orderIndependent_iff_lb :
    OrderIndependent (RobotTemplate.initial .red).global (holding []) (holding [5]) :=
  (orderIndependent_iff _ (holding []) (holding [5]) (by decide) (by decide)).mpr (by decide)

theorem not_orderIndependent_bumpers :
    ¬OrderIndependent (RobotTemplate.initial .red).global (holding []) (holding [5, 6]) :=
  not_orderIndependent_of_both _ (by decide) (by decide)

end Order

section Held

variable [Zero K]

def Held (joysticks : Nat → Joystick K) (n : Nat) (counter : Fin 11) : Prop :=
  (snapshot joysticks n).buttonAt counter = true

theorem not_held_zero (joysticks : Nat → Joystick K) (counter : Fin 11) :
    ¬Held joysticks 0 counter := by
  simp [Held, snapshot]

theorem pressed_iff (joysticks : Nat → Joystick K) (n : Nat) (counter : Fin 11) :
    Pressed (snapshot joysticks n) (snapshot joysticks (n + 1)) counter ↔
      ¬Held joysticks n counter ∧ Held joysticks (n + 1) counter := by
  simp [Pressed, Held]

/-- A button that is held has been pressed. -/
theorem pressed_of_held {joysticks : Nat → Joystick K} {n : Nat} {counter : Fin 11}
    (held : Held joysticks n counter) :
    ∃ m, Pressed (snapshot joysticks m) (snapshot joysticks (m + 1)) counter := by
  induction n with
  | zero => exact absurd held (not_held_zero joysticks counter)
  | succ n ih =>
      by_cases before : Held joysticks n counter
      · exact ih before
      · exact ⟨n, (pressed_iff joysticks n counter).mpr ⟨before, held⟩⟩

/-- A motor whose buttons are all up was last asked to stop, if anything, and
the shooter was last asked to turn while one of its buttons is down. -/
structure HeldControl (joysticks : Nat → Joystick K) (n : Nat) (mechanisms : Mechanisms) :
    Prop where
  stopped : ∀ motor ∈ [Motor.mShooter, .mArmMove, .mArmRoll],
    (∀ counter ∈ triggers motor, ¬Held joysticks n counter) →
      mechanisms.speeds motor = none ∨ mechanisms.speeds motor = some 0
  shooting : Held joysticks n aButton ∨ Held joysticks n bButton → mechanisms.speeds .mShooter = some (-1)

end Held

section Run

variable [Zero K] [DecidableEq K]

/-- An order for each cycle of a run. -/
def InvokesRun (global : Global) (joysticks : Nat → Joystick K)
    (orders : Nat → List SharedCmd) : Prop :=
  ∀ n, Enumerates (orders n) (invoked (fun _ => teleopListeners global) joysticks n)

def mechanismsAfter (arm : CockArm) (orders : Nat → List SharedCmd) : Nat → Mechanisms
  | 0 => ⟨fun _ => none, arm⟩
  | n + 1 => invokeAll (mechanismsAfter arm orders n) (orders n)

theorem InvokesRun.invokesIn {global : Global} {joysticks : Nat → Joystick K}
    {orders : Nat → List SharedCmd} (invokes : InvokesRun global joysticks orders) (n : Nat) :
    InvokesIn global (snapshot joysticks n) (snapshot joysticks (n + 1)) (orders n) := by
  have here := invokes n
  rw [invoked_eq] at here
  exact here

theorem exists_run (global : Global) (joysticks : Nat → Joystick K) :
    ∃ orders, InvokesRun global joysticks orders :=
  ⟨fun n => (invoked (fun _ => teleopListeners global) joysticks n).toList,
    fun _ => enumerates_toList _⟩

/-- The order of one cycle can be chosen, the others being what they may. -/
theorem exists_invokesRun {global : Global} {joysticks : Nat → Joystick K} {n : Nat}
    {order : List SharedCmd}
    (invokes : InvokesIn global (snapshot joysticks n) (snapshot joysticks (n + 1)) order) :
    ∃ orders, InvokesRun global joysticks orders ∧ orders n = order := by
  refine ⟨fun k => if k = n then order
    else (invoked (fun _ => teleopListeners global) joysticks k).toList, ?_, if_pos rfl⟩
  intro k
  by_cases here : k = n
  · subst here
    simp only [↓reduceIte]
    rw [invoked_eq]
    exact invokes
  · simp only [here, ↓reduceIte]
    exact enumerates_toList _

/-- A motor whose buttons have never been held has never been asked anything. -/
theorem speed_none {global : Global} {joysticks : Nat → Joystick K} {orders : Nat → List SharedCmd}
    (invokes : InvokesRun global joysticks orders) (arm : CockArm) {motor : Motor} (n : Nat)
    (never : ∀ m ≤ n, ∀ counter ∈ triggers motor, ¬Held joysticks m counter) :
    (mechanismsAfter arm orders n).speeds motor = none := by
  induction n with
  | zero => rfl
  | succ n ih =>
      have still : ∀ counter ∈ triggers motor,
          ¬Pressed (snapshot joysticks n) (snapshot joysticks (n + 1)) counter := by
        intro counter trigger pressed
        exact never (n + 1) (Nat.le_refl _) counter trigger ((pressed_iff _ _ _).mp pressed).2
      have before := ih fun m early => never m (Nat.le_succ_of_le early)
      exact (speed_kept (invokes.invokesIn n) still _).trans before

/-- Once a bumper has been held, the arm has been asked to move and never to stop. -/
theorem arm_speed {global : Global} {joysticks : Nat → Joystick K} {orders : Nat → List SharedCmd}
    (invokes : InvokesRun global joysticks orders) (arm : CockArm) {m : Nat} (n : Nat)
    (early : m ≤ n) (held : Held joysticks m lbButton ∨ Held joysticks m rbButton) :
    ∃ pow, (mechanismsAfter arm orders n).speeds .mArmMove = some pow ∧ pow ≠ 0 := by
  induction n generalizing m with
  | zero =>
      have first : m = 0 := Nat.le_zero.mp early
      subst first
      rcases held with lb | rb
      · exact absurd lb (not_held_zero joysticks lbButton)
      · exact absurd rb (not_held_zero joysticks rbButton)
  | succ n ih =>
      by_cases pressed : Pressed (snapshot joysticks n) (snapshot joysticks (n + 1)) lbButton ∨
          Pressed (snapshot joysticks n) (snapshot joysticks (n + 1)) rbButton
      · exact arm_moves (invokes.invokesIn n) pressed _
      · have still : ∀ counter ∈ triggers .mArmMove,
            ¬Pressed (snapshot joysticks n) (snapshot joysticks (n + 1)) counter :=
          forall_bumpers.mpr (not_or.mp pressed)
        have kept := speed_kept (invokes.invokesIn n) still (mechanismsAfter arm orders n)
        have before : ∃ k ≤ n, Held joysticks k lbButton ∨ Held joysticks k rbButton := by
          by_cases old : m ≤ n
          · exact ⟨m, old, held⟩
          · have now : m = n + 1 := by omega
            subst now
            -- What is held now without being pressed was held before.
            refine ⟨n, Nat.le_refl n, ?_⟩
            by_contra up
            rcases held with lb | rb
            · exact pressed (.inl ((pressed_iff _ _ _).mpr ⟨fun down => up (.inl down), lb⟩))
            · exact pressed (.inr ((pressed_iff _ _ _).mpr ⟨fun down => up (.inr down), rb⟩))
        obtain ⟨k, old, heldBefore⟩ := before
        obtain ⟨pow, speed, moving⟩ := ih old heldBefore
        exact ⟨pow, kept.trans speed, moving⟩

/-- The arm is not stopped when the last of the bumpers is let go of. -/
theorem not_heldControl_of_bumper {global : Global} {joysticks : Nat → Joystick K}
    {orders : Nat → List SharedCmd} (invokes : InvokesRun global joysticks orders) (arm : CockArm)
    {m n : Nat} (early : m ≤ n) (held : Held joysticks m lbButton ∨ Held joysticks m rbButton)
    (up : ¬(Held joysticks n lbButton ∨ Held joysticks n rbButton)) :
    ¬HeldControl joysticks n (mechanismsAfter arm orders n) := by
  intro control
  obtain ⟨pow, speed, moving⟩ := arm_speed invokes arm n early held
  have released : ∀ counter ∈ triggers .mArmMove, ¬Held joysticks n counter :=
    forall_bumpers.mpr (not_or.mp up)
  rcases control.stopped .mArmMove (by simp) released with never | zero
  · rw [speed] at never
    cases never
  · rw [speed, Option.some.injEq] at zero
    exact moving zero

/-- A press of A or of B may end with a request to stop the shooter. -/
theorem exists_shooter_stopped (global : Global) {joysticks : Nat → Joystick K} (arm : CockArm)
    {n : Nat} (held : Held joysticks n aButton ∨ Held joysticks n bButton) :
    ∃ orders m, InvokesRun global joysticks orders ∧
      (Held joysticks m aButton ∨ Held joysticks m bButton) ∧
      (mechanismsAfter arm orders m).speeds .mShooter = some 0 := by
  have press : ∃ m key, (Held joysticks (m + 1) aButton ∨ Held joysticks (m + 1) bButton) ∧
      (key, BoundCall.setSpeed .mShooter 0) ∈ teleopBindings ∧
      KeyFires (snapshot joysticks m) (snapshot joysticks (m + 1)) key := by
    rcases held with a | b
    · obtain ⟨m, pressed⟩ := pressed_of_held a
      exact ⟨m, .aUp, .inl ((pressed_iff _ _ _).mp pressed).2, by simp [teleopBindings],
        (keyFires_button (by decide) (.inr rfl)).mpr pressed⟩
    · obtain ⟨m, pressed⟩ := pressed_of_held b
      exact ⟨m, .bUp, .inr ((pressed_iff _ _ _).mp pressed).2, by simp [teleopBindings],
        (keyFires_button (by decide) (.inr rfl)).mpr pressed⟩
  obtain ⟨m, key, down, bound, fires⟩ := press
  obtain ⟨order, invokes, last⟩ := exists_invokesIn_ending global bound fires
  obtain ⟨orders, run, here⟩ := exists_invokesRun invokes
  refine ⟨orders, m + 1, run, down, ?_⟩
  show (invokeAll (mechanismsAfter arm orders m) (orders m)).speeds .mShooter = some 0
  rw [here]
  exact last _

/-- The mechanisms follow the held buttons, whatever the orders, exactly if A
and B are never touched and the bumpers never both let go of. -/
theorem heldControl_iff (global : Global) (arm : CockArm) (joysticks : Nat → Joystick K) :
    (∀ orders, InvokesRun global joysticks orders →
      ∀ n, HeldControl joysticks n (mechanismsAfter arm orders n)) ↔
    (∀ n, ¬Held joysticks n aButton ∧ ¬Held joysticks n bButton) ∧
      ∀ m n, m ≤ n → Held joysticks m lbButton ∨ Held joysticks m rbButton →
        Held joysticks n lbButton ∨ Held joysticks n rbButton := by
  constructor
  · intro controls
    constructor
    · intro n
      apply not_or.mp
      intro held
      obtain ⟨orders, m, invokes, down, stopped⟩ := exists_shooter_stopped global arm held
      have turning := (controls orders invokes m).shooting down
      rw [stopped, Option.some.injEq] at turning
      exact absurd turning (by decide)
    · intro m n early held
      by_contra up
      obtain ⟨orders, invokes⟩ := exists_run global joysticks
      exact not_heldControl_of_bumper invokes arm early held up (controls orders invokes n)
  · intro quiet orders invokes n
    refine ⟨?_, fun held => absurd held (not_or.mpr (quiet.1 n))⟩
    intro motor _ released
    left
    apply speed_none invokes arm n
    intro m early counter trigger down
    rcases trigger_cases trigger with ⟨_, rfl | rfl⟩ | ⟨bumpers, button⟩
    · exact (quiet.1 m).1 down
    · exact (quiet.1 m).2 down
    · have held : Held joysticks m lbButton ∨ Held joysticks m rbButton := by
        rcases button with rfl | rfl
        · exact .inl down
        · exact .inr down
      have both : triggers motor = [lbButton, rbButton] := by
        cases motor with
        | mArmMove | mArmRoll => rfl
        | mShooter => exact absurd rfl bumpers
        | rotFR | rotFL | rotBk | drvFR | drvFL | drvBk => cases trigger
      rw [both] at released
      rcases quiet.2 m n early held with lb | rb
      · exact released lbButton (by decide) lb
      · exact released rbButton (by decide) rb

/-- LB is tapped. -/
def tapLb : Nat → Joystick ℚ
  | 0 => ⟨fun button => button = 5, fun _ => 0⟩
  | _ + 1 => ⟨fun _ => false, fun _ => 0⟩

theorem not_heldControl_tapLb :
    ¬∀ orders, InvokesRun (RobotTemplate.initial .red).global tapLb orders →
      ∀ n, HeldControl tapLb n (mechanismsAfter ⟨true, false⟩ orders n) := by
  intro controls
  have pressed : Held tapLb 1 lbButton ∨ Held tapLb 1 rbButton := .inl rfl
  have released : ¬(Held tapLb 2 lbButton ∨ Held tapLb 2 rbButton) := by
    unfold Held
    decide
  obtain ⟨orders, invokes⟩ := exists_run (RobotTemplate.initial .red).global tapLb
  have early : 1 ≤ 2 := by decide
  exact not_heldControl_of_bumper invokes _ early pressed released (controls orders invokes 2)

end Run

end FrcRobot.TeleopMechanisms
