import FrcRobot.Global

set_option autoImplicit false

namespace FrcRobot

structure RobotTemplate where
  autonomousHasBeenInit : Bool
  teleopHasBeenInit : Bool
  global : Global

namespace RobotTemplate

/-- The callbacks of the field that do more than feed the watchdog. -/
inductive Callback where
  | robotInit
  | disabledInit
  | autonomousInit
  | teleopInit
  deriving DecidableEq

def autonomousInit (robot : RobotTemplate) : RobotTemplate :=
  if !robot.autonomousHasBeenInit then
    { global := robot.global.clearListeners.initializeAuto
      autonomousHasBeenInit := true
      teleopHasBeenInit := false }
  else robot

def teleopInit (robot : RobotTemplate) : RobotTemplate :=
  if !robot.teleopHasBeenInit then
    { global := robot.global.clearListeners.initializeTeleop
      teleopHasBeenInit := true
      autonomousHasBeenInit := false }
  else robot

def call (robot : RobotTemplate) : Callback → RobotTemplate
  | .robotInit => { robot with global := robot.global.initializeRobot }
  | .disabledInit => { robot with global := robot.global.initializeDisabled }
  | .autonomousInit => robot.autonomousInit
  | .teleopInit => robot.teleopInit

/-- As START_ROBOT_CLASS constructs it. -/
def initial (alliance : Alliance) : RobotTemplate where
  autonomousHasBeenInit := false
  teleopHasBeenInit := false
  global := ⟨alliance, none, none, [], 0, 0, []⟩

/-- The last of the AutonomousInit and TeleopInit calls. -/
def modeAfter (mode : Option Callback) : Callback → Option Callback
  | .autonomousInit => some .autonomousInit
  | .teleopInit => some .teleopInit
  | .robotInit | .disabledInit => mode

/-- The AutonomousInit calls that do not follow another one, all calls but
AutonomousInit and TeleopInit left out. -/
def autonomousPhases (mode : Option Callback) : List Callback → Nat
  | [] => 0
  | callback :: rest =>
      (if callback = .autonomousInit ∧ mode ≠ some .autonomousInit then 1 else 0) +
        autonomousPhases (modeAfter mode callback) rest

/-- What the two flags and the table have to do with the last mode. -/
structure Inv (mode : Option Callback) (robot : RobotTemplate) : Prop where
  autonomous : robot.autonomousHasBeenInit = decide (mode = some .autonomousInit)
  teleop : robot.teleopHasBeenInit = decide (mode = some .teleopInit)
  table : if mode = some .teleopInit then
      Global.HoldsExactly robot.global.listeners Global.teleopBindings
    else robot.global.listeners = 0

theorem initial_inv (alliance : Alliance) : Inv none (initial alliance) := ⟨rfl, rfl, rfl⟩

theorem Inv.call {mode : Option Callback} {robot : RobotTemplate} (inv : Inv mode robot)
    (callback : Callback) : Inv (modeAfter mode callback) (robot.call callback) := by
  cases callback with
  | robotInit | disabledInit => exact ⟨inv.autonomous, inv.teleop, inv.table⟩
  | autonomousInit =>
      show Inv (some .autonomousInit) robot.autonomousInit
      by_cases again : mode = some .autonomousInit
      · have initialized : robot.autonomousHasBeenInit = true := by simp [inv.autonomous, again]
        subst again
        simpa [autonomousInit, initialized] using inv
      · have fresh : robot.autonomousHasBeenInit = false := by simp [inv.autonomous, again]
        simp only [autonomousInit, fresh, Bool.not_false, ↓reduceIte]
        exact ⟨rfl, rfl, rfl⟩
  | teleopInit =>
      show Inv (some .teleopInit) robot.teleopInit
      by_cases again : mode = some .teleopInit
      · have initialized : robot.teleopHasBeenInit = true := by simp [inv.teleop, again]
        subst again
        simpa [teleopInit, initialized] using inv
      · have fresh : robot.teleopHasBeenInit = false := by simp [inv.teleop, again]
        simp only [teleopInit, fresh, Bool.not_false, ↓reduceIte]
        refine ⟨rfl, rfl, ?_⟩
        exact Global.initializeTeleop_holdsExactly rfl

/-- A callback starts at most one sequence, and touches none that has started. -/
theorem call_sequences (robot : RobotTemplate) (callback : Callback) :
    (robot.call callback).global.sequences = robot.global.sequences ++
      if callback = .autonomousInit ∧ robot.autonomousHasBeenInit = false then
        [AutoConfig.Sequence.start]
      else [] := by
  cases callback with
  | robotInit | disabledInit => simp [call, Global.initializeRobot, Global.initializeDisabled,
      Global.lightsOff, Global.startSpeedControl]
  | autonomousInit =>
      cases initialized : robot.autonomousHasBeenInit with
      | true => simp [call, autonomousInit, initialized]
      | false => simp [call, autonomousInit, initialized, Global.initializeAuto,
          Global.clearListeners]
  | teleopInit =>
      cases initialized : robot.teleopHasBeenInit with
      | true => simp [call, teleopInit, initialized]
      | false => simp [call, teleopInit, initialized, Global.clearListeners]

theorem foldl_call {mode : Option Callback} {robot : RobotTemplate} (inv : Inv mode robot)
    (calls : List Callback) :
    Inv (calls.foldl modeAfter mode) (calls.foldl call robot) ∧
      (calls.foldl call robot).global.sequences.length =
        robot.global.sequences.length + autonomousPhases mode calls := by
  induction calls generalizing mode robot with
  | nil => exact ⟨inv, rfl⟩
  | cons callback rest ih =>
      obtain ⟨later, started⟩ := ih (inv.call callback)
      refine ⟨later, ?_⟩
      rw [List.foldl_cons, started, call_sequences, List.length_append, autonomousPhases]
      have fresh : robot.autonomousHasBeenInit = false ↔ mode ≠ some .autonomousInit := by
        simp [inv.autonomous]
      simp only [fresh]
      split
      · simp only [List.length_singleton]
        omega
      · simp only [List.length_nil]
        omega

/-- However the modes are switched, the table holds the bindings of the last one
exactly, and each autonomous phase has started one sequence. -/
theorem table_and_sequences_exact (alliance : Alliance) (calls : List Callback) :
    (if calls.foldl modeAfter none = some .teleopInit then
      Global.HoldsExactly (calls.foldl call (initial alliance)).global.listeners
        Global.teleopBindings
    else (calls.foldl call (initial alliance)).global.listeners = 0) ∧
    (calls.foldl call (initial alliance)).global.sequences.length = autonomousPhases none calls := by
  obtain ⟨inv, started⟩ := foldl_call (initial_inv alliance) calls
  refine ⟨inv.table, ?_⟩
  rw [started]
  exact Nat.zero_add _

end RobotTemplate

end FrcRobot
