import FrcRobot.PollingScript
import Mathlib.Data.Rat.Defs

set_option autoImplicit false

namespace FrcRobot

open PollingScript

/-- The MotorLinks of Global. -/
inductive Motor where
  | rotFR | rotFL | rotBk | drvFR | drvFL | drvBk | mShooter | mArmRoll | mArmMove
  deriving DecidableEq

inductive Alliance where
  | red | blue
  deriving DecidableEq

/-- What the autonomous sequence asks of the motors and of the cocking arm. -/
inductive AutoRequest where
  | setControlTarget (motor : Motor) (target : ℚ)
  | setSpeed (motor : Motor) (pow : ℚ)
  | cockShooterCancel
  | cockShooterStart
  deriving DecidableEq

namespace AutoConfig

/-- The statements of initialize, logging apart. -/
inductive Command where
  | sequenceStartTime
  | desiredFinishTime (milliseconds : Nat)
  | setControlTarget (motor : Motor) (target : ℚ)
  /-- The target is this much more than the angle of the gyro. -/
  | setControlTargetFromAngle (motor : Motor) (offset : ℚ)
  | setSpeed (motor : Motor) (pow : ℚ)
  | cockShooterCancel
  | cockShooterStart
  | lightChange (alliance : Alliance)
  | sleep (milliseconds : Nat)
  deriving DecidableEq

/-- The expressions given to SPINLOCK_UNTIL. -/
inductive Test where
  | sinceSequenceStart (milliseconds : Nat)
  /-- `_shooterTSensor.get()`: whether the pointer is set. -/
  | shooterTSensor
  | desiredFinish
  deriving DecidableEq

def danceCode : List (Instr Command Test) :=
  [.run (.lightChange .blue), .run (.sleep 1000), .run (.lightChange .red), .run (.sleep 1000)]

/-- Turn the wheels and drive, then stand for a while. -/
def approachCode : List (Instr Command Test) :=
  .run .sequenceStartTime ::
    loop (.sinceSequenceStart 750) [
      .setControlTarget .rotBk 90, .setControlTarget .rotFL 90, .setControlTarget .rotFR 90,
      .setSpeed .drvBk 1, .setSpeed .drvFL 1, .setSpeed .drvFR 1] ++
    loop (.sinceSequenceStart 2000) [
      .setSpeed .drvBk 0, .setSpeed .drvFL 0, .setSpeed .drvFR 0]

def shootCode : List (Instr Command Test) :=
  .run .cockShooterCancel ::
    loop .shooterTSensor [.setSpeed .mShooter (-1)] ++
    [.run .cockShooterStart]

/-- Drive forward into the goal and stop. -/
def driveCode : List (Instr Command Test) :=
  .run (.desiredFinishTime 2500) ::
    loop .desiredFinish [
      .setControlTargetFromAngle .rotBk 90, .setControlTargetFromAngle .rotFL 90,
      .setControlTargetFromAngle .rotFR 90,
      .setSpeed .drvBk 1, .setSpeed .drvFL 1, .setSpeed .drvFR 1] ++
    [.run (.setSpeed .drvBk 0), .run (.setSpeed .drvFL 0), .run (.setSpeed .drvFR 0)]

/-- The body of initialize. -/
def initializeCode : List (Instr Command Test) :=
  approachCode ++ shootCode ++ driveCode ++ danceCode

/-- A thread that runs initialize: its code ahead and its two variables. -/
structure Sequence where
  code : List (Instr Command Test)
  sequenceStartTime : Nat
  desiredFinishTime : Nat
  deriving DecidableEq

/-- What the statements read: the clock in milliseconds, the angle of the gyro
and whether the sensor's pointer is set. -/
structure Reading where
  localTime : Nat
  angle : ℚ
  shooterTSensor : Bool

def Sequence.start : Sequence := ⟨initializeCode, 0, 0⟩

def Sequence.holds (sequence : Sequence) (reading : Reading) : Test → Bool
  | .sinceSequenceStart milliseconds =>
      sequence.sequenceStartTime + milliseconds ≤ reading.localTime
  | .shooterTSensor => reading.shooterTSensor
  | .desiredFinish => sequence.desiredFinishTime ≤ reading.localTime

def Command.request (reading : Reading) : Command → Option AutoRequest
  | .setControlTarget motor target => some (.setControlTarget motor target)
  | .setControlTargetFromAngle motor offset =>
      some (.setControlTarget motor (offset + reading.angle))
  | .setSpeed motor pow => some (.setSpeed motor pow)
  | .cockShooterCancel => some .cockShooterCancel
  | .cockShooterStart => some .cockShooterStart
  | .sequenceStartTime | .desiredFinishTime _ | .lightChange _ | .sleep _ => none

/-- The effect of a statement on the variables of its thread. -/
def Sequence.assign (sequence : Sequence) (reading : Reading) : Command → Sequence
  | .sequenceStartTime => { sequence with sequenceStartTime := reading.localTime }
  | .desiredFinishTime milliseconds =>
      { sequence with desiredFinishTime := reading.localTime + milliseconds }
  | _ => sequence

/-- One statement, or one evaluation of a SPINLOCK_UNTIL. Sleeping only takes
time, here and between two turns of a loop. -/
def Sequence.step (sequence : Sequence) (reading : Reading) :
    Option (Option Command × Sequence) :=
  (advance (sequence.holds reading) sequence.code).map fun taken =>
    match taken.1 with
    | none => (none, { sequence with code := taken.2 })
    | some command => (some command, { sequence.assign reading command with code := taken.2 })

/-- A statement of the kind that asks something of a motor or of the arm. -/
def Command.requests : Command → Bool
  | .setControlTarget _ _ | .setControlTargetFromAngle _ _ | .setSpeed _ _
  | .cockShooterCancel | .cockShooterStart => true
  | .sequenceStartTime | .desiredFinishTime _ | .lightChange _ | .sleep _ => false

theorem request_isSome (reading : Reading) (command : Command) :
    (command.request reading).isSome = command.requests := by
  cases command <;> rfl

/-- The sequence has issued its last request. -/
def Sequence.Done (sequence : Sequence) : Prop :=
  ∀ command, Mentions sequence.code command → command.requests = false

/-- The last statement that requests anything, and the lights after it. -/
def finale : List (Instr Command Test) := .run (.setSpeed .drvFR 0) :: danceCode

def Sequence.Working (sequence : Sequence) : Prop := ∃ front, sequence.code = front ++ finale

theorem step_code {sequence next : Sequence} {reading : Reading} {emitted : Option Command}
    (taken : sequence.step reading = some (emitted, next)) :
    advance (sequence.holds reading) sequence.code = some (emitted, next.code) := by
  obtain ⟨⟨command, rest⟩, advanced, same⟩ := Option.map_eq_some_iff.mp taken
  cases command with
  | none =>
      cases same
      exact advanced
  | some command =>
      cases same
      exact advanced

theorem step_of_advance {sequence : Sequence} {reading : Reading} {emitted : Option Command}
    {rest : List (Instr Command Test)}
    (advanced : advance (sequence.holds reading) sequence.code = some (emitted, rest)) :
    ∃ next, sequence.step reading = some (emitted, next) ∧ next.code = rest := by
  unfold Sequence.step
  rw [advanced]
  cases emitted with
  | none => exact ⟨_, rfl, rfl⟩
  | some command => exact ⟨_, rfl, rfl⟩

theorem Sequence.Done.step {sequence next : Sequence} {reading : Reading} {emitted : Option Command}
    (done : sequence.Done) (taken : sequence.step reading = some (emitted, next)) :
    next.Done ∧ ∀ command, emitted = some command → command.requests = false := by
  have advanced := step_code taken
  constructor
  · intro command mentioned
    exact done command (mentions_advance advanced command (.inr mentioned))
  · intro command same
    exact done command (mentions_advance advanced command (.inl same))

theorem done_danceCode : ∀ command, Mentions danceCode command → command.requests = false := by
  intro command mentioned
  simp only [Mentions, danceCode, List.mem_cons, List.not_mem_nil, or_false, Instr.run.injEq,
    reduceCtorEq, false_and, exists_false] at mentioned
  rcases mentioned with rfl | rfl | rfl | rfl <;> rfl

theorem start_working : Sequence.start.Working :=
  ⟨initializeCode.take (initializeCode.length - finale.length), rfl⟩

/-- A sequence that works goes on working until it runs its last request. -/
theorem Sequence.Working.step {sequence next : Sequence} {reading : Reading} {emitted : Option Command}
    (working : sequence.Working) (taken : sequence.step reading = some (emitted, next)) :
    next.Working ∨ next.Done := by
  obtain ⟨front, ahead⟩ := working
  have advanced := step_code taken
  rw [ahead] at advanced
  by_cases last : front = []
  · subst last
    right
    have rest : next.code = danceCode := (Prod.mk.inj (Option.some.inj advanced)).2.symm
    intro command mentioned
    rw [rest] at mentioned
    exact done_danceCode command mentioned
  · left
    rw [advance_append last] at advanced
    obtain ⟨⟨command, rest⟩, _, same⟩ := Option.map_eq_some_iff.mp advanced
    exact ⟨rest, (Prod.mk.inj same).2.symm⟩

theorem Sequence.Working.not_done {sequence : Sequence} (working : sequence.Working) :
    ¬sequence.Done := by
  obtain ⟨front, ahead⟩ := working
  intro done
  have mentioned : Mentions sequence.code (.setSpeed .drvFR 0) := by
    rw [ahead, mentions_append]
    exact .inr (.inl (List.mem_cons_self ..))
  exact absurd (done _ mentioned) (by decide)

/-- Once enough time has passed every test holds; the sensor's pointer is set. -/
theorem holds_eventually (sequence : Sequence) (now : Nat) (angle : ℚ) (test : Test) :
    ∃ milliseconds, sequence.holds ⟨now + milliseconds, angle, true⟩ test = true := by
  cases test with
  | sinceSequenceStart milliseconds =>
      refine ⟨sequence.sequenceStartTime + milliseconds, ?_⟩
      simp only [Sequence.holds, decide_eq_true_eq]
      omega
  | shooterTSensor => exact ⟨0, rfl⟩
  | desiredFinish =>
      refine ⟨sequence.desiredFinishTime, ?_⟩
      simp only [Sequence.holds, decide_eq_true_eq]
      omega

theorem passes_eventually (sequence : Sequence) (now : Nat) (instr : Instr Command Test) :
    ∃ milliseconds, ∀ test body, instr = .spinUntil test body →
      sequence.holds ⟨now + milliseconds, 0, true⟩ test = true := by
  cases instr with
  | run command => exact ⟨0, fun test body impossible => by cases impossible⟩
  | spinUntil test body =>
      obtain ⟨milliseconds, holds⟩ := holds_eventually sequence now 0 test
      refine ⟨milliseconds, ?_⟩
      intro _ _ same
      cases same
      exact holds

end AutoConfig

end FrcRobot
