import FrcRobot.ArcadeDrive
import FrcRobot.Interleaving
import Mathlib.Algebra.Order.Field.Rat
import Mathlib.Tactic.LinearCombination

set_option autoImplicit false

/- One execution of steerHandler on its queue thread, while the polling thread
publishes snapshots at any moments of it. -/
namespace FrcRobot.ArcadeDriveSnapshot

open ArcadeDrive Interleaving ListenerManager

variable {K : Type*}

deriving instance DecidableEq for SteerHandler

/-- `shown`, `xReads` and `yReads` are no part of the program: the snapshots that
have been the published one since the handler was called, and what its reads of
the two axes have returned. -/
structure Execution (K : Type*) where
  values : ControlValues K
  handler : Option (SteerHandler K)
  driveLeft : Option K
  driveRight : Option K
  shown : List (ControlValues K)
  xReads : List K
  yReads : List K
  deriving DecidableEq

inductive Action (K : Type*) where
  | publish (newValues : ControlValues K)
  | advance

def axisX (values : ControlValues K) : K := values.axisAt 11

def axisY (values : ControlValues K) : K := values.axisAt 14

def begin (values : ControlValues K) : Execution K :=
  ⟨values, some .testX, none, none, [values], [], []⟩

/-- What a read adds to the record of its axis. -/
def Execution.note (execution : Execution K) : SteerHandler K → Execution K
  | .testX | .readX =>
      { execution with
        xReads := execution.xReads ++ (getRawDouble execution.values .joy1X).toList }
  | .testY _ | .readY _ =>
      { execution with
        yReads := execution.yReads ++ (getRawDouble execution.values .joy1Y).toList }
  | .driveLeft _ _ | .driveRight _ => execution

variable [Field K] [LinearOrder K]

/-- The next read of the handler, or the next motor that it drives. -/
def Execution.advance (execution : Execution K) : Option (Execution K) :=
  match execution.handler with
  | none => none
  | some (.driveLeft spdL spdR) =>
      some { execution with driveLeft := some spdL, handler := some (.driveRight spdR) }
  | some (.driveRight spdR) => some { execution with driveRight := some spdR, handler := none }
  | some handler => (handler.read execution.values).map fun next =>
      { execution.note handler with handler := some next }

def step (execution : Execution K) : Action K → Option (Execution K)
  | .publish newValues =>
      if execution.handler.isSome then
        some { execution with values := newValues, shown := newValues :: execution.shown }
      else none
  | .advance => execution.advance

/-- What the reads of an axis have made of it: the second one is made only if the
first is beyond the threshold, and its value is taken as it is. -/
def Found : List K → K → Prop
  | [test], value => ¬thresh < |test| ∧ value = 0
  | [test, read], value => thresh < |test| ∧ value = read
  | _, _ => False

/-- Where the record of the reads stands when the handler does. -/
def Recorded (execution : Execution K) : Prop :=
  match execution.handler with
  | some .testX => execution.xReads = [] ∧ execution.yReads = []
  | some .readX =>
      (∃ test, execution.xReads = [test] ∧ thresh < |test|) ∧ execution.yReads = []
  | some (.testY x1) => Found execution.xReads x1 ∧ execution.yReads = []
  | some (.readY x1) =>
      Found execution.xReads x1 ∧ ∃ test, execution.yReads = [test] ∧ thresh < |test|
  | some (.driveLeft left right) => ∃ x1 y1, Found execution.xReads x1 ∧
      Found execution.yReads y1 ∧ left = spdL x1 (-y1) ∧ right = spdR x1 (-y1)
  | some (.driveRight right) => ∃ x1 y1, Found execution.xReads x1 ∧
      Found execution.yReads y1 ∧ execution.driveLeft = some (spdL x1 (-y1)) ∧
      right = spdR x1 (-y1)
  | none => ∃ x1 y1, Found execution.xReads x1 ∧ Found execution.yReads y1 ∧
      execution.driveLeft = some (spdL x1 (-y1)) ∧ execution.driveRight = some (spdR x1 (-y1))

/-- The speeds sent are those of one snapshot that was published meanwhile, and
no axis within the threshold is part of them. -/
def OneSnapshot (execution : Execution K) : Prop :=
  (∃ shown ∈ execution.shown,
    execution.driveLeft = some (leftSpeed (axisX shown) (axisY shown)) ∧
    execution.driveRight = some (rightSpeed (axisX shown) (axisY shown))) ∧
  ∃ x1 y1, execution.driveLeft = some (spdL x1 y1) ∧ execution.driveRight = some (spdR x1 y1) ∧
    (x1 = 0 ∨ thresh < |x1|) ∧ (y1 = 0 ∨ thresh < |y1|)

/-- An axis of a snapshot agrees with the reads of that axis: it is within the
threshold too if the first read is, and otherwise the second read is either that
axis and still beyond the threshold, or 0 while the axis is within it. -/
def Agrees (axis : K) : List K → Prop
  | [_test] => |axis| ≤ thresh
  | [_test, read] => thresh < |read| ∧ axis = read ∨ read = 0 ∧ |axis| ≤ thresh
  | _ => False

instance (axis : K) : (reads : List K) → Decidable (Agrees axis reads)
  | [_] => inferInstanceAs (Decidable (_ ≤ _))
  | [_, _] => inferInstanceAs (Decidable (_ ∧ _ ∨ _ ∧ _))
  | [] | _ :: _ :: _ :: _ => .isFalse id

/-- Some snapshot published meanwhile agrees with the reads of both axes. -/
def Unmixed (execution : Execution K) : Prop :=
  ∃ shown ∈ execution.shown, Agrees (axisX shown) execution.xReads ∧
    Agrees (axisY shown) execution.yReads

instance (execution : Execution K) : Decidable (Unmixed execution) :=
  inferInstanceAs (Decidable (∃ shown ∈ execution.shown, _ ∧ _))

/-- The dead band leaves nothing that is within the threshold, other than 0. -/
theorem deadband_zero_or_beyond (value : K) : deadband value = 0 ∨ thresh < |deadband value| := by
  by_cases beyond : thresh < |value|
  · rw [deadband_beyond beyond]
    exact .inr beyond
  · exact .inl (deadband_within beyond)

theorem step_recorded {execution next : Execution K} {action : Action K}
    (recorded : Recorded execution) (taken : step execution action = some next) :
    Recorded next := by
  cases action with
  | publish newValues =>
      obtain ⟨_, ⟨⟩⟩ := Option.ite_none_right_eq_some.mp taken
      exact recorded
  | advance =>
      obtain ⟨values, handler, left, right, shown, xReads, yReads⟩ := execution
      match handler with
      | some .testX =>
          obtain ⟨rfl, rfl⟩ : xReads = [] ∧ yReads = [] := recorded
          simp only [step, Execution.advance, read_testX, Option.map_some, Option.some.injEq]
            at taken
          subst taken
          by_cases beyond : thresh < |values.axisAt 11|
          · rw [if_pos beyond]
            exact ⟨⟨_, rfl, beyond⟩, rfl⟩
          · rw [if_neg beyond]
            exact ⟨⟨beyond, rfl⟩, rfl⟩
      | some .readX =>
          obtain ⟨⟨test, rfl, beyond⟩, rfl⟩ :
            (∃ test, xReads = [test] ∧ thresh < |test|) ∧ yReads = [] := recorded
          cases taken
          exact ⟨⟨beyond, rfl⟩, rfl⟩
      | some (.testY x1) =>
          obtain ⟨found, rfl⟩ : Found xReads x1 ∧ yReads = [] := recorded
          simp only [step, Execution.advance, read_testY, Option.map_some, Option.some.injEq]
            at taken
          subst taken
          by_cases beyond : thresh < |values.axisAt 14|
          · rw [if_pos beyond]
            exact ⟨found, _, rfl, beyond⟩
          · rw [if_neg beyond]
            exact ⟨x1, 0, found, ⟨beyond, rfl⟩, by rw [neg_zero], by rw [neg_zero]⟩
      | some (.readY x1) =>
          obtain ⟨found, test, rfl, beyond⟩ :
            Found xReads x1 ∧ ∃ test, yReads = [test] ∧ thresh < |test| := recorded
          cases taken
          exact ⟨x1, _, found, ⟨beyond, rfl⟩, rfl, rfl⟩
      | some (.driveLeft _ _) =>
          obtain ⟨x1, y1, foundX, foundY, rfl, rfl⟩ := recorded
          cases taken
          exact ⟨x1, y1, foundX, foundY, rfl, rfl⟩
      | some (.driveRight _) =>
          obtain ⟨x1, y1, foundX, foundY, sent, rfl⟩ := recorded
          cases taken
          exact ⟨x1, y1, foundX, foundY, sent, rfl⟩
      | none => cases taken

variable [IsStrictOrderedRing K]

theorem agrees_iff {axis value : K} {reads : List K} (found : Found reads value) :
    Agrees axis reads ↔ deadband axis = value := by
  have positive : (0 : K) < thresh := by unfold thresh; positivity
  match reads with
  | [test] =>
      obtain rfl : value = 0 := found.2
      refine ⟨fun within => deadband_within (not_lt.mpr within), fun zero => ?_⟩
      refine not_lt.mp fun beyond => ?_
      rw [deadband_beyond beyond] at zero
      rw [zero, abs_zero] at beyond
      exact absurd beyond positive.not_gt
  | [test, read] =>
      obtain rfl : value = read := found.2
      constructor
      · rintro (⟨beyond, rfl⟩ | ⟨rfl, within⟩)
        · exact deadband_beyond beyond
        · exact deadband_within (not_lt.mpr within)
      · rintro rfl
        by_cases beyond : thresh < |axis|
        · rw [deadband_beyond beyond]
          exact .inl ⟨beyond, rfl⟩
        · exact .inr ⟨deadband_within beyond, not_lt.mp beyond⟩

/-- The two speeds tell the two axes apart. -/
theorem speeds_eq_iff {x y x1 y1 : K} :
    leftSpeed x y = spdL x1 (-y1) ∧ rightSpeed x y = spdR x1 (-y1) ↔
      deadband x = x1 ∧ deadband y = y1 := by
  unfold leftSpeed rightSpeed spdL spdR
  constructor
  · rintro ⟨left, right⟩
    constructor
    · linear_combination (left + right) / 2
    · linear_combination (left - right) / 2
  · rintro ⟨rfl, rfl⟩
    exact ⟨rfl, rfl⟩

/-- An execution sends the speeds of one snapshot exactly when some snapshot
published meanwhile agrees with all its reads. -/
theorem oneSnapshot_iff_unmixed (values : ControlValues K) (actions : List (Action K))
    (last : Execution K) (ran : run step (begin values) actions = some last)
    (returned : last.handler = none) : OneSnapshot last ↔ Unmixed last := by
  have recorded : Recorded last :=
    run_invariant Recorded (fun _ _ _ before taken => step_recorded before taken)
      (show Recorded (begin values) from ⟨rfl, rfl⟩) ran
  rw [Recorded, returned] at recorded
  obtain ⟨x1, y1, foundX, foundY, left, right⟩ := recorded
  have same (shown : ControlValues K) :
      (last.driveLeft = some (leftSpeed (axisX shown) (axisY shown)) ∧
        last.driveRight = some (rightSpeed (axisX shown) (axisY shown))) ↔
      Agrees (axisX shown) last.xReads ∧ Agrees (axisY shown) last.yReads := by
    rw [agrees_iff foundX, agrees_iff foundY, ← speeds_eq_iff, left, right, Option.some.injEq,
      Option.some.injEq, eq_comm, eq_comm (a := spdR x1 (-y1))]
  constructor
  · rintro ⟨⟨shown, member, sent⟩, _⟩
    exact ⟨shown, member, (same shown).mp sent⟩
  · rintro ⟨shown, member, agrees⟩
    have sent := (same shown).mpr agrees
    refine ⟨⟨shown, member, sent⟩, deadband (axisX shown), -deadband (axisY shown),
      sent.1, sent.2, deadband_zero_or_beyond _, ?_⟩
    rw [neg_eq_zero, abs_neg]
    exact deadband_zero_or_beyond _

/-- A snapshot with the given first axes. -/
def axes (x y : ℚ) : ControlValues ℚ :=
  (initialValues.setAxis 11 x).setAxis 14 y

/-- The stick goes on moving while the handler reads it. -/
def moving : List (Action ℚ) :=
  [.advance, .advance, .publish (axes (3 / 5) (1 / 10)), .advance, .advance, .advance]

def moved : Execution ℚ :=
  ⟨axes (3 / 5) (1 / 10), none, some (1 / 2), some (1 / 2),
    [axes (3 / 5) (1 / 10), axes (1 / 2) 0], [1 / 2, 1 / 2], [1 / 10]⟩

theorem oneSnapshot_iff_unmixed_moving :
    run step (begin (axes (1 / 2) 0)) moving = some moved ∧ OneSnapshot moved :=
  have ran : run step (begin (axes (1 / 2) 0)) moving = some moved := by decide +kernel
  ⟨ran, (oneSnapshot_iff_unmixed (axes (1 / 2) 0) moving moved ran rfl).mpr (by decide +kernel)⟩

/-- The stick is let go between the two reads of the x axis. -/
def releasing : List (Action ℚ) :=
  [.advance, .publish (axes (1 / 10) 0), .advance, .advance, .advance, .advance]

/-- A tenth of the full speed is sent, which is within the threshold. -/
def released : Execution ℚ :=
  ⟨axes (1 / 10) 0, none, some (1 / 10), some (1 / 10), [axes (1 / 10) 0, axes (1 / 2) 0],
    [1 / 2, 1 / 10], [0]⟩

theorem not_oneSnapshot_released :
    run step (begin (axes (1 / 2) 0)) releasing = some released ∧ released.handler = none ∧
      ¬OneSnapshot released := by
  refine ⟨by decide +kernel, rfl, ?_⟩
  rintro ⟨one, _⟩
  exact absurd one (by decide +kernel)

end FrcRobot.ArcadeDriveSnapshot
