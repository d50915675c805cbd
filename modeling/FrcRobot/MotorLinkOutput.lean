import FrcRobot.LastWrite
import FrcRobot.MotorLinkPointers

set_option autoImplicit false

/- The values that the speed requests of a client come to on the Talon, for every
constructor and every lag of the queue thread. -/
namespace FrcRobot.MotorLinkOutput

open DeferredQueue Interleaving LastWrite MotorLinkPointers

variable {K : Type}

/-- The calls that ask for a speed or change what becomes of it. -/
inductive SpeedCall (K : Type) where
  | reverseMotor
  | setSpeedScalar (powScl : K)
  | setSpeed (pow : K)
  | setSpeedForce (pow : K)

namespace SpeedCall

def call : SpeedCall K → MotorLink.Call K
  | .reverseMotor => .reverseMotor
  | .setSpeedScalar powScl => .setSpeedScalar powScl
  | .setSpeed pow => .setSpeed pow
  | .setSpeedForce pow => .setSpeedForce pow

def request : SpeedCall K → Request K
  | .reverseMotor => .reverseMotorImpl
  | .setSpeedScalar powScl => .setSpeedScalarImpl powScl
  | .setSpeed pow | .setSpeedForce pow => .setSpeedImpl pow

def speed : SpeedCall K → Option K
  | .setSpeed pow | .setSpeedForce pow => some pow
  | .reverseMotor | .setSpeedScalar _ => none

def scalar : SpeedCall K → Option K
  | .setSpeedScalar powScl => some powScl
  | .reverseMotor | .setSpeed _ | .setSpeedForce _ => none

def reverses : SpeedCall K → Bool
  | .reverseMotor => true
  | .setSpeedScalar _ | .setSpeed _ | .setSpeedForce _ => false

end SpeedCall

/-- The power scalar that a constructor is given, or 1. -/
def scalarGiven [One K] : Construction K → K
  | .talonScaled powscl | .encoderScaled _ powscl | .controlScaled _ _ powscl => powscl
  | .talon | .encoder _ | .control _ _ => 1

/-- `issued` and `written` are no part of the program: the calls made so far, and
the values written to the Talon. -/
structure Bench (K : Type) where
  processor : MotorLink.Processor K
  issued : List (SpeedCall K)
  written : List K

inductive Action (K : Type) where
  | issue (call : SpeedCall K)
  | serve

def assembled [One K] (construction : Construction K) (controls : Nat → MotorControl K) : Bench K :=
  ⟨⟨⟨construction.link, controls⟩, []⟩, [], []⟩

/-- The oldest request writes to the Talon. -/
def WritesTalon : List (Request K) → Bool
  | .setSpeedImpl _ :: _ => true
  | _ => false

/-- Before the first setSpeedScalar no speed but 0 is asked for. -/
def ScaledFirst [Zero K] : List (SpeedCall K) → Prop
  | [] => True
  | .setSpeedScalar _ :: _ => True
  | .reverseMotor :: rest => ScaledFirst rest
  | .setSpeed pow :: rest | .setSpeedForce pow :: rest => pow = 0 ∧ ScaledFirst rest

/-- Without a running controller a speed call only queues its request. -/
theorem issue_idle {processor : MotorLink.Processor K}
    (idle : processor.state.link.spdControlEnabled = false) (call : SpeedCall K) :
    MotorLink.issue processor call.call = some (processor.enqueue call.request) := by
  cases call with
  | setSpeed pow =>
      simp [SpeedCall.call, SpeedCall.request, MotorLink.issue, MotorLink.setSpeed,
        LinkState.releaseControl, idle]
  | reverseMotor | setSpeedScalar | setSpeedForce => rfl

variable [Field K]

def step (bench : Bench K) : Action K → Option (Bench K)
  | .issue call => (MotorLink.issue bench.processor call.call).map fun processor =>
      { bench with processor := processor, issued := bench.issued ++ [call] }
  | .serve => (bench.processor.serve LinkState.exec).map fun processor =>
      { bench with
        processor := processor
        written := bench.written ++
          if WritesTalon bench.processor.queue then processor.state.link.talon.toList else [] }

/-- What a speed comes to after the calls before it. -/
def output (start : K) (before : List (SpeedCall K)) (pow : K) : K :=
  pow * lastValue SpeedCall.scalar start before * (-1) ^ before.countP SpeedCall.reverses

def outputs (start : K) (before : List (SpeedCall K)) : List (SpeedCall K) → List K
  | [] => []
  | call :: rest =>
      (call.speed.map (output start before)).toList ++ outputs start (before ++ [call]) rest

theorem outputs_append_singleton (start : K) (before calls : List (SpeedCall K))
    (call : SpeedCall K) :
    outputs start before (calls ++ [call]) =
      outputs start before calls ++ (call.speed.map (output start (before ++ calls))).toList := by
  induction calls generalizing before with
  | nil => simp [outputs]
  | cons first rest ih =>
      rw [List.cons_append, outputs, outputs, ih, List.append_assoc, List.append_assoc,
        List.singleton_append]

/-- The calls served so far are in effect. -/
structure Applied (start : K) (link : MotorLink K) (served : List (SpeedCall K)) : Prop where
  idle : link.spdControlEnabled = false
  scalar : link.speedScalar = lastValue SpeedCall.scalar start served
  sign : (if link.motorReversed then -1 else 1) = (-1 : K) ^ served.countP SpeedCall.reverses

theorem applied_link (construction : Construction K) :
    Applied construction.link.speedScalar construction.link [] := by
  have forward : construction.link.motorReversed = false := by
    cases construction <;> rfl
  refine ⟨?_, rfl, ?_⟩
  · cases construction <;> rfl
  · rw [forward, List.countP_nil, pow_zero]
    rfl

theorem sign_not (reversed : Bool) :
    (if !reversed then -1 else 1 : K) = (if reversed then -1 else 1) * -1 := by
  cases reversed <;> simp

/-- Every speed call is served, and one for a speed writes its output. -/
theorem Applied.exec {start : K} {state : LinkState K} {served : List (SpeedCall K)}
    (applied : Applied start state.link served) (call : SpeedCall K) :
    ∃ next, state.exec call.request = some next ∧
      Applied start next.link (served ++ [call]) ∧
      ∀ waiting, (if WritesTalon (call.request :: waiting) then next.link.talon.toList else []) =
        (call.speed.map (output start served)).toList := by
  obtain ⟨idle, scalar, sign⟩ := applied
  cases call with
  | reverseMotor =>
      refine ⟨_, rfl, ⟨idle, ?_, ?_⟩, fun _ => rfl⟩
      · rw [lastValue_append_singleton]
        exact scalar
      · rw [List.countP_append, List.countP_singleton, pow_add, ← sign]
        exact (sign_not _).trans (by simp [SpeedCall.reverses])
  | setSpeedScalar powScl =>
      refine ⟨_, rfl, ⟨idle, ?_, ?_⟩, fun _ => rfl⟩
      · rw [lastValue_append_singleton]
        rfl
      · rw [List.countP_append, List.countP_singleton, pow_add, ← sign]
        simp [SpeedCall.reverses]
  | setSpeed pow | setSpeedForce pow =>
      refine ⟨_, rfl, ⟨idle, ?_, ?_⟩, fun _ => ?_⟩
      · rw [lastValue_append_singleton]
        exact scalar
      · rw [List.countP_append, List.countP_singleton, pow_add, ← sign]
        simp [SpeedCall.reverses, LinkState.setSpeedImpl]
      · simp [SpeedCall.request, WritesTalon, SpeedCall.speed, LinkState.setSpeedImpl, output,
          scalar, sign]

/-- What has been served is in effect, and what has not still waits, in order. -/
def Inv (start : K) (bench : Bench K) : Prop :=
  ∃ served waiting, bench.issued = served ++ waiting ∧
    bench.processor.queue = waiting.map SpeedCall.request ∧
    Applied start bench.processor.state.link served ∧ bench.written = outputs start [] served

theorem assembled_inv (construction : Construction K) (controls : Nat → MotorControl K) :
    Inv construction.link.speedScalar (assembled construction controls) :=
  ⟨[], [], rfl, rfl, applied_link construction, rfl⟩

theorem step_issue {start : K} {bench : Bench K} (inv : Inv start bench) (call : SpeedCall K) :
    ∃ next, step bench (.issue call) = some next ∧ Inv start next ∧
      next.issued = bench.issued ++ [call] ∧
      next.processor.queue = bench.processor.queue ++ [call.request] := by
  obtain ⟨served, waiting, issued, queue, applied, written⟩ := inv
  refine ⟨_, by rw [step, issue_idle applied.idle, Option.map_some], ?_, rfl, rfl⟩
  refine ⟨served, waiting ++ [call], ?_, ?_, applied, written⟩
  · rw [issued, List.append_assoc]
  · rw [enqueue_queue, queue, List.map_append, List.map_singleton]

theorem step_serve {start : K} {bench : Bench K} (inv : Inv start bench) {request : Request K}
    {rest : List (Request K)} (head : bench.processor.queue = request :: rest) :
    ∃ next, step bench .serve = some next ∧ Inv start next ∧ next.issued = bench.issued ∧
      next.processor.queue = rest := by
  obtain ⟨served, waiting, issued, queue, applied, written⟩ := inv
  obtain ⟨call, later, rfl, rfl, rfl⟩ : ∃ call later, waiting = call :: later ∧
      call.request = request ∧ later.map SpeedCall.request = rest := by
    cases waiting with
    | nil =>
        rw [queue] at head
        cases head
    | cons call later =>
        rw [queue, List.map_cons, List.cons.injEq] at head
        exact ⟨call, later, rfl, head.1, head.2⟩
  obtain ⟨state, executed, after, writes⟩ := applied.exec call
  have ran : bench.processor.serve LinkState.exec =
      some ⟨state, later.map SpeedCall.request⟩ :=
    (serve_iff LinkState.exec _ _).mpr ⟨call.request, head, executed⟩
  let next : Bench K := { bench with
    processor := ⟨state, later.map SpeedCall.request⟩
    written := bench.written ++ (call.speed.map (output start served)).toList }
  have taken : step bench .serve = some next := by
    rw [step, ran, Option.map_some, head, writes]
  refine ⟨next, taken, ⟨served ++ [call], later, ?_, rfl, after, ?_⟩, rfl, rfl⟩
  · exact issued.trans (by rw [List.append_assoc, List.singleton_append])
  · rw [outputs_append_singleton, List.nil_append, ← written]

theorem Inv.step {start : K} {bench next : Bench K} {action : Action K} (inv : Inv start bench)
    (taken : step bench action = some next) : Inv start next := by
  cases action with
  | issue call =>
      obtain ⟨after, issued, kept, _⟩ := step_issue inv call
      rw [issued, Option.some.injEq] at taken
      rwa [← taken]
  | serve =>
      cases queue : bench.processor.queue with
      | nil => simp [MotorLinkOutput.step, Server.serve, queue] at taken
      | cons request rest =>
          obtain ⟨after, served, kept, _⟩ := step_serve inv queue
          rw [served, Option.some.injEq] at taken
          rwa [← taken]

/-- Any calls can be made and served. -/
theorem served_exists {start : K} (calls : List (SpeedCall K)) {bench : Bench K}
    (inv : Inv start bench) (drained : bench.processor.queue = []) :
    ∃ actions last, run step bench actions = some last ∧
      last.issued = bench.issued ++ calls ∧ last.processor.queue = [] := by
  induction calls generalizing bench with
  | nil => exact ⟨[], bench, rfl, (List.append_nil _).symm, drained⟩
  | cons call rest ih =>
      obtain ⟨queued, called, invQueued, issued, queue⟩ := step_issue inv call
      rw [drained, List.nil_append] at queue
      obtain ⟨next, served, invNext, same, empty⟩ := step_serve invQueued queue
      obtain ⟨actions, last, ran, all, done⟩ := ih invNext empty
      refine ⟨.issue call :: .serve :: actions, last, ?_, ?_, done⟩
      · rw [run_cons, called, Option.bind_some, run_cons, served, Option.bind_some, ran]
      · rw [all, same, issued, List.append_assoc, List.singleton_append]

theorem written_of_drained {start : K} {bench : Bench K} (inv : Inv start bench)
    (drained : bench.processor.queue = []) : bench.written = outputs start [] bench.issued := by
  obtain ⟨served, waiting, issued, queue, _, written⟩ := inv
  rw [drained] at queue
  rw [List.map_eq_nil_iff.mp queue.symm, List.append_nil] at issued
  rw [written, issued]

theorem outputs_congr {start other : K} {before : List (SpeedCall K)}
    (same : lastValue SpeedCall.scalar start before = lastValue SpeedCall.scalar other before)
    (calls : List (SpeedCall K)) : outputs start before calls = outputs other before calls := by
  induction calls generalizing before with
  | nil => rfl
  | cons call rest ih =>
      have next : lastValue SpeedCall.scalar start (before ++ [call]) =
          lastValue SpeedCall.scalar other (before ++ [call]) := by
        rw [lastValue_append_singleton, lastValue_append_singleton, same]
      have here : output start before = output other before := by
        funext pow
        rw [output, output, same]
      rw [outputs, outputs, here, ih next]

/-- While nothing has changed the scalar only a speed of 0 hides it. -/
theorem output_eq_iff {start other : K} {before : List (SpeedCall K)}
    (unscaled : ∀ call ∈ before, call.scalar = none) (pow : K) :
    output start before pow = output other before pow ↔ start = other ∨ pow = 0 := by
  have sign : (-1 : K) ^ before.countP SpeedCall.reverses ≠ 0 :=
    pow_ne_zero _ (neg_ne_zero.mpr one_ne_zero)
  rw [output, output, lastValue_of_silent unscaled, lastValue_of_silent unscaled,
    mul_left_inj' sign, mul_eq_mul_left_iff]

theorem outputs_eq_iff {start other : K} {before : List (SpeedCall K)}
    (unscaled : ∀ call ∈ before, call.scalar = none) (calls : List (SpeedCall K)) :
    outputs start before calls = outputs other before calls ↔
      start = other ∨ ScaledFirst calls := by
  induction calls generalizing before with
  | nil => simp [outputs, ScaledFirst]
  | cons call rest ih =>
      have extended (silent : call.scalar = none) :
          ∀ earlier ∈ before ++ [call], earlier.scalar = none := by
        intro earlier member
        rcases List.mem_append.mp member with old | new
        · exact unscaled earlier old
        · rwa [List.mem_singleton.mp new]
      cases call with
      | setSpeedScalar powScl =>
          have same : lastValue SpeedCall.scalar start (before ++ [.setSpeedScalar powScl]) =
              lastValue SpeedCall.scalar other (before ++ [.setSpeedScalar powScl]) := by
            rw [lastValue_append_singleton, lastValue_append_singleton]
            rfl
          exact iff_of_true (outputs_congr same rest) (.inr trivial)
      | reverseMotor => exact ih (extended rfl)
      | setSpeed pow | setSpeedForce pow =>
          show output start before pow :: outputs start _ rest =
            output other before pow :: outputs other _ rest ↔
              start = other ∨ pow = 0 ∧ ScaledFirst rest
          rw [List.cons.injEq, output_eq_iff unscaled, ih (extended rfl), or_and_left]

theorem scalar_link_iff (construction : Construction K) :
    construction.link.speedScalar = scalarGiven construction ↔
      ∀ enc powscl, construction = .encoderScaled enc powscl → powscl = 1 := by
  cases construction with
  | encoderScaled enc powscl =>
      constructor
      · rintro same _ _ ⟨⟩
        exact same.symm
      · intro one
        exact (one enc powscl rfl).symm
  | talon | talonScaled | encoder | control | controlScaled =>
      refine iff_of_true rfl ?_
      intro enc powscl other
      cases other

/-- The values written are those the calls ask for, unless the link was given its
scalar together with an encoder alone and is asked for a speed before another
scalar. -/
theorem output_law_iff (construction : Construction K) (controls : Nat → MotorControl K) :
    (∀ calls, ∃ actions last, run step (assembled construction controls) actions = some last ∧
      last.issued = calls ∧ last.processor.queue = []) ∧
    ∀ actions last, run step (assembled construction controls) actions = some last →
      last.processor.queue = [] →
      (last.written = outputs (scalarGiven construction) [] last.issued ↔
        (∀ enc powscl, construction = .encoderScaled enc powscl → powscl = 1) ∨
          ScaledFirst last.issued) := by
  constructor
  · intro calls
    obtain ⟨actions, last, ran, issued, drained⟩ :=
      served_exists calls (assembled_inv construction controls) rfl
    exact ⟨actions, last, ran, issued, drained⟩
  · intro actions last ran drained
    have inv : Inv construction.link.speedScalar last :=
      run_invariant (Inv construction.link.speedScalar)
        (fun _ _ _ before taken => Inv.step before taken) (assembled_inv construction controls) ran
    rw [written_of_drained inv drained, outputs_eq_iff (List.forall_mem_nil _), scalar_link_iff]

/-- A link that is to run at half power runs at full power. -/
theorem not_output_law_encoderScaled :
    ∃ last, run step (assembled (.encoderScaled (some 0) (1 / 2 : ℚ)) fun _ =>
        ⟨linearSpeedTarget, 0, false, false⟩) [.issue (.setSpeed 1), .serve] = some last ∧
      last.processor.queue = [] ∧
      last.written = [1] ∧ outputs (1 / 2 : ℚ) [] last.issued = [1 / 2] := by
  refine ⟨_, rfl, rfl, ?_, ?_⟩
  · decide +kernel
  · decide +kernel

end FrcRobot.MotorLinkOutput
