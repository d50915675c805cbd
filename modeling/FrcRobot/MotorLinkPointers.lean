import FrcRobot.Interleaving
import FrcRobot.MotorLink
import Mathlib.Data.Rat.Floor

set_option autoImplicit false

/- Which pointers the operations of a MotorLink follow, each operation run to
its end before the next. -/
namespace FrcRobot.MotorLinkPointers

open Interleaving

variable {K : Type}

/-- Why an operation does not return. -/
inductive Fault where
  | nullPointer
  /-- LOG_FATAL ends the process. -/
  | logFatal
  deriving DecidableEq

/-- The subclass of MotorControl that a controller belongs to. -/
inductive Kind where
  | linearAngleTarget
  | linearSpeedTarget
  deriving DecidableEq

def Kind.rule [Field K] [LinearOrder K] [FloorRing K] : Kind → TargetRule K
  | .linearAngleTarget => FrcRobot.linearAngleTarget
  | .linearSpeedTarget => FrcRobot.linearSpeedTarget

/-- The constructors, with the arguments each takes besides name and Talon. -/
inductive Construction (K : Type) where
  | talon
  | talonScaled (powscl : K)
  | encoder (enc : Option Nat)
  | encoderScaled (enc : Option Nat) (powscl : K)
  | control (enc spdControl : Option Nat)
  | controlScaled (enc spdControl : Option Nat) (powscl : K)

/-- All but the last delegate; encoderScaled hands on 1 for its scalar. -/
def Construction.link [One K] : Construction K → MotorLink K
  | .talon => ⟨none, none, none, false, false, 1⟩
  | .talonScaled powscl => ⟨none, none, none, false, false, powscl⟩
  | .encoder enc => ⟨none, enc, none, false, false, 1⟩
  | .encoderScaled enc _powscl => ⟨none, enc, none, false, false, 1⟩
  | .control enc spdControl => ⟨none, enc, spdControl, false, false, 1⟩
  | .controlScaled enc spdControl powscl => ⟨none, enc, spdControl, false, false, powscl⟩

/-- The operations, and a tick of one of the controllers with the power that it
computes and whether a LinearSpeedTarget recomputes in it. -/
inductive Operation (K : Type) where
  | startSpeedControl (target : K)
  | stopSpeedControl
  | setSpeedController (spdControl : Option Nat)
  | setControlTarget (target : K)
  | setSpeed (pow : K)
  | tick (control : Nat) (pow : K) (recomputes : Bool)

def orNull {α : Type} : Option α → Except Fault α
  | none => .error .nullPointer
  | some value => .ok value

@[simp] theorem orNull_some {α : Type} (value : α) : orNull (some value) = .ok value := rfl

@[simp] theorem orNull_none {α : Type} : orNull (none : Option α) = .error .nullPointer := rfl

@[simp] theorem ok_bind {α β : Type} (value : α) (next : α → Except Fault β) :
    (Except.ok value >>= next) = next value := rfl

@[simp] theorem error_bind {α β : Type} (fault : Fault) (next : α → Except Fault β) :
    (Except.error fault >>= next) = .error fault := rfl

/-- `_controlledMotor` is followed. -/
def throughMotor (control : MotorControl K) : Except Fault Unit :=
  if control.controlledMotor then .ok () else .error .nullPointer

/-- A link without an encoder ends the process when it is asked for the angle. -/
def getLinkedEncoderAngle (state : LinkState K) (control : MotorControl K) : Except Fault Unit := do
  throughMotor control
  if state.link.encoder.isNone then .error .logFatal else .ok ()

def getLinkedMotorSpeed (control : MotorControl K) : Except Fault Unit := throughMotor control

/-- What setControlTargetImpl and clearControlRunImpl read. -/
def Kind.samples (state : LinkState K) (control : MotorControl K) : Kind → Except Fault Unit
  | .linearAngleTarget => .ok ()
  | .linearSpeedTarget => getLinkedEncoderAngle state control

/-- What isComplete and speedControlStep read, and the motor they hand the power to. -/
def Kind.executes (state : LinkState K) (control : MotorControl K) (recomputes : Bool) :
    Kind → Except Fault Unit
  | .linearAngleTarget => do
      getLinkedEncoderAngle state control
      throughMotor control
  | .linearSpeedTarget => do
      getLinkedMotorSpeed control
      if recomputes then getLinkedEncoderAngle state control else .ok ()
      throughMotor control

variable (kinds : Nat → Kind)

section Operations

variable [Field K]

/-- A tick of a timer that is not armed does not take place. -/
def perform (state : LinkState K) : Operation K → Except Fault (LinkState K)
  | .startSpeedControl target => do
      let id ← orNull state.link.spdControl
      (kinds id).samples state (state.controls id)
      (kinds id).samples state (state.controls id).clearControlRun
      orNull (state.startSpeedControlImpl target)
  | .stopSpeedControl => orNull state.stopSpeedControlImpl
  | .setSpeedController spdControl => orNull (state.setSpeedControllerImpl spdControl)
  | .setControlTarget target =>
      match state.link.spdControl with
      | none => .error .logFatal
      | some id =>
          if state.link.spdControlEnabled then do
            (kinds id).samples state (state.controls id)
            orNull (state.callControl fun control => control.setControlTarget target)
          else .ok state
  | .setSpeed pow => do
      let released ← orNull state.releaseControl
      .ok (released.setSpeedImpl pow)
  | .tick control pow recomputes =>
      if (state.controls control).timerArmed then do
        (kinds control).executes state (state.controls control) recomputes
        .ok (state.setSpeedImpl pow)
      else .ok state

def step (state : LinkState K) (operation : Operation K) : Option (LinkState K) :=
  (perform kinds state operation).toOption

def NoNull (state : LinkState K) (operation : Operation K) : Prop :=
  perform kinds state operation ≠ .error .nullPointer

/-- A start needs a LinearAngleTarget, a stop needs a controller. -/
def Ready (state : LinkState K) : Operation K → Prop
  | .startSpeedControl _ =>
      ∃ id, state.link.spdControl = some id ∧ kinds id = .linearAngleTarget
  | .stopSpeedControl => state.link.spdControl.isSome = true
  | _ => True

end Operations

/-- No LinearSpeedTarget has ever been given its motor, and none runs. -/
structure Inv (state : LinkState K) : Prop where
  enabled : state.link.spdControlEnabled = true →
    ∃ id, state.link.spdControl = some id ∧ kinds id = .linearAngleTarget
  armed : ∀ id, (state.controls id).timerArmed = true →
    (state.controls id).controlledMotor = true
  motor : ∀ id, (state.controls id).controlledMotor = true → kinds id = .linearAngleTarget

variable {kinds}

def withControl (state : LinkState K) (id : Nat) (control : MotorControl K) : LinkState K :=
  { state with controls := Function.update state.controls id control }

theorem callControl_withControl {state : LinkState K} {id : Nat}
    (attached : state.link.spdControl = some id) (method : MotorControl K → MotorControl K) :
    state.callControl method = some (withControl state id (method (state.controls id))) :=
  LinkState.callControl_eq attached method

/-- A controller that runs is a LinearAngleTarget with a motor. -/
theorem Inv.running {state : LinkState K} (inv : Inv kinds state) {id : Nat}
    (armed : (state.controls id).timerArmed = true) :
    (state.controls id).controlledMotor = true ∧ kinds id = .linearAngleTarget :=
  ⟨inv.armed id armed, inv.motor id (inv.armed id armed)⟩

theorem samples_speed {state : LinkState K} (inv : Inv kinds state) {id : Nat}
    (kind : kinds id = .linearSpeedTarget) :
    (kinds id).samples state (state.controls id) = .error .nullPointer := by
  have unset : (state.controls id).controlledMotor = false := by
    by_contra set
    have angle := inv.motor id (by simpa using set)
    rw [kind] at angle
    cases angle
  rw [kind]
  simp only [Kind.samples, getLinkedEncoderAngle, throughMotor, unset]
  rfl

/-- A controller may be exchanged for one that has its motor if it runs, and that
is a LinearAngleTarget if it has its motor. -/
theorem Inv.exchange {state : LinkState K} (inv : Inv kinds state) {id : Nat}
    {control : MotorControl K}
    (armed : control.timerArmed = true → control.controlledMotor = true)
    (motor : control.controlledMotor = true → kinds id = .linearAngleTarget) :
    Inv kinds (withControl state id control) := by
  refine ⟨inv.enabled, ?_, ?_⟩
  · intro other
    by_cases same : other = id
    · subst same
      simpa [withControl] using armed
    · simpa [withControl, Function.update_of_ne same] using inv.armed other
  · intro other
    by_cases same : other = id
    · subst same
      simpa [withControl] using motor
    · simpa [withControl, Function.update_of_ne same] using inv.motor other

theorem Inv.cancelled {state : LinkState K} (inv : Inv kinds state) (id : Nat) :
    Inv kinds (withControl state id (state.controls id).cancel) :=
  inv.exchange nofun (inv.motor id)

section Operations

variable [Field K]

/-- The link after `_talon->Set(0)`. -/
def halted (state : LinkState K) : LinkState K :=
  { state with link := { state.link with talon := some 0 } }

def attach (state : LinkState K) (spdControl : Option Nat) : LinkState K :=
  { state with link := { state.link with spdControl := spdControl } }

/-- The controller as a start request leaves it. -/
def started (control : MotorControl K) (target : K) : MotorControl K :=
  ((control.clearControlRun.setControlTarget target).setControlledMotor).start

theorem start_cases {state : LinkState K} (inv : Inv kinds state) (target : K) :
    (¬Ready kinds state (.startSpeedControl target) ∧
      perform kinds state (.startSpeedControl target) = .error .nullPointer) ∨
    ∃ id, state.link.spdControl = some id ∧ kinds id = .linearAngleTarget ∧
      perform kinds state (.startSpeedControl target) =
        .ok ((withControl state id (started (state.controls id) target)).setEnabled true) := by
  rcases Option.eq_none_or_eq_some state.link.spdControl with attached | ⟨id, attached⟩
  · exact .inl ⟨by simp [Ready, attached], by simp [perform, attached]⟩
  · cases kind : kinds id with
    | linearAngleTarget =>
        refine .inr ⟨id, attached, kind, ?_⟩
        simp only [perform, LinkState.startSpeedControlImpl, callControl_withControl attached,
          attached, orNull_some, ok_bind, kind, Kind.samples, Option.map_some]
        rfl
    | linearSpeedTarget =>
        left
        refine ⟨by simp [Ready, attached, kind], ?_⟩
        simp only [perform, attached, orNull_some, ok_bind, samples_speed inv kind, error_bind]

variable (kinds) in
theorem stop_cases (state : LinkState K) :
    (¬Ready kinds state .stopSpeedControl ∧
      perform kinds state .stopSpeedControl = .error .nullPointer) ∨
    ∃ id, state.link.spdControl = some id ∧
      perform kinds state .stopSpeedControl =
        .ok ((withControl (halted state) id (state.controls id).cancel).setEnabled false) := by
  rcases Option.eq_none_or_eq_some state.link.spdControl with attached | ⟨id, attached⟩
  · left
    refine ⟨by simp [Ready, attached], ?_⟩
    simp [perform, LinkState.stopSpeedControlImpl, LinkState.callControl, attached]
  · refine .inr ⟨id, attached, ?_⟩
    have called := callControl_withControl
      (show (halted state).link.spdControl = some id from attached) MotorControl.cancel
    change orNull (((halted state).callControl MotorControl.cancel).map fun cancelled =>
      cancelled.setEnabled false) = _
    rw [called]
    rfl

theorem controller_cases {state : LinkState K} (inv : Inv kinds state) (spdControl : Option Nat) :
    (state.link.spdControlEnabled = true ∧ ∃ id,
      perform kinds state (.setSpeedController spdControl) =
        .ok (attach (withControl (state.setEnabled false) id (state.controls id).cancel)
          spdControl)) ∨
    state.link.spdControlEnabled = false ∧
      perform kinds state (.setSpeedController spdControl) = .ok (attach state spdControl) := by
  have assigns : state.setSpeedControllerImpl spdControl =
      if state.link.spdControlEnabled then
        ((state.setEnabled false).callControl MotorControl.cancel).map fun released =>
          attach released spdControl
      else some (attach state spdControl) := rfl
  by_cases enabled : state.link.spdControlEnabled = true
  · obtain ⟨id, attached, _⟩ := inv.enabled enabled
    have called := callControl_withControl
      (show (state.setEnabled false).link.spdControl = some id from attached) MotorControl.cancel
    refine .inl ⟨enabled, id, ?_⟩
    rw [perform, assigns, if_pos enabled, called]
    rfl
  · refine .inr ⟨by simpa using enabled, ?_⟩
    rw [perform, assigns, if_neg enabled]
    rfl

theorem target_cases {state : LinkState K} (inv : Inv kinds state) (target : K) :
    (state.link.spdControl = none ∧
      perform kinds state (.setControlTarget target) = .error .logFatal) ∨
    perform kinds state (.setControlTarget target) = .ok state ∨
    ∃ id, state.link.spdControl = some id ∧
      perform kinds state (.setControlTarget target) =
        .ok (withControl state id ((state.controls id).setControlTarget target)) := by
  rcases Option.eq_none_or_eq_some state.link.spdControl with none | ⟨id, attached⟩
  · exact .inl ⟨none, by simp only [perform, none]⟩
  · right
    by_cases enabled : state.link.spdControlEnabled = true
    · right
      obtain ⟨other, held, kind⟩ := inv.enabled enabled
      have same : id = other := Option.some.inj (attached.symm.trans held)
      subst same
      refine ⟨id, attached, ?_⟩
      have called := callControl_withControl attached fun control => control.setControlTarget target
      simp only [perform, attached, enabled, ↓reduceIte, kind, Kind.samples, ok_bind, called,
        orNull_some]
    · left
      simp only [perform, attached, enabled, ↓reduceIte, Bool.false_eq_true]

theorem speed_cases {state : LinkState K} (inv : Inv kinds state) (pow : K) :
    perform kinds state (.setSpeed pow) = .ok (state.setSpeedImpl pow) ∨
    ∃ id, perform kinds state (.setSpeed pow) = .ok
      (((withControl state id (state.controls id).cancel).setEnabled false).setSpeedImpl pow) := by
  by_cases enabled : state.link.spdControlEnabled = true
  · obtain ⟨id, attached, _⟩ := inv.enabled enabled
    refine .inr ⟨id, ?_⟩
    simp only [perform, LinkState.releaseControl, enabled, ↓reduceIte,
      callControl_withControl attached, Option.map_some, orNull_some, ok_bind]
  · left
    simp only [perform, LinkState.releaseControl, enabled, Bool.false_eq_true, ↓reduceIte,
      orNull_some, ok_bind]

theorem tick_cases {state : LinkState K} (inv : Inv kinds state) (control : Nat) (pow : K)
    (recomputes : Bool) :
    perform kinds state (.tick control pow recomputes) = .ok state ∨
    perform kinds state (.tick control pow recomputes) = .error .logFatal ∨
    perform kinds state (.tick control pow recomputes) = .ok (state.setSpeedImpl pow) := by
  by_cases armed : (state.controls control).timerArmed = true
  · right
    obtain ⟨motor, kind⟩ := inv.running armed
    have through : throughMotor (state.controls control) = .ok () := if_pos motor
    by_cases none : state.link.encoder.isNone = true
    · left
      simp only [perform, armed, ↓reduceIte, kind, Kind.executes, getLinkedEncoderAngle, through,
        ok_bind, none, error_bind]
    · right
      simp only [perform, armed, ↓reduceIte, kind, Kind.executes, getLinkedEncoderAngle, through,
        ok_bind, none, Bool.false_eq_true]
  · left
    simp only [perform, armed, ↓reduceIte, Bool.false_eq_true]

theorem noNull_iff {state : LinkState K} (inv : Inv kinds state) (operation : Operation K) :
    NoNull kinds state operation ↔ Ready kinds state operation := by
  unfold NoNull
  cases operation with
  | startSpeedControl target =>
      rcases start_cases inv target with ⟨unready, null⟩ | ⟨id, attached, kind, ok⟩
      · simp [null, unready]
      · simp [ok, Ready, attached, kind]
  | stopSpeedControl =>
      rcases stop_cases kinds state with ⟨unready, null⟩ | ⟨id, attached, ok⟩
      · simp [null, unready]
      · simp [ok, Ready, attached]
  | setSpeedController spdControl =>
      rcases controller_cases inv spdControl with ⟨_, id, ok⟩ | ⟨_, ok⟩ <;> simp [ok, Ready]
  | setControlTarget target =>
      rcases target_cases inv target with ⟨_, fatal⟩ | ok | ⟨id, _, ok⟩
      · simp [fatal, Ready]
      · simp [ok, Ready]
      · simp [ok, Ready]
  | setSpeed pow =>
      rcases speed_cases inv pow with ok | ⟨id, ok⟩ <;> simp [ok, Ready]
  | tick control pow recomputes =>
      rcases tick_cases inv control pow recomputes with ok | fatal | ok
      · simp [ok, Ready]
      · simp [fatal, Ready]
      · simp [ok, Ready]

theorem Inv.step {state next : LinkState K} {operation : Operation K} (inv : Inv kinds state)
    (taken : step kinds state operation = some next) : Inv kinds next := by
  have disabled : ∀ {state : LinkState K}, Inv kinds state → Inv kinds (state.setEnabled false) :=
    fun inv => ⟨nofun, inv.armed, inv.motor⟩
  have driven : ∀ {state : LinkState K} (pow : K), Inv kinds state →
      Inv kinds (state.setSpeedImpl pow) :=
    fun _ inv => ⟨inv.enabled, inv.armed, inv.motor⟩
  unfold MotorLinkPointers.step at taken
  cases operation with
  | startSpeedControl target =>
      rcases start_cases inv target with ⟨_, null⟩ | ⟨id, attached, kind, ok⟩
      · rw [null] at taken
        cases taken
      · rw [ok] at taken
        cases taken
        have kept : Inv kinds (withControl state id
          (started (state.controls id) target)) := inv.exchange (fun _ => rfl) (fun _ => kind)
        exact ⟨fun _ => ⟨id, attached, kind⟩, kept.armed, kept.motor⟩
  | stopSpeedControl =>
      rcases stop_cases kinds state with ⟨_, null⟩ | ⟨id, _, ok⟩
      · rw [null] at taken
        cases taken
      · rw [ok] at taken
        cases taken
        have kept : Inv kinds (halted state) := ⟨inv.enabled, inv.armed, inv.motor⟩
        exact disabled (kept.cancelled id)
  | setSpeedController spdControl =>
      rcases controller_cases inv spdControl with ⟨_, id, ok⟩ | ⟨enabled, ok⟩
      · rw [ok] at taken
        cases taken
        have kept := (disabled inv).cancelled id
        exact ⟨nofun, kept.armed, kept.motor⟩
      · rw [ok] at taken
        cases taken
        exact ⟨fun on => absurd on (by simp [attach, enabled]), inv.armed, inv.motor⟩
  | setControlTarget target =>
      rcases target_cases inv target with ⟨_, fatal⟩ | ok | ⟨id, _, ok⟩
      · rw [fatal] at taken
        cases taken
      · rw [ok] at taken
        cases taken
        exact inv
      · rw [ok] at taken
        cases taken
        exact inv.exchange (inv.armed id) (inv.motor id)
  | setSpeed pow =>
      rcases speed_cases inv pow with ok | ⟨id, ok⟩
      · rw [ok] at taken
        cases taken
        exact driven pow inv
      · rw [ok] at taken
        cases taken
        exact driven pow (disabled (inv.cancelled id))
  | tick control pow recomputes =>
      rcases tick_cases inv control pow recomputes with ok | fatal | ok
      · rw [ok] at taken
        cases taken
        exact inv
      · rw [fatal] at taken
        cases taken
      · rw [ok] at taken
        cases taken
        exact driven pow inv

end Operations

section Runs

variable [Field K] [LinearOrder K] [FloorRing K]

/-- A link and the controllers there are, all as constructed. -/
def initial (kinds : Nat → Kind) (targets : Nat → K) (construction : Construction K) :
    LinkState K :=
  ⟨construction.link, fun id => ⟨(kinds id).rule, targets id, false, false⟩⟩

theorem initial_inv (kinds : Nat → Kind) (targets : Nat → K) (construction : Construction K) :
    Inv kinds (initial kinds targets construction) := by
  refine ⟨?_, nofun, nofun⟩
  cases construction <;> exact nofun

/-- However the link was constructed, a sequence of operations follows no null
pointer exactly if it starts only LinearAngleTargets and stops only controllers. -/
theorem noNull_iff_ready (kinds : Nat → Kind) (targets : Nat → K) (construction : Construction K)
    (operations : List (Operation K)) :
    Along (step kinds) (NoNull kinds) (initial kinds targets construction) operations ↔
      Along (step kinds) (Ready kinds) (initial kinds targets construction) operations := by
  have initially := initial_inv kinds targets construction
  constructor
  · exact Along.of_invariant (Inv kinds) (fun _ _ _ inv _ taken => inv.step taken)
      (fun _ operation inv safe => (noNull_iff inv operation).mp safe) initially
  · exact Along.of_invariant (Inv kinds) (fun _ _ _ inv _ taken => inv.step taken)
      (fun _ operation inv ready => (noNull_iff inv operation).mpr ready) initially

end Runs

/-- The first start of a LinearSpeedTarget asks the motor it has not been given
for its angle; a link without a controller stops none. -/
theorem not_noNull_first :
    ¬Along (step fun _ => .linearSpeedTarget) (NoNull fun _ => .linearSpeedTarget)
        (initial (fun _ => .linearSpeedTarget) (fun _ => (0 : ℚ)) (.control (some 0) (some 0)))
        [.startSpeedControl 90] ∧
      ¬Along (step fun _ => .linearAngleTarget) (NoNull fun _ => .linearAngleTarget)
        (initial (fun _ => .linearAngleTarget) (fun _ => (0 : ℚ)) .talon) [.stopSpeedControl] :=
  ⟨fun along => along.1 rfl, fun along => along.1 rfl⟩

end FrcRobot.MotorLinkPointers
