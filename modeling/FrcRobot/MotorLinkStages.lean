import FrcRobot.MotorLink
import FrcRobot.StagedServer

set_option autoImplicit false

/- The commands of a MotorLink access by access, since its flag and its
controller are also changed on the threads of its clients. -/
namespace FrcRobot.MotorLink

open StagedServer

variable {K : Type*}

/-- Whether the request starts (`some true`) or ends (`some false`) speed control. -/
def control : Request K → Option Bool
  | .startSpeedControlImpl _ => some true
  | .setSpeedControllerImpl _ => some false
  | .stopSpeedControlImpl => some false
  | _ => none

/-- The next access of the command that is being executed: the statements of
startSpeedControlImpl, those of setSpeedControllerImpl, those of
stopSpeedControlImpl. Nobody else touches what the other commands do. -/
inductive Stage (K : Type*) where
  | clearControlRun (target : K)
  | setControlTarget (target : K)
  | setControlledMotor
  | start
  | enable
  | test (spdControl : Option Nat)
  | disable (spdControl : Option Nat)
  | cancel (spdControl : Option Nat)
  | attach (spdControl : Option Nat)
  | brake
  | stop
  | release
  | whole (request : Request K) (plain : control request = none)

def Stage.control : Stage K → Option Bool
  | .clearControlRun _ | .setControlTarget _ | .setControlledMotor | .start | .enable => some true
  | .test _ | .disable _ | .cancel _ | .attach _ | .brake | .stop | .release => some false
  | .whole _ _ => none

def begin : Request K → Stage K
  | .startSpeedControlImpl target => .clearControlRun target
  | .setSpeedControllerImpl spdControl => .test spdControl
  | .stopSpeedControlImpl => .brake
  | .setSpeedImpl pow => .whole (.setSpeedImpl pow) rfl
  | .setEncoderImpl enc => .whole (.setEncoderImpl enc) rfl
  | .reverseMotorImpl => .whole .reverseMotorImpl rfl
  | .setSpeedScalarImpl powScl => .whole (.setSpeedScalarImpl powScl) rfl

theorem begin_control (request : Request K) : (begin request).control = control request := by
  cases request <;> rfl

section Perform

variable [Field K]

/-- One access, and the stage that comes after it. -/
def perform (state : LinkState K) : Stage K → Option (LinkState K × Option (Stage K))
  | .clearControlRun target =>
      (state.callControl MotorControl.clearControlRun).map (·, some (.setControlTarget target))
  | .setControlTarget target =>
      (state.callControl fun control => control.setControlTarget target).map
        (·, some .setControlledMotor)
  | .setControlledMotor => (state.callControl MotorControl.setControlledMotor).map (·, some .start)
  | .start => (state.callControl MotorControl.start).map (·, some .enable)
  | .enable => some (state.setEnabled true, none)
  | .test spdControl =>
      some (state, some (if state.link.spdControlEnabled then .disable spdControl
        else .attach spdControl))
  | .disable spdControl => some (state.setEnabled false, some (.cancel spdControl))
  | .cancel spdControl => (state.callControl MotorControl.cancel).map (·, some (.attach spdControl))
  | .attach spdControl =>
      some ({ state with link := { state.link with spdControl := spdControl } }, none)
  | .brake => some ({ state with link := { state.link with talon := some 0 } }, some .stop)
  | .stop => (state.callControl MotorControl.cancel).map (·, some .release)
  | .release => some (state.setEnabled false, none)
  | .whole request _ => (state.exec request).map (·, none)

end Perform

/-- The queue thread of a link with what it works on. -/
abbrev Executor (K : Type*) := StagedServer.Worker (LinkState K) (Request K) (Stage K)

/-- The last of the requests that starts or ends speed control. -/
def lastControl : List (Request K) → Option Bool
  | [] => none
  | request :: rest => (lastControl rest).or (control request)

/-- The same for the requests that wait or are being executed. -/
def pendingControl (executor : Executor K) : Option Bool :=
  (lastControl executor.queue).or (executor.executing.bind Stage.control)

theorem lastControl_append (requests : List (Request K)) (request : Request K) :
    lastControl (requests ++ [request]) = (control request).or (lastControl requests) := by
  induction requests with
  | nil => simp [lastControl]
  | cons other rest ih => simp [lastControl, ih, Option.or_assoc]

theorem pendingControl_enqueue {request : Request K} (plain : control request = none)
    (executor : Executor K) :
    pendingControl (executor.enqueue request) = pendingControl executor := by
  simp [pendingControl, StagedServer.Worker.enqueue, lastControl_append, plain]

/-- setSpeedControllerImpl has cleared the flag, or has found it cleared. -/
def Lowered : Option (Stage K) → Prop
  | some (.cancel _) | some (.attach _) => True
  | _ => False

section CallControl

variable {state called : LinkState K} {method : MotorControl K → MotorControl K}

theorem callControl_iff : state.callControl method = some called ↔
    ∃ id, state.link.spdControl = some id ∧ called = { state with
      controls := Function.update state.controls id (method (state.controls id)) } := by
  constructor
  · intro through
    obtain ⟨id, attached, rfl⟩ := Option.map_eq_some_iff.mp through
    exact ⟨id, attached, rfl⟩
  · rintro ⟨id, attached, rfl⟩
    exact LinkState.callControl_eq attached method

theorem callControl_link (through : state.callControl method = some called) :
    called.link = state.link := by
  obtain ⟨_, _, rfl⟩ := callControl_iff.mp through
  rfl

/-- No call of the controller touches the flag. -/
theorem lowered_callControl {executing : Option (Stage K)}
    (through : state.callControl method = some called)
    (lowered : Lowered executing → state.link.spdControlEnabled = false) :
    Lowered executing → called.link.spdControlEnabled = false := by
  rw [callControl_link through]
  exact lowered

/-- A call that leaves the timer alone. -/
theorem callControl_armed (through : state.callControl method = some called)
    (same : ∀ control, (method control).timerArmed = control.timerArmed) (id : Nat) :
    (called.controls id).timerArmed = (state.controls id).timerArmed := by
  obtain ⟨other, _, rfl⟩ := callControl_iff.mp through
  by_cases here : id = other
  · subst here
    simp [same]
  · simp [here]

end CallControl

section Serve

variable [Field K]

abbrev serve (executor : Executor K) : Option (Executor K) := executor.serve begin perform

/-- What the link comes to if only the queue thread goes on. -/
abbrev Settles (executor : Executor K) (final : LinkState K) : Prop :=
  Drains begin perform executor final

theorem exec_plain {state next : LinkState K} {request : Request K}
    (plain : control request = none) (executed : state.exec request = some next) :
    next.controls = state.controls ∧ next.link.spdControl = state.link.spdControl ∧
      next.link.spdControlEnabled = state.link.spdControlEnabled := by
  cases request with
  | setSpeedImpl | setEncoderImpl | reverseMotorImpl | setSpeedScalarImpl =>
      cases executed
      exact ⟨rfl, rfl, rfl⟩
  | startSpeedControlImpl | setSpeedControllerImpl | stopSpeedControlImpl => cases plain

theorem exec_callControl {request : Request K} (plain : control request = none)
    {state next called : LinkState K} {method : MotorControl K → MotorControl K}
    (executed : state.exec request = some next)
    (through : state.callControl method = some called) :
    ∃ other, called.exec request = some other ∧ next.callControl method = some other := by
  obtain ⟨id, attached, rfl⟩ := callControl_iff.mp through
  cases request with
  | setSpeedImpl | setEncoderImpl | reverseMotorImpl | setSpeedScalarImpl =>
      cases executed
      exact ⟨_, rfl, callControl_iff.mpr ⟨id, attached, rfl⟩⟩
  | startSpeedControlImpl | setSpeedControllerImpl | stopSpeedControlImpl => cases plain

/-- One access after the other amounts to the whole command. -/
theorem settles_exec {state final : LinkState K} {request : Request K}
    (executed : state.exec request = some final) :
    Settles ⟨state, some (begin request), []⟩ final := by
  cases request with
  | setSpeedImpl | setEncoderImpl | reverseMotorImpl | setSpeedScalarImpl =>
      cases executed
      exact .stage rfl (.done ⟨rfl, rfl⟩)
  | startSpeedControlImpl target =>
      obtain ⟨started, through, rfl⟩ := Option.map_eq_some_iff.mp executed
      obtain ⟨id, attached, rfl⟩ := callControl_iff.mp through
      have calls (controls : Nat → MotorControl K) (method : MotorControl K → MotorControl K) :
          LinkState.callControl ⟨state.link, controls⟩ method =
            some ⟨state.link, Function.update controls id (method (controls id))⟩ :=
        callControl_iff.mpr ⟨id, attached, rfl⟩
      refine .stage (congrArg (Option.map _) (calls _ _)) ?_
      refine .stage (congrArg (Option.map _) (calls _ _)) ?_
      refine .stage (congrArg (Option.map _) (calls _ _)) ?_
      refine .stage (congrArg (Option.map _) (calls _ _)) ?_
      refine .stage rfl ?_
      simp only [Function.update_self, Function.update_idem]
      exact .done ⟨rfl, rfl⟩
  | setSpeedControllerImpl spdControl =>
      change state.setSpeedControllerImpl spdControl = some final at executed
      unfold LinkState.setSpeedControllerImpl at executed
      refine .stage rfl ?_
      split at executed
      · rename_i enabled
        obtain ⟨cancelled, through, rfl⟩ := Option.map_eq_some_iff.mp executed
        rw [if_pos enabled]
        refine .stage rfl ?_
        refine .stage (congrArg (Option.map _) through) ?_
        exact .stage rfl (.done ⟨rfl, rfl⟩)
      · rename_i disabled
        cases executed
        rw [if_neg disabled]
        exact .stage rfl (.done ⟨rfl, rfl⟩)
  | stopSpeedControlImpl =>
      obtain ⟨cancelled, through, rfl⟩ := Option.map_eq_some_iff.mp executed
      refine .stage rfl ?_
      refine .stage (congrArg (Option.map _) through) ?_
      exact .stage rfl (.done ⟨rfl, rfl⟩)

/-- What the flag will be is known from the requests. -/
theorem perform_flag {state next : LinkState K} {stage : Stage K} {rest : Option (Stage K)}
    (lowered : Lowered (some stage) → state.link.spdControlEnabled = false)
    (performed : perform state stage = some (next, rest)) :
    (rest.bind Stage.control).getD next.link.spdControlEnabled =
        stage.control.getD state.link.spdControlEnabled ∧
      (Lowered rest → next.link.spdControlEnabled = false) := by
  cases stage with
  | clearControlRun | setControlTarget | setControlledMotor | start =>
      obtain ⟨called, _, same⟩ := Option.map_eq_some_iff.mp performed
      cases same
      exact ⟨rfl, False.elim⟩
  | enable | brake | release =>
      cases performed
      exact ⟨rfl, False.elim⟩
  | test spdControl =>
      cases performed
      split
      · exact ⟨rfl, False.elim⟩
      · rename_i off
        exact ⟨rfl, fun _ => by simpa using off⟩
  | disable spdControl =>
      cases performed
      exact ⟨rfl, fun _ => rfl⟩
  | cancel spdControl =>
      obtain ⟨called, through, same⟩ := Option.map_eq_some_iff.mp performed
      cases same
      exact ⟨rfl, fun _ => lowered_callControl through lowered trivial⟩
  | stop =>
      obtain ⟨called, _, same⟩ := Option.map_eq_some_iff.mp performed
      cases same
      exact ⟨rfl, False.elim⟩
  | attach spdControl =>
      cases performed
      exact ⟨lowered trivial, False.elim⟩
  | whole request plain =>
      obtain ⟨after, executed, same⟩ := Option.map_eq_some_iff.mp performed
      cases same
      exact ⟨(exec_plain plain executed).2.2, False.elim⟩

theorem serve_flag {executor next : Executor K}
    (lowered : Lowered executor.executing → executor.state.link.spdControlEnabled = false)
    (served : serve executor = some next) :
    (pendingControl next).getD next.state.link.spdControlEnabled =
        (pendingControl executor).getD executor.state.link.spdControlEnabled ∧
      (Lowered next.executing → next.state.link.spdControlEnabled = false) := by
  rcases serve_cases begin perform served with
    ⟨stage, after, rest, here, performed, rfl⟩ | ⟨request, rest, here, first, rfl⟩
  · obtain ⟨flag, still⟩ := perform_flag (here ▸ lowered) performed
    refine ⟨?_, still⟩
    rw [pendingControl, pendingControl, Option.getD_or, Option.getD_or, here, Option.bind_some]
    exact congrArg _ flag
  · refine ⟨?_, ?_⟩
    · simp [pendingControl, here, first, lastControl, begin_control]
    · cases request <;> exact False.elim

theorem settles_flag {executor : Executor K} {final : LinkState K}
    (lowered : Lowered executor.executing → executor.state.link.spdControlEnabled = false)
    (settles : Settles executor final) :
    final.link.spdControlEnabled =
      (pendingControl executor).getD executor.state.link.spdControlEnabled := by
  have reached := settles.invariant
    (fun worker => (pendingControl worker).getD worker.state.link.spdControlEnabled =
        (pendingControl executor).getD executor.state.link.spdControlEnabled ∧
      (Lowered worker.executing → worker.state.link.spdControlEnabled = false))
    (fun worker next inv served => by
      obtain ⟨flag, still⟩ := serve_flag inv.2 served
      exact ⟨flag.trans inv.1, still⟩)
    ⟨rfl, lowered⟩
  exact reached.1

/-- Only the requests that wait or are executed decide what starts or ends speed
control, and fewer of them with each step. -/
theorem pendingControl_serve {executor next : Executor K} (served : serve executor = some next) :
    pendingControl next = pendingControl executor ∨ pendingControl next = none := by
  rcases serve_cases begin perform served with
    ⟨stage, after, rest, here, performed, rfl⟩ | ⟨request, rest, here, first, rfl⟩
  · have onward : rest.bind Stage.control = stage.control ∨ rest = none := by
      cases stage with
      | clearControlRun | setControlTarget | setControlledMotor | start | cancel | stop =>
          obtain ⟨called, _, same⟩ := Option.map_eq_some_iff.mp performed
          cases same
          exact .inl rfl
      | enable | attach | release =>
          cases performed
          exact .inr rfl
      | disable | brake =>
          cases performed
          exact .inl rfl
      | test =>
          cases performed
          split <;> exact .inl rfl
      | whole =>
          obtain ⟨called, _, same⟩ := Option.map_eq_some_iff.mp performed
          cases same
          exact .inr rfl
    cases later : lastControl executor.queue with
    | some starts => exact .inl (by simp [pendingControl, later])
    | none =>
        rcases onward with same | rfl
        · exact .inl (by simp [pendingControl, later, here, same])
        · exact .inr (by simp [pendingControl, later])
  · exact .inl (by simp [pendingControl, here, first, lastControl, begin_control])

/-- A call that comes while nothing that waits starts or ends speed control comes
as well after all of it. -/
theorem settles_callControl {executor : Executor K} {final called : LinkState K}
    {method : MotorControl K → MotorControl K} (plain : pendingControl executor = none)
    (through : executor.state.callControl method = some called)
    (settles : Settles executor final) :
    ∃ other, Settles { executor with state := called } other ∧
      final.callControl method = some other := by
  refine settles.followed
    (fun worker twin => pendingControl worker = none ∧
      worker.state.callControl method = some twin.state ∧ twin.executing = worker.executing ∧
      twin.queue = worker.queue)
    (fun state other => state.callControl method = some other) ?_ ?_
    ⟨plain, through, rfl, rfl⟩
  · rintro ⟨state, executing, queue⟩ next ⟨late, lateExecuting, lateQueue⟩
      ⟨plain, through, rfl, rfl⟩ served
    have onward : pendingControl next = none :=
      (pendingControl_serve served).elim (fun same => same.trans plain) id
    rcases serve_cases begin perform served with
      ⟨stage, after, rest, here, performed, rfl⟩ | ⟨request, rest, here, first, rfl⟩
    · cases here
      have silent : stage.control = none := (Option.or_eq_none_iff.mp plain).2
      cases stage with
      | whole request free =>
          obtain ⟨changed, executed, same⟩ := Option.map_eq_some_iff.mp performed
          cases same
          obtain ⟨other, executedToo, throughToo⟩ := exec_callControl free executed through
          exact ⟨_, .inr (congrArg (Option.map _) (congrArg (Option.map _) executedToo)), onward,
            throughToo, rfl, rfl⟩
      | _ => cases silent
    · cases here
      cases first
      exact ⟨_, .inr rfl, onward, through, rfl, rfl⟩
  · rintro ⟨state, executing, queue⟩ ⟨late, lateExecuting, lateQueue⟩ ⟨_, through, rfl, rfl⟩
      ⟨idle, empty⟩
    exact ⟨⟨idle, empty⟩, through⟩

end Serve

end FrcRobot.MotorLink
