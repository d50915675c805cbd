import FrcRobot.Interleaving
import FrcRobot.MotorLinkTimers

set_option autoImplicit false

/- One client of a MotorLink and the link's queue thread, each of them access by
access. -/
namespace FrcRobot.MotorLink

open DeferredQueue Interleaving StagedServer

variable {K : Type*}

/-- The next access of the call that the client is in: those of setSpeed, those of
setControlTarget, and the Enqueue with which all calls but the latter end. -/
inductive Client (K : Type*) where
  | test (pow : K)
  | cancel (pow : K)
  | disable (pow : K)
  | present (target : K)
  | testTarget (target : K)
  | setTarget (target : K)
  | enqueue (request : Request K)

def enter : Call K → Client K
  | .setSpeed pow => .test pow
  | .setControlTarget target => .present target
  | .setSpeedForce pow => .enqueue (.setSpeedImpl pow)
  | .setEncoder enc => .enqueue (.setEncoderImpl enc)
  | .reverseMotor => .enqueue .reverseMotorImpl
  | .setSpeedScalar powScl => .enqueue (.setSpeedScalarImpl powScl)
  | .startSpeedControl target => .enqueue (.startSpeedControlImpl target)
  | .setSpeedController spdControl => .enqueue (.setSpeedControllerImpl spdControl)
  | .stopSpeedControl => .enqueue .stopSpeedControlImpl

structure Parties (K : Type*) where
  executor : Executor K
  client : Option (Client K)

def Parties.setState (parties : Parties K) (state : LinkState K) (client : Option (Client K)) :
    Parties K :=
  ⟨{ parties.executor with state := state }, client⟩

/-- The client's next access. Without a controller LOG_FATAL ends the process;
without an enabled one the target is dropped. -/
def Parties.access (parties : Parties K) : Option (Parties K) :=
  let state := parties.executor.state
  match parties.client with
  | none => none
  | some (.test pow) =>
      some { parties with client := some (if state.link.spdControlEnabled then .cancel pow
        else .enqueue (.setSpeedImpl pow)) }
  | some (.cancel pow) =>
      (state.callControl MotorControl.cancel).map (parties.setState · (some (.disable pow)))
  | some (.disable pow) =>
      some (parties.setState (state.setEnabled false) (some (.enqueue (.setSpeedImpl pow))))
  | some (.present target) =>
      if state.link.spdControl.isNone then none
      else some { parties with client := some (.testTarget target) }
  | some (.testTarget target) =>
      some { parties with client := if state.link.spdControlEnabled then some (.setTarget target)
        else none }
  | some (.setTarget target) =>
      (state.callControl fun control => control.setControlTarget target).map
        (parties.setState · none)
  | some (.enqueue request) => some ⟨parties.executor.enqueue request, none⟩

/-- The client begins its next call, or it or the queue thread goes on. -/
inductive Action (K : Type*) where
  | issue (call : Call K)
  | access
  | serve

def issuedCalls : List (Action K) → List (Call K)
  | [] => []
  | .issue call :: rest => call :: issuedCalls rest
  | .access :: rest | .serve :: rest => issuedCalls rest

def initial (start : LinkState K) : Parties K := ⟨⟨start, none, []⟩, none⟩

section Runs

variable [Field K]

def step (parties : Parties K) : Action K → Option (Parties K)
  | .issue call =>
      if parties.client.isNone then some { parties with client := some (enter call) } else none
  | .access => parties.access
  | .serve => (serve parties.executor).map fun executor => { parties with executor := executor }

/-- A call together with everything it has queued, before anything else happens. -/
def complete (state : LinkState K) (call : Call K) : Option (LinkState K) :=
  (issue ⟨state, []⟩ call).bind (Server.settled LinkState.exec)

/-- Once all calls have returned and the queue has been worked off, the link is as
if every call had been completed before the next. -/
def InIssueOrder (start : LinkState K) (actions : List (Action K)) : Prop :=
  ∀ parties final, run step (initial start) actions = some parties → parties.client = none →
    parties.executor.Drained → execAll complete start (issuedCalls actions) = some final →
    parties.executor.state = final

/-- The flag is looked at when the requests that wait or are being executed make
no difference to it, and no request sets it between a call's cancel and the access
that clears it, with an armed timer that nothing would cancel. -/
def Timely (parties : Parties K) : Action K → Prop
  | .issue _ => True
  | .access =>
      match parties.client with
      | some (.test _) => pendingControl parties.executor ≠ some true
      | some (.testTarget _) => pendingControl parties.executor = none ∨
          parties.executor.state.link.spdControlEnabled = false ∧
            pendingControl parties.executor ≠ some true
      | _ => True
  | .serve =>
      match parties.client, parties.executor.executing with
      | some (.disable _), some .enable =>
          (∀ id ∈ parties.executor.state.link.spdControl,
            (parties.executor.state.controls id).timerArmed = false) ∨
          nextCancels parties.executor.queue = true
      | _, _ => True

instance (parties : Parties K) (action : Action K) : Decidable (Timely parties action) := by
  unfold Timely
  repeat' split
  all_goals infer_instance

theorem complete_setSpeed (state : LinkState K) (pow : K) :
    complete state (.setSpeed pow) =
      state.releaseControl.map fun freed => freed.setSpeedImpl pow := by
  cases released : state.releaseControl with
  | none => simp [complete, issue, setSpeed, released]
  | some freed => simp [complete, issue, setSpeed, released, Server.settled, Server.enqueue,
      LinkState.exec]

theorem complete_setControlTarget (state : LinkState K) (target : K) :
    complete state (.setControlTarget target) = state.setControlTarget target := by
  cases changed : state.setControlTarget target with
  | none => simp [complete, issue, changed]
  | some next => simp [complete, issue, changed, Server.settled]

theorem complete_enqueue {state : LinkState K} {call : Call K} {request : Request K}
    (queued : enter call = .enqueue request) : complete state call = state.exec request := by
  cases call with
  | setSpeed | setControlTarget => cases queued
  | setSpeedForce | setEncoder | reverseMotor | setSpeedScalar | startSpeedControl
  | setSpeedController | stopSpeedControl =>
      cases queued
      simp [complete, issue, Server.settled, Server.enqueue]

/-- How far the call under way has got, measured by the state `wanted` that the
completed calls and this one come to. -/
def Ahead (executor : Executor K) (wanted : LinkState K) : Option (Client K) → Prop
  | none => Settles executor wanted
  | some (.test pow) => ∃ final, Settles executor final ∧
      final.releaseControl.map (fun freed => freed.setSpeedImpl pow) = some wanted
  | some (.cancel pow) | some (.disable pow) => ∃ final, Settles executor final ∧
      wanted = (disarmed final).setSpeedImpl pow ∧ pendingControl executor ≠ some true
  | some (.present target) | some (.testTarget target) => ∃ final, Settles executor final ∧
      final.setControlTarget target = some wanted
  | some (.setTarget target) => ∃ final, Settles executor final ∧
      final.callControl (fun control => control.setControlTarget target) = some wanted ∧
      pendingControl executor = none
  | some (.enqueue request) => ∃ final, Settles executor final ∧ final.exec request = some wanted

/-- The client does not stand before the access that clears the flag. -/
def Trusted (client : Option (Client K)) : Prop := ∀ pow, client ≠ some (.disable pow)

structure Inv (wanted : LinkState K) (parties : Parties K) : Prop where
  orderly : Orderly (Trusted parties.client) parties.executor
  ahead : Ahead parties.executor wanted parties.client

theorem Inv.serve {wanted : LinkState K} {parties next : Parties K} (inv : Inv wanted parties)
    (timely : Timely parties .serve) (taken : step parties .serve = some next) :
    Inv wanted next := by
  obtain ⟨executor, client⟩ := parties
  obtain ⟨orderly, ahead⟩ := inv
  obtain ⟨executor', served, rfl⟩ := Option.map_eq_some_iff.mp taken
  refine ⟨orderly.serve ?_ served, ?_⟩
  · intro enabling id armed
    by_cases clearing : ∃ pow, client = some (.disable pow)
    · obtain ⟨pow, rfl⟩ := clearing
      obtain ⟨state, executing, queue⟩ := executor
      cases enabling
      refine .inr (timely.resolve_left fun unarmed => ?_)
      exact absurd ((unarmed id (orderly.attached id armed)).symm.trans armed) (by decide)
    · exact .inl fun pow same => clearing ⟨pow, same⟩
  · have pending := pendingControl_serve served
    cases client with
    | none => exact Drains.of_serve ahead served
    | some access =>
        cases access with
        | test | present | testTarget | enqueue =>
            obtain ⟨final, settles, onward⟩ := ahead
            exact ⟨final, settles.of_serve served, onward⟩
        | cancel | disable =>
            obtain ⟨final, settles, onward, notStarting⟩ := ahead
            refine ⟨final, settles.of_serve served, onward, ?_⟩
            rcases pending with same | none
            · exact same ▸ notStarting
            · simp [none]
        | setTarget =>
            obtain ⟨final, settles, onward, plain⟩ := ahead
            exact ⟨final, settles.of_serve served, onward, pending.elim (·.trans plain) id⟩

/-- Where no start is pending and the flag is down, it stays down. -/
theorem disabled_of_settles {executor : Executor K} {final : LinkState K} {trusted : Prop}
    (orderly : Orderly trusted executor) (settles : Settles executor final)
    (notStarting : pendingControl executor ≠ some true)
    (down : executor.state.link.spdControlEnabled = false) :
    final.link.spdControlEnabled = false := by
  rw [settles_flag orderly.lowered settles, down]
  revert notStarting
  cases pendingControl executor with
  | none => simp
  | some starts => cases starts <;> simp

theorem Inv.test {wanted : LinkState K} {executor : Executor K} {next : Parties K} {pow : K}
    (inv : Inv wanted ⟨executor, some (.test pow)⟩)
    (timely : pendingControl executor ≠ some true)
    (taken : Parties.access ⟨executor, some (.test pow)⟩ = some next) : Inv wanted next := by
  obtain ⟨orderly, final, settles, completed⟩ := inv
  obtain ⟨freed, released, rfl⟩ := Option.map_eq_some_iff.mp completed
  cases taken
  by_cases running : executor.state.link.spdControlEnabled = true
  · rw [if_pos running]
    have consistent := settles_consistent (orderly.mono fun _ => trivial) settles
    refine ⟨orderly.mono fun _ => nofun, final, settles, ?_, timely⟩
    rw [releaseControl_eq consistent released]
  · rw [if_neg running]
    refine ⟨orderly.mono fun _ => nofun, final, settles, ?_⟩
    have idle := disabled_of_settles orderly settles timely (by simpa using running)
    simp only [LinkState.releaseControl, idle, Bool.false_eq_true, ↓reduceIte,
      Option.some.injEq] at released
    rw [released]
    rfl

theorem Inv.cancel {wanted : LinkState K} {executor : Executor K} {next : Parties K} {pow : K}
    (inv : Inv wanted ⟨executor, some (.cancel pow)⟩)
    (taken : Parties.access ⟨executor, some (.cancel pow)⟩ = some next) : Inv wanted next := by
  obtain ⟨orderly, final, settles, rfl, notStarting⟩ := inv
  obtain ⟨called, through, rfl⟩ := Option.map_eq_some_iff.mp taken
  have behind : Behind executor { executor with state := called } := by
    refine ⟨(disarmed_callControl through fun _ => rfl).symm, ?_, rfl, .inl rfl⟩
    rw [callControl_link through]
    exact id
  obtain ⟨other, settlesToo, same⟩ := settles_behind behind settles
  have unarmed := unarmed_of_cancel orderly.attached through
  refine ⟨orderly_of_unarmed unarmed (lowered_callControl through orderly.lowered), other,
    settlesToo, ?_, notStarting⟩
  rw [same]

theorem Inv.disable {wanted : LinkState K} {executor : Executor K} {next : Parties K} {pow : K}
    (inv : Inv wanted ⟨executor, some (.disable pow)⟩)
    (taken : Parties.access ⟨executor, some (.disable pow)⟩ = some next) : Inv wanted next := by
  obtain ⟨orderly, final, settles, rfl, notStarting⟩ := inv
  cases taken
  have healed : ∀ id, (executor.state.controls id).timerArmed = true → Heals executor :=
    fun id armed => (orderly.armed id armed).resolve_left fun trusted => trusted.1 pow rfl
  have after : Orderly (Trusted (some (.enqueue (.setSpeedImpl pow))))
      { executor with state := executor.state.setEnabled false } :=
    ⟨orderly.attached, fun id armed => .inr (healed id armed), orderly.silenced, fun _ => rfl⟩
  have behind : Behind executor { executor with state := executor.state.setEnabled false } :=
    ⟨rfl, nofun, rfl, .inl rfl⟩
  obtain ⟨other, settlesToo, same⟩ := settles_behind behind settles
  refine ⟨after, other, settlesToo, ?_⟩
  have consistent := settles_consistent (after.mono fun _ => trivial) settlesToo
  have idle := disabled_of_settles after settlesToo notStarting rfl
  rw [same, disarmed_eq consistent idle]
  rfl

theorem Inv.testTarget {wanted : LinkState K} {executor : Executor K} {next : Parties K}
    {target : K} (inv : Inv wanted ⟨executor, some (.testTarget target)⟩)
    (timely : pendingControl executor = none ∨
      executor.state.link.spdControlEnabled = false ∧ pendingControl executor ≠ some true)
    (taken : Parties.access ⟨executor, some (.testTarget target)⟩ = some next) :
    Inv wanted next := by
  obtain ⟨orderly, final, settles, completed⟩ := inv
  cases taken
  unfold LinkState.setControlTarget at completed
  split at completed
  · cases completed
  · by_cases running : executor.state.link.spdControlEnabled = true
    · have plain : pendingControl executor = none :=
        timely.resolve_right fun idle => absurd idle.1 (by simp [running])
      have still : final.link.spdControlEnabled = true := by
        rw [settles_flag orderly.lowered settles, plain]
        exact running
      rw [if_pos running]
      simp only [still, Bool.not_true, Bool.false_eq_true, ↓reduceIte] at completed
      exact ⟨orderly.mono fun _ => nofun, final, settles, completed, plain⟩
    · have notStarting : pendingControl executor ≠ some true := by
        rcases timely with none | idle
        · simp [none]
        · exact idle.2
      have idle := disabled_of_settles orderly settles notStarting (by simpa using running)
      rw [if_neg running]
      simp only [idle, Bool.not_false, ↓reduceIte, Option.some.injEq] at completed
      exact ⟨orderly.mono fun _ => nofun, completed ▸ settles⟩

theorem Inv.setTarget {wanted : LinkState K} {executor : Executor K} {next : Parties K}
    {target : K} (inv : Inv wanted ⟨executor, some (.setTarget target)⟩)
    (taken : Parties.access ⟨executor, some (.setTarget target)⟩ = some next) :
    Inv wanted next := by
  obtain ⟨orderly, final, settles, completed, plain⟩ := inv
  obtain ⟨called, through, rfl⟩ := Option.map_eq_some_iff.mp taken
  obtain ⟨other, settlesToo, same⟩ := settles_callControl plain through settles
  have timers := callControl_armed through fun _ => rfl
  refine ⟨⟨?_, ?_, ?_, lowered_callControl through orderly.lowered⟩, ?_⟩
  · intro id armed
    exact attached_callControl orderly.attached through id armed
  · intro id armed
    refine (orderly.armed id ((timers id).symm.trans armed)).imp_left fun on => ⟨nofun, ?_⟩
    show called.link.spdControlEnabled = true
    rw [callControl_link through]
    exact on.2
  · exact fun ended id => (timers id).trans (orderly.silenced ended id)
  · rw [Option.some.inj (completed.symm.trans same)]
    exact settlesToo

theorem Inv.access {wanted : LinkState K} {parties next : Parties K} (inv : Inv wanted parties)
    (timely : Timely parties .access) (taken : step parties .access = some next) :
    Inv wanted next := by
  obtain ⟨executor, client⟩ := parties
  cases client with
  | none => cases taken
  | some access =>
      cases access with
      | test pow => exact inv.test timely taken
      | cancel pow => exact inv.cancel taken
      | disable pow => exact inv.disable taken
      | present target =>
          obtain ⟨_, ⟨⟩⟩ := Option.ite_none_left_eq_some.mp taken
          exact ⟨inv.orderly.mono fun _ => nofun, inv.ahead⟩
      | testTarget target => exact inv.testTarget timely taken
      | setTarget target => exact inv.setTarget taken
      | enqueue request =>
          cases taken
          obtain ⟨orderly, final, settles, completed⟩ := inv
          exact ⟨(orderly.mono fun _ => nofun).enqueue request,
            settles.enqueue (settles_exec completed)⟩

theorem Inv.issue {wanted after : LinkState K} {executor : Executor K} {call : Call K}
    (inv : Inv wanted ⟨executor, none⟩) (completed : complete wanted call = some after) :
    Inv after ⟨executor, some (enter call)⟩ := by
  obtain ⟨orderly, settles⟩ := inv
  have ready : Orderly (Trusted (some (enter call))) executor := by
    refine orderly.mono fun _ pow clearing => ?_
    cases call <;> cases clearing
  refine ⟨ready, ?_⟩
  cases call with
  | setSpeed pow => exact ⟨wanted, settles, (complete_setSpeed wanted pow).symm.trans completed⟩
  | setControlTarget target =>
      exact ⟨wanted, settles, (complete_setControlTarget wanted target).symm.trans completed⟩
  | setSpeedForce | setEncoder | reverseMotor | setSpeedScalar | startSpeedControl
  | setSpeedController | stopSpeedControl =>
      exact ⟨wanted, settles, (complete_enqueue rfl).symm.trans completed⟩

theorem Inv.run {wanted final : LinkState K} {parties last : Parties K} {actions : List (Action K)}
    (inv : Inv wanted parties) (timely : Along step Timely parties actions)
    (taken : run step parties actions = some last)
    (completed : execAll complete wanted (issuedCalls actions) = some final) : Inv final last := by
  induction actions generalizing parties wanted with
  | nil =>
      cases taken
      cases completed
      exact inv
  | cons action rest ih =>
      obtain ⟨next, first, later⟩ := Option.bind_eq_some_iff.mp taken
      have onward := timely.2 next first
      cases action with
      | serve => exact ih (inv.serve timely.1 first) onward later completed
      | access => exact ih (inv.access timely.1 first) onward later completed
      | issue call =>
          obtain ⟨after, firstCall, otherCalls⟩ := Option.bind_eq_some_iff.mp completed
          obtain ⟨executor, client⟩ := parties
          obtain ⟨idle, ⟨⟩⟩ := Option.ite_none_right_eq_some.mp first
          cases client with
          | none => exact ih (inv.issue firstCall) onward later otherCalls
          | some access => cases idle

theorem inv_initial {start : LinkState K} (consistent : Consistent start) :
    Inv start (initial start) :=
  ⟨(orderly_idle consistent).mono fun _ => nofun, .done ⟨rfl, rfl⟩⟩

/-- The client is in setSpeed, or has returned. -/
def InSetSpeed : Option (Client K) → Prop
  | none | some (.test _) | some (.cancel _) | some (.disable _) => True
  | some (.enqueue request) => control request = none
  | _ => False

/-- The client is in setSpeed, and a start is pending that is the last to decide. -/
structure Overtakes (parties : Parties K) : Prop where
  starts : pendingControl parties.executor = some true
  lowered : Lowered parties.executor.executing →
    parties.executor.state.link.spdControlEnabled = false
  client : InSetSpeed parties.client

theorem Overtakes.access {parties next : Parties K} (overtakes : Overtakes parties)
    (taken : step parties .access = some next) : Overtakes next := by
  obtain ⟨executor, client⟩ := parties
  obtain ⟨starts, lowered, inside⟩ := overtakes
  cases client with
  | none => cases taken
  | some access =>
      cases access with
      | test pow =>
          cases taken
          refine ⟨starts, lowered, ?_⟩
          by_cases running : executor.state.link.spdControlEnabled = true
          · simp only [running, ↓reduceIte]
            trivial
          · simp only [running, Bool.false_eq_true, ↓reduceIte]
            rfl
      | cancel pow =>
          obtain ⟨called, through, rfl⟩ := Option.map_eq_some_iff.mp taken
          exact ⟨starts, lowered_callControl through lowered, trivial⟩
      | disable pow =>
          cases taken
          exact ⟨starts, fun _ => rfl, rfl⟩
      | enqueue request =>
          cases taken
          exact ⟨(pendingControl_enqueue inside executor).trans starts, lowered, trivial⟩
      | present | testTarget | setTarget => cases inside

/-- A setSpeed call that looks at the flag too early, and then goes on at once,
does not undo the start. -/
theorem not_settles_untimely {wanted final : LinkState K} {parties last : Parties K} {pow : K}
    {accesses : Nat} (inv : Inv wanted parties) (testing : parties.client = some (.test pow))
    (untimely : ¬Timely parties .access)
    (taken : run step parties (List.replicate accesses .access) = some last)
    (settles : Settles last.executor final) : final ≠ wanted := by
  obtain ⟨executor, client⟩ := parties
  cases testing
  obtain ⟨orderly, before, settlesBefore, completed⟩ := inv
  have overtakes : Overtakes ⟨executor, some (.test pow)⟩ :=
    ⟨not_not.mp untimely, orderly.lowered, trivial⟩
  have along : Along step (fun _ action => action = .access) ⟨executor, some (.test pow)⟩
      (List.replicate accesses .access) :=
    Along.of_forall (fun _ member _ => List.eq_of_mem_replicate member) _
  have after : Overtakes last := run_invariant_along Overtakes
    (fun _ _ _ inside same first => inside.access (same ▸ first)) overtakes along taken
  have running : final.link.spdControlEnabled = true := by
    rw [settles_flag after.lowered settles, after.starts]
    rfl
  rintro rfl
  obtain ⟨freed, released, rfl⟩ := Option.map_eq_some_iff.mp completed
  have consistent := settles_consistent (orderly.mono fun _ => trivial) settlesBefore
  rw [releaseControl_eq consistent released] at running
  cases running

/-- Under every lag of the queue thread and every interleaving of the accesses of
both threads, timely calls take effect in the order they are issued in. A setSpeed
call that looks at the flag at any other moment takes another effect, if it is not
delayed any further. -/
theorem calls_in_issue_order :
    (∀ (start : LinkState K) (actions : List (Action K)), Consistent start →
      Along step Timely (initial start) actions → InIssueOrder start actions) ∧
    ∀ (start : LinkState K) (actions : List (Action K)) (parties last : Parties K) (pow : K)
      (accesses : Nat) (settled final : LinkState K), Consistent start →
      Along step Timely (initial start) actions →
      run step (initial start) actions = some parties →
      execAll complete start (issuedCalls actions) = some final →
      parties.client = some (.test pow) → ¬Timely parties .access →
      run step parties (List.replicate accesses .access) = some last →
      Settles last.executor settled → settled ≠ final := by
  constructor
  · intro start actions consistent timely parties final taken returned drained completed
    have last := (inv_initial consistent).run timely taken completed
    have settles := last.ahead
    rw [returned] at settles
    exact (Drains.state_eq settles drained).symm
  · intro start actions parties last pow accesses settled final consistent timely taken completed
      testing untimely finished settles
    have inv := (inv_initial consistent).run timely taken completed
    exact not_settles_untimely inv testing untimely finished settles

end Runs

/-- One call of the client: its beginning and so many accesses. -/
def calls (call : Call ℚ) (accesses : Nat) : List (Action ℚ) :=
  .issue call :: List.replicate accesses .access

/-- The client stops the controller and sets the speed. The queue thread has
finished the start when setSpeed looks at the flag, and executes the stop among
the accesses of setSpeed. -/
def restart : List (Action ℚ) :=
  calls (.startSpeedControl 90) 1 ++ calls .stopSpeedControl 1 ++ List.replicate 6 .serve ++
    calls (.setSpeed (1 / 2)) 1 ++ List.replicate 3 .serve ++ [.access, .serve] ++
    [.access, .access] ++ List.replicate 2 .serve

theorem calls_in_issue_order_restart :
    (∃ parties final, run step (initial (freshLink linearAngleTarget)) restart = some parties ∧
      execAll complete (freshLink linearAngleTarget) (issuedCalls restart) = some final ∧
      parties.executor.state = final) ∧
    ∃ settled final, Settles ⟨freshLink linearSpeedTarget, none,
        [.startSpeedControlImpl 90, .setSpeedImpl (1 / 2)]⟩ settled ∧
      execAll complete (freshLink linearSpeedTarget) [.startSpeedControl 90, .setSpeed (1 / 2)] =
        some final ∧ settled ≠ final := by
  constructor
  · exact ⟨_, _, rfl, rfl, calls_in_issue_order.1 (freshLink linearAngleTarget) restart nofun
      (by decide +kernel) _ _ rfl rfl ⟨rfl, rfl⟩ rfl⟩
  · have idle : Settles (⟨freshLink linearSpeedTarget, none, []⟩ : Executor ℚ) _ := .done ⟨rfl, rfl⟩
    have started : Settles ⟨freshLink linearSpeedTarget, none, [.startSpeedControlImpl 90]⟩ _ :=
      idle.enqueue (settles_exec rfl)
    have settles : Settles ⟨freshLink linearSpeedTarget, none,
        [.startSpeedControlImpl 90, .setSpeedImpl (1 / 2)]⟩ _ :=
      started.enqueue (settles_exec rfl)
    refine ⟨_, _, settles, rfl, ?_⟩
    exact calls_in_issue_order.2 (freshLink linearSpeedTarget)
      (calls (.startSpeedControl 90) 1 ++ [.issue (.setSpeed (1 / 2))]) _ _ (1 / 2) 2 _ _
      nofun (by decide +kernel) rfl rfl rfl (by decide +kernel) rfl settles

/-- A setSpeed call that overtakes the start it should have undone. -/
theorem not_inIssueOrder_overtaken :
    ¬InIssueOrder (freshLink linearAngleTarget)
      (calls (.startSpeedControl 90) 1 ++ calls (.setSpeed (1 / 2)) 2 ++
        List.replicate 8 .serve) := by
  intro inOrder
  have same := congrArg (fun state => state.link.spdControlEnabled)
    (inOrder _ _ rfl rfl ⟨rfl, rfl⟩ rfl)
  exact absurd same (by decide +kernel)

/-- A controller is started again and then replaced, and setSpeed follows. -/
def replaced : List (Action ℚ) :=
  calls (.startSpeedControl 90) 1 ++ List.replicate 6 .serve ++
    calls (.startSpeedControl 90) 1 ++ calls (.setSpeedController (some 1)) 1 ++
    calls (.setSpeed (1 / 2)) 2 ++ List.replicate 6 .serve ++ [.access, .access] ++
    List.replicate 5 .serve

/-- Each call looks at the flag in time here, but the second start sets it between the
cancel of setSpeed and the access that clears it. The timer of the controller that
has been replaced then stays armed. -/
example :
    (run step (initial (freshLink linearAngleTarget)) replaced).map (fun parties =>
        (parties.client.isNone, decide parties.executor.Drained,
          (parties.executor.state.controls 0).timerArmed)) = some (true, true, true) ∧
      (execAll complete (freshLink linearAngleTarget) (issuedCalls replaced)).map (fun state =>
        (state.controls 0).timerArmed) = some false := by
  decide +kernel

end FrcRobot.MotorLink
